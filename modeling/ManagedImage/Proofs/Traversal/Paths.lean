import ManagedImage.Proofs.Failing.Forgetting
import ManagedImage.Proofs.Traversal.Preorder

/-!
# Paths of nested types

A type can be reached inwards, over the types that are nested in one another, and outwards, over the
types that enclose one another.  In a consistent nesting the two directions agree, and one path
leads to a type.  A walk only comes to types at the ends of paths, even where some lists cannot be
read.

## Main definitions

* `Readout.inner` — the types nested in a type, as far as they can be read.
* `Readout.Around` — a path that leads in to a type, over the types that enclose one another.
* `Readout.PathTo` — a path of nested types that leads from the list of a module to a type.
* `Readout.Agrees` — the types that enclose types are those that nest them.
* `Traversal.Visits` — a walk comes to a type.

## Main results

* `Readout.Around.length_le` — no path is longer than one that cannot be led on outwards.
* `Readout.PathTo.unique` — one path leads to a type, where the two directions agree.
* `Graph.Shows.agrees` — the two directions agree in a consistent nesting.
* `Traversal.next_cases` — what one step of a walk can do.
* `Traversal.Visits.exists_pathTo` — **a walk comes to types at the ends of paths of nested types.**
-/

namespace ManagedImage

/-! ### Paths -/

namespace Readout

variable {n : Readout} {M : Ref .module} {E S T : Ref .typeDef} {path path' : List (Ref .typeDef)}
  {Rs : List (Ref .nestedClass)} {types : List (Ref .typeDef)}

/-- The types that records nest. -/
def typesOf (n : Readout) : List (Ref .nestedClass) → Except Error (List (Ref .typeDef))
  | [] => return []
  | R :: Rs => do
    let T ← n.nested R
    let types ← n.typesOf Rs
    return T.toList ++ types

/-- The types that are nested directly in a type. -/
def inner (n : Readout) (E : Ref .typeDef) : Except Error (List (Ref .typeDef)) := do
  n.typesOf (← n.records E)

/-- `T` is among the types that are nested directly in `E`. -/
def Nests (n : Readout) (E T : Ref .typeDef) : Prop := ∃ types, n.inner E = .ok types ∧ T ∈ types

/-- The path leads in to `T`, and each type on it encloses the next. -/
inductive Around (n : Readout) (T : Ref .typeDef) : List (Ref .typeDef) → Prop where
  /-- `T` alone. -/
  | self : Around n T [T]
  /-- One step further outwards. -/
  | outward {E S : Ref .typeDef} {path : List (Ref .typeDef)}
    (henclosing : n.declaring S = .ok (some E)) (h : Around n T (S :: path)) :
    Around n T (E :: S :: path)

/-- The path leads from the list of a module in to a type, and each type on it nests the next. -/
inductive PathTo (n : Readout) (M : Ref .module) : List (Ref .typeDef) → Ref .typeDef → Prop where
  /-- A type in the list of the module. -/
  | top {T : Ref .typeDef} {types : List (Ref .typeDef)} (htypes : n.types M = .ok types)
    (hT : T ∈ types) : PathTo n M [T] T
  /-- One step further inwards. -/
  | inward {E T : Ref .typeDef} {path : List (Ref .typeDef)} (h : PathTo n M path E)
    (hT : n.Nests E T) : PathTo n M (path ++ [T]) T

/-- What encloses a type is what nests it, and nothing encloses a type in the list of a module. -/
structure Agrees (n : Readout) : Prop where
  /-- The type that encloses a type is the one that nests it. -/
  declaring_iff : ∀ {E T}, n.declaring T = .ok (some E) ↔ n.Nests E T
  /-- Nothing encloses a type in the list of a module. -/
  declaring_of_mem : ∀ {M types T}, n.types M = .ok types → T ∈ types → n.declaring T = .ok none

theorem mem_typesOf (h : n.typesOf Rs = .ok types) (hT : T ∈ types) :
    ∃ R ∈ Rs, n.nested R = .ok (some T) := by
  induction Rs generalizing types with
  | nil =>
    obtain rfl : [] = types := Except.ok.inj h
    exact absurd hT List.not_mem_nil
  | cons R Rs ih =>
    obtain ⟨U, hU, h⟩ := exists_of_bind_eq_ok h
    obtain ⟨rest, hrest, h⟩ := exists_of_bind_eq_ok h
    obtain rfl : U.toList ++ rest = types := Except.ok.inj h
    rcases List.mem_append.mp hT with hT | hT
    · exact ⟨R, List.mem_cons_self, hU.trans (congrArg _ (Option.mem_toList.mp hT))⟩
    · obtain ⟨S, hS, hnested⟩ := ih hrest hT
      exact ⟨S, List.mem_cons_of_mem R hS, hnested⟩

theorem typesOf_eq {f : Ref .nestedClass → Option (Ref .typeDef)}
    (h : ∀ R ∈ Rs, n.nested R = .ok (f R)) : n.typesOf Rs = .ok (Rs.filterMap f) := by
  induction Rs with
  | nil => rfl
  | cons R Rs ih =>
    rw [typesOf, h R List.mem_cons_self, ih fun S hS => h S (List.mem_cons_of_mem R hS)]
    cases hR : f R <;> simp [hR, bind, Except.bind, pure, Except.pure]

/-- Ways outwards do not fork. -/
theorem Around.eq_of_length (h : n.Around T path) (h' : n.Around T path')
    (hlength : path.length = path'.length) : path = path' := by
  induction h generalizing path' with
  | self =>
    cases h' with
    | self => rfl
    | outward _ _ => simp at hlength
  | outward hE _ ih =>
    cases h' with
    | self => simp at hlength
    | outward hE' h' =>
      obtain ⟨rfl, rfl⟩ := List.cons.inj (ih h' (by simpa using hlength))
      rw [Option.some.inj (Except.ok.inj (hE.symm.trans hE'))]

/-- No way outwards leads beyond a type that nothing encloses. -/
theorem Around.length_le (h : n.Around T (S :: path)) (hS : ∀ E, n.declaring S ≠ .ok (some E))
    (h' : n.Around T path') : path'.length ≤ (S :: path).length := by
  induction h' with
  | self => exact Nat.le_add_left 1 _
  | @outward E S' path' hE h' ih =>
    rcases Nat.lt_or_eq_of_le ih with hlt | heq
    · exact hlt
    · -- the same length, so the way leads outwards from `S`
      obtain ⟨rfl, rfl⟩ := List.cons.inj (h'.eq_of_length h heq)
      exact absurd hE (hS E)

/-- A way outwards passes over all shorter ones. -/
theorem Around.isSuffix_of_length_le (h : n.Around T path) (h' : n.Around T path')
    (hle : path'.length ≤ path.length) : path' <:+ path := by
  induction h with
  | self =>
    cases h' with
    | self => exact List.suffix_rfl
    | outward _ _ => simp at hle
  | outward hE h ih =>
    rcases Nat.lt_or_eq_of_le hle with hlt | heq
    · exact (ih (Nat.le_of_lt_succ hlt)).trans (List.suffix_cons _ _)
    · rw [h'.eq_of_length (.outward hE h) heq]

/-- A way outwards that ends within the limit leaves no longer one. -/
theorem Around.not_exists_longer {limit : Nat} (h : n.Around T (S :: path))
    (hS : ∀ E, n.declaring S ≠ .ok (some E)) (hpath : path.length ≤ limit) :
    ¬∃ path', n.Around T path' ∧ limit + 1 < path'.length := by
  rintro ⟨path', h', hlonger⟩
  have hle := h.length_le hS h'
  rw [List.length_cons] at hle
  omega

/-- There is one way outwards to the end. -/
theorem Around.eq_of_ends {S' : Ref .typeDef} (h : n.Around T (S :: path))
    (hS : ∀ E, n.declaring S ≠ .ok (some E)) (h' : n.Around T (S' :: path'))
    (hS' : ∀ E, n.declaring S' ≠ .ok (some E)) : S :: path = S' :: path' :=
  h.eq_of_length h' (Nat.le_antisymm (h'.length_le hS' h) (h.length_le hS h'))

theorem Around.inward (h : n.Around E path) (hE : n.declaring T = .ok (some E)) :
    n.Around T (path ++ [T]) := by
  induction h with
  | self => exact .outward hE .self
  | outward hS _ ih => exact .outward hS ih

/-- A path of nested types is a way in from a type that nothing encloses. -/
theorem PathTo.around (h : n.PathTo M path T) (hn : n.Agrees) :
    n.Around T path ∧ ∃ S rest, path = S :: rest ∧ n.declaring S = .ok none := by
  induction h with
  | top htypes hT => exact ⟨.self, _, [], rfl, hn.declaring_of_mem htypes hT⟩
  | @inward _ T _ _ hT ih =>
    obtain ⟨haround, S, rest, rfl, hS⟩ := ih
    exact ⟨haround.inward (hn.declaring_iff.mpr hT), S, rest ++ [T], rfl, hS⟩

/-- Where the two directions agree, one path of nested types leads to a type. -/
theorem PathTo.unique (h : n.PathTo M path T) (h' : n.PathTo M path' T) (hn : n.Agrees) :
    path = path' := by
  obtain ⟨haround, S, rest, rfl, hS⟩ := h.around hn
  obtain ⟨haround', S', rest', rfl, hS'⟩ := h'.around hn
  exact haround.eq_of_ends (by simp [hS]) haround' (by simp [hS'])

end Readout

namespace Graph

variable {g : Graph} {n : Nesting} {k : EntityKind} {M : Ref .module} {E T : Ref .typeDef}
  {Rs : List (Ref .nestedClass)}

/-- What is not the default can be read. -/
theorem value_of_valueD_ne {p : Part k} {r : Ref k} {d : p.Value} (h : g.valueD p r d ≠ d) :
    p.attr.value r g = .ok (g.valueD p r d) := by
  unfold valueD at h ⊢
  cases hv : p.attr.value r g with
  | ok v => rfl
  | error e =>
    rw [hv] at h
    exact absurd rfl h

/-- What is nested in a type that is there can be read. -/
theorem Shows.readout_inner (hg : g.Shows n) (hE : g.isPresent E.any) :
    g.readout.inner E = .ok (g.inner E) := by
  have hrecords : g.readout.records E = .ok (g.valueD .nestedClasses E []) :=
    value_eq_ok_valueD hg.resolvable (p := .nestedClasses) trivial hE []
  rw [Readout.inner, hrecords]
  refine Readout.typesOf_eq fun R hR => ?_
  exact value_eq_ok_valueD hg.resolvable (p := .nested) trivial
    (hg.sound.held .nestedClasses E _ hrecords R.any (List.mem_map_of_mem hR)) none

theorem Shows.nests (hg : g.Shows n) (hE : g.isPresent E.any) (hT : T ∈ g.inner E) :
    g.readout.Nests E T :=
  ⟨_, hg.readout_inner hE, hT⟩

/-- A path starts in the list of a module that is there. -/
theorem Shows.pathTo_top (hg : g.Shows n) (hM : g.isPresent M.any)
    (hT : T ∈ g.valueD .topLevelTypes M []) : g.readout.PathTo M [T] T :=
  .top (value_eq_ok_valueD hg.resolvable (p := .topLevelTypes) trivial hM []) hT

/-- **In a consistent nesting that can be read**, what encloses a type is what nests it. -/
theorem Shows.agrees (hg : g.Shows n) (hn : n.Consistent) : g.readout.Agrees := by
  obtain rfl := hg.nesting_eq
  have hpart := isPartOf_nesting g
  have hdeclaring : ∀ T, g.isPresent T.any → g.readout.declaring T = .ok (g.nesting.declaring T) :=
    fun T hT => congrArg (g.presentOnly <$> ·)
      (value_eq_ok_valueD hg.resolvable (p := .declaringType) trivial hT none)
  constructor
  · intro E T
    constructor
    · intro hE
      obtain ⟨R, hR, hT⟩ := hn.declaring_eq_some.mp (hpart.declaring hE)
      have hrecords : Attribute.TypeDef.nestedClasses.value E g = .ok (g.nesting.records E) :=
        value_of_valueD_ne (p := .nestedClasses) (List.ne_nil_of_mem hR)
      exact ⟨g.inner E, hg.readout_inner (isPresent_of_value (p := .nestedClasses) hrecords),
        List.mem_filterMap.mpr ⟨R, hR, hT⟩⟩
    · rintro ⟨types, htypes, hT⟩
      obtain ⟨Rs, hrecords, htypes⟩ := exists_of_bind_eq_ok htypes
      obtain ⟨R, hR, hnested⟩ := Readout.mem_typesOf htypes hT
      have hpresent := hg.sound.held .nested R _ hnested T.any (List.mem_singleton_self _)
      rw [hdeclaring T hpresent, hn.declaring_eq_some.mpr]
      exact ⟨R, hpart.records hrecords ▸ hR, hpart.nested hnested⟩
  · intro M types T htypes hT
    have hpresent := hg.sound.held .topLevelTypes M _ htypes T.any (List.mem_map_of_mem hT)
    rw [hdeclaring T hpresent]
    refine congrArg _ ((hn.exclusive T).resolve_left ?_)
    rw [hn.mem_types.mp (hpart.types htypes ▸ hT)]
    simp

/-! ### Looking inwards -/

/-- The types that records nest. -/
theorem Sound.glances_typesOf (hg : g.Sound) (hRs : ∀ R ∈ Rs, g.isAlive R.any) :
    g.Glances (typesOf Rs) (g.readout.typesOf Rs) fun types g' =>
      ∀ T ∈ types, g'.isAlive T.any := by
  induction Rs generalizing g with
  | nil => exact .pure hg fun T hT => absurd hT List.not_mem_nil
  | cons R Rs ih =>
    refine (hg.glances_nested (hRs R List.mem_cons_self)).bind fun U g₁ _ hload hg₁ hU => ?_
    rw [← hload.readout_eq]
    refine (ih hg₁ fun S hS => hload.alive _ (hRs S (List.mem_cons_of_mem R hS))).bind
      fun types g₂ _ hload' hg₂ htypes => .pure hg₂ fun T hT => ?_
    rcases List.mem_append.mp hT with hT | hT
    · exact hload'.alive _ (hU T (Option.mem_toList.mp hT))
    · exact htypes T hT

/-- The types that are nested directly in a type. -/
theorem Sound.glances_nestedTypes (hg : g.Sound) (hE : g.isAlive E.any) :
    g.Glances (nestedTypes E) (g.readout.inner E) fun types g' =>
      ∀ T ∈ types, g'.isAlive T.any := by
  refine (hg.glances_records hE).bind fun Rs g₁ _ hload hg₁ hRs => ?_
  rw [← hload.readout_eq]
  exact hg₁.glances_typesOf hRs

end Graph

/-! ### Walks -/

namespace Traversal

variable {g g' g₀ : Graph} {walk rest : Traversal} {M : Ref .module} {E T : Ref .typeDef}
  {types inner : List (Ref .typeDef)}
  {item? : Option (Except Error (Ref .typeDef))} {limit : Nat}

/-- Sooner or later the walk tells the type, and the graph is `g'` then. -/
inductive Visits : Traversal → Graph → Ref .typeDef → Graph → Prop where
  /-- The type is told next. -/
  | here {walk rest : Traversal} {g g' : Graph} {T : Ref .typeDef}
    (h : (walk.next.run g).run = ((some (.ok T), rest), g')) : Visits walk g T g'
  /-- Something else is told next, and the type later. -/
  | later {walk rest : Traversal} {g g' g'' : Graph} {T : Ref .typeDef}
    {item : Except Error (Ref .typeDef)} (h : (walk.next.run g).run = ((some item, rest), g'))
    (hrest : Visits rest g' T g'') : Visits walk g T g''

/-- **What one step of a walk can do**: it tells no type and the walk is at its end, or it tells the
type that comes next and goes on with what is nested in it, as far as that can be read. -/
theorem next_cases (h : (walk.next.run g).run = ((item?, rest), g')) :
    rest.limit = walk.limit ∧
      ((rest.pending = [] ∧ g' = g ∧ ∀ T, item? ≠ some (.ok T)) ∨
        ∃ T depth pending r, walk.pending = (T, depth) :: pending ∧ depth ≤ walk.limit ∧
          item? = some (.ok T) ∧ (Graph.nestedTypes T).runOn g = (r, g') ∧
          rest.pending = (r.toOption.getD []).map (fun U => (U, depth + 1)) ++ pending) := by
  obtain ⟨pending, limit, error?⟩ := walk
  cases error? with
  | some e =>
    cases h
    exact ⟨rfl, .inl ⟨rfl, rfl, by simp⟩⟩
  | none =>
    cases pending with
    | nil =>
      cases h
      exact ⟨rfl, .inl ⟨rfl, rfl, by simp⟩⟩
    | cons entry pending =>
      obtain ⟨T, depth⟩ := entry
      rcases Nat.lt_or_ge limit depth with hdeep | hdepth
      · cases (next_of_lt hdeep).symm.trans h
        exact ⟨rfl, .inl ⟨rfl, rfl, by simp⟩⟩
      · rcases hrun : (Graph.nestedTypes T).runOn g with ⟨e | types, g₁⟩
        · cases (next_of_error hdepth hrun).symm.trans h
          exact ⟨rfl, .inr ⟨T, depth, pending, _, rfl, hdepth, rfl, hrun, rfl⟩⟩
        · cases (next_of_le hdepth hrun).symm.trans h
          exact ⟨rfl, .inr ⟨T, depth, pending, _, rfl, hdepth, rfl, hrun, rfl⟩⟩

/-- What the walk is still to visit exists, and each type lies at the end of a path of nested types
that has as many steps as the walk says. -/
structure OnPaths (walk : Traversal) (n : Readout) (M : Ref .module) (limit : Nat) (g : Graph) :
    Prop where
  /-- The walk goes as deep as it may. -/
  limit_eq : walk.limit = limit
  /-- What is to be visited. -/
  pending : ∀ T depth, (T, depth) ∈ walk.pending →
    g.isAlive T.any ∧ ∃ path, n.PathTo M path T ∧ path.length = depth + 1

/-- **One step of a walk keeps it on paths**, and what it tells lies at the end of one. -/
theorem OnPaths.next (hwalk : walk.OnPaths g₀.readout M limit g) (hg : g.Sound)
    (hload : g₀.LoadsTo g) (h : (walk.next.run g).run = ((item?, rest), g')) :
    (g'.Sound ∧ g₀.LoadsTo g' ∧ rest.OnPaths g₀.readout M limit g') ∧
      ∀ T, item? = some (.ok T) → g'.isAlive T.any ∧
        ∃ path, g₀.readout.PathTo M path T ∧ path.length ≤ limit + 1 := by
  obtain ⟨hlimit, ⟨hrest, rfl, hitem⟩ |
    ⟨T, depth, pending, r, hpending, hdepth, rfl, hrun, hrest⟩⟩ := next_cases h
  · refine ⟨⟨hg, hload, hlimit.trans hwalk.limit_eq, fun T depth hT => ?_⟩,
      fun T hT => absurd hT (hitem T)⟩
    rw [hrest] at hT
    exact absurd hT List.not_mem_nil
  · obtain ⟨hT, path, hpath, hlength⟩ :=
      hwalk.pending T depth (hpending ▸ List.mem_cons_self)
    obtain ⟨g₁, hrun₁, hload₁, hg₁, htypes⟩ := hg.glances_nestedTypes hT
    obtain ⟨rfl, rfl⟩ := Prod.mk.inj (hrun₁.symm.trans hrun)
    refine ⟨⟨hg₁, hload.trans hload₁, hlimit.trans hwalk.limit_eq, fun U d hU => ?_⟩, ?_⟩
    · rw [hrest] at hU
      rcases List.mem_append.mp hU with hU | hU
      · -- a type that is nested in the one that is told lies one step further inwards
        obtain ⟨V, hV, heq⟩ := List.mem_map.mp hU
        obtain ⟨rfl, rfl⟩ := Prod.mk.inj heq
        cases hinner : g.readout.inner T with
        | error e =>
          rw [hinner] at hV
          exact absurd hV List.not_mem_nil
        | ok types =>
          rw [hinner] at hV
          refine ⟨htypes types hinner V hV, path ++ [V], .inward hpath ⟨types, ?_, hV⟩, ?_⟩
          · rw [← hload.readout_eq, hinner]
          · rw [List.length_append, List.length_singleton, hlength]
      · obtain ⟨hU, path', hpath'⟩ := hwalk.pending U d (hpending ▸ List.mem_cons_of_mem _ hU)
        exact ⟨hload₁.alive _ hU, path', hpath'⟩
    · rintro U ⟨⟩
      have hle := hwalk.limit_eq
      exact ⟨hload₁.alive _ hT, path, hpath, by omega⟩

/-- **A walk comes to types at the ends of paths of nested types**, and no path is too long. -/
theorem Visits.exists_pathTo (h : walk.Visits g T g') (hwalk : walk.OnPaths g₀.readout M limit g)
    (hg : g.Sound) (hload : g₀.LoadsTo g) :
    g'.Sound ∧ g₀.LoadsTo g' ∧ g'.isAlive T.any ∧
      ∃ path, g₀.readout.PathTo M path T ∧ path.length ≤ limit + 1 := by
  induction h with
  | here h =>
    obtain ⟨⟨hg', hload', -⟩, hitem⟩ := hwalk.next hg hload h
    exact ⟨hg', hload', hitem _ rfl⟩
  | later h _ ih =>
    obtain ⟨⟨hg', hload', hrest⟩, -⟩ := hwalk.next hg hload h
    exact ih hrest hg' hload'

/-- After its first type, a walk comes to the first type that is nested in it. -/
theorem exists_visits (hg : g.Sound) (hlists : g.ListsResolvable) (hM : g.isAlive M.any)
    (htypes : g.valueD .topLevelTypes M [] = E :: types) (hinner : g.inner E = T :: inner)
    (hlimit : 0 < g.depth M) :
    ∃ g₁, ((start M).run g).run.1.Visits ((start M).run g).run.2 T g₁ ∧ g.ReadsTo g₁ ∧
      g₁.isAlive T.any := by
  have hvalue := Graph.value_of_valueD_ne (p := .topLevelTypes) (htypes.trans_ne (by simp))
  rw [htypes] at hvalue
  obtain ⟨g₁, hrun₁, -, hreads₁, halive₁⟩ := hg.yields_read .topLevelTypes hM hvalue
  have hload₁ := hreads₁.loadsTo hg
  obtain ⟨g₂, hrun₂, -, hreads₂, halive₂⟩ := (hreads₁.sound hg).yields_nestedTypes
    (hload₁.listsResolvable hlists) (halive₁ _ (List.mem_map_of_mem List.mem_cons_self))
  rw [hload₁.inner_eq, hinner] at hrun₂ halive₂
  have hT := halive₂ T List.mem_cons_self
  have hreads₂ := hreads₁.trans hreads₂
  have hload₂ := hreads₂.loadsTo hg
  obtain ⟨g₃, hrun₃, hkeeps₃, hreads₃, -⟩ := (hreads₂.sound hg).yields_nestedTypes
    (hload₂.listsResolvable hlists) hT
  refine ⟨g₃, ?_, hreads₂.trans hreads₃, hkeeps₃.alive _ hT⟩
  rw [start_eq hrun₁]
  exact .later (next_of_le (Nat.zero_le _) hrun₂) (.here (next_of_le hlimit hrun₃))

/-- A walk starts on paths. -/
theorem onPaths_start (hg : g.Sound) (hM : g.isAlive M.any) :
    ((start M).run g).run.1.OnPaths g.readout M (g.depth M) ((start M).run g).run.2 ∧
      ((start M).run g).run.2.Sound ∧ g.LoadsTo ((start M).run g).run.2 := by
  obtain ⟨g₁, hrun, hload, hg₁, htypes⟩ := hg.glances_types hM
  cases hread : g.readout.types M with
  | error e =>
    rw [start_eq_of_error (hrun.trans (by rw [hread]))]
    exact ⟨⟨rfl, fun T depth hT => absurd hT List.not_mem_nil⟩, hg₁, hload⟩
  | ok types =>
    rw [start_eq (hrun.trans (by rw [hread]))]
    refine ⟨⟨rfl, fun T depth hT => ?_⟩, hg₁, hload⟩
    obtain ⟨U, hU, heq⟩ := List.mem_map.mp hT
    obtain ⟨rfl, rfl⟩ := Prod.mk.inj heq
    exact ⟨htypes types hread U hU, [U], .top hread hU, rfl⟩

end Traversal

end ManagedImage
