import ManagedImage.Graph.Traversal
import ManagedImage.Proofs.Graph.Reading
import ManagedImage.Proofs.Nesting.Run

/-!
# Walks are preorders

A walk keeps the types that are still to be visited on a stack.  What it gives is a recursion: each
type, and after it what is nested in it.  Where nesting is cyclic the recursion does not end by
itself, so it is unfolded to some level, and the walk does not see beyond its limit anyway.

## Main definitions

* `Graph.ListsResolvable` — the lists that a walk reads can be read.
* `Graph.inner` — the types nested in a type, loaded or not.
* `Traversal.preorder` — the nesting below a type, unfolded to some level.
* `Traversal.cutAt` — entries up to the first one that is too deep.
* `Traversal.Gives` — all steps of a walk, to its end.

## Main results

* `Traversal.Gives.unique` — what a walk gives is determined by where it starts.
* `Traversal.gives_start` — **a walk gives the preorder, cut at its limit, whenever it is taken.**
-/

namespace ManagedImage

namespace Graph

variable {g g' : Graph}

/-- The lists of types and the types that records nest can be read. -/
structure ListsResolvable (g : Graph) : Prop where
  topLevelTypes : ∀ M : Ref .module, g.isPresent M.any →
    ∃ types, Part.topLevelTypes.attr.value M g = .ok types
  nestedClasses : ∀ T : Ref .typeDef, g.isPresent T.any →
    ∃ records, Part.nestedClasses.attr.value T g = .ok records
  nested : ∀ R : Ref .nestedClass, g.isPresent R.any →
    ∃ type, Part.nested.attr.value R g = .ok type

theorem Resolvable.lists (hg : g.Resolvable) : g.ListsResolvable where
  topLevelTypes M hM := hg _ .topLevelTypes M trivial hM
  nestedClasses T hT := hg _ .nestedClasses T trivial hT
  nested R hR := hg _ .nested R trivial hR

/-- The types that are nested directly in a type, whether they have been loaded or not. -/
def inner (g : Graph) (T : Ref .typeDef) : List (Ref .typeDef) :=
  (g.valueD .nestedClasses T []).filterMap fun R => g.valueD .nested R none

theorem LoadsTo.listsResolvable (h : g.LoadsTo g') (hg : g.ListsResolvable) :
    g'.ListsResolvable where
  topLevelTypes M hM := by
    rw [h.value]
    exact hg.topLevelTypes M ((h.present _).symm.trans hM)
  nestedClasses T hT := by
    rw [h.value]
    exact hg.nestedClasses T ((h.present _).symm.trans hT)
  nested R hR := by
    rw [h.value]
    exact hg.nested R ((h.present _).symm.trans hR)

theorem LoadsTo.inner_eq (h : g.LoadsTo g') : g'.inner = g.inner := by
  funext T
  simp only [inner, valueD, h.value]

/-- Reading the types that records nest. -/
theorem Sound.yields_typesOf (hg : g.Sound) (hlists : g.ListsResolvable)
    {records : List (Ref .nestedClass)} (halive : ∀ R ∈ records, g.isAlive R.any) :
    g.Yields (typesOf records) (records.filterMap fun R => g.valueD .nested R none) fun g' =>
      g.ReadsTo g' ∧
        ∀ T ∈ records.filterMap fun R => g.valueD .nested R none, g'.isAlive T.any := by
  induction records generalizing g with
  | nil => exact Yields.pure ⟨.refl, fun T hT => absurd hT List.not_mem_nil⟩
  | cons R records ih =>
    have hR := halive R List.mem_cons_self
    obtain ⟨type, htype⟩ := hlists.nested R (isPresent_of_isAlive hR)
    have hvalue : g.valueD .nested R none = type := valueD_of_value htype none
    refine (hg.yields_read .nested hR htype).bind fun g₁ hkeeps ⟨hreads, hheld⟩ => ?_
    have hload := hreads.loadsTo hg
    have hrest := ih (hreads.sound hg) (hload.listsResolvable hlists) fun S hS =>
      hload.alive _ (halive S (List.mem_cons_of_mem _ hS))
    -- the rest is read in a graph that gives the same values
    simp only [hreads.valueD_eq hg] at hrest
    have hcons : (R :: records).filterMap (fun R => g.valueD .nested R none)
        = type.toList ++ records.filterMap fun R => g.valueD .nested R none := by
      cases type <;> simp [hvalue]
    rw [hcons]
    refine hrest.bind fun g₂ hkeeps₂ ⟨hreads₂, halive₂⟩ => ?_
    refine Yields.pure ⟨hreads.trans hreads₂, fun T hT => ?_⟩
    rcases List.mem_append.mp hT with hT | hT
    · exact hkeeps₂.alive _ (hheld _ (List.mem_map_of_mem hT))
    · exact halive₂ T hT

/-- Reading the types that are nested directly in a type. -/
theorem Sound.yields_nestedTypes (hg : g.Sound) (hlists : g.ListsResolvable) {T : Ref .typeDef}
    (hT : g.isAlive T.any) :
    g.Yields (nestedTypes T) (g.inner T) fun g' =>
      g.ReadsTo g' ∧ ∀ S ∈ g.inner T, g'.isAlive S.any := by
  obtain ⟨records, hrecords⟩ := hlists.nestedClasses T (isPresent_of_isAlive hT)
  have hvalue : g.valueD .nestedClasses T [] = records := valueD_of_value hrecords []
  rw [inner, hvalue]
  refine (hg.yields_read .nestedClasses hT hrecords).bind fun g₁ _ ⟨hreads, hheld⟩ => ?_
  have htypes := (hreads.sound hg).yields_typesOf
    ((hreads.loadsTo hg).listsResolvable hlists) fun R hR => hheld _ (List.mem_map_of_mem hR)
  simp only [hreads.valueD_eq hg] at htypes
  exact htypes.mono fun g₂ _ ⟨hreads₂, halive⟩ => ⟨hreads.trans hreads₂, halive⟩

end Graph

namespace Traversal

variable {g g' g₁ g₂ : Graph} {walk walk' rest : Traversal}

/-! ### What a walk should give -/

/-- The nesting below a type, unfolded so many levels: the type itself, with its depth, and then
what is nested in it, in order. -/
def preorder (inner : Ref .typeDef → List (Ref .typeDef)) :
    (levels depth : Nat) → Ref .typeDef → List (Ref .typeDef × Nat)
  | 0, depth, T => [(T, depth)]
  | levels + 1, depth, T => (T, depth) :: (inner T).flatMap (preorder inner levels (depth + 1))

/-- The types up to the first one that is too deep, and an error in place of that one. -/
def cutAt (limit : Nat) (entries : List (Ref .typeDef × Nat)) :
    List (Except Error (Ref .typeDef)) :=
  (entries.takeWhile (·.2 ≤ limit)).map (fun entry => .ok entry.1)
    ++ if entries.all (·.2 ≤ limit) then [] else [.error (.recursionLimit limit)]

section CutAt

variable {limit depth : Nat} {T : Ref .typeDef} {entries : List (Ref .typeDef × Nat)}

theorem cutAt_cons_of_le (h : depth ≤ limit) :
    cutAt limit ((T, depth) :: entries) = .ok T :: cutAt limit entries := by
  have hd : decide (depth ≤ limit) = true := decide_eq_true h
  simp only [cutAt, List.takeWhile_cons, List.all_cons, hd, if_true, Bool.true_and,
    List.map_cons, List.cons_append]

theorem cutAt_cons_of_lt (h : limit < depth) :
    cutAt limit ((T, depth) :: entries) = [.error (.recursionLimit limit)] := by
  have hd : decide (depth ≤ limit) = false := decide_eq_false (Nat.not_le.mpr h)
  simp only [cutAt, List.takeWhile_cons, List.all_cons, hd, Bool.false_eq_true, if_false,
    Bool.false_and, List.map_nil, List.nil_append]

/-- If nothing is too deep, nothing is cut. -/
theorem cutAt_of_forall_le (h : ∀ entry ∈ entries, entry.2 ≤ limit) :
    cutAt limit entries = entries.map fun entry => .ok entry.1 := by
  induction entries with
  | nil => rfl
  | cons entry entries ih =>
    rw [cutAt_cons_of_le (h entry List.mem_cons_self),
      ih fun e he => h e (List.mem_cons_of_mem _ he), List.map_cons]

end CutAt

/-! ### What a walk gives -/

/-- Taken to its end, the walk gives these items, and the graph is `g'` then. -/
inductive Gives : Traversal → Graph → List (Except Error (Ref .typeDef)) → Graph → Prop where
  /-- The walk has ended. -/
  | done {walk walk' : Traversal} {g g' : Graph} (h : (walk.next.run g).run = ((none, walk'), g')) :
    Gives walk g [] g'
  /-- There is an item, and the walk goes on. -/
  | step {walk rest : Traversal} {g g' g'' : Graph} {item : Except Error (Ref .typeDef)}
    {items : List (Except Error (Ref .typeDef))}
    (h : (walk.next.run g).run = ((some item, rest), g')) (hrest : Gives rest g' items g'') :
    Gives walk g (item :: items) g''

theorem Gives.unique {items items' : List (Except Error (Ref .typeDef))}
    (h : walk.Gives g items g₁) (h' : walk.Gives g items' g₂) : items = items' ∧ g₁ = g₂ := by
  induction h generalizing items' with
  | done hnext =>
    cases h' with
    | done hnext' => exact ⟨rfl, congrArg Prod.snd (hnext.symm.trans hnext')⟩
    | step hnext' _ => exact absurd (hnext.symm.trans hnext') (by simp)
  | step hnext _ ih =>
    cases h' with
    | done hnext' => exact absurd (hnext.symm.trans hnext') (by simp)
    | step hnext' hrest' =>
      have heq := hnext.symm.trans hnext'
      simp only [Prod.mk.injEq, Option.some.injEq] at heq
      obtain ⟨⟨rfl, rfl⟩, rfl⟩ := heq
      obtain ⟨rfl, rfl⟩ := ih hrest'
      exact ⟨rfl, rfl⟩

/-- A walk that has nothing left to visit ends. -/
theorem gives_nil (limit : Nat) (g : Graph) : Gives ⟨[], limit, none⟩ g [] g := .done rfl

/-- A walk that gets too deep ends with an error. -/
theorem next_of_lt {T : Ref .typeDef} {depth limit : Nat} {pending : List (Ref .typeDef × Nat)}
    (h : limit < depth) :
    ((Traversal.mk ((T, depth) :: pending) limit none).next.run g).run
      = ((some (.error (.recursionLimit limit)), ⟨[], limit, none⟩), g) := by
  simp only [next, if_pos h]
  rfl

/-- A walk goes on with what is nested in the type that it visits. -/
theorem next_of_le {T : Ref .typeDef} {depth limit : Nat} {pending : List (Ref .typeDef × Nat)}
    {types : List (Ref .typeDef)} (h : depth ≤ limit)
    (hrun : (Graph.nestedTypes T).runOn g = (.ok types, g')) :
    ((Traversal.mk ((T, depth) :: pending) limit none).next.run g).run
      = ((some (.ok T), ⟨types.map (fun T => (T, depth + 1)) ++ pending, limit, none⟩), g') := by
  have hrun : (Graph.nestedTypes T) g = (.ok types, g') := hrun
  simp only [next, if_neg (Nat.not_lt.mpr h)]
  simp only [StateT.run, bind, StateT.bind, ExceptT.run, hrun]
  rfl

/-- If what is nested in the type cannot be read, the error is told next. -/
theorem next_of_error {T : Ref .typeDef} {depth limit : Nat} {pending : List (Ref .typeDef × Nat)}
    {e : Error} (h : depth ≤ limit) (hrun : (Graph.nestedTypes T).runOn g = (.error e, g')) :
    ((Traversal.mk ((T, depth) :: pending) limit none).next.run g).run
      = ((some (.ok T), ⟨pending, limit, some e⟩), g') := by
  have hrun : (Graph.nestedTypes T) g = (.error e, g') := hrun
  simp only [next, if_neg (Nat.not_lt.mpr h)]
  simp only [StateT.run, bind, StateT.bind, ExceptT.run, hrun]
  rfl

/-- From `g` on, the walk gives the entries, cut at its limit, and does nothing but read. -/
def Follows (walk : Traversal) (g : Graph) (entries : List (Ref .typeDef × Nat)) : Prop :=
  ∃ g', walk.Gives g (cutAt walk.limit entries) g' ∧ g.ReadsTo g'

theorem follows_nil (limit : Nat) (g : Graph) : Follows ⟨[], limit, none⟩ g [] :=
  ⟨g, gives_nil limit g, .refl⟩

section Follows

variable {inner : Ref .typeDef → List (Ref .typeDef)} {levels depth limit : Nat}
  {pending entries : List (Ref .typeDef × Nat)}

theorem follows_of_lt {T : Ref .typeDef} (h : limit < depth) :
    Follows ⟨(T, depth) :: pending, limit, none⟩ g ((T, depth) :: entries) := by
  refine ⟨g, ?_, .refl⟩
  rw [cutAt_cons_of_lt h]
  exact .step (next_of_lt h) (gives_nil limit g)

/-- If a walk follows what is below one type, it follows what is below several. -/
theorem follows_flatMap
    (hone : ∀ (T : Ref .typeDef) (pending entries : List (Ref .typeDef × Nat)) (g' : Graph),
      g.ReadsTo g' → g'.isAlive T.any →
      (∀ g'', g'.ReadsTo g'' → Follows ⟨pending, limit, none⟩ g'' entries) →
      Follows ⟨(T, depth) :: pending, limit, none⟩ g' (preorder inner levels depth T ++ entries))
    (hg : g.Sound) {types : List (Ref .typeDef)} (hreads : g.ReadsTo g')
    (halive : ∀ T ∈ types, g'.isAlive T.any)
    (hrest : ∀ g'', g'.ReadsTo g'' → Follows ⟨pending, limit, none⟩ g'' entries) :
    Follows ⟨types.map (fun T => (T, depth)) ++ pending, limit, none⟩ g'
      (types.flatMap (preorder inner levels depth) ++ entries) := by
  induction types generalizing g' with
  | nil => exact hrest g' .refl
  | cons T types ih =>
    rw [List.flatMap_cons, List.append_assoc]
    refine hone T _ _ g' hreads (halive T List.mem_cons_self) fun g'' hreads' => ?_
    have hkeeps := (hreads'.loadsTo (hreads.sound hg)).alive
    exact ih (hreads.trans hreads')
      (fun S hS => hkeeps _ (halive S (List.mem_cons_of_mem _ hS)))
      fun g''' hreads'' => hrest g''' (hreads'.trans hreads'')

/-- **What a walk gives below one type** is the preorder of the nesting there, if it is unfolded
beyond the limit. -/
theorem follows_preorder (hg : g.Sound) (hlists : g.ListsResolvable)
    (hlevels : limit < depth + levels) (T : Ref .typeDef)
    (pending entries : List (Ref .typeDef × Nat)) (g' : Graph) (hreads : g.ReadsTo g')
    (hT : g'.isAlive T.any)
    (hrest : ∀ g'', g'.ReadsTo g'' → Follows ⟨pending, limit, none⟩ g'' entries) :
    Follows ⟨(T, depth) :: pending, limit, none⟩ g'
      (preorder g.inner levels depth T ++ entries) := by
  induction levels generalizing depth T pending entries g' with
  | zero => exact follows_of_lt hlevels
  | succ levels ih =>
    rcases Nat.lt_or_ge limit depth with hdeep | hdepth
    · exact follows_of_lt hdeep
    · have hload := hreads.loadsTo hg
      obtain ⟨g₁, hrun, -, hreads₁, halive⟩ :=
        (hreads.sound hg).yields_nestedTypes (hload.listsResolvable hlists) hT
      rw [hload.inner_eq] at hrun halive
      -- what is nested in the type comes before what was to be visited next
      have hnested := follows_flatMap (ih (show limit < depth + 1 + levels by omega)) hg
        (hreads.trans hreads₁) halive fun g₂ hreads₂ => hrest g₂ (hreads₁.trans hreads₂)
      obtain ⟨g₂, hgives, hreads₂⟩ := hnested
      refine ⟨g₂, ?_, hreads₁.trans hreads₂⟩
      rw [preorder, List.cons_append, cutAt_cons_of_le hdepth]
      exact .step (next_of_le hdepth hrun) hgives

end Follows

/-- The first step of a walk reads the list of the module. -/
theorem start_eq {M : Ref .module} {types : List (Ref .typeDef)}
    (hrun : (Attribute.Module.topLevelTypes.read M).runOn g = (.ok types, g')) :
    ((start M).run g).run = (⟨types.map fun T => (T, 0), g.depth M, none⟩, g') := by
  have hrun : (Attribute.Module.topLevelTypes.read M) g = (.ok types, g') := hrun
  have hget : (get : StateM Graph Graph) g = (g, g) := rfl
  simp only [start, StateT.run, bind, StateT.bind, ExceptT.run, hget, hrun]
  rfl

/-- If the list of the module cannot be read, the error is told first. -/
theorem start_eq_of_error {M : Ref .module} {e : Error}
    (hrun : (Attribute.Module.topLevelTypes.read M).runOn g = (.error e, g')) :
    ((start M).run g).run = (⟨[], g.depth M, some e⟩, g') := by
  have hrun : (Attribute.Module.topLevelTypes.read M) g = (.error e, g') := hrun
  have hget : (get : StateM Graph Graph) g = (g, g) := rfl
  simp only [start, StateT.run, bind, StateT.bind, ExceptT.run, hget, hrun]
  rfl

/-- **A walk over the types of a module** ends, and what it gives is the preorder of the top-level
types, cut at the limit of the module.  How far beyond the limit the nesting is unfolded does not
matter.  As long as the graph is only read, other walks included, each walk gives the same. -/
theorem gives_start (hg : g.Sound) (hlists : g.ListsResolvable) {M : Ref .module}
    (hM : g.isAlive M.any) (levels : Nat) (hlevels : g.depth M < levels) (hreads : g.ReadsTo g') :
    ∃ g'', g.ReadsTo g'' ∧ ∀ items g₂,
      ((start M).run g').run.1.Gives ((start M).run g').run.2 items g₂ ↔
        items = cutAt (g.depth M)
          ((g.valueD .topLevelTypes M []).flatMap (preorder g.inner levels 0)) ∧ g₂ = g'' := by
  have hload := hreads.loadsTo hg
  have hM' := hload.alive _ hM
  obtain ⟨types, htypes⟩ := hlists.topLevelTypes M (Graph.isPresent_of_isAlive hM)
  obtain ⟨g₁, hrun, -, hreads₁, halive⟩ :=
    (hreads.sound hg).yields_read .topLevelTypes hM' ((hload.value _ _).trans htypes)
  have hwalk : Follows ⟨types.map (fun T => (T, 0)) ++ [], g.depth M, none⟩ g₁
      (types.flatMap (preorder g.inner levels 0) ++ []) :=
    follows_flatMap (follows_preorder hg hlists (show g.depth M < 0 + levels by omega)) hg
      (hreads.trans hreads₁) (fun T hT => halive _ (List.mem_map_of_mem hT))
      fun g₂ _ => follows_nil (g.depth M) g₂
  rw [List.append_nil, List.append_nil] at hwalk
  obtain ⟨g'', hgives, hreads₂⟩ := hwalk
  refine ⟨g'', (hreads.trans hreads₁).trans hreads₂, fun items g₂ => ?_⟩
  rw [start_eq hrun, hreads.depth_eq hg hM, Graph.valueD_of_value htypes]
  constructor
  · intro h
    exact h.unique hgives
  · rintro ⟨rfl, rfl⟩
    exact hgives

/-- A type can be nested in itself. -/
theorem exists_inner_self (hg : g.Sound) (hr : g.Resolvable) {T : Ref .typeDef}
    (hT : g.isAlive T.any) :
    ∃ g' : Graph, g'.Sound ∧ g'.Resolvable ∧ g'.isAlive T.any ∧ g'.inner T = [T] := by
  have he := Graph.admits_nestedClass hT
  have hT' := Graph.isAlive_authored_of_isAlive (k := .nestedClass)
    (e := Entity.NestedClass.authored T) hT
  have hsound := hg.authored he
  have hresolvable := hr.authored he
  have hR := Graph.isAlive_authored_next (g := g) (k := .nestedClass)
    (e := Entity.NestedClass.authored T)
  have hnested := Graph.valueD_authored_same (g := g) (k := .nestedClass)
    (e := Entity.NestedClass.authored T) (p := .nested) rfl (g.next .nestedClass) none
  rw [if_pos rfl] at hnested
  generalize g.next .nestedClass = R at hR hnested
  generalize g.authored (k := .nestedClass) (Entity.NestedClass.authored T) = g₁
    at hT' hsound hresolvable hR hnested
  have hrefs : ∀ s ∈ Part.nestedClasses.attr.refs [R], g₁.isAlive s :=
    fun s hs => List.mem_singleton.mp hs ▸ hR
  refine ⟨g₁.put .nestedClasses T [R], ?_, hresolvable.put hT', (Graph.isAlive_put _).trans hT', ?_⟩
  · exact hsound.put hT' (fun s hs _ => hrefs s hs)
      (fun s hs => Graph.isPresent_of_isAlive (hrefs s hs))
      fun s hs => hsound.fresh s (hrefs s hs)
  · rw [Graph.inner, Graph.valueD_put_same hT', if_pos rfl, List.filterMap_cons,
      Graph.valueD_put_of_ne_kind (by decide), hnested]
    rfl

/-- A module can have a top-level type, and any limit. -/
theorem exists_topLevelTypes_singleton (hg : g.Sound) (hr : g.Resolvable) {T : Ref .typeDef}
    (hT : g.isAlive T.any) (limit : Nat) :
    ∃ (g' : Graph) (M : Ref .module), g'.Sound ∧ g'.Resolvable ∧ g'.isAlive M.any ∧
      g'.inner = g.inner ∧ g'.depth M = limit ∧ g'.valueD .topLevelTypes M [] = [T] := by
  let contents : Entity.Module := { Entity.Module.authored "" none with
    topLevelTypes := .evaluated [T]
    maxDepth := limit }
  have he : g.Admits (k := .module) contents := by
    intro p
    cases p with
    | topLevelTypes => exact ⟨[T], rfl, fun s hs => List.mem_singleton.mp hs ▸ hT⟩
    | _ => exact ⟨_, rfl, fun s hs => absurd hs List.not_mem_nil⟩
  refine ⟨g.authored (k := .module) contents, g.next .module, hg.authored he, hr.authored he,
    Graph.isAlive_authored_next, ?_, ?_, ?_⟩
  · funext S
    rw [Graph.inner, Graph.inner, Graph.valueD_authored_of_ne_kind (by decide)]
    simp only [Graph.valueD_authored_of_ne_kind (show EntityKind.module ≠ .nestedClass by decide)]
  · have hget : (g.authored (k := .module) contents).entity? (g.next .module) = some contents :=
      Std.DHashMap.get?_insert_self
    rw [Graph.depth, hget]
    rfl
  · rw [Graph.valueD_authored_same (p := .topLevelTypes) (v := [T]) rfl, if_pos rfl]

/-- A type that is nested in itself, in a module whose walks go down one level: the type comes
twice, and then the walk is too deep. -/
theorem gives_start_selfNested :
    ∃ (g g' : Graph) (M : Ref .module) (T : Ref .typeDef),
      g.inner T = [T] ∧ g.depth M = 1 ∧ g.valueD .topLevelTypes M [] = [T] ∧
      ((start M).run g).run.1.Gives ((start M).run g).run.2
        [.ok T, .ok T, .error (.recursionLimit 1)] g' := by
  have hempty : (Graph.empty none).Sound := Graph.sound_empty fun _ h => absurd h (by simp)
  have hadmits := Graph.admits_typeDef (g := .empty none) "" "Loop" 0
  obtain ⟨g₁, hsound₁, hresolvable₁, hT₁, hinner⟩ := exists_inner_self (hempty.authored hadmits)
    ((Graph.resolvable_empty (by simp)).authored hadmits) Graph.isAlive_authored_next
  generalize Graph.next _ .typeDef = T at hT₁ hinner
  obtain ⟨g, M, hsound, hresolvable, hM, heq, hdepth, htypes⟩ :=
    exists_topLevelTypes_singleton hsound₁ hresolvable₁ hT₁ 1
  rw [← heq] at hinner
  obtain ⟨g', -, hgives⟩ := gives_start hsound hresolvable.lists hM 2 (hdepth ▸ by decide) .refl
  refine ⟨g, g', M, T, hinner, hdepth, htypes, ?_⟩
  -- the nesting, unfolded two levels
  have hcut : cutAt 1 ([T].flatMap (preorder g.inner 2 0))
      = [.ok T, .ok T, .error (.recursionLimit 1)] := by
    simp [preorder, hinner, cutAt]
  rw [hdepth, htypes, hcut] at hgives
  exact (hgives _ g').mpr ⟨rfl, rfl⟩

end Traversal

end ManagedImage
