import ManagedImage.Graph.Nesting
import ManagedImage.Proofs.Graph.Loading
import ManagedImage.Proofs.Nesting.Basic

/-!
# The nesting that a graph shows

Who is nested where is read off the values of six parts, loaded or not.  Reading does not change
it, and writing one part changes one of the six functions at one place.

## Main definitions

* `Graph.nesting` — who is nested where in a graph.
* `Graph.Resolvable` — the six parts of everything present can be read.
* `Graph.Shows g n` — `g` is sound and resolvable and shows `n`.
* `Graph.Yields` — an action succeeds with a value, keeps what exists, and leads to a property.

## Main results

* `Graph.Shows.read` — reading one of the six parts gives its value and keeps the nesting.
-/

namespace ManagedImage

/-- The part tells who is nested where. -/
def Part.IsNesting {k : EntityKind} : Part k → Prop
  | .topLevelTypes | .module | .declaringType | .nestedClasses | .nested | .enclosing => True
  | _ => False

/-- An entity that has just been made does not tell who is nested where. -/
theorem Part.get_ofRow_of_isNesting {k : EntityKind} {p : Part k} (hp : p.IsNesting)
    (config : Config) (row : Row) : p.attr.get (k.ofRow config row) = .unevaluated := by
  cases p <;> first | rfl | exact absurd hp id

namespace Nesting

section Set

variable (n : Nesting) (M : Ref .module) (T E : Ref .typeDef) (R : Ref .nestedClass)

/-- Replaces the list of a module. -/
def setTypes (l : List (Ref .typeDef)) : Nesting :=
  { n with types := fun N => if N = M then l else n.types N }

/-- Replaces the module of a type. -/
def setModule (M : Option (Ref .module)) : Nesting :=
  { n with module := fun U => if U = T then M else n.module U }

/-- Replaces the records in the list of a type. -/
def setRecords (l : List (Ref .nestedClass)) : Nesting :=
  { n with records := fun D => if D = E then l else n.records D }

/-- Replaces the type that a record points back at. -/
def setEnclosing (E : Option (Ref .typeDef)) : Nesting :=
  { n with enclosing := fun S => if S = R then E else n.enclosing S }

end Set

end Nesting

namespace Graph

variable {k l : EntityKind} {g g' : Graph} {n : Nesting}

/-- The value of a part, or `d` where it cannot be read. -/
def valueD (g : Graph) (p : Part k) (r : Ref k) (d : p.Value) : p.Value :=
  (p.attr.value r g).toOption.getD d

theorem valueD_of_value {p : Part k} {r : Ref k} {v : p.Value} (h : p.attr.value r g = .ok v)
    (d : p.Value) : g.valueD p r d = v := by
  rw [valueD, h]
  rfl

/-- The entity that is referred to, if it can be had. -/
def presentOnly (g : Graph) (r : Option (Ref k)) : Option (Ref k) := r.filter (g.isPresent ·.any)

/-- What is still there of what is referred to, when less can be had. -/
theorem presentOnly_eq_filter (h : ∀ r, g'.isPresent r → g.isPresent r) (s : Option (Ref k)) :
    g'.presentOnly s = (g.presentOnly s).filter (g'.isPresent ·.any) := by
  cases s with
  | none => rfl
  | some x =>
    cases hx : g'.isPresent x.any with
    | true => simp [presentOnly, Option.filter, hx, h x.any hx]
    | false => cases hx' : g.isPresent x.any <;> simp [presentOnly, Option.filter, hx, hx']

/-- Who is nested where, whether it has been loaded or not. -/
def nesting (g : Graph) : Nesting where
  types M := g.valueD .topLevelTypes M []
  module T := g.presentOnly (g.valueD .module T none)
  records E := g.valueD .nestedClasses E []
  enclosing R := g.presentOnly (g.valueD .enclosing R none)
  nested R := g.valueD .nested R none
  declaring T := g.presentOnly (g.valueD .declaringType T none)

/-- Who is nested where can be read off everything that is present. -/
def Resolvable (g : Graph) : Prop :=
  ∀ (k : EntityKind) (p : Part k) (r : Ref k), p.IsNesting → g.isPresent r.any →
    ∃ v, p.attr.value r g = .ok v

/-- The graph is sound and resolvable, and `n` is its nesting. -/
structure Shows (g : Graph) (n : Nesting) : Prop where
  /-- The graph is sound. -/
  sound : g.Sound
  /-- The nesting can be read. -/
  resolvable : g.Resolvable
  /-- The nesting is `n`. -/
  nesting_eq : g.nesting = n

/-- What exists in `g` exists in `g'`, and what can be had in `g'` only has been authored. -/
structure Keeps (g g' : Graph) : Prop where
  /-- What exists stays. -/
  alive : ∀ r, g.isAlive r → g'.isAlive r
  /-- Numbers are given away once. -/
  number : g.nextNumber ≤ g'.nextNumber
  /-- What can be had now could be had before, or has been authored. -/
  present : ∀ r, g'.isPresent r → g.isPresent r ∨ ¬g.hasNumber r

theorem Keeps.hasNumber (h : g.Keeps g') {r : AnyRef} (hr : g.hasNumber r) : g'.hasNumber r :=
  fun n hn => Nat.lt_of_lt_of_le (hr n hn) h.number

namespace Keeps

theorem refl (g : Graph) : g.Keeps g := ⟨fun _ h => h, Nat.le_refl _, fun _ h => Or.inl h⟩

theorem trans {g'' : Graph} (h : g.Keeps g') (h' : g'.Keeps g'') : g.Keeps g'' where
  alive r hr := h'.alive r (h.alive r hr)
  number := Nat.le_trans h.number h'.number
  present r hr := by
    rcases h'.present r hr with hr' | hr'
    · exact h.present r hr'
    · exact Or.inr (mt h.hasNumber hr')

end Keeps

theorem LoadsTo.keeps (h : g.LoadsTo g') : g.Keeps g' :=
  ⟨h.alive, Nat.le_of_eq h.number.symm, fun r hr => Or.inl ((h.present r).symm.trans hr)⟩

theorem keeps_put {p : Part k} {r : Ref k} {v : p.Value} : g.Keeps (g.put p r v) :=
  ⟨fun s hs => (isAlive_put s).trans hs, Nat.le_refl _,
    fun s hs => Or.inl ((isPresent_put s).symm.trans hs)⟩

/-- The entity is not one that is still to be authored, and it exists if it can be had. -/
structure IsKnown (g : Graph) (r : AnyRef) : Prop where
  /-- The number has been given away. -/
  number : g.hasNumber r
  /-- The entity exists, unless it is gone for good. -/
  alive : g.isPresent r → g.isAlive r

theorem Sound.isKnown (hg : g.Sound) {r : AnyRef} (hr : g.isAlive r) : g.IsKnown r :=
  ⟨hg.fresh r hr, fun _ => hr⟩

theorem Keeps.isKnown (h : g.Keeps g') {r : AnyRef} (hr : g.IsKnown r) : g'.IsKnown r where
  number := h.hasNumber hr.number
  alive hp := h.alive r (hr.alive ((h.present r hp).resolve_right (not_not_intro hr.number)))

/-- What is known is as present later as it is now. -/
theorem Keeps.isPresent_of_isKnown (h : g.Keeps g') {r : AnyRef} (hr : g.IsKnown r) :
    g'.isPresent r = g.isPresent r := by
  rw [Bool.eq_iff_iff]
  constructor
  · exact fun hp => (h.present r hp).resolve_right (not_not_intro hr.number)
  · exact fun hp => isPresent_of_isAlive (h.alive r (hr.alive hp))

theorem Keeps.presentOnly_of_isKnown (h : g.Keeps g') {s : Option (Ref k)}
    (hs : ∀ x ∈ Attribute.optionalRef s, g.IsKnown x) : g'.presentOnly s = g.presentOnly s := by
  cases s with
  | none => rfl
  | some x =>
    have hx := h.isPresent_of_isKnown (hs x.any (List.mem_singleton_self _))
    simp [presentOnly, Option.filter, hx]

/-- Run in `g`, the action succeeds with `v`, keeps what exists, and ends in a graph with `Q`. -/
def Yields {α : Type} (g : Graph) (a : GraphAction α) (v : α) (Q : Graph → Prop) : Prop :=
  ∃ g', a.runOn g = (.ok v, g') ∧ g.Keeps g' ∧ Q g'

namespace Yields

variable {α β : Type} {a : GraphAction α} {f : α → GraphAction β} {v : α} {w : β}
  {Q Q' : Graph → Prop}

theorem pure (h : Q g) : g.Yields (pure v) v Q := ⟨g, rfl, Keeps.refl g, h⟩

theorem change {f : Graph → Graph} (h : g.Keeps (f g)) (hQ : Q (f g)) :
    g.Yields (Action.change f) () Q := ⟨f g, rfl, h, hQ⟩

/-- One action after the other. -/
theorem bind (h : g.Yields a v Q) (hf : ∀ g', g.Keeps g' → Q g' → g'.Yields (f v) w Q') :
    g.Yields (a >>= f) w Q' := by
  obtain ⟨g₁, hrun, hkeeps, hQ⟩ := h
  obtain ⟨g₂, hrun', hkeeps', hQ'⟩ := hf g₁ hkeeps hQ
  exact ⟨g₂, (Action.runOn_bind_ok hrun).trans hrun', hkeeps.trans hkeeps', hQ'⟩

/-- One action after the other, where the value depends on the graph in between. -/
theorem bind_exists (h : g.Yields a v Q)
    (hf : ∀ g', g.Keeps g' → Q g' → ∃ w, g'.Yields (f v) w Q') :
    ∃ w, g.Yields (a >>= f) w Q' := by
  obtain ⟨g₁, hrun, hkeeps, hQ⟩ := h
  obtain ⟨w, g₂, hrun', hkeeps', hQ'⟩ := hf g₁ hkeeps hQ
  exact ⟨w, g₂, (Action.runOn_bind_ok hrun).trans hrun', hkeeps.trans hkeeps', hQ'⟩

theorem mono (h : g.Yields a v Q) (hQ : ∀ g', g.Keeps g' → Q g' → Q' g') : g.Yields a v Q' := by
  obtain ⟨g', hrun, hkeeps, h⟩ := h
  exact ⟨g', hrun, hkeeps, hQ g' hkeeps h⟩

/-- An action that succeeds takes nothing back. -/
theorem orUndo {undo : Graph → Graph} (h : g.Yields a v Q) : g.Yields (a.orUndo undo) v Q := by
  obtain ⟨g', hrun, hkeeps, hQ⟩ := h
  exact ⟨g', Action.runOn_orUndo_ok hrun, hkeeps, hQ⟩

/-- An action that looks at the graph first. -/
theorem get_bind {f : Graph → GraphAction β} (h : g.Yields (f g) w Q) :
    g.Yields (get >>= f) w Q := h

end Yields

/-! ### Reading -/

/-- Loading does not change who is nested where. -/
theorem LoadsTo.nesting_eq (h : g.LoadsTo g') : g'.nesting = g.nesting := by
  simp only [nesting, valueD, presentOnly, h.value, h.present]

theorem LoadsTo.shows (h : g.LoadsTo g') (hg : g.Shows n) (hg' : g'.Sound) : g'.Shows n where
  sound := hg'
  resolvable k p r hp hr := by
    obtain ⟨v, hv⟩ := hg.resolvable k p r hp ((h.present r.any).symm.trans hr)
    exact ⟨v, (h.value p r).trans hv⟩
  nesting_eq := h.nesting_eq.trans hg.nesting_eq

theorem value_eq_ok_valueD (hg : g.Resolvable) {p : Part k} {r : Ref k} (hp : p.IsNesting)
    (hr : g.isPresent r.any) (d : p.Value) : p.attr.value r g = .ok (g.valueD p r d) := by
  obtain ⟨v, hv⟩ := hg k p r hp hr
  simp [valueD, hv, Except.toOption]

/-- **Reading one of the six parts of an entity** gives its value.  What it refers to exists
afterwards if it can be had at all, and what it holds exists. -/
theorem Shows.read (hg : g.Shows n) {p : Part k} {r : Ref k} (hp : p.IsNesting)
    (hr : g.isAlive r.any) (d : p.Value) :
    g.Yields (p.attr.read r) (g.valueD p r d) fun g' => g'.Shows n ∧ g.LoadsTo g' ∧
      (∀ s ∈ p.attr.refs (g.valueD p r d), g'.IsKnown s) ∧
      ∀ s ∈ p.held (g.valueD p r d), g'.isAlive s := by
  have hv := value_eq_ok_valueD hg.resolvable hp (isPresent_of_isAlive hr) d
  obtain ⟨g', hrun, hload, hsound, hrefs⟩ := hg.sound.runOn_read p hr
  refine ⟨g', hrun.trans (by rw [hv]), hload.keeps, hload.shows hg hsound, hload, ?_, ?_⟩
  · exact fun s hs => ⟨hload.keeps.hasNumber (hg.sound.known p r _ hv s hs), hrefs _ hv s hs⟩
  · intro s hs
    refine hrefs _ hv s (p.held_subset_refs _ hs) ?_
    exact (hload.present s).trans (hg.sound.held p r _ hv s hs)

/-- Once what is referred to exists if it can be had, it is living if it can be had. -/
theorem runOn_living {r : Option (Ref l)}
    (h : ∀ s ∈ Attribute.optionalRef r, g.isPresent s → g.isAlive s) :
    (living r).runOn g = (.ok (g.presentOnly r), g) := by
  have heq : r.filter (fun s => g.isAlive s.any) = g.presentOnly r := by
    cases r with
    | none => rfl
    | some s =>
      have halive : g.isAlive s.any = g.isPresent s.any :=
        Bool.eq_iff_iff.mpr ⟨isPresent_of_isAlive, h s.any (List.mem_singleton_self _)⟩
      simp [presentOnly, Option.filter, halive]
  rw [← heq]
  rfl

/-- An entity that is referred to is living if it can be had, once what is referred to has been
made. -/
theorem Shows.living (hg' : g'.Shows n) (hload : g.LoadsTo g') {s : Option (Ref l)}
    (hs : ∀ x ∈ Attribute.optionalRef s, g'.IsKnown x) :
    g'.Yields (Graph.living s) (g.presentOnly s) fun g'' =>
      g''.Shows n ∧ ∀ x ∈ g.presentOnly s, g''.isAlive x.any := by
  -- what is referred to has been made, so only what is gone for good is missing
  have hmade := fun x hx => (hs x hx).alive
  have hpresent : g'.presentOnly s = g.presentOnly s := by simp only [presentOnly, hload.present]
  rw [← hpresent]
  refine ⟨g', runOn_living hmade, Keeps.refl g', hg', fun x hx => ?_⟩
  obtain ⟨hx, hp⟩ := Option.mem_filter_iff.mp hx
  exact hmade x.any (List.mem_map_of_mem (Option.mem_toList.mpr hx)) hp

/-- The list of a module can be read. -/
theorem Shows.read_topLevelTypes (hg : g.Shows n) {M : Ref .module} (hM : g.isAlive M.any) :
    g.Yields (Attribute.Module.topLevelTypes.read M) (n.types M) fun g' =>
      g'.Shows n ∧ ∀ T ∈ n.types M, g'.isAlive T.any := by
  rw [← hg.nesting_eq]
  refine (hg.read (p := .topLevelTypes) trivial hM []).mono fun g' _ ⟨hg', _, _, halive⟩ => ?_
  exact ⟨hg.nesting_eq ▸ hg', fun T hT => halive _ (List.mem_map_of_mem hT)⟩

/-- The list of a type can be read. -/
theorem Shows.read_nestedClasses (hg : g.Shows n) {E : Ref .typeDef} (hE : g.isAlive E.any) :
    g.Yields (Attribute.TypeDef.nestedClasses.read E) (n.records E) fun g' =>
      g'.Shows n ∧ ∀ R ∈ n.records E, g'.isAlive R.any := by
  rw [← hg.nesting_eq]
  refine (hg.read (p := .nestedClasses) trivial hE []).mono fun g' _ ⟨hg', _, _, halive⟩ => ?_
  exact ⟨hg.nesting_eq ▸ hg', fun R hR => halive _ (List.mem_map_of_mem hR)⟩

/-- The type that a record nests can be read. -/
theorem Shows.read_nested (hg : g.Shows n) {R : Ref .nestedClass} (hR : g.isAlive R.any) :
    g.Yields (Attribute.NestedClass.nested.read R) (n.nested R) fun g' =>
      g'.Shows n ∧ ∀ T ∈ n.nested R, g'.isAlive T.any := by
  rw [← hg.nesting_eq]
  refine (hg.read (p := .nested) trivial hR none).mono fun g' _ ⟨hg', _, _, halive⟩ => ?_
  refine ⟨hg.nesting_eq ▸ hg', fun T hT => halive _ (List.mem_map_of_mem ?_)⟩
  exact Option.mem_toList.mpr hT

/-- The module of a type can be read. -/
theorem Shows.read_module (hg : g.Shows n) {T : Ref .typeDef} (hT : g.isAlive T.any) :
    g.Yields (do Graph.living (← Attribute.TypeDef.module.read T)) (n.module T) fun g' =>
      g'.Shows n ∧ ∀ M ∈ n.module T, g'.isAlive M.any := by
  refine (hg.read (p := .module) trivial hT none).bind fun g' _ ⟨hg', hload, hrefs, _⟩ => ?_
  rw [← hg.nesting_eq] at hg' ⊢
  exact hg'.living hload hrefs

/-- The type that a record points back at can be read. -/
theorem Shows.read_enclosing (hg : g.Shows n) {R : Ref .nestedClass} (hR : g.isAlive R.any) :
    g.Yields (do Graph.living (← Attribute.NestedClass.enclosing.read R)) (n.enclosing R)
      fun g' => g'.Shows n ∧ ∀ E ∈ n.enclosing R, g'.isAlive E.any := by
  refine (hg.read (p := .enclosing) trivial hR none).bind fun g' _ ⟨hg', hload, hrefs, _⟩ => ?_
  rw [← hg.nesting_eq] at hg' ⊢
  exact hg'.living hload hrefs

/-- The type that encloses a type can be read. -/
theorem Shows.read_enclosingType (hg : g.Shows n) {T : Ref .typeDef} (hT : g.isAlive T.any) :
    g.Yields (enclosingType T) (n.declaring T) fun g' =>
      g'.Shows n ∧ ∀ E ∈ n.declaring T, g'.isAlive E.any := by
  refine (hg.read (p := .declaringType) trivial hT none).bind fun g' _ ⟨hg', hload, hrefs, _⟩ => ?_
  rw [← hg.nesting_eq] at hg' ⊢
  exact hg'.living hload hrefs

/-! ### Writing -/

section Put

variable {p : Part k} {r : Ref k} {v : p.Value}

theorem valueD_put_same (hr : g.isAlive r.any) (s : Ref k) (d : p.Value) :
    (g.put p r v).valueD p s d = if s = r then v else g.valueD p s d := by
  by_cases h : s = r
  · subst h
    rw [if_pos rfl, valueD, value_put_self hr]
    rfl
  · have hne : r.any ≠ s.any := fun he => h (Ref.any_injective he).symm
    rw [if_neg h, valueD, value_put_of_ne hne, valueD]

theorem valueD_put_of_ne_part {q : Part k} (h : p ≠ q) (s : Ref k) (d : q.Value) :
    (g.put p r v).valueD q s d = g.valueD q s d := by
  rw [valueD, value_put_of_ne_part h, valueD]

theorem valueD_put_of_ne_kind (h : k ≠ l) (q : Part l) (s : Ref l) (d : q.Value) :
    (g.put p r v).valueD q s d = g.valueD q s d := by
  have hne : r.any ≠ s.any := fun he => h (congrArg AnyRef.kind he)
  rw [valueD, value_put_of_ne hne, valueD]

theorem presentOnly_put (s : Option (Ref l)) : (g.put p r v).presentOnly s = g.presentOnly s := by
  simp [presentOnly]

theorem Resolvable.put (hg : g.Resolvable) (hr : g.isAlive r.any) :
    (g.put p r v).Resolvable := by
  intro l
  refine put_cases g p r v (C := fun q s => q.IsNesting → (g.put p r v).isPresent s.any →
    ∃ w, q.attr.value s (g.put p r v) = .ok w) ?_ ?_
  · exact fun _ _ => ⟨v, value_put_self hr⟩
  · intro l q s heq hq hs
    rw [value_of_stored heq]
    exact hg l q s hq ((isPresent_put s.any).symm.trans hs)

/-- Writing, with what follows for the nesting left open. -/
theorem Shows.put (hg : g.Shows n) (hr : g.isAlive r.any)
    (hrefs : ∀ s ∈ p.attr.refs v, g.IsKnown s) (hheld : ∀ s ∈ p.held v, g.isPresent s) :
    (g.put p r v).Shows (g.put p r v).nesting :=
  ⟨hg.sound.put hr (fun s hs => (hrefs s hs).alive) hheld fun s hs => (hrefs s hs).number,
    hg.resolvable.put hr, rfl⟩

/-- Writing what refers to entities that exist. -/
theorem Shows.put_of_isAlive (hg : g.Shows n) (hr : g.isAlive r.any)
    (hrefs : ∀ s ∈ p.attr.refs v, g.isAlive s) : (g.put p r v).Shows (g.put p r v).nesting :=
  hg.put hr (fun s hs => hg.sound.isKnown (hrefs s hs))
    fun s hs => isPresent_of_isAlive (hrefs s (p.held_subset_refs v hs))

end Put

/-- An entity that exists is there. -/
theorem presentOnly_eq_self {r : Option (Ref k)} (h : ∀ s ∈ r, g.isAlive s.any) :
    g.presentOnly r = r := by
  cases r with
  | none => rfl
  | some s => exact Option.filter_some_pos (isPresent_of_isAlive (h s rfl))

section NestingPut

variable {M : Ref .module} {T : Ref .typeDef} {R : Ref .nestedClass}

theorem nesting_put_topLevelTypes (hM : g.isAlive M.any) (l : List (Ref .typeDef)) :
    (g.put .topLevelTypes M l).nesting = g.nesting.setTypes M l := by
  simp [nesting, Nesting.setTypes, presentOnly_put, valueD_put_same hM, valueD_put_of_ne_kind]

theorem nesting_put_module (hT : g.isAlive T.any) (M : Option (Ref .module)) :
    (g.put .module T M).nesting = g.nesting.setModule T (g.presentOnly M) := by
  simp [nesting, Nesting.setModule, presentOnly_put, valueD_put_same hT, valueD_put_of_ne_kind,
    valueD_put_of_ne_part, apply_ite g.presentOnly]

theorem nesting_put_nestedClasses (hT : g.isAlive T.any) (l : List (Ref .nestedClass)) :
    (g.put .nestedClasses T l).nesting = g.nesting.setRecords T l := by
  simp [nesting, Nesting.setRecords, presentOnly_put, valueD_put_same hT, valueD_put_of_ne_kind,
    valueD_put_of_ne_part]

theorem nesting_put_enclosing (hR : g.isAlive R.any) (E : Option (Ref .typeDef)) :
    (g.put .enclosing R E).nesting = g.nesting.setEnclosing R (g.presentOnly E) := by
  simp [nesting, Nesting.setEnclosing, presentOnly_put, valueD_put_same hR, valueD_put_of_ne_kind,
    valueD_put_of_ne_part, apply_ite g.presentOnly]

theorem nesting_put_nested (hR : g.isAlive R.any) (T : Option (Ref .typeDef)) :
    (g.put .nested R T).nesting = g.nesting.setNested R T := by
  simp [nesting, Nesting.setNested, presentOnly_put, valueD_put_same hR, valueD_put_of_ne_kind,
    valueD_put_of_ne_part]

theorem nesting_put_declaringType (hT : g.isAlive T.any) (E : Option (Ref .typeDef)) :
    (g.put .declaringType T E).nesting = g.nesting.setDeclaring T (g.presentOnly E) := by
  simp [nesting, Nesting.setDeclaring, presentOnly_put, valueD_put_same hT, valueD_put_of_ne_kind,
    valueD_put_of_ne_part, apply_ite g.presentOnly]

theorem Shows.put_topLevelTypes (hg : g.Shows n) (hM : g.isAlive M.any) {l : List (Ref .typeDef)}
    (hl : ∀ T ∈ l, g.isAlive T.any) : (g.put .topLevelTypes M l).Shows (n.setTypes M l) := by
  rw [← hg.nesting_eq, ← nesting_put_topLevelTypes hM]
  exact hg.put_of_isAlive hM (List.forall_mem_map.mpr hl)

theorem Shows.put_nestedClasses (hg : g.Shows n) (hT : g.isAlive T.any)
    {l : List (Ref .nestedClass)} (hl : ∀ R ∈ l, g.isAlive R.any) :
    (g.put .nestedClasses T l).Shows (n.setRecords T l) := by
  rw [← hg.nesting_eq, ← nesting_put_nestedClasses hT]
  exact hg.put_of_isAlive hT (List.forall_mem_map.mpr hl)

theorem isAlive_of_mem_optionalRef {s : Option (Ref k)} (hs : ∀ x ∈ s, g.isAlive x.any) :
    ∀ x ∈ Attribute.optionalRef s, g.isAlive x :=
  List.forall_mem_map.mpr fun x hx => hs x (Option.mem_toList.mp hx)

theorem Shows.put_module (hg : g.Shows n) (hT : g.isAlive T.any) {x : Option (Ref .module)}
    (hx : ∀ M ∈ x, g.isAlive M.any) : (g.put .module T x).Shows (n.setModule T x) := by
  rw [← presentOnly_eq_self hx, ← hg.nesting_eq, ← nesting_put_module hT, presentOnly_eq_self hx]
  exact hg.put_of_isAlive hT (isAlive_of_mem_optionalRef hx)

theorem Shows.put_enclosing (hg : g.Shows n) (hR : g.isAlive R.any) {x : Option (Ref .typeDef)}
    (hx : ∀ E ∈ x, g.isAlive E.any) : (g.put .enclosing R x).Shows (n.setEnclosing R x) := by
  rw [← presentOnly_eq_self hx, ← hg.nesting_eq, ← nesting_put_enclosing hR,
    presentOnly_eq_self hx]
  exact hg.put_of_isAlive hR (isAlive_of_mem_optionalRef hx)

theorem Shows.put_nested (hg : g.Shows n) (hR : g.isAlive R.any) {x : Option (Ref .typeDef)}
    (hx : ∀ T ∈ x, g.isAlive T.any) : (g.put .nested R x).Shows (n.setNested R x) := by
  rw [← hg.nesting_eq, ← nesting_put_nested hR]
  exact hg.put_of_isAlive hR (isAlive_of_mem_optionalRef hx)

theorem Shows.put_declaringType (hg : g.Shows n) (hT : g.isAlive T.any)
    {x : Option (Ref .typeDef)} (hx : ∀ s ∈ Attribute.optionalRef x, g.IsKnown s) :
    (g.put .declaringType T x).Shows (n.setDeclaring T (g.presentOnly x)) := by
  rw [← hg.nesting_eq, ← nesting_put_declaringType hT]
  exact hg.put hT hx fun s hs => absurd hs List.not_mem_nil

theorem Shows.put_declaringType_of_isAlive (hg : g.Shows n) (hT : g.isAlive T.any)
    {x : Option (Ref .typeDef)} (hx : ∀ E ∈ x, g.isAlive E.any) :
    (g.put .declaringType T x).Shows (n.setDeclaring T x) := by
  have hput := hg.put_declaringType hT fun s hs =>
    hg.sound.isKnown (isAlive_of_mem_optionalRef hx s hs)
  rwa [presentOnly_eq_self hx] at hput

end NestingPut

end Graph

end ManagedImage
