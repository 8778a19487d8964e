import ManagedImage.Graph.Nesting
import ManagedImage.Proofs.Nesting.View

/-!
# What can be read of a nesting

Once the image is gone, what has not been loaded cannot be read any more.  So only part of who is
nested where can be read then, and an operation may fail wherever it has to look first.  Looking does
not change what can be read.

## Main definitions

* `Graph.readout` — what reading gives, with an error where it fails.
* `Graph.Glances` — an action does nothing but load.

## Main results

* `Graph.Sound.glances_owner_type`, `Graph.Sound.glances_records`, … — reading gives the readout.
* `Graph.Sound.glances_nestingRecord?` — looking for the record of a type.
-/

namespace ManagedImage

/-- What can be read of who is nested where. -/
structure Readout where
  /-- The types in the list of a module. -/
  types : Ref .module → Except Error (List (Ref .typeDef))
  /-- The module of a type. -/
  module : Ref .typeDef → Except Error (Option (Ref .module))
  /-- The records in the list of a type. -/
  records : Ref .typeDef → Except Error (List (Ref .nestedClass))
  /-- The type that a record points back at. -/
  enclosing : Ref .nestedClass → Except Error (Option (Ref .typeDef))
  /-- The type that a record nests. -/
  nested : Ref .nestedClass → Except Error (Option (Ref .typeDef))
  /-- The type that encloses a type. -/
  declaring : Ref .typeDef → Except Error (Option (Ref .typeDef))

namespace Graph

variable {k l : EntityKind} {g g' : Graph} {α β : Type}

/-- What reading gives. -/
def readout (g : Graph) : Readout where
  types M := Attribute.Module.topLevelTypes.value M g
  module T := g.presentOnly <$> Attribute.TypeDef.module.value T g
  records E := Attribute.TypeDef.nestedClasses.value E g
  enclosing R := g.presentOnly <$> Attribute.NestedClass.enclosing.value R g
  nested R := Attribute.NestedClass.nested.value R g
  declaring T := g.presentOnly <$> Attribute.TypeDef.declaringType.value T g

/-- Loading does not change what can be read. -/
theorem LoadsTo.readout_eq (h : g.LoadsTo g') : g'.readout = g.readout := by
  have hpresent : ∀ {k : EntityKind}, g'.presentOnly (k := k) = g.presentOnly := by
    intro k
    funext r
    simp only [presentOnly, h.present]
  have htypes := fun M => h.value .topLevelTypes M
  have hmodule := fun T => h.value .module T
  have hrecords := fun E => h.value .nestedClasses E
  have henclosing := fun R => h.value .enclosing R
  have hnested := fun R => h.value .nested R
  have hdeclaring := fun T => h.value .declaringType T
  simp only [readout, hpresent, htypes, hmodule, hrecords, henclosing, hnested, hdeclaring]

/-! ### Looking -/

/-- Run in `g`, the action does nothing but load.  It ends with `r`, and where that is a value, it and
the graph that is left have `Q`. -/
def Glances (g : Graph) (a : GraphAction α) (r : Except Error α) (Q : α → Graph → Prop) : Prop :=
  ∃ g', a.runOn g = (r, g') ∧ g.LoadsTo g' ∧ g'.Sound ∧ ∀ v, r = .ok v → Q v g'

namespace Glances

variable {a : GraphAction α} {f : α → GraphAction β} {r : Except Error α} {Q : α → Graph → Prop}
  {Q' : β → Graph → Prop}

theorem pure {v : α} (hg : g.Sound) (hQ : Q v g) : g.Glances (Pure.pure v) (.ok v) Q :=
  ⟨g, rfl, .refl g, hg, fun _ h => Except.ok.inj h ▸ hQ⟩

theorem mono {P : α → Graph → Prop} (h : g.Glances a r Q)
    (hQ : ∀ v g', r = .ok v → g.LoadsTo g' → Q v g' → P v g') : g.Glances a r P := by
  obtain ⟨g', hrun, hload, hsound, h⟩ := h
  exact ⟨g', hrun, hload, hsound, fun v hv => hQ v g' hv hload (h v hv)⟩

theorem throw {e : Error} (hg : g.Sound) : g.Glances (MonadExcept.throw e) (.error e) Q :=
  ⟨g, rfl, .refl g, hg, nofun⟩

/-- A look that first takes in the graph. -/
theorem get_bind {f : Graph → GraphAction β} {r : Except Error β} (h : g.Glances (f g) r Q') :
    g.Glances (get >>= f) r Q' := h

/-- One look after the other.  What the second one ends with may depend on what the first one
gives. -/
theorem bind {F : α → Except Error β} (h : g.Glances a r Q)
    (hf : ∀ v g', r = .ok v → g.LoadsTo g' → g'.Sound → Q v g' → g'.Glances (f v) (F v) Q') :
    g.Glances (a >>= f) (r >>= F) Q' := by
  obtain ⟨g₁, hrun, hload, hsound, hQ⟩ := h
  cases r with
  | error e => exact ⟨g₁, Action.runOn_bind_error hrun, hload, hsound, nofun⟩
  | ok v =>
    obtain ⟨g₂, hrun', hload', hsound', hQ'⟩ := hf v g₁ rfl hload hsound (hQ v rfl)
    exact ⟨g₂, (Action.runOn_bind_ok hrun).trans hrun', hload.trans hload', hsound', hQ'⟩

/-- One look after the other, where the first one gives `v`. -/
theorem bind_ok {v : α} {P : Except Error β → Prop} (h : g.Glances a (.ok v) Q)
    (hf : ∀ g', g.LoadsTo g' → g'.Sound → Q v g' → ∃ r', g'.Glances (f v) r' Q' ∧ P r') :
    ∃ r', g.Glances (a >>= f) r' Q' ∧ P r' := by
  obtain ⟨g₁, hrun, hload, hsound, hQ⟩ := h
  obtain ⟨r', ⟨g₂, hrun', hload', hsound', hQ'⟩, hP⟩ := hf g₁ hload hsound (hQ v rfl)
  exact ⟨r', ⟨g₂, (Action.runOn_bind_ok hrun).trans hrun', hload.trans hload', hsound', hQ'⟩, hP⟩

/-- Nothing follows a look that fails. -/
theorem bind_error {e : Error} (h : g.Glances a (.error e) Q) :
    g.Glances (a >>= f) (.error e) Q' :=
  h.bind (F := fun _ => .error e) fun _ _ hv => nomatch hv

/-- One look after the other. -/
theorem bind_exists (h : g.Glances a r Q)
    (hf : ∀ v g', r = .ok v → g.LoadsTo g' → g'.Sound → Q v g' → ∃ r', g'.Glances (f v) r' Q') :
    ∃ r', g.Glances (a >>= f) r' Q' := by
  obtain ⟨g₁, hrun, hload, hsound, hQ⟩ := h
  cases r with
  | error e => exact ⟨.error e, g₁, Action.runOn_bind_error hrun, hload, hsound, nofun⟩
  | ok v =>
    obtain ⟨r', g₂, hrun', hload', hsound', hQ'⟩ := hf v g₁ rfl hload hsound (hQ v rfl)
    exact ⟨r', g₂, (Action.runOn_bind_ok hrun).trans hrun', hload.trans hload', hsound', hQ'⟩

end Glances

/-- **Reading an attribute** is looking.  What it refers to exists afterwards if it can be had at all,
and what it holds exists. -/
theorem Sound.glances_read (hg : g.Sound) (p : Part k) {r : Ref k} (hr : g.isAlive r.any) :
    g.Glances (p.attr.read r) (p.attr.value r g) fun v g' =>
      (∀ s ∈ p.attr.refs v, g'.isPresent s → g'.isAlive s) ∧ ∀ s ∈ p.held v, g'.isAlive s := by
  obtain ⟨g', hrun, hload, hsound, hrefs⟩ := hg.runOn_read p hr
  refine ⟨g', hrun, hload, hsound, fun v hv => ⟨hrefs v hv, fun s hs => ?_⟩⟩
  refine hrefs v hv s (p.held_subset_refs v hs) ?_
  exact (hload.present s).trans (hg.held p r v hv s hs)

/-- Reading a reference and looking whether it is living is looking, too. -/
theorem Glances.living {a : Attribute k (Option (Ref l))} {r : Ref k}
    {Q : Option (Ref l) → Graph → Prop} (h : g.Glances (a.read r) (a.value r g) Q)
    (hQ : ∀ v g', Q v g' → ∀ s ∈ Attribute.optionalRef v, g'.isPresent s → g'.isAlive s) :
    g.Glances (do Graph.living (← a.read r)) (g.presentOnly <$> a.value r g)
      fun v g' => ∀ s ∈ v, g'.isAlive s.any := by
  obtain ⟨g', hrun, hload, hsound, h⟩ := h
  cases hv : a.value r g with
  | error e =>
    rw [hv] at hrun
    exact ⟨g', Action.runOn_bind_error hrun, hload, hsound, nofun⟩
  | ok v =>
    rw [hv] at hrun
    have hmade := hQ v g' (h v hv)
    have hpresent : g'.presentOnly v = g.presentOnly v := by simp only [presentOnly, hload.present]
    refine ⟨g', ?_, hload, hsound, ?_⟩
    · rw [Action.runOn_bind_ok hrun, runOn_living hmade, hpresent]
      rfl
    · rintro w ⟨⟩ s hs
      rw [← hpresent] at hs
      obtain ⟨hs, hp⟩ := Option.mem_filter_iff.mp hs
      exact hmade s.any (List.mem_map_of_mem (Option.mem_toList.mpr hs)) hp

namespace Sound

variable {M : Ref .module} {T E : Ref .typeDef} {R : Ref .nestedClass}

/-- The list of a module. -/
theorem glances_types (hg : g.Sound) (hM : g.isAlive M.any) :
    g.Glances (typeOwnership.items M) (g.readout.types M) fun v g' => ∀ T ∈ v, g'.isAlive T.any :=
  (hg.glances_read .topLevelTypes hM).mono fun _ _ _ _ h => List.forall_mem_map.mp h.2

/-- The module of a type. -/
theorem glances_owner_type (hg : g.Sound) (hT : g.isAlive T.any) :
    g.Glances (typeOwnership.owner T) (g.readout.module T) fun v g' => ∀ M ∈ v, g'.isAlive M.any :=
  (hg.glances_read .module hT).living fun _ _ h => h.1

/-- The records in the list of a type. -/
theorem glances_records (hg : g.Sound) (hE : g.isAlive E.any) :
    g.Glances (recordOwnership.items E) (g.readout.records E)
      fun v g' => ∀ R ∈ v, g'.isAlive R.any :=
  (hg.glances_read .nestedClasses hE).mono fun _ _ _ _ h => List.forall_mem_map.mp h.2

/-- The type that a record points back at. -/
theorem glances_owner_record (hg : g.Sound) (hR : g.isAlive R.any) :
    g.Glances (recordOwnership.owner R) (g.readout.enclosing R)
      fun v g' => ∀ E ∈ v, g'.isAlive E.any :=
  (hg.glances_read .enclosing hR).living fun _ _ h => h.1

/-- The type that a record nests. -/
theorem glances_nested (hg : g.Sound) (hR : g.isAlive R.any) :
    g.Glances (Attribute.NestedClass.nested.read R) (g.readout.nested R)
      fun v g' => ∀ T ∈ v, g'.isAlive T.any :=
  (hg.glances_read .nested hR).mono fun _ _ _ _ h _ hT =>
    h.2 _ (List.mem_map_of_mem (Option.mem_toList.mpr hT))

/-- The type that encloses a type. -/
theorem glances_enclosingType (hg : g.Sound) (hT : g.isAlive T.any) :
    g.Glances (enclosingType T) (g.readout.declaring T) fun v g' => ∀ E ∈ v, g'.isAlive E.any :=
  (hg.glances_read .declaringType hT).living fun _ _ h => h.1

/-- A record that is found nests the type. -/
theorem glances_findRecord (hg : g.Sound) {Rs : List (Ref .nestedClass)}
    (hRs : ∀ R ∈ Rs, g.isAlive R.any) :
    ∃ r, g.Glances (findRecord T Rs) r fun v g' =>
      ∀ R ∈ v, g'.isAlive R.any ∧ g'.readout.nested R = .ok (some T) := by
  induction Rs generalizing g with
  | nil => exact ⟨_, .pure hg nofun⟩
  | cons R Rs ih =>
    unfold findRecord
    have hR := hRs R List.mem_cons_self
    refine (hg.glances_nested hR).bind_exists fun U g₁ hU hload hg₁ _ => ?_
    split
    · next hUT =>
      refine ⟨_, .pure hg₁ ?_⟩
      rintro S ⟨⟩
      exact ⟨hload.alive _ hR, hload.readout_eq ▸ hUT ▸ hU⟩
    · exact ih hg₁ fun S hS => hload.alive _ (hRs S (List.mem_cons_of_mem R hS))

/-- **Looking for the record of a type.**  It can only be found if it is known what encloses the
type, and then it nests it. -/
theorem glances_nestingRecord? (hg : g.Sound) (hT : g.isAlive T.any) :
    ∃ r, g.Glances (nestingRecord? T) r fun v g' => (∃ E?, g'.readout.declaring T = .ok E?) ∧
      ∀ R ∈ v, g'.isAlive R.any ∧ g'.readout.nested R = .ok (some T) := by
  unfold nestingRecord?
  refine (hg.glances_enclosingType hT).bind_exists fun E? g₁ hE? hload₁ hg₁ hE => ?_
  have hdeclaring : g₁.readout.declaring T = .ok E? := hload₁.readout_eq ▸ hE?
  cases E? with
  | none => exact ⟨_, .pure hg₁ ⟨⟨none, hdeclaring⟩, nofun⟩⟩
  | some E =>
    refine (hg₁.glances_records (hE E rfl)).bind_exists fun Rs g₂ _ hload₂ hg₂ hRs => ?_
    obtain ⟨r, hfind⟩ := hg₂.glances_findRecord (T := T) hRs
    refine ⟨r, hfind.mono fun v g₃ _ hload₃ hv => ⟨⟨some E, ?_⟩, hv⟩⟩
    rwa [(hload₂.trans hload₃).readout_eq]

end Sound

end Graph

end ManagedImage
