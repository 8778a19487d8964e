import ManagedImage.Proofs.Failing.Ending
import ManagedImage.Proofs.Failing.Forgetting
import ManagedImage.Proofs.Nesting.Authoring

/-!
# How nesting operations end

Moving types and records reads what it needs before the first change, with two exceptions.  A record
that is taken out of a list must then tell what it nests, and a type that is taken out of its module
must then tell what encloses it.  Where this cannot be read, the operation has failed half-way.

## Main definitions

* `Readout.Orphans` — a record in a list does not tell what it nests.
* `Readout.Strands` — a type in a module does not tell what encloses it.

## Main results

* `Graph.ends_removeRecord`, `Graph.ends_detachRecord` — taking a record out of a list.
* `Graph.ends_release`, `Graph.ends_attachRecord` — moving a record to a type.
* `Graph.ends_attachType` — moving a type to a module never slips.
* `Graph.ends_setNested`, `Graph.ends_nest` — replacing the nested type, and nesting a type.
-/

namespace ManagedImage

namespace Readout

/-- The record is in the list of the type, but what it nests cannot be read. -/
def Orphans (v : Readout) (E : Ref .typeDef) (R : Ref .nestedClass) : Prop :=
  (∃ l, v.records E = .ok l ∧ R ∈ l) ∧ ∀ T, v.nested R ≠ .ok T

/-- The type is in the list of its module. -/
def InModule (v : Readout) (T : Ref .typeDef) : Prop :=
  ∃ M l, v.module T = .ok (some M) ∧ v.types M = .ok l ∧ T ∈ l

/-- The type is in the list of its module, but what encloses it cannot be read. -/
def Strands (v : Readout) (T : Ref .typeDef) : Prop := v.InModule T ∧ ∀ E, v.declaring T ≠ .ok E

theorem inModule_iff {v : Readout} {T : Ref .typeDef} {M : Ref .module} {l : List (Ref .typeDef)}
    (hM : v.module T = .ok (some M)) (hl : v.types M = .ok l) : v.InModule T ↔ T ∈ l := by
  refine ⟨fun ⟨M', l', hM', hl', hT⟩ => ?_, fun hT => ⟨M, l, hM, hl, hT⟩⟩
  obtain rfl := Option.some.inj (Except.ok.inj (hM.symm.trans hM'))
  exact Except.ok.inj (hl.symm.trans hl') ▸ hT

end Readout

namespace Graph

variable {g g' : Graph} {M : Ref .module} {T U E : Ref .typeDef} {R : Ref .nestedClass}

/-- Types in modules are read and replaced one by one. -/
theorem edits_typeOwnership : Edits typeOwnership Readout.types Readout.module where
  isAlive _ _ := rfl
  glances_items hg hM := hg.glances_types hM
  glances_owner hg hT := hg.glances_owner_type hT
  succeeds_items hM hl := .read .topLevelTypes hM hl
  readable hgrows hl := hgrows.readable .topLevelTypes _ hl
  putItems M l _ := grows_put .topLevelTypes M l
  putOwner T M _ := grows_put .module T M

/-- Records in types are read and replaced one by one. -/
theorem edits_recordOwnership : Edits recordOwnership Readout.records Readout.enclosing where
  isAlive _ _ := rfl
  glances_items hg hE := hg.glances_records hE
  glances_owner hg hR := hg.glances_owner_record hR
  succeeds_items hE hl := .read .nestedClasses hE hl
  readable hgrows hl := hgrows.readable .nestedClasses _ hl
  putItems E l _ := grows_put .nestedClasses E l
  putOwner R E _ := grows_put .enclosing R E

/-! ### Taking records out of lists -/

/-- The type that a record nests follows it, if it can be read. -/
theorem succeeds_follow (hR : g.isAlive R.any) (hT : ∃ T, g.readout.nested R = .ok T)
    (x : Option (Ref .typeDef)) :
    g.Succeeds (recordOwnership.ownerChanged R x) fun _ _ => True := by
  refine (Succeeds.read .nested hR hT).bind fun T g' _ _ => ?_
  cases T with
  | none => exact .pure trivial
  | some T => exact .change (grows_put .declaringType T x)

/-- A type and a record after the record has left the list of the type. -/
def leftType (g : Graph) (E : Ref .typeDef) (l : List (Ref .nestedClass)) (R : Ref .nestedClass) :
    Graph :=
  (g.put .nestedClasses E (l.filter (· ≠ R))).put .enclosing R none

section LeftType

variable {l : List (Ref .nestedClass)}

theorem grows_leftType : g.Grows (g.leftType E l R) := (grows_put _ _ _).trans (grows_put _ _ _)

theorem records_leftType (hE : g.isAlive E.any) :
    (g.leftType E l R).readout.records E = .ok (l.filter (· ≠ R)) :=
  (value_put_of_ne (p := .enclosing) (q := .nestedClasses)
    fun h => nomatch congrArg AnyRef.kind h).trans (value_put_self hE)

theorem enclosing_leftType (hR : g.isAlive R.any) :
    (g.leftType E l R).readout.enclosing R = .ok none :=
  congrArg ((g.leftType E l R).presentOnly <$> ·)
    (value_put_self (p := .enclosing) ((isAlive_put _).trans hR))

/-- What a record nests does not depend on where the record is. -/
theorem stored_nested_leftType (S : Ref .nestedClass) :
    Attribute.NestedClass.nested.stored S (g.leftType E l R) =
      Attribute.NestedClass.nested.stored S g :=
  (stored_put_of_ne_part (p := .enclosing) (q := .nested) nofun S).trans
    (stored_put_of_ne (p := .nestedClasses) (q := .nested) fun h => nomatch congrArg AnyRef.kind h)

theorem nested_leftType (S : Ref .nestedClass) :
    (g.leftType E l R).readout.nested S = g.readout.nested S :=
  (value_put_of_ne_part (p := .enclosing) (q := .nested) nofun S).trans
    (value_put_of_ne (p := .nestedClasses) (q := .nested) fun h => nomatch congrArg AnyRef.kind h)

end LeftType

/-- **Removing a record** slips exactly where the record does not tell what it nests. -/
theorem ends_removeRecord (hg : g.Sound) (hE : g.isAlive E.any) (hR : g.isAlive R.any) :
    g.EndsUnless (g.readout.Orphans E R) (recordOwnership.remove E R) fun _ _ => True := by
  have htake := edits_recordOwnership.ends_take (r := R) hg hE
  unfold Ownership.remove EndsUnless
  refine Action.Ends.bind (htake.mono (fun _ _ h => h) ?_) ?_
  · exact fun _ g' ⟨hno, h⟩ => Or.inr ⟨fun ⟨⟨l, hl, _⟩, _⟩ => hno l hl, h⟩
  rintro b g' ⟨l, hl, ⟨rfl, hRl, hload, -⟩ | ⟨rfl, hRl, g₁, hload, -, -, rfl⟩⟩
  · refine Action.Ends.pure ⟨fun ⟨⟨l', hl', hR'⟩, _⟩ => hRl ?_, hload.grows, trivial⟩
    exact Except.ok.inj (hl.symm.trans hl') ▸ hR'
  · refine Action.Ends.change_bind ?_
    let g₂ := g₁.leftType E l R
    change Action.Ends _ g₂ _ _
    have hgrows : g.Grows g₂ := hload.grows.trans grows_leftType
    have hnested : g₂.readout.nested R = g.readout.nested R := by
      rw [nested_leftType, hload.readout_eq]
    have hR₂ := hgrows.alive _ hR
    cases hT : g.readout.nested R with
    | ok T =>
      obtain ⟨v, g₃, hrun, hgrows', -⟩ := succeeds_follow hR₂ ⟨T, hnested.trans hT⟩ none
      exact Action.Ends.of_ok ((Action.runOn_bind_ok hrun).trans (Action.runOn_pure true g₃))
        ⟨fun h => h.2 T hT, hgrows.trans hgrows', trivial⟩
    | error e =>
      obtain ⟨g₃, hrun, hload'⟩ := exists_runOn_read .nested hR₂
      have hrun : (Attribute.NestedClass.nested.read R).runOn g₂ = (.error e, g₃) :=
        hrun.trans (congrArg (·, g₃) (hnested.trans hT))
      have hlist : g₃.readout.records E = .ok (l.filter (· ≠ R)) := by
        rw [hload'.readout_eq]
        exact records_leftType (hload.alive _ hE)
      exact Action.Ends.of_error (Action.runOn_bind_error (Action.runOn_bind_error hrun))
        (Or.inl ⟨⟨⟨l, hl, hRl⟩, by simp [hT]⟩, Or.inr ⟨E, R, l, _, hl, hRl, hlist, by simp⟩⟩)

/-- **Detaching a record** slips exactly where removing it from its type does. -/
theorem ends_detachRecord (hg : g.Sound) (hR : g.isAlive R.any) :
    g.EndsUnless (∃ E, g.readout.enclosing R = .ok (some E) ∧ g.readout.Orphans E R)
      (recordOwnership.detach R) fun _ _ => True := by
  unfold Ownership.detach
  refine .after_glance (hg.glances_owner_record hR) (fun ⟨E, hE, _⟩ => ⟨_, hE⟩)
    fun E g₁ hE hload hg₁ halive => ?_
  cases E with
  | none => exact .pure (fun ⟨E, hE', _⟩ => nomatch hE.symm.trans hE') trivial
  | some E =>
    refine (ends_removeRecord hg₁ (halive E rfl) (hload.alive _ hR)).of_iff ?_
    rw [hload.readout_eq, hE]
    exact ⟨fun h => ⟨E, rfl, h⟩, fun ⟨_, hE', h⟩ => Option.some.inj (Except.ok.inj hE') ▸ h⟩

/-- Detaching a record that tells what it nests does not slip. -/
theorem ends_detachRecord_of_nested (hg : g.Sound) (hR : g.isAlive R.any)
    {T : Option (Ref .typeDef)} (hT : g.readout.nested R = .ok T) :
    g.EndsUnless False (recordOwnership.detach R) fun _ _ => True :=
  (ends_detachRecord hg hR).of_iff (iff_false_intro fun ⟨_, _, _, h⟩ => h T hT)

/-! ### Taking types out of modules -/

/-- A module and a type after the type has left the list of the module. -/
def leftModule (g : Graph) (M : Ref .module) (l : List (Ref .typeDef)) (T : Ref .typeDef) : Graph :=
  (g.put .topLevelTypes M (l.filter (· ≠ T))).put .module T none

section LeftModule

variable {l : List (Ref .typeDef)}

theorem grows_leftModule : g.Grows (g.leftModule M l T) := (grows_put _ _ _).trans (grows_put _ _ _)

theorem types_leftModule (hM : g.isAlive M.any) :
    (g.leftModule M l T).readout.types M = .ok (l.filter (· ≠ T)) :=
  (value_put_of_ne (p := .module) (q := .topLevelTypes)
    fun h => nomatch congrArg AnyRef.kind h).trans (value_put_self hM)

/-- What encloses a type does not depend on its module. -/
theorem declaring_leftModule : (g.leftModule M l T).readout.declaring = g.readout.declaring := by
  funext U
  have hvalue : Attribute.TypeDef.declaringType.value U (g.leftModule M l T) =
      Attribute.TypeDef.declaringType.value U g :=
    (value_put_of_ne_part (p := .module) (q := .declaringType) nofun U).trans
      (value_put_of_ne (p := .topLevelTypes) (q := .declaringType)
        fun h => nomatch congrArg AnyRef.kind h)
  have hpresent : (g.leftModule M l T).presentOnly (k := .typeDef) = g.presentOnly :=
    funext fun s => (presentOnly_put s).trans (presentOnly_put s)
  simp only [readout, hvalue, hpresent]

theorem Sound.leftModule (hg : g.Sound) (hM : g.isAlive M.any) (hT : g.isAlive T.any)
    (hl : ∀ U ∈ l, g.isAlive U.any) : (g.leftModule M l T).Sound := by
  have hkept : ∀ s ∈ Part.topLevelTypes.attr.refs (l.filter (· ≠ T)), g.isAlive s :=
    List.forall_mem_map.mpr fun U hU => hl U (List.mem_filter.mp hU).1
  have hput := hg.put_of_isAlive (p := .topLevelTypes) hM hkept
  exact hput.put_of_isAlive (p := .module) (v := none) ((isAlive_put _).trans hT) nofun

end LeftModule

/-- How a type leaves the list of its module: not at all, or with what encloses it being the same. -/
def LeavesModule (g : Graph) (T : Ref .typeDef) (g' : Graph) : Prop :=
  ¬g.readout.InModule T ∧ g.LoadsTo g' ∧ g'.Sound ∨
    g.readout.InModule T ∧ g.Grows g' ∧ g'.Sound ∧ g.LosesMember g' ∧
      g'.readout.declaring = g.readout.declaring

/-- Removing a type from its module fails without a trace. -/
theorem ends_removeType (hg : g.Sound) (hM : g.isAlive M.any) (hT : g.isAlive T.any)
    (hmodule : g.readout.module T = .ok (some M)) :
    (typeOwnership.remove M T).Ends g (fun _ g' => g.LeavesModule T g')
      fun _ g' => ¬g.readout.InModule T ∧ g.LoadsTo g' ∧ g'.Sound := by
  have htake := edits_typeOwnership.ends_take (r := T) hg hM
  unfold Ownership.remove
  refine Action.Ends.bind (htake.mono (fun _ _ h => h) ?_) ?_
  · refine fun _ g' ⟨hno, h⟩ => ⟨fun ⟨M', l, hM', hl, _⟩ => ?_, h⟩
    obtain rfl := Option.some.inj (Except.ok.inj (hmodule.symm.trans hM'))
    exact hno l hl
  rintro b g' ⟨l, hl, ⟨rfl, hTl, hload, hg'⟩ | ⟨rfl, hTl, g₁, hload, hg₁, halive, rfl⟩⟩
  · rw [← Readout.inModule_iff hmodule hl] at hTl
    exact Action.Ends.pure (Or.inl ⟨hTl, hload, hg'⟩)
  · refine Action.Ends.change_bind ?_
    change Action.Ends (pure true) (g₁.leftModule M l T) _ _
    have hM₁ := hload.alive _ hM
    have htypes := types_leftModule (l := l) (T := T) hM₁
    refine Action.Ends.pure (Or.inr ⟨(Readout.inModule_iff hmodule hl).mpr hTl,
      hload.grows.trans grows_leftModule, hg₁.leftModule hM₁ (hload.alive _ hT) halive,
      Or.inl ⟨M, T, l, _, hl, hTl, htypes, by simp⟩, ?_⟩)
    rw [declaring_leftModule, hload.readout_eq]

/-- **Detaching a type** from its module fails without a trace. -/
theorem ends_detachType (hg : g.Sound) (hT : g.isAlive T.any) :
    (typeOwnership.detach T).Ends g (fun _ g' => g.LeavesModule T g')
      fun _ g' => ¬g.readout.InModule T ∧ g.LoadsTo g' ∧ g'.Sound := by
  unfold Ownership.detach
  obtain ⟨g₁, hrun, hload, hg₁, halive⟩ := hg.glances_owner_type hT
  cases hM : g.readout.module T with
  | error e =>
    rw [hM] at hrun
    refine Action.Ends.of_error (Action.runOn_bind_error hrun) ⟨?_, hload, hg₁⟩
    exact fun ⟨_, _, hM', _⟩ => nomatch hM.symm.trans hM'
  | ok M =>
    rw [hM] at hrun
    refine Action.Ends.bind_of_ok hrun ?_
    cases M with
    | none =>
      refine Action.Ends.pure (Or.inl ⟨?_, hload, hg₁⟩)
      exact fun ⟨_, _, hM', _⟩ => nomatch hM.symm.trans hM'
    | some M =>
      have hM₁ : g₁.readout.module T = .ok (some M) := hload.readout_eq ▸ hM
      have hremove := ends_removeType hg₁ (halive _ hM M rfl) (hload.alive _ hT) hM₁
      simp only [LeavesModule, hload.readout_eq] at hremove
      refine hremove.mono (fun _ g' h => h.imp ?_ ?_) ?_
      · exact fun ⟨hno, hload', hg'⟩ => ⟨hno, hload.trans hload', hg'⟩
      · exact fun ⟨hin, hgrows, hg', hloses, hdeclaring⟩ =>
          ⟨hin, hload.grows.trans hgrows, hg', hloses.of_loadsTo hload, hdeclaring⟩
      · exact fun _ g' ⟨hno, hload', hg'⟩ => ⟨hno, hload.trans hload', hg'⟩

/-- **Releasing a type** slips exactly where the type has left its module and does not tell what
encloses it.  A type that has left a module has no record, and a record that is found tells what it
nests, so nothing else can go wrong. -/
theorem ends_release (hg : g.Sound) (hapart : g.readout.KeepsApart) (hT : g.isAlive T.any)
    (R : Ref .nestedClass) :
    g.EndsUnless (g.readout.Strands T) (release R T) fun _ _ => True := by
  unfold release EndsUnless
  refine Action.Ends.bind ((ends_detachType hg hT).mono (fun _ _ h => h) ?_) ?_
  · exact fun _ g' ⟨hno, h⟩ => Or.inr ⟨fun hs => hno hs.1, h⟩
  rintro - g₁ (⟨hno, hload, hg₁⟩ | ⟨hin, hgrows, hg₁, hloses, hdeclaring⟩)
  -- the type has not moved
  · have hslip : False ↔ g.readout.Strands T := iff_of_false id fun hs => hno hs.1
    obtain ⟨r, hfind⟩ := hg₁.glances_nestingRecord? (hload.alive _ hT)
    refine EndsUnless.of_loadsTo (EndsUnless.of_iff ?_ hslip) hload
    refine .after_glance hfind False.elim fun S g₂ _ _ hg₂ ⟨_, hS⟩ => ?_
    cases S with
    | none => exact .pure id trivial
    | some S =>
      obtain ⟨hSalive, hSnested⟩ := hS S rfl
      dsimp only
      split
      · exact (ends_detachRecord_of_nested hg₂ hSalive hSnested).bind_succeeds
          fun _ _ _ _ => .pure trivial
      · exact .pure id trivial
  -- the type has left its module, so nothing encloses it
  · obtain ⟨M, l, hM, -⟩ := id hin
    obtain ⟨g₂, hrun, hload, -, -⟩ := hg₁.glances_enclosingType (hgrows.alive _ hT)
    rw [hdeclaring] at hrun
    cases hE : g.readout.declaring T with
    | error e =>
      rw [hE] at hrun
      exact Action.Ends.of_error (Action.runOn_bind_error (Action.runOn_bind_error hrun))
        (Or.inl ⟨⟨hin, by simp [hE]⟩, hloses.trans_loadsTo hload⟩)
    | ok E =>
      obtain rfl := hapart T M E hM hE
      rw [hE] at hrun
      have hnone : (nestingRecord? T).runOn g₁ = (.ok none, g₂) := Action.runOn_bind_ok hrun
      refine Action.Ends.bind_of_ok hnone (Action.Ends.pure ⟨fun hs => hs.2 none hE, ?_, trivial⟩)
      exact hgrows.trans hload.grows

/-! ### Moving -/

/-- **Attaching a record** slips exactly where it gets as far as releasing the type that it nests, and
that slips. -/
theorem ends_attachRecord (hg : g.Sound) (hapart : g.readout.KeepsApart) (hE : g.isAlive E.any)
    (hR : g.isAlive R.any) :
    g.EndsUnless (Passes Readout.records Readout.enclosing g.readout E R ∧
        ∃ T, g.readout.nested R = .ok (some T) ∧ g.readout.Strands T)
      (attachRecord E R) fun _ _ => True := by
  refine edits_recordOwnership.ends_attach hg hE hR (Q := fun g' => ∃ T, g'.readout.nested R = .ok T)
    (fun g₁ hload₁ hg₁ => ?_) fun g₁ g₂ hT hgrows hR₂ => ?_
  · have hR₁ := hload₁.alive _ hR
    rw [← hload₁.readout_eq]
    refine .after_glance (hg₁.glances_nested hR₁) (fun ⟨T, hT, _⟩ => ⟨_, hT⟩)
      fun T g₂ hT hload₂ hg₂ halive => ?_
    have hT₂ : g₂.readout.nested R = .ok T := hload₂.readout_eq ▸ hT
    cases T with
    | none => exact .pure (fun ⟨_, hT', _⟩ => nomatch hT.symm.trans hT') ⟨none, hT₂⟩
    | some T =>
      have hapart₂ : g₂.readout.KeepsApart := (hload₁.trans hload₂).readout_eq ▸ hapart
      refine ((ends_release hg₂ hapart₂ (halive T rfl) R).of_iff ?_).mono
        fun _ g₃ hgrows _ => hgrows.readable .nested R ⟨_, hT₂⟩
      rw [hload₂.readout_eq, hT]
      exact ⟨fun h => ⟨T, rfl, h⟩, fun ⟨_, hT', h⟩ => Option.some.inj (Except.ok.inj hT') ▸ h⟩
  · exact succeeds_follow hR₂ (hgrows.readable .nested R hT) (some E)

/-- **Attaching a type** to a module never slips. -/
theorem ends_attachType (hg : g.Sound) (hM : g.isAlive M.any) (hT : g.isAlive T.any) :
    g.EndsUnless False (attachType M T) fun _ _ => True := by
  have hattach : g.EndsUnless (Passes Readout.types Readout.module g.readout M T ∧ False)
      (attachType M T) fun _ _ => True := by
    refine edits_typeOwnership.ends_attach hg hM hT (Q := fun _ => True) (fun g₁ hload hg₁ => ?_)
      fun _ _ _ _ _ => .pure trivial
    obtain ⟨r, hfind⟩ := hg₁.glances_nestingRecord? (hload.alive _ hT)
    refine .after_glance hfind False.elim fun S g₂ _ _ hg₂ ⟨_, hS⟩ => ?_
    cases S with
    | none => exact .pure id trivial
    | some S =>
      obtain ⟨hSalive, hSnested⟩ := hS S rfl
      exact (ends_detachRecord_of_nested hg₂ hSalive hSnested).bind_succeeds
        fun _ _ _ _ => .pure trivial
  exact hattach.of_iff (iff_of_eq (and_false _))

/-- Writing what encloses a type, if there is one, succeeds. -/
theorem succeeds_enclose {Q : Unit → Graph → Prop} {f : Unit → GraphAction Unit}
    (U F : Option (Ref .typeDef)) (hf : ∀ g', g.Grows g' → g'.Succeeds (f ()) Q) :
    g.Succeeds (match U with
      | some type => do
        let r ← Attribute.TypeDef.declaringType.write type F
        f r
      | none => f ()) Q := by
  cases U with
  | none => exact hf g (.refl g)
  | some U =>
    exact (Succeeds.change (grows_put .declaringType U F)).bind fun _ g' hgrows _ => hf g' hgrows

/-- **Replacing the type that a record nests** slips exactly where the record is in a list, the type
is another one, and releasing it slips. -/
theorem ends_setNested (hg : g.Sound) (hapart : g.readout.KeepsApart) (hR : g.isAlive R.any)
    {c : Option (Ref .typeDef)} (hc : ∀ T ∈ c, g.isAlive T.any) :
    g.EndsUnless (∃ T ∈ c, (∃ U, g.readout.nested R = .ok U ∧ U ≠ some T) ∧
        (∃ E, g.readout.enclosing R = .ok (some E)) ∧ g.readout.Strands T)
      (setNested R c) fun _ _ => True := by
  unfold setNested
  refine .after_glance (hg.glances_nested hR) (fun ⟨_, _, ⟨U, hU, _⟩, _⟩ => ⟨U, hU⟩)
    fun U g₁ hU hload₁ hg₁ _ => ?_
  have hraw : ∀ {x}, g.readout.enclosing R = .ok x →
      ∃ v, Attribute.NestedClass.enclosing.value R g₁ = .ok v := fun hx => by
    rw [← hload₁.readout_eq] at hx
    obtain ⟨v, hv, -⟩ := exists_of_presentOnly_eq_ok hx
    exact ⟨v, hv⟩
  refine .after_glance (hg₁.glances_read .enclosing (hload₁.alive _ hR))
    (fun ⟨_, _, _, ⟨_, hE⟩, _⟩ => hraw hE) fun F g₂ hF hload₂ hg₂ hmade => ?_
  have hload := hload₁.trans hload₂
  have henclosing : g.readout.enclosing R = .ok (g₂.presentOnly F) := by
    rw [← hload.readout_eq]
    change g₂.presentOnly <$> Attribute.NestedClass.enclosing.value R g₂ = _
    rw [hload₂.value .enclosing R, hF]
    rfl
  -- all that follows the release are writes
  have hwrites : ∀ g₃ : Graph, g₃.Succeeds (do
      match U with
      | some previous => Attribute.TypeDef.declaringType.write previous none
      | none => pure ()
      match c with
      | some type => Attribute.TypeDef.declaringType.write type F
      | none => pure ()
      Attribute.NestedClass.nested.write R c) fun _ _ => True := fun g₃ =>
    succeeds_enclose U none fun g₄ _ => succeeds_enclose c F fun g₅ _ =>
      .change (grows_put .nested R c)
  split
  · next hsame =>
    refine .pure (fun ⟨T, hT, ⟨V, hV, hne⟩, _⟩ => hne ?_) trivial
    rw [Except.ok.inj (hV.symm.trans hU), hsame.2, hT]
  · next hother =>
    cases c with
    | none => exact .of_succeeds (hwrites g₂) fun ⟨_, hT, _⟩ => nomatch hT
    | some T =>
      refine Action.Ends.bind_of_ok (runOn_living hmade.1) ?_
      dsimp only
      cases hE : g₂.presentOnly F with
      | none =>
        refine EndsUnless.of_succeeds (hwrites g₂) fun ⟨_, _, _, ⟨_, hE'⟩, _⟩ => ?_
        exact nomatch (henclosing.trans (congrArg _ hE)).symm.trans hE'
      | some E =>
        have hne : U ≠ some T := fun heq => hother ⟨Option.isSome_of_eq_some heq, heq⟩
        have hrelease := ends_release hg₂ (hload.readout_eq ▸ hapart) (hload.alive _ (hc T rfl)) R
        refine (hrelease.of_iff ?_).bind_succeeds fun _ g₃ _ _ => hwrites g₃
        rw [hload.readout_eq]
        refine ⟨fun hs => ⟨T, rfl, ⟨U, hU, hne⟩, ⟨E, henclosing.trans (congrArg _ hE)⟩, hs⟩, ?_⟩
        exact fun ⟨_, hT, _, _, hs⟩ => Option.some.inj hT ▸ hs

/-! ### Nesting -/

section Authored

variable {e : EntityKind.nestedClass.Entity}

/-- Where a type is does not depend on records that are authored. -/
theorem owner_authored {l : EntityKind} {a : Attribute .typeDef (Option (Ref l))}
    (hvalue : a.value T (g.authored e) = a.value T g)
    (hknown : ∀ v, a.value T g = .ok v → ∀ s ∈ Attribute.optionalRef v, g.hasNumber s) :
    (g.authored e).presentOnly <$> a.value T (g.authored e) = g.presentOnly <$> a.value T g := by
  rw [hvalue]
  cases hv : a.value T g with
  | error _ => rfl
  | ok v => exact congrArg Except.ok (presentOnly_authored (hknown v hv))

theorem module_authored (hg : g.Sound) (T : Ref .typeDef) :
    (g.authored e).readout.module T = g.readout.module T :=
  owner_authored (value_authored_of_ne .module fun h => nomatch congrArg AnyRef.kind h)
    (hg.known .module T)

theorem declaring_authored (hg : g.Sound) (T : Ref .typeDef) :
    (g.authored e).readout.declaring T = g.readout.declaring T :=
  owner_authored (value_authored_of_ne .declaringType fun h => nomatch congrArg AnyRef.kind h)
    (hg.known .declaringType T)

theorem grows_authored (hg : g.Sound) : g.Grows (g.authored e) where
  alive _ := isAlive_authored_of_isAlive
  readable p r := by
    rintro ⟨v, hv⟩
    refine ⟨v, (value_authored_of_ne p fun heq => ?_).trans hv⟩
    rw [value_of_not_isPresent p (heq ▸ hg.isPresent_next .nestedClass)] at hv
    exact nomatch hv

end Authored

/-- Attaching a record whose type tells what encloses it does not slip. -/
theorem ends_attachRecord_of_declaring (hg : g.Sound) (hapart : g.readout.KeepsApart)
    (hE : g.isAlive E.any) (hR : g.isAlive R.any) (hT : g.readout.nested R = .ok (some T))
    {d : Option (Ref .typeDef)} (hd : g.readout.declaring T = .ok d) :
    g.EndsUnless False (attachRecord E R) fun _ _ => True := by
  refine (ends_attachRecord hg hapart hE hR).of_iff (iff_false_intro fun ⟨_, U, hU, hs⟩ => ?_)
  obtain rfl := Option.some.inj (Except.ok.inj (hT.symm.trans hU))
  exact hs.2 d hd

/-- **Nesting a type** never slips.  Once it has been seen that the type has no record, it tells what
encloses it, and a record that has been authored is taken back. -/
theorem ends_nest (hg : g.Sound) (hapart : g.readout.KeepsApart) (hE : g.isAlive E.any)
    (hT : g.isAlive T.any) : g.EndsUnless False (nest E T) fun _ _ => True := by
  unfold nest
  obtain ⟨r, hfind⟩ := hg.glances_nestingRecord? hT
  refine .after_glance hfind False.elim fun S g₁ _ hload hg₁ ⟨⟨d, hd⟩, hS⟩ => ?_
  have hapart₁ : g₁.readout.KeepsApart := hload.readout_eq ▸ hapart
  cases S with
  | some S =>
    obtain ⟨hSalive, hSnested⟩ := hS S rfl
    exact (ends_attachRecord_of_declaring hg₁ hapart₁ (hload.alive _ hE) hSalive hSnested
      hd).bind_succeeds fun _ _ _ _ => .pure trivial
  | none =>
    let R := g₁.next .nestedClass
    let g₂ := g₁.authored (k := .nestedClass) (Entity.NestedClass.authored T)
    have hg₂ : g₂.Sound := hg₁.authored (admits_nestedClass (hload.alive _ hT))
    have hnested : g₂.readout.nested R = .ok (some T) := value_authored_next (p := .nested) rfl
    have hapart₂ : g₂.readout.KeepsApart := fun U M F hM hF =>
      hapart₁ U M F ((module_authored hg₁ U).symm.trans hM) ((declaring_authored hg₁ U).symm.trans hF)
    have hattach := ends_attachRecord_of_declaring hg₂ hapart₂
      (isAlive_authored_of_isAlive (hload.alive _ hE)) isAlive_authored_next hnested
      ((declaring_authored hg₁ T).trans hd)
    refine Action.Ends.bind_of_ok (runOn_author _) (Action.Ends.bind
      (Action.Ends.orUndo hattach (fun _ g₃ h => Or.inr ⟨id, ?_⟩)) fun _ g₃ ⟨_, hgrows, _⟩ => ?_)
    · obtain ⟨-, hload', hg₃⟩ := h.resolve_left fun h => h.1
      exact ⟨hload'.withdraw hg₁, hload'.sound_withdraw hg₁ hg₃⟩
    · exact Action.Ends.pure ⟨id, (grows_authored hg₁).trans hgrows, trivial⟩

end Graph

end ManagedImage
