import ManagedImage.Proofs.Nesting.Run

/-!
# Replacing the type that a record nests

A record may be made to nest another type.  The type that it nested is no longer enclosed then, and
the new one is enclosed by the type of the record, whether the record is in a list or not.  So the
nesting stays consistent exactly if the record is in a list or neither type is nested.

## Main definitions

* `Nesting.replaceNested` — what replacing the type does to the nesting.

## Main results

* `Nesting.Consistent.replaceNested_iff` — when the nesting stays consistent.
* `Graph.Shows.setNested` — replacing the type succeeds and does this.
-/

namespace ManagedImage

namespace Nesting

variable {n m : Nesting} {T E : Ref .typeDef} {R : Ref .nestedClass} {c : Option (Ref .typeDef)}

/-- The type that encloses a type, if there is one, is replaced. -/
def enclose (n : Nesting) (T : Option (Ref .typeDef)) (E : Option (Ref .typeDef)) : Nesting :=
  T.elim n (n.setDeclaring · E)

/-- The new type is released, if the record is in a list. -/
def releaseNew (n : Nesting) (R : Ref .nestedClass) (c : Option (Ref .typeDef)) : Nesting :=
  if (n.enclosing R).isSome then c.elim n (n.release R) else n

/-- The record is made to nest another type, or none. -/
def replaceNested (n : Nesting) (R : Ref .nestedClass) (c : Option (Ref .typeDef)) : Nesting :=
  if (n.nested R).isSome ∧ n.nested R = c then n
  else (((n.releaseNew R c).enclose (n.nested R) none).enclose c (n.enclosing R)).setNested R c

theorem enclose_eq (n : Nesting) (T E : Option (Ref .typeDef)) :
    n.enclose T E = { n with declaring := fun U => if T = some U then E else n.declaring U } := by
  cases T with
  | none => rfl
  | some T =>
    unfold enclose
    simp only [Option.elim_some, Option.some_inj, setDeclaring, eq_comm]

/-- The nesting depends on the order in the lists of records in no way that matters. -/
theorem Consistent.of_records (h : n.Consistent) (h' : m.Consistent)
    (hm : m.enclosing = n.enclosing) : { n with records := m.records }.Consistent where
  mem_types := h.mem_types
  mem_records := by
    intro E R
    rw [h'.mem_records, hm]
  declaring_eq_some := by
    intro T E
    rw [h.declaring_eq_some]
    refine exists_congr fun R => and_congr_left fun _ => ?_
    rw [h.mem_records, h'.mem_records, hm]
  unique := h.unique
  exclusive := h.exclusive
  nodup_types := h.nodup_types
  nodup_records := h'.nodup_records

/-- A record in a list may be made to nest a type that is nowhere else. -/
theorem Consistent.replace_of_isFree (h : n.Consistent) (hR : n.enclosing R = some E)
    (hfree : ((n.leaveType R).setNested R c).IsFree R) :
    (((n.enclose (n.nested R) none).enclose c (some E)).setNested R c).Consistent := by
  have hattached : n.IsAttached R := Option.isSome_of_eq_some hR
  -- the record leaves its type, nests another one, and comes back to the end of the list
  have hleave := h.leaveType hattached
  have hset := hleave.setNested (R := R) (if_pos rfl) c
  have hjoin := hset.joinType hfree E
  have henclosing : (((n.leaveType R).setNested R c).joinType R E).enclosing = n.enclosing := by
    funext S
    by_cases hS : S = R
    · rw [enclosing_joinType, if_pos hS, hS, hR]
    · rw [enclosing_joinType, if_neg hS]
      exact if_neg hS
  -- what is written comes to the same, but for the place in the list
  have heq : (((n.enclose (n.nested R) none).enclose c (some E)).setNested R c) =
      { ((n.leaveType R).setNested R c).joinType R E with records := n.records } := by
    have hnested : ((n.leaveType R).setNested R c).nested R = c := if_pos rfl
    have hdeclaring : (((n.leaveType R).setNested R c).joinType R E).declaring =
        fun U => if c = some U then some E else if n.nested R = some U then none
          else n.declaring U := by
      funext U
      rw [declaring_joinType, hnested]
      rfl
    rw [enclose_eq, enclose_eq]
    exact congrArg₂ (fun enclosing declaring => { n.setNested R c with enclosing, declaring })
      henclosing.symm hdeclaring.symm
  rw [heq]
  exact hjoin.of_records h henclosing.symm

/-- A record in a list may be made to nest any type. -/
theorem Consistent.replaceNested_of_isAttached (h : n.Consistent) (hR : n.IsAttached R)
    (c : Option (Ref .typeDef)) : (n.replaceNested R c).Consistent := by
  unfold replaceNested
  split
  · exact h
  · next hsame =>
    obtain ⟨E, hE⟩ := Option.isSome_iff_exists.mp hR
    rw [releaseNew, hE, Option.isSome_some, if_pos rfl]
    cases c with
    | none =>
      refine h.replace_of_isFree hE fun T hT => ?_
      exact absurd ((if_pos rfl).symm.trans hT) (by simp)
    | some T =>
      -- a release leaves the new type with no module and no record but `R`
      have hrelease := h.release R T
      obtain ⟨hmodule, honly⟩ := h.eq_of_release R T
      have hfree : (((n.release R T).leaveType R).setNested R (some T)).IsFree R := by
        intro U hU
        obtain rfl : T = U := Option.some.inj ((if_pos rfl).symm.trans hU)
        refine ⟨hmodule, fun S hS hST => ?_⟩
        by_cases hSR : S = R
        · exact hSR
        · refine honly S ?_ ?_
          · exact (congrArg Option.isSome (if_neg hSR)).symm.trans hS
          · rw [← nested_release n R T]
            exact (if_neg hSR).symm.trans hST
      have hreplace := hrelease.replace_of_isFree (enclosing_release.trans hE) hfree
      rwa [nested_release] at hreplace

/-- A record in no list nests a type for itself only. -/
theorem Consistent.replaceNested_iff_of_not_isAttached (h : n.Consistent)
    (hR : n.enclosing R = none) (hsame : ¬((n.nested R).isSome ∧ n.nested R = c)) :
    (n.replaceNested R c).Consistent ↔
      ∀ T, n.nested R = some T ∨ c = some T → n.declaring T = none := by
  have hset := h.setNested hR c
  have heq : n.replaceNested R c = { n.setNested R c with
      declaring := fun U => if n.nested R = some U ∨ c = some U then none
        else n.declaring U } := by
    rw [replaceNested, if_neg hsame, releaseNew, hR, enclose_eq, enclose_eq]
    refine congrArg (fun declaring => { n.setNested R c with declaring }) (funext fun U => ?_)
    by_cases hU : c = some U <;> by_cases hU' : n.nested R = some U <;> simp [hU, hU']
  rw [heq]
  constructor
  · -- nobody but `R` has changed what it nests, so all types are enclosed as before
    intro h' T hT
    rw [Option.eq_none_iff_forall_ne_some]
    intro E hE
    have hE' := h'.declaring_eq_some.mpr (hset.declaring_eq_some.mp hE)
    exact absurd ((if_pos hT).symm.trans hE') (by simp)
  · intro hfree
    have hdeclaring : (fun U => if n.nested R = some U ∨ c = some U then none
        else n.declaring U) = n.declaring := by
      funext U
      split
      · next hU => exact (hfree U hU).symm
      · rfl
    rw [hdeclaring]
    exact hset

/-- **When the nesting stays consistent**: the record is in a list, or it nests the type already,
or neither the type that it nested nor the new one is nested. -/
theorem Consistent.replaceNested_iff (h : n.Consistent) :
    (n.replaceNested R c).Consistent ↔ n.IsAttached R ∨ n.nested R = c ∨
      ∀ T, n.nested R = some T ∨ c = some T → n.declaring T = none := by
  by_cases hR : n.IsAttached R
  · exact iff_of_true (h.replaceNested_of_isAttached hR c) (Or.inl hR)
  · by_cases hsame : (n.nested R).isSome ∧ n.nested R = c
    · rw [replaceNested, if_pos hsame]
      exact iff_of_true h (Or.inr (Or.inl hsame.2))
    · have henclosing : n.enclosing R = none := by simpa [IsAttached] using hR
      rw [h.replaceNested_iff_of_not_isAttached henclosing hsame]
      refine ⟨fun hfree => Or.inr (Or.inr hfree), fun hcases => ?_⟩
      rcases hcases with hR' | heq | hfree
      · exact absurd hR' hR
      · -- no type has been there before or after
        subst heq
        intro T hT
        exact absurd ⟨by rcases hT with hT | hT <;> simp [hT], rfl⟩ hsame
      · exact hfree

end Nesting

namespace Graph

variable {g : Graph} {n : Nesting} {R : Ref .nestedClass} {c : Option (Ref .typeDef)}

/-- The raw back-pointer of a record can be read. -/
theorem Shows.read_rawEnclosing (hg : g.Shows n) (hR : g.isAlive R.any) :
    ∃ E, g.Yields (Attribute.NestedClass.enclosing.read R) E fun g' => g'.Shows n ∧
      g'.presentOnly E = n.enclosing R ∧ ∀ x ∈ Attribute.optionalRef E, g'.IsKnown x := by
  refine ⟨_, (hg.read (p := .enclosing) trivial hR none).mono ?_⟩
  intro g' hk ⟨hg', hload, hknown, _⟩
  refine ⟨hg', ?_, hknown⟩
  rw [← hg.nesting_eq]
  simp only [presentOnly, hload.present]
  rfl

/-- The new type is released first, if the record is in a list. -/
theorem Shows.releaseNew_bind (hg : g.Shows n) (hn : n.Consistent) (hc : ∀ T ∈ c, g.isAlive T.any)
    {E : Option (Ref .typeDef)} (hE : g.presentOnly E = n.enclosing R)
    (hknown : ∀ x ∈ Attribute.optionalRef E, g.IsKnown x) {f : Unit → GraphAction Unit}
    {Q : Graph → Prop}
    (hf : ∀ g', g.Keeps g' → g'.Shows (n.releaseNew R c) → g'.Yields (f ()) () Q) :
    g.Yields (match c with
      | some type => do
        if (← Graph.living E).isSome then do
          let r ← Graph.release R type
          f r
        else f ()
      | none => f ()) () Q := by
  unfold Nesting.releaseNew at hf
  cases c with
  | none =>
    simp only [Option.elim_none, ite_self] at hf
    exact hf g (Keeps.refl g) hg
  | some T =>
    refine (hg.living (LoadsTo.refl g) hknown).bind fun g₁ hk₁ ⟨hg₁, _⟩ => ?_
    rw [hE]
    by_cases hR : (n.enclosing R).isSome
    · simp only [hR, if_true] at hf ⊢
      refine (hg₁.release hn R (hk₁.alive _ (hc T rfl))).bind fun g₂ hk₂ hg₂ => ?_
      exact hf g₂ (hk₁.trans hk₂) hg₂
    · simp only [hR] at hf ⊢
      exact hf g₁ hk₁ hg₁

/-- The type that encloses a type, if there is one, is written. -/
theorem Shows.enclose_bind (hg : g.Shows n) {T : Option (Ref .typeDef)}
    (hT : ∀ U ∈ T, g.isAlive U.any) {E : Option (Ref .typeDef)}
    (hE : ∀ x ∈ Attribute.optionalRef E, g.IsKnown x) {f : Unit → GraphAction Unit}
    {Q : Graph → Prop}
    (hf : ∀ g', g.Keeps g' → g'.Shows (n.enclose T (g.presentOnly E)) → g'.Yields (f ()) () Q) :
    g.Yields (match T with
      | some type => do
        let r ← Attribute.TypeDef.declaringType.write type E
        f r
      | none => f ()) () Q := by
  cases T with
  | none => exact hf g (Keeps.refl g) hg
  | some T =>
    have hput := hg.put_declaringType (hT T rfl) hE
    exact (Yields.change (keeps_put (p := .declaringType)) hput).bind hf

/-- **Replacing the type that a record nests** succeeds. -/
theorem Shows.setNested (hg : g.Shows n) (hn : n.Consistent) (hR : g.isAlive R.any)
    (hc : ∀ T ∈ c, g.isAlive T.any) :
    g.Yields (setNested R c) () fun g' => g'.Shows (n.replaceNested R c) := by
  unfold Graph.setNested Nesting.replaceNested
  refine (hg.read_nested hR).bind fun g₁ hk₁ ⟨hg₁, hP⟩ => ?_
  obtain ⟨E, hread⟩ := hg₁.read_rawEnclosing (hk₁.alive _ hR)
  refine hread.bind fun g₂ hk₂ ⟨hg₂, hE, hknown⟩ => ?_
  have hk := hk₁.trans hk₂
  by_cases hsame : (n.nested R).isSome ∧ n.nested R = c
  · rw [if_pos hsame, if_pos hsame]
    exact Yields.pure hg₂
  · rw [if_neg hsame, if_neg hsame]
    -- the raw back-pointer is read before the writes and still means the same after them
    have hkeeps : ∀ {g' : Graph}, g₂.Keeps g' →
        g'.presentOnly E = n.enclosing R ∧ ∀ x ∈ Attribute.optionalRef E, g'.IsKnown x :=
      fun hk' => ⟨(hk'.presentOnly_of_isKnown hknown).trans hE, fun x hx => hk'.isKnown (hknown x hx)⟩
    refine hg₂.releaseNew_bind hn (fun T hT => hk.alive _ (hc T hT)) hE hknown
      fun g₃ hk₃ hg₃ => ?_
    refine hg₃.enclose_bind (E := none) (fun T hT => (hk₂.trans hk₃).alive _ (hP T hT)) (by
      simp [Attribute.optionalRef]) fun g₄ hk₄ hg₄ => ?_
    have hk₂₄ := hk₃.trans hk₄
    refine hg₄.enclose_bind (fun T hT => (hk.trans hk₂₄).alive _ (hc T hT)) (hkeeps hk₂₄).2
      fun g₅ hk₅ hg₅ => ?_
    rw [(hkeeps hk₂₄).1] at hg₅
    have hk' := hk.trans (hk₂₄.trans hk₅)
    exact Yields.change (keeps_put (p := .nested))
      (hg₅.put_nested (hk'.alive _ hR) fun T hT => hk'.alive _ (hc T hT))

/-- **Replacing the type that a record nests** succeeds, and keeps the nesting consistent exactly if
the record is in a list, nests that type already, or neither the type that it nested nor the new one
is nested. -/
theorem consistent_setNested_iff (hsound : g.Sound) (hresolvable : g.Resolvable)
    (hconsistent : g.nesting.Consistent) (hR : g.isAlive R.any) (hc : ∀ T ∈ c, g.isAlive T.any) :
    ∃ g', (setNested R c).runOn g = (.ok (), g') ∧
      (g'.nesting.Consistent ↔ g.nesting.IsAttached R ∨ g.nesting.nested R = c ∨
        ∀ T, g.nesting.nested R = some T ∨ c = some T → g.nesting.declaring T = none) := by
  have hg : g.Shows g.nesting := ⟨hsound, hresolvable, rfl⟩
  obtain ⟨g', hrun, -, hg'⟩ := hg.setNested hconsistent hR hc
  refine ⟨g', hrun, ?_⟩
  rw [hg'.nesting_eq]
  exact hconsistent.replaceNested_iff

/-- The record of a new type, which is in no list, lets go of the type. -/
theorem consistent_setNested_newRecord :
    ∃ R g g', (do
        let type : Ref .typeDef ← author (Entity.TypeDef.authored "" "Alone" 0)
        author (Entity.NestedClass.authored type)).runOn (Graph.empty none) = (.ok R, g) ∧
      (setNested R none).runOn g = (.ok (), g') ∧ g'.nesting.Consistent := by
  obtain ⟨n, hn, hconsistent⟩ := showsConsistent_empty
  obtain ⟨g₁, htype, -, hg₁, hT⟩ := hn.author_typeDef "" "Alone" 0
  obtain ⟨g₂, hrecord, -, hg₂, hR⟩ := hg₁.author_nestedClass hT
  have hconsistent₂ := hconsistent.setNested hg₁.enclosing_next (some ((Graph.empty none).next .typeDef))
  obtain ⟨g₃, hrun, hiff⟩ := consistent_setNested_iff hg₂.sound hg₂.resolvable
    (hg₂.nesting_eq ▸ hconsistent₂) hR (c := none) (by simp)
  refine ⟨_, g₂, g₃, (Action.runOn_bind_ok htype).trans hrecord, hrun, hiff.mpr ?_⟩
  refine Or.inr (Or.inr fun U hU => ?_)
  rw [hg₂.nesting_eq] at hU ⊢
  have hU : some ((Graph.empty none).next .typeDef) = some U :=
    (hU.resolve_right (by simp)).symm.trans (if_pos rfl) |>.symm
  obtain rfl := Option.some.inj hU
  exact hn.declaring_next

/-- A type is nested in another one, and a second record of it is in no list. -/
def secondRecord : GraphAction (Ref .nestedClass) := do
  let outer : Ref .typeDef ← author (Entity.TypeDef.authored "" "Outer" 0)
  let inner : Ref .typeDef ← author (Entity.TypeDef.authored "" "Inner" 0)
  let _ ← nest outer inner
  author (Entity.NestedClass.authored inner)

theorem Shows.secondRecord (hg : g.Shows n) (hn : n.Consistent) :
    ∃ R m g', secondRecord.runOn g = (.ok R, g') ∧ g'.Shows m ∧ m.Consistent ∧
      g'.isAlive R.any ∧ m.enclosing R = none ∧
      ∃ T E, m.nested R = some T ∧ m.declaring T = some E := by
  obtain ⟨g₁, houter, hk₁, hg₁, houter_alive⟩ := hg.author_typeDef "" "Outer" 0
  obtain ⟨g₂, hinner, hk₂, hg₂, hinner_alive⟩ := hg₁.author_typeDef "" "Inner" 0
  obtain ⟨R, g₃, hnest, hk₃, S, hS, hg₃⟩ := hg₂.nest hn (hk₂.alive _ houter_alive) hinner_alive
  obtain ⟨g₄, hsecond, -, hg₄, hsecond_alive⟩ := hg₃.author_nestedClass (hk₃.alive _ hinner_alive)
  have hn₃ := hn.nest hS (g.next .typeDef) (g₁.next .typeDef)
  refine ⟨_, _, g₄, ?_, hg₄, hn₃.setNested hg₃.enclosing_next _, hsecond_alive,
    hg₃.enclosing_next, _, g.next .typeDef, if_pos rfl, hn.declaring_nest hS _ _⟩
  exact (Action.runOn_bind_ok houter).trans ((Action.runOn_bind_ok hinner).trans
    ((Action.runOn_bind_ok hnest).trans hsecond))

/-- When the second record lets go of the type, the type is not enclosed any more, though the first
record still nests it. -/
theorem not_consistent_setNested_secondRecord :
    ∃ R g g', Graph.secondRecord.runOn (Graph.empty none) = (.ok R, g) ∧ g.Sound ∧ g.Resolvable ∧
      g.nesting.Consistent ∧ g.isAlive R.any ∧
      (setNested R none).runOn g = (.ok (), g') ∧ ¬g'.nesting.Consistent := by
  obtain ⟨n, hn, hconsistent⟩ := showsConsistent_empty
  obtain ⟨R, m, g, hrun, hg, hm, hR, hfree, T, E, hT, hE⟩ := hn.secondRecord hconsistent
  obtain ⟨g', hrun', -, hg'⟩ := hg.setNested hm hR (c := none) (by simp)
  refine ⟨R, g, g', hrun, hg.sound, hg.resolvable, hg.nesting_eq ▸ hm, hR, hrun', ?_⟩
  rw [hg'.nesting_eq, hm.replaceNested_iff]
  rintro (hattached | hnone | hnowhere)
  · rw [Nesting.IsAttached, hfree] at hattached
    exact absurd hattached (by simp)
  · rw [hT] at hnone
    exact absurd hnone (by simp)
  · have hnowhere := hnowhere T (Or.inl hT)
    rw [hE] at hnowhere
    exact absurd hnowhere (by simp)

end Graph

end ManagedImage
