import ManagedImage.Proofs.Nesting.Authoring
import ManagedImage.Proofs.Nesting.Moves

/-!
# What calls do to the nesting

Each operation on types and records, run in a graph that shows a consistent nesting, succeeds and
leaves a graph that shows the nesting after the move.

## Main results

* `Graph.Shows.nestingRecord?`, `Graph.Shows.release` — the record of a type, and letting it go.
* `Graph.Shows.attachType`, `Graph.Shows.attachRecord` — moving types and records.
* `Graph.Shows.nest` — nesting a type in another one.
-/

namespace ManagedImage

namespace Graph

variable {g : Graph} {n : Nesting} {M : Ref .module} {T E : Ref .typeDef} {R : Ref .nestedClass}

theorem Shows.findRecord (hg : g.Shows n) (T : Ref .typeDef) {l : List (Ref .nestedClass)}
    (hl : ∀ R ∈ l, g.isAlive R.any) :
    g.Yields (findRecord T l) (l.find? fun R => n.nested R = some T) fun g' => g'.Shows n := by
  induction l generalizing g with
  | nil => exact Yields.pure hg
  | cons R l ih =>
    unfold Graph.findRecord
    refine (hg.read_nested (hl R List.mem_cons_self)).bind fun g' hk ⟨hg', _⟩ => ?_
    by_cases hR : n.nested R = some T
    · rw [if_pos hR, List.find?_cons_of_pos (by simpa using hR)]
      exact Yields.pure hg'
    · rw [if_neg hR, List.find?_cons_of_neg (by simpa using hR)]
      exact ih hg' fun S hS => hk.alive _ (hl S (List.mem_cons_of_mem _ hS))

/-- The record of a type can be found, and it exists. -/
theorem Shows.nestingRecord? (hg : g.Shows n) (hT : g.isAlive T.any) :
    g.Yields (nestingRecord? T) (n.recordOf? T) fun g' =>
      g'.Shows n ∧ ∀ R ∈ n.recordOf? T, g'.isAlive R.any := by
  unfold Graph.nestingRecord? Nesting.recordOf?
  refine (hg.read_enclosingType hT).bind fun g₁ _ ⟨hg₁, hE⟩ => ?_
  cases hdeclaring : n.declaring T with
  | none => exact Yields.pure ⟨hg₁, by simp⟩
  | some E =>
    refine (hg₁.read_nestedClasses (hE E hdeclaring)).bind fun g₂ _ ⟨hg₂, hlist⟩ => ?_
    refine (hg₂.findRecord T hlist).mono fun g₃ hk hg₃ => ?_
    exact ⟨hg₃, fun R hR => hk.alive _ (hlist R (List.mem_of_find?_eq_some hR))⟩

theorem Shows.detachType (hg : g.Shows n) (hn : n.Consistent) (hT : g.isAlive T.any) :
    ∃ removed, g.Yields (typeOwnership.detach T) removed fun g' => g'.Shows (n.leaveModule T) := by
  rw [← hn.detach_ofTypes]
  exact tracks_typeOwnership.detach hg hT

theorem Shows.detachRecord (hg : g.Shows n) (hn : n.Consistent) (hR : g.isAlive R.any) :
    ∃ removed, g.Yields (recordOwnership.detach R) removed fun g' =>
      g'.Shows (n.detachRecord R) := by
  rw [← hn.detach_ofRecords]
  exact tracks_recordOwnership.detach hg hR

/-- The record of a type is detached. -/
theorem Shows.detach_recordOf? (hg : g.Shows n) (hn : n.Consistent) (hR : g.isAlive R.any)
    (hRT : n.recordOf? T = some R) :
    ∃ removed, g.Yields (recordOwnership.detach R) removed fun g' => g'.Shows (n.leaveType R) := by
  have hattached : (n.enclosing R).isSome := (hn.recordOf?_eq_some.mp hRT).1
  have hdetach := hg.detachRecord hn hR
  rwa [Nesting.detachRecord, if_pos hattached] at hdetach

/-- **Releasing a type** takes it out of its module and from under any other record. -/
theorem Shows.release (hg : g.Shows n) (hn : n.Consistent) (R : Ref .nestedClass)
    (hT : g.isAlive T.any) :
    g.Yields (release R T) () fun g' => g'.Shows (n.release R T) := by
  unfold Graph.release Nesting.release
  obtain ⟨_, hdetach⟩ := hg.detachType hn hT
  refine hdetach.bind fun g₁ hk₁ hg₁ => ?_
  have hn₁ := hn.leaveModule T
  refine (hg₁.nestingRecord? (hk₁.alive _ hT)).bind fun g₂ _ ⟨hg₂, hS⟩ => ?_
  cases hrecord : (n.leaveModule T).recordOf? T with
  | none => exact Yields.pure hg₂
  | some S =>
    -- the record that is being attached keeps the type
    by_cases hSR : S = R
    · simp only [hSR, ne_eq, not_true, if_false]
      exact Yields.pure hg₂
    · simp only [ne_eq, hSR, not_false_eq_true, if_true]
      obtain ⟨_, hdetach⟩ := hg₂.detach_recordOf? hn₁ (hS S hrecord) hrecord
      exact hdetach.bind fun g₃ _ hg₃ => Yields.pure hg₃

/-- **Moving a type to a module** succeeds. -/
theorem Shows.attachType (hg : g.Shows n) (hn : n.Consistent) (hM : g.isAlive M.any)
    (hT : g.isAlive T.any) :
    g.Yields (attachType M T) () fun g' => g'.Shows (n.attachType M T) := by
  rw [← hn.attach_ofTypes]
  refine tracks_typeOwnership.attach hg hM hT fun g₁ hk₁ hg₁ => ?_
  unfold Nesting.unnest
  refine (hg₁.nestingRecord? (hk₁.alive _ hT)).bind fun g₂ _ ⟨hg₂, hR⟩ => ?_
  cases hrecord : n.recordOf? T with
  | none => exact Yields.pure hg₂
  | some R =>
    obtain ⟨_, hdetach⟩ := hg₂.detach_recordOf? hn (hR R hrecord) hrecord
    exact hdetach.bind fun g₃ _ hg₃ => Yields.pure hg₃

/-- **Moving a record to a type** succeeds. -/
theorem Shows.attachRecord (hg : g.Shows n) (hn : n.Consistent) (hE : g.isAlive E.any)
    (hR : g.isAlive R.any) :
    g.Yields (attachRecord E R) () fun g' => g'.Shows (n.attachRecord E R) := by
  rw [← hn.attach_ofRecords]
  refine tracks_recordOwnership.attach hg hE hR fun g₁ hk₁ hg₁ => ?_
  unfold Nesting.releaseNested
  refine (hg₁.read_nested (hk₁.alive _ hR)).bind fun g₂ _ ⟨hg₂, hT⟩ => ?_
  cases hnested : n.nested R with
  | none => exact Yields.pure hg₂
  | some T => exact hg₂.release hn R (hT T hnested)

/-- A module is authored. -/
theorem Shows.author_module (hg : g.Shows n) (name : String) (mvid : Option Guid) :
    g.Yields (author (Entity.Module.authored name mvid)) (g.next .module) fun g' =>
      g'.Shows n ∧ g'.isAlive (g.next .module).any :=
  ⟨_, rfl, keeps_authored, hg.authored_module name mvid, isAlive_authored_next⟩

/-- A type is authored. -/
theorem Shows.author_typeDef (hg : g.Shows n) (namespaceName name : String) (flags : UInt32) :
    g.Yields (author (Entity.TypeDef.authored namespaceName name flags)) (g.next .typeDef)
      fun g' => g'.Shows n ∧ g'.isAlive (g.next .typeDef).any :=
  ⟨_, rfl, keeps_authored, hg.authored_typeDef namespaceName name flags, isAlive_authored_next⟩

/-- A record is authored. -/
theorem Shows.author_nestedClass (hg : g.Shows n) (hT : g.isAlive T.any) :
    g.Yields (author (Entity.NestedClass.authored T)) (g.next .nestedClass) fun g' =>
       g'.Shows (n.setNested (g.next .nestedClass) (some T)) ∧
        g'.isAlive (g.next .nestedClass).any :=
  ⟨_, rfl, keeps_authored, hg.authored_nestedClass hT, isAlive_authored_next⟩

/-- **Nesting a type in another one** succeeds.  A record that is authored for it is in no list
before. -/
theorem Shows.nest (hg : g.Shows n) (hn : n.Consistent) (hE : g.isAlive E.any)
    (hT : g.isAlive T.any) :
    ∃ R, g.Yields (nest E T) R fun g' =>
      ∃ S, n.enclosing S = none ∧ g'.Shows (n.nest E T S) := by
  unfold Graph.nest
  refine (hg.nestingRecord? hT).bind_exists fun g₁ hk₁ ⟨hg₁, hR⟩ => ?_
  have hnext := hg₁.enclosing_next
  unfold Nesting.nest
  cases hrecord : n.recordOf? T with
  | some R =>
    refine ⟨R, (hg₁.attachRecord hn (hk₁.alive _ hE) (hR R hrecord)).bind fun g₂ _ hg₂ => ?_⟩
    exact Yields.pure ⟨g₁.next .nestedClass, hnext, hg₂⟩
  | none =>
    refine ⟨g₁.next .nestedClass, ?_⟩
    refine (hg₁.author_nestedClass (hk₁.alive _ hT)).bind fun g₂ hk₂ ⟨hg₂, halive⟩ => ?_
    have hn₂ := hn.setNested hnext (some T)
    -- nothing has to be taken back, since attaching succeeds
    have hattach := hg₂.attachRecord hn₂ ((hk₁.trans hk₂).alive _ hE) halive
    exact hattach.orUndo.bind fun g₃ _ hg₃ => Yields.pure ⟨g₁.next .nestedClass, hnext, hg₃⟩

end Graph

end ManagedImage
