import ManagedImage.Graph.Ref
import ManagedImage.Proofs.Ownership.Side
import Mathlib.Data.List.Nodup

/-!
# Who is nested where

Where the types and the nesting records of a graph are, as six functions: the lists of the modules
and of the types, the back-pointers of the types and of the records, the type that a record nests,
and the type that encloses a type.  The last one follows from the others in a consistent state, and
all moves of types and records keep it that way.

## Main definitions

* `Nesting` — the six functions.
* `Nesting.Consistent` — lists and back-pointers agree, and no type is in two places.
* `Nesting.ofTypes`, `Nesting.ofRecords` — types in modules, and records in types.
* `Nesting.leaveModule`, `leaveType`, `joinModule`, `joinType` — the four moves.
* `Nesting.release`, `attachType`, `attachRecord` — what the moves are put together to.

## Main results

* `Nesting.Consistent.attachType`, `Nesting.Consistent.attachRecord` — the state stays consistent.
-/

namespace ManagedImage

/-- Where types and nesting records are.  What is not there has no list and no owner. -/
structure Nesting where
  /-- The types in the list of a module. -/
  types : Ref .module → List (Ref .typeDef)
  /-- The module that a type points back at. -/
  module : Ref .typeDef → Option (Ref .module)
  /-- The records in the list of a type. -/
  records : Ref .typeDef → List (Ref .nestedClass)
  /-- The type that a record points back at. -/
  enclosing : Ref .nestedClass → Option (Ref .typeDef)
  /-- The type that a record nests. -/
  nested : Ref .nestedClass → Option (Ref .typeDef)
  /-- The type that encloses a type. -/
  declaring : Ref .typeDef → Option (Ref .typeDef)

namespace Nesting

variable {n : Nesting} {M : Ref .module} {T E : Ref .typeDef} {R S : Ref .nestedClass}

/-- The record is in the list of a type. -/
def IsAttached (n : Nesting) (R : Ref .nestedClass) : Prop := (n.enclosing R).isSome

/-- Lists and back-pointers agree, and no type is in two places. -/
structure Consistent (n : Nesting) : Prop where
  /-- A type is in the list of the module that it points back at, and in no other. -/
  mem_types : ∀ {M T}, T ∈ n.types M ↔ n.module T = some M
  /-- A record is in the list of the type that it points back at, and in no other. -/
  mem_records : ∀ {E R}, R ∈ n.records E ↔ n.enclosing R = some E
  /-- A type is enclosed by the type that has a record of it. -/
  declaring_eq_some : ∀ {T E}, n.declaring T = some E ↔ ∃ R ∈ n.records E, n.nested R = some T
  /-- A type is nested through one record. -/
  unique : ∀ {R S T}, n.IsAttached R → n.IsAttached S →
    n.nested R = some T → n.nested S = some T → R = S
  /-- A type in a module is not nested. -/
  exclusive : ∀ T, n.module T = none ∨ n.declaring T = none
  /-- No module lists a type twice. -/
  nodup_types : ∀ M, (n.types M).Nodup
  /-- No type lists a record twice. -/
  nodup_records : ∀ E, (n.records E).Nodup

/-- Replaces the type that encloses a type. -/
def setDeclaring (n : Nesting) (T : Ref .typeDef) (E : Option (Ref .typeDef)) : Nesting :=
  { n with declaring := fun U => if U = T then E else n.declaring U }

/-- Types in modules. -/
def ofTypes : Side Nesting (Ref .module) (Ref .typeDef) where
  list := types
  owner := module
  put n types module := { n with types, module }
  changed n _ _ := n

/-- Records in types.  When a record changes hands, the type that it nests follows. -/
def ofRecords : Side Nesting (Ref .typeDef) (Ref .nestedClass) where
  list := records
  owner := enclosing
  put n records enclosing := { n with records, enclosing }
  changed n R E := (n.nested R).elim n (n.setDeclaring · E)

theorem Consistent.agrees_ofTypes (h : n.Consistent) : ofTypes.Agrees n := fun _ _ => h.mem_types

theorem Consistent.agrees_ofRecords (h : n.Consistent) : ofRecords.Agrees n :=
  fun _ _ => h.mem_records

theorem Consistent.noDup_ofTypes (h : n.Consistent) : ofTypes.NoDup n := h.nodup_types

theorem Consistent.noDup_ofRecords (h : n.Consistent) : ofRecords.NoDup n := h.nodup_records

/-! ### The moves -/

/-- The type leaves its module. -/
def leaveModule (n : Nesting) (T : Ref .typeDef) : Nesting :=
  { n with
    types := fun M => (n.types M).filter (· ≠ T)
    module := fun U => if U = T then none else n.module U }

/-- The enclosing types after the type nested by a record has been given a new one. -/
def follow (n : Nesting) (R : Ref .nestedClass) (E : Option (Ref .typeDef)) :
    Ref .typeDef → Option (Ref .typeDef) :=
  fun T => if n.nested R = some T then E else n.declaring T

/-- The record leaves the type whose list it is in. -/
def leaveType (n : Nesting) (R : Ref .nestedClass) : Nesting :=
  { n with
    records := fun E => (n.records E).filter (· ≠ R)
    enclosing := fun S => if S = R then none else n.enclosing S
    declaring := n.follow R none }

/-- The type joins a module. -/
def joinModule (n : Nesting) (T : Ref .typeDef) (M : Ref .module) : Nesting :=
  { n with
    types := fun N => (n.types N).filter (· ≠ T) ++ if N = M then [T] else []
    module := fun U => if U = T then some M else n.module U }

/-- The record joins a type. -/
def joinType (n : Nesting) (R : Ref .nestedClass) (E : Ref .typeDef) : Nesting :=
  { n with
    records := fun D => (n.records D).filter (· ≠ R) ++ if D = E then [R] else []
    enclosing := fun S => if S = R then some E else n.enclosing S
    declaring := n.follow R (some E) }

/-- The record in the list of the enclosing type through which a type is nested. -/
def recordOf? (n : Nesting) (T : Ref .typeDef) : Option (Ref .nestedClass) :=
  (n.declaring T).bind fun E => (n.records E).find? fun R => n.nested R = some T

/-- The type leaves its module and any record but `R`. -/
def release (n : Nesting) (R : Ref .nestedClass) (T : Ref .typeDef) : Nesting :=
  match (n.leaveModule T).recordOf? T with
  | some S => if S ≠ R then (n.leaveModule T).leaveType S else n.leaveModule T
  | none => n.leaveModule T

/-- The type that a record nests, if any, leaves its module and any other record. -/
def releaseNested (n : Nesting) (R : Ref .nestedClass) : Nesting :=
  match n.nested R with
  | some T => n.release R T
  | none => n

/-- The type gives up the record through which it is nested. -/
def unnest (n : Nesting) (T : Ref .typeDef) : Nesting :=
  match n.recordOf? T with
  | some R => n.leaveType R
  | none => n

/-- The record leaves its type, if it has one. -/
def detachRecord (n : Nesting) (R : Ref .nestedClass) : Nesting :=
  if (n.enclosing R).isSome then n.leaveType R else n

/-- The type moves to a module. -/
def attachType (n : Nesting) (M : Ref .module) (T : Ref .typeDef) : Nesting :=
  if n.module T = some M then n else (n.unnest T).joinModule T M

/-- The record moves to a type. -/
def attachRecord (n : Nesting) (E : Ref .typeDef) (R : Ref .nestedClass) : Nesting :=
  if n.enclosing R = some E then n else (n.releaseNested R).joinType R E

/-- The type that a record nests is replaced. -/
def setNested (n : Nesting) (R : Ref .nestedClass) (T : Option (Ref .typeDef)) : Nesting :=
  { n with nested := fun S => if S = R then T else n.nested S }

/-- The type is nested in another one, through the record that it has or through `R`. -/
def nest (n : Nesting) (E T : Ref .typeDef) (R : Ref .nestedClass) : Nesting :=
  match n.recordOf? T with
  | some S => n.attachRecord E S
  | none => (n.setNested R (some T)).attachRecord E R

section Moves

variable (n : Nesting) (T U E D : Ref .typeDef) (M : Ref .module) (R S : Ref .nestedClass)

@[simp] theorem module_leaveModule :
    (n.leaveModule T).module U = if U = T then none else n.module U := rfl

@[simp] theorem records_leaveModule : (n.leaveModule T).records = n.records := rfl

@[simp] theorem enclosing_leaveModule : (n.leaveModule T).enclosing = n.enclosing := rfl

@[simp] theorem nested_leaveModule : (n.leaveModule T).nested = n.nested := rfl

@[simp] theorem declaring_leaveModule : (n.leaveModule T).declaring = n.declaring := rfl

@[simp] theorem types_leaveType : (n.leaveType R).types = n.types := rfl

@[simp] theorem module_leaveType : (n.leaveType R).module = n.module := rfl

@[simp] theorem mem_records_leaveType :
    S ∈ (n.leaveType R).records E ↔ S ∈ n.records E ∧ S ≠ R := by
  simp [leaveType]

@[simp] theorem enclosing_leaveType :
    (n.leaveType R).enclosing S = if S = R then none else n.enclosing S := rfl

@[simp] theorem nested_leaveType : (n.leaveType R).nested = n.nested := rfl

@[simp] theorem declaring_leaveType :
    (n.leaveType R).declaring T = if n.nested R = some T then none else n.declaring T := rfl

@[simp] theorem module_joinModule :
    (n.joinModule T M).module U = if U = T then some M else n.module U := rfl

@[simp] theorem records_joinModule : (n.joinModule T M).records = n.records := rfl

@[simp] theorem enclosing_joinModule : (n.joinModule T M).enclosing = n.enclosing := rfl

@[simp] theorem nested_joinModule : (n.joinModule T M).nested = n.nested := rfl

@[simp] theorem declaring_joinModule : (n.joinModule T M).declaring = n.declaring := rfl

@[simp] theorem types_joinType : (n.joinType R E).types = n.types := rfl

@[simp] theorem module_joinType : (n.joinType R E).module = n.module := rfl

@[simp] theorem mem_records_joinType :
    S ∈ (n.joinType R E).records D ↔ S ∈ n.records D ∧ S ≠ R ∨ S = R ∧ D = E := by
  by_cases h : D = E <;> simp [joinType, h]

@[simp] theorem enclosing_joinType :
    (n.joinType R E).enclosing S = if S = R then some E else n.enclosing S := rfl

@[simp] theorem nested_joinType : (n.joinType R E).nested = n.nested := rfl

@[simp] theorem declaring_joinType :
    (n.joinType R E).declaring T = if n.nested R = some T then some E else n.declaring T := rfl

end Moves

/-! ### What the moves keep -/

/-- No record but `R` nests the type that `R` nests, and that type is in no module. -/
def IsFree (n : Nesting) (R : Ref .nestedClass) : Prop :=
  ∀ T, n.nested R = some T →
    n.module T = none ∧ ∀ S, n.IsAttached S → n.nested S = some T → S = R

theorem Consistent.isAttached_of_mem (h : n.Consistent) (hR : R ∈ n.records E) : n.IsAttached R := by
  rw [h.mem_records] at hR
  simp [IsAttached, hR]

theorem Consistent.exists_of_isAttached (h : n.Consistent) (hR : n.IsAttached R) :
    ∃ E, R ∈ n.records E := by
  obtain ⟨E, hE⟩ := Option.isSome_iff_exists.mp hR
  exact ⟨E, h.mem_records.mpr hE⟩

/-- A type can leave its module. -/
theorem Consistent.leaveModule (h : n.Consistent) (T : Ref .typeDef) :
    (n.leaveModule T).Consistent where
  mem_types := h.agrees_ofTypes.free _ _
  mem_records := h.mem_records
  declaring_eq_some := h.declaring_eq_some
  unique := h.unique
  exclusive U := by
    rw [module_leaveModule]
    by_cases hU : U = T
    · exact Or.inl (if_pos hU)
    · rw [if_neg hU]
      exact h.exclusive U
  nodup_types := h.noDup_ofTypes.free
  nodup_records := h.nodup_records

/-- A record can leave its type. -/
theorem Consistent.leaveType (h : n.Consistent) (hR : n.IsAttached R) :
    (n.leaveType R).Consistent where
  mem_types := h.mem_types
  mem_records := h.agrees_ofRecords.free _ _
  declaring_eq_some := by
    intro T E
    rw [declaring_leaveType]
    by_cases hT : n.nested R = some T
    · -- the record was the only one that nested the type
      rw [if_pos hT]
      refine ⟨fun hE => absurd hE (by simp), ?_⟩
      rintro ⟨S, hS, hST⟩
      rw [mem_records_leaveType] at hS
      exact absurd (h.unique (h.isAttached_of_mem hS.1) hR hST hT) hS.2
    · rw [if_neg hT, h.declaring_eq_some]
      constructor
      · rintro ⟨S, hS, hST⟩
        refine ⟨S, (mem_records_leaveType n E R S).mpr ⟨hS, ?_⟩, hST⟩
        rintro rfl
        exact hT hST
      · rintro ⟨S, hS, hST⟩
        exact ⟨S, ((mem_records_leaveType n E R S).mp hS).1, hST⟩
  unique := by
    intro S S' T hS hS'
    refine h.unique ?_ ?_
    · by_cases hSR : S = R
      · exact hSR ▸ hR
      · simpa [IsAttached, hSR] using hS
    · by_cases hSR : S' = R
      · exact hSR ▸ hR
      · simpa [IsAttached, hSR] using hS'
  exclusive T := by
    rw [declaring_leaveType]
    by_cases hT : n.nested R = some T
    · exact Or.inr (if_pos hT)
    · rw [if_neg hT]
      exact h.exclusive T
  nodup_types := h.nodup_types
  nodup_records := h.noDup_ofRecords.free

/-- A type that is not nested can join a module. -/
theorem Consistent.joinModule (h : n.Consistent) (hT : n.declaring T = none) (M : Ref .module) :
    (n.joinModule T M).Consistent where
  mem_types := h.agrees_ofTypes.give _ _
  mem_records := h.mem_records
  declaring_eq_some := h.declaring_eq_some
  unique := h.unique
  exclusive U := by
    by_cases hU : U = T
    · exact Or.inr (hU ▸ hT)
    · rw [module_joinModule, if_neg hU]
      exact h.exclusive U
  nodup_types := h.noDup_ofTypes.give
  nodup_records := h.nodup_records

/-- A record whose type is nowhere else can join a type. -/
theorem Consistent.joinType (h : n.Consistent) (hR : n.IsFree R) (E : Ref .typeDef) :
    (n.joinType R E).Consistent where
  mem_types := h.mem_types
  mem_records := h.agrees_ofRecords.give _ _
  declaring_eq_some := by
    intro T D
    rw [declaring_joinType]
    by_cases hT : n.nested R = some T
    · -- `R` is the record of `T`, and it is in the list of `E`
      rw [if_pos hT, Option.some_inj]
      constructor
      · rintro rfl
        exact ⟨R, (mem_records_joinType n E E R R).mpr (Or.inr ⟨rfl, rfl⟩), hT⟩
      · rintro ⟨S, hS, hST⟩
        rcases (mem_records_joinType n E D R S).mp hS with ⟨hS, hSR⟩ | ⟨-, rfl⟩
        · exact absurd ((hR T hT).2 S (h.isAttached_of_mem hS) hST) hSR
        · rfl
    · rw [if_neg hT, h.declaring_eq_some]
      constructor
      · rintro ⟨S, hS, hST⟩
        refine ⟨S, (mem_records_joinType n E D R S).mpr (Or.inl ⟨hS, ?_⟩), hST⟩
        rintro rfl
        exact hT hST
      · rintro ⟨S, hS, hST⟩
        rcases (mem_records_joinType n E D R S).mp hS with ⟨hS, -⟩ | ⟨rfl, -⟩
        · exact ⟨S, hS, hST⟩
        · exact absurd hST hT
  -- a second record of the type of `R` would have been there before
  unique := by
    intro S S' T hS hS' hST hST'
    have hold : ∀ Q, Q ≠ R → (n.joinType R E).IsAttached Q → n.IsAttached Q := by
      intro Q hQ hQR
      simpa [IsAttached, hQ] using hQR
    by_cases hSR : S = R
    · subst hSR
      by_cases hSR' : S' = S
      · exact hSR'.symm
      · exact ((hR T hST).2 S' (hold S' hSR' hS') hST').symm
    · by_cases hSR' : S' = R
      · subst hSR'
        exact (hR T hST').2 S (hold S hSR hS) hST
      · exact h.unique (hold S hSR hS) (hold S' hSR' hS') hST hST'
  exclusive T := by
    by_cases hT : n.nested R = some T
    · exact Or.inl (hR T hT).1
    · rw [declaring_joinType, if_neg hT]
      exact h.exclusive T
  nodup_types := h.nodup_types
  nodup_records := h.noDup_ofRecords.give

/-! ### The record of a type -/

/-- The record of a type is the attached record that nests it. -/
theorem Consistent.recordOf?_eq_some (h : n.Consistent) :
    n.recordOf? T = some R ↔ n.IsAttached R ∧ n.nested R = some T := by
  rw [recordOf?, Option.bind_eq_some_iff]
  constructor
  · rintro ⟨E, -, hR⟩
    exact ⟨h.isAttached_of_mem (List.mem_of_find?_eq_some hR), by simpa using List.find?_some hR⟩
  · rintro ⟨hR, hRT⟩
    obtain ⟨E, hE⟩ := h.exists_of_isAttached hR
    refine ⟨E, h.declaring_eq_some.mpr ⟨R, hE, hRT⟩, ?_⟩
    cases hfind : (n.records E).find? fun R => n.nested R = some T with
    | none =>
      have := List.find?_eq_none.mp hfind R hE
      exact absurd hRT (by simpa using this)
    | some S =>
      have hS := h.isAttached_of_mem (List.mem_of_find?_eq_some hfind)
      have hST : n.nested S = some T := by simpa using List.find?_some hfind
      rw [h.unique hS hR hST hRT]

/-- A type has a record exactly when it is nested. -/
theorem Consistent.recordOf?_eq_none (h : n.Consistent) :
    n.recordOf? T = none ↔ n.declaring T = none := by
  constructor
  · intro hnone
    cases hT : n.declaring T with
    | none => rfl
    | some E =>
      obtain ⟨R, hR, hRT⟩ := h.declaring_eq_some.mp hT
      rw [h.recordOf?_eq_some.mpr ⟨h.isAttached_of_mem hR, hRT⟩] at hnone
      exact absurd hnone (by simp)
  · intro hT
    rw [recordOf?, hT, Option.bind_none]

/-! ### Releasing and attaching -/

theorem Consistent.unnest (h : n.Consistent) (T : Ref .typeDef) : (n.unnest T).Consistent := by
  unfold Nesting.unnest
  split
  · next R hR => exact h.leaveType (h.recordOf?_eq_some.mp hR).1
  · exact h

theorem Consistent.declaring_unnest (h : n.Consistent) (T : Ref .typeDef) :
    (n.unnest T).declaring T = none := by
  unfold Nesting.unnest
  split
  · next R hR => rw [declaring_leaveType, if_pos (h.recordOf?_eq_some.mp hR).2]
  · next hR => exact h.recordOf?_eq_none.mp hR

@[simp] theorem nested_release (n : Nesting) (R : Ref .nestedClass) (T : Ref .typeDef) :
    (n.release R T).nested = n.nested := by
  unfold release
  split
  · split <;> rfl
  · rfl

theorem Consistent.release (h : n.Consistent) (R : Ref .nestedClass) (T : Ref .typeDef) :
    (n.release R T).Consistent := by
  unfold Nesting.release
  have hleave := h.leaveModule T
  split
  · next S hS =>
    split
    · exact hleave.leaveType (hleave.recordOf?_eq_some.mp hS).1
    · exact hleave
  · exact hleave

/-- After a type has been released it is in no module, and no record but `R` nests it. -/
theorem Consistent.eq_of_release (h : n.Consistent) (R : Ref .nestedClass) (T : Ref .typeDef) :
    (n.release R T).module T = none ∧
      ∀ S, (n.release R T).IsAttached S → n.nested S = some T → S = R := by
  unfold Nesting.release
  have hleave := h.leaveModule T
  split
  · next Q hQ =>
    obtain ⟨hQ, hQT⟩ := hleave.recordOf?_eq_some.mp hQ
    split
    · refine ⟨by simp, fun S hS hST => ?_⟩
      -- `Q` was the only record of `T`, and it has left its type
      by_cases hSQ : S = Q
      · rw [IsAttached, enclosing_leaveType, if_pos hSQ] at hS
        exact absurd hS (by simp)
      · rw [IsAttached, enclosing_leaveType, if_neg hSQ] at hS
        exact absurd (hleave.unique hS hQ hST hQT) hSQ
    · next hQR =>
      refine ⟨by simp, fun S hS hST => ?_⟩
      rw [not_not] at hQR
      exact (hleave.unique hS hQ hST hQT).trans hQR
  · next hnone =>
    refine ⟨by simp, fun S hS hST => ?_⟩
    rw [hleave.recordOf?_eq_some.mpr ⟨hS, hST⟩] at hnone
    exact absurd hnone (by simp)

@[simp] theorem nested_releaseNested (n : Nesting) (R : Ref .nestedClass) :
    (n.releaseNested R).nested = n.nested := by
  unfold releaseNested
  split <;> simp

theorem Consistent.releaseNested (h : n.Consistent) (R : Ref .nestedClass) :
    (n.releaseNested R).Consistent := by
  unfold Nesting.releaseNested
  split
  · exact h.release R _
  · exact h

theorem Consistent.isFree_releaseNested (h : n.Consistent) (R : Ref .nestedClass) :
    (n.releaseNested R).IsFree R := by
  intro T hT
  rw [nested_releaseNested] at hT ⊢
  unfold Nesting.releaseNested
  rw [hT]
  exact h.eq_of_release R T

theorem Consistent.detachRecord (h : n.Consistent) (R : Ref .nestedClass) :
    (n.detachRecord R).Consistent := by
  unfold Nesting.detachRecord
  split
  · next hR => exact h.leaveType hR
  · exact h

/-- **Moving a type to a module keeps the state consistent.** -/
theorem Consistent.attachType (h : n.Consistent) (M : Ref .module) (T : Ref .typeDef) :
    (n.attachType M T).Consistent := by
  unfold Nesting.attachType
  split
  · exact h
  · exact (h.unnest T).joinModule (h.declaring_unnest T) M

/-- **Moving a record to a type keeps the state consistent.** -/
theorem Consistent.attachRecord (h : n.Consistent) (E : Ref .typeDef) (R : Ref .nestedClass) :
    (n.attachRecord E R).Consistent := by
  unfold Nesting.attachRecord
  split
  · exact h
  · exact (h.releaseNested R).joinType (h.isFree_releaseNested R) E

/-- A record in no list may nest whatever it likes. -/
theorem Consistent.setNested (h : n.Consistent) (hR : n.enclosing R = none)
    (T : Option (Ref .typeDef)) : (n.setNested R T).Consistent := by
  have hold : ∀ S, n.IsAttached S → (n.setNested R T).nested S = n.nested S := by
    intro S hS
    refine if_neg ?_
    rintro rfl
    rw [IsAttached, hR] at hS
    exact absurd hS (by simp)
  refine ⟨h.mem_types, h.mem_records, ?_, ?_, h.exclusive, h.nodup_types, h.nodup_records⟩
  · intro U E
    refine h.declaring_eq_some.trans (exists_congr fun S => and_congr_right fun hS => ?_)
    rw [hold S (h.isAttached_of_mem hS)]
  · intro S S' U hS hS' hSU hS'U
    rw [hold S hS] at hSU
    rw [hold S' hS'] at hS'U
    exact h.unique hS hS' hSU hS'U

/-- **Nesting a type in another one keeps the state consistent**, where a new record is needed
only if it is in no list. -/
theorem Consistent.nest (h : n.Consistent) (hR : n.enclosing R = none) (E T : Ref .typeDef) :
    (n.nest E T R).Consistent := by
  unfold Nesting.nest
  split
  · exact h.attachRecord E _
  · exact (h.setNested hR (some T)).attachRecord E R

/-! ### Where things are afterwards -/

/-- After a record has been attached to a type, that type encloses what the record nests. -/
theorem Consistent.declaring_attachRecord (h : n.Consistent) (hT : n.nested R = some T)
    (E : Ref .typeDef) : (n.attachRecord E R).declaring T = some E := by
  unfold Nesting.attachRecord
  split
  · next hR => exact h.declaring_eq_some.mpr ⟨R, h.mem_records.mpr hR, hT⟩
  · rw [declaring_joinType, nested_releaseNested, if_pos hT]

/-- After a type has been nested in another one, that one encloses it. -/
theorem Consistent.declaring_nest (h : n.Consistent) (hR : n.enclosing R = none)
    (E T : Ref .typeDef) : (n.nest E T R).declaring T = some E := by
  unfold Nesting.nest
  split
  · next S hS => exact h.declaring_attachRecord (h.recordOf?_eq_some.mp hS).2 E
  · exact (h.setNested hR (some T)).declaring_attachRecord (if_pos rfl) E

end Nesting

end ManagedImage
