import ManagedImage.Proofs.Nesting.Tracking

/-!
# Moving types and records

What the operations on the two sides of a nesting come to when lists and back-pointers agree: the
moves of `ManagedImage.Proofs.Nesting.Basic`.

## Main results

* `Graph.tracks_typeOwnership`, `Graph.tracks_recordOwnership` — the graph keeps the two sides.
* `Nesting.Consistent.attach_ofTypes`, `Nesting.Consistent.attach_ofRecords` — attaching is moving.
-/

namespace ManagedImage

namespace Nesting

variable {n : Nesting} {M : Ref .module} {T E : Ref .typeDef} {R S : Ref .nestedClass}

/-- The type that a record nests follows it. -/
theorem changed_ofRecords (E : Option (Ref .typeDef)) :
    ofRecords.changed n R E = { n with declaring := n.follow R E } := by
  unfold ofRecords
  dsimp only
  cases hT : n.nested R with
  | none =>
    have hfollow : n.follow R E = n.declaring := by
      funext T
      rw [follow, hT, if_neg (by simp)]
    rw [hfollow]
    rfl
  | some T =>
    have hfollow : n.follow R E = fun U => if U = T then E else n.declaring U := by
      funext U
      rw [follow, hT]
      simp only [Option.some_inj, eq_comm]
    rw [hfollow]
    rfl

/-! ### Types -/

theorem Consistent.leave_ofTypes (h : n.Consistent) :
    ofTypes.leave n M T = if n.module T = some M then n.leaveModule T else n :=
  Side.leave_eq h.agrees_ofTypes

theorem Consistent.detach_ofTypes (h : n.Consistent) : ofTypes.detach n T = n.leaveModule T := by
  rw [Side.detach_eq h.agrees_ofTypes]
  split
  · rfl
  · next hT =>
    rw [Bool.not_eq_true, Option.isSome_eq_false_iff, Option.isNone_iff_eq_none] at hT
    exact (Side.free_eq_self h.agrees_ofTypes hT).symm

@[simp] theorem module_unnest : (n.unnest T).module = n.module := by
  unfold unnest
  split <;> rfl

/-- **Attaching a type is moving it**, where the hook makes it give up its record. -/
theorem Consistent.attach_ofTypes (h : n.Consistent) :
    ofTypes.attach n (n.unnest T) M T = n.attachType M T :=
  Side.attach_eq h.agrees_ofTypes (h.unnest T).agrees_ofTypes (congrFun module_unnest T)

/-! ### Records -/

theorem Consistent.leave_ofRecords (h : n.Consistent) :
    ofRecords.leave n E R = if n.enclosing R = some E then n.leaveType R else n := by
  rw [Side.leave_eq h.agrees_ofRecords, changed_ofRecords]
  rfl

theorem Consistent.detach_ofRecords (h : n.Consistent) :
    ofRecords.detach n R = n.detachRecord R := by
  rw [Side.detach_eq h.agrees_ofRecords, changed_ofRecords]
  rfl

theorem enclosing_release : (n.release R T).enclosing R = n.enclosing R := by
  unfold release
  split
  · next S _ =>
    split
    · next hS => rw [enclosing_leaveType, if_neg (Ne.symm hS), enclosing_leaveModule]
    · rfl
  · rfl

theorem enclosing_releaseNested : (n.releaseNested R).enclosing R = n.enclosing R := by
  unfold releaseNested
  split
  · exact enclosing_release
  · rfl

/-- **Attaching a record is moving it**, where the hook releases the type that it nests. -/
theorem Consistent.attach_ofRecords (h : n.Consistent) :
    ofRecords.attach n (n.releaseNested R) E R = n.attachRecord E R := by
  rw [Side.attach_eq h.agrees_ofRecords (h.releaseNested R).agrees_ofRecords
    enclosing_releaseNested, changed_ofRecords]
  rfl

end Nesting

/-! ### The sides of a graph -/

namespace Graph

variable {g : Graph} {n : Nesting}

/-- A graph keeps types in modules. -/
theorem tracks_typeOwnership : Tracks typeOwnership Nesting.ofTypes where
  isAlive _ _ := rfl
  items hg hM := hg.read_topLevelTypes hM
  owner hg hT := hg.read_module hT
  putItems hg hM hl := Yields.change (keeps_put (p := .topLevelTypes)) (hg.put_topLevelTypes hM hl)
  putOwner hg hT hx := Yields.change (keeps_put (p := .module)) (hg.put_module hT hx)
  ownerChanged hg _ _ := Yields.pure hg

/-- A graph keeps records in types. -/
theorem tracks_recordOwnership : Tracks recordOwnership Nesting.ofRecords where
  isAlive _ _ := rfl
  items hg hE := hg.read_nestedClasses hE
  owner hg hR := hg.read_enclosing hR
  putItems hg hE hl := Yields.change (keeps_put (p := .nestedClasses)) (hg.put_nestedClasses hE hl)
  putOwner hg hR hx := Yields.change (keeps_put (p := .enclosing)) (hg.put_enclosing hR hx)
  ownerChanged hg hR hx := by
    rename_i n R E
    refine (hg.read_nested hR).bind fun g' hk ⟨hg', halive⟩ => ?_
    unfold Nesting.ofRecords
    dsimp only
    cases hT : n.nested R with
    | none => exact Yields.pure hg'
    | some T =>
      refine Yields.change (keeps_put (p := .declaringType)) ?_
      exact hg'.put_declaringType_of_isAlive (halive T hT) fun D hD => hk.alive _ (hx D hD)

end Graph

end ManagedImage
