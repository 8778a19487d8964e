import ManagedImage.Proofs.Graph.Sweeping
import ManagedImage.Proofs.Nesting.View

/-!
# Letting go of types and records

When types, modules and records go, what is left of a consistent nesting is consistent, since lists
keep their members and records keep the types that they nest.

## Main definitions

* `Nesting.restrict` — what is left of a nesting.

## Main results

* `Graph.DropsTo.shows` — a graph shows what is left, and it is consistent.
-/

namespace ManagedImage

namespace Nesting

variable {n : Nesting} {there : AnyRef → Bool}

/-- What is left of a nesting of what is still there. -/
def restrict (n : Nesting) (there : AnyRef → Bool) : Nesting where
  types M := if there M.any then n.types M else []
  module T := if there T.any then (n.module T).filter (there ·.any) else none
  records E := if there E.any then n.records E else []
  enclosing R := if there R.any then (n.enclosing R).filter (there ·.any) else none
  nested R := if there R.any then n.nested R else none
  declaring T := if there T.any then (n.declaring T).filter (there ·.any) else none

theorem ite_filter_eq_some {k l : EntityKind} {r : Ref k} {s : Option (Ref l)} {x : Ref l} :
    (if there r.any then s.filter (there ·.any) else none) = some x ↔
      there r.any ∧ s = some x ∧ there x.any := by
  split
  · next h => simp [h, Option.filter_eq_some_iff]
  · next h => simp [h]

theorem mem_ite_nil {α : Type} {c : Bool} {l : List α} {x : α} :
    (x ∈ if c then l else []) ↔ c ∧ x ∈ l := by
  cases c <;> simp

/-- **What is left of a consistent nesting is consistent**, if members and nested types stay. -/
theorem Consistent.restrict (h : n.Consistent)
    (htypes : ∀ M, there M.any → ∀ T ∈ n.types M, there T.any)
    (hrecords : ∀ E, there E.any → ∀ R ∈ n.records E, there R.any)
    (hnested : ∀ R, there R.any → ∀ T ∈ n.nested R, there T.any) :
    (n.restrict there).Consistent where
  mem_types := by
    intro M T
    simp only [Nesting.restrict, mem_ite_nil, ite_filter_eq_some, ← h.mem_types]
    exact ⟨fun ⟨hM, hT⟩ => ⟨htypes M hM T hT, hT, hM⟩, fun ⟨_, hT, hM⟩ => ⟨hM, hT⟩⟩
  mem_records := by
    intro E R
    simp only [Nesting.restrict, mem_ite_nil, ite_filter_eq_some, ← h.mem_records]
    exact ⟨fun ⟨hE, hR⟩ => ⟨hrecords E hE R hR, hR, hE⟩, fun ⟨_, hR, hE⟩ => ⟨hE, hR⟩⟩
  declaring_eq_some := by
    intro T E
    simp only [Nesting.restrict, mem_ite_nil, ite_filter_eq_some]
    rw [h.declaring_eq_some]
    constructor
    · rintro ⟨-, ⟨R, hR, hRT⟩, hE⟩
      exact ⟨R, ⟨hE, hR⟩, by rw [if_pos (hrecords E hE R hR), hRT]⟩
    -- a record in the list of what is left is left, and so is the type that it nests
    · rintro ⟨R, ⟨hE, hR⟩, hRT⟩
      have hthere := hrecords E hE R hR
      rw [if_pos hthere] at hRT
      exact ⟨hnested R hthere T hRT, ⟨R, hR, hRT⟩, hE⟩
  unique := by
    have hold : ∀ R, (n.restrict there).IsAttached R → n.IsAttached R ∧ there R.any := by
      intro R hR
      obtain ⟨E, hE⟩ := Option.isSome_iff_exists.mp hR
      obtain ⟨hthere, hE, -⟩ := ite_filter_eq_some.mp hE
      exact ⟨Option.isSome_of_eq_some hE, hthere⟩
    intro R S T hR hS hRT hST
    obtain ⟨hR, hRthere⟩ := hold R hR
    obtain ⟨hS, hSthere⟩ := hold S hS
    exact h.unique hR hS ((if_pos hRthere).symm.trans hRT) ((if_pos hSthere).symm.trans hST)
  exclusive T := by
    simp only [Nesting.restrict]
    split
    · refine (h.exclusive T).imp (fun hT => ?_) fun hT => ?_ <;> rw [hT] <;> rfl
    · exact Or.inl rfl
  nodup_types M := by
    simp only [Nesting.restrict]
    split
    · exact h.nodup_types M
    · exact List.nodup_nil
  nodup_records E := by
    simp only [Nesting.restrict]
    split
    · exact h.nodup_records E
    · exact List.nodup_nil

end Nesting

namespace Graph.DropsTo

variable {k : EntityKind} {g g' : Graph} {n : Nesting}

theorem valueD (h : g.DropsTo g') (p : Part k) (r : Ref k) (d : p.Value) :
    g'.valueD p r d = if g'.isPresent r.any then g.valueD p r d else d := by
  split
  · next hr => rw [Graph.valueD, h.value p hr, Graph.valueD]
  · next hr =>
    rw [Graph.valueD, value_of_not_isPresent p (by simpa using hr)]
    rfl

theorem presentOnly (h : g.DropsTo g') (s : Option (Ref k)) :
    g'.presentOnly s = (g.presentOnly s).filter (g'.isPresent ·.any) :=
  presentOnly_eq_filter (fun _ => h.isPresent_of_isPresent) s

theorem nesting (h : g.DropsTo g') : g'.nesting = g.nesting.restrict g'.isPresent := by
  have hnone : ∀ {l : EntityKind}, g'.presentOnly (none : Option (Ref l)) = none := rfl
  simp only [Graph.nesting, Nesting.restrict, h.valueD, apply_ite g'.presentOnly, hnone,
    h.presentOnly]

/-- What one of the six parts of an entity that is left holds is left. -/
theorem isPresent_of_valueD (h : g.DropsTo g') (hg : g.Shows n) {p : Part k} (hp : p.IsNesting)
    {r : Ref k} (hr : g'.isPresent r.any) (d : p.Value) :
    ∀ s ∈ p.held (g.valueD p r d), g'.isPresent s := by
  have hv := value_eq_ok_valueD hg.resolvable hp (h.isPresent_of_isPresent hr) d
  exact fun s hs => h.isPresent_of_held hg.sound ((h.value p hr).trans hv) hs

/-- **What is left is consistent**, and the graph shows it. -/
theorem shows (h : g.DropsTo g') (hg : g.Shows n) (hn : n.Consistent) :
    ∃ n', g'.Shows n' ∧ n'.Consistent := by
  refine ⟨g'.nesting, ⟨h.sound hg.sound, fun k p r hp hr => ?_, rfl⟩, ?_⟩
  · obtain ⟨v, hv⟩ := hg.resolvable k p r hp (h.isPresent_of_isPresent hr)
    exact ⟨v, (h.value p hr).trans hv⟩
  · rw [h.nesting]
    refine (hg.nesting_eq ▸ hn).restrict (fun M hM T hT => ?_) (fun E hE R hR => ?_)
      fun R hR T hT => ?_
    · exact h.isPresent_of_valueD hg (p := .topLevelTypes) trivial hM [] _
        (List.mem_map_of_mem hT)
    · exact h.isPresent_of_valueD hg (p := .nestedClasses) trivial hE [] _
        (List.mem_map_of_mem hR)
    · exact h.isPresent_of_valueD hg (p := .nested) trivial hR none _
        (List.mem_map_of_mem (Option.mem_toList.mpr hT))

end Graph.DropsTo

end ManagedImage
