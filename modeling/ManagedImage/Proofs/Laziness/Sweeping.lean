import ManagedImage.Proofs.Graph.Sweeping
import ManagedImage.Proofs.Laziness.Twins

/-!
# Letting go of the entities of twins

An entity keeps what its loaded attributes hold, so twins do not keep the same.  What they keep
differs in entities of rows only, which the image keeps anyway: an attribute that is still to be
loaded refers to nothing that has been authored.

## Main results

* `Graph.contains_heldEntities_iff` — what is held, told by the attributes that have been loaded.
* `Graph.Twins.heldEntities_eq` — twins hold the same authored entities.
* `Graph.Twins.sweep` — twins are twins after a sweep.
-/

namespace ManagedImage

/-- What an entity holds is held by one of its parts. -/
theorem Part.exists_of_mem_held {k : EntityKind} {c : k.Entity} {s : AnyRef} (hs : s ∈ k.held c) :
    ∃ (p : Part k) (v : p.Value), p.attr.get c = .evaluated v ∧ s ∈ p.held v := by
  have hlist : ∀ {l : EntityKind} {d : Deferred (List (Ref l))},
      s ∈ (d.peek?.getD []).map Ref.any → ∃ v, d = .evaluated v ∧ s ∈ v.map Ref.any := by
    intro l d hd
    cases d with
    | unevaluated => exact absurd hd List.not_mem_nil
    | evaluated v => exact ⟨v, rfl, hd⟩
  cases k with
  | module =>
    obtain ⟨v, hv, hs⟩ := hlist hs
    exact ⟨.topLevelTypes, v, hv, hs⟩
  | typeDef =>
    rcases List.mem_append.mp hs with hs | hs
    · rcases List.mem_append.mp hs with hs | hs
      · obtain ⟨v, hv, hs⟩ := hlist hs
        exact ⟨.fields, v, hv, hs⟩
      · obtain ⟨v, hv, hs⟩ := hlist hs
        exact ⟨.methods, v, hv, hs⟩
    · obtain ⟨v, hv, hs⟩ := hlist hs
      exact ⟨.nestedClasses, v, hv, hs⟩
  | nestedClass =>
    have hs : s ∈ (c.nested.peek?.getD none).toList.map Ref.any := hs
    cases hnested : c.nested with
    | unevaluated =>
      rw [hnested] at hs
      exact absurd hs List.not_mem_nil
    | evaluated v =>
      rw [hnested] at hs
      exact ⟨.nested, v, hnested, hs⟩
  | _ => exact absurd hs List.not_mem_nil

namespace Graph

variable {k : EntityKind} {g g' e : Graph} {image : MetadataImage} {outside : List AnyRef}

/-- **What is held**: something from outside, or what a loaded attribute of an entity holds. -/
theorem contains_heldEntities_iff {s : AnyRef} :
    (g.heldEntities outside).contains s ↔ s ∈ outside ∨
      ∃ (k : EntityKind) (p : Part k) (r : Ref k) (v : p.Value),
        p.attr.stored r g = .evaluated v ∧ s ∈ p.held v := by
  rw [heldEntities, Std.DHashMap.fold_eq_foldl_toList, contains_foldl_insertMany, Bool.or_eq_true,
    Std.HashSet.contains_ofList, List.contains_iff_mem, List.any_eq_true]
  apply or_congr_right
  constructor
  · rintro ⟨⟨r, c⟩, hc, hs⟩
    obtain ⟨p, v, hv, hs⟩ := Part.exists_of_mem_held (List.contains_iff_mem.mp hs)
    have hget : g.entity? r.typed = some c := Std.DHashMap.mem_toList_iff_get?_eq_some.mp hc
    refine ⟨r.kind, p, r.typed, v, ?_, hs⟩
    simpa [Attribute.stored, Attribute.cell, hget] using hv
  · rintro ⟨k, p, r, v, hv, hs⟩
    obtain ⟨c, hc⟩ := Option.isSome_iff_exists.mp ((isSome_entity? g r).trans (isAlive_of_stored hv))
    refine ⟨⟨r.any, c⟩, Std.DHashMap.mem_toList_iff_get?_eq_some.mpr hc, ?_⟩
    have hget : p.attr.get c = .evaluated v := by
      simpa [Attribute.stored, Attribute.cell, hc] using hv
    exact List.contains_iff_mem.mpr (Part.held_subset_held hget hs)

/-- A round of letting go goes on if there is something to let go. -/
theorem size_keepHeld_lt_iff :
    (g.keepHeld outside).entities.size < g.entities.size ↔
      ∃ r, g.isAlive r ∧ ¬(g.keepHeld outside).isAlive r := by
  have hle : (g.keepHeld outside).entities.size ≤ g.entities.size :=
    Std.DHashMap.size_filter_le_size
  have heq : (g.keepHeld outside).entities.size = g.entities.size ↔
      ∀ r, g.isAlive r → (g.keepHeld outside).isAlive r := by
    refine Std.DHashMap.size_filter_eq_size_iff.trans (forall_congr' fun r => ?_)
    rw [isAlive_keepHeld, ← Bool.or_eq_true]
    exact ⟨fun h hr => ⟨hr, h hr⟩, fun h hr => (h hr).2⟩
  rw [← not_iff_not, not_lt, ← Nat.le_antisymm_iff.trans (and_iff_right hle), heq]
  simp only [not_exists, not_and, not_not]

theorem isAlive_sweep_of_mem {r : AnyRef} (hr : g.isAlive r) (hmem : r ∈ outside) :
    (g.sweep outside).isAlive r := by
  fun_induction sweep g outside with
  | case1 g kept hlt ih =>
    exact ih ((isAlive_keepHeld outside r).mpr ⟨hr, Or.inr (contains_heldEntities_iff.mpr (Or.inl hmem))⟩)
  | case2 g => exact hr

theorem DropsTo.contents?_eq (h : g.DropsTo g') {r : Ref k} (hr : g'.isPresent r.any) :
    g'.contents? r = g.contents? r := by
  have hget : g'.entity? r = g.entity? r := by
    cases halive : g'.isAlive r.any with
    | true => exact h.entity r halive
    | false =>
      have hdead : g.isAlive r.any = false := by
        rw [← Bool.not_eq_true] at halive ⊢
        exact fun hr' => halive (h.isAlive_of_isPresent hr' hr)
      rw [Option.isSome_eq_false_iff.trans Option.isNone_iff_eq_none |>.mp
          ((isSome_entity? g' r).trans halive),
        Option.isSome_eq_false_iff.trans Option.isNone_iff_eq_none |>.mp
          ((isSome_entity? g r).trans hdead)]
  rw [contents?, contents?, hget, h.image]

theorem contents?_of_not_isPresent {r : Ref k} (h : g.isPresent r.any = false) :
    g.contents? r = none := by
  rw [isPresent, Bool.or_eq_false_iff, ← isSome_entity?] at h
  obtain ⟨hentity, hrow⟩ := h
  rw [contents?, Option.isNone_iff_eq_none.mp (Option.isSome_eq_false_iff.mp hentity), Option.none_or]
  cases himage : g.image? with
  | none => rfl
  | some image =>
    rw [himage] at hrow
    simpa using hrow

theorem DropsTo.isEager (h : g.DropsTo g') (hg : g.IsEager) : g'.IsEager where
  alive r hr := h.isAlive_of_isPresent (hg.alive r (h.isPresent_of_isPresent hr)) hr
  forced p r hr := by
    unfold IsForced
    rw [h.stored p hr, h.image]
    exact hg.forced p r (h.alive r.any hr)

/-- What was known is known when entities have gone. -/
theorem DropsTo.isKnown (h : g.DropsTo g') {r : AnyRef} (hr : g.IsKnown r) : g'.IsKnown r where
  number n hn := h.number ▸ hr.number n hn
  alive hp := h.isAlive_of_isPresent (hr.alive (h.isPresent_of_isPresent hp)) hp

namespace Twins

/-- **Twins hold the same authored entities.** -/
theorem heldEntities_eq (h : Twins image g e) {s : AnyRef} (hs : s.id.isRow = false) :
    (e.heldEntities outside).contains s = (g.heldEntities outside).contains s := by
  rw [Bool.eq_iff_iff, contains_heldEntities_iff, contains_heldEntities_iff]
  apply or_congr_right
  constructor
  · rintro ⟨k, p, r, v, hv, hmem⟩
    have hvalue : p.attr.value r g = .ok v := by rw [← h.value, Attribute.value, hv]
    refine ⟨k, p, r, v, ?_, hmem⟩
    cases hstored : p.attr.stored r g with
    | evaluated w =>
      rw [Attribute.value, hstored] at hvalue
      rw [Except.ok.inj hvalue]
    | unevaluated =>
      -- what has not been loaded refers to rows only
      rw [Attribute.value, hstored] at hvalue
      obtain ⟨i, -, row, -, hload⟩ := exists_load_of_loaded hvalue
      have hrow := (offers_of_load hload s (p.held_subset_refs v hmem)).isRow
      exact Bool.noConfusion (hs.symm.trans hrow)
  · rintro ⟨k, p, r, v, hv, hmem⟩
    have hvalue : p.attr.value r e = .ok v := by rw [h.value, Attribute.value, hv]
    refine ⟨k, p, r, v, ?_, hmem⟩
    cases hstored : p.attr.stored r e with
    | evaluated w =>
      rw [Attribute.value, hstored] at hvalue
      rw [Except.ok.inj hvalue]
    | unevaluated =>
      rw [Attribute.value, hstored] at hvalue
      rcases h.eager.forced p r (h.isAlive_right (isAlive_of_stored hv)) with hne | ⟨x, hload⟩
      · exact absurd hstored hne
      · rw [hload] at hvalue
        cases hvalue

/-- Entities of rows are kept, and of authored entities twins keep the same. -/
theorem isAlive_keepHeld (h : Twins image g e) (outside : List AnyRef) (r : AnyRef) :
    (r.id.isRow ∧ ((g.keepHeld outside).isAlive r ↔ g.isAlive r) ∧
      ((e.keepHeld outside).isAlive r ↔ e.isAlive r)) ∨
    (r.id.isRow = false ∧ (g.isAlive r ↔ e.isAlive r) ∧
      ((g.keepHeld outside).isAlive r ↔ (e.keepHeld outside).isAlive r)) := by
  rw [Graph.isAlive_keepHeld, Graph.isAlive_keepHeld]
  cases hid : r.id.isRow with
  | true =>
    have hleft : g.heldByImage r = true := by rw [heldByImage, h.image_left, hid]; rfl
    have hright : e.heldByImage r = true := by rw [heldByImage, h.image_right, hid]; rfl
    exact Or.inl ⟨rfl, and_iff_left (Or.inl hleft), and_iff_left (Or.inl hright)⟩
  | false =>
    have hleft : g.heldByImage r = false := by rw [heldByImage, hid, Bool.and_false]
    have hright : e.heldByImage r = false := by rw [heldByImage, hid, Bool.and_false]
    rw [hleft, hright, h.heldEntities_eq hid, h.isAlive_authored hid]
    exact Or.inr ⟨rfl, Iff.rfl, Iff.rfl⟩

/-- One round of letting go. -/
theorem keepHeld (h : Twins image g e) :
    Twins image (g.keepHeld outside) (e.keepHeld outside) := by
  have hleft := dropsTo_keepHeld (g := g) outside
  have hright := dropsTo_keepHeld (g := e) outside
  have hpresent : ∀ r, (e.keepHeld outside).isPresent r = (g.keepHeld outside).isPresent r := by
    intro r
    have himage : ∀ g' : Graph, (g'.keepHeld outside).image? = g'.image? := fun _ => rfl
    rw [Bool.eq_iff_iff]
    have hr := h.present r
    rw [Bool.eq_iff_iff] at hr
    simp only [isPresent, Bool.or_eq_true, himage] at hr ⊢
    rcases h.isAlive_keepHeld outside r with ⟨-, hg, he⟩ | ⟨-, -, heq⟩
    · rw [hg, he, hr]
    · rw [heq, h.image_left, h.image_right]
  exact {
    complete := h.complete
    sound := hleft.sound h.sound
    readable := fun k p r hp hr => by
      rw [hleft.value p hr]
      exact h.readable k p r hp (hleft.isPresent_of_isPresent hr)
    image_left := h.image_left
    image_right := h.image_right
    number := h.number
    present := hpresent
    value := fun p r => by
      cases hr : (g.keepHeld outside).isPresent r.any with
      | true => rw [hleft.value p hr, hright.value p ((hpresent r.any).trans hr), h.value]
      | false =>
        rw [value_of_not_isPresent p hr, value_of_not_isPresent p ((hpresent r.any).trans hr)]
    limit := fun r => by
      cases hr : (g.keepHeld outside).isPresent r.any with
      | true =>
        have hlimit := h.limit r
        rw [Graph.limit, Graph.limit] at hlimit ⊢
        rw [hleft.contents?_eq hr, hright.contents?_eq ((hpresent r.any).trans hr), hlimit]
      | false =>
        rw [Graph.limit, Graph.limit, contents?_of_not_isPresent hr,
          contents?_of_not_isPresent ((hpresent r.any).trans hr)]
    eager := hright.isEager h.eager }

/-- Twins go on letting go for as many rounds. -/
theorem size_keepHeld_lt_iff (h : Twins image g e) :
    (e.keepHeld outside).entities.size < e.entities.size ↔
      (g.keepHeld outside).entities.size < g.entities.size := by
  rw [Graph.size_keepHeld_lt_iff, Graph.size_keepHeld_lt_iff]
  refine exists_congr fun r => ?_
  rcases h.isAlive_keepHeld outside r with ⟨-, hg, he⟩ | ⟨-, halive, heq⟩
  · rw [hg, he, and_not_self_iff, and_not_self_iff]
  · rw [halive, heq]

/-- **Twins are twins after a sweep.** -/
theorem sweep {g e : Graph} (h : Twins image g e) (outside : List AnyRef) :
    Twins image (g.sweep outside) (e.sweep outside) := by
  rw [Graph.sweep.eq_1 g, Graph.sweep.eq_1 e]
  by_cases hlt : (g.keepHeld outside).entities.size < g.entities.size
  · rw [if_pos hlt, if_pos (h.size_keepHeld_lt_iff.mpr hlt)]
    exact h.keepHeld.sweep outside
  · rw [if_neg hlt, if_neg (mt h.size_keepHeld_lt_iff.mp hlt)]
    exact h
termination_by g.entities.size

end Twins

end Graph

end ManagedImage
