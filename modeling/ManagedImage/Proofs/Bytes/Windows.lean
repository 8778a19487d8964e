import ManagedImage.Proofs.Bytes.Appending

/-!
# Windows and patches

The bytes that a window shows stand in the buffer from some offset on.  A patch is what a window of
its size shows at its offset; two patches one behind the other are one patch; and a patch of the
bytes that are there changes nothing.

## Main results

* `Bytes.window?_append_iff` — pieces that stand one behind the other.
* `Bytes.exists_append_of_window?` — a buffer taken apart around a window.
* `Bytes.window?_overlay`, `Bytes.overlay_of_window?` — **what was laid over a buffer is seen, and
  what is seen can be laid over it.**
-/

namespace ManagedImage

namespace Bytes

variable {data : Bytes} {offset count : Nat} {bytes : List UInt8}

/-- A window shows how the rest of the buffer starts. -/
theorem window?_eq_some_iff_isPrefix :
    data.window? offset bytes.length = some bytes ↔ bytes <+: data.toList.drop offset ∧
      offset + bytes.length ≤ data.size := by
  rw [window?_eq_some_iff, Array.toList_extract, List.extract_eq_take_drop,
    Nat.add_sub_cancel_left, List.prefix_iff_eq_take, and_comm, eq_comm]

theorem window?_eq_some_iff_of_ne_nil (h : bytes ≠ []) :
    data.window? offset bytes.length = some bytes ↔ bytes <+: data.toList.drop offset := by
  rw [window?_eq_some_iff_isPrefix, and_iff_left_iff_imp]
  intro hprefix
  have hpos := List.length_pos_iff.mpr h
  have hle : bytes.length ≤ data.size - offset := by simpa using hprefix.length_le
  omega

theorem lt_of_window?_eq_none (h : data.window? offset count = none) :
    data.size < offset + count := by
  by_contra hsize
  rw [window?, if_pos (Nat.not_lt.mp hsize)] at h
  cases h

/-- Two pieces stand one behind the other if they stand there together. -/
theorem window?_append_iff {bytes' : List UInt8} :
    data.window? offset (bytes ++ bytes').length = some (bytes ++ bytes') ↔
      data.window? offset bytes.length = some bytes ∧
        data.window? (offset + bytes.length) bytes'.length = some bytes' := by
  have hprefix : bytes ++ bytes' <+: data.toList.drop offset ↔
      bytes <+: data.toList.drop offset ∧
        bytes' <+: data.toList.drop (offset + bytes.length) := by
    rw [← List.drop_drop]
    constructor
    · rintro ⟨rest, hrest⟩
      rw [← hrest, List.append_assoc, List.drop_left]
      exact ⟨List.prefix_append .., List.prefix_append ..⟩
    · rintro ⟨⟨rest, hrest⟩, hprefix⟩
      rw [← hrest, List.drop_left] at hprefix
      rw [← hrest]
      exact (List.prefix_append_right_inj bytes).mpr hprefix
  rw [window?_eq_some_iff_isPrefix, window?_eq_some_iff_isPrefix, window?_eq_some_iff_isPrefix,
    hprefix, List.length_append]
  constructor
  · rintro ⟨⟨hfirst, hsecond⟩, hsize⟩
    exact ⟨⟨hfirst, by omega⟩, hsecond, by omega⟩
  · rintro ⟨⟨hfirst, -⟩, hsecond, hsize⟩
    exact ⟨⟨hfirst, hsecond⟩, by omega⟩

/-- A window that is longer by one byte starts one byte earlier. -/
theorem window?_succ (data : Bytes) (offset count : Nat) :
    data.window? offset (count + 1) =
      data[offset]?.bind fun b => (data.window? (offset + 1) count).map (b :: ·) := by
  rw [window?, window?]
  by_cases hlt : offset < data.size
  · have hget : data[offset]? = some data[offset] := Array.getElem?_eq_getElem hlt
    rw [hget, Option.bind_some]
    by_cases hfits : offset + (count + 1) ≤ data.size
    · rw [if_pos hfits, if_pos (by omega), Option.map_some, Array.toList_extract,
        Array.toList_extract, List.extract_eq_take_drop, List.extract_eq_take_drop,
        Nat.add_sub_cancel_left, Nat.add_sub_cancel_left,
        List.drop_eq_getElem_cons (show offset < data.toList.length from hlt), List.take_succ_cons,
        Array.getElem_toList]
    · rw [if_neg hfits, if_neg (by omega)]
      rfl
  · rw [if_neg (by omega), Array.getElem?_eq_none (by omega)]
    rfl

/-! ### Patches -/

/-- A buffer consists of what a window shows and the bytes around it. -/
theorem exists_append_of_window? (h : data.window? offset count = some bytes) :
    ∃ before after, before.length = offset ∧ data = (before ++ (bytes ++ after)).toArray := by
  obtain rfl := length_of_window? h
  obtain ⟨⟨after, hafter⟩, hle⟩ := window?_eq_some_iff_isPrefix.mp h
  refine ⟨data.toList.take offset, after, ?_, ?_⟩
  · rw [List.length_take, Array.length_toList]
    omega
  · rw [hafter, List.take_append_drop]

variable {patch : List UInt8}

/-- Two patches one behind the other are one patch. -/
theorem overlay_patch_append (data : Bytes) (offset : Nat) (patch patch' : List UInt8) :
    data.overlay offset (patch ++ patch') =
      (data.overlay offset patch).overlay (offset + patch.length) patch' := by
  induction patch generalizing data offset with
  | nil => rfl
  | cons b patch ih =>
    rw [List.cons_append, overlay_cons, overlay_cons, ih, List.length_cons,
      Nat.add_right_comm, Nat.add_assoc]

/-- A patch is seen where it was laid. -/
theorem window?_overlay (h : offset + patch.length ≤ data.size) :
    (data.overlay offset patch).window? offset patch.length = some patch := by
  rw [window?_eq_some_iff, size_overlay, and_iff_right h]
  apply List.ext_getElem?
  intro i
  rw [Array.getElem?_toList, Array.getElem?_extract, size_overlay, Nat.min_eq_left h,
    Nat.add_sub_cancel_left]
  split
  · next hi => rw [getElem?_overlay h, if_pos (by omega), Nat.add_sub_cancel_left]
  · next hi => rw [List.getElem?_eq_none (Nat.not_lt.mp hi)]

/-- A patch of the bytes that are there changes nothing. -/
theorem overlay_of_window? (h : data.window? offset count = some bytes) :
    data.overlay offset bytes = data := by
  obtain rfl := length_of_window? h
  refine Array.ext_getElem? fun i => ?_
  rw [getElem?_overlay (window?_eq_some_iff.mp h).1]
  split
  · next hi => rw [getElem?_of_window? h (by omega), Nat.add_sub_cancel' hi.1]
  · rfl

end Bytes

end ManagedImage
