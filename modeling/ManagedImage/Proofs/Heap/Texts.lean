import ManagedImage.Heap.Strings

/-!
# Texts and the rest of them

A text stands at an index of a heap if its UTF-8 bytes go from there up to the first zero byte.  An
index further inside the text has the same zero byte in front of it, so what stands there is what is
left of the bytes.  That is a text of its own, the rest of the first one, exactly if the index is at
a boundary of characters: no UTF-8 starts within a character.

## Main definitions

* `StringHeap.EndsAt` — the first zero byte at or after an index.
* `StringHeap.Holds` — a text stands at an index.
* `StringHeap.FindsTexts` — what is found at each index of a heap.

## Main results

* `StringHeap.get_eq_ok_iff` — **a text is found exactly where it stands.**
* `StringHeap.Holds.add_iff_exists_append` — **inside a text stand its rests.**
* `StringHeap.findsTexts_of_ofBytes` — what is found in any heap, inside of texts too.
-/

namespace ManagedImage

namespace StringHeap

variable {h : StringHeap} {data : Bytes} {index start stop k : Nat} {s t : String}

/-- The first zero byte at or after `start` stands at `stop`. -/
structure EndsAt (data : Bytes) (start stop : Nat) : Prop where
  /-- It does not stand in front of `start`. -/
  le : start ≤ stop
  /-- It is a zero byte. -/
  zero : data[stop]? = some 0
  /-- No zero byte stands in front of it. -/
  ne_zero : ∀ i, start ≤ i → i < stop → data[i]? ≠ some 0

namespace EndsAt

theorem lt_size (h : EndsAt data start stop) : stop < data.size :=
  (Array.getElem?_eq_some_iff.mp h.zero).1

/-- Between the two places the same zero byte is the first one. -/
theorem of_le (h : EndsAt data start stop) (hle : start ≤ index) (hstop : index ≤ stop) :
    EndsAt data index stop where
  le := hstop
  zero := h.zero
  ne_zero i hi := h.ne_zero i (Nat.le_trans hle hi)

theorem unique {stop' : Nat} (h : EndsAt data start stop) (h' : EndsAt data start stop') :
    stop = stop' := by
  rcases Nat.lt_trichotomy stop stop' with hlt | heq | hgt
  · exact absurd h.zero (h'.ne_zero stop h.le hlt)
  · exact heq
  · exact absurd h'.zero (h.ne_zero stop' h'.le hgt)

end EndsAt

/-- The first zero byte is found. -/
theorem terminator?_eq_some_iff : terminator? data start = some stop ↔ EndsAt data start stop := by
  fun_induction terminator? data start with
  | case1 i hi hzero =>
    have hends : EndsAt data i i := by
      refine ⟨Nat.le_refl i, ?_, fun j hj hlt => absurd hlt (Nat.not_lt.mpr hj)⟩
      rw [Array.getElem?_eq_getElem hi, hzero]
    rw [Option.some_inj]
    exact ⟨fun heq => heq ▸ hends, fun hends' => hends.unique hends'⟩
  | case2 i hi hzero ih =>
    rw [ih]
    have hne : data[i]? ≠ some 0 := by
      rw [Array.getElem?_eq_getElem hi]
      exact fun heq => hzero (Option.some.inj heq)
    constructor
    · intro hends
      refine ⟨Nat.le_of_succ_le hends.le, hends.zero, fun j hj hlt => ?_⟩
      rcases Nat.eq_or_lt_of_le hj with rfl | hij
      · exact hne
      · exact hends.ne_zero j hij hlt
    · intro hends
      -- the zero byte does not stand at `i` itself
      have hne' : i ≠ stop := fun heq => hne (heq ▸ hends.zero)
      exact hends.of_le (Nat.le_succ i) (Nat.lt_of_le_of_ne hends.le hne')
  | case3 i hi =>
    refine iff_of_false (by simp) fun hends => hi ?_
    exact Nat.lt_of_le_of_lt hends.le hends.lt_size

/-- Some bytes make up a text if they are its bytes. -/
theorem text?_eq_some_iff :
    text? data start stop = some s ↔ s.toUTF8.data = data.extract start stop := by
  rw [text?, String.fromUTF8?, String.toUTF8_eq_toByteArray]
  split
  · next hvalid =>
    rw [Option.some_inj, ← String.toByteArray_inj, ← ByteArray.ext_iff, eq_comm]
    rfl
  · next hvalid =>
    refine iff_of_false (by simp) fun hdata => hvalid ?_
    rw [← hdata]
    exact s.isValidUTF8

/-- The text `s` stands at `index`: its bytes go from there up to the first zero byte. -/
def Holds (h : StringHeap) (index : Nat) (s : String) : Prop :=
  ∃ stop, EndsAt h.data index stop ∧ s.toUTF8.data = h.data.extract index stop

theorem Holds.lt_size (hs : h.Holds index s) : index < h.size := by
  obtain ⟨stop, hends, -⟩ := hs
  exact Nat.lt_of_le_of_lt hends.le hends.lt_size

/-- **A text is found exactly where it stands.** -/
theorem get_eq_ok_iff : h.get index = .ok s ↔ h.Holds index s := by
  have hfound : (terminator? h.data index).bind (text? h.data index) = some s ↔
      h.Holds index s := by
    rw [Option.bind_eq_some_iff]
    exact exists_congr fun stop => and_congr terminator?_eq_some_iff text?_eq_some_iff
  rw [← hfound, get]
  split
  · next hsize =>
    refine iff_of_false (by simp) fun hs => ?_
    exact Nat.not_lt.mpr hsize (hfound.mp hs).lt_size
  · cases (terminator? h.data index).bind (text? h.data index) <;> simp

theorem get_eq_outOfBounds_iff : h.get index = .error .outOfBounds ↔ h.size ≤ index := by
  rw [get]
  split
  · next hsize => exact iff_of_true rfl hsize
  · next hsize =>
    refine iff_of_false ?_ hsize
    cases (terminator? h.data index).bind (text? h.data index) <;> simp

/-- An index of the heap at which no text stands is malformed. -/
theorem get_eq_malformed_iff : h.get index = .error (.malformed (.invalidString index)) ↔
    index < h.size ∧ ∀ s, ¬h.Holds index s := by
  constructor
  · intro hget
    refine ⟨Nat.lt_of_not_le fun hsize => ?_, fun s hs => ?_⟩
    · cases (get_eq_outOfBounds_iff.mpr hsize).symm.trans hget
    · cases (get_eq_ok_iff.mpr hs).symm.trans hget
  · rintro ⟨hsize, hnone⟩
    have hget := fun s => mt get_eq_ok_iff.mp (hnone s)
    rw [get, if_neg (Nat.not_le.mpr hsize)] at hget ⊢
    cases hfound : (terminator? h.data index).bind (text? h.data index) with
    | none => rfl
    | some s => exact absurd (by rw [hfound]) (hget s)

/-! ### Inside a text -/

/-- A text goes as far as its zero byte. -/
theorem Holds.endsAt (hs : h.Holds index s) :
    EndsAt h.data index (index + s.utf8ByteSize) ∧
      s.toUTF8.data = h.data.extract index (index + s.utf8ByteSize) := by
  obtain ⟨stop, hends, hbytes⟩ := hs
  have hsize : s.utf8ByteSize = stop - index := by
    rw [← String.size_toByteArray, ← String.toUTF8_eq_toByteArray, ByteArray.size, hbytes,
      Array.size_extract, Nat.min_eq_left (Nat.le_of_lt hends.lt_size)]
  rw [hsize, Nat.add_sub_cancel' hends.le]
  exact ⟨hends, hbytes⟩

/-- What stands inside a text has the bytes that are left of it. -/
theorem Holds.add_iff (hs : h.Holds index s) (hk : k ≤ s.utf8ByteSize) :
    h.Holds (index + k) t ↔ t.toUTF8.data = s.toUTF8.data.extract k s.utf8ByteSize := by
  obtain ⟨hends, hbytes⟩ := hs.endsAt
  have hinside := hends.of_le (Nat.le_add_right index k) (Nat.add_le_add_left hk index)
  rw [hbytes, Array.extract_extract, Nat.min_self]
  constructor
  · rintro ⟨stop, hends', ht⟩
    rw [ht, hends'.unique hinside]
  · intro ht
    exact ⟨_, hinside, ht⟩

/-- The bytes behind the first part of a text are those of the second part. -/
theorem toUTF8_append (s t : String) :
    t.toUTF8.data = (s ++ t).toUTF8.data.extract s.utf8ByteSize (s ++ t).utf8ByteSize := by
  have hbytes : t.toByteArray =
      (s.toByteArray ++ t.toByteArray).extract s.utf8ByteSize (s ++ t).utf8ByteSize := by
    rw [ByteArray.extract_append_eq_right]
    · exact String.size_toByteArray.symm
    · rw [String.utf8ByteSize_append, String.size_toByteArray, String.size_toByteArray]
  rw [String.toUTF8_eq_toByteArray, String.toUTF8_eq_toByteArray, String.toByteArray_append,
    ← ByteArray.data_extract, ← hbytes]

/-- The bytes behind the first `k` bytes of a text make up a text exactly if that is the rest of the
text. -/
theorem toUTF8_eq_extract_iff (hk : k ≤ s.utf8ByteSize) :
    t.toUTF8.data = s.toUTF8.data.extract k s.utf8ByteSize ↔
      ∃ s', s = s' ++ t ∧ s'.utf8ByteSize = k := by
  constructor
  · intro ht
    have hrest : t.toByteArray = s.toByteArray.extract k s.utf8ByteSize :=
      ByteArray.ext (ht.trans (ByteArray.data_extract ..).symm)
    -- the bytes that are left are UTF-8, so that they start at a boundary
    have hvalid : (⟨k⟩ : String.Pos.Raw).IsValid s := by
      rw [String.Pos.Raw.isValid_iff_isValidUTF8_extract_utf8ByteSize]
      exact ⟨hk, hrest ▸ t.isValidUTF8⟩
    obtain ⟨s', t', rfl, hk'⟩ := String.Pos.Raw.isValid_iff_exists_append.mp hvalid
    obtain rfl : k = s'.utf8ByteSize := congrArg String.Pos.Raw.byteIdx hk'
    have hdata := ht.trans (toUTF8_append s' t').symm
    obtain rfl : t = t' := String.toByteArray_inj.mp (ByteArray.ext hdata)
    exact ⟨s', rfl, rfl⟩
  · rintro ⟨s', rfl, rfl⟩
    exact toUTF8_append s' t

/-- A rest of a text starts at a boundary of characters, and at each of them one does. -/
theorem isValid_iff_exists_append :
    (⟨k⟩ : String.Pos.Raw).IsValid s ↔ ∃ t s', s = s' ++ t ∧ s'.utf8ByteSize = k := by
  rw [String.Pos.Raw.isValid_iff_exists_append, exists_comm]
  simp only [String.Pos.Raw.ext_iff, String.byteIdx_rawEndPos, eq_comm]

/-- **Inside a text stand its rests**, one at each boundary of characters. -/
theorem Holds.add_iff_exists_append (hs : h.Holds index s) (hk : k ≤ s.utf8ByteSize) :
    h.Holds (index + k) t ↔ ∃ s', s = s' ++ t ∧ s'.utf8ByteSize = k :=
  (hs.add_iff hk).trans (toUTF8_eq_extract_iff hk)

/-- What is found at each index of the heap. -/
structure FindsTexts (h : StringHeap) : Prop where
  /-- A text is found where its bytes stand in front of the first zero byte. -/
  get_eq_ok_iff : ∀ index s, h.get index = .ok s ↔ h.Holds index s
  /-- An index past the heap is out of bounds. -/
  get_eq_outOfBounds_iff : ∀ index, h.get index = .error .outOfBounds ↔ h.size ≤ index
  /-- Every other index is malformed. -/
  get_eq_malformed_iff : ∀ index, h.get index = .error (.malformed (.invalidString index)) ↔
    index < h.size ∧ ∀ s, ¬h.Holds index s
  /-- Inside a text, what is found is the rest of the text. -/
  get_add_eq_ok_iff : ∀ index s k, h.get index = .ok s → k ≤ s.utf8ByteSize →
    ∀ t, h.get (index + k) = .ok t ↔ ∃ s', s = s' ++ t ∧ s'.utf8ByteSize = k
  /-- It is found at the boundaries of characters. -/
  exists_get_add_iff : ∀ index s k, h.get index = .ok s → k ≤ s.utf8ByteSize →
    ((∃ t, h.get (index + k) = .ok t) ↔ (⟨k⟩ : String.Pos.Raw).IsValid s)
  /-- Within a character the index is malformed. -/
  get_add_eq_malformed_iff : ∀ index s k, h.get index = .ok s → k ≤ s.utf8ByteSize →
    (h.get (index + k) = .error (.malformed (.invalidString (index + k))) ↔
      ¬(⟨k⟩ : String.Pos.Raw).IsValid s)

theorem findsTexts (h : StringHeap) : h.FindsTexts where
  get_eq_ok_iff _ _ := StringHeap.get_eq_ok_iff
  get_eq_outOfBounds_iff _ := StringHeap.get_eq_outOfBounds_iff
  get_eq_malformed_iff _ := StringHeap.get_eq_malformed_iff
  get_add_eq_ok_iff index s k hget hk t := by
    rw [StringHeap.get_eq_ok_iff] at hget ⊢
    exact hget.add_iff_exists_append hk
  exists_get_add_iff index s k hget hk := by
    rw [StringHeap.get_eq_ok_iff] at hget
    rw [isValid_iff_exists_append]
    exact exists_congr fun t => StringHeap.get_eq_ok_iff.trans (hget.add_iff_exists_append hk)
  get_add_eq_malformed_iff index s k hget hk := by
    rw [StringHeap.get_eq_ok_iff] at hget
    have hsize : index + k < h.size :=
      Nat.lt_of_le_of_lt (Nat.add_le_add_left hk index) hget.endsAt.1.lt_size
    rw [StringHeap.get_eq_malformed_iff, and_iff_right hsize, isValid_iff_exists_append, not_exists]
    exact forall_congr' fun t => not_congr (hget.add_iff_exists_append hk)

/-- **What is found in a heap**, also inside of texts, whatever bytes the heap is made of. -/
theorem findsTexts_of_ofBytes (hdata : ofBytes data = .ok h) : h.data = data ∧ h.FindsTexts := by
  refine ⟨?_, h.findsTexts⟩
  rw [ofBytes] at hdata
  split at hdata
  · obtain rfl := Except.ok.inj hdata
    rfl
  · cases hdata

/-- A text with a character of two bytes, and then a byte without a zero byte behind it. -/
theorem findsTexts_accented :
    ∃ h, ofBytes #[0, 0x41, 0xC3, 0xA9, 0, 0x42] = .ok h ∧ h.FindsTexts ∧ h.get 1 = .ok "Aé" ∧
      h.get 2 = .ok "é" ∧ h.get 3 = .error (.malformed (.invalidString 3)) ∧ h.get 4 = .ok "" ∧
      h.get 5 = .error (.malformed (.invalidString 5)) ∧ h.get 6 = .error .outOfBounds := by
  obtain ⟨h, hdata⟩ : ∃ h, ofBytes #[0, 0x41, 0xC3, 0xA9, 0, 0x42] = .ok h := ⟨_, dif_pos rfl⟩
  obtain ⟨hbytes, hfinds⟩ := findsTexts_of_ofBytes hdata
  have hends : EndsAt h.data 1 4 := by
    rw [hbytes]
    refine ⟨by decide, rfl, fun i hi hlt => ?_⟩
    obtain rfl | rfl | rfl : i = 1 ∨ i = 2 ∨ i = 3 := by omega
    all_goals decide
  have hget : h.get 1 = .ok "Aé" := by
    refine (hfinds.get_eq_ok_iff 1 "Aé").mpr ⟨4, hends, ?_⟩
    rw [hbytes]
    rfl
  refine ⟨h, hdata, hfinds, hget, ?_, ?_, ?_, ?_, ?_⟩
  · exact (hfinds.get_add_eq_ok_iff 1 "Aé" 1 hget (by decide) "é").mpr ⟨"A", rfl, rfl⟩
  · exact (hfinds.get_add_eq_malformed_iff 1 "Aé" 2 hget (by decide)).mpr (by decide)
  · exact (hfinds.get_add_eq_ok_iff 1 "Aé" 3 hget (by decide) "").mpr ⟨"Aé", rfl, rfl⟩
  · refine (hfinds.get_eq_malformed_iff 5).mpr ⟨by rw [size, hbytes]; decide, ?_⟩
    -- only the last byte could be the zero byte
    rintro s ⟨stop, ⟨hle, hzero, -⟩, -⟩
    rw [hbytes] at hzero
    have hlt : stop < 6 := (Array.getElem?_eq_some_iff.mp hzero).1
    obtain rfl : stop = 5 := by omega
    cases hzero
  · rw [hfinds.get_eq_outOfBounds_iff, size, hbytes]
    decide

end StringHeap

end ManagedImage
