import ManagedImage.Heap.Blobs
import ManagedImage.Proofs.Bytes.Windows

/-!
# Blobs and their lengths

The length in front of a blob has one of three forms, which its top bits tell apart: `0` and seven
bits, `10` and fourteen bits, or `110` and twenty-nine bits.  The bytes of a form are those of one
big-endian number, the top bits followed by the length.  So a length is read from its bytes as a
number is, and what can go wrong is that the first byte belongs to no form, or that bytes are
missing.

## Main definitions

* `LengthForm` — the forms of a length.
* `LengthForm.bytes` — a length in one of them.
* `BlobHeap.Holds` — a blob stands at an index, behind its length.
* `BlobHeap.FindsBlobs` — what is found at each index of a heap.

## Main results

* `BlobHeap.lengthAt_eq_ok_iff` — which length is read.
* `BlobHeap.get_eq_ok_iff` — **a blob is found exactly where it stands.**
* `BlobHeap.findsBlobs` — what is found in any heap, and that every blob put into one is found.
-/

namespace ManagedImage

/-! ### Big-endian numbers -/

/-- The `width` low-order bytes of `n`, most significant first. -/
def BlobHeap.bigEndianBytes (width n : Nat) : List UInt8 := (LittleEndian.encode width n).reverse

namespace BlobHeap

variable {width n : Nat}

theorem bigEndian_eq_decode (digits : List UInt8) :
    bigEndian digits = LittleEndian.decode digits.reverse := by
  rw [bigEndian, ← List.reverse_reverse digits, List.foldl_reverse, List.reverse_reverse]
  induction digits.reverse with
  | nil => rfl
  | cons b digits ih =>
    rw [List.foldr_cons, ih, LittleEndian.decode_cons, Nat.mul_comm, Nat.add_comm]

theorem length_bigEndianBytes (width n : Nat) : (bigEndianBytes width n).length = width := by
  rw [bigEndianBytes, List.length_reverse, LittleEndian.length_encode]

theorem bigEndian_bigEndianBytes (h : n < 256 ^ width) :
    bigEndian (bigEndianBytes width n) = n := by
  rw [bigEndian_eq_decode, bigEndianBytes, List.reverse_reverse, LittleEndian.decode_encode_of_lt h]

theorem bigEndianBytes_bigEndian (digits : List UInt8) :
    bigEndianBytes digits.length (bigEndian digits) = digits := by
  rw [bigEndian_eq_decode, bigEndianBytes, ← List.length_reverse, LittleEndian.encode_decode,
    List.reverse_reverse]

theorem bigEndian_lt (digits : List UInt8) : bigEndian digits < 256 ^ digits.length := by
  rw [bigEndian_eq_decode, ← List.length_reverse]
  exact LittleEndian.decode_lt _

theorem foldl_digits (n : Nat) (digits : List UInt8) :
    digits.foldl (fun n b => n * 256 + b.toNat) n = n * 256 ^ digits.length + bigEndian digits := by
  induction digits generalizing n with
  | nil => simp [bigEndian]
  | cons b digits ih =>
    rw [bigEndian, List.foldl_cons, List.foldl_cons, ih, ih, List.length_cons, Nat.pow_succ']
    ring

/-- The first digit counts most. -/
theorem bigEndian_cons (b : UInt8) (digits : List UInt8) :
    bigEndian (b :: digits) = b.toNat * 256 ^ digits.length + bigEndian digits := by
  rw [bigEndian, List.foldl_cons, foldl_digits, Nat.zero_mul, Nat.zero_add]

end BlobHeap

/-! ### The forms of a length -/

/-- The forms of a length. -/
inductive LengthForm where
  /-- One byte, `0xxxxxxx`. -/
  | short
  /-- Two bytes, `10xxxxxx xxxxxxxx`. -/
  | medium
  /-- Four bytes, `110xxxxx xxxxxxxx xxxxxxxx xxxxxxxx`. -/
  | long
  deriving DecidableEq, Repr

namespace LengthForm

/-- How many bytes the form takes. -/
def width : LengthForm → Nat
  | short => 1
  | medium => 2
  | long => 4

/-- The top bits, as a number. -/
def tag : LengthForm → Nat
  | short => 0
  | medium => 0b10
  | long => 0b110

/-- How many bits are left for the length. -/
def bits : LengthForm → Nat
  | short => 7
  | medium => 14
  | long => 29

/-- The bytes of a length: the top bits, and the length behind them. -/
def bytes (f : LengthForm) (n : Nat) : List UInt8 :=
  BlobHeap.bigEndianBytes f.width (f.tag * 2 ^ f.bits + n)

/-- The form whose top bits a byte has. -/
def ofByte? (b : UInt8) : Option LengthForm :=
  if b < 0x80 then some short
  else if b < 0xC0 then some medium
  else if b < 0xE0 then some long
  else none

variable {f : LengthForm} {b : UInt8} {n : Nat}

theorem length_bytes (f : LengthForm) (n : Nat) : (f.bytes n).length = f.width :=
  BlobHeap.length_bigEndianBytes ..

theorem width_pos (f : LengthForm) : 0 < f.width := by
  cases f <;> decide

theorem bytes_ne_nil (f : LengthForm) (n : Nat) : f.bytes n ≠ [] := by
  rw [ne_eq, ← List.length_eq_zero_iff, length_bytes]
  exact f.width_pos.ne'

/-- The bytes of a length stand where the rest of a buffer starts with them. -/
theorem window?_eq_some_iff (data : Bytes) (index n : Nat) (f : LengthForm) :
    data.window? index f.width = some (f.bytes n) ↔ f.bytes n <+: data.toList.drop index := by
  rw [← Bytes.window?_eq_some_iff_of_ne_nil (f.bytes_ne_nil n), length_bytes]

/-- The top bits and the length fill the bytes. -/
theorem add_lt (hn : n < 2 ^ f.bits) : f.tag * 2 ^ f.bits + n < 256 ^ f.width := by
  cases f <;> simp only [tag, bits, width] at hn ⊢ <;> omega

/-- The bytes of the form are those of the numbers with its top bits. -/
theorem ofByte?_eq_some_iff {low : Nat} (hlow : low < 256 ^ (f.width - 1)) :
    ofByte? b = some f ↔
      f.tag * 2 ^ f.bits ≤ b.toNat * 256 ^ (f.width - 1) + low ∧
        b.toNat * 256 ^ (f.width - 1) + low < (f.tag + 1) * 2 ^ f.bits := by
  have hb := b.toNat_lt
  rw [ofByte?]
  simp only [UInt8.lt_iff_toNat_lt, UInt8.reduceToNat]
  cases f <;> simp only [tag, bits, width] at hlow ⊢ <;> split_ifs <;> simp <;> omega

theorem ofByte?_eq_none_iff : ofByte? b = none ↔ 0xE0 ≤ b := by
  rw [ofByte?]
  simp only [UInt8.lt_iff_toNat_lt, UInt8.le_iff_toNat_le, UInt8.reduceToNat]
  split_ifs <;> simp <;> omega

end LengthForm

namespace BlobHeap

open LengthForm

variable {data : Bytes} {index n width : Nat} {f : LengthForm} {p : Bytes} {h : BlobHeap}

/-- The length in some bytes of a form: their number without the top bits. -/
def lengthIn (f : LengthForm) (bytes : List UInt8) : Nat := bigEndian bytes - f.tag * 2 ^ f.bits

/-- The first byte tells the form, and the length is read from the bytes of the form. -/
theorem lengthAt_eq (data : Bytes) (index : Nat) :
    lengthAt data index =
      match data[index]? with
      | none => .error .outOfBounds
      | some b =>
        match ofByte? b with
        | none => .error (.malformed (.blobLength b))
        | some f =>
          match data.window? index f.width with
          | none => .error .outOfBounds
          | some bytes => .ok (lengthIn f bytes, f.width) := by
  rw [lengthAt]
  cases hb : data[index]? with
  | none => rfl
  | some b =>
    have hwindow : ∀ count, data.window? index (count + 1) =
        (data.window? (index + 1) count).map (b :: ·) := by
      intro count
      rw [Bytes.window?_succ, hb]
      rfl
    dsimp only
    rw [ofByte?]
    simp only [UInt8.lt_iff_toNat_lt, UInt8.reduceToNat]
    split_ifs with hshort hmedium hlong
    · have hnone : data.window? (index + 1) 0 = some [] := by
        have hlt := (Array.getElem?_eq_some_iff.mp hb).1
        rw [Bytes.window?, if_pos (by omega)]
        simp
      have hsame : b.toNat = lengthIn .short [b] := by simp [lengthIn, bigEndian, tag]
      change _ = match data.window? index (0 + 1) with | none => _ | some bytes => _
      rw [hwindow, hnone]
      exact congrArg (fun n => Except.ok (n, 1)) hsame
    · change _ = match data.window? index (1 + 1) with | none => _ | some bytes => _
      rw [hwindow, bigEndianAt]
      cases hlow : data.window? (index + 1) 1 with
      | none => rfl
      | some low =>
        have hsame : (b.toNat - 0x80) * 256 + bigEndian low = lengthIn .medium (b :: low) := by
          rw [lengthIn, bigEndian_cons, Bytes.length_of_window? hlow, tag, bits]
          omega
        exact congrArg (fun n => Except.ok (n, 2)) hsame
    · change _ = match data.window? index (3 + 1) with | none => _ | some bytes => _
      rw [hwindow, bigEndianAt]
      cases hlow : data.window? (index + 1) 3 with
      | none => rfl
      | some low =>
        have hsame : (b.toNat - 0xC0) * 0x1000000 + bigEndian low = lengthIn .long (b :: low) := by
          rw [lengthIn, bigEndian_cons, Bytes.length_of_window? hlow, tag, bits]
          omega
        exact congrArg (fun n => Except.ok (n, 4)) hsame
    · rfl

/-- The bytes of a length have the top bits of their form and stand for the length. -/
theorem ofByte?_of_bytes (hn : n < 2 ^ f.bits)
    (hw : data.window? index f.width = some (f.bytes n)) :
    ∃ b, data[index]? = some b ∧ ofByte? b = some f ∧ lengthIn f (f.bytes n) = n := by
  have hvalue : bigEndian (f.bytes n) = f.tag * 2 ^ f.bits + n :=
    bigEndian_bigEndianBytes (add_lt hn)
  cases hbytes : f.bytes n with
  | nil =>
    have hlength := f.length_bytes n
    rw [hbytes] at hlength
    exact absurd hlength f.width_pos.ne
  | cons b low =>
    have hlength : low.length = f.width - 1 := by
      rw [← f.length_bytes n, hbytes, List.length_cons, Nat.add_sub_cancel]
    rw [hbytes] at hvalue hw
    have hget := Bytes.getElem?_of_window? hw f.width_pos
    refine ⟨b, hget.symm, ?_, ?_⟩
    · have hrange := bigEndian_lt low
      rw [bigEndian_cons, hlength] at hvalue
      rw [hlength] at hrange
      rw [ofByte?_eq_some_iff hrange, hvalue, Nat.succ_mul]
      omega
    · rw [lengthIn, hvalue, Nat.add_sub_cancel_left]

/-- Bytes whose first byte has the top bits of a form are those of a length. -/
theorem bytes_of_ofByte? {b : UInt8} {bytes : List UInt8} (hb : data[index]? = some b)
    (hf : ofByte? b = some f) (hw : data.window? index f.width = some bytes) :
    lengthIn f bytes < 2 ^ f.bits ∧ f.bytes (lengthIn f bytes) = bytes := by
  have hlength := Bytes.length_of_window? hw
  have hget := Bytes.getElem?_of_window? hw f.width_pos
  rw [Nat.add_zero, hb] at hget
  cases bytes with
  | nil => cases hget
  | cons c low =>
    obtain rfl := Option.some.inj hget
    have hlow : low.length = f.width - 1 := by rw [← hlength, List.length_cons, Nat.add_sub_cancel]
    have hrange := bigEndian_lt low
    rw [hlow] at hrange
    obtain ⟨hge, hlt⟩ := (ofByte?_eq_some_iff hrange).mp hf
    rw [← hlow, ← bigEndian_cons] at hge hlt
    rw [Nat.succ_mul] at hlt
    refine ⟨by rw [lengthIn]; omega, ?_⟩
    rw [LengthForm.bytes, lengthIn, Nat.add_sub_cancel' hge, ← hlength, bigEndianBytes_bigEndian]

/-- **Which length is read**: the one whose bytes, in one of the forms, stand there. -/
theorem lengthAt_eq_ok_iff :
    lengthAt data index = .ok (n, width) ↔
      ∃ f : LengthForm, f.width = width ∧ n < 2 ^ f.bits ∧
        data.window? index f.width = some (f.bytes n) := by
  rw [lengthAt_eq]
  constructor
  · intro h
    cases hb : data[index]? with
    | none => simp [hb] at h
    | some b =>
      cases hf : ofByte? b with
      | none => simp [hb, hf] at h
      | some f =>
        cases hw : data.window? index f.width with
        | none => simp [hb, hf, hw] at h
        | some bytes =>
          simp only [hb, hf, hw, Except.ok.injEq, Prod.mk.injEq] at h
          obtain ⟨rfl, rfl⟩ := h
          obtain ⟨hlt, hbytes⟩ := bytes_of_ofByte? hb hf hw
          exact ⟨f, rfl, hlt, by rw [hbytes, hw]⟩
  · rintro ⟨f, rfl, hn, hw⟩
    obtain ⟨b, hb, hf, hlength⟩ := ofByte?_of_bytes hn hw
    simp only [hb, hf, hw, hlength]

/-! ### Finding blobs -/

/-- Blob `p` stands at `index`, behind its length in one of the forms. -/
def Holds (h : BlobHeap) (index : Nat) (p : Bytes) : Prop :=
  ∃ f : LengthForm, p.size < 2 ^ f.bits ∧ f.bytes p.size ++ p.toList <+: h.data.toList.drop index

theorem holds_iff :
    h.Holds index p ↔ ∃ f : LengthForm, p.size < 2 ^ f.bits ∧
      h.data.window? index f.width = some (f.bytes p.size) ∧
        h.data.window? (index + f.width) p.size = some p.toList := by
  refine exists_congr fun f => and_congr_right fun _ => ?_
  have hne : f.bytes p.size ++ p.toList ≠ [] :=
    List.append_ne_nil_of_left_ne_nil (f.bytes_ne_nil p.size) p.toList
  rw [← Bytes.window?_eq_some_iff_of_ne_nil hne, Bytes.window?_append_iff, f.length_bytes,
    Array.length_toList]

theorem get_eq (h : BlobHeap) (index : Nat) :
    h.get index = lengthAt h.data index >>= fun (n, width) =>
      ((h.data.window? (index + width) n).map List.toArray).elim (.error .outOfBounds) .ok := by
  rw [get]
  refine congrArg (lengthAt h.data index >>= ·) (funext fun (n, width) => ?_)
  dsimp only
  by_cases hfits : index + width + n ≤ h.data.size
  · rw [Bytes.window?, if_pos hfits]
    exact if_neg (by omega)
  · rw [Bytes.window?, if_neg hfits]
    exact if_pos (by omega)

/-- **A blob is found exactly where it stands.** -/
theorem get_eq_ok_iff : h.get index = .ok p ↔ h.Holds index p := by
  rw [holds_iff, get_eq]
  constructor
  · intro hget
    obtain ⟨⟨n, width⟩, hlength, hget⟩ := exists_of_bind_eq_ok hget
    obtain ⟨f, rfl, hn, hw⟩ := lengthAt_eq_ok_iff.mp hlength
    cases hpayload : h.data.window? (index + f.width) n with
    | none => simp [hpayload] at hget
    | some bytes =>
      have hsize := Bytes.length_of_window? hpayload
      simp only [hpayload, Option.map_some, Option.elim_some, Except.ok.injEq] at hget
      subst hget
      rw [List.size_toArray, hsize]
      exact ⟨f, hn, hw, hpayload⟩
  · rintro ⟨f, hn, hw, hpayload⟩
    rw [lengthAt_eq_ok_iff.mpr ⟨f, rfl, hn, hw⟩]
    change ((h.data.window? (index + f.width) p.size).map List.toArray).elim _ Except.ok = _
    rw [hpayload]
    rfl

/-- Something is missing from the blob at `index`. -/
inductive IsCut (h : BlobHeap) (index : Nat) : Prop where
  /-- The index is past the heap. -/
  | index (hindex : h.data.size ≤ index)
  /-- The length is cut off. -/
  | length {b : UInt8} {f : LengthForm} (hb : h.data[index]? = some b) (hf : ofByte? b = some f)
    (hsize : h.data.size < index + f.width)
  /-- The blob is cut off. -/
  | payload {f : LengthForm} {n : Nat} (hn : n < 2 ^ f.bits)
    (hlength : f.bytes n <+: h.data.toList.drop index)
    (hsize : h.data.size < index + f.width + n)

/-- At every index there is a blob, or a byte that starts no length, or something is missing. -/
theorem holds_or_or_isCut (h : BlobHeap) (index : Nat) :
    (∃ p, h.Holds index p) ∨ (∃ b, h.data[index]? = some b ∧ 0xE0 ≤ b) ∨ h.IsCut index := by
  -- along the steps in which a blob is looked for
  cases hb : h.data[index]? with
  | none => exact Or.inr (Or.inr (.index (Array.getElem?_eq_none_iff.mp hb)))
  | some b =>
    cases hf : ofByte? b with
    | none => exact Or.inr (Or.inl ⟨b, rfl, ofByte?_eq_none_iff.mp hf⟩)
    | some f =>
      cases hw : h.data.window? index f.width with
      | none => exact Or.inr (Or.inr (.length hb hf (Bytes.lt_of_window?_eq_none hw)))
      | some bytes =>
        obtain ⟨hn, hbytes⟩ := bytes_of_ofByte? hb hf hw
        rw [← hbytes] at hw
        cases hpayload : h.data.window? (index + f.width) (lengthIn f bytes) with
        | none =>
          have hlength := (window?_eq_some_iff ..).mp hw
          exact Or.inr (Or.inr (.payload hn hlength (Bytes.lt_of_window?_eq_none hpayload)))
        | some p =>
          have hsize := Bytes.length_of_window? hpayload
          refine Or.inl ⟨p.toArray, holds_iff.mpr ⟨f, ?_⟩⟩
          rw [List.size_toArray, hsize]
          exact ⟨hn, hw, hpayload⟩

theorem get_eq_malformed {b : UInt8} (hb : h.data[index]? = some b) (hform : 0xE0 ≤ b) :
    h.get index = .error (.malformed (.blobLength b)) := by
  rw [get_eq, lengthAt_eq, hb]
  simp only [ofByte?_eq_none_iff.mpr hform]
  rfl

theorem get_eq_outOfBounds (hcut : h.IsCut index) : h.get index = .error .outOfBounds := by
  rw [get_eq]
  cases hcut with
  | index hindex =>
    rw [lengthAt_eq, Array.getElem?_eq_none hindex]
    rfl
  | length hb hf hsize =>
    rw [lengthAt_eq, hb]
    simp only [hf, Bytes.window?, if_neg (Nat.not_le.mpr hsize)]
    rfl
  | @payload f n hn hlength hsize =>
    rw [lengthAt_eq_ok_iff.mpr ⟨f, rfl, hn, (window?_eq_some_iff ..).mpr hlength⟩]
    change ((h.data.window? (index + f.width) n).map List.toArray).elim _ Except.ok = _
    rw [Bytes.window?, if_neg (Nat.not_le.mpr hsize)]
    rfl

/-- What is found at each index of the heap. -/
structure FindsBlobs (h : BlobHeap) : Prop where
  /-- A blob is found exactly where it stands. -/
  get_eq_ok_iff : ∀ index p, h.get index = .ok p ↔ h.Holds index p
  /-- What is found is malformed if the first byte starts no length. -/
  exists_malformed_iff : ∀ index, (∃ m, h.get index = .error (.malformed m)) ↔
    ∃ b, h.data[index]? = some b ∧ 0xE0 ≤ b
  /-- It is out of bounds in every other case. -/
  outOfBounds_iff : ∀ index, h.get index = .error .outOfBounds ↔
    (∀ p, ¬h.Holds index p) ∧ ∀ b, h.data[index]? = some b → b < 0xE0
  /-- That is, if something is missing. -/
  outOfBounds_iff_isCut : ∀ index, h.get index = .error .outOfBounds ↔ h.IsCut index

theorem findsBlobs_self (h : BlobHeap) : h.FindsBlobs where
  get_eq_ok_iff _ _ := get_eq_ok_iff
  exists_malformed_iff index := by
    constructor
    · rintro ⟨m, hget⟩
      rcases h.holds_or_or_isCut index with ⟨p, hp⟩ | hbyte | hcut
      · cases (get_eq_ok_iff.mpr hp).symm.trans hget
      · exact hbyte
      · cases (get_eq_outOfBounds hcut).symm.trans hget
    · rintro ⟨b, hb, hform⟩
      exact ⟨_, get_eq_malformed hb hform⟩
  outOfBounds_iff index := by
    constructor
    · intro hget
      refine ⟨fun p hp => ?_, fun b hb => ?_⟩
      · cases (get_eq_ok_iff.mpr hp).symm.trans hget
      · by_contra hform
        cases (get_eq_malformed hb (UInt8.not_lt.mp hform)).symm.trans hget
    · rintro ⟨hnone, hbytes⟩
      rcases h.holds_or_or_isCut index with ⟨p, hp⟩ | ⟨b, hb, hform⟩ | hcut
      · exact absurd hp (hnone p)
      · exact absurd hform (UInt8.not_le.mpr (hbytes b hb))
      · exact get_eq_outOfBounds hcut
  outOfBounds_iff_isCut index := by
    refine ⟨fun hget => ?_, get_eq_outOfBounds⟩
    rcases h.holds_or_or_isCut index with ⟨p, hp⟩ | ⟨b, hb, hform⟩ | hcut
    · cases (get_eq_ok_iff.mpr hp).symm.trans hget
    · cases (get_eq_malformed hb hform).symm.trans hget
    · exact hcut

/-- A blob that is put behind its length is found there. -/
theorem get_of_append {pre post p : List UInt8} (hp : p.length < 2 ^ f.bits)
    (hdata : h.data = (pre ++ (f.bytes p.length ++ p ++ post)).toArray) :
    h.get pre.length = .ok p.toArray := by
  refine get_eq_ok_iff.mpr ⟨f, hp, ?_⟩
  rw [hdata, List.drop_left]
  exact List.prefix_append ..

/-- **What is found in a heap.**  In every heap, a blob is found exactly where one stands behind its
length, and what goes wrong elsewhere is told apart by the first byte.  So every blob that is put
into a heap behind a length that it fits, in whatever form, is found there. -/
theorem findsBlobs :
    (∀ (data : Bytes) (h : BlobHeap), ofBytes data = .ok h → h.data = data ∧ h.FindsBlobs) ∧
    ∀ (pre p post : List UInt8) (f : LengthForm), pre[0]? = some 0 → p.length < 2 ^ f.bits →
      ∃ h, ofBytes (pre ++ (f.bytes p.length ++ p ++ post)).toArray = .ok h ∧
        h.get pre.length = .ok p.toArray := by
  constructor
  · intro data h hdata
    rw [ofBytes] at hdata
    split at hdata
    · obtain rfl := Except.ok.inj hdata
      exact ⟨rfl, findsBlobs_self _⟩
    · cases hdata
  · intro pre p post f hpre hp
    have hstart : (pre ++ (f.bytes p.length ++ p ++ post)).toArray[0]? = some 0 := by
      have hpos : 0 < pre.length := (List.getElem?_eq_some_iff.mp hpre).1
      rw [List.getElem?_toArray, List.getElem?_append_left hpos, hpre]
    exact ⟨⟨_, hstart⟩, dif_pos hstart, get_of_append hp rfl⟩

/-- Two bytes behind a length of two bytes, and then a byte that starts no length. -/
theorem findsBlobs_roomy :
    ∃ h, ofBytes #[0, 0x80, 2, 7, 8, 0xE0] = .ok h ∧ h.FindsBlobs ∧ h.get 1 = .ok #[7, 8] ∧
      h.get 3 = .error .outOfBounds ∧ ∃ m, h.get 5 = .error (.malformed m) := by
  obtain ⟨h, hdata, hget⟩ := findsBlobs.2 [0] [7, 8] [0xE0] .medium rfl (by decide)
  have hbytes : ([0] ++ (LengthForm.medium.bytes 2 ++ [7, 8] ++ [0xE0])).toArray =
      #[0, 0x80, 2, 7, 8, 0xE0] := by decide
  obtain ⟨hsame, hfinds⟩ := findsBlobs.1 _ h hdata
  replace hsame := hsame.trans hbytes
  refine ⟨h, hbytes ▸ hdata, hfinds, hget, ?_, ?_⟩
  · -- a length of seven is more than is left
    refine (hfinds.outOfBounds_iff_isCut 3).mpr (.payload (f := .short) (n := 7) (by decide) ?_ ?_)
    · rw [hsame]
      decide
    · rw [hsame]
      decide
  · rw [hfinds.exists_malformed_iff, hsame]
    exact ⟨0xE0, rfl, by decide⟩

end BlobHeap

end ManagedImage
