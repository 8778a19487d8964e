import ManagedImage.Bytes.LittleEndian.Lemmas
import ManagedImage.Proofs.Code.Runs
import ManagedImage.Proofs.Sink.Contents

/-!
# Patched code

Fixups are applied one after the other, and each overwrites four bytes.  So a byte of a staged
segment is the byte of the last operand that covers it, or the byte of the code if none does, and
the sink gets exactly these bytes.

## Main definitions

* `Fixup.value`, `Fixup.Fits` — the number that goes over an operand, and whether it can.
* `CodeImage.patchedByte?` — a byte of a segment with all operands filled in.

## Main results

* `CodeImage.operand_eq_ok_iff` — operands are filled in with their values in two's complement.
* `CodeImage.getElem?_foldlM_applyFixup` — the bytes after several fixups.
* `CodeImage.Runs.writeSegment_isExact` — **a segment fails to be staged exactly if a value does not
  fit, and what is written is exactly the patched code.**
-/

namespace ManagedImage

namespace Fixup

/-- The number that goes over the operand, for a symbol at `target` and a segment at `p`. -/
def value (f : Fixup) (base : UInt64) (p : Placement) (target : UInt32) : Int :=
  match f.kind with
  | .absolute => base.toNat + target.toNat
  | .relative => target.toNat - (p.rva.toNat + f.offset.toNat + 4)

/-- The number can be told in 32 bits: an address without a sign, a distance with one. -/
def Fits (f : Fixup) (base : UInt64) (p : Placement) (target : UInt32) : Prop :=
  match f.kind with
  | .absolute => f.value base p target < 2 ^ 32
  | .relative => -2 ^ 31 ≤ f.value base p target ∧ f.value base p target < 2 ^ 31

/-- The byte at `k` belongs to the operand. -/
def Covers (f : Fixup) (k : Nat) : Prop := f.offset.toNat ≤ k ∧ k < f.offset.toNat + 4

instance (f : Fixup) (k : Nat) : Decidable (f.Covers k) :=
  inferInstanceAs (Decidable (_ ∧ _))

/-- Byte `k` of a number in two's complement, least significant first. -/
def byteOf (v : Int) (k : Nat) : UInt8 := UInt8.ofInt (v / 256 ^ k)

theorem ofNat_eq_byteOf (v : Int) {k : Nat} (hk : k < 4) :
    UInt8.ofNat ((v % 2 ^ 32).toNat / 256 ^ k) = byteOf v k := by
  apply UInt8.toNat_inj.mp
  simp only [byteOf, UInt8.ofInt, UInt8.toNat_ofNat']
  obtain rfl | rfl | rfl | rfl : k = 0 ∨ k = 1 ∨ k = 2 ∨ k = 3 := by omega
  all_goals omega

end Fixup

namespace CodeImage

variable {i i' : CodeImage} {p : Placement} {f : Fixup} {fixups : List Fixup} {code code' : Bytes}
  {n : Nat} {s : Segment} {log : List Event}

/-- An operand can be told if its value fits, and is then the value in two's complement. -/
theorem operand_eq_ok_iff {target : UInt32} {v : Nat} :
    i.operand p f target = .ok v ↔
      f.Fits i.base p target ∧ v = (f.value i.base p target % 2 ^ 32).toNat := by
  cases hkind : f.kind with
  | absolute =>
    simp only [operand, Fixup.Fits, Fixup.value, hkind]
    have hbase := i.base.toNat_lt
    by_cases hfits : i.base.toNat + target.toNat < UInt32.size
    · have hlt : (i.base.toNat : Int) + target.toNat < 2 ^ 32 := by exact_mod_cast hfits
      rw [if_pos hfits, Except.ok.injEq]
      omega
    · have hnot : ¬(i.base.toNat : Int) + target.toNat < 2 ^ 32 := by exact_mod_cast hfits
      rw [if_neg hfits]
      exact iff_of_false (by rintro ⟨⟩) fun h => hnot h.1
  | relative =>
    simp only [operand, Fixup.Fits, Fixup.value, hkind]
    split
    · next hfits => exact ⟨fun h => ⟨hfits, (Except.ok.inj h).symm⟩, fun h => by rw [h.2]; rfl⟩
    · next hfits => exact iff_of_false (by rintro ⟨⟩) fun h => hfits h.1

/-- The byte at `k` of code with operands filled in: the byte of the last operand that covers it, or
else of the code. -/
def patchedByte? (i : CodeImage) (p : Placement) (fixups : List Fixup) (code : Bytes) (k : Nat) :
    Option UInt8 :=
  match fixups.reverse.find? fun f => f.Covers k with
  | some f => (i.symbolRva f.target).toOption.map fun target =>
      Fixup.byteOf (f.value i.base p target) (k - f.offset.toNat)
  | none => code[k]?

/-- A fixup fills in its operand and leaves the other bytes. -/
theorem applyFixup_eq_ok (hf : f.offset.toNat + Segment.operandSize ≤ code.size)
    (h : i.applyFixup p code f = .ok code') :
    ∃ target, i.symbolRva f.target = .ok target ∧ f.Fits i.base p target ∧
      code'.size = code.size ∧
      ∀ k, code'[k]? = if f.Covers k then
        some (Fixup.byteOf (f.value i.base p target) (k - f.offset.toNat)) else code[k]? := by
  rw [applyFixup_eq hf] at h
  obtain ⟨target, htarget, h⟩ := exists_of_bind_eq_ok h
  obtain ⟨v, hv, h⟩ := exists_of_bind_eq_ok h
  obtain rfl := Except.ok.inj h
  obtain ⟨hfits, rfl⟩ := operand_eq_ok_iff.mp hv
  refine ⟨target, htarget, hfits, Bytes.size_overlay .., fun k => ?_⟩
  rw [Bytes.getElem?_overlay (by rwa [LittleEndian.length_encode]), LittleEndian.length_encode]
  change (if f.Covers k then _ else _) = _
  by_cases hcovers : f.Covers k
  · have hk : k - f.offset.toNat < Segment.operandSize :=
      Nat.sub_lt_left_of_lt_add hcovers.1 hcovers.2
    rw [if_pos hcovers, if_pos hcovers, LittleEndian.getElem?_encode, if_pos hk,
      Fixup.ofNat_eq_byteOf _ hk]
  · rw [if_neg hcovers, if_neg hcovers]

/-- **Fixups overwrite each other in order**: of those that cover a byte, the last one wins. -/
theorem getElem?_foldlM_applyFixup
    (hf : ∀ f ∈ fixups, f.offset.toNat + Segment.operandSize ≤ code.size)
    (h : fixups.foldlM (i.applyFixup p) code = .ok code') :
    code'.size = code.size ∧
      (∀ f ∈ fixups, ∃ target, i.symbolRva f.target = .ok target ∧ f.Fits i.base p target) ∧
      ∀ k, code'[k]? = i.patchedByte? p fixups code k := by
  induction fixups generalizing code with
  | nil =>
    obtain rfl := Except.ok.inj h
    exact ⟨rfl, fun f hf => absurd hf List.not_mem_nil, fun k => rfl⟩
  | cons f fixups ih =>
    rw [List.foldlM_cons] at h
    obtain ⟨code₁, hfirst, h⟩ := exists_of_bind_eq_ok h
    obtain ⟨target, htarget, hfits, hsize, hget⟩ :=
      applyFixup_eq_ok (hf f List.mem_cons_self) hfirst
    obtain ⟨hsize', hrest, hget'⟩ :=
      ih (fun f' hf' => hsize ▸ hf f' (List.mem_cons_of_mem f hf')) h
    refine ⟨hsize'.trans hsize, List.forall_mem_cons.mpr ⟨⟨target, htarget, hfits⟩, hrest⟩,
      fun k => ?_⟩
    rw [hget', patchedByte?, patchedByte?, List.reverse_cons, List.find?_append]
    -- the first fixup comes in only where no later one covers the byte
    cases fixups.reverse.find? fun f => f.Covers k with
    | some f' => rfl
    | none =>
      rw [Option.none_or, hget, List.find?_singleton]
      by_cases hcovers : f.Covers k
      · simp [hcovers, htarget, Except.toOption]
      · simp [hcovers]

/-- A segment is staged if and only if the values of all fixups fit, once all symbols have
addresses. -/
theorem exists_stage_eq_error_iff (hs : s.InBounds)
    (htargets : ∀ f ∈ s.fixups, ∃ target, i.symbolRva f.target = .ok target) :
    (∃ e, i.stage s p = .error e) ↔
      ∃ f ∈ s.fixups, ∃ target, i.symbolRva f.target = .ok target ∧ ¬f.Fits i.base p target := by
  constructor
  · rintro ⟨e, hstage⟩
    obtain ⟨f, hf, target, htarget, hvalue⟩ := exists_operand_of_stage_eq_error hs htargets hstage
    refine ⟨f, hf, target, htarget, fun hfits => ?_⟩
    cases hvalue.symm.trans (operand_eq_ok_iff.mpr ⟨hfits, rfl⟩)
  · rintro ⟨f, hf, target, htarget, hfits⟩
    cases hstage : i.stage s p with
    | error e => exact ⟨e, rfl⟩
    | ok code =>
      obtain ⟨-, hall, -⟩ := getElem?_foldlM_applyFixup hs hstage
      obtain ⟨target', htarget', hfits'⟩ := hall f hf
      obtain rfl := Except.ok.inj (htarget.symm.trans htarget')
      exact absurd hfits' hfits

/-! ### What the sink gets -/

open LawfulSink

section Sinks

variable {S : Type} [Sink S] [LawfulSink S] {sink sink' : S}

/-- Code that the sink has taken lies at its place, and the sink stands behind it. -/
theorem isWrittenAt_of_emit (h : emit p code sink = (.ok (), sink')) :
    (contents sink).IsWrittenAt p.offset.toNat code (contents sink') ∧
      position sink' = (UInt64.ofNat (p.offset.toNat + code.size)).toNat := by
  rw [emit] at h
  split at h
  · cases h
  · next sink₁ hseek =>
    split at h
    · cases h
    · next sink₂ hwrite =>
      have hwritten := isWrittenAt hwrite
      rw [contents_seek hseek, position_seek hseek, ← contents_seek h] at hwritten
      exact ⟨hwritten, position_seek h⟩

/-- The sink stands behind the code, as far as positions go. -/
theorem position_of_emit (h : emit p code sink = (.ok (), sink'))
    (hsize : (contents sink').size < UInt64.size) :
    position sink' = p.offset.toNat + code.size := by
  obtain ⟨hwritten, hposition⟩ := isWrittenAt_of_emit h
  have hlt : p.offset.toNat + code.size < UInt64.size := by
    rcases Nat.eq_zero_or_pos code.size with hzero | hpos
    · rw [hzero]
      exact p.offset.toNat_lt
    · exact Nat.lt_of_le_of_lt (hwritten.le_size hpos) hsize
  rw [hposition, UInt64.toNat_ofNat_of_lt' hlt]

/-- **What a segment looks like when it is written.**  A segment with a place, whose fixups have
addresses, cannot be staged exactly if a value does not fit, and the caller is at fault then.  A
sink that takes the segment has every byte of the patched code at the place of the segment, no other
byte of it has changed, and it stands behind the segment, as far as positions go. -/
theorem Runs.writeSegment_isExact {base : UInt64} (h : (empty base).Runs log i)
    (hn : i.segments[n]? = some s) (hs : s.state = .positioned p)
    (htargets : ∀ f ∈ s.fixups, ∃ target, i.symbolRva f.target = .ok target) :
    ((∃ e, i.stage s p = .error e) ↔
      ∃ f ∈ s.fixups, ∃ target, i.symbolRva f.target = .ok target ∧ ¬f.Fits i.base p target) ∧
    (∀ e, i.stage s p = .error e → ∃ v, e = .violation v) ∧
    ∀ (sink sink' : S) (i' : CodeImage), i.writeSegment n sink = (.ok (), i', sink') →
      (∀ k < s.code.size, (contents sink')[p.offset.toNat + k]? =
        i.patchedByte? p s.fixups s.code k) ∧
      (∀ k < (contents sink).size, k < p.offset.toNat ∨ p.offset.toNat + s.code.size ≤ k →
        (contents sink')[k]? = (contents sink)[k]?) ∧
      (∀ k, (contents sink).size ≤ k → k < p.offset.toNat ∨ p.offset.toNat + s.code.size ≤ k →
        (contents sink')[k]? = none ∨ (contents sink')[k]? = some 0) ∧
      ((contents sink').size < UInt64.size → position sink' = p.offset.toNat + s.code.size) := by
  have hbounds := h.inBounds hn
  refine ⟨exists_stage_eq_error_iff hbounds htargets, fun e => exists_violation_of_stage hbounds,
    fun sink sink' i' hwrite => ?_⟩
  obtain ⟨t, q, code, ht, hq, hstage, hemit, -⟩ := writeSegment_eq_ok hwrite
  obtain rfl := Option.some.inj (hn.symm.trans ht)
  obtain rfl := SegmentState.positioned.inj (hs.symm.trans hq)
  obtain ⟨hsize, -, hget⟩ := getElem?_foldlM_applyFixup hbounds hstage
  obtain ⟨hwritten, -⟩ := isWrittenAt_of_emit hemit
  refine ⟨fun k hk => ?_, ?_, ?_, fun hfits => ?_⟩
  · rw [hwritten.inside k (by omega), hget]
  · simpa only [hsize] using hwritten.outside
  · simpa only [hsize] using hwritten.gap
  · rw [position_of_emit hemit hfits, hsize]

end Sinks

/-- Eight bytes with two operands, of which the second overwrites the end of the first. -/
def overlapping : Segment where
  code := #[0x90, 0x90, 0x90, 0x90, 0x90, 0x90, 0x90, 0x90]
  fixups := [⟨1, .absolute, 0⟩, ⟨3, .relative, 1⟩]
  state := .unpositioned

/-- An image with these bytes and the two symbols that they refer to. -/
def overlappingImage : CodeImage :=
  ((((empty 0x10000).addSegment overlapping).2.defineSymbol "data").2.defineSymbol "start").2

/-- The second symbol lies in front of the segment. -/
def overlappingAssignment : Assignment :=
  ((Assignment.empty.placeSegment 0 ⟨2, 0x1000⟩).placeSymbol 0 0x20).placeSymbol 1 0x100

/-- The image with its addresses. -/
def overlappingPlaced : CodeImage where
  base := 0x10000
  segments := #[{ overlapping with state := .positioned ⟨2, 0x1000⟩ }]
  symbols := #["data", "start"]
  addresses? := some #[some 0x20, some 0x100]

theorem assign_overlappingImage :
    overlappingImage.assign overlappingAssignment = .ok overlappingPlaced := by
  have hsymbols : (Array.range 2).map overlappingAssignment.symbol? = #[some 0x20, some 0x100] := by
    decide +kernel
  have hassign : overlappingImage.assign overlappingAssignment =
      .ok { overlappingPlaced with
        addresses? := some ((Array.range 2).map overlappingAssignment.symbol?) } := rfl
  rw [hassign, hsymbols]
  rfl

theorem runs_overlappingPlaced : (empty 0x10000).Runs [.assigned] overlappingPlaced := by
  have hfirst : Segment.IsBuilt { overlapping with fixups := [⟨1, .absolute, 0⟩] } :=
    .addFixup (f := ⟨1, .absolute, 0⟩) (.ofCode overlapping.code) rfl
  have hbuilt : overlapping.IsBuilt := .addFixup (f := ⟨3, .relative, 1⟩) hfirst rfl
  have hrun : (empty 0x10000).Runs [] overlappingImage :=
    ((Runs.refl.call (.addSegment overlapping) hbuilt).call (.defineSymbol "data") trivial).call
      (.defineSymbol "start") trivial
  have hassigned := hrun.call (.assign overlappingAssignment) trivial
  simpa only [Call.events, Call.perform, assign_overlappingImage, List.nil_append] using hassigned

/-- The segment goes behind a byte that is there and a gap of one byte. -/
theorem writeSegment_isExact_overlapping :
    ∃ (i' : CodeImage) (sink' : GrowingBuffer),
      overlappingPlaced.writeSegment 0 (GrowingBuffer.ofBytes #[7]) = (.ok (), i', sink') ∧
      contents sink' = #[7, 0, 0x90, 0x20, 0, 0xF9, 0xF0, 0xFF, 0xFF, 0x90] ∧
      (∀ k < 8, (contents sink')[2 + k]? =
        overlappingPlaced.patchedByte? ⟨2, 0x1000⟩ overlapping.fixups overlapping.code k) ∧
      position sink' = 10 := by
  have hwrite : overlappingPlaced.writeSegment 0 (GrowingBuffer.ofBytes #[7]) =
      (.ok (), overlappingPlaced.markWritten 0 ⟨2, 0x1000⟩,
        ⟨#[7, 0, 0x90, 0x20, 0, 0xF9, 0xF0, 0xFF, 0xFF, 0x90], 10⟩) := rfl
  have htargets : ∀ f ∈ overlapping.fixups,
      ∃ target, overlappingPlaced.symbolRva f.target = .ok target := by
    intro f hf
    rcases List.mem_pair.mp hf with rfl | rfl
    · exact ⟨0x20, rfl⟩
    · exact ⟨0x100, rfl⟩
  obtain ⟨-, -, hexact⟩ :=
    runs_overlappingPlaced.writeSegment_isExact (S := GrowingBuffer) (n := 0) rfl rfl htargets
  obtain ⟨hbytes, -, -, hposition⟩ := hexact _ _ _ hwrite
  exact ⟨_, _, hwrite, rfl, hbytes, hposition (by decide)⟩

end CodeImage

end ManagedImage
