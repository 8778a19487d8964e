import ManagedImage.Proofs.Code.Ordering

/-!
# Writing a segment into a file, again if need be

A segment is written into a file as a whole or not at all.  Before the file is touched, the segment
is staged, and a file takes all of the staged bytes or none of them.  So a failure leaves nothing
behind that would have to be undone, and the same segment can be written into a larger file.

## Main definitions

* `Output.Drains` — bytes are written piece by piece until none is left or a write fails.
* `CodeImage.WritesWhole` — what becomes of a segment, of the image and of the file.

## Main results

* `Output.drains_iff` — a file takes all of the bytes in one piece.
* `CodeImage.stage_ne_sink` — a segment that cannot be staged is no fault of a file.
* `CodeImage.writeSegment_cases` — the three ends that writing a segment into a file may have.
* `CodeImage.writesWhole` — **a segment is written as a whole, or it can be written again.**
-/

namespace ManagedImage

/-! ### Pieces -/

namespace Output

/-- Bytes are written as long as some are left.  A write may take fewer than it is offered, and the
others are offered to the next one. -/
inductive Drains : Bytes → Output → Except Error Unit → Output → Prop
  /-- None is left. -/
  | done {o : Output} : Drains #[] o (.ok ()) o
  /-- Some are taken, and the others are left. -/
  | more {bytes : Bytes} {o o' o'' : Output} {count : Nat} {result : Except Error Unit} :
      bytes ≠ #[] → o.write bytes = (.ok count, o') → 0 < count →
      Drains (bytes.extract count) o' result o'' → Drains bytes o result o''
  /-- None can be taken. -/
  | failed {bytes : Bytes} {o o' : Output} {e : Error} :
      bytes ≠ #[] → o.write bytes = (.error e, o') → Drains bytes o (.error e) o'

variable {o o' : Output} {bytes : Bytes} {count : Nat} {result : Except Error Unit}

theorem count_eq_size (h : o.write bytes = (.ok count, o')) : count = bytes.size := by
  by_cases hroom : o.position.toNat + bytes.size ≤ o.size
  · rw [write_eq_ok hroom] at h
    exact (Except.ok.inj (Prod.mk.inj h).1).symm
  · rw [write_eq_error hroom] at h
    cases h

/-- **A file takes all of the bytes in one piece.** -/
theorem drains_iff : Drains bytes o result o' ↔ o.writeAll bytes = (result, o') := by
  constructor
  · intro h
    cases h with
    | done => rfl
    | failed hbytes hwrite => rw [writeAll, if_neg (by simpa using hbytes), hwrite]
    | more hbytes hwrite _ hrest =>
      -- nothing is left for another write
      have hnone : bytes.extract bytes.size = #[] := by simp
      rw [count_eq_size hwrite, hnone] at hrest
      cases hrest with
      | done => rw [writeAll, if_neg (by simpa using hbytes), hwrite]
      | more hmore => exact absurd rfl hmore
      | failed hmore => exact absurd rfl hmore
  · intro h
    by_cases hbytes : bytes = #[]
    · subst hbytes
      cases h
      exact .done
    · rw [writeAll, if_neg (by simpa using hbytes)] at h
      split at h
      · next count o₁ hwrite =>
        cases h
        obtain rfl := count_eq_size hwrite
        have hnone : bytes.extract bytes.size = #[] := by simp
        refine .more hbytes hwrite (Array.size_pos_iff.mpr hbytes) ?_
        rw [hnone]
        exact .done
      · next hwrite =>
        cases h
        exact .failed hbytes hwrite

end Output

namespace CodeImage

variable {i i' : CodeImage} {n : Nat} {s : Segment} {p : Placement} {f : Fixup} {code : Bytes}
  {fault : SinkFault} {o : Output}

/-! ### Faults of staging -/

theorem applyFixup_ne_sink : i.applyFixup p code f ≠ .error (.sink fault) := by
  intro h
  rcases eq_error_or_of_bind_eq_error h with htarget | ⟨target, -, h⟩
  · rcases symbolRva_eq_error htarget with h | h <;> cases h
  · rcases eq_error_or_of_bind_eq_error h with hvalue | ⟨value, -, h⟩
    · rcases operand_eq_error hvalue with h | ⟨_, h⟩ <;> cases h
    · split at h <;> cases h

/-- A segment that cannot be staged is no fault of a file. -/
theorem stage_ne_sink : i.stage s p ≠ .error (.sink fault) := by
  obtain ⟨start, fixups, state⟩ := s
  change fixups.foldlM (i.applyFixup p) start ≠ _
  induction fixups generalizing start with
  | nil =>
    intro h
    cases h
  | cons f fixups ih =>
    intro h
    rw [List.foldlM_cons] at h
    rcases eq_error_or_of_bind_eq_error h with hfirst | ⟨code, -, hrest⟩
    · exact applyFixup_ne_sink hfirst
    · exact ih code hrest

/-! ### Writing into a file -/

/-- A file takes the whole code at its place, or it moves there and takes nothing. -/
theorem emit_eq (p : Placement) (code : Bytes) (o : Output) :
    emit p code o =
      if code.size = 0 ∨ p.offset.toNat + code.size ≤ o.size then
        (.ok (), ⟨o.data.overlay p.offset.toNat code.toList,
          UInt64.ofNat (p.offset.toNat + code.size)⟩)
      else (.error (.sink (.writePastEnd code.size p.offset.toNat o.size)),
        { o with position := p.offset }) := by
  rw [emit, Output.sink_seek]
  split_ifs with hroom
  · have hwrite : Sink.writeAll code { o with position := p.offset } = _ :=
      Output.writeAll_eq_ok (o := { o with position := p.offset }) hroom
    simp only [hwrite, Output.sink_seek]
  · have hwrite : Sink.writeAll code { o with position := p.offset } = _ :=
      Output.writeAll_eq_error (o := { o with position := p.offset }) hroom
    simp only [hwrite]
    rfl

/-- What writing a staged segment into a file does depends on nothing but whether there is room. -/
theorem writeSegment_eq (hn : i.segments[n]? = some s) (hs : s.state = .positioned p)
    (hstage : i.stage s p = .ok code) (o : Output) :
    i.writeSegment n o =
      if s.code.size = 0 ∨ p.offset.toNat + s.code.size ≤ o.size then
        (.ok (), i.markWritten n p, ⟨o.data.overlay p.offset.toNat code.toList,
          UInt64.ofNat (p.offset.toNat + s.code.size)⟩)
      else (.error (.sink (.writePastEnd s.code.size p.offset.toNat o.size)), i,
        { o with position := p.offset }) := by
  simp only [writeSegment, writable_eq_ok_iff.mpr ⟨hn, hs⟩, hstage, emit_eq, size_of_stage hstage]
  split_ifs <;> rfl

/-- A segment that cannot be staged is not written, and the file is not even moved. -/
theorem writeSegment_eq_of_stage_eq_error {e : Error} (hn : i.segments[n]? = some s)
    (hs : s.state = .positioned p) (hstage : i.stage s p = .error e) (o : Output) :
    i.writeSegment n o = (.error e, i, o) := by
  simp only [writeSegment, writable_eq_ok_iff.mpr ⟨hn, hs⟩, hstage]

/-- **There are three ends**: a segment cannot be staged, it is written, or there is no room. -/
theorem writeSegment_cases {result : Except Error Unit} {o' : Output}
    (hn : i.segments[n]? = some s) (hs : s.state = .positioned p)
    (h : i.writeSegment n o = (result, i', o')) :
    (∃ e, i.stage s p = .error e ∧ result = .error e ∧ i' = i ∧ o' = o) ∨
    (∃ code, i.stage s p = .ok code ∧ result = .ok () ∧ i' = i.markWritten n p ∧
      (s.code.size = 0 ∨ p.offset.toNat + s.code.size ≤ o.size) ∧
      o'.data = o.data.overlay p.offset.toNat code.toList) ∨
    (∃ code, i.stage s p = .ok code ∧
      result = .error (.sink (.writePastEnd s.code.size p.offset.toNat o.size)) ∧ i' = i ∧
      o.size < p.offset.toNat + s.code.size ∧ o' = { o with position := p.offset }) := by
  cases hstage : i.stage s p with
  | error e =>
    rw [writeSegment_eq_of_stage_eq_error hn hs hstage] at h
    cases h
    exact Or.inl ⟨e, rfl, rfl, rfl, rfl⟩
  | ok code =>
    rw [writeSegment_eq hn hs hstage] at h
    split_ifs at h with hroom
    · cases h
      exact Or.inr (Or.inl ⟨code, rfl, rfl, rfl, hroom, rfl⟩)
    · cases h
      exact Or.inr (Or.inr ⟨code, rfl, rfl, rfl, by omega, rfl⟩)

/-- A segment that can be staged is written where there is room for it. -/
theorem exists_writeSegment_eq_ok (hn : i.segments[n]? = some s) (hs : s.state = .positioned p)
    (hstage : i.stage s p = .ok code)
    (hroom : s.code.size = 0 ∨ p.offset.toNat + s.code.size ≤ o.size) :
    ∃ i' o', i.writeSegment n o = (.ok (), i', o') :=
  ⟨_, _, (writeSegment_eq hn hs hstage o).trans (if_pos hroom)⟩

/-- What becomes of segment `n`, which lies at `p`, of the image and of the file `o` when the
segment is to be written. -/
structure WritesWhole (i : CodeImage) (n : Nat) (s : Segment) (p : Placement) (o : Output) :
    Prop where
  /-- The segment is written exactly if it can be staged and there is room for it, or no room is
  needed. -/
  ok_iff : (∃ i' o', i.writeSegment n o = (.ok (), i', o')) ↔
    (∃ code, i.stage s p = .ok code) ∧
      (s.code.size = 0 ∨ p.offset.toNat + s.code.size ≤ o.size)
  /-- What it is staged as is written at its place, piece by piece, until none is left. -/
  drained : ∀ code result i' o', i.stage s p = .ok code →
    i.writeSegment n o = (result, i', o') →
    ∃ o₁, Output.Drains code { o with position := p.offset } result o₁ ∧ o'.data = o₁.data
  /-- Once it is written, all of it lies there, and it counts as written. -/
  whole : ∀ i' o', i.writeSegment n o = (.ok (), i', o') →
    i' = i.markWritten n p ∧ ∃ code, i.stage s p = .ok code ∧ o'.size = o.size ∧
      o.data.IsWrittenAt p.offset.toNat code o'.data
  /-- If it is not written, the bytes of the file are as they were, and it is still to be written at
  the same place. -/
  nothing : ∀ e i' o', i.writeSegment n o = (.error e, i', o') →
    o'.data = o.data ∧ i' = i ∧ ∃ s', i'.segments[n]? = some s' ∧ s'.state = .positioned p
  /-- If it cannot be staged, the file is not even moved. -/
  unmoved : ∀ e, i.stage s p = .error e → i.writeSegment n o = (.error e, i, o)
  /-- A fault of the file is that it is too short. -/
  tooShort : ∀ fault i' o', i.writeSegment n o = (.error (.sink fault), i', o') →
    fault = .writePastEnd s.code.size p.offset.toNat o.size ∧
      o.size < p.offset.toNat + s.code.size
  /-- After such a fault, the segment can be written into any file with room for it. -/
  again : ∀ fault i' o', i.writeSegment n o = (.error (.sink fault), i', o') →
    ∀ roomy : Output, p.offset.toNat + s.code.size ≤ roomy.size →
      ∃ i'' roomy', i'.writeSegment n roomy = (.ok (), i'', roomy')

/-- **A segment is written as a whole, or it can be written again.** -/
theorem writesWhole (hn : i.segments[n]? = some s) (hs : s.state = .positioned p) (o : Output) :
    i.WritesWhole n s p o where
  ok_iff := by
    constructor
    · rintro ⟨i', o', h⟩
      obtain ⟨e, -, hresult, -⟩ | ⟨code, hstage, -, -, hroom, -⟩ | ⟨code, -, hresult, -⟩ :=
        writeSegment_cases hn hs h
      · cases hresult
      · exact ⟨⟨code, hstage⟩, hroom⟩
      · cases hresult
    · rintro ⟨⟨code, hstage⟩, hroom⟩
      exact exists_writeSegment_eq_ok hn hs hstage hroom
  drained := by
    intro code result i' o' hstage h
    rw [writeSegment_eq hn hs hstage, ← size_of_stage hstage] at h
    split_ifs at h with hroom
    · cases h
      exact ⟨_, Output.drains_iff.mpr (Output.writeAll_eq_ok hroom), rfl⟩
    · cases h
      exact ⟨_, Output.drains_iff.mpr (Output.writeAll_eq_error hroom), rfl⟩
  whole := by
    intro i' o' h
    obtain ⟨e, -, hresult, -⟩ | ⟨code, hstage, -, hi, hroom, hdata⟩ | ⟨code, -, hresult, -⟩ :=
      writeSegment_cases hn hs h
    · cases hresult
    · rw [← size_of_stage hstage] at hroom
      refine ⟨hi, code, hstage, ?_, ?_⟩
      · rw [Output.size, hdata, Bytes.size_overlay, Output.size]
      · rw [hdata]
        exact Output.isWrittenAt_of_room hroom
    · cases hresult
  nothing := by
    intro e i' o' h
    obtain rfl := writeSegment_error h
    obtain ⟨_, -, -, -, rfl⟩ | ⟨code, -, hresult, -⟩ | ⟨code, -, -, -, -, rfl⟩ :=
      writeSegment_cases hn hs h
    · exact ⟨rfl, rfl, s, hn, hs⟩
    · cases hresult
    · exact ⟨rfl, rfl, s, hn, hs⟩
  unmoved e hstage := writeSegment_eq_of_stage_eq_error hn hs hstage o
  tooShort := by
    intro fault i' o' h
    obtain ⟨e, hstage, hresult, -⟩ | ⟨code, -, hresult, -⟩ | ⟨code, -, hresult, -, hshort, -⟩ :=
      writeSegment_cases hn hs h
    · obtain rfl := Except.error.inj hresult
      exact absurd hstage stage_ne_sink
    · cases hresult
    · cases hresult
      exact ⟨rfl, hshort⟩
  again := by
    intro fault i' o' h roomy hroom
    obtain rfl := writeSegment_error h
    obtain ⟨e, hstage, hresult, -⟩ | ⟨code, hstage, -⟩ | ⟨code, hstage, -⟩ :=
      writeSegment_cases hn hs h
    · obtain rfl := Except.error.inj hresult
      exact absurd hstage stage_ne_sink
    · exact exists_writeSegment_eq_ok hn hs hstage (Or.inr hroom)
    · exact exists_writeSegment_eq_ok hn hs hstage (Or.inr hroom)

/-- The call of the scattered segments reaches one byte past the end of a file of eight bytes; then
it is written into one of nine. -/
theorem writesWhole_scattered :
    ∃ s, scattered.segments[0]? = some s ∧ s.state = .positioned ⟨4, 0x1000⟩ ∧
      scattered.writeSegment 0 (Output.create 8) =
        (.error (.sink (.writePastEnd 5 4 8)), scattered, ⟨.zeros 8, 4⟩) ∧
      scattered.WritesWhole 0 s ⟨4, 0x1000⟩ (.create 8) ∧
      (∃ i' o', scattered.writeSegment 0 (Output.create 9) = (.ok (), i', o')) ∧
      scattered.WritesWhole 0 s ⟨4, 0x1000⟩ (.create 9) := by
  have hwhole := fun o : Output => writesWhole (i := scattered) (n := 0) rfl rfl o
  have hfails : scattered.writeSegment 0 (Output.create 8) =
      (.error (.sink (.writePastEnd 5 4 8)), scattered, ⟨.zeros 8, 4⟩) := rfl
  exact ⟨_, rfl, rfl, hfails, hwhole _, (hwhole _).again _ _ _ hfails _ (by decide), hwhole _⟩

end CodeImage

end ManagedImage
