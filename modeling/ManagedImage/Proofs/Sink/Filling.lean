import ManagedImage.Proofs.Sink.Contents

/-!
# Filling an output file

An output file is an array of fixed size with a cursor.  Calls are told by a log, which has the bytes
of every write that succeeded and where the cursor stood.  A byte of the file is the one that was
written there last, or zero; a call that is not allowed changes nothing.

## Main definitions

* `Output.Call` — what can be done with an open file.
* `Output.Entry` — a write that succeeded.
* `Output.run` — a file after some calls, with their log.
* `Output.IsExact` — the file is what the log tells, and does what it should.

## Main results

* `Output.data_run` — the contents are those at the start, overlaid with the log in order.
* `Output.getElem?_foldl_lay` — of the entries that cover a byte, the last one wins.
* `Output.isExact_run` — **an output file is an array with a cursor**, and it is on disk when it has
  been finalised.
-/

namespace ManagedImage

namespace Output

/-! ### Calls -/

/-- What can be done with an open file. -/
inductive Call where
  /-- Writes at the cursor. -/
  | write (bytes : Bytes)
  /-- Writes all bytes at the cursor. -/
  | writeAll (bytes : Bytes)
  /-- Moves the cursor. -/
  | seek (goal : SeekTarget)
  /-- Hands the contents over to the system. -/
  | flush
  deriving DecidableEq, Repr

/-- A write that succeeded. -/
structure Entry where
  /-- Where the cursor stood. -/
  start : Nat
  /-- The bytes. -/
  bytes : Bytes
  deriving DecidableEq, Repr

/-- The entry of a write, if it succeeds. -/
def Entry.ofResult {α : Type} (o : Output) (bytes : Bytes) : Except Error α → List Entry
  | .ok _ => [⟨o.position.toNat, bytes⟩]
  | .error _ => []

namespace Call

/-- What a call gives when it succeeds. -/
abbrev Answer : Call → Type
  | write _ => Nat
  | writeAll _ => Unit
  | seek _ => UInt64
  | flush => Unit

/-- Makes a call. -/
def perform : (c : Call) → Output → Except Error c.Answer × Output
  | write bytes, o => o.write bytes
  | writeAll bytes, o => o.writeAll bytes
  | seek goal, o => o.seek goal
  | flush, o => o.flush

/-- Where the cursor stands after a call that succeeds. -/
def cursor (o : Output) : Call → Int
  | write bytes | writeAll bytes => o.position.toNat + bytes.size
  | seek (.start offset) => offset.toNat
  | seek (.fromEnd delta) => o.size + delta
  | seek (.current delta) => o.position.toNat + delta
  | flush => o.position.toNat

/-- The call is in order: what it writes fits, and there is a position where it moves the cursor. -/
def IsAllowed (o : Output) : Call → Prop
  | write bytes => o.position.toNat + bytes.size ≤ o.size
  | writeAll bytes => bytes.size = 0 ∨ o.position.toNat + bytes.size ≤ o.size
  | seek goal => 0 ≤ cursor o (seek goal) ∧ cursor o (seek goal) < UInt64.size
  | flush => True

/-- What a call has to give when it leaves the file as `o`. -/
def answer (o : Output) : (c : Call) → c.Answer
  | write bytes => bytes.size
  | writeAll _ => ()
  | seek _ => o.position
  | flush => ()

/-- What a call adds to the log: its bytes, if it is a write and succeeds. -/
def entries (o : Output) : Call → List Entry
  | write bytes => Entry.ofResult o bytes (o.write bytes).1
  | writeAll bytes => Entry.ofResult o bytes (o.writeAll bytes).1
  | seek _ | flush => []

end Call

/-- Overlays an entry. -/
def lay (data : Bytes) (e : Entry) : Bytes := data.overlay e.start e.bytes.toList

/-- The entry lies within a file of `size` bytes, if it has bytes at all. -/
def Entry.Fits (e : Entry) (size : Nat) : Prop := e.bytes.size = 0 ∨ e.start + e.bytes.size ≤ size

/-- The byte that the entry has for `k`, if it covers `k`. -/
def Entry.byte? (e : Entry) (k : Nat) : Option UInt8 :=
  if e.start ≤ k then e.bytes[k - e.start]? else none

variable {o o' start : Output} {log : List Entry} {e : Entry} {data : Bytes}

/-! ### What one call does -/

variable {bytes : Bytes} {goal : SeekTarget}

/-- A move asks for the position where it should end. -/
theorem target_eq (o : Output) (goal : SeekTarget) : o.target goal = (Call.seek goal).cursor o := by
  cases goal <;> rfl

/-- A move to where there are positions goes there. -/
theorem exists_seek_eq_ok (h : (Call.seek goal).IsAllowed o) :
    ∃ position, o.seek goal = (.ok position, { o with position }) ∧
      (position.toNat : Int) = (Call.seek goal).cursor o := by
  rw [Call.IsAllowed, ← target_eq] at h
  rw [← target_eq]
  have hlt : (o.target goal).toNat < UInt64.size := by omega
  refine ⟨UInt64.ofNat (o.target goal).toNat, if_pos ⟨h.1, hlt⟩, ?_⟩
  rw [UInt64.toNat_ofNat_of_lt' hlt, Int.toNat_of_nonneg h.1]

/-- A move to somewhere else fails. -/
theorem seek_eq_error (h : ¬(Call.seek goal).IsAllowed o) :
    o.seek goal = (.error (.sink .seekOutOfRange), o) := by
  rw [Call.IsAllowed, ← target_eq] at h
  refine if_neg fun hin => h ⟨hin.1, ?_⟩
  have hlt := hin.2
  omega

/-- A call that is not allowed fails and changes nothing. -/
theorem Call.perform_of_not_isAllowed {c : Call} (h : ¬c.IsAllowed o) :
    ∃ fault, c.perform o = (.error (.sink fault), o) := by
  cases c with
  | write bytes => exact ⟨_, write_eq_error h⟩
  | writeAll bytes => exact ⟨_, writeAll_eq_error h⟩
  | seek goal => exact ⟨_, seek_eq_error h⟩
  | flush => exact absurd trivial h

/-- A call that is allowed succeeds and moves the cursor as it should. -/
theorem Call.perform_of_isAllowed {c : Call} (ho : o.size < UInt64.size) (h : c.IsAllowed o) :
    ∃ o', c.perform o = (.ok (c.answer o'), o') ∧ (o'.position.toNat : Int) = c.cursor o := by
  -- the cursor cannot get past 64 bits: it stays where it was or within the file
  have hbehind : ∀ {size : Nat}, size = 0 ∨ o.position.toNat + size ≤ o.size →
      ((UInt64.ofNat (o.position.toNat + size)).toNat : Int) = o.position.toNat + size := by
    intro size hroom
    have hlt : o.position.toNat + size < UInt64.size := by
      rcases hroom with rfl | hfits
      · exact o.position.toNat_lt
      · exact Nat.lt_of_le_of_lt hfits ho
    rw [UInt64.toNat_ofNat_of_lt' hlt, Int.natCast_add]
  cases c with
  | write bytes => exact ⟨_, write_eq_ok h, hbehind (Or.inr h)⟩
  | writeAll bytes => exact ⟨_, writeAll_eq_ok h, hbehind h⟩
  | seek goal =>
    obtain ⟨position, hseek, hposition⟩ := exists_seek_eq_ok h
    exact ⟨{ o with position }, hseek, hposition⟩
  | flush => exact ⟨o, rfl, rfl⟩

/-- **A call lays its entries over the contents**, and they fit. -/
theorem Call.data_perform (c : Call) (o : Output) :
    (c.perform o).2.data = (c.entries o).foldl lay o.data ∧ ∀ e ∈ c.entries o, e.Fits o.size := by
  cases c with
  | write bytes =>
    rw [perform, entries]
    by_cases hfits : o.position.toNat + bytes.size ≤ o.size
    · rw [write_eq_ok hfits]
      exact ⟨rfl, List.forall_mem_singleton.mpr (Or.inr hfits)⟩
    · rw [write_eq_error hfits]
      exact ⟨rfl, List.forall_mem_nil _⟩
  | writeAll bytes =>
    rw [perform, entries]
    by_cases hroom : bytes.size = 0 ∨ o.position.toNat + bytes.size ≤ o.size
    · rw [writeAll_eq_ok hroom]
      exact ⟨rfl, List.forall_mem_singleton.mpr hroom⟩
    · rw [writeAll_eq_error hroom]
      exact ⟨rfl, List.forall_mem_nil _⟩
  | seek goal =>
    refine ⟨?_, List.forall_mem_nil _⟩
    rw [perform]
    by_cases hin : (Call.seek goal).IsAllowed o
    · obtain ⟨position, hseek, -⟩ := exists_seek_eq_ok hin
      rw [hseek]
      rfl
    · rw [seek_eq_error hin]
      rfl
  | flush => exact ⟨rfl, List.forall_mem_nil _⟩

/-! ### What many calls do -/

/-- Makes calls one after the other, whether they succeed or not, and gives their log. -/
def run : List Call → Output → List Entry × Output
  | [], o => ([], o)
  | c :: calls, o =>
    let (log, o') := run calls (c.perform o).2
    (c.entries o ++ log, o')

theorem size_foldl_lay (log : List Entry) (data : Bytes) : (log.foldl lay data).size = data.size := by
  induction log generalizing data with
  | nil => rfl
  | cons e log ih => exact (ih _).trans (Bytes.size_overlay ..)

/-- **The contents are those at the start, overlaid with the log in order.** -/
theorem data_run (calls : List Call) (o : Output) :
    (run calls o).2.data = (run calls o).1.foldl lay o.data ∧
      ∀ e ∈ (run calls o).1, e.Fits o.size := by
  induction calls generalizing o with
  | nil => exact ⟨rfl, List.forall_mem_nil _⟩
  | cons c calls ih =>
    obtain ⟨hfirst, hfits⟩ := c.data_perform o
    obtain ⟨hrest, hfits'⟩ := ih (c.perform o).2
    rw [Output.size, hfirst, size_foldl_lay] at hfits'
    refine ⟨?_, fun e he => ?_⟩
    · rw [run, List.foldl_append, ← hfirst]
      exact hrest
    · rcases List.mem_append.mp he with he | he
      · exact hfits e he
      · exact hfits' e he

/-- The byte that was written last at `k`, if there is one. -/
def lastByte? (log : List Entry) (k : Nat) : Option UInt8 :=
  log.reverse.findSome? fun e => e.byte? k

/-- An earlier entry comes in only where no later one covers the byte. -/
theorem lastByte?_cons (e : Entry) (log : List Entry) (k : Nat) :
    lastByte? (e :: log) k = (lastByte? log k).or (e.byte? k) := by
  rw [lastByte?, List.reverse_cons, List.findSome?_append, List.findSome?_singleton, lastByte?]

theorem getElem?_lay (h : e.Fits data.size) (k : Nat) :
    (lay data e)[k]? = (e.byte? k).or data[k]? := by
  obtain ⟨offset, bytes⟩ := e
  rcases h with hempty | hfits
  · obtain rfl := Array.eq_empty_of_size_eq_zero hempty
    simp [lay, Entry.byte?]
  · rw [lay, Bytes.getElem?_overlay hfits, Entry.byte?, Array.length_toList,
      Array.getElem?_toList]
    dsimp only
    by_cases hstart : offset ≤ k
    · by_cases hstop : k < offset + bytes.size
      · have hk : k - offset < bytes.size := Nat.sub_lt_left_of_lt_add hstart hstop
        simp [hstart, hstop, Array.getElem?_eq_getElem hk]
      · have hk : bytes.size ≤ k - offset := by omega
        simp [hstart, hstop, Array.getElem?_eq_none hk]
    · simp [hstart]

/-- **Of the entries that cover a byte, the last one wins**; a byte that none covers stays. -/
theorem getElem?_foldl_lay (h : ∀ e ∈ log, e.Fits data.size) (k : Nat) :
    (log.foldl lay data)[k]? = (lastByte? log k).or data[k]? := by
  induction log generalizing data with
  | nil => rfl
  | cons e log ih =>
    obtain ⟨he, hlog⟩ := List.forall_mem_cons.mp h
    have hsize : (lay data e).size = data.size := Bytes.size_overlay ..
    rw [List.foldl_cons, ih (hsize ▸ hlog), getElem?_lay he, lastByte?_cons, Option.or_assoc]

/-! ### An array with a cursor -/

/-- A file of `size` bytes is what the log tells, and does what it should. -/
structure IsExact (o : Output) (size : Nat) (log : List Entry) : Prop where
  /-- The size never changes. -/
  size_eq : o.size = size
  /-- A byte is the one that was written last, or zero. -/
  byte : ∀ k < size, o.data[k]? = some ((lastByte? log k).getD 0)
  /-- A call that is allowed succeeds, and the cursor is moved. -/
  succeeds : ∀ c : Call, c.IsAllowed o →
    ∃ o', c.perform o = (.ok (c.answer o'), o') ∧ (o'.position.toNat : Int) = c.cursor o
  /-- Any other call fails and changes nothing. -/
  fails : ∀ c : Call, ¬c.IsAllowed o → ∃ fault, c.perform o = (.error (.sink fault), o)
  /-- The contents are on disk once the file is finalised. -/
  kept : (OutputFile.opened o).finalize.drop.contents? = some o.data
  /-- There is no file any more once it is given up. -/
  removed : (OutputFile.opened o).drop.contents? = none

/-- **An output file is an array of fixed size with a cursor**, whatever calls have been made since
it was created. -/
theorem isExact_run {size : UInt64} {directoryExists : Bool}
    (h : OutputFile.create directoryExists size.toNat = .ok (.opened start)) (calls : List Call) :
    (run calls start).2.IsExact size.toNat (run calls start).1 := by
  have hstart : start = create size.toNat := by
    rw [OutputFile.create] at h
    split at h
    · exact (OutputFile.opened.inj (Except.ok.inj h)).symm
    · cases h
  subst hstart
  obtain ⟨hdata, hfits⟩ := data_run calls (create size.toNat)
  have hsize : (run calls (create size.toNat)).2.size = size.toNat := by
    rw [Output.size, hdata, size_foldl_lay]
    exact Bytes.size_zeros _
  refine ⟨hsize, fun k hk => ?_, fun c => ?_, fun c => Call.perform_of_not_isAllowed, rfl, rfl⟩
  · have hzero : (create size.toNat).data[k]? = some 0 :=
      Array.getElem?_replicate.trans (if_pos hk)
    rw [hdata, getElem?_foldl_lay hfits, hzero]
    cases lastByte? (run calls (create size.toNat)).1 k <;> rfl
  · refine Call.perform_of_isAllowed ?_
    rw [hsize]
    exact size.toNat_lt

/-- Writes that succeed, overlap or pass the end, and moves behind the end and before the start. -/
def sampleCalls : List Call :=
  [.write #[1, 2, 3], .seek (.current (-2)), .writeAll #[9], .seek (.start 100), .write #[7],
    .writeAll #[], .seek (.fromEnd (-7)), .flush, .seek (.fromEnd (-1)), .write #[4]]

theorem isExact_sampleCalls :
    OutputFile.create true (6 : UInt64).toNat = .ok (.opened (.create 6)) ∧
      (run sampleCalls (create 6)).1 = [⟨0, #[1, 2, 3]⟩, ⟨1, #[9]⟩, ⟨100, #[]⟩, ⟨5, #[4]⟩] ∧
      (run sampleCalls (create 6)).2.IsExact 6 (run sampleCalls (create 6)).1 := by
  have hcreate : OutputFile.create true (6 : UInt64).toNat = .ok (.opened (.create 6)) := rfl
  exact ⟨hcreate, by decide +kernel, isExact_run hcreate sampleCalls⟩

end Output

end ManagedImage
