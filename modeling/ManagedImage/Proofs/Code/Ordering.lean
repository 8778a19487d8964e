import ManagedImage.Proofs.Code.Patching
import ManagedImage.Proofs.Sink.Room

/-!
# Segments may be written in any order

Segments that have no byte of the file in common do not get in the way of each other: writing one
changes neither what another one is staged as nor whether there is room for it, and what they leave
in the sink commutes.  So only the position of the sink tells in which order they were written.

## Main definitions

* `CodeImage.Stages` — what a segment is staged as, and where.
* `CodeImage.IsReady` — all segments can be written, each at a place of its own.
* `CodeImage.IsWrittenOut` — what is left when all segments have been written.
* `CodeImage.IsOrderFree` — all orders of writing leave the same image and the same bytes.

## Main results

* `CodeImage.exists_writeSegments` — what writing some segments, each once, leaves behind.
* `CodeImage.IsReady.isOrderFree` — **segments may be written in any order**, into a buffer that grows
  and into a file with enough room.
-/

namespace ManagedImage

namespace CodeImage

open LawfulSink RoomySink

variable {i i' : CodeImage} {m n : Nat} {ns : List Nat} {p q : Placement} {f : Fixup} {s : Segment}
  {code code' : Bytes}

/-! ### What a segment is staged as -/

/-- Segment `n` lies at `p`, and `code` is its code with all operands filled in. -/
def Stages (i : CodeImage) (n : Nat) (p : Placement) (code : Bytes) : Prop :=
  ∃ s, i.segments[n]? = some s ∧ s.state = .positioned p ∧ i.stage s p = .ok code

theorem size_of_applyFixup (h : i.applyFixup p code f = .ok code') : code'.size = code.size := by
  obtain ⟨target, -, h⟩ := exists_of_bind_eq_ok h
  obtain ⟨v, -, h⟩ := exists_of_bind_eq_ok h
  split at h
  · obtain rfl := Except.ok.inj h
    exact Bytes.size_overlay ..
  · cases h

/-- Filling in operands does not change how long the code is. -/
theorem size_of_stage (h : i.stage s p = .ok code) : code.size = s.code.size := by
  obtain ⟨start, fixups, state⟩ := s
  change fixups.foldlM (i.applyFixup p) start = .ok code at h
  change code.size = start.size
  induction fixups generalizing start with
  | nil => rw [Except.ok.inj h]
  | cons f fixups ih =>
    rw [List.foldlM_cons] at h
    obtain ⟨code₁, hfirst, h⟩ := exists_of_bind_eq_ok h
    exact (ih code₁ h).trans (size_of_applyFixup hfirst)

/-- Writing a segment does not touch the others. -/
theorem Stages.markWritten (h : i.Stages n p code) (hne : m ≠ n) (q : Placement) :
    (i.markWritten m q).Stages n p code := by
  obtain ⟨s, hn, hs, hstage⟩ := h
  refine ⟨s, ?_, hs, hstage⟩
  rw [getElem?_markWritten, if_neg hne, hn]

/-- Segments are marked in any order. -/
theorem markWritten_comm (i : CodeImage) (hne : m ≠ n) (p q : Placement) :
    (i.markWritten m p).markWritten n q = (i.markWritten n q).markWritten m p := by
  have hsegments : ((i.markWritten m p).markWritten n q).segments =
      ((i.markWritten n q).markWritten m p).segments := by
    refine Array.ext_getElem? fun k => ?_
    simp only [getElem?_markWritten]
    by_cases hm : m = k
    · have hn : n ≠ k := fun hn => hne (hm.trans hn.symm)
      simp only [if_pos hm, if_neg hn]
    · simp only [if_neg hm]
  exact congrArg (fun segments => { i with segments }) hsegments

/-! ### Many segments at once -/

section Folds

variable {place : Nat → Placement} {stagedAs : Nat → Bytes} {ns' : List Nat}

/-- The image with segments marked as written. -/
def markAll (place : Nat → Placement) (ns : List Nat) (i : CodeImage) : CodeImage :=
  ns.foldl (fun i n => i.markWritten n (place n)) i

theorem markAll_perm (hperm : ns.Perm ns') (i : CodeImage) :
    markAll place ns i = markAll place ns' i := by
  refine hperm.foldl_eq' (fun m _ n _ i => ?_) i
  rcases eq_or_ne m n with rfl | hne
  · rfl
  · exact markWritten_comm i hne _ _

/-- A segment that is marked is marked last in some order. -/
theorem getElem?_markAll (hnodup : ns.Nodup) (hn : n ∈ ns) (hs : i.segments[n]? = some s) :
    (markAll place ns i).segments[n]? = some { s with state := .written (place n) } := by
  have hkeep : ∀ ms : List Nat, n ∉ ms → (markAll place ms i).segments[n]? = some s := by
    intro ms hms
    induction ms generalizing i with
    | nil => exact hs
    | cons m ms ih =>
      obtain ⟨hne, hms⟩ := List.ne_and_not_mem_of_not_mem_cons hms
      refine ih ?_ hms
      rw [getElem?_markWritten, if_neg hne.symm, hs]
  have hlast : ns.Perm (ns.erase n ++ [n]) :=
    (List.perm_cons_erase hn).trans (List.perm_append_singleton n _).symm
  rw [markAll_perm hlast, markAll, List.foldl_append]
  change ((markAll place (ns.erase n) i).markWritten n (place n)).segments[n]? = _
  rw [getElem?_markWritten, if_pos rfl, hkeep _ (hnodup.not_mem_erase), Option.map_some]

variable {S : Type} [Sink S] [RoomySink S] {data : Bytes} {k : Nat}

/-- The contents after segments have been written. -/
def fillAll (S : Type) [Sink S] [RoomySink S] (place : Nat → Placement) (stagedAs : Nat → Bytes)
    (ns : List Nat) (data : Bytes) : Bytes :=
  ns.foldl (fun data n => filled S (place n).offset.toNat (stagedAs n) data) data

theorem fillAll_perm (hperm : ns.Perm ns')
    (hapart : ∀ m ∈ ns, ∀ n ∈ ns, m ≠ n → Bytes.Apart (place m).offset.toNat (stagedAs m).size
      (place n).offset.toNat (stagedAs n).size) (data : Bytes) :
    fillAll S place stagedAs ns data = fillAll S place stagedAs ns' data := by
  refine hperm.foldl_eq' (fun m hm n hn data => ?_) data
  rcases eq_or_ne m n with rfl | hne
  · rfl
  · exact filled_comm data (hapart m hm n hn hne)

theorem hasRoom_fillAll {offset : Nat} {bytes : Bytes} (ns : List Nat)
    (h : HasRoom S offset bytes data) :
    HasRoom S offset bytes (fillAll S place stagedAs ns data) := by
  induction ns generalizing data with
  | nil => exact h
  | cons n ns ih => exact ih (hasRoom_filled h)

/-- What a segment is staged as lies at its place: it might have been written last. -/
theorem getElem?_fillAll
    (hapart : ∀ m ∈ ns, ∀ n ∈ ns, m ≠ n → Bytes.Apart (place m).offset.toNat (stagedAs m).size
      (place n).offset.toNat (stagedAs n).size) (hn : n ∈ ns)
    (hroom : HasRoom S (place n).offset.toNat (stagedAs n) data) (hk : k < (stagedAs n).size) :
    (fillAll S place stagedAs ns data)[(place n).offset.toNat + k]? = (stagedAs n)[k]? := by
  have hlast : ns.Perm (ns.erase n ++ [n]) :=
    (List.perm_cons_erase hn).trans (List.perm_append_singleton n _).symm
  rw [fillAll_perm hlast hapart, fillAll, List.foldl_append]
  exact (isWrittenAt_filled (hasRoom_fillAll (ns.erase n) hroom)).inside k hk

/-- A byte at which no segment lies is kept. -/
theorem isKept_fillAll
    (hroom : ∀ n ∈ ns, HasRoom S (place n).offset.toNat (stagedAs n) data)
    (hk : ∀ n ∈ ns, ¬Bytes.Within (place n).offset.toNat (stagedAs n).size k) :
    data.IsKept (fillAll S place stagedAs ns data) k := by
  induction ns generalizing data with
  | nil => exact Or.inl rfl
  | cons n ns ih =>
    obtain ⟨hfirst, hrest⟩ := List.forall_mem_cons.mp hroom
    obtain ⟨hk, hk'⟩ := List.forall_mem_cons.mp hk
    refine ((isWrittenAt_filled hfirst).isKept hk).trans (ih (fun m hm => ?_) hk')
    exact hasRoom_filled (hrest m hm)

end Folds

/-! ### What is left behind -/

section Writing

variable {S : Type} [Sink S] [RoomySink S] {sink : S}

/-- Where there is room for code, it is taken, and the sink stands behind it. -/
theorem exists_emit (hroom : HasRoom S p.offset.toNat code (contents sink)) :
    ∃ sink', emit p code sink = (.ok (), sink') ∧
      contents sink' = filled S p.offset.toNat code (contents sink) ∧
      position sink' = (UInt64.ofNat (p.offset.toNat + code.size)).toNat := by
  obtain ⟨sink₁, hseek⟩ := exists_seek p.offset sink
  rw [← contents_seek hseek, ← position_seek hseek] at hroom ⊢
  obtain ⟨sink₂, hwrite, hcontents⟩ := exists_writeAll hroom
  obtain ⟨sink₃, hback⟩ :=
    exists_seek (UInt64.ofNat (position sink₁ + code.size)) sink₂
  refine ⟨sink₃, ?_, (contents_seek hback).trans hcontents, position_seek hback⟩
  rw [position_seek hseek] at hback
  simp only [emit, hseek, hwrite, hback]

theorem exists_writeSegment (h : i.Stages n p code)
    (hroom : HasRoom S p.offset.toNat code (contents sink)) :
    ∃ sink', i.writeSegment n sink = (.ok (), i.markWritten n p, sink') ∧
      contents sink' = filled S p.offset.toNat code (contents sink) ∧
      position sink' = (UInt64.ofNat (p.offset.toNat + code.size)).toNat := by
  obtain ⟨s, hn, hs, hstage⟩ := h
  obtain ⟨sink', hemit, hleft⟩ := exists_emit hroom
  refine ⟨sink', ?_, hleft⟩
  simp only [writeSegment, writable_eq_ok_iff.mpr ⟨hn, hs⟩, hstage, hemit]

/-- **What writing some segments leaves behind**, if there is room for each of them. -/
theorem exists_writeSegments {place : Nat → Placement} {stagedAs : Nat → Bytes}
    (hnodup : ns.Nodup) (hstages : ∀ n ∈ ns, i.Stages n (place n) (stagedAs n))
    (hroom : ∀ n ∈ ns, HasRoom S (place n).offset.toNat (stagedAs n) (contents sink)) :
    ∃ sink', i.writeSegments ns sink = (.ok (), markAll place ns i, sink') ∧
      contents sink' = fillAll S place stagedAs ns (contents sink) ∧
      position sink' = (ns.getLast?.map fun n =>
        (UInt64.ofNat ((place n).offset.toNat + (stagedAs n).size)).toNat).getD
          (position sink) := by
  induction ns generalizing i sink with
  | nil => exact ⟨sink, rfl, rfl, rfl⟩
  | cons n ns ih =>
    obtain ⟨hn, hnodup⟩ := List.nodup_cons.mp hnodup
    -- the first one written, the others are staged as before, and there is as much room for them
    obtain ⟨sink₁, hwrite, hcontents, hposition⟩ :=
      exists_writeSegment (hstages n List.mem_cons_self) (hroom n List.mem_cons_self)
    have hrest : ∀ m ∈ ns, (i.markWritten n (place n)).Stages m (place m) (stagedAs m) := by
      intro m hm
      refine (hstages m (List.mem_cons_of_mem n hm)).markWritten (fun heq => hn ?_) _
      rwa [heq]
    have hroom' : ∀ m ∈ ns, HasRoom S (place m).offset.toNat (stagedAs m) (contents sink₁) := by
      intro m hm
      rw [hcontents]
      exact hasRoom_filled (hroom m (List.mem_cons_of_mem n hm))
    obtain ⟨sink', hwrites, hleft, hstop⟩ := ih hnodup hrest hroom'
    refine ⟨sink', ?_, ?_, ?_⟩
    · simp only [writeSegments, hwrite, hwrites]
      rfl
    · rw [hleft, hcontents]
      rfl
    · rw [hstop, hposition, List.getLast?_cons]
      cases ns.getLast? <;> rfl

end Writing

/-! ### Any order -/

/-- Every segment can be written, and no two have a byte of the file in common. -/
structure IsReady (i : CodeImage) : Prop where
  /-- Each segment has a place and has not been written. -/
  placed : ∀ s ∈ i.segments, ∃ p, s.state = .positioned p
  /-- Each can be staged there. -/
  staged : ∀ s ∈ i.segments, ∀ p, s.state = .positioned p → ∃ code, i.stage s p = .ok code
  /-- Their places are apart. -/
  apart : ∀ {m n : Nat} {s t : Segment} {p q : Placement}, m ≠ n →
    i.segments[m]? = some s → i.segments[n]? = some t →
    s.state = .positioned p → t.state = .positioned q →
    Bytes.Apart p.offset.toNat s.code.size q.offset.toNat t.code.size

/-- Positions reach up to the ends of all segments. -/
def IsAddressable (i : CodeImage) : Prop :=
  ∀ s ∈ i.segments, ∀ p, s.state = .positioned p → p.offset.toNat + s.code.size < UInt64.size

/-- The file has room for all segments; one without code may lie anywhere. -/
def FitsInto (i : CodeImage) (o : Output) : Prop :=
  ∀ s ∈ i.segments, ∀ p, s.state = .positioned p →
    s.code.size = 0 ∨ p.offset.toNat + s.code.size ≤ o.size

/-- The end of the last one of some segments. -/
def stop? (i : CodeImage) (ns : List Nat) : Option Nat := do
  let n ← ns.getLast?
  let s ← i.segments[n]?
  let p ← s.state.placement?
  return p.offset.toNat + s.code.size

/-- What becomes of an image and of the contents `data` of a sink when all segments are written. -/
structure IsWrittenOut (i : CodeImage) (data : Bytes) (i' : CodeImage) (data' : Bytes) : Prop where
  /-- Every segment is marked. -/
  marked : ∀ (n : Nat) (s : Segment) (p : Placement), i.segments[n]? = some s →
    s.state = .positioned p → i'.segments[n]? = some { s with state := .written p }
  /-- What it is staged as lies at its place. -/
  inside : ∀ n p code, i.Stages n p code → ∀ k < code.size,
    data'[p.offset.toNat + k]? = code[k]?
  /-- All other bytes are as they were, or zeros where there were none. -/
  outside : ∀ k, (∀ n p code, i.Stages n p code → ¬Bytes.Within p.offset.toNat code.size k) →
    data.IsKept data' k

/-- All orders in which all segments can be written succeed, and they leave the same image and the
same bytes in the sink, which stands behind the segment that was written last. -/
def IsOrderFree {S : Type} [Sink S] [LawfulSink S] (i : CodeImage) (sink : S) : Prop :=
  ∃ i' data, i.IsWrittenOut (contents sink) i' data ∧
    (∀ ns, ns.Perm (List.range i.segments.size) →
      ∃ sink', i.writeSegments ns sink = (.ok (), i', sink') ∧ contents sink' = data ∧
        position sink' = (i.stop? ns).getD (position sink)) ∧
    ∃ sink', i.writeAll sink = (.ok (), i', sink') ∧ contents sink' = data

theorem IsReady.exists_stages (h : i.IsReady) (hn : n < i.segments.size) :
    ∃ p code, i.Stages n p code := by
  obtain ⟨p, hp⟩ := h.placed _ (Array.getElem_mem hn)
  obtain ⟨code, hcode⟩ := h.staged _ (Array.getElem_mem hn) p hp
  exact ⟨p, code, _, Array.getElem?_eq_getElem hn, hp, hcode⟩

/-- What different segments are staged as is apart. -/
theorem IsReady.apart_of_stages (h : i.IsReady) (hne : m ≠ n) (hm : i.Stages m p code)
    (hn : i.Stages n q code') :
    Bytes.Apart p.offset.toNat code.size q.offset.toNat code'.size := by
  obtain ⟨s, hm, hs, hstage⟩ := hm
  obtain ⟨t, hn, ht, hstage'⟩ := hn
  rw [size_of_stage hstage, size_of_stage hstage']
  exact h.apart hne hm hn hs ht

/-- A segment is staged in one way. -/
theorem Stages.unique (h : i.Stages n p code) (h' : i.Stages n q code') : p = q ∧ code = code' := by
  obtain ⟨s, hn, hs, hstage⟩ := h
  obtain ⟨t, hn', ht, hstage'⟩ := h'
  obtain rfl := Option.some.inj (hn.symm.trans hn')
  obtain rfl := SegmentState.positioned.inj (hs.symm.trans ht)
  exact ⟨rfl, Except.ok.inj (hstage.symm.trans hstage')⟩

theorem Stages.lt_size (h : i.Stages n p code) : n < i.segments.size := by
  obtain ⟨s, hn, -, -⟩ := h
  exact (Array.getElem?_eq_some_iff.mp hn).1

/-- The sink stands at the end of the last segment. -/
theorem stop?_eq {place : Nat → Placement} {stagedAs : Nat → Bytes}
    (haddressable : i.IsAddressable) (hstages : ∀ n ∈ ns, i.Stages n (place n) (stagedAs n)) :
    i.stop? ns = ns.getLast?.map fun n =>
      (UInt64.ofNat ((place n).offset.toNat + (stagedAs n).size)).toNat := by
  rw [stop?]
  cases hlast : ns.getLast? with
  | none => rfl
  | some n =>
    obtain ⟨s, hn, hs, hstage⟩ := hstages n (List.mem_of_getLast? hlast)
    have hlt := haddressable s (Array.mem_of_getElem? hn) _ hs
    rw [Option.map_some, size_of_stage hstage, UInt64.toNat_ofNat_of_lt' hlt]
    simp [hn, hs, SegmentState.placement?]

section Generic

variable {S : Type} [Sink S] [RoomySink S] {sink : S} {data : Bytes} {place : Nat → Placement}
  {stagedAs : Nat → Bytes}

theorem IsReady.isWrittenOut (h : i.IsReady)
    (hstages : ∀ n < i.segments.size, i.Stages n (place n) (stagedAs n))
    (hroom : ∀ n p code, i.Stages n p code → HasRoom S p.offset.toNat code data) :
    i.IsWrittenOut data (markAll place (List.range i.segments.size) i)
      (fillAll S place stagedAs (List.range i.segments.size) data) where
  marked := by
    intro n s p hn hs
    have hlt : n < i.segments.size := (Array.getElem?_eq_some_iff.mp hn).1
    obtain ⟨t, ht, hstate, -⟩ := hstages n hlt
    obtain rfl := Option.some.inj (hn.symm.trans ht)
    obtain rfl := SegmentState.positioned.inj (hs.symm.trans hstate)
    exact getElem?_markAll List.nodup_range (List.mem_range.mpr hlt) hn
  inside := by
    intro n p code hn k hk
    obtain ⟨rfl, rfl⟩ := (hstages n hn.lt_size).unique hn
    refine getElem?_fillAll (fun m hm n hn hne => ?_) (List.mem_range.mpr hn.lt_size)
      (hroom n _ _ hn) hk
    exact h.apart_of_stages hne (hstages m (List.mem_range.mp hm)) (hstages n (List.mem_range.mp hn))
  outside := by
    intro k hk
    have hmem : ∀ n ∈ List.range i.segments.size, i.Stages n (place n) (stagedAs n) :=
      fun n hn => hstages n (List.mem_range.mp hn)
    exact isKept_fillAll (fun n hn => hroom n _ _ (hmem n hn)) fun n hn => hk n _ _ (hmem n hn)

/-- **Segments may be written in any order** where there is room for all of them. -/
theorem IsReady.isOrderFree (h : i.IsReady) (haddressable : i.IsAddressable)
    (hroom : ∀ n p code, i.Stages n p code → HasRoom S p.offset.toNat code (contents sink)) :
    i.IsOrderFree sink := by
  have : Nonempty Placement := ⟨⟨0, 0⟩⟩
  choose! place stagedAs hstages using fun n => h.exists_stages (n := n)
  have hruns : ∀ ns, ns.Perm (List.range i.segments.size) →
      ∃ sink', i.writeSegments ns sink =
          (.ok (), markAll place (List.range i.segments.size) i, sink') ∧
        contents sink' =
          fillAll S place stagedAs (List.range i.segments.size) (contents sink) ∧
        position sink' = (i.stop? ns).getD (position sink) := by
    intro ns hperm
    have hmem : ∀ n ∈ ns, i.Stages n (place n) (stagedAs n) :=
      fun n hn => hstages n (List.mem_range.mp (hperm.mem_iff.mp hn))
    have hfits : ∀ n ∈ ns, HasRoom S (place n).offset.toNat (stagedAs n) (contents sink) :=
      fun n hn => hroom n _ _ (hmem n hn)
    obtain ⟨sink', hwrites, hcontents, hposition⟩ :=
      exists_writeSegments (hperm.nodup_iff.mpr List.nodup_range) hmem hfits
    refine ⟨sink', ?_, ?_, ?_⟩
    · rw [hwrites, markAll_perm hperm]
    · rw [hcontents, fillAll_perm hperm]
      exact fun m hm n hn hne => h.apart_of_stages hne (hmem m hm) (hmem n hn)
    · rw [hposition, stop?_eq haddressable hmem]
  obtain ⟨sink', hwrites, hcontents, -⟩ := hruns _ (List.Perm.refl _)
  exact ⟨_, _, h.isWrittenOut hstages hroom, hruns, sink', hwrites, hcontents⟩

end Generic

/-- A file with room for all segments reaches up to their ends. -/
theorem FitsInto.isAddressable {o : Output} (h : i.FitsInto o) (ho : o.size < UInt64.size) :
    i.IsAddressable := by
  intro s hs p hp
  rcases h s hs p hp with hempty | hfits
  · rw [hempty]
    exact p.offset.toNat_lt
  · exact Nat.lt_of_le_of_lt hfits ho

/-- **The order in which segments are written does not matter**: neither for a buffer that grows, as
long as positions reach far enough, nor for a file that has room for all segments. -/
theorem isOrderFree_of_isReady (h : i.IsReady) :
    (i.IsAddressable → ∀ b : GrowingBuffer, i.IsOrderFree b) ∧
      ∀ o : Output, o.size < UInt64.size → i.FitsInto o → i.IsOrderFree o := by
  refine ⟨fun haddressable b => ?_, fun o ho hfits => ?_⟩
  · exact h.isOrderFree haddressable fun _ _ _ _ => trivial
  · refine h.isOrderFree (hfits.isAddressable ho) fun n p code hn => ?_
    obtain ⟨s, hn, hs, hstage⟩ := hn
    have hroom := hfits s (Array.mem_of_getElem? hn) p hs
    rwa [← size_of_stage hstage] at hroom

/-- A call behind a gap, two bytes at the start of the file, and a segment without code far behind. -/
def scattered : CodeImage where
  base := 0x400000
  segments := #[⟨#[0xE8, 0, 0, 0, 0], [⟨1, .relative, 0⟩], .positioned ⟨4, 0x1000⟩⟩,
    ⟨#[], [], .positioned ⟨0x20, 0x1020⟩⟩, ⟨#[0x90, 0xC3], [], .positioned ⟨0, 0x1030⟩⟩]
  symbols := #["start"]
  addresses? := some #[some 0x1030]

theorem scattered_cases {n : Nat} {s : Segment} {p : Placement}
    (hn : scattered.segments[n]? = some s) (hs : s.state = .positioned p) :
    (∃ code, scattered.stage s p = .ok code) ∧
      (n = 0 ∧ p.offset.toNat = 4 ∧ s.code.size = 5 ∨
        n = 1 ∧ p.offset.toNat = 0x20 ∧ s.code.size = 0 ∨
        n = 2 ∧ p.offset.toNat = 0 ∧ s.code.size = 2) := by
  have hlt : n < 3 := (Array.getElem?_eq_some_iff.mp hn).1
  obtain rfl | rfl | rfl : n = 0 ∨ n = 1 ∨ n = 2 := by omega
  all_goals
    cases hn
    cases hs
    refine ⟨⟨_, rfl⟩, ?_⟩
    decide

theorem isReady_scattered : scattered.IsReady where
  placed := by simp [scattered]
  staged s hs p hp := by
    obtain ⟨n, hn⟩ := Array.getElem?_of_mem hs
    exact (scattered_cases hn hp).1
  apart := by
    intro m n s t p q hne hm hn hs ht k hk
    have hcases := (scattered_cases hm hs).2
    have hcases' := (scattered_cases hn ht).2
    rw [Bytes.Within] at hk ⊢
    omega

/-- They are written in any order behind three bytes, and into a file of nine. -/
theorem isOrderFree_scattered :
    scattered.IsReady ∧ scattered.IsAddressable ∧ scattered.FitsInto (.create 9) ∧
      scattered.IsOrderFree (GrowingBuffer.ofBytes #[7, 7, 7]) ∧
      scattered.IsOrderFree (Output.create 9) := by
  have haddressable : scattered.IsAddressable := by
    intro s hs p hp
    obtain ⟨n, hn⟩ := Array.getElem?_of_mem hs
    have hcases := (scattered_cases hn hp).2
    have hsize : 2 ^ 6 < UInt64.size := by decide
    omega
  have hfits : scattered.FitsInto (.create 9) := by
    intro s hs p hp
    obtain ⟨n, hn⟩ := Array.getElem?_of_mem hs
    have hcases := (scattered_cases hn hp).2
    have hsize : (Output.create 9).size = 9 := rfl
    omega
  obtain ⟨hbuffer, houtput⟩ := isOrderFree_of_isReady isReady_scattered
  exact ⟨isReady_scattered, haddressable, hfits, hbuffer haddressable _,
    houtput _ (by decide) hfits⟩

end CodeImage

end ManagedImage
