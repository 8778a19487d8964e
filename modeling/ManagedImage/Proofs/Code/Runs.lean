import ManagedImage.Proofs.Code.Steps

/-!
# Runs of a code image

Any calls on a code image, in any order, whether they succeed or fail, with any sinks, keep to one
order: everything is collected, then one assignment places all segments, and then each segment is
written at most once.

## Main definitions

* `CodeImage.Call`, `CodeImage.Call.perform` — a call on an image, and what it does.
* `CodeImage.Call.events` — the assignment and the segments written by a call.
* `CodeImage.Runs` — calls one after the other.
* `CodeImage.ObeysProtocol` — the order that calls keep to.

## Main results

* `CodeImage.Call.evolves` — a call is made of steps.
* `CodeImage.Runs.obeysProtocol` — **all runs keep to the order.**
-/

namespace ManagedImage

namespace CodeImage

variable {i i' i'' : CodeImage} {n : Nat} {log log' : List Event}

/-! ### Calls -/

/-- A call on an image.  Every call that writes may come with a sink of its own. -/
inductive Call : Type 1 where
  /-- Defines a symbol. -/
  | defineSymbol (name : String)
  /-- Adds a segment. -/
  | addSegment (s : Segment)
  /-- Records a fixup in a segment. -/
  | addFixup (n : Nat) (f : Fixup)
  /-- Takes over an assignment. -/
  | assign (a : Assignment)
  /-- Writes a segment. -/
  | writeSegment {S : Type} [Sink S] (n : Nat) (sink : S)
  /-- Writes all segments. -/
  | writeAll {S : Type} [Sink S] (sink : S)

/-- The segments that are written by writing the given ones up to the first failure. -/
def written {S : Type} [Sink S] (i : CodeImage) : List Nat → S → List Nat
  | [], _ => []
  | n :: ns, sink =>
    match i.writeSegment n sink with
    | (.ok (), i', sink') => n :: i'.written ns sink'
    | (.error _, _, _) => []

namespace Call

/-- A segment that is added has been built from code and fixups. -/
def IsAllowed : Call → Prop
  | addSegment s => s.IsBuilt
  | _ => True

/-- The call does one thing, or none. -/
def IsSingle : Call → Prop
  | writeAll _ => False
  | _ => True

/-- What a call answers and what becomes of the image.  To record a fixup where there is no segment
is no call. -/
def perform : Call → CodeImage → Except Error Unit × CodeImage
  | defineSymbol name, i => (.ok (), (i.defineSymbol name).2)
  | addSegment s, i => (.ok (), (i.addSegment s).2)
  | addFixup n f, i =>
    match i.addFixup n f with
    | some (.ok i') => (.ok (), i')
    | some (.error e) => (.error e, i)
    | none => (.ok (), i)
  | assign a, i =>
    match i.assign a with
    | .ok i' => (.ok (), i')
    | .error e => (.error e, i)
  | writeSegment n sink, i => ((i.writeSegment n sink).1, (i.writeSegment n sink).2.1)
  | writeAll sink, i => ((i.writeAll sink).1, (i.writeAll sink).2.1)

/-- The assignment that a call takes over, and the segments that it writes. -/
def events : Call → CodeImage → List Event
  | assign a, i =>
    match i.assign a with
    | .ok _ => [.assigned]
    | .error _ => []
  | writeSegment n sink, i =>
    match (i.writeSegment n sink).1 with
    | .ok _ => [.wrote n]
    | .error _ => []
  | writeAll sink, i => (i.written (List.range i.segments.size) sink).map .wrote
  | _, _ => []

end Call

section Writing

variable {S : Type} [Sink S]

theorem evolves_writeSegment {sink sink' : S} (h : i.writeSegment n sink = (.ok (), i', sink')) :
    i.Evolves [.wrote n] i' := by
  obtain ⟨s, p, -, hn, hs, -, -, rfl⟩ := writeSegment_eq_ok h
  exact (Step.write hn hs).evolves

theorem evolves_writeSegments (i : CodeImage) (ns : List Nat) (sink : S) :
    i.Evolves ((i.written ns sink).map .wrote) (i.writeSegments ns sink).2.1 := by
  induction ns generalizing i sink with
  | nil => exact .refl
  | cons n ns ih =>
    rw [written, writeSegments]
    cases hwrite : i.writeSegment n sink with
    | mk result rest =>
      obtain ⟨i', sink'⟩ := rest
      cases result with
      | ok _ => exact (evolves_writeSegment hwrite).trans (ih i' sink')
      | error e =>
        rw [writeSegment_error hwrite]
        exact .refl

end Writing

/-- A call is made of steps, and tells their events. -/
theorem Call.evolves {c : Call} (hc : c.IsAllowed) (i : CodeImage) :
    i.Evolves (c.events i) (c.perform i).2 := by
  cases c with
  | defineSymbol name => exact (Step.define name).evolves
  | addSegment s => exact (Step.add hc).evolves
  | addFixup n f =>
    rw [perform, CodeImage.addFixup]
    cases hn : i.segments[n]? with
    | none => exact .refl
    | some s =>
      cases hs : s.addFixup f with
      | error e =>
        simp only [Option.map_some, hs]
        exact .refl
      | ok s' =>
        simp only [Option.map_some, hs]
        exact (Step.fix hn hs).evolves
  | assign a =>
    rw [perform, events]
    cases h : i.assign a with
    | error e => exact .refl
    | ok i' => exact (Step.assign h).evolves
  | writeSegment n sink =>
    rw [perform, events]
    cases hwrite : i.writeSegment n sink with
    | mk result rest =>
      cases result with
      | ok _ => exact evolves_writeSegment hwrite
      | error e =>
        rw [writeSegment_error hwrite]
        exact .refl
  | writeAll sink => exact evolves_writeSegments i _ sink

/-- A call that fails leaves the image as it was, unless it writes several segments. -/
theorem Call.perform_eq_of_error {c : Call} {e : Error} (hc : c.IsSingle)
    (h : (c.perform i).1 = .error e) : (c.perform i).2 = i := by
  cases c with
  | defineSymbol name => cases h
  | addSegment s => cases h
  | addFixup n f =>
    rw [perform] at h ⊢
    split at h
    · cases h
    · rfl
    · cases h
  | assign a =>
    rw [perform] at h ⊢
    split at h
    · cases h
    · rfl
  | writeSegment n sink =>
    rw [perform] at h ⊢
    exact writeSegment_error (Prod.ext h rfl)
  | writeAll sink => exact hc.elim

/-! ### Runs -/

/-- The image comes to `i'` through calls that do what `log` tells. -/
inductive Runs (i : CodeImage) : (log : List Event) → CodeImage → Prop where
  /-- No call. -/
  | refl : Runs i [] i
  /-- One more call. -/
  | call {log : List Event} {i' : CodeImage} (h : Runs i log i') (c : Call) (hc : c.IsAllowed) :
    Runs i (log ++ c.events i') (c.perform i').2

theorem Runs.evolves (h : i.Runs log i') : i.Evolves log i' := by
  induction h with
  | refl => exact .refl
  | call _ c hc ih => exact ih.trans (c.evolves hc _)

theorem Runs.isOrdered {base : UInt64} (h : (empty base).Runs log i) : i.IsOrdered :=
  h.evolves.isOrdered (isOrdered_empty base)

theorem Runs.isLogged {base : UInt64} (h : (empty base).Runs log i) : i.IsLogged log :=
  h.evolves.isLogged (isOrdered_empty base) (.before rfl)

theorem Runs.inBounds {base : UInt64} {s : Segment} (h : (empty base).Runs log i)
    (hn : i.segments[n]? = some s) : s.InBounds :=
  h.evolves.inBounds_of_empty hn

/-- The order that calls keep to, for an image whose events so far are `log`. -/
structure ObeysProtocol (i : CodeImage) (log : List Event) : Prop where
  /-- An assignment is taken over at most once, and every segment is written at most once. -/
  nodup : log.Nodup
  /-- An assignment that is taken over is the first, and places all segments that are there, none of
  which had a place. -/
  assign_places : ∀ (a : Assignment) (i' : CodeImage), i.assign a = .ok i' →
    .assigned ∉ log ∧ i'.segments.size = i.segments.size ∧
      ∀ (n : Nat) (s : Segment), i.segments[n]? = some s → s.state = .unpositioned ∧
        ∃ p, a.segment? n = some p ∧ i'.segments[n]? = some { s with state := .positioned p }
  /-- No other call gives a segment a place. -/
  places_by_assign : ∀ (log' : List Event) (i' : CodeImage), i.Runs log' i' → .assigned ∉ log' →
    ∀ (n : Nat) (s s' : Segment), i.segments[n]? = some s → i'.segments[n]? = some s' →
      s.state = .unpositioned → s'.state = .unpositioned
  /-- A segment only goes forward, at one place, and a segment with a place keeps its fixups. -/
  follows : ∀ (log' : List Event) (i' : CodeImage), i.Runs log' i' →
    ∀ (n : Nat) (s : Segment), i.segments[n]? = some s →
      ∃ s', i'.segments[n]? = some s' ∧ s.Follows s'
  /-- The assignment is told as long as the image has addresses. -/
  assigned_iff : .assigned ∈ log ↔ i.isAssigned = true
  /-- The segments told as written are those in that state. -/
  wrote_iff : ∀ n : Nat, .wrote n ∈ log ↔ i.IsWritten n
  /-- A segment is written after the assignment only. -/
  wrote_after : ∀ (before : List Event) (n : Nat) (after : List Event),
    log = before ++ .wrote n :: after → .assigned ∈ before
  /-- Addresses can be read after the assignment only. -/
  symbolRva_after : ∀ (symbol : Nat) (rva : UInt32), i.symbolRva symbol = .ok rva → .assigned ∈ log
  /-- All operands lie within the code. -/
  inBounds : ∀ (n : Nat) (s : Segment), i.segments[n]? = some s → s.InBounds
  /-- If a segment cannot be staged, the caller is at fault, never the bounds. -/
  stage_error : ∀ (n : Nat) (s : Segment) (p : Placement) (e : Error), i.segments[n]? = some s →
    i.stage s p = .error e → ∃ v, e = .violation v
  /-- A call for one thing that fails changes nothing. -/
  unchanged : ∀ (c : Call) (e : Error), c.IsSingle → (c.perform i).1 = .error e →
    (c.perform i).2 = i

theorem IsLogged.nodup (h : i.IsLogged log) : log.Nodup := by
  cases h with
  | before _ => exact List.nodup_nil
  | after _ hnodup _ =>
    refine List.nodup_cons.mpr ⟨by simp, List.pairwise_map.mpr ?_⟩
    exact hnodup.imp fun hne heq => hne (Event.wrote.inj heq)

theorem IsLogged.assigned_mem (h : i.IsLogged log) {before after : List Event}
    (hlog : log = before ++ .wrote n :: after) : .assigned ∈ before := by
  cases h with
  | before _ => simp at hlog
  | after _ _ _ =>
    cases before with
    | nil => cases hlog
    | cons event before =>
      rw [List.cons_append, List.cons.injEq] at hlog
      exact hlog.1 ▸ List.mem_cons_self

theorem IsLogged.assigned_mem_iff (h : i.IsLogged log) : .assigned ∈ log ↔ i.isAssigned = true := by
  cases h with
  | before hi => simp [hi]
  | after hi _ _ => simp [hi]

theorem IsLogged.wrote_mem_iff (h : i.IsLogged log) (hi : i.IsOrdered) :
    .wrote n ∈ log ↔ i.IsWritten n := by
  cases h with
  | before hi' => simp [hi.not_isWritten hi']
  | after _ _ hwritten => simp [hwritten]

/-- **All runs keep to the order.**  Whatever is called on an image, in whatever order, whether it
succeeds or fails, there is one assignment at most, segments go from no place to a place to written
and are written once at most, and operands stay within the code. -/
theorem Runs.obeysProtocol {base : UInt64} (h : (empty base).Runs log i) : i.ObeysProtocol log where
  nodup := h.isLogged.nodup
  assign_places a i' hassign := by
    have hbefore := (assign_eq_ok hassign).1
    refine ⟨?_, (assign_eq_ok hassign).2.1, fun n s hn => ⟨h.isOrdered hbefore n s hn, ?_⟩⟩
    · rw [h.isLogged.assigned_mem_iff, hbefore]
      exact Bool.false_ne_true
    · obtain ⟨p, hp, hn'⟩ := placementIn_eq_ok_of_assign hassign hn
      exact ⟨p, (placementIn_eq_ok_iff.mp hp).1, hn'⟩
  places_by_assign log' i' hrun hlog' n s s' hn hn' hs :=
    hrun.evolves.state_eq h.isOrdered hlog' hn hs hn'
  follows log' i' hrun n s hn := hrun.evolves.follows h.isOrdered hn
  assigned_iff := h.isLogged.assigned_mem_iff
  wrote_iff n := h.isLogged.wrote_mem_iff h.isOrdered
  wrote_after before n after hlog := h.isLogged.assigned_mem hlog
  symbolRva_after symbol rva hrva := by
    rw [h.isLogged.assigned_mem_iff, ← Bool.not_eq_false]
    intro hbefore
    rw [symbolRva_of_not_isAssigned hbefore] at hrva
    cases hrva
  inBounds n s hn := h.inBounds hn
  stage_error n s p e hn hstage := exists_violation_of_stage (h.inBounds hn) hstage
  unchanged c e hc := c.perform_eq_of_error hc

/-- A jump to symbol number 0. -/
def jump : Segment where
  code := #[0xE9, 0, 0, 0, 0]
  fixups := [⟨1, .relative, 0⟩]
  state := .unpositioned

/-- An image with a jump to its only symbol. -/
def jumpImage : CodeImage := (((empty 0x400000).addSegment jump).2.defineSymbol "start").2

/-- The jump lies in front of its target. -/
def jumpAssignment : Assignment :=
  (Assignment.empty.placeSegment 0 ⟨0x200, 0x1000⟩).placeSymbol 0 0x1010

theorem isBuilt_jump : jump.IsBuilt :=
  .addFixup (f := ⟨1, .relative, 0⟩) (.ofCode jump.code) rfl

theorem runs_jumpImage : (empty 0x400000).Runs [] jumpImage :=
  (Runs.refl.call (.addSegment jump) isBuilt_jump).call (.defineSymbol "start") trivial

/-- The jump is written once, although it is written before the assignment and twice after it. -/
theorem obeysProtocol_jumpImage :
    ∃ i, (empty 0x400000).Runs [.assigned, .wrote 0] i ∧ i.ObeysProtocol [.assigned, .wrote 0] := by
  have hcall : ∀ {log : List Event} {i : CodeImage} (c : Call) (events : List Event),
      (empty 0x400000).Runs log i → c.IsAllowed → c.events i = events →
      (empty 0x400000).Runs (log ++ events) (c.perform i).2 :=
    fun c events h hc hevents => hevents ▸ h.call c hc
  have hearly := hcall (.writeSegment 0 (GrowingBuffer.ofBytes #[])) [] runs_jumpImage trivial
    (by decide +kernel)
  have hassigned := hcall (.assign jumpAssignment) [.assigned] hearly trivial (by decide +kernel)
  have hwritten := hcall (.writeSegment 0 (GrowingBuffer.ofBytes #[])) [.wrote 0] hassigned trivial
    (by decide +kernel)
  have hlate := hcall (.writeAll (GrowingBuffer.ofBytes #[])) [] hwritten trivial
    (by decide +kernel)
  exact ⟨_, hlate, hlate.obeysProtocol⟩

end CodeImage

end ManagedImage
