import ManagedImage.Proofs.Code.Calls
import Mathlib.Logic.Relation

/-!
# Steps of a code image

A code image changes in five ways only: it gets a symbol, a segment or a fixup, it takes over an
assignment, or a segment of it is written.  What these steps do to a segment is said once, as
`Segment.Change`, and everything else about longer histories comes from that.

## Main definitions

* `CodeImage.Event` — what a history is told in: the assignment and the segments written.
* `Segment.Change`, `Segment.Follows` — what one step does to a segment, and what many do.
* `CodeImage.Step`, `CodeImage.Evolves` — one step of an image, and many.

## Main results

* `CodeImage.Step.change` — what a step does to the segments that are there.
* `CodeImage.Evolves.follows` — a segment only goes forward and keeps its fixups once placed.
* `CodeImage.Evolves.isLogged` — **the events of a history are the assignment, and then segments,
  each at most once.**
-/

namespace ManagedImage

/-! ### The way of a segment -/

/-- A segment comes one stage further. -/
inductive SegmentState.Next : SegmentState → SegmentState → Prop where
  /-- A segment without a place gets one. -/
  | place (p : Placement) : Next .unpositioned (.positioned p)
  /-- A placed segment is written at its place. -/
  | write (p : Placement) : Next (.positioned p) (.written p)

/-- What a history is told in. -/
inductive CodeImage.Event where
  /-- An assignment was taken over. -/
  | assigned
  /-- A segment was written. -/
  | wrote (n : Nat)
  deriving DecidableEq, Repr

namespace Segment

variable {s s' s'' : Segment} {n : Nat} {events : List CodeImage.Event}

/-- `s'` is what later became of `s`: it has come further, if anything, and if `s` had a place, the
fixups are the same. -/
structure Follows (s s' : Segment) : Prop where
  /-- The code is the same. -/
  code : s'.code = s.code
  /-- The state is the same or comes later, with the same place. -/
  state : Relation.ReflTransGen SegmentState.Next s.state s'.state
  /-- A segment with a place keeps its fixups. -/
  fixups : s.state ≠ .unpositioned → s'.fixups = s.fixups

theorem Follows.refl (s : Segment) : s.Follows s := ⟨rfl, .refl, fun _ => rfl⟩

theorem Follows.ne_unpositioned (h : s.Follows s') (hs : s.state ≠ .unpositioned) :
    s'.state ≠ .unpositioned := by
  rcases h.state.cases_tail with heq | ⟨_, -, hnext⟩
  · rwa [heq]
  · intro hs'
    rw [hs'] at hnext
    cases hnext

theorem Follows.trans (h : s.Follows s') (h' : s'.Follows s'') : s.Follows s'' where
  code := h'.code.trans h.code
  state := h.state.trans h'.state
  fixups hs := (h'.fixups (h.ne_unpositioned hs)).trans (h.fixups hs)

/-- A segment that was written stays as it is. -/
theorem Follows.state_eq_of_written {p : Placement} (h : s.Follows s')
    (hs : s.state = .written p) : s'.state = .written p := by
  rcases h.state.cases_head with heq | ⟨_, hnext, -⟩
  · rw [← heq, hs]
  · rw [hs] at hnext
    cases hnext

/-- What one step with these events does to segment number `n`. -/
inductive Change (n : Nat) : (events : List CodeImage.Event) → Segment → Segment → Prop where
  /-- Nothing. -/
  | stay {events : List CodeImage.Event} {s : Segment} : Change n events s s
  /-- The segment gets a fixup. -/
  | fix {f : Fixup} {s s' : Segment} (h : s.addFixup f = .ok s') : Change n [] s s'
  /-- The segment gets a place. -/
  | place {s : Segment} (p : Placement) (hs : s.state = .unpositioned) :
    Change n [.assigned] s { s with state := .positioned p }
  /-- The segment is written. -/
  | write {s : Segment} {p : Placement} (hs : s.state = .positioned p) :
    Change n [.wrote n] s { s with state := .written p }

theorem Change.follows (h : Change n events s s') : s.Follows s' := by
  cases h with
  | stay => exact .refl s
  | fix h =>
    obtain ⟨hstate, -, rfl⟩ := addFixup_eq_ok_iff.mp h
    exact ⟨rfl, .refl, fun hs => absurd hstate hs⟩
  | place p hs => exact ⟨rfl, .single (hs ▸ .place p), fun _ => rfl⟩
  | write hs => exact ⟨rfl, .single (hs ▸ .write _), fun _ => rfl⟩

theorem Change.inBounds (h : Change n events s s') (hs : s.InBounds) : s'.InBounds := by
  cases h with
  | stay => exact hs
  | fix h => exact hs.addFixup h
  | place p _ => exact hs
  | write _ => exact hs

/-- Only an assignment takes a segment out of the state in which it has no place. -/
theorem Change.state_eq (h : Change n events s s') (hs : s.state = .unpositioned)
    (hevents : .assigned ∉ events) : s'.state = .unpositioned := by
  cases h with
  | stay => exact hs
  | fix h =>
    obtain ⟨-, -, rfl⟩ := addFixup_eq_ok_iff.mp h
    exact hs
  | place p _ => exact absurd (List.mem_singleton_self _) hevents
  | write hs' => simp [hs] at hs'

end Segment

/-! ### Steps -/

namespace CodeImage

variable {i i' i'' : CodeImage} {n : Nat} {s s' : Segment} {events log log' : List Event}

/-- While no addresses are assigned, no segment has a place. -/
def IsOrdered (i : CodeImage) : Prop :=
  i.isAssigned = false → ∀ (n : Nat) (s : Segment), i.segments[n]? = some s →
    s.state = .unpositioned

/-- One step of an image, with its events. -/
inductive Step (i : CodeImage) : List Event → CodeImage → Prop where
  /-- A symbol is defined. -/
  | define (name : String) : Step i [] { i with symbols := i.symbols.push name }
  /-- A segment is added. -/
  | add {s : Segment} (hs : s.IsBuilt) : Step i [] { i with segments := i.segments.push s }
  /-- A fixup is recorded. -/
  | fix {n : Nat} {s s' : Segment} {f : Fixup} (hn : i.segments[n]? = some s)
    (h : s.addFixup f = .ok s') : Step i [] { i with segments := i.segments.setIfInBounds n s' }
  /-- An assignment is taken over. -/
  | assign {a : Assignment} {i' : CodeImage} (h : i.assign a = .ok i') : Step i [.assigned] i'
  /-- A segment is written. -/
  | write {n : Nat} {s : Segment} {p : Placement} (hn : i.segments[n]? = some s)
    (hs : s.state = .positioned p) : Step i [.wrote n] (i.markWritten n p)

theorem isAssigned_of_assign {a : Assignment} (h : i.assign a = .ok i') : i'.isAssigned = true := by
  rw [isAssigned, (assign_eq_ok h).2.2.2.1]
  rfl

theorem getElem?_markWritten (i : CodeImage) (n : Nat) (p : Placement) (m : Nat) :
    (i.markWritten n p).segments[m]? =
      if n = m then i.segments[m]?.map fun s => { s with state := .written p }
      else i.segments[m]? := by
  rw [markWritten, Array.getElem?_modify]

/-- What a step does to the segments that are there. -/
theorem Step.change (h : Step i events i') (hi : i.IsOrdered) (hn : i.segments[n]? = some s) :
    ∃ s', i'.segments[n]? = some s' ∧ Segment.Change n events s s' := by
  cases h with
  | define name => exact ⟨s, hn, .stay⟩
  | add _ =>
    obtain ⟨hlt, hget⟩ := Array.getElem?_eq_some_iff.mp hn
    exact ⟨s, by rw [Array.getElem?_push_lt hlt, hget], .stay⟩
  | @fix m t t' f hm h =>
    rw [Array.getElem?_setIfInBounds]
    by_cases hmn : m = n
    · subst hmn
      obtain rfl := Option.some.inj (hm.symm.trans hn)
      exact ⟨t', by simp [(Array.getElem?_eq_some_iff.mp hn).1], .fix h⟩
    · exact ⟨s, by rw [if_neg hmn, hn], .stay⟩
  | assign h =>
    obtain ⟨p, -, hn'⟩ := placementIn_eq_ok_of_assign h hn
    exact ⟨_, hn', .place p (hi (assign_eq_ok h).1 n s hn)⟩
  | @write m t p hm hstate =>
    rw [getElem?_markWritten]
    by_cases hmn : m = n
    · subst hmn
      obtain rfl := Option.some.inj (hm.symm.trans hn)
      exact ⟨_, by rw [if_pos rfl, hn]; rfl, .write hstate⟩
    · exact ⟨s, by rw [if_neg hmn, hn], .stay⟩

/-- A segment that a step brings has just been built. -/
theorem Step.isBuilt (h : Step i events i') (hn : i.segments[n]? = none)
    (hn' : i'.segments[n]? = some s') : events = [] ∧ s'.IsBuilt := by
  have hsize := Array.getElem?_eq_none_iff.mp hn
  have hsize' := (Array.getElem?_eq_some_iff.mp hn').1
  cases h with
  | define name => exact absurd hsize' (Nat.not_lt.mpr hsize)
  | add hs =>
    rw [Array.size_push] at hsize'
    obtain rfl : n = i.segments.size := by omega
    rw [Array.getElem?_push_size] at hn'
    exact ⟨rfl, Option.some.inj hn' ▸ hs⟩
  | fix _ _ =>
    rw [Array.size_setIfInBounds] at hsize'
    omega
  | assign h =>
    rw [(assign_eq_ok h).2.1] at hsize'
    omega
  | write _ _ =>
    rw [markWritten, Array.size_modify] at hsize'
    omega

/-- Every segment after a step was there before, or has just been built. -/
theorem Step.exists_change (h : Step i events i') (hi : i.IsOrdered)
    (hn' : i'.segments[n]? = some s') :
    (∃ s, i.segments[n]? = some s ∧ Segment.Change n events s s') ∨ events = [] ∧ s'.IsBuilt := by
  cases hn : i.segments[n]? with
  | none => exact Or.inr (h.isBuilt hn hn')
  | some s =>
    obtain ⟨t, ht, hchange⟩ := h.change hi hn
    obtain rfl := Option.some.inj (ht.symm.trans hn')
    exact Or.inl ⟨s, rfl, hchange⟩

/-- The addresses change with the assignment only. -/
theorem Step.addresses?_eq (h : Step i events i') (hevents : .assigned ∉ events) :
    i'.addresses? = i.addresses? := by
  cases h with
  | define _ | add _ | fix _ _ | write _ _ => rfl
  | assign _ => exact absurd (List.mem_singleton_self _) hevents

theorem Step.isOrdered (h : Step i events i') (hi : i.IsOrdered) : i'.IsOrdered := by
  intro hassigned n s' hn'
  have hevents : .assigned ∉ events := by
    intro hmem
    cases h with
    | assign h => simp [isAssigned_of_assign h] at hassigned
    | _ => simp at hmem
  have hbefore : i.isAssigned = false := by
    rwa [isAssigned, h.addresses?_eq hevents] at hassigned
  rcases h.exists_change hi hn' with ⟨s, hn, hchange⟩ | ⟨-, hs'⟩
  · exact hchange.state_eq (hi hbefore n s hn) hevents
  · exact hs'.state_eq

/-! ### Histories -/

/-- Several steps of an image, with their events. -/
inductive Evolves (i : CodeImage) : List Event → CodeImage → Prop where
  /-- No step. -/
  | refl : Evolves i [] i
  /-- One more step. -/
  | step {log events : List Event} {i' i'' : CodeImage} (h : Evolves i log i')
    (hstep : Step i' events i'') : Evolves i (log ++ events) i''

theorem Step.evolves (h : Step i events i') : i.Evolves events i' := Evolves.refl.step h

theorem Evolves.trans (h : i.Evolves log i') (h' : i'.Evolves log' i'') :
    i.Evolves (log ++ log') i'' := by
  induction h' with
  | refl => rwa [List.append_nil]
  | step _ hstep ih =>
    rw [← List.append_assoc]
    exact ih.step hstep

theorem Evolves.isOrdered (h : i.Evolves log i') (hi : i.IsOrdered) : i'.IsOrdered := by
  induction h with
  | refl => exact hi
  | step _ hstep ih => exact hstep.isOrdered ih

/-- A segment stays where it is, and only goes forward. -/
theorem Evolves.follows (h : i.Evolves log i') (hi : i.IsOrdered) (hn : i.segments[n]? = some s) :
    ∃ s', i'.segments[n]? = some s' ∧ s.Follows s' := by
  induction h with
  | refl => exact ⟨s, hn, .refl s⟩
  | step h hstep ih =>
    obtain ⟨t, ht, hfollows⟩ := ih
    obtain ⟨s', hs', hchange⟩ := hstep.change (h.isOrdered hi) ht
    exact ⟨s', hs', hfollows.trans hchange.follows⟩

/-- Without an assignment, a segment without a place gets none. -/
theorem Evolves.state_eq (h : i.Evolves log i') (hi : i.IsOrdered) (hlog : .assigned ∉ log)
    (hn : i.segments[n]? = some s) (hs : s.state = .unpositioned)
    (hn' : i'.segments[n]? = some s') : s'.state = .unpositioned := by
  induction h generalizing s' with
  | refl => exact Option.some.inj (hn.symm.trans hn') ▸ hs
  | step h hstep ih =>
    simp only [List.mem_append, not_or] at hlog
    obtain ⟨t, ht, -⟩ := h.follows hi hn
    obtain ⟨t', ht', hchange⟩ := hstep.change (h.isOrdered hi) ht
    obtain rfl := Option.some.inj (ht'.symm.trans hn')
    exact hchange.state_eq (ih hlog.1 ht) hlog.2

/-- Operands stay within the code. -/
theorem Evolves.inBounds (h : i.Evolves log i') (hi : i.IsOrdered)
    (hbounds : ∀ (n : Nat) (s : Segment), i.segments[n]? = some s → s.InBounds)
    (hn' : i'.segments[n]? = some s') :
    s'.InBounds := by
  induction h generalizing n s' with
  | refl => exact hbounds n s' hn'
  | step h hstep ih =>
    rcases hstep.exists_change (h.isOrdered hi) hn' with ⟨s, hn, hchange⟩ | ⟨-, hs'⟩
    · exact hchange.inBounds (ih hn)
    · exact hs'.inBounds

theorem isOrdered_empty (base : UInt64) : (empty base).IsOrdered :=
  fun _ n s hn => by simp [empty] at hn

/-- In an image that was empty once, all operands lie within the code. -/
theorem Evolves.inBounds_of_empty {base : UInt64} (h : (empty base).Evolves log i)
    (hn : i.segments[n]? = some s) : s.InBounds :=
  h.inBounds (isOrdered_empty base) (fun n s hn => by simp [empty] at hn) hn

/-- Once addresses are assigned, they stay, and there is no other assignment. -/
theorem Evolves.addresses?_eq (h : i.Evolves log i') (hi : i.isAssigned = true) :
    i'.addresses? = i.addresses? ∧ .assigned ∉ log := by
  induction h with
  | refl => exact ⟨rfl, List.not_mem_nil⟩
  | @step log events i' i'' h hstep ih =>
    obtain ⟨haddresses, hlog⟩ := ih
    have hevents : .assigned ∉ events := by
      intro hmem
      cases hstep with
      | assign h =>
        have hnot := (assign_eq_ok h).1
        rw [isAssigned, haddresses, ← isAssigned, hi] at hnot
        cases hnot
      | _ => simp at hmem
    refine ⟨(hstep.addresses?_eq hevents).trans haddresses, ?_⟩
    simp only [List.mem_append, not_or]
    exact ⟨hlog, hevents⟩

/-- Segment number `n` has been written. -/
def IsWritten (i : CodeImage) (n : Nat) : Prop :=
  ∃ (s : Segment) (p : Placement), i.segments[n]? = some s ∧ s.state = .written p

/-- The events so far are none, while no addresses are assigned; or the assignment, and then the
segments that are written, each once. -/
inductive IsLogged (i : CodeImage) : List Event → Prop where
  /-- No addresses are assigned. -/
  | before (h : i.isAssigned = false) : IsLogged i []
  /-- Addresses are assigned and these segments are written. -/
  | after {ns : List Nat} (h : i.isAssigned = true) (hnodup : ns.Nodup)
    (hwritten : ∀ n, n ∈ ns ↔ i.IsWritten n) : IsLogged i (.assigned :: ns.map .wrote)

theorem IsOrdered.not_isWritten (hi : i.IsOrdered) (hassigned : i.isAssigned = false) :
    ¬i.IsWritten n := by
  rintro ⟨s, p, hn, hs⟩
  rw [hi hassigned n s hn] at hs
  cases hs

/-- What is written after a step was written before, or by the step. -/
theorem Step.isWritten_iff (h : Step i events i') (hi : i.IsOrdered) :
    i'.IsWritten n ↔ i.IsWritten n ∨ .wrote n ∈ events := by
  constructor
  · rintro ⟨s', p, hn', hs'⟩
    rcases h.exists_change hi hn' with ⟨s, hn, hchange⟩ | ⟨-, hbuilt⟩
    · cases hchange with
      | stay => exact Or.inl ⟨_, p, hn, hs'⟩
      | fix h =>
        obtain ⟨hstate, -, rfl⟩ := Segment.addFixup_eq_ok_iff.mp h
        cases hstate.symm.trans hs'
      | place q _ => cases hs'
      | write _ => exact Or.inr (List.mem_singleton_self _)
    · cases hbuilt.state_eq.symm.trans hs'
  · rintro (⟨s, p, hn, hs⟩ | hevent)
    · obtain ⟨s', hs', hchange⟩ := h.change hi hn
      exact ⟨s', p, hs', hchange.follows.state_eq_of_written hs⟩
    · cases h with
      | @write m s p hn _ =>
        obtain rfl := Event.wrote.inj (List.mem_singleton.mp hevent)
        exact ⟨_, p, by rw [getElem?_markWritten, if_pos rfl, hn]; rfl, rfl⟩
      | _ => simp at hevent

/-- The assignment comes first, and a segment that is written has not been written before. -/
theorem Step.isLogged (h : Step i events i') (hi : i.IsOrdered) (hlog : i.IsLogged log) :
    i'.IsLogged (log ++ events) := by
  by_cases hevents : events = []
  · -- nothing is told, and the addresses stay as they are
    subst hevents
    have hassigned : i'.isAssigned = i.isAssigned := by
      rw [isAssigned, h.addresses?_eq List.not_mem_nil, isAssigned]
    rw [List.append_nil]
    cases hlog with
    | before hi' => exact .before (hassigned.trans hi')
    | after hi' hnodup hwritten =>
      exact .after (hassigned.trans hi') hnodup fun n => by simp [h.isWritten_iff hi, hwritten]
  have hwritten_iff := fun n => h.isWritten_iff (n := n) hi
  cases h with
  | assign h =>
    cases hlog with
    | before hi' =>
      exact .after (isAssigned_of_assign h) List.nodup_nil
        fun n => by simp [hwritten_iff, hi.not_isWritten hi']
    | after hi' _ _ => simp [(assign_eq_ok h).1] at hi'
  | @write n s p hn hs =>
    cases hlog with
    | before hi' => simp [hi hi' n s hn] at hs
    | @after ns hi' hnodup hwritten =>
      have hnew : n ∉ ns := by
        rw [hwritten]
        rintro ⟨t, q, ht, ht'⟩
        obtain rfl := Option.some.inj (hn.symm.trans ht)
        cases hs.symm.trans ht'
      have hlog : (i.markWritten n p).IsLogged (.assigned :: (ns ++ [n]).map .wrote) := by
        refine .after hi' (List.nodup_append.mpr ⟨hnodup, ?_, fun m hm m' hm' heq => ?_⟩)
          fun m => ?_
        · exact List.nodup_cons.mpr ⟨List.not_mem_nil, List.nodup_nil⟩
        · rw [heq, List.mem_singleton.mp hm'] at hm
          exact hnew hm
        · simp [hwritten_iff, hwritten]
      simpa using hlog
  | _ => exact absurd rfl hevents

theorem Evolves.isLogged (h : i.Evolves log' i') (hi : i.IsOrdered) (hlog : i.IsLogged log) :
    i'.IsLogged (log ++ log') := by
  induction h with
  | refl => rwa [List.append_nil]
  | step h hstep ih =>
    rw [← List.append_assoc]
    exact hstep.isLogged (h.isOrdered hi) ih

end CodeImage

end ManagedImage
