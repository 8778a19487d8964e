import ManagedImage.Code.Image

/-!
# What the calls on a code image do

Each call either fails and leaves the image as it is, or does one thing: it records a fixup, it
gives all segments their places and the symbols their addresses, or it marks a segment as written.
The calls are described here by their results, so that nothing later has to look into them.

## Main definitions

* `Segment.InBounds`, `Segment.IsBuilt` — operands lie within the code, as they do in a segment that
  was made fixup by fixup.

## Main results

* `Segment.addFixup_eq_ok_iff` — when a fixup is recorded.
* `CodeImage.placementIn_eq_ok_iff`, `CodeImage.assign_eq_ok` — when an assignment is taken over,
  and what becomes of the image.
* `CodeImage.exists_of_stage_eq_error` — **a segment whose operands lie within its code can be
  staged, unless an address is missing or a value is too wide.**
* `CodeImage.writeSegment_eq_ok`, `CodeImage.writeSegment_error` — when a segment counts as written.
-/

namespace ManagedImage

/-! ### Segments -/

namespace Segment

variable {s s' : Segment} {f : Fixup}

/-- The operands of all fixups lie within the code. -/
def InBounds (s : Segment) : Prop := ∀ f ∈ s.fixups, f.offset.toNat + operandSize ≤ s.code.size

/-- A fixup is recorded if the segment has no place yet and the operand lies within the code. -/
theorem addFixup_eq_ok_iff :
    s.addFixup f = .ok s' ↔
      s.state = .unpositioned ∧ f.offset.toNat + operandSize ≤ s.code.size ∧
        s' = { s with fixups := s.fixups ++ [f] } := by
  unfold addFixup
  by_cases hstate : s.state = .unpositioned
  · by_cases hfits : s.code.size < f.offset.toNat + operandSize
    · have hnot : ¬f.offset.toNat + operandSize ≤ s.code.size := by omega
      simp [hstate, hfits, hnot]
    · have hle : f.offset.toNat + operandSize ≤ s.code.size := by omega
      simp [hstate, hfits, hle, eq_comm]
  · simp [hstate]

theorem InBounds.addFixup (hs : s.InBounds) (h : s.addFixup f = .ok s') : s'.InBounds := by
  obtain ⟨-, hfits, rfl⟩ := addFixup_eq_ok_iff.mp h
  intro f' hf'
  rcases List.mem_append.mp hf' with hold | hnew
  · exact hs f' hold
  · rw [List.mem_singleton.mp hnew]
    exact hfits

/-- The segment was made from code and got its fixups one by one. -/
inductive IsBuilt : Segment → Prop where
  /-- A segment without fixups. -/
  | ofCode (code : Bytes) : IsBuilt (.ofCode code)
  /-- A segment with one more fixup. -/
  | addFixup {s s' : Segment} {f : Fixup} (hs : IsBuilt s) (h : s.addFixup f = .ok s') : IsBuilt s'

theorem IsBuilt.inBounds (h : s.IsBuilt) : s.InBounds := by
  induction h with
  | ofCode code => exact fun f hf => absurd hf List.not_mem_nil
  | addFixup _ h ih => exact ih.addFixup h

theorem IsBuilt.state_eq (h : s.IsBuilt) : s.state = .unpositioned := by
  induction h with
  | ofCode code => rfl
  | addFixup _ h ih =>
    obtain ⟨-, -, rfl⟩ := addFixup_eq_ok_iff.mp h
    exact ih

end Segment

namespace CodeImage

variable {i i' : CodeImage} {a : Assignment} {n : Nat} {s : Segment} {p : Placement}

/-! ### Assigning addresses -/

theorem placementIn_eq_ok_iff :
    placementIn a n s = .ok p ↔
      a.segment? n = some p ∧ ∀ f ∈ s.fixups, ∃ rva, a.symbol? f.target = some rva := by
  unfold placementIn
  cases hplace : a.segment? n with
  | none => simp
  | some q =>
    cases hfind : s.fixups.find? fun f => (a.symbol? f.target).isNone with
    | none =>
      have hall : ∀ f ∈ s.fixups, ∃ rva, a.symbol? f.target = some rva := by
        intro f hf
        have hsome := List.find?_eq_none.mp hfind f hf
        simpa only [Option.isNone_iff_eq_none, Option.ne_none_iff_exists'] using hsome
      simp only [Except.ok.injEq, Option.some.injEq]
      exact ⟨fun h => ⟨h, hall⟩, fun h => h.1⟩
    | some f =>
      have hmem := List.mem_of_find?_eq_some hfind
      have hnone := List.find?_some hfind
      simp only [reduceCtorEq, false_iff, not_and]
      intro _ hall
      obtain ⟨rva, hrva⟩ := hall f hmem
      simp [hrva] at hnone

/-- Every segment gets the place that is meant for it. -/
theorem getElem?_of_placementsIn {segments : List Segment} {placements : List Placement}
    (h : placementsIn a n segments = .ok placements) {k : Nat} (hk : segments[k]? = some s) :
    ∃ p, placementIn a (n + k) s = .ok p ∧ placements[k]? = some p := by
  induction segments generalizing n placements k with
  | nil => simp at hk
  | cons t segments ih =>
    rw [placementsIn] at h
    obtain ⟨p, hp, h⟩ := exists_of_bind_eq_ok h
    obtain ⟨rest, hrest, h⟩ := exists_of_bind_eq_ok h
    obtain rfl : p :: rest = placements := by simpa [pure, Except.pure] using h
    cases k with
    | zero =>
      obtain rfl : t = s := by simpa using hk
      exact ⟨p, hp, rfl⟩
    | succ k =>
      obtain ⟨q, hq, hget⟩ := ih hrest (by simpa using hk)
      exact ⟨q, by rwa [show n + (k + 1) = n + 1 + k by omega], by simpa using hget⟩

/-- An assignment is taken over once, and then only the places and the addresses are new. -/
theorem assign_eq_ok (h : i.assign a = .ok i') :
    i.isAssigned = false ∧ i'.segments.size = i.segments.size ∧ i'.symbols = i.symbols ∧
      i'.addresses? = some ((Array.range i.symbols.size).map a.symbol?) ∧
      ∀ n s, i.segments[n]? = some s → ∃ p, placementIn a n s = .ok p ∧
        i'.segments[n]? = some { s with state := .positioned p } := by
  rw [assign] at h
  cases hassigned : i.isAssigned with
  | true => simp [hassigned] at h
  | false =>
    rw [hassigned] at h
    obtain ⟨placements, hplacements, h⟩ := exists_of_bind_eq_ok h
    obtain rfl := Except.ok.inj h
    have hplace : ∀ n s, i.segments[n]? = some s →
        ∃ p, placementIn a n s = .ok p ∧ placements[n]? = some p := by
      intro n s hn
      rw [← Array.getElem?_toList] at hn
      simpa only [Nat.zero_add] using getElem?_of_placementsIn hplacements hn
    have hlength : i.segments.size ≤ placements.length := by
      refine Nat.not_lt.mp fun hlt => ?_
      obtain ⟨p, -, hp⟩ := hplace placements.length _ (Array.getElem?_eq_getElem hlt)
      simp at hp
    refine ⟨rfl, by simp [hlength], rfl, rfl, fun n s hn => ?_⟩
    obtain ⟨p, hp, hget⟩ := hplace n s hn
    refine ⟨p, hp, ?_⟩
    rw [List.getElem?_toArray, List.getElem?_zipWith, Array.getElem?_toList, hn, hget]

theorem placementIn_eq_ok_of_assign (h : i.assign a = .ok i') (hn : i.segments[n]? = some s) :
    ∃ p, placementIn a n s = .ok p ∧ i'.segments[n]? = some { s with state := .positioned p } :=
  (assign_eq_ok h).2.2.2.2 n s hn

/-- No symbol has an address before the addresses are assigned. -/
theorem symbolRva_of_not_isAssigned (h : i.isAssigned = false) (symbol : Nat) :
    i.symbolRva symbol = .error (.violation (.addressReadEarly symbol)) := by
  rw [isAssigned, Option.isSome_eq_false_iff, Option.isNone_iff_eq_none] at h
  rw [symbolRva, h]

/-- A symbol without an address is an error that names the symbol. -/
theorem symbolRva_eq_error {symbol : Nat} {e : Error} (h : i.symbolRva symbol = .error e) :
    e = .violation (.addressReadEarly symbol) ∨ e = .violation (.unaddressedSymbol symbol) := by
  rw [symbolRva] at h
  split at h
  · exact Or.inl (Except.error.inj h).symm
  · split at h
    · cases h
    · exact Or.inr (Except.error.inj h).symm

/-! ### Filling in operands -/

/-- An operand is only refused for its width. -/
theorem operand_eq_error {f : Fixup} {target : UInt32} {e : Error}
    (h : i.operand p f target = .error e) :
    e = .violation (.absoluteTooWide i.base target) ∨
      ∃ displacement, e = .violation (.displacementTooWide displacement) := by
  rw [operand] at h
  split at h
  · dsimp only at h
    split at h
    · cases h
    · exact Or.inl (Except.error.inj h).symm
  · dsimp only at h
    split at h
    · cases h
    · exact Or.inr ⟨_, (Except.error.inj h).symm⟩

/-- An operand within the code is filled in once the address is known and the value fits. -/
theorem applyFixup_eq {f : Fixup} {code : Bytes}
    (hf : f.offset.toNat + Segment.operandSize ≤ code.size) :
    i.applyFixup p code f = (do
      let target ← i.symbolRva f.target
      let value ← i.operand p f target
      return code.overlay f.offset.toNat (LittleEndian.encode Segment.operandSize value)) := by
  simp only [applyFixup, if_pos hf]

/-- Fixups within the code fail only for a missing address or for the width of the value. -/
theorem exists_of_foldlM_applyFixup_eq_error {fixups : List Fixup} {code : Bytes} {e : Error}
    (hf : ∀ f ∈ fixups, f.offset.toNat + Segment.operandSize ≤ code.size)
    (h : fixups.foldlM (i.applyFixup p) code = .error e) :
    ∃ f ∈ fixups, i.symbolRva f.target = .error e ∨
      ∃ target, i.symbolRva f.target = .ok target ∧ i.operand p f target = .error e := by
  induction fixups generalizing code with
  | nil => cases h
  | cons f fixups ih =>
    rw [List.foldlM_cons, applyFixup_eq (hf f List.mem_cons_self)] at h
    rcases eq_error_or_of_bind_eq_error h with hfirst | ⟨code₁, hfirst, hrest⟩
    · refine ⟨f, List.mem_cons_self, ?_⟩
      rcases eq_error_or_of_bind_eq_error hfirst with htarget | ⟨target, htarget, hlater⟩
      · exact Or.inl htarget
      · rcases eq_error_or_of_bind_eq_error hlater with hvalue | ⟨value, -, hdone⟩
        · exact Or.inr ⟨target, htarget, hvalue⟩
        · cases hdone
    · obtain ⟨target, -, hlater⟩ := exists_of_bind_eq_ok hfirst
      obtain ⟨value, -, hdone⟩ := exists_of_bind_eq_ok hlater
      obtain rfl := Except.ok.inj hdone
      have hinside : ∀ f' ∈ fixups, f'.offset.toNat + Segment.operandSize ≤
          (code.overlay f.offset.toNat (LittleEndian.encode Segment.operandSize value)).size := by
        intro f' hf'
        rw [Bytes.size_overlay]
        exact hf f' (List.mem_cons_of_mem f hf')
      obtain ⟨f', hf', hcause⟩ := ih hinside hrest
      exact ⟨f', List.mem_cons_of_mem f hf', hcause⟩

/-- **A segment whose operands lie within its code** can be staged, unless a fixup lacks an address
or a value is too wide. -/
theorem exists_of_stage_eq_error {e : Error} (hs : s.InBounds) (h : i.stage s p = .error e) :
    ∃ f ∈ s.fixups, i.symbolRva f.target = .error e ∨
      ∃ target, i.symbolRva f.target = .ok target ∧ i.operand p f target = .error e :=
  exists_of_foldlM_applyFixup_eq_error hs h

/-- Once all addresses are known, only the width of a value is at fault. -/
theorem exists_operand_of_stage_eq_error {e : Error} (hs : s.InBounds)
    (htargets : ∀ f ∈ s.fixups, ∃ target, i.symbolRva f.target = .ok target)
    (h : i.stage s p = .error e) :
    ∃ f ∈ s.fixups, ∃ target, i.symbolRva f.target = .ok target ∧
      i.operand p f target = .error e := by
  obtain ⟨f, hf, hmissing | hvalue⟩ := exists_of_stage_eq_error hs h
  · obtain ⟨target, htarget⟩ := htargets f hf
    cases htarget.symm.trans hmissing
  · exact ⟨f, hf, hvalue⟩

/-- The caller is at fault if a segment cannot be staged. -/
theorem exists_violation_of_stage {e : Error} (hs : s.InBounds) (h : i.stage s p = .error e) :
    ∃ v, e = .violation v := by
  obtain ⟨f, -, htarget | ⟨target, -, hvalue⟩⟩ := exists_of_stage_eq_error hs h
  · rcases symbolRva_eq_error htarget with rfl | rfl <;> exact ⟨_, rfl⟩
  · rcases operand_eq_error hvalue with rfl | ⟨_, rfl⟩ <;> exact ⟨_, rfl⟩

/-! ### Writing segments -/

theorem writable_eq_ok_iff :
    i.writable n = .ok (s, p) ↔ i.segments[n]? = some s ∧ s.state = .positioned p := by
  rw [writable]
  constructor
  · intro h
    split at h
    · cases h
    · split at h
      · cases h
        exact ⟨‹_›, ‹_›⟩
      · cases h
      · cases h
  · rintro ⟨hn, hstate⟩
    simp only [hn, hstate]

variable {S : Type} [Sink S] {sink sink' : S}

/-- A segment counts as written when it was placed, could be staged and was taken by the sink. -/
theorem writeSegment_eq_ok (h : i.writeSegment n sink = (.ok (), i', sink')) :
    ∃ s p code, i.segments[n]? = some s ∧ s.state = .positioned p ∧ i.stage s p = .ok code ∧
      emit p code sink = (.ok (), sink') ∧ i' = i.markWritten n p := by
  rw [writeSegment] at h
  cases hwritable : i.writable n with
  | error e => simp [hwritable] at h
  | ok sp =>
    obtain ⟨s, p⟩ := sp
    obtain ⟨hn, hstate⟩ := writable_eq_ok_iff.mp hwritable
    cases hstage : i.stage s p with
    | error e => simp [hwritable, hstage] at h
    | ok code =>
      rw [hwritable] at h
      simp only [hstage] at h
      split at h
      · cases h
        exact ⟨s, p, code, hn, hstate, hstage, ‹_›, rfl⟩
      · cases h

/-- A segment that could not be written leaves the image as it was. -/
theorem writeSegment_error {e : Error} (h : i.writeSegment n sink = (.error e, i', sink')) :
    i' = i := by
  rw [writeSegment] at h
  split at h
  · cases h; rfl
  · split at h
    · cases h; rfl
    · split at h
      · cases h
      · cases h; rfl

end CodeImage

end ManagedImage
