import ManagedImage.Proofs.Code.Runs

/-!
# Committed assignments

An assignment is checked against itself, by the symbols that the fixups refer to, but taken over
only for the symbols that are defined by then.  A fixup may refer to any number, so the two agree
exactly if no fixup refers to a symbol that is not yet defined.

## Main definitions

* `CodeImage.Honours` — the segments that an assignment placed find the addresses that it gives.

## Main results

* `CodeImage.Runs.symbolRva_eq` — which addresses can be read after an assignment, for good.
* `CodeImage.honours_assign_iff` — **an assignment that is taken over is honoured from then on if
  and only if all fixups refer to symbols that were defined.**
* `CodeImage.not_honours_straySymbol` — an assignment that is taken over and not honoured.
-/

namespace ManagedImage

namespace CodeImage

variable {i i' i'' : CodeImage} {a : Assignment} {n : Nat} {log log' : List Event}

/-- The fixups of the first `count` segments find the addresses that the assignment gives their
symbols, so that no segment among them lacks an address when it is staged. -/
structure Honours (i : CodeImage) (a : Assignment) (count : Nat) : Prop where
  /-- A fixup finds the address of its symbol. -/
  symbolRva : ∀ (n : Nat) (s : Segment), n < count → i.segments[n]? = some s → ∀ f ∈ s.fixups,
    ∃ rva, a.symbol? f.target = some rva ∧ i.symbolRva f.target = .ok rva
  /-- No segment lacks an address. -/
  stage : ∀ (n : Nat) (s : Segment) (p : Placement) (symbol : Nat), n < count →
    i.segments[n]? = some s → i.stage s p ≠ .error (.violation (.unaddressedSymbol symbol)) ∧
      i.stage s p ≠ .error (.violation (.addressReadEarly symbol))

/-- The addresses after an assignment are those of the symbols that were defined by then, whatever
is called later. -/
theorem Runs.symbolRva_eq (h : i.assign a = .ok i') (hrun : i'.Runs log i'') (symbol : Nat) :
    i''.symbolRva symbol =
      match if symbol < i.symbols.size then a.symbol? symbol else none with
      | some rva => .ok rva
      | none => .error (.violation (.unaddressedSymbol symbol)) := by
  have haddresses := (hrun.evolves.addresses?_eq (isAssigned_of_assign h)).1.trans
    (assign_eq_ok h).2.2.2.1
  rw [CodeImage.symbolRva, haddresses]
  by_cases hsymbol : symbol < i.symbols.size
  · cases hrva : a.symbol? symbol <;> simp [hsymbol, hrva]
  · simp [hsymbol]

/-- A segment that an assignment placed keeps the fixups that the assignment was checked for. -/
theorem Runs.exists_placed (h : i.assign a = .ok i') (hrun : i'.Runs log i'') {s'' : Segment}
    (hn : n < i.segments.size) (hn'' : i''.segments[n]? = some s'') :
    ∃ s p, i.segments[n]? = some s ∧ placementIn a n s = .ok p ∧ s''.fixups = s.fixups := by
  have hordered : i'.IsOrdered := fun hnot => by simp [isAssigned_of_assign h] at hnot
  have hget := Array.getElem?_eq_getElem hn
  obtain ⟨p, hp, hn'⟩ := placementIn_eq_ok_of_assign h hget
  obtain ⟨t, ht, hfollows⟩ := hrun.evolves.follows hordered hn'
  obtain rfl := Option.some.inj (ht.symm.trans hn'')
  exact ⟨_, p, hget, hp, hfollows.fixups (by simp)⟩

/-- If all symbols were defined in time, the segments that an assignment placed find the addresses
that it gives. -/
theorem Runs.exists_symbolRva (h : i.assign a = .ok i') (hrun : i'.Runs log i'')
    (htargets : ∀ (n : Nat) (s : Segment), i.segments[n]? = some s →
      ∀ f ∈ s.fixups, f.target < i.symbols.size)
    {s'' : Segment} (hn : n < i.segments.size) (hn'' : i''.segments[n]? = some s'') :
    ∀ f ∈ s''.fixups, ∃ rva, a.symbol? f.target = some rva ∧ i''.symbolRva f.target = .ok rva := by
  intro f hf
  obtain ⟨s, p, hs, hp, hfixups⟩ := hrun.exists_placed h hn hn''
  rw [hfixups] at hf
  obtain ⟨rva, hrva⟩ := (placementIn_eq_ok_iff.mp hp).2 f hf
  refine ⟨rva, hrva, ?_⟩
  rw [Runs.symbolRva_eq h hrun, if_pos (htargets n s hs f hf), hrva]

/-- A segment whose symbols have addresses is not refused for want of one. -/
theorem stage_ne_of_symbolRva {s : Segment} (hs : s.InBounds)
    (htargets : ∀ f ∈ s.fixups, ∃ target, i.symbolRva f.target = .ok target) (p : Placement)
    (symbol : Nat) :
    i.stage s p ≠ .error (.violation (.unaddressedSymbol symbol)) ∧
      i.stage s p ≠ .error (.violation (.addressReadEarly symbol)) := by
  constructor
  all_goals
    intro hstage
    obtain ⟨f, -, target, -, hvalue⟩ := exists_operand_of_stage_eq_error hs htargets hstage
    rcases operand_eq_error hvalue with hwide | ⟨displacement, hwide⟩
    · cases hwide
    · cases hwide

/-- **When an assignment is honoured.**  After an assignment has been taken over, all fixups of the
segments that it placed find the addresses that it gives, now and in all runs from then on, if and
only if the fixups refer to symbols that were defined by then. -/
theorem honours_assign_iff {base : UInt64} (hi : (empty base).Runs log i)
    (h : i.assign a = .ok i') :
    (∀ log' i'', i'.Runs log' i'' → i''.Honours a i.segments.size) ↔
      ∀ (n : Nat) (s : Segment), i.segments[n]? = some s →
        ∀ f ∈ s.fixups, f.target < i.symbols.size := by
  constructor
  · intro hhonours n s hn f hf
    obtain ⟨p, -, hn'⟩ := placementIn_eq_ok_of_assign h hn
    have hlt := (Array.getElem?_eq_some_iff.mp hn).1
    obtain ⟨rva, -, hrva⟩ := (hhonours [] i' .refl).symbolRva n _ hlt hn' f hf
    refine Nat.not_le.mp fun hle => ?_
    rw [Runs.symbolRva_eq h .refl, if_neg (Nat.not_lt.mpr hle)] at hrva
    cases hrva
  · intro htargets log' i'' hrun
    have hevolves := (hi.evolves.step (.assign h)).trans hrun.evolves
    refine ⟨fun n s hn hn'' => hrun.exists_symbolRva h htargets hn hn'',
      fun n s p symbol hn hn'' => ?_⟩
    refine stage_ne_of_symbolRva (hevolves.inBounds_of_empty hn'') (fun f hf => ?_) p symbol
    obtain ⟨rva, -, hrva⟩ := hrun.exists_symbolRva h htargets hn hn'' f hf
    exact ⟨rva, hrva⟩

/-- The symbol of a jump is defined in time. -/
theorem honours_jumpAssignment :
    ∃ i', jumpImage.assign jumpAssignment = .ok i' ∧
      ∀ log i'', i'.Runs log i'' → i''.Honours jumpAssignment 1 := by
  have hassign : (jumpImage.assign jumpAssignment).toOption.isSome = true := by decide +kernel
  cases h : jumpImage.assign jumpAssignment with
  | error e => simp [h, Except.toOption] at hassign
  | ok i' =>
    refine ⟨i', rfl, (honours_assign_iff runs_jumpImage h).mpr fun n s hn f hf => ?_⟩
    have hlt := (Array.getElem?_eq_some_iff.mp hn).1
    obtain rfl : n = 0 := Nat.lt_one_iff.mp hlt
    obtain rfl := Option.some.inj hn
    obtain rfl := List.mem_singleton.mp hf
    exact Nat.zero_lt_one

/-- An image with a jump to a symbol that it has not defined. -/
def strayImage : CodeImage := ((empty 0).addSegment jump).2

/-- The assignment gives the symbol of the jump an address and is taken over, but the symbol has no
address then, not even once it is defined, and the jump cannot be written. -/
theorem not_honours_straySymbol :
    (∃ log, (empty 0).Runs log strayImage) ∧
    ∃ i', strayImage.assign jumpAssignment = .ok i' ∧ jumpAssignment.symbol? 0 = some 0x1010 ∧
      i'.symbolRva 0 = .error (.violation (.unaddressedSymbol 0)) ∧
      (i'.defineSymbol "start").2.symbolRva 0 = .error (.violation (.unaddressedSymbol 0)) ∧
      (i'.writeSegment 0 (GrowingBuffer.ofBytes #[])).1 =
        .error (.violation (.unaddressedSymbol 0)) ∧
      ¬∀ log i'', i'.Runs log i'' → i''.Honours jumpAssignment 1 := by
  obtain ⟨i', h⟩ : ∃ i', strayImage.assign jumpAssignment = .ok i' := ⟨_, rfl⟩
  obtain ⟨p, -, hn⟩ := placementIn_eq_ok_of_assign h (n := 0) (s := jump) rfl
  have hrva : i'.symbolRva 0 = .error (.violation (.unaddressedSymbol 0)) :=
    Runs.symbolRva_eq h .refl 0
  refine ⟨⟨_, Runs.refl.call (.addSegment jump) isBuilt_jump⟩, i', h, rfl, hrva, ?_, ?_, ?_⟩
  · exact Runs.symbolRva_eq h (Runs.refl.call (.defineSymbol "start") trivial) 0
  · have hstage : i'.stage { jump with state := .positioned p } p =
        .error (.violation (.unaddressedSymbol 0)) := by
      rw [stage, jump, List.foldlM_cons, applyFixup, hrva]
      rfl
    rw [writeSegment, writable_eq_ok_iff.mpr ⟨hn, rfl⟩]
    simp only [hstage]
  · intro hhonours
    obtain ⟨rva, -, hfound⟩ := (hhonours [] i' .refl).symbolRva 0 _ Nat.zero_lt_one hn
      ⟨1, .relative, 0⟩ (List.mem_singleton_self _)
    cases hfound.symm.trans hrva

end CodeImage

end ManagedImage
