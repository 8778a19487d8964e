import ManagedImage.Proofs.Nesting.Records

/-!
# Runs that partition the members

The run of a type goes from where its row says to where the next row says, and that of the last type
goes to the end.  If the starts never decrease, each run ends where the next one starts, wherever
they are put: at 0, which counts as the first position, or past the end, where there is nothing left
to list.  So all runs together are the positions from the first start to the end.

## Main definitions

* `TablesStream.starts` — where the runs of the types start.
* `TablesStream.Partitions` — the runs share out all positions from the first one on.

## Main results

* `TablesStream.memberPositions_eq` — a run ends where the next one starts.
* `TablesStream.flatMap_memberPositions` — runs that abut are one run.
* `TablesStream.exists_partitions` — **runs whose starts never decrease partition the members.**
-/

namespace ManagedImage

/-- Ranges that abut, both cut off at `n`, are one range. -/
theorem range'_append_min {a b c n : Nat} (hab : a ≤ b) (hbc : min b n ≤ c) :
    List.range' a (min b n - a) ++ List.range' b (min c n - b) = List.range' a (min c n - a) := by
  rcases Nat.le_total b n with hb | hb
  · have hglue := List.range'_append_1 (s := a) (m := b - a) (n := min c n - b)
    rw [Nat.add_sub_cancel' hab] at hglue
    rw [Nat.min_eq_left hb, hglue]
    congr 1
    omega
  · -- nothing is left behind the first range
    have hnone : min c n - b = 0 := by omega
    rw [hnone, List.range'_zero, List.append_nil]
    congr 1
    omega

/-- A range that starts at 1 or later and ends in front of 0 or of 1 is empty. -/
theorem min_sub_max (a b n : Nat) : min b n - max a 1 = min (max b 1) n - max a 1 := by
  omega

namespace TablesStream

variable {s : TablesStream} {l : MemberList} {config : Config} {data : Bytes} {t : TableId}
  {type : UInt32} {row : Row} {i j n : Nat}

/-! ### Rows by their numbers -/

/-- The row numbers of a table are counted from 1 on. -/
theorem IsDecoded.rids_eq (h : s.IsDecoded) (t : TableId) :
    OwnerIndex.rids s t = (List.range' 1 (s.rowCount t).toNat).map UInt32.ofNat := by
  unfold OwnerIndex.rids rows?
  cases hc : s.tables.get t with
  | none =>
    have hcount : s.rowCount t = 0 := by
      by_contra hne
      obtain ⟨c, hc', -⟩ := h.tiled.exists_of_mem (h.mem_tables hne)
      rw [hc] at hc'
      cases hc'
    rw [hcount]
    rfl
  | some c =>
    have hcount : c.rows.count = s.rowCount t := (h.holds hc).count
    change (List.range c.rows.count.toNat).map _ = _
    rw [hcount, List.range'_eq_map_range, List.map_map]
    refine List.map_congr_left fun i _ => ?_
    rw [Function.comp_apply, Nat.add_comm]

theorem IsDecoded.row?_eq_none (h : s.IsDecoded) (hlast : (s.rowCount t).toNat = n) :
    s.row? t (UInt32.ofNat (n + 1)) = none := by
  by_contra hsome
  obtain ⟨row, hrow⟩ := Option.ne_none_iff_exists'.mp hsome
  have hmem := OwnerIndex.mem_rids_of_row? hrow
  rw [h.rids_eq, List.mem_map] at hmem
  obtain ⟨i, hi, heq⟩ := hmem
  rw [List.mem_range'_1] at hi
  -- the number behind the last one is another number, also where it is cut to 0
  have hcount := (s.rowCount t).toNat_lt
  have hnumbers := congrArg UInt32.toNat heq
  rw [UInt32.toNat_ofNat', UInt32.toNat_ofNat'] at hnumbers
  omega

/-! ### Runs that abut -/

/-- Where the run of a type starts, as far as there are positions: a start of 0 is the first
position, and behind the last type is the end. -/
def firstPosition (s : TablesStream) (l : MemberList) (type : UInt32) : Nat :=
  match s.row? .typeDef type with
  | some row => max (l.start row).toNat 1
  | none => s.positionEnd l

/-- **A run ends where the next one starts**, or at the end if that comes first. -/
theorem memberPositions_eq (type : UInt32) :
    s.memberPositions l type =
      List.range' (s.firstPosition l type)
        (min (s.firstPosition l (type + 1)) (s.positionEnd l) - s.firstPosition l type) := by
  unfold memberPositions
  cases hrow : s.row? .typeDef type with
  | none =>
    have hfirst : s.firstPosition l type = s.positionEnd l := by rw [firstPosition, hrow]
    have hempty : min (s.firstPosition l (type + 1)) (s.positionEnd l) -
        (s.positionEnd l) = 0 := by omega
    rw [hfirst, hempty, List.range'_zero]
  | some row =>
    have hfirst : s.firstPosition l type = max (l.start row).toNat 1 := by
      rw [firstPosition, hrow]
    rw [hfirst]
    dsimp only
    congr 1
    cases hnext : s.row? .typeDef (type + 1) with
    | none => rw [firstPosition, hnext, Nat.min_self]
    | some next =>
      rw [firstPosition, hnext]
      exact min_sub_max _ _ _

/-- Where the runs of the types start, type by type. -/
def starts (s : TablesStream) (l : MemberList) : List UInt32 :=
  (OwnerIndex.rids s .typeDef).filterMap fun type => (s.row? .typeDef type).map l.start

/-- If no start is below the one in front of it, no run starts in front of an earlier one. -/
theorem firstPosition_le (h : s.IsDecoded) (hsorted : (s.starts l).Pairwise (· ≤ ·)) (hi : 1 ≤ i)
    (hij : i ≤ j) (hj : j ≤ (s.rowCount .typeDef).toNat) :
    s.firstPosition l (UInt32.ofNat i) ≤ s.firstPosition l (UInt32.ofNat j) := by
  rcases Nat.eq_or_lt_of_le hij with rfl | hlt
  · exact Nat.le_refl _
  · obtain ⟨row, hrow⟩ := h.exists_row? hi (Nat.le_trans hij hj)
    obtain ⟨row', hrow'⟩ := h.exists_row? (Nat.le_trans hi hij) hj
    rw [starts, h.rids_eq, List.pairwise_filterMap, List.pairwise_map,
      List.pairwise_iff_getElem] at hsorted
    -- the two types stand at their numbers less one
    have hpair := hsorted (i - 1) (j - 1) (by rw [List.length_range']; omega)
      (by rw [List.length_range']; omega) (by omega)
    have hget : ∀ {k : Nat}, 1 ≤ k → 1 + 1 * (k - 1) = k := by omega
    rw [List.getElem_range', List.getElem_range', hget hi, hget (Nat.le_trans hi hij), hrow,
      hrow'] at hpair
    have hstart := UInt32.le_iff_toNat_le.mp (hpair _ rfl _ rfl)
    rw [firstPosition, firstPosition, hrow, hrow']
    dsimp only
    omega

/-- **Runs that abut are one run.** -/
theorem flatMap_memberPositions (h : s.IsDecoded) (hsorted : (s.starts l).Pairwise (· ≤ ·))
    (hn : n ≤ (s.rowCount .typeDef).toNat) :
    ((List.range' 1 n).map UInt32.ofNat).flatMap (s.memberPositions l) =
      List.range' (s.firstPosition l 1)
        (min (s.firstPosition l (UInt32.ofNat (n + 1))) (s.positionEnd l) -
          s.firstPosition l 1) := by
  -- type by type, with the run that all types so far make up
  induction n with
  | zero =>
    have hempty : min (s.firstPosition l (UInt32.ofNat (0 + 1))) (s.positionEnd l) -
        s.firstPosition l 1 = 0 := by
      change min (s.firstPosition l 1) _ - _ = 0
      omega
    rw [hempty]
    rfl
  | succ n ih =>
    have hnumber : UInt32.ofNat (n + 1) + 1 = UInt32.ofNat (n + 1 + 1) := by
      rw [UInt32.ofNat_add (n + 1) 1]
      rfl
    have hfirst : s.firstPosition l 1 ≤ s.firstPosition l (UInt32.ofNat (n + 1)) :=
      firstPosition_le h hsorted (Nat.le_refl 1) (Nat.le_add_left 1 n) hn
    have hnext : min (s.firstPosition l (UInt32.ofNat (n + 1))) (s.positionEnd l) ≤
        s.firstPosition l (UInt32.ofNat (n + 1 + 1)) := by
      rcases Nat.lt_or_ge (n + 1) (s.rowCount .typeDef).toNat with hlt | hge
      · have hle := firstPosition_le h hsorted (Nat.le_add_left 1 n) (Nat.le_succ (n + 1)) hlt
        exact Nat.le_trans (Nat.min_le_left _ _) hle
      · -- behind the last type is the end
        have hlast := h.row?_eq_none (Nat.le_antisymm hge hn)
        have hend : s.firstPosition l (UInt32.ofNat (n + 1 + 1)) = s.positionEnd l := by
          rw [firstPosition, hlast]
        rw [hend]
        exact Nat.min_le_right _ _
    rw [List.range'_1_concat, List.map_append, List.flatMap_append, ih (by omega),
      List.map_singleton, List.flatMap_singleton, memberPositions_eq, Nat.add_comm 1 n, hnumber]
    exact range'_append_min hfirst hnext

theorem flatMap_memberPositions_rids (h : s.IsDecoded) (hsorted : (s.starts l).Pairwise (· ≤ ·)) :
    (OwnerIndex.rids s .typeDef).flatMap (s.memberPositions l) =
      List.range' (s.firstPosition l 1) (s.positionEnd l - s.firstPosition l 1) := by
  have hend : s.firstPosition l (UInt32.ofNat ((s.rowCount .typeDef).toNat + 1)) =
      s.positionEnd l := by
    rw [firstPosition, h.row?_eq_none rfl]
  rw [h.rids_eq, flatMap_memberPositions h hsorted (Nat.le_refl _), hend, Nat.min_self]

/-! ### Positions and members -/

/-- The runs of the types share out all positions from the first one on. -/
structure Partitions (s : TablesStream) (l : MemberList) (first : Nat) : Prop where
  /-- The members of all types, type by type, are those that the positions stand for, in order and
  each position once. -/
  members : ∃ runs, (OwnerIndex.rids s .typeDef).mapM (s.memberRids l) = .ok runs ∧
    List.Forall₂ (s.StandsFor l)
      (List.range' first ((s.positionCount l).toNat + 1 - first)) runs.flatten
  /-- The members of each type are those that the positions of its run stand for. -/
  run : ∀ type, ∃ members, s.memberRids l type = .ok members ∧
    List.Forall₂ (s.StandsFor l) (s.memberPositions l type) members
  /-- No position is lost, and none is in the runs of two types. -/
  unique : ∀ position, first ≤ position → position ≤ (s.positionCount l).toNat →
    ∃! type, type ∈ OwnerIndex.rids s .typeDef ∧ position ∈ s.memberPositions l type

theorem partitions_firstPosition (h : s.IsDecoded) (hcount : (s.positionCount l).toNat < 2 ^ 32 - 1)
    (hsorted : (s.starts l).Pairwise (· ≤ ·)) :
    s.Partitions l (s.firstPosition l 1) := by
  have hpositions := flatMap_memberPositions_rids h hsorted
  have hend : s.positionEnd l = (s.positionCount l).toNat + 1 := by
    rw [positionEnd, UInt32.toNat_add]
    exact Nat.mod_eq_of_lt (Nat.add_lt_of_lt_sub hcount)
  rw [hend] at hpositions
  constructor
  case members =>
    obtain ⟨runs, hruns, hmembers⟩ := exists_mapM_eq_ok (g := id)
      fun type (_ : type ∈ OwnerIndex.rids s .typeDef) => h.exists_memberRids l type
    refine ⟨runs, by rw [hruns, List.map_id], ?_⟩
    rw [← hpositions, List.flatMap_def]
    exact List.rel_flatten (List.forall₂_map_left_iff.mpr hmembers)
  case run => exact h.exists_memberRids l
  case unique =>
    intro position hfirst hle
    have hmem : position ∈ (OwnerIndex.rids s .typeDef).flatMap (s.memberPositions l) := by
      rw [hpositions, mem_range'_sub_iff]
      exact ⟨hfirst, Nat.lt_succ_of_le hle⟩
    have hnodup : ((OwnerIndex.rids s .typeDef).flatMap (s.memberPositions l)).Nodup := by
      rw [hpositions]
      exact List.nodup_range'
    obtain ⟨type, htype, hposition⟩ := List.mem_flatMap.mp hmem
    refine ⟨type, ⟨htype, hposition⟩, ?_⟩
    rintro type' ⟨htype', hposition'⟩
    exact eq_of_nodup_flatMap hnodup htype' htype hposition' hposition

/-- **Runs whose starts never decrease partition the members.**  If there are types, and the starts
of their runs never decrease, wherever they are, then the runs of all types, one behind the other,
list what the positions from the first start on stand for, each position once.  There must be
fewer than `2 ^ 32 - 1` positions, so that a number is left for the end. -/
theorem exists_partitions (h : decode config data = .ok s) (htypes : s.rowCount .typeDef ≠ 0)
    (hcount : (s.positionCount l).toNat < 2 ^ 32 - 1) (hsorted : (s.starts l).Pairwise (· ≤ ·)) :
    ∃ row, s.row .typeDef 1 = .ok row ∧ s.Partitions l (max (l.start row).toNat 1) := by
  obtain ⟨-, hdecoded⟩ := isDecoded_of_decode h
  have hpos : 1 ≤ (s.rowCount .typeDef).toNat := by
    rw [ne_eq, ← UInt32.toNat_inj] at htypes
    exact Nat.pos_of_ne_zero htypes
  obtain ⟨row, hrow⟩ := hdecoded.exists_row? (Nat.le_refl 1) hpos
  have hpartitions := partitions_firstPosition hdecoded hcount hsorted
  have hfirst : s.firstPosition l 1 = max (l.start row).toNat 1 := by
    rw [firstPosition, show s.row? .typeDef 1 = some row from hrow]
  rw [hfirst] at hpartitions
  exact ⟨row, row?_eq_some_iff.mp hrow, hpartitions⟩

/-- Four types and three fields behind pointers.  The runs of the first two types start at 0, that
of the third at the second pointer, and that of the last behind them all. -/
def shared : Bytes :=
  #[0, 0, 0, 0, 2, 0, 0, 1,
    0x1C, 0, 0, 0, 0, 0, 0, 0, 0, 0, 0, 0, 0, 0, 0, 0,
    4, 0, 0, 0, 3, 0, 0, 0, 3, 0, 0, 0,
    0, 0, 0, 0, 0, 0, 0, 0, 0, 0, 0, 0, 1, 0,
    0, 0, 0, 0, 0, 0, 0, 0, 0, 0, 0, 0, 1, 0,
    0, 0, 0, 0, 0, 0, 0, 0, 0, 0, 2, 0, 1, 0,
    0, 0, 0, 0, 0, 0, 0, 0, 0, 0, 9, 0, 1, 0,
    3, 0, 1, 0, 2, 0,
    0, 0, 0, 0, 0, 0, 0, 0, 0, 0, 0, 0, 0, 0, 0, 0, 0, 0]

theorem exists_partitions_shared :
    ∃ s, decode .lenient shared = .ok s ∧ s.rowCount .typeDef ≠ 0 ∧
      (s.positionCount .fields).toNat < 2 ^ 32 - 1 ∧ (s.starts .fields).Pairwise (· ≤ ·) ∧
      ∃ row, s.row .typeDef 1 = .ok row ∧
        s.Partitions .fields (max (MemberList.fields.start row).toNat 1) := by
  have hcheck : (decode .lenient shared).toOption.any (fun s =>
      decide (s.rowCount .typeDef ≠ 0 ∧ (s.positionCount .fields).toNat < 2 ^ 32 - 1 ∧
        (s.starts .fields).Pairwise (· ≤ ·))) = true := by
    decide +kernel
  cases hdecode : decode .lenient shared with
  | error e => exact absurd hcheck (by simp [hdecode, Except.toOption])
  | ok s =>
    rw [hdecode] at hcheck
    obtain ⟨htypes, hcount, hsorted⟩ := of_decide_eq_true hcheck
    exact ⟨s, rfl, htypes, hcount, hsorted, exists_partitions hdecode htypes hcount hsorted⟩

end TablesStream

end ManagedImage
