import ManagedImage.Proofs.Identity.Resolution

/-!
# Coded indexes and the rows they refer to

A coded index has more bits for the row number than a token, and it is looked up by the token of its
row.  So a row number of more than 24 bits, for which there should be a row with this number or
nothing, leads to the row that is named by the low 24 bits.

## Main definitions

* `MetadataImage.entityOf?` — the entity of a row, found by its number.
* `MetadataImage.Distinguishes` — a row number is not taken for another one.
* `Graph.lookUpCoded` — looks a coded index up step by step.
* `Graph.ResolvesCoded` — a coded index leads to the row that it refers to, or to nothing.

## Main results

* `MetadataImage.resolveCoded_eq` — the row that a coded index leads to.
* `Graph.runOn_lookUpCoded` — this is what looking it up step by step gives.
* `Session.resolvesCoded_iff` — when that is the row that the coded index refers to.
-/

namespace ManagedImage

/-- A coded index is refused as malformed. -/
theorem CodedKind.exists_malformed {kind : CodedKind} {value : UInt32} {e : Error}
    (h : kind.decode value = .error e) : ∃ cause, e = .malformed cause := by
  unfold decode at h
  dsimp only at h
  split at h
  · exact nomatch h
  · exact ⟨_, (Except.error.inj h).symm⟩
  · exact ⟨_, (Except.error.inj h).symm⟩

namespace MetadataImage

variable {image : MetadataImage} {kind : CodedKind} {value : UInt32} {index : CodedIndex}

/-- The entity of a row, if the table has the row and its rows are entities. -/
def entityOf? (image : MetadataImage) (table : TableId) (row : UInt32) : Option AnyRef :=
  if row = 0 ∨ image.tables.rowCount table < row then none
  else (EntityKind.ofTable? table).map fun k => ⟨k, .row row⟩

/-- A token names the row with the low 24 bits of the number that it was made from. -/
theorem resolve?_ofRow (image : MetadataImage) (table : TableId) (row : UInt32) :
    image.resolve? (Token.ofRow table row) = image.entityOf? table (row &&& Token.maxRow) := by
  rw [resolve?, Token.tableId?_ofRow, Option.bind_some, Token.row_ofRow, entityOf?]
  cases hkind : EntityKind.ofTable? table with
  | none => simp
  | some k =>
    obtain rfl := EntityKind.ofTable?_eq_some_iff.mp hkind
    rfl

theorem id_of_entityOf? {table : TableId} {row : UInt32} {r : AnyRef}
    (h : image.entityOf? table row = some r) : r.id = .row row := by
  unfold entityOf? at h
  split at h
  · exact nomatch h
  · obtain ⟨k, -, rfl⟩ := Option.map_eq_some_iff.mp h
    rfl

/-- **The row that a coded index leads to** has the low 24 bits of its row number. -/
theorem resolveCoded_eq (h : kind.decode value = .ok index) :
    image.resolveCoded kind value =
      .ok (image.entityOf? index.table (index.row &&& Token.maxRow)) := by
  rw [resolveCoded, h]
  change Except.ok (if index.isNull then none else image.resolve? index.token) = _
  rw [CodedIndex.token, resolve?_ofRow, CodedIndex.isNull]
  by_cases hnull : index.row = 0
  · rw [hnull]
    rfl
  · rw [if_neg (by simpa using hnull)]

/-- The row number has 24 bits, or it leads to nothing, and so do its low 24 bits. -/
def Distinguishes (image : MetadataImage) (index : CodedIndex) : Prop :=
  index.row ≤ Token.maxRow ∨
    image.entityOf? index.table index.row = none ∧
      image.entityOf? index.table (index.row &&& Token.maxRow) = none

/-- The low 24 bits of a row number lead where the number leads only if nothing is lost. -/
theorem entityOf?_and_maxRow_eq_iff :
    image.entityOf? index.table (index.row &&& Token.maxRow) =
      image.entityOf? index.table index.row ↔ image.Distinguishes index := by
  constructor
  · intro h
    cases hr : image.entityOf? index.table index.row with
    | none => exact .inr ⟨hr, h.trans hr⟩
    | some r =>
      -- the entity shows which of the two numbers it was found by
      have hlow := id_of_entityOf? (h.trans hr)
      rw [id_of_entityOf? hr] at hlow
      rw [Distinguishes, Identity.row.inj hlow]
      exact .inl (Token.and_maxRow_le _)
  · rintro (hle | ⟨hnone, hlow⟩)
    · rw [Token.and_maxRow_of_le hle]
    · rw [hnone, hlow]

end MetadataImage

namespace Graph

variable {g : Graph} {image : MetadataImage} {kind : CodedKind} {value : UInt32}

/-- Looks a coded index up: unless it refers to nothing, by the token of its row. -/
def lookUpCoded (kind : CodedKind) (value : UInt32) : GraphAction (Option AnyRef) := do
  let index ← Action.ofExcept (kind.decode value)
  if index.isNull then
    return none
  else
    lookUp index.token

/-- A coded index leads to the row that it refers to, or to nothing if there is no such row.  If it
refers to no table it is refused. -/
structure ResolvesCoded (g : Graph) (image : MetadataImage) (kind : CodedKind) (value : UInt32) :
    Prop where
  /-- What cannot be decoded is refused, and nothing is done. -/
  refused : ∀ e, kind.decode value = .error e → (∃ cause, e = .malformed cause) ∧
    (resolveCoded kind value).runOn g = (.error e, g)
  /-- What can be decoded leads to its row. -/
  resolved : ∀ index, kind.decode value = .ok index →
    ∃ g', (resolveCoded kind value).runOn g = (.ok (image.entityOf? index.table index.row), g') ∧
      ∀ r ∈ image.entityOf? index.table index.row, g'.isAlive r

theorem runOn_resolveCoded_error (himage : g.image? = some image) {e : Error}
    (h : kind.decode value = .error e) : (resolveCoded kind value).runOn g = (.error e, g) := by
  have hcoded : image.resolveCoded kind value = .error e := by
    rw [MetadataImage.resolveCoded, h]
    rfl
  unfold Action.runOn resolveCoded
  rw [himage]
  dsimp only
  rw [hcoded]

theorem runOn_resolveCoded_ok (himage : g.image? = some image) {index : CodedIndex}
    (h : kind.decode value = .ok index) :
    (resolveCoded kind value).runOn g =
      (.ok (image.entityOf? index.table (index.row &&& Token.maxRow)),
        (resolve index.token g).2) := by
  rw [resolve_eq himage, CodedIndex.token, MetadataImage.resolve?_ofRow]
  unfold Action.runOn resolveCoded
  rw [himage]
  dsimp only
  rw [MetadataImage.resolveCoded_eq h]

/-- **Looking a coded index up step by step** gives what it leads to, and makes the same entity. -/
theorem runOn_lookUpCoded (hdecoded : image.tables.IsDecoded) (hnamed : g.IsNamed)
    (himage : g.image? = some image) (kind : CodedKind) (value : UInt32) :
    (lookUpCoded kind value).runOn g = (resolveCoded kind value).runOn g := by
  unfold lookUpCoded
  rw [Action.runOn_bind, Action.runOn_ofExcept]
  cases hdecode : kind.decode value with
  | error e => exact (runOn_resolveCoded_error himage hdecode).symm
  | ok index =>
    rw [runOn_resolveCoded_ok himage hdecode]
    dsimp only
    split
    · next hnull =>
      -- row 0 is not looked up, and no token with it names anything
      have hrow : index.row = 0 := by simpa [CodedIndex.isNull] using hnull
      rw [resolve_eq himage, CodedIndex.token, MetadataImage.resolve?_ofRow, hrow]
      rfl
    · rw [runOn_lookUp hdecoded hnamed himage, CodedIndex.token, MetadataImage.resolve?_ofRow]

/-- A coded index leads to the row that it refers to exactly if its row number is not taken for
another one. -/
theorem resolvesCoded_iff_distinguishes (hdecoded : image.tables.IsDecoded)
    (himage : g.image? = some image) :
    g.ResolvesCoded image kind value ↔
      ∀ index, kind.decode value = .ok index → image.Distinguishes index := by
  constructor
  · intro h index hdecode
    obtain ⟨g', hrun, -⟩ := h.resolved index hdecode
    rw [runOn_resolveCoded_ok himage hdecode] at hrun
    exact MetadataImage.entityOf?_and_maxRow_eq_iff.mp (Except.ok.inj (congrArg Prod.fst hrun))
  · intro h
    refine ⟨fun e he => ⟨CodedKind.exists_malformed he, runOn_resolveCoded_error himage he⟩,
      fun index hdecode => ?_⟩
    have hsame := MetadataImage.entityOf?_and_maxRow_eq_iff.mpr (h index hdecode)
    have hrun := runOn_resolveCoded_ok himage hdecode
    rw [hsame] at hrun
    refine ⟨_, hrun, fun r hr => isAlive_resolve hdecoded himage ?_⟩
    rw [CodedIndex.token, MetadataImage.resolve?_ofRow, hsame]
    exact hr

end Graph

namespace Session

variable {image : MetadataImage} {config : Config} {source : MetadataStreams}

/-- **Coded indexes lead to the rows that they refer to, but for rows that tokens cannot tell
apart.**  Over a decoded image, whatever has been asked for before, what cannot be decoded is
refused, and what can be decoded leads to the row with the low 24 bits of its row number.  This is
the row that it refers to, or nothing if there is no such row, exactly if the row number has 24 bits
or neither of the two is there. -/
theorem resolvesCoded_iff (h : MetadataImage.decode config source = .ok image)
    {earlier : List Request} (hearlier : ∀ q ∈ earlier, q.command.dropsImage = false) :
    ∃ answers s, (earlier.mapM perform).run (start (some image)) = (answers, s) ∧
      ∀ kind value,
        (Graph.lookUpCoded kind value).runOn s.graph =
          (Graph.resolveCoded kind value).runOn s.graph ∧
        (∀ index, kind.decode value = .ok index →
          ((Graph.resolveCoded kind value).runOn s.graph).1 =
            .ok (image.entityOf? index.table (index.row &&& Token.maxRow))) ∧
        (s.graph.ResolvesCoded image kind value ↔
          ∀ index, kind.decode value = .ok index → image.Distinguishes index) := by
  have hdecoded := MetadataImage.isDecoded_of_decode h
  rcases hs : (earlier.mapM perform).run (start (some image)) with ⟨answers, s⟩
  have hretains : (start (some image)).graph.Retains s.graph := by
    have hkeeps := along_requests hearlier (start (some image))
    rwa [show earlier.mapM perform (start (some image)) = _ from hs] at hkeeps
  have himage : s.graph.image? = some image := hretains.image
  refine ⟨answers, s, rfl, fun kind value => ⟨?_, fun index hdecode => ?_, ?_⟩⟩
  · exact Graph.runOn_lookUpCoded hdecoded (hretains.named isNamed_start) himage kind value
  · rw [Graph.runOn_resolveCoded_ok himage hdecode]
  · exact Graph.resolvesCoded_iff_distinguishes hdecoded himage

theorem resolvesCoded_nestedPair :
    ∃ image, MetadataImage.decode .lenient MetadataImage.nestedPair = .ok image ∧
      (∀ q ∈ unnest, q.command.dropsImage = false) ∧
      ∃ answers s, (unnest.mapM perform).run (start (some image)) = (answers, s) ∧
        s.graph.ResolvesCoded image .typeDefOrRef 4 := by
  have hunnest : ∀ q ∈ unnest, q.command.dropsImage = false := by
    simp [unnest, Command.dropsImage]
  have hcheck : (MetadataImage.decode .lenient MetadataImage.nestedPair).isOk = true := by
    decide +kernel
  cases hdecode : MetadataImage.decode .lenient MetadataImage.nestedPair with
  | error e => exact absurd hcheck (by simp [hdecode, Except.isOk, Except.toBool])
  | ok image =>
    obtain ⟨answers, s, hs, hresolves⟩ := resolvesCoded_iff hdecode hunnest
    refine ⟨image, rfl, hunnest, answers, s, hs, (hresolves .typeDefOrRef 4).2.2.mpr ?_⟩
    intro index hindex
    obtain rfl : (⟨.typeDef, 1⟩ : CodedIndex) = index := Except.ok.inj hindex
    exact .inl (by decide)

/-- Row 16777217 of the types is not there, but a coded index that refers to it leads to row 1. -/
theorem not_resolvesCoded_nestedPair :
    ∃ image, MetadataImage.decode .lenient MetadataImage.nestedPair = .ok image ∧
      CodedKind.typeDefOrRef.decode 67108868 = .ok ⟨.typeDef, 16777217⟩ ∧
      image.tables.rowCount .typeDef = 2 ∧
      ((Graph.resolveCoded .typeDefOrRef 67108868).runOn (.empty (some image))).1 =
        .ok (some ⟨.typeDef, .row 1⟩) ∧
      ¬(Graph.empty (some image)).ResolvesCoded image .typeDefOrRef 67108868 := by
  have hcheck : (MetadataImage.decode .lenient MetadataImage.nestedPair).toOption.any (fun image =>
      decide (image.tables.rowCount .typeDef = 2)) = true := by
    decide +kernel
  cases hdecode : MetadataImage.decode .lenient MetadataImage.nestedPair with
  | error e => exact absurd hcheck (by simp [hdecode, Except.toOption])
  | ok image =>
    rw [hdecode] at hcheck
    have hcount : image.tables.rowCount .typeDef = 2 := of_decide_eq_true hcheck
    have hcoded : CodedKind.typeDefOrRef.decode 67108868 = .ok ⟨.typeDef, 16777217⟩ := by decide
    have himage : (Graph.empty (some image)).image? = some image := rfl
    have hrow : image.entityOf? .typeDef (16777217 &&& Token.maxRow) =
        some ⟨.typeDef, .row 1⟩ := by
      rw [MetadataImage.entityOf?, hcount]
      rfl
    have hrun := congrArg Prod.fst (Graph.runOn_resolveCoded_ok himage hcoded)
    refine ⟨image, rfl, hcoded, hcount, hrun.trans (congrArg _ hrow), fun h => ?_⟩
    rcases (Graph.resolvesCoded_iff_distinguishes (MetadataImage.isDecoded_of_decode hdecode)
      himage).mp h _ hcoded with hle | ⟨-, hnone⟩
    · exact absurd hle (by decide)
    · exact absurd (hrow.symm.trans hnone) (by simp)

end Session

end ManagedImage
