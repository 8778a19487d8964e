import ManagedImage.Proofs.Graph.Naming
import ManagedImage.Proofs.Identity.Sessions

/-!
# One entity per token

The entity of a token is looked up among those that have been made, and otherwise made from its row.
Looking it up never fails over a decoded image, and it makes no difference when and how often it is
done: a token names one entity at most, and an entity of a row is named by its own token only.

## Main definitions

* `Graph.lookUp` — looks a token up step by step.
* `Session.Identifies` — every way to an entity of a row leads to the one that its token names.

## Main results

* `MetadataImage.resolve?_eq_none_iff`, `MetadataImage.resolve?_eq_some_iff` — which tokens name an
  entity, and which one.
* `Graph.runOn_lookUp` — looking a token up never fails.
* `Session.one_entity_per_token` — this holds throughout a run of requests.
-/

namespace ManagedImage

/-- A token consists of its two parts. -/
theorem Token.ofRow_row {t : Token} {table : TableId} (h : t.tableId? = some table) :
    Token.ofRow table t.row = t := by
  have hindex : table.index = t.value.toNat / 2 ^ 24 := by
    rw [TableId.index_of_ofIndex? h, tableByte, UInt32.toNat_toUInt8, UInt32.toNat_shiftRight,
      show (24 : UInt32).toNat % 32 = 24 from rfl, Nat.shiftRight_eq_div_pow]
    have hlt := t.value.toNat_lt
    omega
  have hvalue : (Token.ofRow table t.row).value = t.value := by
    apply UInt32.toNat_inj.mp
    rw [toNat_ofRow, hindex, row, toNat_and_maxRow, Nat.mod_mod, Nat.div_add_mod']
  cases t
  exact congrArg Token.mk hvalue

namespace MetadataImage

variable {image : MetadataImage} {t t' : Token} {r : AnyRef}

/-- **A token names nothing** if its high byte is not the number of a table, if the rows of the table
are not entities, or if the table has no such row. -/
theorem resolve?_eq_none_iff :
    image.resolve? t = none ↔ t.tableId? = none ∨ t.row = 0 ∨
      ∃ table, t.tableId? = some table ∧
        (EntityKind.ofTable? table = none ∨ image.tables.rowCount table < t.row) := by
  unfold resolve?
  cases htable : t.tableId? with
  | none => simp
  | some table =>
    cases hkind : EntityKind.ofTable? table with
    | none => simp [hkind]
    | some k =>
      obtain rfl := EntityKind.ofTable?_eq_some_iff.mp hkind
      simpa [hkind] using or_iff_not_imp_left.symm

/-- **The entity that a token names** comes from the row with the number in the token. -/
theorem resolve?_eq_some_iff :
    image.resolve? t = some r ↔ t.tableId? = some r.kind.table ∧ r.id = .row t.row ∧ t.row ≠ 0 ∧
      t.row ≤ image.tables.rowCount r.kind.table := by
  have hbind : t.tableId?.bind EntityKind.ofTable? = some r.kind ↔ t.tableId? = some r.kind.table := by
    rw [Option.bind_eq_some_iff]
    simp [EntityKind.ofTable?_eq_some_iff]
  rw [← hbind]
  unfold resolve?
  obtain ⟨k, id⟩ := r
  cases t.tableId?.bind EntityKind.ofTable? with
  | none => simp
  | some k' =>
    dsimp only
    constructor
    · intro h
      split at h
      · exact nomatch h
      · next hin =>
        obtain ⟨rfl, rfl⟩ := AnyRef.mk.inj (Option.some.inj h)
        obtain ⟨hpos, hle⟩ := not_or.mp hin
        exact ⟨rfl, rfl, hpos, UInt32.not_lt.mp hle⟩
    · rintro ⟨hk, rfl, hpos, hle⟩
      obtain rfl := Option.some.inj hk
      rw [if_neg (not_or.mpr ⟨hpos, UInt32.not_lt.mpr hle⟩)]

/-- An entity has the token that names it. -/
theorem token_of_resolve? (h : image.resolve? t = some r) : r.token = t := by
  obtain ⟨htable, hid, -, -⟩ := resolve?_eq_some_iff.mp h
  rw [AnyRef.token, hid]
  exact Token.ofRow_row htable

/-- What has a name is named by its own token. -/
theorem Names.resolve? (h : image.Names r) : image.resolve? r.token = some r := by
  obtain ⟨t, ht⟩ := h
  rw [token_of_resolve? ht, ht]

end MetadataImage

namespace Graph

variable {k : EntityKind} {g : Graph} {image : MetadataImage} {t : Token}

/-! ### Looking a token up -/

/-- The entity of a token, if it has been made. -/
def cached? (g : Graph) (t : Token) : Option AnyRef :=
  ((t.tableId?.bind EntityKind.ofTable?).map fun k => ⟨k, .row t.row⟩).filter g.isAlive

/-- Looks a token up: first among the entities that have been made, then in the tables.  An entity
that has not been made yet is made from its row. -/
def lookUp (t : Token) : GraphAction (Option AnyRef) := do
  let g ← get
  match g.image? with
  | none => throw .imageDropped
  | some image =>
    match g.cached? t with
    | some r => return some r
    | none =>
      match t.tableId? with
      | none => return none
      | some table =>
        if t.row = 0 ∨ image.tables.rowCount table < t.row then
          return none
        else
          match EntityKind.ofTable? table, image.tables.rows? table with
          | some k, some rows =>
            let row ← Action.ofExcept (rows.row t.row)
            Action.change (addRow · image ⟨k, .row t.row⟩ row)
            return some ⟨k, .row t.row⟩
          | _, _ => return none

theorem resolve_eq (himage : g.image? = some image) (t : Token) :
    resolve t g = (image.resolve? t, g.materialise image (image.resolve? t).toList) := by
  unfold resolve
  rw [himage]

/-- What a token names exists once it has been asked for. -/
theorem isAlive_resolve (hdecoded : image.tables.IsDecoded) (himage : g.image? = some image)
    {r : AnyRef} (hr : image.resolve? t = some r) : (resolve t g).2.isAlive r := by
  rw [resolve_eq himage, hr]
  obtain ⟨row, hrow⟩ := (MetadataImage.offers_of_resolve? hr).exists_row hdecoded
  refine isAlive_materialise_singleton himage ?_
  rw [isPresent, himage, Option.bind_some, hrow, Option.isSome_some, Bool.or_true]

/-- What has been made under a token is what the token names. -/
theorem resolve?_of_cached? (hnamed : g.IsNamed) (himage : g.image? = some image) {r : AnyRef}
    (h : g.cached? t = some r) : image.resolve? t = some r ∧ g.isAlive r := by
  obtain ⟨hmap, halive⟩ := Option.filter_eq_some_iff.mp h
  obtain ⟨k, hk, rfl⟩ := Option.map_eq_some_iff.mp hmap
  obtain ⟨table, htable, hkind⟩ := Option.bind_eq_some_iff.mp hk
  obtain rfl := EntityKind.ofTable?_eq_some_iff.mp hkind
  have hname := (hnamed image himage _ rfl halive).resolve?
  have htoken : AnyRef.token ⟨k, .row t.row⟩ = t := Token.ofRow_row htable
  rw [htoken] at hname
  exact ⟨hname, halive⟩

/-- What has not been made under a token does not exist. -/
theorem isAlive_of_cached?_eq_none (h : g.cached? t = none) {r : AnyRef}
    (hr : image.resolve? t = some r) : g.isAlive r = false := by
  obtain ⟨htable, hid, -, -⟩ := MetadataImage.resolve?_eq_some_iff.mp hr
  obtain ⟨k, id⟩ := r
  obtain rfl : id = .row t.row := hid
  rw [cached?, htable, Option.bind_some, EntityKind.ofTable?_table, Option.map_some] at h
  simpa using h

/-- What is named but has not been made is made from its row, which can be read. -/
theorem exists_row_of_cached?_eq_none (hdecoded : image.tables.IsDecoded)
    (himage : g.image? = some image) (h : g.cached? t = none) {r : AnyRef}
    (hr : image.resolve? t = some r) :
    ∃ rows row, image.tables.rows? r.kind.table = some rows ∧ rows.row t.row = .ok row ∧
      (resolve t g).2 = g.addRow image r row := by
  obtain ⟨-, hid, hpos, hle⟩ := MetadataImage.resolve?_eq_some_iff.mp hr
  obtain ⟨row, hrow⟩ := hdecoded.exists_row hpos hle
  have hrowOf : image.rowOf? r = some row := by
    rw [MetadataImage.rowOf?, hid]
    dsimp only
    rw [TablesStream.row?, hrow]
    rfl
  have hmade : (resolve t g).2 = g.addRow image r row := by
    rw [resolve_eq himage, hr]
    rcases materialise_singleton image r g with ⟨-, halive | hnorow⟩ | ⟨-, row', hrow', heq⟩
    · exact absurd halive (by simp [isAlive_of_cached?_eq_none h hr])
    · cases hrowOf.symm.trans hnorow
    · obtain rfl := Option.some.inj (hrowOf.symm.trans hrow')
      exact heq
  cases hrows : image.tables.rows? r.kind.table with
  | none => simp [TablesStream.row, hrows] at hrow
  | some rows => exact ⟨rows, row, rfl, by simpa [TablesStream.row, hrows] using hrow, hmade⟩

/-- **Looking a token up never fails**, and it gives what the token names. -/
theorem runOn_lookUp (hdecoded : image.tables.IsDecoded) (hnamed : g.IsNamed)
    (himage : g.image? = some image) (t : Token) :
    (lookUp t).runOn g = (.ok (image.resolve? t), (resolve t g).2) := by
  have hnone : image.resolve? t = none →
      (.ok none, g) = ((.ok (image.resolve? t), (resolve t g).2) : Except Error _ × Graph) := by
    intro h
    rw [resolve_eq himage, h]
    rfl
  unfold lookUp
  rw [Action.runOn_bind, Action.runOn_get]
  dsimp only
  rw [himage]
  dsimp only
  cases hcached : g.cached? t with
  | some r =>
    obtain ⟨hr, halive⟩ := resolve?_of_cached? hnamed himage hcached
    rw [resolve_eq himage, hr]
    rcases materialise_singleton image r g with ⟨heq, -⟩ | ⟨hdead, -⟩
    · exact Prod.ext rfl heq.symm
    · exact absurd halive (by simp [hdead])
  | none =>
    cases htable : t.tableId? with
    | none => exact hnone (MetadataImage.resolve?_eq_none_iff.mpr (Or.inl htable))
    | some table =>
      dsimp only
      split
      · next hout =>
        refine hnone (MetadataImage.resolve?_eq_none_iff.mpr (Or.inr ?_))
        exact hout.imp_right fun hlt => ⟨table, htable, Or.inr hlt⟩
      · next hin =>
        obtain ⟨hpos, hle⟩ := not_or.mp hin
        cases hkind : EntityKind.ofTable? table with
        | none =>
          exact hnone (MetadataImage.resolve?_eq_none_iff.mpr
            (Or.inr (Or.inr ⟨table, htable, Or.inl hkind⟩)))
        | some k =>
          obtain rfl := EntityKind.ofTable?_eq_some_iff.mp hkind
          have hr : image.resolve? t = some ⟨k, .row t.row⟩ :=
            MetadataImage.resolve?_eq_some_iff.mpr ⟨htable, rfl, hpos, UInt32.not_lt.mp hle⟩
          obtain ⟨rows, row, hrows, hrow, hmade⟩ :=
            exists_row_of_cached?_eq_none hdecoded himage hcached hr
          rw [hrows, hr, hmade]
          dsimp only
          rw [hrow]
          rfl

/-- What a loaded value refers to is what its tokens name, and it exists. -/
theorem resolve?_of_read (hdecoded : image.tables.IsDecoded) (himage : g.image? = some image)
    {p : Part k} {r : Ref k} {v : p.Value} {g' : Graph}
    (hstored : p.attr.stored r g = .unevaluated) (hread : (p.attr.read r).runOn g = (.ok v, g'))
    {s : AnyRef} (hs : s ∈ p.attr.refs v) :
    image.resolve? s.token = some s ∧ g'.isAlive s := by
  rw [runOn_read_eq, hstored] at hread
  cases hload : p.attr.loaded r g.image? with
  | error e =>
    rw [runOn_fetch_error hload] at hread
    exact nomatch congrArg Prod.fst hread
  | ok w =>
    obtain ⟨image', himage', row, -, hrow⟩ := exists_load_of_loaded hload
    obtain ⟨image'', himage'', hfetch⟩ := runOn_fetch_ok hload
    obtain rfl := Option.some.inj (himage.symm.trans himage')
    obtain rfl := Option.some.inj (himage.symm.trans himage'')
    rw [hfetch] at hread
    obtain ⟨hw, rfl⟩ := Prod.ext_iff.mp hread
    obtain rfl := Except.ok.inj hw
    have hname := names_of_load hrow s hs
    obtain ⟨srow, hsrow⟩ := hname.offers.exists_row hdecoded
    refine ⟨hname.resolve?, ?_⟩
    dsimp only
    rw [isAlive_put]
    refine isAlive_materialise himage hs ?_
    rw [isPresent, himage, Option.bind_some, hsrow, Option.isSome_some, Bool.or_true]

end Graph

/-! ### Runs of requests -/

namespace Session

variable {s s' : Session} {image : MetadataImage} {config : Config} {source : MetadataStreams}

/-- Every way to an entity of a row leads to the one that its token names. -/
structure Identifies (image : MetadataImage) (s : Session) : Prop where
  /-- Looking a token up does not fail. -/
  lookUp : ∀ t, (Graph.lookUp t).runOn s.graph = (.ok (image.resolve? t), (Graph.resolve t s.graph).2)
  /-- What is found exists from then on. -/
  alive : ∀ t r, image.resolve? t = some r → (Graph.resolve t s.graph).2.isAlive r
  /-- Asking for an entity of some kind gives the same one, if it is of that kind. -/
  find : ∀ k t, (run (.find k t)).runOn s =
    (.ok (Report.ofRef? ((image.resolve? t).bind (AnyRef.as? k))),
      { s with graph := (Graph.resolve t s.graph).2 })
  /-- What a list or a reference that is loaded now refers to is named and exists from then on. -/
  loaded : ∀ {k : EntityKind} (p : Part k) (r : Ref k) (v : p.Value) (g : Graph),
    p.attr.stored r s.graph = .unevaluated → (p.attr.read r).runOn s.graph = (.ok v, g) →
    ∀ x ∈ p.attr.refs v, image.resolve? x.token = some x ∧ g.isAlive x
  /-- So is everything that comes from a row and exists, wherever it has been found. -/
  named : ∀ r, r.id.isRow → s.graph.isAlive r → image.resolve? r.token = some r

theorem runOn_resolve (himage : s.graph.image? = some image) (t : Token) :
    (resolve t).runOn s =
      (.ok (image.resolve? t), { s with graph := (Graph.resolve t s.graph).2 }) := by
  have hask : Session.image.runOn s = (.ok image, s) := by
    have hpeek : (asking (·.image?)).runOn s = (.ok (some image), s) := by
      rw [asking, Action.runOn_ask, himage]
    unfold Session.image
    rw [Action.runOn_bind_ok hpeek]
    rfl
  unfold resolve
  rw [Action.runOn_bind_ok hask]
  change (Except.ok (Graph.resolve t s.graph).1, { s with graph := (Graph.resolve t s.graph).2 }) = _
  rw [Graph.resolve_eq himage]

theorem identifies (hdecoded : image.tables.IsDecoded) (hnamed : s.graph.IsNamed)
    (himage : s.graph.image? = some image) : s.Identifies image where
  lookUp := Graph.runOn_lookUp hdecoded hnamed himage
  alive _ _ := Graph.isAlive_resolve hdecoded himage
  find _ t := Action.runOn_bind_ok (runOn_resolve himage t)
  loaded _ _ _ _ hstored hread _ hx := Graph.resolve?_of_read hdecoded himage hstored hread hx
  named r hid hr := (hnamed image himage r hid hr).resolve?

theorem isNamed_start : (start (some image)).graph.IsNamed :=
  fun _ _ _ _ hr => absurd hr (by simp [start, Graph.not_isAlive_empty])

/-- **One entity per token.**  In a session over a decoded image that does not let go of it, looking a
token up never fails, at any time.  It gives nothing exactly if there is no such row of entities, and
otherwise an entity with this token.  All ways to an entity of a row lead to the one that its token
names, which is the same at any time; and once it has been made it stays, with what has been loaded or
written in it. -/
theorem one_entity_per_token (h : MetadataImage.decode config source = .ok image)
    {earlier later : List Request}
    (hearlier : ∀ q ∈ earlier, q.command.dropsImage = false)
    (hlater : ∀ q ∈ later, q.command.dropsImage = false) :
    (∀ t, image.resolve? t = none ↔ t.tableId? = none ∨ t.row = 0 ∨
      ∃ table, t.tableId? = some table ∧
        (EntityKind.ofTable? table = none ∨ image.tables.rowCount table < t.row)) ∧
    (∀ t r, image.resolve? t = some r → t.tableId? = some r.kind.table ∧ r.token = t) ∧
    (∀ t t' r, image.resolve? t = some r → image.resolve? t' = some r → t = t') ∧
    ∃ answers s answers' s',
      (earlier.mapM perform).run (start (some image)) = (answers, s) ∧
      (later.mapM perform).run s = (answers', s') ∧
      s.Identifies image ∧ s'.Identifies image ∧
      (∀ r, r.id.isRow → s.graph.isAlive r → s'.graph.isAlive r) ∧
      ∀ {k : EntityKind} (p : Part k) (r : Ref k), r.id.isRow →
        p.attr.stored r s.graph ≠ .unevaluated → p.attr.stored r s'.graph ≠ .unevaluated := by
  have hdecoded := MetadataImage.isDecoded_of_decode h
  have htoken : ∀ t r, image.resolve? t = some r → r.token = t :=
    fun _ _ => MetadataImage.token_of_resolve?
  refine ⟨fun _ => MetadataImage.resolve?_eq_none_iff,
    fun t r hr => ⟨(MetadataImage.resolve?_eq_some_iff.mp hr).1, htoken t r hr⟩,
    fun t t' r hr hr' => (htoken t r hr).symm.trans (htoken t' r hr'), ?_⟩
  rcases hs : (earlier.mapM perform).run (start (some image)) with ⟨answers, s⟩
  rcases hs' : (later.mapM perform).run s with ⟨answers', s'⟩
  have hfirst : (start (some image)).graph.Retains s.graph := by
    have hkeeps := along_requests hearlier (start (some image))
    rwa [show earlier.mapM perform (start (some image)) = _ from hs] at hkeeps
  have hsecond : s.graph.Retains s'.graph := by
    have hkeeps := along_requests hlater s
    rwa [show later.mapM perform s = _ from hs'] at hkeeps
  have himage : s.graph.image? = some image := hfirst.image
  have hnamed := hfirst.named isNamed_start
  refine ⟨answers, s, answers', s', rfl, hs', identifies hdecoded hnamed himage,
    identifies hdecoded (hsecond.named hnamed) (hsecond.image.trans himage),
    hsecond.alive (Option.isSome_of_eq_some himage),
    hsecond.evaluated (Option.isSome_of_eq_some himage)⟩

/-- The second type of two is taken out of the first one. -/
def unnest : List Request :=
  [⟨.list .items (.number 0x02000001) (.text "nested_classes"), none⟩,
    ⟨.detach (.number 0x29000001), none⟩]

/-- Afterwards both are looked up again, by their kind and through the record. -/
def lookAgain : List Request :=
  [⟨.find .typeDef ⟨0x02000002⟩, some "T"⟩,
    ⟨.get (.number 0x29000001) (.text "class"), some "U"⟩,
    ⟨.same (.text "T") (.text "U"), none⟩]

theorem one_entity_per_token_nestedPair :
    ∃ image, MetadataImage.decode .lenient MetadataImage.nestedPair = .ok image ∧
      (∀ q ∈ unnest, q.command.dropsImage = false) ∧
      (∀ q ∈ lookAgain, q.command.dropsImage = false) ∧
      image.resolve? ⟨0x02000002⟩ = some ⟨.typeDef, .row 2⟩ ∧
      (∀ t, image.resolve? t = none ↔ t.tableId? = none ∨ t.row = 0 ∨
        ∃ table, t.tableId? = some table ∧
          (EntityKind.ofTable? table = none ∨ image.tables.rowCount table < t.row)) ∧
      ∃ answers s answers' s',
        (unnest.mapM perform).run (start (some image)) = (answers, s) ∧
        (lookAgain.mapM perform).run s = (answers', s') ∧
        s.Identifies image ∧ s'.Identifies image := by
  have hcheck : (MetadataImage.decode .lenient MetadataImage.nestedPair).toOption.any (fun image =>
      decide (image.resolve? ⟨0x02000002⟩ = some ⟨.typeDef, .row 2⟩)) = true := by
    decide +kernel
  have hunnest : ∀ q ∈ unnest, q.command.dropsImage = false := by
    simp [unnest, Command.dropsImage]
  have hagain : ∀ q ∈ lookAgain, q.command.dropsImage = false := by
    simp [lookAgain, Command.dropsImage]
  cases hdecode : MetadataImage.decode .lenient MetadataImage.nestedPair with
  | error e => exact absurd hcheck (by simp [hdecode, Except.toOption])
  | ok image =>
    rw [hdecode] at hcheck
    obtain ⟨habsent, -, -, answers, s, answers', s', hs, hs', hfirst, hsecond, -⟩ :=
      one_entity_per_token hdecode hunnest hagain
    exact ⟨image, rfl, hunnest, hagain, of_decide_eq_true hcheck, habsent, answers, s, answers', s',
      hs, hs', hfirst, hsecond⟩

end Session

end ManagedImage
