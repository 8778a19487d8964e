import ManagedImage.Proofs.Nesting.Records

/-!
# The index of owners

The index of an image is made type by type and record by record, and what comes first stays.  Runs
may overlap, pointers may repeat or lead out of their table, and several records may nest one type.
Row numbers come in order, so what comes first has the least number: the index tells the least type
that lists a member, the least record that nests a type, and all records of an enclosing type.

## Main definitions

* `TablesStream.Lists` — the run of a type has a member.
* `TablesStream.Records` — a record nests a type in another one.
* `MetadataImage.IsIndexed` — the index tells exactly what the tables say.

## Main results

* `MetadataImage.memberOwner?_eq_some_iff` — the owner of a member is the least type that lists it.
* `MetadataImage.enclosingRid?_eq_some_iff` — the least record that nests a type says what
  encloses it.
* `MetadataImage.mem_nestingRids_iff` — the records of an enclosing type are those that name it.
* `MetadataImage.isIndexed_of_decode` — **the index of a decoded image is exact.**
-/

namespace ManagedImage

/-- In ascending order, nothing that can be found is less than what is found first. -/
theorem le_of_find?_eq_some {α : Type} {f : α → UInt32} {p : α → Bool} {xs : List α} {a b : α}
    (hsorted : xs.Pairwise fun a b => f a ≤ f b) (hfind : xs.find? p = some a) (hb : b ∈ xs)
    (hp : p b) : f a ≤ f b := by
  obtain ⟨-, before, behind, rfl, hbefore⟩ := List.find?_eq_some_iff_append.mp hfind
  obtain ⟨-, hsorted, -⟩ := List.pairwise_append.mp hsorted
  rcases List.mem_append.mp hb with hb | hb
  · -- nothing in front of it can be found
    have hnot := hbefore b hb
    rw [hp] at hnot
    cases hnot
  · rcases List.mem_cons.mp hb with rfl | hb
    · exact UInt32.le_refl (f b)
    · exact (List.pairwise_cons.mp hsorted).1 b hb

namespace TablesStream

/-- The run of a type has a member. -/
def Lists (s : TablesStream) (l : MemberList) (type member : UInt32) : Prop :=
  type ≠ 0 ∧ type ≤ s.rowCount .typeDef ∧
    ∃ members, s.memberRids l type = .ok members ∧ member ∈ members

/-- A record nests a type in another one. -/
def Records (s : TablesStream) (record nested enclosing : UInt32) : Prop :=
  ∃ row, s.row .nestedClass record = .ok row ∧ row.column 0 = nested ∧ row.column 1 = enclosing

/-- The records are the nesting records of the stream. -/
theorem records_iff {s : TablesStream} {record nested enclosing : UInt32} :
    s.Records record nested enclosing ↔
      ∃ row ∈ OwnerIndex.nestingRows s,
        row.rid = record ∧ row.column 0 = nested ∧ row.column 1 = enclosing := by
  constructor
  · rintro ⟨row, hread, hnested, henclosing⟩
    have hrow := row?_eq_some_iff.mpr hread
    have hrid := rid_of_row? hrow
    refine ⟨row, OwnerIndex.mem_nestingRows_iff.mpr ?_, hrid, hnested, henclosing⟩
    rwa [hrid]
  · rintro ⟨row, hmem, rfl, hnested, henclosing⟩
    have hrow := OwnerIndex.mem_nestingRows_iff.mp hmem
    exact ⟨row, row?_eq_some_iff.mp hrow, hnested, henclosing⟩

end TablesStream

namespace MetadataImage

variable {image : MetadataImage} {config : Config} {source : MetadataStreams} {l : MemberList}
  {member type record enclosing : UInt32}

/-! ### Owners of members -/

theorem lists_iff (h : image.tables.IsDecoded) :
    image.tables.Lists l type member ↔
      type ∈ OwnerIndex.rids image.tables .typeDef ∧ member ∈ image.tables.members l type := by
  rw [TablesStream.Lists, mem_rids h, and_assoc, h.memberRids_eq]
  simp only [Except.ok.injEq, exists_eq_left']

/-- An owner is the least type that lists the member. -/
theorem isLeast_of_memberOwner? (h : image.tables.IsDecoded)
    (howner : image.memberOwner? l member = some type) :
    IsLeast {type | image.tables.Lists l type member} type := by
  refine ⟨(lists_iff h).mpr (mem_rids_of_memberOwner? howner), fun type' hlists => ?_⟩
  obtain ⟨htype', hmember⟩ := (lists_iff h).mp hlists
  unfold memberOwner? at howner
  split at howner
  · have hsorted := (OwnerIndex.pairwise_rids image.tables .typeDef).imp UInt32.le_of_lt
    exact le_of_find?_eq_some (f := id) hsorted howner htype' (decide_eq_true hmember)
  · cases howner

theorem memberOwner?_eq_some_iff (h : image.tables.IsDecoded)
    (hle : member ≤ image.tables.rowCount l.target) :
    image.memberOwner? l member = some type ↔
      IsLeast {type | image.tables.Lists l type member} type := by
  refine ⟨isLeast_of_memberOwner? h, fun ⟨hlists, hleast⟩ => ?_⟩
  obtain ⟨htype, hmember⟩ := (lists_iff h).mp hlists
  -- there is an owner, and no other type is the least one
  obtain ⟨type', howner⟩ := exists_memberOwner? hle htype hmember
  obtain ⟨hlists', hleast'⟩ := isLeast_of_memberOwner? h howner
  rw [howner, UInt32.le_antisymm (hleast' hlists) (hleast hlists')]

theorem memberOwner?_eq_none_iff (h : image.tables.IsDecoded)
    (hle : member ≤ image.tables.rowCount l.target) :
    image.memberOwner? l member = none ↔ ∀ type, ¬image.tables.Lists l type member := by
  constructor
  · intro hnone type hlists
    obtain ⟨htype, hmember⟩ := (lists_iff h).mp hlists
    obtain ⟨type', howner⟩ := exists_memberOwner? hle htype hmember
    rw [hnone] at howner
    cases howner
  · intro hnone
    by_contra hsome
    obtain ⟨type, howner⟩ := Option.ne_none_iff_exists'.mp hsome
    exact hnone type (isLeast_of_memberOwner? h howner).1

/-! ### Nesting records -/

/-- The enclosing type is the one that the least record of the nested type names. -/
theorem enclosingRid?_eq_some_iff :
    image.enclosingRid? type = some enclosing ↔
      ∃ record, image.tables.Records record type enclosing ∧
        ∀ other enclosing', image.tables.Records other type enclosing' → record ≤ other := by
  have hsorted : (OwnerIndex.nestingRows image.tables).Pairwise
      fun row row' => row.rid ≤ row'.rid :=
    (OwnerIndex.pairwise_nestingRows image.tables).imp UInt32.le_of_lt
  rw [enclosingRid?, Option.map_eq_some_iff]
  constructor
  · rintro ⟨row, hfind, henclosing⟩
    have hmem := List.mem_of_find?_eq_some hfind
    have hnested : row.column 0 = type := by simpa using List.find?_some hfind
    refine ⟨row.rid, TablesStream.records_iff.mpr ⟨row, hmem, rfl, hnested, henclosing⟩, ?_⟩
    intro other enclosing' hother
    obtain ⟨row', hmem', rfl, hnested', -⟩ := TablesStream.records_iff.mp hother
    exact le_of_find?_eq_some hsorted hfind hmem' (beq_iff_eq.mpr hnested')
  · rintro ⟨record, hrecord, hleast⟩
    obtain ⟨row, hmem, rfl, hnested, henclosing⟩ := TablesStream.records_iff.mp hrecord
    have hfound : ((OwnerIndex.nestingRows image.tables).find? (·.column 0 == type)).isSome :=
      List.find?_isSome.mpr ⟨row, hmem, beq_iff_eq.mpr hnested⟩
    obtain ⟨found, hfind⟩ := Option.isSome_iff_exists.mp hfound
    have hmem' := List.mem_of_find?_eq_some hfind
    have hnested' : found.column 0 = type := by simpa using List.find?_some hfind
    have hle := hleast found.rid _
      (TablesStream.records_iff.mpr ⟨found, hmem', rfl, hnested', rfl⟩)
    have hle' := le_of_find?_eq_some hsorted hfind hmem (beq_iff_eq.mpr hnested)
    -- one number, one row
    rw [OwnerIndex.mem_nestingRows_iff] at hmem hmem'
    rw [UInt32.le_antisymm hle' hle, hmem] at hmem'
    obtain rfl := Option.some.inj hmem'
    exact ⟨row, hfind, henclosing⟩

theorem enclosingRid?_eq_none_iff :
    image.enclosingRid? type = none ↔
      ∀ record enclosing, ¬image.tables.Records record type enclosing := by
  rw [enclosingRid?, Option.map_eq_none_iff, List.find?_eq_none]
  constructor
  · intro hnone record enclosing hrecord
    obtain ⟨row, hmem, -, hnested, -⟩ := TablesStream.records_iff.mp hrecord
    exact hnone row hmem (beq_iff_eq.mpr hnested)
  · intro hnone row hmem hnested
    exact hnone row.rid _ (TablesStream.records_iff.mpr ⟨row, hmem, rfl, eq_of_beq hnested, rfl⟩)

theorem mem_nestingRids_iff :
    record ∈ image.nestingRids enclosing ↔
      ∃ nested, image.tables.Records record nested enclosing := by
  simp only [nestingRids, List.mem_map, List.mem_filter, beq_iff_eq, TablesStream.records_iff]
  constructor
  · rintro ⟨row, ⟨hmem, henclosing⟩, hrid⟩
    exact ⟨row.column 0, row, hmem, hrid, rfl, henclosing⟩
  · rintro ⟨nested, row, hmem, hrid, -, henclosing⟩
    exact ⟨row, ⟨hmem, henclosing⟩, hrid⟩

theorem pairwise_nestingRids (image : MetadataImage) (enclosing : UInt32) :
    (image.nestingRids enclosing).Pairwise (· < ·) := by
  rw [nestingRids, List.pairwise_map]
  exact (OwnerIndex.pairwise_nestingRows image.tables).filter _

/-! ### The index -/

/-- The index tells exactly what the tables say. -/
structure IsIndexed (image : MetadataImage) : Prop where
  /-- No row is left out because it cannot be read. -/
  readable : ∀ t rid, rid ≠ 0 → rid ≤ image.tables.rowCount t →
    ∃ row, image.tables.row t rid = .ok row
  /-- The members of a type can always be told. -/
  listed : ∀ l type, ∃ members, image.tables.memberRids l type = .ok members
  /-- The owner of a member is the least type that lists it. -/
  owner : ∀ l member, member ≠ 0 → member ≤ image.tables.rowCount l.target → ∀ type,
    image.memberOwner l member = .ok (some type) ↔
      IsLeast {type | image.tables.Lists l type member} type
  /-- A member has no owner if no type lists it. -/
  ownerless : ∀ l member, member ≠ 0 → member ≤ image.tables.rowCount l.target →
    (image.memberOwner l member = .ok none ↔ ∀ type, ¬image.tables.Lists l type member)
  /-- What is past the end of the members has no owner, whatever lists it. -/
  outside : ∀ l member, image.tables.rowCount l.target < member →
    image.memberOwner l member = .ok none
  /-- A type is enclosed as the least record that nests it says. -/
  enclosed : ∀ type enclosing, image.enclosingRid type = .ok (some enclosing) ↔
    ∃ record, image.tables.Records record type enclosing ∧
      ∀ other enclosing', image.tables.Records other type enclosing' → record ≤ other
  /-- A type is not enclosed if no record nests it. -/
  unenclosed : ∀ type, image.enclosingRid type = .ok none ↔
    ∀ record enclosing, ¬image.tables.Records record type enclosing
  /-- An enclosing type has the records that name it, in ascending order, each once. -/
  records : ∀ enclosing, ∃ records, image.nestingRecords enclosing = .ok records ∧
    records.Pairwise (· < ·) ∧
    ∀ record, record ∈ records ↔ ∃ nested, image.tables.Records record nested enclosing

/-- **The index of a decoded image is exact**, whatever the runs, the pointers and the records are:
it tells the least type that lists a member, the least record that nests a type, and all records of
an enclosing type. -/
theorem isIndexed_of_decode (h : decode config source = .ok image) : image.IsIndexed := by
  have hdecoded := isDecoded_of_decode h
  constructor
  case readable => exact fun t rid hpos hle => hdecoded.exists_row hpos hle
  case listed => exact fun l type => ⟨_, hdecoded.memberRids_eq l type⟩
  case owner =>
    intro l member _ hle type
    rw [memberOwner_eq hdecoded, Except.ok.injEq]
    exact memberOwner?_eq_some_iff hdecoded hle
  case ownerless =>
    intro l member _ hle
    rw [memberOwner_eq hdecoded, Except.ok.injEq]
    exact memberOwner?_eq_none_iff hdecoded hle
  case outside =>
    intro l member hlt
    rw [memberOwner_eq hdecoded, memberOwner?, if_neg (UInt32.not_le.mpr hlt)]
  case enclosed =>
    intro type enclosing
    rw [enclosingRid_eq hdecoded, Except.ok.injEq]
    exact enclosingRid?_eq_some_iff
  case unenclosed =>
    intro type
    rw [enclosingRid_eq hdecoded, Except.ok.injEq]
    exact enclosingRid?_eq_none_iff
  case records =>
    exact fun enclosing => ⟨_, nestingRecords_eq hdecoded enclosing,
      image.pairwise_nestingRids enclosing, fun record => mem_nestingRids_iff⟩

/-- Two types that both list the one field, through pointers, and two records that nest the second
type, in the first one and in itself. -/
def twice : MetadataStreams where
  tables := #[0, 0, 0, 0, 2, 0, 0, 1,
    0x1C, 0, 0, 0, 0, 2, 0, 0, 0, 0, 0, 0, 0, 0, 0, 0,
    2, 0, 0, 0, 2, 0, 0, 0, 1, 0, 0, 0, 2, 0, 0, 0,
    0, 0, 0, 0, 0, 0, 0, 0, 0, 0, 1, 0, 1, 0,
    0, 0, 0, 0, 0, 0, 0, 0, 0, 0, 2, 0, 1, 0,
    1, 0, 1, 0,
    0, 0, 0, 0, 0, 0,
    2, 0, 1, 0, 2, 0, 2, 0]
  strings? := none
  guids? := none
  blobs? := none

theorem isIndexed_twice :
    ∃ image, decode .lenient twice = .ok image ∧ image.IsIndexed ∧
      image.memberOwner .fields 1 = .ok (some 1) ∧ image.enclosingRid 2 = .ok (some 1) := by
  have hcheck : (decode .lenient twice).toOption.any (fun image =>
      decide (image.memberOwner? .fields 1 = some 1 ∧ image.enclosingRid? 2 = some 1)) = true := by
    decide +kernel
  cases hdecode : decode .lenient twice with
  | error e => exact absurd hcheck (by simp [hdecode, Except.toOption])
  | ok image =>
    rw [hdecode] at hcheck
    obtain ⟨howner, henclosing⟩ := of_decide_eq_true hcheck
    have hdecoded := isDecoded_of_decode hdecode
    exact ⟨image, rfl, isIndexed_of_decode hdecode,
      (memberOwner_eq hdecoded .fields 1).trans (congrArg Except.ok howner),
      (enclosingRid_eq hdecoded 2).trans (congrArg Except.ok henclosing)⟩

end MetadataImage

end ManagedImage
