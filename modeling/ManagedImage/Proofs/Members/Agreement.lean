import ManagedImage.Proofs.Graph.Naming
import ManagedImage.Proofs.Graph.Reading

/-!
# Member lists and owners

The list of a type comes from the run of its row, and the owner of a member from an index of all
runs, which keeps the first type that has a row in its run.  Runs may overlap, pointers may repeat,
and what stands in a pointer may be cut to another row number.  So the two sides agree only where
nothing of this happens.

## Main definitions

* `MemberList.Agrees` — members are listed by their owners only, and once.
* `MetadataImage.ListsOnce` — over all runs, every member is named once, by its own row number.

## Main results

* `MemberList.agrees_iff_listsOnce` — **the two sides agree where every member is named once.**
* `MemberList.not_agrees_overlapping` — they do not where two runs overlap.
-/

namespace ManagedImage

/-- What comes once over several lists comes from one of them. -/
theorem eq_of_nodup_flatMap {α β : Type} {f : α → List β} {xs : List α} {a b : α} {c : β}
    (h : (xs.flatMap f).Nodup) (ha : a ∈ xs) (hb : b ∈ xs) (hca : c ∈ f a) (hcb : c ∈ f b) :
    a = b := by
  have : Std.Symm (Function.onFun List.Disjoint f) := ⟨fun _ _ hd => hd.symm⟩
  by_contra hne
  exact (List.nodup_flatMap.mp h).2.forall ha hb hne hca hcb

theorem eq_of_nodup_filterMap {α β : Type} {f : α → Option β} {xs : List α} {a b : α} {c : β}
    (h : (xs.filterMap f).Nodup) (ha : a ∈ xs) (hb : b ∈ xs) (hca : f a = some c)
    (hcb : f b = some c) : a = b := by
  rw [List.filterMap_eq_flatMap_toList] at h
  exact eq_of_nodup_flatMap h ha hb (Option.mem_toList.mpr hca) (Option.mem_toList.mpr hcb)

namespace MetadataImage

variable {image : MetadataImage} {l : MemberList}

/-- The members in the run of a type. -/
def listed (image : MetadataImage) (l : MemberList) (type : UInt32) : List (Ref l.kind) :=
  (image.tables.members l type).filterMap (image.entityAt? l.kind)

/-- The owner of a member, by the index. -/
def ownerOf? (image : MetadataImage) (l : MemberList) (member : UInt32) : Option (Ref .typeDef) :=
  (image.memberOwner? l member).bind (image.entityAt? .typeDef)

/-- Over all runs, every member is named once, and by its own row number. -/
structure ListsOnce (image : MetadataImage) (l : MemberList) : Prop where
  /-- No number is cut to that of another row. -/
  named : ∀ type ∈ OwnerIndex.rids image.tables .typeDef, ∀ member ∈ image.tables.members l type,
    ∀ F, image.entityAt? l.kind member = some F → F.id = .row member
  /-- No member comes twice. -/
  nodup : ((OwnerIndex.rids image.tables .typeDef).flatMap (image.listed l)).Nodup

theorem listsOnce_iff :
    image.ListsOnce l ↔
      ((OwnerIndex.rids image.tables .typeDef).all fun type =>
        (image.tables.members l type).all fun member =>
          (image.entityAt? l.kind member).all fun F => decide (F.id = .row member)) = true ∧
      ((OwnerIndex.rids image.tables .typeDef).flatMap (image.listed l)).Nodup := by
  simp only [List.all_eq_true, Option.all_eq_true, decide_eq_true_eq]
  exact ⟨fun h => ⟨h.named, h.nodup⟩, fun h => ⟨h.1, h.2⟩⟩

instance : Decidable (image.ListsOnce l) := decidable_of_iff _ listsOnce_iff.symm

theorem mem_rids_of_memberOwner? {member type : UInt32}
    (h : image.memberOwner? l member = some type) :
    type ∈ OwnerIndex.rids image.tables .typeDef ∧ member ∈ image.tables.members l type := by
  unfold memberOwner? at h
  split at h
  · exact ⟨List.mem_of_find?_eq_some h, by simpa using List.find?_some h⟩
  · cases h

/-- A member with a run has an owner. -/
theorem exists_memberOwner? {member type : UInt32}
    (hle : member ≤ image.tables.rowCount l.target)
    (htype : type ∈ OwnerIndex.rids image.tables .typeDef)
    (hmember : member ∈ image.tables.members l type) :
    ∃ type', image.memberOwner? l member = some type' := by
  rw [memberOwner?, if_pos hle, ← Option.isSome_iff_exists, List.find?_isSome]
  exact ⟨type, htype, decide_eq_true hmember⟩

/-! ### The rows of types -/

theorem mem_rids (h : image.tables.IsDecoded) {t : TableId} {rid : UInt32} :
    rid ∈ OwnerIndex.rids image.tables t ↔ rid ≠ 0 ∧ rid ≤ image.tables.rowCount t := by
  unfold OwnerIndex.rids TablesStream.rows?
  cases hc : image.tables.tables.get t with
  | none =>
    refine ⟨fun hmem => absurd hmem List.not_mem_nil, fun ⟨hpos, hle⟩ => ?_⟩
    -- a table with rows would be there
    have hcount : image.tables.rowCount t ≠ 0 := fun hzero =>
      hpos (UInt32.le_antisymm (hzero ▸ hle) rid.zero_le)
    obtain ⟨c, hc', -⟩ := h.tiled.exists_of_mem (h.mem_tables hcount)
    rw [hc] at hc'
    exact absurd hc' (by simp)
  | some c =>
    have hcount : c.rows.count = image.tables.rowCount t := (h.holds hc).count
    rw [← hcount]
    exact Rows.mem_rids_iff

theorem nodup_rids (s : TablesStream) (t : TableId) : (OwnerIndex.rids s t).Nodup := by
  unfold OwnerIndex.rids
  cases s.rows? t with
  | none => exact List.nodup_nil
  | some rows =>
    refine List.nodup_range.map_on fun i hi j hj hij => ?_
    have hnumbers := congrArg UInt32.toNat hij
    rw [Rows.toNat_rid (List.mem_range.mp hi), Rows.toNat_rid (List.mem_range.mp hj)] at hnumbers
    exact Nat.succ.inj hnumbers

/-- Where all rows of a table have names, each has its own. -/
theorem entityAt?_of_mem_rids {k : EntityKind} (h : image.tables.IsDecoded)
    (hcount : image.tables.rowCount k.table ≤ Token.maxRow) {rid : UInt32}
    (hrid : rid ∈ OwnerIndex.rids image.tables k.table) :
    image.entityAt? k rid = some ⟨.row rid⟩ := by
  obtain ⟨hpos, hle⟩ := (mem_rids h).mp hrid
  rw [entityAt?_eq_some_iff, Token.and_maxRow_of_le (UInt32.le_trans hle hcount)]
  exact ⟨rfl, hpos, hle⟩

theorem le_rowCount_of_entityAt? {k : EntityKind} {rid : UInt32}
    (h : image.entityAt? k rid = some ⟨.row rid⟩) : rid ≤ image.tables.rowCount k.table := by
  obtain ⟨rid', hid, -, hle⟩ := (names_of_entityAt? h).offers
  rwa [Identity.row.inj hid]

/-- The owner of a member is a type that has it in its run. -/
theorem ownerOf?_eq_some_iff (h : image.tables.IsDecoded)
    (hcount : image.tables.rowCount .typeDef ≤ Token.maxRow) {member type : UInt32} :
    image.ownerOf? l member = some ⟨.row type⟩ ↔ image.memberOwner? l member = some type := by
  rw [ownerOf?, Option.bind_eq_some_iff]
  constructor
  · rintro ⟨type', howner, hentity⟩
    rw [entityAt?_of_mem_rids (k := .typeDef) h hcount (mem_rids_of_memberOwner? howner).1] at hentity
    simp only [Option.some.injEq, Ref.mk.injEq, Identity.row.injEq] at hentity
    rw [howner, hentity]
  · intro howner
    exact ⟨type, howner,
      entityAt?_of_mem_rids (k := .typeDef) h hcount (mem_rids_of_memberOwner? howner).1⟩

/-! ### The two sides of the image -/

/-- For the rows of an image: members are listed by their owners only, and once. -/
structure RunsAgree (image : MetadataImage) (l : MemberList) : Prop where
  mem_iff : ∀ type ∈ OwnerIndex.rids image.tables .typeDef, ∀ member,
    image.entityAt? l.kind member = some ⟨.row member⟩ →
      (⟨.row member⟩ ∈ image.listed l type ↔ image.ownerOf? l member = some ⟨.row type⟩)
  nodup : ∀ type ∈ OwnerIndex.rids image.tables .typeDef, (image.listed l type).Nodup

theorem ListsOnce.runsAgree (honce : image.ListsOnce l) (h : image.tables.IsDecoded)
    (hcount : image.tables.rowCount .typeDef ≤ Token.maxRow) : image.RunsAgree l := by
  refine ⟨fun type htype member hmember => ?_, (List.nodup_flatMap.mp honce.nodup).1⟩
  rw [ownerOf?_eq_some_iff h hcount]
  constructor
  · intro hlisted
    -- the member is named by its own number, so the index has it
    obtain ⟨n, hn, hentity⟩ := List.mem_filterMap.mp hlisted
    have hnumber := honce.named type htype n hn _ hentity
    obtain rfl : member = n := Identity.row.inj hnumber
    obtain ⟨type', howner⟩ := exists_memberOwner? (le_rowCount_of_entityAt? hmember) htype hn
    obtain ⟨htype', hn'⟩ := mem_rids_of_memberOwner? howner
    -- and no second run does
    have hlisted' : (⟨.row member⟩ : Ref l.kind) ∈ image.listed l type' :=
      List.mem_filterMap.mpr ⟨member, hn', hentity⟩
    rw [howner, eq_of_nodup_flatMap honce.nodup htype htype' hlisted hlisted']
  · intro howner
    obtain ⟨-, hn⟩ := mem_rids_of_memberOwner? howner
    exact List.mem_filterMap.mpr ⟨member, hn, hmember⟩

theorem RunsAgree.listsOnce (hagree : image.RunsAgree l) (h : image.tables.IsDecoded)
    (hcount : image.tables.rowCount .typeDef ≤ Token.maxRow) : image.ListsOnce l := by
  -- whatever is listed is owned by the type that lists it
  have howner : ∀ type ∈ OwnerIndex.rids image.tables .typeDef, ∀ F ∈ image.listed l type,
      ∃ member, F.id = .row member ∧ image.entityAt? l.kind member = some F ∧
        image.memberOwner? l member = some type := by
    intro type htype F hF
    obtain ⟨n, -, hentity⟩ := List.mem_filterMap.mp hF
    obtain ⟨member, hid, -, hnamed⟩ := (names_of_entityAt? hentity).entityAt?
    obtain rfl : F = ⟨.row member⟩ := by rw [← hid]
    refine ⟨member, rfl, hnamed, ?_⟩
    rw [← ownerOf?_eq_some_iff h hcount]
    exact (hagree.mem_iff type htype member hnamed).mp hF
  constructor
  · intro type htype n hn F hentity
    have hF : F ∈ image.listed l type := List.mem_filterMap.mpr ⟨n, hn, hentity⟩
    obtain ⟨member, hid, hnamed, hindex⟩ := howner type htype F hF
    obtain ⟨-, hmember⟩ := mem_rids_of_memberOwner? hindex
    -- two numbers for one member would list it twice
    rw [hid, eq_of_nodup_filterMap (hagree.nodup type htype) hn hmember hentity hnamed]
  · refine List.nodup_flatMap.mpr ⟨hagree.nodup, ?_⟩
    refine (nodup_rids image.tables .typeDef).imp_of_mem fun htype htype' hne => ?_
    intro F hF hF'
    obtain ⟨member, hid, -, hindex⟩ := howner _ htype F hF
    obtain ⟨member', hid', -, hindex'⟩ := howner _ htype' F hF'
    obtain rfl := Identity.row.inj (hid.symm.trans hid')
    exact hne (Option.some.inj (hindex.symm.trans hindex'))

end MetadataImage

/-! ### The two sides in a graph -/

namespace MemberList

variable {image : MetadataImage} {config : Config} {source : MetadataStreams} {g g' : Graph}
  {l : MemberList}

/-- How a graph holds the list of a type and the owners of its members. -/
def ownership : (l : MemberList) → Ownership Graph Error (Ref .typeDef) (Ref l.kind)
  | fields => Graph.fieldOwnership
  | methods => Graph.methodOwnership

/-- As far as the graph goes, members are listed by their owners only, and once. -/
structure Agrees (l : MemberList) (image : MetadataImage) (g : Graph) : Prop where
  /-- A member is in the list of a type if the type is its owner. -/
  mem_iff : ∀ (C : Ref .typeDef) (F : Ref l.kind), image.Names C.any → image.Names F.any →
    g.isAlive C.any → g.isAlive F.any →
    ∃ items owner, ((l.ownership.items C).runOn g).1 = .ok items ∧
      ((l.ownership.owner F).runOn g).1 = .ok owner ∧ (F ∈ items ↔ owner = some C)
  /-- No list has a member twice. -/
  nodup : ∀ C : Ref .typeDef, image.Names C.any → g.isAlive C.any →
    ∃ items, ((l.ownership.items C).runOn g).1 = .ok items ∧ items.Nodup

/-- While an image is only read, a value is what loading gives. -/
theorem value_of_loadsTo (hdecoded : image.tables.IsDecoded)
    (hload : (Graph.empty (some image)).LoadsTo g) {k : EntityKind} (p : Part k) {r : Ref k}
    (hr : image.Names r.any) :
    ∃ row : Row, row.rid = r.id.rid ∧ p.attr.value r g = p.attr.load image row := by
  obtain ⟨row, hrow, hrid⟩ := hr.offers.exists_row_rid hdecoded
  refine ⟨row, hrid, ?_⟩
  rw [hload.value, Graph.value_empty, Attribute.loaded, hrow]

/-- An entity with a name can be had. -/
theorem isPresent_empty (hdecoded : image.tables.IsDecoded) {r : AnyRef} (hr : image.Names r) :
    (Graph.empty (some image)).isPresent r := by
  obtain ⟨row, hrow⟩ := hr.offers.exists_row hdecoded
  rw [Graph.isPresent, Bool.or_eq_true]
  right
  change ((some image).bind _).isSome
  rw [Option.bind_some, hrow]
  rfl

/-- The list of a type has the members in its run. -/
theorem fst_items (hdecoded : image.tables.IsDecoded)
    (hload : (Graph.empty (some image)).LoadsTo g) {C : Ref .typeDef} (hC : image.Names C.any) :
    ((l.ownership.items C).runOn g).1 = .ok (image.listed l C.id.rid) := by
  cases l with
  | fields =>
    obtain ⟨row, hrid, hvalue⟩ := value_of_loadsTo hdecoded hload .fields hC
    rw [← hrid]
    exact ((Attribute.fst_runOn_read Part.fields.attr C g).trans hvalue).trans
      (Load.members_eq hdecoded .fields row)
  | methods =>
    obtain ⟨row, hrid, hvalue⟩ := value_of_loadsTo hdecoded hload .methods hC
    rw [← hrid]
    exact ((Attribute.fst_runOn_read Part.methods.attr C g).trans hvalue).trans
      (Load.members_eq hdecoded .methods row)

/-- An owner that has been made is living. -/
theorem fst_living {k : EntityKind} {a : GraphAction (Option (Ref k))} {v : Option (Ref k)}
    (hrun : a.runOn g = (.ok v, g')) (halive : ∀ x ∈ v, g'.isAlive x.any) :
    ((a >>= Graph.living).runOn g).1 = .ok v := by
  rw [Action.runOn_bind_ok hrun]
  have hfilter : v.filter (fun x => g'.isAlive x.any) = v := by
    cases v with
    | none => rfl
    | some x => exact Option.filter_some_pos (halive x rfl)
  exact congrArg Except.ok hfilter

/-- The owner of a member is the one in the index. -/
theorem fst_owner (hdecoded : image.tables.IsDecoded)
    (hload : (Graph.empty (some image)).LoadsTo g) (hg : g.Sound) {F : Ref l.kind}
    (hF : image.Names F.any) (halive : g.isAlive F.any) :
    ((l.ownership.owner F).runOn g).1 = .ok (image.ownerOf? l F.id.rid) := by
  -- the owner is offered by the image, so it exists once it has been loaded
  have hmade : ∀ g', g.LoadsTo g' → ∀ x ∈ image.ownerOf? l F.id.rid, g'.isPresent x.any := by
    intro g' hload' x hx
    obtain ⟨type, -, hentity⟩ := Option.bind_eq_some_iff.mp hx
    rw [hload'.present, hload.present]
    exact isPresent_empty hdecoded (MetadataImage.names_of_entityAt? hentity)
  have hmem : ∀ x ∈ image.ownerOf? l F.id.rid,
      x.any ∈ Attribute.optionalRef (image.ownerOf? l F.id.rid) :=
    fun x hx => List.mem_map_of_mem (Option.mem_toList.mpr hx)
  cases l with
  | fields =>
    obtain ⟨row, hrid, hvalue⟩ := value_of_loadsTo hdecoded hload .fieldOwner hF
    obtain ⟨g', hrun, hload', -, hrefs⟩ := hg.runOn_read .fieldOwner halive
    have howner : Load.owner .fields image row = .ok (image.ownerOf? .fields F.id.rid) := by
      rw [Load.owner_eq hdecoded, hrid]
      rfl
    rw [hvalue] at hrun hrefs
    exact fst_living (hrun.trans (congrArg (·, g') howner)) fun x hx =>
      hrefs _ howner _ (hmem x hx) (hmade g' hload' x hx)
  | methods =>
    obtain ⟨row, hrid, hvalue⟩ := value_of_loadsTo hdecoded hload .methodOwner hF
    obtain ⟨g', hrun, hload', -, hrefs⟩ := hg.runOn_read .methodOwner halive
    have howner : Load.owner .methods image row = .ok (image.ownerOf? .methods F.id.rid) := by
      rw [Load.owner_eq hdecoded, hrid]
      rfl
    rw [hvalue] at hrun hrefs
    exact fst_living (hrun.trans (congrArg (·, g') howner)) fun x hx =>
      hrefs _ howner _ (hmem x hx) (hmade g' hload' x hx)

theorem agrees_of_runsAgree (hdecoded : image.tables.IsDecoded) (hagree : image.RunsAgree l)
    (hload : (Graph.empty (some image)).LoadsTo g) (hg : g.Sound) : l.Agrees image g := by
  -- a type with a name is one of the rows that the runs are taken from
  have hrow : ∀ C : Ref .typeDef, image.Names C.any →
      ∃ type ∈ OwnerIndex.rids image.tables .typeDef, C = ⟨.row type⟩ := by
    intro C hC
    obtain ⟨type, hid, hpos, hle⟩ := hC.offers
    exact ⟨type, (MetadataImage.mem_rids hdecoded).mpr ⟨hpos, hle⟩, congrArg Ref.mk hid⟩
  constructor
  · intro C F hC hF _ halive
    obtain ⟨type, htype, rfl⟩ := hrow C hC
    obtain ⟨member, hid, -, hentity⟩ := hF.entityAt?
    obtain rfl : F = ⟨.row member⟩ := congrArg Ref.mk hid
    exact ⟨_, _, fst_items hdecoded hload hC, fst_owner hdecoded hload hg hF halive,
      hagree.mem_iff type htype member hentity⟩
  · intro C hC _
    obtain ⟨type, htype, rfl⟩ := hrow C hC
    exact ⟨_, fst_items hdecoded hload hC, hagree.nodup type htype⟩

theorem runsAgree_of_agrees (hdecoded : image.tables.IsDecoded)
    (hcount : image.tables.rowCount .typeDef ≤ Token.maxRow)
    (h : ∀ g, (Graph.empty (some image)).ReadsTo g → l.Agrees image g)
    (hempty : (Graph.empty (some image)).Sound) : image.RunsAgree l := by
  have hname : ∀ type ∈ OwnerIndex.rids image.tables .typeDef,
      image.Names (⟨.row type⟩ : Ref .typeDef).any := fun type htype =>
    MetadataImage.names_of_entityAt?
      (MetadataImage.entityAt?_of_mem_rids (k := .typeDef) hdecoded hcount htype)
  constructor
  · intro type htype member hmember
    have hC := hname type htype
    have hF := MetadataImage.names_of_entityAt? hmember
    -- ask for the two
    have hreads := Graph.ReadsTo.refl.materialise
      [(⟨.row type⟩ : Ref .typeDef).any, (⟨.row member⟩ : Ref l.kind).any]
      (show (Graph.empty (some image)).image? = some image from rfl)
    have halive : ∀ r ∈ [(⟨.row type⟩ : Ref .typeDef).any, (⟨.row member⟩ : Ref l.kind).any],
        image.Names r → ((Graph.empty (some image)).materialise image
          [(⟨.row type⟩ : Ref .typeDef).any, (⟨.row member⟩ : Ref l.kind).any]).isAlive r :=
      fun r hr hnames =>
        Graph.isAlive_materialise rfl hr (isPresent_empty hdecoded hnames)
    obtain ⟨items, owner, hitems, howner, hiff⟩ := (h _ hreads).mem_iff _ _ hC hF
      (halive _ (by simp) hC) (halive _ (by simp) hF)
    have hload := hreads.loadsTo hempty
    rw [fst_items hdecoded hload hC] at hitems
    rw [fst_owner hdecoded hload (hreads.sound hempty) hF (halive _ (by simp) hF)] at howner
    obtain rfl := Except.ok.inj hitems
    obtain rfl := Except.ok.inj howner
    exact hiff
  · intro type htype
    have hC := hname type htype
    have hreads := Graph.ReadsTo.refl.materialise [(⟨.row type⟩ : Ref .typeDef).any]
      (show (Graph.empty (some image)).image? = some image from rfl)
    obtain ⟨items, hitems, hnodup⟩ := (h _ hreads).nodup _ hC
      (Graph.isAlive_materialise rfl (List.mem_singleton_self _) (isPresent_empty hdecoded hC))
    rw [fst_items hdecoded (hreads.loadsTo hempty) hC] at hitems
    obtain rfl := Except.ok.inj hitems
    exact hnodup

/-- **Freshly loaded lists agree with the owners of the members where every member is named once.**
The list of a type and the owner of a member agree in every graph that reading a decoded image leads
to, and no list has a member twice, if and only if all runs together name every member at most once,
and by its own row number.  That all rows of types have names is no restriction in practice. -/
theorem agrees_iff_listsOnce (h : MetadataImage.decode config source = .ok image)
    (hcount : image.tables.rowCount .typeDef ≤ Token.maxRow) (l : MemberList) :
    (∀ g, (Graph.empty (some image)).ReadsTo g → l.Agrees image g) ↔ image.ListsOnce l := by
  have hdecoded := MetadataImage.isDecoded_of_decode h
  have hempty := Graph.sound_empty_image h
  constructor
  · intro hagrees
    exact (runsAgree_of_agrees hdecoded hcount hagrees hempty).listsOnce hdecoded hcount
  · intro honce g hreads
    exact agrees_of_runsAgree hdecoded (honce.runsAgree hdecoded hcount) (hreads.loadsTo hempty)
      (hreads.sound hempty)

/-- Two types with one field each, which their runs name through pointers in the reverse order. -/
def pointed : MetadataStreams where
  tables := #[0, 0, 0, 0, 2, 0, 0, 1,
    0x1C, 0, 0, 0, 0, 0, 0, 0, 0, 0, 0, 0, 0, 0, 0, 0,
    2, 0, 0, 0, 2, 0, 0, 0, 2, 0, 0, 0,
    0, 0, 0, 0, 0, 0, 0, 0, 0, 0, 1, 0, 1, 0,
    0, 0, 0, 0, 0, 0, 0, 0, 0, 0, 2, 0, 1, 0,
    2, 0, 1, 0,
    0, 0, 0, 0, 0, 0, 0, 0, 0, 0, 0, 0]
  strings? := none
  guids? := none
  blobs? := none

theorem agrees_pointed :
    ∃ image, MetadataImage.decode .lenient pointed = .ok image ∧
      ∀ g, (Graph.empty (some image)).ReadsTo g → fields.Agrees image g := by
  have hcheck : (MetadataImage.decode .lenient pointed).toOption.any (fun image =>
      decide (image.tables.rowCount .typeDef ≤ Token.maxRow ∧ image.ListsOnce fields)) = true := by
    decide +kernel
  cases hdecode : MetadataImage.decode .lenient pointed with
  | error e => exact absurd hcheck (by simp [hdecode, Except.toOption])
  | ok image =>
    rw [hdecode] at hcheck
    obtain ⟨hcount, honce⟩ := of_decide_eq_true hcheck
    exact ⟨image, rfl, (agrees_iff_listsOnce hdecode hcount fields).mpr honce⟩

/-! ### Overlapping runs -/

/-- Three types and one field.  The runs of the first and the third type start at the field, and
that of the second behind it. -/
def overlapping : MetadataStreams where
  tables := #[0, 0, 0, 0, 2, 0, 0, 1,
    0x14, 0, 0, 0, 0, 0, 0, 0, 0, 0, 0, 0, 0, 0, 0, 0,
    3, 0, 0, 0, 1, 0, 0, 0,
    0, 0, 0, 0, 0, 0, 0, 0, 0, 0, 1, 0, 1, 0,
    0, 0, 0, 0, 0, 0, 0, 0, 0, 0, 2, 0, 1, 0,
    0, 0, 0, 0, 0, 0, 0, 0, 0, 0, 1, 0, 1, 0,
    0, 0, 0, 0, 0, 0]
  strings? := none
  guids? := none
  blobs? := none

/-- The third type lists the field, but the owner of the field is the first type. -/
theorem not_agrees_overlapping :
    ∃ image, MetadataImage.decode .lenient overlapping = .ok image ∧
      ∃ (g : Graph) (C C' : Ref .typeDef) (F : Ref .field),
        (Graph.empty (some image)).ReadsTo g ∧ g.isAlive C.any ∧ g.isAlive F.any ∧ C' ≠ C ∧
        ((Graph.fieldOwnership.items C).runOn g).1 = .ok [F] ∧
        ((Graph.fieldOwnership.owner F).runOn g).1 = .ok (some C') := by
  have hcheck : (MetadataImage.decode .lenient overlapping).toOption.any (fun image =>
      decide (image.resolve? ⟨0x02000003⟩ = some ⟨.typeDef, .row 3⟩ ∧
        image.resolve? ⟨0x04000001⟩ = some ⟨.field, .row 1⟩ ∧
        image.listed fields 3 = [⟨.row 1⟩] ∧
        image.ownerOf? fields 1 = some ⟨.row 1⟩)) = true := by
    decide +kernel
  cases hdecode : MetadataImage.decode .lenient overlapping with
  | error e => exact absurd hcheck (by simp [hdecode, Except.toOption])
  | ok image =>
    rw [hdecode] at hcheck
    obtain ⟨hC, hF, hlisted, howner⟩ := of_decide_eq_true hcheck
    have hdecoded := MetadataImage.isDecoded_of_decode hdecode
    have hempty := Graph.sound_empty_image hdecode
    have hreads := Graph.ReadsTo.refl.materialise
      [⟨.typeDef, .row 3⟩, ⟨.field, .row 1⟩]
      (show (Graph.empty (some image)).image? = some image from rfl)
    have hload := hreads.loadsTo hempty
    have hCalive := Graph.isAlive_materialise (g := .empty (some image)) rfl
      (List.mem_cons_self (l := [⟨.field, .row 1⟩])) (isPresent_empty hdecoded ⟨_, hC⟩)
    have hFalive := Graph.isAlive_materialise (g := .empty (some image)) rfl
      (List.mem_cons_of_mem ⟨.typeDef, .row 3⟩ (List.mem_singleton_self _))
      (isPresent_empty hdecoded ⟨_, hF⟩)
    refine ⟨image, rfl, _, ⟨.row 3⟩, ⟨.row 1⟩, ⟨.row 1⟩, hreads, hCalive, hFalive, by decide, ?_, ?_⟩
    · exact (fst_items (l := fields) hdecoded hload ⟨_, hC⟩).trans (congrArg Except.ok hlisted)
    · exact (fst_owner (l := fields) hdecoded hload (hreads.sound hempty) ⟨_, hF⟩ hFalive).trans
        (congrArg Except.ok howner)

end MemberList

end ManagedImage
