import ManagedImage.Proofs.Members.Agreement
import ManagedImage.Proofs.Traversal.Preorder

/-!
# Which types a walk comes to

A walk over an image that has just been loaded starts from the types that no record nests, and goes
on from a type to those that records nest in it.  It comes to all types that lie below some type
that it starts from, and to no others.  Types that are nested in each other only, or in a row that
is not there, lie below none of these, and the walk passes them over without an error.

## Main definitions

* `Traversal.Below` — a type lies so many levels below another one.
* `MetadataImage.outerTypes`, `MetadataImage.innerTypes` — where walks start and how they go on, by
  the nesting records of the image.
* `MetadataImage.walked` — the preorder of the types of the image, cut at its limit.
* `MetadataImage.MissesNoType` — there is an error among some items, or there are all types.

## Main results

* `Traversal.mem_preorder_iff` — the unfolded nesting has what lies below, with its depth.
* `MetadataImage.gives_walked` — a walk over a loaded image gives `MetadataImage.walked`.
* `MetadataImage.exists_missesNoType_iff` — **a walk ends with an error or comes to all types if and
  only if the nesting is too deep or all types lie below those that it starts from.**
* `MetadataImage.not_missesNoType_selfEnclosed` — a type that is nested in itself is passed over.
-/

namespace ManagedImage

namespace Traversal

variable {inner inner' : Ref .typeDef → List (Ref .typeDef)} {levels depth limit : Nat}
  {S T : Ref .typeDef} {types : List (Ref .typeDef)}

/-! ### What lies below a type -/

/-- `S` lies so many levels below `T`. -/
inductive Below (inner : Ref .typeDef → List (Ref .typeDef)) (S : Ref .typeDef) :
    (levels : Nat) → Ref .typeDef → Prop where
  /-- A type lies at its own level. -/
  | refl : Below inner S 0 S
  /-- What lies below a type that is nested in `T` lies one level deeper below `T`. -/
  | step {levels : Nat} {T U : Ref .typeDef} (hU : U ∈ inner T) (h : Below inner S levels U) :
    Below inner S (levels + 1) T

theorem below_zero_iff : Below inner S 0 T ↔ S = T := by
  constructor
  · intro h
    cases h
    rfl
  · rintro rfl
    exact .refl

theorem below_succ_iff :
    Below inner S (levels + 1) T ↔ ∃ U ∈ inner T, Below inner S levels U := by
  constructor
  · intro h
    cases h with
    | step hU h => exact ⟨_, hU, h⟩
  · rintro ⟨U, hU, h⟩
    exact .step hU h

/-- A way down passes through all levels. -/
theorem Below.exists_of_le {n : Nat} (h : Below inner S levels T) (hn : n ≤ levels) :
    ∃ U, Below inner U n T := by
  induction h generalizing n with
  | refl =>
    obtain rfl : n = 0 := by omega
    exact ⟨_, .refl⟩
  | step hU _ ih =>
    cases n with
    | zero => exact ⟨_, .refl⟩
    | succ n =>
      obtain ⟨V, hV⟩ := ih (Nat.le_of_succ_le_succ hn)
      exact ⟨V, .step hU hV⟩

/-- **The unfolded nesting below a type** has exactly what lies below it, each with its depth. -/
theorem mem_preorder_iff {entry : Ref .typeDef × Nat} :
    entry ∈ preorder inner levels depth T ↔
      ∃ n ≤ levels, entry.2 = depth + n ∧ Below inner entry.1 n T := by
  induction levels generalizing depth T with
  | zero =>
    rw [preorder, List.mem_singleton]
    constructor
    · rintro rfl
      exact ⟨0, Nat.le_refl 0, rfl, .refl⟩
    · rintro ⟨n, hn, hdepth, h⟩
      obtain rfl : n = 0 := by omega
      exact Prod.ext (below_zero_iff.mp h) hdepth
  | succ levels ih =>
    simp only [preorder, List.mem_cons, List.mem_flatMap, ih]
    constructor
    · rintro (rfl | ⟨U, hU, n, hn, hdepth, h⟩)
      · exact ⟨0, Nat.zero_le _, rfl, .refl⟩
      · exact ⟨n + 1, by omega, by omega, .step hU h⟩
    · rintro ⟨n, hn, hdepth, h⟩
      cases n with
      | zero => exact Or.inl (Prod.ext (below_zero_iff.mp h) hdepth)
      | succ n =>
        obtain ⟨U, hU, h⟩ := below_succ_iff.mp h
        exact Or.inr ⟨U, hU, n, by omega, by omega, h⟩

/-- Only what is nested in the types that the unfolding comes to matters. -/
theorem preorder_congr {P : Ref .typeDef → Prop} (hinner : ∀ T, P T → inner T = inner' T)
    (hP : ∀ T, P T → ∀ U ∈ inner T, P U) (hT : P T) :
    preorder inner levels depth T = preorder inner' levels depth T := by
  induction levels generalizing depth T with
  | zero => rfl
  | succ levels ih =>
    rw [preorder, preorder, ← hinner T hT]
    congr 1
    exact List.flatMap_congr fun U hU => ih (hP T hT U hU)

/-! ### What is left after the cut -/

/-- There is an error after the cut if and only if an entry is too deep. -/
theorem exists_error_mem_cutAt_iff {entries : List (Ref .typeDef × Nat)} :
    (∃ e, .error e ∈ cutAt limit entries) ↔ ∃ entry ∈ entries, limit < entry.2 := by
  induction entries with
  | nil => simp [cutAt]
  | cons entry entries ih =>
    obtain ⟨T, depth⟩ := entry
    rcases Nat.lt_or_ge limit depth with hdeep | hdepth
    · rw [cutAt_cons_of_lt hdeep]
      exact iff_of_true ⟨_, List.mem_singleton_self _⟩ ⟨_, List.mem_cons_self, hdeep⟩
    · rw [cutAt_cons_of_le hdepth]
      simp only [List.mem_cons, reduceCtorEq, false_or, ih]
      have hnot : ¬limit < depth := by omega
      simp [hnot]

/-- After the cut there is an error or everything that is asked for, if and only if something lies
too deep or everything that is asked for lies below the types at the top. -/
theorem cutAt_preorder_iff (asked : Ref .typeDef → Prop) :
    ((∃ e, .error e ∈ cutAt limit (types.flatMap (preorder inner (limit + 1) 0))) ∨
        ∀ S, asked S → .ok S ∈ cutAt limit (types.flatMap (preorder inner (limit + 1) 0))) ↔
      (∃ T ∈ types, ∃ S, Below inner S (limit + 1) T) ∨
        ∀ S, asked S → ∃ T ∈ types, ∃ n, Below inner S n T := by
  have hmem : ∀ entry, entry ∈ types.flatMap (preorder inner (limit + 1) 0) ↔
      ∃ T ∈ types, entry.2 ≤ limit + 1 ∧ Below inner entry.1 entry.2 T := by
    intro entry
    simp only [List.mem_flatMap, mem_preorder_iff, Nat.zero_add]
    constructor
    · rintro ⟨T, hT, n, hn, rfl, h⟩
      exact ⟨T, hT, hn, h⟩
    · rintro ⟨T, hT, hn, h⟩
      exact ⟨T, hT, _, hn, rfl, h⟩
  by_cases hdeep : ∃ T ∈ types, ∃ S, Below inner S (limit + 1) T
  · refine iff_of_true (Or.inl ?_) (Or.inl hdeep)
    obtain ⟨T, hT, S, h⟩ := hdeep
    rw [exists_error_mem_cutAt_iff]
    exact ⟨(S, limit + 1), (hmem _).mpr ⟨T, hT, Nat.le_refl _, h⟩, Nat.lt_succ_self limit⟩
  · -- nothing is too deep, so nothing is cut
    have hle : ∀ entry ∈ types.flatMap (preorder inner (limit + 1) 0), entry.2 ≤ limit := by
      intro entry hentry
      obtain ⟨T, hT, -, h⟩ := (hmem entry).mp hentry
      by_contra hgt
      obtain ⟨U, hU⟩ := h.exists_of_le (show limit + 1 ≤ entry.2 by omega)
      exact hdeep ⟨T, hT, U, hU⟩
    have herror : ¬∃ e, .error e ∈ cutAt limit (types.flatMap (preorder inner (limit + 1) 0)) := by
      rw [exists_error_mem_cutAt_iff]
      rintro ⟨entry, hentry, hgt⟩
      have hentry := hle entry hentry
      omega
    rw [or_iff_right herror, or_iff_right hdeep, cutAt_of_forall_le hle]
    refine forall_congr' fun S => imp_congr_right fun _ => ?_
    rw [List.mem_map]
    constructor
    · rintro ⟨entry, hentry, heq⟩
      obtain rfl : entry.1 = S := Except.ok.inj heq
      obtain ⟨T, hT, -, h⟩ := (hmem entry).mp hentry
      exact ⟨T, hT, _, h⟩
    · rintro ⟨T, hT, n, h⟩
      refine ⟨(S, n), (hmem _).mpr ⟨T, hT, ?_, h⟩, rfl⟩
      by_contra hgt
      obtain ⟨U, hU⟩ := h.exists_of_le (show limit + 1 ≤ n by omega)
      exact hdeep ⟨T, hT, U, hU⟩

end Traversal

/-! ### The nesting that an image is loaded with -/

namespace MetadataImage

variable {image : MetadataImage} {config : Config} {source : MetadataStreams} {g : Graph}

/-- The types that no record nests. -/
def outerTypes (image : MetadataImage) : List (Ref .typeDef) :=
  ((OwnerIndex.rids image.tables .typeDef).filter fun type =>
    (OwnerIndex.nestingRows image.tables).all fun record => record.column 0 != type).filterMap
      (image.entityAt? .typeDef)

/-- The type that a record nests. -/
def nestedBy? (image : MetadataImage) (record : Ref .nestedClass) : Option (Ref .typeDef) :=
  (image.rowOf? record.any).bind fun row => image.entityAt? .typeDef (row.column 0)

/-- The types that records nest directly in a type. -/
def innerTypes (image : MetadataImage) (T : Ref .typeDef) : List (Ref .typeDef) :=
  ((OwnerIndex.nestingRows image.tables).filter fun record =>
    record.column 1 == T.id.rid).filterMap fun record =>
      (image.entityAt? .nestedClass record.rid).bind image.nestedBy?

/-- The preorder of the types of the image, cut at its limit. -/
def walked (image : MetadataImage) : List (Except Error (Ref .typeDef)) :=
  Traversal.cutAt image.config.maxNestingDepth
    (image.outerTypes.flatMap
      (Traversal.preorder image.innerTypes (image.config.maxNestingDepth + 1) 0))

theorem isNone_enclosingRid? (type : UInt32) :
    (image.enclosingRid? type).isNone =
      (OwnerIndex.nestingRows image.tables).all fun record => record.column 0 != type := by
  rw [enclosingRid?, Option.isNone_map, Bool.eq_iff_iff, Option.isNone_iff_eq_none,
    List.find?_eq_none, List.all_eq_true]
  simp

theorem names_of_mem_outerTypes {T : Ref .typeDef} (h : T ∈ image.outerTypes) :
    image.Names T.any := by
  obtain ⟨type, -, htype⟩ := List.mem_filterMap.mp h
  exact names_of_entityAt? htype

theorem names_of_mem_innerTypes {S T : Ref .typeDef} (h : S ∈ image.innerTypes T) :
    image.Names S.any := by
  obtain ⟨record, -, hrecord⟩ := List.mem_filterMap.mp h
  obtain ⟨R, -, hR⟩ := Option.bind_eq_some_iff.mp hrecord
  obtain ⟨row, -, hrow⟩ := Option.bind_eq_some_iff.mp hR
  exact names_of_entityAt? hrow

section Loaded

variable (hload : (Graph.empty (some image)).LoadsTo g)
include hload

theorem valueD_nested (R : Ref .nestedClass) : g.valueD .nested R none = image.nestedBy? R := by
  rw [Graph.valueD, hload.value, Graph.value_empty, nestedBy?]
  unfold Attribute.loaded
  dsimp only
  cases image.rowOf? R.any <;> rfl

/-- In a type that the image names, records nest what they say. -/
theorem inner_eq (hdecoded : image.tables.IsDecoded) {T : Ref .typeDef} (hT : image.Names T.any) :
    g.inner T = image.innerTypes T := by
  obtain ⟨row, hrid, hvalue⟩ := MemberList.value_of_loadsTo hdecoded hload .nestedClasses hT
  have hrecords : g.valueD .nestedClasses T [] =
      (image.nestingRids T.id.rid).filterMap (image.entityAt? .nestedClass) := by
    rw [← hrid]
    exact Graph.valueD_of_value (hvalue.trans (Load.records_eq hdecoded row)) []
  rw [Graph.inner, hrecords, nestingRids, List.filterMap_map, List.filterMap_filterMap]
  refine List.filterMap_congr fun record _ => ?_
  exact congrArg (Option.bind _) (funext fun R => valueD_nested hload R)

/-- The list of a module has the types that no record nests. -/
theorem value_topLevelTypes (hdecoded : image.tables.IsDecoded) {M : Ref .module}
    (hM : image.Names M.any) : g.valueD .topLevelTypes M [] = image.outerTypes := by
  obtain ⟨row, -, hvalue⟩ := MemberList.value_of_loadsTo hdecoded hload .topLevelTypes hM
  refine (Graph.valueD_of_value (hvalue.trans (Load.topLevel_eq hdecoded row)) []).trans ?_
  simp only [outerTypes, isNone_enclosingRid?]

end Loaded

/-- What the image names comes into being when it is asked for. -/
theorem exists_forall_isAlive {refs : List AnyRef} (hrefs : ∀ r ∈ refs, image.Names r)
    (hdecoded : image.tables.IsDecoded) :
    ∃ g, (Graph.empty (some image)).ReadsTo g ∧ ∀ r ∈ refs, g.isAlive r :=
  ⟨_, Graph.ReadsTo.refl.materialise refs rfl, fun r hr =>
    Graph.isAlive_materialise rfl hr (MemberList.isPresent_empty hdecoded (hrefs r hr))⟩

theorem Names.exists_isAlive {r : AnyRef} (hr : image.Names r) (hdecoded : image.tables.IsDecoded) :
    ∃ g, (Graph.empty (some image)).ReadsTo g ∧ g.isAlive r := by
  obtain ⟨g, hreads, halive⟩ := exists_forall_isAlive (List.forall_mem_singleton.mpr hr) hdecoded
  exact ⟨g, hreads, halive r (List.mem_singleton_self r)⟩

/-- What is made of a row has the limit of the image. -/
theorem depth_eq_maxNestingDepth {k : EntityKind} (hdecoded : image.tables.IsDecoded)
    (hlimit : ∀ row, k.depth (k.ofRow image.config row) = image.config.maxNestingDepth)
    (hreads : (Graph.empty (some image)).ReadsTo g) {r : Ref k} (hr : image.Names r.any)
    (halive : g.isAlive r.any) : g.depth r = image.config.maxNestingDepth := by
  obtain ⟨row, hrow⟩ := hr.offers.exists_row hdecoded
  have hnone : (Graph.empty (some image)).entity? r = none := by
    rw [← Option.isNone_iff_eq_none, ← Option.isSome_eq_false_iff, Graph.isSome_entity?,
      Graph.not_isAlive_empty]
  have himage : (Graph.empty (some image)).image? = some image := rfl
  rw [← Graph.limit_of_isAlive halive, hreads.limit_eq, Graph.limit, Graph.contents?, hnone, himage,
    Option.none_or, Option.bind_some, hrow]
  exact hlimit row

/-- **A walk over an image that has just been loaded** gives the preorder of its types, whatever has
been read before. -/
theorem gives_walked (h : decode config source = .ok image)
    (hreads : (Graph.empty (some image)).ReadsTo g) {M : Ref .module} (hM : image.Names M.any)
    (halive : g.isAlive M.any) :
    ∃ g', ((Traversal.start M).run g).run.1.Gives ((Traversal.start M).run g).run.2
      image.walked g' := by
  have hdecoded := isDecoded_of_decode h
  have hempty := Graph.sound_empty_image h
  have hsound := hreads.sound hempty
  have hload := hreads.loadsTo hempty
  have hlists := hload.listsResolvable (Graph.shows_of_decode h).resolvable.lists
  obtain ⟨types, htypes⟩ := hlists.topLevelTypes M (Graph.isPresent_of_isAlive halive)
  obtain rfl : types = image.outerTypes :=
    (Graph.valueD_of_value htypes []).symm.trans (value_topLevelTypes hload hdecoded hM)
  obtain ⟨g₁, hrun, -, hreads₁, hheld⟩ := hsound.yields_read .topLevelTypes halive htypes
  have hwalk := Traversal.follows_flatMap
    (Traversal.follows_preorder hsound hlists (Nat.lt_of_lt_of_eq (Nat.lt_succ_self (g.depth M))
      (Nat.zero_add _).symm)) hsound hreads₁
    (fun T hT => hheld _ (List.mem_map_of_mem hT)) fun g₂ _ =>
      show Traversal.Follows ⟨[], _, none⟩ g₂ [] from Traversal.follows_nil (g.depth M) g₂
  obtain ⟨g', hgives, -⟩ := hwalk
  rw [List.append_nil, List.append_nil] at hgives
  -- below what the image names there are only types that the image names
  have hpreorder : image.outerTypes.flatMap (Traversal.preorder g.inner (g.depth M + 1) 0) =
      image.outerTypes.flatMap (Traversal.preorder image.innerTypes (g.depth M + 1) 0) := by
    refine List.flatMap_congr fun T hT => ?_
    refine Traversal.preorder_congr (P := fun T => image.Names T.any)
      (fun T hT => inner_eq hload hdecoded hT) (fun T hT U hU => ?_) (names_of_mem_outerTypes hT)
    rw [inner_eq hload hdecoded hT] at hU
    exact names_of_mem_innerTypes hU
  rw [hpreorder] at hgives
  refine ⟨g', ?_⟩
  rw [Traversal.start_eq hrun, walked,
    ← depth_eq_maxNestingDepth hdecoded (fun _ => rfl) hreads hM halive]
  exact hgives

/-! ### Complete walks -/

/-- Among the items there is an error, or there are the types of all rows. -/
def MissesNoType (image : MetadataImage) (items : List (Except Error (Ref .typeDef))) : Prop :=
  (∃ e, .error e ∈ items) ∨
    ∀ type ∈ OwnerIndex.rids image.tables .typeDef, .ok ⟨.row type⟩ ∈ items

/-- Some type lies deeper below a type that no record nests than walks may go. -/
def NestsTooDeep (image : MetadataImage) : Prop :=
  ∃ T ∈ image.outerTypes, ∃ S,
    Traversal.Below image.innerTypes S (image.config.maxNestingDepth + 1) T

/-- Every type is one that no record nests, or lies below one. -/
def NestsAll (image : MetadataImage) : Prop :=
  ∀ type ∈ OwnerIndex.rids image.tables .typeDef,
    ∃ T ∈ image.outerTypes, ∃ n, Traversal.Below image.innerTypes ⟨.row type⟩ n T

theorem missesNoType_walked_iff :
    image.MissesNoType image.walked ↔ image.NestsTooDeep ∨ image.NestsAll := by
  have hcut := @Traversal.cutAt_preorder_iff image.innerTypes image.config.maxNestingDepth
    image.outerTypes fun S => ∃ type ∈ OwnerIndex.rids image.tables .typeDef, ⟨.row type⟩ = S
  simp only [forall_exists_index, and_imp, forall_apply_eq_imp_iff₂] at hcut
  exact hcut

/-- **When a walk over a loaded image misses no type.**  A walk over the types of a module of an
image that has only been read comes to its end, and it has told an error or come to the types of
all rows, if and only if some type lies deeper than walks may go, or all types lie below some that
no record nests. -/
theorem exists_missesNoType_iff (h : decode config source = .ok image)
    (hreads : (Graph.empty (some image)).ReadsTo g) {M : Ref .module} (hM : image.Names M.any)
    (halive : g.isAlive M.any) :
    ∃ items g', ((Traversal.start M).run g).run.1.Gives ((Traversal.start M).run g).run.2 items g' ∧
      (image.MissesNoType items ↔ image.NestsTooDeep ∨ image.NestsAll) := by
  obtain ⟨g', hgives⟩ := gives_walked h hreads hM halive
  exact ⟨image.walked, g', hgives, missesNoType_walked_iff⟩

/-- A module with three types, the third nested in the second and the second in the first. -/
def chained : MetadataStreams where
  tables := #[0, 0, 0, 0, 2, 0, 0, 1,
    0x05, 0, 0, 0, 0, 2, 0, 0, 0, 0, 0, 0, 0, 0, 0, 0,
    1, 0, 0, 0, 3, 0, 0, 0, 2, 0, 0, 0,
    0, 0, 0, 0, 0, 0, 0, 0, 0, 0,
    0, 0, 0, 0, 0, 0, 0, 0, 0, 0, 1, 0, 1, 0,
    0, 0, 0, 0, 0, 0, 0, 0, 0, 0, 1, 0, 1, 0,
    0, 0, 0, 0, 0, 0, 0, 0, 0, 0, 1, 0, 1, 0,
    2, 0, 1, 0,
    3, 0, 2, 0]
  strings? := none
  guids? := none
  blobs? := none

theorem missesNoType_chained :
    ∃ image, decode .lenient chained = .ok image ∧ ∃ g items g',
      (Graph.empty (some image)).ReadsTo g ∧ g.isAlive ⟨.module, .row 1⟩ ∧
      ((Traversal.start ⟨.row 1⟩).run g).run.1.Gives ((Traversal.start ⟨.row 1⟩).run g).run.2
        items g' ∧
      image.MissesNoType items := by
  have hcheck : (decode .lenient chained).toOption.any (fun image =>
      decide (image.resolve? ⟨1⟩ = some ⟨.module, .row 1⟩ ∧
        OwnerIndex.rids image.tables .typeDef = [1, 2, 3] ∧
        image.outerTypes = [⟨.row 1⟩] ∧
        image.innerTypes ⟨.row 1⟩ = [⟨.row 2⟩] ∧
        image.innerTypes ⟨.row 2⟩ = [⟨.row 3⟩])) = true := by
    decide +kernel
  cases hdecode : decode .lenient chained with
  | error e => exact absurd hcheck (by simp [hdecode, Except.toOption])
  | ok image =>
    rw [hdecode] at hcheck
    obtain ⟨hmodule, hrids, houter, hfirst, hsecond⟩ := of_decide_eq_true hcheck
    have hM : image.Names (⟨.row 1⟩ : Ref .module).any := ⟨_, hmodule⟩
    obtain ⟨g, hreads, halive⟩ := hM.exists_isAlive (isDecoded_of_decode hdecode)
    obtain ⟨items, g', hgives, hiff⟩ := exists_missesNoType_iff hdecode hreads hM halive
    refine ⟨image, rfl, g, items, g', hreads, halive, hgives,
      hiff.mpr (Or.inr fun type htype => ?_)⟩
    rw [hrids] at htype
    rw [houter]
    have hdown : Traversal.Below image.innerTypes ⟨.row 2⟩ 1 ⟨.row 1⟩ :=
      .step (hfirst ▸ List.mem_singleton_self _) .refl
    simp only [List.mem_cons, List.not_mem_nil, or_false] at htype
    rcases htype with rfl | rfl | rfl
    · exact ⟨_, List.mem_singleton_self _, 0, .refl⟩
    · exact ⟨_, List.mem_singleton_self _, 1, hdown⟩
    · exact ⟨_, List.mem_singleton_self _, 2, .step (hfirst ▸ List.mem_singleton_self _)
        (.step (hsecond ▸ List.mem_singleton_self _) .refl)⟩

/-! ### Types that are passed over -/

/-- A module with two types, and a record that nests the second type in itself. -/
def selfEnclosed : MetadataStreams where
  tables := #[0, 0, 0, 0, 2, 0, 0, 1,
    0x05, 0, 0, 0, 0, 2, 0, 0, 0, 0, 0, 0, 0, 0, 0, 0,
    1, 0, 0, 0, 2, 0, 0, 0, 1, 0, 0, 0,
    0, 0, 0, 0, 0, 0, 0, 0, 0, 0,
    0, 0, 0, 0, 0, 0, 0, 0, 0, 0, 1, 0, 1, 0,
    0, 0, 0, 0, 0, 0, 0, 0, 0, 0, 1, 0, 1, 0,
    2, 0, 2, 0]
  strings? := none
  guids? := none
  blobs? := none

/-- The walk ends behind the first type without an error. -/
theorem not_missesNoType_selfEnclosed :
    ∃ image, decode .lenient selfEnclosed = .ok image ∧
      image.tables.rowCount .module = 1 ∧ image.tables.rowCount .typeDef = 2 ∧ ∃ g items g',
        (Graph.empty (some image)).ReadsTo g ∧ g.isAlive ⟨.module, .row 1⟩ ∧
        ((Traversal.start ⟨.row 1⟩).run g).run.1.Gives ((Traversal.start ⟨.row 1⟩).run g).run.2
          items g' ∧
        items = [.ok ⟨.row 1⟩] ∧ ¬image.MissesNoType items := by
  have hcheck : (decode .lenient selfEnclosed).toOption.any (fun image =>
      decide (image.resolve? ⟨1⟩ = some ⟨.module, .row 1⟩ ∧
        image.tables.rowCount .module = 1 ∧ image.tables.rowCount .typeDef = 2 ∧
        OwnerIndex.rids image.tables .typeDef = [1, 2] ∧
        image.walked = [.ok ⟨.row 1⟩])) = true := by
    decide +kernel
  cases hdecode : decode .lenient selfEnclosed with
  | error e => exact absurd hcheck (by simp [hdecode, Except.toOption])
  | ok image =>
    rw [hdecode] at hcheck
    obtain ⟨hmodule, hmodules, htypes, hrids, hwalked⟩ := of_decide_eq_true hcheck
    have hM : image.Names (⟨.row 1⟩ : Ref .module).any := ⟨_, hmodule⟩
    obtain ⟨g, hreads, halive⟩ := hM.exists_isAlive (isDecoded_of_decode hdecode)
    obtain ⟨g', hgives⟩ := gives_walked hdecode hreads hM halive
    rw [hwalked] at hgives
    refine ⟨image, rfl, hmodules, htypes, g, _, g', hreads, halive, hgives, rfl, ?_⟩
    rintro (⟨e, he⟩ | hall)
    · simp at he
    · have hsecond := hall 2 (by rw [hrids]; decide)
      simp at hsecond

end MetadataImage

end ManagedImage
