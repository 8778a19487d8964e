import ManagedImage.Graph.Naming
import ManagedImage.Proofs.Nesting.Loaded
import ManagedImage.Proofs.Traversal.Completeness
import ManagedImage.Proofs.Traversal.Paths

/-!
# Full names and walks

A full name is put together on the way outwards, over the types that a type is enclosed by, and a
walk goes inwards, over the types that are nested in a type.  Both stop at a limit, so they end even
where nesting is cyclic.  Where the two directions agree, a walk comes to a type on just the way
that its full name tells.

## Main definitions

* `Graph.pathNames`, `Graph.pathName` — the names on a path, with slashes between them, and behind
  the namespace and a point.
* `Graph.NamesReadable` — the names of a type and of the types around it can be read.
* `Graph.NamesOutward` — what the way outwards makes of a full name.

## Main results

* `Graph.Sound.exists_climb` — going on outwards from a type on the way.
* `Graph.Sound.exists_fullName` — the full name is made of the names on the way outwards.
* `Graph.fullName_follows` — **full names end with an error exactly beyond the limit, and tell the
  paths on which walks come to types.**
-/

namespace ManagedImage

namespace Graph

variable {g g' g₀ : Graph} {k : EntityKind} {M : Ref .module} {T : Ref .typeDef}
  {path : List (Ref .typeDef)} {limit : Nat}

/-- What encloses a type fails to be read because the image is gone or because of a row, and never
because of a limit. -/
theorem ne_of_declaring_error {e : Error} (h : g.readout.declaring T = .error e) :
    e ≠ .recursionLimit limit := by
  have hvalue : Attribute.TypeDef.declaringType.value T g = .error e := by
    cases hv : Attribute.TypeDef.declaringType.value T g <;> simp_all [readout]
  unfold Attribute.value Attribute.loaded at hvalue
  rintro rfl
  split at hvalue
  · cases hvalue
  · split at hvalue
    · cases hvalue
    · split at hvalue
      · cases hvalue
      · next row _ => simpa [Error.category] using Load.failsOnRow_enclosing row _ hvalue

/-! ### What names should tell -/

/-- The names on a path, with a slash between each two of them. -/
def pathNames (g : Graph) : List (Ref .typeDef) → String
  | [] => ""
  | [T] => g.valueD .typeName T ""
  | T :: path => g.valueD .typeName T "" ++ "/" ++ g.pathNames path

/-- The names on a path, behind the namespace of the outermost type and a point, if that type has a
namespace. -/
def pathName (g : Graph) : List (Ref .typeDef) → String
  | [] => ""
  | S :: path =>
    (if g.valueD .typeNamespace S "" = "" then "" else g.valueD .typeNamespace S "" ++ ".") ++
      g.pathNames (S :: path)

theorem pathNames_eq (g : Graph) (path : List (Ref .typeDef)) :
    g.pathNames path = "/".intercalate (path.map fun T => g.valueD .typeName T "") := by
  fun_induction pathNames g path with
  | case1 => rfl
  | case2 T => exact String.intercalate_singleton.symm
  | case3 T path hne ih =>
    rw [ih, List.map_cons]
    exact (String.intercalate_cons_of_ne_nil (by simpa using hne)).symm

/-- The text of a full name is that of the path. -/
theorem render_eq_pathName (g : Graph) (S : Ref .typeDef) (path : List (Ref .typeDef)) :
    QualifiedName.render (g.valueD .typeNamespace S "")
      ((S :: path).map fun T => g.valueD .typeName T "") = g.pathName (S :: path) := by
  rw [pathName, pathNames_eq, QualifiedName.render]
  simp only [String.isEmpty_iff]
  split
  · exact (String.empty_append ..).symm
  · rfl

/-- The names and namespaces of a type and of all types around it can be read. -/
def NamesReadable (g : Graph) (T : Ref .typeDef) : Prop :=
  ∀ S path, g.readout.Around T (S :: path) →
    (∃ name, Attribute.TypeDef.name.value S g = .ok name) ∧
      ∃ space, Attribute.TypeDef.namespaceName.value S g = .ok space

/-- What the full name of a type is that may have so many types around it. -/
inductive NamesOutward (g : Graph) (T : Ref .typeDef) (limit : Nat) :
    Except Error String → Prop where
  /-- There are more types around it. -/
  | tooDeep {path : List (Ref .typeDef)} (h : g.readout.Around T path)
    (hdeep : limit + 1 < path.length) : NamesOutward g T limit (.error (.recursionLimit limit))
  /-- The way outwards ends with `S`. -/
  | named {S : Ref .typeDef} {path : List (Ref .typeDef)} (h : g.readout.Around T (S :: path))
    (hpath : path.length ≤ limit) (hS : g.readout.declaring S = .ok none) :
    NamesOutward g T limit (.ok (g.pathName (S :: path)))
  /-- What encloses `S` cannot be read. -/
  | unread {S : Ref .typeDef} {path : List (Ref .typeDef)} {e : Error}
    (h : g.readout.Around T (S :: path)) (hpath : path.length ≤ limit)
    (hS : g.readout.declaring S = .error e) : NamesOutward g T limit (.error e)

theorem LoadsTo.pathName_eq (h : g.LoadsTo g') (path : List (Ref .typeDef)) :
    g'.pathName path = g.pathName path := by
  have hvalue {k : EntityKind} (p : Part k) (r : Ref k) (d : p.Value) :
      g'.valueD p r d = g.valueD p r d := by
    rw [valueD, h.value, valueD]
  cases path with
  | nil => rfl
  | cons S path => simp only [pathName, pathNames_eq, hvalue]

theorem LoadsTo.namesReadable (h : g.LoadsTo g') (hT : g.NamesReadable T) :
    g'.NamesReadable T := by
  intro S path haround
  rw [h.readout_eq] at haround
  obtain ⟨⟨name, hname⟩, space, hspace⟩ := hT S path haround
  exact ⟨⟨name, (h.value .typeName S).trans hname⟩, space, (h.value .typeNamespace S).trans hspace⟩

/-- All types around a type lie on the path that leads to it. -/
theorem NamesReadable.of_pathTo (hpath : g.readout.PathTo M path T) (hn : g.readout.Agrees)
    (h : ∀ S ∈ path, (∃ name, Attribute.TypeDef.name.value S g = .ok name) ∧
      ∃ space, Attribute.TypeDef.namespaceName.value S g = .ok space) : g.NamesReadable T := by
  obtain ⟨haround, U, rest, rfl, hU⟩ := hpath.around hn
  intro S outer houter
  have hle := haround.length_le (by simp [hU]) houter
  exact h S ((haround.isSuffix_of_length_le houter hle).subset List.mem_cons_self)

/-- The full name of a type is an error that tells the limit if and only if there are more types
around it. -/
theorem NamesOutward.eq_recursionLimit_iff {result : Except Error String}
    (h : g.NamesOutward T limit result) :
    result = .error (.recursionLimit limit) ↔
      ∃ path, g.readout.Around T path ∧ limit + 1 < path.length := by
  cases h with
  | tooDeep h hdeep => exact iff_of_true rfl ⟨_, h, hdeep⟩
  | named h hpath hS => exact iff_of_false (by simp) (h.not_exists_longer (by simp [hS]) hpath)
  | unread h hpath hS =>
    exact iff_of_false (fun heq => ne_of_declaring_error hS (Except.error.inj heq))
      (h.not_exists_longer (by simp [hS]) hpath)

/-- A type that lies at the end of a path of nested types is named after that path. -/
theorem NamesOutward.eq_pathName {result : Except Error String} (h : g.NamesOutward T limit result)
    (hn : g.readout.Agrees) (hpath : g.readout.PathTo M path T)
    (hlength : path.length ≤ limit + 1) :
    result = .ok (g.pathName path) := by
  obtain ⟨haround, U, rest, rfl, hU⟩ := hpath.around hn
  have hend : ∀ E, g.readout.declaring U ≠ .ok (some E) := by simp [hU]
  cases h with
  | tooDeep h hdeep =>
    have hle := haround.length_le hend h
    omega
  | named h _ hS => rw [h.eq_of_ends (by simp [hS]) haround hend]
  | unread h _ hS =>
    obtain ⟨rfl, rfl⟩ := List.cons.inj (h.eq_of_ends (by simp [hS]) haround hend)
    rw [hU] at hS
    cases hS

/-- Reading what can be read gives its value, however much has been loaded. -/
theorem Sound.glances_valueD (hg : g.Sound) (hload : g₀.LoadsTo g) (p : Part k) {r : Ref k}
    (hr : g.isAlive r.any) (hp : ∃ v, p.attr.value r g₀ = .ok v) (d : p.Value) :
    g.Glances (p.attr.read r) (.ok (g₀.valueD p r d)) fun _ _ => True := by
  obtain ⟨v, hv⟩ := hp
  have hread := hg.glances_read p hr
  rw [hload.value, hv] at hread
  rw [valueD_of_value hv]
  exact hread.mono fun _ _ _ _ _ => trivial

theorem climb_none (limit : Nat) (name namespaceName : Attribute k String)
    (outer : Ref k → GraphAction (Option (Ref k))) (steps : Nat) (names : List String)
    (space : String) :
    climb limit name namespaceName outer steps names space none =
      pure (QualifiedName.render space names) := by
  cases steps <;> rfl

/-- **Going on outwards** from `S`, when the way in from there is known. -/
theorem Sound.exists_climb {g : Graph} {S : Ref .typeDef} {path : List (Ref .typeDef)}
    (hg : g.Sound) (hload : g₀.LoadsTo g) (hnames : g₀.NamesReadable T) (steps : Nat)
    (hS : g.isAlive S.any) (h : g₀.readout.Around T (S :: path))
    (hsteps : path.length + steps = limit) :
    ∃ result, g.Glances
        (enclosingType S >>= climb limit Attribute.TypeDef.name Attribute.TypeDef.namespaceName
          enclosingType steps ((S :: path).map fun T => g₀.valueD .typeName T "")
          (g₀.valueD .typeNamespace S ""))
        result (fun _ _ => True) ∧ g₀.NamesOutward T limit result := by
  have houter := hg.glances_enclosingType hS
  rw [hload.readout_eq] at houter
  rcases hdeclaring : g₀.readout.declaring S with e | E | E
  · rw [hdeclaring] at houter
    exact ⟨_, houter.bind_error, .unread h (by omega) hdeclaring⟩
  · rw [hdeclaring] at houter
    refine houter.bind_ok fun g₁ _ hg₁ _ => ⟨_, ?_, .named h (by omega) hdeclaring⟩
    rw [climb_none, render_eq_pathName]
    exact .pure hg₁ trivial
  · rw [hdeclaring] at houter
    have hE : g₀.readout.Around T (E :: S :: path) := .outward hdeclaring h
    refine houter.bind_ok fun g₁ hload₁ hg₁ halive => ?_
    have hE₁ := halive E rfl
    match steps, hsteps with
    | 0, hsteps =>
      exact ⟨_, .throw hg₁, .tooDeep hE (by simp only [List.length_cons]; omega)⟩
    | steps + 1, hsteps =>
      obtain ⟨hname, hspace⟩ := hnames E _ hE
      have hload₁ := hload.trans hload₁
      refine (hg₁.glances_valueD hload₁ .typeName hE₁ hname "").bind_ok fun g₂ hload₂ hg₂ _ => ?_
      have hE₂ := hload₂.alive _ hE₁
      have hload₂ := hload₁.trans hload₂
      refine (hg₂.glances_valueD hload₂ .typeNamespace hE₂ hspace "").bind_ok
        fun g₃ hload₃ hg₃ _ => ?_
      refine hg₃.exists_climb (hload₂.trans hload₃) hnames steps (hload₃.alive _ hE₂) hE ?_
      rw [List.length_cons]
      omega

/-- **The full name of a type** is made of the names on the way outwards. -/
theorem Sound.exists_fullName (hg : g.Sound) (hT : g.isAlive T.any) (hnames : g.NamesReadable T) :
    ∃ result, g.Glances (fullName T) result (fun _ _ => True) ∧
      g.NamesOutward T (g.depth T) result := by
  suffices h : ∃ result, g.Glances (qualifiedName (g.depth T) Attribute.TypeDef.name
      Attribute.TypeDef.namespaceName enclosingType T) result (fun _ _ => True) ∧
        g.NamesOutward T (g.depth T) result by
    obtain ⟨result, hglances, houtward⟩ := h
    exact ⟨result, hglances.get_bind (f := fun g => qualifiedName (typeLimit T g) _ _ _ T),
      houtward⟩
  obtain ⟨hname, hspace⟩ := hnames T [] .self
  refine (hg.glances_valueD (.refl g) .typeName hT hname "").bind_ok fun g₁ hload₁ hg₁ _ => ?_
  have hT₁ := hload₁.alive _ hT
  refine (hg₁.glances_valueD hload₁ .typeNamespace hT₁ hspace "").bind_ok fun g₂ hload₂ hg₂ _ => ?_
  exact hg₂.exists_climb (hload₁.trans hload₂) hnames _ (hload₂.alive _ hT₁) .self
    (Nat.zero_add _)

/-- **Full names follow the nesting and agree with walks.**  In a graph where names can be read, the
full name of a type is an error that tells the limit if and only if there are more types around it
than the limit allows, and otherwise it is made of the names on the way in.  Where what encloses a
type is what nests it, and the limits are the same, the full name of a type that a walk comes to
tells the names on the path that leads to it. -/
theorem fullName_follows (hg : g.Sound) :
    (∀ T, g.isAlive T.any → g.NamesReadable T →
      ∃ result g', (fullName T).runOn g = (result, g') ∧ g.LoadsTo g' ∧
        g.NamesOutward T (g.depth T) result ∧
        (result = .error (.recursionLimit (g.depth T)) ↔
          ∃ path, g.readout.Around T path ∧ g.depth T + 1 < path.length)) ∧
    (g.readout.Agrees → ∀ M T g₁, g.isAlive M.any →
      ((Traversal.start M).run g).run.1.Visits ((Traversal.start M).run g).run.2 T g₁ →
      g.NamesReadable T → g₁.depth T = g.depth M →
      (∃ path, g.readout.PathTo M path T) ∧
        ∀ path, g.readout.PathTo M path T → ∀ g₂, g₁.ReadsTo g₂ →
          ((fullName T).runOn g₂).1 = .ok (g.pathName path)) := by
  constructor
  · intro T hT hnames
    obtain ⟨result, ⟨g', hrun, hload, -⟩, houtward⟩ := hg.exists_fullName hT hnames
    exact ⟨result, g', hrun, hload, houtward, houtward.eq_recursionLimit_iff⟩
  · intro hagrees M T g₁ hM hvisits hnames hdepth
    obtain ⟨hpaths, hsound, hload⟩ := Traversal.onPaths_start hg hM
    obtain ⟨hg₁, hload₁, hT, path, hpath, hlength⟩ := hvisits.exists_pathTo hpaths hsound hload
    refine ⟨⟨path, hpath⟩, fun path' hpath' g₂ hreads => ?_⟩
    obtain rfl := hpath.unique hpath' hagrees
    have hload₂ := hload₁.trans (hreads.loadsTo hg₁)
    obtain ⟨result, ⟨g₃, hrun, -⟩, houtward⟩ := (hreads.sound hg₁).exists_fullName
      ((hreads.loadsTo hg₁).alive _ hT) (hload₂.namesReadable hnames)
    rw [hreads.depth_eq hg₁ hT, hdepth] at houtward
    rw [← hload₂.readout_eq] at hagrees hpath
    rw [hrun, ← hload₂.pathName_eq]
    exact houtward.eq_pathName hagrees hpath hlength

end Graph

namespace MetadataImage

/-- A module with the type `N.A` and a type `B` that is nested in it. -/
def namedPair : MetadataStreams where
  tables := #[0, 0, 0, 0, 2, 0, 0, 1,
    0x05, 0, 0, 0, 0, 2, 0, 0, 0, 0, 0, 0, 0, 0, 0, 0,
    1, 0, 0, 0, 2, 0, 0, 0, 1, 0, 0, 0,
    0, 0, 0, 0, 0, 0, 0, 0, 0, 0,
    0, 0, 0, 0, 3, 0, 1, 0, 0, 0, 1, 0, 1, 0,
    0, 0, 0, 0, 5, 0, 0, 0, 0, 0, 1, 0, 1, 0,
    2, 0, 1, 0]
  strings? := some #[0, 78, 0, 65, 0, 66, 0]
  guids? := none
  blobs? := none

/-- What loading gives is what can be read of a loaded image. -/
theorem value_of_loaded {image : MetadataImage} {g : Graph} {k : EntityKind} {p : Part k}
    {r : Ref k} {v : p.Value} (hload : (Graph.empty (some image)).LoadsTo g)
    (h : (p.attr.loaded r (some image)).toOption = some v) : p.attr.value r g = .ok v := by
  rw [hload.value, Graph.value_empty]
  cases hloaded : p.attr.loaded r (some image) with
  | error e => simp [hloaded, Except.toOption] at h
  | ok w => simpa [hloaded, Except.toOption] using h

/-- The walk comes to the nested type on the way that its full name tells.  The full name of the
other type has no slash. -/
theorem fullName_follows_namedPair :
    ∃ image g g₁, decode .lenient namedPair = .ok image ∧
      g.Sound ∧ g.isAlive ⟨.module, .row 1⟩ ∧ g.isAlive ⟨.typeDef, .row 2⟩ ∧
      g.NamesReadable ⟨.row 2⟩ ∧ g.readout.Agrees ∧
      ((Traversal.start ⟨.row 1⟩).run g).run.1.Visits ((Traversal.start ⟨.row 1⟩).run g).run.2
        ⟨.row 2⟩ g₁ ∧
      g₁.depth (k := .typeDef) ⟨.row 2⟩ = g.depth (k := .module) ⟨.row 1⟩ ∧
      (∃ result g', (Graph.fullName ⟨.row 2⟩).runOn g = (result, g') ∧ g.LoadsTo g' ∧
        g.NamesOutward ⟨.row 2⟩ (g.depth (k := .typeDef) ⟨.row 2⟩) result ∧
        (result = .error (.recursionLimit (g.depth (k := .typeDef) ⟨.row 2⟩)) ↔
          ∃ path, g.readout.Around ⟨.row 2⟩ path ∧
            g.depth (k := .typeDef) ⟨.row 2⟩ + 1 < path.length)) ∧
      ((Graph.fullName ⟨.row 2⟩).runOn g₁).1 = .ok "N.A/B" ∧
      ((Graph.fullName ⟨.row 1⟩).runOn g).1 = .ok "N.A" := by
  have hcheck : (decode .lenient namedPair).toOption.any (fun image =>
      decide (image.tables.rowCount .module ≤ 1 ∧
        image.tables.rowCount .typeDef ≤ Token.maxRow ∧
        image.tables.rowCount .nestedClass ≤ Token.maxRow ∧ image.NestsOnce ∧
        image.resolve? ⟨1⟩ = some ⟨.module, .row 1⟩ ∧
        image.outerTypes = [⟨.row 1⟩] ∧ image.innerTypes ⟨.row 1⟩ = [⟨.row 2⟩] ∧
        image.config.maxNestingDepth = 64 ∧
        (Attribute.TypeDef.name.loaded ⟨.row 1⟩ (some image)).toOption = some "A" ∧
        (Attribute.TypeDef.namespaceName.loaded ⟨.row 1⟩ (some image)).toOption = some "N" ∧
        (Attribute.TypeDef.name.loaded ⟨.row 2⟩ (some image)).toOption = some "B" ∧
        (Attribute.TypeDef.namespaceName.loaded ⟨.row 2⟩ (some image)).toOption = some "")) =
        true := by
    decide +kernel
  cases hdecode : decode .lenient namedPair with
  | error e => exact absurd hcheck (by simp [hdecode, Except.toOption])
  | ok image =>
    rw [hdecode] at hcheck
    obtain ⟨hmodules, htypes, hrecords, honce, hmodule, houter, hinner, hlimit, hA, hN, hB,
      hspace⟩ := of_decide_eq_true hcheck
    have hdecoded := isDecoded_of_decode hdecode
    have hM : image.Names (⟨.row 1⟩ : Ref .module).any := ⟨_, hmodule⟩
    have hE : image.Names (⟨.row 1⟩ : Ref .typeDef).any :=
      names_of_mem_outerTypes (houter ▸ List.mem_singleton_self _)
    have hT : image.Names (⟨.row 2⟩ : Ref .typeDef).any :=
      names_of_mem_innerTypes (hinner ▸ List.mem_singleton_self _)
    -- the module and both types have been asked for
    obtain ⟨g, hreads, halive⟩ := exists_forall_isAlive (List.forall_mem_cons.mpr
      ⟨hM, List.forall_mem_cons.mpr ⟨hT, List.forall_mem_singleton.mpr hE⟩⟩) hdecoded
    obtain ⟨hM', halive⟩ := List.forall_mem_cons.mp halive
    obtain ⟨hT', halive⟩ := List.forall_mem_cons.mp halive
    have hE' := List.forall_mem_singleton.mp halive
    have hshows := hreads.shows (Graph.shows_of_decode hdecode)
    have hload := hreads.loadsTo (Graph.sound_empty_image hdecode)
    have hagrees := hshows.agrees (honce.consistent hdecoded htypes hmodules hrecords)
    have hlist := (value_topLevelTypes hload hdecoded hM).trans houter
    have hinner := (inner_eq hload hdecoded hE).trans hinner
    have hdepth := depth_eq_maxNestingDepth hdecoded (fun _ => rfl) hreads hM hM'
    rw [hlimit] at hdepth
    obtain ⟨g₁, hvisits, hreads₁, hT₁⟩ := Traversal.exists_visits hshows.sound
      hshows.resolvable.lists hM' hlist hinner (by rw [hdepth]; decide)
    have hdepth₁ := depth_eq_maxNestingDepth hdecoded (fun _ => rfl) (hreads.trans hreads₁) hT hT₁
    rw [hlimit, ← hdepth] at hdepth₁
    have hpathE : g.readout.PathTo ⟨.row 1⟩ [⟨.row 1⟩] ⟨.row 1⟩ :=
      hshows.pathTo_top (Graph.isPresent_of_isAlive hM') (hlist ▸ List.mem_singleton_self _)
    have hpath : g.readout.PathTo ⟨.row 1⟩ [⟨.row 1⟩, ⟨.row 2⟩] ⟨.row 2⟩ :=
      .inward hpathE
        (hshows.nests ((hload.present _).trans (MemberList.isPresent_empty hdecoded hE))
          (hinner ▸ List.mem_singleton_self _))
    have hA := value_of_loaded hload (p := .typeName) hA
    have hN := value_of_loaded hload (p := .typeNamespace) hN
    have hB := value_of_loaded hload (p := .typeName) hB
    have hspace := value_of_loaded hload (p := .typeNamespace) hspace
    have hnames : g.NamesReadable ⟨.row 2⟩ := .of_pathTo hpath hagrees <|
      List.forall_mem_cons.mpr
        ⟨⟨⟨_, hA⟩, _, hN⟩, List.forall_mem_singleton.mpr ⟨⟨_, hB⟩, _, hspace⟩⟩
    have hname : g.pathName [⟨.row 1⟩, ⟨.row 2⟩] = "N.A/B" := by
      simp only [Graph.pathName, Graph.pathNames, Graph.valueD_of_value hA,
        Graph.valueD_of_value hN, Graph.valueD_of_value hB]
      rfl
    have hnamesE : g.NamesReadable ⟨.row 1⟩ :=
      .of_pathTo hpathE hagrees (List.forall_mem_singleton.mpr ⟨⟨_, hA⟩, _, hN⟩)
    have hnameE : g.pathName [⟨.row 1⟩] = "N.A" := by
      simp only [Graph.pathName, Graph.pathNames, Graph.valueD_of_value hA,
        Graph.valueD_of_value hN]
      rfl
    obtain ⟨hfull, hwalks⟩ := Graph.fullName_follows hshows.sound
    obtain ⟨-, htold⟩ := hwalks hagrees _ _ _ hM' hvisits hnames hdepth₁
    obtain ⟨result, g', hrun, -, houtward, -⟩ := hfull _ hE' hnamesE
    refine ⟨image, g, g₁, rfl, hshows.sound, hM', hT', hnames, hagrees, hvisits, hdepth₁,
      hfull _ hT' hnames, ?_, ?_⟩
    · rw [htold _ hpath g₁ .refl, hname]
    · rw [hrun, houtward.eq_pathName hagrees hpathE (by simp), hnameE]

end MetadataImage

end ManagedImage
