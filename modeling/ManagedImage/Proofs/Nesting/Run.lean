import ManagedImage.Proofs.Graph.Opening
import ManagedImage.Proofs.Nesting.Calls
import ManagedImage.Proofs.Nesting.Sweeping
import ManagedImage.Session.Run

/-!
# Nesting stays consistent

Whatever a user does with types and nesting records, in any order, the lists and back-pointers stay
in step and no type gets into two places.

## Main definitions

* `Graph.Call` — what can be done with modules, types and nesting records.
* `Graph.Reaches` — one graph is reached from another one by calls, reads and making entities.

## Main results

* `Graph.Shows.run` — a call succeeds and leaves a consistent nesting.
* `Graph.consistent_of_reaches` — so does any run of calls.
* `Graph.shows_of_decode` — a decoded image shows a nesting to begin with.
-/

namespace ManagedImage

/-- Who is nested where is a matter of owners and members. -/
theorem Part.IsNesting.isEdge {k : EntityKind} {p : Part k} (hp : p.IsNesting) : p.IsEdge := by
  cases p <;> trivial

namespace Graph

/-- Something that can be done with modules, types and nesting records. -/
inductive Call where
  /-- Author a module. -/
  | newModule (name : String) (mvid : Option Guid)
  /-- Author a type. -/
  | newType (namespaceName name : String) (flags : UInt32)
  /-- Author a record that nests a type. -/
  | newRecord (type : Ref .typeDef)
  /-- Do something with a module and a type. -/
  | linkType (link : Link) (module : Ref .module) (type : Ref .typeDef)
  /-- Do something with a type and a record. -/
  | linkRecord (link : Link) (enclosing : Ref .typeDef) (record : Ref .nestedClass)
  /-- Take a type from its module. -/
  | detachType (type : Ref .typeDef)
  /-- Take a record from its type. -/
  | detachRecord (record : Ref .nestedClass)
  /-- Nest a type in another one. -/
  | nest (enclosing type : Ref .typeDef)

namespace Call

/-- The entities that the call is about. -/
def args : Call → List AnyRef
  | newModule .. | newType .. => []
  | newRecord T => [T.any]
  | linkType _ M T => [M.any, T.any]
  | linkRecord _ E R => [E.any, R.any]
  | detachType T => [T.any]
  | detachRecord R => [R.any]
  | nest E T => [E.any, T.any]

/-- Carries out the call. -/
def run : Call → GraphAction Answer
  | newModule name mvid => do
    let r : Ref .module ← author (Entity.Module.authored name mvid)
    return .entity r.any
  | newType namespaceName name flags => do
    let r : Ref .typeDef ← author (Entity.TypeDef.authored namespaceName name flags)
    return .entity r.any
  | newRecord T => do
    let r : Ref .nestedClass ← author (Entity.NestedClass.authored T)
    return .entity r.any
  | linkType link M T => Session.linkOn link typeOwnership attachType M T
  | linkRecord link E R => Session.linkOn link recordOwnership attachRecord E R
  | detachType T => do return .flag (← typeOwnership.detach T)
  | detachRecord R => do return .flag (← recordOwnership.detach R)
  | nest E T => do return .entity (← Graph.nest E T).any

end Call

variable {g g' : Graph} {n n' : Nesting}

/-- The action succeeds and leaves a graph that shows a consistent nesting. -/
def Settles (g : Graph) (a : GraphAction Answer) : Prop :=
  ∃ answer n, g.Yields a answer (·.Shows n) ∧ n.Consistent

/-- An action that gives a value, turned into an answer. -/
theorem Yields.settles {α : Type} {a : GraphAction α} {v : α} (h : g.Yields a v (·.Shows n))
    (hn : n.Consistent) (answer : α → Answer) :
    g.Settles (do return answer (← a)) :=
  ⟨answer v, n, h.bind fun _ _ hg' => Yields.pure hg', hn⟩

/-- What is done with an owner and a member, from what attaching and removing do. -/
theorem Tracks.settles_linkOn {o m : EntityKind} {own : Ownership Graph Error (Ref o) (Ref m)}
    {s : Side Nesting (Ref o) (Ref m)} (h : Tracks own s) {attach : Ref o → Ref m → GraphAction Unit}
    {c : Ref o} {r : Ref m} (hg : g.Shows n) (hc : g.isAlive c.any) (hr : g.isAlive r.any)
    (hn : n.Consistent) (hleave : (s.leave n c r).Consistent)
    (hattach : g.Yields (attach c r) () (·.Shows n')) (hn' : n'.Consistent) (link : Link) :
    g.Settles (Session.linkOn link own attach c r) := by
  cases link with
  | setOwner => exact hattach.settles hn' fun _ => .done
  | attach => exact hattach.settles hn' fun _ => .done
  | remove => exact (h.remove hg hc hr).settles hleave .flag
  | contains =>
    have hitems := (h.items hg hc).bind (f := fun items => pure (decide (r ∈ items)))
      fun g' _ ⟨hg', _⟩ => Yields.pure hg'
    exact hitems.settles hn .flag

/-- **A call succeeds and keeps the nesting consistent.** -/
theorem Shows.run (hg : g.Shows n) (hn : n.Consistent) (c : Call)
    (hargs : ∀ r ∈ c.args, g.isAlive r) : g.Settles c.run := by
  cases c with
  | newModule name mvid =>
    have hnew := (hg.author_module name mvid).mono fun _ _ h => h.1
    exact hnew.settles hn fun M => .entity M.any
  | newType namespaceName name flags =>
    have hnew := (hg.author_typeDef namespaceName name flags).mono fun _ _ h => h.1
    exact hnew.settles hn fun T => .entity T.any
  | newRecord T =>
    have hT := hargs T.any (by simp [Call.args])
    have hnew := (hg.author_nestedClass hT).mono fun _ _ h => h.1
    exact hnew.settles (hn.setNested hg.enclosing_next _) fun R => .entity R.any
  | linkType link M T =>
    have hM := hargs M.any (by simp [Call.args])
    have hT := hargs T.any (by simp [Call.args])
    refine tracks_typeOwnership.settles_linkOn hg hM hT hn ?_ (hg.attachType hn hM hT)
      (hn.attachType M T) link
    rw [hn.leave_ofTypes]
    split
    · exact hn.leaveModule T
    · exact hn
  | linkRecord link E R =>
    have hE := hargs E.any (by simp [Call.args])
    have hR := hargs R.any (by simp [Call.args])
    refine tracks_recordOwnership.settles_linkOn hg hE hR hn ?_ (hg.attachRecord hn hE hR)
      (hn.attachRecord E R) link
    rw [hn.leave_ofRecords]
    split
    · next h => exact hn.leaveType (Option.isSome_of_eq_some h)
    · exact hn
  | detachType T =>
    obtain ⟨_, hdetach⟩ := hg.detachType hn (hargs T.any (by simp [Call.args]))
    exact hdetach.settles (hn.leaveModule T) .flag
  | detachRecord R =>
    obtain ⟨_, hdetach⟩ := hg.detachRecord hn (hargs R.any (by simp [Call.args]))
    exact hdetach.settles (hn.detachRecord R) .flag
  | nest E T =>
    have hE := hargs E.any (by simp [Call.args])
    have hT := hargs T.any (by simp [Call.args])
    obtain ⟨R, g', hrun, hkeeps, S, hS, hg'⟩ := hg.nest hn hE hT
    have hnest : g.Yields (Graph.nest E T) R (·.Shows (n.nest E T S)) := ⟨g', hrun, hkeeps, hg'⟩
    exact hnest.settles (hn.nest hS E T) fun R => .entity R.any

/-! ### Runs -/

/-- What a user can bring a graph to, in any order: by calls on what exists, by reading it, by
asking for entities of rows, and by letting go of what nothing holds. -/
inductive Reaches (g : Graph) : Graph → Prop where
  /-- Nothing has been done. -/
  | refl : Reaches g g
  /-- A call. -/
  | call {g' : Graph} (c : Call) (h : Reaches g g') (hargs : ∀ r ∈ c.args, g'.isAlive r) :
    Reaches g (c.run.runOn g').2
  /-- An attribute is read. -/
  | read {g' : Graph} {k : EntityKind} (p : Part k) {r : Ref k} (h : Reaches g g')
    (hr : g'.isAlive r.any) : Reaches g ((p.attr.read r).runOn g').2
  /-- Entities of rows are asked for. -/
  | materialise {g' : Graph} {image : MetadataImage} (refs : List AnyRef) (h : Reaches g g')
    (himage : g'.image? = some image) : Reaches g (g'.materialise image refs)
  /-- Entities go. -/
  | sweep {g' : Graph} (outside : List AnyRef) (h : Reaches g g') : Reaches g (g'.sweep outside)

/-- The graph shows a consistent nesting. -/
def ShowsConsistent (g : Graph) : Prop := ∃ n, g.Shows n ∧ n.Consistent

theorem Settles.showsConsistent {a : GraphAction Answer} (h : g.Settles a) :
    (a.runOn g).2.ShowsConsistent := by
  obtain ⟨answer, n, ⟨g', hrun, -, hg'⟩, hn⟩ := h
  rw [hrun]
  exact ⟨n, hg', hn⟩

theorem Settles.fst_runOn {a : GraphAction Answer} (h : g.Settles a) :
    ∃ answer, (a.runOn g).1 = .ok answer := by
  obtain ⟨answer, n, ⟨g', hrun, -⟩, -⟩ := h
  exact ⟨answer, by rw [hrun]⟩

/-- What a run preserves. -/
theorem ShowsConsistent.of_reaches (hg : g.ShowsConsistent) (h : g.Reaches g') :
    g'.ShowsConsistent := by
  induction h with
  | refl => exact hg
  | call c _ hargs ih =>
    obtain ⟨n, hn, hconsistent⟩ := ih
    exact (hn.run hconsistent c hargs).showsConsistent
  | read p _ hr ih =>
    obtain ⟨n, hn, hconsistent⟩ := ih
    obtain ⟨g', hrun, hload, hsound, -⟩ := hn.sound.runOn_read p hr
    rw [hrun]
    exact ⟨n, hload.shows hn hsound, hconsistent⟩
  | materialise refs _ himage ih =>
    obtain ⟨n, hn, hconsistent⟩ := ih
    exact ⟨n, (loadsTo_materialise himage refs).shows hn (hn.sound.materialise himage refs),
      hconsistent⟩
  | sweep outside _ ih =>
    obtain ⟨n, hn, hconsistent⟩ := ih
    exact (dropsTo_sweep _ outside).shows hn hconsistent

/-- **Nesting stays consistent.**  From a consistent nesting that can be read, every run of calls
leads to a consistent nesting, and every further call on what exists succeeds.  That the graph is
sound to begin with is no restriction: a graph over a decoded image is, by `sound_empty_image`, and
making, changing and dropping entities keeps it so. -/
theorem consistent_of_reaches (hsound : g.Sound) (hresolvable : g.Resolvable)
    (hconsistent : g.nesting.Consistent) (h : g.Reaches g') :
    g'.nesting.Consistent ∧
      ∀ c : Call, (∀ r ∈ c.args, g'.isAlive r) → ∃ answer, (c.run.runOn g').1 = .ok answer := by
  have hg : g.ShowsConsistent := ⟨g.nesting, ⟨hsound, hresolvable, rfl⟩, hconsistent⟩
  obtain ⟨n, hn, hn'⟩ := hg.of_reaches h
  exact ⟨hn.nesting_eq ▸ hn', fun c hargs => (hn.run hn' c hargs).fst_runOn⟩

/-! ### Where runs start -/

/-- Who is nested where can be read off every decoded image. -/
theorem resolvable_empty {image? : Option MetadataImage}
    (h : ∀ image ∈ image?, image.tables.IsDecoded) : (empty image?).Resolvable :=
  fun _ _ _ hp hr => exists_value_of_isEdge h hp.isEdge hr

/-- A graph over a decoded image shows a nesting. -/
theorem shows_of_decode {image : MetadataImage} {config : Config} {source : MetadataStreams}
    (h : MetadataImage.decode config source = .ok image) :
    (empty (some image)).Shows (empty (some image)).nesting :=
  ⟨sound_empty_image h, resolvable_empty fun _ hi =>
    Option.some.inj hi ▸ MetadataImage.isDecoded_of_decode h, rfl⟩

/-- A graph without entities and without an image shows a nesting, and nothing is nested in it. -/
theorem showsConsistent_empty : (empty none).ShowsConsistent := by
  have hvalueD {k : EntityKind} (p : Part k) (r : Ref k) (d : p.Value) :
      (empty none).valueD p r d = d := by
    rw [valueD, value_empty]
    rfl
  refine ⟨_, ⟨sound_empty fun _ h => absurd h (by simp), resolvable_empty (by simp), rfl⟩, ?_⟩
  constructor <;> simp [nesting, hvalueD, presentOnly, Nesting.IsAttached]

/-- Two types are authored, and one is nested in the other. -/
theorem consistent_nest_newTypes :
    ∃ g : Graph, g.isAlive ⟨.typeDef, .authored 0⟩ ∧ g.isAlive ⟨.typeDef, .authored 1⟩ ∧
      ((Call.nest ⟨.authored 0⟩ ⟨.authored 1⟩).run.runOn g).2.nesting.Consistent := by
  obtain ⟨n, hn, hconsistent⟩ := showsConsistent_empty
  have hg := (hn.authored_typeDef "" "Outer" 0).authored_typeDef "" "Inner" 0
  generalize hnew : ((Graph.empty none).authored (k := .typeDef)
    (Entity.TypeDef.authored "" "Outer" 0)).authored (k := .typeDef)
    (Entity.TypeDef.authored "" "Inner" 0) = g at hg
  have houter : g.isAlive ⟨.typeDef, .authored 0⟩ := by
    rw [← hnew]
    exact isAlive_authored_of_isAlive isAlive_authored_next
  have hinner : g.isAlive ⟨.typeDef, .authored 1⟩ := by
    rw [← hnew]
    exact isAlive_authored_next
  refine ⟨g, houter, hinner, ?_⟩
  refine (consistent_of_reaches hg.sound hg.resolvable (hg.nesting_eq ▸ hconsistent)
    (.call (.nest ⟨.authored 0⟩ ⟨.authored 1⟩) .refl fun r hr => ?_)).1
  rcases List.mem_pair.mp hr with rfl | rfl
  · exact houter
  · exact hinner

end Graph

end ManagedImage
