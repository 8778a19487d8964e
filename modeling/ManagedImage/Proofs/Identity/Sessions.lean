import ManagedImage.Proofs.Identity.Operations
import ManagedImage.Session.Run

/-!
# Sessions keep the entities of rows

Nothing that a user does lets an entity of a row go but letting go of the image, whether the command
is carried out, fails half-way or is refused.

## Main results

* `Session.through_run` — a command keeps the entities of rows.
* `Session.along_perform`, `Session.along_requests` — so do a request and a run of requests.
-/

namespace ManagedImage

namespace Session

/-- What actions on a session keep of the entities of rows. -/
def retaining : Keeping Session :=
  ⟨fun s s' => s.graph.Retains s'.graph, fun s => .refl s.graph, .trans⟩

variable {α β : Type} {k o m : EntityKind}

theorem through_onGraph {a : GraphAction α} (ha : Graph.retaining.Through a) :
    retaining.Through (onGraph a) := by
  refine .of_runOn fun ⟨graph, handles, walks⟩ => ?_
  have hone := ha.runOn graph
  change graph.Retains (a graph).2 at hone
  change graph.Retains (onGraph a ⟨graph, handles, walks⟩).2.graph
  unfold onGraph
  dsimp only
  rcases h : a graph with ⟨e | v, g⟩ <;> rw [h] at hone <;> exact hone

theorem through_onGraphState {a : StateM Graph α} (ha : Graph.retaining.Along a) :
    retaining.Through (onGraphState a) :=
  .of_runOn fun s => ha s.graph

theorem through_asking (f : Graph → α) : retaining.Through (asking f) := .ask _

theorem through_refuse (r : Refusal) : retaining.Through (refuse r : SessionAction α) := .throw _

/-- The names that the user gives are none of the business of the graph. -/
theorem through_rename {f : Session → Session} (h : ∀ s, (f s).graph = s.graph) :
    retaining.Through (Action.change f : SessionAction Unit) := by
  refine .change fun s => ?_
  change s.graph.Retains (f s).graph
  rw [h]
  exact .refl s.graph

/-! ### Names of entities -/

theorem through_image : retaining.Through image := by
  unfold image
  refine (through_asking _).bind fun i => ?_
  cases i with
  | none => exact through_refuse _
  | some i => exact .pure i

theorem through_resolve (t : Token) : retaining.Through (resolve t) :=
  through_image.bind fun _ => through_onGraphState (Graph.along_resolve t)

theorem through_entity (name : Literal) : retaining.Through (entity name) := by
  unfold entity
  cases name with
  | text text =>
    refine (Keeping.Through.ask _).bind fun v => ?_
    rcases v with _ | r | r
    · exact through_refuse _
    · exact .pure r
    · exact through_refuse _
  | number n =>
    refine (through_resolve _).bind fun r => ?_
    cases r with
    | none => exact through_refuse _
    | some r => exact .pure r
  | _ => exact through_refuse _

theorem through_entityOf (k : EntityKind) (name : Literal) :
    retaining.Through (entityOf k name) := by
  unfold entityOf
  refine (through_entity name).bind fun r => ?_
  cases r.as? k with
  | none => exact through_refuse _
  | some r => exact .pure r

theorem through_valueOf (value : Literal) (k : ValueKind) :
    retaining.Through (valueOf value k) := by
  cases k with
  | reference =>
    cases value with
    | null => exact .pure _
    | _ => exact (through_entity _).bind fun r => .pure _
  -- a value of any other kind is read off the command
  | _ =>
    unfold valueOf
    dsimp only
    split <;> first | exact .pure _ | exact through_refuse _ | skip
    all_goals split <;> first | exact .pure _ | exact through_refuse _

theorem through_named (f : String → Option α) (name : Literal) :
    retaining.Through (named f name) := by
  unfold named
  cases name.text?.bind f with
  | none => exact through_refuse _
  | some a => exact .pure a

/-- What a name stands for has been found under it. -/
theorem exists_of_runOn_named {f : String → Option α} {name : Literal} {s s' : Session} {a : α}
    (h : (named f name).runOn s = (.ok a, s')) : ∃ text, f text = some a := by
  unfold named at h
  cases ha : name.text?.bind f with
  | none =>
    rw [ha] at h
    exact nomatch congrArg Prod.fst h
  | some b =>
    rw [ha] at h
    obtain rfl := Except.ok.inj (congrArg Prod.fst h)
    obtain ⟨text, -, hf⟩ := Option.bind_eq_some_iff.mp ha
    exact ⟨text, hf⟩

/-- Something is done with an attribute that is named. -/
theorem through_property_bind {r : AnyRef} {name : Literal}
    {f : Property r.kind → SessionAction β}
    (hf : ∀ p, Graph.RetainsPart p.part → retaining.Through (f p)) :
    retaining.Through (property r name >>= f) := by
  refine (through_named _ name).bind_of (fun s p s' h => ?_) hf
  obtain ⟨text, hp⟩ := exists_of_runOn_named h
  exact Graph.forall_mem_property Graph.retainsPart _ (mem_of_lookup hp)

/-- Something is done with a list that is named. -/
theorem through_listProperty_bind {r : AnyRef} {name : Literal}
    {f : ListProperty r.kind → SessionAction β}
    (hf : ∀ list, Graph.RetainsPart list.part →
      (∀ a ∈ list.memberName?, Graph.RetainsPart a) → retaining.Through (f list)) :
    retaining.Through (listProperty r name >>= f) := by
  refine (through_named _ name).bind_of (Q := fun list =>
    Graph.RetainsPart list.part ∧ ∀ a ∈ list.memberName?, Graph.RetainsPart a)
    (fun s list s' h => ?_) fun list h => hf list h.1 h.2
  obtain ⟨text, hlist⟩ := exists_of_runOn_named h
  have hmem := mem_of_lookup hlist
  exact ⟨Graph.forall_mem_listProperty Graph.retainsPart _ hmem,
    Graph.forall_mem_memberName (C := Graph.RetainsPart) (Graph.retainsPart .typeName)
      (Graph.retainsPart .fieldName) (Graph.retainsPart .methodName) _ hmem⟩

/-! ### Attributes and lists -/

theorem through_runQuery (query : PropertyQuery) (r : AnyRef) (name : Literal) :
    retaining.Through (runQuery query r name) := by
  refine through_property_bind fun p hp => (through_asking _).bind fun stored => ?_
  cases query with
  | peek => exact through_asking _
  | isEvaluated | describe => exact .pure _
  | update => exact (through_onGraph (hp.update r.typed _)).bind fun v => through_asking _

theorem through_runGet (r : AnyRef) (name : Literal) : retaining.Through (runGet r name) := by
  unfold runGet
  cases ha : name.text?.bind fun text => (Report.computed r).lookup text with
  | some a =>
    obtain ⟨text, -, ha⟩ := Option.bind_eq_some_iff.mp ha
    exact through_onGraph (Graph.through_computed r _ (mem_of_lookup ha))
  | none =>
    exact through_property_bind fun p hp =>
      (through_onGraph (hp.read r.typed)).bind fun v => through_asking _

theorem through_runList (query : ListQuery) (r : AnyRef) (name : Literal) :
    retaining.Through (runList query r name) := by
  refine through_listProperty_bind fun list hlist _ => ?_
  have hread := through_onGraph (hlist.read r.typed)
  cases query with
  | items | length | isEmpty => exact hread.bind fun _ => .pure _
  | describe => exact through_asking _

theorem along_nameAnswer {name : β → GraphAction String} (b : β)
    (hname : Graph.retaining.Through (name b)) : Graph.retaining.Along (nameAnswer name b) :=
  Keeping.Along.bind hname fun _ => .pure _

theorem along_walkNames (steps : List (Except Error (Ref .typeDef))) :
    Graph.retaining.Along (walkNames steps) := by
  unfold walkNames
  refine (Keeping.Along.mapM fun step _ => ?_).bind fun _ => .pure _
  cases step with
  | error e => exact .pure _
  | ok T => exact along_nameAnswer T (Graph.through_fullName T)

theorem through_runNames (r : AnyRef) (name : Literal) :
    retaining.Through (runNames r name) := by
  unfold runNames
  split
  · next M _ =>
    exact through_onGraphState ((Graph.along_start M).bind fun walk =>
      (Graph.along_take _ walk).bind along_walkNames)
  · refine through_listProperty_bind fun list hlist hname => ?_
    cases hmember : list.memberName? with
    | none => exact through_refuse _
    | some a =>
      refine (through_onGraph (hlist.read r.typed)).bind fun items => ?_
      refine (through_onGraphState (Keeping.Along.mapM fun x _ => ?_)).bind fun _ => .pure _
      exact along_nameAnswer x ((hname a hmember).read x)

/-! ### Owners and members -/

theorem through_linkOn {own : Ownership Graph Error (Ref o) (Ref m)}
    (hown : Graph.retaining.Owning own) {attach : Ref o → Ref m → GraphAction Unit}
    (hattach : ∀ c x, Graph.retaining.Through (attach c x)) (link : Link) (c : Ref o) (x : Ref m) :
    Graph.retaining.Through (linkOn link own attach c x) := by
  cases link with
  | setOwner | attach => exact (hattach c x).bind fun _ => .pure _
  | remove => exact (hown.remove c x).bind fun _ => .pure _
  | contains => exact (hown.contains c x).bind fun _ => .pure _

theorem through_runLink (link : Link) (owner member : AnyRef) :
    retaining.Through (runLink link owner member) := by
  unfold runLink
  split
  · exact through_onGraph
      (through_linkOn Graph.owning_typeOwnership Graph.through_attachType link _ _)
  · refine through_onGraph (through_linkOn Graph.owning_fieldOwnership (fun c x => ?_) link _ _)
    exact Graph.owning_fieldOwnership.attach c x (.pure ())
  · refine through_onGraph (through_linkOn Graph.owning_methodOwnership (fun c x => ?_) link _ _)
    exact Graph.owning_methodOwnership.attach c x (.pure ())
  · exact through_onGraph
      (through_linkOn Graph.owning_recordOwnership Graph.through_attachRecord link _ _)
  · exact through_refuse _

theorem through_runOwner (name : Literal) (r : AnyRef) :
    retaining.Through (runOwner name r) := by
  unfold runOwner
  split
  · exact (through_onGraph (Graph.owning_typeOwnership.owner _)).map
  · exact (through_onGraph (Graph.owning_fieldOwnership.owner _)).map
  · exact (through_onGraph (Graph.owning_methodOwnership.owner _)).map
  · exact (through_onGraph (Graph.owning_recordOwnership.owner _)).map
  · exact through_refuse _

theorem through_runDetach (name : Literal) (r : AnyRef) :
    retaining.Through (runDetach name r) := by
  unfold runDetach
  split
  · exact (through_onGraph (Graph.owning_typeOwnership.detach _)).map
  · exact (through_onGraph (Graph.owning_fieldOwnership.detach _)).map
  · exact (through_onGraph (Graph.owning_methodOwnership.detach _)).map
  · exact (through_onGraph (Graph.owning_recordOwnership.detach _)).map
  · exact through_refuse _

theorem through_runSetNested (of type : Literal) :
    retaining.Through (runSetNested of type) := by
  unfold runSetNested
  split
  case' h_1 => refine (Keeping.Through.pure none).bind fun type? => ?_
  case' h_2 => refine (through_entity type).map.bind fun type? => ?_
  all_goals
    refine (through_entity of).bind fun r => ?_
    split
    · exact (through_onGraph (Graph.through_setNested _ _)).bind fun _ => .pure _
    · exact (through_onGraph (Graph.through_setNested _ _)).bind fun _ => .pure _
    · exact through_refuse _

/-! ### Commands -/

theorem through_runStep (name : Literal) : retaining.Through (runStep name) := by
  unfold runStep
  refine (Keeping.Through.ask _).bind fun walk => ?_
  split
  · next key walk =>
    refine (through_onGraphState (Graph.along_next walk)).bind fun ⟨step, rest⟩ => ?_
    refine (through_rename (f := keepWalk key rest) fun _ => rfl).bind fun _ => ?_
    rcases step with _ | e | T
    · exact .pure _
    · exact .throw _
    · exact .pure _
  · exact through_refuse _

theorem through_add (k : EntityKind) (e : k.Entity) : retaining.Through (add k e) :=
  (through_onGraph (Graph.through_author e)).bind fun _ => .pure _

theorem through_runAuthor (contents : NewEntity) :
    retaining.Through (runAuthor contents) := by
  cases contents with
  | typeReference space name scope =>
    exact (through_valueOf scope .reference).bind fun _ => through_add _ _
  | nestingRecord type => exact (through_entityOf .typeDef type).bind fun _ => through_add _ _
  | _ => exact through_add _ _

/-- **A command keeps the entities of rows**, unless it lets go of the image. -/
theorem through_run {c : Command} (hdrops : c.dropsImage = false) :
    retaining.Through (run c) := by
  cases c with
  | resolve token => exact (through_resolve token).map
  | find kind token => exact (through_resolve token).bind fun _ => .pure _
  | resolveCoded kind value =>
    exact through_image.bind fun _ => (through_onGraph (Graph.through_resolveCoded kind value)).map
  | module => exact (through_resolve _).bind fun _ => .pure _
  | cachedCount => exact through_image.bind fun _ => through_asking _
  | tables => exact through_asking _
  | author contents => exact through_runAuthor contents
  | get of name => exact (through_entity of).bind fun r => through_runGet r name
  | set of name value =>
    refine (through_entity of).bind fun r => through_property_bind fun p hp => ?_
    refine (through_valueOf value p.valueKind).bind fun v => ?_
    exact (through_onGraph (hp.write r.typed v)).bind fun _ => .pure _
  | query query of name => exact (through_entity of).bind fun r => through_runQuery query r name
  | list query of name => exact (through_entity of).bind fun r => through_runList query r name
  | names of name => exact (through_entity of).bind fun r => through_runNames r name
  | allTypes of limit =>
    exact (through_entityOf .module of).bind fun M =>
      through_onGraphState (Graph.along_allTypes limit M)
  | startWalk of name =>
    refine (through_entityOf .module of).bind fun M => ?_
    refine (through_onGraphState (Graph.along_start M)).bind fun walk => ?_
    exact (through_rename (f := keepWalk name walk) fun _ => rfl).bind fun _ => .pure _
  | stepWalk name => exact through_runStep name
  | link link owner member =>
    exact (through_entity owner).bind fun o => (through_entity member).bind fun m =>
      through_runLink link o m
  | owner of => exact (through_entity of).bind (through_runOwner of)
  | detach of => exact (through_entity of).bind (through_runDetach of)
  | setNested of type => exact through_runSetNested of type
  | nest of type =>
    refine (through_entity of).bind fun o => (through_entity type).bind fun x => ?_
    split
    · exact (through_onGraph (Graph.through_nest _ _)).bind fun _ => .pure _
    · exact through_refuse _
  | describe of => exact (through_entity of).bind fun _ => .pure _
  | same a b => exact (through_entity a).bind fun _ => (through_entity b).bind fun _ => .pure _
  | downgrade of name =>
    refine (through_entity of).bind fun r => ?_
    exact (through_rename (f := hold name (.weak r)) fun _ => rfl).bind fun _ => .pure _
  | upgrade of =>
    refine (Keeping.Through.ask _).bind fun v => ?_
    rcases v with _ | r | r
    · exact through_refuse _
    · exact through_refuse _
    · exact through_asking _
  | drop of =>
    refine (Keeping.Through.ask _).bind fun v => (through_rename fun s => ?_).bind fun _ => .pure _
    cases of.text? <;> rfl
  | dropImage => exact nomatch hdrops
  | dump => exact through_image.bind fun i => through_onGraphState (Graph.along_report i)

/-- Letting go of what nothing holds keeps the entities of rows. -/
theorem retains_sweep (s : Session) : s.graph.Retains (sweep s).graph := by
  unfold sweep
  split
  · exact .refl s.graph
  · exact (s.graph.dropsTo_sweep s.held).retains

/-- What follows an answer: it may be kept under a name, and the entities that nothing holds go. -/
theorem along_keepAs (keepAs? : Option String) (a : Answer) : retaining.Along (do
    match keepAs?, a with
    | some name, .entity r => modify (hold name (.strong r))
    | _, _ => pure ()
    modify sweep
    return a) := by
  have hsweep : retaining.Along (do modify sweep; return a) :=
    (Keeping.Along.modify retains_sweep).bind fun _ => .pure a
  split
  · exact (Keeping.Along.modify fun s => Graph.Retains.refl s.graph).bind fun _ => hsweep
  · exact hsweep

/-- **A request keeps the entities of rows.** -/
theorem along_perform {q : Request} (hdrops : q.command.dropsImage = false) :
    retaining.Along (perform q) := by
  unfold perform
  refine Keeping.Along.bind (through_run hdrops) fun r => ?_
  cases r with
  | ok a => exact along_keepAs q.keepAs? a
  | error failure => exact along_keepAs q.keepAs? failure.answer

/-- **A run of requests keeps the entities of rows.** -/
theorem along_requests {requests : List Request}
    (hdrops : ∀ q ∈ requests, q.command.dropsImage = false) :
    retaining.Along (requests.mapM perform) :=
  .mapM fun q hq => along_perform (hdrops q hq)

end Session

end ManagedImage
