import ManagedImage.Graph.Nesting
import ManagedImage.Proofs.Identity.Retaining
import ManagedImage.Session.Report

/-!
# Operations on a graph keep the entities of rows

Whatever is done to owners and members, to nested types or to attributes by name, and whether or not
it fails half-way, the entities of rows stay.

## Main definitions

* `Keeping.Owning` — what is done to owners and members keeps something.

## Main results

* `Keeping.Owning.remove`, `Keeping.Owning.detach`, `Keeping.Owning.attach` — the operations on an
  `Ownership`.
* `Graph.through_attachType`, `Graph.through_attachRecord`, `Graph.through_setNested`,
  `Graph.through_nest` — the operations on nested types.
* `Graph.through_computed`, `Graph.along_reportEntity`, `Graph.along_report` — reports.
-/

namespace ManagedImage

namespace Keeping

/-! ### Owners and members -/

section Owning

variable {σ ε O M : Type} {K : Keeping σ} {own : Ownership σ ε O M}

/-- Reading and replacing lists and owners keeps it, and so does what follows. -/
structure Owning (K : Keeping σ) (own : Ownership σ ε O M) : Prop where
  items : ∀ o, K.Through (own.items o)
  owner : ∀ m, K.Through (own.owner m)
  putItems : ∀ o items s, K.keeps s (own.putItems o items s)
  putOwner : ∀ m o s, K.keeps s (own.putOwner m o s)
  ownerChanged : ∀ m o, K.Through (own.ownerChanged m o)

namespace Owning

variable [DecidableEq M]

theorem contains (h : K.Owning own) (o : O) (m : M) : K.Through (own.contains o m) :=
  (h.items o).bind fun _ => .pure _

theorem insert (h : K.Owning own) (o : O) (m : M) : K.Through (own.insert o m) := by
  unfold Ownership.insert
  refine (h.items o).bind fun items => ?_
  split
  · exact .change (h.putItems o _)
  · exact .pure ()

theorem take (h : K.Owning own) (o : O) (m : M) : K.Through (own.take o m) := by
  unfold Ownership.take
  refine (h.items o).bind fun items => ?_
  split
  · exact (Through.change (h.putItems o _)).bind fun _ => .pure true
  · exact .pure false

/-- **Removing** keeps it. -/
theorem remove (h : K.Owning own) (o : O) (m : M) : K.Through (own.remove o m) := by
  unfold Ownership.remove
  refine (h.take o m).bind fun taken => ?_
  cases taken with
  | false => exact .pure false
  | true =>
    refine (Through.change (h.putOwner m none)).bind fun _ => ?_
    exact (h.ownerChanged m none).bind fun _ => .pure true

/-- **Detaching** keeps it. -/
theorem detach (h : K.Owning own) (m : M) : K.Through (own.detach m) := by
  unfold Ownership.detach
  refine (h.owner m).bind fun o => ?_
  cases o with
  | none => exact .pure false
  | some o => exact h.remove o m

/-- The member gets an owner. -/
theorem join (h : K.Owning own) (o : O) (m : M) :
    K.Through (do
      Action.change (own.putOwner m (some o))
      own.insert o m
      own.ownerChanged m (some o)) :=
  (Through.change (h.putOwner m (some o))).bind fun _ =>
    (h.insert o m).bind fun _ => h.ownerChanged m (some o)

/-- **Attaching** keeps it, if what comes before does. -/
theorem attach [DecidableEq O] (h : K.Owning own) {before : M → O → Action σ ε Unit} (o : O) (m : M)
    (hbefore : K.Through (before m o)) : K.Through (own.attach before o m) := by
  unfold Ownership.attach
  refine Through.get.bind fun s => ?_
  split
  · refine (h.items o).bind fun _ => (h.owner m).bind fun current => ?_
    cases current with
    | none => exact hbefore.bind fun _ => h.join o m
    | some current =>
      dsimp only
      split
      · exact h.insert o m
      · refine (h.items current).bind fun _ => hbefore.bind fun _ => ?_
        exact (h.take current m).bind fun _ => h.join o m
  · exact .throw_bind own.ownerGone

end Owning

end Owning

end Keeping

namespace Graph

variable {k o m : EntityKind}

theorem through_living (r : Option (Ref k)) : retaining.Through (living r) :=
  Keeping.Through.get.bind fun _ => .pure _

/-- The sides of an edge may be read and replaced. -/
theorem owning_ownership {ed : Edge o m} (hmembers : RetainsPart ed.members)
    (howner : RetainsPart ed.owner) {hook : Ref m → Option (Ref o) → GraphAction Unit}
    (hhook : ∀ x c, retaining.Through (hook x c)) : retaining.Owning (ed.ownership hook) where
  items := hmembers.read
  owner x := (howner.read x).bind through_living
  putItems := hmembers.write
  putOwner := howner.write
  ownerChanged := hhook

theorem owning_typeOwnership : retaining.Owning typeOwnership :=
  owning_ownership (retainsPart .topLevelTypes) (retainsPart .module) fun _ _ => .pure ()

theorem owning_fieldOwnership : retaining.Owning fieldOwnership :=
  owning_ownership (retainsPart .fields) (retainsPart .fieldOwner) fun _ _ => .pure ()

theorem owning_methodOwnership : retaining.Owning methodOwnership :=
  owning_ownership (retainsPart .methods) (retainsPart .methodOwner) fun _ _ => .pure ()

theorem owning_recordOwnership : retaining.Owning recordOwnership := by
  refine owning_ownership (retainsPart .nestedClasses) (retainsPart .enclosing) fun R c => ?_
  refine ((retainsPart .nested).read R).bind fun T => ?_
  cases T with
  | none => exact .pure ()
  | some T => exact (retainsPart .declaringType).write T c

/-! ### Nested types -/

section Nesting

variable (M : Ref .module) (T F : Ref .typeDef) (R : Ref .nestedClass)

theorem through_enclosingType : retaining.Through (enclosingType T) :=
  ((retainsPart .declaringType).read T).bind through_living

theorem through_typesOf (Rs : List (Ref .nestedClass)) : retaining.Through (typesOf Rs) := by
  induction Rs with
  | nil => exact .pure []
  | cons R Rs ih => exact ((retainsPart .nested).read R).bind fun _ => ih.bind fun _ => .pure _

theorem through_nestedTypes : retaining.Through (nestedTypes T) :=
  ((retainsPart .nestedClasses).read T).bind through_typesOf

theorem through_findRecord (Rs : List (Ref .nestedClass)) :
    retaining.Through (findRecord T Rs) := by
  induction Rs with
  | nil => exact .pure none
  | cons R Rs ih =>
    unfold findRecord
    refine ((retainsPart .nested).read R).bind fun U => ?_
    split
    · exact .pure (some R)
    · exact ih

theorem through_nestingRecord? : retaining.Through (nestingRecord? T) := by
  unfold nestingRecord?
  refine (through_enclosingType T).bind fun F => ?_
  cases F with
  | none => exact .pure none
  | some F => exact ((retainsPart .nestedClasses).read F).bind (through_findRecord T)

theorem through_release : retaining.Through (release R T) := by
  unfold release
  refine (owning_typeOwnership.detach T).bind fun _ => (through_nestingRecord? T).bind fun S => ?_
  cases S with
  | none => exact .pure ()
  | some S =>
    dsimp only
    split
    · exact (owning_recordOwnership.detach S).bind fun _ => .pure ()
    · exact .pure ()

/-- **Attaching a type** to a module keeps the entities of rows. -/
theorem through_attachType : retaining.Through (attachType M T) := by
  refine owning_typeOwnership.attach M T ((through_nestingRecord? T).bind fun R => ?_)
  cases R with
  | none => exact .pure ()
  | some R => exact (owning_recordOwnership.detach R).bind fun _ => .pure ()

/-- **Attaching a record** to a type keeps the entities of rows. -/
theorem through_attachRecord : retaining.Through (attachRecord F R) := by
  refine owning_recordOwnership.attach F R (((retainsPart .nested).read R).bind fun T => ?_)
  cases T with
  | none => exact .pure ()
  | some T => exact through_release T R

/-- Writing what encloses a type, if there is a type. -/
theorem through_enclose (U? F? : Option (Ref .typeDef)) {next : GraphAction Unit}
    (hnext : retaining.Through next) :
    retaining.Through (match U? with
      | some U => Attribute.TypeDef.declaringType.write U F? >>= fun _ => next
      | none => next) := by
  cases U? with
  | none => exact hnext
  | some U => exact ((retainsPart .declaringType).write U F?).bind fun _ => hnext

/-- **Making a record nest another type** keeps the entities of rows. -/
theorem through_setNested (c : Option (Ref .typeDef)) : retaining.Through (setNested R c) := by
  have hnested := (retainsPart .nested).write R c
  unfold setNested
  refine ((retainsPart .nested).read R).bind fun previous => ?_
  refine ((retainsPart .enclosing).read R).bind fun enclosing => ?_
  split
  · exact .pure ()
  · have hrest := through_enclose previous none (through_enclose c enclosing hnested)
    cases c with
    | none => exact hrest
    | some T =>
      refine (through_living enclosing).bind fun F => ?_
      split
      · exact (through_release T R).bind fun _ => hrest
      · exact hrest

theorem through_author (e : k.Entity) : retaining.Through (author e) :=
  .of_runOn fun _ => retains_authored e

/-- **Nesting a type** keeps the entities of rows: what is taken back had been authored. -/
theorem through_nest : retaining.Through (nest F T) := by
  unfold nest
  refine (through_nestingRecord? T).bind fun R => ?_
  cases R with
  | some R => exact (through_attachRecord F R).bind fun _ => .pure R
  | none =>
    refine (through_author _).bind_of (Q := fun R => R.id.isRow = false) ?_ fun R hR => ?_
    · intro g R g' h
      rw [runOn_author] at h
      obtain rfl := Except.ok.inj (congrArg Prod.fst h)
      rfl
    · have hattach := (through_attachRecord F R).orUndo fun _ => retains_withdraw hR
      exact hattach.bind fun _ => .pure R

end Nesting

/-! ### Attributes and lists by name -/

/-- Every attribute with a name is a part. -/
theorem forall_mem_property {C : ∀ {α : Type}, Attribute k α → Prop}
    (h : ∀ p : Part k, C p.attr) : ∀ p ∈ Property.table k, C p.2.part := by
  cases k with
  | module =>
    simp only [Property.table, List.forall_mem_cons]
    exact ⟨h .generation, h .moduleName, h .mvid, h .encId, h .encBaseId, nofun⟩
  | typeRef =>
    simp only [Property.table, List.forall_mem_cons]
    exact ⟨h .typeRefName, h .typeRefNamespace, h .resolutionScope, nofun⟩
  | typeDef =>
    simp only [Property.table, List.forall_mem_cons]
    exact ⟨h .typeFlags, h .typeName, h .typeNamespace, h .baseType, nofun⟩
  | field =>
    simp only [Property.table, List.forall_mem_cons]
    exact ⟨h .fieldFlags, h .fieldName, h .fieldSignature, nofun⟩
  | methodDef =>
    simp only [Property.table, List.forall_mem_cons]
    exact ⟨h .rva, h .implFlags, h .methodFlags, h .methodName, h .methodSignature, nofun⟩
  | nestedClass => exact nofun
  | moduleRef =>
    simp only [Property.table, List.forall_mem_cons]
    exact ⟨h .moduleRefName, nofun⟩
  | assemblyRef =>
    simp only [Property.table, List.forall_mem_cons]
    exact ⟨h .version, h .assemblyFlags, h .publicKeyOrToken, h .assemblyName, h .culture,
      h .hashValue, nofun⟩

/-- Every list with a name is a part. -/
theorem forall_mem_listProperty {C : ∀ {α : Type}, Attribute k α → Prop}
    (h : ∀ p : Part k, C p.attr) : ∀ p ∈ ListProperty.table k, C p.2.part := by
  cases k with
  | module =>
    simp only [ListProperty.table, List.forall_mem_cons]
    exact ⟨h .topLevelTypes, nofun⟩
  | typeDef =>
    simp only [ListProperty.table, List.forall_mem_cons]
    exact ⟨h .fields, h .methods, h .nestedClasses, nofun⟩
  | _ => exact nofun

/-- The names of members are parts too. -/
theorem forall_mem_memberName {C : ∀ {k : EntityKind}, Attribute k String → Prop}
    (htype : C Attribute.TypeDef.name) (hfield : C Attribute.Field.name)
    (hmethod : C Attribute.MethodDef.name) :
    ∀ p ∈ ListProperty.table k, ∀ a ∈ p.2.memberName?, C a := by
  cases k with
  | module =>
    simp only [ListProperty.table, List.forall_mem_cons]
    exact ⟨fun a ha => Option.some.inj ha ▸ htype, nofun⟩
  | typeDef =>
    simp only [ListProperty.table, List.forall_mem_cons]
    exact ⟨fun a ha => Option.some.inj ha ▸ hfield, fun a ha => Option.some.inj ha ▸ hmethod,
      nofun, nofun⟩
  | _ => exact nofun

/-! ### Names -/

section Climb

variable {name space : Attribute k String} {outer : Ref k → GraphAction (Option (Ref k))}

theorem through_climb (hname : RetainsPart name) (hspace : RetainsPart space)
    (houter : ∀ r, retaining.Through (outer r)) (limit steps : Nat) (names : List String)
    (spaceName : String) (current : Option (Ref k)) :
    retaining.Through (climb limit name space outer steps names spaceName current) := by
  induction steps generalizing names spaceName current with
  | zero =>
    cases current with
    | none => exact .pure _
    | some r => exact .throw _
  | succ steps ih =>
    cases current with
    | none => exact .pure _
    | some r =>
      refine (hname.read r).bind fun name' => (hspace.read r).bind fun space' => ?_
      exact (houter r).bind fun current => ih (name' :: names) space' current

theorem through_qualifiedName (hname : RetainsPart name) (hspace : RetainsPart space)
    (houter : ∀ r, retaining.Through (outer r)) (limit : Nat) (r : Ref k) :
    retaining.Through (qualifiedName limit name space outer r) :=
  (hname.read r).bind fun name' => (hspace.read r).bind fun space' => (houter r).bind fun current =>
    through_climb hname hspace houter limit limit [name'] space' current

end Climb

theorem through_fullName (T : Ref .typeDef) : retaining.Through (fullName T) :=
  Keeping.Through.get.bind fun g => through_qualifiedName (retainsPart .typeName)
    (retainsPart .typeNamespace) through_enclosingType (typeLimit T g) T

theorem through_referenceFullName (T : Ref .typeRef) : retaining.Through (referenceFullName T) := by
  refine through_qualifiedName (retainsPart .typeRefName) (retainsPart .typeRefNamespace)
    (fun r => ?_) referenceLimit T
  have hscope : retaining.Through (scope r) := ((retainsPart .resolutionScope).read r).bind
    fun _ => Keeping.Through.get.bind fun _ => .pure _
  exact hscope.bind fun _ => .pure _

theorem through_displayName (A : Ref .assemblyRef) : retaining.Through (displayName A) :=
  ((retainsPart .culture).read A).bind fun _ => ((retainsPart .assemblyName).read A).bind fun _ =>
    ((retainsPart .version).read A).bind fun _ => .pure _

/-! ### Walks -/

theorem along_start (M : Ref .module) : retaining.Along (Traversal.start M) := by
  unfold Traversal.start
  refine Keeping.Along.get.bind fun g => ?_
  refine Keeping.Along.bind ((retainsPart .topLevelTypes).read M) fun types => ?_
  cases types <;> exact .pure _

theorem along_next (walk : Traversal) : retaining.Along walk.next := by
  obtain ⟨pending, limit, error?⟩ := walk
  unfold Traversal.next
  cases error? with
  | some e => exact .pure _
  | none =>
    cases pending with
    | nil => exact .pure _
    | cons q pending =>
      dsimp only
      split
      · exact .pure _
      · refine Keeping.Along.bind (through_nestedTypes q.1) fun types => ?_
        cases types <;> exact .pure _

theorem along_take (n : Nat) (walk : Traversal) : retaining.Along (walk.take n) := by
  induction n generalizing walk with
  | zero => exact .pure []
  | succ n ih =>
    unfold Traversal.take
    refine (along_next walk).bind fun step => ?_
    obtain ⟨_ | e | T, rest⟩ := step
    · exact .pure []
    · exact .pure _
    · exact (ih rest).bind fun _ => .pure _

theorem along_allTypes (limit : Nat) (M : Ref .module) :
    retaining.Along (Report.allTypes limit M) :=
  (along_start M).bind fun walk => (along_take limit walk).bind fun _ => .pure _

/-! ### Reports -/

/-- **Asking for a token** makes the entity that it names. -/
theorem along_resolve (t : Token) : retaining.Along (resolve t) := by
  intro g
  change g.Retains (resolve t g).2
  unfold resolve
  cases himage : g.image? with
  | none => exact .refl g
  | some image => exact retains_materialise himage fun r hr => ⟨t, Option.mem_toList.mp hr⟩

theorem through_resolveCoded (kind : CodedKind) (value : UInt32) :
    retaining.Through (resolveCoded kind value) := by
  refine .of_runOn fun g => ?_
  change g.Retains (resolveCoded kind value g).2
  unfold resolveCoded
  cases himage : g.image? with
  | none => exact .refl g
  | some image =>
    dsimp only
    cases hr : image.resolveCoded kind value with
    | error e => exact .refl g
    | ok r => exact retains_materialise himage fun s => MetadataImage.names_of_resolveCoded hr

theorem through_livingReference {a : Attribute k (Option AnyRef)} (ha : RetainsPart a)
    (r : Ref k) : retaining.Through (Report.livingReference a r) :=
  (ha.read r).bind fun _ => Keeping.Through.get.bind fun _ => .pure _

/-- **What is computed** for an entity. -/
theorem through_computed (r : AnyRef) : ∀ c ∈ Report.computed r, retaining.Through c.2 := by
  obtain ⟨k, id⟩ := r
  cases k with
  | typeDef =>
    simp only [Report.computed, List.forall_mem_cons]
    exact ⟨(through_fullName ⟨id⟩).map, (owning_typeOwnership.owner ⟨id⟩).map,
      (through_enclosingType ⟨id⟩).map, (through_nestedTypes ⟨id⟩).map,
      through_livingReference (retainsPart .baseType) ⟨id⟩, nofun⟩
  | typeRef =>
    simp only [Report.computed, List.forall_mem_cons]
    exact ⟨(through_referenceFullName ⟨id⟩).map,
      through_livingReference (retainsPart .resolutionScope) ⟨id⟩, nofun⟩
  | field =>
    simp only [Report.computed, List.forall_mem_cons]
    exact ⟨(owning_fieldOwnership.owner ⟨id⟩).map, nofun⟩
  | methodDef =>
    simp only [Report.computed, List.forall_mem_cons]
    exact ⟨(owning_methodOwnership.owner ⟨id⟩).map, nofun⟩
  | nestedClass =>
    simp only [Report.computed, List.forall_mem_cons]
    exact ⟨(owning_recordOwnership.owner ⟨id⟩).map, ((retainsPart .nested).read ⟨id⟩).map, nofun⟩
  | assemblyRef =>
    simp only [Report.computed, List.forall_mem_cons]
    exact ⟨(through_displayName ⟨id⟩).map, nofun⟩
  | module | moduleRef => exact nofun

theorem through_lists (r : AnyRef) : ∀ c ∈ Report.lists r, retaining.Through c.2 := by
  intro c hc
  obtain ⟨list, hlist, rfl⟩ := List.mem_map.mp hc
  have hpart : RetainsPart list.2.part := forall_mem_listProperty retainsPart list hlist
  exact (hpart.read r.typed).map

/-- **A report on an entity.** -/
theorem along_reportEntity (r : AnyRef) : retaining.Along (Report.entity r) := by
  unfold Report.entity
  refine (Keeping.Along.mapM fun c hc => ?_).bind fun answers => ?_
  · have hpart : retaining.Through c.2 := by
      rcases List.mem_append.mp hc with hc | hc
      · exact through_computed r c (List.mem_of_mem_filter hc)
      · exact through_lists r c hc
    exact Keeping.Along.bind hpart fun _ => .pure _
  · cases r.as? .module with
    | none => exact .pure _
    | some M => exact (along_allTypes Report.walkLimit M).bind fun _ => .pure _

/-- **A report on everything.** -/
theorem along_report (image : MetadataImage) : retaining.Along (Report.graph image) := by
  unfold Report.graph
  refine (Keeping.Along.mapM fun t _ => along_resolve t).bind fun rows => ?_
  refine Keeping.Along.get.bind fun g => ?_
  exact (Keeping.Along.mapM fun r _ => along_reportEntity r).bind fun _ => .pure _

end Graph

end ManagedImage
