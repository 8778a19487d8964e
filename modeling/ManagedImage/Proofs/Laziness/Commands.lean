import ManagedImage.Proofs.Laziness.Sessions

/-!
# Commands on twins

Two sessions whose users hold the same entities of twin graphs carry out a command alike: it gives
the same answer, or fails in the same way.

## Main definitions

* `Command.revealsLoading` — the commands that are left out, next to `Command.dropsImage`.

## Main results

* `Session.Twins.run` — a command on twin sessions.
-/

namespace ManagedImage

/-- The command asks what has been loaded. -/
def Command.revealsLoading : Command → Bool
  | .cachedCount => true
  | .query .peek _ _ | .query .isEvaluated _ _ | .query .describe _ _ => true
  | .list .describe _ _ => true
  | _ => false

namespace Session

variable {image : MetadataImage} {s t : Session}

namespace Twins

/-! ### Attributes and lists -/

/-- **Updating an attribute.** -/
theorem runQuery (h : Twins image s t) {query : PropertyQuery} (hquery : query = .update)
    {r : AnyRef} (hr : s.graph.isAlive r) (name : Literal) :
    (twins image).Matches (runQuery query r name) s t (fun a s' => a.IsLiving s'.graph)
      fun _ => True := by
  subst hquery
  unfold Session.runQuery
  refine (h.property r name).bind fun p s₁ t₁ hk₁ h₁ hp => ?_
  -- what is there is looked at as well, but only the other questions tell it
  change (twins image).Matches (do
    let value ← Session.onGraph (p.part.update r.typed p.valueKind.following)
    Session.asking fun g => p.valueKind.answer g value) s₁ t₁ _ _
  have hupdate := hp.update (r := r.typed) h₁.graph (hk₁.alive r hr)
    (Graph.refs_following p.valueKind)
  refine (h₁.onGraph hupdate).bind fun v s₂ t₂ _ h₂ hv => h₂.answer hv

/-- **Reading an attribute**, or something computed. -/
theorem runGet (h : Twins image s t) {r : AnyRef} (hr : s.graph.isAlive r) (name : Literal) :
    (twins image).Matches (runGet r name) s t (fun a s' => a.IsLiving s'.graph)
      fun _ => True := by
  unfold Session.runGet
  cases ha : name.text?.bind fun text => (Report.computed r).lookup text with
  | some a =>
    obtain ⟨text, -, ha⟩ := Option.bind_eq_some_iff.mp ha
    exact h.onGraph (h.graph.computed hr _ (mem_of_lookup ha))
  | none =>
    refine (h.property r name).bind fun p s₁ t₁ hk₁ h₁ hp => ?_
    have hread := hp.read (r := r.typed) h₁.graph (hk₁.alive r hr)
    exact (h₁.onGraph hread).bind fun v s₂ t₂ _ h₂ hv => h₂.answer hv

/-- **Asking about a list.** -/
theorem runList (h : Twins image s t) {query : ListQuery} (hquery : query ≠ .describe)
    {r : AnyRef} (hr : s.graph.isAlive r) (name : Literal) :
    (twins image).Matches (runList query r name) s t (fun a s' => a.IsLiving s'.graph)
      fun _ => True := by
  unfold Session.runList
  refine (h.listProperty r name).bind fun list s₁ t₁ hk₁ h₁ hlist => ?_
  have hread := h₁.onGraph (hlist.read (r := r.typed) h₁.graph (hk₁.alive r hr))
  cases query with
  | items | length | isEmpty => exact hread.bind fun v s₂ t₂ _ h₂ _ => .pure h₂ nofun
  | describe => exact absurd rfl hquery

theorem nameAnswer {β : Type} {name : β → GraphAction String} {b : β} {g e : Graph}
    (hname : (Graph.twins image).Matches (name b) g e (fun _ _ => True) fun _ => True) :
    (Graph.twins image).Agrees (nameAnswer name b) g e fun _ _ => True :=
  Pairing.Agrees.bind hname fun _ _ _ _ h₁ _ => .pure h₁ trivial

/-- The names of the types that a walk has visited. -/
theorem walkNames {g e : Graph} (h : Graph.Twins image g e)
    {steps : List (Except Error (Ref .typeDef))} (hsteps : ∀ T, .ok T ∈ steps → g.isAlive T.any) :
    (Graph.twins image).Agrees (walkNames steps) g e fun a g' => a.IsLiving g' := by
  unfold Session.walkNames
  refine Pairing.Agrees.bind (Pairing.Agrees.mapM (R := fun _ _ => True) h
    (fun _ _ _ _ _ => trivial) fun step hstep g₁ e₁ hk₁ h₁ => ?_)
    fun _ g₁ e₁ _ h₁ _ => .pure h₁ nofun
  cases step with
  | error x => exact .pure h₁ trivial
  | ok T => exact nameAnswer (Graph.Twins.fullName h₁ (hk₁.alive _ (hsteps T hstep)))

/-- **Asking for names.** -/
theorem runNames (h : Twins image s t) {r : AnyRef} (hr : s.graph.isAlive r) (name : Literal) :
    (twins image).Matches (runNames r name) s t (fun a s' => a.IsLiving s'.graph)
      fun _ => True := by
  unfold Session.runNames
  split
  · next M _ hM =>
    obtain rfl := AnyRef.as?_eq_some_iff.mp hM
    refine h.onGraphState (Pairing.Agrees.bind (h.graph.start hr) fun walk g₁ e₁ _ h₁ hwalk => ?_)
    refine Pairing.Agrees.bind (Graph.Twins.take h₁ Report.walkLimit hwalk)
      fun steps g₂ e₂ _ h₂ hsteps => walkNames h₂ hsteps
  · refine (h.listProperty r _).bind fun list s₁ t₁ hk₁ h₁ hlist => ?_
    cases hmember : list.memberName? with
    | none => exact h₁.refuse _
    | some memberName =>
      have hread := h₁.onGraph (hlist.read (r := r.typed) h₁.graph (hk₁.alive r hr))
      refine hread.bind fun items s₂ t₂ _ h₂ hitems => ?_
      have hnames := Pairing.Agrees.mapM (R := fun _ _ => True)
        (f := Session.nameAnswer memberName.read) h₂.graph
        (fun _ _ _ _ _ => trivial) fun x hx g₃ e₃ hk₃ h₃ =>
          nameAnswer (hlist.name memberName hmember h₃ (hk₃.alive _ (hitems x hx)))
      exact (h₂.onGraphState hnames).bind fun _ s₃ t₃ _ h₃ _ => .pure h₃ nofun

/-! ### Owners and members -/

/-- What is done with an owner and a member of known kinds. -/
theorem linkOn {o m : EntityKind} {own : Ownership Graph Error (Ref o) (Ref m)}
    (hown : Graph.Mirrors image own) {attach : Ref o → Ref m → GraphAction Unit} {g e : Graph}
    (h : Graph.Twins image g e) {c : Ref o} {x : Ref m} (hc : g.isAlive c.any)
    (hx : g.isAlive x.any)
    (hattach : (Graph.twins image).Matches (attach c x) g e (fun _ _ => True) fun _ => True)
    (link : Link) :
    (Graph.twins image).Matches (linkOn link own attach c x) g e (fun a g' => a.IsLiving g')
      fun _ => True := by
  cases link with
  | setOwner | attach => exact hattach.bind fun _ g₁ e₁ _ h₁ _ => .pure h₁ nofun
  | remove => exact (hown.remove h hc hx).bind fun _ g₁ e₁ _ h₁ _ => .pure h₁ nofun
  | contains => exact (hown.contains h hc).bind fun _ g₁ e₁ _ h₁ _ => .pure h₁ nofun

theorem runLink (h : Twins image s t) (link : Link) {owner member : AnyRef}
    (ho : s.graph.isAlive owner) (hm : s.graph.isAlive member) :
    (twins image).Matches (runLink link owner member) s t (fun a s' => a.IsLiving s'.graph)
      fun _ => True := by
  unfold Session.runLink
  split
  · exact h.onGraph (linkOn Graph.mirrors_typeOwnership h.graph ho hm (h.graph.attachType ho hm) link)
  · exact h.onGraph (linkOn Graph.mirrors_fieldOwnership h.graph ho hm
      (Graph.mirrors_fieldOwnership.attach h.graph ho hm fun _ _ _ h' => .pure h' trivial) link)
  · exact h.onGraph (linkOn Graph.mirrors_methodOwnership h.graph ho hm
      (Graph.mirrors_methodOwnership.attach h.graph ho hm fun _ _ _ h' => .pure h' trivial) link)
  · exact h.onGraph (linkOn Graph.mirrors_recordOwnership h.graph ho hm
      (h.graph.attachRecord ho hm) link)
  · exact h.refuse _

theorem runOwner (h : Twins image s t) (name : Literal) {r : AnyRef} (hr : s.graph.isAlive r) :
    (twins image).Matches (runOwner name r) s t (fun a s' => a.IsLiving s'.graph)
      fun _ => True := by
  unfold Session.runOwner
  split
  · exact (h.onGraph (E := fun _ => True) (Graph.mirrors_typeOwnership.owner h.graph hr)).map
      fun _ _ _ hv => Report.isLiving_ofRef? hv
  · exact (h.onGraph (E := fun _ => True) (Graph.mirrors_fieldOwnership.owner h.graph hr)).map
      fun _ _ _ hv => Report.isLiving_ofRef? hv
  · exact (h.onGraph (E := fun _ => True) (Graph.mirrors_methodOwnership.owner h.graph hr)).map
      fun _ _ _ hv => Report.isLiving_ofRef? hv
  · exact (h.onGraph (E := fun _ => True) (Graph.mirrors_recordOwnership.owner h.graph hr)).map
      fun _ _ _ hv => Report.isLiving_ofRef? hv
  · exact h.refuse _

theorem runDetach (h : Twins image s t) (name : Literal) {r : AnyRef} (hr : s.graph.isAlive r) :
    (twins image).Matches (runDetach name r) s t (fun a s' => a.IsLiving s'.graph)
      fun _ => True := by
  unfold Session.runDetach
  split
  · exact (h.onGraph (E := fun _ => True) (Graph.mirrors_typeOwnership.detach h.graph hr)).map
      fun _ _ _ _ => nofun
  · exact (h.onGraph (E := fun _ => True) (Graph.mirrors_fieldOwnership.detach h.graph hr)).map
      fun _ _ _ _ => nofun
  · exact (h.onGraph (E := fun _ => True) (Graph.mirrors_methodOwnership.detach h.graph hr)).map
      fun _ _ _ _ => nofun
  · exact (h.onGraph (E := fun _ => True) (Graph.mirrors_recordOwnership.detach h.graph hr)).map
      fun _ _ _ _ => nofun
  · exact h.refuse _

theorem runSetNested (h : Twins image s t) (of type : Literal) :
    (twins image).Matches (runSetNested of type) s t (fun a s' => a.IsLiving s'.graph)
      fun _ => True := by
  have hnull : (twins image).Matches (pure none : SessionAction (Option AnyRef)) s t
      (fun type? s' => ∀ r ∈ type?, s'.graph.isAlive r) fun _ => True := .pure h (by simp)
  have hentity : (twins image).Matches (some <$> Session.entity type) s t
      (fun type? s' => ∀ r ∈ type?, s'.graph.isAlive r) fun _ => True :=
    (h.entity type).map fun _ _ _ hr x hx => Option.mem_some.mp hx ▸ hr
  unfold Session.runSetNested
  split
  case' h_1 => refine hnull.bind ?_
  case' h_2 => refine hentity.bind ?_
  -- from here on it does not matter where the type comes from
  all_goals
    intro type? s₁ t₁ _ h₁ htype
    refine (h₁.entity of).bind fun r s₂ t₂ hk₂ h₂ hr => ?_
    split
    · next R hR =>
      obtain rfl := AnyRef.as?_eq_some_iff.mp hR
      have hset := h₂.onGraph (E := fun _ => True) (h₂.graph.setNested hr (c := none) (by simp))
      exact hset.bind fun _ s₃ t₃ _ h₃ _ => .pure h₃ nofun
    · next R x T hR hT =>
      obtain rfl := AnyRef.as?_eq_some_iff.mp hR
      obtain rfl := AnyRef.as?_eq_some_iff.mp hT
      have halive : ∀ U ∈ some T, s₂.graph.isAlive U.any := by
        rintro U ⟨⟩
        exact hk₂.alive _ (htype _ rfl)
      have hset := h₂.onGraph (E := fun _ => True) (h₂.graph.setNested hr halive)
      exact hset.bind fun _ s₃ t₃ _ h₃ _ => .pure h₃ nofun
    · exact h₂.refuse _

/-! ### Walks and authored entities -/

/-- **A step of a walk.** -/
theorem runStep (h : Twins image s t) (name : Literal) :
    (twins image).Matches (runStep name) s t (fun a s' => a.IsLiving s'.graph)
      fun _ => True := by
  unfold Session.runStep
  have hwalk : (twins image).Matches (Session.walk? name) s t (fun v s' =>
      ∀ walk ∈ v, ∀ q ∈ walk.pending, s'.graph.isAlive q.1.any) fun _ => True := by
    refine .ask h (by rw [h.walks]) fun walk hwalk => ?_
    obtain ⟨text, -, hwalk⟩ := Option.bind_eq_some_iff.mp hwalk
    exact h.pending text walk hwalk
  refine hwalk.bind fun walk s₁ t₁ _ h₁ hpending => ?_
  split
  · next key walk =>
    have hnext := h₁.onGraphState (h₁.graph.next (hpending walk rfl))
    refine hnext.bind fun v s₂ t₂ _ h₂ ⟨hT, hrest⟩ => ?_
    have hkeep : (twins image).Matches (Action.change (Session.keepWalk key v.2) : SessionAction Unit)
        s₂ t₂ (fun _ s' => s'.graph = s₂.graph) fun _ => True :=
      .change (.refl s₂.graph) (h₂.keepWalk key hrest) rfl
    refine hkeep.bind fun _ s₃ t₃ _ h₃ hsame => ?_
    obtain ⟨_ | x | T, rest⟩ := v
    · exact .pure h₃ nofun
    · exact .throw h₃ trivial
    · refine .pure h₃ fun r hr => ?_
      obtain rfl := Answer.entity.inj hr
      rw [hsame]
      exact hT T rfl
  · exact h₁.refuse _

theorem startWalk (h : Twins image s t) (of : Literal) (name : String) :
    (twins image).Matches (run (.startWalk of name)) s t (fun a s' => a.IsLiving s'.graph)
      fun _ => True := by
  unfold Session.run
  refine (h.entityOf .module of).bind fun M s₁ t₁ _ h₁ hM => ?_
  refine (h₁.onGraphState (h₁.graph.start hM)).bind fun walk s₂ t₂ _ h₂ hwalk => ?_
  have hkeep : (twins image).Matches (Action.change (Session.keepWalk name walk) : SessionAction Unit)
      s₂ t₂ (fun _ _ => True) fun _ => True :=
    .change (.refl s₂.graph) (h₂.keepWalk name hwalk) trivial
  exact hkeep.bind fun _ s₃ t₃ _ h₃ _ => .pure h₃ nofun

theorem add (h : Twins image s t) {k : EntityKind} {c : k.Entity} (hc : s.graph.Admits c) :
    (twins image).Matches (add k c) s t (fun a s' => a.IsLiving s'.graph) fun _ => True := by
  unfold Session.add
  refine (h.onGraph (E := fun _ => True) (h.graph.author hc)).bind fun r s₁ t₁ _ h₁ hr => ?_
  refine .pure h₁ fun x hx => ?_
  obtain rfl := Answer.entity.inj hx
  exact hr

/-- **Authoring an entity.** -/
theorem runAuthor (h : Twins image s t) (contents : NewEntity) :
    (twins image).Matches (runAuthor contents) s t (fun a s' => a.IsLiving s'.graph)
      fun _ => True := by
  cases contents with
  | module name mvid => exact h.add (Graph.admits_module name mvid)
  | type space name flags => exact h.add (Graph.admits_typeDef space name flags)
  | typeReference space name scope =>
    exact (h.valueOf scope .reference).bind fun v s₁ t₁ _ h₁ hv =>
      h₁.add (Graph.admits_typeRef space name hv)
  | field name flags signature => exact h.add (Graph.admits_field name flags signature)
  | method name flags signature => exact h.add (Graph.admits_methodDef name flags signature)
  | moduleReference name => exact h.add (Graph.admits_moduleRef name)
  | assemblyReference name version => exact h.add (Graph.admits_assemblyRef name version)
  | nestingRecord type =>
    exact (h.entityOf .typeDef type).bind fun T s₁ t₁ _ h₁ hT => h₁.add (Graph.admits_nestedClass hT)

/-- **A command** on twin sessions gives the same answer, or fails in the same way. -/
theorem run (h : Twins image s t) {c : Command} (hreveals : c.revealsLoading = false)
    (hdrops : c.dropsImage = false) :
    (twins image).Matches (Session.run c) s t (fun a s' => a.IsLiving s'.graph)
      fun _ => True := by
  cases c with
  | resolve token => exact (h.resolve token).map fun _ _ _ hr => Answer.isLiving_ofRef? hr
  | find kind token =>
    refine (h.resolve token).bind fun r s₁ t₁ _ h₁ hr => .pure h₁ ?_
    refine Report.isLiving_ofRef? fun x hx => ?_
    obtain ⟨y, hy, hxy⟩ := Option.bind_eq_some_iff.mp hx
    exact AnyRef.as?_eq_some_iff.mp hxy ▸ hr y hy
  | resolveCoded kind value =>
    refine h.theImage.bind fun _ s₁ t₁ _ h₁ _ => ?_
    exact (h₁.onGraph (h₁.graph.resolveCoded kind value)).map
      fun _ _ _ hr => Answer.isLiving_ofRef? hr
  | module =>
    refine (h.resolve _).bind fun r s₁ t₁ _ h₁ hr => .pure h₁ ?_
    refine Report.isLiving_ofRef? fun x hx => ?_
    obtain ⟨y, hy, hxy⟩ := Option.bind_eq_some_iff.mp hx
    exact AnyRef.as?_eq_some_iff.mp hxy ▸ hr y hy
  | cachedCount => exact nomatch hreveals
  | tables =>
    unfold Session.run
    refine .ask h ?_ nofun
    dsimp only
    rw [h.graph.image_right, h.graph.image_left]
  | author contents => exact h.runAuthor contents
  | get of name => exact (h.entity of).bind fun r s₁ t₁ _ h₁ hr => h₁.runGet hr name
  | set of name value =>
    refine (h.entity of).bind fun r s₁ t₁ hk₁ h₁ hr => ?_
    refine (h₁.property r name).bind fun p s₂ t₂ hk₂ h₂ hp => ?_
    refine (h₂.valueOf value p.valueKind).bind fun v s₃ t₃ hk₃ h₃ hv => ?_
    have hwrite := hp.write (r := r.typed) h₃.graph (hk₃.alive r (hk₂.alive r hr))
      fun x hx => h₃.graph.sound.isKnown (hv x hx)
    exact (h₃.onGraph hwrite).bind fun _ s₄ t₄ _ h₄ _ => .pure h₄ nofun
  | query query of name =>
    refine (h.entity of).bind fun r s₁ t₁ _ h₁ hr => ?_
    cases query with
    | update => exact h₁.runQuery rfl hr name
    | _ => exact nomatch hreveals
  | list query of name =>
    refine (h.entity of).bind fun r s₁ t₁ _ h₁ hr => ?_
    refine h₁.runList ?_ hr name
    rintro rfl
    exact nomatch hreveals
  | names of name => exact (h.entity of).bind fun r s₁ t₁ _ h₁ hr => h₁.runNames hr name
  | allTypes of limit =>
    exact (h.entityOf .module of).bind fun M s₁ t₁ _ h₁ hM =>
      h₁.onGraphState (h₁.graph.allTypes limit hM)
  | startWalk of name => exact h.startWalk of name
  | stepWalk name => exact h.runStep name
  | link link owner member =>
    refine (h.entity owner).bind fun o s₁ t₁ _ h₁ ho => ?_
    exact (h₁.entity member).bind fun m s₂ t₂ hk₂ h₂ hm => h₂.runLink link (hk₂.alive o ho) hm
  | owner of => exact (h.entity of).bind fun r s₁ t₁ _ h₁ hr => h₁.runOwner of hr
  | detach of => exact (h.entity of).bind fun r s₁ t₁ _ h₁ hr => h₁.runDetach of hr
  | setNested of type => exact h.runSetNested of type
  | nest of type =>
    refine (h.entity of).bind fun o s₁ t₁ _ h₁ ho => ?_
    refine (h₁.entity type).bind fun x s₂ t₂ hk₂ h₂ hx => ?_
    split
    · next F T hF hT =>
      obtain rfl := AnyRef.as?_eq_some_iff.mp hF
      obtain rfl := AnyRef.as?_eq_some_iff.mp hT
      have hnest := h₂.onGraph (E := fun _ => True) (h₂.graph.nest (hk₂.alive _ ho) hx)
      refine hnest.bind fun R s₃ t₃ _ h₃ hR => .pure h₃ fun r hr => ?_
      obtain rfl := Answer.entity.inj hr
      exact hR
    · exact h₂.refuse _
  | describe of => exact (h.entity of).bind fun r s₁ t₁ _ h₁ _ => .pure h₁ nofun
  | same a b =>
    refine (h.entity a).bind fun x s₁ t₁ _ h₁ _ => ?_
    exact (h₁.entity b).bind fun y s₂ t₂ _ h₂ _ => .pure h₂ nofun
  | downgrade of name =>
    refine (h.entity of).bind fun r s₁ t₁ _ h₁ hr => ?_
    have hhold : (twins image).Matches
        (Action.change (Session.hold name (.weak r)) : SessionAction Unit) s₁ t₁
        (fun _ _ => True) fun _ => True := by
      refine .change (.refl s₁.graph) (h₁.hold name nofun ?_) trivial
      rintro x ⟨⟩
      exact h₁.graph.sound.isKnown hr
    exact hhold.bind fun _ s₂ t₂ _ h₂ _ => .pure h₂ nofun
  | upgrade of =>
    refine (h.handle? of).bind fun v s₁ t₁ _ h₁ hv => ?_
    rcases v with _ | r | r
    · exact h₁.refuse _
    · exact h₁.refuse _
    · have halive := h₁.graph.isAlive_eq (hv.2 r rfl)
      refine h₁.asking (Q := fun (a : Answer) g => a.IsLiving g) (by rw [halive]) ?_
      refine Answer.isLiving_ofRef? fun x hx => ?_
      split at hx
      · next hr => exact Option.some.inj hx ▸ hr
      · exact nomatch hx
  | drop of =>
    refine (h.handle? of).bind fun v s₁ t₁ _ h₁ _ => ?_
    have hdrop : (twins image).Matches
        (Action.change fun s => (of.text?.map (Session.letGo · s)).getD s : SessionAction Unit) s₁ t₁
        (fun _ _ => True) fun _ => True := by
      cases of.text? with
      | none => exact .change (.refl s₁.graph) h₁ trivial
      | some name => exact .change (.refl s₁.graph) (h₁.letGo name) trivial
    exact hdrop.bind fun _ s₂ t₂ _ h₂ _ => .pure h₂ nofun
  | dropImage => exact nomatch hdrops
  | dump =>
    refine h.theImage.bind fun i s₁ t₁ _ h₁ hi => ?_
    subst hi
    exact h₁.onGraphState h₁.graph.report

end Twins

end Session

end ManagedImage
