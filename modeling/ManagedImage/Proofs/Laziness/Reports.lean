import ManagedImage.Proofs.Laziness.Properties

/-!
# What is computed from twins

Names, walks and reports read several attributes of several entities.  They come out the same for
twins, with the same errors where something cannot be read.

## Main results

* `Graph.Twins.fullName`, `Graph.Twins.referenceFullName`, `Graph.Twins.displayName` — names.
* `Graph.Twins.start`, `Graph.Twins.next`, `Graph.Twins.take` — walks.
* `Graph.Twins.computed`, `Graph.Twins.reportEntity`, `Graph.Twins.report` — reports.
-/

namespace ManagedImage

namespace Graph

variable {k : EntityKind} {image : MetadataImage} {g e : Graph}

namespace Twins

/-! ### Names -/

section Climb

variable {name space : Attribute k String} {outer : Ref k → GraphAction (Option (Ref k))}

/-- The names of what exists can be asked for, and so can what lies around it. -/
structure Climbs (image : MetadataImage) (name space : Attribute k String)
    (outer : Ref k → GraphAction (Option (Ref k))) : Prop where
  name : ∀ {g e : Graph} {r : Ref k}, Twins image g e → g.isAlive r.any →
    (twins image).Matches (name.read r) g e (fun _ _ => True) fun _ => True
  space : ∀ {g e : Graph} {r : Ref k}, Twins image g e → g.isAlive r.any →
    (twins image).Matches (space.read r) g e (fun _ _ => True) fun _ => True
  outer : ∀ {g e : Graph} {r : Ref k}, Twins image g e → g.isAlive r.any →
    (twins image).Matches (outer r) g e (fun v g' => ∀ s ∈ v, g'.isAlive s.any) fun _ => True

theorem Climbs.climb (hc : Climbs image name space outer) (h : Twins image g e)
    (limit steps : Nat) (names : List String) (spaceName : String) {current : Option (Ref k)}
    (hcurrent : ∀ s ∈ current, g.isAlive s.any) :
    (twins image).Matches (climb limit name space outer steps names spaceName current) g e
      (fun _ _ => True) fun _ => True := by
  induction steps generalizing names spaceName current g e with
  | zero =>
    cases current with
    | none => exact .pure h trivial
    | some r => exact .throw h trivial
  | succ steps ih =>
    cases current with
    | none => exact .pure h trivial
    | some r =>
      unfold Graph.climb
      have hr := hcurrent r rfl
      refine (hc.name h hr).bind fun name' g₁ e₁ hk₁ h₁ _ => ?_
      refine (hc.space h₁ (hk₁.alive _ hr)).bind fun space' g₂ e₂ hk₂ h₂ _ => ?_
      refine (hc.outer h₂ ((hk₁.trans hk₂).alive _ hr)).bind fun s g₃ e₃ _ h₃ hs => ?_
      exact ih h₃ (name' :: names) space' hs

theorem Climbs.qualifiedName (hc : Climbs image name space outer) (h : Twins image g e)
    (limit : Nat) {r : Ref k} (hr : g.isAlive r.any) :
    (twins image).Matches (qualifiedName limit name space outer r) g e (fun _ _ => True)
      fun _ => True := by
  unfold Graph.qualifiedName
  refine (hc.name h hr).bind fun name' g₁ e₁ hk₁ h₁ _ => ?_
  refine (hc.space h₁ (hk₁.alive _ hr)).bind fun space' g₂ e₂ hk₂ h₂ _ => ?_
  refine (hc.outer h₂ ((hk₁.trans hk₂).alive _ hr)).bind fun s g₃ e₃ _ h₃ hs => ?_
  exact hc.climb h₃ limit limit [name'] space' hs

end Climb

/-- **The full name of a type** in twins. -/
theorem fullName (h : Twins image g e) {T : Ref .typeDef} (hT : g.isAlive T.any) :
    (twins image).Matches (fullName T) g e (fun _ _ => True) fun _ => True := by
  unfold Graph.fullName
  have hlimit : typeLimit T e = typeLimit T g := h.depth_eq hT
  refine .get_bind (by rw [hlimit]) ?_
  have hclimbs : Climbs image Attribute.TypeDef.name Attribute.TypeDef.namespaceName
      Graph.enclosingType :=
    ⟨fun h hr => h.ask .typeName hr, fun h hr => h.ask .typeNamespace hr,
      fun h hr => h.enclosingType hr⟩
  exact hclimbs.qualifiedName h _ hT

theorem scope (h : Twins image g e) {T : Ref .typeRef} (hT : g.isAlive T.any) :
    (twins image).Matches (scope T) g e (fun v g' => ∀ s ∈ v, g'.isAlive s) fun _ => True :=
  (h.read .resolutionScope hT fun _ _ => trivial).bind fun _ _ _ _ h₁ hv =>
    h₁.filterLiving fun s hs => hv.1 s (Option.mem_toList.mpr hs)

/-- **The full name of a type reference** in twins. -/
theorem referenceFullName (h : Twins image g e) {T : Ref .typeRef} (hT : g.isAlive T.any) :
    (twins image).Matches (referenceFullName T) g e (fun _ _ => True) fun _ => True := by
  refine Climbs.qualifiedName ⟨fun h hr => h.ask .typeRefName hr,
    fun h hr => h.ask .typeRefNamespace hr, fun h hr => ?_⟩ h referenceLimit hT
  refine (h.scope hr).bind fun v g₁ e₁ _ h₁ hv => .pure h₁ fun s hs => ?_
  obtain ⟨t, ht, hts⟩ := Option.bind_eq_some_iff.mp hs
  exact AnyRef.as?_eq_some_iff.mp hts ▸ hv t ht

/-- **The display name of an assembly reference** in twins. -/
theorem displayName (h : Twins image g e) {A : Ref .assemblyRef} (hA : g.isAlive A.any) :
    (twins image).Matches (displayName A) g e (fun _ _ => True) fun _ => True := by
  unfold Graph.displayName
  refine (h.ask .culture hA).bind fun culture g₁ e₁ hk₁ h₁ _ => ?_
  refine (h₁.ask .assemblyName (hk₁.alive _ hA)).bind fun name g₂ e₂ hk₂ h₂ _ => ?_
  refine (h₂.ask .version ((hk₁.trans hk₂).alive _ hA)).bind fun version g₃ e₃ _ h₃ _ => ?_
  exact .pure h₃ trivial

/-! ### Walks -/

/-- **Starting a walk** in twins. -/
theorem start (h : Twins image g e) {M : Ref .module} (hM : g.isAlive M.any) :
    (twins image).Agrees (Traversal.start M) g e
      fun walk g' => ∀ q ∈ walk.pending, g'.isAlive q.1.any := by
  unfold Traversal.start
  have hlimit : ((e.entity? M).map (·.maxDepth)).getD 0 = ((g.entity? M).map (·.maxDepth)).getD 0 :=
    h.depth_eq hM
  refine .get_bind (by rw [hlimit]) ?_
  have hread := mirrorsEdge_topLevel.readMembers (E := fun _ => True) h hM
  refine Pairing.Agrees.bind hread fun r g₁ e₁ _ h₁ hr => ?_
  cases r with
  | error x => exact .pure h₁ nofun
  | ok types => exact .pure h₁ (List.forall_mem_map.mpr hr)

/-- **A step of a walk** in twins. -/
theorem next (h : Twins image g e) {walk : Traversal}
    (hwalk : ∀ q ∈ walk.pending, g.isAlive q.1.any) :
    (twins image).Agrees walk.next g e fun v g' =>
      (∀ T, v.1 = some (.ok T) → g'.isAlive T.any) ∧ ∀ q ∈ v.2.pending, g'.isAlive q.1.any := by
  obtain ⟨pending, limit, error?⟩ := walk
  unfold Traversal.next
  cases error? with
  | some x => exact .pure h ⟨nofun, nofun⟩
  | none =>
    cases pending with
    | nil => exact .pure h ⟨nofun, nofun⟩
    | cons q pending =>
      obtain ⟨T, depth⟩ := q
      have hT : g.isAlive T.any := hwalk (T, depth) List.mem_cons_self
      dsimp only
      by_cases hdeep : limit < depth
      · rw [if_pos hdeep]
        exact .pure h ⟨nofun, nofun⟩
      · rw [if_neg hdeep]
        have hnested := h.nestedTypes (E := fun _ => True) hT
        refine Pairing.Agrees.bind hnested fun r g₁ e₁ hk₁ h₁ hr => ?_
        have hT₁ : ∀ U, some (Except.ok T : Except Error (Ref .typeDef)) = some (.ok U) →
            g₁.isAlive U.any := by
          rintro U ⟨⟩
          exact hk₁.alive _ hT
        have hrest : ∀ q ∈ pending, g₁.isAlive q.1.any := fun q hq =>
          hk₁.alive _ (hwalk q (List.mem_cons_of_mem _ hq))
        cases r with
        | error x => exact .pure h₁ ⟨hT₁, hrest⟩
        | ok types =>
          have htypes : ∀ U ∈ types, g₁.isAlive U.any := hr
          refine .pure h₁ ⟨hT₁, fun q hq => ?_⟩
          rcases List.mem_append.mp hq with hq | hq
          · obtain ⟨U, hU, rfl⟩ := List.mem_map.mp hq
            exact htypes U hU
          · exact hrest q hq

/-- **Some steps of a walk** in twins. -/
theorem take (h : Twins image g e) (n : Nat) {walk : Traversal}
    (hwalk : ∀ q ∈ walk.pending, g.isAlive q.1.any) :
    (twins image).Agrees (walk.take n) g e
      fun steps g' => ∀ T, .ok T ∈ steps → g'.isAlive T.any := by
  induction n generalizing walk g e with
  | zero => exact .pure h nofun
  | succ n ih =>
    unfold Traversal.take
    refine (h.next hwalk).bind fun v g₁ e₁ hk₁ h₁ ⟨hT, hrest⟩ => ?_
    obtain ⟨_ | x | T, rest⟩ := v
    · exact .pure h₁ nofun
    · exact .pure h₁ (by simp)
    · refine (ih h₁ hrest).bind fun steps g₂ e₂ hk₂ h₂ hsteps => .pure h₂ fun U hU => ?_
      rcases List.mem_cons.mp hU with hU | hU
      · exact hk₂.alive _ (Except.ok.inj hU ▸ hT T rfl)
      · exact hsteps U hU

theorem allTypes (h : Twins image g e) (limit : Nat) {M : Ref .module} (hM : g.isAlive M.any) :
    (twins image).Agrees (Report.allTypes limit M) g e fun a g' => a.IsLiving g' := by
  unfold Report.allTypes
  refine (h.start hM).bind fun walk g₁ e₁ _ h₁ hwalk => ?_
  exact (h₁.take limit hwalk).bind fun steps g₂ e₂ _ h₂ _ => .pure h₂ nofun

end Twins

/-! ### Reports -/

namespace Twins

/-- The entity that a token names exists. -/
theorem resolve (h : Twins image g e) (t : Token) :
    (twins image).Agrees (resolve t) g e fun r g' => ∀ s ∈ r, g'.isAlive s := by
  obtain ⟨hkeeps, hmade⟩ := h.materialise (image.resolve? t).toList
  refine ⟨image.resolve? t, _, _, ?_, ?_, hkeeps, hmade, fun s hs => ?_⟩
  · unfold Graph.resolve
    rw [h.image_left]
  · unfold Graph.resolve
    rw [h.image_right]
  · exact h.isAlive_materialise (MetadataImage.offers_of_resolve? hs) (Option.mem_toList.mpr hs)

/-- The entity that a coded index refers to exists. -/
theorem resolveCoded (h : Twins image g e) (kind : CodedKind) (value : UInt32) :
    (twins image).Matches (resolveCoded kind value) g e (fun r g' => ∀ s ∈ r, g'.isAlive s)
      fun _ => True := by
  cases hr : image.resolveCoded kind value with
  | error x =>
    have hleft : (Graph.resolveCoded kind value).runOn g = (.error x, g) := by
      unfold Graph.resolveCoded Action.runOn
      simp only [h.image_left, hr]
    have hright : (Graph.resolveCoded kind value).runOn e = (.error x, e) := by
      unfold Graph.resolveCoded Action.runOn
      simp only [h.image_right, hr]
    exact .of_error hleft hright (Keeps.refl g) h trivial
  | ok r =>
    obtain ⟨hkeeps, hmade⟩ := h.materialise r.toList
    refine .of_ok (v := r) ?_ ?_ hkeeps hmade fun s hs => ?_
    · unfold Graph.resolveCoded Action.runOn
      simp only [h.image_left, hr]
    · unfold Graph.resolveCoded Action.runOn
      simp only [h.image_right, hr]
    · have hs := Option.mem_toList.mpr hs
      exact h.isAlive_materialise (MetadataImage.names_of_resolveCoded hr hs).offers hs

theorem livingReference {a : Attribute k (Option AnyRef)}
    {r : Ref k}
    (hread : (twins image).Matches (a.read r) g e (fun v g' => ∀ s ∈ v.toList, g'.IsKnown s)
      fun _ => True) :
    (twins image).Matches (Report.livingReference a r) g e (fun a g' => a.IsLiving g')
      fun _ => True := by
  refine hread.bind fun v g₁ e₁ _ h₁ hv => ?_
  exact (h₁.filterLiving fun s hs => hv s (Option.mem_toList.mpr hs)).map
    fun _ _ _ hv => Answer.isLiving_ofRef? hv

/-- **What is computed** for an entity of twins. -/
theorem computed (h : Twins image g e) {r : AnyRef} (hr : g.isAlive r) :
    ∀ c ∈ Report.computed r, (twins image).Matches c.2 g e (fun a g' => a.IsLiving g')
      fun _ => True := by
  obtain ⟨k, id⟩ := r
  cases k with
  | typeDef =>
    simp only [Report.computed, List.forall_mem_cons]
    refine ⟨?_, ?_, ?_, ?_, ?_, nofun⟩
    · exact (h.fullName hr).map fun _ _ _ _ => nofun
    · exact (mirrors_typeOwnership.owner h hr).map fun _ _ _ hv => Report.isLiving_ofRef? hv
    · exact (h.enclosingType hr).map fun _ _ _ hv => Report.isLiving_ofRef? hv
    · exact (h.nestedTypes hr).map fun _ _ _ _ => nofun
    · exact livingReference ((h.read .baseType hr fun _ _ => trivial).weaken fun _ _ _ hv => hv.1)
  | typeRef =>
    simp only [Report.computed, List.forall_mem_cons]
    refine ⟨?_, ?_, nofun⟩
    · exact (h.referenceFullName hr).map fun _ _ _ _ => nofun
    · exact livingReference
        ((h.read .resolutionScope hr fun _ _ => trivial).weaken fun _ _ _ hv => hv.1)
  | field =>
    simp only [Report.computed, List.forall_mem_cons]
    exact ⟨(mirrors_fieldOwnership.owner h hr).map fun _ _ _ hv => Report.isLiving_ofRef? hv, nofun⟩
  | methodDef =>
    simp only [Report.computed, List.forall_mem_cons]
    exact ⟨(mirrors_methodOwnership.owner h hr).map fun _ _ _ hv => Report.isLiving_ofRef? hv, nofun⟩
  | nestedClass =>
    simp only [Report.computed, List.forall_mem_cons]
    refine ⟨?_, ?_, nofun⟩
    · exact (mirrors_recordOwnership.owner h hr).map fun _ _ _ hv => Report.isLiving_ofRef? hv
    · exact (h.readNested hr).map fun _ _ _ hv => Report.isLiving_ofRef? hv
  | assemblyRef =>
    simp only [Report.computed, List.forall_mem_cons]
    exact ⟨(h.displayName hr).map fun _ _ _ _ => nofun, nofun⟩
  | module | moduleRef => exact nofun

/-- **A report on an entity** of twins. -/
theorem reportEntity (h : Twins image g e) {r : AnyRef} (hr : g.isAlive r) :
    (twins image).Agrees (Report.entity r) g e fun a g' => a.IsLiving g' := by
  unfold Report.entity
  have hparts : ∀ c ∈ (Report.computed r).filter (fun c => Report.shown.contains c.1)
      ++ Report.lists r, ∀ g₁ e₁, g.Keeps g₁ → Twins image g₁ e₁ →
      (twins image).Matches c.2 g₁ e₁ (fun _ _ => True) fun _ => True := by
    intro c hc g₁ e₁ hk₁ h₁
    have hr₁ := hk₁.alive r hr
    rcases List.mem_append.mp hc with hc | hc
    · exact (h₁.computed hr₁ c (List.mem_of_mem_filter hc)).weaken fun _ _ _ _ => trivial
    · obtain ⟨list, hlist, rfl⟩ := List.mem_map.mp hc
      have hread := (mirrorsList_table list hlist).read (r := r.typed) h₁ hr₁
      exact hread.map fun _ _ _ _ => trivial
  refine Pairing.Agrees.bind (Pairing.Agrees.mapM (R := fun _ _ => True) h
    (fun _ _ _ _ _ => trivial) fun c hc g₁ e₁ hk₁ h₁ => ?_) fun answers g₁ e₁ hk₁ h₁ _ => ?_
  · exact Pairing.Agrees.bind (hparts c hc g₁ e₁ hk₁ h₁) fun _ g₂ e₂ _ h₂ _ => .pure h₂ trivial
  · cases hmodule : r.as? .module with
    | none => exact .pure h₁ nofun
    | some M =>
      obtain rfl := AnyRef.as?_eq_some_iff.mp hmodule
      have hwalk := h₁.allTypes Report.walkLimit (hk₁.alive _ hr)
      exact Pairing.Agrees.bind hwalk fun a g₂ e₂ _ h₂ _ => .pure h₂ nofun

/-- The authored entities that exist are the same. -/
theorem authored_eq (h : Twins image g e) : Report.authored e = Report.authored g := by
  unfold Report.authored
  rw [h.number]
  refine List.flatMap_congr fun n hn => List.filter_congr fun r hr => ?_
  obtain ⟨k, -, rfl⟩ := List.mem_map.mp hr
  exact h.isAlive_authored rfl

/-- **A report on everything** in twins. -/
theorem report (h : Twins image g e) :
    (twins image).Agrees (Report.graph image) g e fun a g' => a.IsLiving g' := by
  unfold Report.graph
  refine Pairing.Agrees.bind (Pairing.Agrees.mapM (R := fun r g' => ∀ s ∈ r, g'.isAlive s) h
    (fun r g₁ g₂ hk hr s hs => hk.alive s (hr s hs)) fun t _ g₁ e₁ _ h₁ => h₁.resolve t)
    fun rows g₁ e₁ _ h₁ hrows => ?_
  refine .get_bind (by rw [h₁.authored_eq]) ?_
  have hentities : ∀ r ∈ rows.filterMap id ++ Report.authored g₁, g₁.isAlive r := by
    intro r hr
    rcases List.mem_append.mp hr with hr | hr
    · obtain ⟨r', hr', hid⟩ := List.mem_filterMap.mp hr
      exact hrows r' hr' r hid
    · obtain ⟨n, -, hr⟩ := List.mem_flatMap.mp hr
      exact (List.mem_filter.mp hr).2
  refine Pairing.Agrees.bind (Pairing.Agrees.mapM (R := fun _ _ => True) h₁
    (fun _ _ _ _ _ => trivial) fun r hr g₂ e₂ hk₂ h₂ => ?_) fun _ g₂ e₂ _ h₂ _ => .pure h₂ nofun
  exact (h₂.reportEntity (hk₂.alive r (hentities r hr))).mono fun _ _ _ _ => trivial

end Twins

end Graph

end ManagedImage
