import ManagedImage.Proofs.Ownership.Loading

/-!
# Attaching moves a member or changes nothing

All that attaching needs is loaded before the first change: the list of the owner, the back-pointer
of the member, and the list of the owner that the member has.  After that only hooks can fail, the
one before the change, which leaves everything as it was, and the one after it, which comes too late
to undo anything.

## Main definitions

* `Ownership.survey`, `Ownership.relocate` — the two halves of attaching, around the first hook.
* `Scenario.obstacle?` — what cannot be loaded.
* `Scenario.Moved` — one member has moved to the end of a list, and nothing else has changed.

## Main results

* `Ownership.attach_eq` — attaching, in its two halves.
* `Scenario.attach_exact` — what attaching gives and leaves, with and without an obstacle.
-/

namespace ManagedImage

namespace Ownership

variable {σ ε O M : Type} [DecidableEq O] [DecidableEq M]

/-- Loads what attaching needs, and gives the owner of the member. -/
def survey (own : Ownership σ ε O M) (o : O) (m : M) : Action σ ε (Option O) := do
  unless own.isAlive o (← get) do
    throw own.ownerGone
  let _ ← own.items o
  match ← own.owner m with
  | some current =>
    if current ≠ o then
      let _ ← own.items current
    return some current
  | none => return none

/-- Moves the member from its owner, if it has one, to `o`. -/
def relocate (own : Ownership σ ε O M) (o : O) (m : M) (current : Option O) : Action σ ε Unit := do
  match current with
  | some current => let _ ← own.take current m
  | none => pure ()
  Action.change (own.putOwner m (some o))
  own.insert o m

theorem attach_eq (own : Ownership σ ε O M) (before : M → O → Action σ ε Unit) (o : O) (m : M) :
    own.attach before o m = (do
      let current ← own.survey o m
      if current = some o then
        own.insert o m
      else
        before m o
        own.relocate o m current
        own.ownerChanged m (some o)) := by
  unfold attach survey
  rw [bind_assoc]
  refine bind_congr fun s => ?_
  by_cases ho : own.isAlive o s = true
  · rw [if_pos ho, if_pos ho, bind_assoc]
    refine bind_congr fun _ => ?_
    rw [bind_assoc]
    refine bind_congr fun current => ?_
    cases current with
    | none => rfl
    | some current =>
      by_cases hc : current = o
      · simp [hc]
      · simp [hc, relocate]
  · rw [if_neg ho, if_neg ho]
    rfl

namespace Lawful

variable {own : Ownership σ ε O M} {v : View σ O M} {o : O} {m : M} {s : σ}

/-- Moving a member cannot fail once the lists of both owners have been loaded. -/
theorem relocate (h : own.Lawful v) (ho : v.alive o s) (hm : v.there m s) (hloaded : v.loaded o s)
    (hother : (v.edges s).owner m ≠ some o)
    (hold : ∀ c ∈ (v.edges s).owner m, v.alive c s ∧ v.loaded c s) :
    (own.relocate o m ((v.edges s).owner m)).Ends s
      (fun _ => v.Becomes s ((Edges.side O M).attach (v.edges s) (v.edges s) o m))
      fun _ _ => False := by
  have howner : (Edges.side O M).owner (v.edges s) m = (v.edges s).owner m := rfl
  unfold Ownership.relocate
  rw [Side.attach, howner]
  cases hcurrent : (v.edges s).owner m with
  | none => exact h.place ho hm hloaded
  | some c =>
    obtain ⟨hc, hc'⟩ := hold c hcurrent
    have hne : c ≠ o := fun hc => hother (hcurrent.trans (congrArg some hc))
    dsimp only
    rw [if_neg hne]
    refine ((h.take (m := m) hc).mono (fun _ _ hQ => hQ) fun _ _ hE => hE.2 hc').bind ?_
    rintro _ s₁ ⟨-, h₁⟩
    have hplace := h.place (m := m) ((h₁.alive o).trans ho) (h₁.there m hm) (h₁.loaded o hloaded)
    rw [h₁.edges] at hplace
    exact hplace.mono (fun _ _ hQ => h₁.trans hQ) fun _ _ hE => hE

end Lawful

end Ownership

namespace Scenario

variable {s s' : Scenario} {o m : Nat} {before : Nat → Nat → Action Scenario Error Unit}
  {changed : Nat → Option Nat → Action Scenario Error Unit}

/-! ### What may be in the way -/

/-- Why the member cannot be attached, before any hook is asked: the owner is gone, its list cannot
be loaded, the back-pointer of the member cannot, or the list of another owner that the member has
cannot. -/
def obstacle? (s : Scenario) (o m : Nat) : Option Error :=
  if s.isAlive o then
    match s.readItems o, s.readOwner m with
    | .error e, _ => some e
    | .ok _, .error e => some e
    | .ok _, .ok none => none
    | .ok _, .ok (some current) =>
      if current = o then none
      else
        match s.readItems current with
        | .error e => some e
        | .ok _ => none
  else
    some (.violation .ownerGone)

/-- What loading all that attaching needs gives, and what it leaves. -/
theorem ends_survey (hm : m < s.members.size) :
    (ownership.survey o m).Ends s
      (fun c s' => s.obstacle? o m = none ∧ c = s.ownerOf m ∧ s.LoadsTo s' ∧ s.isAlive o ∧
        view.loaded o s' ∧ ∀ d ∈ c, s.isAlive d ∧ view.loaded d s')
      fun e s' => s.obstacle? o m = some e ∧ s.LoadsTo s' := by
  unfold Ownership.survey
  refine .get_bind ?_
  change (if s.isAlive o = true then _ else _ : Action Scenario Error (Option Nat)).Ends s _ _
  by_cases ho : s.isAlive o
  · rw [if_pos ho]
    -- first the list of the owner
    have hitems := (ends_readItems ho).mono (fun _ _ hQ => hQ) fun e s' ⟨hread, h₁⟩ =>
      (⟨by simp only [obstacle?, ho, hread, if_true], h₁⟩ : s.obstacle? o m = some e ∧ s.LoadsTo s')
    refine hitems.bind fun l s₁ ⟨hread, h₁, hloaded, hmembers, hothers⟩ => ?_
    -- then the back-pointer, which has not been touched
    have halive : s₁.isAlive = s.isAlive := funext h₁.same.alive
    have hm₁ : m < s₁.members.size := Nat.lt_of_lt_of_eq hm h₁.size.symm
    have hread₁ : s₁.readOwner m = s.readOwner m := readOwner_congr hm hmembers halive
    have howner := (ends_readOwner hm₁).mono (fun _ _ hQ => hQ) fun e s' ⟨hread', h₂⟩ =>
      (⟨by simp only [obstacle?, ho, hread, ← hread₁, hread', if_true], h₁.trans h₂⟩ :
        s.obstacle? o m = some e ∧ s.LoadsTo s')
    refine howner.bind fun c s₂ ⟨hread', hc, h₂, howners⟩ => ?_
    rw [hread₁] at hread'
    have hc : c = s.ownerOf m := hc.trans (ownerOf_eq_of_same h₁.same m)
    have hloaded₂ := h₂.loaded o hloaded
    have h₂' := h₁.trans h₂
    cases c with
    | none =>
      refine .pure ⟨by simp only [obstacle?, ho, hread, hread', if_true], hc, h₂', ho, hloaded₂, ?_⟩
      simp
    | some current =>
      have hcurrent : s.isAlive current := isAlive_of_ownerOf hc.symm
      dsimp only
      by_cases hne : current = o
      · rw [if_neg (not_not_intro hne)]
        refine .pure ⟨by simp only [obstacle?, ho, hread, hread', hne, if_true], hc, h₂', ho,
          hloaded₂, fun d hd => ?_⟩
        obtain rfl := Option.mem_some.mp hd
        exact ⟨hcurrent, hne ▸ hloaded₂⟩
      · -- and last the list of the owner that the member has
        have hcurrent₂ : s₂.isAlive current := (h₂'.same.alive current).trans hcurrent
        have hread₂ : s₂.readItems current = s.readItems current := by
          refine readItems_congr hcurrent ?_ h₂'.size
          rw [← hothers current hne, owner?, howners, owner?]
        have hlist := (ends_readItems hcurrent₂).mono (fun _ _ hQ => hQ) fun e s' ⟨hlist, h₃⟩ =>
          (⟨by simp only [obstacle?, ho, hread, hread', hne, ← hread₂, hlist, if_true, if_false],
            h₂'.trans h₃⟩ : s.obstacle? o m = some e ∧ s.LoadsTo s')
        rw [if_pos hne]
        refine hlist.bind fun l' s₃ ⟨hlist, h₃, hloaded₃, _, _⟩ => ?_
        rw [hread₂] at hlist
        refine .pure ⟨by simp only [obstacle?, ho, hread, hread', hne, hlist, if_true, if_false],
          hc, h₂'.trans h₃, ho, h₃.loaded o hloaded₂, fun d hd => ?_⟩
        obtain rfl := Option.mem_some.mp hd
        exact ⟨hcurrent, hloaded₃⟩
  · rw [if_neg ho]
    exact .throw ⟨by simp only [obstacle?, ho]; rfl, .refl s⟩

/-! ### What a move comes to -/

/-- The member `m` has moved to the end of the list of `o`, and no other member has moved. -/
structure Moved (s : Scenario) (o m : Nat) (s' : Scenario) : Prop where
  /-- The same owners exist. -/
  alive : ∀ d, s'.isAlive d = s.isAlive d
  /-- The new owner has the member after those that it had. -/
  joined : s'.itemsOf o = s.itemsOf o ++ [m]
  /-- The owner that the member had has all others, in the order in which it had them. -/
  left : ∀ d, s.ownerOf m = some d → s'.itemsOf d = (s.itemsOf d).erase m
  /-- The lists of all other owners stay. -/
  others : ∀ d, s.isAlive d → d ≠ o → s.ownerOf m ≠ some d → s'.itemsOf d = s.itemsOf d
  /-- The member points at its new owner. -/
  pointed : s'.ownerOf m = some o
  /-- All other back-pointers stay. -/
  pointers : ∀ q, q ≠ m → s'.ownerOf q = s.ownerOf q

/-- Attaching a member to another owner moves it, as far as edges are seen. -/
theorem Agree.moved (hagree : s.Agree) (ho : s.isAlive o) (hother : s.ownerOf m ≠ some o)
    (h : view.Becomes s ((Edges.side Nat Nat).attach (view.edges s) (view.edges s) o m) s') :
    s.Moved o m s' := by
  have hagrees := (agree_edges_iff.mpr hagree).agrees
  have hedges := h.edges
  have howner : (Edges.side Nat Nat).owner (view.edges s) m = s.ownerOf m := rfl
  rw [Side.attach_eq hagrees hagrees rfl, howner, if_neg hother] at hedges
  have halive : s'.isAlive = s.isAlive := funext h.alive
  -- the list of an owner that exists, before and after
  have hlist (d) (hd : s.isAlive d) :
      s'.itemsOf d = (s.itemsOf d).filter (· ≠ m) ++ if d = o then [m] else [] := by
    have hlist := congrFun (congrArg Edges.list hedges) d
    change (if s'.isAlive d then s'.itemsOf d else []) =
      (if s.isAlive d then s.itemsOf d else []).filter (· ≠ m) ++
        (if d = o then [m] else []) at hlist
    rwa [halive, if_pos hd, if_pos hd] at hlist
  have howners (q) : s'.ownerOf q = if q = m then some o else s.ownerOf q :=
    congrFun (congrArg Edges.owner hedges) q
  have hstays (d) (hd : s.isAlive d) (hne : s.ownerOf m ≠ some d) :
      (s.itemsOf d).filter (· ≠ m) = s.itemsOf d := by
    rw [List.filter_eq_self]
    rintro q hq
    rw [decide_eq_true_iff]
    rintro rfl
    exact hne ((hagree.mem_iff hd q).mp hq)
  refine ⟨fun d => congrFun halive d, ?_, fun d hd => ?_, fun d hd hdo hne => ?_, ?_,
    fun q hq => ?_⟩
  · rw [hlist o ho, hstays o ho hother, if_pos rfl]
  · have hd' := isAlive_of_ownerOf hd
    have hdo : d ≠ o := fun hdo => hother (hd.trans (congrArg some hdo))
    rw [hlist d hd', if_neg hdo, List.append_nil, (hagree.nodup hd').erase_eq_filter]
    refine List.filter_congr fun q _ => ?_
    by_cases hq : q = m <;> simp [hq]
  · rw [hlist d hd, hstays d hd hne, if_neg hdo, List.append_nil]
  · rw [howners, if_pos rfl]
  · rw [howners, if_neg hq]

/-! ### What attaching does -/

theorem runOn_attach (before : Nat → Nat → Action Scenario Error Unit)
    (changed : Nat → Option Nat → Action Scenario Error Unit) (s : Scenario) (o m : Nat) :
    ((ownershipWith changed).attach before o m).runOn s = (do
      let current ← ownership.survey o m
      if current = some o then
        ownership.insert o m
      else
        before m o
        (ownershipWith changed).relocate o m current
        changed m (some o)).runOn s :=
  congrArg (·.runOn s) ((ownershipWith changed).attach_eq before o m)

/-- What is in the way is found before any hook is asked. -/
theorem attach_of_obstacle {e : Error} (hm : m < s.members.size) (h : s.obstacle? o m = some e) :
    ∃ s', s.LoadsTo s' ∧ ∀ before changed,
      ((ownershipWith changed).attach before o m).runOn s = (.error e, s') := by
  rcases hrun : (ownership.survey o m).runOn s with ⟨e' | c, s₁⟩
  · obtain ⟨hobstacle, hloads⟩ := (ends_survey hm).error hrun
    obtain rfl := Option.some.inj (hobstacle.symm.trans h)
    refine ⟨s₁, hloads, fun before changed => ?_⟩
    rw [runOn_attach, Action.runOn_bind_error hrun]
  · exact absurd (((ends_survey hm).ok hrun).1.symm.trans h) (by simp)

/-- With nothing in the way, the owner that the member has is found. -/
theorem survey_of_no_obstacle (hm : m < s.members.size) (h : s.obstacle? o m = none) :
    ∃ s', (ownership.survey o m).runOn s = (.ok (s.ownerOf m), s') ∧ s.LoadsTo s' ∧ s.isAlive o ∧
      view.loaded o s' ∧ ∀ d ∈ s.ownerOf m, s.isAlive d ∧ view.loaded d s' := by
  rcases hrun : (ownership.survey o m).runOn s with ⟨e | c, s₁⟩
  · exact absurd (((ends_survey hm).error hrun).1.symm.trans h) (by simp)
  · obtain ⟨_, rfl, hrest⟩ := (ends_survey hm).ok hrun
    exact ⟨s₁, rfl, hrest⟩

/-- A member that has the owner already stays, and no hook is asked. -/
theorem attach_of_ownerOf (hagree : s.Agree) (hm : m < s.members.size)
    (h : s.obstacle? o m = none) (howner : s.ownerOf m = some o) :
    ∃ s', s.LoadsTo s' ∧ ∀ before changed,
      ((ownershipWith changed).attach before o m).runOn s = (.ok (), s') := by
  obtain ⟨s₁, hrun, hloads, ho, hloaded, _⟩ := survey_of_no_obstacle hm h
  refine ⟨s₁, hloads, fun before changed => ?_⟩
  have hmem : m ∈ s₁.itemsOf o := by
    rw [itemsOf_eq_of_same hloads.same ho]
    exact (hagree.mem_iff ho m).mpr howner
  rw [runOn_attach, Action.runOn_bind_ok hrun, if_pos howner, Ownership.insert,
    Action.runOn_bind_ok (runOn_items_of_loaded hloaded), if_neg (not_not_intro hmem)]
  rfl

/-- Any other member moves, unless the hook before the change refuses. -/
theorem attach_of_ne (hagree : s.Agree) (hm : m < s.members.size) (h : s.obstacle? o m = none)
    (hother : s.ownerOf m ≠ some o) :
    ∃ s₁, s.LoadsTo s₁ ∧ ∀ before changed,
      (∀ s, view.Keeps (before m o) s) → (∀ m x s, view.Keeps (changed m x) s) →
      (∀ e s₂, (before m o).runOn s₁ = (.error e, s₂) → view.Same s s₂ ∧
        ((ownershipWith changed).attach before o m).runOn s = (.error e, s₂)) ∧
      ∀ s₂, (before m o).runOn s₁ = (.ok (), s₂) → ∃ s₃, s.Moved o m s₃ ∧
        ((ownershipWith changed).attach before o m).runOn s = (changed m (some o)).runOn s₃ ∧
        s.Moved o m ((changed m (some o)).runOn s₃).2 := by
  obtain ⟨s₁, hrun, hloads, ho, hloaded, hold⟩ := survey_of_no_obstacle hm h
  have h₁ := hloads.same
  refine ⟨s₁, hloads, fun before changed hbefore hchanged =>
    ⟨fun e s₂ hrun₂ => ⟨h₁.same ((hbefore s₁).error hrun₂), ?_⟩, fun s₂ hrun₂ => ?_⟩⟩
  · rw [runOn_attach, Action.runOn_bind_ok hrun, if_neg hother, Action.runOn_bind_error hrun₂]
  · -- what has been loaded is still loaded after the hook, so the move cannot fail
    have hkept := (hbefore s₁).ok hrun₂
    have h₂ := h₁.same hkept
    have howner : (view.edges s₂).owner m = s.ownerOf m := ownerOf_eq_of_same h₂ m
    have hmove := (lawful_ownershipWith hchanged).relocate ((h₂.alive o).trans ho) (h₂.there m hm)
      (hkept.loaded o hloaded) (howner ▸ hother) fun d hd =>
        have hd := hold d (howner ▸ hd)
        ⟨(h₂.alive d).trans hd.1, hkept.loaded d hd.2⟩
    rw [howner, h₂.edges] at hmove
    obtain ⟨_, s₃, hrun₃, h₃⟩ := hmove.exists_ok
    have hmoved := h₂.trans h₃
    refine ⟨s₃, hagree.moved ho hother hmoved, ?_, hagree.moved ho hother (hmoved.same ?_)⟩
    · rw [runOn_attach, Action.runOn_bind_ok hrun, if_neg hother, Action.runOn_bind_ok hrun₂,
        Action.runOn_bind_ok hrun₃]
    · exact (hchanged m (some o) s₃).snd

/-- **Attaching a member moves it or changes nothing.**  With an obstacle, attaching fails with it,
and only loads.  Without one, a member that has the owner already stays, and no hook is asked.  For
any other member the hook before the change is asked, where nothing has been done yet but loading;
if it fails, attaching fails with its error and has changed no edge.  Otherwise the member moves, and
nothing else does, and the hook after the change says how attaching ends. -/
theorem attach_exact (hagree : s.Agree) (hm : m < s.members.size) :
    (∀ e, s.obstacle? o m = some e → ∃ s', s.LoadsTo s' ∧ ∀ before changed,
      ((ownershipWith changed).attach before o m).runOn s = (.error e, s')) ∧
    (s.obstacle? o m = none → s.ownerOf m = some o → ∃ s', s.LoadsTo s' ∧ ∀ before changed,
      ((ownershipWith changed).attach before o m).runOn s = (.ok (), s')) ∧
    (s.obstacle? o m = none → s.ownerOf m ≠ some o → ∃ s₁, s.LoadsTo s₁ ∧ ∀ before changed,
      (∀ s, view.Keeps (before m o) s) → (∀ m x s, view.Keeps (changed m x) s) →
      (∀ e s₂, (before m o).runOn s₁ = (.error e, s₂) → view.Same s s₂ ∧
        ((ownershipWith changed).attach before o m).runOn s = (.error e, s₂)) ∧
      ∀ s₂, (before m o).runOn s₁ = (.ok (), s₂) → ∃ s₃, s.Moved o m s₃ ∧
        ((ownershipWith changed).attach before o m).runOn s = (changed m (some o)).runOn s₃ ∧
        s.Moved o m ((changed m (some o)).runOn s₃).2) :=
  ⟨fun _ => attach_of_obstacle hm, attach_of_ownerOf hagree hm, attach_of_ne hagree hm⟩

/-- The scenario without the failures that are still to come. -/
def willing (s : Scenario) : Scenario :=
  { s with
    owners := (s.owners.toList.map Owner.seen).toArray
    members := (s.members.toList.map Member.seen).toArray }

theorem Agree.willing (h : s.Agree) : s.willing.Agree := by
  have hsame : view.Same s s.willing := by
    refine same_of_seen (by simp [Scenario.willing]) (fun o => ?_) fun m => ?_
    · rw [owner?, Scenario.willing, List.getElem?_toArray, List.getElem?_map, Option.map_map,
        Array.getElem?_toList]
      rfl
    · rw [member?, Scenario.willing, List.getElem?_toArray, List.getElem?_map, Option.map_map,
        Array.getElem?_toList]
      rfl
  rw [← agree_edges_iff, hsame.edges, agree_edges_iff]
  exact h

/-- A member moves though the hook after the change fails. -/
theorem attach_exact_willing :
    ∃ s', ((ownershipWith fun _ _ => throw .outOfBounds).attach (fun _ _ => pure ()) 1 0).runOn
        reluctant.willing = (.error .outOfBounds, s') ∧
      s'.itemsOf 0 = [1] ∧ s'.itemsOf 1 = [0] ∧ s'.ownerOf 0 = some 1 := by
  obtain ⟨s₁, _, hmove⟩ := (attach_exact (o := 1) (m := 0) agree_reluctant.willing (by decide)).2.2
    (by decide) (by decide)
  obtain ⟨s₃, hmoved, hrun, _⟩ := (hmove (fun _ _ => pure ()) (fun _ _ => throw .outOfBounds)
    (fun s => .pure (view.same_refl s)) fun _ _ s => .throw (view.same_refl s)).2 s₁ rfl
  have hleft := hmoved.left 0 (by decide)
  exact ⟨s₃, hrun, hleft, hmoved.joined, hmoved.pointed⟩

end Scenario

end ManagedImage
