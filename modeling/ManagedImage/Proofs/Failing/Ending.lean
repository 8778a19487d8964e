import ManagedImage.Proofs.Failing.Glancing
import ManagedImage.Proofs.Ownership.Ends

/-!
# How operations end

An operation that looks first and then writes fails without a trace, or it succeeds: once it has
changed something it only reads what it could read before.  Where an operation does not keep to this,
it slips, and its failing leaves a trace.

## Main definitions

* `Graph.Grows` — what could be read can still be read.
* `Graph.Succeeds` — an action succeeds.
* `Graph.LosesMember` — some list has lost a member.
* `Graph.EndsUnless` — an action succeeds, or it fails without a trace, unless it slips.
* `Graph.Edits` — lists and owners can be read and replaced one by one.

## Main results

* `Graph.EndsUnless.after_glance`, `Graph.EndsUnless.bind_succeeds` — looking first, and succeeding
  afterwards.
* `Graph.Edits.ends_take` — taking a member out of a list has no trace where it fails.
* `Graph.Edits.ends_attach` — attaching a member slips only where what comes before does.
-/

namespace ManagedImage

namespace Graph

variable {k o m : EntityKind} {g g' g'' : Graph} {α β : Type}

/-! ### Succeeding -/

/-- What could be read can still be read, and what existed exists. -/
structure Grows (g g' : Graph) : Prop where
  /-- What existed exists. -/
  alive : ∀ r, g.isAlive r → g'.isAlive r
  /-- What could be read can be read. -/
  readable : ∀ {k : EntityKind} (p : Part k) (r : Ref k), (∃ v, p.attr.value r g = .ok v) →
    ∃ v, p.attr.value r g' = .ok v

namespace Grows

theorem refl (g : Graph) : g.Grows g := ⟨fun _ h => h, fun _ _ h => h⟩

theorem trans (h : g.Grows g') (h' : g'.Grows g'') : g.Grows g'' :=
  ⟨fun r hr => h'.alive r (h.alive r hr), fun p r hr => h'.readable p r (h.readable p r hr)⟩

end Grows

theorem LoadsTo.grows (h : g.LoadsTo g') : g.Grows g' :=
  ⟨h.alive, fun p r ⟨v, hv⟩ => ⟨v, (h.value p r).trans hv⟩⟩

/-- What is written can be read. -/
theorem grows_put (p : Part k) (r : Ref k) (v : p.Value) : g.Grows (g.put p r v) where
  alive s hs := (isAlive_put s).trans hs
  readable q s := by
    refine put_cases g p r v (C := fun q s => (∃ w, q.attr.value s g = .ok w) →
      ∃ w, q.attr.value s (g.put p r v) = .ok w) ?_ ?_ q s
    · rintro ⟨w, hw⟩
      by_cases hr : g.isAlive r.any
      · exact ⟨v, value_put_self hr⟩
      -- nothing is written into what does not exist
      · rw [Bool.not_eq_true] at hr
        have hstored : p.attr.stored r (g.put p r v) = p.attr.stored r g := by
          rw [stored_of_not_isAlive p hr, stored_of_not_isAlive p ((isAlive_put _).trans hr)]
        exact ⟨w, (value_of_stored hstored).trans hw⟩
    · intro _ q s heq hw
      rwa [value_of_stored heq]

/-- Run in `g`, the action succeeds, and what could be read can still be read. -/
def Succeeds (g : Graph) (a : GraphAction α) (Q : α → Graph → Prop) : Prop :=
  ∃ v g', a.runOn g = (.ok v, g') ∧ g.Grows g' ∧ Q v g'

namespace Succeeds

variable {a : GraphAction α} {f : α → GraphAction β} {Q : α → Graph → Prop}
  {Q' : β → Graph → Prop}

theorem pure {v : α} (hQ : Q v g) : g.Succeeds (Pure.pure v) Q := ⟨v, g, rfl, .refl g, hQ⟩

theorem change {f : Graph → Graph} (h : g.Grows (f g)) :
    g.Succeeds (Action.change f) fun _ _ => True := ⟨(), f g, rfl, h, trivial⟩

/-- One action after the other. -/
theorem bind (h : g.Succeeds a Q) (hf : ∀ v g', g.Grows g' → Q v g' → g'.Succeeds (f v) Q') :
    g.Succeeds (a >>= f) Q' := by
  obtain ⟨v, g₁, hrun, hgrows, hQ⟩ := h
  obtain ⟨w, g₂, hrun', hgrows', hQ'⟩ := hf v g₁ hgrows hQ
  exact ⟨w, g₂, (Action.runOn_bind_ok hrun).trans hrun', hgrows.trans hgrows', hQ'⟩

/-- Reading what can be read. -/
theorem read (p : Part k) {r : Ref k} (hr : g.isAlive r.any)
    (hv : ∃ v, p.attr.value r g = .ok v) : g.Succeeds (p.attr.read r) fun _ _ => True := by
  obtain ⟨v, hv⟩ := hv
  obtain ⟨g', hrun, hload⟩ := exists_runOn_read p hr
  exact ⟨v, g', hrun.trans (by rw [hv]), hload.grows, trivial⟩

end Succeeds

/-! ### Ending -/

/-- Some list that could be read has lost a member. -/
def LosesMember (g g' : Graph) : Prop :=
  (∃ M T l l', g.readout.types M = .ok l ∧ T ∈ l ∧ g'.readout.types M = .ok l' ∧ T ∉ l') ∨
    ∃ E R l l', g.readout.records E = .ok l ∧ R ∈ l ∧ g'.readout.records E = .ok l' ∧ R ∉ l'

theorem LosesMember.of_loadsTo (h : g'.LosesMember g'') (hload : g.LoadsTo g') :
    g.LosesMember g'' := by
  unfold LosesMember at h ⊢
  rwa [hload.readout_eq] at h

theorem LosesMember.trans_loadsTo (h : g.LosesMember g') (hload : g'.LoadsTo g'') :
    g.LosesMember g'' := by
  unfold LosesMember at h ⊢
  rwa [hload.readout_eq]

/-- Loading does not lose members. -/
theorem LosesMember.not_loadsTo (h : g.LosesMember g') : ¬g.LoadsTo g' := by
  intro hload
  unfold LosesMember at h
  rw [hload.readout_eq] at h
  rcases h with ⟨M, T, l, l', hl, hT, hl', hT'⟩ | ⟨E, R, l, l', hl, hR, hl', hR'⟩
  · exact hT' (Except.ok.inj (hl.symm.trans hl') ▸ hT)
  · exact hR' (Except.ok.inj (hl.symm.trans hl') ▸ hR)

/-- Run in `g`, the action succeeds with `Q`, or it fails and has done nothing but load.  But if
`slip` holds, it fails after a list has lost a member. -/
def EndsUnless (g : Graph) (slip : Prop) (a : GraphAction α) (Q : α → Graph → Prop) : Prop :=
  a.Ends g (fun v g' => ¬slip ∧ g.Grows g' ∧ Q v g')
    fun _ g' => slip ∧ g.LosesMember g' ∨ ¬slip ∧ g.LoadsTo g' ∧ g'.Sound

namespace EndsUnless

variable {a : GraphAction α} {f : α → GraphAction β} {r : Except Error α} {slip slip' : Prop}
  {Q P : α → Graph → Prop} {Q' : β → Graph → Prop}

theorem of_succeeds (h : g.Succeeds a Q) (hslip : ¬slip) : g.EndsUnless slip a Q := by
  obtain ⟨v, g', hrun, hgrows, hQ⟩ := h
  exact Action.Ends.of_ok hrun ⟨hslip, hgrows, hQ⟩

theorem pure {v : α} (hslip : ¬slip) (hQ : Q v g) : g.EndsUnless slip (Pure.pure v) Q :=
  of_succeeds (.pure hQ) hslip

theorem of_iff (h : g.EndsUnless slip a Q) (hiff : slip ↔ slip') : g.EndsUnless slip' a Q := by
  rwa [← propext hiff]

theorem mono (h : g.EndsUnless slip a Q) (hQ : ∀ v g', g.Grows g' → Q v g' → P v g') :
    g.EndsUnless slip a P :=
  Action.Ends.mono h (fun v g' ⟨hslip, hgrows, h⟩ => ⟨hslip, hgrows, hQ v g' hgrows h⟩)
    fun _ _ h => h

theorem get_bind {f : Graph → GraphAction β} (h : g.EndsUnless slip (f g) Q') :
    g.EndsUnless slip (get >>= f) Q' := h

/-- What comes after some loading. -/
theorem of_loadsTo (h : g'.EndsUnless slip a Q) (hload : g.LoadsTo g') :
    a.Ends g' (fun v g'' => ¬slip ∧ g.Grows g'' ∧ Q v g'')
      fun _ g'' => slip ∧ g.LosesMember g'' ∨ ¬slip ∧ g.LoadsTo g'' ∧ g''.Sound := by
  refine Action.Ends.mono h (fun v g'' ⟨hslip, hgrows, hQ⟩ => ?_) fun e g'' h => ?_
  · exact ⟨hslip, hload.grows.trans hgrows, hQ⟩
  · refine h.imp (fun ⟨hslip, hloses⟩ => ?_) fun ⟨hslip, hload', hsound⟩ => ?_
    · exact ⟨hslip, hloses.of_loadsTo hload⟩
    · exact ⟨hslip, hload.trans hload', hsound⟩

/-- **Looking first.**  What slips later can be looked at. -/
theorem after_glance (h : g.Glances a r P) (hslip : slip → ∃ v, r = .ok v)
    (hf : ∀ v g', r = .ok v → g.LoadsTo g' → g'.Sound → P v g' → g'.EndsUnless slip (f v) Q') :
    g.EndsUnless slip (a >>= f) Q' := by
  obtain ⟨g₁, hrun, hload, hsound, hP⟩ := h
  cases r with
  | error e =>
    have hno : ¬slip := fun h => nomatch (hslip h).choose_spec
    exact Action.Ends.of_error (Action.runOn_bind_error hrun) (Or.inr ⟨hno, hload, hsound⟩)
  | ok v =>
    have hrest := (hf v g₁ rfl hload hsound (hP v rfl)).of_loadsTo hload
    exact Action.Ends.bind_of_ok hrun hrest

/-- **Succeeding afterwards.** -/
theorem bind_succeeds (h : g.EndsUnless slip a Q)
    (hf : ∀ v g', g.Grows g' → Q v g' → g'.Succeeds (f v) Q') :
    g.EndsUnless slip (a >>= f) Q' := by
  refine Action.Ends.bind h fun v g₁ ⟨hslip, hgrows, hQ⟩ => ?_
  obtain ⟨w, g₂, hrun, hgrows', hQ'⟩ := hf v g₁ hgrows hQ
  exact Action.Ends.of_ok hrun ⟨hslip, hgrows.trans hgrows', hQ'⟩

end EndsUnless

/-! ### Owners and members -/

/-- Lists and owners can be read and replaced one by one. -/
structure Edits (own : Ownership Graph Error (Ref o) (Ref m))
    (items : Readout → Ref o → Except Error (List (Ref m)))
    (owner : Readout → Ref m → Except Error (Option (Ref o))) : Prop where
  /-- An owner is there while it exists. -/
  isAlive : ∀ c g, own.isAlive c g = g.isAlive c.any
  /-- Reading a list is looking. -/
  glances_items : ∀ {g : Graph} {c}, g.Sound → g.isAlive c.any →
    g.Glances (own.items c) (items g.readout c) fun l g' => ∀ r ∈ l, g'.isAlive r.any
  /-- Reading an owner is looking. -/
  glances_owner : ∀ {g : Graph} {r}, g.Sound → g.isAlive r.any →
    g.Glances (own.owner r) (owner g.readout r) fun d g' => ∀ c ∈ d, g'.isAlive c.any
  /-- Reading a list that can be read succeeds. -/
  succeeds_items : ∀ {g : Graph} {c}, g.isAlive c.any → (∃ l, items g.readout c = .ok l) →
    g.Succeeds (own.items c) fun _ _ => True
  /-- A list that can be read can be read later. -/
  readable : ∀ {g g' : Graph} {c}, g.Grows g' → (∃ l, items g.readout c = .ok l) →
    ∃ l, items g'.readout c = .ok l
  /-- A list that is replaced can be read. -/
  putItems : ∀ c l (g : Graph), g.Grows (own.putItems c l g)
  /-- An owner that is replaced can be read. -/
  putOwner : ∀ r c (g : Graph), g.Grows (own.putOwner r c g)

/-- What attaching looks at can be read, and the member has another owner or none. -/
def Passes (items : Readout → Ref o → Except Error (List (Ref m)))
    (owner : Readout → Ref m → Except Error (Option (Ref o))) (v : Readout) (c : Ref o)
    (r : Ref m) : Prop :=
  (∃ l, items v c = .ok l) ∧
    ∃ d, owner v r = .ok d ∧ d ≠ some c ∧ ∀ x ∈ d, ∃ l, items v x = .ok l

namespace Edits

variable {own : Ownership Graph Error (Ref o) (Ref m)}
  {items : Readout → Ref o → Except Error (List (Ref m))}
  {owner : Readout → Ref m → Except Error (Option (Ref o))} {c : Ref o} {r : Ref m}

/-- Taking a member out of a list that can be read succeeds. -/
theorem succeeds_take (h : Edits own items owner) (hc : g.isAlive c.any)
    (hl : ∃ l, items g.readout c = .ok l) : g.Succeeds (own.take c r) fun _ _ => True := by
  unfold Ownership.take
  refine (h.succeeds_items hc hl).bind fun l g' _ _ => ?_
  split
  · exact (Succeeds.change (h.putItems c _ g')).bind fun _ _ _ _ => .pure trivial
  · exact .pure trivial

/-- Adding a member to a list that can be read succeeds. -/
theorem succeeds_insert (h : Edits own items owner) (hc : g.isAlive c.any)
    (hl : ∃ l, items g.readout c = .ok l) : g.Succeeds (own.insert c r) fun _ _ => True := by
  unfold Ownership.insert
  refine (h.succeeds_items hc hl).bind fun l g' _ _ => ?_
  split
  · exact .change (h.putItems c _ g')
  · exact .pure trivial

/-- The member joins an owner whose list can be read, if the hook then succeeds. -/
theorem succeeds_join (h : Edits own items owner) (hc : g.isAlive c.any)
    (hl : ∃ l, items g.readout c = .ok l)
    (hchanged : ∀ g', g.Grows g' → g'.Succeeds (own.ownerChanged r (some c)) fun _ _ => True) :
    g.Succeeds (do
      Action.change (own.putOwner r (some c))
      own.insert c r
      own.ownerChanged r (some c)) fun _ _ => True := by
  refine (Succeeds.change (h.putOwner r (some c) g)).bind fun _ g₁ hgrows₁ _ => ?_
  refine (h.succeeds_insert (hgrows₁.alive _ hc) (h.readable hgrows₁ hl)).bind
    fun _ g₂ hgrows₂ _ => ?_
  exact hchanged g₂ (hgrows₁.trans hgrows₂)

/-- The member moves from one owner to another, if both lists can be read and the hook then
succeeds. -/
theorem succeeds_move (h : Edits own items owner) {d : Ref o} (hd : g.isAlive d.any)
    (hdl : ∃ l, items g.readout d = .ok l) (hc : g.isAlive c.any)
    (hl : ∃ l, items g.readout c = .ok l)
    (hchanged : ∀ g', g.Grows g' → g'.Succeeds (own.ownerChanged r (some c)) fun _ _ => True) :
    g.Succeeds (do
      let _ ← own.take d r
      Action.change (own.putOwner r (some c))
      own.insert c r
      own.ownerChanged r (some c)) fun _ _ => True := by
  refine (h.succeeds_take hd hdl).bind fun _ g₁ hgrows₁ _ => ?_
  exact h.succeeds_join (hgrows₁.alive _ hc) (h.readable hgrows₁ hl)
    fun g₂ hgrows₂ => hchanged g₂ (hgrows₁.trans hgrows₂)

/-- **Taking a member out of a list** fails only where the list cannot be read.  Where it succeeds,
either the member was not in the list, or only the list has been replaced. -/
theorem ends_take (h : Edits own items owner) (hg : g.Sound) (hc : g.isAlive c.any) :
    (own.take c r).Ends g
      (fun b g' => ∃ l, items g.readout c = .ok l ∧
        (b = false ∧ r ∉ l ∧ g.LoadsTo g' ∧ g'.Sound ∨
          b = true ∧ r ∈ l ∧ ∃ g₁, g.LoadsTo g₁ ∧ g₁.Sound ∧ (∀ x ∈ l, g₁.isAlive x.any) ∧
            g' = own.putItems c (l.filter (· ≠ r)) g₁))
      fun _ g' => (∀ l, items g.readout c ≠ .ok l) ∧ g.LoadsTo g' ∧ g'.Sound := by
  unfold Ownership.take
  obtain ⟨g₁, hrun, hload, hg₁, halive⟩ := h.glances_items hg hc
  cases hl : items g.readout c with
  | error e =>
    rw [hl] at hrun
    exact Action.Ends.of_error (Action.runOn_bind_error hrun) ⟨nofun, hload, hg₁⟩
  | ok l =>
    rw [hl] at hrun
    have hmembers := halive l hl
    by_cases hr : r ∈ l
    · refine Action.Ends.of_ok ((Action.runOn_bind_ok hrun).trans ?_)
        ⟨l, rfl, Or.inr ⟨rfl, hr, g₁, hload, hg₁, hmembers, rfl⟩⟩
      rw [if_pos hr]
      rfl
    · refine Action.Ends.of_ok ((Action.runOn_bind_ok hrun).trans ?_)
        ⟨l, rfl, Or.inl ⟨rfl, hr, hload, hg₁⟩⟩
      rw [if_neg hr]
      rfl

/-- **Attaching** slips exactly where what comes before the first change does.  Everything else that
it looks at is looked at before. -/
theorem ends_attach (h : Edits own items owner) (hg : g.Sound) (hc : g.isAlive c.any)
    (hr : g.isAlive r.any) {before : Ref m → Ref o → GraphAction Unit} {slip : Prop}
    {Q : Graph → Prop}
    (hbefore : ∀ g', g.LoadsTo g' → g'.Sound → g'.EndsUnless slip (before r c) fun _ => Q)
    (hchanged : ∀ g₁ g₂ : Graph, Q g₁ → g₁.Grows g₂ → g₂.isAlive r.any →
      g₂.Succeeds (own.ownerChanged r (some c)) fun _ _ => True) :
    g.EndsUnless (Passes items owner g.readout c r ∧ slip) (own.attach before c r)
      fun _ _ => True := by
  unfold Ownership.attach
  refine .get_bind ?_
  rw [if_pos ((h.isAlive c g).trans hc)]
  refine .after_glance (h.glances_items hg hc) (fun hs => hs.1.1) fun l g₁ hl hload₁ hg₁ _ => ?_
  have howner := h.glances_owner hg₁ (hload₁.alive _ hr)
  rw [hload₁.readout_eq] at howner
  refine .after_glance howner (fun ⟨⟨_, d, hd, _⟩, _⟩ => ⟨d, hd⟩)
    fun d g₂ hd hload₂ hg₂ hdalive => ?_
  have hload := hload₁.trans hload₂
  have hlist : ∀ {g' : Graph}, g₂.Grows g' → ∃ l, items g'.readout c = .ok l := fun hgrows =>
    h.readable (hload.grows.trans hgrows) ⟨l, hl⟩
  -- once `before` has run, the member can join whatever has happened to it
  have hjoin : ∀ g₃ : Graph, g₂.Grows g₃ → Q g₃ → g₃.isAlive c.any ∧
      (∃ l, items g₃.readout c = .ok l) ∧ ∀ g₄, g₃.Grows g₄ →
        g₄.Succeeds (own.ownerChanged r (some c)) fun _ _ => True := by
    intro g₃ hgrows₃ hQ
    have hgrows := hload.grows.trans hgrows₃
    exact ⟨hgrows.alive _ hc, hlist hgrows₃, fun g₄ hgrows₄ =>
      hchanged g₃ g₄ hQ hgrows₄ ((hgrows.trans hgrows₄).alive _ hr)⟩
  cases d with
  | none =>
    have hpasses : Passes items owner g.readout c r := ⟨⟨l, hl⟩, none, hd, nofun, nofun⟩
    refine ((hbefore g₂ hload hg₂).of_iff (and_iff_right hpasses).symm).bind_succeeds
      fun _ g₃ hgrows₃ hQ => ?_
    obtain ⟨hc', hl', hhook⟩ := hjoin g₃ hgrows₃ hQ
    exact h.succeeds_join hc' hl' hhook
  | some d =>
    dsimp only
    split
    · next hdc =>
      have hno : ¬(Passes items owner g.readout c r ∧ slip) := by
        rintro ⟨⟨_, x, hx, hne, _⟩, _⟩
        exact hne ((Except.ok.inj (hx.symm.trans hd)).trans (congrArg some hdc))
      exact .of_succeeds (h.succeeds_insert (hload.alive _ hc) (hlist (.refl g₂))) hno
    · next hdc =>
      have hdreads := h.glances_items hg₂ (hdalive d rfl)
      rw [hload.readout_eq] at hdreads
      have hread : Passes items owner g.readout c r → ∃ l', items g.readout d = .ok l' := by
        rintro ⟨_, x, hx, _, hall⟩
        exact hall d (Except.ok.inj (hx.symm.trans hd))
      refine .after_glance hdreads (fun hs => hread hs.1) fun l' g₃ hl' hload₃ hg₃ _ => ?_
      have hpasses : Passes items owner g.readout c r :=
        ⟨⟨l, hl⟩, some d, hd, fun heq => hdc (Option.some.inj heq),
          fun x hx => Option.some.inj hx ▸ ⟨l', hl'⟩⟩
      refine ((hbefore g₃ (hload.trans hload₃) hg₃).of_iff
        (and_iff_right hpasses).symm).bind_succeeds fun _ g₄ hgrows₄ hQ => ?_
      have hgrows := hload₃.grows.trans hgrows₄
      obtain ⟨hc', hl'', hhook⟩ := hjoin g₄ hgrows hQ
      exact h.succeeds_move (hgrows.alive _ (hdalive d rfl))
        (h.readable (hload.grows.trans hgrows) ⟨l', hl'⟩) hc' hl'' hhook

end Edits

end Graph

end ManagedImage
