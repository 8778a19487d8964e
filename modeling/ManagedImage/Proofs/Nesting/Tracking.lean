import ManagedImage.Proofs.Nesting.View
import ManagedImage.Proofs.Ownership.Side

/-!
# Owners and members in a nesting

Modules own types and types own records.  The operations on an `Ownership` do the same to both: they
succeed, and what they do to the nesting is what they do to one of its sides.

## Main definitions

* `Graph.Tracks` — an `Ownership` works on one side of the nesting.

## Main results

* `Graph.Tracks.remove`, `Graph.Tracks.detach`, `Graph.Tracks.attach` — the operations succeed.
-/

namespace ManagedImage

namespace Graph

variable {o m : EntityKind} {g : Graph} {n n' : Nesting} {c : Ref o} {r : Ref m}
  {own : Ownership Graph Error (Ref o) (Ref m)} {s : Side Nesting (Ref o) (Ref m)}

/-- The operations read and replace one side of the nesting, and succeed with it. -/
structure Tracks (own : Ownership Graph Error (Ref o) (Ref m)) (s : Side Nesting (Ref o) (Ref m)) :
    Prop where
  /-- What exists is asked of the graph. -/
  isAlive : ∀ c g, own.isAlive c g = g.isAlive c.any
  /-- The list can be read, and the members in it exist. -/
  items : ∀ {g : Graph} {n : Nesting} {c : Ref o}, g.Shows n → g.isAlive c.any →
    g.Yields (own.items c) (s.list n c) fun g' =>
      g'.Shows n ∧ ∀ x ∈ s.list n c, g'.isAlive x.any
  /-- The owner can be read, and it exists. -/
  owner : ∀ {g : Graph} {n : Nesting} {r : Ref m}, g.Shows n → g.isAlive r.any →
    g.Yields (own.owner r) (s.owner n r) fun g' =>
      g'.Shows n ∧ ∀ x ∈ s.owner n r, g'.isAlive x.any
  /-- The list can be replaced. -/
  putItems : ∀ {g : Graph} {n : Nesting} {c : Ref o} {l : List (Ref m)}, g.Shows n →
    g.isAlive c.any → (∀ x ∈ l, g.isAlive x.any) →
    g.Yields (Action.change (own.putItems c l)) () fun g' => g'.Shows (s.setList n c l)
  /-- The owner can be replaced. -/
  putOwner : ∀ {g : Graph} {n : Nesting} {r : Ref m} {x : Option (Ref o)}, g.Shows n →
    g.isAlive r.any → (∀ c ∈ x, g.isAlive c.any) →
    g.Yields (Action.change (own.putOwner r x)) () fun g' => g'.Shows (s.setOwner n r x)
  /-- What follows when an owner has been replaced succeeds. -/
  ownerChanged : ∀ {g : Graph} {n : Nesting} {r : Ref m} {x : Option (Ref o)}, g.Shows n →
    g.isAlive r.any → (∀ c ∈ x, g.isAlive c.any) →
    g.Yields (own.ownerChanged r x) () fun g' => g'.Shows (s.changed n r x)

namespace Tracks

theorem take (h : Tracks own s) (hg : g.Shows n) (hc : g.isAlive c.any) :
    g.Yields (own.take c r) (decide (r ∈ s.list n c)) fun g' => g'.Shows (s.take n c r) := by
  unfold Ownership.take
  refine (h.items hg hc).bind fun g₁ hk₁ ⟨hg₁, hlist⟩ => ?_
  by_cases hr : r ∈ s.list n c
  · simp only [hr, if_true, decide_true]
    have hput := h.putItems hg₁ (hk₁.alive _ hc) (l := (s.list n c).filter (· ≠ r))
      fun x hx => hlist x (List.mem_of_mem_filter hx)
    refine hput.bind fun g₂ _ hg₂ => Yields.pure ?_
    rwa [Side.take, if_pos hr]
  · simp only [hr, if_false, decide_false]
    refine Yields.pure ?_
    rwa [Side.take, if_neg hr]

theorem insert (h : Tracks own s) (hg : g.Shows n) (hc : g.isAlive c.any) (hr : g.isAlive r.any) :
    g.Yields (own.insert c r) () fun g' => g'.Shows (s.insert n c r) := by
  unfold Ownership.insert
  refine (h.items hg hc).bind fun g₁ hk₁ ⟨hg₁, hlist⟩ => ?_
  unfold Side.insert
  by_cases hmem : r ∈ s.list n c
  · simp only [hmem, not_true, if_false, if_true]
    exact Yields.pure hg₁
  · simp only [hmem, not_false_eq_true, if_true, if_false]
    refine h.putItems hg₁ (hk₁.alive _ hc) fun x hx => ?_
    rcases List.mem_append.mp hx with hx | hx
    · exact hlist x hx
    · rw [List.mem_singleton.mp hx]
      exact hk₁.alive _ hr

/-- **Removing** succeeds, and says whether the member was in the list. -/
theorem remove (h : Tracks own s) (hg : g.Shows n) (hc : g.isAlive c.any) (hr : g.isAlive r.any) :
    g.Yields (own.remove c r) (decide (r ∈ s.list n c)) fun g' => g'.Shows (s.leave n c r) := by
  unfold Ownership.remove
  refine (h.take hg hc).bind fun g₁ hk₁ hg₁ => ?_
  unfold Side.leave
  by_cases hmem : r ∈ s.list n c
  · simp only [hmem, decide_true, if_true]
    have hput := h.putOwner hg₁ (hk₁.alive _ hr) (x := none) (by simp)
    refine hput.bind fun g₂ hk₂ hg₂ => ?_
    have hchanged := h.ownerChanged hg₂ ((hk₁.trans hk₂).alive _ hr) (x := none) (by simp)
    exact hchanged.bind fun g₃ _ hg₃ => Yields.pure hg₃
  · simp only [hmem, decide_false, Bool.false_eq_true, if_false]
    rw [Side.take, if_neg hmem] at hg₁
    exact Yields.pure hg₁

/-- **Detaching** succeeds. -/
theorem detach (h : Tracks own s) (hg : g.Shows n) (hr : g.isAlive r.any) :
    ∃ removed, g.Yields (own.detach r) removed fun g' => g'.Shows (s.detach n r) := by
  unfold Ownership.detach Side.detach
  cases howner : s.owner n r with
  | none =>
    refine ⟨false, (h.owner hg hr).bind fun g₁ _ ⟨hg₁, _⟩ => ?_⟩
    rw [howner]
    exact Yields.pure hg₁
  | some c =>
    refine ⟨decide (r ∈ s.list n c), (h.owner hg hr).bind fun g₁ hk₁ ⟨hg₁, hc⟩ => ?_⟩
    rw [howner]
    exact h.remove hg₁ (hc c howner) (hk₁.alive _ hr)

/-- The member gets an owner. -/
theorem join (h : Tracks own s) (hg : g.Shows n) (hc : g.isAlive c.any) (hr : g.isAlive r.any) :
    g.Yields (do
      Action.change (own.putOwner r (some c))
      own.insert c r
      own.ownerChanged r (some c)) () fun g' => g'.Shows (s.join n c r) := by
  have hput := h.putOwner hg hr (x := some c) fun x hx => (Option.mem_some.mp hx) ▸ hc
  refine hput.bind fun g₁ hk₁ hg₁ => ?_
  refine (h.insert hg₁ (hk₁.alive _ hc) (hk₁.alive _ hr)).bind fun g₂ hk₂ hg₂ => ?_
  have hk := hk₁.trans hk₂
  exact h.ownerChanged hg₂ (hk.alive _ hr) fun x hx => hk.alive _ ((Option.mem_some.mp hx) ▸ hc)

/-- **Attaching** succeeds if the hook does. -/
theorem attach (h : Tracks own s) {before : Ref m → Ref o → GraphAction Unit} (hg : g.Shows n)
    (hc : g.isAlive c.any) (hr : g.isAlive r.any)
    (hbefore : ∀ g', g.Keeps g' → g'.Shows n → g'.Yields (before r c) () fun g'' => g''.Shows n') :
    g.Yields (own.attach before c r) () fun g' => g'.Shows (s.attach n n' c r) := by
  unfold Ownership.attach
  refine Yields.get_bind ?_
  rw [h.isAlive, hc]
  refine (h.items hg hc).bind fun g₁ hk₁ ⟨hg₁, _⟩ => ?_
  refine (h.owner hg₁ (hk₁.alive _ hr)).bind fun g₂ hk₂ ⟨hg₂, hold⟩ => ?_
  have hk := hk₁.trans hk₂
  unfold Side.attach
  cases howner : s.owner n r with
  | none =>
    refine (hbefore g₂ hk hg₂).bind fun g₃ hk₃ hg₃ => ?_
    exact h.join hg₃ ((hk.trans hk₃).alive _ hc) ((hk.trans hk₃).alive _ hr)
  | some old =>
    by_cases hsame : old = c
    · simp only [hsame, if_true]
      exact h.insert hg₂ (hk.alive _ hc) (hk.alive _ hr)
    · simp only [hsame, if_false]
      -- both lists have been read before the hook and before the first change
      refine (h.items hg₂ (hold old howner)).bind fun g₃ hk₃ ⟨hg₃, _⟩ => ?_
      refine (hbefore g₃ (hk.trans hk₃) hg₃).bind fun g₄ hk₄ hg₄ => ?_
      have hk₃₄ := hk₃.trans hk₄
      refine (h.take hg₄ (hk₃₄.alive _ (hold old howner))).bind fun g₅ hk₅ hg₅ => ?_
      have hk' := (hk.trans hk₃₄).trans hk₅
      exact h.join hg₅ (hk'.alive _ hc) (hk'.alive _ hr)

end Tracks

end Graph

end ManagedImage
