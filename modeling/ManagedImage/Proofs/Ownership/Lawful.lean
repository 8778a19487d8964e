import ManagedImage.Proofs.Ownership.Ends
import ManagedImage.Proofs.Ownership.Side

/-!
# Operations that may fail

An ownership is lawful if loading changes no list and no back-pointer, and what has been loaded can
be read again.  Then each operation, wherever it fails, has either changed nothing or done all of
what it does to the two sides.

## Main definitions

* `Edges O M` — the lists and the back-pointers, loaded or not.
* `Ownership.View` — how the edges are seen in a state.
* `Ownership.Lawful` — the laws.

## Main results

* `Ownership.Lawful.remove`, `Ownership.Lawful.detach`, `Ownership.Lawful.attach` — how the
  operations end.
-/

namespace ManagedImage

/-- The lists of the owners, and the owners of the members. -/
@[ext]
structure Edges (O M : Type) where
  /-- The members of each owner. -/
  list : O → List M
  /-- The owner of each member. -/
  owner : M → Option O

/-- The two sides of the edges. -/
@[reducible] def Edges.side (O M : Type) : Side (Edges O M) O M where
  list := list
  owner := owner
  put _ list owner := { list, owner }
  changed e _ _ := e

namespace Ownership

variable {σ ε O M : Type}

/-- How the edges between owners and members are seen in a state. -/
structure View (σ O M : Type) where
  /-- The edges. -/
  edges : σ → Edges O M
  /-- The owner exists. -/
  alive : O → σ → Bool
  /-- The member exists. -/
  there : M → σ → Prop
  /-- The list of the owner has been loaded. -/
  loaded : O → σ → Prop

/-- From `s` to `s'` the edges have become `e`, and nothing else is seen to have changed. -/
structure View.Becomes (v : View σ O M) (s : σ) (e : Edges O M) (s' : σ) : Prop where
  /-- The edges. -/
  edges : v.edges s' = e
  /-- The same owners exist. -/
  alive : ∀ o, v.alive o s' = v.alive o s
  /-- Members stay. -/
  there : ∀ m, v.there m s → v.there m s'
  /-- What has been loaded stays loaded. -/
  loaded : ∀ o, v.loaded o s → v.loaded o s'

/-- Nothing is seen to have changed, but for what has been loaded. -/
def View.Same (v : View σ O M) (s s' : σ) : Prop := v.Becomes s (v.edges s) s'

/-- Wherever it ends, the action has changed no edge. -/
def View.Keeps {α : Type} (v : View σ O M) (a : Action σ ε α) (s : σ) : Prop :=
  a.Ends s (fun _ => v.Same s) fun _ => v.Same s

namespace View

variable {v : View σ O M} {s s' s'' : σ} {e e' : Edges O M}

theorem same_refl (v : View σ O M) (s : σ) : v.Same s s :=
  ⟨rfl, fun _ => rfl, fun _ h => h, fun _ h => h⟩

theorem Becomes.trans (h : v.Becomes s e s') (h' : v.Becomes s' e' s'') : v.Becomes s e' s'' where
  edges := h'.edges
  alive o := (h'.alive o).trans (h.alive o)
  there m hm := h'.there m (h.there m hm)
  loaded o ho := h'.loaded o (h.loaded o ho)

theorem Becomes.same (h : v.Becomes s e s') (h' : v.Same s' s'') : v.Becomes s e s'' := by
  have htrans := h.trans h'
  rwa [h.edges] at htrans

/-- What has been loaded before an action that changes no edge is still loaded after it. -/
theorem Keeps.after {α : Type} {a : Action σ ε α} {s₁ : σ} (ha : v.Keeps a s₁)
    (h : v.Same s s₁) :
    a.Ends s₁ (fun _ s' => v.Same s s' ∧ ∀ o, v.loaded o s₁ → v.loaded o s') fun _ => v.Same s :=
  ha.mono (fun _ _ hQ => ⟨h.same hQ, hQ.loaded⟩) fun _ _ hE => h.same hE

end View

variable [DecidableEq O] [DecidableEq M]

/-- Loading changes no edge, what has been loaded can be read, and replacing replaces. -/
structure Lawful (own : Ownership σ ε O M) (v : View σ O M) : Prop where
  /-- What exists is seen. -/
  alive : ∀ o s, own.isAlive o s = v.alive o s
  /-- A list is read as it is seen, and cannot fail to be read again. -/
  items : ∀ {o s}, v.alive o s → (own.items o).Ends s
    (fun l s' => l = (v.edges s).list o ∧ v.Same s s' ∧ v.loaded o s')
    (fun _ s' => v.Same s s' ∧ ¬v.loaded o s)
  /-- The owner is read as it is seen, and it exists. -/
  owner : ∀ {m s}, v.there m s → (own.owner m).Ends s
    (fun x s' => x = (v.edges s).owner m ∧ v.Same s s' ∧ ∀ o ∈ x, v.alive o s)
    (fun _ s' => v.Same s s')

  /-- A list is replaced. -/
  putItems : ∀ {o s} (l : List M), v.alive o s →
    v.Becomes s ((Edges.side O M).setList (v.edges s) o l) (own.putItems o l s)
  /-- A back-pointer is replaced by one to what exists. -/
  putOwner : ∀ {m s x}, v.there m s → (∀ o ∈ x, v.alive o s) →
    v.Becomes s ((Edges.side O M).setOwner (v.edges s) m x) (own.putOwner m x s)
  /-- The hook after a change changes no edge. -/
  ownerChanged : ∀ m x s, v.Keeps (own.ownerChanged m x) s

namespace Lawful

variable {own : Ownership σ ε O M} {v : View σ O M} {o : O} {m : M} {s : σ}

/-- Taking a member out of a list fails only while the list is still to be loaded. -/
theorem take (h : own.Lawful v) (ho : v.alive o s) :
    (own.take o m).Ends s
      (fun b s' => b = decide (m ∈ (v.edges s).list o) ∧
        v.Becomes s ((Edges.side O M).take (v.edges s) o m) s')
      (fun _ s' => v.Same s s' ∧ ¬v.loaded o s) := by
  unfold Ownership.take
  refine (h.items ho).bind fun l s₁ ⟨hl, hsame, _⟩ => ?_
  subst hl
  have hedges : v.edges s₁ = v.edges s := hsame.edges
  have halive : v.alive o s₁ := (hsame.alive o).trans ho
  unfold Side.take
  by_cases hm : m ∈ (v.edges s).list o
  · rw [if_pos hm, if_pos hm]
    have hput := h.putItems ((v.edges s).list o |>.filter (· ≠ m)) halive
    rw [hedges] at hput
    exact .change_bind (.pure ⟨(decide_eq_true hm).symm, hsame.trans hput⟩)
  · rw [if_neg hm, if_neg hm]
    exact .pure ⟨(decide_eq_false hm).symm, hsame⟩

/-- Adding a member to a list that has been loaded cannot fail. -/
theorem insert (h : own.Lawful v) (ho : v.alive o s) (hloaded : v.loaded o s) :
    (own.insert o m).Ends s
      (fun _ => v.Becomes s ((Edges.side O M).insert (v.edges s) o m)) fun _ _ => False := by
  unfold Ownership.insert
  -- reading a list that has been loaded does not fail
  refine ((h.items ho).mono (fun _ _ hQ => hQ) fun _ _ hE => absurd hloaded hE.2).bind
    fun l s₁ ⟨hl, hsame, _⟩ => ?_
  subst hl
  have hedges : v.edges s₁ = v.edges s := hsame.edges
  unfold Side.insert
  by_cases hm : m ∈ (v.edges s).list o
  · rw [if_neg (not_not_intro hm), if_pos hm]
    exact .pure hsame
  · rw [if_pos hm, if_neg hm]
    refine .change ?_
    have hput := h.putItems ((v.edges s).list o ++ [m]) ((hsame.alive o).trans ho)
    rw [hedges] at hput
    exact hsame.trans hput

/-- Making `o` the owner of a member cannot fail once the list of `o` has been loaded. -/
theorem place (h : own.Lawful v) (ho : v.alive o s) (hm : v.there m s) (hloaded : v.loaded o s) :
    (do
      Action.change (own.putOwner m (some o))
      own.insert o m).Ends s
        (fun _ => v.Becomes s ((Edges.side O M).join (v.edges s) o m)) fun _ _ => False := by
  have hput := h.putOwner hm (x := some o) fun x hx => (Option.mem_some.mp hx) ▸ ho
  refine .change_bind ?_
  generalize own.putOwner m (some o) s = s₁ at hput
  have hinsert := h.insert (m := m) ((hput.alive o).trans ho) (hput.loaded o hloaded)
  rw [hput.edges] at hinsert
  exact hinsert.mono (fun _ _ hQ => hput.trans hQ) fun _ _ hE => hE

/-- Giving a member an owner whose list has been loaded: only the hook afterwards may fail. -/
theorem join {s' : σ} {e : Edges O M} (h : own.Lawful v) (hs : v.Becomes s e s')
    (ho : v.alive o s) (hm : v.there m s) (hloaded : v.loaded o s') :
    (do
      Action.change (own.putOwner m (some o))
      own.insert o m
      own.ownerChanged m (some o)).Ends s'
        (fun _ => v.Becomes s ((Edges.side O M).join e o m))
        fun _ => v.Becomes s ((Edges.side O M).join e o m) := by
  have hplace := h.place (m := m) ((hs.alive o).trans ho) (hs.there m hm) hloaded
  rw [hs.edges] at hplace
  rw [← bind_assoc]
  refine (hplace.mono (fun _ _ hQ => hQ) fun _ _ hE => hE.elim).bind fun _ s₁ h₁ => ?_
  have hjoin : v.Becomes s ((Edges.side O M).join e o m) s₁ := hs.trans h₁
  exact (h.ownerChanged m (some o) s₁).mono (fun _ _ hsame => hjoin.same hsame)
    fun _ _ hsame => hjoin.same hsame

/-- **How removing ends**: either nothing has changed, or the member has left. -/
theorem remove (h : own.Lawful v) (ho : v.alive o s) (hm : v.there m s) :
    (own.remove o m).Ends s
      (fun b s' => b = decide (m ∈ (v.edges s).list o) ∧
        v.Becomes s ((Edges.side O M).leave (v.edges s) o m) s')
      (fun _ s' => v.Same s s' ∨ v.Becomes s ((Edges.side O M).leave (v.edges s) o m) s') := by
  unfold Ownership.remove
  refine ((h.take ho).mono (fun _ _ hQ => hQ) fun _ _ hE => Or.inl hE.1).bind
    fun b s₁ ⟨hb, h₁⟩ => ?_
  subst hb
  unfold Side.leave
  by_cases hmem : m ∈ (v.edges s).list o
  · simp only [hmem, decide_true, if_true]
    have hput := h.putOwner (h₁.there m hm) (x := none) (by simp)
    rw [h₁.edges] at hput
    have h₂ := h₁.trans hput
    refine .change_bind ?_
    -- the member has left already when the hook fails
    refine ((h.ownerChanged m none _).mono (fun _ _ hsame => h₂.same hsame)
      fun _ _ hsame => Or.inr (h₂.same hsame)).bind fun _ s₃ h₃ => .pure ⟨rfl, h₃⟩
  · simp only [hmem, decide_false, if_false]
    rw [Side.take, if_neg hmem] at h₁
    exact .pure ⟨rfl, h₁⟩

/-- **How detaching ends**: either nothing has changed, or the member has left its owner. -/
theorem detach (h : own.Lawful v) (hm : v.there m s) :
    (own.detach m).Ends s
      (fun _ => v.Becomes s ((Edges.side O M).detach (v.edges s) m))
      (fun _ s' => v.Same s s' ∨ v.Becomes s ((Edges.side O M).detach (v.edges s) m) s') := by
  unfold Ownership.detach
  refine ((h.owner hm).mono (fun _ _ hQ => hQ) fun _ _ hE => Or.inl hE).bind
    fun x s₁ ⟨hx, hsame, halive⟩ => ?_
  have hx : (Edges.side O M).owner (v.edges s) m = x := hx.symm
  rw [Side.detach, hx]
  cases x with
  | none => exact .pure hsame
  | some o =>
    have hremove := h.remove (o := o) (m := m) ((hsame.alive o).trans (halive o rfl))
      (hsame.there m hm)
    rw [hsame.edges] at hremove
    dsimp only
    exact hremove.mono (fun _ _ hQ => hsame.trans hQ.2)
      fun _ _ hE => hE.imp hsame.same hsame.trans

/-- A member without an owner comes to an owner whose list has been loaded. -/
theorem enter {s₁ : σ} (h : own.Lawful v) {before : M → O → Action σ ε Unit}
    (hbefore : ∀ s, v.Keeps (before m o) s) (hs : v.Same s s₁) (ho : v.alive o s)
    (hm : v.there m s) (hloaded : v.loaded o s₁) :
    (do
      before m o
      Action.change (own.putOwner m (some o))
      own.insert o m
      own.ownerChanged m (some o)).Ends s₁
        (fun _ => v.Becomes s ((Edges.side O M).join (v.edges s) o m))
        (fun _ s' => v.Same s s' ∨
          v.Becomes s ((Edges.side O M).join (v.edges s) o m) s') := by
  refine (((hbefore s₁).after hs).mono (fun _ _ hQ => hQ) fun _ _ => Or.inl).bind
    fun _ s₂ ⟨h₂, hkept⟩ => ?_
  exact (h.join h₂ ho hm (hkept o hloaded)).mono (fun _ _ hQ => hQ) fun _ _ => Or.inr

/-- A member goes from one owner to another one whose list has been loaded. -/
theorem move {old : O} {s₁ : σ} (h : own.Lawful v) {before : M → O → Action σ ε Unit}
    (hbefore : ∀ s, v.Keeps (before m o) s) (hs : v.Same s s₁) (ho : v.alive o s)
    (hold : v.alive old s) (hm : v.there m s) (hloaded : v.loaded o s₁) :
    (do
      let _ ← own.items old
      before m o
      let _ ← own.take old m
      Action.change (own.putOwner m (some o))
      own.insert o m
      own.ownerChanged m (some o)).Ends s₁
        (fun _ => v.Becomes s
          ((Edges.side O M).join ((Edges.side O M).take (v.edges s) old m) o m))
        (fun _ s' => v.Same s s' ∨ v.Becomes s
          ((Edges.side O M).join ((Edges.side O M).take (v.edges s) old m) o m) s') := by
  refine ((h.items ((hs.alive old).trans hold)).mono (fun _ _ hQ => hQ)
    fun _ _ hE => Or.inl (hs.same hE.1)).bind fun _ s₂ ⟨_, hsame, hold₂⟩ => ?_
  have h₂ := hs.same hsame
  have hloaded₂ := hsame.loaded o hloaded
  refine (((hbefore s₂).after h₂).mono (fun _ _ hQ => hQ) fun _ _ => Or.inl).bind
    fun _ s₃ ⟨h₃, hkept⟩ => ?_
  -- all that is read from here on has been loaded
  have htake := h.take (m := m) ((h₃.alive old).trans hold)
  rw [h₃.edges] at htake
  refine (htake.mono (fun _ _ hQ => hQ) fun _ _ hE => absurd (hkept old hold₂) hE.2).bind
    fun _ s₄ ⟨_, h₄⟩ => ?_
  have hloaded₄ := h₄.loaded o (hkept o hloaded₂)
  exact (h.join (h₃.trans h₄) ho hm hloaded₄).mono (fun _ _ hQ => hQ) fun _ _ => Or.inr

/-- **How attaching ends**: either nothing has changed, or the member has moved. -/
theorem attach (h : own.Lawful v) {before : M → O → Action σ ε Unit}
    (hbefore : ∀ s, v.Keeps (before m o) s) (hm : v.there m s) :
    (own.attach before o m).Ends s
      (fun _ => v.Becomes s ((Edges.side O M).attach (v.edges s) (v.edges s) o m))
      (fun _ s' => v.Same s s' ∨
        v.Becomes s ((Edges.side O M).attach (v.edges s) (v.edges s) o m) s') := by
  unfold Ownership.attach
  refine .get_bind ?_
  rw [h.alive]
  cases ho : v.alive o s with
  | false => exact .throw (Or.inl (v.same_refl s))
  | true =>
    refine ((h.items ho).mono (fun _ _ hQ => hQ) fun _ _ hE => Or.inl hE.1).bind
      fun _ s₁ ⟨_, h₁, hloaded⟩ => ?_
    refine ((h.owner (h₁.there m hm)).mono (fun _ _ hQ => hQ)
      fun _ _ hE => Or.inl (h₁.same hE)).bind fun x s₂ ⟨hx, hsame, halive⟩ => ?_
    rw [h₁.edges] at hx
    have hx : (Edges.side O M).owner (v.edges s) m = x := hx.symm
    have h₂ : v.Same s s₂ := h₁.same hsame
    have hloaded₂ := hsame.loaded o hloaded
    rw [Side.attach, hx]
    cases x with
    | none => exact h.enter hbefore h₂ ho hm hloaded₂
    | some old =>
      have hold : v.alive old s := (h₁.alive old).symm.trans (halive old rfl)
      dsimp only
      by_cases hsame_owner : old = o
      · -- the member has this owner already
        rw [if_pos hsame_owner, if_pos hsame_owner]
        have hinsert := h.insert (m := m) ((h₂.alive o).trans ho) hloaded₂
        rw [h₂.edges] at hinsert
        exact hinsert.mono (fun _ _ hQ => h₂.trans hQ) fun _ _ hE => hE.elim
      · rw [if_neg hsame_owner, if_neg hsame_owner]
        exact h.move hbefore h₂ ho hold hm hloaded₂

end Lawful

end Ownership

/-! ### Agreement -/

namespace Edges

variable {O M : Type} [DecidableEq O] [DecidableEq M] {e : Edges O M}

/-- The members in a list are those that point back at its owner, and each is in it once. -/
structure Agree (e : Edges O M) : Prop where
  /-- Lists and back-pointers agree. -/
  agrees : (side O M).Agrees e
  /-- No list holds a member twice. -/
  noDup : (side O M).NoDup e

omit [DecidableEq O] in
theorem Agree.free (h : e.Agree) (m : M) : ((side O M).free e m).Agree :=
  ⟨h.agrees.free, h.noDup.free⟩

theorem Agree.leave (h : e.Agree) (o : O) (m : M) : ((side O M).leave e o m).Agree := by
  rw [Side.leave_eq h.agrees]
  split
  · exact h.free m
  · exact h

theorem Agree.detach (h : e.Agree) (m : M) : ((side O M).detach e m).Agree := by
  rw [Side.detach_eq h.agrees]
  split
  · exact h.free m
  · exact h

theorem Agree.attach (h : e.Agree) (o : O) (m : M) : ((side O M).attach e e o m).Agree := by
  rw [Side.attach_eq h.agrees h.agrees rfl]
  split
  · exact h
  · exact ⟨h.agrees.give, h.noDup.give⟩

end Edges

end ManagedImage
