import ManagedImage.Action

/-!
# Two runs side by side

The same action is run in two states that belong together.  What is shown of both runs at once is
that they give the same, and that the states they leave belong together again.

## Main definitions

* `Pairing σ` — which states belong together, and what every run keeps.
* `Pairing.Agrees`, `Pairing.Matches` — both runs give the same, for actions that never fail and
  for actions that may.

## Main results

* `Pairing.Agrees.bind`, `Pairing.Matches.bind` — one action after the other.
* `Pairing.Agrees.mapM` — an action for each element of a list.
-/

namespace ManagedImage

/-- Which states belong together, and what a run that starts in one of them keeps. -/
structure Pairing (σ : Type) where
  /-- The states belong together. -/
  related : σ → σ → Prop
  /-- What is kept from one state to a later one. -/
  keeps : σ → σ → Prop
  refl : ∀ s, keeps s s
  trans : ∀ {s s' s''}, keeps s s' → keeps s' s'' → keeps s s''

namespace Pairing

variable {σ ε α β : Type} {P : Pairing σ}

/-- Run in `s` and in `t`, the action gives the same value.  The states that are left belong
together, and `Q` holds of the value and the first of them. -/
def Agrees (P : Pairing σ) (a : StateM σ α) (s t : σ) (Q : α → σ → Prop) : Prop :=
  ∃ v s' t', a s = (v, s') ∧ a t = (v, t') ∧ P.keeps s s' ∧ P.related s' t' ∧ Q v s'

/-- `Q` holds of the value, or `E` of the error. -/
def Outcome (Q : α → σ → Prop) (E : ε → Prop) : Except ε α → σ → Prop
  | .ok v, s => Q v s
  | .error e, _ => E e

/-- Run in `s` and in `t`, the action gives the same value, with `Q`, or fails with the same error,
with `E`. -/
def Matches (P : Pairing σ) (a : Action σ ε α) (s t : σ) (Q : α → σ → Prop) (E : ε → Prop) : Prop :=
  P.Agrees a.run s t (Outcome Q E)

namespace Agrees

variable {a : StateM σ α} {f : α → StateM σ β} {s t : σ} {Q Q' : α → σ → Prop} {R : β → σ → Prop}

theorem pure {v : α} (h : P.related s t) (hQ : Q v s) : P.Agrees (Pure.pure v) s t Q :=
  ⟨v, s, t, rfl, rfl, P.refl s, h, hQ⟩

/-- One action after the other. -/
theorem bind (h : P.Agrees a s t Q)
    (hf : ∀ v s' t', P.keeps s s' → P.related s' t' → Q v s' → P.Agrees (f v) s' t' R) :
    P.Agrees (a >>= f) s t R := by
  obtain ⟨v, s₁, t₁, hs, ht, hkeeps, hrel, hQ⟩ := h
  obtain ⟨w, s₂, t₂, hs', ht', hkeeps', hrel', hR⟩ := hf v s₁ t₁ hkeeps hrel hQ
  refine ⟨w, s₂, t₂, ?_, ?_, P.trans hkeeps hkeeps', hrel', hR⟩
  · change f (a s).1 (a s).2 = _
    rw [hs, hs']
  · change f (a t).1 (a t).2 = _
    rw [ht, ht']

theorem mono (h : P.Agrees a s t Q) (hQ : ∀ v s', P.keeps s s' → Q v s' → Q' v s') :
    P.Agrees a s t Q' := by
  obtain ⟨v, s', t', hs, ht, hkeeps, hrel, h⟩ := h
  exact ⟨v, s', t', hs, ht, hkeeps, hrel, hQ v s' hkeeps h⟩

/-- An action that looks at the state first, but finds nothing that tells the two apart. -/
theorem get_bind {f : σ → StateM σ β} (h : f t = f s) (hf : P.Agrees (f s) s t R) :
    P.Agrees (get >>= f) s t R := by
  obtain ⟨v, s', t', hs, ht, hkeeps, hrel, hR⟩ := hf
  exact ⟨v, s', t', hs, (congrFun h t).trans ht, hkeeps, hrel, hR⟩

theorem modify {Q : PUnit → σ → Prop} {f : σ → σ} (hkeeps : P.keeps s (f s))
    (h : P.related (f s) (f t)) (hQ : Q ⟨⟩ (f s)) :
    P.Agrees (MonadState.modifyGet fun s => (⟨⟩, f s) : StateM σ PUnit) s t Q :=
  ⟨⟨⟩, f s, f t, rfl, rfl, hkeeps, h, hQ⟩

/-- An action for each element of a list. -/
theorem mapM {f : α → StateM σ β} {l : List α} (h : P.related s t)
    (hR : ∀ b s₁ s₂, P.keeps s₁ s₂ → R b s₁ → R b s₂)
    (hf : ∀ x ∈ l, ∀ s' t', P.keeps s s' → P.related s' t' → P.Agrees (f x) s' t' R) :
    P.Agrees (l.mapM f) s t fun bs s' => ∀ b ∈ bs, R b s' := by
  induction l generalizing s t with
  | nil =>
    rw [List.mapM_nil]
    exact pure h fun b hb => absurd hb List.not_mem_nil
  | cons x l ih =>
    rw [List.mapM_cons]
    refine (hf x List.mem_cons_self s t (P.refl s) h).bind fun b s₁ t₁ hk₁ h₁ hb => ?_
    have hrest := ih h₁ fun y hy s' t' hk h' =>
      hf y (List.mem_cons_of_mem x hy) s' t' (P.trans hk₁ hk) h'
    refine hrest.bind fun bs s₂ t₂ hk₂ h₂ hbs => pure h₂ ?_
    exact List.forall_mem_cons.mpr ⟨hR b s₁ s₂ hk₂ hb, hbs⟩

end Agrees

namespace Matches

variable {a : Action σ ε α} {f : α → Action σ ε β} {s t s' t' : σ} {Q Q' : α → σ → Prop}
  {R : β → σ → Prop} {E E' : ε → Prop}

theorem of_ok {v : α} (hs : a.runOn s = (.ok v, s')) (ht : a.runOn t = (.ok v, t'))
    (hkeeps : P.keeps s s') (h : P.related s' t') (hQ : Q v s') : P.Matches a s t Q E :=
  ⟨.ok v, s', t', hs, ht, hkeeps, h, hQ⟩

theorem of_error {e : ε} (hs : a.runOn s = (.error e, s')) (ht : a.runOn t = (.error e, t'))
    (hkeeps : P.keeps s s') (h : P.related s' t') (hE : E e) : P.Matches a s t Q E :=
  ⟨.error e, s', t', hs, ht, hkeeps, h, hE⟩

theorem pure {v : α} (h : P.related s t) (hQ : Q v s) :
    P.Matches (Pure.pure v : Action σ ε α) s t Q E :=
  of_ok rfl rfl (P.refl s) h hQ

theorem throw {e : ε} (h : P.related s t) (hE : E e) :
    P.Matches (throw e : Action σ ε α) s t Q E :=
  of_error rfl rfl (P.refl s) h hE

theorem change {Q : Unit → σ → Prop} {f : σ → σ} (hkeeps : P.keeps s (f s))
    (h : P.related (f s) (f t)) (hQ : Q () (f s)) :
    P.Matches (Action.change f : Action σ ε Unit) s t Q E :=
  of_ok rfl rfl hkeeps h hQ

/-- Nothing that is asked for tells the two states apart. -/
theorem ask {f : σ → α} (h : P.related s t) (hf : f t = f s) (hQ : Q (f s) s) :
    P.Matches (Action.ask f : Action σ ε α) s t Q E :=
  of_ok rfl (by rw [Action.runOn_ask, hf]) (P.refl s) h hQ

/-- One action after the other. -/
theorem bind (h : P.Matches a s t Q E)
    (hf : ∀ v s' t', P.keeps s s' → P.related s' t' → Q v s' → P.Matches (f v) s' t' R E) :
    P.Matches (a >>= f) s t R E := by
  obtain ⟨r, s₁, t₁, hs, ht, hkeeps, hrel, hr⟩ := h
  cases r with
  | error e =>
    exact of_error (Action.runOn_bind_error hs) (Action.runOn_bind_error ht) hkeeps hrel hr
  | ok v =>
    obtain ⟨r, s₂, t₂, hs', ht', hkeeps', hrel', hr'⟩ := hf v s₁ t₁ hkeeps hrel hr
    exact ⟨r, s₂, t₂, (Action.runOn_bind_ok hs).trans hs', (Action.runOn_bind_ok ht).trans ht',
      P.trans hkeeps hkeeps', hrel', hr'⟩

theorem mono (h : P.Matches a s t Q E) (hQ : ∀ v s', P.keeps s s' → Q v s' → Q' v s')
    (hE : ∀ e, E e → E' e) : P.Matches a s t Q' E' := by
  refine Agrees.mono h fun r s' hkeeps hr => ?_
  cases r with
  | error e => exact hE e hr
  | ok v => exact hQ v s' hkeeps hr

theorem weaken (h : P.Matches a s t Q E) (hQ : ∀ v s', P.keeps s s' → Q v s' → Q' v s') :
    P.Matches a s t Q' E :=
  h.mono hQ fun _ he => he

theorem get_bind {f : σ → Action σ ε β} (h : f t = f s) (hf : P.Matches (f s) s t R E) :
    P.Matches (get >>= f) s t R E := by
  obtain ⟨r, s', t', hs, ht, hkeeps, hrel, hr⟩ := hf
  exact ⟨r, s', t', hs, (congrFun h t).trans ht, hkeeps, hrel, hr⟩

theorem map {f : α → β} (h : P.Matches a s t Q E)
    (hR : ∀ v s', P.keeps s s' → Q v s' → R (f v) s') : P.Matches (f <$> a) s t R E := by
  rw [map_eq_pure_bind]
  exact h.bind fun v s' t' hkeeps hrel hv => pure hrel (hR v s' hkeeps hv)

/-- An action that succeeds takes nothing back. -/
theorem orUndo {undo : σ → σ} (h : P.Matches a s t Q fun _ => False) :
    P.Matches (a.orUndo undo) s t Q E := by
  obtain ⟨r, s', t', hs, ht, hkeeps, hrel, hr⟩ := h
  cases r with
  | error e => exact hr.elim
  | ok v => exact of_ok (Action.runOn_orUndo_ok hs) (Action.runOn_orUndo_ok ht) hkeeps hrel hr

end Matches

end Pairing

end ManagedImage
