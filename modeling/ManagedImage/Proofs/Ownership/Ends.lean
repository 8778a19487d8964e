import ManagedImage.Action

/-!
# How actions end

An action ends with a value or an error, and leaves a state in both cases.

## Main definitions

* `Action.Ends` — what holds of the state where an action succeeds, and where it fails.

## Main results

* `Action.Ends.bind` — one action after the other.
-/

namespace ManagedImage

namespace Action

variable {σ ε α β : Type}

/-- Run in `s`, the action succeeds with `Q` or fails with `E`. -/
def Ends (a : Action σ ε α) (s : σ) (Q : α → σ → Prop) (E : ε → σ → Prop) : Prop :=
  match a.runOn s with
  | (.ok v, s') => Q v s'
  | (.error e, s') => E e s'

namespace Ends

variable {a : Action σ ε α} {f : α → Action σ ε β} {s : σ} {Q Q' : α → σ → Prop}
  {R : β → σ → Prop} {E E' : ε → σ → Prop}

theorem pure {v : α} (h : Q v s) : (pure v : Action σ ε α).Ends s Q E := h

theorem throw {e : ε} (h : E e s) : (throw e : Action σ ε α).Ends s Q E := h

theorem change {Q : Unit → σ → Prop} {f : σ → σ} (h : Q () (f s)) :
    (Action.change f : Action σ ε Unit).Ends s Q E := h

theorem get_bind {f : σ → Action σ ε β} (h : (f s).Ends s R E) : (get >>= f).Ends s R E := h

theorem change_bind {f : σ → σ} {a : Action σ ε β} (h : a.Ends (f s) R E) :
    (do Action.change f; a).Ends s R E := h

/-- One action after the other. -/
theorem bind (h : a.Ends s Q E) (hf : ∀ v s', Q v s' → (f v).Ends s' R E) :
    (a >>= f).Ends s R E := by
  unfold Ends at h ⊢
  rw [runOn_bind]
  rcases hrun : a.runOn s with ⟨e | v, s'⟩
  · rw [hrun] at h
    exact h
  · rw [hrun] at h
    exact hf v s' h

/-- One action after another one whose run is known. -/
theorem bind_of_ok {v : α} {s' : σ} (hrun : a.runOn s = (.ok v, s')) (h : (f v).Ends s' R E) :
    (a >>= f).Ends s R E := by
  unfold Ends at h ⊢
  rwa [runOn_bind_ok hrun]

theorem mono (h : a.Ends s Q E) (hQ : ∀ v s', Q v s' → Q' v s') (hE : ∀ e s', E e s' → E' e s') :
    a.Ends s Q' E' := by
  unfold Ends at h ⊢
  rcases hrun : a.runOn s with ⟨e | v, s'⟩ <;> rw [hrun] at h
  · exact hE e s' h
  · exact hQ v s' h

/-- What is taken back where an action fails. -/
theorem orUndo {undo : σ → σ} (h : a.Ends s Q E) (hundo : ∀ e s', E e s' → E' e (undo s')) :
    (a.orUndo undo).Ends s Q E' := by
  unfold Ends runOn Action.orUndo at *
  rcases hrun : a s with ⟨e | v, s'⟩ <;> rw [hrun] at h
  · exact hundo e s' h
  · exact h

theorem of_ok {v : α} {s' : σ} (hrun : a.runOn s = (.ok v, s')) (h : Q v s') : a.Ends s Q E := by
  unfold Ends
  rw [hrun]
  exact h

theorem of_error {e : ε} {s' : σ} (hrun : a.runOn s = (.error e, s')) (h : E e s') :
    a.Ends s Q E := by
  unfold Ends
  rw [hrun]
  exact h

/-- What holds where the action succeeds. -/
theorem ok {v : α} {s' : σ} (h : a.Ends s Q E) (hrun : a.runOn s = (.ok v, s')) : Q v s' := by
  unfold Ends at h
  rwa [hrun] at h

/-- What holds where the action fails. -/
theorem error {e : ε} {s' : σ} (h : a.Ends s Q E) (hrun : a.runOn s = (.error e, s')) : E e s' := by
  unfold Ends at h
  rwa [hrun] at h

/-- An action that cannot fail succeeds. -/
theorem exists_ok (h : a.Ends s Q fun _ _ => False) : ∃ v s', a.runOn s = (.ok v, s') ∧ Q v s' := by
  rcases hrun : a.runOn s with ⟨e | v, s'⟩
  · exact (h.error hrun).elim
  · exact ⟨v, s', rfl, h.ok hrun⟩

/-- What holds in both cases holds of the state that is left. -/
theorem snd {P : σ → Prop} (h : a.Ends s (fun _ => P) fun _ => P) : P (a.runOn s).2 := by
  unfold Ends at h
  rcases hrun : a.runOn s with ⟨e | v, s'⟩ <;> rw [hrun] at h <;> exact h

/-- What holds of the value holds of the value that is given. -/
theorem of_fst {v : α} (h : a.Ends s Q E) (hv : (a.runOn s).1 = .ok v) : Q v (a.runOn s).2 := by
  unfold Ends at h
  rcases hrun : a.runOn s with ⟨e | w, s'⟩
  · rw [hrun] at hv
    exact absurd hv (by simp)
  · rw [hrun] at hv h
    obtain rfl := Except.ok.inj hv
    exact h

end Ends

end Action

end ManagedImage
