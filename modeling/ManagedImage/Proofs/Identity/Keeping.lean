import ManagedImage.Action

/-!
# What every run keeps

Some relation leads from each state to every later one, whatever is done in between and whether or
not it fails.  To say so of an action it is enough to say it of the actions that it is made of.

## Main definitions

* `Keeping σ` — what is kept from one state to a later one.
* `Keeping.Along`, `Keeping.Through` — an action keeps it, for actions that never fail and for
  actions that may.

## Main results

* `Keeping.Along.bind`, `Keeping.Through.bind` — one action after the other.
* `Keeping.Along.mapM` — an action for each element of a list.
-/

namespace ManagedImage

/-- What is kept from one state to a later one. -/
structure Keeping (σ : Type) where
  /-- It is kept from the first state to the second one. -/
  keeps : σ → σ → Prop
  refl : ∀ s, keeps s s
  trans : ∀ {s s' s''}, keeps s s' → keeps s' s'' → keeps s s''

namespace Keeping

variable {σ ε α β : Type} {K : Keeping σ}

/-- The action keeps it, whatever state it is run in. -/
def Along (K : Keeping σ) (a : StateM σ α) : Prop := ∀ s, K.keeps s (a s).2

/-- The action keeps it, whatever state it is run in and whether or not it fails. -/
def Through (K : Keeping σ) (a : Action σ ε α) : Prop := K.Along a.run

namespace Along

variable {a : StateM σ α} {f : α → StateM σ β}

theorem pure (v : α) : K.Along (Pure.pure v) := K.refl

/-- One action after the other. -/
theorem bind (ha : K.Along a) (hf : ∀ v, K.Along (f v)) : K.Along (a >>= f) :=
  fun s => K.trans (ha s) (hf (a s).1 (a s).2)

theorem get : K.Along MonadState.get := K.refl

theorem modify {f : σ → σ} (h : ∀ s, K.keeps s (f s)) : K.Along (modify f : StateM σ PUnit) := h

/-- An action for each element of a list. -/
theorem mapM {f : α → StateM σ β} {l : List α} (hf : ∀ x ∈ l, K.Along (f x)) :
    K.Along (l.mapM f) := by
  induction l with
  | nil =>
    rw [List.mapM_nil]
    exact pure []
  | cons x l ih =>
    rw [List.mapM_cons]
    refine (hf x List.mem_cons_self).bind fun v => ?_
    exact (ih fun y hy => hf y (List.mem_cons_of_mem x hy)).bind fun vs => pure (v :: vs)

end Along

namespace Through

variable {a : Action σ ε α} {f : α → Action σ ε β}

theorem of_runOn (h : ∀ s, K.keeps s (a.runOn s).2) : K.Through a := h

theorem runOn (h : K.Through a) (s : σ) : K.keeps s (a.runOn s).2 := h s

theorem pure (v : α) : K.Through (Pure.pure v : Action σ ε α) := K.refl

theorem throw (e : ε) : K.Through (throw e : Action σ ε α) := K.refl

theorem get : K.Through (MonadState.get : Action σ ε σ) := K.refl

theorem ask (f : σ → α) : K.Through (Action.ask f : Action σ ε α) := K.refl

theorem change {f : σ → σ} (h : ∀ s, K.keeps s (f s)) :
    K.Through (Action.change f : Action σ ε Unit) := h

/-- One action after the other, when it is known what the first one may give. -/
theorem bind_of {Q : α → Prop} (ha : K.Through a)
    (hQ : ∀ s v s', a.runOn s = (.ok v, s') → Q v) (hf : ∀ v, Q v → K.Through (f v)) :
    K.Through (a >>= f) := by
  refine of_runOn fun s => ?_
  have hone := ha.runOn s
  rcases h : a.runOn s with ⟨e | v, s'⟩ <;> rw [h] at hone
  · rw [Action.runOn_bind_error h]
    exact hone
  · rw [Action.runOn_bind_ok h]
    exact K.trans hone ((hf v (hQ s v s' h)).runOn s')

/-- One action after the other. -/
theorem bind (ha : K.Through a) (hf : ∀ v, K.Through (f v)) : K.Through (a >>= f) :=
  ha.bind_of (Q := fun _ => True) (fun _ _ _ _ => trivial) fun v _ => hf v

/-- Nothing is done after an error. -/
theorem throw_bind (e : ε) : K.Through ((MonadExcept.throw e : Action σ ε α) >>= f) :=
  of_runOn fun s => K.refl s

theorem map {f : α → β} (ha : K.Through a) : K.Through (f <$> a) := by
  rw [map_eq_pure_bind]
  exact ha.bind fun v => pure (f v)

/-- Taking something back may happen too. -/
theorem orUndo {undo : σ → σ} (ha : K.Through a) (hundo : ∀ s, K.keeps s (undo s)) :
    K.Through (a.orUndo undo) := by
  intro s
  have hone := ha s
  change K.keeps s (a.orUndo undo s).2
  change K.keeps s (a s).2 at hone
  unfold Action.orUndo
  rcases h : a s with ⟨e | v, s'⟩ <;> rw [h] at hone
  · exact K.trans hone (hundo s')
  · exact hone

end Through

end Keeping

end ManagedImage
