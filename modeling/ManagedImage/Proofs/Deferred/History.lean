import ManagedImage.Deferred

/-!
# The history of a deferred value

What happens to a deferred value is told by its events: runs of the loader with their outcomes, values
that are stored, and functions that are applied.  What one call does is said once, as
`CountedDeferred.Step`; that the loader comes through at most once, and never after a value has been
stored, is then a matter of the log.

## Main definitions

* `CountedDeferred.Call` — what can be done with a deferred value.
* `CountedDeferred.Event` — what a history is told in.
* `CountedDeferred.latest?` — the value that a history leaves.
* `CountedDeferred.IsTold` — a deferred value is what its history tells.

## Main results

* `CountedDeferred.step_perform` — what one call does.
* `CountedDeferred.pairwise_run` — the loader is not run again once there is a value.
* `CountedDeferred.isTold_run` — **a deferred value is loaded at most once and can be overridden at
  any time.**
-/

namespace ManagedImage

namespace CountedDeferred

variable {ε α : Type}

/-! ### Calls and events -/

/-- What can be done with a deferred value. -/
inductive Call (α : Type) where
  /-- Reads the value. -/
  | get
  /-- Replaces the value. -/
  | set (value : α)
  /-- Replaces the value by its image. -/
  | update (f : α → α)
  /-- Looks whether the value is there. -/
  | peek

/-- What a history is told in. -/
inductive Event (ε α : Type) where
  /-- The loader was run, and ended like this. -/
  | ran (outcome : Except ε α)
  /-- A value was stored. -/
  | stored (value : α)
  /-- The value was replaced by its image. -/
  | applied (f : α → α)

namespace Event

/-- The loader was run. -/
def isRun : Event ε α → Bool
  | ran _ => true
  | stored _ | applied _ => false

/-- There is a value from here on, whatever was there before. -/
def settles : Event ε α → Bool
  | ran (.ok _) | stored _ => true
  | ran (.error _) | applied _ => false

/-- The value that an event leaves, given the one that was there. -/
def leave (value? : Option α) : Event ε α → Option α
  | ran (.ok value) | stored value => some value
  | ran (.error _) => value?
  | applied f => value?.map f

end Event

/-- The value that was left by the latest event that left one. -/
def latest? (value? : Option α) (log : List (Event ε α)) : Option α := log.foldl Event.leave value?

theorem latest?_append (value? : Option α) (log log' : List (Event ε α)) :
    latest? value? (log ++ log') = latest? (latest? value? log) log' := List.foldl_append

namespace Call

/-- Makes a call, which fails, or gives a value if it has one to tell. -/
def action : Call α → Action (CountedDeferred ε α) ε (Option α)
  | get => do return some (← CountedDeferred.get)
  | set value => do
    CountedDeferred.set value
    return none
  | update f => do return some (← CountedDeferred.update f)
  | peek => Action.ask fun d => d.value.peek?

/-- What a call gives and leaves. -/
def perform (d : CountedDeferred ε α) (c : Call α) : Except ε (Option α) × CountedDeferred ε α :=
  c.action.runOn d

/-- The events of a call that gave `result` and left `d'`: the runs of the loader that were counted,
and then what was stored or applied. -/
def told (d : CountedDeferred ε α) (c : Call α) (result : Except ε (Option α))
    (d' : CountedDeferred ε α) : List (Event ε α) :=
  ((List.range' d.loads (d'.loads - d.loads)).map fun n => .ran (d.outcome n)) ++
    match c, result with
    | set value, _ => [.stored value]
    | update f, .ok _ => [.applied f]
    | _, _ => []

/-- The events of a call. -/
def events (d : CountedDeferred ε α) (c : Call α) : List (Event ε α) :=
  c.told d (c.perform d).1 (c.perform d).2

/-- The call needs a value to be there. -/
def Needs : Call α → Prop
  | get | update _ => True
  | set _ | peek => False

end Call

/-! ### One call -/

/-- What a call does, with its events. -/
inductive Step (d : CountedDeferred ε α) :
    Call α → List (Event ε α) → Except ε (Option α) → CountedDeferred ε α → Prop where
  /-- A value that is there is read. -/
  | read {value : α} (h : d.value = .evaluated value) : Step d .get [] (.ok (some value)) d
  /-- The value is loaded and read. -/
  | load {value : α} (h : d.value = .unevaluated) (hrun : d.outcome d.loads = .ok value) :
    Step d .get [.ran (.ok value)] (.ok (some value))
      { d with value := .evaluated value, loads := d.loads + 1 }
  /-- The value cannot be loaded. -/
  | fail {e : ε} (h : d.value = .unevaluated) (hrun : d.outcome d.loads = .error e) :
    Step d .get [.ran (.error e)] (.error e) { d with loads := d.loads + 1 }
  /-- A value is stored. -/
  | store (value : α) :
    Step d (.set value) [.stored value] (.ok none) { d with value := .evaluated value }
  /-- A value that is there is replaced. -/
  | apply {value : α} (f : α → α) (h : d.value = .evaluated value) :
    Step d (.update f) [.applied f] (.ok (some (f value)))
      { d with value := .evaluated (f value) }
  /-- The value is loaded and replaced. -/
  | loadApply {value : α} (f : α → α) (h : d.value = .unevaluated)
    (hrun : d.outcome d.loads = .ok value) :
    Step d (.update f) [.ran (.ok value), .applied f] (.ok (some (f value)))
      { d with value := .evaluated (f value), loads := d.loads + 1 }
  /-- The value that was to be replaced cannot be loaded. -/
  | failApply {e : ε} (f : α → α) (h : d.value = .unevaluated)
    (hrun : d.outcome d.loads = .error e) :
    Step d (.update f) [.ran (.error e)] (.error e) { d with loads := d.loads + 1 }
  /-- Looking changes nothing. -/
  | look : Step d .peek [] (.ok d.value.peek?) d

variable {d d' start : CountedDeferred ε α} {c : Call α} {log : List (Event ε α)}

variable {value : α} {e : ε}

theorem runOn_get_of_evaluated (h : d.value = .evaluated value) : get.runOn d = (.ok value, d) := by
  have hcell : cell.get d = .evaluated value := h
  rw [get, Deferred.runOn_force, hcell]

theorem runOn_get_of_ok (h : d.value = .unevaluated) (hrun : d.outcome d.loads = .ok value) :
    get.runOn d = (.ok value, { d with value := .evaluated value, loads := d.loads + 1 }) := by
  have hcell : cell.get d = .unevaluated := h
  have hload : load.runOn d = (.ok value, { d with loads := d.loads + 1 }) := by rw [← hrun]; rfl
  simp only [get, Deferred.runOn_force, hcell, hload]
  rfl

theorem runOn_get_of_error (h : d.value = .unevaluated) (hrun : d.outcome d.loads = .error e) :
    get.runOn d = (.error e, { d with loads := d.loads + 1 }) := by
  have hcell : cell.get d = .unevaluated := h
  have hload : load.runOn d = (.error e, { d with loads := d.loads + 1 }) := by rw [← hrun]; rfl
  simp only [get, Deferred.runOn_force, hcell, hload]

theorem runOn_update_of_ok (f : α → α) (h : get.runOn d = (.ok value, d')) :
    (update f).runOn d = (.ok (f value), { d' with value := .evaluated (f value) }) := by
  rw [get] at h
  rw [update, Deferred.runOn_update, h]
  rfl

theorem runOn_update_of_error (f : α → α) (h : get.runOn d = (.error e, d')) :
    (update f).runOn d = (.error e, d') := by
  rw [get] at h
  rw [update, Deferred.runOn_update, h]

theorem step_of_perform {result : Except ε (Option α)} (hperform : c.perform d = (result, d'))
    (hstep : Step d c (c.told d result d') result d') :
    Step d c (c.events d) (c.perform d).1 (c.perform d).2 := by
  rw [Call.events, hperform]
  exact hstep

/-- **What one call does.** -/
theorem step_perform (d : CountedDeferred ε α) (c : Call α) :
    Step d c (c.events d) (c.perform d).1 (c.perform d).2 := by
  cases c with
  | get =>
    cases hvalue : d.value with
    | evaluated v =>
      have hget := runOn_get_of_evaluated hvalue
      refine step_of_perform (Action.runOn_bind_ok hget) ?_
      simpa [Call.told] using Step.read hvalue
    | unevaluated =>
      cases hrun : d.outcome d.loads with
      | ok v =>
        have hget := runOn_get_of_ok hvalue hrun
        refine step_of_perform (Action.runOn_bind_ok hget) ?_
        simpa [Call.told, hrun] using Step.load hvalue hrun
      | error e =>
        have hget := runOn_get_of_error hvalue hrun
        refine step_of_perform (Action.runOn_bind_error hget) ?_
        simpa [Call.told, hrun] using Step.fail hvalue hrun
  | set v =>
    have hperform : (Call.set v).perform d = (.ok none, { d with value := .evaluated v }) := rfl
    refine step_of_perform hperform ?_
    simpa [Call.told] using Step.store v
  | update f =>
    cases hvalue : d.value with
    | evaluated v =>
      have hget := runOn_get_of_evaluated hvalue
      refine step_of_perform (Action.runOn_bind_ok (runOn_update_of_ok f hget)) ?_
      simpa [Call.told] using Step.apply f hvalue
    | unevaluated =>
      cases hrun : d.outcome d.loads with
      | ok v =>
        have hget := runOn_get_of_ok hvalue hrun
        refine step_of_perform (Action.runOn_bind_ok (runOn_update_of_ok f hget)) ?_
        simpa [Call.told, hrun] using Step.loadApply f hvalue hrun
      | error e =>
        have hget := runOn_get_of_error hvalue hrun
        refine step_of_perform (Action.runOn_bind_error (runOn_update_of_error f hget)) ?_
        simpa [Call.told, hrun] using Step.failApply f hvalue hrun
  | peek =>
    refine step_of_perform rfl ?_
    simpa [Call.told] using Step.look

namespace Step

variable {events : List (Event ε α)} {result : Except ε (Option α)}

/-- The value is the one that the events leave. -/
theorem peek?_eq (h : Step d c events result d') :
    d'.value.peek? = latest? d.value.peek? events := by
  cases h <;> simp [latest?, Event.leave, *]

/-- The loader stays the same, and its runs are counted. -/
theorem loads_eq (h : Step d c events result d') :
    d'.outcome = d.outcome ∧ d'.loads = d.loads + events.countP (·.isRun) := by
  cases h <;> exact ⟨rfl, rfl⟩

/-- A value that is there stays there, and the loader is not run. -/
theorem not_isRun (h : Step d c events result d') (hvalue : d.value.isEvaluated) :
    d'.value.isEvaluated ∧ ∀ x ∈ events, ¬x.isRun := by
  cases h <;> simp_all [Deferred.isEvaluated, Event.isRun]

/-- An event that settles leaves a value, and the loader is not run after it. -/
theorem settled (h : Step d c events result d') :
    (∀ x ∈ events, x.settles → d'.value.isEvaluated) ∧
      events.Pairwise fun x y => x.settles → ¬y.isRun := by
  cases h <;> simp [Event.settles, Event.isRun, Deferred.isEvaluated]

/-- The loader is run for a value that is needed and not there. -/
theorem ran_mem_iff (h : Step d c events result d') {outcome : Except ε α} :
    .ran outcome ∈ events ↔
      c.Needs ∧ d.value = .unevaluated ∧ outcome = d.outcome d.loads := by
  cases h <;> simp_all [Call.Needs]

/-- A run that fails is told, and leaves everything but the count. -/
theorem of_ran_error (h : Step d c events result d') (hrun : .ran (.error e) ∈ events) :
    result = .error e ∧ d' = { d with loads := d.loads + 1 } := by
  cases h <;> simp_all

/-- Nothing else fails. -/
theorem ran_error_mem (h : Step d c events result d') (herror : result = .error e) :
    .ran (.error e) ∈ events := by
  cases h <;> simp_all

/-- What is read is the value that is there then. -/
theorem get_eq {value? : Option α} (h : Step d .get events (.ok value?) d') :
    value?.isSome ∧ value? = d'.value.peek? := by
  cases h <;> simp_all

end Step

/-! ### Many calls -/

/-- Makes calls one after the other, whether they succeed or not, and tells their events. -/
def run : List (Call α) → CountedDeferred ε α → List (Event ε α) × CountedDeferred ε α
  | [], d => ([], d)
  | c :: calls, d =>
    let (log, d') := run calls (c.perform d).2
    (c.events d ++ log, d')

/-- The value is the one that the log leaves. -/
theorem peek?_run (calls : List (Call α)) (d : CountedDeferred ε α) :
    (run calls d).2.value.peek? = latest? d.value.peek? (run calls d).1 := by
  induction calls generalizing d with
  | nil => rfl
  | cons c calls ih =>
    rw [run, latest?_append, ← (step_perform d c).peek?_eq]
    exact ih _

/-- The runs of the loader are counted. -/
theorem loads_run (calls : List (Call α)) (d : CountedDeferred ε α) :
    (run calls d).2.outcome = d.outcome ∧
      (run calls d).2.loads = d.loads + (run calls d).1.countP (·.isRun) := by
  induction calls generalizing d with
  | nil => exact ⟨rfl, rfl⟩
  | cons c calls ih =>
    obtain ⟨houtcome, hloads⟩ := (step_perform d c).loads_eq
    obtain ⟨houtcome', hloads'⟩ := ih (c.perform d).2
    rw [run, List.countP_append, ← Nat.add_assoc, ← hloads]
    exact ⟨houtcome'.trans houtcome, hloads'⟩

/-- A value that is there is not loaded again, whatever is called. -/
theorem not_isRun_run (calls : List (Call α)) (hvalue : d.value.isEvaluated) :
    ∀ x ∈ (run calls d).1, ¬x.isRun := by
  induction calls generalizing d with
  | nil => exact List.forall_mem_nil _
  | cons c calls ih =>
    obtain ⟨hvalue', hfirst⟩ := (step_perform d c).not_isRun hvalue
    exact List.forall_mem_append.mpr ⟨hfirst, ih hvalue'⟩

/-- **The loader is not run again once there is a value.** -/
theorem pairwise_run (calls : List (Call α)) (d : CountedDeferred ε α) :
    (run calls d).1.Pairwise fun x y => x.settles → ¬y.isRun := by
  induction calls generalizing d with
  | nil => exact List.Pairwise.nil
  | cons c calls ih =>
    obtain ⟨hsettled, hpairwise⟩ := (step_perform d c).settled
    -- an event of this call that settles leaves a value, which all later calls find
    refine List.pairwise_append.mpr ⟨hpairwise, ih _, fun x hx y hy hsettles => ?_⟩
    exact not_isRun_run calls (hsettled x hx hsettles) y hy

/-- The deferred value `d` is what `start` became through the events of a log, and calls do to it what
they should. -/
structure IsTold (start d : CountedDeferred ε α) (log : List (Event ε α)) : Prop where
  /-- The value is the one that the latest event left. -/
  peek?_eq : d.value.peek? = latest? start.value.peek? log
  /-- All runs of the loader are in the log. -/
  loads_eq : d.outcome = start.outcome ∧ d.loads = start.loads + log.countP (·.isRun)
  /-- The loader is not run after it has come through or a value has been stored. -/
  settled : log.Pairwise fun x y => x.settles → ¬y.isRun
  /-- It is not run at all if there was a value from the start. -/
  ready : start.value.isEvaluated → ∀ x ∈ log, ¬x.isRun
  /-- A call runs the loader if it needs a value and there is none. -/
  ran_mem_iff : ∀ (c : Call α) outcome, .ran outcome ∈ c.events d ↔
    c.Needs ∧ d.value = .unevaluated ∧ outcome = d.outcome d.loads
  /-- A run that fails is told, and leaves everything but the count. -/
  failed : ∀ (c : Call α) e, .ran (.error e) ∈ c.events d →
    c.perform d = (.error e, { d with loads := d.loads + 1 })
  /-- Nothing else fails. -/
  ran_of_error : ∀ (c : Call α) e, (c.perform d).1 = .error e → .ran (.error e) ∈ c.events d
  /-- What is read is the latest value, which may be what this very call has loaded. -/
  get_eq : ∀ value?, (Call.get.perform d).1 = .ok value? →
    value?.isSome ∧ value? = latest? start.value.peek? (log ++ Call.get.events d)
  /-- Looking shows the value and changes nothing. -/
  peek_eq : Call.peek.perform d = (.ok d.value.peek?, d)

/-- **A deferred value is loaded at most once and can be overridden at any time**, whatever it starts
with, however its loads end and whatever is called. -/
theorem isTold_run (start : CountedDeferred ε α) (calls : List (Call α)) :
    start.IsTold (run calls start).2 (run calls start).1 where
  peek?_eq := peek?_run calls start
  loads_eq := loads_run calls start
  settled := pairwise_run calls start
  ready := not_isRun_run calls
  ran_mem_iff c _ := (step_perform _ c).ran_mem_iff
  failed c e hrun := by
    obtain ⟨hresult, hleft⟩ := (step_perform _ c).of_ran_error hrun
    exact Prod.ext hresult hleft
  ran_of_error c _ := (step_perform _ c).ran_error_mem
  get_eq value? hget := by
    have hstep := step_perform (run calls start).2 .get
    rw [latest?_append, ← peek?_run, ← hstep.peek?_eq]
    rw [hget] at hstep
    exact hstep.get_eq
  peek_eq := rfl

/-- A load that fails once is run again by the next call that needs the value, and not after that. -/
example :
    let start : CountedDeferred String Nat :=
      ofOutcomes fun n => if n = 0 then .error "gone" else .ok n
    let d := (run [.get, .update (· + 5), .get, .peek] start).2
    d.value = .evaluated 6 ∧ d.loads = 2 := ⟨rfl, rfl⟩

end CountedDeferred

end ManagedImage
