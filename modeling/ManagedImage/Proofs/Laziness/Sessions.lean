import ManagedImage.Proofs.Laziness.Reports
import ManagedImage.Session.Run

/-!
# Twin sessions

The users of two sessions over twin graphs hold the same entities.  What they hold exists, or is known
to have gone, so a name stands for the same in both.

## Main definitions

* `Session.Twins` — two sessions over twin graphs, with the same handles and walks.
* `Session.twins` — twin sessions side by side.

## Main results

* `Session.Twins.onGraph` — what is done to the graphs is done to the sessions.
* `Session.Twins.entity`, `Session.Twins.valueOf` — what a command names.
* `Session.Twins.hold`, `Session.Twins.letGo`, `Session.Twins.keepWalk` — what the user holds.
-/

namespace ManagedImage

namespace Session

variable {image : MetadataImage} {s t : Session}

theorem runOn_onGraph_ok {α : Type} {a : GraphAction α} {s : Session} {g : Graph} {value : α}
    (h : a.runOn s.graph = (.ok value, g)) :
    (onGraph a).runOn s = (.ok value, { s with graph := g }) := by
  obtain ⟨graph, handles, walks⟩ := s
  unfold Action.runOn at h ⊢
  unfold onGraph
  dsimp only at h ⊢
  rw [h]

theorem runOn_onGraph_error {α : Type} {a : GraphAction α} {s : Session} {g : Graph} {e : Error}
    (h : a.runOn s.graph = (.error e, g)) :
    (onGraph a).runOn s = (.error (.error e), { s with graph := g }) := by
  obtain ⟨graph, handles, walks⟩ := s
  unfold Action.runOn at h ⊢
  unfold onGraph
  dsimp only at h ⊢
  rw [h]

/-- The graphs of two sessions are twins, and their users hold the same entities. -/
structure Twins (image : MetadataImage) (s t : Session) : Prop where
  /-- The graphs are twins. -/
  graph : Graph.Twins image s.graph t.graph
  /-- The handles are the same. -/
  handles : t.handles = s.handles
  /-- The walks are the same. -/
  walks : t.walks = s.walks
  /-- What a handle keeps exists. -/
  strong : ∀ (name : String) (r : AnyRef), s.handles[name]? = some (.strong r) → s.graph.isAlive r
  /-- What a handle does not keep is known. -/
  weak : ∀ (name : String) (r : AnyRef), s.handles[name]? = some (.weak r) → s.graph.IsKnown r
  /-- What a walk has still to visit exists. -/
  pending : ∀ (name : String) (walk : Traversal), s.walks[name]? = some walk →
    ∀ q ∈ walk.pending, s.graph.isAlive q.1.any

/-- Twin sessions side by side, during a command. -/
def twins (image : MetadataImage) : Pairing Session where
  related := Twins image
  keeps s s' := s.graph.Keeps s'.graph
  refl s := .refl s.graph
  trans := .trans

namespace Twins

/-- What is done to the graphs only leaves the rest of twin sessions as it is. -/
theorem withGraph (h : Twins image s t) {g e : Graph} (hkeeps : s.graph.Keeps g)
    (hg : Graph.Twins image g e) : Twins image { s with graph := g } { t with graph := e } where
  graph := hg
  handles := h.handles
  walks := h.walks
  strong name r hr := hkeeps.alive r (h.strong name r hr)
  weak name r hr := hkeeps.isKnown (h.weak name r hr)
  pending name walk hw q hq := hkeeps.alive _ (h.pending name walk hw q hq)

variable {α : Type} {E : Error → Prop} {Q : α → Graph → Prop}

/-- **An action on the graphs** of twin sessions. -/
theorem onGraph (h : Twins image s t) {a : GraphAction α}
    (ha : (Graph.twins image).Matches a s.graph t.graph Q E) :
    (twins image).Matches (onGraph a) s t (fun v s' => Q v s'.graph) fun _ => True := by
  obtain ⟨r, g, e, hs, ht, hkeeps, hrel, hr⟩ := ha
  have hrel' := h.withGraph hkeeps hrel
  cases r with
  | error x => exact .of_error (runOn_onGraph_error hs) (runOn_onGraph_error ht) hkeeps hrel' trivial
  | ok v => exact .of_ok (runOn_onGraph_ok hs) (runOn_onGraph_ok ht) hkeeps hrel' hr

theorem onGraphState (h : Twins image s t) {a : StateM Graph α}
    (ha : (Graph.twins image).Agrees a s.graph t.graph Q) :
    (twins image).Matches (onGraphState a) s t (fun v s' => Q v s'.graph) fun _ => True := by
  obtain ⟨v, g, e, hs, ht, hkeeps, hrel, hv⟩ := ha
  refine ⟨.ok v, { s with graph := g }, { t with graph := e }, ?_, ?_, hkeeps,
    h.withGraph hkeeps hrel, hv⟩
  · change (Except.ok (a s.graph).1, { s with graph := (a s.graph).2 }) = _
    rw [hs]
  · change (Except.ok (a t.graph).1, { t with graph := (a t.graph).2 }) = _
    rw [ht]

theorem asking (h : Twins image s t) {f : Graph → α} (hf : f t.graph = f s.graph)
    (hQ : Q (f s.graph) s.graph) :
    (twins image).Matches (asking f) s t (fun v s' => Q v s'.graph) fun _ => True :=
  .ask h hf hQ

theorem refuse (h : Twins image s t) (r : Refusal) {Q : α → Session → Prop} :
    (twins image).Matches (refuse r : SessionAction α) s t Q fun _ => True :=
  .throw h trivial

/-! ### Names of entities -/

theorem theImage (h : Twins image s t) :
    (twins image).Matches Session.image s t (fun i _ => i = image) fun _ => True := by
  unfold Session.image
  have hask : (twins image).Matches (Session.asking (·.image?)) s t
      (fun v _ => v = some image) fun _ => True :=
    .ask h (h.graph.image_right.trans h.graph.image_left.symm) h.graph.image_left
  refine hask.bind fun i s₁ t₁ _ h₁ hi => ?_
  subst hi
  exact .pure h₁ rfl

theorem resolve (h : Twins image s t) (token : Token) :
    (twins image).Matches (resolve token) s t (fun r s' => ∀ x ∈ r, s'.graph.isAlive x)
      fun _ => True := by
  unfold Session.resolve
  exact h.theImage.bind fun _ s₁ t₁ _ h₁ _ => h₁.onGraphState (h₁.graph.resolve token)

theorem handle? (h : Twins image s t) (name : Literal) :
    (twins image).Matches (handle? name) s t (fun v s' =>
      (∀ r, v = some (.strong r) → s'.graph.isAlive r) ∧
        ∀ r, v = some (.weak r) → s'.graph.IsKnown r) fun _ => True := by
  refine .ask h (by rw [h.handles]) ⟨fun r hr => ?_, fun r hr => ?_⟩
  · obtain ⟨text, -, hr⟩ := Option.bind_eq_some_iff.mp hr
    exact h.strong text r hr
  · obtain ⟨text, -, hr⟩ := Option.bind_eq_some_iff.mp hr
    exact h.weak text r hr

/-- **The entity that a value names** exists. -/
theorem entity (h : Twins image s t) (name : Literal) :
    (twins image).Matches (entity name) s t (fun r s' => s'.graph.isAlive r) fun _ => True := by
  unfold Session.entity
  cases name with
  | text text =>
    refine (h.handle? (.text text)).bind fun v s₁ t₁ _ h₁ hv => ?_
    rcases v with _ | r | r
    · exact h₁.refuse _
    · exact .pure h₁ (hv.1 r rfl)
    · exact h₁.refuse _
  | number n =>
    refine (h.resolve ⟨UInt32.ofNat n⟩).bind fun r s₁ t₁ _ h₁ hr => ?_
    cases r with
    | none => exact h₁.refuse _
    | some r => exact .pure h₁ (hr r rfl)
  | _ => exact h.refuse _

theorem entityOf (h : Twins image s t) (k : EntityKind) (name : Literal) :
    (twins image).Matches (entityOf k name) s t (fun r s' => s'.graph.isAlive r.any)
      fun _ => True := by
  unfold Session.entityOf
  refine (h.entity name).bind fun r s₁ t₁ _ h₁ hr => ?_
  cases hk : r.as? k with
  | none => exact h₁.refuse _
  | some r' =>
    obtain rfl := AnyRef.as?_eq_some_iff.mp hk
    exact .pure h₁ hr

/-- The value that is written in a command refers to what exists. -/
theorem valueOf (h : Twins image s t) (value : Literal) (k : ValueKind) :
    (twins image).Matches (valueOf value k) s t (fun v s' => ∀ r ∈ k.refs v, s'.graph.isAlive r)
      fun _ => True := by
  cases k with
  | reference =>
    cases value with
    | null => exact .pure h nofun
    | _ =>
      refine (h.entity _).bind fun r s₁ t₁ _ h₁ hr => .pure h₁ fun x hx => ?_
      rw [List.mem_singleton.mp hx]
      exact hr
  -- a value of any other kind refers to nothing
  | word | dword =>
    cases value with
    | number n => exact .pure h nofun
    | _ => exact h.refuse _
  | text =>
    cases value with
    | text text => exact .pure h nofun
    | _ => exact h.refuse _
  | bytes =>
    cases value with
    | text text =>
      unfold Session.valueOf
      dsimp only
      cases Hex.bytes? text with
      | none => exact h.refuse _
      | some b => exact .pure h nofun
    | _ => exact h.refuse _
  | guid =>
    cases value with
    | null => exact .pure h nofun
    | text text =>
      unfold Session.valueOf
      dsimp only
      cases (Hex.bytes? text).bind fun b => Guid.ofList? b.toList with
      | none => exact h.refuse _
      | some id => exact .pure h nofun
    | _ => exact h.refuse _
  | version =>
    unfold Session.valueOf
    dsimp only
    split
    · exact .pure h nofun
    · exact h.refuse _

/-! ### Names of attributes and lists -/

theorem named {β : Type} (h : Twins image s t) (f : String → Option β) (name : Literal) :
    (twins image).Matches (named f name) s t (fun a _ => ∃ text, f text = some a)
      fun _ => True := by
  unfold Session.named
  cases ha : name.text?.bind f with
  | none => exact h.refuse _
  | some a =>
    obtain ⟨text, -, hf⟩ := Option.bind_eq_some_iff.mp ha
    exact .pure h ⟨text, hf⟩

theorem property (h : Twins image s t) (r : AnyRef) (name : Literal) :
    (twins image).Matches (property r name) s t
      (fun p _ => Graph.MirrorsPart image p.part p.valueKind.refs) fun _ => True :=
  (h.named (Property.ofName? r.kind) name).weaken fun _ _ _ ⟨_, hp⟩ =>
    Graph.mirrorsPart_table _ (mem_of_lookup hp)

theorem listProperty (h : Twins image s t) (r : AnyRef) (name : Literal) :
    (twins image).Matches (listProperty r name) s t
      (fun list _ => Graph.MirrorsList image list) fun _ => True :=
  (h.named (ListProperty.ofName? r.kind) name).weaken fun _ _ _ ⟨_, hlist⟩ =>
    Graph.mirrorsList_table _ (mem_of_lookup hlist)

/-- A value is shown once what it refers to is known. -/
theorem answer (h : Twins image s t) {k : ValueKind} {v : k.Value}
    (hv : ∀ r ∈ k.refs v, s.graph.IsKnown r) :
    (twins image).Matches (Session.asking fun g => k.answer g v) s t
      (fun a s' => a.IsLiving s'.graph) fun _ => True :=
  h.asking (h.graph.answer_eq hv) (Graph.isLiving_answer s.graph k v)

/-! ### Handles and walks -/

theorem hold (h : Twins image s t) (name : String) {handle : Handle}
    (hstrong : ∀ r, handle = .strong r → s.graph.isAlive r)
    (hweak : ∀ r, handle = .weak r → s.graph.IsKnown r) :
    Twins image (Session.hold name handle s) (Session.hold name handle t) where
  graph := h.graph
  handles := congrArg (·.insert name handle) h.handles
  walks := h.walks
  strong other r hr := by
    change (s.handles.insert name handle)[other]? = _ at hr
    rw [Std.HashMap.getElem?_insert] at hr
    split at hr
    · exact hstrong r (Option.some.inj hr)
    · exact h.strong other r hr
  weak other r hr := by
    change (s.handles.insert name handle)[other]? = _ at hr
    rw [Std.HashMap.getElem?_insert] at hr
    split at hr
    · exact hweak r (Option.some.inj hr)
    · exact h.weak other r hr
  pending := h.pending

theorem letGo (h : Twins image s t) (name : String) :
    Twins image (Session.letGo name s) (Session.letGo name t) where
  graph := h.graph
  handles := congrArg (·.erase name) h.handles
  walks := h.walks
  strong other r hr := by
    change (s.handles.erase name)[other]? = _ at hr
    rw [Std.HashMap.getElem?_erase] at hr
    split at hr
    · exact nomatch hr
    · exact h.strong other r hr
  weak other r hr := by
    change (s.handles.erase name)[other]? = _ at hr
    rw [Std.HashMap.getElem?_erase] at hr
    split at hr
    · exact nomatch hr
    · exact h.weak other r hr
  pending := h.pending

theorem keepWalk (h : Twins image s t) (name : String) {walk : Traversal}
    (hwalk : ∀ q ∈ walk.pending, s.graph.isAlive q.1.any) :
    Twins image (Session.keepWalk name walk s) (Session.keepWalk name walk t) where
  graph := h.graph
  handles := h.handles
  walks := congrArg (·.insert name walk) h.walks
  strong := h.strong
  weak := h.weak
  pending other walk' hw := by
    change (s.walks.insert name walk)[other]? = _ at hw
    rw [Std.HashMap.getElem?_insert] at hw
    split at hw
    · exact Option.some.inj hw ▸ hwalk
    · exact h.pending other walk' hw

end Twins

end Session

end ManagedImage
