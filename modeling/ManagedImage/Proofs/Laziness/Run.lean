import ManagedImage.Proofs.Graph.Opening
import ManagedImage.Proofs.Laziness.Commands
import ManagedImage.Proofs.Laziness.Sweeping

/-!
# Loading is not seen in a session

A session over a decoded image answers every request as the session does that has loaded everything
beforehand.  So it makes no difference when an attribute is loaded, whatever has been moved, written
or authored in the meantime.

## Main definitions

* `Session.startEager` — a session over the eager graph of an image.

## Main results

* `Session.Twins.perform` — a request on twin sessions.
* `Session.laziness_unobservable` — a whole run of requests.
-/

namespace ManagedImage

namespace Graph

/-- To begin with, a graph over a decoded image and the eager graph are twins. -/
theorem twins_eager {image : MetadataImage} {config : Config} {source : MetadataStreams}
    (h : MetadataImage.decode config source = .ok image) :
    Twins image (empty (some image)) (eager image) := by
  have hsound := sound_empty_image h
  have hdecoded : ∀ i ∈ some image, i.tables.IsDecoded := fun i hi =>
    Option.some.inj hi ▸ MetadataImage.isDecoded_of_decode h
  have hreads := readsTo_eager hsound
  have hload := hreads.loadsTo hsound
  exact {
    complete := fun r hr => hr.exists_row (MetadataImage.isDecoded_of_decode h)
    sound := hsound
    readable := fun _ p _ hp hr => exists_value_of_isEdge hdecoded hp hr
    image_left := rfl
    image_right := hload.image
    number := hload.number
    present := hload.present
    value := hload.value
    limit := hreads.limit_eq
    eager := isEager_eager hsound }

end Graph

namespace Session

variable {image : MetadataImage} {s t : Session}

/-- A session over the eager graph of an image. -/
def startEager (image : MetadataImage) : Session :=
  { start (some image) with graph := .eager image }

/-- Twin sessions side by side, from request to request. -/
def runs (image : MetadataImage) : Pairing Session where
  related := Twins image
  keeps _ _ := True
  refl _ := trivial
  trans _ _ := trivial

/-! ### What the user holds -/

theorem mem_foldl_append {α β : Type} {f : β → List α} {l : List β} {found : List α} {x : α} :
    x ∈ l.foldl (fun found b => f b ++ found) found ↔ x ∈ found ∨ ∃ b ∈ l, x ∈ f b := by
  induction l generalizing found with
  | nil => simp
  | cons b l ih =>
    rw [List.foldl_cons, ih, List.mem_append, List.exists_mem_cons_iff, or_comm (a := x ∈ f b),
      or_assoc]

theorem mem_held_iff {r : AnyRef} :
    r ∈ s.held ↔ (∃ (name : String) (h : Handle), s.handles[name]? = some h ∧ r ∈ h.held) ∨
      ∃ (name : String) (walk : Traversal), s.walks[name]? = some walk ∧ r ∈ walk.held := by
  have hhandles : ∀ {l : List (String × Handle)} {found : List AnyRef},
      r ∈ l.foldl (fun found p => p.2.held ++ found) found ↔ r ∈ found ∨ ∃ p ∈ l, r ∈ p.2.held :=
    mem_foldl_append
  have hwalks : ∀ {l : List (String × Traversal)} {found : List AnyRef},
      r ∈ l.foldl (fun found p => p.2.held ++ found) found ↔ r ∈ found ∨ ∃ p ∈ l, r ∈ p.2.held :=
    mem_foldl_append
  rw [held, Std.HashMap.fold_eq_foldl_toList, Std.HashMap.fold_eq_foldl_toList, hwalks, hhandles]
  simp only [List.not_mem_nil, false_or, Prod.exists, Std.HashMap.mem_toList_iff_getElem?_eq_some]

namespace Twins

/-- **Letting go** of what nothing holds leaves twin sessions twins. -/
theorem sweep (h : Twins image s t) : Twins image (Session.sweep s) (Session.sweep t) := by
  have hsettled : t.graph.isSettled = s.graph.isSettled := by
    rw [Graph.isSettled, Graph.isSettled, h.graph.image_left, h.graph.image_right, h.graph.number]
  have hheld : t.held = s.held := by rw [held, held, h.handles, h.walks]
  unfold Session.sweep
  rw [hsettled, hheld]
  split
  · exact h
  · have hdrops := s.graph.dropsTo_sweep s.held
    exact {
      graph := h.graph.sweep s.held
      handles := h.handles
      walks := h.walks
      strong := fun name r hr => Graph.isAlive_sweep_of_mem (h.strong name r hr)
        (mem_held_iff.mpr (Or.inl ⟨name, .strong r, hr, List.mem_singleton_self r⟩))
      weak := fun name r hr => hdrops.isKnown (h.weak name r hr)
      pending := fun name walk hw q hq => Graph.isAlive_sweep_of_mem (h.pending name walk hw q hq)
        (mem_held_iff.mpr (Or.inr ⟨name, walk, hw, List.mem_map_of_mem hq⟩)) }

/-- What an answer consists of is held if that is asked for, and then what nothing holds goes. -/
theorem keep (h : Twins image s t) (name? : Option String) {a : Answer}
    (ha : a.IsLiving s.graph) :
    (runs image).Agrees (do
      match name?, a with
      | some name, .entity r => modify (Session.hold name (.strong r))
      | _, _ => pure ()
      modify Session.sweep
      return a) s t fun _ _ => True := by
  have hsweep : ∀ s t : Session, Twins image s t →
      (runs image).Agrees (do modify Session.sweep; return a) s t fun _ _ => True := by
    intro s t h
    have hswept : (runs image).Agrees (modify Session.sweep) s t fun _ _ => True :=
      .modify trivial h.sweep trivial
    exact hswept.bind fun _ s₁ t₁ _ h₁ _ => .pure h₁ trivial
  split
  · next name r =>
    have hhold : (runs image).Agrees (modify (Session.hold name (.strong r))) s t
        fun _ _ => True := by
      refine .modify trivial (h.hold name ?_ nofun) trivial
      rintro x ⟨⟩
      exact ha r rfl
    exact hhold.bind fun _ s₁ t₁ _ h₁ _ => hsweep s₁ t₁ h₁
  · exact hsweep s t h

/-- **A request** on twin sessions gives the same answer. -/
theorem perform (h : Twins image s t) {q : Request} (hreveals : q.command.revealsLoading = false)
    (hdrops : q.command.dropsImage = false) :
    (runs image).Agrees (perform q) s t fun _ _ => True := by
  have hrun : (runs image).Agrees (Session.run q.command).run s t
      (Pairing.Outcome (fun a s' => a.IsLiving s'.graph) fun _ => True) := by
    obtain ⟨r, s₁, t₁, hs, ht, -, h₁, hr⟩ := h.run hreveals hdrops
    exact ⟨r, s₁, t₁, hs, ht, trivial, h₁, hr⟩
  refine hrun.bind fun r s₁ t₁ _ h₁ hr => ?_
  cases r with
  | ok a => exact h₁.keep q.keepAs? hr
  | error failure => exact h₁.keep q.keepAs? (a := failure.answer) (by cases failure <;> exact nofun)

end Twins

/-! ### Runs -/

/-- To begin with, a session and the eager session are twins. -/
theorem twins_start {config : Config} {source : MetadataStreams}
    (h : MetadataImage.decode config source = .ok image) :
    Twins image (start (some image)) (startEager image) where
  graph := Graph.twins_eager h
  handles := rfl
  walks := rfl
  strong name r hr := by simp [start] at hr
  weak name r hr := by simp [start] at hr
  pending name walk hw := by simp [start] at hw

/-- **Loading is not seen.**  In the eager graph of a decoded image everything there can be exists,
and all of it has been loaded.  Any requests that do not ask what has been loaded and do not let go of
the image have the same answers in a new session as over the eager graph, and the graphs that they
leave hold the same. -/
theorem laziness_unobservable {config : Config} {source : MetadataStreams}
    (h : MetadataImage.decode config source = .ok image) {requests : List Request}
    (hreveals : ∀ q ∈ requests, q.command.revealsLoading = false)
    (hdrops : ∀ q ∈ requests, q.command.dropsImage = false) :
    (startEager image).graph.IsEager ∧
      ∃ answers s t, (requests.mapM perform).run (start (some image)) = (answers, s) ∧
        (requests.mapM perform).run (startEager image) = (answers, t) ∧
        Graph.Twins image s.graph t.graph := by
  have hstart := twins_start h
  have hall : (runs image).Agrees (requests.mapM perform) (start (some image)) (startEager image)
      fun answers _ => ∀ a ∈ answers, True :=
    .mapM hstart (fun _ _ _ _ _ => trivial) fun q hq s t _ hst =>
      Twins.perform hst (hreveals q hq) (hdrops q hq)
  obtain ⟨answers, s, t, hs, ht, -, hst, -⟩ := hall
  exact ⟨hstart.graph.eager, answers, s, t, hs, ht, hst.graph⟩

/-- Two types and a field of the first one, whose name cannot be read. -/
def twoTypes : MetadataStreams where
  tables := #[0, 0, 0, 0, 2, 0, 0, 1,
    0x14, 0, 0, 0, 0, 0, 0, 0, 0, 0, 0, 0, 0, 0, 0, 0,
    2, 0, 0, 0, 1, 0, 0, 0,
    0, 0, 0, 0, 7, 0, 0, 0, 0, 0, 1, 0, 1, 0,
    0, 0, 0, 0, 0, 0, 0, 0, 0, 0, 2, 0, 1, 0,
    0, 0, 0, 0, 0, 0]
  strings? := none
  guids? := none
  blobs? := none

/-- The field moves to the second type before the list of the first one has been loaded. -/
def moveField : List Request :=
  [⟨.find .field ⟨0x04000001⟩, some "F"⟩,
    ⟨.link .attach (.number 0x02000002) (.text "F"), none⟩,
    ⟨.list .items (.number 0x02000001) (.text "fields"), none⟩,
    ⟨.get (.number 0x02000001) (.text "full_name"), none⟩]

theorem laziness_unobservable_moveField :
    ∃ image, MetadataImage.decode .lenient twoTypes = .ok image ∧
      (startEager image).graph.IsEager ∧
        ∃ answers s t, (moveField.mapM perform).run (start (some image)) = (answers, s) ∧
          (moveField.mapM perform).run (startEager image) = (answers, t) ∧
          Graph.Twins image s.graph t.graph := by
  have hcheck : (MetadataImage.decode .lenient twoTypes).toOption.isSome = true := by
    decide +kernel
  cases hdecode : MetadataImage.decode .lenient twoTypes with
  | error e => exact absurd hcheck (by simp [hdecode, Except.toOption])
  | ok image =>
    exact ⟨image, rfl, laziness_unobservable hdecode
      (by simp [moveField, Command.revealsLoading]) (by simp [moveField, Command.dropsImage])⟩

end Session

end ManagedImage
