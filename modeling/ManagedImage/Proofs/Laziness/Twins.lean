import ManagedImage.Graph.Edges
import ManagedImage.Proofs.Laziness.Eager
import ManagedImage.Proofs.Laziness.Pairing
import ManagedImage.Proofs.Nesting.Authoring

/-!
# A graph and its eager twin

A graph over an image is told apart from a graph in which nothing is left to load by nothing that
reading gives.  Everything that can be done to a graph comes down to a few steps, and each of them
leads from twins to twins.

## Main definitions

* `Graph.Readable` — the parts that refer to owners and members can be read.
* `Graph.Twins` — two graphs that hold the same, the second of which is eager.
* `Graph.twins` — twins side by side.

## Main results

* `Graph.Twins.read`, `Graph.Twins.write` — reading and writing an attribute.
* `Graph.Twins.living`, `Graph.Twins.author` — following a reference, and authoring an entity.
-/

namespace ManagedImage

/-- Every row that the image offers can be read. -/
def MetadataImage.IsComplete (image : MetadataImage) : Prop :=
  ∀ r, image.Offers r → ∃ row, image.rowOf? r = some row

namespace Graph

variable {k l : EntityKind} {g g' e e' : Graph} {image : MetadataImage}

/-- The owners and members of everything that can be had can be read. -/
def Readable (g : Graph) : Prop :=
  ∀ (k : EntityKind) (p : Part k) (r : Ref k), p.IsEdge → g.isPresent r.any →
    ∃ v, p.attr.value r g = .ok v

theorem LoadsTo.readable (h : g.LoadsTo g') (hg : g.Readable) : g'.Readable := by
  intro k p r hp hr
  rw [h.value]
  exact hg k p r hp ((h.present r.any).symm.trans hr)

theorem Readable.put (hg : g.Readable) {p : Part k} {r : Ref k} {v : p.Value}
    (hr : g.isAlive r.any) : (g.put p r v).Readable := by
  intro l
  refine put_cases g p r v (C := fun q s => q.IsEdge → (g.put p r v).isPresent s.any →
    ∃ w, q.attr.value s (g.put p r v) = .ok w) ?_ ?_
  · exact fun _ _ => ⟨v, value_put_self hr⟩
  · intro l q s heq hq hs
    rw [value_of_stored heq]
    exact hg l q s hq ((isPresent_put s.any).symm.trans hs)

theorem Readable.authored (hg : g.Readable) {c : k.Entity} (hc : g.Admits c) :
    (g.authored c).Readable := by
  intro l p r hp hr
  by_cases hne : (g.next k).any = r.any
  · obtain rfl : k = l := congrArg AnyRef.kind hne
    obtain rfl := Ref.any_injective hne
    obtain ⟨v, hv, -⟩ := hc p
    exact ⟨v, value_authored_next hv⟩
  · rw [value_authored_of_ne p hne]
    rw [isPresent_authored, beq_eq_false_iff_ne.mpr hne, Bool.false_or] at hr
    exact hg l p r hp hr

/-! ### Limits of what is authored -/

theorem contents?_authored_of_ne {c : k.Entity} {s : Ref l} (h : (g.next k).any ≠ s.any) :
    (g.authored c).contents? s = g.contents? s := by
  have hget : (g.authored c).entity? s = g.entity? s :=
    Std.DHashMap.get?_insert.trans (by simp [h, entity?])
  rw [contents?, contents?, hget]
  rfl

theorem limit_authored_next {c : k.Entity} : (g.authored c).limit (g.next k) = k.depth c := by
  have hget : (g.authored c).entity? (g.next k) = some c := Std.DHashMap.get?_insert_self
  rw [limit, contents?, hget]
  rfl

/-! ### Twins -/

/-- Both graphs are over the image and hold the same, and nothing in the second one is left to
load. -/
structure Twins (image : MetadataImage) (g e : Graph) : Prop where
  /-- The rows of the image can be read. -/
  complete : image.IsComplete
  /-- The first graph is sound. -/
  sound : g.Sound
  /-- Owners and members can be read. -/
  readable : g.Readable
  /-- The first graph is over the image. -/
  image_left : g.image? = some image
  /-- So is the second. -/
  image_right : e.image? = some image
  /-- As many entities have been authored. -/
  number : e.nextNumber = g.nextNumber
  /-- The same entities can be had. -/
  present : ∀ r, e.isPresent r = g.isPresent r
  /-- All attributes have the same values. -/
  value : ∀ {k : EntityKind} (p : Part k) (r : Ref k), p.attr.value r e = p.attr.value r g
  /-- Walks may go as far. -/
  limit : ∀ {k : EntityKind} (r : Ref k), e.limit r = g.limit r
  /-- The second graph is eager. -/
  eager : e.IsEager

/-- Twins side by side. -/
def twins (image : MetadataImage) : Pairing Graph where
  related := Twins image
  keeps := Keeps
  refl := Keeps.refl
  trans := Keeps.trans

namespace Twins

theorem isAlive_right (h : Twins image g e) {r : AnyRef} (hr : g.isAlive r) : e.isAlive r :=
  h.eager.alive r ((h.present r).trans (isPresent_of_isAlive hr))

/-- What is known is alive in both graphs or in none. -/
theorem isAlive_eq (h : Twins image g e) {r : AnyRef} (hr : g.IsKnown r) :
    e.isAlive r = g.isAlive r := by
  rw [Bool.eq_iff_iff]
  refine ⟨fun halive => hr.alive ?_, h.isAlive_right⟩
  exact (h.present r).symm.trans (isPresent_of_isAlive halive)

/-- An authored entity is alive in both twins or in none. -/
theorem isAlive_authored (h : Twins image g e) {r : AnyRef} (hr : r.id.isRow = false) :
    e.isAlive r = g.isAlive r := by
  have hnone : ∀ g' : Graph, g'.isPresent r = g'.isAlive r := by
    intro g'
    obtain ⟨k, rid | n⟩ := r
    · exact absurd hr (by simp [Identity.isRow])
    · rw [isPresent]
      cases g'.image? <;> simp [MetadataImage.rowOf?]
  rw [← hnone, ← hnone, h.present]

theorem next_eq (h : Twins image g e) (k : EntityKind) : e.next k = g.next k := by
  rw [next, next, h.number]

theorem depth_eq (h : Twins image g e) {r : Ref k} (hr : g.isAlive r.any) :
    e.depth r = g.depth r := by
  rw [← limit_of_isAlive hr, ← limit_of_isAlive (h.isAlive_right hr), h.limit]

/-- Reading the first graph keeps it a twin of the second one. -/
theorem readsTo (h : Twins image g e) (hreads : g.ReadsTo g') : Twins image g' e := by
  have hload := hreads.loadsTo h.sound
  exact {
    complete := h.complete
    sound := hreads.sound h.sound
    readable := hload.readable h.readable
    image_left := hload.image.trans h.image_left
    image_right := h.image_right
    number := h.number.trans hload.number.symm
    present r := (h.present r).trans (hload.present r).symm
    value p r := (h.value p r).trans (hload.value p r).symm
    limit r := (h.limit r).trans (hreads.limit_eq r).symm
    eager := h.eager }

/-- Writing the same into both. -/
theorem put (h : Twins image g e) {p : Part k} {r : Ref k} {v : p.Value} (hr : g.isAlive r.any)
    (hrefs : ∀ s ∈ p.attr.refs v, g.IsKnown s) (hheld : ∀ s ∈ p.held v, g.isPresent s) :
    Twins image (g.put p r v) (e.put p r v) where
  complete := h.complete
  sound := h.sound.put hr (fun s hs => (hrefs s hs).alive) hheld fun s hs => (hrefs s hs).number
  readable := h.readable.put hr
  image_left := h.image_left
  image_right := h.image_right
  number := h.number
  present s := by rw [isPresent_put, isPresent_put, h.present]
  value {l} q s := by
    by_cases hrs : r.any = s.any
    · obtain rfl : k = l := congrArg AnyRef.kind hrs
      obtain rfl := Ref.any_injective hrs
      by_cases hpq : p = q
      · subst hpq
        rw [value_put_self hr, value_put_self (h.isAlive_right hr)]
      · rw [value_put_of_ne_part hpq, value_put_of_ne_part hpq, h.value]
    · rw [value_put_of_ne hrs, value_put_of_ne hrs, h.value]
  limit s := by rw [limit_put hr, limit_put (h.isAlive_right hr), h.limit]
  eager := h.eager.put

theorem admits (h : Twins image g e) {c : k.Entity} (hc : g.Admits c) : e.Admits c := by
  intro p
  obtain ⟨v, hv, hrefs⟩ := hc p
  exact ⟨v, hv, fun s hs => h.isAlive_right (hrefs s hs)⟩

/-- Authoring the same in both. -/
theorem authored (h : Twins image g e) {c : k.Entity} (hc : g.Admits c) :
    Twins image (g.authored c) (e.authored c) where
  complete := h.complete
  sound := h.sound.authored hc
  readable := h.readable.authored hc
  image_left := h.image_left
  image_right := h.image_right
  number := congrArg (· + 1) h.number
  present s := by rw [isPresent_authored, isPresent_authored, h.next_eq, h.present]
  value {l} p s := by
    by_cases hs : (g.next k).any = s.any
    · obtain rfl : k = l := congrArg AnyRef.kind hs
      obtain rfl := Ref.any_injective hs
      obtain ⟨v, hv, -⟩ := hc p
      have hright : p.attr.value (e.next k) (e.authored c) = .ok v := value_authored_next hv
      rw [value_authored_next hv, ← h.next_eq, hright]
    · have hs' : (e.next k).any ≠ s.any := h.next_eq k ▸ hs
      rw [value_authored_of_ne p hs, value_authored_of_ne p hs', h.value]
  limit {l} s := by
    by_cases hs : (g.next k).any = s.any
    · obtain rfl : k = l := congrArg AnyRef.kind hs
      obtain rfl := Ref.any_injective hs
      have hright : (e.authored c).limit (e.next k) = k.depth c := limit_authored_next
      rw [limit_authored_next, ← h.next_eq, hright]
    · have hs' : (e.next k).any ≠ s.any := h.next_eq k ▸ hs
      rw [Graph.limit, Graph.limit, contents?_authored_of_ne hs, contents?_authored_of_ne hs',
        ← Graph.limit, ← Graph.limit, h.limit]
  eager := h.eager.authored (h.admits hc)

/-! ### Steps -/

variable {α : Type} {E : Error → Prop}

/-- **Reading an attribute** of twins.  What its value refers to is known afterwards, and what its
value keeps alive exists. -/
theorem read (h : Twins image g e) (p : Part k) {r : Ref k} (hr : g.isAlive r.any)
    (hE : ∀ x, p.attr.value r g = .error x → E x) :
    (twins image).Matches (p.attr.read r) g e (fun v g' =>
      (∀ s ∈ p.attr.refs v, g'.IsKnown s) ∧ ∀ s ∈ p.held v, g'.isAlive s) E := by
  obtain ⟨g', hrun, hload, -, hrefs⟩ := h.sound.runOn_read p hr
  have hright := h.eager.runOn_read p (h.isAlive_right hr)
  have hreads : Twins image g' e := by
    have hreads := ReadsTo.of_read p hr
    rw [hrun] at hreads
    exact h.readsTo hreads
  rw [h.value] at hright
  cases hv : p.attr.value r g with
  | error x =>
    rw [hv] at hrun hright
    exact .of_error hrun hright hload.keeps hreads (hE x hv)
  | ok v =>
    rw [hv] at hrun hright
    refine .of_ok hrun hright hload.keeps hreads ⟨fun s hs => ?_, fun s hs => ?_⟩
    · exact ⟨hload.keeps.hasNumber (h.sound.known p r v hv s hs), hrefs v hv s hs⟩
    · refine hrefs v hv s (p.held_subset_refs v hs) ?_
      exact (hload.present s).trans (h.sound.held p r v hv s hs)

/-- An attribute can be asked for. -/
theorem ask (h : Twins image g e) (p : Part k) {r : Ref k} (hr : g.isAlive r.any) :
    (twins image).Matches (p.attr.read r) g e (fun _ _ => True) fun _ => True :=
  (h.read p hr fun _ _ => trivial).weaken fun _ _ _ _ => trivial

/-- Owners and members can be read. -/
theorem readEdge (h : Twins image g e) (p : Part k) (hp : p.IsEdge) {r : Ref k}
    (hr : g.isAlive r.any) :
    (twins image).Matches (p.attr.read r) g e (fun v g' =>
      (∀ s ∈ p.attr.refs v, g'.IsKnown s) ∧ ∀ s ∈ p.held v, g'.isAlive s) E := by
  refine h.read p hr fun x hx => ?_
  obtain ⟨v, hv⟩ := h.readable k p r hp (isPresent_of_isAlive hr)
  rw [hv] at hx
  exact nomatch hx

/-- **Writing an attribute** of twins. -/
theorem write (h : Twins image g e) (p : Part k) {r : Ref k} {v : p.Value} (hr : g.isAlive r.any)
    (hrefs : ∀ s ∈ p.attr.refs v, g.IsKnown s) (hheld : ∀ s ∈ p.held v, g.isPresent s) :
    (twins image).Matches (p.attr.write r v) g e (fun _ _ => True) E :=
  .change keeps_put (h.put hr hrefs hheld) trivial

theorem writeAlive (h : Twins image g e) (p : Part k) {r : Ref k} {v : p.Value}
    (hr : g.isAlive r.any) (hrefs : ∀ s ∈ p.attr.refs v, g.isAlive s) :
    (twins image).Matches (p.attr.write r v) g e (fun _ _ => True) E :=
  h.write p hr (fun s hs => h.sound.isKnown (hrefs s hs))
    fun s hs => isPresent_of_isAlive (hrefs s (p.held_subset_refs v hs))

/-- **Following a reference** that is known. -/
theorem living (h : Twins image g e) {r : Option (Ref k)}
    (hr : ∀ s ∈ Attribute.optionalRef r, g.IsKnown s) :
    (twins image).Matches (Graph.living r) g e (fun v g' => ∀ s ∈ v, g'.isAlive s.any) E := by
  refine .ask h ?_ fun s hs => (Option.mem_filter_iff.mp hs).2
  cases r with
  | none => rfl
  | some s => simp [Option.filter, h.isAlive_eq (hr s.any (List.mem_singleton_self _))]

/-- A reference that is known is there in both graphs or in none. -/
theorem filter_isAlive (h : Twins image g e) {r : Option AnyRef} (hr : ∀ s ∈ r, g.IsKnown s) :
    r.filter e.isAlive = r.filter g.isAlive := by
  cases r with
  | none => rfl
  | some s => rw [Option.filter_some, Option.filter_some, h.isAlive_eq (hr s rfl)]

/-- A reference that has been read is followed. -/
theorem filterLiving (h : Twins image g e) {r : Option AnyRef} (hr : ∀ s ∈ r, g.IsKnown s) :
    (twins image).Matches (do return r.filter (← get).isAlive : GraphAction (Option AnyRef)) g e
      (fun v g' => ∀ s ∈ v, g'.isAlive s) fun _ => True :=
  .ask h (h.filter_isAlive hr) fun _ hs => (Option.mem_filter_iff.mp hs).2

/-- **Authoring an entity** in twins. -/
theorem author (h : Twins image g e) {c : k.Entity} (hc : g.Admits c) :
    (twins image).Matches (Graph.author c) g e (fun r g' => g'.isAlive r.any) E := by
  refine .of_ok (runOn_author c) ?_ keeps_authored (h.authored hc) isAlive_authored_next
  rw [runOn_author, h.next_eq]

/-- What the image offers is made where it does not exist, and it exists in both graphs then. -/
theorem materialise (h : Twins image g e) (refs : List AnyRef) :
    g.Keeps (g.materialise image refs) ∧ Twins image (g.materialise image refs)
      (e.materialise image refs) := by
  rw [h.eager.materialise_eq h.image_right]
  exact ⟨(loadsTo_materialise h.image_left refs).keeps,
    h.readsTo (.materialise refs .refl h.image_left)⟩

theorem isAlive_materialise (h : Twins image g e) {refs : List AnyRef} {r : AnyRef}
    (hoffers : image.Offers r) (hr : r ∈ refs) : (g.materialise image refs).isAlive r := by
  refine Graph.isAlive_materialise h.image_left hr ?_
  obtain ⟨row, hrow⟩ := h.complete r hoffers
  simp [isPresent, h.image_left, hrow]

end Twins

end Graph

end ManagedImage
