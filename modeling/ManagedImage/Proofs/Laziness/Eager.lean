import ManagedImage.Proofs.Graph.Authoring
import ManagedImage.Proofs.Graph.Opening
import ManagedImage.Proofs.Graph.Reading

/-!
# Graphs in which nothing is left to load

The eager graph of an image makes the entities of all rows at once and reads every attribute of each.
An attribute that cannot be loaded stays unloaded, and fails in the same way whenever it is read.

## Main definitions

* `Graph.IsForced` — reading an attribute has nothing left to load.
* `Graph.IsEager` — everything there can be exists, and is forced.
* `Graph.eager` — the eager graph of an image.

## Main results

* `Graph.isEager_eager` — the eager graph is eager.
* `Graph.IsEager.runOn_read`, `Graph.IsEager.materialise_eq` — reading an eager graph changes nothing.
* `Graph.IsEager.put`, `Graph.IsEager.authored` — writing and authoring leave a graph eager.
-/

namespace ManagedImage

/-- All parts of the entities of a kind. -/
def Part.all : (k : EntityKind) → List (Part k)
  | .module => [generation, moduleName, mvid, encId, encBaseId, topLevelTypes]
  | .typeRef => [typeRefName, typeRefNamespace, resolutionScope]
  | .typeDef => [typeFlags, typeName, typeNamespace, baseType, module, declaringType, fields,
      methods, nestedClasses]
  | .field => [fieldFlags, fieldName, fieldSignature, fieldOwner]
  | .methodDef => [rva, implFlags, methodFlags, methodName, methodSignature, methodOwner]
  | .nestedClass => [nested, enclosing]
  | .moduleRef => [moduleRefName]
  | .assemblyRef => [version, assemblyFlags, publicKeyOrToken, assemblyName, culture, hashValue]

theorem Part.mem_all {k : EntityKind} (p : Part k) : p ∈ all k := by
  cases p <;> simp [all]

namespace MetadataImage

/-- The entities of all rows of an image that can be read. -/
def rowEntities (image : MetadataImage) : List AnyRef :=
  (EntityKind.all.flatMap fun k =>
    (OwnerIndex.rids image.tables k.table).map fun rid => ⟨k, .row rid⟩).filter
      fun r => (image.rowOf? r).isSome

theorem mem_rowEntities_iff {image : MetadataImage} {r : AnyRef} :
    r ∈ image.rowEntities ↔ (image.rowOf? r).isSome := by
  rw [rowEntities, List.mem_filter, and_iff_right_iff_imp]
  intro h
  obtain ⟨k, id⟩ := r
  cases id with
  | authored n => exact absurd h (by simp [rowOf?])
  | row rid =>
    refine List.mem_flatMap.mpr ⟨k, k.mem_all, List.mem_map.mpr ⟨rid, ?_, rfl⟩⟩
    have h : (image.tables.row k.table rid).toOption.isSome := h
    unfold TablesStream.row at h
    unfold OwnerIndex.rids
    cases hrows : image.tables.rows? k.table with
    | none =>
      rw [hrows] at h
      exact absurd h (by simp [Except.toOption])
    | some rows =>
      rw [hrows] at h
      dsimp only [Rows.row] at h
      split at h
      · exact absurd h (by simp [Except.toOption])
      · next hin =>
        obtain ⟨hpos, hle⟩ := not_or.mp hin
        exact Rows.mem_rids_iff.mpr ⟨hpos, UInt32.not_lt.mp hle⟩

end MetadataImage

namespace Graph

variable {k l : EntityKind} {g g' : Graph} {image : MetadataImage}

/-- The attribute has been loaded, or it cannot be. -/
def IsForced (g : Graph) (p : Part k) (r : Ref k) : Prop :=
  p.attr.stored r g ≠ .unevaluated ∨ ∃ e, p.attr.loaded r g.image? = .error e

/-- Everything there can be exists, and no attribute has anything left to load. -/
structure IsEager (g : Graph) : Prop where
  /-- What can be had exists. -/
  alive : ∀ r, g.isPresent r → g.isAlive r
  /-- What exists has been loaded. -/
  forced : ∀ {k : EntityKind} (p : Part k) (r : Ref k), g.isAlive r.any → g.IsForced p r

/-- Reads all attributes of an entity. -/
def readParts (g : Graph) (r : AnyRef) : Graph :=
  (Part.all r.kind).foldl (fun g p => ((p.attr.read r.typed).runOn g).2) g

/-- The graph over an image in which all rows have been made into entities, and all of these have
been read. -/
def eager (image : MetadataImage) : Graph :=
  image.rowEntities.foldl readParts ((empty (some image)).materialise image image.rowEntities)

/-! ### What has been loaded stays loaded -/

theorem stored_read_ne_unevaluated (p : Part k) (r : Ref k) {q : Part l} {s : Ref l}
    (h : q.attr.stored s g ≠ .unevaluated) :
    q.attr.stored s ((p.attr.read r).runOn g).2 ≠ .unevaluated := by
  rcases runOn_read_cases p r g with ⟨hrun, -⟩ | ⟨image, v, -, -, hrun⟩
  · rwa [hrun]
  · have hs := isAlive_of_stored_ne h
    rw [hrun]
    exact stored_put_ne_unevaluated q s (stored_materialise image _ q hs ▸ h)

/-- Reading does not undo any loading. -/
theorem ReadsTo.isForced (h : g.ReadsTo g') (hg : g.Sound) {p : Part k} {r : Ref k}
    (hr : g.IsForced p r) : g'.IsForced p r := by
  unfold IsForced
  rw [(h.loadsTo hg).image]
  refine hr.imp_left fun hstored => ?_
  induction h with
  | refl => exact hstored
  | read q _ _ ih => exact stored_read_ne_unevaluated q _ ih
  | materialise refs _ _ ih =>
    rwa [stored_materialise _ refs p (isAlive_of_stored_ne ih)]

/-- An attribute that has been read is forced. -/
theorem isForced_read (p : Part k) {r : Ref k} (hr : g.isAlive r.any) :
    ((p.attr.read r).runOn g).2.IsForced p r := by
  rw [runOn_read_eq]
  cases hstored : p.attr.stored r g with
  | evaluated v => exact Or.inl (by rw [hstored]; exact nofun)
  | unevaluated =>
    cases hload : p.attr.loaded r g.image? with
    | error e =>
      dsimp only
      rw [runOn_fetch_error hload]
      exact Or.inr ⟨e, hload⟩
    | ok v =>
      obtain ⟨image, himage, hfetch⟩ := runOn_fetch_ok hload
      dsimp only
      rw [hfetch]
      have hr' := (loadsTo_materialise himage (p.attr.refs v)).alive _ hr
      exact Or.inl (by rw [stored_put_self hr']; exact nofun)

/-! ### The eager graph -/

/-- Reading in steps reads, and what each step achieves lasts. -/
theorem readsTo_foldl {α : Type} (step : Graph → α → Graph) {C : α → Graph → Prop} (xs : List α)
    (hlasts : ∀ x g₁ g₂, g.ReadsTo g₁ → g₁.ReadsTo g₂ → C x g₁ → C x g₂)
    (hstep : ∀ x ∈ xs, ∀ g₁, g.ReadsTo g₁ → g₁.ReadsTo (step g₁ x) ∧ C x (step g₁ x))
    (h : g.ReadsTo g') :
    g'.ReadsTo (xs.foldl step g') ∧ ∀ x ∈ xs, C x (xs.foldl step g') := by
  induction xs generalizing g' with
  | nil => exact ⟨.refl, fun x hx => absurd hx List.not_mem_nil⟩
  | cons x xs ih =>
    rw [List.foldl_cons]
    obtain ⟨hreads, hx⟩ := hstep x List.mem_cons_self g' h
    obtain ⟨hrest, hxs⟩ := ih (fun y hy => hstep y (List.mem_cons_of_mem x hy)) (h.trans hreads)
    exact ⟨hreads.trans hrest,
      List.forall_mem_cons.mpr ⟨hlasts x _ _ (h.trans hreads) hrest hx, hxs⟩⟩

theorem readsTo_readParts (hg : g.Sound) {r : AnyRef} (hr : g.isAlive r) :
    g.ReadsTo (g.readParts r) ∧ ∀ p : Part r.kind, (g.readParts r).IsForced p r.typed := by
  obtain ⟨hreads, hforced⟩ := readsTo_foldl (g := g) (fun g p => ((p.attr.read r.typed).runOn g).2)
    (C := fun p g' => g'.IsForced p r.typed) (Part.all r.kind)
    (fun p g₁ g₂ h₁ h₂ hp => h₂.isForced (h₁.sound hg) hp)
    (fun p _ g₁ h₁ => by
      have hr₁ : g₁.isAlive r.typed.any := (h₁.loadsTo hg).alive r hr
      exact ⟨ReadsTo.of_read p hr₁, isForced_read p hr₁⟩) .refl
  exact ⟨hreads, fun p => hforced p p.mem_all⟩

/-- The eager graph is reached by reading, and nothing in it is left to load. -/
theorem readsTo_eager_and_isEager (hg : (empty (some image)).Sound) :
    (empty (some image)).ReadsTo (eager image) ∧ (eager image).IsEager := by
  have hrow : ∀ r, (empty (some image)).isPresent r = (image.rowOf? r).isSome := by
    intro r
    rw [isPresent, not_isAlive_empty, Bool.false_or]
    rfl
  generalize hmade : (empty (some image)).materialise image image.rowEntities = g
  have hreads : (empty (some image)).ReadsTo g := hmade ▸ .materialise _ .refl rfl
  have hload := hreads.loadsTo hg
  have hpresent : ∀ r, g.isPresent r ↔ r ∈ image.rowEntities := fun r => by
    rw [hload.present, hrow, MetadataImage.mem_rowEntities_iff]
  -- all entities are there before the first of them is looked at
  have halive : ∀ r ∈ image.rowEntities, g.isAlive r := fun r hr =>
    hmade ▸ isAlive_materialise rfl hr (hload.present r ▸ (hpresent r).mpr hr)
  have hsound := hreads.sound hg
  obtain ⟨hall, hforced⟩ := readsTo_foldl (g := g) readParts
    (C := fun r g' => ∀ p : Part r.kind, g'.IsForced p r.typed) image.rowEntities
    (fun r g₁ g₂ h₁ h₂ hr p => h₂.isForced (h₁.sound hsound) (hr p))
    (fun r hr g₁ h₁ =>
      readsTo_readParts (h₁.sound hsound) ((h₁.loadsTo hsound).alive r (halive r hr))) .refl
  have hall' := hall.loadsTo hsound
  rw [eager, hmade]
  refine ⟨hreads.trans hall, fun r hr => ?_, fun p r hr => ?_⟩
  · exact hall'.alive r (halive r ((hpresent r).mp ((hall'.present r).symm.trans hr)))
  · have hr' := (hall'.present r.any).symm.trans (isPresent_of_isAlive hr)
    exact hforced r.any ((hpresent r.any).mp hr') p

theorem readsTo_eager (hg : (empty (some image)).Sound) :
    (empty (some image)).ReadsTo (eager image) := (readsTo_eager_and_isEager hg).1

/-- **The eager graph is eager.** -/
theorem isEager_eager (hg : (empty (some image)).Sound) : (eager image).IsEager :=
  (readsTo_eager_and_isEager hg).2

/-! ### Eager graphs -/

namespace IsEager

/-- **Reading an eager graph changes nothing.** -/
theorem runOn_read (hg : g.IsEager) (p : Part k) {r : Ref k} (hr : g.isAlive r.any) :
    (p.attr.read r).runOn g = (p.attr.value r g, g) := by
  rw [runOn_read_eq, Attribute.value]
  cases hstored : p.attr.stored r g with
  | evaluated v => rfl
  | unevaluated =>
    rcases hg.forced p r hr with hne | ⟨e, hload⟩
    · exact absurd hstored hne
    · dsimp only
      rw [runOn_fetch_error hload, hload]

/-- There is nothing left to make in an eager graph. -/
theorem materialise_eq (hg : g.IsEager) (himage : g.image? = some image) (refs : List AnyRef) :
    g.materialise image refs = g := by
  induction refs with
  | nil => rfl
  | cons r refs ih =>
    have hone : g.materialise image [r] = g := by
      rcases materialise_singleton image r g with ⟨heq, -⟩ | ⟨hdead, row, hrow, -⟩
      · exact heq
      · have hpresent : g.isPresent r := by simp [isPresent, himage, hrow]
        exact Bool.noConfusion (hdead.symm.trans (hg.alive r hpresent))
    rw [materialise_cons, hone, ih]

theorem put (hg : g.IsEager) {p : Part k} {r : Ref k} {v : p.Value} : (g.put p r v).IsEager where
  alive s hs := by
    rw [isPresent_put] at hs
    rw [isAlive_put]
    exact hg.alive s hs
  forced q s hs := by
    rw [isAlive_put] at hs
    exact (hg.forced q s hs).imp_left (stored_put_ne_unevaluated q s)

theorem authored (hg : g.IsEager) {e : k.Entity} (he : g.Admits e) : (g.authored e).IsEager where
  alive s hs := by
    rw [isPresent_authored, Bool.or_eq_true] at hs
    rw [isAlive_authored, Bool.or_eq_true]
    exact hs.imp_right (hg.alive s)
  forced {l} p r hr := by
    by_cases hne : (g.next k).any = r.any
    · obtain rfl : k = l := congrArg AnyRef.kind hne
      obtain rfl := Ref.any_injective hne
      obtain ⟨v, hv, -⟩ := he p
      exact Or.inl (by rw [stored_authored_next, hv]; exact nofun)
    · rw [isAlive_authored, beq_eq_false_iff_ne.mpr hne, Bool.false_or] at hr
      unfold IsForced
      rw [stored_authored_of_ne p hne]
      exact hg.forced p r hr

end IsEager

end Graph

end ManagedImage
