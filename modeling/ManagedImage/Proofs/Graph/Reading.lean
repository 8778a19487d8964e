import ManagedImage.Proofs.Nesting.View

/-!
# Reading a graph

A user who only reads a graph loads attributes and makes entities of rows, in any order and as often
as they like.  None of it changes what the next reading gives.

## Main definitions

* `Graph.ReadsTo` — nothing but reading leads from one graph to another.
* `Graph.depth` — how many levels of nesting a walk from an entity may go through.
* `Graph.limit` — the same, whether the entity has been made or not.

## Main results

* `Graph.ReadsTo.loadsTo`, `Graph.ReadsTo.sound` — reading is loading and keeps a graph sound.
* `Graph.ReadsTo.limit_eq`, `Graph.ReadsTo.depth_eq` — the limits stay as they are.
* `Graph.Sound.yields_read` — what reading one attribute gives.
-/

namespace ManagedImage

/-- How many levels of nesting a walk from an entity may go through. -/
def EntityKind.depth : (k : EntityKind) → k.Entity → Nat
  | .module, e => e.maxDepth
  | .typeDef, e => e.maxDepth
  | _, _ => 0

/-- No attribute is a limit. -/
theorem Part.depth_set {k : EntityKind} (p : Part k) (d : Deferred p.Value) (e : k.Entity) :
    k.depth (p.attr.set d e) = k.depth e := by
  cases p <;> rfl

namespace Graph

variable {k l : EntityKind} {g g' g'' : Graph} {image : MetadataImage}

/-- How many levels of nesting a walk from an entity of the graph may go through. -/
def depth (g : Graph) (r : Ref k) : Nat := ((g.entity? r).map k.depth).getD 0

theorem depth_put {p : Part k} {r : Ref k} {v : p.Value} (s : Ref l) :
    (g.put p r v).depth s = g.depth s := by
  by_cases h : r.any = s.any
  · obtain rfl : k = l := congrArg AnyRef.kind h
    obtain rfl := Ref.any_injective h
    have hset : k.depth ∘ p.attr.set (.evaluated v) = k.depth :=
      funext fun e => p.depth_set (.evaluated v) e
    rw [depth, depth, put, Attribute.cell, entity?_modifyEntity_self, Option.map_map, hset]
  · rw [depth, depth, put, Attribute.cell, entity?_modifyEntity_of_ne g _ h]

/-- What exists stays as it is when entities are made. -/
theorem entity?_materialise (image : MetadataImage) (refs : List AnyRef) {s : Ref l}
    (hs : g.isAlive s.any) : (g.materialise image refs).entity? s = g.entity? s := by
  induction refs generalizing g with
  | nil => rfl
  | cons r refs ih =>
    rw [materialise_cons]
    rcases materialise_singleton image r g with ⟨heq, -⟩ | ⟨hdead, row, -, heq⟩
    · rw [heq]
      exact ih hs
    · have hne : r ≠ s.any := by
        rintro rfl
        rw [hs] at hdead
        exact Bool.noConfusion hdead
      have hs' : (g.addRow image r row).isAlive s.any := by
        rw [isAlive_addRow, hs, Bool.or_true]
      have hget : (g.addRow image r row).entity? s = g.entity? s :=
        Std.DHashMap.get?_insert.trans (by simp [hne, entity?])
      rw [heq, ih hs', hget]

/-! ### What has been loaded stays loaded -/

theorem isAlive_of_stored_ne {p : Part k} {r : Ref k} (h : p.attr.stored r g ≠ .unevaluated) :
    g.isAlive r.any := by
  cases hstored : p.attr.stored r g with
  | unevaluated => exact absurd hstored h
  | evaluated v => exact isAlive_of_stored hstored

theorem stored_materialise (image : MetadataImage) (refs : List AnyRef) (p : Part k) {r : Ref k}
    (hr : g.isAlive r.any) : p.attr.stored r (g.materialise image refs) = p.attr.stored r g := by
  simp [Attribute.stored, Attribute.cell, entity?_materialise image refs hr]

theorem stored_put_ne_unevaluated {p : Part k} {r : Ref k} {v : p.Value} (q : Part l) (s : Ref l) :
    q.attr.stored s g ≠ .unevaluated → q.attr.stored s (g.put p r v) ≠ .unevaluated := by
  refine put_cases g p r v (C := fun q s =>
    q.attr.stored s g ≠ .unevaluated → q.attr.stored s (g.put p r v) ≠ .unevaluated) ?_ ?_ q s
  · intro h
    rw [stored_put_self (isAlive_of_stored_ne h)]
    exact nofun
  · intro _ q s heq h
    rwa [heq]

/-! ### Reading -/

/-- Nothing but reading leads from `g` to `g'`: attributes of what exists are read, and entities of
rows are asked for. -/
inductive ReadsTo (g : Graph) : Graph → Prop where
  | refl : ReadsTo g g
  | read {g' : Graph} {k : EntityKind} (p : Part k) {r : Ref k} (h : ReadsTo g g')
    (hr : g'.isAlive r.any) : ReadsTo g ((p.attr.read r).runOn g').2
  | materialise {g' : Graph} {image : MetadataImage} (refs : List AnyRef) (h : ReadsTo g g')
    (himage : g'.image? = some image) : ReadsTo g (g'.materialise image refs)

namespace ReadsTo

theorem trans (h : g.ReadsTo g') (h' : g'.ReadsTo g'') : g.ReadsTo g'' := by
  induction h' with
  | refl => exact h
  | read p _ hr ih => exact ih.read p hr
  | materialise refs _ himage ih => exact ih.materialise refs himage

/-- One reading of an attribute. -/
theorem of_read (p : Part k) {r : Ref k} (hr : g.isAlive r.any) :
    g.ReadsTo ((p.attr.read r).runOn g).2 := refl.read p hr

/-- Reading is loading, and it keeps a graph sound. -/
theorem loadsTo_and_sound (h : g.ReadsTo g') (hg : g.Sound) : g.LoadsTo g' ∧ g'.Sound := by
  induction h with
  | refl => exact ⟨LoadsTo.refl g, hg⟩
  | read p _ hr ih =>
    obtain ⟨hload, hsound⟩ := ih
    obtain ⟨g'', hrun, hload', hsound', -⟩ := hsound.runOn_read p hr
    rw [hrun]
    exact ⟨hload.trans hload', hsound'⟩
  | materialise refs _ himage ih =>
    obtain ⟨hload, hsound⟩ := ih
    exact ⟨hload.trans (loadsTo_materialise himage refs), hsound.materialise himage refs⟩

theorem loadsTo (h : g.ReadsTo g') (hg : g.Sound) : g.LoadsTo g' := (h.loadsTo_and_sound hg).1

theorem sound (h : g.ReadsTo g') (hg : g.Sound) : g'.Sound := (h.loadsTo_and_sound hg).2

theorem valueD_eq (h : g.ReadsTo g') (hg : g.Sound) (p : Part k) (r : Ref k) (d : p.Value) :
    g'.valueD p r d = g.valueD p r d := by
  rw [valueD, valueD, (h.loadsTo hg).value]

end ReadsTo

/-! ### Limits -/

/-- The contents of an entity, or those that it would be made with. -/
def contents? (g : Graph) (r : Ref k) : Option k.Entity :=
  (g.entity? r).or (g.image?.bind fun image => (image.rowOf? r.any).map (k.ofRow image.config))

/-- How many levels of nesting a walk from an entity may go through, once it has been made. -/
def limit (g : Graph) (r : Ref k) : Nat := ((g.contents? r).map k.depth).getD 0

theorem contents?_of_isAlive {r : Ref k} (hr : g.isAlive r.any) : g.contents? r = g.entity? r := by
  rw [← isSome_entity?, Option.isSome_iff_exists] at hr
  obtain ⟨c, hc⟩ := hr
  rw [contents?, hc, Option.some_or]

theorem limit_of_isAlive {r : Ref k} (hr : g.isAlive r.any) : g.limit r = g.depth r := by
  rw [limit, depth, contents?_of_isAlive hr]

/-- Making entities does not change what they are made with. -/
theorem contents?_materialise (himage : g.image? = some image) (refs : List AnyRef) (s : Ref l) :
    (g.materialise image refs).contents? s = g.contents? s := by
  induction refs generalizing g with
  | nil => rfl
  | cons r refs ih =>
    have hone := loadsTo_materialise_singleton himage r
    rw [materialise_cons, ih (hone.image.trans himage)]
    rcases materialise_singleton image r g with ⟨heq, -⟩ | ⟨hdead, row, hrow, heq⟩
    · rw [heq]
    · rw [heq]
      by_cases hrs : r = s.any
      · subst hrs
        have hnone : g.entity? s = none := by
          rw [← Option.isNone_iff_eq_none, ← Option.isSome_eq_false_iff, isSome_entity?, hdead]
        have hget : (g.addRow image s.any row).entity? s = some (l.ofRow image.config row) :=
          Std.DHashMap.get?_insert_self
        rw [contents?, contents?, hget, hnone, himage]
        simp [hrow]
      · have hget : (g.addRow image r row).entity? s = g.entity? s :=
          Std.DHashMap.get?_insert.trans (by simp [hrs, entity?])
        rw [contents?, contents?, hget]
        rfl

theorem limit_put {p : Part k} {r : Ref k} {v : p.Value} (hr : g.isAlive r.any) (s : Ref l) :
    (g.put p r v).limit s = g.limit s := by
  by_cases hs : g.isAlive s.any
  · rw [limit_of_isAlive hs, limit_of_isAlive ((isAlive_put s.any).trans hs), depth_put]
  · have hne : r.any ≠ s.any := fun heq => hs (heq ▸ hr)
    have hget : (g.put p r v).entity? s = g.entity? s := entity?_modifyEntity_of_ne g _ hne
    rw [limit, limit, contents?, contents?, hget]
    rfl

/-- Reading an attribute does not touch the limits. -/
theorem limit_read (p : Part k) {r : Ref k} (hr : g.isAlive r.any) (s : Ref l) :
    ((p.attr.read r).runOn g).2.limit s = g.limit s := by
  rcases runOn_read_cases p r g with ⟨hrun, -⟩ | ⟨image, v, himage, -, hrun⟩
  · rw [hrun]
  · have hr' := (loadsTo_materialise himage (p.attr.refs v)).alive _ hr
    rw [hrun]
    dsimp only
    rw [limit_put hr', limit, contents?_materialise himage, limit]

theorem ReadsTo.limit_eq (h : g.ReadsTo g') (s : Ref l) : g'.limit s = g.limit s := by
  induction h with
  | refl => rfl
  | read p _ hr ih => rw [limit_read p hr, ih]
  | materialise refs _ himage ih => rw [limit, contents?_materialise himage, ← limit, ih]

/-- The limits of what exists stay as they are. -/
theorem ReadsTo.depth_eq (h : g.ReadsTo g') (hg : g.Sound) {s : Ref l} (hs : g.isAlive s.any) :
    g'.depth s = g.depth s := by
  rw [← limit_of_isAlive hs, ← limit_of_isAlive ((h.loadsTo hg).alive _ hs), h.limit_eq]

/-! ### Reading an attribute -/

/-- **Reading an attribute** gives its value, is reading, and makes what the value keeps alive. -/
theorem Sound.yields_read (hg : g.Sound) (p : Part k) {r : Ref k} {v : p.Value}
    (hr : g.isAlive r.any) (hv : p.attr.value r g = .ok v) :
    g.Yields (p.attr.read r) v fun g' => g.ReadsTo g' ∧ ∀ s ∈ p.held v, g'.isAlive s := by
  obtain ⟨g', hrun, hload, -, hrefs⟩ := hg.runOn_read p hr
  have hreads := ReadsTo.of_read p hr
  rw [hrun] at hreads
  refine ⟨g', by rw [hrun, hv], hload.keeps, hreads, fun s hs => ?_⟩
  have hpresent : g'.isPresent s = true := (hload.present s).trans (hg.held p r v hv s hs)
  exact hrefs v hv s (p.held_subset_refs v hs) hpresent

end Graph

end ManagedImage
