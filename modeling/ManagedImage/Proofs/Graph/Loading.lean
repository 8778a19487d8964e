import ManagedImage.Proofs.Graph.Part

/-!
# Loading is not seen

Reading an attribute may load it, and loading makes the entities that it refers to.  None of this
changes what can be read: an entity that the image would make counts as present, and an attribute
that has not been loaded counts as the value that loading gives.

## Main definitions

* `Graph.isPresent` — the entity exists, or the image makes it when it is asked for.
* `Graph.LoadsTo` — one graph is another one after some loading.
* `Graph.Sound` — what a graph refers to is there, as far as it can be.

## Main results

* `Graph.Sound.runOn_read` — reading gives the value and does nothing but load.
* `Graph.value_put_self`, `Graph.value_put_of_ne`, `Graph.value_put_of_ne_part` — writing changes
  the value of one part of one entity.
-/

namespace ManagedImage

namespace Graph

variable {k l : EntityKind} {g g' : Graph}

/-- The entity exists, or the image makes it when it is asked for. -/
def isPresent (g : Graph) (r : AnyRef) : Bool :=
  g.isAlive r || (g.image?.bind (·.rowOf? r)).isSome

/-- Nothing but loading leads from `g` to `g'`. -/
structure LoadsTo (g g' : Graph) : Prop where
  /-- The image is the same. -/
  image : g'.image? = g.image?
  /-- Nothing has been authored. -/
  number : g'.nextNumber = g.nextNumber
  /-- The same entities can be had. -/
  present : ∀ r, g'.isPresent r = g.isPresent r
  /-- What exists stays. -/
  alive : ∀ r, g.isAlive r → g'.isAlive r
  /-- All attributes have the values that they had. -/
  value : ∀ {k : EntityKind} (p : Part k) (r : Ref k), p.attr.value r g' = p.attr.value r g

namespace LoadsTo

theorem refl (g : Graph) : g.LoadsTo g :=
  ⟨rfl, rfl, fun _ => rfl, fun _ h => h, fun _ _ => rfl⟩

theorem trans {g'' : Graph} (h : g.LoadsTo g') (h' : g'.LoadsTo g'') : g.LoadsTo g'' where
  image := h'.image.trans h.image
  number := h'.number.trans h.number
  present r := (h'.present r).trans (h.present r)
  alive r hr := h'.alive r (h.alive r hr)
  value p r := (h'.value p r).trans (h.value p r)

end LoadsTo

/-- The number of the entity, if it is an authored one, has been given away. -/
def hasNumber (g : Graph) (r : AnyRef) : Prop := ∀ n, r.id = .authored n → n < g.nextNumber

/-- What the graph refers to is there, as far as it can be. -/
structure Sound (g : Graph) : Prop where
  /-- An entity that a loaded attribute refers to has been made, unless it is gone for good. -/
  grounded : ∀ {k : EntityKind} (p : Part k) (r : Ref k) (v : p.Value),
    p.attr.stored r g = .evaluated v → ∀ s ∈ p.attr.refs v, g.isPresent s → g.isAlive s
  /-- What an entity holds does not go. -/
  held : ∀ {k : EntityKind} (p : Part k) (r : Ref k) (v : p.Value),
    p.attr.value r g = .ok v → ∀ s ∈ p.held v, g.isPresent s
  /-- The next number has not been given away. -/
  fresh : ∀ r, g.isAlive r → g.hasNumber r
  /-- Nothing refers to an entity that has not been authored yet. -/
  known : ∀ {k : EntityKind} (p : Part k) (r : Ref k) (v : p.Value),
    p.attr.value r g = .ok v → ∀ s ∈ p.attr.refs v, g.hasNumber s

theorem isPresent_of_isAlive {r : AnyRef} (h : g.isAlive r) : g.isPresent r := by
  simp [isPresent, h]

/-- An entity that does not exist has nothing in it. -/
theorem stored_of_not_isAlive (p : Part k) {r : Ref k} (h : g.isAlive r.any = false) :
    p.attr.stored r g = .unevaluated := by
  have hnone : g.entity? r = none := by
    rw [← Option.isSome_eq_false_iff.trans Option.isNone_iff_eq_none, isSome_entity?, h]
  simp [Attribute.stored, Attribute.cell, hnone]

theorem isAlive_of_stored {p : Part k} {r : Ref k} {v : p.Value}
    (h : p.attr.stored r g = .evaluated v) : g.isAlive r.any := by
  cases hr : g.isAlive r.any with
  | true => rfl
  | false =>
    rw [stored_of_not_isAlive p hr] at h
    exact absurd h (by simp)

/-- An entity that is not there has no values. -/
theorem value_of_not_isPresent (p : Part k) {r : Ref k} (h : g.isPresent r.any = false) :
    p.attr.value r g = .error .imageDropped := by
  rw [isPresent, Bool.or_eq_false_iff] at h
  obtain ⟨halive, hrow⟩ := h
  rw [Attribute.value, stored_of_not_isAlive p halive]
  unfold Attribute.loaded
  cases himage : g.image? with
  | none => rfl
  | some image =>
    rw [himage] at hrow
    have hnone : image.rowOf? r.any = none := by simpa using hrow
    simp only [hnone]

theorem isPresent_of_value {p : Part k} {r : Ref k} {v : p.Value} (h : p.attr.value r g = .ok v) :
    g.isPresent r.any := by
  cases hr : g.isPresent r.any with
  | true => rfl
  | false =>
    rw [value_of_not_isPresent p hr] at h
    exact absurd h (by simp)

/-! ### Making entities -/

theorem materialise_cons (image : MetadataImage) (r : AnyRef) (refs : List AnyRef) (g : Graph) :
    g.materialise image (r :: refs) = (g.materialise image [r]).materialise image refs := rfl

/-- The graph with the entity of a row added. -/
def addRow (g : Graph) (image : MetadataImage) (r : AnyRef) (row : Row) : Graph :=
  { g with entities := g.entities.insert r (r.kind.ofRow image.config row) }

/-- What making one entity comes to. -/
theorem materialise_singleton (image : MetadataImage) (r : AnyRef) (g : Graph) :
    g.materialise image [r] = g ∧ (g.isAlive r ∨ image.rowOf? r = none) ∨
      g.isAlive r = false ∧ ∃ row, image.rowOf? r = some row ∧
        g.materialise image [r] = g.addRow image r row := by
  cases halive : g.isAlive r with
  | true =>
    have hin : r ∈ g.entities := Std.DHashMap.contains_iff_mem.mp halive
    exact Or.inl ⟨by simp [materialise, hin], Or.inl rfl⟩
  | false =>
    have hout : r ∉ g.entities := by
      rw [← Std.DHashMap.contains_iff_mem]
      exact fun h => Bool.noConfusion (halive.symm.trans h)
    cases hrow : image.rowOf? r with
    | none => exact Or.inl ⟨by simp [materialise, hout, hrow], Or.inr rfl⟩
    | some row => exact Or.inr ⟨rfl, row, rfl, by simp [materialise, hout, hrow, addRow]⟩

theorem isAlive_addRow (image : MetadataImage) (r s : AnyRef) (row : Row) :
    (g.addRow image r row).isAlive s = (r == s || g.isAlive s) :=
  Std.DHashMap.contains_insert

theorem stored_addRow_self (image : MetadataImage) (row : Row) (p : Part l) (s : Ref l) :
    p.attr.stored s (g.addRow image s.any row) = p.attr.get (l.ofRow image.config row) := by
  have hget : (g.addRow image s.any row).entity? s = some (l.ofRow image.config row) :=
    Std.DHashMap.get?_insert_self
  simp [Attribute.stored, Attribute.cell, hget]

theorem stored_addRow_of_ne (image : MetadataImage) {r : AnyRef} (row : Row) (p : Part l)
    {s : Ref l} (h : r ≠ s.any) :
    p.attr.stored s (g.addRow image r row) = p.attr.stored s g := by
  have hget : (g.addRow image r row).entity? s = g.entity? s :=
    Std.DHashMap.get?_insert.trans (by simp [h, entity?])
  simp [Attribute.stored, Attribute.cell, hget]

/-- The entity in a row that is made now has the values that it had before. -/
theorem value_addRow {image : MetadataImage} {r : AnyRef} {row : Row}
    (himage : g.image? = some image) (hr : g.isAlive r = false) (hrow : image.rowOf? r = some row)
    (p : Part l) (s : Ref l) : p.attr.value s (g.addRow image r row) = p.attr.value s g := by
  by_cases h : r = s.any
  · subst h
    have hload : p.attr.loaded s g.image? = p.attr.load image row := by
      simp [Attribute.loaded, himage, hrow]
    rw [Attribute.value, Attribute.value, stored_addRow_self, stored_of_not_isAlive p hr]
    change _ = p.attr.loaded s g.image?
    rw [hload]
    cases hpart : p.attr.get (l.ofRow image.config row) with
    | unevaluated => exact hload
    | evaluated v => exact (p.attr.load_of_get_ofRow image row v hpart).symm
  · rw [Attribute.value, Attribute.value, stored_addRow_of_ne image row p h]
    rfl

theorem loadsTo_materialise_singleton {image : MetadataImage} (himage : g.image? = some image)
    (r : AnyRef) : g.LoadsTo (g.materialise image [r]) := by
  rcases materialise_singleton image r g with ⟨h, -⟩ | ⟨hdead, row, hrow, h⟩
  · rw [h]
    exact LoadsTo.refl g
  · rw [h]
    refine ⟨rfl, rfl, fun s => ?_, fun s hs => ?_, value_addRow himage hdead hrow⟩
    · rw [isPresent, isPresent, isAlive_addRow, show (g.addRow image r row).image? = g.image? from rfl]
      by_cases hsr : r = s
      · subst hsr
        simp [himage, hrow]
      · rw [beq_eq_false_iff_ne.mpr hsr, Bool.false_or]
    · rw [isAlive_addRow, hs, Bool.or_true]

/-- After an entity has been made it exists, if the image has it at all. -/
theorem isAlive_materialise_singleton {image : MetadataImage} {r : AnyRef}
    (himage : g.image? = some image) (hr : g.isPresent r) :
    (g.materialise image [r]).isAlive r := by
  rcases materialise_singleton image r g with ⟨h, halive | hnone⟩ | ⟨-, row, -, h⟩
  · rw [h, halive]
  · rw [h]
    simpa [isPresent, himage, hnone] using hr
  · rw [h, isAlive_addRow, beq_self_eq_true, Bool.true_or]

/-- Making entities is loading. -/
theorem loadsTo_materialise {image : MetadataImage} (himage : g.image? = some image)
    (refs : List AnyRef) : g.LoadsTo (g.materialise image refs) := by
  induction refs generalizing g with
  | nil => exact LoadsTo.refl g
  | cons r refs ih =>
    rw [materialise_cons]
    have hone := loadsTo_materialise_singleton himage r
    exact hone.trans (ih (hone.image.trans himage))

theorem isAlive_materialise {image : MetadataImage} (himage : g.image? = some image)
    {refs : List AnyRef} {r : AnyRef} (hr : r ∈ refs) (hp : g.isPresent r) :
    (g.materialise image refs).isAlive r := by
  induction refs generalizing g with
  | nil => exact absurd hr List.not_mem_nil
  | cons s refs ih =>
    rw [materialise_cons]
    have hone := loadsTo_materialise_singleton himage s
    rcases List.mem_cons.mp hr with rfl | hr
    · have halive := isAlive_materialise_singleton himage hp
      exact (loadsTo_materialise (hone.image.trans himage) refs).alive r halive
    · exact ih (hone.image.trans himage) hr ((hone.present r).trans hp)

/-- What exists after some entities have been made existed before, or comes from a row. -/
theorem isAlive_of_isAlive_materialise {image : MetadataImage} {refs : List AnyRef} {s : AnyRef}
    {n : Nat} (h : (g.materialise image refs).isAlive s) (hs : s.id = .authored n) :
    g.isAlive s := by
  induction refs generalizing g with
  | nil => exact h
  | cons r refs ih =>
    rw [materialise_cons] at h
    have hone := ih h
    rcases materialise_singleton image r g with ⟨heq, -⟩ | ⟨-, row, hrow, heq⟩
    · rwa [heq] at hone
    · rw [heq, isAlive_addRow, Bool.or_eq_true] at hone
      rcases hone with hr | hone
      · rw [beq_iff_eq.mp hr, MetadataImage.rowOf?, hs] at hrow
        exact absurd hrow (by simp)
      · exact hone

/-- What is loaded after some entities have been made was loaded before, or is there in an entity that
has just been made. -/
theorem stored_of_stored_materialise {image : MetadataImage} {refs : List AnyRef} {p : Part k}
    {r : Ref k} {v : p.Value} (h : p.attr.stored r (g.materialise image refs) = .evaluated v) :
    p.attr.stored r g = .evaluated v ∨
      ∃ row, p.attr.get (k.ofRow image.config row) = .evaluated v := by
  induction refs generalizing g with
  | nil => exact Or.inl h
  | cons s refs ih =>
    rw [materialise_cons] at h
    rcases ih h with hone | hnew
    · rcases materialise_singleton image s g with ⟨heq, -⟩ | ⟨-, row, hrow, heq⟩
      · rw [heq] at hone
        exact Or.inl hone
      · rw [heq] at hone
        by_cases hsr : s = r.any
        · subst hsr
          rw [stored_addRow_self] at hone
          exact Or.inr ⟨row, hone⟩
        · rw [stored_addRow_of_ne image row p hsr] at hone
          exact Or.inl hone
    · exact Or.inr hnew

theorem Sound.materialise (hg : g.Sound) {image : MetadataImage} (himage : g.image? = some image)
    (refs : List AnyRef) : (g.materialise image refs).Sound := by
  have hload := loadsTo_materialise himage refs
  refine ⟨fun p r v h s hs hp => ?_, fun p r v h s hs => ?_, fun s h n hn => ?_,
    fun p r v h s hs n hn => ?_⟩
  · rcases stored_of_stored_materialise h with hold | ⟨row, hnew⟩
    · exact hload.alive s (hg.grounded p r v hold s hs ((hload.present s).symm.trans hp))
    -- an entity that has just been made refers to nothing yet
    · rw [Part.refs_of_get_ofRow hnew] at hs
      exact absurd hs List.not_mem_nil
  · rw [hload.present]
    exact hg.held p r v ((hload.value p r).symm.trans h) s hs
  · rw [hload.number]
    exact hg.fresh s (isAlive_of_isAlive_materialise h hn) n hn
  · rw [hload.number]
    exact hg.known p r v ((hload.value p r).symm.trans h) s hs n hn

/-! ### Writing -/

/-- The graph with the value `v` in one part of one entity. -/
def put (g : Graph) (p : Part k) (r : Ref k) (v : p.Value) : Graph :=
  (p.attr.cell r).set (.evaluated v) g

section Put

variable {p : Part k} {r : Ref k} {v : p.Value}

@[simp] theorem image?_put : (g.put p r v).image? = g.image? := rfl

@[simp] theorem nextNumber_put : (g.put p r v).nextNumber = g.nextNumber := rfl

@[simp] theorem isAlive_put (s : AnyRef) : (g.put p r v).isAlive s = g.isAlive s :=
  isAlive_modifyEntity g r _ s

@[simp] theorem isPresent_put (s : AnyRef) : (g.put p r v).isPresent s = g.isPresent s := by
  simp [isPresent]

theorem stored_put_self (hr : g.isAlive r.any) : p.attr.stored r (g.put p r v) = .evaluated v :=
  Attribute.stored_set_self (.evaluated v) hr

theorem stored_put_of_ne {q : Part l} {s : Ref l} (h : r.any ≠ s.any) :
    q.attr.stored s (g.put p r v) = q.attr.stored s g :=
  Attribute.stored_set_of_ne (.evaluated v) h

theorem stored_put_of_ne_part {q : Part k} (h : p ≠ q) (s : Ref k) :
    q.attr.stored s (g.put p r v) = q.attr.stored s g := by
  by_cases hrs : r.any = s.any
  · obtain rfl := Ref.any_injective hrs
    simp only [Attribute.stored, Attribute.cell, put, entity?_modifyEntity_self, Option.map_map]
    congr 2
    exact funext fun e => Part.get_set_of_ne h (.evaluated v) e
  · exact stored_put_of_ne hrs

theorem value_put_self (hr : g.isAlive r.any) : p.attr.value r (g.put p r v) = .ok v := by
  rw [Attribute.value, stored_put_self hr]

theorem value_put_of_ne {q : Part l} {s : Ref l} (h : r.any ≠ s.any) :
    q.attr.value s (g.put p r v) = q.attr.value s g := by
  rw [Attribute.value, Attribute.value, stored_put_of_ne h]
  rfl

theorem value_put_of_ne_part {q : Part k} (h : p ≠ q) (s : Ref k) :
    q.attr.value s (g.put p r v) = q.attr.value s g := by
  rw [Attribute.value, Attribute.value, stored_put_of_ne_part h]
  rfl

variable (g p r v) in
/-- Each part of each entity either is the one that is written or stays as it is. -/
theorem put_cases {C : ∀ {l : EntityKind}, Part l → Ref l → Prop} (hwritten : C p r)
    (hother : ∀ {l : EntityKind} (q : Part l) (s : Ref l),
      q.attr.stored s (g.put p r v) = q.attr.stored s g → C q s) (q : Part l) (s : Ref l) :
    C q s := by
  by_cases hrs : r.any = s.any
  · obtain rfl : k = l := congrArg AnyRef.kind hrs
    obtain rfl := Ref.any_injective hrs
    by_cases hpq : p = q
    · exact hpq ▸ hwritten
    · exact hother q r (stored_put_of_ne_part hpq r)
  · exact hother q s (stored_put_of_ne hrs)

theorem value_of_stored {q : Part l} {s : Ref l}
    (h : q.attr.stored s (g.put p r v) = q.attr.stored s g) :
    q.attr.value s (g.put p r v) = q.attr.value s g := by
  rw [Attribute.value, Attribute.value, h]
  rfl

/-- What is there after writing was there before, or refers to what the new value refers to. -/
theorem stored_put (hr : g.isAlive r.any) (q : Part l) (s : Ref l) :
    ∀ w, q.attr.stored s (g.put p r v) = .evaluated w →
      q.attr.stored s g = .evaluated w ∨ q.attr.refs w = p.attr.refs v := by
  refine put_cases g p r v (C := fun q s => ∀ w, q.attr.stored s (g.put p r v) = .evaluated w →
    q.attr.stored s g = .evaluated w ∨ q.attr.refs w = p.attr.refs v) ?_ ?_ q s
  · intro w h
    rw [stored_put_self hr] at h
    obtain rfl := Deferred.evaluated.inj h
    exact Or.inr rfl
  · exact fun q s heq w h => Or.inl (heq.symm.trans h)

theorem value_put (hr : g.isAlive r.any) (q : Part l) (s : Ref l) :
    ∀ w, q.attr.value s (g.put p r v) = .ok w →
      q.attr.value s g = .ok w ∨ q.attr.refs w = p.attr.refs v ∧ q.held w = p.held v := by
  refine put_cases g p r v (C := fun q s => ∀ w, q.attr.value s (g.put p r v) = .ok w →
    q.attr.value s g = .ok w ∨ q.attr.refs w = p.attr.refs v ∧ q.held w = p.held v) ?_ ?_ q s
  · intro w h
    rw [value_put_self hr] at h
    obtain rfl := Except.ok.inj h
    exact Or.inr ⟨rfl, rfl⟩
  · exact fun q s heq w h => Or.inl ((value_of_stored heq).symm.trans h)

/-- Writing what is there keeps a graph sound. -/
theorem Sound.put (hg : g.Sound) (hr : g.isAlive r.any)
    (hrefs : ∀ s ∈ p.attr.refs v, g.isPresent s → g.isAlive s)
    (hheld : ∀ s ∈ p.held v, g.isPresent s) (hknown : ∀ s ∈ p.attr.refs v, g.hasNumber s) :
    (g.put p r v).Sound := by
  refine ⟨fun q s w h t ht => ?_, fun q s w h t ht => ?_, fun s h => ?_, fun q s w h t ht => ?_⟩
  · rw [isPresent_put, isAlive_put]
    rcases stored_put hr q s w h with hold | heq
    · exact hg.grounded q s w hold t ht
    · exact hrefs t (heq ▸ ht)
  · rw [isPresent_put]
    rcases value_put hr q s w h with hold | ⟨-, heq⟩
    · exact hg.held q s w hold t ht
    · exact hheld t (heq ▸ ht)
  · rw [isAlive_put] at h
    exact hg.fresh s h
  · rcases value_put hr q s w h with hold | ⟨heq, -⟩
    · exact hg.known q s w hold t ht
    · exact hknown t (heq ▸ ht)

/-- Writing what refers to entities that exist keeps a graph sound. -/
theorem Sound.put_of_isAlive (hg : g.Sound) (hr : g.isAlive r.any)
    (hrefs : ∀ s ∈ p.attr.refs v, g.isAlive s) : (g.put p r v).Sound :=
  hg.put hr (fun s hs _ => hrefs s hs)
    (fun s hs => isPresent_of_isAlive (hrefs s (p.held_subset_refs v hs)))
    fun s hs => hg.fresh s (hrefs s hs)

/-- Writing the value that is there already is loading. -/
theorem loadsTo_put (hr : g.isAlive r.any) (hv : p.attr.value r g = .ok v) :
    g.LoadsTo (g.put p r v) := by
  refine ⟨rfl, rfl, isPresent_put, fun s hs => (isAlive_put s).trans hs, ?_⟩
  refine put_cases g p r v ?_ fun q s => value_of_stored
  rw [value_put_self hr, hv]

end Put

/-! ### Reading -/

/-- Reading, told by whether the attribute has been loaded. -/
theorem runOn_read_eq (p : Part k) (r : Ref k) (g : Graph) :
    (p.attr.read r).runOn g =
      match p.attr.stored r g with
      | .evaluated v => (.ok v, g)
      | .unevaluated =>
        match (p.attr.fetch r).runOn g with
        | (.ok v, g') => (.ok v, g'.put p r v)
        | (.error e, g') => (.error e, g') := by
  rw [Attribute.read, Deferred.runOn_force,
    show (p.attr.cell r).get g = p.attr.stored r g from rfl]
  cases p.attr.stored r g with
  | evaluated v => rfl
  | unevaluated => rcases (p.attr.fetch r).runOn g with ⟨e | v, g'⟩ <;> rfl

theorem runOn_fetch_error {p : Part k} {r : Ref k} {e : Error}
    (h : p.attr.loaded r g.image? = .error e) : (p.attr.fetch r).runOn g = (.error e, g) := by
  simp [Action.runOn, Attribute.fetch, h]

theorem runOn_fetch_ok {p : Part k} {r : Ref k} {v : p.Value}
    (h : p.attr.loaded r g.image? = .ok v) :
    ∃ image, g.image? = some image ∧
      (p.attr.fetch r).runOn g = (.ok v, g.materialise image (p.attr.refs v)) := by
  cases himage : g.image? with
  | none =>
    rw [himage] at h
    exact absurd h (by simp [Attribute.loaded])
  | some image =>
    refine ⟨image, rfl, ?_⟩
    unfold Action.runOn Attribute.fetch
    rw [h]
    simp only [himage]

/-- Reading gives the value.  It leaves the graph alone where the attribute has been loaded or cannot
be loaded, and otherwise makes what the value refers to and writes the value. -/
theorem runOn_read_cases (p : Part k) (r : Ref k) (g : Graph) :
    (p.attr.read r).runOn g = (p.attr.value r g, g) ∧
        (∀ v, p.attr.value r g = .ok v → p.attr.stored r g = .evaluated v) ∨
      ∃ image v, g.image? = some image ∧ p.attr.value r g = .ok v ∧
        (p.attr.read r).runOn g = (.ok v, (g.materialise image (p.attr.refs v)).put p r v) := by
  cases hstored : p.attr.stored r g with
  | evaluated v =>
    have hvalue : p.attr.value r g = .ok v := by rw [Attribute.value, hstored]
    refine Or.inl ⟨by rw [runOn_read_eq, hstored, hvalue], fun w hw => ?_⟩
    obtain rfl := Except.ok.inj (hvalue.symm.trans hw)
    rfl
  | unevaluated =>
    have hvalue : p.attr.value r g = p.attr.loaded r g.image? := by rw [Attribute.value, hstored]
    cases hload : p.attr.loaded r g.image? with
    | error e =>
      refine Or.inl ⟨by rw [runOn_read_eq, hstored, runOn_fetch_error hload, hvalue, hload], ?_⟩
      intro v hv
      cases (hload.symm.trans hvalue.symm).trans hv
    | ok v =>
      obtain ⟨image, himage, hfetch⟩ := runOn_fetch_ok hload
      exact Or.inr ⟨image, v, himage, hvalue.trans hload, by rw [runOn_read_eq, hstored, hfetch]⟩

/-- Writing a value that has just been loaded, after what it refers to has been made, is loading. -/
theorem loadsTo_materialise_put {image : MetadataImage} {p : Part k} {r : Ref k} {v : p.Value}
    (hr : g.isAlive r.any) (himage : g.image? = some image) (hv : p.attr.value r g = .ok v) :
    g.LoadsTo ((g.materialise image (p.attr.refs v)).put p r v) := by
  have hmade := loadsTo_materialise himage (p.attr.refs v)
  exact hmade.trans (loadsTo_put (hmade.alive _ hr) ((hmade.value p r).trans hv))

/-- Reading gives the value and does nothing but load. -/
theorem exists_runOn_read (p : Part k) {r : Ref k} (hr : g.isAlive r.any) :
    ∃ g', (p.attr.read r).runOn g = (p.attr.value r g, g') ∧ g.LoadsTo g' := by
  rcases runOn_read_cases p r g with ⟨hrun, -⟩ | ⟨image, v, himage, hv, hrun⟩
  · exact ⟨g, hrun, LoadsTo.refl g⟩
  · exact ⟨_, hrun.trans (by rw [hv]), loadsTo_materialise_put hr himage hv⟩

/-- **Reading gives the value and does nothing but load.**  What the value refers to exists
afterwards, unless it is gone for good. -/
theorem Sound.runOn_read (hg : g.Sound) (p : Part k) {r : Ref k} (hr : g.isAlive r.any) :
    ∃ g', (p.attr.read r).runOn g = (p.attr.value r g, g') ∧ g.LoadsTo g' ∧ g'.Sound ∧
      ∀ v, p.attr.value r g = .ok v → ∀ s ∈ p.attr.refs v, g'.isPresent s → g'.isAlive s := by
  rcases runOn_read_cases p r g with ⟨hrun, hstored⟩ | ⟨image, v, himage, hv, hrun⟩
  · exact ⟨g, hrun, LoadsTo.refl g, hg, fun v hv => hg.grounded p r v (hstored v hv)⟩
  · have hmade := loadsTo_materialise himage (p.attr.refs v)
    have hv' := (hmade.value p r).trans hv
    have hsound := hg.materialise himage (p.attr.refs v)
    -- what the value refers to is made before the value is written
    have hrefs : ∀ s ∈ p.attr.refs v, (g.materialise image (p.attr.refs v)).isPresent s →
        (g.materialise image (p.attr.refs v)).isAlive s := fun s hs hp =>
      isAlive_materialise himage hs ((hmade.present s).symm.trans hp)
    refine ⟨_, hrun.trans (by rw [hv]), loadsTo_materialise_put hr himage hv,
      hsound.put (hmade.alive _ hr) hrefs (hsound.held p r v hv') (hsound.known p r v hv'),
      fun w hw => ?_⟩
    obtain rfl := Except.ok.inj (hv.symm.trans hw)
    simpa using hrefs

end Graph

end ManagedImage
