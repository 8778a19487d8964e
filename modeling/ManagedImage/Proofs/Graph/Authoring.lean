import ManagedImage.Graph.Authored
import ManagedImage.Proofs.Graph.Loading

/-!
# Authoring entities

An entity that is authored gets the next number, which nothing refers to yet.  So everything else
stays as it was, and the graph stays sound.  Until something has been done with the new entity it can
be taken back.

## Main definitions

* `Graph.next` — the next entity that is authored.
* `Graph.Admits` — everything in the contents is there, and what it refers to exists.

## Main results

* `Graph.Sound.authored` — authoring contents that a graph admits keeps it sound.
* `Graph.LoadsTo.withdraw` — taking back what has been authored leaves the graph as it was.
* `Graph.admits_module`, `Graph.admits_typeDef`, … — all authored contents are admitted.
-/

namespace ManagedImage

namespace Graph

variable {k l : EntityKind} {g g' : Graph}

/-- The next entity that is authored. -/
def next (g : Graph) (k : EntityKind) : Ref k := ⟨.authored g.nextNumber⟩

/-- The graph with an entity authored. -/
def authored (g : Graph) (e : k.Entity) : Graph :=
  { g with entities := g.entities.insert (g.next k).any e, nextNumber := g.nextNumber + 1 }

@[simp] theorem runOn_author (e : k.Entity) :
    (author e).runOn g = (.ok (g.next k), g.authored e) := rfl

/-- Everything in the contents is there, and what it refers to exists. -/
def Admits (g : Graph) (e : k.Entity) : Prop :=
  ∀ p : Part k, ∃ v, p.attr.get e = .evaluated v ∧ ∀ s ∈ p.attr.refs v, g.isAlive s

theorem Sound.isAlive_next (hg : g.Sound) (k : EntityKind) :
    g.isAlive (g.next k).any = false := by
  cases h : g.isAlive (g.next k).any with
  | false => rfl
  | true => exact absurd (hg.fresh _ h _ rfl) (Nat.lt_irrefl _)

theorem Sound.isPresent_next (hg : g.Sound) (k : EntityKind) :
    g.isPresent (g.next k).any = false := by
  rw [isPresent, hg.isAlive_next, Bool.false_or]
  cases g.image? <;> rfl

section Authored

variable {e : k.Entity}

theorem isAlive_authored (s : AnyRef) :
    (g.authored e).isAlive s = ((g.next k).any == s || g.isAlive s) :=
  Std.DHashMap.contains_insert

theorem isAlive_authored_next : (g.authored e).isAlive (g.next k).any := by
  rw [isAlive_authored, beq_self_eq_true, Bool.true_or]

theorem isAlive_authored_of_isAlive {s : AnyRef} (hs : g.isAlive s) :
    (g.authored e).isAlive s := by
  rw [isAlive_authored, hs, Bool.or_true]

theorem isPresent_authored (s : AnyRef) :
    (g.authored e).isPresent s = ((g.next k).any == s || g.isPresent s) := by
  rw [isPresent, isPresent, isAlive_authored, Bool.or_assoc]
  rfl

theorem next_ne_of_hasNumber {s : AnyRef} (hs : g.hasNumber s) : (g.next k).any ≠ s := by
  rintro rfl
  exact absurd (hs _ rfl) (Nat.lt_irrefl _)

theorem hasNumber_authored {s : AnyRef} (hs : g.hasNumber s) : (g.authored e).hasNumber s :=
  fun n hn => Nat.lt_succ_of_lt (hs n hn)

theorem stored_authored_next (p : Part k) :
    p.attr.stored (g.next k) (g.authored e) = p.attr.get e := by
  have hget : (g.authored e).entity? (g.next k) = some e := Std.DHashMap.get?_insert_self
  simp [Attribute.stored, Attribute.cell, hget]

theorem stored_authored_of_ne (p : Part l) {s : Ref l} (h : (g.next k).any ≠ s.any) :
    p.attr.stored s (g.authored e) = p.attr.stored s g := by
  have hget : (g.authored e).entity? s = g.entity? s :=
    Std.DHashMap.get?_insert.trans (by simp [h, entity?])
  simp [Attribute.stored, Attribute.cell, hget]

theorem value_authored_next {p : Part k} {v : p.Value} (h : p.attr.get e = .evaluated v) :
    p.attr.value (g.next k) (g.authored e) = .ok v := by
  rw [Attribute.value, stored_authored_next, h]

theorem value_authored_of_ne (p : Part l) {s : Ref l} (h : (g.next k).any ≠ s.any) :
    p.attr.value s (g.authored e) = p.attr.value s g := by
  rw [Attribute.value, Attribute.value, stored_authored_of_ne p h]
  rfl

/-- Each value of each entity either is one of the new entity or is as it was. -/
theorem value_authored (he : g.Admits e) {p : Part l} {r : Ref l} {v : p.Value}
    (h : p.attr.value r (g.authored e) = .ok v) :
    p.attr.value r g = .ok v ∨ ∀ s ∈ p.attr.refs v, g.isAlive s := by
  by_cases hr : (g.next k).any = r.any
  · obtain rfl : k = l := congrArg AnyRef.kind hr
    obtain rfl := Ref.any_injective hr
    obtain ⟨w, hw, hrefs⟩ := he p
    rw [value_authored_next hw] at h
    obtain rfl := Except.ok.inj h
    exact Or.inr hrefs
  · rw [value_authored_of_ne p hr] at h
    exact Or.inl h

/-- **Authoring contents that the graph admits keeps it sound.** -/
theorem Sound.authored (hg : g.Sound) (he : g.Admits e) : (g.authored e).Sound := by
  refine ⟨fun p r v h s hs hp => ?_, fun p r v h s hs => ?_, fun s h n hn => ?_,
    fun p r v h s hs => ?_⟩
  · rw [isPresent_authored, Bool.or_eq_true] at hp
    rw [isAlive_authored, Bool.or_eq_true]
    refine hp.imp_right fun hp => ?_
    rename_i l _
    by_cases hr : (g.next k).any = r.any
    · obtain rfl : k = l := congrArg AnyRef.kind hr
      obtain rfl := Ref.any_injective hr
      obtain ⟨w, hw, hrefs⟩ := he p
      rw [stored_authored_next, hw] at h
      obtain rfl := Deferred.evaluated.inj h
      exact hrefs s hs
    · rw [stored_authored_of_ne p hr] at h
      exact hg.grounded p r v h s hs hp
  · rw [isPresent_authored, Bool.or_eq_true]
    rcases value_authored he h with hold | hrefs
    · exact Or.inr (hg.held p r v hold s hs)
    · exact Or.inr (isPresent_of_isAlive (hrefs s (p.held_subset_refs v hs)))
  · rw [isAlive_authored, Bool.or_eq_true, beq_iff_eq] at h
    rcases h with rfl | h
    · obtain rfl := Identity.authored.inj hn
      exact Nat.lt_succ_self _
    · exact hasNumber_authored (hg.fresh s h) n hn
  -- a new entity refers to what exists, so to nothing that is authored later
  · rcases value_authored he h with hold | hrefs
    · exact hasNumber_authored (hg.known p r v hold s hs)
    · exact hasNumber_authored (hg.fresh s (hrefs s hs))

end Authored

/-! ### Taking back -/

theorem isAlive_withdraw {r : Ref k} {s : AnyRef} (h : r.any ≠ s) :
    (g.withdraw r).isAlive s = g.isAlive s :=
  Std.DHashMap.contains_erase.trans (by simp [h, isAlive])

theorem isAlive_withdraw_self {r : Ref k} : (g.withdraw r).isAlive r.any = false :=
  Std.DHashMap.contains_erase.trans (by simp)

theorem isPresent_withdraw {r : Ref k} {s : AnyRef} (h : r.any ≠ s) :
    (g.withdraw r).isPresent s = g.isPresent s := by
  rw [isPresent, isPresent, isAlive_withdraw h]
  rfl

theorem stored_withdraw {r : Ref k} (p : Part l) {s : Ref l} (h : r.any ≠ s.any) :
    p.attr.stored s (g.withdraw r) = p.attr.stored s g := by
  have hget : (g.withdraw r).entity? s = g.entity? s :=
    Std.DHashMap.get?_erase.trans (by simp [h, entity?])
  simp [Attribute.stored, Attribute.cell, hget]

theorem value_withdraw {r : Ref k} (p : Part l) {s : Ref l} (h : r.any ≠ s.any) :
    p.attr.value s (g.withdraw r) = p.attr.value s g := by
  rw [Attribute.value, Attribute.value, stored_withdraw p h]
  rfl

section Withdraw

variable {e : k.Entity}

/-- Nothing is left of an authored entity that is taken back. -/
theorem isPresent_withdraw_next (k : EntityKind) :
    (g'.withdraw (g.next k)).isPresent (g.next k).any = false := by
  rw [isPresent, isAlive_withdraw_self, Bool.false_or]
  cases (g'.withdraw (g.next k)).image? <;> rfl

/-- **Taking back what has been authored** leaves the graph as it was, if nothing but loading has
happened since. -/
theorem LoadsTo.withdraw (h : (g.authored e).LoadsTo g') (hg : g.Sound) :
    g.LoadsTo (g'.withdraw (g.next k)) where
  image := h.image
  number := congrArg (· - 1) h.number
  present s := by
    by_cases hs : (g.next k).any = s
    · rw [← hs, isPresent_withdraw_next, hg.isPresent_next]
    · rw [isPresent_withdraw hs, h.present, isPresent_authored, beq_eq_false_iff_ne.mpr hs,
        Bool.false_or]
  alive s hs := by
    rw [isAlive_withdraw (next_ne_of_hasNumber (hg.fresh s hs))]
    exact h.alive s (isAlive_authored_of_isAlive hs)
  value p s := by
    by_cases hs : (g.next k).any = s.any
    · rw [value_of_not_isPresent p (hs ▸ isPresent_withdraw_next k),
        value_of_not_isPresent p (hs ▸ hg.isPresent_next k)]
    · rw [value_withdraw p hs, h.value, value_authored_of_ne p hs]

/-- Nothing refers to an authored entity that is taken back. -/
theorem LoadsTo.sound_withdraw (h : (g.authored e).LoadsTo g') (hg : g.Sound) (hg' : g'.Sound) :
    (g'.withdraw (g.next k)).Sound := by
  have hload := h.withdraw hg
  refine ⟨fun p r v hv s hs hp => ?_, fun p r v hv s hs => ?_, fun s hs => ?_,
    fun p r v hv s hs => ?_⟩
  · have hr : (g.next k).any ≠ r.any := by
      intro heq
      have halive := isAlive_of_stored hv
      rw [← heq, isAlive_withdraw_self] at halive
      exact Bool.false_ne_true halive
    have hs' : (g.next k).any ≠ s := by
      rintro rfl
      rw [isPresent_withdraw_next] at hp
      exact Bool.false_ne_true hp
    rw [stored_withdraw p hr] at hv
    rw [isPresent_withdraw hs'] at hp
    rw [isAlive_withdraw hs']
    exact hg'.grounded p r v hv s hs hp
  · rw [hload.present]
    exact hg.held p r v ((hload.value p r).symm.trans hv) s hs
  -- what exists now could be had before, so it comes from a row or had a number already
  · intro n hn
    rw [hload.number]
    have hp := (hload.present s).symm.trans (isPresent_of_isAlive hs)
    rw [isPresent, Bool.or_eq_true] at hp
    rcases hp with hp | hp
    · exact hg.fresh s hp n hn
    · have hrow : g.image?.bind (·.rowOf? s) = none := by
        cases g.image? with
        | none => rfl
        | some image => simp [MetadataImage.rowOf?, hn]
      rw [hrow] at hp
      exact absurd hp Bool.false_ne_true
  · intro n hn
    rw [hload.number]
    exact hg.known p r v ((hload.value p r).symm.trans hv) s hs n hn

end Withdraw

/-! ### What is authored -/

theorem admits_module (name : String) (mvid : Option Guid) :
    g.Admits (k := .module) (Entity.Module.authored name mvid) := by
  intro p
  cases p <;> exact ⟨_, rfl, fun s hs => absurd hs List.not_mem_nil⟩

theorem admits_typeDef (namespaceName name : String) (flags : UInt32) :
    g.Admits (k := .typeDef) (Entity.TypeDef.authored namespaceName name flags) := by
  intro p
  cases p <;> exact ⟨_, rfl, fun s hs => absurd hs List.not_mem_nil⟩

theorem admits_typeRef (namespaceName name : String) {scope : Option AnyRef}
    (hscope : ∀ s ∈ scope.toList, g.isAlive s) :
    g.Admits (k := .typeRef) (Entity.TypeRef.authored namespaceName name scope) := by
  intro p
  cases p with
  | resolutionScope => exact ⟨scope, rfl, hscope⟩
  | _ => exact ⟨_, rfl, fun s hs => absurd hs List.not_mem_nil⟩

theorem admits_field (name : String) (flags : UInt16) (signature : Bytes) :
    g.Admits (k := .field) (Entity.Field.authored name flags signature) := by
  intro p
  cases p <;> exact ⟨_, rfl, fun s hs => absurd hs List.not_mem_nil⟩

theorem admits_methodDef (name : String) (flags : UInt16) (signature : Bytes) :
    g.Admits (k := .methodDef) (Entity.MethodDef.authored name flags signature) := by
  intro p
  cases p <;> exact ⟨_, rfl, fun s hs => absurd hs List.not_mem_nil⟩

theorem admits_moduleRef (name : String) :
    g.Admits (k := .moduleRef) (Entity.ModuleRef.authored name) := by
  intro p
  cases p
  exact ⟨_, rfl, fun s hs => absurd hs List.not_mem_nil⟩

theorem admits_assemblyRef (name : String) (version : AssemblyVersion) :
    g.Admits (k := .assemblyRef) (Entity.AssemblyRef.authored name version) := by
  intro p
  cases p <;> exact ⟨_, rfl, fun s hs => absurd hs List.not_mem_nil⟩

theorem admits_nestedClass {T : Ref .typeDef} (hT : g.isAlive T.any) :
    g.Admits (k := .nestedClass) (Entity.NestedClass.authored T) := by
  intro p
  cases p with
  | nested => exact ⟨some T, rfl, fun s hs => List.mem_singleton.mp hs ▸ hT⟩
  | enclosing => exact ⟨none, rfl, fun s hs => absurd hs List.not_mem_nil⟩

end Graph

end ManagedImage
