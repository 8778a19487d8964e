import ManagedImage.Graph.Nesting
import ManagedImage.Proofs.Laziness.Twins

/-!
# Owners and members of twins

What is done to owners and members of twins gives the same in both.  None of it fails, since owners
and members can always be read.

## Main definitions

* `Graph.MirrorsEdge` — the two sides of an edge are read and written alike in twins.
* `Graph.Mirrors` — so are the two sides that an `Ownership` keeps.

## Main results

* `Graph.Mirrors.remove`, `Graph.Mirrors.detach`, `Graph.Mirrors.attach` — the operations on an
  `Ownership`.
* `Graph.Twins.attachType`, `Graph.Twins.attachRecord`, `Graph.Twins.setNested`, `Graph.Twins.nest`
  — the operations on nested types.
-/

namespace ManagedImage

namespace Graph

variable {o m : EntityKind} {image : MetadataImage} {g e : Graph}

/-- The two sides of the edge are read and written alike in twins. -/
structure MirrorsEdge (image : MetadataImage) (ed : Edge o m) : Prop where
  /-- The members of what exists exist. -/
  readMembers : ∀ {g e : Graph} {c : Ref o} {E : Error → Prop}, Twins image g e →
    g.isAlive c.any → (twins image).Matches (ed.members.read c) g e
      (fun v g' => ∀ x ∈ v, g'.isAlive x.any) E
  /-- The owner is known. -/
  readOwner : ∀ {g e : Graph} {x : Ref m} {E : Error → Prop}, Twins image g e →
    g.isAlive x.any → (twins image).Matches (ed.owner.read x) g e
      (fun v g' => ∀ s ∈ Attribute.optionalRef v, g'.IsKnown s) E
  /-- Members that exist can be written. -/
  writeMembers : ∀ {g e : Graph} {c : Ref o} {v : List (Ref m)} {E : Error → Prop},
    Twins image g e → g.isAlive c.any → (∀ x ∈ v, g.isAlive x.any) →
    (twins image).Matches (ed.members.write c v) g e (fun _ _ => True) E
  /-- An owner that exists can be written. -/
  writeOwner : ∀ {g e : Graph} {x : Ref m} {v : Option (Ref o)} {E : Error → Prop},
    Twins image g e → g.isAlive x.any → (∀ c ∈ v, g.isAlive c.any) →
    (twins image).Matches (ed.owner.write x v) g e (fun _ _ => True) E

theorem mirrorsEdge_topLevel : MirrorsEdge image .topLevel where
  readMembers h hc := (h.readEdge .topLevelTypes trivial hc).weaken
    fun _ _ _ hv => List.forall_mem_map.mp hv.2
  readOwner h hx := (h.readEdge .module trivial hx).weaken fun _ _ _ hv => hv.1
  writeMembers h hc hv := h.writeAlive .topLevelTypes hc (List.forall_mem_map.mpr hv)
  writeOwner h hx hv := h.writeAlive .module hx (isAlive_of_mem_optionalRef hv)

theorem mirrorsEdge_fields : MirrorsEdge image .fields where
  readMembers h hc := (h.readEdge .fields trivial hc).weaken
    fun _ _ _ hv => List.forall_mem_map.mp hv.2
  readOwner h hx := (h.readEdge .fieldOwner trivial hx).weaken fun _ _ _ hv => hv.1
  writeMembers h hc hv := h.writeAlive .fields hc (List.forall_mem_map.mpr hv)
  writeOwner h hx hv := h.writeAlive .fieldOwner hx (isAlive_of_mem_optionalRef hv)

theorem mirrorsEdge_methods : MirrorsEdge image .methods where
  readMembers h hc := (h.readEdge .methods trivial hc).weaken
    fun _ _ _ hv => List.forall_mem_map.mp hv.2
  readOwner h hx := (h.readEdge .methodOwner trivial hx).weaken fun _ _ _ hv => hv.1
  writeMembers h hc hv := h.writeAlive .methods hc (List.forall_mem_map.mpr hv)
  writeOwner h hx hv := h.writeAlive .methodOwner hx (isAlive_of_mem_optionalRef hv)

theorem mirrorsEdge_nesting : MirrorsEdge image .nesting where
  readMembers h hc := (h.readEdge .nestedClasses trivial hc).weaken
    fun _ _ _ hv => List.forall_mem_map.mp hv.2
  readOwner h hx := (h.readEdge .enclosing trivial hx).weaken fun _ _ _ hv => hv.1
  writeMembers h hc hv := h.writeAlive .nestedClasses hc (List.forall_mem_map.mpr hv)
  writeOwner h hx hv := h.writeAlive .enclosing hx (isAlive_of_mem_optionalRef hv)

/-! ### Operations on owners and members -/

/-- The operations read and replace lists and owners alike in twins. -/
structure Mirrors (image : MetadataImage) (own : Ownership Graph Error (Ref o) (Ref m)) :
    Prop where
  /-- What exists is asked of the graph. -/
  isAlive : ∀ c g, own.isAlive c g = g.isAlive c.any
  /-- The list can be read, and the members in it exist. -/
  items : ∀ {g e : Graph} {c : Ref o} {E : Error → Prop}, Twins image g e → g.isAlive c.any →
    (twins image).Matches (own.items c) g e (fun v g' => ∀ x ∈ v, g'.isAlive x.any) E
  /-- The owner can be read, and it exists. -/
  owner : ∀ {g e : Graph} {x : Ref m} {E : Error → Prop}, Twins image g e → g.isAlive x.any →
    (twins image).Matches (own.owner x) g e (fun v g' => ∀ c ∈ v, g'.isAlive c.any) E
  /-- The list can be replaced. -/
  putItems : ∀ {g e : Graph} {c : Ref o} {v : List (Ref m)} {E : Error → Prop},
    Twins image g e → g.isAlive c.any → (∀ x ∈ v, g.isAlive x.any) →
    (twins image).Matches (Action.change (own.putItems c v)) g e (fun _ _ => True) E
  /-- The owner can be replaced. -/
  putOwner : ∀ {g e : Graph} {x : Ref m} {v : Option (Ref o)} {E : Error → Prop},
    Twins image g e → g.isAlive x.any → (∀ c ∈ v, g.isAlive c.any) →
    (twins image).Matches (Action.change (own.putOwner x v)) g e (fun _ _ => True) E
  /-- What follows when an owner has been replaced succeeds. -/
  ownerChanged : ∀ {g e : Graph} {x : Ref m} {v : Option (Ref o)} {E : Error → Prop},
    Twins image g e → g.isAlive x.any → (∀ c ∈ v, g.isAlive c.any) →
    (twins image).Matches (own.ownerChanged x v) g e (fun _ _ => True) E

/-- The sides of an edge are mirrored, if what follows a change of owner is. -/
theorem MirrorsEdge.ownership {ed : Edge o m} (h : MirrorsEdge image ed)
    {hook : Ref m → Option (Ref o) → GraphAction Unit}
    (hhook : ∀ {g e : Graph} {x : Ref m} {v : Option (Ref o)} {E : Error → Prop},
      Twins image g e → g.isAlive x.any → (∀ c ∈ v, g.isAlive c.any) →
      (twins image).Matches (hook x v) g e (fun _ _ => True) E) :
    Mirrors image (ed.ownership hook) where
  isAlive _ _ := rfl
  items := h.readMembers
  owner ht hx := (h.readOwner ht hx).bind fun _ _ _ _ ht' hv => ht'.living hv
  putItems := h.writeMembers
  putOwner := h.writeOwner
  ownerChanged := hhook

theorem mirrors_typeOwnership : Mirrors image typeOwnership :=
  mirrorsEdge_topLevel.ownership fun ht _ _ => .pure ht trivial

theorem mirrors_fieldOwnership : Mirrors image fieldOwnership :=
  mirrorsEdge_fields.ownership fun ht _ _ => .pure ht trivial

theorem mirrors_methodOwnership : Mirrors image methodOwnership :=
  mirrorsEdge_methods.ownership fun ht _ _ => .pure ht trivial

namespace Twins

variable {E : Error → Prop}

/-- The type that a record nests exists. -/
theorem readNested (h : Twins image g e) {R : Ref .nestedClass} (hR : g.isAlive R.any) :
    (twins image).Matches (Attribute.NestedClass.nested.read R) g e
      (fun v g' => ∀ T ∈ v, g'.isAlive T.any) E :=
  (h.readEdge .nested trivial hR).weaken fun _ _ _ hv _ hT =>
    hv.2 _ (List.mem_map_of_mem (Option.mem_toList.mpr hT))

theorem writeDeclaringType (h : Twins image g e) {T : Ref .typeDef} {v : Option (Ref .typeDef)}
    (hT : g.isAlive T.any) (hv : ∀ s ∈ Attribute.optionalRef v, g.IsKnown s) :
    (twins image).Matches (Attribute.TypeDef.declaringType.write T v) g e (fun _ _ => True) E :=
  h.write .declaringType hT hv fun _ hs => absurd hs List.not_mem_nil

end Twins

theorem mirrors_recordOwnership : Mirrors image recordOwnership := by
  refine mirrorsEdge_nesting.ownership fun {g e R v E} ht hR hv => ?_
  refine (ht.readNested hR).bind fun T g₁ e₁ hk₁ ht₁ hT => ?_
  cases T with
  | none => exact .pure ht₁ trivial
  | some T =>
    refine ht₁.writeDeclaringType (hT T rfl) fun s hs => ?_
    exact ht₁.sound.isKnown (hk₁.alive s (isAlive_of_mem_optionalRef hv s hs))

namespace Mirrors

variable {own : Ownership Graph Error (Ref o) (Ref m)} {c : Ref o} {x : Ref m} {E : Error → Prop}

theorem contains (h : Mirrors image own) (ht : Twins image g e) (hc : g.isAlive c.any) :
    (twins image).Matches (own.contains c x) g e (fun _ _ => True) E := by
  unfold Ownership.contains
  exact (h.items ht hc).bind fun v g₁ e₁ _ ht₁ _ => .pure ht₁ trivial

theorem insert (h : Mirrors image own) (ht : Twins image g e) (hc : g.isAlive c.any)
    (hx : g.isAlive x.any) :
    (twins image).Matches (own.insert c x) g e (fun _ _ => True) E := by
  unfold Ownership.insert
  refine (h.items ht hc).bind fun v g₁ e₁ hk₁ ht₁ hv => ?_
  by_cases hmem : x ∈ v
  · rw [if_neg (not_not_intro hmem)]
    exact .pure ht₁ trivial
  · rw [if_pos hmem]
    refine h.putItems ht₁ (hk₁.alive _ hc) fun y hy => ?_
    rcases List.mem_append.mp hy with hy | hy
    · exact hv y hy
    · rw [List.mem_singleton.mp hy]
      exact hk₁.alive _ hx

theorem take (h : Mirrors image own) (ht : Twins image g e) (hc : g.isAlive c.any) :
    (twins image).Matches (own.take c x) g e (fun _ _ => True) E := by
  unfold Ownership.take
  refine (h.items ht hc).bind fun v g₁ e₁ hk₁ ht₁ hv => ?_
  by_cases hmem : x ∈ v
  · rw [if_pos hmem]
    have hput := h.putItems (E := E) ht₁ (hk₁.alive _ hc) (v := v.filter (· ≠ x))
      fun y hy => hv y (List.mem_of_mem_filter hy)
    exact hput.bind fun _ g₂ e₂ _ ht₂ _ => .pure ht₂ trivial
  · rw [if_neg hmem]
    exact .pure ht₁ trivial

/-- **Removing** from twins. -/
theorem remove (h : Mirrors image own) (ht : Twins image g e) (hc : g.isAlive c.any)
    (hx : g.isAlive x.any) :
    (twins image).Matches (own.remove c x) g e (fun _ _ => True) E := by
  unfold Ownership.remove
  refine (h.take ht hc).bind fun taken g₁ e₁ hk₁ ht₁ _ => ?_
  cases taken with
  | false => exact .pure ht₁ trivial
  | true =>
    have hx₁ := hk₁.alive _ hx
    refine (h.putOwner ht₁ hx₁ (v := none) (by simp)).bind fun _ g₂ e₂ hk₂ ht₂ _ => ?_
    refine (h.ownerChanged ht₂ (hk₂.alive _ hx₁) (by simp)).bind fun _ g₃ e₃ _ ht₃ _ => ?_
    exact .pure ht₃ trivial

/-- **Detaching** in twins. -/
theorem detach (h : Mirrors image own) (ht : Twins image g e) (hx : g.isAlive x.any) :
    (twins image).Matches (own.detach x) g e (fun _ _ => True) E := by
  unfold Ownership.detach
  refine (h.owner ht hx).bind fun c g₁ e₁ hk₁ ht₁ hc => ?_
  cases c with
  | none => exact .pure ht₁ trivial
  | some c => exact h.remove ht₁ (hc c rfl) (hk₁.alive _ hx)

/-- The member gets an owner. -/
theorem join (h : Mirrors image own) (ht : Twins image g e) (hc : g.isAlive c.any)
    (hx : g.isAlive x.any) :
    (twins image).Matches (do
      Action.change (own.putOwner x (some c))
      own.insert c x
      own.ownerChanged x (some c)) g e (fun _ _ => True) E := by
  have hput := h.putOwner (E := E) ht hx (v := some c) fun d hd => (Option.mem_some.mp hd) ▸ hc
  refine hput.bind fun _ g₁ e₁ hk₁ ht₁ _ => ?_
  refine (h.insert ht₁ (hk₁.alive _ hc) (hk₁.alive _ hx)).bind fun _ g₂ e₂ hk₂ ht₂ _ => ?_
  have hk := hk₁.trans hk₂
  refine h.ownerChanged ht₂ (hk.alive _ hx) fun d hd => hk.alive _ ?_
  exact (Option.mem_some.mp hd) ▸ hc

/-- **Attaching** in twins, where the hook does the same in both. -/
theorem attach (h : Mirrors image own) {before : Ref m → Ref o → GraphAction Unit}
    (ht : Twins image g e) (hc : g.isAlive c.any) (hx : g.isAlive x.any)
    (hbefore : ∀ g' e', g.Keeps g' → Twins image g' e' →
      (twins image).Matches (before x c) g' e' (fun _ _ => True) E) :
    (twins image).Matches (own.attach before c x) g e (fun _ _ => True) E := by
  unfold Ownership.attach
  have halive : own.isAlive c g = true := (h.isAlive c g).trans hc
  have halive' : own.isAlive c e = true := (h.isAlive c e).trans (ht.isAlive_right hc)
  refine .get_bind (by rw [halive, halive']) ?_
  rw [if_pos halive]
  refine (h.items ht hc).bind fun _ g₁ e₁ hk₁ ht₁ _ => ?_
  refine (h.owner ht₁ (hk₁.alive _ hx)).bind fun d g₂ e₂ hk₂ ht₂ hd => ?_
  have hk := hk₁.trans hk₂
  cases d with
  | none =>
    refine (hbefore g₂ e₂ hk ht₂).bind fun _ g₃ e₃ hk₃ ht₃ _ => ?_
    exact h.join ht₃ ((hk.trans hk₃).alive _ hc) ((hk.trans hk₃).alive _ hx)
  | some d =>
    by_cases hsame : d = c
    · simp only [hsame, if_true]
      exact h.insert ht₂ (hk.alive _ hc) (hk.alive _ hx)
    · simp only [hsame, if_false]
      refine (h.items ht₂ (hd d rfl)).bind fun _ g₃ e₃ hk₃ ht₃ _ => ?_
      refine (hbefore g₃ e₃ (hk.trans hk₃) ht₃).bind fun _ g₄ e₄ hk₄ ht₄ _ => ?_
      have hk₃₄ := hk₃.trans hk₄
      refine (h.take ht₄ (hk₃₄.alive _ (hd d rfl))).bind fun _ g₅ e₅ hk₅ ht₅ _ => ?_
      have hk' := (hk.trans hk₃₄).trans hk₅
      exact h.join ht₅ (hk'.alive _ hc) (hk'.alive _ hx)

end Mirrors

/-! ### Nested types -/

namespace Twins

variable {M : Ref .module} {T F : Ref .typeDef} {R : Ref .nestedClass} {E : Error → Prop}

theorem enclosingType (h : Twins image g e) (hT : g.isAlive T.any) :
    (twins image).Matches (enclosingType T) g e (fun v g' => ∀ F ∈ v, g'.isAlive F.any) E := by
  unfold Graph.enclosingType
  refine (h.readEdge .declaringType trivial hT).bind fun F g₁ e₁ _ h₁ hF => ?_
  exact h₁.living hF.1

theorem typesOf (h : Twins image g e) {Rs : List (Ref .nestedClass)}
    (hRs : ∀ R ∈ Rs, g.isAlive R.any) :
    (twins image).Matches (typesOf Rs) g e (fun v g' => ∀ T ∈ v, g'.isAlive T.any) E := by
  induction Rs generalizing g e with
  | nil => exact .pure h nofun
  | cons R Rs ih =>
    unfold Graph.typesOf
    refine (h.readNested (hRs R List.mem_cons_self)).bind fun T g₁ e₁ hk₁ h₁ hT => ?_
    have hrest := ih h₁ fun S hS => hk₁.alive _ (hRs S (List.mem_cons_of_mem R hS))
    refine hrest.bind fun Ts g₂ e₂ hk₂ h₂ hTs => .pure h₂ fun U hU => ?_
    rcases List.mem_append.mp hU with hU | hU
    · exact hk₂.alive _ (hT U (Option.mem_toList.mp hU))
    · exact hTs U hU

theorem nestedTypes (h : Twins image g e) (hT : g.isAlive T.any) :
    (twins image).Matches (nestedTypes T) g e (fun v g' => ∀ T ∈ v, g'.isAlive T.any) E :=
  (mirrorsEdge_nesting.readMembers h hT).bind fun _ _ _ _ h₁ hRs => h₁.typesOf hRs

theorem findRecord (h : Twins image g e) {Rs : List (Ref .nestedClass)}
    (hRs : ∀ R ∈ Rs, g.isAlive R.any) :
    (twins image).Matches (findRecord T Rs) g e (fun v g' => ∀ R ∈ v, g'.isAlive R.any) E := by
  induction Rs generalizing g e with
  | nil => exact .pure h nofun
  | cons R Rs ih =>
    unfold Graph.findRecord
    have hR := hRs R List.mem_cons_self
    refine (h.readNested hR).bind fun U g₁ e₁ hk₁ h₁ _ => ?_
    split
    · refine .pure h₁ fun S hS => ?_
      rw [← Option.mem_some.mp hS]
      exact hk₁.alive _ hR
    · exact ih h₁ fun S hS => hk₁.alive _ (hRs S (List.mem_cons_of_mem R hS))

theorem nestingRecord? (h : Twins image g e) (hT : g.isAlive T.any) :
    (twins image).Matches (nestingRecord? T) g e (fun v g' => ∀ R ∈ v, g'.isAlive R.any) E := by
  unfold Graph.nestingRecord?
  refine (h.enclosingType hT).bind fun F g₁ e₁ _ h₁ hF => ?_
  cases F with
  | none => exact .pure h₁ nofun
  | some F =>
    exact (mirrorsEdge_nesting.readMembers h₁ (hF F rfl)).bind fun _ _ _ _ h₂ hRs =>
      h₂.findRecord hRs

theorem release (h : Twins image g e) (hT : g.isAlive T.any) :
    (twins image).Matches (release R T) g e (fun _ _ => True) E := by
  unfold Graph.release
  refine (mirrors_typeOwnership.detach h hT).bind fun _ g₁ e₁ hk₁ h₁ _ => ?_
  refine (h₁.nestingRecord? (hk₁.alive _ hT)).bind fun S g₂ e₂ _ h₂ hS => ?_
  cases S with
  | none => exact .pure h₂ trivial
  | some S =>
    dsimp only
    by_cases hne : S ≠ R
    · rw [if_pos hne]
      refine (mirrors_recordOwnership.detach h₂ (hS S rfl)).bind fun _ g₃ e₃ _ h₃ _ => ?_
      exact .pure h₃ trivial
    · rw [if_neg hne]
      exact .pure h₂ trivial

/-- **Moving a type to a module** in twins. -/
theorem attachType (h : Twins image g e) (hM : g.isAlive M.any) (hT : g.isAlive T.any) :
    (twins image).Matches (attachType M T) g e (fun _ _ => True) E := by
  refine mirrors_typeOwnership.attach h hM hT fun g₁ e₁ hk₁ h₁ => ?_
  refine (h₁.nestingRecord? (hk₁.alive _ hT)).bind fun R g₂ e₂ _ h₂ hR => ?_
  cases R with
  | none => exact .pure h₂ trivial
  | some R =>
    exact (mirrors_recordOwnership.detach h₂ (hR R rfl)).bind fun _ _ _ _ h₃ _ => .pure h₃ trivial

/-- **Moving a record to a type** in twins. -/
theorem attachRecord (h : Twins image g e) (hF : g.isAlive F.any) (hR : g.isAlive R.any) :
    (twins image).Matches (attachRecord F R) g e (fun _ _ => True) E := by
  refine mirrors_recordOwnership.attach h hF hR fun g₁ e₁ hk₁ h₁ => ?_
  refine (h₁.readNested (hk₁.alive _ hR)).bind fun T g₂ e₂ _ h₂ hT => ?_
  cases T with
  | none => exact .pure h₂ trivial
  | some T => exact h₂.release (hT T rfl)

/-- The new type is released first, if the record is in a list. -/
theorem releaseNew_bind (h : Twins image g e) {c : Option (Ref .typeDef)}
    (hc : ∀ T ∈ c, g.isAlive T.any) {v : Option (Ref .typeDef)}
    (hv : ∀ s ∈ Attribute.optionalRef v, g.IsKnown s) {f : Unit → GraphAction Unit}
    (hf : ∀ g' e', g.Keeps g' → Twins image g' e' →
      (twins image).Matches (f ()) g' e' (fun _ _ => True) E) :
    (twins image).Matches (match c with
      | some type => do
        if (← Graph.living v).isSome then do
          let r ← Graph.release R type
          f r
        else f ()
      | none => f ()) g e (fun _ _ => True) E := by
  cases c with
  | none => exact hf g e (Keeps.refl g) h
  | some T =>
    refine (h.living hv).bind fun F g₁ e₁ hk₁ h₁ _ => ?_
    cases F with
    | none => exact hf g₁ e₁ hk₁ h₁
    | some F =>
      refine (h₁.release (hk₁.alive _ (hc T rfl))).bind fun _ g₂ e₂ hk₂ h₂ _ => ?_
      exact hf g₂ e₂ (hk₁.trans hk₂) h₂

/-- The type that encloses a type, if there is one, is written. -/
theorem enclose_bind (h : Twins image g e) {c : Option (Ref .typeDef)}
    (hc : ∀ T ∈ c, g.isAlive T.any) {v : Option (Ref .typeDef)}
    (hv : ∀ s ∈ Attribute.optionalRef v, g.IsKnown s) {f : Unit → GraphAction Unit}
    (hf : ∀ g' e', g.Keeps g' → Twins image g' e' →
      (twins image).Matches (f ()) g' e' (fun _ _ => True) E) :
    (twins image).Matches (match c with
      | some type => do
        let r ← Attribute.TypeDef.declaringType.write type v
        f r
      | none => f ()) g e (fun _ _ => True) E := by
  cases c with
  | none => exact hf g e (Keeps.refl g) h
  | some T =>
    exact (h.writeDeclaringType (hc T rfl) hv).bind fun _ g₁ e₁ hk₁ h₁ _ => hf g₁ e₁ hk₁ h₁

/-- **Replacing the type that a record nests** in twins. -/
theorem setNested (h : Twins image g e) {c : Option (Ref .typeDef)} (hR : g.isAlive R.any)
    (hc : ∀ T ∈ c, g.isAlive T.any) :
    (twins image).Matches (setNested R c) g e (fun _ _ => True) E := by
  unfold Graph.setNested
  refine (h.readNested hR).bind fun previous g₁ e₁ hk₁ h₁ hprevious => ?_
  have hread := h₁.readEdge (E := E) .enclosing trivial (hk₁.alive _ hR)
  refine hread.bind fun v g₂ e₂ hk₂ h₂ ⟨hv, _⟩ => ?_
  have hk := hk₁.trans hk₂
  by_cases hsame : previous.isSome ∧ previous = c
  · rw [if_pos hsame]
    exact .pure h₂ trivial
  · rw [if_neg hsame]
    refine h₂.releaseNew_bind (fun T hT => hk.alive _ (hc T hT)) hv fun g₃ e₃ hk₃ h₃ => ?_
    refine h₃.enclose_bind (v := none) (fun T hT => (hk₂.trans hk₃).alive _ (hprevious T hT))
      (by simp [Attribute.optionalRef]) fun g₄ e₄ hk₄ h₄ => ?_
    -- the back-pointer has been read before the writes and is written as it was then
    have hk' := hk₃.trans hk₄
    refine h₄.enclose_bind (fun T hT => (hk.trans hk').alive _ (hc T hT))
      (fun s hs => hk'.isKnown (hv s hs)) fun g₅ e₅ hk₅ h₅ => ?_
    have hall := (hk.trans hk').trans hk₅
    exact h₅.writeAlive .nested (hall.alive _ hR)
      (isAlive_of_mem_optionalRef fun T hT => hall.alive _ (hc T hT))

/-- **Nesting a type in another one** in twins. -/
theorem nest (h : Twins image g e) (hF : g.isAlive F.any) (hT : g.isAlive T.any) :
    (twins image).Matches (nest F T) g e (fun R g' => g'.isAlive R.any) E := by
  unfold Graph.nest
  refine (h.nestingRecord? hT).bind fun R g₁ e₁ hk₁ h₁ hR => ?_
  cases R with
  | some R =>
    refine (h₁.attachRecord (hk₁.alive _ hF) (hR R rfl)).bind fun _ g₂ e₂ hk₂ h₂ _ => ?_
    exact .pure h₂ (hk₂.alive _ (hR R rfl))
  | none =>
    have hauthor := h₁.author (E := E) (admits_nestedClass (hk₁.alive _ hT))
    refine hauthor.bind fun R g₂ e₂ hk₂ h₂ hR => ?_
    -- nothing has to be taken back, since attaching succeeds
    have hattach := h₂.attachRecord (E := fun _ => False) ((hk₁.trans hk₂).alive _ hF) hR
    refine hattach.orUndo.bind fun _ g₃ e₃ hk₃ h₃ _ => ?_
    exact .pure h₃ (hk₃.alive _ hR)

end Twins

end Graph

end ManagedImage
