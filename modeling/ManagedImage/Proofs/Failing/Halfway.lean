import ManagedImage.Proofs.Failing.Unread

/-!
# Operations that fail half-way

Which of the operations that move types and nesting records can fail with something changed, and
where.  With the image at hand everything can be read and nothing fails.  When the image has gone, an
operation may fail, and it is known from what can still be read whether the failing leaves a trace.

## Main definitions

* `Graph.Transfer` — something that moves types or nesting records.
* `Graph.Slips` — where it fails half-way.

## Main results

* `Graph.not_slips_of_resolvable` — nothing slips while the nesting can be read.
* `Graph.failed_iff` — an operation that has failed has done nothing but load, unless it slips.
-/

namespace ManagedImage

namespace Graph

/-- Something that moves types or nesting records. -/
inductive Transfer where
  /-- Move a record to the list of a type. -/
  | attachRecord (enclosing : Ref .typeDef) (record : Ref .nestedClass)
  /-- Take a record out of the list of a type. -/
  | removeRecord (enclosing : Ref .typeDef) (record : Ref .nestedClass)
  /-- Take a record from its type. -/
  | detachRecord (record : Ref .nestedClass)
  /-- Replace the type that a record nests. -/
  | setNested (record : Ref .nestedClass) (type : Option (Ref .typeDef))
  /-- Nest a type in another one. -/
  | nest (enclosing type : Ref .typeDef)
  /-- Move a type to the list of a module. -/
  | attachType (module : Ref .module) (type : Ref .typeDef)

namespace Transfer

/-- The entities that the operation is about. -/
def args : Transfer → List AnyRef
  | attachRecord E R | removeRecord E R => [E.any, R.any]
  | detachRecord R => [R.any]
  | setNested R c => R.any :: c.toList.map Ref.any
  | nest E T => [E.any, T.any]
  | attachType M T => [M.any, T.any]

/-- Carries out the operation. -/
def run : Transfer → GraphAction Unit
  | attachRecord E R => Graph.attachRecord E R
  | removeRecord E R => do let _ ← recordOwnership.remove E R
  | detachRecord R => do let _ ← recordOwnership.detach R
  | setNested R c => Graph.setNested R c
  | nest E T => do let _ ← Graph.nest E T
  | attachType M T => Graph.attachType M T

end Transfer

variable {g g' : Graph}

/-- The operation fails half-way.  A record leaves a list without telling what it nests, or a type
that is to be nested leaves its module without telling what encloses it. -/
def Slips (g : Graph) : Transfer → Prop
  | .attachRecord E R => Passes Readout.records Readout.enclosing g.readout E R ∧
      ∃ T, g.readout.nested R = .ok (some T) ∧ g.readout.Strands T
  | .removeRecord E R => g.readout.Orphans E R
  | .detachRecord R => ∃ E, g.readout.enclosing R = .ok (some E) ∧ g.readout.Orphans E R
  | .setNested R c => ∃ T ∈ c, (∃ U, g.readout.nested R = .ok U ∧ U ≠ some T) ∧
      (∃ E, g.readout.enclosing R = .ok (some E)) ∧ g.readout.Strands T
  | .nest .. | .attachType .. => False

/-- **Nothing slips while the nesting can be read.** -/
theorem not_slips_of_resolvable (hg : g.Sound) (hresolvable : g.Resolvable) (t : Transfer) :
    ¬g.Slips t := by
  have horphans : ∀ E R, ¬g.readout.Orphans E R := by
    rintro E R ⟨⟨l, hl, hR⟩, hno⟩
    have hpresent := hg.held .nestedClasses E l hl R.any (List.mem_map_of_mem hR)
    obtain ⟨T, hT⟩ := hresolvable _ .nested R trivial hpresent
    exact hno T hT
  have hstrands : ∀ T, ¬g.readout.Strands T := by
    rintro T ⟨⟨M, l, hM, -⟩, hno⟩
    obtain ⟨w, hw, -⟩ := exists_of_presentOnly_eq_ok hM
    obtain ⟨E, hE⟩ := hresolvable _ .declaringType T trivial (isPresent_of_value (p := .module) hw)
    exact hno (g.presentOnly E) (congrArg (g.presentOnly <$> ·) hE)
  cases t with
  | attachRecord E R => exact fun ⟨_, T, _, hs⟩ => hstrands T hs
  | removeRecord E R => exact horphans E R
  | detachRecord R => exact fun ⟨E, _, hs⟩ => horphans E R hs
  | setNested R c => exact fun ⟨T, _, _, _, hs⟩ => hstrands T hs
  | nest E T => exact id
  | attachType M T => exact id

/-- How an operation ends. -/
theorem Transfer.ends (t : Transfer) (hg : g.Sound) (hapart : g.readout.KeepsApart)
    (hargs : ∀ r ∈ t.args, g.isAlive r) :
    g.EndsUnless (g.Slips t) t.run fun _ _ => True := by
  cases t with
  | attachRecord E R =>
    exact ends_attachRecord hg hapart (hargs _ (by simp [args])) (hargs _ (by simp [args]))
  | removeRecord E R =>
    exact (ends_removeRecord hg (hargs _ (by simp [args])) (hargs _ (by simp [args]))).bind_succeeds
      fun _ _ _ _ => .pure trivial
  | detachRecord R =>
    exact (ends_detachRecord hg (hargs _ (by simp [args]))).bind_succeeds fun _ _ _ _ => .pure trivial
  | setNested R c =>
    refine ends_setNested hg hapart (hargs _ List.mem_cons_self) fun T hT => hargs _ ?_
    exact List.mem_cons_of_mem _ (List.mem_map_of_mem (Option.mem_toList.mpr hT))
  | nest E T =>
    exact (ends_nest hg hapart (hargs _ (by simp [args])) (hargs _ (by simp [args]))).bind_succeeds
      fun _ _ _ _ => .pure trivial
  | attachType M T => exact ends_attachType hg (hargs _ (by simp [args])) (hargs _ (by simp [args]))

/-- The first record of a module with two types is in the list of the first type, and the image is
consistent. -/
theorem exists_hasRecord_nestedPair :
    ∃ image, MetadataImage.decode .lenient MetadataImage.nestedPair = .ok image ∧
      (empty (some image)).IsConsistent ∧ HasRecord image ⟨.row 1⟩ ⟨.row 1⟩ := by
  have hcheck : (MetadataImage.decode .lenient MetadataImage.nestedPair).toOption.any (fun image =>
      (image.rowOf? ⟨.typeDef, .row 1⟩).any fun type =>
        (image.rowOf? ⟨.nestedClass, .row 1⟩).any fun record =>
          decide (image.tables.rowCount .module ≤ 1 ∧
            image.tables.rowCount .typeDef ≤ Token.maxRow ∧
            image.tables.rowCount .nestedClass ≤ Token.maxRow ∧ image.NestsOnce ∧
            (image.nestingRids type.rid).filterMap (image.entityAt? .nestedClass) = [⟨.row 1⟩] ∧
            image.entityAt? .typeDef (record.column 1) = some ⟨.row 1⟩)) = true := by
    decide +kernel
  cases hdecode : MetadataImage.decode .lenient MetadataImage.nestedPair with
  | error e => exact absurd hcheck (by simp [hdecode, Except.toOption])
  | ok image =>
    rw [hdecode] at hcheck
    cases htype : image.rowOf? ⟨.typeDef, .row 1⟩ with
    | none => simp [Except.toOption, htype] at hcheck
    | some type =>
      cases hrecord : image.rowOf? ⟨.nestedClass, .row 1⟩ with
      | none => simp [Except.toOption, htype, hrecord] at hcheck
      | some record =>
        simp only [Except.toOption, Option.any_some, htype, hrecord] at hcheck
        obtain ⟨hmodules, htypes, hrecords, honce, hlist, howner⟩ := of_decide_eq_true hcheck
        have hdecoded := MetadataImage.isDecoded_of_decode hdecode
        exact ⟨image, rfl,
          (shows_of_decode hdecode).isConsistent
            (honce.consistent hdecoded htypes hmodules hrecords),
          hasRecord_of_rows hdecoded htype hrecord hlist howner⟩

/-- There is a consistent graph that has lost its image, and where a record in the list of a type
does not tell what it nests. -/
theorem exists_unread_nestedPair :
    ∃ image g, MetadataImage.decode .lenient MetadataImage.nestedPair = .ok image ∧
      (empty (some image)).LoadsTo g ∧ g.dropImage.Sound ∧ g.dropImage.IsConsistent ∧
      g.dropImage.isAlive (⟨.row 1⟩ : Ref .nestedClass).any ∧
      g.dropImage.Unread ⟨.row 1⟩ ⟨.row 1⟩ [⟨.row 1⟩] := by
  obtain ⟨image, hdecode, hconsistent, h⟩ := exists_hasRecord_nestedPair
  have hsound := sound_empty_image hdecode
  exact ⟨image, halfLoaded image ⟨.row 1⟩ ⟨.row 1⟩, hdecode, h.loadsTo,
    (h.fades hsound).sound hsound, (h.fades hsound).isConsistent hconsistent, h.isAlive.2,
    h.unread⟩

/-- **An operation that has failed has done nothing but load, unless it slips.**  Then it has failed
after a list has lost a member. -/
theorem failed_iff (hsound : g.Sound) (hconsistent : g.IsConsistent) (t : Transfer)
    (hargs : ∀ r ∈ t.args, g.isAlive r) {e : Error} (hfail : t.run.runOn g = (.error e, g')) :
    (g.LoadsTo g' ↔ ¬g.Slips t) ∧ (g.LosesMember g' ↔ g.Slips t) := by
  have hends := t.ends hsound hconsistent.keepsApart hargs
  unfold EndsUnless Action.Ends at hends
  rw [hfail] at hends
  rcases hends with ⟨hslip, hloses⟩ | ⟨hslip, hload, -⟩
  · exact ⟨iff_of_false hloses.not_loadsTo (not_not_intro hslip), iff_of_true hloses hslip⟩
  · exact ⟨iff_of_true hload hslip, iff_of_false (fun h => h.not_loadsTo hload) hslip⟩

/-- Where a record does not tell what it nests, detaching it slips, and replacing what it nests does
not. -/
theorem failed_iff_nestedPair :
    ∃ g : Graph, g.Sound ∧ g.IsConsistent ∧ g.isAlive (⟨.row 1⟩ : Ref .nestedClass).any ∧
      (∃ e g', (Transfer.detachRecord ⟨.row 1⟩).run.runOn g = (.error e, g') ∧
        ¬g.LoadsTo g' ∧ g.LosesMember g') ∧
      ∃ e g', (Transfer.setNested ⟨.row 1⟩ none).run.runOn g = (.error e, g') ∧
        g.LoadsTo g' ∧ ¬g.LosesMember g' := by
  obtain ⟨image, g, -, -, hsound, hconsistent, hR, hunread⟩ := exists_unread_nestedPair
  generalize g.dropImage = g at *
  have hargs : ∀ r ∈ (Transfer.detachRecord ⟨.row 1⟩).args, g.isAlive r :=
    fun r hr => List.mem_singleton.mp hr ▸ hR
  have hslip : g.Slips (.detachRecord ⟨.row 1⟩) :=
    ⟨_, hunread.readout_enclosing, ⟨_, hunread.readout_records, hunread.mem⟩,
      fun T hT => nomatch hunread.readout_nested.symm.trans hT⟩
  have hno : ¬g.Slips (.setNested ⟨.row 1⟩ none) := fun ⟨T, hT, _⟩ => nomatch hT
  have hdetach := hunread.runOn_detach
  obtain ⟨g', hread, -⟩ := exists_runOn_read .nested hR
  have hnested : Attribute.NestedClass.nested.value ⟨.row 1⟩ g = .error .imageDropped :=
    hunread.readout_nested
  rw [hnested] at hread
  have hfirst := failed_iff hsound hconsistent (.detachRecord ⟨.row 1⟩) hargs
    (Action.runOn_bind_error hdetach)
  have hsecond := failed_iff hsound hconsistent (.setNested ⟨.row 1⟩ none) hargs
    (Action.runOn_bind_error hread)
  exact ⟨g, hsound, hconsistent, hR,
    ⟨_, _, Action.runOn_bind_error hdetach, mt hfirst.1.mp (not_not_intro hslip),
      hfirst.2.mpr hslip⟩,
    _, _, Action.runOn_bind_error hread, hsecond.1.mpr hno, mt hsecond.2.mp hno⟩

/-- **The record has left the list** and its back-pointer is cleared, although detaching it has
failed. -/
theorem left_of_failed_nestedPair :
    ∃ image g g', MetadataImage.decode .lenient MetadataImage.nestedPair = .ok image ∧
      (empty (some image)).LoadsTo g ∧ g.dropImage.Sound ∧ g.dropImage.IsConsistent ∧
      (∀ r ∈ (Transfer.detachRecord ⟨.row 1⟩).args, g.dropImage.isAlive r) ∧
      (Transfer.detachRecord ⟨.row 1⟩).run.runOn g.dropImage = (.error .imageDropped, g') ∧
      g.dropImage.readout.records ⟨.row 1⟩ = .ok [⟨.row 1⟩] ∧
      g'.readout.records ⟨.row 1⟩ = .ok [] ∧
      g.dropImage.readout.enclosing ⟨.row 1⟩ = .ok (some ⟨.row 1⟩) ∧
      g'.readout.enclosing ⟨.row 1⟩ = .ok none := by
  obtain ⟨image, g, hdecode, hload, hsound, hconsistent, hR, hunread⟩ := exists_unread_nestedPair
  refine ⟨image, g, _, hdecode, hload, hsound, hconsistent,
    fun r hr => List.mem_singleton.mp hr ▸ hR, Action.runOn_bind_error hunread.runOn_detach,
    hunread.readout_records, ?_, hunread.readout_enclosing, enclosing_leftType hR⟩
  rw [records_leftType hunread.alive]
  simp

end Graph

end ManagedImage
