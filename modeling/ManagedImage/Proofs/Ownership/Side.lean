import ManagedImage.Ownership.Basic

/-!
# Lists and back-pointers

A relation of owners and members has two sides, the lists of the owners and the back-pointers of the
members.  What the operations on it do is said here with both sides as functions, and where the two
sides agree, it comes to moving members between lists.

## Main definitions

* `Side σ O M` — a relation of owners and members in a state.
* `Side.take`, `insert`, `leave`, `detach`, `join`, `attach` — what the operations do to it.
* `Side.Agrees` — lists and back-pointers agree.
* `Side.drop`, `Side.free`, `Side.give` — taking a member out of all lists, and moving it.

## Main results

* `Side.leave_eq`, `Side.detach_eq`, `Side.attach_eq` — what the operations come to where the two
  sides agree.
-/

namespace ManagedImage

/-- A relation of owners and members that can be read off a state and replaced in it. -/
structure Side (σ O M : Type) where
  /-- The members of each owner. -/
  list : σ → O → List M
  /-- The owner of each member. -/
  owner : σ → M → Option O
  /-- Replaces the members and the owners. -/
  put : σ → (O → List M) → (M → Option O) → σ
  /-- What follows when the owner of a member has been replaced. -/
  changed : σ → M → Option O → σ
  /-- The members are what they have been replaced by. -/
  list_put : ∀ n l w, list (put n l w) = l := by intros; rfl
  /-- The owners are what they have been replaced by. -/
  owner_put : ∀ n l w, owner (put n l w) = w := by intros; rfl
  /-- Only the last replacement counts. -/
  put_put : ∀ n l w l' w', put (put n l w) l' w' = put n l' w' := by intros; rfl
  /-- Replacing by what is there changes nothing. -/
  put_self : ∀ n, put n (list n) (owner n) = n := by intros; rfl

namespace Side

variable {σ O M : Type} [DecidableEq O] [DecidableEq M] (s : Side σ O M) (n n' : σ)
  (c : O) (r : M)

/-- Replaces the members of one owner. -/
def setList (l : List M) : σ :=
  s.put n (fun d => if d = c then l else s.list n d) (s.owner n)

/-- Replaces the owner of one member. -/
def setOwner (x : Option O) : σ :=
  s.put n (s.list n) fun q => if q = r then x else s.owner n q

/-- The member goes from the list, if it is in it. -/
def take : σ :=
  if r ∈ s.list n c then s.setList n c ((s.list n c).filter (· ≠ r)) else n

/-- The member comes to the end of the list, if it is not in it. -/
def insert : σ :=
  if r ∈ s.list n c then n else s.setList n c (s.list n c ++ [r])

/-- The member loses its owner. -/
def leave : σ :=
  if r ∈ s.list n c then s.changed (s.setOwner (s.take n c r) r none) r none else n

/-- The member loses the owner that it has, if any. -/
def detach : σ :=
  match s.owner n r with
  | some c => s.leave n c r
  | none => n

/-- The member, which is in no list, gets an owner. -/
def join : σ :=
  s.changed (s.insert (s.setOwner n r (some c)) c r) r (some c)

/-- The member is attached, where `n'` is what the hook makes of `n`. -/
def attach : σ :=
  match s.owner n r with
  | some old => if old = c then s.insert n c r else s.join (s.take n' old r) c r
  | none => s.join n' c r

omit [DecidableEq M] in
/-- Replacing a list by itself changes nothing. -/
theorem setList_self : s.setList n c (s.list n c) = n := by
  have hlist : (fun d => if d = c then s.list n c else s.list n d) = s.list n := by
    funext d
    split
    · next h => rw [h]
    · rfl
  rw [setList, hlist, s.put_self]

omit [DecidableEq O] in
/-- Replacing a back-pointer by itself changes nothing. -/
theorem setOwner_self : s.setOwner n r (s.owner n r) = n := by
  have howner : (fun q => if q = r then s.owner n r else s.owner n q) = s.owner n := by
    funext q
    split
    · next h => rw [h]
    · rfl
  rw [setOwner, howner, s.put_self]

/-! ### Where the two sides agree -/

/-- A member is in the list of its owner and in no other list. -/
def Agrees : Prop := ∀ c r, r ∈ s.list n c ↔ s.owner n r = some c

/-- The member goes from all lists. -/
def drop : σ := s.put n (fun d => (s.list n d).filter (· ≠ r)) (s.owner n)

/-- The member goes from all lists and has no owner. -/
def free : σ :=
  s.put n (fun d => (s.list n d).filter (· ≠ r)) fun q => if q = r then none else s.owner n q

/-- The member goes from all lists to the end of one of them. -/
def give : σ :=
  s.put n (fun d => (s.list n d).filter (· ≠ r) ++ if d = c then [r] else [])
    fun q => if q = r then some c else s.owner n q

variable {s n n' c r}

omit [DecidableEq O] in
theorem list_eq_filter (h : s.Agrees n) {d : O} (hr : s.owner n r ≠ some d) :
    s.list n d = (s.list n d).filter (· ≠ r) := by
  rw [eq_comm, List.filter_eq_self]
  intro x hx
  rw [decide_eq_true_iff]
  rintro rfl
  exact hr ((h d x).mp hx)

omit [DecidableEq O] in
theorem drop_eq_self (h : s.Agrees n) (hr : s.owner n r = none) : s.drop n r = n := by
  have hlist : (fun d => (s.list n d).filter (· ≠ r)) = s.list n := by
    funext d
    exact (list_eq_filter h (by simp [hr])).symm
  rw [drop, hlist, s.put_self]

/-- A member is in one list only, so to take it out of that list is to take it out of all. -/
theorem take_eq_drop (h : s.Agrees n) (hr : s.owner n r = some c) : s.take n c r = s.drop n r := by
  rw [take, if_pos ((h c r).mpr hr), setList, drop]
  congr 1
  funext d
  by_cases hd : d = c
  · rw [if_pos hd, hd]
  · rw [if_neg hd]
    refine list_eq_filter h fun hrd => hd ?_
    exact Option.some.inj (hrd.symm.trans hr)

omit [DecidableEq O] in
theorem free_eq_self (h : s.Agrees n) (hr : s.owner n r = none) : s.free n r = n := by
  have howner : (fun q => if q = r then none else s.owner n q) = s.owner n := by
    funext q
    by_cases hq : q = r
    · rw [if_pos hq, hq, hr]
    · rw [if_neg hq]
  rw [free, howner]
  exact drop_eq_self h hr

/-- A member that is removed goes, if it is removed from its owner. -/
theorem leave_eq (h : s.Agrees n) :
    s.leave n c r = if s.owner n r = some c then s.changed (s.free n r) r none else n := by
  rw [leave]
  by_cases hr : s.owner n r = some c
  · rw [if_pos ((h c r).mpr hr), if_pos hr, take_eq_drop h hr, setOwner, drop, s.list_put,
      s.owner_put, s.put_put, free]
  · rw [if_neg (mt (h c r).mp hr), if_neg hr]

theorem detach_eq (h : s.Agrees n) :
    s.detach n r = if (s.owner n r).isSome then s.changed (s.free n r) r none else n := by
  rw [detach]
  cases hr : s.owner n r with
  | some c =>
    dsimp only
    rw [leave_eq h, if_pos hr]
    rfl
  | none => rfl

/-- A member that is in no list goes to one list. -/
theorem join_drop : s.join (s.drop n r) c r = s.changed (s.give n c r) r (some c) := by
  -- the member has been taken out of all lists, so it is appended
  have hmem : r ∉ s.list (s.setOwner (s.drop n r) r (some c)) c := by
    rw [setOwner, drop, s.list_put, s.list_put]
    exact fun h => by simpa using (List.mem_filter.mp h).2
  rw [join, insert, if_neg hmem, setList, setOwner, drop, s.put_put, s.list_put, s.owner_put,
    s.list_put, s.owner_put, s.put_put, give]
  congr 2
  funext d
  by_cases hd : d = c
  · rw [if_pos hd, if_pos hd, hd]
  · rw [if_neg hd, if_neg hd, List.append_nil]

/-- **A member that is attached goes to its owner**, if the hook leaves its owner alone. -/
theorem attach_eq (h : s.Agrees n) (h' : s.Agrees n') (hr : s.owner n' r = s.owner n r) :
    s.attach n n' c r =
      if s.owner n r = some c then n else s.changed (s.give n' c r) r (some c) := by
  rw [attach]
  cases hold : s.owner n r with
  | some old =>
    dsimp only
    by_cases hc : old = c
    · subst hc
      rw [if_pos rfl, if_pos rfl, insert, if_pos ((h old r).mpr hold)]
    · rw [if_neg hc, if_neg fun he => hc (Option.some.inj he), take_eq_drop h' (hr.trans hold),
        join_drop]
  | none =>
    dsimp only
    rw [if_neg (by simp), ← join_drop, drop_eq_self h' (hr.trans hold)]

/-! ### Moving keeps the two sides in step -/

/-- No list holds a member twice. -/
def NoDup (s : Side σ O M) (n : σ) : Prop := ∀ c, (s.list n c).Nodup

omit [DecidableEq O] in
theorem Agrees.free (h : s.Agrees n) : s.Agrees (s.free n r) := by
  intro d q
  rw [Side.free, s.list_put, s.owner_put, List.mem_filter, h d q]
  by_cases hq : q = r <;> simp [hq]

theorem Agrees.give (h : s.Agrees n) : s.Agrees (s.give n c r) := by
  intro d q
  rw [Side.give, s.list_put, s.owner_put, List.mem_append, List.mem_filter, h d q]
  by_cases hq : q = r
  · by_cases hd : d = c
    · simp [hq, hd]
    · simp [hq, hd, Ne.symm hd]
  · by_cases hd : d = c <;> simp [hq, hd]

omit [DecidableEq O] in
theorem NoDup.free (h : s.NoDup n) : s.NoDup (s.free n r) := by
  intro d
  rw [Side.free, s.list_put]
  exact (h d).filter _

theorem NoDup.give (h : s.NoDup n) : s.NoDup (s.give n c r) := by
  intro d
  rw [Side.give, s.list_put, List.nodup_append]
  refine ⟨(h d).filter _, by split <;> simp, ?_⟩
  rintro x hx y hy rfl
  have hne : x ≠ r := by simpa using (List.mem_filter.mp hx).2
  split at hy
  · exact hne (List.mem_singleton.mp hy)
  · exact List.not_mem_nil hy

end Side

end ManagedImage
