import Std.Data.HashMap

/-!
# Grouping pairs by key

A list of key-value pairs is turned into a map once, so that the values of a
key need not be searched for again.

## Main definitions

* `Grouping.first` — the first value of each key.
* `Grouping.all` — all values of each key, in order.
* `getElem?_first`, `getD_all` — both agree with a search of the list.
-/

namespace ManagedImage

namespace Grouping

variable {κ α : Type} [BEq κ] [Hashable κ]

/-- The first value of each key. -/
def first (pairs : List (κ × α)) : Std.HashMap κ α :=
  pairs.foldr (fun p m => m.insert p.1 p.2) ∅

/-- All values of each key, in the order of the list. -/
def all (pairs : List (κ × α)) : Std.HashMap κ (List α) :=
  pairs.foldr (fun p m => m.insert p.1 (p.2 :: m.getD p.1 [])) ∅

variable [LawfulBEq κ]

theorem getElem?_first (pairs : List (κ × α)) (k : κ) :
    (first pairs)[k]? = (pairs.find? (·.1 == k)).map (·.2) := by
  induction pairs with
  | nil => simp [first]
  | cons p pairs ih =>
    have hstep : first (p :: pairs) = (first pairs).insert p.1 p.2 := rfl
    rw [hstep, Std.HashMap.getElem?_insert, ih, List.find?_cons]
    cases p.1 == k <;> rfl

theorem getD_all (pairs : List (κ × α)) (k : κ) :
    (all pairs).getD k [] = (pairs.filter (·.1 == k)).map (·.2) := by
  induction pairs with
  | nil => simp [all]
  | cons p pairs ih =>
    have hstep : all (p :: pairs) = (all pairs).insert p.1 (p.2 :: (all pairs).getD p.1 []) := rfl
    rw [hstep, Std.HashMap.getD_insert, List.filter_cons]
    by_cases h : p.1 = k
    · subst h
      simp [ih]
    · simp [h, ih]

end Grouping

end ManagedImage
