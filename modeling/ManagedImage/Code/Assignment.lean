import ManagedImage.Code.Segment

/-!
# Address assignments

An assignment gives places to segments and addresses to symbols, both by number.

## Main definitions

* `Assignment` — the places and addresses given so far.
* `Assignment.segment?`, `Assignment.symbol?` — what was given last.
-/

namespace ManagedImage

/-- Places of segments and addresses of symbols; what was given last comes first. -/
structure Assignment where
  /-- The places of segments. -/
  segments : List (Nat × Placement)
  /-- The addresses of symbols, relative to the image base. -/
  symbols : List (Nat × UInt32)
  deriving Repr

namespace Assignment

/-- Nothing is assigned. -/
def empty : Assignment := ⟨[], []⟩

/-- Gives a segment a place, instead of one that it may have been given before. -/
def placeSegment (a : Assignment) (segment : Nat) (p : Placement) : Assignment :=
  { a with segments := (segment, p) :: a.segments }

/-- Gives a symbol an address, instead of one that it may have been given before. -/
def placeSymbol (a : Assignment) (symbol : Nat) (rva : UInt32) : Assignment :=
  { a with symbols := (symbol, rva) :: a.symbols }

/-- The place of a segment. -/
def segment? (a : Assignment) (segment : Nat) : Option Placement := a.segments.lookup segment

/-- The address of a symbol. -/
def symbol? (a : Assignment) (symbol : Nat) : Option UInt32 := a.symbols.lookup symbol

@[simp] theorem segment?_empty (segment : Nat) : empty.segment? segment = none := rfl

@[simp] theorem symbol?_empty (symbol : Nat) : empty.symbol? symbol = none := rfl

theorem segment?_placeSegment (a : Assignment) (n m : Nat) (p : Placement) :
    (a.placeSegment n p).segment? m = if m = n then some p else a.segment? m := by
  by_cases h : m = n
  · simp [segment?, placeSegment, h]
  · have hb : (m == n) = false := by simpa using h
    simp [segment?, placeSegment, List.lookup_cons, h, hb]

theorem symbol?_placeSymbol (a : Assignment) (n m : Nat) (rva : UInt32) :
    (a.placeSymbol n rva).symbol? m = if m = n then some rva else a.symbol? m := by
  by_cases h : m = n
  · simp [symbol?, placeSymbol, h]
  · have hb : (m == n) = false := by simpa using h
    simp [symbol?, placeSymbol, List.lookup_cons, h, hb]

end Assignment

end ManagedImage
