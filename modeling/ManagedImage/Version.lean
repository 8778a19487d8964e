/-!
# Assembly versions

## Main definitions

* `AssemblyVersion` — four numbers, compared from the left.
* `AssemblyVersion.display` — the text of a version.
-/

namespace ManagedImage

/-- The version of an assembly. -/
structure AssemblyVersion where
  /-- The first number. -/
  major : UInt16
  /-- The second number. -/
  minor : UInt16
  /-- The third number. -/
  build : UInt16
  /-- The fourth number. -/
  revision : UInt16
  deriving DecidableEq, Repr, Inhabited

namespace AssemblyVersion

/-- The four numbers. -/
def parts (v : AssemblyVersion) : List Nat :=
  [v.major.toNat, v.minor.toNat, v.build.toNat, v.revision.toNat]

/-- The version is not later than the other one. -/
def le (v w : AssemblyVersion) : Bool := !w.parts.lex v.parts Nat.blt

/-- The four numbers with points between them. -/
def display (v : AssemblyVersion) : String := ".".intercalate (v.parts.map toString)

end AssemblyVersion

end ManagedImage
