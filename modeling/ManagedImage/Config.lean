/-!
# Decoder configuration

How much a decoder puts up with, and how deep walks over nested types may go.

## Main definitions

* `Config` — the three choices.
* `Config.lenient`, `Config.strict` — the two presets.
-/

namespace ManagedImage

/-- The choices of a decoder. -/
structure Config where
  /-- Header bits of tables that are not defined are put up with. -/
  allowUnknownTables : Bool
  /-- A reserved word that is not zero, and an unknown version, are rejected. -/
  strictHeader : Bool
  /-- How many levels of nesting a walk may go down. -/
  maxNestingDepth : Nat
  deriving DecidableEq, Repr

namespace Config

/-- Takes what can be taken. -/
def lenient : Config := ⟨true, false, 64⟩

/-- Takes only what the format defines. -/
def strict : Config := ⟨false, true, 64⟩

instance : Inhabited Config := ⟨lenient⟩

end Config

end ManagedImage
