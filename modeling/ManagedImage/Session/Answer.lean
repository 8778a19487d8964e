import ManagedImage.Bytes.Buffer
import ManagedImage.Error
import ManagedImage.Graph.Ref
import ManagedImage.Session.Literal

/-!
# What a session answers

## Main definitions

* `Refusal` — why a command could not be carried out at all, with its name and message.
* `Answer` — the answer to a command.
-/

namespace ManagedImage

/-- Why a command could not be carried out. -/
inductive Refusal where
  /-- There is no image, or no longer. -/
  | noImage
  /-- The value names no entity. -/
  | noSuchEntity (name : Literal)
  /-- The entity has no part with this name. -/
  | noSuchField (name : Literal)
  /-- The command is not for entities of these kinds. -/
  | wrongKinds (subject : Literal)
  /-- The value is not of the kind that is needed. -/
  | unreadable (value : Literal)
  deriving DecidableEq, Repr

namespace Refusal

/-- The name of the kind of refusal. -/
def name : Refusal → String
  | noImage => "NoImage"
  | noSuchEntity _ => "NoSuchEntity"
  | noSuchField _ => "NoSuchField"
  | wrongKinds _ => "BadKinds"
  | unreadable _ => "BadInput"

/-- The value that is to blame, as it is written. -/
def message : Refusal → String
  | noImage => ""
  | noSuchEntity value | noSuchField value | wrongKinds value | unreadable value => value.written

end Refusal

/-- The answer to a command. -/
inductive Answer where
  /-- There is nothing to tell. -/
  | nothing
  /-- It is done. -/
  | done
  /-- Yes or no. -/
  | flag (b : Bool)
  /-- A number. -/
  | number (n : Nat)
  /-- A text. -/
  | text (s : String)
  /-- A byte string. -/
  | bytes (b : Bytes)
  /-- An entity. -/
  | entity (r : AnyRef)
  /-- Several answers. -/
  | list (items : List Answer)
  /-- Several answers with names. -/
  | record (fields : List (String × Answer))
  /-- An error came up. -/
  | failed (e : Error)
  /-- The command could not be carried out. -/
  | refused (r : Refusal)

namespace Answer

/-- An entity, or nothing. -/
def ofRef? : Option AnyRef → Answer
  | some r => entity r
  | none => nothing

/-- A value, or the error that came up instead. -/
def ofExcept {α : Type} (f : α → Answer) : Except Error α → Answer
  | .ok value => f value
  | .error e => failed e

end Answer

end ManagedImage
