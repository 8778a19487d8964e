import ManagedImage.Graph.Attributes
import ManagedImage.Text.Quoted

/-!
# Attributes by name

Attributes can be reached by name, whatever the type of their values.  The type
is then one of a few kinds of value, and each kind knows how to show a value.

## Main definitions

* `ValueKind`, `ValueKind.Value` — the kinds of value and their types.
* `Property k` — an attribute of the entities of kind `k` together with its kind of value.
* `Property.ofName?`, `ListProperty.ofName?` — the attributes and lists of a kind by name.
-/

namespace ManagedImage

/-- A kind of value that an attribute may have. -/
inductive ValueKind where
  /-- A number of 16 bits. -/
  | word
  /-- A number of 32 bits. -/
  | dword
  /-- A text. -/
  | text
  /-- A byte string. -/
  | bytes
  /-- An identifier or none. -/
  | guid
  /-- A version. -/
  | version
  /-- A reference to an entity, or none. -/
  | reference
  deriving DecidableEq, Repr

namespace ValueKind

/-- The values of a kind. -/
@[reducible] def Value : ValueKind → Type
  | word => UInt16
  | dword => UInt32
  | text => String
  | bytes => Bytes
  | guid => Option Guid
  | version => AssemblyVersion
  | reference => Option AnyRef

/-- A text for a list of numbers. -/
def describeBytes (b : List UInt8) : String :=
  "[" ++ ", ".intercalate (b.map fun n => toString n.toNat) ++ "]"

/-- A text for a value that may be missing. -/
def describeOption {α : Type} (text : α → String) : Option α → String
  | none => "None"
  | some value => "Some(" ++ text value ++ ")"

/-- A text for an identifier, field by field. -/
def describeGuid (g : Guid) : String :=
  let b := g.bytes.toList
  let part (start count : Nat) : List UInt8 := (b.drop start).take count
  let byte (i : Nat) : String := toString (b.getD i 0).toNat
  "Guid \x7b time_low: " ++ toString (LittleEndian.decode (part 0 4))
    ++ ", time_mid: " ++ describeBytes (part 4 2)
    ++ ", time_high_and_version: " ++ describeBytes (part 6 2)
    ++ ", clock_seq_high_and_reserved: " ++ byte 8
    ++ ", clock_seq_low: " ++ byte 9
    ++ ", node: " ++ describeBytes (part 10 6) ++ " \x7d"

/-- A text for a version, field by field. -/
def describeVersion (v : AssemblyVersion) : String :=
  "AssemblyVersion \x7b major: " ++ toString v.major.toNat
    ++ ", minor: " ++ toString v.minor.toNat
    ++ ", build: " ++ toString v.build.toNat
    ++ ", revision: " ++ toString v.revision.toNat ++ " \x7d"

/-- A text that shows a value in full. -/
def describe : (k : ValueKind) → k.Value → String
  | word, n => toString n.toNat
  | dword, n => toString n.toNat
  | text, s => Quoted.quote s
  | bytes, b => describeBytes b.toList
  | guid, g => describeOption describeGuid g
  | version, v => describeVersion v
  | reference, r => describeOption (fun r => r.kind.name ++ "((Weak))") r

/-- A value next to the given one: a number or revision plus one, a text or byte string with one
more element.  Identifiers and references have no next one. -/
def following : (k : ValueKind) → k.Value → k.Value
  | word, n => n + 1
  | dword, n => n + 1
  | text, s => s.push '!'
  | bytes, b => b.push 0xFF
  | guid, g => g
  | version, v => { v with revision := v.revision + 1 }
  | reference, r => r

end ValueKind

/-- What is found under a name stands in the list with that name. -/
theorem mem_of_lookup {β : Type} {l : List (String × β)} {name : String} {b : β}
    (h : l.lookup name = some b) : (name, b) ∈ l := by
  obtain ⟨l₁, l₂, rfl, -⟩ := List.lookup_eq_some_iff.mp h
  exact List.mem_append_right l₁ List.mem_cons_self

/-- An attribute together with the kind of its values. -/
structure Property (k : EntityKind) where
  /-- The kind of the values. -/
  valueKind : ValueKind
  /-- The attribute. -/
  part : Attribute k valueKind.Value

namespace Property

/-- The attributes of the entities of a kind, by name. -/
def table : (k : EntityKind) → List (String × Property k)
  | .module => [
      ("generation", ⟨.word, Attribute.Module.generation⟩),
      ("name", ⟨.text, Attribute.Module.name⟩),
      ("mvid", ⟨.guid, Attribute.Module.mvid⟩),
      ("enc_id", ⟨.guid, Attribute.Module.encId⟩),
      ("enc_base_id", ⟨.guid, Attribute.Module.encBaseId⟩)]
  | .typeRef => [
      ("name", ⟨.text, Attribute.TypeRef.name⟩),
      ("namespace", ⟨.text, Attribute.TypeRef.namespaceName⟩),
      ("resolution_scope", ⟨.reference, Attribute.TypeRef.resolutionScope⟩)]
  | .typeDef => [
      ("flags", ⟨.dword, Attribute.TypeDef.flags⟩),
      ("name", ⟨.text, Attribute.TypeDef.name⟩),
      ("namespace", ⟨.text, Attribute.TypeDef.namespaceName⟩),
      ("base_type", ⟨.reference, Attribute.TypeDef.baseType⟩)]
  | .field => [
      ("flags", ⟨.word, Attribute.Field.flags⟩),
      ("name", ⟨.text, Attribute.Field.name⟩),
      ("signature", ⟨.bytes, Attribute.Field.signature⟩)]
  | .methodDef => [
      ("rva", ⟨.dword, Attribute.MethodDef.rva⟩),
      ("impl_flags", ⟨.word, Attribute.MethodDef.implFlags⟩),
      ("flags", ⟨.word, Attribute.MethodDef.flags⟩),
      ("name", ⟨.text, Attribute.MethodDef.name⟩),
      ("signature", ⟨.bytes, Attribute.MethodDef.signature⟩)]
  | .nestedClass => []
  | .moduleRef => [
      ("name", ⟨.text, Attribute.ModuleRef.name⟩)]
  | .assemblyRef => [
      ("version", ⟨.version, Attribute.AssemblyRef.version⟩),
      ("flags", ⟨.dword, Attribute.AssemblyRef.flags⟩),
      ("public_key_or_token", ⟨.bytes, Attribute.AssemblyRef.publicKeyOrToken⟩),
      ("name", ⟨.text, Attribute.AssemblyRef.name⟩),
      ("culture", ⟨.text, Attribute.AssemblyRef.culture⟩),
      ("hash_value", ⟨.bytes, Attribute.AssemblyRef.hashValue⟩)]

/-- The attribute with the given name. -/
def ofName? (k : EntityKind) (name : String) : Option (Property k) := (table k).lookup name

end Property

/-- A list of members together with the name of each. -/
structure ListProperty (k : EntityKind) where
  /-- The kind of the members. -/
  memberKind : EntityKind
  /-- The list. -/
  part : Attribute k (List (Ref memberKind))
  /-- The name of a member, if members of the kind have names. -/
  memberName? : Option (Attribute memberKind String)

namespace ListProperty

/-- The lists of the entities of a kind, by name. -/
def table : (k : EntityKind) → List (String × ListProperty k)
  | .module => [
      ("top_level_types",
        ⟨.typeDef, Attribute.Module.topLevelTypes, some Attribute.TypeDef.name⟩)]
  | .typeDef => [
      ("fields", ⟨.field, Attribute.TypeDef.fields, some Attribute.Field.name⟩),
      ("methods", ⟨.methodDef, Attribute.TypeDef.methods, some Attribute.MethodDef.name⟩),
      ("nested_classes", ⟨.nestedClass, Attribute.TypeDef.nestedClasses, none⟩)]
  | _ => []

/-- The list with the given name. -/
def ofName? (k : EntityKind) (name : String) : Option (ListProperty k) := (table k).lookup name

end ListProperty

end ManagedImage
