import ManagedImage.Table.Id

/-!
# Fields

Every table has rows of a type of its own.  A row has a number for each of its
fields, and the fields are told here by the rows alone: how a table lays its
columns out is told apart from that.

## Main definitions

* `TableId.fields` — the fields of the rows of each table.
* `TableId.arity` — how many they are.
-/

namespace ManagedImage

namespace TableId

/-- The fields of the rows of a table, in the order in which they are read and written. -/
def fields : TableId → List String
  | .module => ["generation", "name", "mvid", "enc_id", "enc_base_id"]
  | .typeRef => ["resolution_scope", "type_name", "type_namespace"]
  | .typeDef => ["flags", "type_name", "type_namespace", "extends", "field_list", "method_list"]
  | .fieldPtr => ["field"]
  | .field => ["flags", "name", "signature"]
  | .methodPtr => ["method"]
  | .methodDef => ["rva", "impl_flags", "flags", "name", "signature", "param_list"]
  | .paramPtr => ["param"]
  | .param => ["flags", "sequence", "name"]
  | .interfaceImpl => ["class", "interface"]
  | .memberRef => ["class", "name", "signature"]
  | .constant => ["base", "padding", "parent", "value"]
  | .customAttribute => ["parent", "constructor", "value"]
  | .fieldMarshal => ["parent", "native_type"]
  | .declSecurity => ["action", "parent", "permission_set"]
  | .classLayout => ["packing_size", "class_size", "parent"]
  | .fieldLayout => ["field_offset", "field"]
  | .standAloneSig => ["signature"]
  | .eventMap => ["parent", "event_list"]
  | .eventPtr => ["event"]
  | .event => ["flags", "name", "event_type"]
  | .propertyMap => ["parent", "property_list"]
  | .propertyPtr => ["property"]
  | .property => ["flags", "name", "signature"]
  | .methodSemantics => ["semantics", "method", "association"]
  | .methodImpl => ["class", "method_body", "method_declaration"]
  | .moduleRef => ["name"]
  | .typeSpec => ["signature"]
  | .implMap => ["mapping_flags", "member_forwarded", "import_name", "import_scope"]
  | .fieldRva => ["rva", "field"]
  | .encLog => ["token_value", "func_code"]
  | .encMap => ["token_value"]
  | .assembly =>
    ["hash_alg_id", "major_version", "minor_version", "build_number", "revision_number", "flags",
      "public_key", "name", "culture"]
  | .assemblyProcessor => ["processor"]
  | .assemblyOs => ["os_platform_id", "os_major_version", "os_minor_version"]
  | .assemblyRef =>
    ["major_version", "minor_version", "build_number", "revision_number", "flags",
      "public_key_or_token", "name", "culture", "hash_value"]
  | .assemblyRefProcessor => ["processor", "assembly_ref"]
  | .assemblyRefOs => ["os_platform_id", "os_major_version", "os_minor_version", "assembly_ref"]
  | .file => ["flags", "name", "hash_value"]
  | .exportedType => ["flags", "type_def_id", "type_name", "type_namespace", "implementation"]
  | .manifestResource => ["resource_offset", "flags", "name", "implementation"]
  | .nestedClass => ["nested_class", "enclosing_class"]
  | .genericParam => ["number", "flags", "owner", "name"]
  | .methodSpec => ["method", "instantiation"]
  | .genericParamConstraint => ["owner", "constraint"]

/-- How many fields the rows of a table have. -/
def arity (t : TableId) : Nat := t.fields.length

/-- No row is without a field. -/
theorem arity_pos (t : TableId) : 0 < t.arity := by
  cases t <;> decide

end TableId

end ManagedImage
