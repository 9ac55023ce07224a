import ResourceModels.Schema.Keywords

/-!
# Reading schema nodes

A schema is an object. Every keyword is checked, also one that the shape leaves unused; keys
that are no keyword are kept aside. A keyword that may be absent may also be null, but a list or
an object may not.
-/

namespace ResourceModels

namespace TypeName

def ofText : String → TypeName
  | "string" => .string
  | "number" => .number
  | "integer" => .integer
  | "boolean" => .boolean
  | "array" => .array
  | "object" => .object
  | "null" => .null
  | _ => .other

/-- A type is named by a text, or by an object with the name as its only key and null
under it. -/
def ofJson? : Json → Option TypeName
  | .string text => some (ofText text)
  | .object [(text, .null)] => some (ofText text)
  | _ => none

end TypeName

def TypeSet.ofJson? (value : Json) : Option TypeSet :=
  match TypeName.ofJson? value with
  | some name => some (.single name)
  | none =>
    match value with
    | .array items => (items.mapM TypeName.ofJson?).map .several
    | _ => none

namespace Node

/-- A keyword that may be absent or null. -/
def optional? {α : Type} (read : Json → Option α) : Json → Option (Option α)
  | .null => some none
  | value => (read value).map some

def texts? : Json → Option (List String)
  | .array items => items.mapM Json.text?
  | _ => none

/-- Take up a keyword that holds no schema. `none` when its value has the wrong shape. -/
def plainKeyword? (keywords : Keywords) (key : String) (value : Json) : Option Keywords :=
  match key with
  | "$ref" => (optional? Json.text? value).map ({ keywords with reference := · })
  | "type" => (optional? TypeSet.ofJson? value).map ({ keywords with type := · })
  | "format" => (optional? Json.text? value).map ({ keywords with format := · })
  | "description" => (optional? Json.text? value).map ({ keywords with description := · })
  | "default" => (optional? some value).map ({ keywords with default := · })
  | "nullable" => (optional? Json.bool? value).map ({ keywords with nullable := · })
  | "readOnly" => (optional? Json.bool? value).map ({ keywords with readOnly := · })
  | "required" => (texts? value).map ({ keywords with required := · })
  | "enum" =>
    match value with
    | .array items => some { keywords with values := items }
    | _ => none
  | _ => some { keywords with rest := (key, value) :: keywords.rest }

mutual

/-- The node of a schema; `none` when it, or a schema below it, has the wrong shape. -/
def ofJson? : Json → Option Node
  | .object members => (keywords? members).map Keywords.toNode
  | _ => none

def keywords? : List (String × Json) → Option Keywords
  | [] => some {}
  | (key, value) :: rest =>
    match keywords? rest with
    | none => none
    | some keywords =>
      match key with
      | "properties" => (properties? value).map ({ keywords with properties := · })
      | "additionalProperties" => (additional? value).map ({ keywords with additional := · })
      | "items" => (items? value).map ({ keywords with items := · })
      | "allOf" => (nodes? value).map ({ keywords with allOf := · })
      | "oneOf" => (nodes? value).map ({ keywords with oneOf := · })
      | "anyOf" => (nodes? value).map ({ keywords with anyOf := · })
      | _ => plainKeyword? keywords key value

def properties? : Json → Option (Entries String Node)
  | .object members => namedNodes? members
  | _ => none

def namedNodes? : List (String × Json) → Option (List (String × Node))
  | [] => some []
  | (name, value) :: rest =>
    match ofJson? value, namedNodes? rest with
    | some node, some nodes => some ((name, node) :: nodes)
    | _, _ => none

def additional? : Json → Option (Option (AdditionalKeys Node))
  | .null => some none
  | .bool value => some (some (.allowed value))
  | .object members => (keywords? members).map fun keywords => some (.schema keywords.toNode)
  | _ => none

def items? : Json → Option (Option Node)
  | .null => some none
  | .object members => (keywords? members).map fun keywords => some keywords.toNode
  | _ => none

def nodes? : Json → Option (List Node)
  | .array items => nodeList? items
  | _ => none

def nodeList? : List Json → Option (List Node)
  | [] => some []
  | value :: rest =>
    match ofJson? value, nodeList? rest with
    | some node, some nodes => some (node :: nodes)
    | _, _ => none

end

end Node

end ResourceModels
