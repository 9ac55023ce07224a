import ResourceModels.Json.Basic

/-!
# Vendor extensions

The keys of a schema that start with `x-`. Three of them mean something here: the group, version
and kind of a resource, and two flags.
-/

namespace ResourceModels

abbrev Extensions := Entries String Json

/-- The identity of a resource type. An empty text means not known. -/
structure ResourceKind where
  group : String
  version : String
  kind : String
  deriving DecidableEq, Repr

namespace ResourceKind

def unknown : ResourceKind := ⟨"", "", ""⟩

def isUnknown (resource : ResourceKind) : Bool :=
  resource.group = "" && resource.version = "" && resource.kind = ""

/-- Members that are absent or no text count as empty. -/
def ofRecord (record : Json) : ResourceKind :=
  let text (key : String) : String := ((record.member? key).bind Json.text?).getD ""
  ⟨text "group", text "version", text "kind"⟩

/-- Group and version together, when both are known. -/
def apiVersion? (resource : ResourceKind) : Option String :=
  if resource.group = "" || resource.version = "" then none
  else some (resource.group ++ "/" ++ resource.version)

end ResourceKind

namespace Extensions

def isExtensionKey (key : String) : Bool := ['x', '-'].isPrefixOf key.toList

/-- The extensions among the members of a schema. -/
def ofMembers (members : List (String × Json)) : Extensions :=
  Entries.ofList (members.filter fun member => isExtensionKey member.1)

def resourceKindKey : String := "x-kubernetes-group-version-kind"

def intOrStringKey : String := "x-kubernetes-int-or-string"

def preserveUnknownKey : String := "x-kubernetes-preserve-unknown-fields"

/-- A single record, alone or in a list. Several records are ambiguous. -/
def resourceKind (extensions : Extensions) : ResourceKind :=
  match Entries.get? extensions resourceKindKey with
  | some (.array [record]) => .ofRecord record
  | some (.object members) => .ofRecord (.object members)
  | _ => .unknown

def hasFlag (extensions : Extensions) (key : String) : Bool :=
  ((Entries.get? extensions key).bind Json.bool?).getD false

def intOrString (extensions : Extensions) : Bool := hasFlag extensions intOrStringKey

def preservesUnknown (extensions : Extensions) : Bool := hasFlag extensions preserveUnknownKey

end Extensions

end ResourceModels
