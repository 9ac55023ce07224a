import ResourceModels.Model.Basic
import ResourceModels.Schema.Node

/-!
# Conventions of an API

Adjustments made on the way from schemas to models. The Kubernetes conventions give a resource its
kind and API version as defaults, and drop a default that is the empty mapping where the field
is no mapping.
-/

namespace ResourceModels

inductive Conventions where
  | asWritten
  | kubernetes
  deriving DecidableEq, Repr

namespace Conventions

/-- Replace the default of a property, if there is one of that name. -/
def defaultProperty (properties : Entries String Node) (name text : String) :
    Entries String Node :=
  properties.map fun (key, node) =>
    (key, if key = name then node.withDefault (.string text) else node)

/-- Adjust an object before any of its properties is looked at. A resource of the core group
has no group, and its API version is left alone. -/
def adjustObject (conventions : Conventions) (extensions : Extensions)
    (shape : ObjectShape Node) : ObjectShape Node :=
  match conventions with
  | .asWritten => shape
  | .kubernetes =>
    let resource := extensions.resourceKind
    let withKind :=
      if resource.kind = "" then shape.properties
      else defaultProperty shape.properties "kind" resource.kind
    let withVersion :=
      match resource.apiVersion? with
      | some version => defaultProperty withKind "apiVersion" version
      | none => withKind
    { shape with properties := withVersion }

/-- Adjust a field once its type is known. -/
def adjustField (conventions : Conventions) (field : Field ModelType) : Field ModelType :=
  match conventions with
  | .asWritten => field
  | .kubernetes =>
    if (field.default.map Json.isEmptyObject).getD false && !field.type.isMap then
      { field with default := none }
    else field

/-- Adjust every object of a schema. -/
def adjustNode (conventions : Conventions) (node : Node) : Node :=
  node.mapObjects conventions.adjustObject

end Conventions

end ResourceModels
