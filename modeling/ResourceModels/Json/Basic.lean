import ResourceModels.Entries
import ResourceModels.Number.Binary64

/-!
# JSON values with members in order

Numbers keep apart what was written as an integer and what became a double. The members of
an object keep the order in which their keys first appeared.
-/

namespace ResourceModels

inductive Number where
  | integer (value : Int)
  | real (value : Binary64)
  deriving DecidableEq, Repr, Inhabited

inductive Json where
  | null
  | bool (value : Bool)
  | number (value : Number)
  | string (text : String)
  | array (items : List Json)
  | object (members : List (String × Json))
  deriving Repr, Inhabited

namespace Json

def member? : Json → String → Option Json
  | .object members, key => Entries.get? members key
  | _, _ => none

def isNull : Json → Bool
  | .null => true
  | _ => false

def text? : Json → Option String
  | .string text => some text
  | _ => none

def bool? : Json → Option Bool
  | .bool value => some value
  | _ => none

mutual

/-- Give every repeated key its first place and its last value. -/
def settled : Json → Json
  | .array items => .array (settledItems items)
  | .object members => .object (Entries.ofList (settledMembers members))
  | value => value

def settledItems : List Json → List Json
  | [] => []
  | item :: items => settled item :: settledItems items

def settledMembers : List (String × Json) → List (String × Json)
  | [] => []
  | (key, value) :: members => (key, settled value) :: settledMembers members

end

/-- The values of the named fields of a record that is written as an object, where no field may be
repeated, or as an array of all of them in order. -/
def fields? (names : List String) : Json → Option (List (Option Json))
  | .object members =>
    names.mapM fun name =>
      match members.filter (·.1 = name) with
      | [] => some none
      | [(_, value)] => some (some value)
      | _ => none
  | .array items => if items.length = names.length then some (items.map some) else none
  | _ => none

def isEmptyObject : Json → Bool
  | .object [] => true
  | _ => false

end Json

/-- Numbers are the same when their values are: the two zeros are one double here. -/
def Number.same : Number → Number → Bool
  | .integer a, .integer b => a = b
  | .real a, .real b => a = b || (a.steps = 0 && b.steps = 0)
  | _, _ => false

namespace Json

mutual

/-- Equality of values, in which the order of an object's members does not count. -/
def same : Json → Json → Bool
  | .null, .null => true
  | .bool a, .bool b => a = b
  | .number a, .number b => a.same b
  | .string a, .string b => a = b
  | .array as, .array bs => sameItems as bs
  | .object as, .object bs => as.length = bs.length && sameMembers as bs
  | _, _ => false

def sameItems : List Json → List Json → Bool
  | [], [] => true
  | a :: as, b :: bs => same a b && sameItems as bs
  | _, _ => false

/-- Every member on the left has the same value on the right. -/
def sameMembers : List (String × Json) → List (String × Json) → Bool
  | [], _ => true
  | (key, a) :: as, bs =>
    (match Entries.get? bs key with
      | some b => same a b
      | none => false) && sameMembers as bs

end

end Json

end ResourceModels
