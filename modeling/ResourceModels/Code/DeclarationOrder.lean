import ResourceModels.Model.Basic

/-!
# Order of declarations

Declarations are placed in passes over the whole set: one is placed when all that it refers to has
been placed, and otherwise waits for the next pass. When a pass places nothing, what is
left refers in circles and keeps its order.
-/

namespace ResourceModels.Code

/-- A declaration and the other classes it refers to. -/
structure Pending where
  owner : ClassRef
  needs : List ClassRef
  deriving Repr

namespace DeclarationOrder

def pending (set : ModelSet) : List Pending :=
  set.flatMap fun home => home.models.map fun model =>
    let owner : ClassRef := ⟨home.path, model.name⟩
    ⟨owner, model.refs.filter (· ≠ owner)⟩

abbrev Ranks := Entries ClassRef Nat

def isReady (declared : List ClassRef) (ranks : Ranks) (item : Pending) : Bool :=
  item.needs.all fun need => Entries.has ranks need || !declared.contains need

/-- One pass: the ranks after it, and what has to wait. -/
def pass (declared : List ClassRef) (ranks : Ranks) : List Pending → Ranks × List Pending
  | [] => (ranks, [])
  | item :: rest =>
    if isReady declared ranks item then
      pass declared (Entries.insert ranks item.owner ranks.length) rest
    else
      let (ranks, waiting) := pass declared ranks rest
      (ranks, item :: waiting)

/-- Place what refers in circles. -/
def placeLeft (ranks : Ranks) (items : List Pending) : Ranks :=
  items.foldl
    (fun ranks item =>
      if Entries.has ranks item.owner then ranks
      else Entries.insert ranks item.owner ranks.length)
    ranks

/-- Repeat passes until one places nothing. -/
def settle (declared : List ClassRef) (ranks : Ranks) (items : List Pending) : Ranks :=
  match items with
  | [] => ranks
  | items =>
    let after := pass declared ranks items
    if after.2.length < items.length then settle declared after.1 after.2
    else placeLeft after.1 after.2
termination_by items.length

end DeclarationOrder

/-- The rank of every declaration of a set. -/
def declarationOrder (set : ModelSet) : DeclarationOrder.Ranks :=
  let items := DeclarationOrder.pending set
  DeclarationOrder.settle (items.map Pending.owner) [] items

end ResourceModels.Code
