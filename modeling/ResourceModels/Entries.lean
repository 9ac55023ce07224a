/-!
# Entries in order of first insertion

A finite map that remembers order, as a list of pairs. Putting a key that is already
present replaces its value where it stands, so a key keeps the place of its first
insertion and the value of its last.
-/

namespace ResourceModels

/-- Pairs of a key and a value, in the order in which the keys came. -/
abbrev Entries (κ α : Type) := List (κ × α)

namespace Entries

variable {κ α β : Type} [DecidableEq κ]

def keys (entries : Entries κ α) : List κ := entries.map Prod.fst

def get? (entries : Entries κ α) (key : κ) : Option α :=
  match entries with
  | [] => none
  | (k, value) :: rest => if k = key then some value else get? rest key

def has (entries : Entries κ α) (key : κ) : Bool := (get? entries key).isSome

/-- A new key goes to the end; a known one keeps its place. -/
def insert (entries : Entries κ α) (key : κ) (value : α) : Entries κ α :=
  match entries with
  | [] => [(key, value)]
  | (k, old) :: rest => if k = key then (k, value) :: rest else (k, old) :: insert rest key value

/-- Change the value of a key where it stands, or put `new` at the end for a key that is new. -/
def alter (entries : Entries κ α) (key : κ) (new : α) (change : α → α) : Entries κ α :=
  match entries with
  | [] => [(key, new)]
  | (k, old) :: rest =>
    if k = key then (k, change old) :: rest else (k, old) :: alter rest key new change

def insertAll (entries more : Entries κ α) : Entries κ α :=
  more.foldl (fun acc entry => insert acc entry.1 entry.2) entries

def ofList (pairs : List (κ × α)) : Entries κ α := insertAll [] pairs

/-- The entries without a key, the rest in their order. -/
def erase (entries : Entries κ α) (key : κ) : Entries κ α :=
  entries.filter fun entry => entry.1 ≠ key

def mapValues (entries : Entries κ α) (f : α → β) : Entries κ β :=
  entries.map fun entry => (entry.1, f entry.2)

end Entries

end ResourceModels
