import ResourceModels.Document

/-!
# Buckets

Documents are merged into buckets. A bucket keeps the metadata of its first document, and its
schemas in order of first definition, each with its last body.
-/

namespace ResourceModels

/-- How a document finds its bucket. -/
inductive Strategy where
  /-- By its title; a document with another title has none. -/
  | byTitle
  /-- Every document goes into the one bucket. -/
  | single (bucket : String)
  deriving DecidableEq, Repr

namespace Strategy

/-- One bucket, named after a release tag. A dot would not do in a module name. -/
def ofRelease (tag : String) : Strategy :=
  .single (String.ofList (tag.toList.map fun c => if c = '.' then '_' else c))

/-- The bucket of a document. Only version 3 of the format is supported. -/
def bucket? (strategy : Strategy) (metadata : Metadata) : Option String :=
  if metadata.isVersion3 then
    match strategy with
    | .byTitle => metadata.bucket?
    | .single bucket => some bucket
  else none

end Strategy

/-- The schemas collected in a bucket. -/
structure Merged where
  metadata : Metadata
  schemas : Entries String Json
  deriving Repr

/-- The merged document, in the form in which it is kept. -/
def Merged.toJson (merged : Merged) : Json :=
  .object [
    ("openapi", .string merged.metadata.openapi),
    ("info", .object [
      ("title", .string merged.metadata.title),
      ("version", .string merged.metadata.version)]),
    ("components", .object [("schemas", .object merged.schemas)])]

/-- The buckets, in the order in which their first documents came. -/
abbrev Buckets := Entries String Merged

structure Merger where
  strategy : Strategy
  buckets : Buckets := []

namespace Merger

/-- The bucket that a document adds to. One without schemas adds to none. -/
def target? (merger : Merger) (document : Document) : Option String :=
  if document.schemas.isEmpty then none else merger.strategy.bucket? document.metadata

/-- Merge a document. The answer is the name under which its bucket is found afterwards; there is
none for a document that is skipped. -/
def merge (merger : Merger) (document : Document) : Option String × Merger :=
  match merger.target? document with
  | none => (none, merger)
  | some bucket =>
    let buckets := Entries.alter merger.buckets bucket
      ⟨document.metadata, Entries.insertAll [] document.schemas⟩
      fun merged => { merged with schemas := Entries.insertAll merged.schemas document.schemas }
    ((Entries.keys buckets).find? (· = bucket), { merger with buckets })

/-- The merger after a document, where nobody asks for its bucket. -/
def add (merger : Merger) (document : Document) : Merger := (merger.merge document).2

/-- The buckets, unless there is none. -/
def finish? (merger : Merger) : Option Buckets :=
  if merger.buckets.isEmpty then none else some merger.buckets

end Merger

/-- Merge documents in order. -/
def Buckets.ofDocuments? (strategy : Strategy) (documents : List Document) : Option Buckets :=
  (documents.foldl Merger.add ⟨strategy, []⟩).finish?

end ResourceModels
