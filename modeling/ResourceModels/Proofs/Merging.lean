import Mathlib
import ResourceModels.Bucket
import ResourceModels.Proofs.Entries

/-!
# What a row of merged documents amounts to

Merging keeps a map of maps, changed one document at a time. Its content is known without the
steps: a bucket is made from the documents that contribute to it and from nothing else. The first
of them gives the metadata, and the last that defines a name gives its body, while the name keeps
the place of its first definition. Main statement: `merged_closed_form`.
-/

namespace ResourceModels

/-- The bucket that a strategy has for a title, whatever the version of the format. -/
def Strategy.Assigns : Strategy → String → String → Prop
  | .byTitle, title, bucket => Metadata.bucketOfTitle.lookup title = some bucket
  | .single name, _, bucket => name = bucket

instance (strategy : Strategy) (title bucket : String) :
    Decidable (strategy.Assigns title bucket) :=
  match strategy with
  | .byTitle => inferInstanceAs (Decidable (_ = _))
  | .single _ => inferInstanceAs (Decidable (_ = _))

/-- The document is of version 3, is assigned to the bucket and brings at least one schema. -/
def Strategy.Contributes (strategy : Strategy) (bucket : String) (document : Document) : Prop :=
  ['3', '.'] <+: document.metadata.openapi.toList ∧
    strategy.Assigns document.metadata.title bucket ∧ document.schemas ≠ []

instance (strategy : Strategy) (bucket : String) (document : Document) :
    Decidable (strategy.Contributes bucket document) :=
  decidable_of_iff
    (document.metadata.isVersion3 = true ∧ strategy.Assigns document.metadata.title bucket ∧
      document.schemas.isEmpty = false) <| by
    simp [Strategy.Contributes, Metadata.isVersion3, List.isPrefixOf_iff_prefix]

namespace Merging

/-- The documents that contribute to a bucket, in their order. -/
def contributors (strategy : Strategy) (bucket : String) (documents : List Document) :
    List Document :=
  documents.filter fun document => decide (strategy.Contributes bucket document)

/-- The names that documents define, in order of first definition. -/
def definedNames (documents : List Document) : List String :=
  (documents.flatMap fun document => Entries.keys document.schemas).eraseDups

/-- The body of a name in the last document that defines it. A document that were to repeat a name
would count with the last entry of that name. -/
def lastBody? (documents : List Document) (name : String) : Option Json :=
  documents.reverse.findSome? fun document => Entries.get? document.schemas.reverse name

/-- Every name with its last body, in order of first definition. -/
def closedSchemas (documents : List Document) : Entries String Json :=
  (definedNames documents).filterMap fun name => (lastBody? documents name).map (name, ·)

/-- The content of a bucket, from all that contributes to it. -/
def closedForm? : List Document → Option Merged
  | [] => none
  | first :: rest => some ⟨first.metadata, closedSchemas (first :: rest)⟩

/-- The merger after a row of documents. -/
def mergerAfter (strategy : Strategy) (documents : List Document) : Merger :=
  documents.foldl Merger.add ⟨strategy, []⟩

theorem keys_definitions (documents : List Document) :
    Entries.keys (documents.flatMap Document.schemas) =
      documents.flatMap fun document => Entries.keys document.schemas := by
  induction documents with
  | nil => rfl
  | cons document rest ih => rw [List.flatMap_cons, List.flatMap_cons, Entries.keys_append, ih]

theorem get?_reverse_definitions (documents : List Document) (name : String) :
    Entries.get? (documents.flatMap Document.schemas).reverse name = lastBody? documents name := by
  induction documents with
  | nil => rfl
  | cons document rest ih =>
    rw [lastBody?, List.reverse_cons, List.findSome?_append, ← lastBody?, List.flatMap_cons,
      List.reverse_append, Entries.get?_append, ih]
    simp

theorem lastBody?_eq_none_iff (documents : List Document) (name : String) :
    lastBody? documents name = none ↔ name ∉ definedNames documents := by
  rw [← get?_reverse_definitions, Entries.get?_eq_none_iff, definedNames, ← keys_definitions,
    List.mem_eraseDups]
  simp [Entries.keys]

theorem lastBody?_isSome {documents : List Document} {name : String}
    (defined : name ∈ definedNames documents) : ∃ body, lastBody? documents name = some body := by
  cases found : lastBody? documents name with
  | none => exact absurd defined ((lastBody?_eq_none_iff documents name).mp found)
  | some body => exact ⟨body, rfl⟩

/-- The closed form is what inserting all definitions one after another gives. -/
theorem closedSchemas_eq_insertAll (documents : List Document) :
    closedSchemas documents = Entries.insertAll [] (documents.flatMap Document.schemas) := by
  have tabulated : ∀ names : List String, (∀ name ∈ names, name ∈ definedNames documents) →
      Entries.keys (names.filterMap fun name => (lastBody? documents name).map (name, ·)) = names ∧
      ∀ key, Entries.get?
          (names.filterMap fun name => (lastBody? documents name).map (name, ·)) key =
        if key ∈ names then lastBody? documents key else none := by
    intro names
    induction names with
    | nil => exact fun _ => ⟨rfl, fun _ => rfl⟩
    | cons name rest ih =>
      intro defined
      obtain ⟨body, found⟩ := lastBody?_isSome (defined name List.mem_cons_self)
      obtain ⟨keys_rest, values_rest⟩ :=
        ih fun other member => defined other (List.mem_cons_of_mem _ member)
      rw [List.filterMap_cons_some (by rw [found]; rfl)]
      refine ⟨by rw [Entries.keys_cons, keys_rest], fun key => ?_⟩
      rw [Entries.get?_cons, values_rest]
      by_cases equal : name = key
      · subst equal
        simp [found]
      · simp [equal, Ne.symm equal]
  obtain ⟨same_keys, values⟩ := tabulated (definedNames documents) fun _ member => member
  have distinct : (Entries.keys (closedSchemas documents)).Nodup := by
    rw [closedSchemas, same_keys]
    exact nodup_eraseDups _
  have none_yet : (Entries.keys ([] : Entries String Json)).Nodup := List.nodup_nil
  refine Entries.eq_of_views distinct ?_ fun key => ?_
  · rw [Entries.keys_insertAll none_yet, keys_definitions]
    exact same_keys
  · rw [Entries.get?_insertAll, get?_reverse_definitions, closedSchemas, values]
    split
    next => simp
    next absent => simp [(lastBody?_eq_none_iff documents key).mpr absent]

theorem closedSchemas_concat (documents : List Document) (document : Document) :
    closedSchemas (documents ++ [document]) =
      Entries.insertAll (closedSchemas documents) document.schemas := by
  simp only [closedSchemas_eq_insertAll, List.flatMap_append, List.flatMap_singleton,
    Entries.insertAll_append]

/-- One more contributing document: the first starts the bucket, a later one extends it. -/
theorem closedForm?_concat (documents : List Document) (document : Document) :
    closedForm? (documents ++ [document]) =
      some (((closedForm? documents).map fun merged =>
        { merged with schemas := Entries.insertAll merged.schemas document.schemas }).getD
        ⟨document.metadata, Entries.insertAll [] document.schemas⟩) := by
  cases documents with
  | nil =>
    have alone := closedSchemas_concat [] document
    simp only [List.nil_append] at alone
    simp only [List.nil_append, closedForm?, alone, Option.map_none, Option.getD_none]
    rfl
  | cons first rest =>
    have extended := closedSchemas_concat (first :: rest) document
    simp only [List.cons_append] at extended
    simp only [List.cons_append, closedForm?, extended, Option.map_some, Option.getD_some]

theorem bucket?_eq_some_iff (strategy : Strategy) (metadata : Metadata) (bucket : String) :
    strategy.bucket? metadata = some bucket ↔
      ['3', '.'] <+: metadata.openapi.toList ∧ strategy.Assigns metadata.title bucket := by
  unfold Strategy.bucket?
  rw [← List.isPrefixOf_iff_prefix]
  change (if metadata.isVersion3 then _ else _) = _ ↔ metadata.isVersion3 = true ∧ _
  by_cases version3 : metadata.isVersion3 = true
  · cases strategy with
    | byTitle => simp [version3, Strategy.Assigns, Metadata.bucket?]
    | single name => simp [version3, Strategy.Assigns]
  · simp [version3]

/-- A document is to go into a bucket exactly when it contributes to it. -/
theorem target?_eq_some_iff (merger : Merger) (document : Document) (bucket : String) :
    merger.target? document = some bucket ↔ merger.strategy.Contributes bucket document := by
  unfold Merger.target? Strategy.Contributes
  by_cases empty : document.schemas = []
  · simp [empty]
  · simp [empty, bucket?_eq_some_iff]

/-- The bucket is found where the document was to go. -/
theorem merge_fst (merger : Merger) (document : Document) :
    (merger.merge document).1 = merger.target? document := by
  unfold Merger.merge
  cases merger.target? document with
  | none => rfl
  | some bucket => exact Entries.find?_keys_alter ..

theorem add_of_target {merger : Merger} {document : Document} {bucket : String}
    (target : merger.target? document = some bucket) :
    merger.add document = { merger with
      buckets := Entries.alter merger.buckets bucket
        ⟨document.metadata, Entries.insertAll [] document.schemas⟩
        fun merged =>
          { merged with schemas := Entries.insertAll merged.schemas document.schemas } } := by
  rw [Merger.add, Merger.merge, target]

theorem add_of_skipped {merger : Merger} {document : Document}
    (skipped : merger.target? document = none) : merger.add document = merger := by
  rw [Merger.add, Merger.merge, skipped]

@[simp] theorem strategy_add (merger : Merger) (document : Document) :
    (merger.add document).strategy = merger.strategy := by
  cases target : merger.target? document with
  | none => rw [add_of_skipped target]
  | some bucket => rw [add_of_target target]

theorem get?_add (merger : Merger) (document : Document) (bucket : String) :
    Entries.get? (merger.add document).buckets bucket =
      if merger.strategy.Contributes bucket document then
        some (((Entries.get? merger.buckets bucket).map fun merged =>
          { merged with schemas := Entries.insertAll merged.schemas document.schemas }).getD
          ⟨document.metadata, Entries.insertAll [] document.schemas⟩)
      else Entries.get? merger.buckets bucket := by
  simp only [← target?_eq_some_iff]
  cases found : merger.target? document with
  | none => simp [add_of_skipped found]
  | some target => simp only [add_of_target found, Entries.get?_alter, Option.some.injEq]

theorem keys_add (merger : Merger) (document : Document) :
    Entries.keys (merger.add document).buckets =
      match merger.target? document with
      | none => Entries.keys merger.buckets
      | some bucket =>
        if bucket ∈ Entries.keys merger.buckets then Entries.keys merger.buckets
        else Entries.keys merger.buckets ++ [bucket] := by
  cases found : merger.target? document with
  | none => rw [add_of_skipped found]
  | some target =>
    rw [add_of_target found]
    exact Entries.keys_alter ..

theorem mergerAfter_concat (strategy : Strategy) (documents : List Document) (document : Document) :
    mergerAfter strategy (documents ++ [document]) =
      (mergerAfter strategy documents).add document := by
  simp [mergerAfter, List.foldl_append]

@[simp] theorem strategy_mergerAfter (strategy : Strategy) (documents : List Document) :
    (mergerAfter strategy documents).strategy = strategy := by
  induction documents using List.reverseRecOn with
  | nil => rfl
  | append_singleton documents document ih => rw [mergerAfter_concat, strategy_add, ih]

/-- The target depends on the strategy alone, not on what has been merged. -/
theorem target?_mergerAfter (strategy : Strategy) (documents : List Document)
    (document : Document) :
    (mergerAfter strategy documents).target? document =
      (⟨strategy, []⟩ : Merger).target? document := by
  simp only [Merger.target?, strategy_mergerAfter]

theorem keys_mergerAfter (strategy : Strategy) (documents : List Document) :
    Entries.keys (mergerAfter strategy documents).buckets =
      (documents.filterMap (⟨strategy, []⟩ : Merger).target?).eraseDups := by
  induction documents using List.reverseRecOn with
  | nil => rfl
  | append_singleton documents document ih =>
    rw [mergerAfter_concat, keys_add, target?_mergerAfter, ih, List.filterMap_append]
    cases found : (⟨strategy, []⟩ : Merger).target? document with
    | none => simp [found]
    | some bucket =>
      rw [List.filterMap_cons_some found, List.filterMap_nil, eraseDups_concat]
      simp only [List.mem_eraseDups]

theorem contributors_concat (strategy : Strategy) (bucket : String) (documents : List Document)
    (document : Document) :
    contributors strategy bucket (documents ++ [document]) =
      if strategy.Contributes bucket document then
        contributors strategy bucket documents ++ [document]
      else contributors strategy bucket documents := by
  unfold contributors
  rw [List.filter_append]
  by_cases contributes : strategy.Contributes bucket document <;> simp [contributes]

theorem get?_mergerAfter (strategy : Strategy) (documents : List Document) (bucket : String) :
    Entries.get? (mergerAfter strategy documents).buckets bucket =
      closedForm? (contributors strategy bucket documents) := by
  induction documents using List.reverseRecOn with
  | nil => rfl
  | append_singleton documents document ih =>
    rw [mergerAfter_concat, get?_add, strategy_mergerAfter, ih, contributors_concat]
    split
    next => rw [closedForm?_concat]
    next => rfl

theorem finish?_eq_none_iff (strategy : Strategy) (documents : List Document) :
    (mergerAfter strategy documents).finish? = none ↔
      ∀ document ∈ documents, ∀ bucket, ¬ strategy.Contributes bucket document := by
  have no_buckets : (mergerAfter strategy documents).finish? = none ↔
      Entries.keys (mergerAfter strategy documents).buckets = [] := by
    unfold Merger.finish?
    cases (mergerAfter strategy documents).buckets <;> simp
  rw [no_buckets, keys_mergerAfter, List.eq_nil_iff_forall_not_mem]
  simp only [List.mem_eraseDups, List.mem_filterMap, target?_eq_some_iff]
  grind

/-- A bucket's content depends only on the documents that contribute to it. -/
theorem get?_contributors (strategy : Strategy) (documents : List Document) (bucket : String) :
    Entries.get? (mergerAfter strategy (contributors strategy bucket documents)).buckets bucket =
      Entries.get? (mergerAfter strategy documents).buckets bucket := by
  rw [get?_mergerAfter, get?_mergerAfter]
  simp [contributors, List.filter_filter]

/-- Merging in closed form. A document that is merged is answered with the bucket it contributes to;
the buckets come in order of their first contributing documents, each with the content of
`closedForm?`, and that content is the same when only its contributors are merged; there is no
result exactly when nothing contributes. -/
theorem merged_closed_form (strategy : Strategy) (documents : List Document) :
    (∀ document bucket, ((mergerAfter strategy documents).merge document).1 = some bucket ↔
      strategy.Contributes bucket document) ∧
    Entries.keys (mergerAfter strategy documents).buckets =
      (documents.filterMap (⟨strategy, []⟩ : Merger).target?).eraseDups ∧
    (∀ bucket, Entries.get? (mergerAfter strategy documents).buckets bucket =
      closedForm? (contributors strategy bucket documents)) ∧
    (∀ bucket, Entries.get? (mergerAfter strategy documents).buckets bucket =
      Entries.get? (mergerAfter strategy (contributors strategy bucket documents)).buckets bucket) ∧
    ((mergerAfter strategy documents).finish? = none ↔
      ∀ document ∈ documents, ∀ bucket, ¬ strategy.Contributes bucket document) ∧
    Buckets.ofDocuments? strategy documents = (mergerAfter strategy documents).finish? ∧
    (∀ buckets, Buckets.ofDocuments? strategy documents = some buckets →
      buckets = (mergerAfter strategy documents).buckets) := by
  refine ⟨fun document bucket => ?_, keys_mergerAfter strategy documents,
    get?_mergerAfter strategy documents,
    fun bucket => (get?_contributors strategy documents bucket).symm,
    finish?_eq_none_iff strategy documents, rfl, fun buckets finished => ?_⟩
  · rw [merge_fst, target?_eq_some_iff, strategy_mergerAfter]
  · change (mergerAfter strategy documents).finish? = some buckets at finished
    unfold Merger.finish? at finished
    split at finished
    next => cases finished
    next => exact (Option.some.inj finished).symm

end Merging

end ResourceModels
