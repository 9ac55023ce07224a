import Mathlib
import ResourceModels.Proofs.Merging

/-!
# Kept documents merge back to what they were kept from

Merging ends with buckets that are `Settled`: no bucket stands twice, and the document kept for
each of them, read again, is of version 3, is assigned to that same bucket by the metadata it was
kept with, and brings every schema once, in its place. That is also all that a second merge asks
for: a settled row of buckets, kept and read again, is merged to itself. Main statement:
`remerged_kept`.
-/

namespace ResourceModels

/-- The document that the kept form of a bucket is read as. -/
def Merged.reread (merged : Merged) : Document := ⟨⟨merged.metadata, none⟩, merged.schemas⟩

@[simp] theorem Merged.reread_metadata (merged : Merged) :
    merged.reread.metadata = merged.metadata := rfl

@[simp] theorem Merged.reread_schemas (merged : Merged) :
    merged.reread.schemas = merged.schemas := rfl

/-- The kept form has every required field, and nothing that does not decode. -/
theorem Document.ofJson_kept (merged : Merged) :
    Document.ofJson merged.toJson = .ok merged.reread := rfl

/-- Buckets whose kept documents would each land where they come from, schema for schema. -/
structure Buckets.Settled (strategy : Strategy) (buckets : Buckets) : Prop where
  distinct : (Entries.keys buckets).Nodup
  contributes : ∀ entry ∈ buckets, strategy.Contributes entry.1 entry.2.reread
  schemas : ∀ entry ∈ buckets, (Entries.keys entry.2.schemas).Nodup

namespace Merging

variable {strategy : Strategy}

theorem nodup_keys_mergerAfter (strategy : Strategy) (documents : List Document) :
    (Entries.keys (mergerAfter strategy documents).buckets).Nodup := by
  rw [keys_mergerAfter]
  exact nodup_eraseDups _

theorem nodup_keys_closedSchemas (documents : List Document) :
    (Entries.keys (closedSchemas documents)).Nodup := by
  have none_yet : (Entries.keys ([] : Entries String Json)).Nodup := List.nodup_nil
  rw [closedSchemas_eq_insertAll, Entries.keys_insertAll none_yet]
  exact nodup_eraseDups _

theorem closedSchemas_ne_nil {first : Document} (rest : List Document)
    (schemas : first.schemas ≠ []) : closedSchemas (first :: rest) ≠ [] := by
  have none_yet : (Entries.keys ([] : Entries String Json)).Nodup := List.nodup_nil
  obtain ⟨entry, others, equal⟩ := List.exists_cons_of_ne_nil schemas
  intro none_closed
  have keys := Entries.keys_insertAll none_yet ((first :: rest).flatMap Document.schemas)
  rw [← closedSchemas_eq_insertAll, none_closed] at keys
  simp [equal, Entries.keys, List.eraseDups_cons] at keys

/-- The first contributor gives the metadata, and it is by its metadata that it contributes. -/
theorem contributes_of_closedForm? {bucket : String} {documents : List Document} {merged : Merged}
    (closed : closedForm? (contributors strategy bucket documents) = some merged) :
    strategy.Contributes bucket merged.reread := by
  cases row : contributors strategy bucket documents with
  | nil =>
    rw [row] at closed
    cases closed
  | cons first rest =>
    rw [row] at closed
    cases closed
    have listed : first ∈ contributors strategy bucket documents := by simp [row]
    obtain ⟨version3, assigned, schemas⟩ : strategy.Contributes bucket first := by
      simpa [contributors] using (List.mem_filter.mp listed).2
    exact ⟨version3, assigned, closedSchemas_ne_nil rest schemas⟩

theorem nodup_schemas_of_closedForm? {documents : List Document} {merged : Merged}
    (closed : closedForm? documents = some merged) : (Entries.keys merged.schemas).Nodup := by
  cases documents with
  | nil => cases closed
  | cons first rest =>
    cases closed
    apply nodup_keys_closedSchemas

theorem settled_mergerAfter (strategy : Strategy) (documents : List Document) :
    Buckets.Settled strategy (mergerAfter strategy documents).buckets := by
  have distinct := nodup_keys_mergerAfter strategy documents
  have closed : ∀ entry ∈ (mergerAfter strategy documents).buckets,
      closedForm? (contributors strategy entry.1 documents) = some entry.2 := by
    intro entry listed
    rw [← get?_mergerAfter]
    exact Entries.get?_of_mem distinct listed
  constructor
  case distinct => exact distinct
  case contributes => exact fun entry listed => contributes_of_closedForm? (closed entry listed)
  case schemas => exact fun entry listed => nodup_schemas_of_closedForm? (closed entry listed)

/-- One step: a document that is read again makes a bucket at the end, which is its own. -/
theorem add_reread {merger : Merger} {bucket : String} {merged : Merged}
    (contributes : merger.strategy.Contributes bucket merged.reread)
    (schemas : (Entries.keys merged.schemas).Nodup)
    (new : bucket ∉ Entries.keys merger.buckets) :
    (merger.add merged.reread).buckets = merger.buckets ++ [(bucket, merged)] := by
  have target := (target?_eq_some_iff merger merged.reread bucket).mpr contributes
  have rebuilt : (⟨merged.reread.metadata, Entries.insertAll [] merged.reread.schemas⟩ : Merged) =
      merged := by
    rw [Merged.reread_schemas, Entries.insertAll_nil_eq_self schemas, Merged.reread_metadata]
  rw [add_of_target target, rebuilt]
  exact Entries.alter_of_not_mem new ..

/-- Settled buckets, kept and read again one after another, are what merging them gives. -/
theorem mergerAfter_reread {buckets : Buckets} (settled : Buckets.Settled strategy buckets) :
    (mergerAfter strategy (buckets.map fun entry => entry.2.reread)).buckets = buckets := by
  induction buckets using List.reverseRecOn with
  | nil => rfl
  | append_singleton buckets entry ih =>
    have distinct := settled.distinct
    rw [Entries.keys_append, List.nodup_append] at distinct
    have earlier : Buckets.Settled strategy buckets :=
      ⟨distinct.1, fun other listed => settled.contributes other (by simp [listed]),
        fun other listed => settled.schemas other (by simp [listed])⟩
    have remerged := ih earlier
    have new : entry.1 ∉ Entries.keys buckets := by
      intro known
      exact distinct.2.2 _ known entry.1 (by simp) rfl
    have contributes := settled.contributes entry (by simp)
    rw [← strategy_mergerAfter strategy (buckets.map fun other => other.2.reread)] at contributes
    have schemas := settled.schemas entry (by simp)
    rw [List.map_append, List.map_singleton, mergerAfter_concat,
      add_reread contributes schemas (by rwa [remerged]), remerged]

theorem mapM_ofJson_kept (buckets : Buckets) :
    buckets.mapM (fun entry => Document.ofJson entry.2.toJson) =
      .ok (buckets.map fun entry => entry.2.reread) := by
  simp only [Document.ofJson_kept]
  exact List.mapM_pure

theorem ofDocuments?_eq_some_iff (strategy : Strategy) (documents : List Document)
    (buckets : Buckets) : Buckets.ofDocuments? strategy documents = some buckets ↔
      (mergerAfter strategy documents).buckets = buckets ∧ buckets ≠ [] := by
  change (mergerAfter strategy documents).finish? = some buckets ↔ _
  unfold Merger.finish?
  cases (mergerAfter strategy documents).buckets <;> grind

/-- Where merging succeeds, the documents kept for its buckets are all accepted when they are read
again, in the order of the buckets, and merging them by the same strategy succeeds with the very
same buckets. -/
theorem remerged_kept (strategy : Strategy) (documents : List Document) (buckets : Buckets)
    (merged : Buckets.ofDocuments? strategy documents = some buckets) :
    ∃ reread : List Document,
      buckets.mapM (fun entry => Document.ofJson entry.2.toJson) = .ok reread ∧
      Buckets.ofDocuments? strategy reread = some buckets := by
  obtain ⟨after, nonempty⟩ := (ofDocuments?_eq_some_iff ..).mp merged
  have settled : Buckets.Settled strategy buckets := after ▸ settled_mergerAfter strategy documents
  refine ⟨_, mapM_ofJson_kept buckets, ?_⟩
  apply (ofDocuments?_eq_some_iff ..).mpr
  exact ⟨mergerAfter_reread settled, nonempty⟩

namespace TwoTitles

/-- Two documents of one title around one of the other. The last of them defines a name again. -/
def documents : List Document := [
  ⟨⟨⟨"3.0.0", "Kubernetes CRD Swagger", "v1"⟩, none⟩, [("Widget", .null)]⟩,
  ⟨⟨⟨"3.0.0", "Kubernetes", "v1.30.0"⟩, some "Pods"⟩, [("Pod", .object [])]⟩,
  ⟨⟨⟨"3.1.0", "Kubernetes CRD Swagger", "v2"⟩, none⟩, [("Gadget", .null), ("Widget", .bool true)]⟩]

def buckets : Buckets := [
  ("crd", ⟨⟨"3.0.0", "Kubernetes CRD Swagger", "v1"⟩,
    [("Widget", .bool true), ("Gadget", .null)]⟩),
  ("k8s", ⟨⟨"3.0.0", "Kubernetes", "v1.30.0"⟩, [("Pod", .object [])]⟩)]

theorem remerged_two_titles :
    Buckets.ofDocuments? .byTitle documents = some buckets ∧
    ∃ reread : List Document,
      buckets.mapM (fun entry => Document.ofJson entry.2.toJson) = .ok reread ∧
      Buckets.ofDocuments? .byTitle reread = some buckets :=
  ⟨rfl, remerged_kept .byTitle documents buckets rfl⟩

end TwoTitles

end Merging

end ResourceModels
