import Mathlib
import ResourceModels.Extraction
import ResourceModels.Proofs.Merging
import ResourceModels.Proofs.Steps

/-!
# Extraction in one pass

Documents are fetched one at a time, classified by their headers alone, and parsed and merged at
once, up to the first failure. Parsing all supported documents first and merging them afterwards
gives the same buckets, because a document is read with the header that classified it. What a
source is asked is written down by `Source.recorded`, which changes none of its answers; `Account`
lists the ways in which a run can go, each with all questions in their order.
-/

namespace ResourceModels

namespace Document

/-- A document is its header and then its components, which nobody has looked at before. -/
theorem ofJson_eq (value : Json) : ofJson value =
    match Header.ofJson value with
    | .error error => .error error
    | .ok header =>
      match value.member? "components" with
      | none => .ok ⟨header, []⟩
      | some components =>
        match decodeComponents components with
        | .error error => .error (.json error)
        | .ok schemas => .ok ⟨header, schemas⟩ := by
  unfold ofJson Header.ofJson
  cases checkRequired value with
  | error error => rfl
  | ok checked =>
    cases decodeHeader value with
    | error error => rfl
    | ok header =>
      cases value.member? "components" with
      | none => rfl
      | some components =>
        cases found : decodeComponents components <;>
          simp [bind, Except.bind, Except.mapError, found]

theorem ofJson_of_header_error {value : Json} {error : DocumentError}
    (bad : Header.ofJson value = .error error) : ofJson value = .error error := by
  rw [ofJson_eq, bad]

/-- Past a good header only the components can be at fault. -/
theorem ofJson_of_header {value : Json} {header : Header}
    (good : Header.ofJson value = .ok header) :
    (∃ schemas, ofJson value = .ok ⟨header, schemas⟩) ∨
      ∃ components error, value.member? "components" = some components ∧
        decodeComponents components = .error error ∧ ofJson value = .error (.json error) := by
  rw [ofJson_eq, good]
  cases value.member? "components" with
  | none => exact .inl ⟨[], rfl⟩
  | some components =>
    cases found : decodeComponents components with
    | error error => exact .inr ⟨components, error, rfl, found, by simp [found]⟩
    | ok schemas => exact .inl ⟨schemas, by simp [found]⟩

theorem header_of_ofJson {value : Json} {document : Document}
    (success : ofJson value = .ok document) : Header.ofJson value = .ok document.header := by
  cases found : Header.ofJson value with
  | error error =>
    rw [ofJson_of_header_error found] at success
    cases success
  | ok header =>
    obtain ⟨schemas, same⟩ | ⟨_, _, -, -, bad⟩ := ofJson_of_header found
    · rw [same] at success
      cases success
      rfl
    · rw [bad] at success
      cases success

/-- A field is missing from the document exactly when it is missing from the header. -/
theorem missingField_iff (value : Json) (field : String) :
    ofJson value = .error (.missingField field) ↔
      Header.ofJson value = .error (.missingField field) := by
  refine ⟨fun missing => ?_, ofJson_of_header_error⟩
  cases found : Header.ofJson value with
  | error error =>
    rw [ofJson_of_header_error found] at missing
    cases missing
    rfl
  | ok header =>
    obtain ⟨schemas, same⟩ | ⟨_, _, -, -, bad⟩ := ofJson_of_header found
    · rw [same] at missing
      cases missing
    · rw [bad] at missing
      cases missing

end Document

/-- The header is a good one and has a bucket. -/
def Strategy.supports (strategy : Strategy) (value : Json) : Bool :=
  match Header.ofJson value with
  | .ok header => (strategy.bucket? header.metadata).isSome
  | .error _ => false

/-- The answer to a request for a document ends the run. -/
inductive Strategy.Fails (strategy : Strategy) :
    DocumentRef → Except FetchError Json → ExtractionError → Prop
  | fetch (ref : DocumentRef) (error : FetchError) :
      Fails strategy ref (.error error) (.fetch error)
  | header (ref : DocumentRef) (value : Json) (error : DocumentError)
      (bad : Header.ofJson value = .error error) :
      Fails strategy ref (.ok value) (.malformed ref.name error)
  | document (ref : DocumentRef) (value : Json) (error : DocumentError)
      (supported : strategy.supports value = true) (bad : Document.ofJson value = .error error) :
      Fails strategy ref (.ok value) (.malformed ref.name error)

namespace Strategy

variable {strategy : Strategy} {ref : DocumentRef} {value : Json} {header : Header}

theorem supports_eq (good : Header.ofJson value = .ok header) :
    strategy.supports value = (strategy.bucket? header.metadata).isSome := by
  unfold supports
  rw [good]

/-- A good header without a bucket is passed over, whatever comes after it. -/
theorem passed_over (good : Header.ofJson value = .ok header)
    (no_bucket : strategy.bucket? header.metadata = none) :
    strategy.supports value = false ∧ ∀ error, ¬ strategy.Fails ref (.ok value) error := by
  have unsupported : strategy.supports value = false := by
    rw [supports_eq good, no_bucket]
    rfl
  refine ⟨unsupported, fun error fails => ?_⟩
  cases fails with
  | header _ error bad =>
    rw [good] at bad
    cases bad
  | document _ error supported bad =>
    rw [unsupported] at supported
    cases supported

theorem not_fails_of_parsed {document : Document} (parsed : Document.ofJson value = .ok document)
    (error : ExtractionError) : ¬ strategy.Fails ref (.ok value) error := by
  intro fails
  cases fails with
  | header _ error bad =>
    rw [Document.header_of_ofJson parsed] at bad
    cases bad
  | document _ error supported bad =>
    rw [parsed] at bad
    cases bad

end Strategy

/-- Accepting a document fails, passes the document over or adds all of it. -/
theorem Merger.accept_cases (merger : Merger) (ref : DocumentRef) (value : Json) :
    (∃ error, merger.accept ref.name value = .error error ∧
      merger.strategy.Fails ref (.ok value) error) ∨
    (merger.accept ref.name value = .ok merger ∧ merger.strategy.supports value = false ∧
      ∀ error, ¬ merger.strategy.Fails ref (.ok value) error) ∨
    ∃ document, merger.accept ref.name value = .ok (merger.add document) ∧
      merger.strategy.supports value = true ∧ Document.ofJson value = .ok document := by
  cases good : Header.ofJson value with
  | error error =>
    refine .inl ⟨.malformed ref.name error, ?_, .header ref value error good⟩
    simp [accept, bind, Except.bind, Except.mapError, good]
  | ok header =>
    have supports_iff : merger.strategy.supports value = _ := Strategy.supports_eq good
    cases bucket : merger.strategy.bucket? header.metadata with
    | none =>
      refine .inr (.inl ⟨?_, Strategy.passed_over good bucket⟩)
      simp [accept, bind, Except.bind, Except.mapError, good, bucket]
    | some name =>
      rw [bucket, Option.isSome_some] at supports_iff
      cases parsed : Document.ofJson value with
      | error error =>
        refine .inl ⟨.malformed ref.name error, ?_, .document ref value error supports_iff parsed⟩
        simp [accept, bind, Except.bind, Except.mapError, good, bucket, parsed]
      | ok document =>
        refine .inr (.inr ⟨document, ?_, supports_iff, rfl⟩)
        simp [accept, bind, Except.bind, Except.mapError, good, bucket, parsed]

/-- A question that a source was asked, with its answer. -/
inductive Exchange where
  | release (answer : Except FetchError String)
  | listing (answer : Except FetchError (List DocumentRef))
  | fetch (ref : DocumentRef) (answer : Except FetchError Json)

section

variable {σ : Type}

/-- Ask, and write the answer down. -/
def noted {α : Type} (ask : StateM σ α) (exchange : α → Exchange) :
    StateM (σ × List Exchange) α :=
  fun (world, asked) =>
    ((ask.run world).1, (ask.run world).2, asked ++ [exchange (ask.run world).1])

/-- The same source, with a record of all it is asked. -/
def Source.recorded (source : Source (StateM σ)) : Source (StateM (σ × List Exchange)) where
  release := noted source.release .release
  listing := noted source.listing .listing
  fetch ref := noted (source.fetch ref) (.fetch ref)

def Extractor.recorded (extractor : Extractor (StateM σ)) :
    Extractor (StateM (σ × List Exchange)) :=
  ⟨extractor.source.recorded, extractor.strategy⟩

/-- The documents that a listing asks for. -/
def wanted (refs : List DocumentRef) : List DocumentRef := refs.filter (!·.isSkipped)

/-- Documents that have been fetched, as questions and answers. -/
def fetches (fetched : List (DocumentRef × Json)) : List Exchange :=
  fetched.map fun document => .fetch document.1 (.ok document.2)

/-- The wanted documents have been fetched in their order up to one that ends the run. -/
def Strategy.Stopped (strategy : Strategy) (refs : List DocumentRef) (asked : List Exchange)
    (error : ExtractionError) : Prop :=
  ∃ (before : List (DocumentRef × Json)) (ref : DocumentRef) (answer : Except FetchError Json),
    asked = fetches before ++ [.fetch ref answer] ∧
      before.map Prod.fst ++ [ref] <+: wanted refs ∧
      (∀ document ∈ before, ∀ error, ¬ strategy.Fails document.1 (.ok document.2) error) ∧
      strategy.Fails ref answer error

/-- All wanted documents have been fetched in their order, each once; `documents` are the supported
ones, parsed. -/
def Strategy.Finished (strategy : Strategy) (refs : List DocumentRef) (asked : List Exchange)
    (documents : List Document) : Prop :=
  ∃ fetched : List (DocumentRef × Json),
    asked = fetches fetched ∧ fetched.map Prod.fst = wanted refs ∧
      (∀ document ∈ fetched, ∀ error, ¬ strategy.Fails document.1 (.ok document.2) error) ∧
      ((fetched.map Prod.snd).filter strategy.supports).mapM Document.ofJson = .ok documents

namespace Strategy

variable {strategy : Strategy} {ref : DocumentRef} {refs : List DocumentRef}
  {asked : List Exchange} {error : ExtractionError} {documents : List Document}

theorem wanted_skipped (skipped : ref.isSkipped = true) (refs : List DocumentRef) :
    wanted (ref :: refs) = wanted refs := by
  simp [wanted, skipped]

theorem wanted_kept (kept : ref.isSkipped = false) (refs : List DocumentRef) :
    wanted (ref :: refs) = ref :: wanted refs := by
  simp [wanted, kept]

theorem Stopped.here (kept : ref.isSkipped = false) (refs : List DocumentRef)
    {answer : Except FetchError Json} (fails : strategy.Fails ref answer error) :
    strategy.Stopped (ref :: refs) [.fetch ref answer] error := by
  refine ⟨[], ref, answer, rfl, ?_, by simp, fails⟩
  rw [wanted_kept kept]
  exact ⟨wanted refs, rfl⟩

theorem Stopped.later (kept : ref.isSkipped = false) {value : Json}
    (passes : ∀ error, ¬ strategy.Fails ref (.ok value) error)
    (stopped : strategy.Stopped refs asked error) :
    strategy.Stopped (ref :: refs) (.fetch ref (.ok value) :: asked) error := by
  obtain ⟨before, last, answer, rfl, sofar, harmless, fails⟩ := stopped
  refine ⟨(ref, value) :: before, last, answer, rfl, ?_, ?_, fails⟩
  · rw [wanted_kept kept, List.map_cons, List.cons_append, List.prefix_cons_inj]
    exact sofar
  · exact List.forall_mem_cons.mpr ⟨passes, harmless⟩

theorem Finished.unsupported (kept : ref.isSkipped = false) {value : Json}
    (passes : ∀ error, ¬ strategy.Fails ref (.ok value) error)
    (unsupported : strategy.supports value = false)
    (finished : strategy.Finished refs asked documents) :
    strategy.Finished (ref :: refs) (.fetch ref (.ok value) :: asked) documents := by
  obtain ⟨fetched, rfl, all, harmless, parsed⟩ := finished
  refine ⟨(ref, value) :: fetched, rfl, ?_, List.forall_mem_cons.mpr ⟨passes, harmless⟩, ?_⟩
  · rw [wanted_kept kept, ← all, List.map_cons]
  · rw [List.map_cons, List.filter_cons_of_neg (by simp [unsupported])]
    exact parsed

theorem Finished.supported (kept : ref.isSkipped = false) {value : Json} {document : Document}
    (passes : ∀ error, ¬ strategy.Fails ref (.ok value) error)
    (supported : strategy.supports value = true) (read : Document.ofJson value = .ok document)
    (finished : strategy.Finished refs asked documents) :
    strategy.Finished (ref :: refs) (.fetch ref (.ok value) :: asked) (document :: documents) := by
  obtain ⟨fetched, rfl, all, harmless, parsed⟩ := finished
  refine ⟨(ref, value) :: fetched, rfl, ?_, List.forall_mem_cons.mpr ⟨passes, harmless⟩, ?_⟩
  · rw [wanted_kept kept, ← all, List.map_cons]
  · rw [List.map_cons, List.filter_cons_of_pos supported, List.mapM_cons, read, parsed]
    rfl

/-- A document that is skipped is as good as not listed. -/
theorem stopped_skipped (skipped : ref.isSkipped = true) :
    strategy.Stopped (ref :: refs) = strategy.Stopped refs := by
  funext asked error
  unfold Stopped
  rw [wanted_skipped skipped]

theorem finished_skipped (skipped : ref.isSkipped = true) :
    strategy.Finished (ref :: refs) = strategy.Finished refs := by
  funext asked documents
  unfold Finished
  rw [wanted_skipped skipped]

end Strategy

/-- Writing an answer down changes nothing else. -/
theorem noted_run {α : Type} (ask : StateM σ α) (exchange : α → Exchange) {world later : σ}
    {answer : α} (answered : ask.run world = (answer, later)) (asked : List Exchange) :
    (noted ask exchange).run (world, asked) = (answer, later, asked ++ [exchange answer]) := by
  have first : (ask.run world).1 = answer := by rw [answered]
  have second : (ask.run world).2 = later := by rw [answered]
  rw [← first, ← second]
  rfl

namespace Extractor

variable {source : Source (StateM σ)} {merger : Merger} {ref : DocumentRef}

theorem gather_skipped (skipped : ref.isSkipped = true) (rest : List DocumentRef) :
    gather source merger (ref :: rest) = gather source merger rest := by
  rw [gather, if_pos skipped]

theorem gather_refused (kept : ref.isSkipped = false) (rest : List DocumentRef) {world later : σ}
    {error : FetchError} (fetched : (source.fetch ref).run world = (.error error, later)) :
    (gather source merger (ref :: rest)).run world = (.error (.fetch error), later) := by
  rw [gather, kept, if_neg Bool.false_ne_true, run_bind_of fetched]
  rfl

theorem gather_fetched (kept : ref.isSkipped = false) (rest : List DocumentRef) {world later : σ}
    {value : Json} (fetched : (source.fetch ref).run world = (.ok value, later)) :
    (gather source merger (ref :: rest)).run world =
      match merger.accept ref.name value with
      | .error error => (.error error, later)
      | .ok accepted => (gather source accepted rest).run later := by
  rw [gather, kept, if_neg Bool.false_ne_true, run_bind_of fetched]
  dsimp only
  cases merger.accept ref.name value <;> rfl

/-- The documents of a listing are fetched up to the first failure, and what is merged on the way is
what merging the supported ones afterwards gives. -/
theorem gather_recorded (refs : List DocumentRef) (merger : Merger) (world : σ)
    (asked : List Exchange) :
    ∃ outcome later more,
      (gather source.recorded merger refs).run (world, asked) = (outcome, later, asked ++ more) ∧
      (gather source merger refs).run world = (outcome, later) ∧
      ((∃ error, outcome = .error error ∧ merger.strategy.Stopped refs more error) ∨
        ∃ documents, outcome = .ok (documents.foldl Merger.add merger) ∧
          merger.strategy.Finished refs more documents) := by
  induction refs generalizing merger world asked with
  | nil =>
    have all_done : merger.strategy.Finished [] [] [] := ⟨[], rfl, rfl, by simp, rfl⟩
    exact ⟨.ok merger, world, [], by rw [List.append_nil]; rfl, rfl, .inr ⟨[], rfl, all_done⟩⟩
  | cons ref rest ih =>
    cases kept : ref.isSkipped with
    | true =>
      rw [gather_skipped kept, gather_skipped kept, Strategy.stopped_skipped kept,
        Strategy.finished_skipped kept]
      exact ih merger world asked
    | false =>
      obtain ⟨answer, between, fetched⟩ : ∃ answer between,
        (source.fetch ref).run world = (answer, between) := ⟨_, _, rfl⟩
      have recorded : (source.recorded.fetch ref).run (world, asked) =
          (answer, between, asked ++ [.fetch ref answer]) :=
        noted_run (source.fetch ref) (.fetch ref) fetched asked
      cases answer with
      | error error =>
        have fails : merger.strategy.Fails ref (.error error) (.fetch error) := .fetch ref error
        have stopped := Strategy.Stopped.here kept rest fails
        exact ⟨_, between, [.fetch ref (.error error)], gather_refused kept rest recorded,
          gather_refused kept rest fetched, .inl ⟨_, rfl, stopped⟩⟩
      | ok value =>
        rw [gather_fetched kept rest recorded, gather_fetched kept rest fetched]
        obtain ⟨error, refused, fails⟩ | ⟨accepted, unsupported, passes⟩ |
          ⟨document, accepted, supported, parsed⟩ := merger.accept_cases ref value
        · rw [refused]
          exact ⟨_, between, [.fetch ref (.ok value)], rfl, rfl,
            .inl ⟨error, rfl, .here kept rest fails⟩⟩
        · rw [accepted]
          obtain ⟨outcome, later, more, ran, same, account⟩ :=
            ih merger between (asked ++ [.fetch ref (.ok value)])
          refine ⟨outcome, later, .fetch ref (.ok value) :: more, ?_, same, ?_⟩
          · rw [List.append_cons asked (.fetch ref (.ok value)) more]
            exact ran
          · obtain ⟨error, failed, stopped⟩ | ⟨documents, gathered, finished⟩ := account
            · exact .inl ⟨error, failed, stopped.later kept passes⟩
            · exact .inr ⟨documents, gathered, finished.unsupported kept passes unsupported⟩
        · rw [accepted]
          obtain ⟨outcome, later, more, ran, same, account⟩ :=
            ih (merger.add document) between (asked ++ [.fetch ref (.ok value)])
          rw [Merging.strategy_add] at account
          have passes : ∀ error, ¬ merger.strategy.Fails ref (.ok value) error :=
            Strategy.not_fails_of_parsed parsed
          refine ⟨outcome, later, .fetch ref (.ok value) :: more, ?_, same, ?_⟩
          · rw [List.append_cons asked (.fetch ref (.ok value)) more]
            exact ran
          · obtain ⟨error, failed, stopped⟩ | ⟨documents, gathered, finished⟩ := account
            · exact .inl ⟨error, failed, stopped.later kept passes⟩
            · exact .inr ⟨document :: documents, gathered,
                finished.supported kept passes supported parsed⟩

end Extractor

/-- How the strategy in use is found. -/
inductive Opened (given : Option Strategy) : List Exchange → Strategy → Prop
  | given (strategy : Strategy) (known : given = some strategy) : Opened given [] strategy
  | released (tag : String) (unknown : given = none) :
      Opened given [.release (.ok tag)] (.ofRelease tag)

/-- How a run can go: all that the source is asked, in order, and what comes of it. -/
inductive Account (given : Option Strategy) :
    List Exchange → Except ExtractionError Buckets → Prop
  | no_release (error : FetchError) (unknown : given = none) :
      Account given [.release (.error error)] (.error (.fetch error))
  | no_listing (opening : List Exchange) (strategy : Strategy) (error : FetchError)
      (opened : Opened given opening strategy) :
      Account given (opening ++ [.listing (.error error)]) (.error (.fetch error))
  | stopped (opening : List Exchange) (strategy : Strategy) (refs : List DocumentRef)
      (asked : List Exchange) (error : ExtractionError)
      (opened : Opened given opening strategy) (stopped : strategy.Stopped refs asked error) :
      Account given (opening ++ .listing (.ok refs) :: asked) (.error error)
  | merged (opening : List Exchange) (strategy : Strategy) (refs : List DocumentRef)
      (asked : List Exchange) (documents : List Document)
      (opened : Opened given opening strategy) (finished : strategy.Finished refs asked documents) :
      Account given (opening ++ .listing (.ok refs) :: asked)
        (match Buckets.ofDocuments? strategy documents with
          | some buckets => .ok buckets
          | none => .error .noSchemaFound)

namespace Extractor

/-- The strategy is known, or the release is asked for, and an answer names the bucket. -/
theorem resolved_recorded (extractor : Extractor (StateM σ)) (world : σ) :
    ∃ outcome later asked,
      extractor.recorded.resolved.run (world, []) = (outcome, later, asked) ∧
      extractor.resolved.run world = (outcome, later) ∧
      ((∃ error, outcome = .error error ∧ extractor.strategy = none ∧
          asked = [.release (.error error)]) ∨
        ∃ strategy, outcome = .ok strategy ∧ Opened extractor.strategy asked strategy) := by
  obtain ⟨source, given⟩ := extractor
  cases given with
  | some strategy => exact ⟨_, world, [], rfl, rfl, .inr ⟨strategy, rfl, .given strategy rfl⟩⟩
  | none =>
    obtain ⟨answer, later, released⟩ : ∃ answer later, source.release.run world = (answer, later) :=
      ⟨_, _, rfl⟩
    have recorded := noted_run source.release .release released []
    unfold resolved
    dsimp only [Extractor.recorded, Source.recorded]
    rw [run_bind_of released, run_bind_of recorded]
    cases answer with
    | error error => exact ⟨_, later, _, rfl, rfl, .inl ⟨error, rfl, rfl, rfl⟩⟩
    | ok tag => exact ⟨_, later, _, rfl, rfl, .inr ⟨_, rfl, .released tag rfl⟩⟩

/-- Every run goes as `Account` says. -/
theorem collect_recorded (extractor : Extractor (StateM σ)) (world : σ) :
    ∃ outcome later asked,
      extractor.recorded.collect.run (world, []) = (outcome, later, asked) ∧
      extractor.collect.run world = (outcome, later) ∧
      Account extractor.strategy asked outcome := by
  obtain ⟨resolution, between, opening, recorded, same, opened⟩ :=
    resolved_recorded extractor world
  unfold collect
  rw [run_bind_of recorded, run_bind_of same]
  obtain ⟨error, rfl, unknown, rfl⟩ | ⟨strategy, rfl, opened⟩ := opened
  · exact ⟨_, between, _, rfl, rfl, .no_release error unknown⟩
  obtain ⟨listing, listed, answered⟩ : ∃ listing listed,
    extractor.source.listing.run between = (listing, listed) := ⟨_, _, rfl⟩
  have listing_recorded : extractor.recorded.source.listing.run (between, opening) = _ :=
    noted_run extractor.source.listing .listing answered opening
  dsimp only
  rw [run_bind_of answered, run_bind_of listing_recorded]
  cases listing with
  | error error => exact ⟨_, listed, _, rfl, rfl, .no_listing opening strategy error opened⟩
  | ok refs =>
    obtain ⟨outcome, later, asked, gathering, gathered, account⟩ :=
      @gather_recorded _ extractor.source refs ⟨strategy, []⟩ listed
        (opening ++ [.listing (.ok refs)])
    have gathering_recorded : (gather extractor.recorded.source ⟨strategy, []⟩ refs).run
      (listed, opening ++ [.listing (.ok refs)]) = _ := gathering
    dsimp only
    rw [run_bind_of gathered, run_bind_of gathering_recorded,
      ← List.append_cons opening (.listing (.ok refs)) asked]
    obtain ⟨error, rfl, stopped⟩ | ⟨documents, rfl, finished⟩ := account
    · exact ⟨_, later, _, rfl, rfl, .stopped opening strategy refs asked error opened stopped⟩
    · refine ⟨_, later, _, ?_, ?_, .merged opening strategy refs asked documents opened finished⟩
      all_goals
        dsimp only [Buckets.ofDocuments?]
        cases (documents.foldl Merger.add ⟨strategy, []⟩).finish? <;> rfl

end Extractor

/-- Keeping buckets fails at a file, and at nothing else. -/
theorem Buckets.persist_error {directory : Path} {buckets : Buckets} {fs after : FileSystem}
    {error : ExtractionError} (failed : buckets.persist directory fs = (.error error, after)) :
    ∃ path, error = .io path := by
  induction buckets generalizing fs with
  | nil => cases failed
  | cons entry rest ih =>
    obtain ⟨bucket, merged⟩ := entry
    rw [persist] at failed
    split at failed
    next refused next saved =>
      cases failed
      exact ⟨refused, rfl⟩
    next next saved =>
      split at failed
      next others =>
        cases failed
        exact ih others
      next => cases failed

namespace Extractor

variable {extractor : Extractor (StateM σ)}

/-- Buckets are kept; without them there is nothing to write. -/
def kept (directory : Path) (fs : FileSystem) :
    Except ExtractionError Buckets → Except ExtractionError (List Path) × FileSystem
  | .error error => (.error error, fs)
  | .ok buckets => buckets.persist directory fs

theorem extract_run (extractor : Extractor (StateM σ)) {world later : σ}
    {outcome : Except ExtractionError Buckets}
    (collected : extractor.collect.run world = (outcome, later)) {directory : Path}
    {fs : FileSystem} (missing : fs.isDirectory directory = false) :
    (extractor.extract directory fs).run world = (kept directory fs outcome, later) := by
  unfold extract
  rw [missing, if_neg Bool.false_ne_true, run_bind_of collected]
  cases outcome <;> rfl

/-- What an extraction does. A directory that is there is the answer; without it nothing happens
unless buckets are collected, and those are kept. -/
theorem extract_cases {world later : σ} {directory : Path} {fs after : FileSystem}
    {outcome : Except ExtractionError (List Path)}
    (ran : (extractor.extract directory fs).run world = ((outcome, after), later)) :
    (fs.isDirectory directory = true ∧ outcome = .ok (fs.keptDocuments directory) ∧ after = fs) ∨
    (fs.isDirectory directory = false ∧ after = fs ∧ ∃ error,
      extractor.collect.run world = (.error error, later) ∧ outcome = .error error) ∨
    (fs.isDirectory directory = false ∧ ∃ buckets,
      extractor.collect.run world = (.ok buckets, later) ∧
        buckets.persist directory fs = (outcome, after)) := by
  cases missing : fs.isDirectory directory with
  | true =>
    unfold extract at ran
    rw [if_pos missing] at ran
    cases ran
    exact .inl ⟨rfl, rfl, rfl⟩
  | false =>
    obtain ⟨collected, done, collecting⟩ : ∃ collected done,
      extractor.collect.run world = (collected, done) := ⟨_, _, rfl⟩
    rw [extract_run extractor collecting missing] at ran
    obtain ⟨keeping, rfl⟩ := Prod.mk.inj ran
    cases collected with
    | error error =>
      cases keeping
      exact .inr (.inl ⟨rfl, rfl, error, collecting, rfl⟩)
    | ok buckets => exact .inr (.inr ⟨rfl, buckets, collecting, keeping⟩)

/-- Only the file system itself can make an extraction fail that has written something. -/
theorem extract_failed {world later : σ} {directory : Path} {fs after : FileSystem}
    {error : ExtractionError}
    (failed : (extractor.extract directory fs).run world = ((.error error, after), later))
    (other : ∀ path, error ≠ .io path) : after = fs := by
  obtain ⟨-, -, same⟩ | ⟨-, same, -⟩ | ⟨-, buckets, -, persisted⟩ := extract_cases failed
  · exact same
  · exact same
  · obtain ⟨path, rfl⟩ := Buckets.persist_error persisted
    exact absurd rfl (other path)

/-- Extraction in one pass. Whatever a source answers, a run goes as `Account` says, and its buckets
are those of merging all supported documents afterwards; nothing is written unless the run comes to
buckets. A good header without a bucket is enough to pass a document over, and reading a whole
document agrees with reading its header except for the components. -/
theorem streaming_extraction (extractor : Extractor (StateM σ)) (world : σ) :
    (∃ outcome later asked,
      extractor.recorded.collect.run (world, []) = (outcome, later, asked) ∧
      extractor.collect.run world = (outcome, later) ∧
      Account extractor.strategy asked outcome ∧
      ∀ directory fs, fs.isDirectory directory = false →
        (extractor.extract directory fs).run world = (kept directory fs outcome, later)) ∧
    (∀ directory fs error after later,
      (extractor.extract directory fs).run world = ((.error error, after), later) →
      (∀ path, error ≠ .io path) → after = fs) ∧
    (∀ (merger : Merger) (name : String) (value : Json) (header : Header),
      Header.ofJson value = .ok header → merger.strategy.bucket? header.metadata = none →
      merger.accept name value = .ok merger ∧ merger.strategy.supports value = false) ∧
    ∀ value,
      (∀ document, Document.ofJson value = .ok document →
        Header.ofJson value = .ok document.header) ∧
      (∀ field, Document.ofJson value = .error (.missingField field) ↔
        Header.ofJson value = .error (.missingField field)) ∧
      (∀ error, Header.ofJson value = .error error → Document.ofJson value = .error error) ∧
      ∀ header, Header.ofJson value = .ok header →
        (∃ schemas, Document.ofJson value = .ok ⟨header, schemas⟩) ∨
        ∃ components error, value.member? "components" = some components ∧
          Document.decodeComponents components = .error error ∧
          Document.ofJson value = .error (.json error) := by
  refine ⟨?_, fun _ _ _ _ _ => extract_failed, fun merger name value header good no_bucket => ?_,
    fun value => ⟨fun _ => Document.header_of_ofJson, Document.missingField_iff value,
      fun _ => Document.ofJson_of_header_error, fun _ => Document.ofJson_of_header⟩⟩
  · obtain ⟨outcome, later, asked, recorded, collected, account⟩ := collect_recorded extractor world
    exact ⟨outcome, later, asked, recorded, collected, account,
      fun _ _ missing => extract_run extractor collected missing⟩
  · obtain ⟨unsupported, -⟩ := @Strategy.passed_over _ ⟨name, "", ""⟩ _ _ good no_bucket
    exact ⟨by simp [Merger.accept, bind, Except.bind, Except.mapError, good, no_bucket],
      unsupported⟩

end Extractor

end

end ResourceModels
