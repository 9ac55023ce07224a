import Mathlib
import ResourceModels.Derivation.Files
import ResourceModels.Proofs.Modules
import ResourceModels.Proofs.Steps

/-!
# The model set does not depend on the order of the files

Each file contributes modules of its own bucket, the first segment of their namespaces, so files
with different stems share no namespace. Then putting modules together does nothing, and sorting
them by namespace forgets the order in which the files came (`ofFiles_perm`). What comes out is
sorted strictly, and each module belongs to just one file (`ofFiles_any_order`).
-/

namespace ResourceModels

namespace ModulePath

theorem le_total (first second : ModulePath) : (le first second || le second first) = true := by
  induction first generalizing second with
  | nil => rfl
  | cons a as ih =>
    cases second with
    | nil => rfl
    | cons b bs =>
      rw [le, le]
      by_cases same : a = b
      · rw [if_pos same, if_pos same.symm]
        exact ih bs
      · rw [if_neg same, if_neg (Ne.symm same)]
        rcases lt_or_gt_of_ne same with less | greater
        · simp [less]
        · simp [greater]

theorem le_trans {first second third : ModulePath} (before : le first second = true)
    (after : le second third = true) : le first third = true := by
  induction first generalizing second third with
  | nil => rfl
  | cons a as ih =>
    cases second with
    | nil => cases before
    | cons b bs =>
      cases third with
      | nil => cases after
      | cons c cs =>
        rw [le] at before after ⊢
        by_cases ab : a = b
        · subst ab
          rw [if_pos rfl] at before
          by_cases ac : a = c
          · rw [if_pos ac] at after ⊢
            exact ih before after
          · rw [if_neg ac] at after ⊢
            exact after
        · rw [if_neg ab, decide_eq_true_eq] at before
          by_cases bc : b = c
          · subst bc
            rw [if_neg ab, decide_eq_true_eq]
            exact before
          · rw [if_neg bc, decide_eq_true_eq] at after
            have less := before.trans after
            rw [if_neg less.ne, decide_eq_true_eq]
            exact less

theorem le_antisymm {first second : ModulePath} (before : le first second = true)
    (after : le second first = true) : first = second := by
  induction first generalizing second with
  | nil =>
    cases second with
    | nil => rfl
    | cons => cases after
  | cons a as ih =>
    cases second with
    | nil => cases before
    | cons b bs =>
      rw [le] at before after
      by_cases same : a = b
      · rw [if_pos same] at before
        rw [if_pos same.symm] at after
        rw [same, ih before after]
      · rw [if_neg same, decide_eq_true_eq] at before
        rw [if_neg (Ne.symm same), decide_eq_true_eq] at after
        exact absurd after (lt_asymm before)

theorem sorted_mergeSort {α : Type} (path : α → ModulePath) (values : List α) :
    (values.mergeSort fun a b => le (path a) (path b)).Pairwise
      fun a b => le (path a) (path b) = true := by
  apply List.pairwise_mergeSort
  · exact fun _ _ _ before after => le_trans before after
  · exact fun a b => le_total (path a) (path b)

end ModulePath

/-- Sorting by distinct namespaces forgets the order before. -/
theorem mergeSort_eq_of_perm {α : Type} {path : α → ModulePath} {first second : List α}
    (perm : first.Perm second) (distinct : (first.map path).Nodup) :
    (first.mergeSort fun a b => ModulePath.le (path a) (path b)) =
      second.mergeSort fun a b => ModulePath.le (path a) (path b) := by
  refine List.Perm.eq_of_pairwise ?_ (ModulePath.sorted_mergeSort path first)
    (ModulePath.sorted_mergeSort path second)
    ((List.mergeSort_perm first _).trans (perm.trans (List.mergeSort_perm second _).symm))
  intro a b a_listed b_listed before after
  have a_inside := List.mem_mergeSort.mp a_listed
  have b_inside := perm.symm.subset (List.mem_mergeSort.mp b_listed)
  exact List.inj_on_of_nodup_map distinct a_inside b_inside (ModulePath.le_antisymm before after)

namespace Derivation

/-- Each module with its namespace. -/
def byPath (modules : List Module) : List (ModulePath × List Model) :=
  modules.map fun home => (home.path, home.models)

theorem unite_eq (modules : List Module) :
    unite modules = (Entries.gathered (byPath modules)).map fun entry => ⟨entry.1, entry.2⟩ := by
  rw [byPath, Entries.gathered, List.foldl_map]
  rfl

/-- A united module has the models of all modules of its namespace. -/
theorem mem_models_of_mem_unite {modules : List Module} {home : Module}
    (present : home ∈ unite modules) {model : Model} :
    model ∈ home.models ↔ ∃ part ∈ modules, part.path = home.path ∧ model ∈ part.models := by
  rw [unite_eq] at present
  obtain ⟨⟨path, models⟩, gathered, rfl⟩ := List.mem_map.mp present
  rw [Entries.eq_listedAt_of_mem_gathered gathered, Entries.mem_listedAt]
  simp only [byPath, List.mem_map, Prod.mk.injEq]
  constructor
  · rintro ⟨_, ⟨part, listed, rfl, rfl⟩, inside⟩
    exact ⟨part, listed, rfl, inside⟩
  · rintro ⟨part, listed, same_path, inside⟩
    exact ⟨part.models, ⟨part, listed, same_path, rfl⟩, inside⟩

/-- Modules of different namespaces are left as they are. -/
theorem unite_eq_self {modules : List Module} (distinct : (modules.map Module.path).Nodup) :
    unite modules = modules := by
  have distinct_keys : (Entries.keys (byPath modules)).Nodup := by
    rw [byPath, Entries.keys, List.map_map]
    exact distinct
  rw [unite_eq, Entries.gathered_eq_self distinct_keys, byPath, List.map_map]
  exact List.map_id modules

/-- The modules of a document have different namespaces, all in its bucket. -/
theorem ofSchemas_paths {bucket : String} {conventions : Conventions} {collapse : Bool}
    {schemas : Entries String Json} {modules : List Module}
    (success : ofSchemas bucket conventions collapse schemas = .ok modules) :
    (modules.map Module.path).Nodup ∧ ∀ home ∈ modules, home.path.head? = some bucket := by
  obtain ⟨decoded, declared, -, related, rfl⟩ := ofSchemas_eq_ok success
  have same_paths : ((Module.group declared).map Module.promoteInline).map Module.path =
      (declared.map Prod.fst).eraseDups := by
    rw [List.map_map, ← Module.group_paths]
    rfl
  constructor
  · rw [same_paths]
    exact nodup_eraseDups _
  · intro home present
    have listed : home.path ∈ declared.map Prod.fst := by
      rw [← List.mem_eraseDups, ← same_paths]
      exact List.mem_map_of_mem present
    obtain ⟨entry, among, same⟩ := List.mem_map.mp listed
    obtain ⟨name, -, declares⟩ := exists_left_of_forall₂ related among
    rw [← same, declares.1]
    rfl

variable {conventions : Conventions} {collapse : Bool} {fs : FileSystem}

theorem ofFile_paths {path : Path} {modules : List Module}
    (success : ofFile conventions collapse fs path = .ok modules) :
    (modules.map Module.path).Nodup ∧
      ∀ home ∈ modules, home.path.head? = some (path.stem?.getD "") := by
  obtain ⟨document, -, derived⟩ := bind_eq_ok success
  exact ofSchemas_paths (mapError_eq_ok derived)

theorem modulesOf_cons_eq_ok {path : Path} {rest : List Path} {modules : List Module} :
    modulesOf conventions collapse fs (path :: rest) = .ok modules ↔
      ∃ first others, ofFile conventions collapse fs path = .ok first ∧
        modulesOf conventions collapse fs rest = .ok others ∧ modules = first ++ others := by
  rw [modulesOf]
  cases ofFile conventions collapse fs path with
  | error error => simp
  | ok first =>
    cases modulesOf conventions collapse fs rest with
    | error error =>
      constructor
      · intro success
        cases success
      · rintro ⟨_, _, -, absurd_rest, -⟩
        cases absurd_rest
    | ok others =>
      constructor
      · intro success
        cases success
        exact ⟨first, others, rfl, rfl, rfl⟩
      · rintro ⟨_, _, same, same_rest, rfl⟩
        cases same
        cases same_rest
        rfl

/-- Files that come in another order give the same modules in another order. -/
theorem modulesOf_perm {paths others : List Path} (perm : paths.Perm others) {modules : List Module}
    (success : modulesOf conventions collapse fs paths = .ok modules) :
    ∃ permuted, modulesOf conventions collapse fs others = .ok permuted ∧
      modules.Perm permuted := by
  induction perm generalizing modules with
  | nil => exact ⟨modules, success, .refl _⟩
  | cons path _ ih =>
    obtain ⟨first, rest, here, below, rfl⟩ := modulesOf_cons_eq_ok.mp success
    obtain ⟨permuted, found, same⟩ := ih below
    exact ⟨first ++ permuted, modulesOf_cons_eq_ok.mpr ⟨first, permuted, here, found, rfl⟩,
      same.append_left first⟩
  | swap path other rest =>
    obtain ⟨first, more, here, below, rfl⟩ := modulesOf_cons_eq_ok.mp success
    obtain ⟨second, last, next, last_found, rfl⟩ := modulesOf_cons_eq_ok.mp below
    have swapped := modulesOf_cons_eq_ok.mpr ⟨first, last, here, last_found, rfl⟩
    refine ⟨_, modulesOf_cons_eq_ok.mpr ⟨second, _, next, swapped, rfl⟩, ?_⟩
    rw [← List.append_assoc, ← List.append_assoc]
    exact List.perm_append_comm.append_right last
  | trans _ _ ih ih' =>
    obtain ⟨between, found, same⟩ := ih success
    obtain ⟨permuted, found', same'⟩ := ih' found
    exact ⟨permuted, found', same.trans same'⟩

/-- Files with different stems give modules of different namespaces. -/
theorem modulesOf_paths {paths : List Path}
    (distinct : (paths.map fun path => path.stem?.getD "").Nodup) {modules : List Module}
    (success : modulesOf conventions collapse fs paths = .ok modules) :
    (modules.map Module.path).Nodup ∧
      ∀ home ∈ modules, ∃ path ∈ paths, home.path.head? = some (path.stem?.getD "") := by
  induction paths generalizing modules with
  | nil =>
    cases success
    exact ⟨List.nodup_nil, fun _ absent => absurd absent List.not_mem_nil⟩
  | cons path rest ih =>
    obtain ⟨first, others, here, below, rfl⟩ := modulesOf_cons_eq_ok.mp success
    obtain ⟨new_stem, distinct⟩ := List.nodup_cons.mp distinct
    obtain ⟨first_distinct, first_heads⟩ := ofFile_paths here
    obtain ⟨others_distinct, others_heads⟩ := ih distinct below
    constructor
    · rw [List.map_append, List.nodup_append]
      refine ⟨first_distinct, others_distinct, ?_⟩
      intro home_path first_listed other_path other_listed same
      obtain ⟨home, inside, rfl⟩ := List.mem_map.mp first_listed
      obtain ⟨other, inside', rfl⟩ := List.mem_map.mp other_listed
      obtain ⟨owner, among, head⟩ := others_heads other inside'
      rw [← same, first_heads home inside] at head
      exact new_stem (List.mem_map.mpr ⟨owner, among, (Option.some.inj head).symm⟩)
    · intro home inside
      rcases List.mem_append.mp inside with inside | inside
      · exact ⟨path, List.mem_cons_self, first_heads home inside⟩
      · obtain ⟨owner, among, head⟩ := others_heads home inside
        exact ⟨owner, List.mem_cons_of_mem _ among, head⟩

/-- The model set of files with different stems depends neither on their order nor on anything in
the file system but their texts. -/
theorem ofFiles_perm {later : FileSystem} {paths others : List Path} (perm : paths.Perm others)
    (distinct : (paths.map fun path => path.stem?.getD "").Nodup)
    (same_texts : ∀ path ∈ paths, later.readText? path = fs.readText? path) {set : ModelSet}
    (success : ofFiles conventions collapse fs paths = .ok set) :
    ofFiles conventions collapse later others = .ok set := by
  have same_modules : ∀ some_paths : List Path, (∀ path ∈ some_paths, path ∈ paths) →
      modulesOf conventions collapse later some_paths =
        modulesOf conventions collapse fs some_paths := by
    intro some_paths among
    induction some_paths with
    | nil => rfl
    | cons path rest ih =>
      rw [modulesOf, modulesOf, ih fun other listed => among other (List.mem_cons_of_mem _ listed)]
      unfold ofFile load
      rw [same_texts path (among path List.mem_cons_self)]
  obtain ⟨modules, found, success⟩ := bind_eq_ok success
  obtain ⟨permuted, found', same⟩ := modulesOf_perm perm found
  have distinct_paths := (modulesOf_paths distinct found).1
  have distinct_permuted := ((same.map Module.path).nodup_iff).mp distinct_paths
  cases success
  unfold ofFiles
  rw [same_modules others fun path listed => perm.symm.subset listed, found']
  change Except.ok ((unite permuted).mergeSort _) = Except.ok ((unite modules).mergeSort _)
  rw [unite_eq_self distinct_paths, unite_eq_self distinct_permuted,
    @mergeSort_eq_of_perm _ Module.path _ _ same distinct_paths]

/-- The module is one of those that the file has when it is taken alone. -/
def CameFrom (conventions : Conventions) (collapse : Bool) (fs : FileSystem) (home : Module)
    (path : Path) : Prop :=
  ∃ modules, ofFile conventions collapse fs path = .ok modules ∧ home ∈ modules

theorem CameFrom.head? {home : Module} {path : Path}
    (came : CameFrom conventions collapse fs home path) :
    home.path.head? = some (path.stem?.getD "") := by
  obtain ⟨modules, found, inside⟩ := came
  exact (ofFile_paths found).2 home inside

theorem exists_cameFrom {paths : List Path} {modules : List Module}
    (success : modulesOf conventions collapse fs paths = .ok modules) {home : Module}
    (inside : home ∈ modules) : ∃ path ∈ paths, CameFrom conventions collapse fs home path := by
  induction paths generalizing modules with
  | nil =>
    cases success
    cases inside
  | cons path rest ih =>
    obtain ⟨first, others, here, below, rfl⟩ := modulesOf_cons_eq_ok.mp success
    rcases List.mem_append.mp inside with inside | inside
    · exact ⟨path, List.mem_cons_self, first, here, inside⟩
    · obtain ⟨owner, among, came⟩ := ih below inside
      exact ⟨owner, List.mem_cons_of_mem _ among, came⟩

theorem subset_modulesOf {paths : List Path} {modules : List Module}
    (success : modulesOf conventions collapse fs paths = .ok modules) {path : Path}
    (listed : path ∈ paths) {own : List Module}
    (found : ofFile conventions collapse fs path = .ok own) : own ⊆ modules := by
  induction paths generalizing modules with
  | nil => cases listed
  | cons head rest ih =>
    obtain ⟨first, others, here, below, rfl⟩ := modulesOf_cons_eq_ok.mp success
    rcases List.mem_cons.mp listed with rfl | later
    · obtain rfl : first = own := Except.ok.inj (here.symm.trans found)
      exact List.subset_append_left _ _
    · exact List.subset_append_of_subset_right _ (ih below later)

/-- A declaration of the model set is one of a file, and the module there has its namespace. -/
theorem exists_part {paths : List Path} {set : ModelSet}
    (success : ofFiles conventions collapse fs paths = .ok set) {home : Module}
    (present : home ∈ set) {model : Model} (inside : model ∈ home.models) :
    ∃ path ∈ paths, ∃ modules, ofFile conventions collapse fs path = .ok modules ∧
      ∃ part ∈ modules, part.path = home.path ∧ model ∈ part.models ∧
        ∀ other ∈ modules, other.path = home.path → other.models ⊆ home.models := by
  obtain ⟨all, found, success⟩ := bind_eq_ok success
  cases success
  have united := List.mem_mergeSort.mp present
  obtain ⟨part, listed, same_path, within⟩ := (mem_models_of_mem_unite united).mp inside
  obtain ⟨path, among, modules, from_file, part_listed⟩ := exists_cameFrom found listed
  refine ⟨path, among, modules, from_file, part, part_listed, same_path, within, ?_⟩
  intro other other_listed other_path model' inside'
  have known := subset_modulesOf found among from_file other_listed
  exact (mem_models_of_mem_unite united).mpr ⟨other, known, other_path, inside'⟩

/-- Modules of different namespaces are sorted strictly. -/
theorem mergeSort_strict {modules : List Module} (distinct : (modules.map Module.path).Nodup) :
    (modules.mergeSort fun a b => ModulePath.le a.path b.path).Pairwise
      fun a b => ModulePath.le a.path b.path = true ∧ a.path ≠ b.path := by
  apply (ModulePath.sorted_mergeSort Module.path modules).and
  rw [← ((List.mergeSort_perm modules _).map Module.path).nodup_iff] at distinct
  exact List.pairwise_map.mp distinct

/-- Files with different stems can come in any order. Their model set is the same, its namespaces
increase strictly, and every module is a module of exactly one of the files, whose stem it has for
its bucket. -/
theorem ofFiles_any_order {paths others : List Path} (perm : paths.Perm others)
    (distinct : (paths.map fun path => path.stem?.getD "").Nodup) {set : ModelSet}
    (success : ofFiles conventions collapse fs paths = .ok set) :
    ofFiles conventions collapse fs others = .ok set ∧
      (set.Pairwise fun a b => ModulePath.le a.path b.path = true ∧ a.path ≠ b.path) ∧
      ∀ home ∈ set, ∃ path ∈ paths, home.path.head? = some (path.stem?.getD "") ∧
        CameFrom conventions collapse fs home path ∧
        ∀ other ∈ paths, CameFrom conventions collapse fs home other → other = path := by
  refine ⟨ofFiles_perm perm distinct (fun _ _ => rfl) success, ?_⟩
  obtain ⟨modules, found, success⟩ := bind_eq_ok success
  obtain ⟨distinct_paths, -⟩ := modulesOf_paths distinct found
  cases success
  rw [unite_eq_self distinct_paths]
  refine ⟨mergeSort_strict distinct_paths, fun home sorted => ?_⟩
  obtain ⟨path, among, came⟩ := exists_cameFrom found (List.mem_mergeSort.mp sorted)
  refine ⟨path, among, came.head?, came, fun other among' came' => ?_⟩
  have same_stem := came'.head?.symm.trans came.head?
  exact List.inj_on_of_nodup_map distinct among' among (Option.some.inj same_stem)

/-- A text that was printed is read from the characters it was made of, so that no text has to
be decoded. -/
theorem load_of_pretty {path : Path} {value : Json}
    (found : fs.readText? path = some value.pretty) :
    load fs path = match Json.ofChars? (value.indented 0) with
      | none => .error (.malformed path (.json .syntaxError))
      | some read => (do
        let document ← (Document.ofJson read).mapError (.malformed path)
        (document.checkVersion).mapError (.malformed path)
        .ok document) := by
  have characters : value.pretty.toList = value.indented 0 := String.toList_ofList
  unfold load
  rw [found]
  dsimp only
  unfold Document.parse Json.parse
  rw [characters]
  cases Json.ofChars? (value.indented 0) <;> rfl

end Derivation

deriving instance DecidableEq for Json.Token

namespace Json

mutual

/-- The tokens that a value is written with. -/
def tokens : Json → List Token
  | .null => [.null]
  | .bool value => [.bool value]
  | .number value => [.number value]
  | .string text => [.string text]
  | .array items => .openArray :: (tokensOfItems items ++ [.closeArray])
  | .object members => .openObject :: (tokensOfMembers members ++ [.closeObject])

def tokensOfItems : List Json → List Token
  | [] => []
  | [item] => item.tokens
  | item :: rest => item.tokens ++ .comma :: tokensOfItems rest

def tokensOfMembers : List (String × Json) → List Token
  | [] => []
  | [(key, value)] => .string key :: .colon :: value.tokens
  | (key, value) :: rest =>
    .string key :: .colon :: (value.tokens ++ .comma :: tokensOfMembers rest)

end

end Json

namespace Derivation

/-- A file holds the document of a value where its tokens are those the value is written with. -/
theorem load_of_written {fs : FileSystem} {path : Path} {value : Json} {document : Document}
    (found : fs.readText? path = some value.pretty)
    (written : Json.Token.all? (value.indented 0) = some value.tokens)
    (parsed : (Json.Parser.run .whole value.tokens).map Json.settled = some value)
    (decoded : Document.ofJson value = .ok document)
    (supported : document.metadata.isVersion3 = true) : load fs path = .ok document := by
  have read : Json.ofChars? (value.indented 0) = some value := by
    unfold Json.ofChars? Json.written? Json.selected?
    rw [written]
    exact parsed
  have version : document.checkVersion = .ok () := if_pos supported
  rw [load_of_pretty found, read]
  dsimp only
  rw [decoded]
  dsimp only [Except.mapError, bind, Except.bind]
  rw [version]

-- Two files whose schemas have the same names.

namespace TwoFiles

def document (title : String) : Json :=
  .object [
    ("openapi", .string "3.0.0"),
    ("info", .object [("title", .string title), ("version", .string "v1")]),
    ("components", .object [("schemas", .object [
      ("Pod", .object [("type", .string "object")]),
      ("meta.Time", .object [("type", .string "string")])])])]

def files : FileSystem where
  top := .directory [("k8s.json", .file (.text (document "Kubernetes").pretty)),
    ("crd.json", .file (.text (document "Kubernetes CRD Swagger").pretty))]
  home := []

theorem written : ∀ title ∈ ["Kubernetes", "Kubernetes CRD Swagger"],
    Json.Token.all? ((document title).indented 0) = some (document title).tokens := by
  decide +kernel

theorem load_titled {title : String} {path : Path}
    (listed : title ∈ ["Kubernetes", "Kubernetes CRD Swagger"])
    (found : files.readText? path = some (document title).pretty) :
    load files path = .ok ⟨⟨⟨"3.0.0", title, "v1"⟩, none⟩,
      [("Pod", .object [("type", .string "object")]),
        ("meta.Time", .object [("type", .string "string")])]⟩ := by
  have version : ['3', '.'].isPrefixOf "3.0.0".toList = true := by decide
  exact load_of_written found (written title listed) rfl rfl version

theorem ofFile_k8s : (ofFile .kubernetes false files ⟨"/k8s.json"⟩).map (·.map Module.path) =
    .ok [["k8s", "models"], ["k8s", "meta"]] := by
  unfold ofFile
  rw [load_titled (by decide) rfl]
  decide

theorem ofFile_crd : (ofFile .kubernetes false files ⟨"/crd.json"⟩).map (·.map Module.path) =
    .ok [["crd", "models"], ["crd", "meta"]] := by
  unfold ofFile
  rw [load_titled (by decide) rfl]
  decide

theorem reversed_files : ∃ set, ofFiles .kubernetes false files [⟨"/k8s.json"⟩, ⟨"/crd.json"⟩] =
      .ok set ∧ set.length = 4 ∧
    ofFiles .kubernetes false files [⟨"/crd.json"⟩, ⟨"/k8s.json"⟩] = .ok set := by
  obtain ⟨k8s, from_k8s, k8s_paths⟩ := map_eq_ok ofFile_k8s
  obtain ⟨crd, from_crd, crd_paths⟩ := map_eq_ok ofFile_crd
  have distinct : (([⟨"/k8s.json"⟩, ⟨"/crd.json"⟩] : List Path).map fun path =>
      path.stem?.getD "").Nodup := by decide +kernel
  have modules : modulesOf .kubernetes false files [⟨"/k8s.json"⟩, ⟨"/crd.json"⟩] =
      .ok (k8s ++ (crd ++ [])) :=
    modulesOf_cons_eq_ok.mpr ⟨_, _, from_k8s,
      modulesOf_cons_eq_ok.mpr ⟨_, _, from_crd, rfl, rfl⟩, rfl⟩
  have success : ofFiles .kubernetes false files [⟨"/k8s.json"⟩, ⟨"/crd.json"⟩] =
      .ok ((unite (k8s ++ (crd ++ []))).mergeSort fun a b => ModulePath.le a.path b.path) := by
    unfold ofFiles
    rw [modules]
    rfl
  have k8s_count := congrArg List.length k8s_paths
  have crd_count := congrArg List.length crd_paths
  refine ⟨_, success, ?_, (ofFiles_any_order (.swap _ _ _) distinct success).1⟩
  rw [List.length_mergeSort, unite_eq_self (modulesOf_paths distinct modules).1]
  simp only [List.length_map, List.length_cons, List.length_nil, List.length_append] at *
  omega

end TwoFiles

end Derivation

end ResourceModels
