import Mathlib
import ResourceModels.Proofs.FileTrees
import ResourceModels.Proofs.Paths

/-!
# What saving files does

A save that succeeds adds directories and one file, and changes nothing else (`Evolves`). It leaves
behind everything it needs, so that the same save succeeds again in any file system that keeps the
directories, and then only puts the content there. So saving the same files again right after
they have been saved leaves the file system exactly as it is (`saveAll_again`).
-/

namespace ResourceModels

namespace FileSystem

/-- The content of the file at a place. -/
def fileAt (fs : FileSystem) (place : List String) : Option Content :=
  (fs.node? place).bind FileNode.content?

/-- Where a path leads, as far as its text tells. -/
def destination (fs : FileSystem) (path : Path) : List String :=
  path.segments.foldl advance (fs.start path)

theorem isDirectoryAt_iff {fs : FileSystem} {place : List String} :
    fs.isDirectoryAt place = true ↔ ∃ entries, fs.node? place = some (.directory entries) := by
  rw [isDirectoryAt, Option.any_eq_true]
  constructor
  · rintro ⟨node, here, is_directory⟩
    cases node with
    | file content => cases is_directory
    | directory entries => exact ⟨entries, here⟩
  · rintro ⟨entries, here⟩
    exact ⟨_, here, rfl⟩

theorem not_isDirectoryAt_of_missing {fs : FileSystem} {place : List String}
    (missing : fs.node? place = none) : fs.isDirectoryAt place = false := by
  rw [isDirectoryAt, missing]
  rfl

theorem isDirectoryAt_of_append {fs : FileSystem} {first second : List String}
    (below : fs.isDirectoryAt (first ++ second) = true) : fs.isDirectoryAt first = true := by
  cases second with
  | nil => rwa [List.append_nil] at below
  | cons name names =>
    obtain ⟨entries, here⟩ := isDirectoryAt_iff.mp below
    exact FileNode.isDirectory_of_find?_append (List.cons_ne_nil _ _) here

theorem isDirectoryAt_above {fs : FileSystem} {first second : List String}
    (shorter : first <+: second) (below : fs.isDirectoryAt second = true) :
    fs.isDirectoryAt first = true := by
  obtain ⟨rest, rfl⟩ := shorter
  exact isDirectoryAt_of_append below

theorem fileAt_eq_none {fs : FileSystem} {place : List String}
    (directory : fs.isDirectoryAt place = true) : fs.fileAt place = none := by
  obtain ⟨entries, here⟩ := isDirectoryAt_iff.mp directory
  rw [fileAt, here]
  rfl

theorem not_isDirectoryAt {fs : FileSystem} {place : List String}
    (held : (fs.fileAt place).isSome) : fs.isDirectoryAt place = false := by
  rw [Bool.eq_false_iff]
  intro directory
  rw [fileAt_eq_none directory] at held
  cases held

/-- A step leads up, stays or goes down by one name. -/
theorem advance_cases (place : List String) (segment : String) :
    advance place segment <+: place ∨ advance place segment = place ++ [segment] := by
  unfold advance
  split
  · exact .inl (List.prefix_refl place)
  · split
    · exact .inl (List.dropLast_prefix place)
    · exact .inr rfl

/-- From a directory, only a step down leads to what is no directory. -/
theorem advance_of_not_directory {fs : FileSystem} {place : List String} {segment : String}
    (ready : fs.isDirectoryAt place = true)
    (not_directory : fs.isDirectoryAt (advance place segment) = false) :
    advance place segment = place ++ [segment] := by
  rcases advance_cases place segment with up | down
  · have here := isDirectoryAt_above up ready
    rw [here] at not_directory
    cases not_directory
  · exact down

/-- The second file system has the directories of the first one and the same surroundings. -/
structure Keeps (before after : FileSystem) : Prop where
  home : after.home = before.home
  refuses : after.refuses = before.refuses
  directories : ∀ place, before.isDirectoryAt place = true → after.isDirectoryAt place = true
  tidy : before.top.Tidy → after.top.Tidy

theorem Keeps.refl (fs : FileSystem) : Keeps fs fs := ⟨rfl, rfl, fun _ here => here, id⟩

theorem Keeps.trans {first second third : FileSystem} (before : Keeps first second)
    (after : Keeps second third) : Keeps first third where
  home := after.home.trans before.home
  refuses := after.refuses.trans before.refuses
  directories := fun place here => after.directories place (before.directories place here)
  tidy := fun tidy => after.tidy (before.tidy tidy)

theorem Keeps.start {before after : FileSystem} (keeps : Keeps before after) (path : Path) :
    after.start path = before.start path := by
  rw [FileSystem.start, FileSystem.start, keeps.home]

theorem Keeps.destination {before after : FileSystem} (keeps : Keeps before after) (path : Path) :
    after.destination path = before.destination path := by
  rw [FileSystem.destination, FileSystem.destination, keeps.start]

/-- The second file system comes from the first one by adding directories and writing files. -/
structure Evolves (before after : FileSystem) (writes : List (List String × Content)) : Prop
    extends Keeps before after where
  files : after.fileAt = FileNode.overwrite before.fileAt writes

theorem Evolves.refl (fs : FileSystem) : Evolves fs fs [] := ⟨.refl fs, rfl⟩

theorem Evolves.trans {first second third : FileSystem} {writes more : List (List String × Content)}
    (before : Evolves first second writes) (after : Evolves second third more) :
    Evolves first third (writes ++ more) where
  toKeeps := before.toKeeps.trans after.toKeeps
  files := by rw [after.files, before.files, FileNode.overwrite_append]

theorem node?_put_below {fs : FileSystem} {parent : List String} {name : String}
    (ready : fs.isDirectoryAt parent = true) (new : FileNode) (rest : List String) :
    (fs.put (parent ++ [name]) new).node? (parent ++ [name] ++ rest) = new.find? rest := by
  change ((fs.top.put new (parent ++ [name])).find? (parent ++ [name] ++ rest)) = _
  rw [FileNode.find?_append, FileNode.find?_put_self ready]
  rfl

theorem node?_put_apart {fs : FileSystem} {place other : List String} {new : FileNode}
    (not_below : ¬ place <+: other) (not_above : ¬ other <+: place) :
    (fs.put place new).node? other = fs.node? other :=
  FileNode.find?_put_of_apart not_below not_above fs.top new

/-- Above the place a directory stays a directory. -/
theorem directory_put_above {fs : FileSystem} {parent rest : List String} {name : String}
    {new : FileNode} (ready : fs.isDirectoryAt (parent ++ rest) = true) :
    (fs.put (parent ++ rest ++ [name]) new).isDirectoryAt parent = true := by
  obtain ⟨entries, here⟩ := isDirectoryAt_iff.mp (isDirectoryAt_of_append ready)
  have changed : (fs.put (parent ++ rest ++ [name]) new).node? parent =
      some (FileNode.put (.directory entries) new (rest ++ [name])) := by
    change (fs.top.put new (parent ++ rest ++ [name])).find? parent = _
    rw [List.append_assoc, FileNode.find?_put_above (by simp)]
    exact congrArg (Option.map (FileNode.put · new (rest ++ [name]))) here
  obtain ⟨first, names, same⟩ := List.exists_cons_of_ne_nil (List.append_ne_nil_of_right_ne_nil
    rest (List.cons_ne_nil name []))
  rw [isDirectoryAt, changed, same]
  change (FileNode.put (.directory entries) new (first :: names)).isDirectory = true
  rw [FileNode.put]
  split
  · rfl
  · split <;> rfl

/-- Nothing changes where the place does not reach. -/
theorem put_elsewhere {fs : FileSystem} {parent : List String} {name : String} {new : FileNode}
    (ready : fs.isDirectoryAt parent = true) {place : List String}
    (elsewhere : ¬ parent ++ [name] <+: place) :
    (fs.put (parent ++ [name]) new).isDirectoryAt place = fs.isDirectoryAt place ∧
      (fs.put (parent ++ [name]) new).fileAt place = fs.fileAt place := by
  by_cases above : place <+: parent ++ [name]
  · have shorter : place <+: parent := by
      rcases List.prefix_concat_iff.mp above with same | shorter
      · exact absurd (same ▸ List.prefix_refl _) elsewhere
      · exact shorter
    have before := isDirectoryAt_above shorter ready
    obtain ⟨rest, rfl⟩ := shorter
    have after : (fs.put (place ++ rest ++ [name]) new).isDirectoryAt place = true :=
      directory_put_above ready
    rw [before, after, fileAt_eq_none before, fileAt_eq_none after]
    exact ⟨rfl, rfl⟩
  · have same := @node?_put_apart fs _ _ new elsewhere above
    rw [isDirectoryAt, isDirectoryAt, fileAt, fileAt, same]
    exact ⟨rfl, rfl⟩

theorem node?_eq_none_below {fs : FileSystem} {place : List String} {rest : List String}
    (not_directory : fs.isDirectoryAt place = false) (nonempty : rest ≠ []) :
    fs.node? (place ++ rest) = none := by
  cases found : fs.node? (place ++ rest) with
  | none => rfl
  | some node =>
    have := FileNode.isDirectory_of_find?_append nonempty found
    exact absurd this (Bool.eq_false_iff.mp not_directory)

/-- A new directory where nothing was. -/
theorem evolves_put_directory {fs : FileSystem} {parent : List String} {name : String}
    (ready : fs.isDirectoryAt parent = true) (missing : fs.node? (parent ++ [name]) = none) :
    Evolves fs (fs.put (parent ++ [name]) (.directory [])) [] ∧
      (fs.put (parent ++ [name]) (.directory [])).isDirectoryAt (parent ++ [name]) = true := by
  have here := @node?_put_below fs parent name ready (.directory [])
  have not_directory := not_isDirectoryAt_of_missing missing
  refine ⟨⟨⟨rfl, rfl, ?_, fun tidy => tidy.put (.directory [] List.nodup_nil (by simp)) _⟩, ?_⟩, ?_⟩
  · intro place directory
    by_cases below : parent ++ [name] <+: place
    · rw [isDirectoryAt_above below directory] at not_directory
      cases not_directory
    · rw [(put_elsewhere ready below).1, directory]
  · funext place
    change fileAt _ place = fs.fileAt place
    by_cases below : parent ++ [name] <+: place
    · obtain ⟨rest, rfl⟩ := below
      rw [fileAt, fileAt, here rest]
      cases rest with
      | nil => rw [List.append_nil, missing]; rfl
      | cons next names =>
        rw [node?_eq_none_below not_directory (List.cons_ne_nil _ _)]
        rfl
    · exact (put_elsewhere ready below).2
  · have found := here []
    rw [List.append_nil] at found
    exact isDirectoryAt_iff.mpr ⟨[], found⟩

/-- A new directory where a segment leads to nothing. -/
theorem evolves_put_next {fs : FileSystem} {place : List String} {segment : String}
    (ready : fs.isDirectoryAt place = true) (missing : fs.node? (advance place segment) = none) :
    Evolves fs (fs.put (advance place segment) (.directory [])) [] ∧
      (fs.put (advance place segment) (.directory [])).isDirectoryAt (advance place segment) =
        true := by
  have goes_down := advance_of_not_directory ready (not_isDirectoryAt_of_missing missing)
  rw [goes_down] at missing ⊢
  exact evolves_put_directory ready missing

/-- A file where no directory was. -/
theorem evolves_put_file {fs : FileSystem} {parent : List String} {name : String}
    (ready : fs.isDirectoryAt parent = true)
    (not_directory : fs.isDirectoryAt (parent ++ [name]) = false) (content : Content) :
    Evolves fs (fs.put (parent ++ [name]) (.file content)) [(parent ++ [name], content)] := by
  have here := @node?_put_below fs parent name ready (.file content)
  refine ⟨⟨rfl, rfl, ?_, fun tidy => tidy.put (.file content) _⟩, ?_⟩
  · intro place directory
    by_cases below : parent ++ [name] <+: place
    · rw [isDirectoryAt_above below directory] at not_directory
      cases not_directory
    · rw [(put_elsewhere ready below).1, directory]
  · funext place
    change fileAt _ place = Function.update fs.fileAt (parent ++ [name]) (some content) place
    by_cases below : parent ++ [name] <+: place
    · obtain ⟨rest, rfl⟩ := below
      cases rest with
      | nil =>
        rw [fileAt, here [], List.append_nil, Function.update_self]
        rfl
      | cons next names =>
        have different : parent ++ [name] ++ next :: names ≠ parent ++ [name] := by simp
        rw [Function.update_of_ne different, fileAt, fileAt, here (next :: names),
          node?_eq_none_below not_directory (List.cons_ne_nil _ _)]
        rfl
    · have different : place ≠ parent ++ [name] := fun same => below (same ▸ List.prefix_refl _)
      rw [Function.update_of_ne different]
      exact (put_elsewhere ready below).2

theorem follow_append (fs : FileSystem) (place : List String) (first second : List String) :
    fs.follow place (first ++ second) = (fs.follow place first).bind (fs.follow · second) := by
  induction first generalizing place with
  | nil => rfl
  | cons segment rest ih =>
    rw [List.cons_append, follow, follow]
    split
    · exact ih _
    · rfl

theorem follow_eq {fs : FileSystem} {place reached : List String} {segments : List String}
    (success : fs.follow place segments = some reached) :
    segments.foldl advance place = reached := by
  induction segments generalizing place with
  | nil => exact Option.some.inj success
  | cons segment rest ih =>
    rw [follow] at success
    split at success
    next => exact ih success
    next => cases success

theorem isDirectoryAt_of_follow {fs : FileSystem} {place reached : List String}
    {segments : List String} (success : fs.follow place segments = some reached)
    (nonempty : segments ≠ []) : fs.isDirectoryAt place = true := by
  cases segments with
  | nil => exact absurd rfl nonempty
  | cons segment rest =>
    rw [follow] at success
    split at success
    next here => exact here
    next => cases success

theorem Keeps.follow {before after : FileSystem} (keeps : Keeps before after)
    {place reached : List String} {segments : List String}
    (success : before.follow place segments = some reached) :
    after.follow place segments = some reached := by
  induction segments generalizing place with
  | nil => exact success
  | cons segment rest ih =>
    rw [FileSystem.follow] at success ⊢
    split at success
    next here =>
      rw [if_pos (keeps.directories place here)]
      exact ih success
    next => cases success

theorem place?_eq_some_iff {fs : FileSystem} {path : Path} {place : List String} :
    fs.place? path = some place ↔
      isUsable path = true ∧ fs.follow (fs.start path) path.segments = some place := by
  unfold place?
  split
  next usable => simp [usable]
  next unusable => simp [unusable]

theorem Keeps.place? {before after : FileSystem} (keeps : Keeps before after) {path : Path}
    {place : List String} (success : before.place? path = some place) :
    after.place? path = some place := by
  obtain ⟨usable, followed⟩ := place?_eq_some_iff.mp success
  rw [place?_eq_some_iff, keeps.start]
  exact ⟨usable, keeps.follow followed⟩

theorem destination_eq {fs : FileSystem} {path : Path} {place : List String}
    (found : fs.place? path = some place) : fs.destination path = place :=
  follow_eq (place?_eq_some_iff.mp found).2

theorem createAlong_of_directory {fs : FileSystem} {place : List String} {segment : String}
    (here : fs.isDirectoryAt (advance place segment) = true) (rest : List String) :
    fs.createAlong place (segment :: rest) = fs.createAlong (advance place segment) rest := by
  obtain ⟨entries, found⟩ := isDirectoryAt_iff.mp here
  rw [createAlong, found]

theorem createAlong_spec {fs grown : FileSystem} {place : List String} {segments : List String}
    (start : fs.isDirectoryAt place = true)
    (success : fs.createAlong place segments = (true, grown)) :
    Evolves fs grown [] ∧
      ∀ later, grown.Keeps later → later.createAlong place segments = (true, later) := by
  induction segments generalizing fs place with
  | nil =>
    cases success
    exact ⟨.refl _, fun later _ => rfl⟩
  | cons segment rest ih =>
    rw [createAlong] at success
    split at success
    next entries found =>
      have here := isDirectoryAt_iff.mpr ⟨entries, found⟩
      obtain ⟨evolves, later_same⟩ := ih here success
      refine ⟨evolves, fun later keeps => ?_⟩
      have later_here := keeps.directories _ (evolves.directories _ here)
      rw [createAlong_of_directory later_here]
      exact later_same later keeps
    next => cases success
    next missing =>
      split at success
      next =>
        obtain ⟨made, here⟩ := evolves_put_next start missing
        obtain ⟨evolves, later_same⟩ := ih here success
        refine ⟨made.trans evolves, fun later keeps => ?_⟩
        have later_here := keeps.directories _ (evolves.directories _ here)
        rw [createAlong_of_directory later_here]
        exact later_same later keeps
      next => cases success

theorem start_isDirectory {fs : FileSystem} (home : fs.isDirectoryAt fs.home = true) (path : Path) :
    fs.isDirectoryAt (fs.start path) = true := by
  unfold start
  split
  · exact isDirectoryAt_above List.nil_prefix home
  · exact home

theorem createDirectories_spec {fs grown : FileSystem} (home : fs.isDirectoryAt fs.home = true)
    {path : Path} (success : fs.createDirectories path = (true, grown)) :
    Evolves fs grown [] ∧
      ∀ later, grown.Keeps later → later.createDirectories path = (true, later) := by
  unfold createDirectories at success ⊢
  split at success
  next empty =>
    cases success
    exact ⟨.refl fs, fun later _ => by rw [if_pos empty]⟩
  next nonempty =>
    split at success
    next usable =>
      obtain ⟨evolves, again⟩ := createAlong_spec (start_isDirectory home path) success
      refine ⟨evolves, fun later keeps => ?_⟩
      rw [if_neg nonempty, if_pos usable, keeps.start, evolves.start]
      exact again later keeps
    next => cases success

/-- A path that leads to no directory ends in a name, and what is above it is a directory. -/
theorem exists_parent_of_place? {fs : FileSystem} {path : Path} {place : List String}
    (found : fs.place? path = some place) (not_directory : fs.isDirectoryAt place = false) :
    ∃ parent name, place = parent ++ [name] ∧ fs.isDirectoryAt parent = true := by
  obtain ⟨before, last, segments_eq⟩ :=
    (List.eq_nil_or_concat' path.segments).resolve_left path.segments_ne_nil
  have followed := (place?_eq_some_iff.mp found).2
  rw [segments_eq, follow_append] at followed
  obtain ⟨parent, reached, last_step⟩ := Option.bind_eq_some_iff.mp followed
  have ready := isDirectoryAt_of_follow last_step (List.cons_ne_nil _ _)
  have last_eq : advance parent last = place := follow_eq last_step
  have goes_down := advance_of_not_directory ready (last_eq ▸ not_directory)
  exact ⟨parent, last, last_eq.symm.trans goes_down, ready⟩

theorem write_spec {fs after : FileSystem} {path : Path} {content : Content}
    (success : fs.write path content = (true, after)) :
    fs.place? path = some (fs.destination path) ∧
      Evolves fs after [(fs.destination path, content)] ∧
      ∀ later, fs.Keeps later → later.isDirectoryAt (fs.destination path) = false →
        later.write path content = (true, later.put (fs.destination path) (.file content)) := by
  unfold write at success
  split at success
  next => cases success
  next place found =>
    obtain rfl := destination_eq found
    split at success
    next allowed =>
      obtain ⟨not_directory, admitted⟩ := Bool.and_eq_true_iff.mp allowed
      rw [Bool.not_eq_true'] at not_directory
      cases success
      refine ⟨found, ?_, ?_⟩
      · obtain ⟨parent, name, goes_down, ready⟩ := exists_parent_of_place? found not_directory
        rw [goes_down] at not_directory ⊢
        exact evolves_put_file ready not_directory content
      · intro later keeps not_directory_later
        have admitted_later : later.admits (fs.destination path) = true := by
          rw [admits, keeps.refuses]
          exact admitted
        rw [write, keeps.place? found]
        dsimp only
        rw [not_directory_later, admitted_later]
        rfl
    next => cases success

/-- A file has been saved where its path leads, and can be saved there again. -/
structure Saved (before after : FileSystem) (path : Path) (content : Content) : Prop where
  found : after.place? path = some (before.destination path)
  evolves : Evolves before after [(before.destination path, content)]
  again : ∀ later, after.Keeps later → later.isDirectoryAt (before.destination path) = false →
    later.save path content = (.ok (), later.put (before.destination path) (.file content))

/-- A save ends in a write, once the directories are there. -/
theorem Saved.of_write {fs grown after : FileSystem} {path : Path} {content : Content}
    (created : Evolves fs grown [])
    (saves : ∀ later, grown.Keeps later → ∀ written, later.write path content = (true, written) →
      later.save path content = (.ok (), written))
    (success : grown.write path content = (true, after)) : Saved fs after path content := by
  obtain ⟨found, evolves, again⟩ := write_spec success
  rw [created.destination] at found evolves again
  refine ⟨evolves.place? found, created.trans evolves, fun later keeps not_directory => ?_⟩
  have keeps_grown := evolves.toKeeps.trans keeps
  exact saves later keeps_grown _ (again later keeps_grown not_directory)

theorem save_spec {fs after : FileSystem} (home : fs.isDirectoryAt fs.home = true) {path : Path}
    {content : Content} (success : fs.save path content = (.ok (), after)) :
    Saved fs after path content := by
  unfold save at success
  split at success
  next no_parent =>
    split at success
    next after' written =>
      cases success
      refine .of_write (.refl fs) (fun later _ written again => ?_) written
      unfold save
      rw [no_parent]
      dsimp only
      rw [again]
    next => cases success
  next parent parent_eq =>
    split at success
    next => cases success
    next grown created =>
      obtain ⟨evolves, created_again⟩ := createDirectories_spec home created
      split at success
      next after' written =>
        cases success
        refine .of_write evolves (fun later keeps written again => ?_) written
        unfold save
        rw [parent_eq]
        dsimp only
        rw [created_again later keeps]
        dsimp only
        rw [again]
      next => cases success

/-- Save files one after another, up to the first failure. -/
def saveAll : List (Path × Content) → FileSystem → Except Path Unit × FileSystem
  | [], fs => (.ok (), fs)
  | (path, content) :: rest, fs =>
    match fs.save path content with
    | (.error refused, fs) => (.error refused, fs)
    | (.ok (), fs) => saveAll rest fs

/-- Where the files come to stand. -/
def writesOf (fs : FileSystem) (items : List (Path × Content)) : List (List String × Content) :=
  items.map fun item => (fs.destination item.1, item.2)

theorem Keeps.writesOf {before after : FileSystem} (keeps : Keeps before after)
    (items : List (Path × Content)) : after.writesOf items = before.writesOf items :=
  List.map_congr_left fun item _ => by rw [keeps.destination]

theorem saveAll_cons_eq_ok {fs after : FileSystem} {item : Path × Content}
    {rest : List (Path × Content)} (success : saveAll (item :: rest) fs = (.ok (), after)) :
    ∃ next, fs.save item.1 item.2 = (.ok (), next) ∧ saveAll rest next = (.ok (), after) := by
  rw [saveAll] at success
  split at success
  next => cases success
  next next saved => exact ⟨next, saved, success⟩

theorem saveAll_cons {fs next : FileSystem} {path : Path} {content : Content}
    (saved : fs.save path content = (.ok (), next)) (rest : List (Path × Content)) :
    saveAll ((path, content) :: rest) fs = saveAll rest next := by
  rw [saveAll, saved]

theorem Keeps.absolute {before after : FileSystem} (keeps : Keeps before after) (path : Path) :
    after.absolute path = before.absolute path := by
  rw [FileSystem.absolute, FileSystem.absolute, keeps.home]

theorem Keeps.home_isDirectory {before after : FileSystem} (keeps : Keeps before after)
    (home : before.isDirectoryAt before.home = true) : after.isDirectoryAt after.home = true := by
  rw [keeps.home]
  exact keeps.directories _ home

theorem saveAll_evolves {items : List (Path × Content)} {fs after : FileSystem}
    (home : fs.isDirectoryAt fs.home = true) (success : saveAll items fs = (.ok (), after)) :
    Evolves fs after (fs.writesOf items) ∧
      ∀ item ∈ items, after.place? item.1 = some (fs.destination item.1) := by
  induction items generalizing fs with
  | nil =>
    cases success
    exact ⟨.refl _, fun _ absent => absurd absent List.not_mem_nil⟩
  | cons item rest ih =>
    obtain ⟨next, saved, others⟩ := saveAll_cons_eq_ok success
    obtain ⟨found, evolves, -⟩ := save_spec home saved
    obtain ⟨evolves_rest, found_rest⟩ := ih (evolves.home_isDirectory home) others
    have same_writes := evolves.toKeeps.writesOf rest
    refine ⟨?_, ?_⟩
    · rw [same_writes] at evolves_rest
      exact evolves.trans evolves_rest
    · intro other listed
      rcases List.mem_cons.mp listed with rfl | later
      · exact evolves_rest.place? found
      · rw [found_rest other later, evolves.destination]

/-- Where the files are there already, saving them again puts their contents in order. -/
theorem saveAll_repeats {items : List (Path × Content)} {fs after later : FileSystem}
    (home : fs.isDirectoryAt fs.home = true) (success : saveAll items fs = (.ok (), after))
    (keeps : after.Keeps later)
    (present : ∀ write ∈ fs.writesOf items, (later.fileAt write.1).isSome) :
    saveAll items later =
      (.ok (), { later with top := later.top.putFiles (fs.writesOf items) }) := by
  induction items generalizing fs later with
  | nil => rfl
  | cons item rest ih =>
    obtain ⟨next, saved, others⟩ := saveAll_cons_eq_ok success
    obtain ⟨-, evolves, again⟩ := save_spec home saved
    have next_home := evolves.home_isDirectory home
    obtain ⟨evolves_rest, -⟩ := saveAll_evolves next_home others
    have here : (later.fileAt (fs.destination item.1)).isSome :=
      present (fs.destination item.1, item.2) List.mem_cons_self
    have saved_again := again later (evolves_rest.toKeeps.trans keeps) (not_isDirectoryAt here)
    have same_writes := evolves.toKeeps.writesOf rest
    obtain ⟨held, held_here⟩ := Option.isSome_iff_exists.mp here
    have file_here := FileNode.find?_of_content? held_here
    have later_home := keeps.home_isDirectory (evolves_rest.home_isDirectory next_home)
    have keeps_put : later.Keeps (later.put (fs.destination item.1) (.file item.2)) :=
      (save_spec later_home saved_again).evolves.toKeeps
    rw [saveAll, saved_again]
    dsimp only
    have step := ih next_home others (keeps.trans keeps_put) ?_
    · rw [same_writes] at step
      exact step
    · intro write listed
      rw [same_writes] at listed
      obtain ⟨content, other_here⟩ := Option.isSome_iff_exists.mp
        (present write (List.mem_cons_of_mem _ listed))
      have found := FileNode.find?_put_file file_here (FileNode.find?_of_content? other_here) item.2
      rw [fileAt, node?, put, found]
      rfl

/-- Files that have just been saved can be saved again, and that changes nothing. -/
theorem saveAll_again {items : List (Path × Content)} {fs after : FileSystem}
    (home : fs.isDirectoryAt fs.home = true) (success : saveAll items fs = (.ok (), after)) :
    saveAll items after = (.ok (), after) := by
  obtain ⟨evolves, -⟩ := saveAll_evolves home success
  have present : ∀ write ∈ fs.writesOf items, (after.fileAt write.1).isSome := by
    intro write listed
    rw [evolves.files]
    exact FileNode.overwrite_isSome (List.mem_map_of_mem listed) fs.fileAt
  have settled : after.top.putFiles (fs.writesOf items) = after.top :=
    @FileNode.putFiles_eq_self _ _ fs.fileAt fun place => congrFun evolves.files place
  rw [saveAll_repeats home success (.refl after) present, settled]

end FileSystem

end ResourceModels
