import Mathlib
import ResourceModels.Files.Path

/-!
# The steps of a path

What a path leads to depends on whether it is absolute and on its steps, the segments that are not
idle. Extending a path by a name adds one step; taking the parent and putting another
name in its place keeps the steps before; making a path absolute puts the steps of the home
directory in front.
-/

namespace ResourceModels

namespace Text

variable {separates : Char → Bool}

theorem pieces_ne_nil (text : List Char) : pieces separates text ≠ [] := by
  cases text with
  | nil => exact List.cons_ne_nil _ _
  | cons c rest =>
    rw [pieces]
    split
    · exact List.cons_ne_nil _ _
    · split <;> exact List.cons_ne_nil _ _

theorem pieces_eq_singleton {text : List Char} (whole : ∀ c ∈ text, separates c = false) :
    pieces separates text = [text] := by
  induction text with
  | nil => rfl
  | cons c rest ih =>
    have tail := ih fun d inside => whole d (List.mem_cons_of_mem _ inside)
    simp [pieces, tail, whole c List.mem_cons_self]

theorem pieces_append {c : Char} (here : separates c = true) (first second : List Char) :
    pieces separates (first ++ c :: second) =
      pieces separates first ++ pieces separates second := by
  induction first with
  | nil =>
    obtain ⟨piece, more, others⟩ := List.exists_cons_of_ne_nil (pieces_ne_nil second)
    rw [others]
    simp [pieces, others, here]
  | cons d rest ih =>
    obtain ⟨piece, more, others⟩ := List.exists_cons_of_ne_nil (pieces_ne_nil rest)
    rw [others] at ih
    simp only [List.cons_append, pieces, ih, others]
    split <;> rfl

/-- A text without the separator is one piece. -/
theorem pieces_of_not_mem {text : List Char} {c : Char} (absent : c ∉ text) :
    pieces (· = c) text = [text] := by
  refine pieces_eq_singleton fun d inside => ?_
  rw [decide_eq_false_iff_not]
  rintro rfl
  exact absent inside

/-- Splitting undoes joining. -/
theorem pieces_intercalate {c : Char} {names : List String} (nonempty : names ≠ [])
    (whole : ∀ name ∈ names, c ∉ name.toList) :
    pieces (· = c) ((String.ofList [c]).intercalate names).toList = names.map String.toList := by
  induction names with
  | nil => exact absurd rfl nonempty
  | cons name rest ih =>
    obtain ⟨here, later⟩ := List.forall_mem_cons.mp whole
    cases rest with
    | nil =>
      rw [String.intercalate_singleton, pieces_of_not_mem here]
      rfl
    | cons next rest =>
      rw [String.intercalate_cons_cons, String.toList_append, String.toList_append,
        String.toList_ofList, List.append_assoc, List.singleton_append,
        pieces_append (decide_eq_true rfl), pieces_of_not_mem here,
        ih (List.cons_ne_nil _ _) later]
      rfl

/-- A piece is a part of the text without separators. -/
theorem part_of_mem_pieces {text piece : List Char} (listed : piece ∈ pieces separates text) :
    piece.Sublist text ∧ ∀ c ∈ piece, separates c = false := by
  induction text generalizing piece with
  | nil =>
    obtain rfl := List.mem_singleton.mp listed
    exact ⟨.refl _, fun c inside => absurd inside List.not_mem_nil⟩
  | cons d rest ih =>
    obtain ⟨first, more, others⟩ := List.exists_cons_of_ne_nil (pieces_ne_nil rest)
    rw [others] at ih
    rw [pieces, others] at listed
    dsimp only at listed
    split at listed
    next =>
      rcases List.mem_cons.mp listed with rfl | later
      · exact ⟨List.nil_sublist _, fun c inside => absurd inside List.not_mem_nil⟩
      · exact (ih later).imp_left (·.cons d)
    next separates_not =>
      rcases List.mem_cons.mp listed with rfl | later
      · obtain ⟨part, clean⟩ := ih List.mem_cons_self
        exact ⟨part.cons_cons d, List.forall_mem_cons.mpr ⟨by simpa using separates_not, clean⟩⟩
      · exact (ih (List.mem_cons_of_mem _ later)).imp_left (·.cons d)

theorem mem_of_mem_pieces {text piece : List Char} (listed : piece ∈ pieces separates text)
    {c : Char} (inside : c ∈ piece) : c ∈ text ∧ separates c = false :=
  have ⟨part, clean⟩ := part_of_mem_pieces listed
  ⟨part.subset inside, clean c inside⟩

theorem exists_piece {text : List Char} {c : Char}
    (inside : c ∈ text) (part : separates c = false) :
    ∃ piece ∈ pieces separates text, c ∈ piece := by
  induction text with
  | nil => cases inside
  | cons d rest ih =>
    obtain ⟨first, more, others⟩ := List.exists_cons_of_ne_nil (pieces_ne_nil rest)
    rw [others] at ih
    rw [pieces, others]
    dsimp only
    rcases List.mem_cons.mp inside with rfl | later
    · rw [part, if_neg Bool.false_ne_true]
      exact ⟨_, List.mem_cons_self, List.mem_cons_self⟩
    · obtain ⟨piece, listed, here⟩ := ih later
      split
      · exact ⟨piece, List.mem_cons_of_mem _ listed, here⟩
      · rcases List.mem_cons.mp listed with rfl | listed
        · exact ⟨_, List.mem_cons_self, List.mem_cons_of_mem _ here⟩
        · exact ⟨piece, List.mem_cons_of_mem _ listed, here⟩

end Text

namespace Path

/-- A segment that leads somewhere. -/
structure IsStep (segment : String) : Prop where
  whole : '/' ∉ segment.toList
  not_idle : isIdle segment = false

/-- A segment that leads to an entry of a directory. -/
structure IsName (segment : String) : Prop extends IsStep segment where
  not_climbing : segment ≠ ".."

/-- The segments that are no names have at most two characters or a slash. -/
theorem isName_of_length {segment : String} (long : 3 ≤ segment.length)
    (whole : '/' ∉ segment.toList) : IsName segment := by
  have different : ∀ short : String, short.length < 3 → segment ≠ short := by
    rintro short bound rfl
    omega
  refine ⟨⟨whole, ?_⟩, different ".." (by decide)⟩
  unfold isIdle
  rw [Bool.or_eq_false_iff, decide_eq_false_iff_not, decide_eq_false_iff_not]
  exact ⟨different "" (by decide), different "." (by decide)⟩

theorem IsStep.ne_empty {segment : String} (proper : IsStep segment) : segment ≠ "" := by
  rintro rfl
  have idle := proper.not_idle
  cases idle

theorem segments_ne_nil (path : Path) : path.segments ≠ [] := by
  unfold segments
  rw [Ne, List.map_eq_nil_iff]
  exact Text.pieces_ne_nil _

theorem whole_of_mem_segments {path : Path} {segment : String} (listed : segment ∈ path.segments) :
    '/' ∉ segment.toList := by
  obtain ⟨piece, part, rfl⟩ := List.mem_map.mp listed
  rw [String.toList_ofList]
  intro inside
  have := (Text.mem_of_mem_pieces part inside).2
  simp at this

theorem mem_text_of_mem_segments {path : Path} {segment : String} (listed : segment ∈ path.segments)
    {c : Char} (inside : c ∈ segment.toList) : c ∈ path.text.toList := by
  obtain ⟨piece, part, rfl⟩ := List.mem_map.mp listed
  rw [String.toList_ofList] at inside
  exact (Text.mem_of_mem_pieces part inside).1

theorem segments_of_whole {text : String} (whole : '/' ∉ text.toList) :
    segments ⟨text⟩ = [text] := by
  rw [segments, Text.pieces_of_not_mem whole, List.map_singleton, String.ofList_toList]

theorem segments_slash (first second : String) :
    segments ⟨first ++ "/" ++ second⟩ = segments ⟨first⟩ ++ segments ⟨second⟩ := by
  have slash : ("/" : String).toList = ['/'] := by decide
  rw [segments, segments, segments, String.toList_append, String.toList_append, slash,
    List.append_assoc, ← List.map_append, ← Text.pieces_append (decide_eq_true rfl)]
  rfl

theorem segments_intercalate {names : List String} (nonempty : names ≠ [])
    (whole : ∀ name ∈ names, '/' ∉ name.toList) : segments ⟨"/".intercalate names⟩ = names := by
  have split := Text.pieces_intercalate nonempty whole
  change (Text.pieces (· = '/') ("/".intercalate names).toList).map String.ofList = names
  have slash : String.ofList ['/'] = "/" := by decide
  rw [slash] at split
  rw [split, List.map_map]
  exact List.map_id'' (fun name => String.ofList_toList) names

/-- An absolute path starts with an empty segment, and goes on. -/
theorem isAbsolute_iff {path : Path} :
    path.isAbsolute = true ↔ ∃ rest, rest ≠ [] ∧ path.segments = "" :: rest := by
  unfold isAbsolute startsWithSlash segments
  cases path.text.toList with
  | nil => simp [Text.pieces]
  | cons c rest =>
    obtain ⟨piece, more, others⟩ :=
      List.exists_cons_of_ne_nil (@Text.pieces_ne_nil (· = '/') rest)
    by_cases slash : c = '/'
    · simp [Text.pieces, others, slash]
    · simp [Text.pieces, others, slash, Ne.symm slash]

theorem segments_empty : segments ⟨""⟩ = [""] := by
  decide

theorem startsWithSlash_of_whole {text : String} (whole : '/' ∉ text.toList) :
    startsWithSlash text = false := by
  unfold startsWithSlash
  cases found : text.toList with
  | nil => rfl
  | cons c rest =>
    rw [found] at whole
    have different : c ≠ '/' := fun same => whole (same ▸ List.mem_cons_self)
    change ('/' == c && _) = false
    rw [beq_eq_false_iff_ne.mpr different.symm, Bool.false_and]

/-- A path that ends in a slash has an empty last segment. -/
theorem exists_slash_of_endsWithSlash {path : Path} (ends : path.endsWithSlash = true) :
    ∃ start, path = ⟨start ++ "/"⟩ := by
  obtain ⟨start, same⟩ := List.isSuffixOf_iff_suffix.mp ends
  refine ⟨String.ofList start, ?_⟩
  cases path with
  | mk text =>
    congr 1
    rw [← String.toList_inj, String.toList_append, String.toList_ofList, ← same]
    rfl

/-- Extending a path by a name replaces an empty segment at its end, or adds a segment. -/
theorem segments_push (path : Path) {name : String} (whole : '/' ∉ name.toList) :
    ∃ start trail, path.segments = start ++ trail ∧ (∀ segment ∈ trail, segment = "") ∧
      (path.push name).segments = start ++ [name] := by
  obtain ⟨text⟩ := path
  unfold push
  rw [startsWithSlash_of_whole whole, if_neg Bool.false_ne_true]
  dsimp only
  split
  next short =>
    rw [Bool.or_eq_true, decide_eq_true_eq] at short
    by_cases empty : text = ""
    · subst empty
      refine ⟨[], [""], segments_empty, by simp, ?_⟩
      rw [String.empty_append]
      exact segments_of_whole whole
    · obtain ⟨start, same⟩ := exists_slash_of_endsWithSlash (short.resolve_left empty)
      obtain rfl : text = start ++ "/" := congrArg Path.text same
      have before := segments_slash start ""
      rw [String.append_empty, segments_empty] at before
      refine ⟨segments ⟨start⟩, [""], before, by simp, ?_⟩
      rw [segments_slash, segments_of_whole whole]
  next =>
    refine ⟨segments ⟨text⟩, [], (List.append_nil _).symm, by simp, ?_⟩
    rw [segments_slash, segments_of_whole whole]

/-- An absolute segment replaces the whole path. -/
theorem push_of_slash (path : Path) {segment : String}
    (absolute : startsWithSlash segment = true) : path.push segment = ⟨segment⟩ := by
  unfold push
  rw [if_pos absolute]

/-- Any other segment leaves the path where it starts. -/
theorem isAbsolute_push_of_relative (path : Path) {segment : String}
    (relative : startsWithSlash segment = false) :
    (path.push segment).isAbsolute = path.isAbsolute := by
  obtain ⟨text⟩ := path
  have starts : ∀ more : String, text ≠ "" →
      startsWithSlash (text ++ more) = startsWithSlash text := by
    intro more nonempty
    unfold startsWithSlash
    rw [String.toList_append]
    cases found : text.toList with
    | nil => exact absurd (String.toList_eq_nil_iff.mp found) nonempty
    | cons c rest => rfl
  unfold push
  rw [relative, if_neg Bool.false_ne_true]
  by_cases empty : text = ""
  · subst empty
    unfold isAbsolute
    simp only [decide_true, Bool.true_or, if_true, String.empty_append]
    rw [relative, startsWithSlash_of_whole (by simp)]
  · split
    · exact starts segment empty
    · unfold isAbsolute
      dsimp only
      rw [String.append_assoc]
      exact starts ("/" ++ segment) empty

theorem isAbsolute_push (path : Path) {name : String} (whole : '/' ∉ name.toList) :
    (path.push name).isAbsolute = path.isAbsolute :=
  path.isAbsolute_push_of_relative (startsWithSlash_of_whole whole)

theorem mem_text_push (path : Path) {name : String} (whole : '/' ∉ name.toList) {c : Char} :
    c ∈ path.text.toList ∨ c ∈ name.toList → c ∈ (path.push name).text.toList := by
  unfold push
  rw [startsWithSlash_of_whole whole, if_neg Bool.false_ne_true]
  split <;> simp only [String.toList_append, List.mem_append] <;> tauto

theorem of_mem_text_push (path : Path) {name : String} (whole : '/' ∉ name.toList) {c : Char}
    (inside : c ∈ (path.push name).text.toList) :
    c = '/' ∨ c ∈ path.text.toList ∨ c ∈ name.toList := by
  have slash : ("/" : String).toList = ['/'] := by decide
  unfold push at inside
  rw [startsWithSlash_of_whole whole, if_neg Bool.false_ne_true] at inside
  split at inside
  · rw [String.toList_append, List.mem_append] at inside
    exact .inr inside
  · rw [String.toList_append, String.toList_append, slash, List.mem_append, List.mem_append,
      List.mem_singleton] at inside
    tauto

theorem of_mem_text_foldl_push (path : Path) {names : List String}
    (whole : ∀ name ∈ names, '/' ∉ name.toList) {c : Char}
    (inside : c ∈ (names.foldl push path).text.toList) :
    c = '/' ∨ c ∈ path.text.toList ∨ ∃ name ∈ names, c ∈ name.toList := by
  induction names generalizing path with
  | nil => exact .inr (.inl inside)
  | cons name rest ih =>
    rcases ih (path.push name) (fun other listed => whole other (List.mem_cons_of_mem _ listed))
      inside with slash | start | ⟨other, listed, here⟩
    · exact .inl slash
    · rcases of_mem_text_push path (whole name List.mem_cons_self) start with slash | start | here
      · exact .inl slash
      · exact .inr (.inl start)
      · exact .inr (.inr ⟨name, List.mem_cons_self, here⟩)
    · exact .inr (.inr ⟨other, List.mem_cons_of_mem _ listed, here⟩)

/-- The segments that lead somewhere. -/
def steps (path : Path) : List String := path.segments.filter (!isIdle ·)

/-- A character that can stand in a step stands in one. -/
theorem exists_step {path : Path} {c : Char} (inside : c ∈ path.text.toList) (not_slash : c ≠ '/')
    (not_dot : c ≠ '.') : ∃ step ∈ path.steps, c ∈ step.toList := by
  obtain ⟨piece, listed, here⟩ :=
    @Text.exists_piece (· = '/') _ _ inside (decide_eq_false not_slash)
  have here : c ∈ (String.ofList piece).toList := by rwa [String.toList_ofList]
  refine ⟨String.ofList piece, List.mem_filter.mpr ⟨List.mem_map_of_mem listed, ?_⟩, here⟩
  rw [Bool.not_eq_true', Bool.eq_false_iff]
  intro idle
  unfold isIdle at idle
  rw [Bool.or_eq_true, decide_eq_true_eq, decide_eq_true_eq] at idle
  rcases idle with same | same
  · rw [same] at here
    cases here
  · rw [same] at here
    exact not_dot (List.mem_singleton.mp here)

theorem steps_slash (first second : String) :
    steps ⟨first ++ "/" ++ second⟩ = steps ⟨first⟩ ++ steps ⟨second⟩ := by
  rw [steps, segments_slash, List.filter_append]
  rfl

theorem steps_empty : steps ⟨""⟩ = [] := by
  decide

/-- Extending a path adds the steps of the segment, which has more than one if there are slashes in
it. -/
theorem steps_push_of_relative (path : Path) {segment : String}
    (relative : startsWithSlash segment = false) :
    (path.push segment).steps = path.steps ++ steps ⟨segment⟩ := by
  obtain ⟨text⟩ := path
  unfold push
  rw [relative, if_neg Bool.false_ne_true]
  dsimp only
  split
  next short =>
    rw [Bool.or_eq_true, decide_eq_true_eq] at short
    rcases short with rfl | ends
    · rw [String.empty_append, steps_empty, List.nil_append]
    · obtain ⟨start, same⟩ := exists_slash_of_endsWithSlash ends
      obtain rfl : text = start ++ "/" := congrArg Path.text same
      have before := steps_slash start ""
      rw [String.append_empty, steps_empty, List.append_nil] at before
      rw [steps_slash, before]
  next => exact steps_slash text segment

theorem steps_of_isStep {name : String} (proper : IsStep name) : steps ⟨name⟩ = [name] := by
  rw [steps, segments_of_whole proper.whole, List.filter_cons_of_pos (by simp [proper.not_idle]),
    List.filter_nil]

theorem steps_push (path : Path) {name : String} (proper : IsStep name) :
    (path.push name).steps = path.steps ++ [name] := by
  rw [steps_push_of_relative path (startsWithSlash_of_whole proper.whole), steps_of_isStep proper]

theorem steps_foldl_push (path : Path) {names : List String}
    (proper : ∀ name ∈ names, IsStep name) :
    (names.foldl push path).steps = path.steps ++ names := by
  induction names generalizing path with
  | nil => exact (List.append_nil _).symm
  | cons name rest ih =>
    rw [List.foldl_cons, ih _ fun other listed => proper other (List.mem_cons_of_mem _ listed),
      steps_push path (proper name List.mem_cons_self), List.append_assoc]
    rfl

theorem isAbsolute_foldl_push (path : Path) {names : List String}
    (whole : ∀ name ∈ names, '/' ∉ name.toList) :
    (names.foldl push path).isAbsolute = path.isAbsolute := by
  induction names generalizing path with
  | nil => rfl
  | cons name rest ih =>
    rw [List.foldl_cons, ih _ fun other listed => whole other (List.mem_cons_of_mem _ listed),
      isAbsolute_push path (whole name List.mem_cons_self)]

theorem isStep_of_mem_steps {path : Path} {segment : String} (listed : segment ∈ path.steps) :
    IsStep segment := by
  obtain ⟨inside, not_idle⟩ := List.mem_filter.mp listed
  exact ⟨whole_of_mem_segments inside, by simpa using not_idle⟩

theorem endsWithSlash_push (path : Path) {name : String} (proper : IsStep name) :
    (path.push name).endsWithSlash = false := by
  cases ends : (path.push name).endsWithSlash with
  | false => rfl
  | true =>
    obtain ⟨start, same⟩ := exists_slash_of_endsWithSlash ends
    obtain ⟨before, trail, -, -, after⟩ := path.segments_push proper.whole
    have last := segments_slash start ""
    rw [String.append_empty, segments_empty, ← same, after] at last
    have empty : name = "" := by
      have := congrArg List.getLast? last
      rw [List.getLast?_concat, List.getLast?_concat] at this
      exact Option.some.inj this
    have not_idle := proper.not_idle
    rw [empty] at not_idle
    cases not_idle

/-- The path of the directory in which relative paths start. -/
def ofHome (home : List String) : Path := ⟨"/" ++ "/".intercalate home⟩

theorem steps_ofHome {home : List String} (proper : ∀ name ∈ home, IsStep name) :
    (ofHome home).steps = home := by
  have leading : (ofHome home).segments = "" :: segments ⟨"/".intercalate home⟩ := by
    have := segments_slash "" ("/".intercalate home)
    rw [String.empty_append, segments_empty] at this
    exact this
  have not_idle : home.filter (!isIdle ·) = home := by
    rw [List.filter_eq_self]
    intro name listed
    rw [(proper name listed).not_idle]
    rfl
  rw [steps, leading, List.filter_cons_of_neg (by decide)]
  cases home with
  | nil => decide
  | cons name rest =>
    rw [segments_intercalate (List.cons_ne_nil _ _) fun name listed => (proper name listed).whole]
    exact not_idle

theorem isAbsolute_ofHome (home : List String) : (ofHome home).isAbsolute = true := by
  unfold isAbsolute startsWithSlash ofHome
  rw [String.toList_append]
  rfl

theorem root_eq (path : Path) : path.root = ⟨"/"⟩ ∨ path.root = ⟨"//"⟩ := by
  unfold root
  split
  · exact .inl rfl
  · exact .inr rfl
  · exact .inl rfl

theorem steps_root (path : Path) : path.root.steps = [] := by
  rcases path.root_eq with same | same <;> rw [same] <;> decide

theorem isAbsolute_root (path : Path) : path.root.isAbsolute = true := by
  rcases path.root_eq with same | same <;> rw [same] <;> decide

/-- Where the absolute form of a path starts. -/
def base (home : List String) (path : Path) : Path :=
  if path.isAbsolute then path.root else ofHome home

theorem absolute_eq {home : List String} {path : Path} (no_slash : path.endsWithSlash = false) :
    absolute (ofHome home) path = path.steps.foldl push (base home path) := by
  unfold absolute
  rw [no_slash, if_neg Bool.false_ne_true]
  rfl

theorem isAbsolute_base (home : List String) (path : Path) :
    (base home path).isAbsolute = true := by
  unfold base
  split
  · exact path.isAbsolute_root
  · exact isAbsolute_ofHome home

theorem steps_base {home : List String} (proper : ∀ name ∈ home, IsStep name) (path : Path) :
    (base home path).steps = if path.isAbsolute then [] else home := by
  unfold base
  split
  · exact path.steps_root
  · exact steps_ofHome proper

/-- A slash at the end is kept as an empty segment, which is no step. -/
theorem absolute_cases (home : List String) (path : Path) :
    absolute (ofHome home) path = path.steps.foldl push (base home path) ∨
      absolute (ofHome home) path = (path.steps.foldl push (base home path)).push "" := by
  cases ends : path.endsWithSlash with
  | false => exact .inl (absolute_eq ends)
  | true =>
    refine .inr ?_
    unfold absolute
    rw [ends, if_pos rfl]
    rfl

theorem steps_absolute {home : List String} (proper : ∀ name ∈ home, IsStep name) (path : Path) :
    (absolute (ofHome home) path).steps = (if path.isAbsolute then [] else home) ++ path.steps := by
  have folded : (path.steps.foldl push (base home path)).steps =
      (if path.isAbsolute then [] else home) ++ path.steps := by
    rw [steps_foldl_push _ fun _ => isStep_of_mem_steps, steps_base proper]
  rcases absolute_cases home path with same | same
  · rw [same, folded]
  · rw [same, steps_push_of_relative _ (by decide), steps_empty, List.append_nil, folded]

theorem isAbsolute_absolute (home : List String) (path : Path) :
    (absolute (ofHome home) path).isAbsolute = true := by
  have folded : (path.steps.foldl push (base home path)).isAbsolute = true := by
    rw [isAbsolute_foldl_push _ fun _ listed => (isStep_of_mem_steps listed).whole]
    exact isAbsolute_base home path
  rcases absolute_cases home path with same | same
  · rw [same, folded]
  · rw [same, isAbsolute_push_of_relative _ (by decide), folded]

theorem of_mem_text_ofHome {home : List String} {c : Char}
    (inside : c ∈ (ofHome home).text.toList) : c = '/' ∨ ∃ name ∈ home, c ∈ name.toList := by
  have slash : ("/" : String).toList = ['/'] := by decide
  unfold ofHome at inside
  rw [String.toList_append, slash, List.mem_append, List.mem_singleton] at inside
  rcases inside with same | inside
  · exact .inl same
  · induction home with
    | nil => cases inside
    | cons name rest ih =>
      cases rest with
      | nil =>
        rw [String.intercalate_singleton] at inside
        exact .inr ⟨name, List.mem_cons_self, inside⟩
      | cons next others =>
        rw [String.intercalate_cons_cons, String.toList_append, String.toList_append, slash,
          List.mem_append, List.mem_append, List.mem_singleton] at inside
        rcases inside with (here | same) | later
        · exact .inr ⟨name, List.mem_cons_self, here⟩
        · exact .inl same
        · rcases ih later with same | ⟨other, listed, here⟩
          · exact .inl same
          · exact .inr ⟨other, List.mem_cons_of_mem _ listed, here⟩

/-- An absolute path has no other characters than the home directory and the path itself. -/
theorem of_mem_text_absolute {home : List String} {path : Path}
    (no_slash : path.endsWithSlash = false) {c : Char}
    (inside : c ∈ (absolute (ofHome home) path).text.toList) :
    c = '/' ∨ (∃ name ∈ home, c ∈ name.toList) ∨ c ∈ path.text.toList := by
  rw [absolute_eq no_slash] at inside
  rcases of_mem_text_foldl_push _ (fun _ listed => (isStep_of_mem_steps listed).whole) inside with
    slash | start | ⟨segment, listed, here⟩
  · exact .inl slash
  · unfold base at start
    split at start
    · left
      rcases path.root_eq with same | same <;> rw [same] at start <;> simpa using start
    · exact (of_mem_text_ofHome start).imp_right .inl
  · exact .inr (.inr (mem_text_of_mem_segments (List.mem_filter.mp listed).1 here))

/-- The last name stays last. -/
theorem absolute_push {home : List String} (path : Path) {name : String} (proper : IsStep name) :
    ∃ start : Path, absolute (ofHome home) (path.push name) = start.push name := by
  refine ⟨path.steps.foldl push (base home (path.push name)), ?_⟩
  rw [absolute_eq (endsWithSlash_push path proper), steps_push path proper, List.foldl_append]
  rfl

theorem trimmed_concat (segments : List String) {name : String} (not_idle : isIdle name = false) :
    trimmed (segments ++ [name]) = segments ++ [name] := by
  cases segments with
  | nil => rfl
  | cons first rest =>
    rw [List.cons_append, trimmed, List.reverse_concat,
      List.dropWhile_cons_of_neg (by simp [not_idle]), List.reverse_cons, List.reverse_reverse]

theorem name?_of_segments {path : Path} {start : List String} {name : String}
    (ends : path.segments = start ++ [name]) (proper : IsName name) : path.name? = some name := by
  have not_idle := proper.not_idle
  unfold isIdle at not_idle
  simp only [Bool.or_eq_false_iff, decide_eq_false_iff_not] at not_idle
  unfold name?
  rw [ends, trimmed_concat start proper.not_idle, List.getLast?_concat, Option.filter_some]
  simp [not_idle, proper.not_climbing]

theorem name?_push (path : Path) {name : String} (proper : IsName name) :
    (path.push name).name? = some name := by
  obtain ⟨start, -, -, -, ends⟩ := path.segments_push proper.whole
  exact name?_of_segments ends proper

/-- A name is taken apart at the last dot that is not its first character. -/
theorem splitAtDot_append {stem : List Char} (nonempty : stem ≠ []) {extension : List Char}
    (no_dot : '.' ∉ extension) :
    splitAtDot (stem ++ '.' :: extension) = (stem, some extension) := by
  have reversed : (stem ++ '.' :: extension).reverse =
      extension.reverse ++ '.' :: stem.reverse := by
    simp
  have passes : ∀ c ∈ extension.reverse, decide (c ≠ '.') = true := by
    intro c inside
    rw [decide_eq_true_eq]
    rintro rfl
    exact no_dot (List.mem_reverse.mp inside)
  have dropped : (extension.reverse ++ '.' :: stem.reverse).dropWhile (· ≠ '.') =
      '.' :: stem.reverse := by
    rw [List.dropWhile_append_of_pos passes, List.dropWhile_cons_of_neg (by simp)]
  have taken : (extension.reverse ++ '.' :: stem.reverse).takeWhile (· ≠ '.') =
      extension.reverse := by
    rw [List.takeWhile_append_of_pos passes, List.takeWhile_cons_of_neg (by simp), List.append_nil]
  unfold splitAtDot
  rw [reversed, dropped, taken, List.reverse_reverse]
  split
  next empty => cases empty
  next alone =>
    exact absurd (List.reverse_eq_nil_iff.mp (List.cons.inj alone).2) nonempty
  next same =>
    rw [← (List.cons.inj same).2, List.reverse_reverse]

theorem filter_trimmed (segments : List String) :
    (trimmed segments).filter (!isIdle ·) = segments.filter (!isIdle ·) := by
  have kept : ∀ rest : List String,
      (rest.reverse.dropWhile isIdle).reverse.filter (!isIdle ·) = rest.filter (!isIdle ·) := by
    intro rest
    induction rest using List.reverseRecOn with
    | nil => rfl
    | append_singleton rest last ih =>
      rw [List.reverse_concat]
      by_cases idle : isIdle last = true
      · rw [List.dropWhile_cons_of_pos idle, ih, List.filter_append,
          List.filter_cons_of_neg (by simp [idle]), List.filter_nil, List.append_nil]
      · rw [List.dropWhile_cons_of_neg idle, List.reverse_cons, List.reverse_reverse]
  cases segments with
  | nil => rfl
  | cons first rest => rw [trimmed, List.filter_cons, List.filter_cons, kept]

/-- Segments make a path with the same steps, which is absolute when the first segment is empty. -/
theorem ofSegments_spec {first : String} {rest : List String}
    (whole : ∀ segment ∈ first :: rest, '/' ∉ segment.toList) :
    (ofSegments (first :: rest)).steps = (first :: rest).filter (!isIdle ·) ∧
      ((ofSegments (first :: rest)).isAbsolute = true ↔ first = "") := by
  unfold ofSegments
  split
  next root =>
    obtain ⟨rfl, rfl⟩ := List.cons.inj root
    exact ⟨by decide, by decide⟩
  next not_root =>
    have segments_eq := segments_intercalate (List.cons_ne_nil first rest) whole
    refine ⟨by rw [steps, segments_eq], ?_⟩
    rw [isAbsolute_iff, segments_eq]
    constructor
    · rintro ⟨_, -, same⟩
      exact (List.cons.inj same).1
    · rintro rfl
      refine ⟨rest, fun empty => not_root (by rw [empty]), rfl⟩

theorem mem_of_mem_trimmed {segments : List String} {segment : String}
    (listed : segment ∈ trimmed segments) : segment ∈ segments := by
  cases segments with
  | nil => exact listed
  | cons first rest =>
    rw [trimmed, List.mem_cons] at listed
    rcases listed with rfl | inside
    · exact List.mem_cons_self
    · have kept := (List.dropWhile_sublist isIdle).subset (List.mem_reverse.mp inside)
      exact List.mem_cons_of_mem _ (List.mem_reverse.mp kept)

/-- Above a single name there is the empty path. -/
theorem parent?_of_single {path : Path} {name : String} (alone : path.segments = [name])
    (proper : IsStep name) : path.parent? = some ⟨""⟩ ∧ path.isAbsolute = false := by
  constructor
  · have kept := trimmed_concat [] proper.not_idle
    rw [List.nil_append] at kept
    unfold parent?
    rw [alone, kept]
    split
    next empty => cases empty
    next root => exact absurd (List.cons.inj root).1 proper.ne_empty
    next => rfl
    next _ more => exact absurd rfl (more name)
  · rw [Bool.eq_false_iff]
    intro absolute
    obtain ⟨rest, -, same⟩ := isAbsolute_iff.mp absolute
    rw [alone] at same
    exact proper.ne_empty (List.cons.inj same).1

theorem parent?_of_longer {path : Path} {first : String} {rest : List String} {name : String}
    (ends : path.segments = first :: rest ++ [name]) (proper : IsStep name) :
    path.parent? = some (ofSegments (trimmed (first :: rest))) := by
  unfold parent?
  rw [ends, trimmed_concat (first :: rest) proper.not_idle, List.cons_append]
  split
  next empty => cases empty
  next root => exact absurd (List.cons.inj root).2 (by simp)
  next alone => exact absurd (List.cons.inj alone).2 (by simp)
  next => rw [← List.cons_append, List.dropLast_concat]

/-- The parent has the steps before the last one. -/
theorem parent?_of_segments {path : Path} {start : List String} {name : String}
    (ends : path.segments = start ++ [name]) (proper : IsStep name) :
    ∃ parent, path.parent? = some parent ∧ parent.steps = start.filter (!isIdle ·) ∧
      parent.isAbsolute = path.isAbsolute := by
  cases start with
  | nil =>
    obtain ⟨found, relative⟩ := parent?_of_single ends proper
    refine ⟨⟨""⟩, found, by decide, ?_⟩
    rw [relative]
    decide
  | cons first rest =>
    have whole : ∀ segment ∈ trimmed (first :: rest), '/' ∉ segment.toList := by
      intro segment listed
      refine @whole_of_mem_segments path segment ?_
      rw [ends]
      exact List.mem_append_left _ (mem_of_mem_trimmed listed)
    obtain ⟨same_steps, absolute⟩ := ofSegments_spec whole
    refine ⟨_, parent?_of_longer ends proper, ?_, ?_⟩
    · rw [← filter_trimmed]
      exact same_steps
    · rw [Bool.eq_iff_iff, @isAbsolute_iff path, ends]
      refine absolute.trans ⟨?_, ?_⟩
      · rintro rfl
        exact ⟨rest ++ [name], by simp, rfl⟩
      · rintro ⟨_, -, same⟩
        exact (List.cons.inj same).1

/-- Another name in the place of the last one changes the last step only. -/
theorem withName_push (path : Path) {name other : String} (proper : IsName name)
    (other_proper : IsStep other) :
    ((path.push name).withName other).steps = path.steps ++ [other] ∧
      ((path.push name).withName other).isAbsolute = path.isAbsolute := by
  obtain ⟨start, trail, before, idle, ends⟩ := path.segments_push proper.whole
  obtain ⟨parent, found, same_steps, same_start⟩ := parent?_of_segments ends proper.toIsStep
  have steps_before : parent.steps = path.steps := by
    have := steps_push path proper.toIsStep
    rw [steps, ends, List.filter_append, ← same_steps,
      List.filter_cons_of_pos (by simp [proper.not_idle])] at this
    exact List.append_cancel_right this
  unfold withName
  rw [name?_push path proper, found]
  dsimp only [Option.getD_some]
  constructor
  · rw [steps_push parent other_proper, steps_before]
  · rw [isAbsolute_push parent other_proper.whole, same_start, isAbsolute_push path proper.whole]

end Path

end ResourceModels
