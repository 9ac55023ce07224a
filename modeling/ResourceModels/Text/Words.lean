import ResourceModels.Text.Character

/-!
# Words of a name and their spellings

A name is split at every character that is neither a letter nor a number, and inside such a
piece where a lower case letter is followed by an upper case one (`podIP` is `pod`, `IP`) and
before the last of several upper case letters that a lower case one follows (`APIGroup` is
`API`, `Group`). Digits take part in no boundary of their own.
-/

namespace ResourceModels.Text

/-- The case of the last letter of the word being read. -/
inductive Run where
  | start
  | lower
  | upper
  deriving DecidableEq, Repr

/-- The words of a piece of letters and numbers. `word` holds the characters of the current word,
last first. -/
def wordsOfPiece (run : Run) (word : List Char) : List Char → List (List Char)
  | [] => []
  | [c] => [(c :: word).reverse]
  | c :: next :: rest =>
    let after := if isLowercase c then .lower else if isUppercase c then .upper else run
    if after = .lower && isUppercase next then
      (c :: word).reverse :: wordsOfPiece .start [] (next :: rest)
    else if run = .upper && isUppercase c && isLowercase next then
      word.reverse :: wordsOfPiece .start [c] (next :: rest)
    else wordsOfPiece after (c :: word) (next :: rest)

/-- Split at every character for which `separates` holds; pieces may be empty. -/
def pieces (separates : Char → Bool) : List Char → List (List Char)
  | [] => [[]]
  | c :: rest =>
    match pieces separates rest with
    | [] => [[c]]
    | piece :: more => if separates c then [] :: piece :: more else (c :: piece) :: more

def words (text : List Char) : List (List Char) :=
  (pieces (fun c => !isAlphanumeric c) text).flatMap (wordsOfPiece .start [])

def uppercase (word : List Char) : List Char := word.flatMap toUpper

/-- Capital sigma at the end of a word has a lower case form of its own. -/
def lowercase : List Char → List Char
  | [] => []
  | ['Σ'] => ['ς']
  | c :: rest => toLower c ++ lowercase rest

def capitalize : List Char → List Char
  | [] => []
  | c :: rest => toUpper c ++ lowercase rest

/-- Every word capitalised: `ApiVersion`. -/
def pascalCase (text : List Char) : List Char := (words text).flatMap capitalize

/-- Every word but the first capitalised: `apiVersion`. -/
def camelCase (text : List Char) : List Char :=
  match words text with
  | [] => []
  | first :: rest => lowercase first ++ rest.flatMap capitalize

/-- Words in lower case with underscores between: `api_version`. -/
def snakeCase (text : List Char) : List Char :=
  ['_'].intercalate ((words text).map lowercase)

/-- Words in upper case with underscores between: `API_VERSION`. -/
def screamingSnakeCase (text : List Char) : List Char :=
  ['_'].intercalate ((words text).map uppercase)

end ResourceModels.Text
