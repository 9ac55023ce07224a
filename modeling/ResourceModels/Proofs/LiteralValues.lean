import Mathlib
import ResourceModels.Proofs.StringLiterals

/-!
# JSON values read back from source

The source of a JSON value is one expression on one line, made of names for null and the truth
values, numbers, strings, lists and mappings. Reading it gives the value back, a number by its text,
with all members in their order (`value_denotes`). Every number is written as a number of the
language: digits with a point or an exponent, and without leading zeros where it is whole.
-/

namespace ResourceModels.Code

/-- What may follow the digits and the point of a number: nothing, or an exponent. -/
def isExponent : List Char → Bool
  | [] => true
  | mark :: rest =>
    let digits :=
      match rest with
      | sign :: more => if sign = '+' || sign = '-' then more else rest
      | [] => []
    (mark = 'e' || mark = 'E') && !digits.isEmpty && digits.all Char.isDigit

/-- Whether a text is a number without a sign: a whole number starts with no zero unless it is
zero. -/
def isUnsignedNumber (text : List Char) : Bool :=
  let whole := text.takeWhile Char.isDigit
  match text.dropWhile Char.isDigit with
  | [] => !whole.isEmpty && (whole.head? ≠ some '0' || whole.all (· = '0'))
  | '.' :: rest =>
    (!whole.isEmpty || !(rest.takeWhile Char.isDigit).isEmpty) &&
      isExponent (rest.dropWhile Char.isDigit)
  | rest => !whole.isEmpty && isExponent rest

def isNumber : List Char → Bool
  | [] => false
  | c :: rest => if c = '-' then isUnsignedNumber rest else isUnsignedNumber (c :: rest)

/-- The characters that numbers are made of. -/
def isNumberChar (c : Char) : Bool :=
  c.isDigit || c = '.' || c = 'e' || c = 'E' || c = '+' || c = '-'

/-- Digits, at least one. -/
structure Digits (text : List Char) : Prop where
  nonempty : text ≠ []
  digits : ∀ c ∈ text, c.isDigit = true

theorem takeWhile_apart {kind : Char → Bool} {text rest : List Char}
    (inside : ∀ c ∈ text, kind c = true) (ends : StartsWithout kind rest) :
    (text ++ rest).takeWhile kind = text := by
  rw [List.takeWhile_append_of_pos inside]
  cases rest with
  | nil => simp
  | cons c rest => simp [ends c rfl]

theorem dropWhile_apart {kind : Char → Bool} {text rest : List Char}
    (inside : ∀ c ∈ text, kind c = true) (ends : StartsWithout kind rest) :
    (text ++ rest).dropWhile kind = rest := by
  rw [List.dropWhile_append_of_pos inside]
  exact dropWhile_of_startsWithout ends

theorem Digits.append {first second : List Char} (left : Digits first)
    (right : ∀ c ∈ second, c.isDigit = true) : Digits (first ++ second) where
  nonempty := List.append_ne_nil_of_left_ne_nil left.nonempty _
  digits := List.forall_mem_append.mpr ⟨left.digits, right⟩

theorem decimalDigits_eq (n : Nat) : Number.decimalDigits n =
    if n < 10 then [Nat.digitChar n]
    else Number.decimalDigits (n / 10) ++ [Nat.digitChar (n % 10)] := by
  unfold Number.decimalDigits
  split_ifs with small
  · exact Nat.toDigits_of_lt_base small
  · have last := Nat.toDigits_of_lt_base (Nat.mod_lt n (show 0 < 10 by decide))
    rw [← last, Nat.toDigits_append_toDigits (by decide) (by omega) (Nat.mod_lt _ (by decide)),
      Nat.div_add_mod]

theorem digits_decimalDigits (n : Nat) : Digits (Number.decimalDigits n) where
  nonempty := by
    rw [decimalDigits_eq]
    split_ifs
    · exact List.cons_ne_nil _ _
    · exact List.append_ne_nil_of_right_ne_nil _ (List.cons_ne_nil _ _)
  digits := fun _ inside => Nat.isDigit_of_mem_toDigits (by decide) (by decide) inside

/-- No number but zero starts with a zero. -/
theorem eq_zero_of_head? {n : Nat} (zero : (Number.decimalDigits n).head? = some '0') :
    n = 0 := by
  induction n using Nat.strongRecOn with
  | ind n ih =>
    rw [decimalDigits_eq] at zero
    split_ifs at zero with small
    · have only_zero : ∀ digit < 10, Nat.digitChar digit = '0' → digit = 0 := by decide
      exact only_zero n small (Option.some.inj zero)
    · rw [List.head?_append_of_ne_nil _ (digits_decimalDigits _).nonempty] at zero
      have above := ih (n / 10) (by omega) zero
      omega

/-- Digits with a point among them or behind them, and perhaps an exponent. -/
theorem isUnsignedNumber_point {whole fraction exponent : List Char} (left : Digits whole)
    (right : ∀ c ∈ fraction, c.isDigit = true) (ends : StartsWithout Char.isDigit exponent)
    (follows : isExponent exponent = true) :
    isUnsignedNumber (whole ++ '.' :: (fraction ++ exponent)) = true := by
  have point : StartsWithout Char.isDigit ('.' :: (fraction ++ exponent)) :=
    startsWithout_cons rfl _
  unfold isUnsignedNumber
  rw [takeWhile_apart left.digits point, dropWhile_apart left.digits point]
  simp [dropWhile_apart right ends, follows, left.nonempty]

theorem isUnsignedNumber_exponent {whole exponent : List Char} (left : Digits whole)
    (follows : isExponent ('e' :: exponent) = true) :
    isUnsignedNumber (whole ++ 'e' :: exponent) = true := by
  have mark : StartsWithout Char.isDigit ('e' :: exponent) := startsWithout_cons rfl exponent
  unfold isUnsignedNumber
  rw [takeWhile_apart left.digits mark, dropWhile_apart left.digits mark]
  simp [follows, left.nonempty]

theorem digit_zero_of_mem {n : Nat} {c : Char} (inside : c ∈ List.replicate n '0') :
    c.isDigit = true := by
  rw [List.eq_of_mem_replicate inside]
  rfl

theorem isExponent_signed (lead : Int) :
    isExponent ('e' :: (if 0 ≤ lead then '+' else '-') :: Number.decimalDigits lead.natAbs) =
      true := by
  obtain ⟨nonempty, digits⟩ := digits_decimalDigits lead.natAbs
  have all_digits : (Number.decimalDigits lead.natAbs).all Char.isDigit = true :=
    List.all_eq_true.mpr digits
  split_ifs <;> simp [isExponent, all_digits, nonempty]

/-- Both ways of laying out digits make a number. -/
theorem isUnsignedNumber_layDigits (layout : RealLayout) {digits : List Char}
    (given : Digits digits) (lead : Int) :
    isUnsignedNumber (Number.layDigits layout digits lead) = true := by
  have dropped : ∀ n, ∀ c ∈ digits.drop n, c.isDigit = true :=
    fun n c inside => given.digits c (List.mem_of_mem_drop inside)
  have taken : ∀ n, Digits (digits.take (n + 1)) := fun n =>
    ⟨by simp [given.nonempty], fun c inside => given.digits c (List.mem_of_mem_take inside)⟩
  unfold Number.layDigits
  split
  next =>
    cases lead with
    | ofNat k =>
      have whole : Digits (digits.take (k + 1) ++ List.replicate (k + 1 - digits.length) '0') :=
        (taken k).append fun c => digit_zero_of_mem
      have fraction : ∀ c ∈ (if (digits.drop (k + 1)).isEmpty then ['0'] else digits.drop (k + 1)),
          c.isDigit = true := by
        split
        · simp
        · exact dropped (k + 1)
      have number := isUnsignedNumber_point whole fraction (startsWithout_nil _) rfl
      rwa [List.append_nil] at number
    | negSucc k =>
      have fraction : ∀ c ∈ List.replicate k '0' ++ digits, c.isDigit = true :=
        List.forall_mem_append.mpr ⟨fun c => digit_zero_of_mem, given.digits⟩
      have zero : Digits ['0'] := ⟨by simp, by simp⟩
      have number := isUnsignedNumber_point zero fraction (startsWithout_nil _) rfl
      rwa [List.append_nil] at number
  next =>
    have exponent := isExponent_signed lead
    dsimp only
    cases fraction_eq : digits.drop 1 with
    | nil =>
      rw [List.isEmpty_nil, if_pos rfl, List.append_nil]
      exact isUnsignedNumber_exponent (taken 0) exponent
    | cons c fraction =>
      have number := isUnsignedNumber_point (taken 0) (fraction_eq ▸ dropped 1)
        (startsWithout_cons rfl _) exponent
      rw [List.isEmpty_cons, if_neg Bool.false_ne_true, List.append_assoc]
      exact number

theorem isUnsignedNumber_decimalDigits (n : Nat) :
    isUnsignedNumber (Number.decimalDigits n) = true := by
  have digits := digits_decimalDigits n
  have whole := takeWhile_apart digits.digits (startsWithout_nil Char.isDigit)
  have rest := dropWhile_apart digits.digits (startsWithout_nil Char.isDigit)
  rw [List.append_nil] at whole rest
  unfold isUnsignedNumber
  rw [whole, rest]
  by_cases zero : n = 0
  · subst zero
    rfl
  · have head : (Number.decimalDigits n).head? ≠ some '0' :=
      fun starts => zero (eq_zero_of_head? starts)
    simp [head, digits.nonempty]

theorem isNumber_minus {text : List Char} (number : isUnsignedNumber text = true) :
    isNumber ('-' :: text) = true := number

theorem isNumber_of_isUnsignedNumber {text : List Char} (number : isUnsignedNumber text = true) :
    isNumber text = true := by
  cases text with
  | nil => exact absurd number (by decide)
  | cons c rest =>
    have other : c ≠ '-' := by
      rintro rfl
      exact absurd number (by simp [isUnsignedNumber])
    rw [isNumber, if_neg other, number]

/-- Every number is written as one. -/
theorem isNumber_text (number : Number) : isNumber number.text = true := by
  cases number with
  | integer value =>
    cases value with
    | ofNat n => exact isNumber_of_isUnsignedNumber (isUnsignedNumber_decimalDigits n)
    | negSucc n => exact isNumber_minus (isUnsignedNumber_decimalDigits (n + 1))
  | real value =>
    have zero : isUnsignedNumber ['0', '.', '0'] = true := rfl
    have laid := isUnsignedNumber_layDigits Number.realLayout
      (digits_decimalDigits (Decimal.shortest value.steps).digits)
    rw [Number.text, Number.realText]
    dsimp only
    split_ifs
    · exact isNumber_minus zero
    · exact isNumber_minus (laid _)
    · exact isNumber_of_isUnsignedNumber zero
    · exact isNumber_of_isUnsignedNumber (laid _)

theorem isNumberChar_of_isDigit {c : Char} (digit : c.isDigit = true) : isNumberChar c = true := by
  simp [isNumberChar, digit]

theorem isNumberChar_of_isExponent {text : List Char} (exponent : isExponent text = true) :
    ∀ c ∈ text, isNumberChar c = true := by
  cases text with
  | nil => exact fun _ absent => by cases absent
  | cons mark rest =>
    unfold isExponent at exponent
    simp only [Bool.and_eq_true, Bool.or_eq_true, decide_eq_true_eq, List.all_eq_true] at exponent
    obtain ⟨⟨is_mark, -⟩, digits⟩ := exponent
    refine List.forall_mem_cons.mpr ⟨by rcases is_mark with rfl | rfl <;> rfl, ?_⟩
    cases rest with
    | nil => exact fun _ absent => by cases absent
    | cons sign more =>
      dsimp only at digits
      split_ifs at digits with signed
      · have here : isNumberChar sign = true := by
          rcases signed with rfl | rfl <;> rfl
        exact List.forall_mem_cons.mpr
          ⟨here, fun c inside => isNumberChar_of_isDigit (digits c inside)⟩
      · exact fun c inside => isNumberChar_of_isDigit (digits c inside)

theorem isNumberChar_of_isUnsignedNumber {text : List Char}
    (number : isUnsignedNumber text = true) : ∀ c ∈ text, isNumberChar c = true := by
  have digits : ∀ text : List Char, ∀ c ∈ text.takeWhile Char.isDigit, isNumberChar c = true :=
    fun _ c inside => isNumberChar_of_isDigit (List.mem_takeWhile_imp inside)
  rw [← List.takeWhile_append_dropWhile (p := Char.isDigit) (l := text)]
  refine List.forall_mem_append.mpr ⟨digits text, ?_⟩
  unfold isUnsignedNumber at number
  dsimp only at number
  split at number
  next none_left =>
    rw [none_left]
    exact fun _ absent => by cases absent
  next rest point =>
    rw [Bool.and_eq_true] at number
    rw [point, ← List.takeWhile_append_dropWhile (p := Char.isDigit) (l := rest)]
    exact List.forall_mem_cons.mpr ⟨rfl, List.forall_mem_append.mpr
      ⟨digits rest, isNumberChar_of_isExponent number.2⟩⟩
  next =>
    rw [Bool.and_eq_true] at number
    exact isNumberChar_of_isExponent number.2

theorem isNumberChar_of_isNumber {text : List Char} (number : isNumber text = true) :
    ∀ c ∈ text, isNumberChar c = true := by
  cases text with
  | nil => exact fun _ absent => by cases absent
  | cons c rest =>
    rw [isNumber] at number
    split_ifs at number with minus
    · exact List.forall_mem_cons.mpr ⟨minus ▸ rfl, isNumberChar_of_isUnsignedNumber number⟩
    · exact isNumberChar_of_isUnsignedNumber number

theorem line_of_isNumber {text : List Char} (number : isNumber text = true) :
    ∀ c ∈ text, breaksLine c = false := by
  intro c inside
  have number_char := isNumberChar_of_isNumber number c inside
  by_contra breaks
  rw [Bool.not_eq_false, breaksLine, Bool.or_eq_true, Bool.or_eq_true, decide_eq_true_eq,
    decide_eq_true_eq, decide_eq_true_eq] at breaks
  rcases breaks with (rfl | rfl) | rfl <;> cases number_char

/-- Elements with commas between them, up to the closing bracket. A comma may follow the last
one. -/
def readSeries? {α : Type} (element : List Char → Option (α × List Char)) (close : Char) :
    Nat → List Char → Option (List α × List Char)
  | 0, _ => none
  | _, [] => none
  | fuel + 1, c :: text =>
    if c = close then some ([], text)
    else
      match element (c :: text) with
      | none => none
      | some (value, rest) =>
        match skip rest with
        | [] => none
        | mark :: after =>
          if mark = ',' then
            (readSeries? element close fuel (skip after)).map fun (values, after) =>
              (value :: values, after)
          else if mark = close then some ([value], after)
          else none

theorem readSeries?_step {α : Type} {element : List Char → Option (α × List Char)}
    {close c mark : Char} {text rest after : List Char} {value : α} (other : c ≠ close)
    (read : element (c :: text) = some (value, rest)) (behind : skip rest = mark :: after)
    (fuel : Nat) :
    readSeries? element close (fuel + 1) (c :: text) =
      if mark = ',' then
        (readSeries? element close fuel (skip after)).map fun (values, after) =>
          (value :: values, after)
      else if mark = close then some ([value], after)
      else none := by
  rw [readSeries?, if_neg other, read]
  dsimp only
  rw [behind]

/-- A row whose elements are read, each in front of a comma and in front of what ends the row. -/
theorem readSeries?_intercalate {α : Type} {element : List Char → Option (α × List Char)}
    {close : Char} {stands : List Char → α → Prop} {ending rest : List Char}
    (comma : ∀ source value, stands source value → ∀ after fuel,
      readSeries? element close (fuel + 1) (skip (source ++ ',' :: after)) =
        (readSeries? element close fuel (skip after)).map fun (values, after) =>
          (value :: values, after))
    (last : ∀ source value, stands source value → ∀ fuel,
      readSeries? element close (fuel + 1) (skip (source ++ ending)) = some ([value], rest))
    (none_left : ∀ fuel, readSeries? element close (fuel + 1) (skip ending) = some ([], rest))
    {sources : List (List Char)} {values : List α} (each : List.Forall₂ stands sources values)
    {fuel : Nat} (enough : sources.length < fuel) :
    readSeries? element close fuel (skip ([',', ' '].intercalate sources ++ ending)) =
      some (values, rest) := by
  induction each generalizing fuel with
  | nil =>
    obtain ⟨fuel, rfl⟩ := Nat.exists_eq_succ_of_ne_zero (Nat.ne_zero_of_lt enough)
    exact none_left fuel
  | @cons source value sources values first more ih =>
    obtain ⟨fuel, rfl⟩ := Nat.exists_eq_succ_of_ne_zero (Nat.ne_zero_of_lt enough)
    cases more with
    | nil =>
      rw [List.intercalate_singleton]
      exact last source value first fuel
    | cons second more =>
      have later := ih (Nat.lt_of_succ_lt_succ enough)
      rw [List.intercalate_cons_cons, List.append_assoc, List.append_assoc, List.cons_append,
        comma source value first, List.singleton_append, skip_space, later, Option.map_some]

/-- A value as source denotes it: a number is its text, and the entries of a mapping are in
order. -/
inductive Literal where
  | null
  | bool (value : Bool)
  | number (text : List Char)
  | string (text : String)
  | list (items : List Literal)
  | dict (entries : List (String × Literal))

namespace Literal

mutual

def ofJson : Json → Literal
  | .null => .null
  | .bool value => .bool value
  | .number value => .number value.text
  | .string text => .string text
  | .array items => .list (ofItems items)
  | .object members => .dict (ofMembers members)

def ofItems : List Json → List Literal
  | [] => []
  | item :: items => ofJson item :: ofItems items

def ofMembers : List (String × Json) → List (String × Literal)
  | [] => []
  | (key, value) :: members => (key, ofJson value) :: ofMembers members

end

def name? (name : List Char) : Option Literal :=
  if name = "None".toList then some .null
  else if name = "True".toList then some (.bool true)
  else if name = "False".toList then some (.bool false)
  else none

/-- A key and the value behind it. -/
def readMember? {α : Type} (element : List Char → Option (α × List Char)) (text : List Char) :
    Option ((String × α) × List Char) :=
  match readStrings? text.length text with
  | none => none
  | some (key, rest) =>
    match skip rest with
    | [] => none
    | c :: more =>
      if c = ':' then
        (element (skip more)).map fun (value, after) => ((String.ofList key, value), after)
      else none

/-- A value at the start of a text, and what stands behind it. The number bounds how deep values
are nested. -/
def readValue? : Nat → List Char → Option (Literal × List Char)
  | 0, _ => none
  | _, [] => none
  | depth + 1, c :: rest =>
    if c = '[' then
      (readSeries? (readValue? depth) ']' rest.length (skip rest)).map fun (items, after) =>
        (.list items, after)
    else if c = '{' then
      (readSeries? (readMember? (readValue? depth)) '}' rest.length (skip rest)).map
        fun (entries, after) => (.dict entries, after)
    else if isQuote c then
      (readStrings? (c :: rest).length (c :: rest)).map fun (text, after) =>
        (.string (String.ofList text), after)
    else if isNumberChar c then
      let number := (c :: rest).takeWhile isNumberChar
      if isNumber number then some (.number number, (c :: rest).dropWhile isNumberChar) else none
    else
      (name? ((c :: rest).takeWhile Char.isAlpha)).map fun value =>
        (value, (c :: rest).dropWhile Char.isAlpha)

/-- The value of a text that is nothing else. -/
def read? (source : String) : Option Literal :=
  match readValue? (source.length + 1) source.toList with
  | some (value, []) => some value
  | _ => none

end Literal

/-- What can stand behind a value in source. -/
def Ended (rest : List Char) : Prop := ∀ c, rest.head? = some c → c ∈ [',', ':', ']', '}']

theorem ended_nil : Ended [] := fun _ absent => by cases absent

theorem ended_cons {c : Char} (ends : c ∈ [',', ':', ']', '}']) (rest : List Char) :
    Ended (c :: rest) := fun _ same => Option.some.inj same ▸ ends

theorem Ended.startsWithout {kind : Char → Bool} {rest : List Char} (ended : Ended rest)
    (other : ∀ c ∈ [',', ':', ']', '}'], kind c = false) : StartsWithout kind rest :=
  fun c starts => other c (ended c starts)

theorem skip_of_startsWithout {rest : List Char} (solid : StartsWithout isSpace rest) :
    skip rest = rest := dropWhile_of_startsWithout solid

theorem Ended.skip_eq {rest : List Char} (ended : Ended rest) : skip rest = rest :=
  skip_of_startsWithout (ended.startsWithout (by simp [isSpace]))

theorem Ended.no_quote {rest : List Char} (ended : Ended rest) :
    StartsWithout isQuote (skip rest) := by
  rw [ended.skip_eq]
  exact ended.startsWithout (by simp [isQuote])

/-- The source of an element starts with no blank and no closing bracket. -/
def Opens (source : List Char) : Prop :=
  ∃ c more, source = c :: more ∧ isSpace c = false ∧ c ≠ ']' ∧ c ≠ '}'

theorem Opens.skip_append {source : List Char} (opens : Opens source) (rest : List Char) :
    skip (source ++ rest) = source ++ rest := by
  obtain ⟨c, more, rfl, solid, -⟩ := opens
  exact skip_of_startsWithout (startsWithout_cons solid _)

/-- The source is one line, and stands for the value wherever it ends. -/
structure Reads {α : Type} (reader : List Char → Option (α × List Char)) (source : List Char)
    (value : α) : Prop where
  opens : Opens source
  line : ∀ c ∈ source, breaksLine c = false
  reads : ∀ rest, Ended rest → reader (source ++ rest) = some (value, rest)

theorem length_le_intercalate (sep : List Char) {source : List Char} {sources : List (List Char)}
    (inside : source ∈ sources) : source.length ≤ (sep.intercalate sources).length := by
  induction sources with
  | nil => cases inside
  | cons first more ih =>
    cases more with
    | nil => simp_all
    | cons next more =>
      rw [List.intercalate_cons_cons, List.length_append, List.length_append]
      rcases List.mem_cons.mp inside with rfl | later
      · omega
      · have := ih later
        omega

theorem Opens.length_pos {source : List Char} (opens : Opens source) : 0 < source.length := by
  obtain ⟨c, more, rfl, -⟩ := opens
  exact Nat.succ_pos _

/-- A row of sources that are not empty is at least as long as it has sources. -/
theorem count_le_intercalate {α : Type} {stands : List Char → α → Prop}
    (positive : ∀ source value, stands source value → 0 < source.length) (sep : List Char)
    {sources : List (List Char)} {values : List α} (each : List.Forall₂ stands sources values) :
    sources.length ≤ (sep.intercalate sources).length := by
  induction each with
  | nil => exact Nat.zero_le _
  | @cons source value sources values first more ih =>
    have here := positive source value first
    cases more with
    | nil => rwa [List.intercalate_singleton]
    | cons second more =>
      rw [List.intercalate_cons_cons, List.length_append, List.length_append, List.length_cons]
      omega

theorem line_intercalate {α : Type} {reader : List Char → Option (α × List Char)}
    {sources : List (List Char)} {values : List α}
    (each : List.Forall₂ (Reads reader) sources values) :
    ∀ c ∈ [',', ' '].intercalate sources, breaksLine c = false := by
  induction each with
  | nil => exact fun _ absent => by cases absent
  | @cons source value sources values first more ih =>
    cases more with
    | nil =>
      rw [List.intercalate_singleton]
      exact first.line
    | cons second more =>
      rw [List.intercalate_cons_cons]
      have comma : ∀ c ∈ [',', ' '], breaksLine c = false := by simp [breaksLine]
      exact List.forall_mem_append.mpr ⟨List.forall_mem_append.mpr ⟨first.line, comma⟩, ih⟩

theorem line_bracketed {α : Type} {reader : List Char → Option (α × List Char)} {left right : Char}
    {sources : List (List Char)} {values : List α} (opening : breaksLine left = false)
    (closing : breaksLine right = false) (each : List.Forall₂ (Reads reader) sources values) :
    ∀ c ∈ left :: ([',', ' '].intercalate sources ++ [right]), breaksLine c = false :=
  List.forall_mem_cons.mpr ⟨opening, List.forall_mem_append.mpr
    ⟨line_intercalate each, List.forall_mem_singleton.mpr closing⟩⟩

namespace Literal

section

variable {α : Type} {element : List Char → Option (α × List Char)} {close : Char}
  {source : List Char} {value : α}

theorem readSeries?_of_reads (bracket : close = ']' ∨ close = '}')
    (first : Reads element source value) (fuel : Nat) {mark : Char} {after : List Char}
    (ended : Ended (mark :: after)) :
    readSeries? element close (fuel + 1) (skip (source ++ mark :: after)) =
      if mark = ',' then
        (readSeries? element close fuel (skip after)).map fun (values, after) =>
          (value :: values, after)
      else if mark = close then some ([value], after)
      else none := by
  have read := first.reads _ ended
  obtain ⟨c, more, rfl, solid, no_bracket, no_brace⟩ := first.opens
  have other : c ≠ close := by rcases bracket with rfl | rfl <;> assumption
  rw [first.opens.skip_append]
  exact readSeries?_step other read ended.skip_eq fuel

/-- A row of sources that are read is read as the row of their values. -/
theorem readSeries?_row (bracket : close = ']' ∨ close = '}') {sources : List (List Char)}
    {values : List α} (each : List.Forall₂ (Reads element) sources values) (rest : List Char) :
    readSeries? element close ([',', ' '].intercalate sources ++ close :: rest).length
      (skip ([',', ' '].intercalate sources ++ close :: rest)) = some (values, rest) := by
  have closes : Ended (close :: rest) := ended_cons (by rcases bracket with rfl | rfl <;> simp) rest
  have no_comma : close ≠ ',' := by rcases bracket with rfl | rfl <;> decide
  have counted := count_le_intercalate (fun _ _ reads => reads.opens.length_pos) [',', ' '] each
  refine readSeries?_intercalate ?_ ?_ ?_ each ?_
  · intro source value first after fuel
    rw [readSeries?_of_reads bracket first fuel (ended_cons (by simp) after), if_pos rfl]
  · intro source value first fuel
    rw [readSeries?_of_reads bracket first fuel closes, if_neg no_comma, if_pos rfl]
  · intro fuel
    rw [closes.skip_eq, readSeries?, if_pos rfl]
  · rw [List.length_append, List.length_cons]
    omega

end

section

variable (preferDouble : Bool)

/-- The source of a member: its key in quotes and its value. -/
def memberSource (member : String × Json) : List Char :=
  quoteChars preferDouble member.1.toList ++ ':' :: ' ' :: valueChars preferDouble member.2

theorem itemChars_eq (items : List Json) : itemChars preferDouble items =
    [',', ' '].intercalate (items.map (valueChars preferDouble)) := by
  induction items with
  | nil => rfl
  | cons item items ih =>
    cases items with
    | nil => simp [itemChars]
    | cons next items =>
      have listed : itemChars preferDouble (item :: next :: items) = valueChars preferDouble item ++
          ',' :: ' ' :: itemChars preferDouble (next :: items) := rfl
      rw [listed, ih]
      simp [List.intercalate_cons_cons]

theorem memberChars_eq (members : List (String × Json)) : memberChars preferDouble members =
    [',', ' '].intercalate (members.map (memberSource preferDouble)) := by
  induction members with
  | nil => rfl
  | cons member members ih =>
    cases members with
    | nil => simp [memberChars, memberSource]
    | cons next members =>
      have listed : memberChars preferDouble (member :: next :: members) =
          memberSource preferDouble member ++
            ',' :: ' ' :: memberChars preferDouble (next :: members) := rfl
      rw [listed, ih]
      simp [List.intercalate_cons_cons]

theorem opens_quoteChars (text rest : List Char) :
    Opens (quoteChars preferDouble text ++ rest) := by
  have quote := isQuote_chooseQuote preferDouble (escape text)
  exact ⟨_, _, rfl, isSpace_of_isQuote quote, ne_of_kind quote rfl, ne_of_kind quote rfl⟩

theorem readStrings?_quoteChars (text : List Char) {rest : List Char}
    (apart : StartsWithout isQuote (skip rest)) :
    readStrings? (quoteChars preferDouble text ++ rest).length
      (quoteChars preferDouble text ++ rest) = some (text, rest) := by
  obtain ⟨c, more, starts, -⟩ := opens_quoteChars preferDouble text rest
  have positive : (quoteChars preferDouble text ++ rest).length = more.length + 1 :=
    congrArg List.length starts
  rw [positive]
  exact readStrings?_quoteEscaped preferDouble text apart more.length

theorem reads_name (depth : Nat) {name : List Char} {value : Literal}
    (means : (name, value) = ("None".toList, null) ∨ (name, value) = ("True".toList, bool true) ∨
      (name, value) = ("False".toList, bool false)) :
    Reads (readValue? (depth + 1)) name value := by
  have letters : ∀ c ∈ name, c.isAlpha = true := by
    rcases means with same | same | same <;> cases same <;> simp
  have line : ∀ c ∈ name, breaksLine c = false := by
    rcases means with same | same | same <;> cases same <;> simp [breaksLine]
  have found : name? name = some value := by
    rcases means with same | same | same <;> cases same <;> rfl
  obtain ⟨c, more, rfl, letter⟩ : ∃ c more, name = c :: more ∧ (c = 'N' ∨ c = 'T' ∨ c = 'F') := by
    rcases means with same | same | same <;> cases same <;> exact ⟨_, _, rfl, by decide⟩
  refine ⟨⟨c, more, rfl, ?_⟩, line, fun rest ended => ?_⟩
  · rcases letter with rfl | rfl | rfl <;> decide
  · have no_letter : StartsWithout Char.isAlpha rest := ended.startsWithout (by simp)
    have name_eq := takeWhile_apart letters no_letter
    have rest_eq := dropWhile_apart letters no_letter
    have other : c ≠ '[' ∧ c ≠ '{' ∧ isQuote c = false ∧ isNumberChar c = false := by
      rcases letter with rfl | rfl | rfl <;> decide
    obtain ⟨no_list, no_dict, no_quote, no_number⟩ := other
    rw [List.cons_append] at name_eq rest_eq ⊢
    rw [readValue?, if_neg no_list, if_neg no_dict, no_quote, if_neg Bool.false_ne_true, no_number,
      if_neg Bool.false_ne_true, name_eq, rest_eq, found, Option.map_some]

theorem reads_number (depth : Nat) (number : Number) :
    Reads (readValue? (depth + 1)) number.text (.number number.text) := by
  have is_number := isNumber_text number
  have chars := isNumberChar_of_isNumber is_number
  have line := line_of_isNumber is_number
  generalize number.text = text at is_number chars line
  cases text with
  | nil => cases is_number
  | cons c more =>
    have here := chars c List.mem_cons_self
    have apart : ∀ d, isNumberChar d = false → c ≠ d := fun _ => ne_of_kind here
    have no_quote : isQuote c = false := by simp [isQuote, apart '"' rfl, apart '\'' rfl]
    refine ⟨⟨c, more, rfl, ?_, apart _ rfl, apart _ rfl⟩, line, fun rest ended => ?_⟩
    · simp [isSpace, apart ' ' rfl, apart '\t' rfl, apart '\n' rfl, apart '\r' rfl,
        apart '\x0c' rfl]
    · have no_number : StartsWithout isNumberChar rest :=
        ended.startsWithout (by simp [isNumberChar])
      have number_eq := takeWhile_apart chars no_number
      have rest_eq := dropWhile_apart chars no_number
      rw [List.cons_append] at number_eq rest_eq ⊢
      rw [readValue?, if_neg (apart _ rfl), if_neg (apart _ rfl), no_quote,
        if_neg Bool.false_ne_true, if_pos here, number_eq, rest_eq]
      dsimp only
      rw [if_pos is_number]

theorem reads_string (depth : Nat) (text : String) :
    Reads (readValue? (depth + 1)) (quoteChars preferDouble text.toList) (.string text) := by
  have opens := opens_quoteChars preferDouble text.toList
  have line := line_quoteEscaped preferDouble text.toList
  refine ⟨by simpa using opens [], line, fun rest ended => ?_⟩
  have read := readStrings?_quoteChars preferDouble text.toList ended.no_quote
  have quote := isQuote_chooseQuote preferDouble (escape text.toList)
  have no_list : chooseQuote preferDouble (escape text.toList) ≠ '[' := ne_of_kind quote rfl
  have no_dict : chooseQuote preferDouble (escape text.toList) ≠ '{' := ne_of_kind quote rfl
  rw [quoteChars, quoteEscaped, enclose, List.cons_append] at read ⊢
  rw [readValue?, if_neg no_list, if_neg no_dict, if_pos quote, read, Option.map_some]
  dsimp only
  rw [String.ofList_toList]

theorem reads_member {element : List Char → Option (Literal × List Char)} {value : Json}
    (key : String) (reads : Reads element (valueChars preferDouble value) (ofJson value)) :
    Reads (readMember? element) (memberSource preferDouble (key, value)) (key, ofJson value) := by
  have line : ∀ c ∈ memberSource preferDouble (key, value), breaksLine c = false := by
    refine List.forall_mem_append.mpr ⟨line_quoteEscaped preferDouble key.toList, ?_⟩
    exact List.forall_mem_cons.mpr ⟨rfl, List.forall_mem_cons.mpr ⟨rfl, reads.line⟩⟩
  refine ⟨opens_quoteChars preferDouble _ _, line, fun rest ended => ?_⟩
  have colon : Ended (':' :: ' ' :: (valueChars preferDouble value ++ rest)) :=
    ended_cons (by simp) _
  rw [memberSource, List.append_assoc, List.cons_append, List.cons_append, readMember?,
    readStrings?_quoteChars preferDouble key.toList colon.no_quote]
  dsimp only
  rw [colon.skip_eq]
  dsimp only
  rw [if_pos rfl, skip_space, reads.opens.skip_append, reads.reads rest ended, Option.map_some]
  dsimp only
  rw [String.ofList_toList]

mutual

/-- The source of a value is read as the value, at any depth that its length allows. -/
theorem reads_valueChars (json : Json) {depth : Nat}
    (enough : (valueChars preferDouble json).length < depth) :
    Reads (readValue? depth) (valueChars preferDouble json) (ofJson json) := by
  obtain ⟨depth, rfl⟩ := Nat.exists_eq_succ_of_ne_zero (Nat.ne_zero_of_lt enough)
  cases json with
  | null => exact reads_name depth (.inl rfl)
  | bool value =>
    cases value with
    | true => exact reads_name depth (.inr (.inl rfl))
    | false => exact reads_name depth (.inr (.inr rfl))
  | number value => exact reads_number depth value
  | string text => exact reads_string preferDouble depth text
  | array items =>
    rw [valueChars, itemChars_eq, List.length_cons, List.length_append] at enough
    have each : List.Forall₂ (Reads (readValue? depth)) (items.map (valueChars preferDouble))
        (ofItems items) := reads_items items fun source inside => by
      have shorter := length_le_intercalate [',', ' '] inside
      omega
    refine ⟨⟨'[', _, rfl, by decide⟩, ?_, fun rest _ => ?_⟩
    · rw [valueChars, itemChars_eq]
      exact line_bracketed rfl rfl each
    · rw [valueChars, itemChars_eq, List.cons_append, List.append_assoc, List.singleton_append,
        readValue?, if_pos rfl, readSeries?_row (.inl rfl) each, Option.map_some, ofJson]
  | object members =>
    rw [valueChars, memberChars_eq, List.length_cons, List.length_append] at enough
    have each : List.Forall₂ (Reads (readMember? (readValue? depth)))
        (members.map (memberSource preferDouble)) (ofMembers members) :=
      reads_members members fun source inside => by
        have shorter := length_le_intercalate [',', ' '] inside
        omega
    refine ⟨⟨'{', _, rfl, by decide⟩, ?_, fun rest _ => ?_⟩
    · rw [valueChars, memberChars_eq]
      exact line_bracketed rfl rfl each
    · rw [valueChars, memberChars_eq, List.cons_append, List.append_assoc, List.singleton_append,
        readValue?, if_neg (by decide), if_pos rfl, readSeries?_row (.inr rfl) each,
        Option.map_some, ofJson]

theorem reads_items (items : List Json) {depth : Nat}
    (enough : ∀ source ∈ items.map (valueChars preferDouble), source.length < depth) :
    List.Forall₂ (Reads (readValue? depth)) (items.map (valueChars preferDouble))
      (ofItems items) := by
  cases items with
  | nil => exact .nil
  | cons item items =>
    obtain ⟨here, later⟩ := List.forall_mem_cons.mp enough
    exact .cons (reads_valueChars item here) (reads_items items later)

theorem reads_members (members : List (String × Json)) {depth : Nat}
    (enough : ∀ source ∈ members.map (memberSource preferDouble), source.length < depth) :
    List.Forall₂ (Reads (readMember? (readValue? depth)))
      (members.map (memberSource preferDouble)) (ofMembers members) := by
  cases members with
  | nil => exact .nil
  | cons member members =>
    obtain ⟨key, value⟩ := member
    obtain ⟨here, later⟩ := List.forall_mem_cons.mp enough
    have shorter : (valueChars preferDouble value).length < depth := by
      simp only [memberSource, List.length_append, List.length_cons] at here
      omega
    exact .cons (reads_member preferDouble key (reads_valueChars value shorter))
      (reads_members members later)

end

end

end Literal

/-- Every text reads back from its literal. The source of every value is one line, and is read as
the value. -/
theorem value_denotes (preferDouble : Bool) :
    (∀ text, literalText? (quote preferDouble text) = some text) ∧
    ∀ json, (∀ c ∈ (value preferDouble json).toList, breaksLine c = false) ∧
      Literal.read? (value preferDouble json) = some (Literal.ofJson json) := by
  refine ⟨literalText?_quote preferDouble, fun json => ⟨?_, ?_⟩⟩
  · rw [value, String.toList_ofList]
    exact (Literal.reads_valueChars preferDouble json (Nat.lt_succ_self _)).line
  · have reads := Literal.reads_valueChars preferDouble json (Nat.lt_succ_self _)
    have read := reads.reads [] ended_nil
    rw [List.append_nil] at read
    rw [Literal.read?, value, String.toList_ofList, String.length_ofList, read]

end ResourceModels.Code
