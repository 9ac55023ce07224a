import ResourceModels.Text.Words

/-!
# Addresses of requests

The part of the address grammar that a request needs: scheme, authority, path and query. Dot
segments are resolved, though never above a drive, a backslash is a slash, and what may not stand in
a path or a query is percent-encoded. A fragment is dropped.
-/

namespace ResourceModels

structure Url where
  secure : Bool
  authority : String
  path : String
  query : Option String
  deriving DecidableEq, Repr

namespace Url

def upperHex (n : Nat) : Char := (Nat.digitChar n).toUpper

/-- A byte as a percent sign and two digits. -/
def escapedByte (byte : UInt8) : List Char :=
  ['%', upperHex (byte.toNat / 16), upperHex (byte.toNat % 16)]

def bytes (c : Char) : List UInt8 := (String.singleton c).toUTF8.toList

def isSpecial (marks : List Char) (c : Char) : Bool :=
  c.toNat ≤ 0x20 || 0x7e < c.toNat || c ∈ marks

/-- Percent-encode blanks, controls, all beyond ASCII and the given marks. -/
def encoded (marks text : List Char) : List Char :=
  text.flatMap fun c => if isSpecial marks c then (bytes c).flatMap escapedByte else [c]

def pathMarks : List Char := ['"', '#', '<', '>', '?', '\x60', '\x7b', '\x7d']

def queryMarks : List Char := ['"', '#', '<', '>', '\'']

/-- A name or a value in a query, as a form writes it. -/
def formEncoded (text : String) : String :=
  String.ofList (text.toList.flatMap fun c =>
    if c = ' ' then ['+']
    else if Text.isAsciiDigit c || Text.isAsciiUpper c || Text.isAsciiLower c ||
        c ∈ ['*', '-', '.', '_'] then [c]
    else (bytes c).flatMap escapedByte)

def isSlash (c : Char) : Bool := c = '/' || c = '\\'

/-- Dots, which may be percent-encoded, as plain dots. -/
def plainDots : List Char → List Char
  | '%' :: '2' :: e :: rest =>
    if e = 'e' || e = 'E' then '.' :: plainDots rest else '%' :: '2' :: e :: plainDots rest
  | c :: rest => c :: plainDots rest
  | [] => []

/-- The name of a drive: a letter with a colon or a bar. -/
def isDrive : List Char → Bool
  | [letter, mark] =>
    (Text.isAsciiUpper letter || Text.isAsciiLower letter) && (mark = ':' || mark = '|')
  | _ => false

/-- Take back the last segment, unless it names a drive. -/
def parent (done : List (List Char)) : List (List Char) :=
  if done.getLast?.any isDrive then done else done.dropLast

/-- Resolve dot segments. A path that ends in one ends in a slash. -/
def resolved (done : List (List Char)) : List (List Char) → List (List Char)
  | [] => done
  | segment :: rest =>
    let last := if rest.isEmpty then [[]] else []
    if plainDots segment = ['.'] then resolved (done ++ last) rest
    else if plainDots segment = ['.', '.'] then resolved (parent done ++ last) rest
    else resolved (done ++ [encoded pathMarks segment]) rest

/-- The path of an address, which always starts with a slash. -/
def pathOf (text : List Char) : List Char :=
  let text := match text with
    | c :: rest => if isSlash c then rest else c :: rest
    | [] => []
  (resolved [] (Text.pieces isSlash text)).flatMap ('/' :: ·)

def scheme? (text : List Char) : Option (Bool × List Char) :=
  let (name, rest) := (text.takeWhile (· ≠ ':'), text.dropWhile (· ≠ ':'))
  match rest with
  | ':' :: rest =>
    let name := String.ofList (name.flatMap Text.toLower)
    if name = "http" then some (false, rest) else if name = "https" then some (true, rest) else none
  | _ => none

def endsAuthority (c : Char) : Bool := isSlash c || c = '?' || c = '#'

/-- What may surround an address without being a part of it. -/
def isPadding (c : Char) : Bool := c.toNat ≤ 0x20

def isLineBreak (c : Char) : Bool := c = '\t' || c = '\n' || c = '\r'

def trimmed (text : List Char) : List Char :=
  (((text.dropWhile isPadding).reverse.dropWhile isPadding).reverse).filter (!isLineBreak ·)

/-- Read an address. Only the two schemes of the web can be requested. -/
def ofText? (text : String) : Option Url := do
  let (secure, rest) ← scheme? (trimmed text.toList)
  let rest := rest.dropWhile isSlash
  let authority := rest.takeWhile (!endsAuthority ·)
  let rest := (rest.dropWhile (!endsAuthority ·)).takeWhile (· ≠ '#')
  if authority.isEmpty then none
  else
    let query := match rest.dropWhile (· ≠ '?') with
      | _ :: query => some (String.ofList (encoded queryMarks query))
      | [] => none
    some ⟨secure, String.ofList (authority.flatMap Text.toLower),
      String.ofList (pathOf (rest.takeWhile (· ≠ '?'))), query⟩

/-- Add a name and a value to the query. -/
def withPair (url : Url) (name value : String) : Url :=
  let pair := formEncoded name ++ "=" ++ formEncoded value
  match url.query with
  | none | some "" => { url with query := some pair }
  | some query => { url with query := some (query ++ "&" ++ pair) }

/-- The host and the number of the service. What stands before an at sign is not part of the host,
and a host in brackets may have colons in it. -/
def endpoint (url : Url) : String × Nat :=
  let place := (url.authority.toList.reverse.takeWhile (· ≠ '@')).reverse
  let digits := (place.reverse.takeWhile Text.isAsciiDigit).reverse
  let host := place.take (place.length - digits.length)
  match host.getLast?, (String.ofList digits).toNat? with
  | some ':', some number => (String.ofList host.dropLast, number)
  | _, _ => (String.ofList place, if url.secure then 443 else 80)

/-- What a request line asks for. -/
def target (url : Url) : String :=
  match url.query with
  | none => url.path
  | some query => url.path ++ "?" ++ query

end Url

end ResourceModels
