import ApiContract.Url.Host
/-!
# Reading URLs

Blanks and control characters around a URL are dropped, tabs and line
breaks anywhere.  What is left is read from the front: scheme, authority,
path, query, fragment.  All readers take the rest of the text and return
what they leave of it.
-/

namespace ApiContract.Url

open Ascii

/-! ## Delimiters -/

/-- Whether a character is as good as a slash. -/
def isSlash (kind : SchemeKind) (c : Char) : Bool := c = '/' || (kind.isSpecial && c = '\\')

/-- Whether a character ends an authority. -/
def endsAuthority (kind : SchemeKind) (c : Char) : Bool := isSlash kind c || c = '?' || c = '#'

/-- Whether a character ends a path. -/
def endsPath (c : Char) : Bool := c = '?' || c = '#'

/-- The text as it is read: without what does not count. -/
def significant (text : String) : List Char :=
  let trim (text : List Char) : List Char := text.dropWhile (·.toNat ≤ 0x20)
  (trim (trim text.toList).reverse).reverse.filter fun c => c ≠ '\t' && c ≠ '\n' && c ≠ '\r'

/-! ## Schemes -/

/-- Characters of a scheme. -/
def isSchemeChar (c : Char) : Bool := isLetter c || isDigit c || ['+', '-', '.'].contains c

/-- The scheme, and the text behind its colon. -/
def readScheme? (text : List Char) : Option (List Char × List Char) :=
  match text.dropWhile isSchemeChar with
  | ':' :: rest =>
    if text.head?.any isLetter then
      some ((text.takeWhile isSchemeChar).map Char.toLower, rest)
    else none
  | _ => none

/-! ## Authorities -/

/-- User and password, in their encoded form; an empty password is none. -/
def readUser (text : List Char) : List Char × Option (List Char) :=
  (encode encodedInUser (text.takeWhile (· ≠ ':')),
    match (text.dropWhile (· ≠ ':')).drop 1 with
    | [] => none
    | password => some (encode encodedInUser password))

/-- The part of an authority before its last `@`, if it has one, and the
part behind it. -/
def splitUser (authority : List Char) : Option (List Char) × List Char :=
  if authority.contains '@' then
    let host := (authority.reverse.takeWhile (· ≠ '@')).reverse
    (some (authority.take (authority.length - host.length - 1)), host)
  else (none, authority)

/-- The text of a host, up to a colon outside of brackets, and the rest of
the authority. -/
def splitHost (bracketed : Bool) : List Char → List Char × List Char
  | [] => ([], [])
  | c :: rest =>
    if c = ':' && !bracketed then ([], c :: rest)
    else
      let (host, after) := splitHost (if c = '[' then true else if c = ']' then false else bracketed)
        rest
      (c :: host, after)

/-- The port behind the colon; the usual one goes without saying.  A
backslash ends it in any scheme. -/
def readPort (scheme text : List Char) : Except UrlFault (Option Nat) :=
  let digits := text.takeWhile isDigit
  match text.dropWhile isDigit with
  | c :: _ => if c = '\\' then portOf digits else .error .invalidPort
  | [] => portOf digits
where
  /-- The port of digits. -/
  portOf (digits : List Char) : Except UrlFault (Option Nat) :=
    if 65535 < decimalValue digits then .error .invalidPort
    else if digits.isEmpty || usualPort? scheme = some (decimalValue digits) then .ok none
    else .ok (some (decimalValue digits))

/-- The host at the front of a text, which has no user before it. -/
def readHost (kind : SchemeKind) (text : List Char) : Except UrlFault Host :=
  if kind.isSpecial then
    if text.isEmpty then .error .emptyHost else readDomain text
  else readOpaque text

/-- The authority behind two slashes, and the rest of the text. -/
def readAuthority (scheme : List Char) (kind : SchemeKind) (text : List Char) :
    Except UrlFault (Authority × List Char) := do
  let written := text.takeWhile fun c => !endsAuthority kind c
  let rest := text.dropWhile fun c => !endsAuthority kind c
  let (user, hostPort) := splitUser written
  if user = some [] && hostPort.isEmpty && !rest.isEmpty then throw .emptyHost
  let (user, password) := readUser (user.getD [])
  let (hostText, after) := splitHost false hostPort
  let host ← readHost kind hostText
  match after with
  | ':' :: portText =>
    if host = .name [] then throw .emptyHost
    let port ← readPort scheme portText
    return (⟨user, password, host, port⟩, portText.dropWhile isDigit ++ rest)
  | _ =>
    if host = .name [] && (!user.isEmpty || password.isSome) then throw .emptyHost
    return (⟨user, password, host, none⟩, rest)

/-! ## Paths -/

/-- Whether a segment is a dot, in one of its spellings. -/
def isDot (segment : List Char) : Bool :=
  [".", "%2e"].contains (String.ofList (segment.map Char.toLower))

/-- Whether a segment is two dots, in one of their spellings. -/
def isDoubleDot (segment : List Char) : Bool :=
  ["..", ".%2e", "%2e.", "%2e%2e"].contains (String.ofList (segment.map Char.toLower))

/-- Whether a segment is a letter of a drive. -/
def isDrive (segment : List Char) : Bool :=
  match segment with
  | [letter, c] => isLetter letter && (c = ':' || c = '|')
  | _ => false

/-- A segment kept in a path; `kept` is what comes before it, last first.
The letter of a drive at the beginning of a path to a file has a colon. -/
def keep (kind : SchemeKind) (kept : List (List Char)) (segment : List Char) : List (List Char) :=
  match kind, kept, segment with
  | .file, [], [letter, '|'] => if isLetter letter then [[letter, ':']] else [[letter, '|']]
  | _, _, _ => segment :: kept

/-- The path without its last segment; a drive stays. -/
def shorten (kind : SchemeKind) (kept : List (List Char)) : List (List Char) :=
  match kind, kept with
  | .file, [segment] => if isDrive segment then [segment] else []
  | _, kept => kept.tail

/-- The segments that are kept when dots are followed, last first. -/
def followDots (kind : SchemeKind) (kept : List (List Char)) :
    List (List Char) → List (List Char)
  | [] => kept
  | [last] =>
    if isDoubleDot last then [] :: shorten kind kept
    else if isDot last then [] :: kept
    else keep kind kept last
  | segment :: rest =>
    if isDoubleDot segment then followDots kind (shorten kind kept) rest
    else if isDot segment then followDots kind kept rest
    else followDots kind (keep kind kept segment) rest

/-- The text between slashes. -/
def splitSegments (kind : SchemeKind) (path : List Char) : List (List Char) :=
  splitOn '/' (path.map fun c => if isSlash kind c then '/' else c)

/-- The path whose text stands behind its first slash. -/
def readSegments (kind : SchemeKind) (text : List Char) : List Char :=
  let segments := splitSegments kind (encode encodedInPath text)
  let kept := (followDots kind [] segments).reverse
  let kept := if kind = .file then dropEmpty kept else kept
  kept.flatMap ('/' :: ·)
where
  /-- The segments without the empty ones in front; one stays. -/
  dropEmpty : List (List Char) → List (List Char)
    | [] => [[]]
    | [segment] => [segment]
    | segment :: rest => if segment.isEmpty then dropEmpty rest else segment :: rest

/-- The path behind an authority. -/
def readPath (kind : SchemeKind) (text : List Char) : List Char :=
  match text with
  | [] => if kind.isSpecial then ['/'] else []
  | c :: rest => readSegments kind (if isSlash kind c then rest else c :: rest)

/-! ## Query and fragment -/

/-- The URL whose path has been read. -/
def finish (scheme : List Char) (kind : SchemeKind) (authority : Option Authority)
    (path rest : List Char) : Url :=
  let query := rest.takeWhile (· ≠ '#')
  let fragment := rest.dropWhile (· ≠ '#')
  { scheme := scheme
    authority := authority
    path := path
    query := match query with
      | '?' :: text => some (encode (encodedInQuery kind.isSpecial) text)
      | _ => none
    fragment := match fragment with
      | '#' :: text => some (encode encodedInFragment text)
      | _ => none }

/-! ## URLs -/

/-- What follows the two slashes before an authority. -/
def readFromAuthority (scheme : List Char) (kind : SchemeKind) (text : List Char) :
    Except UrlFault Url := do
  let (authority, rest) ← readAuthority scheme kind text
  let path := rest.takeWhile fun c => !endsPath c
  return finish scheme kind (some authority) (readPath kind path)
    (rest.dropWhile fun c => !endsPath c)

/-- The rest of a URL of a file, from behind two slashes; the name
`localhost` and a drive are no hosts. -/
def readFromFileHost (scheme text : List Char) : Except UrlFault Url := do
  let written := text.takeWhile fun c => !endsAuthority .file c
  let (host, text) ←
    if isDrive written then pure (Host.name [], text)
    else if written.isEmpty then pure (Host.name [], text)
    else do
      let host ← readDomain written
      let rest := text.dropWhile fun c => !endsAuthority .file c
      pure (if host = .name "localhost".toList then Host.name [] else host, rest)
  let path := text.takeWhile fun c => !endsPath c
  return finish scheme .file (some ⟨[], none, host, none⟩) (readPath .file path)
    (text.dropWhile fun c => !endsPath c)

/-- The rest of a URL of a file. -/
def readFile (scheme text : List Char) : Except UrlFault Url :=
  match text with
  | a :: b :: rest =>
    if isSlash .file a && isSlash .file b then readFromFileHost scheme rest
    else .ok (noHost text)
  | text => .ok (noHost text)
where
  /-- The URL of a path alone. -/
  noHost (text : List Char) : Url :=
    finish scheme .file (some ⟨[], none, .name [], none⟩)
      (readPath .file (text.takeWhile fun c => !endsPath c))
      (text.dropWhile fun c => !endsPath c)

/-- The rest of a URL in a scheme that is not special. -/
def readOther (scheme text : List Char) : Except UrlFault Url :=
  match text with
  | '/' :: '/' :: rest => readFromAuthority scheme .other rest
  | text =>
    let path := text.takeWhile fun c => !endsPath c
    let path := match path with
      | '/' :: rest => readSegments .other rest
      | path => encode isControl path
    .ok (finish scheme .other none path (text.dropWhile fun c => !endsPath c))

/-- The URL that a text is. -/
def ofText (text : String) : Except UrlFault Url :=
  match readScheme? (significant text) with
  | none => .error .relative
  | some (scheme, rest) =>
    match SchemeKind.of scheme with
    | .web => readFromAuthority scheme .web (rest.dropWhile (isSlash .web))
    | .file => readFile scheme rest
    | .other => readOther scheme rest

end ApiContract.Url
