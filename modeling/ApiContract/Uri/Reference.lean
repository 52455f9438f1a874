import ApiContract.Network.Address
/-!
# URI references

RFC 3986 references: reading with the place of the first fault, resolution
against a base, and normalisation.  The same reader accepts the
internationalised form of RFC 3987, in which most characters beyond ASCII
may stand for themselves.
-/

namespace ApiContract

open Network Ascii

/-- A URI reference, each part as it is written and without its
delimiters. -/
structure UriReference where
  scheme : Option (List Char)
  authority : Option (List Char)
  path : List Char
  query : Option (List Char)
  fragment : Option (List Char)
deriving DecidableEq, Repr

/-- Why a text is no URI reference, and at which byte. -/
inductive UriFault where
  | unexpectedChar (index : Nat)
  | invalidOctet (index : Nat)
  | invalidAddress (index : Nat)
deriving DecidableEq, Repr

/-- The wording of a fault. -/
def UriFault.message : UriFault → String
  | unexpectedChar index => "unexpected character at index " ++ toString index
  | invalidOctet index => "invalid percent-encoded octet at index " ++ toString index
  | invalidAddress index => "invalid IPv6 address at index " ++ toString index

namespace UriReference

/-! ## Characters -/

/-- Letters, digits and the four marks that never need encoding. -/
def isUnreserved (c : Char) : Bool :=
  isLetter c || isDigit c || c = '-' || c = '.' || c = '_' || c = '~'

/-- Delimiters inside a part. -/
def isSubDelimiter (c : Char) : Bool := "!$&'()*+,;=".toList.contains c

/-- Characters beyond ASCII that may stand for themselves in an IRI. -/
def isInternational (c : Char) : Bool :=
  let n := c.toNat
  (0xa0 ≤ n && n ≤ 0xd7ff) || (0xf900 ≤ n && n ≤ 0xfdcf) || (0xfdf0 ≤ n && n ≤ 0xffef) ||
    (0x10000 ≤ n && n < 0xe0000 && n % 0x10000 ≤ 0xfffd) || (0xe1000 ≤ n && n ≤ 0xefffd)

/-- Private characters, which an IRI allows in its query only. -/
def isPrivate (c : Char) : Bool :=
  let n := c.toNat
  (0xe000 ≤ n && n ≤ 0xf8ff) || (0xf0000 ≤ n && n ≤ 0xffffd) || (0x100000 ≤ n && n ≤ 0x10fffd)

/-- The characters of each part, percent-encoded octets apart. -/
def isSchemeChar (c : Char) : Bool := isLetter c || isDigit c || c = '+' || c = '-' || c = '.'

/-- Characters of a name in the authority. -/
def isRegNameChar (iri : Bool) (c : Char) : Bool :=
  isUnreserved c || isSubDelimiter c || (iri && isInternational c)

/-- Characters of the part of the authority before `@`. -/
def isUserInfoChar (iri : Bool) (c : Char) : Bool := isRegNameChar iri c || c = ':'

/-- Characters of a path segment. -/
def isSegmentChar (iri : Bool) (c : Char) : Bool := isUserInfoChar iri c || c = '@'

/-- Characters of a path. -/
def isPathChar (iri : Bool) (c : Char) : Bool := isSegmentChar iri c || c = '/'

/-- Characters of a query. -/
def isQueryChar (iri : Bool) (c : Char) : Bool :=
  isPathChar iri c || c = '?' || (iri && isPrivate c)

/-- Characters of a fragment. -/
def isFragmentChar (iri : Bool) (c : Char) : Bool := isPathChar iri c || c = '?'

/-! ## Reading -/

/-- A text being read: the number of bytes passed, and the rest. -/
structure Cursor where
  passed : Nat
  rest : List Char

/-- The longest run of allowed characters and percent-encoded octets,
collected behind `done`, which is last first. -/
def readRun (allowed : Char → Bool) (done : List Char) (passed : Nat) :
    List Char → Except UriFault (List Char × Cursor)
  | [] => .ok (done.reverse, ⟨passed, []⟩)
  | '%' :: a :: b :: rest =>
    if isHex a && isHex b then readRun allowed (b :: a :: '%' :: done) (passed + 3) rest
    else .error (.invalidOctet passed)
  | c :: rest =>
    if c = '%' then .error (.invalidOctet passed)
    else if allowed c then readRun allowed (c :: done) (passed + c.utf8Size) rest
    else .ok (done.reverse, ⟨passed, c :: rest⟩)

/-- Whether a text is an address literal of a future version. -/
def isFutureAddress (text : List Char) : Bool :=
  match text with
  | v :: rest =>
    (v = 'v' || v = 'V') &&
      (let version := rest.takeWhile (· ≠ '.')
       let address := (rest.dropWhile (· ≠ '.')).drop 1
       !version.isEmpty && version.all isHex && !address.isEmpty &&
         address.all fun c => isUnreserved c || isSubDelimiter c || c = ':')
  | [] => false

/-- A port, from its colon, if there is one. -/
def readPort (at_ : Cursor) : List Char × Cursor :=
  match at_.rest with
  | ':' :: rest =>
    let digits := rest.takeWhile isDigit
    (':' :: digits, ⟨at_.passed + 1 + digits.length, rest.dropWhile isDigit⟩)
  | _ => ([], at_)

/-- An address in brackets, if there is one. -/
def readLiteral? (at_ : Cursor) : Except UriFault (Option (List Char × Cursor)) :=
  match at_.rest with
  | '[' :: rest =>
    let inner := rest.takeWhile (· ≠ ']')
    match rest.dropWhile (· ≠ ']') with
    | ']' :: after =>
      if isIpv6 inner || isFutureAddress inner then
        .ok (some ('[' :: inner ++ [']'], ⟨at_.passed + inner.length + 2, after⟩))
      else .error (.invalidAddress (at_.passed + 1))
    | _ => .error (.unexpectedChar at_.passed)
  | _ => .ok none

/-- Whether a text without user information is a host with its port.  The
answer is the index of the first character that is not. -/
def badHostPort? (text : List Char) : Option Nat :=
  let host := text.takeWhile (· ≠ ':')
  match text.dropWhile (· ≠ ':') with
  | [] => none
  | _ :: port =>
    if port.all isDigit then none else some (host.length + 1 + (port.takeWhile isDigit).length)

/-- An authority, from behind its two slashes. -/
def readAuthority (iri : Bool) (start : Cursor) : Except UriFault (List Char × Cursor) := do
  let (run, after) ← readRun (isUserInfoChar iri) [] start.passed start.rest
  match after.rest with
  | '@' :: rest =>
    let hostStart : Cursor := ⟨after.passed + 1, rest⟩
    match ← readLiteral? hostStart with
    | some (literal, beyond) =>
      let (port, beyond) := readPort beyond
      return (run ++ '@' :: literal ++ port, beyond)
    | none =>
      let (host, beyond) ← readRun (isRegNameChar iri) [] hostStart.passed hostStart.rest
      let (port, beyond) := readPort beyond
      return (run ++ '@' :: host ++ port, beyond)
  | _ =>
    if run.isEmpty then
      match ← readLiteral? start with
      | some (literal, beyond) =>
        let (port, beyond) := readPort beyond
        return (literal ++ port, beyond)
      | none => return ([], start)
    else
      match badHostPort? run with
      | some index => throw (.unexpectedChar (start.passed + index))
      | none => return (run, after)

/-- A query, from its question mark, if there is one. -/
def readQuery (iri : Bool) (at_ : Cursor) : Except UriFault (Option (List Char) × Cursor) :=
  match at_.rest with
  | '?' :: rest => do
    let (query, after) ← readRun (isQueryChar iri) [] (at_.passed + 1) rest
    return (some query, after)
  | _ => .ok (none, at_)

/-- A fragment, from its number sign, if there is one. -/
def readFragment (iri : Bool) (at_ : Cursor) : Except UriFault (Option (List Char) × Cursor) :=
  match at_.rest with
  | '#' :: rest => do
    let (fragment, after) ← readRun (isFragmentChar iri) [] (at_.passed + 1) rest
    return (some fragment, after)
  | _ => .ok (none, at_)

/-- Query and fragment after the other parts; nothing may be left. -/
def finish (iri : Bool) (scheme authority : Option (List Char)) (path : List Char)
    (at_ : Cursor) : Except UriFault UriReference := do
  let (query, at_) ← readQuery iri at_
  let (fragment, at_) ← readFragment iri at_
  match at_.rest with
  | [] => return ⟨scheme, authority, path, query, fragment⟩
  | _ => throw (.unexpectedChar at_.passed)

/-- What follows the two slashes before an authority. -/
def readFromAuthority (iri : Bool) (scheme : Option (List Char)) (at_ : Cursor) :
    Except UriFault UriReference := do
  let (authority, after) ← readAuthority iri at_
  let (path, beyond) ← readRun (isPathChar iri) [] after.passed after.rest
  if path ≠ [] && path.head? ≠ some '/' then throw (.unexpectedChar after.passed)
  else finish iri scheme (some authority) path beyond

/-- The reference that a text is.  With `absolute`, it must have a scheme. -/
def read (iri absolute : Bool) (text : List Char) : Except UriFault UriReference := do
  let scheme := text.takeWhile isSchemeChar
  let passed := scheme.length
  match text.dropWhile isSchemeChar with
  | ':' :: rest =>
    if !(scheme.head?.any isLetter) then throw (.unexpectedChar 0)
    else
      match rest with
      | '/' :: '/' :: rest => readFromAuthority iri (some scheme) ⟨passed + 3, rest⟩
      | rest =>
        let (path, after) ← readRun (isPathChar iri) [] (passed + 1) rest
        finish iri (some scheme) none path after
  | rest =>
    if absolute then throw (.unexpectedChar passed)
    else
      match scheme, rest with
      | [], '/' :: '/' :: rest => readFromAuthority iri none ⟨2, rest⟩
      | _, rest =>
        let (first, after) ←
          readRun (fun c => isSegmentChar iri c && c ≠ ':') [] passed rest
        if after.rest.head? = some ':' then throw (.unexpectedChar after.passed)
        else
          let (path, beyond) ← readRun (isPathChar iri) [] after.passed after.rest
          finish iri none none (scheme ++ first ++ path) beyond

/-- A part with its delimiter before it, if there is one. -/
def withMark (mark : List Char) : Option (List Char) → List Char
  | none => []
  | some part => mark ++ part

/-- The text of a reference. -/
def write (r : UriReference) : List Char :=
  (match r.scheme with
    | none => []
    | some scheme => scheme ++ [':']) ++
    withMark ['/', '/'] r.authority ++ r.path ++ withMark ['?'] r.query ++
    withMark ['#'] r.fragment

/-! ## Resolution -/

/-- The segments kept when `.` and `..` are followed, last first.  The text
is what stands between slashes. -/
def followDots (kept : List (List Char)) : List (List Char) → List (List Char)
  | [] => kept
  | [last] =>
    if last = ['.'] then [] :: kept
    else if last = ['.', '.'] then [] :: kept.tail
    else last :: kept
  | segment :: rest =>
    if segment = ['.'] then followDots kept rest
    else if segment = ['.', '.'] then followDots kept.tail rest
    else followDots (segment :: kept) rest

/-- Slashes put back between segments. -/
def joinSegments : List (List Char) → List Char
  | [] => []
  | [segment] => segment
  | segment :: rest => segment ++ '/' :: joinSegments rest

/-- A path without `.` and `..` segments. -/
def removeDots (path : List Char) : List Char :=
  match path with
  | '/' :: rest => '/' :: joinSegments (followDots [] (splitOn '/' rest)).reverse
  | path => joinSegments (followDots [] (splitOn '/' path)).reverse

/-- A relative path placed beside the last segment of the base. -/
def mergePath (base : UriReference) (path : List Char) : List Char :=
  if base.authority.isSome && base.path.isEmpty then '/' :: path
  else (base.path.reverse.dropWhile (· ≠ '/')).reverse ++ path

/-- The target of a reference seen from a base. -/
def resolve (base r : UriReference) : UriReference :=
  if r.scheme.isSome then { r with path := removeDots r.path }
  else if r.authority.isSome then
    { r with scheme := base.scheme, path := removeDots r.path }
  else if r.path.isEmpty then
    { base with query := r.query.or base.query, fragment := r.fragment }
  else
    let path := if r.path.head? = some '/' then r.path else mergePath base r.path
    ⟨base.scheme, base.authority, removeDots path, r.query, r.fragment⟩

/-! ## Normalisation -/

/-- The upper case form of an ASCII letter. -/
def upper (c : Char) : Char := if 'a' ≤ c && c ≤ 'z' then Char.ofNat (c.toNat - 32) else c

/-- The lower case form of an ASCII letter. -/
def lower (c : Char) : Char := if 'A' ≤ c && c ≤ 'Z' then Char.ofNat (c.toNat + 32) else c

/-- Percent-encoded octets with upper case digits, and those of unreserved
characters decoded. -/
def normalizeOctets : List Char → List Char
  | '%' :: a :: b :: rest =>
    match hexValue? a, hexValue? b with
    | some high, some low =>
      let c := Char.ofNat (high * 16 + low)
      if high < 8 && isUnreserved c then c :: normalizeOctets rest
      else '%' :: upper a :: upper b :: normalizeOctets rest
    | _, _ => '%' :: normalizeOctets (a :: b :: rest)
  | c :: rest => c :: normalizeOctets rest
  | [] => []

/-- Lower case letters outside of percent-encoded octets. -/
def lowerOutsideOctets : List Char → List Char
  | '%' :: a :: b :: rest => '%' :: a :: b :: lowerOutsideOctets rest
  | c :: rest => lower c :: lowerOutsideOctets rest
  | [] => []

/-- An authority with its host in lower case.  A lone colon after the host
is dropped. -/
def normalizeAuthority (authority : List Char) : List Char :=
  let user := if authority.contains '@' then authority.takeWhile (· ≠ '@') ++ ['@'] else []
  let hostPort := authority.drop user.length
  let trimmed := if hostPort.getLast? = some ':' then hostPort.dropLast else hostPort
  normalizeOctets user ++ lowerOutsideOctets (normalizeOctets trimmed)

/-- The normal form of a reference. -/
def normalize (r : UriReference) : UriReference :=
  let path := normalizeOctets r.path
  { scheme := r.scheme.map (·.map lower)
    authority := r.authority.map normalizeAuthority
    path := if r.scheme.isSome then removeDots path else path
    query := r.query.map normalizeOctets
    fragment := r.fragment.map normalizeOctets }

end UriReference

end ApiContract
