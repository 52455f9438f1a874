import ApiContract.Json.Basic
/-!
# Paths into JSON values

A path is the list of the keys and indices on the way down.  Its text is
a JSON Pointer: every segment follows a `/`, with `~` and `/` inside a
segment written `~0` and `~1`.
-/

namespace ApiContract

/-- The keys and indices on the way from the root of a value to a part of
it. -/
abbrev Path : Type := List String

namespace Path

/-- One character of a segment in pointer text. -/
def escapeChar (c : Char) : List Char :=
  if c = '~' then ['~', '0'] else if c = '/' then ['~', '1'] else [c]

/-- A segment in pointer text. -/
def escape (segment : String) : String := String.ofList (segment.toList.flatMap escapeChar)

/-- The characters of an escaped segment.  A `~` that starts no escape
stands for itself. -/
def unescapeChars : List Char → List Char
  | [] => []
  | '~' :: '1' :: rest => '/' :: unescapeChars rest
  | '~' :: '0' :: rest => '~' :: unescapeChars rest
  | c :: rest => c :: unescapeChars rest

/-- The segment that stands in pointer text as `text`. -/
def unescape (text : String) : String := String.ofList (unescapeChars text.toList)

/-- The pointer text of a path, which is empty for the root. -/
def render (path : Path) : String :=
  String.join (path.map fun segment => "/" ++ escape segment)

/-- The index that a segment stands for: decimal digits without a leading
zero. -/
def index? (segment : String) : Option Nat :=
  match segment.toList with
  | ['0'] => some 0
  | first :: rest =>
    if first ≠ '0' && (first :: rest).all Char.isDigit then segment.toNat? else none
  | [] => none

end Path

namespace Json

/-- The part of a value under one key or index. -/
def child? (value : Json) (segment : String) : Option Json :=
  match value with
  | .object members => Entries.get? members segment
  | .array items => (Path.index? segment).bind (items[·]?)
  | _ => none

/-- The part of a value at the end of a path. -/
def at? (value : Json) : Path → Option Json
  | [] => some value
  | segment :: rest => (value.child? segment).bind (at? · rest)

end Json

end ApiContract
