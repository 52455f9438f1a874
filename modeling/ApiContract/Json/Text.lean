import ApiContract.Json.Basic
/-!
# Compact JSON text

`Json.compact` writes a value without blanks, the members of an object in
key order.  Only quotes, backslashes and control characters are escaped.
-/

namespace ApiContract

namespace Json

/-- The lower case hexadecimal digits of a number below 256. -/
def hexPair (n : Nat) : List Char := [Nat.digitChar (n / 16), Nat.digitChar (n % 16)]

/-- A character as it stands inside a JSON string. -/
def escapeChar (c : Char) : List Char :=
  if c = '"' then ['\\', '"']
  else if c = '\\' then ['\\', '\\']
  else if c = '\x08' then ['\\', 'b']
  else if c = '\x0c' then ['\\', 'f']
  else if c = '\n' then ['\\', 'n']
  else if c = '\r' then ['\\', 'r']
  else if c = '\t' then ['\\', 't']
  else if c.toNat < 0x20 then ['\\', 'u', '0', '0'] ++ hexPair c.toNat
  else [c]

/-- A string in quotes. -/
def quote (s : String) : String :=
  String.ofList ('"' :: (s.toList.flatMap escapeChar ++ ['"']))

mutual

/-- The compact text of a value. -/
def compact : Json → String
  | .null => "null"
  | .bool b => if b then "true" else "false"
  | .number n => n.format
  | .string s => quote s
  | .array items => "[" ++ ",".intercalate (compactItems items) ++ "]"
  | .object members => "\x7b" ++ ",".intercalate (compactMembers members) ++ "\x7d"

/-- The texts of the items. -/
def compactItems : List Json → List String
  | [] => []
  | item :: rest => compact item :: compactItems rest

/-- The texts of the members. -/
def compactMembers : List (String × Json) → List String
  | [] => []
  | (key, value) :: rest => (quote key ++ ":" ++ compact value) :: compactMembers rest

end

mutual

/-- The text of a value over several lines, two blanks for each level. -/
def pretty (indent : String) : Json → String
  | .array items =>
    if items.isEmpty then "[]"
    else
      let inner := indent ++ "  "
      "[\n" ++ ",\n".intercalate (prettyItems inner items) ++ "\n" ++ indent ++ "]"
  | .object members =>
    if members.isEmpty then "\x7b\x7d"
    else
      let inner := indent ++ "  "
      "\x7b\n" ++ ",\n".intercalate (prettyMembers inner members) ++ "\n" ++ indent ++ "\x7d"
  | .null => "null"
  | .bool b => if b then "true" else "false"
  | .number n => n.format
  | .string s => quote s

/-- The lines of the items. -/
def prettyItems (indent : String) : List Json → List String
  | [] => []
  | item :: rest => (indent ++ pretty indent item) :: prettyItems indent rest

/-- The lines of the members. -/
def prettyMembers (indent : String) : List (String × Json) → List String
  | [] => []
  | (key, value) :: rest =>
    (indent ++ quote key ++ ": " ++ pretty indent value) :: prettyMembers indent rest

end

end Json

end ApiContract
