import ApiContract.Text.Category
/-!
# Quoted text in diagnostics

Text between double quotes in which every character can be told apart:
quotes, backslashes and the usual control characters have short escapes,
and what has no shape of its own is written by its code point in
hexadecimal digits.
-/

namespace ApiContract.Quoted

/-- Whether a character has a shape of its own on a page. -/
def isPrintable (c : Char) : Bool :=
  c = ' ' || (0x20 < c.toNat && c.toNat < 0x7f) ||
    (0x80 ≤ c.toNat &&
      let category := Unicode.category c
      !(category.startsWith "C" || category.startsWith "Z"))

/-- Whether a character only extends the one before it. -/
def isExtender (c : Char) : Bool :=
  0x300 ≤ c.toNat && (["Mn", "Me"].contains (Unicode.category c) ||
    [0x200c, 0xff9e, 0xff9f].contains c.toNat)

/-- A character as it stands between the quotes. -/
def escape (c : Char) : List Char :=
  if c = '"' then ['\\', '"']
  else if c = '\\' then ['\\', '\\']
  else if c = '\n' then ['\\', 'n']
  else if c = '\r' then ['\\', 'r']
  else if c = '\t' then ['\\', 't']
  else if c = '\x00' then ['\\', '0']
  else if isPrintable c && !isExtender c then [c]
  else ['\\', 'u', '\x7b'] ++ Nat.toDigits 16 c.toNat ++ ['\x7d']

/-- A text in quotes. -/
def quote (text : String) : String :=
  String.ofList ('"' :: (text.toList.flatMap escape ++ ['"']))

/-- The path of a file in quotes; single quotes are escaped, too. -/
def quotePath (path : String) : String :=
  String.ofList
    ('"' :: (path.toList.flatMap fun c => if c = '\'' then ['\\', c] else escape c) ++ ['"'])

/-- A text that may be missing, in quotes of a kind. -/
def optional (quote : String → String) : Option String → String
  | none => "None"
  | some text => "Some(" ++ quote text ++ ")"

end ApiContract.Quoted
