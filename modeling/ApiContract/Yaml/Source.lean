import ApiContract.Yaml.Fault
/-!
# Characters and their places

YAML gives meaning to lines and columns.  The text is therefore read as a
list of glyphs, each a character with its place; what is left of the text
knows where it begins, and every reader is a recursion on the list.

A line break is one glyph: `\n`, or one of the two separators U+2028 and
U+2029, which are kept as they are.
-/

namespace ApiContract.Yaml

/-- A character and its place. -/
structure Glyph where
  char : Char
  line : Nat
  column : Nat
  /-- How many bytes of text come before it. -/
  offset : Nat
deriving Repr

/-- What is left of a text. -/
abbrev Source : Type := List Glyph

/-- The characters a document may hold. -/
def isAllowed (c : Char) : Bool :=
  c = '\t' || c = '\n' || c = '\r' || (' ' ≤ c && c ≤ '~') || c = '\u0085' ||
    ('\u00a0' ≤ c && c ≠ '\ufffe' && c ≠ '\uffff')

/-- Spaces and tabs. -/
def isBlank (c : Char) : Bool := c = ' ' || c = '\t'

/-- Line breaks, as far as they occur in glyphs. -/
def isBreak (c : Char) : Bool := c = '\n' || c = '\u2028' || c = '\u2029'

/-- What separates words: blanks and line breaks. -/
def isGap (c : Char) : Bool := isBlank c || isBreak c

/-- The characters of names: ASCII letters, digits, `_` and `-`. -/
def isNameChar (c : Char) : Bool := c.isAlphanum || c = '_' || c = '-'

namespace Source

/-- The glyphs of characters that begin at a place. -/
def place (line column offset : Nat) : List Char → Source
  | [] => []
  | '\r' :: '\n' :: rest => ⟨'\n', line, column, offset⟩ :: place (line + 1) 0 (offset + 2) rest
  | c :: rest =>
    if c = '\r' || c = '\u0085' then
      ⟨'\n', line, column, offset⟩ :: place (line + 1) 0 (offset + c.utf8Size) rest
    else if isBreak c then
      ⟨c, line, column, offset⟩ :: place (line + 1) 0 (offset + c.utf8Size) rest
    else ⟨c, line, column, offset⟩ :: place line (column + 1) (offset + c.utf8Size) rest

/-- The glyphs of a text.  A byte order mark at its start takes a column
but is not part of what is read. -/
def ofText (text : String) : Except Fault Source :=
  if text.toList.all isAllowed then
    match text.toList with
    | '\ufeff' :: rest => .ok (place 0 1 3 rest)
    | chars => .ok (place 0 0 0 chars)
  else .error .forbiddenCharacter

/-- Whether a word ends here: at a gap or at the end of the text. -/
def atGap : Source → Bool
  | [] => true
  | g :: _ => isGap g.char

/-- Whether a document mark, three times `c` at the start of a line, stands
here. -/
def atMark (c : Char) : Source → Bool
  | g :: h :: i :: rest =>
    g.column = 0 && g.char = c && h.char = c && i.char = c && atGap rest
  | _ => false

/-- Whether one of the two document marks stands here. -/
def atDocumentMark (source : Source) : Bool := source.atMark '-' || source.atMark '.'

/-- The text without its leading blanks. -/
def skipBlanks (source : Source) : Source := source.dropWhile fun g => isBlank g.char

/-- The text from the next line break on. -/
def skipLine (source : Source) : Source := source.dropWhile fun g => !isBreak g.char

/-- The text from behind the blanks and the comment that may end a line;
`none` if the line goes on. -/
def endOfLine? (source : Source) : Option Source :=
  match source.skipBlanks with
  | [] => some []
  | g :: rest =>
    if isBreak g.char then some rest
    else if g.char = '#' then some (skipLine rest).tail
    else none

end Source

end ApiContract.Yaml
