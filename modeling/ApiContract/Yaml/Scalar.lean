import ApiContract.Text.Ascii
import ApiContract.Yaml.Source
/-!
# Scalars in the text

Three ways of writing text, each read glyph by glyph:

* plain scalars (`Plain.read`), which end at an indicator, at a comment or
  where the indentation ends,
* quoted scalars (`Quoted.readSingle`, `Quoted.readDouble`),
* block scalars (`Block.read`), literal or folded.

Plain and quoted scalars may go on over several lines.  What stands
between two words then folds: one line break is a space, more of them are
one break less (`Gap.text`).
-/

namespace ApiContract.Yaml

/-- What has been read between two words. -/
inductive Gap where
  /-- Blanks within a line. -/
  | blanks (text : List Char)
  /-- The first line break, if it counts, and the further ones. -/
  | breaks (first : Option Char) (more : List Char)
deriving Repr

namespace Gap

/-- No gap. -/
def empty : Gap := .blanks []

/-- Whether nothing stands between the words. -/
def isEmpty : Gap → Bool
  | .blanks [] => true
  | _ => false

/-- Whether the gap goes over the end of a line. -/
def crossesLine : Gap → Bool
  | .blanks _ => false
  | .breaks _ _ => true

/-- The gap with one more blank or line break.  Blanks beside line breaks do
not count. -/
def add (c : Char) : Gap → Gap
  | .blanks text => if isBreak c then .breaks (some c) [] else .blanks (text ++ [c])
  | .breaks first more => if isBreak c then .breaks first (more ++ [c]) else .breaks first more

/-- What the gap stands for. -/
def text : Gap → List Char
  | .blanks text => text
  | .breaks (some '\n') [] => [' ']
  | .breaks (some '\n') more => more
  | .breaks first more => first.toList ++ more

end Gap

/-! ## Plain scalars -/

namespace Plain

/-- The characters that end a plain scalar within brackets. -/
def isFlowIndicator (c : Char) : Bool := c = ',' || c = '[' || c = ']' || c = '{' || c = '}'

/-- What a plain scalar turned out to be. -/
structure Reading where
  text : List Char
  /-- Whether the reading went over the end of a line after the last word. -/
  crossedLine : Bool
  rest : Source

/-- Whether the scalar ends before a glyph that follows a gap. -/
def endsBefore (inFlow : Bool) (indent : Nat) (gap : Gap) (source : Source) : Bool :=
  match source with
  | [] => true
  | g :: _ =>
    !gap.isEmpty && ((!inFlow && g.column < indent) || g.char = '#') || source.atDocumentMark

/-- Reads on in a plain scalar: `done` has been read, last character first,
and `gap` after it.  In a block the lines must be indented by `indent`. -/
def readOn (inFlow : Bool) (indent : Nat) (done : List Char) (gap : Gap) :
    Source → Except Fault Reading
  | [] => .ok ⟨done.reverse, gap.crossesLine, []⟩
  | g :: rest =>
    let stop : Except Fault Reading := .ok ⟨done.reverse, gap.crossesLine, g :: rest⟩
    if isGap g.char then
      if g.char = '\t' && gap.crossesLine && g.column < indent then .error .tabIndentation
      else readOn inFlow indent done (gap.add g.char) rest
    else if endsBefore inFlow indent gap (g :: rest) then stop
    else if g.char = ':' && Source.atGap rest then stop
    else if inFlow && isFlowIndicator g.char then stop
    else if inFlow && g.char = ':' &&
        (rest.head?.any fun h => isFlowIndicator h.char || h.char = '?') then
      .error .strayColon
    else readOn inFlow indent (g.char :: (gap.text.reverse ++ done)) .empty rest

/-- Reads a plain scalar. -/
def read (inFlow : Bool) (indent : Nat) (source : Source) : Except Fault Reading :=
  readOn inFlow indent [] .empty source

end Plain

/-! ## Quoted scalars -/

namespace Quoted

/-- The text of a quoted scalar and what is left after the closing quote. -/
abbrev Reading : Type := Except Fault (List Char × Source)

/-- Reads on in a single-quoted scalar, where a doubled quote is a quote. -/
def readSingle (done : List Char) (gap : Gap) : Source → Reading
  | [] => .error .unclosedQuote
  | g :: rest =>
    let done' := gap.text.reverse ++ done
    if isGap g.char then readSingle done (gap.add g.char) rest
    else if Source.atDocumentMark (g :: rest) then .error .markInsideQuotes
    else if g.char = '\'' then
      match rest with
      | ⟨'\'', _, _, _⟩ :: after => readSingle ('\'' :: done') .empty after
      | _ => .ok (done'.reverse, rest)
    else readSingle (g.char :: done') .empty rest

/-- The character that a one-letter escape stands for. -/
def escaped? (c : Char) : Option Char :=
  [('0', '\x00'), ('a', '\x07'), ('b', '\x08'), ('t', '\t'), ('\t', '\t'), ('n', '\n'),
    ('v', '\x0b'), ('f', '\x0c'), ('r', '\r'), ('e', '\x1b'), (' ', ' '), ('"', '"'), ('/', '/'),
    ('\\', '\\'), ('N', '\u0085'), ('_', '\u00a0'), ('L', '\u2028'), ('P', '\u2029')].lookup c

/-- The number of hexadecimal digits that follow an escape letter. -/
def hexDigits? (c : Char) : Option Nat := [('x', 2), ('u', 4), ('U', 8)].lookup c

/-- Reads on in a double-quoted scalar.  In the middle of a numeric escape
`due` digits are still to come and `code` is the value of those read. -/
def readDouble (done : List Char) (gap : Gap) (due code : Nat) : Source → Reading
  | [] => .error .unclosedQuote
  | g :: rest =>
    let done' := gap.text.reverse ++ done
    match due with
    | more + 1 =>
      match Ascii.hexValue? g.char with
      | none => .error .malformedEscape
      | some digit =>
        let code := code * 16 + digit
        if 0 < more then readDouble done gap more code rest
        else if code.isValidChar then readDouble (Char.ofNat code :: done') .empty 0 0 rest
        else .error .malformedEscape
    | 0 =>
      if isGap g.char then readDouble done (gap.add g.char) 0 0 rest
      else if Source.atDocumentMark (g :: rest) then .error .markInsideQuotes
      else if g.char = '"' then .ok (done'.reverse, rest)
      else if g.char = '\\' then
        match rest with
        | [] => .error .unknownEscape
        | e :: after =>
          if isBreak e.char then readDouble done' (.breaks none []) 0 0 after
          else
            match escaped? e.char, hexDigits? e.char with
            | some c, _ => readDouble (c :: done') .empty 0 0 after
            | none, some digits => readDouble done' .empty digits 0 after
            | none, none => .error .unknownEscape
      else readDouble (g.char :: done') .empty 0 0 rest

end Quoted

/-! ## Block scalars -/

/-- What becomes of the line breaks at the end of a block scalar. -/
inductive Chomping where
  | strip
  | clip
  | keep
deriving DecidableEq, Repr

/-- A block scalar that is being read. -/
structure Block where
  folded : Bool
  /-- The indentation of the lines, once it is known. -/
  indent : Option Nat
  /-- The least indentation that the lines can have. -/
  least : Nat
  /-- The deepest column that leading spaces have reached. -/
  widest : Nat
  /-- The text of the lines so far, last character first. -/
  text : List Char
  /-- The break at the end of the last line. -/
  lineBreak : Option Char
  /-- The empty lines after it. -/
  emptyLines : List Char
  /-- Whether the last line began with a blank. -/
  blankStart : Bool

namespace Block

/-- The indicators after the mark of a block scalar, in either order. -/
def readHeader : Source → Except Fault (Chomping × Nat × Source)
  | source =>
    let (chomping, source) := chompingOf source
    let (increment, source) := incrementOf source
    let (chomping, source) := match chomping with
      | none => chompingOf source
      | some c => (some c, source)
    if increment = some 0 then .error .blockHeader
    else
      match source.endOfLine? with
      | some rest => .ok (chomping.getD .clip, increment.getD 0, rest)
      | none => .error .blockHeader
where
  /-- The indicator for the line breaks at the end. -/
  chompingOf : Source → Option Chomping × Source
    | ⟨'+', _, _, _⟩ :: rest => (some .keep, rest)
    | ⟨'-', _, _, _⟩ :: rest => (some .strip, rest)
    | source => (none, source)
  /-- The indicator for the indentation. -/
  incrementOf : Source → Option Nat × Source
    | g :: rest =>
      if Ascii.isDigit g.char then (some (g.char.toNat - '0'.toNat), rest) else (none, g :: rest)
    | [] => (none, [])

/-- Whether a column lies within the indentation, as far as it is known. -/
def isWithinIndent (block : Block) (column : Nat) : Bool :=
  match block.indent with
  | none => true
  | some indent => column < indent

/-- The block with its indentation decided by the leading spaces. -/
def settle (block : Block) : Block :=
  { block with indent := some (block.indent.getD (max block.widest block.least)) }

/-- The block when a line begins with `g`: the breaks before it are joined
to the text.  In a folded scalar one break between two lines becomes a
space, unless one of them begins with a blank. -/
def startLine (block : Block) (g : Glyph) : Block :=
  let blank := isBlank g.char
  let joint :=
    if block.folded && block.lineBreak = some '\n' && !block.blankStart && !blank then
      if block.emptyLines.isEmpty then [' '] else block.emptyLines
    else block.lineBreak.toList ++ block.emptyLines
  { block with
    text := g.char :: (joint.reverse ++ block.text)
    lineBreak := none
    emptyLines := []
    blankStart := blank }

/-- Reads on in a block scalar, either within a line or in the indentation
before one. -/
def readOn (block : Block) (inLine : Bool) : Source → Except Fault (Block × Source)
  | [] => .ok (block, [])
  | g :: rest =>
    if inLine then
      if isBreak g.char then readOn { block with lineBreak := some g.char } false rest
      else readOn { block with text := g.char :: block.text } true rest
    else if g.char = ' ' && block.isWithinIndent g.column then
      readOn { block with widest := max block.widest (g.column + 1) } false rest
    else if g.char = '\t' && block.isWithinIndent g.column then .error .tabIndentation
    else if isBreak g.char then
      readOn { block with emptyLines := block.emptyLines ++ [g.char] } false rest
    else
      let block := block.settle
      if block.indent = some g.column then readOn (block.startLine g) true rest
      else .ok (block, g :: rest)

/-- Reads a block scalar from behind its mark.  `outer` is the indentation
of the block around it, if there is one. -/
def read (folded : Bool) (outer : Option Nat) (source : Source) :
    Except Fault (List Char × Source) := do
  let (chomping, increment, rest) ← readHeader source
  let indent := if increment = 0 then none else some (outer.getD 0 + increment)
  let least := max 1 ((outer.map (· + 1)).getD 0)
  let (block, rest) ← readOn ⟨folded, indent, least, 0, [], none, [], false⟩ false rest
  let tail := match chomping with
    | .strip => []
    | .clip => block.lineBreak.toList
    | .keep => block.lineBreak.toList ++ block.emptyLines
  .ok (block.text.reverse ++ tail, rest)

end Block

end ApiContract.Yaml
