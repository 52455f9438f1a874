import ApiContract.Yaml.Properties
import ApiContract.Yaml.Scalar
/-!
# From text to tokens

The lexer keeps the indentations of the open blocks and, for each level of
brackets, the place where a key may have begun.  That a scalar was a key
shows only at the colon behind it; the tokens that open the mapping and the
key are then put in at that place (`Lexer.value`).  A key must fit one line
and 1024 bytes.
-/

namespace ApiContract.Yaml

/-- A place where a key may have begun. -/
structure Candidate where
  /-- Whether a key has to begin here, as it does where the line starts at
  the indentation of a block. -/
  required : Bool
  /-- How many tokens come before it. -/
  position : Nat
  line : Nat
  column : Nat
  offset : Nat

/-- What the lexer knows at a place in the text. -/
structure Lexer where
  tokens : Array Token
  /-- The columns of the open blocks, the innermost first. -/
  indents : List Nat
  /-- Whether a key may begin at the next token. -/
  keyAllowed : Bool
  /-- The candidate at the present level of brackets. -/
  candidate : Option Candidate
  /-- The candidates at the outer levels, the nearest first. -/
  outer : List (Option Candidate)

namespace Lexer

/-- The lexer at the start of a text. -/
def start : Lexer := ⟨#[], [], true, none, []⟩

/-- Whether the place is within brackets. -/
def inFlow (lexer : Lexer) : Bool := !lexer.outer.isEmpty

/-- The column of the innermost open block. -/
def indent (lexer : Lexer) : Option Nat := lexer.indents.head?

/-- The lexer with one more token. -/
def push (lexer : Lexer) (token : Token) : Lexer :=
  { lexer with tokens := lexer.tokens.push token }

/-! ## Blocks -/

/-- Opens a block at a column that is deeper than the open ones.  Its token
goes to the given place. -/
def openBlock (lexer : Lexer) (column position : Nat) (token : Token) : Lexer :=
  if !lexer.inFlow && lexer.indent.all (· < column) then
    { lexer with
      indents := column :: lexer.indents
      tokens := lexer.tokens.insertIdxIfInBounds position token }
  else lexer

/-- Closes the blocks that are deeper than a column. -/
def closeBlocks (lexer : Lexer) (column : Nat) : Lexer :=
  if lexer.inFlow then lexer
  else
    let closed := lexer.indents.takeWhile (column < ·)
    { lexer with
      indents := lexer.indents.drop closed.length
      tokens := lexer.tokens ++ closed.map fun _ => Token.blockEnd }

/-- Closes all blocks. -/
def closeAllBlocks (lexer : Lexer) : Lexer :=
  if lexer.inFlow then lexer
  else
    { lexer with
      indents := []
      tokens := lexer.tokens ++ lexer.indents.map fun _ => Token.blockEnd }

/-! ## Keys -/

/-- Gives up the candidate at the present level. -/
def dropCandidate (lexer : Lexer) : Except Fault Lexer :=
  if lexer.candidate.any (·.required) then .error .missingColon
  else .ok { lexer with candidate := none }

/-- Makes the next token a candidate, if a key may begin there. -/
def saveCandidate (lexer : Lexer) (g : Glyph) : Except Fault Lexer :=
  if lexer.keyAllowed then do
    let lexer ← lexer.dropCandidate
    let required := !lexer.inFlow && lexer.indent = some g.column
    .ok { lexer with
      candidate := some ⟨required, lexer.tokens.size, g.line, g.column, g.offset⟩ }
  else .ok lexer

/-- Whether a key that began at a candidate cannot end at a glyph. -/
def isStale (g : Glyph) (candidate : Candidate) : Bool :=
  candidate.line < g.line || candidate.offset + 1024 < g.offset

/-- Gives up all candidates that have become too old. -/
def dropStale (lexer : Lexer) (g : Glyph) : Except Fault Lexer :=
  let stale (candidate : Option Candidate) : Bool := candidate.any (isStale g)
  if (lexer.candidate :: lexer.outer).any (·.any fun c => isStale g c && c.required) then
    .error .missingColon
  else
    .ok { lexer with
      candidate := if stale lexer.candidate then none else lexer.candidate
      outer := lexer.outer.map fun c => if stale c then none else c }

/-! ## Tokens -/

/-- An anchor, an alias, a tag or a scalar, which may begin a key. -/
def keyPart (lexer : Lexer) (g : Glyph) (token : Token) : Except Fault Lexer := do
  let lexer ← lexer.saveCandidate g
  .ok { lexer.push token with keyAllowed := false }

/-- The opening bracket of a flow collection, which may begin a key. -/
def openFlow (lexer : Lexer) (g : Glyph) (token : Token) : Except Fault Lexer := do
  let lexer ← lexer.saveCandidate g
  .ok { lexer.push token with
    keyAllowed := true, candidate := none, outer := lexer.candidate :: lexer.outer }

/-- The closing bracket of a flow collection. -/
def closeFlow (lexer : Lexer) (token : Token) : Except Fault Lexer := do
  let lexer ← lexer.dropCandidate
  let lexer := { lexer.push token with keyAllowed := false }
  match lexer.outer with
  | [] => .ok lexer
  | candidate :: outer => .ok { lexer with candidate := candidate, outer := outer }

/-- The comma in a flow collection. -/
def flowEntry (lexer : Lexer) : Except Fault Lexer := do
  let lexer ← lexer.dropCandidate
  .ok { lexer.push .flowEntry with keyAllowed := true }

/-- The mark of an item of a block sequence. -/
def blockEntry (lexer : Lexer) (g : Glyph) : Except Fault Lexer :=
  if !lexer.inFlow && !lexer.keyAllowed then .error .misplacedEntry
  else do
    let lexer := lexer.openBlock g.column lexer.tokens.size .blockSequenceStart
    let lexer ← lexer.dropCandidate
    .ok { lexer.push .blockEntry with keyAllowed := true }

/-- The mark of a key that is not recognised by its colon alone. -/
def key (lexer : Lexer) (g : Glyph) : Except Fault Lexer :=
  if !lexer.inFlow && !lexer.keyAllowed then .error .misplacedKey
  else do
    let lexer := lexer.openBlock g.column lexer.tokens.size .blockMappingStart
    let lexer ← lexer.dropCandidate
    .ok { lexer.push .key with keyAllowed := !lexer.inFlow }

/-- The mark of a value.  If there is a candidate, it has turned out to be
a key. -/
def value (lexer : Lexer) (g : Glyph) : Except Fault Lexer :=
  match lexer.candidate with
  | some key =>
    let lexer := { lexer with tokens := lexer.tokens.insertIdxIfInBounds key.position .key }
    let lexer := lexer.openBlock key.column key.position .blockMappingStart
    .ok { lexer.push .value with keyAllowed := false, candidate := none }
  | none =>
    if !lexer.inFlow && !lexer.keyAllowed then .error .misplacedValue
    else
      let lexer := lexer.openBlock g.column lexer.tokens.size .blockMappingStart
      .ok { lexer.push .value with keyAllowed := !lexer.inFlow }

/-- A document mark or a directive, which closes everything. -/
def boundary (lexer : Lexer) (token : Token) : Except Fault Lexer := do
  let lexer ← lexer.closeAllBlocks.dropCandidate
  .ok { lexer.push token with keyAllowed := false }

/-- A block scalar. -/
def blockScalar (lexer : Lexer) (folded : Bool) (rest : Source) :
    Except Fault (Lexer × Source) := do
  let lexer ← lexer.dropCandidate
  let (text, rest) ← Block.read folded lexer.indent rest
  let style := if folded then ScalarStyle.folded else .literal
  .ok ({ lexer.push (.scalar style (String.ofList text)) with keyAllowed := true }, rest)

/-- A plain scalar.  After one that was followed by a line break a key may
begin. -/
def plainScalar (lexer : Lexer) (g : Glyph) (rest : Source) : Except Fault (Lexer × Source) := do
  let reading ← Plain.read lexer.inFlow ((lexer.indent.map (· + 1)).getD 0) (g :: rest)
  let lexer ← lexer.keyPart g (.scalar .plain (String.ofList reading.text))
  .ok ({ lexer with keyAllowed := reading.crossedLine }, reading.rest)

/-- The token that begins with `g`. -/
def token (lexer : Lexer) (g : Glyph) (rest : Source) : Except Fault (Lexer × Source) :=
  let single (outcome : Except Fault Lexer) : Except Fault (Lexer × Source) :=
    outcome.map fun lexer => (lexer, rest)
  if g.column = 0 && g.char = '%' then do
    let (directive, rest) ← Directive.read rest
    .ok (← lexer.boundary directive, rest)
  else if Source.atMark '-' (g :: rest) then do
    .ok (← lexer.boundary .documentStart, rest.drop 2)
  else if Source.atMark '.' (g :: rest) then do
    .ok (← lexer.boundary .documentEnd, rest.drop 2)
  else
    match g.char with
    | '[' => single (lexer.openFlow g .flowSequenceStart)
    | '{' => single (lexer.openFlow g .flowMappingStart)
    | ']' => single (lexer.closeFlow .flowSequenceEnd)
    | '}' => single (lexer.closeFlow .flowMappingEnd)
    | ',' => single lexer.flowEntry
    | '-' => if Source.atGap rest then single (lexer.blockEntry g) else lexer.plainScalar g rest
    | '?' =>
      if lexer.inFlow || Source.atGap rest then single (lexer.key g) else lexer.plainScalar g rest
    | ':' =>
      if lexer.inFlow || Source.atGap rest then single (lexer.value g)
      else lexer.plainScalar g rest
    | '*' => do
      let (name, rest) ← Anchor.readName rest
      .ok (← lexer.keyPart g (.alias name), rest)
    | '&' => do
      let (name, rest) ← Anchor.readName rest
      .ok (← lexer.keyPart g (.anchor name), rest)
    | '!' => do
      let (tag, rest) ← Tag.read lexer.inFlow (g :: rest)
      .ok (← lexer.keyPart g tag, rest)
    | '\'' => do
      let (text, rest) ← Quoted.readSingle [] .empty rest
      .ok (← lexer.keyPart g (.scalar .singleQuoted (String.ofList text)), rest)
    | '"' => do
      let (text, rest) ← Quoted.readDouble [] .empty 0 0 rest
      .ok (← lexer.keyPart g (.scalar .doubleQuoted (String.ofList text)), rest)
    | '|' => if lexer.inFlow then .error .strayCharacter else lexer.blockScalar false rest
    | '>' => if lexer.inFlow then .error .strayCharacter else lexer.blockScalar true rest
    | c =>
      if ['\t', '#', '%', '@', '\x60'].contains c then .error .strayCharacter
      else lexer.plainScalar g rest

/-- The text from the next token on: blanks, comments and line breaks are
passed over.  Where a key may begin, a tab is no blank. -/
def skipGap (lexer : Lexer) (inComment : Bool) : Source → Lexer × Source
  | [] => (lexer, [])
  | g :: rest =>
    if isBreak g.char then
      skipGap { lexer with keyAllowed := lexer.keyAllowed || !lexer.inFlow } false rest
    else if inComment || g.char = ' ' then skipGap lexer inComment rest
    else if g.char = '\t' && (lexer.inFlow || !lexer.keyAllowed) then skipGap lexer false rest
    else if g.char = '#' then skipGap lexer true rest
    else (lexer, g :: rest)

/-- All tokens of a text.  Every step but the last takes at least one
glyph, so the bound is never reached. -/
def run (lexer : Lexer) (source : Source) : Nat → Except Fault (List Token)
  | 0 => .error .strayCharacter
  | bound + 1 =>
    match lexer.skipGap false source with
    | (lexer, []) => do
      let lexer ← lexer.closeAllBlocks.dropCandidate
      .ok lexer.tokens.toList
    | (lexer, g :: rest) => do
      let lexer ← lexer.dropStale g
      let (lexer, rest) ← (lexer.closeBlocks g.column).token g rest
      lexer.run rest bound

end Lexer

/-- The tokens of a text. -/
def tokens (text : String) : Except Fault (List Token) := do
  let source ← Source.ofText text
  Lexer.start.run source (source.length + 1)

end ApiContract.Yaml
