import ApiContract.Pattern.Class
import ApiContract.Pattern.Plain
/-!
# Reading patterns

The tree of a pattern.  Groups that are open stand on a stack of levels,
each with the branches and parts read so far, so that reading goes through
the text once.

A brace that begins no repetition stands for itself.  What has no text to
repeat, such as a condition or an empty part, cannot be repeated.
-/

namespace ApiContract.Pattern

open Ascii

/-- The switches that change how the rest of a group is read. -/
structure Flags where
  ignoreCase : Bool
  multiline : Bool
  dotAll : Bool
  swapGreed : Bool
  ignoreBlanks : Bool

/-- What the parentheses of a group mean. -/
inductive GroupKind where
  | plain
  | capture (index : Nat)
  | atomic
  | look (ahead negated : Bool)

/-- A group being read: its finished branches and the parts of the current
one, last first, and the part that may still be repeated. -/
structure Level where
  kind : GroupKind
  flags : Flags
  branches : List Tree
  parts : List Tree
  last : Option Tree

/-- A pattern being read. -/
structure Reading where
  /-- Whether digits and word characters are those of ASCII. -/
  ascii : Bool
  level : Level
  outside : List Level
  groups : Nat
  names : List (List Char × Nat)
  /-- Whether a group was referred to by its number. -/
  numbered : Bool

namespace Tree

/-- Whether there is anything to repeat. -/
def isRepeatable : Tree → Bool
  | empty | anchor _ | ahead _ _ | behind _ _ _ => false
  | _ => true

/-- The parts one after the other. -/
def sequences : List Tree → Tree
  | [] => empty
  | [part] => part
  | part :: rest => sequence part (sequences rest)

/-- The branches as alternatives. -/
def choices : List Tree → Tree
  | [] => empty
  | [branch] => branch
  | branch :: rest => choice branch (choices rest)

/-- The condition that one of the branches, each of a fixed length, ends
here. -/
def behindOne (negated : Bool) : List Tree → Option Tree
  | [] => none
  | [branch] => branch.length?.map fun length => behind negated length branch
  | branch :: rest => do
    let length ← branch.length?
    let others ← behindOne negated rest
    let here := behind negated length branch
    return if negated then sequence here others else choice here others

end Tree

namespace Level

/-- The level with the last part among the others. -/
def settle (level : Level) : Level :=
  match level.last with
  | some .empty => { level with last := none }
  | some part => { level with parts := part :: level.parts, last := none }
  | none => level

/-- The level with a part that may be repeated. -/
def add (level : Level) (part : Tree) : Level := { level.settle with last := some part }

/-- The branches, all of them finished. -/
def finished (level : Level) : List Tree :=
  let level := level.settle
  (Tree.sequences level.parts.reverse :: level.branches).reverse

/-- The level at the beginning of its next branch. -/
def nextBranch (level : Level) : Level :=
  let settled := level.settle
  { level with
    branches := Tree.sequences settled.parts.reverse :: level.branches, parts := [], last := none }

/-- The tree of the group. -/
def close (level : Level) : Option Tree :=
  let branches := level.finished
  match level.kind with
  | .plain => some (Tree.choices branches)
  | .capture index => some (.group index (Tree.choices branches))
  | .atomic => some (.atomic (Tree.choices branches))
  | .look true negated => some (.ahead negated (Tree.choices branches))
  | .look false negated => Tree.behindOne negated branches

end Level

namespace Reading

/-- The most levels that may be open. -/
def levelLimit : Nat := 64

/-- The flags of the current level. -/
def flags (reading : Reading) : Flags := reading.level.flags

/-- The reading with a part added. -/
def add (reading : Reading) (part : Tree) : Reading :=
  { reading with level := reading.level.add part }

/-- The reading with a character added. -/
def addSet (reading : Reading) (members : CharSet) : Reading :=
  reading.add (.char (CharSet.anyCaseIf reading.flags.ignoreCase members))

/-- A group opened. -/
def push (reading : Reading) (kind : GroupKind) : Reading :=
  let level := reading.level
  { reading with level := ⟨kind, level.flags, [], [], none⟩, outside := level :: reading.outside }

/-- A capturing group opened. -/
def capture (reading : Reading) (name : Option (List Char)) : Reading :=
  let index := reading.groups + 1
  let names := match name with
    | some name => (name, index) :: reading.names
    | none => reading.names
  { reading.push (.capture index) with groups := index, names := names }

/-- Whether references by number and named groups occur together where a
level without alternatives ends. -/
def mixesReferences (reading : Reading) : Bool :=
  reading.level.branches.isEmpty && reading.numbered && !reading.names.isEmpty

/-- The innermost group closed. -/
def pop (reading : Reading) : Except Refusal Reading :=
  match reading.outside, reading.level.close with
  | level :: outside, some tree =>
    if reading.mixesReferences then .error .malformed
    else .ok { reading with level := level.add tree, outside := outside }
  | _, _ => .error .malformed

/-- The text after a comment in parentheses. -/
def skipComment : List Char → Except Refusal (List Char)
  | [] => .error .malformed
  | ')' :: rest => .ok rest
  | '\\' :: _ :: rest => skipComment rest
  | _ :: rest => skipComment rest

/-- A flag switched on or off. -/
def setFlag? (flags : Flags) (on : Bool) : Char → Option Flags
  | 'i' => some { flags with ignoreCase := on }
  | 'm' => some { flags with multiline := on }
  | 's' => some { flags with dotAll := on }
  | 'U' => some { flags with swapGreed := on }
  | 'x' => some { flags with ignoreBlanks := on }
  | 'u' => if on then some flags else none
  | _ => none

/-- Flags up to the parenthesis or colon behind them. -/
def readFlags (on : Bool) (previous : Char) (flags : Flags) :
    List Char → Except Refusal (Flags × Bool × List Char)
  | [] => .error .malformed
  | c :: rest =>
    if c = ')' then
      if previous = '?' || previous = '-' then .error .malformed else .ok (flags, false, rest)
    else if c = ':' then
      if previous = '-' then .error .malformed else .ok (flags, true, rest)
    else if c = '-' then if on then readFlags false c flags rest else .error .malformed
    else
      match setFlag? flags on c with
      | some flags => readFlags on c flags rest
      | none => .error .malformed

/-- The name of a group, from behind the angle bracket. -/
def readName (text : List Char) : Except Refusal (List Char × List Char) :=
  let isNameChar (c : Char) : Bool :=
    c = '_' || CharSet.alphabetic.contains c || (CharSet.category "N").contains c
  match text.takeWhile isNameChar, text.dropWhile isNameChar with
  | first :: others, '>' :: rest => .ok (first :: others, rest)
  | _, _ => .error .malformed

/-- A reference to a group by its name, or by a number in the place of a
name. -/
def addNamed (reading : Reading) (name : List Char) : Except Refusal Reading :=
  let known := match reading.names.lookup name with
    | some index => some index
    | none => if !name.isEmpty && name.all isDigit then some (decimalValue name) else none
  match known with
  | some index =>
    if index ≤ reading.groups then .ok (reading.add (.again reading.flags.ignoreCase index))
    else .error .malformed
  | none => .error .malformed

/-- A group, from behind its parenthesis. -/
def readGroup (reading : Reading) (text : List Char) : Except Refusal (Reading × List Char) :=
  if levelLimit ≤ reading.outside.length + 1 then .error .malformed
  else
    let named (name : List Char) : Except Refusal (Reading × List Char) := do
      let (name, rest) ← readName name
      return (reading.capture (some name), rest)
    match skipBlanks reading.flags.ignoreBlanks text with
    | '?' :: '#' :: rest => do return (reading, ← skipComment rest)
    | '?' :: '=' :: rest => .ok (reading.push (.look true false), rest)
    | '?' :: '!' :: rest => .ok (reading.push (.look true true), rest)
    | '?' :: '<' :: '=' :: rest => .ok (reading.push (.look false false), rest)
    | '?' :: '<' :: '!' :: rest => .ok (reading.push (.look false true), rest)
    | '?' :: '<' :: name => named name
    | '?' :: 'P' :: '<' :: name => named name
    | '?' :: 'P' :: '=' :: name =>
      match name.dropWhile (· ≠ ')') with
      | _ :: rest => do return (← reading.addNamed (name.takeWhile (· ≠ ')')), rest)
      | [] => .error .malformed
    | '?' :: '>' :: rest => .ok (reading.push .atomic, rest)
    | '?' :: rest => do
      let (flags, group, rest) ← readFlags true '?' reading.flags rest
      if group then
        let inside := reading.push .plain
        return ({ inside with level := { inside.level with flags := flags } }, rest)
      else
        let level := reading.level.add .empty
        return ({ reading with level := { level with flags := flags } }, rest)
    | rest => .ok (reading.capture none, rest)

/-- The bounds of a repetition, from behind the brace. -/
def readCounts? (skip : List Char → List Char) (text : List Char) :
    Option (Nat × Option Nat × List Char) :=
  let number? (text : List Char) : Option Nat × List Char :=
    let digits := text.takeWhile isDigit
    (if digits.isEmpty then none else some (decimalValue digits), text.dropWhile isDigit)
  let (least, rest) := number? (skip text)
  match least, skip rest with
  | some least, '\x7d' :: rest => some (least, some least, rest)
  | least, ',' :: rest =>
    let (most, rest) := number? (skip rest)
    match skip rest with
    | '\x7d' :: rest => some (least.getD 0, most, rest)
    | _ => none
  | _, _ => none

/-- The last part repeated, and what may follow the bounds: a mark that
prefers few repetitions, and one that keeps to the first choice. -/
def repeatLast (reading : Reading) (part : Tree) (least : Nat) (most : Option Nat)
    (rest : List Char) : Except Refusal (Reading × List Char) :=
  let skip := skipBlanks reading.flags.ignoreBlanks
  if !part.isRepeatable || most.any (· < least) then .error .malformed
  else
    let (lazy, rest) : Bool × List Char := match skip rest with
      | '?' :: rest => (true, skip rest)
      | rest => (false, rest)
    let greedy := lazy == reading.flags.swapGreed
    let repeated := Tree.repetition part least (most.map (· - least)) greedy
    let (part, rest) : Tree × List Char := match rest with
      | '+' :: rest => (.atomic repeated, rest)
      | rest => (repeated, rest)
    let level := { reading.level with last := some part }
    .ok ({ reading with level := level.settle }, rest)

/-- An escape. -/
def addEscape (reading : Reading) : Escape → Except Refusal Reading
  | .char c => .ok (reading.addSet (.single c))
  | .set members => .ok (reading.addSet members)
  | .anchor condition => .ok (reading.add (.anchor condition))
  | .again index =>
    if index ≤ reading.groups then
      .ok { reading.add (.again reading.flags.ignoreCase index) with numbered := true }
    else .error .malformed
  | .againNamed name => reading.addNamed name

/-- The part at the beginning of a text that is not empty. -/
def readPart (reading : Reading) (c : Char) (rest : List Char) :
    Except Refusal (Reading × List Char) :=
  let flags := reading.flags
  let repeated (least : Nat) (most : Option Nat) (rest : List Char) :
      Except Refusal (Reading × List Char) :=
    reading.repeatLast (reading.level.last.getD .empty) least most rest
  let one (members : CharSet) : Except Refusal (Reading × List Char) :=
    .ok (reading.addSet members, rest)
  if c = '(' then reading.readGroup rest
  else if c = ')' then reading.pop.map (·, rest)
  else if c = '|' then .ok ({ reading with level := reading.level.nextBranch }, rest)
  else if c = '?' then repeated 0 (some 1) rest
  else if c = '*' then repeated 0 none rest
  else if c = '+' then repeated 1 none rest
  else if c = '\x7b' then
    match reading.level.last, readCounts? (skipBlanks flags.ignoreBlanks) rest with
    | some _, some (least, most, rest) => repeated least most rest
    | _, _ => one (.single c)
  else if c = '[' then
    let rules : ClassRules := ⟨Escape.readExtended reading.ascii true, id, flags.ignoreCase⟩
    (rules.read rest).map fun (members, rest) => (reading.add (.char members), rest)
  else if c = '\\' then do
    let (escape, rest) ← Escape.readExtended reading.ascii false rest
    return (← reading.addEscape escape, rest)
  else if c = '^' then
    .ok (reading.add (.anchor (if flags.multiline then .lineStart else .textStart)), rest)
  else if c = '$' then
    .ok (reading.add (.anchor (if flags.multiline then .lineEnd else .textEnd)), rest)
  else if c = '.' then one (if flags.dotAll then .all else .complement (.single '\n'))
  else one (.single c)

/-- Reads a text to its end. -/
def run (reading : Reading) : Nat → List Char → Except Refusal Tree
  | 0, _ => .error .malformed
  | bound + 1, text =>
    match skipBlanks reading.flags.ignoreBlanks text with
    | [] =>
      if reading.outside.isEmpty && !reading.mixesReferences then
        .ok (Tree.choices reading.level.finished)
      else .error .malformed
    | c :: rest =>
      match reading.readPart c rest with
      | .ok (reading, rest) => reading.run bound rest
      | .error refusal => .error refusal

end Reading

/-- The tree of a pattern. -/
def readTree (ascii : Bool) (text : List Char) : Except Refusal Tree :=
  let level : Level := ⟨.plain, ⟨false, false, false, false, false⟩, [], [], none⟩
  Reading.run ⟨ascii, level, [], 0, [], false⟩ (text.length + 1) text

end ApiContract.Pattern
