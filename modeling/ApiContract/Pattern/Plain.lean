import ApiContract.Pattern.Class
/-!
# Plain patterns

Plain patterns have no look-around and no back references.  `verdict` reads
a text as a plain pattern and says whether it is one, whether a part that
only extended patterns have comes before any fault, or neither.
-/

namespace ApiContract.Pattern

/-- How a text reads as a plain pattern. -/
inductive Verdict where
  | plain
  /-- A part that only extended patterns have follows so many characters of
  a plain one. -/
  | extended (before : Nat)
  | malformed
deriving DecidableEq, Repr

/-- A plain pattern being read. -/
structure Scan where
  /-- For each open group, whether blanks counted for nothing outside of it. -/
  outside : List Bool
  ignoreBlanks : Bool
  names : List (List Char)
  /-- Whether a repetition may follow. -/
  repeatable : Bool
  /-- Whether the escape of the bell character was met. -/
  bell : Bool

/-- The text after blanks and comments, if they count for nothing. -/
def skipBlanks (ignoreBlanks : Bool) (text : List Char) : List Char :=
  if ignoreBlanks then skip text.length text else text
where
  /-- Skips one blank or comment at a time. -/
  skip : Nat → List Char → List Char
  | bound + 1, c :: rest =>
    if CharSet.whiteSpace.contains c then skip bound rest
    else if c = '#' then skip bound (rest.dropWhile (· ≠ '\n'))
    else c :: rest
  | _, text => text

namespace Scan

/-- A number of repetitions, with blanks around it. -/
def readCount? (text : List Char) : Option Nat × List Char :=
  let text := text.dropWhile CharSet.whiteSpace.contains
  let digits := text.takeWhile Ascii.isDigit
  let rest := (text.dropWhile Ascii.isDigit).dropWhile CharSet.whiteSpace.contains
  let count := Ascii.decimalValue digits
  (if digits.isEmpty || Nat.pow 2 32 ≤ count then none else some count, rest)

/-- The bounds of a repetition, from behind the brace. -/
def readCounts (text : List Char) : Except Refusal (List Char) :=
  match readCount? text with
  | (some _, '\x7d' :: rest) => .ok rest
  | (some least, ',' :: rest) =>
    match rest.dropWhile CharSet.whiteSpace.contains with
    | '\x7d' :: rest => .ok rest
    | rest =>
      match readCount? rest with
      | (some most, '\x7d' :: rest) => if least ≤ most then .ok rest else .error .malformed
      | _ => .error .malformed
  | _ => .error .malformed

/-- Whether a character may stand in the name of a group. -/
def isNameChar (first : Bool) (c : Char) : Bool :=
  c = '_' || CharSet.alphabetic.contains c ||
    (!first && (c = '.' || c = '[' || c = ']' || (CharSet.category "N").contains c))

/-- The name of a group, from behind the angle bracket. -/
def readName (known : List (List Char)) (text : List Char) :
    Except Refusal (List Char × List Char) :=
  let name := text.takeWhile (· ≠ '>')
  match name, text.dropWhile (· ≠ '>') with
  | first :: others, _ :: rest =>
    if isNameChar true first && others.all (isNameChar false) && !known.contains name then
      .ok (name, rest)
    else .error .malformed
  | _, _ => .error .malformed

/-- Flags up to a closing parenthesis or a colon: whether they say that
blanks count for nothing, whether there are none, the mark behind them and
the rest. -/
def readFlags (seen : List Char) (blanks : Option Bool) :
    List Char → Except Refusal (Option Bool × Bool × Char × List Char)
  | [] => .error .malformed
  | c :: rest =>
    if c = ')' || c = ':' then
      if seen.head? = some '-' then .error .malformed
      else .ok (blanks, seen.isEmpty, c, rest)
    else if seen.contains c || !"imsUuRx-".toList.contains c then .error .malformed
    else readFlags (c :: seen) (if c = 'x' then some (!seen.contains '-') else blanks) rest

/-- A group, from behind its parenthesis. -/
def readGroup (scan : Scan) (text : List Char) : Except Refusal (Scan × List Char) :=
  let inside (ignoreBlanks : Bool) : Scan :=
    { scan with
      outside := scan.ignoreBlanks :: scan.outside
      ignoreBlanks := ignoreBlanks
      repeatable := false }
  let named (name : List Char) : Except Refusal (Scan × List Char) := do
    let (name, rest) ← readName scan.names name
    return ({ inside scan.ignoreBlanks with names := name :: scan.names }, rest)
  match skipBlanks scan.ignoreBlanks text with
  | '?' :: '=' :: _ | '?' :: '!' :: _ | '?' :: '<' :: '=' :: _ | '?' :: '<' :: '!' :: _ =>
    .error (.extended (text.length + 1))
  | '?' :: 'P' :: '<' :: name => named name
  | '?' :: '<' :: name => named name
  | '?' :: flags => do
    let (blanks, noFlags, mark, rest) ← readFlags [] none flags
    let ignoreBlanks := blanks.getD scan.ignoreBlanks
    if mark = ':' then return (inside ignoreBlanks, rest)
    else if noFlags then throw .malformed
    else return ({ scan with ignoreBlanks := ignoreBlanks, repeatable := false }, rest)
  | rest => .ok (inside scan.ignoreBlanks, rest)

/-- The conventions for brackets. -/
def classRules (scan : Scan) : ClassRules :=
  ⟨Escape.readPlain, skipBlanks scan.ignoreBlanks, false⟩

/-- The part at the beginning of a text that is not empty. -/
def readPart (scan : Scan) (c : Char) (rest : List Char) : Except Refusal (Scan × List Char) :=
  let part : Scan := { scan with repeatable := true }
  if c = '(' then scan.readGroup rest
  else if c = ')' then
    match scan.outside with
    | [] => .error .malformed
    | ignoreBlanks :: outside =>
      .ok ({ part with outside := outside, ignoreBlanks := ignoreBlanks }, rest)
  else if c = '|' then .ok ({ scan with repeatable := false }, rest)
  else if c = '[' then (scan.classRules.read rest).map fun (_, rest) => (part, rest)
  else if c = '?' || c = '*' || c = '+' || c = '\x7b' then
    if !scan.repeatable then .error .malformed
    else do
      let rest ← if c = '\x7b' then readCounts rest else .ok rest
      match rest with
      | '?' :: rest => return (part, rest)
      | rest => return (part, rest)
  else if c = '\\' then
    (Escape.readPlain rest).map fun (_, after) =>
      ({ part with bell := scan.bell || rest.head? = some 'a' }, after)
  else .ok (part, rest)

/-- Reads a text to its end. -/
def run (scan : Scan) : Nat → List Char → Except Refusal Scan
  | 0, _ => .error .malformed
  | bound + 1, text =>
    match skipBlanks scan.ignoreBlanks text with
    | [] => if scan.outside.isEmpty then .ok scan else .error .malformed
    | c :: rest =>
      match scan.readPart c rest with
      | .ok (scan, rest) => scan.run bound rest
      | .error refusal => .error refusal

end Scan

/-- How a text reads as a plain pattern.  The bell character, though it has
an escape, does not occur in plain patterns. -/
def verdict (text : List Char) : Verdict :=
  match Scan.run ⟨[], false, [], false, false⟩ (text.length + 1) text with
  | .ok scan => if scan.bell then .malformed else .plain
  | .error (.extended left) => .extended (text.length - left)
  | .error .malformed => .malformed

end ApiContract.Pattern
