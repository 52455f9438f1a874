import ApiContract.Pattern.Escape
/-!
# Bracketed classes

The text between brackets in a pattern: characters, ranges, escapes, POSIX
classes and classes in brackets of their own, combined by `&&`, `--` and
`~~` from left to right.  A bracket is read with the brackets around it
kept on a stack of frames.
-/

namespace ApiContract.Pattern

/-- The conventions for reading brackets. -/
structure ClassRules where
  /-- How an escape is read, from behind its backslash. -/
  escape : List Char → Except Refusal (Escape × List Char)
  /-- Skips what does not count. -/
  skip : List Char → List Char
  /-- Whether letters stand for both cases. -/
  ignoreCase : Bool

/-- An operator between the parts of a class. -/
inductive SetOperator where
  | intersection
  | difference
  | exclusive
deriving DecidableEq

/-- The set of two parts. -/
def SetOperator.apply : SetOperator → CharSet → CharSet → CharSet
  | .intersection => CharSet.intersection
  | .difference => CharSet.difference
  | .exclusive => CharSet.exclusive

/-- A bracket that is open: what stands before the last operator in it, and
what has been read since. -/
structure ClassFrame where
  negated : Bool
  left : Option (SetOperator × CharSet)
  items : CharSet

namespace ClassFrame

/-- The frame with another item. -/
def add (frame : ClassFrame) (item : CharSet) : ClassFrame :=
  { frame with items := .union frame.items item }

/-- The set of all that has been read. -/
def read (frame : ClassFrame) (ignoreCase : Bool) : CharSet :=
  let items := CharSet.anyCaseIf ignoreCase frame.items
  match frame.left with
  | some (operator, left) => operator.apply left items
  | none => items

/-- The frame behind an operator. -/
def behind (frame : ClassFrame) (ignoreCase : Bool) (operator : SetOperator) : ClassFrame :=
  { frame with left := some (operator, frame.read ignoreCase), items := .none }

/-- The set of the bracket once it is closed. -/
def close (frame : ClassFrame) (ignoreCase : Bool) : CharSet :=
  CharSet.negateIf frame.negated (frame.read ignoreCase)

end ClassFrame

namespace ClassRules

/-- Hyphens at the beginning of a bracket, which stand for themselves. -/
def openHyphens (rules : ClassRules) (frame : ClassFrame) :
    Nat → List Char → ClassFrame × List Char
  | bound + 1, '-' :: rest => rules.openHyphens (frame.add (.single '-')) bound (rules.skip rest)
  | _, text => (frame, text)

/-- The beginning of a bracket: the mark of a complement, hyphens, and a
closing bracket that stands for itself because nothing is before it. -/
def opening (rules : ClassRules) (text : List Char) : ClassFrame × List Char :=
  let (negated, text) : Bool × List Char := match rules.skip text with
    | '^' :: rest => (true, rules.skip rest)
    | text => (false, text)
  match text with
  | ']' :: rest => (⟨negated, none, .single ']'⟩, rules.skip rest)
  | text => rules.openHyphens ⟨negated, none, .none⟩ text.length text

/-- A character or an escape. -/
def item (rules : ClassRules) : List Char → Except Refusal (Escape × List Char)
  | '\\' :: rest => rules.escape rest
  | c :: rest => .ok (.char c, rest)
  | [] => .error .malformed

/-- The set that an item stands for on its own. -/
def setOf : Escape → Except Refusal CharSet
  | .char c => .ok (.single c)
  | .set set => .ok set
  | _ => .error .malformed

/-- An item, or a range between two characters. -/
def itemOrRange (rules : ClassRules) (text : List Char) :
    Except Refusal (CharSet × List Char) := do
  let (first, rest) ← rules.item text
  match rules.skip rest with
  | [] => throw .malformed
  | '-' :: after =>
    match rules.skip after with
    | [] => throw .malformed
    | c :: rest =>
      if c = ']' || c = '-' then return (← setOf first, '-' :: after)
      else
        match first, ← rules.item (c :: rest) with
        | .char low, (.char high, rest) =>
          if low ≤ high then return (.range low high, rest) else throw .malformed
        | _, _ => throw .malformed
  | rest => return (← setOf first, rest)

/-- A POSIX class, from behind `[:`, if there is one. -/
def posix? (text : List Char) : Option (CharSet × List Char) :=
  let (negated, text) : Bool × List Char := match text with
    | '^' :: rest => (true, rest)
    | text => (false, text)
  match text.dropWhile (· ≠ ':') with
  | ':' :: ']' :: rest =>
    (CharSet.posix? (String.ofList (text.takeWhile (· ≠ ':')))).map fun set =>
      (CharSet.negateIf negated set, rest)
  | _ => none

/-- The class of the bracket `frame` and those outside of it, from
somewhere between them. -/
def readFrom (rules : ClassRules) (frame : ClassFrame) (outside : List ClassFrame) :
    Nat → List Char → Except Refusal (CharSet × List Char)
  | 0, _ => .error .malformed
  | bound + 1, text =>
    match rules.skip text with
    | [] => .error .malformed
    | ']' :: rest =>
      match outside with
      | [] => .ok (frame.close rules.ignoreCase, rest)
      | next :: outside =>
        rules.readFrom (next.add (frame.close rules.ignoreCase)) outside bound rest
    | '[' :: rest =>
      let named := match rest with
        | ':' :: name => posix? name
        | _ => none
      match named with
      | some (set, rest) => rules.readFrom (frame.add set) outside bound rest
      | none =>
        let (inner, rest) := rules.opening rest
        rules.readFrom inner (frame :: outside) bound rest
    | '&' :: '&' :: rest =>
      rules.readFrom (frame.behind rules.ignoreCase .intersection) outside bound rest
    | '-' :: '-' :: rest =>
      rules.readFrom (frame.behind rules.ignoreCase .difference) outside bound rest
    | '~' :: '~' :: rest =>
      rules.readFrom (frame.behind rules.ignoreCase .exclusive) outside bound rest
    | text =>
      match rules.itemOrRange text with
      | .ok (set, rest) => rules.readFrom (frame.add set) outside bound rest
      | .error refusal => .error refusal

/-- A class, from behind its first bracket. -/
def read (rules : ClassRules) (text : List Char) : Except Refusal (CharSet × List Char) :=
  let (frame, rest) := rules.opening text
  rules.readFrom frame [] (text.length + 1) rest

end ClassRules

end ApiContract.Pattern
