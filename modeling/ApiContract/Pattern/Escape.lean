import ApiContract.Pattern.Tree
import ApiContract.Text.Ascii
/-!
# Escapes in patterns

What follows a backslash.  Plain patterns know the escapes that denote a
character, a class or a condition on the position.  Extended patterns have
in addition back references and further classes, and leave out nothing
that plain patterns have but the special word boundaries in braces.
-/

namespace ApiContract.Pattern

open Ascii

/-- Why a text is refused as a pattern of the plain kind. -/
inductive Refusal where
  /-- A part that only extended patterns have comes before any fault, with
  so many characters left from its beginning. -/
  | extended (left : Nat)
  | malformed
deriving DecidableEq, Repr

/-- What an escape stands for. -/
inductive Escape where
  | char (c : Char)
  | set (members : CharSet)
  | anchor (condition : Anchor)
  | again (group : Nat)
  | againNamed (name : List Char)

namespace Escape

/-- A character that an escaped letter stands for. -/
def control? : Char → Option Char
  | 'f' => some '\x0c'
  | 'n' => some '\n'
  | 'r' => some '\r'
  | 't' => some '\t'
  | 'v' => some '\x0b'
  | 'a' => some '\x07'
  | _ => none

/-- The condition that an escaped character stands for. -/
def anchor? : Char → Option Anchor
  | 'A' => some .textStart
  | 'z' => some .textEnd
  | 'b' => some .wordBoundary
  | 'B' => some .notWordBoundary
  | '<' => some .wordStart
  | '>' => some .wordEnd
  | _ => none

/-- The class that an escaped letter stands for.  With `ascii`, digits and
word characters are those of ASCII. -/
def class? (ascii : Bool) : Char → Option CharSet
  | 'd' => some (if ascii then CharSet.asciiDigit else .category "Nd")
  | 'D' => some (.complement (if ascii then CharSet.asciiDigit else .category "Nd"))
  | 'w' => some (if ascii then CharSet.asciiWord else CharSet.word)
  | 'W' => some (.complement (if ascii then CharSet.asciiWord else CharSet.word))
  | 's' => some (if ascii then CharSet.blank else CharSet.whiteSpace)
  | 'S' => some (.complement (if ascii then CharSet.blank else CharSet.whiteSpace))
  | _ => none

/-- The number of digits after the letter of a hexadecimal escape. -/
def hexDigits? : Char → Option Nat
  | 'x' => some 2
  | 'u' => some 4
  | 'U' => some 8
  | _ => none

/-- The character with a code point in hexadecimal digits. -/
def hexChar? (digits : List Char) : Option Char :=
  let code := digits.foldl (fun n c => n * 16 + (hexValue? c).getD 0) 0
  if code.isValidChar then some (Char.ofNat code) else none

/-- The digits of a hexadecimal escape: as many as its letter says, or any
number of them between braces. -/
def readHex (count : Nat) (text : List Char) : Except Refusal (Escape × List Char) :=
  let (digits, rest) : List Char × Option (List Char) := match text with
    | '\x7b' :: inner =>
      (inner.takeWhile isHex, match inner.dropWhile isHex with
        | '\x7d' :: rest => some rest
        | _ => none)
    | text => (text.take count, if count ≤ text.length then some (text.drop count) else none)
  match rest with
  | some rest =>
    if digits.isEmpty || !digits.all isHex then .error .malformed
    else
      match hexChar? digits with
      | some c => .ok (.char c, rest)
      | none => .error .malformed
  | none => .error .malformed

/-- The name of a property: one character, or any between braces. -/
def readPropertyName (text : List Char) : Except Refusal (List Char × List Char) :=
  match text with
  | '\x7b' :: inner =>
    match inner.dropWhile (· ≠ '\x7d') with
    | '\x7d' :: rest => .ok (inner.takeWhile (· ≠ '\x7d'), rest)
    | _ => .error .malformed
  | c :: rest => if c = '\\' then .error .malformed else .ok ([c], rest)
  | [] => .error .malformed

/-- The characters with a property.  An unknown name is `unknown`. -/
def readProperty (negated : Bool) (unknown : Except Refusal CharSet) (text : List Char) :
    Except Refusal (Escape × List Char) := do
  let (name, rest) ← readPropertyName text
  let found ← match CharSet.named? name with
    | some found => .ok found
    | none => unknown
  return (.set (CharSet.negateIf negated found), rest)

/-- What may follow a word boundary in braces: nothing that is special, or
the name of a special boundary. -/
def readBoundaryName (text : List Char) : Except Refusal (List Char) :=
  let isNameChar (c : Char) : Bool := isLetter c || c = '-'
  match text with
  | '\x7b' :: inner =>
    if inner.isEmpty then .error .malformed
    else if !(inner.head?.any isNameChar) then .ok text
    else
      match inner.dropWhile isNameChar with
      | '\x7d' :: rest =>
        let name := String.ofList (inner.takeWhile isNameChar)
        if ["start", "end", "start-half", "end-half"].contains name then .ok rest
        else .error .malformed
      | _ => .error .malformed
  | text => .ok text

/-- The escape of a plain pattern, from behind the backslash. -/
def readPlain (text : List Char) : Except Refusal (Escape × List Char) :=
  match text with
  | [] => .error .malformed
  | c :: rest =>
    if isDigit c then .error (.extended (text.length + 1))
    else if c = 'p' || c = 'P' then readProperty (c = 'P') (.ok .none) rest
    else if c = 'c' then
      match rest with
      | letter :: rest =>
        if isLetter letter then .ok (.char (Char.ofNat (letter.toNat % 32)), rest)
        else .error .malformed
      | [] => .error .malformed
    else if c = 'b' then (readBoundaryName rest).map fun rest => (.anchor .wordBoundary, rest)
    else
      match hexDigits? c, class? true c, control? c, anchor? c with
      | some count, _, _, _ => readHex count rest
      | _, some found, _, _ => .ok (.set found, rest)
      | _, _, some control, _ => .ok (.char control, rest)
      | _, _, _, some condition => .ok (.anchor condition, rest)
      | _, _, _, _ =>
        if isLetter c || 0x80 ≤ c.toNat then .error .malformed else .ok (.char c, rest)

/-- A group's number. -/
def readGroupNumber (text : List Char) : Except Refusal (Escape × List Char) :=
  .ok (.again (decimalValue (text.takeWhile isDigit)), text.dropWhile isDigit)

/-- A group's name between two marks. -/
def readGroupName (text : List Char) : Except Refusal (Escape × List Char) :=
  let between (close : Char) (inner : List Char) : Except Refusal (Escape × List Char) :=
    match inner.dropWhile (· ≠ close) with
    | _ :: rest => .ok (.againNamed (inner.takeWhile (· ≠ close)), rest)
    | [] => .error .malformed
  match text with
  | '<' :: inner => between '>' inner
  | '\'' :: inner => between '\'' inner
  | _ => .error .malformed

/-- The escape of an extended pattern, from behind the backslash.  Inside a
bracketed class, conditions and names of groups have no meaning. -/
def readExtended (ascii inClass : Bool) (text : List Char) :
    Except Refusal (Escape × List Char) :=
  match text with
  | [] => .error .malformed
  | c :: rest =>
    if isDigit c then readGroupNumber text
    else if c = 'k' && !inClass then readGroupName rest
    else if (c = 'b' || c = 'B') && !inClass && rest.head? = some '\x7b' then .error .malformed
    else if c = 'b' && inClass then .ok (.char '\x08', rest)
    else if c = 'p' || c = 'P' then readProperty (c = 'P') (.error .malformed) rest
    else if c = 'h' || c = 'H' then
      .ok (.set (CharSet.negateIf (c = 'H') CharSet.hexDigit), rest)
    else if c = 'e' then .ok (.char '\x1b', rest)
    else
      match hexDigits? c, class? ascii c, control? c, anchor? c with
      | some count, _, _, _ => readHex count rest
      | _, some found, _, _ => .ok (.set found, rest)
      | _, _, some control, _ => .ok (.char control, rest)
      | _, _, _, some condition =>
        if inClass then
          if isLetter c then .error .malformed else .ok (.char c, rest)
        else .ok (.anchor condition, rest)
      | _, _, _, _ => if isLetter c then .error .malformed else .ok (.char c, rest)

end Escape

end ApiContract.Pattern
