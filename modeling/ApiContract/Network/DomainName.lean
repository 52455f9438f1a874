import ApiContract.Network.Address
import ApiContract.Text.CaseFolding
import ApiContract.Text.Category
/-!
# Domain names

A domain name in any script has a form in ASCII: letters are folded,
characters without a meaning of their own dropped, and labels that are not
ASCII written in Punycode behind `xn--`.
-/

namespace ApiContract.Network

open Ascii

/-! ## Punycode -/

namespace Punycode

/-- The digit of a value below 36. -/
def digit (value : Nat) : Char :=
  if value < 26 then Char.ofNat ('a'.toNat + value) else Char.ofNat ('0'.toNat + value - 26)

/-- The value of a digit. -/
def digitValue? (c : Char) : Option Nat :=
  if 'a' ≤ c && c ≤ 'z' then some (c.toNat - 'a'.toNat)
  else if 'A' ≤ c && c ≤ 'Z' then some (c.toNat - 'A'.toNat)
  else if isDigit c then some (c.toNat - '0'.toNat + 26)
  else none

/-- Divides until the value is small, counting in steps of 36. -/
def settle (delta steps : Nat) : Nat → Nat
  | 0 => steps + 36 * delta / (delta + 38)
  | bound + 1 =>
    if 455 < delta then settle (delta / 35) (steps + 36) bound
    else steps + 36 * delta / (delta + 38)

/-- The bias for the next number. -/
def adapt (delta count : Nat) (first : Bool) : Nat :=
  let delta := if first then delta / 700 else delta / 2
  settle (delta + delta / count) 0 32

/-- The threshold of a digit position. -/
def threshold (position bias : Nat) : Nat := min 26 (max 1 (position - bias))

/-- The digits of a number, from the given position on. -/
def writeNumber (bias value position : Nat) : Nat → List Char
  | 0 => []
  | bound + 1 =>
    let t := threshold position bias
    if value < t then [digit value]
    else
      digit (t + (value - t) % (36 - t)) ::
        writeNumber bias ((value - t) / (36 - t)) (position + 36) bound

/-- An encoder at work: what it has written, last first, and its counters. -/
structure Encoder where
  written : List Char
  delta : Nat
  handled : Nat
  bias : Nat

/-- The encoder after one character of the text, while it inserts `code`. -/
def Encoder.pass (encoder : Encoder) (basic code : Nat) (c : Char) : Encoder :=
  if c.toNat < code then { encoder with delta := encoder.delta + 1 }
  else if c.toNat = code then
    { written := (writeNumber encoder.bias encoder.delta 36 64).reverse ++ encoder.written
      delta := 0
      handled := encoder.handled + 1
      bias := adapt encoder.delta (encoder.handled + 1) (encoder.handled = basic) }
  else encoder

/-- The Punycode of a text. -/
def encode (text : List Char) : List Char :=
  let basic := text.filter (·.toNat < 0x80)
  let others := ((text.filter (0x80 ≤ ·.toNat)).map Char.toNat).mergeSort.eraseDups
  let start : Encoder := ⟨[], 0, basic.length, 72⟩
  let (encoder, _) := others.foldl
    (fun (encoder, next) code =>
      let delta := encoder.delta + (code - next) * (encoder.handled + 1)
      let encoder := text.foldl (fun e c => e.pass basic.length code c) { encoder with delta := delta }
      ({ encoder with delta := encoder.delta + 1 }, code + 1))
    (start, 0x80)
  (if basic.isEmpty then [] else basic ++ ['-']) ++ encoder.written.reverse

/-- A number at the beginning of a text, and the rest. -/
def readNumber (bias value weight position : Nat) : List Char → Option (Nat × List Char)
  | [] => none
  | c :: rest => do
    let d ← digitValue? c
    let value := value + d * weight
    let t := threshold position bias
    if Nat.pow 2 32 ≤ value then none
    else if d < t then some (value, rest)
    else readNumber bias value (weight * (36 - t)) (position + 36) rest

/-- The characters that the numbers insert. -/
def insertAll (code index bias : Nat) (done : List Nat) (first : Bool) :
    Nat → List Char → Option (List Nat)
  | _, [] => some done
  | 0, _ => none
  | bound + 1, text => do
    let (delta, rest) ← readNumber bias 0 1 36 text
    let count := done.length + 1
    let index := index + delta
    let code := code + index / count
    let place := index % count
    if !code.isValidChar then none
    else
      insertAll code (place + 1) (adapt delta count first) (done.take place ++ code :: done.drop place)
        false bound rest

/-- The text that a Punycode stands for. -/
def decode? (text : List Char) : Option (List Char) :=
  let tail := (text.reverse.takeWhile (· ≠ '-')).reverse
  let basic := if tail.length = text.length then [] else text.take (text.length - tail.length - 1)
  (insertAll 0x80 0 72 (basic.map Char.toNat) true (tail.length + 1) tail).map
    (·.map Char.ofNat)

end Punycode

/-! ## Labels -/

namespace DomainName

/-- Characters that are dropped. -/
def isIgnored (c : Char) : Bool :=
  [0xad, 0x34f, 0x180b, 0x180c, 0x180d, 0x180f, 0x200b, 0x2060, 0x2064, 0xfeff].contains c.toNat ||
    (0xfe00 ≤ c.toNat && c.toNat ≤ 0xfe0f)

/-- Full stops of any width. -/
def isStop (c : Char) : Bool := [0x3002, 0xff0e, 0xff61].contains c.toNat

/-- What a character stands for, or `none` if it may not occur. -/
def mapChar (c : Char) : Option (List Char) :=
  let n := c.toNat
  if n < 0x80 then some [Unicode.fold c]
  else if isIgnored c then some []
  else if isStop c then some ['.']
  else if 0xff01 ≤ n && n ≤ 0xff5e then some [Unicode.fold (Char.ofNat (n - 0xfee0))]
  else
    let category := Unicode.category c
    if category.startsWith "C" || category.startsWith "Z" then none
    else if n = 0xdf then some [c]
    else some [Unicode.fold c]

/-- Whether a label may begin a domain name's part: it starts with no
combining mark. -/
def startsWell (label : List Char) : Bool :=
  !(label.head?.any fun c => (Unicode.category c).startsWith "M")

/-- A label in ASCII. -/
def labelToAscii? (label : List Char) : Option (List Char) :=
  match label with
  | 'x' :: 'n' :: '-' :: '-' :: code => do
    let text ← Punycode.decode? code
    if text.all (·.toNat < 0x80) || !text.all (fun c => mapChar c = some [c]) || !startsWell text
    then none
    else some label
  | label =>
    if label.all (·.toNat < 0x80) then some label
    else if startsWell label then some ("xn--".toList ++ Punycode.encode label)
    else none

/-- The labels of a domain name in ASCII. -/
def labelsToAscii? (text : List Char) : Option (List (List Char)) := do
  let mapped ← text.mapM mapChar
  (splitOn '.' mapped.flatten).mapM labelToAscii?

end DomainName

end ApiContract.Network
