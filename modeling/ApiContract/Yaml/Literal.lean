import ApiContract.Json.Basic
import ApiContract.Text.Ascii
import ApiContract.Yaml.Fault
import ApiContract.Yaml.Token
/-!
# What scalars stand for

A plain scalar is null, a boolean, a number or text by its form; a scalar
written in another way is text.  A standard tag decides in place of the
form, and the scalar then has to fit it.
-/

namespace ApiContract.Yaml

/-- A number in a YAML document. -/
inductive Number where
  | integer (value : Int)
  | double (value : Double)
  | infinity (negative : Bool)
  | nan
deriving DecidableEq, Repr

namespace Number

/-- The text of a number that serves as a key. -/
def format : Number → String
  | integer n => toString n
  | double d => Layout.key.format d
  | infinity negative => if negative then "-.inf" else ".inf"
  | nan => ".nan"

/-- Whether two numbers count as one key.  An integer and a double never
do; the two zeros do. -/
def same : Number → Number → Bool
  | integer a, integer b => a == b
  | double a, double b => a == b || (a.significand = 0 && b.significand = 0)
  | infinity a, infinity b => a == b
  | nan, nan => true
  | _, _ => false

end Number

/-- What a scalar stands for. -/
inductive Atom where
  | null
  | bool (value : Bool)
  | number (value : Number)
  | text (value : String)
deriving DecidableEq, Repr

namespace Literal

open Ascii

/-- Whether a text is a spelling of null. -/
def isNull (text : String) : Bool := ["null", "Null", "NULL", "~"].contains text

/-- The boolean that a text spells. -/
def bool? (text : String) : Option Bool :=
  if ["true", "True", "TRUE"].contains text then some true
  else if ["false", "False", "FALSE"].contains text then some false
  else none

/-! ## Integers -/

/-- The text without a plus sign in front. -/
def withoutPlus : List Char → List Char
  | '+' :: rest => rest
  | text => text

/-- Whether a text has a sign in front. -/
def isSigned : List Char → Bool
  | '+' :: _ => true
  | '-' :: _ => true
  | _ => false

/-- The text without a sign in front. -/
def withoutSign : List Char → List Char
  | '+' :: rest => rest
  | '-' :: rest => rest
  | text => text

/-- Whether a text is several digits of which the first is zero, possibly
with a sign.  Such a text is no number. -/
def isPadded (text : List Char) : Bool :=
  match withoutSign text with
  | '0' :: d :: rest => (d :: rest).all isDigit
  | _ => false

/-- The value of one or more digits in a base. -/
def digits? (base : Nat) (text : List Char) : Option Nat :=
  if text.isEmpty then none
  else text.foldlM (fun n c => do
    let digit ← hexValue? c
    if digit < base then some (n * base + digit) else none) 0

/-- The value of digits behind a mark of their base, or without one. -/
def magnitude? (text : List Char) : Option Nat :=
  match text with
  | '0' :: 'x' :: rest => digits? 16 rest
  | '0' :: 'o' :: rest => digits? 8 rest
  | '0' :: 'b' :: rest => digits? 2 rest
  | text => if isPadded text then none else digits? 10 text

/-- The number that a text without a minus sign spells, if it is below
`limit`. -/
def natural? (limit : Nat) (text : List Char) : Option Nat :=
  let digits := withoutPlus text
  if isSigned digits then none else (magnitude? digits).filter (· < limit)

/-- The integer that a text spells.  What takes more than 128 bits is not
read as an integer. -/
def integer? (text : List Char) : Option Int :=
  match text with
  | '-' :: digits => ((magnitude? digits).filter (· ≤ Nat.pow 2 127)).map fun n => -(n : Int)
  | text => (natural? (Nat.pow 2 128) text).map Int.ofNat

/-! ## Doubles -/

/-- An exponent: an optional sign and digits. -/
def exponent? (text : List Char) : Option Int :=
  match text with
  | '-' :: digits => (digits? 10 digits).map fun n => -(n : Int)
  | text => (digits? 10 (withoutPlus text)).map Int.ofNat

/-- The double that digits with a point or an exponent spell. -/
def decimal? (negative : Bool) (text : List Char) : Option Double := do
  let whole := text.takeWhile isDigit
  let rest := text.dropWhile isDigit
  let (fraction, rest) := match rest with
    | '.' :: rest => (rest.takeWhile isDigit, rest.dropWhile isDigit)
    | rest => ([], rest)
  let exponent ← match rest with
    | [] => some 0
    | 'e' :: rest => exponent? rest
    | 'E' :: rest => exponent? rest
    | _ => none
  if whole.isEmpty && fraction.isEmpty then none
  else Double.ofDecimal? negative (decimalValue (whole ++ fraction)) (exponent - fraction.length)

/-- The number that a text spells as a double.  One that is too large for
any double is not read. -/
def double? (text : List Char) : Option Number :=
  let unsigned := withoutPlus text
  let spelling := String.ofList text
  if text ≠ unsigned && isSigned unsigned then none
  else if [".inf", ".Inf", ".INF"].contains (String.ofList unsigned) then some (.infinity false)
  else if ["-.inf", "-.Inf", "-.INF"].contains spelling then some (.infinity true)
  else if [".nan", ".NaN", ".NAN"].contains spelling then some .nan
  else
    match unsigned with
    | '-' :: digits => (decimal? true digits).map .double
    | digits => (decimal? false digits).map .double

end Literal

namespace Atom

open Literal

/-- An integer, if it is in the range of those that are kept. -/
def ofInteger (n : Int) : Except Fault Atom :=
  if ApiContract.Number.isMachineInteger n then .ok (.number (.integer n))
  else .error .integerOutOfRange

/-- What a plain scalar stands for. -/
def ofPlain (text : String) : Except Fault Atom :=
  if text.isEmpty || isNull text then .ok .null
  else
    match bool? text with
    | some b => .ok (.bool b)
    | none =>
      match integer? text.toList with
      | some n => ofInteger n
      | none =>
        match if isPadded text.toList then none else double? text.toList with
        | some d => .ok (.number d)
        | none => .ok (.text text)

/-- What a scalar without a tag stands for. -/
def ofUntagged (style : ScalarStyle) (text : String) : Except Fault Atom :=
  if style = .plain then ofPlain text else .ok (.text text)

/-- What a scalar stands for.  With a tag that is none of these it is
text. -/
def ofScalar (tag : Option String) (style : ScalarStyle) (text : String) : Except Fault Atom :=
  let fitting (value : Option Atom) : Except Fault Atom :=
    match value with
    | some atom => .ok atom
    | none => .error .tagMismatch
  match tag with
  | none => ofUntagged style text
  | some tag =>
    if tag = "tag:yaml.org,2002:bool" then fitting ((bool? text).map .bool)
    else if tag = "tag:yaml.org,2002:int" then
      match integer? text.toList with
      | some n => ofInteger n
      | none => .error .tagMismatch
    else if tag = "tag:yaml.org,2002:float" then fitting ((double? text.toList).map .number)
    else if tag = "tag:yaml.org,2002:null" then fitting (if isNull text then some .null else none)
    else .ok (.text text)

end Atom

end ApiContract.Yaml
