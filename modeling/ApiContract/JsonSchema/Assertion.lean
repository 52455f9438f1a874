import ApiContract.Format
import ApiContract.JsonSchema.Draft
import ApiContract.JsonSchema.Violation
/-!
# Assertions

The keywords that look at a value alone, without other schemas.  Numbers
are compared by their exact values, except that `const` and `multipleOf`
allow for rounding.
-/

namespace ApiContract.JsonSchema

/-- A condition on a value. -/
inductive Assertion where
  | type (allowed : List TypeName)
  | enum (options : List Json)
  | const (expected : Json)
  | minimum (limit : Number)
  | maximum (limit : Number)
  | exclusiveMinimum (limit : Number)
  | exclusiveMaximum (limit : Number)
  | multipleOf (divisor : Double)
  | minLength (limit : Nat)
  | maxLength (limit : Nat)
  | minItems (limit : Nat)
  | maxItems (limit : Nat)
  | minProperties (limit : Nat)
  | maxProperties (limit : Nat)
  | uniqueItems
  | required (names : List String)
  | pattern (pattern : Pattern)
  | format (format : Format)

namespace Assertion

/-! ## Numbers -/

/-- Whether two numbers, as doubles, differ by less than `2 ^ -52`. -/
def isNear (a b : Number) : Bool :=
  let x := a.toDouble
  let y := b.toDouble
  let difference : Int :=
    x.signedNumerator * y.denominator - y.signedNumerator * x.denominator
  match Double.ofRatio? false difference.natAbs (x.denominator * y.denominator) with
  | some d => d.numerator * Nat.pow 2 52 < d.denominator
  | none => false

/-- Whether a quotient of decimals is an integer, each of them being the
shortest that reads back. -/
def dividesDecimally (a b : Double) : Bool :=
  let (digits, exponent) := a.shortest
  let (divisorDigits, divisorExponent) := b.shortest
  let shift := exponent - divisorExponent
  divisorDigits ≠ 0 &&
    digits * Nat.pow 10 shift.toNat % (divisorDigits * Nat.pow 10 (-shift).toNat) = 0

/-- Whether a number is a multiple of a divisor.  For a divisor that is no
integer, the quotient may be a little more than an integer, and may be any
negative number. -/
def isMultiple (value : Number) (divisor : Double) : Bool :=
  let number := value.toDouble
  if divisor.isIntegral then
    number.isIntegral && divisor.truncate ≠ 0 && number.truncate % divisor.truncate = 0
  else
    match number.div? divisor with
    | none => dividesDecimally number divisor
    | some quotient =>
      quotient.negative ||
        quotient.numerator % quotient.denominator * Nat.pow 2 52 < quotient.denominator

/-! ## Items -/

/-- Whether two numbers have the same value, a negative zero being different
from zero. -/
def sameDouble (a b : Number) : Bool := a.sameValue b && a.toDouble = b.toDouble

/-- Whether no item is equal to an earlier one.  In longer lists a negative
zero is different from zero. -/
def areUnique (items : List Json) : Bool :=
  let same := if items.length ≤ 15 then Number.sameValue else sameDouble
  distinct (Json.equalBy same) items
where
  /-- Whether no two items are the same. -/
  distinct (same : Json → Json → Bool) : List Json → Bool
    | [] => true
    | item :: rest => !rest.any (same item) && distinct same rest

/-! ## Checking -/

/-- The cause, unless the condition holds. -/
def wanting (holds : Bool) (cause : Cause) : List Cause := if holds then [] else [cause]

/-- What is wrong with a value. -/
def check (assertion : Assertion) (value : Json) : List Cause :=
  match assertion, value with
  | type allowed, value => wanting (allowed.any (·.accepts value)) (.type allowed)
  | enum options, value => wanting (options.any (Json.equal value)) (.enum options)
  | const (.number expected), .number n =>
    wanting (isNear n expected) (.const (.number expected))
  | const expected, value => wanting (Json.equal value expected) (.const expected)
  | minimum limit, .number n => wanting (n.compareValue limit != .lt) (.minimum limit)
  | maximum limit, .number n => wanting (n.compareValue limit != .gt) (.maximum limit)
  | exclusiveMinimum limit, .number n =>
    wanting (n.compareValue limit == .gt) (.exclusiveMinimum limit)
  | exclusiveMaximum limit, .number n =>
    wanting (n.compareValue limit == .lt) (.exclusiveMaximum limit)
  | multipleOf divisor, .number n => wanting (isMultiple n divisor) (.multipleOf divisor)
  | minLength limit, .string s => wanting (limit ≤ s.length) (.minLength limit)
  | maxLength limit, .string s => wanting (s.length ≤ limit) (.maxLength limit)
  | minItems limit, .array items => wanting (limit ≤ items.length) (.minItems limit)
  | maxItems limit, .array items => wanting (items.length ≤ limit) (.maxItems limit)
  | minProperties limit, .object members =>
    wanting (limit ≤ members.length) (.minProperties limit)
  | maxProperties limit, .object members =>
    wanting (members.length ≤ limit) (.maxProperties limit)
  | uniqueItems, .array items => wanting (areUnique items) .uniqueItems
  | required names, .object members =>
    (names.filter fun name => !Entries.has members name).map .required
  | pattern p, .string s => wanting (p.isFoundIn s) (.pattern p.text)
  | format f, .string s => wanting (f.accepts s) (.format f.name)
  | _, _ => []

/-! ## Reading -/

/-- A part of a schema that is not as its keyword wants it. -/
structure Misuse where
  value : Json
  cause : Cause

/-- A misuse, as the outcome of reading. -/
def refuse {α : Type} (value : Json) (cause : Cause) : Except Misuse α := .error ⟨value, cause⟩

/-- A number, which the keyword wants. -/
def readNumber (value : Json) : Except Misuse Number :=
  match value with
  | .number n => .ok n
  | value => refuse value (.type [.number])

/-- A size.  A double counts if it is an integer, a negative one as
nothing. -/
def readLimit (value : Json) : Except Misuse Nat :=
  match value with
  | .number (.integer n) =>
    if n < 0 then refuse value (.minimum (.integer 0)) else .ok n.toNat
  | .number (.double d) =>
    if d.isIntegral then .ok (min d.truncate.toNat (Nat.pow 2 64 - 1)) else refuse value (.type [.integer])
  | value => refuse value (.type [.integer])

/-- A text, which the keyword wants. -/
def readText (value : Json) : Except Misuse String :=
  match value with
  | .string s => .ok s
  | value => refuse value (.type [.string])

/-- A list, which the keyword wants. -/
def readList (value : Json) : Except Misuse (List Json) :=
  match value with
  | .array items => .ok items
  | value => refuse value (.type [.array])

/-- A list of texts. -/
def readTexts (value : Json) : Except Misuse (List String) := do (← readList value).mapM readText

/-- The types that a `type` keyword allows, each named once. -/
def readTypes (value : Json) : Except Misuse (List TypeName) :=
  match value with
  | .string name =>
    match TypeName.ofName? name with
    | some found => .ok [found]
    | none => refuse value .unexpectedType
  | .array [item] => do
    match TypeName.ofName? (← readText item) with
    | some found => return [found]
    | none => refuse item .unexpectedType
  | .array items => do
    let types ← items.mapM fun item => do
      match TypeName.ofName? (← readText item) with
      | some found => return found
      | none => refuse item (.enum (TypeName.all.map fun known => .string known.name))
    return TypeName.all.filter types.contains
  | value => refuse value (.type [.array, .string])

/-- The assertion of a keyword, if the keyword is one and asks for
anything. -/
def ofKeyword? (draft : Draft) (formats : Bool) (keyword : String) (value : Json) :
    Except Misuse (Option Assertion) :=
  let limit (make : Nat → Assertion) : Except Misuse (Option Assertion) :=
    (readLimit value).map fun n => some (make n)
  let bound (make : Number → Assertion) : Except Misuse (Option Assertion) :=
    (readNumber value).map fun n => some (make n)
  match keyword with
  | "type" => (readTypes value).map (some ∘ type)
  | "enum" => (readList value).map (some ∘ enum)
  | "const" => .ok (if draft = .draft4 then none else some (const value))
  | "minimum" => bound minimum
  | "maximum" => bound maximum
  | "exclusiveMinimum" => if draft = .draft4 then .ok none else bound exclusiveMinimum
  | "exclusiveMaximum" => if draft = .draft4 then .ok none else bound exclusiveMaximum
  | "multipleOf" => (readNumber value).map fun n => some (multipleOf n.toDouble)
  | "minLength" => limit minLength
  | "maxLength" => limit maxLength
  | "minItems" => limit minItems
  | "maxItems" => limit maxItems
  | "minProperties" => limit minProperties
  | "maxProperties" => limit maxProperties
  | "uniqueItems" =>
    match value with
    | .bool unique => .ok (if unique then some uniqueItems else none)
    | value => refuse value (.type [.boolean])
  | "required" => (readTexts value).map (some ∘ required)
  | "pattern" => do
    match Pattern.ofText? (← readText value) with
    | some p => return some (pattern p)
    | none => refuse value (.format "regex")
  | "format" =>
    if formats then do return (Format.ofName? (← readText value)).map format else .ok none
  | _ => .ok none

/-- The assertion of `minimum` or `maximum` beside the mark of Draft 4 that
excludes the limit. -/
def excluding (marked : Bool) : Assertion → Assertion
  | minimum limit => if marked then exclusiveMinimum limit else minimum limit
  | maximum limit => if marked then exclusiveMaximum limit else maximum limit
  | assertion => assertion

end Assertion

end ApiContract.JsonSchema
