import ApiContract.Entries
import ApiContract.Number.Layout
/-!
# JSON values

A number is an integer or a double: `1` and `1.0` are different values of
the same size.  The members of an object are kept in key order
(`Entries`), so that there is one value per object and printing needs no
sorting.
-/

namespace ApiContract

/-- A JSON number.  A literal without fraction and exponent is an integer
if it lies between `-2 ^ 63` and `2 ^ 64`; any other is a double. -/
inductive Number where
  | integer (value : Int)
  | double (value : Double)
deriving DecidableEq, Inhabited, Repr

namespace Number

/-- Whether an integer literal is kept as an integer. -/
def isMachineInteger (n : Int) : Bool := -(Nat.pow 2 63 : Int) ≤ n && n < (Nat.pow 2 64 : Int)

/-- The numerator of the exact value. -/
def numerator : Number → Int
  | integer n => n
  | double d => d.signedNumerator

/-- The denominator of the exact value. -/
def denominator : Number → Nat
  | integer _ => 1
  | double d => d.denominator

/-- The order of the exact values, which ignores the kind of number. -/
def compareValue (a b : Number) : Ordering :=
  compare (a.numerator * b.denominator) (b.numerator * a.denominator)

/-- Whether two numbers have the same exact value. -/
def sameValue (a b : Number) : Bool := a.compareValue b == .eq

/-- Whether the value is an integer, as it is for `1` and for `1.0`. -/
def isIntegral : Number → Bool
  | integer _ => true
  | double d => d.isIntegral

/-- The nearest double.  Integers that are kept as integers always have
one. -/
def toDouble : Number → Double
  | integer n => (Double.ofInt? n).getD (Double.zero (n < 0))
  | double d => d

/-- The text of the number in JSON. -/
def format : Number → String
  | integer n => toString n
  | double d => Layout.json.format d

end Number

/-- A JSON value.  The members of an object are an `Entries Json`. -/
inductive Json where
  | null
  | bool (value : Bool)
  | number (value : Number)
  | string (value : String)
  | array (items : List Json)
  | object (members : List (String × Json))
deriving Inhabited, Repr

namespace Json

/-- The object of the given members; of two with one key the later counts. -/
def ofMembers (members : List (String × Json)) : Json := .object (Entries.ofList members)

/-- An integer. -/
def integer (n : Int) : Json := .number (.integer n)

/-- The member of an object under a key. -/
def get? : Json → String → Option Json
  | .object members, key => Entries.get? members key
  | _, _ => none

/-- The text of a string. -/
def text? : Json → Option String
  | .string s => some s
  | _ => none

/-- The items of an array. -/
def items? : Json → Option (List Json)
  | .array items => some items
  | _ => none

/-- The members of an object. -/
def members? : Json → Option (Entries Json)
  | .object members => some members
  | _ => none

/-- Whether the value is null. -/
def isNull : Json → Bool
  | .null => true
  | _ => false

mutual

/-- Whether two values are equal when numbers are compared as given. -/
def equalBy (same : Number → Number → Bool) : Json → Json → Bool
  | .null, .null => true
  | .bool a, .bool b => a == b
  | .number a, .number b => same a b
  | .string a, .string b => a == b
  | .array a, .array b => equalItems same a b
  | .object a, .object b => equalMembers same a b
  | _, _ => false

/-- Item by item. -/
def equalItems (same : Number → Number → Bool) : List Json → List Json → Bool
  | [], [] => true
  | a :: as, b :: bs => equalBy same a b && equalItems same as bs
  | _, _ => false

/-- Member by member. -/
def equalMembers (same : Number → Number → Bool) :
    List (String × Json) → List (String × Json) → Bool
  | [], [] => true
  | (k, a) :: as, (l, b) :: bs => k == l && equalBy same a b && equalMembers same as bs
  | _, _ => false

end

/-- Whether two values are equal when numbers count by their exact value. -/
def equal (a b : Json) : Bool := equalBy Number.sameValue a b

/-- Whether two values are one and the same. -/
def identical (a b : Json) : Bool := equalBy (fun m n => m = n) a b

mutual

/-- How many values a value is made of, itself included. -/
def size : Json → Nat
  | .array items => sizeItems items + 1
  | .object members => sizeMembers members + 1
  | _ => 1

/-- The sizes of the items together. -/
def sizeItems : List Json → Nat
  | [] => 0
  | item :: rest => size item + sizeItems rest

/-- The sizes of the members together. -/
def sizeMembers : List (String × Json) → Nat
  | [] => 0
  | (_, value) :: rest => size value + sizeMembers rest

end

end Json

end ApiContract
