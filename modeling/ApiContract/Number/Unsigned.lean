import ApiContract.Text.Ascii
/-!
# Unsigned integers of a limited size

Decimal digits, possibly with a plus sign in front.  The digits are read
from the left, and the first thing that is wrong is the fault.
-/

namespace ApiContract.Unsigned

/-- The integers of so many bits are those below their limit. -/
def limit (bits : Nat) : Nat := Nat.pow 2 bits

/-- Why a text is no integer. -/
inductive Fault where
  | empty
  | invalidDigit
  | tooLarge
deriving DecidableEq, Repr

/-- The wording of a fault. -/
def Fault.message : Fault → String
  | empty => "cannot parse integer from empty string"
  | invalidDigit => "invalid digit found in string"
  | tooLarge => "number too large to fit in target type"

/-- The value with one more digit. -/
def push (limit value : Nat) (c : Char) : Except Fault Nat :=
  if !Ascii.isDigit c then .error .invalidDigit
  else
    let value := value * 10 + (c.toNat - '0'.toNat)
    if value < limit then .ok value else .error .tooLarge

/-- The integer below `limit` that a text is. -/
def read (limit : Nat) (text : String) : Except Fault Nat :=
  match text.toList with
  | [] => .error .empty
  | '+' :: [] => .error .invalidDigit
  | '+' :: digits => digits.foldlM (push limit) 0
  | digits => digits.foldlM (push limit) 0

end ApiContract.Unsigned
