import ApiContract.Text.Ascii
/-!
# Dates and times

The formats of RFC 3339, and durations.  A place for a digit accepts the
sixteen characters from `0` to `?`, each counting as its distance from `0`.
A leap second may only be the last second of a day in universal time.
-/

namespace ApiContract.Format

open Ascii

/-- The value of a character in the place of a digit. -/
def digitPlace? (c : Char) : Option Nat :=
  if '0' ≤ c && c ≤ '?' then some (c.toNat - '0'.toNat) else none

/-- The value of two places. -/
def twoPlaces? (a b : Char) : Option Nat := do return (← digitPlace? a) * 10 + (← digitPlace? b)

/-- The days of a month. -/
def daysIn (year month : Nat) : Nat :=
  if month = 2 then
    if year % 4 = 0 && (year % 100 ≠ 0 || year % 400 = 0) then 29 else 28
  else if [4, 6, 9, 11].contains month then 30
  else 31

/-- Whether a text is a date. -/
def isDate (text : List Char) : Bool :=
  match text with
  | [y₁, y₂, y₃, y₄, '-', m₁, m₂, '-', d₁, d₂] =>
    match twoPlaces? y₁ y₂, twoPlaces? y₃ y₄, twoPlaces? m₁ m₂, twoPlaces? d₁ d₂ with
    | some century, some year, some month, some day =>
      1 ≤ month && month ≤ 12 && 1 ≤ day && day ≤ daysIn (century * 100 + year) month
    | _, _, _, _ => false
  | _ => false

/-- The distance to universal time in minutes, which is later by that much. -/
def offset? (text : List Char) : Option Int :=
  match text with
  | ['Z'] | ['z'] => some 0
  | [sign, h₁, h₂, ':', m₁, m₂] => do
    let hours ← twoPlaces? h₁ h₂
    let minutes ← twoPlaces? m₁ m₂
    if 23 < hours || 59 < minutes then none
    else if sign = '+' then some (-((hours * 60 + minutes : Nat) : Int))
    else if sign = '-' then some (hours * 60 + minutes : Nat)
    else none
  | _ => none

/-- What follows the seconds: the fraction, if there is one, is left out. -/
def afterFraction? (text : List Char) : Option (List Char) :=
  match text with
  | '.' :: rest =>
    if (rest.takeWhile isDigit).isEmpty then none else some (rest.dropWhile isDigit)
  | text => some text

/-- Whether a text is a time of day with its offset. -/
def isTime (text : List Char) : Bool :=
  match text with
  | h₁ :: h₂ :: ':' :: m₁ :: m₂ :: ':' :: s₁ :: s₂ :: rest =>
    let valid := do
      let hour ← twoPlaces? h₁ h₂
      let minute ← twoPlaces? m₁ m₂
      let second ← twoPlaces? s₁ s₂
      let offset ← offset? (← afterFraction? rest)
      let universal : Int := (hour * 60 + minute : Nat) + offset
      return hour ≤ 23 && minute ≤ 59 &&
        (second ≤ 59 || (second = 60 && universal % 1440 = 1439))
    valid.getD false
  | _ => false

/-- Whether a text is a date and a time joined by a `T`. -/
def isDateTime (text : List Char) : Bool :=
  let isJoint (c : Char) : Bool := c = 'T' || c = 't'
  let date := text.takeWhile fun c => !isJoint c
  match text.dropWhile fun c => !isJoint c with
  | _ :: time => isDate date && isTime time
  | [] => false

/-- The units of a sequence of numbers with one unit each. -/
def units? : Nat → List Char → Option (List Char)
  | _, [] => some []
  | 0, _ => none
  | bound + 1, text =>
    match text.takeWhile isDigit, text.dropWhile isDigit with
    | _ :: _, unit :: rest => (units? bound rest).map (unit :: ·)
    | _, _ => none

/-- Whether a text is a period of time. -/
def isDuration (text : List Char) : Bool :=
  match text with
  | 'P' :: rest =>
    let date := units? rest.length (rest.takeWhile (· ≠ 'T'))
    let inOrder (units : List Char) (allowed : String) : Bool := units.isSublist allowed.toList
    match date, rest.dropWhile (· ≠ 'T') with
    | some units, [] => !units.isEmpty && (inOrder units "YMD" || units = ['W'])
    | some units, _ :: time =>
      match units? time.length time with
      | some times =>
        (inOrder units "YMD" || units = ['W']) && !times.isEmpty && inOrder times "HMS"
      | none => false
    | none, _ => false
  | _ => false

end ApiContract.Format
