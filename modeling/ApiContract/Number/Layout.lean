import ApiContract.Number.Double
/-!
# How doubles are written

The digits of a double are always the shortest that read back
(`Double.shortest`).  A `Layout` says how they are set: up to which
exponents without an exponent mark, whether a whole number keeps its
`.0`, and whether a positive exponent shows its sign.
-/

namespace ApiContract

/-- The conventions for setting the digits of a double. -/
structure Layout where
  /-- The exponents of the leading digit that are written positionally;
  `none` for all of them. -/
  positional : Option (Int × Int)
  /-- Whether a whole number ends in `.0`. -/
  pointZero : Bool
  /-- Whether a positive exponent has a plus sign. -/
  plusSign : Bool

namespace Layout

/-- Numbers in JSON text. -/
def json : Layout := ⟨some (-5, 15), true, true⟩

/-- Numbers that serve as the key of a mapping. -/
def key : Layout := ⟨some (-5, 15), true, false⟩

/-- Numbers in running text: no exponent, and no point in whole numbers. -/
def plain : Layout := ⟨none, false, false⟩

/-- The text of `d.ddd * 10 ^ exponent` with an exponent mark. -/
def scientific (layout : Layout) (digits : List Char) (exponent : Int) : List Char :=
  let fraction := match digits.tail with
    | [] => []
    | rest => '.' :: rest
  let sign := if exponent < 0 then ['-'] else if layout.plusSign then ['+'] else []
  digits.take 1 ++ fraction ++ ['e'] ++ sign ++ Nat.toDigits 10 exponent.natAbs

/-- The text of `d.ddd * 10 ^ exponent` without an exponent mark. -/
def positionalText (layout : Layout) (digits : List Char) (exponent : Int) : List Char :=
  if exponent < 0 then
    ['0', '.'] ++ List.replicate (-exponent - 1).toNat '0' ++ digits
  else
    let whole := exponent.toNat + 1
    if digits.length ≤ whole then
      digits ++ List.replicate (whole - digits.length) '0' ++
        (if layout.pointZero then ['.', '0'] else [])
    else digits.take whole ++ ['.'] ++ digits.drop whole

/-- The text of a double. -/
def format (layout : Layout) (d : Double) : String :=
  let (digits, unit) := d.shortest
  let digitChars := Nat.toDigits 10 digits
  let exponent := unit + digitChars.length - 1
  let inRange := match layout.positional with
    | none => true
    | some (least, greatest) => least ≤ exponent && exponent ≤ greatest
  let text :=
    if inRange then layout.positionalText digitChars exponent
    else layout.scientific digitChars exponent
  String.ofList (if d.negative then '-' :: text else text)

end Layout

end ApiContract
