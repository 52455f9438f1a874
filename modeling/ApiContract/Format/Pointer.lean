import ApiContract.Text.Ascii
/-!
# Pointers, templates and identifiers
-/

namespace ApiContract.Format

open Ascii

/-- Whether every `~` of a text is followed by `0` or `1`. -/
def hasGoodEscapes : List Char → Bool
  | [] => true
  | '~' :: '0' :: rest => hasGoodEscapes rest
  | '~' :: '1' :: rest => hasGoodEscapes rest
  | c :: rest => c ≠ '~' && hasGoodEscapes rest

/-- Whether a text is a JSON Pointer. -/
def isJsonPointer (text : List Char) : Bool :=
  match text with
  | [] => true
  | '/' :: rest => hasGoodEscapes rest
  | _ => false

/-- Whether a text is a relative JSON Pointer: a number of levels, and a
pointer or a number sign. -/
def isRelativeJsonPointer (text : List Char) : Bool :=
  let levels := text.takeWhile isDigit
  let rest := text.dropWhile isDigit
  !levels.isEmpty && (levels.length = 1 || levels.head? ≠ some '0') &&
    (rest = ['#'] || isJsonPointer rest)

/-- Whether a text is a UUID. -/
def isUuid (text : List Char) : Bool :=
  match splitOn '-' text with
  | [a, b, c, d, e] =>
    [a.length, b.length, c.length, d.length, e.length] = [8, 4, 4, 4, 12] &&
      [a, b, c, d, e].all (·.all isHex)
  | _ => false

/-! ## Templates -/

/-- Whether a character may stand in a template outside of expressions. -/
def isLiteralChar (c : Char) : Bool :=
  ' ' < c && !"\"'<>%\\^`\x7b|\x7d".toList.contains c

/-- Whether a text is a percent-encoded octet with lower case digits. -/
def isLowerHex (c : Char) : Bool := isDigit c || ('a' ≤ c && c ≤ 'f')

/-- The text after the name of a variable, which is not empty. -/
def afterName? (started : Bool) : List Char → Option (List Char)
  | '%' :: a :: b :: rest =>
    if isLowerHex a && isLowerHex b then afterName? true rest else none
  | c :: rest =>
    if ('a' ≤ c && c ≤ 'z') || isDigit c || c = '_' then afterName? true rest
    else if started then some (c :: rest) else none
  | [] => none

/-- The text after the modifier of a variable, if there is one. -/
def afterModifier (text : List Char) : List Char :=
  match text with
  | '*' :: rest => rest
  | ':' :: rest =>
    let digits := rest.takeWhile isDigit
    if digits.isEmpty || digits.head? = some '0' || 4 < digits.length then text
    else rest.dropWhile isDigit
  | text => text

/-- The text after an expression, from behind its operator. -/
def afterExpression? : Nat → List Char → Option (List Char)
  | 0, _ => none
  | bound + 1, text =>
    match (afterName? false text).map afterModifier with
    | some ('\x7d' :: rest) => some rest
    | some (',' :: rest) => afterExpression? bound rest
    | _ => none

/-- Whether a text is a URI template, as far as the bound allows. -/
def isTemplateUpTo : Nat → List Char → Bool
  | _, [] => true
  | 0, _ => false
  | bound + 1, '\x7b' :: rest =>
    let rest := match rest with
      | c :: inner => if "+#./;?&=,!@|".toList.contains c then inner else rest
      | [] => rest
    match afterExpression? rest.length rest with
    | some rest => isTemplateUpTo bound rest
    | none => false
  | bound + 1, '%' :: a :: b :: rest => isLowerHex a && isLowerHex b && isTemplateUpTo bound rest
  | bound + 1, c :: rest => isLiteralChar c && isTemplateUpTo bound rest

/-- Whether a text is a URI template. -/
def isUriTemplate (text : List Char) : Bool := isTemplateUpTo text.length text

end ApiContract.Format
