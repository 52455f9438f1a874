import ApiContract.Json.Basic
import ApiContract.Text.Utf8
/-!
# Reading JSON text

`Json.read` takes bytes and answers a value, or a cause and the line and
column where reading stopped.  At most 127 arrays and objects may be
nested.

A literal with a fraction or an exponent, or one too long for an integer,
is scaled in binary64 arithmetic: the leading digits that fit 64 bits are
rounded to a double, which is multiplied or divided by a power of ten.
The result may differ from the nearest double in the last place.
-/

namespace ApiContract

namespace Json

/-- Why a text is not JSON. -/
inductive ReadCause where
  | endInValue
  | endInList
  | endInObject
  | endInString
  | expectedValue
  | expectedIdent
  | expectedColon
  | expectedListSeparator
  | expectedObjectSeparator
  | keyNotString
  | trailingComma
  | trailingCharacters
  | invalidNumber
  | numberOutOfRange
  | invalidEscape
  | invalidCodePoint
  | loneSurrogate
  | endOfHexEscape
  | controlCharacter
  | tooDeep
deriving DecidableEq, Repr

/-- The wording of a cause. -/
def ReadCause.message : ReadCause → String
  | endInValue => "EOF while parsing a value"
  | endInList => "EOF while parsing a list"
  | endInObject => "EOF while parsing an object"
  | endInString => "EOF while parsing a string"
  | expectedValue => "expected value"
  | expectedIdent => "expected ident"
  | expectedColon => "expected `:`"
  | expectedListSeparator => "expected `,` or `]`"
  | expectedObjectSeparator => "expected `,` or `\x7d`"
  | keyNotString => "key must be a string"
  | trailingComma => "trailing comma"
  | trailingCharacters => "trailing characters"
  | invalidNumber => "invalid number"
  | numberOutOfRange => "number out of range"
  | invalidEscape => "invalid escape"
  | invalidCodePoint => "invalid unicode code point"
  | loneSurrogate => "lone leading surrogate in hex escape"
  | endOfHexEscape => "unexpected end of hex escape"
  | controlCharacter => "control character (\\u0000-\\u001F) found while parsing a string"
  | tooDeep => "recursion limit exceeded"

/-- A cause and the place where reading stopped. -/
structure ReadError where
  cause : ReadCause
  line : Nat
  column : Nat
deriving DecidableEq, Repr

/-- The wording of an error with its place. -/
def ReadError.message (e : ReadError) : String :=
  e.cause.message ++ " at line " ++ toString e.line ++ " column " ++ toString e.column

namespace Reader

/-- A cause and the number of bytes not yet passed when it was found. -/
structure Fault where
  cause : ReadCause
  unread : Nat

/-- One reading step: a result and the bytes after it. -/
abbrev Step (α : Type) : Type := Except Fault (α × List UInt8)

/-- Fails after the bytes read so far. -/
def fail {α : Type} (cause : ReadCause) (rest : List UInt8) : Except Fault α :=
  .error ⟨cause, rest.length⟩

/-- Fails on the next byte, if there is one. -/
def failOnNext {α : Type} (cause : ReadCause) (rest : List UInt8) : Except Fault α :=
  .error ⟨cause, rest.length - 1⟩

/-- The byte of an ASCII character. -/
def byte (c : Char) : UInt8 := c.toNat.toUInt8

/-- Blanks between the parts of a value. -/
def isBlank (b : UInt8) : Bool := b == 0x20 || b == 0x0a || b == 0x09 || b == 0x0d

/-- The text after its leading blanks. -/
def skipBlanks (rest : List UInt8) : List UInt8 := rest.dropWhile isBlank

/-- Whether a byte is a decimal digit. -/
def isDigit (b : UInt8) : Bool := 0x30 ≤ b && b ≤ 0x39

/-- The value of a decimal digit. -/
def digitValue (b : UInt8) : Nat := b.toNat - 0x30

/-! ## Numbers -/

/-- The value of `10 ^ exponent` as a double, for exponents up to 308. -/
def powerOfTen (exponent : Nat) : Double :=
  (Double.ofDecimal? false 1 exponent).getD (Double.zero false)

/-- Divides by `10 ^ exponent`, in steps of at most 308 places. -/
def scaleDown (d : Double) (exponent : Nat) : Nat → Double
  | 0 => d
  | steps + 1 =>
    if exponent ≤ 308 then (d.div? (powerOfTen exponent)).getD d
    else if d.significand = 0 then d
    else scaleDown ((d.div? (powerOfTen 308)).getD d) (exponent - 308) steps

/-- The double that the digits of a literal stand for: the significand is
rounded, scaled by the power of ten, and rounded again. -/
def scaled (negative : Bool) (significand : Nat) (exponent : Int) (rest : List UInt8) :
    Step Number :=
  let start := (Double.ofRatio? false significand 1).getD (Double.zero false)
  let signed (d : Double) : Step Number := .ok (.double { d with negative := negative }, rest)
  if 0 ≤ exponent then
    if exponent ≤ 308 then
      match start.mul? (powerOfTen exponent.toNat) with
      | some d => signed d
      | none => fail .numberOutOfRange rest
    else if start.significand = 0 then signed start
    else fail .numberOutOfRange rest
  else signed (scaleDown start (-exponent).toNat 4)

/-- Digits added to a significand as long as it fits 64 bits: the
significand, the number of digits taken and the text from the first digit
that does not fit or is none. -/
def takeDigits (significand taken : Nat) : List UInt8 → Nat × Nat × List UInt8
  | [] => (significand, taken, [])
  | b :: rest =>
    if isDigit b && significand * 10 + digitValue b < Nat.pow 2 64 then
      takeDigits (significand * 10 + digitValue b) (taken + 1) rest
    else (significand, taken, b :: rest)

/-- The digits of an exponent, up to the first that takes it out of the
range of 32 bits.  The flag says whether one did. -/
def exponentDigits (exponent : Nat) : List UInt8 → Nat × Bool × List UInt8
  | [] => (exponent, false, [])
  | b :: rest =>
    if isDigit b then
      if exponent * 10 + digitValue b < Nat.pow 2 31 then
        exponentDigits (exponent * 10 + digitValue b) rest
      else (exponent, true, rest)
    else (exponent, false, b :: rest)

/-- An exponent, from behind its mark. -/
def readExponent (negative : Bool) (significand : Nat) (places : Int) (rest : List UInt8) :
    Step Number :=
  let (down, rest) : Bool × List UInt8 := match rest with
    | 0x2b :: rest => (false, rest)
    | 0x2d :: rest => (true, rest)
    | rest => (false, rest)
  match rest with
  | [] => fail .endInValue []
  | b :: rest =>
    if isDigit b then
      match exponentDigits (digitValue b) rest with
      | (_, true, rest) =>
        if significand ≠ 0 && !down then fail .numberOutOfRange rest
        else .ok (.double (Double.zero negative), rest.dropWhile isDigit)
      | (exponent, false, rest) =>
        scaled negative significand (if down then places - exponent else places + exponent) rest
    else fail .invalidNumber rest

/-- What may follow the digits of a double: an exponent, or nothing. -/
def finishDouble (negative : Bool) (significand : Nat) (places : Int) (rest : List UInt8) :
    Step Number :=
  match rest with
  | 0x65 :: after => readExponent negative significand places after
  | 0x45 :: after => readExponent negative significand places after
  | _ => scaled negative significand places rest

/-- A fraction, from behind its point.  Digits that no longer fit the
significand are dropped. -/
def readFraction (negative : Bool) (significand : Nat) (places : Int) (rest : List UInt8) :
    Step Number :=
  match takeDigits significand 0 rest with
  | (extended, taken, after) =>
    let overflow := match after with
      | b :: _ => isDigit b
      | [] => false
    if overflow then finishDouble negative extended (places - taken) (after.dropWhile isDigit)
    else if taken = 0 then
      match after with
      | [] => failOnNext .endInValue after
      | _ => failOnNext .invalidNumber after
    else finishDouble negative extended (places - taken) after

/-- An integer literal, `-0` and those below `-2 ^ 63` being doubles. -/
def integerLiteral (negative : Bool) (significand : Nat) : Number :=
  if negative then
    if significand = 0 || Nat.pow 2 63 < significand then
      .double { (Double.ofRatio? true significand 1).getD (Double.zero true) with negative := true }
    else .integer (-(significand : Int))
  else .integer significand

/-- What follows the digits before a point or an exponent. -/
def finishNumber (negative : Bool) (significand : Nat) (rest : List UInt8) : Step Number :=
  match rest with
  | 0x2e :: after => readFraction negative significand 0 after
  | 0x65 :: after => readExponent negative significand 0 after
  | 0x45 :: after => readExponent negative significand 0 after
  | _ => .ok (integerLiteral negative significand, rest)

/-- A number after its sign. -/
def readNumber (negative : Bool) (rest : List UInt8) : Step Number :=
  match rest with
  | [] => fail .endInValue []
  | 0x30 :: after =>
    match after with
    | b :: _ => if isDigit b then failOnNext .invalidNumber after else finishNumber negative 0 after
    | [] => finishNumber negative 0 after
  | b :: after =>
    if isDigit b then
      match takeDigits (digitValue b) 0 after with
      | (significand, _, beyond) =>
        let more := beyond.takeWhile isDigit
        if more.isEmpty then finishNumber negative significand beyond
        else
          let afterDigits := beyond.dropWhile isDigit
          match afterDigits with
          | 0x2e :: fraction => readFraction negative significand more.length fraction
          | _ => finishDouble negative significand more.length afterDigits
    else fail .invalidNumber after

/-! ## Strings -/

/-- The value of a hexadecimal digit. -/
def hexValue? (b : UInt8) : Option Nat :=
  if isDigit b then some (digitValue b)
  else if 0x61 ≤ b && b ≤ 0x66 then some (b.toNat - 0x57)
  else if 0x41 ≤ b && b ≤ 0x46 then some (b.toNat - 0x37)
  else none

/-- Four hexadecimal digits. -/
def readHex (rest : List UInt8) : Step Nat :=
  match rest with
  | a :: b :: c :: d :: after =>
    match hexValue? a, hexValue? b, hexValue? c, hexValue? d with
    | some a, some b, some c, some d => .ok (((a * 16 + b) * 16 + c) * 16 + d, after)
    | _, _, _, _ => fail .invalidEscape after
  | _ => fail .endInString []

/-- The character of a pair of surrogates whose first half is `high`, from
behind the escape of that half. -/
def readLowSurrogate (high : Nat) (rest : List UInt8) : Step Char :=
  match rest with
  | [] => fail .endInString []
  | 0x5c :: [] => fail .endInString []
  | 0x5c :: 0x75 :: rest =>
    match readHex rest with
    | .error fault => .error fault
    | .ok (low, rest) =>
      if low < 0xdc00 || 0xdfff < low then fail .loneSurrogate rest
      else .ok (Char.ofNat ((high - 0xd800) * 0x400 + (low - 0xdc00) + 0x10000), rest)
  | 0x5c :: _ :: rest => fail .endOfHexEscape rest
  | _ :: rest => fail .endOfHexEscape rest

/-- The character of a `\u` escape, from behind the `u`.  Two escapes that
are a pair of surrogates make one character. -/
def readUnicodeEscape (rest : List UInt8) : Step Char :=
  match readHex rest with
  | .error fault => .error fault
  | .ok (high, rest) =>
    if 0xdc00 ≤ high && high ≤ 0xdfff then fail .loneSurrogate rest
    else if high < 0xd800 || 0xdbff < high then .ok (Char.ofNat high, rest)
    else readLowSurrogate high rest

/-- The character of an escape, from behind the backslash. -/
def readEscape (rest : List UInt8) : Step Char :=
  match rest with
  | [] => fail .endInString []
  | b :: rest =>
    if b = 0x22 then .ok ('"', rest)
    else if b = 0x5c then .ok ('\\', rest)
    else if b = 0x2f then .ok ('/', rest)
    else if b = 0x62 then .ok ('\x08', rest)
    else if b = 0x66 then .ok ('\x0c', rest)
    else if b = 0x6e then .ok ('\n', rest)
    else if b = 0x72 then .ok ('\r', rest)
    else if b = 0x74 then .ok ('\t', rest)
    else if b = 0x75 then readUnicodeEscape rest
    else fail .invalidEscape rest

/-- Whether a byte stands for itself inside a string. -/
def isOrdinary (b : UInt8) : Bool := b ≠ 0x22 && b ≠ 0x5c && 0x20 ≤ b

/-- The rest of a string after its opening quote.  `done` holds the
characters read, last first, and `malformed` the first ill-formed byte,
which is reported once the string turns out to end. -/
def readStringRest (done : List Char) (malformed : Option Fault) :
    Nat → List UInt8 → Step String
  | 0, rest => fail .endInString rest
  | bound + 1, rest =>
    let run := rest.takeWhile isOrdinary
    let after := rest.dropWhile isOrdinary
    let (done, malformed) := match Utf8.decodeFrom 0 [] run with
      | .ok chars => (chars.reverse ++ done, malformed)
      | .error before =>
        (done, malformed.or (some ⟨.invalidCodePoint, rest.length - before - 1⟩))
    match after with
    | [] => fail .endInString []
    | 0x22 :: rest =>
      match malformed with
      | some fault => .error fault
      | none => .ok (String.ofList done.reverse, rest)
    | 0x5c :: rest =>
      match readEscape rest with
      | .ok (char, rest) => readStringRest (char :: done) malformed bound rest
      | .error fault => .error fault
    | _ :: rest => fail .controlCharacter rest

/-- A string, from behind its opening quote. -/
def readString (rest : List UInt8) : Step String := readStringRest [] none (rest.length + 1) rest

/-! ## Values -/

/-- The remaining letters of a word. -/
def readWord (word : List UInt8) (value : Json) (rest : List UInt8) : Step Json :=
  match word, rest with
  | [], rest => .ok (value, rest)
  | _ :: _, [] => fail .endInValue []
  | w :: word, b :: rest => if b = w then readWord word value rest else fail .expectedIdent rest

/-- The items of an array from the place of the next one, given how a value
is read.  `done` holds the items before it, last first. -/
def readItems (value : List UInt8 → Step Json) (done : List Json) : Nat → List UInt8 → Step Json
  | 0, rest => failOnNext .endInList rest
  | bound + 1, rest =>
    match value rest with
    | .error fault => .error fault
    | .ok (item, rest) =>
      match skipBlanks rest with
      | [] => failOnNext .endInList []
      | 0x5d :: rest => .ok (.array (item :: done).reverse, rest)
      | 0x2c :: rest =>
        match skipBlanks rest with
        | [] => failOnNext .endInValue []
        | 0x5d :: rest => failOnNext .trailingComma (0x5d :: rest)
        | rest => readItems value (item :: done) bound rest
      | rest => failOnNext .expectedListSeparator rest

/-- An array, from behind its bracket. -/
def readArray (value : List UInt8 → Step Json) (rest : List UInt8) : Step Json :=
  match skipBlanks rest with
  | [] => failOnNext .endInList []
  | 0x5d :: rest => .ok (.array [], rest)
  | rest => readItems value [] (rest.length + 1) rest

/-- A key with its colon, from behind the opening quote. -/
def readKey (rest : List UInt8) : Step String :=
  match readString rest with
  | .error fault => .error fault
  | .ok (key, rest) =>
    match skipBlanks rest with
    | [] => failOnNext .endInObject []
    | 0x3a :: rest => .ok (key, rest)
    | rest => failOnNext .expectedColon rest

/-- The members of an object from behind the quote of the next key, given
how a value is read. -/
def readMembers (value : List UInt8 → Step Json) (done : List (String × Json)) :
    Nat → List UInt8 → Step Json
  | 0, rest => failOnNext .endInObject rest
  | bound + 1, rest =>
    match readKey rest with
    | .error fault => .error fault
    | .ok (key, rest) =>
      match value rest with
      | .error fault => .error fault
      | .ok (item, rest) =>
        let done := (key, item) :: done
        match skipBlanks rest with
        | [] => failOnNext .endInObject []
        | 0x7d :: rest => .ok (ofMembers done.reverse, rest)
        | 0x2c :: rest =>
          match skipBlanks rest with
          | [] => failOnNext .endInValue []
          | 0x22 :: rest => readMembers value done bound rest
          | 0x7d :: rest => failOnNext .trailingComma (0x7d :: rest)
          | rest => failOnNext .keyNotString rest
        | rest => failOnNext .expectedObjectSeparator rest

/-- An object, from behind its brace. -/
def readObject (value : List UInt8 → Step Json) (rest : List UInt8) : Step Json :=
  match skipBlanks rest with
  | [] => failOnNext .endInObject []
  | 0x7d :: rest => .ok (.object [], rest)
  | 0x22 :: rest => readMembers value [] (rest.length + 1) rest
  | rest => failOnNext .keyNotString rest

/-- A value whose arrays and objects may be nested `depth` deep. -/
def readValue (depth : Nat) (text : List UInt8) : Step Json :=
  match skipBlanks text with
  | [] => failOnNext .endInValue []
  | b :: rest =>
    if b = byte 'n' then readWord ("ull".toList.map byte) .null rest
    else if b = byte 't' then readWord ("rue".toList.map byte) (.bool true) rest
    else if b = byte 'f' then readWord ("alse".toList.map byte) (.bool false) rest
    else if b = byte '-' then (readNumber true rest).map fun (n, rest) => (.number n, rest)
    else if isDigit b then (readNumber false (b :: rest)).map fun (n, rest) => (.number n, rest)
    else if b = 0x22 then (readString rest).map fun (s, rest) => (.string s, rest)
    else if b = 0x5b then
      match depth with
      | 0 => failOnNext .tooDeep (b :: rest)
      | inner + 1 => readArray (readValue inner) rest
    else if b = 0x7b then
      match depth with
      | 0 => failOnNext .tooDeep (b :: rest)
      | inner + 1 => readObject (readValue inner) rest
    else failOnNext .expectedValue (b :: rest)

/-- A whole text: one value and blanks around it. -/
def readText (text : List UInt8) : Except Fault Json :=
  match readValue 127 text with
  | .error fault => .error fault
  | .ok (value, rest) =>
    match skipBlanks rest with
    | [] => .ok value
    | rest => failOnNext .trailingCharacters rest

/-- The place after the first `passed` bytes: the line, and the bytes on it
that were passed. -/
def place (text : List UInt8) (passed : Nat) : Nat × Nat :=
  let before := text.take passed
  (1 + before.count 0x0a, (before.reverse.takeWhile (· ≠ 0x0a)).length)

end Reader

/-- The value that a text stands for. -/
def read (text : List UInt8) : Except ReadError Json :=
  match Reader.readText text with
  | .ok value => .ok value
  | .error fault =>
    let (line, column) := Reader.place text (text.length - fault.unread)
    .error ⟨fault.cause, line, column⟩

end Json

end ApiContract
