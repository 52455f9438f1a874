import ApiContract.Text.Ascii
import ApiContract.Text.Utf8
/-!
# Percent-encoding

Each part of a URL has a set of characters that are written as the bytes of
their UTF-8 form; characters beyond ASCII always are.  A `%` is kept as it
is.
-/

namespace ApiContract.Url

open Ascii

/-- Control characters and what lies beyond ASCII. -/
def isControl (c : Char) : Bool := c.toNat < 0x20 || 0x7f ≤ c.toNat

/-- The characters that are encoded in a fragment. -/
def encodedInFragment (c : Char) : Bool := isControl c || [' ', '"', '<', '>', '`'].contains c

/-- The characters that are encoded in a path. -/
def encodedInPath (c : Char) : Bool :=
  encodedInFragment c || ['#', '?', '\x7b', '\x7d'].contains c

/-- The characters that are encoded in a user name or password. -/
def encodedInUser (c : Char) : Bool :=
  encodedInPath c || ['/', ':', ';', '=', '@', '[', '\\', ']', '^', '|'].contains c

/-- The characters that are encoded in a query. -/
def encodedInQuery (special : Bool) (c : Char) : Bool :=
  isControl c || [' ', '"', '#', '<', '>'].contains c || (special && c = '\'')

/-- An upper case hexadecimal digit. -/
def hexDigit (n : Nat) : Char :=
  if n < 10 then Char.ofNat ('0'.toNat + n) else Char.ofNat ('A'.toNat + n - 10)

/-- A byte in its encoded form. -/
def encodeByte (byte : UInt8) : List Char :=
  ['%', hexDigit (byte.toNat / 16), hexDigit (byte.toNat % 16)]

/-- A text with some characters encoded. -/
def encode (encoded : Char → Bool) (text : List Char) : List Char :=
  text.flatMap fun c =>
    if encoded c then (Utf8.encode (String.singleton c)).flatMap encodeByte else [c]

/-- The bytes of a text whose encoded bytes are read. -/
def decode : List Char → List UInt8
  | [] => []
  | '%' :: a :: b :: rest =>
    match hexValue? a, hexValue? b with
    | some high, some low => (high * 16 + low).toUInt8 :: decode rest
    | _, _ => '%'.toNat.toUInt8 :: decode (a :: b :: rest)
  | c :: rest => Utf8.encode (String.singleton c) ++ decode rest

end ApiContract.Url
