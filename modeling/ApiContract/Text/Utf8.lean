/-!
# UTF-8

A character is a lead byte and up to three more bytes, each from a range
that the lead byte decides (`tails`).  A lead byte whose continuation
breaks off makes one ill-formed part, which ends before the first byte
that does not fit.

`decode?` accepts well-formed text only.  `decodeLossy` puts U+FFFD for
every ill-formed part.
-/

namespace ApiContract.Utf8

/-- The bits that a lead byte contributes and the ranges of the bytes that
must follow it; `none` for a byte that cannot lead. -/
def tails (lead : UInt8) : Option (Nat × List (UInt8 × UInt8)) :=
  let b := lead.toNat
  if b < 0x80 then some (b, [])
  else if b < 0xc2 then none
  else if b < 0xe0 then some (b - 0xc0, [(0x80, 0xbf)])
  else if b = 0xe0 then some (0, [(0xa0, 0xbf), (0x80, 0xbf)])
  else if b = 0xed then some (0xd, [(0x80, 0x9f), (0x80, 0xbf)])
  else if b < 0xf0 then some (b - 0xe0, [(0x80, 0xbf), (0x80, 0xbf)])
  else if b = 0xf0 then some (0, [(0x90, 0xbf), (0x80, 0xbf), (0x80, 0xbf)])
  else if b < 0xf4 then some (b - 0xf0, [(0x80, 0xbf), (0x80, 0xbf), (0x80, 0xbf)])
  else if b = 0xf4 then some (4, [(0x80, 0x8f), (0x80, 0xbf), (0x80, 0xbf)])
  else none

/-- Reads continuation bytes: the code point if all are there, and the
number of bytes that fitted. -/
def readTails (bits taken : Nat) : List (UInt8 × UInt8) → List UInt8 → Option Nat × Nat
  | [], _ => (some bits, taken)
  | _ :: _, [] => (none, taken)
  | (low, high) :: more, byte :: rest =>
    if low ≤ byte && byte ≤ high then
      readTails (bits * 64 + byte.toNat % 64) (taken + 1) more rest
    else (none, taken)

/-- The character that starts with `lead`, if it is well formed, and the
number of bytes after `lead` that belong to it or to the ill-formed part. -/
def head (lead : UInt8) (rest : List UInt8) : Option Char × Nat :=
  match tails lead with
  | none => (none, 0)
  | some (bits, ranges) =>
    let (code, taken) := readTails bits 0 ranges rest
    (code.map Char.ofNat, taken)

/-- The characters of the bytes, with U+FFFD for each ill-formed part. -/
def decodeLossy : List UInt8 → List Char
  | [] => []
  | lead :: rest =>
    let (char, taken) := head lead rest
    char.getD '\ufffd' :: decodeLossy (rest.drop taken)
termination_by bytes => bytes.length
decreasing_by simp only [List.length_drop, List.length_cons]; omega

/-- The characters of the bytes, or the number of bytes before the first
ill-formed part. -/
def decodeFrom (before : Nat) (done : List Char) : List UInt8 → Except Nat (List Char)
  | [] => .ok done.reverse
  | lead :: rest =>
    match head lead rest with
    | (none, _) => .error before
    | (some char, taken) => decodeFrom (before + 1 + taken) (char :: done) (rest.drop taken)
termination_by bytes => bytes.length
decreasing_by simp only [List.length_drop, List.length_cons]; omega

/-- The text that well-formed bytes stand for. -/
def decode? (bytes : List UInt8) : Option String :=
  (decodeFrom 0 [] bytes).toOption.map String.ofList

/-- The bytes of a text. -/
def encode (text : String) : List UInt8 := text.toUTF8.toList

end ApiContract.Utf8
