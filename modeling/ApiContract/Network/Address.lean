import ApiContract.Text.Ascii
/-!
# Internet addresses

IPv4 addresses in dotted form, each part without leading zeros, and IPv6
addresses with at most one `::` and optionally an IPv4 address at the end.
-/

namespace ApiContract.Network

open Ascii

/-- Whether a text is a part of a dotted address. -/
def isOctet (part : List Char) : Bool :=
  !part.isEmpty && part.length ≤ 3 && part.all isDigit &&
    (part.length = 1 || part.head? ≠ some '0') && decimalValue part ≤ 255

/-- The parts of an IPv4 address. -/
def octets? (text : List Char) : Option (List Nat) :=
  let parts := splitOn '.' text
  if parts.length = 4 && parts.all isOctet then some (parts.map decimalValue) else none

/-- Whether a text is an IPv4 address. -/
def isIpv4 (text : List Char) : Bool := (octets? text).isSome

/-- Whether a text is a group of an IPv6 address. -/
def isGroup (part : List Char) : Bool :=
  !part.isEmpty && part.length ≤ 4 && part.all isHex

/-- The number that hexadecimal digits stand for. -/
def hexNumber (digits : List Char) : Nat :=
  digits.foldl (fun n c => n * 16 + (hexValue? c).getD 0) 0

/-- The two groups that an IPv4 address fills. -/
def groupsOfOctets : List Nat → List Nat
  | [a, b, c, d] => [a * 256 + b, c * 256 + d]
  | _ => []

/-- The 16-bit groups that a text between colons stands for, if it is a
sequence of groups; the last may be an IPv4 address. -/
def groups? (last : Bool) (text : List Char) : Option (List Nat) :=
  if text.isEmpty then some []
  else
    let parts := splitOn ':' text
    let front := parts.dropLast
    match parts.getLast? with
    | none => some []
    | some final =>
      if !front.all isGroup then none
      else if isGroup final then some (parts.map hexNumber)
      else if last then
        (octets? final).map fun octets => front.map hexNumber ++ groupsOfOctets octets
      else none

/-- The text before and after the first `::`. -/
def splitDoubleColon (before : List Char) : List Char → Option (List Char × List Char)
  | [] => none
  | ':' :: ':' :: after => some (before.reverse, after)
  | c :: rest => splitDoubleColon (c :: before) rest

/-- The eight groups of an IPv6 address; `::` stands for one group of zero
at least. -/
def ipv6Groups? (text : List Char) : Option (List Nat) :=
  match splitDoubleColon [] text with
  | none => (groups? true text).filter fun groups => groups.length = 8
  | some (before, after) => do
    let front ← groups? false before
    let back ← groups? true after
    let missing := 8 - (front.length + back.length)
    if missing = 0 then none else some (front ++ List.replicate missing 0 ++ back)

/-- Whether a text is an IPv6 address. -/
def isIpv6 (text : List Char) : Bool := (ipv6Groups? text).isSome

end ApiContract.Network
