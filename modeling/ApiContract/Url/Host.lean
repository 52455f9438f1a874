import ApiContract.Network.DomainName
import ApiContract.Url.Basic
import ApiContract.Url.Encoding
/-!
# Hosts of URLs

In the special schemes a host is a domain name or an address; a name whose
last label is a number can only be an IPv4 address.  In other schemes it is
any text without delimiters.
-/

namespace ApiContract.Url

open Ascii Network

/-! ## IPv4 addresses -/

/-- The value of digits to a base, if all are digits to it. -/
def numberTo? (base : Nat) (digits : List Char) : Option Nat :=
  digits.foldlM
    (fun n c => do
      let value ← hexValue? c
      if value < base then some (n * base + value) else none)
    0

/-- The number that a part of an address is: decimal, octal after `0`, or
hexadecimal after `0x`. -/
def addressPart? : List Char → Option Nat
  | [] => none
  | '0' :: 'x' :: digits => numberTo? 16 digits
  | '0' :: 'X' :: digits => numberTo? 16 digits
  | '0' :: c :: digits => numberTo? 8 (c :: digits)
  | digits => numberTo? 10 digits

/-- The labels of a name; an empty one at the end does not count. -/
def addressParts (name : List Char) : List (List Char) :=
  let parts := splitOn '.' name
  if 1 < parts.length && parts.getLast? = some [] then parts.dropLast else parts

/-- Whether a name can only be an address. -/
def endsInNumber (name : List Char) : Bool :=
  match (addressParts name).getLast? with
  | some last => (!last.isEmpty && last.all isDigit) || (addressPart? last).isSome
  | none => false

/-- The address of numbers; the last fills all the bytes that are left. -/
def addressOf? (numbers : List Nat) : Option Nat :=
  match numbers.getLast? with
  | none => none
  | some last =>
    let front := numbers.dropLast
    if front.length ≤ 3 && front.all (· ≤ 255) && last < Nat.pow 256 (4 - front.length) then
      some (front.foldr (fun n weighted => (n * weighted.2 + weighted.1, weighted.2 * 256))
        (last, Nat.pow 256 (4 - front.length))).1
    else none

/-- The IPv4 address that a name is. -/
def ipv4? (name : List Char) : Option Nat :=
  ((addressParts name).mapM addressPart?).bind addressOf?

/-! ## Hosts -/

/-- Characters that no domain name has. -/
def isDenied (c : Char) : Bool :=
  isControl c || " #%/:<>?@[\\]^|".toList.contains c

/-- Characters that no host has in the schemes that are not special. -/
def isForbidden (c : Char) : Bool :=
  "\x00\t\n\r #/:<>?@[\\]^|".toList.contains c

/-- The address in brackets, from behind the opening one. -/
def readBracketed (text : List Char) : Except UrlFault Host :=
  if text.getLast? = some ']' then
    match ipv6Groups? text.dropLast with
    | some groups => .ok (.ipv6 groups)
    | none => .error .invalidIpv6
  else .error .invalidIpv6

/-- The domain name that a text is, in ASCII. -/
def domainOf? (text : List Char) : Option (List Char) := do
  let decoded ← Utf8.decode? (decode text)
  let labels ← DomainName.labelsToAscii? decoded.toList
  let name := (labels.intersperse ['.']).flatten
  if name.any isDenied then none else some name

/-- The host that a text is in a special scheme. -/
def readDomain (text : List Char) : Except UrlFault Host :=
  match text with
  | '[' :: rest => readBracketed rest
  | text =>
    match domainOf? text with
    | none => .error .invalidDomain
    | some [] => .error .emptyHost
    | some name =>
      if endsInNumber name then
        match ipv4? name with
        | some address => .ok (.ipv4 address)
        | none => .error .invalidIpv4
      else .ok (.name name)

/-- The host that a text is in a scheme that is not special. -/
def readOpaque (text : List Char) : Except UrlFault Host :=
  match text with
  | '[' :: rest => readBracketed rest
  | text =>
    if text.any isForbidden then .error .invalidHostCharacter
    else .ok (.name (encode isControl text))

end ApiContract.Url
