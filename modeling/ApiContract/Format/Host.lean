import ApiContract.Network.DomainName
/-!
# Host names and mail addresses
-/

namespace ApiContract.Format

open Network Ascii

/-- Whether a text is a label of a host name. -/
def isHostLabel (label : List Char) : Bool :=
  !label.isEmpty && label.length ≤ 63 &&
    label.all (fun c => isLetter c || isDigit c || c = '-') &&
    label.head? ≠ some '-' && label.getLast? ≠ some '-'

/-- Whether a text is a host name in ASCII. -/
def isHostName (text : List Char) : Bool :=
  text.length ≤ 253 && (splitOn '.' text).all isHostLabel

/-- Whether a text is a host name in any script. -/
def isInternationalHostName (text : List Char) : Bool :=
  match DomainName.labelsToAscii? text with
  | none => false
  | some labels =>
    labels.all isHostLabel && labels.flatten.length + labels.length ≤ 254

/-! ## Mail addresses -/

/-- Whether a character may stand in an unquoted word. -/
def isWordChar (c : Char) : Bool :=
  isLetter c || isDigit c || "!#$%&'*+-/=?^_`\x7b|\x7d~".toList.contains c || 0x80 ≤ c.toNat

/-- Whether a text is made of words joined by full stops. -/
def isDottedWords (text : List Char) : Bool :=
  (splitOn '.' text).all fun word => !word.isEmpty && word.all isWordChar

/-- Whether a text may stand between quotes. -/
def isQuotable : List Char → Bool
  | [] => true
  | '\\' :: c :: rest => ('!' ≤ c && c ≤ '~') && isQuotable rest
  | c :: rest =>
    (c = ' ' || c = '\t' || ('!' ≤ c && c ≤ '~' && c ≠ '"' && c ≠ '\\') || 0x80 ≤ c.toNat) &&
      isQuotable rest

/-- The number of bytes of a text. -/
def byteCount (text : List Char) : Nat := (String.ofList text).utf8ByteSize

/-- Whether a text may stand before the `@`. -/
def isLocalPart (text : List Char) : Bool :=
  if text.isEmpty || 64 < byteCount text then false
  else if text.head? = some '"' && text.getLast? = some '"' then
    2 < text.length && isQuotable (text.drop 1).dropLast
  else isDottedWords text

/-- Whether a text is a domain, by the given rule for names. -/
def isDomain (isName : List Char → Bool) (text : List Char) : Bool :=
  if text.isEmpty || 254 < byteCount text then false
  else if text.head? = some '[' && text.getLast? = some ']' then
    let literal := (text.drop 1).dropLast
    match literal with
    | 'I' :: 'P' :: 'v' :: '6' :: ':' :: address => isIpv6 address
    | address => isIpv4 address
  else (splitOn '.' text).all (byteCount · ≤ 63) && isDottedWords text && isName text

/-- The address inside the angle brackets after a display name, or the text
itself if there is no such name. -/
def bareAddress? (text : List Char) : Option (List Char) :=
  let address := (text.reverse.takeWhile (· ≠ '<')).reverse
  let before := text.take (text.length - address.length - 1)
  if address.length < text.length && before.getLast? = some ' ' then
    let address := (address.reverse.dropWhile (· = ' ')).reverse
    if address.getLast? = some '>' && before.any (· ≠ ' ') then some address.dropLast else none
  else some text

/-- Whether a text is a mail address, by the given rule for host names. -/
def isMailAddress (isName : List Char → Bool) (text : List Char) : Bool :=
  match bareAddress? text with
  | none => false
  | some address =>
    let domain := (address.reverse.takeWhile (· ≠ '@')).reverse
    domain.length < address.length &&
      isLocalPart (address.take (address.length - domain.length - 1)) && isDomain isName domain

end ApiContract.Format
