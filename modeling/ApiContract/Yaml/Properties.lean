import ApiContract.Text.Ascii
import ApiContract.Text.Utf8
import ApiContract.Yaml.Source
import ApiContract.Yaml.Token
/-!
# Anchors, tags and directives in the text

The readers for what stands beside the nodes of a document: the names of
anchors and aliases, tags with their handles and addresses, and the
directives before a document.
-/

namespace ApiContract.Yaml

/-- The characters of a run of glyphs. -/
def textOf (glyphs : Source) : String := String.ofList (glyphs.map (·.char))

/-- The name characters at the start, and the rest. -/
def spanName (source : Source) : Source × Source := source.span fun g => isNameChar g.char

namespace Anchor

/-- The characters that may follow the name of an anchor directly. -/
def mayFollow (c : Char) : Bool := isGap c || "?:,]\x7d%@`".toList.contains c

/-- The name of an anchor or alias, from behind its mark. -/
def readName (source : Source) : Except Fault (String × Source) :=
  let (name, rest) := spanName source
  if !name.isEmpty && (rest.head?.all fun g => mayFollow g.char) then .ok (textOf name, rest)
  else .error .anchorName

end Anchor

namespace Tag

/-- The characters of addresses besides names and escapes. -/
def isAddressChar (c : Char) : Bool :=
  isNameChar c || ";/?:@&=+$.!~*'()".toList.contains c

/-- The characters that an address may hold only where no bracket can end
it. -/
def isBracketed (c : Char) : Bool := c = ',' || c = '[' || c = ']'

/-- The number of bytes of a character, by the first of them. -/
def width? (lead : Nat) : Option Nat :=
  if lead < 0x80 then some 1
  else if lead / 0x20 = 6 then some 2
  else if lead / 0x10 = 14 then some 3
  else if lead / 8 = 30 then some 4
  else none

/-- Reads on in an address: `done` are its bytes so far, last byte first,
and `due` bytes of an escaped character are still to come. -/
def readBytes (bracketed : Bool) (done : List UInt8) (due : Nat) :
    Source → Except Fault (List UInt8 × Source)
  | ⟨'%', _, _, _⟩ :: a :: b :: rest =>
    match Ascii.hexValue? a.char, Ascii.hexValue? b.char with
    | some high, some low =>
      let octet := high * 16 + low
      if due = 0 then
        match width? octet with
        | some width => readBytes bracketed (octet.toUInt8 :: done) (width - 1) rest
        | none => .error .tagEscape
      else if octet / 0x40 = 2 then readBytes bracketed (octet.toUInt8 :: done) (due - 1) rest
      else .error .tagEscape
    | _, _ => .error .tagEscape
  | g :: rest =>
    if 0 < due || g.char = '%' then .error .tagEscape
    else if isAddressChar g.char || (bracketed && isBracketed g.char) then
      readBytes bracketed (g.char.toNat.toUInt8 :: done) 0 rest
    else .ok (done.reverse, g :: rest)
  | [] => if 0 < due then .error .tagEscape else .ok (done.reverse, [])

/-- An address, of which `start` has been read already.  Unless something
has been, it must not be empty. -/
def readAddress (bracketed : Bool) (start : Option String) (source : Source) : Except Fault (String × Source) := do
  let (bytes, rest) ← readBytes bracketed [] 0 source
  if start.isNone && bytes.isEmpty then .error .tagAddress
  else .ok (start.getD "" ++ String.ofList (Utf8.decodeLossy bytes), rest)

/-- A handle: an exclamation mark, or a name between two of them.  The
second mark may be missing. -/
def readHandle : Source → Except Fault (String × Source)
  | ⟨'!', _, _, _⟩ :: rest =>
    let (name, rest) := spanName rest
    match rest with
    | ⟨'!', _, _, _⟩ :: rest => .ok ("!" ++ textOf name ++ "!", rest)
    | _ => .ok ("!" ++ textOf name, rest)
  | _ => .error .tagDirective

/-- Whether a handle has both of its marks. -/
def isClosed (handle : String) : Bool :=
  1 < handle.length && handle.toList.getLast? = some '!'

/-- A tag, from its exclamation mark on. -/
def read (inFlow : Bool) (source : Source) : Except Fault (Token × Source) := do
  let (tag, rest) ← match source with
    | _ :: ⟨'<', _, _, _⟩ :: rest => do
      let (address, rest) ← readAddress true none rest
      match rest with
      | ⟨'>', _, _, _⟩ :: rest => pure (Token.tag "" address, rest)
      | _ => .error .tagEnd
    | _ => do
      let (handle, rest) ← readHandle source
      if isClosed handle then do
        let (address, rest) ← readAddress false none rest
        pure (Token.tag handle address, rest)
      else do
        let (address, rest) ← readAddress false (some (String.ofList handle.toList.tail)) rest
        pure (if address = "" then (Token.tag "" "!", rest) else (Token.tag "!" address, rest))
  if Source.atGap rest || (inFlow && rest.head?.any fun g => g.char = ',') then .ok (tag, rest)
  else .error .tagEnd

end Tag

namespace Directive

/-- A version number, of at most nine digits. -/
def readNumber (source : Source) : Except Fault (Nat × Source) :=
  let (digits, rest) := source.span fun g => Ascii.isDigit g.char
  if digits.isEmpty || 9 < digits.length then .error .versionNumber
  else .ok (Ascii.decimalValue (digits.map (·.char)), rest)

/-- The version that a document is written in. -/
def readVersion (source : Source) : Except Fault (Token × Source) := do
  let (major, rest) ← readNumber source.skipBlanks
  match rest with
  | ⟨'.', _, _, _⟩ :: rest => do
    let (minor, rest) ← readNumber rest
    .ok (.version major minor, rest)
  | _ => .error .versionNumber

/-- The meaning of a tag handle. -/
def readTagHandle (source : Source) : Except Fault (Token × Source) := do
  let (handle, rest) ← Tag.readHandle source.skipBlanks
  if handle ≠ "!" && !Tag.isClosed handle then .error .tagDirective
  else if !(rest.head?.any fun g => isBlank g.char) then .error .tagDirective
  else do
    let (address, rest) ← Tag.readAddress true none rest.skipBlanks
    if rest.atGap then .ok (.handle handle address, rest) else .error .tagDirective

/-- A directive, from behind its percent sign to the end of its line. -/
def read (source : Source) : Except Fault (Token × Source) := do
  let (name, rest) := spanName source
  if name.isEmpty || !rest.atGap then .error .directiveName
  else do
    let (directive, rest) ←
      if textOf name = "YAML" then readVersion rest
      else if textOf name = "TAG" then readTagHandle rest
      else .error .unknownDirective
    match rest.endOfLine? with
    | some rest => .ok (directive, rest)
    | none => .error .directiveEnd

end Directive

end ApiContract.Yaml
