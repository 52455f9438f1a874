import ApiContract.Text.CaseFolding
import ApiContract.Text.Category
/-!
# Sets of characters in patterns

A set is built from ranges and named classes by union, intersection,
difference and complement.  `anyCase` adds to a set every character that
folds to the same character as one inside it.
-/

namespace ApiContract.Pattern

/-- A set of characters. -/
inductive CharSet where
  | none
  /-- The characters from `low` to `high`. -/
  | range (low high : Char)
  /-- The characters inside one of the ranges of code points. -/
  | ranges (list : List (Nat × Nat))
  /-- The characters whose category begins so. -/
  | category (name : String)
  | union (a b : CharSet)
  | intersection (a b : CharSet)
  | difference (a b : CharSet)
  | exclusive (a b : CharSet)
  | complement (a : CharSet)
  | anyCase (a : CharSet)
deriving Inhabited

namespace CharSet

/-- Whether a character is in a set. -/
def contains : CharSet → Char → Bool
  | none, _ => false
  | range low high, c => low ≤ c && c ≤ high
  | ranges list, c => list.any fun (low, high) => low ≤ c.toNat && c.toNat ≤ high
  | category name, c => (Unicode.category c).startsWith name
  | union a b, c => a.contains c || b.contains c
  | intersection a b, c => a.contains c && b.contains c
  | difference a b, c => a.contains c && !b.contains c
  | exclusive a b, c => a.contains c != b.contains c
  | complement a, c => !a.contains c
  | anyCase a, c => a.contains c || (Unicode.foldClass c).any a.contains

/-- One character. -/
def single (c : Char) : CharSet := range c c

/-- Every character. -/
def all : CharSet := complement none

/-- The set or its complement. -/
def negateIf (negated : Bool) (set : CharSet) : CharSet :=
  if negated then complement set else set

/-- The set, with the variants of case if asked for. -/
def anyCaseIf (ignoreCase : Bool) (set : CharSet) : CharSet :=
  if ignoreCase then anyCase set else set

/-- The union of a list of sets. -/
def unions (sets : List CharSet) : CharSet := sets.foldr union none

/-! ## Classes of ASCII text -/

/-- The decimal digits. -/
def asciiDigit : CharSet := range '0' '9'

/-- Letters, digits and the underscore. -/
def asciiWord : CharSet := unions [range 'A' 'Z', range 'a' 'z', range '0' '9', single '_']

/-- The hexadecimal digits. -/
def hexDigit : CharSet := unions [range '0' '9', range 'A' 'F', range 'a' 'f']

/-- The blanks of plain patterns. -/
def blank : CharSet :=
  ranges [(0x20, 0x20), (0x09, 0x0d), (0xa0, 0xa0), (0xfeff, 0xfeff), (0x2003, 0x2003),
    (0x2029, 0x2029)]

/-- The class between `[:` and `:]`. -/
def posix? (name : String) : Option CharSet :=
  if name = "alnum" then some (unions [range '0' '9', range 'A' 'Z', range 'a' 'z'])
  else if name = "alpha" then some (unions [range 'A' 'Z', range 'a' 'z'])
  else if name = "ascii" then some (range '\x00' '\x7f')
  else if name = "blank" then some (unions [single '\t', single ' '])
  else if name = "cntrl" then some (unions [range '\x00' '\x1f', single '\x7f'])
  else if name = "digit" then some asciiDigit
  else if name = "graph" then some (range '!' '~')
  else if name = "lower" then some (range 'a' 'z')
  else if name = "print" then some (range ' ' '~')
  else if name = "punct" then
    some (unions [range '!' '/', range ':' '@', range '[' '`', range '\x7b' '~'])
  else if name = "space" then some (unions [range '\t' '\r', single ' '])
  else if name = "upper" then some (range 'A' 'Z')
  else if name = "word" then some asciiWord
  else if name = "xdigit" then some hexDigit
  else Option.none

/-! ## Classes of all text -/

/-- Alphabetic characters, as far as they are no letters by category. -/
def otherAlphabetic : CharSet :=
  ranges [(0x24b6, 0x24e9), (0x1f130, 0x1f149), (0x1f150, 0x1f169), (0x1f170, 0x1f189)]

/-- Letters and what counts as such. -/
def alphabetic : CharSet := unions [category "L", category "Nl", otherAlphabetic]

/-- Characters of words. -/
def word : CharSet :=
  unions [asciiWord, alphabetic, category "M", category "Nd", category "Pc",
    ranges [(0x200c, 0x200d)]]

/-- White space. -/
def whiteSpace : CharSet :=
  unions [ranges [(0x09, 0x0d), (0x20, 0x20), (0x85, 0x85)], category "Z"]

/-- The long names of the categories. -/
def categoryNames : List (String × String) :=
  [("letter", "L"), ("uppercaseletter", "Lu"), ("lowercaseletter", "Ll"),
    ("titlecaseletter", "Lt"), ("modifierletter", "Lm"), ("otherletter", "Lo"),
    ("mark", "M"), ("combiningmark", "M"), ("nonspacingmark", "Mn"), ("spacingmark", "Mc"),
    ("enclosingmark", "Me"), ("number", "N"), ("decimalnumber", "Nd"), ("letternumber", "Nl"),
    ("othernumber", "No"), ("punctuation", "P"), ("punct", "P"),
    ("connectorpunctuation", "Pc"), ("dashpunctuation", "Pd"), ("openpunctuation", "Ps"),
    ("closepunctuation", "Pe"), ("initialpunctuation", "Pi"), ("finalpunctuation", "Pf"),
    ("otherpunctuation", "Po"), ("symbol", "S"), ("mathsymbol", "Sm"),
    ("currencysymbol", "Sc"), ("modifiersymbol", "Sk"), ("othersymbol", "So"),
    ("separator", "Z"), ("spaceseparator", "Zs"), ("lineseparator", "Zl"),
    ("paragraphseparator", "Zp"), ("other", "C"), ("control", "Cc"), ("cntrl", "Cc"),
    ("format", "Cf"), ("surrogate", "Cs"), ("privateuse", "Co"), ("unassigned", "Cn")]

/-- The main ranges of the scripts most used. -/
def scripts : List (String × List (Nat × Nat)) :=
  [("latin", [(0x41, 0x5a), (0x61, 0x7a), (0xaa, 0xaa), (0xba, 0xba), (0xc0, 0xd6),
      (0xd8, 0xf6), (0xf8, 0x2b8), (0x2e0, 0x2e4), (0x1d00, 0x1d25), (0x1d2c, 0x1d5c),
      (0x1d62, 0x1d65), (0x1d6b, 0x1d77), (0x1d79, 0x1dbe), (0x1e00, 0x1eff),
      (0x2071, 0x2071), (0x207f, 0x207f), (0x2090, 0x209c), (0x212a, 0x212b),
      (0x2132, 0x2132), (0x214e, 0x214e), (0x2160, 0x2188), (0x2c60, 0x2c7f),
      (0xa722, 0xa787), (0xa78b, 0xa7ca), (0xa7f2, 0xa7ff), (0xab30, 0xab5a),
      (0xab5c, 0xab64), (0xfb00, 0xfb06), (0xff21, 0xff3a), (0xff41, 0xff5a)]),
    ("greek", [(0x370, 0x373), (0x375, 0x377), (0x37a, 0x37d), (0x37f, 0x37f),
      (0x384, 0x384), (0x386, 0x386), (0x388, 0x38a), (0x38c, 0x38c), (0x38e, 0x3a1),
      (0x3a3, 0x3e1), (0x3f0, 0x3ff), (0x1d26, 0x1d2a), (0x1d5d, 0x1d61), (0x1d66, 0x1d6a),
      (0x1dbf, 0x1dbf), (0x1f00, 0x1ffe), (0x2126, 0x2126), (0xab65, 0xab65)]),
    ("cyrillic", [(0x400, 0x484), (0x487, 0x52f), (0x1c80, 0x1c88), (0x1d2b, 0x1d2b),
      (0x1d78, 0x1d78), (0x2de0, 0x2dff), (0xa640, 0xa69f), (0xfe2e, 0xfe2f)]),
    ("hebrew", [(0x591, 0x5c7), (0x5d0, 0x5ea), (0x5ef, 0x5f4), (0xfb1d, 0xfb4f)]),
    ("arabic", [(0x600, 0x604), (0x606, 0x60b), (0x60d, 0x61a), (0x61c, 0x61e),
      (0x620, 0x63f), (0x641, 0x64a), (0x656, 0x66f), (0x671, 0x6dc), (0x6de, 0x6ff),
      (0x750, 0x77f), (0x870, 0x8e1), (0x8e3, 0x8ff), (0xfb50, 0xfd3d), (0xfd50, 0xfdff),
      (0xfe70, 0xfefc)]),
    ("devanagari", [(0x900, 0x950), (0x955, 0x963), (0x966, 0x97f), (0xa8e0, 0xa8ff)]),
    ("thai", [(0xe01, 0xe3a), (0xe40, 0xe5b)]),
    ("hangul", [(0x1100, 0x11ff), (0x302e, 0x302f), (0x3131, 0x318e), (0x3200, 0x321e),
      (0x3260, 0x327e), (0xa960, 0xa97c), (0xac00, 0xd7a3), (0xd7b0, 0xd7fb),
      (0xffa0, 0xffdc)]),
    ("hiragana", [(0x3041, 0x3096), (0x309d, 0x309f), (0x1b001, 0x1b11f), (0x1f200, 0x1f200)]),
    ("katakana", [(0x30a1, 0x30fa), (0x30fd, 0x30ff), (0x31f0, 0x31ff), (0x32d0, 0x32fe),
      (0x3300, 0x3357), (0xff66, 0xff6f), (0xff71, 0xff9d)]),
    ("han", [(0x2e80, 0x2e99), (0x2e9b, 0x2ef3), (0x2f00, 0x2fd5), (0x3005, 0x3005),
      (0x3007, 0x3007), (0x3021, 0x3029), (0x3038, 0x303b), (0x3400, 0x4dbf),
      (0x4e00, 0x9fff), (0xf900, 0xfa6d), (0xfa70, 0xfad9), (0x20000, 0x2a6df),
      (0x2a700, 0x2ebe0), (0x2f800, 0x2fa1d), (0x30000, 0x3134a)])]

/-- A property name without case, blanks, hyphens and underscores. -/
def looseName (name : List Char) : String :=
  String.ofList <| (name.filter fun c => c ≠ ' ' && c ≠ '-' && c ≠ '_').map Char.toLower

/-- The set of the characters with a property. -/
def property? (name : List Char) : Option CharSet :=
  let loose := looseName name
  if loose = "any" then some all
  else if loose = "ascii" then some (ranges [(0, 0x7f)])
  else if loose = "assigned" then some (complement (category "Cn"))
  else if loose = "alphabetic" || loose = "alpha" then some alphabetic
  else if loose = "uppercase" || loose = "upper" then some (category "Lu")
  else if loose = "lowercase" || loose = "lower" then some (category "Ll")
  else if loose = "whitespace" || loose = "wspace" || loose = "space" then some whiteSpace
  else if loose = "lc" || loose = "casedletter" then
    some (unions [category "Lu", category "Ll", category "Lt"])
  else
    match categoryNames.lookup loose with
    | some code => some (category code)
    | Option.none =>
      match categoryNames.find? fun (_, code) => code.toLower = loose with
      | some (_, code) => some (category code)
      | Option.none => (scripts.lookup loose).map ranges

/-- The set that the text after `\p` stands for: a property, or one of the
form `name=value`. -/
def named? (name : List Char) : Option CharSet :=
  let (name, negated) : List Char × Bool := match name with
    | '^' :: rest => (rest, true)
    | name => (name, false)
  let key := looseName (name.takeWhile fun c => c ≠ '=' && c ≠ ':' && c ≠ '!')
  let value : Option (List Char × Bool) :=
    match name.dropWhile fun c => c ≠ '=' && c ≠ ':' && c ≠ '!' with
    | '!' :: '=' :: value => some (value, true)
    | '=' :: value => some (value, false)
    | ':' :: value => some (value, false)
    | _ => Option.none
  let found := match value with
    | some (value, unequal) =>
      if ["gc", "generalcategory", "sc", "script", "scx", "scriptextensions"].contains key then
        (property? value).map (negateIf unequal)
      else Option.none
    | Option.none => property? name
  found.map (negateIf negated)

end CharSet

end ApiContract.Pattern
