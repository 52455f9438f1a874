import ApiContract.Network.Address
/-!
# URLs

A URL is an address with a scheme.  In the schemes of the web, the special
ones, a host is required, a backslash is as good as a slash, and the usual
port goes without saying.

The parts are kept as they are written in the normal form, that is
percent-encoded, without their delimiters.
-/

namespace ApiContract

/-- Why a text is no URL. -/
inductive UrlFault where
  | relative
  | emptyHost
  | invalidPort
  | invalidIpv4
  | invalidIpv6
  | invalidDomain
  | invalidHostCharacter
deriving DecidableEq, Repr

/-- The wording of a fault. -/
def UrlFault.message : UrlFault → String
  | relative => "relative URL without a base"
  | emptyHost => "empty host"
  | invalidPort => "invalid port number"
  | invalidIpv4 => "invalid IPv4 address"
  | invalidIpv6 => "invalid IPv6 address"
  | invalidDomain => "invalid international domain name"
  | invalidHostCharacter => "invalid domain character"

namespace Url

/-- A host; the empty name stands for none. -/
inductive Host where
  | name (text : List Char)
  | ipv4 (address : Nat)
  | ipv6 (groups : List Nat)
deriving DecidableEq, Repr

/-- What stands between the two slashes and the path. -/
structure Authority where
  user : List Char
  password : Option (List Char)
  host : Host
  port : Option Nat
deriving DecidableEq, Repr

end Url

/-- A URL in its normal form. -/
structure Url where
  scheme : List Char
  authority : Option Url.Authority
  path : List Char
  query : Option (List Char)
  fragment : Option (List Char)
deriving DecidableEq, Repr

namespace Url

/-! ## Schemes -/

/-- The special schemes, apart from files, with their usual ports. -/
def webSchemes : List (String × Nat) :=
  [("http", 80), ("https", 443), ("ws", 80), ("wss", 443), ("ftp", 21)]

/-- The kinds of schemes, by how the rest is read. -/
inductive SchemeKind where
  | file
  | web
  | other
deriving DecidableEq, Repr

namespace SchemeKind

/-- The kind of a scheme. -/
def of (scheme : List Char) : SchemeKind :=
  if String.ofList scheme = "file" then file
  else if (webSchemes.lookup (String.ofList scheme)).isSome then web
  else other

/-- Whether a backslash is as good as a slash. -/
def isSpecial (kind : SchemeKind) : Bool := kind ≠ other

end SchemeKind

/-- The port that a scheme uses if none is given. -/
def usualPort? (scheme : List Char) : Option Nat := webSchemes.lookup (String.ofList scheme)

/-! ## Text -/

/-- The digits of a number. -/
def decimal (n : Nat) : List Char := Nat.toDigits 10 n

/-- The dotted form of an address. -/
def dotted (address : Nat) : List Char :=
  [address / 0x1000000, address / 0x10000 % 256, address / 0x100 % 256, address % 256].map decimal
    |>.intersperse ['.'] |>.flatten

/-- The groups between colons. -/
def groupText (groups : List Nat) : List Char :=
  ((groups.map (Nat.toDigits 16)).intersperse [':']).flatten

/-- The place and the length of the first of the longest runs of zeros. -/
def longestZeros (groups : List Nat) : Nat × Nat :=
  let run (start : Nat) : Nat := ((groups.drop start).takeWhile (· = 0)).length
  (List.range groups.length).foldl
    (fun best start => if best.2 < run start then (start, run start) else best) (0, 0)

/-- The text of an IPv6 address; two or more groups of zero are left out
once. -/
def ipv6Text (groups : List Nat) : List Char :=
  let (start, length) := longestZeros groups
  if length < 2 then groupText groups
  else groupText (groups.take start) ++ "::".toList ++ groupText (groups.drop (start + length))

/-- The text of a host. -/
def Host.write : Host → List Char
  | name text => text
  | ipv4 address => dotted address
  | ipv6 groups => '[' :: ipv6Text groups ++ [']']

/-- A part with its delimiter before it, if there is one. -/
def marked (mark : Char) : Option (List Char) → List Char
  | none => []
  | some part => mark :: part

namespace Authority

/-- The part before the host. -/
def writeUser (authority : Authority) : List Char :=
  if authority.user.isEmpty && authority.password.isNone then []
  else authority.user ++ marked ':' authority.password ++ ['@']

/-- The text of an authority. -/
def write (authority : Authority) : List Char :=
  authority.writeUser ++ authority.host.write ++ marked ':' (authority.port.map decimal)

end Authority

/-- The path as it is written.  Without an authority, two slashes at its
beginning would be read as one. -/
def writePath (url : Url) : List Char :=
  match url.authority, url.path with
  | none, '/' :: '/' :: _ => '/' :: '.' :: url.path
  | _, path => path

/-- The text of a URL. -/
def write (url : Url) : List Char :=
  url.scheme ++ ':' ::
    (match url.authority with
      | none => []
      | some authority => '/' :: '/' :: authority.write) ++
    url.writePath ++ marked '?' url.query ++ marked '#' url.fragment

/-- The text of a URL. -/
def text (url : Url) : String := String.ofList url.write

/-- What a request for the URL asks its host for. -/
def target (url : Url) : String :=
  String.ofList ((if url.path.isEmpty then ['/'] else url.path) ++ marked '?' url.query)

/-- The scheme, the host and the port that a request goes to. -/
def origin (url : Url) : List Char × Option Host × Option Nat :=
  (url.scheme, url.authority.map (·.host),
    (url.authority.bind (·.port)).or (usualPort? url.scheme))

/-- The URL without user and password. -/
def withoutUser (url : Url) : Url :=
  { url with
    authority := url.authority.map fun authority =>
      { authority with user := [], password := none } }

end Url

end ApiContract
