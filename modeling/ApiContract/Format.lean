import ApiContract.Format.Host
import ApiContract.Format.Pointer
import ApiContract.Format.Time
import ApiContract.Pattern.Basic
import ApiContract.Uri.Reference
/-!
# Formats of strings

The formats that the `format` keyword can ask for.  A name that is none of
them asks for nothing.
-/

namespace ApiContract

/-- A format of strings. -/
inductive Format where
  | date
  | time
  | dateTime
  | duration
  | email
  | idnEmail
  | hostname
  | idnHostname
  | ipv4
  | ipv6
  | uri
  | uriReference
  | iri
  | iriReference
  | uriTemplate
  | jsonPointer
  | relativeJsonPointer
  | uuid
  | regex
deriving DecidableEq, Repr

namespace Format

/-- The name of a format. -/
def name : Format → String
  | date => "date"
  | time => "time"
  | dateTime => "date-time"
  | duration => "duration"
  | email => "email"
  | idnEmail => "idn-email"
  | hostname => "hostname"
  | idnHostname => "idn-hostname"
  | ipv4 => "ipv4"
  | ipv6 => "ipv6"
  | uri => "uri"
  | uriReference => "uri-reference"
  | iri => "iri"
  | iriReference => "iri-reference"
  | uriTemplate => "uri-template"
  | jsonPointer => "json-pointer"
  | relativeJsonPointer => "relative-json-pointer"
  | uuid => "uuid"
  | regex => "regex"

/-- All formats. -/
def all : List Format :=
  [date, time, dateTime, duration, email, idnEmail, hostname, idnHostname, ipv4, ipv6, uri,
    uriReference, iri, iriReference, uriTemplate, jsonPointer, relativeJsonPointer, uuid, regex]

/-- The format of a name. -/
def ofName? (text : String) : Option Format := all.find? (·.name = text)

/-- Whether a text is a URI reference, or an IRI reference, and has a scheme
if it must. -/
def isReference (international absolute : Bool) (text : List Char) : Bool :=
  (UriReference.read international absolute text).toOption.isSome

/-- Whether a text has the format. -/
def accepts (format : Format) (text : String) : Bool :=
  let chars := text.toList
  match format with
  | date => isDate chars
  | time => isTime chars
  | dateTime => isDateTime chars
  | duration => isDuration chars
  | email => isMailAddress isHostName chars
  | idnEmail => isMailAddress isInternationalHostName chars
  | hostname => isHostName chars
  | idnHostname => isInternationalHostName chars
  | ipv4 => Network.isIpv4 chars
  | ipv6 => Network.isIpv6 chars
  | uri => isReference false true chars
  | uriReference => isReference false false chars
  | iri => isReference true true chars
  | iriReference => isReference true false chars
  | uriTemplate => isUriTemplate chars
  | jsonPointer => isJsonPointer chars
  | relativeJsonPointer => isRelativeJsonPointer chars
  | uuid => isUuid chars
  | regex => Pattern.isWellFormed text

end Format

end ApiContract
