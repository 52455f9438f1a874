/-!
# Faults of YAML text

Why a text is no YAML document, and why a document does not hold what is
read from it.
-/

namespace ApiContract.Yaml

/-- A reason for refusing a document. -/
inductive Fault where
  | forbiddenCharacter
  | tabIndentation
  | misplacedEntry
  | misplacedKey
  | misplacedValue
  | missingColon
  | strayColon
  | strayCharacter
  | directiveName
  | unknownDirective
  | versionNumber
  | directiveEnd
  | tagDirective
  | unsupportedVersion
  | repeatedDirective
  | tagAddress
  | tagEscape
  | tagEnd
  | unknownTagHandle
  | anchorName
  | blockHeader
  | unclosedQuote
  | markInsideQuotes
  | unknownEscape
  | malformedEscape
  | unexpectedToken
  | severalDocuments
  | unknownAnchor
  | tooDeep
  | tooManyAliases
  | repeatedKey
  | tagMismatch
  | integerOutOfRange
  | unexpectedKind
  | missingField
  | repeatedField
  | unknownField
deriving DecidableEq, Repr

/-- The wording of a fault. -/
def Fault.message : Fault → String
  | forbiddenCharacter => "control characters are not allowed"
  | tabIndentation => "found a tab character where an indentation space is expected"
  | misplacedEntry => "block sequence entries are not allowed in this context"
  | misplacedKey => "mapping keys are not allowed in this context"
  | misplacedValue => "mapping values are not allowed in this context"
  | missingColon => "could not find expected ':'"
  | strayColon => "found unexpected ':'"
  | strayCharacter => "found character that cannot start any token"
  | directiveName => "could not find expected directive name"
  | unknownDirective => "found unknown directive name"
  | versionNumber => "did not find expected version number"
  | directiveEnd => "did not find expected comment or line break"
  | tagDirective => "did not find expected tag handle"
  | unsupportedVersion => "found incompatible YAML document"
  | repeatedDirective => "found duplicate directive"
  | tagAddress => "did not find expected tag URI"
  | tagEscape => "found an incorrect URI escape"
  | tagEnd => "did not find expected whitespace or line break"
  | unknownTagHandle => "found undefined tag handle"
  | anchorName => "did not find expected alphabetic or numeric character"
  | blockHeader => "did not find expected comment or line break after a block scalar header"
  | unclosedQuote => "found unexpected end of stream"
  | markInsideQuotes => "found unexpected document indicator"
  | unknownEscape => "found unknown escape character"
  | malformedEscape => "found invalid Unicode character escape code"
  | unexpectedToken => "did not find expected node content"
  | severalDocuments => "found more than one document"
  | unknownAnchor => "unknown anchor"
  | tooDeep => "recursion limit exceeded"
  | tooManyAliases => "repetition limit exceeded"
  | repeatedKey => "duplicate entry in a mapping"
  | tagMismatch => "the value does not fit its tag"
  | integerOutOfRange => "integer out of range"
  | unexpectedKind => "invalid type"
  | missingField => "missing field"
  | repeatedField => "duplicate field"
  | unknownField => "unknown field"

end ApiContract.Yaml
