import ApiContract.Pattern.Reader
/-!
# Patterns

A pattern is the text of a regular expression that describes a part of the
texts it matches.  Plain patterns take digits and word characters from
ASCII.  A text that is no plain pattern is taken for an extended one if it
has look-around or a back reference before any fault.
-/

namespace ApiContract

/-- A pattern: its text and how that reads. -/
structure Pattern where
  text : String
  tree : Pattern.Tree

namespace Pattern

/-- The control characters of a text in the place of their escapes. -/
def putControls : List Char → List Char
  | [] => []
  | '\\' :: 'c' :: letter :: rest =>
    if Ascii.isLetter letter then Char.ofNat (letter.toNat % 32) :: putControls rest
    else '\\' :: 'c' :: putControls (letter :: rest)
  | '\\' :: c :: rest => '\\' :: c :: putControls rest
  | c :: rest => c :: putControls rest
termination_by text => text.length

/-- Whether a text is well formed as a pattern. -/
def isWellFormed (text : String) : Bool := verdict text.toList ≠ .malformed

/-- The pattern that a text is. -/
def ofText? (text : String) : Option Pattern :=
  let chars := text.toList
  let tree := match verdict chars with
    | .plain => readTree true (putControls chars)
    | .extended before => readTree false (putControls (chars.take before) ++ chars.drop before)
    | .malformed => .error .malformed
  tree.toOption.map fun tree => ⟨text, tree⟩

/-- Whether a part of a text is as the pattern says. -/
def isFoundIn (pattern : Pattern) (text : String) : Bool := pattern.tree.isFoundIn text

end Pattern

end ApiContract
