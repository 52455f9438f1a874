import ApiContract.Text.Utf8
/-!
# Texts of the system

The names of files and the values of variables are bytes to the system.
Mostly they are the bytes of a text, but nothing says that they have to
be.
-/

namespace ApiContract

/-- A name or a value as the system has it. -/
inductive OsText where
  | text (value : String)
  /-- Bytes that no text has. -/
  | other (bytes : List UInt8) (hbytes : Utf8.decode? bytes = none)
deriving DecidableEq

namespace OsText

/-- The text, if it is one. -/
def text? : OsText → Option String
  | text value => some value
  | other _ _ => none

@[simp] theorem text?_text (value : String) : (text value).text? = some value := rfl

theorem text?_eq_some {name : OsText} {value : String} :
    name.text? = some value ↔ name = text value := by
  cases name <;> simp [text?]

end OsText

end ApiContract
