import ApiContract.Yaml.Value
/-!
# YAML values as JSON

Scalars and collections have their counterparts; tags are dropped.  A key
that is a number or a boolean becomes its text, and of two keys that
become the same text the later counts.  Other keys, and the numbers that
JSON does not have, are faults.
-/

namespace ApiContract.Yaml

/-- Why a value has no counterpart in JSON. -/
inductive ConversionFault where
  | infinite (negative : Bool)
  | nan
  | unsupportedKey (key : Value)

/-- The wording of a fault. -/
def ConversionFault.message : ConversionFault → String
  | infinite negative =>
    "cannot represent float " ++ (if negative then "-inf" else "inf") ++ " in JSON"
  | nan => "cannot represent float NaN in JSON"
  | unsupportedKey key => "unsupported YAML map key type: " ++ key.describe

namespace Value

/-- The text of a key. -/
def keyText : Value → Except ConversionFault String
  | .string s => .ok s
  | .number n => .ok n.format
  | .bool b => .ok (toString b)
  | key => .error (.unsupportedKey key)

mutual

/-- The counterpart in JSON.  An integer that was read fits in 64 bits, with a sign or without one
(`Atom.ofInteger`), and its counterpart is the same integer in both cases, so there is one case
for it.  A double never counts as an integer, even if its value is a whole number. -/
def toJson : Value → Except ConversionFault Json
  | .null => .ok .null
  | .bool b => .ok (.bool b)
  | .number (.integer n) => .ok (.number (.integer n))
  | .number (.double d) => .ok (.number (.double d))
  | .number (.infinity negative) => .error (.infinite negative)
  | .number .nan => .error .nan
  | .string s => .ok (.string s)
  | .sequence items => do .ok (.array (← toJsonItems items))
  | .mapping pairs => do .ok (Json.ofMembers (← toJsonMembers pairs))
  | .tagged _ value => toJson value

/-- The counterparts of items. -/
def toJsonItems : List Value → Except ConversionFault (List Json)
  | [] => .ok []
  | item :: rest => do .ok ((← toJson item) :: (← toJsonItems rest))

/-- The members that pairs become, in their order. -/
def toJsonMembers : List (Value × Value) → Except ConversionFault (List (String × Json))
  | [] => .ok []
  | (key, value) :: rest => do
    let key ← keyText key
    let value ← toJson value
    .ok ((key, value) :: (← toJsonMembers rest))

end

end Value

/-- Why a text is no document. -/
inductive DocumentFault where
  | malformed (fault : Fault)
  | unsupported (fault : ConversionFault)

/-- The wording of a fault. -/
def DocumentFault.message : DocumentFault → String
  | malformed fault => "invalid YAML: " ++ fault.message
  | unsupported fault => "YAML-to-JSON conversion failed: " ++ fault.message

/-- The JSON value of a YAML text. -/
def readJson (text : String) : Except DocumentFault Json :=
  match Value.ofText text with
  | .error fault => .error (.malformed fault)
  | .ok value =>
    match value.toJson with
    | .error fault => .error (.unsupported fault)
    | .ok json => .ok json

end ApiContract.Yaml
