import ApiContract.Format.Pointer
import ApiContract.Proofs.Files.Tree
import ApiContract.Proofs.Json.Order
import ApiContract.Proofs.Json.Scalars
import Mathlib
/-!
# Pointers into values

A JSON Pointer is the text of a path.  Reading the text of a path gives the path
back, whatever the keys on the way are (`ofPointer?_render`), so what a path leads
to is what its pointer resolves to (`resolve?_render`).

The paths into a value are in depth-first order: a value comes before its parts, the
parts of an object come in the order of their keys, and those of an array in the
order of their indices (`Before`).
-/

namespace ApiContract

namespace Ascii

variable {separator : Char}

theorem splitOn_of_not_mem {text : List Char} (h : separator ∉ text) :
    splitOn separator text = [text] := by
  induction text with
  | nil => rfl
  | cons c text ih =>
    rw [List.mem_cons, not_or] at h
    rw [splitOn, List.foldr_cons, ← splitOn, if_neg (Ne.symm h.1), ih h.2]

theorem splitOn_append {text : List Char} (h : separator ∉ text) (rest : List Char) :
    splitOn separator (text ++ separator :: rest) = text :: splitOn separator rest := by
  induction text with
  | nil => rw [List.nil_append, splitOn, List.foldr_cons, ← splitOn, if_pos rfl]
  | cons c text ih =>
    rw [List.mem_cons, not_or] at h
    rw [List.cons_append, splitOn, List.foldr_cons, ← splitOn, if_neg (Ne.symm h.1), ih h.2]

end Ascii

namespace Path

/-! ## Segments -/

theorem unescapeChars_cons {c : Char} (h : c ≠ '~') (rest : List Char) :
    unescapeChars (c :: rest) = c :: unescapeChars rest := by
  rw [unescapeChars]
  · exact fun _ heq _ => h heq
  · exact fun _ heq _ => h heq

theorem unescapeChars_flatMap (segment : List Char) :
    unescapeChars (segment.flatMap escapeChar) = segment := by
  induction segment with
  | nil => rfl
  | cons c segment ih =>
    rw [List.flatMap_cons, escapeChar]
    split_ifs with htilde hslash
    · rw [htilde]
      exact congrArg _ ih
    · rw [hslash]
      exact congrArg _ ih
    · rw [List.singleton_append, unescapeChars_cons htilde, ih]

/-- A segment can be read back from its escaped form. -/
theorem unescape_escape (segment : String) : unescape (escape segment) = segment := by
  rw [unescape, escape, String.toList_ofList, unescapeChars_flatMap, String.ofList_toList]

theorem slash_not_mem_escape (segment : String) : '/' ∉ (escape segment).toList := by
  rw [escape, String.toList_ofList, List.mem_flatMap]
  rintro ⟨c, -, hc⟩
  unfold escapeChar at hc
  split_ifs at hc with htilde hslash
  · exact absurd hc (by decide)
  · exact absurd hc (by decide)
  · exact hslash (List.mem_singleton.1 hc).symm

theorem hasGoodEscapes_cons {c : Char} (h : c ≠ '~') (rest : List Char) :
    Format.hasGoodEscapes (c :: rest) = Format.hasGoodEscapes rest := by
  rw [Format.hasGoodEscapes, decide_eq_true h, Bool.true_and]
  · exact fun _ heq _ => h heq
  · exact fun _ heq _ => h heq

theorem hasGoodEscapes_append_escaped (segment rest : List Char) :
    Format.hasGoodEscapes (segment.flatMap escapeChar ++ rest) = Format.hasGoodEscapes rest := by
  induction segment with
  | nil => rfl
  | cons c segment ih =>
    rw [List.flatMap_cons, List.append_assoc, escapeChar]
    split_ifs with htilde hslash
    · exact ih
    · exact ih
    · rw [List.singleton_append, hasGoodEscapes_cons htilde, ih]

/-! ## Paths -/

/-- The path that a JSON Pointer is the text of, if the text is one. -/
def ofPointer? (text : String) : Option Path :=
  if Format.isJsonPointer text.toList then
    match text.toList with
    | [] => some []
    | _ :: tokens => some ((Ascii.splitOn '/' tokens).map fun token => unescape (String.ofList token))
  else none

theorem toList_render_cons (segment : String) (path : Path) :
    (render (segment :: path)).toList =
      '/' :: ((escape segment).toList ++ (render path).toList) := by
  rw [render, List.map_cons, String.join_cons, ← render, String.toList_append, String.toList_append]
  rfl

theorem hasGoodEscapes_render (segment : String) (path : Path) :
    Format.hasGoodEscapes ((escape segment).toList ++ (render path).toList) = true := by
  induction path generalizing segment with
  | nil =>
    rw [escape, String.toList_ofList, hasGoodEscapes_append_escaped]
    rfl
  | cons next path ih =>
    rw [escape, String.toList_ofList, hasGoodEscapes_append_escaped, toList_render_cons,
      hasGoodEscapes_cons (by decide), ih]

theorem splitOn_render (segment : String) (path : Path) :
    Ascii.splitOn '/' ((escape segment).toList ++ (render path).toList) =
      (segment :: path).map fun segment => (escape segment).toList := by
  induction path generalizing segment with
  | nil =>
    rw [render, List.map_nil, String.join_nil, String.toList_empty, List.append_nil,
      Ascii.splitOn_of_not_mem (slash_not_mem_escape segment)]
    rfl
  | cons next path ih =>
    rw [toList_render_cons, Ascii.splitOn_append (slash_not_mem_escape segment), ih]
    rfl

/-- Reading the text of a path gives the path back. -/
theorem ofPointer?_render (path : Path) : ofPointer? path.render = some path := by
  cases path with
  | nil => rfl
  | cons segment path =>
    have hpointer : Format.isJsonPointer (render (segment :: path)).toList = true := by
      rw [toList_render_cons]
      exact hasGoodEscapes_render segment path
    rw [ofPointer?, if_pos hpointer, toList_render_cons]
    simp only [splitOn_render, List.map_map, Function.comp_def, String.ofList_toList, unescape_escape,
      List.map_id']

/-! ## Indices -/

theorem index?_toString (i : Nat) : index? (toString i) = some i := by
  have hdigits : (toString i).toList = Nat.toDigits 10 i := Nat.toList_repr
  have hvalue : (toString i).toNat? = some i := Nat.toNat?_repr i
  unfold index?
  by_cases hzero : i = 0
  · rw [hzero]
    rfl
  · obtain ⟨c, chars, hchars, hdigit, hne⟩ := Json.Reader.toDigits_eq_cons hzero
    have hall : (c :: chars).all Char.isDigit = true := by
      rw [← hchars, List.all_eq_true]
      exact fun d hd => Nat.isDigit_of_mem_toDigits (by omega) (by omega) hd
    rw [hdigits, hchars]
    split
    · next heq => exact absurd (List.cons.inj heq).1 hne
    · next heq =>
      rw [← heq, hall, hvalue]
      obtain ⟨rfl, -⟩ := List.cons.inj heq
      simp [hne]
    · next heq => cases heq

end Path

namespace Json

/-- The part of a value that a JSON Pointer leads to. -/
def resolve? (value : Json) (pointer : String) : Option Json :=
  (Path.ofPointer? pointer).bind value.at?

theorem resolve?_render (value : Json) (path : Path) :
    value.resolve? path.render = value.at? path := by
  rw [resolve?, Path.ofPointer?_render, Option.bind_some]

variable {value : Json}

/-! ## Depth-first order -/

/-- One part of a value comes before another one: keys are in byte order, and items
in the order of their indices. -/
inductive Sibling : Json → String → String → Prop
  | member {members : List (String × Json)} {key key' : String} (h : key < key') :
    Sibling (.object members) key key'
  | item {items : List Json} {segment segment' : String} {i j : Nat}
    (hi : Path.index? segment = some i) (hj : Path.index? segment' = some j) (h : i < j) :
    Sibling (.array items) segment segment'

/-- One path into a value comes before another one: a value comes before its parts,
and all of a part before all of the next one. -/
inductive Before : Json → Path → Path → Prop
  | above (value : Json) (segment : String) (path : Path) : Before value [] (segment :: path)
  | aside {value : Json} {segment segment' : String} (h : Sibling value segment segment')
    (path path' : Path) : Before value (segment :: path) (segment' :: path')
  | inside {value part : Json} {segment : String} {path path' : Path}
    (hpart : value.child? segment = some part) (h : Before part path path') :
    Before value (segment :: path) (segment :: path')

theorem Sibling.asymm {segment segment' : String} (h : Sibling value segment segment') :
    ¬ Sibling value segment' segment := by
  intro h'
  cases h with
  | member h =>
    cases h' with
    | member h' => exact lt_asymm h h'
  | item hi hj h =>
    cases h' with
    | item hj' hi' h' =>
      rw [hi] at hi'
      rw [hj] at hj'
      cases hi'
      cases hj'
      exact lt_asymm h h'

theorem Sibling.irrefl {segment : String} : ¬ Sibling value segment segment :=
  fun h => h.asymm h

/-- Of two paths, one at most comes before the other one. -/
theorem Before.asymm {path path' : Path} (h : Before value path path') :
    ¬ Before value path' path := by
  induction h with
  | above => nofun
  | aside h =>
    intro h'
    cases h' with
    | aside h' => exact h.asymm h'
    | inside => exact Sibling.irrefl h
  | inside hpart _ ih =>
    intro h'
    cases h' with
    | aside h' => exact Sibling.irrefl h'
    | inside hpart' h' =>
      rw [hpart] at hpart'
      cases hpart'
      exact ih h'

end Json

end ApiContract
