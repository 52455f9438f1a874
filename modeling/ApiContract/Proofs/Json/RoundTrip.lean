import ApiContract.Proofs.Json.Order
import ApiContract.Proofs.Json.Parts
import ApiContract.Proofs.Json.Scalars
/-!
# Reading compact text back

A value whose numbers are integers is read back from its compact text, as long
as its arrays and objects are nested no deeper than the reader allows
(`read_compact`).  A value that is nested deeper is refused for its depth
(`read_compact_of_deep`).

Both go by the size of the value.  The invariant (`ReadsBack`) says of a reader
what it does with the text of a value, whatever part of a larger text follows
it; an array or object is read back if its items or members are.
-/

namespace ApiContract.Json

/-! ## Nesting -/

mutual

/-- How deep arrays and objects are nested in a value. -/
def nesting : Json → Nat
  | .array items => nestingOfItems items + 1
  | .object members => nestingOfMembers members + 1
  | _ => 0

/-- How deep arrays and objects are nested in items. -/
def nestingOfItems : List Json → Nat
  | [] => 0
  | item :: rest => max (nesting item) (nestingOfItems rest)

/-- How deep arrays and objects are nested in the values of members. -/
def nestingOfMembers : List (String × Json) → Nat
  | [] => 0
  | (_, value) :: rest => max (nesting value) (nestingOfMembers rest)

end

/-- Whether a value is no number, or an integer that is kept as one. -/
def isMachineValue : Json → Bool
  | .number (.integer n) => Number.isMachineInteger n
  | .number (.double _) => false
  | _ => true

/-- All numbers in a value are integers that are kept as such. -/
def HoldsIntegers (value : Json) : Prop := value.everywhere isMachineValue = true

instance (value : Json) : Decidable value.HoldsIntegers :=
  inferInstanceAs (Decidable (value.everywhere isMachineValue = true))

namespace Reader

/-! ## The bytes of a value -/

/-- The bytes of the items after the first one. -/
def laterItems (items : List Json) : List UInt8 :=
  items.flatMap fun item => 0x2c :: Utf8.encode item.compact

/-- The bytes of a member from behind the quote of its key. -/
def memberBytes (key : String) (value : Json) : List UInt8 :=
  quotedBytes key ++ 0x3a :: Utf8.encode value.compact

/-- The bytes of the members after the first one. -/
def laterMembers (members : List (String × Json)) : List UInt8 :=
  members.flatMap fun member => 0x2c :: 0x22 :: memberBytes member.1 member.2

theorem encode_comma : Utf8.encode "," = [0x2c] := Utf8.encode_ofList [',']

theorem encode_items (item : Json) (items : List Json) :
    Utf8.encode (",".intercalate (compactItems (item :: items))) =
      Utf8.encode item.compact ++ laterItems items := by
  induction items generalizing item with
  | nil =>
    rw [compactItems, compactItems, String.intercalate_singleton, laterItems, List.flatMap_nil,
      List.append_nil]
  | cons next items ih =>
    have hnext := ih next
    rw [compactItems, compactItems, String.intercalate_cons_cons, Utf8.encode_append,
      Utf8.encode_append, encode_comma, ← compactItems, hnext, laterItems, laterItems,
      List.flatMap_cons, List.append_assoc]
    rfl

theorem encode_array (item : Json) (items : List Json) :
    Utf8.encode (compact (.array (item :: items))) =
      0x5b :: (Utf8.encode item.compact ++ (laterItems items ++ [0x5d])) := by
  rw [compact, Utf8.encode_append, Utf8.encode_append, encode_items,
    show Utf8.encode "[" = [0x5b] from Utf8.encode_ofList ['['],
    show Utf8.encode "]" = [0x5d] from Utf8.encode_ofList [']'], List.append_assoc,
    List.append_assoc]
  rfl

theorem encode_member (key : String) (value : Json) :
    Utf8.encode (quote key ++ ":" ++ value.compact) = 0x22 :: memberBytes key value := by
  rw [Utf8.encode_append, Utf8.encode_append, encode_quote,
    show Utf8.encode ":" = [0x3a] from Utf8.encode_ofList [':'], memberBytes, List.append_assoc]
  rfl

theorem encode_members (key : String) (value : Json) (members : List (String × Json)) :
    Utf8.encode (",".intercalate (compactMembers ((key, value) :: members))) =
      0x22 :: (memberBytes key value ++ laterMembers members) := by
  induction members generalizing key value with
  | nil =>
    rw [compactMembers, compactMembers, String.intercalate_singleton, encode_member, laterMembers,
      List.flatMap_nil, List.append_nil]
  | cons next members ih =>
    obtain ⟨nextKey, nextValue⟩ := next
    have hnext := ih nextKey nextValue
    rw [compactMembers, compactMembers, String.intercalate_cons_cons, Utf8.encode_append,
      Utf8.encode_append, encode_comma, ← compactMembers, hnext, encode_member, laterMembers,
      laterMembers, List.flatMap_cons, List.append_assoc]
    rfl

theorem encode_object (key : String) (value : Json) (members : List (String × Json)) :
    Utf8.encode (compact (.object ((key, value) :: members))) =
      0x7b :: 0x22 :: (memberBytes key value ++ (laterMembers members ++ [0x7d])) := by
  rw [compact, Utf8.encode_append, Utf8.encode_append, encode_members,
    show Utf8.encode "\x7b" = [0x7b] from Utf8.encode_ofList ['\x7b'],
    show Utf8.encode "\x7d" = [0x7d] from Utf8.encode_ofList ['\x7d'], List.append_assoc]
  show 0x7b :: 0x22 :: (memberBytes key value ++ laterMembers members ++ [0x7d]) = _
  rw [List.append_assoc]

theorem stops_laterItems (items : List Json) (rest : List UInt8) :
    Stops (laterItems items ++ 0x5d :: rest) := by
  cases items with
  | nil => exact stops_cons (.inr (.inl rfl))
  | cons item items => exact stops_cons (.inl rfl)

theorem stops_laterMembers (members : List (String × Json)) (rest : List UInt8) :
    Stops (laterMembers members ++ 0x7d :: rest) := by
  cases members with
  | nil => exact stops_cons (.inr (.inr rfl))
  | cons member members => exact stops_cons (.inl rfl)

/-! ## Values inside a larger text -/

/-- A value was refused for its depth. -/
def RefusesDepth (step : Step Json) : Prop := ∃ fault, step = .error fault ∧ fault.cause = .tooDeep

/-- What a reader makes of the text of a value, whatever part of a larger text
follows it. -/
structure ReadsBack (read : List UInt8 → Step Json) (depth : Nat) (value : Json) : Prop where
  shallow : value.nesting ≤ depth → ∀ rest, Stops rest →
    read (Utf8.encode value.compact ++ rest) = .ok (value, rest)
  deep : depth < value.nesting → ∀ rest, Stops rest →
    RefusesDepth (read (Utf8.encode value.compact ++ rest))

/-- The first byte of a value, which is neither a blank nor the end of an
array. -/
def Opens (bytes : List UInt8) : Prop :=
  ∃ b more, bytes = b :: more ∧ isBlank b = false ∧ b ≠ 0x5d

theorem Opens.append {bytes : List UInt8} (h : Opens bytes) (rest : List UInt8) :
    Opens (bytes ++ rest) := by
  obtain ⟨b, more, rfl, hblank, hb⟩ := h
  exact ⟨b, more ++ rest, rfl, hblank, hb⟩

theorem skipBlanks_cons {b : UInt8} {more : List UInt8} (h : isBlank b = false) :
    skipBlanks (b :: more) = b :: more := by
  rw [skipBlanks, List.dropWhile_cons, h]
  rfl

theorem isBlank_byte {c : Char} (h : c.isDigit = true) : isBlank (byte c) = false := by
  have hrange := toNat_le_of_isDigit h
  have hbyte := toNat_byte (c := c) (by omega)
  have hne {b : UInt8} (hb : b.toNat < 48) : byte c ≠ b := by
    rintro rfl
    omega
  rw [isBlank, beq_eq_false_iff_ne.2 (hne (by decide)), beq_eq_false_iff_ne.2 (hne (by decide)),
    beq_eq_false_iff_ne.2 (hne (by decide)), beq_eq_false_iff_ne.2 (hne (by decide))]
  rfl

theorem opens_compact {value : Json} (h : value.HoldsIntegers) :
    Opens (Utf8.encode value.compact) := by
  cases value with
  | null => exact ⟨_, _, Utf8.encode_ofList "null".toList, rfl, by decide⟩
  | bool b =>
    cases b with
    | false => exact ⟨_, _, Utf8.encode_ofList "false".toList, rfl, by decide⟩
    | true => exact ⟨_, _, Utf8.encode_ofList "true".toList, rfl, by decide⟩
  | number n =>
    cases n with
    | double d => cases h
    | integer n =>
      obtain ⟨negative, digits, hencode, ⟨c, more, rfl, hc⟩, -⟩ := readNumber_format h stops_nil
      rw [compact, hencode]
      cases negative with
      | true => exact ⟨_, _, rfl, by decide, by decide⟩
      | false =>
        have hrange := toNat_le_of_isDigit hc
        refine ⟨byte c, more.map byte, rfl, isBlank_byte hc, ?_⟩
        intro heq
        have hbyte := toNat_byte (c := c) (by omega)
        rw [heq] at hbyte
        have : (0x5d : UInt8).toNat = 93 := rfl
        omega
  | string s =>
    rw [compact, encode_quote]
    exact ⟨_, _, rfl, by decide, by decide⟩
  | array items =>
    cases items with
    | nil => exact ⟨_, _, Utf8.encode_ofList ['[', ']'], rfl, by decide⟩
    | cons item items =>
      rw [encode_array]
      exact ⟨_, _, rfl, by decide, by decide⟩
  | object members =>
    cases members with
    | nil => exact ⟨_, _, Utf8.encode_ofList ['\x7b', '\x7d'], rfl, by decide⟩
    | cons member members =>
      rw [encode_object]
      exact ⟨_, _, rfl, by decide, by decide⟩

/-! ## Arrays -/

variable {read : List UInt8 → Step Json} {depth bound : Nat}

theorem readItems_last {done : List Json} {item : Json} {text rest : List UInt8}
    (h : read text = .ok (item, 0x5d :: rest)) :
    readItems read done (bound + 1) text = .ok (.array (item :: done).reverse, rest) := by
  rw [readItems, h]
  rfl

theorem readItems_more {done : List Json} {item : Json} {text rest : List UInt8}
    (h : read text = .ok (item, 0x2c :: rest)) (hrest : Opens rest) :
    readItems read done (bound + 1) text = readItems read (item :: done) bound rest := by
  obtain ⟨b, more, rfl, hblank, hb⟩ := hrest
  rw [readItems, h]
  have hcomma : skipBlanks (0x2c :: b :: more) = 0x2c :: b :: more := rfl
  simp only [hcomma, skipBlanks_cons hblank]
  split
  · next heq => cases heq
  · next heq => exact absurd (List.cons.inj heq).1 hb
  · rfl

theorem readItems_refuses {done : List Json} {text : List UInt8} (h : RefusesDepth (read text)) :
    RefusesDepth (readItems read done (bound + 1) text) := by
  obtain ⟨fault, hread, hcause⟩ := h
  rw [readItems, hread]
  exact ⟨fault, rfl, hcause⟩

theorem laterItems_append (item : Json) (items : List Json) (rest : List UInt8) :
    laterItems (item :: items) ++ rest =
      0x2c :: (Utf8.encode item.compact ++ (laterItems items ++ rest)) := by
  rw [laterItems, List.flatMap_cons, ← laterItems, List.append_assoc]
  rfl

/-- The text from an item on to the end of an array. -/
theorem readItems_compact {item : Json} {items done : List Json} {rest : List UInt8}
    (hread : ∀ part ∈ item :: items, ReadsBack read depth part)
    (hopens : ∀ part ∈ items, Opens (Utf8.encode part.compact)) (hbound : items.length < bound)
    (h : nestingOfItems (item :: items) ≤ depth) :
    readItems read done bound
        (Utf8.encode item.compact ++ (laterItems items ++ 0x5d :: rest)) =
      .ok (.array (done.reverse ++ item :: items), rest) := by
  induction items generalizing item done bound with
  | nil =>
    obtain ⟨bound, rfl⟩ := Nat.exists_eq_add_of_lt hbound
    rw [nestingOfItems, nestingOfItems] at h
    have hitem := (hread item List.mem_cons_self).shallow (by omega) _ (stops_laterItems [] rest)
    rw [readItems_last hitem, List.reverse_cons]
  | cons next items ih =>
    obtain ⟨bound, rfl⟩ : ∃ inner, bound = inner + 1 := ⟨bound - 1, by omega⟩
    rw [List.length_cons] at hbound
    rw [nestingOfItems] at h
    have hitem := (hread item List.mem_cons_self).shallow (by omega) _
      (stops_laterItems (next :: items) rest)
    have hopen := (hopens next List.mem_cons_self).append (laterItems items ++ 0x5d :: rest)
    rw [laterItems_append] at hitem ⊢
    rw [readItems_more hitem hopen,
      ih (fun part hpart => hread part (List.mem_cons_of_mem item hpart))
        (fun part hpart => hopens part (List.mem_cons_of_mem next hpart)) (by omega) (by omega),
      List.reverse_cons, List.append_assoc]
    rfl

/-- An item that is nested too deep is refused, whatever stands before it. -/
theorem readItems_of_deep {item : Json} {items done : List Json} {rest : List UInt8}
    (hread : ∀ part ∈ item :: items, ReadsBack read depth part)
    (hopens : ∀ part ∈ items, Opens (Utf8.encode part.compact)) (hbound : items.length < bound)
    (h : depth < nestingOfItems (item :: items)) :
    RefusesDepth (readItems read done bound
      (Utf8.encode item.compact ++ (laterItems items ++ 0x5d :: rest))) := by
  induction items generalizing item done bound with
  | nil =>
    obtain ⟨bound, rfl⟩ := Nat.exists_eq_add_of_lt hbound
    rw [nestingOfItems, nestingOfItems] at h
    exact readItems_refuses
      ((hread item List.mem_cons_self).deep (by omega) _ (stops_laterItems [] rest))
  | cons next items ih =>
    obtain ⟨bound, rfl⟩ : ∃ inner, bound = inner + 1 := ⟨bound - 1, by omega⟩
    rw [List.length_cons] at hbound
    rw [nestingOfItems] at h
    have hstops := stops_laterItems (next :: items) rest
    by_cases hdeep : depth < item.nesting
    · exact readItems_refuses ((hread item List.mem_cons_self).deep hdeep _ hstops)
    · have hitem := (hread item List.mem_cons_self).shallow (by omega) _ hstops
      have hopen := (hopens next List.mem_cons_self).append (laterItems items ++ 0x5d :: rest)
      rw [laterItems_append] at hitem ⊢
      rw [readItems_more hitem hopen]
      exact ih (fun part hpart => hread part (List.mem_cons_of_mem item hpart))
        (fun part hpart => hopens part (List.mem_cons_of_mem next hpart)) (by omega) (by omega)

/-- A list of parts is no longer than the texts of its parts together. -/
theorem length_le_laterItems (items : List Json) : items.length ≤ (laterItems items).length :=
  length_le_length_flatMap (fun _ => List.cons_ne_nil _ _) items

theorem readArray_cons (read : List UInt8 → Step Json) {item : Json} (items : List Json)
    (rest : List UInt8) (hopen : Opens (Utf8.encode item.compact)) :
    ∃ bound, items.length < bound ∧
      readArray read (Utf8.encode item.compact ++ (laterItems items ++ 0x5d :: rest)) =
        readItems read [] bound
          (Utf8.encode item.compact ++ (laterItems items ++ 0x5d :: rest)) := by
  refine ⟨(Utf8.encode item.compact ++ (laterItems items ++ 0x5d :: rest)).length + 1, ?_, ?_⟩
  · have := length_le_laterItems items
    rw [List.length_append, List.length_append]
    omega
  · obtain ⟨b, more, hbytes, hblank, hb⟩ := hopen.append (laterItems items ++ 0x5d :: rest)
    rw [hbytes, readArray, skipBlanks_cons hblank]
    split
    · next heq => cases heq
    · next heq => exact absurd (List.cons.inj heq).1 hb
    · rfl

/-! ## Objects -/

theorem readKey_quotedBytes (key : String) (rest : List UInt8) :
    readKey (quotedBytes key ++ 0x3a :: rest) = .ok (key, rest) := by
  rw [readKey, readString_quotedBytes]
  rfl

variable {key : String} {value : Json}

theorem readMembers_last {done : List (String × Json)} {text rest : List UInt8}
    (h : read text = .ok (value, 0x7d :: rest)) :
    readMembers read done (bound + 1) (quotedBytes key ++ 0x3a :: text) =
      .ok (ofMembers ((key, value) :: done).reverse, rest) := by
  simp only [readMembers, readKey_quotedBytes, h]
  rfl

theorem readMembers_more {done : List (String × Json)} {text rest : List UInt8}
    (h : read text = .ok (value, 0x2c :: 0x22 :: rest)) :
    readMembers read done (bound + 1) (quotedBytes key ++ 0x3a :: text) =
      readMembers read ((key, value) :: done) bound rest := by
  simp only [readMembers, readKey_quotedBytes, h]
  rfl

theorem readMembers_refuses {done : List (String × Json)} {text : List UInt8}
    (h : RefusesDepth (read text)) :
    RefusesDepth (readMembers read done (bound + 1) (quotedBytes key ++ 0x3a :: text)) := by
  obtain ⟨fault, hread, hcause⟩ := h
  simp only [readMembers, readKey_quotedBytes, hread]
  exact ⟨fault, rfl, hcause⟩

theorem memberBytes_append (key : String) (value : Json) (rest : List UInt8) :
    memberBytes key value ++ rest =
      quotedBytes key ++ 0x3a :: (Utf8.encode value.compact ++ rest) := by
  rw [memberBytes, List.append_assoc]
  rfl

theorem laterMembers_append (key : String) (value : Json) (members : List (String × Json))
    (rest : List UInt8) :
    laterMembers ((key, value) :: members) ++ rest =
      0x2c :: 0x22 :: (memberBytes key value ++ (laterMembers members ++ rest)) := by
  rw [laterMembers, List.flatMap_cons, ← laterMembers, List.append_assoc]
  rfl

/-- The text from a member on to the end of an object. -/
theorem readMembers_compact {members done : List (String × Json)} {rest : List UInt8}
    (hread : ∀ name part, (name, part) ∈ (key, value) :: members → ReadsBack read depth part)
    (hbound : members.length < bound) (h : nestingOfMembers ((key, value) :: members) ≤ depth) :
    readMembers read done bound
        (memberBytes key value ++ (laterMembers members ++ 0x7d :: rest)) =
      .ok (ofMembers (done.reverse ++ (key, value) :: members), rest) := by
  have hvalue := hread key value List.mem_cons_self
  induction members generalizing key value done bound with
  | nil =>
    obtain ⟨bound, rfl⟩ := Nat.exists_eq_add_of_lt hbound
    rw [nestingOfMembers, nestingOfMembers] at h
    have htext := hvalue.shallow (by omega) _ (stops_laterMembers [] rest)
    rw [memberBytes_append, readMembers_last htext, List.reverse_cons]
  | cons next members ih =>
    obtain ⟨nextKey, nextValue⟩ := next
    obtain ⟨bound, rfl⟩ : ∃ inner, bound = inner + 1 := ⟨bound - 1, by omega⟩
    rw [List.length_cons] at hbound
    rw [nestingOfMembers] at h
    have htext := hvalue.shallow (by omega) _
      (stops_laterMembers ((nextKey, nextValue) :: members) rest)
    have hlater : ∀ name part, (name, part) ∈ (nextKey, nextValue) :: members →
        ReadsBack read depth part :=
      fun name part hpart => hread name part (List.mem_cons_of_mem _ hpart)
    rw [memberBytes_append]
    rw [laterMembers_append] at htext ⊢
    rw [readMembers_more htext,
      ih hlater (by omega) (by omega) (hlater _ _ List.mem_cons_self), List.reverse_cons,
      List.append_assoc]
    rfl

/-- A member that is nested too deep is refused, whatever stands before it. -/
theorem readMembers_of_deep {members done : List (String × Json)} {rest : List UInt8}
    (hread : ∀ name part, (name, part) ∈ (key, value) :: members → ReadsBack read depth part)
    (hbound : members.length < bound) (h : depth < nestingOfMembers ((key, value) :: members)) :
    RefusesDepth (readMembers read done bound
      (memberBytes key value ++ (laterMembers members ++ 0x7d :: rest))) := by
  have hvalue := hread key value List.mem_cons_self
  induction members generalizing key value done bound with
  | nil =>
    obtain ⟨bound, rfl⟩ := Nat.exists_eq_add_of_lt hbound
    rw [nestingOfMembers, nestingOfMembers] at h
    rw [memberBytes_append]
    exact readMembers_refuses (hvalue.deep (by omega) _ (stops_laterMembers [] rest))
  | cons next members ih =>
    obtain ⟨nextKey, nextValue⟩ := next
    obtain ⟨bound, rfl⟩ : ∃ inner, bound = inner + 1 := ⟨bound - 1, by omega⟩
    rw [List.length_cons] at hbound
    rw [nestingOfMembers] at h
    have hstops := stops_laterMembers ((nextKey, nextValue) :: members) rest
    rw [memberBytes_append]
    by_cases hdeep : depth < value.nesting
    · exact readMembers_refuses (hvalue.deep hdeep _ hstops)
    · have htext := hvalue.shallow (by omega) _ hstops
      have hlater : ∀ name part, (name, part) ∈ (nextKey, nextValue) :: members →
          ReadsBack read depth part :=
        fun name part hpart => hread name part (List.mem_cons_of_mem _ hpart)
      rw [laterMembers_append] at htext ⊢
      rw [readMembers_more htext]
      exact ih hlater (by omega) (by omega) (hlater _ _ List.mem_cons_self)

theorem readObject_cons (read : List UInt8 → Step Json) (key : String) (value : Json)
    (members : List (String × Json)) (rest : List UInt8) :
    ∃ bound, members.length < bound ∧
      readObject read (0x22 :: (memberBytes key value ++ (laterMembers members ++ 0x7d :: rest))) =
        readMembers read [] bound
          (memberBytes key value ++ (laterMembers members ++ 0x7d :: rest)) := by
  refine ⟨(memberBytes key value ++ (laterMembers members ++ 0x7d :: rest)).length + 1, ?_, rfl⟩
  have : members.length ≤ (laterMembers members).length :=
    length_le_length_flatMap (fun _ => List.cons_ne_nil _ _) members
  rw [List.length_append, List.length_append]
  omega

/-! ## Values -/

theorem readValue_quote (depth : Nat) (rest : List UInt8) :
    readValue depth (0x22 :: rest) = (readString rest).map fun (s, rest) => (.string s, rest) := by
  rw [readValue]
  rfl

theorem readValue_bracket (inner : Nat) (rest : List UInt8) :
    readValue (inner + 1) (0x5b :: rest) = readArray (readValue inner) rest := rfl

theorem readValue_brace (inner : Nat) (rest : List UInt8) :
    readValue (inner + 1) (0x7b :: rest) = readObject (readValue inner) rest := rfl

/-- Scalars are not nested and read to the end of their text. -/
theorem readsBack_of_scalar (hnesting : value.nesting = 0)
    (h : ∀ rest, Stops rest →
      readValue depth (Utf8.encode value.compact ++ rest) = .ok (value, rest)) :
    ReadsBack (readValue depth) depth value where
  shallow _ rest hrest := h rest hrest
  deep hdeep := by omega

theorem readsBack_number {n : Int} (hn : Number.isMachineInteger n = true) :
    ReadsBack (readValue depth) depth (.number (.integer n)) := by
  refine readsBack_of_scalar rfl ?_
  intro rest hrest
  obtain ⟨negative, digits, hencode, ⟨c, more, rfl, hc⟩, hnumber⟩ := readNumber_format hn hrest
  rw [compact, hencode]
  cases negative with
  | true =>
    show readValue depth (byte '-' :: ((c :: more).map byte ++ rest)) = _
    rw [readValue, skipBlanks_cons (by decide)]
    show (readNumber true ((c :: more).map byte ++ rest)).map _ = _
    rw [hnumber]
    rfl
  | false =>
    have hrange := toNat_le_of_isDigit hc
    have hbyte := toNat_byte (c := c) (by omega)
    have hne {b : UInt8} (hb : b.toNat < 48 ∨ 57 < b.toNat) : byte c ≠ b := by
      rintro rfl
      omega
    show readValue depth (byte c :: (more.map byte ++ rest)) = _
    rw [readValue, skipBlanks_cons (isBlank_byte hc)]
    simp only
    rw [if_neg (hne (by decide)), if_neg (hne (by decide)), if_neg (hne (by decide)),
      if_neg (hne (by decide)), if_pos (isDigit_byte hc)]
    show (readNumber false ((c :: more).map byte ++ rest)).map _ = _
    rw [hnumber]
    rfl

theorem readsBack_string (s : String) : ReadsBack (readValue depth) depth (.string s) := by
  refine readsBack_of_scalar rfl ?_
  intro rest _
  rw [compact, encode_quote, List.cons_append, readValue_quote, readString_quotedBytes]
  rfl

/-- Arrays and objects are refused where nothing may be nested any more. -/
theorem readsBack_of_succ (hnesting : 0 < value.nesting)
    (hzero : ∀ rest, RefusesDepth (readValue 0 (Utf8.encode value.compact ++ rest)))
    (hsucc : ∀ inner, ReadsBack (readValue (inner + 1)) (inner + 1) value) (depth : Nat) :
    ReadsBack (readValue depth) depth value := by
  cases depth with
  | zero => exact ⟨fun h => absurd h (by omega), fun _ rest _ => hzero rest⟩
  | succ inner => exact hsucc inner

theorem readsBack_array_nil (depth : Nat) : ReadsBack (readValue depth) depth (.array []) := by
  have hencode : Utf8.encode (compact (.array [])) = [0x5b, 0x5d] := Utf8.encode_ofList ['[', ']']
  refine readsBack_of_succ (by decide) ?_ ?_ depth
  · intro rest
    rw [hencode]
    exact ⟨_, rfl, rfl⟩
  · intro inner
    constructor
    · intro _ rest _
      rw [hencode]
      rfl
    · intro h
      rw [nesting, nestingOfItems] at h
      omega

/-- An array is read back if its items are, one level further down. -/
theorem readsBack_array_cons {item : Json} {items : List Json}
    (hread : ∀ depth, ∀ part ∈ item :: items, ReadsBack (readValue depth) depth part)
    (hopens : ∀ part ∈ item :: items, Opens (Utf8.encode part.compact)) (depth : Nat) :
    ReadsBack (readValue depth) depth (.array (item :: items)) := by
  have hbytes (rest : List UInt8) : Utf8.encode (compact (.array (item :: items))) ++ rest =
      0x5b :: (Utf8.encode item.compact ++ (laterItems items ++ 0x5d :: rest)) := by
    rw [encode_array, List.cons_append, List.append_assoc, List.append_assoc]
    rfl
  have hlater : ∀ part ∈ items, Opens (Utf8.encode part.compact) :=
    fun part hpart => hopens part (List.mem_cons_of_mem item hpart)
  refine readsBack_of_succ (by rw [nesting]; omega) ?_ ?_ depth
  · intro rest
    rw [hbytes]
    exact ⟨_, rfl, rfl⟩
  · intro inner
    have hstep (rest : List UInt8) : ∃ bound, items.length < bound ∧
        readValue (inner + 1) (Utf8.encode (compact (.array (item :: items))) ++ rest) =
          readItems (readValue inner) [] bound
            (Utf8.encode item.compact ++ (laterItems items ++ 0x5d :: rest)) := by
      rw [hbytes, readValue_bracket]
      exact readArray_cons (readValue inner) items rest (hopens item List.mem_cons_self)
    constructor
    · intro h rest _
      rw [nesting] at h
      obtain ⟨bound, hbound, harray⟩ := hstep rest
      rw [harray]
      exact readItems_compact (hread inner) hlater hbound (by omega)
    · intro h rest _
      rw [nesting] at h
      obtain ⟨bound, hbound, harray⟩ := hstep rest
      rw [harray]
      exact readItems_of_deep (hread inner) hlater hbound (by omega)

theorem readsBack_object_nil (depth : Nat) : ReadsBack (readValue depth) depth (.object []) := by
  have hencode : Utf8.encode (compact (.object [])) = [0x7b, 0x7d] :=
    Utf8.encode_ofList ['\x7b', '\x7d']
  refine readsBack_of_succ (by decide) ?_ ?_ depth
  · intro rest
    rw [hencode]
    exact ⟨_, rfl, rfl⟩
  · intro inner
    constructor
    · intro _ rest _
      rw [hencode]
      rfl
    · intro h
      rw [nesting, nestingOfMembers] at h
      omega

/-- An object is read back if the values of its members are, one level further
down; its members are in key order, as the reader puts them. -/
theorem readsBack_object_cons {members : List (String × Json)}
    (hordered : Entries.Ordered ((key, value) :: members))
    (hread : ∀ depth name part, (name, part) ∈ (key, value) :: members →
      ReadsBack (readValue depth) depth part) (depth : Nat) :
    ReadsBack (readValue depth) depth (.object ((key, value) :: members)) := by
  have hbytes (rest : List UInt8) :
      Utf8.encode (compact (.object ((key, value) :: members))) ++ rest =
        0x7b :: 0x22 :: (memberBytes key value ++ (laterMembers members ++ 0x7d :: rest)) := by
    rw [encode_object, List.cons_append, List.cons_append, List.append_assoc, List.append_assoc]
    rfl
  refine readsBack_of_succ (by rw [nesting]; omega) ?_ ?_ depth
  · intro rest
    rw [hbytes]
    exact ⟨_, rfl, rfl⟩
  · intro inner
    have hstep (rest : List UInt8) : ∃ bound, members.length < bound ∧
        readValue (inner + 1) (Utf8.encode (compact (.object ((key, value) :: members))) ++ rest) =
          readMembers (readValue inner) [] bound
            (memberBytes key value ++ (laterMembers members ++ 0x7d :: rest)) := by
      rw [hbytes, readValue_brace]
      exact readObject_cons (readValue inner) key value members rest
    constructor
    · intro h rest _
      rw [nesting] at h
      obtain ⟨bound, hbound, hobject⟩ := hstep rest
      rw [hobject, readMembers_compact (hread inner) hbound (by omega), ofMembers,
        List.reverse_nil, List.nil_append, hordered.ofList_eq]
    · intro h rest _
      rw [nesting] at h
      obtain ⟨bound, hbound, hobject⟩ := hstep rest
      rw [hobject]
      exact readMembers_of_deep (hread inner) hbound (by omega)

/-- Any value is read back as far as it is not nested too deep. -/
theorem readsBack (value : Json) (hordered : value.Ordered) (hintegers : value.HoldsIntegers)
    (depth : Nat) : ReadsBack (readValue depth) depth value := by
  induction value using induction_size generalizing depth with
  | h value ih =>
    have hparts : everyBelow isMachineValue value = true := by
      have := hintegers
      rw [HoldsIntegers, everywhere_eq, Bool.and_eq_true] at this
      exact this.2
    cases value with
    | null =>
      refine readsBack_of_scalar rfl ?_
      intro rest _
      rw [show Utf8.encode (compact .null) = _ from Utf8.encode_ofList "null".toList, readValue]
      rfl
    | bool b =>
      refine readsBack_of_scalar rfl ?_
      intro rest _
      cases b with
      | false =>
        rw [show Utf8.encode (compact (.bool false)) = _ from Utf8.encode_ofList "false".toList, readValue]
        rfl
      | true =>
        rw [show Utf8.encode (compact (.bool true)) = _ from Utf8.encode_ofList "true".toList, readValue]
        rfl
    | number n =>
      cases n with
      | integer n => exact readsBack_number hintegers
      | double d => cases hintegers
    | string s => exact readsBack_string s
    | array items =>
      have hitem : ∀ item ∈ items, item.HoldsIntegers :=
        fun item hmem => everywhere_of_child hparts (.item hmem)
      have hread : ∀ depth, ∀ item ∈ items, ReadsBack (readValue depth) depth item :=
        fun depth item hmem => ih item (size_lt_of_mem_items hmem)
          (ordered_array.1 hordered item hmem) (hitem item hmem) depth
      cases items with
      | nil => exact readsBack_array_nil depth
      | cons item items =>
        exact readsBack_array_cons hread (fun part hmem => opens_compact (hitem part hmem)) depth
    | object members =>
      obtain ⟨hkeys, hvalues⟩ := ordered_object.1 hordered
      have hread : ∀ depth name part, (name, part) ∈ members →
          ReadsBack (readValue depth) depth part :=
        fun depth name part hmem => ih part (size_lt_of_mem_members hmem) (hvalues name part hmem)
          (everywhere_of_child hparts (.member hmem)) depth
      cases members with
      | nil => exact readsBack_object_nil depth
      | cons member members => exact readsBack_object_cons hkeys hread depth

end Reader

variable {value : Json}

/-- The text of a value is read as that value. -/
theorem read_compact (hordered : value.Ordered) (hintegers : value.HoldsIntegers)
    (h : value.nesting ≤ 127) : read (Utf8.encode value.compact) = .ok value := by
  have hvalue := (Reader.readsBack value hordered hintegers 127).shallow h [] Reader.stops_nil
  rw [List.append_nil] at hvalue
  rw [read, Reader.readText, hvalue]
  rfl

/-- The text of a value that is nested too deep is refused. -/
theorem read_compact_of_deep (hordered : value.Ordered) (hintegers : value.HoldsIntegers)
    (h : 127 < value.nesting) :
    ∃ error, read (Utf8.encode value.compact) = .error error ∧ error.cause = .tooDeep := by
  obtain ⟨fault, hfault, hcause⟩ :=
    (Reader.readsBack value hordered hintegers 127).deep h [] Reader.stops_nil
  rw [List.append_nil] at hfault
  rw [read, Reader.readText, hfault]
  exact ⟨_, rfl, hcause⟩

/-- What `read_compact` asks of a value, but for its nesting. -/
structure Writable (value : Json) : Prop where
  ordered : value.Ordered
  integers : value.HoldsIntegers

theorem writable_string (text : String) : Writable (.string text) := ⟨trivial, rfl⟩

theorem writable_integer {n : Int} (h : Number.isMachineInteger n = true) : Writable (.integer n) :=
  ⟨trivial, h⟩

theorem writable_object {members : Entries Json} (hkeys : Entries.Ordered members)
    (h : ∀ key value, (key, value) ∈ members → Writable value) : Writable (object members) where
  ordered := ordered_object.2 ⟨hkeys, fun key value hmem => (h key value hmem).ordered⟩
  integers := by
    rw [HoldsIntegers, everywhere_eq, everyBelow, everywhereMembers_eq_all]
    simp only [isMachineValue, Bool.true_and, List.all_eq_true]
    intro member hmem
    exact (h member.1 member.2 hmem).integers

/-- A text is read as the value that was written exactly if that is not nested too deep. -/
theorem read_compact_eq_ok_iff (h : value.Writable) :
    read (Utf8.encode value.compact) = .ok value ↔ value.nesting ≤ 127 := by
  refine ⟨fun hread => not_lt.1 fun hdeep => ?_, read_compact h.ordered h.integers⟩
  obtain ⟨error, herror, -⟩ := read_compact_of_deep h.ordered h.integers hdeep
  cases hread.symm.trans herror

end ApiContract.Json
