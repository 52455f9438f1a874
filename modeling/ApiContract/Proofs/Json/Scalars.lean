import ApiContract.Json.Reader
import ApiContract.Json.Text
import ApiContract.Proofs.Text.Utf8
import Mathlib.Tactic.Common
/-!
# Reading scalars from compact text

An integer and a string are read back from their compact text
(`readNumber_format`, `readString_quotedBytes`).  What follows the text of a value
inside a larger one is a comma or a closing bracket (`Stops`), so a number
ends where its text does.

A string is read in runs: the characters up to the next one that is escaped,
then the escape.
-/

namespace ApiContract.Json.Reader

/-! ## Bytes -/

/-- The byte of an ASCII character is all that encodes it. -/
theorem encodeChar_ascii {c : Char} (h : c.toNat < 128) : String.utf8EncodeChar c = [byte c] := by
  have hle : c.val.toNat ≤ 127 := Nat.le_of_lt_succ h
  unfold String.utf8EncodeChar
  exact if_pos hle

theorem encode_ascii {chars : List Char} (h : ∀ c ∈ chars, c.toNat < 128) :
    chars.flatMap String.utf8EncodeChar = chars.map byte := by
  induction chars with
  | nil => rfl
  | cons c chars ih =>
    rw [List.flatMap_cons, encodeChar_ascii (h c List.mem_cons_self),
      ih fun d hd => h d (List.mem_cons_of_mem c hd), List.map_cons, List.singleton_append]

theorem toNat_byte {c : Char} (h : c.toNat < 128) : (byte c).toNat = c.toNat := by
  show c.toNat % 256 = c.toNat
  omega

/-- A text ends, or goes on as it does after a part of an array or object. -/
def Stops (rest : List UInt8) : Prop :=
  ∀ b more, rest = b :: more → b = 0x2c ∨ b = 0x5d ∨ b = 0x7d

theorem stops_nil : Stops [] := by
  intro b more h
  cases h

theorem stops_cons {b : UInt8} {more : List UInt8} (h : b = 0x2c ∨ b = 0x5d ∨ b = 0x7d) :
    Stops (b :: more) := by
  intro b' more' heq
  cases heq
  exact h

/-! ## Integers -/

theorem toNat_le_of_isDigit {c : Char} (h : c.isDigit = true) : 48 ≤ c.toNat ∧ c.toNat ≤ 57 := by
  rw [Char.isDigit, Bool.and_eq_true, decide_eq_true_eq, decide_eq_true_eq] at h
  exact h

theorem isDigit_byte {c : Char} (h : c.isDigit = true) : isDigit (byte c) = true := by
  have hrange := toNat_le_of_isDigit h
  have hbyte := toNat_byte (c := c) (by omega)
  rw [isDigit, Bool.and_eq_true, decide_eq_true_eq, decide_eq_true_eq, UInt8.le_iff_toNat_le,
    UInt8.le_iff_toNat_le, hbyte]
  exact hrange

theorem digitValue_byte {c : Char} (h : c.isDigit = true) :
    digitValue (byte c) = c.toNat - '0'.toNat := by
  have hrange := toNat_le_of_isDigit h
  rw [digitValue, toNat_byte (by omega)]
  rfl

theorem isDigit_of_stops {b : UInt8} {more : List UInt8} (h : Stops (b :: more)) :
    isDigit b = false := by
  rcases h b more rfl with rfl | rfl | rfl <;> rfl

/-- More digits make a larger number. -/
theorem le_ofDigitChars (init : Nat) (chars : List Char) : init ≤ Nat.ofDigitChars 10 chars init := by
  induction chars generalizing init with
  | nil => exact Nat.le_refl init
  | cons c chars ih =>
    rw [Nat.ofDigitChars_cons]
    have := ih (10 * init + (c.toNat - '0'.toNat))
    omega

theorem takeDigits_map {significand taken : Nat} {chars : List Char} {rest : List UInt8}
    (hdigits : ∀ c ∈ chars, c.isDigit = true)
    (hbound : Nat.ofDigitChars 10 chars significand < Nat.pow 2 64) (hrest : Stops rest) :
    takeDigits significand taken (chars.map byte ++ rest) =
      (Nat.ofDigitChars 10 chars significand, taken + chars.length, rest) := by
  induction chars generalizing significand taken with
  | nil =>
    cases rest with
    | nil => rfl
    | cons b more =>
      rw [List.map_nil, List.nil_append, takeDigits, isDigit_of_stops hrest]
      rfl
  | cons c chars ih =>
    have hc := hdigits c List.mem_cons_self
    rw [Nat.ofDigitChars_cons] at hbound ⊢
    have hvalue : significand * 10 + digitValue (byte c) =
        10 * significand + (c.toNat - '0'.toNat) := by
      rw [digitValue_byte hc, Nat.mul_comm]
    have hfits : significand * 10 + digitValue (byte c) < Nat.pow 2 64 := by
      rw [hvalue]
      exact Nat.lt_of_le_of_lt (le_ofDigitChars _ chars) hbound
    rw [List.map_cons, List.cons_append, takeDigits, isDigit_byte hc, Bool.true_and,
      if_pos (decide_eq_true hfits), hvalue,
      ih (fun d hd => hdigits d (List.mem_cons_of_mem c hd)) hbound, List.length_cons]
    congr 2
    omega

/-- The decimal digits of a number that is not zero do not start with a zero. -/
theorem toDigits_eq_cons {n : Nat} (h : n ≠ 0) :
    ∃ c chars, Nat.toDigits 10 n = c :: chars ∧ c.isDigit = true ∧ c ≠ '0' := by
  induction n using Nat.strongRecOn with
  | ind n ih =>
    by_cases hsmall : n < 10
    · have hdigit : ∀ d < 10, d ≠ 0 → d.digitChar.isDigit = true ∧ d.digitChar ≠ '0' := by decide
      exact ⟨n.digitChar, [], Nat.toDigits_of_lt_base hsmall, hdigit n hsmall h⟩
    · have hdiv : n / 10 ≠ 0 := by omega
      obtain ⟨c, chars, hchars, hc⟩ := ih (n / 10) (by omega) hdiv
      refine ⟨c, chars ++ [(n % 10).digitChar], ?_, hc⟩
      rw [Nat.toDigits_of_base_le (by omega) (by omega), hchars]
      rfl

theorem finishNumber_of_stops {negative : Bool} {significand : Nat} {rest : List UInt8}
    (h : Stops rest) :
    finishNumber negative significand rest = .ok (integerLiteral negative significand, rest) := by
  unfold finishNumber
  split
  · rcases h _ _ rfl with h | h | h <;> cases h
  · rcases h _ _ rfl with h | h | h <;> cases h
  · rcases h _ _ rfl with h | h | h <;> cases h
  · rfl

/-- A number is read from its digits. -/
theorem readNumber_digits {negative : Bool} {n : Nat} {rest : List UInt8} (hn : n < Nat.pow 2 64)
    (hrest : Stops rest) :
    readNumber negative ((Nat.toDigits 10 n).map byte ++ rest) =
      .ok (integerLiteral negative n, rest) := by
  by_cases hzero : n = 0
  · subst hzero
    cases rest with
    | nil => exact finishNumber_of_stops hrest
    | cons b more =>
      show (if isDigit b = true then failOnNext .invalidNumber (b :: more)
        else finishNumber negative 0 (b :: more)) = _
      rw [isDigit_of_stops hrest]
      exact finishNumber_of_stops hrest
  · obtain ⟨c, chars, hchars, hc, hne⟩ := toDigits_eq_cons hzero
    have hdigits : ∀ d ∈ chars, d.isDigit = true := by
      intro d hd
      refine Nat.isDigit_of_mem_toDigits (b := 10) (n := n) (by omega) (by omega) ?_
      rw [hchars]
      exact List.mem_cons_of_mem c hd
    have hvalue : Nat.ofDigitChars 10 chars (digitValue (byte c)) = n := by
      have hall : Nat.ofDigitChars 10 (Nat.toDigits 10 n) 0 = n := Nat.ofDigitChars_ten_toDigits
      rw [hchars, Nat.ofDigitChars_cons] at hall
      rw [digitValue_byte hc]
      simpa using hall
    have hbyte : byte c ≠ 0x30 := by
      intro heq
      have hrange := toNat_le_of_isDigit hc
      have hsame : c.toNat = '0'.toNat := by
        rw [← toNat_byte (c := c) (by omega), heq]
        rfl
      exact hne (Char.toNat_inj.1 hsame)
    have htake := @takeDigits_map _ 0 _ _ hdigits (by rw [hvalue]; exact hn) hrest
    have hmore : rest.takeWhile isDigit = [] := by
      cases rest with
      | nil => rfl
      | cons b more => rw [List.takeWhile_cons, isDigit_of_stops hrest]; rfl
    rw [hchars, List.map_cons, List.cons_append]
    unfold readNumber
    split
    · next heq => cases heq
    · next heq => exact absurd (List.cons.inj heq).1 hbyte
    · next heq =>
      cases heq
      rw [if_pos (isDigit_byte hc), htake, hvalue]
      show (if (rest.takeWhile isDigit).isEmpty then finishNumber negative n rest else _) = _
      rw [hmore]
      exact finishNumber_of_stops hrest

/-- An integer is read back from its text. -/
theorem readNumber_format {n : Int} (hn : Number.isMachineInteger n = true) {rest : List UInt8}
    (hrest : Stops rest) :
    ∃ negative digits, Utf8.encode (Number.integer n).format =
        (if negative then [byte '-'] else []) ++ digits.map byte ∧
      (∃ c more, digits = c :: more ∧ c.isDigit = true) ∧
      readNumber negative (digits.map byte ++ rest) = .ok (.integer n, rest) := by
  rw [Number.isMachineInteger, Bool.and_eq_true, decide_eq_true_eq, decide_eq_true_eq] at hn
  obtain ⟨hlow, hhigh⟩ := hn
  have hdigits (m : Nat) : ∃ c more, Nat.toDigits 10 m = c :: more ∧ c.isDigit = true := by
    by_cases hm : m = 0
    · exact ⟨'0', [], by rw [hm]; rfl, rfl⟩
    · obtain ⟨c, more, hmore, hc, -⟩ := toDigits_eq_cons hm
      exact ⟨c, more, hmore, hc⟩
  have hencode (m : Nat) : Utf8.encode m.repr = (Nat.toDigits 10 m).map byte := by
    rw [Nat.repr_eq_ofList_toDigits, Utf8.encode_ofList]
    refine encode_ascii ?_
    intro c hc
    have := toNat_le_of_isDigit (Nat.isDigit_of_mem_toDigits (by omega) (by omega) hc)
    omega
  cases n with
  | ofNat m =>
    have hm : m < Nat.pow 2 64 := Int.ofNat_lt.1 hhigh
    exact ⟨false, Nat.toDigits 10 m, hencode m, hdigits m, readNumber_digits hm hrest⟩
  | negSucc m =>
    have hm : m + 1 ≤ Nat.pow 2 63 := by
      have hneg : Int.negSucc m = -((m + 1 : Nat) : Int) := rfl
      rw [hneg] at hlow
      have : ((m + 1 : Nat) : Int) ≤ (Nat.pow 2 63 : Int) := by omega
      exact_mod_cast this
    have hpow : Nat.pow 2 63 < Nat.pow 2 64 := by decide
    refine ⟨true, Nat.toDigits 10 (m + 1), ?_, hdigits (m + 1), ?_⟩
    · show Utf8.encode ("-" ++ (m + 1).repr) = _
      rw [Utf8.encode_append, hencode, show Utf8.encode "-" = [byte '-'] from Utf8.encode_ofList ['-']]
      rfl
    · rw [readNumber_digits (by omega) hrest, integerLiteral, if_pos rfl, if_neg]
      · rfl
      · rw [Bool.or_eq_true, decide_eq_true_eq, decide_eq_true_eq]
        omega

/-! ## Strings -/

/-- Whether a character stands for itself inside a string. -/
def isPlain (c : Char) : Bool := c ≠ '"' && c ≠ '\\' && 0x20 ≤ c.toNat

theorem escapeChar_of_isPlain {c : Char} (h : isPlain c = true) : escapeChar c = [c] := by
  rw [isPlain, Bool.and_eq_true, Bool.and_eq_true, decide_eq_true_eq, decide_eq_true_eq,
    decide_eq_true_eq] at h
  obtain ⟨⟨hquote, hslash⟩, hlow⟩ := h
  have hne {d : Char} (hd : d.toNat < 0x20) : c ≠ d := by
    rintro rfl
    omega
  unfold escapeChar
  rw [if_neg hquote, if_neg hslash, if_neg (hne (by decide)), if_neg (hne (by decide)),
    if_neg (hne (by decide)), if_neg (hne (by decide)), if_neg (hne (by decide)),
    if_neg (by omega)]

/-- All bytes of a character that stands for itself do so, too. -/
theorem isOrdinary_of_mem {c : Char} (h : isPlain c = true) {b : UInt8}
    (hb : b ∈ String.utf8EncodeChar c) : isOrdinary b = true := by
  rw [isPlain, Bool.and_eq_true, Bool.and_eq_true, decide_eq_true_eq, decide_eq_true_eq,
    decide_eq_true_eq] at h
  obtain ⟨⟨hquote, hslash⟩, hlow⟩ := h
  have hordinary (hquote : b.toNat ≠ 0x22) (hslash : b.toNat ≠ 0x5c) (hlow : 0x20 ≤ b.toNat) :
      isOrdinary b = true := by
    rw [isOrdinary, Bool.and_eq_true, Bool.and_eq_true, decide_eq_true_eq, decide_eq_true_eq,
      decide_eq_true_eq, UInt8.le_iff_toNat_le]
    refine ⟨⟨?_, ?_⟩, hlow⟩
    · rintro rfl
      exact hquote rfl
    · rintro rfl
      exact hslash rfl
  by_cases hascii : c.toNat < 128
  · rw [encodeChar_ascii hascii, List.mem_singleton] at hb
    subst hb
    have hbyte := toNat_byte hascii
    refine hordinary ?_ ?_ ?_
    · intro heq
      exact hquote (Char.toNat_inj.1 (hbyte.symm.trans heq))
    · intro heq
      exact hslash (Char.toNat_inj.1 (hbyte.symm.trans heq))
    · rw [hbyte]
      exact hlow
  · have hlarge := Utf8.le_of_mem_encodeChar (by omega) hb
    exact hordinary (by omega) (by omega) (by omega)

/-- Four digits after `u` are read as a number. -/
theorem readHex_control {n : Nat} (h : n < 0x20) (rest : List UInt8) :
    readHex ((['0', '0'] ++ hexPair n).flatMap String.utf8EncodeChar ++ rest) = .ok (n, rest) := by
  have hdigits : ∀ m < 0x20,
      (m / 16).digitChar.toNat < 128 ∧ (m % 16).digitChar.toNat < 128 ∧
        hexValue? (byte (m / 16).digitChar) = some (m / 16) ∧
        hexValue? (byte (m % 16).digitChar) = some (m % 16) := by
    decide
  obtain ⟨hhigh, hlow, hfirst, hsecond⟩ := hdigits n h
  have hbytes : (['0', '0'] ++ hexPair n).flatMap String.utf8EncodeChar =
      [0x30, 0x30, byte (n / 16).digitChar, byte (n % 16).digitChar] := by
    refine encode_ascii ?_
    intro c hc
    simp only [hexPair, List.cons_append, List.nil_append, List.mem_cons, List.not_mem_nil,
      or_false] at hc
    rcases hc with rfl | rfl | rfl | rfl
    · decide
    · decide
    · exact hhigh
    · exact hlow
  have hzero : hexValue? 0x30 = some 0 := rfl
  rw [hbytes]
  simp only [List.cons_append, List.nil_append, readHex, hzero, hfirst, hsecond]
  congr 2
  omega

/-- A character that does not stand for itself is read back from its escape. -/
theorem readEscape_escapeChar {c : Char} (h : isPlain c = false) :
    ∃ more, escapeChar c = '\\' :: more ∧
      ∀ rest, readEscape (more.flatMap String.utf8EncodeChar ++ rest) = .ok (c, rest) := by
  unfold escapeChar
  split
  · next heq => exact ⟨_, rfl, fun rest => by rw [heq]; rfl⟩
  split
  · next heq => exact ⟨_, rfl, fun rest => by rw [heq]; rfl⟩
  split
  · next heq => exact ⟨_, rfl, fun rest => by rw [heq]; rfl⟩
  split
  · next heq => exact ⟨_, rfl, fun rest => by rw [heq]; rfl⟩
  split
  · next heq => exact ⟨_, rfl, fun rest => by rw [heq]; rfl⟩
  split
  · next heq => exact ⟨_, rfl, fun rest => by rw [heq]; rfl⟩
  split
  · next heq => exact ⟨_, rfl, fun rest => by rw [heq]; rfl⟩
  split
  · next hcontrol =>
    refine ⟨'u' :: (['0', '0'] ++ hexPair c.toNat), rfl, ?_⟩
    intro rest
    have hhex := readHex_control hcontrol rest
    rw [List.flatMap_cons, encodeChar_ascii (by decide), List.append_assoc]
    show readUnicodeEscape (_ ++ rest) = _
    rw [readUnicodeEscape, hhex]
    have hhigh : (decide (0xdc00 ≤ c.toNat) && decide (c.toNat ≤ 0xdfff)) = false := by
      rw [decide_eq_false (by omega), Bool.false_and]
    have hcode : (decide (c.toNat < 0xd800) || decide (0xdbff < c.toNat)) = true := by
      rw [decide_eq_true (by omega), Bool.true_or]
    simp only [hhigh, hcode, Char.ofNat_toNat]
    rfl
  · next hquote hslash _ _ _ _ _ hlow =>
    rw [isPlain, decide_eq_true hquote, decide_eq_true hslash,
      decide_eq_true (by omega : 0x20 ≤ c.toNat)] at h
    cases h

/-- A text is a run of characters that stand for themselves, and then ends or
goes on with one that does not. -/
theorem exists_run (chars : List Char) : ∃ run tail, chars = run ++ tail ∧
    (∀ c ∈ run, isPlain c = true) ∧ ∀ c more, tail = c :: more → isPlain c = false := by
  induction chars with
  | nil => exact ⟨[], [], rfl, by simp, by simp⟩
  | cons c chars ih =>
    by_cases hc : isPlain c = true
    · obtain ⟨run, tail, rfl, hrun, htail⟩ := ih
      exact ⟨c :: run, tail, rfl, List.forall_mem_cons.2 ⟨hc, hrun⟩, htail⟩
    · refine ⟨[], c :: chars, rfl, by simp, ?_⟩
      intro d more heq
      cases heq
      exact Bool.eq_false_iff.2 hc

/-- The bytes of a run are ordinary, and those that follow it are not. -/
theorem span_run {run : List Char} (hrun : ∀ c ∈ run, isPlain c = true) {b : UInt8}
    (hb : isOrdinary b = false) (more : List UInt8) :
    (run.flatMap String.utf8EncodeChar ++ b :: more).takeWhile isOrdinary =
        run.flatMap String.utf8EncodeChar ∧
      (run.flatMap String.utf8EncodeChar ++ b :: more).dropWhile isOrdinary = b :: more := by
  have hall : ∀ a ∈ run.flatMap String.utf8EncodeChar, isOrdinary a = true := by
    intro a ha
    obtain ⟨c, hc, ha⟩ := List.mem_flatMap.1 ha
    exact isOrdinary_of_mem (hrun c hc) ha
  constructor
  · rw [List.takeWhile_append_of_pos hall, List.takeWhile_cons, hb]
    simp
  · rw [List.dropWhile_append_of_pos hall, List.dropWhile_cons, hb]
    simp

/-- A string is read up to its closing quote, one run and one escape at a
time. -/
theorem readStringRest_escaped {chars done : List Char} {rest : List UInt8} {bound : Nat}
    (h : chars.length < bound) :
    readStringRest done none bound
        ((chars.flatMap escapeChar).flatMap String.utf8EncodeChar ++ 0x22 :: rest) =
      .ok (String.ofList (done.reverse ++ chars), rest) := by
  induction bound generalizing chars done with
  | zero => omega
  | succ bound ih =>
    obtain ⟨run, tail, rfl, hrun, htail⟩ := exists_run chars
    have hplain : run.flatMap escapeChar = run := by
      rw [List.flatMap_congr fun c hc => escapeChar_of_isPlain (hrun c hc)]
      exact List.flatMap_singleton' run
    rw [List.flatMap_append, List.flatMap_append, hplain, List.append_assoc, readStringRest]
    cases tail with
    | nil =>
      obtain ⟨htake, hdrop⟩ := span_run hrun (b := 0x22) rfl rest
      simp only [List.flatMap_nil, List.nil_append, htake, hdrop, Utf8.decodeFrom_flatMap]
      simp
    | cons c more =>
      obtain ⟨escape, hescape, hread⟩ := readEscape_escapeChar (htail c more rfl)
      have hbytes : ((c :: more).flatMap escapeChar).flatMap String.utf8EncodeChar ++ 0x22 :: rest =
          0x5c :: (escape.flatMap String.utf8EncodeChar ++
            ((more.flatMap escapeChar).flatMap String.utf8EncodeChar ++ 0x22 :: rest)) := by
        rw [List.flatMap_cons, hescape, List.cons_append, List.flatMap_cons, List.flatMap_append,
          List.append_assoc, List.append_assoc]
        rfl
      have hlength : more.length < bound := by
        rw [List.length_append, List.length_cons] at h
        omega
      have hnext := @ih _ (c :: (run.reverse ++ done)) hlength
      obtain ⟨htake, hdrop⟩ := span_run hrun (b := 0x5c) rfl (escape.flatMap String.utf8EncodeChar ++
        ((more.flatMap escapeChar).flatMap String.utf8EncodeChar ++ 0x22 :: rest))
      simp only [hbytes, htake, hdrop, Utf8.decodeFrom_flatMap, List.reverse_nil, List.nil_append,
        hread, hnext]
      simp

/-- The bytes of a string from behind its opening quote. -/
def quotedBytes (text : String) : List UInt8 :=
  (text.toList.flatMap escapeChar).flatMap String.utf8EncodeChar ++ [0x22]

theorem encode_quote (text : String) : Utf8.encode (quote text) = 0x22 :: quotedBytes text := by
  rw [quote, Utf8.encode_ofList, List.flatMap_cons, List.flatMap_append]
  rfl

theorem length_le_length_flatMap {α β : Type} {f : α → List β} (hf : ∀ a, f a ≠ []) (as : List α) :
    as.length ≤ (as.flatMap f).length := by
  induction as with
  | nil => exact Nat.le_refl 0
  | cons a as ih =>
    have := List.length_pos_iff.2 (hf a)
    rw [List.flatMap_cons, List.length_append, List.length_cons]
    omega

theorem escapeChar_ne_nil (c : Char) : escapeChar c ≠ [] := by
  cases hc : isPlain c with
  | true => simp [escapeChar_of_isPlain hc]
  | false =>
    obtain ⟨more, hmore, -⟩ := readEscape_escapeChar hc
    simp [hmore]

/-- A string is read back from its text. -/
theorem readString_quotedBytes (text : String) (rest : List UInt8) :
    readString (quotedBytes text ++ rest) = .ok (text, rest) := by
  have hlength : text.toList.length < (quotedBytes text ++ rest).length + 1 := by
    have hescaped := length_le_length_flatMap escapeChar_ne_nil text.toList
    have hbytes := length_le_length_flatMap (fun c => String.utf8EncodeChar_ne_nil (c := c))
      (text.toList.flatMap escapeChar)
    rw [quotedBytes, List.length_append, List.length_append]
    omega
  rw [readString, quotedBytes, List.append_assoc, List.singleton_append]
  rw [quotedBytes, List.append_assoc, List.singleton_append] at hlength
  rw [readStringRest_escaped hlength]
  simp

end ApiContract.Json.Reader
