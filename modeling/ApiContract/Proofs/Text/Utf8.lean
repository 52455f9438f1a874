import ApiContract.Text.Utf8
import Mathlib.Data.List.Basic
/-!
# Reading what was written in UTF-8

The bytes of a text are the bytes of its characters one after the other
(`encode_ofList`).  A character is read back from its bytes, whatever follows
them (`head_encodeChar`), and so are all the characters of a text (`decodeFrom_flatMap`).
-/

namespace ApiContract.Utf8

/-! ## The bytes of a text -/

theorem toList_loop (bytes : ByteArray) (index : Nat) (done : List UInt8) :
    ByteArray.toList.loop bytes index done = done.reverse ++ bytes.data.toList.drop index := by
  fun_induction ByteArray.toList.loop bytes index done with
  | case1 index done hlt ih =>
    have hlt : index < bytes.data.toList.length := hlt
    have hget : bytes.get! index = bytes.data.toList[index] := by
      show bytes.data[index]! = bytes.data.toList[index]
      rw [getElem!_pos bytes.data index hlt, Array.getElem_toList]
    rw [ih, hget, List.reverse_cons, List.append_assoc, List.drop_eq_getElem_cons hlt]
    rfl
  | case2 index done hge =>
    have hge : bytes.data.toList.length ≤ index := Nat.le_of_not_lt hge
    rw [List.drop_eq_nil_of_le hge, List.append_nil]

theorem encode_ofList (chars : List Char) :
    encode (String.ofList chars) = chars.flatMap String.utf8EncodeChar := by
  show ByteArray.toList.loop _ 0 [] = _
  rw [toList_loop]
  simp [String.toByteArray_ofList, List.utf8Encode]

theorem encode_eq (text : String) : encode text = text.toList.flatMap String.utf8EncodeChar := by
  rw [← encode_ofList, String.ofList_toList]

theorem encode_append (text more : String) : encode (text ++ more) = encode text ++ encode more := by
  rw [encode_eq, encode_eq, encode_eq, String.toList_append, List.flatMap_append]

/-- Only an ASCII character has a byte below `0x80`. -/
theorem le_of_mem_encodeChar {c : Char} (h : 128 ≤ c.toNat) {b : UInt8}
    (hb : b ∈ String.utf8EncodeChar c) : 0x80 ≤ b.toNat := by
  have hlarge {n : Nat} (hlow : 128 ≤ n) (hhigh : n < 256) : 128 ≤ (UInt8.ofNat n).toNat := by
    rw [UInt8.toNat_ofNat']
    omega
  have h : 128 ≤ c.val.toNat := h
  unfold String.utf8EncodeChar at hb
  generalize c.val.toNat = code at h hb
  dsimp only at hb
  rw [if_neg (by omega)] at hb
  split at hb
  · simp only [List.mem_cons, List.not_mem_nil, or_false] at hb
    rcases hb with rfl | rfl <;> exact hlarge (by omega) (by omega)
  split at hb
  · simp only [List.mem_cons, List.not_mem_nil, or_false] at hb
    rcases hb with rfl | rfl | rfl <;> exact hlarge (by omega) (by omega)
  · simp only [List.mem_cons, List.not_mem_nil, or_false] at hb
    rcases hb with rfl | rfl | rfl | rfl <;> exact hlarge (by omega) (by omega)

/-! ## Reading a character back -/

/-- A byte that carries six bits is read if its range admits it. -/
theorem readTails_six {bits taken six : Nat} {low high : UInt8} {more : List (UInt8 × UInt8)}
    {rest : List UInt8} (hlow : low.toNat ≤ six % 64 + 128) (hhigh : six % 64 + 128 ≤ high.toNat) :
    readTails bits taken ((low, high) :: more) (UInt8.ofNat (six % 64 + 128) :: rest) =
      readTails (bits * 64 + six % 64) (taken + 1) more rest := by
  have hbyte : (UInt8.ofNat (six % 64 + 128)).toNat = six % 64 + 128 := by
    rw [UInt8.toNat_ofNat']
    omega
  have hrange : (decide (low ≤ UInt8.ofNat (six % 64 + 128)) &&
      decide (UInt8.ofNat (six % 64 + 128) ≤ high)) = true := by
    rw [Bool.and_eq_true, decide_eq_true_eq, decide_eq_true_eq, UInt8.le_iff_toNat_le,
      UInt8.le_iff_toNat_le, hbyte]
    exact ⟨hlow, hhigh⟩
  have hsix : (six % 64 + 128) % 64 = six % 64 := by omega
  rw [readTails, if_pos hrange, hbyte, hsix]

theorem toNat_lead (bits offset : Nat) (h : bits + offset < 256) :
    (UInt8.ofNat (bits + offset)).toNat = bits + offset := by
  rw [UInt8.toNat_ofNat']
  exact Nat.mod_eq_of_lt h

/-- The lead byte of two asks for one more. -/
theorem tails_two (code : Nat) (hlow : 0x80 ≤ code) (hhigh : code < 0x800) :
    tails (UInt8.ofNat (code / 64 % 32 + 192)) = some (code / 64, [(0x80, 0xbf)]) := by
  have hlead := toNat_lead (code / 64 % 32) 192 (by omega)
  unfold tails
  simp only [hlead]
  have hbits : code / 64 % 32 + 192 - 0xc0 = code / 64 := by omega
  rw [if_neg (by omega), if_neg (by omega), if_pos (by omega), hbits]

/-- The lead byte of three asks for two more, and excludes codes that two bytes
can say as well as surrogates. -/
theorem tails_three (code : Nat) (hlow : 0x800 ≤ code) (hhigh : code < 0x10000)
    (hvalid : code < 0xd800 ∨ 0xdfff < code) :
    ∃ low high : UInt8,
      tails (UInt8.ofNat (code / 4096 % 16 + 224)) =
        some (code / 4096, [(low, high), (0x80, 0xbf)]) ∧
      low.toNat ≤ code / 64 % 64 + 128 ∧ code / 64 % 64 + 128 ≤ high.toNat := by
  have hlead := toNat_lead (code / 4096 % 16) 224 (by omega)
  unfold tails
  simp only [hlead]
  rw [if_neg (by omega), if_neg (by omega), if_neg (by omega)]
  by_cases hfirst : code / 4096 = 0
  · refine ⟨0xa0, 0xbf, ?_, ?_, ?_⟩
    · rw [if_pos (by omega), hfirst]
    · show 0xa0 ≤ _
      omega
    · show _ ≤ 0xbf
      omega
  rw [if_neg (by omega)]
  by_cases hlast : code / 4096 = 13
  · refine ⟨0x80, 0x9f, ?_, ?_, ?_⟩
    · rw [if_pos (by omega), hlast]
    · show 0x80 ≤ _
      omega
    · show _ ≤ 0x9f
      omega
  refine ⟨0x80, 0xbf, ?_, ?_, ?_⟩
  · have hbits : code / 4096 % 16 + 224 - 0xe0 = code / 4096 := by omega
    rw [if_neg (by omega), if_pos (by omega), hbits]
  · show 0x80 ≤ _
    omega
  · show _ ≤ 0xbf
    omega

/-- The lead byte of four asks for three more, and excludes codes that three
bytes can say as well as those that are too large. -/
theorem tails_four (code : Nat) (hlow : 0x10000 ≤ code) (hhigh : code < 0x110000) :
    ∃ low high : UInt8,
      tails (UInt8.ofNat (code / 262144 % 8 + 240)) =
        some (code / 262144, [(low, high), (0x80, 0xbf), (0x80, 0xbf)]) ∧
      low.toNat ≤ code / 4096 % 64 + 128 ∧ code / 4096 % 64 + 128 ≤ high.toNat := by
  have hlead := toNat_lead (code / 262144 % 8) 240 (by omega)
  unfold tails
  simp only [hlead]
  rw [if_neg (by omega), if_neg (by omega), if_neg (by omega), if_neg (by omega),
    if_neg (by omega), if_neg (by omega)]
  by_cases hfirst : code / 262144 = 0
  · refine ⟨0x90, 0xbf, ?_, ?_, ?_⟩
    · rw [if_pos (by omega), hfirst]
    · show 0x90 ≤ _
      omega
    · show _ ≤ 0xbf
      omega
  rw [if_neg (by omega)]
  by_cases hlast : code / 262144 = 4
  · refine ⟨0x80, 0x8f, ?_, ?_, ?_⟩
    · rw [if_neg (by omega), if_pos (by omega), hlast]
    · show 0x80 ≤ _
      omega
    · show _ ≤ 0x8f
      omega
  refine ⟨0x80, 0xbf, ?_, ?_, ?_⟩
  · have hbits : code / 262144 % 8 + 240 - 0xf0 = code / 262144 := by omega
    rw [if_pos (by omega), hbits]
  · show 0x80 ≤ _
    omega
  · show _ ≤ 0xbf
    omega

/-- The bytes of a character are a lead byte and others, and the character is
read back from them. -/
theorem head_encodeChar (c : Char) : ∃ lead tail, String.utf8EncodeChar c = lead :: tail ∧
    ∀ rest, head lead (tail ++ rest) = (some c, tail.length) := by
  have hc : Char.ofNat c.val.toNat = c := Char.ofNat_toNat c
  have hvalid : c.val.toNat < 0xd800 ∨ 0xdfff < c.val.toNat ∧ c.val.toNat < 0x110000 := c.valid
  unfold String.utf8EncodeChar
  generalize c.val.toNat = code at hc hvalid
  by_cases hone : code ≤ 127
  · refine ⟨_, _, if_pos hone, ?_⟩
    intro rest
    have hlead := toNat_lead code 0 (by omega)
    rw [Nat.add_zero] at hlead
    have htails : tails (UInt8.ofNat code) = some (code, []) := by
      unfold tails
      simp only [hlead]
      rw [if_pos (by omega)]
    rw [head, htails]
    simp [readTails, hc]
  by_cases htwo : code ≤ 2047
  · refine ⟨_, _, (if_neg hone).trans (if_pos htwo), ?_⟩
    intro rest
    have hcode : code / 64 * 64 + code % 64 = code := by omega
    rw [head, tails_two _ (by omega) (by omega)]
    simp only [List.cons_append, List.nil_append]
    rw [readTails_six (by show 0x80 ≤ _; omega) (by show _ ≤ 0xbf; omega), readTails, hcode]
    simp [hc]
  by_cases hthree : code ≤ 65535
  · refine ⟨_, _, (if_neg hone).trans ((if_neg htwo).trans (if_pos hthree)), ?_⟩
    intro rest
    obtain ⟨low, high, htails, hlow, hhigh⟩ :=
      tails_three code (by omega) (by omega) (by omega)
    have hcode : (code / 4096 * 64 + code / 64 % 64) * 64 + code % 64 = code := by omega
    rw [head, htails]
    simp only [List.cons_append, List.nil_append]
    rw [readTails_six hlow hhigh,
      readTails_six (by show 0x80 ≤ _; omega) (by show _ ≤ 0xbf; omega), readTails, hcode]
    simp [hc]
  · refine ⟨_, _, (if_neg hone).trans ((if_neg htwo).trans (if_neg hthree)), ?_⟩
    intro rest
    obtain ⟨low, high, htails, hlow, hhigh⟩ := tails_four code (by omega) (by omega)
    have hcode : ((code / 262144 * 64 + code / 4096 % 64) * 64 + code / 64 % 64) * 64 + code % 64 =
        code := by omega
    rw [head, htails]
    simp only [List.cons_append, List.nil_append]
    rw [readTails_six hlow hhigh,
      readTails_six (by show 0x80 ≤ _; omega) (by show _ ≤ 0xbf; omega),
      readTails_six (by show 0x80 ≤ _; omega) (by show _ ≤ 0xbf; omega), readTails, hcode]
    simp [hc]

/-! ## Reading a text back -/

theorem decodeFrom_encodeChar (before : Nat) (done : List Char) (c : Char) (rest : List UInt8) :
    ∃ before', decodeFrom before done (String.utf8EncodeChar c ++ rest) =
      decodeFrom before' (c :: done) rest := by
  obtain ⟨lead, tail, hbytes, hhead⟩ := head_encodeChar c
  refine ⟨before + 1 + tail.length, ?_⟩
  rw [hbytes, List.cons_append, decodeFrom, hhead]
  simp

theorem decodeFrom_flatMap (before : Nat) (done chars : List Char) :
    decodeFrom before done (chars.flatMap String.utf8EncodeChar) =
      .ok (done.reverse ++ chars) := by
  induction chars generalizing before done with
  | nil => simp [decodeFrom]
  | cons c chars ih =>
    obtain ⟨before', hstep⟩ :=
      decodeFrom_encodeChar before done c (chars.flatMap String.utf8EncodeChar)
    rw [List.flatMap_cons, hstep, ih]
    simp

end ApiContract.Utf8
