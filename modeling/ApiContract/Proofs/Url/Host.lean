import ApiContract.Proofs.Outcome
import ApiContract.Proofs.Text.Utf8
import ApiContract.Url.Host
import Mathlib.Order.Nat
/-!
# Hosts have no blanks

A domain name is decoded, folded and written in ASCII before it is looked at.
An ASCII character that is neither a letter nor part of an escape comes through
all of this as it is, so a blank or a control character in the text of a host is
seen, and the host refused (`lt_of_readDomain`).
-/

namespace ApiContract

/-! ## UTF-8 -/

namespace Utf8

/-- Continuation bytes are no ASCII characters. -/
theorem le_of_mem_readTails {bits taken : Nat} {ranges : List (UInt8 × UInt8)} {rest : List UInt8}
    (hranges : ∀ range ∈ ranges, 0x80 ≤ range.1.toNat) {b : UInt8}
    (hb : b ∈ rest.take ((readTails bits taken ranges rest).2 - taken)) : 0x80 ≤ b.toNat := by
  fun_induction readTails bits taken ranges rest with
  | case1 bits taken rest =>
    rw [Nat.sub_self] at hb
    cases hb
  | case2 bits taken range more =>
    rw [Nat.sub_self] at hb
    cases hb
  | case3 bits taken low high more byte rest hfits ih =>
    cases hcount : (readTails (bits * 64 + byte.toNat % 64) (taken + 1) more rest).2 - taken with
    | zero =>
      rw [hcount] at hb
      cases hb
    | succ count =>
      rw [hcount, List.take_succ_cons, List.mem_cons] at hb
      rcases hb with rfl | hb
      · have hlow : low ≤ b := of_decide_eq_true (Bool.and_eq_true_iff.1 hfits).1
        exact (hranges (low, high) List.mem_cons_self).trans (UInt8.le_iff_toNat_le.1 hlow)
      · refine ih (fun range hrange => hranges range (List.mem_cons_of_mem _ hrange)) ?_
        rwa [show (readTails (bits * 64 + byte.toNat % 64) (taken + 1) more rest).2 - (taken + 1) =
          count by omega]
  | case4 bits taken low high more byte rest hfits =>
    rw [Nat.sub_self] at hb
    cases hb

/-- A lead byte is an ASCII character, or followed by bytes that are none. -/
theorem tails_eq_some {lead : UInt8} {bits : Nat} {ranges : List (UInt8 × UInt8)}
    (h : tails lead = some (bits, ranges)) :
    (bits = lead.toNat ∧ ranges = []) ∨
      0x80 ≤ lead.toNat ∧ ∀ range ∈ ranges, 0x80 ≤ range.1.toNat := by
  by_cases hlead : lead.toNat < 0x80
  · rw [tails, if_pos hlead] at h
    cases h
    exact .inl ⟨rfl, rfl⟩
  · refine .inr ⟨Nat.not_lt.1 hlead, ?_⟩
    simp only [tails] at h
    split_ifs at h
    all_goals
      obtain ⟨-, rfl⟩ := Prod.mk.inj (Option.some.inj h)
      simp

theorem mem_of_mem_done {before : Nat} {done chars : List Char} {bytes : List UInt8}
    (h : decodeFrom before done bytes = .ok chars) {c : Char} (hc : c ∈ done) : c ∈ chars := by
  fun_induction decodeFrom before done bytes with
  | case1 before done =>
    cases h
    exact List.mem_reverse.2 hc
  | case2 => cases h
  | case3 before done lead rest char taken hhead ih => exact ih h (List.mem_cons_of_mem _ hc)

/-- A byte that is an ASCII character is read as this character. -/
theorem mem_of_decodeFrom {before : Nat} {done chars : List Char} {bytes : List UInt8}
    (h : decodeFrom before done bytes = .ok chars) {b : UInt8} (hb : b ∈ bytes)
    (hascii : b.toNat < 0x80) : Char.ofNat b.toNat ∈ chars := by
  fun_induction decodeFrom before done bytes with
  | case1 => cases hb
  | case2 => cases h
  | case3 before done lead rest char taken hhead ih =>
    rw [head] at hhead
    cases htails : tails lead with
    | none =>
      rw [htails] at hhead
      cases hhead
    | some found =>
      obtain ⟨bits, ranges⟩ := found
      rw [htails] at hhead
      have htaken : (readTails bits 0 ranges rest).2 = taken := congrArg Prod.snd hhead
      rcases tails_eq_some htails with ⟨rfl, rfl⟩ | ⟨hlead, hranges⟩
      · obtain rfl : taken = 0 := htaken.symm
        obtain rfl : Char.ofNat lead.toNat = char := Option.some.inj (congrArg Prod.fst hhead)
        rcases List.mem_cons.1 hb with rfl | hb
        · exact mem_of_mem_done h List.mem_cons_self
        · exact ih h hb
      · rcases List.mem_cons.1 hb with rfl | hb
        · omega
        · rw [← List.take_append_drop taken rest, List.mem_append] at hb
          rcases hb with hb | hb
          · have hhigh := le_of_mem_readTails hranges (by rwa [Nat.sub_zero, htaken])
            omega
          · exact ih h hb

end Utf8

/-! ## Texts -/

/-- A blank or control character is before all that can be seen. -/
theorem not_le_of_blank {c d : Char} (h : c.toNat ≤ 0x20) (hd : 0x20 < d.toNat) :
    decide (d ≤ c) = false := by
  refine decide_eq_false fun hle => ?_
  have hnat : d.toNat ≤ c.toNat := hle
  omega

theorem Unicode.fold_of_le {c : Char} (h : c.toNat ≤ 0x20) : fold c = c := by
  rw [fold, if_pos (by omega), not_le_of_blank h (by decide)]
  rfl

namespace Ascii

theorem splitOn_ne_nil (separator : Char) (text : List Char) : splitOn separator text ≠ [] := by
  cases text with
  | nil => exact List.cons_ne_nil _ _
  | cons c text =>
    rw [splitOn, List.foldr_cons]
    split
    · exact List.cons_ne_nil _ _
    · split
      · exact List.cons_ne_nil _ _
      · exact List.cons_ne_nil _ _

theorem hexValue?_of_le {c : Char} (h : c.toNat ≤ 0x20) : hexValue? c = none := by
  rw [hexValue?, isDigit, not_le_of_blank h (by decide), not_le_of_blank h (by decide),
    not_le_of_blank h (by decide)]
  rfl

theorem exists_mem_splitOn {separator c : Char} (h : c ≠ separator) {text : List Char}
    (hc : c ∈ text) : ∃ part ∈ splitOn separator text, c ∈ part := by
  induction text with
  | nil => cases hc
  | cons d text ih =>
    rw [splitOn, List.foldr_cons, ← splitOn]
    cases hparts : splitOn separator text with
    | nil => exact absurd hparts (splitOn_ne_nil separator text)
    | cons part rest =>
      rw [hparts] at ih
      split
      · next heq =>
        rcases List.mem_cons.1 hc with rfl | hc
        · exact absurd heq h
        · obtain ⟨found, hfound, hmem⟩ := ih hc
          exact ⟨found, List.mem_cons_of_mem _ hfound, hmem⟩
      · rcases List.mem_cons.1 hc with rfl | hc
        · exact ⟨_, List.mem_cons_self, List.mem_cons_self⟩
        · obtain ⟨found, hfound, hmem⟩ := ih hc
          rcases List.mem_cons.1 hfound with rfl | hfound
          · exact ⟨_, List.mem_cons_self, List.mem_cons_of_mem _ hmem⟩
          · exact ⟨found, List.mem_cons_of_mem _ hfound, hmem⟩

end Ascii

namespace Network.DomainName

/-- ASCII characters stay in a label. -/
theorem mem_of_labelToAscii {label ascii : List Char} (h : labelToAscii? label = some ascii)
    {c : Char} (hc : c ∈ label) (hascii : c.toNat < 0x80) : c ∈ ascii := by
  unfold labelToAscii? at h
  split at h
  · next code =>
    obtain ⟨text, -, h⟩ := Option.bind_eq_some_iff.1 h
    split_ifs at h
    cases h
    exact hc
  · split_ifs at h
    · cases h
      exact hc
    · cases h
      refine List.mem_append_right _ ?_
      have hbasic : c ∈ label.filter (·.toNat < 0x80) :=
        List.mem_filter.2 ⟨hc, decide_eq_true hascii⟩
      have hsome : (label.filter (·.toNat < 0x80)).isEmpty = false :=
        List.isEmpty_eq_false_iff_exists_mem.2 ⟨c, hbasic⟩
      simp only [Punycode.encode, hsome]
      exact List.mem_append_left _ (List.mem_append_left _ hbasic)

theorem exists_mem_of_labelsToAscii {text : List Char} {labels : List (List Char)}
    (h : labelsToAscii? text = some labels) {c : Char} (hc : c ∈ text) (hblank : c.toNat ≤ 0x20) :
    ∃ label ∈ labels, c ∈ label := by
  obtain ⟨mapped, hmapped, h⟩ := Option.bind_eq_some_iff.1 h
  obtain ⟨folded, hfolded, hchar⟩ := exists_mem_of_mapM_eq_some hmapped hc
  rw [mapChar, if_pos (by omega), Unicode.fold_of_le hblank] at hchar
  cases hchar
  have hflat : c ∈ mapped.flatten := List.mem_flatten.2 ⟨[c], hfolded, List.mem_singleton_self c⟩
  have hstop : c ≠ '.' := by
    rintro rfl
    exact absurd hblank (by decide)
  obtain ⟨part, hpart, hmem⟩ := Ascii.exists_mem_splitOn hstop hflat
  obtain ⟨label, hlabel, hascii⟩ := exists_mem_of_mapM_eq_some h hpart
  exact ⟨label, hlabel, mem_of_labelToAscii hascii hmem (by omega)⟩

end Network.DomainName

namespace Url

open Ascii Network

theorem mem_decode {text : List Char} {c : Char} (hc : c ∈ text) (hblank : c.toNat ≤ 0x20) :
    c.toNat.toUInt8 ∈ decode text := by
  have hencoded (d : Char) (h : d.toNat ≤ 0x20) :
      d.toNat.toUInt8 ∈ Utf8.encode (String.singleton d) := by
    rw [Utf8.encode_eq, String.toList_singleton, List.flatMap_singleton, String.utf8EncodeChar,
      if_pos (show d.val.toNat ≤ 127 from h.trans (by decide))]
    exact List.mem_singleton_self _
  fun_induction decode text with
  | case1 => cases hc
  | case2 a b rest low high hhigh hlow ih =>
    have hhex (d : Char) (value : Nat) (hd : hexValue? d = some value) : c ≠ d := by
      rintro rfl
      rw [hexValue?_of_le hblank] at hd
      cases hd
    rcases List.mem_cons.1 hc with rfl | hc
    · exact absurd hblank (by decide)
    · rcases List.mem_cons.1 hc with rfl | hc
      · exact absurd rfl (hhex c _ ‹_›)
      · rcases List.mem_cons.1 hc with rfl | hc
        · exact absurd rfl (hhex c _ ‹_›)
        · exact List.mem_cons_of_mem _ (ih hc)
  | case3 a b rest hnone ih =>
    rcases List.mem_cons.1 hc with rfl | hc
    · exact absurd hblank (by decide)
    · exact List.mem_cons_of_mem _ (ih hc)
  | case4 d rest hnot ih =>
    rcases List.mem_cons.1 hc with rfl | hc
    · exact List.mem_append_left _ (hencoded c hblank)
    · exact List.mem_append_right _ (ih hc)

theorem mem_intersperse {α : Type} {separator a : α} {list : List α} (h : a ∈ list) :
    a ∈ list.intersperse separator := by
  induction list with
  | nil => cases h
  | cons first rest ih =>
    cases rest with
    | nil => exact h
    | cons next rest =>
      rcases List.mem_cons.1 h with rfl | h
      · exact List.mem_cons_self
      · exact List.mem_cons_of_mem _ (List.mem_cons_of_mem _ (ih h))

theorem isDenied_of_le {c : Char} (h : c.toNat ≤ 0x20) : isDenied c = true := by
  rw [isDenied, isControl, Bool.or_eq_true, Bool.or_eq_true]
  by_cases hcontrol : c.toNat < 0x20
  · exact .inl (.inl (decide_eq_true hcontrol))
  · have hspace : c = ' ' := by
      have hnat : c.toNat = ' '.toNat := Nat.le_antisymm h (Nat.not_lt.1 hcontrol)
      rw [← Char.ofNat_toNat c, hnat, Char.ofNat_toNat]
    rw [hspace]
    exact .inr rfl

/-- No domain name has a blank or a control character. -/
theorem lt_of_mem_of_domainOf {text name : List Char} (h : domainOf? text = some name) {c : Char}
    (hc : c ∈ text) : 0x20 < c.toNat := by
  by_contra hblank
  have hblank : c.toNat ≤ 0x20 := Nat.not_lt.1 hblank
  obtain ⟨decoded, hdecoded, hlabels⟩ := Option.bind_eq_some_iff.1 h
  obtain ⟨labels, hlabels, hname⟩ := Option.bind_eq_some_iff.1 hlabels
  obtain ⟨chars, hchars, rfl⟩ := Option.map_eq_some_iff.1 hdecoded
  have hread : Utf8.decodeFrom 0 [] (decode text) = .ok chars := by
    cases hresult : Utf8.decodeFrom 0 [] (decode text) with
    | error count =>
      rw [hresult] at hchars
      cases hchars
    | ok result =>
      rw [hresult] at hchars
      cases hchars
      rfl
  have hbyte : c.toNat.toUInt8.toNat = c.toNat := by
    rw [UInt8.toNat_ofNat']
    exact Nat.mod_eq_of_lt (by omega)
  have hchar : c ∈ chars := by
    have hmem := Utf8.mem_of_decodeFrom hread (mem_decode hc hblank) (by omega)
    rwa [hbyte, Char.ofNat_toNat] at hmem
  obtain ⟨label, hlabel, hmem⟩ := DomainName.exists_mem_of_labelsToAscii hlabels
    (by rwa [String.toList_ofList]) hblank
  have hseen : (labels.intersperse ['.']).flatten.any isDenied = true :=
    List.any_eq_true.2 ⟨c, List.mem_flatten.2 ⟨label, mem_intersperse hlabel, hmem⟩,
      isDenied_of_le hblank⟩
  simp only [hseen, if_true] at hname
  cases hname

/-- A host that could be read has no blank unless it is in brackets, and then it
does not end in one. -/
theorem lt_of_readDomain {text : List Char} {host : Host} (h : readDomain text = .ok host) {c : Char}
    (hc : text.getLast? = some c) : 0x20 < c.toNat := by
  unfold readDomain at h
  split at h
  · next rest =>
    rw [readBracketed] at h
    split_ifs at h with hclosed
    cases rest with
    | nil => cases hclosed
    | cons d rest =>
      rw [List.getLast?_cons_cons, hclosed] at hc
      cases hc
      decide
  · split at h
    · cases h
    · cases h
    · next name hname => exact lt_of_mem_of_domainOf hname (List.mem_of_getLast? hc)

end Url

end ApiContract
