import ApiContract.Proofs.Outcome
import ApiContract.Proofs.Url.Host
import ApiContract.Url.Reader
import Mathlib.Data.List.DropRight
/-!
# What follows an authority

A URL of a special scheme is read from the front, and the text of its authority
ends at the first delimiter.  What is put behind a text whose URL could be read
leaves scheme and authority as they are, as long as it begins with a delimiter
(`authority_of_append`).  Blanks are dropped at the end of a whole URL only; an
authority that could be read does not end in one (`last_of_readAuthority`).
-/

namespace ApiContract.Url

open Ascii

/-! ## Lists without their ends -/

section Lists

variable {α : Type} {p q : α → Bool}

theorem filter_dropWhile (h : ∀ a, q a = false → p a = true) (l : List α) :
    (l.dropWhile p).filter q = (l.filter q).dropWhile p := by
  induction l with
  | nil => rfl
  | cons a l ih =>
    cases hp : p a with
    | true =>
      rw [List.dropWhile_cons_of_pos hp, ih]
      cases hq : q a with
      | true => rw [List.filter_cons_of_pos hq, List.dropWhile_cons_of_pos hp]
      | false => rw [List.filter_cons_of_neg (by rw [hq]; exact Bool.false_ne_true)]
    | false =>
      have hq : q a = true := by
        by_contra hq
        rw [h a (Bool.eq_false_iff.2 hq)] at hp
        cases hp
      rw [List.dropWhile_cons_of_neg (by rw [hp]; exact Bool.false_ne_true),
        List.filter_cons_of_pos hq, List.dropWhile_cons_of_neg (by rw [hp]; exact Bool.false_ne_true)]

/-- The first element that stays, and what is before it. -/
theorem exists_of_dropWhile_ne_nil {l : List α} (h : l.dropWhile p ≠ []) :
    ∃ front a rest, (∀ b ∈ front, p b = true) ∧ p a = false ∧ l = front ++ a :: rest ∧
      l.dropWhile p = a :: rest := by
  obtain ⟨a, rest, hrest⟩ := List.exists_cons_of_ne_nil h
  refine ⟨l.takeWhile p, a, rest, fun b => List.mem_takeWhile_imp, ?_, ?_, hrest⟩
  · have hhead := List.head_dropWhile_not p h
    simp only [hrest, List.head_cons] at hhead
    exact hhead
  · rw [← hrest, List.takeWhile_append_dropWhile]

/-- What stands before an element that stays is kept. -/
theorem rdropWhile_append_cons {a : α} (ha : p a = false) (l m : List α) :
    (l ++ a :: m).rdropWhile p = l ++ a :: m.rdropWhile p := by
  induction m using List.reverseRecOn with
  | nil => exact List.rdropWhile_concat_neg p l a (by rw [ha]; exact Bool.false_ne_true)
  | append_singleton m b ih =>
    rw [← List.cons_append, ← List.append_assoc, List.rdropWhile_concat, List.rdropWhile_concat, ih]
    split
    · rfl
    · rw [List.append_assoc, List.cons_append]

theorem rdropWhile_append {l : List α} (hl : ∀ a ∈ l, p a = false) (m : List α) :
    (l ++ m).rdropWhile p = l ++ m.rdropWhile p := by
  rcases l.eq_nil_or_concat' with rfl | ⟨front, last, rfl⟩
  · rfl
  · have hlast := rdropWhile_append_cons (hl last List.mem_concat_self) front m
    rw [List.append_assoc, List.append_assoc]
    exact hlast

end Lists

/-! ## What counts -/

/-- Whether a character is dropped at the ends of a URL. -/
def isOuter (c : Char) : Bool := c.toNat ≤ 0x20

/-- Whether a character is not dropped anywhere. -/
def isKept (c : Char) : Bool := c ≠ '\t' && c ≠ '\n' && c ≠ '\r'

theorem isOuter_of_not_isKept (c : Char) (h : isKept c = false) : isOuter c = true := by
  have hdropped : c = '\t' ∨ c = '\n' ∨ c = '\r' := by
    by_contra hkept
    rw [not_or, not_or] at hkept
    rw [isKept, decide_eq_true hkept.1, decide_eq_true hkept.2.1, decide_eq_true hkept.2.2] at h
    cases h
  rcases hdropped with rfl | rfl | rfl
  · rfl
  · rfl
  · rfl

theorem isOuter_of_isDigit {c : Char} (h : isDigit c = true) : isOuter c = false := by
  have hlow : '0'.toNat ≤ c.toNat := of_decide_eq_true (Bool.and_eq_true_iff.1 h).1
  have hzero : '0'.toNat = 0x30 := rfl
  exact decide_eq_false (by omega)

theorem significant_eq (text : String) :
    significant text = ((text.toList.filter isKept).dropWhile isOuter).rdropWhile isOuter := by
  rw [List.rdropWhile, ← filter_dropWhile isOuter_of_not_isKept, ← List.filter_reverse,
    ← filter_dropWhile isOuter_of_not_isKept, ← List.filter_reverse]
  rfl

/-! ## Schemes -/

theorem readScheme?_eq_some {text scheme rest : List Char} :
    readScheme? text = some (scheme, rest) ↔
      ∃ written, text = written ++ ':' :: rest ∧ (∀ c ∈ written, isSchemeChar c = true) ∧
        text.head?.any isLetter = true ∧ scheme = written.map Char.toLower := by
  constructor
  · intro h
    unfold readScheme? at h
    split at h
    · next rest' hdrop =>
      split_ifs at h with hhead
      cases h
      refine ⟨text.takeWhile isSchemeChar, ?_, fun c => List.mem_takeWhile_imp, hhead, rfl⟩
      rw [← hdrop, List.takeWhile_append_dropWhile]
    · cases h
  · rintro ⟨written, rfl, hwritten, hhead, rfl⟩
    have hcolon : isSchemeChar ':' = false := by decide
    have htake : (written ++ ':' :: rest).takeWhile isSchemeChar = written := by
      rw [List.takeWhile_append_of_pos hwritten, List.takeWhile_cons_of_neg (by rw [hcolon]; exact Bool.false_ne_true),
        List.append_nil]
    have hdrop : (written ++ ':' :: rest).dropWhile isSchemeChar = ':' :: rest := by
      rw [List.dropWhile_append_of_pos hwritten, List.dropWhile_cons_of_neg (by rw [hcolon]; exact Bool.false_ne_true)]
    rw [readScheme?, hdrop, htake]
    exact if_pos hhead

/-! ## Authorities -/

/-- The text of an authority: what stands before the first delimiter. -/
def authorityText (text : List Char) : List Char :=
  text.takeWhile fun c => !endsAuthority .web c

/-- The authority that a text is. -/
def authorityOf (scheme written : List Char) : Except UrlFault Authority := do
  let (user, hostPort) := splitUser written
  let (user, password) := readUser (user.getD [])
  let (hostText, after) := splitHost false hostPort
  let host ← readHost .web hostText
  match after with
  | ':' :: portText => return ⟨user, password, host, ← readPort scheme portText⟩
  | _ => return ⟨user, password, host, none⟩

/-- What is read of an authority depends on its text alone. -/
theorem authorityOf_of_readAuthority {scheme text rest : List Char} {authority : Authority}
    (h : readAuthority scheme .web text = .ok (authority, rest)) :
    authorityOf scheme (authorityText text) = .ok authority := by
  unfold readAuthority at h
  unfold authorityOf authorityText
  simp only [bind, Except.bind] at h ⊢
  split_ifs at h
  split at h
  · cases h
  · next host hhost =>
    split
    · next portText hafter =>
      simp only [hafter] at h
      split_ifs at h
      split at h
      · cases h
      · cases h
        rfl
    · next hafter =>
      split at h
      · next portText heq => exact absurd heq (hafter portText)
      · split_ifs at h
        cases h
        rfl

theorem suffix_splitUser (written : List Char) : (splitUser written).2 <:+ written := by
  rw [splitUser]
  split
  · rw [← List.reverse_prefix, List.reverse_reverse]
    exact List.takeWhile_prefix _
  · exact List.suffix_rfl

theorem splitHost_append (bracketed : Bool) (text : List Char) :
    (splitHost bracketed text).1 ++ (splitHost bracketed text).2 = text := by
  induction text generalizing bracketed with
  | nil => rfl
  | cons c text ih =>
    rw [splitHost]
    split
    · rfl
    · exact congrArg (c :: ·) (ih _)

theorem splitHost_snd (bracketed : Bool) (text : List Char) :
    (splitHost bracketed text).2 = [] ∨ ∃ portText, (splitHost bracketed text).2 = ':' :: portText := by
  induction text generalizing bracketed with
  | nil => exact .inl rfl
  | cons c text ih =>
    rw [splitHost]
    split
    · next hcolon =>
      rw [Bool.and_eq_true, decide_eq_true_eq] at hcolon
      exact .inr ⟨text, by rw [hcolon.1]⟩
    · exact ih _

/-- A port that could be read has digits only, unless a backslash ends it. -/
theorem isDigit_of_readPort {scheme text : List Char} {port : Option Nat}
    (h : readPort scheme text = .ok port) (hslash : '\\' ∉ text) : ∀ c ∈ text, isDigit c = true := by
  unfold readPort at h
  split at h
  · next c rest hdrop =>
    split_ifs at h with hc
    refine absurd ?_ hslash
    rw [← hc, ← List.takeWhile_append_dropWhile (p := isDigit) (l := text), hdrop]
    exact List.mem_append_right _ List.mem_cons_self
  · next hdrop => exact List.dropWhile_eq_nil_iff.1 hdrop

/-- An authority that could be read does not end in a blank. -/
theorem last_of_authorityOf {scheme written : List Char} {authority : Authority}
    (h : authorityOf scheme written = .ok authority) (hslash : '\\' ∉ written) :
    ∃ c, written.getLast? = some c ∧ isOuter c = false := by
  obtain ⟨front, hfront⟩ := suffix_splitUser written
  have hparts := splitHost_append false (splitUser written).2
  have hlater := splitHost_snd false (splitUser written).2
  unfold authorityOf at h
  simp only [bind, Except.bind] at h
  generalize splitHost false (splitUser written).2 = parts at hparts hlater h
  obtain ⟨hostText, after⟩ := parts
  split at h
  · cases h
  · next host hhost =>
    rw [← hfront, ← hparts]
    have hread : hostText ≠ [] ∧ readDomain hostText = .ok host := by
      rw [readHost, if_pos (by decide)] at hhost
      split_ifs at hhost with hempty
      exact ⟨fun hnil => hempty (by rw [hnil]; rfl), hhost⟩
    rcases hlater with hafter | ⟨portText, hafter⟩
    · obtain rfl : after = [] := hafter
      obtain ⟨c, hc⟩ := List.getLast?_isSome.2 hread.1 |> Option.isSome_iff_exists.1
      refine ⟨c, ?_, decide_eq_false (Nat.not_le.2 (lt_of_readDomain hread.2 hc))⟩
      rw [List.getLast?_append, List.getLast?_append, List.getLast?_nil, Option.none_or, hc]
      rfl
    · obtain rfl : after = ':' :: portText := hafter
      have hdigits : ∀ c ∈ portText, isDigit c = true := by
        have hnone : '\\' ∉ portText := by
          intro hmem
          rw [← hfront, ← hparts] at hslash
          exact hslash (List.mem_append_right _ (List.mem_append_right _ (List.mem_cons_of_mem _ hmem)))
        simp only at h
        split at h
        · cases h
        · next port hport => exact isDigit_of_readPort hport hnone
      obtain ⟨c, hc⟩ := Option.isSome_iff_exists.1
        (List.getLast?_isSome.2 (List.cons_ne_nil ':' portText))
      refine ⟨c, ?_, ?_⟩
      · rw [List.getLast?_append, List.getLast?_append, hc]
        rfl
      · rcases List.mem_cons.1 (List.mem_of_getLast? hc) with rfl | hmem
        · rfl
        · exact isOuter_of_isDigit (hdigits c hmem)

/-! ## Texts that go on -/

/-- A text that goes on where an authority ends: there is none, or it begins with a
delimiter. -/
def GoesOn (text : List Char) : Prop := ∀ c ∈ text.head?, endsAuthority .web c = true

theorem eq_of_isSlash {c : Char} (h : isSlash .web c = true) : c = '/' ∨ c = '\\' := by
  rw [isSlash, Bool.or_eq_true, decide_eq_true_eq, Bool.and_eq_true, decide_eq_true_eq] at h
  exact h.imp_right And.right

theorem isOuter_of_isSlash {c : Char} (h : isSlash .web c = true) : isOuter c = false := by
  rcases eq_of_isSlash h with rfl | rfl
  · rfl
  · rfl

theorem isOuter_of_endsAuthority {c : Char} (h : endsAuthority .web c = true) :
    isOuter c = false := by
  rw [endsAuthority, Bool.or_eq_true, Bool.or_eq_true, decide_eq_true_eq, decide_eq_true_eq] at h
  rcases h with (h | rfl) | rfl
  · exact isOuter_of_isSlash h
  · rfl
  · rfl

theorem authorityText_cons {front : List Char} (hfront : ∀ c ∈ front, endsAuthority .web c = false)
    {c : Char} (hc : endsAuthority .web c = true) (rest : List Char) :
    authorityText (front ++ c :: rest) = front := by
  rw [authorityText, List.takeWhile_append_of_pos fun d hd => by rw [hfront d hd]; rfl,
    List.takeWhile_cons_of_neg (by rw [hc]; exact Bool.false_ne_true), List.append_nil]

theorem authorityText_eq_self {text : List Char} (h : ∀ c ∈ text, endsAuthority .web c = false) :
    authorityText text = text :=
  List.takeWhile_eq_self_iff.2 fun c hc => by rw [h c hc]; rfl

/-- An authority ends where it ended, whatever comes after it. -/
theorem authorityText_append {scheme text more : List Char} {authority : Authority}
    (h : authorityOf scheme (authorityText ((text ++ more).rdropWhile isOuter)) = .ok authority)
    (hmore : GoesOn more) :
    authorityText ((text ++ more).rdropWhile isOuter) = authorityText (text.rdropWhile isOuter) := by
  by_cases hends : ∃ c ∈ text, endsAuthority .web c = true
  · -- The text has its delimiter itself, and what stands behind it does not matter.
    obtain ⟨front, c, rest, hc, hfront, rfl⟩ : ∃ front c rest, endsAuthority .web c = true ∧
        (∀ d ∈ front, endsAuthority .web d = false) ∧ text = front ++ c :: rest := by
      have hne : text.dropWhile (fun c => !endsAuthority .web c) ≠ [] := by
        obtain ⟨c, hmem, hc⟩ := hends
        intro hnil
        have hdropped := List.dropWhile_eq_nil_iff.1 hnil c hmem
        rw [hc] at hdropped
        cases hdropped
      obtain ⟨front, c, rest, hfront, hc, htext, -⟩ := exists_of_dropWhile_ne_nil hne
      exact ⟨front, c, rest, Bool.not_eq_eq_eq_not.1 hc,
        fun d hd => Bool.not_eq_eq_eq_not.1 (hfront d hd), htext⟩
    rw [List.append_assoc, List.cons_append, rdropWhile_append_cons (isOuter_of_endsAuthority hc),
      rdropWhile_append_cons (isOuter_of_endsAuthority hc), authorityText_cons hfront hc,
      authorityText_cons hfront hc]
  · have hnone : ∀ c ∈ text, endsAuthority .web c = false := by
      intro c hc
      by_contra hsome
      exact hends ⟨c, hc, Bool.not_eq_false _ ▸ hsome⟩
    cases more with
    | nil => rw [List.append_nil]
    | cons c rest =>
      have hc : endsAuthority .web c = true := hmore c rfl
      rw [rdropWhile_append_cons (isOuter_of_endsAuthority hc), authorityText_cons hnone hc] at h ⊢
      obtain ⟨last, hlast, houter⟩ := last_of_authorityOf h fun hslash =>
        absurd (hnone _ hslash) (by decide)
      have hself : text.rdropWhile isOuter = text := by
        rw [List.rdropWhile_eq_self_iff]
        intro hne
        rw [List.getLast?_eq_getLast_of_ne_nil hne, Option.some.injEq] at hlast
        rw [hlast, houter]
        exact Bool.false_ne_true
      rw [hself, authorityText_eq_self hnone]

theorem dropSlashes_rdropWhile {text more : List Char} (h : text.dropWhile (isSlash .web) ≠ []) :
    ((text ++ more).rdropWhile isOuter).dropWhile (isSlash .web) =
      (text.dropWhile (isSlash .web) ++ more).rdropWhile isOuter := by
  obtain ⟨front, c, rest, hfront, hc, htext, hdrop⟩ := exists_of_dropWhile_ne_nil h
  rw [hdrop, htext, List.append_assoc,
    rdropWhile_append fun d hd => isOuter_of_isSlash (hfront d hd),
    List.dropWhile_append_of_pos hfront]
  cases hkept : (c :: rest ++ more).rdropWhile isOuter with
  | nil => rfl
  | cons d kept =>
    have hstart := List.rdropWhile_prefix isOuter (c :: rest ++ more)
    rw [hkept, List.cons_append, List.cons_prefix_cons] at hstart
    rw [hstart.1]
    exact List.dropWhile_cons_of_neg (by rw [hc]; exact Bool.false_ne_true)

/-! ## URLs -/

theorem readFromAuthority_eq_ok {scheme text : List Char} {kind : SchemeKind} {url : Url}
    (h : readFromAuthority scheme kind text = .ok url) :
    url.scheme = scheme ∧ ∃ authority rest,
      readAuthority scheme kind text = .ok (authority, rest) ∧ url.authority = some authority := by
  obtain ⟨⟨authority, rest⟩, hauthority, h⟩ := bind_eq_ok.1 h
  cases h
  exact ⟨rfl, authority, rest, hauthority, rfl⟩

theorem scheme_of_readFromFileHost {scheme text : List Char} {url : Url}
    (h : readFromFileHost scheme text = .ok url) : url.scheme = scheme := by
  unfold readFromFileHost at h
  simp only [bind, Except.bind] at h
  split_ifs at h
  · cases h
    rfl
  · cases h
    rfl
  · split at h
    · cases h
    · cases h
      rfl

theorem scheme_of_readFile {scheme text : List Char} {url : Url} (h : readFile scheme text = .ok url) :
    url.scheme = scheme := by
  unfold readFile at h
  split at h
  · split_ifs at h
    · exact scheme_of_readFromFileHost h
    · cases h
      rfl
  · cases h
    rfl

theorem scheme_of_readOther {scheme text : List Char} {url : Url}
    (h : readOther scheme text = .ok url) : url.scheme = scheme := by
  unfold readOther at h
  split at h
  · exact (readFromAuthority_eq_ok h).1
  · cases h
    rfl

theorem scheme_of_ofText {text : String} {url : Url} (h : ofText text = .ok url) :
    ∃ rest, readScheme? (significant text) = some (url.scheme, rest) := by
  unfold ofText at h
  split at h
  · cases h
  · next scheme rest hscheme =>
    refine ⟨rest, ?_⟩
    rw [hscheme]
    split at h
    · rw [(readFromAuthority_eq_ok h).1]
    · rw [scheme_of_readFile h]
    · rw [scheme_of_readOther h]

/-- The authority of a URL of the web. -/
theorem authority_of_ofText {text : String} {url : Url} {rest : List Char} (h : ofText text = .ok url)
    (hscheme : readScheme? (significant text) = some (url.scheme, rest))
    (hweb : SchemeKind.of url.scheme = .web) :
    ∃ authority, url.authority = some authority ∧
      authorityOf url.scheme (authorityText (rest.dropWhile (isSlash .web))) = .ok authority := by
  unfold ofText at h
  simp only [hscheme, hweb] at h
  obtain ⟨-, authority, after, hread, hauthority⟩ := readFromAuthority_eq_ok h
  exact ⟨authority, hauthority, authorityOf_of_readAuthority hread⟩

/-- What a text that is a URL becomes when something is put behind it, up to where it
is cut off at the end. -/
theorem readScheme?_append {text more scheme rest : List Char}
    (h : readScheme? ((text ++ more).rdropWhile isOuter) = some (scheme, rest)) (hmore : ':' ∉ more) :
    ∃ later, rest = (later ++ more).rdropWhile isOuter ∧
      ∀ other : List Char, readScheme? ((text ++ other).rdropWhile isOuter) =
        some (scheme, (later ++ other).rdropWhile isOuter) := by
  obtain ⟨written, htext, hwritten, hhead, rfl⟩ := readScheme?_eq_some.1 h
  have hcolon : isOuter ':' = false := rfl
  obtain ⟨later, rfl⟩ : ∃ later, text = written ++ ':' :: later := by
    have hwhole : (written ++ [':']) ++ (rest ++ (text ++ more).rtakeWhile isOuter) = text ++ more := by
      conv_rhs => rw [← List.rdropWhile_append_rtakeWhile (p := isOuter) (l := text ++ more), htext]
      simp only [List.append_assoc, List.cons_append, List.nil_append]
    rcases List.append_eq_append_iff.1 hwhole with ⟨later, hlater, -⟩ | ⟨beyond, hover, hrest⟩
    · exact ⟨later, by rw [hlater, List.append_assoc, List.singleton_append]⟩
    · rcases beyond.eq_nil_or_concat' with rfl | ⟨front, last, rfl⟩
      · exact ⟨[], by rw [← hover.trans (List.append_nil _)]⟩
      · -- The colon would stand in what is put behind the text.
        rw [← List.append_assoc] at hover
        obtain rfl : ':' = last := List.singleton_inj.1 (List.append_inj_right' hover rfl)
        refine absurd ?_ hmore
        rw [hrest]
        exact List.mem_append_left _ List.mem_concat_self
  have hcut (other : List Char) : (written ++ ':' :: later ++ other).rdropWhile isOuter =
      written ++ ':' :: (later ++ other).rdropWhile isOuter := by
    rw [List.append_assoc, List.cons_append, rdropWhile_append_cons hcolon]
  refine ⟨later, ?_, fun other => ?_⟩
  · rw [hcut] at htext
    exact (List.cons.inj (List.append_cancel_left htext)).2.symm
  · rw [hcut]
    refine readScheme?_eq_some.2 ⟨written, rfl, hwritten, ?_, rfl⟩
    rw [htext, List.head?_append] at hhead
    rw [List.head?_append]
    exact hhead

/-- What counts of two texts, one behind the other, if there is more than blanks in
the first. -/
theorem significant_append {text more : String}
    (h : (text.toList.filter isKept).dropWhile isOuter ≠ []) :
    significant (text ++ more) =
      ((text.toList.filter isKept).dropWhile isOuter ++ more.toList.filter isKept).rdropWhile
        isOuter := by
  rw [significant_eq, String.toList_append, List.filter_append, List.dropWhile_append,
    if_neg (by rwa [List.isEmpty_iff])]

/-- What is put behind a URL leaves its origin as it is, if it goes on where an
authority ends. -/
theorem origin_of_append {text more other : String} {url url' : Url}
    (hmore : ∀ c ∈ more.toList, c = '/') (hother : GoesOn (other.toList.filter isKept))
    (h : ofText (text ++ more) = .ok url) (h' : ofText (text ++ other) = .ok url')
    (hweb : SchemeKind.of url'.scheme = .web) : url'.origin = url.origin := by
  have hkept : ∀ c ∈ more.toList.filter isKept, c = '/' := fun c hc => hmore c (List.mem_of_mem_filter hc)
  have hcolon : ':' ∉ more.toList.filter isKept := fun hmem => absurd (hkept ':' hmem) (by decide)
  have hslashes : GoesOn (more.toList.filter isKept) := by
    intro c hc
    rw [hkept c (List.mem_of_head? hc)]
    rfl
  obtain ⟨rest, hscheme⟩ := scheme_of_ofText h
  obtain ⟨rest', hscheme'⟩ := scheme_of_ofText h'
  have hsome : (text.toList.filter isKept).dropWhile isOuter ≠ [] := by
    -- Otherwise the scheme, with its colon, would be among the slashes.
    intro hnil
    obtain ⟨written, hwritten, -⟩ := readScheme?_eq_some.1 hscheme
    rw [significant_eq, String.toList_append, List.filter_append, List.dropWhile_append, hnil] at hwritten
    have hmem : ':' ∈ ((more.toList.filter isKept).dropWhile isOuter).rdropWhile isOuter :=
      hwritten ▸ List.mem_append_right _ List.mem_cons_self
    exact hcolon ((List.dropWhile_suffix _).subset ((List.rdropWhile_prefix isOuter _).subset hmem))
  rw [significant_append hsome] at hscheme hscheme'
  obtain ⟨later, rfl, hthrough⟩ := readScheme?_append hscheme hcolon
  rw [hthrough, Option.some.injEq, Prod.mk.injEq] at hscheme'
  obtain ⟨heq, rfl⟩ := hscheme'
  have hweb' : SchemeKind.of url.scheme = .web := by rw [heq, hweb]
  obtain ⟨authority, hauthority, hread⟩ := authority_of_ofText h
    (by rw [significant_append hsome]; exact hscheme) hweb'
  obtain ⟨authority', hauthority', hread'⟩ := authority_of_ofText h'
    (by rw [significant_append hsome, hthrough, heq]) hweb
  have hlater : later.dropWhile (isSlash .web) ≠ [] := by
    -- Otherwise there would be slashes only, and no host.
    intro hnil
    have hnone : ((later ++ more.toList.filter isKept).rdropWhile isOuter).dropWhile
        (isSlash .web) = [] := by
      refine List.dropWhile_eq_nil_iff.2 fun c hc => ?_
      rcases List.mem_append.1 ((List.rdropWhile_prefix isOuter _).subset hc) with hc | hc
      · exact List.dropWhile_eq_nil_iff.1 hnil c hc
      · rw [hkept c hc]
        rfl
    rw [hnone] at hread
    obtain ⟨last, hlast, -⟩ := last_of_authorityOf hread List.not_mem_nil
    cases hlast
  rw [dropSlashes_rdropWhile hlater] at hread hread'
  rw [authorityText_append hread hslashes] at hread
  rw [authorityText_append hread' hother, ← heq, hread] at hread'
  cases hread'
  rw [origin, origin, hauthority, hauthority', heq]

end ApiContract.Url
