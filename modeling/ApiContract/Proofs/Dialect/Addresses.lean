import ApiContract.JsonSchema.Library
import ApiContract.Proofs.Contract.Growth
import Mathlib.Data.List.DropRight
import Mathlib.Logic.Equiv.Basic
/-!
# Addresses in two dialects

The two dialects keep their resources under hosts of their own.  To exchange the
hosts (`UriReference.exchanged`) takes a resource of one dialect to that of the
same name in the other one, and leaves all other addresses alone.

What a text means seen from an address is exchanged with the address, as long as
the text says nothing of the hosts itself (`resolveAddress_exchanged`).
-/

namespace ApiContract

/-! ## The roots of the dialects -/

namespace Namespace

/-- The other dialect. -/
def other : Namespace → Namespace
  | rest => event
  | event => rest

theorem other_other (ns : Namespace) : ns.other.other = ns := by cases ns <;> rfl

/-- The scheme of all resources. -/
def scheme : List Char := "synapse".toList

/-- The host of the resources of a dialect. -/
def host : Namespace → List Char
  | rest => "schemas".toList
  | event => "asyncapi".toList

theorem toList_root (ns : Namespace) :
    ns.root.toList = scheme ++ ':' :: '/' :: '/' :: (ns.host ++ ['/']) := by
  cases ns <;> decide

/-- The host of one dialect in the place of that of the other one. -/
def exchangeHost : Equiv.Perm (List Char) := Equiv.swap rest.host event.host

theorem exchangeHost_host (ns : Namespace) : exchangeHost ns.host = ns.other.host := by
  cases ns with
  | rest => exact Equiv.swap_apply_left _ _
  | event => exact Equiv.swap_apply_right _ _

theorem head?_resourceId (ns : Namespace) (name : SchemaName) :
    (ns.resourceId name).toList.head? = some 's' := by
  rw [resourceId, String.toList_append, toList_root]
  rfl

/-- The resources of the dialects are different ones. -/
theorem resourceId_ne (ns : Namespace) (name name' : SchemaName) :
    ns.resourceId name ≠ ns.other.resourceId name' := by
  intro heq
  have hsame : ns = ns.other := (resourceId_eq_iff.1 heq).1
  cases ns <;> cases hsame

theorem nameOf?_other (ns : Namespace) (name : SchemaName) :
    ns.nameOf? (ns.other.resourceId name) = none := by
  rw [Option.eq_none_iff_forall_ne_some]
  intro name' hname'
  exact resourceId_ne ns name' name (resourceId_of_nameOf? hname').symm

/-- The resource of a dialect in the place of that of the same name in the other one.
Other texts stay as they are. -/
def exchangeText (text : String) : String :=
  match rest.nameOf? text, event.nameOf? text with
  | some name, _ => event.resourceId name
  | none, some name => rest.resourceId name
  | none, none => text

theorem exchangeText_resourceId (ns : Namespace) (name : SchemaName) :
    exchangeText (ns.resourceId name) = ns.other.resourceId name := by
  cases ns with
  | rest => simp only [exchangeText, nameOf?_resourceId, other]
  | event =>
    have hrest : rest.nameOf? (event.resourceId name) = none := nameOf?_other rest name
    simp only [exchangeText, nameOf?_resourceId, hrest, other]

/-- A text is a resource of one of the dialects, or it stays as it is. -/
theorem exchangeText_cases (text : String) :
    (∃ (ns : Namespace) (name : SchemaName), text = ns.resourceId name) ∨
      exchangeText text = text := by
  unfold exchangeText
  split
  · next hname => exact .inl ⟨rest, _, resourceId_of_nameOf? hname⟩
  · next hname => exact .inl ⟨event, _, resourceId_of_nameOf? hname⟩
  · exact .inr rfl

theorem exchangeText_exchangeText (text : String) : exchangeText (exchangeText text) = text := by
  rcases exchangeText_cases text with ⟨ns, name, rfl⟩ | hsame
  · rw [exchangeText_resourceId, exchangeText_resourceId, other_other]
  · rw [hsame, hsame]

theorem exchangeText_injective : Function.Injective exchangeText :=
  Function.LeftInverse.injective exchangeText_exchangeText

/-! ## Texts that say nothing of the roots -/

/-- Whether a text says nothing of the hosts of the dialects, wherever it stands: it
neither names the scheme of the resources, in whatever case, nor is it relative to a
scheme with a host of its own. -/
def isNeutral (text : List Char) : Bool :=
  !(['/', '/'].isPrefixOf text) && !(scheme ++ [':']).isPrefixOf (text.map UriReference.lower)

theorem isNeutral_of_append {text more : List Char} (h : isNeutral (text ++ more) = true) :
    isNeutral text = true := by
  simp only [isNeutral, Bool.and_eq_true, Bool.not_eq_true', ← Bool.not_eq_true,
    List.isPrefixOf_iff_prefix, List.map_append] at h ⊢
  exact ⟨fun hslashes => h.1 (hslashes.trans (List.prefix_append _ _)),
    fun hscheme => h.2 (hscheme.trans (List.prefix_append _ _))⟩

theorem not_isNeutral_resourceId (ns : Namespace) (name : SchemaName) :
    isNeutral (ns.resourceId name).toList = false := by
  have hroot : isNeutral ns.root.toList = false := by cases ns <;> decide
  by_contra h
  rw [resourceId, String.toList_append] at h
  rw [isNeutral_of_append (Bool.not_eq_false _ ▸ h)] at hroot
  cases hroot

theorem exchangeText_of_isNeutral {text : String} (h : isNeutral text.toList = true) :
    exchangeText text = text := by
  rcases exchangeText_cases text with ⟨ns, name, rfl⟩ | hsame
  · rw [not_isNeutral_resourceId] at h
    cases h
  · exact hsame

/-- A text that a dialect knows what to do with: a resource of its own, or one that
says nothing of the hosts. -/
inductive Knows (ns : Namespace) : String → Prop
  | own (name : SchemaName) : Knows ns (ns.resourceId name)
  | neutral {text : String} (h : isNeutral text.toList = true) : Knows ns text

theorem Knows.exchanged {ns : Namespace} {text : String} (h : ns.Knows text) :
    ns.other.Knows (exchangeText text) := by
  cases h with
  | own name => exact exchangeText_resourceId ns name ▸ .own name
  | neutral h => exact (exchangeText_of_isNeutral h).symm ▸ .neutral h

end Namespace

/-! ## Addresses -/

namespace UriReference

open Namespace (exchangeHost exchangeText)

/-- The address with the host of the other dialect. -/
def exchanged (r : UriReference) : UriReference :=
  if r.scheme = some Namespace.scheme then { r with authority := r.authority.map exchangeHost }
  else r

theorem exchanged_exchanged (r : UriReference) : r.exchanged.exchanged = r := by
  obtain ⟨scheme, authority, path, query, fragment⟩ := r
  by_cases hscheme : scheme = some Namespace.scheme
  · have hid : exchangeHost ∘ exchangeHost = id :=
      funext fun authority => DFunLike.congr_fun (Equiv.swap_swap _ _) authority
    simp only [exchanged, hscheme, if_true, Option.map_map, hid, Option.map_id, id]
  · simp only [exchanged, hscheme, if_false]

theorem exchanged_injective : Function.Injective exchanged :=
  Function.LeftInverse.injective exchanged_exchanged

/-- The address is one of a dialect's own, or one under another scheme. -/
def IsOf (ns : Namespace) (r : UriReference) : Prop :=
  (r.scheme = some Namespace.scheme ∧ r.authority = some ns.host ∧ r.path.head? = some '/') ∨
    ∀ scheme ∈ r.scheme, scheme.map lower ≠ Namespace.scheme

variable {ns : Namespace}

theorem exchanged_of_foreign {r : UriReference}
    (h : ∀ scheme ∈ r.scheme, scheme.map lower ≠ Namespace.scheme) : r.exchanged = r :=
  if_neg fun heq => h _ heq (by decide)

theorem exchanged_of_own {r : UriReference} (hscheme : r.scheme = some Namespace.scheme)
    (hhost : r.authority = some ns.host) :
    r.exchanged = { r with authority := some ns.other.host } := by
  rw [exchanged, if_pos hscheme, hhost, Option.map_some, Namespace.exchangeHost_host]

/-! ## Reading -/

/-- The place in the text where a run begins has no say in it. -/
theorem readRun_from {allowed : Char → Bool} {done text run : List Char} {p : Nat} {after : Cursor}
    (h : readRun allowed done p text = .ok (run, after)) (q : Nat) :
    ∃ after', after'.rest = after.rest ∧ readRun allowed done q text = .ok (run, after') := by
  fun_induction readRun allowed done p text generalizing q with
  | case1 done p =>
    cases h
    exact ⟨⟨q, []⟩, rfl, rfl⟩
  | case2 done p a b rest hhex ih =>
    obtain ⟨after', hrest, hrun⟩ := ih h (q + 3)
    exact ⟨after', hrest, by rw [readRun, if_pos hhex, hrun]⟩
  | case3 | case4 => cases h
  | case5 done p c rest hoctet hc hallowed ih =>
    obtain ⟨after', hrest, hrun⟩ := ih h (q + c.utf8Size)
    refine ⟨after', hrest, ?_⟩
    rw [readRun, if_neg hc, if_pos hallowed, hrun]
    exact hoctet
  | case6 done p c rest hoctet hc hallowed =>
    cases h
    refine ⟨⟨q, c :: rest⟩, rfl, ?_⟩
    rw [readRun, if_neg hc, if_neg hallowed]
    exact hoctet

theorem prefix_readRun {allowed : Char → Bool} {done text run : List Char} {p : Nat}
    {after : Cursor} (h : readRun allowed done p text = .ok (run, after)) :
    done.reverse <+: run := by
  fun_induction readRun allowed done p text with
  | case1 | case6 =>
    cases h
    exact List.prefix_rfl
  | case2 done p a b rest hhex ih => exact List.IsPrefix.trans (by simp) (ih h)
  | case3 | case4 => cases h
  | case5 done p c rest hoctet hc hallowed ih => exact List.IsPrefix.trans (by simp) (ih h)

section Parts

variable {iri : Bool} {at_ after at' : Cursor}

theorem readQuery_from {query : Option (List Char)} (h : readQuery iri at_ = .ok (query, after))
    (hrest : at'.rest = at_.rest) :
    ∃ after', after'.rest = after.rest ∧ readQuery iri at' = .ok (query, after') := by
  unfold readQuery at h ⊢
  rw [hrest]
  split at h
  · obtain ⟨⟨run, beyond⟩, hrun, h⟩ := bind_eq_ok.1 h
    cases h
    obtain ⟨after', hafter, hrun'⟩ := readRun_from hrun (at'.passed + 1)
    exact ⟨after', hafter, bind_eq_ok.2 ⟨_, hrun', rfl⟩⟩
  · cases h
    exact ⟨at', hrest, rfl⟩

theorem readFragment_from {fragment : Option (List Char)}
    (h : readFragment iri at_ = .ok (fragment, after)) (hrest : at'.rest = at_.rest) :
    ∃ after', after'.rest = after.rest ∧ readFragment iri at' = .ok (fragment, after') := by
  unfold readFragment at h ⊢
  rw [hrest]
  split at h
  · obtain ⟨⟨run, beyond⟩, hrun, h⟩ := bind_eq_ok.1 h
    cases h
    obtain ⟨after', hafter, hrun'⟩ := readRun_from hrun (at'.passed + 1)
    exact ⟨after', hafter, bind_eq_ok.2 ⟨_, hrun', rfl⟩⟩
  · cases h
    exact ⟨at', hrest, rfl⟩

/-- What is read behind a path depends on nothing before it. -/
theorem finish_from {scheme authority : Option (List Char)} {path : List Char} {r : UriReference}
    (h : finish iri scheme authority path at_ = .ok r) (hrest : at'.rest = at_.rest)
    (authority' : Option (List Char)) :
    r.scheme = scheme ∧ r.authority = authority ∧ r.path = path ∧
      finish iri scheme authority' path at' = .ok { r with authority := authority' } := by
  obtain ⟨⟨query, afterQuery⟩, hquery, h⟩ := bind_eq_ok.1 h
  obtain ⟨⟨fragment, afterFragment⟩, hfragment, h⟩ := bind_eq_ok.1 h
  obtain ⟨afterQuery', hrestQuery, hquery'⟩ := readQuery_from hquery hrest
  obtain ⟨afterFragment', hrestFragment, hfragment'⟩ := readFragment_from hfragment hrestQuery
  dsimp only at h
  split at h
  · next hend =>
    cases h
    refine ⟨rfl, rfl, rfl, bind_eq_ok.2 ⟨_, hquery', bind_eq_ok.2 ⟨_, hfragment', ?_⟩⟩⟩
    dsimp only
    rw [hrestFragment, hend]
    rfl
  · cases h

end Parts

/-- What stands behind the root of a dialect, from the slash on. -/
def readFromRoot (ns : Namespace) (p : Nat) (name : List Char) : Except UriFault UriReference := do
  let (path, beyond) ← readRun (isPathChar false) [] p ('/' :: name)
  if path ≠ [] && path.head? ≠ some '/' then throw (.unexpectedChar p)
  else finish false (some Namespace.scheme) (some ns.host) path beyond

theorem read_root (ns : Namespace) (name : List Char) :
    ∃ p, read false false (ns.root.toList ++ name) = readFromRoot ns p name := by
  cases ns with
  | rest => exact ⟨_, rfl⟩
  | event => exact ⟨_, rfl⟩

theorem read_own {name : List Char} {r : UriReference}
    (h : read false false (ns.root.toList ++ name) = .ok r) :
    r.scheme = some Namespace.scheme ∧ r.authority = some ns.host ∧ r.path.head? = some '/' ∧
      read false false (ns.other.root.toList ++ name) = .ok r.exchanged := by
  obtain ⟨p, hread⟩ := read_root ns name
  obtain ⟨q, hread'⟩ := read_root ns.other name
  rw [hread] at h
  obtain ⟨⟨path, beyond⟩, hrun, h⟩ := bind_eq_ok.1 h
  obtain ⟨beyond', hrest, hrun'⟩ := readRun_from hrun q
  have hpath : path.head? = some '/' := by
    have hstart : ['/'].reverse <+: path := prefix_readRun hrun
    obtain ⟨more, rfl⟩ := hstart
    rfl
  dsimp only at h
  rw [hpath] at h
  simp only [ne_eq, not_true_eq_false, decide_false, Bool.and_false, Bool.false_eq_true,
    if_false] at h
  obtain ⟨hscheme, hhost, rfl, hfinish⟩ := finish_from h hrest (some ns.other.host)
  refine ⟨hscheme, hhost, hpath, ?_⟩
  rw [exchanged_of_own hscheme hhost, hread']
  refine bind_eq_ok.2 ⟨_, hrun', ?_⟩
  dsimp only
  rw [hpath]
  simpa only [ne_eq, not_true_eq_false, decide_false, Bool.and_false, Bool.false_eq_true,
    if_false] using hfinish

/-- What a text that says nothing of the hosts reads as. -/
def IsNeutral (r : UriReference) : Prop :=
  (∀ scheme ∈ r.scheme, scheme.map lower ≠ Namespace.scheme) ∧ (r.scheme = none → r.authority = none)

theorem scheme_readFromAuthority {iri : Bool} {scheme : Option (List Char)} {at_ : Cursor}
    {r : UriReference} (h : readFromAuthority iri scheme at_ = .ok r) : r.scheme = scheme := by
  obtain ⟨⟨authority, after⟩, -, h⟩ := bind_eq_ok.1 h
  obtain ⟨⟨path, beyond⟩, -, h⟩ := bind_eq_ok.1 h
  dsimp only at h
  split at h
  · cases h
  · exact (finish_from h rfl none).1

theorem isNeutral_of_read {text : List Char} (htext : Namespace.isNeutral text = true)
    {r : UriReference} (h : read false false text = .ok r) : r.IsNeutral := by
  simp only [Namespace.isNeutral, Bool.and_eq_true, Bool.not_eq_true', ← Bool.not_eq_true,
    List.isPrefixOf_iff_prefix] at htext
  obtain ⟨hslashes, hscheme⟩ := htext
  have hsplit := List.takeWhile_append_dropWhile (p := isSchemeChar) (l := text)
  unfold read at h
  dsimp only at h
  generalize text.takeWhile isSchemeChar = scheme at h hsplit
  split at h
  · next rest hrest =>
    -- The text has a scheme, which is not that of the resources.
    have hforeign : scheme.map lower ≠ Namespace.scheme := by
      intro heq
      rw [← hsplit, hrest, List.map_append, heq, List.map_cons] at hscheme
      exact hscheme ⟨rest.map lower, by simp [lower]⟩
    suffices hread : r.scheme = some scheme by
      refine ⟨fun other hother => ?_, fun hnone => ?_⟩
      · rw [hread, Option.mem_some_iff] at hother
        exact hother ▸ hforeign
      · rw [hread] at hnone
        cases hnone
    split_ifs at h
    split at h
    · exact scheme_readFromAuthority h
    · obtain ⟨⟨path, after⟩, -, h⟩ := bind_eq_ok.1 h
      exact (finish_from h rfl none).1
  · next rest hrest =>
    rw [if_neg Bool.false_ne_true] at h
    split at h
    · next hrest =>
      rw [hrest, List.nil_append] at hsplit
      exact absurd ⟨_, hsplit⟩ hslashes
    · obtain ⟨⟨first, after⟩, -, h⟩ := bind_eq_ok.1 h
      dsimp only at h
      split_ifs at h
      obtain ⟨⟨path, beyond⟩, -, h⟩ := bind_eq_ok.1 h
      obtain ⟨hnone, hauthority, -, -⟩ := finish_from h rfl none
      refine ⟨fun scheme hmem => ?_, fun _ => hauthority⟩
      rw [hnone] at hmem
      cases hmem

/-- What a text that a dialect knows reads as: one of the dialect's own addresses, or
one that says nothing of the hosts. -/
def IsKnown (ns : Namespace) (r : UriReference) : Prop := r.IsOf ns ∧ (r.scheme = none → r.authority = none)

theorem read_known {text : String} (htext : ns.Knows text) {r : UriReference}
    (h : read false false text.toList = .ok r) :
    r.IsKnown ns ∧ read false false (exchangeText text).toList = .ok r.exchanged := by
  cases htext with
  | own name =>
    rw [Namespace.resourceId, String.toList_append] at h
    obtain ⟨hscheme, hhost, hpath, hread⟩ := read_own h
    refine ⟨⟨.inl ⟨hscheme, hhost, hpath⟩, fun hnone => ?_⟩, ?_⟩
    · rw [hscheme] at hnone
      cases hnone
    · rw [Namespace.exchangeText_resourceId, Namespace.resourceId, String.toList_append, hread]
  | neutral htext =>
    obtain ⟨hforeign, hauthority⟩ := isNeutral_of_read htext h
    refine ⟨⟨.inr hforeign, hauthority⟩, ?_⟩
    rw [Namespace.exchangeText_of_isNeutral htext, exchanged_of_foreign hforeign, h]

/-! ## Resolution -/

theorem head?_removeDots {path : List Char} (h : path.head? = some '/') :
    (removeDots path).head? = some '/' := by
  obtain ⟨rest, rfl⟩ := List.head?_eq_some_iff.1 h
  rfl

theorem head?_mergePath {base : UriReference} (h : base.path.head? = some '/') (path : List Char) :
    (mergePath base path).head? = some '/' := by
  obtain ⟨rest, hrest⟩ := List.head?_eq_some_iff.1 h
  rw [mergePath]
  split_ifs
  · rfl
  · have hslash : (('/' :: rest).rdropWhile (· ≠ '/')).head? = some '/' := by
      obtain ⟨more, hmore⟩ := List.rdropWhile_prefix (· ≠ '/') ('/' :: rest)
      cases hkept : ('/' :: rest).rdropWhile (· ≠ '/') with
      | nil =>
        have hall := List.rdropWhile_eq_nil_iff.1 hkept '/' List.mem_cons_self
        cases hall
      | cons c kept =>
        rw [hkept, List.cons_append, List.cons.injEq] at hmore
        rw [hmore.1, List.head?_cons]
    rw [List.rdropWhile] at hslash
    rw [hrest, List.head?_append, hslash, Option.some_or]

/-- To exchange the hosts changes nothing but the authority. -/
theorem exchanged_mk (r : UriReference) (path : List Char) (query fragment : Option (List Char)) :
    (⟨r.scheme, r.authority, path, query, fragment⟩ : UriReference).exchanged =
      ⟨r.scheme, r.exchanged.authority, path, query, fragment⟩ := by
  unfold exchanged
  dsimp only
  split_ifs <;> rfl

@[simp] theorem scheme_exchanged (r : UriReference) : r.exchanged.scheme = r.scheme := by
  unfold exchanged
  split_ifs <;> rfl

@[simp] theorem path_exchanged (r : UriReference) : r.exchanged.path = r.path := by
  unfold exchanged
  split_ifs <;> rfl

@[simp] theorem query_exchanged (r : UriReference) : r.exchanged.query = r.query := by
  unfold exchanged
  split_ifs <;> rfl

@[simp] theorem fragment_exchanged (r : UriReference) : r.exchanged.fragment = r.fragment := by
  unfold exchanged
  split_ifs <;> rfl

@[simp] theorem isSome_authority_exchanged (r : UriReference) :
    r.exchanged.authority.isSome = r.authority.isSome := by
  unfold exchanged
  split_ifs
  · exact Option.isSome_map
  · rfl

theorem mergePath_exchanged (base : UriReference) (path : List Char) :
    mergePath base.exchanged path = mergePath base path := by
  simp only [mergePath, isSome_authority_exchanged, path_exchanged]

theorem IsOf.update {r : UriReference} (h : r.IsOf ns) (path : List Char)
    (hpath : r.path.head? = some '/' → path.head? = some '/') (query fragment : Option (List Char)) :
    ({ r with path := path, query := query, fragment := fragment } : UriReference).IsOf ns :=
  h.imp (fun ⟨hscheme, hhost, hslash⟩ => ⟨hscheme, hhost, hpath hslash⟩) id

/-- Resolution goes the same way in both dialects. -/
theorem resolve_known {base r : UriReference} (hbase : base.IsOf ns) (h : r.IsKnown ns) :
    (base.resolve r).IsOf ns ∧ base.exchanged.resolve r.exchanged = (base.resolve r).exchanged := by
  unfold resolve
  cases hscheme : r.scheme with
  | some scheme =>
    simp only [scheme_exchanged, hscheme, Option.isSome_some, if_true, path_exchanged,
      query_exchanged, fragment_exchanged]
    rw [← hscheme, exchanged_mk r (removeDots r.path)]
    exact ⟨h.1.update _ head?_removeDots _ _, rfl⟩
  | none =>
    have hsame : r.exchanged = r := exchanged_of_foreign (by simp [hscheme])
    simp only [hsame, hscheme, h.2 hscheme, Option.isSome_none, Bool.false_eq_true, if_false,
      scheme_exchanged, path_exchanged, query_exchanged, mergePath_exchanged]
    rw [apply_ite exchanged, exchanged_mk base base.path (r.query.or base.query) r.fragment,
      exchanged_mk base (removeDots _) r.query r.fragment]
    refine ⟨?_, rfl⟩
    split_ifs with hpath hslash
    · exact hbase.update _ id _ _
    · exact hbase.update _ (fun _ => head?_removeDots hslash) _ _
    · exact hbase.update _ (fun hbasePath => head?_removeDots (head?_mergePath hbasePath _)) _ _

/-! ## Normalisation -/

theorem lower_lower (c : Char) : lower (lower c) = lower c := by
  by_cases hupper : ('A' ≤ c && c ≤ 'Z') = true
  · have hall : ∀ n ∈ List.range' 65 26, lower (lower (Char.ofNat n)) = lower (Char.ofNat n) := by
      decide
    simp only [Bool.and_eq_true, decide_eq_true_eq, Char.le_def, UInt32.le_iff_toNat_le] at hupper
    have hcode : c.toNat ∈ List.range' 65 26 := List.mem_range'_1.2 ⟨hupper.1, by
      exact Nat.lt_succ_of_le hupper.2⟩
    simpa only [Char.ofNat_toNat] using hall _ hcode
  · have hsame : lower c = c := if_neg hupper
    rw [hsame, hsame]

theorem normalizeAuthority_host (ns : Namespace) : normalizeAuthority ns.host = ns.host := by
  cases ns <;> decide

theorem head?_normalizeOctets {path : List Char} (h : path.head? = some '/') :
    (normalizeOctets path).head? = some '/' := by
  obtain ⟨rest, rfl⟩ := List.head?_eq_some_iff.1 h
  rfl

theorem normalize_of_own {r : UriReference} (hscheme : r.scheme = some Namespace.scheme)
    (hhost : r.authority = some ns.host) :
    r.normalize = ⟨some Namespace.scheme, some ns.host, removeDots (normalizeOctets r.path),
      r.query.map normalizeOctets, r.fragment.map normalizeOctets⟩ := by
  rw [normalize, hscheme, hhost]
  simp only [Option.map_some, Option.isSome_some, if_true, normalizeAuthority_host]
  rfl

/-- Normalisation goes the same way in both dialects. -/
theorem normalize_exchanged {r : UriReference} (h : r.IsOf ns) :
    r.normalize.IsOf ns ∧ r.exchanged.normalize = r.normalize.exchanged := by
  rcases h with ⟨hscheme, hhost, hpath⟩ | hforeign
  · have hnormal := normalize_of_own hscheme hhost
    have hother := normalize_of_own (r := { r with authority := some ns.other.host }) hscheme rfl
    have hscheme' : r.normalize.scheme = some Namespace.scheme := congrArg UriReference.scheme hnormal
    have hhost' : r.normalize.authority = some ns.host := congrArg authority hnormal
    refine ⟨.inl ⟨hscheme', hhost', ?_⟩, ?_⟩
    · rw [hnormal]
      exact head?_removeDots (head?_normalizeOctets hpath)
    · rw [exchanged_of_own hscheme hhost, exchanged_of_own hscheme' hhost', hother, hnormal]
  · have hnormal : ∀ scheme ∈ r.normalize.scheme, scheme.map lower ≠ Namespace.scheme := by
      intro scheme hmem
      obtain ⟨written, hwritten, rfl⟩ := Option.map_eq_some_iff.1 hmem
      rw [List.map_map, show lower ∘ lower = lower from funext lower_lower]
      exact hforeign written hwritten
    exact ⟨.inr hnormal, by rw [exchanged_of_foreign hforeign, exchanged_of_foreign hnormal]⟩

theorem IsKnown.normalize {r : UriReference} (h : r.IsKnown ns) : r.normalize.IsKnown ns := by
  refine ⟨(normalize_exchanged h.1).1, fun hnone => ?_⟩
  rw [UriReference.normalize, h.2 (Option.map_eq_none_iff.1 hnone)]
  rfl

/-! ## Texts of addresses -/

/-- Behind the host, an address is written in the same way in both dialects. -/
theorem write_own {r : UriReference} (hscheme : r.scheme = some Namespace.scheme)
    (hhost : r.authority = some ns.host) :
    r.write = Namespace.scheme ++ ':' :: '/' :: '/' :: ns.host ++
      (r.path ++ withMark ['?'] r.query ++ withMark ['#'] r.fragment) := by
  rw [write, hscheme, hhost]
  simp [withMark]

/-- What can stand at the end of an address from a number sign on, can do so in both
dialects. -/
theorem isSuffixOf_write_exchanged {r : UriReference} (h : r.IsOf ns) {rest : List Char} :
    ('#' :: rest).isSuffixOf r.exchanged.write = ('#' :: rest).isSuffixOf r.write := by
  have hbehind {start text : List Char} (hstart : '#' ∉ start) :
      '#' :: rest <:+ start ++ text ↔ '#' :: rest <:+ text := by
    constructor
    · rintro ⟨before, heq⟩
      rcases List.append_eq_append_iff.1 heq with ⟨between, rfl, hrest⟩ | ⟨between, rfl, hrest⟩
      · cases between with
        | nil => exact ⟨[], hrest⟩
        | cons c between =>
          obtain ⟨rfl, -⟩ := List.cons.inj hrest
          exact absurd (List.mem_append_right _ List.mem_cons_self) hstart
      · exact ⟨between, hrest.symm⟩
    · exact fun hsuffix => hsuffix.trans (List.suffix_append _ _)
  rcases h with ⟨hscheme, hhost, -⟩ | hforeign
  · have hmark (ns : Namespace) : '#' ∉ Namespace.scheme ++ ':' :: '/' :: '/' :: ns.host := by
      cases ns <;> decide
    rw [exchanged_of_own hscheme hhost, write_own hscheme hhost,
      write_own (r := { r with authority := some ns.other.host }) hscheme rfl, Bool.eq_iff_iff,
      List.isSuffixOf_iff_suffix, List.isSuffixOf_iff_suffix, hbehind (hmark _), hbehind (hmark _)]
  · rw [exchanged_of_foreign hforeign]

end UriReference

open UriReference Namespace

variable {ns : Namespace}

/-- What is asked for under an address has the same name in both dialects. -/
theorem SchemaName.lastSegment_addressText {address : UriReference} (h : address.IsOf ns) :
    SchemaName.lastSegment (JsonSchema.addressText address.exchanged) =
      SchemaName.lastSegment (JsonSchema.addressText address) := by
  rcases h with ⟨hscheme, hhost, hpath⟩ | hforeign
  · obtain ⟨rest, hrest⟩ := List.head?_eq_some_iff.1 hpath
    have hbehind (start text : List Char) :
        SchemaName.lastSegment (String.ofList (start ++ '/' :: text)) =
          SchemaName.lastSegment (String.ofList text) := by
      have hslash : String.ofList (start ++ '/' :: text) =
          String.ofList start ++ "/" ++ String.ofList text := by
        rw [← String.toList_inj]
        simp
      rw [hslash, SchemaName.lastSegment_append]
    rw [JsonSchema.addressText, JsonSchema.addressText, exchanged_of_own hscheme hhost,
      write_own hscheme hhost, write_own (r := { address with authority := some ns.other.host })
      hscheme rfl]
    simp only [hrest, List.cons_append, hbehind]
  · rw [exchanged_of_foreign hforeign]

namespace JsonSchema

/-- What a text means seen from an address is exchanged with the address. -/
theorem resolveAddress_exchanged {base address : UriReference} {text : String} (hbase : base.IsOf ns)
    (htext : ns.Knows text) (h : resolveAddress base text = .ok address) :
    address.IsOf ns ∧ resolveAddress base.exchanged (exchangeText text) = .ok address.exchanged := by
  have hmark : (decide ((exchangeText text).toList.head? = some '#') &&
      (exchangeText text).toList.isSuffixOf base.exchanged.write) =
        (decide (text.toList.head? = some '#') && text.toList.isSuffixOf base.write) := by
    cases htext with
    | own name =>
      rw [exchangeText_resourceId, head?_resourceId, head?_resourceId]
      rfl
    | neutral htext =>
      rw [exchangeText_of_isNeutral htext]
      cases htext : text.toList with
      | nil => rfl
      | cons c rest =>
        by_cases hc : c = '#'
        · rw [hc, isSuffixOf_write_exchanged hbase]
        · simp [hc]
  unfold resolveAddress at h ⊢
  rw [hmark]
  split_ifs at h ⊢ with hsame
  · cases h
    exact ⟨hbase, rfl⟩
  · split at h
    · cases h
    · next r hread =>
      cases h
      obtain ⟨hknown, hread'⟩ := read_known htext hread
      obtain ⟨hof, hresolve⟩ := resolve_known hbase hknown
      obtain ⟨hnormal, hexchanged⟩ := normalize_exchanged hof
      exact ⟨hnormal, by simp only [hread', hresolve, hexchanged]⟩

theorem isOf_defaultBase (ns : Namespace) : defaultBase.IsOf ns :=
  .inr (by decide)

/-- The address that a text is, is exchanged with the text. -/
theorem readAddress_exchanged {text : String} (htext : ns.Knows text) {address : UriReference}
    (h : readAddress text = .ok address) :
    address.IsOf ns ∧ readAddress (exchangeText text) = .ok address.exchanged := by
  unfold readAddress at h ⊢
  split at h
  · cases h
  · next r hread =>
    obtain ⟨hknown, hread'⟩ := read_known htext hread
    have hnormal := (normalize_exchanged hknown.1).2
    dsimp only at h
    simp only [hread', hnormal, scheme_exchanged]
    split_ifs at h ⊢ with hscheme
    · cases h
      exact ⟨(normalize_exchanged hknown.1).1, rfl⟩
    · cases h
      obtain ⟨hof, hresolve⟩ := resolve_known (isOf_defaultBase ns) hknown.normalize
      exact ⟨hof, by rw [← hresolve]; rfl⟩

/-- Whether a text is an address does not depend on the dialect. -/
theorem toOption_readAddress {text : String} (htext : ns.Knows text) :
    (readAddress (exchangeText text)).toOption =
      (readAddress text).toOption.map UriReference.exchanged := by
  cases hread : readAddress text with
  | ok address =>
    rw [(readAddress_exchanged htext hread).2]
    rfl
  | error fault =>
    cases hread' : readAddress (exchangeText text) with
    | error fault' => rfl
    | ok address =>
      have hback := (readAddress_exchanged htext.exchanged hread').2
      rw [exchangeText_exchangeText, hread] at hback
      cases hback

/-- A resource has no fragment. -/
theorem splitFragment_resourceId (ns : Namespace) (name : SchemaName) :
    splitFragment (ns.resourceId name) = (ns.resourceId name, "") := by
  have hmark : ∀ c ∈ (ns.resourceId name).toList.reverse, decide (c ≠ '#') = true :=
    fun c hc => decide_eq_true fun heq => mark_resourceId ns name (heq ▸ List.mem_reverse.1 hc)
  rw [splitFragment, List.takeWhile_eq_self_iff.2 hmark, List.reverse_reverse]
  exact if_pos String.length_toList

/-- The part of a text before the last number sign is as well known as the text. -/
theorem splitFragment_exchangeText {text : String} (htext : ns.Knows text) :
    ns.Knows (splitFragment text).1 ∧ splitFragment (exchangeText text) =
      (exchangeText (splitFragment text).1, (splitFragment text).2) := by
  cases htext with
  | own name =>
    rw [exchangeText_resourceId, splitFragment_resourceId, splitFragment_resourceId,
      exchangeText_resourceId]
    exact ⟨.own name, rfl⟩
  | neutral htext =>
    have hneutral : isNeutral (splitFragment text).1.toList = true := by
      unfold splitFragment
      dsimp only
      split_ifs
      · exact htext
      · rw [String.toList_ofList]
        exact isNeutral_of_append (by rw [List.take_append_drop]; exact htext)
    rw [exchangeText_of_isNeutral htext, exchangeText_of_isNeutral hneutral]
    exact ⟨.neutral hneutral, rfl⟩

end JsonSchema

end ApiContract
