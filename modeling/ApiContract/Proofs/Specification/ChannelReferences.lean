import ApiContract.Proofs.Json.Pointer
import ApiContract.Proofs.Schema.Names
import ApiContract.Proofs.Specification.Channels
/-!
# References to channels

An operation of its own section names its channel by a reference, of which the last
segment counts, with its escapes read.  A channel that is written as a segment of a
pointer is read back as it was, whatever its name holds (`referenceTarget_escape`), so an
operation bound to a channel by a pointer is listed with that channel
(`loadEvents_channelReference`).

Escapes are made and read by replacing one text by another all over a text, twice each
(`replaceAll`).  `escape_eq_replaceAll` and `unescape_eq_replaceAll` say that the two
passes come to what `Path.escape` and `Path.unescape` do in one.
-/

namespace ApiContract

namespace Path

/-! ## Escapes as replacements -/

/-- The text with every occurrence of a pattern replaced, from left to right. -/
def replaceAll (first : Char) (more replacement : List Char) : List Char → List Char
  | [] => []
  | c :: rest =>
    if c = first ∧ more <+: rest then
      replacement ++ replaceAll first more replacement (rest.drop more.length)
    else c :: replaceAll first more replacement rest
termination_by text => text.length

variable {first c : Char} {more replacement rest : List Char}

theorem replaceAll_nil : replaceAll first more replacement [] = [] := by
  rw [replaceAll]

theorem replaceAll_append (rest : List Char) :
    replaceAll first more replacement (first :: (more ++ rest)) =
      replacement ++ replaceAll first more replacement rest := by
  rw [replaceAll, if_pos ⟨rfl, List.prefix_append more rest⟩, List.drop_left]

theorem replaceAll_cons (h : ¬ (c = first ∧ more <+: rest)) :
    replaceAll first more replacement (c :: rest) =
      c :: replaceAll first more replacement rest := by
  rw [replaceAll, if_neg h]

/-- Replacing one character is done character by character. -/
theorem replaceAll_single (first : Char) (replacement text : List Char) :
    replaceAll first [] replacement text =
      text.flatMap fun c => if c = first then replacement else [c] := by
  induction text with
  | nil => exact replaceAll_nil
  | cons c text ih =>
    rw [List.flatMap_cons]
    by_cases hfirst : c = first
    · rw [if_pos hfirst, hfirst, ← ih]
      exact replaceAll_append text
    · rw [if_neg hfirst, replaceAll_cons (fun h => hfirst h.1), ih, List.singleton_append]

/-- Escaping replaces `~` and then `/`. -/
theorem escape_eq_replaceAll (segment : String) : (escape segment).toList =
    replaceAll '/' [] ['~', '1'] (replaceAll '~' [] ['~', '0'] segment.toList) := by
  rw [replaceAll_single, replaceAll_single, List.flatMap_assoc, escape, String.toList_ofList]
  congr 1
  funext c
  unfold escapeChar
  split_ifs with htilde hslash
  · rfl
  · rw [hslash]
    rfl
  · simp [hslash]

/-- A replacement brings only its own first character to the front. -/
theorem prefix_of_replaceAll {d e : Char} {es text : List Char} (hne : d ≠ e)
    (h : [d] <+: replaceAll first more (e :: es) text) : [d] <+: text := by
  cases text with
  | nil =>
    rw [replaceAll_nil] at h
    exact h
  | cons c rest =>
    rw [replaceAll] at h
    split at h
    · exact absurd (List.cons_prefix_cons.1 h).1 hne
    · exact List.cons_prefix_cons.2 ⟨(List.cons_prefix_cons.1 h).1, List.nil_prefix⟩

/-- Reading escapes replaces `~1` and then `~0`. -/
theorem unescapeChars_eq_replaceAll (text : List Char) : unescapeChars text =
    replaceAll '~' ['0'] ['~'] (replaceAll '~' ['1'] ['/'] text) := by
  induction text using unescapeChars.induct with
  | case1 => rw [replaceAll_nil, replaceAll_nil, unescapeChars]
  | case2 rest ih =>
    have hslash : replaceAll '~' ['1'] ['/'] ('~' :: '1' :: rest) =
      '/' :: replaceAll '~' ['1'] ['/'] rest := replaceAll_append rest
    rw [hslash, replaceAll_cons (by simp), unescapeChars, ih]
  | case3 rest ih =>
    have htilde (text : List Char) : replaceAll '~' ['0'] ['~'] ('~' :: '0' :: text) =
      '~' :: replaceAll '~' ['0'] ['~'] text := replaceAll_append text
    have hkept : replaceAll '~' ['1'] ['/'] ('~' :: '0' :: rest) =
        '~' :: '0' :: replaceAll '~' ['1'] ['/'] rest := by
      rw [replaceAll_cons (by simp), replaceAll_cons (by simp)]
    rw [hkept, htilde, unescapeChars, ih]
  | case4 c rest hone hzero ih =>
    have hslash : ¬ (c = '~' ∧ ['1'] <+: rest) := by
      rintro ⟨hc, after, hafter⟩
      exact hone after hc hafter.symm
    -- Were there a `0` only after the first pass, `~` and `0` would stand side by side before it.
    have htilde : ¬ (c = '~' ∧ ['0'] <+: replaceAll '~' ['1'] ['/'] rest) := by
      rintro ⟨hc, hstart⟩
      obtain ⟨after, hafter⟩ := prefix_of_replaceAll (by decide) hstart
      exact hzero after hc hafter.symm
    rw [replaceAll_cons hslash, replaceAll_cons htilde, unescapeChars, ih]
    · exact hone
    · exact hzero

theorem unescape_eq_replaceAll (text : String) : (unescape text).toList =
    replaceAll '~' ['0'] ['~'] (replaceAll '~' ['1'] ['/'] text.toList) := by
  rw [unescape, String.toList_ofList, unescapeChars_eq_replaceAll]

/-- The last segment of a pointer stands after a `/`. -/
theorem render_concat (path : Path) (segment : String) :
    render (path ++ [segment]) = render path ++ "/" ++ escape segment := by
  rw [render, List.map_append, List.map_singleton, String.join_append, String.join_cons,
    String.join_nil, String.append_empty, ← String.append_assoc, render]

end Path

namespace Specification

/-! ## References -/

/-- A reference is read by its last segment, with the escapes undone. -/
theorem referenceTarget_of_reference {holder : Entries Json} {reference : String}
    (h : holder.get? "$ref" = some (.string reference)) :
    referenceTarget (some (.object holder)) =
      some (Path.unescape (SchemaName.lastSegment reference)) := by
  show (Entries.get? holder "$ref" >>= fun value => value.text? >>= fun text =>
    some (Path.unescape (SchemaName.lastSegment text))) = _
  rw [h]
  rfl

/-- A channel that is the last segment of a pointer is read back. -/
theorem referenceTarget_escape {reference : Entries Json} {start channel : String}
    (h : reference.get? "$ref" = some (.string (start ++ "/" ++ Path.escape channel))) :
    referenceTarget (some (.object reference)) = some channel := by
  rw [referenceTarget_of_reference h, SchemaName.lastSegment_append,
    SchemaName.lastSegment_of_not_mem (Path.slash_not_mem_escape channel), Path.unescape_escape]

/-- The pointer to a channel ends in its name. -/
theorem render_channel (channel : String) : "#" ++ Path.render ["channels", channel] =
    "#/channels" ++ "/" ++ Path.escape channel := by
  have hsection : "#" ++ Path.render ["channels"] = "#/channels" := by decide +kernel
  have hpath : Path.render ["channels", channel] =
      Path.render ["channels"] ++ "/" ++ Path.escape channel := Path.render_concat ["channels"] channel
  rw [hpath, ← String.append_assoc, ← String.append_assoc, hsection]

variable {files : FileTree} {path : String} {engine : Engine}

/-- An operation that is bound to a channel by a pointer is listed with that channel, which
is listed if it is a mapping. -/
theorem loadEvents_channelReference {specification : Specification}
    (hloaded : (loadEvents files path engine).Gives (.ok specification)) :
    (∀ segment, (Path.escape segment).toList =
      Path.replaceAll '/' [] ['~', '1'] (Path.replaceAll '~' [] ['~', '0'] segment.toList)) ∧
    (∀ text, (Path.unescape text).toList =
      Path.replaceAll '~' ['0'] ['~'] (Path.replaceAll '~' ['1'] ['/'] text.toList)) ∧
    ∃ document, readDocument files path = .ok document ∧
      ∀ (name channel : String) (definition reference : Entries Json),
        Defines document "operations" name definition →
        definition.get? "channel" = some (.object reference) →
        (∀ start : String,
          reference.get? "$ref" = some (.string (start ++ "/" ++ Path.escape channel)) →
          ∃ operation, specification.operations.get? name = some operation ∧
            operation.name = name ∧ operation.channel = some channel) ∧
        (reference.get? "$ref" = some (.string ("#" ++ Path.render ["channels", channel])) →
          (∃ described, Defines document "channels" channel described) →
          ∃ operation, specification.operations.get? name = some operation ∧
            ∃ key ∈ specification.channels.keys, operation.channel = some key) := by
  obtain ⟨document, channels, operations, contract, hread, hchannels, hoperations, -, rfl⟩ :=
    gives_loadEvents_ok_iff.1 hloaded
  have hdocument := ordered_of_readDocument hread
  refine ⟨Path.escape_eq_replaceAll, Path.unescape_eq_replaceAll, document, hread, ?_⟩
  intro name channel definition reference hdefines hchannel
  have hlisted (start : String)
      (hreference : reference.get? "$ref" = some (.string (start ++ "/" ++ Path.escape channel))) :
      (describe path document channels operations contract).operations.get? name =
        some ⟨name, textOf definition "action", some channel⟩ := by
    have hown := DescribesOperation.own hdefines
    rw [hchannel, referenceTarget_escape hreference] at hown
    exact (get?_operations hdocument hchannels hoperations).2 hown
  refine ⟨?_, ?_⟩
  · intro start hreference
    exact ⟨_, hlisted start hreference, rfl, rfl⟩
  · intro hreference hdescribed
    rw [render_channel] at hreference
    exact ⟨_, hlisted "#/channels" hreference, channel,
      (mem_channels_keys hdocument hchannels channel).2 hdescribed, rfl⟩

/-- A document with a channel whose name holds both characters that are escaped. -/
def slashedEvents : FileTree := ⟨[([.text "asyncapi.yaml"], .file (Utf8.encode <|
  "channels:\n  '~1/a': \x7b\x7d\noperations:\n" ++
    "  send: \x7bchannel: \x7b$ref: '#/channels/~01~1a'\x7d\x7d\n"))], []⟩

theorem loadEvents_slashedEvents : ∃ specification operation,
    (loadEvents slashedEvents "asyncapi.yaml" (.asNoted true)).Gives (.ok specification) ∧
      specification.operations.get? "send" = some operation ∧
      ∃ key ∈ specification.channels.keys, operation.channel = some key := by
  obtain ⟨specification, hspecification, -⟩ := exists_of_any
    (x := specificationOfEvents slashedEvents "asyncapi.yaml" (.asNoted true)) (p := fun _ => true)
    (by decide +kernel)
  have hloaded := (gives_loadEvents slashedEvents "asyncapi.yaml" (.asNoted true)).iff.2 hspecification
  obtain ⟨-, -, document, hread, hreferences⟩ := loadEvents_channelReference hloaded
  obtain ⟨_, hread', hcontent⟩ := exists_of_any (x := readDocument slashedEvents "asyncapi.yaml")
    (p := (Json.object [("channels", .object [("~1/a", .object [])]),
      ("operations", .object [("send", .object [("channel",
        .object [("$ref", .string ("#" ++ Path.render ["channels", "~1/a"]))])])])]).identical)
    (by decide +kernel)
  cases hread.symm.trans hread'
  obtain rfl := Json.identical_iff.1 hcontent
  obtain ⟨operation, hlisted, hkey⟩ := (hreferences "send" "~1/a" _ _ ⟨_, rfl, rfl⟩ rfl).2 rfl
    ⟨_, _, rfl, rfl⟩
  exact ⟨specification, operation, hloaded, hlisted, hkey⟩

end Specification

end ApiContract
