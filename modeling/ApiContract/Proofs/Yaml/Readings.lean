import ApiContract.Proofs.Outcome
import ApiContract.Yaml.Decoding
import Mathlib.Tactic.Common
/-!
# What readings of a document come to

A reading counts the aliases that it follows and fails if there are too many, and what it comes
to does not depend on their number (`Resolving.Gives`).  A node stands for itself or for the
node that it is an alias of (`Document.target?`).

The fields of a record are the values under the keys with their names
(`Document.lookup_fields`).
-/

namespace ApiContract.Yaml

namespace Resolving

variable {α β : Type} {reading : Resolving α} {a : α} {b : β}

/-- What a reading comes to, after some number of aliases. -/
def Gives (reading : Resolving α) (a : α) : Prop :=
  ∃ count after, StateT.run reading count = .ok (a, after)

theorem gives_bind {next : α → Resolving β} (h : (reading >>= next).Gives b) :
    ∃ a, reading.Gives a ∧ (next a).Gives b := by
  obtain ⟨count, after, hrun⟩ := h
  rw [StateT.run_bind, bind_eq_ok] at hrun
  obtain ⟨⟨a, between⟩, hfirst, hnext⟩ := hrun
  exact ⟨a, ⟨count, between, hfirst⟩, ⟨between, after, hnext⟩⟩

theorem gives_pure {a' : α} : Gives (pure a) a' ↔ a = a' := by
  constructor
  · rintro ⟨count, after, hrun⟩
    cases hrun
    rfl
  · intro heq
    exact ⟨0, 0, congrArg (fun a => Except.ok (a, 0)) heq⟩

theorem not_gives_throw {fault : Fault} : ¬ Gives (throw fault : Resolving α) a := by
  rintro ⟨count, after, hrun⟩
  cases hrun

theorem gives_of_run (h : reading.run = .ok a) : reading.Gives a := by
  obtain ⟨⟨found, after⟩, hrun, heq⟩ := map_eq_ok.1 h
  cases heq
  exact ⟨0, after, hrun⟩

theorem exists_of_mem_mapM {γ : Type} {as : List γ} {read : γ → Resolving α} {found : List α}
    (h : Gives (as.mapM read) found) (hmem : a ∈ found) : ∃ c, (read c).Gives a := by
  induction as generalizing found with
  | nil =>
    rw [List.mapM_nil, gives_pure] at h
    subst h
    cases hmem
  | cons c as ih =>
    rw [List.mapM_cons] at h
    obtain ⟨first, hfirst, h⟩ := gives_bind h
    obtain ⟨rest, hrest, h⟩ := gives_bind h
    rw [gives_pure] at h
    subst h
    rcases List.mem_cons.1 hmem with rfl | hmem
    · exact ⟨c, hfirst⟩
    · exact ih hrest hmem

end Resolving

namespace Document

open Resolving

variable {α : Type} {document : Document} {node value : Node} {name : String}

/-- The node that a node stands for: itself, or the one that it is an alias of. -/
def target? (document : Document) : Node → Option Node
  | .alias number => document.anchors.node? number
  | node => some node

/-- The node is a mapping, and the value stands in it under a key with this text. -/
def HasField (document : Document) (node : Node) (name : String) (value : Node) : Prop :=
  ∃ tag pairs key keyTag style, document.target? node = some (.mapping tag pairs) ∧
    (key, value) ∈ pairs ∧ document.target? key = some (.scalar keyTag style name)

theorem target?_of_follow {found : Node} (h : (document.follow node).Gives found) :
    document.target? node = some found := by
  match node, h with
  | .alias number, h =>
    obtain ⟨-, -, h⟩ := gives_bind h
    obtain ⟨count, -, h⟩ := gives_bind h
    show document.anchors.node? number = some found
    split at h
    · exact absurd h not_gives_throw
    · split at h
      · next anchored hanchored =>
        rw [gives_pure] at h
        rw [hanchored, h]
      · exact absurd h not_gives_throw
  | .scalar .., h => exact congrArg some (gives_pure.1 h)
  | .sequence .., h => exact congrArg some (gives_pure.1 h)
  | .mapping .., h => exact congrArg some (gives_pure.1 h)

theorem target?_of_text {text : String} (h : (document.text node).Gives text) :
    ∃ tag style, document.target? node = some (.scalar tag style text) := by
  obtain ⟨found, hfollow, hread⟩ := gives_bind h
  split at hread
  · next tag style found =>
    rw [gives_pure] at hread
    exact ⟨tag, style, hread ▸ target?_of_follow hfollow⟩
  · exact absurd hread not_gives_throw

/-- The loop over the pairs of a mapping puts each known field under its name. -/
theorem lookup_foldlM {known : List String} {closed : Bool} {pairs : List (Node × Node)}
    {done fields : List (String × Node)}
    (h : Gives (pairs.foldlM (fun (done : List (String × Node)) (key, value) => do
      let name ← document.text key
      if !known.contains name then
        if closed then throw .unknownField else return done
      else if (done.lookup name).isSome then throw .repeatedField
      else return (name, value) :: done) done) fields)
    (hname : name ∈ known) : fields.lookup name = some value ↔ done.lookup name = some value ∨
      ∃ key tag style, (key, value) ∈ pairs ∧
        document.target? key = some (.scalar tag style name) := by
  induction pairs generalizing done with
  | nil =>
    rw [List.foldlM_nil, gives_pure] at h
    simp [h]
  | cons pair pairs ih =>
    obtain ⟨key, node⟩ := pair
    rw [List.foldlM_cons] at h
    obtain ⟨next, hstep, hrest⟩ := gives_bind h
    obtain ⟨text, htext, hstep⟩ := gives_bind hstep
    obtain ⟨tag, style, htarget⟩ := target?_of_text htext
    have hfirst : (∃ key' tag style, (key', value) ∈ (key, node) :: pairs ∧
        document.target? key' = some (.scalar tag style name)) ↔
        (name = text ∧ value = node) ∨ ∃ key tag style, (key, value) ∈ pairs ∧
          document.target? key = some (.scalar tag style name) := by
      constructor
      · rintro ⟨key', tag', style', hmem, htarget'⟩
        rcases List.mem_cons.1 hmem with heq | hmem
        · cases heq
          rw [htarget] at htarget'
          cases htarget'
          exact .inl ⟨rfl, rfl⟩
        · exact .inr ⟨key', tag', style', hmem, htarget'⟩
      · rintro (⟨rfl, rfl⟩ | ⟨key', tag', style', hmem, htarget'⟩)
        · exact ⟨key, tag, style, List.mem_cons_self, htarget⟩
        · exact ⟨key', tag', style', List.mem_cons_of_mem _ hmem, htarget'⟩
    rw [ih hrest, hfirst]
    by_cases hknown : text ∈ known
    · rw [if_neg (by simpa using hknown)] at hstep
      split at hstep
      · exact absurd hstep not_gives_throw
      · next hfree =>
        rw [gives_pure] at hstep
        rw [← hstep, List.lookup_cons]
        by_cases heq : name = text
        · subst heq
          have hnone : done.lookup name = none := Option.not_isSome_iff_eq_none.1 hfree
          simp [hnone, eq_comm]
        · simp [heq, beq_eq_false_iff_ne.2 heq]
    · have hne : name ≠ text := fun heq => hknown (heq ▸ hname)
      rw [if_pos (by simpa using hknown)] at hstep
      split at hstep
      · exact absurd hstep not_gives_throw
      · rw [gives_pure] at hstep
        simp [hstep, hne]

/-- The known fields are the values under their names. -/
theorem lookup_fields {known : List String} {closed : Bool} {fields : List (String × Node)}
    (h : (document.fields known closed node).Gives fields) (hname : name ∈ known) :
    fields.lookup name = some value ↔ document.HasField node name value := by
  obtain ⟨found, hfollow, hread⟩ := gives_bind h
  have htarget := target?_of_follow hfollow
  split at hread
  · next tag pairs =>
    rw [lookup_foldlM hread hname]
    simp [HasField, htarget]
  · rw [gives_pure] at hread
    simp [HasField, htarget, ← hread]
  · exact absurd hread not_gives_throw

/-- What is read from a field that may be missing. -/
theorem gives_orElse {fields : List (String × Node)} {other a : α} {read : Node → Resolving α}
    (h : (orElse fields name other read).Gives a) :
    (∃ node, fields.lookup name = some node ∧ (read node).Gives a) ∨
      (fields.lookup name = none ∧ a = other) := by
  unfold orElse at h
  split at h
  · next node hlookup => exact .inl ⟨node, hlookup, h⟩
  · next hlookup =>
    rw [gives_pure] at h
    exact .inr ⟨hlookup, h.symm⟩

theorem lt_of_natural {limit n : Nat} (h : (document.natural limit node).Gives n) : n < limit := by
  obtain ⟨text, -, hspelled⟩ := gives_bind h
  split at hspelled
  · next found hfound =>
    rw [gives_pure] at hspelled
    rw [← hspelled]
    unfold Literal.natural? at hfound
    dsimp only at hfound
    split at hfound
    · cases hfound
    · simpa using (Option.filter_eq_some_iff.1 hfound).2
  · exact absurd hspelled not_gives_throw

end Document

end ApiContract.Yaml
