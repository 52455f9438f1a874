import ApiContract.Pattern.Basic
import Mathlib.Data.List.Basic
/-!
# Patterns that describe whole texts

A pattern between the two ends of a text that begins with any number of characters from
a set is found in every text of such characters (`isFoundIn_whole`), whatever optional
part comes behind them.
-/

namespace ApiContract.Pattern.Tree

variable {text : Array Char} {state : State} {states : List State}

theorem mem_distinct : state ∈ distinct states ↔ state ∈ states := by
  have hkept (kept : List State) :
      state ∈ states.foldl (fun kept state => if kept.contains state then kept else state :: kept) kept ↔
        state ∈ kept ∨ state ∈ states := by
    induction states generalizing kept with
    | nil => simp
    | cons other rest ih =>
      rw [List.foldl_cons, ih]
      split
      · next hknown =>
        have hmem := List.contains_iff_mem.1 hknown
        grind
      · grind
  rw [distinct, List.mem_reverse, hkept]
  simp

/-- A repetition has the states that it begins with. -/
theorem current_mem_rounds (step : List State → List State) (seen current : List State) (bound : Nat) :
    current ∈ rounds step seen current bound := by
  cases bound with
  | zero => exact List.mem_singleton_self _
  | succ bound =>
    rw [rounds]
    split
    · exact List.mem_singleton_self _
    · exact List.mem_cons_self

theorem mem_reach_repetition {part : Tree} {extra : Option Nat} {greedy : Bool} {last : State}
    (hstate : state ∈ states)
    (hlast : last ∈ (rounds (reach text part) [state] [state] (extra.getD (text.size + 1))).flatten) :
    last ∈ reach text (repetition part 0 extra greedy) states := by
  cases extra with
  | none =>
    rw [reach, mem_distinct, List.mem_flatMap]
    exact ⟨state, hstate, by cases greedy <;> simpa using hlast⟩
  | some extra =>
    rw [reach, mem_distinct, List.mem_flatMap]
    exact ⟨state, hstate, by cases greedy <;> simpa using hlast⟩

/-- No repetition at all is one way to match. -/
theorem mem_reach_optional {part : Tree} {extra : Option Nat} {greedy : Bool} (hstate : state ∈ states) :
    state ∈ reach text (repetition part 0 extra greedy) states :=
  mem_reach_repetition hstate
    (List.mem_flatten.2 ⟨[state], current_mem_rounds _ _ _ _, List.mem_singleton_self _⟩)

theorem reach_char {set : CharSet} {position : Nat} (groups : List (Nat × Nat × Nat))
    (h : position < text.size) (hset : set.contains text[position] = true) :
    reach text (char set) [⟨position, groups⟩] = [⟨position + 1, groups⟩] := by
  simp [reach, h, hset, distinct]

/-- Character by character, a repetition comes to the end of the text. -/
theorem end_mem_rounds {set : CharSet} (hset : ∀ c ∈ text, set.contains c = true)
    {seen : List State} {position bound : Nat} (hbound : text.size ≤ position + bound)
    (hposition : position ≤ text.size) (hseen : ∀ state ∈ seen, state.position ≤ position) :
    ⟨text.size, []⟩ ∈ (rounds (reach text (char set)) seen [⟨position, []⟩] bound).flatten := by
  induction bound generalizing seen position with
  | zero =>
    obtain rfl : position = text.size := by omega
    exact List.mem_flatten.2 ⟨_, current_mem_rounds _ _ _ _, List.mem_singleton_self _⟩
  | succ bound ih =>
    rcases Nat.lt_or_eq_of_le hposition with hlt | rfl
    · have hnew : (seen.contains (⟨position + 1, []⟩ : State)) = false := by
        rw [List.contains_eq_mem, decide_eq_false_iff_not]
        exact fun hmem => absurd (hseen _ hmem) (Nat.not_succ_le_self position)
      rw [rounds, reach_char [] hlt (hset _ (Array.getElem_mem hlt))]
      simp only [List.filter_cons, List.filter_nil, hnew, Bool.not_false, if_true, List.isEmpty_cons,
        Bool.false_eq_true, if_false, List.flatten_cons, List.mem_append]
      refine .inr (ih (by omega) hlt fun state hstate => ?_)
      rcases List.mem_append.1 hstate with hstate | hstate
      · exact Nat.le_of_eq (congrArg State.position (List.mem_singleton.1 hstate))
      · exact Nat.le_succ_of_le (hseen state hstate)
    · exact List.mem_flatten.2 ⟨_, current_mem_rounds _ _ _ _, List.mem_singleton_self _⟩

/-- A text of characters from a set is all that such a pattern describes. -/
theorem isFoundIn_whole {set : CharSet} {part : Tree} {extra : Option Nat} {greedy greedy' : Bool}
    {text : String} (hset : ∀ c ∈ text.toList, set.contains c = true) :
    (sequence (anchor .textStart) (sequence (repetition (char set) 0 none greedy)
      (sequence (repetition part 0 extra greedy') (anchor .textEnd)))).isFoundIn text = true := by
  have hset' : ∀ c ∈ text.toList.toArray, set.contains c = true := fun c hc =>
    hset c (by simpa using hc)
  have hstart : (⟨0, []⟩ : State) ∈ ((List.range (text.toList.toArray.size + 1)).map
      fun position => (⟨position, []⟩ : State)).filter fun state =>
        holdsAt text.toList.toArray state.position .textStart := by
    rw [List.mem_filter, List.mem_map]
    exact ⟨⟨0, by simp, rfl⟩, by simp [holdsAt]⟩
  have hend : (⟨text.toList.toArray.size, []⟩ : State) ∈ (rounds (reach text.toList.toArray (char set))
      [⟨0, []⟩] [⟨0, []⟩] ((none : Option Nat).getD (text.toList.toArray.size + 1))).flatten :=
    end_mem_rounds hset' (by simp) (Nat.zero_le _) (by simp)
  rw [isFoundIn, Bool.not_eq_true', List.isEmpty_eq_false_iff_exists_mem]
  refine ⟨⟨text.toList.toArray.size, []⟩, ?_⟩
  rw [reach, reach, reach, reach, reach, List.mem_filter]
  exact ⟨mem_reach_optional (mem_reach_repetition hstart hend), by simp [holdsAt]⟩

end ApiContract.Pattern.Tree
