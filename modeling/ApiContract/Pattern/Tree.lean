import ApiContract.Pattern.CharSet
/-!
# Matching

The tree of a pattern and the states that a match can reach.  A state is a
position in the text and the extents of the groups.  `Tree.reach` takes the
states in which a part may begin to the states in which it may end, earlier
ones preferred, and it names no state twice; a repetition adds states until
none is new.
-/

namespace ApiContract.Pattern

/-- A condition on a position. -/
inductive Anchor where
  | textStart
  | textEnd
  | lineStart
  | lineEnd
  | wordBoundary
  | notWordBoundary
  | wordStart
  | wordEnd
deriving DecidableEq

/-- A pattern. -/
inductive Tree where
  | empty
  | char (set : CharSet)
  | anchor (condition : Anchor)
  | sequence (a b : Tree)
  | choice (a b : Tree)
  /-- `least` repetitions and up to `extra` more, or any number more. -/
  | repetition (part : Tree) (least : Nat) (extra : Option Nat) (greedy : Bool)
  | group (index : Nat) (part : Tree)
  /-- Only the preferred way to match counts. -/
  | atomic (part : Tree)
  /-- Holds where `part` matches from here on, or fails to. -/
  | ahead (negated : Bool) (part : Tree)
  /-- Holds where `part`, which has a fixed length, matches up to here, or
  fails to. -/
  | behind (negated : Bool) (length : Nat) (part : Tree)
  /-- The text of a group once more. -/
  | again (ignoreCase : Bool) (index : Nat)
deriving Inhabited

/-- How far a match has come. -/
structure State where
  position : Nat
  groups : List (Nat × Nat × Nat)
deriving DecidableEq

namespace Tree

/-- Whether the character at a position belongs to a word. -/
def isWordAt (text : Array Char) (position : Nat) : Bool :=
  match text[position]? with
  | some c => CharSet.word.contains c
  | none => false

/-- Whether a condition holds at a position. -/
def holdsAt (text : Array Char) (position : Nat) : Anchor → Bool
  | .textStart => position = 0
  | .textEnd => position = text.size
  | .lineStart => position = 0 || text[position - 1]? = some '\n'
  | .lineEnd => position = text.size || text[position]? = some '\n'
  | .wordBoundary => wordBefore != isWordAt text position
  | .notWordBoundary => wordBefore == isWordAt text position
  | .wordStart => !wordBefore && isWordAt text position
  | .wordEnd => wordBefore && !isWordAt text position
where
  /-- Whether a word character stands before the position. -/
  wordBefore : Bool := position ≠ 0 && isWordAt text (position - 1)

/-- A list without later copies of its elements. -/
def distinct (states : List State) : List State :=
  (states.foldl (fun kept state => if kept.contains state then kept else state :: kept)
    []).reverse

/-- The states that `step` reaches in any number of rounds, round by round.
A round that brings nothing new ends it. -/
def rounds (step : List State → List State) (seen current : List State) :
    Nat → List (List State)
  | 0 => [current]
  | bound + 1 =>
    let next := (step current).filter fun state => !seen.contains state
    if next.isEmpty then [current] else current :: rounds step (next ++ seen) next bound

/-- A step taken a fixed number of times. -/
def times (step : List State → List State) : Nat → List State → List State
  | 0, states => states
  | n + 1, states => times step n (step states)

/-- Whether two characters are equal, or equal but for case. -/
def sameChar (ignoreCase : Bool) (c d : Char) : Bool :=
  c = d || (ignoreCase && Unicode.fold c = Unicode.fold d)

/-- Whether the same text stands at two places. -/
def sameText (ignoreCase : Bool) (text : Array Char) (a b : Nat) : Nat → Bool
  | 0 => true
  | n + 1 =>
    match text[a]?, text[b]? with
    | some c, some d => sameChar ignoreCase c d && sameText ignoreCase text (a + 1) (b + 1) n
    | _, _ => false

/-- The states after matching a pattern from each of the given states. -/
def reach (text : Array Char) : Tree → List State → List State
  | empty, states => states
  | char set, states =>
    distinct <| states.filterMap fun state =>
      match text[state.position]? with
      | some c => if set.contains c then some { state with position := state.position + 1 } else none
      | none => none
  | anchor condition, states => states.filter fun state => holdsAt text state.position condition
  | sequence a b, states => reach text b (reach text a states)
  | choice a b, states => distinct (states.flatMap fun state =>
      reach text a [state] ++ reach text b [state])
  | repetition part least extra greedy, states =>
    let start := times (reach text part) least states
    let bound := match extra with
      | some n => n
      | none => text.size + 1
    distinct <| start.flatMap fun state =>
      let levels := rounds (reach text part) [state] [state] bound
      (if greedy then levels.reverse else levels).flatten
  | group index part, states =>
    distinct <| states.flatMap fun state =>
      (reach text part [state]).map fun after =>
        { after with groups := (index, state.position, after.position) ::
            after.groups.filter (·.1 ≠ index) }
  | atomic part, states =>
    distinct <| states.flatMap fun state => (reach text part [state]).take 1
  | ahead negated part, states =>
    states.filter fun state => (reach text part [state]).isEmpty = negated
  | behind negated length part, states =>
    states.filter fun state =>
      let ends :=
        if length ≤ state.position then
          (reach text part [{ state with position := state.position - length }]).filter
            (·.position = state.position)
        else []
      ends.isEmpty = negated
  | again ignoreCase index, states =>
    distinct <| states.filterMap fun state =>
      match state.groups.lookup index with
      | some (first, last) =>
        if sameText ignoreCase text first state.position (last - first) then
          some { state with position := state.position + (last - first) }
        else none
      | none => none

/-- Whether the pattern matches somewhere in a text. -/
def isFoundIn (tree : Tree) (text : String) : Bool :=
  let chars := text.toList.toArray
  let starts := (List.range (chars.size + 1)).map fun position => (⟨position, []⟩ : State)
  !(reach chars tree starts).isEmpty

/-- The length of every match, if there is only one length. -/
def length? : Tree → Option Nat
  | empty | anchor _ | ahead _ _ | behind _ _ _ => some 0
  | char _ => some 1
  | sequence a b => do return (← a.length?) + (← b.length?)
  | choice a b => do
    let n ← a.length?
    let m ← b.length?
    if n = m then some n else none
  | repetition part least extra _ =>
    if extra = some 0 then part.length?.map (least * ·) else none
  | group _ part | atomic part => part.length?
  | again _ _ => none

end Tree

end ApiContract.Pattern
