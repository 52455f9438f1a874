import ApiContract.Yaml.Lexer
/-!
# Nodes

The tree that a document is: scalars as written, sequences, mappings, and
aliases, which stand for a node that carries an anchor.

A document is made from its tokens by recursive descent (`Document.ofText`).
The tokens of a collection that is not indented deeper than the mapping
around it, and of pairs in brackets, leave out a part of their marks; a
value that is left out is an empty plain scalar.
-/

namespace ApiContract.Yaml

/-- A node.  The items of a mapping are pairs of a key and a value. -/
inductive Node where
  | alias (anchor : Nat)
  | scalar (tag : Option String) (style : ScalarStyle) (text : String)
  | sequence (tag : Option String) (items : List Node)
  | mapping (tag : Option String) (pairs : List (Node × Node))
deriving Inhabited

namespace Node

/-- What stands for a node that is left out. -/
def empty : Node := .scalar none .plain ""

mutual

/-- How many marks a node is made of: two for a collection and its items'
marks, one for any other node. -/
def weight : Node → Nat
  | .sequence _ items => weightOfItems items + 2
  | .mapping _ pairs => weightOfPairs pairs + 2
  | _ => 1

/-- The weights of the items together. -/
def weightOfItems : List Node → Nat
  | [] => 0
  | node :: rest => weight node + weightOfItems rest

/-- The weights of keys and values together. -/
def weightOfPairs : List (Node × Node) → Nat
  | [] => 0
  | (key, value) :: rest => weight key + weight value + weightOfPairs rest

end

end Node

/-- The anchors of a document.  Anchors have numbers, and an alias stands
for the last node whose anchor has its number. -/
structure Anchors where
  /-- The number of each name, the latest first. -/
  numbers : List (String × Nat)
  /-- How many different names there are. -/
  names : Nat
  /-- How many nodes have begun that carry an anchor. -/
  begun : Nat
  /-- Which of those nodes each number stands for, the latest first. -/
  starts : List (Nat × Nat)
  /-- Those of the nodes that are complete. -/
  nodes : List (Nat × Node)

namespace Anchors

/-- No anchors. -/
def empty : Anchors := ⟨[], 0, 0, [], []⟩

/-- Begins a node that carries an anchor.  Its number is that of names so
far. -/
def begin (anchors : Anchors) (name : String) : Anchors :=
  { anchors with
    numbers := (name, anchors.names) :: anchors.numbers
    names := if (anchors.numbers.lookup name).isSome then anchors.names else anchors.names + 1
    begun := anchors.begun + 1
    starts := (anchors.names, anchors.begun) :: anchors.starts }

/-- Completes the node that was the given one to begin. -/
def complete (anchors : Anchors) (start : Nat) (node : Node) : Anchors :=
  { anchors with nodes := (start, node) :: anchors.nodes }

/-- The node that an alias with the given number stands for. -/
def node? (anchors : Anchors) (number : Nat) : Option Node :=
  (anchors.starts.lookup number).bind fun start => anchors.nodes.lookup start

end Anchors

/-! ## From tokens to nodes -/

/-- The work on a document, which collects its anchors. -/
abbrev Composing : Type → Type := StateT Anchors (Except Fault)

namespace Composing

/-- The meanings of tag handles. -/
abbrev Handles : Type := List (String × String)

/-- The anchor and the tag before a node, in either order. -/
def readProperties : List Token → Option String × Option (String × String) × List Token
  | .anchor name :: .tag handle text :: rest => (some name, some (handle, text), rest)
  | .anchor name :: rest => (some name, none, rest)
  | .tag handle text :: .anchor name :: rest => (some name, some (handle, text), rest)
  | .tag handle text :: rest => (none, some (handle, text), rest)
  | rest => (none, none, rest)

/-- The tag that a handle and a rest make. -/
def resolveTag (handles : Handles) : Option (String × String) → Except Fault (Option String)
  | none => .ok none
  | some (handle, text) =>
    if handle = "" then .ok (some text)
    else
      match handles.lookup handle with
      | some expansion => .ok (some (expansion ++ text))
      | none => .error .unknownTagHandle

/-- Whether a token ends an item of a block sequence that has no node. -/
def endsBlockItem : List Token → Bool
  | .blockEntry :: _ => true
  | .blockEnd :: _ => true
  | _ => false

/-- Whether a token ends a key or a value that has no node, in a block
mapping. -/
def endsBlockPart : List Token → Bool
  | .key :: _ => true
  | .value :: _ => true
  | .blockEnd :: _ => true
  | _ => false

/-- Whether a token ends a key that has no node, in a flow collection. -/
def endsFlowKey (close : Token) : List Token → Bool
  | token :: _ => token = .value || token = .flowEntry || token = close
  | [] => false

/-- Whether a token ends a value that has no node, in a flow collection. -/
def endsFlowValue (close : Token) : List Token → Bool
  | token :: _ => token = .flowEntry || token = close
  | [] => false

mutual

/-- A node.  `block` allows blocks, and `indentless` a block sequence that
is not indented. -/
def readNode (handles : Handles) :
    Nat → (block indentless : Bool) → List Token → Composing (Node × List Token)
  | 0, _, _, _ => throw .unexpectedToken
  | bound + 1, block, indentless, tokens =>
    match tokens with
    | .alias name :: rest => do
      match (← get).numbers.lookup name with
      | some number => return (.alias number, rest)
      | none => throw .unknownAnchor
    | _ => do
      let (anchor, tag, rest) := readProperties tokens
      let tag ← resolveTag handles tag
      match anchor with
      | none => readContent handles bound block indentless (tag.isSome) tag rest
      | some name => do
        let start := (← get).begun
        modify (·.begin name)
        let (node, rest) ← readContent handles bound block indentless true tag rest
        modify (·.complete start node)
        return (node, rest)

/-- A node from behind its properties.  With properties it can be left
out. -/
def readContent (handles : Handles) :
    Nat → (block indentless hasProperties : Bool) → Option String → List Token →
      Composing (Node × List Token)
  | 0, _, _, _, _, _ => throw .unexpectedToken
  | bound + 1, block, indentless, hasProperties, tag, tokens => do
    let missing : Composing (Node × List Token) :=
      if hasProperties then return (.scalar tag .plain "", tokens) else throw .unexpectedToken
    match tokens with
    | .scalar style text :: rest =>
      return (.scalar (if tag = some "!" then none else tag) style text, rest)
    | .flowSequenceStart :: rest => do
      let (items, rest) ← readFlowItems handles bound true rest
      return (.sequence tag items, rest)
    | .flowMappingStart :: rest => do
      let (pairs, rest) ← readFlowPairs handles bound true rest
      return (.mapping tag pairs, rest)
    | .blockSequenceStart :: rest =>
      if block then do
        let (items, rest) ← readBlockItems handles bound rest
        return (.sequence tag items, rest)
      else missing
    | .blockMappingStart :: rest =>
      if block then do
        let (pairs, rest) ← readBlockPairs handles bound rest
        return (.mapping tag pairs, rest)
      else missing
    | .blockEntry :: _ =>
      if indentless then do
        let (items, rest) ← readIndentlessItems handles bound tokens
        return (.sequence tag items, rest)
      else missing
    | _ => missing

/-- The items of a block sequence, to its end. -/
def readBlockItems (handles : Handles) :
    Nat → List Token → Composing (List Node × List Token)
  | 0, _ => throw .unexpectedToken
  | bound + 1, .blockEntry :: rest => do
    let (item, rest) ←
      if endsBlockItem rest then pure (Node.empty, rest)
      else readNode handles bound true false rest
    let (items, rest) ← readBlockItems handles bound rest
    return (item :: items, rest)
  | _ + 1, .blockEnd :: rest => return ([], rest)
  | _ + 1, _ => throw .unexpectedToken

/-- The items of a block sequence that is not indented. -/
def readIndentlessItems (handles : Handles) :
    Nat → List Token → Composing (List Node × List Token)
  | 0, _ => throw .unexpectedToken
  | bound + 1, .blockEntry :: rest => do
    let (item, rest) ←
      if endsBlockItem rest || endsBlockPart rest then pure (Node.empty, rest)
      else readNode handles bound true false rest
    let (items, rest) ← readIndentlessItems handles bound rest
    return (item :: items, rest)
  | _ + 1, rest => return ([], rest)

/-- The pairs of a block mapping, to its end. -/
def readBlockPairs (handles : Handles) :
    Nat → List Token → Composing (List (Node × Node) × List Token)
  | 0, _ => throw .unexpectedToken
  | bound + 1, .key :: rest => do
    let (key, rest) ← readBlockPart handles bound rest
    let (value, rest) ← match rest with
      | .value :: rest => readBlockPart handles bound rest
      | rest => pure (Node.empty, rest)
    let (pairs, rest) ← readBlockPairs handles bound rest
    return ((key, value) :: pairs, rest)
  | _ + 1, .blockEnd :: rest => return ([], rest)
  | _ + 1, _ => throw .unexpectedToken

/-- A key or a value of a block mapping. -/
def readBlockPart (handles : Handles) : Nat → List Token → Composing (Node × List Token)
  | 0, _ => throw .unexpectedToken
  | bound + 1, tokens =>
    if endsBlockPart tokens then return (Node.empty, tokens)
    else readNode handles bound true true tokens

/-- The items of a flow sequence, to its end. -/
def readFlowItems (handles : Handles) :
    Nat → (first : Bool) → List Token → Composing (List Node × List Token)
  | 0, _, _ => throw .unexpectedToken
  | _ + 1, _, .flowSequenceEnd :: rest => return ([], rest)
  | bound + 1, first, tokens => do
    let tokens ← match first, tokens with
      | true, tokens => pure tokens
      | false, .flowEntry :: rest => pure rest
      | false, _ => throw .unexpectedToken
    match tokens with
    | .flowSequenceEnd :: rest => return ([], rest)
    | .key :: rest => do
      let (pair, rest) ← readFlowPair handles bound rest
      let (items, rest) ← readFlowItems handles bound false rest
      return (.mapping none [pair] :: items, rest)
    | tokens => do
      let (item, rest) ← readNode handles bound false false tokens
      let (items, rest) ← readFlowItems handles bound false rest
      return (item :: items, rest)

/-- A pair that is an item of a flow sequence, from behind the mark of its
key.  The token at the place of a key that is left out is passed over. -/
def readFlowPair (handles : Handles) :
    Nat → List Token → Composing ((Node × Node) × List Token)
  | 0, _ => throw .unexpectedToken
  | bound + 1, tokens => do
    let (key, rest) ←
      if endsFlowKey .flowSequenceEnd tokens then pure (Node.empty, tokens.tail)
      else readNode handles bound false false tokens
    let (value, rest) ← readFlowValue handles bound .flowSequenceEnd rest
    return ((key, value), rest)

/-- The value of a pair in a flow collection, if there is one. -/
def readFlowValue (handles : Handles) :
    Nat → (close : Token) → List Token → Composing (Node × List Token)
  | 0, _, _ => throw .unexpectedToken
  | bound + 1, close, .value :: rest =>
    if endsFlowValue close rest then return (Node.empty, rest)
    else readNode handles bound false false rest
  | _ + 1, _, rest => return (Node.empty, rest)

/-- The pairs of a flow mapping, to its end. -/
def readFlowPairs (handles : Handles) :
    Nat → (first : Bool) → List Token → Composing (List (Node × Node) × List Token)
  | 0, _, _ => throw .unexpectedToken
  | _ + 1, _, .flowMappingEnd :: rest => return ([], rest)
  | bound + 1, first, tokens => do
    let tokens ← match first, tokens with
      | true, tokens => pure tokens
      | false, .flowEntry :: rest => pure rest
      | false, _ => throw .unexpectedToken
    match tokens with
    | .flowMappingEnd :: rest => return ([], rest)
    | .key :: rest => do
      let (key, rest) ←
        if endsFlowKey .flowMappingEnd rest then pure (Node.empty, rest)
        else readNode handles bound false false rest
      let (value, rest) ← readFlowValue handles bound .flowMappingEnd rest
      let (pairs, rest) ← readFlowPairs handles bound false rest
      return ((key, value) :: pairs, rest)
    | tokens => do
      let (key, rest) ← readNode handles bound false false tokens
      let (pairs, rest) ← readFlowPairs handles bound false rest
      return ((key, Node.empty) :: pairs, rest)

end

end Composing

/-- A document: its root node, unless the text is empty, its anchors, and
how many marks it is made of. -/
structure Document where
  root : Option Node
  anchors : Anchors
  weight : Nat

namespace Document

open Composing

/-- The handles that every document knows. -/
def standardHandles : Handles := [("!", "!"), ("!!", "tag:yaml.org,2002:")]

/-- The directives before a document: the handles they declare and the
tokens after them. -/
def readDirectives (versioned : Bool) (handles : Handles) :
    List Token → Except Fault (Handles × List Token)
  | .version major minor :: rest =>
    if versioned then .error .repeatedDirective
    else if major ≠ 1 || (minor ≠ 1 && minor ≠ 2) then .error .unsupportedVersion
    else readDirectives true handles rest
  | .handle name expansion :: rest =>
    if (handles.lookup name).isSome then .error .repeatedDirective
    else readDirectives versioned ((name, expansion) :: handles) rest
  | rest => .ok (handles, rest)

/-- Whether what follows the start of a document is the next document, or
nothing. -/
def startsEmpty : List Token → Bool
  | [] => true
  | .version _ _ :: _ => true
  | .handle _ _ :: _ => true
  | .documentStart :: _ => true
  | .documentEnd :: _ => true
  | _ => false

/-- Whether a document starts with directives or a mark. -/
def startsExplicitly : List Token → Bool
  | .version _ _ :: _ => true
  | .handle _ _ :: _ => true
  | .documentStart :: _ => true
  | _ => false

/-- The document that tokens make.  There must be no second one. -/
def ofTokens (tokens : List Token) : Except Fault Document := do
  if tokens.isEmpty then return ⟨none, .empty, 1⟩
  let (handles, body) ← readDirectives false [] tokens
  let handles := handles ++ standardHandles
  let bound := 4 * tokens.length + 4
  let ((node, rest), anchors) ←
    match startsExplicitly tokens, body with
    | true, .documentStart :: body =>
      if startsEmpty body then pure ((Node.empty, body), Anchors.empty)
      else (readNode handles bound true false body).run .empty
    | true, _ => throw .unexpectedToken
    | false, body => (readNode handles bound true false body).run .empty
  match rest.dropWhile (· = .documentEnd) with
  | [] => return ⟨some node, anchors, node.weight⟩
  | _ => throw .severalDocuments

/-- The document that a text is. -/
def ofText (text : String) : Except Fault Document := do
  ofTokens (← tokens text)

end Document

end ApiContract.Yaml
