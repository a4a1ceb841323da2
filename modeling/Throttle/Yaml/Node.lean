import Throttle.Yaml.Revision11.Token
import Throttle.Yaml.Revision12.Token

/-!
# Nodes

A YAML document as a tree of nodes.  An alias stays in the tree as a reference to the number
of an anchor, which may belong to a node that the alias is part of; `Document.follow` leads
from the alias to the node.

In revision 1.2 every anchor has a number of its own.  In revision 1.1 a new anchor takes
the number of anchors that are known by name, so an anchor whose name is used again shares
its number with the next one, and the number means the node that begins last.
-/

namespace Throttle.Yaml

/-- A tag: what its handle stands for, and what is written behind the handle. -/
structure Tag where
  beginning : String
  suffix : String
deriving DecidableEq, Repr

/-- The text of a tag. -/
def Tag.text (tag : Tag) : String := tag.beginning ++ tag.suffix

/-- A part of a document. -/
inductive Node where
  | scalar (style : Style) (tag : Option Tag) (text : String)
  | sequence (tag : Option Tag) (items : List Node)
  | mapping (tag : Option Tag) (entries : List (Node × Node))
  /-- The node with the anchor of a number; the alias may be a part of it. -/
  | alias (anchor : Nat) (isPart : Bool)
deriving Repr

namespace Node

/-- The node of which nothing is written but an anchor or a tag. -/
def empty (tag : Option Tag) : Node := scalar .plain tag ""

/-- The node where nothing is written at all.  In revision 1.2 it is the sign for null. -/
def absent : Revision → Node
  | .v11 => empty none
  | .v12 => scalar .plain none "~"

end Node

/-- A node with an anchor. -/
structure AnchoredNode where
  number : Nat
  /-- How many nodes with anchors begin before it. -/
  rank : Nat
  node : Node

/-- A document: its root, if there is anything at all, and the nodes with anchors in the
order in which they end. -/
structure Document where
  root : Option Node
  anchored : List AnchoredNode

/-- The node with the anchor of a number: of several the one that begins last. -/
def Document.anchoredNode? (document : Document) (number : Nat) : Option Node :=
  let named := document.anchored.filter fun anchored => anchored.number = number
  let latest := named.mergeSort fun first second => decide (second.rank ≤ first.rank)
  latest.head?.map AnchoredNode.node

/-- The node that is meant: for an alias, the one with the anchor. -/
def Document.follow (document : Document) : Node → Option Node
  | .alias number _ => document.anchoredNode? number
  | node => some node

/-- What is known in the middle of a document. -/
structure NodeDraft where
  revision : Revision
  rest : List Token
  /-- What the handles of tags stand for. -/
  handles : List (String × String)
  /-- The numbers of the anchors by name, the last one first. -/
  anchors : List (String × Nat)
  /-- The nodes with anchors that are complete, in the order in which they end. -/
  anchored : List AnchoredNode

/-- The handles that need no directive. -/
def standardHandles : List (String × String) :=
  [("", ""), ("!", "!"), ("!!", "tag:yaml.org,2002:")]

/-- The draft before the first token. -/
def NodeDraft.start (revision : Revision) (tokens : List Token) : NodeDraft :=
  ⟨revision, tokens, standardHandles, [], []⟩

/-- The number that a new anchor takes. -/
def NodeDraft.nextNumber (draft : NodeDraft) : Nat :=
  match draft.revision with
  | .v11 => (draft.anchors.map Prod.fst).eraseDups.length
  | .v12 => draft.anchors.length

/-- Actions that take tokens and build nodes, or find the text wrong. -/
abbrev Assemble := StateT NodeDraft Option

/-- Where a node stands. -/
inductive Position where
  /-- Between brackets. -/
  | inFlow
  /-- In a block, as an item or as a whole document. -/
  | inSequence
  /-- In a block, as a key or a value; the dashes of a sequence need not be indented. -/
  | inMapping
deriving DecidableEq, Repr

namespace Assemble

/-- Whether the next token is one of some. -/
def isNext (tokens : List Token) : Assemble Bool :=
  return (← get).rest.head?.any tokens.contains

/-- Take the next token. -/
def next : Assemble Token := do
  let draft ← get
  match draft.rest with
  | [] => failure
  | token :: rest =>
    set { draft with rest }
    return token

/-- Take the next token if it is a certain one. -/
def accept (token : Token) : Assemble Bool := do
  if ← isNext [token] then
    let _ ← next
    return true
  else return false

/-- Take the next token, which has to be a certain one. -/
def expect (token : Token) : Assemble Unit := do
  if !(← accept token) then failure

/-- Collect what a step yields, for as long as there are tokens. -/
def collect {β : Type} (step : Assemble (Option β)) : Assemble (List β) := do
  Text.collectAtMost step ((← get).rest.length + 1)

/-- Take an anchor if one is next. -/
def takeAnchor : Assemble (Option String) := do
  match (← get).rest.head? with
  | some (.anchor name) =>
    let _ ← next
    return some name
  | _ => return none

/-- Take a tag if one is next, its handle replaced by what it stands for. -/
def takeTag : Assemble (Option Tag) := do
  match (← get).rest.head? with
  | some (.tag handle suffix) =>
    let _ ← next
    let beginning ← StateT.lift ((← get).handles.lookup handle)
    return some ⟨beginning, suffix⟩
  | _ => return none

/-- Name a new anchor, and tell its number and how many there were before. -/
def nameAnchor (name : String) : Assemble (Nat × Nat) := do
  let draft ← get
  let number := draft.nextNumber
  set { draft with anchors := (name, number) :: draft.anchors }
  return (number, draft.anchors.length)

/-- The node where nothing is written. -/
def absent : Assemble Node := return .absent (← get).revision

/-- Take a node, unless the next token says that nothing is written here. -/
def takeOrAbsent (node : Position → Assemble Node) (position : Position) (ends : List Token) :
    Assemble Node := do
  if ← isNext ends then absent else node position

/-- Take the items of a sequence with dashes; a dash, an end or no token at all says that an
item is empty. -/
def takeEntries (node : Position → Assemble Node) (ends : List Token) : Assemble (List Node) :=
  collect do
    if ← accept .blockEntry then
      return some (← takeOrAbsent node .inSequence (.blockEntry :: ends))
    else return none

/-- Take the value behind a key, if there is a colon. -/
def takeValue (node : Position → Assemble Node) (position : Position) (ends : List Token) :
    Assemble Node := do
  if ← accept .value then takeOrAbsent node position ends else absent

/-- Whether a value comes next that has no key before it, which revision 1.2 allows. -/
def isKeyless : Assemble Bool := do
  let isValue ← isNext [.value]
  return isValue && (← get).revision = .v12

/-- Take the entries of a mapping in a block. -/
def takeBlockPairs (node : Position → Assemble Node) : Assemble (List (Node × Node)) :=
  collect do
    let ends := [Token.key, .value, .blockEnd]
    if ← accept .key then
      let key ← takeOrAbsent node .inMapping ends
      return some (key, ← takeValue node .inMapping ends)
    else if ← isKeyless then return some (← absent, ← takeValue node .inMapping ends)
    else return none

/-- Take the items of a collection in brackets, with commas between them and perhaps one at
the end, and the closing bracket. -/
def takeFlow {β : Type} (item : Assemble β) (close : Token) : Assemble (List β) := do
  let items : StateT Bool Assemble (Option β) := do
    if ← accept close then return none
    if ← get then
      expect .flowEntry
      if ← accept close then return none
    set true
    return some (← item)
  let (items, _) ← (Text.collectAtMost items ((← get).rest.length + 1)).run false
  return items

/-- Take the key of an item between square brackets.  Where none is written, the token that
shows it is taken along. -/
def takeItemKey (node : Position → Assemble Node) : Assemble Node := do
  if ← isNext [.value, .flowEntry, .flowSequenceEnd] then
    let _ ← next
    absent
  else node .inFlow

/-- Take an item between square brackets; a key with a value is a mapping of one entry. -/
def takeFlowItem (node : Position → Assemble Node) : Assemble Node := do
  if ← accept .key then
    let key ← takeItemKey node
    let value ← takeValue node .inFlow [.flowEntry, .flowSequenceEnd]
    return .mapping none [(key, value)]
  else node .inFlow

/-- Take an entry between curly brackets; something that is no key has no value. -/
def takeFlowPair (node : Position → Assemble Node) : Assemble (Node × Node) := do
  let ends := [Token.flowEntry, .flowMappingEnd]
  if ← accept .key then
    let key ← takeOrAbsent node .inFlow (.value :: ends)
    return (key, ← takeValue node .inFlow ends)
  else if ← isKeyless then return (← absent, ← takeValue node .inFlow ends)
  else return (← node .inFlow, ← absent)

/-- Take a node's own content behind its anchor and its tag. -/
def takeContent (node : Position → Assemble Node) (position : Position) (tag : Option Tag)
    (mayBeEmpty : Bool) : Assemble Node := do
  let isBlock := position ≠ .inFlow
  match (← get).rest.head? with
  | some .blockEntry =>
    if position = .inMapping then
      return .sequence tag (← takeEntries node [.key, .value, .blockEnd])
    else if mayBeEmpty then return .empty tag
    else failure
  | some (.scalar style text) =>
    let _ ← next
    return .scalar style tag text
  | some .flowSequenceStart =>
    let _ ← next
    return .sequence tag (← takeFlow (takeFlowItem node) .flowSequenceEnd)
  | some .flowMappingStart =>
    let _ ← next
    return .mapping tag (← takeFlow (takeFlowPair node) .flowMappingEnd)
  | some .blockSequenceStart =>
    if !isBlock then failure
    let _ ← next
    let items ← takeEntries node [.blockEnd]
    expect .blockEnd
    return .sequence tag items
  | some .blockMappingStart =>
    if !isBlock then failure
    let _ ← next
    let entries ← takeBlockPairs node
    expect .blockEnd
    return .mapping tag entries
  | _ => if mayBeEmpty then return .empty tag else failure

/-- Take a node that is nested at most so deep. -/
def takeNode : Nat → Position → Assemble Node
  | 0, _ => failure
  | depth + 1, position => do
    match (← get).rest.head? with
    | some (.alias name) =>
      let _ ← next
      let number ← StateT.lift ((← get).anchors.lookup name)
      return .alias number ((← get).anchored.all (·.number ≠ number))
    | _ =>
      -- the anchor may stand on either side of the tag
      let before ← takeAnchor
      let tag ← takeTag
      let anchor ← if before.isSome then pure before else takeAnchor
      let mayBeEmpty := anchor.isSome || tag.isSome
      match anchor with
      | some name =>
        -- named before its content is read, which may refer to it
        let (number, rank) ← nameAnchor name
        let node ← takeContent (takeNode depth) position tag mayBeEmpty
        modify fun draft =>
          { draft with anchored := draft.anchored ++ [⟨number, rank, node⟩] }
        return node
      | none => takeContent (takeNode depth) position tag mayBeEmpty

/-- Give a handle a meaning.  In revision 1.1 each handle may be given one, in revision 1.2
only the last directive counts. -/
def declare (handle expansion : String) (declared : List String) : Assemble Unit := do
  let draft ← get
  match draft.revision with
  | .v11 =>
    if declared.contains handle then failure
    set { draft with handles := (handle, expansion) :: draft.handles }
  | .v12 => set { draft with handles := (handle, expansion) :: standardHandles }

/-- Take the version that a directive names, which may be done once.  Revision 1.2 takes any
version for its own. -/
def declareVersion (isKnown isSecond : Bool) : Assemble Unit := do
  let draft ← get
  if isSecond || !isKnown then failure
  if draft.revision = .v12 then set { draft with handles := standardHandles }

/-- Take the directives before a document, and tell whether there are any. -/
def takeDirectives : Assemble Bool := do
  let step : StateT (Bool × List String) Assemble (Option Unit) := do
    let (hasVersion, declared) ← get
    match (← getThe NodeDraft).rest.head? with
    | some (.version isKnown) =>
      let _ ← next
      declareVersion isKnown hasVersion
      set (true, declared)
      return some ()
    | some (.tagHandle handle expansion) =>
      let _ ← next
      declare handle expansion declared
      set (hasVersion, handle :: declared)
      return some ()
    | _ => return none
  let (directives, _) ← (Text.collectAtMost step ((← get).rest.length + 1)).run (false, [])
  return !directives.isEmpty

/-- Take the marks behind a document. -/
def takeDocumentEnds : Assemble Unit := do
  let _ ← collect do if ← accept .documentEnd then return some () else return none

/-- Take the only document of a text.  In revision 1.2 marks of an end may stand before it. -/
def takeDocument : Assemble (Option Node) := do
  if (← get).revision = .v12 then takeDocumentEnds
  let hasDirectives ← takeDirectives
  let isMarked ← accept .documentStart
  if hasDirectives && !isMarked then failure
  let tokens := (← get).rest
  let root ←
    if tokens.isEmpty && !isMarked then pure none
    else if isMarked && (tokens.isEmpty || (← isNext [.documentStart, .documentEnd])) then
      some <$> absent
    else some <$> takeNode (tokens.length + 1) .inSequence
  takeDocumentEnds
  if !(← get).rest.isEmpty then failure
  return root

end Assemble

namespace Document

/-- The tokens of a text in a revision. -/
def tokens? : Revision → String → Option (List Token)
  | .v11 => Revision11.tokens?
  | .v12 => Revision12.tokens?

/-- The document that a text holds, if it holds one and no more. -/
def read? (revision : Revision) (text : String) : Option Document := do
  let tokens ← tokens? revision text
  let (root, draft) ← Assemble.takeDocument.run (.start revision tokens)
  return ⟨root, draft.anchored⟩

end Document

end Throttle.Yaml
