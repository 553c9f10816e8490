import CodecChain.Yaml.Node.Basic

/-
  This file defines the building of a document from tokens.
  The collections that are open are a stack of frames, each
  of which waits for its next token or node.

  Key definitions include:
    * `Yaml.Frame`
    * `Yaml.Frame.accept?`
    * `Yaml.Frame.put?`
    * `Yaml.Builder`
    * `Yaml.Builder.step?`
    * `Yaml.Document.ofTokens?`
-/

namespace CodecChain.Yaml

------------------------------------------------------------
-- Frames
------------------------------------------------------------

/-
  The ways in which a sequence is written: on lines, on lines
  in the column of the key before it, or within brackets.
-/
inductive SequenceForm where
  | block
  | bare
  | flow
deriving DecidableEq, Repr

/-
  The ways in which a mapping is written: on lines, within
  brackets, or as one entry that is an item within brackets.
-/
inductive MappingForm where
  | block
  | flow
  | pair
deriving DecidableEq, Repr

/-
  What a collection waits for: a mark or its end, an item of a
  sequence, an entry of a mapping within brackets, or the key,
  the mark after it or the value of an entry.
-/
inductive Stage where
  | mark
  | item
  | entry
  | key
  | colon
  | value
deriving DecidableEq, Repr

/-
  What a document waits for: directives or its beginning, its
  beginning after directives, its node, or its end.
-/
inductive DocumentStage where
  | opening
  | directed
  | content
  | ended
deriving DecidableEq, Repr

/-
  A collection that is open, with its items or entries so far,
  the last one first, or the document around them all. The
  key of a mapping is that of the entry that has begun.
-/
inductive Frame where
  | document (stage : DocumentStage) (root : Node)
  | sequence
      (form : SequenceForm)
      (stage : Stage)
      (tag : Option Text)
      (items : List Node)
  | mapping
      (form : MappingForm)
      (stage : Stage)
      (tag : Option Text)
      (key : Node)
      (entries : List (Node × Node))

namespace Frame

/- A frame that waits for a node. -/
def takesNode : Frame → Bool
  | document stage _ => stage = .opening || stage = .content
  | sequence _ stage _ _ => stage = .item
  | mapping _ stage _ _ _ =>
      stage = .entry || stage = .key || stage = .value

/- A frame with the node that it waits for. -/
def accept? (node : Node) : Frame → Option Frame
  | document .opening _ => some (document .ended node)
  | document .content _ => some (document .ended node)
  | sequence form .item tag items =>
      some (sequence form .mark tag (node :: items))
  | mapping form .entry tag _ entries =>
      some (mapping form .mark tag node ((node, .empty) :: entries))
  | mapping form .key tag _ entries =>
      some (mapping form .colon tag node entries)
  | mapping form .value tag key entries =>
      some (mapping form .mark tag key ((key, node) :: entries))
  | _ => none

/- The node of a collection that ends. -/
def node : Frame → Node
  | document _ root => root
  | sequence _ _ tag items => .sequence tag items.reverse
  | mapping _ _ tag _ entries => .mapping tag entries.reverse

/- An entry within brackets ends with its value. -/
def isWhole : Frame → Bool
  | mapping .pair .mark _ _ _ => true
  | _ => false

/- The frames with the node that the innermost waits for. -/
def put? (node : Node) : List Frame → Option (List Frame)
  | [] => none
  | frame :: frames => do
      let frame ← frame.accept? node
      if frame.isWhole then
        put? frame.node frames
      else
        pure (frame :: frames)

/- The frames without the innermost, which ends. -/
def pop? : List Frame → Option (List Frame)
  | [] => none
  | frame :: frames => put? frame.node frames

/-
  A token before which a node is left out, so that there is
  an empty one.
-/
def skipsAt (token : Token) : Frame → Bool
  | document .content _ =>
      match token with
      | .version _ _ | .handle _ _ => true
      | .documentStart | .documentEnd => true
      | _ => false
  | sequence .block .item _ _ =>
      token = .item || token = .blockEnd
  | sequence .bare .item _ _ =>
      token = .item || token = .key || token = .value ||
        token = .blockEnd
  | mapping .block .key _ _ _ | mapping .block .value _ _ _ =>
      token = .key || token = .value || token = .blockEnd
  | mapping .flow .key _ _ _ =>
      token = .value || token = .comma || token = .mappingClose
  | mapping .flow .value _ _ _ =>
      token = .comma || token = .mappingClose
  | mapping .pair .key _ _ _ =>
      token = .value || token = .comma || token = .sequenceClose
  | mapping .pair .value _ _ _ =>
      token = .comma || token = .sequenceClose
  | _ => false

/-
  Within brackets, an entry without a key takes the token
  before which the key is left out.
-/
def swallows (token : Token) (frame : Frame) : Bool :=
  match frame with
  | mapping .pair .key _ _ _ => frame.skipsAt token
  | _ => false

/- A frame in which a sequence on lines needs no column. -/
def takesBare : Frame → Bool
  | mapping .block stage _ _ _ => stage = .key || stage = .value
  | _ => false

/-
  A frame with the mark that a token is for it. Entries within
  brackets that are items begin a frame of their own.
-/
def mark? (token : Token) : Frame → Option (List Frame)
  | sequence .flow .item tag items =>
      if token = .key then
        some [mapping .pair .key none .empty [],
          sequence .flow .item tag items]
      else
        none
  | sequence form .mark tag items =>
      let mark := if form = .flow then .comma else .item
      if token = mark then
        some [sequence form .item tag items]
      else
        none
  | mapping .block .mark tag key entries =>
      if token = .key then
        some [mapping .block .key tag key entries]
      else
        none
  | mapping .flow .mark tag key entries =>
      if token = .comma then
        some [mapping .flow .entry tag key entries]
      else
        none
  | mapping .flow .entry tag key entries =>
      if token = .key then
        some [mapping .flow .key tag key entries]
      else
        none
  | mapping form .colon tag key entries =>
      if token = .value then
        some [mapping form .value tag key entries]
      else
        none
  | _ => none

/- A token ends a frame. -/
def endsAt (token : Token) : Frame → Bool
  | sequence .block .mark _ _ => token = .blockEnd
  | sequence .flow stage _ _ =>
      token = .sequenceClose && (stage = .mark || stage = .item)
  | mapping .block .mark _ _ _ => token = .blockEnd
  | mapping .flow stage _ _ _ =>
      token = .mappingClose && (stage = .mark || stage = .entry)
  | _ => false

end Frame

------------------------------------------------------------
-- Labels
------------------------------------------------------------

/- The labels before a node. -/
structure Labels where
  anchor : Option Text
  tag : Option Text
deriving DecidableEq, Repr

/- No labels. -/
def Labels.none : Labels where
  anchor := .none
  tag := .none

/-
  The names of anchors with their numbers, and what the
  numbers stand for.
-/
structure Anchors where
  names : List (Text × Nat)
  nodes : List (Nat × Option Scalar)
deriving DecidableEq, Repr

namespace Anchors

/- The number that a name has. -/
def number? (a : Anchors) (name : Text) : Option Nat :=
  (a.names.find? fun entry => entry.1 = name).map (·.2)

/-
  The anchors with a name for a node. Its number is that of
  the names before, whether it is new or not.
-/
def add
    (a : Anchors)
    (name : Text)
    (node : Option Scalar) : Anchors :=
  let number := a.names.length
  { names :=
      (name, number) :: a.names.filter fun entry =>
        entry.1 ≠ name
    nodes := (number, node) :: a.nodes }

end Anchors

------------------------------------------------------------
-- Builders
------------------------------------------------------------

/-
  The state between two tokens: the frames, the innermost
  first, the labels of the node to come, the anchors, and what
  directives have said of handles and of the version.
-/
structure Builder where
  frames : List Frame
  labels : Labels
  anchors : Anchors
  handles : List (Text × Text)
  hasVersion : Bool

namespace Builder

/- The state before the first token. -/
def start : Builder where
  frames := [.document .opening .empty]
  labels := .none
  anchors := { names := [], nodes := [] }
  handles := []
  hasVersion := false

/- The innermost frame has the given property. -/
def top (b : Builder) (p : Frame → Bool) : Bool :=
  b.frames.head?.any p

/- The state with a node, which is named if it has an anchor. -/
def name (b : Builder) (node : Option Scalar) : Builder :=
  let anchors :=
    match b.labels.anchor with
    | some name => b.anchors.add name node
    | none => b.anchors
  { b with labels := .none, anchors := anchors }

/- The state after a node that has no labels. -/
def put? (b : Builder) (node : Node) : Option Builder := do
  let frames ← Frame.put? node b.frames
  pure { b with frames := frames }

/-
  The state after a scalar. The tag that is just its mark does
  not count, unless nothing comes after it.
-/
def scalar? (b : Builder) (style : Style) (t : Text) :
    Option Builder :=
  let tag := b.labels.tag.filter (· ≠ ['!'])
  let s : Scalar := { tag := tag, style := style, text := t }
  (b.name (some s)).put? (.scalar s)

/- The state after nothing where a node has labels. -/
def nothing? (b : Builder) : Option Builder :=
  let s : Scalar := { Scalar.empty with tag := b.labels.tag }
  (b.name (some s)).put? (.scalar s)

/- The state after the beginning of a collection. -/
def open? (b : Builder) (frame : Option Text → Frame) :
    Option Builder :=
  if b.top Frame.takesNode then
    let frames := frame b.labels.tag :: b.frames
    some { b.name none with frames := frames }
  else
    none

------------------------------------------------------------
-- Missing Nodes
------------------------------------------------------------

/- A token that can come after the labels before it. -/
def continues (b : Builder) : Token → Bool
  | .scalar _ _ => true
  | .sequenceBlock | .mappingBlock => true
  | .sequenceOpen | .mappingOpen => true
  | .anchor _ => b.labels.anchor.isNone
  | .tag _ _ => b.labels.tag.isNone
  | .item => b.top Frame.takesBare
  | _ => false

/-
  The state with the empty node that labels belong to, if the
  token does not go on with them, or that is left out.
-/
def fill? (b : Builder) (token : Token) : Option Builder :=
  if b.labels ≠ .none then
    if b.continues token then some b else b.nothing?
  else if b.top (Frame.skipsAt token) then
    b.put? .empty
  else
    some b

/- The state without a sequence that ends without a mark. -/
def endBare? (b : Builder) (token : Token) : Option Builder :=
  match b.frames with
  | .sequence .bare .mark _ _ :: _ =>
      if token = .item then
        some b
      else do
        let frames ← Frame.pop? b.frames
        pure { b with frames := frames }
  | _ => some b

/- The state with the empty value of a key that stands alone. -/
def endKey? (b : Builder) (token : Token) : Option Builder :=
  match b.frames with
  | .mapping form .colon tag key entries :: frames =>
      if token = .value then
        some b
      else
        let frame := .mapping form .value tag key entries
        { b with frames := frame :: frames }.put? .empty
  | _ => some b

------------------------------------------------------------
-- Directives
------------------------------------------------------------

/- The handles that need no directive. -/
def commonHandles : List (Text × Text) :=
  [(['!'], ['!']),
   (['!', '!'], .ofString "tag:yaml.org,2002:")]

/- The tag that a handle and the rest of a name stand for. -/
def tag? (b : Builder) (handle suffix : Text) : Option Text :=
  if handle = [] then
    some suffix
  else
    ((b.handles ++ commonHandles).find? fun entry =>
      entry.1 = handle).map fun entry => entry.2 ++ suffix

/- The state after a directive. -/
def direct? (b : Builder) : Token → Option Builder
  | .version major minor =>
      if b.hasVersion || major ≠ 1 || (minor ≠ 1 && minor ≠ 2) then
        none
      else
        some { b with hasVersion := true }
  | .handle handle address =>
      if b.handles.any fun entry => entry.1 = handle then
        none
      else
        some { b with handles := (handle, address) :: b.handles }
  | _ => none

/- The state after a token about the document as a whole. -/
def document?
    (b : Builder)
    (token : Token)
    (stage : DocumentStage) : Option Builder :=
  match token, stage with
  | .documentStart, .opening | .documentStart, .directed =>
      some { b with frames := [.document .content .empty] }
  | .documentEnd, .ended => some b
  | .version _ _, .opening | .version _ _, .directed
  | .handle _ _, .opening | .handle _ _, .directed => do
      let b ← b.direct? token
      pure { b with frames := [.document .directed .empty] }
  | _, _ => none

------------------------------------------------------------
-- Tokens
------------------------------------------------------------

/- The state after a mark or an end of a collection. -/
def mark? (b : Builder) (token : Token) : Option Builder :=
  match b.frames with
  | [] => none
  | [.document stage _] => b.document? token stage
  | frame :: frames =>
      if frame.endsAt token then do
        let frames ← Frame.pop? b.frames
        pure { b with frames := frames }
      else if token = .item && frame.takesBare then
        b.open? fun tag => .sequence .bare .item tag []
      else do
        let begun ← frame.mark? token
        pure { b with frames := begun ++ frames }

/- The state after a token where nothing is missing. -/
def take? (b : Builder) (token : Token) : Option Builder :=
  let open? := b.open?
  match token with
  | .scalar style t => b.scalar? style t
  | .alias name => do
      let number ← b.anchors.number? name
      b.put? (.alias number)
  | .anchor name =>
      if b.top Frame.takesNode then
        some { b with labels := { b.labels with anchor := name } }
      else
        none
  | .tag handle suffix => do
      let tag ← b.tag? handle suffix
      if b.top Frame.takesNode then
        pure { b with labels := { b.labels with tag := tag } }
      else
        none
  | .sequenceBlock => open? fun tag => .sequence .block .mark tag []
  | .sequenceOpen => open? fun tag => .sequence .flow .item tag []
  | .mappingBlock =>
      open? fun tag => .mapping .block .mark tag .empty []
  | .mappingOpen =>
      open? fun tag => .mapping .flow .entry tag .empty []
  | _ => b.mark? token

/- The state after a token. -/
def step? (b : Builder) (token : Token) : Option Builder := do
  let isSwallowed :=
    b.labels = .none && b.top (Frame.swallows token)
  let b ← b.fill? token
  if isSwallowed then
    pure b
  else
    let b ← b.endBare? token
    let b ← b.endKey? token
    b.take? token

/- The document, when there are no more tokens. -/
def finish? (b : Builder) : Option Document := do
  let b ← if b.labels = .none then some b else b.nothing?
  match b.frames with
  | [.document stage root] =>
      if stage = .directed then
        none
      else
        pure { root := root, anchored := b.anchors.nodes }
  | _ => none

end Builder

------------------------------------------------------------
-- Documents
------------------------------------------------------------

/- The only document of tokens. -/
def Document.ofTokens? (tokens : List Token) : Option Document := do
  let b ← tokens.foldlM Builder.step? Builder.start
  b.finish?

end CodecChain.Yaml
