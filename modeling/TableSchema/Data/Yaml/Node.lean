import TableSchema.Association
import TableSchema.Data.Yaml.Scalar
import TableSchema.Data.Yaml.Token

/-! Nodes of YAML: scalars, sequences and mappings, read from tokens. A node may have a tag, which
says what it is, and an anchor, by which it can be used again. Every step takes a token or leads
into a node, so twice as many steps as there are tokens are enough. -/

namespace TableSchema.Data.Yaml

inductive Node where
  | scalar (kind : ScalarKind) (content : Value)
  | sequence (items : List Node)
  | mapping (entries : List (Node × Node))
  /-- A node with a tag that it cannot have. -/
  | mistagged

namespace Node

def empty : Node := .scalar .null (.text "")

/-! ## Merging -/

def isMerge : Node → Bool
  | .scalar .merge _ => true
  | _ => false

def entries? : Node → Option (List (Node × Node))
  | .mapping entries => some entries
  | _ => none

/-- The entries that another mapping, or several ones, bring into a mapping. Of several mappings
the first ones count most. -/
def mergedEntries : Node → List (Node × Node)
  | .mapping entries => entries
  | .sequence items =>
      match items.mapM entries? with
      | some mappings => mappings.reverse.flatten
      | none => [(.mistagged, .empty)]
  | _ => [(.mistagged, .empty)]

/-- As a key, an equals sign is a text. -/
def asKey : Node → Node
  | .scalar .equals content => .scalar .text content
  | node => node

/-- A mapping. Entries from other mappings come first, so that its own ones replace them. -/
def ofEntries (entries : List (Node × Node)) : Node :=
  .mapping (((entries.filter (·.1.isMerge)).flatMap fun (_, value) => value.mergedEntries) ++
    (entries.filter (!·.1.isMerge)).map fun (key, value) => (key.asKey, value))

end Node

/-! ## Tags -/

def commonTags : String := "tag:yaml.org,2002:"

def taggedKind? (tag : String) : Option ScalarKind :=
  [("null", ScalarKind.null), ("bool", .bool), ("int", .int), ("float", .float),
    ("timestamp", .moment), ("merge", .merge), ("value", .equals), ("str", .text)].lookup
    (tag.dropPrefix commonTags).toString

def isOpenTag (tag : Option String) : Bool := tag.all (· = "!")

/-- A scalar. The form of its text tells what it is, unless it is quoted or has a tag. -/
def scalarNode (isPlain : Bool) (tag : Option String) (content : Value) : Node :=
  let kind? := match tag, content with
    | none, .text text => some (if isPlain then kindOf text.toList else .text)
    | some "!", .text text => some (kindOf text.toList)
    | some tag, _ => taggedKind? tag
    | none, _ => some .text
  match kind? with
  | some kind => .scalar kind content
  | none => .mistagged

def collectionNode (type : String) (tag : Option String) (node : Node) : Node :=
  if isOpenTag tag || tag == some (commonTags ++ type) then node else .mistagged

/-! ## Reading -/

/-- The tokens that have not been read, and what the ones before mean for them. -/
structure NodeReader where
  tokens : List Token
  anchors : List (String × Node) := []
  handles : List (String × String) := []

abbrev NodeRead := StateT NodeReader (Except Fault)

namespace NodeRead

def defaultHandles : List (String × String) := [("!", "!"), ("!!", commonTags)]

def peek : NodeRead Token := do return ((← get).tokens.head?).getD .streamEnd

def advance : NodeRead Unit := modify fun reader => { reader with tokens := reader.tokens.drop 1 }

def refuse : NodeRead α := do
  match ← peek with
  | .unreadable fault => throw fault
  | _ => throw (.form .misplaced)

def expect (token : Token) : NodeRead Unit := do
  if (← peek) = token then advance else refuse

/-! ### Properties -/

def resolveTag (handle : Option String) (suffix : String) : NodeRead String := do
  match handle with
  | none => return suffix
  | some handle =>
      match (← get).handles.lookup handle with
      | some tags => return tags ++ suffix
      | none => throw (.form .badHead)

def readTag? : NodeRead (Option String) := do
  match ← peek with
  | .tag handle suffix => do
      advance
      return some (← resolveTag handle suffix)
  | _ => return none

/-- The anchor at the next token, if there is one. No two nodes have the same anchor. -/
def readAnchor? : NodeRead (Option String) := do
  match ← peek with
  | .anchor name => do
      advance
      if ((← get).anchors.lookup name).isSome then throw (.form .badAnchor) else return some name
  | _ => return none

def readProperties : NodeRead (Option String × Option String) := do
  match ← readAnchor? with
  | some name => return (← readTag?, some name)
  | none =>
      match ← readTag? with
      | some tag => return (some tag, ← readAnchor?)
      | none => return (none, none)

def anchored (anchor : Option String) (node : Node) : NodeRead Node := do
  if let some name := anchor then
    modify fun reader => { reader with anchors := Association.set name node reader.anchors }
  return node

def collection (anchor : Option String) (start : Node) (read : NodeRead Node) : NodeRead Node := do
  let _ ← anchored anchor start
  anchored anchor (← read)

/-! ### Nodes -/

/-- Where a node stands. Block collections may not stand in flow collections, and the sequence that
is a value in a block may be as little indented as its key. -/
inductive Context where
  | block
  | blockValue
  | flow
  deriving DecidableEq, Repr

def endsBlockNode : Token → Bool
  | .key | .value | .blockEnd => true
  | _ => false

mutual

def node (context : Context) : (steps : Nat) → NodeRead Node
  | 0 => throw (.form .tooDeep)
  | steps + 1 => do
      match ← peek with
      | .alias name => do
          advance
          match (← get).anchors.lookup name with
          | some node => return node
          | none => throw (.form .badAnchor)
      | _ => do
          let (tag, anchor) ← readProperties
          content context tag anchor steps

def content (context : Context) (tag anchor : Option String) : (steps : Nat) → NodeRead Node
  | 0 => throw (.form .tooDeep)
  | steps + 1 => do
      let sequence (read : NodeRead (List Node)) : NodeRead Node :=
        collection anchor (.sequence []) do
          return collectionNode "seq" tag (.sequence (← read))
      let mapping (read : NodeRead (List (Node × Node))) : NodeRead Node :=
        collection anchor (.mapping []) do
          return collectionNode "map" tag (.ofEntries (← read))
      let token ← peek
      match token, context with
      | .blockEntry, .blockValue => sequence (indentlessItems steps)
      | .plain text, _ => do
          advance
          anchored anchor (scalarNode true tag (.text (String.ofList text)))
      | .quoted codePoints, _ => do
          advance
          anchored anchor (scalarNode false tag (.ofCodePoints codePoints))
      | .flowSequenceStart, _ => do
          advance
          sequence (flowItems true steps)
      | .flowMappingStart, _ => do
          advance
          mapping (flowEntries true steps)
      | .blockSequenceStart, .block | .blockSequenceStart, .blockValue => do
          advance
          sequence (blockItems steps)
      | .blockMappingStart, .block | .blockMappingStart, .blockValue => do
          advance
          mapping (blockEntries steps)
      | .unreadable fault, _ => throw fault
      | _, _ =>
          if tag.isNone && anchor.isNone then refuse
          else anchored anchor (scalarNode true tag (.text ""))

def blockItems : (steps : Nat) → NodeRead (List Node)
  | 0 => throw (.form .tooDeep)
  | steps + 1 => do
      match ← peek with
      | .blockEntry => do
          advance
          let item ← match ← peek with
            | .blockEntry | .blockEnd => pure Node.empty
            | _ => node .block steps
          return item :: (← blockItems steps)
      | _ => do
          expect .blockEnd
          return []

def indentlessItems : (steps : Nat) → NodeRead (List Node)
  | 0 => throw (.form .tooDeep)
  | steps + 1 => do
      match ← peek with
      | .blockEntry => do
          advance
          let next ← peek
          let item ←
            if next = .blockEntry || endsBlockNode next then pure Node.empty
            else node .block steps
          return item :: (← indentlessItems steps)
      | _ => return []

def blockEntries : (steps : Nat) → NodeRead (List (Node × Node))
  | 0 => throw (.form .tooDeep)
  | steps + 1 => do
      match ← peek with
      | .key => do
          advance
          let key ←
            if endsBlockNode (← peek) then pure Node.empty else node .blockValue steps
          let value ← match ← peek with
            | .value => do
                advance
                if endsBlockNode (← peek) then pure Node.empty else node .blockValue steps
            | _ => pure Node.empty
          return (key, value) :: (← blockEntries steps)
      | _ => do
          expect .blockEnd
          return []

def flowItems (first : Bool) : (steps : Nat) → NodeRead (List Node)
  | 0 => throw (.form .tooDeep)
  | steps + 1 => do
      if (← peek) = .flowSequenceEnd then
        advance
        return []
      else
        if !first then expect .flowEntry
        match ← peek with
        | .flowSequenceEnd => do
            advance
            return []
        | .key => do
            advance
            let entry ← flowEntry .flowSequenceEnd steps
            return .ofEntries [entry] :: (← flowItems false steps)
        | _ => do
            let item ← node .flow steps
            return item :: (← flowItems false steps)

def flowEntries (first : Bool) : (steps : Nat) → NodeRead (List (Node × Node))
  | 0 => throw (.form .tooDeep)
  | steps + 1 => do
      if (← peek) = .flowMappingEnd then
        advance
        return []
      else
        if !first then expect .flowEntry
        match ← peek with
        | .flowMappingEnd => do
            advance
            return []
        | .key => do
            advance
            let entry ← flowEntry .flowMappingEnd steps
            return entry :: (← flowEntries false steps)
        | _ => do
            let key ← node .flow steps
            return (key, .empty) :: (← flowEntries false steps)

def flowEntry (finish : Token) : (steps : Nat) → NodeRead (Node × Node)
  | 0 => throw (.form .tooDeep)
  | steps + 1 => do
      let next ← peek
      let key ←
        if next = .value || next = .flowEntry || next = finish then pure Node.empty
        else node .flow steps
      match ← peek with
      | .value => do
          advance
          let next ← peek
          let value ←
            if next = .flowEntry || next = finish then pure Node.empty else node .flow steps
          return (key, value)
      | _ => return (key, .empty)

end

end NodeRead

end TableSchema.Data.Yaml
