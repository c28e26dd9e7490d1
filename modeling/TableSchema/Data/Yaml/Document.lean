import TableSchema.Data.Yaml.Node

/-! Documents of YAML, and the values that they say. A text holds one document at most. Nodes are
looked at level by level, so of several faults the one that lies least deep is told. -/

namespace TableSchema.Data.Yaml

/-! ## Documents -/

namespace NodeRead

def directives (version : Bool) (handles : List (String × String)) :
    (steps : Nat) → NodeRead (List (String × String))
  | 0 => throw (.form .tooDeep)
  | steps + 1 => do
      match ← peek with
      | .versionDirective major => do
          if version || major ≠ 1 then throw (.form .badHead)
          advance
          directives true handles steps
      | .tagDirective handle tags => do
          if (handles.lookup handle).isSome then throw (.form .badHead)
          advance
          directives version ((handle, tags) :: handles) steps
      | .otherDirective => do
          advance
          directives version handles steps
      | _ => return handles

def skipEnds : (steps : Nat) → NodeRead Unit
  | 0 => return
  | steps + 1 => do
      if (← peek) = .documentEnd then
        advance
        skipEnds steps

def isOutside : Token → Bool
  | .versionDirective _ | .tagDirective .. | .otherDirective | .documentStart | .documentEnd
  | .streamEnd => true
  | _ => false

def markedDocument (steps : Nat) : NodeRead Node := do
  let handles ← directives false [] steps
  expect .documentStart
  modify fun reader => { reader with handles := handles ++ defaultHandles }
  if isOutside (← peek) then return .empty else node .block steps

def lastEnd (steps : Nat) : NodeRead Unit := do
  skipEnds steps
  expect .streamEnd

/-- The node of the only document, if there is one. The first document may start without a
mark. -/
def document? (steps : Nat) : NodeRead (Option Node) := do
  let token ← peek
  if isOutside token && token ≠ .documentEnd then
    if token = .streamEnd then return none
    else do
      let node ← markedDocument steps
      lastEnd steps
      return some node
  else do
    modify fun reader => { reader with handles := defaultHandles }
    let node ← node .block steps
    lastEnd steps
    return some node

end NodeRead

/-! ## Values -/

namespace Node

def scalarValue (kind : ScalarKind) (content : Value) : Except Fault Value :=
  match content with
  | .text text => kind.value text.toList
  | content => if kind = .text then .ok content else .error (.form .noValue)

/-- A key is a text; keys of other kinds name nothing. -/
def keyName : Node → String
  | .scalar .text (.text name) => name
  | _ => ""

def mayBeKey : Node → Bool
  | .scalar .. => true
  | _ => false

mutual

def value : Node → Value
  | .scalar kind content => ((scalarValue kind content).toOption).getD .null
  | .sequence items => .list (itemValues items)
  | .mapping entries => .object (entryValues entries)
  | .mistagged => .null

def itemValues : List Node → List Value
  | [] => []
  | item :: rest => item.value :: itemValues rest

def entryValues : List (Node × Node) → List (String × Value)
  | [] => []
  | (key, value) :: rest => (key.keyName, value.value) :: entryValues rest

end

mutual

def faults (level : Nat) : Node → List (Nat × Fault)
  | .scalar kind content =>
      match scalarValue kind content with
      | .ok _ => []
      | .error fault => [(level, fault)]
  | .sequence items => itemFaults (level + 1) items
  | .mapping entries => entryFaults (level + 1) entries
  | .mistagged => [(level, .form .noValue)]

def itemFaults (level : Nat) : List Node → List (Nat × Fault)
  | [] => []
  | item :: rest => item.faults level ++ itemFaults level rest

def entryFaults (level : Nat) : List (Node × Node) → List (Nat × Fault)
  | [] => []
  | (key, value) :: rest =>
      (if key.mayBeKey then key.faults level else [(level, .form .noValue)]) ++
        value.faults level ++ entryFaults level rest

end

/-- The first one of the faults that lie least deep. -/
def firstFault? : List (Nat × Fault) → Option (Nat × Fault)
  | [] => none
  | (level, fault) :: rest =>
      match firstFault? rest with
      | some (other, later) => if other < level then some (other, later) else some (level, fault)
      | none => some (level, fault)

def toValue (node : Node) : Except Fault Value :=
  match firstFault? (node.faults 0) with
  | some (_, fault) => .error fault
  | none => .ok node.value

end Node

/-! ## Texts -/

def isYamlChar (character : Char) : Bool :=
  let code := character.toNat
  code == 0x09 || code == 0x0A || code == 0x0D || (0x20 ≤ code && code ≤ 0x7E) || code == 0x85 ||
    (0xA0 ≤ code && code ≤ 0xFFFD) || 0x10000 ≤ code

def nodeOf (text : List Char) : Except Fault (Option Node) :=
  if !text.all isYamlChar then .error (.form .unprintable)
  else do
    let tokens := tokens text
    let (node, _) ← (NodeRead.document? (4 * tokens.length + 4)).run { tokens }
    .ok node

def ofYaml (text : List Char) : Except Fault Value := do
  match ← nodeOf text with
  | some node => node.toValue
  | none => .ok .null

example : (ofYaml "server:\n  port: 80 # web\n".toList) matches
    .ok (.object [("server", .object [("port", .int 80)])]) := by decide +kernel

/-- A second colon on a line is refused. -/
example : ofYaml "a: b: c\n".toList matches .error (.form .misplaced) := by decide +kernel

/-- A date has to exist. -/
example : ofYaml "a: [x]\nb: 2024-02-30\n".toList matches
    .error (.value (.moment .wrongDay)) := by decide +kernel

end TableSchema.Data.Yaml
