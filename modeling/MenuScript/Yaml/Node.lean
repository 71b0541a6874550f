import MenuScript.Yaml.Token

/-! The nodes of a YAML document, and how they are read from its tokens. Anchors are numbered in the
order in which they are met, a new one by how many names there are by then; a reference holds the
number that its name has where it stands. -/

namespace MenuScript.Yaml

inductive Node where
  | reference (number : Nat)
  | scalar (anchor : Option Nat) (tag : Option String) (style : Style) (text : String)
  | sequence (anchor : Option Nat) (tag : Option String) (items : List Node)
  | mapping (anchor : Option Nat) (tag : Option String) (entries : List (Node × Node))

/-- The state of reading nodes: the tokens that are left, and the numbers of the anchors so far. -/
structure Reading where
  tokens : List Token
  anchors : List (String × Nat) := []

abbrev Reader := StateT Reading Option

namespace Reader

def peek : Reader (Option Token) := return (← get).tokens.head?

def sees (ts : List Token) : Reader Bool := return (← peek).any ts.contains

def skip : Reader Unit := modify fun r => { r with tokens := r.tokens.tail }

/-- Goes past the next token if it is `t`, and tells whether it was. -/
def skips (t : Token) : Reader Bool := do
  let found ← sees [t]
  if found then skip
  return found

def fail : Reader α := fun _ => none

def number (name : String) : Reader Nat := do
  let anchors := (← get).anchors
  let known := (anchors.map (·.1)).eraseDups.length
  modify fun r => { r with anchors := (name, known) :: anchors }
  return known

def anchor? : Reader (Option Nat) := do
  match ← peek with
  | some (.anchor name) =>
    skip
    return some (← number name)
  | _ => return none

/-- Reads a tag, if one stands here. Its handle must have a meaning. -/
def tag? (handles : List (String × String)) : Reader (Option String) := do
  match ← peek with
  | some (.tag handle suffix) =>
    skip
    if handle.isEmpty then return some suffix
    match handles.lookup handle with
    | some meaning => return some (meaning ++ suffix)
    | none => fail
  | _ => return none

def properties (handles : List (String × String)) : Reader (Option Nat × Option String) := do
  match ← anchor? with
  | some anchor => return (some anchor, ← tag? handles)
  | none =>
    match ← tag? handles with
    | some tag => return (← anchor?, some tag)
    | none => return (none, none)

def nothing : Node := .scalar none none .plain ""

mutual

/-- Reads a node. Blocks may stand only where `inBlock` says so, and a sequence without indentation
of its own only where `bare` does. -/
def node (handles : List (String × String)) (inBlock bare : Bool) : Nat → Reader Node
  | 0 => fail
  | fuel + 1 => do
    match ← peek with
    | some (.reference name) =>
      skip
      match (← get).anchors.lookup name with
      | some number => return .reference number
      | none => fail
    | _ =>
      let (anchor, tag) ← properties handles
      match ← peek with
      | some .blockEntry =>
        if bare then return .sequence anchor tag (← bareItems handles fuel)
        else if anchor.isSome || tag.isSome then return .scalar anchor tag .plain ""
        else fail
      | some (.scalar style text) =>
        skip
        return .scalar anchor tag style text
      | some .flowSequenceStart =>
        skip
        return .sequence anchor tag (← flowItems handles true fuel)
      | some .flowMappingStart =>
        skip
        return .mapping anchor tag (← flowEntries handles true fuel)
      | some .blockSequenceStart =>
        if inBlock then
          skip
          return .sequence anchor tag (← blockItems handles fuel)
        else if anchor.isSome || tag.isSome then return .scalar anchor tag .plain ""
        else fail
      | some .blockMappingStart =>
        if inBlock then
          skip
          return .mapping anchor tag (← blockEntries handles fuel)
        else if anchor.isSome || tag.isSome then return .scalar anchor tag .plain ""
        else fail
      | _ =>
        if anchor.isSome || tag.isSome then return .scalar anchor tag .plain "" else fail

def blockItems (handles : List (String × String)) : Nat → Reader (List Node)
  | 0 => fail
  | fuel + 1 => do
    if ← skips .blockEntry then
      let item ←
        if ← sees [.blockEntry, .blockEnd] then pure nothing else node handles true false fuel
      return item :: (← blockItems handles fuel)
    else if ← skips .blockEnd then return []
    else fail

/-- Reads the items of a sequence that is not indented, which ends where no item follows. -/
def bareItems (handles : List (String × String)) : Nat → Reader (List Node)
  | 0 => fail
  | fuel + 1 => do
    if ← skips .blockEntry then
      let item ←
        if ← sees [.blockEntry, .key, .value, .blockEnd] then pure nothing
        else node handles true false fuel
      return item :: (← bareItems handles fuel)
    else return []

def blockEntries (handles : List (String × String)) : Nat → Reader (List (Node × Node))
  | 0 => fail
  | fuel + 1 => do
    let part : Reader Node := do
      if ← sees [.key, .value, .blockEnd] then return nothing
      else node handles true true fuel
    if ← skips .key then
      let key ← part
      let value ← if ← skips .value then part else pure nothing
      return (key, value) :: (← blockEntries handles fuel)
    else if ← skips .blockEnd then return []
    else fail

/-- Reads the items of a sequence in brackets. An item with a key is a mapping of one entry. -/
def flowItems (handles : List (String × String)) (first : Bool) : Nat → Reader (List Node)
  | 0 => fail
  | fuel + 1 => do
    if ← skips .flowSequenceEnd then return []
    if !first then
      if !(← skips .flowEntry) then fail
    if ← skips .key then
      let key ←
        if ← sees [.value, .flowEntry, .flowSequenceEnd] then do
          skip
          pure nothing
        else node handles false false fuel
      let value ←
        if ← skips .value then
          if ← sees [.flowEntry, .flowSequenceEnd] then pure nothing
          else node handles false false fuel
        else pure nothing
      return .mapping none none [(key, value)] :: (← flowItems handles false fuel)
    else if ← skips .flowSequenceEnd then return []
    else
      let item ← node handles false false fuel
      return item :: (← flowItems handles false fuel)

def flowEntries (handles : List (String × String)) (first : Bool) :
    Nat → Reader (List (Node × Node))
  | 0 => fail
  | fuel + 1 => do
    if ← skips .flowMappingEnd then return []
    if !first then
      if !(← skips .flowEntry) then fail
    if ← skips .key then
      let key ←
        if ← sees [.value, .flowEntry, .flowMappingEnd] then pure nothing
        else node handles false false fuel
      let value ←
        if ← skips .value then
          if ← sees [.flowEntry, .flowMappingEnd] then pure nothing
          else node handles false false fuel
        else pure nothing
      return (key, value) :: (← flowEntries handles false fuel)
    else if ← skips .flowMappingEnd then return []
    else
      let key ← node handles false false fuel
      return (key, nothing) :: (← flowEntries handles false fuel)

end

/-- The handles that have a meaning in every document. -/
def usualHandles : List (String × String) := [("!", "!"), ("!!", "tag:yaml.org,2002:")]

/-- Reads the directives of a document. Each may be given once. -/
def directives : Nat → Bool → List (String × String) → Reader (List (String × String))
  | 0, _, _ => fail
  | fuel + 1, versioned, handles => do
    match ← peek with
    | some (.versionDirective major minor) =>
      if versioned || major != 1 || (minor != 1 && minor != 2) then fail
      skip
      directives fuel true handles
    | some (.tagDirective handle meaning) =>
      if (handles.lookup handle).isSome then fail
      skip
      directives fuel versioned ((handle, meaning) :: handles)
    | _ => return handles ++ usualHandles

/-- Reads a stream of at most one document. A stream without one has no node. -/
def stream : Reader (Option Node) := do
  let fuel := 2 * (← get).tokens.length + 4
  let root ← match ← peek with
    | none => return none
    | some (.versionDirective ..) | some (.tagDirective ..) | some .documentStart =>
      let handles ← directives fuel false []
      if !(← skips .documentStart) then fail
      match ← peek with
      | none | some (.versionDirective ..) | some (.tagDirective ..) | some .documentStart
      | some .documentEnd => pure nothing
      | _ => node handles true false fuel
    | some _ => node usualHandles true false fuel
  let left := (← get).tokens.dropWhile (· == .documentEnd)
  if left.isEmpty then return some root else fail

end Reader

/-- The root of the only document of a text, if it has one; nothing if it is ill formed. -/
def document? (text : String) : Option (Option Node) := do
  let tokens ← tokens? text
  let (root, _) ← Reader.stream { tokens }
  return root

mutual

/-- The last node with the given anchor number, in the order of the text. -/
def Node.anchored? (number : Nat) : Node → Option Node
  | .reference _ => none
  | n@(.scalar anchor ..) => if anchor = some number then some n else none
  | n@(.sequence anchor _ items) =>
    match anchoredItem? number items with
    | some inner => some inner
    | none => if anchor = some number then some n else none
  | n@(.mapping anchor _ entries) =>
    match anchoredEntry? number entries with
    | some inner => some inner
    | none => if anchor = some number then some n else none

def anchoredItem? (number : Nat) : List Node → Option Node
  | [] => none
  | item :: rest =>
    match anchoredItem? number rest with
    | some inner => some inner
    | none => item.anchored? number

def anchoredEntry? (number : Nat) : List (Node × Node) → Option Node
  | [] => none
  | (key, value) :: rest =>
    match anchoredEntry? number rest with
    | some inner => some inner
    | none =>
      match value.anchored? number with
      | some inner => some inner
      | none => key.anchored? number

end

/-- The node that a reference in the document `root` stands for; any other node stands for
itself. -/
def Node.target (root : Node) : Node → Node
  | .reference number => (root.anchored? number).getD (.reference number)
  | n => n

end MenuScript.Yaml
