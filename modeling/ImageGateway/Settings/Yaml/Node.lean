import ImageGateway.Settings.Yaml.Layout
import ImageGateway.Settings.Yaml.Scalar

/-!
# Nodes of YAML files

The tokens of a file make up nodes.  A node may have a name, under which it can stand in other
places as well, and a tag.  `fuel` bounds the depth of the recursion; of two nested calls at least
one takes a token.

* `Node` : a scalar, a list or a mapping.
* `Node.read` : the node in front of the tokens.
* `Node.toValue?` : the value that a node is.
-/

namespace ImageGateway

namespace Settings

namespace Yaml

/-- A part of a document. -/
inductive Node where
  | scalar (s : Scalar)
  | list (items : List Node)
  | mapping (entries : List (Node × Node))

namespace Node

/-- The node that stands where nothing is written. -/
def null : Node := .scalar .null

/-- The node of which a tag says what is not true, or which is part of itself. -/
def misfit : Node := .scalar .misfit

/-- The node is `misfit`. -/
def isMisfit : Node → Bool
  | scalar s => s == .misfit
  | _ => false

/-- Two nodes are the same scalar. -/
def isSameScalar : Node → Node → Bool
  | scalar s, scalar t => s == t
  | _, _ => false

/-! ### Values -/

mutual

/-- The value that a node is, unless it has a number that is not finite, or a key that is not a
number, a truth value or a text. -/
def toValue? : Node → Option Value
  | scalar s => s.toValue?
  | list items => (itemValues? items).map .list
  | mapping entries => (entryValues? [] entries).map .table

/-- The values of nodes. -/
def itemValues? : List Node → Option (List Value)
  | [] => some []
  | node :: rest => do some ((← node.toValue?) :: (← itemValues? rest))

/-- The values of entries behind others.  Of two keys that read the same the later one counts. -/
def entryValues? (table : Table) : List (Node × Node) → Option Table
  | [] => some table
  | (scalar key, value) :: rest => do
    entryValues? (table.set (← key.key?) (← value.toValue?)) rest
  | _ :: _ => none

end

/-! ### Mappings -/

/-- The entries with the given keys and values, which alternate.  A `misfit` is no key, so the node
behind it is taken for one; a key without a value does not count. -/
def pairUp : List Node → List (Node × Node)
  | [] => []
  | key :: rest =>
    if key.isMisfit then pairUp rest
    else match rest with
      | [] => []
      | value :: rest => (key, value) :: pairUp rest

/-- No scalar is the key of two entries. -/
def hasDistinctKeys : List (Node × Node) → Bool
  | [] => true
  | (key, _) :: rest => rest.all (fun e => !key.isSameScalar e.1) && hasDistinctKeys rest

/-- The mapping with the given keys and values, which alternate. -/
def ofChildren? (children : List Node) : Option Node :=
  let entries := pairUp children
  if hasDistinctKeys entries then some (mapping entries) else none

end Node

/-! ### Reading -/

/-- The named nodes.  A name that is given twice stands for the later node. -/
structure Anchors where
  /-- The names with the numbers of their nodes, the latest one first. -/
  names : List (String × Nat) := []
  /-- The nodes that have been read to their ends. -/
  nodes : List (Nat × Node) := []

/-- The node of a name, which is `misfit` within that node itself. -/
def Anchors.get? (a : Anchors) (name : String) : Option Node :=
  (a.names.lookup name).map fun number => (a.nodes.lookup number).getD .misfit

/-- What is known while nodes are read. -/
structure Progress where
  tokens : List Token
  anchors : Anchors := {}
  /-- What a handle stands for. -/
  meaning : Option (String × String) := none

/-- Takes something from the front of the tokens, or fails. -/
abbrev NodeReader := StateT Progress Option

namespace NodeReader

/-- Fails. -/
def fail {α : Type} : NodeReader α := fun _ => none

/-- The token in front. -/
def front : NodeReader (Option Token) := fun p => some (p.tokens.head?, p)

/-- Takes the token in front. -/
def skip : NodeReader Unit := fun p => some ((), { p with tokens := p.tokens.drop 1 })

/-- Takes the given token if it stands in front, and says whether it did. -/
def accept (token : Token) : NodeReader Bool := do
  if (← front) == some token then
    skip
    return true
  else return false

/-- One of the given tokens stands in front. -/
def isOneOf (tokens : List Token) : NodeReader Bool := do
  return ((← front).map tokens.contains).getD false

end NodeReader

open NodeReader

/-- The beginning of the tags for numbers, truth values and `null`. -/
def coreTags : String := "tag:yaml.org,2002:"

/-- The kind that a tag names; the empty text for a tag that names none. -/
def Tag.kind? (meaning : Option (String × String)) (t : Tag) : Option String :=
  match meaning.filter (·.1 == t.handle) with
  | some (_, full) => some (if full == coreTags then t.suffix else "")
  | none =>
    if t.handle == "!!" then some t.suffix
    else if t.handle == "" || t.handle == "!" then some ""
    else none

/-- Takes a tag, if there is one, and gives the kind that it names. -/
def tagKind : NodeReader (Option String) := do
  match ← front with
  | some (.tag t) =>
    skip
    match t.kind? (← get).meaning with
    | some kind => return some kind
    | none => fail
  | _ => return none

/-- Takes a name, if there is one, and gives the number of its node. -/
def anchorNumber : NodeReader (Option Nat) := do
  match ← front with
  | some (.anchor name) =>
    skip
    modifyGet fun p =>
      -- the name is known within the node, where it stands for no node yet
      let number := p.anchors.names.length
      (some number,
        { p with anchors := { p.anchors with names := (name, number) :: p.anchors.names } })
  | _ => return none

/-- Takes a name and a tag in either order. -/
def properties : NodeReader (Option Nat × Option String) := do
  match ← anchorNumber with
  | some number => return (some number, ← tagKind)
  | none =>
    match ← tagKind with
    | some kind => return (← anchorNumber, some kind)
    | none => return (none, none)

/-- The scalar with a text. -/
def scalarOf (isPlain : Bool) (kind : Option String) (s : List Char) : Scalar :=
  if isPlain then
    match kind with
    | some kind => .ofKind kind s
    | none => .ofPlain s
  else .text (String.ofList s)

/-- The node is read to its end. -/
def register (number : Option Nat) (node : Node) : NodeReader Node := fun p =>
  match number with
  | none => some (node, p)
  | some number =>
    some (node, { p with anchors := { p.anchors with nodes := (number, node) :: p.anchors.nodes } })

/-- A mapping with keys and values that alternate. -/
def mappingOf (children : List Node) : NodeReader Node := fun p =>
  (Node.ofChildren? children).map (·, p)

/-- The tokens in front of which a key or a value of a block is missing. -/
def blockGaps : List Token := [.key, .value, .blockEnd]

/-- The tokens in front of which a value in braces is missing. -/
def braceGaps : List Token := [.comma, .flowEnd .mapping]

/-- The tokens in front of which a value in brackets is missing. -/
def bracketGaps : List Token := [.comma, .flowEnd .list]

mutual

/-- The node in front of the tokens.  It may be a block, if `mayBeBlock`, and a list whose hyphens
stand in the column of the keys around it, if `mayBeFlush`. -/
def Node.read (mayBeBlock mayBeFlush : Bool) : Nat → NodeReader Node
  | 0 => fail
  | fuel + 1 => do
    if let some (.reference name) ← front then
      skip
      match (← get).anchors.get? name with
      | some node => return node
      | none => fail
    else
      let (number, kind) ← properties
      match ← front with
      | some .dash =>
        if mayBeFlush then register number (.list (← flushItems fuel))
        else bare number kind
      | some (.scalar isPlain s) =>
        skip
        register number (.scalar (scalarOf isPlain kind s))
      | some (.flowStart .list) =>
        skip
        if ← accept (.flowEnd .list) then register number (.list [])
        else register number (.list (← flowItems fuel))
      | some (.flowStart .mapping) =>
        skip
        if ← accept (.flowEnd .mapping) then register number (.mapping [])
        else register number (← mappingOf (← flowEntries fuel))
      | some (.blockStart kind') =>
        if mayBeBlock then
          skip
          match kind' with
          | .list => register number (.list (← blockItems fuel))
          | .mapping => register number (← mappingOf (← blockEntries fuel))
        else bare number kind
      | _ => bare number kind

/-- The items of a block. -/
def blockItems : Nat → NodeReader (List Node)
  | 0 => fail
  | fuel + 1 => do
    if ← accept .blockEnd then return []
    else if ← accept .dash then
      let item ← if ← isOneOf [.dash, .blockEnd] then pure .null else Node.read true false fuel
      return item :: (← blockItems fuel)
    else fail

/-- The items of a list whose hyphens stand in the column of the keys around it. -/
def flushItems : Nat → NodeReader (List Node)
  | 0 => fail
  | fuel + 1 => do
    if ← accept .dash then
      let item ←
        if ← isOneOf (.dash :: blockGaps) then pure .null else Node.read true false fuel
      return item :: (← flushItems fuel)
    else return []

/-- The keys and values of a block. -/
def blockEntries : Nat → NodeReader (List Node)
  | 0 => fail
  | fuel + 1 => do
    if ← accept .blockEnd then return []
    else
      let key ←
        if ← accept .key then
          if ← isOneOf blockGaps then pure .null else Node.read true true fuel
        else if ← isOneOf [.value] then pure .null
        else fail
      let value ←
        if ← accept .value then
          if ← isOneOf blockGaps then pure .null else Node.read true true fuel
        else pure .null
      return key :: value :: (← blockEntries fuel)

/-- The items between brackets up to the closing one. -/
def flowItems : Nat → NodeReader (List Node)
  | 0 => fail
  | fuel + 1 => do
    let item ←
      if ← accept .key then
        -- unlike in braces, a question mark needs a key between brackets
        if ← isOneOf (.value :: bracketGaps) then fail
        else
          let key ← Node.read false false fuel
          mappingOf [key, ← flowValue bracketGaps fuel]
      else Node.read false false fuel
    if ← accept (.flowEnd .list) then return [item]
    else if ← accept .comma then
      if ← accept (.flowEnd .list) then return [item]
      else return item :: (← flowItems fuel)
    else fail

/-- The keys and values between braces up to the closing one. -/
def flowEntries : Nat → NodeReader (List Node)
  | 0 => fail
  | fuel + 1 => do
    let entry ←
      if ← accept .key then
        let key ←
          if ← isOneOf (.value :: braceGaps) then pure .null else Node.read false false fuel
        pure [key, ← flowValue braceGaps fuel]
      else if ← isOneOf [.value] then pure [.null, ← flowValue braceGaps fuel]
      else pure [← Node.read false false fuel, .null]
    if ← accept (.flowEnd .mapping) then return entry
    else if ← accept .comma then
      if ← accept (.flowEnd .mapping) then return entry
      else return entry ++ (← flowEntries fuel)
    else fail

/-- The value of an entry between brackets or braces. -/
def flowValue (gaps : List Token) : Nat → NodeReader Node
  | 0 => fail
  | fuel + 1 => do
    if ← accept .value then
      if ← isOneOf gaps then return .null else Node.read false false fuel
    else return .null

/-- A node of which nothing is written but a name or a tag. -/
def bare (number : Option Nat) (kind : Option String) : NodeReader Node := do
  if number.isSome || kind.isSome then register number (.scalar (scalarOf true kind []))
  else fail

end

end Yaml

end Settings

end ImageGateway
