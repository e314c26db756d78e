import Scaffold.Document.Yaml.Tag
import Scaffold.Document.Yaml.Token

/-!
# Nodes of YAML documents

The tokens of a text are arranged as a graph of scalars, lists and mappings.  Every node has a
number.  A reference stands for the number of the node that an anchor names, which may be a list or
mapping around the reference.
-/

namespace Scaffold.Document.Yaml

/-- A node of a document, which names the nodes inside it by their numbers. -/
inductive Node where
  | scalar (kind : NodeKind) (codes : List Nat)
  | list (kind : NodeKind) (items : List Nat)
  | mapping (kind : NodeKind) (entries : List (Nat × Nat))

/-- The kind of value that a node stands for. -/
def Node.kind : Node → NodeKind
  | .scalar kind _ | .list kind _ | .mapping kind _ => kind

/-- The nodes of a document under their numbers. -/
abbrev Graph := Array Node

/-- The arrangement of tokens under way. -/
structure Arrangement where
  /-- The tokens that follow. -/
  tokens : List Token
  /-- What the handles of tags stand for. -/
  handles : List (String × String) := standardHandles
  graph : Graph := #[]
  /-- The numbers of nodes under their anchors. -/
  anchors : List (String × Nat) := []

/-- The number of the node that an anchor names. -/
def Arrangement.anchored? (state : Arrangement) (name : String) : Option Nat :=
  (state.anchors.find? (·.1 == name)).map (·.2)

/-- A tag in full, unless its handle is not known. -/
def Arrangement.fullTag? (state : Arrangement) : TagName → Option String
  | .full name => some name
  | .short handle ending =>
      (state.handles.find? (·.1 == handle)).map fun (_, start) => start ++ ending

/-- A step of the arrangement, which may find that the tokens fit no document. -/
abbrev Arranging := StateT Arrangement (Except ReadError)

/-- Why tokens do not fit their place. -/
def unexpected : List Token → ReadError
  | .flawed error :: _ => error
  | _ => .invalid

/-- The tokens that follow. -/
def following : Arranging (List Token) :=
  return (← get).tokens

/-- Go on behind tokens that were read. -/
def goOn (rest : List Token) : Arranging Unit :=
  modify fun state => { state with tokens := rest }

/-- Add a node under an anchor that is not in use, and answer with its number. -/
def add (anchor : Option String) (node : Node) : Arranging Nat := do
  let state ← get
  let number := state.graph.size
  let added := { state with graph := state.graph.push node }
  match anchor with
  | none => set added
  | some name =>
      if (state.anchored? name).isSome then throw .invalid
      else set { added with anchors := (name, number) :: state.anchors }
  return number

/-- Add the node that stands where nothing is written. -/
def addAbsent : Arranging Nat :=
  add none (.scalar .null [])

/-- Give a number another node. -/
def replace (number : Nat) (node : Node) : Arranging Unit :=
  modify fun state => { state with graph := state.graph.setIfInBounds number node }

/-- The properties of a node in front of it. -/
structure Properties where
  anchor : Option String := none
  tag : Option String := none

/-- Take the properties of a node, of which the tag has to have a handle that is known. -/
def takeProperties (anchor : Option String) (tag : Option TagName) (rest : List Token) :
    Arranging Properties := do
  goOn rest
  match rest, tag with
  | .flawed error :: _, _ => throw error
  | _, none => return { anchor }
  | _, some name =>
      match (← get).fullTag? name with
      | some tag => return { anchor, tag := some tag }
      | none => throw .invalid

/-- Read the properties of a node, an anchor and a tag in any order. -/
def readProperties : Arranging Properties := do
  match ← following with
  | .anchor anchor :: .tag tag :: rest => takeProperties (some anchor) (some tag) rest
  | .tag tag :: .anchor anchor :: rest => takeProperties (some anchor) (some tag) rest
  | .anchor anchor :: rest => takeProperties (some anchor) none rest
  | .tag tag :: rest => takeProperties none (some tag) rest
  | rest => takeProperties none none rest

/-- The token ends the entry of a block mapping. -/
def endsEntry : Token → Bool
  | .key | .value | .blockEnd => true
  | _ => false

/-- The token ends an item of a block. -/
def endsBlockItem : Token → Bool
  | .item | .blockEnd => true
  | _ => false

/-- The token ends an item of a list whose dashes are not indented. -/
def endsItem : Token → Bool
  | .item | .key | .value | .blockEnd => true
  | _ => false

/-- The token ends a part of an entry between brackets or braces. -/
def endsFlowPart : Token → Bool
  | .comma | .value | .flowListEnd | .flowMappingEnd => true
  | _ => false

/-- Nothing stands here, because the tokens start with one that ends the place. -/
def startsWithEnd (ends : Token → Bool) : List Token → Bool
  | token :: _ => ends token
  | [] => false

/-- The tokens of a part between brackets or braces: all parts but the first stand behind a comma. -/
def partTokens (first : Bool) (tokens : List Token) : Arranging (List Token) :=
  match first, tokens with
  | true, _ => return tokens
  | false, .comma :: rest => return rest
  | false, _ => throw (unexpected tokens)

/-- A list whose items are read behind tokens. -/
def addList (properties : Properties) (rest : List Token) (items : Arranging (List Nat)) :
    Arranging Nat := do
  let kind := collectionKind .list properties.tag
  let number ← add properties.anchor (.list kind [])
  goOn rest
  replace number (.list kind (← items))
  return number

/-- A mapping whose entries are read behind tokens. -/
def addMapping (properties : Properties) (rest : List Token)
    (entries : Arranging (List (Nat × Nat))) : Arranging Nat := do
  let kind := collectionKind .mapping properties.tag
  let number ← add properties.anchor (.mapping kind [])
  goOn rest
  replace number (.mapping kind (← entries))
  return number

/-- A scalar in front of tokens. -/
def addScalar (properties : Properties) (codes : List Nat) (plain : Bool) (rest : List Token) :
    Arranging Nat := do
  goOn rest
  add properties.anchor (.scalar (scalarKind properties.tag codes plain) codes)

/-- A node that consists of its properties, of which there has to be one. -/
def addEmpty (properties : Properties) (tokens : List Token) : Arranging Nat :=
  if properties.anchor.isSome || properties.tag.isSome then addScalar properties [] true tokens
  else throw (unexpected tokens)

mutual

/-- A node.  Blocks are allowed outside of brackets only, dashes without indentation in entries. -/
def readNode (block dashes : Bool) : Nat → Arranging Nat
  | 0 => throw .invalid
  | fuel + 1 => do
      match ← following with
      | .reference name :: rest =>
          goOn rest
          match (← get).anchored? name with
          | some number => return number
          | none => throw .invalid
      | _ => readContent block dashes fuel (← readProperties)

/-- A node, unless its place is empty. -/
def readPlace (block dashes : Bool) (ends : Token → Bool) : Nat → Arranging Nat
  | 0 => throw .invalid
  | fuel + 1 => do
      if startsWithEnd ends (← following) then addAbsent else readNode block dashes fuel

/-- The content of a node behind its properties. -/
def readContent (block dashes : Bool) : Nat → Properties → Arranging Nat
  | 0, _ => throw .invalid
  | fuel + 1, properties => do
      match ← following with
      | .scalar codes plain :: rest => addScalar properties codes plain rest
      | .flowListStart :: rest => addList properties rest (readFlowItems fuel true [])
      | .flowMappingStart :: rest => addMapping properties rest (readFlowEntries fuel true [])
      | .item :: rest =>
          if dashes then addList properties (.item :: rest) (readDashItems fuel [])
          else addEmpty properties (.item :: rest)
      | .blockListStart :: rest =>
          if block then addList properties rest (readBlockItems fuel [])
          else addEmpty properties (.blockListStart :: rest)
      | .blockMappingStart :: rest =>
          if block then addMapping properties rest (readBlockEntries fuel [])
          else addEmpty properties (.blockMappingStart :: rest)
      | tokens => addEmpty properties tokens

/-- The items of a block, up to its end. -/
def readBlockItems : Nat → List Nat → Arranging (List Nat)
  | 0, _ => throw .invalid
  | fuel + 1, reversed => do
      match ← following with
      | .item :: rest =>
          goOn rest
          let item ← readPlace true false endsBlockItem fuel
          readBlockItems fuel (item :: reversed)
      | .blockEnd :: rest =>
          goOn rest
          return reversed.reverse
      | tokens => throw (unexpected tokens)

/-- The items of a list whose dashes are not indented. -/
def readDashItems : Nat → List Nat → Arranging (List Nat)
  | 0, _ => throw .invalid
  | fuel + 1, reversed => do
      match ← following with
      | .item :: rest =>
          goOn rest
          let item ← readPlace true false endsItem fuel
          readDashItems fuel (item :: reversed)
      | _ => return reversed.reverse

/-- The entries of a block, up to its end. -/
def readBlockEntries : Nat → List (Nat × Nat) → Arranging (List (Nat × Nat))
  | 0, _ => throw .invalid
  | fuel + 1, reversed => do
      match ← following with
      | .key :: rest =>
          goOn rest
          let key ← readPlace true true endsEntry fuel
          let value ← readMeaning true endsEntry fuel
          readBlockEntries fuel ((key, value) :: reversed)
      | .blockEnd :: rest =>
          goOn rest
          return reversed.reverse
      | tokens => throw (unexpected tokens)

/-- The value of an entry behind its key, which may be missing. -/
def readMeaning (block : Bool) (ends : Token → Bool) : Nat → Arranging Nat
  | 0 => throw .invalid
  | fuel + 1 => do
      match ← following with
      | .value :: rest =>
          goOn rest
          readPlace block block ends fuel
      | _ => addAbsent

/-- The items between brackets, up to the closing one; an item may be an entry. -/
def readFlowItems : Nat → Bool → List Nat → Arranging (List Nat)
  | 0, _, _ => throw .invalid
  | fuel + 1, first, reversed => do
      match ← following with
      | .flowListEnd :: rest =>
          goOn rest
          return reversed.reverse
      | tokens =>
          match ← partTokens first tokens with
          | .key :: rest =>
              let item ← addMapping {} rest (return [← readFlowPair fuel])
              readFlowItems fuel false (item :: reversed)
          | .flowListEnd :: rest =>
              goOn rest
              return reversed.reverse
          | part =>
              goOn part
              let item ← readNode false false fuel
              readFlowItems fuel false (item :: reversed)

/-- The entries between braces, up to the closing one. -/
def readFlowEntries : Nat → Bool → List (Nat × Nat) → Arranging (List (Nat × Nat))
  | 0, _, _ => throw .invalid
  | fuel + 1, first, reversed => do
      match ← following with
      | .flowMappingEnd :: rest =>
          goOn rest
          return reversed.reverse
      | tokens =>
          match ← partTokens first tokens with
          | .key :: rest =>
              goOn rest
              let entry ← readFlowPair fuel
              readFlowEntries fuel false (entry :: reversed)
          | .flowMappingEnd :: rest =>
              goOn rest
              return reversed.reverse
          | part =>
              goOn part
              let key ← readNode false false fuel
              readFlowEntries fuel false ((key, ← addAbsent) :: reversed)

/-- An entry between brackets or braces, behind the token of its key. -/
def readFlowPair : Nat → Arranging (Nat × Nat)
  | 0 => throw .invalid
  | fuel + 1 => do
      let key ← readPlace false false endsFlowPart fuel
      return (key, ← readMeaning false endsFlowPart fuel)

end

/-- A graph and the number of its outermost node. -/
structure Document where
  graph : Graph
  root : Nat

/-- Directives in front of a document: what they say about handles, and the tokens behind them. -/
def readDirectives (versionGiven : Bool) (handles : List (String × String)) :
    List Token → Except ReadError (List (String × String) × List Token)
  | .directive (.version major) :: rest =>
      if versionGiven || major ≠ 1 then .error .invalid else readDirectives true handles rest
  | .directive (.handle name start) :: rest =>
      if handles.any (·.1 == name) then .error .invalid
      else readDirectives versionGiven ((name, start) :: handles) rest
  | .directive .other :: rest => readDirectives versionGiven handles rest
  | .documentStart :: rest => .ok (handles, rest)
  | tokens => .error (unexpected tokens)

/-- The signs of document ends in front of other tokens are left out. -/
def skipEnds : List Token → List Token
  | .documentEnd :: rest => skipEnds rest
  | rest => rest

/-- The document of a content, behind which there is no other. -/
def onlyDocument (start : Arrangement) (content : Arranging Nat) : Except ReadError Document := do
  let (root, behind) ← content.run start
  match skipEnds behind.tokens with
  | [] => return ⟨behind.graph, root⟩
  | rest => throw (unexpected rest)

/-- The content of a document. -/
def readDocumentNode : Arranging Nat := do
  readNode true false (6 * (← following).length + 8)

/-- The content of a document behind the sign of its start, which may be empty. -/
def readDocumentContent : Arranging Nat := do
  match ← following with
  | [] | .directive _ :: _ | .documentStart :: _ | .documentEnd :: _ => addAbsent
  | _ => readDocumentNode

/-- The only document of a text; a text without documents has none. -/
def readDocument (tokens : List Token) : Except ReadError (Option Document) :=
  match tokens with
  | [] => return none
  | .directive _ :: _ | .documentStart :: _ => do
      let (given, rest) ← readDirectives false [] tokens
      let handles := given ++ standardHandles
      return some (← onlyDocument { tokens := rest, handles } readDocumentContent)
  | _ => return some (← onlyDocument { tokens } readDocumentNode)

end Scaffold.Document.Yaml
