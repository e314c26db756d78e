import Scaffold.Document.Yaml.Node
import Scaffold.Document.Yaml.Scalar

/-!
# Reading YAML

The nodes of a YAML text are read as a document value, the outer lists and mappings before those
inside them.  A mapping may take entries from other mappings; its own entries count before those, and
of several values of a key the last one counts.
-/

namespace Scaffold.Document.Yaml

/-! ## Entries of mappings -/

/-- The kind of a node. -/
def kindAt (graph : Graph) (number : Nat) : NodeKind :=
  (graph[number]?.map Node.kind).getD .unknown

/-- A key that stands for the value of its mapping is read as a text. -/
def settleKey (graph : Graph) (key : Nat) : Graph :=
  match graph[key]? with
  | some (.scalar .standard codes) => graph.setIfInBounds key (.scalar .text codes)
  | some (.list .standard items) => graph.setIfInBounds key (.list .text items)
  | some (.mapping .standard entries) => graph.setIfInBounds key (.mapping .text entries)
  | _ => graph

/-- The first entry that asks for the entries of others: the entries before and behind it. -/
def splitAtMerge? (graph : Graph) (entries : List (Nat × Nat)) :
    Option (List (Nat × Nat) × Nat × List (Nat × Nat)) :=
  let isPlain := fun (entry : Nat × Nat) => kindAt graph entry.1 != .merge
  match entries.dropWhile isPlain with
  | [] => none
  | (_, source) :: rest => some (entries.takeWhile isPlain, source, rest)

/-- The mappings whose entries are taken: one, or those of a list. -/
def sourcesOf (graph : Graph) (source : Nat) : Except ReadError (List Nat) :=
  match graph[source]? with
  | some (.mapping _ _) => .ok [source]
  | some (.list _ items) => .ok items
  | _ => .error .invalid

/-- The entries of a mapping in a graph. -/
def entriesAt (graph : Graph) (number : Nat) : Except ReadError (List (Nat × Nat) × NodeKind) :=
  match graph[number]? with
  | some (.mapping kind entries) => .ok (entries, kind)
  | _ => .error .invalid

/--
Replace the entries of a mapping that ask for entries of others by those entries, in front of its
own.  Of several mappings the last one comes first.  Every step takes one such entry away.
-/
def flatten : Nat → Nat → List (Nat × Nat) → Graph → Except ReadError Graph
  | 0, _, _, _ => .error .invalid
  | fuel + 1, number, taken, graph => do
      let (entries, kind) ← entriesAt graph number
      match splitAtMerge? graph entries with
      | none =>
          let all := graph.setIfInBounds number (.mapping kind (taken ++ entries))
          return entries.foldl (fun graph entry => settleKey graph entry.1) all
      | some (before, source, behind) =>
          let opened := graph.setIfInBounds number (.mapping kind (before ++ behind))
          let sources ← sourcesOf opened source
          let (lists, merged) ← sources.foldlM (fun (lists, graph) mapping => do
            let flat ← flatten fuel mapping [] graph
            let (others, _) ← entriesAt flat mapping
            return (others :: lists, flat)) ([], opened)
          flatten fuel number (taken ++ lists.flatten) merged

/-- A number of steps that is enough to flatten any mapping of a graph. -/
def flattenFuel (graph : Graph) : Nat :=
  graph.foldl (fun count node =>
    match node with
    | .mapping _ entries => count + entries.length
    | _ => count) 1

/-! ## Values of nodes -/

/-- What is known of the value of a node: a scalar, or the numbers of the parts of another value. -/
inductive Shape where
  | scalar (value : Value)
  | list (items : List Nat)
  | pairs (entries : List (Nat × Nat))
  | set (members : List Nat)
  | mapping (entries : List (Nat × Nat))

/-- The reading of values under way. -/
structure Construction where
  graph : Graph
  /-- What is known of the nodes that were reached. -/
  shapes : Array (Option Shape)
  /-- The lists and mappings whose parts were not looked at yet, the last one first. -/
  waiting : List Nat := []

/-- The shape of an empty list or mapping of a kind. -/
def emptyShape? : NodeKind → Option Shape
  | .list => some (.list [])
  | .pairs => some (.pairs [])
  | .set => some (.set [])
  | .mapping => some (.mapping [])
  | _ => none

/--
The codes of a scalar.  A mapping stands for the value of the key that says so.  Such mappings may
stand inside each other, but not inside themselves.
-/
def codesOf (graph : Graph) : Nat → Nat → Except ReadError (List Nat)
  | 0, _ => .error (.defect .endless)
  | fuel + 1, number =>
      match graph[number]? with
      | some (.scalar _ codes) => .ok codes
      | some (.mapping _ entries) =>
          match entries.find? fun entry => kindAt graph entry.1 == .standard with
          | some (_, value) => codesOf graph fuel value
          | none => .error .invalid
      | _ => .error .invalid

/-- The value of a node of a scalar kind. -/
def scalarOf (graph : Graph) (number : Nat) (node : Node) : Except ReadError Value :=
  match node with
  | .scalar kind codes => scalarValue kind codes
  | .list _ _ | .mapping .merge _ | .mapping .standard _ | .mapping .unknown _ => .error .invalid
  | .mapping kind _ => do
      let codes ← codesOf graph (graph.size + 1) number
      if kind == .stamp then .error (.defect .stampOfMapping) else scalarValue kind codes

namespace Construction

/-- Reach a node: a scalar is read at once, a list or mapping later. -/
def reach (state : Construction) (number : Nat) : Except ReadError Construction :=
  match state.shapes[number]?, state.graph[number]? with
  | some none, some node =>
      match emptyShape? node.kind with
      | some shape =>
          .ok { state with
            shapes := state.shapes.setIfInBounds number (some shape)
            waiting := number :: state.waiting }
      | none =>
          (scalarOf state.graph number node).map fun value =>
            { state with shapes := state.shapes.setIfInBounds number (some (.scalar value)) }
  | _, _ => .ok state

/-- Give a node its shape. -/
def shape (state : Construction) (number : Nat) (shape : Shape) : Construction :=
  { state with shapes := state.shapes.setIfInBounds number (some shape) }

/-- A node that was reached can be a key: lists and mappings cannot. -/
def canBeKey (state : Construction) (number : Nat) : Bool :=
  match state.shapes[number]? with
  | some (some (.scalar _)) => true
  | _ => false

/-- Reach the key and the value of an entry. -/
def reachEntry (state : Construction) (entry : Nat × Nat) : Except ReadError Construction := do
  let keyed ← state.reach entry.1
  if keyed.canBeKey entry.1 then keyed.reach entry.2 else .error .invalid

/-- The pair that a mapping of one entry gives; both parts are reached. -/
def reachPair (state : Construction) (number : Nat) :
    Except ReadError ((Nat × Nat) × Construction) :=
  match state.graph[number]? with
  | some (.mapping _ [(key, value)]) => do
      let keyed ← state.reach key
      let both ← keyed.reach value
      return ((key, value), both)
  | _ => .error .invalid

/-- The entries of a mapping with those that it takes from others; their parts are reached. -/
def reachMapping (state : Construction) (number : Nat) :
    Except ReadError (List (Nat × Nat) × Construction) := do
  let graph ← flatten (flattenFuel state.graph) number [] state.graph
  let (entries, _) ← entriesAt graph number
  let reached ← entries.foldlM reachEntry { state with graph }
  return (entries, reached)

/-- Look at the parts of a list or mapping that was reached. -/
def fill (state : Construction) (number : Nat) : Except ReadError Construction :=
  match kindAt state.graph number, state.graph[number]? with
  | .list, some (.list _ items) =>
      (items.foldlM reach state).map fun reached => reached.shape number (.list items)
  | .pairs, some (.list _ items) => do
      let (reversed, reached) ← items.foldlM (fun (pairs, state) item => do
        let (pair, reached) ← reachPair state item
        return (pair :: pairs, reached)) ([], state)
      return reached.shape number (.pairs reversed.reverse)
  | .set, _ => do
      let (entries, reached) ← reachMapping state number
      return reached.shape number (.set (entries.map (·.1)))
  | .mapping, _ => do
      let (entries, reached) ← reachMapping state number
      return reached.shape number (.mapping entries)
  | _, _ => .error .invalid

/-- Look at the parts of everything that waits, and of what is reached by that. -/
def fillAll : Nat → Construction → Except ReadError Construction
  | 0, state => .ok state
  | fuel + 1, state =>
      match state.waiting with
      | [] => .ok state
      | waiting => do
          let filled ← waiting.reverse.foldlM fill { state with waiting := [] }
          fillAll fuel filled

end Construction

/-! ## Shared and cyclic values -/

/-- Put entries into a mapping in order. -/
def insertAll (entries : List (Value × Value)) : Entries :=
  entries.foldl (fun all entry => Entries.insert all entry.1 entry.2) []

/-- The value of a shape, given those of its parts. -/
def Shape.value? (find : Nat → Option Value) : Shape → Option Value
  | .scalar value => some value
  | .list items => (items.mapM find).map .list
  | .pairs entries =>
      let pairs? := entries.mapM fun (first, second) => do
        return Value.pair (← find first) (← find second)
      pairs?.map .list
  | .set members =>
      (members.mapM find).map fun keys => .set ((insertAll (keys.map (·, .null))).map (·.1))
  | .mapping entries =>
      let entries? := entries.mapM fun (key, value) => do return (← find key, ← find value)
      entries?.map fun all => .mapping (insertAll all)

/-- The value of a shape that is not looked into. -/
def Shape.outline : Shape → Value
  | .scalar value => value
  | .list _ | .pairs _ => .list []
  | .set _ => .set []
  | .mapping _ => .mapping []

/-- The shapes of nodes, and the values that are known of them. -/
structure Values where
  shapes : Array (Option Shape)
  known : Array (Option Value)

namespace Values

/-- The value of a node, if it is known. -/
def find? (values : Values) (number : Nat) : Option Value :=
  values.known[number]?.join

/-- The value of a node is known as soon as those of its parts are. -/
def learn (values : Values) (number : Nat) : Values :=
  if (values.find? number).isSome then values
  else
    match values.shapes[number]?.join.bind (Shape.value? values.find?) with
    | some value => { values with known := values.known.setIfInBounds number (some value) }
    | none => values

/-- The number of nodes whose value is known. -/
def knownCount (values : Values) : Nat :=
  values.known.foldl (fun count value => if value.isSome then count + 1 else count) 0

/-- Learn the values of all nodes that do not stand inside themselves, the last nodes first. -/
def learnAll : Nat → Values → Values
  | 0, values => values
  | fuel + 1, values =>
      let more := (List.range values.shapes.size).reverse.foldl learn values
      if more.knownCount = values.knownCount then more else learnAll fuel more

/--
The value of a node.  Inside itself it stands for itself once more, which is written out a limited
number of times.
-/
def unrolled (values : Values) : Nat → Nat → List Nat → Nat → Value
  | 0, _, _, _ => .null
  | fuel + 1, rounds, around, number =>
      match values.find? number, values.shapes[number]?.join with
      | some value, _ => value
      | none, none => .null
      | none, some shape =>
          if around.contains number then
            match rounds with
            | 0 => .again shape.outline
            | rounds + 1 => .again (unrolled values fuel rounds [] number)
          else
            let inside := fun part => some (unrolled values fuel rounds (number :: around) part)
            (shape.value? inside).getD .null

/-- How often a value that stands inside itself is written out. -/
def roundLimit : Nat :=
  2

/-- The value of a node, given the shapes of all nodes. -/
def ofShapes (shapes : Array (Option Shape)) (number : Nat) : Value :=
  let values := learnAll (shapes.size + 1) ⟨shapes, Array.replicate shapes.size none⟩
  values.unrolled ((shapes.size + 1) * (roundLimit + 1) + 1) roundLimit [] number

end Values

/-- The value of a document. -/
def Document.value (document : Document) : Except ReadError Value := do
  let graph := document.graph
  let start : Construction := { graph, shapes := Array.replicate graph.size none }
  let reached ← start.reach document.root
  let filled ← reached.fillAll (graph.size + 1)
  return Values.ofShapes filled.shapes document.root

/-- Read a text; one without a document is null. -/
def read (text : String) : Except ReadError Value := do
  match tokens? text with
  | none => .error .invalid
  | some tokens =>
      match ← readDocument tokens with
      | none => return .null
      | some document => document.value

/-- A value can be a key of entries: one that is or has a list, set or mapping cannot. -/
def isKey : Value → Bool
  | .list _ | .set _ | .mapping _ | .again _ => false
  | .pair first second => isKey first && isKey second
  | _ => true

end Scaffold.Document.Yaml
