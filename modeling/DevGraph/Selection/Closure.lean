import DevGraph.Selection.Network

/-!
# The closure solver

`solveClosure` runs augmenting-path maximum flow on the compiled network. The
residual graph holds one row of edges per vertex, and an edge names the position
of its partner in the row of its target.
-/

namespace DevGraph.Selection

structure ResidualEdge where
  target : Nat
  residual : Int
  reverse : Nat
deriving DecidableEq, Repr

abbrev Graph := List (List ResidualEdge)

def row (graph : Graph) (v : Nat) : List ResidualEdge := graph.getD v []

/-- An arc with the position of its forward edge: row `source`, place `forward`. -/
structure ManifestEntry where
  arc : Arc
  source : Nat
  target : Nat
  forward : Nat

/-- `indices.get`: nodes in their order, then the source and the sink. -/
def vertexIndex (keys : List JsString) (key : JsString) : Nat :=
  if key = sinkKey then keys.length + 1
  else if key = sourceKey then keys.length
  else keys.idxOf key

/-- Both edges of one arc are appended to the rows of its ends. -/
def pushArc (graph : Graph) (source target : Nat) (capacity : Int) : Graph :=
  let forward : ResidualEdge := ⟨target, capacity, (row graph target).length⟩
  let backward : ResidualEdge := ⟨source, 0, (row graph source).length⟩
  (graph.modify source (· ++ [forward])).modify target (· ++ [backward])

def insertArc (keys : List JsString) (state : Graph × List ManifestEntry) (arc : Arc) :
    Graph × List ManifestEntry :=
  let source := vertexIndex keys arc.source
  let target := vertexIndex keys arc.target
  (pushArc state.1 source target arc.capacity,
    state.2 ++ [⟨arc, source, target, (row state.1 source).length⟩])

def buildGraph (keys : List JsString) (edges : List Arc) : Graph × List ManifestEntry :=
  edges.foldl (insertArc keys) (List.replicate (keys.length + 2) [], [])

/-- An entry of the `parent` array: `null`, `[-1, -1]`, or a vertex and a place in its row. -/
inductive Parent
  | unseen
  | root
  | via (source place : Nat)
deriving DecidableEq, Repr

structure Search where
  parent : List Parent
  queue : List Nat
deriving Repr

def Search.parentOf (s : Search) (v : Nat) : Parent := s.parent.getD v .unseen

/-- The body of the `forEach` over one row. -/
def visitEdge (source : Nat) (s : Search) (e : ResidualEdge × Nat) : Search :=
  if 0 < e.1.residual ∧ s.parentOf e.1.target = .unseen then
    ⟨s.parent.set e.1.target (.via source e.2), s.queue ++ [e.1.target]⟩
  else s

def visitRow (graph : Graph) (source : Nat) (s : Search) : Search :=
  (row graph source).zipIdx.foldl (visitEdge source) s

/-- The breadth-first loop, `q` being the read position in the growing queue. -/
def searchLoop (graph : Graph) (sink : Nat) : Nat → Nat → Search → Search
  | 0, _, s => s
  | fuel + 1, q, s =>
    match s.queue[q]? with
    | none => s
    | some v =>
      if s.parentOf sink = .unseen then searchLoop graph sink fuel (q + 1) (visitRow graph v s)
      else s

def search (graph : Graph) (source sink : Nat) : Search :=
  searchLoop graph sink graph.length 0
    ⟨(List.replicate graph.length .unseen).set source .root, [source]⟩

/-- The edges from `at` back to the root of the search, each with its head vertex. -/
def backtrack (s : Search) : Nat → Nat → List (Nat × Nat × Nat)
  | 0, _ => []
  | fuel + 1, v =>
    match s.parentOf v with
    | .via source place => (v, source, place) :: backtrack s fuel source
    | _ => []

def residualAt (graph : Graph) (source place : Nat) : Int :=
  match (row graph source)[place]? with
  | some e => e.residual
  | none => 0

/-- `Math.min` from `Infinity`, which `none` stands for. -/
def bottleneck (graph : Graph) (path : List (Nat × Nat × Nat)) : Option Int :=
  path.foldl (fun amount e =>
    let r := residualAt graph e.2.1 e.2.2
    some (match amount with
      | none => r
      | some a => min a r)) none

def addResidual (graph : Graph) (source place : Nat) (amount : Int) : Graph :=
  graph.modify source fun r => r.modify place fun e => { e with residual := e.residual + amount }

/-- Moves `amount` from one edge of the path to its partner. -/
def augmentEdge (amount : Int) (graph : Graph) (e : Nat × Nat × Nat) : Graph :=
  match (row graph e.2.1)[e.2.2]? with
  | none => graph
  | some edge =>
    addResidual (addResidual graph e.2.1 e.2.2 (-amount)) e.1 edge.reverse amount

structure FlowState where
  graph : Graph
  flow : Int

/-- One round of the outer loop: the reached vertices when the sink is not among them,
and otherwise the state after augmenting. -/
def flowStep (source sink : Nat) (st : FlowState) : List Nat ⊕ FlowState :=
  let s := search st.graph source sink
  if s.parentOf sink = .unseen then .inl s.queue
  else
    let path := backtrack s st.graph.length sink
    match bottleneck st.graph path with
    | none => .inr st
    | some amount => .inr ⟨path.foldl (augmentEdge amount) st.graph, st.flow + amount⟩

def flowLoop (source sink : Nat) : Nat → FlowState → Option (List Nat × FlowState)
  | 0, _ => none
  | fuel + 1, st =>
    match flowStep source sink st with
    | .inl reachable => some (reachable, st)
    | .inr next => flowLoop source sink fuel next

structure NetworkEdge where
  arc : Arc
  flow : Int
  cut : Bool

structure CutEdge where
  source : JsString
  target : JsString
  capacity : Int
  type : ArcType

structure Solution where
  selected : List JsString
  quantizedUtility : ℚ
  C : Int
  M : Int
  cutCapacity : Int
  scale : Nat
  cut : List CutEdge
  weights : List WeightedNode
  networkEdges : List NetworkEdge

/-- The result assembled from the last residual graph and the vertices reached in it. -/
def certify (network : Network) (manifest : List ManifestEntry) (reachable : List Nat)
    (st : FlowState) : Except SelectionError Solution := do
  let selected := ((network.weights.zipIdx.filter fun n => reachable.contains n.2).map
    fun n => n.1.key)
  let networkEdges := manifest.map fun e =>
    (⟨e.arc, e.arc.capacity - residualAt st.graph e.source e.forward,
      reachable.contains e.source && !reachable.contains e.target⟩ : NetworkEdge)
  let cut := (networkEdges.filter NetworkEdge.cut).map fun e =>
    (⟨e.arc.source, e.arc.target, e.arc.capacity, e.arc.type⟩ : CutEdge)
  let cutCapacity := cut.foldl (fun sum e => sum + e.capacity) 0
  requireThat (cutCapacity == st.flow && !cut.any fun e => e.type == .prerequisite)
    .solverCertificate
  return ⟨selected, nearestDouble ((network.C - st.flow : Int) / (network.scale : ℚ)), network.C,
    network.M, cutCapacity, network.scale, cut, network.weights, networkEdges⟩

/-- The flow grows by at least one in every round and never exceeds `C`, so that the
rounds the loop is given here are enough. -/
def solveClosure (mul : ℚ → Nat → Option ℚ) (nodes : List Node)
    (dependencies : List Dependency) (scale : Int) : Except SelectionError Solution := do
  let network ← compileNetwork mul nodes dependencies scale
  let keys := network.weights.map WeightedNode.key
  let source := keys.length
  let built := buildGraph keys network.edges
  match flowLoop source (source + 1) (network.C.toNat + 1) ⟨built.1, 0⟩ with
  | none => .error .outOfFuel
  | some (reachable, st) => certify network built.2 reachable st

end DevGraph.Selection
