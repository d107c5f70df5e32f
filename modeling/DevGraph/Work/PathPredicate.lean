import DevGraph.Lib.Cypher
import DevGraph.Work.DelegatedRead

/-!
# The path filter of the database

The predicate that the database evaluates on an item before it orders and cuts a page, and the graph
that it reads: nodes with one label and an id, and any relationships between them, parallel ones
too.
-/

namespace DevGraph.Work

open Lib

/-- A node as the storage returns it, with the way that the database holds its properties. -/
structure StoredNode where
  node : Node
  encoded : Bool

def genericJsonMark : String := "__devgraph_generic_json_v1__:"

def encodeProperty (v : Value) : Value := .str (genericJsonMark ++ dumps false v.toJson)

def StoredNode.kind (stored : StoredNode) : Option Value :=
  if stored.encoded then (stored.node.properties .kind).map encodeProperty
  else stored.node.properties .kind

/-- The property `__devgraph_generic_encoding` in the database. -/
def StoredNode.encoding (stored : StoredNode) : Option Value :=
  if stored.encoded then some (.str "json-v1") else none

/-- The payload of a Work kind that has the property `kind` is never encoded. -/
structure PathGraph where
  node? : Key → Option StoredNode
  edges : List EdgeRecord
  endpoints : ∀ e ∈ edges, (node? e.source).isSome ∧ (node? e.target).isSome
  plain : ∀ key, ∀ stored ∈ node? key, key.1 ∈ canonicalWorkKinds →
    stored.node.properties .kind ≠ none → stored.encoded = false

namespace PathGraph

variable (g : PathGraph)

def incoming (relationship : Relationship) (key : Key) : List EdgeRecord :=
  g.edges.filter fun e => e.relationship = relationship && e.target = key

/-- The reads of the receiver. -/
def storage : PathStorage where
  workContainment key := do
    raiseIf (key.1 ∉ canonicalWorkKinds) (Error.mk .valueError "invalid containment subject")
    validateWorkObjectId key.2
    return (g.node? key).map fun stored =>
      ⟨stored.node, (g.incoming .hasChild key).take 2, (g.incoming .containsWork key).take 2⟩
  getNode key := do
    validateWorkObjectId key.2
    return (g.node? key).map StoredNode.node

/-- The graph of a store, with all properties plain. -/
def ofStore (s : Store) : PathGraph where
  node? key := (s.node? key).map fun node => ⟨node, false⟩
  edges := s.edges
  endpoints := by
    intro e he
    rw [Option.isSome_map, Option.isSome_map, Option.isSome_iff_exists, Option.isSome_iff_exists,
      ← s.mem_nodes_iff, ← s.mem_nodes_iff]
    exact s.endpoints e he
  plain := by
    intro key stored hstored _ _
    obtain ⟨node, -, rfl⟩ := Option.map_eq_some_iff.1 hstored
    rfl

lemma storage_ofStore (s : Store) : (ofStore s).storage = memoryStorage s := by
  have hnode : ∀ key, ((ofStore s).node? key).map StoredNode.node = s.node? key := by
    intro key
    simp [ofStore, Function.comp_def]
  have hitem : ∀ (key : Key) (above below : List EdgeRecord),
      (((ofStore s).node? key).map fun stored => WorkContainment.mk stored.node above below) =
        (s.node? key).map fun node => ⟨node, above, below⟩ := by
    intro key above below
    rw [← hnode key, Option.map_map]
    rfl
  simp only [storage, memoryStorage, hnode, hitem]
  rfl

def kind (key : Key) : Option Value := (g.node? key).bind StoredNode.kind

def encoding (key : Key) : Option Value := (g.node? key).bind StoredNode.encoding

end PathGraph

def labelsOf (key : Key) : List String := [key.1.name]

def coalesceEmpty (v : Option Value) : Option Value := some (v.getD (.str ""))

/-- The labels that the start of a relationship may have, by the label of its end. -/
def sourceLabels : Option String → List String
  | some "Project" => ["Initiative"]
  | some "Issue" => ["Initiative", "Project"]
  | some "Task" => ["Initiative", "Project", "Issue"]
  | _ => []

/-- The parameter `$path_arena_kind`. -/
def pathArenaKind : Value := encodeProperty (.str "Arena")

section Predicate

variable (g : PathGraph)

def matchesItem (item : Key) : Truth :=
  (Truth.of ((labelsOf item).length = 1)).and <|
    (Truth.isIn (labelsOf item)[0]?
      ["Todo", "Proposal", "Initiative", "Project", "Issue", "Task"]).and <|
    Truth.equal (g.kind item) ((labelsOf item)[0]?.map Value.str)

def matchesParent (e : EdgeRecord) : Truth :=
  Truth.isIn (labelsOf e.source)[0]? (sourceLabels (labelsOf e.target)[0]?)

/-- An item below the root has one parent and is in no Arena. -/
def matchesChild (item : Key) : Truth :=
  (Truth.of ((into g.edges .hasChild item).length = 1)).and
    (Truth.exist (into g.edges .containsWork item) fun _ => .yes).not

def matchesArena (arena : Key) : Truth :=
  ((Truth.equal (coalesceEmpty (g.encoding arena)) (some (.str ""))).and
      (Truth.equal (coalesceEmpty (g.kind arena)) (some (.str "Arena")))).or
    ((Truth.equal (coalesceEmpty (g.encoding arena)) (some (.str "json-v1"))).and
      (Truth.equal (coalesceEmpty (g.kind arena)) (some pathArenaKind)))

/-- What a relationship that places the root must not be. -/
def misplaces (root arena : Key) : Truth :=
  (Truth.of ((labelsOf arena).length ≠ 1)).or <|
    (Truth.of ("Arena" ∈ labelsOf arena)).not.or <|
    (matchesArena g arena).not.or <|
    (Truth.isIn (labelsOf root)[0]? ["Initiative", "Task"]).not

def matchesAnchor (root : Key) (items : List Key) (anchor : String) : Truth :=
  (Truth.any items fun item =>
      Truth.equal ((labelsOf item)[0]?.map (· ++ "/" ++ item.2)) (some anchor)).or <|
    Truth.exist (into g.edges .containsWork root) fun i =>
      (Truth.of ("Arena" ∈ labelsOf (g.edges.get i).source)).and
        (Truth.equal (some ("Arena/" ++ (g.edges.get i).source.2)) (some anchor))

def matchesChain (resourcePaths : Option (List (List String))) (n : Key)
    (chain : List (Fin g.edges.length)) : Truth :=
  let root := trailStart g.edges n chain
  let items := trailNodes g.edges n chain
  (Truth.exist (into g.edges .hasChild root) fun _ => .yes).not.and <|
    (Truth.all items (matchesItem g)).and <|
    (Truth.all chain fun i => matchesParent (g.edges.get i)).and <|
    (Truth.all items.tail (matchesChild g)).and <|
    (Truth.of ((into g.edges .containsWork root).length ≤ 1)).and <|
    (Truth.exist (into g.edges .containsWork root)
      fun i => misplaces g root (g.edges.get i).source).not.and <|
    match resourcePaths with
    | none => .unknown
    | some selected => Truth.any selected fun path =>
        Truth.all path fun anchor => matchesAnchor g root items anchor

def pathPredicate (resourcePaths : Option (List (List String))) (n : Key) : Truth :=
  (Truth.of ((resourcePaths.getD []).length = 0)).or
    (Truth.exist (trails g.edges .hasChild 3 n) (matchesChain g resourcePaths n))

end Predicate

/-- The paths among the parameters of a selector, which has none when they are empty. -/
def DelegatedWorkSelector.pathParameters (selector : DelegatedWorkSelector) :
    Option (List (List String)) :=
  if selector.resourcePaths = [] then none
  else some (selector.resourcePaths.map fun p => p.path.map resource)

end DevGraph.Work
