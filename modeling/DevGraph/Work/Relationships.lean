import DevGraph.Work.Repository

/-!
# The reader of relationships

Parents, children, dependencies and blockers are read by a function of their own, not by the one of
the repository.
-/

namespace DevGraph.Work

open Lib

/-- The table of the classes that relationships lead to. -/
def relationshipKinds : List Label :=
  [.initiative, .project, .issue, .task, .proposal, .requirement, .acceptanceCriterion, .handoff,
    .reviewPacket, .decision]

/-- What `str`, `int` and `tuple` make of values that are of another type. -/
structure Casts where
  text : Value → String
  int : Value → Except Error Int
  texts : Value → Except Error (List String)

namespace Casts

variable (casts : Casts)

def str : Value → String
  | .str s => s
  | v => casts.text v

def integer : Value → Except Error Int
  | .int n => pure n
  | v => casts.int v

def tuple : Value → Except Error (List String)
  | .strs l => pure l
  | v => casts.texts v

def datetime (props : Props) (p : Property) : Except Error Datetime :=
  match props p with
  | none => throw (Error.mk .keyError "timestamp")
  | some v =>
    match fromisoformat (casts.str v) with
    | some t => pure t
    | none => throw (Error.mk .valueError "Invalid isoformat string")

end Casts

/-- The progress that the constructor gives an item for which none is passed. -/
def newProgress (kind : Label) (workflowJson : Option String) : Except Error (Option Progress) :=
  if kind ∈ todoKinds then
    match workflowJson.filter (· ≠ "") with
    | none => pure (some .notStarted)
    | some raw => do
      let state ← decodeState raw
      return some (← stageProgress state.workflowId state.stage)
  else pure none

def workObjectFromNode (casts : Casts) (key : Key) (node : Node) : Except Error WorkObject := do
  let props := node.properties
  raiseIf (key.1 ∉ relationshipKinds) (Error.mk .keyError key.1.name)
  let createdAt ← casts.datetime props .createdAt
  let updatedAt ← casts.datetime props .updatedAt
  let version ← (props .version).elim (pure 1) casts.integer
  let artifactIds ← (props .artifactIds).elim (pure []) casts.tuple
  let externalLinkIds ← (props .externalLinkIds).elim (pure []) casts.tuple
  let priority ← (props .priority).elim (pure 0) casts.integer
  -- Passed on as it is; every node that can be read back holds a text here, if anything.
  let workflowJson := strOf props .workflowJson
  let w : WorkObject ← WorkObject.postInit
    { newObject key.1 key.2 ((props .title).elim "" casts.str)
        ((props .description).elim "" casts.str) createdAt updatedAt with
      version, artifactIds, externalLinkIds, priority, workflowJson, progress := none }
  let progress ← newProgress w.kind w.workflowJson
  let w := { w with progress }
  w.checkTodo
  match props .status with
  | none => return w
  | some (.str name) =>
    match statusOfName name with
    | some status => WorkObject.postInit { w with status }
    | none => throw (Error.mk .valueError "not a valid WorkStatus")
  | some _ => throw (Error.mk .valueError "not a valid WorkStatus")

/-- The canonical items at the other ends of the edges of an item. -/
def relatedKeys (s : Store) (key : Key) (relationship : Relationship) (incoming : Bool) :
    List Key :=
  ((s.edges.filter fun e => e.relationship = relationship ∧
    (if incoming then e.target else e.source) = key).map
      fun e => if incoming then e.source else e.target).filter fun k => k.1 ∈ canonicalWorkKinds

def foundNodes (s : Store) (keys : List Key) : List (Key × Node) :=
  keys.filterMap fun k => (s.node? k).map fun node => (k, node)

/-- The keys are sorted as pairs, and compared with the cursor as texts. -/
def relatedWorkNodes (s : Store) (key : Key) (relationship : Relationship) (incoming : Bool)
    (afterResource : Option String) (limit : Nat) : Except Error (List (Key × Node)) := do
  raiseIf (¬ (1 ≤ limit ∧ limit ≤ 100)) (Error.mk .numericBoundError "invalid_page_limit")
  raiseIf (relationship ∉ [Relationship.hasChild, .dependsOn, .blocks])
    (Error.mk .valueError "invalid relationship read")
  let keys := (relatedKeys s key relationship incoming).dedup.filter fun k =>
    afterResource.all fun after => after < resource k
  return foundNodes s ((keys.insertionSort keyLe).take limit)

end DevGraph.Work
