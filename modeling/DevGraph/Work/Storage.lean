import DevGraph.Work.Objects

/-!
# The in-memory graph storage

Node and edge writes of the in-memory adapter, with the validation of canonical payloads,
and the reads that the mutations use.
-/

namespace DevGraph.Work

open Lib

/-- A check or computation that does not depend on the store. -/
def lift {α : Type} (x : Except Error α) : Tx α := reading fun _ => x

def isCanonicalPayload (label : Label) (props : Props) : Bool :=
  label ∈ canonicalWorkKinds && (props .kind).isSome

/-- Validation failures of canonical payloads leave the storage as this error. -/
def canonicalOrUnavailable {α : Type} (x : Except Error α) : Except Error α :=
  match x with
  | .ok a => .ok a
  | .error e =>
    if e.isTypeError || e.isValueError then
      .error ⟨.storageUnavailable, "malformed canonical work object"⟩
    else .error e

def getNode (s : Store) (key : Key) : Except Error (Option Node) := do
  validateWorkObjectId key.2
  return s.node? key

def requireNode (s : Store) (key : Key) : Except Error Node := do
  match ← getNode s key with
  | some node => pure node
  | none => throw (Error.mk .keyError ("missing node " ++ nodeText key))

def createdProps (key : Key) (props : Props) : Except Error Props :=
  if isCanonicalPayload key.1 props then
    canonicalOrUnavailable (validateCanonicalWorkObjectProperties key props false false)
  else pure props

def createNode (key : Key) (props : Props) : Tx Node := do
  lift (validateWorkObjectId key.2)
  let props ← lift (createdProps key props)
  let s ← get
  raiseIf ((s.node? key).isSome)
    (Error.mk .keyError ("node " ++ nodeText key ++ " already exists"))
  set (s.put key ⟨props, false⟩)
  return ⟨props, false⟩

def truthy : Option Value → Bool
  | none => false
  | some (.str s) => s ≠ ""
  | some (.int n) => n ≠ 0
  | some (.bool b) => b
  | some (.strs l) => !l.isEmpty

def isArchivedStatus (props : Props) : Bool := props .status = some (.str "archived")

/-- The version of a dictionary is one more than that of another. -/
def nextVersion (props new : Props) : Bool :=
  match intOf props .version, intOf new .version with
  | some version, some version' => version' = version + 1
  | _, _ => false

def updateProps (key : Key) (existing : Node) (props : Props) : Except Error Props := do
  let current ← canonicalOrUnavailable
    (validateCanonicalWorkObjectProperties key existing.properties existing.archived true)
  let new ← canonicalOrUnavailable
    (validateCanonicalWorkObjectProperties key props
      (if truthy (props .progressSchema) then existing.archived else isArchivedStatus props) false)
  raiseIf (new .createdAt ≠ current .createdAt ∨ nextVersion current new = false)
    (Error.mk .keyError ("stale or inconsistent " ++ nodeText key))
  return new

def updatedNode (key : Key) (existing : Node) (props : Props) : Except Error Node :=
  if isCanonicalPayload key.1 existing.properties || isCanonicalPayload key.1 props then do
    raiseIf (existing.archived = true ∨ isArchivedStatus existing.properties = true ∧
        truthy (existing.properties .progressSchema) = false)
      (Error.mk .keyError ("archived " ++ nodeText key))
    let new ← updateProps key existing props
    return ⟨existing.properties.merge new,
      existing.archived || (isArchivedStatus new && !isArchivedStatus existing.properties)⟩
  else pure ⟨existing.properties.merge props, existing.archived⟩

/-- Replaces a node by what a computation makes of it. -/
def replaceNode (key : Key) (f : Node → Except Error Node) : Tx Node := do
  let existing ← reading (requireNode · key)
  let node ← lift (f existing)
  modify (·.put key node)
  return node

def updateNode (key : Key) (props : Props) : Tx Node :=
  replaceNode key (updatedNode key · props)

/-- The node that archiving leaves, when it is given properties. -/
def archivedNode (key : Key) (existing : Node) (props : Props) : Except Error Node :=
  if isCanonicalPayload key.1 existing.properties || isCanonicalPayload key.1 props then do
    raiseIf (existing.archived = true)
      (Error.mk .keyError ("already archived " ++ nodeText key))
    let canonical ← canonicalOrUnavailable
      (validateCanonicalWorkObjectProperties key props true false)
    raiseIf (nextVersion existing.properties canonical = false ∨
        canonical .createdAt ≠ existing.properties .createdAt ∨
        truthy (canonical .progressSchema) = false ∧ isArchivedStatus canonical = false)
      (Error.mk .keyError ("missing, stale, or inconsistent " ++ nodeText key))
    return ⟨canonical, true⟩
  else pure ⟨existing.properties.merge props, true⟩

def archiveNode (key : Key) (props : Props) : Tx Node :=
  replaceNode key (archivedNode key · props)

def restoredNode (key : Key) (existing : Node) (props : Props) : Except Error Node := do
  let canonical ← validateCanonicalWorkObjectProperties key props false false
  raiseIf (existing.archived = false ∨ canonical .progressSchema ≠ some (.int 1) ∨
      nextVersion existing.properties canonical = false ∨
      canonical .createdAt ≠ existing.properties .createdAt)
    (Error.mk .keyError "missing, stale, or inconsistent restore")
  return ⟨existing.properties.merge canonical, false⟩

def restoreNode (key : Key) (props : Props) : Tx Node :=
  replaceNode key (restoredNode key · props)

/-- Every node of a canonical kind has its kind and passes the validation. -/
def inspectCanonicalPersistence (s : Store) : Except Error Unit :=
  raiseIf (∃ entry ∈ s.nodes.entries, entry.1.1 ∈ canonicalWorkKinds ∧
      (entry.2.properties .kind ≠ some (.str entry.1.1.name) ∨
        (validateCanonicalWorkObjectProperties entry.1 entry.2.properties entry.2.archived
          true).isOk = false))
    (Error.mk .storageUnavailable "malformed canonical persistence")

def insertEdge (s : Store) (e : EdgeRecord) : Except Error Store :=
  if hsource : (s.node? e.source).isSome then
    if htarget : (s.node? e.target).isSome then
      pure (s.link e ((s.mem_nodes_iff _).2 (Option.isSome_iff_exists.1 hsource))
        ((s.mem_nodes_iff _).2 (Option.isSome_iff_exists.1 htarget)))
    else throw (Error.mk .keyError ("missing to node " ++ nodeText e.target))
  else throw (Error.mk .keyError ("missing from node " ++ nodeText e.source))

def createEdge (e : EdgeRecord) : Tx Unit := do
  lift (validateWorkObjectId e.source.2)
  lift (validateWorkObjectId e.target.2)
  let s ← reading (insertEdge · e)
  set s

def createEdges : List EdgeRecord → Tx Unit
  | [] => pure ()
  | e :: edges => do
    createEdge e
    createEdges edges

def deleteEdge (source : Key) (relationship : Relationship) (target : Key) : Tx Unit :=
  modify (·.unlink source relationship target)

/-- Removes the edges of a relationship that lead from the sources to the target. -/
def deleteEdges (relationship : Relationship) (target : Key) : List Key → Tx Unit
  | [] => pure ()
  | source :: sources => do
    deleteEdge source relationship target
    deleteEdges relationship target sources

def listEdges (s : Store) (relationship : Relationship) (limit : Nat) : List EdgeRecord :=
  (s.edges.filter fun e => e.relationship = relationship).take limit

/-- All edges of a relationship, up to the validation budget. -/
def boundedEdges (message : String) (s : Store) (relationship : Relationship) :
    Except Error (List EdgeRecord) := do
  let edges := listEdges s relationship 10001
  raiseIf (edges.length > 10000) (Error.mk .storageUnavailable message)
  return edges

/-- A node with up to two incoming edges of each containment relationship. -/
structure WorkContainment where
  node : Node
  parents : List EdgeRecord
  memberships : List EdgeRecord

def incoming (s : Store) (relationship : Relationship) (key : Key) : List EdgeRecord :=
  s.edges.filter fun e => e.relationship = relationship && e.target = key

def workContainment (s : Store) (key : Key) : Except Error (Option WorkContainment) := do
  raiseIf (key.1 ∉ canonicalWorkKinds) (Error.mk .valueError "invalid containment subject")
  validateWorkObjectId key.2
  return (s.node? key).map fun node =>
    ⟨node, (incoming s .hasChild key).take 2, (incoming s .containsWork key).take 2⟩

structure SessionRefContext where
  workRefs : List Key
  bounded : Bool

def keyLe (a b : Key) : Prop :=
  a.1.name.toList < b.1.name.toList ∨ a.1.name = b.1.name ∧ a.2.toList ≤ b.2.toList

instance : DecidableRel keyLe := fun _ _ => inferInstanceAs (Decidable (_ ∨ _))

def sessionLinks (s : Store) (refId : String) : List Key :=
  (s.nodes.entries.filter fun entry =>
    entry.1.1 = .sessionLink &&
      (entry.2.properties .originId = some (.str refId) ||
        entry.2.properties .targetId = some (.str refId))).map (·.1)

def sessionRefContext (s : Store) (refId : String) (limit : Nat) :
    Except Error SessionRefContext := do
  raiseIf (isSessionRefId refId = false) (Error.mk .valueError "invalid_session_reference")
  let work := ((s.edges.filter fun e => e.relationship = .attributedToSession &&
    e.target = (.sessionRef, refId)).map (·.source)).insertionSort keyLe
  return ⟨work.take limit, limit ≤ work.length || limit ≤ (sessionLinks s refId).length⟩

end DevGraph.Work
