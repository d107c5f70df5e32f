import DevGraph.Lib.DepthFirst
import DevGraph.Work.Arenas
import DevGraph.Work.Lifecycle
import DevGraph.Work.ProgressMutations
import DevGraph.Work.Sessions

/-!
# Named Work and Arena mutations

The execution of a parsed request: version preconditions, the operation, and the outer
transaction. A request is parsed again from its canonical bytes before it runs.
-/

namespace DevGraph.Work

open Lib

inductive Changed
  | work (w : WorkObject)
  | arena (a : Arena)
  | session (value : SessionWorkState)

def current (s : Store) (key : Key) (version : Int) : Except Error WorkObject := do
  let w ← getById s key
  raiseIf (w.version ≠ version) (versionConflict key version w.version)
  return w

def reference (s : Store) (r : WorkReference) : Except Error WorkObject :=
  current s r.key r.expectedVersion

def active (w : WorkObject) : Except Error Unit :=
  raiseIf (w.archived = true)
    (Error.mk .invalidStatusTransition "archived Work cannot be changed")

def relationshipConflict (message : String) : Error := ⟨.workRelationshipConflict, message⟩

def reopenBeforeScopeChange (w : WorkObject) : Except Error Unit :=
  raiseIf (w.progress = some .done)
    (relationshipConflict "Reopen completed work before changing its scope.")

def bump (w : WorkObject) (now : Datetime) : Tx WorkObject := Repository.update w w.version now

def validationEdges (s : Store) (relationship : Relationship) : Except Error (List EdgeRecord) :=
  boundedEdges "relationship validation budget exceeded" s relationship

def createWork (clock : Nat → Datetime) (kind : Label) (c : CreateWork) : Tx WorkObject := do
  let w ← lift (WorkObject.postInit
    { newObject kind c.id c.title c.description (clock 0) (clock 1) with
      priority := c.priority
      artifactIds := c.artifactIds
      externalLinkIds := c.externalLinkIds })
  Repository.create w

def restoreWork (w : WorkObject) (now : Datetime) : Tx WorkObject := do
  raiseIf (w.archived = false) (Error.mk .invalidStatusTransition "Item is not archived.")
  let restored ← lift (WorkObject.postInit { w.next now with archived := false })
  let _ ← restoreNode w.key restored.toNodeProperties
  return restored

def patchWork (w : WorkObject) (changes : ContentChanges) (now : Datetime) : Tx WorkObject := do
  lift changes.postInit
  Repository.updateContent w.key w.version changes now

def acceptWork (clock : Nat → Datetime) (w : WorkObject) (a : AcceptProposal) :
    Tx WorkObject := do
  let existing ← reading (getNode · (.decision, a.decisionId))
  raiseIf (existing.isSome) (Error.mk .workObjectAlreadyExists "Decision already exists")
  let decision ← lift (WorkObject.postInit
    (newObject .decision a.decisionId a.decisionTitle "" (clock 1) (clock 2)))
  acceptProposal w.id decision (clock 0)

/-- The single decision behind the subject is the one that the request names. -/
def checkConversion (s : Store) (w : WorkObject) (c : Conversion) : Except Error Unit := do
  let edges ← validationEdges s .acceptedByDecision
  raiseIf ((edges.filter fun e => e.source = w.key).map (·.target) ≠ [(.decision, c.decisionId)])
    (relationshipConflict "conversion Decision precondition failed")
  let existing ← getNode s (.issue, c.issueId)
  raiseIf (existing.isSome) (Error.mk .workObjectAlreadyExists "Issue already exists")

def convertWork (clock : Nat → Datetime) (w : WorkObject) (c : Conversion) : Tx WorkObject := do
  reading (checkConversion · w c)
  let issue ← convertAcceptedProposalToIssue w.id c.issueId (clock 1) (clock 2)
  let _ ← bump w (clock 0)
  return issue

/-- A parent that the change touches, added to those it touches already. -/
def touch (s : Store) (touched : List WorkObject) (r : WorkReference) :
    Except Error (List WorkObject) := do
  let parent ← reference s r
  active parent
  reopenBeforeScopeChange parent
  raiseIf (∃ w ∈ touched, w.key = parent.key ∧ w.version ≠ r.expectedVersion)
    (relationshipConflict "conflicting parent versions")
  return if ∃ w ∈ touched, w.key = parent.key then
      touched.map fun w => if w.key = parent.key then parent else w
    else touched ++ [parent]

def bumpAll (clock : Nat → Datetime) : Nat → List WorkObject → Tx Unit
  | _, [] => pure ()
  | n, w :: ws => do
    let _ ← bump w (clock n)
    bumpAll clock (n + 1) ws

def childEdge (parent child : Key) : EdgeRecord :=
  ⟨parent, .hasChild, child, prop1 .ordered (.bool true)⟩

/-- The edges from the parents of an item, when they are the ones that the change expects. -/
def checkParents (s : Store) (child : WorkObject) (change : ParentChange) :
    Except Error (List EdgeRecord) := do
  let edges ← validationEdges s .hasChild
  let parents := edges.filter fun e => e.target = child.key
  raiseIf ((parents.map (·.source)).dedup ≠ change.previousParent.toList.map WorkReference.key)
    (relationshipConflict "parent precondition failed")
  return parents

def setParent (clock : Nat → Datetime) (child : WorkObject) (change : ParentChange) :
    Tx WorkObject := do
  lift (reopenBeforeScopeChange child)
  let parents ← reading (checkParents · child change)
  let touched ← reading fun s =>
    (change.previousParent.toList ++ change.parent.toList).foldlM (touch s) []
  removeForParent child change.previousArena.join (clock 1)
  deleteEdges .hasChild child.key (parents.map (·.source))
  createEdges (change.parent.toList.map fun r => childEdge r.key child.key)
  bumpAll clock 2 touched
  bump child (clock 0)

def arcs (edges : List EdgeRecord) : List (Key × Key) := edges.map fun e => (e.source, e.target)

/-- Adds an edge that closes no cycle, or removes one. -/
def changeEdge (relationship : Relationship) (add : Bool) (source target : Key) : Tx Unit := do
  if add then do
    let edges ← reading (validationEdges · relationship)
    raiseIf (meets (arcs edges) source [] [target] = true)
      (relationshipConflict "relationship would create a cycle")
    createEdge ⟨source, relationship, target, noProps⟩
  else deleteEdge source relationship target

def edgeChange (clock : Nat → Datetime) (w : WorkObject) (relationship : Relationship)
    (add : Bool) (r : WorkReference) : Tx WorkObject := do
  let target ← reading (reference · r)
  lift (active target)
  lift (reopenBeforeScopeChange w)
  lift (reopenBeforeScopeChange target)
  changeEdge relationship add w.key target.key
  let _ ← bump target (clock 1)
  bump w (clock 0)

section Execution

variable (sha256 : String → String)

def sessionReference (authority : Authority) (now : Datetime) (identity : SessionIdentity) :
    Except Error SessionRef :=
  SessionRef.postInit
    ⟨identity, authority.actorId, authority.sessionId, authority.correlationId, now⟩

def linkWitness (authority : Authority) (clock : Nat → Datetime) :
    Option LinkWitness → Tx Unit
  | none => pure ()
  | some l => do
    let origin ← lift (sessionReference authority (clock 2) l.origin)
    let target ← lift (sessionReference authority (clock 3) l.target)
    linkSessions sha256 origin target l

def attachWork (authority : Authority) (clock : Nat → Datetime) (w : WorkObject)
    (a : SessionAttach) : Tx WorkObject := do
  let ref ← lift (sessionReference authority (clock 1) a.session)
  reraising Error.isValueError
    (relationshipConflict "Session attribution conflicts with stored provenance.") do
    linkWitness sha256 authority clock a.link
    attachSession sha256 ref w.key w.version a.basis a.observedAt
  bump w (clock 0)

/-- The operations on an active subject. -/
def executeActive (authority : Authority) (clock : Nat → Datetime) (w : WorkObject) :
    Payload → Tx WorkObject
  | .sessionAttach a => attachWork sha256 authority clock w a
  | .progressSet change => setProgress sha256 clock authority.actorId w change
  | .proposalReject rejection => rejectProposal clock w rejection
  | .workflowAssign a => assignWorkflow clock w a
  | .workflowReview r => reviewWorkflow sha256 clock authority.actorId w r
  | .workflowTransition t => transitionWorkflow sha256 clock w t
  | .patch changes => patchWork w changes (clock 0)
  | .status status => Repository.transitionStatus w.key status (clock 0)
  | .accept a => acceptWork clock w a
  | .convert c => convertWork clock w c
  | .parentSet change => setParent clock w change
  | .dependency add r => edgeChange clock w .dependsOn add r
  | .blocker add r => edgeChange clock w .blocks add r
  | _ => throw (Error.mk .valueError "operation has no active subject")

/-- The operations on a subject at the version that the request expects. -/
def executeSubject (authority : Authority) (clock : Nat → Datetime) (r : WorkRequest) :
    Tx WorkObject := do
  -- A request other than a creation carries a version, and no version is below one.
  let w ← reading (current · r.key (r.expectedVersion.getD 0))
  match r.payload with
  | .archive => Repository.archive w.key (clock 0)
  | .restore => restoreWork w (clock 0)
  | payload => do
    lift (active w)
    executeActive sha256 authority clock w payload

def executeParsed (authority : Authority) (clock : Nat → Datetime) (r : WorkRequest) :
    Tx Changed :=
  match r.payload with
  | .sessionState state =>
    Changed.session <$>
      setState sha256 r.id (r.expectedVersion.getD 0) state authority (clock 0) (clock 1)
  | .create c => Changed.work <$> createWork clock r.kind c
  | _ => Changed.work <$> executeSubject sha256 authority clock r

def NamedWorkMutations.execute (authority : Authority) (clock : Nat → Datetime)
    (r : WorkRequest) : Tx Changed := do
  let r ← lift (WorkRequest.fromJson sha256 r.canonical)
  transaction (executeParsed sha256 authority clock r)

/-- The operations on an active Arena. -/
def changeArena (r : ArenaRequest) (change : Arena → Arena) (now : Datetime) : Tx Arena := do
  let arena ← reading (currentArena · ⟨r.id, r.expectedVersion.getD 0⟩)
  raiseIf (arena.archived = true) (arenaConflict "archived Arena cannot be changed")
  bumpArena arena (change arena) now

def executeArena (clock : Nat → Datetime) (r : ArenaRequest) : Tx Changed :=
  match r.payload with
  | .create content => Changed.arena <$> createArena content (clock 0)
  | .memberSet m => Changed.work <$> setMember clock r.key (r.expectedVersion.getD 0) m
  | .archive => Changed.arena <$> changeArena r (fun a => { a with archived := true }) (clock 0)
  | .patch changes => Changed.arena <$> changeArena r changes.apply (clock 0)

def ArenaMutations.execute (clock : Nat → Datetime) (r : ArenaRequest) : Tx Changed := do
  let r ← lift (ArenaRequest.fromJson r.canonical)
  transaction (executeArena clock r)

/-- A request as it arrives: its bytes, the authority behind it and the readings of the clock. -/
inductive Event
  | work (raw : ByteArray) (authority : Authority) (clock : Nat → Datetime)
  | arena (raw : ByteArray) (clock : Nat → Datetime)

inductive Request
  | work (r : WorkRequest)
  | arena (r : ArenaRequest)

def Request.key : Request → Key
  | .work r => r.key
  | .arena r => r.key

def Request.expectedVersion : Request → Option Int
  | .work r => r.expectedVersion
  | .arena r => r.expectedVersion

def Request.resources : Request → List String
  | .work r => r.resources
  | .arena r => r.resources

def Event.request : Event → Except Error Request
  | .work raw _ _ => Request.work <$> WorkRequest.fromJson sha256 raw
  | .arena raw _ => Request.arena <$> ArenaRequest.fromJson raw

def Event.execute (event : Event) : Tx Changed := do
  match event with
  | .work raw authority clock => do
    let r ← lift (WorkRequest.fromJson sha256 raw)
    NamedWorkMutations.execute sha256 authority clock r
  | .arena raw clock => do
    let r ← lift (ArenaRequest.fromJson raw)
    ArenaMutations.execute clock r

/-- The store that a computation leaves, whether it returned or raised. -/
def storeAfter {α : Type} : EStateM.Result Error Store α → Store
  | .ok _ s => s
  | .error _ s => s

def step (s : Store) (event : Event) : Store := storeAfter (event.execute sha256 s)

def run (events : List Event) : Store := events.foldl (step sha256) GraphStore.empty

/-- The store before the event with the given number. -/
def storeAt (events : List Event) (n : Nat) : Store := run sha256 (events.take n)

end Execution

end DevGraph.Work
