import DevGraph.Work.Repository

/-!
# Workflow execution

Reviews and their freshness, the gaps before a stage, and the three workflow operations. The digest
function and the clock, whose readings within one request are numbered, are parameters.
-/

namespace DevGraph.Work

open Lib

section Reads

variable (sha256 : String → String)

def fingerprint (v : Json) : String := sha256 (dumps false v)

def related (s : Store) (relation : Relationship) (key : Key) : Except Error (List EdgeRecord) := do
  let edges ← boundedEdges "workflow relationship budget exceeded" s relation
  return edges.filter fun e => e.source = key

def relatedIncoming (s : Store) (relation : Relationship) (key : Key) :
    Except Error (List EdgeRecord) := do
  let edges ← boundedEdges "workflow relationship budget exceeded" s relation
  return edges.filter fun e => e.target = key

def children (s : Store) (w : WorkObject) : Except Error (List WorkObject) := do
  let edges ← related s .hasChild w.key
  edges.mapM fun e => getById s e.target

def nestedCriteria (s : Store) (key : Key) : Except Error (List Key) := do
  let requirement ← getById s key
  let edges ← related s .hasAcceptanceCriterion requirement.key
  return edges.map (·.target)

def requirements (s : Store) (w : WorkObject) : Except Error (List Key) := do
  let direct ← related s .hasRequirement w.key
  let criteria ← related s .hasAcceptanceCriterion w.key
  let attached := ((direct ++ criteria).map (·.target)).dedup
  let nested ← (attached.filter fun key => key.1 = .requirement).mapM (nestedCriteria s)
  return (attached ++ nested.flatten).dedup.insertionSort keyLe

def isPlanning (phase : Phase) : Bool := phase ∈ [Phase.developerPlan, .ceoPlan, .baseline]

def contentJson (w : WorkObject) : Json :=
  .obj [("artifact_ids", strings w.artifactIds), ("description", .str w.description),
    ("external_link_ids", strings w.externalLinkIds), ("title", .str w.title)]

/-- The part of a child that a basis depends on. -/
abbrev ChildRow := Key × Int

def WorkObject.row (w : WorkObject) : ChildRow := (w.key, w.version)

def rowLe (a b : ChildRow) : Prop :=
  a.1 ≠ b.1 ∧ keyLe a.1 b.1 ∨ a.1 = b.1 ∧ a.2 ≤ b.2

instance : DecidableRel rowLe := fun _ _ => inferInstanceAs (Decidable (_ ∨ _))

def rowJson (row : ChildRow) : Json :=
  .arr [.str row.1.1.name, .str row.1.2, .int row.2]

def requirementJson (s : Store) (key : Key) : Except Error Json := do
  let node ← getNode s key
  return .arr [.str key.1.name, .str key.2,
    Json.ofNullable (fun node => .arr [.bool node.archived, node.properties.toJson]) node]

/-- The children that a review of the phase rests on, in their order. -/
def basisRows (s : Store) (w : WorkObject) (phase : Phase) : Except Error (List ChildRow) := do
  if isPlanning phase then pure []
  else do
    let found ← children s w
    return (found.map WorkObject.row).insertionSort rowLe

def basis (s : Store) (w : WorkObject) (phase : Phase) : Except Error String := do
  let rows ← basisRows s w phase
  let keys ← requirements s w
  let attached ← keys.mapM (requirementJson s)
  return fingerprint sha256 (.arr [contentJson w, .arr (rows.map rowJson), .arr attached])

def reviewSchema : String := "devgraph.workflow-review.v1"

/-- The value `record[name]`. -/
def subscript (record : Json) (name : String) : Except Error Json :=
  match record with
  | .obj fields =>
    match member fields name with
    | some v => pure v
    | none => throw (Error.mk .keyError name)
  | _ => throw (Error.mk .typeError "not subscriptable by name")

/-- The node that a resource text names. -/
def nodeOfResource (s : Store) (ref : String) : Except Error (Option Node) := do
  raiseIf ('/' ∉ ref.toList) (Error.mk .valueError "not enough values to unpack")
  let id := String.ofList (ref.toList.dropWhile (· ≠ '/')).tail
  match Label.ofName (String.ofList (ref.toList.takeWhile (· ≠ '/'))) with
  | some label => getNode s (label, id)
  | none => do
    validateWorkObjectId id
    return none

def evidenceUnchanged (s : Store) (hash : String × Json) : Except Error Bool := do
  let node ← nodeOfResource s hash.1
  return node.any fun node =>
    !node.archived && hash.2.asStr = some (fingerprint sha256 node.properties.toJson)

/-- The second check is made only after the first one held. -/
def both (x y : Except Error Bool) : Except Error Bool := do
  if ← x then y else pure false

def allUnchanged (s : Store) : List (String × Json) → Except Error Bool
  | [] => pure true
  | hash :: hashes => both (evidenceUnchanged sha256 s hash) (allUnchanged s hashes)

def fieldIs (record : Json) (name text : String) : Except Error Bool := do
  let value ← subscript record name
  return value.asStr = some text

def basisIsCurrent (s : Store) (w : WorkObject) (phase : Phase) (record : Json) :
    Except Error Bool := do
  let recorded ← subscript record "basis"
  let current ← basis sha256 s w phase
  return recorded.asStr = some current

def phaseIs (record : Json) (phase : Phase) : Except Error Bool := do
  let review ← subscript record "review"
  fieldIs review "phase" phase.name

def evidenceIsCurrent (s : Store) (record : Json) : Except Error Bool := do
  match ← subscript record "evidence_hashes" with
  | .obj hashes => allUnchanged sha256 s hashes
  | _ => throw (Error.mk .typeError "no items")

def recordMatches (s : Store) (w : WorkObject) (phase : Phase) (record : Json) :
    Except Error Bool :=
  both (fieldIs record "schema" reviewSchema) <|
    both (fieldIs record "subject" (resource w.key)) <|
      both (basisIsCurrent sha256 s w phase record) <|
        both (phaseIs record phase) (evidenceIsCurrent sha256 s record)

def readRecord (s : Store) (w : WorkObject) (phase : Phase) (node : Node) :
    Except Error (Option WorkflowReview) := do
  match (strOf node.properties .description).bind fun text => loads plainJson text.toList with
  | none => throw (Error.mk .valueError "unreadable record")
  | some record => do
    if ← recordMatches sha256 s w phase record then
      match WorkflowReview.ofJson (← subscript record "review") with
      | some review => pure (some review)
      | none => throw (Error.mk .valueError "invalid review")
    else pure none

/-- A record that cannot be read is no record. -/
def noneIfUnreadable {α : Type} (x : Except Error (Option α)) : Except Error (Option α) :=
  match x with
  | .ok a => .ok a
  | .error e =>
    if e.isKeyError || e.isValueError || e.isTypeError then .ok none else .error e

/-- The review of a phase that still stands. -/
def review (s : Store) (w : WorkObject) (state : WorkflowState) (phase : Phase) :
    Except Error (Option WorkflowReview) :=
  match state.reviews phase with
  | none => pure none
  | some recordId => do
    match ← getNode s (recordKind phase, recordId) with
    | none => pure none
    | some node =>
      if node.archived then pure none
      else noneIfUnreadable (readRecord sha256 s w phase node)

/-- Every layer has a verdict and none asks for changes. -/
def layersApproved (r : WorkflowReview) : Bool :=
  layers.all (fun layer => r.layers.any fun l => l.layer = layer) &&
    r.layers.all fun l => l.verdict ≠ .changesRequested

def approved (s : Store) (w : WorkObject) (state : WorkflowState) (phase : Phase)
    (evidence : Bool) : Except Error Bool := do
  match ← review sha256 s w state phase with
  | none => pure false
  | some r =>
    if r.verdict ≠ .approved ∨ evidence = true ∧ r.evidence = [] then pure false
    else if phase = .technical then pure (layersApproved r)
    else pure true

/-! ## Gaps -/

def ledgerGaps (ledger : Option WorkflowReview) (expected : List Key) : List String :=
  (if ledger.all fun r => r.verdict ≠ .approved || r.requirements.isEmpty ||
      r.requirements.any fun row => row.outcome = .unmet
    then ["Record satisfied requirements and their evidence, or explained exclusions."] else []) ++
  if ledger.any fun r => !expected.all fun key =>
      r.requirements.any fun row => row.subject = resource key
    then ["Include every attached requirement and acceptance criterion in the review ledger."]
    else []

def exclusions (ledger : Option WorkflowReview) : List String :=
  match ledger with
  | some r => (r.requirements.filter fun row => row.outcome = .excluded).map (·.subject)
  | none => []

/-- Whether one of the sources is not done, read up to the first such. -/
def anyUnfinished (s : Store) : List EdgeRecord → Except Error Bool
  | [] => pure false
  | e :: edges => do
    let blocker ← getById s e.source
    if blocker.progress ≠ some .done then pure true else anyUnfinished s edges

def completionGaps (s : Store) (w : WorkObject) (state : WorkflowState) :
    Except Error (List String) := do
  let ledger ← review sha256 s w state .requirements
  let expected ← requirements s w
  let found ← children s w
  let blocking ← relatedIncoming s .blocks w.key
  let unfinished ← anyUnfinished s blocking
  return ledgerGaps ledger expected ++
    (if found.any fun child =>
        child.progress ≠ some .done && resource child.key ∉ exclusions ledger
      then ["Complete child work or record its explicit scope exclusion."] else []) ++
    if unfinished then ["Resolve blocking work before completing this item."] else []

inductive Disposition
  | accepted | rejected
  deriving DecidableEq

def decisionNode (s : Store) (key : Key) : Except Error (Option Node) :=
  if key.1 = .decision then getNode s key else pure none

/-- The decisions behind the edges, unless one of them is not a readable active Decision. -/
def decided (s : Store) (value : Disposition) :
    List EdgeRecord → Except Error (Option (List Disposition))
  | [] => pure (some [])
  | e :: edges => do
    match ← decisionNode s e.target with
    | none => pure none
    | some node =>
      if node.archived then pure none
      else match fromNode e.target node with
        | .error error =>
          if error.isValueError || error.isTypeError then pure none else throw error
        | .ok _ => do
          let rest ← decided s value edges
          return rest.map (value :: ·)

def disposition (s : Store) (w : WorkObject) : Except Error (Option Disposition) := do
  match ← decided s .accepted (← related s .acceptedByDecision w.key) with
  | none => pure none
  | some accepted => do
    match ← decided s .rejected (← related s .rejectedByDecision w.key) with
    | none => pure none
    | some rejected =>
      match accepted ++ rejected with
      | [value] => pure (some value)
      | _ => pure none

def Phase.spoken (phase : Phase) : String :=
  phase.name.map fun c => if c = '_' then ' ' else c

def approvalGap (phase : Phase) : String :=
  "Record current " ++ phase.spoken ++ " approval and evidence."

def approvalGaps (s : Store) (w : WorkObject) (state : WorkflowState) :
    List Phase → Except Error (List String)
  | [] => pure []
  | phase :: phases => do
    let ok ← approved sha256 s w state phase true
    let rest ← approvalGaps s w state phases
    return (if ok then [] else [approvalGap phase]) ++ rest

/-- The approvals that entry into a stage rests on. -/
def entryPhases (workflow : WorkflowId) (target : Stage) : List Phase :=
  entryReviews target ++
    if target = .done then
      match workflow with
      | .vibeCeo => [.developerPlan, .ceoPlan, .ceoDelivery]
      | .execution => [.baseline, .commit]
    else []

def dispositionGaps (s : Store) (w : WorkObject) (target : Stage) :
    Except Error (List String) := do
  if target = .done ∧ w.kind = .proposal then do
    let found ← disposition s w
    return if found = none then
        ["Record the proposal disposition with valid Decision provenance."] else []
  else pure []

def gateGaps (s : Store) (w : WorkObject) (state : WorkflowState) (target : Stage) :
    Except Error (List String) :=
  if target ∈ completionGates then completionGaps sha256 s w state else pure []

def forwardGaps (s : Store) (w : WorkObject) (state : WorkflowState) (target : Stage) :
    Except Error (List String) := do
  let missing ← approvalGaps sha256 s w state (entryPhases state.workflowId target)
  let incomplete ← gateGaps sha256 s w state target
  let undecided ← dispositionGaps s w target
  return (missing ++ incomplete ++ undecided).eraseDups

def gaps (s : Store) (w : WorkObject) (state : WorkflowState) (target : Stage) :
    Except Error (List String) := do
  if w.archived then pure ["Archived work cannot move."]
  else if target = .blockedWaitingInput then pure []
  else if state.stage = .blockedWaitingInput then do
    let ok ← approved sha256 s w state .resolution true
    return if ok then [] else ["Record the required input or decision before resuming."]
  else if returns state.workflowId state.stage = some target then pure []
  else forwardGaps sha256 s w state target

def targets (state : WorkflowState) : List Stage :=
  if state.stage = .blockedWaitingInput then state.resumeStage.toList
  else (forward state.workflowId state.stage).toList ++
    (returns state.workflowId state.stage).toList ++ [.blockedWaitingInput]

/-- The stages that an item may move to, each with its unmet requirements. -/
def transitions (s : Store) (w : WorkObject) : Except Error (List (Stage × List String)) := do
  match w.workflowJson with
  | none => pure []
  | some raw =>
    if raw = "" then pure []
    else do
      let state ← decodeState raw
      if state.stage = .done ∨ w.archived = true then pure []
      else (targets state).mapM fun target => do
        let unmet ← gaps sha256 s w state target
        return (target, unmet)

end Reads

section Execution

variable (sha256 : String → String)

def workflowConflict (message : String) : Error := ⟨.workflowConflict, message⟩

def withState (w : WorkObject) (state : WorkflowState) (now : Datetime) :
    Except Error WorkObject := do
  let progress ← stageProgress state.workflowId state.stage
  WorkObject.postInit
    { w.next now with workflowJson := some (encodeState state), progress := some progress }

def save (w : WorkObject) (state : WorkflowState) (now : Datetime) : Tx WorkObject := do
  let updated ← lift (withState w state now)
  let _ ← updateNode w.key updated.toNodeProperties
  return updated

def externalLink (e : Evidence) (now now' : Datetime) : Except Error Props := do
  let link ← WorkObject.postInit (newObject .externalLink e.id e.title "" now now')
  return link.toNodeProperties.merge fun
    | .role => some (.str "generic_url")
    | .url => some (.str e.url)
    | .externalId => some (.str "")
    | .summary => some (.str "")
    | _ => none

/-- The active node of a piece of evidence, created here when it comes with an address. -/
def evidenceNode (e : Evidence) (now now' : Datetime) : Tx Node := do
  let node ← reading (getNode · e.key)
  if e.url ≠ "" then do
    raiseIf (node.isSome) (Error.mk .workObjectAlreadyExists "Evidence link already exists.")
    let props ← lift (externalLink e now now')
    createNode (.externalLink, e.id) props
  else do
    raiseIf (node.all Node.archived = true)
      (workflowConflict "Evidence must resolve to an active Artifact or ExternalLink.")
    return node.getD ⟨noProps, true⟩

/-- The digest of each piece of evidence. The clock is read twice for each. -/
def evidenceHashes (clock : Nat → Datetime) : Nat → List Evidence → Tx (List (String × Json))
  | _, [] => pure []
  | n, e :: evidence => do
    let node ← evidenceNode e (clock n) (clock (n + 1))
    let hashes ← evidenceHashes clock (n + 2) evidence
    return (resource e.key, .str (fingerprint sha256 node.properties.toJson)) :: hashes

def evidenceEdge (record : Key) (e : Evidence) : EdgeRecord :=
  ⟨record, if e.kind = .artifact then .hasArtifact else .hasExternalLink, e.key, noProps⟩

/-! ## Operations -/

def assignable : List Stage := [.backlog, .planning, .intake]

def assignedState (w : WorkObject) (a : WorkflowAssign) : Except Error WorkflowState := do
  raiseIf (w.workflowJson ≠ none)
    (workflowConflict "Workflow is already assigned; moves do not reassign it.")
  raiseIf (a.stage ∉ assignable)
    (workflowConflict "Classify into Backlog or Planning, then record the required gates.")
  raiseIf ((w.progress = some .inProgress ∨ w.progress = some .done) ∧ a.stage = .backlog)
    (workflowConflict "Started work cannot be classified as Not started.")
  raiseIf ((newState a.workflowId a.stage).valid = false)
    (Error.mk .valueError "invalid_workflow_stage")
  return newState a.workflowId a.stage

/-- The stages at which a phase is reviewed; a requirements review has none of its own. -/
def requiredStages : Phase → Option (List Stage)
  | .developerPlan => some [.developerPlanApproval]
  | .ceoPlan => some [.ceoPlanApproval]
  | .ceoDelivery => some [.ceoDeliveryApproval]
  | .baseline => some [.requirementsNormalized]
  | .commit => some [.implementingCommit]
  | .technical => some [.technicalReview, .layerReview]
  | .handoff => some [.handoffVerification, .deliveryPacketReady]
  | .resolution => some [.blockedWaitingInput]
  | .requirements => none

def checkReview (state : WorkflowState) (r : WorkflowReview) : Except Error Unit := do
  raiseIf ((requiredStages r.phase).any (fun stages => state.stage ∉ stages) = true)
    (workflowConflict "Record this approval at its own workflow gate.")
  raiseIf (r.phase = .requirements ∧ r.requirements = [])
    (workflowConflict "A requirements review needs its complete requirement ledger.")

def recordRelation (label : Label) : Relationship :=
  if label = .decision then .hasWorkflowDecision
  else if label = .handoff then .hasHandoff
  else .hasReviewPacket

def recordBody (w : WorkObject) (basis actorId : String) (hashes : List (String × Json))
    (r : WorkflowReview) : Json :=
  .obj [("actor_id", .str actorId), ("basis", .str basis), ("evidence_hashes", .obj hashes),
    ("review", r.toJson), ("schema", .str reviewSchema), ("subject", .str (resource w.key))]

def shortened (text : String) : String := String.ofList (text.toList.take 200)

/-- The record of a review, with the text that later reads check. -/
def reviewRecord (w : WorkObject) (basis actorId : String) (hashes : List (String × Json))
    (r : WorkflowReview) (now now' : Datetime) : Except Error WorkObject :=
  WorkObject.postInit (newObject (recordKind r.phase) r.recordId (shortened r.summary)
    (dumps true (recordBody w basis actorId hashes r)) now now')

def WorkflowState.withReview (state : WorkflowState) (phase : Phase) (id : String) :
    WorkflowState :=
  { state with reviews := fun p => if p = phase then some id else state.reviews p }

def recordReview (clock : Nat → Datetime) (actorId : String) (w : WorkObject)
    (state : WorkflowState) (r : WorkflowReview) : Tx WorkObject := do
  lift (checkReview state r)
  let existing ← reading (getNode · (recordKind r.phase, r.recordId))
  raiseIf (existing.isSome) (Error.mk .workObjectAlreadyExists "Review record already exists.")
  let hashes ← evidenceHashes sha256 clock 3 r.evidence
  let basis ← reading (basis sha256 · w r.phase)
  let record ← lift (reviewRecord w basis actorId hashes r (clock 1) (clock 2))
  let _ ← Repository.create record
  createEdge ⟨w.key, recordRelation (recordKind r.phase), record.key, noProps⟩
  createEdges (r.evidence.map (evidenceEdge record.key))
  save w (state.withReview r.phase r.recordId) (clock 0)

def WorkflowState.withoutReviews (state : WorkflowState) (phases : List Phase) : WorkflowState :=
  { state with reviews := fun p => if p ∈ phases then none else state.reviews p }

/-- The reviews that a return makes void. -/
def invalidated (target : Stage) : List Phase :=
  if target = .planning ∨ target = .intake then phases
  else [.commit, .technical, .ceoDelivery, .handoff, .requirements]

def movedState (state : WorkflowState) (target : Stage) (reason : String) :
    Except Error WorkflowState := do
  if target = .blockedWaitingInput then do
    raiseIf (isBlank reason = true) (workflowConflict "Explain what input or decision is needed.")
    return { state.withoutReviews [.resolution] with
      stage := target, resumeStage := some state.stage, blockingReason := reason }
  else if state.stage = .blockedWaitingInput then
    return { state with stage := target, resumeStage := none, blockingReason := "" }
  else if returns state.workflowId state.stage = some target then do
    raiseIf (isBlank reason = true) (workflowConflict "Record feedback before returning work.")
    return { state.withoutReviews (invalidated target) with stage := target }
  else return { state with stage := target }

def legalTarget (legal : List (Stage × List String)) (stage : String) :
    Except Error Stage :=
  match legal.find? fun row => row.1.name = stage with
  | none => throw (workflowConflict "This transition would bypass the workflow.")
  | some row => do
    raiseIf (row.2 ≠ []) (workflowConflict (" ".intercalate row.2))
    return row.1

def transitionState (s : Store) (w : WorkObject) (state : WorkflowState)
    (t : WorkflowTransition) : Except Error WorkflowState := do
  let legal ← transitions sha256 s w
  let target ← legalTarget legal t.stage
  movedState state target t.reason

def checkWorkflowSubject (w : WorkObject) : Except Error Unit := do
  raiseIf (w.archived = true) (workflowConflict "Archived work cannot change workflow.")
  raiseIf (w.kind = .todo)
    (workflowConflict "Base Todos use shared progress without a detailed workflow.")

/-- The state of an item that can still be reviewed or moved. -/
def openState (w : WorkObject) : Except Error WorkflowState := do
  match w.workflowJson with
  | none =>
    throw (workflowConflict "Classify the workflow before recording reviews or moving work.")
  | some raw => do
    let state ← decodeState raw
    raiseIf (state.stage = .done)
      (workflowConflict "Completed work requires a new follow-up item.")
    return state

def assignWorkflow (clock : Nat → Datetime) (w : WorkObject) (a : WorkflowAssign) :
    Tx WorkObject := do
  lift (checkWorkflowSubject w)
  let state ← lift (assignedState w a)
  save w state (clock 0)

def reviewWorkflow (clock : Nat → Datetime) (actorId : String) (w : WorkObject)
    (r : WorkflowReview) : Tx WorkObject := do
  lift (checkWorkflowSubject w)
  let state ← lift (openState w)
  recordReview sha256 clock actorId w state r

def transitionWorkflow (clock : Nat → Datetime) (w : WorkObject) (t : WorkflowTransition) :
    Tx WorkObject := do
  lift (checkWorkflowSubject w)
  let state ← lift (openState w)
  let state ← reading (transitionState sha256 · w state t)
  save w state (clock 0)

end Execution

end DevGraph.Work
