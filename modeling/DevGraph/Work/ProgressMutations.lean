import DevGraph.Work.Workflows

/-!
# Progress changes and rejected proposals

Attested progress changes with their record, and the rejection of a proposal by a Decision.
-/

namespace DevGraph.Work

open Lib

section Progress

variable (sha256 : String → String)

def currentState (w : WorkObject) : Except Error (Option WorkflowState) :=
  match w.workflowJson with
  | none => pure none
  | some raw => if raw = "" then pure none else some <$> decodeState raw

def checkProgressTarget (w : WorkObject) (target : Progress) : Except Error Unit := do
  raiseIf (w.archived = true) (workflowConflict "Restore the item before changing progress.")
  raiseIf (w.progress = some target) (workflowConflict "Progress is already set to that value.")
  raiseIf (target = .notStarted ∧ w.progress ≠ none)
    (workflowConflict "Rework remains In progress; it cannot return to Not started.")

def reopenedState (workflow : WorkflowId) : WorkflowState :=
  newState workflow (if workflow = .vibeCeo then .planning else .intake)

/-- The state of a proposal whose rejection has been handed off. -/
def handedOffState (state : WorkflowState) : WorkflowState :=
  { state with stage := .done, resumeStage := none, blockingReason := "" }

/-- The state and its text that a change leaves to an item with a workflow. -/
def workflowProgress (w : WorkObject) (state : WorkflowState) (target : Progress) :
    Except Error (WorkflowState × Option String) := do
  let mapped ← stageProgress state.workflowId state.stage
  if w.progress = some .done ∧ target = .inProgress then
    return (reopenedState state.workflowId, some (encodeState (reopenedState state.workflowId)))
  else do
    raiseIf (target ≠ mapped) (workflowConflict
      "Use a legal workflow transition to change this subtype's progress.")
    return (state, w.workflowJson)

def checkNoGaps (s : Store) (w : WorkObject) (state : WorkflowState) (target : Progress) :
    Except Error Unit := do
  if target = .done then do
    let unmet ← gaps sha256 s w state .done
    raiseIf (unmet ≠ []) (workflowConflict (" ".intercalate unmet))
  else pure ()

/-- The proposal's only disposition is a rejection. -/
def isRejected (s : Store) (w : WorkObject) : Except Error Bool := do
  if w.kind = .proposal then do
    let found ← disposition s w
    return found = some .rejected
  else pure false

def progressWorkflow (s : Store) (w : WorkObject) (change : ProgressSet) :
    Except Error (Option String) := do
  let state ← currentState w
  checkProgressTarget w change.progress
  let rejected ← isRejected s w
  if rejected = true ∧ change.progress = .done then do
    raiseIf (change.evidence = [])
      (workflowConflict "Record evidence that the proposal disposition was handed off.")
    match state with
    | some state => pure (some (encodeState (handedOffState state)))
    | none => pure w.workflowJson
  else match state with
    | some state => do
      let (state, workflowJson) ← workflowProgress w state change.progress
      checkNoGaps sha256 s w state change.progress
      return workflowJson
    | none => do
      raiseIf (change.progress = .done ∧ w.kind ≠ .todo) (workflowConflict
        "Complete this subtype's applicable workflow and approval gates first.")
      return w.workflowJson

/-- The checks on requirements and blocking work before an item is done. -/
def checkCompletion (s : Store) (w : WorkObject) (change : ProgressSet) : Except Error Unit := do
  if change.progress = .done then do
    let expected ← requirements s w
    raiseIf (w.kind = .todo ∧
        ((∃ key ∈ expected, resource key ∉ change.requirements.map (·.subject)) ∨
          ∃ row ∈ change.requirements, row.outcome = .unmet))
      (workflowConflict
        "Satisfy every attached requirement with evidence or a reasoned exclusion.")
    let blocking ← relatedIncoming s .blocks w.key
    let unfinished ← anyUnfinished s blocking
    raiseIf (unfinished = true) (workflowConflict "Resolve blocking work before completion.")
  else pure ()

def progressBody (w : WorkObject) (basis actorId : String) (hashes : List (String × Json))
    (change : ProgressSet) : Json :=
  .obj [("actor_id", .str actorId), ("attestation", change.toJson), ("basis", .str basis),
    ("evidence_hashes", .obj hashes), ("expected_version", .int w.version),
    ("from_progress", Json.ofNullable (fun progress => .str progress.name) w.progress),
    ("schema", .str "devgraph.progress-record.v1"), ("subject", .str (resource w.key)),
    ("to_progress", .str change.progress.name)]

def progressRecord (w : WorkObject) (basis actorId : String) (hashes : List (String × Json))
    (change : ProgressSet) (now now' : Datetime) : Except Error WorkObject :=
  WorkObject.postInit (newObject .reviewPacket change.recordId (shortened change.reason)
    (dumps true (progressBody w basis actorId hashes change)) now now')

def progressedObject (w : WorkObject) (change : ProgressSet) (workflowJson : Option String)
    (now : Datetime) : Except Error WorkObject :=
  WorkObject.postInit
    { w.next now with
      progress := some change.progress
      workflowJson := workflowJson
      progressRecordId := some change.recordId }

def setProgress (clock : Nat → Datetime) (actorId : String) (w : WorkObject)
    (change : ProgressSet) : Tx WorkObject := do
  let workflowJson ← reading (progressWorkflow sha256 · w change)
  reading (checkCompletion · w change)
  let existing ← reading (getNode · (.reviewPacket, change.recordId))
  raiseIf (existing.isSome) (Error.mk .workObjectAlreadyExists "Progress record already exists.")
  let hashes ← evidenceHashes sha256 clock 3 change.evidence
  let basis ← reading (basis sha256 · w .requirements)
  let record ← lift (progressRecord w basis actorId hashes change (clock 1) (clock 2))
  let _ ← Repository.create record
  createEdge ⟨w.key, .hasReviewPacket, record.key, noProps⟩
  createEdges (change.evidence.map (evidenceEdge record.key))
  let updated ← lift (progressedObject w change workflowJson (clock 0))
  let _ ← updateNode w.key updated.toNodeProperties
  return updated

end Progress

/-- The edges to the decision of a proposal; rejections are read when nothing accepted it. -/
def decisionEdges (s : Store) (key : Key) : Except Error (List EdgeRecord) := do
  match ← related s .acceptedByDecision key with
  | [] => related s .rejectedByDecision key
  | edges => pure edges

def rejectProposal (clock : Nat → Datetime) (w : WorkObject) (rejection : ProposalReject) :
    Tx WorkObject := do
  raiseIf (w.kind ≠ .proposal ∨ w.archived = true)
    (workflowConflict "Only an active Proposal can be rejected.")
  let decided ← reading (decisionEdges · w.key)
  raiseIf (decided ≠ [])
    (workflowConflict "The proposal already has a recorded disposition.")
  let decision ← lift (WorkObject.postInit (newObject .decision rejection.decisionId
    (shortened rejection.reason) rejection.reason (clock 1) (clock 2)))
  let _ ← Repository.create decision
  createEdge ⟨(.proposal, w.id), .rejectedByDecision, decision.key, noProps⟩
  Repository.update w w.version (clock 0)

end DevGraph.Work
