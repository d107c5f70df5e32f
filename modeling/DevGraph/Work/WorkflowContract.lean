import DevGraph.Lib.JsonModel
import DevGraph.Work.Vocabulary

/-!
# Workflow and progress contracts

The two Todo workflows with their stages, gates and returns, the state that an item carries as text,
and the closed payload models of the workflow and progress operations.
-/

namespace DevGraph.Work

open Lib

inductive WorkflowId
  | vibeCeo | execution
  deriving DecidableEq

def WorkflowId.name : WorkflowId → String
  | .vibeCeo => "vibe-ceo.v1"
  | .execution => "execution.v1"

def workflowIds : List WorkflowId := [.vibeCeo, .execution]

inductive Stage
  | backlog | planning | developerPlanApproval | ceoPlanApproval | ready | inProgress
  | ceoDeliveryApproval | technicalReview | handoffVerification
  | intake | requirementsNormalized | baselineCaptured | implementingCommit
  | commitReadyForReview | layerReview | reconcilingLedger | deliveryPacketReady
  | done | blockedWaitingInput
  deriving DecidableEq

def Stage.name : Stage → String
  | .backlog => "backlog"
  | .planning => "planning"
  | .developerPlanApproval => "developer_plan_approval"
  | .ceoPlanApproval => "ceo_plan_approval"
  | .ready => "ready"
  | .inProgress => "in_progress"
  | .ceoDeliveryApproval => "ceo_delivery_approval"
  | .technicalReview => "technical_review"
  | .handoffVerification => "handoff_verification"
  | .intake => "intake"
  | .requirementsNormalized => "requirements_normalized"
  | .baselineCaptured => "baseline_captured"
  | .implementingCommit => "implementing_commit"
  | .commitReadyForReview => "commit_ready_for_review"
  | .layerReview => "layer_review"
  | .reconcilingLedger => "reconciling_ledger"
  | .deliveryPacketReady => "delivery_packet_ready"
  | .done => "done"
  | .blockedWaitingInput => "blocked_waiting_input"

/-- The stages of each workflow, the last two of which are `done` and the blocked stage. -/
def stages : WorkflowId → List Stage
  | .vibeCeo =>
    [.backlog, .planning, .developerPlanApproval, .ceoPlanApproval, .ready, .inProgress,
      .ceoDeliveryApproval, .technicalReview, .handoffVerification, .done, .blockedWaitingInput]
  | .execution =>
    [.backlog, .intake, .requirementsNormalized, .baselineCaptured, .implementingCommit,
      .commitReadyForReview, .layerReview, .reconcilingLedger, .deliveryPacketReady, .done,
      .blockedWaitingInput]

/-- Each stage but the last two leads to the one after it. -/
def forward (workflow : WorkflowId) (stage : Stage) : Option Stage :=
  ((stages workflow).dropLast.dropLast.zip (stages workflow).dropLast.tail).lookup stage

def returns : WorkflowId → Stage → Option Stage
  | .vibeCeo, .inProgress => some .planning
  | .vibeCeo, .developerPlanApproval => some .planning
  | .vibeCeo, .ceoPlanApproval => some .planning
  | .vibeCeo, .ceoDeliveryApproval => some .inProgress
  | .vibeCeo, .technicalReview => some .inProgress
  | .vibeCeo, .handoffVerification => some .inProgress
  | .execution, .implementingCommit => some .intake
  | .execution, .commitReadyForReview => some .implementingCommit
  | .execution, .layerReview => some .implementingCommit
  | .execution, .reconcilingLedger => some .implementingCommit
  | .execution, .deliveryPacketReady => some .implementingCommit
  | _, _ => none

inductive Phase
  | requirements | baseline | developerPlan | ceoPlan | commit | ceoDelivery | technical
  | handoff | resolution
  deriving DecidableEq

def Phase.name : Phase → String
  | .requirements => "requirements"
  | .baseline => "baseline"
  | .developerPlan => "developer_plan"
  | .ceoPlan => "ceo_plan"
  | .commit => "commit"
  | .ceoDelivery => "ceo_delivery"
  | .technical => "technical"
  | .handoff => "handoff"
  | .resolution => "resolution"

def phases : List Phase :=
  [.baseline, .ceoDelivery, .ceoPlan, .commit, .developerPlan, .handoff, .requirements,
    .resolution, .technical]

/-- The reviews that entry into a stage asks for. -/
def entryReviews : Stage → List Phase
  | .developerPlanApproval => [.requirements]
  | .ceoPlanApproval => [.developerPlan]
  | .ready => [.ceoPlan]
  | .requirementsNormalized => [.requirements]
  | .baselineCaptured => [.baseline]
  | .commitReadyForReview => [.commit]
  | .reconcilingLedger => [.technical]
  | .technicalReview => [.ceoDelivery]
  | .handoffVerification => [.technical]
  | .done => [.technical, .handoff]
  | _ => []

def completionGates : List Stage :=
  [.ceoDeliveryApproval, .deliveryPacketReady, .handoffVerification, .done]

def recordKind : Phase → Label
  | .developerPlan => .decision
  | .ceoPlan => .decision
  | .ceoDelivery => .decision
  | .resolution => .decision
  | .handoff => .handoff
  | _ => .reviewPacket

inductive Progress
  | notStarted | inProgress | done
  deriving DecidableEq

def Progress.name : Progress → String
  | .notStarted => "not_started"
  | .inProgress => "in_progress"
  | .done => "done"

def progresses : List Progress := [.notStarted, .inProgress, .done]

def stageProgress (workflow : WorkflowId) (stage : Stage) : Except Error Progress := do
  raiseIf (stage ∉ stages workflow) (Error.mk .valueError "unknown_workflow_stage")
  return if stage = .backlog then .notStarted else if stage = .done then .done else .inProgress

structure WorkflowState where
  workflowId : WorkflowId
  stage : Stage
  resumeStage : Option Stage
  blockingReason : String
  reviews : Phase → Option String

def WorkflowState.valid (state : WorkflowState) : Bool :=
  state.stage ∈ stages state.workflowId &&
    (match state.resumeStage with
      | some stage =>
        stage ∈ stages state.workflowId && stage ≠ .done && stage ≠ .blockedWaitingInput
      | none => true) &&
    ((state.stage = .blockedWaitingInput : Bool) == state.resumeStage.isSome) &&
    !(state.stage = .blockedWaitingInput && isBlank state.blockingReason) &&
    state.blockingReason.length ≤ 4096 &&
    phases.all fun phase => (state.reviews phase).all isWorkObjectId

def reviewsToJson (reviews : Phase → Option String) : Json :=
  .obj (phases.filterMap fun phase => (reviews phase).map fun id => (phase.name, .str id))

def WorkflowState.toJson (state : WorkflowState) : Json :=
  .obj [("blocking_reason", .str state.blockingReason),
    ("resume_stage", Json.ofNullable (fun stage => .str stage.name) state.resumeStage),
    ("reviews", reviewsToJson state.reviews),
    ("schema_version", .int 1),
    ("stage", .str state.stage.name),
    ("workflow_id", .str state.workflowId.name)]

def encodeState (state : WorkflowState) : String := dumps true state.toJson

def allStages : List Stage := stages .vibeCeo ++ stages .execution

def reviewsOfJson (v : Json) : Option (Phase → Option String) := do
  let fields ← v.asObj
  if onlyMembers fields (phases.map Phase.name) && fields.all fun field => field.2.asStr.isSome then
    some fun phase => (member fields phase.name).bind Json.asStr
  else none

/-- A repeated key takes its last value. -/
def lastWins : List (String × Json) → List (String × Json)
  | [] => []
  | (k, v) :: fields =>
    if k ∈ fields.map Prod.fst then lastWins fields else (k, v) :: lastWins fields

lemma lastWins_distinct (fields : List (String × Json)) (h : (fields.map Prod.fst).Nodup) :
    some (lastWins fields) = some fields := by
  induction fields with
  | nil => rfl
  | cons field fields ih =>
    rw [List.map_cons, List.nodup_cons] at h
    rw [lastWins, if_neg h.1, Option.some.inj (ih h.2)]

lemma lastWins_subset (fields : List (String × Json)) : lastWins fields ⊆ fields := by
  induction fields with
  | nil => exact List.Subset.refl _
  | cons field fields ih =>
    rw [lastWins]
    split
    · exact List.subset_cons_of_subset field ih
    · exact List.cons_subset_cons field ih

def plainJson : Dialect where
  int := fun _ => true
  pairs := fun fields => some (lastWins fields)
  pairs_distinct := lastWins_distinct
  pairs_subset := by
    intro fields taken h
    cases h
    exact lastWins_subset fields

def WorkflowState.ofJson (v : Json) : Option WorkflowState := do
  let fields ← v.asObj
  let _ ← ensure (onlyMembers · ["blocking_reason", "resume_stage", "reviews", "schema_version",
    "stage", "workflow_id"]) fields
  let _ ← defaulted fields "schema_version" 1 fun v => v.asInt.bind (ensure (· = 1))
  let workflowId ← required fields "workflow_id" (Json.asName WorkflowId.name workflowIds)
  let stage ← required fields "stage" (Json.asName Stage.name allStages)
  let resumeStage ← defaulted fields "resume_stage" none
    (Json.asNullable (Json.asName Stage.name allStages))
  let blockingReason ← defaulted fields "blocking_reason" "" Json.asStr
  let reviews ← defaulted fields "reviews" (fun _ => none) reviewsOfJson
  ensure WorkflowState.valid ⟨workflowId, stage, resumeStage, blockingReason, reviews⟩

def decodeState (raw : String) : Except Error WorkflowState :=
  if raw.utf8ByteSize > 16384 then .error ⟨.valueError, "invalid_workflow_state"⟩
  else match (loads plainJson raw.toList).bind WorkflowState.ofJson with
    | some state => .ok state
    | none => .error ⟨.valueError, "invalid_workflow_state"⟩

def defaultWorkflow (kind : Label) : WorkflowId :=
  if kind = .issue ∨ kind = .task then .execution else .vibeCeo

def newState (workflowId : WorkflowId) (stage : Stage) : WorkflowState :=
  ⟨workflowId, stage, none, "", fun _ => none⟩

def initialState (kind : Label) : String := encodeState (newState (defaultWorkflow kind) .backlog)

def splitChar (sep : Char) : List Char → List (List Char)
  | [] => [[]]
  | c :: cs =>
    if c = sep then [] :: splitChar sep cs
    else match splitChar sep cs with
      | part :: parts => (c :: part) :: parts
      | [] => [[c]]

def isHexDigit (c : Char) : Bool := (hexValue c).isSome

def isHextet (part : List Char) : Bool :=
  1 ≤ part.length && part.length ≤ 4 && part.all isHexDigit

def isOctet (part : List Char) : Bool :=
  1 ≤ part.length && part.length ≤ 3 && part.all isDigit &&
    (part.length = 1 || part.head? ≠ some '0') && (readDigits 0 part).1 ≤ 255

def isIpv4Address (text : List Char) : Bool :=
  let octets := splitChar '.' text
  octets.length = 4 && octets.all isOctet

/-- The parts of an IPv6 address, an embedded IPv4 address counting as two hextets. -/
def ipv6Parts (text : List Char) : Option (List (List Char)) :=
  let parts := splitChar ':' text
  match parts.getLast? with
  | some last =>
    if '.' ∈ last then
      if isIpv4Address last then some (parts.dropLast ++ [['0'], ['0']]) else none
    else some parts
  | none => none

/-- Eight hextets, or fewer around one `::`. -/
def isIpv6Address (text : List Char) : Bool :=
  match ipv6Parts text with
  | none => false
  | some parts =>
    let inner := parts.tail.dropLast
    let gaps := inner.countP List.isEmpty
    if 3 ≤ (splitChar ':' text).length ∧ parts.length ≤ 9 then
      if gaps = 1 then
        let hi := (parts.head?.toList ++ inner.takeWhile fun part => !part.isEmpty)
        let lo := ((inner.dropWhile fun part => !part.isEmpty).tail ++ parts.getLast?.toList)
        let hi := if hi = [[]] then [] else hi
        let lo := if lo = [[]] then [] else lo
        hi.all isHextet && lo.all isHextet && hi.length + lo.length ≤ 7
      else gaps = 0 && parts.length = 8 && parts.all isHextet
    else false

def isHostChar (c : Char) : Bool :=
  isDigit c || ('a' ≤ c && c ≤ 'z') || ('A' ≤ c && c ≤ 'Z') || c = '.' || c = '-'

def isPort (text : List Char) : Bool :=
  match text with
  | [] => true
  | ':' :: digits =>
    1 ≤ digits.length && digits.length ≤ 5 && digits.all isDigit &&
      (readDigits 0 digits).1 ≤ 65535
  | _ => false

def isAuthority (text : List Char) : Bool :=
  match text with
  | '[' :: rest =>
    rest.contains ']' && isIpv6Address (rest.takeWhile (· ≠ ']')) &&
      isPort (rest.dropWhile (· ≠ ']')).tail
  | _ =>
    let host := text.takeWhile (· ≠ ':')
    !host.isEmpty && host.all isHostChar && isPort (text.dropWhile (· ≠ ':'))

def afterScheme (text : List Char) : Option (List Char) :=
  match text with
  | 'h' :: 't' :: 't' :: 'p' :: ':' :: '/' :: '/' :: rest => some rest
  | 'h' :: 't' :: 't' :: 'p' :: 's' :: ':' :: '/' :: '/' :: rest => some rest
  | _ => none

def safeEvidenceUrl (url : String) : Bool :=
  url.toList.all (fun c => 32 < c.toNat && c.toNat ≠ 127 && c ≠ '\\') &&
    match afterScheme url.toList with
    | some rest => isAuthority (rest.takeWhile fun c => c ≠ '/' && c ≠ '?' && c ≠ '#')
    | none => false

end DevGraph.Work
