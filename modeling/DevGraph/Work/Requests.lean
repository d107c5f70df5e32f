import DevGraph.Work.Payloads

/-!
# Named Work and Arena requests

The closed request contract: strict JSON, the envelope, the payload of the operation, the
inventory of resources that the signature covers and the canonical bytes.
-/

namespace DevGraph.Work

open Lib

def distinctMembers (fields : List (String × Json)) : Option (List (String × Json)) :=
  if (fields.map Prod.fst).Nodup then some fields else none

/-- JSON with safe integers and no repeated member. -/
def strictJson : Dialect where
  int := fun n => -maxSafeInteger ≤ n && n ≤ maxSafeInteger
  pairs := distinctMembers
  pairs_distinct := fun fields h => by rw [distinctMembers, if_pos h]
  pairs_subset := by
    intro fields taken h
    unfold distinctMembers at h
    split at h
    · cases h
      exact fun _ hf => hf
    · cases h

def strictJsonObject (raw : ByteArray) (maximumBytes : Nat) : Option (List (String × Json)) := do
  let raw ← ensure (·.size ≤ maximumBytes) raw
  let text ← String.fromUTF8? raw
  let text ← ensure (fun text => text.toList.head? ≠ some '\uFEFF') text
  let value ← loads strictJson text.toList
  let value ← ensure (Json.nestedWithin 16) value
  value.asObj

def canonicalJson (value : Json) : ByteArray := (dumps false value).toUTF8

inductive Schema
  | v1 | v2
  deriving DecidableEq

def Schema.name : Schema → String
  | .v1 => "devgraph.work-request.v1"
  | .v2 => "devgraph.work-request.v2"

def Schema.version : Schema → Nat
  | .v1 => 1
  | .v2 => 2

inductive Operation
  | create | patch | status | archive | accept | convert | parentSet
  | dependencyAdd | dependencyRemove | blockerAdd | blockerRemove
  | workflowAssign | workflowReview | workflowTransition
  | progressSet | restore | proposalReject | sessionAttach | sessionState
  deriving DecidableEq

def Operation.name : Operation → String
  | .create => "create"
  | .patch => "patch"
  | .status => "status"
  | .archive => "archive"
  | .accept => "accept"
  | .convert => "convert"
  | .parentSet => "parent.set"
  | .dependencyAdd => "dependency.add"
  | .dependencyRemove => "dependency.remove"
  | .blockerAdd => "blocker.add"
  | .blockerRemove => "blocker.remove"
  | .workflowAssign => "workflow.assign"
  | .workflowReview => "workflow.review"
  | .workflowTransition => "workflow.transition"
  | .progressSet => "progress.set"
  | .restore => "restore"
  | .proposalReject => "proposal.reject"
  | .sessionAttach => "session.attach"
  | .sessionState => "session.state"

def workOperations : List Operation :=
  [.create, .patch, .status, .archive, .accept, .convert, .parentSet, .dependencyAdd,
    .dependencyRemove, .blockerAdd, .blockerRemove, .workflowAssign, .workflowReview,
    .workflowTransition]

def allOperations : List Operation :=
  workOperations ++ [.progressSet, .restore, .proposalReject, .sessionAttach, .sessionState]

inductive Payload
  | create (content : CreateWork)
  | patch (changes : ContentChanges)
  | status (status : WorkStatus)
  | archive
  | accept (acceptance : AcceptProposal)
  | convert (conversion : Conversion)
  | parentSet (change : ParentChange)
  | dependency (add : Bool) (target : WorkReference)
  | blocker (add : Bool) (target : WorkReference)
  | workflowAssign (assignment : WorkflowAssign)
  | workflowReview (review : WorkflowReview)
  | workflowTransition (transition : WorkflowTransition)
  | progressSet (change : ProgressSet)
  | restore
  | proposalReject (rejection : ProposalReject)
  | sessionAttach (attachment : SessionAttach)
  | sessionState (state : SessionState)
  deriving DecidableEq

def Payload.operation : Payload → Operation
  | .create _ => .create
  | .patch _ => .patch
  | .status _ => .status
  | .archive => .archive
  | .accept _ => .accept
  | .convert _ => .convert
  | .parentSet _ => .parentSet
  | .dependency true _ => .dependencyAdd
  | .dependency false _ => .dependencyRemove
  | .blocker true _ => .blockerAdd
  | .blocker false _ => .blockerRemove
  | .workflowAssign _ => .workflowAssign
  | .workflowReview _ => .workflowReview
  | .workflowTransition _ => .workflowTransition
  | .progressSet _ => .progressSet
  | .restore => .restore
  | .proposalReject _ => .proposalReject
  | .sessionAttach _ => .sessionAttach
  | .sessionState _ => .sessionState

def Payload.ofJson (operation : Operation) (v : Json) : Option Payload :=
  match operation with
  | .create => (CreateWork.ofJson v).map .create
  | .patch => (ContentChanges.ofJson v).map .patch
  | .status => (statusOfJson v).map .status
  | .archive => (emptyOfJson v).map fun _ => .archive
  | .accept => (AcceptProposal.ofJson v).map .accept
  | .convert => (Conversion.ofJson v).map .convert
  | .parentSet => (ParentChange.ofJson v).map .parentSet
  | .dependencyAdd => (targetOfJson v).map (.dependency true)
  | .dependencyRemove => (targetOfJson v).map (.dependency false)
  | .blockerAdd => (targetOfJson v).map (.blocker true)
  | .blockerRemove => (targetOfJson v).map (.blocker false)
  | .workflowAssign => (WorkflowAssign.ofJson v).map .workflowAssign
  | .workflowReview => (WorkflowReview.ofJson v).map .workflowReview
  | .workflowTransition => (WorkflowTransition.ofJson v).map .workflowTransition
  | .progressSet => (ProgressSet.ofJson v).map .progressSet
  | .restore => (emptyOfJson v).map fun _ => .restore
  | .proposalReject => (ProposalReject.ofJson v).map .proposalReject
  | .sessionAttach => (SessionAttach.ofJson v).map .sessionAttach
  | .sessionState => (sessionStateOfJson v).map .sessionState

def Payload.toJson : Payload → Json
  | .create c => c.toJson
  | .patch c => c.toJson
  | .status s => .obj [("status", .str s.name)]
  | .archive => .obj []
  | .accept a => a.toJson
  | .convert c => c.toJson
  | .parentSet c => c.toJson
  | .dependency _ target => .obj [("target", target.toJson)]
  | .blocker _ target => .obj [("target", target.toJson)]
  | .workflowAssign a => a.toJson
  | .workflowReview r => r.toJson
  | .workflowTransition t => t.toJson
  | .progressSet c => c.toJson
  | .restore => .obj []
  | .proposalReject r => r.toJson
  | .sessionAttach a => a.toJson
  | .sessionState s => .obj [("state", .str s.name)]

structure Envelope where
  schema : Schema
  operation : Operation
  kind : Label
  id : String
  expectedVersion : Option Int
  payload : Json

def subjectKinds : List Label :=
  [.todo, .proposal, .initiative, .project, .issue, .task, .sessionRef]

def Envelope.ofFields (fields : List (String × Json)) : Option Envelope := do
  let fields ← ensure (onlyMembers · ["expected_version", "id", "kind", "operation", "payload",
    "schema"]) fields
  let schema ← required fields "schema" (Json.asName Schema.name [.v1, .v2])
  let operation ← required fields "operation" (Json.asName Operation.name allOperations)
  let kind ← required fields "kind" (Json.asName Label.name subjectKinds)
  let id ← required fields "id" Json.asStr
  let expectedVersion ← required fields "expected_version" (Json.asNullable Json.asInt)
  let payload ← required fields "payload" Json.asObj
  return ⟨schema, operation, kind, id, expectedVersion, .obj payload⟩

/-- The pattern `sr-[0-9a-f]{64}`. -/
def isSessionRefId (s : String) : Bool :=
  match s.toList with
  | 's' :: 'r' :: '-' :: digits =>
    digits.length = 64 && digits.all fun c => isDigit c || ('a' ≤ c && c ≤ 'f')
  | _ => false

def todoOperations : List Operation := [.create, .patch, .archive, .restore, .progressSet]

/-- The checks on the envelope, before its payload is read. -/
def Envelope.admissible (e : Envelope) : Bool :=
  ((e.kind = .sessionRef : Bool) == (e.operation = .sessionState : Bool)) &&
    !(e.kind = .sessionRef && !isSessionRefId e.id) &&
    !(e.schema = .v1 && (e.kind = .todo || e.operation ∉ workOperations)) &&
    !(e.schema = .v2 && e.operation = .status) &&
    !(e.kind = .todo && e.operation ∉ todoOperations) &&
    isWorkObjectId e.id &&
    match e.expectedVersion with
    | none => e.operation = .create
    | some version => e.operation ≠ .create && isVersion version

section Digest

variable (sha256 : String → String)

/-- A prefix and the digest of the text of a value. -/
def digestId (label : String) (v : Json) : String := label ++ sha256 (dumps true v)

def SessionIdentity.refId (i : SessionIdentity) : String := digestId sha256 "sr-" i.toJson

def LinkWitness.linkId (l : LinkWitness) : String :=
  digestId sha256 "sl-" (.arr [.str l.sourceInstanceId, .str l.eventId])

def SessionAttach.keys (a : SessionAttach) : List Key :=
  (.sessionRef, a.session.refId sha256) ::
    match a.link with
    | none => []
    | some l =>
      [(.sessionLink, l.linkId sha256), (.sessionRef, l.origin.refId sha256),
        (.sessionRef, l.target.refId sha256)]

def evidenceKeys (evidence : List Evidence) : List Key :=
  (evidence.filter fun e => e.url ≠ "").map fun e => (.externalLink, e.id)

/-- What a payload adds to the subject in the resource inventory. -/
def Payload.keys : Payload → List Key
  | .accept acceptance => [(.decision, acceptance.decisionId)]
  | .convert conversion => [(.issue, conversion.issueId), (.decision, conversion.decisionId)]
  | .parentSet change =>
    change.previousParent.toList.map WorkReference.key ++
      change.parent.toList.map WorkReference.key ++
      change.previousArena.join.toList.map fun arena => (.arena, arena.id)
  | .dependency _ target => [target.key]
  | .blocker _ target => [target.key]
  | .workflowReview review =>
    (recordKind review.phase, review.recordId) :: evidenceKeys review.evidence
  | .progressSet change => (.reviewPacket, change.recordId) :: evidenceKeys change.evidence
  | .proposalReject rejection => [(.decision, rejection.decisionId)]
  | .sessionAttach attachment => attachment.keys sha256
  | _ => []

end Digest

/-- The checks that relate the payload to its subject. -/
def Payload.admissible (kind : Label) (id : String) : Payload → Bool
  | .create content => content.id = id
  | .accept _ => kind = .proposal
  | .convert _ => kind = .proposal
  | .parentSet change =>
    !(parents kind).isEmpty &&
      !(change.previousParent = none && change.parent = none && change.previousArena.join = none) &&
      change.previousParent.all (fun r => r.kind ∈ parents kind) &&
      change.parent.all (fun r => r.kind ∈ parents kind) &&
      !(change.previousArena.join ≠ none && (kind ≠ .task || change.parent = none))
  | .dependency _ target => resource target.key ≠ resource (kind, id)
  | .blocker _ target =>
    resource target.key ≠ resource (kind, id) && kind = .task && target.kind = .task
  | .proposalReject _ => kind = .proposal
  | _ => true

def sortedResources (keys : List Key) : List String :=
  (keys.map resource).dedup.insertionSort fun a b => a.toList ≤ b.toList

/-- A request, with the payload that its canonical bytes carry. -/
structure WorkRequest where
  canonical : ByteArray
  schema : Schema
  kind : Label
  id : String
  expectedVersion : Option Int
  resources : List String
  payload : Payload

def WorkRequest.operation (r : WorkRequest) : Operation := r.payload.operation

def WorkRequest.key (r : WorkRequest) : Key := (r.kind, r.id)

def materialized (schema : Schema) (kind : Label) (id : String) (expectedVersion : Option Int)
    (payload : Payload) : Json :=
  .obj [("expected_version", Json.ofNullable Json.int expectedVersion), ("id", .str id),
    ("kind", .str kind.name), ("operation", .str payload.operation.name),
    ("payload", payload.toJson), ("schema", .str schema.name)]

/-- The request of an envelope whose payload has been read. -/
def Envelope.request (sha256 : String → String) (e : Envelope) (payload : Payload) :
    WorkRequest where
  canonical := canonicalJson (materialized e.schema e.kind e.id e.expectedVersion payload)
  schema := e.schema
  kind := e.kind
  id := e.id
  expectedVersion := e.expectedVersion
  resources := sortedResources ((e.kind, e.id) :: payload.keys sha256)
  payload := payload

def WorkRequest.fromJson? (sha256 : String → String) (raw : ByteArray) : Option WorkRequest := do
  let fields ← strictJsonObject raw 131072
  let envelope ← Envelope.ofFields fields
  let envelope ← ensure Envelope.admissible envelope
  let payload ← Payload.ofJson envelope.operation envelope.payload
  let payload ← ensure (Payload.admissible envelope.kind envelope.id) payload
  ensure (·.canonical.size ≤ 65536) (envelope.request sha256 payload)

def WorkRequest.fromJson (sha256 : String → String) (raw : ByteArray) :
    Except Error WorkRequest :=
  match WorkRequest.fromJson? sha256 raw with
  | some request => .ok request
  | none => .error ⟨.invalidWorkRequest, "invalid_work_request"⟩

def WorkRequest.authorityOperation (r : WorkRequest) : String :=
  "devgraph.work." ++ r.operation.name ++ ".v" ++ toString r.schema.version

/-! ## Arena requests -/

inductive ArenaPayload
  | create (content : CreateArena)
  | patch (changes : ArenaChanges)
  | archive
  | memberSet (membership : Membership)
  deriving DecidableEq

inductive ArenaOperation
  | create | patch | archive | memberSet
  deriving DecidableEq

def ArenaOperation.name : ArenaOperation → String
  | .create => "create"
  | .patch => "patch"
  | .archive => "archive"
  | .memberSet => "member.set"

def arenaOperations : List ArenaOperation := [.create, .patch, .archive, .memberSet]

def ArenaPayload.operation : ArenaPayload → ArenaOperation
  | .create _ => .create
  | .patch _ => .patch
  | .archive => .archive
  | .memberSet _ => .memberSet

def ArenaPayload.ofJson (operation : ArenaOperation) (v : Json) : Option ArenaPayload :=
  match operation with
  | .create => (CreateArena.ofJson v).map .create
  | .patch => (ArenaChanges.ofJson v).map .patch
  | .archive => (emptyOfJson v).map fun _ => .archive
  | .memberSet => (Membership.ofJson v).map .memberSet

def ArenaPayload.toJson : ArenaPayload → Json
  | .create content => content.toJson
  | .patch changes => changes.toJson
  | .archive => .obj []
  | .memberSet membership => membership.toJson

structure ArenaEnvelope where
  operation : ArenaOperation
  kind : Label
  id : String
  expectedVersion : Option Int
  payload : Json

def arenaSchema : String := "devgraph.arena-request.v1"

def ArenaEnvelope.ofFields (fields : List (String × Json)) : Option ArenaEnvelope := do
  let fields ← ensure (onlyMembers · ["expected_version", "id", "kind", "operation", "payload",
    "schema"]) fields
  let _ ← required fields "schema" fun v => v.asStr.bind (ensure (· = arenaSchema))
  let operation ← required fields "operation" (Json.asName ArenaOperation.name arenaOperations)
  let kind ← required fields "kind" (Json.asName Label.name [.arena, .initiative, .task])
  let id ← required fields "id" asIdentifier
  let expectedVersion ← required fields "expected_version"
    (Json.asNullable fun v => v.asInt.bind (ensure isArenaVersion))
  let payload ← required fields "payload" Json.asObj
  return ⟨operation, kind, id, expectedVersion, .obj payload⟩

def ArenaEnvelope.admissible (e : ArenaEnvelope) : Bool :=
  ((e.operation = .create : Bool) == (e.expectedVersion = none : Bool)) &&
    ((e.operation = .memberSet : Bool) == (e.kind ≠ .arena : Bool))

def ArenaPayload.admissible (id : String) : ArenaPayload → Bool
  | .create content => content.id = id
  | .memberSet membership => membership.previousArena ≠ none || membership.arena ≠ none
  | _ => true

def ArenaPayload.keys : ArenaPayload → List Key
  | .memberSet membership =>
    (membership.previousArena.toList ++ membership.arena.toList).map fun r => (.arena, r.id)
  | _ => []

structure ArenaRequest where
  canonical : ByteArray
  kind : Label
  id : String
  expectedVersion : Option Int
  resources : List String
  payload : ArenaPayload

def ArenaRequest.operation (r : ArenaRequest) : ArenaOperation := r.payload.operation

def ArenaRequest.key (r : ArenaRequest) : Key := (r.kind, r.id)

def arenaMaterialized (kind : Label) (id : String) (expectedVersion : Option Int)
    (payload : ArenaPayload) : Json :=
  .obj [("expected_version", Json.ofNullable Json.int expectedVersion), ("id", .str id),
    ("kind", .str kind.name), ("operation", .str payload.operation.name),
    ("payload", payload.toJson), ("schema", .str arenaSchema)]

def ArenaEnvelope.request (e : ArenaEnvelope) (payload : ArenaPayload) : ArenaRequest where
  canonical := canonicalJson (arenaMaterialized e.kind e.id e.expectedVersion payload)
  kind := e.kind
  id := e.id
  expectedVersion := e.expectedVersion
  resources := sortedResources ((e.kind, e.id) :: payload.keys)
  payload := payload

def ArenaRequest.fromJson? (raw : ByteArray) : Option ArenaRequest := do
  let fields ← strictJsonObject raw 131072
  let envelope ← ArenaEnvelope.ofFields fields
  let envelope ← ensure ArenaEnvelope.admissible envelope
  let payload ← ArenaPayload.ofJson envelope.operation envelope.payload
  let payload ← ensure (ArenaPayload.admissible envelope.id) payload
  ensure (·.canonical.size ≤ 65536) (envelope.request payload)

def ArenaRequest.fromJson (raw : ByteArray) : Except Error ArenaRequest :=
  match ArenaRequest.fromJson? raw with
  | some request => .ok request
  | none => .error ⟨.invalidArenaRequest, "invalid_arena_request"⟩

def ArenaRequest.authorityOperation (r : ArenaRequest) : String :=
  "devgraph.arena." ++ r.operation.name ++ ".v1"

end DevGraph.Work
