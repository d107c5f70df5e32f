import DevGraph.Lib.GraphStore
import DevGraph.Lib.Json
import DevGraph.Lib.Transaction

/-!
# Labels, properties and errors

The closed vocabulary of the Work graph, with the checks that every module shares. Only the labels,
relationships and properties that a Work or Arena mutation or its receipt reads or writes are
listed.
-/

namespace DevGraph.Work

open Lib

inductive Label
  | todo | proposal | initiative | project | issue | task
  | requirement | acceptanceCriterion | blocker | decision | handoff | reviewPacket | milestone
  | arena | artifact | externalLink | sessionRef | sessionLink | sessionWorkState
  | eventReceipt
  deriving DecidableEq

def Label.name : Label → String
  | .todo => "Todo"
  | .proposal => "Proposal"
  | .initiative => "Initiative"
  | .project => "Project"
  | .issue => "Issue"
  | .task => "Task"
  | .requirement => "Requirement"
  | .acceptanceCriterion => "AcceptanceCriterion"
  | .blocker => "Blocker"
  | .decision => "Decision"
  | .handoff => "Handoff"
  | .reviewPacket => "ReviewPacket"
  | .milestone => "Milestone"
  | .arena => "Arena"
  | .artifact => "Artifact"
  | .externalLink => "ExternalLink"
  | .sessionRef => "SessionRef"
  | .sessionLink => "SessionLink"
  | .sessionWorkState => "SessionWorkState"
  | .eventReceipt => "EventReceipt"

def canonicalWorkKinds : List Label :=
  [.todo, .proposal, .initiative, .project, .issue, .task, .requirement, .acceptanceCriterion,
    .blocker, .decision, .handoff, .reviewPacket, .milestone]

def todoKinds : List Label := [.todo, .proposal, .initiative, .project, .issue, .task]

def workKinds : List Label := [.proposal, .initiative, .project, .issue, .task]

def labels : List Label :=
  canonicalWorkKinds ++ [.arena, .artifact, .externalLink, .sessionRef, .sessionLink,
    .sessionWorkState, .eventReceipt]

def Label.ofName (s : String) : Option Label := labels.find? fun l => l.name = s

def parents : Label → List Label
  | .project => [.initiative]
  | .issue => [.initiative, .project]
  | .task => [.initiative, .project, .issue]
  | _ => []

abbrev Key := Label × String

instance instLawfulBEqKey : LawfulBEq Key := inferInstance

instance instLawfulBEqNamePair : LawfulBEq (String × String) := inferInstance

def resource (key : Key) : String := key.1.name ++ "/" ++ key.2

inductive Relationship
  | hasChild | containsWork | dependsOn | blocks | hasRequirement | hasAcceptanceCriterion
  | acceptedByDecision | rejectedByDecision | convertedTo | conversionDecidedBy
  | hasWorkflowDecision | hasHandoff | hasReviewPacket | hasArtifact | hasExternalLink
  | attributedToSession | sessionLinkOrigin | sessionLinkTarget | emittedEvent
  deriving DecidableEq

inductive Property
  | kind | title | description | status | createdAt | updatedAt | version | artifactIds
  | externalLinkIds | priority | workflowJson | progressSchema | progress | progressRecordId
  | progressMigrationJson
  | role | url | externalId | summary
  | schemaVersion | application | sourceInstanceId | externalSessionId | refType | actorId
  | sessionId | correlationId | eventId | attemptId | relation | originId | targetId
  | observedAt | basis | state | updatedBy
  | ordered | required | decisionId | sourceProposalId | workVersion
  | operation | subjectLabel | subjectId | idempotencyClaimDigest | idempotencyKeyDigest
  | requestDigestSha256 | idempotencyKeyDigestSha256 | attemptCount | nextAttemptAt
  | redactedSummary | lastErrorSummary
  deriving DecidableEq

def Property.name : Property → String
  | .kind => "kind"
  | .title => "title"
  | .description => "description"
  | .status => "status"
  | .createdAt => "created_at"
  | .updatedAt => "updated_at"
  | .version => "version"
  | .artifactIds => "artifact_ids"
  | .externalLinkIds => "external_link_ids"
  | .priority => "priority"
  | .workflowJson => "workflow_json"
  | .progressSchema => "progress_schema"
  | .progress => "progress"
  | .progressRecordId => "progress_record_id"
  | .progressMigrationJson => "progress_migration_json"
  | .role => "role"
  | .url => "url"
  | .externalId => "external_id"
  | .summary => "summary"
  | .schemaVersion => "schema_version"
  | .application => "application"
  | .sourceInstanceId => "source_instance_id"
  | .externalSessionId => "external_session_id"
  | .refType => "ref_type"
  | .actorId => "actor_id"
  | .sessionId => "session_id"
  | .correlationId => "correlation_id"
  | .eventId => "event_id"
  | .attemptId => "attempt_id"
  | .relation => "relation"
  | .originId => "origin_id"
  | .targetId => "target_id"
  | .observedAt => "observed_at"
  | .basis => "basis"
  | .state => "state"
  | .updatedBy => "updated_by"
  | .ordered => "ordered"
  | .required => "required"
  | .decisionId => "decision_id"
  | .sourceProposalId => "source_proposal_id"
  | .workVersion => "work_version"
  | .operation => "operation"
  | .subjectLabel => "subject_label"
  | .subjectId => "subject_id"
  | .idempotencyClaimDigest => "idempotency_claim_digest"
  | .idempotencyKeyDigest => "idempotency_key_digest"
  | .requestDigestSha256 => "request_digest_sha256"
  | .idempotencyKeyDigestSha256 => "idempotency_key_digest_sha256"
  | .attemptCount => "attempt_count"
  | .nextAttemptAt => "next_attempt_at"
  | .redactedSummary => "redacted_summary"
  | .lastErrorSummary => "last_error_summary"

def properties : List Property :=
  [.kind, .title, .description, .status, .createdAt, .updatedAt, .version, .artifactIds,
    .externalLinkIds, .priority, .workflowJson, .progressSchema, .progress, .progressRecordId,
    .progressMigrationJson, .role, .url, .externalId, .summary, .schemaVersion, .application,
    .sourceInstanceId, .externalSessionId, .refType, .actorId, .sessionId, .correlationId,
    .eventId, .attemptId, .relation, .originId, .targetId, .observedAt, .basis, .state,
    .updatedBy, .ordered, .required, .decisionId, .sourceProposalId, .workVersion, .operation,
    .subjectLabel, .subjectId, .idempotencyClaimDigest, .idempotencyKeyDigest,
    .requestDigestSha256, .idempotencyKeyDigestSha256, .attemptCount, .nextAttemptAt,
    .redactedSummary, .lastErrorSummary]

lemma mem_properties (p : Property) : p ∈ properties := by
  cases p <;> decide

inductive Value
  | str (s : String)
  | int (n : Int)
  | bool (b : Bool)
  | strs (l : List String)
  deriving DecidableEq

def Value.toJson : Value → Json
  | .str s => .str s
  | .int n => .int n
  | .bool b => .bool b
  | .strs l => .arr (l.map .str)

abbrev Props := Property → Option Value

instance : DecidableEq Props := fun a b =>
  decidable_of_iff (∀ p ∈ properties, a p = b p)
    ⟨fun h => funext fun p => h p (mem_properties p), fun h _ _ => congrFun h _⟩

def noProps : Props := fun _ => none

def prop1 (p : Property) (v : Value) : Props := fun q => if q = p then some v else none

/-- The dictionary `{**a, **b}`. -/
def Props.merge (a b : Props) : Props := fun p => (b p).or (a p)

def Props.toJson (a : Props) : Json :=
  .obj (properties.filterMap fun p => (a p).map fun v => (p.name, v.toJson))

structure Node where
  properties : Props
  archived : Bool
  deriving DecidableEq

abbrev EdgeRecord := Edge Key Relationship Props

abbrev Store := GraphStore Key Node Relationship Props

inductive ErrorClass
  | valueError | invalidWorkObjectId | numericBoundError | typeError | keyError
  | storageUnavailable | workObjectRepositoryError | unknownWorkObjectKind | missingWorkObject
  | workObjectAlreadyExists | invalidStatusTransition | versionConflict
  | workRelationshipConflict | workflowConflict | proposalLifecycle | arenaConflict
  | invalidWorkRequest | invalidArenaRequest | idempotencyScopeConflict | overflowError
  | unauthenticated | forbidden | databaseError | runtimeError
  deriving DecidableEq

structure Error where
  cls : ErrorClass
  message : String
  deriving DecidableEq

/-- The classes below `ValueError`. -/
def Error.isValueError (e : Error) : Bool :=
  e.cls ∉ [ErrorClass.typeError, .keyError, .storageUnavailable, .idempotencyScopeConflict,
    .overflowError, .unauthenticated, .forbidden, .databaseError, .runtimeError]

def Error.isTypeError (e : Error) : Bool := e.cls = .typeError

def Error.isKeyError (e : Error) : Bool := e.cls = .keyError

def Error.isRepositoryError (e : Error) : Bool :=
  e.cls ∈ [ErrorClass.workObjectRepositoryError, .unknownWorkObjectKind, .missingWorkObject,
    .workObjectAlreadyExists, .invalidStatusTransition, .versionConflict, .workflowConflict]

abbrev Tx := EStateM Error Store

def isLowerAlnum (c : Char) : Bool := ('a' ≤ c && c ≤ 'z') || ('0' ≤ c && c ≤ '9')

/-- The pattern `[a-z0-9](?:[a-z0-9-]{0,254}[a-z0-9])?`. -/
def isWorkObjectId (s : String) : Bool :=
  match s.toList with
  | [] => false
  | c :: cs =>
    isLowerAlnum c && cs.all (fun d => isLowerAlnum d || d == '-') &&
      isLowerAlnum ((c :: cs).getLast (by simp)) && cs.length ≤ 255

def validateWorkObjectId (s : String) : Except Error Unit :=
  raiseIf (isWorkObjectId s = false) (Error.mk .invalidWorkObjectId "invalid_work_object_id")

/-- Lower-case hexadecimal digits, exactly as many as the width. -/
def isLowerHex (width : Nat) (s : String) : Bool :=
  s.length = width && s.toList.all fun c => '0' ≤ c && c ≤ '9' || 'a' ≤ c && c ≤ 'f'

def signed64Min : Int := -9223372036854775808

def signed64Max : Int := 9223372036854775807

def isVersion (n : Int) : Bool := 1 ≤ n && n ≤ signed64Max

def isPriority (n : Int) : Bool := signed64Min ≤ n && n ≤ signed64Max

/-- The characters that `str.strip` removes. -/
def isSpace (c : Char) : Bool :=
  c.toNat ∈ [9, 10, 11, 12, 13, 28, 29, 30, 31, 32, 133, 160, 5760, 8192, 8193, 8194, 8195, 8196,
    8197, 8198, 8199, 8200, 8201, 8202, 8232, 8233, 8239, 8287, 12288]

/-- Nothing is left of the text after `str.strip`. -/
def isBlank (s : String) : Bool := s.toList.all isSpace

end DevGraph.Work
