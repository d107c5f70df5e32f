import DevGraph.Work.WorkflowContract
import DevGraph.Work.Timestamps

/-!
# Payload models

The closed payload models of the Work and Arena operations: records with the checks of their
validators, decoders that name every member, and the form of their dumps.
-/

namespace DevGraph.Work

open Lib

def asIdentifier (v : Json) : Option String := v.asStr.bind (ensure isWorkObjectId)

def strings (l : List String) : Json := .arr (l.map .str)

def closedRecord (names : List String) (v : Json) : Option (List (String × Json)) :=
  v.asObj.bind (ensure (onlyMembers · names))

structure WorkReference where
  kind : Label
  id : String
  expectedVersion : Int
  deriving DecidableEq

def WorkReference.key (r : WorkReference) : Key := (r.kind, r.id)

def WorkReference.ofJson (v : Json) : Option WorkReference := do
  let fields ← closedRecord ["expected_version", "id", "kind"] v
  let kind ← required fields "kind" (Json.asName Label.name workKinds)
  let id ← required fields "id" asIdentifier
  let version ← required fields "expected_version" fun v => v.asInt.bind (ensure isVersion)
  return ⟨kind, id, version⟩

def WorkReference.toJson (r : WorkReference) : Json :=
  .obj [("expected_version", .int r.expectedVersion), ("id", .str r.id), ("kind", .str r.kind.name)]

structure ArenaReference where
  id : String
  expectedVersion : Int
  deriving DecidableEq

def isArenaVersion (n : Int) : Bool := 1 ≤ n && n ≤ maxSafeInteger

def ArenaReference.ofJson (v : Json) : Option ArenaReference := do
  let fields ← closedRecord ["expected_version", "id", "kind"] v
  let _ ← required fields "kind" (Json.asName Label.name [.arena])
  let id ← required fields "id" asIdentifier
  let version ← required fields "expected_version" fun v => v.asInt.bind (ensure isArenaVersion)
  return ⟨id, version⟩

def ArenaReference.toJson (r : ArenaReference) : Json :=
  .obj [("expected_version", .int r.expectedVersion), ("id", .str r.id), ("kind", .str "Arena")]

structure Evidence where
  kind : Label
  id : String
  title : String
  url : String
  deriving DecidableEq

def Evidence.key (e : Evidence) : Key := (e.kind, e.id)

def Evidence.valid (e : Evidence) : Bool :=
  (e.kind = .artifact || e.kind = .externalLink) && isWorkObjectId e.id &&
    e.title.length ≤ 4096 && e.url.length ≤ 4096 &&
    if e.url ≠ "" then
      e.kind = .externalLink && !isBlank e.title && safeEvidenceUrl e.url
    else e.title = ""

def Evidence.ofJson (v : Json) : Option Evidence := do
  let fields ← closedRecord ["id", "kind", "title", "url"] v
  let kind ← required fields "kind" (Json.asName Label.name [.artifact, .externalLink])
  let id ← required fields "id" Json.asStr
  let title ← defaulted fields "title" "" Json.asStr
  let url ← defaulted fields "url" "" Json.asStr
  ensure Evidence.valid ⟨kind, id, title, url⟩

def Evidence.toJson (e : Evidence) : Json :=
  .obj [("id", .str e.id), ("kind", .str e.kind.name), ("title", .str e.title), ("url", .str e.url)]

inductive Outcome
  | met | unmet | excluded
  deriving DecidableEq

def Outcome.name : Outcome → String
  | .met => "met"
  | .unmet => "unmet"
  | .excluded => "excluded"

def outcomes : List Outcome := [.met, .unmet, .excluded]

structure RequirementVerdict where
  id : String
  subject : String
  title : String
  outcome : Outcome
  evidenceIds : List String
  reason : String
  deriving DecidableEq

/-- An empty text, or a kind and an identifier around the first slash. -/
def isRequirementSubject (s : String) : Bool :=
  s = "" ||
    (s.toList.contains '/' &&
      (workKinds ++ [Label.requirement, Label.acceptanceCriterion]).any (fun kind =>
        kind.name.toList = s.toList.takeWhile (· ≠ '/')) &&
      isWorkObjectId (String.ofList (s.toList.dropWhile (· ≠ '/')).tail))

def RequirementVerdict.valid (r : RequirementVerdict) : Bool :=
  isWorkObjectId r.id && r.subject.length ≤ 280 && isRequirementSubject r.subject &&
    1 ≤ r.title.length && r.title.length ≤ 4096 && r.evidenceIds.length ≤ 50 &&
    r.reason.length ≤ 4096

def RequirementVerdict.ofJson (v : Json) : Option RequirementVerdict := do
  let fields ← closedRecord ["evidence_ids", "id", "outcome", "reason", "subject", "title"] v
  let id ← required fields "id" Json.asStr
  let subject ← defaulted fields "subject" "" Json.asStr
  let title ← required fields "title" Json.asStr
  let outcome ← required fields "outcome" (Json.asName Outcome.name outcomes)
  let evidenceIds ← defaulted fields "evidence_ids" [] (Json.asList Json.asStr)
  let reason ← defaulted fields "reason" "" Json.asStr
  ensure RequirementVerdict.valid ⟨id, subject, title, outcome, evidenceIds, reason⟩

def RequirementVerdict.toJson (r : RequirementVerdict) : Json :=
  .obj [("evidence_ids", strings r.evidenceIds), ("id", .str r.id),
    ("outcome", .str r.outcome.name), ("reason", .str r.reason), ("subject", .str r.subject),
    ("title", .str r.title)]

inductive Layer
  | product | architecture | implementation | e2e | design | ux
  deriving DecidableEq

def Layer.name : Layer → String
  | .product => "product"
  | .architecture => "architecture"
  | .implementation => "implementation"
  | .e2e => "e2e"
  | .design => "design"
  | .ux => "ux"

def layers : List Layer := [.product, .architecture, .implementation, .e2e, .design, .ux]

inductive Verdict
  | approved | changesRequested | notApplicable
  deriving DecidableEq

def Verdict.name : Verdict → String
  | .approved => "approved"
  | .changesRequested => "changes_requested"
  | .notApplicable => "not_applicable"

def verdicts : List Verdict := [.approved, .changesRequested, .notApplicable]

structure LayerVerdict where
  layer : Layer
  verdict : Verdict
  reason : String
  deriving DecidableEq

def LayerVerdict.valid (l : LayerVerdict) : Bool := l.reason.length ≤ 4096

def LayerVerdict.ofJson (v : Json) : Option LayerVerdict := do
  let fields ← closedRecord ["layer", "reason", "verdict"] v
  let layer ← required fields "layer" (Json.asName Layer.name layers)
  let verdict ← required fields "verdict" (Json.asName Verdict.name verdicts)
  let reason ← defaulted fields "reason" "" Json.asStr
  ensure LayerVerdict.valid ⟨layer, verdict, reason⟩

def LayerVerdict.toJson (l : LayerVerdict) : Json :=
  .obj [("layer", .str l.layer.name), ("reason", .str l.reason), ("verdict", .str l.verdict.name)]

structure WorkflowReview where
  recordId : String
  phase : Phase
  verdict : Verdict
  summary : String
  evidence : List Evidence
  requirements : List RequirementVerdict
  layers : List LayerVerdict
  deriving DecidableEq

/-- The check that a review makes on its lists. -/
def uniqueReview (evidence : List Evidence) (requirements : List RequirementVerdict)
    (layers : List LayerVerdict) : Bool :=
  (evidence.map Evidence.id).Nodup && (requirements.map RequirementVerdict.id).Nodup &&
    (layers.map LayerVerdict.layer).Nodup &&
    requirements.all (fun row =>
      row.evidenceIds.all (fun id => id ∈ evidence.map Evidence.id) &&
        !(row.outcome = .met && row.evidenceIds.isEmpty) &&
        !(row.outcome = .excluded && isBlank row.reason)) &&
    !layers.any fun l => l.verdict = .notApplicable && isBlank l.reason

def WorkflowReview.valid (r : WorkflowReview) : Bool :=
  isWorkObjectId r.recordId && 1 ≤ r.summary.length && r.summary.length ≤ 8192 &&
    r.evidence.length ≤ 50 && r.requirements.length ≤ 100 && r.layers.length ≤ 6 &&
    uniqueReview r.evidence r.requirements r.layers

def WorkflowReview.ofJson (v : Json) : Option WorkflowReview := do
  let fields ← closedRecord ["evidence", "layers", "phase", "record_id", "requirements",
    "summary", "verdict"] v
  let recordId ← required fields "record_id" Json.asStr
  let phase ← required fields "phase" (Json.asName Phase.name phases)
  let verdict ← required fields "verdict" (Json.asName Verdict.name verdicts)
  let summary ← required fields "summary" Json.asStr
  let evidence ← defaulted fields "evidence" [] (Json.asList Evidence.ofJson)
  let requirements ← defaulted fields "requirements" [] (Json.asList RequirementVerdict.ofJson)
  let layers ← defaulted fields "layers" [] (Json.asList LayerVerdict.ofJson)
  ensure WorkflowReview.valid ⟨recordId, phase, verdict, summary, evidence, requirements, layers⟩

def WorkflowReview.toJson (r : WorkflowReview) : Json :=
  .obj [("evidence", .arr (r.evidence.map Evidence.toJson)),
    ("layers", .arr (r.layers.map LayerVerdict.toJson)), ("phase", .str r.phase.name),
    ("record_id", .str r.recordId),
    ("requirements", .arr (r.requirements.map RequirementVerdict.toJson)),
    ("summary", .str r.summary), ("verdict", .str r.verdict.name)]

structure WorkflowAssign where
  workflowId : WorkflowId
  stage : Stage
  reason : String
  deriving DecidableEq

def WorkflowAssign.valid (a : WorkflowAssign) : Bool :=
  a.stage ∈ stages a.workflowId && 1 ≤ a.reason.length && a.reason.length ≤ 4096

def WorkflowAssign.ofJson (v : Json) : Option WorkflowAssign := do
  let fields ← closedRecord ["reason", "stage", "workflow_id"] v
  let workflowId ← required fields "workflow_id" (Json.asName WorkflowId.name workflowIds)
  let stage ← defaulted fields "stage" .backlog (Json.asName Stage.name allStages)
  let reason ← required fields "reason" Json.asStr
  ensure WorkflowAssign.valid ⟨workflowId, stage, reason⟩

def WorkflowAssign.toJson (a : WorkflowAssign) : Json :=
  .obj [("reason", .str a.reason), ("stage", .str a.stage.name),
    ("workflow_id", .str a.workflowId.name)]

structure WorkflowTransition where
  stage : String
  reason : String
  deriving DecidableEq

def WorkflowTransition.valid (t : WorkflowTransition) : Bool :=
  1 ≤ t.stage.length && t.stage.length ≤ 64 && t.reason.length ≤ 4096

def WorkflowTransition.ofJson (v : Json) : Option WorkflowTransition := do
  let fields ← closedRecord ["reason", "stage"] v
  let stage ← required fields "stage" Json.asStr
  let reason ← defaulted fields "reason" "" Json.asStr
  ensure WorkflowTransition.valid ⟨stage, reason⟩

def WorkflowTransition.toJson (t : WorkflowTransition) : Json :=
  .obj [("reason", .str t.reason), ("stage", .str t.stage)]

structure ProgressSet where
  progress : Progress
  reason : String
  recordId : String
  evidence : List Evidence
  requirements : List RequirementVerdict
  deriving DecidableEq

def ProgressSet.valid (p : ProgressSet) : Bool :=
  1 ≤ p.reason.length && p.reason.length ≤ 8192 && !isBlank p.reason && isWorkObjectId p.recordId &&
    p.evidence.length ≤ 50 && p.requirements.length ≤ 100 &&
    uniqueReview p.evidence p.requirements []

def ProgressSet.ofJson (v : Json) : Option ProgressSet := do
  let fields ← closedRecord ["evidence", "progress", "reason", "record_id", "requirements"] v
  let progress ← required fields "progress" (Json.asName Progress.name progresses)
  let reason ← required fields "reason" Json.asStr
  let recordId ← required fields "record_id" Json.asStr
  let evidence ← defaulted fields "evidence" [] (Json.asList Evidence.ofJson)
  let requirements ← defaulted fields "requirements" [] (Json.asList RequirementVerdict.ofJson)
  ensure ProgressSet.valid ⟨progress, reason, recordId, evidence, requirements⟩

def ProgressSet.toJson (p : ProgressSet) : Json :=
  .obj [("evidence", .arr (p.evidence.map Evidence.toJson)), ("progress", .str p.progress.name),
    ("reason", .str p.reason), ("record_id", .str p.recordId),
    ("requirements", .arr (p.requirements.map RequirementVerdict.toJson))]

structure ProposalReject where
  decisionId : String
  reason : String
  deriving DecidableEq

def ProposalReject.valid (p : ProposalReject) : Bool :=
  isWorkObjectId p.decisionId && 1 ≤ p.reason.length && p.reason.length ≤ 8192 &&
    !isBlank p.reason

def ProposalReject.ofJson (v : Json) : Option ProposalReject := do
  let fields ← closedRecord ["decision_id", "reason"] v
  let decisionId ← required fields "decision_id" Json.asStr
  let reason ← required fields "reason" Json.asStr
  ensure ProposalReject.valid ⟨decisionId, reason⟩

def ProposalReject.toJson (p : ProposalReject) : Json :=
  .obj [("decision_id", .str p.decisionId), ("reason", .str p.reason)]

/-! ## Work content -/

structure CreateWork where
  id : String
  title : String
  description : String
  priority : Int
  artifactIds : List String
  externalLinkIds : List String
  deriving DecidableEq

def CreateWork.valid (c : CreateWork) : Bool :=
  isWorkObjectId c.id && 1 ≤ c.title.length && isPriority c.priority &&
    c.artifactIds.all isWorkObjectId && c.externalLinkIds.all isWorkObjectId

def CreateWork.ofJson (v : Json) : Option CreateWork := do
  let fields ← closedRecord ["artifact_ids", "description", "external_link_ids", "id",
    "priority", "title"] v
  let id ← required fields "id" Json.asStr
  let title ← required fields "title" Json.asStr
  let description ← defaulted fields "description" "" Json.asStr
  let priority ← defaulted fields "priority" 0 Json.asInt
  let artifactIds ← defaulted fields "artifact_ids" [] (Json.asList Json.asStr)
  let externalLinkIds ← defaulted fields "external_link_ids" [] (Json.asList Json.asStr)
  ensure CreateWork.valid ⟨id, title, description, priority, artifactIds, externalLinkIds⟩

def CreateWork.toJson (c : CreateWork) : Json :=
  .obj [("artifact_ids", strings c.artifactIds), ("description", .str c.description),
    ("external_link_ids", strings c.externalLinkIds), ("id", .str c.id),
    ("priority", .int c.priority), ("title", .str c.title)]

/-- A member that may be left out but is not null. -/
def given {α : Type} (fields : List (String × Json)) (name : String) (decode : Json → Option α) :
    Option (Option α) :=
  defaulted fields name none fun v => (decode v).map some

/-- The member of a dump that leaves out what was not given. -/
def dumped {α : Type} (name : String) (encode : α → Json) (value : Option α) :
    List (String × Json) :=
  (value.map fun a => (name, encode a)).toList

structure ContentChanges where
  title : Option String
  description : Option String
  priority : Option Int
  artifactIds : Option (List String)
  externalLinkIds : Option (List String)
  deriving DecidableEq

def ContentChanges.valid (c : ContentChanges) : Bool :=
  c ≠ ⟨none, none, none, none, none⟩ && c.title.all (1 ≤ ·.length) && c.priority.all isPriority &&
    c.artifactIds.all (·.all isWorkObjectId) && c.externalLinkIds.all (·.all isWorkObjectId)

def ContentChanges.ofJson (v : Json) : Option ContentChanges := do
  let fields ← closedRecord ["artifact_ids", "description", "external_link_ids", "priority",
    "title"] v
  let title ← given fields "title" Json.asStr
  let description ← given fields "description" Json.asStr
  let priority ← given fields "priority" Json.asInt
  let artifactIds ← given fields "artifact_ids" (Json.asList Json.asStr)
  let externalLinkIds ← given fields "external_link_ids" (Json.asList Json.asStr)
  ensure ContentChanges.valid ⟨title, description, priority, artifactIds, externalLinkIds⟩

def ContentChanges.toJson (c : ContentChanges) : Json :=
  .obj (dumped "artifact_ids" strings c.artifactIds ++
    (dumped "description" Json.str c.description ++
      (dumped "external_link_ids" strings c.externalLinkIds ++
        (dumped "priority" Json.int c.priority ++ dumped "title" Json.str c.title))))

inductive WorkStatus
  | draft | review | accepted | archived
  deriving DecidableEq

def WorkStatus.name : WorkStatus → String
  | .draft => "draft"
  | .review => "review"
  | .accepted => "accepted"
  | .archived => "archived"

def workStatuses : List WorkStatus := [.draft, .review, .accepted, .archived]

def statusOfJson (v : Json) : Option WorkStatus := do
  let fields ← closedRecord ["status"] v
  required fields "status" (Json.asName WorkStatus.name workStatuses)

structure AcceptProposal where
  decisionId : String
  decisionTitle : String
  deriving DecidableEq

def AcceptProposal.valid (a : AcceptProposal) : Bool :=
  isWorkObjectId a.decisionId && 1 ≤ a.decisionTitle.length

def AcceptProposal.ofJson (v : Json) : Option AcceptProposal := do
  let fields ← closedRecord ["decision_id", "decision_title"] v
  let decisionId ← required fields "decision_id" Json.asStr
  let decisionTitle ← required fields "decision_title" Json.asStr
  ensure AcceptProposal.valid ⟨decisionId, decisionTitle⟩

def AcceptProposal.toJson (a : AcceptProposal) : Json :=
  .obj [("decision_id", .str a.decisionId), ("decision_title", .str a.decisionTitle)]

structure Conversion where
  issueId : String
  decisionId : String
  deriving DecidableEq

def Conversion.valid (c : Conversion) : Bool :=
  isWorkObjectId c.issueId && isWorkObjectId c.decisionId

def Conversion.ofJson (v : Json) : Option Conversion := do
  let fields ← closedRecord ["decision_id", "issue_id"] v
  let issueId ← required fields "issue_id" Json.asStr
  let decisionId ← required fields "decision_id" Json.asStr
  ensure Conversion.valid ⟨issueId, decisionId⟩

def Conversion.toJson (c : Conversion) : Json :=
  .obj [("decision_id", .str c.decisionId), ("issue_id", .str c.issueId)]

/-- The previous Arena may be left out, be null, or be a reference. -/
structure ParentChange where
  previousParent : Option WorkReference
  parent : Option WorkReference
  previousArena : Option (Option ArenaReference)
  deriving DecidableEq

def ParentChange.ofJson (v : Json) : Option ParentChange := do
  let fields ← closedRecord ["parent", "previous_arena", "previous_parent"] v
  let previousParent ← required fields "previous_parent" (Json.asNullable WorkReference.ofJson)
  let parent ← required fields "parent" (Json.asNullable WorkReference.ofJson)
  let previousArena ← given fields "previous_arena" (Json.asNullable ArenaReference.ofJson)
  return ⟨previousParent, parent, previousArena⟩

def ParentChange.toJson (c : ParentChange) : Json :=
  .obj (("parent", Json.ofNullable WorkReference.toJson c.parent) ::
    (dumped "previous_arena" (Json.ofNullable ArenaReference.toJson) c.previousArena ++
      [("previous_parent", Json.ofNullable WorkReference.toJson c.previousParent)]))

def targetOfJson (v : Json) : Option WorkReference := do
  let fields ← closedRecord ["target"] v
  required fields "target" WorkReference.ofJson

def emptyOfJson (v : Json) : Option Unit := do
  let _ ← closedRecord [] v
  return ()

/-! ## Sessions -/

def isAlnum (c : Char) : Bool := isDigit c || ('a' ≤ c && c ≤ 'z') || ('A' ≤ c && c ≤ 'Z')

/-- A first character of one class, and at most `most` characters of another after it. -/
def matchesHead (first later : Char → Bool) (most : Nat) (s : String) : Bool :=
  match s.toList with
  | [] => false
  | c :: cs => first c && cs.all later && cs.length ≤ most

def isOpaque (s : String) : Bool :=
  matchesHead isAlnum (fun c => isAlnum c || c ∈ ['.', '_', '~', '-']) 255 s

def isApplication (s : String) : Bool :=
  matchesHead (fun c => 'a' ≤ c && c ≤ 'z') (fun c => isLowerAlnum c || c = '-') 63 s

def isAuthorityId (s : String) : Bool :=
  matchesHead isAlnum (fun c => isAlnum c || c ∈ ['.', '_', '~', ':', '/', '-']) 511 s

structure SessionIdentity where
  application : String
  sourceInstanceId : String
  externalSessionId : String
  deriving DecidableEq

def SessionIdentity.valid (i : SessionIdentity) : Bool :=
  isApplication i.application && isOpaque i.sourceInstanceId && isOpaque i.externalSessionId

def SessionIdentity.ofJson (v : Json) : Option SessionIdentity := do
  let fields ← closedRecord ["application", "external_session_id", "source_instance_id"] v
  let application ← required fields "application" Json.asStr
  let sourceInstanceId ← required fields "source_instance_id" Json.asStr
  let externalSessionId ← required fields "external_session_id" Json.asStr
  ensure SessionIdentity.valid ⟨application, sourceInstanceId, externalSessionId⟩

def SessionIdentity.toJson (i : SessionIdentity) : Json :=
  .obj [("application", .str i.application), ("external_session_id", .str i.externalSessionId),
    ("source_instance_id", .str i.sourceInstanceId)]

/-- The pattern `UTC`: a date, a time with at most six digits of a fraction, and no offset. -/
def isUtcText (text : List Char) : Bool :=
  let zones := ["Z".toList, "+00:00".toList]
  let rest := text.drop 19
  (text.take 19).map (fun c => if isDigit c then '0' else c) = "0000-00-00T00:00:00".toList &&
    if rest.head? = some '.' then
      let digits := rest.tail.takeWhile isDigit
      digits ≠ [] && digits.length ≤ 6 && rest.tail.dropWhile isDigit ∈ zones
    else rest ∈ zones

def observedTime (s : String) : Option Datetime :=
  if isUtcText s.toList then fromisoformat s else none

inductive SessionRelation
  | delegatedTo | forkedFrom | usesRuntime
  deriving DecidableEq

def SessionRelation.name : SessionRelation → String
  | .delegatedTo => "delegated_to"
  | .forkedFrom => "forked_from"
  | .usesRuntime => "uses_runtime"

def sessionRelations : List SessionRelation := [.delegatedTo, .forkedFrom, .usesRuntime]

inductive SessionBasis
  | declared | sourceObserved | inspected | declaredScope
  deriving DecidableEq

def SessionBasis.name : SessionBasis → String
  | .declared => "declared"
  | .sourceObserved => "source_observed"
  | .inspected => "inspected"
  | .declaredScope => "declared_scope"

structure LinkWitness where
  sourceInstanceId : String
  eventId : String
  attemptId : String
  relation : SessionRelation
  origin : SessionIdentity
  target : SessionIdentity
  observedAt : String
  basis : SessionBasis
  deriving DecidableEq

def LinkWitness.valid (l : LinkWitness) : Bool :=
  isOpaque l.sourceInstanceId && isOpaque l.eventId && isOpaque l.attemptId &&
    l.origin ≠ l.target && (observedTime l.observedAt).isSome

def LinkWitness.ofJson (v : Json) : Option LinkWitness := do
  let fields ← closedRecord ["attempt_id", "basis", "event_id", "observed_at", "origin",
    "relation", "source_instance_id", "target"] v
  let sourceInstanceId ← required fields "source_instance_id" Json.asStr
  let eventId ← required fields "event_id" Json.asStr
  let attemptId ← required fields "attempt_id" Json.asStr
  let relation ← required fields "relation" (Json.asName SessionRelation.name sessionRelations)
  let origin ← required fields "origin" SessionIdentity.ofJson
  let target ← required fields "target" SessionIdentity.ofJson
  let observedAt ← required fields "observed_at" Json.asStr
  let basis ← required fields "basis" (Json.asName SessionBasis.name [.declared, .sourceObserved])
  ensure LinkWitness.valid
    ⟨sourceInstanceId, eventId, attemptId, relation, origin, target, observedAt, basis⟩

def LinkWitness.toJson (l : LinkWitness) : Json :=
  .obj [("attempt_id", .str l.attemptId), ("basis", .str l.basis.name),
    ("event_id", .str l.eventId), ("observed_at", .str l.observedAt), ("origin", l.origin.toJson),
    ("relation", .str l.relation.name), ("source_instance_id", .str l.sourceInstanceId),
    ("target", l.target.toJson)]

structure SessionAttach where
  session : SessionIdentity
  observedAt : String
  basis : SessionBasis
  link : Option LinkWitness
  deriving DecidableEq

def SessionAttach.valid (a : SessionAttach) : Bool :=
  (observedTime a.observedAt).isSome &&
    a.link.all fun l => a.session = l.origin || a.session = l.target

def attachBases : List SessionBasis := [.inspected, .declaredScope, .sourceObserved]

def SessionAttach.ofJson (v : Json) : Option SessionAttach := do
  let fields ← closedRecord ["basis", "link", "observed_at", "session"] v
  let session ← required fields "session" SessionIdentity.ofJson
  let observedAt ← required fields "observed_at" Json.asStr
  let basis ← required fields "basis" (Json.asName SessionBasis.name attachBases)
  let link ← defaulted fields "link" none (Json.asNullable LinkWitness.ofJson)
  ensure SessionAttach.valid ⟨session, observedAt, basis, link⟩

def SessionAttach.toJson (a : SessionAttach) : Json :=
  .obj [("basis", .str a.basis.name), ("link", Json.ofNullable LinkWitness.toJson a.link),
    ("observed_at", .str a.observedAt), ("session", a.session.toJson)]

inductive SessionState
  | unreviewed | open | done
  deriving DecidableEq

def SessionState.name : SessionState → String
  | .unreviewed => "unreviewed"
  | .open => "open"
  | .done => "done"

def sessionStateOfJson (v : Json) : Option SessionState := do
  let fields ← closedRecord ["state"] v
  required fields "state" (Json.asName SessionState.name [.open, .done])

/-! ## Arenas -/

structure CreateArena where
  id : String
  title : String
  description : String
  deriving DecidableEq

def CreateArena.valid (c : CreateArena) : Bool :=
  isWorkObjectId c.id && 1 ≤ c.title.length && c.title.length ≤ 4096 &&
    c.description.length ≤ 32768

def CreateArena.ofJson (v : Json) : Option CreateArena := do
  let fields ← closedRecord ["description", "id", "title"] v
  let id ← required fields "id" Json.asStr
  let title ← required fields "title" Json.asStr
  let description ← defaulted fields "description" "" Json.asStr
  ensure CreateArena.valid ⟨id, title, description⟩

def CreateArena.toJson (c : CreateArena) : Json :=
  .obj [("description", .str c.description), ("id", .str c.id), ("title", .str c.title)]

structure ArenaChanges where
  title : Option String
  description : Option String
  deriving DecidableEq

def ArenaChanges.valid (c : ArenaChanges) : Bool :=
  c ≠ ⟨none, none⟩ && c.title.all (fun s => 1 ≤ s.length && s.length ≤ 4096) &&
    c.description.all (·.length ≤ 32768)

def ArenaChanges.ofJson (v : Json) : Option ArenaChanges := do
  let fields ← closedRecord ["description", "title"] v
  let title ← given fields "title" Json.asStr
  let description ← given fields "description" Json.asStr
  ensure ArenaChanges.valid ⟨title, description⟩

def ArenaChanges.toJson (c : ArenaChanges) : Json :=
  .obj (dumped "description" Json.str c.description ++ dumped "title" Json.str c.title)

structure Membership where
  previousArena : Option ArenaReference
  arena : Option ArenaReference
  deriving DecidableEq

def Membership.ofJson (v : Json) : Option Membership := do
  let fields ← closedRecord ["arena", "previous_arena"] v
  let previousArena ← required fields "previous_arena" (Json.asNullable ArenaReference.ofJson)
  let arena ← required fields "arena" (Json.asNullable ArenaReference.ofJson)
  return ⟨previousArena, arena⟩

def Membership.toJson (m : Membership) : Json :=
  .obj [("arena", Json.ofNullable ArenaReference.toJson m.arena),
    ("previous_arena", Json.ofNullable ArenaReference.toJson m.previousArena)]

end DevGraph.Work
