import DevGraph.Lib.Framing
import DevGraph.Work.MemoryStorage

/-!
# The outbox of named Work mutations

A mutation is recorded together with a receipt of it, which carries a digest of who asked and
under which retry key. A second call under the same key gets the receipt of the first one. The
digest and the redaction of summaries are functions that the outbox is given.
-/

namespace DevGraph.Work

open Lib

inductive OutboxStatus
  | pending | dispatchedDryRun | retryScheduled | failed
  deriving DecidableEq

def OutboxStatus.name : OutboxStatus → String
  | .pending => "pending"
  | .dispatchedDryRun => "dispatched_dry_run"
  | .retryScheduled => "retry_scheduled"
  | .failed => "failed"

def outboxStatuses : List OutboxStatus := [.pending, .dispatchedDryRun, .retryScheduled, .failed]

def OutboxStatus.ofName (s : String) : Except Error OutboxStatus :=
  match outboxStatuses.find? fun status => status.name = s with
  | some status => pure status
  | none => throw (Error.mk .valueError (s ++ " is not a valid OutboxStatus"))

structure EventReceipt where
  id : String
  operation : String
  subjectLabel : String
  subjectId : String
  actorId : String
  sessionId : String
  correlationId : String
  idempotencyKeyDigest : Option String
  idempotencyClaimDigest : Option String
  requestDigestSha256 : Option String
  idempotencyKeyDigestSha256 : Option String
  status : OutboxStatus
  attemptCount : Int
  nextAttemptAt : Option Datetime
  createdAt : Datetime
  updatedAt : Datetime
  redactedSummary : String
  lastErrorSummary : String
  deriving DecidableEq

def exactIssueCreateOperation : String := "devgraph.issue.create.v1"

def EventReceipt.postInit (r : EventReceipt) : Except Error EventReceipt := do
  raiseIf (r.idempotencyClaimDigest.isNone = r.idempotencyKeyDigest.isNone)
    (Error.mk .valueError "receipt requires exactly one idempotency digest")
  raiseIf (r.operation = exactIssueCreateOperation ∧
      ¬ (r.requestDigestSha256.any (isLowerHex 64) ∧
        r.idempotencyKeyDigestSha256.any (isLowerHex 64)))
    (Error.mk .valueError "exact Issue-create receipt requires exact digests")
  return r

def EventReceipt.toNodeProperties (r : EventReceipt) : Props
  | .operation => some (.str r.operation)
  | .subjectLabel => some (.str r.subjectLabel)
  | .subjectId => some (.str r.subjectId)
  | .actorId => some (.str r.actorId)
  | .sessionId => some (.str r.sessionId)
  | .correlationId => some (.str r.correlationId)
  | .status => some (.str r.status.name)
  | .attemptCount => some (.int r.attemptCount)
  | .nextAttemptAt => r.nextAttemptAt.map fun t => .str (isoformat t)
  | .createdAt => some (.str (isoformat r.createdAt))
  | .updatedAt => some (.str (isoformat r.updatedAt))
  | .redactedSummary => some (.str r.redactedSummary)
  | .lastErrorSummary => some (.str r.lastErrorSummary)
  | .idempotencyClaimDigest => r.idempotencyClaimDigest.map .str
  | .idempotencyKeyDigest => r.idempotencyKeyDigest.map .str
  | .requestDigestSha256 => r.requestDigestSha256.map .str
  | .idempotencyKeyDigestSha256 => r.idempotencyKeyDigestSha256.map .str
  | _ => none

/-- The text that `str` makes of a value. -/
def Value.text : Value → String
  | .str s => s
  | .int n => String.ofList (printInt n)
  | .bool b => if b then "True" else "False"
  | .strs l => "[" ++ ", ".intercalate (l.map fun s => "'" ++ s ++ "'") ++ "]"

def requireText (props : Props) (p : Property) : Except Error String :=
  match props p with
  | some v => pure v.text
  | none => throw (Error.mk .keyError p.name)

def requireCount (props : Props) (p : Property) : Except Error Int :=
  match props p with
  | some (.int n) => pure n
  | some _ => throw (Error.mk .valueError "invalid literal for int()")
  | none => throw (Error.mk .keyError p.name)

def datetimeFromStorage (text : String) : Except Error Datetime :=
  match fromisoformat text with
  | some t => pure t
  | none => throw (Error.mk .valueError "Invalid isoformat string")

def optionalDatetime (props : Props) (p : Property) : Except Error (Option Datetime) :=
  match props p with
  | some v => some <$> datetimeFromStorage v.text
  | none => pure none

def EventReceipt.fromNodeProperties (id : String) (props : Props) : Except Error EventReceipt := do
  let operation ← requireText props .operation
  let subjectLabel ← requireText props .subjectLabel
  let subjectId ← requireText props .subjectId
  let actorId ← requireText props .actorId
  let sessionId ← requireText props .sessionId
  let correlationId ← requireText props .correlationId
  let status ← requireText props .status
  let status ← OutboxStatus.ofName status
  let attemptCount ← requireCount props .attemptCount
  let nextAttemptAt ← optionalDatetime props .nextAttemptAt
  let createdAt ← requireText props .createdAt
  let createdAt ← datetimeFromStorage createdAt
  let updatedAt ← requireText props .updatedAt
  let updatedAt ← datetimeFromStorage updatedAt
  EventReceipt.postInit
    { id, operation, subjectLabel, subjectId, actorId, sessionId, correlationId, status,
      attemptCount, nextAttemptAt, createdAt, updatedAt,
      idempotencyClaimDigest := (props .idempotencyClaimDigest).map Value.text
      idempotencyKeyDigest := (props .idempotencyKeyDigest).map Value.text
      requestDigestSha256 := (props .requestDigestSha256).map Value.text
      idempotencyKeyDigestSha256 := (props .idempotencyKeyDigestSha256).map Value.text
      redactedSummary := ((props .redactedSummary).map Value.text).getD "\x7b\x7d"
      lastErrorSummary := ((props .lastErrorSummary).map Value.text).getD "" }

/-- The identity that scopes a retry claim. -/
structure Principal where
  issuer : String
  audience : String
  actorId : String
  sessionId : String
  correlationId : String

def isAsciiAlnum (c : Char) : Bool :=
  ('A' ≤ c && c ≤ 'Z') || ('a' ≤ c && c ≤ 'z') || ('0' ≤ c && c ≤ '9')

/-- A letter or digit, and up to 255 of letters, digits and the signs `.`, `_`, `:`, `@`, `/`
and `-`. -/
def isAuthorityIdentifier (s : String) : Bool :=
  match s.toList with
  | [] => false
  | c :: cs =>
    isAsciiAlnum c && cs.all (fun d => isAsciiAlnum d || d ∈ ['.', '_', ':', '@', '/', '-']) &&
      cs.length ≤ 255

/-- The pattern `[A-Za-z0-9._~-]{16,128}`. -/
def isExactIdempotencyKey (s : String) : Bool :=
  s.toList.all (fun c => isAsciiAlnum c || c ∈ ['.', '_', '~', '-']) &&
    16 ≤ s.length && s.length ≤ 128

def utf8 (s : String) : List UInt8 := s.toUTF8.data.toList

def isControl (c : Char) : Bool := c.toNat < 32 || (127 ≤ c.toNat && c.toNat < 160)

def isSafeAudience (s : String) : Bool :=
  !isBlank s && (utf8 s).length ≤ 256 && !s.toList.any isControl

def idempotencyClaimDomain : List UInt8 := utf8 "devgraph.idempotency.claim.v1" ++ [0]

/-- The fields of a retry identity. -/
def Principal.values (principal : Principal) (key : String) : List String :=
  [principal.issuer, principal.audience, principal.actorId, key]

def canonicalIdempotencyClaimBytes (principal : Principal) (key : String) :
    Except Error (List UInt8) := do
  raiseIf (¬ (isAuthorityIdentifier principal.issuer ∧ isAuthorityIdentifier principal.actorId ∧
      isSafeAudience principal.audience))
      (Error.mk .valueError "invalid idempotency claim authority")
  raiseIf (¬ ∀ value ∈ principal.values key, (utf8 value).length < 4294967296)
    (Error.mk .overflowError "int too big to convert")
  return idempotencyClaimDomain ++ ((principal.values key).map utf8).flatMap frame

/-! ## Calls -/

section Outbox

variable (sha256 : List UInt8 → String) (redactEvent : String → String)

def scopeConflict (message : String) : Error := ⟨.idempotencyScopeConflict, message⟩

/-- A call of the outbox, with the identifier and the time that it would draw. -/
structure NamedWorkCall (α : Type) where
  principal : Principal
  operation : String
  subject : Key
  idempotencyKey : String
  requestDigest : String
  keyDigest : String
  summary : String
  mutation : StorageProgram α
  onResult : EventReceipt → Bool → Except Error Unit
  receiptId : String
  now : Datetime

variable {α : Type}

def digestIdempotencyClaim (principal : Principal) (key : String) : Except Error String :=
  sha256 <$> canonicalIdempotencyClaimBytes principal key

def operationNames (family : String) (ops : List String) (version : String) : List String :=
  ops.map fun op => "devgraph." ++ family ++ "." ++ op ++ "." ++ version

/-- The operation is a named one and the subject is of a kind that it may have. -/
def isNamedOperation (operation : String) (label : Label) : Bool :=
  (operation ∈ operationNames "work" (workOperations.map (·.name)) "v1" && label ∈ workKinds) ||
  (operation ∈ operationNames "work" ((allOperations.filter (· ≠ .status)).map (·.name)) "v2" &&
    operation ≠ "devgraph.work.session.state.v2" && label ∈ todoKinds) ||
  (operation = "devgraph.work.session.state.v2" && label = .sessionRef) ||
  (operation ∈ operationNames "arena"
      ([ArenaOperation.create, .patch, .archive, .memberSet].map (·.name)) "v1" &&
    label ∈ if operation = "devgraph.arena.member.set.v1" then [Label.initiative, .task]
      else [.arena])

def NamedWorkCall.receipt (c : NamedWorkCall α) (claimDigest : String) : EventReceipt where
  id := c.receiptId
  operation := c.operation
  subjectLabel := c.subject.1.name
  subjectId := c.subject.2
  actorId := c.principal.actorId
  sessionId := c.principal.sessionId
  correlationId := c.principal.correlationId
  idempotencyKeyDigest := none
  idempotencyClaimDigest := some claimDigest
  requestDigestSha256 := some c.requestDigest
  idempotencyKeyDigestSha256 := some c.keyDigest
  status := .pending
  attemptCount := 0
  nextAttemptAt := none
  createdAt := c.now
  updatedAt := c.now
  redactedSummary := redactEvent c.summary
  lastErrorSummary := ""

def NamedWorkCall.requireMatchingScope (c : NamedWorkCall α) (r : EventReceipt) :
    Except Error Unit :=
  raiseIf ((r.operation, r.subjectLabel, r.subjectId) ≠
        (c.operation, c.subject.1.name, c.subject.2) ∨
      r.requestDigestSha256 ≠ some c.requestDigest)
    (scopeConflict "idempotency key digest already exists for a different operation or subject")

/-- A retry gets the receipt that is there. -/
def NamedWorkCall.retry (c : NamedWorkCall α) (id : String) (node : Node) :
    Except Error (Option α × EventReceipt) := do
  let existing ← EventReceipt.fromNodeProperties id node.properties
  c.requireMatchingScope existing
  c.onResult existing true
  return (none, existing)

/-- An operation whose exceptions leave the block. -/
def calling {β : Type} (op : StorageCall) (next : op.Out → StorageProgram β) : StorageProgram β :=
  .call op fun
    | .ok a => next a
    | .error e => .done (.error e)

/-- The mutation, the link of its receipt and the report of both. -/
def NamedWorkCall.run (c : NamedWorkCall α) (r : EventReceipt) :
    StorageProgram (Option α × EventReceipt) :=
  c.mutation.bind fun
    | .error e => .done (.error e)
    | .ok a => calling (.linkNewEventReceipt c.subject r.id) fun _ =>
      .done (do
        c.onResult r false
        return (some a, r))

def NamedWorkCall.claim (c : NamedWorkCall α) (claimDigest : String) :
    StorageProgram (Option α × EventReceipt) :=
  match (c.receipt redactEvent claimDigest).postInit with
  | .error e => .done (.error e)
  | .ok r => calling (.claimEventReceipt r.id claimDigest r.toNodeProperties) fun claim =>
    if claim.created then c.run r else .done (c.retry claim.id claim.node)

def NamedWorkCall.body (c : NamedWorkCall α) (claimDigest : String) :
    StorageProgram (Option α × EventReceipt) :=
  calling (.findEventReceiptByDigest .idempotencyClaimDigest claimDigest) fun
    | some (id, node) => .done (c.retry id node)
    | none =>
      calling (.findEventReceiptByDigest .idempotencyKeyDigest (sha256 (utf8 c.idempotencyKey)))
        fun
        | some (id, node) => .done (do
          let _ ← EventReceipt.fromNodeProperties id node.properties
          throw (scopeConflict "legacy idempotency claim requires a new key"))
        | none => c.claim redactEvent claimDigest

def NamedWorkCall.recordMutationWithReceipt (c : NamedWorkCall α) :
    StorageProgram (Option α × EventReceipt) :=
  match digestIdempotencyClaim sha256 c.principal c.idempotencyKey with
  | .error e => .done (.error e)
  | .ok claimDigest => .block (c.body sha256 redactEvent claimDigest) .done

def NamedWorkCall.validate (c : NamedWorkCall α) : Except Error Unit := do
  raiseIf (isNamedOperation c.operation c.subject.1 = false)
    (scopeConflict "invalid named Work operation")
  raiseIf (isExactIdempotencyKey c.idempotencyKey = false) (scopeConflict "invalid idempotency key")
  raiseIf (isLowerHex 64 c.requestDigest = false) (scopeConflict "invalid request digest")
  raiseIf (sha256 (utf8 c.idempotencyKey) ≠ c.keyDigest)
    (scopeConflict "idempotency key digest mismatch")

def NamedWorkCall.recordNamedWorkV1WithReceipt (c : NamedWorkCall α) :
    StorageProgram (Option α × EventReceipt) :=
  match c.validate sha256 with
  | .error e => .done (.error e)
  | .ok _ => c.recordMutationWithReceipt sha256 redactEvent

end Outbox

end DevGraph.Work
