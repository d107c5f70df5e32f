import DevGraph.Lib.Except
import DevGraph.Work.Vocabulary

/-!
# Holder sessions

The retained outcomes of finite sessions: challenges, the credentials obtained before the review
deadline, and marks of the reviews that expired without one. Native verification and issuance, the
lookup of the parent grant and the checks of the policy are outcomes that a call is given.
-/

namespace DevGraph.Work

open Lib

/-- The permissions are kept as their canonical text. -/
structure Challenge where
  challengeId : String
  requestId : String
  nonce : String
  issuer : String
  keyId : String
  service : String
  audience : String
  origin : String
  parentGrantId : String
  parentGrantDigest : String
  parentRevision : Nat
  holderPublicKey : String
  installationId : String
  sessionInstallationId : String
  sessionPublicKey : String
  permissions : String
  issuedAt : Int
  reviewDeadline : Int
  expiresAt : Int
  deriving DecidableEq

/-- A signed parent grant; one that is not dated has no last second. -/
structure ParentGrant where
  schema : String
  grantId : String
  revision : Nat
  holderPublicKey : String
  permissions : String
  maxCredentialLifetimeSeconds : Int
  notAfter : Option Int
  signature : String
  deriving DecidableEq

structure Authorization where
  challenge : Challenge
  parentGrant : ParentGrant
  holderSignature : String
  sessionSignature : String
  deriving DecidableEq

structure StatusProof where
  requestId : String
  nonce : String
  issuedAt : Int
  expiresAt : Int
  signature : String

structure PrepareRequest where
  requestId : String
  parentGrant : ParentGrant
  installationId : String
  sessionInstallationId : String
  sessionPublicKey : String
  origin : String
  audience : String
  permissions : Option String
  requestedTtlSeconds : Int

structure HolderSessionPolicy where
  enabled : Bool
  allowedOrigins : List String
  audience : String
  maxTtlSeconds : Int

structure HolderSessionHost where
  issuer : String
  keyId : String
  service : String
  policy : HolderSessionPolicy

abbrev SessionKey := String × String

structure SessionRow where
  requestDigest : String
  policyDigest : String
  challenge : Challenge
  authorizationDigest : Option String
  credential : Option String

structure StatusReplay where
  challengeId : String
  nonce : String
  expires : Int

/-- The three tables; the first two are indexed by the service and the request. -/
structure SessionDb where
  sessions : AList fun _ : SessionKey => SessionRow
  expiredReviews : AList fun _ : SessionKey => String
  statusReplay : List StatusReplay

def SessionDb.empty : SessionDb := ⟨∅, ∅, []⟩

def SessionDb.retain (db : SessionDb) (key : SessionKey) (row : SessionRow) : SessionDb :=
  { db with sessions := db.sessions.insert key row }

def SessionDb.expire (db : SessionDb) (key : SessionKey) (challengeId : String) : SessionDb :=
  { db with expiredReviews := db.expiredReviews.insert key challengeId }

inductive HolderSessionState
  | pending | issued | expired | revoked
  deriving DecidableEq

structure SessionResult where
  requestId : String
  challengeId : String
  state : HolderSessionState
  credential : Option String
  expiresAt : Int

def sessionResult (challenge : Challenge) (state : HolderSessionState)
    (credential : Option String) :
    SessionResult where
  requestId := challenge.requestId
  challengeId := challenge.challengeId
  state := state
  credential := if state = .issued then credential else none
  expiresAt := challenge.expiresAt

def unauthenticated (message : String) : Error := ⟨.unauthenticated, message⟩

/-- The errors of malformed input become one safe error. -/
def sealErrors {α : Type} (message : String) (x : Except Error α) : Except Error α :=
  x.mapError fun e =>
    if e.isValueError || e.cls ∈ [ErrorClass.keyError, .typeError, .overflowError]
    then unauthenticated message else e

structure Checksums where
  request : PrepareRequest → String
  policy : HolderSessionPolicy → String
  parent : ParentGrant → String
  authorization : Authorization → String

/-- What a call meets outside its tables: each reading of the clock, each answer of the policy
check and each lookup of the current parent may differ from the one before. -/
structure Surroundings where
  clock : Nat → Int
  policyCheck : Nat → Bool
  snapshot : Except Error Unit
  parent : Nat → Except Error ParentGrant

structure PrepareOutcomes where
  selected : Except Error String
  challengeId : String
  nonce : String
  reviewed : Challenge → Except Error Unit

structure ExchangeOutcomes where
  verified : Except Error Unit
  issued : Int → Except Error String

structure StatusOutcomes where
  expectedContext : Challenge → Bool
  verified : Challenge → Int → Except Error Unit

namespace HolderSessionHost

variable (checksum : Checksums) (host : HolderSessionHost)

def checkEnabled (around : Surroundings) (n : Nat) : Except Error Unit := do
  raiseIf (host.policy.enabled = false) (unauthenticated "holder_sessions_not_enabled")
  raiseIf (around.policyCheck n = false) (unauthenticated "holder_session_policy_changed")

def checkContext (around : Surroundings) (n : Nat) (challenge : Challenge) : Except Error Unit := do
  checkEnabled host around n
  raiseIf (challenge.origin ∉ host.policy.allowedOrigins)
    (unauthenticated "holder_session_context_denied")

def sessionRecord (around : Surroundings) (n : Nat) (db : SessionDb) (requestId : String) :
    Except Error SessionRow := do
  checkEnabled host around n
  match db.sessions.lookup (host.service, requestId) with
  | none => throw (unauthenticated "holder_session_unavailable")
  | some row => do
    raiseIf (row.policyDigest ≠ checksum.policy host.policy)
      (unauthenticated "holder_session_unavailable")
    return row

/-- Whether the review of a request without a credential is over; once it is, a mark stays even
if the clock goes back. -/
def reviewExpired (db : SessionDb) (challenge : Challenge) (row : SessionRow) (current : Int) :
    Except Error (Bool × SessionDb) :=
  let key := (host.service, challenge.requestId)
  match db.expiredReviews.lookup key with
  | some challengeId => do
    raiseIf (challengeId ≠ challenge.challengeId ∨ row.credential ≠ none)
      (unauthenticated "holder_session_review_changed")
    return (true, db)
  | none =>
    if row.credential ≠ none ∨ current < challenge.reviewDeadline then pure (false, db)
    else pure (true, db.expire key challenge.challengeId)

/-! ## Preparing -/

def challengeEnd (current : Int) (request : PrepareRequest) : Int :=
  let last := min (min (current + request.requestedTtlSeconds)
    (current + request.parentGrant.maxCredentialLifetimeSeconds))
    (current + host.policy.maxTtlSeconds)
  request.parentGrant.notAfter.elim last (min last)

def compilePrepare (outcomes : PrepareOutcomes) (current : Int) (request : PrepareRequest) :
    Except Error Challenge := do
  raiseIf (host.policy.enabled = false) (unauthenticated "holder_sessions_not_enabled")
  sealErrors "invalid_holder_session_request" do
    raiseIf (request.origin ∉ host.policy.allowedOrigins ∨
      request.audience ≠ host.policy.audience) (unauthenticated "holder_session_context_denied")
    raiseIf (request.parentGrant.schema ≠ "secs.holder-grant.v2")
      (unauthenticated "holder_session_parent_unsupported")
    let selected ← outcomes.selected
    raiseIf (¬ (0 < request.parentGrant.maxCredentialLifetimeSeconds ∧
      request.parentGrant.maxCredentialLifetimeSeconds ≤ maxSafeInteger ∧ 0 ≤ current ∧
      current ≤ maxSafeInteger)) (Error.mk .valueError "invalid lifetime")
    let challenge : Challenge := {
      challengeId := outcomes.challengeId
      requestId := request.requestId
      nonce := outcomes.nonce
      issuer := host.issuer
      keyId := host.keyId
      service := host.service
      audience := host.policy.audience
      origin := request.origin
      parentGrantId := request.parentGrant.grantId
      parentGrantDigest := checksum.parent request.parentGrant
      parentRevision := request.parentGrant.revision
      holderPublicKey := request.parentGrant.holderPublicKey
      installationId := request.installationId
      sessionInstallationId := request.sessionInstallationId
      sessionPublicKey := request.sessionPublicKey
      permissions := selected
      issuedAt := current
      reviewDeadline := min (current + 120) (challengeEnd host current request)
      expiresAt := challengeEnd host current request }
    outcomes.reviewed challenge
    return challenge

def prepare (around : Surroundings) (outcomes : PrepareOutcomes) (request : PrepareRequest)
    (db : SessionDb) : Except Error (Challenge × SessionDb) := do
  checkEnabled host around 0
  let challenge ← compilePrepare checksum host outcomes (around.clock 0) request
  checkEnabled host around 1
  let key := (host.service, challenge.requestId)
  match db.sessions.lookup key with
  | some row => do
    raiseIf (row.requestDigest ≠ checksum.request request ∨
      row.policyDigest ≠ checksum.policy host.policy)
      (unauthenticated "holder_session_request_conflict")
    return (row.challenge, db)
  | none => do
    raiseIf (10000 ≤ db.sessions.keys.length) (unauthenticated "try_later")
    return (challenge, db.retain key
      ⟨checksum.request request, checksum.policy host.policy, challenge, none, none⟩)

/-! ## Exchanging -/

def notYetValid : Error := unauthenticated "holder_session_not_yet_valid"

/-- The credential of a row that has none is set, unless the review is marked as expired. -/
def retainCredential (db : SessionDb) (key : SessionKey) (digest credential : String) :
    Except Error SessionDb :=
  match db.sessions.lookup key with
  | none => pure db
  | some row =>
    if row.credential ≠ none then pure db
    else do
      raiseIf (db.expiredReviews.lookup key ≠ none)
        (Error.mk .databaseError "holder_session_review_expired")
      return db.retain key
        { row with authorizationDigest := some digest, credential := some credential }

def exchangeAgain (around : Surroundings) (challenge : Challenge) (credential : String)
    (db : SessionDb) : Except Error (SessionResult × SessionDb) := do
  raiseIf (around.clock 1 < challenge.issuedAt) notYetValid
  if challenge.expiresAt ≤ around.clock 1 then
    return (sessionResult challenge .expired none, db)
  else do
    let _ ← around.parent 1
    return (sessionResult challenge .issued (some credential), db)

/-- The clock is read once more, after the credential is made and before it is retained. -/
def exchangeRetain (around : Surroundings) (authorization : Authorization) (row : SessionRow)
    (credential : String) (db : SessionDb) : Except Error (SessionResult × SessionDb) := do
  let challenge := authorization.challenge
  let _ ← around.parent 1
  checkEnabled host around 4
  raiseIf (around.clock 2 < challenge.issuedAt) notYetValid
  let (expired, db) ← reviewExpired host db challenge row (around.clock 2)
  if expired then return (sessionResult challenge .expired none, db)
  else do
    let db ← retainCredential db (host.service, challenge.requestId)
      (checksum.authorization authorization) credential
    return (sessionResult challenge .issued (some credential), db)

def exchangeIssue (around : Surroundings) (outcomes : ExchangeOutcomes)
    (authorization : Authorization) (row : SessionRow) (db : SessionDb) :
    Except Error (SessionResult × SessionDb) := do
  let challenge := authorization.challenge
  let (expired, db) ← reviewExpired host db challenge row (around.clock 0)
  if expired then return (sessionResult challenge .expired none, db)
  else do
    let credential ← outcomes.issued (around.clock 0)
    checkEnabled host around 3
    raiseIf (around.clock 1 < challenge.issuedAt) notYetValid
    let (expired, db) ← reviewExpired host db challenge row (around.clock 1)
    if expired then return (sessionResult challenge .expired none, db)
    else exchangeRetain checksum host around authorization row credential db

/-- The part of an exchange under the transaction. -/
def exchangeLocked (around : Surroundings) (outcomes : ExchangeOutcomes)
    (authorization : Authorization) (db : SessionDb) :
    Except Error (SessionResult × SessionDb) := do
  let challenge := authorization.challenge
  raiseIf (around.clock 0 < challenge.issuedAt) notYetValid
  around.snapshot
  let row ← sessionRecord checksum host around 2 db challenge.requestId
  raiseIf (row.challenge ≠ challenge) (unauthenticated "holder_session_review_changed")
  raiseIf (row.authorizationDigest.any (· ≠ checksum.authorization authorization) = true)
    (unauthenticated "holder_session_exchange_conflict")
  if challenge.expiresAt ≤ around.clock 0 then do
    let (_, db) ← reviewExpired host db challenge row (around.clock 0)
    return (sessionResult challenge .expired none, db)
  else do
    let parent ← around.parent 0
    raiseIf (checksum.parent parent ≠ checksum.parent authorization.parentGrant)
      (unauthenticated "holder_session_parent_changed")
    match row.credential with
    | some credential => exchangeAgain around challenge credential db
    | none => exchangeIssue checksum host around outcomes authorization row db

def exchange (around : Surroundings) (outcomes : ExchangeOutcomes) (authorization : Authorization)
    (db : SessionDb) : Except Error (SessionResult × SessionDb) := do
  checkEnabled host around 0
  sealErrors "invalid_holder_session_exchange" do
    checkContext host around 1 authorization.challenge
    outcomes.verified
    exchangeLocked checksum host around outcomes authorization db

def statusTime (around : Surroundings) (challenge : Challenge) (proof : StatusProof) (n : Nat) :
    Except Error Unit :=
  raiseIf (¬ (challenge.issuedAt ≤ around.clock n ∧ around.clock n < challenge.expiresAt ∧
    proof.issuedAt ≤ around.clock n ∧ around.clock n < proof.expiresAt))
    (unauthenticated "holder_session_status_expired")

/-- The state that a proof may learn; a parent that is not current revokes. -/
def statusState (around : Surroundings) (challenge : Challenge) (proof : StatusProof)
    (row : SessionRow) (db : SessionDb) : Except Error (HolderSessionState × SessionDb) :=
  match around.parent 0 with
  | .error e => if e.cls = .unauthenticated then pure (.revoked, db) else throw e
  | .ok _ => do
    statusTime around challenge proof 2
    let (expired, db) ← reviewExpired host db challenge row (around.clock 2)
    return (if expired then .expired else if row.credential ≠ none then .issued else .pending, db)

def status (around : Surroundings) (outcomes : StatusOutcomes) (proof : StatusProof)
    (db : SessionDb) : Except Error (SessionResult × SessionDb) := do
  checkEnabled host around 0
  sealErrors "invalid_holder_session_status" do
    let row ← sessionRecord checksum host around 1 db proof.requestId
    let challenge := row.challenge
    checkContext host around 2 challenge
    raiseIf (outcomes.expectedContext challenge = false)
      (unauthenticated "holder_session_context_denied")
    outcomes.verified challenge (around.clock 0)
    statusTime around challenge proof 1
    let replay := db.statusReplay.filter fun used => around.clock 1 < used.expires
    raiseIf (10000 ≤ replay.length ∨ ∃ used ∈ replay,
      used.challengeId = challenge.challengeId ∧ used.nonce = proof.nonce)
      (unauthenticated "holder_session_status_replay_or_capacity")
    around.snapshot
    let (state, db) ← statusState host around challenge proof row { db with statusReplay := replay }
    let db := { db with statusReplay :=
      ⟨challenge.challengeId, proof.nonce, proof.expiresAt⟩ :: db.statusReplay }
    checkEnabled host around 3
    statusTime around challenge proof 3
    return (sessionResult challenge state row.credential, db)

end HolderSessionHost

/-- A call by a host of some service, with what it meets. -/
inductive SessionCall
  | prepare (host : HolderSessionHost) (around : Surroundings) (outcomes : PrepareOutcomes)
    (request : PrepareRequest)
  | exchange (host : HolderSessionHost) (around : Surroundings) (outcomes : ExchangeOutcomes)
    (authorization : Authorization)
  | status (host : HolderSessionHost) (around : Surroundings) (outcomes : StatusOutcomes)
    (proof : StatusProof)

inductive SessionReturn
  | challenge (challenge : Challenge)
  | result (key : SessionKey) (result : SessionResult)

/-- What a call returns and the tables that it commits; a call that raises commits nothing. -/
def SessionCall.execute (checksum : Checksums) (db : SessionDb) :
    SessionCall → Except Error (SessionReturn × SessionDb)
  | .prepare host around outcomes request => do
    let (challenge, db) ← host.prepare checksum around outcomes request db
    return (.challenge challenge, db)
  | .exchange host around outcomes authorization => do
    let (result, db) ← host.exchange checksum around outcomes authorization db
    return (.result (host.service, authorization.challenge.requestId) result, db)
  | .status host around outcomes proof => do
    let (result, db) ← host.status checksum around outcomes proof db
    return (.result (host.service, proof.requestId) result, db)

def sessionStep (checksum : Checksums) (db : SessionDb) (call : SessionCall) : SessionDb :=
  match call.execute checksum db with
  | .ok (_, db) => db
  | .error _ => db

def sessionsAfter (checksum : Checksums) (calls : List SessionCall) : SessionDb :=
  calls.foldl (sessionStep checksum) SessionDb.empty

end DevGraph.Work
