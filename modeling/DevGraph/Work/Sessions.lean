import DevGraph.Work.Repository

/-!
# Session references and their work state

Source-owned session references, the links witnessed between them, their attribution to
Work, and the disposition that is kept apart from the reference.
-/

namespace DevGraph.Work

open Lib

/-- The identifiers of the authority under which a request runs. -/
structure Authority where
  actorId : String
  sessionId : String
  correlationId : String

section Sessions

variable (sha256 : String → String)

structure SessionRef where
  identity : SessionIdentity
  actorId : String
  sessionId : String
  correlationId : String
  createdAt : Datetime

def SessionRef.postInit (ref : SessionRef) : Except Error SessionRef := do
  raiseIf ((isAuthorityId ref.actorId && isAuthorityId ref.sessionId &&
      isAuthorityId ref.correlationId) = false)
    (Error.mk .valueError "invalid_session_authority_identifier")
  return ref

def SessionRef.key (ref : SessionRef) : Key := (.sessionRef, ref.identity.refId sha256)

def SessionIdentity.refType (identity : SessionIdentity) : String :=
  if identity.application = "hermes" then "HermesSessionRef"
  else if identity.application = "codex" then "CodexSessionRef"
  else if identity.application = "claude-code" then "ClaudeSessionRef"
  else if identity.application = "grok" then "GrokSessionRef"
  else "SessionRef"

def SessionRef.toNodeProperties (ref : SessionRef) : Props
  | .kind => some (.str "SessionRef")
  | .schemaVersion => some (.int 1)
  | .application => some (.str ref.identity.application)
  | .sourceInstanceId => some (.str ref.identity.sourceInstanceId)
  | .externalSessionId => some (.str ref.identity.externalSessionId)
  | .refType => some (.str ref.identity.refType)
  | .actorId => some (.str ref.actorId)
  | .sessionId => some (.str ref.sessionId)
  | .correlationId => some (.str ref.correlationId)
  | .createdAt => some (.str (isoformat ref.createdAt))
  | _ => none

def sessionRefProperties : List Property :=
  [.schemaVersion, .application, .sourceInstanceId, .externalSessionId, .refType, .actorId,
    .sessionId, .correlationId, .createdAt]

def checkSessionRefShape (props : Props) : Except Error Unit := do
  raiseIf ((props .kind).isSome ∧ props .kind ≠ some (.str "SessionRef"))
    (Error.mk .valueError "session_identity_conflict")
  raiseIf ((∃ p ∈ properties, p ≠ .kind ∧ ((props p).isSome ↔ p ∉ sessionRefProperties)) ∨
      (intOf props .schemaVersion).isNone)
    (Error.mk .valueError "invalid_session_ref_shape")
  raiseIf (intOf props .schemaVersion ≠ some 1)
    (Error.mk .valueError "unsupported_session_ref_version")

/-- The identity that the properties of a reference carry. -/
def identityOf (props : Props) : Except Error SessionIdentity :=
  match strOf props .application, strOf props .sourceInstanceId,
    strOf props .externalSessionId with
  | some application, some sourceInstanceId, some externalSessionId => do
    let identity := SessionIdentity.mk application sourceInstanceId externalSessionId
    raiseIf (identity.valid = false) (Error.mk .valueError "invalid_session_identifier")
    return identity
  | _, _, _ => throw (Error.mk .valueError "invalid_session_identifier")

def SessionRef.fromNodeProperties (refId : String) (props : Props) :
    Except Error SessionRef := do
  checkSessionRefShape props
  let identity ← identityOf props
  raiseIf (refId ≠ identity.refId sha256 ∨ props .refType ≠ some (.str identity.refType))
    (Error.mk .valueError "session_identity_conflict")
  match strOf props .actorId, strOf props .sessionId, strOf props .correlationId,
    timestampOf props .createdAt with
  | some actorId, some sessionId, some correlationId, some createdAt =>
    SessionRef.postInit ⟨identity, actorId, sessionId, correlationId, createdAt⟩
  | _, _, _, _ => throw (Error.mk .valueError "invalid_session_authority_identifier")

def LinkWitness.key (l : LinkWitness) : Key := (.sessionLink, l.linkId sha256)

def observedText (text : String) : String := ((observedTime text).map isoformat).getD text

def LinkWitness.toNodeProperties (l : LinkWitness) : Props
  | .kind => some (.str "SessionLink")
  | .schemaVersion => some (.int 1)
  | .sourceInstanceId => some (.str l.sourceInstanceId)
  | .eventId => some (.str l.eventId)
  | .attemptId => some (.str l.attemptId)
  | .relation => some (.str l.relation.name)
  | .originId => some (.str (l.origin.refId sha256))
  | .targetId => some (.str (l.target.refId sha256))
  | .observedAt => some (.str (observedText l.observedAt))
  | .basis => some (.str l.basis.name)
  | _ => none

/-- Keeps a reference that is there as it was first imported. -/
def putSessionRef (ref : SessionRef) : Tx Unit := do
  match ← reading (getNode · (ref.key sha256)) with
  | some node => do
    let _ ← lift (SessionRef.fromNodeProperties sha256 (ref.key sha256).2 node.properties)
    return ()
  | none => do
    let _ ← createNode (ref.key sha256) ref.toNodeProperties
    return ()

def linkSessions (origin target : SessionRef) (l : LinkWitness) : Tx Unit := do
  raiseIf (l.origin ≠ origin.identity ∨ l.target ≠ target.identity)
    (Error.mk .valueError "session_link_endpoint_conflict")
  transaction do
    match ← reading (getNode · (l.key sha256)) with
    | some previous =>
      raiseIf (Props.merge (prop1 .kind (.str "SessionLink")) previous.properties ≠
          l.toNodeProperties sha256)
        (Error.mk .valueError "session_event_conflict")
    | none => do
      putSessionRef sha256 origin
      putSessionRef sha256 target
      let _ ← createNode (l.key sha256) (l.toNodeProperties sha256)
      createEdge ⟨l.key sha256, .sessionLinkOrigin, origin.key sha256, noProps⟩
      createEdge ⟨l.key sha256, .sessionLinkTarget, target.key sha256, noProps⟩

def attributionProps (version : Int) (basis : SessionBasis) (observedAt : String) : Props
  | .basis => some (.str basis.name)
  | .workVersion => some (.int version)
  | .observedAt => some (.str observedAt)
  | _ => none

/-- The checks on the arguments of an attribution. -/
def checkAttribution (work : Key) (version : Int) (observedAt : String) : Except Error Unit := do
  raiseIf (work.1 ∉ workKinds) (Error.mk .valueError "invalid_session_work_ref")
  validateWorkObjectId work.2
  validateVersion version
  raiseIf ((observedTime observedAt).isNone)
    (Error.mk .valueError "invalid_session_observation_time")

def checkAttributed (s : Store) (work : Key) (version : Int) : Except Error Unit := do
  match ← getNode s work with
  | none => throw (Error.mk .keyError "missing_session_work_subject")
  | some node =>
    raiseIf (node.properties .version ≠ some (.int version))
      (Error.mk .valueError "session_work_version_conflict")

def attachSession (ref : SessionRef) (work : Key) (version : Int) (basis : SessionBasis)
    (observedAt : String) : Tx Unit := do
  lift (checkAttribution work version observedAt)
  transaction do
    reading (checkAttributed · work version)
    putSessionRef sha256 ref
    let context ← reading (sessionRefContext · (ref.key sha256).2 100)
    if work ∈ context.workRefs then pure ()
    else do
      raiseIf (context.bounded = true) (Error.mk .valueError "session_attribution_capacity")
      createEdge ⟨work, .attributedToSession, ref.key sha256,
        attributionProps version basis observedAt⟩

structure SessionWorkState where
  id : String
  state : SessionState
  version : Int
  updatedAt : Option String
  updatedBy : Option String
  correlationId : Option String

def SessionWorkState.key (value : SessionWorkState) : Key := (.sessionWorkState, value.id)

def SessionWorkState.toNodeProperties (value : SessionWorkState) : Props
  | .state => some (.str value.state.name)
  | .version => some (.int value.version)
  | .updatedAt => value.updatedAt.map .str
  | .updatedBy => value.updatedBy.map .str
  | .correlationId => value.correlationId.map .str
  | _ => none

def sessionStateProperties : List Property :=
  [.state, .version, .updatedAt, .updatedBy, .correlationId]

def sessionStateOf (props : Props) : Option SessionState :=
  (strOf props .state).bind fun name =>
    [SessionState.open, .done].find? fun state => state.name = name

def sessionWorkState (refId : String) (props : Props) : Except Error SessionWorkState := do
  raiseIf (∃ p ∈ properties, (props p).isSome ∧ p ≠ .kind ∧ p ∉ sessionStateProperties)
    (Error.mk .typeError "unexpected keyword argument")
  let version := ((props .version).map fun _ => intOf props .version).getD (some 1)
  raiseIf (version.all isVersion = false ∨ version.isNone)
    (Error.mk .numericBoundError "invalid_version")
  match sessionStateOf props with
  | none => throw (Error.mk .valueError "invalid_session_work_state")
  | some state => do
    raiseIf (truthy (props .updatedAt) = false ∨ truthy (props .updatedBy) = false ∨
        truthy (props .correlationId) = false)
      (Error.mk .valueError "invalid_session_work_state")
    return ⟨refId, state, version.getD 1, strOf props .updatedAt, strOf props .updatedBy,
      strOf props .correlationId⟩

def readState (s : Store) (refId : String) : Except Error SessionWorkState := do
  match ← getNode s (.sessionWorkState, refId) with
  | none => pure ⟨refId, .unreviewed, 1, none, none, none⟩
  | some node => sessionWorkState refId node.properties

def nextSessionState (s : Store) (refId : String) (expectedVersion : Int) (state : SessionState)
    (authority : Authority) (now now' : Datetime) : Except Error SessionWorkState := do
  match ← getNode s (.sessionRef, refId) with
  | none => throw (Error.mk .missingWorkObject "Session reference not found.")
  | some node => do
    let ref ← SessionRef.fromNodeProperties sha256 refId node.properties
    let _ ← SessionRef.postInit ⟨ref.identity, authority.actorId, authority.sessionId,
      authority.correlationId, now⟩
    let current ← readState s refId
    raiseIf (current.version ≠ expectedVersion)
      (versionConflict (.sessionRef, refId) expectedVersion current.version)
    raiseIf (state ≠ .open ∧ state ≠ .done) (Error.mk .valueError "invalid_session_work_state")
    raiseIf (state = current.state)
      (Error.mk .invalidStatusTransition "Session work state is unchanged.")
    validateVersion (current.version + 1)
    return ⟨refId, state, current.version + 1, some (isoformat now'), some authority.actorId,
      some authority.correlationId⟩

def storeState (existing : Option Node) (value : SessionWorkState) : Tx Node :=
  if existing.isNone then createNode value.key value.toNodeProperties
  else updateNode value.key value.toNodeProperties

def setState (refId : String) (expectedVersion : Int) (state : SessionState)
    (authority : Authority) (now now' : Datetime) : Tx SessionWorkState := do
  let value ← reading fun s =>
    nextSessionState sha256 s refId expectedVersion state authority now now'
  let existing ← reading (getNode · value.key)
  let _ ← storeState existing value
  return value

end Sessions

end DevGraph.Work
