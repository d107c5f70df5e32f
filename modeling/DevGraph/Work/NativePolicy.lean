import DevGraph.Work.AccessPolicy

/-!
# Native write policies

Rules that allow or deny a holder an operation on one resource or on all with a common beginning,
the check that a policy admits all that a draft grants, and the policy that a draft compiles to.
-/

namespace DevGraph.Work

open Lib

inductive RuleEffect
  | allow | deny
  deriving DecidableEq

inductive RuleStatus
  | active | revoked
  deriving DecidableEq

inductive ResourceMatch
  | exact | byPrefix
  deriving DecidableEq

def RuleEffect.name : RuleEffect → String
  | .allow => "allow"
  | .deny => "deny"

def RuleStatus.name : RuleStatus → String
  | .active => "active"
  | .revoked => "revoked"

def ResourceMatch.name : ResourceMatch → String
  | .exact => "exact"
  | .byPrefix => "prefix"

/-- The pattern `[A-Za-z]+/[a-z0-9-]*`. -/
def isNativeResource (s : String) : Bool :=
  let (kind, id) := (s.toList.takeWhile (· ≠ '/'), s.toList.dropWhile (· ≠ '/'))
  !kind.isEmpty && kind.all (fun c => 'A' ≤ c && c ≤ 'Z' || 'a' ≤ c && c ≤ 'z') &&
    !id.isEmpty && id.tail.all fun c => isLowerAlnum c || c = '-'

/-- A rule as it is written; without an end it cannot stand in a dated policy. -/
structure WireRule where
  actorId : String
  effect : RuleEffect
  status : RuleStatus
  operation : String
  resource : String
  resourceMatch : ResourceMatch
  notBefore : Nat
  notAfter : Option Nat
  deriving DecidableEq

/-- A rule of either version: dated, or valid until it is revoked. -/
structure NativeRule where
  actorId : String
  effect : RuleEffect
  status : RuleStatus
  operation : String
  resource : String
  resourceMatch : ResourceMatch
  validity : GrantValidity
  actor_valid : isActorId actorId = true
  operation_bounded : 1 ≤ operation.length ∧ operation.length ≤ 128
  resource_valid : isNativeResource resource = true ∧ resource.length ≤ 300
  resource_whole : resourceMatch = .exact → resource.toList.getLast? ≠ some '/'

def NativeRule.validated (w : WireRule) : Except Error NativeRule :=
  if h : isActorId w.actorId = true ∧ (1 ≤ w.operation.length ∧ w.operation.length ≤ 128) ∧
      (isNativeResource w.resource = true ∧ w.resource.length ≤ 300) ∧
      (w.resourceMatch = .exact → w.resource.toList.getLast? ≠ some '/') ∧
      (w.notBefore ≤ maxSafe ∧ ∀ last ∈ w.notAfter, last ≤ maxSafe ∧ w.notBefore < last) ∧
      w.notAfter ≠ none then
    pure ⟨w.actorId, w.effect, w.status, w.operation, w.resource, w.resourceMatch,
      ⟨w.notBefore, w.notAfter, h.2.2.2.2.1⟩, h.1, h.2.1, h.2.2.1, h.2.2.2.1⟩
  else throw (Error.mk .valueError "invalid native rule interval or resource")

/-- The pattern `[A-Za-z0-9._:-]{1,128}`. -/
def isPolicyId (s : String) : Bool :=
  1 ≤ s.length && s.length ≤ 128 && s.toList.all fun c =>
    'A' ≤ c && c ≤ 'Z' || isLowerAlnum c || c ∈ ['.', '_', ':', '-']

structure WirePolicy where
  schema : String
  schemaVersion : Nat
  audience : String
  policyId : String
  policyVersion : Int
  rules : List WireRule

/-- The second version holds rules without an end, the first does not. -/
structure NativeWritePolicy where
  schemaVersion : Nat
  audience : String
  policyId : String
  policyVersion : Int
  rules : List NativeRule
  version_known : schemaVersion = 1 ∨ schemaVersion = 2
  audience_local : audience = "devgraph://receiver-local"
  id_valid : isPolicyId policyId = true
  version_bounded : 1 ≤ policyVersion ∧ policyVersion ≤ maxSafeInteger
  rules_bounded : 1 ≤ rules.length ∧ rules.length ≤ 1000
  rules_dated : schemaVersion = 1 → ∀ rule ∈ rules, rule.validity.notAfter ≠ none

lemma NativeRule.validated_dated {w : WireRule} {rule : NativeRule}
    (h : NativeRule.validated w = .ok rule) : rule.validity.notAfter ≠ none := by
  unfold NativeRule.validated at h
  split at h
  · rename_i hvalid
    cases h
    exact hvalid.2.2.2.2.2
  · cases h

def invalidPolicy : Error := ⟨.valueError, "invalid native policy"⟩

/-- The first version of the policy. -/
def NativeWritePolicy.validated (w : WirePolicy) : Except Error NativeWritePolicy :=
  match h : w.rules.mapM NativeRule.validated with
  | .error e => throw e
  | .ok rules =>
    if hvalid : w.schema = "secs-devgraph-work-policy.v1" ∧ w.schemaVersion = 1 ∧
        w.audience = "devgraph://receiver-local" ∧ isPolicyId w.policyId = true ∧
        (1 ≤ w.policyVersion ∧ w.policyVersion ≤ maxSafeInteger) ∧
        (1 ≤ rules.length ∧ rules.length ≤ 1000) then
      pure {
        schemaVersion := w.schemaVersion
        audience := w.audience
        policyId := w.policyId
        policyVersion := w.policyVersion
        rules := rules
        version_known := .inl hvalid.2.1
        audience_local := hvalid.2.2.1
        id_valid := hvalid.2.2.2.1
        version_bounded := hvalid.2.2.2.2.1
        rules_bounded := hvalid.2.2.2.2.2
        rules_dated := by
          intro _ rule hrule
          obtain ⟨_, _, hw⟩ := mem_mapM h hrule
          exact NativeRule.validated_dated hw }
    else throw invalidPolicy

section Holder

variable (sha256 : List UInt8 → Vector UInt8 32)

def bytesFromHex : List Char → List UInt8
  | a :: b :: rest =>
    UInt8.ofNat ((hexValue a).getD 0 * 16 + (hexValue b).getD 0) :: bytesFromHex rest
  | _ => []

def hexdigest (bytes : Vector UInt8 32) : String :=
  String.ofList (bytes.toList.flatMap fun b => [hexDigit (b.toNat / 16), hexDigit (b.toNat % 16)])

def actorId (subjectPublicKey : String) : String :=
  "pubkey:sha256:" ++ hexdigest (sha256 (bytesFromHex subjectPublicKey.toList))

def WriteResource.selections (r : WriteResource) : List (Option String) :=
  match r.ids with
  | some ids => ids.map some
  | none => [none]

namespace NativeRule

variable (rule : NativeRule)

/-- The rule is about all of a selection. -/
def covers (kind : Label) (identifier : Option String) : Bool :=
  let selected := DevGraph.Work.resource (kind, identifier.getD "")
  (if identifier.isSome then
    rule.resourceMatch = .byPrefix && rule.resource.toList.isPrefixOf selected.toList
  else rule.resourceMatch = .byPrefix && rule.resource = selected) ||
    (identifier.isSome && rule.resource = selected)

/-- The rule is about some of a selection. -/
def overlaps (kind : Label) (identifier : Option String) : Bool :=
  rule.covers kind identifier || (identifier.isNone &&
    (DevGraph.Work.resource (kind, "")).toList.isPrefixOf rule.resource.toList)

/-- The rule and the draft are valid at a common second. -/
def meets (v : GrantValidity) : Bool :=
  v.notAfter.all (rule.validity.notBefore < ·) && rule.validity.notAfter.all (v.notBefore < ·)

def considered (actor operation : String) : Bool :=
  rule.status = .active && rule.actorId = actor && rule.operation = operation

end NativeRule

def nativeAdmissionRequired : Error := ⟨.unauthenticated, "native_admission_required"⟩

namespace NativeWritePolicy

/-- One rule on one selection: a rule that denies raises, one that allows is noted. -/
def consult (v : GrantValidity) (actor operation : String) (kind : Label)
    (identifier : Option String) (allowed : Bool) (rule : NativeRule) : Except Error Bool :=
  if rule.considered actor operation = false then pure allowed
  else do
    raiseIf (rule.effect = .deny ∧ rule.overlaps kind identifier = true ∧ rule.meets v = true)
      nativeAdmissionRequired
    return allowed ||
      (rule.effect = .allow && rule.covers kind identifier && v.containedBy rule.validity)

def admitSelection (p : NativeWritePolicy) (v : GrantValidity) (actor operation : String)
    (kind : Label) (identifier : Option String) : Except Error Unit := do
  let allowed ← p.rules.foldlM (consult v actor operation kind identifier) false
  raiseIf (allowed = false) nativeAdmissionRequired

def require (p : NativeWritePolicy) (draft : AccessDraft) : Except Error Unit :=
  match draft.subjectPublicKey with
  | none => throw (Error.mk .typeError "fromhex() argument must be str, not None")
  | some key =>
    draft.writeGrants.forM fun grant => grant.resources.forM fun r =>
      r.selections.forM fun identifier =>
      p.admitSelection draft.validity (actorId sha256 key) grant.operation r.kind identifier

end NativeWritePolicy

def WireRule.toJson (w : WireRule) : Json :=
  .obj [("actor_id", .str w.actorId), ("effect", .str w.effect.name),
    ("not_after", w.notAfter.elim .null fun last => .int last), ("not_before", .int w.notBefore),
    ("operation", .str w.operation), ("resource", .str w.resource),
    ("resource_match", .str w.resourceMatch.name), ("status", .str w.status.name)]

/-- The canonical text of a rule, by which equal rules are found and rules are ordered. -/
def WireRule.text (w : WireRule) : List Char := (dumps false w.toJson).toList

def compiledRule (actor : String) (draft : AccessDraft) (grant : ScopedWriteGrant)
    (r : WriteResource) (identifier : Option String) : WireRule where
  actorId := actor
  effect := .allow
  status := .active
  operation := grant.operation
  resource := resource (r.kind, identifier.getD "")
  resourceMatch := if r.ids.isSome then .exact else .byPrefix
  notBefore := draft.validity.notBefore
  notAfter := draft.validity.notAfter

def compileRules (actor : String) (draft : AccessDraft) : List WireRule :=
  draft.writeGrants.flatMap fun grant => grant.resources.flatMap fun r =>
    r.selections.map (compiledRule actor draft grant r)

def compileWrite (draft : AccessDraft) (policyId : String) (policyVersion : Int) :
    Except Error WirePolicy := do
  raiseIf (∃ grant ∈ draft.writeGrants, grant.arenaIds ≠ none ∨ grant.resourcePaths ≠ [])
    (Error.mk .valueError "Resource restrictions require the scoped receiver; cannot flatten")
  match draft.subjectPublicKey with
  | none => throw (Error.mk .valueError "write issuance needs an exact member")
  | some key => do
    raiseIf (draft.installationId ≠ none)
      (Error.mk .valueError "installation-restricted write grants are not supported")
    raiseIf (isPolicyId policyId = false ∨ ¬ (1 ≤ policyVersion ∧ policyVersion ≤ maxSafeInteger))
      (Error.mk .valueError "invalid policy identity or version")
    raiseIf (draft.writeGrants = []) (Error.mk .valueError "no write grant selected")
    let rules := compileRules (actorId sha256 key) draft
    -- overlapping grants may give the same rule; the later of two equal texts stays
    let unique := (rules.map fun w => (w.text, w)).reverse
    let texts := (rules.map WireRule.text).dedup
    raiseIf (512 < texts.length) (Error.mk .valueError "too many write rules")
    return {
      schema := "secs-devgraph-work-policy.v1"
      schemaVersion := 1
      audience := draft.writeAudience
      policyId := policyId
      policyVersion := policyVersion
      rules := (texts.insertionSort (· ≤ ·)).filterMap fun text => unique.lookup text }

end Holder

end DevGraph.Work
