import DevGraph.Work.WriteScope

/-!
# Access drafts

Grants that an issuer selects for a holder: reads of Work and of Arenas, and writes. A draft, or the
manifest of a credential, is checked against its immediate parent, grant by grant.
-/

namespace DevGraph.Work

open Lib

/-- A grant to read Work in any version: of the five kinds or also of base Todos, with resource
paths or without. An empty selector does not restrict. -/
structure ScopedReadGrant where
  operations : List WorkOperation
  relationshipTypes : List RelationshipType
  workKinds : List Label
  workIds : List String
  arenaIds : List String
  includeArchived : Bool
  resourcePaths : List ResourcePath
  operations_distinct : operations ≠ [] ∧ operations.Nodup
  relationshipTypes_distinct : relationshipTypes ≠ [] ∧ relationshipTypes.Nodup
  workKinds_distinct : workKinds ≠ [] ∧ workKinds.Nodup
  workKinds_known : ∀ kind ∈ workKinds, kind ∈ todoKinds
  workIds_distinct : workIds.Nodup ∧ "" ∉ workIds
  arenaIds_distinct : arenaIds.Nodup ∧ "" ∉ arenaIds
  paths_distinct : resourcePaths.length ≤ 16 ∧ resourcePaths.Nodup

theorem no_paths_distinct :
    ([] : List ResourcePath).length ≤ 16 ∧ ([] : List ResourcePath).Nodup := by decide

def WorkReadGrant.scoped (grant : WorkReadGrant) : ScopedReadGrant where
  __ := grant
  resourcePaths := []
  workKinds_known := fun kind hkind =>
    (show DevGraph.Work.workKinds ⊆ todoKinds by decide) (grant.workKinds_known kind hkind)
  paths_distinct := no_paths_distinct

/-- The classes of read grants; the two collection grants name all Arenas, present and future. -/
inductive DraftReadGrant
  | work (grant : ScopedReadGrant)
  | arena (arenaIds : List String)
  | ownerAllArenas
  | collectionArenas
  | simple (scope : String)

def ReadGrant.draft : ReadGrant → DraftReadGrant
  | .work grant => .work grant.scoped
  | .arena arenaIds => .arena arenaIds
  | .simple scope => .simple scope

namespace DraftReadGrant

def scope : DraftReadGrant → String
  | .work _ => "devgraph.work.read"
  | .arena _ | .ownerAllArenas | .collectionArenas => "devgraph.arena.read"
  | .simple scope => scope

def allArenas : DraftReadGrant → Bool
  | .ownerAllArenas | .collectionArenas => true
  | _ => false

def work? : DraftReadGrant → Option ScopedReadGrant
  | .work grant => some grant
  | _ => none

def arenaIds : DraftReadGrant → List String
  | .arena arenaIds => arenaIds
  | _ => []

def sameClass : DraftReadGrant → DraftReadGrant → Bool
  | .work _, .work _ | .arena _, .arena _ | .ownerAllArenas, .ownerAllArenas
  | .collectionArenas, .collectionArenas | .simple _, .simple _ => true
  | _, _ => false

end DraftReadGrant

def ScopedReadGrant.selector (grant : ScopedReadGrant) : DelegatedWorkSelector :=
  ⟨grant.workIds, grant.arenaIds, grant.workKinds, grant.includeArchived, grant.resourcePaths⟩

def dynamicArenas (grants : List DraftReadGrant) : Bool := grants.any DraftReadGrant.allArenas

def allowedArenas (grants : List DraftReadGrant) : List String :=
  grants.flatMap DraftReadGrant.arenaIds

def arenaReadable (s : Store) (grants : List DraftReadGrant) (id : String) : Bool :=
  (dynamicArenas grants || id ∈ allowedArenas grants) && (s.node? (.arena, id)).isSome

def selectorSubset (granted requested : List String) : Bool :=
  requested.isEmpty || (!granted.isEmpty && granted ⊆ requested)

def workGrantIsSubset (granted requested : ScopedReadGrant) : Bool :=
  granted.operations ⊆ requested.operations &&
    granted.relationshipTypes ⊆ requested.relationshipTypes &&
    granted.workKinds ⊆ requested.workKinds &&
    (!granted.includeArchived || requested.includeArchived) &&
    selectorSubset granted.workIds requested.workIds &&
    selectorSubset granted.arenaIds requested.arenaIds &&
    pathsSubset granted.resourcePaths requested.resourcePaths

def grantIsSubset (granted requested : DraftReadGrant) : Bool :=
  if granted.scope ≠ requested.scope then false
  else match granted, requested with
    | .work granted, .work requested => workGrantIsSubset granted requested
    | granted, requested =>
      if granted.allArenas then requested.allArenas
      else match granted, requested with
        | .arena _, .ownerAllArenas | .arena _, .collectionArenas => true
        | .arena granted, .arena requested => granted ⊆ requested
        | granted, requested => granted.sameClass requested

structure CredentialRequestProfile where
  issuer : String
  audience : String
  resource : String
  requestedScopes : List String
  requestedGrants : List ReadGrant
  audience_known : audience = "devgraph"
  scopes_match : ∀ scope, scope ∈ requestedScopes ↔
    ∃ grant ∈ requestedGrants, grant.draft.scope = scope

structure CredentialManifest where
  issuerKeyId : String
  audience : String
  resource : String
  grantedScopes : List String
  readGrants : List ReadGrant
  audience_known : audience = "devgraph"
  scopes_match : ∀ scope, scope ∈ grantedScopes ↔
    ∃ grant ∈ readGrants, grant.draft.scope = scope

def grantAmplification : Error := ⟨.valueError, "grant_amplification"⟩

def validateManifestSubset (profile : CredentialRequestProfile) (manifest : CredentialManifest) :
    Except Error Unit := do
  raiseIf (manifest.issuerKeyId ≠ profile.issuer) (Error.mk .valueError "issuer_mismatch")
  raiseIf (manifest.audience ≠ profile.audience) (Error.mk .valueError "audience_mismatch")
  raiseIf (manifest.resource ≠ profile.resource) (Error.mk .valueError "request_binding_mismatch")
  raiseIf (¬ manifest.grantedScopes ⊆ profile.requestedScopes) grantAmplification
  raiseIf (manifest.readGrants.any (fun grant =>
    !profile.requestedGrants.any fun requested => grantIsSubset grant.draft requested.draft) = true)
    grantAmplification

structure AccessDraft where
  issuer : String
  receiver : String
  writeAudience : String
  subjectPublicKey : Option String
  installationId : Option String
  validity : GrantValidity
  lifetimeSeconds : Nat
  readGrants : List DraftReadGrant
  writeGrants : List ScopedWriteGrant
  previousDigest : Option String
  audience_local : writeAudience = "devgraph://receiver-local"
  key_valid : ∀ key ∈ subjectPublicKey, isLowerHex 64 key = true
  installation_valid : ∀ id ∈ installationId, isLowerHex 32 id = true
  installation_bound : installationId ≠ none → subjectPublicKey ≠ none
  lifetime_bounded : 60 ≤ lifetimeSeconds ∧ lifetimeSeconds ≤ 3600
  granted : readGrants ≠ [] ∨ writeGrants ≠ []
  reads_valid : readGrants.length ≤ 16 ∧ readGrants.Nodup ∧ ∀ grant ∈ readGrants,
    ∀ work ∈ grant.work?, validateSelectors work.workIds work.arenaIds = .ok ()
  writes_distinct : writeGrants.length ≤ 64 ∧ writeGrants.Nodup

/-- A parent that leaves a member open lets a child choose it. -/
def bindingKept (child parent : Option String) : Bool := parent.isNone || child = parent

def requireSubset (child parent : AccessDraft) : Except Error Unit := do
  raiseIf (child.issuer ≠ parent.issuer ∨ child.receiver ≠ parent.receiver ∨
    child.writeAudience ≠ parent.writeAudience)
    (Error.mk .valueError "issuer or receiver binding changed")
  raiseIf (bindingKept child.subjectPublicKey parent.subjectPublicKey = false ∨
    bindingKept child.installationId parent.installationId = false)
    (Error.mk .valueError "member binding changed")
  raiseIf (child.validity.containedBy parent.validity = false ∨
    parent.lifetimeSeconds < child.lifetimeSeconds) (Error.mk .valueError "validity amplification")
  raiseIf (child.readGrants.any (fun g => !parent.readGrants.any (grantIsSubset g)) = true)
    (Error.mk .valueError "read grant amplification")
  raiseIf (child.writeGrants.any (amplifies · parent.writeGrants) = true)
    (Error.mk .valueError "write grant amplification")

section Digest

variable (digest : AccessDraft → String)

def attenuate (parent child : AccessDraft) : Except Error AccessDraft := do
  raiseIf (child.previousDigest ≠ some (digest parent))
    (Error.mk .valueError "previous draft digest mismatch")
  requireSubset child parent
  return child

end Digest

end DevGraph.Work
