import DevGraph.Work.DelegatedRead
import DevGraph.Work.Mutations

/-!
# Write scopes

The receiver's own restriction of writes: grants of an operation on resources, Arenas and resource
paths, the check that one assignment narrows another, and the guard that looks at every named
resource before a mutation and once more after it.
-/

namespace DevGraph.Work

open Lib

structure GrantValidity where
  notBefore : Nat
  notAfter : Option Nat
  bounded : notBefore ≤ maxSafe ∧ ∀ last ∈ notAfter, last ≤ maxSafe ∧ notBefore < last

def GrantValidity.contains (v : GrantValidity) (now : Nat) : Except Error Bool := do
  raiseIf (maxSafe < now) (Error.mk .valueError "invalid grant validity")
  return v.notBefore ≤ now && v.notAfter.all (now < ·)

def GrantValidity.containedBy (v parent : GrantValidity) : Bool :=
  parent.notBefore ≤ v.notBefore && parent.notAfter.all fun last => v.notAfter.any (· ≤ last)

def resourceKinds : List Label :=
  [.todo, .proposal, .initiative, .project, .issue, .task, .arena, .decision, .reviewPacket,
    .handoff, .externalLink, .sessionRef, .sessionLink]

/-- Resources of a kind, all of them when no ids are given. -/
structure WriteResource where
  kind : Label
  ids : Option (List String)
  kind_known : kind ∈ resourceKinds
  ids_valid : ∀ selected ∈ ids, selected ≠ [] ∧ selected.length ≤ 256 ∧ selected.Nodup ∧
    ∀ id ∈ selected, isWorkObjectId id = true
  deriving DecidableEq

def WriteResource.containedBy (r parent : WriteResource) : Bool :=
  r.kind = parent.kind && parent.ids.all fun allowed => r.ids.any fun ids => ids ⊆ allowed

def WriteResource.names (r : WriteResource) (key : Key) : Bool :=
  r.kind = key.1 && r.ids.all (key.2 ∈ ·)

def writeOperations : List String :=
  ((allOperations.filter (· ≠ .status)).map fun op => "devgraph.work." ++ op.name ++ ".v2") ++
    [ArenaOperation.create, .patch, .archive, .memberSet].map fun op =>
      "devgraph.arena." ++ op.name ++ ".v1"

/-- A grant is free of Arenas when no Arena ids are given, and of paths when it has none. -/
structure ScopedWriteGrant where
  operation : String
  resources : List WriteResource
  arenaIds : Option (List String)
  resourcePaths : List ResourcePath
  supported : operation ∈ writeOperations
  resources_distinct : resources ≠ [] ∧ resources.length ≤ 64 ∧ resources.Nodup
  arenas_valid : ∀ selected ∈ arenaIds, selected ≠ [] ∧ selected.length ≤ 256 ∧ selected.Nodup ∧
    ∀ id ∈ selected, isWorkObjectId id = true
  eligible : arenaIds ≠ none → ∀ r ∈ resources, r.kind ∈ todoKinds ∨ r.kind = .arena
  paths_distinct : resourcePaths.length ≤ 16 ∧ resourcePaths.Nodup
  path_resources : resourcePaths ≠ [] →
    ∀ r ∈ resources, r.kind ∈ [Label.initiative, .project, .issue, .task]
  deriving DecidableEq

def ScopedWriteGrant.names (grant : ScopedWriteGrant) (key : Key) : Bool :=
  grant.resources.any (·.names key)

/-- The pattern `pubkey:sha256:[0-9a-f]{64}`. -/
def isActorId (s : String) : Bool :=
  s.toList.take 14 = "pubkey:sha256:".toList && (s.toList.drop 14).length = 64 &&
    (s.toList.drop 14).all fun c => isDigit c || ('a' ≤ c && c ≤ 'f')

structure WriteScopeAssignment where
  actorId : String
  notBefore : Nat
  notAfter : Nat
  grants : List ScopedWriteGrant
  actor_valid : isActorId actorId = true
  interval : notBefore < notAfter ∧ notAfter ≤ maxSafe
  grants_distinct : grants ≠ [] ∧ grants.length ≤ 64 ∧ grants.Nodup

def WriteScopeAssignment.validity (a : WriteScopeAssignment) : GrantValidity where
  notBefore := a.notBefore
  notAfter := some a.notAfter
  bounded := by
    refine ⟨a.interval.1.le.trans a.interval.2, ?_⟩
    rintro last hlast
    cases hlast
    exact ⟨a.interval.2, a.interval.1⟩

/-- A grant that may stand above another one, as far as the resources are not looked at. -/
def ScopedWriteGrant.above (p grant : ScopedWriteGrant) : Bool :=
  p.operation = grant.operation && pathsSubset grant.resourcePaths p.resourcePaths &&
    p.arenaIds.all fun allowed => grant.arenaIds.any fun arenas => arenas ⊆ allowed

/-- The resources of a grant that no grant above it has. -/
def amplifies (grant : ScopedWriteGrant) (ceiling : List ScopedWriteGrant) : Bool :=
  grant.resources.any fun r => !((ceiling.filter (·.above grant)).any fun p =>
    p.resources.any fun allowed => r.containedBy allowed)

def requireWriteScopeSubset (child parent : WriteScopeAssignment) : Except Error Unit := do
  raiseIf (child.actorId ≠ parent.actorId ∨ child.validity.containedBy parent.validity = false)
    (Error.mk .valueError "write assignment amplification")
  raiseIf (child.grants.any (amplifies · parent.grants) = true)
    (Error.mk .valueError "write resource or Arena amplification")

/-- A guard refuses a request, or the storage raises under it. -/
inductive Refusal
  | denied (reason : String)
  | raised (e : Error)
  deriving DecidableEq

def resourceArena (s : Store) (key : Key) : Except Error (Option String) :=
  if key.1 = .arena then (fun a => some a.id) <$> getArena s key.2
  else if key.1 ∈ todoKinds then (fun m => m.arena.map Arena.id) <$> membership s key
  else pure none

def scopedArena (s : Store) (key : Key) : Except Error (Option String) :=
  match resourceArena s key with
  | .ok arena => .ok arena
  | .error e => if e.isValueError then .ok none else .error e

def inside (s : Store) (key : Key) (grant : ScopedWriteGrant) : Except Error Bool := do
  let within ← withinPaths (memoryStorage s) key grant.resourcePaths
  if within = false then pure false
  else match grant.arenaIds with
    | none => pure true
    | some ids => do
      let arena ← scopedArena s key
      return arena.any (· ∈ ids)

/-- The kind and the id of a resource, if the kind is known. -/
def resourceKey (resource : String) : Option Key :=
  (Label.ofName (splitResource resource).1).map fun kind => (kind, (splitResource resource).2)

def Request.authorityOperation : Request → String
  | .work r => r.authorityOperation
  | .arena r => r.authorityOperation

/-- What a resource stands under before the mutation. -/
structure Witness where
  key : Key
  candidates : List ScopedWriteGrant

namespace ResourceScopeGuard

variable (a : WriteScopeAssignment) (operation : String)

def candidates (s : Store) (key : Key) : Except Error (List ScopedWriteGrant) :=
  (a.grants.filter fun grant => grant.operation = operation && grant.names key).filterM
    (inside s key)

def witness (s : Store) (resource : String) : Except Refusal Witness :=
  match resourceKey resource with
  | none => throw (.denied "write_resource_not_granted")
  | some key => do
    let found ← (candidates a operation s key).mapError .raised
    raiseIf (found.isEmpty = true) (Refusal.denied "write_resource_not_granted")
    return ⟨key, found⟩

def prepare (s : Store) (resources : List String) : Except Refusal (List Witness) :=
  resources.mapM (witness a operation s)

end ResourceScopeGuard

namespace ScopedMutation

def checkWitness (s : Store) (w : Witness) : Except Refusal Unit := do
  let found ← (w.candidates.anyM (inside s w.key)).mapError .raised
  raiseIf (found = false) (Refusal.denied "write_resource_scope_changed")

def checkAfter (s : Store) (witnesses : List Witness) : Except Refusal Unit :=
  witnesses.forM (checkWitness s)

end ScopedMutation

/-- The guard admits a request: the assignment is current, the request stands before the mutation
and still stands after it. -/
def ResourceScopeGuard.Admits (a : WriteScopeAssignment) (now : Nat) (before after : Store)
    (r : Request) : Prop :=
  a.validity.contains now = .ok true ∧ ∃ witnesses,
    prepare a r.authorityOperation before r.resources = .ok witnesses ∧
      ScopedMutation.checkAfter after witnesses = .ok ()

end DevGraph.Work
