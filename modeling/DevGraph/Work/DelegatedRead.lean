import DevGraph.Lib.DepthFirst
import DevGraph.Work.Arenas
import DevGraph.Work.ResourcePaths

/-!
# Delegated reads

Grants to read Work, the pages of Work that the storage selects for them, and the reads of single
items that they admit.
-/

namespace DevGraph.Work

open Lib

inductive WorkOperation
  | list | get | relationships | children | blockers
  deriving DecidableEq

inductive RelationshipType
  | children | parent | dependencies | dependents | blockers | blocked
  deriving DecidableEq

structure WorkReadGrant where
  operations : List WorkOperation
  relationshipTypes : List RelationshipType
  workKinds : List Label
  workIds : List String
  arenaIds : List String
  includeArchived : Bool
  operations_distinct : operations ≠ [] ∧ operations.Nodup
  relationshipTypes_distinct : relationshipTypes ≠ [] ∧ relationshipTypes.Nodup
  workKinds_distinct : workKinds ≠ [] ∧ workKinds.Nodup
  workKinds_known : ∀ kind ∈ workKinds, kind ∈ DevGraph.Work.workKinds
  workIds_distinct : workIds.Nodup ∧ "" ∉ workIds
  arenaIds_distinct : arenaIds.Nodup ∧ "" ∉ arenaIds

inductive ReadGrant
  | work (grant : WorkReadGrant)
  | arena (arenaIds : List String)
  | simple (scope : String)

def ReadGrant.work? : ReadGrant → Option WorkReadGrant
  | .work grant => some grant
  | _ => none

def workGrants (grants : List ReadGrant) (operation : WorkOperation) (kind : Option Label)
    (relationship : Option RelationshipType) (includeArchived : Bool) : List WorkReadGrant :=
  (grants.filterMap ReadGrant.work?).filter fun grant =>
    operation ∈ grant.operations && kind.all (· ∈ grant.workKinds) &&
      relationship.all (· ∈ grant.relationshipTypes) && (!includeArchived || grant.includeArchived)

structure DelegatedWorkSelector where
  workIds : List String
  arenaIds : List String
  workKinds : List Label
  includeArchived : Bool
  resourcePaths : List ResourcePath

def splitResource (resource : String) : String × String :=
  (String.ofList (resource.toList.takeWhile (· ≠ '/')),
    String.ofList (resource.toList.dropWhile (· ≠ '/')).tail)

def invalidSelector : Error := ⟨.valueError, "invalid delegated Work selector"⟩

def validateWorkSelector (resource : String) : Except Error Unit := do
  raiseIf (resource.toList.count '/' ≠ 1) invalidSelector
  raiseIf (canonicalWorkKinds.all (fun kind => kind.name ≠ (splitResource resource).1) = true)
    invalidSelector
  validateWorkObjectId (splitResource resource).2

def validateSelectors (workIds arenaIds : List String) : Except Error Unit := do
  workIds.forM validateWorkSelector
  arenaIds.forM validateWorkObjectId
  raiseIf (¬ (workIds.map splitResource).Nodup ∨ ¬ arenaIds.Nodup)
    (Error.mk .valueError "duplicate delegated selector")

def DelegatedWorkSelector.validated (selector : DelegatedWorkSelector) :
    Except Error DelegatedWorkSelector := do
  validateSelectors selector.workIds selector.arenaIds
  raiseIf (selector.resourcePaths.length > 16 ∨ ¬ selector.resourcePaths.Nodup)
    (Error.mk .valueError "invalid resource paths")
  raiseIf (selector.workKinds = [] ∨ (∃ kind ∈ selector.workKinds, kind ∉ canonicalWorkKinds) ∨
      ¬ selector.workKinds.Nodup) invalidSelector
  return selector

def selectorOf (grant : WorkReadGrant) : DelegatedWorkSelector :=
  ⟨grant.workIds, grant.arenaIds, grant.workKinds, grant.includeArchived, []⟩

def childArcs (s : Store) : List (Key × Key) :=
  (s.edges.filter fun e => e.relationship = .hasChild).map fun e => (e.source, e.target)

/-- Everything below the direct members of the Arenas. -/
def arenaDescendantKeys (s : Store) (arenas : List String) : List Key :=
  closure (childArcs s) [] ((s.edges.filter fun e => e.relationship = .containsWork &&
    e.source.1 = .arena && e.source.2 ∈ arenas).map Edge.target).reverse

/-- Whether a selector admits a node; its paths are looked at last. -/
def selects (s : Store) (key : Key) (node : Node) (selector : DelegatedWorkSelector) :
    Except Error Bool :=
  if key.1 ∈ selector.workKinds ∧ (node.archived = false ∨ selector.includeArchived = true) ∧
      (selector.workIds = [] ∨ (key.1.name, key.2) ∈ selector.workIds.map splitResource) ∧
      (selector.arenaIds = [] ∨ key ∈ arenaDescendantKeys s selector.arenaIds) then
    withinPaths (memoryStorage s) key selector.resourcePaths
  else pure false

def admitted (s : Store) (selectors : List DelegatedWorkSelector) (key : Key) : Except Error Bool :=
  match s.node? key with
  | none => pure false
  | some node => selectors.anyM (selects s key node)

def validateWorkFilter (label : Label) (selectors : List DelegatedWorkSelector)
    (workKinds : List Label) (afterId : Option String) (limit : Nat) : Except Error Unit := do
  raiseIf (label ∉ canonicalWorkKinds) (Error.mk .valueError "invalid delegated Work kind")
  raiseIf (selectors = []) (Error.mk .valueError "invalid delegated Work selectors")
  raiseIf (workKinds = [] ∨ (∃ kind ∈ workKinds, kind ∉ canonicalWorkKinds) ∨ ¬ workKinds.Nodup)
    (Error.mk .valueError "invalid delegated Work kinds")
  match afterId with
  | some id => validateWorkObjectId id
  | none => pure ()
  raiseIf (¬ (1 ≤ limit ∧ limit ≤ 100)) (Error.mk .numericBoundError "invalid_page_limit")

def idBefore (descending : Bool) (a b : String) : Prop := if descending then b < a else a < b

instance (descending : Bool) : DecidableRel (idBefore descending) := fun a b =>
  inferInstanceAs (Decidable (if descending = true then b < a else a < b))

def delegatedWorkPage (s : Store) (label : Label) (selectors : List DelegatedWorkSelector)
    (workKinds : List Label) (includeArchived descending : Bool) (afterId : Option String)
    (limit : Nat) : Except Error (List (Sigma fun _ : Key => Node)) := do
  validateWorkFilter label selectors workKinds afterId limit
  let records ← s.nodes.entries.filterM fun entry =>
    if entry.1.1 = label ∧ label ∈ workKinds ∧ (includeArchived = true ∨ entry.2.archived = false)
    then do
      let found ← admitted s selectors entry.1
      return found && afterId.all fun id => idBefore descending id entry.1.2
    else pure false
  return (records.insertionSort fun a b => ¬ idBefore descending b.1.2 a.1.2).take limit

def notGranted : Error := ⟨.keyError, "resource_not_granted"⟩

def listWork (s : Store) (grants : List ReadGrant) (kind : Label)
    (includeArchived descending : Bool)
    (limit : Nat) (afterId : Option String) : Except Error (List WorkObject) := do
  let found := workGrants grants .list (some kind) none includeArchived
  raiseIf (found.isEmpty = true) notGranted
  let selectors ← found.mapM fun grant => (selectorOf grant).validated
  let nodes ← delegatedWorkPage s kind selectors [kind] includeArchived descending afterId limit
  nodes.mapM fun entry => fromNode entry.1 entry.2

/-- Whether one of the grants admits an item; the membership of the item is looked up once, when
a grant on Arenas needs it. -/
def workAdmitted (s : Store) (key : Key) (archived : Bool) :
    Option ArenaMembership → List WorkReadGrant → Except Error Bool
  | _, [] => pure false
  | known, grant :: grants =>
    if archived = true ∧ grant.includeArchived = false then workAdmitted s key archived known grants
    else if ¬ (grant.workIds = [] ∨ resource key ∈ grant.workIds) then
      workAdmitted s key archived known grants
    else if grant.arenaIds = [] then pure true
    else
      match known.elim (membership s key) .ok with
      | .error e => if e.cls = .missingWorkObject then pure false else .error e
      | .ok found =>
        if found.arena.any (·.id ∈ grant.arenaIds) then pure true
        else workAdmitted s key archived (some found) grants

def requireWork (s : Store) (key : Key) (grants : List WorkReadGrant) : Except Error WorkObject :=
  match getById s key with
  | .error e => if e.cls = .missingWorkObject then .error notGranted else .error e
  | .ok work => do
    raiseIf (grants.isEmpty = true) notGranted
    let found ← workAdmitted s key work.archived none grants
    raiseIf (found = false) notGranted
    return work

def getWork (s : Store) (grants : List ReadGrant) (key : Key) : Except Error WorkObject :=
  requireWork s key (workGrants grants .get (some key.1) none false)

end DevGraph.Work
