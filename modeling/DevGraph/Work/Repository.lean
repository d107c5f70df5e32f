import DevGraph.Work.Storage

/-!
# The Work repository

Reads, creation and compare-and-set updates of Work objects over the storage.
-/

namespace DevGraph.Work

open Lib

def newObject (kind : Label) (id title description : String) (createdAt updatedAt : Datetime) :
    WorkObject where
  kind := kind
  id := id
  title := title
  description := description
  status := if kind = .decision then .accepted else .draft
  createdAt := createdAt
  updatedAt := updatedAt
  version := 1
  artifactIds := []
  externalLinkIds := []
  priority := 0
  workflowJson := if kind ∈ todoKinds ∧ kind ≠ .todo then some (initialState kind) else none
  progress := if kind ∈ todoKinds then some .notStarted else none
  archived := false
  progressRecordId := none
  progressMigrationJson := none

def WorkObject.next (w : WorkObject) (now : Datetime) : WorkObject :=
  { w with version := w.version + 1, updatedAt := now }

def WorkObject.withStatus (w : WorkObject) (status : WorkStatus) (now : Datetime) :
    Except Error WorkObject :=
  WorkObject.postInit
    { w.next now with
      status := status
      archived := if status = .archived then true else w.archived }

def requireKnownKind (kind : Label) : Except Error Unit :=
  raiseIf (kind ∉ canonicalWorkKinds)
    (Error.mk .unknownWorkObjectKind ("unknown work-object kind: " ++ kind.name))

def keyText (key : Key) : String := key.1.name ++ ": " ++ key.2

def getById (s : Store) (key : Key) : Except Error WorkObject := do
  requireKnownKind key.1
  validateWorkObjectId key.2
  match ← getNode s key with
  | some node => fromNode key node
  | none => throw (Error.mk .missingWorkObject ("missing " ++ keyText key))

/-- Neither an archived object nor an accepted proposal can be created. -/
def rejectCreationStatusSideDoors (w : WorkObject) : Except Error Unit := do
  raiseIf (w.archived = true ∨ w.status = .archived)
    (Error.mk .invalidStatusTransition
      ("create cannot bypass archive semantics for " ++ keyText w.key))
  raiseIf (w.kind = .proposal ∧ w.status = .accepted)
    (Error.mk .invalidStatusTransition
      ("Proposal acceptance requires Decision provenance via accept_proposal: " ++ w.id))

def Repository.create (w : WorkObject) : Tx WorkObject := do
  lift (requireKnownKind w.kind)
  lift (validateWorkObjectId w.id)
  lift (validateVersion w.version)
  lift (validatePriority w.priority)
  lift (rejectCreationStatusSideDoors w)
  transaction do
    let existing ← reading (getNode · w.key)
    let error := Error.mk .workObjectAlreadyExists ("existing " ++ keyText w.key)
    raiseIf (existing.isSome) error
    let _ ← reraising Error.isKeyError error (createNode w.key w.toNodeProperties)
  return w

def versionConflict (key : Key) (expected actual : Int) : Error :=
  ⟨.versionConflict, "version conflict for " ++ keyText key ++ " (expected " ++ toString expected
    ++ ", actual " ++ toString actual ++ ")"⟩

/-- The content of an object that its evidence rests on. -/
def WorkObject.basisContent (w : WorkObject) : String × String × List String × List String :=
  (w.title, w.description, w.artifactIds, w.externalLinkIds)

def reopenFirst : Error :=
  ⟨.invalidStatusTransition, "Reopen completed work before changing its evidence basis."⟩

/-- The object that a content update writes over the stored one. -/
def updatedObject (current w : WorkObject) (expectedVersion : Int) (now : Datetime) :
    Except Error WorkObject := do
  raiseIf (current.archived = true)
    (Error.mk .invalidStatusTransition ("cannot update archived " ++ keyText w.key))
  raiseIf (current.version ≠ expectedVersion)
    (versionConflict w.key expectedVersion current.version)
  raiseIf (w.status ≠ current.status)
    (Error.mk .invalidStatusTransition ("update cannot change status for " ++ keyText w.key))
  raiseIf (current.progress = some .done ∧ current.basisContent ≠ w.basisContent) reopenFirst
  WorkObject.postInit
    { current.next now with
      title := w.title
      description := w.description
      artifactIds := w.artifactIds
      externalLinkIds := w.externalLinkIds
      priority := w.priority }

/-- Reads an object, replaces it by what a computation makes of it, and stores the result
through the given storage write. -/
def rewrite (key : Key) (f : WorkObject → Except Error WorkObject)
    (write : Key → Props → Tx Node) : Tx WorkObject :=
  transaction do
    let current ← reading (getById · key)
    let updated ← lift (f current)
    let _ ← write key updated.toNodeProperties
    return updated

def Repository.update (w : WorkObject) (expectedVersion : Int) (now : Datetime) :
    Tx WorkObject := do
  lift (validateWorkObjectId w.id)
  lift (validateVersion w.version)
  lift (validatePriority w.priority)
  lift (validateVersion expectedVersion)
  rewrite w.key (updatedObject · w expectedVersion now) updateNode

def WorkObject.withChanges (w : WorkObject) (c : ContentChanges) : WorkObject :=
  { w with
    title := c.title.getD w.title
    description := c.description.getD w.description
    priority := c.priority.getD w.priority
    artifactIds := c.artifactIds.getD w.artifactIds
    externalLinkIds := c.externalLinkIds.getD w.externalLinkIds }

/-- The checks that content changes make when they are built. -/
def ContentChanges.postInit (c : ContentChanges) : Except Error Unit := do
  raiseIf (c = ⟨none, none, none, none, none⟩) (Error.mk .valueError "invalid content changes")
  raiseIf (c.title = some "") (Error.mk .valueError "title cannot be empty")
  validateWorkObjectIds (c.artifactIds.getD [])
  validateWorkObjectIds (c.externalLinkIds.getD [])

def patchedObject (current : WorkObject) (expectedVersion : Int) (changes : ContentChanges)
    (now : Datetime) : Except Error WorkObject := do
  raiseIf (current.archived = true)
    (Error.mk .invalidStatusTransition ("cannot update archived " ++ keyText current.key))
  raiseIf (current.version ≠ expectedVersion)
    (versionConflict current.key expectedVersion current.version)
  raiseIf (current.progress = some .done ∧
    current.basisContent ≠ (current.withChanges changes).basisContent) reopenFirst
  WorkObject.postInit ((current.withChanges changes).next now)

def Repository.updateContent (key : Key) (expectedVersion : Int) (changes : ContentChanges)
    (now : Datetime) : Tx WorkObject := do
  lift (requireKnownKind key.1)
  lift (validateWorkObjectId key.2)
  lift (validateVersion expectedVersion)
  lift (validatePriority (changes.priority.getD 0))
  rewrite key (patchedObject · expectedVersion changes now) updateNode

def archivedObject (current : WorkObject) (now : Datetime) : Except Error WorkObject := do
  raiseIf (current.archived = true)
    (Error.mk .invalidStatusTransition ("already archived " ++ keyText current.key))
  if current.kind ∈ todoKinds then WorkObject.postInit { current.next now with archived := true }
  else current.withStatus .archived now

def Repository.archive (key : Key) (now : Datetime) : Tx WorkObject := do
  lift (requireKnownKind key.1)
  lift (validateWorkObjectId key.2)
  rewrite key (archivedObject · now) archiveNode

def genericStatusTransitions : List (WorkStatus × WorkStatus) :=
  [(.draft, .review), (.review, .draft), (.draft, .accepted), (.review, .accepted)]

def transitionedObject (current : WorkObject) (status : WorkStatus) (now : Datetime) :
    Except Error WorkObject := do
  raiseIf (current.archived = true ∨ (current.status, status) ∉ genericStatusTransitions)
    (Error.mk .invalidStatusTransition ("invalid transition " ++ current.status.name ++ " -> "
      ++ status.name ++ " for " ++ keyText current.key))
  raiseIf (status = .accepted ∧ current.kind = .proposal)
    (Error.mk .invalidStatusTransition
      ("Proposal acceptance requires Decision provenance via accept_proposal: " ++ current.id))
  current.withStatus status now

def Repository.transitionStatus (key : Key) (status : WorkStatus) (now : Datetime) :
    Tx WorkObject := do
  lift (requireKnownKind key.1)
  lift (validateWorkObjectId key.2)
  rewrite key (transitionedObject · status now) updateNode

end DevGraph.Work
