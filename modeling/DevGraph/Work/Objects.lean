import DevGraph.Work.Requests

/-!
# Work objects and their stored properties

A Work object, the property dictionary that it is stored as, the validation that every
stored dictionary passes, and the way back from a node.
-/

namespace DevGraph.Work

open Lib

structure WorkObject where
  kind : Label
  id : String
  title : String
  description : String
  status : WorkStatus
  createdAt : Datetime
  updatedAt : Datetime
  version : Int
  artifactIds : List String
  externalLinkIds : List String
  priority : Int
  workflowJson : Option String
  progress : Option Progress
  archived : Bool
  progressRecordId : Option String
  progressMigrationJson : Option String
  deriving DecidableEq

def WorkObject.key (w : WorkObject) : Key := (w.kind, w.id)

def validateVersion (n : Int) : Except Error Unit :=
  raiseIf (isVersion n = false) (Error.mk .numericBoundError "invalid_version")

def validatePriority (n : Int) : Except Error Unit :=
  raiseIf (isPriority n = false) (Error.mk .numericBoundError "invalid_priority")

def validateWorkObjectIds (ids : List String) : Except Error Unit :=
  raiseIf (ids.all isWorkObjectId = false)
    (Error.mk .invalidWorkObjectId "invalid_work_object_id")

/-- The progress of an item agrees with the stage of its workflow, if it has both. -/
def validateProgress (progress : Option Progress) (workflowJson : Option String) :
    Except Error Unit :=
  match progress, workflowJson with
  | some value, some raw =>
    if raw = "" then pure ()
    else do
      let state ← decodeState raw
      let expected ← stageProgress state.workflowId state.stage
      raiseIf (value ≠ expected) (Error.mk .valueError "progress_stage_conflict")
  | _, _ => pure ()

def WorkObject.checkTodo (w : WorkObject) : Except Error Unit :=
  if w.kind ∈ todoKinds then validateProgress w.progress w.workflowJson else pure ()

/-- The checks of the constructor, which every replacement of fields repeats. -/
def WorkObject.postInit (w : WorkObject) : Except Error WorkObject := do
  validateWorkObjectId w.id
  validateVersion w.version
  validatePriority w.priority
  validateWorkObjectIds w.artifactIds
  validateWorkObjectIds w.externalLinkIds
  w.checkTodo
  return w

def WorkObject.toNodeProperties (w : WorkObject) : Props
  | .title => some (.str w.title)
  | .description => some (.str w.description)
  | .status => some (.str w.status.name)
  | .createdAt => some (.str (isoformat w.createdAt))
  | .updatedAt => some (.str (isoformat w.updatedAt))
  | .version => some (.int w.version)
  | .kind => some (.str w.kind.name)
  | .artifactIds => some (.strs w.artifactIds)
  | .externalLinkIds => some (.strs w.externalLinkIds)
  | .priority => some (.int w.priority)
  | .progressSchema => if w.kind ∈ todoKinds then some (.int 1) else none
  | .progress =>
    if w.kind ∈ todoKinds then w.progress.map fun progress => .str progress.name else none
  | .progressMigrationJson =>
    if w.kind ∈ todoKinds then w.progressMigrationJson.map .str else none
  | .progressRecordId => if w.kind ∈ todoKinds then w.progressRecordId.map .str else none
  | .workflowJson => w.workflowJson.map .str
  | _ => none

def WorkObject.node (w : WorkObject) : Node := ⟨w.toNodeProperties, w.archived⟩

def modelProperties : List Property :=
  [.kind, .title, .description, .status, .createdAt, .updatedAt, .version, .artifactIds,
    .externalLinkIds, .priority]

def optionalProperties : List Property :=
  [.workflowJson, .progressSchema, .progress, .progressRecordId, .progressMigrationJson]

def checkNames (props : Props) (allowUnknown : Bool) : Except Error Unit :=
  raiseIf (¬ ((∀ p ∈ modelProperties, (props p).isSome) ∧
      (allowUnknown = true ∨
        ∀ p ∈ properties, (props p).isSome → p ∈ modelProperties ++ optionalProperties)))
    (Error.mk .valueError "invalid_work_object_properties")

def checkWorkflow (props : Props) : Except Error Unit :=
  match props .workflowJson with
  | none => pure ()
  | some (.str raw) => do
    let _ ← decodeState raw
    return ()
  | some _ => throw (Error.mk .valueError "invalid_workflow_state")

def workflowText (props : Props) : Option String :=
  match props .workflowJson with
  | some (.str raw) => some raw
  | _ => none

def progressOfName (s : String) : Option Progress := progresses.find? fun p => p.name = s

def checkProgressValue (props : Props) : Except Error Unit :=
  match props .progress with
  | none => pure ()
  | some (.str name) =>
    match progressOfName name with
    | some progress => validateProgress (some progress) (workflowText props)
    | none => throw (Error.mk .valueError "invalid_progress")
  | some _ => throw (Error.mk .valueError "invalid_progress")

def checkRecordId (props : Props) : Except Error Unit :=
  match props .progressRecordId with
  | none => pure ()
  | some (.str id) => validateWorkObjectId id
  | some _ => throw (Error.mk .invalidWorkObjectId "invalid_work_object_id")

def hasProgress (props : Props) : Bool :=
  (props .progress).isSome || (props .progressSchema).isSome || (props .progressRecordId).isSome

def checkProgress (label : Label) (props : Props) : Except Error Unit :=
  if hasProgress props then do
    raiseIf (label ∉ todoKinds ∨ props .progressSchema ≠ some (.int 1))
      (Error.mk .valueError "invalid_progress_schema")
    checkProgressValue props
    checkRecordId props
  else pure ()

def dropFraction (text : List Char) : List Char :=
  if text.head? = some '.' ∧ text.tail.head?.any isDigit then text.tail.dropWhile isDigit else text

def dropExponent (text : List Char) : List Char :=
  let rest := if text.tail.head? ∈ [some '+', some '-'] then text.tail.tail else text.tail
  if text.head? ∈ [some 'e', some 'E'] ∧ rest.head?.any isDigit then rest.dropWhile isDigit
  else text

/-- A JSON text with the floats that `json.loads` takes cut down to integers: outside strings a
fraction and an exponent are dropped behind a digit, and the named constants become zeros. -/
def wholeNumbers : Nat → Bool → List Char → List Char
  | n + 1, true, '\\' :: c :: cs => '\\' :: c :: wholeNumbers n true cs
  | n + 1, true, c :: cs => c :: wholeNumbers n (c ≠ '"') cs
  | n + 1, false, c :: cs =>
    match ["NaN", "Infinity", "-Infinity"].find? (·.toList.isPrefixOf (c :: cs)) with
    | some name => " 0 ".toList ++ wholeNumbers n false ((c :: cs).drop name.length)
    | none =>
      if isDigit c then c :: wholeNumbers n false (dropExponent (dropFraction cs))
      else c :: wholeNumbers n (c = '"') cs
  | _, _, _ => []

def checkMigration (props : Props) : Except Error Unit :=
  match props .progressMigrationJson with
  | none => pure ()
  | some (.str value) =>
    raiseIf (value.length > 65536 ∨
        ((loads plainJson (wholeNumbers value.length false value.toList)).bind Json.asObj).isNone)
      (Error.mk .valueError "invalid_progress_migration")
  | some _ => throw (Error.mk .valueError "invalid_progress_migration")

def statusOfName (s : String) : Option WorkStatus :=
  workStatuses.find? fun status => status.name = s

def statusOf (props : Props) : Option WorkStatus :=
  match props .status with
  | some (.str name) => statusOfName name
  | _ => none

def timestampOf (props : Props) (p : Property) : Option Datetime :=
  match props p with
  | some (.str text) => fromisoformat text
  | _ => none

def intOf (props : Props) (p : Property) : Option Int :=
  match props p with
  | some (.int n) => some n
  | _ => none

def strsOf (props : Props) (p : Property) : Option (List String) :=
  match props p with
  | some (.strs l) => some l
  | _ => none

def strOf (props : Props) (p : Property) : Option String :=
  match props p with
  | some (.str s) => some s
  | _ => none

def checkContent (label : Label) (props : Props) : Except Error Unit := do
  raiseIf (props .kind ≠ some (.str label.name)) (Error.mk .valueError "invalid_work_object_kind")
  raiseIf ((strOf props .title).isNone ∨ (strOf props .description).isNone)
    (Error.mk .valueError "invalid_work_object_content")
  raiseIf ((statusOf props).isNone) (Error.mk .valueError "invalid_work_object_status")
  raiseIf ((timestampOf props .createdAt).isNone ∨ (timestampOf props .updatedAt).isNone)
    (Error.mk .valueError "invalid_work_object_timestamp")
  raiseIf ((intOf props .version).all isVersion = false ∨ (intOf props .version).isNone)
    (Error.mk .numericBoundError "invalid_version")
  raiseIf ((intOf props .priority).all isPriority = false ∨ (intOf props .priority).isNone)
    (Error.mk .numericBoundError "invalid_priority")
  raiseIf ((strsOf props .artifactIds).isNone ∨ (strsOf props .externalLinkIds).isNone)
    (Error.mk .typeError "invalid_identifier_collection")
  raiseIf ((strsOf props .artifactIds).all (·.all isWorkObjectId) = false ∨
      (strsOf props .externalLinkIds).all (·.all isWorkObjectId) = false)
    (Error.mk .invalidWorkObjectId "invalid_work_object_id")

def archiveStateError : Error := ⟨.valueError, "invalid_work_object_archive_state"⟩

def checkArchive (props : Props) (archived : Bool) : Except Error Unit :=
  raiseIf ((props .progressSchema).isNone ∧ archived ≠ (statusOf props = some .archived : Bool))
    archiveStateError

def canonicalProps (props : Props) : Props := fun p =>
  if p ∈ modelProperties ++ optionalProperties then props p else none

def validateCanonicalWorkObjectProperties (key : Key) (props : Props) (archived : Bool)
    (allowUnknown : Bool) : Except Error Props := do
  raiseIf (key.1 ∉ canonicalWorkKinds) (Error.mk .valueError "invalid_work_object_kind")
  validateWorkObjectId key.2
  checkNames props allowUnknown
  checkWorkflow props
  checkProgress key.1 props
  checkMigration props
  checkContent key.1 props
  checkArchive props archived
  return canonicalProps props

def nodeText (key : Key) : String := key.1.name ++ ":" ++ key.2

def build (key : Key) (props : Props) (archived : Bool) : Except Error WorkObject :=
  match strOf props .title, strOf props .description, statusOf props, timestampOf props .createdAt,
    timestampOf props .updatedAt, intOf props .version, strsOf props .artifactIds,
    strsOf props .externalLinkIds, intOf props .priority with
  | some title, some description, some status, some createdAt, some updatedAt, some version,
    some artifactIds, some externalLinkIds, some priority =>
    WorkObject.postInit {
      kind := key.1
      id := key.2
      title := title
      description := description
      status := status
      createdAt := createdAt
      updatedAt := updatedAt
      version := version
      artifactIds := artifactIds
      externalLinkIds := externalLinkIds
      priority := priority
      workflowJson := strOf props .workflowJson
      progress := (strOf props .progress).bind progressOfName
      archived := archived
      progressRecordId := strOf props .progressRecordId
      progressMigrationJson := strOf props .progressMigrationJson }
  | _, _, _, _, _, _, _, _, _ => throw (Error.mk .typeError "unreadable")

def readableOrRaise (key : Key) (result : Except Error WorkObject) : Except Error WorkObject :=
  match result with
  | .ok w => .ok w
  | .error e =>
    if e.isRepositoryError then .error e
    else if e = archiveStateError then
      .error ⟨.workObjectRepositoryError, "archive status mismatch for node " ++ nodeText key⟩
    else .error ⟨.workObjectRepositoryError, "unreadable properties for node " ++ nodeText key⟩

def fromNode (key : Key) (node : Node) : Except Error WorkObject := do
  raiseIf ((strOf node.properties .kind).all
      (fun name => canonicalWorkKinds.all fun kind => kind.name ≠ name) = true)
    (Error.mk .unknownWorkObjectKind ("unknown persisted kind for node " ++ nodeText key))
  raiseIf (strOf node.properties .kind ≠ some key.1.name)
    (Error.mk .unknownWorkObjectKind ("kind/label mismatch for node " ++ nodeText key))
  readableOrRaise key do
    let props ← validateCanonicalWorkObjectProperties key node.properties node.archived true
    build key props node.archived

end DevGraph.Work
