import DevGraph.Lib.Interleaving
import DevGraph.Work.Timestamps
import Mathlib.Data.List.AList

/-!
# Schema migrations

The runner that applies the manifest's migrations in order, the journal and the owner record it
keeps in the database, and the database's side of each call. A statement of data definition is
executed between two journal transitions; a change of data commits with its journal record.
-/

namespace DevGraph.Work

open Lib

/-- A uniqueness constraint, as its statement names it. -/
structure ConstraintStatement where
  name : String
  boundVariable : String
  label : String
  property : String
  deriving DecidableEq

/-- Statements that differ in the name of the bound variable define the same constraint. -/
def normalizeDefinition (value : ConstraintStatement) : ConstraintStatement :=
  { value with boundVariable := "m" }

/-- The payload by kind: `schema_ddl` or `transactional_data`. -/
inductive MigrationPayload
  | schemaDdl (statement : ConstraintStatement)
  | transactionalData
  deriving DecidableEq

structure Migration where
  version : Nat
  name : String
  checksum : String
  payload : MigrationPayload
  deriving DecidableEq

def transactionalMigrations : List (Nat × String) :=
  [(23, "canonical_work_object_persistence_v1"), (27, "workflow_metadata_v1"),
    (28, "todo_progress_v1")]

/-- A manifest as loading accepts it: the versions count up from one, the names are distinct, a
constraint is named after its migration, and only known changes of data occur. -/
structure Manifest where
  schemaVersion : Nat
  migrations : List Migration
  ordered : ∀ (i : Nat) (h : i < migrations.length), migrations[i].version = i + 1
  names : (migrations.map Migration.name).Nodup
  constraints : ∀ m ∈ migrations, ∀ statement, m.payload = .schemaDdl statement →
    statement.name = m.name
  known : ∀ m ∈ migrations, m.payload = .transactionalData →
    (m.version, m.name) ∈ transactionalMigrations

structure MigrationStatus where
  ready : Bool
  reason : String
  manifestSchemaVersion : Nat
  minimumSchemaVersion : Nat
  maximumSchemaVersion : Nat
  currentAppliedVersion : Nat
  applied : List (Nat × String)
  deriving DecidableEq

def MigrationStatus.clean (current : Nat) (manifest : Manifest) : MigrationStatus :=
  ⟨true, "clean", manifest.schemaVersion, 1, manifest.migrations.length, current,
    (manifest.migrations.take current).map fun item =>
      (item.version, String.ofList (item.checksum.toList.take 12))⟩

def MigrationStatus.failed (reason : String) (manifest : Manifest) (current : Nat) :
    MigrationStatus :=
  ⟨false, reason, manifest.schemaVersion, 1, manifest.migrations.length, current, []⟩

inductive SchemaObjectType
  | uniqueness
  | transactionalData
  deriving DecidableEq

structure SchemaObject where
  objectType : SchemaObjectType
  definition : ConstraintStatement
  deriving DecidableEq

structure BootstrapConstraint where
  name : String
  constraintType : SchemaObjectType
  label : String
  properties : List String
  definition : ConstraintStatement
  deriving DecidableEq

inductive OwnerState
  | owned
  | clean
  deriving DecidableEq

structure MigrationOwner where
  ownerAttemptId : Option String
  state : OwnerState
  runnerSchemaVersion : Nat
  deriving DecidableEq

inductive JournalState
  | pending
  | ddlStarted
  | ddlObserved
  | applied
  | recoverableDdlNotApplied
  deriving DecidableEq

/-- The text of a journalled definition: a normalized statement, or the mark of a change of
data. -/
inductive JournalDefinition
  | statement (value : ConstraintStatement)
  | transactionalData (name checksum : String)
  deriving DecidableEq

structure MigrationJournal where
  version : Nat
  name : String
  checksum : String
  schemaObjectName : String
  schemaObjectType : SchemaObjectType
  schemaObjectDefinition : JournalDefinition
  state : JournalState
  ownerAttemptId : String
  startedAt : String
  completedAt : Option String
  runnerSchemaVersion : Nat
  deriving DecidableEq

def runnerSchemaVersion : Nat := 1

def MigrationJournal.pending (migration : Migration) (statement : ConstraintStatement)
    (owner startedAt : String) : MigrationJournal :=
  ⟨migration.version, migration.name, migration.checksum, migration.name, .uniqueness,
    .statement (normalizeDefinition statement), .pending, owner, startedAt, none, 1⟩

def MigrationJournal.transactionalApplied (migration : Migration) (owner completedAt : String) :
    MigrationJournal :=
  ⟨migration.version, migration.name, migration.checksum, migration.name, .transactionalData,
    .transactionalData migration.name migration.checksum, .applied, owner, completedAt,
    some completedAt, 1⟩

/-- No runner is between two transitions of the record. -/
def MigrationJournal.settled (record : MigrationJournal) : Bool :=
  record.state = .applied || record.state = .recoverableDdlNotApplied

abbrev Journal := AList fun _ : Nat => MigrationJournal

/-- What the migrations keep in the database. The changes of data are kept as the versions that
made one, the latest first. -/
structure MigrationDb where
  bootstrap : Option BootstrapConstraint
  owner : Option MigrationOwner
  journal : Journal
  objects : AList fun _ : String => SchemaObject
  dataChanges : List Nat

def MigrationDb.empty : MigrationDb := ⟨none, none, ∅, ∅, []⟩

def MigrationDb.lockOwner (db : MigrationDb) : Option String := db.owner.bind (·.ownerAttemptId)

/-! ## The calls of the database -/

inductive StoreCall
  | inspectBootstrapConstraint
  | executeBootstrap (statement : ConstraintStatement)
  | inspectOwner
  | acquireOwner (attempt : String)
  | recoverOwner (expected new : String) (journal : Option MigrationJournal)
  | releaseOwner (attempt : String)
  | inspectJournal
  | compareAndSetJournal (before : Option MigrationJournal) (after : MigrationJournal)
      (attempt : String)
  | executeDdl (payload : ConstraintStatement)
  | applyTransactionalData (migration : Migration) (attempt completedAt : String)
  | inspectSchemaObject (name : String)

def StoreCall.Value : StoreCall → Type
  | inspectBootstrapConstraint => Option BootstrapConstraint
  | executeBootstrap _ => Unit
  | inspectOwner => Option MigrationOwner
  | acquireOwner _ => Bool
  | recoverOwner _ _ _ => Bool
  | releaseOwner _ => Bool
  | inspectJournal => Journal
  | compareAndSetJournal _ _ _ => Bool
  | executeDdl _ => Unit
  | applyTransactionalData _ _ _ => Bool
  | inspectSchemaObject _ => Option SchemaObject

/-- A call returns a value or raises. -/
abbrev StoreCall.Reply (op : StoreCall) : Type := Except Unit op.Value

namespace MigrationDb

def ownedBy (attempt : String) (db : MigrationDb) : Prop :=
  db.owner = some ⟨some attempt, .owned, 1⟩

instance (attempt : String) (db : MigrationDb) : Decidable (db.ownedBy attempt) :=
  inferInstanceAs (Decidable (db.owner = _))

def settled (db : MigrationDb) : Bool := db.journal.entries.all fun entry => entry.2.settled

def executeBootstrap (statement : ConstraintStatement) (db : MigrationDb) : MigrationDb :=
  match db.bootstrap with
  | some _ => db
  | none => { db with
      bootstrap := some ⟨statement.name, .uniqueness, statement.label, [statement.property],
        normalizeDefinition statement⟩ }

def inspectOwner (db : MigrationDb) : Except Unit (Option MigrationOwner) :=
  match db.owner with
  | none => .ok none
  | some owner =>
    if owner.runnerSchemaVersion = 1 ∧ (owner.state = .owned ↔ owner.ownerAttemptId.isSome) then
      .ok (some owner)
    else .error ()

def acquireOwner (attempt : String) (db : MigrationDb) : Bool × MigrationDb :=
  match db.owner with
  | none => (true, { db with owner := some ⟨some attempt, .owned, 1⟩ })
  | some owner =>
    if owner.ownerAttemptId = some attempt ∨
        owner.ownerAttemptId = none ∧ owner.state = .clean ∧ owner.runnerSchemaVersion = 1 then
      (true, { db with owner := some ⟨some attempt, .owned, owner.runnerSchemaVersion⟩ })
    else (false, db)

/-- The lock passes to another attempt, and with it the record that the owner had started. -/
def recoverOwner (expected new : String) (journal : Option MigrationJournal) (db : MigrationDb) :
    Bool × MigrationDb :=
  match journal with
  | none =>
    if db.ownedBy expected ∧ db.settled then
      (true, { db with owner := some ⟨some new, .owned, 1⟩ })
    else (false, db)
  | some journal =>
    match db.journal.lookup journal.version with
    | none => (false, db)
    | some record =>
      if db.ownedBy expected ∧ record.ownerAttemptId = expected ∧ record.state = .ddlStarted ∧
          record.name = journal.name ∧ record.checksum = journal.checksum ∧
          record.schemaObjectName = journal.schemaObjectName ∧
          record.schemaObjectType = journal.schemaObjectType ∧
          record.schemaObjectDefinition = journal.schemaObjectDefinition ∧
          record.startedAt = journal.startedAt ∧ record.completedAt = none ∧
          record.runnerSchemaVersion = journal.runnerSchemaVersion then
        (true, { db with
          owner := some ⟨some new, .owned, 1⟩
          journal := db.journal.insert journal.version { record with ownerAttemptId := new } })
      else (false, db)

def releaseOwner (attempt : String) (db : MigrationDb) : Bool × MigrationDb :=
  if db.ownedBy attempt ∧ db.settled then
    (true, { db with owner := some ⟨none, .clean, 1⟩ })
  else (false, db)

/-- The record changes only if it is the one expected and the attempt holds the lock. -/
def compareAndSetJournal (before : Option MigrationJournal) (after : MigrationJournal)
    (attempt : String) (db : MigrationDb) : Bool × MigrationDb :=
  if (∀ record ∈ before, record.version = after.version) ∧ db.lockOwner = some attempt ∧
      db.journal.lookup after.version = before then
    (true, { db with journal := db.journal.insert after.version after })
  else (false, db)

/-- A constraint that exists already is left as it is. -/
def executeDdl (payload : ConstraintStatement) (db : MigrationDb) : MigrationDb :=
  match db.objects.lookup payload.name with
  | some _ => db
  | none => { db with
      objects := db.objects.insert payload.name ⟨.uniqueness, normalizeDefinition payload⟩ }

def priorCount (version : Nat) (db : MigrationDb) : Nat :=
  (db.journal.entries.filter fun entry =>
    1 ≤ entry.1 && entry.1 < version && entry.2.state = .applied).length

/-- One transaction: the change of data and its journal record are committed together. -/
def applyTransactionalData (migration : Migration) (attempt completedAt : String)
    (db : MigrationDb) : Except Unit Bool × MigrationDb :=
  if (migration.version, migration.name) ∈ transactionalMigrations ∧
      migration.payload = .transactionalData ∧ db.ownedBy attempt ∧
      db.priorCount migration.version = migration.version - 1 ∧
      db.journal.lookup migration.version = none then
    (.ok true, { db with
      journal := db.journal.insert migration.version
        (.transactionalApplied migration attempt completedAt)
      dataChanges := migration.version :: db.dataChanges })
  else (.error (), db)

end MigrationDb

def perform : (op : StoreCall) → MigrationDb → op.Reply × MigrationDb
  | .inspectBootstrapConstraint, db => (.ok db.bootstrap, db)
  | .executeBootstrap statement, db => (.ok (), db.executeBootstrap statement)
  | .inspectOwner, db => (db.inspectOwner, db)
  | .acquireOwner attempt, db => (.ok (db.acquireOwner attempt).1, (db.acquireOwner attempt).2)
  | .recoverOwner expected new journal, db =>
    (.ok (db.recoverOwner expected new journal).1, (db.recoverOwner expected new journal).2)
  | .releaseOwner attempt, db => (.ok (db.releaseOwner attempt).1, (db.releaseOwner attempt).2)
  | .inspectJournal, db => (.ok db.journal, db)
  | .compareAndSetJournal before after attempt, db =>
    (.ok (db.compareAndSetJournal before after attempt).1,
      (db.compareAndSetJournal before after attempt).2)
  | .executeDdl payload, db => (.ok (), db.executeDdl payload)
  | .applyTransactionalData migration attempt completedAt, db =>
    db.applyTransactionalData migration attempt completedAt
  | .inspectSchemaObject name, db => (.ok (db.objects.lookup name), db)

/-- Every call is atomic, and any call may raise, with its effect or without. -/
def Commits (db : MigrationDb) (op : StoreCall) (r : op.Reply) (db' : MigrationDb) : Prop :=
  (r, db') = perform op db ∨ r = .error () ∧ (db' = db ∨ db' = (perform op db).2)

def bootstrapConstraintName : String := "devgraph_migration_version_unique"

def bootstrapDdl : ConstraintStatement :=
  ⟨bootstrapConstraintName, "m", "DevgraphMigration", "version"⟩

def firstFailed : List (Bool × String) → Option String
  | [] => none
  | (valid, reason) :: checks => if valid then firstFailed checks else some reason

def bootstrapReason : Option BootstrapConstraint → Option String
  | none => some "operator_hold_bootstrap_inspection"
  | some value => firstFailed
    [(value.name = bootstrapConstraintName, "operator_hold_bootstrap_name"),
      (value.constraintType = .uniqueness, "operator_hold_bootstrap_type"),
      (value.label = "DevgraphMigration", "operator_hold_bootstrap_label"),
      (value.properties = ["version"], "operator_hold_bootstrap_property"),
      (normalizeDefinition value.definition = bootstrapDdl, "operator_hold_bootstrap_definition")]

def validTimestamp (value : Option String) (required : Bool) : Bool :=
  match value with
  | none => !required
  | some text => (fromisoformat text).isSome

def journalReason (record : MigrationJournal) (migration : Migration) : Option String :=
  if record.runnerSchemaVersion ≠ runnerSchemaVersion then
    some "operator_hold_runner_schema_version"
  else if record.ownerAttemptId = "" then some "operator_hold_journal_owner"
  else if !validTimestamp (some record.startedAt) true ||
      !validTimestamp record.completedAt (record.state = .applied) then
    some "operator_hold_journal_timestamp"
  else if record.state ≠ .applied ∧ record.completedAt ≠ none then
    some "operator_hold_journal_timestamp"
  else if record.name ≠ migration.name ∨ record.checksum ≠ migration.checksum then
    some "checksum_mismatch"
  else match migration.payload with
    | .transactionalData =>
      if record.schemaObjectName ≠ migration.name ∨
          record.schemaObjectType ≠ .transactionalData ∨
          record.schemaObjectDefinition ≠
            .transactionalData migration.name migration.checksum then
        some "schema_definition_mismatch"
      else none
    | .schemaDdl statement =>
      if record.schemaObjectName ≠ migration.name ∨ record.schemaObjectType ≠ .uniqueness ∨
          record.schemaObjectDefinition ≠ .statement (normalizeDefinition statement) then
        some "schema_definition_mismatch"
      else none

/-- Nothing found is an absent object. -/
def objectReason (observed : Option SchemaObject) (expected : JournalDefinition) :
    Option String :=
  match observed with
  | none => some "operator_hold_schema_object_absent"
  | some object =>
    if object.objectType ≠ .uniqueness ∨
        .statement (normalizeDefinition object.definition) ≠ expected then
      some "schema_definition_mismatch"
    else none

/-! ## The runner -/

/-- How a run ends early: with a failed status, or with an exception of the database. -/
inductive Halt
  | failed (reason : String) (current : Nat)
  | raised

abbrev Runner := ExceptT Halt (Client StoreCall StoreCall.Reply)

namespace Runner

variable {α : Type}

def halt (reason : String) (current : Nat) : Runner α := throw (.failed reason current)

/-- A call whose exception ends the run. -/
def ask (halted : Halt) (op : StoreCall) : Runner op.Value :=
  ExceptT.mk (.call op fun r => .done (r.mapError fun _ => halted))

/-- A call whose exception the runner looks at. -/
def attempt (op : StoreCall) : Runner op.Reply :=
  ExceptT.mk (.call op fun r => .done (.ok r))

def require (condition : Bool) (reason : String) (current : Nat) : Runner Unit :=
  if condition then pure () else halt reason current

def hold (mismatch : Option String) (current : Nat) : Runner Unit :=
  match mismatch with
  | none => pure ()
  | some reason => halt reason current

end Runner

/-- The failure of any call once the lock is held. -/
def unexpectedFailure : Halt := .failed "operator_hold_unexpected_store_failure" 0

open Runner

section Reading

variable (manifest : Manifest)

def readJournal (current : Nat) : Runner Journal := do
  let byVersion ← ask (.failed "operator_hold_journal_inspection" current) .inspectJournal
  require (byVersion.keys.all fun version =>
      1 ≤ version && version ≤ manifest.migrations.length)
    "operator_hold_journal_version_out_of_range" current
  hold (manifest.migrations.findSome? fun migration =>
    (byVersion.lookup migration.version).bind fun record => journalReason record migration) current
  pure byVersion

/-- One round of the loop over the manifest: how many are applied, and whether to go on. -/
def statusRound (byVersion : Journal) (applied : Nat) (migration : Migration) :
    Runner (Option Nat) :=
  match byVersion.lookup migration.version with
  | none => pure none
  | some record => do
    hold (journalReason record migration) applied
    require (record.state = .applied)
      (if record.state = .recoverableDdlNotApplied then "recoverable_ddl_not_applied"
        else "operator_hold_journal_state") applied
    match migration.payload with
    | .schemaDdl _ => do
      let observed ← ask (.failed "operator_hold_schema_inspection" applied)
        (.inspectSchemaObject migration.name)
      hold (objectReason observed record.schemaObjectDefinition) applied
    | .transactionalData => pure ()
    pure (some (applied + 1))

def statusLoop (byVersion : Journal) : List Migration → Nat → Runner Nat
  | [], applied => pure applied
  | migration :: rest, applied => do
    match ← statusRound byVersion applied migration with
    | none => pure applied
    | some applied => statusLoop byVersion rest applied

def readStatus : Runner Unit := do
  let bootstrap ← ask (.failed "operator_hold_bootstrap_inspection" 0) .inspectBootstrapConstraint
  hold (bootstrapReason bootstrap) 0
  match ← ask (.failed "operator_hold_owner_inspection" 0) .inspectOwner with
  | none => halt "operator_hold_owner_missing" 0
  | some owner => do
    require (owner.runnerSchemaVersion = runnerSchemaVersion)
      "operator_hold_runner_schema_version" 0
    require (owner.state ≠ .owned) "migration_lock_busy" 0
    require (owner.state = .clean && owner.ownerAttemptId = none)
      "operator_hold_owner_posture" 0
    let byVersion ← ask (.failed "operator_hold_journal_inspection" 0) .inspectJournal
    require (byVersion.keys.all fun version =>
        1 ≤ version && version ≤ manifest.migrations.length)
      "operator_hold_journal_version_out_of_range" 0
    let applied ← statusLoop byVersion manifest.migrations 0
    require (applied = manifest.migrations.length) "unapplied_migrations" applied

/-- The status that a run ends with, unless an exception leaves it. -/
def outcome (p : Runner Unit) : Client StoreCall StoreCall.Reply (Except Unit MigrationStatus) :=
  p.run.bind fun
    | .ok () => .done (.ok (.clean manifest.migrations.length manifest))
    | .error (.failed reason current) => .done (.ok (.failed reason manifest current))
    | .error .raised => .done (.error ())

def migrationStatus : Client StoreCall StoreCall.Reply (Except Unit MigrationStatus) :=
  outcome manifest (readStatus manifest)

end Reading

/-- One call of the runner: the callers name every attempt, the operator may name an owner to
recover from, and the clock gives each version's record its two times. -/
structure MigrationAttempt where
  attemptId : String
  named : attemptId ≠ ""
  recoveryOwnerAttemptId : Option String
  startedNow : Nat → Datetime
  completedNow : Nat → Datetime

section Applying

variable (manifest : Manifest) (a : MigrationAttempt)

def bootstrap : Runner Unit := do
  let halted := Halt.failed "operator_hold_bootstrap_command_failed" 0
  match ← ask halted .inspectBootstrapConstraint with
  | some constraint => hold (bootstrapReason (some constraint)) 0
  | none => do
    ask halted (.executeBootstrap bootstrapDdl)
    let constraint ← ask halted .inspectBootstrapConstraint
    hold (bootstrapReason constraint) 0

/-- From a foreign owner the lock is taken with the one record it had started, or with none when
all its records are settled. -/
def recoveryJournal (current : String) (byVersion : Journal) : Option (Option MigrationJournal) :=
  let records := byVersion.entries.map (·.2)
  let recoverable := records.filter fun record =>
    record.state = .ddlStarted && record.ownerAttemptId = current
  match recoverable with
  | [record] =>
    if records.all fun record => record.state = .applied || record.state = .ddlStarted then
      some (some record)
    else none
  | [] => if records.all MigrationJournal.settled then some none else none
  | _ => none

/-- The lock is free, held by this attempt, or to be recovered from the owner that was named. -/
def claimOwnership (owner : Option String) (byVersion : Journal) : Runner Unit :=
  match owner with
  | none => do
    require (byVersion.entries.all fun entry =>
      entry.2.settled || entry.2.ownerAttemptId = a.attemptId) "operator_hold_owner_mismatch" 0
    let acquired ← ask .raised (.acquireOwner a.attemptId)
    require acquired "migration_lock_busy" 0
  | some current =>
    if current = a.attemptId then pure ()
    else do
      require (a.recoveryOwnerAttemptId = some current) "migration_lock_busy" 0
      match recoveryJournal current byVersion with
      | none => halt "operator_hold_recovery_posture" 0
      | some journal => do
        let recovered ← ask .raised (.recoverOwner current a.attemptId journal)
        require recovered "migration_lock_busy" 0

def takeOwnership : Runner Unit := do
  bootstrap
  let owner ← ask (.failed "operator_hold_owner_inspection" 0) .inspectOwner
  let byVersion ← readJournal manifest 0
  claimOwnership a (owner.bind (·.ownerAttemptId)) byVersion

def transition (before : Option MigrationJournal) (after : MigrationJournal) : Runner Unit := do
  let changed ← ask unexpectedFailure (.compareAndSetJournal before after a.attemptId)
  require changed "operator_hold_journal_transition" 0

/-- A record of this attempt: its own, one adopted from another attempt, or a new one. -/
def openRecord (migration : Migration) (statement : ConstraintStatement) :
    Option MigrationJournal → Runner MigrationJournal
  | some record =>
    if record.ownerAttemptId = a.attemptId then pure record
    else do
      require (record.state = .recoverableDdlNotApplied) "operator_hold_owner_mismatch"
        (migration.version - 1)
      let adopted := { record with
        state := .pending
        ownerAttemptId := a.attemptId
        startedAt := isoformat (a.startedNow migration.version)
        completedAt := none }
      transition a (some record) adopted
      pure adopted
  | none => do
    let record := MigrationJournal.pending migration statement a.attemptId
      (isoformat (a.startedNow migration.version))
    transition a none record
    pure record

def reopenRecord (record : MigrationJournal) : Runner MigrationJournal :=
  if record.state = .recoverableDdlNotApplied then do
    let pending := { record with
      state := .pending
      ownerAttemptId := a.attemptId
      startedAt := isoformat (a.startedNow record.version) }
    transition a (some record) pending
    pure pending
  else pure record

/-- With the record comes whether an earlier run had started it. -/
def startRecord (preexistingStarted : Bool) (record : MigrationJournal) :
    Runner (MigrationJournal × Bool) :=
  if record.state = .pending then do
    let started := { record with state := .ddlStarted }
    transition a (some record) started
    pure (started, false)
  else pure (record, preexistingStarted)

def completeRecord (record : MigrationJournal) : Runner MigrationJournal := do
  let applied := { record with
    state := .applied
    completedAt := some (isoformat (a.completedNow record.version)) }
  transition a (some record) applied
  pure applied

/-- The constraint is looked up and must be the journalled one. -/
def checkObject (migration : Migration) (record : MigrationJournal) (current : Nat) :
    Runner Unit := do
  let observed ← ask unexpectedFailure (.inspectSchemaObject migration.name)
  hold (objectReason observed record.schemaObjectDefinition) current

/-- The constraint is known to be absent: the record waits for another run. -/
def retreat (record : MigrationJournal) : Runner Unit := do
  transition a (some record) { record with state := .recoverableDdlNotApplied }
  let released ← ask unexpectedFailure (.releaseOwner a.attemptId)
  require released "operator_hold_owner_release" 0
  halt "recoverable_ddl_not_applied" 0

/-- A record that an earlier run had started is settled by what the database shows. -/
def reconcile (migration : Migration) (record : MigrationJournal) : Runner Unit := do
  match ← ask unexpectedFailure (.inspectSchemaObject migration.name) with
  | none => retreat a record
  | some observed => hold (objectReason (some observed) record.schemaObjectDefinition) 0

def executeStarted (migration : Migration) (statement : ConstraintStatement)
    (record : MigrationJournal) : Runner Unit := do
  match ← Runner.attempt (.executeDdl statement) with
  | .error _ => do
    let observed ← ask unexpectedFailure (.inspectSchemaObject migration.name)
    require (Option.isNone observed) "operator_hold_ddl_ambiguous" 0
    retreat a record
  | .ok _ => checkObject migration record 0

def applyStarted (migration : Migration) (statement : ConstraintStatement)
    (preexistingStarted : Bool) (record : MigrationJournal) : Runner MigrationJournal := do
  if preexistingStarted then reconcile a migration record
  else executeStarted a migration statement record
  let observed := { record with state := .ddlObserved }
  transition a (some record) observed
  completeRecord a observed

def applyObserved (migration : Migration) (record : MigrationJournal) :
    Runner MigrationJournal := do
  checkObject migration record (migration.version - 1)
  completeRecord a record

/-- The transitions up to the statement. -/
def prepareRecord (migration : Migration) (statement : ConstraintStatement)
    (record : Option MigrationJournal) : Runner (MigrationJournal × Bool) := do
  let opened ← openRecord a migration statement record
  let reopened ← reopenRecord a opened
  startRecord a (record.any fun record => record.state = .ddlStarted) reopened

/-- The statement, or what an earlier run left of it, and the transitions after it. -/
def finishRecord (migration : Migration) (statement : ConstraintStatement)
    (record : MigrationJournal) (preexistingStarted : Bool) : Runner MigrationJournal :=
  match record.state with
  | .ddlObserved => applyObserved a migration record
  | .ddlStarted => applyStarted a migration statement preexistingStarted record
  | _ => halt "operator_hold_journal_state" 0

def applySchemaDdl (migration : Migration) (statement : ConstraintStatement)
    (record : Option MigrationJournal) : Runner MigrationJournal := do
  let prepared ← prepareRecord a migration statement record
  finishRecord a migration statement prepared.1 prepared.2

def applyTransactional (migration : Migration) (record : Option MigrationJournal) :
    Runner Journal := do
  let current := migration.version - 1
  require record.isNone "operator_hold_journal_state" current
  let changed ← ask unexpectedFailure (.applyTransactionalData migration a.attemptId
    (isoformat (a.completedNow migration.version)))
  require changed "operator_hold_transactional_migration" current
  let refreshed ← readJournal manifest current
  require ((refreshed.lookup migration.version).any fun record => record.state = .applied)
    "operator_hold_transactional_migration" current
  pure refreshed

/-- An applied constraint is looked at again. -/
def recheck (migration : Migration) (record : MigrationJournal) : Runner Unit :=
  match migration.payload with
  | .schemaDdl _ => checkObject migration record (migration.version - 1)
  | .transactionalData => pure ()

def applyNew (byVersion : Journal) (migration : Migration) : Runner Journal :=
  match migration.payload with
  | .transactionalData =>
    applyTransactional manifest a migration (byVersion.lookup migration.version)
  | .schemaDdl statement => do
    let applied ← applySchemaDdl a migration statement (byVersion.lookup migration.version)
    pure (byVersion.insert migration.version applied)

def applyMigration (byVersion : Journal) (migration : Migration) : Runner Journal :=
  match byVersion.lookup migration.version with
  | some record =>
    if record.state = .applied then do
      recheck migration record
      pure byVersion
    else applyNew manifest a byVersion migration
  | none => applyNew manifest a byVersion migration

def ownedPosture (attempt : String) (owner : Option MigrationOwner) : Bool :=
  owner = some ⟨some attempt, .owned, runnerSchemaVersion⟩

/-- What a runner does with the lock; the snapshot from before it is never used. -/
def migrateOwned : Runner Unit := do
  let owner ← ask (.failed "operator_hold_owner_inspection" 0) .inspectOwner
  require (ownedPosture a.attemptId owner) "operator_hold_owner_posture" 0
  let byVersion ← readJournal manifest 0
  let _ ← manifest.migrations.foldlM (applyMigration manifest a) byVersion
  let released ← ask unexpectedFailure (.releaseOwner a.attemptId)
  require released "operator_hold_owner_release" 0

def migrate : Runner Unit := do
  takeOwnership manifest a
  migrateOwned manifest a

def applyMigrations : Client StoreCall StoreCall.Reply (Except Unit MigrationStatus) :=
  outcome manifest (migrate manifest a)

end Applying

end DevGraph.Work
