import DevGraph.Work.Migrations

/-!
# The journal under concurrent runners

Every runner alone keeps the journal in order: it relies only on facts that no call takes back,
and every write of a record is conditional on the lock. So the invariant of the journal holds in
every interleaving of runners that crash, rerun and recover each other's lock.
-/

namespace DevGraph.Proofs

open Lib Work

variable {before : Option MigrationJournal} {post : Unit → World → Prop}
    {earlier : List Migration}

variable {after record : MigrationJournal} {version : Nat} {byVersion : Journal}
  {rest : List Migration}

/-- What a record of a migration must contain. -/
structure Sound (record : MigrationJournal) (migration : Migration) : Prop where
  runner : record.runnerSchemaVersion = 1
  owner : record.ownerAttemptId ≠ ""
  started : (fromisoformat record.startedAt).isSome = true
  completed : if record.state = .applied then
      ∃ text, record.completedAt = some text ∧ (fromisoformat text).isSome = true
    else record.completedAt = none
  name : record.name = migration.name
  checksum : record.checksum = migration.checksum
  object : record.schemaObjectName = migration.name
  definition : match migration.payload with
    | .schemaDdl statement => record.schemaObjectType = .uniqueness ∧
        record.schemaObjectDefinition = .statement (normalizeDefinition statement)
    | .transactionalData => record.schemaObjectType = .transactionalData ∧
        record.schemaObjectDefinition = .transactionalData migration.name migration.checksum

lemma journalReason_eq_none {migration : Migration} :
    journalReason record migration = none ↔ Sound record migration := by
  constructor
  · intro h
    simp only [journalReason, runnerSchemaVersion, ne_eq, ite_eq_iff, reduceCtorEq, and_false,
      false_or, not_not, Bool.or_eq_true, Bool.not_eq_true', not_or, Bool.not_eq_false,
      not_and, validTimestamp] at h
    obtain ⟨hrunner, howner, ⟨hstarted, hcompleted⟩, hnone, ⟨hname, hchecksum⟩, hpayload⟩ := h
    refine ⟨hrunner, howner, hstarted, ?_, hname, hchecksum, ?_, ?_⟩
    · split
      · rename_i happlied
        cases htext : record.completedAt with
        | none => simp [htext, happlied] at hcompleted
        | some text => exact ⟨text, rfl, by simpa [htext] using hcompleted⟩
      · rename_i happlied
        exact hnone happlied
    · cases hkind : migration.payload <;> simp_all
    · cases hkind : migration.payload <;> simp_all
  · intro h
    obtain ⟨hrunner, howner, hstarted, hcompleted, hname, hchecksum, hobject, hdefinition⟩ := h
    have hcompleted' : validTimestamp record.completedAt (record.state = .applied) = true ∧
        (record.state ≠ .applied → record.completedAt = none) := by
      split at hcompleted
      · obtain ⟨text, htext, hvalid⟩ := hcompleted
        exact ⟨by simpa [htext, validTimestamp] using hvalid, fun hnot => absurd ‹_› hnot⟩
      · rename_i hnot
        exact ⟨by simp [hcompleted, hnot, validTimestamp], fun _ => hcompleted⟩
    simp only [journalReason, runnerSchemaVersion, hrunner, howner, hname, hchecksum, hobject]
    cases hkind : migration.payload <;>
      simp_all [validTimestamp]

lemma isSome_isoformat (t : Datetime) : (fromisoformat (isoformat t)).isSome = true := by
  rw [fromisoformat_isoformat, Option.isSome_some]

abbrev World := MigrationDb × List (Σ op : StoreCall, op.Reply)

def Applied (db : MigrationDb) (version : Nat) : Prop :=
  ∃ record, db.journal.lookup version = some record ∧ record.state = .applied

def Prior (db : MigrationDb) (version : Nat) : Prop :=
  ∀ u, 1 ≤ u → u < version → Applied db u

def constraintObject (statement : ConstraintStatement) : SchemaObject :=
  ⟨.uniqueness, normalizeDefinition statement⟩

def bootstrapConstraint : BootstrapConstraint :=
  ⟨bootstrapConstraintName, .uniqueness, "DevgraphMigration", ["version"], bootstrapDdl⟩

/-- The constraint exists, and a runner has seen it. -/
def Seen (w : World) (name : String) (statement : ConstraintStatement) : Prop :=
  w.1.objects.lookup name = some (constraintObject statement) ∧
    ⟨.inspectSchemaObject name, .ok (some (constraintObject statement))⟩ ∈ w.2

structure Intact (manifest : Manifest) (w : World) : Prop where
  bootstrap : ∀ constraint, w.1.bootstrap = some constraint → constraint = bootstrapConstraint
  owner : ∀ owner, w.1.owner = some owner →
    (∃ attempt, attempt ≠ "" ∧ owner = ⟨some attempt, .owned, 1⟩) ∨ owner = ⟨none, .clean, 1⟩
  records : ∀ version record, w.1.journal.lookup version = some record →
    ∃ m ∈ manifest.migrations, m.version = version ∧ record.version = version ∧ Sound record m ∧
      (m.payload = .transactionalData → record.state = .applied)
  ordered : ∀ version record, w.1.journal.lookup version = some record →
    ∀ u, 1 ≤ u → u < version → Applied w.1 u
  observed : ∀ m ∈ manifest.migrations, ∀ statement, m.payload = .schemaDdl statement →
    ∀ record, w.1.journal.lookup m.version = some record →
      record.state = .applied ∨ record.state = .ddlObserved → Seen w m.name statement
  objects : ∀ m ∈ manifest.migrations, ∀ statement, m.payload = .schemaDdl statement →
    ∀ object, w.1.objects.lookup m.name = some object → object = constraintObject statement
  changes : ∀ m ∈ manifest.migrations, m.payload = .transactionalData →
    w.1.dataChanges.count m.version ≤ 1 ∧
      (Applied w.1 m.version ↔ m.version ∈ w.1.dataChanges)
  holder : ∀ version record, w.1.journal.lookup version = some record →
    record.settled = false → w.1.lockOwner = some record.ownerAttemptId

structure Grows (w w' : World) : Prop where
  bootstrap : ∀ constraint, w.1.bootstrap = some constraint → w'.1.bootstrap = some constraint
  applied : ∀ version record, w.1.journal.lookup version = some record →
    record.state = .applied → w'.1.journal.lookup version = some record
  objects : ∀ name object, w.1.objects.lookup name = some object →
    w'.1.objects.lookup name = some object
  calls : w.2 ⊆ w'.2

lemma Grows.refl (w : World) : Grows w w :=
  ⟨fun _ h => h, fun _ _ h _ => h, fun _ _ h => h, List.Subset.refl _⟩

lemma Grows.trans {w w' w'' : World} (h : Grows w w') (h' : Grows w' w'') : Grows w w'' :=
  ⟨fun c hc => h'.bootstrap c (h.bootstrap c hc),
    fun v r hr happlied => h'.applied v r (h.applied v r hr happlied) happlied,
    fun n o ho => h'.objects n o (h.objects n o ho), List.Subset.trans h.calls h'.calls⟩

lemma Applied.later {w w' : World} (h : Applied w.1 version) (hgrows : Grows w w') :
    Applied w'.1 version := by
  obtain ⟨record, hrecord, happlied⟩ := h
  exact ⟨record, hgrows.applied version record hrecord happlied, happlied⟩

lemma not_applied {db : MigrationDb} (hrecord : db.journal.lookup version = some record)
    (hstate : record.state ≠ .applied) : ¬Applied db version := by
  rintro ⟨applied, hlookup, happlied⟩
  rw [hrecord, Option.some.injEq] at hlookup
  exact hstate (hlookup ▸ happlied)

lemma Prior.later {w w' : World} (h : Prior w.1 version) (hgrows : Grows w w') :
    Prior w'.1 version :=
  fun u hpos hlt => (h u hpos hlt).later hgrows

lemma Seen.later {w w' : World} {name : String} {statement : ConstraintStatement}
    (h : Seen w name statement) (hgrows : Grows w w') : Seen w' name statement :=
  ⟨hgrows.objects _ _ h.1, hgrows.calls h.2⟩

section Manifest

variable {manifest : Manifest}

lemma version_mem {m : Migration} (hm : m ∈ manifest.migrations) :
    1 ≤ m.version ∧ m.version ≤ manifest.migrations.length := by
  obtain ⟨i, hi, rfl⟩ := List.mem_iff_getElem.1 hm
  rw [manifest.ordered i hi]
  omega

lemma migration_unique {m m' : Migration} (hm : m ∈ manifest.migrations)
    (hm' : m' ∈ manifest.migrations) (h : m.version = m'.version) : m = m' := by
  obtain ⟨i, hi, rfl⟩ := List.mem_iff_getElem.1 hm
  obtain ⟨j, hj, rfl⟩ := List.mem_iff_getElem.1 hm'
  rw [manifest.ordered i hi, manifest.ordered j hj] at h
  obtain rfl : i = j := by omega
  rfl

lemma migration_named {m m' : Migration} (hm : m ∈ manifest.migrations)
    (hm' : m' ∈ manifest.migrations) (h : m.name = m'.name) : m = m' :=
  List.inj_on_of_nodup_map manifest.names hm hm' h

end Manifest

lemma not_applied_version_zero {manifest : Manifest} {w : World} (h : Intact manifest w)
    (hrecord : w.1.journal.lookup version = some record) : 1 ≤ version := by
  obtain ⟨m, hm, rfl, -⟩ := h.records version record hrecord
  exact (version_mem hm).1

/-- Beside the version that is being worked on there are only applied ones. -/
lemma others_applied {manifest : Manifest} {w : World} (h : Intact manifest w)
    (hprior : Prior w.1 version) (hnot : ¬Applied w.1 version)
    (hpos : 1 ≤ version) {other : Nat} (hne : other ≠ version)
    (hrecord : w.1.journal.lookup other = some record) : record.state = .applied := by
  obtain hlt | hgt := Nat.lt_or_gt_of_ne hne
  · by_contra hstate
    exact not_applied hrecord hstate (hprior other (not_applied_version_zero h hrecord) hlt)
  · exact absurd (h.ordered other record hrecord version hpos hgt) hnot

/-! ## What a runner's calls do -/

/-- A record that the attempt may write in place of the one it expects. -/
structure RecordMove (manifest : Manifest) (attempt : String) (w : World)
    (before : Option MigrationJournal) (after : MigrationJournal) : Prop where
  migration : ∃ m ∈ manifest.migrations, m.version = after.version ∧ Sound after m ∧
    ∃ statement, m.payload = .schemaDdl statement ∧
      (after.state = .applied ∨ after.state = .ddlObserved → Seen w m.name statement)
  owner : after.ownerAttemptId = attempt
  unapplied : ∀ record ∈ before, record.state ≠ .applied
  prior : ∀ u, 1 ≤ u → u < after.version → Applied w.1 u

/-- The calls that an attempt makes, with what it knows when it makes them. -/
def Allowed (manifest : Manifest) (attempt : String) (w : World) : StoreCall → Prop
  | .executeBootstrap statement => statement = bootstrapDdl
  | .acquireOwner caller => caller = attempt
  | .recoverOwner _ new _ => new = attempt
  | .releaseOwner caller => caller = attempt
  | .compareAndSetJournal before after caller =>
    caller = attempt ∧ RecordMove manifest attempt w before after
  | .executeDdl payload => ∃ m ∈ manifest.migrations, m.payload = .schemaDdl payload
  | .applyTransactionalData migration caller completedAt =>
    caller = attempt ∧ migration ∈ manifest.migrations ∧
      (fromisoformat completedAt).isSome = true ∧
      ∀ u, 1 ≤ u → u < migration.version → Applied w.1 u
  | _ => True

lemma Allowed.later {manifest : Manifest} {attempt : String} {w w' : World} {op : StoreCall}
    (h : Allowed manifest attempt w op) (hgrows : Grows w w') :
    Allowed manifest attempt w' op := by
  cases op with
  | compareAndSetJournal before after caller =>
    obtain ⟨hcaller, ⟨⟨m, hm, hversion, hsound, statement, hpayload, hseen⟩, howner, hbefore,
      hprior⟩⟩ := h
    exact ⟨hcaller, ⟨m, hm, hversion, hsound, statement, hpayload,
      fun hstate => (hseen hstate).later hgrows⟩, howner, hbefore, Prior.later hprior hgrows⟩
  | applyTransactionalData migration caller completedAt =>
    exact ⟨h.1, h.2.1, h.2.2.1, Prior.later h.2.2.2 hgrows⟩
  | _ => exact h

/-- A call by the attempt changes the journal only with the lock, which it held before or was
handed by this very call. -/
def WritesOwned (attempt : String) (w : World) (op : StoreCall) (w' : World) : Prop :=
  w'.1.journal ≠ w.1.journal → w'.1.lockOwner = some attempt ∧
    (w.1.lockOwner = some attempt ∨
      ∃ expected record, op = .recoverOwner expected attempt (some record) ∧
        w.1.lockOwner = some expected)

structure CallKept (manifest : Manifest) (attempt : String) (w : World) (op : StoreCall)
    (w' : World) : Prop where
  intact : Intact manifest w'
  grows : Grows w w'
  writes : WritesOwned attempt w op w'

section Calls

variable {manifest : Manifest} {attempt : String} {w w' : World} {op : StoreCall}
  {db : MigrationDb} {calls calls' : List (Σ op : StoreCall, op.Reply)}

lemma Intact.logged (h : Intact manifest (db, calls)) (hcalls : calls ⊆ calls') :
    Intact manifest (db, calls') :=
  { h with
    observed := fun m hm statement hpayload record hrecord hstate =>
      ⟨(h.observed m hm statement hpayload record hrecord hstate).1,
        hcalls (h.observed m hm statement hpayload record hrecord hstate).2⟩ }

lemma Intact.unchanged (h : Intact manifest w) : CallKept manifest attempt w op w :=
  ⟨h, Grows.refl w, fun hne => absurd rfl hne⟩

lemma Intact.reowned (h : Intact manifest (db, calls)) {owner : MigrationOwner}
    (howner : (∃ attempt, attempt ≠ "" ∧ owner = ⟨some attempt, .owned, 1⟩) ∨
      owner = ⟨none, .clean, 1⟩)
    (hholder : ∀ version record, db.journal.lookup version = some record →
      record.settled = false → owner.ownerAttemptId = some record.ownerAttemptId) :
    CallKept manifest attempt (db, calls) op ({ db with owner := some owner }, calls) := by
  refine ⟨{ h with owner := fun owner' howner' => ?_, holder := hholder },
    { Grows.refl (db, calls) with }, fun hne => absurd rfl hne⟩
  obtain rfl : owner = owner' := by simpa using howner'
  exact howner

/-- A record is written for the first version that is not applied. -/
lemma Intact.written (h : Intact manifest (db, calls)) {m : Migration}
    {owner : Option MigrationOwner} {dataChanges : List Nat}
    (hm : m ∈ manifest.migrations) (hversion : after.version = m.version)
    (hsound : Sound after m) (hkind : m.payload = .transactionalData → after.state = .applied)
    (hprior : Prior db m.version) (hnot : ¬Applied db m.version)
    (hseen : ∀ statement, m.payload = .schemaDdl statement →
      after.state = .applied ∨ after.state = .ddlObserved → Seen (db, calls) m.name statement)
    (hchanges : dataChanges = if m.payload = .transactionalData then
      m.version :: db.dataChanges else db.dataChanges)
    (hattempt : attempt ≠ "") (howner : owner = some ⟨some attempt, .owned, 1⟩)
    (hholder : after.ownerAttemptId = attempt) (hlock : db.lockOwner = some attempt ∨
      ∃ expected record, op = .recoverOwner expected attempt (some record) ∧
        db.lockOwner = some expected) :
    CallKept manifest attempt (db, calls) op ({ db with
      owner := owner
      journal := db.journal.insert m.version after
      dataChanges := dataChanges }, calls) := by
  have hpos := (version_mem hm).1
  have hgrows : Grows (db, calls) ({ db with
      owner := owner
      journal := db.journal.insert m.version after
      dataChanges := dataChanges }, calls) :=
    { Grows.refl (db, calls) with
      applied := by
        intro version record hrecord hstate
        refine (AList.lookup_insert_ne ?_).trans hrecord
        rintro rfl
        exact hnot ⟨record, hrecord, hstate⟩ }
  have hcases : ∀ {version record},
      (db.journal.insert m.version after).lookup version = some record →
      version = m.version ∧ record = after ∨
        version ≠ m.version ∧ db.journal.lookup version = some record ∧
          record.state = .applied := by
    intro version record hrecord
    by_cases hsame : version = m.version
    · subst hsame
      rw [AList.lookup_insert, Option.some.injEq] at hrecord
      exact .inl ⟨rfl, hrecord.symm⟩
    · rw [AList.lookup_insert_ne hsame] at hrecord
      exact .inr ⟨hsame, hrecord, others_applied h hprior hnot hpos hsame hrecord⟩
  refine ⟨⟨h.bootstrap, ?_, ?_, ?_, ?_, h.objects, ?_, ?_⟩, hgrows, fun _ => ⟨?_, hlock⟩⟩
  · intro owner' howner'
    exact .inl ⟨attempt, hattempt, by simpa [howner, eq_comm] using howner'⟩
  · intro version record hrecord
    obtain ⟨rfl, rfl⟩ | ⟨-, hold, -⟩ := hcases hrecord
    · exact ⟨m, hm, rfl, hversion, hsound, hkind⟩
    · exact h.records version record hold
  · intro version record hrecord u hu hlt
    obtain ⟨rfl, rfl⟩ | ⟨-, hold, -⟩ := hcases hrecord
    · exact (hprior u hu hlt).later hgrows
    · exact (h.ordered version record hold u hu hlt).later hgrows
  · intro m' hm' statement hpayload record hrecord hstate
    obtain ⟨hsame, rfl⟩ | ⟨-, hold, -⟩ := hcases hrecord
    · obtain rfl := migration_unique hm' hm hsame
      exact (hseen statement hpayload hstate).later hgrows
    · exact (h.observed m' hm' statement hpayload record hold hstate).later hgrows
  · intro m' hm' hpayload
    obtain ⟨hcount, hiff⟩ := h.changes m' hm' hpayload
    by_cases hsame : m' = m
    · subst hsame
      have hnew : m'.version ∉ db.dataChanges := fun hmem => hnot (hiff.2 hmem)
      simp only [hchanges, hpayload, if_true, List.count_cons_self, List.count_eq_zero.2 hnew,
        List.mem_cons, true_or, iff_true, Nat.zero_add, le_refl, true_and]
      exact ⟨after, AList.lookup_insert _, hkind hpayload⟩
    · have hne : m'.version ≠ m.version := fun heq => hsame (migration_unique hm' hm heq)
      have hother : dataChanges.count m'.version = db.dataChanges.count m'.version := by
        rw [hchanges]
        split
        · exact List.count_cons_of_ne (Ne.symm hne)
        · rfl
      refine ⟨hother.trans_le hcount, ?_⟩
      rw [← List.count_pos_iff, hother, List.count_pos_iff, ← hiff, Applied, Applied]
      simp only [AList.lookup_insert_ne hne]
  · intro version record hrecord hsettled
    obtain ⟨rfl, rfl⟩ | ⟨-, -, hstate⟩ := hcases hrecord
    · simp [MigrationDb.lockOwner, howner, hholder]
    · simp [MigrationJournal.settled, hstate] at hsettled
  · simp [MigrationDb.lockOwner, howner]

lemma lookup_settled {db : MigrationDb} (h : db.settled = true)
    (hrecord : db.journal.lookup version = some record) :
    record.settled = true :=
  List.all_eq_true.1 h _ (AList.mem_lookup_iff.1 hrecord)

lemma Intact.executeBootstrap (h : Intact manifest (db, calls)) :
    CallKept manifest attempt (db, calls) op (db.executeBootstrap bootstrapDdl, calls) := by
  unfold MigrationDb.executeBootstrap
  cases hbootstrap : db.bootstrap with
  | some constraint => exact h.unchanged
  | none =>
    refine ⟨{ h with bootstrap := fun constraint hconstraint => ?_ },
      { Grows.refl (db, calls) with bootstrap := fun constraint hconstraint => ?_ },
      fun hne => absurd rfl hne⟩
    · exact (Option.some.inj hconstraint).symm
    · exact absurd (hbootstrap.symm.trans hconstraint) (by simp)

lemma Intact.acquireOwner (h : Intact manifest (db, calls)) (hattempt : attempt ≠ "") :
    CallKept manifest attempt (db, calls) op ((db.acquireOwner attempt).2, calls) := by
  have hnew : (∃ a, a ≠ "" ∧ (⟨some attempt, .owned, 1⟩ : MigrationOwner) = ⟨some a, .owned, 1⟩) ∨
      (⟨some attempt, .owned, 1⟩ : MigrationOwner) = ⟨none, .clean, 1⟩ :=
    .inl ⟨attempt, hattempt, rfl⟩
  cases howner : db.owner with
  | none =>
    rw [MigrationDb.acquireOwner, howner]
    refine h.reowned hnew fun version record hrecord hsettled => ?_
    have hlock := h.holder version record hrecord hsettled
    simp [MigrationDb.lockOwner, howner] at hlock
  | some owner =>
    simp only [MigrationDb.acquireOwner, howner]
    split
    · rename_i hcond
      obtain ⟨a, -, rfl⟩ | rfl := h.owner owner howner
      · obtain rfl : a = attempt := by simpa using hcond
        exact h.reowned hnew fun version record hrecord hsettled => by
          simpa [MigrationDb.lockOwner, howner] using h.holder version record hrecord hsettled
      · refine h.reowned hnew fun version record hrecord hsettled => ?_
        have hlock := h.holder version record hrecord hsettled
        simp [MigrationDb.lockOwner, howner] at hlock
    · exact h.unchanged

lemma Intact.releaseOwner (h : Intact manifest (db, calls)) :
    CallKept manifest attempt (db, calls) op ((db.releaseOwner attempt).2, calls) := by
  unfold MigrationDb.releaseOwner
  split
  · rename_i hcond
    refine h.reowned (.inr rfl) fun version record hrecord hsettled => ?_
    simp [lookup_settled hcond.2 hrecord] at hsettled
  · exact h.unchanged

/-- The record that another attempt had started changes hands with the lock. -/
lemma Intact.recoverOwner (h : Intact manifest (db, calls)) (hattempt : attempt ≠ "")
    {expected : String} {journal : Option MigrationJournal} :
    CallKept manifest attempt (db, calls) (.recoverOwner expected attempt journal)
      ((db.recoverOwner expected attempt journal).2, calls) := by
  unfold MigrationDb.recoverOwner
  cases journal with
  | none =>
    simp only
    split
    · rename_i hcond
      refine h.reowned (.inl ⟨attempt, hattempt, rfl⟩) fun version record hrecord hsettled => ?_
      simp [lookup_settled hcond.2 hrecord] at hsettled
    · exact h.unchanged
  | some journal =>
    cases hrecord : db.journal.lookup journal.version with
    | none =>
      simp only [hrecord]
      exact h.unchanged
    | some record =>
      simp only [hrecord]
      split
      · rename_i hcond
        obtain ⟨howned, -, hstate, -⟩ := hcond
        obtain ⟨m, hm, hversion, hrecordVersion, hsound, hkind⟩ := h.records _ _ hrecord
        rw [← hversion] at hrecord hrecordVersion ⊢
        have hsound' : Sound { record with ownerAttemptId := attempt } m :=
          { hsound with owner := hattempt }
        have hddl : m.payload ≠ .transactionalData := fun hpayload => by
          simp [hkind hpayload] at hstate
        refine h.written hm hrecordVersion hsound' (fun hpayload => absurd hpayload hddl)
          (h.ordered _ _ hrecord) (not_applied hrecord (by simp [hstate])) ?_
          (by rw [if_neg hddl]) hattempt rfl rfl (.inr ⟨expected, journal, rfl, ?_⟩)
        · intro statement hpayload hcase
          simp [hstate] at hcase
        · simp [MigrationDb.lockOwner, show db.owner = _ from howned]
      · exact h.unchanged

lemma owner_of_lockOwner (h : Intact manifest w) (hlock : w.1.lockOwner = some attempt) :
    w.1.owner = some ⟨some attempt, .owned, 1⟩ := by
  cases howner : w.1.owner with
  | none => simp [MigrationDb.lockOwner, howner] at hlock
  | some owner =>
    obtain ⟨a, -, rfl⟩ | rfl := h.owner owner howner
    · simpa [MigrationDb.lockOwner, howner] using hlock
    · simp [MigrationDb.lockOwner, howner] at hlock

lemma Intact.compareAndSet (h : Intact manifest (db, calls)) (hattempt : attempt ≠ "")
    (hmoves : RecordMove manifest attempt (db, calls) before after) :
    CallKept manifest attempt (db, calls) op
      ((db.compareAndSetJournal before after attempt).2, calls) := by
  unfold MigrationDb.compareAndSetJournal
  split
  · rename_i hcond
    obtain ⟨-, hlock, hlookup⟩ := hcond
    obtain ⟨⟨m, hm, hversion, hsound, statement, hpayload, hseen⟩, howner, hunapplied, hprior⟩ :=
      hmoves
    have hddl : m.payload ≠ .transactionalData := by simp [hpayload]
    rw [← hversion] at hprior hlookup ⊢
    refine h.written hm hversion.symm hsound (fun hkind => absurd hkind hddl) hprior ?_ ?_
      (by rw [if_neg hddl]) hattempt (owner_of_lockOwner h hlock) howner (.inl hlock)
    · rintro ⟨record, hrecord, happlied⟩
      rw [hlookup] at hrecord
      exact hunapplied record hrecord happlied
    · intro statement' hpayload' hstate
      obtain rfl : statement = statement' := by simpa [hpayload] using hpayload'
      exact hseen hstate
  · exact h.unchanged

lemma Intact.applyTransactionalData (h : Intact manifest (db, calls)) (hattempt : attempt ≠ "")
    {migration : Migration} {completedAt : String} (hm : migration ∈ manifest.migrations)
    (htime : (fromisoformat completedAt).isSome = true) (hprior : Prior db migration.version) :
    CallKept manifest attempt (db, calls) op
      ((db.applyTransactionalData migration attempt completedAt).2, calls) := by
  unfold MigrationDb.applyTransactionalData
  split
  · rename_i hcond
    obtain ⟨-, hpayload, howned, -, hnone⟩ := hcond
    have hsound : Sound (.transactionalApplied migration attempt completedAt) migration := by
      refine ⟨rfl, hattempt, htime, ?_, rfl, rfl, rfl, ?_⟩
      · simpa [MigrationJournal.transactionalApplied] using htime
      · rw [hpayload]
        exact ⟨rfl, rfl⟩
    refine h.written hm rfl hsound (fun _ => rfl) hprior ?_ ?_ (by rw [if_pos hpayload]) hattempt
      howned rfl (.inl (by simp [MigrationDb.lockOwner, show db.owner = _ from howned]))
    · rintro ⟨record, hrecord, -⟩
      rw [hnone] at hrecord
      cases hrecord
    · intro statement hddl
      simp [hpayload] at hddl
  · exact h.unchanged

lemma Intact.executeDdl (h : Intact manifest (db, calls)) {m : Migration}
    {payload : ConstraintStatement} (hm : m ∈ manifest.migrations)
    (hpayload : m.payload = .schemaDdl payload) :
    CallKept manifest attempt (db, calls) op (db.executeDdl payload, calls) := by
  have hname := manifest.constraints m hm payload hpayload
  unfold MigrationDb.executeDdl
  cases hlookup : db.objects.lookup payload.name with
  | some object => exact h.unchanged
  | none =>
    have hgrows : Grows (db, calls) ({ db with
        objects := db.objects.insert payload.name (constraintObject payload) }, calls) :=
      { Grows.refl (db, calls) with
        objects := by
          intro name object hobject
          refine (AList.lookup_insert_ne ?_).trans hobject
          rintro rfl
          simp [hlookup] at hobject }
    refine ⟨{ h with
      observed := fun m' hm' statement hpayload' record hrecord hstate =>
        (h.observed m' hm' statement hpayload' record hrecord hstate).later hgrows
      objects := ?_ }, hgrows, fun hne => absurd rfl hne⟩
    intro m' hm' statement hpayload' object hobject
    by_cases hsame : m'.name = payload.name
    · obtain rfl := migration_named hm' hm (hsame.trans hname)
      obtain rfl : payload = statement := by simpa [hpayload] using hpayload'
      rw [hsame] at hobject
      exact (Option.some.inj ((AList.lookup_insert _).symm.trans hobject)).symm
    · rw [AList.lookup_insert_ne hsame] at hobject
      exact h.objects m' hm' statement hpayload' object hobject

theorem perform_kept (h : Intact manifest w) (hattempt : attempt ≠ "")
    (hallowed : Allowed manifest attempt w op) (hdb : w'.1 = (perform op w.1).2)
    (hcalls : w.2 ⊆ w'.2) : CallKept manifest attempt w op w' := by
  obtain ⟨db, calls⟩ := w
  obtain ⟨db', calls'⟩ := w'
  obtain rfl : db' = (perform op db).2 := hdb
  have hearlier : Grows (db, calls) (db, calls') := { Grows.refl (db, calls) with calls := hcalls }
  suffices hkept : CallKept manifest attempt (db, calls') op ((perform op db).2, calls') from
    ⟨hkept.intact, hearlier.trans hkept.grows, hkept.writes⟩
  replace h := h.logged hcalls
  replace hallowed := hallowed.later hearlier
  cases op with
  | inspectBootstrapConstraint | inspectOwner | inspectJournal | inspectSchemaObject name =>
    exact h.unchanged
  | executeBootstrap statement =>
    obtain rfl : statement = bootstrapDdl := hallowed
    exact h.executeBootstrap
  | acquireOwner caller =>
    obtain rfl : caller = attempt := hallowed
    exact h.acquireOwner hattempt
  | recoverOwner expected new journal =>
    obtain rfl : new = attempt := hallowed
    exact h.recoverOwner hattempt
  | releaseOwner caller =>
    obtain rfl : caller = attempt := hallowed
    exact h.releaseOwner
  | compareAndSetJournal before after caller =>
    obtain ⟨rfl, hmoves⟩ := hallowed
    exact h.compareAndSet hattempt hmoves
  | executeDdl payload =>
    obtain ⟨m, hm, hpayload⟩ := hallowed
    exact h.executeDdl hm hpayload
  | applyTransactionalData migration caller completedAt =>
    obtain ⟨rfl, hm, htime, hprior⟩ := hallowed
    exact h.applyTransactionalData hattempt hm htime hprior

end Calls

def migrationDiscipline (manifest : Manifest) :
    Discipline StoreCall StoreCall.Reply World where
  commits := recording Commits
  valid := Intact manifest
  grows := Grows
  refl := Grows.refl
  trans := Grows.trans

/-- The runner is safe, and if it comes to an end it has the postcondition. -/
def Ensures (manifest : Manifest) (a : MigrationAttempt) {α : Type} (p : Runner α)
    (post : α → World → Prop) (w : World) : Prop :=
  (migrationDiscipline manifest).Safe (WritesOwned a.attemptId)
    (fun result w' => ∀ value, result = .ok value → post value w') p.run w

variable {condition : Bool}

section Rules

variable {manifest : Manifest} {a : MigrationAttempt} {α β : Type} {w : World}

lemma Ensures.pure {post : α → World → Prop} {value : α} (h : post value w) :
    Ensures manifest a (Pure.pure value) post w :=
  fun _ heq => Except.ok.inj heq ▸ h

lemma Ensures.halt {post : α → World → Prop} (reason : String) (current : Nat) :
    Ensures manifest a (Runner.halt reason current) post w :=
  nofun

lemma Ensures.imp {p : Runner α} {post post' : α → World → Prop}
    (h : Ensures manifest a p post w) (himp : ∀ value w', post value w' → post' value w') :
    Ensures manifest a p post' w :=
  Discipline.Safe.imp h fun _ w' hpost value heq => himp value w' (hpost value heq)

variable {Q : β → World → Prop}

lemma Ensures.bind {p : Runner α} {f : α → Runner β} {P : α → World → Prop}
    (h : Ensures manifest a p P w) (hw : Intact manifest w)
    (hf : ∀ value w', Intact manifest w' → Grows w w' → P value w' →
      Ensures manifest a (f value) Q w') :
    Ensures manifest a (p >>= f) Q w := by
  refine Discipline.Safe.bind h hw fun result w' hw' hgrows hpost => ?_
  cases result with
  | ok value => exact hf value w' hw' hgrows (hpost value rfl)
  | error halted => exact nofun

lemma Ensures.require {reason : String} {current : Nat}
    (h : condition = true → post () w) :
    Ensures manifest a (Runner.require condition reason current) post w := by
  unfold Runner.require
  split
  · rename_i hcond
    exact Ensures.pure (h hcond)
  · exact Ensures.halt reason current

lemma Ensures.hold {mismatch : Option String} {current : Nat} (h : mismatch = none → post () w) :
    Ensures manifest a (Runner.hold mismatch current) post w := by
  cases mismatch with
  | none => exact Ensures.pure (h rfl)
  | some reason => exact Ensures.halt reason current

/-- A call of an allowed operation, whatever happened since the runner last looked. -/
lemma safe_call {op : StoreCall} {next : op.Reply → Client StoreCall StoreCall.Reply α}
    {post : α → World → Prop} (hallowed : Allowed manifest a.attemptId w op)
    (hnext : ∀ before r after, Intact manifest before → Intact manifest after →
      Grows w before → Grows before after → recording Commits before op r after →
        (migrationDiscipline manifest).Safe (WritesOwned a.attemptId) post (next r) after) :
    (migrationDiscipline manifest).Safe (WritesOwned a.attemptId) post (.call op next) w := by
  intro before r after hbefore hgrows hcommits
  have hcalls : before.2 ⊆ after.2 := by
    rw [hcommits.2]
    exact List.subset_cons_self _ _
  have hkept : CallKept manifest a.attemptId before op after := by
    obtain hperform | ⟨-, hdb | hdb⟩ := hcommits.1
    · exact perform_kept hbefore a.named (hallowed.later hgrows) (Prod.ext_iff.1 hperform).2 hcalls
    · obtain ⟨db, calls⟩ := after
      obtain rfl : db = before.1 := hdb
      exact ⟨hbefore.logged hcalls, { Grows.refl before with calls := hcalls },
        fun hne => absurd rfl hne⟩
    · exact perform_kept hbefore a.named (hallowed.later hgrows) hdb hcalls
  exact ⟨⟨hkept.intact, hkept.grows, hkept.writes⟩,
    hnext before r after hbefore hkept.intact hgrows hkept.grows hcommits⟩

structure Answered (manifest : Manifest) (w : World) (op : StoreCall) (value : op.Value)
    (before after : World) : Prop where
  intact : Intact manifest before
  earlier : Grows w before
  later : Grows before after
  returned : (perform op before.1).1 = .ok value
  db : after.1 = (perform op before.1).2
  call : ⟨op, .ok value⟩ ∈ after.2

lemma Answered.grows {op : StoreCall} {value : op.Value} {before after : World}
    (h : Answered manifest w op value before after) : Grows w after :=
  h.earlier.trans h.later

lemma Ensures.guard {reason : String} {current : Nat} {f : Unit → Runner β}
    (h : condition = true → Ensures manifest a (f ()) Q w) :
    Ensures manifest a (Runner.require condition reason current >>= f) Q w := by
  unfold Runner.require
  split
  · rename_i hcond
    exact h hcond
  · exact nofun

lemma Ensures.asks {halted : Halt} {op : StoreCall} {f : op.Value → Runner β}
    (hallowed : Allowed manifest a.attemptId w op)
    (hf : ∀ value before after, Answered manifest w op value before after →
      Intact manifest after → Ensures manifest a (f value) Q after) :
    Ensures manifest a (Runner.ask halted op >>= f) Q w := by
  refine safe_call hallowed fun before r after hbefore hafter hearlier hlater hcommits => ?_
  cases r with
  | error e => exact nofun
  | ok value =>
    obtain hperform | ⟨herror, -⟩ := hcommits.1
    · rw [Prod.ext_iff] at hperform
      exact hf value before after ⟨hbefore, hearlier, hlater, hperform.1.symm, hperform.2,
        by rw [hcommits.2]; exact List.mem_cons_self⟩ hafter
    · cases herror

lemma Ensures.attempt {op : StoreCall} {post : op.Reply → World → Prop}
    (hallowed : Allowed manifest a.attemptId w op) (hpost : ∀ r after, post r after) :
    Ensures manifest a (Runner.attempt op) post w :=
  safe_call hallowed fun _ _ after _ _ _ _ _ _ _ => hpost _ after

end Rules

/-! ## The parts of a runner -/

/-- Records as the runner remembers them: what it read as applied is still so. -/
def Snapshot (manifest : Manifest) (byVersion : Journal) (w : World) : Prop :=
  ∀ version record, byVersion.lookup version = some record →
    (∃ m ∈ manifest.migrations, m.version = version ∧ record.version = version ∧
      Sound record m ∧ (m.payload = .transactionalData → record.state = .applied)) ∧
    (record.state = .applied → Applied w.1 version)

/-- An unfinished record of this attempt. -/
structure Mine (a : MigrationAttempt) (m : Migration) (record : MigrationJournal) : Prop where
  version : record.version = m.version
  sound : Sound record m
  unapplied : record.state ≠ .applied
  owner : record.ownerAttemptId = a.attemptId

section Parts

variable {manifest : Manifest} {a : MigrationAttempt} {w w' : World}

lemma Snapshot.later (h : Snapshot manifest byVersion w) (hgrows : Grows w w') :
    Snapshot manifest byVersion w' := by
  intro version record hrecord
  obtain ⟨hm, happlied⟩ := h version record hrecord
  exact ⟨hm, fun hstate => (happlied hstate).later hgrows⟩

lemma readJournal_ensures (current : Nat) :
    Ensures manifest a (readJournal manifest current) (Snapshot manifest) w := by
  refine Ensures.asks trivial fun byVersion before after h _ => Ensures.guard fun _ => ?_
  refine Ensures.bind (P := fun _ => Snapshot manifest byVersion) (Ensures.hold fun _ => ?_) ‹_›
    fun _ _ _ _ hsnapshot => Ensures.pure hsnapshot
  intro version record hrecord
  obtain rfl : before.1.journal = byVersion := Except.ok.inj h.returned
  exact ⟨h.intact.records version record hrecord, fun hstate =>
    Applied.later ⟨record, hrecord, hstate⟩ h.later⟩

lemma Answered.bootstrap {found : Option BootstrapConstraint} {before after : World}
    (h : Answered manifest w .inspectBootstrapConstraint found before after) :
    after.1.bootstrap = found := by
  rw [h.db]
  exact Except.ok.inj h.returned

lemma bootstrap_ensures :
    Ensures manifest a bootstrap (fun _ w' => ∃ c, w'.1.bootstrap = some c) w := by
  refine Ensures.asks trivial fun found _ w₁ h _ => ?_
  cases found with
  | some constraint => exact Ensures.hold fun _ => ⟨constraint, h.bootstrap⟩
  | none =>
    refine Ensures.asks rfl fun _ _ w₂ _ _ => Ensures.asks trivial fun found _ w₃ h _ =>
      Ensures.hold fun hreason => ?_
    cases found with
    | none => simp [bootstrapReason] at hreason
    | some constraint => exact ⟨constraint, h.bootstrap⟩

lemma takeOwnership_ensures (hw : Intact manifest w) :
    Ensures manifest a (takeOwnership manifest a) (fun _ w' => ∃ c, w'.1.bootstrap = some c) w := by
  refine Ensures.bind bootstrap_ensures hw fun _ w₁ _ _ hboot => ?_
  obtain ⟨c, hc⟩ := hboot
  refine Ensures.asks trivial fun owner _ w₂ h₂ hw₂ => ?_
  refine Ensures.bind (readJournal_ensures 0) hw₂ fun byVersion w₃ hw₃ hgrows₃ _ => ?_
  have hc₃ := hgrows₃.bootstrap c (h₂.grows.bootstrap c hc)
  unfold claimOwnership
  split
  · refine Ensures.guard fun _ => Ensures.asks rfl fun _ _ _ h _ => Ensures.require fun _ => ?_
    exact ⟨c, h.grows.bootstrap c hc₃⟩
  · split
    · exact Ensures.pure ⟨c, hc₃⟩
    · refine Ensures.guard fun _ => ?_
      split
      · exact Ensures.halt _ _
      · exact Ensures.asks rfl fun _ _ _ h _ => Ensures.require fun _ =>
          ⟨c, h.grows.bootstrap c hc₃⟩

lemma transition_ensures
    (hmove : RecordMove manifest a.attemptId w before after) :
    Ensures manifest a (transition a before after)
      (fun _ w' => after.state = .applied → Applied w'.1 after.version) w := by
  refine Ensures.asks ⟨rfl, hmove⟩ fun changed earlier later h _ => Ensures.require ?_
  rintro rfl hstate
  have hset := Except.ok.inj h.returned
  refine ⟨after, ?_, hstate⟩
  rw [h.db]
  simp only [perform, MigrationDb.compareAndSetJournal] at hset ⊢
  split at hset
  · rw [if_pos ‹_›]
    exact AList.lookup_insert _
  · cases hset

section Record

variable {m : Migration} {statement : ConstraintStatement}

lemma Sound.withState (h : Sound record m)
    (hold : record.state ≠ .applied) {state : JournalState} (hnew : state ≠ .applied) :
    Sound { record with state := state } m := by
  refine ⟨h.runner, h.owner, h.started, ?_, h.name, h.checksum, h.object, h.definition⟩
  have hnone := h.completed
  rw [if_neg hold] at hnone
  rw [if_neg hnew]
  exact hnone

lemma Sound.adopted (h : Sound record m) (hversion : record.version = m.version)
    (a : MigrationAttempt) (t : Datetime) : Mine a m { record with
      state := .pending
      ownerAttemptId := a.attemptId
      startedAt := isoformat t
      completedAt := none } :=
  ⟨hversion, ⟨h.runner, a.named, isSome_isoformat t, by simp, h.name, h.checksum, h.object,
    h.definition⟩, by simp, rfl⟩

lemma Sound.completedAt (h : Sound record m) (t : Datetime) :
    Sound { record with state := .applied, completedAt := some (isoformat t) } m :=
  ⟨h.runner, h.owner, h.started, by simpa using isSome_isoformat t, h.name, h.checksum, h.object,
    h.definition⟩

lemma Sound.ofPending (hpayload : m.payload = .schemaDdl statement) (a : MigrationAttempt)
    (t : Datetime) : Sound (.pending m statement a.attemptId (isoformat t)) m := by
  refine ⟨rfl, a.named, isSome_isoformat t, by simp [MigrationJournal.pending], rfl, rfl, rfl, ?_⟩
  rw [hpayload]
  exact ⟨rfl, rfl⟩

lemma Mine.withState (hmine : Mine a m record) {state : JournalState}
    (hstate : state ≠ .applied) : Mine a m { record with state := state } :=
  ⟨hmine.version, hmine.sound.withState hmine.unapplied hstate, hstate, hmine.owner⟩

lemma Mine.reopened (hmine : Mine a m record) :
    Mine a m { record with
      state := .pending
      ownerAttemptId := a.attemptId
      startedAt := isoformat (a.startedNow record.version) } := by
  have hnone := hmine.sound.completed
  rw [if_neg hmine.unapplied] at hnone
  exact ⟨hmine.version, ⟨hmine.sound.runner, a.named, isSome_isoformat _, by simpa using hnone,
    hmine.sound.name, hmine.sound.checksum, hmine.sound.object, hmine.sound.definition⟩,
    by simp, rfl⟩

lemma Mine.mem_unapplied (hmine : Mine a m record) :
    ∀ r ∈ some record, r.state ≠ .applied :=
  fun _ heq => Option.some.inj heq ▸ hmine.unapplied

lemma Answered.seen (hm : m ∈ manifest.migrations) (hpayload : m.payload = .schemaDdl statement)
    {object : SchemaObject} {before after : World}
    (h : Answered manifest w (.inspectSchemaObject m.name) (some object) before after) :
    Seen after m.name statement := by
  have hlookup : before.1.objects.lookup m.name = some object := Except.ok.inj h.returned
  obtain rfl := h.intact.objects m hm statement hpayload object hlookup
  exact ⟨h.later.objects _ _ hlookup, h.call⟩

structure Completed (m : Migration) (record : MigrationJournal) (w : World) : Prop where
  version : record.version = m.version
  sound : Sound record m
  state : record.state = .applied
  applied : Applied w.1 m.version

variable (hm : m ∈ manifest.migrations) (hpayload : m.payload = .schemaDdl statement)
  (hprior : Prior w.1 m.version) (hw : Intact manifest w)

include hm hpayload hprior

/-- A record is moved on to one that the attempt then has, to what was seen at most. -/
lemma Ensures.moves {α : Type} {f : Unit → Runner α}
    {Q : α → World → Prop} (hbefore : ∀ record ∈ before, record.state ≠ .applied)
    (hafter : Mine a m after) (hw : Intact manifest w)
    (hseen : after.state = .ddlObserved → Seen w m.name statement)
    (hf : ∀ w', Intact manifest w' → Grows w w' → Ensures manifest a (f ()) Q w') :
    Ensures manifest a (transition a before after >>= f) Q w := by
  refine Ensures.bind (transition_ensures ⟨⟨m, hm, hafter.version.symm, hafter.sound, statement,
    hpayload, ?_⟩, hafter.owner, hbefore, hafter.version ▸ hprior⟩) hw
    fun _ w' hw' hgrows _ => hf w' hw' hgrows
  exact fun hstate => hseen (hstate.resolve_left hafter.unapplied)

include hw

lemma openRecord_ensures {record : Option MigrationJournal}
    (hrecord : ∀ r ∈ record, r.version = m.version ∧ Sound r m ∧ r.state ≠ .applied) :
    Ensures manifest a (openRecord a m statement record) (fun r _ => Mine a m r) w := by
  cases record with
  | none =>
    have hmine : Mine a m (.pending m statement a.attemptId (isoformat (a.startedNow m.version))) :=
      ⟨rfl, Sound.ofPending hpayload a _, by simp [MigrationJournal.pending], rfl⟩
    exact Ensures.moves hm hpayload hprior (fun _ hnone => (nomatch hnone)) hmine hw
      (by simp [MigrationJournal.pending]) fun _ _ _ => Ensures.pure hmine
  | some record =>
    obtain ⟨hversion, hsound, hstate⟩ := hrecord record rfl
    simp only [openRecord]
    split
    · rename_i howner
      exact Ensures.pure ⟨hversion, hsound, hstate, howner⟩
    · have hadopted := hsound.adopted hversion a (a.startedNow m.version)
      exact Ensures.guard fun _ => Ensures.moves hm hpayload hprior
        (fun _ heq => Option.some.inj heq ▸ hstate) hadopted hw (by simp)
        fun _ _ _ => Ensures.pure hadopted

lemma reopenRecord_ensures (hmine : Mine a m record) :
    Ensures manifest a (reopenRecord a record) (fun r _ => Mine a m r) w := by
  unfold reopenRecord
  split
  · exact Ensures.moves hm hpayload hprior hmine.mem_unapplied hmine.reopened hw (by simp)
      fun _ _ _ => Ensures.pure hmine.reopened
  · exact Ensures.pure hmine

lemma startRecord_ensures (hmine : Mine a m record) (preexistingStarted : Bool) :
    Ensures manifest a (startRecord a preexistingStarted record) (fun r _ => Mine a m r.1) w := by
  unfold startRecord
  split
  · have hstarted : Mine a m { record with state := .ddlStarted } := hmine.withState (by simp)
    exact Ensures.moves hm hpayload hprior hmine.mem_unapplied hstarted hw (by simp)
      fun _ _ _ => Ensures.pure hstarted
  · exact Ensures.pure hmine

lemma completeRecord_ensures (hmine : Mine a m record) (hseen : Seen w m.name statement) :
    Ensures manifest a (completeRecord a record) (Completed m) w := by
  have hsound := hmine.sound.completedAt (a.completedNow record.version)
  refine Ensures.bind (transition_ensures ⟨⟨m, hm, hmine.version.symm, hsound, statement, hpayload,
    fun _ => hseen⟩, hmine.owner, hmine.mem_unapplied, hmine.version ▸ hprior⟩) hw
    fun _ w₁ _ _ happlied => Ensures.pure ?_
  exact ⟨hmine.version, hsound, rfl, hmine.version ▸ happlied rfl⟩

omit hprior hw in
lemma checkObject_ensures (record : MigrationJournal) (current : Nat) :
    Ensures manifest a (checkObject m record current) (fun _ w' => Seen w' m.name statement) w := by
  refine Ensures.asks trivial fun observed before after h _ => Ensures.hold fun hreason => ?_
  cases observed with
  | none => simp [objectReason] at hreason
  | some object => exact h.seen hm hpayload

lemma retreat_ensures (hmine : Mine a m record) :
    Ensures manifest a (retreat a record) post w := by
  have hrecoverable : Mine a m { record with state := .recoverableDdlNotApplied } :=
    hmine.withState (by simp)
  exact Ensures.moves hm hpayload hprior hmine.mem_unapplied hrecoverable hw (by simp)
    fun _ _ _ => Ensures.asks rfl fun _ _ _ _ _ => Ensures.guard fun _ => Ensures.halt _ _

omit hw in
lemma reconcile_ensures (hmine : Mine a m record) :
    Ensures manifest a (reconcile a m record) (fun _ w' => Seen w' m.name statement) w := by
  refine Ensures.asks trivial fun observed before w₁ h hw₁ => ?_
  cases observed with
  | none => exact retreat_ensures hm hpayload (hprior.later h.grows) hw₁ hmine
  | some object => exact Ensures.hold fun _ => h.seen hm hpayload

lemma executeStarted_ensures (hmine : Mine a m record) :
    Ensures manifest a (executeStarted a m statement record)
      (fun _ w' => Seen w' m.name statement) w := by
  refine Ensures.bind (P := fun _ _ => True)
    (Ensures.attempt ⟨m, hm, hpayload⟩ fun _ _ => trivial) hw fun r w₁ hw₁ hgrows₁ _ => ?_
  cases r with
  | ok _ => exact checkObject_ensures hm hpayload record 0
  | error _ =>
    refine Ensures.asks trivial fun _ _ w₂ h₂ hw₂ => Ensures.guard fun _ => ?_
    exact retreat_ensures hm hpayload (hprior.later (hgrows₁.trans h₂.grows)) hw₂ hmine

lemma applyStarted_ensures (hmine : Mine a m record) (preexistingStarted : Bool) :
    Ensures manifest a (applyStarted a m statement preexistingStarted record) (Completed m) w := by
  have hobserved : Mine a m { record with state := .ddlObserved } := hmine.withState (by simp)
  have hrest : ∀ w₁, Intact manifest w₁ → Grows w w₁ → Seen w₁ m.name statement →
      Ensures manifest a (do
        transition a (some record) { record with state := .ddlObserved }
        completeRecord a { record with state := .ddlObserved }) (Completed m) w₁ := by
    intro w₁ hw₁ hgrows₁ hseen
    have hprior₁ := hprior.later hgrows₁
    exact Ensures.moves hm hpayload hprior₁ hmine.mem_unapplied hobserved hw₁ (fun _ => hseen)
      fun w₂ hw₂ hgrows₂ => completeRecord_ensures hm hpayload (hprior₁.later hgrows₂) hw₂ hobserved
        (hseen.later hgrows₂)
  unfold applyStarted
  split
  · exact Ensures.bind (reconcile_ensures hm hpayload hprior hmine) hw
      fun _ w₁ hw₁ hgrows₁ hseen => hrest w₁ hw₁ hgrows₁ hseen
  · exact Ensures.bind (executeStarted_ensures hm hpayload hprior hw hmine) hw
      fun _ w₁ hw₁ hgrows₁ hseen => hrest w₁ hw₁ hgrows₁ hseen

lemma prepareRecord_ensures {record : Option MigrationJournal}
    (hrecord : ∀ r ∈ record, r.version = m.version ∧ Sound r m ∧ r.state ≠ .applied) :
    Ensures manifest a (prepareRecord a m statement record) (fun r _ => Mine a m r.1) w := by
  refine Ensures.bind (openRecord_ensures hm hpayload hprior hw hrecord) hw
    fun opened w₁ hw₁ hgrows₁ hopened => ?_
  have hprior₁ := hprior.later hgrows₁
  refine Ensures.bind (reopenRecord_ensures hm hpayload hprior₁ hw₁ hopened) hw₁
    fun reopened w₂ hw₂ hgrows₂ hreopened => ?_
  exact startRecord_ensures hm hpayload (hprior₁.later hgrows₂) hw₂ hreopened _

lemma finishRecord_ensures (hmine : Mine a m record) (preexistingStarted : Bool) :
    Ensures manifest a (finishRecord a m statement record preexistingStarted) (Completed m) w := by
  unfold finishRecord
  split
  · refine Ensures.bind (checkObject_ensures hm hpayload record _) hw
      fun _ w₁ hw₁ hgrows₁ hseen => ?_
    exact completeRecord_ensures hm hpayload (hprior.later hgrows₁) hw₁ hmine hseen
  · exact applyStarted_ensures hm hpayload hprior hw hmine _
  · exact Ensures.halt _ _

lemma applySchemaDdl_ensures {record : Option MigrationJournal}
    (hrecord : ∀ r ∈ record, r.version = m.version ∧ Sound r m ∧ r.state ≠ .applied) :
    Ensures manifest a (applySchemaDdl a m statement record) (Completed m) w :=
  Ensures.bind (prepareRecord_ensures hm hpayload hprior hw hrecord) hw
    fun _ _ hw₁ hgrows₁ hmine =>
      finishRecord_ensures hm hpayload (hprior.later hgrows₁) hw₁ hmine _

end Record

lemma applyTransactional_ensures {m : Migration} (hm : m ∈ manifest.migrations)
    (hprior : Prior w.1 m.version) (record : Option MigrationJournal) :
    Ensures manifest a (applyTransactional manifest a m record)
      (fun byVersion w' => Snapshot manifest byVersion w' ∧ Applied w'.1 m.version) w := by
  refine Ensures.guard fun _ => Ensures.asks ⟨rfl, hm, isSome_isoformat _, hprior⟩
    fun _ _ w₁ _ hw₁ => Ensures.guard fun _ => ?_
  refine Ensures.bind (readJournal_ensures _) hw₁ fun refreshed w₂ hw₂ _ hsnapshot => ?_
  refine Ensures.guard fun happlied => Ensures.pure ⟨hsnapshot, ?_⟩
  obtain ⟨record, hrecord, hstate⟩ := (Option.any_eq_true _ _).1 happlied
  exact (hsnapshot m.version record hrecord).2 (of_decide_eq_true hstate)

lemma recheck_ensures {m : Migration} (hm : m ∈ manifest.migrations) (record : MigrationJournal) :
    Ensures manifest a (recheck m record) (fun _ _ => True) w := by
  unfold recheck
  split
  · rename_i statement hpayload
    exact (checkObject_ensures hm hpayload record _).imp fun _ _ _ => trivial
  · exact Ensures.pure trivial

lemma applyNew_ensures {m : Migration} (hm : m ∈ manifest.migrations)
    (hprior : Prior w.1 m.version) (hw : Intact manifest w)
    (hsnapshot : Snapshot manifest byVersion w)
    (hunapplied : ∀ r ∈ byVersion.lookup m.version, r.state ≠ .applied) :
    Ensures manifest a (applyNew manifest a byVersion m)
      (fun byVersion' w' => Snapshot manifest byVersion' w' ∧ Applied w'.1 m.version) w := by
  unfold applyNew
  split
  · exact applyTransactional_ensures hm hprior _
  · rename_i statement hpayload
    have hrecord : ∀ r ∈ byVersion.lookup m.version,
        r.version = m.version ∧ Sound r m ∧ r.state ≠ .applied := by
      intro r hr
      obtain ⟨⟨m', hm', hversion', hversion, hsound, -⟩, -⟩ := hsnapshot m.version r hr
      obtain rfl := migration_unique hm' hm hversion'
      exact ⟨hversion, hsound, hunapplied r hr⟩
    refine Ensures.bind (applySchemaDdl_ensures hm hpayload hprior hw hrecord) hw
      fun applied w₁ _ hgrows₁ h => Ensures.pure ⟨?_, h.applied⟩
    intro version record hlookup
    by_cases hsame : version = m.version
    · subst hsame
      rw [AList.lookup_insert, Option.some.injEq] at hlookup
      subst hlookup
      exact ⟨⟨m, hm, rfl, h.version, h.sound, fun _ => h.state⟩, fun _ => h.applied⟩
    · rw [AList.lookup_insert_ne hsame] at hlookup
      exact hsnapshot.later hgrows₁ version record hlookup

lemma applyMigration_ensures {m : Migration}
    (hm : m ∈ manifest.migrations) (hprior : Prior w.1 m.version)
    (hw : Intact manifest w) (hsnapshot : Snapshot manifest byVersion w) :
    Ensures manifest a (applyMigration manifest a byVersion m)
      (fun byVersion' w' => Snapshot manifest byVersion' w' ∧ Applied w'.1 m.version) w := by
  unfold applyMigration
  split
  · rename_i record hrecord
    split
    · rename_i hstate
      refine Ensures.bind (recheck_ensures hm record) hw fun _ w₁ _ hgrows₁ _ =>
        Ensures.pure ⟨hsnapshot.later hgrows₁, ?_⟩
      exact ((hsnapshot m.version record hrecord).2 hstate).later hgrows₁
    · rename_i hstate
      exact applyNew_ensures hm hprior hw hsnapshot fun r hr => by
        rw [hrecord, Option.mem_some_iff] at hr
        exact hr ▸ hstate
  · rename_i hnone
    exact applyNew_ensures hm hprior hw hsnapshot fun r hr => by simp [hnone] at hr

lemma version_of_split {m : Migration}
    (hsplit : manifest.migrations = earlier ++ m :: rest) : m.version = earlier.length + 1 := by
  have hat := manifest.ordered earlier.length (by simp [hsplit])
  simpa [hsplit] using hat

lemma version_lt_of_split {m m' : Migration}
    (hsplit : manifest.migrations = earlier ++ m :: rest) (hm' : m' ∈ rest) :
    m.version < m'.version := by
  obtain ⟨before, after, hrest⟩ := List.append_of_mem hm'
  have hsplit' : manifest.migrations = (earlier ++ m :: before) ++ m' :: after := by
    rw [hsplit, hrest, List.append_assoc, List.cons_append]
  rw [version_of_split hsplit, version_of_split hsplit', List.length_append, List.length_cons]
  omega

lemma prior_applied {m : Migration} {db : MigrationDb}
    (hsplit : manifest.migrations = earlier ++ m :: rest)
    (h : ∀ m' ∈ earlier, Applied db m'.version) : Prior db m.version := by
  intro u hpos hlt
  rw [version_of_split hsplit] at hlt
  have hi : u - 1 < earlier.length := by omega
  have hu : earlier[u - 1].version = u := by
    have hat := manifest.ordered (u - 1) (by simp [hsplit]; omega)
    simp only [hsplit, List.getElem_append_left hi] at hat
    omega
  exact hu ▸ h _ (List.getElem_mem hi)

lemma loop_ensures (earlier : List Migration)
    (hsplit : manifest.migrations = earlier ++ rest) (hw : Intact manifest w)
    (hearlier : ∀ m ∈ earlier, Applied w.1 m.version) (hsnapshot : Snapshot manifest byVersion w) :
    Ensures manifest a (rest.foldlM (applyMigration manifest a) byVersion)
      (fun _ w' => ∀ m ∈ manifest.migrations, Applied w'.1 m.version) w := by
  induction rest generalizing earlier byVersion w with
  | nil => exact Ensures.pure (by simpa [hsplit] using hearlier)
  | cons m rest ih =>
    rw [List.foldlM_cons]
    have hm : m ∈ manifest.migrations := by simp [hsplit]
    refine Ensures.bind (applyMigration_ensures hm (prior_applied hsplit hearlier) hw hsnapshot) hw
      fun byVersion' w₁ hw₁ hgrows₁ h => ?_
    refine ih (earlier ++ [m]) (by simp [hsplit]) hw₁ ?_ h.1
    intro m' hm'
    obtain hold | hnew := List.mem_append.1 hm'
    · exact (hearlier m' hold).later hgrows₁
    · rw [List.mem_singleton] at hnew
      exact hnew ▸ h.2

/-- The database right after the last call of a run that ends well. -/
structure Finished (manifest : Manifest) (db : MigrationDb) : Prop where
  bootstrap : ∃ c, db.bootstrap = some c
  owner : db.owner = some ⟨none, .clean, 1⟩
  applied : ∀ m ∈ manifest.migrations, Applied db m.version

lemma migrateOwned_ensures {c : BootstrapConstraint}
    (hc : w.1.bootstrap = some c) :
    Ensures manifest a (migrateOwned manifest a) (fun _ w' => Finished manifest w'.1) w := by
  refine Ensures.asks trivial fun _ _ w₂ h₂ hw₂ => Ensures.guard fun _ => ?_
  refine Ensures.bind (readJournal_ensures 0) hw₂ fun byVersion w₃ hw₃ hgrows₃ hsnapshot => ?_
  refine Ensures.bind (loop_ensures [] rfl hw₃ (by simp) hsnapshot) hw₃
    fun _ w₄ hw₄ hgrows₄ happlied => ?_
  have hc₄ : w₄.1.bootstrap = some c :=
    (h₂.grows.trans (hgrows₃.trans hgrows₄)).bootstrap c hc
  refine Ensures.asks rfl fun released before after h _ => Ensures.require ?_
  rintro rfl
  refine ⟨⟨c, h.grows.bootstrap c hc₄⟩, ?_, fun m hm => (happlied m hm).later h.grows⟩
  have hset := Except.ok.inj h.returned
  rw [h.db]
  simp only [perform, MigrationDb.releaseOwner] at hset ⊢
  split at hset
  · rw [if_pos ‹_›]
  · cases hset

lemma migrate_ensures (hw : Intact manifest w) :
    Ensures manifest a (migrate manifest a) (fun _ w' => Finished manifest w'.1) w := by
  refine Ensures.bind (takeOwnership_ensures hw) hw fun _ w₁ hw₁ _ hboot => ?_
  obtain ⟨c, hc⟩ := hboot
  exact migrateOwned_ensures hc

end Parts

/-- The runner alone with a database that meets no fault. -/
def runAlone {α : Type} (p : Runner α) (db : MigrationDb) : Except Halt α × MigrationDb :=
  p.run.run perform db

section Alone

variable {α β : Type} {db db' : MigrationDb}

lemma runAlone_pure (value : α) : runAlone (pure value) db = (.ok value, db) := rfl

lemma runAlone_bind {p : Runner α} {f : α → Runner β} {value : α}
    (h : runAlone p db = (.ok value, db')) : runAlone (p >>= f) db = runAlone (f value) db' := by
  refine (Client.run_bind perform p.run (ExceptT.bindCont f) db).trans ?_
  rw [show p.run.run perform db = (.ok value, db') from h]
  rfl

lemma runAlone_bind_error {p : Runner α} {f : α → Runner β} {halted : Halt}
    (h : runAlone p db = (.error halted, db')) : runAlone (p >>= f) db = (.error halted, db') := by
  refine (Client.run_bind perform p.run (ExceptT.bindCont f) db).trans ?_
  rw [show p.run.run perform db = (.error halted, db') from h]
  rfl

lemma runAlone_ask {halted : Halt} {op : StoreCall} {value : op.Value}
    (h : perform op db = (.ok value, db')) :
    runAlone (Runner.ask halted op) db = (.ok value, db') := by
  show ((perform op db).1.mapError _, (perform op db).2) = _
  rw [h]
  rfl

lemma runAlone_require (reason : String) (current : Nat)
    (h : condition = true) :
    runAlone (Runner.require condition reason current) db = (.ok (), db) := by
  rw [Runner.require, if_pos h, runAlone_pure]

lemma runAlone_hold {mismatch : Option String} (current : Nat) (h : mismatch = none) :
    runAlone (Runner.hold mismatch current) db = (.ok (), db) := by
  rw [h]
  rfl

lemma perform_inspectSchemaObject {name : String} {object : Option SchemaObject}
    (h : db.objects.lookup name = object) :
    perform (.inspectSchemaObject name) db = (.ok object, db) := by
  subst h
  rfl

lemma perform_inspectBootstrap {constraint : Option BootstrapConstraint}
    (h : db.bootstrap = constraint) :
    perform .inspectBootstrapConstraint db = (.ok constraint, db) := by
  subst h
  rfl

lemma perform_inspectOwner {manifest : Manifest} {w : World} (hw : Intact manifest w) :
    perform .inspectOwner w.1 = (.ok w.1.owner, w.1) := by
  refine Prod.ext ?_ rfl
  show MigrationDb.inspectOwner w.1 = _
  unfold MigrationDb.inspectOwner
  cases howner : w.1.owner with
  | none => rfl
  | some owner => rcases hw.owner owner howner with ⟨attempt, -, rfl⟩ | rfl <;> rfl

end Alone

section Status

variable {manifest : Manifest} {w : World}

lemma record_sound (hw : Intact manifest w) {m : Migration} (hm : m ∈ manifest.migrations)
    (hrecord : w.1.journal.lookup m.version = some record) :
    record.version = m.version ∧ Sound record m ∧
      (m.payload = .transactionalData → record.state = .applied) := by
  obtain ⟨m', hm', hsame, hversion, hsound, hkind⟩ := hw.records m.version record hrecord
  obtain rfl := migration_unique hm' hm hsame
  exact ⟨hversion, hsound, hkind⟩

lemma keys_in_range (hw : Intact manifest w) :
    (w.1.journal.keys.all fun version =>
      1 ≤ version && version ≤ manifest.migrations.length) = true := by
  refine List.all_eq_true.2 fun version hkey => ?_
  obtain ⟨record, hrecord⟩ := Option.isSome_iff_exists.1 (AList.lookup_isSome.2 hkey)
  obtain ⟨m, hm, rfl, -⟩ := hw.records version record hrecord
  simpa using version_mem hm

lemma objectReason_seen {m : Migration} {statement : ConstraintStatement} (hsound : Sound record m)
    (hpayload : m.payload = .schemaDdl statement) :
    objectReason (some (constraintObject statement)) record.schemaObjectDefinition = none := by
  have hdefinition := hsound.definition
  rw [hpayload] at hdefinition
  simp [objectReason, constraintObject, hdefinition.2, normalizeDefinition]

lemma statusRound_applied (hw : Intact manifest w) {m : Migration}
    (hm : m ∈ manifest.migrations) (happlied : Applied w.1 m.version) (count : Nat) :
    runAlone (statusRound w.1.journal count m) w.1 = (.ok (some (count + 1)), w.1) := by
  obtain ⟨record, hrecord, hstate⟩ := happlied
  have hsound := (record_sound hw hm hrecord).2.1
  simp only [statusRound, hrecord]
  rw [runAlone_bind (runAlone_hold _ (journalReason_eq_none.2 hsound)),
    runAlone_bind (runAlone_require _ _ (by simpa using hstate))]
  split
  · rename_i statement hpayload
    have hseen := hw.observed m hm statement hpayload record hrecord (.inl hstate)
    rw [runAlone_bind (runAlone_ask (perform_inspectSchemaObject hseen.1)),
      runAlone_bind (runAlone_hold _ (objectReason_seen hsound hpayload)), runAlone_pure]
  · rfl

lemma statusLoop_applied (hw : Intact manifest w)
    (hrest : ∀ m ∈ rest, m ∈ manifest.migrations ∧ Applied w.1 m.version) (count : Nat) :
    runAlone (statusLoop w.1.journal rest count) w.1 = (.ok (count + rest.length), w.1) := by
  induction rest generalizing count with
  | nil => rfl
  | cons m rest ih =>
    have hm := hrest m List.mem_cons_self
    rw [statusLoop, runAlone_bind (statusRound_applied hw hm.1 hm.2 count)]
    simp only
    rw [ih fun m' hm' => hrest m' (List.mem_cons_of_mem _ hm'), List.length_cons,
      Nat.add_right_comm, Nat.add_assoc]

theorem migrationStatus_finished (hw : Intact manifest w) (hfinished : Finished manifest w.1) :
    (migrationStatus manifest).run perform w.1 =
      (.ok (.clean manifest.migrations.length manifest), w.1) := by
  obtain ⟨⟨c, hc⟩, howner, happlied⟩ := hfinished
  obtain rfl := hw.bootstrap c hc
  have hreason : bootstrapReason (some bootstrapConstraint) = none := by decide
  have hread : runAlone (readStatus manifest) w.1 = (.ok (), w.1) := by
    rw [readStatus, runAlone_bind (runAlone_ask (perform_inspectBootstrap hc)),
      runAlone_bind (runAlone_hold _ hreason),
      runAlone_bind (runAlone_ask (perform_inspectOwner hw)), howner]
    simp only
    rw [runAlone_bind (runAlone_require _ _ (by decide)),
      runAlone_bind (runAlone_require _ _ (by decide)),
      runAlone_bind (runAlone_require _ _ (by decide)),
      runAlone_bind (runAlone_ask rfl), runAlone_bind (runAlone_require _ _ (keys_in_range hw)),
      runAlone_bind (statusLoop_applied hw (fun m hm => ⟨hm, happlied m hm⟩) 0)]
    exact runAlone_require _ _ (by simp)
  refine (Client.run_bind perform _ _ _).trans ?_
  rw [show (readStatus manifest).run.run perform w.1 = _ from hread]
  rfl

end Status

/-! ## Any number of runners -/

/-- What the journal looks like in every reached state. -/
structure JournalSafe (manifest : Manifest) (w : World) : Prop where
  contiguous : ∃ k ≤ manifest.migrations.length,
    (∀ version, Applied w.1 version ↔ 1 ≤ version ∧ version ≤ k) ∧
      ∀ version record, w.1.journal.lookup version = some record → record.state ≠ .applied →
        version = k + 1 ∧ k + 1 ≤ manifest.migrations.length
  observed : ∀ m ∈ manifest.migrations, ∀ statement, m.payload = .schemaDdl statement →
    Applied w.1 m.version → Seen w m.name statement
  changed : ∀ m ∈ manifest.migrations, m.payload = .transactionalData →
    w.1.dataChanges.count m.version ≤ 1 ∧
      (Applied w.1 m.version ↔ m.version ∈ w.1.dataChanges)

section Runs

variable {manifest : Manifest} {w : World}

/-- The first version without an applied record bounds the applied ones. -/
lemma exists_frontier (hw : Intact manifest w) : ∃ k ≤ manifest.migrations.length,
    (∀ version, Applied w.1 version ↔ 1 ≤ version ∧ version ≤ k) ∧
      ∀ version record, w.1.journal.lookup version = some record → record.state ≠ .applied →
        version = k + 1 ∧ k + 1 ≤ manifest.migrations.length := by
  classical
  have hrange : ∀ version record, w.1.journal.lookup version = some record →
      1 ≤ version ∧ version ≤ manifest.migrations.length := by
    intro version record hrecord
    obtain ⟨m, hm, rfl, -⟩ := hw.records version record hrecord
    exact version_mem hm
  have hbeyond : ∃ v, ¬Applied w.1 (v + 1) := by
    refine ⟨manifest.migrations.length, fun ⟨record, hrecord, _⟩ => ?_⟩
    have := hrange _ _ hrecord
    omega
  have hfind := Nat.find_spec hbeyond
  have hmin : ∀ u, 1 ≤ u → u ≤ Nat.find hbeyond → Applied w.1 u := by
    intro u hpos hle
    have := Nat.find_min hbeyond (show u - 1 < Nat.find hbeyond by omega)
    rwa [not_not, Nat.sub_add_cancel hpos] at this
  have hnext : ∀ version record, w.1.journal.lookup version = some record →
      version ≤ Nat.find hbeyond + 1 := by
    intro version record hrecord
    by_contra hgt
    exact hfind (hw.ordered version record hrecord _ (by omega) (by omega))
  refine ⟨Nat.find hbeyond, ?_, fun version => ⟨fun happlied => ?_, fun h => hmin version h.1 h.2⟩,
    fun version record hrecord hstate => ?_⟩
  · by_contra hgt
    obtain ⟨record, hrecord, -⟩ := hmin (manifest.migrations.length + 1) (by omega) (by omega)
    have := hrange _ _ hrecord
    omega
  · obtain ⟨record, hrecord, -⟩ := id happlied
    refine ⟨(hrange _ _ hrecord).1, Nat.le_of_lt_succ ((hnext _ _ hrecord).lt_of_ne ?_)⟩
    rintro rfl
    exact hfind happlied
  · have hversion : version = Nat.find hbeyond + 1 := by
      refine (hnext _ _ hrecord).antisymm (Nat.succ_le_of_lt (Nat.lt_of_not_le fun hle => ?_))
      exact not_applied hrecord hstate (hmin version (hrange _ _ hrecord).1 hle)
    exact ⟨hversion, hversion ▸ (hrange _ _ hrecord).2⟩

lemma Intact.journalSafe (hw : Intact manifest w) : JournalSafe manifest w := by
  refine ⟨exists_frontier hw, fun m hm statement hpayload happlied => ?_, hw.changes⟩
  obtain ⟨record, hrecord, hstate⟩ := happlied
  exact hw.observed m hm statement hpayload record hrecord (.inl hstate)

lemma intact_empty (manifest : Manifest) : Intact manifest (MigrationDb.empty, []) := by
  have hnone : ∀ version, MigrationDb.empty.journal.lookup version = none := fun _ => rfl
  have happlied : ∀ version, ¬Applied MigrationDb.empty version := by
    rintro version ⟨record, hrecord, -⟩
    simp [hnone] at hrecord
  refine ⟨fun _ h => ?_, fun _ h => ?_, fun _ _ h => ?_, fun _ _ h => ?_,
    fun _ _ _ _ _ h => ?_, fun _ _ _ _ _ h => ?_, fun m _ _ => ?_, fun _ _ h => ?_⟩
  · cases h
  · cases h
  · simp [hnone] at h
  · simp [hnone] at h
  · simp [hnone] at h
  · cases h
  · exact ⟨Nat.zero_le _, fun h => absurd h (happlied _), fun h => absurd h List.not_mem_nil⟩
  · simp [hnone] at h

lemma applyMigrations_safe (a : MigrationAttempt) (hw : Intact manifest w) :
    (migrationDiscipline manifest).Safe (WritesOwned a.attemptId)
      (fun result w' => ∀ status, result = .ok status → status.ready = true →
        Intact manifest w' ∧ Finished manifest w'.1) (applyMigrations manifest a) w := by
  refine Discipline.Safe.bind (migrate_ensures (a := a) hw) hw fun result w' hw' _ hpost => ?_
  match result with
  | .ok () => exact fun _ _ _ => ⟨hw', hpost () rfl⟩
  | .error (.failed reason current) =>
    intro status hstatus hready
    obtain rfl := Except.ok.inj hstatus
    cases hready
  | .error .raised => exact nofun

/-- The attempts over an empty database, none of which has made a call. -/
def launched {ι : Type} (manifest : Manifest) (attempts : ι → MigrationAttempt) :
    Concurrent ι StoreCall StoreCall.Reply (Except Unit MigrationStatus) World :=
  ⟨(MigrationDb.empty, []), fun i => some (applyMigrations manifest (attempts i))⟩

lemma launched_running {ι : Type} [DecidableEq ι] (manifest : Manifest)
    (attempts : ι → MigrationAttempt) :
    Concurrent.Running (migrationDiscipline manifest)
      (fun i => WritesOwned (attempts i).attemptId)
      (fun _ result w => ∀ status, result = .ok status → status.ready = true →
        Intact manifest w ∧ Finished manifest w.1) (launched manifest attempts) := by
  refine ⟨intact_empty manifest, fun i op next hnext => ?_⟩
  obtain heq : applyMigrations manifest (attempts i) = .call op next := Option.some.inj hnext
  rw [← heq]
  exact applyMigrations_safe (attempts i) (intact_empty manifest)

/-- The call that applies a version is none of the inspections. -/
lemma seen_before {op : StoreCall} {r : op.Reply} {w' : World}
    (hcommits : recording Commits w op r w') (hbefore : ¬Applied w.1 version)
    (hafter : Applied w'.1 version) {name : String} {statement : ConstraintStatement}
    (hseen : Seen w' name statement) :
    ⟨.inspectSchemaObject name, .ok (some (constraintObject statement))⟩ ∈ w.2 := by
  have hcall := hseen.2
  rw [hcommits.2, List.mem_cons] at hcall
  refine hcall.resolve_left fun heq => hbefore ?_
  obtain ⟨rfl, -⟩ := Sigma.mk.inj heq
  have hsame : w'.1 = w.1 := by
    obtain hperform | ⟨-, hdb | hdb⟩ := hcommits.1
    · exact (Prod.ext_iff.1 hperform).2
    · exact hdb
    · exact hdb
  rwa [hsame] at hafter

/-- In every interleaving of attempts that may crash or take over the lock, the applied versions
are the first ones and at most one further record exists. A call that applies a constraint
follows one that saw it, a call that changes the journal is made by the owner of the lock, and a
run that ends well leaves a clean status. -/
theorem migration_journal_safety {ι : Type} [DecidableEq ι] (manifest : Manifest)
    (attempts : ι → MigrationAttempt)
    (c : Concurrent ι StoreCall StoreCall.Reply (Except Unit MigrationStatus) World)
    (hreached : Concurrent.Reaches (recording Commits) (launched manifest attempts) c) :
    JournalSafe manifest c.store ∧
      ∀ i op d, Concurrent.Calls (recording Commits) c i op d →
        WritesOwned (attempts i).attemptId c.store op d.store ∧
        (∀ m ∈ manifest.migrations, ∀ statement, m.payload = .schemaDdl statement →
          ¬Applied c.store.1 m.version → Applied d.store.1 m.version →
            ⟨.inspectSchemaObject m.name, .ok (some (constraintObject statement))⟩ ∈ c.store.2) ∧
        ∀ status, d.clients i = some (.done (.ok status)) → status.ready = true →
          (migrationStatus manifest).run perform d.store.1 =
            (.ok (.clean manifest.migrations.length manifest), d.store.1) := by
  have hrunning := hreached.running (D := migrationDiscipline manifest)
    (launched_running manifest attempts)
  refine ⟨hrunning.valid.journalSafe, fun i op d hcall => ?_⟩
  obtain ⟨hafter, -, hwrites, hdone⟩ := hrunning.calls hcall
  refine ⟨hwrites, fun m hm statement hpayload hbefore happlied => ?_,
    fun status hstatus hready => ?_⟩
  · have hseen := hafter.valid.journalSafe.observed m hm statement hpayload happlied
    obtain ⟨-, hcommits⟩ := hcall
    exact seen_before hcommits hbefore happlied hseen
  · obtain ⟨hintact, hfinished⟩ := hdone _ hstatus status rfl hready
    exact migrationStatus_finished hintact hfinished

lemma recording_perform (op : StoreCall) (w : World) :
    recording Commits w op (recordingPerform perform op w).1 (recordingPerform perform op w).2 :=
  ⟨.inl rfl, rfl⟩

def todoMigration : Migration :=
  ⟨1, "todo_id", "63cff468225d176586e56986f3a0ac22d653ae56dc225f21d5664ec7897c86ad",
    .schemaDdl ⟨"todo_id", "n", "Todo", "id"⟩⟩

def todoManifest : Manifest where
  schemaVersion := 1
  migrations := [todoMigration]
  ordered := by
    intro i h
    obtain rfl : i = 0 := by simpa using h
    rfl
  names := by decide
  constraints := by simp [todoMigration]
  known := by simp [todoMigration]

def sampleAttempt (attemptId : String) (named : attemptId ≠ "") : MigrationAttempt where
  attemptId := attemptId
  named := named
  recoveryOwnerAttemptId := none
  startedNow := fun _ => ⟨2026, 1, 1, 0, 0, 0, 0, 0, by decide⟩
  completedNow := fun _ => ⟨2026, 1, 1, 0, 0, 1, 0, 0, by decide⟩

def sampleAttempts : Bool → MigrationAttempt
  | true => sampleAttempt "attempt-a" (by decide)
  | false => sampleAttempt "attempt-b" (by decide)

/-- One of two attempts runs to its end, after which the only migration is applied. -/
theorem migration_journal_safety_todo :
    ∃ c, Concurrent.Reaches (recording Commits) (launched todoManifest sampleAttempts) c ∧
      Applied c.store.1 1 ∧ JournalSafe todoManifest c.store := by
  have hreached := Concurrent.Reaches.advance recording_perform 20
    (Concurrent.Reaches.refl (c := launched todoManifest sampleAttempts)) (i := true) rfl
  exact ⟨_, hreached, ⟨_, rfl, rfl⟩,
    (migration_journal_safety todoManifest sampleAttempts _ hreached).1⟩

end Runs

end DevGraph.Proofs
