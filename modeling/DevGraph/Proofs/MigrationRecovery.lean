import DevGraph.Proofs.Migrations

/-!
# Recovery of interrupted migrations

From every state that crashed attempts can leave, the attempt that holds the lock can go on: a
record that was started with its constraint absent is set back and the lock is released, all
others are carried on to the end. A second run then reaches the end.
-/

namespace DevGraph.Proofs

open Lib Work

variable {db' : MigrationDb} {after record : MigrationJournal}

section Total

variable {α β : Type} {manifest : Manifest} {a : MigrationAttempt} {db : MigrationDb} {w : World}

/-- The runner alone comes to an end, with the postcondition. -/
def Yields (p : Runner α) (db : MigrationDb) (P : α → MigrationDb → Prop) : Prop :=
  ∃ value db', runAlone p db = (.ok value, db') ∧ P value db'

lemma Yields.pure {P : α → MigrationDb → Prop} {value : α} (h : P value db) :
    Yields (Pure.pure value) db P :=
  ⟨value, db, rfl, h⟩

variable {Q : β → MigrationDb → Prop}

lemma Yields.bind {p : Runner α} {f : α → Runner β} {P : α → MigrationDb → Prop}
    (h : Yields p db P)
    (hf : ∀ value db', P value db' → Yields (f value) db' Q) : Yields (p >>= f) db Q := by
  obtain ⟨value, db', hrun, hP⟩ := h
  obtain ⟨result, db'', hrun', hQ⟩ := hf value db' hP
  exact ⟨result, db'', (runAlone_bind hrun).trans hrun', hQ⟩

lemma Yields.imp {p : Runner α} {P Q : α → MigrationDb → Prop} (h : Yields p db P)
    (himp : ∀ value db', P value db' → Q value db') : Yields p db Q := by
  obtain ⟨value, db', hrun, hP⟩ := h
  exact ⟨value, db', hrun, himp value db' hP⟩

lemma Yields.ask {halted : Halt} {op : StoreCall} {value : op.Value}
    {f : op.Value → Runner β}
    (h : perform op db = (.ok value, db')) (hf : Yields (f value) db' Q) :
    Yields (Runner.ask halted op >>= f) db Q := by
  obtain ⟨result, db'', hrun, hQ⟩ := hf
  exact ⟨result, db'', (runAlone_bind (runAlone_ask h)).trans hrun, hQ⟩

lemma Yields.guard {condition : Bool} {reason : String} {current : Nat} {f : Unit → Runner β}
    (h : condition = true) (hf : Yields (f ()) db Q) :
    Yields (Runner.require condition reason current >>= f) db Q := by
  obtain ⟨result, db'', hrun, hQ⟩ := hf
  exact ⟨result, db'', (runAlone_bind (runAlone_require reason current h)).trans hrun, hQ⟩

lemma Yields.require {condition : Bool} {reason : String} {current : Nat}
    {P : Unit → MigrationDb → Prop} (h : condition = true) (hP : P () db) :
    Yields (Runner.require condition reason current) db P :=
  ⟨(), db, runAlone_require reason current h, hP⟩

lemma Yields.hold {mismatch : Option String} {current : Nat} {P : Unit → MigrationDb → Prop}
    (h : mismatch = none) (hP : P () db) : Yields (Runner.hold mismatch current) db P :=
  ⟨(), db, runAlone_hold current h, hP⟩

/-- What is safe against all other runners holds for the runner alone. -/
lemma Ensures.alone {p : Runner α} {P : α → World → Prop} (h : Ensures manifest a p P w)
    (hw : Intact manifest w) : ∃ calls, Intact manifest ((runAlone p w.1).2, calls) ∧
      Grows w ((runAlone p w.1).2, calls) ∧
      ∀ value, (runAlone p w.1).1 = .ok value → P value ((runAlone p w.1).2, calls) := by
  obtain ⟨hvalid, hgrows, hpost⟩ := Discipline.Safe.run recording_perform h hw
  obtain ⟨hresult, hdb⟩ := Client.run_recording perform p.run w
  rw [hresult] at hpost
  have hstate : (p.run.run (recordingPerform perform) w).2 =
      ((runAlone p w.1).2, (p.run.run (recordingPerform perform) w).2.2) := Prod.ext hdb rfl
  rw [hstate] at hvalid hgrows hpost
  exact ⟨_, hvalid, hgrows, hpost⟩

lemma Yields.ensures {p : Runner α} {P : α → World → Prop} {Q : α → MigrationDb → Prop}
    (h : Yields p w.1 Q) (hsafe : Ensures manifest a p P w) (hw : Intact manifest w) :
    Yields p w.1 fun value db' => Q value db' ∧
      ∃ calls, Intact manifest (db', calls) ∧ Grows w (db', calls) ∧ P value (db', calls) := by
  obtain ⟨value, db', hrun, hQ⟩ := h
  obtain ⟨calls, hintact, hgrows, hP⟩ := hsafe.alone hw
  rw [hrun] at hintact hgrows hP
  exact ⟨value, db', hrun, hQ, calls, hintact, hgrows, hP value rfl⟩

end Total

section Lock

variable {manifest : Manifest} {a : MigrationAttempt} {w : World}

lemma readJournal_yields (hw : Intact manifest w) (current : Nat) :
    Yields (readJournal manifest current) w.1
      fun byVersion db' => byVersion = w.1.journal ∧ db' = w.1 := by
  have hsound : (manifest.migrations.findSome? fun migration =>
      (w.1.journal.lookup migration.version).bind fun record =>
        journalReason record migration) = none := by
    refine List.findSome?_eq_none_iff.2 fun m hm => ?_
    cases hrecord : w.1.journal.lookup m.version with
    | none => rfl
    | some record => exact journalReason_eq_none.2 (record_sound hw hm hrecord).2.1
  refine Yields.ask rfl (Yields.guard (keys_in_range hw) ?_)
  refine Yields.bind (P := fun _ db' => db' = w.1) (Yields.hold hsound rfl) ?_
  rintro _ _ rfl
  exact Yields.pure ⟨rfl, rfl⟩

lemma bootstrap_yields (hw : Intact manifest w) :
    Yields bootstrap w.1 fun _ db' => db' = { w.1 with bootstrap := some bootstrapConstraint } := by
  have hreason : bootstrapReason (some bootstrapConstraint) = none := by decide
  cases hboot : w.1.bootstrap with
  | some constraint =>
    obtain rfl := hw.bootstrap constraint hboot
    refine Yields.ask (perform_inspectBootstrap hboot) (Yields.hold hreason ?_)
    rw [← hboot]
  | none =>
    have hexecute : perform (.executeBootstrap bootstrapDdl) w.1 =
        (.ok (), { w.1 with bootstrap := some bootstrapConstraint }) := by
      simp only [perform, MigrationDb.executeBootstrap, hboot]
      rfl
    refine Yields.ask (perform_inspectBootstrap hboot) (Yields.ask hexecute ?_)
    exact Yields.ask (perform_inspectBootstrap rfl) (Yields.hold hreason rfl)

def booted (db : MigrationDb) : MigrationDb := { db with bootstrap := some bootstrapConstraint }

/-- What comes before the claim of the lock always succeeds. -/
lemma takeOwnership_reads (hw : Intact manifest w) :
    ∃ calls, Intact manifest (booted w.1, calls) ∧ runAlone (takeOwnership manifest a) w.1 =
      runAlone (claimOwnership a w.1.lockOwner w.1.journal) (booted w.1) := by
  obtain ⟨_, _, hboot, rfl, calls, hintact, -⟩ :=
    (bootstrap_yields hw).ensures (bootstrap_ensures (a := a)) hw
  obtain ⟨_, _, hread, rfl, rfl⟩ := readJournal_yields hintact 0
  refine ⟨calls, hintact, ?_⟩
  rw [takeOwnership, runAlone_bind hboot,
    runAlone_bind (runAlone_ask (perform_inspectOwner hintact)), runAlone_bind hread]
  rfl

lemma acquireOwner_free (hw : Intact manifest w) (hlock : w.1.lockOwner = none) :
    w.1.acquireOwner a.attemptId =
      (true, { w.1 with owner := some ⟨some a.attemptId, .owned, 1⟩ }) := by
  cases howner : w.1.owner with
  | none => simp [MigrationDb.acquireOwner, howner]
  | some owner =>
    obtain ⟨attempt, -, rfl⟩ | rfl := hw.owner owner howner
    · simp [MigrationDb.lockOwner, howner] at hlock
    · simp [MigrationDb.acquireOwner, howner]

lemma settled_of_free (hw : Intact manifest w) (hlock : w.1.lockOwner = none) {version : Nat}
    (hrecord : w.1.journal.lookup version = some record) :
    record.settled = true := by
  by_contra hunsettled
  have hholder := hw.holder version record hrecord (by simpa using hunsettled)
  rw [hlock] at hholder
  cases hholder

/-- The owner itself, and anybody when there is no owner, gets the lock. -/
lemma takeOwnership_yields (hw : Intact manifest w)
    (hlock : w.1.lockOwner = some a.attemptId ∨ w.1.lockOwner = none) :
    Yields (takeOwnership manifest a) w.1 fun _ db' => db'.ownedBy a.attemptId ∧
      db'.journal = w.1.journal ∧ db'.objects = w.1.objects := by
  obtain ⟨calls, hintact, hrun⟩ := takeOwnership_reads (a := a) hw
  unfold Yields
  rw [hrun]
  change Yields _ _ _
  obtain hown | hfree := hlock
  · rw [hown, claimOwnership, if_pos rfl]
    exact Yields.pure ⟨owner_of_lockOwner hw hown, rfl, rfl⟩
  · rw [hfree]
    have hsettled : (w.1.journal.entries.all fun entry =>
        entry.2.settled || entry.2.ownerAttemptId = a.attemptId) = true := by
      refine List.all_eq_true.2 fun entry hentry => ?_
      rw [settled_of_free hw hfree (AList.mem_lookup_iff.2 hentry), Bool.true_or]
    have hacquire : perform (.acquireOwner a.attemptId) (booted w.1) =
        (.ok true, { booted w.1 with owner := some ⟨some a.attemptId, .owned, 1⟩ }) := by
      simp only [perform, acquireOwner_free hintact hfree]
    exact Yields.guard hsettled (Yields.ask hacquire (Yields.require rfl ⟨rfl, rfl, rfl⟩))

lemma recoverOwner_owned {db : MigrationDb} {expected new : String}
    {journal : Option MigrationJournal} (h : (db.recoverOwner expected new journal).1 = true) :
    (db.recoverOwner expected new journal).2.ownedBy new := by
  unfold MigrationDb.recoverOwner at h ⊢
  cases journal with
  | none =>
    simp only at h ⊢
    split at h
    · rw [if_pos ‹_›]
      rfl
    · cases h
  | some journal =>
    simp only at h ⊢
    cases hrecord : db.journal.lookup journal.version with
    | none => simp [hrecord] at h
    | some record =>
      simp only [hrecord] at h ⊢
      split at h
      · rw [if_pos ‹_›]
        rfl
      · cases h

/-- An attempt that is accepted in place of the owner holds the lock. -/
lemma takeOwnership_accepted (hw : Intact manifest w) {current : String}
    (hlock : w.1.lockOwner = some current) (hforeign : current ≠ a.attemptId)
    (haccepted : (runAlone (takeOwnership manifest a) w.1).1 = .ok ()) :
    (runAlone (takeOwnership manifest a) w.1).2.ownedBy a.attemptId := by
  obtain ⟨calls, -, hrun⟩ := takeOwnership_reads (a := a) hw
  rw [hrun, hlock, claimOwnership, if_neg hforeign] at haccepted ⊢
  by_cases hnamed : a.recoveryOwnerAttemptId = some current
  · rw [runAlone_bind (runAlone_require _ _ (decide_eq_true hnamed))] at haccepted ⊢
    cases hjournal : recoveryJournal current w.1.journal with
    | none =>
      rw [hjournal] at haccepted
      cases haccepted
    | some journal =>
      simp only [hjournal] at haccepted ⊢
      rw [runAlone_bind (runAlone_ask rfl)] at haccepted ⊢
      cases hrecover : ((booted w.1).recoverOwner current a.attemptId journal).1 with
      | false =>
        rw [hrecover] at haccepted
        cases haccepted
      | true => exact recoverOwner_owned hrecover
  · rw [runAlone_bind_error (p := Runner.require _ _ _) (by
      rw [Runner.require, if_neg (by simpa using hnamed)]; rfl)] at haccepted
    cases haccepted

end Lock

/-! ## One round with the lock -/

/-- A round changes the record of its own version, and may create constraints. -/
structure Framed (version : Nat) (db db' : MigrationDb) : Prop where
  owner : db'.owner = db.owner
  journal : ∀ v, v ≠ version → db'.journal.lookup v = db.journal.lookup v
  objects : ∀ name object, db.objects.lookup name = some object →
    db'.objects.lookup name = some object

lemma Framed.refl (version : Nat) (db : MigrationDb) : Framed version db db :=
  ⟨rfl, fun _ _ => rfl, fun _ _ h => h⟩

lemma Framed.trans {version : Nat} {db db'' : MigrationDb} (h : Framed version db db')
    (h' : Framed version db' db'') : Framed version db db'' :=
  ⟨h'.owner.trans h.owner, fun v hv => (h'.journal v hv).trans (h.journal v hv),
    fun name object hobject => h'.objects name object (h.objects name object hobject)⟩

def writtenDb (db : MigrationDb) (record : MigrationJournal) : MigrationDb :=
  { db with journal := db.journal.insert record.version record }

lemma writtenDb_lookup (db : MigrationDb) (record : MigrationJournal) :
    (writtenDb db record).journal.lookup record.version = some record :=
  AList.lookup_insert _

lemma writtenDb_framed (db : MigrationDb) (record : MigrationJournal) :
    Framed record.version db (writtenDb db record) :=
  ⟨rfl, fun _ hv => AList.lookup_insert_ne hv, fun _ _ h => h⟩

/-- An earlier run started the record and its constraint is not there. -/
def Stuck (db : MigrationDb) (m : Migration) : Prop :=
  ∃ record, db.journal.lookup m.version = some record ∧ record.state = .ddlStarted ∧
    db.objects.lookup m.name = none

lemma lockOwner_of_owned {db : MigrationDb} {attempt : String} (h : db.ownedBy attempt) :
    db.lockOwner = some attempt := by
  rw [MigrationDb.lockOwner, show db.owner = _ from h]
  rfl

section Round

variable {manifest : Manifest} {a : MigrationAttempt} {db : MigrationDb} {m : Migration}
  {statement : ConstraintStatement}

lemma transition_yields (howned : db.ownedBy a.attemptId) {before : Option MigrationJournal}
    (hversion : ∀ record ∈ before, record.version = after.version)
    (hbefore : db.journal.lookup after.version = before) :
    Yields (transition a before after) db fun _ db' => db' = writtenDb db after := by
  have hcompare : db.compareAndSetJournal before after a.attemptId = (true, writtenDb db after) :=
    if_pos ⟨hversion, lockOwner_of_owned howned, hbefore⟩
  have hset : perform (.compareAndSetJournal before after a.attemptId) db =
      (.ok true, writtenDb db after) := by
    simp only [perform, hcompare]
  exact Yields.ask hset (Yields.require rfl rfl)

/-- The record of the migration, after what the round did so far. -/
structure Holding (a : MigrationAttempt) (m : Migration) (db : MigrationDb)
    (record : MigrationJournal) (db' : MigrationDb) : Prop where
  mine : Mine a m record
  lookup : db'.journal.lookup m.version = some record
  framed : Framed m.version db db'

lemma Holding.transition (h : Holding a m db record db') (howned : db.ownedBy a.attemptId)
    (hversion : after.version = m.version) :
    Yields (transition a (some record) after) db' fun _ db'' => db'' = writtenDb db' after := by
  refine transition_yields (h.framed.owner.trans howned) ?_ (hversion ▸ h.lookup)
  intro record' hrecord'
  rw [← Option.mem_some_iff.1 hrecord', h.mine.version, hversion]

lemma holding_written (db : MigrationDb) (hafter : Mine a m after) :
    Holding a m db after (writtenDb db after) :=
  ⟨hafter, hafter.version ▸ writtenDb_lookup db after, hafter.version ▸ writtenDb_framed db after⟩

lemma Holding.written (h : Holding a m db record db') (hafter : Mine a m after) :
    Holding a m db after (writtenDb db' after) :=
  ⟨hafter, (holding_written db' hafter).lookup,
    h.framed.trans (holding_written db' hafter).framed⟩

/-- The state of the record when the statement is about to be executed or has been. -/
def Underway (db : MigrationDb) (m : Migration) (result : MigrationJournal × Bool)
    (db' : MigrationDb) : Prop :=
  db'.objects = db.objects ∧
    (result.1.state = .ddlStarted ∧
        (result.2 = true → ∃ record, db.journal.lookup m.version = some record ∧
          record.state = .ddlStarted) ∨
      result.1.state = .ddlObserved ∧ db.journal.lookup m.version = some result.1)

structure Landed (m : Migration) (db : MigrationDb) (record : MigrationJournal)
    (db' : MigrationDb) : Prop where
  lookup : db'.journal.lookup m.version = some record
  framed : Framed m.version db db'

lemma Holding.completeRecord (h : Holding a m db record db') (howned : db.ownedBy a.attemptId) :
    Yields (completeRecord a record) db' (Landed m db) := by
  refine Yields.bind (h.transition howned (by exact h.mine.version)) ?_
  rintro _ _ rfl
  refine Yields.pure ⟨?_, h.framed.trans ?_⟩
  · rw [← h.mine.version]
    exact AList.lookup_insert _
  · rw [← h.mine.version]
    exact ⟨rfl, fun _ hv => AList.lookup_insert_ne hv, fun _ _ ho => ho⟩

lemma checkObject_yields (hsound : Sound record m) (hpayload : m.payload = .schemaDdl statement)
    (hobject : db.objects.lookup m.name = some (constraintObject statement)) (current : Nat) :
    Yields (checkObject m record current) db fun _ db' => db' = db :=
  Yields.ask (perform_inspectSchemaObject hobject)
    (Yields.hold (objectReason_seen hsound hpayload) rfl)

lemma reconcile_yields (hsound : Sound record m) (hpayload : m.payload = .schemaDdl statement)
    (hobject : db.objects.lookup m.name = some (constraintObject statement)) :
    Yields (reconcile a m record) db fun _ db' => db' = db :=
  Yields.ask (perform_inspectSchemaObject hobject)
    (Yields.hold (objectReason_seen hsound hpayload) rfl)

lemma executeDdl_lookup
    (hobject : ∀ object, db.objects.lookup statement.name = some object →
      object = constraintObject statement) :
    (db.executeDdl statement).objects.lookup statement.name =
        some (constraintObject statement) ∧
      (db.executeDdl statement).journal = db.journal ∧
      ∀ version, Framed version db (db.executeDdl statement) := by
  unfold MigrationDb.executeDdl
  cases hlookup : db.objects.lookup statement.name with
  | some object =>
    exact ⟨by rw [hlookup, hobject object hlookup], rfl, fun _ => Framed.refl _ _⟩
  | none =>
    refine ⟨AList.lookup_insert _, rfl, fun _ => ⟨rfl, fun _ _ => rfl, fun name object h => ?_⟩⟩
    have hne : name ≠ statement.name := by
      rintro rfl
      simp [hlookup] at h
    exact (AList.lookup_insert_ne hne).trans h

lemma executeStarted_yields (hsound : Sound record m)
    (hpayload : m.payload = .schemaDdl statement) (hname : statement.name = m.name)
    (hobject : ∀ object, db.objects.lookup m.name = some object →
      object = constraintObject statement) :
    Yields (executeStarted a m statement record) db
      fun _ db' => db'.journal = db.journal ∧ Framed m.version db db' := by
  rw [← hname] at hobject
  obtain ⟨hlookup, hjournal, hframed⟩ := executeDdl_lookup hobject
  rw [hname] at hlookup
  refine Yields.bind (P := fun r db' => r = .ok () ∧ db' = db.executeDdl statement)
    ⟨_, _, rfl, rfl, rfl⟩ ?_
  rintro _ _ ⟨rfl, rfl⟩
  exact (checkObject_yields hsound hpayload hlookup 0).imp fun _ _ heq =>
    heq ▸ ⟨hjournal, hframed m.version⟩

variable {calls : List (Σ op : StoreCall, op.Reply)} (hw : Intact manifest (db, calls))
  (howned : db.ownedBy a.attemptId) (hm : m ∈ manifest.migrations)
  (hpayload : m.payload = .schemaDdl statement) (hunapplied : ¬Applied db m.version)

include hw howned hm hpayload hunapplied

omit hm hpayload hunapplied in
lemma owner_of_unsettled (hrecord : db.journal.lookup m.version = some record)
    (hsettled : record.settled = false) : record.ownerAttemptId = a.attemptId := by
  have hholder := hw.holder m.version record hrecord hsettled
  rw [lockOwner_of_owned howned] at hholder
  exact (Option.some.inj hholder).symm

lemma openRecord_yields :
    Yields (openRecord a m statement (db.journal.lookup m.version)) db fun record db' =>
      Holding a m db record db' ∧ db'.objects = db.objects ∧
        (record.state = .pending ∨ db.journal.lookup m.version = some record) := by
  cases hrecord : db.journal.lookup m.version with
  | none =>
    have hmine : Mine a m (.pending m statement a.attemptId (isoformat (a.startedNow m.version))) :=
      ⟨rfl, Sound.ofPending hpayload a _, by simp [MigrationJournal.pending], rfl⟩
    refine Yields.bind (transition_yields howned (by rintro _ ⟨⟩) hrecord) ?_
    rintro _ _ rfl
    exact Yields.pure ⟨holding_written db hmine, rfl, .inl rfl⟩
  | some record =>
    obtain ⟨hversion, hsound, -⟩ := record_sound hw hm hrecord
    have hstate : record.state ≠ .applied := fun happlied => hunapplied ⟨record, hrecord, happlied⟩
    simp only [openRecord]
    split
    · rename_i howner
      exact Yields.pure ⟨⟨⟨hversion, hsound, hstate, howner⟩, hrecord, Framed.refl _ _⟩, rfl,
        .inr rfl⟩
    · rename_i hforeign
      have hsettled : record.settled = true := by
        by_contra hnot
        exact hforeign (owner_of_unsettled hw howned hrecord (by simpa using hnot))
      have hrecoverable : record.state = .recoverableDdlNotApplied := by
        simpa [MigrationJournal.settled, hstate] using hsettled
      have hadopted := hsound.adopted hversion a (a.startedNow m.version)
      refine Yields.guard (decide_eq_true hrecoverable) ?_
      refine Yields.bind (transition_yields howned ?_ (hversion ▸ hrecord)) ?_
      · intro record' hrecord'
        rw [← Option.mem_some_iff.1 hrecord']
      · rintro _ _ rfl
        exact Yields.pure ⟨holding_written _ hadopted, rfl, .inl rfl⟩

/-- After the first transitions the record is started, or was seen before the run. -/
lemma prepareRecord_yields :
    Yields (prepareRecord a m statement (db.journal.lookup m.version)) db
      fun result db' => Holding a m db result.1 db' ∧ Underway db m result db' := by
  refine Yields.bind (openRecord_yields hw howned hm hpayload hunapplied) ?_
  rintro opened db₁ ⟨hopened, hobjects₁, hstate₁⟩
  have hreopen : Yields (reopenRecord a opened) db₁ fun record db' =>
      Holding a m db record db' ∧ db'.objects = db.objects ∧ (record.state = .pending ∨
        db.journal.lookup m.version = some record ∧
          record.state ≠ .recoverableDdlNotApplied) := by
    unfold reopenRecord
    split
    · have hpending : Mine a m { opened with
          state := .pending
          ownerAttemptId := a.attemptId
          startedAt := isoformat (a.startedNow opened.version) } := hopened.mine.reopened
      refine Yields.bind (hopened.transition howned hpending.version) ?_
      rintro _ _ rfl
      exact Yields.pure ⟨hopened.written hpending, hobjects₁, .inl rfl⟩
    · rename_i hstate
      exact Yields.pure ⟨hopened, hobjects₁, hstate₁.imp_right fun h => ⟨h, hstate⟩⟩
  refine Yields.bind hreopen ?_
  rintro reopened db₂ ⟨hreopened, hobjects₂, hstate₂⟩
  unfold startRecord
  split
  · have hstarted : Mine a m { reopened with state := .ddlStarted } :=
      hreopened.mine.withState (by simp)
    refine Yields.bind (hreopened.transition howned hstarted.version) ?_
    rintro _ _ rfl
    exact Yields.pure ⟨hreopened.written hstarted, hobjects₂, .inl ⟨rfl, nofun⟩⟩
  · rename_i hpending
    obtain ⟨hlookup, hrecoverable⟩ := hstate₂.resolve_left hpending
    refine Yields.pure ⟨hreopened, hobjects₂, ?_⟩
    cases hstate : reopened.state with
    | pending => exact absurd hstate hpending
    | ddlStarted => exact .inl ⟨rfl, fun _ => ⟨reopened, hlookup, hstate⟩⟩
    | ddlObserved => exact .inr ⟨rfl, hlookup⟩
    | applied => exact absurd hstate hreopened.mine.unapplied
    | recoverableDdlNotApplied => exact absurd hstate hrecoverable

omit hunapplied in
/-- What an earlier run left of the statement is looked up, and a new statement is executed. -/
lemma finishRecord_yields (hfree : ¬Stuck db m)
    {preexistingStarted : Bool} (hholding : Holding a m db record db')
    (hunderway : Underway db m (record, preexistingStarted) db') :
    Yields (finishRecord a m statement record preexistingStarted) db' (Landed m db) := by
  obtain ⟨hobjects, ⟨hstate, hpre⟩ | ⟨hstate, hlookup⟩⟩ := hunderway
  · have hobject : ∀ object, db'.objects.lookup m.name = some object →
        object = constraintObject statement := by
      rw [hobjects]
      exact hw.objects m hm statement hpayload
    have hobserved : Mine a m { record with state := .ddlObserved } :=
      hholding.mine.withState (by simp)
    have hfinish : ∀ db'', Holding a m db record db'' → Yields (do
        transition a (some record) { record with state := .ddlObserved }
        completeRecord a { record with state := .ddlObserved }) db'' (Landed m db) := by
      intro db'' hdb''
      refine Yields.bind (hdb''.transition howned hobserved.version) ?_
      rintro _ _ rfl
      exact (hdb''.written hobserved).completeRecord howned
    simp only [finishRecord, show record.state = _ from hstate, applyStarted]
    split
    · rename_i hpreexisting
      obtain ⟨started, hstarted, hstartedState⟩ := hpre hpreexisting
      cases hfound : db'.objects.lookup m.name with
      | none => exact absurd ⟨started, hstarted, hstartedState, hobjects ▸ hfound⟩ hfree
      | some object =>
        refine Yields.bind (reconcile_yields hholding.mine.sound hpayload
          (hfound.trans (congrArg some (hobject object hfound)))) ?_
        rintro _ _ rfl
        exact hfinish _ hholding
    · refine Yields.bind (executeStarted_yields hholding.mine.sound hpayload
        (manifest.constraints m hm statement hpayload) hobject) ?_
      rintro _ db'' ⟨hjournal, hframed⟩
      exact hfinish _ ⟨hholding.mine, hjournal ▸ hholding.lookup, hholding.framed.trans hframed⟩
  · simp only [finishRecord, show record.state = _ from hstate]
    have hseen := hw.observed m hm statement hpayload record hlookup (.inr hstate)
    refine Yields.bind (checkObject_yields hholding.mine.sound hpayload
      (hobjects ▸ hseen.1) _) ?_
    rintro _ _ rfl
    exact hholding.completeRecord howned

lemma applySchemaDdl_yields (hfree : ¬Stuck db m) :
    Yields (applySchemaDdl a m statement (db.journal.lookup m.version)) db (Landed m db) :=
  Yields.bind (prepareRecord_yields hw howned hm hpayload hunapplied) fun _ _ h =>
    finishRecord_yields hw howned hm hpayload hfree h.1 h.2

end Round

section Rounds

variable {manifest : Manifest} {a : MigrationAttempt} {db : MigrationDb} {m : Migration}
  {calls : List (Σ op : StoreCall, op.Reply)} {byVersion : Journal}

lemma priorCount_eq {version : Nat} (hprior : Prior db version) :
    db.priorCount version = version - 1 := by
  have hnodup : ((db.journal.entries.filter fun entry => 1 ≤ entry.1 && entry.1 < version &&
      entry.2.state = .applied).map Sigma.fst).Nodup :=
    (List.Sublist.map Sigma.fst List.filter_sublist).nodup db.journal.nodupKeys
  have hkeys : ((db.journal.entries.filter fun entry => 1 ≤ entry.1 && entry.1 < version &&
      entry.2.state = .applied).map Sigma.fst).toFinset = Finset.Ico 1 version := by
    ext u
    simp only [List.mem_toFinset, List.mem_map, List.mem_filter, Bool.and_eq_true,
      decide_eq_true_eq, Finset.mem_Ico]
    constructor
    · rintro ⟨entry, ⟨-, hrange, -⟩, rfl⟩
      exact hrange
    · rintro ⟨hpos, hlt⟩
      obtain ⟨record, hrecord, hstate⟩ := hprior u hpos hlt
      exact ⟨⟨u, record⟩, ⟨AList.mem_lookup_iff.1 hrecord, ⟨hpos, hlt⟩, hstate⟩, rfl⟩
  rw [MigrationDb.priorCount, ← List.length_map Sigma.fst, ← List.toFinset_card_of_nodup hnodup,
    hkeys, Nat.card_Ico]

def Agrees (byVersion : Journal) (db : MigrationDb) : Prop :=
  ∀ version, byVersion.lookup version = db.journal.lookup version

lemma applyMigration_unapplied (hagrees : Agrees byVersion db)
    (hunapplied : ¬Applied db m.version) :
    applyMigration manifest a byVersion m = applyNew manifest a byVersion m := by
  unfold applyMigration
  split
  · rename_i record hrecord
    rw [if_neg fun hstate => hunapplied ⟨record, hagrees m.version ▸ hrecord, hstate⟩]
  · rfl

lemma settled_of_lookup (h : ∀ version record, db.journal.lookup version = some record →
    record.settled = true) : db.settled = true :=
  List.all_eq_true.2 fun entry hentry =>
    h entry.1 entry.2 (AList.mem_lookup_iff.2 hentry)

def Halts {α : Type} (p : Runner α) (db : MigrationDb) (P : MigrationDb → Prop) : Prop :=
  ∃ db', runAlone p db = (.error (.failed "recoverable_ddl_not_applied" 0), db') ∧ P db'

lemma Halts.bind {α β : Type} {p : Runner α} {f : α → Runner β} {P : MigrationDb → Prop}
    (h : Halts p db P) : Halts (p >>= f) db P := by
  obtain ⟨db', hrun, hP⟩ := h
  exact ⟨db', runAlone_bind_error hrun, hP⟩

lemma Yields.halts {α β : Type} {p : Runner α} {f : α → Runner β} {P : α → MigrationDb → Prop}
    {Q : MigrationDb → Prop} (h : Yields p db P)
    (hf : ∀ value db', P value db' → Halts (f value) db' Q) : Halts (p >>= f) db Q := by
  obtain ⟨value, db', hrun, hP⟩ := h
  obtain ⟨db'', hrun', hQ⟩ := hf value db' hP
  exact ⟨db'', (runAlone_bind hrun).trans hrun', hQ⟩

lemma perform_releaseOwner (howned : db.ownedBy a.attemptId) (hsettled : db.settled = true) :
    perform (.releaseOwner a.attemptId) db =
      (.ok true, { db with owner := some ⟨none, .clean, 1⟩ }) := by
  have hrelease : db.releaseOwner a.attemptId =
      (true, { db with owner := some ⟨none, .clean, 1⟩ }) := if_pos ⟨howned, hsettled⟩
  simp only [perform, hrelease]

variable (hw : Intact manifest (db, calls)) (howned : db.ownedBy a.attemptId)

include hw howned

lemma applyTransactional_yields (hm : m ∈ manifest.migrations)
    (hpayload : m.payload = .transactionalData) (hunapplied : ¬Applied db m.version)
    (hprior : Prior db m.version) :
    Yields (applyTransactional manifest a m (db.journal.lookup m.version)) db
      fun refreshed db' => refreshed = db'.journal ∧ Framed m.version db db' := by
  have hnone : db.journal.lookup m.version = none := by
    cases hrecord : db.journal.lookup m.version with
    | none => rfl
    | some record =>
      exact absurd ⟨record, hrecord, (record_sound hw hm hrecord).2.2 hpayload⟩ hunapplied
  obtain ⟨db', hdb'⟩ : ∃ db', db' = { db with
      journal := db.journal.insert m.version
        (.transactionalApplied m a.attemptId (isoformat (a.completedNow m.version)))
      dataChanges := m.version :: db.dataChanges } := ⟨_, rfl⟩
  have happly : db.applyTransactionalData m a.attemptId (isoformat (a.completedNow m.version)) =
      (.ok true, db') := by
    rw [hdb']
    exact if_pos ⟨manifest.known m hm hpayload, hpayload, howned, priorCount_eq hprior, hnone⟩
  have hintact : Intact manifest (db', calls) := by
    have hkept : CallKept manifest a.attemptId (db, calls) .inspectOwner
        ((db.applyTransactionalData m a.attemptId (isoformat (a.completedNow m.version))).2,
          calls) :=
      hw.applyTransactionalData a.named hm (isSome_isoformat _) hprior
    rw [happly] at hkept
    exact hkept.intact
  have hlookup : db'.journal.lookup m.version = some (.transactionalApplied m a.attemptId
      (isoformat (a.completedNow m.version))) := by
    rw [hdb']
    exact AList.lookup_insert _
  have hframed : Framed m.version db db' := by
    rw [hdb']
    exact ⟨rfl, fun _ hv => AList.lookup_insert_ne hv, fun _ _ ho => ho⟩
  refine Yields.guard (by rw [hnone]; rfl) (Yields.ask happly (Yields.guard rfl ?_))
  refine Yields.bind (readJournal_yields hintact _) fun refreshed db₁ hread => ?_
  rw [hread.1, hread.2]
  exact Yields.guard (by rw [hlookup]; rfl) (Yields.pure ⟨rfl, hframed⟩)

omit howned in
lemma applied_yields (hm : m ∈ manifest.migrations)
    (hagrees : Agrees byVersion db) (happlied : Applied db m.version) :
    Yields (applyMigration manifest a byVersion m) db
      fun byVersion' db' => byVersion' = byVersion ∧ db' = db := by
  obtain ⟨record, hrecord, hstate⟩ := happlied
  have hsound := (record_sound hw hm hrecord).2.1
  simp only [applyMigration, hagrees m.version, hrecord, if_pos hstate]
  have hrecheck : Yields (recheck m record) db fun _ db' => db' = db := by
    unfold recheck
    split
    · rename_i statement hpayload
      have hseen := hw.observed m hm statement hpayload record hrecord (.inl hstate)
      exact checkObject_yields hsound hpayload hseen.1 _
    · exact Yields.pure rfl
  exact Yields.bind hrecheck fun _ _ heq => Yields.pure ⟨rfl, heq⟩

lemma applyMigration_yields (hm : m ∈ manifest.migrations)
    (hprior : Prior db m.version) (hagrees : Agrees byVersion db)
    (hfree : ¬Stuck db m) :
    Yields (applyMigration manifest a byVersion m) db
      fun byVersion' db' => Agrees byVersion' db' ∧ Framed m.version db db' := by
  by_cases hunapplied : Applied db m.version
  · refine (applied_yields hw hm hagrees hunapplied).imp ?_
    rintro _ _ ⟨rfl, rfl⟩
    exact ⟨hagrees, Framed.refl _ _⟩
  · rw [applyMigration_unapplied hagrees hunapplied, applyNew]
    split
    · rename_i hpayload
      rw [hagrees m.version]
      refine (applyTransactional_yields hw howned hm hpayload hunapplied hprior).imp ?_
      rintro _ _ ⟨rfl, hframed⟩
      exact ⟨fun _ => rfl, hframed⟩
    · rename_i statement hpayload
      rw [hagrees m.version]
      refine Yields.bind (applySchemaDdl_yields hw howned hm hpayload hunapplied hfree)
        fun record db' hlanded => Yields.pure ⟨fun version => ?_, hlanded.framed⟩
      by_cases hsame : version = m.version
      · rw [hsame, AList.lookup_insert, hlanded.lookup]
      · rw [AList.lookup_insert_ne hsame, hagrees version, hlanded.framed.journal version hsame]

omit howned in
lemma snapshot_of_agrees (hagrees : Agrees byVersion db) :
    Snapshot manifest byVersion (db, calls) := by
  intro version record hrecord
  rw [hagrees version] at hrecord
  exact ⟨hw.records version record hrecord, fun hstate => ⟨record, hrecord, hstate⟩⟩

omit hw howned in
/-- The loop from any of its rounds on, when none of the versions ahead is stuck. -/
lemma loop_yields (earlier : List Migration) {rest : List Migration}
    (hsplit : manifest.migrations = earlier ++ rest) (hw : Intact manifest (db, calls))
    (howned : db.ownedBy a.attemptId) (hearlier : ∀ m ∈ earlier, Applied db m.version)
    (hagrees : Agrees byVersion db) (hfree : ∀ m ∈ rest, ¬Stuck db m) :
    Yields (rest.foldlM (applyMigration manifest a) byVersion) db
      fun _ db' => db'.ownedBy a.attemptId ∧ ∃ calls', Intact manifest (db', calls') ∧
        ∀ m ∈ manifest.migrations, Applied db' m.version := by
  induction rest generalizing earlier byVersion db calls with
  | nil => exact Yields.pure ⟨howned, calls, hw, by simpa [hsplit] using hearlier⟩
  | cons m rest ih =>
    rw [List.foldlM_cons]
    have hm : m ∈ manifest.migrations := by simp [hsplit]
    have hprior := prior_applied hsplit hearlier
    have hround := (applyMigration_yields hw howned hm hprior hagrees
      (hfree m List.mem_cons_self)).ensures
      (applyMigration_ensures (a := a) (w := (db, calls)) hm hprior hw
        (snapshot_of_agrees hw hagrees)) hw
    refine Yields.bind hround ?_
    rintro byVersion' db' ⟨⟨hagrees', hframed⟩, calls', hw', hgrows, -, happlied⟩
    refine ih (earlier ++ [m]) (by simp [hsplit]) hw' (hframed.owner.trans howned) ?_ hagrees' ?_
    · intro m' hm'
      obtain hold | hnew := List.mem_append.1 hm'
      · exact (show Applied (db, calls).1 _ from hearlier m' hold).later hgrows
      · rw [List.mem_singleton] at hnew
        exact hnew ▸ happlied
    · rintro m' hm' ⟨record, hrecord, hstate, hobject⟩
      by_cases hsame : m'.version = m.version
      · exact not_applied hrecord (by simp [hstate]) (hsame ▸ happlied)
      · refine hfree m' (List.mem_cons_of_mem _ hm') ⟨record, ?_, hstate, ?_⟩
        · rw [← hframed.journal _ hsame, hrecord]
        · cases hfound : db.objects.lookup m'.name with
          | none => rfl
          | some object =>
            rw [hframed.objects _ _ hfound] at hobject
            cases hobject

lemma retreat_halts (hmine : Mine a m record)
    (hrecord : db.journal.lookup m.version = some record) :
    Halts (retreat a record) db fun db' => db'.lockOwner = none := by
  have hholding : Holding a m db record db := ⟨hmine, hrecord, Framed.refl _ _⟩
  have hback : Mine a m { record with state := .recoverableDdlNotApplied } :=
    hmine.withState (by simp)
  have hnot := not_applied hrecord hmine.unapplied
  refine Yields.halts (hholding.transition howned hback.version) fun _ db₁ hdb₁ => ?_
  have hdb₁' := hholding.written hback
  rw [← hdb₁] at hdb₁'
  have hsettled : db₁.settled = true := by
    refine settled_of_lookup fun version other hother => ?_
    by_cases hsame : version = m.version
    · rw [hsame, hdb₁'.lookup, Option.some.injEq] at hother
      rw [← hother]
      rfl
    · rw [hdb₁'.framed.journal version hsame] at hother
      have hstate := others_applied hw (hw.ordered _ _ hrecord) hnot
        (not_applied_version_zero hw hrecord) hsame hother
      simp [MigrationJournal.settled, hstate]
  have hperform := perform_releaseOwner (hdb₁'.framed.owner.trans howned) hsettled
  exact ⟨_, (runAlone_bind (runAlone_ask hperform)).trans (runAlone_bind rfl), rfl⟩

lemma applyMigration_halts (hm : m ∈ manifest.migrations) (hagrees : Agrees byVersion db)
    (hstuck : Stuck db m) :
    Halts (applyMigration manifest a byVersion m) db fun db' => db'.lockOwner = none := by
  obtain ⟨record, hrecord, hstate, hobject⟩ := hstuck
  have hunapplied := not_applied hrecord (by simp [hstate])
  obtain ⟨hversion, hsound, hkind⟩ := record_sound hw hm hrecord
  have howner := owner_of_unsettled hw howned hrecord (by simp [MigrationJournal.settled, hstate])
  have hmine : Mine a m record := ⟨hversion, hsound, by simp [hstate], howner⟩
  rw [applyMigration_unapplied hagrees hunapplied, applyNew]
  split
  · rename_i hpayload
    simp [hkind hpayload] at hstate
  · rename_i statement hpayload
    rw [hagrees m.version, hrecord]
    have hprepare : Yields (prepareRecord a m statement (some record)) db
        fun result db' => result = (record, true) ∧ db' = db := by
      refine ⟨(record, true), db, ?_, rfl, rfl⟩
      have hreopen : reopenRecord a record = pure record := if_neg (by simp [hstate])
      have hstart : startRecord a true record = pure (record, true) := if_neg (by simp [hstate])
      simp only [prepareRecord, openRecord, if_pos howner]
      rw [runAlone_bind (runAlone_pure record), hreopen, runAlone_bind (runAlone_pure record),
        Option.any_some, decide_eq_true hstate, hstart, runAlone_pure]
    refine Halts.bind (Yields.halts hprepare fun result db' h => ?_)
    rw [h.1, h.2]
    simp only [finishRecord, hstate, applyStarted, if_true]
    obtain ⟨db₁, hretreat, hfree⟩ := retreat_halts hw howned hmine hrecord
    exact Halts.bind ⟨db₁,
      (runAlone_bind (runAlone_ask (perform_inspectSchemaObject hobject))).trans
      hretreat, hfree⟩

lemma loop_halts (earlier : List Migration) {rest : List Migration}
    (hsplit : manifest.migrations = earlier ++ rest) (hagrees : Agrees byVersion db)
    (hstuck : ∃ m ∈ rest, Stuck db m) :
    Halts (rest.foldlM (applyMigration manifest a) byVersion) db
      fun db' => db'.lockOwner = none := by
  induction rest generalizing earlier byVersion with
  | nil =>
    obtain ⟨m, hm, -⟩ := hstuck
    cases hm
  | cons m rest ih =>
    rw [List.foldlM_cons]
    have hm : m ∈ manifest.migrations := by simp [hsplit]
    obtain ⟨m', hm', hstuck'⟩ := hstuck
    obtain rfl | hrest := List.mem_cons.1 hm'
    · exact (applyMigration_halts hw howned hm hagrees hstuck').bind
    · -- A record of a later version shows that this one is applied.
      have happlied : Applied db m.version := by
        obtain ⟨record, hrecord, -⟩ := hstuck'
        refine hw.ordered _ _ hrecord _ (version_mem hm).1 ?_
        exact version_lt_of_split hsplit hrest
      refine Yields.halts (applied_yields hw hm hagrees happlied) fun byVersion' db' h => ?_
      rw [h.1, h.2]
      exact ih (earlier ++ [m]) (by simp [hsplit]) hagrees ⟨m', hrest, hstuck'⟩

/-- What comes before the loop always succeeds for the owner of the lock. -/
lemma migrateOwned_reads :
    runAlone (migrateOwned manifest a) db = runAlone (do
      let _ ← manifest.migrations.foldlM (applyMigration manifest a) db.journal
      let released ← Runner.ask unexpectedFailure (.releaseOwner a.attemptId)
      Runner.require released "operator_hold_owner_release" 0) db := by
  obtain ⟨byVersion, db', hread, hjournal, hdb⟩ := readJournal_yields hw 0
  rw [hjournal, hdb] at hread
  have hposture : ownedPosture a.attemptId db.owner = true := decide_eq_true howned
  rw [migrateOwned, runAlone_bind (runAlone_ask (perform_inspectOwner hw)),
    runAlone_bind (runAlone_require _ _ hposture), runAlone_bind hread]

/-- The run of the owner ends well, unless a record is stuck. -/
lemma migrateOwned_yields (hfree : ∀ m ∈ manifest.migrations, ¬Stuck db m) :
    Yields (migrateOwned manifest a) db fun _ _ => True := by
  unfold Yields
  rw [migrateOwned_reads hw howned]
  refine Yields.bind (loop_yields [] rfl hw howned (by simp) (fun _ => rfl) hfree) ?_
  rintro _ db₁ ⟨howned₁, calls₁, hw₁, happlied⟩
  have hsettled : db₁.settled = true := by
    refine settled_of_lookup fun version record hrecord => ?_
    obtain ⟨m, hm, rfl, -⟩ := hw₁.records version record hrecord
    obtain ⟨applied, hlookup, hstate⟩ := happlied m hm
    rw [show db₁.journal.lookup m.version = some record from hrecord, Option.some.injEq] at hlookup
    simp [MigrationJournal.settled, hlookup, hstate]
  exact Yields.ask (perform_releaseOwner howned₁ hsettled) (Yields.require rfl trivial)

lemma migrateOwned_halts (hstuck : ∃ m ∈ manifest.migrations, Stuck db m) :
    Halts (migrateOwned manifest a) db fun db' => db'.lockOwner = none := by
  unfold Halts
  rw [migrateOwned_reads hw howned]
  exact (loop_halts hw howned [] rfl (fun _ => rfl) hstuck).bind

end Rounds

/-! ## Reruns -/

def CleanRun (manifest : Manifest) (a : MigrationAttempt) (db db' : MigrationDb) : Prop :=
  (applyMigrations manifest a).run perform db =
      (.ok (.clean manifest.migrations.length manifest), db') ∧
    (migrationStatus manifest).run perform db' =
      (.ok (.clean manifest.migrations.length manifest), db')

/-- The first run ends with a clean status, or sets a record back and the second run does. -/
def CleanWithinTwo (manifest : Manifest) (first second : MigrationAttempt) (db : MigrationDb) :
    Prop :=
  (∃ db', CleanRun manifest first db db') ∨
    ∃ db₁ db₂, (applyMigrations manifest first).run perform db =
        (.ok (.failed "recoverable_ddl_not_applied" manifest 0), db₁) ∧
      CleanRun manifest second db₁ db₂

section Reruns

variable {manifest : Manifest} {a b : MigrationAttempt} {w : World}

lemma applyMigrations_run {result : Except Halt Unit}
    (h : runAlone (migrate manifest a) w.1 = (result, db')) :
    (applyMigrations manifest a).run perform w.1 =
      (match result with
        | .ok () => .ok (.clean manifest.migrations.length manifest)
        | .error (.failed reason current) => .ok (.failed reason manifest current)
        | .error .raised => .error (), db') := by
  refine (Client.run_bind perform _ _ _).trans ?_
  rw [show (migrate manifest a).run.run perform w.1 = _ from h]
  match result with
  | .ok () => rfl
  | .error (.failed reason current) => rfl
  | .error .raised => rfl

lemma cleanRun_of_yields (hw : Intact manifest w)
    (h : Yields (migrate manifest a) w.1 fun _ _ => True) :
    ∃ db', CleanRun manifest a w.1 db' := by
  obtain ⟨⟨⟩, db', hrun, -, calls, hintact, -, hfinished⟩ :=
    h.ensures (migrate_ensures (a := a) hw) hw
  exact ⟨db', applyMigrations_run hrun, migrationStatus_finished hintact hfinished⟩

lemma free_yields (hw : Intact manifest w) (hlock : w.1.lockOwner = none) :
    Yields (migrate manifest a) w.1 fun _ _ => True := by
  refine Yields.bind ((takeOwnership_yields hw (.inr hlock)).ensures
    (takeOwnership_ensures (a := a) hw) hw) ?_
  rintro _ db₁ ⟨⟨howned, hjournal, -⟩, calls₁, hw₁, -⟩
  refine migrateOwned_yields hw₁ howned ?_
  rintro m hm ⟨record, hrecord, hstate, -⟩
  rw [hjournal] at hrecord
  have hsettled := settled_of_free hw hlock hrecord
  simp [MigrationJournal.settled, hstate] at hsettled

/-- Whoever obtains the lock needs two runs at most. -/
lemma cleanWithinTwo_of_owned (hw : Intact manifest w) {db₁ : MigrationDb}
    (htake : runAlone (takeOwnership manifest a) w.1 = (.ok (), db₁))
    (howned : db₁.ownedBy a.attemptId) (b : MigrationAttempt) :
    CleanWithinTwo manifest a b w.1 := by
  obtain ⟨calls₁, hw₁, -⟩ := (takeOwnership_ensures (a := a) hw).alone hw
  rw [htake] at hw₁
  by_cases hstuck : ∃ m ∈ manifest.migrations, Stuck db₁ m
  · obtain ⟨db₂, hrun, hlock⟩ := migrateOwned_halts hw₁ howned hstuck
    have hmigrate : runAlone (migrate manifest a) w.1 =
        (.error (.failed "recoverable_ddl_not_applied" 0), db₂) :=
      (runAlone_bind htake).trans hrun
    obtain ⟨calls₂, hw₂, -⟩ := (migrate_ensures (a := a) hw).alone hw
    rw [hmigrate] at hw₂
    obtain ⟨db₃, hclean⟩ := cleanRun_of_yields hw₂ (free_yields (a := b) hw₂ hlock)
    exact .inr ⟨db₂, db₃, applyMigrations_run hmigrate, hclean⟩
  · refine .inl (cleanRun_of_yields hw ?_)
    obtain ⟨value, db₂, hrun, -⟩ := migrateOwned_yields hw₁ howned
      fun m hm hm' => hstuck ⟨m, hm, hm'⟩
    exact ⟨value, db₂, (runAlone_bind htake).trans hrun, trivial⟩

/-- From every state that attempts can leave, crashed at any call, two runs by the owner of the
lock end with a clean status, and so do two runs by anybody when the lock is free, or by an
attempt that the operator lets take over the lock. -/
theorem migration_crash_recovery {ι : Type} [DecidableEq ι] (manifest : Manifest)
    (attempts : ι → MigrationAttempt)
    (c : Concurrent ι StoreCall StoreCall.Reply (Except Unit MigrationStatus) World)
    (hreached : Concurrent.Reaches (recording Commits) (launched manifest attempts) c) :
    (∀ first second : MigrationAttempt, second.attemptId = first.attemptId →
      c.store.1.lockOwner = some first.attemptId ∨ c.store.1.lockOwner = none →
        CleanWithinTwo manifest first second c.store.1) ∧
      ∀ (first second : MigrationAttempt) (current : String),
        second.attemptId = first.attemptId → c.store.1.lockOwner = some current →
        current ≠ first.attemptId → first.recoveryOwnerAttemptId = some current →
        (runAlone (takeOwnership manifest first) c.store.1).1 = .ok () →
          CleanWithinTwo manifest first second c.store.1 := by
  have hintact : Intact manifest c.store :=
    (hreached.running (D := migrationDiscipline manifest)
      (launched_running manifest attempts)).valid
  refine ⟨fun first second _ hlock => ?_,
    fun first second current _ hlock hforeign _ haccepted => ?_⟩
  · obtain ⟨⟨⟩, db₁, htake, howned, -⟩ := takeOwnership_yields (a := first) hintact hlock
    exact cleanWithinTwo_of_owned hintact htake howned second
  · have howned := takeOwnership_accepted hintact hlock hforeign haccepted
    exact cleanWithinTwo_of_owned hintact (Prod.ext haccepted rfl) howned second

/-- An attempt crashes before it executes the statement, and the attempt itself or another that
takes over its lock goes on. -/
theorem migration_crash_recovery_started :
    ∃ c, Concurrent.Reaches (recording Commits) (launched todoManifest sampleAttempts) c ∧
      Stuck c.store.1 todoMigration ∧
      CleanWithinTwo todoManifest (sampleAttempts true) (sampleAttempts true) c.store.1 ∧
      CleanWithinTwo todoManifest { sampleAttempts false with
        recoveryOwnerAttemptId := some "attempt-a" } (sampleAttempts false) c.store.1 := by
  have hreached := Concurrent.Reaches.advance recording_perform 10
    (Concurrent.Reaches.refl (c := launched todoManifest sampleAttempts)) (i := true) rfl
  have hrecovery := migration_crash_recovery todoManifest sampleAttempts _ hreached
  exact ⟨_, hreached.stop true, ⟨_, rfl, rfl, rfl⟩, hrecovery.1 _ _ rfl (.inl rfl),
    hrecovery.2 _ _ "attempt-a" rfl rfl (by decide) rfl rfl⟩

end Reruns

end DevGraph.Proofs
