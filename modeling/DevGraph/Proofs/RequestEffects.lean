import DevGraph.Proofs.PlacementEffects
import DevGraph.Proofs.RequestRoundTrip
import DevGraph.Proofs.SessionEffects
import DevGraph.Proofs.WorkflowEffects

/-!
# The outcome of a request

Every request that succeeds has an outcome: its writes, what became of its subject, and how the
hierarchy changed. The invariants of runs are derived from outcomes alone.
-/

namespace DevGraph.Proofs

open Lib Work

variable {clock : Nat → Datetime}

variable {sha256 : String → String} {s s' : Store} {w w' : WorkObject}

def requestKeys (sha256 : String → String) : Request → List Key
  | .work r => r.key :: r.payload.keys sha256
  | .arena r => r.key :: r.payload.keys

def workPayload? : Request → Option Payload
  | .work r => some r.payload
  | .arena _ => none

def Payload.targetIsWork : Payload → Prop
  | .dependency _ target => target.kind ∈ workKinds
  | .blocker _ target => target.kind ∈ workKinds
  | _ => True

lemma target_kind {v : Json} {target : WorkReference} (h : targetOfJson v = some target) :
    target.kind ∈ workKinds := by
  simp only [targetOfJson, required, Option.bind_eq_bind, Option.bind_eq_some_iff] at h
  obtain ⟨_, -, v', -, h⟩ := h
  simp only [WorkReference.ofJson, required, Option.bind_eq_bind, Option.bind_eq_some_iff,
    Option.pure_def, Option.some.injEq] at h
  obtain ⟨_, -, kind, ⟨_, -, hkind⟩, _, -, _, -, rfl⟩ := h
  exact asName_mem hkind

lemma payload_target {operation : Operation} {v : Json} {p : Payload}
    (h : Payload.ofJson operation v = some p) : Payload.targetIsWork p := by
  cases operation <;> simp only [Payload.ofJson, Option.map_eq_some_iff] at h <;>
    obtain ⟨a, ha, rfl⟩ := h
  case dependencyAdd => exact target_kind ha
  case dependencyRemove => exact target_kind ha
  case blockerAdd => exact target_kind ha
  case blockerRemove => exact target_kind ha
  all_goals trivial

/-- What the parser guarantees of a Work request. -/
structure Accepted (sha256 : String → String) (r : WorkRequest) : Prop where
  kind : r.operation ≠ .sessionState → r.kind ∈ todoKinds
  session : r.operation = .sessionState → r.kind = .sessionRef
  version : r.expectedVersion = none ↔ r.operation = .create
  payload : r.payload.admissible r.kind r.id = true
  target : Payload.targetIsWork r.payload
  resources : r.resources = sortedResources (r.key :: r.payload.keys sha256)
  printed : Printed SafeInt (Payload.ofJson r.operation) Payload.toJson 4 r.payload

lemma subjectKinds_cases {kind : Label} (h : kind ∈ subjectKinds) :
    kind = .sessionRef ∨ kind ∈ todoKinds := by
  revert h
  cases kind <;> decide

variable {r : WorkRequest}

lemma workRequest_accepted {raw : ByteArray}
    (h : WorkRequest.fromJson sha256 raw = .ok r) :
    Accepted sha256 r ∧ WorkRequest.fromJson sha256 r.canonical = .ok r := by
  have hcanonical := workRequest_canonical h
  obtain ⟨fields, e, p, hfields, ⟨he, hadmissible, hp, hpayload, -⟩, rfl⟩ :=
    (workContract sha256).read_eq_some.1 (work_read.1 h)
  have hoperation : p.operation = e.operation := operation_of_ofJson hp
  have hprinted := codec_payload e.operation
    (envelope_payload_ints (strictJsonObject_ints hfields) he) hp
  have hsubject : e.kind ∈ subjectKinds := by
    simp only [workContract, Envelope.ofFields, Option.bind_eq_bind, Option.bind_eq_some_iff,
      required, Option.pure_def, Option.some.injEq] at he
    obtain ⟨_, -, _, -, _, -, kind, ⟨_, -, hname⟩, _, -, _, -, _, -, rfl⟩ := he
    exact asName_mem hname
  simp only [workContract, Envelope.admissible, Bool.and_eq_true, beq_iff_eq,
    decide_eq_decide] at hadmissible
  obtain ⟨⟨⟨⟨⟨⟨hsession, -⟩, -⟩, -⟩, -⟩, -⟩, hexpected⟩ := hadmissible
  rw [← hoperation] at hsession hprinted
  refine ⟨⟨?_, hsession.2, ?_, hpayload, payload_target hp, rfl, hprinted⟩, hcanonical⟩
  · intro hstate
    exact (subjectKinds_cases hsubject).resolve_left fun h => hstate (hsession.1 h)
  · change e.expectedVersion = none ↔ p.operation = .create
    rw [hoperation]
    cases hcase : e.expectedVersion with
    | none =>
      rw [hcase] at hexpected
      exact iff_of_true rfl (of_decide_eq_true hexpected)
    | some version =>
      rw [hcase] at hexpected
      simp only [Bool.and_eq_true, decide_eq_true_eq] at hexpected
      exact iff_of_false (Option.some_ne_none _) hexpected.1

structure ArenaAccepted (r : ArenaRequest) : Prop where
  member : r.operation = .memberSet → r.kind ∈ directKinds
  arena : r.operation ≠ .memberSet → r.kind = .arena
  version : r.expectedVersion = none ↔ r.operation = .create
  payload : r.payload.admissible r.id = true
  resources : r.resources = sortedResources (r.key :: r.payload.keys)

lemma arenaRequest_accepted {raw : ByteArray} {r : ArenaRequest}
    (h : ArenaRequest.fromJson raw = .ok r) :
    ArenaAccepted r ∧ ArenaRequest.fromJson r.canonical = .ok r := by
  have hcanonical := arenaRequest_canonical h
  obtain ⟨fields, e, p, -, ⟨he, hadmissible, hp, hpayload, -⟩, rfl⟩ :=
    arenaContract.read_eq_some.1 (arena_read.1 h)
  have hoperation : p.operation = e.operation := operation_of_arenaPayload hp
  have hsubject : e.kind = .arena ∨ e.kind ∈ directKinds := by
    simp only [arenaContract, ArenaEnvelope.ofFields, Option.bind_eq_bind, Option.bind_eq_some_iff,
      required, Option.pure_def, Option.some.injEq] at he
    obtain ⟨_, -, _, -, _, -, kind, ⟨_, -, hname⟩, _, -, _, -, _, -, rfl⟩ := he
    exact List.mem_cons.1 (asName_mem hname)
  simp only [arenaContract, ArenaEnvelope.admissible, Bool.and_eq_true, beq_iff_eq,
    decide_eq_decide, ← hoperation] at hadmissible
  obtain ⟨hcreate, hmember⟩ := hadmissible
  refine ⟨⟨?_, ?_, hcreate.symm, hpayload, rfl⟩, hcanonical⟩
  · intro hset
    exact hsubject.resolve_left (hmember.1 hset)
  · intro hset
    by_contra hne
    exact hset (hmember.2 hne)

/-- The payloads that leave the flags, the workflow and the progress of their subject. -/
def Payload.plain : Payload → Bool
  | .sessionAttach _ => true
  | .proposalReject _ => true
  | .patch _ => true
  | .status _ => true
  | .parentSet _ => true
  | .dependency _ _ => true
  | .blocker _ _ => true
  | _ => false

def acceptances (s : Store) (key : Key) : List Key :=
  ((s.edges.filter fun e => e.relationship = .acceptedByDecision).filter fun e =>
    e.source = key).map (·.target)

/-- What became of the subject, by the payload of the request. -/
inductive Moved (sha256 : String → String) (payload : Option Payload) (s s' : Store)
    (w w' : WorkObject) : Prop
  | quiet (plain : ∀ p ∈ payload, Payload.plain p = true) (quiet : Quiet w w')
  | archived (request : payload = some .archive) (now : Datetime) (active : w.archived = false)
      (result : w' = { w.next now with archived := true })
  | restored (request : payload = some .restore) (now : Datetime) (archived : w.archived = true)
      (result : w' = { w.next now with archived := false })
  | accepted (a : AcceptProposal) (request : payload = some (.accept a)) (now : Datetime)
      (e : EdgeRecord) (decides : Decides s s' e) (source : e.source = w.key)
      (relation : e.relationship = .acceptedByDecision)
      (result : w' = { w.next now with status := .accepted })
  | converted (c : Conversion) (request : payload = some (.convert c))
      (decision : acceptances s w.key = [(.decision, c.decisionId)]) (quiet : Quiet w w')
  | noted (change : ProgressSet) (request : payload = some (.progressSet change))
      (noted : Noted w w' change) (steady : Steady w w')
  | transitioned (t : WorkflowTransition) (request : payload = some (.workflowTransition t))
      (state state' : WorkflowState) (carries : Carries w state) (unfinished : state.stage ≠ .done)
      (move : transitionState sha256 s w state t = .ok state') (carries' : Carries w' state')
      (steady : Steady w w')
  | reviewed (r : WorkflowReview) (request : payload = some (.workflowReview r))
      (state : WorkflowState) (carries : Carries w state) (unfinished : state.stage ≠ .done)
      (check : checkReview state r = .ok ())
      (carries' : Carries w' (state.withReview r.phase r.recordId))
      (recorded : Recorded sha256 s s' w r) (steady : Steady w w')
  | progressed (change : ProgressSet) (request : payload = some (.progressSet change))
      (state state' : WorkflowState) (carries : Carries w state) (carries' : Carries w' state')
      (move : ProgressStep s w change state state') (steady : Steady w w')

lemma Moved.of_convert {c : Conversion} (h : Moved sha256 (some (.convert c)) s s' w w') :
    acceptances s w.key = [(.decision, c.decisionId)] := by
  cases h with
  | quiet hplain => cases hplain _ rfl
  | converted _ hrequest hdecision =>
    cases hrequest
    exact hdecision
  | _ => injections

lemma Moved.of_review {r : WorkflowReview} (h : Moved sha256 (some (.workflowReview r)) s s' w w') :
    Recorded sha256 s s' w r := by
  cases h with
  | quiet hplain => cases hplain _ rfl
  | reviewed _ hrequest _ _ _ _ _ hrecorded =>
    cases hrequest
    exact hrecorded
  | _ => injections

lemma Moved.of_transition {t : WorkflowTransition}
    (h : Moved sha256 (some (.workflowTransition t)) s s' w w') :
    ∃ state state', Carries w state ∧ transitionState sha256 s w state t = .ok state' ∧
      Carries w' state' := by
  cases h with
  | quiet hplain => cases hplain _ rfl
  | transitioned _ hrequest state state' hcarries _ hmove hcarries' =>
    cases hrequest
    exact ⟨state, state', hcarries, hmove, hcarries'⟩
  | _ => injections

lemma Moved.of_progress {change : ProgressSet}
    (h : Moved sha256 (some (.progressSet change)) s s' w w') :
    Noted w w' change ∨ ∃ state state', Carries w state ∧ Carries w' state' ∧
      ProgressStep s w change state state' := by
  cases h with
  | quiet hplain => cases hplain _ rfl
  | noted _ hrequest hnoted =>
    cases hrequest
    exact .inl hnoted
  | progressed _ hrequest state state' hcarries hcarries' hmove =>
    cases hrequest
    exact .inr ⟨state, state', hcarries, hcarries', hmove⟩
  | _ => injections

lemma Moved.of_archive (h : Moved sha256 (some .archive) s s' w w') :
    w.archived = false ∧ ∃ now, w' = { w.next now with archived := true } := by
  cases h with
  | quiet hplain => cases hplain _ rfl
  | archived _ now hactive hresult => exact ⟨hactive, now, hresult⟩
  | _ => injections

lemma Moved.of_restore (h : Moved sha256 (some .restore) s s' w w') :
    ∃ now, w' = { w.next now with archived := false } := by
  cases h with
  | quiet hplain => cases hplain _ rfl
  | restored _ now _ hresult => exact ⟨now, hresult⟩
  | _ => injections

/-- What became of the subject of a request. -/
inductive Subject (sha256 : String → String) (r : Request) (s : Store) (ws : List StoreWrite)
    (s' : Store) : Prop
  | created (request : ∀ p ∈ workPayload? r, ∃ c, p = .create c)
      (version : r.expectedVersion = none) (absent : s.node? r.key = none)
  | work (w w' : WorkObject) (hold : Holds s w) (key : w.key = r.key)
      (version : r.expectedVersion = some w.version)
      (update : .update w.key w.node w'.node ∈ ws) (hold' : Holds s' w') (key' : w'.key = w.key)
      (live : w.archived = true → workPayload? r = some .restore)
      (moved : Moved sha256 (workPayload? r) s s' w w')
  | arena (request : workPayload? r = none) (a a' : Arena) (key : a.key = r.key)
    (version : r.expectedVersion = some a.version)
      (update : .update a.key a.node a'.node ∈ ws)
  | session (state : SessionState) (request : workPayload? r = some (.sessionState state))
      (id : String) (version : Int) (key : r.key = (.sessionRef, id))
      (expected : r.expectedVersion = some version) (sets : SetsState id version s ws s')

structure Outcome (sha256 : String → String) (r : Request) (s : Store) (ws : List StoreWrite)
    (s' : Store) : Prop where
  effect : Effect r.key (requestKeys sha256 r) s ws s'
  nodup : (nodeKeys ws).Nodup
  reshape : Reshape s s'
  resources : r.resources = sortedResources (requestKeys sha256 r)
  subject : Subject sha256 r s ws s'

/-! ## Work requests -/

lemma quiet_moved {payload : Payload} {keys : List Key} {ws : List StoreWrite}
    (hplain : Payload.plain payload = true) (hmoves : Moves keys s ws s' w w') (hcalm : Calm ws)
    (hquiet : Quiet w w') :
    ∃ ws w', Moves keys s ws s' w w' ∧ Reshape s s' ∧
      Moved sha256 (some payload) s s' w w' := by
  refine ⟨ws, w', hmoves, .of_calm hmoves.effect.trace hcalm, .quiet ?_ hquiet⟩
  intro p hp
  cases hp
  exact hplain

variable {authority : Authority}

lemma executeActive_effect {payload : Payload}
    {x : WorkObject} (hs : WorkNodes s) (hkind : w.kind ∈ todoKinds) (hold : Holds s w)
    (hactive : w.archived = false) (hadmissible : payload.admissible w.kind w.id = true)
    (htarget : Payload.targetIsWork payload)
    (h : executeActive sha256 authority clock w payload s = .ok x s') :
    ∃ ws w', Moves (w.key :: payload.keys sha256) s ws s' w w' ∧ Reshape s s' ∧
      Moved sha256 (some payload) s s' w w' := by
  have hplain : ∀ {p : Payload}, Payload.plain p = true → ∀ q ∈ some p, Payload.plain q = true :=
    fun hp q hq => Option.some.inj hq ▸ hp
  have hkey : ∀ keys : List Key, w.key ∈ w.key :: keys := fun _ => List.mem_cons_self
  have hkeys : ∀ key ∈ payload.keys sha256, key ∈ w.key :: payload.keys sha256 :=
    fun _ => List.mem_cons_of_mem _
  cases payload with
  | sessionAttach a =>
    obtain ⟨ws, hmoves, hcalm, hquiet⟩ := attachWork_effect hkind hold (hkey _) hkeys h
    exact quiet_moved rfl hmoves hcalm hquiet
  | progressSet change =>
    have hrest := fun key hmem => hkeys key (List.mem_cons_of_mem _ hmem)
    rcases setProgress_effect hkind hold (hkey _) (hkeys _ List.mem_cons_self) hrest h with
      ⟨ws, hmoves, hcalm, hsteady, hflow⟩
    refine ⟨ws, _, hmoves, .of_calm hmoves.effect.trace hcalm, ?_⟩
    obtain hnoted | ⟨state, state', hcarries, hcarries', hstep⟩ := hflow
    · exact .noted change rfl hnoted hsteady
    · exact .progressed change rfl state state' hcarries hcarries' hstep hsteady
  | proposalReject rejection =>
    rcases rejectProposal_effect hold (hkey _) (hkeys _ List.mem_cons_self) h with
      ⟨ws, hmoves, ⟨e, hdecides, hrelation⟩, hquiet⟩
    refine ⟨ws, _, hmoves, .decided e hdecides fun haccepted => ?_, .quiet (hplain rfl) hquiet⟩
    cases haccepted.symm.trans hrelation
  | workflowAssign a => exact absurd h (assignWorkflow_fails hkind hold)
  | workflowReview r =>
    have hrest := fun key hmem => hkeys key (List.mem_cons_of_mem _ hmem)
    rcases reviewWorkflow_effect hkind hold (hkey _) (hkeys _ List.mem_cons_self) hrest h with
      ⟨ws, state, hmoves, hreshape, hcarries, hopen, hcheck, hcarries', hsteady, hrecorded⟩
    refine ⟨ws, _, hmoves, ?_, .reviewed r rfl state hcarries hopen hcheck hcarries' hrecorded
      hsteady⟩
    obtain hcalm | ⟨e, hdecides, hrelation⟩ := hreshape
    · exact .of_calm hmoves.effect.trace hcalm
    · refine .decided e hdecides fun haccepted => ?_
      cases haccepted.symm.trans hrelation
  | workflowTransition t =>
    rcases transitionWorkflow_effect hkind hold (hkey _) h with
      ⟨ws, state, state', hmoves, hcalm, hcarries, hopen, hmove, hcarries', hsteady⟩
    exact ⟨ws, _, hmoves, .of_calm hmoves.effect.trace hcalm,
      .transitioned t rfl state state' hcarries hopen hmove hcarries' hsteady⟩
  | patch changes =>
    obtain ⟨ws, hmoves, hcalm, hquiet⟩ := patchWork_effect hkind hold (hkey _) h
    exact quiet_moved rfl hmoves hcalm hquiet
  | status status =>
    obtain ⟨ws, hmoves, hcalm, hquiet⟩ := transitionStatus_effect hkind hold (hkey _) h
    exact quiet_moved rfl hmoves hcalm hquiet
  | accept a =>
    rcases acceptWork_effect (of_decide_eq_true hadmissible) hold (hkey _)
      (hkeys _ List.mem_cons_self) h with
      ⟨ws, hmoves, ⟨e, hdecides, hsource, hrelation⟩, now, hresult⟩
    exact ⟨ws, _, hmoves, .decided e hdecides fun _ =>
      ⟨_, hmoves.holds, hmoves.key.trans hsource.symm, hresult ▸ rfl⟩,
      .accepted a rfl now e hdecides hsource hrelation hresult⟩
  | convert c =>
    rcases convertWork_effect (of_decide_eq_true hadmissible) hold (hkey _)
      (hkeys _ List.mem_cons_self) h with ⟨ws, hmoves, hcalm, hdecision⟩
    exact ⟨ws, _, hmoves, .of_calm hmoves.effect.trace hcalm,
      .converted c rfl hdecision (quiet_next w _)⟩
  | parentSet change =>
    simp only [Payload.admissible, Bool.and_eq_true, Option.all_eq_true,
      decide_eq_true_eq] at hadmissible
    obtain ⟨⟨⟨-, hprevious⟩, hparent⟩, -⟩ := hadmissible
    simp only [Payload.keys] at hkeys ⊢
    have hrefs : ∀ r ∈ change.previousParent.toList ++ change.parent.toList,
        r.key ∈ w.key :: (change.previousParent.toList.map WorkReference.key ++
          change.parent.toList.map WorkReference.key ++
          change.previousArena.join.toList.map fun arena => (.arena, arena.id)) ∧
        r.kind ∈ parents w.kind := by
      intro r hr
      obtain hr | hr := List.mem_append.1 hr
      · exact ⟨hkeys _ (List.mem_append_left _ (List.mem_append_left _ (List.mem_map_of_mem hr))),
          hprevious r (Option.mem_toList.1 hr)⟩
      · exact ⟨hkeys _ (List.mem_append_left _ (List.mem_append_right _ (List.mem_map_of_mem hr))),
          hparent r (Option.mem_toList.1 hr)⟩
    have harenas : ∀ r ∈ change.previousArena.join, (Label.arena, r.id) ∈ w.key ::
        (change.previousParent.toList.map WorkReference.key ++
          change.parent.toList.map WorkReference.key ++
          change.previousArena.join.toList.map fun arena => (.arena, arena.id)) := by
      intro r hr
      apply hkeys _ (List.mem_append_right _ _)
      exact List.mem_map.2 ⟨r, Option.mem_toList.2 hr, rfl⟩
    rcases setParent_effect hs hkind hold hactive (hkey _) hrefs harenas h with
      ⟨ws, hmoves, hquiet, hreshape⟩
    exact ⟨ws, _, hmoves, hreshape, .quiet (hplain rfl) hquiet⟩
  | dependency add r =>
    have hne : r.key ≠ w.key := fun heq => of_decide_eq_true hadmissible (congrArg resource heq)
    rcases edgeChange_effect hs hkind hold hactive (hkey _) (hkeys _ List.mem_cons_self) htarget
      hne (.inl rfl) h with ⟨ws, hmoves, hquiet, hreshape⟩
    exact ⟨ws, _, hmoves, hreshape, .quiet (hplain rfl) hquiet⟩
  | blocker add r =>
    simp only [Payload.admissible, Bool.and_eq_true, decide_eq_true_eq] at hadmissible
    have hne : r.key ≠ w.key := fun heq => hadmissible.1.1 (congrArg resource heq)
    rcases edgeChange_effect hs hkind hold hactive (hkey _) (hkeys _ List.mem_cons_self) htarget
      hne (.inr rfl) h with ⟨ws, hmoves, hquiet, hreshape⟩
    exact ⟨ws, _, hmoves, hreshape, .quiet (hplain rfl) hquiet⟩
  | create => exact absurd h throw_ok
  | archive => exact absurd h throw_ok
  | restore => exact absurd h throw_ok
  | sessionState => exact absurd h throw_ok

lemma executeSubject_effect
    {x : WorkObject} (hs : WorkNodes s) (hkind : r.kind ∈ todoKinds)
    (haccepted : Accepted sha256 r) (hversion : r.expectedVersion ≠ none)
    (h : executeSubject sha256 authority clock r s = .ok x s') :
    ∃ ws, Outcome sha256 (.work r) s ws s' := by
  simp only [executeSubject, bind_ok, reading_ok] at h
  obtain ⟨w, _, ⟨hcurrent, rfl⟩, h⟩ := h
  obtain ⟨hkey, hold, hexpected⟩ := current_ok hs hcurrent
  have hwkind : w.kind = r.kind := congrArg Prod.fst hkey
  have hwid : w.id = r.id := congrArg Prod.snd hkey
  have htodo : w.kind ∈ todoKinds := hwkind ▸ hkind
  have hsome : r.expectedVersion = some w.version := by
    obtain ⟨v, hv⟩ := Option.ne_none_iff_exists'.1 hversion
    rw [hexpected, hv]
    rfl
  have hmoved : ∃ ws w', Moves (w.key :: r.payload.keys sha256) s ws s' w w' ∧
      Reshape s s' ∧ (w.archived = true → some r.payload = some .restore) ∧
      Moved sha256 (some r.payload) s s' w w' := by
    have hadmissible := haccepted.payload
    rw [← hwkind, ← hwid] at hadmissible
    have htarget := haccepted.target
    cases hpayload : r.payload with
    | archive =>
      rw [hpayload] at h
      rcases archive_effect htodo hold List.mem_cons_self h with
        ⟨ws, hmoves, hcalm, hactive, hresult⟩
      exact ⟨ws, _, hmoves, .of_calm hmoves.effect.trace hcalm,
        fun harchived => absurd (hactive.symm.trans harchived) Bool.false_ne_true,
        .archived rfl _ hactive hresult⟩
    | restore =>
      rw [hpayload] at h
      rcases restoreWork_effect htodo hold List.mem_cons_self h with
        ⟨ws, hmoves, hcalm, harchived, hresult⟩
      exact ⟨ws, _, hmoves, .of_calm hmoves.effect.trace hcalm, fun _ => rfl,
        .restored rfl _ harchived hresult⟩
    | _ =>
      rw [hpayload] at h hadmissible htarget
      simp only [active, bind_ok, lift_ok, raiseIf_eq_ok] at h
      obtain ⟨_, _, ⟨hactive, rfl⟩, h⟩ := h
      rcases executeActive_effect hs htodo hold ((Bool.not_eq_true _).mp hactive) hadmissible
        htarget h with ⟨ws, w', hmoves, hreshape, hmoved⟩
      exact ⟨ws, w', hmoves, hreshape, fun harchived => absurd harchived hactive, hmoved⟩
  obtain ⟨ws, w', hmoves, hreshape, hlive, hmoved⟩ := hmoved
  have hkeys : w.key :: r.payload.keys sha256 = requestKeys sha256 (.work r) := by
    rw [hkey]
    rfl
  have heffect : Effect r.key (requestKeys sha256 (.work r)) s ws s' :=
    hkeys ▸ hkey ▸ hmoves.effect
  exact ⟨ws, heffect, hmoves.nodup, hreshape, haccepted.resources,
    .work w w' hold hkey hsome hmoves.subject hmoves.holds hmoves.key hlive hmoved⟩

lemma operation_create {p : Payload} (h : p.operation = .create) : ∃ c, p = .create c := by
  cases p with
  | create c => exact ⟨c, rfl⟩
  | dependency add target => cases add <;> cases h
  | blocker add target => cases add <;> cases h
  | _ => cases h

lemma operation_sessionState {p : Payload} (h : p.operation = .sessionState) :
    ∃ state, p = .sessionState state := by
  cases p with
  | sessionState state => exact ⟨state, rfl⟩
  | dependency add target => cases add <;> cases h
  | blocker add target => cases add <;> cases h
  | _ => cases h

lemma executeParsed_effect
    {x : Changed} (hs : WorkNodes s) (haccepted : Accepted sha256 r)
    (h : executeParsed sha256 authority clock r s = .ok x s') :
    ∃ ws, Outcome sha256 (.work r) s ws s' := by
  cases hpayload : r.payload with
  | sessionState state =>
    have hoperation : r.operation = .sessionState := by rw [WorkRequest.operation, hpayload]; rfl
    have hkey : r.key = (.sessionRef, r.id) := by
      rw [WorkRequest.key, haccepted.session hoperation]
    simp only [executeParsed, hpayload, map_ok] at h
    obtain ⟨value, hset, -⟩ := h
    obtain ⟨ws, hsets⟩ := setState_effect hset
    have hversion : r.expectedVersion = some (r.expectedVersion.getD 0) := by
      cases hexpected : r.expectedVersion with
      | some version => rfl
      | none =>
        rw [haccepted.version, hoperation] at hexpected
        cases hexpected
    have hkeys : requestKeys sha256 (.work r) = [(.sessionRef, r.id)] := by
      rw [requestKeys, hpayload, hkey]
      rfl
    refine ⟨ws, ?_, hsets.nodup, .of_calm hsets.effect.trace hsets.calm, haccepted.resources,
      .session state (congrArg some hpayload) r.id _ hkey hversion hsets⟩
    rw [hkeys]
    exact hkey ▸ hsets.effect
  | create c =>
    have hoperation : r.operation = .create := by rw [WorkRequest.operation, hpayload]; rfl
    have hkind := haccepted.kind (by rw [hoperation]; decide)
    have hcanonical : r.kind ∈ canonicalWorkKinds := by
      revert hkind
      cases r.kind <;> decide
    have hid : c.id = r.id := by
      have hadmissible := haccepted.payload
      rw [hpayload] at hadmissible
      exact of_decide_eq_true hadmissible
    simp only [executeParsed, hpayload, map_ok] at h
    obtain ⟨w, hcreate, -⟩ := h
    obtain ⟨new, hnew, hrecords⟩ := createWork_effect hcanonical hcreate
    rw [hid] at hrecords
    refine ⟨_, ?_, hrecords.nodup, .of_calm hrecords.trace hrecords.calm, haccepted.resources,
      .created (fun p hp => ⟨c, (Option.some.inj hp).symm.trans hpayload⟩)
        (haccepted.version.2 hoperation) (hrecords.absent ?_)⟩
    · rw [requestKeys, hpayload]
      exact hrecords.toEffect
    · rw [hnew, hid]
      exact List.mem_cons_self
  | _ =>
    simp only [executeParsed, hpayload, map_ok] at h
    obtain ⟨w, hsubject, -⟩ := h
    have hstate : r.operation ≠ .sessionState := by
      intro hoperation
      obtain ⟨state, hstate⟩ := operation_sessionState hoperation
      cases hpayload.symm.trans hstate
    have hcreate : r.expectedVersion ≠ none := by
      intro hnone
      obtain ⟨c, hc⟩ := operation_create (haccepted.version.1 hnone)
      cases hpayload.symm.trans hc
    exact executeSubject_effect hs (haccepted.kind hstate) haccepted hcreate hsubject

/-! ## Arena requests -/

lemma executeArena_effect {r : ArenaRequest} {x : Changed}
    (hs : WorkNodes s) (haccepted : ArenaAccepted r) (h : executeArena clock r s = .ok x s') :
    ∃ ws, Outcome sha256 (.arena r) s ws s' := by
  have hchange : ∀ (change : Arena → Arena) (a : Arena), (∀ a, (change a).id = a.id) →
      (∀ a, (change a).version = a.version) → r.operation ≠ .memberSet → r.operation ≠ .create →
      changeArena r change (clock 0) s = .ok a s' → ∃ ws, Outcome sha256 (.arena r) s ws s' := by
    intro change a hid hversion hmember hcreate h
    obtain ⟨arena, hkey, hexpected, heffect⟩ := changeArena_effect hid hversion h
    have hrkey : r.key = (.arena, r.id) := by rw [ArenaRequest.key, haccepted.arena hmember]
    have hsome : r.expectedVersion = some arena.version := by
      rw [hexpected]
      cases hcase : r.expectedVersion with
      | some version => rfl
      | none => exact absurd (haccepted.version.1 hcase) hcreate
    have hwithin : ∀ y ∈ [.update arena.key arena.node a.node],
        writeKey y ∈ requestKeys sha256 (.arena r) := by
      intro y hy
      rw [List.mem_singleton.1 (heffect.within y hy), ← hrkey]
      exact List.mem_cons_self
    have heffect' : Effect r.key (requestKeys sha256 (.arena r)) s _ s' :=
      ⟨heffect.trace, hrkey ▸ heffect.good, hwithin⟩
    exact ⟨_, heffect', List.nodup_singleton _, .of_calm heffect.trace (calm_update _ _ _),
      haccepted.resources, .arena rfl arena a (hkey.trans hrkey.symm) hsome List.mem_cons_self⟩
  cases hpayload : r.payload with
  | create content =>
    simp only [executeArena, hpayload, map_ok] at h
    have hoperation : r.operation = .create := by rw [ArenaRequest.operation, hpayload]; rfl
    have hid : content.id = r.id := by
      have hadmissible := haccepted.payload
      rw [hpayload] at hadmissible
      exact of_decide_eq_true hadmissible
    have hkey : r.key = (.arena, r.id) := by
      rw [ArenaRequest.key, haccepted.arena (by rw [hoperation]; decide)]
    obtain ⟨a, hcreate, -⟩ := h
    obtain ⟨ws, hrecords, hwritten⟩ := createArena_effect hcreate
    rw [hid] at hrecords hwritten
    have habsent : s.node? r.key = none := hkey ▸ hrecords.absent hwritten
    refine ⟨ws, ?_, hrecords.nodup, .of_calm hrecords.trace hrecords.calm, haccepted.resources,
      .created (fun p hp => absurd hp (Option.not_mem_none p)) (haccepted.version.2 hoperation)
        habsent⟩
    have hkeys : requestKeys sha256 (.arena r) = [(.arena, r.id)] := by
      rw [requestKeys, hpayload, hkey]
      rfl
    have hrkey : (Request.arena r).key = (.arena, r.id) := hkey
    rw [hkeys, hrkey]
    exact hrecords.toEffect
  | memberSet m =>
    simp only [executeArena, hpayload, map_ok] at h
    have hoperation : r.operation = .memberSet := by rw [ArenaRequest.operation, hpayload]; rfl
    obtain ⟨w', hset, -⟩ := h
    have hkeys : requestKeys sha256 (.arena r) = r.key ::
        (m.previousArena.toList ++ m.arena.toList).map fun ref => (.arena, ref.id) := by
      rw [requestKeys, hpayload]
      rfl
    have hrefs : ∀ ref ∈ m.previousArena.toList ++ m.arena.toList,
        (Label.arena, ref.id) ∈ requestKeys sha256 (.arena r) := by
      intro ref href
      rw [hkeys]
      exact List.mem_cons_of_mem _ (List.mem_map_of_mem href)
    have hkey : r.key ∈ requestKeys sha256 (.arena r) := hkeys ▸ List.mem_cons_self
    rcases setMember_effect hs (haccepted.member hoperation) hkey hrefs hset with
      ⟨w, ws, hwkey, hold, hversion, hactive, hmoves, hquiet, hreshape⟩
    have hsome : r.expectedVersion = some w.version := by
      rw [hversion]
      cases hcase : r.expectedVersion with
      | some version => rfl
      | none =>
        rw [haccepted.version, hoperation] at hcase
        cases hcase
    have heffect : Effect r.key (requestKeys sha256 (.arena r)) s ws s' := hwkey ▸ hmoves.effect
    exact ⟨ws, heffect, hmoves.nodup, hreshape, haccepted.resources,
      .work w w' hold hwkey hsome hmoves.subject hmoves.holds hmoves.key
        (fun harchived => absurd (hactive.symm.trans harchived) Bool.false_ne_true)
        (.quiet (fun p hp => absurd hp (Option.not_mem_none p)) hquiet)⟩
  | archive =>
    simp only [executeArena, hpayload, map_ok] at h
    obtain ⟨a, harchive, -⟩ := h
    refine hchange _ a ?_ ?_ ?_ ?_ harchive
    · exact fun _ => rfl
    · exact fun _ => rfl
    · rw [ArenaRequest.operation, hpayload]
      decide
    · rw [ArenaRequest.operation, hpayload]
      decide
  | patch changes =>
    simp only [executeArena, hpayload, map_ok] at h
    obtain ⟨a, hpatch, -⟩ := h
    refine hchange _ a ?_ ?_ ?_ ?_ hpatch
    · exact fun _ => rfl
    · exact fun _ => rfl
    · rw [ArenaRequest.operation, hpayload]
      exact nofun
    · rw [ArenaRequest.operation, hpayload]
      exact nofun

theorem execute_outcome {event : Event} {x : Changed} (hs : WorkNodes s)
    (h : event.execute sha256 s = .ok x s') :
    ∃ r ws, event.request sha256 = .ok r ∧ Outcome sha256 r s ws s' := by
  cases event with
  | work raw authority clock =>
    simp only [Event.execute, NamedWorkMutations.execute, bind_ok, lift_ok, transaction_ok] at h
    obtain ⟨r, _, ⟨hparse, rfl⟩, r', _, ⟨hagain, rfl⟩, h⟩ := h
    obtain ⟨haccepted, hcanonical⟩ := workRequest_accepted hparse
    rw [hcanonical] at hagain
    cases hagain
    obtain ⟨ws, houtcome⟩ := executeParsed_effect hs haccepted h
    refine ⟨.work r, ws, ?_, houtcome⟩
    rw [Event.request, hparse]
    rfl
  | arena raw clock =>
    simp only [Event.execute, ArenaMutations.execute, bind_ok, lift_ok, transaction_ok] at h
    obtain ⟨r, _, ⟨hparse, rfl⟩, r', _, ⟨hagain, rfl⟩, h⟩ := h
    obtain ⟨haccepted, hcanonical⟩ := arenaRequest_accepted hparse
    rw [hcanonical] at hagain
    cases hagain
    obtain ⟨ws, houtcome⟩ := executeArena_effect hs haccepted h
    refine ⟨.arena r, ws, ?_, houtcome⟩
    rw [Event.request, hparse]
    rfl

lemma lift_bind_error {α β : Type} {x : Except Error α} {f : α → Tx β} {e : Error}
    (hf : ∀ a, f a s = .error e s' → s' = s) (h : (lift x >>= f) s = .error e s') : s' = s := by
  rw [bind_error] at h
  obtain h | ⟨a, t, hx, h⟩ := h
  · exact reading_error h
  · rw [← (lift_ok.1 hx).2] at h
    exact hf a h

theorem execute_error {event : Event} {e : Error} (h : event.execute sha256 s = .error e s') :
    s' = s := by
  cases event with
  | work raw authority clock =>
    apply lift_bind_error _ h
    intro r h
    exact lift_bind_error (fun _ => transaction_error) h
  | arena raw clock =>
    apply lift_bind_error _ h
    intro r h
    exact lift_bind_error (fun _ => transaction_error) h

end DevGraph.Proofs
