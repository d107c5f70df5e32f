import DevGraph.Proofs.ReviewRecords
import DevGraph.Proofs.Runs

/-!
# Workflows over whole runs

The state of a workflow changes by transitions, reviews and changes of progress. From what each of
them can do follow the ways of an item from stage to stage, and where its reviews come from.
-/

namespace DevGraph.Proofs

open Lib Work

variable {P : WorkflowState → Prop} {phase : Phase}

variable {w : WorkObject} {state state' : WorkflowState}

variable {sha256 : String → String} {s s' : Store} {events : List Event} {n : Nat} {key : Key}

def workflowAt (s : Store) (key : Key) : Option WorkflowState :=
  (s.node? key).bind fun node =>
    (workflowText node.properties).bind fun raw => (decodeState raw).toOption

/-- The stage of an item, or the one that it will resume at. -/
def effectiveStage (state : WorkflowState) : Stage :=
  if state.stage = .blockedWaitingInput then state.resumeStage.getD state.stage else state.stage

lemma workflowAt_holds (hold : Holds s w) :
    workflowAt s w.key = some state ↔ Carries w state := by
  have hread : workflowAt s w.key =
      w.workflowJson.bind fun raw => (decodeState raw).toOption := by
    have hprops : w.node.properties .workflowJson = w.workflowJson.map Value.str := rfl
    rw [workflowAt, hold.node, Option.bind_some, workflowText, hprops]
    cases w.workflowJson <;> rfl
  have hdecode : ∀ raw, (decodeState raw).toOption = some state ↔ decodeState raw = .ok state := by
    intro raw
    cases decodeState raw <;> simp [Except.toOption]
  simp only [hread, Option.bind_eq_some_iff, hdecode, Carries]

/-- What a request on an item did to the state of its workflow. -/
inductive WorkflowStep (sha256 : String → String) (s s' : Store) (w : WorkObject)
    (payload : Payload) (state state' : WorkflowState) : Prop
  | transitioned (t : WorkflowTransition) (request : payload = .workflowTransition t)
      (target : Stage) (clear : gaps sha256 s w state target = .ok [])
      (move : StageMove state target t.reason state')
  | reviewed (r : WorkflowReview) (request : payload = .workflowReview r)
      (check : checkReview state r = .ok ()) (recorded : Recorded sha256 s s' w r)
      (result : state' = state.withReview r.phase r.recordId)
  | progressed (change : ProgressSet) (request : payload = .progressSet change)
      (move : ProgressStep s w change state state')

lemma Change.workflow {r : Request} {w' : WorkObject}
    (h : Change sha256 r s s' w w') (hcarries : Carries w state) :
    ∃ state', Carries w' state' ∧ (state' = state ∨ w.key = r.key ∧
      ∃ p, workPayload? r = some p ∧ WorkflowStep sha256 s s' w p state state') := by
  have hsame : w'.workflowJson = w.workflowJson → ∃ state', Carries w' state' ∧
      (state' = state ∨ w.key = r.key ∧
        ∃ p, workPayload? r = some p ∧ WorkflowStep sha256 s s' w p state state') := by
    intro htext
    obtain ⟨raw, hraw, hdecode⟩ := hcarries
    exact ⟨state, ⟨raw, htext.trans hraw, hdecode⟩, .inl rfl⟩
  cases h with
  | kept heq => exact hsame (by rw [heq])
  | bumped _ _ hnext => exact hsame (by rw [hnext]; rfl)
  | moved hkey _ hmoved =>
    cases hmoved with
    | quiet _ hquiet => exact hsame hquiet.workflow
    | archived _ _ _ hresult => exact hsame (by rw [hresult]; rfl)
    | restored _ _ _ hresult => exact hsame (by rw [hresult]; rfl)
    | accepted _ _ _ _ _ _ _ hresult => exact hsame (by rw [hresult]; rfl)
    | converted _ _ _ hquiet => exact hsame hquiet.workflow
    | noted _ _ hnoted => exact hsame hnoted.workflow
    | transitioned t hrequest state₀ state' hcarries₀ _ hmove hcarries' =>
      cases hcarries.unique hcarries₀
      obtain ⟨target, hclear, hstage⟩ := transitionState_ok hcarries hmove
      exact ⟨state', hcarries', .inr ⟨hkey, _, hrequest, .transitioned t rfl target hclear hstage⟩⟩
    | reviewed r hrequest state₀ hcarries₀ _ hcheck hcarries' hrecorded =>
      cases hcarries.unique hcarries₀
      exact ⟨_, hcarries', .inr ⟨hkey, _, hrequest, .reviewed r rfl hcheck hrecorded rfl⟩⟩
    | progressed change hrequest state₀ state' hcarries₀ hcarries' hmove =>
      cases hcarries.unique hcarries₀
      exact ⟨state', hcarries', .inr ⟨hkey, _, hrequest, .progressed change rfl hmove⟩⟩

theorem workflow_step (hkey : key.1 ∈ canonicalWorkKinds)
    (h : workflowAt (storeAt sha256 events n) key = some state) :
    ∃ state', workflowAt (storeAt sha256 events (n + 1)) key = some state' ∧ (state' = state ∨
      ∃ r w, Executed sha256 events n (.work r) ∧ r.key = key ∧
        Holds (storeAt sha256 events n) w ∧ w.key = key ∧
        WorkflowStep sha256 (storeAt sha256 events n) (storeAt sha256 events (n + 1)) w r.payload
          state state') := by
  obtain hsame | ⟨r, ws, hexecuted, houtcome⟩ := storeAt_cases sha256 events n
  · exact ⟨state, by rw [hsame]; exact h, .inl rfl⟩
  · have hnode : ∃ node, (storeAt sha256 events n).node? key = some node := by
      rw [workflowAt, Option.bind_eq_some_iff] at h
      exact ⟨_, h.choose_spec.1⟩
    obtain ⟨node, hnode⟩ := hnode
    obtain ⟨w, hvalid, rfl, rfl⟩ := workNodes_storeAt sha256 events n key node hkey hnode
    have hold : Holds (storeAt sha256 events n) w := ⟨hnode, hvalid⟩
    obtain ⟨w', hold', hkey', hchange⟩ := houtcome.change hold
    obtain ⟨state', hcarries', hstep⟩ := hchange.workflow ((workflowAt_holds hold).1 h)
    refine ⟨state', hkey' ▸ (workflowAt_holds hold').2 hcarries', ?_⟩
    obtain hsame | ⟨hsubject, p, hpayload, hstep⟩ := hstep
    · exact .inl hsame
    · cases r with
      | work r =>
        cases hpayload
        exact .inr ⟨r, w, hexecuted, hsubject.symm, hold, rfl, hstep⟩
      | arena r => cases hpayload

/-- An item that has a workflow had one before, or was created with a new one. -/
lemma workflow_before (hkey : key.1 ∈ canonicalWorkKinds)
    (h : workflowAt (storeAt sha256 events (n + 1)) key = some state') :
    (∃ state, workflowAt (storeAt sha256 events n) key = some state) ∨
      ∃ workflow, state' = newState workflow .backlog := by
  obtain hsame | ⟨r, ws, -, houtcome⟩ := storeAt_cases sha256 events n
  · exact .inl ⟨state', by rw [← hsame]; exact h⟩
  · have hnode : ∃ node, (storeAt sha256 events (n + 1)).node? key = some node := by
      rw [workflowAt, Option.bind_eq_some_iff] at h
      exact ⟨_, h.choose_spec.1⟩
    obtain ⟨node', hnode'⟩ := hnode
    obtain ⟨w', hvalid', rfl, rfl⟩ := workNodes_storeAt sha256 events (n + 1) key node' hkey hnode'
    have hold' : Holds (storeAt sha256 events (n + 1)) w' := ⟨hnode', hvalid'⟩
    have hcarries' := (workflowAt_holds hold').1 h
    cases hnode : (storeAt sha256 events n).node? w'.key with
    | none => exact .inr ⟨_, (houtcome.created hnode hold').1 state' hcarries'⟩
    | some node =>
      obtain ⟨w, hvalid, hwkey, rfl⟩ := workNodes_storeAt sha256 events n w'.key node hkey hnode
      have hold : Holds (storeAt sha256 events n) w := ⟨hwkey ▸ hnode, hvalid⟩
      have hkind : w.kind ∈ workKinds := by
        rw [show w.kind = w'.kind from congrArg Prod.fst hwkey]
        exact hcarries'.workKind hvalid'
      obtain ⟨state, _, hcarries, -⟩ := hvalid.progressed.flow hkind
      exact .inl ⟨state, hwkey ▸ (workflowAt_holds hold).2 hcarries⟩

lemma executed_transition {r : WorkRequest} {t : WorkflowTransition}
    (h : Executed sha256 events n (.work r)) (hpayload : r.payload = .workflowTransition t) :
    ∃ w w' state state' target, Holds (storeAt sha256 events n) w ∧ w.key = r.key ∧
      Carries w state ∧ Holds (storeAt sha256 events (n + 1)) w' ∧ w'.key = r.key ∧
      Carries w' state' ∧ gaps sha256 (storeAt sha256 events n) w state target = .ok [] ∧
      StageMove state target t.reason state' := by
  rcases executed_moved h (fun _ hc => nomatch hpayload.symm.trans hc)
    (fun _ hc => nomatch hpayload.symm.trans hc) with ⟨w, w', hold, hkey, hold', hkey', hmoved⟩
  rw [hpayload] at hmoved
  obtain ⟨state, state', hcarries, hmove, hcarries'⟩ := hmoved.of_transition
  obtain ⟨target, hclear, hstage⟩ := transitionState_ok hcarries hmove
  exact ⟨w, w', state, state', target, hold, hkey, hcarries, hold', hkey', hcarries', hclear,
    hstage⟩

/-- The ways in which the effective stage of an item changes. -/
inductive StageChange (sha256 : String → String) (s : Store) (w : WorkObject) (payload : Payload)
    (state state' : WorkflowState) : Prop
  | advanced (t : WorkflowTransition) (request : payload = .workflowTransition t)
      (next : forward state.workflowId state.stage = some state'.stage)
      (clear : gaps sha256 s w state state'.stage = .ok [])
  | returned (t : WorkflowTransition) (request : payload = .workflowTransition t)
      (back : returns state.workflowId state.stage = some state'.stage)
      (explained : isBlank t.reason = false)
  | reopened (change : ProgressSet) (request : payload = .progressSet change)
      (target : change.progress = .inProgress) (done : state.stage = .done)
      (stage : state'.stage = if state.workflowId = .vibeCeo then .planning else .intake)
      (reviews : ∀ phase, state'.reviews phase = none)
  | rejected (change : ProgressSet) (request : payload = .progressSet change)
      (target : change.progress = .done) (kind : w.kind = .proposal)
      (disposition : disposition s w = .ok (some .rejected)) (evidence : change.evidence ≠ [])
      (stage : state'.stage = .done)

lemma StageMove.blocking {target : Stage} {reason : String}
    (h : StageMove state target reason state') (hvalid : state.valid = true)
    (hblocked : state.stage = .blockedWaitingInput ∨ state'.stage = .blockedWaitingInput) :
    effectiveStage state' = effectiveStage state := by
  cases h with
  | blocked hopen hstage _ hresult =>
    subst hstage hresult
    rw [effectiveStage, effectiveStage, if_pos rfl, if_neg hopen]
    rfl
  | resumed hstage hresume hresult =>
    subst hresult
    rw [effectiveStage, effectiveStage, if_pos hstage, hresume,
      if_neg (resumeStage_ne hvalid hresume).1]
    rfl
  | returned hback _ hresult =>
    subst hresult
    obtain ⟨htarget, -, hstage⟩ := returns_ne hback
    exact absurd hblocked (not_or.2 ⟨hstage, htarget⟩)
  | advanced hnext hresult =>
    subst hresult
    obtain ⟨htarget, -, hstage⟩ := forward_ne hnext
    exact absurd hblocked (not_or.2 ⟨hstage, htarget⟩)

lemma WorkflowStep.stage {p : Payload}
    (h : WorkflowStep sha256 s s' w p state state') (hvalid : state.valid = true) :
    state'.workflowId = state.workflowId ∧ (effectiveStage state' = effectiveStage state ∨
      StageChange sha256 s w p state state') := by
  cases h with
  | transitioned t hrequest target hclear hmove =>
    have hblocking := hmove.blocking hvalid
    cases hmove with
    | blocked _ hstage _ hresult =>
      subst hstage hresult
      exact ⟨rfl, .inl (hblocking (.inr rfl))⟩
    | resumed hstage _ hresult =>
      subst hresult
      exact ⟨rfl, .inl (hblocking (.inl hstage))⟩
    | returned hback hexplained hresult =>
      subst hresult
      exact ⟨rfl, .inr (.returned t hrequest hback hexplained)⟩
    | advanced hnext hresult =>
      subst hresult
      exact ⟨rfl, .inr (.advanced t hrequest hnext hclear)⟩
  | reviewed r _ _ _ hresult =>
    subst hresult
    exact ⟨rfl, .inl rfl⟩
  | progressed change hrequest hmove =>
    cases hmove with
    | handedOff hkind hrejected htarget hevidence =>
      exact ⟨rfl, .inr (.rejected change hrequest htarget hkind hrejected hevidence rfl)⟩
    | reopened hdone htarget =>
      exact ⟨rfl, .inr (.reopened change hrequest htarget hdone rfl fun _ => rfl)⟩

/-! ## Where reviews come from -/

/-- The request with the given number recorded a review of an item. -/
structure ReviewedAt (sha256 : String → String) (events : List Event) (i : Nat) (key : Key)
    (r : WorkflowReview) (w : WorkObject) (state : WorkflowState) : Prop where
  request : ∃ q, Executed sha256 events i (.work q) ∧ q.key = key ∧ q.payload = .workflowReview r
  hold : Holds (storeAt sha256 events i) w
  subject : w.key = key
  workflow : workflowAt (storeAt sha256 events i) key = some state
  check : checkReview state r = .ok ()
  recorded : Recorded sha256 (storeAt sha256 events i) (storeAt sha256 events (i + 1)) w r

/-- A review that a state gained was recorded by the step, or the state before had it. -/
lemma WorkflowStep.origin {p : Payload} {id : String}
    (h : WorkflowStep sha256 s s' w p state state') (hid : state'.reviews phase = some id) :
    state.reviews phase = some id ∨ ∃ r, p = .workflowReview r ∧ r.phase = phase ∧
      r.recordId = id ∧ checkReview state r = .ok () ∧ Recorded sha256 s s' w r := by
  have hwithout : ∀ phases, (state.withoutReviews phases).reviews phase = some id →
      state.reviews phase = some id := by
    intro phases hkept
    change (if phase ∈ phases then none else state.reviews phase) = some id at hkept
    by_cases hmem : phase ∈ phases
    · rw [if_pos hmem] at hkept
      cases hkept
    · rwa [if_neg hmem] at hkept
  cases h with
  | transitioned t _ target _ hmove =>
    apply Or.inl
    cases hmove with
    | blocked _ _ _ hresult =>
      subst hresult
      exact hwithout _ hid
    | resumed _ _ hresult =>
      subst hresult
      exact hid
    | returned _ _ hresult =>
      subst hresult
      exact hwithout _ hid
    | advanced _ hresult =>
      subst hresult
      exact hid
  | reviewed r hrequest hcheck hrecorded hresult =>
    subst hresult
    change (if phase = r.phase then some r.recordId else state.reviews phase) = some id at hid
    by_cases hphase : phase = r.phase
    · rw [if_pos hphase] at hid
      exact .inr ⟨r, hrequest, hphase.symm, Option.some.inj hid, hcheck, hrecorded⟩
    · rw [if_neg hphase] at hid
      exact .inl hid
  | progressed change _ hmove =>
    cases hmove with
    | handedOff => exact .inl hid
    | reopened => cases hid

/-- The state of the item names the review and has the property. -/
def Names (P : WorkflowState → Prop) (s : Store) (key : Key) (phase : Phase) (id : String) : Prop :=
  ∃ state, workflowAt s key = some state ∧ state.reviews phase = some id ∧ P state

/-- The review was recorded while the state had the property, and has been named ever since. -/
def NamedSince (sha256 : String → String) (events : List Event) (P : WorkflowState → Prop)
    (n : Nat) (key : Key) (phase : Phase) (id : String) : Prop :=
  ∃ i r w state, i < n ∧ ReviewedAt sha256 events i key r w state ∧ r.phase = phase ∧
    r.recordId = id ∧ P state ∧
    ∀ m, i < m → m ≤ n → Names P (storeAt sha256 events m) key phase id

lemma NamedSince.succ {id : String}
    (h : NamedSince sha256 events P n key phase id)
    (hlast : Names P (storeAt sha256 events (n + 1)) key phase id) :
    NamedSince sha256 events P (n + 1) key phase id := by
  obtain ⟨i, r, w, state, hi, hreviewed, hphase, hrecord, hp, hsince⟩ := h
  refine ⟨i, r, w, state, Nat.lt_succ_of_lt hi, hreviewed, hphase, hrecord, hp, ?_⟩
  intro m him hm
  obtain hlt | rfl := Nat.lt_or_eq_of_le hm
  · exact hsince m him (Nat.le_of_lt_succ hlt)
  · exact hlast

/-- A review that a state names was recorded earlier, and the item has named it ever since. A
property of states that no step brings about has held ever since, too. -/
theorem review_origin {id : String}
    (hkey : key.1 ∈ canonicalWorkKinds)
    (hback : ∀ {s s' w p state state'}, WorkflowStep sha256 s s' w p state state' →
      state'.reviews phase = some id → P state' → P state)
    (h : Names P (storeAt sha256 events n) key phase id) :
    NamedSince sha256 events P n key phase id := by
  induction n with
  | zero =>
    obtain ⟨state, hstate, -⟩ := h
    cases hstate
  | succ n ih =>
    have hlast := h
    obtain ⟨state, hstate, hid, hp⟩ := h
    obtain ⟨state₀, hstate₀⟩ | ⟨workflow, rfl⟩ := workflow_before hkey hstate
    · obtain ⟨state', hstate', hstep⟩ := workflow_step hkey hstate₀
      cases hstate.symm.trans hstate'
      obtain rfl | ⟨q, w, hexecuted, hqkey, hold, hwkey, hstep⟩ := hstep
      · exact (ih ⟨state, hstate₀, hid, hp⟩).succ hlast
      · have hp₀ := hback hstep hid hp
        obtain hid₀ | ⟨r, hpayload, hphase, hrecord, hcheck, hrecorded⟩ := hstep.origin hid
        · exact (ih ⟨state₀, hstate₀, hid₀, hp₀⟩).succ hlast
        · refine ⟨n, r, w, state₀, Nat.lt_succ_self n,
            ⟨⟨q, hexecuted, hqkey, hpayload⟩, hold, hwkey, hstate₀, hcheck, hrecorded⟩, hphase,
            hrecord, hp₀, ?_⟩
          intro m hnm hm
          rw [show m = n + 1 by omega]
          exact hlast
    · cases hid

def settledLabels : List Label := [.decision, .handoff, .reviewPacket, .artifact, .externalLink]

lemma settled_step {node : Node} (hlabel : key.1 ∈ settledLabels)
    (h : (storeAt sha256 events n).node? key = some node) :
    (storeAt sha256 events (n + 1)).node? key = some node := by
  obtain hsame | ⟨r, ws, -, houtcome⟩ := storeAt_cases sha256 events n
  · rw [hsame]
    exact h
  · cases houtcome.fate key with
    | kept hsame => exact hsame.trans h
    | created _ habsent =>
      rw [h] at habsent
      cases habsent
    | updated old new _ _ hgood =>
      exfalso
      cases hgood with
      | work hkind =>
        have hdisjoint : ∀ label ∈ settledLabels, label ∉ todoKinds := by decide
        exact hdisjoint _ hlabel hkind
      | arena => exact absurd hlabel (show Label.arena ∉ settledLabels by decide)
      | state => exact absurd hlabel (show Label.sessionWorkState ∉ settledLabels by decide)

theorem settled_run {node : Node} {i : Nat} (hlabel : key.1 ∈ settledLabels)
    (h : (storeAt sha256 events i).node? key = some node) {j : Nat} (hij : i ≤ j) :
    (storeAt sha256 events j).node? key = some node := by
  induction hij with
  | refl => exact h
  | step _ ih => exact settled_step hlabel ih

lemma recordKind_settled (phase : Phase) : recordKind phase ∈ settledLabels := by
  cases phase <;> decide

lemma ReviewedAt.printed {i : Nat} {r : WorkflowReview}
    (h : ReviewedAt sha256 events i key r w state) :
    Printed SafeInt WorkflowReview.ofJson WorkflowReview.toJson 4 r := by
  obtain ⟨q, ⟨event, x, -, hrequest, -⟩, -, hpayload⟩ := h.request
  cases event with
  | arena raw clock =>
    simp only [Event.request] at hrequest
    cases hparse : ArenaRequest.fromJson raw <;> rw [hparse] at hrequest <;> cases hrequest
  | work raw authority clock =>
    simp only [Event.request] at hrequest
    cases hparse : WorkRequest.fromJson sha256 raw with
    | error e =>
      rw [hparse] at hrequest
      cases hrequest
    | ok q' =>
      rw [hparse] at hrequest
      cases hrequest
      have hprinted := (workRequest_accepted hparse).1.printed
      have hread := hprinted.read
      have hoperation : q.operation = .workflowReview := by
        rw [WorkRequest.operation, hpayload]
        rfl
      rw [hpayload] at hprinted hread
      rw [hoperation] at hread
      refine ⟨?_, hprinted.canonical, hprinted.nested⟩
      simp only [Payload.ofJson, Option.map_eq_some_iff, Payload.workflowReview.injEq] at hread
      obtain ⟨r', hr', rfl⟩ := hread
      exact hr'

/-- An approval that holds rests on the record of a review, which has been named ever since. -/
theorem approval_origin
    (hback : ∀ {s s' w p state state'} {id : String}, WorkflowStep sha256 s s' w p state state' →
      state'.reviews phase = some id → P state' → P state)
    (hold : Holds (storeAt sha256 events n) w) (hcarries : Carries w state) (hp : P state)
    {r : WorkflowReview}
    (h : review sha256 (storeAt sha256 events n) w state phase = .ok (some r)) :
    ∃ i w₀ state₀, i < n ∧ ReviewedAt sha256 events i w.key r w₀ state₀ ∧ r.phase = phase ∧
      state.reviews phase = some r.recordId ∧ P state₀ ∧
      (∀ m, i < m → m ≤ n → Names P (storeAt sha256 events m) w.key phase r.recordId) ∧
      ∃ t basisText, t.edges = (storeAt sha256 events i).edges ∧
        (∀ key : Key, key.1 ∈ canonicalWorkKinds →
          t.node? key = (storeAt sha256 events i).node? key) ∧
        basis sha256 t w₀ phase = .ok basisText ∧
        basis sha256 (storeAt sha256 events n) w phase = .ok basisText := by
  obtain ⟨id, node, hid, -, -⟩ := review_ok h
  have hnames : Names P (storeAt sha256 events n) w.key phase id :=
    ⟨state, (workflowAt_holds hold).2 hcarries, hid, hp⟩
  rcases review_origin hold.valid.kind hback hnames with
    ⟨i, r₀, w₀, state₀, hi, hreviewed, rfl, rfl, hp₀, hsince⟩
  obtain ⟨t, record, _, _, _, -, -, -, -, -, -, hnode⟩ := hreviewed.recorded.record
  have hkept := settled_run (recordKind_settled r₀.phase) hnode (Nat.succ_le_of_lt hi)
  obtain ⟨rfl, hbasis⟩ := hreviewed.recorded.read hreviewed.printed hid (hkept.trans hnode.symm) h
  exact ⟨i, w₀, state₀, hi, hreviewed, rfl, hid, hp₀, hsince, hbasis⟩

/-- No step leads into the blocked stage and keeps a resolution. -/
lemma WorkflowStep.blocked {p : Payload}
    {id : String} (h : WorkflowStep sha256 s s' w p state state')
    (hid : state'.reviews .resolution = some id) (hblocked : state'.stage = .blockedWaitingInput) :
    state.stage = .blockedWaitingInput := by
  cases h with
  | transitioned t _ target _ hmove =>
    cases hmove with
    | blocked _ _ _ hresult =>
      subst hresult
      cases hid
    | resumed hstage => exact hstage
    | returned hback _ hresult =>
      subst hresult
      exact absurd hblocked (returns_ne hback).1
    | advanced hnext hresult =>
      subst hresult
      exact absurd hblocked (forward_ne hnext).1
  | reviewed _ _ _ _ hresult =>
    subst hresult
    exact hblocked
  | progressed _ _ hmove =>
    cases hmove with
    | handedOff => cases hblocked
    | reopened =>
      exfalso
      revert hblocked
      cases state.workflowId <;> decide

/-- Over every run, the effective stage of an item that has a workflow changes only by a single
step forward without gaps, a single step back with a reason, the reopening of a done item or the
completion of a rejected proposal. The workflow stays the same, blocking and resuming keep the
effective stage, and an item resumes on an approved resolution that was recorded since it was
blocked. -/
theorem run_no_bypass (sha256 : String → String) (events : List Event) :
    (∀ n key state, key.1 ∈ canonicalWorkKinds →
      workflowAt (storeAt sha256 events n) key = some state →
      ∃ state', workflowAt (storeAt sha256 events (n + 1)) key = some state' ∧
        state'.workflowId = state.workflowId ∧
        (effectiveStage state' = effectiveStage state ∨
          ∃ r w, Executed sha256 events n (.work r) ∧ r.key = key ∧
            Holds (storeAt sha256 events n) w ∧ w.key = key ∧
            StageChange sha256 (storeAt sha256 events n) w r.payload state state')) ∧
    (∀ n r t state state', Executed sha256 events n (.work r) →
      r.payload = .workflowTransition t →
      workflowAt (storeAt sha256 events n) r.key = some state →
      workflowAt (storeAt sha256 events (n + 1)) r.key = some state' →
      (state.stage = .blockedWaitingInput ∨ state'.stage = .blockedWaitingInput) →
      effectiveStage state' = effectiveStage state) ∧
    ∀ n r t state, Executed sha256 events n (.work r) → r.payload = .workflowTransition t →
      workflowAt (storeAt sha256 events n) r.key = some state →
      state.stage = .blockedWaitingInput →
      ∃ i q review, i < n ∧ Executed sha256 events i (.work q) ∧ q.key = r.key ∧
        q.payload = .workflowReview review ∧ review.phase = .resolution ∧
        review.verdict = .approved ∧ state.reviews .resolution = some review.recordId ∧
        ∀ m, i ≤ m → m ≤ n → ∃ state, workflowAt (storeAt sha256 events m) r.key = some state ∧
          state.stage = .blockedWaitingInput := by
  refine ⟨?_, ?_, ?_⟩
  · intro n key state hkey hstate
    obtain ⟨state', hstate', hstep⟩ := workflow_step hkey hstate
    refine ⟨state', hstate', ?_⟩
    obtain rfl | ⟨r, w, hexecuted, hrkey, hold, rfl, hstep⟩ := hstep
    · exact ⟨rfl, .inl rfl⟩
    · have hcarries := (workflowAt_holds hold).1 hstate
      obtain ⟨hworkflow, hstage⟩ := hstep.stage hcarries.valid
      exact ⟨hworkflow, hstage.imp_right fun hchange =>
        ⟨r, w, hexecuted, hrkey, hold, rfl, hchange⟩⟩
  · intro n r t state state' hexecuted hpayload hstate hstate' hblocked
    rcases executed_transition hexecuted hpayload with
      ⟨w, w', state₀, state₁, target, hold, hwkey, hcarries, hold', hwkey', hcarries', -, hmove⟩
    rw [← hwkey] at hstate
    rw [← hwkey'] at hstate'
    cases hcarries.unique ((workflowAt_holds hold).1 hstate)
    cases hcarries'.unique ((workflowAt_holds hold').1 hstate')
    exact hmove.blocking hcarries.valid hblocked
  · intro n r t state hexecuted hpayload hstate hblocked
    rcases executed_transition hexecuted hpayload with
      ⟨w, w', state₀, state₁, target, hold, hwkey, hcarries, -, -, -, hclear, hmove⟩
    rw [← hwkey] at hstate
    cases hcarries.unique ((workflowAt_holds hold).1 hstate)
    have htarget : target ≠ .blockedWaitingInput := by
      cases hmove with
      | blocked hopen => exact absurd hblocked hopen
      | resumed _ hresume => exact (resumeStage_ne hcarries.valid hresume).1
      | returned hback => exact (returns_ne hback).1
      | advanced hnext => exact (forward_ne hnext).1
    obtain ⟨review, hreview, hverdict, -⟩ := approved_ok (gaps_resumed hblocked htarget hclear)
    rcases approval_origin (P := fun state => state.stage = .blockedWaitingInput)
        (fun hstep hid hp => hstep.blocked hid hp) hold hcarries hblocked hreview with
      ⟨i, w₀, state₂, hi, hreviewed, hphase, hid, hblocked₂, hsince, -⟩
    obtain ⟨q, hq, hqkey, hqpayload⟩ := hreviewed.request
    refine ⟨i, q, review, hi, hq, hqkey.trans hwkey, hqpayload, hphase, hverdict, hid, ?_⟩
    intro m him hm
    rw [← hwkey]
    obtain hlt | rfl := Nat.lt_or_eq_of_le him
    · obtain ⟨state₃, hstate₃, -, hblocked₃⟩ := hsince m hlt hm
      exact ⟨state₃, hstate₃, hblocked₃⟩
    · exact ⟨state₂, hreviewed.workflow, hblocked₂⟩

end DevGraph.Proofs
