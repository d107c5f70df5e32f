import DevGraph.Proofs.ObjectEffects

/-!
# Effects of the workflow and progress operations

A review creates its evidence links and its record before it moves its subject; a transition
only moves it. The state that the subject carries afterwards is the one that was computed.
-/

namespace DevGraph.Proofs

open Lib Work

variable {evidence : List Evidence} {text : Option String}

variable {state : WorkflowState} {clock : Nat → Datetime} {change : ProgressSet}

variable {sha256 : String → String} {keys : List Key} {s s' : Store} {w w' : WorkObject}

lemma Carries.unique {state' : WorkflowState} (h : Carries w state) (h' : Carries w state') :
    state' = state := by
  obtain ⟨raw, hraw, hdecode⟩ := h
  obtain ⟨raw', hraw', hdecode'⟩ := h'
  rw [hraw] at hraw'
  cases hraw'
  rw [hdecode] at hdecode'
  cases hdecode'
  rfl

lemma Carries.valid (h : Carries w state) : state.valid = true := by
  obtain ⟨raw, -, hdecode⟩ := h
  exact decodeState_valid hdecode

lemma carries_of_encoded (state : WorkflowState) {progress : Progress}
    (hworkflow : w.workflowJson = some (encodeState state)) (hprogress : w.progress = some progress)
    (hcheck : validateProgress w.progress w.workflowJson = .ok ()) :
    Carries w state ∧ stageProgress state.workflowId state.stage = .ok progress := by
  rw [hworkflow, hprogress] at hcheck
  obtain ⟨state', hdecode, hstage⟩ := validateProgress_ok hcheck (encodeState_ne_empty state)
  cases (decodeState_encodeState.1 hdecode).1
  exact ⟨⟨_, hworkflow, hdecode⟩, hstage⟩

lemma checkTodo_ok (hkind : w.kind ∈ todoKinds) (h : w.checkTodo = .ok ()) :
    validateProgress w.progress w.workflowJson = .ok () := by
  rwa [WorkObject.checkTodo, if_pos hkind] at h

lemma withState_ok {now : Datetime} (hkind : w.kind ∈ workKinds)
    (hw : Valid w) (h : withState w state now = .ok w') :
    Valid w' ∧ Succeeds w w' ∧ Carries w' state ∧ Steady w w' := by
  have htodo : w.kind ∈ todoKinds := todoKinds_iff.2 (.inr hkind)
  simp only [withState, except_bind_ok] at h
  obtain ⟨progress, hstage, hpost⟩ := h
  have hchecks := postInit_ok.1 hpost
  have hw' := hchecks.1
  have hworkflow : w'.workflowJson = some (encodeState state) := by rw [hw']
  have hprogress : w'.progress = some progress := by rw [hw']
  have hkind' : w'.kind = w.kind := by rw [hw']; rfl
  have hcheck : w'.checkTodo = .ok () := by rw [hw']; exact hchecks.2.2.2.2.2.2
  have hcarries := (carries_of_encoded state hworkflow hprogress
    (checkTodo_ok (hkind' ▸ htodo) hcheck)).1
  have hprogressed : Progressed w' := by
    constructor
    · intro htodo'
      rw [← hkind', htodo'] at hkind
      exact absurd hkind (by decide)
    · exact fun _ => ⟨state, progress, hcarries, hstage, hprogress⟩
    · exact fun hother => absurd (hkind' ▸ htodo) hother
  have hsucceeds : Succeeds w w' := by
    rw [hw']
    exact ⟨rfl, rfl, rfl, rfl, nofun, nofun, id⟩
  have hsteady : Steady w w' := by
    rw [hw']
    exact ⟨rfl, fun _ => Iff.rfl, fun _ => rfl⟩
  have hvalid : Valid w' := by
    apply valid_of_progressed hpost (hkind' ▸ hw.kind) _ _ _ hprogressed
    · rw [hw']
      exact hw.status
    · rw [hw']
      exact hw.recordId
    · rw [hw']
      exact hw.migration
  exact ⟨hvalid, hsucceeds, hcarries, hsteady⟩

lemma save_effect {now : Datetime} (hkind : w.kind ∈ workKinds)
    (hold : Holds s w) (hkey : w.key ∈ keys) (h : save w state now s = .ok w' s') :
    Effect w.key keys s [.update w.key w.node w'.node] s' ∧ Carries w' state ∧ Steady w w' ∧
      w'.key = w.key ∧ Valid w' := by
  have htodo : w.kind ∈ todoKinds := todoKinds_iff.2 (.inr hkind)
  simp only [save, bind_ok, lift_ok, pure_ok] at h
  obtain ⟨updated, _, ⟨hstate, rfl⟩, node, _, hwrite, rfl, rfl⟩ := h
  obtain ⟨hvalid, hsucceeds, hcarries, hsteady⟩ := withState_ok hkind hold.valid hstate
  exact ⟨effect_update htodo hold.valid hvalid hsucceeds (.inl rfl) hkey
    (updateNode_work hold hsucceeds hvalid hsteady.archived hwrite).2, hcarries, hsteady,
    hsucceeds.key, hvalid⟩

lemma checkWorkflowSubject_ok (htodo : w.kind ∈ todoKinds)
    (h : checkWorkflowSubject w = .ok ()) : w.kind ∈ workKinds ∧ w.archived = false := by
  simp only [checkWorkflowSubject, except_ok, exists_const] at h
  exact ⟨(todoKinds_iff.1 htodo).resolve_left h.2, Bool.not_eq_true _ ▸ h.1⟩

lemma openState_ok (h : openState w = .ok state) :
    Carries w state ∧ state.stage ≠ .done := by
  unfold openState at h
  cases hraw : w.workflowJson with
  | none =>
    rw [hraw] at h
    cases h
  | some raw =>
    rw [hraw] at h
    simp only [except_ok] at h
    obtain ⟨decoded, hdecode, _, hstage, rfl⟩ := h
    exact ⟨⟨raw, hraw, hdecode⟩, hstage⟩

theorem assignWorkflow_fails {a : WorkflowAssign} (hkind : w.kind ∈ todoKinds) (hold : Holds s w) :
    assignWorkflow clock w a s ≠ .ok w' s' := by
  intro h
  simp only [assignWorkflow, bind_ok, lift_ok] at h
  obtain ⟨_, _, ⟨hsubject, rfl⟩, state, _, ⟨hassigned, rfl⟩, -⟩ := h
  have hflow := (checkWorkflowSubject_ok hkind hsubject).1
  obtain ⟨_, _, ⟨raw, hraw, -⟩, -⟩ := hold.valid.progressed.flow hflow
  simp only [assignedState, except_ok, not_not] at hassigned
  obtain ⟨_, hnone, -⟩ := hassigned
  rw [hraw] at hnone
  cases hnone

theorem transitionWorkflow_effect {t : WorkflowTransition}
    (hkind : w.kind ∈ todoKinds) (hold : Holds s w) (hkey : w.key ∈ keys)
    (h : transitionWorkflow sha256 clock w t s = .ok w' s') :
    ∃ ws state state', Moves keys s ws s' w w' ∧ Calm ws ∧ Carries w state ∧
      state.stage ≠ .done ∧ transitionState sha256 s w state t = .ok state' ∧
      Carries w' state' ∧ Steady w w' := by
  simp only [transitionWorkflow, bind_ok, lift_ok, reading_ok] at h
  obtain ⟨_, _, ⟨hsubject, rfl⟩, state, _, ⟨hopen, rfl⟩, state', _, ⟨hstate, rfl⟩, hsave⟩ := h
  have hflow := (checkWorkflowSubject_ok hkind hsubject).1
  obtain ⟨hcarries, hdone⟩ := openState_ok hopen
  obtain ⟨heffect, hcarries', hsteady, hkey', hvalid⟩ := save_effect hflow hold hkey hsave
  exact ⟨_, state, state',
    ⟨heffect, List.nodup_singleton _, List.mem_singleton_self _, hkey', hvalid⟩, calm_update _ _ _,
    hcarries, hdone, hstate, hcarries', hsteady⟩

/-! ## Evidence -/

lemma evidenceEdges_records (subject : Key) {record : Key} {u : Unit}
    (hkey : record ∈ keys)
    (h : createEdges (evidence.map (evidenceEdge record)) s = .ok u s') :
    ∃ ws, Records subject keys s ws s' ∧ ∀ e ∈ evidence, (s'.node? e.key).isSome := by
  induction evidence generalizing s with
  | nil =>
    simp only [List.map_nil, createEdges, pure_ok] at h
    obtain ⟨-, rfl⟩ := h
    exact ⟨[], .nil _ _ _, by simp⟩
  | cons e evidence ih =>
    simp only [List.map_cons, createEdges, bind_ok] at h
    obtain ⟨_, t, hedge, hrest⟩ := h
    obtain ⟨ws, hws, hpresent⟩ := ih hrest
    have hrelation : (if e.kind = .artifact then Relationship.hasArtifact else .hasExternalLink) ∉
        structural := by split <;> decide
    have hlinked := Records.link subject hkey hrelation hedge
    refine ⟨_, hlinked.append hws, List.forall_mem_cons.2 ⟨?_, hpresent⟩⟩
    have hmem : evidenceEdge record e ∈ t.edges := (hlinked.trace.mem_edges_iff _).2 (.inr rfl)
    have hnode := (t.mem_nodes_iff _).1 (t.endpoints _ hmem).2
    exact hws.trace.node?_isSome (Option.isSome_iff_exists.2 hnode)

/-- The only nodes written are links that are created. -/
def CreatesLinks (ws : List StoreWrite) : Prop :=
  ∀ x ∈ ws, ∃ id node, x = .create (.externalLink, id) node

lemma CreatesLinks.append {ws ws' : List StoreWrite} (h : CreatesLinks ws)
    (h' : CreatesLinks ws') : CreatesLinks (ws ++ ws') := List.forall_mem_append.2 ⟨h, h'⟩

lemma CreatesLinks.nodes {ws : List StoreWrite} (h : CreatesLinks ws) :
    ∀ x ∈ ws, x.edgeSource? = none := by
  intro x hx
  obtain ⟨id, node, rfl⟩ := h x hx
  rfl

lemma CreatesLinks.label {ws : List StoreWrite} (h : CreatesLinks ws) {key : Key}
    (hkey : key ∈ nodeKeys ws) : key.1 = .externalLink := by
  obtain ⟨n, hn⟩ | ⟨o, n, hn⟩ := mem_nodeKeys.1 hkey
  · obtain ⟨id, node, heq⟩ := h _ hn
    cases heq
    rfl
  · obtain ⟨id, node, heq⟩ := h _ hn
    cases heq

lemma evidenceNode_records (subject : Key) {e : Evidence} {now now' : Datetime} {node : Node}
    (hkeys : ∀ key ∈ evidenceKeys [e], key ∈ keys) (h : evidenceNode e now now' s = .ok node s') :
    ∃ ws, Records subject keys s ws s' ∧ CreatesLinks ws := by
  simp only [evidenceNode, bind_ok, reading_ok] at h
  obtain ⟨found, _, ⟨-, rfl⟩, h⟩ := h
  by_cases hurl : e.url = ""
  · rw [if_neg (not_not.2 hurl)] at h
    simp only [bind_ok, raiseIf_ok, pure_ok] at h
    obtain ⟨_, _, ⟨-, rfl⟩, -, rfl⟩ := h
    exact ⟨[], .nil _ _ _, by simp [CreatesLinks]⟩
  · rw [if_pos hurl] at h
    simp only [bind_ok, raiseIf_ok, lift_ok] at h
    obtain ⟨_, _, ⟨-, rfl⟩, props, _, ⟨-, rfl⟩, hcreate⟩ := h
    have hkey : (.externalLink, e.id) ∈ keys := hkeys _ (by simp [evidenceKeys, hurl])
    have hgood : Good subject (.create (.externalLink, e.id) node) :=
      .newSupport (show Label.externalLink ∈ supportLabels by decide)
    exact ⟨_, .create (.single (createNode_trace hcreate) hgood hkey), by simp [CreatesLinks]⟩

lemma evidenceKeys_cons (e : Evidence) (evidence : List Evidence) :
    evidenceKeys (e :: evidence) = evidenceKeys [e] ++ evidenceKeys evidence := by
  simp only [evidenceKeys, ← List.map_append, ← List.filter_append, List.singleton_append]

lemma evidenceHashes_records (subject : Key) {n : Nat} {hashes : List (String × Json)}
    (hkeys : ∀ key ∈ evidenceKeys evidence, key ∈ keys)
    (h : evidenceHashes sha256 clock n evidence s = .ok hashes s') :
    ∃ ws, Records subject keys s ws s' ∧ CreatesLinks ws ∧
      hashes.map Prod.fst = evidence.map (fun e => resource e.key) ∧
      ∀ hash ∈ hashes, ∃ text, hash.2 = .str text := by
  induction evidence generalizing s n hashes with
  | nil =>
    simp only [evidenceHashes, pure_ok] at h
    obtain ⟨rfl, rfl⟩ := h
    exact ⟨[], .nil _ _ _, by simp [CreatesLinks], rfl, by simp⟩
  | cons e evidence ih =>
    rw [evidenceKeys_cons, List.forall_mem_append] at hkeys
    simp only [evidenceHashes, bind_ok, pure_ok] at h
    obtain ⟨node, t, hnode, rest, _, hrest, rfl, rfl⟩ := h
    obtain ⟨ws, hws, hlinks⟩ := evidenceNode_records subject hkeys.1 hnode
    obtain ⟨ws', hws', hlinks', hnames, htexts⟩ := ih hkeys.2 hrest
    refine ⟨ws ++ ws', hws.append hws', hlinks.append hlinks', ?_, ?_⟩
    · rw [List.map_cons, List.map_cons, hnames]
    · exact List.forall_mem_cons.2 ⟨⟨_, rfl⟩, htexts⟩

/-- What recording a review leaves: the record with its text, and evidence that is there. -/
structure Recorded (sha256 : String → String) (s s' : Store) (w : WorkObject)
    (r : WorkflowReview) : Prop where
  record : ∃ (t : Store) (record : WorkObject) (basisText actorId : String)
    (hashes : List (String × Json)), t.edges = s.edges ∧
    (∀ key : Key, key.1 ∈ canonicalWorkKinds → t.node? key = s.node? key) ∧
    basis sha256 t w r.phase = .ok basisText ∧
    record.description = dumps true (recordBody w basisText actorId hashes r) ∧
    hashes.map Prod.fst = r.evidence.map (fun e => resource e.key) ∧
    (∀ hash ∈ hashes, ∃ text, hash.2 = Json.str text) ∧
    s'.node? (recordKind r.phase, r.recordId) = some record.node
  linked : ⟨w.key, recordRelation (recordKind r.phase), (recordKind r.phase, r.recordId), noProps⟩ ∈
    s'.edges
  evidence : ∀ e ∈ r.evidence, (s'.node? e.key).isSome

lemma recordKind_cases (phase : Phase) :
    recordKind phase ∈ canonicalWorkKinds ∧ recordKind phase ∉ todoKinds := by
  cases phase <;> decide

/-- Only a record that is a Decision is structural. -/
lemma recordRelation_cases (phase : Phase) :
    recordKind phase = .decision ∧ recordRelation (recordKind phase) = .hasWorkflowDecision ∨
      recordRelation (recordKind phase) ∉ structural := by
  cases phase <;> decide

lemma record_records (subject : Key) {label : Label} {id title description : String}
    {now now' : Datetime} {relation : Relationship} {source : Key}
    {record x : WorkObject} {u v : Store} {y z : Unit} (hlabel : label ∈ canonicalWorkKinds)
    (hsource : source ∈ keys) (hrecord : (label, id) ∈ keys)
    (hnew : WorkObject.postInit (newObject label id title description now now') = .ok record)
    (hcreate : Repository.create record s = .ok x u)
    (hlink : createEdge ⟨source, relation, record.key, noProps⟩ u = .ok y v)
    (hlinks : createEdges (evidence.map (evidenceEdge record.key)) v = .ok z s') :
    ∃ before after,
      Adds subject keys s (before ++ .link ⟨source, relation, (label, id), noProps⟩ :: after) s' ∧
      Calm before ∧ Calm after ∧ record.description = description ∧
      s'.node? (label, id) = some record.node ∧ ∀ e ∈ evidence, (s'.node? e.key).isSome := by
  obtain ⟨hkey, hcreated⟩ := create_new subject label hlabel hrecord hnew hcreate
  have hlinked := Adds.link subject hsource hlink
  obtain ⟨ws, hws, hpresent⟩ := evidenceEdges_records subject (hkey ▸ hrecord) hlinks
  have hall := hcreated.toAdds.append (hlinked.append hws.toAdds)
  have hnode := hall.trace.node?_of_mem hall.nodup (w := .create record.key record.node)
    (by simp) rfl
  refine ⟨_, ws, hkey ▸ hall, hcreated.calm, hws.calm, ?_, hkey ▸ hnode.2, hpresent⟩
  rw [(postInit_ok.1 hnew).1]
  rfl

theorem reviewWorkflow_effect {actorId : String} {r : WorkflowReview}
    (hkind : w.kind ∈ todoKinds) (hold : Holds s w) (hkey : w.key ∈ keys)
    (hrecord : (recordKind r.phase, r.recordId) ∈ keys)
    (hevidence : ∀ key ∈ evidenceKeys r.evidence, key ∈ keys)
    (h : reviewWorkflow sha256 clock actorId w r s = .ok w' s') :
    ∃ ws state, Moves keys s ws s' w w' ∧
      (Calm ws ∨ ∃ e, Decides s s' e ∧ e.relationship = .hasWorkflowDecision) ∧ Carries w state ∧
      state.stage ≠ .done ∧ checkReview state r = .ok () ∧
      Carries w' (state.withReview r.phase r.recordId) ∧ Steady w w' ∧
      Recorded sha256 s s' w r := by
  simp only [reviewWorkflow, recordReview, bind_ok, lift_ok, reading_ok, raiseIf_ok] at h
  rcases h with ⟨_, _, ⟨hsubject, rfl⟩, state, _, ⟨hopen, rfl⟩, _, _, ⟨hcheck, rfl⟩, found, _,
    ⟨hfound, rfl⟩, _, _, ⟨habsent, rfl⟩, hashes, t, hhashes, basisText, _, ⟨hbasis, rfl⟩, record, _,
    ⟨hnew, rfl⟩, _, u, hcreate, _, v, hlink, _, z, hlinks, hsave⟩
  have hflow := (checkWorkflowSubject_ok hkind hsubject).1
  obtain ⟨hcarries, hdone⟩ := openState_ok hopen
  obtain ⟨ws, hws, hcreates, hnames, htexts⟩ := evidenceHashes_records w.key hevidence hhashes
  have hlabel := recordKind_cases r.phase
  rcases record_records w.key hlabel.1 hkey hrecord hnew hcreate hlink hlinks with
    ⟨before, after, hws', hbefore, hafter, hdescription, hnode, hpresent⟩
  have hall := hws.toAdds.append hws'
  rcases save_effect hflow (hold.of_adds hall) hkey hsave with
    ⟨hsaved, hcarries', hsteady, hkey', hvalid⟩
  have hmoves := moves_after hold hall hsaved hkey' hvalid
  have habsent' : s.node? (recordKind r.phase, r.recordId) = none := by
    rw [← getNode_ok hfound]
    exact Option.not_isSome_iff_eq_none.1 habsent
  have hframe : s'.node? (recordKind r.phase, r.recordId) =
      z.node? (recordKind r.phase, r.recordId) := by
    apply hsaved.trace.node?_of_notMem
    rw [nodeKeys_update, nodeKeys_nil, List.mem_singleton]
    intro heq
    have hrecordKind : recordKind r.phase = w.kind := congrArg Prod.fst heq
    exact hlabel.2 (hrecordKind ▸ hkind)
  refine ⟨_, state, hmoves, ?_, hcarries, hdone, hcheck, hcarries', hsteady,
    ⟨?_, ?_, ?_⟩⟩
  · obtain ⟨hdecision, hrelation⟩ | hcalm := recordRelation_cases r.phase
    · have htrace := hmoves.effect.trace
      rw [← List.append_assoc, List.append_assoc, List.cons_append] at htrace
      refine .inr ⟨_, ⟨.inr hrelation, hdecision, habsent', fun hmem => ?_,
        edges_of_link htrace (calm_append hws.calm hbefore)
          (calm_append hafter (calm_update _ _ _))⟩, hrelation⟩
      rw [show _ = Relationship.hasWorkflowDecision from hrelation] at hmem
      exact absurd hmem (show Relationship.hasWorkflowDecision ∉ dispositions by decide)
    · exact .inl (calm_append (calm_append hws.calm (calm_around hbefore hafter hcalm))
        (calm_update _ _ _))
  · refine ⟨t, record, basisText, actorId, hashes, hws.trace.edges_eq hcreates.nodes, ?_, hbasis,
      hdescription, hnames, htexts, hframe.trans hnode⟩
    intro key hcanonical
    apply hws.trace.node?_of_notMem
    intro hmem
    rw [hcreates.label hmem] at hcanonical
    exact absurd hcanonical (by decide)
  · rw [hsaved.trace.edges_eq fun x hx => by rw [List.mem_singleton.1 hx]; rfl]
    exact hws'.trace.mem_edges_of_adds hws'.adds (.inr (by simp))
  · intro e he
    exact hsaved.trace.node?_isSome (hpresent e he)

lemma currentState_ok {state : Option WorkflowState} (hw : Valid w) (hkind : w.kind ∈ todoKinds)
    (h : currentState w = .ok state) :
    (w.kind = .todo ∧ state = none) ∨ ∃ st, w.kind ∈ workKinds ∧ state = some st ∧
      Carries w st := by
  unfold currentState at h
  obtain htodo | hflow := todoKinds_iff.1 hkind
  · rw [(hw.progressed.todo htodo).1, except_pure_ok] at h
    exact .inl ⟨htodo, h.symm⟩
  · obtain ⟨st, _, ⟨raw, hraw, hdecode⟩, -⟩ := hw.progressed.flow hflow
    have hne : raw ≠ "" := fun heq => decodeState_empty st (heq ▸ hdecode)
    rw [hraw] at h
    simp only [hne, if_false, hdecode] at h
    cases h
    exact .inr ⟨st, hflow, rfl, raw, hraw, hdecode⟩

/-- The ways in which a change of progress moves a workflow. -/
inductive ProgressStep (s : Store) (w : WorkObject) (change : ProgressSet) (state : WorkflowState) :
    WorkflowState → Prop
  | handedOff (kind : w.kind = .proposal) (rejected : disposition s w = .ok (some .rejected))
      (target : change.progress = .done) (evidence : change.evidence ≠ []) :
    ProgressStep s w change state (handedOffState state)
  | reopened (done : state.stage = .done) (target : change.progress = .inProgress) :
    ProgressStep s w change state (reopenedState state.workflowId)

lemma stageProgress_done {workflow : WorkflowId} {stage : Stage} :
    stageProgress workflow stage = .ok .done → stage = .done := by
  intro h
  simp only [stageProgress, except_ok] at h
  obtain ⟨_, -, h⟩ := h
  split at h
  · cases h
  · split at h
    · assumption
    · cases h

lemma Carries.workKind (hcarries : Carries w state) (hw : Valid w) :
    w.kind ∈ workKinds := by
  by_contra hflow
  obtain ⟨raw, hraw, -⟩ := hcarries
  by_cases htodo : w.kind = .todo
  · rw [(hw.progressed.todo htodo).1] at hraw
    cases hraw
  · rw [(hw.progressed.other fun h => (todoKinds_iff.1 h).elim htodo hflow).1] at hraw
    cases hraw

/-- An item is done exactly when its workflow is at its last stage. -/
lemma stage_done_iff (hw : Valid w) (hcarries : Carries w state) :
    state.stage = .done ↔ w.progress = some .done := by
  rcases hw.progressed.flow (hcarries.workKind hw) with
    ⟨state', progress, hcarries', hstage, hprogress⟩
  cases hcarries.unique hcarries'
  rw [hprogress]
  constructor
  · intro hdone
    rw [hdone] at hstage
    simp only [stageProgress, except_ok] at hstage
    obtain ⟨_, -, rfl⟩ := hstage
    rfl
  · intro hdone
    cases hdone
    exact stageProgress_done hstage

lemma isRejected_ok (h : isRejected s w = .ok true) :
    w.kind = .proposal ∧ disposition s w = .ok (some .rejected) := by
  unfold isRejected at h
  split at h
  · rename_i hkind
    simp only [except_ok, decide_eq_true_eq] at h
    obtain ⟨found, hfound, rfl⟩ := h
    exact ⟨hkind, hfound⟩
  · cases h

lemma progressWorkflow_todo (hw : Valid w)
    (hkind : w.kind = .todo) (h : progressWorkflow sha256 s w change = .ok text) : text = none := by
  have hnone := (hw.progressed.todo hkind).1
  have htodo : w.kind ∈ todoKinds := by rw [hkind]; decide
  simp only [progressWorkflow, except_bind_ok] at h
  obtain ⟨state, hstate, _, -, rejected, hrejected, h⟩ := h
  obtain ⟨-, rfl⟩ | ⟨_, hflow, -⟩ := currentState_ok hw htodo hstate
  · split at h
    · simp only [except_ok] at h
      obtain ⟨_, -, rfl⟩ := h
      exact hnone
    · simp only [except_ok] at h
      obtain ⟨_, -, rfl⟩ := h
      exact hnone
  · rw [hkind] at hflow
    exact absurd hflow (by decide)

lemma progressWorkflow_flow
    (hw : Valid w) (hflow : w.kind ∈ workKinds) (hcarries : Carries w state)
    (h : progressWorkflow sha256 s w change = .ok text) :
    ∃ state', text = some (encodeState state') ∧ ProgressStep s w change state state' := by
  have htodo : w.kind ∈ todoKinds := todoKinds_iff.2 (.inr hflow)
  simp only [progressWorkflow, except_bind_ok] at h
  obtain ⟨found, hfound, _, htarget, rejected, hrejected, h⟩ := h
  obtain ⟨st, progress, hst, hstage, hprogress⟩ := hw.progressed.flow hflow
  cases hcarries.unique hst
  have hstate : found = some state := by
    obtain ⟨hkind, -⟩ | ⟨st, -, hsome, hst⟩ := currentState_ok hw htodo hfound
    · rw [hkind] at hflow
      exact absurd hflow (by decide)
    · cases hcarries.unique hst
      exact hsome
  subst hstate
  split at h
  · rename_i hdone
    simp only [except_ok] at h
    obtain ⟨_, hevidence, rfl⟩ := h
    obtain ⟨rfl, hdone⟩ := hdone
    obtain ⟨hproposal, hdisposition⟩ := isRejected_ok hrejected
    exact ⟨_, rfl, .handedOff hproposal hdisposition hdone hevidence⟩
  · simp only [workflowProgress, except_bind_ok] at h
    obtain ⟨⟨next, text'⟩, ⟨mapped, hmapped, hnext⟩, _, -, htext⟩ := h
    split at hnext
    · rename_i hreopen
      simp only [except_pure_ok] at hnext htext
      cases hnext
      cases htext
      rw [hprogress] at hreopen
      cases hreopen.1
      exact ⟨_, rfl, .reopened (stageProgress_done hstage) hreopen.2⟩
    · -- The mapped progress is the one that the item has, which the change must differ from.
      simp only [except_ok, not_not] at hnext
      obtain ⟨_, heq, -⟩ := hnext
      rw [hstage] at hmapped
      cases hmapped
      simp only [checkProgressTarget, except_ok, exists_const] at htarget
      exact absurd (hprogress.trans (congrArg some heq.symm)) htarget.2.1

/-- The progress of an item without a workflow is set. -/
structure Noted (w w' : WorkObject) (change : ProgressSet) : Prop where
  todo : w.kind = .todo
  workflow : w'.workflowJson = w.workflowJson
  progress : w'.progress = some change.progress
  started : change.progress ≠ .notStarted

/-- No item goes back to where nothing was started. -/
lemma progressWorkflow_started (hw : Valid w)
    (hkind : w.kind ∈ todoKinds) (h : progressWorkflow sha256 s w change = .ok text) :
    change.progress ≠ .notStarted := by
  simp only [progressWorkflow, checkProgressTarget, except_ok, exists_const, not_and, not_not] at h
  obtain ⟨_, -, ⟨-, -, hnone⟩, -⟩ := h
  intro htarget
  obtain ⟨progress, hprogress⟩ := progress_isSome hw hkind
  rw [hnone htarget] at hprogress
  cases hprogress

theorem setProgress_effect {actorId : String}
    (hkind : w.kind ∈ todoKinds) (hold : Holds s w) (hkey : w.key ∈ keys)
    (hrecord : (.reviewPacket, change.recordId) ∈ keys)
    (hevidence : ∀ key ∈ evidenceKeys change.evidence, key ∈ keys)
    (h : setProgress sha256 clock actorId w change s = .ok w' s') :
    ∃ ws, Moves keys s ws s' w w' ∧ Calm ws ∧ Steady w w' ∧ (Noted w w' change ∨
      ∃ state state', Carries w state ∧ Carries w' state' ∧
        ProgressStep s w change state state') := by
  simp only [setProgress, bind_ok, lift_ok, reading_ok, raiseIf_ok, pure_ok] at h
  rcases h with ⟨text, _, ⟨htext, rfl⟩, _, _, ⟨-, rfl⟩, _, _, ⟨-, rfl⟩, _, _, ⟨-, rfl⟩, hashes, t,
    hhashes, basisText, _, ⟨-, rfl⟩, record, _, ⟨hnew, rfl⟩, _, u, hcreate, _, v, hlink, _, z,
    hlinks, updated, _, ⟨hpost, rfl⟩, node, _, hwrite, rfl, rfl⟩
  obtain ⟨ws, hws, -, -, -⟩ := evidenceHashes_records w.key hevidence hhashes
  rcases record_records w.key (by decide) hkey hrecord hnew hcreate hlink hlinks with
    ⟨before, after, hws', hbefore, hafter, -, -, -⟩
  have hall := hws.toAdds.append hws'
  have hrelation : Relationship.hasReviewPacket ∉ structural := by decide
  have hrecordId : isWorkObjectId change.recordId = true := (postInit_ok.1 hnew).2.1
  have hchecks := postInit_ok.1 hpost
  have hfields := hchecks.1
  have hcheck := checkTodo_ok (show WorkObject.kind { w.next (clock 0) with
    progress := some change.progress, workflowJson := text,
    progressRecordId := some change.recordId } ∈ todoKinds from hkind) hchecks.2.2.2.2.2.2
  have hmoved : w.kind ∈ workKinds → ∃ state state', Carries w state ∧ Carries updated state' ∧
      stageProgress state'.workflowId state'.stage = .ok change.progress ∧
      ProgressStep s w change state state' := by
    intro hflow
    obtain ⟨state, _, hcarries, -⟩ := hold.valid.progressed.flow hflow
    obtain ⟨state', rfl, hstep⟩ := progressWorkflow_flow hold.valid hflow hcarries htext
    obtain ⟨hcarries', hstage⟩ := carries_of_encoded state' rfl rfl hcheck
    exact ⟨state, state', hcarries, hfields ▸ hcarries', hstage, hstep⟩
  have hvalid : Valid updated := by
    rw [hfields]
    refine ⟨hold.valid.kind, hchecks.2.1, hchecks.2.2.1, hchecks.2.2.2.1, hchecks.2.2.2.2.1,
      hchecks.2.2.2.2.2.1, hold.valid.status, hrecordId, hold.valid.migration, ⟨?_, ?_, ?_⟩⟩
    · intro htodo
      exact ⟨progressWorkflow_todo hold.valid htodo htext, rfl⟩
    · intro hflow
      obtain ⟨state, state', -, hcarries', hstage, -⟩ := hmoved hflow
      rw [hfields] at hcarries'
      exact ⟨state', change.progress, hcarries', hstage, rfl⟩
    · exact fun hother => absurd hkind hother
  have hsucceeds : Succeeds w updated := by
    rw [hfields]
    refine ⟨rfl, rfl, rfl, rfl, ?_, fun hnone => absurd hnone (Option.some_ne_none _),
      fun hnone => absurd hnone (Option.some_ne_none _)⟩
    intro hnone
    obtain htodo | hflow := todoKinds_iff.1 hkind
    · exact (hold.valid.progressed.todo htodo).1
    · obtain ⟨_, _, -, ⟨raw, hraw, -⟩, -⟩ := hmoved hflow
      rw [hfields] at hraw
      rw [hnone] at hraw
      cases hraw
  have hsteady : Steady w updated := by
    rw [hfields]
    exact ⟨rfl, fun _ => Iff.rfl, fun _ => rfl⟩
  have hsaved : Effect w.key keys z _ _ :=
    effect_update hkind hold.valid hvalid hsucceeds (.inl rfl) hkey
      (updateNode_work (hold.of_adds hall) hsucceeds hvalid hsteady.archived hwrite).2
  refine ⟨_, moves_after hold hall hsaved hsucceeds.key hvalid,
    calm_append (calm_append hws.calm (calm_around hbefore hafter hrelation)) (calm_update _ _ _),
    hsteady, ?_⟩
  obtain htodo | hflow := todoKinds_iff.1 hkind
  · apply Or.inl
    refine ⟨htodo, ?_, by rw [hfields], progressWorkflow_started hold.valid hkind htext⟩
    rw [(hvalid.progressed.todo (hsucceeds.kind.trans htodo)).1,
      (hold.valid.progressed.todo htodo).1]
  · obtain ⟨state, state', hcarries, hcarries', -, hstep⟩ := hmoved hflow
    exact .inr ⟨state, state', hcarries, hcarries', hstep⟩

end DevGraph.Proofs
