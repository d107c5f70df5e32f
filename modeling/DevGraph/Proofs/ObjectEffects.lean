import DevGraph.Proofs.Effects

/-!
# Effects on single objects and proposals

The writes of creation, archiving, restoring, content and status changes, and of the
acceptance, conversion and rejection of a proposal.
-/

namespace DevGraph.Proofs

open Lib Work

variable {clock : Nat → Datetime} {now : Datetime} {edges : List EdgeRecord}

/-- The item stays active or archived, no proposal is accepted, and no completed item changes the
content that its evidence rests on. -/
structure Steady (w w' : WorkObject) : Prop where
  archived : w'.archived = w.archived
  status : w.kind = .proposal → (w'.status = .accepted ↔ w.status = .accepted)
  content : w.progress = some .done → w'.basisContent = w.basisContent

/-- The workflow and progress of an item stay as they are. -/
structure Quiet (w w' : WorkObject) : Prop extends Steady w w' where
  workflow : w'.workflowJson = w.workflowJson
  progress : w'.progress = w.progress

lemma quiet_next (w : WorkObject) (now : Datetime) : Quiet w (w.next now) :=
  ⟨⟨rfl, fun _ => Iff.rfl, fun _ => rfl⟩, rfl, rfl⟩

/-- The effect of a request that moves its subject to the next version. -/
structure Moves (keys : List Key) (s : Store) (ws : List StoreWrite) (s' : Store)
    (w w' : WorkObject) : Prop where
  effect : Effect w.key keys s ws s'
  nodup : (nodeKeys ws).Nodup
  subject : .update w.key w.node w'.node ∈ ws
  key : w'.key = w.key
  valid : Valid w'

lemma Moves.holds {keys : List Key} {s s' : Store} {ws : List StoreWrite} {w w' : WorkObject}
    (h : Moves keys s ws s' w w') : Holds s' w' := by
  have hnode := (h.effect.trace.node?_of_mem h.nodup h.subject rfl).2
  exact ⟨h.key ▸ hnode, h.valid⟩

section Objects

variable {keys : List Key} {s s' : Store} {w w' : WorkObject}

lemma moves_single (hkind : w.kind ∈ todoKinds) (hw : Valid w) (hw' : Valid w')
    (hsucceeds : Succeeds w w') (hkey : w.key ∈ keys)
    (htrace : Trace s [.update w.key w.node w'.node] s') :
    Moves keys s [.update w.key w.node w'.node] s' w w' :=
  ⟨effect_update hkind hw hw' hsucceeds (.inl rfl) hkey htrace, List.nodup_singleton _,
    List.mem_singleton_self _, hsucceeds.key, hw'⟩

/-- New nodes may come before the subject is written. -/
lemma moves_after {t : Store} {ws : List StoreWrite} (hold : Holds s w)
    (hadds : Adds w.key keys s ws t)
    (hupdate : Effect w.key keys t [.update w.key w.node w'.node] s') (hkey : w'.key = w.key)
    (hw' : Valid w') : Moves keys s (ws ++ [.update w.key w.node w'.node]) s' w w' := by
  refine ⟨hadds.toEffect.append hupdate, ?_, by simp, hkey, hw'⟩
  rw [nodeKeys_append, nodeKeys_update, nodeKeys_nil, List.nodup_append]
  refine ⟨hadds.nodup, List.nodup_singleton _, ?_⟩
  intro a ha b hb heq
  rw [List.mem_singleton.1 hb] at heq
  exact hold.notMem_adds hadds (heq ▸ ha)

lemma calm_update (key : Key) (old new : Node) : Calm [.update key old new] :=
  calm_nodes fun x hx => by rw [List.mem_singleton.1 hx]; rfl

lemma carries_initial {kind : Label} {state : WorkflowState}
    (hcarries : Carries w state) (hworkflow : w.workflowJson = some (initialState kind)) :
    state = newState (defaultWorkflow kind) .backlog := by
  obtain ⟨raw, hraw, hdecode⟩ := hcarries
  rw [hworkflow] at hraw
  cases hraw
  exact (decodeState_encodeState.1 hdecode).1

lemma new_valid (kind : Label) {id title description : String} {created updated : Datetime}
    {priority : Int} {artifactIds externalLinkIds : List String}
    (hkind : kind ∈ canonicalWorkKinds)
    (h : WorkObject.postInit { newObject kind id title description created updated with
      priority := priority, artifactIds := artifactIds, externalLinkIds := externalLinkIds } =
        .ok w) :
    Valid w ∧ Fresh w ∧ w.version = 1 ∧ w.archived = false ∧
      (w.kind ≠ .decision → w.status = .draft) := by
  rw [postInit_ok] at h
  obtain ⟨rfl, hid, hversion, hpriority, hartifacts, hlinks, hcheck⟩ := h
  refine ⟨⟨hkind, hid, hversion, hpriority, hartifacts, hlinks, ?_, rfl, rfl, ⟨?_, ?_, ?_⟩⟩, ?_,
    rfl, rfl, fun hne => if_neg hne⟩
  · change (if kind = .decision then WorkStatus.accepted else .draft) ≠ .archived
    split <;> decide
  · intro htodo
    change kind = .todo at htodo
    subst htodo
    exact ⟨rfl, rfl⟩
  · intro hflow
    change kind ∈ workKinds at hflow
    have htodo : kind ∈ todoKinds := todoKinds_iff.2 (.inr hflow)
    have hne : kind ≠ .todo := by rintro rfl; exact absurd hflow (by decide)
    have hworkflow : (newObject kind id title description created updated).workflowJson =
        some (initialState kind) := if_pos ⟨htodo, hne⟩
    have hprogress : (newObject kind id title description created updated).progress =
        some .notStarted := if_pos htodo
    simp only [WorkObject.checkTodo, hworkflow, hprogress] at hcheck
    rw [if_pos (show (newObject kind id title description created updated).kind ∈ todoKinds from
      htodo)] at hcheck
    obtain ⟨state, hdecode, hstage⟩ := validateProgress_ok hcheck (encodeState_ne_empty _)
    exact ⟨state, .notStarted, ⟨_, hworkflow, hdecode⟩, hstage, hprogress⟩
  · intro hother
    change kind ∉ todoKinds at hother
    exact ⟨if_neg fun h => hother h.1, if_neg hother, rfl, rfl⟩
  · intro state hcarries
    change state = newState (defaultWorkflow kind) .backlog
    by_cases hflow : kind ∈ todoKinds ∧ kind ≠ .todo
    · exact carries_initial hcarries (if_pos hflow)
    · obtain ⟨raw, hraw, -⟩ := hcarries
      change (if kind ∈ todoKinds ∧ kind ≠ .todo then some (initialState kind) else none) =
        some raw at hraw
      rw [if_neg hflow] at hraw
      cases hraw

lemma create_trace (hkind : w.kind ∈ canonicalWorkKinds) (harchived : w.archived = false)
    (h : Repository.create w s = .ok w' s') : Trace s [.create w.key w.node] s' := by
  simp only [Repository.create, bind_ok, lift_ok, transaction_ok, reading_ok, raiseIf_ok,
    reraising_ok, pure_ok] at h
  rcases h with ⟨_, _, ⟨-, rfl⟩, _, _, ⟨-, rfl⟩, _, _, ⟨-, rfl⟩, _, _, ⟨-, rfl⟩, _, _, ⟨-, rfl⟩,
    _, _, ⟨_, _, ⟨-, rfl⟩, _, _, ⟨-, rfl⟩, node, _, hcreate, -, rfl⟩, -, rfl⟩
  exact createNode_work hkind harchived hcreate

/-- A record that a request creates, with its fields as the request gives them. -/
lemma create_new (subject : Key) (kind : Label) {id title description : String}
    {created updated : Datetime} {priority : Int} {artifactIds externalLinkIds : List String}
    (hkind : kind ∈ canonicalWorkKinds) (hkey : (kind, id) ∈ keys)
    (hnew : WorkObject.postInit { newObject kind id title description created updated with
      priority := priority, artifactIds := artifactIds, externalLinkIds := externalLinkIds } =
        .ok w)
    (h : Repository.create w s = .ok w' s') :
    w.key = (kind, id) ∧ Records subject keys s [.create w.key w.node] s' := by
  obtain ⟨hvalid, hfresh, hversion, harchived, hdraft⟩ := new_valid kind hkind hnew
  have hw := (postInit_ok.1 hnew).1
  have hwkey : w.key = (kind, id) := by rw [hw]; rfl
  exact ⟨hwkey, .create (effect_create subject hvalid hversion hfresh hdraft (hwkey ▸ hkey)
    (create_trace hvalid.kind harchived h))⟩

theorem createWork_effect {kind : Label} {c : CreateWork}
    (hkind : kind ∈ canonicalWorkKinds) (h : createWork clock kind c s = .ok w s') :
    ∃ w : WorkObject, w.key = (kind, c.id) ∧
      Records (kind, c.id) [(kind, c.id)] s [.create w.key w.node] s' := by
  simp only [createWork, bind_ok, lift_ok] at h
  obtain ⟨new, _, ⟨hnew, rfl⟩, hcreate⟩ := h
  exact ⟨new, create_new _ kind hkind (List.mem_singleton_self _) hnew hcreate⟩

/-- A replacement that keeps the workflow and progress of an active item. -/
lemma rewrite_update {f : WorkObject → Except Error WorkObject} (hkind : w.kind ∈ todoKinds)
    (hold : Holds s w) (hkey : w.key ∈ keys)
    (hf : ∀ w', f w = .ok w' → Valid w' ∧ Succeeds w w' ∧ Quiet w w')
    (h : rewrite w.key f updateNode s = .ok w' s') :
    ∃ ws, Moves keys s ws s' w w' ∧ Calm ws ∧ Quiet w w' := by
  obtain ⟨current, node, hget, hnew, hwrite⟩ := rewrite_ok h
  cases getById_eq hold hget
  obtain ⟨hvalid, hsucceeds, hquiet⟩ := hf w' hnew
  have htrace := (updateNode_work hold hsucceeds hvalid hquiet.archived hwrite).2
  exact ⟨_, moves_single hkind hold.valid hvalid hsucceeds hkey htrace, calm_update _ _ _, hquiet⟩

theorem patchWork_effect {changes : ContentChanges} (hkind : w.kind ∈ todoKinds)
    (hold : Holds s w) (hkey : w.key ∈ keys) (h : patchWork w changes now s = .ok w' s') :
    ∃ ws, Moves keys s ws s' w w' ∧ Calm ws ∧ Quiet w w' := by
  simp only [patchWork, Repository.updateContent, bind_ok, lift_ok] at h
  obtain ⟨_, _, ⟨-, rfl⟩, _, _, ⟨-, rfl⟩, _, _, ⟨-, rfl⟩, _, _, ⟨-, rfl⟩, _, _, ⟨-, rfl⟩, h⟩ := h
  apply rewrite_update hkind hold hkey _ h
  intro w' hpatch
  simp only [patchedObject, except_ok, not_and, not_not] at hpatch
  obtain ⟨_, -, _, -, _, hcontent, hpost⟩ := hpatch
  cases (postInit_ok.1 hpost).1
  refine ⟨?_, ⟨rfl, rfl, rfl, rfl, id, id, id⟩,
    ⟨⟨rfl, fun _ => Iff.rfl, fun hdone => (hcontent hdone).symm⟩, rfl, rfl⟩⟩
  exact valid_of_postInit hold.valid hpost rfl hold.valid.status rfl rfl rfl rfl
    fun hkind => (hold.valid.progressed.other hkind).2.2.2

lemma withStatus_ok {status : WorkStatus} (hw : Valid w)
    (hstatus : status ≠ .archived) (h : w.withStatus status now = .ok w') :
    Valid w' ∧ Succeeds w w' ∧ w' = { w.next now with status := status } := by
  rw [WorkObject.withStatus, if_neg hstatus] at h
  cases (postInit_ok.1 h).1
  refine ⟨?_, ⟨rfl, rfl, rfl, rfl, id, id, id⟩, rfl⟩
  exact valid_of_postInit hw h rfl hstatus rfl rfl rfl rfl
    fun hkind => (hw.progressed.other hkind).2.2.2

theorem transitionStatus_effect {status : WorkStatus}
    (hkind : w.kind ∈ todoKinds) (hold : Holds s w) (hkey : w.key ∈ keys)
    (h : Repository.transitionStatus w.key status now s = .ok w' s') :
    ∃ ws, Moves keys s ws s' w w' ∧ Calm ws ∧ Quiet w w' := by
  simp only [Repository.transitionStatus, bind_ok, lift_ok] at h
  obtain ⟨_, _, ⟨-, rfl⟩, _, _, ⟨-, rfl⟩, h⟩ := h
  apply rewrite_update hkind hold hkey _ h
  intro w' htransition
  simp only [transitionedObject, except_ok, not_or, not_and, not_not] at htransition
  obtain ⟨_, ⟨-, hlegal⟩, _, hproposal, hnew⟩ := htransition
  have hstatus : status ≠ .archived ∧ w.status ≠ .accepted := by
    revert hlegal
    cases w.status <;> cases status <;> decide
  obtain ⟨hvalid, hsucceeds, rfl⟩ := withStatus_ok hold.valid hstatus.1 hnew
  refine ⟨hvalid, hsucceeds, ⟨⟨rfl, ?_, fun _ => rfl⟩, rfl, rfl⟩⟩
  intro hkind'
  exact iff_of_false (fun heq => hproposal heq hkind') hstatus.2

theorem archive_effect (hkind : w.kind ∈ todoKinds) (hold : Holds s w)
    (hkey : w.key ∈ keys) (h : Repository.archive w.key now s = .ok w' s') :
    ∃ ws, Moves keys s ws s' w w' ∧ Calm ws ∧ w.archived = false ∧
      w' = { w.next now with archived := true } := by
  simp only [Repository.archive, bind_ok, lift_ok] at h
  obtain ⟨_, _, ⟨-, rfl⟩, _, _, ⟨-, rfl⟩, h⟩ := h
  obtain ⟨current, node, hget, hnew, hwrite⟩ := rewrite_ok h
  cases getById_eq hold hget
  simp only [archivedObject, except_bind_ok, if_pos hkind] at hnew
  obtain ⟨_, -, hpost⟩ := hnew
  cases (postInit_ok.1 hpost).1
  have hvalid : Valid { w.next now with archived := true } :=
    valid_of_postInit hold.valid hpost rfl hold.valid.status rfl rfl rfl rfl
      fun hother => absurd hkind hother
  obtain ⟨hactive, htrace⟩ := archiveNode_work hold rfl hwrite
  exact ⟨_, moves_single hkind hold.valid hvalid ⟨rfl, rfl, rfl, rfl, id, id, id⟩ hkey htrace,
    calm_update _ _ _, hactive, rfl⟩

theorem restoreWork_effect (hkind : w.kind ∈ todoKinds) (hold : Holds s w)
    (hkey : w.key ∈ keys) (h : restoreWork w now s = .ok w' s') :
    ∃ ws, Moves keys s ws s' w w' ∧ Calm ws ∧ w.archived = true ∧
      w' = { w.next now with archived := false } := by
  simp only [restoreWork, bind_ok, lift_ok, raiseIf_ok, pure_ok] at h
  obtain ⟨_, _, ⟨harchived, rfl⟩, restored, _, ⟨hpost, rfl⟩, node, _, hwrite, rfl, rfl⟩ := h
  cases (postInit_ok.1 hpost).1
  have hvalid : Valid { w.next now with archived := false } :=
    valid_of_postInit hold.valid hpost rfl hold.valid.status rfl rfl rfl rfl fun _ => rfl
  have hsucceeds : Succeeds w { w.next now with archived := false } :=
    ⟨rfl, rfl, rfl, rfl, id, id, id⟩
  have htrace := restoreNode_work hold hsucceeds rfl hwrite
  exact ⟨_, moves_single hkind hold.valid hvalid hsucceeds hkey htrace, calm_update _ _ _,
    (Bool.not_eq_false _).mp harchived, rfl⟩

/-! ## Proposals -/

lemma boundedEdges_ok {message : String} {r : Relationship}
    (h : boundedEdges message s r = .ok edges) :
    edges = s.edges.filter fun e => e.relationship = r := by
  simp only [boundedEdges, except_ok] at h
  obtain ⟨_, hlength, rfl⟩ := h
  unfold listEdges at hlength ⊢
  apply List.take_of_length_le
  rw [List.length_take] at hlength
  omega

lemma related_ok {r : Relationship} {key : Key} (h : related s r key = .ok edges) (e : EdgeRecord) :
    e ∈ edges ↔ e ∈ s.edges ∧ e.relationship = r ∧ e.source = key := by
  simp only [related, except_ok] at h
  obtain ⟨found, hfound, rfl⟩ := h
  cases boundedEdges_ok hfound
  simp only [List.mem_filter, decide_eq_true_eq, and_assoc]

lemma acceptanceDecisionEdges_ok {id : String}
    (h : acceptanceDecisionEdges s id = .ok edges) (e : EdgeRecord) :
    e ∈ edges ↔ e ∈ s.edges ∧ e.relationship = .acceptedByDecision ∧
      e.source = (.proposal, id) := by
  simp only [acceptanceDecisionEdges, except_ok] at h
  obtain ⟨found, hfound, rfl⟩ := h
  cases boundedEdges_ok hfound
  simp only [List.mem_filter, decide_eq_true_eq, and_assoc]

/-- A proposal without accepting and rejecting edges has no disposition. -/
lemma undecided {key : Key}
    (haccepted : ∀ e ∈ s.edges, e.relationship = .acceptedByDecision → e.source ≠ key)
    (hrejected : ∀ e ∈ s.edges, e.relationship = .rejectedByDecision → e.source ≠ key) :
    ∀ e ∈ s.edges, e.source = key → e.relationship ∉ dispositions := by
  intro e he hsource hrelation
  simp only [dispositions, List.mem_cons, List.not_mem_nil, or_false] at hrelation
  obtain hrelation | hrelation := hrelation
  · exact haccepted e he hrelation hsource
  · exact hrejected e he hrelation hsource

lemma getProposal_held (hold : Holds s w) (hkind : w.kind = .proposal) :
    getProposal s w.id = .ok w := by
  have hkey : (Label.proposal, w.id) = w.key := by rw [WorkObject.key, hkind]
  have hid : isWorkObjectId w.key.2 = true := hold.valid.id
  have hnode : getNode s w.key = .ok (some w.node) := by
    simp only [getNode, validateWorkObjectId, except_ok, hid, Bool.true_eq_false,
      not_false_eq_true, exists_const, true_and]
    exact hold.node
  simp only [getProposal, except_bind_ok, hkey]
  refine ⟨_, hnode, ?_⟩
  change unreadableProposal (validateCanonicalWorkObjectProperties w.key w.toNodeProperties
    w.archived true >>= fun props => build w.key props w.archived) = _
  rw [validate_work hold.valid]
  change unreadableProposal (build w.key w.toNodeProperties w.archived) = _
  rw [build_work hold.valid]
  rfl

lemma todoKinds_proposal (hkind : w.kind = .proposal) : w.kind ∈ todoKinds := by
  rw [hkind]
  decide

theorem acceptWork_effect {a : AcceptProposal}
    (hkind : w.kind = .proposal) (hold : Holds s w) (hkey : w.key ∈ keys)
    (hdecision : (.decision, a.decisionId) ∈ keys) (h : acceptWork clock w a s = .ok w' s') :
    ∃ ws, Moves keys s ws s' w w' ∧
      (∃ e : EdgeRecord, Decides s s' e ∧ e.source = w.key ∧
        e.relationship = .acceptedByDecision) ∧
      ∃ now, w' = { w.next now with status := .accepted } := by
  simp only [acceptWork, acceptProposal, bind_ok, lift_ok, reading_ok, raiseIf_ok, transaction_ok,
    pure_ok] at h
  rcases h with ⟨existing, _, ⟨hexisting, rfl⟩, _, _, ⟨habsent, rfl⟩, d, _, ⟨hd, rfl⟩, proposal, _,
    ⟨hproposal, rfl⟩, _, _, ⟨-, rfl⟩, rejections, _, ⟨hrejections, rfl⟩, _, _, ⟨hnone, rfl⟩,
    acceptances, _, ⟨hacceptances, rfl⟩, _, _, ⟨hnone', rfl⟩, accepted, _, ⟨haccepted, rfl⟩, _, _,
    ⟨_, t, hupsert, node, u, hupdate, hlink⟩, rfl, rfl⟩
  rw [getProposal_held hold hkind] at hproposal
  cases hproposal
  have hwkey : (Label.proposal, w.id) = w.key := by rw [WorkObject.key, hkind]
  rw [hwkey] at hupdate hlink
  have hdkind : d.kind = .decision := by rw [(postInit_ok.1 hd).1]; rfl
  have hdkey : d.key = (.decision, a.decisionId) := by rw [(postInit_ok.1 hd).1]; rfl
  obtain ⟨hdvalid, hdfresh, hdversion, hdactive, hdraft⟩ := new_valid .decision (by decide) hd
  have hcreate : Trace s [.create d.key d.node] t := by
    have hnone : existing = none := Option.not_isSome_iff_eq_none.1 habsent
    rw [hnone] at hexisting
    simp only [upsertDecision, bind_ok, reading_ok] at hupsert
    obtain ⟨found, _, ⟨hfound, rfl⟩, hupsert⟩ := hupsert
    rw [← hdkey] at hexisting
    rw [hexisting] at hfound
    cases hfound
    simp only [bind_ok, pure_ok] at hupsert
    obtain ⟨_, _, hcreate, -, rfl⟩ := hupsert
    exact createNode_work hdvalid.kind hdactive hcreate
  have hcreated := Records.create (effect_create w.key hdvalid hdversion hdfresh hdraft
    (hdkey ▸ hdecision) hcreate)
  obtain ⟨hvalid, hsucceeds, hw'⟩ := withStatus_ok hold.valid (by decide) haccepted
  have harchived : accepted.archived = w.archived := by rw [hw']; rfl
  have hwrite := (updateNode_work (hold.of_adds hcreated.toAdds) hsucceeds hvalid harchived
    hupdate).2
  have hmoves := moves_after hold hcreated.toAdds
    (effect_update (todoKinds_proposal hkind) hold.valid hvalid hsucceeds (.inl rfl) hkey hwrite)
    hsucceeds.key hvalid
  have hall := hmoves.effect.append (effect_link w.key hkey hlink)
  have habsent : s.node? d.key = none := hcreated.absent List.mem_cons_self
  refine ⟨_, ⟨hall, ?_, List.mem_append_left _ hmoves.subject, hmoves.key, hvalid⟩,
    ⟨⟨w.key, .acceptedByDecision, d.key, prop1 .required (.bool true)⟩,
      ⟨.inl List.mem_cons_self, hdkind, habsent, fun _ => ⟨hkind, ?_⟩, ?_⟩, rfl, rfl⟩, _, hw'⟩
  · rw [nodeKeys_append, nodeKeys_link, nodeKeys_nil, List.append_nil]
    exact hmoves.nodup
  · rw [not_not] at hnone hnone'
    subst hnone hnone'
    apply undecided
    · intro e he hrelation hsource
      have hmem := (acceptanceDecisionEdges_ok hacceptances e).2
        ⟨he, hrelation, hsource.trans hwkey.symm⟩
      cases hmem
    · intro e he hrelation hsource
      have hmem := (related_ok hrejections e).2 ⟨he, hrelation, hsource⟩
      cases hmem
  · exact edges_of_link hall.trace (calm_append hcreated.calm (calm_update _ _ _))
      (by simp [Calm])

lemma decisionEdges_none {key : Key} (hnone : edges = []) (h : decisionEdges s key = .ok edges) :
    ∀ e ∈ s.edges, e.source = key → e.relationship ∉ dispositions := by
  subst hnone
  simp only [decisionEdges, except_bind_ok] at h
  obtain ⟨accepted, haccepted, h⟩ := h
  cases accepted with
  | cons e rest => cases h
  | nil =>
    apply undecided
    · intro e he hrelation hsource
      have hmem := (related_ok haccepted e).2 ⟨he, hrelation, hsource⟩
      cases hmem
    · intro e he hrelation hsource
      have hmem := (related_ok h e).2 ⟨he, hrelation, hsource⟩
      cases hmem

theorem rejectProposal_effect {r : ProposalReject} (hold : Holds s w)
    (hkey : w.key ∈ keys) (hdecision : (.decision, r.decisionId) ∈ keys)
    (h : rejectProposal clock w r s = .ok w' s') :
    ∃ ws, Moves keys s ws s' w w' ∧
      (∃ e : EdgeRecord, Decides s s' e ∧ e.relationship = .rejectedByDecision) ∧ Quiet w w' := by
  simp only [rejectProposal, bind_ok, lift_ok, reading_ok, raiseIf_ok, not_or, not_not] at h
  rcases h with ⟨_, _, ⟨⟨hkind, -⟩, rfl⟩, decided, _, ⟨hdecided, rfl⟩, _, _, ⟨hnone, rfl⟩, d, _,
    ⟨hd, rfl⟩, _, u, hcreate, _, v, hlink, hupdate⟩
  have hwkey : (Label.proposal, w.id) = w.key := by rw [WorkObject.key, hkind]
  rw [hwkey] at hlink
  rcases create_new w.key .decision (by decide) hdecision hd
    hcreate with ⟨hdkey, hdeffect⟩
  have hall := hdeffect.toAdds.append (.link w.key hkey hlink)
  rcases effect_bump w.key (todoKinds_proposal hkind) (hold.of_adds hall) hkey hupdate with
    ⟨rfl, hvalid, hbump⟩
  have hmoves := moves_after hold hall hbump rfl hvalid
  refine ⟨_, hmoves, ⟨⟨w.key, .rejectedByDecision, d.key, noProps⟩,
    ⟨.inl (List.mem_cons_of_mem _ List.mem_cons_self), congrArg Prod.fst hdkey,
      hdeffect.absent List.mem_cons_self,
      fun _ => ⟨hkind, decisionEdges_none hnone hdecided⟩, ?_⟩, rfl⟩, quiet_next w _⟩
  have htrace := hmoves.effect.trace
  rw [List.append_assoc] at htrace
  exact edges_of_link htrace hdeffect.calm (calm_update _ _ _)

theorem convertWork_effect {c : Conversion}
    (hkind : w.kind = .proposal) (hold : Holds s w) (hkey : w.key ∈ keys)
    (hissue : (.issue, c.issueId) ∈ keys) (h : convertWork clock w c s = .ok w' s') :
    ∃ ws, Moves keys s ws s' w (w.next (clock 0)) ∧ Calm ws ∧
      ((s.edges.filter fun e => e.relationship = .acceptedByDecision).filter fun e =>
        e.source = w.key).map (·.target) = [(.decision, c.decisionId)] := by
  simp only [convertWork, convertAcceptedProposalToIssue, bump, bind_ok, lift_ok, reading_ok,
    raiseIf_ok, transaction_ok, pure_ok] at h
  rcases h with ⟨_, _, ⟨hcheck, rfl⟩, issue, t, ⟨proposal, _, ⟨hproposal, rfl⟩, _, _,
    ⟨-, rfl⟩, decisionId, _, ⟨-, rfl⟩, new, _, ⟨hnew, rfl⟩, _, _,
    ⟨node, t1, hcreate, _, t2, hlink1, hlink2⟩, rfl, rfl⟩, bumped, _, hupdate, rfl, rfl⟩
  have hwkey : (Label.proposal, w.id) = w.key := by rw [WorkObject.key, hkind]
  rw [hwkey] at hlink1
  obtain ⟨hissueValid, hfresh, hversion, hactive, hdraft⟩ := new_valid .issue (by decide) hnew
  have hnkey : new.key = (.issue, c.issueId) := by rw [(postInit_ok.1 hnew).1]; rfl
  have hcreated := Records.create (effect_create w.key hissueValid hversion hfresh hdraft
    (hnkey ▸ hissue) (createNode_work hissueValid.kind hactive hcreate))
  have hall := (hcreated.append (.link w.key hkey (by decide) hlink1)).append
    (.link w.key (hnkey ▸ hissue) (by decide) hlink2)
  rcases effect_bump w.key (todoKinds_proposal hkind) (hold.of_adds hall.toAdds) hkey hupdate with
    ⟨-, hvalid, hbump⟩
  refine ⟨_, moves_after hold hall.toAdds hbump rfl hvalid,
    calm_append hall.calm (calm_update _ _ _), ?_⟩
  simp only [checkConversion, validationEdges, except_ok, not_not] at hcheck
  obtain ⟨edges, hedges, _, htargets, -⟩ := hcheck
  cases boundedEdges_ok hedges
  exact htargets

end Objects

end DevGraph.Proofs
