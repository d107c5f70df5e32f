import DevGraph.Proofs.Runs
import DevGraph.Proofs.WorkflowMoves

/-!
# The disposition of a proposal

Over every run a proposal is decided on at most once, by a Decision that serves nothing else,
and what was decided stays.
-/

namespace DevGraph.Proofs

open Lib Work

variable {e : EdgeRecord}

variable {sha256 : String → String} {s s' : Store}

def Decisive (r : Relationship) : Prop := r ∈ dispositions ∨ r = .hasWorkflowDecision

lemma Decisive.structural {r : Relationship} (h : Decisive r) : r ∈ structural := by
  obtain h | rfl := h
  · revert h
    cases r <;> decide
  · decide

lemma Decisive.ne {r : Relationship} (h : Decisive r) :
    r ≠ .hasChild ∧ r ≠ .containsWork ∧ r ≠ .dependsOn ∧ r ≠ .blocks := by
  obtain h | rfl := h
  · revert h
    cases r <;> decide
  · decide

/-- A request leaves the edges of a decisive relationship alone, or adds one to a new Decision. -/
lemma Reshape.decisive_cases (h : Reshape s s') {r : Relationship} (hr : Decisive r) :
    Unchanged r s s' ∨ ∃ e, Decides s s' e ∧ (e.relationship = .acceptedByDecision →
      ∃ w, Holds s' w ∧ w.key = e.source ∧ w.status = .accepted) := by
  obtain ⟨hchild, hcontains, hdepends, hblocks⟩ := hr.ne
  cases h with
  | calm hcalm => exact .inl (hcalm _ hr.structural)
  | decided e hdecides haccepts => exact .inr ⟨e, hdecides, haccepts⟩
  | parent _ _ _ _ _ _ _ _ hothers => exact .inl (hothers _ hr.structural hchild hcontains)
  | member _ _ _ _ _ _ hothers => exact .inl (hothers _ hr.structural hcontains)
  | order _ _ _ _ _ _ _ hothers hordering =>
    refine .inl (hothers _ hr.structural ?_)
    obtain rfl | rfl := hordering
    · exact hdepends
    · exact hblocks

lemma Decides.target_ne {e' : EdgeRecord} (h : Decides s s' e) (he' : e' ∈ s.edges) :
    e'.target ≠ e.target := by
  intro heq
  obtain ⟨node, hnode⟩ := (s.mem_nodes_iff _).1 (s.endpoints e' he').2
  rw [heq, h.absent] at hnode
  cases hnode

lemma Decides.unique {e' : EdgeRecord} (h : Decides s s' e) (h' : Decides s s' e')
    (hdecisive : Decisive e'.relationship) : e' = e := by
  have hmem := (h'.after e' hdecisive.structural).2 (.inr rfl)
  refine ((h.after e' hdecisive.structural).1 hmem).resolve_left ?_
  exact fun hold => h'.target_ne hold rfl

lemma Reshape.decisive (h : Reshape s s') (he : Decisive e.relationship) :
    e ∈ s'.edges ↔ e ∈ s.edges ∨ Decides s s' e := by
  have hnew : Decides s s' e → e ∈ s'.edges := fun hdecides =>
    (hdecides.after e he.structural).2 (.inr rfl)
  obtain hsame | ⟨e', hdecides, -⟩ := h.decisive_cases he
  · exact ⟨fun hmem => .inl ((hsame e rfl).1 hmem), fun hor => hor.elim (hsame e rfl).2 hnew⟩
  · rw [hdecides.after e he.structural]
    refine ⟨fun hor => hor.imp_right ?_, fun hor => hor.imp_right ?_⟩
    · rintro rfl
      exact hdecides
    · intro hdecides'
      exact hdecides.unique hdecides' he

/-- What holds of the proposals of a store. -/
structure Decided (s : Store) : Prop where
  kinds : ∀ e ∈ s.edges, e.relationship ∈ dispositions →
    e.source.1 = .proposal ∧ e.target.1 = .decision
  unique : ∀ e ∈ s.edges, ∀ e' ∈ s.edges, e.relationship ∈ dispositions →
    e'.relationship ∈ dispositions → e.source = e'.source → e = e'
  exclusive : ∀ e ∈ s.edges, ∀ e' ∈ s.edges, e.relationship ∈ dispositions →
    Decisive e'.relationship → e.target = e'.target → e = e'
  status : ∀ w, Holds s w → w.kind = .proposal → (w.status = .accepted ↔
    ∃ e ∈ s.edges, e.relationship = .acceptedByDecision ∧ e.source = w.key)
  done : ∀ w, Holds s w → w.kind = .proposal → w.progress = some .done →
    ∃ e ∈ s.edges, e.relationship ∈ dispositions ∧ e.source = w.key

lemma dispositionRelationship_mem (value : Disposition) :
    dispositionRelationship value ∈ dispositions := by
  cases value <;> decide

lemma workKinds_proposal {w : WorkObject} (hkind : w.kind = .proposal) : w.kind ∈ workKinds := by
  rw [hkind]
  decide

lemma Fresh.not_done {w : WorkObject} (h : Fresh w) (hw : Valid w) (hflow : w.kind ∈ workKinds) :
    w.progress ≠ some .done := by
  intro hdone
  obtain ⟨state, _, hcarries, -⟩ := hw.progressed.flow hflow
  have hstage := (stage_done_iff hw hcarries).2 hdone
  rw [h state hcarries] at hstage
  cases hstage

section Steps

variable {r : Request} {ws : List StoreWrite} {w w' : WorkObject}

lemma kinds_outcome (hs : Decided s) (h : Outcome sha256 r s ws s') :
    ∀ e ∈ s'.edges, e.relationship ∈ dispositions →
      e.source.1 = .proposal ∧ e.target.1 = .decision := by
  intro e he hrelation
  obtain hold | hnew := (h.reshape.decisive (.inl hrelation)).1 he
  · exact hs.kinds e hold hrelation
  · exact ⟨(hnew.first hrelation).1, hnew.decision⟩

lemma unique_outcome (hs : Decided s) (h : Outcome sha256 r s ws s') :
    ∀ e ∈ s'.edges, ∀ e' ∈ s'.edges, e.relationship ∈ dispositions →
      e'.relationship ∈ dispositions → e.source = e'.source → e = e' := by
  intro e he e' he' hrelation hrelation' hsource
  obtain hold | hnew := (h.reshape.decisive (.inl hrelation)).1 he
  · obtain hold' | hnew' := (h.reshape.decisive (.inl hrelation')).1 he'
    · exact hs.unique e hold e' hold' hrelation hrelation' hsource
    · exact absurd hrelation ((hnew'.first hrelation').2 e hold hsource)
  · obtain hold' | hnew' := (h.reshape.decisive (.inl hrelation')).1 he'
    · exact absurd hrelation' ((hnew.first hrelation).2 e' hold' hsource.symm)
    · exact hnew'.unique hnew (.inl hrelation)

lemma exclusive_outcome (hs : Decided s) (h : Outcome sha256 r s ws s') :
    ∀ e ∈ s'.edges, ∀ e' ∈ s'.edges, e.relationship ∈ dispositions →
      Decisive e'.relationship → e.target = e'.target → e = e' := by
  intro e he e' he' hrelation hdecisive htarget
  obtain hold | hnew := (h.reshape.decisive (.inl hrelation)).1 he
  · obtain hold' | hnew' := (h.reshape.decisive hdecisive).1 he'
    · exact hs.exclusive e hold e' hold' hrelation hdecisive htarget
    · exact absurd htarget (hnew'.target_ne hold)
  · obtain hold' | hnew' := (h.reshape.decisive hdecisive).1 he'
    · exact absurd htarget.symm (hnew.target_ne hold')
    · exact hnew'.unique hnew (.inl hrelation)

/-- A proposal that is accepted by the request has the status, and no other proposal changes to
or from it. -/
lemma status_change (hkind : w.kind = .proposal) (h : Change sha256 r s s' w w') :
    (w.status = .accepted → w'.status = .accepted) ∧
    (w'.status = .accepted → w.status = .accepted ∨ ∃ e, Decides s s' e ∧
      e.relationship = .acceptedByDecision ∧ e.source = w.key) := by
  have hiff : (w'.status = .accepted ↔ w.status = .accepted) →
      (w.status = .accepted → w'.status = .accepted) ∧
      (w'.status = .accepted → w.status = .accepted ∨ ∃ e, Decides s s' e ∧
        e.relationship = .acceptedByDecision ∧ e.source = w.key) :=
    fun h => ⟨h.2, fun hnew => .inl (h.1 hnew)⟩
  cases h with
  | kept hsame => exact hiff (hsame ▸ Iff.rfl)
  | bumped _ now hnext => exact hiff (hnext ▸ Iff.rfl)
  | moved _ _ hmoved =>
    cases hmoved with
    | quiet _ hquiet => exact hiff (hquiet.status hkind)
    | archived _ _ _ hresult => exact hiff (hresult ▸ Iff.rfl)
    | restored _ _ _ hresult => exact hiff (hresult ▸ Iff.rfl)
    | accepted _ _ _ e hdecides hsource hrelation hresult =>
      exact ⟨fun _ => hresult ▸ rfl, fun _ => .inr ⟨e, hdecides, hrelation, hsource⟩⟩
    | converted _ _ _ hquiet => exact hiff (hquiet.status hkind)
    | noted _ _ _ hsteady => exact hiff (hsteady.status hkind)
    | transitioned _ _ _ _ _ _ _ _ hsteady => exact hiff (hsteady.status hkind)
    | reviewed _ _ _ _ _ _ _ _ hsteady => exact hiff (hsteady.status hkind)
    | progressed _ _ _ _ _ _ _ hsteady => exact hiff (hsteady.status hkind)

lemma Reshape.accepts (h : Reshape s s') (hdecides : Decides s s' e)
    (hrelation : e.relationship = .acceptedByDecision) :
    ∃ w, Holds s' w ∧ w.key = e.source ∧ w.status = .accepted := by
  have hdecisive : Decisive e.relationship := hdecides.relation
  have hmem := (hdecides.after e hdecisive.structural).2 (.inr rfl)
  obtain hsame | ⟨e', hdecides', haccepts⟩ := h.decisive_cases hdecisive
  · exact absurd rfl (hdecides.target_ne ((hsame e rfl).1 hmem))
  · cases hdecides.unique hdecides' hdecides'.relation
    exact haccepts hrelation

lemma Outcome.changed (hworks : WorkNodes s) (h : Outcome sha256 r s ws s') (hold' : Holds s' w')
    {node : Node} (hnode : s.node? w'.key = some node) :
    ∃ w, Holds s w ∧ w.key = w'.key ∧ Change sha256 r s s' w w' := by
  obtain ⟨w, hvalid, hkey, rfl⟩ := hworks w'.key node hold'.valid.kind hnode
  have hold : Holds s w := ⟨hkey.symm ▸ hnode, hvalid⟩
  obtain ⟨w1, hold1, hkey1, hchange⟩ := h.change hold
  cases hold'.unique hold1 (hkey1.trans hkey)
  exact ⟨w, hold, hkey, hchange⟩

lemma status_outcome (hworks : WorkNodes s) (hs : Decided s) (h : Outcome sha256 r s ws s')
    (hold' : Holds s' w') (hkind : w'.kind = .proposal) : w'.status = .accepted ↔
      ∃ e ∈ s'.edges, e.relationship = .acceptedByDecision ∧ e.source = w'.key := by
  have haccepted : Decisive .acceptedByDecision := .inl (by decide)
  cases hnode : s.node? w'.key with
  | none =>
    have hdraft := (h.created hnode hold').2 (by rw [hkind]; decide)
    rw [hdraft]
    refine iff_of_false (by decide) ?_
    rintro ⟨e, he, hrelation, hsource⟩
    obtain hold | hnew := (h.reshape.decisive (hrelation ▸ haccepted)).1 he
    · obtain ⟨node, hpresent⟩ := (s.mem_nodes_iff _).1 (s.endpoints e hold).1
      rw [hsource, hnode] at hpresent
      cases hpresent
    · obtain ⟨w, hold, hkey, hstatus⟩ := h.reshape.accepts hnew hrelation
      cases hold'.unique hold (hkey.trans hsource)
      rw [hdraft] at hstatus
      cases hstatus
  | some node =>
    obtain ⟨w, hold, hkey, hchange⟩ := h.changed hworks hold' hnode
    have hwkind : w.kind = .proposal := (congrArg Prod.fst hkey).trans hkind
    obtain ⟨hkeep, hnew⟩ := status_change hwkind hchange
    have hbefore := hs.status w hold hwkind
    constructor
    · intro hstatus
      obtain hstatus | ⟨e, hdecides, hrelation, hsource⟩ := hnew hstatus
      · obtain ⟨e, he, hrelation, hsource⟩ := hbefore.1 hstatus
        exact ⟨e, (h.reshape.decisive (hrelation ▸ haccepted)).2 (.inl he), hrelation,
          hsource.trans hkey⟩
      · exact ⟨e, (h.reshape.decisive (hrelation ▸ haccepted)).2 (.inr hdecides), hrelation,
          hsource.trans hkey⟩
    · rintro ⟨e, he, hrelation, hsource⟩
      obtain hold | hdecides := (h.reshape.decisive (hrelation ▸ haccepted)).1 he
      · exact hkeep (hbefore.2 ⟨e, hold, hrelation, hsource.trans hkey.symm⟩)
      · obtain ⟨w2, hold2, hkey2, hstatus⟩ := h.reshape.accepts hdecides hrelation
        cases hold'.unique hold2 (hkey2.trans hsource)
        exact hstatus

lemma done_change (hkind : w.kind = .proposal) (hold' : Holds s' w')
    (h : Change sha256 r s s' w w') (hdone : w'.progress = some .done) :
    w.progress = some .done ∨
      ∃ e ∈ s.edges, e.relationship ∈ dispositions ∧ e.source = w.key := by
  have hdecided : ∀ value, disposition s w = .ok (some value) →
      ∃ e ∈ s.edges, e.relationship ∈ dispositions ∧ e.source = w.key := by
    intro value hvalue
    obtain ⟨e, he, hrelation, hsource⟩ := disposition_ok hvalue
    exact ⟨e, he, hrelation ▸ dispositionRelationship_mem value, hsource⟩
  cases h with
  | kept hsame => exact .inl (hsame ▸ hdone)
  | bumped _ now hnext =>
    rw [hnext] at hdone
    exact .inl hdone
  | moved _ _ hmoved =>
    cases hmoved with
    | quiet _ hquiet => exact .inl (hquiet.progress.symm.trans hdone)
    | archived _ _ _ hresult =>
      rw [hresult] at hdone
      exact .inl hdone
    | restored _ _ _ hresult =>
      rw [hresult] at hdone
      exact .inl hdone
    | accepted _ _ _ _ _ _ _ hresult =>
      rw [hresult] at hdone
      exact .inl hdone
    | converted _ _ _ hquiet => exact .inl (hquiet.progress.symm.trans hdone)
    | noted _ _ hnoted => cases hkind.symm.trans hnoted.todo
    | transitioned t _ state state' hcarries hopen hmove hcarries' _ =>
      have hstage := (stage_done_iff hold'.valid hcarries').2 hdone
      obtain ⟨target, hgaps, hmove⟩ := transitionState_ok hcarries hmove
      cases hmove with
      | blocked _ htarget _ hresult =>
        rw [hresult, htarget] at hstage
        cases hstage
      | resumed _ hresume hresult =>
        rw [hresult] at hstage
        exact absurd hstage (resumeStage_ne hcarries.valid hresume).2
      | returned hback _ hresult =>
        rw [hresult] at hstage
        exact absurd hstage (returns_ne hback).2.1
      | advanced hnext hresult =>
        rw [hresult] at hstage
        have htarget : target = .done := hstage
        subst htarget
        rcases dispositionGaps_nil hkind (forwardGaps_nil (gaps_forward hnext hgaps).2).2.2 with
          ⟨value, hvalue⟩
        exact .inr (hdecided value hvalue)
    | reviewed _ _ state _ hopen _ hcarries' =>
      exact absurd ((stage_done_iff hold'.valid hcarries').2 hdone) hopen
    | progressed change _ state state' _ hcarries' hstep =>
      cases hstep with
      | handedOff _ hrejected => exact .inr (hdecided _ hrejected)
      | reopened =>
        have hstage := (stage_done_iff hold'.valid hcarries').2 hdone
        revert hstage
        cases state.workflowId <;> exact nofun

lemma done_outcome (hworks : WorkNodes s) (hs : Decided s) (h : Outcome sha256 r s ws s')
    (hold' : Holds s' w') (hkind : w'.kind = .proposal) (hdone : w'.progress = some .done) :
    ∃ e ∈ s'.edges, e.relationship ∈ dispositions ∧ e.source = w'.key := by
  cases hnode : s.node? w'.key with
  | none =>
    have hfresh := (h.created hnode hold').1
    exact absurd hdone (hfresh.not_done hold'.valid (workKinds_proposal hkind))
  | some node =>
    obtain ⟨w, hold, hkey, hchange⟩ := h.changed hworks hold' hnode
    have hwkind : w.kind = .proposal := (congrArg Prod.fst hkey).trans hkind
    have hbefore : ∃ e ∈ s.edges, e.relationship ∈ dispositions ∧ e.source = w.key := by
      obtain hdone | hedge := done_change hwkind hold' hchange hdone
      · exact hs.done w hold hwkind hdone
      · exact hedge
    obtain ⟨e, he, hrelation, hsource⟩ := hbefore
    exact ⟨e, (h.reshape.decisive (.inl hrelation)).2 (.inl he), hrelation,
      hsource.trans hkey⟩

end Steps

theorem decided_run (sha256 : String → String) (events : List Event) :
    Decided (run sha256 events) := by
  apply run_invariant (P := Decided)
  · constructor
    · intro e he
      cases he
    · intro e he
      cases he
    · intro e he
      cases he
    · intro w hold
      cases hold.node
    · intro w hold
      cases hold.node
  · intro s r ws s' hworks hs houtcome
    exact ⟨kinds_outcome hs houtcome, unique_outcome hs houtcome, exclusive_outcome hs houtcome,
      fun w hold hkind => status_outcome hworks hs houtcome hold hkind,
      fun w hold hkind hdone => done_outcome hworks hs houtcome hold hkind hdone⟩

lemma decisive_mono (sha256 : String → String) (events : List Event) {i j : Nat}
    (hij : i ≤ j) (he : e ∈ (storeAt sha256 events i).edges) (hdecisive : Decisive e.relationship) :
    e ∈ (storeAt sha256 events j).edges := by
  induction hij with
  | refl => exact he
  | @step j _ ih =>
    obtain hsame | ⟨r, ws, -, houtcome⟩ := storeAt_cases sha256 events j
    · rw [Nat.succ_eq_add_one, hsame]
      exact ih
    · exact (houtcome.reshape.decisive hdecisive).2 (.inl ih)

lemma record_not_disposition {events : List Event} {n m : Nat} {r : WorkRequest}
    {review : WorkflowReview} (h : Executed sha256 events n (.work r))
    (hpayload : r.payload = .workflowReview review) (he : e ∈ (storeAt sha256 events m).edges)
    (hrelation : e.relationship ∈ dispositions) :
    e.target ≠ (recordKind review.phase, review.recordId) := by
  intro htarget
  have hs := decided_run sha256 (events.take (max m (n + 1)))
  have hdecision := (decided_run sha256 (events.take m)).kinds e he hrelation
  rw [htarget] at hdecision
  rcases executed_moved h (fun _ hc => nomatch hpayload.symm.trans hc)
    (fun _ hc => nomatch hpayload.symm.trans hc) with ⟨w, w', -, -, -, -, hmoved⟩
  rw [hpayload] at hmoved
  have hrecorded := hmoved.of_review
  have hlinked := hrecorded.linked
  obtain ⟨-, hworkflow⟩ | hother := recordRelation_cases review.phase
  · rw [hworkflow] at hlinked
    -- Both edges are in the later of the two stores, and lead to the same Decision.
    have hfirst := decisive_mono sha256 events (le_max_left m (n + 1)) he (.inl hrelation)
    have hsecond := decisive_mono sha256 events (le_max_right m (n + 1)) hlinked (.inr rfl)
    cases hs.exclusive e hfirst _ hsecond hrelation (.inr rfl) htarget
    exact absurd hrelation (show Relationship.hasWorkflowDecision ∉ dispositions by decide)
  · apply hother
    have hkind : recordKind review.phase = .decision := hdecision.2
    rw [hkind]
    decide

/-- Over every run a proposal has at most one disposition, which stays, by a Decision that is the
disposition of no other proposal and the record of no workflow review. The proposal has the
accepted status exactly when the disposition accepts it, is done only with a disposition, and is
converted only by the Decision that accepted it. -/
theorem run_dispositions (sha256 : String → String) (events : List Event) :
    (∀ n, (∀ e ∈ (storeAt sha256 events n).edges, ∀ e' ∈ (storeAt sha256 events n).edges,
        e.relationship ∈ dispositions → e'.relationship ∈ dispositions →
        e.source = e'.source ∨ e.target = e'.target → e = e') ∧
      ∀ id node, (storeAt sha256 events n).node? (.proposal, id) = some node →
        (node.properties .status = some (.str WorkStatus.accepted.name) ↔
          ∃ e ∈ (storeAt sha256 events n).edges, e.relationship = .acceptedByDecision ∧
            e.source = (.proposal, id)) ∧
        (node.properties .progress = some (.str Progress.done.name) →
          ∃ e ∈ (storeAt sha256 events n).edges, e.relationship ∈ dispositions ∧
            e.source = (.proposal, id))) ∧
    (∀ i j e, i ≤ j → e ∈ (storeAt sha256 events i).edges → e.relationship ∈ dispositions →
      e ∈ (storeAt sha256 events j).edges) ∧
    (∀ n m r review e, Executed sha256 events n (.work r) → r.payload = .workflowReview review →
      e ∈ (storeAt sha256 events m).edges → e.relationship ∈ dispositions →
      e.target ≠ (recordKind review.phase, review.recordId)) ∧
    ∀ n r c, Executed sha256 events n (.work r) → r.payload = .convert c →
      acceptances (storeAt sha256 events n) r.key = [(.decision, c.decisionId)] := by
  refine ⟨?_, ?_, ?_, ?_⟩
  · intro n
    have hs : Decided (storeAt sha256 events n) := decided_run sha256 _
    refine ⟨?_, ?_⟩
    · rintro e he e' he' hrelation hrelation' (hsource | htarget)
      · exact hs.unique e he e' he' hrelation hrelation' hsource
      · exact hs.exclusive e he e' he' hrelation (.inl hrelation') htarget
    · intro id node hnode
      rcases workNodes_storeAt sha256 events n (.proposal, id) node
        (show Label.proposal ∈ canonicalWorkKinds by decide) hnode with ⟨w, hvalid, hkey, rfl⟩
      have hold : Holds (storeAt sha256 events n) w := ⟨hkey.symm ▸ hnode, hvalid⟩
      have hkind : w.kind = .proposal := congrArg Prod.fst hkey
      have hstatus := hs.status w hold hkind
      have hdone := hs.done w hold hkind
      rw [hkey] at hstatus hdone
      refine ⟨?_, ?_⟩
      · rw [← hstatus]
        change some (Value.str w.status.name) = _ ↔ _
        rw [Option.some.injEq, Value.str.injEq, statusName_injective.eq_iff]
      · intro hprogress
        apply hdone
        have htodo := todoKinds_proposal hkind
        change (if w.kind ∈ todoKinds then _ else _) = _ at hprogress
        rw [if_pos htodo, Option.map_eq_some_iff] at hprogress
        obtain ⟨progress, hprogress, hname⟩ := hprogress
        rw [hprogress]
        exact congrArg some (progressName_injective (Value.str.inj hname))
  · intro i j e hij he hrelation
    exact decisive_mono sha256 events hij he (.inl hrelation)
  · intro n m r review e h hpayload he hrelation
    exact record_not_disposition h hpayload he hrelation
  · intro n r c h hpayload
    rcases executed_moved h (fun _ hc => nomatch hpayload.symm.trans hc)
      (fun _ hc => nomatch hpayload.symm.trans hc) with ⟨w, w', -, hkey, -, -, hmoved⟩
    rw [hpayload] at hmoved
    exact hkey ▸ hmoved.of_convert

end DevGraph.Proofs
