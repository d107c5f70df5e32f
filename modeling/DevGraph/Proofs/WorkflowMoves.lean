import DevGraph.Proofs.WorkflowEffects

/-!
# The moves of a workflow

What a transition that succeeds did: it was legal, it had no unmet requirement, and it either
blocked the item, resumed it, returned it or took it one stage forward.
-/

namespace DevGraph.Proofs

open Lib Work

variable {target : Stage}

variable {sha256 : String → String} {s : Store} {w : WorkObject} {state state' : WorkflowState}

/-- The ways in which a transition changes the state of a workflow. -/
inductive StageMove (state : WorkflowState) (target : Stage) (reason : String)
    (state' : WorkflowState) : Prop
  | blocked (open' : state.stage ≠ .blockedWaitingInput) (stage : target = .blockedWaitingInput)
      (explained : isBlank reason = false)
      (result : state' = { state.withoutReviews [.resolution] with
        stage := target, resumeStage := some state.stage, blockingReason := reason })
  | resumed (blocked : state.stage = .blockedWaitingInput)
    (resume : state.resumeStage = some target)
      (result : state' = { state with stage := target, resumeStage := none, blockingReason := "" })
  | returned (back : returns state.workflowId state.stage = some target)
      (explained : isBlank reason = false)
      (result : state' = { state.withoutReviews (invalidated target) with stage := target })
  | advanced (next : forward state.workflowId state.stage = some target)
      (result : state' = { state with stage := target })

lemma forward_ne {workflow : WorkflowId} {stage target : Stage}
    (h : forward workflow stage = some target) :
    target ≠ .blockedWaitingInput ∧ returns workflow stage ≠ some target ∧
      stage ≠ .blockedWaitingInput := by
  revert h
  cases workflow <;> cases stage <;> cases target <;> decide

lemma returns_ne {workflow : WorkflowId} {stage target : Stage}
    (h : returns workflow stage = some target) :
    target ≠ .blockedWaitingInput ∧ target ≠ .done ∧ stage ≠ .blockedWaitingInput := by
  revert h
  cases workflow <;> cases stage <;> cases target <;> decide

lemma resumeStage_ne (hvalid : state.valid = true)
    (h : state.resumeStage = some target) : target ≠ .blockedWaitingInput ∧ target ≠ .done := by
  simp only [WorkflowState.valid, h, Bool.and_eq_true, decide_eq_true_eq] at hvalid
  exact ⟨hvalid.1.1.1.1.2.2, hvalid.1.1.1.1.2.1.2⟩

lemma movedState_ok {reason : String} (hvalid : state.valid = true)
    (htarget : target ∈ targets state) (h : movedState state target reason = .ok state') :
    StageMove state target reason state' := by
  have hcases : (state.stage = .blockedWaitingInput ∧ state.resumeStage = some target) ∨
      (state.stage ≠ .blockedWaitingInput ∧ (forward state.workflowId state.stage = some target ∨
        returns state.workflowId state.stage = some target ∨ target = .blockedWaitingInput)) := by
    unfold targets at htarget
    split at htarget
    · rename_i hblocked
      exact .inl ⟨hblocked, Option.mem_toList.1 htarget⟩
    · rename_i hopen
      simp only [List.mem_append, Option.mem_toList, List.mem_singleton, or_assoc] at htarget
      exact .inr ⟨hopen, htarget⟩
  unfold movedState at h
  obtain ⟨hblocked, hresume⟩ | ⟨hopen, hnext | hback | rfl⟩ := hcases
  · rw [if_neg (resumeStage_ne hvalid hresume).1, if_pos hblocked, except_pure_ok] at h
    exact .resumed hblocked hresume h.symm
  · obtain ⟨hne, hback, -⟩ := forward_ne hnext
    rw [if_neg hne, if_neg hopen, if_neg hback, except_pure_ok] at h
    exact .advanced hnext h.symm
  · rw [if_neg (returns_ne hback).1, if_neg hopen, if_pos hback] at h
    simp only [except_ok, Bool.not_eq_true] at h
    obtain ⟨_, hreason, h⟩ := h
    exact .returned hback hreason h.symm
  · rw [if_pos rfl] at h
    simp only [except_ok, Bool.not_eq_true] at h
    obtain ⟨_, hreason, h⟩ := h
    exact .blocked hopen rfl hreason h.symm

lemma legalTarget_ok {legal : List (Stage × List String)} {stage : String}
    (h : legalTarget legal stage = .ok target) : (target, []) ∈ legal := by
  unfold legalTarget at h
  split at h
  · cases h
  · rename_i row hfind
    simp only [except_ok, not_not] at h
    obtain ⟨_, hnone, rfl⟩ := h
    rw [← hnone]
    exact List.mem_of_find?_eq_some hfind

theorem transitionState_ok {t : WorkflowTransition} (hcarries : Carries w state)
    (h : transitionState sha256 s w state t = .ok state') :
    ∃ target, gaps sha256 s w state target = .ok [] ∧ StageMove state target t.reason state' := by
  have hvalid := hcarries.valid
  obtain ⟨raw, hraw, hdecode⟩ := hcarries
  simp only [transitionState, except_bind_ok] at h
  obtain ⟨legal, hlegal, target, htarget, hmoved⟩ := h
  have hmem := legalTarget_ok htarget
  simp only [transitions, hraw] at hlegal
  split at hlegal
  · cases hlegal
    cases hmem
  · simp only [except_bind_ok] at hlegal
    obtain ⟨decoded, hdecoded, hlegal⟩ := hlegal
    rw [hdecode] at hdecoded
    cases hdecoded
    split at hlegal
    · cases hlegal
      cases hmem
    · obtain ⟨target', htarget', hgaps⟩ := mem_mapM hlegal hmem
      simp only [except_ok] at hgaps
      obtain ⟨unmet, hunmet, heq⟩ := hgaps
      cases heq
      exact ⟨target, hunmet, movedState_ok hvalid htarget' hmoved⟩

lemma eraseDups_eq_nil {l : List String} (h : l.eraseDups = []) : l = [] := by
  cases l with
  | nil => rfl
  | cons a l =>
    rw [List.eraseDups_cons] at h
    cases h

lemma forwardGaps_nil (h : forwardGaps sha256 s w state target = .ok []) :
    approvalGaps sha256 s w state (entryPhases state.workflowId target) = .ok [] ∧
      gateGaps sha256 s w state target = .ok [] ∧ dispositionGaps s w target = .ok [] := by
  simp only [forwardGaps, except_ok] at h
  obtain ⟨missing, hmissing, incomplete, hincomplete, undecided, hundecided, hnil⟩ := h
  have happend := eraseDups_eq_nil hnil
  simp only [List.append_eq_nil_iff] at happend
  obtain ⟨⟨rfl, rfl⟩, rfl⟩ := happend
  exact ⟨hmissing, hincomplete, hundecided⟩

lemma gaps_forward (hnext : forward state.workflowId state.stage = some target)
    (h : gaps sha256 s w state target = .ok []) :
    w.archived = false ∧ forwardGaps sha256 s w state target = .ok [] := by
  obtain ⟨htarget, hback, hopen⟩ := forward_ne hnext
  unfold gaps at h
  by_cases hactive : w.archived = true
  · rw [if_pos hactive] at h
    cases h
  · rw [if_neg hactive, if_neg htarget, if_neg hopen, if_neg hback] at h
    exact ⟨(Bool.not_eq_true _).mp hactive, h⟩

lemma gaps_resumed (hblocked : state.stage = .blockedWaitingInput)
    (htarget : target ≠ .blockedWaitingInput) (h : gaps sha256 s w state target = .ok []) :
    approved sha256 s w state .resolution true = .ok true := by
  unfold gaps at h
  by_cases hactive : w.archived = true
  · rw [if_pos hactive] at h
    cases h
  · rw [if_neg hactive, if_neg htarget, if_pos hblocked] at h
    simp only [except_ok] at h
    obtain ⟨ok, hok, hnil⟩ := h
    cases ok with
    | true => exact hok
    | false => cases hnil

def dispositionRelationship : Disposition → Relationship
  | .accepted => .acceptedByDecision
  | .rejected => .rejectedByDecision

lemma decided_ok {value : Disposition} {edges : List EdgeRecord} {found : List Disposition}
    (h : decided s value edges = .ok (some found)) : found = edges.map fun _ => value := by
  induction edges generalizing found with
  | nil =>
    cases h
    rfl
  | cons e edges ih =>
    simp only [decided, except_bind_ok] at h
    obtain ⟨node, -, h⟩ := h
    cases node with
    | none => cases h
    | some node =>
      simp only at h
      split at h
      · cases h
      · split at h
        · split at h <;> cases h
        · simp only [except_ok, Option.map_eq_some_iff] at h
          obtain ⟨rest, hrest, rest', rfl, rfl⟩ := h
          rw [ih hrest, List.map_cons]

theorem disposition_ok {value : Disposition} (h : disposition s w = .ok (some value)) :
    ∃ e ∈ s.edges, e.relationship = dispositionRelationship value ∧ e.source = w.key := by
  simp only [disposition, except_bind_ok] at h
  obtain ⟨acceptedEdges, haccepted, accepted, hdecided, h⟩ := h
  cases accepted with
  | none => cases h
  | some accepted =>
    simp only [except_bind_ok] at h
    obtain ⟨rejectedEdges, hrejected, rejected, hdecided', h⟩ := h
    cases rejected with
    | none => cases h
    | some rejected =>
      have hvalue : accepted ++ rejected = [value] := by
        revert h
        simp only
        split
        · rename_i heq
          intro h
          rw [heq, Option.some.inj (except_pure_ok.1 h)]
        · exact nofun
      have hmem : value ∈ accepted ++ rejected := by rw [hvalue]; exact List.mem_singleton_self _
      rw [decided_ok hdecided, decided_ok hdecided', List.mem_append] at hmem
      obtain hmem | hmem := hmem
      · obtain ⟨e, he, rfl⟩ := List.mem_map.1 hmem
        have hedge := (related_ok haccepted e).1 he
        exact ⟨e, hedge.1, hedge.2.1, hedge.2.2⟩
      · obtain ⟨e, he, rfl⟩ := List.mem_map.1 hmem
        have hedge := (related_ok hrejected e).1 he
        exact ⟨e, hedge.1, hedge.2.1, hedge.2.2⟩

lemma dispositionGaps_nil (hkind : w.kind = .proposal)
    (h : dispositionGaps s w .done = .ok []) : ∃ value, disposition s w = .ok (some value) := by
  simp only [dispositionGaps, hkind, and_self, if_true, except_ok] at h
  obtain ⟨found, hfound, hnil⟩ := h
  cases found with
  | none => cases hnil
  | some value => exact ⟨value, hfound⟩

end DevGraph.Proofs
