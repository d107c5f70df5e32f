import DevGraph.Proofs.WorkflowText
import DevGraph.Work.Repository

/-!
# Work objects in the store

What a Work object keeps true of itself, and that a node which holds one is read back as that
object: it passes the canonical validation and none of its fields is lost.
-/

namespace DevGraph.Proofs

open Lib Work

def Carries (w : WorkObject) (state : WorkflowState) : Prop :=
  ∃ raw, w.workflowJson = some raw ∧ decodeState raw = .ok state

/-- The fields that the kind of the object allows, and how they agree with each other. -/
structure Progressed (w : WorkObject) : Prop where
  todo : w.kind = .todo → w.workflowJson = none ∧ w.progress.isSome
  flow : w.kind ∈ workKinds → ∃ state progress, Carries w state ∧
    stageProgress state.workflowId state.stage = .ok progress ∧ w.progress = some progress
  other : w.kind ∉ todoKinds →
    w.workflowJson = none ∧ w.progress = none ∧ w.progressRecordId = none ∧ w.archived = false

structure Valid (w : WorkObject) : Prop where
  kind : w.kind ∈ canonicalWorkKinds
  id : isWorkObjectId w.id = true
  version : isVersion w.version = true
  priority : isPriority w.priority = true
  artifactIds : w.artifactIds.all isWorkObjectId = true
  externalLinkIds : w.externalLinkIds.all isWorkObjectId = true
  status : w.status ≠ .archived
  recordId : w.progressRecordId.all isWorkObjectId = true
  migration : w.progressMigrationJson = none
  progressed : Progressed w

lemma postInit_ok {w w' : WorkObject} : WorkObject.postInit w = .ok w' ↔
    w' = w ∧ isWorkObjectId w.id = true ∧ isVersion w.version = true ∧
      isPriority w.priority = true ∧ w.artifactIds.all isWorkObjectId = true ∧
      w.externalLinkIds.all isWorkObjectId = true ∧ w.checkTodo = .ok () := by
  simp only [WorkObject.postInit, except_ok, validateWorkObjectId, validateVersion,
    validatePriority, validateWorkObjectIds, Bool.not_eq_false, exists_const]
  constructor
  · rintro ⟨hid, hversion, hpriority, hartifacts, hlinks, ⟨⟩, htodo, rfl⟩
    exact ⟨rfl, hid, hversion, hpriority, hartifacts, hlinks, htodo⟩
  · rintro ⟨rfl, hid, hversion, hpriority, hartifacts, hlinks, htodo⟩
    exact ⟨hid, hversion, hpriority, hartifacts, hlinks, (), htodo, rfl⟩

lemma todoKinds_iff {kind : Label} : kind ∈ todoKinds ↔ kind = .todo ∨ kind ∈ workKinds := by
  cases kind <;> decide

lemma validateProgress_carried {w : WorkObject} {state : WorkflowState} {progress : Progress}
    (hcarries : Carries w state)
    (hstage : stageProgress state.workflowId state.stage = .ok progress) :
    validateProgress (some progress) w.workflowJson = .ok () := by
  obtain ⟨raw, hraw, hdecode⟩ := hcarries
  have hne : raw ≠ "" := fun h => decodeState_empty state (h ▸ hdecode)
  rw [hraw]
  simp only [validateProgress, hne, if_false, except_bind_ok]
  exact ⟨state, hdecode, progress, hstage, by rw [raiseIf_eq_ok]; exact fun h => h rfl⟩

lemma validateProgress_ok {progress : Progress} {raw : String}
    (h : validateProgress (some progress) (some raw) = .ok ()) (hraw : raw ≠ "") :
    ∃ state, decodeState raw = .ok state ∧
      stageProgress state.workflowId state.stage = .ok progress := by
  simp only [validateProgress, hraw, if_false, except_ok, not_not] at h
  obtain ⟨state, hdecode, expected, hstage, heq⟩ := h
  exact ⟨state, hdecode, heq ▸ hstage⟩

section ValidObject

variable {w : WorkObject}

lemma Progressed.check (h : Progressed w) (hkind : w.kind ∈ todoKinds) :
    validateProgress w.progress w.workflowJson = .ok () := by
  obtain hkind | hkind := todoKinds_iff.1 hkind
  · rw [(h.todo hkind).1]
    cases w.progress <;> rfl
  · obtain ⟨state, progress, hcarries, hstage, hprogress⟩ := h.flow hkind
    rw [hprogress]
    exact validateProgress_carried hcarries hstage

lemma Valid.postInit (h : Valid w) : WorkObject.postInit w = .ok w := by
  rw [postInit_ok]
  refine ⟨rfl, h.id, h.version, h.priority, h.artifactIds, h.externalLinkIds, ?_⟩
  unfold WorkObject.checkTodo
  split
  · exact h.progressed.check ‹_›
  · rfl

lemma progress_isSome (h : Valid w) (hkind : w.kind ∈ todoKinds) :
    ∃ progress, w.progress = some progress := by
  obtain hkind | hkind := todoKinds_iff.1 hkind
  · exact Option.isSome_iff_exists.1 (h.progressed.todo hkind).2
  · obtain ⟨_, progress, _, _, hprogress⟩ := h.progressed.flow hkind
    exact ⟨progress, hprogress⟩

lemma canonicalProps_toNodeProperties (w : WorkObject) :
    canonicalProps w.toNodeProperties = w.toNodeProperties := by
  funext p
  unfold canonicalProps
  cases p <;> rfl

lemma checkNames_work (w : WorkObject) (allowUnknown : Bool) :
    checkNames w.toNodeProperties allowUnknown = .ok () := by
  rw [checkNames, raiseIf_eq_ok, not_not]
  constructor
  · intro p hp
    simp only [modelProperties, List.mem_cons, List.not_mem_nil, or_false] at hp
    rcases hp with rfl | rfl | rfl | rfl | rfl | rfl | rfl | rfl | rfl | rfl <;> rfl
  · apply Or.inr
    intro p _ hp
    cases p <;> first | decide | cases hp

lemma progressOfName_name (progress : Progress) : progressOfName progress.name = some progress := by
  cases progress <;> rfl

lemma statusOfName_name (status : WorkStatus) : statusOfName status.name = some status := by
  cases status <;> rfl

lemma checkWorkflow_work (h : Valid w) : checkWorkflow w.toNodeProperties = .ok () := by
  unfold checkWorkflow
  by_cases hkind : w.kind ∈ workKinds
  · obtain ⟨state, _, ⟨raw, hraw, hdecode⟩, _⟩ := h.progressed.flow hkind
    simp only [WorkObject.toNodeProperties, hraw, Option.map_some, except_bind_ok]
    exact ⟨state, hdecode, rfl⟩
  · have hnone : w.workflowJson = none := by
      by_cases htodo : w.kind = .todo
      · exact (h.progressed.todo htodo).1
      · exact (h.progressed.other fun hmem => (todoKinds_iff.1 hmem).elim htodo hkind).1
    simp only [WorkObject.toNodeProperties, hnone, Option.map_none]
    rfl

lemma workflowText_work (w : WorkObject) : workflowText w.toNodeProperties = w.workflowJson := by
  simp only [workflowText, WorkObject.toNodeProperties]
  cases w.workflowJson <;> rfl

lemma checkProgress_work (h : Valid w) : checkProgress w.kind w.toNodeProperties = .ok () := by
  unfold checkProgress
  by_cases hkind : w.kind ∈ todoKinds
  · obtain ⟨progress, hprogress⟩ := progress_isSome h hkind
    have hvalue : checkProgressValue w.toNodeProperties = .ok () := by
      have hcheck := h.progressed.check hkind
      rw [hprogress] at hcheck
      simp only [checkProgressValue, WorkObject.toNodeProperties, hkind, if_true, hprogress,
        Option.map_some, progressOfName_name]
      change validateProgress (some progress) (workflowText w.toNodeProperties) = _
      rw [workflowText_work, hcheck]
    have hrecord : checkRecordId w.toNodeProperties = .ok () := by
      simp only [checkRecordId, WorkObject.toNodeProperties, hkind, if_true]
      cases hid : w.progressRecordId with
      | none => rfl
      | some id =>
        have hvalid := h.recordId
        rw [hid] at hvalid
        simp only [Option.map_some, validateWorkObjectId, raiseIf_eq_ok, Bool.not_eq_false]
        exact hvalid
    have hhas : hasProgress w.toNodeProperties = true := by
      simp [hasProgress, WorkObject.toNodeProperties, hkind]
    rw [if_pos hhas]
    simp only [except_ok, exists_const]
    refine ⟨?_, (), hvalue, hrecord⟩
    simp [WorkObject.toNodeProperties, hkind]
  · have hhas : hasProgress w.toNodeProperties = false := by
      simp [hasProgress, WorkObject.toNodeProperties, hkind]
    rw [hhas]
    rfl

lemma checkMigration_work (h : Valid w) : checkMigration w.toNodeProperties = .ok () := by
  have hnone : w.toNodeProperties .progressMigrationJson = none := by
    simp [WorkObject.toNodeProperties, h.migration]
  rw [checkMigration, hnone]
  rfl

lemma statusOf_work (w : WorkObject) : statusOf w.toNodeProperties = some w.status :=
  statusOfName_name w.status

lemma timestampOf_createdAt (w : WorkObject) :
    timestampOf w.toNodeProperties .createdAt = some w.createdAt :=
  fromisoformat_isoformat w.createdAt

lemma timestampOf_updatedAt (w : WorkObject) :
    timestampOf w.toNodeProperties .updatedAt = some w.updatedAt :=
  fromisoformat_isoformat w.updatedAt

lemma checkContent_work (h : Valid w) : checkContent w.kind w.toNodeProperties = .ok () := by
  simp only [checkContent, except_ok, exists_const, statusOf_work, timestampOf_createdAt,
    timestampOf_updatedAt]
  refine ⟨fun hne => hne rfl, ?_, by simp, by simp, ?_, ?_, ?_, ?_⟩
  · rintro (hnone | hnone) <;> cases hnone
  · rintro (hfalse | hnone)
    · change isVersion w.version = false at hfalse
      rw [h.version] at hfalse
      cases hfalse
    · cases hnone
  · rintro (hfalse | hnone)
    · change isPriority w.priority = false at hfalse
      rw [h.priority] at hfalse
      cases hfalse
    · cases hnone
  · rintro (hnone | hnone) <;> cases hnone
  · rintro (hfalse | hfalse)
    · change w.artifactIds.all isWorkObjectId = false at hfalse
      rw [h.artifactIds] at hfalse
      cases hfalse
    · change w.externalLinkIds.all isWorkObjectId = false at hfalse
      rw [h.externalLinkIds] at hfalse
      cases hfalse

lemma checkArchive_work (h : Valid w) : checkArchive w.toNodeProperties w.archived = .ok () := by
  rw [checkArchive, raiseIf_eq_ok, statusOf_work]
  rintro ⟨hnone, hne⟩
  by_cases hkind : w.kind ∈ todoKinds
  · simp [WorkObject.toNodeProperties, hkind] at hnone
  · apply hne
    rw [(h.progressed.other hkind).2.2.2]
    have hstatus : ¬ some w.status = some WorkStatus.archived := fun heq =>
      h.status (Option.some.inj heq)
    simp [hstatus]

theorem validate_work (h : Valid w) (allowUnknown : Bool) :
    validateCanonicalWorkObjectProperties w.key w.toNodeProperties w.archived allowUnknown =
      .ok w.toNodeProperties := by
  simp only [validateCanonicalWorkObjectProperties, except_ok, exists_const,
    validateWorkObjectId]
  refine ⟨fun hkind => hkind h.kind, by simp [WorkObject.key, h.id],
    (), checkNames_work w allowUnknown, (), checkWorkflow_work h, (), checkProgress_work h, (),
    checkMigration_work h, (), checkContent_work h, (), checkArchive_work h,
    canonicalProps_toNodeProperties w⟩

lemma build_work (h : Valid w) : build w.key w.toNodeProperties w.archived = .ok w := by
  have hworkflow : strOf w.toNodeProperties .workflowJson = w.workflowJson := by
    simp only [strOf, WorkObject.toNodeProperties]
    cases w.workflowJson <;> rfl
  have hprogress : (strOf w.toNodeProperties .progress).bind progressOfName = w.progress := by
    simp only [strOf, WorkObject.toNodeProperties]
    by_cases hkind : w.kind ∈ todoKinds
    · rw [if_pos hkind]
      cases w.progress with
      | none => rfl
      | some progress => exact progressOfName_name progress
    · rw [if_neg hkind, (h.progressed.other hkind).2.1]
      rfl
  have hrecord : strOf w.toNodeProperties .progressRecordId = w.progressRecordId := by
    simp only [strOf, WorkObject.toNodeProperties]
    by_cases hkind : w.kind ∈ todoKinds
    · rw [if_pos hkind]
      cases w.progressRecordId <;> rfl
    · rw [if_neg hkind, (h.progressed.other hkind).2.2.1]
  have hmigration : strOf w.toNodeProperties .progressMigrationJson = w.progressMigrationJson := by
    simp [strOf, WorkObject.toNodeProperties, h.migration]
  have hpost := h.postInit
  unfold build
  rw [statusOf_work, timestampOf_createdAt, timestampOf_updatedAt, hworkflow, hprogress, hrecord,
    hmigration]
  exact hpost

/-- A node that holds a valid object is read back as that object. -/
theorem fromNode_work (h : Valid w) : fromNode w.key w.node = .ok w := by
  have hkind : strOf w.node.properties .kind = some w.kind.name := rfl
  simp only [fromNode, except_ok, exists_const, hkind]
  refine ⟨?_, fun hne => hne rfl, ?_⟩
  · simp only [Option.all_some, List.all_eq_true, decide_eq_true_eq, not_forall]
    exact ⟨w.kind, h.kind, fun hne => hne rfl⟩
  · change readableOrRaise w.key (validateCanonicalWorkObjectProperties w.key w.toNodeProperties
      w.archived true >>= fun props => build w.key props w.archived) = _
    rw [validate_work h]
    change readableOrRaise w.key (build w.key w.toNodeProperties w.archived) = _
    rw [build_work h]
    rfl

end ValidObject

variable {key : Key} {node : Node} {w : WorkObject}

lemma eq_str_of_strOf {props : Props} {p : Property} {s : String} (h : strOf props p = some s) :
    props p = some (.str s) := by
  unfold strOf at h
  split at h
  · cases h
    assumption
  · cases h

lemma fromNode_ok (h : fromNode key node = .ok w) :
    isWorkObjectId key.2 = true ∧ node.properties .kind = some (.str key.1.name) ∧
      build key (canonicalProps node.properties) node.archived = .ok w := by
  simp only [fromNode, except_ok, not_not] at h
  obtain ⟨_, -, _, hkind, h⟩ := h
  unfold readableOrRaise at h
  split at h
  · rename_i hread
    cases h
    simp only [validateCanonicalWorkObjectProperties, except_ok, validateWorkObjectId,
      Bool.not_eq_false] at hread
    obtain ⟨_, ⟨_, -, _, hid, _, -, _, -, _, -, _, -, _, -, _, -, rfl⟩, hbuild⟩ := hread
    exact ⟨hid, eq_str_of_strOf hkind, hbuild⟩
  · split at h
    · cases h
    · split at h <;> cases h

end DevGraph.Proofs
