import DevGraph.Proofs.WorkNodes

/-!
# What the storage operations write

Each operation of the storage that returns made one write. For nodes that hold Work objects
the write is from one object to the next one.
-/

namespace DevGraph.Proofs

open Lib Work

abbrev StoreWrite := Write Key Node Relationship Props

section Writes

variable {s s' : Store} {key : Key} {node : Node} {props : Props}

lemma lift_ok {α : Type} {x : Except Error α} {a : α} :
    Work.lift x s = .ok a s' ↔ x = .ok a ∧ s = s' := reading_ok

lemma createNode_ok (h : createNode key props s = .ok node s') :
    ∃ new, createdProps key props = .ok new ∧ node = ⟨new, false⟩ ∧ s.node? key = none ∧
      s' = s.put key node := by
  simp only [createNode, bind_ok, lift_ok, get_ok, set_ok, raiseIf_ok, pure_ok] at h
  rcases h with ⟨_, _, ⟨-, rfl⟩, new, _, ⟨hnew, rfl⟩, _, _, ⟨rfl, rfl⟩, _, _, ⟨habsent, rfl⟩, _, _,
    rfl, rfl, rfl⟩
  rw [Option.not_isSome_iff_eq_none] at habsent
  exact ⟨new, hnew, rfl, habsent, rfl⟩

lemma createNode_trace (h : createNode key props s = .ok node s') :
    Trace s [.create key node] s' := by
  obtain ⟨new, -, -, habsent, rfl⟩ := createNode_ok h
  exact .create habsent (.nil _)

lemma getNode_ok {found : Option Node} (h : getNode s key = .ok found) : found = s.node? key := by
  simp only [getNode, except_ok] at h
  obtain ⟨_, -, h⟩ := h
  exact h.symm

lemma getNode_eq (hid : isWorkObjectId key.2 = true) : getNode s key = .ok (s.node? key) := by
  simp only [getNode, except_ok, exists_const, validateWorkObjectId]
  simp [hid]

lemma requireNode_ok (h : requireNode s key = .ok node) : s.node? key = some node := by
  simp only [requireNode, except_bind_ok] at h
  obtain ⟨found, hfound, h⟩ := h
  rw [← getNode_ok hfound]
  cases found with
  | none => cases h
  | some n => exact congrArg some (except_pure_ok.1 h)

lemma replaceNode_ok {f : Node → Except Error Node} (h : replaceNode key f s = .ok node s') :
    ∃ old, s.node? key = some old ∧ f old = .ok node ∧ Trace s [.update key old node] s' := by
  simp only [replaceNode, bind_ok, reading_ok, lift_ok, modify_ok, pure_ok] at h
  obtain ⟨old, _, ⟨hold, rfl⟩, new, _, ⟨hnew, rfl⟩, _, _, rfl, rfl, rfl⟩ := h
  exact ⟨old, requireNode_ok hold, hnew, .update (requireNode_ok hold) (.nil _)⟩

lemma createEdge_trace {e : EdgeRecord} {u : Unit} (h : createEdge e s = .ok u s') :
    Trace s [.link e] s' := by
  simp only [createEdge, bind_ok, lift_ok, reading_ok, set_ok] at h
  obtain ⟨_, _, ⟨-, rfl⟩, _, _, ⟨-, rfl⟩, t, _, ⟨ht, rfl⟩, rfl⟩ := h
  unfold insertEdge at ht
  split at ht
  · split at ht
    · cases ht
      exact .link _ _ (.nil _)
    · cases ht
  · cases ht

lemma deleteEdge_trace {a b : Key} {r : Relationship} {u : PUnit}
    (h : deleteEdge a r b s = .ok u s') : Trace s [.unlink a r b] s' := by
  rw [deleteEdge, modify_ok] at h
  subst h
  exact .unlink (.nil _)

/-! Nodes of other labels are stored as they are given. -/

lemma isCanonicalPayload_other {label : Label} (h : label ∉ canonicalWorkKinds) (props : Props) :
    isCanonicalPayload label props = false := by
  rw [isCanonicalPayload, decide_eq_false h]
  rfl

lemma createNode_other (hkey : key.1 ∉ canonicalWorkKinds)
    (h : createNode key props s = .ok node s') :
    node = ⟨props, false⟩ ∧ s.node? key = none ∧ s' = s.put key ⟨props, false⟩ := by
  obtain ⟨new, hnew, rfl, habsent, rfl⟩ := createNode_ok h
  rw [createdProps, isCanonicalPayload_other hkey, if_neg Bool.false_ne_true,
    except_pure_ok] at hnew
  subst hnew
  exact ⟨rfl, habsent, rfl⟩

lemma updateNode_other (hkey : key.1 ∉ canonicalWorkKinds)
    (h : updateNode key props s = .ok node s') :
    ∃ old, s.node? key = some old ∧ node = ⟨old.properties.merge props, old.archived⟩ ∧
      Trace s [.update key old node] s' := by
  obtain ⟨old, hold, hnew, htrace⟩ := replaceNode_ok h
  rw [updatedNode, isCanonicalPayload_other hkey, isCanonicalPayload_other hkey, Bool.or_self,
    if_neg Bool.false_ne_true, except_pure_ok] at hnew
  exact ⟨old, hold, hnew.symm, htrace⟩

lemma archiveNode_other (hkey : key.1 ∉ canonicalWorkKinds)
    (h : archiveNode key props s = .ok node s') :
    ∃ old, s.node? key = some old ∧ node = ⟨old.properties.merge props, true⟩ ∧
      Trace s [.update key old node] s' := by
  obtain ⟨old, hold, hnew, htrace⟩ := replaceNode_ok h
  rw [archivedNode, isCanonicalPayload_other hkey, isCanonicalPayload_other hkey, Bool.or_self,
    if_neg Bool.false_ne_true, except_pure_ok] at hnew
  exact ⟨old, hold, hnew.symm, htrace⟩

end Writes

lemma canonicalOrUnavailable_ok {α : Type} {x : Except Error α} {a : α} :
    canonicalOrUnavailable x = .ok a ↔ x = .ok a := by
  unfold canonicalOrUnavailable
  split
  · exact Iff.rfl
  · split <;> simp

lemma validate_props {key : Key} {props new : Props} {archived allowUnknown : Bool}
    (h : validateCanonicalWorkObjectProperties key props archived allowUnknown = .ok new) :
    new = canonicalProps props := by
  simp only [validateCanonicalWorkObjectProperties, except_ok] at h
  obtain ⟨_, -, _, -, _, -, _, -, _, -, _, -, _, -, _, -, h⟩ := h
  exact h.symm

lemma isCanonicalPayload_work {w : WorkObject} (hkind : w.kind ∈ canonicalWorkKinds) :
    isCanonicalPayload w.key.1 w.toNodeProperties = true := by
  simp only [isCanonicalPayload, Bool.and_eq_true, decide_eq_true_eq]
  exact ⟨hkind, rfl⟩

structure Holds (s : Store) (w : WorkObject) : Prop where
  node : s.node? w.key = some w.node
  valid : Valid w

/-- An object that may replace the other: no optional field of it is lost. -/
structure Succeeds (w w' : WorkObject) : Prop where
  kind : w'.kind = w.kind
  id : w'.id = w.id
  createdAt : w'.createdAt = w.createdAt
  version : w'.version = w.version + 1
  workflow : w'.workflowJson = none → w.workflowJson = none
  progress : w'.progress = none → w.progress = none
  recordId : w'.progressRecordId = none → w.progressRecordId = none

section Objects

variable {s s' : Store} {w w' : WorkObject} {node : Node}

lemma Succeeds.key (h : Succeeds w w') : w'.key = w.key := by
  rw [WorkObject.key, h.kind, h.id]
  rfl

lemma createNode_work (hkind : w.kind ∈ canonicalWorkKinds) (harchived : w.archived = false)
    (h : createNode w.key w.toNodeProperties s = .ok node s') :
    Trace s [.create w.key w.node] s' := by
  have htrace := createNode_trace h
  obtain ⟨new, hnew, rfl, -, -⟩ := createNode_ok h
  rw [createdProps, if_pos (isCanonicalPayload_work hkind), canonicalOrUnavailable_ok] at hnew
  rw [validate_props hnew, canonicalProps_toNodeProperties, ← harchived] at htrace
  exact htrace

lemma merge_work (hsucceeds : Succeeds w w') (hmigration : w.progressMigrationJson = none) :
    w.toNodeProperties.merge w'.toNodeProperties = w'.toNodeProperties := by
  funext p
  have hworkflow := hsucceeds.workflow
  have hprogress := hsucceeds.progress
  have hrecord := hsucceeds.recordId
  cases p <;> simp only [Props.merge, WorkObject.toNodeProperties, hsucceeds.kind, hmigration,
    Option.some_or, Option.map_none, ite_self, Option.or_none, Option.or_self]
  · cases hnew : w'.workflowJson with
    | none => rw [hworkflow hnew]; rfl
    | some _ => rfl
  · split
    · cases hnew : w'.progress with
      | none => rw [hprogress hnew]; rfl
      | some _ => rfl
    · rfl
  · split
    · cases hnew : w'.progressRecordId with
      | none => rw [hrecord hnew]; rfl
      | some _ => rfl
    · rfl

lemma isArchivedStatus_work (hw : Valid w) : isArchivedStatus w.toNodeProperties = false := by
  have hne : w.status.name ≠ "archived" := fun h =>
    hw.status (statusName_injective (h.trans (show _ = WorkStatus.archived.name from rfl)))
  simp [isArchivedStatus, WorkObject.toNodeProperties, hne]

lemma updateNode_work (hold : Holds s w) (hsucceeds : Succeeds w w') (hw' : Valid w')
    (harchived : w'.archived = w.archived)
    (h : updateNode w.key w'.toNodeProperties s = .ok node s') :
    w.archived = false ∧ Trace s [.update w.key w.node w'.node] s' := by
  obtain ⟨old, hnode, hnew, htrace⟩ := replaceNode_ok h
  cases hold.node.symm.trans hnode
  have hcanonical := isCanonicalPayload_work hold.valid.kind
  unfold updatedNode at hnew
  change (if (isCanonicalPayload w.key.1 w.toNodeProperties || _) = true then _ else _) = _ at hnew
  rw [hcanonical, Bool.true_or, if_pos rfl] at hnew
  simp only [except_ok] at hnew
  obtain ⟨_, hactive, new, hupdate, rfl⟩ := hnew
  have hfalse : w.archived = false := by
    rw [not_or] at hactive
    exact Bool.not_eq_true _ ▸ hactive.1
  simp only [updateProps, except_ok, canonicalOrUnavailable_ok] at hupdate
  obtain ⟨_, -, _, hvalidate, _, -, rfl⟩ := hupdate
  rw [validate_props hvalidate, canonicalProps_toNodeProperties] at htrace
  have hnode' : (⟨w.node.properties.merge w'.toNodeProperties, w.node.archived ||
      (isArchivedStatus w'.toNodeProperties && !isArchivedStatus w.node.properties)⟩ : Node) =
        w'.node := by
    rw [isArchivedStatus_work hw', Bool.false_and, Bool.or_false]
    change Node.mk (w.toNodeProperties.merge w'.toNodeProperties) w.archived = _
    rw [merge_work hsucceeds hold.valid.migration, ← harchived]
    rfl
  rw [hnode'] at htrace
  exact ⟨hfalse, htrace⟩

lemma archiveNode_work (hold : Holds s w) (harchived : w'.archived = true)
    (h : archiveNode w.key w'.toNodeProperties s = .ok node s') :
    w.archived = false ∧ Trace s [.update w.key w.node w'.node] s' := by
  obtain ⟨old, hnode, hnew, htrace⟩ := replaceNode_ok h
  cases hold.node.symm.trans hnode
  have hcanonical := isCanonicalPayload_work hold.valid.kind
  unfold archivedNode at hnew
  change (if (isCanonicalPayload w.key.1 w.toNodeProperties || _) = true then _ else _) = _ at hnew
  rw [hcanonical, Bool.true_or, if_pos rfl] at hnew
  simp only [except_ok, canonicalOrUnavailable_ok] at hnew
  obtain ⟨_, hactive, new, hvalidate, _, -, rfl⟩ := hnew
  rw [validate_props hvalidate, canonicalProps_toNodeProperties, ← harchived] at htrace
  exact ⟨Bool.not_eq_true _ ▸ hactive, htrace⟩

lemma restoreNode_work (hold : Holds s w) (hsucceeds : Succeeds w w')
    (harchived : w'.archived = false)
    (h : restoreNode w.key w'.toNodeProperties s = .ok node s') :
    Trace s [.update w.key w.node w'.node] s' := by
  obtain ⟨old, hnode, hnew, htrace⟩ := replaceNode_ok h
  cases hold.node.symm.trans hnode
  simp only [restoredNode, except_ok] at hnew
  obtain ⟨new, hvalidate, _, -, rfl⟩ := hnew
  rw [validate_props hvalidate, canonicalProps_toNodeProperties] at htrace
  change Trace s [.update w.key w.node ⟨w.toNodeProperties.merge w'.toNodeProperties, false⟩] s'
    at htrace
  rw [merge_work hsucceeds hold.valid.migration, ← harchived] at htrace
  exact htrace

lemma getById_held (hold : Holds s w) : getById s w.key = .ok w := by
  have hid : isWorkObjectId w.key.2 = true := hold.valid.id
  simp only [getById, requireKnownKind, validateWorkObjectId, getNode, except_ok, exists_const,
    hid, Bool.true_eq_false, not_false_eq_true, true_and, not_not]
  refine ⟨hold.valid.kind, s.node? w.key, rfl, ?_⟩
  rw [hold.node]
  exact fromNode_work hold.valid

lemma getById_eq (hold : Holds s w) (h : getById s w.key = .ok w') : w' = w := by
  rw [getById_held hold] at h
  cases h
  rfl

lemma Holds.unique (hold : Holds s w) (hold' : Holds s w') (hkey : w'.key = w.key) : w' = w :=
  getById_eq hold (hkey ▸ getById_held hold')

lemma rewrite_ok {key : Key} {f : WorkObject → Except Error WorkObject}
    {write : Key → Props → Tx Node} (h : rewrite key f write s = .ok w' s') :
    ∃ w node, getById s key = .ok w ∧ f w = .ok w' ∧
      write key w'.toNodeProperties s = .ok node s' := by
  simp only [rewrite, transaction_ok, bind_ok, reading_ok, lift_ok, pure_ok] at h
  obtain ⟨w, _, ⟨hget, rfl⟩, updated, _, ⟨hf, rfl⟩, node, _, hwrite, rfl, rfl⟩ := h
  exact ⟨w, node, hget, hf, hwrite⟩

/-- The constructor checks all of a valid object but its kind, its progress and its archival. -/
lemma valid_of_progressed {new : WorkObject} (hpost : WorkObject.postInit new = .ok w')
    (hkind : w'.kind ∈ canonicalWorkKinds) (hstatus : w'.status ≠ .archived)
    (hrecord : w'.progressRecordId.all isWorkObjectId = true)
    (hmigration : w'.progressMigrationJson = none) (hprogressed : Progressed w') : Valid w' := by
  rw [postInit_ok] at hpost
  obtain ⟨rfl, hid, hversion, hpriority, hartifacts, hlinks, -⟩ := hpost
  exact ⟨hkind, hid, hversion, hpriority, hartifacts, hlinks, hstatus, hrecord, hmigration,
    hprogressed⟩

/-- Valid fields that a replacement keeps need no new check. -/
lemma valid_of_postInit (hw : Valid w) (hpost : WorkObject.postInit w' = .ok w')
    (hkind : w'.kind = w.kind) (hstatus : w'.status ≠ .archived)
    (hrecord : w'.progressRecordId = w.progressRecordId)
    (hmigration : w'.progressMigrationJson = w.progressMigrationJson)
    (hworkflow : w'.workflowJson = w.workflowJson) (hprogress : w'.progress = w.progress)
    (harchived : w'.kind ∉ todoKinds → w'.archived = false) : Valid w' := by
  apply valid_of_progressed hpost (hkind ▸ hw.kind) hstatus (hrecord ▸ hw.recordId)
    (hmigration ▸ hw.migration)
  refine ⟨?_, ?_, ?_⟩
  · intro h
    rw [hworkflow, hprogress]
    exact hw.progressed.todo (hkind ▸ h)
  · intro h
    obtain ⟨state, progress, ⟨raw, hraw, hdecode⟩, hrest⟩ := hw.progressed.flow (hkind ▸ h)
    exact ⟨state, progress, ⟨raw, hworkflow ▸ hraw, hdecode⟩, hprogress ▸ hrest⟩
  · intro h
    have hother := hw.progressed.other (hkind ▸ h)
    rw [hworkflow, hprogress, hrecord]
    exact ⟨hother.1, hother.2.1, hother.2.2.1, harchived h⟩

lemma succeeds_next (w : WorkObject) (now : Datetime) : Succeeds w (w.next now) :=
  ⟨rfl, rfl, rfl, rfl, id, id, id⟩

theorem update_trace {v : Int} {now : Datetime} (hold : Holds s w)
    (h : Repository.update w v now s = .ok w' s') :
    w.archived = false ∧ w' = w.next now ∧ Valid (w.next now) ∧
      Trace s [.update w.key w.node (w.next now).node] s' := by
  simp only [Repository.update, bind_ok, lift_ok] at h
  obtain ⟨_, _, ⟨-, rfl⟩, _, _, ⟨-, rfl⟩, _, _, ⟨-, rfl⟩, _, _, ⟨-, rfl⟩, h⟩ := h
  obtain ⟨current, node, hget, hf, hwrite⟩ := rewrite_ok h
  cases getById_eq hold hget
  simp only [updatedObject, except_ok] at hf
  obtain ⟨_, hactive, _, -, _, -, _, -, hpost⟩ := hf
  cases (postInit_ok.1 hpost).1
  have hvalid := valid_of_postInit hold.valid hpost rfl hold.valid.status rfl rfl rfl rfl
    fun hkind => (hold.valid.progressed.other hkind).2.2.2
  exact ⟨Bool.not_eq_true _ ▸ hactive, rfl, hvalid,
    (updateNode_work hold (succeeds_next w now) hvalid rfl hwrite).2⟩

end Objects

end DevGraph.Proofs
