import DevGraph.Proofs.FrozenScope
import DevGraph.Proofs.WorkflowRuns

/-!
# The approvals behind completed work

An item that a transition completes has approvals that are still true of it: each was recorded
at its own stage, nothing has made it void since, and what it was made on has not changed.
-/

namespace DevGraph.Proofs

open Lib Work

variable {sha256 : String → String} {s s' t : Store} {w w' : WorkObject} {phase : Phase}

def ChildAt (s : Store) (key child : Key) (version : Int) : Prop :=
  (∃ e ∈ s.edges, e.relationship = .hasChild ∧ e.source = key ∧ e.target = child) ∧
    versionAt s child = version

lemma children_ok {found : List WorkObject} (hs : WorkNodes s) (h : children s w = .ok found) :
    (∀ child ∈ found, Holds s child ∧
      ∃ e ∈ s.edges, e.relationship = .hasChild ∧ e.source = w.key ∧ e.target = child.key) ∧
    ∀ e ∈ s.edges, e.relationship = .hasChild → e.source = w.key →
      ∃ child ∈ found, Holds s child ∧ child.key = e.target := by
  simp only [children, except_bind_ok] at h
  obtain ⟨edges, hedges, hfound⟩ := h
  refine ⟨?_, ?_⟩
  · intro child hchild
    obtain ⟨e, he, hget⟩ := mem_mapM hfound hchild
    obtain ⟨hkey, hold⟩ := getById_ok hs hget
    obtain ⟨hmem, hrelation, hsource⟩ := (related_ok hedges e).1 he
    exact ⟨hold, e, hmem, hrelation, hsource, hkey.symm⟩
  · intro e he hrelation hsource
    rcases mapM_of_mem hfound ((related_ok hedges e).2 ⟨he, hrelation, hsource⟩) with
      ⟨child, hchild, hget⟩
    obtain ⟨hkey, hold⟩ := getById_ok hs hget
    exact ⟨child, hchild, hold, hkey⟩

lemma basisRows_ok {rows : List ChildRow} (hs : WorkNodes s) (hphase : isPlanning phase = false)
    (h : basisRows s w phase = .ok rows) (child : Key) (version : Int) :
    (child, version) ∈ rows ↔ ChildAt s w.key child version := by
  rw [basisRows, hphase] at h
  simp only [Bool.false_eq_true, if_false, except_ok] at h
  obtain ⟨found, hfound, rfl⟩ := h
  obtain ⟨hchildren, hedges⟩ := children_ok hs hfound
  rw [List.mem_insertionSort, List.mem_map]
  constructor
  · rintro ⟨x, hx, hrow⟩
    cases hrow
    obtain ⟨hold, hedge⟩ := hchildren x hx
    exact ⟨hedge, by rw [versionAt_node hold.node, nodeVersion_work]⟩
  · rintro ⟨⟨e, he, hrelation, hsource, rfl⟩, rfl⟩
    obtain ⟨x, hx, hold, hkey⟩ := hedges e he hrelation hsource
    refine ⟨x, hx, ?_⟩
    rw [← hkey, versionAt_node hold.node, nodeVersion_work]
    rfl

lemma childAt_congr {key child : Key} {version : Int} (hs : Placed s) (hedges : t.edges = s.edges)
    (hnodes : ∀ key : Key, key.1 ∈ canonicalWorkKinds → t.node? key = s.node? key) :
    ChildAt t key child version ↔ ChildAt s key child version := by
  rw [ChildAt, ChildAt, hedges]
  apply and_congr_right
  rintro ⟨e, he, hrelation, -, rfl⟩
  have hkind : e.target.1 ∈ canonicalWorkKinds := by
    have hparent := hs.parent_kind e he hrelation
    revert hparent
    cases e.target.1 <;> first | exact fun h => absurd h List.not_mem_nil | (intro; decide)
  rw [versionAt, versionAt, hnodes _ hkind]

lemma strings_canonical (l : List String) : (strings l).Canonical AnyInt :=
  itemsCanonical_map fun _ _ => trivial

lemma strings_injective : Function.Injective strings := by
  intro l l' h
  exact List.map_injective_iff.2 (fun _ _ => Json.str.inj) (Json.arr.inj h)

lemma contentJson_canonical (w : WorkObject) : (contentJson w).Canonical AnyInt := by
  refine ⟨⟨strings_canonical _, trivial, strings_canonical _, trivial, trivial⟩, ?_⟩
  simp only [List.map_cons, List.map_nil]
  decide

lemma contentJson_eq (h : contentJson w = contentJson w') : w.basisContent = w'.basisContent := by
  simp only [contentJson, Json.obj.injEq, List.cons.injEq, Prod.mk.injEq, Json.str.injEq, true_and,
    and_true] at h
  obtain ⟨hartifacts, hdescription, hlinks, htitle⟩ := h
  rw [WorkObject.basisContent, WorkObject.basisContent, htitle, hdescription,
    strings_injective hartifacts, strings_injective hlinks]

lemma rows_canonical (rows : List ChildRow) :
    (Json.arr (rows.map rowJson)).Canonical AnyInt :=
  itemsCanonical_map fun _ _ => ⟨trivial, trivial, trivial, trivial⟩

lemma rowJson_injective : Function.Injective rowJson := by
  intro a b h
  simp only [rowJson, Json.arr.injEq, List.cons.injEq, Json.str.injEq, Json.int.injEq,
    and_true] at h
  exact Prod.ext (Prod.ext (labelName_injective h.1) h.2.1) h.2.2

lemma propertyName_nodup : (properties.map Property.name).Nodup := by decide

lemma props_readable (a : Props) : a.toJson.Readable plainJson := by
  refine ⟨fieldsReadable_iff.2 ?_, ?_⟩
  · intro field hfield
    obtain ⟨p, -, hp⟩ := List.mem_filterMap.1 hfield
    obtain ⟨v, -, rfl⟩ := Option.map_eq_some_iff.1 hp
    exact toJson_readable v
  · refine propertyName_nodup.sublist ?_
    generalize properties = l
    induction l with
    | nil => exact List.Sublist.refl _
    | cons p l ih =>
      rw [List.filterMap_cons, List.map_cons]
      cases a p with
      | none => exact ih.cons _
      | some v => exact ih.cons_cons _

lemma requirementJson_readable {key : Key} {v : Json} (h : requirementJson s key = .ok v) :
    v.Readable plainJson := by
  simp only [requirementJson, except_ok] at h
  obtain ⟨node, -, rfl⟩ := h
  cases node with
  | none => exact ⟨trivial, trivial, trivial, trivial⟩
  | some node =>
    exact ⟨trivial, trivial, ⟨trivial, props_readable node.properties, trivial⟩, trivial⟩

lemma itemsReadable_of_forall {items : List Json} (h : ∀ v ∈ items, v.Readable plainJson) :
    ItemsReadable plainJson items := by
  induction items with
  | nil => trivial
  | cons v items ih =>
    rw [List.forall_mem_cons] at h
    exact ⟨h.1, ih h.2⟩

lemma basis_ok {text : String} (h : basis sha256 s w phase = .ok text) :
    ∃ rows attached, basisRows s w phase = .ok rows ∧ (∀ v ∈ attached, v.Readable plainJson) ∧
      text = fingerprint sha256 (.arr [contentJson w, .arr (rows.map rowJson), .arr attached]) := by
  simp only [basis, except_ok] at h
  obtain ⟨rows, hrows, keys, -, attached, hattached, rfl⟩ := h
  refine ⟨rows, attached, hrows, ?_, rfl⟩
  intro v hv
  obtain ⟨key, -, hkey⟩ := mem_mapM hattached hv
  exact requirementJson_readable hkey

/-- Without collisions, bases with the same text have the same content and the same rows. -/
theorem basis_eq {text : String} (hsha256 : Function.Injective sha256)
    (h : basis sha256 s w phase = .ok text) (h' : basis sha256 s' w' phase = .ok text) :
    w.basisContent = w'.basisContent ∧
      ∃ rows, basisRows s w phase = .ok rows ∧ basisRows s' w' phase = .ok rows := by
  obtain ⟨rows, attached, hrows, hread, rfl⟩ := basis_ok h
  obtain ⟨rows', attached', hrows', hread', htext⟩ := basis_ok h'
  have hreadable : ∀ (w : WorkObject) (rows : List ChildRow) (attached : List Json),
      (∀ v ∈ attached, v.Readable plainJson) →
      (Json.arr [contentJson w, .arr (rows.map rowJson), .arr attached]).Readable plainJson :=
    fun w rows attached hattached =>
      ⟨readable_of_canonical (fun _ _ => rfl) _ (contentJson_canonical w),
        readable_of_canonical (fun _ _ => rfl) _ (rows_canonical rows),
        itemsReadable_of_forall hattached, trivial⟩
  have hsorted := dumps_injective plainJson false (hreadable w rows attached hread)
    (hreadable w' rows' attached' hread') (hsha256 htext)
  simp only [Json.sortKeys, sortItems, Json.arr.injEq, List.cons.injEq] at hsorted
  obtain ⟨hcontent, hrowsJson, -⟩ := hsorted
  rw [sortKeys_of_canonical _ (contentJson_canonical w),
    sortKeys_of_canonical _ (contentJson_canonical w')] at hcontent
  rw [sortItems_of_canonical _ (rows_canonical rows),
    sortItems_of_canonical _ (rows_canonical rows')] at hrowsJson
  cases List.map_injective_iff.2 rowJson_injective hrowsJson
  exact ⟨contentJson_eq hcontent, rows, hrows, hrows'⟩

/-! ## The gates of completion -/

lemma approvalGaps_nil {state : WorkflowState} {phases : List Phase}
    (h : approvalGaps sha256 s w state phases = .ok []) :
    ∀ phase ∈ phases, approved sha256 s w state phase true = .ok true := by
  induction phases with
  | nil => simp
  | cons phase phases ih =>
    simp only [approvalGaps, except_ok, List.append_eq_nil_iff] at h
    obtain ⟨ok, hok, rest, hrest, hnil, rfl⟩ := h
    rw [List.forall_mem_cons]
    refine ⟨?_, ih hrest⟩
    cases ok with
    | true => exact hok
    | false => cases hnil

/-- A requirement or criterion of the item, or a criterion of one of its requirements. -/
def Attached (s : Store) (key target : Key) : Prop :=
  (∃ e ∈ s.edges, e.source = key ∧ e.target = target ∧
    (e.relationship = .hasRequirement ∨ e.relationship = .hasAcceptanceCriterion)) ∨
  ∃ e ∈ s.edges, ∃ e' ∈ s.edges, e.source = key ∧ e.target = e'.source ∧ e'.target = target ∧
    (e.relationship = .hasRequirement ∨ e.relationship = .hasAcceptanceCriterion) ∧
    e.target.1 = .requirement ∧ e'.relationship = .hasAcceptanceCriterion

lemma requirements_ok {keys : List Key} (hs : WorkNodes s) (h : requirements s w = .ok keys)
    {target : Key} (htarget : Attached s w.key target) : target ∈ keys := by
  simp only [requirements, except_ok] at h
  obtain ⟨direct, hdirect, criteria, hcriteria, nested, hnested, rfl⟩ := h
  have hattached : ∀ e ∈ s.edges, e.source = w.key →
      (e.relationship = .hasRequirement ∨ e.relationship = .hasAcceptanceCriterion) →
      e.target ∈ ((direct ++ criteria).map (·.target)).dedup := by
    intro e he hsource hrelation
    rw [List.mem_dedup]
    apply List.mem_map_of_mem
    rw [List.mem_append]
    exact hrelation.imp (fun hrel => (related_ok hdirect e).2 ⟨he, hrel, hsource⟩)
      fun hrel => (related_ok hcriteria e).2 ⟨he, hrel, hsource⟩
  rw [List.mem_insertionSort, List.mem_dedup, List.mem_append]
  rcases htarget with ⟨e, he, hsource, rfl, hrelation⟩ |
    ⟨e, he, e', he', hsource, hjoin, rfl, hrelation, hkind, hrelation'⟩
  · exact .inl (hattached e he hsource hrelation)
  · apply Or.inr
    have hmem : e.target ∈ (((direct ++ criteria).map (·.target)).dedup).filter
        fun key => key.1 = .requirement :=
      List.mem_filter.2 ⟨hattached e he hsource hrelation, decide_eq_true hkind⟩
    obtain ⟨found, hfound, hcriteria'⟩ := mapM_of_mem hnested hmem
    simp only [nestedCriteria, except_ok] at hcriteria'
    obtain ⟨requirement, hget, edges, hedges, rfl⟩ := hcriteria'
    have hkey := (getById_ok hs hget).1
    refine List.mem_flatten.2 ⟨_, hfound, List.mem_map_of_mem ?_⟩
    exact (related_ok hedges e').2 ⟨he', hrelation', by rw [hkey, hjoin]⟩

lemma anyUnfinished_false {edges : List EdgeRecord} (hs : WorkNodes s)
    (h : anyUnfinished s edges = .ok false) :
    ∀ e ∈ edges, ∃ w, Holds s w ∧ w.key = e.source ∧ w.progress = some .done := by
  induction edges with
  | nil => simp
  | cons e edges ih =>
    simp only [anyUnfinished, except_bind_ok] at h
    obtain ⟨blocker, hget, h⟩ := h
    split at h
    · cases h
    · rename_i hdone
      obtain ⟨hkey, hold⟩ := getById_ok hs hget
      exact List.forall_mem_cons.2 ⟨⟨blocker, hold, hkey, not_not.1 hdone⟩, ih h⟩

lemma relatedIncoming_ok {r : Relationship} {key : Key} {edges : List EdgeRecord}
    (h : relatedIncoming s r key = .ok edges) (e : EdgeRecord) :
    e ∈ edges ↔ e ∈ s.edges ∧ e.relationship = r ∧ e.target = key := by
  simp only [relatedIncoming, except_ok] at h
  obtain ⟨found, hfound, rfl⟩ := h
  cases boundedEdges_ok hfound
  simp only [List.mem_filter, decide_eq_true_eq, and_assoc]

/-- The ledger that completion rests on, and what it says of the graph. -/
structure Ledger (s : Store) (key : Key) (ledger : WorkflowReview) : Prop where
  approved : ledger.verdict = .approved
  settled : ∀ row ∈ ledger.requirements, row.outcome ≠ .unmet
  covers : ∀ target, Attached s key target →
    ∃ row ∈ ledger.requirements, row.subject = resource target
  children : ∀ e ∈ s.edges, e.relationship = .hasChild → e.source = key → DoneAt s e.target ∨
    ∃ row ∈ ledger.requirements, row.outcome = .excluded ∧ row.subject = resource e.target
  blockers : ∀ e ∈ s.edges, e.relationship = .blocks → e.target = key → DoneAt s e.source

lemma eq_false_of_no_gap {c : Bool} {gap : String} (h : (if c then [gap] else []) = []) :
    c = false := by
  cases c with
  | false => rfl
  | true => cases h

lemma ledgerGaps_nil {ledger : Option WorkflowReview} {expected : List Key}
    (h : ledgerGaps ledger expected = []) :
    ∃ r, ledger = some r ∧ r.verdict = .approved ∧
      (∀ row ∈ r.requirements, row.outcome ≠ .unmet) ∧
      ∀ key ∈ expected, ∃ row ∈ r.requirements, row.subject = resource key := by
  rw [ledgerGaps, List.append_eq_nil_iff] at h
  have hledger := eq_false_of_no_gap h.1
  have hcovers := eq_false_of_no_gap h.2
  cases ledger with
  | none => cases hledger
  | some r =>
    simp only [Option.all_some, Bool.or_eq_false_iff, decide_eq_false_iff_not, not_not,
      List.any_eq_false, decide_eq_true_eq] at hledger
    simp only [Option.any_some, Bool.not_eq_false', List.all_eq_true, List.any_eq_true,
      decide_eq_true_eq] at hcovers
    exact ⟨r, rfl, hledger.1.1, hledger.2, hcovers⟩

lemma done_of_holds (hold : Holds s w) (hdone : w.progress = some .done) : DoneAt s w.key := by
  have hkind : w.kind ∈ todoKinds := by
    by_contra hother
    rw [(hold.valid.progressed.other hother).2.1] at hdone
    cases hdone
  exact ⟨w.node, hold.node, (progress_node hkind).2 hdone⟩

theorem completionGaps_nil {state : WorkflowState} (hs : WorkNodes s)
    (h : completionGaps sha256 s w state = .ok []) :
    ∃ ledger, review sha256 s w state .requirements = .ok (some ledger) ∧
      Ledger s w.key ledger := by
  simp only [completionGaps, except_ok, List.append_eq_nil_iff] at h
  rcases h with ⟨found, hreview, expected, hexpected, kids, hkids, blocking, hblocking, unfinished,
    hunfinished, ⟨hledger, hopen⟩, hblocked⟩
  obtain ⟨ledger, rfl, hverdict, hsettled, hcovers⟩ := ledgerGaps_nil hledger
  cases eq_false_of_no_gap hblocked
  have hkid := eq_false_of_no_gap hopen
  refine ⟨ledger, hreview, hverdict, hsettled, ?_, ?_, ?_⟩
  · intro target htarget
    exact hcovers target (requirements_ok hs hexpected htarget)
  · intro e he hrelation hsource
    obtain ⟨child, hchild, hold, hkey⟩ := (children_ok hs hkids).2 e he hrelation hsource
    by_cases hdone : child.progress = some .done
    · exact .inl (hkey ▸ done_of_holds hold hdone)
    · apply Or.inr
      have hrow := List.any_eq_false.1 hkid child hchild
      simp only [Bool.and_eq_true, decide_eq_true_eq, not_and, not_not] at hrow
      have hexcluded := hrow hdone
      rw [exclusions, List.mem_map] at hexcluded
      obtain ⟨row, hmem, hsubject⟩ := hexcluded
      rw [List.mem_filter, decide_eq_true_eq] at hmem
      exact ⟨row, hmem.1, hmem.2, hkey ▸ hsubject⟩
  · intro e he hrelation htarget
    rcases anyUnfinished_false hs hunfinished e
      ((relatedIncoming_ok hblocking e).2 ⟨he, hrelation, htarget⟩) with ⟨b, hold, hkey, hdone⟩
    exact hkey ▸ done_of_holds hold hdone

/-! ## Approvals over a run -/

/-- The phases whose approvals a return to the making of the work makes void. -/
def deliveryPhases : List Phase := [.technical, .handoff, .ceoDelivery, .commit]

/-- A request after which earlier approvals of a phase do not count. -/
inductive Voids (phase : Phase) (payload : Payload) (state state' : WorkflowState) : Prop
  | assigned (a : WorkflowAssign) (request : payload = .workflowAssign a)
  | reopened (change : ProgressSet) (request : payload = .progressSet change)
      (target : change.progress = .inProgress) (done : state.stage = .done)
  | replanned (t : WorkflowTransition) (request : payload = .workflowTransition t)
      (back : returns state.workflowId state.stage = some state'.stage)
      (stage : state'.stage = .planning ∨ state'.stage = .intake)
  | remade (t : WorkflowTransition) (request : payload = .workflowTransition t)
      (back : returns state.workflowId state.stage = some state'.stage)
      (stage : state'.stage = .inProgress ∨ state'.stage = .implementingCommit)
      (delivery : phase ∈ deliveryPhases)

/-- The review with the given number approved a phase of the item, and still did so later. -/
structure Approval (sha256 : String → String) (events : List Event) (i n : Nat) (key : Key)
    (phase : Phase) (r : WorkflowReview) : Prop where
  earlier : i < n
  request : ∃ q, Executed sha256 events i (.work q) ∧ q.key = key ∧ q.payload = .workflowReview r
  subject : r.phase = phase
  approved : r.verdict = .approved
  evidenced : r.evidence ≠ []
  stage : ∃ state stages, workflowAt (storeAt sha256 events i) key = some state ∧
    requiredStages phase = some stages ∧ state.stage ∈ stages
  standing : ∀ m q state state', i < m → m < n → Executed sha256 events m (.work q) → q.key = key →
    workflowAt (storeAt sha256 events m) key = some state →
    workflowAt (storeAt sha256 events (m + 1)) key = some state' →
    ¬ Voids phase q.payload state state'
  content : Function.Injective sha256 → ∀ p ∈ scopeProperties,
    propertyAt (storeAt sha256 events n) key p = propertyAt (storeAt sha256 events i) key p
  children : Function.Injective sha256 → isPlanning phase = false → ∀ child version,
    ChildAt (storeAt sha256 events n) key child version ↔
      ChildAt (storeAt sha256 events i) key child version
  evidence : ∀ e ∈ r.evidence, ∃ node,
    (storeAt sha256 events (i + 1)).node? e.key = some node ∧
      (storeAt sha256 events n).node? e.key = some node

section Standing

variable {events : List Event} {m : Nat} {q : WorkRequest} {state state' : WorkflowState}

lemma invalidated_planning {stage : Stage} (h : stage = .planning ∨ stage = .intake)
    (phase : Phase) : phase ∈ invalidated stage := by
  rw [invalidated, if_pos h]
  exact mem_phases phase

lemma invalidated_delivery {stage : Stage} (h : stage = .inProgress ∨ stage = .implementingCommit)
    (hphase : phase ∈ deliveryPhases) : phase ∈ invalidated stage := by
  revert hphase
  rcases h with rfl | rfl <;> cases phase <;> decide

lemma executed_return {t : WorkflowTransition} (h : Executed sha256 events m (.work q))
    (hpayload : q.payload = .workflowTransition t)
    (hstate : workflowAt (storeAt sha256 events m) q.key = some state)
    (hstate' : workflowAt (storeAt sha256 events (m + 1)) q.key = some state')
    (hback : returns state.workflowId state.stage = some state'.stage)
    (hphase : phase ∈ invalidated state'.stage) : state'.reviews phase = none := by
  rcases executed_transition h hpayload with
    ⟨w, w', state₀, state₁, target, hold, hkey, hcarries, hold', hkey', hcarries', -, hmove⟩
  rw [← hkey, workflowAt_holds hold] at hstate
  rw [← hkey', workflowAt_holds hold'] at hstate'
  cases hcarries.unique hstate
  cases hcarries'.unique hstate'
  cases hmove with
  | blocked _ htarget _ hresult =>
    subst htarget hresult
    exact absurd rfl (returns_ne hback).1
  | resumed hblocked => exact absurd hblocked (returns_ne hback).2.2
  | returned _ _ hresult =>
    subst hresult
    exact if_pos hphase
  | advanced hnext hresult =>
    subst hresult
    exact absurd hback (forward_ne hnext).2.1

lemma Moved.not_assign {a : WorkflowAssign} :
    ¬ Moved sha256 (some (.workflowAssign a)) s s' w w' := by
  intro h
  cases h with
  | quiet hplain => cases hplain _ rfl
  | _ => injections

lemma Voids.reviews (h : Voids phase q.payload state state')
    (hexecuted : Executed sha256 events m (.work q))
    (hstate : workflowAt (storeAt sha256 events m) q.key = some state)
    (hstate' : workflowAt (storeAt sha256 events (m + 1)) q.key = some state') :
    state'.reviews phase = none := by
  cases h with
  | assigned a hrequest =>
    rcases executed_moved hexecuted (fun _ hc => nomatch hrequest.symm.trans hc)
      (fun _ hc => nomatch hrequest.symm.trans hc) with ⟨_, _, -, -, -, -, hmoved⟩
    rw [hrequest] at hmoved
    exact absurd hmoved Moved.not_assign
  | reopened change hrequest htarget hdone =>
    rcases executed_moved hexecuted (fun _ hc => nomatch hrequest.symm.trans hc)
      (fun _ hc => nomatch hrequest.symm.trans hc) with ⟨w, w', hold, hkey, hold', hkey', hmoved⟩
    rw [hrequest] at hmoved
    rw [← hkey, workflowAt_holds hold] at hstate
    rw [← hkey', workflowAt_holds hold'] at hstate'
    obtain hnoted | ⟨state₀, state₁, hcarries, hcarries', hmove⟩ := hmoved.of_progress
    · have hflow := hstate.workKind hold.valid
      rw [hnoted.todo] at hflow
      exact absurd hflow (by decide)
    · cases hcarries.unique hstate
      cases hcarries'.unique hstate'
      cases hmove with
      | handedOff _ _ hfinished =>
        rw [htarget] at hfinished
        cases hfinished
      | reopened => rfl
  | replanned t hrequest hback hstage =>
    exact executed_return hexecuted hrequest hstate hstate' hback
      (invalidated_planning hstage phase)
  | remade t hrequest hback hstage hdelivery =>
    exact executed_return hexecuted hrequest hstate hstate' hback
      (invalidated_delivery hstage hdelivery)

end Standing

lemma checkReview_stage {state : WorkflowState} {r : WorkflowReview} {stages : List Stage}
    (h : checkReview state r = .ok ()) (hstages : requiredStages r.phase = some stages) :
    state.stage ∈ stages := by
  simp only [checkReview, except_ok, hstages, Option.any_some, decide_eq_true_eq, not_not,
    exists_const] at h
  exact h.1

lemma requiredStages_entry {workflow : WorkflowId} (h : phase ∈ entryPhases workflow .done) :
    ∃ stages, requiredStages phase = some stages := by
  apply Option.isSome_iff_exists.1
  revert h
  cases workflow <;> cases phase <;> decide

lemma evidence_settled {r : WorkflowReview} (h : WorkflowReview.ofJson r.toJson = some r)
    {e : Evidence} (he : e ∈ r.evidence) : e.key.1 ∈ settledLabels := by
  simp only [WorkflowReview.ofJson, Option.bind_eq_bind, Option.bind_eq_some_iff,
    ensure_eq_some] at h
  obtain ⟨fields, hfields, _, -, _, -, _, -, _, -, evidence, hevidence, _, -, _, -, -, heq⟩ := h
  cases hfields
  rw [← heq] at he
  change Json.asList Evidence.ofJson (.arr (r.evidence.map Evidence.toJson)) = some evidence
    at hevidence
  obtain ⟨v, -, hread⟩ := mapM_mem hevidence he
  simp only [Evidence.ofJson, Option.bind_eq_bind, Option.bind_eq_some_iff, ensure_eq_some] at hread
  obtain ⟨_, -, _, -, _, -, _, -, _, -, hvalid, rfl⟩ := hread
  simp only [Evidence.valid, Bool.and_eq_true, Bool.or_eq_true, decide_eq_true_eq] at hvalid
  obtain hkind | hkind := hvalid.1.1.1.1
  · rw [Evidence.key, hkind]
    exact show Label.artifact ∈ settledLabels by decide
  · rw [Evidence.key, hkind]
    exact show Label.externalLink ∈ settledLabels by decide

/-- A review that approves a phase of an item was recorded, and stands. -/
theorem approved_origin {events : List Event} {n : Nat} {state : WorkflowState}
    (hold : Holds (storeAt sha256 events n) w) (hcarries : Carries w state)
    (hstages : ∃ stages, requiredStages phase = some stages)
    (h : approved sha256 (storeAt sha256 events n) w state phase true = .ok true) :
    ∃ i r, Approval sha256 events i n w.key phase r := by
  obtain ⟨r, hreview, hverdict, hevidence⟩ := approved_ok h
  rcases approval_origin (P := fun _ => True) (fun _ _ _ => trivial) hold hcarries trivial
    hreview with
    ⟨i, w₀, state₀, hi, hreviewed, rfl, -, -, hsince, t, text, hedges, hnodes, hbasis, hbasis'⟩
  obtain ⟨stages, hstages⟩ := hstages
  have ht : WorkNodes t := by
    intro key node hkey hnode
    exact workNodes_storeAt sha256 events i key node hkey (hnodes key hkey ▸ hnode)
  refine ⟨i, r, hi, hreviewed.request, rfl, hverdict, hevidence,
    ⟨state₀, stages, hreviewed.workflow, hstages, checkReview_stage hreviewed.check hstages⟩,
    ?_, ?_, ?_, ?_⟩
  · intro m q state state' him hmn hexecuted hkey hstate hstate' hvoids
    rw [← hkey] at hstate hstate'
    have hnone := hvoids.reviews hexecuted hstate hstate'
    obtain ⟨state₁, hstate₁, hid, -⟩ := hsince (m + 1) (Nat.lt_succ_of_lt him) hmn
    rw [← hkey] at hstate₁
    cases hstate'.symm.trans hstate₁
    rw [hnone] at hid
    cases hid
  · intro hsha256 p hp
    have hcontent := (basis_eq hsha256 hbasis hbasis').1
    have hnode := hreviewed.hold.node
    rw [hreviewed.subject] at hnode
    rw [propertyAt, propertyAt, hold.node, hnode]
    exact content_node hcontent.symm p hp
  · intro hsha256 hplanning child version
    obtain ⟨rows, hrows, hrows'⟩ := (basis_eq hsha256 hbasis hbasis').2
    rw [← basisRows_ok (workNodes_storeAt sha256 events n) hplanning hrows' child version,
      basisRows_ok ht hplanning hrows child version, hreviewed.subject]
    exact childAt_congr (placed_run sha256 _) hedges hnodes
  · intro e he
    obtain ⟨node, hnode⟩ := Option.isSome_iff_exists.1 (hreviewed.recorded.evidence e he)
    exact ⟨node, hnode, settled_run (evidence_settled hreviewed.printed.read he) hnode
      (Nat.succ_le_of_lt hi)⟩

lemma executed_completion {events : List Event} {n : Nat} {r : WorkRequest}
    {move : WorkflowTransition} {state' : WorkflowState}
    (h : Executed sha256 events n (.work r)) (hpayload : r.payload = .workflowTransition move)
    (hstate' : workflowAt (storeAt sha256 events (n + 1)) r.key = some state')
    (hdone : state'.stage = .done) :
    ∃ w state, Holds (storeAt sha256 events n) w ∧ w.key = r.key ∧ Carries w state ∧
      state.workflowId = state'.workflowId ∧
      forwardGaps sha256 (storeAt sha256 events n) w state .done = .ok [] := by
  rcases executed_transition h hpayload with
    ⟨w, w', state, state₁, target, hold, hkey, hcarries, hold', hkey', hcarries', hclear, hmove⟩
  rw [← hkey', workflowAt_holds hold'] at hstate'
  cases hcarries'.unique hstate'
  cases hmove with
  | blocked _ htarget _ hresult =>
    subst htarget hresult
    cases hdone
  | resumed _ hresume hresult =>
    subst hresult
    exact absurd hdone (resumeStage_ne hcarries.valid hresume).2
  | returned hback _ hresult =>
    subst hresult
    exact absurd hdone (returns_ne hback).2.1
  | advanced hnext hresult =>
    subst hresult
    cases hdone
    exact ⟨w, state, hold, hkey, hcarries, rfl, (gaps_forward hnext hclear).2⟩

/-- Over every run, an item that a transition completes has a standing approval of every phase of
its workflow, a ledger that settles what is attached to it and its children, and no blocking work
that is not done. -/
theorem run_approvals (sha256 : String → String) (events : List Event) :
    (∀ n r move state', Executed sha256 events n (.work r) →
      r.payload = .workflowTransition move →
      workflowAt (storeAt sha256 events (n + 1)) r.key = some state' → state'.stage = .done →
      ∀ phase ∈ [Phase.technical, .handoff] ++ match state'.workflowId with
          | .vibeCeo => [.developerPlan, .ceoPlan, .ceoDelivery]
          | .execution => [.baseline, .commit],
        ∃ i review, Approval sha256 events i n r.key phase review) ∧
    ∀ n r move state', Executed sha256 events n (.work r) →
      r.payload = .workflowTransition move →
      workflowAt (storeAt sha256 events (n + 1)) r.key = some state' → state'.stage = .done →
      ∃ i q ledger, i < n ∧ Executed sha256 events i (.work q) ∧ q.key = r.key ∧
        q.payload = .workflowReview ledger ∧ ledger.phase = .requirements ∧
        (∀ m, i < m → m ≤ n → ∃ state, workflowAt (storeAt sha256 events m) r.key = some state ∧
          state.reviews .requirements = some ledger.recordId) ∧
        Ledger (storeAt sha256 events n) r.key ledger := by
  refine ⟨?_, ?_⟩
  · intro n r move state' hexecuted hpayload hstate' hdone phase hphase
    rcases executed_completion hexecuted hpayload hstate' hdone with
      ⟨w, state, hold, hkey, hcarries, hworkflow, hgaps⟩
    rw [← hworkflow] at hphase
    rw [← hkey]
    exact approved_origin hold hcarries (requiredStages_entry hphase)
      (approvalGaps_nil (forwardGaps_nil hgaps).1 phase hphase)
  · intro n r move state' hexecuted hpayload hstate' hdone
    rcases executed_completion hexecuted hpayload hstate' hdone with
      ⟨w, state, hold, hkey, hcarries, -, hgaps⟩
    have hcompletion : completionGaps sha256 (storeAt sha256 events n) w state = .ok [] :=
      (forwardGaps_nil hgaps).2.1
    rcases completionGaps_nil (workNodes_storeAt sha256 events n) hcompletion with
      ⟨ledger, hreview, hledger⟩
    rcases approval_origin (P := fun _ => True) (fun _ _ _ => trivial) hold hcarries trivial hreview
      with ⟨i, w₀, state₀, hi, hreviewed, hphase, -, -, hsince, -⟩
    obtain ⟨q, hq, hqkey, hqpayload⟩ := hreviewed.request
    rw [← hkey]
    refine ⟨i, q, ledger, hi, hq, hqkey, hqpayload, hphase, ?_, hledger⟩
    intro m him hm
    obtain ⟨state₁, hstate₁, hid, -⟩ := hsince m him hm
    exact ⟨state₁, hstate₁, hid⟩

end DevGraph.Proofs
