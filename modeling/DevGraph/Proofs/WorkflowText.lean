import DevGraph.Proofs.PayloadCodec

/-!
# The text of a workflow state

A state that is read back from its text is the state that was written, and it is valid.
-/

namespace DevGraph.Proofs

open Lib Work

def AnyInt (_ : Int) : Prop := True

lemma reviewFields_canonical (reviews : Phase → Option String) (l : List Phase) :
    FieldsCanonical AnyInt
      (l.filterMap fun phase => (reviews phase).map fun id => (phase.name, Json.str id)) := by
  induction l with
  | nil => trivial
  | cons phase l ih =>
    rw [List.filterMap_cons]
    cases reviews phase with
    | none => exact ih
    | some id => exact ⟨trivial, ih⟩

lemma reviewFields_names (reviews : Phase → Option String) (l : List Phase) :
    ((l.filterMap fun phase => (reviews phase).map fun id => (phase.name, Json.str id)).map
      Prod.fst).Sublist (l.map Phase.name) := by
  induction l with
  | nil => exact List.Sublist.refl _
  | cons phase l ih =>
    rw [List.filterMap_cons, List.map_cons]
    cases reviews phase with
    | none => exact ih.cons _
    | some id => exact ih.cons_cons _

lemma phaseNames_increasing : (phases.map Phase.name).Pairwise fun a b => a.toList < b.toList := by
  simp only [phases, List.map_cons, List.map_nil, Phase.name]
  decide

lemma reviewsToJson_canonical (reviews : Phase → Option String) :
    (reviewsToJson reviews).Canonical AnyInt :=
  ⟨reviewFields_canonical reviews phases,
    phaseNames_increasing.sublist (reviewFields_names reviews phases)⟩

lemma member_reviewFields (reviews : Phase → Option String) (phase : Phase) (l : List Phase) :
    member (l.filterMap fun phase => (reviews phase).map fun id => (phase.name, Json.str id))
      phase.name = if phase ∈ l then (reviews phase).map Json.str else none := by
  unfold member
  induction l with
  | nil => rfl
  | cons p l ih =>
    rw [List.filterMap_cons]
    by_cases hp : phase = p
    · subst hp
      cases hreview : reviews phase with
      | some id => simp
      | none =>
        change List.lookup phase.name (List.filterMap _ l) = _
        rw [ih, hreview]
        simp
    · have hne : (phase.name == p.name) = false := by
        simpa using fun h => hp (phaseName_injective h)
      have hmem : (phase ∈ p :: l) ↔ phase ∈ l := by simp [hp]
      simp only [hmem]
      rw [← ih]
      cases reviews p with
      | none => rfl
      | some id =>
        change List.lookup phase.name ((p.name, Json.str id) :: _) = _
        rw [List.lookup_cons, hne]

lemma mem_phases (phase : Phase) : phase ∈ phases := by cases phase <;> decide

lemma mem_allStages (stage : Stage) : stage ∈ allStages := by cases stage <;> decide

lemma mem_workflowIds (workflow : WorkflowId) : workflow ∈ workflowIds := by
  cases workflow <;> decide

lemma reviewsOfJson_toJson (reviews : Phase → Option String) :
    reviewsOfJson (reviewsToJson reviews) = some reviews := by
  have honly : onlyMembers
      (phases.filterMap fun phase => (reviews phase).map fun id => (phase.name, Json.str id))
      (phases.map Phase.name) = true := by
    rw [onlyMembers, List.all_eq_true]
    intro field hfield
    have hmem := (reviewFields_names reviews phases).subset
      (List.mem_map_of_mem (f := Prod.fst) hfield)
    simpa using hmem
  have hstr : (phases.filterMap fun phase => (reviews phase).map fun id =>
      (phase.name, Json.str id)).all (fun field => field.2.asStr.isSome) = true := by
    rw [List.all_eq_true]
    intro field hfield
    rw [List.mem_filterMap] at hfield
    obtain ⟨q, -, heq⟩ := hfield
    rw [Option.map_eq_some_iff] at heq
    obtain ⟨id, -, rfl⟩ := heq
    rfl
  have htaken : (fun phase : Phase => (member (phases.filterMap fun phase =>
      (reviews phase).map fun id => (phase.name, Json.str id)) phase.name).bind Json.asStr) =
        reviews := by
    funext phase
    rw [member_reviewFields, if_pos (mem_phases phase)]
    cases reviews phase <;> rfl
  change (if _ && _ then some _ else none) = _
  rw [honly, hstr, htaken]
  rfl

lemma asName_of_mem {α : Type} [DecidableEq α] {name : α → String} {values : List α} {a : α}
    (ha : a ∈ values) (hinj : Function.Injective name) :
    Json.asName name values (.str (name a)) = some a :=
  asName_name ha fun _ _ h => hinj h

lemma state_ofJson_toJson (state : WorkflowState) :
    WorkflowState.ofJson state.toJson = ensure WorkflowState.valid state := by
  have hworkflow := asName_of_mem (mem_workflowIds state.workflowId) workflowName_injective
  have hstage := asName_of_mem (mem_allStages state.stage) stageName_injective
  have hresume : Json.asNullable (Json.asName Stage.name allStages)
      (Json.ofNullable (fun stage => .str stage.name) state.resumeStage) =
        some state.resumeStage :=
    asNullable_ofNullable (fun b _ => asName_of_mem (mem_allStages b) stageName_injective)
      nofun
  have hreviews := reviewsOfJson_toJson state.reviews
  simp only [WorkflowState.ofJson, Option.bind_eq_bind]
  change Option.bind (Json.asName WorkflowId.name workflowIds (.str state.workflowId.name)) _ = _
  rw [hworkflow, Option.bind_some]
  change Option.bind (Json.asName Stage.name allStages (.str state.stage.name)) _ = _
  rw [hstage, Option.bind_some]
  change Option.bind (Json.asNullable (Json.asName Stage.name allStages)
    (Json.ofNullable (fun stage => .str stage.name) state.resumeStage)) _ = _
  rw [hresume, Option.bind_some]
  change Option.bind (some state.blockingReason) _ = _
  rw [Option.bind_some]
  change Option.bind (reviewsOfJson (reviewsToJson state.reviews)) _ = _
  rw [hreviews, Option.bind_some]

lemma state_canonical (state : WorkflowState) : state.toJson.Canonical AnyInt := by
  have hresume :
      (Json.ofNullable (fun stage : Stage => .str stage.name) state.resumeStage).Canonical
      AnyInt := by
    cases state.resumeStage <;> trivial
  refine ⟨⟨trivial, hresume, reviewsToJson_canonical _, trivial, trivial, trivial, trivial⟩, ?_⟩
  simp only [List.map_cons, List.map_nil]
  decide

lemma workObjectId_chars {id : String} (h : isWorkObjectId id = true) :
    (∀ c ∈ id.toList, (isLowerAlnum c || c = '-') = true) ∧ id.length ≤ 256 ∧
      ∃ last, id.toList.getLast? = some last ∧ last ≠ '/' := by
  unfold isWorkObjectId at h
  cases hlist : id.toList with
  | nil =>
    rw [hlist] at h
    cases h
  | cons c cs =>
    rw [hlist] at h
    simp only [Bool.and_eq_true, List.all_eq_true, decide_eq_true_eq] at h
    obtain ⟨⟨⟨hfirst, hrest⟩, hlast⟩, hlength⟩ := h
    refine ⟨?_, ?_, _, List.getLast?_eq_getLast_of_ne_nil (by simp), ?_⟩
    · intro d hd
      obtain rfl | hd := List.mem_cons.1 hd
      · rw [hfirst, Bool.true_or]
      · simpa using hrest d hd
    · rw [← String.length_toList, hlist]
      exact Nat.succ_le_succ hlength
    · intro hslash
      rw [hslash] at hlast
      exact absurd hlast (by decide)

/-- A state read back from its text is the one that was written. -/
theorem decodeState_encodeState {state state' : WorkflowState} :
    decodeState (encodeState state) = .ok state' ↔
      state' = state ∧ state.valid = true ∧ (encodeState state).utf8ByteSize ≤ 16384 := by
  have hloads : loads plainJson (encodeState state).toList = some state.toJson :=
    loads_dumps_of_canonical (fun _ _ => rfl) true (state_canonical state)
  rw [decodeState, hloads, Option.bind_some, state_ofJson_toJson]
  by_cases hsize : (encodeState state).utf8ByteSize > 16384
  · simp [if_pos hsize, Nat.not_le_of_gt hsize]
  · rw [if_neg hsize, ensure]
    by_cases hvalid : state.valid = true
    · simp [hvalid, Nat.le_of_not_gt hsize, eq_comm]
    · simp [hvalid]

lemma decodeState_new (workflow : WorkflowId) :
    decodeState (encodeState (newState workflow .backlog)) = .ok (newState workflow .backlog) := by
  refine decodeState_encodeState.2 ⟨rfl, ?_, ?_⟩
  · cases workflow <;> decide
  · cases workflow <;> decide +kernel

lemma decodeState_valid {raw : String} {state : WorkflowState}
    (h : decodeState raw = .ok state) : state.valid = true := by
  unfold decodeState at h
  split at h
  · cases h
  · split at h
    · rename_i hread
      cases h
      simp only [Option.bind_eq_some_iff, WorkflowState.ofJson, Option.bind_eq_bind,
        ensure_eq_some] at hread
      obtain ⟨_, _, _, _, _, _, _, _, _, _, _, _, _, _, _, _, _, _, hvalid, rfl⟩ := hread
      exact hvalid
    · cases h

lemma encodeState_ne_empty (state : WorkflowState) : encodeState state ≠ "" := by
  intro hempty
  have htext := congrArg String.toList hempty
  obtain ⟨c, tail, hprint, -⟩ := print_head true state.toJson.sortKeys
  rw [encodeState, dumps, String.toList_ofList, hprint] at htext
  cases htext

lemma decodeState_empty (state : WorkflowState) : decodeState "" ≠ .ok state := by
  intro h
  cases h

end DevGraph.Proofs
