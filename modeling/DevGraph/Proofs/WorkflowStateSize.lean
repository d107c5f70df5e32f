import DevGraph.Lib.TextSize
import DevGraph.Proofs.WorkflowText
import Mathlib.Algebra.Order.BigOperators.Group.List

/-!
# The size of a workflow state

A blocking reason is bounded in characters and the text of a state in bytes. What is not printable
ASCII is escaped with six or twelve bytes, so that a reason which the model takes may not fit.
-/

namespace DevGraph.Proofs

open Lib Work

variable {state : WorkflowState}

/-- The bytes of a printed string between its quotes. -/
def escaped (s : String) : Nat := (printChars true s.toList).length

/-- The bytes of the text of a state, field by field. -/
def stateSize (state : WorkflowState) : Nat :=
  96 + escaped state.blockingReason + escaped state.stage.name + escaped state.workflowId.name +
    state.resumeStage.elim 4 (fun stage => escaped stage.name + 2) +
    max 2 (1 + (phases.map fun phase =>
      (state.reviews phase).elim 0 fun id => escaped phase.name + escaped id + 6).sum)

lemma weight_string (s : String) : weight Char.utf8Size (printString true s) = escaped s + 2 :=
  weight_printString s

lemma weight_reviews (reviews : Phase → Option String) (l : List Phase) :
    weight Char.utf8Size (printFields true
      (l.filterMap fun phase => (reviews phase).map fun id => (phase.name, Json.str id))) =
        1 + (l.map fun phase =>
          (reviews phase).elim 0 fun id => escaped phase.name + escaped id + 6).sum := by
  induction l with
  | nil => rfl
  | cons phase l ih =>
    rw [List.filterMap_cons, List.map_cons, List.sum_cons]
    cases reviews phase with
    | none =>
      rw [Option.elim_none, Nat.zero_add]
      exact ih
    | some id =>
      simp only [Option.map_some, Option.elim_some, printFields, Json.print, weight_cons,
        weight_append, weight_string, ih, show ','.utf8Size = 1 from rfl,
        show ':'.utf8Size = 1 from rfl]
      omega

lemma weight_obj (fields : List (String × Json)) :
    weight Char.utf8Size (Json.print true (.obj fields)) =
      max 2 (weight Char.utf8Size (printFields true fields)) := by
  cases fields with
  | nil => decide
  | cons field fields =>
    simp only [Json.print, printFields, weight_cons, weight_append, weight_string,
      show ','.utf8Size = 1 from rfl, show '\x7b'.utf8Size = 1 from rfl]
    omega

lemma size_encodeState (state : WorkflowState) :
    (encodeState state).utf8ByteSize = stateSize state := by
  have hresume : weight Char.utf8Size (Json.print true
      (Json.ofNullable (fun stage : Stage => .str stage.name) state.resumeStage)) =
        state.resumeStage.elim 4 (fun stage => escaped stage.name + 2) := by
    cases state.resumeStage with
    | none => decide
    | some stage => exact weight_string stage.name
  obtain ⟨hkey₁, hkey₂, hkey₃, hkey₄, hkey₅, hkey₆⟩ : escaped "blocking_reason" = 15 ∧
      escaped "resume_stage" = 12 ∧ escaped "reviews" = 7 ∧ escaped "schema_version" = 14 ∧
      escaped "stage" = 5 ∧ escaped "workflow_id" = 11 := by decide +kernel
  obtain ⟨hcomma, hcolon, hclose, hone⟩ : ','.utf8Size = 1 ∧ ':'.utf8Size = 1 ∧
      weight Char.utf8Size ['\x7d'] = 1 ∧ weight Char.utf8Size (Json.print true (.int 1)) = 1 := by
    decide +kernel
  have hreviews := weight_obj (phases.filterMap fun phase =>
    (state.reviews phase).map fun id => (phase.name, Json.str id))
  rw [weight_reviews] at hreviews
  rw [encodeState, dumps, sortKeys_of_canonical _ (state_canonical state)]
  refine (size_ofList _).trans ?_
  rw [WorkflowState.toJson, weight_obj]
  simp only [reviewsToJson, printFields, Json.print.eq_5, weight_cons, weight_append,
    weight_string, hresume, hreviews, hkey₁, hkey₂, hkey₃, hkey₄, hkey₅, hkey₆, hcomma, hcolon,
    hclose, hone, stateSize]
  omega

lemma escaped_id {id : String} (h : isWorkObjectId id = true) : escaped id ≤ 512 := by
  obtain ⟨hchars, hlength, -⟩ := workObjectId_chars h
  have hprinted : escaped id ≤ 2 * id.toList.length := by
    apply length_printChars_le
    intro c hc
    have hchar := hchars c hc
    simp only [isLowerAlnum, Bool.or_eq_true, Bool.and_eq_true, decide_eq_true_eq] at hchar
    obtain (⟨hlow, hhigh⟩ | ⟨hlow, hhigh⟩) | rfl := hchar
    · exact ⟨Nat.le_trans (by decide) hlow, Nat.le_trans (Char.le_def.1 hhigh) (by decide)⟩
    · exact ⟨Nat.le_trans (by decide) hlow, Nat.le_trans (Char.le_def.1 hhigh) (by decide)⟩
    · decide
  rw [String.length_toList] at hprinted
  omega

lemma escaped_stage (stage : Stage) : escaped stage.name ≤ 23 := by
  cases stage <;> decide +kernel

/-- What a valid state takes besides its reason. -/
lemma stateSize_le (hvalid : state.valid = true) :
    stateSize state ≤ 8192 + escaped state.blockingReason := by
  have hreview : ∀ n ∈ phases.map fun phase =>
      (state.reviews phase).elim 0 fun id => escaped phase.name + escaped id + 6, n ≤ 540 := by
    rw [List.forall_mem_map]
    intro phase hphase
    cases hid : state.reviews phase with
    | none => exact Nat.zero_le _
    | some id =>
      simp only [WorkflowState.valid, Bool.and_eq_true, List.all_eq_true] at hvalid
      have hid := escaped_id ((Option.all_eq_true _ _).1 (hvalid.2 phase hphase) id hid)
      have hname : escaped phase.name ≤ 14 := by cases phase <;> decide +kernel
      rw [Option.elim_some]
      omega
  have hreviews : _ ≤ 9 * 540 := List.sum_le_card_nsmul _ _ hreview
  have hresume : state.resumeStage.elim 4 (fun stage => escaped stage.name + 2) ≤ 25 := by
    cases state.resumeStage with
    | none => decide
    | some stage => exact Nat.add_le_add_right (escaped_stage stage) 2
  have hworkflow : escaped state.workflowId.name ≤ 12 := by
    cases state.workflowId <;> decide +kernel
  have hstage := escaped_stage state.stage
  rw [stateSize]
  omega

/-- A valid state is read back from its text exactly if the bytes of its fields fit, which always
holds with a reason in printable ASCII. -/
theorem state_round_trip (hvalid : state.valid = true) :
    (decodeState (encodeState state) = .ok state ↔ stateSize state ≤ 16384) ∧
    ((∀ c ∈ state.blockingReason.toList, 32 ≤ c.toNat ∧ c.toNat ≤ 126) →
      decodeState (encodeState state) = .ok state) := by
  have hiff : decodeState (encodeState state) = .ok state ↔ stateSize state ≤ 16384 := by
    rw [decodeState_encodeState, size_encodeState]
    simp [hvalid]
  refine ⟨hiff, fun hprintable => hiff.2 ((stateSize_le hvalid).trans ?_)⟩
  have hlength : state.blockingReason.length ≤ 4096 := by
    simp only [WorkflowState.valid, Bool.and_eq_true, decide_eq_true_eq] at hvalid
    exact hvalid.1.2
  have hreason : escaped state.blockingReason ≤ 2 * _ := length_printChars_le hprintable
  rw [String.length_toList] at hreason
  omega

def waiting (reason : String) : WorkflowState :=
  ⟨.execution, .blockedWaitingInput, some .intake, reason, fun _ => none⟩

theorem state_round_trip_short :
    decodeState (encodeState (waiting "Which port?")) = .ok (waiting "Which port?") := by
  have hprintable : ∀ c ∈ "Which port?".toList, 32 ≤ c.toNat ∧ c.toNat ≤ 126 := by simp
  exact (state_round_trip (by decide +kernel)).2 hprintable

/-- A reason in letters that are escaped with six bytes each. -/
def foreign (n : Nat) : String := String.ofList (List.replicate n 'é')

lemma waiting_foreign_valid {n : Nat} (hpos : 0 < n) (hmax : n ≤ 4096) :
    (waiting (foreign n)).valid = true := by
  have hlength : (foreign n).length ≤ 4096 := by
    rw [foreign, String.length_ofList, List.length_replicate]
    exact hmax
  have hblank : DevGraph.Work.isBlank (foreign n) = false := by
    obtain ⟨k, rfl⟩ := Nat.exists_eq_succ_of_ne_zero hpos.ne'
    rw [DevGraph.Work.isBlank, foreign, String.toList_ofList, List.replicate_succ, List.all_cons]
    exact Bool.false_and _
  simp [WorkflowState.valid, waiting, hlength, hblank, stages, phases]

lemma foreign_unreadable {n : Nat} (hn : 2731 ≤ n) :
    decodeState (encodeState (waiting (foreign n))) ≠ .ok (waiting (foreign n)) := by
  intro h
  have hsize := (decodeState_encodeState.1 h).2.2
  have hescaped : escaped (foreign n) = n * 6 := by
    rw [escaped, foreign, String.toList_ofList, printChars]
    simp [List.flatMap_replicate, show (printChar true 'é').length = 6 from rfl]
  rw [size_encodeState, stateSize, waiting, hescaped] at hsize
  omega

/-- The longest reason that the model takes. -/
theorem long_reason_unreadable : (waiting (foreign 4096)).valid = true ∧
    decodeState (encodeState (waiting (foreign 4096))) ≠ .ok (waiting (foreign 4096)) :=
  ⟨waiting_foreign_valid (by decide) (by decide), foreign_unreadable (by decide)⟩

end DevGraph.Proofs
