import DevGraph.Work.Requests

/-!
# Payloads print and read back

Every payload that a model accepts is printed canonically, and its model reads what is printed as
the same payload, defaults included.
-/

namespace DevGraph.Proofs

open Lib Work

/-- The integers that strict JSON admits. -/
def SafeInt (n : Int) : Prop := strictJson.int n = true

lemma injective_of_find {α : Type} [DecidableEq α] {name : α → String} (values : List α)
    (h : ∀ a, (values.find? fun b => decide (name b = name a)) = some a) :
    Function.Injective name := by
  intro a b hab
  have ha := h a
  rw [hab, h b] at ha
  exact (Option.some.inj ha).symm

lemma labelName_injective : Function.Injective Label.name :=
  injective_of_find labels fun a => by cases a <;> rfl

lemma phaseName_injective : Function.Injective Phase.name :=
  injective_of_find phases fun a => by cases a <;> rfl

lemma stageName_injective : Function.Injective Stage.name :=
  injective_of_find allStages fun a => by cases a <;> rfl

lemma workflowName_injective : Function.Injective WorkflowId.name :=
  injective_of_find workflowIds fun a => by cases a <;> rfl

lemma outcomeName_injective : Function.Injective Outcome.name :=
  injective_of_find outcomes fun a => by cases a <;> rfl

lemma layerName_injective : Function.Injective Layer.name :=
  injective_of_find layers fun a => by cases a <;> rfl

lemma verdictName_injective : Function.Injective Verdict.name :=
  injective_of_find verdicts fun a => by cases a <;> rfl

lemma progressName_injective : Function.Injective Progress.name :=
  injective_of_find progresses fun a => by cases a <;> rfl

lemma statusName_injective : Function.Injective WorkStatus.name :=
  injective_of_find workStatuses fun a => by cases a <;> rfl

lemma relationName_injective : Function.Injective SessionRelation.name :=
  injective_of_find sessionRelations fun a => by cases a <;> rfl

lemma basisName_injective : Function.Injective SessionBasis.name :=
  injective_of_find [.declared, .sourceObserved, .inspected, .declaredScope]
    fun a => by cases a <;> rfl

lemma sessionStateName_injective : Function.Injective SessionState.name :=
  injective_of_find [.unreviewed, .open, .done] fun a => by cases a <;> rfl

lemma codec_identifier : Codec SafeInt asIdentifier Json.str 0 := codec_ensure codec_str _

lemma codec_strings : Codec SafeInt (Json.asList Json.asStr) strings 1 := codec_list codec_str

/-- Members whose names are among sorted ones, and whose values print, make a printed
object. -/
lemma fields_printed (names : List String) {fields : List (String × Json)} {depth : Nat}
    (hnames : (fields.map Prod.fst).Sublist names)
    (hsorted : names.Pairwise fun a b => a.toList < b.toList)
    (hvalues : ∀ field ∈ fields, field.2.Neat SafeInt depth) :
    closedRecord names (.obj fields) = some fields ∧ (Json.obj fields).Canonical SafeInt ∧
      (Json.obj fields).nestedWithin (depth + 1) = true := by
  refine ⟨?_, ⟨?_, hsorted.sublist hnames⟩, ?_⟩
  · simp only [closedRecord, asObj_obj, Option.bind_some, ensure_eq_some, and_true, onlyMembers,
      List.all_eq_true, List.contains_iff_mem]
    exact fun field hfield => hnames.subset (List.mem_map_of_mem hfield)
  · clear hnames
    induction fields with
    | nil => trivial
    | cons field fields ih =>
      exact ⟨(hvalues field (by simp)).1, ih fun f hf => hvalues f (by simp [hf])⟩
  · clear hnames
    apply nested_obj
    induction fields with
    | nil => rfl
    | cons field fields ih =>
      exact nested_cons (hvalues field (by simp)).2 (ih fun f hf => hvalues f (by simp [hf]))

variable {names : List String}

/-- A closed record that prints what it reads, under sorted names, is a codec. -/
lemma codec_record {α : Type} {parse : List (String × Json) → Option α}
    {print : α → List (String × Json)} {depth : Nat}
    (hsorted : names.Pairwise fun a b => a.toList < b.toList)
    (hparse : ∀ fields a, FieldsIntsIn SafeInt fields → parse fields = some a →
      parse (print a) = some a ∧ ((print a).map Prod.fst).Sublist names ∧
        ∀ field ∈ print a, field.2.Neat SafeInt depth) :
    Codec SafeInt (fun v => (closedRecord names v).bind parse) (fun a => .obj (print a))
      (depth + 1) := by
  intro v a hv h
  obtain ⟨fields, hfields, hread⟩ := Option.bind_eq_some_iff.1 h
  have hints : FieldsIntsIn SafeInt fields := by
    cases v with
    | obj fields' =>
      simp only [closedRecord, asObj_obj, Option.bind_some, ensure_eq_some] at hfields
      exact hfields.2 ▸ hv
    | _ => cases hfields
  obtain ⟨hback, hnames, hvalues⟩ := hparse fields a hints hread
  obtain ⟨hclosed, hcanonical, hnested⟩ := fields_printed names hnames hsorted hvalues
  exact ⟨Option.bind_eq_some_iff.2 ⟨_, hclosed, hback⟩, hcanonical, hnested⟩

lemma codec_workReference : Codec SafeInt WorkReference.ofJson WorkReference.toJson 1 := by
  refine codec_record (by decide) fun fields r hints h => ?_
  simp only [option_bind_some, Option.pure_def] at h
  obtain ⟨kind, hkind, id, hid, version, hversion, heq⟩ := h
  cases heq
  have hkind := required_printed (codec_name workKinds labelName_injective) hints hkind
  have hid := required_printed codec_identifier hints hid
  have hversion := required_printed (codec_ensure codec_int isVersion) hints hversion
  refine ⟨?_, .refl _, by simp [hversion.neat]⟩
  simp only [option_bind_some]
  exact ⟨_, hkind.read, _, hid.read, _, hversion.read, rfl⟩

lemma codec_arenaReference : Codec SafeInt ArenaReference.ofJson ArenaReference.toJson 1 := by
  refine codec_record (by decide) fun fields r hints h => ?_
  simp only [option_bind_some, Option.pure_def] at h
  obtain ⟨kind, hkind, id, hid, version, hversion, heq⟩ := h
  cases heq
  have hid := required_printed codec_identifier hints hid
  have hversion := required_printed (codec_ensure codec_int isArenaVersion) hints hversion
  refine ⟨?_, .refl _, by simp [hversion.neat]⟩
  simp only [option_bind_some]
  exact ⟨_, rfl, _, hid.read, _, hversion.read, rfl⟩

lemma codec_evidence : Codec SafeInt Evidence.ofJson Evidence.toJson 1 := by
  refine codec_record (by decide) fun fields e hints h => ?_
  simp only [option_bind_some, ensure_eq_some] at h
  obtain ⟨kind, hkind, id, -, title, -, url, -, hvalid, rfl⟩ := h
  have hkind := required_printed (codec_name _ labelName_injective) hints hkind
  refine ⟨?_, .refl _, by simp⟩
  simp only [option_bind_some, ensure_eq_some]
  exact ⟨_, hkind.read, _, rfl, _, rfl, _, rfl, hvalid, rfl⟩

lemma codec_requirementVerdict :
    Codec SafeInt RequirementVerdict.ofJson RequirementVerdict.toJson 2 := by
  refine codec_record (by decide) fun fields r hints h => ?_
  simp only [option_bind_some, ensure_eq_some] at h
  obtain ⟨id, -, subject, -, title, -, outcome, houtcome, ids, hids, reason, -, hvalid, rfl⟩ := h
  have houtcome := required_printed (codec_name _ outcomeName_injective) hints houtcome
  have hids := defaulted_printed codec_strings hints (printed_list (by simp)) hids
  refine ⟨?_, .refl _, by simp [hids.neat]⟩
  simp only [option_bind_some, ensure_eq_some]
  exact ⟨_, rfl, _, rfl, _, rfl, _, houtcome.read, _, hids.read, _, rfl, hvalid, rfl⟩

lemma codec_layerVerdict : Codec SafeInt LayerVerdict.ofJson LayerVerdict.toJson 1 := by
  refine codec_record (by decide) fun fields l hints h => ?_
  simp only [option_bind_some, ensure_eq_some] at h
  obtain ⟨layer, hlayer, verdict, hverdict, reason, -, hvalid, rfl⟩ := h
  have hlayer := required_printed (codec_name _ layerName_injective) hints hlayer
  have hverdict := required_printed (codec_name _ verdictName_injective) hints hverdict
  refine ⟨?_, .refl _, by simp⟩
  simp only [option_bind_some, ensure_eq_some]
  exact ⟨_, hlayer.read, _, hverdict.read, _, rfl, hvalid, rfl⟩

lemma codec_workflowReview : Codec SafeInt WorkflowReview.ofJson WorkflowReview.toJson 4 := by
  refine codec_record (by decide) fun fields r hints h => ?_
  simp only [option_bind_some, ensure_eq_some] at h
  rcases h with ⟨recordId, -, phase, hphase, verdict, hverdict, summary, -, evidence, hevidence,
    requirements, hrequirements, layers, hlayers, hvalid, rfl⟩
  have hphase := required_printed (codec_name _ phaseName_injective) hints hphase
  have hverdict := required_printed (codec_name _ verdictName_injective) hints hverdict
  have hevidence := (defaulted_printed (codec_list codec_evidence) hints (printed_list (by simp))
    hevidence).mono (show 2 ≤ 3 by decide)
  have hrequirements := defaulted_printed (codec_list codec_requirementVerdict) hints
    (printed_list (by simp)) hrequirements
  have hlayers := (defaulted_printed (codec_list codec_layerVerdict) hints (printed_list (by simp))
    hlayers).mono (show 2 ≤ 3 by decide)
  refine ⟨?_, .refl _, by simp [hevidence.neat, hlayers.neat, hrequirements.neat]⟩
  simp only [option_bind_some, ensure_eq_some]
  exact ⟨_, rfl, _, hphase.read, _, hverdict.read, _, rfl, _, hevidence.read, _, hrequirements.read,
    _, hlayers.read, hvalid, rfl⟩

lemma codec_workflowAssign : Codec SafeInt WorkflowAssign.ofJson WorkflowAssign.toJson 1 := by
  refine codec_record (by decide) fun fields a hints h => ?_
  simp only [option_bind_some, ensure_eq_some] at h
  obtain ⟨workflow, hworkflow, stage, hstage, reason, -, hvalid, rfl⟩ := h
  have hworkflow := required_printed (codec_name _ workflowName_injective) hints hworkflow
  have hstage := defaulted_printed (codec_name _ stageName_injective) hints ⟨rfl, trivial, rfl⟩
    hstage
  refine ⟨?_, .refl _, by simp⟩
  simp only [option_bind_some, ensure_eq_some]
  exact ⟨_, hworkflow.read, _, hstage.read, _, rfl, hvalid, rfl⟩

lemma codec_workflowTransition :
    Codec SafeInt WorkflowTransition.ofJson WorkflowTransition.toJson 1 := by
  refine codec_record (by decide) fun fields t hints h => ?_
  simp only [option_bind_some, ensure_eq_some] at h
  obtain ⟨stage, -, reason, -, hvalid, rfl⟩ := h
  refine ⟨?_, .refl _, by simp⟩
  simp only [option_bind_some, ensure_eq_some]
  exact ⟨_, rfl, _, rfl, hvalid, rfl⟩

lemma codec_progressSet : Codec SafeInt ProgressSet.ofJson ProgressSet.toJson 4 := by
  refine codec_record (by decide) fun fields c hints h => ?_
  simp only [option_bind_some, ensure_eq_some] at h
  rcases h with ⟨progress, hprogress, reason, -, recordId, -, evidence, hevidence, requirements,
    hrequirements, hvalid, rfl⟩
  have hprogress := required_printed (codec_name _ progressName_injective) hints hprogress
  have hevidence := (defaulted_printed (codec_list codec_evidence) hints (printed_list (by simp))
    hevidence).mono (show 2 ≤ 3 by decide)
  have hrequirements := defaulted_printed (codec_list codec_requirementVerdict) hints
    (printed_list (by simp)) hrequirements
  refine ⟨?_, .refl _, by simp [hevidence.neat, hrequirements.neat]⟩
  simp only [option_bind_some, ensure_eq_some]
  exact ⟨_, hprogress.read, _, rfl, _, rfl, _, hevidence.read, _, hrequirements.read, hvalid, rfl⟩

lemma codec_proposalReject : Codec SafeInt ProposalReject.ofJson ProposalReject.toJson 1 := by
  refine codec_record (by decide) fun fields r hints h => ?_
  simp only [option_bind_some, ensure_eq_some] at h
  obtain ⟨decisionId, -, reason, -, hvalid, rfl⟩ := h
  refine ⟨?_, .refl _, by simp⟩
  simp only [option_bind_some, ensure_eq_some]
  exact ⟨_, rfl, _, rfl, hvalid, rfl⟩

lemma codec_createWork : Codec SafeInt CreateWork.ofJson CreateWork.toJson 2 := by
  refine codec_record (by decide) fun fields c hints h => ?_
  simp only [option_bind_some, ensure_eq_some] at h
  rcases h with ⟨id, -, title, -, description, -, priority, hpriority, artifacts, hartifacts, links,
    hlinks, hvalid, rfl⟩
  have hpriority := (defaulted_printed codec_int hints ⟨rfl, show SafeInt 0 from rfl, rfl⟩
    hpriority).mono (show 0 ≤ 1 by decide)
  have hartifacts := defaulted_printed codec_strings hints (printed_list (by simp)) hartifacts
  have hlinks := defaulted_printed codec_strings hints (printed_list (by simp)) hlinks
  refine ⟨?_, .refl _, by simp [hpriority.neat, hartifacts.neat, hlinks.neat]⟩
  simp only [option_bind_some, ensure_eq_some]
  exact ⟨_, rfl, _, rfl, _, rfl, _, hpriority.read, _, hartifacts.read, _, hlinks.read, hvalid, rfl⟩

section LeftOut

variable {α β : Type} {decode : Json → Option α} {encode : α → Json} {depth : Nat}
  {fields rest : List (String × Json)} {name other : String}

variable {value : Option α}

lemma given_printed (hc : Codec SafeInt decode encode depth) (hfields : FieldsIntsIn SafeInt fields)
    (h : given fields name decode = some value) :
    ∀ a ∈ value, Printed SafeInt decode encode depth a := by
  intro a ha
  cases ha
  unfold given defaulted at h
  split at h
  · rename_i v hv
    simp only [Option.map_eq_some_iff, Option.some.injEq, exists_eq_right] at h
    exact hc (member_intsIn hfields hv) h
  · cases h

lemma mem_dumped {field : String × Json}
    (h : field ∈ dumped name encode value) : ∃ a ∈ value, field = (name, encode a) := by
  cases value with
  | none => cases h
  | some a => exact ⟨a, rfl, List.mem_singleton.1 h⟩

lemma dumped_names (name : String) (encode : α → Json) (value : Option α) :
    ((dumped name encode value).map Prod.fst).Sublist [name] := by
  cases value with
  | none => exact List.nil_sublist _
  | some a => exact List.Sublist.refl _

lemma dumped_append_names (name : String) (encode : α → Json) (value : Option α)
    (h : (rest.map Prod.fst).Sublist names) :
    ((dumped name encode value ++ rest).map Prod.fst).Sublist (name :: names) := by
  rw [List.map_append]
  exact (dumped_names name encode value).append h

lemma given_dumped (h : ∀ a ∈ value, Printed SafeInt decode encode depth a)
    (hrest : member rest name = none) :
    given (dumped name encode value ++ rest) name decode = some value := by
  cases value with
  | none =>
    change given rest name decode = _
    rw [given, defaulted, hrest]
  | some a =>
    have hmember : member (dumped name encode (some a) ++ rest) name = some (encode a) := by
      change List.lookup name ((name, encode a) :: rest) = _
      rw [List.lookup_cons_self]
    rw [given, defaulted, hmember]
    change (decode (encode a)).map some = _
    rw [(h a rfl).read]
    rfl

lemma member_dumped_of_ne (hne : name ≠ other) (value : Option α) :
    member (dumped other encode value ++ rest) name = member rest name := by
  cases value with
  | none => rfl
  | some a =>
    have hbeq : (name == other) = false := by simpa using hne
    change List.lookup name ((other, encode a) :: rest) = _
    rw [List.lookup_cons, hbeq]
    rfl

lemma member_eq_none (hnames : (rest.map Prod.fst).Sublist names)
    (hname : name ∉ names) : member rest name = none := by
  have hmem : name ∉ rest.map Prod.fst := fun h => hname (hnames.subset h)
  clear hnames
  induction rest with
  | nil => rfl
  | cons field rest ih =>
    rw [List.map_cons, List.mem_cons, not_or] at hmem
    have hbeq : (name == field.1) = false := by simpa using hmem.1
    rw [member, List.lookup_cons, hbeq]
    exact ih hmem.2

lemma given_dumped_of_ne (hne : name ≠ other) (value : Option β) {encodeOther : β → Json} :
    given (dumped other encodeOther value ++ rest) name decode = given rest name decode := by
  rw [given, defaulted, member_dumped_of_ne hne]
  rfl

end LeftOut

lemma codec_contentChanges : Codec SafeInt ContentChanges.ofJson ContentChanges.toJson 2 := by
  refine codec_record (by decide) fun fields c hints h => ?_
  simp only [option_bind_some, ensure_eq_some] at h
  rcases h with ⟨title, htitle, description, hdescription, priority, hpriority, artifacts,
    hartifacts, links, hlinks, hvalid, rfl⟩
  have htitle := given_printed codec_str hints htitle
  have hdescription := given_printed codec_str hints hdescription
  have hpriority := given_printed codec_int hints hpriority
  have hartifacts := given_printed codec_strings hints hartifacts
  have hlinks := given_printed codec_strings hints hlinks
  have hpriorityNames := dumped_append_names "priority" Json.int priority
    (dumped_names "title" Json.str title)
  have hlinkNames := dumped_append_names "external_link_ids" strings links hpriorityNames
  have hdescriptionNames := dumped_append_names "description" Json.str description hlinkNames
  refine ⟨?_, dumped_append_names "artifact_ids" strings artifacts hdescriptionNames, ?_⟩
  · simp only [option_bind_some, ensure_eq_some]
    refine ⟨title, ?_, description, ?_, priority, ?_, artifacts, ?_, links, ?_, hvalid, rfl⟩
    · rw [given_dumped_of_ne (by decide), given_dumped_of_ne (by decide),
        given_dumped_of_ne (by decide), given_dumped_of_ne (by decide),
        ← List.append_nil (dumped "title" Json.str title), given_dumped htitle rfl]
    · rw [given_dumped_of_ne (by decide)]
      exact given_dumped hdescription (member_eq_none hlinkNames (by decide))
    · rw [given_dumped_of_ne (by decide), given_dumped_of_ne (by decide),
        given_dumped_of_ne (by decide)]
      exact given_dumped hpriority (member_eq_none (dumped_names "title" _ _) (by decide))
    · exact given_dumped hartifacts (member_eq_none hdescriptionNames (by decide))
    · rw [given_dumped_of_ne (by decide), given_dumped_of_ne (by decide)]
      exact given_dumped hlinks (member_eq_none hpriorityNames (by decide))
  · intro field hfield
    simp only [List.mem_append] at hfield
    rcases hfield with hfield | hfield | hfield | hfield | hfield <;>
      obtain ⟨a, ha, rfl⟩ := mem_dumped hfield
    · exact (hartifacts a ha).neat
    · exact neat_str a
    · exact (hlinks a ha).neat
    · exact ((hpriority a ha).mono (Nat.zero_le 1)).neat
    · exact neat_str a

lemma codec_status : Codec SafeInt statusOfJson (fun s => .obj [("status", .str s.name)]) 1 := by
  refine codec_record (by decide) fun fields s hints h => ⟨?_, .refl _, by simp⟩
  exact (required_printed (codec_name _ statusName_injective) hints h).read

lemma codec_acceptProposal : Codec SafeInt AcceptProposal.ofJson AcceptProposal.toJson 1 := by
  refine codec_record (by decide) fun fields a hints h => ?_
  simp only [option_bind_some, ensure_eq_some] at h
  obtain ⟨decisionId, -, title, -, hvalid, rfl⟩ := h
  refine ⟨?_, .refl _, by simp⟩
  simp only [option_bind_some, ensure_eq_some]
  exact ⟨_, rfl, _, rfl, hvalid, rfl⟩

lemma codec_conversion : Codec SafeInt Conversion.ofJson Conversion.toJson 1 := by
  refine codec_record (by decide) fun fields c hints h => ?_
  simp only [option_bind_some, ensure_eq_some] at h
  obtain ⟨issueId, -, decisionId, -, hvalid, rfl⟩ := h
  refine ⟨?_, .refl _, by simp⟩
  simp only [option_bind_some, ensure_eq_some]
  exact ⟨_, rfl, _, rfl, hvalid, rfl⟩

lemma codec_workReference_nullable : Codec SafeInt (Json.asNullable WorkReference.ofJson)
    (Json.ofNullable WorkReference.toJson) 1 :=
  codec_nullable codec_workReference nofun

lemma codec_arenaReference_nullable : Codec SafeInt (Json.asNullable ArenaReference.ofJson)
    (Json.ofNullable ArenaReference.toJson) 1 :=
  codec_nullable codec_arenaReference nofun

lemma codec_parentChange : Codec SafeInt ParentChange.ofJson ParentChange.toJson 2 := by
  refine codec_record (by decide) fun fields c hints h => ?_
  simp only [option_bind_some, Option.pure_def] at h
  obtain ⟨previous, hprevious, parent, hparent, arena, harena, heq⟩ := h
  cases heq
  have hprevious := required_printed codec_workReference_nullable hints hprevious
  have hparent := required_printed codec_workReference_nullable hints hparent
  have harena := given_printed codec_arenaReference_nullable hints harena
  refine ⟨?_, (dumped_append_names _ _ _ (List.Sublist.refl _)).cons_cons "parent", ?_⟩
  · simp only [option_bind_some]
    refine ⟨previous, ?_, parent, hparent.read, arena, given_dumped harena rfl, rfl⟩
    cases arena with
    | none => exact hprevious.read
    | some a => exact hprevious.read
  · intro field hfield
    simp only [List.mem_cons, List.mem_append, List.not_mem_nil, or_false] at hfield
    obtain rfl | hfield | rfl := hfield
    · exact hparent.neat
    · obtain ⟨a, ha, rfl⟩ := mem_dumped hfield
      exact (harena a ha).neat
    · exact hprevious.neat

lemma codec_target : Codec SafeInt targetOfJson (fun r => .obj [("target", r.toJson)]) 2 := by
  refine codec_record (by decide) fun fields r hints h => ?_
  have htarget := required_printed codec_workReference hints h
  exact ⟨htarget.read, .refl _, by simp [htarget.neat]⟩

lemma codec_sessionIdentity :
    Codec SafeInt SessionIdentity.ofJson SessionIdentity.toJson 1 := by
  refine codec_record (by decide) fun fields i hints h => ?_
  simp only [option_bind_some, ensure_eq_some] at h
  obtain ⟨application, -, source, -, session, -, hvalid, rfl⟩ := h
  refine ⟨?_, .refl _, by simp⟩
  simp only [option_bind_some, ensure_eq_some]
  exact ⟨_, rfl, _, rfl, _, rfl, hvalid, rfl⟩

lemma codec_linkWitness : Codec SafeInt LinkWitness.ofJson LinkWitness.toJson 2 := by
  refine codec_record (by decide) fun fields l hints h => ?_
  simp only [option_bind_some, ensure_eq_some] at h
  rcases h with ⟨source, -, event, -, attempt, -, relation, hrelation, origin, horigin, target,
    htarget, observed, -, basis, hbasis, hvalid, rfl⟩
  have hrelation := required_printed (codec_name _ relationName_injective) hints hrelation
  have horigin := required_printed codec_sessionIdentity hints horigin
  have htarget := required_printed codec_sessionIdentity hints htarget
  have hbasis := required_printed (codec_name _ basisName_injective) hints hbasis
  refine ⟨?_, .refl _, by simp [horigin.neat, htarget.neat]⟩
  simp only [option_bind_some, ensure_eq_some]
  exact ⟨_, rfl, _, rfl, _, rfl, _, hrelation.read, _, horigin.read, _, htarget.read, _, rfl, _,
    hbasis.read, hvalid, rfl⟩

lemma codec_sessionAttach : Codec SafeInt SessionAttach.ofJson SessionAttach.toJson 3 := by
  refine codec_record (by decide) fun fields a hints h => ?_
  simp only [option_bind_some, ensure_eq_some] at h
  obtain ⟨session, hsession, observed, -, basis, hbasis, link, hlink, hvalid, rfl⟩ := h
  have hsession := (required_printed codec_sessionIdentity hints hsession).mono
    (show 1 ≤ 2 by decide)
  have hbasis := required_printed (codec_name _ basisName_injective) hints hbasis
  have hlink := defaulted_printed (codec_nullable codec_linkWitness (by rintro _ ⟨⟩)) hints
    (printed_nullable (by rintro _ ⟨⟩) (by simp)) hlink
  refine ⟨?_, .refl _, by simp [hlink.neat, hsession.neat]⟩
  simp only [option_bind_some, ensure_eq_some]
  exact ⟨_, hsession.read, _, rfl, _, hbasis.read, _, hlink.read, hvalid, rfl⟩

lemma codec_sessionState :
    Codec SafeInt sessionStateOfJson (fun s => .obj [("state", .str s.name)]) 1 := by
  refine codec_record (by decide) fun fields s hints h => ⟨?_, .refl _, by simp⟩
  exact (required_printed (codec_name _ sessionStateName_injective) hints h).read

lemma codec_createArena : Codec SafeInt CreateArena.ofJson CreateArena.toJson 1 := by
  refine codec_record (by decide) fun fields c hints h => ?_
  simp only [option_bind_some, ensure_eq_some] at h
  obtain ⟨id, -, title, -, description, -, hvalid, rfl⟩ := h
  refine ⟨?_, .refl _, by simp⟩
  simp only [option_bind_some, ensure_eq_some]
  exact ⟨_, rfl, _, rfl, _, rfl, hvalid, rfl⟩

lemma codec_arenaChanges : Codec SafeInt ArenaChanges.ofJson ArenaChanges.toJson 1 := by
  refine codec_record (by decide) fun fields c hints h => ?_
  simp only [option_bind_some, ensure_eq_some] at h
  obtain ⟨title, htitle, description, hdescription, hvalid, rfl⟩ := h
  have htitle := given_printed codec_str hints htitle
  have hdescription := given_printed codec_str hints hdescription
  refine ⟨?_, dumped_append_names "description" Json.str description
    (dumped_names "title" Json.str title), ?_⟩
  · simp only [option_bind_some, ensure_eq_some]
    refine ⟨title, ?_, description, ?_, hvalid, rfl⟩
    · rw [given_dumped_of_ne (by decide), ← List.append_nil (dumped "title" Json.str title),
        given_dumped htitle rfl]
    · exact given_dumped hdescription (member_eq_none (dumped_names "title" _ _) (by decide))
  · intro field hfield
    rcases List.mem_append.1 hfield with hfield | hfield <;>
      rcases mem_dumped hfield with ⟨a, ha, rfl⟩ <;> exact neat_str a

lemma codec_membership : Codec SafeInt Membership.ofJson Membership.toJson 2 := by
  refine codec_record (by decide) fun fields m hints h => ?_
  simp only [option_bind_some, Option.pure_def] at h
  obtain ⟨previous, hprevious, arena, harena, heq⟩ := h
  cases heq
  have hprevious := required_printed codec_arenaReference_nullable hints hprevious
  have harena := required_printed codec_arenaReference_nullable hints harena
  refine ⟨?_, .refl _, by simp [hprevious.neat, harena.neat]⟩
  simp only [option_bind_some]
  exact ⟨_, hprevious.read, _, harena.read, rfl⟩

end DevGraph.Proofs
