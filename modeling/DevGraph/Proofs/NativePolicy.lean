import DevGraph.Proofs.WriteScope
import DevGraph.Work.NativePolicy
import Mathlib.Data.List.TakeWhile

/-!
# Native write policies

The finite scan of a policy's rules speaks for every resource and every second of a draft. The
policy that a draft is compiled to admits the draft and nothing else.
-/

namespace DevGraph.Proofs

open Lib Work

variable {w : WireRule}

variable {rule : NativeRule} {key : Key} {t : Nat}

lemma containedBy_refl (v : GrantValidity) : v.containedBy v = true := by
  cases hlast : v.notAfter <;> simp [GrantValidity.containedBy, hlast]

lemma meets_of_inside {v : GrantValidity} (hv : Inside v t) (hrule : Inside rule.validity t) :
    rule.meets v = true := by
  simp only [NativeRule.meets, Bool.and_eq_true, Option.all_eq_true, decide_eq_true_eq]
  exact ⟨fun last hlast => hrule.1.trans_lt (hv.2 last hlast),
    fun last hlast => hv.1.trans_lt (hrule.2 last hlast)⟩

/-- The text of a whole kind begins the resources of the kind and no other ones. -/
lemma kind_begins_iff {kind : Label} :
    (resource (kind, "")).toList <+: (resource key).toList ↔ kind = key.1 := by
  constructor
  · rintro ⟨rest, hrest⟩
    have htext : resource (kind, String.ofList rest) = resource key := by
      rw [← String.toList_inj, ← hrest]
      simp [resource_toList]
    exact congrArg Prod.fst (resource_injective htext)
  · rintro rfl
    exact ⟨key.2.toList, by simp [resource_toList]⟩

lemma slash_mem_native {s : String} (h : isNativeResource s = true) : '/' ∈ s.toList := by
  simp only [isNativeResource, Bool.and_eq_true, Bool.not_eq_true', List.isEmpty_eq_false_iff] at h
  by_contra hmem
  apply h.1.2
  rw [List.dropWhile_eq_nil_iff]
  intro c hc
  rw [decide_eq_true_eq]
  rintro rfl
  exact hmem hc

/-- A text with a slash that begins a resource begins with the whole kind. -/
lemma kind_begins_of_native {text : List Char} (hslash : '/' ∈ text)
    (h : text <+: (resource key).toList) : (resource (key.1, "")).toList <+: text := by
  have hkind : (resource (key.1, "")).toList <+: (resource key).toList := kind_begins_iff.2 rfl
  obtain hbegins | ⟨rest, hrest⟩ := List.prefix_or_prefix_of_prefix hkind h
  · exact hbegins
  · -- the text is within the kind and its slash, and has the slash
    cases rest using List.reverseRec with
    | nil => rw [← hrest, List.append_nil]
    | append_singleton rest last _ =>
      rw [← List.append_assoc, resource_toList] at hrest
      change _ = key.1.name.toList ++ ['/'] at hrest
      have hname := (List.append_inj' hrest rfl).1
      exact absurd (hname ▸ List.mem_append_left rest hslash) (slash_notMem_label key.1)

def Matches (rule : NativeRule) (key : Key) : Prop :=
  match rule.resourceMatch with
  | .exact => rule.resource = resource key
  | .byPrefix => rule.resource.toList <+: (resource key).toList

/-- The rule is active, of the holder and of the operation, is about the resource and is valid at
the second. -/
def Speaks (rule : NativeRule) (actor operation : String) (key : Key) (t : Nat) : Prop :=
  rule.considered actor operation = true ∧ Matches rule key ∧ Inside rule.validity t

/-- The seconds at which the holder may do the operation on the resource. -/
structure Admits (p : NativeWritePolicy) (actor operation : String) (key : Key) (t : Nat) :
    Prop where
  allowed : ∃ rule ∈ p.rules, rule.effect = .allow ∧ Speaks rule actor operation key t
  undenied : ∀ rule ∈ p.rules, rule.effect = .deny →
    ¬ Speaks rule actor operation key t

/-- A selection of one resource, or of all of its kind. -/
def Selects (kind : Label) (identifier : Option String) (key : Key) : Prop :=
  key.1 = kind ∧ ∀ id ∈ identifier, key.2 = id

lemma names_iff {r : WriteResource} :
    r.names key = true ↔ ∃ identifier ∈ r.selections, Selects r.kind identifier key := by
  unfold WriteResource.names WriteResource.selections Selects
  cases r.ids with
  | none => simp [eq_comm (a := r.kind)]
  | some ids => simp [eq_comm (a := r.kind), and_comm]

lemma matches_of_covers {kind : Label} {identifier : Option String}
    (h : rule.covers kind identifier = true) (hkey : Selects kind identifier key) :
    Matches rule key := by
  obtain ⟨rfl, hid⟩ := hkey
  unfold Matches
  cases identifier with
  | none =>
    simp only [NativeRule.covers, Option.isSome_none, Bool.false_eq_true, if_false,
      Option.getD_none, Bool.false_and, Bool.or_false, Bool.and_eq_true, decide_eq_true_eq] at h
    rw [h.1, h.2]
    exact kind_begins_iff.2 rfl
  | some id =>
    have hselected : resource (key.1, id) = resource key := by rw [← hid id rfl]
    simp only [NativeRule.covers, Option.isSome_some, if_true, Option.getD_some, hselected,
      Bool.true_and, Bool.or_eq_true, Bool.and_eq_true, decide_eq_true_eq,
      List.isPrefixOf_iff_prefix] at h
    cases hmatch : rule.resourceMatch with
    | exact => exact h.resolve_left fun hpre => by simp [hmatch] at hpre
    | byPrefix =>
      obtain hpre | heq := h
      · exact hpre.2
      · exact heq ▸ List.prefix_rfl

lemma overlaps_of_matches {kind : Label} {identifier : Option String}
    (h : Matches rule key) (hkey : Selects kind identifier key) :
    rule.overlaps kind identifier = true := by
  obtain ⟨rfl, hid⟩ := hkey
  have hbegins : rule.resource.toList <+: (resource key).toList := by
    unfold Matches at h
    split at h
    · rw [h]
    · exact h
  cases identifier with
  | none =>
    have hkind := kind_begins_of_native (slash_mem_native rule.resource_valid.1) hbegins
    simp [NativeRule.overlaps, List.isPrefixOf_iff_prefix, hkind]
  | some id =>
    have hselected : resource (key.1, id) = resource key := by rw [← hid id rfl]
    unfold Matches at h
    cases hmatch : rule.resourceMatch with
    | exact =>
      rw [hmatch] at h
      simp [NativeRule.overlaps, NativeRule.covers, hselected, h]
    | byPrefix =>
      simp [NativeRule.overlaps, NativeRule.covers, hselected, hmatch, List.isPrefixOf_iff_prefix,
        hbegins]

/-! ## The scan -/

section Scan

variable {p : NativeWritePolicy} {v : GrantValidity} {actor operation : String} {kind : Label}
  {identifier : Option String}

def Vetoes (v : GrantValidity) (actor operation : String) (kind : Label)
    (identifier : Option String) (rule : NativeRule) : Prop :=
  rule.considered actor operation = true ∧ rule.effect = .deny ∧
    rule.overlaps kind identifier = true ∧ rule.meets v = true

/-- The rule allows the whole selection, at all seconds of the draft. -/
def Allows (v : GrantValidity) (actor operation : String) (kind : Label)
    (identifier : Option String) (rule : NativeRule) : Prop :=
  rule.considered actor operation = true ∧ rule.effect = .allow ∧
    rule.covers kind identifier = true ∧ v.containedBy rule.validity = true

instance : DecidablePred (Vetoes v actor operation kind identifier) := fun _ =>
  inferInstanceAs (Decidable (_ ∧ _))

instance : DecidablePred (Allows v actor operation kind identifier) := fun _ =>
  inferInstanceAs (Decidable (_ ∧ _))

lemma consult_eq (noted : Bool) (rule : NativeRule) :
    NativeWritePolicy.consult v actor operation kind identifier noted rule =
      if Vetoes v actor operation kind identifier rule then .error nativeAdmissionRequired
      else .ok (noted || decide (Allows v actor operation kind identifier rule)) := by
  by_cases hconsidered : rule.considered actor operation = true
  · by_cases hveto : Vetoes v actor operation kind identifier rule
    · simp [NativeWritePolicy.consult, hconsidered, hveto.2, raiseIf, if_pos hveto, bind,
        Except.bind, throw, throwThe, MonadExceptOf.throw]
    · have hpass : ¬ (rule.effect = .deny ∧ rule.overlaps kind identifier = true ∧
          rule.meets v = true) := fun h => hveto ⟨hconsidered, h⟩
      simp [NativeWritePolicy.consult, hconsidered, raiseIf, if_neg hpass, if_neg hveto, Allows,
        bind, Except.bind, pure, Except.pure, Bool.and_assoc]
  · have hveto : ¬ Vetoes v actor operation kind identifier rule := fun h => hconsidered h.1
    simp [NativeWritePolicy.consult, Bool.not_eq_true _ ▸ hconsidered, if_neg hveto, Allows, pure,
      Except.pure]

lemma admitSelection_iff : p.admitSelection v actor operation kind identifier = .ok () ↔
    (∀ rule ∈ p.rules, ¬ Vetoes v actor operation kind identifier rule) ∧
      ∃ rule ∈ p.rules, Allows v actor operation kind identifier rule := by
  simp only [NativeWritePolicy.admitSelection, except_ok, foldlM_scan consult_eq, Bool.false_or]
  simp

/-- The scan speaks for all resources of the selection and all seconds of the draft. -/
lemma admits_of_scan (h : p.admitSelection v actor operation kind identifier = .ok ())
    (hkey : Selects kind identifier key) (ht : Inside v t) : Admits p actor operation key t := by
  obtain ⟨hveto, rule, hrule, hconsidered, heffect, hcovers, hvalid⟩ := admitSelection_iff.1 h
  refine ⟨⟨rule, hrule, heffect, hconsidered, matches_of_covers hcovers hkey, ht.mono hvalid⟩, ?_⟩
  rintro deny hdeny heffect ⟨hconsidered, hmatches, hinside⟩
  exact hveto deny hdeny
    ⟨hconsidered, heffect, overlaps_of_matches hmatches hkey, meets_of_inside ht hinside⟩

end Scan

section Holder

variable {sha256 : List UInt8 → Vector UInt8 32} {p : NativeWritePolicy} {draft : AccessDraft}

lemma require_iff : p.require sha256 draft = .ok () ↔
    ∃ subject, draft.subjectPublicKey = some subject ∧
      ∀ grant ∈ draft.writeGrants, ∀ r ∈ grant.resources, ∀ identifier ∈ r.selections,
        p.admitSelection draft.validity (actorId sha256 subject) grant.operation r.kind identifier =
          .ok () := by
  unfold NativeWritePolicy.require
  cases draft.subjectPublicKey with
  | none => simp [throw, throwThe, MonadExceptOf.throw]
  | some subject =>
    simp only [Option.some.injEq, exists_eq_left']
    constructor
    · intro h grant hgrant r hr identifier hidentifier
      exact forM_ok (forM_ok (forM_ok h grant hgrant) r hr) identifier hidentifier
    · intro h
      exact forM_eq_ok fun grant hgrant => forM_eq_ok fun r hr => forM_eq_ok (h grant hgrant r hr)

/-! ## Compilation -/

lemma hexDigit_lower {n : Nat} (hn : n < 16) :
    (isDigit (hexDigit n) || ('a' ≤ hexDigit n && hexDigit n ≤ 'f')) = true := by
  revert n
  decide

lemma isActorId_actorId (subject : String) : isActorId (actorId sha256 subject) = true := by
  have hlist : (actorId sha256 subject).toList = "pubkey:sha256:".toList ++
      (sha256 (bytesFromHex subject.toList)).toList.flatMap fun b =>
        [hexDigit (b.toNat / 16), hexDigit (b.toNat % 16)] := by
    simp [actorId, hexdigest]
  have hbeginning : "pubkey:sha256:".toList.length = 14 := by decide
  simp only [isActorId, hlist, List.take_left' hbeginning, List.drop_left' hbeginning, decide_true,
    Bool.true_and, Bool.and_eq_true, decide_eq_true_eq, List.all_eq_true, List.mem_flatMap]
  refine ⟨by simp [List.length_flatMap], ?_⟩
  rintro c ⟨b, -, hc⟩
  have hb : b.toNat < 256 := b.toNat_lt
  simp only [List.mem_cons, List.not_mem_nil, or_false] at hc
  obtain rfl | rfl := hc
  · exact hexDigit_lower (by omega)
  · exact hexDigit_lower (by omega)

lemma toJson_canonical (w : WireRule) : w.toJson.Canonical fun _ => True := by
  refine ⟨?_, ?_⟩
  · cases w.notAfter <;> simp [FieldsCanonical, Json.Canonical]
  · simp only [List.map_cons, List.map_nil]
    decide

lemma toJson_injective {w' : WireRule} (h : w.toJson = w'.toJson) : w = w' := by
  obtain ⟨actor, effect, status, operation, text, how, first, last⟩ := w
  obtain ⟨actor', effect', status', operation', text', how', first', last'⟩ := w'
  simp only [WireRule.toJson, Json.obj.injEq, List.cons.injEq, Prod.mk.injEq, Json.str.injEq,
    Json.int.injEq, Nat.cast_inj, true_and, and_true] at h
  obtain ⟨rfl, heffect, hlast, rfl, rfl, rfl, hhow, hstatus⟩ := h
  have hlast : last = last' := by
    cases last <;> cases last' <;> simp_all
  have heffect : effect = effect' := by
    revert heffect
    cases effect <;> cases effect' <;> decide
  have hstatus : status = status' := by
    revert hstatus
    cases status <;> cases status' <;> decide
  have hhow : how = how' := by
    revert hhow
    cases how <;> cases how' <;> decide
  rw [hlast, heffect, hstatus, hhow]

lemma text_injective {w' : WireRule} (h : w.text = w'.text) : w = w' := by
  have hread : ∀ w : WireRule, w.toJson.Readable plainJson := fun w =>
    readable_of_canonical (fun _ _ => rfl) _ (toJson_canonical w)
  have hvalue := dumps_injective plainJson false (hread w) (hread w') (String.toList_inj.1 h)
  rw [sortKeys_of_canonical _ (toJson_canonical w),
    sortKeys_of_canonical _ (toJson_canonical w')] at hvalue
  exact toJson_injective hvalue

lemma mem_kept {rules : List WireRule} :
    w ∈ (((rules.map WireRule.text).dedup).insertionSort (· ≤ ·)).filterMap
      (fun text => (rules.map fun w => (w.text, w)).reverse.lookup text) ↔ w ∈ rules := by
  have hpair : ∀ text w', (rules.map fun w => (w.text, w)).reverse.lookup text = some w' →
      w' ∈ rules ∧ w'.text = text := by
    intro text w' hlookup
    obtain ⟨before, after, hsplit, -⟩ := List.lookup_eq_some_iff.1 hlookup
    have hmem : (text, w') ∈ (rules.map fun w => (w.text, w)).reverse := by
      rw [hsplit]
      simp
    simp only [List.mem_reverse, List.mem_map, Prod.mk.injEq] at hmem
    obtain ⟨_, hw, htext, rfl⟩ := hmem
    exact ⟨hw, htext⟩
  simp only [List.mem_filterMap, List.mem_insertionSort, List.mem_dedup, List.mem_map]
  constructor
  · rintro ⟨text, -, hlookup⟩
    exact (hpair text w hlookup).1
  · intro hw
    refine ⟨w.text, ⟨w, hw, rfl⟩, ?_⟩
    cases hlookup : (rules.map fun w => (w.text, w)).reverse.lookup w.text with
    | none =>
      rw [List.lookup_eq_none_iff] at hlookup
      have hne := hlookup (w.text, w) (by simpa using hw)
      simp at hne
    | some w' => rw [text_injective (hpair _ _ hlookup).2]

structure Asked (draft : AccessDraft) (grant : ScopedWriteGrant) (r : WriteResource)
    (identifier : Option String) : Prop where
  mem_grants : grant ∈ draft.writeGrants
  mem_resources : r ∈ grant.resources
  mem_selections : identifier ∈ r.selections

lemma mem_compileRules {actor : String} :
    w ∈ compileRules actor draft ↔ ∃ grant r identifier, Asked draft grant r identifier ∧
      w = compiledRule actor draft grant r identifier := by
  simp only [compileRules, List.mem_flatMap, List.mem_map]
  constructor
  · rintro ⟨grant, hgrant, r, hr, identifier, hidentifier, rfl⟩
    exact ⟨grant, r, identifier, ⟨hgrant, hr, hidentifier⟩, rfl⟩
  · rintro ⟨grant, r, identifier, ⟨hgrant, hr, hidentifier⟩, rfl⟩
    exact ⟨grant, hgrant, r, hr, identifier, hidentifier, rfl⟩

/-- The selections of a resource are all ids of its own, or the whole kind alone. -/
lemma mem_selections {r : WriteResource} {identifier : Option String}
    (h : identifier ∈ r.selections) :
    (r.ids = none ∧ identifier = none) ∨
      ∃ id, r.ids.isSome = true ∧ identifier = some id ∧ isWorkObjectId id = true := by
  unfold WriteResource.selections at h
  cases hids : r.ids with
  | none =>
    rw [hids] at h
    exact .inl ⟨rfl, List.mem_singleton.1 h⟩
  | some ids =>
    rw [hids] at h
    obtain ⟨id, hid, rfl⟩ := List.mem_map.1 h
    exact .inr ⟨id, rfl, rfl, (r.ids_valid ids hids).2.2.2 id hid⟩

lemma isNativeResource_resource {kind : Label} {id : String} (hkind : kind ∈ resourceKinds)
    (hid : ∀ c ∈ id.toList, (isLowerAlnum c || c = '-') = true) :
    isNativeResource (resource (kind, id)) = true := by
  have hall : (kind.name.toList.all fun c =>
      'A' ≤ c && c ≤ 'Z' || 'a' ≤ c && c ≤ 'z') = true := by
    revert kind
    decide
  have hletters : kind.name.toList ≠ [] ∧ ∀ c ∈ kind.name.toList,
      ('A' ≤ c && c ≤ 'Z' || 'a' ≤ c && c ≤ 'z') = true :=
    ⟨by cases kind <;> decide, List.all_eq_true.1 hall⟩
  simp only [isNativeResource, (cut_resource (kind, id)).1, (cut_resource (kind, id)).2,
    List.tail_cons, List.isEmpty_cons, Bool.not_false, Bool.and_true, Bool.and_eq_true,
    Bool.not_eq_true', List.isEmpty_eq_false_iff]
  exact ⟨⟨hletters.1, List.all_eq_true.2 hletters.2⟩, List.all_eq_true.2 hid⟩

lemma validated_fields (h : NativeRule.validated w = .ok rule) :
    rule.actorId = w.actorId ∧ rule.effect = w.effect ∧ rule.status = w.status ∧
      rule.operation = w.operation ∧ rule.resource = w.resource ∧
      rule.resourceMatch = w.resourceMatch ∧ rule.validity.notBefore = w.notBefore ∧
      rule.validity.notAfter = w.notAfter := by
  unfold NativeRule.validated at h
  split at h
  · cases h
    exact ⟨rfl, rfl, rfl, rfl, rfl, rfl, rfl, rfl⟩
  · cases h

section Compiled

variable {subject : String} {grant : ScopedWriteGrant} {r : WriteResource}
  {identifier : Option String}

lemma compiledRule_validated (hdated : draft.validity.notAfter ≠ none)
    (hasked : Asked draft grant r identifier) :
    ∃ rule, NativeRule.validated
      (compiledRule (actorId sha256 subject) draft grant r identifier) = .ok rule := by
  have hoperation : 1 ≤ grant.operation.length ∧ grant.operation.length ≤ 128 := by
    have hall : ∀ op ∈ writeOperations, 1 ≤ op.length ∧ op.length ≤ 128 := by decide +kernel
    exact hall _ grant.supported
  have hname : r.kind.name.length ≤ 20 := by
    have hall : ∀ kind ∈ resourceKinds, kind.name.length ≤ 20 := by decide
    exact hall _ r.kind_known
  have hlength : ∀ id : String,
      (resource (r.kind, id)).length = r.kind.name.length + 1 + id.length := by
    intro id
    rw [resource, String.length_append, String.length_append]
    rfl
  refine ⟨_, dif_pos ⟨isActorId_actorId subject, hoperation, ⟨?_, ?_⟩, ?_, draft.validity.bounded,
    hdated⟩⟩
  all_goals
    simp only [compiledRule]
    obtain ⟨hids, rfl⟩ | ⟨id, hids, rfl, hid⟩ := mem_selections hasked.mem_selections
  · exact isNativeResource_resource r.kind_known (by simp)
  · exact isNativeResource_resource r.kind_known (workObjectId_chars hid).1
  · rw [hlength]
    simp
    omega
  · have := (workObjectId_chars hid).2.1
    rw [hlength, Option.getD_some]
    omega
  · simp [hids]
  · intro _
    obtain ⟨last, hlast, hslash⟩ := (workObjectId_chars hid).2.2
    have hend : (resource (r.kind, id)).toList.getLast? = some last := by
      rw [resource_toList, List.getLast?_append, List.getLast?_cons, hlast]
      rfl
    rw [Option.getD_some, hend]
    simpa using hslash

/-- A compiled rule is about the selection, for the holder, at the seconds of the draft. -/
lemma speaks_compiled {actor operation : String} (hasked : Asked draft grant r identifier)
    (h : NativeRule.validated (compiledRule (actorId sha256 subject) draft grant r identifier) =
      .ok rule) :
    Speaks rule actor operation key t ↔ actor = actorId sha256 subject ∧
      grant.operation = operation ∧ Selects r.kind identifier key ∧ Inside draft.validity t := by
  obtain ⟨hactor, -, hstatus, hoperation, hresource, hmatch, hfirst, hlast⟩ := validated_fields h
  have hconsidered : rule.considered actor operation = true ↔
      actor = actorId sha256 subject ∧ grant.operation = operation := by
    simp [NativeRule.considered, hactor, hstatus, hoperation, compiledRule, eq_comm (b := actor)]
  have hinside : Inside rule.validity t ↔ Inside draft.validity t := by
    rw [Inside, Inside, hfirst, hlast]
    exact Iff.rfl
  have hmatches : Matches rule key ↔ Selects r.kind identifier key := by
    rw [Matches, hmatch, hresource]
    simp only [compiledRule, Selects]
    obtain ⟨hids, rfl⟩ | ⟨id, hids, rfl, -⟩ := mem_selections hasked.mem_selections
    · simp only [hids, Option.isSome_none, Bool.false_eq_true, if_false, Option.getD_none,
        kind_begins_iff]
      simp [eq_comm]
    · simp only [hids, if_true, Option.getD_some, resource_injective.eq_iff]
      simp [Prod.ext_iff, eq_comm]
  rw [Speaks, hconsidered, hmatches, hinside]
  tauto

lemma allows_compiled (hasked : Asked draft grant r identifier)
    (h : NativeRule.validated (compiledRule (actorId sha256 subject) draft grant r identifier) =
      .ok rule) :
    Allows draft.validity (actorId sha256 subject) grant.operation r.kind identifier rule := by
  rcases validated_fields h with
    ⟨hactor, heffect, hstatus, hoperation, hresource, hmatch, hfirst, hlast⟩
  have hvalidity : rule.validity = draft.validity := by
    cases hrule : rule.validity
    cases hdraft : draft.validity
    simp_all [compiledRule]
  refine ⟨?_, heffect, ?_, ?_⟩
  · simp [NativeRule.considered, hactor, hstatus, hoperation, compiledRule]
  · obtain ⟨hids, rfl⟩ | ⟨id, hids, rfl, -⟩ := mem_selections hasked.mem_selections
    · simp [NativeRule.covers, hmatch, hresource, compiledRule, hids]
    · simp [NativeRule.covers, hresource, compiledRule]
  · rw [hvalidity]
    exact containedBy_refl _

end Compiled

variable {wire : WirePolicy}

lemma compileWrite_ok {policyId : String} {version : Int}
    (h : compileWrite sha256 draft policyId version = .ok wire) :
    ∃ subject, draft.subjectPublicKey = some subject ∧ draft.writeGrants ≠ [] ∧
      isPolicyId policyId = true ∧ (1 ≤ version ∧ version ≤ maxSafeInteger) ∧
      wire.rules.length ≤ 512 ∧
      (∀ w, w ∈ wire.rules ↔ w ∈ compileRules (actorId sha256 subject) draft) ∧
      wire = ⟨"secs-devgraph-work-policy.v1", 1, draft.writeAudience, policyId, version,
        wire.rules⟩ := by
  unfold compileWrite at h
  cases hsubject : draft.subjectPublicKey with
  | none =>
    rw [hsubject] at h
    simp only [except_bind_ok] at h
    obtain ⟨_, -, hraise⟩ := h
    cases hraise
  | some subject =>
    simp only [hsubject, except_ok, not_or, not_not, Bool.not_eq_false] at h
    obtain ⟨_, -, _, -, _, ⟨hid, hversion⟩, _, hgrants, _, hcount, rfl⟩ := h
    refine ⟨subject, rfl, hgrants, hid, hversion, ?_, fun w => mem_kept, rfl⟩
    refine (List.length_filterMap_le _ _).trans ?_
    rw [List.length_insertionSort]
    omega

lemma policy_of_rules {rules : List NativeRule}
    (hrules : wire.rules.mapM NativeRule.validated = .ok rules)
    (hvalid : wire.schema = "secs-devgraph-work-policy.v1" ∧ wire.schemaVersion = 1 ∧
      wire.audience = "devgraph://receiver-local" ∧ isPolicyId wire.policyId = true ∧
      (1 ≤ wire.policyVersion ∧ wire.policyVersion ≤ maxSafeInteger) ∧
      (1 ≤ rules.length ∧ rules.length ≤ 1000)) :
    ∃ p, NativeWritePolicy.validated wire = .ok p ∧ p.rules = rules := by
  unfold NativeWritePolicy.validated
  split
  · rename_i e herror
    rw [hrules] at herror
    cases herror
  · rename_i found hfound
    rw [hrules] at hfound
    cases hfound
    exact ⟨_, dif_pos hvalid, rfl⟩

/-- The compiled policy is valid, and its rules are those of the selections of the draft. -/
lemma compiled_policy {policyId : String} {version : Int}
    (hdated : draft.validity.notAfter ≠ none)
    (h : compileWrite sha256 draft policyId version = .ok wire) :
    ∃ subject p, draft.subjectPublicKey = some subject ∧ NativeWritePolicy.validated wire = .ok p ∧
      ∀ rule, rule ∈ p.rules ↔ ∃ grant r identifier, Asked draft grant r identifier ∧
        NativeRule.validated (compiledRule (actorId sha256 subject) draft grant r identifier) =
          .ok rule := by
  rcases compileWrite_ok h with
    ⟨subject, hsubject, hgrants, hid, hversion, hcount, hmem, hwire⟩
  have hall : ∀ w ∈ wire.rules, ∃ rule, NativeRule.validated w = .ok rule := by
    intro w hw
    obtain ⟨grant, r, identifier, hasked, rfl⟩ := mem_compileRules.1 ((hmem w).1 hw)
    exact compiledRule_validated hdated hasked
  obtain ⟨rules, hrules⟩ := mapM_exists hall
  have hlength : rules.length = wire.rules.length := (mapM_ok hrules).length_eq.symm
  have hnonempty : wire.rules ≠ [] := by
    obtain ⟨grant, hgrant⟩ := List.exists_mem_of_ne_nil _ hgrants
    obtain ⟨r, hr⟩ := List.exists_mem_of_ne_nil _ grant.resources_distinct.1
    have hselection : ∃ identifier, identifier ∈ r.selections := by
      unfold WriteResource.selections
      cases hids : r.ids with
      | none => exact ⟨none, List.mem_singleton.2 rfl⟩
      | some ids =>
        obtain ⟨id, hid⟩ := List.exists_mem_of_ne_nil _ (r.ids_valid ids hids).1
        exact ⟨some id, List.mem_map_of_mem hid⟩
    obtain ⟨identifier, hidentifier⟩ := hselection
    exact List.ne_nil_of_mem ((hmem _).2 (mem_compileRules.2
      ⟨grant, r, identifier, ⟨hgrant, hr, hidentifier⟩, rfl⟩))
  have hpos := List.length_pos_iff.2 hnonempty
  rcases policy_of_rules hrules (by
      rw [hwire]
      exact ⟨rfl, rfl, draft.audience_local, hid, hversion, by omega, by omega⟩) with
    ⟨p, hp, rfl⟩
  refine ⟨subject, p, hsubject, hp, ?_⟩
  intro rule
  constructor
  · intro hrule
    obtain ⟨w, hw, hvalidated⟩ := mem_mapM hrules hrule
    obtain ⟨grant, r, identifier, hasked, rfl⟩ := mem_compileRules.1 ((hmem w).1 hw)
    exact ⟨grant, r, identifier, hasked, hvalidated⟩
  · rintro ⟨grant, r, identifier, hasked, hvalidated⟩
    rcases mapM_of_mem hrules ((hmem _).2 (mem_compileRules.2
      ⟨grant, r, identifier, hasked, rfl⟩)) with ⟨found, hfound, heq⟩
    rw [hvalidated] at heq
    cases heq
    exact hfound

/-- The seconds, operations and resources that a draft grants. -/
def Grants (draft : AccessDraft) (operation : String) (key : Key) (t : Nat) : Prop :=
  Inside draft.validity t ∧
    ∃ grant ∈ draft.writeGrants, grant.operation = operation ∧ grant.names key = true

lemma grants_iff {operation : String} : Grants draft operation key t ↔
    ∃ grant r identifier, Asked draft grant r identifier ∧ grant.operation = operation ∧
      Selects r.kind identifier key ∧ Inside draft.validity t := by
  simp only [Grants, ScopedWriteGrant.names, List.any_eq_true, names_iff]
  constructor
  · rintro ⟨ht, grant, hgrant, hoperation, r, hr, identifier, hidentifier, hselects⟩
    exact ⟨grant, r, identifier, ⟨hgrant, hr, hidentifier⟩, hoperation, hselects, ht⟩
  · rintro ⟨grant, r, identifier, ⟨hgrant, hr, hidentifier⟩, hoperation, hselects, ht⟩
    exact ⟨ht, grant, hgrant, hoperation, r, hr, identifier, hidentifier, hselects⟩

end Holder

/-- A policy that accepts a draft admits all that the draft grants, at every second and on every
resource. The policy that a dated draft is compiled to accepts the draft and admits nothing more. -/
theorem native_admission (sha256 : List UInt8 → Vector UInt8 32) :
    (∀ (p : NativeWritePolicy) (draft : AccessDraft), p.require sha256 draft = .ok () →
      ∃ subject, draft.subjectPublicKey = some subject ∧ ∀ operation key t,
        Grants draft operation key t → Admits p (actorId sha256 subject) operation key t) ∧
    ∀ (draft : AccessDraft) (policyId : String) (version : Int) (wire : WirePolicy),
      draft.validity.notAfter ≠ none → compileWrite sha256 draft policyId version = .ok wire →
      ∃ subject p, draft.subjectPublicKey = some subject ∧
        NativeWritePolicy.validated wire = .ok p ∧ p.require sha256 draft = .ok () ∧
        ∀ actor operation key t, Admits p actor operation key t ↔
          actor = actorId sha256 subject ∧ Grants draft operation key t := by
  refine ⟨?_, ?_⟩
  · intro p draft h
    obtain ⟨subject, hsubject, hselections⟩ := require_iff.1 h
    refine ⟨subject, hsubject, ?_⟩
    intro operation key t hgrants
    obtain ⟨grant, r, identifier, hasked, rfl, hselects, ht⟩ := grants_iff.1 hgrants
    exact admits_of_scan (hselections grant hasked.mem_grants r hasked.mem_resources identifier
      hasked.mem_selections) hselects ht
  · intro draft policyId version wire hdated h
    obtain ⟨subject, p, hsubject, hp, hrules⟩ := compiled_policy hdated h
    have hallow : ∀ rule ∈ p.rules, rule.effect = .allow := by
      intro rule hrule
      obtain ⟨_, _, _, -, hvalidated⟩ := (hrules rule).1 hrule
      exact (validated_fields hvalidated).2.1
    have hvalidated : ∀ grant r identifier, Asked draft grant r identifier → ∃ rule,
        NativeRule.validated (compiledRule (actorId sha256 subject) draft grant r identifier) =
          .ok rule := fun grant r identifier hasked => compiledRule_validated hdated hasked
    refine ⟨subject, p, hsubject, hp, ?_, ?_⟩
    · refine require_iff.2 ⟨subject, hsubject, ?_⟩
      intro grant hgrant r hr identifier hidentifier
      have hasked : Asked draft grant r identifier := ⟨hgrant, hr, hidentifier⟩
      obtain ⟨rule, hrule⟩ := hvalidated grant r identifier hasked
      refine admitSelection_iff.2 ⟨?_, rule, (hrules rule).2 ⟨grant, r, identifier, hasked, hrule⟩,
        allows_compiled hasked hrule⟩
      intro other hother hveto
      have hdeny := hveto.2.1
      rw [hallow other hother] at hdeny
      cases hdeny
    · intro actor operation key t
      rw [grants_iff]
      constructor
      · rintro ⟨⟨rule, hrule, -, hspeaks⟩, -⟩
        obtain ⟨grant, r, identifier, hasked, hcompiled⟩ := (hrules rule).1 hrule
        obtain ⟨hactor, hrest⟩ := (speaks_compiled hasked hcompiled).1 hspeaks
        exact ⟨hactor, grant, r, identifier, hasked, hrest⟩
      · rintro ⟨rfl, grant, r, identifier, hasked, hrest⟩
        obtain ⟨rule, hrule⟩ := hvalidated grant r identifier hasked
        refine ⟨⟨rule, (hrules rule).2 ⟨grant, r, identifier, hasked, hrule⟩,
          (validated_fields hrule).2.1, (speaks_compiled hasked hrule).2 ⟨rfl, hrest⟩⟩, ?_⟩
        intro other hother hdeny
        rw [hallow other hother] at hdeny
        cases hdeny

/-- A draft that grants the archiving of every Arena for a thousand seconds. -/
def archiveDraft : AccessDraft where
  issuer := "issuer"
  receiver := "receiver"
  writeAudience := "devgraph://receiver-local"
  subjectPublicKey := some (String.ofList (List.replicate 64 'a'))
  installationId := none
  validity := ⟨0, some 1000, by decide⟩
  lifetimeSeconds := 60
  readGrants := []
  writeGrants := [anyArena]
  previousDigest := none
  audience_local := rfl
  key_valid := by simpa using (by decide)
  installation_valid := by simp
  installation_bound := by simp
  lifetime_bounded := by decide
  granted := .inr (by simp)
  reads_valid := by simp
  writes_distinct := by simp

def firstByte (bytes : List UInt8) : Vector UInt8 32 := .replicate 32 (bytes.headD 0)

theorem native_admission_archive :
    ∃ wire p subject, compileWrite firstByte archiveDraft "policy" 1 = .ok wire ∧
      NativeWritePolicy.validated wire = .ok p ∧ p.require firstByte archiveDraft = .ok () ∧
      ∀ t, Admits p (actorId firstByte subject) "devgraph.arena.archive.v1" (.arena, "a") t ↔
        t < 1000 := by
  obtain ⟨wire, hwire, -⟩ := exists_ok_of (P := fun _ => True)
    (r := compileWrite firstByte archiveDraft "policy" 1) (by decide +kernel)
  obtain ⟨subject, p, -, hp, hrequire, hadmits⟩ :=
    (native_admission firstByte).2 archiveDraft _ _ wire (by decide) hwire
  have hgrant : anyArena.operation = "devgraph.arena.archive.v1" ∧
      anyArena.names (.arena, "a") = true := ⟨rfl, rfl⟩
  refine ⟨wire, p, subject, hwire, hp, hrequire, fun t => ?_⟩
  simp [hadmits, Grants, Inside, archiveDraft, hgrant]

end DevGraph.Proofs
