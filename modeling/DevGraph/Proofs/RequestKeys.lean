import DevGraph.Proofs.DelegatedRead
import DevGraph.Work.WriteScope

/-!
# The resources of a request

An accepted request names Work under valid ids only: its subject, its references and the Issue of
a conversion. The ids that are derived from digests belong to session records.
-/

namespace DevGraph.Proofs

open Lib Work

variable {v : Json}

def Named (key : Key) : Prop := key.1 ∈ todoKinds → isWorkObjectId key.2 = true

lemma workReference_ofJson {r : WorkReference} (h : WorkReference.ofJson v = some r) :
    isWorkObjectId r.id = true := by
  simp only [WorkReference.ofJson, Option.bind_eq_bind, Option.bind_eq_some_iff, required,
    asIdentifier, ensure_eq_some, Option.pure_def, Option.some.injEq] at h
  obtain ⟨_, -, _, -, _, ⟨_, -, _, -, hid, rfl⟩, _, -, rfl⟩ := h
  exact hid

lemma asNullable_some {α : Type} {decode : Json → Option α} {found : Option α}
    (h : Json.asNullable decode v = some found) : ∀ a ∈ found, decode v = some a := by
  unfold Json.asNullable at h
  split at h
  · cases h
    simp
  · obtain ⟨b, hb, rfl⟩ := Option.map_eq_some_iff.1 h
    rintro a ⟨⟩
    exact hb

lemma parentChange_ofJson {c : ParentChange} (h : ParentChange.ofJson v = some c) :
    (∀ r ∈ c.previousParent, isWorkObjectId r.id = true) ∧
      ∀ r ∈ c.parent, isWorkObjectId r.id = true := by
  simp only [ParentChange.ofJson, Option.bind_eq_bind, Option.bind_eq_some_iff, required,
    Option.pure_def, Option.some.injEq] at h
  obtain ⟨_, -, _, ⟨_, -, hprevious⟩, _, ⟨_, -, hparent⟩, _, -, rfl⟩ := h
  exact ⟨fun r hr => workReference_ofJson (asNullable_some hprevious r hr),
    fun r hr => workReference_ofJson (asNullable_some hparent r hr)⟩

lemma target_ofJson {r : WorkReference} (h : targetOfJson v = some r) :
    isWorkObjectId r.id = true := by
  simp only [targetOfJson, Option.bind_eq_bind, Option.bind_eq_some_iff, required] at h
  obtain ⟨_, -, _, -, hread⟩ := h
  exact workReference_ofJson hread

lemma conversion_ofJson {c : Conversion} (h : Conversion.ofJson v = some c) :
    isWorkObjectId c.issueId = true := by
  simp only [Conversion.ofJson, Option.bind_eq_bind, Option.bind_eq_some_iff, ensure_eq_some] at h
  obtain ⟨_, -, _, -, _, -, hvalid, rfl⟩ := h
  simp only [Conversion.valid, Bool.and_eq_true] at hvalid
  exact hvalid.1

lemma named_record {label : Label} (h : label ∉ todoKinds) (id : String) : Named (label, id) :=
  fun hmem => absurd hmem h

lemma named_evidence (evidence : List Evidence) : ∀ key ∈ evidenceKeys evidence, Named key := by
  intro key hkey
  obtain ⟨e, -, rfl⟩ := List.mem_map.1 hkey
  exact named_record (by decide) _

lemma named_attachment (sha256 : String → String) (a : SessionAttach) :
    ∀ key ∈ a.keys sha256, Named key := by
  unfold SessionAttach.keys
  intro key hkey
  obtain rfl | hkey := List.mem_cons.1 hkey
  · exact named_record (by decide) _
  · cases hlink : a.link with
    | none =>
      rw [hlink] at hkey
      cases hkey
    | some l =>
      simp only [hlink, List.mem_cons, List.not_mem_nil, or_false] at hkey
      rcases hkey with rfl | rfl | rfl <;> exact named_record (by decide) _

lemma payload_keys {sha256 : String → String} {operation : Operation} {p : Payload}
    (h : Payload.ofJson operation v = some p) : ∀ key ∈ p.keys sha256, Named key := by
  cases operation <;> rcases Option.map_eq_some_iff.1 h with ⟨content, hread, rfl⟩ <;>
    simp only [Payload.keys, List.forall_mem_cons, List.not_mem_nil, false_implies, implies_true,
      and_true]
  case accept => exact named_record (by decide) _
  case convert => exact ⟨fun _ => conversion_ofJson hread, named_record (by decide) _⟩
  case parentSet =>
    obtain ⟨hprevious, hparent⟩ := parentChange_ofJson hread
    intro key hkey
    simp only [List.mem_append, List.mem_map, Option.mem_toList] at hkey
    obtain (⟨r, hr, rfl⟩ | ⟨r, hr, rfl⟩) | ⟨r, hr, rfl⟩ := hkey
    · exact fun _ => hprevious r hr
    · exact fun _ => hparent r hr
    · exact named_record (by decide) _
  case dependencyAdd => exact fun _ => target_ofJson hread
  case dependencyRemove => exact fun _ => target_ofJson hread
  case blockerAdd => exact fun _ => target_ofJson hread
  case blockerRemove => exact fun _ => target_ofJson hread
  case workflowReview =>
    refine ⟨named_record ?_ _, named_evidence _⟩
    cases content.phase <;> decide
  case progressSet => exact ⟨named_record (by decide) _, named_evidence _⟩
  case proposalReject => exact named_record (by decide) _
  case sessionAttach => exact named_attachment sha256 content

lemma mem_sortedResources_iff {keys : List Key} {text : String} :
    text ∈ sortedResources keys ↔ ∃ key ∈ keys, resource key = text := by
  rw [sortedResources, List.mem_insertionSort, List.mem_dedup, List.mem_map]

lemma resourceKey_resource (key : Key) : resourceKey (resource key) = some key := by
  rw [resourceKey, splitResource_resource, ofName_label]
  rfl

lemma workRequest_keys {sha256 : String → String} {raw : ByteArray} {r : WorkRequest}
    (h : WorkRequest.fromJson sha256 raw = .ok r) :
    ∃ keys, r.resources = sortedResources keys ∧ ∀ key ∈ keys, Named key := by
  obtain ⟨_, e, p, -, ⟨-, hadmissible, hpayload, -⟩, rfl⟩ :=
    (workContract sha256).read_eq_some.1 (work_read.1 h)
  refine ⟨_, rfl, List.forall_mem_cons.2 ⟨fun _ => ?_, payload_keys hpayload⟩⟩
  simp only [workContract, Envelope.admissible, Bool.and_eq_true] at hadmissible
  exact hadmissible.1.2

lemma arenaRequest_keys {raw : ByteArray} {r : ArenaRequest}
    (h : ArenaRequest.fromJson raw = .ok r) :
    ∃ keys, r.resources = sortedResources keys ∧ ∀ key ∈ keys, Named key := by
  obtain ⟨_, e, p, -, ⟨he, -⟩, rfl⟩ := arenaContract.read_eq_some.1 (arena_read.1 h)
  simp only [arenaContract, ArenaEnvelope.ofFields, Option.bind_eq_bind, Option.bind_eq_some_iff,
    required, asIdentifier, ensure_eq_some, Option.pure_def, Option.some.injEq] at he
  obtain ⟨_, -, _, -, _, -, _, -, _, ⟨_, -, _, -, hid, rfl⟩, _, -, _, -, rfl⟩ := he
  refine ⟨_, rfl, List.forall_mem_cons.2 ⟨fun _ => hid, ?_⟩⟩
  intro key hkey
  cases p with
  | memberSet m =>
    obtain ⟨reference, -, rfl⟩ := List.mem_map.1 hkey
    exact named_record (by decide) _
  | _ => cases hkey

theorem request_named (sha256 : String → String) {event : Event} {r : Request}
    (h : event.request sha256 = .ok r) :
    ∀ text ∈ r.resources, ∃ key, resourceKey text = some key ∧ Named key := by
  have hkeys : ∃ keys, r.resources = sortedResources keys ∧ ∀ key ∈ keys, Named key := by
    cases event with
    | work raw authority clock =>
      simp only [Event.request, map_eq_pure_bind, except_ok] at h
      obtain ⟨w, hw, rfl⟩ := h
      exact workRequest_keys hw
    | arena raw clock =>
      simp only [Event.request, map_eq_pure_bind, except_ok] at h
      obtain ⟨w, hw, rfl⟩ := h
      exact arenaRequest_keys hw
  obtain ⟨keys, hresources, hnamed⟩ := hkeys
  intro text htext
  rw [hresources, mem_sortedResources_iff] at htext
  obtain ⟨key, hkey, rfl⟩ := htext
  exact ⟨key, resourceKey_resource key, hnamed key hkey⟩

end DevGraph.Proofs
