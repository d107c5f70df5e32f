import DevGraph.Proofs.WorkflowMoves

/-!
# The records of reviews

The text of a record is read back as what was written: the review, and the basis that it was
made on. So an approval that is read from the graph is one that was recorded.
-/

namespace DevGraph.Proofs

open Lib Work

variable {sha256 : String → String} {s s' : Store} {w : WorkObject} {phase : Phase}

lemma toJson_readable (v : Value) : v.toJson.Readable plainJson := by
  cases v with
  | strs l =>
    induction l with
    | nil => trivial
    | cons a l ih => exact ⟨trivial, ih⟩
  | str => trivial
  | int => rfl
  | bool => trivial

lemma slash_notMem_label (label : Label) : '/' ∉ label.name.toList := by
  cases label <;> decide

lemma resource_toList (key : Key) :
    (resource key).toList = key.1.name.toList ++ '/' :: key.2.toList := by
  simp [resource]

/-- The text of a resource is cut at its first slash. -/
lemma cut_resource (key : Key) :
    (resource key).toList.takeWhile (· ≠ '/') = key.1.name.toList ∧
      (resource key).toList.dropWhile (· ≠ '/') = '/' :: key.2.toList := by
  have hname : ∀ c ∈ key.1.name.toList, decide (c ≠ '/') = true := fun c hc =>
    decide_eq_true fun heq => slash_notMem_label key.1 (heq ▸ hc)
  rw [resource_toList, List.takeWhile_append_of_pos hname, List.dropWhile_append_of_pos hname]
  simp

theorem resource_injective : Function.Injective resource := by
  intro a b h
  obtain ⟨hname, hid⟩ := cut_resource a
  rw [h, (cut_resource b).1, String.toList_inj] at hname
  rw [h, (cut_resource b).2, List.cons.injEq, String.toList_inj] at hid
  exact Prod.ext (labelName_injective hname.symm) hid.2.symm

lemma ofName_label (kind : Label) : Label.ofName kind.name = some kind := by
  cases kind <;> decide

lemma nodeOfResource_resource (key : Key) : nodeOfResource s (resource key) = getNode s key := by
  obtain ⟨hname, hid⟩ := cut_resource key
  have hslash : '/' ∈ (resource key).toList := by simp [resource_toList]
  rw [nodeOfResource, hname, hid, String.ofList_toList, ofName_label, List.tail_cons,
    String.ofList_toList]
  simp only [raiseIf, hslash, not_true_eq_false, if_false]
  rfl

/-- The digests of evidence are texts under distinct names. -/
structure Hashes (hashes : List (String × Json)) : Prop where
  names : (hashes.map Prod.fst).Nodup
  texts : ∀ hash ∈ hashes, ∃ text, hash.2 = Json.str text

section Text

variable {hashes : List (String × Json)} {r r' : WorkflowReview} {basisText actorId : String}

lemma sortFields_texts (h : ∀ hash ∈ hashes, ∃ text, hash.2 = Json.str text) :
    sortFields hashes = hashes := by
  induction hashes with
  | nil => rfl
  | cons hash hashes ih =>
    rw [List.forall_mem_cons] at h
    obtain ⟨⟨text, htext⟩, hrest⟩ := h
    rw [sortFields, ih hrest, htext]
    exact congrArg (· :: hashes) (Prod.ext rfl htext.symm)

lemma recordBody_readable (hr : r.toJson.Canonical SafeInt) (hhashes : Hashes hashes) :
    (recordBody w basisText actorId hashes r).Readable plainJson := by
  have hread : ∀ hash ∈ hashes, hash.2.Readable plainJson := by
    intro hash hmem
    obtain ⟨text, htext⟩ := hhashes.texts hash hmem
    rw [htext]
    trivial
  refine ⟨⟨trivial, trivial, ⟨fieldsReadable_iff.2 hread, hhashes.names⟩,
    readable_of_canonical (fun _ _ => rfl) _ hr, trivial, trivial, trivial⟩, ?_⟩
  simp only [List.map_cons, List.map_nil]
  decide

/-- Only the digests are written in another order than they were made. -/
lemma recordBody_sortKeys (w : WorkObject) (basisText actorId : String)
    (hr : r.toJson.Canonical SafeInt) (hhashes : Hashes hashes) :
    (recordBody w basisText actorId hashes r).sortKeys =
      recordBody w basisText actorId (hashes.insertionSort fun a b => a.1.toList ≤ b.1.toList)
        r := by
  have hfields : sortFields [("actor_id", Json.str actorId), ("basis", .str basisText),
      ("evidence_hashes", .obj hashes), ("review", r.toJson), ("schema", .str reviewSchema),
      ("subject", .str (resource w.key))] =
      [("actor_id", .str actorId), ("basis", .str basisText),
        ("evidence_hashes", .obj (hashes.insertionSort fun a b => a.1.toList ≤ b.1.toList)),
        ("review", r.toJson), ("schema", .str reviewSchema),
        ("subject", .str (resource w.key))] := by
    simp only [sortFields, Json.sortKeys, sortFields_texts hhashes.texts,
      sortKeys_of_canonical _ hr]
  rw [recordBody, Json.sortKeys, hfields]
  apply congrArg Json.obj
  apply List.Pairwise.insertionSort_eq
  simp [List.pairwise_cons]
  decide

lemma loads_record (w : WorkObject) (basisText actorId : String)
    (hr : r.toJson.Canonical SafeInt) (hhashes : Hashes hashes) :
    loads plainJson (dumps true (recordBody w basisText actorId hashes r)).toList =
      some (recordBody w basisText actorId
        (hashes.insertionSort fun a b => a.1.toList ≤ b.1.toList) r) := by
  rw [loads_dumps _ _ (recordBody_readable hr hhashes), recordBody_sortKeys w _ _ hr hhashes]

end Text

lemma both_ok {x y : Except Error Bool} : both x y = .ok true ↔ x = .ok true ∧ y = .ok true := by
  simp only [both, except_bind_ok]
  constructor
  · rintro ⟨ok, hx, hy⟩
    cases ok with
    | true => exact ⟨hx, hy⟩
    | false => cases hy
  · exact fun h => ⟨true, h.1, h.2⟩

lemma noneIfUnreadable_some {α : Type} {x : Except Error (Option α)} {a : α}
    (h : noneIfUnreadable x = .ok (some a)) : x = .ok (some a) := by
  cases x with
  | ok found => exact h
  | error e =>
    simp only [noneIfUnreadable] at h
    split at h <;> cases h

/-- A record that is read is the one that was written, and its basis is still the current one. -/
lemma readRecord_ok {node : Node} {w₀ : WorkObject} {hashes : List (String × Json)}
    {r r' : WorkflowReview} {basisText actorId : String}
    (hr : Printed SafeInt WorkflowReview.ofJson WorkflowReview.toJson 4 r) (hhashes : Hashes hashes)
    (htext : strOf node.properties .description =
      some (dumps true (recordBody w₀ basisText actorId hashes r)))
    (h : readRecord sha256 s w phase node = .ok (some r')) :
    r' = r ∧ basis sha256 s w phase = .ok basisText := by
  have hloads := loads_record w₀ basisText actorId hr.canonical hhashes
  simp only [readRecord, htext, Option.bind_some, hloads, except_bind_ok] at h
  obtain ⟨ok, hmatches, h⟩ := h
  cases ok with
  | false => cases h
  | true =>
    simp only [recordMatches, both_ok] at hmatches
    have hbasis := hmatches.2.2.1
    simp only [basisIsCurrent, except_ok, decide_eq_true_eq] at hbasis
    obtain ⟨recorded, hrecorded, current, hcurrent, heq⟩ := hbasis
    cases hrecorded
    cases heq
    refine ⟨?_, hcurrent⟩
    simp only [if_true, except_bind_ok] at h
    obtain ⟨text, hreview, h⟩ := h
    cases hreview
    rw [hr.read] at h
    cases h
    rfl

variable {state : WorkflowState}

lemma review_ok {r : WorkflowReview}
    (h : review sha256 s w state phase = .ok (some r)) :
    ∃ id node, state.reviews phase = some id ∧ s.node? (recordKind phase, id) = some node ∧
      readRecord sha256 s w phase node = .ok (some r) := by
  unfold review at h
  cases hid : state.reviews phase with
  | none =>
    rw [hid] at h
    cases h
  | some id =>
    rw [hid] at h
    simp only [except_bind_ok] at h
    obtain ⟨found, hfound, h⟩ := h
    have hnode := getNode_ok hfound
    cases found with
    | none => cases h
    | some node =>
      simp only at h
      split at h
      · cases h
      · exact ⟨id, node, rfl, hnode.symm, noneIfUnreadable_some h⟩

lemma approved_ok (h : approved sha256 s w state phase true = .ok true) :
    ∃ r, review sha256 s w state phase = .ok (some r) ∧ r.verdict = .approved ∧
      r.evidence ≠ [] := by
  simp only [approved, except_bind_ok] at h
  obtain ⟨found, hfound, h⟩ := h
  cases found with
  | none => cases h
  | some r =>
    simp only at h
    split at h
    · cases h
    · rename_i hgood
      simp only [not_or, not_not, true_and] at hgood
      exact ⟨r, hfound, hgood⟩

lemma hashes_of_evidence {hashes : List (String × Json)} {r : WorkflowReview}
    (hr : WorkflowReview.ofJson r.toJson = some r)
    (hnames : hashes.map Prod.fst = r.evidence.map fun e => resource e.key)
    (htexts : ∀ hash ∈ hashes, ∃ text, hash.2 = Json.str text) : Hashes hashes := by
  refine ⟨?_, htexts⟩
  have hvalid : r.valid = true := by
    simp only [WorkflowReview.ofJson, Option.bind_eq_bind, Option.bind_eq_some_iff,
      ensure_eq_some] at hr
    obtain ⟨_, -, _, -, _, -, _, -, _, -, _, -, _, -, _, -, hvalid, heq⟩ := hr
    rw [← heq]
    exact hvalid
  simp only [WorkflowReview.valid, uniqueReview, Bool.and_eq_true, decide_eq_true_eq] at hvalid
  have hids : (r.evidence.map Evidence.id).Nodup := hvalid.2.1.1.1.1
  rw [List.Nodup, List.pairwise_map] at hids
  rw [hnames, List.Nodup, List.pairwise_map]
  exact hids.imp fun hne heq => hne (congrArg Prod.snd (resource_injective heq))

/-- An approval that is read from the record of a review is that review. -/
theorem Recorded.read {u : Store} {w₀ : WorkObject} {r r' : WorkflowReview}
    (h : Recorded sha256 s s' w₀ r)
    (hr : Printed SafeInt WorkflowReview.ofJson WorkflowReview.toJson 4 r)
    (hid : state.reviews r.phase = some r.recordId)
    (hkept : u.node? (recordKind r.phase, r.recordId) =
      s'.node? (recordKind r.phase, r.recordId))
    (hread : review sha256 u w state r.phase = .ok (some r')) :
    r' = r ∧ ∃ t basisText, t.edges = s.edges ∧
      (∀ key : Key, key.1 ∈ canonicalWorkKinds → t.node? key = s.node? key) ∧
      basis sha256 t w₀ r.phase = .ok basisText ∧ basis sha256 u w r.phase = .ok basisText := by
  rcases h.record with ⟨t, record, basisText, actorId, hashes, hedges, hnodes, hbasis, hdescription,
    hnames, htexts, hnode⟩
  obtain ⟨id, node, hid', hnode', hrecord⟩ := review_ok hread
  cases hid.symm.trans hid'
  rw [hkept, hnode] at hnode'
  cases hnode'
  have htext : strOf record.node.properties .description =
      some (dumps true (recordBody w₀ basisText actorId hashes r)) :=
    congrArg some hdescription
  rcases readRecord_ok hr (hashes_of_evidence hr.read hnames htexts) htext hrecord with
    ⟨hsame, hcurrent⟩
  exact ⟨hsame, t, basisText, hedges, hnodes, hbasis, hcurrent⟩

end DevGraph.Proofs
