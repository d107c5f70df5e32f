import DevGraph.Proofs.ReceiptLinks
import DevGraph.Work.Outbox

/-!
# Mutations that are recorded once

A call raises and changes nothing, or gets the receipt that is there for its retry identity, or
commits its mutation with a new receipt and a link to it. Over any sequence of calls the mutation
under a retry identity is thus committed at most once.
-/

namespace DevGraph.Proofs

open Lib Work

lemma utf8_injective {a b : String} (h : utf8 a = utf8 b) : a = b :=
  String.toByteArray_inj.1 (ByteArray.ext (Array.toList_inj.1 h))

theorem claimBytes_injective {p p' : Principal} {key key' : String} {bytes : List UInt8}
    (h : canonicalIdempotencyClaimBytes p key = .ok bytes)
    (h' : canonicalIdempotencyClaimBytes p' key' = .ok bytes) : p.values key = p'.values key' := by
  simp only [canonicalIdempotencyClaimBytes, except_ok, not_not] at h h'
  obtain ⟨_, -, _, hsize, rfl⟩ := h
  obtain ⟨_, -, _, hsize', hbytes⟩ := h'
  have hframes := (List.append_inj hbytes rfl).2
  have hfields : (p.values key).map utf8 = (p'.values key').map utf8 := by
    apply flatMap_frame_injective _ _ _ hframes.symm
    · simp [Principal.values]
    · simpa [List.forall_mem_map] using hsize
    · simpa [List.forall_mem_map] using hsize'
  exact List.map_injective_iff.2 (fun _ _ h => utf8_injective h) hfields

lemma ofName_name (status : OutboxStatus) : OutboxStatus.ofName status.name = .ok status := by
  cases status <;> rfl

lemma datetimeFromStorage_isoformat (t : Datetime) :
    datetimeFromStorage (isoformat t) = .ok t := by
  rw [datetimeFromStorage, fromisoformat_isoformat]
  rfl

lemma optionalDatetime_next (r : EventReceipt) :
    optionalDatetime r.toNodeProperties .nextAttemptAt = .ok r.nextAttemptAt := by
  unfold optionalDatetime EventReceipt.toNodeProperties
  cases r.nextAttemptAt with
  | none => rfl
  | some t =>
    simp only [Option.map_some, Value.text, datetimeFromStorage_isoformat]
    rfl

/-- A stored receipt is read back as it was. -/
theorem fromNodeProperties_toNodeProperties {r : EventReceipt} (h : r.postInit = .ok r) :
    EventReceipt.fromNodeProperties r.id r.toNodeProperties = .ok r := by
  simp only [EventReceipt.fromNodeProperties, except_bind_ok]
  refine ⟨r.operation, rfl, r.subjectLabel, rfl, r.subjectId, rfl, r.actorId, rfl, r.sessionId, rfl,
    r.correlationId, rfl, r.status.name, rfl, r.status, ofName_name _, r.attemptCount, rfl,
    r.nextAttemptAt, optionalDatetime_next r, isoformat r.createdAt, rfl, r.createdAt,
    datetimeFromStorage_isoformat _, isoformat r.updatedAt, rfl, r.updatedAt,
    datetimeFromStorage_isoformat _, ?_⟩
  rw [← h]
  congr 1
  cases r
  simp [EventReceipt.toNodeProperties, show Value.text ∘ Value.str = id from rfl, Value.text]

section Lookup

variable {s : Store} {property : Property} {digest id : String} {node : Node}

lemma mem_receiptMatches : (id, node) ∈ receiptMatches s property digest ↔
    s.node? (.eventReceipt, id) = some node ∧ node.properties property = some (.str digest) := by
  simp only [receiptMatches, List.mem_map, List.mem_filter, Bool.and_eq_true, decide_eq_true_eq]
  rw [GraphStore.node?, ← Option.mem_def, AList.mem_lookup_iff]
  constructor
  · rintro ⟨⟨⟨label, id'⟩, node'⟩, ⟨hmem, hlabel, hdigest⟩, heq⟩
    cases heq
    cases hlabel
    exact ⟨hmem, hdigest⟩
  · rintro ⟨hmem, hdigest⟩
    exact ⟨⟨(.eventReceipt, id), node⟩, ⟨hmem, rfl, hdigest⟩, rfl⟩

lemma nodup_receiptMatches : (receiptMatches s property digest).Nodup := by
  apply List.Nodup.map_on _ (s.nodes.nodupKeys.nodup.filter _)
  rintro ⟨⟨label, id⟩, node⟩ ha ⟨⟨label', id'⟩, node'⟩ hb heq
  simp only [List.mem_filter, Bool.and_eq_true, decide_eq_true_eq] at ha hb
  obtain ⟨rfl, rfl⟩ := Prod.mk.inj heq
  rw [ha.2.1, hb.2.1]

lemma receiptMatches_eq_nil (h : ∀ id node, s.node? (.eventReceipt, id) = some node →
    node.properties property ≠ some (.str digest)) : receiptMatches s property digest = [] := by
  rw [List.eq_nil_iff_forall_not_mem]
  rintro ⟨id, node⟩ hmem
  rw [mem_receiptMatches] at hmem
  exact h id node hmem.1 hmem.2

lemma find_none (hproperty : property ∈ [Property.idempotencyClaimDigest, .idempotencyKeyDigest])
    (hhex : isLowerHex 64 digest = true)
    (h : ∀ id node, s.node? (.eventReceipt, id) = some node →
      node.properties property ≠ some (.str digest)) :
    findEventReceiptByDigest s property digest = .ok none := by
  simp only [findEventReceiptByDigest, receiptMatches_eq_nil h, except_ok]
  exact ⟨(), by simp [hproperty, hhex], (), by simp, rfl⟩

lemma find_some (hproperty : property ∈ [Property.idempotencyClaimDigest, .idempotencyKeyDigest])
    (hhex : isLowerHex 64 digest = true) (hnode : s.node? (.eventReceipt, id) = some node)
    (hdigest : node.properties property = some (.str digest))
    (hunique : ∀ id' node', s.node? (.eventReceipt, id') = some node' →
      node'.properties property = some (.str digest) → id' = id) :
    findEventReceiptByDigest s property digest = .ok (some (id, node)) := by
  have hall : ∀ entry ∈ receiptMatches s property digest, entry = (id, node) := by
    rintro ⟨id', node'⟩ hmem
    rw [mem_receiptMatches] at hmem
    cases hunique id' node' hmem.1 hmem.2
    rw [hnode] at hmem
    cases hmem.1
    rfl
  have hmatches : receiptMatches s property digest = [(id, node)] := by
    apply List.perm_singleton.1
    rw [List.perm_ext_iff_of_nodup nodup_receiptMatches (List.nodup_singleton _)]
    intro entry
    rw [List.mem_singleton]
    refine ⟨hall entry, ?_⟩
    rintro rfl
    exact mem_receiptMatches.2 ⟨hnode, hdigest⟩
  simp only [findEventReceiptByDigest, hmatches, except_ok]
  exact ⟨(), by simp [hproperty, hhex], (), by simp, rfl⟩

end Lookup

/-- An operation that touches no receipt, no link to one and no claim of one. -/
def Plain : StorageCall → Prop
  | .createEdge e => e.relationship ≠ .emittedEvent
  | .deleteEdge _ r _ => r ≠ .emittedEvent
  | .claimEventReceipt .. | .linkNewEventReceipt .. => False
  | op => ∀ key ∈ nodeKey? op, key.1 ≠ .eventReceipt

/-- Receipts, links and claims are as in the other state. -/
structure SameReceipts (v v' : StorageView) : Prop where
  state : v'.state = v.state
  nodes : ∀ id, v'.store.node? (.eventReceipt, id) = v.store.node? (.eventReceipt, id)
  edges : ∀ e, Emits v'.store e ↔ Emits v.store e

lemma overwrite_other {t : StateView} {key : Key} (h : key.1 ≠ .eventReceipt) :
    t.overwrite key = t := by
  have hne : ∀ id, key ≠ (.eventReceipt, id) := by
    rintro id rfl
    exact h rfl
  unfold StateView.overwrite
  simp [hne]

lemma sameReceipts_put {v v' : StorageView} {key : Key} {node : Node}
    (hkey : key.1 ≠ .eventReceipt) (hstore : v'.store = v.store.put key node)
    (hstate : v'.state = v.state.map (·.overwrite key)) : SameReceipts v v' := by
  refine ⟨?_, fun id => ?_, fun e => ?_⟩
  · rw [hstate]
    cases v.state with
    | none => rfl
    | some t => rw [Option.map_some, overwrite_other hkey]
  · rw [hstore, GraphStore.node?_put_of_ne]
    rintro rfl
    exact hkey rfl
  · rw [hstore]
    exact Iff.rfl

lemma Plain.node {op : StorageCall} (h : Plain op) {key : Key} (hcall : nodeKey? op = some key) :
    key.1 ≠ .eventReceipt := by
  cases op with
  | createNode _ _ | updateNode _ _ | archiveNode _ _ | restoreNode _ _ => exact h key hcall
  | _ => cases hcall

lemma sameReceipts_call {v : StorageView} {op : StorageCall} (hop : Plain op) :
    SameReceipts v (v.call op).2 := by
  cases call_effect v op with
  | calm hstore hstate =>
    obtain hstate | ⟨⟨subject, id, rfl⟩, -⟩ := hstate
    · exact ⟨hstate, fun id => by rw [hstore], fun e => by rw [hstore]⟩
    · exact hop.elim
  | @created key _ hcall _ hstore hstate =>
    exact sameReceipts_put (hop.node hcall) hstore hstate
  | @replaced key _ _ hcall _ hstore hstate _ =>
    exact sameReceipts_put (hop.node hcall) hstore hstate
  | @linked e hcall htrace hstate =>
    subst hcall
    refine ⟨hstate, fun id => htrace.node?_of_notMem (by simp), fun e' => ?_⟩
    refine and_congr_left fun he' => ?_
    rw [htrace.mem_edges_iff, edgeAfter_link, edgeAfter_nil]
    refine or_iff_left ?_
    rintro rfl
    exact hop he'
  | @unlinked a r b hcall htrace hstate =>
    subst hcall
    refine ⟨hstate, fun id => htrace.node?_of_notMem (by simp), fun e' => ?_⟩
    refine and_congr_left fun he' => ?_
    rw [htrace.mem_edges_iff, edgeAfter_unlink, edgeAfter_nil]
    refine and_iff_left ?_
    rintro ⟨-, hr, -⟩
    exact hop (hr.symm.trans he')
  | claimed hcall _ _ _ =>
    subst hcall
    exact hop.elim
  | emitted hcall _ _ _ _ _ =>
    subst hcall
    exact hop.elim

lemma SameReceipts.trans {v v' v'' : StorageView} (h : SameReceipts v v')
    (h' : SameReceipts v' v'') : SameReceipts v v'' :=
  ⟨h'.state.trans h.state, fun id => (h'.nodes id).trans (h.nodes id),
    fun e => (h'.edges e).trans (h.edges e)⟩

/-- A mutation in a transaction leaves the receipts alone. -/
lemma sameReceipts_exec {α : Type} {v : StorageView} (hactive : v.state.isSome)
    {p : StorageProgram α} (hp : p.Only Plain) : SameReceipts v (viewMachine.exec p v).2 := by
  have hstate : ∀ v', SameReceipts v v' → { v' with state := some v'.begun } = v' := by
    intro v' h
    obtain ⟨t, ht⟩ := Option.isSome_iff_exists.1 hactive
    have ht' := h.state.trans ht
    rw [StorageView.begun, ht', Option.getD_some, ← ht']
  refine viewMachine.exec_invariant (SameReceipts v) (SameReceipts v)
    (fun op v' hop h => h.trans (sameReceipts_call hop)) ?_ ?_ (fun k _ hk _ => hk) hp
    ⟨rfl, fun _ => rfl, fun _ => Iff.rfl⟩
  · intro v' h
    refine ⟨h, ?_⟩
    change SameReceipts v { v' with state := some v'.begun }
    rw [hstate v' h]
    exact h
  · intro k v' hk h
    change SameReceipts v (if k.state.isNone then { v' with state := none } else v')
    rw [hk.state, Option.isNone_eq_false_iff.2 hactive]
    exact h

/-! ## Calls -/

/-- Every receipt was made by the outbox, and no two carry one digest. -/
structure SoundReceipts (s : Store) : Prop where
  made : ∀ id node, s.node? (.eventReceipt, id) = some node →
    ∃ r d, r.id = id ∧ node = ⟨EventReceipt.toNodeProperties r, false⟩ ∧ r.postInit = .ok r ∧
      r.idempotencyClaimDigest = some d ∧ r.idempotencyKeyDigest = none
  unique : ∀ id id' node node' d, s.node? (.eventReceipt, id) = some node →
    s.node? (.eventReceipt, id') = some node' →
    node.properties .idempotencyClaimDigest = some (.str d) →
    node'.properties .idempotencyClaimDigest = some (.str d) → id = id'

def OutboxRun.Free (s : Store) (d : String) : Prop :=
  ∀ id node, s.node? (.eventReceipt, id) = some node →
    node.properties .idempotencyClaimDigest ≠ some (.str d)

section Calls

open OutboxRun (Free)

variable {α : Type} {sha256 : List UInt8 → String} {redactEvent : String → String}
  {c : NamedWorkCall α} {v : StorageView} {d : String}

lemma exec_calling {β : Type} (op : StorageCall) (next : op.Out → StorageProgram β)
    (v : StorageView) : viewMachine.exec (calling op next) v =
      match (v.call op).1 with
      | .ok a => viewMachine.exec (next a) (v.call op).2
      | .error e => (.error e, (v.call op).2) := by
  rw [calling, Machine.exec, show viewMachine.step op v = v.call op from rfl]
  cases (v.call op).1 <;> rfl

def started (v : StorageView) : StorageView := { v with state := some ⟨fun _ => none, false⟩ }

lemma enter_idle (hidle : v.state = none) : (viewMachine.enter v).2 = started v := by
  change StorageView.mk _ _ (some v.begun) = _
  rw [StorageView.begun, hidle]
  rfl

/-- A block that only reads, or fails, leaves the storage as it was. -/
lemma block_reads {β : Type} {body : StorageProgram β} {out : Except Error β}
    (hidle : v.state = none)
    (h : (viewMachine.exec body (started v)) = (out, started v) ∨
      (viewMachine.exec body (started v)).1 = out ∧ ∃ e, out = .error e) :
    viewMachine.exec (.block body .done) v = (out, v) := by
  change viewMachine.leave v (viewMachine.exec body (viewMachine.enter v).2) = _
  rw [enter_idle hidle]
  have herror : ∀ e, (viewMachine.exec body (started v)).1 = .error e →
      viewMachine.leave v (viewMachine.exec body (started v)) = (.error e, v) := by
    intro e he
    unfold Machine.leave
    rw [he]
    rfl
  obtain h | ⟨hout, e, rfl⟩ := h
  · cases out with
    | error e => exact herror e (congrArg Prod.fst h)
    | ok b =>
      have hcommit : viewMachine.commit v (started v) = v := by
        change (if v.state.isNone then ({ started v with state := none } : StorageView)
          else started v) = v
        rw [hidle]
        change StorageView.mk v.store v.appliedConstraints none = v
        rw [← hidle]
      rw [h, Machine.leave]
      change (Except.ok b, viewMachine.commit v (started v)) = _
      rw [hcommit]
  · exact herror e hout

lemma digest_bytes (hd : digestIdempotencyClaim sha256 c.principal c.idempotencyKey = .ok d) :
    ∃ bytes, canonicalIdempotencyClaimBytes c.principal c.idempotencyKey = .ok bytes ∧
      d = sha256 bytes := by
  unfold digestIdempotencyClaim at hd
  cases hbytes : canonicalIdempotencyClaimBytes c.principal c.idempotencyKey with
  | error e =>
    rw [hbytes] at hd
    cases hd
  | ok bytes =>
    rw [hbytes] at hd
    cases hd
    exact ⟨bytes, rfl, rfl⟩

lemma record_of_valid (hvalid : c.validate sha256 = .ok ())
    (hd : digestIdempotencyClaim sha256 c.principal c.idempotencyKey = .ok d) :
    c.recordNamedWorkV1WithReceipt sha256 redactEvent =
      .block (c.body sha256 redactEvent d) .done := by
  unfold NamedWorkCall.recordNamedWorkV1WithReceipt NamedWorkCall.recordMutationWithReceipt
  rw [hvalid]
  simp only [hd]

/-- A call that is not well formed raises before it looks at the storage. -/
lemma record_invalid (redactEvent : String → String) (h : ¬ (c.validate sha256 = .ok () ∧
      ∃ d, digestIdempotencyClaim sha256 c.principal c.idempotencyKey = .ok d)) :
    ∃ e, viewMachine.exec (c.recordNamedWorkV1WithReceipt sha256 redactEvent) v =
      (.error e, v) := by
  unfold NamedWorkCall.recordNamedWorkV1WithReceipt NamedWorkCall.recordMutationWithReceipt
  cases hvalid : c.validate sha256 with
  | error e => exact ⟨e, rfl⟩
  | ok u =>
    cases hd : digestIdempotencyClaim sha256 c.principal c.idempotencyKey with
    | error e => exact ⟨e, rfl⟩
    | ok d => exact absurd ⟨hvalid, d, hd⟩ h

def retried (c : NamedWorkCall α) (r : EventReceipt) : Except Error (Option α × EventReceipt) := do
  c.requireMatchingScope r
  c.onResult r true
  return (none, r)

lemma record_retry (hidle : v.state = none) (hs : SoundReceipts v.store)
    (hvalid : c.validate sha256 = .ok ())
    (hd : digestIdempotencyClaim sha256 c.principal c.idempotencyKey = .ok d)
    (hhex : isLowerHex 64 d = true) {r : EventReceipt} (hr : r.postInit = .ok r)
    (hnode : v.store.node? (.eventReceipt, r.id) = some ⟨r.toNodeProperties, false⟩)
    (hclaim : r.idempotencyClaimDigest = some d) :
    viewMachine.exec (c.recordNamedWorkV1WithReceipt sha256 redactEvent) v = (retried c r, v) := by
  have hdigest : r.toNodeProperties .idempotencyClaimDigest = some (.str d) := by
    change r.idempotencyClaimDigest.map Value.str = _
    rw [hclaim]
    rfl
  have hfind := find_some (by simp) hhex hnode hdigest fun id' node' hnode' hdigest' =>
    hs.unique id' r.id node' _ d hnode' hnode hdigest' hdigest
  rw [record_of_valid hvalid hd]
  apply block_reads hidle
  left
  rw [NamedWorkCall.body, exec_calling]
  have hcall : (started v).call (.findEventReceiptByDigest .idempotencyClaimDigest d) =
      (.ok (some (r.id, ⟨r.toNodeProperties, false⟩)), started v) := congrArg (·, started v) hfind
  rw [hcall]
  change (c.retry r.id ⟨r.toNodeProperties, false⟩, started v) = _
  rw [NamedWorkCall.retry, fromNodeProperties_toNodeProperties hr]
  rfl

lemma receipt_postInit (redactEvent : String → String) (d : String)
    (hvalid : c.validate sha256 = .ok ()) (hhex : ∀ bytes, isLowerHex 64 (sha256 bytes) = true) :
    (c.receipt redactEvent d).postInit = .ok (c.receipt redactEvent d) := by
  simp only [NamedWorkCall.validate, except_ok, not_not] at hvalid
  obtain ⟨_, -, _, -, _, hrequest, hkey⟩ := hvalid
  rw [Bool.not_eq_false] at hrequest
  simp only [EventReceipt.postInit, except_ok]
  refine ⟨(), by simp [NamedWorkCall.receipt], (), ?_, trivial⟩
  rintro ⟨-, hdigests⟩
  have hkeyHex : isLowerHex 64 c.keyDigest = true := hkey ▸ hhex _
  exact hdigests ⟨hrequest, hkeyHex⟩

def claimedState (c : NamedWorkCall α) : StateView :=
  ⟨Function.update (fun _ => none) c.receiptId
    (some ⟨some (.str c.subject.1.name), some (.str c.subject.2), true⟩), false⟩

def claimedView (c : NamedWorkCall α) (redactEvent : String → String) (d : String)
    (v : StorageView) : StorageView :=
  { v with
    store := v.store.put (.eventReceipt, c.receiptId)
      ⟨(c.receipt redactEvent d).toNodeProperties, false⟩
    state := some (claimedState c) }

lemma claim_fresh (c : NamedWorkCall α) (redactEvent : String → String)
    (hfree : receiptMatches v.store .idempotencyClaimDigest d = []) :
    (∃ e, ((started v).claimEventReceipt c.receiptId d
      (c.receipt redactEvent d).toNodeProperties).1 = .error e) ∨
    v.store.node? (.eventReceipt, c.receiptId) = none ∧
      (started v).claimEventReceipt c.receiptId d (c.receipt redactEvent d).toNodeProperties =
        (.ok ⟨true, c.receiptId, ⟨(c.receipt redactEvent d).toNodeProperties, false⟩⟩,
          claimedView c redactEvent d v) := by
  unfold StorageView.claimEventReceipt
  have hdigest : (c.receipt redactEvent d).toNodeProperties .idempotencyClaimDigest =
      some (.str d) := rfl
  have hfree' : receiptMatches (started v).store .idempotencyClaimDigest d = [] := hfree
  rw [if_neg (not_not.2 hdigest), hfree']
  simp only [StorageView.createReceipt, StorageView.write]
  cases h : createNode (.eventReceipt, c.receiptId) (c.receipt redactEvent d).toNodeProperties
    (started v).store with
  | error e s => exact .inl ⟨e, rfl⟩
  | ok node s =>
    obtain ⟨rfl, habsent, rfl⟩ := createNode_other eventReceipt_other h
    refine .inr ⟨habsent, ?_⟩
    simp only [claimedView, started, Option.map_some, StateView.claim, StateView.overwrite,
      Option.map_none, claimedState]
    rfl

lemma claimed_proof {v' : StorageView} (hstate : v'.state = some (claimedState c)) :
    v'.proof c.subject c.receiptId =
      some ⟨some (.str c.subject.1.name), some (.str c.subject.2), true⟩ := by
  unfold StorageView.proof claimedState at *
  rw [hstate]
  simp

lemma claimed_consume : (claimedState c).consume c.receiptId = ⟨fun _ => none, false⟩ := by
  unfold claimedState StateView.consume
  simp only [Function.update_idem]
  congr 1
  exact Function.update_eq_self c.receiptId (fun _ : String => (none : Option ClaimView))

/-- After the mutation the receipt is linked, unless its subject is missing. -/
lemma link_fresh {v' : StorageView} (hstate : v'.state = some (claimedState c)) :
    (∃ e, (v'.linkNewEventReceipt c.subject c.receiptId).1 = .error e) ∨
    ∃ s, Trace v'.store [.link (eventEdge c.subject c.receiptId)] s ∧
      v'.linkNewEventReceipt c.subject c.receiptId =
        (.ok (eventEdge c.subject c.receiptId),
          { v' with store := s, state := some ⟨fun _ => none, false⟩ }) := by
  unfold StorageView.linkNewEventReceipt
  cases validateLink c.subject c.receiptId with
  | error e => exact .inl ⟨e, rfl⟩
  | ok _ =>
    simp only [claimed_proof hstate, StorageView.link, Bool.true_and]
    split
    · simp only [StorageView.onEdges]
      cases h : createEdge (eventEdge c.subject c.receiptId) v'.store with
      | error e s => exact .inl ⟨e, rfl⟩
      | ok u s =>
        refine .inr ⟨s, createEdge_trace h, ?_⟩
        simp only [hstate, Option.map_some, claimed_consume]
    · exact .inl ⟨_, rfl⟩

structure Commits (c : NamedWorkCall α) (redactEvent : String → String) (d : String)
    (v : StorageView) (a : α) (v' : StorageView) : Prop where
  absent : v.store.node? (.eventReceipt, c.receiptId) = none
  claimed : ((started v).claimEventReceipt c.receiptId d
    (c.receipt redactEvent d).toNodeProperties).2 = claimedView c redactEvent d v
  result : (viewMachine.exec c.mutation (claimedView c redactEvent d v)).1 = .ok a
  effects : Trace (viewMachine.exec c.mutation (claimedView c redactEvent d v)).2.store
    [.link (eventEdge c.subject c.receiptId)] v'.store
  idle : v'.state = none

lemma run_fresh (redactEvent : String → String) (d : String) (v : StorageView)
    (hplain : c.mutation.Only Plain) :
    (∃ e, (viewMachine.exec (c.run (c.receipt redactEvent d))
      (claimedView c redactEvent d v)).1 = .error e) ∨
    ∃ a s, (viewMachine.exec c.mutation (claimedView c redactEvent d v)).1 = .ok a ∧
      Trace (viewMachine.exec c.mutation (claimedView c redactEvent d v)).2.store
        [.link (eventEdge c.subject c.receiptId)] s ∧
      viewMachine.exec (c.run (c.receipt redactEvent d)) (claimedView c redactEvent d v) =
        (.ok (some a, c.receipt redactEvent d),
          { (viewMachine.exec c.mutation (claimedView c redactEvent d v)).2 with
            store := s, state := some ⟨fun _ => none, false⟩ }) := by
  have hreceipts := sameReceipts_exec (v := claimedView c redactEvent d v) rfl hplain
  rw [NamedWorkCall.run, Machine.exec_bind]
  cases hresult : (viewMachine.exec c.mutation (claimedView c redactEvent d v)).1 with
  | error e => exact .inl ⟨e, rfl⟩
  | ok a =>
    simp only [exec_calling]
    obtain ⟨e, he⟩ | ⟨s, htrace, hlink⟩ := link_fresh hreceipts.state
    · left
      have hcall : ((viewMachine.exec c.mutation (claimedView c redactEvent d v)).2.call
          (.linkNewEventReceipt c.subject (c.receipt redactEvent d).id)).1 = .error e := he
      rw [hcall]
      exact ⟨e, rfl⟩
    · have hcall : (viewMachine.exec c.mutation (claimedView c redactEvent d v)).2.call
          (.linkNewEventReceipt c.subject (c.receipt redactEvent d).id) = _ := hlink
      simp only [hcall, Machine.exec]
      cases c.onResult (c.receipt redactEvent d) false with
      | error e => exact .inl ⟨e, rfl⟩
      | ok _ => exact .inr ⟨a, s, rfl, htrace, rfl⟩

lemma body_fresh (hs : SoundReceipts v.store)
    (hvalid : c.validate sha256 = .ok ()) (hhex : ∀ bytes, isLowerHex 64 (sha256 bytes) = true)
    (hd : isLowerHex 64 d = true)
    (hfree : Free v.store d) :
    (∃ e, (viewMachine.exec (c.body sha256 redactEvent d) (started v)).1 = .error e) ∨
    v.store.node? (.eventReceipt, c.receiptId) = none ∧
      ((started v).claimEventReceipt c.receiptId d
        (c.receipt redactEvent d).toNodeProperties).2 = claimedView c redactEvent d v ∧
      viewMachine.exec (c.body sha256 redactEvent d) (started v) =
        viewMachine.exec (c.run (c.receipt redactEvent d)) (claimedView c redactEvent d v) := by
  have hpost := receipt_postInit redactEvent d hvalid hhex
  have hclaim : (started v).call (.findEventReceiptByDigest .idempotencyClaimDigest d) =
      (.ok none, started v) := congrArg (·, started v) (find_none (by simp) hd hfree)
  have hlegacy : (started v).call (.findEventReceiptByDigest .idempotencyKeyDigest
      (sha256 (utf8 c.idempotencyKey))) = (.ok none, started v) := by
    refine congrArg (·, started v) (find_none (by simp) (hhex _) ?_)
    intro id node hnode hdigest
    obtain ⟨r, _, -, rfl, -, -, hnone⟩ := hs.made id node hnode
    change r.idempotencyKeyDigest.map Value.str = _ at hdigest
    rw [hnone] at hdigest
    cases hdigest
  rw [NamedWorkCall.body, exec_calling, hclaim]
  simp only [exec_calling, hlegacy, NamedWorkCall.claim, hpost]
  rcases claim_fresh c redactEvent (receiptMatches_eq_nil hfree) with
    ⟨e, he⟩ | ⟨habsent, hcreated⟩
  · left
    have hcall : ((started v).call (.claimEventReceipt (c.receipt redactEvent d).id d
        (c.receipt redactEvent d).toNodeProperties)).1 = .error e := he
    rw [hcall]
    exact ⟨e, rfl⟩
  · refine .inr ⟨habsent, by rw [hcreated], ?_⟩
    have hcall : (started v).call (.claimEventReceipt (c.receipt redactEvent d).id d
        (c.receipt redactEvent d).toNodeProperties) = _ := hcreated
    rw [hcall]
    rfl

/-- A call under a new retry identity commits, or raises and changes nothing. -/
lemma record_fresh (redactEvent : String → String) (hidle : v.state = none)
    (hs : SoundReceipts v.store) (hvalid : c.validate sha256 = .ok ())
    (hhex : ∀ bytes, isLowerHex 64 (sha256 bytes) = true)
    (hd : digestIdempotencyClaim sha256 c.principal c.idempotencyKey = .ok d)
    (hplain : c.mutation.Only Plain)
    (hfree : Free v.store d) :
    (∃ e, viewMachine.exec (c.recordNamedWorkV1WithReceipt sha256 redactEvent) v = (.error e, v)) ∨
    ∃ a v', viewMachine.exec (c.recordNamedWorkV1WithReceipt sha256 redactEvent) v =
      (.ok (some a, c.receipt redactEvent d), v') ∧ Commits c redactEvent d v a v' := by
  obtain ⟨bytes, -, rfl⟩ := digest_bytes hd
  rw [record_of_valid hvalid hd]
  have hfails : ∀ e, (viewMachine.exec (c.body sha256 redactEvent _) (started v)).1 = .error e →
      viewMachine.exec (.block (c.body sha256 redactEvent (sha256 bytes)) .done) v =
        (.error e, v) :=
    fun e he => block_reads hidle (.inr ⟨he, e, rfl⟩)
  rcases body_fresh hs hvalid hhex (hhex bytes) hfree with
    ⟨e, he⟩ | ⟨habsent, hclaimed, hbody⟩
  · exact .inl ⟨e, hfails e he⟩
  · obtain ⟨e, he⟩ | ⟨a, s, hresult, htrace, hrun⟩ := run_fresh redactEvent (sha256 bytes) v hplain
    · exact .inl ⟨e, hfails e (hbody ▸ he)⟩
    · right
      refine ⟨a, { (viewMachine.exec c.mutation (claimedView c redactEvent (sha256 bytes) v)).2 with
        store := s, state := none }, ?_, habsent, hclaimed, hresult, htrace, rfl⟩
      change viewMachine.leave v (viewMachine.exec (c.body sha256 redactEvent _)
        (viewMachine.enter v).2) = _
      rw [enter_idle hidle, hbody, hrun, Machine.leave]
      change (Except.ok _, (if v.state.isNone then _ else _ : StorageView)) = _
      rw [hidle]
      rfl

variable {a : α} {v' : StorageView}

lemma Commits.receipts (h : Commits c redactEvent d v a v') (hplain : c.mutation.Only Plain)
    (id : String) : v'.store.node? (.eventReceipt, id) =
      if id = c.receiptId then some ⟨(c.receipt redactEvent d).toNodeProperties, false⟩
      else v.store.node? (.eventReceipt, id) := by
  have hsame := sameReceipts_exec (v := claimedView c redactEvent d v) rfl hplain
  rw [h.effects.node?_of_notMem (by simp), hsame.nodes]
  split
  · rename_i hid
    rw [hid]
    exact GraphStore.node?_put_self ..
  · rename_i hid
    apply GraphStore.node?_put_of_ne
    rintro ⟨⟩
    exact hid rfl

lemma Commits.links (h : Commits c redactEvent d v a v') (hplain : c.mutation.Only Plain)
    (e : EdgeRecord) :
    Emits v'.store e ↔ Emits v.store e ∨ e = eventEdge c.subject c.receiptId := by
  have hsame := sameReceipts_exec (v := claimedView c redactEvent d v) rfl hplain
  have hedges : Emits (claimedView c redactEvent d v).store e ↔ Emits v.store e := Iff.rfl
  rw [← hedges, ← hsame.edges e]
  unfold Emits
  rw [h.effects.mem_edges_iff, edgeAfter_link, edgeAfter_nil, or_and_right]
  refine or_congr_right ⟨And.left, ?_⟩
  rintro rfl
  exact ⟨rfl, rfl⟩

lemma Commits.sound (h : Commits c redactEvent d v a v') (hplain : c.mutation.Only Plain)
    (hs : SoundReceipts v.store)
    (hpost : (c.receipt redactEvent d).postInit = .ok (c.receipt redactEvent d))
    (hfree : Free v.store d) : SoundReceipts v'.store where
  made := by
    intro id node hnode
    rw [h.receipts hplain] at hnode
    split at hnode
    · rename_i hid
      cases hnode
      exact ⟨c.receipt redactEvent d, d, hid.symm, rfl, hpost, rfl, rfl⟩
    · exact hs.made id node hnode
  unique := by
    intro id id' node node' d' hnode hnode' hdigest hdigest'
    rw [h.receipts hplain] at hnode hnode'
    split at hnode
    · rename_i hid
      cases hnode
      cases hdigest
      split at hnode'
      · rename_i hid'
        rw [hid, hid']
      · exact absurd hdigest' (hfree id' node' hnode')
    · split at hnode'
      · cases hnode'
        cases hdigest'
        exact absurd hdigest (hfree id node hnode)
      · exact hs.unique id id' node node' d' hnode hnode' hdigest hdigest'

end Calls

/-! ## Sequences of calls -/

/-- A sequence of calls on a storage without receipts. The mutations leave receipts alone, and
the digest gives hexadecimal texts and no collision among the retry identities of the calls. -/
structure OutboxRun (α : Type) where
  sha256 : List UInt8 → String
  redactEvent : String → String
  start : Memory
  calls : List (NamedWorkCall α)
  idle : start.state = none
  unused : ∀ id, start.store.node? (.eventReceipt, id) = none
  plain : ∀ c ∈ calls, c.mutation.Only Plain
  hex : ∀ bytes, isLowerHex 64 (sha256 bytes) = true
  collisionFree : ∀ c ∈ calls, ∀ c' ∈ calls, ∀ bytes bytes',
    canonicalIdempotencyClaimBytes c.principal c.idempotencyKey = .ok bytes →
    canonicalIdempotencyClaimBytes c'.principal c'.idempotencyKey = .ok bytes' →
    sha256 bytes = sha256 bytes' → bytes = bytes'

namespace OutboxRun

variable {α : Type} (R : OutboxRun α)

def scope (c : NamedWorkCall α) : List String := c.principal.values c.idempotencyKey

def record (c : NamedWorkCall α) : StorageProgram (Option α × EventReceipt) :=
  c.recordNamedWorkV1WithReceipt R.sha256 R.redactEvent

/-- The storage before the call of the given number. -/
def memoryAt (n : Nat) : Memory :=
  (R.calls.take n).foldl (fun m c => (memoryMachine.exec (R.record c) m).2) R.start

def resultAt (n : Nat) : Option (Except Error (Option α × EventReceipt)) :=
  R.calls[n]?.map fun c => (memoryMachine.exec (R.record c) (R.memoryAt n)).1

def digest (c : NamedWorkCall α) : Except Error String :=
  digestIdempotencyClaim R.sha256 c.principal c.idempotencyKey

/-- The call commits its mutation and returns a new receipt. -/
def CommitsAt (n : Nat) (a : α) (r : EventReceipt) : Prop := R.resultAt n = some (.ok (some a, r))

variable {R} {n i j : Nat} {c ci cj : NamedWorkCall α} {d : String} {r : EventReceipt} {a : α}

lemma memoryAt_succ (hc : R.calls[n]? = some c) :
    R.memoryAt (n + 1) = (memoryMachine.exec (R.record c) (R.memoryAt n)).2 := by
  unfold memoryAt
  rw [List.take_add_one, hc, List.foldl_append]
  rfl

lemma memoryAt_end (hc : R.calls[n]? = none) : R.memoryAt (n + 1) = R.memoryAt n := by
  unfold memoryAt
  rw [List.take_add_one, hc, List.foldl_append]
  rfl

lemma exec_record (m : Memory) {out : Except Error (Option α × EventReceipt) × StorageView}
    (h : viewMachine.exec (c.recordNamedWorkV1WithReceipt R.sha256 R.redactEvent) m.view = out) :
    (memoryMachine.exec (R.record c) m).1 = out.1 ∧
      (memoryMachine.exec (R.record c) m).2.view = out.2 := by
  have hrun := (viewHom.exec (R.record c) m).symm.trans h
  exact Prod.mk.inj hrun

lemma exec_recordAt (hc : R.calls[n]? = some c)
    {out : Except Error (Option α × EventReceipt) × StorageView}
    (h : viewMachine.exec (c.recordNamedWorkV1WithReceipt R.sha256 R.redactEvent)
      (R.memoryAt n).view = out) :
    R.resultAt n = some out.1 ∧ (R.memoryAt (n + 1)).view = out.2 := by
  rw [memoryAt_succ hc, resultAt, hc, Option.map_some, (exec_record _ h).1]
  exact ⟨rfl, (exec_record _ h).2⟩

lemma digest_ok (h : R.digest c = .ok d) : isLowerHex 64 d = true ∧
    ∃ bytes, canonicalIdempotencyClaimBytes c.principal c.idempotencyKey = .ok bytes ∧
      d = R.sha256 bytes := by
  obtain ⟨bytes, hbytes, rfl⟩ := digest_bytes h
  exact ⟨R.hex bytes, bytes, hbytes, rfl⟩

/-- Calls share a digest only if they share a retry identity. -/
lemma scope_of_digest (hi : ci ∈ R.calls) (hj : cj ∈ R.calls) (hdi : R.digest ci = .ok d)
    (hdj : R.digest cj = .ok d) : scope ci = scope cj := by
  obtain ⟨bytes, hbytes, rfl⟩ := (digest_ok hdi).2
  obtain ⟨bytes', hbytes', hsha⟩ := (digest_ok hdj).2
  cases R.collisionFree ci hi cj hj bytes bytes' hbytes hbytes' hsha
  exact claimBytes_injective hbytes hbytes'

lemma digest_of_scope (h : scope ci = scope cj) : R.digest ci = R.digest cj := by
  obtain ⟨⟨issuer, audience, actorId, _, _⟩, _, _, key, _⟩ := ci
  obtain ⟨⟨issuer', audience', actorId', _, _⟩, _, _, key', _⟩ := cj
  simp only [scope, Principal.values, List.cons.injEq, and_true] at h
  obtain ⟨rfl, rfl, rfl, rfl⟩ := h
  rfl

/-- The receipts before a call are those of the committed calls. -/
structure Inv (R : OutboxRun α) (n : Nat) : Prop where
  idle : (R.memoryAt n).state = none
  sound : SoundReceipts (R.memoryAt n).store
  receipts : ∀ id node, (R.memoryAt n).store.node? (.eventReceipt, id) = some node ↔
    ∃ i < n, ∃ a r, R.CommitsAt i a r ∧ r.id = id ∧ node = ⟨r.toNodeProperties, false⟩

lemma Inv.view_idle (h : Inv R n) : (R.memoryAt n).view.state = none := by
  rw [Memory.view, h.idle]
  rfl

lemma retried_created {a : α} {r' : EventReceipt} : retried c r ≠ .ok (some a, r') := by
  intro h
  simp only [retried, except_ok] at h
  obtain ⟨_, -, _, -, h⟩ := h
  cases h

lemma retry_at (h : Inv R n) (hc : R.calls[n]? = some c) (hvalid : c.validate R.sha256 = .ok ())
    (hd : R.digest c = .ok d)
    (hnode : (R.memoryAt n).store.node? (.eventReceipt, r.id) = some ⟨r.toNodeProperties, false⟩)
    (hpost : r.postInit = .ok r) (hclaim : r.idempotencyClaimDigest = some d) :
    R.resultAt n = some (retried c r) ∧ (R.memoryAt (n + 1)).view = (R.memoryAt n).view :=
  exec_recordAt hc
    (record_retry h.view_idle h.sound hvalid hd (digest_ok hd).1 hpost hnode hclaim)

lemma step_cases (h : Inv R n) (hc : R.calls[n]? = some c) :
    (R.memoryAt (n + 1)).view = (R.memoryAt n).view ∧ (∀ a r, ¬ R.CommitsAt n a r) ∨
    ∃ a d, R.digest c = .ok d ∧ c.validate R.sha256 = .ok () ∧ Free (R.memoryAt n).store d ∧
      R.CommitsAt n a (c.receipt R.redactEvent d) ∧
      Commits c R.redactEvent d (R.memoryAt n).view a (R.memoryAt (n + 1)).view := by
  have herror : ∀ e, viewMachine.exec (R.record c) (R.memoryAt n).view =
      (.error e, (R.memoryAt n).view) →
      (R.memoryAt (n + 1)).view = (R.memoryAt n).view ∧ ∀ a r, ¬ R.CommitsAt n a r := by
    intro e he
    obtain ⟨hout, hview⟩ := exec_recordAt hc he
    refine ⟨hview, fun a r hcommit => ?_⟩
    cases hout.symm.trans hcommit
  by_cases hok : c.validate R.sha256 = .ok () ∧ ∃ d, R.digest c = .ok d
  · obtain ⟨hvalid, d, hd⟩ := hok
    by_cases hfree : Free (R.memoryAt n).store d
    · rcases record_fresh (v := (R.memoryAt n).view) R.redactEvent h.view_idle
        h.sound hvalid R.hex hd (R.plain c (List.mem_of_getElem? hc)) hfree with
          ⟨e, he⟩ | ⟨a, v', hexec, hcommits⟩
      · exact .inl (herror e he)
      · obtain ⟨hout, rfl⟩ := exec_recordAt hc hexec
        exact .inr ⟨a, d, hd, hvalid, hfree, hout, hcommits⟩
    · simp only [Free, not_forall, not_not] at hfree
      obtain ⟨id, node, hnode, hdigest⟩ := hfree
      obtain ⟨r, d', rfl, rfl, hpost, hclaim, -⟩ := h.sound.made id node hnode
      have hdd : d' = d := by
        change r.idempotencyClaimDigest.map Value.str = _ at hdigest
        rw [hclaim] at hdigest
        cases hdigest
        rfl
      obtain ⟨hretried, hview⟩ := retry_at h hc hvalid hd hnode hpost (hdd ▸ hclaim)
      refine .inl ⟨hview, fun a r' hcommit => ?_⟩
      rw [CommitsAt, hretried] at hcommit
      exact retried_created (Option.some.inj hcommit)
  · obtain ⟨e, he⟩ := record_invalid (v := (R.memoryAt n).view) R.redactEvent hok
    exact .inl (herror e he)

lemma inv_zero : Inv R 0 where
  idle := R.idle
  sound := ⟨fun id _ h => (nomatch (R.unused id).symm.trans h),
    fun id _ _ _ _ h => (nomatch (R.unused id).symm.trans h)⟩
  receipts := fun id _ => ⟨fun h => (nomatch (R.unused id).symm.trans h),
    fun ⟨i, hi, _⟩ => absurd hi (Nat.not_lt_zero i)⟩

/-- A call that commits nothing keeps the receipts of the committed calls. -/
lemma Inv.same (h : Inv R n) (hview : (R.memoryAt (n + 1)).view = (R.memoryAt n).view)
    (hnone : ∀ a r, ¬ R.CommitsAt n a r) : Inv R (n + 1) := by
  have hstore : (R.memoryAt (n + 1)).store = (R.memoryAt n).store :=
    congrArg StorageView.store hview
  refine ⟨?_, hstore ▸ h.sound, fun id node => ?_⟩
  · have hstate := congrArg StorageView.state hview
    rw [h.view_idle] at hstate
    exact Option.map_eq_none_iff.1 hstate
  · rw [hstore, h.receipts, Nat.exists_lt_succ_right, or_iff_left]
    rintro ⟨a, r, hcommit, -⟩
    exact hnone a r hcommit

lemma Inv.commit (h : Inv R n) (hc : R.calls[n]? = some c)
    (hvalid : c.validate R.sha256 = .ok ()) (hfree : Free (R.memoryAt n).store d)
    (hcommit : R.CommitsAt n a (c.receipt R.redactEvent d))
    (hcommits : Commits c R.redactEvent d (R.memoryAt n).view a (R.memoryAt (n + 1)).view) :
    Inv R (n + 1) where
  idle := Option.map_eq_none_iff.1 hcommits.idle
  sound := hcommits.sound (R.plain c (List.mem_of_getElem? hc)) h.sound
    (receipt_postInit _ d hvalid R.hex) hfree
  receipts := by
    intro id node
    have hnode := hcommits.receipts (R.plain c (List.mem_of_getElem? hc)) id
    have hlast : (∃ a r, R.CommitsAt n a r ∧ r.id = id ∧ node = ⟨r.toNodeProperties, false⟩) ↔
        id = c.receiptId ∧ node = ⟨(c.receipt R.redactEvent d).toNodeProperties, false⟩ := by
      constructor
      · rintro ⟨a', r, hcommit', rfl, rfl⟩
        cases hcommit.symm.trans hcommit'
        exact ⟨rfl, rfl⟩
      · rintro ⟨rfl, rfl⟩
        exact ⟨a, _, hcommit, rfl, rfl⟩
    change (R.memoryAt (n + 1)).store.node? _ =
      if _ then _ else (R.memoryAt n).store.node? _ at hnode
    rw [hnode, Nat.exists_lt_succ_right, ← h.receipts, hlast]
    split
    · -- The identifier was not taken before.
      rename_i hid
      have habsent : (R.memoryAt n).store.node? (.eventReceipt, c.receiptId) = none :=
        hcommits.absent
      simp [hid, habsent, eq_comm]
    · rename_i hid
      simp [hid]

theorem inv (R : OutboxRun α) (n : Nat) : Inv R n := by
  induction n with
  | zero => exact inv_zero
  | succ n ih =>
    cases hc : R.calls[n]? with
    | none =>
      refine ih.same (congrArg Memory.view (memoryAt_end hc)) fun a r hcommit => ?_
      rw [CommitsAt, resultAt, hc] at hcommit
      cases hcommit
    | some c =>
      obtain ⟨hview, hnone⟩ | ⟨a, d, -, hvalid, hfree, hcommit, hcommits⟩ := step_cases ih hc
      · exact ih.same hview hnone
      · exact ih.commit hc hvalid hfree hcommit hcommits

lemma commit_facts (hc : R.calls[n]? = some c) (h : R.CommitsAt n a r) :
    ∃ d, R.digest c = .ok d ∧ c.validate R.sha256 = .ok () ∧ r = c.receipt R.redactEvent d ∧
      Commits c R.redactEvent d (R.memoryAt n).view a (R.memoryAt (n + 1)).view := by
  obtain ⟨-, hnone⟩ | ⟨a', d, hd, hvalid, -, hcommit, hcommits⟩ := step_cases (R.inv n) hc
  · exact absurd h (hnone a r)
  · rw [CommitsAt, hcommit] at h
    cases h
    exact ⟨d, hd, hvalid, rfl, hcommits⟩

lemma commit_stays (h : R.CommitsAt i a r) (hlt : i < n) :
    (R.memoryAt n).store.node? (.eventReceipt, r.id) = some ⟨r.toNodeProperties, false⟩ :=
  ((R.inv n).receipts r.id _).2 ⟨i, hlt, a, r, h, rfl, rfl⟩

lemma later_call (hlt : i < j) (hi : R.calls[i]? = some ci) (hscope : scope c = scope ci)
    (h : R.CommitsAt i a r) :
    (memoryMachine.exec (R.record c) (R.memoryAt j)).2.view = (R.memoryAt j).view ∧
      (c.validate R.sha256 = .ok () →
        (memoryMachine.exec (R.record c) (R.memoryAt j)).1 = retried c r) ∧
      (c.validate R.sha256 ≠ .ok () →
        ∃ e, (memoryMachine.exec (R.record c) (R.memoryAt j)).1 = .error e) := by
  obtain ⟨d, hd, hvalid, rfl, -⟩ := commit_facts hi h
  have hdigest : R.digest c = .ok d := digest_of_scope (R := R) hscope ▸ hd
  by_cases hok : c.validate R.sha256 = .ok ()
  · obtain ⟨hout, hview⟩ := exec_record (R.memoryAt j) (record_retry (R.inv j).view_idle
      (R.inv j).sound hok hdigest (digest_ok hdigest).1 (receipt_postInit _ d hvalid R.hex)
      (commit_stays h hlt) rfl)
    exact ⟨hview, fun _ => hout, fun hne => absurd hok hne⟩
  · obtain ⟨e, he⟩ := record_invalid (v := (R.memoryAt j).view) R.redactEvent fun h => hok h.1
    obtain ⟨hout, hview⟩ := exec_record (R.memoryAt j) he
    exact ⟨hview, fun h => absurd h hok, fun _ => ⟨e, hout⟩⟩

/-- The run of a call's mutation, right after the claim of its receipt. -/
def mutationAt (R : OutboxRun α) (n : Nat) (c : NamedWorkCall α) (d : String) :
    Except Error α × Memory :=
  memoryMachine.exec c.mutation ((R.memoryAt n).enter.2.claimEventReceipt c.receiptId d
    (c.receipt R.redactEvent d).toNodeProperties).2

lemma mutationAt_view {v' : StorageView}
    (h : Commits c R.redactEvent d (R.memoryAt n).view a v') :
    viewMachine.exec c.mutation (claimedView c R.redactEvent d (R.memoryAt n).view) =
      ((R.mutationAt n c d).1, (R.mutationAt n c d).2.view) := by
  have hstarted : (R.memoryAt n).enter.2.view = started (R.memoryAt n).view :=
    view_enter.trans (enter_idle (R.inv n).view_idle)
  have hclaim := view_claimEventReceipt (m := (R.memoryAt n).enter.2) c.receiptId d
    (c.receipt R.redactEvent d).toNodeProperties
  rw [hstarted] at hclaim
  rw [← h.claimed, hclaim]
  exact viewHom.exec c.mutation _

/-- No receipt carries the digest of a retry identity under which no call committed. -/
lemma free_of_unused (hmem : c ∈ R.calls) (hd : R.digest c = .ok d)
    (h : ∀ i ci a r, i < n → R.calls[i]? = some ci → R.CommitsAt i a r → scope ci ≠ scope c) :
    Free (R.memoryAt n).store d := by
  intro id node hnode hdigest
  obtain ⟨i, hi, a, r, hcommit, -, rfl⟩ := ((R.inv n).receipts id node).1 hnode
  have hcall := hcommit
  unfold CommitsAt resultAt at hcall
  obtain ⟨ci, hci, -⟩ := Option.map_eq_some_iff.1 hcall
  obtain ⟨di, hdi, -, rfl, -⟩ := commit_facts hci hcommit
  cases hdigest
  exact h i ci a _ hi hci hcommit (scope_of_digest (List.mem_of_getElem? hci) hmem hdi hd)

/-- The scope check passes exactly for the operation, subject and request of the receipt. -/
lemma requireMatchingScope_iff {u : Unit} :
    c.requireMatchingScope (ci.receipt R.redactEvent d) = .ok u ↔
      (c.operation, c.subject, c.requestDigest) = (ci.operation, ci.subject, ci.requestDigest) := by
  simp only [NamedWorkCall.requireMatchingScope, raiseIf_eq_ok, NamedWorkCall.receipt, ne_eq,
    Prod.mk.injEq, Option.some.injEq, not_or, not_not]
  constructor
  · rintro ⟨⟨hoperation, hlabel, hid⟩, hrequest⟩
    exact ⟨hoperation.symm, Prod.ext (labelName_injective hlabel.symm) hid.symm, hrequest.symm⟩
  · rintro ⟨hoperation, hsubject, hrequest⟩
    rw [hoperation, hsubject, hrequest]
    exact ⟨⟨rfl, rfl, rfl⟩, rfl⟩

lemma validate_of_same (hvalid : ci.validate R.sha256 = .ok ()) (hscope : scope c = scope ci)
    (hsame : (c.operation, c.subject, c.requestDigest) =
      (ci.operation, ci.subject, ci.requestDigest))
    (hkey : c.keyDigest = R.sha256 (utf8 c.idempotencyKey)) : c.validate R.sha256 = .ok () := by
  simp only [scope, Principal.values, List.cons.injEq, and_true] at hscope
  simp only [Prod.mk.injEq] at hsame
  simp only [NamedWorkCall.validate, except_ok, not_not] at hvalid ⊢
  obtain ⟨_, hnamed, _, hidempotency, _, hrequest, -⟩ := hvalid
  rw [hsame.1, hsame.2.1, hsame.2.2, hkey, hscope.2.2.2]
  exact ⟨(), hnamed, (), hidempotency, (), hrequest, rfl⟩

/-- A mutation is recorded once under each retry identity. -/
theorem exactly_once {α : Type} (R : OutboxRun α) :
    (∀ i j ci cj a a' r r', i < j → R.calls[i]? = some ci → R.calls[j]? = some cj →
      scope cj = scope ci → R.CommitsAt i a r → ¬ R.CommitsAt j a' r') ∧
    -- A call that does not commit changes nothing, and one whose mutation raises does not commit.
    (∀ n, (∀ a r, ¬ R.CommitsAt n a r) → (R.memoryAt (n + 1)).view = (R.memoryAt n).view) ∧
    (∀ n c d e, R.calls[n]? = some c → R.digest c = .ok d → (R.mutationAt n c d).1 = .error e →
      ∀ a r, ¬ R.CommitsAt n a r) ∧
    (∀ n c d, c ∈ R.calls → R.digest c = .ok d →
      (∀ i ci a r, i < n → R.calls[i]? = some ci → R.CommitsAt i a r → scope ci ≠ scope c) →
      Free (R.memoryAt n).store d) ∧
    -- A call that commits adds its mutation, one receipt and one link.
    (∀ n c a r, R.calls[n]? = some c → R.CommitsAt n a r →
      ∃ d, R.digest c = .ok d ∧ r = c.receipt R.redactEvent d ∧
        (R.memoryAt n).store.node? (.eventReceipt, r.id) = none ∧
        (∀ id, (R.memoryAt (n + 1)).store.node? (.eventReceipt, id) =
          if id = r.id then some ⟨r.toNodeProperties, false⟩
          else (R.memoryAt n).store.node? (.eventReceipt, id)) ∧
        (∀ e, Emits (R.memoryAt (n + 1)).store e ↔
          Emits (R.memoryAt n).store e ∨ e = eventEdge c.subject r.id) ∧
        (R.mutationAt n c d).1 = .ok a ∧
        Trace (R.mutationAt n c d).2.store [.link (eventEdge c.subject r.id)]
          (R.memoryAt (n + 1)).store) ∧
    -- A later call gets that receipt, whatever its mutation is, or raises.
    (∀ i j ci c a r, i < j → R.calls[i]? = some ci → R.CommitsAt i a r → scope c = scope ci →
      (memoryMachine.exec (R.record c) (R.memoryAt j)).2.view = (R.memoryAt j).view ∧
      ((c.operation, c.subject, c.requestDigest) = (ci.operation, ci.subject, ci.requestDigest) →
        c.keyDigest = R.sha256 (utf8 c.idempotencyKey) →
        (memoryMachine.exec (R.record c) (R.memoryAt j)).1 = do
          c.onResult r true
          return (none, r)) ∧
      ((c.operation, c.subject, c.requestDigest) ≠ (ci.operation, ci.subject, ci.requestDigest) →
        ∃ e, (memoryMachine.exec (R.record c) (R.memoryAt j)).1 = .error e)) ∧
    ∀ c ∈ R.calls, ∀ c' ∈ R.calls, ∀ d, R.digest c = .ok d → R.digest c' = .ok d →
      scope c = scope c' := by
  refine ⟨?_, ?_, ?_, fun n c d hmem hd h => free_of_unused hmem hd h, ?_, ?_,
    fun c hc c' hc' d hd hd' => scope_of_digest hc hc' hd hd'⟩
  · intro i j ci cj a a' r r' hlt hi hj hscope h hcommit
    have hlater := later_call (j := j) hlt hi hscope h
    rw [CommitsAt, resultAt, hj, Option.map_some] at hcommit
    by_cases hvalid : cj.validate R.sha256 = .ok ()
    · rw [hlater.2.1 hvalid] at hcommit
      exact retried_created (Option.some.inj hcommit)
    · obtain ⟨e, he⟩ := hlater.2.2 hvalid
      rw [he] at hcommit
      cases hcommit
  · intro n hnone
    cases hc : R.calls[n]? with
    | none => rw [memoryAt_end hc]
    | some c =>
      obtain ⟨hview, -⟩ | ⟨a, d, -, -, -, hcommit, -⟩ := step_cases (R.inv n) hc
      · exact hview
      · exact absurd hcommit (hnone a _)
  · intro n c d e hc hd he a r hcommit
    obtain ⟨d', hd', -, -, hcommits⟩ := commit_facts hc hcommit
    cases hd.symm.trans hd'
    have hresult := hcommits.result
    rw [mutationAt_view hcommits, he] at hresult
    cases hresult
  · intro n c a r hc hcommit
    obtain ⟨d, hd, -, rfl, hcommits⟩ := commit_facts hc hcommit
    have hplain := R.plain c (List.mem_of_getElem? hc)
    have hview := mutationAt_view hcommits
    refine ⟨d, hd, rfl, hcommits.absent, hcommits.receipts hplain, hcommits.links hplain, ?_, ?_⟩
    · exact (congrArg Prod.fst hview).symm.trans hcommits.result
    · have htrace := hcommits.effects
      rw [hview] at htrace
      exact htrace
  · intro i j ci c a r hlt hi h hscope
    have hlater := later_call (j := j) hlt hi hscope h
    obtain ⟨d, -, hvalid, rfl, -⟩ := commit_facts hi h
    refine ⟨hlater.1, fun hsame hkey => ?_, fun hdiffer => ?_⟩
    · have hmatch : c.requireMatchingScope (ci.receipt R.redactEvent d) = .ok () :=
        requireMatchingScope_iff.2 hsame
      rw [hlater.2.1 (validate_of_same hvalid hscope hsame hkey), retried, hmatch]
      rfl
    · by_cases hok : c.validate R.sha256 = .ok ()
      · rw [hlater.2.1 hok, retried]
        cases hmatch : c.requireMatchingScope (ci.receipt R.redactEvent d) with
        | error e => exact ⟨e, rfl⟩
        | ok u => exact absurd (requireMatchingScope_iff.1 hmatch) hdiffer
      · exact hlater.2.2 hok

/-! A call that creates a Task, its retry, and a call under another retry key. -/

def hexText (c : Char) : String := String.ofList (List.replicate 64 c)

def taskCall : NamedWorkCall Node where
  principal := ⟨"issuer", "devgraph", "actor", "session", "correlation"⟩
  operation := "devgraph.work.create.v1"
  subject := (.task, "t")
  idempotencyKey := "aaaaaaaaaaaaaaaa"
  requestDigest := hexText '1'
  keyDigest := hexText '0'
  summary := "\x7b\x7d"
  mutation := .call (.createNode (.task, "t") noProps) .done
  onResult := fun _ _ => .ok ()
  receiptId := "receipt-1"
  now := ⟨1970, 1, 1, 0, 0, 0, 0, 0, by decide⟩

def otherCall : NamedWorkCall Node :=
  { taskCall with
    subject := (.task, "u")
    idempotencyKey := "bbbbbbbbbbbbbbbb"
    keyDigest := hexText '2'
    mutation := .call (.createNode (.task, "u") noProps) .done
    receiptId := "receipt-2" }

/-- Two retry keys with two digests. -/
def lastByteDigest (bytes : List UInt8) : String :=
  if bytes.getLast? = some 98 then hexText '2' else hexText '0'

def taskRun : OutboxRun Node where
  sha256 := lastByteDigest
  redactEvent := id
  start := Memory.init
  calls := [taskCall, taskCall, otherCall]
  idle := rfl
  unused := fun _ => rfl
  plain := by
    simp only [List.forall_mem_cons, List.not_mem_nil, false_implies, implies_true, and_true]
    refine ⟨?_, ?_, ?_⟩ <;> exact ⟨fun key hkey => by cases hkey; decide, fun _ => trivial⟩
  hex := fun bytes => by
    unfold lastByteDigest
    split <;> decide
  collisionFree := by
    intro c hc c' hc' bytes bytes' hbytes hbytes' hdigest
    have hcall : c = taskCall ∨ c = otherCall := by simpa using hc
    have hcall' : c' = taskCall ∨ c' = otherCall := by simpa using hc'
    obtain rfl | rfl := hcall <;> obtain rfl | rfl := hcall' <;> cases hbytes <;> cases hbytes'
    · rfl
    · exact absurd hdigest (by decide +kernel)
    · exact absurd hdigest (by decide +kernel)
    · rfl

theorem exactly_once_task :
    taskRun.CommitsAt 0 ⟨noProps, false⟩ (taskCall.receipt id (hexText '0')) ∧
      (memoryMachine.exec (taskRun.record taskCall) (taskRun.memoryAt 1)).1 =
        .ok (none, taskCall.receipt id (hexText '0')) ∧
      taskRun.CommitsAt 2 ⟨noProps, false⟩ (otherCall.receipt id (hexText '2')) :=
  have hcommit : taskRun.CommitsAt 0 ⟨noProps, false⟩ (taskCall.receipt id (hexText '0')) := rfl
  ⟨hcommit, ((exactly_once taskRun).2.2.2.2.2.1 0 1 taskCall taskCall _ _ Nat.zero_lt_one rfl
    hcommit rfl).2.1 rfl rfl, rfl⟩

/-! Calls outside the domain: a mutation that rewrites the receipt of another call, a digest of
the retry key that is not its own, and a report that raises. -/

def titleCall (receiptId : String) : NamedWorkCall Node :=
  { taskCall with
    operation := "devgraph.work.patch.v1"
    mutation := .call (.updateNode (.task, "t") (prop1 .title (.str "title"))) .done
    receiptId := receiptId }

/-- Under another retry key, the mutation gives the first receipt another digest. -/
def rewritingCall : NamedWorkCall Node :=
  { otherCall with
    operation := "devgraph.work.patch.v1"
    subject := (.task, "t")
    mutation := .call (.updateNode (.eventReceipt, "receipt-1")
      (prop1 .idempotencyClaimDigest (.str (hexText '3')))) .done }

def recorded (c : NamedWorkCall Node) (m : Memory) :
    Except Error (Option Node × EventReceipt) × Memory :=
  memoryMachine.exec (c.recordNamedWorkV1WithReceipt lastByteDigest id) m

def taskMemory : Memory := (Memory.init.call (.createNode (.task, "t") noProps)).2

def titledMemory : Memory := (recorded (titleCall "receipt-1") taskMemory).2

def applies : Except Error (Option Node × EventReceipt) → Bool
  | .ok (some _, _) => true
  | _ => false

lemma exists_of_applies {result : Except Error (Option Node × EventReceipt)}
    (h : applies result = true) : ∃ a r, result = .ok (some a, r) := by
  unfold applies at h
  split at h
  · exact ⟨_, _, rfl⟩
  · cases h

lemma exists_of_not_isOk {α : Type} {result : Except Error α} (h : result.isOk = false) :
    ∃ e, result = .error e := by
  cases result with
  | error e => exact ⟨e, rfl⟩
  | ok a => cases h

theorem rewritten_receipt_repeats :
    (∃ a r, (recorded (titleCall "receipt-1") taskMemory).1 = .ok (some a, r)) ∧
    (∃ a r, (recorded (titleCall "receipt-3") (recorded rewritingCall titledMemory).2).1 =
      .ok (some a, r)) ∧
    (∃ e, (recorded { titleCall "receipt-3" with keyDigest := hexText '4' } titledMemory).1 =
      .error e) ∧
    ∃ e, (recorded { titleCall "receipt-3" with
      onResult := fun _ _ => .error ⟨.valueError, "audit"⟩ } titledMemory).1 = .error e :=
  ⟨exists_of_applies (by decide +kernel), exists_of_applies (by decide +kernel),
    exists_of_not_isOk (by decide +kernel), exists_of_not_isOk (by decide +kernel)⟩

end OutboxRun

end DevGraph.Proofs
