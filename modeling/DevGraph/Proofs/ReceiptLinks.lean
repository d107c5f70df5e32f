import DevGraph.Proofs.Savepoints

/-!
# Links to receipts

From what each operation of the storage can do to nodes, edges and claims: a receipt is linked at
most once, in the outermost transaction that created it, and from the subject that it records.
-/

namespace DevGraph.Proofs

open Lib Work

variable {P : StorageView → Prop} {key : Key} {props : Props} {old new : Node}

variable {subject : Key} {id : String}

def nodeKey? : StorageCall → Option Key
  | .createNode key _ | .updateNode key _ | .archiveNode key _ | .restoreNode key _ => some key
  | _ => none

/-- What an operation makes of the record of a receipt. -/
def Rewrites (op : StorageCall) (key : Key) (old new : Node) : Prop :=
  ∃ props archived, new = ⟨old.properties.merge props, archived⟩ ∧
    (op = .updateNode key props ∨ op = .archiveNode key (some props) ∨ props = noProps)

/-- Everything that an operation can do to the storage. -/
inductive CallEffect (v : StorageView) (op : StorageCall) (v' : StorageView) : Prop
  | calm (store : v'.store = v.store)
      (state : v'.state = v.state ∨
        (∃ subject id, op = .linkNewEventReceipt subject id) ∧ v'.state = v.spoil.state)
  | created {key : Key} {node : Node} (call : nodeKey? op = some key)
      (absent : v.store.node? key = none) (store : v'.store = v.store.put key node)
      (state : v'.state = v.state.map (·.overwrite key))
  | replaced {key : Key} {old new : Node} (call : nodeKey? op = some key)
      (held : v.store.node? key = some old) (store : v'.store = v.store.put key new)
      (state : v'.state = v.state.map (·.overwrite key))
      (content : key.1 = .eventReceipt → Rewrites op key old new)
  | linked {e : EdgeRecord} (call : op = .createEdge e) (trace : Trace v.store [.link e] v'.store)
      (state : v'.state = v.state)
  | unlinked {a : Key} {r : Relationship} {b : Key} (call : op = .deleteEdge a r b)
      (trace : Trace v.store [.unlink a r b] v'.store) (state : v'.state = v.state)
  | claimed {id digest : String} {props : Props} (call : op = .claimEventReceipt id digest props)
      (absent : v.store.node? (.eventReceipt, id) = none)
      (store : v'.store = v.store.put (.eventReceipt, id) ⟨props, false⟩)
      (state : v'.state = v.state.map fun t => (t.overwrite (.eventReceipt, id)).claim id props)
  | emitted {subject : Key} {id : String} {c : ClaimView}
      (call : op = .linkNewEventReceipt subject id) (proof : v.proof subject id = some c)
      (live : c.live = true) (endpoints : linkable v.store subject id = true)
      (trace : Trace v.store [.link (eventEdge subject id)] v'.store)
      (state : v'.state = v.state.map (·.consume id))

variable {v v' : StorageView} {op : StorageCall}

lemma eventReceipt_other : Label.eventReceipt ∉ canonicalWorkKinds := by decide

lemma merge_noProps (props : Props) : props.merge noProps = props := by
  funext p
  rfl

lemma write_replaced {f : Node → Except Error Node} (hcall : nodeKey? op = some key)
    (hcontent : ∀ old new, key.1 = .eventReceipt → f old = .ok new → Rewrites op key old new) :
    CallEffect v op (v.write key (replaceNode key f)).2 := by
  unfold StorageView.write
  cases h : replaceNode key f v.store with
  | error e s => exact .calm rfl (.inl rfl)
  | ok node s =>
    obtain ⟨old, hold, hnew, -⟩ := replaceNode_ok h
    cases replaceNode_writesAt _ _ _ _ _ h
    exact .replaced hcall hold rfl rfl fun hkey => hcontent old node hkey hnew

lemma write_created (hcall : nodeKey? op = some key) :
    CallEffect v op (v.write key (createNode key props)).2 := by
  unfold StorageView.write
  cases h : createNode key props v.store with
  | error e s => exact .calm rfl (.inl rfl)
  | ok node s =>
    obtain ⟨new, -, -, habsent, rfl⟩ := createNode_ok h
    exact .created hcall habsent rfl rfl

lemma updatedNode_receipt
    (hkey : key.1 = .eventReceipt) (h : updatedNode key old props = .ok new) :
    Rewrites (.updateNode key props) key old new := by
  have hother : key.1 ∉ canonicalWorkKinds := hkey ▸ eventReceipt_other
  rw [updatedNode, isCanonicalPayload_other hother, isCanonicalPayload_other hother, Bool.or_self,
    if_neg Bool.false_ne_true, except_pure_ok] at h
  exact ⟨props, old.archived, h.symm, .inl rfl⟩

lemma archivedNode_receipt
    (hkey : key.1 = .eventReceipt) (h : archivedNode key old props = .ok new) :
    Rewrites (.archiveNode key (some props)) key old new := by
  have hother : key.1 ∉ canonicalWorkKinds := hkey ▸ eventReceipt_other
  rw [archivedNode, isCanonicalPayload_other hother, isCanonicalPayload_other hother, Bool.or_self,
    if_neg Bool.false_ne_true, except_pure_ok] at h
  exact ⟨props, true, h.symm, .inr (.inl rfl)⟩

lemma bareArchivedNode_receipt (hkey : key.1 = .eventReceipt)
    (h : bareArchivedNode key old = .ok new) : Rewrites op key old new := by
  have hother : key.1 ∉ canonicalWorkKinds := hkey ▸ eventReceipt_other
  rw [bareArchivedNode, isCanonicalPayload_other hother, if_neg Bool.false_ne_true,
    except_pure_ok] at h
  exact ⟨noProps, true, by rw [merge_noProps, h], .inr (.inr rfl)⟩

/-- A receipt is no canonical record, so none is ever restored. -/
lemma restoredNode_receipt
    (hkey : key.1 = .eventReceipt) : restoredNode key old props ≠ .ok new := by
  intro h
  simp only [restoredNode, except_ok, validateCanonicalWorkObjectProperties] at h
  obtain ⟨_, ⟨_, hlabel, -⟩, -⟩ := h
  exact hlabel (hkey ▸ eventReceipt_other)

lemma archiveCall_effect (key : Key) (props : Option Props) :
    CallEffect v (.archiveNode key props) (v.archive key props).2 := by
  cases props with
  | some props => exact write_replaced rfl fun old new hkey h => archivedNode_receipt hkey h
  | none =>
    simp only [StorageView.archive]
    cases requireNode v.store key with
    | error e => exact .calm rfl (.inl rfl)
    | ok node =>
      by_cases hsettled : settled key node = true
      · simp only [hsettled, if_true]
        exact .calm rfl (.inl rfl)
      · simp only [hsettled]
        exact write_replaced rfl fun old new hkey h => bareArchivedNode_receipt hkey h

lemma claimCall_effect (id digest : String) (props : Props) :
    CallEffect v (.claimEventReceipt id digest props) (v.claimEventReceipt id digest props).2 := by
  unfold StorageView.claimEventReceipt
  split
  · exact .calm rfl (.inl rfl)
  · split
    · unfold StorageView.createReceipt StorageView.write
      cases h : createNode (.eventReceipt, id) props v.store with
      | error e s => exact .calm rfl (.inl rfl)
      | ok node s =>
        obtain ⟨rfl, habsent, rfl⟩ := createNode_other eventReceipt_other h
        exact .claimed rfl habsent rfl (Option.map_map ..)
    · exact .calm rfl (.inl rfl)
    · exact .calm rfl (.inl rfl)

lemma linkCall_effect (subject : Key) (id : String) :
    CallEffect v (.linkNewEventReceipt subject id) (v.linkNewEventReceipt subject id).2 := by
  unfold StorageView.linkNewEventReceipt
  cases validateLink subject id with
  | error e => exact .calm rfl (.inl rfl)
  | ok _ =>
    cases hproof : v.proof subject id with
    | none => exact .calm rfl (.inl rfl)
    | some c =>
      simp only [StorageView.link]
      split
      · rename_i hlive
        rw [Bool.and_eq_true] at hlive
        unfold StorageView.onEdges
        cases h : createEdge (eventEdge subject id) v.store with
        | error e s => exact .calm rfl (.inr ⟨⟨subject, id, rfl⟩, rfl⟩)
        | ok u s => exact .emitted rfl hproof hlive.1 hlive.2 (createEdge_trace h) rfl
      · exact .calm rfl (.inr ⟨⟨subject, id, rfl⟩, rfl⟩)

theorem call_effect (v : StorageView) (op : StorageCall) : CallEffect v op (v.call op).2 := by
  cases op with
  | createNode key props => exact write_created rfl
  | updateNode key props =>
    exact write_replaced rfl fun old new hkey h => updatedNode_receipt hkey h
  | archiveNode key props => exact archiveCall_effect key props
  | restoreNode key props =>
    exact write_replaced rfl fun old new hkey h => absurd h (restoredNode_receipt hkey)
  | createEdge e =>
    change CallEffect v _ (v.onEdges (createEdge e)).2
    unfold StorageView.onEdges
    cases h : createEdge e v.store with
    | error e' s => exact .calm rfl (.inl rfl)
    | ok u s => exact .linked rfl (createEdge_trace h) rfl
  | deleteEdge a r b => exact .unlinked rfl (.unlink (.nil _)) rfl
  | applyConstraints statements => exact .calm rfl (.inl rfl)
  | findEventReceiptByDigest property digest => exact .calm rfl (.inl rfl)
  | claimEventReceipt id digest props => exact claimCall_effect id digest props
  | linkNewEventReceipt subject id => exact linkCall_effect subject id
  | read query => exact .calm rfl (.inl rfl)

def Emits (s : Store) (e : EdgeRecord) : Prop := e ∈ s.edges ∧ e.relationship = .emittedEvent

/-- The operation makes such edges in no other way than by linking a receipt. -/
def LinksOnly : StorageCall → Prop
  | .createEdge e => e.relationship ≠ .emittedEvent
  | _ => True

def HasClaim (v : StorageView) (id : String) : Prop := ∃ t ∈ v.state, (t.claims id).isSome

lemma hasClaim_of_proof {c : ClaimView} (h : v.proof subject id = some c) : HasClaim v id := by
  obtain ⟨t, ht, hc⟩ := Option.bind_eq_some_iff.1 h
  refine ⟨t, ht, ?_⟩
  rw [(Option.filter_eq_some_iff.1 hc).1]
  rfl

lemma hasClaim_map {f : StateView → StateView} (hv : v'.state = v.state.map f)
    (h : HasClaim v' id) : ∃ t ∈ v.state, ((f t).claims id).isSome := by
  obtain ⟨t, ht, hc⟩ := h
  rw [hv] at ht
  obtain ⟨t, hold, rfl⟩ := Option.map_eq_some_iff.1 ht
  exact ⟨t, hold, hc⟩

lemma isSome_overwrite {t : StateView} :
    ((t.overwrite key).claims id).isSome = (t.claims id).isSome := Option.isSome_map

lemma CallEffect.claims (h : CallEffect v op v') (hclaim : HasClaim v' id) :
    HasClaim v id ∨ v.store.node? (.eventReceipt, id) = none ∧
      ∃ digest props, op = .claimEventReceipt id digest props := by
  cases h with
  | calm _ hstate =>
    obtain hstate | ⟨-, hstate⟩ := hstate
    · exact .inl (by rwa [HasClaim, ← hstate])
    · rcases hasClaim_map (f := fun t => { t with rollbackOnly := true }) hstate hclaim with
        ⟨t, ht, hc⟩
      exact .inl ⟨t, ht, hc⟩
  | created _ _ _ hstate =>
    obtain ⟨t, ht, hc⟩ := hasClaim_map hstate hclaim
    exact .inl ⟨t, ht, isSome_overwrite ▸ hc⟩
  | replaced _ _ _ hstate =>
    obtain ⟨t, ht, hc⟩ := hasClaim_map hstate hclaim
    exact .inl ⟨t, ht, isSome_overwrite ▸ hc⟩
  | linked _ _ hstate => exact .inl (by rwa [HasClaim, ← hstate])
  | unlinked _ _ hstate => exact .inl (by rwa [HasClaim, ← hstate])
  | @claimed id' digest props hcall habsent _ hstate =>
    obtain ⟨t, ht, hc⟩ := hasClaim_map hstate hclaim
    by_cases hid : id = id'
    · subst hid
      exact .inr ⟨habsent, digest, props, hcall⟩
    · simp only [StateView.claim, Function.update_of_ne hid] at hc
      exact .inl ⟨t, ht, isSome_overwrite ▸ hc⟩
  | @emitted subject id' c _ _ _ _ _ hstate =>
    obtain ⟨t, ht, hc⟩ := hasClaim_map hstate hclaim
    by_cases hid : id = id'
    · subst hid
      simp only [StateView.consume, Function.update_self] at hc
      cases hc
    · simp only [StateView.consume, Function.update_of_ne hid] at hc
      exact .inl ⟨t, ht, hc⟩

lemma isSome_put {s : Store} {key key' : Key} {node : Node} (h : (s.node? key).isSome) :
    ((s.put key' node).node? key).isSome := by
  by_cases hkey : key = key'
  · rw [hkey, GraphStore.node?_put_self]
    rfl
  · rw [GraphStore.node?_put_of_ne _ hkey]
    exact h

lemma CallEffect.nodes (h : CallEffect v op v') (hkey : (v.store.node? key).isSome) :
    (v'.store.node? key).isSome := by
  cases h with
  | calm hstore _ => rwa [hstore]
  | created _ _ hstore _ => exact hstore ▸ isSome_put hkey
  | replaced _ _ hstore _ => exact hstore ▸ isSome_put hkey
  | linked _ htrace _ => rwa [htrace.node?_of_notMem (by simp)]
  | unlinked _ htrace _ => rwa [htrace.node?_of_notMem (by simp)]
  | claimed _ _ hstore _ => exact hstore ▸ isSome_put hkey
  | emitted _ _ _ _ htrace _ => rwa [htrace.node?_of_notMem (by simp)]

variable {e : EdgeRecord}

/-- A new edge to a receipt is the link of a claimed receipt that had none. -/
lemma CallEffect.emits (h : CallEffect v op v') (hop : LinksOnly op)
    (he : Emits v'.store e) :
    Emits v.store e ∨ ∃ subject id c, op = .linkNewEventReceipt subject id ∧
      e = eventEdge subject id ∧ v.proof subject id = some c ∧
      linkable v.store subject id = true := by
  cases h with
  | calm hstore _ => exact .inl (hstore ▸ he)
  | created _ _ hstore _ => exact .inl (by rwa [hstore] at he)
  | replaced _ _ hstore _ => exact .inl (by rwa [hstore] at he)
  | @linked e' hcall htrace _ =>
    have hmem := (htrace.mem_edges_iff e).1 he.1
    simp only [edgeAfter_link, edgeAfter_nil] at hmem
    obtain hmem | rfl := hmem
    · exact .inl ⟨hmem, he.2⟩
    · subst hcall
      exact absurd he.2 hop
  | unlinked _ htrace _ =>
    have hmem := (htrace.mem_edges_iff e).1 he.1
    simp only [edgeAfter_unlink, edgeAfter_nil] at hmem
    exact .inl ⟨hmem.1, he.2⟩
  | claimed _ _ hstore _ => exact .inl (by rwa [hstore] at he)
  | @emitted subject id c hcall hproof _ hlinkable htrace _ =>
    have hmem := (htrace.mem_edges_iff e).1 he.1
    simp only [edgeAfter_link, edgeAfter_nil] at hmem
    obtain hmem | rfl := hmem
    · exact .inl ⟨hmem, he.2⟩
    · exact .inr ⟨subject, id, c, hcall, rfl, hproof, hlinkable⟩

lemma linkable_free {s : Store} (h : linkable s subject id = true)
    (he : Emits s e) : e.target ≠ (.eventReceipt, id) := by
  simp only [linkable, Bool.and_eq_true, List.all_eq_true] at h
  have hfree := h.2 e he.1
  simpa [he.2] using hfree

/-- The subject that a receipt records. -/
def NamesSubject (node : Node) (subject : Key) : Prop :=
  node.properties .subjectLabel = some (.str subject.1.name) ∧
    node.properties .subjectId = some (.str subject.2)

lemma linkable_names {s : Store} (h : linkable s subject id = true) :
    ∃ node, s.node? (.eventReceipt, id) = some node ∧ NamesSubject node subject := by
  simp only [linkable, Bool.and_eq_true, Option.any_eq_true, decide_eq_true_eq] at h
  obtain ⟨node, hnode, hnames⟩ := h.1.1
  exact ⟨node, hnode, hnames.1.2, hnames.2⟩

/-! ## Runs -/

section Runs

variable {m s : Memory} {allowed : StorageCall → Prop}

/-- The states in which the operations of some program run, open blocks included. -/
inductive Reaches (allowed : StorageCall → Prop) (m : Memory) : Memory → Prop
  | refl : Reaches allowed m m
  | run {s : Memory} {α : Type} {p : StorageProgram α} (before : Reaches allowed m s)
      (only : p.Only allowed) : Reaches allowed m (memoryMachine.exec p s).2
  | enter {s : Memory} (before : Reaches allowed m s) : Reaches allowed m s.enter.2

/-- What the operations keep, and the beginning and the end of a transaction. -/
structure Kept (allowed : StorageCall → Prop) (P : StorageView → Prop) : Prop where
  call : ∀ op v, allowed op → P v → P (v.call op).2
  begins : ∀ v, P v → P { v with state := some v.begun }
  ends : ∀ k v, k.state = none → P k → P v → P { v with state := none }

variable {α : Type}

lemma Kept.exec (hP : Kept allowed P) {p : StorageProgram α}
    (hp : p.Only allowed) (h : P m.view) : P (memoryMachine.exec p m).2.view := by
  have hrun := viewHom.exec p m
  rw [viewHom_state] at hrun
  have hview : (memoryMachine.exec p m).2.view = (viewMachine.exec p m.view).2 :=
    (congrArg Prod.snd hrun).symm
  rw [hview]
  refine viewMachine.exec_invariant P P hP.call (fun v hv => ⟨hv, hP.begins v hv⟩) ?_
    (fun k _ hk _ => hk) hp h
  intro k v hk hv
  change P (if k.state.isNone then { v with state := none } else v)
  split
  · rename_i hidle
    exact hP.ends k v (Option.isNone_iff_eq_none.1 hidle) hk hv
  · exact hv

lemma Kept.enter (hP : Kept allowed P) (h : P m.view) :
    P m.enter.2.view := by
  rw [view_enter]
  exact hP.begins _ h

lemma Kept.reaches (hP : Kept allowed P) (h : P m.view)
    (hreach : Reaches allowed m s) : P s.view := by
  induction hreach with
  | refl => exact h
  | run _ honly ih => exact hP.exec honly ih
  | enter _ ih => exact hP.enter ih

lemma hasClaim_begun (h : HasClaim { v with state := some v.begun } id) :
    HasClaim v id := by
  obtain ⟨t, ht, hc⟩ := h
  cases ht
  unfold StorageView.begun at hc
  cases hv : v.state with
  | none =>
    rw [hv] at hc
    cases hc
  | some t =>
    rw [hv] at hc
    exact ⟨t, hv, hc⟩

lemma not_hasClaim_idle {store : Store} {constraints : List String} :
    ¬ HasClaim ⟨store, constraints, none⟩ id := by
  rintro ⟨t, ht, -⟩
  cases ht

/-- A receipt that is there and not claimed is never claimed again. -/
lemma settled_kept (id : String) : Kept (fun _ => True) fun v =>
    (v.store.node? (.eventReceipt, id)).isSome ∧ ¬ HasClaim v id where
  call op v _ h := by
    have heffect := call_effect v op
    refine ⟨heffect.nodes h.1, fun hclaim => ?_⟩
    obtain hold | ⟨habsent, -⟩ := heffect.claims hclaim
    · exact h.2 hold
    · rw [habsent] at h
      cases h.1
  begins v h := ⟨h.1, fun hclaim => h.2 (hasClaim_begun hclaim)⟩
  ends _ _ _ _ h := ⟨h.1, not_hasClaim_idle⟩

/-- A receipt that is not claimed stays so as long as it is not claimed again. -/
lemma unclaimed_kept (id : String) :
    Kept (fun op => ∀ digest props, op ≠ .claimEventReceipt id digest props)
      fun v => ¬ HasClaim v id where
  call op v hop h := by
    intro hclaim
    obtain hold | ⟨-, digest, props, hcall⟩ := (call_effect v op).claims hclaim
    · exact h hold
    · exact hop digest props hcall
  begins v h := fun hclaim => h (hasClaim_begun hclaim)
  ends _ _ _ _ h := not_hasClaim_idle

lemma single_kept : Kept LinksOnly fun v =>
    ∀ e e', Emits v.store e → Emits v.store e' → e.target = e'.target → e = e' where
  call op v hop h := by
    intro e e' he he' htarget
    obtain hold | ⟨a, id, c, hcall, rfl, -, hlinkable⟩ := (call_effect v op).emits hop he
    · obtain hold' | ⟨a, id, c, -, rfl, -, hlinkable⟩ := (call_effect v op).emits hop he'
      · exact h e e' hold hold' htarget
      · exact absurd htarget (linkable_free hlinkable hold)
    · obtain hold' | ⟨a', id', c', hcall', rfl, -, -⟩ := (call_effect v op).emits hop he'
      · exact absurd htarget.symm (linkable_free hlinkable hold')
      · rw [hcall] at hcall'
        cases hcall'
        rfl
  begins v h := h
  ends _ _ _ _ h := h

/-- What holds of a state in the transaction that began with the store. -/
structure Since (base : Store) (v : StorageView) : Prop where
  nodes : ∀ key, (base.node? key).isSome → (v.store.node? key).isSome
  claims : ∀ id, HasClaim v id → base.node? (.eventReceipt, id) = none
  edges : ∀ e, Emits v.store e → Emits base e ∨ base.node? e.target = none

/-- Only receipts that the transaction created are claimed in it, and linked. -/
lemma since_kept (base : Store) : Kept LinksOnly (Since base) where
  call op v hop h := by
    have heffect := call_effect v op
    refine ⟨fun key hkey => heffect.nodes (h.nodes key hkey), fun id hclaim => ?_,
      fun e he => ?_⟩
    · obtain hold | ⟨habsent, -⟩ := heffect.claims hclaim
      · exact h.claims id hold
      · rw [← Option.not_isSome_iff_eq_none]
        intro hsome
        have hnode := h.nodes _ hsome
        rw [habsent] at hnode
        cases hnode
    · obtain hold | ⟨a, id, c, -, rfl, hproof, -⟩ := heffect.emits hop he
      · exact h.edges e hold
      · exact .inr (h.claims id (hasClaim_of_proof hproof))
  begins v h := ⟨h.nodes, fun id hclaim => h.claims id (hasClaim_begun hclaim), h.edges⟩
  ends _ _ _ _ h := ⟨h.nodes, fun id hclaim => absurd hclaim not_hasClaim_idle, h.edges⟩

/-- The operation gives no receipt another subject. -/
def KeepsSubjects : StorageCall → Prop
  | .updateNode key props | .archiveNode key (some props) =>
    key.1 = .eventReceipt → props .subjectLabel = none ∧ props .subjectId = none
  | _ => True

lemma NamesSubject.rewrites (hop : KeepsSubjects op)
    (hkey : key.1 = .eventReceipt) (h : Rewrites op key old new) (hold : NamesSubject old subject) :
    NamesSubject new subject := by
  obtain ⟨props, archived, rfl, hcall⟩ := h
  have hprops : props .subjectLabel = none ∧ props .subjectId = none := by
    obtain rfl | rfl | rfl := hcall
    · exact hop hkey
    · exact hop hkey
    · exact ⟨rfl, rfl⟩
  simp only [NamesSubject, Props.merge, hprops.1, hprops.2, Option.none_or]
  exact hold

lemma CallEffect.names (h : CallEffect v op v') (hop : KeepsSubjects op)
    {old : Node} (hkey : key.1 = .eventReceipt) (hold : v.store.node? key = some old)
    (hnames : NamesSubject old subject) :
    ∃ new, v'.store.node? key = some new ∧ NamesSubject new subject := by
  have hput : ∀ {key' node}, (key' = key → NamesSubject node subject) →
      ∃ new, (v.store.put key' node).node? key = some new ∧ NamesSubject new subject := by
    intro key' node hnode
    by_cases hne : key' = key
    · exact ⟨node, by rw [hne, GraphStore.node?_put_self], hnode hne⟩
    · exact ⟨old, by rw [GraphStore.node?_put_of_ne _ (Ne.symm hne), hold], hnames⟩
  have habsent : ∀ {key'}, v.store.node? key' = none → key' ≠ key := by
    rintro key' habsent rfl
    rw [hold] at habsent
    cases habsent
  cases h with
  | calm hstore _ => exact ⟨old, hstore ▸ hold, hnames⟩
  | created _ hnone hstore _ => exact hstore ▸ hput fun heq => absurd heq (habsent hnone)
  | replaced _ hheld hstore _ hcontent =>
    rw [hstore]
    apply hput
    rintro rfl
    rw [hold] at hheld
    cases hheld
    exact hnames.rewrites hop hkey (hcontent hkey)
  | linked _ htrace _ => exact ⟨old, by rw [htrace.node?_of_notMem (by simp), hold], hnames⟩
  | unlinked _ htrace _ => exact ⟨old, by rw [htrace.node?_of_notMem (by simp), hold], hnames⟩
  | claimed _ hnone hstore _ => exact hstore ▸ hput fun heq => absurd heq (habsent hnone)
  | emitted _ _ _ _ htrace _ =>
    exact ⟨old, by rw [htrace.node?_of_notMem (by simp), hold], hnames⟩

/-- Every link comes from the subject that its receipt records. -/
lemma named_kept : Kept (fun op => LinksOnly op ∧ KeepsSubjects op) fun v =>
    ∀ e, Emits v.store e → ∃ node, v.store.node? e.target = some node ∧
      e.target.1 = .eventReceipt ∧ NamesSubject node e.source where
  call op v hop h := by
    intro e he
    have heffect := call_effect v op
    have hnamed : ∃ node, v.store.node? e.target = some node ∧
        e.target.1 = .eventReceipt ∧ NamesSubject node e.source := by
      obtain hold | ⟨a, id, c, -, rfl, -, hlinkable⟩ := heffect.emits hop.1 he
      · exact h e hold
      · obtain ⟨node, hnode, hnames⟩ := linkable_names hlinkable
        exact ⟨node, hnode, rfl, hnames⟩
    obtain ⟨node, hnode, hlabel, hnames⟩ := hnamed
    obtain ⟨new, hnew, hnames⟩ := heffect.names hop.2 hlabel hnode hnames
    exact ⟨new, hnew, hlabel, hnames⟩
  begins v h := h
  ends _ _ _ _ h := h

lemma link_unclaimed (h : ¬ HasClaim s.view id) :
    ∃ e, (s.linkNewEventReceipt subject id).1 = .error e := by
  refine (link_refused fun hclaim => ?_).1
  obtain ⟨c, hc⟩ := Option.isSome_iff_exists.1 hclaim.2
  have hproof := view_proof (m := s) subject id
  rw [hc] at hproof
  exact h (hasClaim_of_proof hproof)

lemma not_hasClaim_of_idle (h : m.state = none) : ¬ HasClaim m.view id := by
  rintro ⟨t, ht, -⟩
  rw [Memory.view, h] at ht
  cases ht

/-- A successful link is from the subject that the receipt records at that moment. -/
lemma link_names (h : (s.linkNewEventReceipt subject id).1 = .ok e) :
    e = eventEdge subject id ∧ ∃ node, s.store.node? (.eventReceipt, id) = some node ∧
      NamesSubject node subject := by
  unfold Memory.linkNewEventReceipt at h
  cases hids : validateLink subject id with
  | error e' =>
    rw [hids] at h
    cases h
  | ok _ =>
    cases hproof : s.proof subject id with
    | none =>
      simp only [hids, hproof] at h
      cases h
    | some claim =>
      simp only [hids, hproof, Memory.link] at h
      split at h
      · rename_i hlive
        rw [Bool.and_eq_true] at hlive
        refine ⟨?_, linkable_names hlive.2⟩
        cases hedges : s.onEdges (createEdge (eventEdge subject id)) with
        | mk r m' =>
          rw [hedges] at h
          cases r with
          | ok u => exact (Except.ok.inj h).symm
          | error e' => cases h
      · cases h

lemma CallEffect.idle (h : CallEffect v op v') : v'.state.isNone = v.state.isNone := by
  cases h with
  | calm _ hstate =>
    obtain hstate | ⟨-, hstate⟩ := hstate
    · rw [hstate]
    · rw [hstate]
      exact Option.isNone_map
  | created _ _ _ hstate => rw [hstate, Option.isNone_map]
  | replaced _ _ _ hstate => rw [hstate, Option.isNone_map]
  | linked _ _ hstate => rw [hstate]
  | unlinked _ _ hstate => rw [hstate]
  | claimed _ _ _ hstate => rw [hstate, Option.isNone_map]
  | emitted _ _ _ _ _ hstate => rw [hstate, Option.isNone_map]

/-- A program closes the blocks that it opens. -/
lemma exec_idle (p : StorageProgram α) (v : StorageView) :
    (viewMachine.exec p v).2.state.isNone = v.state.isNone := by
  induction p generalizing v with
  | done result => rfl
  | call op next ih => exact (ih _ _).trans (call_effect v op).idle
  | block body next ihbody ih =>
    refine (ih _ _).trans ?_
    rcases viewMachine.leave_cases v (viewMachine.exec body { v with state := some v.begun }) with
      ⟨b, -, -, hleave⟩ | ⟨e, -, hleave⟩
    · refine (congrArg (·.state.isNone) hleave).trans ?_
      change (if v.state.isNone then _ else _ : StorageView).state.isNone = _
      cases hidle : v.state.isNone with
      | true => rfl
      | false => exact ihbody _
    · exact congrArg (·.state.isNone) hleave

lemma idle_of_init (p : StorageProgram α) :
    (memoryMachine.exec p Memory.init).2.state = none := by
  have hidle := exec_idle p Memory.init.view
  have hrun := viewHom.exec p Memory.init
  rw [viewHom_state] at hrun
  rw [hrun] at hidle
  simpa [Memory.view, Memory.init, viewHom] using hidle

/-- Links to receipts in every committed state. -/
theorem receipts_linked_once (p : StorageProgram α) (hp : p.Only LinksOnly) :
    let m := (memoryMachine.exec p Memory.init).2
    (∀ e e', Emits m.store e → Emits m.store e' → e.target = e'.target → e = e') ∧
    -- The subject that the receipt records, when it is linked and for as long as it is kept.
    (∀ (s : Memory) subject id e, (s.linkNewEventReceipt subject id).1 = .ok e →
      e = eventEdge subject id ∧ ∃ node, s.store.node? (.eventReceipt, id) = some node ∧
        NamesSubject node subject) ∧
    (p.Only KeepsSubjects → ∀ e, Emits m.store e →
      ∃ node, m.store.node? e.target = some node ∧ NamesSubject node e.source) ∧
    -- The outermost transaction that links a receipt is the one that created it.
    (∀ op, LinksOnly op → ∀ e, Emits (m.call op).2.store e → Emits m.store e) ∧
    (∀ (β : Type) (body : StorageProgram β), body.Only LinksOnly →
      ∀ e, Emits (memoryMachine.block body m).2.store e →
        Emits m.store e ∨ m.store.node? e.target = none) ∧
    -- A receipt of an earlier transaction is never linked, nor one whose claim was undone.
    (∀ (s : Memory) subject id, (m.store.node? (.eventReceipt, id)).isSome →
      Reaches (fun _ => True) m s →
      ∃ e, (s.linkNewEventReceipt subject id).1 = .error e) ∧
    ∀ (β : Type) (body : StorageProgram β) (s : Memory) e id,
      (memoryMachine.block body s).1 = .error e → ¬ HasClaim s.view id →
      ∀ s' subject, Reaches (fun op => ∀ digest props, op ≠ .claimEventReceipt id digest props)
        (memoryMachine.block body s).2 s' →
      ∃ e, (s'.linkNewEventReceipt subject id).1 = .error e := by
  intro m
  have hidle : m.state = none := idle_of_init p
  have hnone : ∀ id, ¬ HasClaim m.view id := fun id => not_hasClaim_of_idle hidle
  have hempty : ∀ e, ¬ Emits Memory.init.store e := fun e he => by cases he.1
  refine ⟨?_, fun s subject id e => link_names, ?_, ?_, ?_, ?_, ?_⟩
  · exact single_kept.exec hp fun e e' he => absurd he (hempty e)
  · intro hsubjects e he
    rcases named_kept.exec (m := Memory.init) (hp.and hsubjects)
      (fun e he => absurd he (hempty e)) e he with ⟨node, hnode, -, hnames⟩
    exact ⟨node, hnode, hnames⟩
  · intro op hop e he
    have hcall : (m.view.call op).2.store = (m.call op).2.store := by
      rw [view_call]
      rfl
    obtain hold | ⟨_, id, _, -, -, hproof, -⟩ := (call_effect m.view op).emits hop (hcall ▸ he)
    · exact hold
    · exact absurd (hasClaim_of_proof hproof) (hnone id)
  · intro β body hbody e he
    have hbase : Since m.store m.view :=
      ⟨fun _ h => h, fun id h => absurd h (hnone id), fun _ h => .inl h⟩
    have hblock : (memoryMachine.exec (.block body .done) m).2 = (memoryMachine.block body m).2 :=
      rfl
    have hsince := (since_kept m.store).exec (p := .block body .done)
      ⟨hbody, fun _ => trivial⟩ hbase
    exact hsince.edges e (hblock ▸ he)
  · intro s subject id hnode hreach
    exact link_unclaimed ((settled_kept id).reaches ⟨hnode, hnone id⟩ hreach).2
  · intro β body s e id hfails hclaim s' subject hreach
    have hview := block_error_view hfails
    exact link_unclaimed ((unclaimed_kept id).reaches (hview ▸ hclaim) hreach)

/-! A receipt that is linked in the block that claims it. -/

def emitting : StorageProgram EdgeRecord := .block (claiming.bind fun _ => linking) .done

lemma emitting_only : emitting.Only LinksOnly :=
  ⟨⟨trivial, fun _ => ⟨trivial, fun _ => ⟨trivial, fun _ => trivial⟩⟩⟩, fun _ => trivial⟩

theorem receipts_linked_once_emitting :
    Emits (memoryMachine.exec emitting Memory.init).2.store
        (eventEdge (.issue, "issue-1") "receipt-1") ∧
      ∀ e, Emits (memoryMachine.exec emitting Memory.init).2.store e →
        e.target = (.eventReceipt, "receipt-1") → e = eventEdge (.issue, "issue-1") "receipt-1" :=
  have hemits : Emits (memoryMachine.exec emitting Memory.init).2.store
      (eventEdge (.issue, "issue-1") "receipt-1") := ⟨List.mem_singleton.2 rfl, rfl⟩
  ⟨hemits, fun e he htarget =>
    (receipts_linked_once emitting emitting_only).1 e _ he hemits htarget⟩

/-- An update may give a linked receipt another subject. -/
def readdressing : StorageProgram Node :=
  .block emitting fun _ =>
    .call (.updateNode (.eventReceipt, "receipt-1") (prop1 .subjectId (.str "issue-2"))) .done

theorem readdressed_receipt :
    readdressing.Only LinksOnly ∧
      ∃ e node, Emits (memoryMachine.exec readdressing Memory.init).2.store e ∧
        (memoryMachine.exec readdressing Memory.init).2.store.node? e.target = some node ∧
        ¬ NamesSubject node e.source := by
  refine ⟨⟨emitting_only, fun _ => ⟨trivial, fun _ => trivial⟩⟩,
    eventEdge (.issue, "issue-1") "receipt-1",
    ⟨(receiptProps "a").merge (prop1 .subjectId (.str "issue-2")), false⟩,
    ⟨List.mem_singleton.2 rfl, rfl⟩, rfl, ?_⟩
  rintro ⟨-, hid⟩
  exact absurd hid (by decide)

end Runs

end DevGraph.Proofs
