import DevGraph.Proofs.StorageWrites
import DevGraph.Work.StorageView

/-!
# Nested blocks of the in-memory storage

The storage does what the machine without identities does, operation by operation and so
program by program. A block that fails is therefore undone without a trace.
-/

namespace DevGraph.Proofs

open Lib Work

variable {v : StorageView}

variable {m : Memory}

/-- A write of the record at the key and of nothing else. -/
def WritesAt (key : Key) (f : Tx Node) : Prop :=
  ∀ s node s', f s = .ok node s' → s' = s.put key node

lemma createNode_writesAt (key : Key) (props : Props) : WritesAt key (createNode key props) := by
  intro s node s' h
  obtain ⟨_, _, _, _, hput⟩ := createNode_ok h
  exact hput

lemma replaceNode_writesAt (key : Key) (f : Node → Except Error Node) :
    WritesAt key (replaceNode key f) := by
  intro s node s' h
  obtain ⟨_, _, _, htrace⟩ := replaceNode_ok h
  cases htrace with
  | update _ htrace =>
    cases htrace
    rfl

/-- A change of edges that leaves the nodes alone. -/
def KeepsNodes (f : Tx Unit) : Prop := ∀ s u s', f s = .ok u s' → ∀ key, s'.node? key = s.node? key

lemma createEdge_keepsNodes (e : EdgeRecord) : KeepsNodes (createEdge e) := by
  intro s u s' h key
  have htrace := createEdge_trace h
  exact htrace.node?_of_notMem (by simp)

lemma deleteEdge_keepsNodes (a : Key) (r : Relationship) (b : Key) :
    KeepsNodes (deleteEdge a r b) := by
  intro s u s' h key
  have htrace := deleteEdge_trace h
  exact htrace.node?_of_notMem (by simp)

lemma view_eq (hstore : m.store = v.store)
    (hconstraints : m.appliedConstraints = v.appliedConstraints) (hstate : m.view.state = v.state) :
    m.view = v := by
  cases v
  subst hstore hconstraints hstate
  rfl

/-- The views agree when every claim is as live as before. -/
lemma view_state {m' : Memory} {f : TransactionState → TransactionState}
    {g : StateView → StateView} (hstate : m'.state = m.state.map f)
    (h : ∀ t ∈ m.state, (f t).view m' = g (t.view m)) :
    m'.view.state = m.view.state.map g := by
  unfold Memory.view
  rw [hstate, Option.map_map, Option.map_map]
  exact Option.map_congr h

lemma view_put {key : Key} {node : Node} :
    (m.put (m.store.put key node) key).view =
      { m.view with store := m.store.put key node
                    state := m.view.state.map (·.overwrite key) } := by
  apply view_eq rfl rfl
  apply view_state (f := id) (by rw [Option.map_id]; rfl)
  intro t ht
  unfold TransactionState.view StateView.overwrite
  congr 1
  funext id
  simp only [Option.map_map]
  apply Option.map_congr
  intro claim hclaim
  have hstamp := (m.claims t ht id claim hclaim).2
  unfold FreshClaim.view
  simp only [Function.comp]
  congr 1
  unfold FreshClaim.live
  by_cases hkey : key = (.eventReceipt, id)
  · simp [Memory.put, hkey]
    omega
  · simp [Memory.put, hkey, Function.update_of_ne (Ne.symm hkey),
      GraphStore.node?_put_of_ne _ (Ne.symm hkey)]

lemma view_write {key : Key} {f : Tx Node} (hf : WritesAt key f) :
    m.view.write key f = ((m.write key f).1, (m.write key f).2.view) := by
  unfold StorageView.write Memory.write
  rw [show m.view.store = m.store from rfl]
  cases h : f m.store with
  | error e s => rfl
  | ok node s =>
    cases hf _ _ _ h
    simp only [view_put]

lemma view_archive (key : Key) (props : Option Props) :
    m.view.archive key props = ((m.archive key props).1, (m.archive key props).2.view) := by
  cases props with
  | some props => exact view_write (replaceNode_writesAt _ _)
  | none =>
    unfold StorageView.archive Memory.archive
    rw [show m.view.store = m.store from rfl]
    cases requireNode m.store key with
    | error e => rfl
    | ok node =>
      by_cases hsettled : settled key node = true
      · simp only [hsettled, if_true]
      · simp only [hsettled]
        exact view_write (replaceNode_writesAt _ _)

lemma view_keep {store : Store} (hnodes : ∀ key, store.node? key = m.store.node? key) :
    ({ m with store := store } : Memory).view = { m.view with store := store } := by
  apply view_eq rfl rfl
  change m.state.map _ = m.state.map _
  apply Option.map_congr
  intro t _
  unfold TransactionState.view
  congr 1
  funext receipt
  apply Option.map_congr
  intro claim _
  unfold FreshClaim.live
  simp only [hnodes]

lemma view_onEdges {f : Tx Unit} (hf : KeepsNodes f) :
    m.view.onEdges f = ((m.onEdges f).1, (m.onEdges f).2.view) := by
  unfold StorageView.onEdges Memory.onEdges
  rw [show m.view.store = m.store from rfl]
  cases h : f m.store with
  | error e s => rfl
  | ok u s => simp only [view_keep (hf _ _ _ h)]

/-- A claim of the record just written is live. -/
lemma view_register {id : String} {props : Props}
    (hnode : (m.store.node? (.eventReceipt, id)).isSome) :
    (m.register id props).view =
      { m.view with state := m.view.state.map (·.claim id props) } := by
  apply view_eq rfl rfl
  apply view_state (f := (·.claim id props (m.stamp (.eventReceipt, id)))) rfl
  intro t _
  unfold TransactionState.view StateView.claim TransactionState.claim
  congr 1
  funext receipt
  by_cases hid : receipt = id
  · subst hid
    simp [FreshClaim.view, FreshClaim.live, Memory.register, hnode]
  · simp only [Function.update_of_ne hid]
    rfl

lemma view_createReceipt (id : String) (props : Props) :
    m.view.createReceipt id props =
      ((m.createReceipt id props).1, (m.createReceipt id props).2.view) := by
  unfold StorageView.createReceipt Memory.createReceipt
  rw [view_write (createNode_writesAt _ _)]
  unfold Memory.write
  cases h : createNode (.eventReceipt, id) props m.store with
  | error e s => rfl
  | ok node s =>
    have hput := createNode_writesAt _ _ _ _ _ h
    have hnode : ((m.put s (.eventReceipt, id)).store.node? (.eventReceipt, id)).isSome := by
      rw [hput]
      simp [Memory.put]
    simp only [view_register hnode]

lemma view_claimEventReceipt (id digest : String) (props : Props) :
    m.view.claimEventReceipt id digest props =
      ((m.claimEventReceipt id digest props).1, (m.claimEventReceipt id digest props).2.view) := by
  unfold StorageView.claimEventReceipt Memory.claimEventReceipt
  by_cases hdigest : props .idempotencyClaimDigest = some (.str digest)
  · rw [if_neg (not_not.2 hdigest), if_neg (not_not.2 hdigest)]
    rw [show m.view.store = m.store from rfl]
    cases receiptMatches m.store .idempotencyClaimDigest digest with
    | nil => exact view_createReceipt id props
    | cons found rest => cases rest <;> rfl
  · rw [if_pos hdigest, if_pos hdigest]

lemma view_spoil : m.spoil.view = m.view.spoil := by
  apply view_eq rfl rfl
  exact view_state (f := fun t => { t with rollbackOnly := true }) rfl fun _ _ => rfl

lemma view_consume (id : String) :
    (m.consume id).view = { m.view with state := m.view.state.map (·.consume id) } := by
  apply view_eq rfl rfl
  apply view_state (f := (·.consume id)) rfl
  intro t _
  unfold TransactionState.view StateView.consume TransactionState.consume
  congr 1
  funext receipt
  by_cases hid : receipt = id
  · subst hid
    simp only [Function.update_self, Option.map_none]
  · simp only [Function.update_of_ne hid]
    rfl

lemma view_proof (subject : Key) (receiptId : String) :
    m.view.proof subject receiptId =
      (m.proof subject receiptId).map fun claim => claim.view (claim.live m receiptId) := by
  unfold StorageView.proof Memory.proof Memory.view
  cases ht : m.state with
  | none => rfl
  | some t =>
    change Option.filter _ ((t.freshReceiptClaims receiptId).map _) =
      ((t.freshReceiptClaims receiptId).filter _).map _
    cases hclaim : t.freshReceiptClaims receiptId with
    | none => rfl
    | some claim =>
      have htoken := (m.claims t ht receiptId claim hclaim).1
      simp only [Option.map_some, Option.filter_some, htoken, decide_true, Bool.true_and,
        FreshClaim.view]
      split <;> simp_all

lemma view_link (subject : Key) (receiptId : String) (claim : FreshClaim) :
    m.view.link subject receiptId (claim.view (claim.live m receiptId)) =
      ((m.link subject receiptId claim).1, (m.link subject receiptId claim).2.view) := by
  unfold StorageView.link Memory.link
  rw [view_onEdges (createEdge_keepsNodes _)]
  change (if (claim.live m receiptId && linkable m.store subject receiptId) = true then _ else _)
    = _
  by_cases hlive : (claim.live m receiptId && linkable m.store subject receiptId) = true
  · rw [if_pos hlive, if_pos hlive]
    cases h : m.onEdges (createEdge (eventEdge subject receiptId)) with
    | mk r m' =>
      cases r with
      | ok u => simp only [view_consume]
      | error e => simp only [view_spoil]
  · rw [if_neg hlive, if_neg hlive, view_spoil]

lemma view_linkNewEventReceipt (subject : Key) (receiptId : String) :
    m.view.linkNewEventReceipt subject receiptId =
      ((m.linkNewEventReceipt subject receiptId).1,
        (m.linkNewEventReceipt subject receiptId).2.view) := by
  unfold StorageView.linkNewEventReceipt Memory.linkNewEventReceipt
  rw [view_proof]
  cases validateLink subject receiptId with
  | error e => rfl
  | ok _ =>
    cases m.proof subject receiptId with
    | none => rfl
    | some claim => exact view_link subject receiptId claim

lemma view_call (op : StorageCall) : m.view.call op = ((m.call op).1, (m.call op).2.view) := by
  cases op with
  | createNode key props => exact view_write (createNode_writesAt _ _)
  | updateNode key props => exact view_write (replaceNode_writesAt _ _)
  | archiveNode key props => exact view_archive key props
  | restoreNode key props => exact view_write (replaceNode_writesAt _ _)
  | createEdge e => exact view_onEdges (createEdge_keepsNodes e)
  | deleteEdge a r b => exact view_onEdges (deleteEdge_keepsNodes a r b)
  | applyConstraints statements => rfl
  | findEventReceiptByDigest property digest => rfl
  | claimEventReceipt id digest props => exact view_claimEventReceipt id digest props
  | linkNewEventReceipt subject receiptId => exact view_linkNewEventReceipt subject receiptId
  | read query => rfl

/-! ## Blocks -/

def Savepoint.view (k : Savepoint) : StorageView :=
  ⟨k.store, k.appliedConstraints,
    if k.outer then none
    else some ⟨fun id => (k.state.freshReceiptClaims id).map fun claim =>
        claim.view ((k.store.node? (.eventReceipt, id)).isSome && k.stamp = claim.stamp),
      k.state.rollbackOnly⟩⟩

/-- The copies of a block stand for the records that they were made of. -/
lemma view_savepoint : m.view = Savepoint.view m.savepoint := by
  apply view_eq rfl rfl
  change m.state.map _ = if m.state.isNone then none else some (StateView.mk (fun id =>
    ((m.begun.freshReceiptClaims id).map (copiedClaim m (m.supply + 1) id)).map _)
      m.begun.rollbackOnly)
  cases ht : m.state with
  | none => rfl
  | some t =>
    have hbegun : m.begun = t := by rw [Memory.begun, ht, Option.getD_some]
    rw [hbegun]
    simp only [Option.isNone_some, Bool.false_eq_true, if_false, Option.map_some, Option.map_map,
      TransactionState.view]
    congr 2
    funext id
    apply Option.map_congr
    intro claim hclaim
    have hstamp := (m.claims t ht id claim hclaim).2
    -- A claim that was not live keeps its old identity, which no copy has.
    by_cases hlive : claim.live m id = true
    · have hnode : (m.store.node? (.eventReceipt, id)).isSome := by
        unfold FreshClaim.live at hlive
        exact (Bool.and_eq_true_iff.1 hlive).1
      simp [Function.comp, copiedClaim, FreshClaim.view, hlive, hnode, Memory.savepoint]
    · have hne : m.supply + 1 ≠ claim.stamp := by omega
      simp [Function.comp, copiedClaim, FreshClaim.view, hlive, hne, Memory.savepoint]

lemma view_rollback (k : Savepoint) : (m.rollback k).view = Savepoint.view k := by
  apply view_eq rfl rfl
  change Option.map _ (if k.outer then none else some k.state) = if k.outer then none else _
  split <;> rfl

lemma view_commit (k : Savepoint) :
    (m.commit k).view = if k.outer then { m.view with state := none } else m.view := by
  unfold Memory.commit
  split <;> rfl

lemma view_enter : m.enter.2.view = { m.view with state := some m.view.begun } := by
  apply view_eq rfl rfl
  change some (m.begun.view m.enter.2) = some m.view.begun
  unfold StorageView.begun Memory.begun Memory.view
  cases m.state with
  | none => rfl
  | some t => rfl

lemma view_check : m.view.check = m.check := by
  unfold StorageView.check Memory.check Memory.view
  cases m.state with
  | none => rfl
  | some t => rfl

/-- The storage does what the machine without identities does. -/
def viewHom : Machine.Hom memoryMachine viewMachine where
  state := Memory.view
  savepoint := Savepoint.view
  step op m := view_call op
  enter m := by
    change (m.view, _) = (Savepoint.view m.savepoint, m.enter.2.view)
    rw [view_enter, view_savepoint]
  check m := view_check
  commit k m := by
    change (if (Savepoint.view k).state.isNone then _ else _) = (m.commit k).view
    rw [view_commit]
    unfold Savepoint.view
    cases k.outer with
    | true => rfl
    | false => rfl
  rollback k m := (view_rollback k).symm

lemma viewHom_state : viewHom.state m = m.view := rfl

section Runs

variable {α β : Type}

/-- Memories that are seen alike are not told apart by any program. -/
lemma exec_view {m m' : Memory} (h : m.view = m'.view) (p : StorageProgram α) :
    (memoryMachine.exec p m).1 = (memoryMachine.exec p m').1 ∧
      (memoryMachine.exec p m).2.view = (memoryMachine.exec p m').2.view := by
  have hm := viewHom.exec p m
  have hm' := viewHom.exec p m'
  change viewMachine.exec p m.view = _ at hm
  rw [h] at hm
  exact Prod.mk.inj (hm.symm.trans hm')

/-- A block that fails leaves what was seen when it began. -/
lemma block_error_view {body : StorageProgram β} {e : Error}
    (h : (memoryMachine.block body m).1 = .error e) :
    (memoryMachine.block body m).2.view = m.view := by
  rcases memoryMachine.leave_cases (memoryMachine.enter m).1
    (memoryMachine.exec body (memoryMachine.enter m).2) with ⟨b, hok, -, -⟩ | ⟨e', -, hleave⟩
  · have hb : (memoryMachine.block body m).1 = .ok b := hok
    rw [h] at hb
    cases hb
  · have hroll : (memoryMachine.block body m).2 = Memory.rollback m.savepoint _ := hleave
    rw [hroll, view_rollback, ← view_savepoint]

/-- The running transaction may only be rolled back. -/
def Spoiled (v : StorageView) : Prop := v.state.any (·.rollbackOnly) = true

lemma spoiled_map {f : StateView → StateView}
    (hf : ∀ t, (f t).rollbackOnly = t.rollbackOnly) (h : Spoiled v) :
    (v.state.map f).any (·.rollbackOnly) = true := by
  unfold Spoiled at h
  cases ht : v.state with
  | none =>
    rw [ht] at h
    cases h
  | some t =>
    rw [ht] at h
    change (f t).rollbackOnly = true
    rw [hf]
    exact h

lemma spoiled_write (key : Key) (f : Tx Node) (h : Spoiled v) :
    Spoiled (v.write key f).2 := by
  unfold StorageView.write
  cases f v.store with
  | ok node s => exact spoiled_map (fun _ => rfl) h
  | error e s => exact h

lemma spoiled_onEdges (f : Tx Unit) (h : Spoiled v) :
    Spoiled (v.onEdges f).2 := by
  unfold StorageView.onEdges
  cases f v.store with
  | ok u s => exact h
  | error e s => exact h

lemma spoiled_spoil (h : v.state.isSome) : Spoiled v.spoil := by
  obtain ⟨t, ht⟩ := Option.isSome_iff_exists.1 h
  unfold Spoiled StorageView.spoil
  rw [ht]
  rfl

lemma Spoiled.active (h : Spoiled v) : v.state.isSome := by
  unfold Spoiled at h
  cases ht : v.state with
  | none =>
    rw [ht] at h
    cases h
  | some t => rfl

lemma spoiled_link (subject : Key) (receiptId : String) (c : ClaimView) (h : Spoiled v) :
    Spoiled (v.link subject receiptId c).2 := by
  have hedges := spoiled_onEdges (createEdge (eventEdge subject receiptId)) h
  unfold StorageView.link
  split
  · cases hcreate : v.onEdges (createEdge (eventEdge subject receiptId)) with
    | mk r v' =>
      rw [hcreate] at hedges
      cases r with
      | ok u => exact spoiled_map (fun _ => rfl) hedges
      | error e => exact spoiled_spoil hedges.active
  · exact spoiled_spoil h.active

lemma spoiled_claim (id digest : String) (props : Props) (h : Spoiled v) :
    Spoiled (v.claimEventReceipt id digest props).2 := by
  have hwrite := spoiled_write (.eventReceipt, id) (createNode (.eventReceipt, id) props) h
  unfold StorageView.claimEventReceipt
  split
  · exact h
  · split
    · unfold StorageView.createReceipt
      cases hcreate : v.write (.eventReceipt, id) (createNode (.eventReceipt, id) props) with
      | mk r v' =>
        rw [hcreate] at hwrite
        cases r with
        | ok node => exact spoiled_map (fun _ => rfl) hwrite
        | error e => exact hwrite
    · exact h
    · exact h

lemma spoiled_archive (key : Key) (props : Option Props) (h : Spoiled v) :
    Spoiled (v.archive key props).2 := by
  cases props with
  | some props => exact spoiled_write _ _ h
  | none =>
    simp only [StorageView.archive]
    cases requireNode v.store key with
    | error e => exact h
    | ok node =>
      by_cases hsettled : settled key node = true
      · simp only [hsettled, if_true]
        exact h
      · simp only [hsettled]
        exact spoiled_write _ _ h

lemma spoiled_call (op : StorageCall) (h : Spoiled v) :
    Spoiled (v.call op).2 := by
  cases op with
  | createNode key props => exact spoiled_write _ _ h
  | updateNode key props => exact spoiled_write _ _ h
  | archiveNode key props => exact spoiled_archive key props h
  | restoreNode key props => exact spoiled_write _ _ h
  | createEdge e => exact spoiled_onEdges _ h
  | deleteEdge a r b => exact spoiled_onEdges _ h
  | applyConstraints statements => exact h
  | findEventReceiptByDigest property digest => exact h
  | claimEventReceipt id digest props => exact spoiled_claim id digest props h
  | linkNewEventReceipt subject receiptId =>
    change Spoiled (v.linkNewEventReceipt subject receiptId).2
    unfold StorageView.linkNewEventReceipt
    split
    · exact h
    · split
      · exact h
      · exact spoiled_link subject receiptId _ h
  | read query => exact h

/-- Once spoiled, a block stays so to its end, whatever inner blocks it runs. -/
lemma spoiled_exec (p : StorageProgram α) (h : Spoiled v) :
    Spoiled (viewMachine.exec p v).2 := by
  have honly : p.Only fun _ => True := p.only_true
  refine viewMachine.exec_invariant Spoiled Spoiled (fun op v _ hv => spoiled_call op hv) ?_ ?_
    (fun k v hk _ => hk) honly h
  · intro v hv
    refine ⟨hv, ?_⟩
    obtain ⟨t, ht⟩ := Option.isSome_iff_exists.1 hv.active
    have hbegun : v.begun = t := by rw [StorageView.begun, ht, Option.getD_some]
    unfold Spoiled at hv ⊢
    rw [ht] at hv
    change v.begun.rollbackOnly = true
    rw [hbegun]
    exact hv
  · intro k v hk hv
    change Spoiled (if k.state.isNone then _ else v)
    rw [Option.isNone_eq_false_iff.2 hk.active]
    exact hv

variable {receiptId : String}

/-- A link that finds its claim and fails makes its transaction one to roll back. -/
lemma link_error_spoils {subject : Key} {e : Error}
    (hids : validateLink subject receiptId = .ok ()) (hproof : (v.proof subject receiptId).isSome)
    (h : (v.linkNewEventReceipt subject receiptId).1 = .error e) :
    Spoiled (v.linkNewEventReceipt subject receiptId).2 := by
  obtain ⟨c, hc⟩ := Option.isSome_iff_exists.1 hproof
  have hactive : v.state.isSome := by
    unfold StorageView.proof at hc
    obtain ⟨t, ht, -⟩ := Option.bind_eq_some_iff.1 hc
    rw [ht]
    rfl
  unfold StorageView.linkNewEventReceipt at h ⊢
  simp only [hids, hc] at h ⊢
  unfold StorageView.link at h ⊢
  split at h
  · rename_i hlive
    rw [if_pos hlive]
    unfold StorageView.onEdges at h ⊢
    cases hcreate : createEdge (eventEdge subject receiptId) v.store with
    | ok u s =>
      rw [hcreate] at h
      cases h
    | error e' s => exact spoiled_spoil hactive
  · rename_i hlive
    rw [if_neg hlive]
    exact spoiled_spoil hactive

lemma leave_spoiled {k : StorageView} {r : Except Error β × StorageView} (h : Spoiled r.2) :
    ∃ e, (viewMachine.leave k r).1 = .error e := by
  unfold Machine.leave
  cases r.1 with
  | error e => exact ⟨e, rfl⟩
  | ok b =>
    have hcheck : viewMachine.check r.2 = some (unavailable "nested transaction failed") := if_pos h
    rw [hcheck]
    exact ⟨_, rfl⟩

lemma block_spoiled {before : StorageProgram α} {subject : Key}
    {next : Except Error α → Except Error EdgeRecord → StorageProgram β} {e : Error}
    (hids : validateLink subject receiptId = .ok ())
    (hproof : ((memoryMachine.exec before m.enter.2).2.proof subject receiptId).isSome)
    (h : ((memoryMachine.exec before m.enter.2).2.linkNewEventReceipt subject receiptId).1 =
      .error e) :
    ∃ e', (memoryMachine.block (before.bind fun r =>
      .call (.linkNewEventReceipt subject receiptId) (next r)) m).1 = .error e' := by
  have hbefore := viewHom.exec before m.enter.2
  rw [viewHom_state] at hbefore
  have hblock := viewHom.block (before.bind fun r =>
    .call (.linkNewEventReceipt subject receiptId) (next r)) m
  rw [viewHom_state] at hblock
  have hview : (viewMachine.enter m.view).2 = m.enter.2.view := congrArg Prod.snd (viewHom.enter m)
  set s := (memoryMachine.exec before m.enter.2).2 with hs
  have hlink := view_linkNewEventReceipt (m := s) subject receiptId
  have hspoiled : Spoiled (s.view.linkNewEventReceipt subject receiptId).2 := by
    apply link_error_spoils (e := e) hids
    · rw [view_proof, Option.isSome_map]
      exact hproof
    · rw [hlink]
      exact h
  rw [← congrArg Prod.fst hblock, Machine.block, Machine.exec_bind, hview, hbefore]
  exact leave_spoiled (spoiled_exec (next _ _) hspoiled)

/-- A link that is refused before its endpoints are looked at changes nothing. -/
lemma link_refused {s : Memory} {subject : Key}
    (h : ¬ (validateLink subject receiptId = .ok () ∧ (s.proof subject receiptId).isSome)) :
    (∃ e, (s.linkNewEventReceipt subject receiptId).1 = .error e) ∧
      (s.linkNewEventReceipt subject receiptId).2 = s := by
  unfold Memory.linkNewEventReceipt
  cases hids : validateLink subject receiptId with
  | error e => exact ⟨⟨e, rfl⟩, rfl⟩
  | ok _ =>
    cases hproof : s.proof subject receiptId with
    | none => exact ⟨⟨_, rfl⟩, rfl⟩
    | some claim =>
      rw [hids, hproof] at h
      exact absurd ⟨rfl, rfl⟩ h

/-- A failed block is undone without a trace, an outermost one too, and a link that fails on
its claimed receipt takes its block with it. -/
theorem nested_rollback {α β : Type} :
    (∀ (m : Memory) (body : StorageProgram β) (next : Except Error β → StorageProgram α)
      (e : Error), (memoryMachine.block body m).1 = .error e →
        (memoryMachine.exec (.block body next) m).1 = (memoryMachine.exec (next (.error e)) m).1 ∧
        (memoryMachine.exec (.block body next) m).2.view =
          (memoryMachine.exec (next (.error e)) m).2.view) ∧
    (∀ (m m' : Memory) (p : StorageProgram α), m.view = m'.view →
      (memoryMachine.exec p m).1 = (memoryMachine.exec p m').1 ∧
      (memoryMachine.exec p m).2.view = (memoryMachine.exec p m').2.view) ∧
    (∀ (m : Memory) (body : StorageProgram β) (e : Error), m.state = none →
      (memoryMachine.block body m).1 = .error e →
        (memoryMachine.block body m).2.store = m.store ∧
        (memoryMachine.block body m).2.appliedConstraints = m.appliedConstraints ∧
        (memoryMachine.block body m).2.state = none) ∧
    ∀ (m : Memory) (before : StorageProgram α) (subject : Key) (receiptId : String)
      (next : Except Error α → Except Error EdgeRecord → StorageProgram β),
      let s := (memoryMachine.exec before m.enter.2).2
      (validateLink subject receiptId = .ok () ∧ (s.proof subject receiptId).isSome →
        (∃ e, (s.linkNewEventReceipt subject receiptId).1 = .error e) →
          ∃ e, (memoryMachine.block (before.bind fun r =>
            .call (.linkNewEventReceipt subject receiptId) (next r)) m).1 = .error e) ∧
      (¬ (validateLink subject receiptId = .ok () ∧ (s.proof subject receiptId).isSome) →
        (∃ e, (s.linkNewEventReceipt subject receiptId).1 = .error e) ∧
          (s.linkNewEventReceipt subject receiptId).2 = s) := by
  refine ⟨?_, fun m m' p h => exec_view h p, ?_, ?_⟩
  · intro m body next e h
    rw [Machine.exec_block, h]
    exact exec_view (block_error_view h) _
  · intro m body e hidle h
    have hview := block_error_view h
    refine ⟨congrArg StorageView.store hview, congrArg StorageView.appliedConstraints hview, ?_⟩
    have hstate := congrArg StorageView.state hview
    simp only [Memory.view, hidle, Option.map_none, Option.map_eq_none_iff] at hstate
    exact hstate
  · intro m before subject receiptId next s
    refine ⟨?_, link_refused⟩
    rintro ⟨hids, hproof⟩ ⟨e, he⟩
    exact block_spoiled hids hproof he

end Runs

/-! A receipt claimed before an inner block that fails, and linked after it. -/

def receiptProps (digest : String) : Props
  | .idempotencyClaimDigest => some (.str digest)
  | .subjectLabel => some (.str "Issue")
  | .subjectId => some (.str "issue-1")
  | _ => none

def claiming : StorageProgram Unit :=
  .call (.createNode (.issue, "issue-1") noProps) fun _ =>
    .call (.claimEventReceipt "receipt-1" "a" (receiptProps "a")) fun _ => .done (.ok ())

def failingBody : StorageProgram Unit :=
  .call (.claimEventReceipt "receipt-2" "b" (receiptProps "b")) fun _ =>
    .call (.linkNewEventReceipt (.issue, "issue-1") "receipt-1") fun _ =>
      .done (.error ⟨.valueError, "rollback inner claim"⟩)

def linking : StorageProgram EdgeRecord :=
  .call (.linkNewEventReceipt (.issue, "issue-1") "receipt-1") .done

def claimedMemory : Memory := (memoryMachine.exec claiming Memory.init.enter.2).2

theorem nested_rollback_claimed :
    (memoryMachine.block failingBody claimedMemory).1 =
        .error ⟨.valueError, "rollback inner claim"⟩ ∧
      (memoryMachine.exec (.block failingBody fun _ => linking) claimedMemory).1 =
        (memoryMachine.exec linking claimedMemory).1 ∧
      (memoryMachine.exec linking claimedMemory).1 =
        .ok (eventEdge (.issue, "issue-1") "receipt-1") :=
  have hfails : (memoryMachine.block failingBody claimedMemory).1 =
      .error ⟨.valueError, "rollback inner claim"⟩ := rfl
  ⟨hfails, (nested_rollback.1 claimedMemory failingBody (fun _ => linking) _ hfails).1, rfl⟩

/-- A link without a claim fails, and a block in which that is caught is committed. -/
theorem unclaimed_link_commits :
    (Memory.init.enter.2.linkNewEventReceipt (.issue, "issue-1") "receipt-1").1 =
        .error (unavailable "fresh receipt claim required") ∧
      (memoryMachine.block (.call (.linkNewEventReceipt (.issue, "issue-1") "receipt-1")
        fun _ => .done (.ok ())) Memory.init).1 = .ok () :=
  ⟨rfl, rfl⟩

end DevGraph.Proofs
