import DevGraph.Lib.Blocks
import DevGraph.Work.Storage

/-!
# Transactions and receipt claims of the in-memory storage

The storage with what its transactions keep: copies of the nodes and edges, and the claims of
receipts made in the running transaction. Only the very record that a claim created may be linked,
so each record has a stamp, drawn anew for every write and for the copies that a block takes.
-/

namespace DevGraph.Work

open Lib

/-- The proof that the running transaction created a receipt. -/
structure FreshClaim where
  token : Nat
  subjectLabel : Option Value
  subjectId : Option Value
  stamp : Nat

/-- What a thread keeps while it is in a transaction. -/
structure TransactionState where
  token : Nat
  freshReceiptClaims : String → Option FreshClaim
  rollbackOnly : Bool

structure Memory where
  store : Store
  appliedConstraints : List String
  /-- The identity of the record at each key. -/
  stamp : Key → Nat
  /-- The next identity. -/
  supply : Nat
  state : Option TransactionState
  stamps : ∀ key, stamp key < supply
  claims : ∀ t ∈ state, ∀ id, ∀ claim ∈ t.freshReceiptClaims id,
    claim.token = t.token ∧ claim.stamp < supply

/-- The record of a receipt is still the object that the claim created. -/
def FreshClaim.live (claim : FreshClaim) (m : Memory) (id : String) : Bool :=
  (m.store.node? (.eventReceipt, id)).isSome && m.stamp (.eventReceipt, id) = claim.stamp

def Memory.init : Memory where
  store := GraphStore.empty
  appliedConstraints := []
  stamp := fun _ => 0
  supply := 1
  state := none
  stamps := fun _ => Nat.zero_lt_one
  claims := nofun

def unavailable (message : String) : Error := ⟨.storageUnavailable, message⟩

def Memory.put (m : Memory) (store : Store) (key : Key) : Memory where
  store := store
  appliedConstraints := m.appliedConstraints
  stamp := Function.update m.stamp key m.supply
  supply := m.supply + 1
  state := m.state
  stamps := by
    intro key'
    by_cases hkey : key' = key
    · rw [hkey, Function.update_self]
      exact Nat.lt_succ_self _
    · rw [Function.update_of_ne hkey]
      exact Nat.lt_succ_of_lt (m.stamps key')
  claims := fun t ht id claim hclaim =>
    ⟨(m.claims t ht id claim hclaim).1, Nat.lt_succ_of_lt (m.claims t ht id claim hclaim).2⟩

/-- A write of the record at a key. Nothing is written when it raises. -/
def Memory.write (m : Memory) (key : Key) (f : Tx Node) : Except Error Node × Memory :=
  match f m.store with
  | .ok node store => (.ok node, m.put store key)
  | .error e _ => (.error e, m)

/-- The node that archiving leaves, when it is given no properties. -/
def bareArchivedNode (key : Key) (existing : Node) : Except Error Node :=
  if isCanonicalPayload key.1 existing.properties then do
    raiseIf (isArchivedStatus existing.properties = false)
      (unavailable "malformed canonical work object")
    let _ ← canonicalOrUnavailable
      (validateCanonicalWorkObjectProperties key existing.properties true true)
    return ⟨existing.properties, true⟩
  else pure ⟨existing.properties, true⟩

/-- A canonical record that is archived stays the object that it is. -/
def settled (key : Key) (node : Node) : Bool :=
  isCanonicalPayload key.1 node.properties && node.archived

def Memory.archive (m : Memory) (key : Key) : Option Props → Except Error Node × Memory
  | some props => m.write key (archiveNode key props)
  | none =>
    match requireNode m.store key with
    | .ok node =>
      if settled key node then (.ok node, m)
      else m.write key (replaceNode key (bareArchivedNode key))
    | .error e => (.error e, m)

def Memory.onEdges (m : Memory) (f : Tx Unit) : Except Error Unit × Memory :=
  match f m.store with
  | .ok _ store => (.ok (), { m with store := store })
  | .error e _ => (.error e, m)

/-- How many statements were new, and the statements applied after them. -/
def countIdempotentApplication (statements seen : List String) : Nat × List String :=
  statements.foldl
    (fun (n, seen) statement => if statement ∈ seen then (n, seen) else (n + 1, statement :: seen))
    (0, seen)

def Memory.applyConstraints (m : Memory) (statements : List String) :
    Except Error (Nat × Nat) × Memory :=
  let (applied, seen) := countIdempotentApplication statements m.appliedConstraints
  (.ok (applied, statements.length - applied), { m with appliedConstraints := seen })

def receiptMatches (s : Store) (property : Property) (digest : String) : List (String × Node) :=
  (s.nodes.entries.filter fun entry =>
    entry.1.1 = .eventReceipt && entry.2.properties property = some (.str digest)).map
      fun entry => (entry.1.2, entry.2)

def findEventReceiptByDigest (s : Store) (property : Property) (digest : String) :
    Except Error (Option (String × Node)) := do
  raiseIf (property ∉ [Property.idempotencyClaimDigest, .idempotencyKeyDigest] ∨
      isLowerHex 64 digest = false) (unavailable "invalid receipt lookup")
  raiseIf ((receiptMatches s property digest).length > 1) (unavailable "ambiguous receipt lookup")
  return (receiptMatches s property digest).head?

structure EventReceiptClaim where
  created : Bool
  id : String
  node : Node
  deriving DecidableEq

/-- The claims of a transaction with one more, of the record just written. -/
def TransactionState.claim (t : TransactionState) (id : String) (props : Props) (stamp : Nat) :
    TransactionState :=
  { t with
    freshReceiptClaims := Function.update t.freshReceiptClaims id
      (some ⟨t.token, props .subjectLabel, props .subjectId, stamp⟩) }

/-- The receipt just written is claimed, if a transaction is running. -/
def Memory.register (m : Memory) (id : String) (props : Props) : Memory :=
  { m with
    state := m.state.map (·.claim id props (m.stamp (.eventReceipt, id)))
    claims := by
      intro t ht id' claim hclaim
      obtain ⟨t, hold, rfl⟩ := Option.map_eq_some_iff.1 ht
      by_cases hid : id' = id
      · simp only [TransactionState.claim, hid, Function.update_self, Option.mem_some_iff] at hclaim
        rw [← hclaim]
        exact ⟨rfl, m.stamps _⟩
      · simp only [TransactionState.claim, Function.update_of_ne hid] at hclaim
        exact m.claims t hold id' claim hclaim }

def Memory.createReceipt (m : Memory) (id : String) (props : Props) :
    Except Error EventReceiptClaim × Memory :=
  match m.write (.eventReceipt, id) (createNode (.eventReceipt, id) props) with
  | (.ok node, m') => (.ok ⟨true, id, node⟩, m'.register id props)
  | (.error e, m') => (.error e, m')

def Memory.claimEventReceipt (m : Memory) (id digest : String) (props : Props) :
    Except Error EventReceiptClaim × Memory :=
  if props .idempotencyClaimDigest ≠ some (.str digest) then
    (.error (unavailable "invalid idempotency claim"), m)
  else
    match receiptMatches m.store .idempotencyClaimDigest digest with
    | [] => m.createReceipt id props
    | [found] => (.ok ⟨false, found.1, found.2⟩, m)
    | _ => (.error (unavailable "ambiguous idempotency claim"), m)

def eventEdge (subject : Key) (receiptId : String) : EdgeRecord :=
  ⟨subject, .emittedEvent, (.eventReceipt, receiptId), noProps⟩

/-- The claim that allows a link, if there is one. -/
def Memory.proof (m : Memory) (subject : Key) (receiptId : String) : Option FreshClaim :=
  m.state.bind fun t => (t.freshReceiptClaims receiptId).filter fun claim =>
    claim.token = t.token && claim.subjectLabel = some (.str subject.1.name) &&
      claim.subjectId = some (.str subject.2)

/-- The receipt may be linked as it is stored now. -/
def linkable (s : Store) (subject : Key) (receiptId : String) : Bool :=
  (s.node? (.eventReceipt, receiptId)).any (fun target =>
    !target.archived && target.properties .subjectLabel = some (.str subject.1.name) &&
      target.properties .subjectId = some (.str subject.2)) &&
  (s.node? subject).isSome &&
  s.edges.all fun e => !(e.relationship = .emittedEvent && e.target = (.eventReceipt, receiptId))

def TransactionState.consume (t : TransactionState) (id : String) : TransactionState :=
  { t with freshReceiptClaims := Function.update t.freshReceiptClaims id none }

def Memory.consume (m : Memory) (id : String) : Memory :=
  { m with
    state := m.state.map (·.consume id)
    claims := by
      intro t ht id' claim hclaim
      obtain ⟨t, hold, rfl⟩ := Option.map_eq_some_iff.1 ht
      by_cases hid : id' = id
      · simp only [TransactionState.consume, hid, Function.update_self] at hclaim
        cases hclaim
      · simp only [TransactionState.consume, Function.update_of_ne hid] at hclaim
        exact m.claims t hold id' claim hclaim }

/-- The running transaction may only be rolled back. -/
def Memory.spoil (m : Memory) : Memory :=
  { m with
    state := m.state.map fun t => { t with rollbackOnly := true }
    claims := by
      intro t ht
      obtain ⟨t, hold, rfl⟩ := Option.map_eq_some_iff.1 ht
      exact m.claims t hold }

def Memory.link (m : Memory) (subject : Key) (receiptId : String) (claim : FreshClaim) :
    Except Error EdgeRecord × Memory :=
  if claim.live m receiptId && linkable m.store subject receiptId then
    match m.onEdges (createEdge (eventEdge subject receiptId)) with
    | (.ok _, m') => (.ok (eventEdge subject receiptId), m'.consume receiptId)
    | (.error e, m') => (.error e, m'.spoil)
  else (.error (unavailable "fresh receipt endpoints unavailable"), m.spoil)

def validateLink (subject : Key) (receiptId : String) : Except Error Unit := do
  validateWorkObjectId subject.2
  validateWorkObjectId receiptId

def Memory.linkNewEventReceipt (m : Memory) (subject : Key) (receiptId : String) :
    Except Error EdgeRecord × Memory :=
  match validateLink subject receiptId with
  | .error e => (.error e, m)
  | .ok _ =>
    match m.proof subject receiptId with
    | none => (.error (unavailable "fresh receipt claim required"), m)
    | some claim => m.link subject receiptId claim

inductive StorageCall
  | createNode (key : Key) (props : Props)
  | updateNode (key : Key) (props : Props)
  | archiveNode (key : Key) (props : Option Props)
  | restoreNode (key : Key) (props : Props)
  | createEdge (e : EdgeRecord)
  | deleteEdge (source : Key) (relationship : Relationship) (target : Key)
  | applyConstraints (statements : List String)
  | findEventReceiptByDigest (property : Property) (digest : String)
  | claimEventReceipt (id digest : String) (props : Props)
  | linkNewEventReceipt (subject : Key) (receiptId : String)
  /-- Any read of the nodes and edges. -/
  | read (query : Store → Except Error (List (Key × Node) × List EdgeRecord))

def StorageCall.Out : StorageCall → Type
  | .createNode .. | .updateNode .. | .archiveNode .. | .restoreNode .. => Node
  | .createEdge .. | .deleteEdge .. => Unit
  | .applyConstraints .. => Nat × Nat
  | .findEventReceiptByDigest .. => Option (String × Node)
  | .claimEventReceipt .. => EventReceiptClaim
  | .linkNewEventReceipt .. => EdgeRecord
  | .read .. => List (Key × Node) × List EdgeRecord

abbrev StorageProgram := Program StorageCall StorageCall.Out Error

def Memory.call (m : Memory) : (op : StorageCall) → Except Error op.Out × Memory
  | .createNode key props => m.write key (DevGraph.Work.createNode key props)
  | .updateNode key props => m.write key (DevGraph.Work.updateNode key props)
  | .archiveNode key props => m.archive key props
  | .restoreNode key props => m.write key (DevGraph.Work.restoreNode key props)
  | .createEdge e => m.onEdges (DevGraph.Work.createEdge e)
  | .deleteEdge source relationship target =>
    m.onEdges (DevGraph.Work.deleteEdge source relationship target)
  | .applyConstraints statements => m.applyConstraints statements
  | .findEventReceiptByDigest property digest =>
    (DevGraph.Work.findEventReceiptByDigest m.store property digest, m)
  | .claimEventReceipt id digest props => m.claimEventReceipt id digest props
  | .linkNewEventReceipt subject receiptId => m.linkNewEventReceipt subject receiptId
  | .read query => (query m.store, m)

/-! ## Transactions -/

/-- What a block keeps to undo itself. All its copies have one identity. -/
structure Savepoint where
  outer : Bool
  store : Store
  appliedConstraints : List String
  stamp : Nat
  state : TransactionState
  claims : ∀ id, ∀ claim ∈ state.freshReceiptClaims id,
    claim.token = state.token ∧ claim.stamp ≤ stamp

/-- The claims of the records that a copy replaces go over to the copies. -/
def copiedClaim (m : Memory) (stamp : Nat) (id : String) (claim : FreshClaim) : FreshClaim :=
  if claim.live m id then { claim with stamp := stamp } else claim

/-- The transaction of a thread, begun if none is running. -/
def Memory.begun (m : Memory) : TransactionState :=
  m.state.getD ⟨m.supply, fun _ => none, false⟩

lemma Memory.begun_claims (m : Memory) (id : String) :
    ∀ claim ∈ m.begun.freshReceiptClaims id,
      claim.token = m.begun.token ∧ claim.stamp < m.supply := by
  intro claim hclaim
  unfold begun at hclaim ⊢
  cases ht : m.state with
  | none =>
    rw [ht] at hclaim
    cases hclaim
  | some t =>
    rw [ht] at hclaim
    exact m.claims t ht id claim hclaim

def Memory.savepoint (m : Memory) : Savepoint where
  outer := m.state.isNone
  store := m.store
  appliedConstraints := m.appliedConstraints
  stamp := m.supply + 1
  state := { m.begun with
    freshReceiptClaims := fun id =>
      (m.begun.freshReceiptClaims id).map (copiedClaim m (m.supply + 1) id) }
  claims := by
    intro id claim hclaim
    obtain ⟨claim, hold, rfl⟩ := Option.map_eq_some_iff.1 hclaim
    have hsound := m.begun_claims id claim hold
    unfold copiedClaim
    split
    · exact ⟨hsound.1, le_refl _⟩
    · exact ⟨hsound.1, by omega⟩

def Memory.enter (m : Memory) : Savepoint × Memory :=
  (m.savepoint,
    { m with
      state := some m.begun
      supply := m.supply + 2
      stamps := fun key => Nat.lt_add_right 2 (m.stamps key)
      claims := by
        rintro t ⟨⟩ id claim hclaim
        have hsound := m.begun_claims id claim hclaim
        exact ⟨hsound.1, by omega⟩ })

/-- The end of a block raises when a link failed in it. -/
def Memory.check (m : Memory) : Option Error :=
  if m.state.any (·.rollbackOnly) then some (unavailable "nested transaction failed") else none

def Memory.commit (k : Savepoint) (m : Memory) : Memory :=
  if k.outer then { m with state := none, claims := nofun } else m

/-- The copies take the place of the live nodes. The supply of identities never goes back. -/
def Memory.rollback (k : Savepoint) (m : Memory) : Memory where
  store := k.store
  appliedConstraints := k.appliedConstraints
  stamp := fun _ => k.stamp
  supply := max m.supply (k.stamp + 1)
  state := if k.outer then none else some k.state
  stamps := fun _ => lt_of_lt_of_le (Nat.lt_succ_self _) (le_max_right _ _)
  claims := by
    intro t ht id claim hclaim
    split at ht
    · cases ht
    · cases ht
      have hsound := k.claims id claim hclaim
      exact ⟨hsound.1, by omega⟩

def memoryMachine : Machine StorageCall StorageCall.Out Error Memory Savepoint where
  step op m := m.call op
  enter := Memory.enter
  check := Memory.check
  commit := Memory.commit
  rollback := Memory.rollback

end DevGraph.Work
