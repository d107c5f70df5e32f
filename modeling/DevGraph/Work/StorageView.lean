import DevGraph.Work.MemoryStorage

/-!
# The in-memory storage without identities

Seen from outside, a claim of a receipt is either live or not, and a block that fails puts
back what was there when it began.
-/

namespace DevGraph.Work

open Lib

structure ClaimView where
  subjectLabel : Option Value
  subjectId : Option Value
  /-- The record is the one that the claim created. -/
  live : Bool

structure StateView where
  claims : String → Option ClaimView
  rollbackOnly : Bool

structure StorageView where
  store : Store
  appliedConstraints : List String
  state : Option StateView

/-- A claim no longer holds for a record that was written over. -/
def StateView.overwrite (t : StateView) (key : Key) : StateView :=
  { t with
    claims := fun id =>
      (t.claims id).map fun c => { c with live := c.live && key ≠ (.eventReceipt, id) } }

def StateView.claim (t : StateView) (id : String) (props : Props) : StateView :=
  { t with
    claims := Function.update t.claims id (some ⟨props .subjectLabel, props .subjectId, true⟩) }

def StateView.consume (t : StateView) (id : String) : StateView :=
  { t with claims := Function.update t.claims id none }

namespace StorageView

def write (v : StorageView) (key : Key) (f : Tx Node) : Except Error Node × StorageView :=
  match f v.store with
  | .ok node store => (.ok node, { v with store := store, state := v.state.map (·.overwrite key) })
  | .error e _ => (.error e, v)

def archive (v : StorageView) (key : Key) : Option Props → Except Error Node × StorageView
  | some props => v.write key (archiveNode key props)
  | none =>
    match requireNode v.store key with
    | .ok node =>
      if settled key node then (.ok node, v)
      else v.write key (replaceNode key (bareArchivedNode key))
    | .error e => (.error e, v)

def onEdges (v : StorageView) (f : Tx Unit) : Except Error Unit × StorageView :=
  match f v.store with
  | .ok _ store => (.ok (), { v with store := store })
  | .error e _ => (.error e, v)

def applyConstraints (v : StorageView) (statements : List String) :
    Except Error (Nat × Nat) × StorageView :=
  let (applied, seen) := countIdempotentApplication statements v.appliedConstraints
  (.ok (applied, statements.length - applied), { v with appliedConstraints := seen })

def createReceipt (v : StorageView) (id : String) (props : Props) :
    Except Error EventReceiptClaim × StorageView :=
  match v.write (.eventReceipt, id) (createNode (.eventReceipt, id) props) with
  | (.ok node, v') =>
    (.ok ⟨true, id, node⟩, { v' with state := v'.state.map (·.claim id props) })
  | (.error e, v') => (.error e, v')

def claimEventReceipt (v : StorageView) (id digest : String) (props : Props) :
    Except Error EventReceiptClaim × StorageView :=
  if props .idempotencyClaimDigest ≠ some (.str digest) then
    (.error (unavailable "invalid idempotency claim"), v)
  else
    match receiptMatches v.store .idempotencyClaimDigest digest with
    | [] => v.createReceipt id props
    | [found] => (.ok ⟨false, found.1, found.2⟩, v)
    | _ => (.error (unavailable "ambiguous idempotency claim"), v)

/-- The claim of a receipt for a subject. -/
def proof (v : StorageView) (subject : Key) (receiptId : String) : Option ClaimView :=
  v.state.bind fun t => (t.claims receiptId).filter fun c =>
    c.subjectLabel = some (.str subject.1.name) && c.subjectId = some (.str subject.2)

def spoil (v : StorageView) : StorageView :=
  { v with state := v.state.map fun t => { t with rollbackOnly := true } }

def link (v : StorageView) (subject : Key) (receiptId : String) (c : ClaimView) :
    Except Error EdgeRecord × StorageView :=
  if c.live && linkable v.store subject receiptId then
    match v.onEdges (createEdge (eventEdge subject receiptId)) with
    | (.ok _, v') =>
      (.ok (eventEdge subject receiptId),
        { v' with state := v'.state.map (·.consume receiptId) })
    | (.error e, v') => (.error e, v'.spoil)
  else (.error (unavailable "fresh receipt endpoints unavailable"), v.spoil)

def linkNewEventReceipt (v : StorageView) (subject : Key) (receiptId : String) :
    Except Error EdgeRecord × StorageView :=
  match validateLink subject receiptId with
  | .error e => (.error e, v)
  | .ok _ =>
    match v.proof subject receiptId with
    | none => (.error (unavailable "fresh receipt claim required"), v)
    | some c => v.link subject receiptId c

def call (v : StorageView) : (op : StorageCall) → Except Error op.Out × StorageView
  | .createNode key props => v.write key (createNode key props)
  | .updateNode key props => v.write key (updateNode key props)
  | .archiveNode key props => v.archive key props
  | .restoreNode key props => v.write key (restoreNode key props)
  | .createEdge e => v.onEdges (createEdge e)
  | .deleteEdge source relationship target => v.onEdges (deleteEdge source relationship target)
  | .applyConstraints statements => v.applyConstraints statements
  | .findEventReceiptByDigest property digest =>
    (findEventReceiptByDigest v.store property digest, v)
  | .claimEventReceipt id digest props => v.claimEventReceipt id digest props
  | .linkNewEventReceipt subject receiptId => v.linkNewEventReceipt subject receiptId
  | .read query => (query v.store, v)

def begun (v : StorageView) : StateView := v.state.getD ⟨fun _ => none, false⟩

def check (v : StorageView) : Option Error :=
  if v.state.any (·.rollbackOnly) then some (unavailable "nested transaction failed") else none

end StorageView

/-- A block that fails puts back the whole state that it began with. -/
def viewMachine : Machine StorageCall StorageCall.Out Error StorageView StorageView where
  step op v := v.call op
  enter v := (v, { v with state := some v.begun })
  check := StorageView.check
  commit k v := if k.state.isNone then { v with state := none } else v
  rollback k _ := k

def FreshClaim.view (claim : FreshClaim) (live : Bool) : ClaimView :=
  ⟨claim.subjectLabel, claim.subjectId, live⟩

def TransactionState.view (t : TransactionState) (m : Memory) : StateView :=
  ⟨fun id => (t.freshReceiptClaims id).map fun claim => claim.view (claim.live m id),
    t.rollbackOnly⟩

def Memory.view (m : Memory) : StorageView :=
  ⟨m.store, m.appliedConstraints, m.state.map (·.view m)⟩

end DevGraph.Work
