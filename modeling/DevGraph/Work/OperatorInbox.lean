import DevGraph.Lib.Paging
import DevGraph.Work.AccessPolicy

/-!
# The operator's inbox

Pages of the undecided access requests, behind a cursor, each cut down until its result is small
enough. What the rest of a result holds is only seen through its size. Every result is kept for
good under the id of its action, and no new action is taken on once there are 1,024 of them.
-/

namespace DevGraph.Work

open Lib

/-- The pattern `[0-9a-f]{32}`. -/
abbrev RequestId := { s : String // isLowerHex 32 s = true }

structure AccessRecord where
  id : RequestId
  owner : String
  device : String
  digest : String
  intent : Json
  created : Int
  expires : Int

structure InboxItem where
  requestId : RequestId
  requestDigest : String
  status : String
  receivedAt : Int
  expiresAt : Int
  subjectPublicKey : String
  installationId : String
  intent : Json

structure InboxResult where
  total : Nat
  items : List InboxItem
  nextCursor : Option RequestId

/-- Results of the other actions are kept in the same table. -/
inductive OperatorResult
  | inbox (page : InboxResult)
  | other (value : Json)

/-- A row of `access_operator_results`. -/
structure StoredResult where
  actionId : String
  owner : String
  digest : String
  result : OperatorResult

structure AccessTables where
  requests : List AccessRecord
  decisions : List RequestId
  results : List StoredResult
  usedChallenges : List String
  current : Int
  primaryKey : (requests.map AccessRecord.id).Nodup

namespace AccessTables

variable (db : AccessTables)

def undecided : List AccessRecord :=
  db.requests.filter fun r => db.current < r.expires && r.id ∉ db.decisions

def item (r : AccessRecord) : InboxItem where
  requestId := r.id
  requestDigest := r.digest
  status := if db.current < r.expires then "pending" else "expired"
  receivedAt := r.created
  expiresAt := r.expires
  subjectPublicKey := r.owner
  installationId := r.device
  intent := r.intent

/-- `id>? ORDER BY id`; an action without a cursor asks behind the empty text. -/
def ordered (afterId : Option RequestId) : List AccessRecord :=
  behind (fun a b : String => a < b) (fun r => r.id.val) db.undecided
    (some (afterId.elim "" Subtype.val))

def inbox (limit : Nat) (afterId : Option RequestId) : InboxResult :=
  let records := (db.ordered afterId).take (limit + 1)
  { total := db.undecided.length
    items := (records.take limit).map db.item
    nextCursor := if limit < records.length then records[limit - 1]?.map AccessRecord.id else none }

end AccessTables

def maxResult : Nat := 262144

def trim (size : InboxResult → Nat) : Nat → InboxResult → InboxResult
  | 0, r => r
  | n + 1, r =>
    if maxResult < size r ∧ 1 < r.items.length then
      let items := r.items.dropLast
      trim size n { r with items, nextCursor := items.getLast?.map InboxItem.requestId }
    else r

/-- Who acts, under which id and by which challenge, with the digest of what was signed. -/
structure OperatorAction where
  id : String
  owner : String
  digest : String
  challenge : String

def maxResults : Nat := 1024

/-- The size is that of a result, built for one page, that now holds another. -/
def executeInbox (size : InboxResult → InboxResult → Nat) (db : AccessTables)
    (action : OperatorAction) (limit : Nat) (afterId : Option RequestId) :
    Except Error (OperatorResult × AccessTables) :=
  let after := { db with usedChallenges := action.challenge :: db.usedChallenges }
  match db.results.find? (·.actionId = action.id) with
  | some old => do
    raiseIf ((old.owner, old.digest) ≠ (action.owner, action.digest))
      (Error.mk .unauthenticated "operator_action_conflict")
    return (old.result, after)
  | none => do
    raiseIf (action.challenge ∈ db.usedChallenges ∨ maxResults ≤ db.results.length)
      (Error.mk .unauthenticated "try_later")
    let first := db.inbox limit afterId
    let result := trim (size first) first.items.length first
    raiseIf (maxResult < size first result)
      (Error.mk .valueError "operator result capacity exceeded")
    return (.inbox result, { after with
      results := db.results ++ [⟨action.id, action.owner, action.digest, .inbox result⟩] })

end DevGraph.Work
