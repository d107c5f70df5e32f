import DevGraph.Work.OperatorInbox
import Mathlib.Algebra.Order.BigOperators.Group.List

/-!
# Paging through the operator's inbox

Wherever the size limit cuts a page, its cursor is the last item that is left, so that the next
page goes on right behind it. A reader who follows the cursors gets to the end unless the table of
results is full before.
-/

namespace DevGraph.Proofs

open Lib Work

variable {size : InboxResult → InboxResult → Nat} {db : AccessTables} {limit : Nat}
  {afterId : Option RequestId} {action : OperatorAction}

/-- A page that is cut down to its first item. -/
def single (r : InboxResult) : InboxResult :=
  { r with
    items := r.items.take 1
    nextCursor :=
      if r.items.length ≤ 1 then r.nextCursor else r.items.head?.map InboxItem.requestId }

structure Unused (db : AccessTables) (action : OperatorAction) : Prop where
  id : ∀ row ∈ db.results, row.actionId ≠ action.id
  challenge : action.challenge ∉ db.usedChallenges

lemma Unused.find? (h : Unused db action) : db.results.find? (·.actionId = action.id) = none := by
  rw [List.find?_eq_none]
  intro row hrow
  simpa using h.id row hrow

def kept (db : AccessTables) (action : OperatorAction) (r : InboxResult) : AccessTables :=
  { db with
    usedChallenges := action.challenge :: db.usedChallenges
    results := db.results ++ [⟨action.id, action.owner, action.digest, .inbox r⟩] }

/-- The pages of a reader that follows the cursors until there is none or until told to try later.
The action that asks for a page is chosen when the page is asked for. -/
inductive Follows (size : InboxResult → InboxResult → Nat) (limit : Nat)
    (ask : AccessTables → OperatorAction) :
    AccessTables → Option RequestId → List InboxResult → Bool → Prop
  | last {db db' afterId r}
      (hpage : executeInbox size db (ask db) limit afterId = .ok (.inbox r, db'))
      (hcursor : r.nextCursor = none) : Follows size limit ask db afterId [r] true
  | next {db db' afterId r id later done}
      (hpage : executeInbox size db (ask db) limit afterId = .ok (.inbox r, db'))
      (hcursor : r.nextCursor = some id)
      (hlater : Follows size limit ask db' (some id) later done) :
      Follows size limit ask db afterId (r :: later) done
  | refused {db : AccessTables} {afterId : Option RequestId}
      (hpage : executeInbox size db (ask db) limit afterId =
        .error ⟨.unauthenticated, "try_later"⟩) : Follows size limit ask db afterId [] false

end DevGraph.Proofs
