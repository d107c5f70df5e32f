import DevGraph.Lib.Batches
import DevGraph.Work.Arenas

/-!
# The placement of many items

The Arenas that many items are in are resolved together: the containers of a whole frontier are
read in batches, and the Arena of every item is remembered once a trail has reached it.
-/

namespace DevGraph.Work

open Lib

def validateContainmentKeys (keys : List Key) : Except Error Unit := do
  raiseIf (keys = [] ∨ keys.length > 100) (Error.mk .valueError "invalid containment batch")
  keys.forM fun key => do
    raiseIf (key.1 ∉ canonicalWorkKinds) (Error.mk .valueError "invalid containment subject")
    validateWorkObjectId key.2
  raiseIf (¬ keys.Nodup) (Error.mk .valueError "duplicate containment subject")

def containmentAt (s : Store) (key : Key) : Except Error (Key × WorkContainment) :=
  match s.node? key with
  | none => throw (Error.mk .storageUnavailable "missing containment target")
  | some node => pure (key,
    ⟨node, (incoming s .hasChild key).take 2, (incoming s .containsWork key).take 2⟩)

def workContainmentBatch (s : Store) (keys : List Key) :
    Except Error (List (Key × WorkContainment)) := do
  validateContainmentKeys keys
  (keys.insertionSort keyLe).mapM (containmentAt s)

/-- The parent of an item, or the Arena that it is directly in. -/
structure Placement where
  parent : Option Key
  arenaId : Option String

def placementOf (key : Key) (item : WorkContainment) : Except Error Placement := do
  let _ ← fromNode key item.node
  let arenaId ← directId key item
  raiseIf (item.parents.length > 1) (arenaConflict "multiple Work parents")
  match item.parents with
  | [] => return ⟨none, arenaId⟩
  | e :: _ => do
    raiseIf (arenaId ≠ none ∨ e.source.1 ∉ parents key.1)
      (arenaConflict "invalid Arena membership or Work parentage")
    return ⟨some e.source, arenaId⟩

structure Survey where
  captured : AList fun _ : Key => Placement
  pending : List Key

def Survey.capture (survey : Survey) (key : Key) (p : Placement) : Survey where
  captured := survey.captured.insert key p
  pending := match p.parent with
    | some parent =>
      if parent ∈ survey.captured then survey.pending else survey.pending.insert parent
    | none => survey.pending

def surveyItem (survey : Survey) (entry : Key × WorkContainment) : Except Error Survey := do
  let p ← placementOf entry.1 entry.2
  return survey.capture entry.1 p

def surveyBatch (s : Store) (survey : Survey) (batch : List Key) : Except Error Survey := do
  let items ← workContainmentBatch s batch
  items.foldlM surveyItem survey

def placementCapacity : Error := ⟨.storageUnavailable, "Arena placement capacity exceeded"⟩

/-- One level of the hierarchy, in batches of at most 100. -/
def surveyFrontier (s : Store) (survey : Survey) : Except Error Survey := do
  let found ← (batches 99 (survey.pending.insertionSort keyLe)).foldlM (surveyBatch s)
    ⟨survey.captured, []⟩
  let pending := found.pending.filter (· ∉ found.captured)
  raiseIf (found.captured.keys.length + pending.length > 40000) placementCapacity
  return ⟨found.captured, pending⟩

/-- The frontiers, each with the parents of the one before. Parents are of a higher level of
the hierarchy, which has four levels, so that four turns leave nothing pending. -/
def surveyAll (s : Store) : Nat → Survey → Except Error Survey
  | 0, survey => pure survey
  | n + 1, survey =>
    if survey.pending = [] then pure survey
    else do
      let next ← surveyFrontier s survey
      surveyAll s n next

/-- The items from a key to the first one whose Arena is known, with that Arena. -/
def trail (captured : AList fun _ : Key => Placement)
    (resolved : AList fun _ : Key => Option String) :
    Nat → Key → Except Error (List Key × Option String)
  | 0, current => throw (Error.mk .keyError (keyText current))
  | n + 1, current =>
    match resolved.lookup current with
    | some arenaId => pure ([], arenaId)
    | none =>
      match captured.lookup current with
      | none => throw (Error.mk .keyError (keyText current))
      | some ⟨none, arenaId⟩ => pure ([current], arenaId)
      | some ⟨some parent, _⟩ => do
        let (members, arenaId) ← trail captured resolved n parent
        return (current :: members, arenaId)

def resolve (captured : AList fun _ : Key => Placement)
    (resolved : AList fun _ : Key => Option String) (key : Key) :
    Except Error (AList fun _ : Key => Option String) := do
  let (members, arenaId) ← trail captured resolved 4 key
  return members.foldl (fun resolved member => resolved.insert member arenaId) resolved

def resolvedId (resolved : AList fun _ : Key => Option String) (key : Key) :
    Except Error (Key × Option String) :=
  match resolved.lookup key with
  | none => throw (Error.mk .keyError (keyText key))
  | some arenaId => pure (key, arenaId)

def membershipIds (s : Store) (keys : List Key) : Except Error (List (Key × Option String)) := do
  raiseIf (keys.length > 10000 ∨ ¬ keys.Nodup) placementCapacity
  let survey ← surveyAll s 4 ⟨∅, keys⟩
  let resolved ← keys.foldlM (resolve survey.captured) ∅
  keys.mapM (resolvedId resolved)

end DevGraph.Work
