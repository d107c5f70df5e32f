import DevGraph.Work.Repository
import Mathlib.Data.Finset.Card

/-!
# Arenas

Arena records, the membership of Work in Arenas, direct or through its parents, and the
Arena mutations.
-/

namespace DevGraph.Work

open Lib

structure Arena where
  id : String
  title : String
  description : String
  version : Int
  archived : Bool
  createdAt : String
  updatedAt : String
  deriving DecidableEq

def Arena.key (a : Arena) : Key := (.arena, a.id)

def Arena.valid (a : Arena) : Bool :=
  isWorkObjectId a.id && 1 ≤ a.title.length && a.title.length ≤ 4096 &&
    a.description.length ≤ 32768 && isArenaVersion a.version &&
    (fromisoformat a.createdAt).isSome && (fromisoformat a.updatedAt).isSome

def Arena.validated (a : Arena) : Except Error Arena := do
  raiseIf (a.valid = false) (Error.mk .valueError "invalid Arena record")
  return a

def Arena.toNodeProperties (a : Arena) : Props
  | .schemaVersion => some (.int 1)
  | .kind => some (.str "Arena")
  | .title => some (.str a.title)
  | .description => some (.str a.description)
  | .version => some (.int a.version)
  | .createdAt => some (.str a.createdAt)
  | .updatedAt => some (.str a.updatedAt)
  | _ => none

def Arena.node (a : Arena) : Node := ⟨a.toNodeProperties, a.archived⟩

def malformedArena : Error := ⟨.storageUnavailable, "malformed Arena record"⟩

/-- A stored record has exactly the properties of the model. -/
def Arena.fromNode (id : String) (node : Node) : Except Error Arena :=
  let props := node.properties
  match strOf props .title, strOf props .description, intOf props .version,
    strOf props .createdAt, strOf props .updatedAt with
  | some title, some description, some version, some createdAt, some updatedAt => do
    let arena := Arena.mk id title description version node.archived createdAt updatedAt
    raiseIf (arena.valid = false ∨ props ≠ arena.toNodeProperties) malformedArena
    return arena
  | _, _, _, _, _ => throw malformedArena

def getArena (s : Store) (id : String) : Except Error Arena := do
  validateWorkObjectId id
  match ← getNode s (.arena, id) with
  | some node => Arena.fromNode id node
  | none => throw (Error.mk .missingWorkObject ("missing Arena: " ++ id))

def currentArena (s : Store) (r : ArenaReference) : Except Error Arena := do
  let arena ← getArena s r.id
  raiseIf (arena.version ≠ r.expectedVersion)
    (versionConflict arena.key r.expectedVersion arena.version)
  return arena

def arenaConflict (message : String) : Error := ⟨.arenaConflict, message⟩

def directKinds : List Label := [.initiative, .task]

def containment (s : Store) (key : Key) : Except Error WorkContainment := do
  match ← workContainment s key with
  | none => throw (Error.mk .missingWorkObject ("missing " ++ keyText key))
  | some item => do
    let _ ← fromNode key item.node
    return item

def directId (key : Key) (item : WorkContainment) : Except Error (Option String) := do
  raiseIf (item.memberships.length > 1 ∨ ∃ e ∈ item.memberships, e.source.1 ≠ .arena)
    (arenaConflict "invalid direct Arena membership")
  raiseIf (item.memberships ≠ [] ∧ key.1 ∉ directKinds)
    (arenaConflict "ineligible direct Arena member")
  return item.memberships.head?.map fun e => e.source.2

def optionalArena (s : Store) (id : Option String) : Except Error (Option Arena) :=
  match id with
  | none => pure none
  | some id => some <$> getArena s id

def direct (s : Store) (key : Key) : Except Error (Option Arena) := do
  let item ← containment s key
  let id ← directId key item
  optionalArena s id

structure ArenaMembership where
  arena : Option Arena
  root : Key

/-- Where the walk to the root of an item stands after one step. -/
inductive Ascent
  | root (arenaId : Option String)
  | parent (key : Key)

/-- One turn of the walk, at an item that has not been visited. -/
def ascend (s : Store) (current : Key) : Except Error Ascent := do
  let item ← containment s current
  raiseIf (item.parents.length > 1) (arenaConflict "multiple Work parents")
  let arenaId ← directId current item
  match item.parents with
  | [] => return .root arenaId
  | e :: _ => do
    raiseIf (arenaId ≠ none ∨ e.source.1 ∉ parents current.1)
      (arenaConflict "invalid Arena membership or Work parentage")
    return .parent e.source

/-- The keys of the store that a walk has not visited. -/
def unvisited (s : Store) (visited : List Key) : Finset Key :=
  s.nodes.keys.toFinset \ visited.toFinset

lemma containment_node {s : Store} {key : Key} {item : WorkContainment}
    (h : containment s key = .ok item) : key ∈ s.nodes := by
  unfold containment workContainment at h
  simp only [except_ok] at h
  obtain ⟨found, ⟨_, _, _, _, hfound⟩, hitem⟩ := h
  rw [s.mem_nodes_iff]
  cases hnode : s.node? key with
  | none =>
    rw [hnode, Option.map_none] at hfound
    subst hfound
    cases hitem
  | some node => exact ⟨node, rfl⟩

lemma ascend_node {s : Store} {key : Key} {step : Ascent} (h : ascend s key = .ok step) :
    key ∈ s.nodes := by
  unfold ascend at h
  rw [except_bind_ok] at h
  obtain ⟨item, hitem, _⟩ := h
  exact containment_node hitem

lemma unvisited_lt {s : Store} {visited : List Key} {key : Key} (hkey : key ∈ s.nodes)
    (hnew : key ∉ visited) :
    (unvisited s (key :: visited)).card < (unvisited s visited).card := by
  apply Finset.card_lt_card
  rw [Finset.ssubset_iff_of_subset]
  · refine ⟨key, ?_, ?_⟩
    · simp only [unvisited, Finset.mem_sdiff, List.mem_toFinset]
      exact ⟨AList.mem_keys.2 hkey, hnew⟩
    · simp [unvisited]
  · intro k hk
    simp only [unvisited, Finset.mem_sdiff, List.mem_toFinset, List.mem_cons, not_or] at hk ⊢
    exact ⟨hk.1, hk.2.2⟩

/-- The root above an item, with the Arena that the root is directly in. -/
def climb (s : Store) (visited : List Key) (current : Key) :
    Except Error (Key × Option String) :=
  if _hnew : current ∈ visited then throw (arenaConflict "cyclic Work parentage")
  else match _h : ascend s current with
    | .error e => .error e
    | .ok (.root arenaId) => .ok (current, arenaId)
    | .ok (.parent key) => climb s (current :: visited) key
termination_by (unvisited s visited).card
decreasing_by exact unvisited_lt (ascend_node _h) _hnew

def membership (s : Store) (key : Key) : Except Error ArenaMembership := do
  raiseIf (key.1 ∉ todoKinds) (Error.mk .valueError "invalid Work kind")
  let (root, arenaId) ← climb s [] key
  let arena ← optionalArena s arenaId
  raiseIf (root.1 ∉ workKinds) (Error.mk .valueError "invalid Arena membership")
  return ⟨arena, root⟩

def Arena.next (a : Arena) (now : Datetime) : Arena :=
  { a with version := a.version + 1, updatedAt := isoformat now }

def storeArena (arena updated : Arena) : Tx Node :=
  if updated.archived = true ∧ arena.archived = false then
    archiveNode arena.key updated.toNodeProperties
  else updateNode arena.key updated.toNodeProperties

/-- Stores the next version of an Arena, with the changes that it comes with. -/
def bumpArena (arena changed : Arena) (now : Datetime) : Tx Arena := do
  let updated ← lift (changed.next now).validated
  let _ ← storeArena arena updated
  return updated

def removeForParent (child : WorkObject) (previousArena : Option ArenaReference)
    (now : Datetime) : Tx Unit := do
  let found ← reading (direct · child.key)
  raiseIf (found.map Arena.id ≠ previousArena.map ArenaReference.id)
    (arenaConflict "Arena parent-change precondition failed")
  match found, previousArena with
  | some _, some r => do
    let _ ← reading (membership · child.key)
    let arena ← reading (currentArena · r)
    deleteEdge arena.key .containsWork child.key
    let _ ← bumpArena arena arena now
    return ()
  | _, _ => pure ()

def createArena (content : CreateArena) (now : Datetime) : Tx Arena := do
  let arena ← lift (Arena.validated
    ⟨content.id, content.title, content.description, 1, false, isoformat now, isoformat now⟩)
  let _ ← reraising Error.isKeyError
    (Error.mk .workObjectAlreadyExists "Arena already exists")
    (createNode arena.key arena.toNodeProperties)
  return arena

def ArenaChanges.apply (c : ArenaChanges) (a : Arena) : Arena :=
  { a with title := c.title.getD a.title, description := c.description.getD a.description }

/-- The Arenas that a change of membership touches, each once. -/
def touchedArenas (s : Store) (m : Membership) : Except Error (List Arena) := do
  let prior ← (m.previousArena.toList).mapM (currentArena s)
  let target ← (m.arena.toList).mapM (currentArena s)
  return (prior ++ target).dedup

def bumpArenas (clock : Nat → Datetime) : Nat → List Arena → Tx Unit
  | _, [] => pure ()
  | n, arena :: arenas => do
    let _ ← bumpArena arena arena (clock n)
    bumpArenas clock (n + 1) arenas

def checkMember (s : Store) (member : WorkObject) (expectedVersion : Int) (m : Membership) :
    Except Error (List Arena) := do
  raiseIf (member.version ≠ expectedVersion)
    (versionConflict member.key expectedVersion member.version)
  raiseIf (member.archived = true) (arenaConflict "archived Work cannot change membership")
  let found ← membership s member.key
  raiseIf (found.root ≠ member.key) (arenaConflict "direct Arena member must be parentless")
  raiseIf (found.arena.map Arena.id ≠ m.previousArena.map ArenaReference.id)
    (arenaConflict "Arena membership precondition failed")
  let touched ← touchedArenas s m
  raiseIf (∃ r ∈ m.arena, ∃ arena ∈ touched, arena.id = r.id ∧ arena.archived = true)
    (arenaConflict "cannot assign to an archived Arena")
  return touched

def containsEdge (arenaId : String) (member : Key) : EdgeRecord :=
  ⟨(.arena, arenaId), .containsWork, member, noProps⟩

def setMember (clock : Nat → Datetime) (key : Key) (expectedVersion : Int) (m : Membership) :
    Tx WorkObject := do
  let member ← reading (getById · key)
  let touched ← reading (checkMember · member expectedVersion m)
  deleteEdges .containsWork member.key (m.previousArena.toList.map fun r => (.arena, r.id))
  createEdges (m.arena.toList.map fun r => containsEdge r.id member.key)
  bumpArenas clock 1 touched
  Repository.update member member.version (clock 0)

end DevGraph.Work
