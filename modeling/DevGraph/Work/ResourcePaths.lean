import DevGraph.Work.Storage

/-!
# Resource paths

A path names anchors that the current ancestry of an item must contain. Paths are combined without
looking at a graph; whether an item lies within them is read by a walk over its ancestors.
-/

namespace DevGraph.Work

open Lib

def anchorKinds : List Label := [.arena, .initiative, .project]

def anchorRank (kind : Label) : Nat := anchorKinds.idxOf kind

structure ResourcePath where
  path : List Key
  nonempty : path ≠ []
  anchors : ∀ anchor ∈ path, anchor.1 ∈ anchorKinds ∧ isWorkObjectId anchor.2 = true
  ordered : path.Pairwise fun a b => anchorRank a.1 < anchorRank b.1
  deriving DecidableEq

/-- The checks on the anchors of a path, which stand in the order of containment. -/
def ResourcePath.validated (path : List Key) : Except Error ResourcePath :=
  if h : path ≠ [] ∧ (∀ anchor ∈ path, anchor.1 ∈ anchorKinds ∧ isWorkObjectId anchor.2 = true) ∧
      path.Pairwise (fun a b => anchorRank a.1 < anchorRank b.1) then
    pure ⟨path, h.1, h.2.1, h.2.2⟩
  else throw (Error.mk .valueError "resource path anchors must follow containment order")

def ResourcePath.containedBy (p parent : ResourcePath) : Bool :=
  parent.path.all fun anchor => anchor ∈ p.path

/-- Each path is a conjunction, the list of paths a disjunction; no path is no restriction. -/
def pathsSubset (child parent : List ResourcePath) : Bool :=
  parent.isEmpty ||
    (!child.isEmpty && child.all fun selected => parent.any fun ceiling =>
      selected.containedBy ceiling)

/-- The anchors of both paths, unless they name different anchors of one kind. -/
def mergedAnchors (a b : ResourcePath) : Option (List Key) :=
  if b.path.any fun anchor => (a.path.lookup anchor.1).any (· ≠ anchor.2) then none
  else some (anchorKinds.filterMap fun kind =>
    ((b.path.lookup kind).or (a.path.lookup kind)).map fun id => (kind, id))

def pathTexts (p : ResourcePath) : List (List Char) :=
  p.path.map fun anchor => (resource anchor).toList

def intersectPaths (left right : List ResourcePath) : Except Error (List ResourcePath) :=
  if left = [] then pure right
  else if right = [] then pure left
  else do
    let result ← (left.flatMap fun a => right.filterMap fun b => mergedAnchors a b).mapM
      ResourcePath.validated
    return result.dedup.insertionSort fun a b => pathTexts a ≤ pathTexts b

/-- The reads that the walk over the ancestors makes. -/
structure PathStorage where
  workContainment : Key → Except Error (Option WorkContainment)
  getNode : Key → Except Error (Option Node)

def memoryStorage (s : Store) : PathStorage := ⟨workContainment s, getNode s⟩

/-- The item is of the kind that it is stored under and has at most one container. -/
def plainItem (current : Key) (item : WorkContainment) : Bool :=
  item.node.properties .kind = some (.str current.1.name) && item.parents.length ≤ 1 &&
    item.memberships.length ≤ 1

def plainParent (current : Key) (item : WorkContainment) (e : EdgeRecord) : Bool :=
  item.memberships.isEmpty && e.target = current && e.relationship = .hasChild &&
    e.source.1 ∈ parents current.1

def plainMembership (current : Key) (e : EdgeRecord) (arena : Option Node) : Bool :=
  current.1 ∈ [Label.initiative, .task] && e.source.1 = .arena && e.target = current &&
    e.relationship = .containsWork &&
    arena.any fun node => node.properties .kind = some (.str "Arena")

/-- The walk from an item to its root, with the chain from there back to the first item. -/
def ancestors (storage : PathStorage) : Nat → List Key → Key → Except Error (Option (List Key))
  | 0, _, _ => pure none
  | n + 1, chain, current =>
    if current ∈ chain then pure none
    else do
      match ← storage.workContainment current with
      | none => pure none
      | some item =>
        if plainItem current item = false then pure none
        else match item.parents, item.memberships with
          | e :: _, _ =>
            if plainParent current item e then ancestors storage n (current :: chain) e.source
            else pure none
          | [], e :: _ => do
            let arena ← storage.getNode (.arena, e.source.2)
            return if plainMembership current e arena
              then some ((.arena, e.source.2) :: current :: chain) else none
          | [], [] => pure (some (current :: chain))

/-- The hierarchy has four levels. -/
def currentResourcePath (storage : PathStorage) (key : Key) : Except Error (Option (List Key)) :=
  if key.1 ∉ todoKinds then pure none else ancestors storage 4 [] key

def withinPaths (storage : PathStorage) (key : Key) (paths : List ResourcePath) :
    Except Error Bool := do
  if paths = [] then pure true
  else do
    let chain ← currentResourcePath storage key
    return chain.any fun chain => paths.any fun p => p.path.all fun anchor => anchor ∈ chain

end DevGraph.Work
