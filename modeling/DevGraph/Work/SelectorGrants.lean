import DevGraph.Lib.Batches
import DevGraph.Lib.Paging
import DevGraph.Work.AccessPolicy

/-!
# Selector grants

A read grant is signed together with a resource selector, which a native helper checks against a
snapshot of the hierarchy. A view of one transaction intersects the two: it names, one by one, the
resources that the grant admits and the selector allows.
-/

namespace DevGraph.Work

open Lib

abbrev ResourceReference := String × String

def keyReference (key : Key) : ResourceReference := (key.1.name, key.2)

/-- What lies below one of the roots, and the roots themselves if they are included. -/
structure SelectorHierarchy where
  roots : List ResourceReference
  includeSelf : Bool
  deriving DecidableEq

inductive SelectionMode
  | all
  | objects (refs : List ResourceReference)
  | descendants (hierarchy : SelectorHierarchy)
  deriving DecidableEq

structure ResourceSelection where
  mode : SelectionMode
  within : Option SelectorHierarchy
  deriving DecidableEq

structure ResourceSelector where
  service : String
  kinds : List String
  selection : ResourceSelection
  deriving DecidableEq

def DraftReadGrant.workKinds : DraftReadGrant → List Label
  | .work grant => grant.workKinds
  | _ => []

def DraftReadGrant.workIds : DraftReadGrant → List String
  | .work grant => grant.workIds
  | _ => []

def DraftReadGrant.resourcePaths : DraftReadGrant → List ResourcePath
  | .work grant => grant.resourcePaths
  | _ => []

/-- The two parts of a resource; there is no reference without a slash. -/
def referenceOf (text : String) : Except Error ResourceReference := do
  raiseIf ('/' ∉ text.toList) (Error.mk .valueError "zip() argument 2 is shorter than argument 1")
  return splitResource text

/-- The last anchor of each path, in the order of the paths. -/
def selectorRoots (paths : List ResourcePath) : List ResourceReference :=
  paths.foldl (fun roots p =>
    let root := keyReference (p.path.getLast p.nonempty)
    if root ∈ roots then roots else roots ++ [root]) []

/-- A long list of ids is left to the grant. -/
def selectionMode (ids : List String) (paths : List ResourcePath) : Except Error SelectionMode :=
  if ids ≠ [] ∧ ids.length ≤ 128 then do
    let refs ← ids.mapM referenceOf
    return .objects refs
  else if paths ≠ [] then pure (.descendants ⟨selectorRoots paths, true⟩)
  else pure .all

/-- The selector of the only role of a grant, its target. -/
def permissionV2 (grant : DraftReadGrant) (service : String) :
    Except Error (List (String × ResourceSelector)) := do
  let arena := grant.scope = "devgraph.arena.read"
  let kinds := if arena then ["Arena"] else grant.workKinds.map Label.name
  raiseIf (kinds = []) (Error.mk .unauthenticated "unsupported_selector_kind")
  let ids := if arena then grant.arenaIds.map ("Arena/" ++ ·) else grant.workIds
  let mode ← selectionMode ids grant.resourcePaths
  return [("target", ⟨service, kinds, mode, none⟩)]

/-- A read grant that a session holds: as it is, or with the selector it was signed with. -/
inductive HeldGrant
  | plain (grant : DraftReadGrant)
  | selected (grant : DraftReadGrant) (selector : ResourceSelector)

def wrapPermission (roles : List (String × ResourceSelector)) (decoded : List DraftReadGrant) :
    Except Error (List HeldGrant) :=
  match roles with
  | [("target", selector)] => pure (decoded.map fun grant => .selected grant selector)
  | _ => throw (Error.mk .unauthenticated "unsupported_selector_roles")

structure SnapshotRow where
  resource : ResourceReference
  ancestors : List ResourceReference
  deriving DecidableEq

/-- The row of a stored resource; the ancestry is read from the storage. -/
def snapshotRow (s : Store) (ref : ResourceReference) : Except Error (Option SnapshotRow) := do
  validateWorkObjectId ref.2
  match Label.ofName ref.1 with
  | none => pure none
  | some kind =>
    match s.node? (kind, ref.2) with
    | none => pure none
    | some node => do
      let compatibleSession :=
        kind ∈ [Label.sessionRef, .sessionLink] ∧ node.properties .kind = none
      raiseIf (node.properties .kind ≠ some (.str ref.1) ∧ ¬ compatibleSession)
        (Error.mk .unauthenticated "ambiguous_resource_identity")
      if kind ∈ todoKinds then do
        match ← currentResourcePath (memoryStorage s) (kind, ref.2) with
        | none => throw (Error.mk .unauthenticated "ambiguous_resource_hierarchy")
        | some path => pure (some ⟨ref, (path.filter (· ≠ (kind, ref.2))).map keyReference⟩)
      else pure (some ⟨ref, []⟩)

def snapshot (s : Store) (refs : List ResourceReference) : Except Error (List SnapshotRow) := do
  let rows ← (refs.dedup.insertionSort fun a b =>
    a.1 < b.1 ∨ a.1 = b.1 ∧ a.2 ≤ b.2).mapM (snapshotRow s)
  return rows.reduceOption

/-- The answers of the native helper for the targets, in a snapshot. -/
abbrev SelectorCheck :=
  ResourceSelector → List ResourceReference → List SnapshotRow → Except Error (List Bool)

def ResourceSelection.hierarchy (selection : ResourceSelection) : Option SelectorHierarchy :=
  match selection.mode with
  | .descendants hierarchy => some hierarchy
  | _ => selection.within

def ResourceSelection.roots (selection : ResourceSelection) : List ResourceReference :=
  selection.hierarchy.elim [] SelectorHierarchy.roots

def permittedPage (check : SelectorCheck) (s : Store) (selector : ResourceSelector)
    (page : List Key) : Except Error (List Key) := do
  let targets := page.map keyReference
  let state ← snapshot s (selector.selection.roots ++ targets)
  let allowed ← check selector targets state
  raiseIf (allowed.length ≠ page.length) (Error.mk .unauthenticated "invalid_selector_result")
  return ((page.zip allowed).filter Prod.snd).map Prod.fst

/-- The nodes that the selector allows, checked sixteen at a time. -/
def permitted (check : SelectorCheck) (s : Store) (selector : ResourceSelector)
    (nodes : List Key) : Except Error (List Key) := do
  let pages ← (batches 15 nodes).mapM (permittedPage check s selector)
  return pages.flatten

def invalidArenaSelectors : Error := ⟨.valueError, "invalid delegated Arena selectors"⟩

/-- The ids of the Arenas that are not archived, in their order. -/
def delegatedArenaPage (s : Store) (arenaIds : List String) (allResources : Bool)
    (afterId : Option String) (limit : Nat) : Except Error (List String) := do
  raiseIf (¬ (1 ≤ limit ∧ limit ≤ 100)) (Error.mk .numericBoundError "invalid_page_limit")
  raiseIf (allResources = true ∧ arenaIds ≠ []) invalidArenaSelectors
  raiseIf (allResources = false ∧ arenaIds = []) invalidArenaSelectors
  raiseIf (¬ arenaIds.Nodup) invalidArenaSelectors
  arenaIds.forM validateWorkObjectId
  afterId.toList.forM validateWorkObjectId
  let arenas := s.nodes.entries.filter fun entry =>
    entry.1.1 = .arena && (allResources || entry.1.2 ∈ arenaIds) && !entry.2.archived
  return (behind (idBefore false) id (arenas.map fun entry => entry.1.2) afterId).take limit

def selectorCapacity : Error := ⟨.storageUnavailable, "selector read capacity exceeded"⟩

-- More than a hundred full pages of one kind exceed the capacity.
def selectorNodes (fetch : Option String → Except Error (List Key)) (nodes : List Key) :
    Except Error (List Key) :=
  fetchAll fetch Prod.snd 100 10000 selectorCapacity 101 none nodes

def workKeys (s : Store) (selector : DelegatedWorkSelector) (kind : Label)
    (afterId : Option String) : Except Error (List Key) := do
  let page ← delegatedWorkPage s kind [selector] [kind] true false afterId 100
  return page.map Sigma.fst

def arenaKeys (s : Store) (grant : DraftReadGrant) (afterId : Option String) :
    Except Error (List Key) := do
  let page ← delegatedArenaPage s grant.arenaIds grant.allArenas afterId 100
  return page.map fun id => (Label.arena, id)

/-- A grant of the view. The copies keep the other fields of the grant and are not checked. -/
inductive LocalGrant
  | whole (grant : DraftReadGrant)
  | kinds (grant : ScopedReadGrant) (workKinds : List Label)
  | named (grant : ScopedReadGrant) (workIds : List String)
  | arenas (arenaIds : List String)

def LocalGrant.selector? : LocalGrant → Option DelegatedWorkSelector
  | .whole grant => grant.work?.map ScopedReadGrant.selector
  | .kinds grant workKinds => some { grant.selector with workKinds }
  | .named grant workIds => some { grant.selector with workIds }
  | .arenas _ => none

def unsupportedSelector : Error := ⟨.unauthenticated, "unsupported_selector_operation"⟩

/-- A selector of everything only restricts the kinds. -/
def materializeAll (grant : DraftReadGrant) (selector : ResourceSelector) :
    Except Error (Option LocalGrant) :=
  if grant.scope = "devgraph.arena.read" ∧ "Arena" ∈ selector.kinds then pure (some (.whole grant))
  else match grant with
    | .work grant =>
      let kinds := grant.workKinds.filter fun kind => kind.name ∈ selector.kinds
      pure (if kinds = [] then none else some (.kinds grant kinds))
    | _ => throw unsupportedSelector

def materializeNamed (check : SelectorCheck) (s : Store) (grant : DraftReadGrant)
    (selector : ResourceSelector) : Except Error (Option LocalGrant) :=
  if grant.scope = "devgraph.arena.read" then do
    let nodes ← selectorNodes (arenaKeys s grant) []
    let selected ← permitted check s selector nodes
    return if selected = [] then none else some (.arenas (selected.map Prod.snd))
  else match grant with
    | .work grant => do
      let valid ← grant.selector.validated
      let nodes ← grant.workKinds.foldlM
        (fun nodes kind => selectorNodes (workKeys s valid kind) nodes)
        []
      let selected ← permitted check s selector nodes
      return if selected = [] then none else some (.named grant (selected.map resource))
    | _ => throw unsupportedSelector

def materializeOne (check : SelectorCheck) (s : Store) :
    HeldGrant → Except Error (Option LocalGrant)
  | .plain grant => pure (some (.whole grant))
  | .selected grant selector =>
    if selector.selection = ⟨.all, none⟩ then materializeAll grant selector
    else materializeNamed check s grant selector

def materialize (check : SelectorCheck) (s : Store) (grants : List HeldGrant) :
    Except Error (List LocalGrant) := do
  let grants ← grants.mapM (materializeOne check s)
  return grants.reduceOption

end DevGraph.Work
