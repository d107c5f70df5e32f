import DevGraph.Proofs.Hierarchy
import DevGraph.Work.Placements
import DevGraph.Work.ResourcePaths

/-!
# Lineages

The containers of an item form one chain, from an Arena or from an item without a container
down to the item. The walks to the root and over the ancestors are compared with that chain.
-/

namespace DevGraph.Proofs

open Lib Work

variable {e : EdgeRecord} {node : Node}

variable {s : Store} {key root : Key} {arena : Option String} {chain : List Key}
  {above memberships : List EdgeRecord}

/-- The containment edges into a key: none, one from an Arena or one from a parent. -/
inductive Stands (s : Store) : Key → List EdgeRecord → List EdgeRecord → Prop
  | root {key : Key} (orphan : ∀ e ∈ s.edges, e.relationship = .hasChild → e.target ≠ key)
      (unplaced : ∀ e ∈ s.edges, e.relationship = .containsWork → e.target ≠ key) :
      Stands s key [] []
  | placed {e : EdgeRecord} (he : e ∈ s.edges) (hr : e.relationship = .containsWork) :
      Stands s e.target [] [e]
  | child {e : EdgeRecord} (he : e ∈ s.edges) (hr : e.relationship = .hasChild) :
      Stands s e.target [e] []

def arenaOf (memberships : List EdgeRecord) : Option String :=
  memberships.head?.map fun e => e.source.2

/-- The chain from the outermost container to the key, with the last item that has no parent
and the Arena that it is in. -/
inductive Lineage (s : Store) : Key → Key → Option String → List Key → Prop
  | root {key : Key} {memberships : List EdgeRecord} (h : Stands s key [] memberships) :
      Lineage s key key (arenaOf memberships) (memberships.map Edge.source ++ [key])
  | child {key root : Key} {e : EdgeRecord} {arena : Option String} {chain : List Key}
      (h : Stands s key [e] []) (above : Lineage s e.source root arena chain) :
      Lineage s key root arena (chain ++ [key])

lemma stands_exists (s : Store) (key : Key) :
    ∃ above memberships, Stands s key above memberships := by
  by_cases hparent : ∃ e ∈ s.edges, e.relationship = .hasChild ∧ e.target = key
  · obtain ⟨e, he, hr, rfl⟩ := hparent
    exact ⟨_, _, .child he hr⟩
  · by_cases hplaced : ∃ e ∈ s.edges, e.relationship = .containsWork ∧ e.target = key
    · obtain ⟨e, he, hr, rfl⟩ := hplaced
      exact ⟨_, _, .placed he hr⟩
    · exact ⟨_, _, .root (fun e he hr htarget => hparent ⟨e, he, hr, htarget⟩)
        fun e he hr htarget => hplaced ⟨e, he, hr, htarget⟩⟩

def level : Label → Nat
  | .issue => 1
  | .project => 2
  | .initiative => 3
  | _ => 0

lemma level_lt_of_parent {kind parent : Label} (h : parent ∈ parents kind) :
    level kind < level parent ∧ parent ∈ todoKinds := by
  revert h
  cases kind <;> cases parent <;> decide

lemma level_le (kind : Label) : level kind ≤ 3 := by
  cases kind <;> decide

lemma incoming_eq (he : e ∈ s.edges) (hunique : UniqueInto e.relationship s) :
    incoming s e.relationship e.target = [e] := by
  have hnodup : (incoming s e.relationship e.target).Nodup := s.distinct.filter _
  have hmem : e ∈ incoming s e.relationship e.target := mem_incoming.2 ⟨he, rfl, rfl⟩
  have hall : ∀ e' ∈ incoming s e.relationship e.target, e' = e := by
    intro e' he'
    obtain ⟨hedge, hr, htarget⟩ := mem_incoming.1 he'
    exact hunique e' hedge e he hr rfl htarget
  cases h : incoming s e.relationship e.target with
  | nil =>
    rw [h] at hmem
    cases hmem
  | cons a rest =>
    rw [h] at hall hnodup
    cases rest with
    | nil => rw [hall a List.mem_cons_self]
    | cons b rest =>
      have hab : a = b := (hall a (by simp)).trans (hall b (by simp)).symm
      rw [hab] at hnodup
      simp at hnodup

lemma incoming_eq_nil {r : Relationship}
    (h : ∀ e ∈ s.edges, e.relationship = r → e.target ≠ key) : incoming s r key = [] := by
  rw [List.eq_nil_iff_forall_not_mem]
  intro e he
  obtain ⟨hedge, hr, htarget⟩ := mem_incoming.1 he
  exact h e hedge hr htarget

lemma Stands.incoming (h : Stands s key above memberships) (hs : Placed s) :
    incoming s .hasChild key = above ∧ incoming s .containsWork key = memberships := by
  cases h with
  | root orphan unplaced => exact ⟨incoming_eq_nil orphan, incoming_eq_nil unplaced⟩
  | @placed e he hr =>
    have hnone : ∀ e' ∈ s.edges, e'.relationship = .hasChild → e'.target ≠ e.target :=
      fun e' he' hr' => hs.exclusive e' he' e he hr' hr
    have hone := incoming_eq he (by rw [hr]; exact hs.arena_unique)
    rw [hr] at hone
    exact ⟨incoming_eq_nil hnone, hone⟩
  | @child e he hr =>
    have hnone : ∀ e' ∈ s.edges, e'.relationship = .containsWork → e'.target ≠ e.target :=
      fun e' he' hr' htarget => hs.exclusive e he e' he' hr hr' htarget.symm
    have hone := incoming_eq he (by rw [hr]; exact hs.parent_unique)
    rw [hr] at hone
    exact ⟨hone, incoming_eq_nil hnone⟩

lemma Stands.unique (hs : Placed s) {above' memberships' : List EdgeRecord}
    (h : Stands s key above memberships) (h' : Stands s key above' memberships') :
    above = above' ∧ memberships = memberships' := by
  obtain ⟨rfl, rfl⟩ := h.incoming hs
  exact h'.incoming hs

lemma Stands.parent (h : Stands s key [e] memberships) :
    e ∈ s.edges ∧ e.relationship = .hasChild ∧ e.target = key ∧ memberships = [] := by
  cases h with
  | child he hr => exact ⟨he, hr, rfl, rfl⟩

lemma Stands.inArena (h : Stands s key above [e]) :
    e ∈ s.edges ∧ e.relationship = .containsWork ∧ e.target = key := by
  cases h with
  | placed he hr => exact ⟨he, hr, rfl⟩

lemma Stands.level (hs : Placed s) (h : Stands s key [e] memberships) :
    level key.1 < level e.source.1 ∧ e.source.1 ∈ todoKinds ∧ e.source.1 ∈ parents key.1 := by
  obtain ⟨he, hr, rfl, -⟩ := h.parent
  have hkind := hs.parent_kind e he hr
  exact ⟨(level_lt_of_parent hkind).1, (level_lt_of_parent hkind).2, hkind⟩

/-- Every item has a lineage, as levels are bounded. -/
lemma lineage_exists (hs : Placed s) (key : Key) :
    ∃ root arena chain, Lineage s key root arena chain := by
  induction hn : 3 - level key.1 using Nat.strong_induction_on generalizing key with
  | _ n ih =>
    obtain ⟨above, memberships, h⟩ := stands_exists s key
    cases above with
    | nil => exact ⟨_, _, _, .root h⟩
    | cons e above =>
      have hrest : above = [] := by
        cases h
        rfl
      subst hrest
      cases h.parent.2.2.2
      have hlevel := (h.level hs).1
      have htop := level_le e.source.1
      rcases ih (3 - DevGraph.Proofs.level e.source.1) (by omega) e.source rfl with
        ⟨root, arena, chain, hup⟩
      exact ⟨root, arena, _, .child h hup⟩

lemma Lineage.unique (hs : Placed s) {root' : Key} {arena' : Option String} {chain' : List Key}
    (h : Lineage s key root arena chain) (h' : Lineage s key root' arena' chain') :
    root = root' ∧ arena = arena' ∧ chain = chain' := by
  induction h generalizing chain' with
  | root h =>
    cases h' with
    | root h' =>
      cases (h.unique hs h').2
      exact ⟨rfl, rfl, rfl⟩
    | child h' _ => cases (h.unique hs h').1
  | child h _ ih =>
    cases h' with
    | root h' => cases (h.unique hs h').1
    | child h' hup =>
      cases (h.unique hs h').1
      obtain ⟨rfl, rfl, rfl⟩ := ih hup
      exact ⟨rfl, rfl, rfl⟩

/-- The containers and the items below them are stored with their kind. -/
def KindsStored (s : Store) : Prop :=
  ∀ key node, s.node? key = some node → key.1 ∈ Label.arena :: todoKinds →
    isWorkObjectId key.2 = true ∧ node.properties .kind = some (.str key.1.name)

lemma todoKinds_canonical {kind : Label} (h : kind ∈ todoKinds) : kind ∈ canonicalWorkKinds := by
  revert h
  cases kind <;> decide

lemma node_of_edge (he : e ∈ s.edges) :
    (∃ node, s.node? e.source = some node) ∧ ∃ node, s.node? e.target = some node :=
  ⟨(s.mem_nodes_iff _).1 (s.endpoints e he).1, (s.mem_nodes_iff _).1 (s.endpoints e he).2⟩

lemma Stands.length_le (h : Stands s key above memberships) :
    above.length ≤ 1 ∧ memberships.length ≤ 1 := by
  cases h <;> simp

lemma Stands.take_incoming (h : Stands s key above memberships) (hs : Placed s) :
    (Work.incoming s .hasChild key).take 2 = above ∧
      (Work.incoming s .containsWork key).take 2 = memberships := by
  obtain ⟨habove, hmemberships⟩ := h.length_le
  rw [(h.incoming hs).1, (h.incoming hs).2]
  exact ⟨List.take_of_length_le (by omega), List.take_of_length_le (by omega)⟩

lemma workContainment_eq (hs : Placed s) (h : Stands s key above memberships)
    (hnode : s.node? key = some node) (hkind : key.1 ∈ canonicalWorkKinds)
    (hid : isWorkObjectId key.2 = true) :
    workContainment s key = .ok (some ⟨node, above, memberships⟩) := by
  simp only [workContainment, except_ok, exists_const, validateWorkObjectId]
  rw [hnode, (h.take_incoming hs).1, (h.take_incoming hs).2]
  exact ⟨fun hnot => hnot hkind, by simp [hid], rfl⟩

/-! ## The walk over the ancestors -/

variable {below : List Key}

lemma ancestors_unplain {storage : PathStorage} {item : WorkContainment} {n : Nat}
    (hitem : storage.workContainment key = .ok (some item))
    (hplain : plainItem key item = false) : ancestors storage (n + 1) below key = .ok none := by
  rw [ancestors, hitem]
  split
  · rfl
  · exact if_pos hplain

lemma ancestors_step {storage : PathStorage} {item : WorkContainment} {n : Nat}
    (hfresh : key ∉ below) (hitem : storage.workContainment key = .ok (some item))
    (hplain : plainItem key item = true) :
    ancestors storage (n + 1) below key =
      match item.parents, item.memberships with
      | e :: _, _ =>
        if plainParent key item e then ancestors storage n (key :: below) e.source
        else pure none
      | [], e :: _ => do
        let arena ← storage.getNode (.arena, e.source.2)
        return if plainMembership key e arena
          then some ((.arena, e.source.2) :: key :: below) else none
      | [], [] => pure (some (key :: below)) := by
  rw [ancestors, if_neg hfresh, hitem]
  change (if plainItem key item = false then _ else _) = _
  rw [hplain]
  rfl

theorem ancestors_eq (hs : Placed s) (hkinds : KindsStored s) (h : Lineage s key root arena chain)
    (hnode : s.node? key = some node) (hkey : key.1 ∈ todoKinds) {n : Nat}
    (hn : 2 < n + level key.1) (hbelow : ∀ k ∈ below, level k.1 < level key.1) :
    ancestors (memoryStorage s) (n + 1) below key = .ok (some (chain ++ below)) := by
  have hread : ∀ {key : Key} {node : Node} {above memberships : List EdgeRecord},
      Stands s key above memberships → s.node? key = some node → key.1 ∈ todoKinds →
      workContainment s key = .ok (some ⟨node, above, memberships⟩) ∧
        plainItem key ⟨node, above, memberships⟩ = true := by
    intro key node above memberships h hnode hkey
    obtain ⟨hid, hkind⟩ := hkinds key node hnode (List.mem_cons_of_mem _ hkey)
    exact ⟨workContainment_eq hs h hnode (todoKinds_canonical hkey) hid,
      by simp [plainItem, hkind, h.length_le]⟩
  induction h generalizing node n below with
  | @root key memberships h =>
    obtain ⟨hitem, hplain⟩ := hread h hnode hkey
    rw [ancestors_step (fun hmem => lt_irrefl _ (hbelow _ hmem)) hitem hplain]
    cases memberships with
    | nil => rfl
    | cons e rest =>
      have hrest : rest = [] := by
        cases h
        rfl
      subst hrest
      obtain ⟨he, hr, rfl⟩ := h.inArena
      obtain ⟨harena, hdirect⟩ := hs.arena_kind e he hr
      obtain ⟨arena, hsource⟩ := (node_of_edge he).1
      obtain ⟨hid, hkind⟩ := hkinds _ _ hsource (by rw [harena]; exact List.mem_cons_self)
      have hpair : (Label.arena, e.source.2) = e.source := by rw [← harena]
      have hplaced : plainMembership e.target e (some arena) = true := by
        rw [harena] at hkind
        simp only [plainMembership, harena, hr, hkind, Option.any_some]
        simpa [Label.name, directKinds] using hdirect
      simp only [hpair, memoryStorage, getNode_eq hid, hsource]
      change (pure (if plainMembership e.target e (some arena) = true then _ else _) :
        Except _ _) = _
      rw [hplaced]
      rfl
  | @child key root e arena chain h _ ih =>
    obtain ⟨hitem, hplain⟩ := hread h hnode hkey
    obtain ⟨hlevel, htodo, hkind⟩ := h.level hs
    obtain ⟨he, hr, rfl, -⟩ := h.parent
    obtain ⟨node', hsource⟩ := (node_of_edge he).1
    have htop := level_le e.source.1
    have hparent : plainParent e.target ⟨node, [e], []⟩ e = true := by
      simp [plainParent, hr, hkind]
    obtain ⟨m, rfl⟩ := Nat.exists_eq_add_of_lt (show 0 < n by omega)
    rw [ancestors_step (fun hmem => lt_irrefl _ (hbelow _ hmem)) hitem hplain]
    change (if plainParent e.target ⟨node, [e], []⟩ e = true then _ else _) = _
    rw [if_pos hparent, zero_add, ih hsource htodo (by omega), List.append_assoc]
    · rfl
    · intro k hk
      obtain rfl | hk := List.mem_cons.1 hk
      · exact hlevel
      · exact lt_trans (hbelow k hk) hlevel

theorem currentResourcePath_eq (hs : Placed s) (hkinds : KindsStored s)
    (h : Lineage s key root arena chain) (hnode : s.node? key = some node)
    (hkey : key.1 ∈ todoKinds) :
    currentResourcePath (memoryStorage s) key = .ok (some chain) := by
  rw [currentResourcePath, if_neg (not_not.2 hkey),
    ancestors_eq hs hkinds h hnode hkey (by omega) (by simp), List.append_nil]

/-- The records of items and of Arenas are readable. -/
structure WellFormed (s : Store) : Prop where
  work : ∀ key node, s.node? key = some node → key.1 ∈ canonicalWorkKinds →
    ∃ w, fromNode key node = .ok w
  arena : ∀ id node, s.node? (.arena, id) = some node → ∃ a, Arena.fromNode id node = .ok a

lemma arena_fromNode_kind {id : String} {a : Arena} (h : Arena.fromNode id node = .ok a) :
    isWorkObjectId id = true ∧ node.properties .kind = some (.str "Arena") := by
  obtain ⟨rfl, rfl, hvalid⟩ := arena_fromNode_ok h
  refine ⟨?_, rfl⟩
  simp only [Arena.valid, Bool.and_eq_true] at hvalid
  obtain ⟨⟨⟨⟨⟨⟨hid, -⟩, -⟩, -⟩, -⟩, -⟩, -⟩ := hvalid
  exact hid

lemma WellFormed.kinds (h : WellFormed s) : KindsStored s := by
  rintro ⟨kind, id⟩ node hnode hkind
  obtain rfl | hkind := List.mem_cons.1 hkind
  · obtain ⟨a, ha⟩ := h.arena id node hnode
    exact arena_fromNode_kind ha
  · obtain ⟨w, hw⟩ := h.work _ node hnode (todoKinds_canonical hkind)
    exact ⟨(fromNode_ok hw).1, (fromNode_ok hw).2.1⟩

section Root

variable (hs : Placed s) (hwork : ∀ key node, s.node? key = some node →
  key.1 ∈ canonicalWorkKinds → ∃ w, fromNode key node = .ok w)

include hs hwork

lemma containment_eq (h : Stands s key above memberships)
    (hnode : s.node? key = some node) (hkey : key.1 ∈ todoKinds) :
    containment s key = .ok ⟨node, above, memberships⟩ := by
  obtain ⟨w, hw⟩ := hwork key node hnode (todoKinds_canonical hkey)
  have hid := (fromNode_ok hw).1
  rw [containment, workContainment_eq hs h hnode (todoKinds_canonical hkey) hid]
  change (fromNode key node >>= fun _ => _) = _
  rw [hw]
  rfl

omit hwork in
lemma directId_eq (h : Stands s key above memberships) (node : Node) :
    directId key ⟨node, above, memberships⟩ = .ok (arenaOf memberships) := by
  simp only [directId, except_ok, exists_const]
  cases h with
  | root => simp [arenaOf]
  | @placed e he hr =>
    obtain ⟨harena, hdirect⟩ := hs.arena_kind e he hr
    simp [harena, hdirect, arenaOf]
  | child => simp [arenaOf]

lemma ascend_root_eq (h : Stands s key [] memberships)
    (hnode : s.node? key = some node) (hkey : key.1 ∈ todoKinds) :
    ascend s key = .ok (.root (arenaOf memberships)) := by
  rw [ascend, containment_eq hs hwork h hnode hkey]
  change (directId key ⟨node, [], memberships⟩ >>= fun _ => _) = _
  rw [directId_eq hs h]
  rfl

lemma ascend_parent_eq (h : Stands s key [e] [])
    (hnode : s.node? key = some node) (hkey : key.1 ∈ todoKinds) :
    ascend s key = .ok (.parent e.source) := by
  rw [ascend, containment_eq hs hwork h hnode hkey]
  change (directId key ⟨node, [e], []⟩ >>= fun _ => _) = _
  rw [directId_eq hs h]
  have hkind := (h.level hs).2.2
  simp only [except_ok, Except.ok.injEq, exists_eq_left']
  simp [arenaOf, hkind]

theorem climb_eq (h : Lineage s key root arena chain)
    (hnode : s.node? key = some node) (hkey : key.1 ∈ todoKinds) {visited : List Key}
    (hvisited : ∀ k ∈ visited, level k.1 < level key.1) :
    climb s visited key = .ok (root, arena) := by
  induction h generalizing node visited with
  | @root key memberships h =>
    rw [climb, dif_neg fun hmem => lt_irrefl _ (hvisited _ hmem)]
    have hascend := ascend_root_eq hs hwork h hnode hkey
    split
    · rename_i herror
      rw [hascend] at herror
      cases herror
    · rename_i hroot
      rw [hascend] at hroot
      cases hroot
      rfl
    · rename_i hparent
      rw [hascend] at hparent
      cases hparent
  | @child key root e arena chain h _ ih =>
    rw [climb, dif_neg fun hmem => lt_irrefl _ (hvisited _ hmem)]
    have hascend := ascend_parent_eq hs hwork h hnode hkey
    obtain ⟨hlevel, htodo, -⟩ := h.level hs
    obtain ⟨node', hsource⟩ := (node_of_edge h.parent.1).1
    split
    · rename_i herror
      rw [hascend] at herror
      cases herror
    · rename_i hroot
      rw [hascend] at hroot
      cases hroot
    · rename_i hparent
      rw [hascend] at hparent
      cases hparent
      apply ih hsource htodo
      intro k hk
      obtain rfl | hk := List.mem_cons.1 hk
      · exact hlevel
      · exact lt_trans (hvisited k hk) hlevel

end Root

lemma Lineage.last (h : Lineage s key root arena chain) : chain.getLast? = some key := by
  cases h <;> simp

lemma Lineage.root_kind (hs : Placed s) (h : Lineage s key root arena chain)
    (hkey : key.1 ∈ todoKinds) : root.1 ∈ todoKinds ∧ (root.1 = .todo → root = key) := by
  induction h with
  | root h => exact ⟨hkey, fun _ => rfl⟩
  | @child key root e arena chain h hup ih =>
    obtain ⟨-, htodo, hparent⟩ := h.level hs
    obtain ⟨hroot, htop⟩ := ih htodo
    refine ⟨hroot, ?_⟩
    intro hkind
    rw [← htop hkind, hkind] at hparent
    exact absurd hparent (by cases key.1 <;> decide)

/-- The chain begins with the Arena, if there is one, and with the root otherwise. -/
lemma Lineage.head (hs : Placed s) (h : Lineage s key root arena chain) :
    chain.head? = some ((arena.map (Prod.mk Label.arena)).getD root) ∧
      ∀ id ∈ arena, ∃ node, s.node? (.arena, id) = some node := by
  induction h with
  | @root key memberships h =>
    cases h with
    | root => exact ⟨rfl, by simp [arenaOf]⟩
    | @placed e he hr =>
      have hpair : (Label.arena, e.source.2) = e.source := by rw [← (hs.arena_kind e he hr).1]
      refine ⟨congrArg some hpair.symm, ?_⟩
      rintro id hid
      cases hid
      rw [hpair]
      exact (node_of_edge he).1
  | @child key root e arena chain h hup ih =>
    obtain ⟨hhead, harena⟩ := ih
    refine ⟨?_, harena⟩
    rw [List.head?_append, hhead]
    rfl

theorem membership_eq (hs : Placed s) (hwell : WellFormed s) (h : Lineage s key root arena chain)
    (hnode : s.node? key = some node) (hkey : key.1 ∈ workKinds) :
    ∃ found, membership s key = .ok found ∧ found.arena.map Arena.id = arena ∧
      found.root = root := by
  have htodo : key.1 ∈ todoKinds := todoKinds_iff.2 (.inr hkey)
  have hroot : root.1 ∈ workKinds := by
    obtain ⟨hroot, htop⟩ := h.root_kind hs htodo
    obtain hkind | hkind := todoKinds_iff.1 hroot
    · rw [htop hkind]
      exact hkey
    · exact hkind
  have harena : ∃ found, optionalArena s arena = .ok found := by
    cases harena : arena with
    | none => exact ⟨none, rfl⟩
    | some id =>
      obtain ⟨node, hnode⟩ := (h.head hs).2 id harena
      obtain ⟨a, ha⟩ := hwell.arena id node hnode
      have hid := (arena_fromNode_kind ha).1
      refine ⟨some a, ?_⟩
      simp only [optionalArena, getArena, map_eq_pure_bind, except_ok, validateWorkObjectId,
        exists_const]
      exact ⟨a, ⟨by simp [hid], some node, by rw [getNode_eq hid, hnode], ha⟩, rfl⟩
  obtain ⟨found, hfound⟩ := harena
  refine ⟨⟨found, root⟩, ?_, optionalArena_ok hfound, rfl⟩
  simp only [membership, except_ok, exists_const]
  exact ⟨fun hnot => hnot htodo, (root, arena), climb_eq hs hwell.work h hnode htodo (by simp),
    found, hfound, fun hnot => hnot hroot, rfl⟩

theorem membership_todo (hs : Placed s) (hwell : WellFormed s)
    (hnode : s.node? key = some node) (hkey : key.1 = .todo) :
    membership s key = .error ⟨.valueError, "invalid Arena membership"⟩ := by
  have hnone : ∀ e ∈ s.edges, e.relationship = .hasChild ∨ e.relationship = .containsWork →
      e.target ≠ key := by
    rintro e he (hr | hr) rfl
    · have hkind := hs.parent_kind e he hr
      rw [hkey] at hkind
      cases hkind
    · have hkind := (hs.arena_kind e he hr).2
      rw [hkey] at hkind
      exact absurd hkind (by decide)
  obtain ⟨kind, id⟩ := key
  subst hkey
  have h : Lineage s (.todo, id) (.todo, id) none [(.todo, id)] :=
    .root (.root (fun e he hr => hnone e he (.inl hr)) fun e he hr => hnone e he (.inr hr))
  rw [membership, climb_eq hs hwell.work h hnode (show Label.todo ∈ todoKinds by decide) (by simp)]
  rfl

end DevGraph.Proofs
