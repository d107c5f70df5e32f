import DevGraph.Proofs.Lineage

/-!
# Stores of given records

A store with given items, each with a well-formed record, and given edges between them; and the
store that is one chain of containers.
-/

namespace DevGraph.Proofs

open Lib Work

lemma isDatetime_epoch : isDatetime 1970 1 1 0 0 0 0 0 = true := by decide

def epoch : Datetime := ⟨1970, 1, 1, 0, 0, 0, 0, 0, isDatetime_epoch⟩

def recordArena (id : String) : Arena :=
  ⟨id, "Arena", "", 1, false, isoformat epoch, isoformat epoch⟩

def recordNode (key : Key) : Node :=
  if key.1 = .arena then (recordArena key.2).node
  else (newObject key.1 key.2 "Work" "" epoch epoch).node

def Recordable (key : Key) : Prop :=
  isWorkObjectId key.2 = true ∧ key.1 ∈ Label.arena :: canonicalWorkKinds

lemma newObject_valid {kind : Label} {id : String} (hkind : kind ∈ canonicalWorkKinds)
    (hid : isWorkObjectId id = true) : Valid (newObject kind id "Work" "" epoch epoch) := by
  have hstage : ∀ workflow, stageProgress workflow .backlog = .ok .notStarted := by
    intro workflow
    cases workflow <;> rfl
  have hstate : validateProgress (some .notStarted)
      (if kind ∈ todoKinds ∧ kind ≠ .todo then some (initialState kind) else none) = .ok () := by
    split
    · simp only [validateProgress, initialState, encodeState_ne_empty, if_false, except_bind_ok]
      exact ⟨_, decodeState_new _, _, hstage _, by rw [raiseIf_eq_ok]; exact fun h => h rfl⟩
    · rfl
  have hcheck : (newObject kind id "Work" "" epoch epoch).checkTodo = .ok () := by
    unfold WorkObject.checkTodo
    split
    · rename_i htodo
      change kind ∈ todoKinds at htodo
      change validateProgress (if kind ∈ todoKinds then _ else _) _ = _
      rw [if_pos htodo]
      exact hstate
    · rfl
  exact (new_valid kind hkind (postInit_ok.2 ⟨rfl, hid, rfl, rfl, rfl, rfl, hcheck⟩)).1

lemma recordArena_fromNode {id : String} (hid : isWorkObjectId id = true) :
    Arena.fromNode id (recordArena id).node = .ok (recordArena id) := by
  have hvalid : (recordArena id).valid = true := by
    have hdate : (fromisoformat (isoformat epoch)).isSome = true := by decide +kernel
    have htext : ("Arena".length : Nat) = 5 := by decide
    simp only [Arena.valid, recordArena, hid, hdate, htext, isArenaVersion]
    rfl
  simp only [Arena.fromNode]
  change (raiseIf ((recordArena id).valid = false ∨
    (recordArena id).toNodeProperties ≠ (recordArena id).toNodeProperties) malformedArena >>=
      fun _ => pure (recordArena id)) = _
  rw [except_bind_ok]
  exact ⟨(), by simp [raiseIf_eq_ok, hvalid], rfl⟩

section Stores

variable (keys : List Key) (edges : List EdgeRecord) (hdistinct : edges.Nodup)
  (hends : ∀ e ∈ edges, e.source ∈ keys ∧ e.target ∈ keys)

def recordNodes : List Key → Store
  | [] => .empty
  | key :: keys => (recordNodes keys).put key (recordNode key)

lemma node?_recordNodes (key : Key) :
    (recordNodes keys).node? key = if key ∈ keys then some (recordNode key) else none := by
  induction keys with
  | nil => rfl
  | cons first keys ih =>
    rw [recordNodes]
    by_cases h : key = first
    · subst h
      rw [GraphStore.node?_put_self, if_pos List.mem_cons_self]
    · rw [GraphStore.node?_put_of_ne _ h, ih]
      simp only [List.mem_cons, h, false_or]

def recordStore : Store where
  nodes := (recordNodes keys).nodes
  edges := edges
  distinct := hdistinct
  endpoints := by
    have hnode : ∀ key ∈ keys, key ∈ (recordNodes keys).nodes := by
      intro key hkey
      rw [GraphStore.mem_nodes_iff, node?_recordNodes, if_pos hkey]
      exact ⟨_, rfl⟩
    exact fun e he => ⟨hnode _ (hends e he).1, hnode _ (hends e he).2⟩

lemma node?_recordStore (key : Key) : (recordStore keys edges hdistinct hends).node? key =
    if key ∈ keys then some (recordNode key) else none := node?_recordNodes keys key

variable {keys edges hdistinct hends}

lemma recordStore_wellFormed (hkeys : ∀ key ∈ keys, Recordable key) :
    WellFormed (recordStore keys edges hdistinct hends) := by
  have hread : ∀ key node, (recordStore keys edges hdistinct hends).node? key = some node →
      key ∈ keys ∧ node = recordNode key := by
    intro key node hnode
    rw [node?_recordStore] at hnode
    split at hnode
    · cases hnode
      exact ⟨‹_›, rfl⟩
    · cases hnode
  constructor
  · intro key node hnode hkind
    obtain ⟨hkey, rfl⟩ := hread key node hnode
    have hne : key.1 ≠ .arena := by
      intro harena
      rw [harena] at hkind
      exact absurd hkind (by decide)
    refine ⟨newObject key.1 key.2 "Work" "" epoch epoch, ?_⟩
    rw [recordNode, if_neg hne]
    exact fromNode_work (newObject_valid hkind (hkeys key hkey).1)
  · intro id node hnode
    obtain ⟨hkey, rfl⟩ := hread _ node hnode
    exact ⟨_, recordArena_fromNode (hkeys _ hkey).1⟩

end Stores

def Contains (a b : Key) : Prop := a.1 = .arena ∧ b.1 ∈ directKinds ∨ a.1 ∈ parents b.1

def containmentEdge (a b : Key) : EdgeRecord :=
  ⟨a, if a.1 = .arena then .containsWork else .hasChild, b, noProps⟩

def chainEdges : List Key → List EdgeRecord
  | a :: b :: rest => containmentEdge a b :: chainEdges (b :: rest)
  | _ => []

lemma chainEdges_target (chain : List Key) :
    (chainEdges chain).map Edge.target = chain.tail := by
  induction chain with
  | nil => rfl
  | cons a rest ih =>
    cases rest with
    | nil => rfl
    | cons b rest => rw [chainEdges, List.map_cons, ih]; rfl

lemma chainEdges_source {chain : List Key} {e : EdgeRecord} (he : e ∈ chainEdges chain) :
    e.source ∈ chain ∧ e = containmentEdge e.source e.target := by
  induction chain with
  | nil => cases he
  | cons a rest ih =>
    cases rest with
    | nil => cases he
    | cons b rest =>
      obtain rfl | he := List.mem_cons.1 he
      · exact ⟨List.mem_cons_self, rfl⟩
      · exact ⟨List.mem_cons_of_mem _ (ih he).1, (ih he).2⟩

lemma mem_chainEdges (before after : List Key) (a b : Key) :
    containmentEdge a b ∈ chainEdges (before ++ a :: b :: after) := by
  induction before with
  | nil => exact List.mem_cons_self
  | cons c before ih =>
    cases before with
    | nil => exact List.mem_cons_of_mem _ ih
    | cons d before => exact List.mem_cons_of_mem _ ih

lemma chainEdges_contains {chain : List Key} (hchain : chain.IsChain Contains) {e : EdgeRecord}
    (he : e ∈ chainEdges chain) : Contains e.source e.target := by
  induction chain with
  | nil => cases he
  | cons a rest ih =>
    cases rest with
    | nil => cases he
    | cons b rest =>
      rw [List.isChain_cons_cons] at hchain
      obtain rfl | he := List.mem_cons.1 he
      · exact hchain.1
      · exact ih hchain.2 he

/-- The graph whose only items are those of a chain, each contained in the one before it. -/
def chainStore (chain : List Key) (hchain : chain.Nodup) : Store :=
  recordStore chain (chainEdges chain)
    (by
      have h := hchain.tail
      rw [← chainEdges_target] at h
      exact h.of_map _)
    (by
      intro e he
      have htarget := List.mem_map_of_mem (f := Edge.target) he
      rw [chainEdges_target] at htarget
      exact ⟨(chainEdges_source he).1, List.mem_of_mem_tail htarget⟩)

section Chain

variable {chain : List Key} {hnodup : chain.Nodup}

@[simp] lemma edges_chainStore : (chainStore chain hnodup).edges = chainEdges chain := rfl

lemma node?_chainStore {key : Key} (h : key ∈ chain) :
    (chainStore chain hnodup).node? key = some (recordNode key) :=
  (node?_recordStore _ _ _ _ key).trans (if_pos h)

lemma chainStore_wellFormed (hkeys : ∀ key ∈ chain, Recordable key) :
    WellFormed (chainStore chain hnodup) := recordStore_wellFormed hkeys

lemma chainEdges_unique (hnodup : chain.Nodup) {e e' : EdgeRecord} (he : e ∈ chainEdges chain)
    (he' : e' ∈ chainEdges chain) (htarget : e.target = e'.target) : e = e' := by
  have h := hnodup.tail
  rw [← chainEdges_target] at h
  exact List.inj_on_of_nodup_map h he he' htarget

lemma Contains.edge {a b : Key} (h : Contains a b) :
    ((containmentEdge a b).relationship = .hasChild → a.1 ∈ parents b.1) ∧
      ((containmentEdge a b).relationship = .containsWork → a.1 = .arena ∧ b.1 ∈ directKinds) := by
  unfold containmentEdge
  by_cases ha : a.1 = .arena
  · rw [if_pos ha]
    refine ⟨fun hr => (nomatch hr), fun _ => ?_⟩
    obtain h | h := h
    · exact h
    · rw [ha] at h
      exact absurd h (by cases b.1 <;> decide)
  · rw [if_neg ha]
    refine ⟨fun _ => ?_, nofun⟩
    obtain h | h := h
    · exact absurd h.1 ha
    · exact h

theorem chainStore_placed (hchain : chain.IsChain Contains) :
    Placed (chainStore chain hnodup) := by
  have hunique : ∀ r, UniqueInto r (chainStore chain hnodup) :=
    fun _ _ he _ he' _ _ htarget => chainEdges_unique hnodup he he' htarget
  refine ⟨hunique _, hunique _, ?_, ?_, ?_⟩
  · intro e he hr
    rw [(chainEdges_source he).2] at hr
    exact (chainEdges_contains hchain he).edge.1 hr
  · intro e he hr
    rw [(chainEdges_source he).2] at hr
    exact (chainEdges_contains hchain he).edge.2 hr
  · intro e he e' he' hr hr' htarget
    have h := chainEdges_unique hnodup he he' htarget
    rw [h, hr'] at hr
    cases hr

lemma chainStore_lineage (hnodup : chain.Nodup) (hchain : chain.IsChain Contains)
    {before after : List Key} {current : Key} (heq : chain = before ++ current :: after)
    (hcurrent : current.1 ≠ .arena) :
    ∃ root arena, Lineage (chainStore chain hnodup) current root arena (before ++ [current]) := by
  induction before using List.reverseRecOn generalizing current after with
  | nil =>
    have hhead : ∀ e ∈ chainEdges chain, e.target ≠ current := by
      intro e he htarget
      have hmem := List.mem_map_of_mem (f := Edge.target) he
      rw [chainEdges_target, htarget, heq] at hmem
      rw [heq] at hnodup
      exact (List.nodup_cons.1 hnodup).1 hmem
    exact ⟨current, none, .root (.root (fun e he _ => hhead e he) fun e he _ => hhead e he)⟩
  | append_singleton before a ih =>
    rw [List.append_assoc] at heq
    have hmem : containmentEdge a current ∈ (chainStore chain hnodup).edges := by
      rw [edges_chainStore, heq]
      exact mem_chainEdges before after a current
    by_cases ha : a.1 = .arena
    · have hbefore : before = [] := by
        cases before using List.reverseRecOn with
        | nil => rfl
        | append_singleton before b =>
          rw [List.append_assoc] at heq
          have hcontains := chainEdges_contains hchain (heq ▸ mem_chainEdges before _ b a)
          obtain ⟨-, h⟩ | h := hcontains
          · rw [show (containmentEdge b a).target.1 = Label.arena from ha] at h
            exact absurd h (by decide)
          · rw [show (containmentEdge b a).target.1 = Label.arena from ha] at h
            cases h
      subst hbefore
      exact ⟨_, _, .root (.placed hmem (if_pos ha))⟩
    · obtain ⟨root, arena, h⟩ := ih heq ha
      exact ⟨root, arena, .child (.child hmem (if_neg ha)) h⟩

theorem chainStore_path (hchain : chain.IsChain Contains)
    (hids : ∀ key ∈ chain, Recordable key) {before : List Key} {current : Key}
    (heq : chain = before ++ [current]) (hcurrent : current.1 ∈ todoKinds) :
    currentResourcePath (memoryStorage (chainStore chain hnodup)) current = .ok (some chain) := by
  have harena : current.1 ≠ .arena := by
    intro h
    rw [h] at hcurrent
    exact absurd hcurrent (by decide)
  obtain ⟨root, arena, h⟩ := chainStore_lineage hnodup hchain heq harena
  rw [← heq] at h
  exact currentResourcePath_eq (chainStore_placed hchain) (chainStore_wellFormed hids).kinds h
    (node?_chainStore (by rw [heq]; simp)) hcurrent

end Chain

/-- An Arena with an Initiative that has a Task. -/
def taskStore : Store :=
  chainStore [(.arena, "a"), (.initiative, "i"), (.task, "t")] (by decide)

lemma taskStore_placed : Placed taskStore :=
  chainStore_placed (by simp [Contains, parents, directKinds])

lemma taskStore_wellFormed : WellFormed taskStore :=
  chainStore_wellFormed (by simp only [Recordable]; decide)

lemma taskStore_nodes :
    taskStore.node? (.initiative, "i") = some (recordNode (.initiative, "i")) ∧
      taskStore.node? (.task, "t") = some (recordNode (.task, "t")) :=
  ⟨node?_chainStore (by decide), node?_chainStore (by decide)⟩

end DevGraph.Proofs
