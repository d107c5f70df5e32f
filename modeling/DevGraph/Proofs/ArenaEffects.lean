import DevGraph.Proofs.ObjectEffects

/-!
# Effects of the Arena operations, and where Work is placed

A record that was read is the one that is stored, so that a new version replaces it exactly.
The reads of an item's placement say which containment edges lead to it.
-/

namespace DevGraph.Proofs

open Lib Work

variable {a : Arena} {key : Key} {id : Option String}

variable {keys : List Key} {s s' : Store}

lemma arena_fromNode_ok {id : String} {node : Node} (h : Arena.fromNode id node = .ok a) :
    a.id = id ∧ node = a.node ∧ a.valid = true := by
  unfold Arena.fromNode at h
  dsimp only at h
  split at h
  · simp only [except_ok, not_or, not_not, Bool.not_eq_false] at h
    obtain ⟨_, ⟨hvalid, hprops⟩, rfl⟩ := h
    refine ⟨rfl, ?_, hvalid⟩
    cases node
    exact congrArg (Node.mk · _) hprops
  · cases h

lemma getArena_ok {id : String} (h : getArena s id = .ok a) :
    a.id = id ∧ s.node? a.key = some a.node := by
  simp only [getArena, except_bind_ok] at h
  obtain ⟨_, -, found, hfound, h⟩ := h
  have hnode := getNode_ok hfound
  cases found with
  | none => cases h
  | some node =>
    obtain ⟨rfl, rfl, -⟩ := arena_fromNode_ok h
    exact ⟨rfl, hnode.symm⟩

lemma currentArena_ok {r : ArenaReference} (h : currentArena s r = .ok a) :
    a.id = r.id ∧ s.node? a.key = some a.node ∧ a.version = r.expectedVersion := by
  simp only [currentArena, except_ok, not_not] at h
  obtain ⟨_, hget, _, hversion, rfl⟩ := h
  obtain ⟨hid, hnode⟩ := getArena_ok hget
  exact ⟨hid, hnode, hversion⟩

lemma arena_ext {b : Arena} (hid : a.id = b.id) (hnode : a.node = b.node) : a = b := by
  have hprops := congrArg Node.properties hnode
  have htext : ∀ p, a.toNodeProperties p = b.toNodeProperties p := congrFun hprops
  have htitle := htext .title
  have hdescription := htext .description
  have hversion := htext .version
  have hcreated := htext .createdAt
  have hupdated := htext .updatedAt
  have harchived : a.archived = b.archived := congrArg Node.archived hnode
  simp only [Arena.toNodeProperties, Option.some.injEq, Value.str.injEq,
    Value.int.injEq] at htitle hdescription hversion hcreated hupdated
  cases a
  cases b
  simp_all

lemma arena_merge (a b : Arena) :
    a.toNodeProperties.merge b.toNodeProperties = b.toNodeProperties := by
  funext p
  cases p <;> rfl

lemma storeArena_trace {arena updated : Arena} {node : Node}
    (hnode : s.node? arena.key = some arena.node)
    (harchived : arena.archived = true → updated.archived = true)
    (h : storeArena arena updated s = .ok node s') :
    Trace s [.update arena.key arena.node updated.node] s' := by
  have hlabel : arena.key.1 ∉ canonicalWorkKinds := show Label.arena ∉ canonicalWorkKinds by decide
  have hmerge : arena.node.properties.merge updated.toNodeProperties = updated.toNodeProperties :=
    arena_merge arena updated
  unfold storeArena at h
  split at h
  · rename_i hnew
    obtain ⟨old, hold, rfl, htrace⟩ := archiveNode_other hlabel h
    rw [hnode] at hold
    cases hold
    rw [hmerge, ← hnew.1] at htrace
    exact htrace
  · rename_i hsame
    obtain ⟨old, hold, rfl, htrace⟩ := updateNode_other hlabel h
    rw [hnode] at hold
    cases hold
    have hflag : arena.node.archived = updated.archived := by
      change arena.archived = updated.archived
      cases hflag : arena.archived with
      | true => exact (harchived hflag).symm
      | false =>
        by_contra hne
        exact hsame ⟨(Bool.not_eq_false _).mp (Ne.symm hne), hflag⟩
    rw [hmerge, hflag] at htrace
    exact htrace

variable {now : Datetime}

lemma bumpArena_effect (subject : Key) {arena changed : Arena}
    (hnode : s.node? arena.key = some arena.node) (hkey : arena.key ∈ keys)
    (hid : changed.id = arena.id) (hversion : changed.version = arena.version)
    (harchived : arena.archived = true → changed.archived = true)
    (h : bumpArena arena changed now s = .ok a s') :
    Effect subject keys s [.update arena.key arena.node a.node] s' := by
  simp only [bumpArena, Arena.validated, bind_ok, lift_ok, except_ok, pure_ok] at h
  obtain ⟨updated, _, ⟨⟨_, -, rfl⟩, rfl⟩, node, _, hstore, rfl, rfl⟩ := h
  have hgood : Good subject (.update arena.key arena.node (changed.next now).node) :=
    .arena hid (congrArg (· + 1) hversion)
  exact .single (storeArena_trace hnode harchived hstore) hgood hkey

theorem createArena_effect {content : CreateArena}
    (h : createArena content now s = .ok a s') :
    ∃ ws, Records (.arena, content.id) [(.arena, content.id)] s ws s' ∧
      (.arena, content.id) ∈ nodeKeys ws := by
  simp only [createArena, Arena.validated, bind_ok, lift_ok, except_ok, reraising_ok, pure_ok] at h
  obtain ⟨arena, _, ⟨⟨_, -, rfl⟩, rfl⟩, node, _, hcreate, rfl, rfl⟩ := h
  have hlabel : Label.arena ∉ canonicalWorkKinds := by decide
  have hnode := (createNode_other hlabel hcreate).1
  subst hnode
  exact ⟨_, .create (.single (createNode_trace hcreate) (.newArena rfl)
    (List.mem_singleton_self _)), List.mem_cons_self⟩

theorem changeArena_effect {r : ArenaRequest} {change : Arena → Arena}
    (hid : ∀ a, (change a).id = a.id) (hversion : ∀ a, (change a).version = a.version)
    (h : changeArena r change now s = .ok a s') :
    ∃ arena : Arena, arena.key = (.arena, r.id) ∧ arena.version = r.expectedVersion.getD 0 ∧
      Effect (.arena, r.id) [(.arena, r.id)] s [.update arena.key arena.node a.node] s' := by
  simp only [changeArena, bind_ok, reading_ok, raiseIf_ok] at h
  obtain ⟨arena, _, ⟨hcurrent, rfl⟩, _, _, ⟨hactive, rfl⟩, hbump⟩ := h
  obtain ⟨harena, hnode, hexpected⟩ := currentArena_ok hcurrent
  have hkey : arena.key = (.arena, r.id) := by rw [Arena.key, harena]
  refine ⟨arena, hkey, hexpected, ?_⟩
  exact bumpArena_effect _ hnode (hkey ▸ List.mem_singleton_self _) (hid arena) (hversion arena)
    (fun h => absurd h hactive) hbump

lemma bumpArenas_effect (subject : Key) {clock : Nat → Datetime} {n : Nat} {arenas : List Arena}
    {u : Unit} (hnodes : ∀ a ∈ arenas, s.node? a.key = some a.node)
    (hdistinct : (arenas.map Arena.key).Nodup) (hkeys : ∀ a ∈ arenas, a.key ∈ keys)
    (h : bumpArenas clock n arenas s = .ok u s') :
    ∃ ws, Effect subject keys s ws s' ∧ nodeKeys ws = arenas.map Arena.key ∧
      ∀ x ∈ ws, x.edgeSource? = none := by
  induction arenas generalizing s n with
  | nil =>
    simp only [bumpArenas, pure_ok] at h
    obtain ⟨-, rfl⟩ := h
    exact ⟨[], .nil _ _ _, rfl, by simp⟩
  | cons arena arenas ih =>
    simp only [bumpArenas, bind_ok] at h
    obtain ⟨a, t, hbump, hrest⟩ := h
    rw [List.map_cons, List.nodup_cons] at hdistinct
    have hfirst := bumpArena_effect subject (hnodes arena List.mem_cons_self)
      (hkeys arena List.mem_cons_self) rfl rfl id hbump
    have hnodes' : ∀ b ∈ arenas, t.node? b.key = some b.node := by
      intro b hb
      rw [hfirst.trace.node?_of_notMem]
      · exact hnodes b (List.mem_cons_of_mem _ hb)
      · rw [nodeKeys_update, nodeKeys_nil, List.mem_singleton]
        intro heq
        exact hdistinct.1 (heq ▸ List.mem_map_of_mem hb)
    rcases ih hnodes' hdistinct.2 (fun b hb => hkeys b (List.mem_cons_of_mem _ hb)) hrest with
      ⟨ws, hws, hnodeKeys, hedges⟩
    refine ⟨_, hfirst.append hws, ?_, ?_⟩
    · rw [List.singleton_append, nodeKeys_update, hnodeKeys, List.map_cons]
    · exact List.forall_mem_cons.2 ⟨rfl, hedges⟩

lemma take_two {α : Type} {l : List α} (h : ¬ (l.take 2).length > 1) : l.take 2 = l := by
  apply List.take_of_length_le
  rw [List.length_take] at h
  omega

lemma mem_incoming {r : Relationship} {e : EdgeRecord} :
    e ∈ incoming s r key ↔ e ∈ s.edges ∧ e.relationship = r ∧ e.target = key := by
  simp [incoming]

lemma containment_ok {item : WorkContainment} (h : containment s key = .ok item) :
    item.parents = (incoming s .hasChild key).take 2 ∧
      item.memberships = (incoming s .containsWork key).take 2 := by
  simp only [containment, workContainment, except_ok] at h
  obtain ⟨found, ⟨_, -, _, -, hfound⟩, h⟩ := h
  cases hnode : s.node? key with
  | none =>
    rw [hnode] at hfound
    subst hfound
    cases h
  | some node =>
    rw [hnode] at hfound
    subst hfound
    change (fromNode key node >>= fun _ => pure _) = Except.ok item at h
    rw [except_bind_ok] at h
    obtain ⟨_, -, h⟩ := h
    cases h
    exact ⟨rfl, rfl⟩

lemma directId_ok {item : WorkContainment}
    (hitem : containment s key = .ok item) (h : directId key item = .ok id) :
    ∀ e ∈ s.edges, e.relationship = .containsWork → e.target = key →
      ∃ i ∈ id, e.source = (.arena, i) := by
  intro e he hrelation htarget
  have hmem : e ∈ incoming s .containsWork key := mem_incoming.2 ⟨he, hrelation, htarget⟩
  have hmemberships := (containment_ok hitem).2
  simp only [directId, except_ok, not_or, not_exists, not_and, not_not] at h
  obtain ⟨_, ⟨hlength, harena⟩, _, -, rfl⟩ := h
  rw [hmemberships] at hlength harena ⊢
  have hall := take_two hlength
  rw [hall] at hlength harena ⊢
  have hsource := harena e hmem
  cases hlist : incoming s .containsWork key with
  | nil =>
    rw [hlist] at hmem
    cases hmem
  | cons e' rest =>
    rw [hlist] at hlength hmem
    have hrest : rest = [] := by
      rw [← List.length_eq_zero_iff]
      rw [List.length_cons] at hlength
      omega
    subst hrest
    rw [← List.mem_singleton.1 hmem]
    exact ⟨e.source.2, rfl, Prod.ext hsource rfl⟩

lemma optionalArena_ok {arena : Option Arena} (h : optionalArena s id = .ok arena) :
    arena.map Arena.id = id := by
  cases id with
  | none =>
    cases h
    rfl
  | some id =>
    simp only [optionalArena, map_eq_pure_bind, except_ok] at h
    obtain ⟨a, hget, rfl⟩ := h
    exact congrArg some (getArena_ok hget).1

lemma direct_ok {arena : Option Arena} (h : direct s key = .ok arena) :
    ∀ e ∈ s.edges, e.relationship = .containsWork → e.target = key →
      ∃ i ∈ arena.map Arena.id, e.source = (.arena, i) := by
  simp only [direct, except_bind_ok] at h
  obtain ⟨item, hitem, id, hid, harena⟩ := h
  rw [optionalArena_ok harena]
  exact directId_ok hitem hid

lemma climb_ok {visited : List Key} {root : Key} (h : climb s visited key = .ok (root, id)) :
    root ∉ visited ∧ ascend s root = .ok (.root id) := by
  fun_induction climb s visited key with
  | case1 visited key hvisited => cases h
  | case2 visited key hnew e herror => cases h
  | case3 visited key hnew id' hascend =>
    cases h
    exact ⟨hnew, hascend⟩
  | case4 visited key hnew parent hascend ih =>
    obtain ⟨hroot, hascend'⟩ := ih h
    exact ⟨fun hmem => hroot (List.mem_cons_of_mem _ hmem), hascend'⟩

lemma ascend_root (h : ascend s key = .ok (.root id)) :
    (∀ e ∈ s.edges, e.relationship = .hasChild → e.target ≠ key) ∧
      ∀ e ∈ s.edges, e.relationship = .containsWork → e.target = key →
        ∃ i ∈ id, e.source = (.arena, i) := by
  simp only [ascend, except_bind_ok] at h
  obtain ⟨item, hitem, _, -, arenaId, hid, h⟩ := h
  cases hparents : item.parents with
  | nil =>
    rw [hparents] at h
    cases h
    refine ⟨?_, directId_ok hitem hid⟩
    intro e he hrelation htarget
    have hmem : e ∈ incoming s .hasChild key := mem_incoming.2 ⟨he, hrelation, htarget⟩
    rw [(containment_ok hitem).1] at hparents
    obtain hzero | hnil := List.take_eq_nil_iff.1 hparents
    · cases hzero
    · rw [hnil] at hmem
      cases hmem
  | cons e rest =>
    rw [hparents] at h
    simp only [except_ok] at h
    obtain ⟨_, -, h⟩ := h
    cases h

lemma membership_ok {found : ArenaMembership} (h : membership s key = .ok found) :
    ∃ id, ascend s found.root = .ok (.root id) ∧ found.arena.map Arena.id = id := by
  simp only [membership, except_ok] at h
  obtain ⟨_, -, ⟨root, id⟩, hclimb, arena, harena, _, -, rfl⟩ := h
  exact ⟨id, (climb_ok hclimb).2, optionalArena_ok harena⟩

end DevGraph.Proofs
