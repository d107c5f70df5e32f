import DevGraph.Proofs.DelegatedRead
import DevGraph.Proofs.ResourcePaths
import DevGraph.Work.PathPredicate

/-!
# The path filter of the database is that of the receiver

The database looks for a chain that ends in the item, the receiver walks up from it. On every graph
with valid ids a chain that passes the filter is the chain that the walk returns.
-/

namespace DevGraph.Proofs

open Lib Work

variable {g : PathGraph} {key : Key}

def kindOf (g : PathGraph) (key : Key) : Option Value :=
  (g.node? key).bind fun stored => stored.node.properties .kind

lemma encodeProperty_eq_arena {v : Value} :
    encodeProperty v = pathArenaKind ↔ v = .str "Arena" := by
  constructor
  · intro h
    have htext : dumps false v.toJson = dumps false (Value.str "Arena").toJson := by
      simpa [encodeProperty, pathArenaKind, String.ext_iff] using h
    have hjson := dumps_injective plainJson false (toJson_readable v) (toJson_readable _) htext
    cases v with
    | str s =>
      cases hjson
      rfl
    | int => cases hjson
    | bool => cases hjson
    | strs => cases hjson
  · rintro rfl
    rfl

lemma matchesArena_eq (g : PathGraph) (arena : Key) :
    matchesArena g arena = Truth.of (kindOf g arena = some (.str "Arena")) := by
  have hplain : ∀ v : Option Value, v.getD (.str "") = .str "Arena" ↔ v = some (.str "Arena") := by
    rintro (- | v) <;> simp
  have hencoded : ∀ v : Option Value, (v.map encodeProperty).getD (.str "") = pathArenaKind ↔
      v = some (.str "Arena") := by
    rintro (- | v)
    · simp [pathArenaKind, encodeProperty, genericJsonMark, String.ext_iff]
    · simp [encodeProperty_eq_arena]
  cases hnode : g.node? arena with
  | none => simp [matchesArena, kindOf, PathGraph.encoding, PathGraph.kind, hnode, coalesceEmpty,
      Truth.of, Truth.and, Truth.or]
  | some stored =>
    obtain ⟨node, encoded⟩ := stored
    cases encoded with
    | false =>
      simp [matchesArena, kindOf, PathGraph.encoding, PathGraph.kind, hnode, coalesceEmpty,
        StoredNode.encoding, StoredNode.kind, hplain, Truth.of, Truth.and, Truth.or]
      by_cases harena : node.properties .kind = some (.str "Arena") <;> simp [harena]
    | true =>
      simp [matchesArena, kindOf, PathGraph.encoding, PathGraph.kind, hnode, coalesceEmpty,
        StoredNode.encoding, StoredNode.kind, hencoded, Truth.of, Truth.and, Truth.or]

lemma kind_eq (hkey : key.1 ∈ canonicalWorkKinds) : g.kind key = kindOf g key := by
  unfold PathGraph.kind kindOf
  cases hnode : g.node? key with
  | none => rfl
  | some stored =>
    simp only [Option.bind_some, StoredNode.kind]
    cases hkind : stored.node.properties .kind with
    | none => simp
    | some v => simp [g.plain key stored hnode hkey (by simp [hkind])]

lemma firstLabel (key : Key) : (labelsOf key)[0]? = some key.1.name := rfl

lemma todoKinds_names (label : Label) :
    label.name ∈ ["Todo", "Proposal", "Initiative", "Project", "Issue", "Task"] ↔
      label ∈ todoKinds := by
  cases label <;> decide

lemma matchesItem_iff : matchesItem g key = .yes ↔
    key.1 ∈ todoKinds ∧ kindOf g key = some (.str key.1.name) := by
  simp only [matchesItem, labelsOf, List.length_singleton, Truth.and_eq_yes, Truth.of_eq_yes,
    true_and, List.getElem?_cons_zero, Truth.isIn_some_eq_yes, todoKinds_names, Option.map_some,
    Truth.equal_eq_yes]
  apply and_congr_right
  intro hkey
  rw [kind_eq (todoKinds_canonical hkey)]

variable {e : EdgeRecord}

lemma matchesParent_iff :
    matchesParent e = .yes ↔ e.source.1 ∈ parents e.target.1 := by
  have hlabels : sourceLabels (some e.target.1.name) = (parents e.target.1).map Label.name := by
    cases e.target.1 <;> rfl
  simp only [matchesParent, labelsOf, List.getElem?_cons_zero, Truth.isIn_some_eq_yes, hlabels]
  rw [List.mem_map_of_injective labelName_injective]

lemma length_into (g : PathGraph) (r : Relationship) (key : Key) :
    (into g.edges r key).length = (g.incoming r key).length := by
  rw [PathGraph.incoming, ← map_into, List.length_map]

variable {r : Relationship}

lemma exists_into {P : EdgeRecord → Prop} :
    (∃ i ∈ into g.edges r key, P (g.edges.get i)) ↔ ∃ e ∈ g.incoming r key, P e := by
  rw [PathGraph.incoming, ← map_into]
  simp only [List.mem_map, exists_exists_and_eq_and]

lemma unmatched_iff :
    (Truth.exist (into g.edges r key) fun _ => .yes) = .no ↔ g.incoming r key = [] := by
  rw [← List.length_eq_zero_iff, ← length_into, List.length_eq_zero_iff,
    List.eq_nil_iff_forall_not_mem]
  simp

lemma matchesChild_iff : matchesChild g key = .yes ↔
    (g.incoming .hasChild key).length = 1 ∧ g.incoming .containsWork key = [] := by
  rw [matchesChild, Truth.and_eq_yes, Truth.of_eq_yes, Truth.not_eq_yes, unmatched_iff,
    length_into]

/-- The Arena that an item is directly in may hold it and is of kind Arena. -/
def Places (g : PathGraph) (root arena : Key) : Prop :=
  arena.1 = .arena ∧ kindOf g arena = some (.str "Arena") ∧ root.1 ∈ [Label.initiative, .task]

lemma misplaces_iff {root arena : Key} : misplaces g root arena ≠ .yes ↔ Places g root arena := by
  have hlabel : "Arena" ∈ [arena.1.name] ↔ arena.1 = .arena := by
    rw [List.mem_singleton]
    exact ⟨fun h => labelName_injective (h.symm.trans rfl), fun h => by rw [h]; rfl⟩
  have hroot : root.1.name ∈ ["Initiative", "Task"] ↔ root.1 ∈ [Label.initiative, .task] :=
    List.mem_map_of_injective labelName_injective (l := [Label.initiative, .task])
  simp only [misplaces, labelsOf, List.length_singleton, List.getElem?_cons_zero, ne_eq,
    Truth.or_eq_yes, Truth.of_eq_yes, Truth.not_eq_yes, Truth.of_eq_no, matchesArena_eq,
    Truth.isIn_some_eq_no, not_or, not_not, not_true_eq_false, not_false_eq_true, true_and, hroot,
    hlabel]
  rfl

/-- The clauses on a chain that do not speak of paths. -/
structure PlainTrail (g : PathGraph) (n : Key) (trail : List (Fin g.edges.length)) : Prop where
  top : g.incoming .hasChild (trailStart g.edges n trail) = []
  items : ∀ item ∈ trailNodes g.edges n trail,
    item.1 ∈ todoKinds ∧ kindOf g item = some (.str item.1.name)
  parent : ∀ i ∈ trail, (g.edges.get i).source.1 ∈ parents (g.edges.get i).target.1
  child : ∀ i ∈ trail, (g.incoming .hasChild (g.edges.get i).target).length = 1 ∧
    g.incoming .containsWork (g.edges.get i).target = []
  single : (g.incoming .containsWork (trailStart g.edges n trail)).length ≤ 1
  placed : ∀ e ∈ g.incoming .containsWork (trailStart g.edges n trail),
    Places g (trailStart g.edges n trail) e.source

/-- The chain as the receiver writes it, with the Arena of the root. -/
def trailChain (g : PathGraph) (n : Key) (trail : List (Fin g.edges.length)) : List Key :=
  (g.incoming .containsWork (trailStart g.edges n trail)).map Edge.source ++
    trailNodes g.edges n trail

variable {trail : List (Fin g.edges.length)}

lemma matchesAnchor_iff {n : Key} (h : PlainTrail g n trail)
    (anchor : Key) :
    matchesAnchor g (trailStart g.edges n trail) (trailNodes g.edges n trail) (resource anchor) =
      .yes ↔ anchor ∈ trailChain g n trail := by
  have htext : ∀ item : Key, item.1.name ++ "/" ++ item.2 = resource anchor ↔ item = anchor :=
    fun item => resource_injective.eq_iff (a := item)
  have harena : ∀ e ∈ g.incoming .containsWork (trailStart g.edges n trail),
      ("Arena" ∈ labelsOf e.source ∧ "Arena/" ++ e.source.2 = resource anchor) ↔
        e.source = anchor := by
    intro e he
    have hsource : e.source = (.arena, e.source.2) := by rw [← (h.placed e he).1]
    rw [hsource, ← htext (.arena, e.source.2)]
    simp [labelsOf, Label.name]
  simp only [matchesAnchor, Truth.or_eq_yes, Truth.any_eq_yes, Truth.exist_eq_yes, firstLabel,
    Option.map_some, Truth.equal_some, Truth.of_eq_yes, Truth.and_eq_yes, htext, exists_eq_right,
    trailChain, List.mem_append, List.mem_map]
  rw [or_comm]
  apply or_congr_left
  rw [exists_into (P := fun e => "Arena" ∈ labelsOf e.source ∧
    "Arena/" ++ e.source.2 = resource anchor)]
  exact exists_congr fun e => and_congr_right (harena e)

lemma matchesChain_iff {n : Key} {paths : List ResourcePath} :
    matchesChain g (some (paths.map fun p => p.path.map resource)) n trail = .yes ↔
      PlainTrail g n trail ∧ ∃ p ∈ paths, p.path ⊆ trailChain g n trail := by
  have harenas : Truth.exist (into g.edges .containsWork (trailStart g.edges n trail))
        (fun i => misplaces g (trailStart g.edges n trail) (g.edges.get i).source) = .no ↔
      ∀ e ∈ g.incoming .containsWork (trailStart g.edges n trail),
        Places g (trailStart g.edges n trail) e.source := by
    rw [Truth.exist_eq_no, PathGraph.incoming, ← map_into, List.forall_mem_map]
    exact forall₂_congr fun i _ => misplaces_iff
  have hanchors : PlainTrail g n trail → ((∃ p ∈ paths, ∀ anchor ∈ p.path,
      matchesAnchor g (trailStart g.edges n trail) (trailNodes g.edges n trail)
        (resource anchor) = .yes) ↔ ∃ p ∈ paths, p.path ⊆ trailChain g n trail) :=
    fun h => exists_congr fun p => and_congr_right fun _ =>
      forall₂_congr fun anchor _ => matchesAnchor_iff h anchor
  have htail : (trailNodes g.edges n trail).tail = trail.map fun i => (g.edges.get i).target := rfl
  simp only [matchesChain, Truth.and_eq_yes, Truth.not_eq_yes, unmatched_iff, Truth.all_eq_yes,
    matchesItem_iff, matchesParent_iff, matchesChild_iff, Truth.of_eq_yes, length_into, htail,
    harenas, Truth.any_eq_yes, List.mem_map, exists_exists_and_eq_and, forall_exists_index,
    and_imp, forall_apply_eq_imp_iff₂]
  constructor
  · rintro ⟨htop, hitems, hparent, hchild, hsingle, hplaced, hany⟩
    have h : PlainTrail g n trail := ⟨htop, hitems, hparent, hchild, hsingle, hplaced⟩
    exact ⟨h, (hanchors h).1 hany⟩
  · rintro ⟨h, hany⟩
    exact ⟨h.top, h.items, h.parent, h.child, h.single, h.placed, (hanchors h).2 hany⟩

/-! ## The walk of the receiver -/

section Walk

variable {n : Nat} {current : Key} {below result : List Key}

lemma plainTrail_nil : PlainTrail g current [] ↔ g.incoming .hasChild current = [] ∧
    (current.1 ∈ todoKinds ∧ kindOf g current = some (.str current.1.name)) ∧
    (g.incoming .containsWork current).length ≤ 1 ∧
    ∀ e ∈ g.incoming .containsWork current, Places g current e.source := by
  constructor
  · intro h
    exact ⟨h.top, h.items current (List.mem_singleton_self _), h.single, h.placed⟩
  · rintro ⟨htop, hitem, hsingle, hplaced⟩
    refine ⟨htop, ?_, by simp, by simp, hsingle, hplaced⟩
    intro item h
    rw [List.mem_singleton.1 h]
    exact hitem

lemma plainTrail_snoc {above : List (Fin g.edges.length)} {i : Fin g.edges.length}
    (hi : (g.edges.get i).target = current) :
    PlainTrail g current (above ++ [i]) ↔
      (current.1 ∈ todoKinds ∧ kindOf g current = some (.str current.1.name)) ∧
      (g.edges.get i).source.1 ∈ parents current.1 ∧
      (g.incoming .hasChild current).length = 1 ∧ g.incoming .containsWork current = [] ∧
      PlainTrail g (g.edges.get i).source above := by
  have hstart : trailStart g.edges current (above ++ [i]) =
      trailStart g.edges (g.edges.get i).source above := trailStart_snoc current above i
  have hnodes := trailNodes_snoc above hi
  constructor
  · rintro ⟨htop, hitems, hparent, hchild, hsingle, hplaced⟩
    rw [hstart] at htop hsingle hplaced
    rw [hnodes] at hitems
    rw [List.forall_mem_append] at hitems hparent hchild
    obtain ⟨hchild, hlast⟩ := hchild
    have hone := hlast i (List.mem_singleton_self _)
    rw [hi] at hone
    refine ⟨hitems.2 current (List.mem_singleton_self _), ?_, hone.1, hone.2, htop, hitems.1,
      hparent.1, hchild, hsingle, hplaced⟩
    rw [← hi]
    exact hparent.2 i (List.mem_singleton_self _)
  · rintro ⟨hitem, hsource, hone, hnone, h⟩
    refine ⟨?_, ?_, ?_, ?_, ?_, ?_⟩
    · rw [hstart]
      exact h.top
    · rw [hnodes, List.forall_mem_append, List.forall_mem_singleton]
      exact ⟨h.items, hitem⟩
    · rw [List.forall_mem_append, List.forall_mem_singleton, hi]
      exact ⟨h.parent, hsource⟩
    · rw [List.forall_mem_append, List.forall_mem_singleton, hi]
      exact ⟨h.child, hone, hnone⟩
    · rw [hstart]
      exact h.single
    · rw [hstart]
      exact h.placed

lemma ancestors_absent (h : g.node? current = none) :
    ancestors g.storage n below current ≠ .ok (some result) := by
  cases n with
  | zero => nofun
  | succ n =>
    rw [ancestors]
    split
    · rintro ⟨⟩
    · intro hok
      simp only [PathGraph.storage, except_ok, h, Option.map_none] at hok
      obtain ⟨found, ⟨_, -, _, -, rfl⟩, hok⟩ := hok
      cases hok

/-- The item is of its kind and has at most one container of each sort. -/
lemma plainItem_iff {stored : StoredNode} (h : g.node? current = some stored) :
    plainItem current ⟨stored.node, (g.incoming .hasChild current).take 2,
      (g.incoming .containsWork current).take 2⟩ = true ↔
    kindOf g current = some (.str current.1.name) ∧ (g.incoming .hasChild current).length ≤ 1 ∧
      (g.incoming .containsWork current).length ≤ 1 := by
  simp only [plainItem, kindOf, h, Option.bind_some, Bool.and_eq_true, decide_eq_true_eq,
    List.length_take, and_assoc]
  refine and_congr_right fun _ => and_congr ?_ ?_ <;> omega

lemma mem_pathIncoming :
    e ∈ g.incoming r key ↔ e ∈ g.edges ∧ e.relationship = r ∧ e.target = key := by
  simp [PathGraph.incoming]

variable (hids : ∀ key, (g.node? key).isSome → isWorkObjectId key.2 = true)

include hids

lemma getNode_storage (h : (g.node? key).isSome) :
    g.storage.getNode key = .ok ((g.node? key).map StoredNode.node) := by
  simp only [PathGraph.storage, except_ok, exists_const, validateWorkObjectId]
  exact ⟨by simp [hids key h], trivial⟩

lemma workContainment_storage {stored : StoredNode} (hcurrent : current.1 ∈ todoKinds)
    (h : g.node? current = some stored) :
    g.storage.workContainment current = .ok (some ⟨stored.node,
      (g.incoming .hasChild current).take 2, (g.incoming .containsWork current).take 2⟩) := by
  simp only [PathGraph.storage, except_ok, exists_const, validateWorkObjectId]
  exact ⟨not_not.2 (todoKinds_canonical hcurrent), by simp [hids current (by simp [h])],
    by rw [h, Option.map_some]⟩

lemma placed_iff (he : e ∈ g.incoming .containsWork current) :
    (∃ arena, g.storage.getNode (.arena, e.source.2) = .ok arena ∧
      plainMembership current e arena = true) ↔ Places g current e.source := by
  obtain ⟨hedge, hr, htarget⟩ := mem_pathIncoming.1 he
  simp only [plainMembership, Places, Bool.and_eq_true, decide_eq_true_eq, and_assoc]
  constructor
  · rintro ⟨arena, hget, hroot, hlabel, -, -, hkind⟩
    have hpair : (Label.arena, e.source.2) = e.source := by rw [← hlabel]
    rw [hpair, getNode_storage hids (g.endpoints e hedge).1] at hget
    cases hget
    cases hnode : g.node? e.source with
    | none =>
      rw [hnode] at hkind
      cases hkind
    | some stored =>
      rw [hnode] at hkind
      exact ⟨hlabel, by simpa [kindOf, hnode] using hkind, hroot⟩
  · rintro ⟨hlabel, hkind, hroot⟩
    have hpair : (Label.arena, e.source.2) = e.source := by rw [← hlabel]
    refine ⟨(g.node? e.source).map StoredNode.node, ?_, hroot, hlabel, htarget, hr, ?_⟩
    · rw [hpair, getNode_storage hids (g.endpoints e hedge).1]
    · obtain ⟨stored, hstored, hkind⟩ := Option.bind_eq_some_iff.1 hkind
      simp [hstored, hkind]

lemma ancestors_root (hcurrent : current.1 ∈ todoKinds) (hnew : current ∉ below)
    (htop : g.incoming .hasChild current = []) :
    ancestors g.storage (n + 1) below current = .ok (some result) ↔
      PlainTrail g current [] ∧ result = trailChain g current [] ++ below := by
  rw [plainTrail_nil]
  cases hnode : g.node? current with
  | none => simp [ancestors_absent hnode, kindOf, hnode]
  | some stored =>
    have hitem := workContainment_storage hids hcurrent hnode
    have hiff := plainItem_iff hnode
    cases hplain : plainItem current ⟨stored.node, (g.incoming .hasChild current).take 2,
      (g.incoming .containsWork current).take 2⟩ with
    | false =>
      rw [hplain, htop] at hiff
      rw [ancestors_unplain hitem hplain]
      apply iff_of_false nofun
      rintro ⟨⟨-, ⟨-, hkind⟩, hsingle, -⟩, -⟩
      exact absurd (hiff.2 ⟨hkind, by simp, hsingle⟩) nofun
    | true =>
      obtain ⟨hkind, -, hsingle⟩ := hiff.1 hplain
      rw [ancestors_step hnew hitem hplain]
      simp only [htop, List.take_nil, List.take_of_length_le (hsingle.trans (by decide : 1 ≤ 2)),
        hcurrent, hkind, hsingle, true_and, trailChain, trailNodes, trailStart]
      cases hmem : g.incoming .containsWork current with
      | nil =>
        rw [except_pure_ok]
        simp [eq_comm]
      | cons e rest =>
        rw [hmem] at hsingle
        have hrest : rest = [] := List.length_eq_zero_iff.1 (by simpa using hsingle)
        subst hrest
        have hplaced := placed_iff hids (hmem ▸ List.mem_singleton_self e :
          e ∈ g.incoming .containsWork current)
        have hpair : ∀ arena, plainMembership current e arena = true →
            (Label.arena, e.source.2) = e.source := by
          intro arena h
          simp only [plainMembership, Bool.and_eq_true, decide_eq_true_eq] at h
          rw [← h.1.1.1.2]
        simp only [except_ok, List.forall_mem_singleton, ← hplaced]
        constructor
        · rintro ⟨arena, hget, hresult⟩
          split at hresult
          · rename_i hmember
            cases hresult
            refine ⟨⟨arena, hget, hmember⟩, ?_⟩
            rw [hpair arena hmember]
            rfl
          · cases hresult
        · rintro ⟨⟨arena, hget, hmember⟩, rfl⟩
          refine ⟨arena, hget, ?_⟩
          rw [if_pos hmember, hpair arena hmember]
          rfl

lemma ancestors_parent (hcurrent : current.1 ∈ todoKinds) (hnew : current ∉ below)
    (htop : g.incoming .hasChild current ≠ []) :
    ancestors g.storage (n + 1) below current = .ok (some result) ↔
      kindOf g current = some (.str current.1.name) ∧ ∃ e, g.incoming .hasChild current = [e] ∧
        g.incoming .containsWork current = [] ∧ e.source.1 ∈ parents current.1 ∧
        ancestors g.storage n (current :: below) e.source = .ok (some result) := by
  cases hnode : g.node? current with
  | none => simp [ancestors_absent hnode, kindOf, hnode]
  | some stored =>
    have hitem := workContainment_storage hids hcurrent hnode
    have hiff := plainItem_iff hnode
    cases hplain : plainItem current ⟨stored.node, (g.incoming .hasChild current).take 2,
      (g.incoming .containsWork current).take 2⟩ with
    | false =>
      rw [hplain] at hiff
      rw [ancestors_unplain hitem hplain]
      apply iff_of_false nofun
      rintro ⟨hkind, e, hup, hnone, -⟩
      exact absurd (hiff.2 ⟨hkind, by simp [hup], by simp [hnone]⟩) nofun
    | true =>
      obtain ⟨hkind, hup, -⟩ := hiff.1 hplain
      rw [ancestors_step hnew hitem hplain]
      cases hparents : g.incoming .hasChild current with
      | nil => exact absurd hparents htop
      | cons e rest =>
        rw [hparents] at hup
        have hrest : rest = [] := List.length_eq_zero_iff.1 (by simpa using hup)
        subst hrest
        have he : e ∈ g.incoming .hasChild current := hparents ▸ List.mem_singleton_self e
        obtain ⟨-, hr, htarget⟩ := mem_pathIncoming.1 he
        have hparent : ∀ node, plainParent current ⟨node, [e],
            (g.incoming .containsWork current).take 2⟩ e = true ↔
            g.incoming .containsWork current = [] ∧ e.source.1 ∈ parents current.1 := by
          intro node
          simp [plainParent, htarget, hr]
        simp only [List.take_succ_cons, List.take_nil, hkind, true_and, List.cons.injEq, and_true,
          exists_eq_left']
        rw [← and_assoc, ← hparent stored.node]
        split
        · rename_i h
          exact ⟨fun hok => ⟨h, hok⟩, And.right⟩
        · rename_i h
          exact iff_of_false (by rintro ⟨⟩) fun hok => h hok.1

end Walk

/-- A chain does not come back to a level below that of its end. -/
lemma PlainTrail.level_le {n : Nat} {current : Key}
    (h : PlainTrail g current trail) (htrail : trail ∈ trails g.edges .hasChild n current) :
    ∀ i ∈ trail, level current.1 ≤ level (g.edges.get i).target.1 := by
  induction n generalizing current trail with
  | zero =>
    rw [List.mem_singleton.1 htrail]
    simp
  | succ n ih =>
    obtain rfl | ⟨i, hi, above, habove, -, rfl⟩ := mem_trails_succ.1 htrail
    · simp
    · have htarget := (mem_into.1 hi).2
      obtain ⟨-, hparent, -, -, hup⟩ := (plainTrail_snoc htarget).1 h
      have hlevel := (level_lt_of_parent hparent).1
      rw [List.forall_mem_append, List.forall_mem_singleton, htarget]
      exact ⟨fun j hj => hlevel.le.trans (ih hup habove j hj), le_refl _⟩

lemma nil_mem_trails (n : Nat) (current : Key) : [] ∈ trails g.edges .hasChild n current := by
  cases n <;> exact List.mem_cons_self

/-- The walk returns the chain that passes the filter. -/
theorem ancestors_trail (hids : ∀ key, (g.node? key).isSome → isWorkObjectId key.2 = true)
    {n : Nat} {current : Key} {below result : List Key} (hcurrent : current.1 ∈ todoKinds)
    (hbelow : ∀ k ∈ below, level k.1 < level current.1) :
    ancestors g.storage (n + 1) below current = .ok (some result) ↔
      ∃ trail ∈ trails g.edges .hasChild n current,
        PlainTrail g current trail ∧ result = trailChain g current trail ++ below := by
  have hnew : current ∉ below := fun h => lt_irrefl _ (hbelow _ h)
  induction n generalizing current below with
  | zero =>
    simp only [trails, List.mem_singleton, exists_eq_left]
    by_cases htop : g.incoming .hasChild current = []
    · exact ancestors_root hids hcurrent hnew htop
    · rw [ancestors_parent hids hcurrent hnew htop]
      apply iff_of_false
      · rintro ⟨-, e, -, -, -, hup⟩
        cases hup
      · rintro ⟨h, -⟩
        exact htop h.top
  | succ n ih =>
    by_cases htop : g.incoming .hasChild current = []
    · rw [ancestors_root hids hcurrent hnew htop]
      constructor
      · rintro ⟨h, hresult⟩
        exact ⟨[], nil_mem_trails _ _, h, hresult⟩
      · rintro ⟨trail, htrail, h, hresult⟩
        obtain rfl | ⟨i, hi, -⟩ := mem_trails_succ.1 htrail
        · exact ⟨h, hresult⟩
        · have hlength := length_into g .hasChild current
          rw [htop] at hlength
          rw [List.length_eq_zero_iff.1 hlength] at hi
          cases hi
    · rw [ancestors_parent hids hcurrent hnew htop]
      constructor
      · rintro ⟨hkind, e, hparents, hnone, hparent, hup⟩
        have hmap : (into g.edges .hasChild current).map g.edges.get =
          g.incoming .hasChild current :=
          map_into Relationship.hasChild current
        rw [hparents] at hmap
        obtain ⟨i, hinto, rfl⟩ := List.map_eq_singleton_iff.1 hmap
        have hi : i ∈ into g.edges .hasChild current := by simp [hinto]
        have htarget := (mem_into.1 hi).2
        obtain ⟨hlevel, htodo⟩ := level_lt_of_parent hparent
        have hbelow' : ∀ k ∈ current :: below, level k.1 < level (g.edges.get i).source.1 := by
          rw [List.forall_mem_cons]
          exact ⟨hlevel, fun k hk => (hbelow k hk).trans hlevel⟩
        rcases (ih htodo hbelow' fun h => lt_irrefl _ (hbelow' _ h)).1 hup with
          ⟨above, habove, h, rfl⟩
        have hfresh : i ∉ above := by
          intro hmem
          have hle := h.level_le habove i hmem
          rw [htarget] at hle
          exact absurd hle (not_le.2 hlevel)
        refine ⟨above ++ [i], mem_trails_succ.2 (.inr ⟨i, hi, above, habove, hfresh, rfl⟩),
          (plainTrail_snoc htarget).2 ⟨⟨hcurrent, hkind⟩, hparent, by simp [hparents], hnone, h⟩,
          ?_⟩
        simp [trailChain, trailStart_snoc, trailNodes_snoc above htarget]
      · rintro ⟨trail, htrail, h, rfl⟩
        obtain rfl | ⟨i, hi, above, habove, -, rfl⟩ := mem_trails_succ.1 htrail
        · exact absurd h.top htop
        · have htarget := (mem_into.1 hi).2
          obtain ⟨⟨-, hkind⟩, hparent, hone, hnone, hup⟩ := (plainTrail_snoc htarget).1 h
          obtain ⟨hlevel, htodo⟩ := level_lt_of_parent hparent
          have hbelow' : ∀ k ∈ current :: below, level k.1 < level (g.edges.get i).source.1 := by
            rw [List.forall_mem_cons]
            exact ⟨hlevel, fun k hk => (hbelow k hk).trans hlevel⟩
          obtain ⟨e, he⟩ := List.length_eq_one_iff.1 hone
          have hmem : g.edges.get i ∈ g.incoming .hasChild current :=
            mem_pathIncoming.2 ⟨List.get_mem _ _, mem_into.1 hi⟩
          rw [he, List.mem_singleton] at hmem
          refine ⟨hkind, e, he, hnone, hmem ▸ hparent, hmem ▸ (ih htodo hbelow' fun h =>
            lt_irrefl _ (hbelow' _ h)).2 ⟨above, habove, hup, ?_⟩⟩
          simp [trailChain, trailStart_snoc, trailNodes_snoc above htarget]

lemma mem_trailNodes {n : Nat} {current : Key}
    (h : trail ∈ trails g.edges .hasChild n current) :
    current ∈ trailNodes g.edges current trail := by
  cases n with
  | zero =>
    rw [List.mem_singleton.1 h]
    exact List.mem_singleton_self _
  | succ n =>
    obtain rfl | ⟨i, hi, above, -, -, rfl⟩ := mem_trails_succ.1 h
    · exact List.mem_singleton_self _
    · rw [trailNodes_snoc above (mem_into.1 hi).2]
      exact List.mem_append_right _ (List.mem_singleton_self _)

/-- The filter of the database holds of an item exactly when the receiver finds it within the
paths of the selector. -/
theorem pathPredicate_exact (g : PathGraph) (selector : DelegatedWorkSelector) (n : Key)
    (hids : ∀ key, (g.node? key).isSome → isWorkObjectId key.2 = true) :
    pathPredicate g selector.pathParameters n = .yes ↔
      withinPaths g.storage n selector.resourcePaths = .ok true := by
  by_cases hpaths : selector.resourcePaths = []
  · rw [DelegatedWorkSelector.pathParameters, if_pos hpaths, hpaths]
    simp [pathPredicate, withinPaths, pure, Except.pure]
  · rw [DelegatedWorkSelector.pathParameters, if_neg hpaths, withinPaths_iff hpaths, pathPredicate,
      Truth.or_eq_yes, Truth.of_eq_yes, Truth.exist_eq_yes, Option.getD_some, List.length_map,
      List.length_eq_zero_iff]
    simp only [hpaths, false_or, matchesChain_iff]
    constructor
    · rintro ⟨trail, htrail, h, hany⟩
      have hkind := (h.items n (mem_trailNodes htrail)).1
      refine ⟨trailChain g n trail, ?_, hany⟩
      rw [currentResourcePath, if_neg (not_not.2 hkind), ancestors_trail hids hkind (by simp)]
      exact ⟨trail, htrail, h, (List.append_nil _).symm⟩
    · rintro ⟨chain, hchain, hany⟩
      rw [currentResourcePath] at hchain
      split at hchain
      · cases hchain
      · rename_i hkind
        rcases (ancestors_trail hids (not_not.1 hkind) (by simp)).1 hchain with
          ⟨trail, htrail, h, rfl⟩
        rw [List.append_nil] at hany
        exact ⟨trail, htrail, h, hany⟩

def initiativePath : ResourcePath :=
  ⟨[(.initiative, "i")], by decide, by decide, List.pairwise_singleton _ _⟩

def initiativeSelector : DelegatedWorkSelector := ⟨[], [], [.task], false, [initiativePath]⟩

theorem pathPredicate_exact_task :
    pathPredicate (.ofStore taskStore) initiativeSelector.pathParameters (.task, "t") = .yes ↔
      withinPaths (memoryStorage taskStore) (.task, "t") initiativeSelector.resourcePaths =
        .ok true := by
  rw [← PathGraph.storage_ofStore]
  apply pathPredicate_exact
  intro key hkey
  rw [PathGraph.ofStore, Option.isSome_map, taskStore, chainStore, node?_recordStore] at hkey
  have hmem : key ∈ [(Label.arena, "a"), (.initiative, "i"), (.task, "t")] := by
    by_contra hnot
    rw [if_neg hnot] at hkey
    cases hkey
  clear hkey
  revert key
  decide

/-- An Initiative with a Task under a text that is no id. -/
def spacedGraph : PathGraph where
  node? key :=
    if key = (.initiative, "i") then some ⟨recordNode key, false⟩
    else if key = (.task, "a b") then some ⟨recordNode key, false⟩
    else none
  edges := [⟨(.initiative, "i"), .hasChild, (.task, "a b"), noProps⟩]
  endpoints := by
    intro e he
    rw [List.mem_singleton.1 he]
    exact ⟨rfl, rfl⟩
  plain := by
    intro key stored hstored _ _
    rw [Option.mem_def] at hstored
    split at hstored
    · cases hstored
      rfl
    · split at hstored
      · cases hstored
        rfl
      · cases hstored

/-- The database finds the Task within the path, the receiver raises on its id. -/
theorem pathPredicate_spaced :
    pathPredicate spacedGraph initiativeSelector.pathParameters (.task, "a b") = .yes ∧
      ∃ e, withinPaths spacedGraph.storage (.task, "a b") initiativeSelector.resourcePaths =
        .error e := by
  refine ⟨by decide +kernel, _, rfl⟩

end DevGraph.Proofs
