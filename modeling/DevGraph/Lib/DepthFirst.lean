import Mathlib.Logic.Relation
import Mathlib.Data.List.Dedup

/-!
# Depth-first search for a cycle

A search over a finite list of arcs that stops when it meets its goal. It meets the goal
exactly when there is a path to it, so an arc whose search fails closes no cycle.
-/

namespace DevGraph.Lib

variable {α : Type}

def Arc (arcs : List (α × α)) (a b : α) : Prop := (a, b) ∈ arcs

/-- Where a visited node leads is visited or pending. -/
def Frontier (arcs : List (α × α)) (visited pending : List α) : Prop :=
  ∀ a ∈ visited, ∀ b, Arc arcs a b → b ∈ visited ∨ b ∈ pending

namespace Frontier

variable {arcs : List (α × α)} {visited pending : List α} {node : α}

lemma start : Frontier arcs [] pending := by
  simp [Frontier]

lemma skip (h : Frontier arcs visited (node :: pending)) (hnode : node ∈ visited) :
    Frontier arcs visited pending := by
  intro a ha b hb
  obtain hvisited | hpending := h a ha b hb
  · exact .inl hvisited
  · obtain rfl | hpending := List.mem_cons.1 hpending
    · exact .inl hnode
    · exact .inr hpending

lemma visit (h : Frontier arcs visited (node :: pending)) {next : List α}
    (hnext : ∀ b, Arc arcs node b → b ∈ next) :
    Frontier arcs (node :: visited) (next ++ pending) := by
  intro a ha b hb
  obtain rfl | ha := List.mem_cons.1 ha
  · exact .inr (List.mem_append_left _ (hnext b hb))
  · obtain hvisited | hpending := h a ha b hb
    · exact .inl (List.mem_cons_of_mem _ hvisited)
    · obtain rfl | hpending := List.mem_cons.1 hpending
      · exact .inl List.mem_cons_self
      · exact .inr (List.mem_append_right _ hpending)

/-- A path that starts in a visited node ends in one, or passes a pending node. -/
lemma path {a x : α} (h : Frontier arcs visited pending) (ha : a ∈ visited)
    (hpath : Relation.ReflTransGen (Arc arcs) a x) :
    x ∈ visited ∨ ∃ start ∈ pending, Relation.ReflTransGen (Arc arcs) start x := by
  induction hpath using Relation.ReflTransGen.head_induction_on with
  | refl => exact .inl ha
  | head harc hrest ih =>
    obtain hb | hb := h _ ha _ harc
    · exact ih hb
    · exact .inr ⟨_, hb, hrest⟩

end Frontier

/-- A relation without a cycle gets none from an arc whose end does not lead to its start. -/
theorem acyclic_of_new {r r' : α → α → Prop} {start goal : α}
    (hacyclic : ∀ a, ¬ Relation.TransGen r a a)
    (hnew : ∀ a b, r' a b → r a b ∨ a = start ∧ b = goal ∧ ¬ Relation.ReflTransGen r goal start)
    (a : α) : ¬ Relation.TransGen r' a a := by
  -- A path of the new relation is an old one, or it passes the new arc once.
  have hsplit : ∀ a b, Relation.TransGen r' a b → Relation.TransGen r a b ∨
      Relation.ReflTransGen r a start ∧ Relation.ReflTransGen r goal b ∧
        ¬ Relation.ReflTransGen r goal start := by
    intro a b h
    induction h with
    | single h =>
      obtain h | ⟨rfl, rfl, hno⟩ := hnew _ _ h
      · exact .inl (.single h)
      · exact .inr ⟨.refl, .refl, hno⟩
    | tail _ h ih =>
      obtain hpath | ⟨hto, hfrom, hno⟩ := ih
      · obtain h | ⟨rfl, rfl, hno⟩ := hnew _ _ h
        · exact .inl (hpath.tail h)
        · exact .inr ⟨hpath.to_reflTransGen, .refl, hno⟩
      · obtain h | ⟨rfl, rfl, -⟩ := hnew _ _ h
        · exact .inr ⟨hto, hfrom.tail h, hno⟩
        · exact absurd hfrom hno
  intro hcycle
  obtain hpath | ⟨hto, hfrom, hno⟩ := hsplit a a hcycle
  · exact hacyclic a hpath
  · exact hno (hfrom.trans hto)

variable [DecidableEq α]

def arcTargets (arcs : List (α × α)) (node : α) : List α :=
  (arcs.filter fun arc => arc.1 = node).map Prod.snd

lemma mem_arcTargets {arcs : List (α × α)} {a b : α} : b ∈ arcTargets arcs a ↔ Arc arcs a b := by
  simp [arcTargets, Arc]

lemma length_arcs_le (arcs : List (α × α)) (visited : List α) {node : α} (hnew : node ∉ visited) :
    (arcs.filter fun arc => arc.1 ∉ node :: visited).length +
      (arcs.filter fun arc => arc.1 = node).length ≤
        (arcs.filter fun arc => arc.1 ∉ visited).length := by
  simp only [List.mem_cons, not_or, Bool.decide_and, decide_not]
  induction arcs with
  | nil => simp
  | cons arc arcs ih =>
    by_cases hnode : arc.1 = node
    · simp [hnode, hnew]
      omega
    · by_cases hvisited : arc.1 ∈ visited
      · simpa [hnode, hvisited] using ih
      · simp [hnode, hvisited]
        omega

/-- Whether the search from the pending nodes meets the goal. -/
def meets (arcs : List (α × α)) (goal : α) (visited pending : List α) : Bool :=
  match pending with
  | [] => false
  | node :: rest =>
    if node = goal then true
    else if _hnew : node ∈ visited then meets arcs goal visited rest
    else meets arcs goal (node :: visited) ((arcTargets arcs node).dedup ++ rest)
termination_by (arcs.filter fun arc => arc.1 ∉ visited).length + pending.length
decreasing_by
  · simp
  · have harcs := length_arcs_le arcs visited _hnew
    have hdedup := (List.dedup_sublist (arcTargets arcs node)).length_le
    simp only [arcTargets, List.length_append, List.length_map, List.length_cons] at hdedup ⊢
    omega

lemma meets_of_path {arcs : List (α × α)} {goal : α} {visited pending : List α}
    (h : Frontier arcs visited pending) (hgoal : goal ∉ visited)
    (hpath : ∃ start ∈ pending, Relation.ReflTransGen (Arc arcs) start goal) :
    meets arcs goal visited pending = true := by
  fun_induction meets arcs goal visited pending with
  | case1 visited => simp at hpath
  | case2 visited rest => rfl
  | case3 visited node rest hne hvisited ih =>
    have hskip := h.skip hvisited
    refine ih hskip hgoal ?_
    obtain ⟨start, hstart, hpath⟩ := hpath
    obtain rfl | hstart := List.mem_cons.1 hstart
    · exact (hskip.path hvisited hpath).resolve_left hgoal
    · exact ⟨start, hstart, hpath⟩
  | case4 visited node rest hne hnew ih =>
    have hvisit := h.visit fun b hb => List.mem_dedup.2 (mem_arcTargets.2 hb)
    have hgoal' : goal ∉ node :: visited := by simp [hgoal, Ne.symm hne]
    refine ih hvisit hgoal' ?_
    obtain ⟨start, hstart, hpath⟩ := hpath
    obtain rfl | hstart := List.mem_cons.1 hstart
    · exact (hvisit.path List.mem_cons_self hpath).resolve_left hgoal'
    · exact ⟨start, List.mem_append_right _ hstart, hpath⟩

theorem no_path_of_not_meets {arcs : List (α × α)} {start goal : α}
    (h : meets arcs goal [] [start] = false) :
    ¬ Relation.ReflTransGen (Arc arcs) start goal := by
  intro hpath
  have hmeets := meets_of_path .start List.not_mem_nil
    ⟨start, List.mem_singleton_self _, hpath⟩
  rw [h] at hmeets
  cases hmeets

/-- The nodes that a search from the pending ones visits, with a stack of pending nodes. -/
def closure (arcs : List (α × α)) (visited pending : List α) : List α :=
  match pending with
  | [] => visited
  | node :: rest =>
    if _hnew : node ∈ visited then closure arcs visited rest
    else closure arcs (node :: visited) ((arcTargets arcs node).reverse ++ rest)
termination_by (arcs.filter fun arc => arc.1 ∉ visited).length + pending.length
decreasing_by
  · simp
  · have h := length_arcs_le arcs visited _hnew
    simp only [arcTargets, List.length_append, List.length_reverse, List.length_map,
      List.length_cons]
    omega

theorem mem_closure {arcs : List (α × α)} {visited pending : List α}
    (h : Frontier arcs visited pending) (x : α) :
    x ∈ closure arcs visited pending ↔
      x ∈ visited ∨ ∃ start ∈ pending, Relation.ReflTransGen (Arc arcs) start x := by
  fun_induction closure arcs visited pending with
  | case1 visited => simp
  | case2 visited node rest hvisited ih =>
    have hskip := h.skip hvisited
    rw [ih hskip]
    constructor
    · rintro (hx | ⟨start, hstart, hpath⟩)
      · exact .inl hx
      · exact .inr ⟨start, List.mem_cons_of_mem _ hstart, hpath⟩
    · rintro (hx | ⟨start, hstart, hpath⟩)
      · exact .inl hx
      · obtain rfl | hstart := List.mem_cons.1 hstart
        · exact hskip.path hvisited hpath
        · exact .inr ⟨start, hstart, hpath⟩
  | case3 visited node rest hnew ih =>
    have hvisit := h.visit fun b hb => List.mem_reverse.2 (mem_arcTargets.2 hb)
    rw [ih hvisit]
    constructor
    · rintro (hx | ⟨start, hstart, hpath⟩)
      · obtain rfl | hx := List.mem_cons.1 hx
        · exact .inr ⟨x, List.mem_cons_self, .refl⟩
        · exact .inl hx
      · obtain hstart | hstart := List.mem_append.1 hstart
        · have harc := mem_arcTargets.1 (List.mem_reverse.1 hstart)
          exact .inr ⟨node, List.mem_cons_self, .head harc hpath⟩
        · exact .inr ⟨start, List.mem_cons_of_mem _ hstart, hpath⟩
    · rintro (hx | ⟨start, hstart, hpath⟩)
      · exact .inl (List.mem_cons_of_mem _ hx)
      · obtain rfl | hstart := List.mem_cons.1 hstart
        · exact hvisit.path List.mem_cons_self hpath
        · exact .inr ⟨start, List.mem_append_right _ hstart, hpath⟩

end DevGraph.Lib
