import DevGraph.Proofs.AugmentingFlow
import DevGraph.Lib.Except
import Mathlib.Algebra.Order.BigOperators.Group.List

/-!
# Cuts of the compiled network

The capacity of a cut of the network in terms of the nodes on its source side: the
benefits left out plus the costs taken in, plus `M` for every dependency it breaks.
-/

namespace DevGraph.Proofs
open Selection Lib

def weightOf (weights : List WeightedNode) (Q : JsString → Prop) [DecidablePred Q] : ℤ :=
  (weights.map fun n => if Q n.key then n.weight else 0).sum

def cutOf (edges : List Arc) (Q : JsString → Prop) [DecidablePred Q] : ℤ :=
  (edges.map fun a => if Q a.source ∧ ¬Q a.target then a.capacity else 0).sum

def prerequisiteArcs (M : ℤ) (edges : List Arc) (dependencies : List Dependency) : List Arc :=
  dependencies.foldl (fun es d => addArc es d.dependent d.prerequisite M .prerequisite) edges

structure Compiled (mul : ℚ → ℕ → Option ℚ) (nodes : List Node) (dependencies : List Dependency)
    (scale : ℤ) (network : Network) : Prop where
  scale_pos : 0 < scale
  scale_eq : network.scale = scale.toNat
  nodup : (network.weights.map WeightedNode.key).Nodup
  keys_perm : (network.weights.map WeightedNode.key).Perm (nodes.map Node.key)
  unreserved : ∀ n ∈ network.weights, n.key ≠ sourceKey ∧ n.key ≠ sinkKey
  quantized : ∀ n ∈ nodes, ∃ w, quantize mul scale.toNat n = .ok w ∧ ⟨n.key, w⟩ ∈ network.weights
  C_eq : network.C = (network.weights.map fun n => max n.weight 0).sum
  abs_lt : 4 * (network.weights.map fun n => |n.weight|).sum < maxSafeInteger
  M_eq : network.M = network.C + 1
  endpoints : ∀ d ∈ dependencies, d.dependent ∈ network.weights.map WeightedNode.key ∧
    d.prerequisite ∈ network.weights.map WeightedNode.key
  edges_eq : network.edges = prerequisiteArcs network.M (network.weights.foldl addWeight [])
    (sortDependencies dependencies)

lemma requireThat_ok {c : Bool} {e : SelectionError} {u : Unit} :
    requireThat c e = .ok u ↔ c = true := by
  unfold requireThat
  cases c <;> simp

lemma foldl_add_eq_sum (f : ℤ → ℤ) (l : List ℤ) (a : ℤ) :
    l.foldl (fun s v => s + f v) a = a + (l.map f).sum := by
  induction l generalizing a with
  | nil => simp
  | cons x l ih => simp [ih, add_assoc]

lemma keys_zipWith {keys : List JsString} {ws : List ℤ} (h : keys.length = ws.length) :
    (List.zipWith WeightedNode.mk keys ws).map WeightedNode.key = keys := by
  induction keys generalizing ws with
  | nil => rfl
  | cons k keys ih =>
    cases ws with
    | nil => simp at h
    | cons w ws => simp [ih (by simpa using h)]

lemma weights_zipWith {keys : List JsString} {ws : List ℤ} (h : keys.length = ws.length) :
    (List.zipWith WeightedNode.mk keys ws).map WeightedNode.weight = ws := by
  induction keys generalizing ws with
  | nil =>
    cases ws with
    | nil => rfl
    | cons w ws => simp at h
  | cons k keys ih =>
    cases ws with
    | nil => simp at h
    | cons w ws => simp [ih (by simpa using h)]

lemma quantized_mem {mul : ℚ → ℕ → Option ℚ} {scale : ℕ} {nodes : List Node} {ws : List ℤ}
    (h : List.Forall₂ (fun n w => quantize mul scale n = .ok w) nodes ws) :
    ∀ n ∈ nodes, ∃ w, quantize mul scale n = .ok w ∧
      ⟨n.key, w⟩ ∈ List.zipWith WeightedNode.mk (nodes.map Node.key) ws := by
  induction h with
  | nil => simp
  | cons hw _ ih =>
    intro m hm
    obtain rfl | hm := List.mem_cons.1 hm
    · exact ⟨_, hw, by simp⟩
    · obtain ⟨w, hq, hmem⟩ := ih m hm
      exact ⟨w, hq, by simp [hmem]⟩

theorem compileNetwork_spec {mul : ℚ → ℕ → Option ℚ} {nodes : List Node}
    {dependencies : List Dependency} {scale : ℤ} {network : Network}
    (h : compileNetwork mul nodes dependencies scale = .ok network) :
    Compiled mul nodes dependencies scale network := by
  simp only [compileNetwork, except_bind_ok, except_pure_ok, requireThat_ok] at h
  obtain ⟨_, _, _, hscale, _, hkeys, _, hdup, ws, hws, _, habs, es, hes, rfl⟩ := h
  have hq := mapM_ok hws
  have hlen : ((sortNodes nodes).map Node.key).length = ws.length := by
    simpa using hq.length_eq
  have hperm : (sortNodes nodes).Perm nodes := List.perm_insertionSort _ _
  have hk := keys_zipWith hlen
  obtain ⟨hends, hedges⟩ := foldlM_ok
    (g := fun es d => addArc es d.dependent d.prerequisite
      (List.foldl (fun s w => s + max w 0) 0 ws + 1) .prerequisite)
    (p := fun d => d.dependent ∈ (sortNodes nodes).map Node.key ∧
      d.prerequisite ∈ (sortNodes nodes).map Node.key) (by
        intro s d s' hs
        simp only [addDependency, except_bind_ok, except_pure_ok, requireThat_ok] at hs
        obtain ⟨_, hc, rfl⟩ := hs
        simp only [Bool.and_eq_true, List.contains_iff_mem] at hc
        exact ⟨hc, rfl⟩) hes
  have hsum : List.foldl (fun s w => s + max w 0) 0 ws = (ws.map fun w => max w 0).sum := by
    rw [foldl_add_eq_sum (fun w => max w 0), zero_add]
  have habs' : List.foldl (fun s v => s + |v|) 0 ws = (ws.map fun v => |v|).sum := by
    rw [foldl_add_eq_sum (fun v => |v|), zero_add]
  simp only [Bool.and_eq_true, decide_eq_true_eq, List.all_eq_true] at hscale hkeys habs hdup
  refine ⟨hscale.2.1, rfl, ?_, ?_, ?_, ?_, ?_, ?_, rfl, ?_, ?_⟩
  · rw [hk]
    have hcard : ((sortNodes nodes).map Node.key).dedup.length =
        ((sortNodes nodes).map Node.key).length := by
      rw [List.length_map, hperm.length_eq]
      simpa using hdup
    rw [← (List.dedup_sublist _).eq_of_length hcard]
    exact List.nodup_dedup _
  · rw [hk]
    exact hperm.map _
  · intro n hn
    have hmem : n.key ∈ (sortNodes nodes).map Node.key := by
      rw [← hk]
      exact List.mem_map_of_mem hn
    have := hkeys n.key hmem
    simpa using this
  · intro n hn
    exact quantized_mem hq n (hperm.mem_iff.2 hn)
  · change List.foldl _ 0 ws = _
    rw [hsum]
    conv_lhs => rw [← weights_zipWith hlen]
    rw [List.map_map]
    rfl
  · have hlt := habs.2
    rw [habs', ← weights_zipWith hlen, List.map_map] at hlt
    exact hlt
  · intro d hd
    rw [hk]
    exact hends d ((List.perm_insertionSort _ _).mem_iff.2 hd)
  · exact hedges

section Cut

variable (Q : JsString → Prop) [DecidablePred Q]

lemma cutOf_addArc (edges : List Arc) (a b : JsString) (c : ℤ) (type : ArcType) :
    cutOf (addArc edges a b c type) Q = cutOf edges Q + if Q a ∧ ¬Q b then c else 0 := by
  unfold addArc
  by_cases h : a = b
  · subst h
    simp
  · simp [h, cutOf]

lemma cutOf_addWeight (hs : Q sourceKey) (ht : ¬Q sinkKey) (edges : List Arc) (n : WeightedNode) :
    cutOf (addWeight edges n) Q =
      cutOf edges Q + (max n.weight 0 - if Q n.key then n.weight else 0) := by
  unfold addWeight
  obtain h | h | h := lt_trichotomy n.weight 0
  · rw [if_neg (not_lt.2 h.le), if_pos h, cutOf_addArc, max_eq_right h.le]
    by_cases hq : Q n.key <;> simp [hq, ht]
  · simp [h]
  · rw [if_pos h, if_neg (not_lt.2 h.le), cutOf_addArc, max_eq_left h.le]
    by_cases hq : Q n.key <;> simp [hq, hs]

lemma cutOf_weights (hs : Q sourceKey) (ht : ¬Q sinkKey) (weights : List WeightedNode)
    (edges : List Arc) :
    cutOf (weights.foldl addWeight edges) Q =
      cutOf edges Q + (weights.map fun n => max n.weight 0).sum - weightOf weights Q := by
  induction weights generalizing edges with
  | nil => simp [weightOf]
  | cons n weights ih =>
    simp only [List.foldl_cons, ih, cutOf_addWeight Q hs ht, weightOf, List.map_cons, List.sum_cons]
    ring

lemma cutOf_prerequisiteArcs (M : ℤ) (edges : List Arc) (dependencies : List Dependency) :
    cutOf (prerequisiteArcs M edges dependencies) Q =
      cutOf edges Q + M * dependencies.countP fun d => Q d.dependent ∧ ¬Q d.prerequisite := by
  unfold prerequisiteArcs
  induction dependencies generalizing edges with
  | nil => simp
  | cons d dependencies ih =>
    simp only [List.foldl_cons, ih, cutOf_addArc, List.countP_cons]
    by_cases h : Q d.dependent ∧ ¬Q d.prerequisite
    · simp only [h, not_false_eq_true, and_self, if_true, decide_true]
      push_cast
      ring
    · simp [h]

theorem Compiled.cutOf_edges {mul : ℚ → ℕ → Option ℚ} {nodes : List Node}
    {dependencies : List Dependency} {scale : ℤ} {network : Network}
    (h : Compiled mul nodes dependencies scale network) (hs : Q sourceKey) (ht : ¬Q sinkKey) :
    cutOf network.edges Q = network.C - weightOf network.weights Q +
      network.M * (sortDependencies dependencies).countP
        fun d => Q d.dependent ∧ ¬Q d.prerequisite := by
  rw [h.edges_eq, cutOf_prerequisiteArcs, cutOf_weights Q hs ht, ← h.C_eq]
  simp [cutOf]

end Cut

section Arcs

variable {mul : ℚ → ℕ → Option ℚ} {nodes : List Node} {dependencies : List Dependency}
  {scale : ℤ} {network : Network}

/-- The arcs of a compiled network: a benefit, a cost, or a dependency between two nodes. -/
inductive NetworkArc (network : Network) (dependencies : List Dependency) (a : Arc) : Prop
  | benefit (n : WeightedNode) (hn : n ∈ network.weights) (hpos : 0 < n.weight)
      (hs : a.source = sourceKey) (ht : a.target = n.key) (hc : a.capacity = n.weight)
      (hty : a.type = .benefit)
  | cost (n : WeightedNode) (hn : n ∈ network.weights) (hneg : n.weight < 0)
      (hs : a.source = n.key) (ht : a.target = sinkKey) (hc : a.capacity = -n.weight)
      (hty : a.type = .cost)
  | prerequisite (d : Dependency) (hd : d ∈ dependencies) (hne : d.dependent ≠ d.prerequisite)
      (hs : a.source = d.dependent) (ht : a.target = d.prerequisite) (hc : a.capacity = network.M)
      (hty : a.type = .prerequisite)

variable {edges : List Arc}

lemma mem_addArc {s t : JsString} {c : ℤ} {type : ArcType} {a : Arc}
    (h : a ∈ addArc edges s t c type) :
    a ∈ edges ∨ s ≠ t ∧ a.source = s ∧ a.target = t ∧ a.capacity = c ∧ a.type = type := by
  unfold addArc at h
  split at h
  · rename_i hne
    obtain h | h := List.mem_append.1 h
    · exact .inl h
    · rw [List.mem_singleton] at h
      subst h
      exact .inr ⟨hne, rfl, rfl, rfl, rfl⟩
  · exact .inl h

lemma mem_weightArcs {weights : List WeightedNode} (hsub : ∀ n ∈ weights, n ∈ network.weights)
    (hedges : ∀ a ∈ edges, NetworkArc network dependencies a) :
    ∀ a ∈ weights.foldl addWeight edges, NetworkArc network dependencies a := by
  induction weights generalizing edges with
  | nil => exact hedges
  | cons n weights ih =>
    refine ih (fun m hm => hsub m (List.mem_cons_of_mem _ hm)) ?_
    have hn := hsub n List.mem_cons_self
    intro a ha
    obtain h | h | h := lt_trichotomy n.weight 0
    · simp only [addWeight, if_neg (not_lt.2 h.le), if_pos h] at ha
      obtain ha | ⟨_, hs, ht, hc, hty⟩ := mem_addArc ha
      · exact hedges a ha
      · exact .cost n hn h hs ht hc hty
    · simp only [addWeight, h, lt_irrefl, if_false] at ha
      exact hedges a ha
    · simp only [addWeight, if_neg (not_lt.2 h.le), if_pos h] at ha
      obtain ha | ⟨_, hs, ht, hc, hty⟩ := mem_addArc ha
      · exact hedges a ha
      · exact .benefit n hn h hs ht hc hty

lemma mem_prerequisiteArcs {ds : List Dependency} (hsub : ∀ d ∈ ds, d ∈ dependencies)
    (hedges : ∀ a ∈ edges, NetworkArc network dependencies a) :
    ∀ a ∈ prerequisiteArcs network.M edges ds, NetworkArc network dependencies a := by
  unfold prerequisiteArcs
  induction ds generalizing edges with
  | nil => exact hedges
  | cons d ds ih =>
    refine ih (fun m hm => hsub m (List.mem_cons_of_mem _ hm)) ?_
    intro a ha
    obtain ha | ⟨hne, hs, ht, hc, hty⟩ := mem_addArc ha
    · exact hedges a ha
    · exact .prerequisite d (hsub d List.mem_cons_self) hne hs ht hc hty

theorem Compiled.networkArc (h : Compiled mul nodes dependencies scale network) :
    ∀ a ∈ network.edges, NetworkArc network dependencies a := by
  rw [h.edges_eq]
  refine mem_prerequisiteArcs ?_ (mem_weightArcs (fun _ hn => hn) (by simp))
  intro d hd
  exact (List.perm_insertionSort _ _).mem_iff.1 hd

lemma Compiled.C_nonneg (h : Compiled mul nodes dependencies scale network) : 0 ≤ network.C := by
  rw [h.C_eq]
  refine List.sum_nonneg ?_
  intro x hx
  obtain ⟨n, _, rfl⟩ := List.mem_map.1 hx
  exact le_max_right _ _

lemma Compiled.four_mul_C_lt (h : Compiled mul nodes dependencies scale network) :
    4 * network.C < maxSafeInteger := by
  have hle : network.C ≤ (network.weights.map fun n => |n.weight|).sum := by
    rw [h.C_eq]
    refine List.sum_le_sum ?_
    intro n _
    exact max_le (le_abs_self _) (abs_nonneg _)
  have := h.abs_lt
  omega

lemma Compiled.four_mul_weight_lt (h : Compiled mul nodes dependencies scale network)
    {n : WeightedNode} (hn : n ∈ network.weights) : 4 * |n.weight| < maxSafeInteger := by
  have hle : |n.weight| ≤ (network.weights.map fun n => |n.weight|).sum := by
    refine List.single_le_sum ?_ _ (List.mem_map_of_mem hn)
    intro x hx
    obtain ⟨m, _, rfl⟩ := List.mem_map.1 hx
    exact abs_nonneg _
  have := h.abs_lt
  omega

/-- All capacities are positive, and twice a capacity is still a safe integer. -/
lemma Compiled.capacity_bounds (h : Compiled mul nodes dependencies scale network) {a : Arc}
    (ha : a ∈ network.edges) : 0 < a.capacity ∧ 2 * a.capacity ≤ maxSafeInteger := by
  have hmax : maxSafeInteger = 9007199254740991 := rfl
  cases h.networkArc a ha with
  | benefit n hn hpos hs ht hc hty =>
    have := h.four_mul_weight_lt hn
    rw [abs_of_pos hpos] at this
    omega
  | cost n hn hneg hs ht hc hty =>
    have := h.four_mul_weight_lt hn
    rw [abs_of_neg hneg] at this
    omega
  | prerequisite d hd hne hs ht hc hty =>
    have h1 := h.four_mul_C_lt
    have h2 := h.C_nonneg
    have h3 := h.M_eq
    omega

lemma Compiled.weightOf_le_C (h : Compiled mul nodes dependencies scale network)
    (Q : JsString → Prop) [DecidablePred Q] : weightOf network.weights Q ≤ network.C := by
  rw [h.C_eq]
  refine List.sum_le_sum ?_
  intro n _
  split
  · exact le_max_left _ _
  · exact le_max_right _ _

end Arcs

end DevGraph.Proofs
