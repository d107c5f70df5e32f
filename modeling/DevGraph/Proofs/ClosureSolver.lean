import DevGraph.Proofs.SelectionNetwork

/-!
# The closure solver is exact

The solver returns the least prerequisite-closed set of maximum weight: a cut that breaks a
dependency costs more than all benefits together.
-/

namespace DevGraph.Selection

abbrev Network.keys (network : Network) : List JsString := network.weights.map WeightedNode.key

end DevGraph.Selection

namespace DevGraph.Proofs
open Selection Lib

variable {st : FlowState} {reachable : List ℕ}

section Build

variable {keys : List JsString}

def Joins (keys : List JsString) (a : Arc) : Prop :=
  vertexIndex keys a.source ≠ vertexIndex keys a.target ∧
    vertexIndex keys a.source < keys.length + 2 ∧ vertexIndex keys a.target < keys.length + 2

lemma buildGraph_append (l : List Arc) (a : Arc) :
    buildGraph keys (l ++ [a]) = insertArc keys (buildGraph keys l) a := by
  simp [buildGraph]

lemma row_replicate (n v : ℕ) : row (List.replicate n []) v = [] := by
  simp only [row, List.getD_eq_getElem?_getD, List.getElem?_replicate]
  split <;> rfl

/-- The graph that the arcs build, with what leaves every set of vertices in it. -/
theorem buildGraph_spec (l : List Arc) (h : ∀ a ∈ l, Joins keys a) :
    (buildGraph keys l).1.length = keys.length + 2 ∧ WellPaired (buildGraph keys l).1 ∧
      (∀ (S : ℕ → Prop) [DecidablePred S], leaving (buildGraph keys l).1 S =
        cutOf l fun k => S (vertexIndex keys k)) ∧
      (buildGraph keys l).2.map (fun e => (e.arc, e.source, e.target)) =
        l.map (fun a => (a, vertexIndex keys a.source, vertexIndex keys a.target)) ∧
      ∀ p e, edgeAt (buildGraph keys l).1 p = some e →
        e.residual = 0 ∨ ∃ a ∈ l, e.residual = a.capacity := by
  induction l using List.reverseRecOn with
  | nil =>
    have hedge : ∀ p, edgeAt (buildGraph keys []).1 p = none := by
      intro p
      simp [edgeAt, buildGraph, row_replicate]
    refine ⟨by simp [buildGraph], ?_, ?_, rfl, ?_⟩
    · intro p e he
      simp [hedge] at he
    · intro S _
      have hempty : places (buildGraph keys []).1 = ∅ := by
        ext p
        simp [mem_places, hedge]
      simp [leaving, hempty, cutOf]
    · intro p e he
      simp [hedge] at he
  | append_singleton l a ih =>
    obtain ⟨hlen, hpair, hcut, hman, hres⟩ :=
      ih fun b hb => h b (List.mem_append_left _ hb)
    obtain ⟨hne, hs, ht⟩ := h a (by simp)
    rw [← hlen] at hs ht
    rw [buildGraph_append]
    refine ⟨?_, ?_, ?_, ?_, ?_⟩
    · simp [insertArc, length_pushArc, hlen]
    · exact wellPaired_pushArc hpair hs ht hne
    · intro S _
      simp only [insertArc]
      rw [leaving_pushArc hs ht hne, hcut]
      simp [cutOf]
    · simp [insertArc, hman]
    · intro p e he
      simp only [insertArc] at he
      rw [edgeAt_pushArc hs ht hne] at he
      split at he
      · obtain rfl := Option.some.inj he
        exact .inr ⟨a, by simp, rfl⟩
      · split at he
        · obtain rfl := Option.some.inj he
          exact .inl rfl
        · obtain h0 | ⟨b, hb, hb'⟩ := hres p e he
          · exact .inl h0
          · exact .inr ⟨b, List.mem_append_left _ hb, hb'⟩

lemma sourceKey_ne_sinkKey : sourceKey ≠ sinkKey := by decide

lemma vertexIndex_source : vertexIndex keys sourceKey = keys.length := by
  simp [vertexIndex, sourceKey_ne_sinkKey]

lemma vertexIndex_sink : vertexIndex keys sinkKey = keys.length + 1 := by
  simp [vertexIndex]

lemma vertexIndex_node {k : JsString} (hs : k ≠ sourceKey) (ht : k ≠ sinkKey) :
    vertexIndex keys k = keys.idxOf k := by
  simp [vertexIndex, hs, ht]

end Build

section Solve

variable {mul : ℚ → ℕ → Option ℚ} {nodes : List Node} {dependencies : List Dependency}
  {scale : ℤ} {network : Network}

/-- A set of keys that contains every prerequisite of its members. -/
def PrerequisiteClosed (dependencies : List Dependency) (Q : JsString → Prop) : Prop :=
  ∀ d ∈ dependencies, Q d.dependent → Q d.prerequisite

variable (h : Compiled mul nodes dependencies scale network)

include h

lemma Compiled.key_unreserved {k : JsString}
    (hk : k ∈ network.keys) : k ≠ sourceKey ∧ k ≠ sinkKey := by
  obtain ⟨n, hn, rfl⟩ := List.mem_map.1 hk
  exact h.unreserved n hn

lemma Compiled.joins :
    ∀ a ∈ network.edges, Joins network.keys a := by
  intro a ha
  have hidx : ∀ k ∈ network.keys,
      vertexIndex network.keys k =
        network.keys.idxOf k ∧
      network.keys.idxOf k <
        network.keys.length := by
    intro k hk
    obtain ⟨hs, ht⟩ := h.key_unreserved hk
    exact ⟨vertexIndex_node hs ht, List.idxOf_lt_length_of_mem hk⟩
  unfold Joins
  cases h.networkArc a ha with
  | benefit n hn hpos hs ht hc hty =>
    obtain ⟨h1, h2⟩ := hidx n.key (List.mem_map_of_mem hn)
    rw [hs, ht, vertexIndex_source, h1]
    omega
  | cost n hn hneg hs ht hc hty =>
    obtain ⟨h1, h2⟩ := hidx n.key (List.mem_map_of_mem hn)
    rw [hs, ht, vertexIndex_sink, h1]
    omega
  | prerequisite d hd hne hs ht hc hty =>
    obtain ⟨hd1, hd2⟩ := h.endpoints d hd
    obtain ⟨h1, h2⟩ := hidx _ hd1
    obtain ⟨h3, h4⟩ := hidx _ hd2
    rw [hs, ht, h1, h3]
    refine ⟨?_, by omega, by omega⟩
    intro heq
    exact hne ((List.idxOf_inj hd1).1 heq)

def sideOf (network : Network) (Q : JsString → Prop) (v : ℕ) : Prop :=
  v = network.weights.length ∨ ∃ n, network.weights[v]? = some n ∧ Q n.key

lemma Compiled.sideOf_vertexIndex
    (Q : JsString → Prop) {n : WeightedNode} (hn : n ∈ network.weights) :
    sideOf network Q (vertexIndex network.keys n.key) ↔ Q n.key := by
  obtain ⟨hs, ht⟩ := h.unreserved n hn
  have hk : n.key ∈ network.keys := List.mem_map_of_mem hn
  have hlt := List.idxOf_lt_length_of_mem hk
  have hget : network.keys[
      network.keys.idxOf n.key]? = some n.key := by
    rw [List.getElem?_eq_getElem hlt, List.getElem_idxOf]
  rw [List.getElem?_map] at hget
  obtain ⟨m, hm, hkey⟩ := Option.map_eq_some_iff.1 hget
  rw [vertexIndex_node hs ht]
  simp only [List.length_map] at hlt
  constructor
  · rintro (heq | ⟨m', hm', hq⟩)
    · omega
    · rw [hm] at hm'
      obtain rfl := Option.some.inj hm'
      rwa [hkey] at hq
  · intro hq
    exact .inr ⟨m, hm, by rwa [hkey]⟩

omit h in
lemma weightOf_congr {weights : List WeightedNode} {Q Q' : JsString → Prop} [DecidablePred Q]
    [DecidablePred Q'] (h : ∀ n ∈ weights, (Q n.key ↔ Q' n.key)) :
    weightOf weights Q = weightOf weights Q' := by
  unfold weightOf
  congr 1
  refine List.map_congr_left ?_
  intro n hn
  simp only [h n hn]

omit h in
lemma countP_eq_zero_of_closed {Q : JsString → Prop} [DecidablePred Q]
    (h : PrerequisiteClosed dependencies Q) :
    (sortDependencies dependencies).countP (fun d => Q d.dependent ∧ ¬Q d.prerequisite) = 0 := by
  rw [List.countP_eq_zero]
  intro d hd
  have hmem := (List.perm_insertionSort _ _).mem_iff.1 hd
  simpa using h d hmem

omit h in
lemma closed_of_countP_eq_zero {Q : JsString → Prop} [DecidablePred Q]
    (h : (sortDependencies dependencies).countP (fun d => Q d.dependent ∧ ¬Q d.prerequisite) = 0) :
    PrerequisiteClosed dependencies Q := by
  intro d hd hq
  have hnone := List.countP_eq_zero.1 h d ((List.perm_insertionSort _ _).mem_iff.2 hd)
  simpa [hq] using hnone

def initialGraph (network : Network) : Graph :=
  (buildGraph (network.weights.map WeightedNode.key) network.edges).1

lemma Compiled.wellPaired :
    WellPaired (initialGraph network) :=
  (buildGraph_spec network.edges h.joins).2.1

lemma Compiled.length_graph :
    (initialGraph network).length = network.weights.length + 2 := by
  rw [initialGraph, (buildGraph_spec network.edges h.joins).1, List.length_map]

lemma Compiled.source_lt :
    network.weights.length < (initialGraph network).length := by
  rw [h.length_graph]
  omega

lemma Compiled.cutCapacity_eq (S : ℕ → Prop)
    [DecidablePred S] (hs : S network.weights.length) (ht : ¬S (network.weights.length + 1)) :
    (pairedEdges (initialGraph network) h.wellPaired).cutCapacity
        (residual (initialGraph network)) S =
      network.C - weightOf network.weights
          (fun k => S (vertexIndex network.keys k)) +
        network.M * (sortDependencies dependencies).countP fun d =>
          S (vertexIndex network.keys d.dependent) ∧
            ¬S (vertexIndex network.keys d.prerequisite) := by
  have hcut := (buildGraph_spec network.edges h.joins).2.2.1 S
  have hs' : S (vertexIndex network.keys sourceKey) := by
    rwa [vertexIndex_source, List.length_map]
  have ht' : ¬S (vertexIndex network.keys sinkKey) := by
    rwa [vertexIndex_sink, List.length_map]
  rw [h.cutOf_edges (fun k => S (vertexIndex network.keys k)) hs' ht']
    at hcut
  exact hcut

lemma Compiled.cutCapacity_sideOf
    (Q : JsString → Prop) [DecidablePred Q] [DecidablePred (sideOf network Q)]
    (hclosed : PrerequisiteClosed dependencies Q) :
    (pairedEdges (initialGraph network) h.wellPaired).cutCapacity
        (residual (initialGraph network)) (sideOf network Q) =
      network.C - weightOf network.weights Q := by
  have hsink : ¬sideOf network Q (network.weights.length + 1) := by
    rintro (heq | ⟨n, hn, _⟩)
    · omega
    · rw [List.getElem?_eq_none (by omega)] at hn
      simp at hn
  have hside : PrerequisiteClosed dependencies fun k =>
      sideOf network Q (vertexIndex network.keys k) := by
    intro d hd hdep
    obtain ⟨hd1, hd2⟩ := h.endpoints d hd
    obtain ⟨n1, hn1, hk1⟩ := List.mem_map.1 hd1
    obtain ⟨n2, hn2, hk2⟩ := List.mem_map.1 hd2
    rw [← hk1, h.sideOf_vertexIndex Q hn1, hk1] at hdep
    rw [← hk2, h.sideOf_vertexIndex Q hn2, hk2]
    exact hclosed d hd hdep
  rw [h.cutCapacity_eq _ (.inl rfl) hsink, countP_eq_zero_of_closed hside,
    weightOf_congr (fun n hn => h.sideOf_vertexIndex Q hn)]
  simp

open Classical in
lemma Compiled.flow_le_C
    (hst : FlowLaws h.wellPaired network.weights.length (network.weights.length + 1) st) :
    st.flow ≤ network.C := by
  have hcut := h.cutCapacity_sideOf (fun _ => False) (fun _ _ hq => hq)
  have hsink : ¬sideOf network (fun _ => False) (network.weights.length + 1) := by
    rintro (heq | ⟨_, _, hq⟩)
    · omega
    · exact hq
  have hle := hst.flow.value_le_cut (sideOf network fun _ => False) (.inl rfl) hsink
  rw [hcut] at hle
  simpa [weightOf] using hle

lemma Compiled.initial_laws :
    FlowLaws h.wellPaired network.weights.length (network.weights.length + 1)
      ⟨initialGraph network, 0⟩ := by
  refine ⟨SameShape.refl _, PairedEdges.IsFlow.zero ?_⟩
  intro p hp
  obtain ⟨e, he⟩ := mem_places.1 hp
  rw [residual_of_edgeAt he]
  obtain h0 | ⟨a, ha, hc⟩ := (buildGraph_spec network.edges h.joins).2.2.2.2 p e he
  · omega
  · have := (h.capacity_bounds ha).1
    omega

lemma Compiled.safe_rounds
    (hst : FlowLaws h.wellPaired network.weights.length (network.weights.length + 1) st)
    (hflow : 0 ≤ st.flow) :
    isSafeInteger st.flow ∧ ∀ p e, edgeAt st.graph p = some e → isSafeInteger e.residual := by
  have hmax : maxSafeInteger = 9007199254740991 := rfl
  constructor
  · have h1 := h.flow_le_C hst
    have h2 := h.four_mul_C_lt
    simp only [isSafeInteger, decide_eq_true_eq]
    omega
  · intro p e he
    have hinit : ∀ q ∈ places (initialGraph network),
        0 ≤ residual (initialGraph network) q ∧
          2 * residual (initialGraph network) q ≤ maxSafeInteger := by
      intro q hq
      obtain ⟨e', he'⟩ := mem_places.1 hq
      rw [residual_of_edgeAt he']
      obtain h0 | ⟨a, ha, hc⟩ := (buildGraph_spec network.edges h.joins).2.2.2.2 q e' he'
      · omega
      · have := h.capacity_bounds ha
        omega
    obtain ⟨e₀, he₀, _⟩ := hst.shape.symm.edge he
    have hp : p ∈ places (initialGraph network) := mem_places.2 ⟨e₀, he₀⟩
    have hrev := (pairedEdges _ h.wellPaired).rev_mem p hp
    have h1 := hst.flow.nonneg p hp
    have h2 := hst.flow.nonneg _ hrev
    have h3 := hst.flow.paired p hp
    have h4 := hinit p hp
    have h5 := hinit _ hrev
    rw [residual_of_edgeAt he] at h1 h3
    simp only [isSafeInteger, decide_eq_true_eq]
    change 0 ≤ residual st.graph (partner (initialGraph network) p) at h2
    change e.residual + residual st.graph (partner (initialGraph network) p) =
      residual (initialGraph network) p +
        residual (initialGraph network) (partner (initialGraph network) p) at h3
    change 0 ≤ residual (initialGraph network) (partner (initialGraph network) p) ∧
      2 * residual (initialGraph network) (partner (initialGraph network) p) ≤ maxSafeInteger at h5
    omega

/-- The nodes whose vertices the last search reached. -/
def selectedKeys (network : Network) (reachable : List ℕ) : List JsString :=
  (network.weights.zipIdx.filter fun n => reachable.contains n.2).map fun n => n.1.key

lemma Compiled.mem_selectedKeys {n : WeightedNode} (hn : n ∈ network.weights) :
    n.key ∈ selectedKeys network reachable ↔
      vertexIndex network.keys n.key ∈ reachable := by
  obtain ⟨hs, ht⟩ := h.unreserved n hn
  rw [vertexIndex_node hs ht]
  simp only [selectedKeys, List.mem_map, List.mem_filter, List.contains_iff_mem, Prod.exists,
    List.mem_zipIdx_iff_getElem?]
  constructor
  · rintro ⟨m, i, ⟨hget, hmem⟩, hkey⟩
    obtain ⟨hlt, hgetm⟩ := List.getElem?_eq_some_iff.1 hget
    have hi : network.keys.idxOf n.key = i := by
      have hlt' : i < network.keys.length := by simpa using hlt
      have := h.nodup.idxOf_getElem i hlt'
      rwa [List.getElem_map, hgetm, hkey] at this
    rwa [hi]
  · intro hmem
    obtain ⟨i, hlt, rfl⟩ := List.getElem_of_mem hn
    have hlt' : i < network.keys.length := by simpa using hlt
    have hi := h.nodup.idxOf_getElem i hlt'
    rw [List.getElem_map] at hi
    rw [hi] at hmem
    exact ⟨_, i, ⟨List.getElem?_eq_getElem hlt, hmem⟩, rfl⟩

omit h in
lemma selectedKeys_subset {k : JsString} (hk : k ∈ selectedKeys network reachable) :
    ∃ n ∈ network.weights, n.key = k := by
  simp only [selectedKeys, List.mem_map, List.mem_filter, Prod.exists,
    List.mem_zipIdx_iff_getElem?] at hk
  obtain ⟨m, i, ⟨hget, _⟩, rfl⟩ := hk
  exact ⟨m, List.mem_of_getElem? hget, rfl⟩

/-- What the last search says about the nodes it reached. -/
structure MinimumCut (network : Network) (dependencies : List Dependency) (reachable : List ℕ)
    (flow : ℤ) : Prop where
  closed : PrerequisiteClosed dependencies fun k => vertexIndex network.keys k ∈ reachable
  flow_eq : flow = network.C - weightOf network.weights fun k =>
    vertexIndex network.keys k ∈ reachable
  cut_eq : cutOf network.edges (fun k => vertexIndex network.keys k ∈ reachable) = flow
  least : ∀ (Q : JsString → Prop) [DecidablePred Q], PrerequisiteClosed dependencies Q →
    weightOf network.weights Q ≤ network.C - flow ∧
      (weightOf network.weights Q = network.C - flow → ∀ n ∈ network.weights,
        vertexIndex network.keys n.key ∈ reachable → Q n.key)

omit h in
/-- A broken dependency would cost more than the flow can be. -/
lemma unbroken {C flow weight : ℤ} {broken : ℕ} (hC : 0 ≤ C) (hflow : flow ≤ C)
    (hweight : weight ≤ C) (hvalue : flow = C - weight + (C + 1) * broken) : broken = 0 := by
  by_contra hne
  have hpos : (1 : ℤ) ≤ broken := by exact_mod_cast Nat.one_le_iff_ne_zero.2 hne
  have hM : C + 1 ≤ (C + 1) * broken := le_mul_of_one_le_right (by omega) hpos
  linarith

open Classical in
theorem Compiled.minimumCut
    (hst : FlowLaws h.wellPaired network.weights.length (network.weights.length + 1) st)
    (hstep : flowStep network.weights.length (network.weights.length + 1) st = .inl reachable) :
    MinimumCut network dependencies reachable st.flow := by
  have hlt : network.weights.length < (initialGraph network).length := by
    rw [h.length_graph]
    omega
  rcases flowStep_spec h.wellPaired hlt (by omega) hst with
    ⟨r, hr, hsource, hsink, hclosed, hreach⟩ | ⟨next, hn, _⟩
  · rw [hstep] at hr
    obtain rfl := Sum.inl.inj hr
    have hvalue := hst.flow.value_eq_cut (· ∈ reachable) hsource hsink hclosed
    rw [h.cutCapacity_eq (· ∈ reachable) hsource hsink] at hvalue
    have hcount := unbroken h.C_nonneg (h.flow_le_C hst) (h.weightOf_le_C _)
      (by rw [← h.M_eq]; exact hvalue)
    have hflow : st.flow = network.C - weightOf network.weights fun k =>
        vertexIndex network.keys k ∈ reachable := by
      rw [hvalue, hcount]
      simp
    refine ⟨closed_of_countP_eq_zero hcount, hflow, ?_, ?_⟩
    · have hs' : vertexIndex network.keys sourceKey ∈ reachable := by
        rwa [vertexIndex_source, List.length_map]
      have ht' : vertexIndex network.keys sinkKey ∉ reachable := by
        rwa [vertexIndex_sink, List.length_map]
      rw [h.cutOf_edges (fun k => vertexIndex network.keys k ∈ reachable) hs' ht', hcount, hflow]
      simp
    · intro Q _ hQ
      have hcut := h.cutCapacity_sideOf Q hQ
      have hsinkQ : ¬sideOf network Q (network.weights.length + 1) := by
        rintro (heq | ⟨n, hn, _⟩)
        · omega
        · rw [List.getElem?_eq_none (by omega)] at hn
          simp at hn
      have hbound := hst.flow.value_le_cut (sideOf network Q) (.inl rfl) hsinkQ
      rw [hcut] at hbound
      refine ⟨by omega, ?_⟩
      intro heq n hn hmem
      rw [← h.sideOf_vertexIndex Q hn]
      refine hst.flow.reached_subset (sideOf network Q) (.inl rfl) hsinkQ ?_ (hreach _ hmem)
      rw [hcut]
      omega
  · rw [hstep] at hn
    simp at hn

def cutEdges (manifest : List ManifestEntry) (reachable : List ℕ) (st : FlowState) : List CutEdge :=
  ((manifest.map fun e => (⟨e.arc, e.arc.capacity - residualAt st.graph e.source e.forward,
    reachable.contains e.source && !reachable.contains e.target⟩ : NetworkEdge)).filter
      NetworkEdge.cut).map fun e => ⟨e.arc.source, e.arc.target, e.arc.capacity, e.arc.type⟩

omit h in
lemma foldl_cutEdges (manifest : List ManifestEntry) (reachable : List ℕ) (st : FlowState) (c : ℤ) :
    (cutEdges manifest reachable st).foldl (fun sum e => sum + e.capacity) c =
      c + (manifest.map fun e => if e.source ∈ reachable ∧ ¬e.target ∈ reachable then
        e.arc.capacity else 0).sum := by
  induction manifest generalizing c with
  | nil => simp [cutEdges]
  | cons e manifest ih =>
    by_cases hc : e.source ∈ reachable ∧ ¬e.target ∈ reachable
    · have hcut : cutEdges (e :: manifest) reachable st =
          ⟨e.arc.source, e.arc.target, e.arc.capacity, e.arc.type⟩ ::
            cutEdges manifest reachable st := by
        simp [cutEdges, hc]
      rw [hcut, List.foldl_cons, ih]
      simp only [List.map_cons, List.sum_cons, if_pos hc, add_assoc]
    · have hcut : cutEdges (e :: manifest) reachable st = cutEdges manifest reachable st := by
        have hb : (reachable.contains e.source && !reachable.contains e.target) = false := by
          simpa using hc
        simp only [cutEdges, List.map_cons, List.filter_cons, hb, Bool.false_eq_true, if_false]
      rw [hcut, ih]
      simp [hc]

omit h in
lemma mem_cutEdges {manifest : List ManifestEntry}
    {c : CutEdge} (hc : c ∈ cutEdges manifest reachable st) :
    ∃ e ∈ manifest, e.source ∈ reachable ∧ e.target ∉ reachable ∧ c.type = e.arc.type := by
  simp only [cutEdges, List.mem_map, List.mem_filter] at hc
  obtain ⟨x, ⟨⟨e, he, rfl⟩, hcut⟩, rfl⟩ := hc
  simp only [Bool.and_eq_true, Bool.not_eq_true', List.contains_eq_mem, decide_eq_true_eq,
    decide_eq_false_iff_not] at hcut
  exact ⟨e, he, hcut.1, hcut.2, rfl⟩

lemma Compiled.certify_ok (hmin : MinimumCut network dependencies reachable st.flow) :
    ∃ sol, certify network (buildGraph network.keys network.edges).2
        reachable st = .ok sol ∧ sol.selected = selectedKeys network reachable ∧
      sol.quantizedUtility = nearestDouble ((network.C - st.flow : ℤ) / (network.scale : ℚ)) ∧
      sol.C - sol.cutCapacity = network.C - st.flow := by
  have hman := (buildGraph_spec network.edges h.joins).2.2.2.1
  have hsum : (cutEdges (buildGraph network.keys network.edges).2
      reachable st).foldl (fun sum e => sum + e.capacity) 0 = st.flow := by
    rw [foldl_cutEdges, zero_add, ← hmin.cut_eq, cutOf]
    have := congrArg (List.map fun x : Arc × ℕ × ℕ =>
      if x.2.1 ∈ reachable ∧ ¬x.2.2 ∈ reachable then x.1.capacity else 0) hman
    rw [List.map_map, List.map_map] at this
    exact congrArg List.sum this
  have hnone : (cutEdges (buildGraph network.keys network.edges).2
      reachable st).any (fun e => e.type == .prerequisite) = false := by
    rw [List.any_eq_false]
    intro c hc htype
    obtain ⟨e, he, hs, ht, hty⟩ := mem_cutEdges hc
    have hmem : (e.arc, e.source, e.target) ∈ network.edges.map (fun a =>
        (a, vertexIndex network.keys a.source,
          vertexIndex network.keys a.target)) := by
      rw [← hman]
      exact List.mem_map_of_mem he
    obtain ⟨a, ha, heq⟩ := List.mem_map.1 hmem
    simp only [Prod.mk.injEq] at heq
    obtain ⟨rfl, hsrc, htgt⟩ := heq
    have hp : e.arc.type = .prerequisite := by
      rw [← hty]
      exact eq_of_beq htype
    cases h.networkArc e.arc ha with
    | benefit n hn hpos hs' ht' hc' hty' => simp [hty'] at hp
    | cost n hn hneg hs' ht' hc' hty' => simp [hty'] at hp
    | prerequisite d hd hne hs' ht' hc' hty' =>
      rw [← hsrc, hs'] at hs
      rw [← htgt, ht'] at ht
      exact ht (hmin.closed d hd hs)
  have hcheck : requireThat ((cutEdges (buildGraph network.keys
      network.edges).2 reachable st).foldl (fun sum e => sum + e.capacity) 0 == st.flow &&
        !(cutEdges (buildGraph network.keys network.edges).2
          reachable st).any fun e => e.type == .prerequisite) .solverCertificate = .ok () := by
    rw [requireThat_ok, hnone, hsum]
    simp
  unfold certify
  exact ⟨_, except_bind_ok.2 ⟨(), hcheck, rfl⟩, rfl, rfl, congrArg _ hsum⟩

/-- The solver returns on a compiled network, with the source side of a minimum cut. -/
lemma Compiled.solved (hnetwork : compileNetwork mul nodes dependencies scale = .ok network) :
    ∃ sol reachable flow, solveClosure mul nodes dependencies scale = .ok sol ∧
      MinimumCut network dependencies reachable flow ∧
      sol.selected = selectedKeys network reachable ∧
      sol.quantizedUtility = nearestDouble ((network.C - flow : ℤ) / (network.scale : ℚ)) ∧
      sol.C - sol.cutCapacity = network.C - flow ∧
      weightOf network.weights (· ∈ sol.selected) = network.C - flow := by
  have hC := h.C_nonneg
  have hfuel : network.C < (0 : ℤ) + ((network.C.toNat + 1 : ℕ) : ℤ) := by
    push_cast
    omega
  obtain ⟨reachable, st, hloop, hlaws, hstep⟩ := flowLoop_returns h.wellPaired
    h.source_lt (Nat.succ_ne_self _).symm (fun _ => h.flow_le_C) h.initial_laws hfuel
  have hmin := h.minimumCut hlaws hstep
  obtain ⟨sol, hsol, hsel, hutil, hcut⟩ := h.certify_ok hmin
  refine ⟨sol, reachable, st.flow, ?_, hmin, hsel, hutil, hcut, ?_⟩
  · unfold solveClosure
    rw [except_bind_ok]
    refine ⟨network, hnetwork, ?_⟩
    have hbuilt : (buildGraph network.keys network.edges).1 =
        initialGraph network := rfl
    simp only [List.length_map, hbuilt, hloop]
    exact hsol
  · have hcongr : weightOf network.weights (· ∈ sol.selected) = weightOf network.weights fun k =>
        vertexIndex network.keys k ∈ reachable := by
      apply weightOf_congr
      intro n hn
      rw [hsel]
      exact h.mem_selectedKeys hn
    rw [hcongr, hmin.flow_eq]
    omega

end Solve

lemma roundEven_near (x : ℚ) : |(roundEven x : ℚ) - x| ≤ 1 / 2 := by
  have hle := Int.floor_le x
  have hlt := Int.lt_floor_add_one x
  rw [roundEven, abs_le]
  split
  case isTrue h => constructor <;> rcases h with h | h <;> linarith
  case isFalse h =>
    have hge := not_lt.1 (not_or.1 h).1
    push_cast
    constructor <;> linarith

/-- A double is off by half a unit of its last place at most. -/
lemma nearestDouble_near {q : ℚ} (hq : 0 ≤ q) : |nearestDouble q - q| * 2 ^ 53 ≤ q := by
  obtain rfl | hpos := hq.eq_or_lt
  · simp [nearestDouble, roundEven]
  have hunit : (0 : ℚ) < 2 ^ (Int.log 2 |q| - 52) := zpow_pos two_pos _
  have hlog : (2 : ℚ) ^ (Int.log 2 |q| - 52) * 2 ^ 52 ≤ q := by
    rw [← zpow_natCast, ← zpow_add₀ two_ne_zero, abs_of_pos hpos]
    simpa using Int.zpow_log_le_self (R := ℚ) one_lt_two hpos
  have hround := roundEven_near (q / 2 ^ (Int.log 2 |q| - 52))
  rw [nearestDouble]
  set unit : ℚ := 2 ^ (Int.log 2 |q| - 52)
  have herror : |roundEven (q / unit) * unit - q| ≤ 1 / 2 * unit := by
    rw [← div_mul_cancel₀ q hunit.ne', mul_div_cancel_right₀ _ hunit.ne', ← sub_mul, abs_mul,
      abs_of_pos hunit]
    gcongr
  linarith

/-- The solver accepts every compiled network and returns the least set of maximum weight
among the sets that contain the prerequisites of their members. `C` less the cut is that
weight, and the quantized utility is its quotient by the scale, rounded to a double. The
arithmetic before that never leaves the safe integers. -/
theorem solveClosure_optimal (mul : ℚ → ℕ → Option ℚ) (nodes : List Node)
    (dependencies : List Dependency) (scale : ℤ) (network : Network)
    (h : compileNetwork mul nodes dependencies scale = .ok network) :
    ((network.weights.map WeightedNode.key).Perm (nodes.map Node.key) ∧
      ∀ n ∈ nodes, ∃ w, quantize mul scale.toNat n = .ok w ∧ ⟨n.key, w⟩ ∈ network.weights) ∧
    ∃ sol, solveClosure mul nodes dependencies scale = .ok sol ∧
      (∀ k ∈ sol.selected, k ∈ nodes.map Node.key) ∧
      PrerequisiteClosed dependencies (· ∈ sol.selected) ∧
      (∀ T : Finset JsString, (∀ k ∈ T, k ∈ nodes.map Node.key) →
        PrerequisiteClosed dependencies (· ∈ T) →
        weightOf network.weights (· ∈ T) ≤ weightOf network.weights (· ∈ sol.selected) ∧
        (weightOf network.weights (· ∈ T) = weightOf network.weights (· ∈ sol.selected) →
          ∀ k ∈ sol.selected, k ∈ T)) ∧
      sol.C - sol.cutCapacity = weightOf network.weights (· ∈ sol.selected) ∧
      sol.quantizedUtility =
        nearestDouble (weightOf network.weights (· ∈ sol.selected) / scale) ∧
      |sol.quantizedUtility * scale - weightOf network.weights (· ∈ sol.selected)| * 2 ^ 53 ≤
        weightOf network.weights (· ∈ sol.selected) ∧
      isSafeInteger network.C ∧ isSafeInteger network.M ∧
      ∀ st, Relation.ReflTransGen
          (Round network.weights.length (network.weights.length + 1))
          ⟨initialGraph network, 0⟩ st →
        isSafeInteger st.flow ∧ ∀ p e, edgeAt st.graph p = some e → isSafeInteger e.residual := by
  have hc := compileNetwork_spec h
  obtain ⟨sol, reachable, flow, hsol, hmin, hsel, hutil, hcut, hweight⟩ := hc.solved h
  have hpos : (0 : ℚ) < scale := by exact_mod_cast hc.scale_pos
  have hutility : sol.quantizedUtility =
      nearestDouble (weightOf network.weights (· ∈ sol.selected) / scale) := by
    have hcast : (network.scale : ℚ) = scale := by
      rw [hc.scale_eq]
      exact_mod_cast Int.toNat_of_nonneg hc.scale_pos.le
    rw [hutil, hweight, hcast]
  have hmem : ∀ n ∈ network.weights, (n.key ∈ sol.selected ↔
      vertexIndex network.keys n.key ∈ reachable) := by
    intro n hn
    rw [hsel]
    exact hc.mem_selectedKeys hn
  refine ⟨⟨hc.keys_perm, hc.quantized⟩, sol, hsol, ?_, ?_, ?_, hcut.trans hweight.symm, hutility,
    ?_, ?_, ?_, ?_⟩
  · intro k hk
    rw [hsel] at hk
    obtain ⟨n, hn, rfl⟩ := selectedKeys_subset hk
    exact hc.keys_perm.mem_iff.1 (List.mem_map_of_mem hn)
  · intro d hd hdep
    obtain ⟨hd1, hd2⟩ := hc.endpoints d hd
    obtain ⟨n1, hn1, hk1⟩ := List.mem_map.1 hd1
    obtain ⟨n2, hn2, hk2⟩ := List.mem_map.1 hd2
    rw [← hk1, hmem n1 hn1, hk1] at hdep
    rw [← hk2, hmem n2 hn2, hk2]
    exact hmin.closed d hd hdep
  · intro T _ hT
    obtain ⟨hle, hleast⟩ := hmin.least (· ∈ T) hT
    refine ⟨by omega, ?_⟩
    intro heq k hk
    rw [hsel] at hk
    obtain ⟨n, hn, rfl⟩ := selectedKeys_subset hk
    refine hleast (by omega) n hn ?_
    rwa [← hmem n hn, hsel]
  · -- No set is worth less than the empty one, so that the quotient is not negative.
    have hempty : PrerequisiteClosed dependencies fun _ => False := fun _ _ => id
    have hzero : weightOf network.weights (fun _ => False) = 0 := by simp [weightOf]
    have hnonneg := (hmin.least _ hempty).1
    rw [hzero, ← hweight] at hnonneg
    set weight := weightOf network.weights (· ∈ sol.selected)
    have hnear := nearestDouble_near (q := weight / scale)
      (div_nonneg (by exact_mod_cast hnonneg) hpos.le)
    rw [← hutility, le_div_iff₀ hpos, mul_right_comm] at hnear
    nth_rewrite 2 [← abs_of_pos hpos] at hnear
    rwa [← abs_mul, sub_mul, div_mul_cancel₀ _ hpos.ne'] at hnear
  · have := hc.four_mul_C_lt
    have hC := hc.C_nonneg
    have hmax : maxSafeInteger = 9007199254740991 := rfl
    simp only [isSafeInteger, decide_eq_true_eq]
    omega
  · have := hc.four_mul_C_lt
    have hC := hc.C_nonneg
    have hM := hc.M_eq
    have hmax : maxSafeInteger = 9007199254740991 := rfl
    simp only [isSafeInteger, decide_eq_true_eq]
    omega
  · intro st' hr
    obtain ⟨hlaws', hflow⟩ := rounds_laws hc.wellPaired hc.source_lt
      (Nat.succ_ne_self _).symm hc.initial_laws hr
    exact hc.safe_rounds hlaws' hflow

/-- Two nodes of weight two and minus one, the first of which needs the second. -/
def pairNodes : List Node := [⟨[97], some 2⟩, ⟨[98], some (-1)⟩]

def exactMul (u : ℚ) (s : ℕ) : Option ℚ := some (u * s)

lemma compileNetwork_pair :
    ∃ network, compileNetwork exactMul pairNodes [⟨[97], [98]⟩] 1 = .ok network ∧ network.C = 2 :=
  exists_ok_of (by decide +kernel)

theorem solveClosure_optimal_pair :
    ∃ network, compileNetwork (fun u s => some (u * s)) pairNodes [⟨[97], [98]⟩] 1 = .ok network ∧
      ∃ sol, solveClosure (fun u s => some (u * s)) pairNodes [⟨[97], [98]⟩] 1 = .ok sol ∧
        PrerequisiteClosed [⟨[97], [98]⟩] (· ∈ sol.selected) := by
  obtain ⟨network, hn, -⟩ := compileNetwork_pair
  obtain ⟨_, sol, hsol, _, hclosed, _⟩ := solveClosure_optimal _ _ _ _ _ hn
  exact ⟨network, hn, sol, hsol, hclosed⟩

/-- The product of two doubles that does not overflow. -/
def doubleMul (u : ℚ) (s : ℕ) : Option ℚ := some (nearestDouble (u * s))

/-- One node of utility `1.001` has weight `1001` at scale `1000`, and the quantized utility times
the scale is not that number: neither the product of the two numbers nor the double next to it. -/
theorem solveClosure_rounded_quotient : ∃ sol,
    solveClosure doubleMul [⟨[97], some (nearestDouble (1001 / 1000))⟩] [] 1000 = .ok sol ∧
      sol.weights = [⟨[97], 1001⟩] ∧ sol.selected = [[97]] ∧
      sol.quantizedUtility * 1000 ≠ 1001 ∧
      nearestDouble (sol.quantizedUtility * 1000) = 1001 - 1 / 2 ^ 43 :=
  exists_ok_of (by decide +kernel)

/-! ## Rounding -/

/-- The total utility of the nodes that `Q` selects. -/
def utilityOf (nodes : List Node) (Q : JsString → Prop) [DecidablePred Q] : ℚ :=
  (nodes.map fun n => if Q n.key then n.utility.getD 0 else 0).sum

lemma mathRound_near (x : ℚ) : |(mathRound x : ℚ) - x| ≤ 1 / 2 := by
  have hle := Int.floor_le (x + 1 / 2)
  have hlt := Int.lt_floor_add_one (x + 1 / 2)
  rw [mathRound, abs_le]
  constructor <;> linarith

lemma quantize_ok {mul : ℚ → ℕ → Option ℚ} {scale : ℕ} {n : Node} {w : ℤ}
    (h : quantize mul scale n = .ok w) :
    ∃ u p, n.utility = some u ∧ mul u scale = some p ∧ w = mathRound p := by
  unfold quantize at h
  split at h
  · cases h
  · split at h
    · cases h
    · split at h
      · exact ⟨_, _, ‹_›, ‹_›, (Except.ok.inj h).symm⟩
      · cases h

def nodeWeights (mul : ℚ → ℕ → Option ℚ) (scale : ℕ) (nodes : List Node) : List WeightedNode :=
  nodes.map fun n => ⟨n.key, (quantize mul scale n).toOption.getD 0⟩

lemma Compiled.weights_perm {mul : ℚ → ℕ → Option ℚ} {nodes : List Node}
    {dependencies : List Dependency} {scale : ℤ} {network : Network}
    (h : Compiled mul nodes dependencies scale network) :
    (nodeWeights mul scale.toNat nodes).Perm network.weights := by
  have hkeys : ((nodeWeights mul scale.toNat nodes).map WeightedNode.key).Nodup := by
    rw [nodeWeights, List.map_map]
    exact h.keys_perm.nodup_iff.1 h.nodup
  refine (List.subperm_of_subset (List.Nodup.of_map _ hkeys) ?_).perm_of_length_le ?_
  · intro w hw
    obtain ⟨n, hn, rfl⟩ := List.mem_map.1 hw
    obtain ⟨w, hquantize, hmem⟩ := h.quantized n hn
    rwa [hquantize]
  · have hlength := h.keys_perm.length_eq
    simp only [nodeWeights, List.length_map] at hlength ⊢
    exact hlength.le

/-- A node that is in one of two sets only shifts the difference by one unit at most: by half of
one in the product and by half of one in rounding it. -/
lemma utilityOf_sub_le {mul : ℚ → ℕ → Option ℚ} {scale : ℕ} {nodes : List Node}
    (hmul : ∀ n ∈ nodes, ∀ u p, n.utility = some u → mul u scale = some p →
      |p - u * scale| ≤ 1 / 2)
    (hok : ∀ n ∈ nodes, ∃ w, quantize mul scale n = .ok w) (P Q : JsString → Prop)
    [DecidablePred P] [DecidablePred Q] :
    (utilityOf nodes P - utilityOf nodes Q) * scale ≤
      (weightOf (nodeWeights mul scale nodes) P - weightOf (nodeWeights mul scale nodes) Q : ℤ) +
      nodes.length := by
  induction nodes with
  | nil => simp [utilityOf, weightOf, nodeWeights]
  | cons n nodes ih =>
    have hrest := ih (fun n hn => hmul n (List.mem_cons_of_mem _ hn))
      fun n hn => hok n (List.mem_cons_of_mem _ hn)
    obtain ⟨w, hw⟩ := hok n List.mem_cons_self
    obtain ⟨u, p, hu, hp, rfl⟩ := quantize_ok hw
    obtain ⟨hproduct, hproduct'⟩ := abs_le.1 (hmul n List.mem_cons_self u p hu hp)
    obtain ⟨hround, hround'⟩ := abs_le.1 (mathRound_near p)
    simp only [utilityOf, weightOf, nodeWeights, List.map_cons, List.sum_cons, List.length_cons, hw,
      hu, Except.toOption, Option.getD_some] at hrest ⊢
    push_cast at hrest ⊢
    by_cases hP : P n.key <;> by_cases hQ : Q n.key <;> simp only [hP, hQ, if_true, if_false] <;>
      linarith

/-- Where the products are within one half of the exact ones, as those of doubles below `2 ^ 53`
are, the selected set is worth no less than any closed set less the error of rounding `n`
utilities. -/
theorem solveClosure_rounding (mul : ℚ → ℕ → Option ℚ) (nodes : List Node)
    (dependencies : List Dependency) (scale : ℤ) (network : Network)
    (hmul : ∀ n ∈ nodes, ∀ u p, n.utility = some u → mul u scale.toNat = some p →
      |p - u * scale| ≤ 1 / 2)
    (h : compileNetwork mul nodes dependencies scale = .ok network) :
    ∃ sol, solveClosure mul nodes dependencies scale = .ok sol ∧
      ∀ T : Finset JsString, PrerequisiteClosed dependencies (· ∈ T) →
        utilityOf nodes (· ∈ T) - nodes.length / scale ≤ utilityOf nodes (· ∈ sol.selected) := by
  have hc := compileNetwork_spec h
  obtain ⟨sol, reachable, flow, hsol, hmin, -, -, -, hweight⟩ := hc.solved h
  refine ⟨sol, hsol, ?_⟩
  intro T hT
  have hscale : (0 : ℚ) < scale := by exact_mod_cast hc.scale_pos
  have hcast : ((scale.toNat : ℕ) : ℚ) = scale := by
    exact_mod_cast Int.toNat_of_nonneg hc.scale_pos.le
  have hoptimal := (hmin.least (· ∈ T) hT).1
  rw [← hcast] at hmul
  have herror := utilityOf_sub_le hmul (fun n hn => (hc.quantized n hn).imp fun _ => And.left)
    (· ∈ T) (· ∈ sol.selected)
  have hperm : ∀ (Q : JsString → Prop) [DecidablePred Q],
      weightOf (nodeWeights mul scale.toNat nodes) Q = weightOf network.weights Q :=
    fun Q _ => (hc.weights_perm.map _).sum_eq
  have hle : (weightOf network.weights (· ∈ T) - (network.C - flow) : ℚ) ≤ 0 := by
    rw [sub_nonpos]
    exact_mod_cast hoptimal
  rw [hperm, hperm, hweight, hcast] at herror
  push_cast at herror
  have hbound : (utilityOf nodes (· ∈ T) - utilityOf nodes (· ∈ sol.selected)) ≤
      nodes.length / scale := by
    rw [le_div_iff₀ hscale]
    linarith
  linarith

theorem solveClosure_rounding_pair :
    ∃ sol, solveClosure exactMul pairNodes [⟨[97], [98]⟩] 1 = .ok sol ∧
      utilityOf pairNodes (· ∈ ([[97], [98]] : List JsString).toFinset) - 2 ≤
        utilityOf pairNodes (· ∈ sol.selected) := by
  obtain ⟨network, hnet, -⟩ := compileNetwork_pair
  obtain ⟨sol, hsol, hbound⟩ := solveClosure_rounding exactMul pairNodes _ 1 network
    (by rintro n - u p - hp; cases hp; norm_num) hnet
  have hclosed : PrerequisiteClosed [⟨[97], [98]⟩]
      (· ∈ ([[97], [98]] : List JsString).toFinset) := by
    intro d hd _
    rw [List.mem_singleton.1 hd]
    decide
  refine ⟨sol, hsol, ?_⟩
  have hpair := hbound _ hclosed
  norm_num [pairNodes] at hpair ⊢
  exact hpair

/-! ## Higher utilities -/

def Raised (n n' : Node) : Prop := n.key = n'.key ∧ n.utility.getD 0 ≤ n'.utility.getD 0

/-- The nodes of `P` outside of `Q` are worth no less where the weights are higher. -/
lemma weightOf_exchange {weights weights' : List WeightedNode}
    (h : List.Forall₂ (fun n n' => n.key = n'.key ∧ n.weight ≤ n'.weight) weights weights')
    (P Q : JsString → Prop) [DecidablePred P] [DecidablePred Q] :
    weightOf weights P + weightOf weights' Q ≤
      weightOf weights (fun k => P k ∧ Q k) + weightOf weights' fun k => P k ∨ Q k := by
  induction h with
  | nil => simp [weightOf]
  | @cons n n' _ _ hraised _ ih =>
    have hle := hraised.2
    simp only [weightOf, List.map_cons, List.sum_cons, ← hraised.1] at ih ⊢
    by_cases hP : P n.key <;> by_cases hQ : Q n.key <;> simp only [hP, hQ, if_true, if_false,
      and_true, and_false, or_true, or_false] <;> linarith

lemma nodeWeights_raised {mul : ℚ → ℕ → Option ℚ} {scale : ℕ} {nodes nodes' : List Node}
    (hmul : ∀ u u' p p', u ≤ u' → mul u scale = some p → mul u' scale = some p' → p ≤ p')
    (hok : ∀ n ∈ nodes, ∃ w, quantize mul scale n = .ok w)
    (hok' : ∀ n ∈ nodes', ∃ w, quantize mul scale n = .ok w)
    (hraised : List.Forall₂ Raised nodes nodes') :
    List.Forall₂ (fun n n' : WeightedNode => n.key = n'.key ∧ n.weight ≤ n'.weight)
      (nodeWeights mul scale nodes) (nodeWeights mul scale nodes') := by
  induction hraised with
  | nil => exact .nil
  | @cons n n' nodes nodes' hn _ ih =>
    obtain ⟨⟨w, hw⟩, hrest⟩ := List.forall_mem_cons.1 hok
    obtain ⟨⟨w', hw'⟩, hrest'⟩ := List.forall_mem_cons.1 hok'
    refine .cons ⟨hn.1, ?_⟩ (ih hrest hrest')
    obtain ⟨u, p, hu, hp, rfl⟩ := quantize_ok hw
    obtain ⟨u', p', hu', hp', rfl⟩ := quantize_ok hw'
    have hle : u ≤ u' := by simpa [hu, hu'] using hn.2
    simp only [hw, hw', Except.toOption, Option.getD_some]
    exact Int.floor_le_floor (by gcongr; exact hmul u u' p p' hle hp hp')

/-- Where the product grows with the utility, as the product of doubles does, work that is selected
stays so when utilities rise. -/
theorem solveClosure_monotone (mul : ℚ → ℕ → Option ℚ) (nodes nodes' : List Node)
    (dependencies : List Dependency) (scale : ℤ) (sol sol' : Solution)
    (hmul : ∀ u u' p p', u ≤ u' → mul u scale.toNat = some p → mul u' scale.toNat = some p' →
      p ≤ p')
    (hraised : List.Forall₂ Raised nodes nodes')
    (h : solveClosure mul nodes dependencies scale = .ok sol)
    (h' : solveClosure mul nodes' dependencies scale = .ok sol') :
    sol.selected ⊆ sol'.selected := by
  obtain ⟨network, hnetwork, -⟩ := except_bind_ok.1 h
  obtain ⟨network', hnetwork', -⟩ := except_bind_ok.1 h'
  have hc := compileNetwork_spec hnetwork
  have hc' := compileNetwork_spec hnetwork'
  obtain ⟨_, reachable, flow, hsol, hmin, hsel, -⟩ := hc.solved hnetwork
  obtain ⟨_, reachable', flow', hsol', hmin', hsel', -⟩ := hc'.solved hnetwork'
  cases h.symm.trans hsol
  cases h'.symm.trans hsol'
  -- The intersection of the two sets is closed, and so is their union.
  obtain ⟨hmeet, hleast⟩ := hmin.least (fun k => vertexIndex network.keys k ∈ reachable ∧
    vertexIndex network'.keys k ∈ reachable') fun d hd hk =>
      ⟨hmin.closed d hd hk.1, hmin'.closed d hd hk.2⟩
  obtain ⟨hjoin, -⟩ := hmin'.least (fun k => vertexIndex network.keys k ∈ reachable ∨
    vertexIndex network'.keys k ∈ reachable') fun d hd =>
      Or.imp (hmin.closed d hd) (hmin'.closed d hd)
  have hweights := nodeWeights_raised hmul (fun n hn => (hc.quantized n hn).imp fun _ => And.left)
    (fun n hn => (hc'.quantized n hn).imp fun _ => And.left) hraised
  have hexchange := weightOf_exchange hweights (fun k => vertexIndex network.keys k ∈ reachable)
    fun k => vertexIndex network'.keys k ∈ reachable'
  have hflow := hmin.flow_eq
  have hflow' := hmin'.flow_eq
  simp only [weightOf, ((hc.weights_perm).map _).sum_eq,
    ((hc'.weights_perm).map _).sum_eq] at hexchange hmeet hjoin hflow hflow' hleast
  intro k hk
  rw [hsel] at hk
  obtain ⟨n, hn, rfl⟩ := selectedKeys_subset hk
  have hboth := hleast (by omega) n hn ((hc.mem_selectedKeys hn).1 hk)
  have hkeys : nodes.map Node.key = nodes'.map Node.key := by
    rw [← List.forall₂_eq_eq_eq, List.forall₂_map_left_iff, List.forall₂_map_right_iff]
    exact hraised.imp fun _ _ => And.left
  have hmem := hc.keys_perm.mem_iff.1 (List.mem_map_of_mem hn)
  rw [hkeys, ← hc'.keys_perm.mem_iff] at hmem
  obtain ⟨n', hn', hsame⟩ := List.mem_map.1 hmem
  rw [hsel', ← hsame, hc'.mem_selectedKeys hn', hsame]
  exact hboth.2

theorem solveClosure_monotone_pair : ∃ sol sol',
    solveClosure exactMul [⟨[97], some 1⟩, ⟨[98], some (-1)⟩] [⟨[97], [98]⟩] 1 = .ok sol ∧
      solveClosure exactMul pairNodes [⟨[97], [98]⟩] 1 = .ok sol' ∧
        sol.selected ⊆ sol'.selected := by
  obtain ⟨sol, hsol, -⟩ : ∃ sol, solveClosure exactMul [⟨[97], some 1⟩, ⟨[98], some (-1)⟩]
      [⟨[97], [98]⟩] 1 = .ok sol ∧ sol.selected = [] := exists_ok_of (by decide +kernel)
  obtain ⟨sol', hsol', -⟩ : ∃ sol, solveClosure exactMul pairNodes [⟨[97], [98]⟩] 1 = .ok sol ∧
      sol.selected = [[97], [98]] := exists_ok_of (by decide +kernel)
  refine ⟨sol, sol', hsol, hsol', solveClosure_monotone exactMul _ _ _ _ _ _ ?_ ?_ hsol hsol'⟩
  · rintro u u' p p' hle hp hp'
    cases hp
    cases hp'
    simpa using hle
  · exact .cons ⟨rfl, by norm_num⟩ (.cons ⟨rfl, le_rfl⟩ .nil)

end DevGraph.Proofs
