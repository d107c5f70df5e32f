import DevGraph.Proofs.ShortestSearch

/-!
# Rounds of the augmenting loop

One round of the solver either stops with the vertices reached through residual edges or augments
along a walk of distinct residual edges. The residuals stay those of a flow on the first graph.
-/

namespace DevGraph.Proofs
open Selection Lib

/-- `g'` has the edges of `g` at the same places, with other residuals. -/
def SameShape (g g' : Graph) : Prop :=
  g.length = g'.length ∧ ∀ p, (edgeAt g p).map (fun e => (e.target, e.reverse)) =
    (edgeAt g' p).map fun e => (e.target, e.reverse)

lemma SameShape.refl (g : Graph) : SameShape g g := ⟨rfl, fun _ => rfl⟩

lemma SameShape.trans {g g' g'' : Graph} (h : SameShape g g') (h' : SameShape g' g'') :
    SameShape g g'' :=
  ⟨h.1.trans h'.1, fun p => (h.2 p).trans (h'.2 p)⟩

variable {e : ResidualEdge}

lemma SameShape.edge {g g' : Graph} (h : SameShape g g') {p : ℕ × ℕ}
    (he : edgeAt g p = some e) :
    ∃ e', edgeAt g' p = some e' ∧ e'.target = e.target ∧ e'.reverse = e.reverse := by
  have hp := h.2 p
  rw [he] at hp
  obtain ⟨e', he', heq⟩ := Option.map_eq_some_iff.1 hp.symm
  simp only [Prod.mk.injEq] at heq
  exact ⟨e', he', heq.1, heq.2⟩

lemma SameShape.symm {g g' : Graph} (h : SameShape g g') : SameShape g' g :=
  ⟨h.1.symm, fun p => (h.2 p).symm⟩

lemma SameShape.wellPaired {g g' : Graph} (h : SameShape g g') (hg : WellPaired g) :
    WellPaired g' := by
  intro p e he
  obtain ⟨e0, he0, ht0, hr0⟩ := h.symm.edge he
  obtain ⟨hne, e1, he1, ht1, hr1⟩ := hg p e0 he0
  obtain ⟨e2, he2, ht2, hr2⟩ := h.edge he1
  rw [ht0] at hne
  rw [ht0, hr0] at he2
  exact ⟨hne, e2, he2, ht2.trans ht1, hr2.trans hr1⟩

lemma edgeAt_addResidual (g : Graph) (v i : ℕ) (a : ℤ) (p : ℕ × ℕ) :
    edgeAt (addResidual g v i a) p =
      (edgeAt g p).map fun e =>
        if p = (v, i) then { e with residual := e.residual + a } else e := by
  obtain ⟨u, j⟩ := p
  simp only [edgeAt, addResidual, row_modify, Prod.mk.injEq]
  by_cases hu : u < g.length
  · by_cases hv : v = u
    · subst hv
      simp only [hu, and_true, if_true, List.getElem?_modify]
      by_cases hi : i = j
      · subst hi
        simp
      · simp [hi, Ne.symm hi]
    · simp [hv, Ne.symm hv]
  · simp [hu, row_of_length_le (Nat.le_of_not_lt hu)]

lemma sameShape_addResidual (g : Graph) (v i : ℕ) (a : ℤ) : SameShape g (addResidual g v i a) := by
  refine ⟨by simp [addResidual], fun p => ?_⟩
  rw [edgeAt_addResidual, Option.map_map]
  congr 1
  funext e
  by_cases hp : p = (v, i) <;> simp [hp]

lemma residual_addResidual {g : Graph} {v i : ℕ} (he : edgeAt g (v, i) = some e)
    (a : ℤ) (p : ℕ × ℕ) :
    residual (addResidual g v i a) p = residual g p + if p = (v, i) then a else 0 := by
  rw [residual_eq, residual_eq, edgeAt_addResidual]
  by_cases hp : p = (v, i)
  · subst hp
    simp [he]
  · simp only [hp, if_false, add_zero]
    cases edgeAt g p <;> rfl

section Augment

variable {g₀ g : Graph} (h₀ : WellPaired g₀)

def placeOf (e : ℕ × ℕ × ℕ) : ℕ × ℕ := (e.2.1, e.2.2)

lemma augmentEdge_push (hs : SameShape g₀ g) (a : ℤ) {e : ℕ × ℕ × ℕ} {edge : ResidualEdge}
    (he : edgeAt g (placeOf e) = some edge) (ht : edge.target = e.1) :
    SameShape g₀ (augmentEdge a g e) ∧
      residual (augmentEdge a g e) = (pairedEdges g₀ h₀).push a (residual g) (placeOf e) := by
  obtain ⟨v, u, i⟩ := e
  simp only [placeOf] at he ht ⊢
  have hrow : (row g u)[i]? = some edge := he
  simp only [augmentEdge, hrow]
  have hshape := sameShape_addResidual g u i (-a)
  refine ⟨(hs.trans hshape).trans (sameShape_addResidual _ v edge.reverse a), ?_⟩
  obtain ⟨_, e', he', _⟩ := hs.wellPaired h₀ (u, i) edge he
  rw [ht] at he'
  obtain ⟨e'', he'', _⟩ := hshape.edge he'
  obtain ⟨e₀, he₀, ht₀, hr₀⟩ := hs.symm.edge he
  have hpartner : partner g₀ (u, i) = (v, edge.reverse) := by
    rw [partner_of_edgeAt he₀, ht₀, hr₀, ht]
  funext p
  rw [residual_addResidual he'', residual_addResidual he]
  simp only [PairedEdges.push, pairedEdges, hpartner]
  split <;> ring

lemma augment_pushAll (hs : SameShape g₀ g) (a : ℤ) (path : List (ℕ × ℕ × ℕ))
    (hp : ∀ e ∈ path, ∃ edge, edgeAt g (placeOf e) = some edge ∧ edge.target = e.1) :
    SameShape g₀ (path.foldl (augmentEdge a) g) ∧
      residual (path.foldl (augmentEdge a) g) =
        (pairedEdges g₀ h₀).pushAll a (residual g) (path.map placeOf) := by
  induction path generalizing g with
  | nil => exact ⟨hs, rfl⟩
  | cons e path ih =>
    obtain ⟨edge, he, ht⟩ := hp e List.mem_cons_self
    obtain ⟨hs', hr'⟩ := augmentEdge_push h₀ hs a he ht
    have hstep : ∀ x ∈ path, ∃ edge, edgeAt (augmentEdge a g e) (placeOf x) = some edge ∧
        edge.target = x.1 := by
      intro x hx
      obtain ⟨edge', he', ht'⟩ := hp x (List.mem_cons_of_mem _ hx)
      obtain ⟨e2, he2, ht2, _⟩ := (hs.symm.trans hs').edge he'
      exact ⟨e2, he2, ht2.trans ht'⟩
    obtain ⟨h1, h2⟩ := ih hs' hstep
    refine ⟨h1, ?_⟩
    simp only [List.foldl_cons, List.map_cons]
    rw [h2, hr']
    rfl

end Augment

section Backtrack

variable {g : Graph} {source : ℕ} {s : Search}

/-- The backtracked path is a walk of residual edges from the source, and its heads come
earlier and earlier in the queue. -/
lemma backtrack_walk (hg : WellPaired g) (h : SearchInvariant g source s) {fuel v : ℕ}
    (hv : v ∈ s.queue) (hfuel : s.queue.idxOf v < fuel) :
    (pairedEdges g hg).IsWalk source ((backtrack s fuel v).map placeOf) v ∧
      (∀ e ∈ backtrack s fuel v, (∃ edge, edgeAt g (placeOf e) = some edge ∧ edge.target = e.1 ∧
        0 < edge.residual) ∧ s.queue.idxOf e.1 ≤ s.queue.idxOf v) ∧
      ((backtrack s fuel v).map placeOf).Nodup := by
  induction fuel generalizing v with
  | zero => omega
  | succ fuel ih =>
    unfold backtrack
    cases hp : s.parentOf v with
    | unseen => exact absurd hp ((h.mem_queue v).1 hv)
    | root =>
      obtain rfl := (h.root_iff v).1 hp
      simp [PairedEdges.IsWalk]
    | via u i =>
      obtain ⟨⟨edge, he, ht, hpos⟩, hu, hidx⟩ := h.via v u i hp
      obtain ⟨hw, hall, hnd⟩ := ih hu (by omega)
      simp only [List.map_cons, PairedEdges.IsWalk]
      refine ⟨⟨mem_places.2 ⟨edge, he⟩, ?_, hw⟩, ?_, ?_⟩
      · exact (target_of_edgeAt he).trans ht
      · intro e hmem
        obtain rfl | hmem := List.mem_cons.1 hmem
        · exact ⟨⟨edge, he, ht, hpos⟩, le_rfl⟩
        · obtain ⟨hx, hle⟩ := hall e hmem
          exact ⟨hx, by omega⟩
      · refine List.nodup_cons.2 ⟨?_, hnd⟩
        intro hmem
        obtain ⟨e, he2, heq⟩ := List.mem_map.1 hmem
        obtain ⟨⟨edge', he', ht', _⟩, hle⟩ := hall e he2
        -- The same place has the same head, but `e` ends before `v` in the queue.
        rw [heq] at he'
        have hsame : edge' = edge := Option.some.inj (he'.symm.trans he)
        have hhead : e.1 = v := by rw [← ht', hsame, ht]
        rw [hhead] at hle
        omega

lemma backtrack_ne_nil {fuel v : ℕ} (hv : s.parentOf v ≠ .unseen) (hs : s.parentOf v ≠ .root) :
    backtrack s (fuel + 1) v ≠ [] := by
  unfold backtrack
  cases hp : s.parentOf v with
  | unseen => exact absurd hp hv
  | root => exact absurd hp hs
  | via u i => simp

end Backtrack

section Bottleneck

variable {g : Graph}

def minStep (g : Graph) (amount : Option ℤ) (e : ℕ × ℕ × ℕ) : Option ℤ :=
  some (match amount with
    | none => residual g (placeOf e)
    | some a => min a (residual g (placeOf e)))

lemma foldl_minStep (path : List (ℕ × ℕ × ℕ)) (a : ℤ) :
    ∃ b, path.foldl (minStep g) (some a) = some b ∧ b ≤ a ∧
      (∀ e ∈ path, b ≤ residual g (placeOf e)) ∧
      (0 < a → (∀ e ∈ path, 0 < residual g (placeOf e)) → 0 < b) := by
  induction path generalizing a with
  | nil => exact ⟨a, rfl, le_rfl, by simp, fun ha _ => ha⟩
  | cons e path ih =>
    obtain ⟨b, hb, hle, hall, hpos⟩ := ih (min a (residual g (placeOf e)))
    refine ⟨b, hb, hle.trans (min_le_left _ _), ?_, ?_⟩
    · intro x hx
      obtain rfl | hx := List.mem_cons.1 hx
      · exact hle.trans (min_le_right _ _)
      · exact hall x hx
    · intro ha hres
      exact hpos (lt_min ha (hres e List.mem_cons_self))
        (fun x hx => hres x (List.mem_cons_of_mem _ hx))

lemma bottleneck_spec {path : List (ℕ × ℕ × ℕ)} (hne : path ≠ [])
    (hpos : ∀ e ∈ path, 0 < residual g (placeOf e)) :
    ∃ a, bottleneck g path = some a ∧ 0 < a ∧ ∀ e ∈ path, a ≤ residual g (placeOf e) := by
  cases path with
  | nil => exact absurd rfl hne
  | cons e path =>
    obtain ⟨b, hb, hle, hall, hb0⟩ := foldl_minStep (g := g) path (residual g (placeOf e))
    refine ⟨b, hb,
      hb0 (hpos e List.mem_cons_self) (fun x hx => hpos x (List.mem_cons_of_mem _ hx)), ?_⟩
    intro x hx
    obtain rfl | hx := List.mem_cons.1 hx
    · exact hle
    · exact hall x hx

end Bottleneck

section Shape

variable {g g' : Graph}

lemma SameShape.target_eq (h : SameShape g g') : target g = target g' := by
  funext p
  have hp := h.2 p
  unfold target
  cases he : edgeAt g p <;> cases he' : edgeAt g' p <;> simp_all

lemma SameShape.partner_eq (h : SameShape g g') : partner g = partner g' := by
  funext p
  have hp := h.2 p
  unfold partner
  cases he : edgeAt g p <;> cases he' : edgeAt g' p <;> simp_all

lemma SameShape.places_eq (h : SameShape g g') : places g = places g' := by
  ext p
  rw [mem_places, mem_places]
  constructor
  · rintro ⟨e, he⟩
    obtain ⟨e', he', _⟩ := h.edge he
    exact ⟨e', he'⟩
  · rintro ⟨e, he⟩
    obtain ⟨e', he', _⟩ := h.symm.edge he
    exact ⟨e', he'⟩

lemma SameShape.pairedEdges_eq (h : SameShape g g') (hg : WellPaired g) (hg' : WellPaired g') :
    pairedEdges g hg = pairedEdges g' hg' := by
  unfold pairedEdges
  congr 1
  · exact h.places_eq
  · exact h.target_eq
  · exact h.partner_eq

end Shape

section Rounds

variable {g₀ : Graph} {source sink : ℕ} (h₀ : WellPaired g₀)

/-- The state of a round is a flow on the graph that was built. -/
structure FlowLaws (source sink : ℕ) (st : FlowState) : Prop where
  shape : SameShape g₀ st.graph
  flow : (pairedEdges g₀ h₀).IsFlow (residual g₀) (residual st.graph) source sink st.flow

lemma residual_of_edge {g : Graph} (hs : SameShape g₀ g) {p : ℕ × ℕ}
    (he : edgeAt g p = some e) (hpos : 0 < e.residual) :
    (pairedEdges g₀ h₀).Residual (residual g) p.1 e.target := by
  obtain ⟨e₀, he₀, ht₀, _⟩ := hs.symm.edge he
  refine ⟨p, mem_places.2 ⟨e₀, he₀⟩, rfl, ?_, ?_⟩
  · exact (target_of_edgeAt he₀).trans ht₀
  · rwa [residual_of_edgeAt he]

lemma queue_reached {g : Graph} (hs : SameShape g₀ g) {s : Search}
    (h : SearchInvariant g source s) {v : ℕ} (hv : v ∈ s.queue) :
    Relation.ReflTransGen ((pairedEdges g₀ h₀).Residual (residual g)) source v := by
  induction hn : s.queue.idxOf v using Nat.strong_induction_on generalizing v with
  | _ n ih =>
    cases hp : s.parentOf v with
    | unseen => exact absurd hp ((h.mem_queue v).1 hv)
    | root =>
      obtain rfl := (h.root_iff v).1 hp
      exact Relation.ReflTransGen.refl
    | via u i =>
      obtain ⟨⟨edge, he, ht, hpos⟩, hu, hidx⟩ := h.via v u i hp
      have hstep := residual_of_edge h₀ hs he hpos
      rw [ht] at hstep
      exact (ih _ (hn ▸ hidx) hu rfl).tail hstep

/-- What a round does: it stops with the reached vertices, or the flow grows. -/
theorem flowStep_spec (hsource : source < g₀.length) (hne : source ≠ sink) {st : FlowState}
    (h : FlowLaws h₀ source sink st) :
    (∃ reachable, flowStep source sink st = .inl reachable ∧ source ∈ reachable ∧
      sink ∉ reachable ∧
      (∀ v w, v ∈ reachable → (pairedEdges g₀ h₀).Residual (residual st.graph) v w →
        w ∈ reachable) ∧
      ∀ v ∈ reachable,
        Relation.ReflTransGen ((pairedEdges g₀ h₀).Residual (residual st.graph)) source v) ∨
    ∃ next, flowStep source sink st = .inr next ∧ FlowLaws h₀ source sink next ∧
      st.flow < next.flow := by
  have hg := h.shape.wellPaired h₀
  have hlen : source < st.graph.length := by
    rw [← h.shape.1]
    exact hsource
  obtain ⟨hinv, hend⟩ := search_invariant hg sink hlen
  unfold flowStep
  by_cases hsink : (search st.graph source sink).parentOf sink = .unseen
  · left
    refine ⟨(search st.graph source sink).queue, by simp [hsink], ?_, ?_, ?_, ?_⟩
    · rw [hinv.mem_queue, (hinv.root_iff source).2 rfl]
      simp
    · rw [hinv.mem_queue]
      simp [hsink]
    · rintro v w hv ⟨p, hp, rfl, rfl, hpos⟩
      obtain ⟨e₀, he₀⟩ := mem_places.1 hp
      obtain ⟨e, he, ht, _⟩ := h.shape.edge he₀
      rw [residual_of_edgeAt he] at hpos
      have hread := hend.resolve_left (by simp [hsink])
      obtain ⟨j, hj, hget⟩ := List.getElem_of_mem hv
      have hseen := hread j p.1 hj (List.getElem?_eq_some_iff.2 ⟨hj, hget⟩) p.2 e he hpos
      rw [ht] at hseen
      have htarget : (pairedEdges g₀ h₀).dst p = e₀.target := target_of_edgeAt he₀
      rw [htarget, hinv.mem_queue]
      exact hseen
    · intro v hv
      exact queue_reached h₀ h.shape hinv hv
  · right
    have hmem : sink ∈ (search st.graph source sink).queue := (hinv.mem_queue sink).2 hsink
    have hfuel : (search st.graph source sink).queue.idxOf sink < st.graph.length :=
      (List.idxOf_lt_length_of_mem hmem).trans_le hinv.length_queue_le
    obtain ⟨hwalk, hedges, hnodup⟩ := backtrack_walk hg hinv hmem hfuel
    have hnil : backtrack (search st.graph source sink) st.graph.length sink ≠ [] := by
      obtain ⟨n, hn⟩ := Nat.exists_eq_succ_of_ne_zero (Nat.ne_of_gt (Nat.zero_lt_of_lt hlen))
      rw [hn]
      refine backtrack_ne_nil hsink ?_
      rw [Ne, hinv.root_iff]
      exact hne.symm
    have hpos : ∀ e ∈ backtrack (search st.graph source sink) st.graph.length sink,
        0 < residual st.graph (placeOf e) := by
      intro e he
      obtain ⟨⟨edge, hedge, _, hp⟩, _⟩ := hedges e he
      rwa [residual_of_edgeAt hedge]
    obtain ⟨a, ha, ha0, hroom⟩ := bottleneck_spec hnil hpos
    simp only [hsink, if_false, ha]
    refine ⟨_, rfl, ?_, by simpa using ha0⟩
    obtain ⟨hshape, hres⟩ := augment_pushAll h₀ h.shape a _ (fun e he => by
      obtain ⟨⟨edge, hedge, ht, _⟩, _⟩ := hedges e he
      exact ⟨edge, hedge, ht⟩)
    refine ⟨hshape, ?_⟩
    simp only [hres]
    rw [h.shape.symm.pairedEdges_eq hg h₀] at hwalk
    refine h.flow.augment hne hwalk hnodup ha0.le ?_
    intro p hp
    obtain ⟨e, he, rfl⟩ := List.mem_map.1 hp
    exact hroom e he

def Round (source sink : ℕ) (st next : FlowState) : Prop := flowStep source sink st = .inr next

lemma rounds_laws (hsource : source < g₀.length) (hne : source ≠ sink) {st st' : FlowState}
    (h : FlowLaws h₀ source sink st) (hr : Relation.ReflTransGen (Round source sink) st st') :
    FlowLaws h₀ source sink st' ∧ st.flow ≤ st'.flow := by
  induction hr with
  | refl => exact ⟨h, le_rfl⟩
  | tail _ hstep ih =>
    obtain ⟨ihlaws, ihle⟩ := ih
    obtain ⟨r, hr, _⟩ | ⟨next, hn, hlaws, hlt⟩ := flowStep_spec h₀ hsource hne ihlaws
    · rw [Round, hr] at hstep
      simp at hstep
    · rw [Round, hn] at hstep
      obtain rfl := Sum.inr.inj hstep
      exact ⟨hlaws, ihle.trans hlt.le⟩

/-- With more rounds than the bound on the flow leaves, the loop stops by itself. -/
theorem flowLoop_returns (hsource : source < g₀.length) (hne : source ≠ sink) {bound : ℤ}
    (hbound : ∀ st, FlowLaws h₀ source sink st → st.flow ≤ bound) {fuel : ℕ} {st : FlowState}
    (h : FlowLaws h₀ source sink st) (hfuel : bound < st.flow + fuel) :
    ∃ reachable st', flowLoop source sink fuel st = some (reachable, st') ∧
      FlowLaws h₀ source sink st' ∧ flowStep source sink st' = .inl reachable := by
  induction fuel generalizing st with
  | zero =>
    have := hbound st h
    simp only [Nat.cast_zero, add_zero] at hfuel
    omega
  | succ fuel ih =>
    unfold flowLoop
    obtain ⟨r, hr, _⟩ | ⟨next, hn, hlaws, hlt⟩ := flowStep_spec h₀ hsource hne h
    · rw [hr]
      exact ⟨r, st, rfl, h, hr⟩
    · rw [hn]
      refine ih hlaws ?_
      push_cast at hfuel
      omega

end Rounds

end DevGraph.Proofs
