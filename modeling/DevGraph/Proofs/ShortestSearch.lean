import DevGraph.Proofs.ResidualGraph
import Mathlib.Data.List.Perm.Subperm

/-!
# The breadth-first search of the solver

What the queue and the parent array mean after the search: a vertex is in the queue exactly when it
has a parent entry, parent entries are residual edges from earlier vertices, and a search that
misses the sink has left no residual edge out of the queue unread.
-/

namespace DevGraph.Proofs
open Selection Lib

structure SearchInvariant (g : Graph) (source : ℕ) (s : Search) : Prop where
  length_parent : s.parent.length = g.length
  nodup : s.queue.Nodup
  mem_queue : ∀ v, v ∈ s.queue ↔ s.parentOf v ≠ .unseen
  root_iff : ∀ v, s.parentOf v = .root ↔ v = source
  via : ∀ v u i, s.parentOf v = .via u i →
    (∃ e, edgeAt g (u, i) = some e ∧ e.target = v ∧ 0 < e.residual) ∧
      u ∈ s.queue ∧ s.queue.idxOf u < s.queue.idxOf v

structure Later (s s' : Search) : Prop where
  queue : s.queue <+: s'.queue
  parent : ∀ v, s.parentOf v ≠ .unseen → s'.parentOf v = s.parentOf v

lemma Later.refl (s : Search) : Later s s := ⟨List.prefix_rfl, fun _ _ => rfl⟩

lemma Later.trans {s s' s'' : Search} (h : Later s s') (h' : Later s' s'') : Later s s'' := by
  refine ⟨h.queue.trans h'.queue, fun v hv => ?_⟩
  have hp := h.parent v hv
  rw [h'.parent v (by rwa [hp]), hp]

lemma Later.seen {s s' : Search} (h : Later s s') {v : ℕ} (hv : s.parentOf v ≠ .unseen) :
    s'.parentOf v ≠ .unseen := by rwa [h.parent v hv]

lemma target_lt {g : Graph} (hg : WellPaired g) {p : ℕ × ℕ} {e : ResidualEdge}
    (he : edgeAt g p = some e) : e.target < g.length := by
  obtain ⟨_, e', he', _⟩ := hg p e he
  exact edgeAt_lt he'

lemma parentOf_set (parent : List Parent) (queue queue' : List ℕ) {w : ℕ}
    (hw : w < parent.length) (x : Parent) (v : ℕ) :
    Search.parentOf ⟨parent.set w x, queue'⟩ v =
      if v = w then x else Search.parentOf ⟨parent, queue⟩ v := by
  unfold Search.parentOf
  simp only [List.getD_eq_getElem?_getD, List.getElem?_set]
  by_cases h : v = w
  · subst h
    simp [hw]
  · simp [h, Ne.symm h]

section Visit

variable {g : Graph} {source : ℕ} {s : Search}

lemma visitEdge_invariant (hg : WellPaired g) (h : SearchInvariant g source s) {u i : ℕ}
    {e : ResidualEdge} (hu : u ∈ s.queue) (he : edgeAt g (u, i) = some e) :
    SearchInvariant g source (visitEdge u s (e, i)) ∧ Later s (visitEdge u s (e, i)) ∧
      (0 < e.residual → (visitEdge u s (e, i)).parentOf e.target ≠ .unseen) := by
  unfold visitEdge
  by_cases hc : 0 < e.residual ∧ s.parentOf e.target = .unseen
  · simp only [if_pos hc]
    have hlt : e.target < s.parent.length := by
      rw [h.length_parent]
      exact target_lt hg he
    have hset := parentOf_set s.parent s.queue (s.queue ++ [e.target]) hlt (.via u i)
    have hnew : e.target ∉ s.queue := by
      rw [h.mem_queue]
      simp [hc.2]
    refine ⟨⟨?_, ?_, ?_, ?_, ?_⟩, ⟨List.prefix_append _ _, ?_⟩, ?_⟩
    · simp [h.length_parent]
    · rw [List.nodup_append]
      refine ⟨h.nodup, List.nodup_singleton _, ?_⟩
      intro a ha b hb hab
      rw [List.mem_singleton] at hb
      exact hnew (hb ▸ hab ▸ ha)
    · intro v
      rw [hset]
      by_cases hv : v = e.target
      · simp [hv]
      · rw [if_neg hv]
        simpa [hv] using h.mem_queue v
    · intro v
      rw [hset]
      by_cases hv : v = e.target
      · rw [if_pos hv]
        have hns : v ≠ source := by
          rintro rfl
          have := (h.root_iff v).2 rfl
          rw [hv, hc.2] at this
          simp at this
        simp [hns]
      · rw [if_neg hv]
        exact h.root_iff v
    · intro v u' i' hvia
      rw [hset] at hvia
      by_cases hv : v = e.target
      · rw [if_pos hv] at hvia
        simp only [Parent.via.injEq] at hvia
        obtain ⟨rfl, rfl⟩ := hvia
        refine ⟨⟨e, he, hv.symm, hc.1⟩, List.mem_append_left _ hu, ?_⟩
        rw [List.idxOf_append_of_mem hu, hv, List.idxOf_append_of_notMem hnew]
        exact (List.idxOf_lt_length_of_mem hu).trans_le (Nat.le_add_right _ _)
      · rw [if_neg hv] at hvia
        obtain ⟨hedge, hmem, hidx⟩ := h.via v u' i' hvia
        have hvq : v ∈ s.queue := by
          rw [h.mem_queue]
          change s.parentOf v = _ at hvia
          simp [hvia]
        refine ⟨hedge, List.mem_append_left _ hmem, ?_⟩
        rwa [List.idxOf_append_of_mem hmem, List.idxOf_append_of_mem hvq]
    · intro v hv
      rw [hset, if_neg]
      rintro rfl
      exact hv hc.2
    · intro _
      rw [hset, if_pos rfl]
      simp
  · simp only [if_neg hc]
    refine ⟨h, Later.refl s, fun hpos hun => hc ⟨hpos, hun⟩⟩

lemma visitList_invariant (hg : WellPaired g) {u : ℕ} (l : List (ResidualEdge × ℕ))
    (hl : ∀ x ∈ l, edgeAt g (u, x.2) = some x.1) (h : SearchInvariant g source s)
    (hu : u ∈ s.queue) :
    SearchInvariant g source (l.foldl (visitEdge u) s) ∧ Later s (l.foldl (visitEdge u) s) ∧
      ∀ x ∈ l, 0 < x.1.residual → (l.foldl (visitEdge u) s).parentOf x.1.target ≠ .unseen := by
  induction l generalizing s with
  | nil => exact ⟨h, Later.refl s, by simp⟩
  | cons x l ih =>
    obtain ⟨h1, hlater, hseen⟩ := visitEdge_invariant hg h hu (hl x List.mem_cons_self)
    obtain ⟨h2, hlater', hseen'⟩ := ih (fun y hy => hl y (List.mem_cons_of_mem _ hy)) h1
      (hlater.queue.subset hu)
    refine ⟨h2, hlater.trans hlater', ?_⟩
    intro y hy hpos
    obtain rfl | hy := List.mem_cons.1 hy
    · exact hlater'.seen (hseen hpos)
    · exact hseen' y hy hpos

lemma visitRow_invariant (hg : WellPaired g) (h : SearchInvariant g source s) {u : ℕ}
    (hu : u ∈ s.queue) :
    SearchInvariant g source (visitRow g u s) ∧ Later s (visitRow g u s) ∧
      ∀ i e, edgeAt g (u, i) = some e → 0 < e.residual →
        (visitRow g u s).parentOf e.target ≠ .unseen := by
  have hl : ∀ x ∈ (row g u).zipIdx, edgeAt g (u, x.2) = some x.1 := by
    intro x hx
    exact List.mem_zipIdx_iff_getElem?.1 hx
  obtain ⟨h1, h2, h3⟩ := visitList_invariant hg _ hl h hu
  refine ⟨h1, h2, fun i e he hpos => h3 (e, i) ?_ hpos⟩
  exact List.mem_zipIdx_iff_getElem?.2 he

end Visit

/-- Every residual edge out of the first `q` queue entries has been read. -/
def Read (g : Graph) (s : Search) (q : ℕ) : Prop :=
  ∀ j v, j < q → s.queue[j]? = some v → ∀ i e, edgeAt g (v, i) = some e → 0 < e.residual →
    s.parentOf e.target ≠ .unseen

lemma SearchInvariant.length_queue_le {g : Graph} {source : ℕ} {s : Search}
    (h : SearchInvariant g source s) : s.queue.length ≤ g.length := by
  have hsub : s.queue ⊆ List.range g.length := by
    intro v hv
    rw [List.mem_range, ← h.length_parent]
    by_contra hlt
    have hun : s.parentOf v = .unseen := by
      simp [Search.parentOf, List.getD_eq_getElem?_getD,
        List.getElem?_eq_none (Nat.le_of_not_lt hlt)]
    exact (h.mem_queue v).1 hv hun
  simpa using (List.subperm_of_subset h.nodup hsub).length_le

lemma Read.of_later {g : Graph} {s s' : Search} {q : ℕ} (h : Read g s q) (hq : q ≤ s.queue.length)
    (hl : Later s s') : Read g s' q := by
  intro j v hj hv i e he hpos
  obtain ⟨r, hr⟩ := hl.queue
  rw [← hr, List.getElem?_append_left (by omega)] at hv
  exact hl.seen (h j v hj hv i e he hpos)

lemma searchLoop_invariant {g : Graph} (hg : WellPaired g) {source sink fuel q : ℕ} {s : Search}
    (h : SearchInvariant g source s) (hread : Read g s q) (hq : q ≤ s.queue.length)
    (hfuel : g.length ≤ q + fuel) :
    SearchInvariant g source (searchLoop g sink fuel q s) ∧
      ((searchLoop g sink fuel q s).parentOf sink ≠ .unseen ∨
        Read g (searchLoop g sink fuel q s) (searchLoop g sink fuel q s).queue.length) := by
  induction fuel generalizing q s with
  | zero =>
    have hle := h.length_queue_le
    have heq : q = s.queue.length := by omega
    exact ⟨h, .inr (heq ▸ hread)⟩
  | succ fuel ih =>
    unfold searchLoop
    cases hv : s.queue[q]? with
    | none =>
      have heq : q = s.queue.length := by
        have := List.getElem?_eq_none_iff.1 hv
        omega
      exact ⟨h, .inr (heq ▸ hread)⟩
    | some v =>
      simp only
      obtain ⟨hlt, hget⟩ := List.getElem?_eq_some_iff.1 hv
      by_cases hsink : s.parentOf sink = .unseen
      · rw [if_pos hsink]
        obtain ⟨h', hlater, hrow⟩ := visitRow_invariant hg h (List.mem_of_getElem? hv)
        refine ih h' ?_ ?_ (by omega)
        · intro j w hj hw i e he hpos
          obtain hj | rfl := Nat.lt_succ_iff_lt_or_eq.1 hj
          · exact hread.of_later (by omega) hlater j w hj hw i e he hpos
          · obtain ⟨r, hr⟩ := hlater.queue
            rw [← hr, List.getElem?_append_left hlt, hv] at hw
            obtain rfl := Option.some.inj hw
            exact hrow i e he hpos
        · have := hlater.queue.length_le
          omega
      · rw [if_neg hsink]
        exact ⟨h, .inl hsink⟩

theorem search_invariant {g : Graph} (hg : WellPaired g) {source : ℕ} (sink : ℕ)
    (hs : source < g.length) :
    SearchInvariant g source (search g source sink) ∧
      ((search g source sink).parentOf sink ≠ .unseen ∨
        Read g (search g source sink) (search g source sink).queue.length) := by
  have hlen : source < (List.replicate g.length Parent.unseen).length := by simpa using hs
  have hset := parentOf_set (List.replicate g.length .unseen) [source] [source] hlen .root
  have hunseen : ∀ v, Search.parentOf ⟨List.replicate g.length .unseen, [source]⟩ v = .unseen := by
    intro v
    simp only [Search.parentOf, List.getD_eq_getElem?_getD, List.getElem?_replicate]
    split <;> rfl
  unfold search
  apply searchLoop_invariant hg
  · refine ⟨by simp, List.nodup_singleton _, ?_, ?_, ?_⟩
    · intro v
      rw [hset, hunseen]
      by_cases hv : v = source <;> simp [hv]
    · intro v
      rw [hset, hunseen]
      by_cases hv : v = source <;> simp [hv]
    · intro v u i hvia
      rw [hset, hunseen] at hvia
      split at hvia <;> simp at hvia
  · intro j v hj
    omega
  · simp
  · omega

end DevGraph.Proofs
