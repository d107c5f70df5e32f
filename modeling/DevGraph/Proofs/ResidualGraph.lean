import DevGraph.Selection.Closure
import DevGraph.Lib.ResidualFlow
import Mathlib.Data.Finset.Prod

/-!
# The residual graph as paired edges

An edge of the residual graph is known by its place: a vertex and a position in its row. The graph
built from the arcs pairs the two places of every arc, and residuals never change that pairing.
-/

namespace DevGraph.Proofs
open Selection Lib

variable {p : ℕ × ℕ} {e : ResidualEdge}

def edgeAt (g : Graph) (p : ℕ × ℕ) : Option ResidualEdge := (row g p.1)[p.2]?

def target (g : Graph) (p : ℕ × ℕ) : ℕ := (edgeAt g p).elim p.1 ResidualEdge.target

def partner (g : Graph) (p : ℕ × ℕ) : ℕ × ℕ :=
  (edgeAt g p).elim p fun e => (e.target, e.reverse)

def residual (g : Graph) (p : ℕ × ℕ) : ℤ := residualAt g p.1 p.2

def places (g : Graph) : Finset (ℕ × ℕ) :=
  (Finset.range g.length).biUnion fun v => (Finset.range (row g v).length).image (Prod.mk v)

lemma residual_eq (g : Graph) (p : ℕ × ℕ) :
    residual g p = (edgeAt g p).elim 0 ResidualEdge.residual := by
  unfold residual residualAt edgeAt
  cases (row g p.1)[p.2]? <;> rfl

lemma row_of_length_le {g : Graph} {v : ℕ} (h : g.length ≤ v) : row g v = [] := by
  simp [row, List.getD_eq_getElem?_getD, List.getElem?_eq_none h]

lemma row_modify (g : Graph) (v u : ℕ) (f : List ResidualEdge → List ResidualEdge) :
    row (g.modify v f) u = if v = u ∧ u < g.length then f (row g u) else row g u := by
  unfold row
  rw [List.getD_eq_getElem?_getD, List.getD_eq_getElem?_getD, List.getElem?_modify]
  by_cases hu : u < g.length
  · by_cases hv : v = u <;> simp [hv, hu]
  · simp [hu]

lemma edgeAt_lt {g : Graph} (h : edgeAt g p = some e) :
    p.1 < g.length := by
  by_contra hlt
  rw [edgeAt, row_of_length_le (Nat.le_of_not_lt hlt)] at h
  simp at h

lemma mem_places {g : Graph} : p ∈ places g ↔ ∃ e, edgeAt g p = some e := by
  obtain ⟨v, i⟩ := p
  simp only [places, Finset.mem_biUnion, Finset.mem_range, Finset.mem_image, Prod.mk.injEq]
  constructor
  · rintro ⟨u, _, j, hj, rfl, rfl⟩
    exact ⟨_, List.getElem?_eq_getElem hj⟩
  · rintro ⟨e, he⟩
    obtain ⟨hi, _⟩ := List.getElem?_eq_some_iff.1 he
    exact ⟨v, edgeAt_lt he, i, hi, rfl, rfl⟩

lemma target_of_edgeAt {g : Graph} (h : edgeAt g p = some e) :
    target g p = e.target := by
  simp [target, h]

lemma partner_of_edgeAt {g : Graph} (h : edgeAt g p = some e) :
    partner g p = (e.target, e.reverse) := by
  simp [partner, h]

lemma residual_of_edgeAt {g : Graph} (h : edgeAt g p = some e) :
    residual g p = e.residual := by
  simp [residual_eq, h]

/-- Every edge has a partner at the place it names, which names it back. -/
def WellPaired (g : Graph) : Prop :=
  ∀ p e, edgeAt g p = some e → e.target ≠ p.1 ∧
    ∃ e', edgeAt g (e.target, e.reverse) = some e' ∧ e'.target = p.1 ∧ e'.reverse = p.2

/-- The edges of a well paired graph, for the flow theory. -/
def pairedEdges (g : Graph) (h : WellPaired g) : PairedEdges (ℕ × ℕ) ℕ where
  E := places g
  src := Prod.fst
  dst := target g
  rev := partner g
  rev_mem := by
    intro p hp
    obtain ⟨e, he⟩ := mem_places.1 hp
    obtain ⟨_, e', he', _⟩ := h p e he
    rw [partner_of_edgeAt he]
    exact mem_places.2 ⟨e', he'⟩
  rev_rev := by
    intro p hp
    obtain ⟨e, he⟩ := mem_places.1 hp
    obtain ⟨_, e', he', ht, hr⟩ := h p e he
    rw [partner_of_edgeAt he, partner_of_edgeAt he', ht, hr]
  src_rev := by
    intro p hp
    obtain ⟨e, he⟩ := mem_places.1 hp
    rw [partner_of_edgeAt he, target_of_edgeAt he]
  src_ne_dst := by
    intro p hp
    obtain ⟨e, he⟩ := mem_places.1 hp
    rw [target_of_edgeAt he]
    exact (h p e he).1.symm

section PushArc

variable {g : Graph} {s t : ℕ} {c : ℤ}

lemma length_pushArc : (pushArc g s t c).length = g.length := by simp [pushArc]

lemma row_pushArc (hs : s < g.length) (ht : t < g.length) (hst : s ≠ t) (v : ℕ) :
    row (pushArc g s t c) v =
      if v = s then row g s ++ [⟨t, c, (row g t).length⟩]
      else if v = t then row g t ++ [⟨s, 0, (row g s).length⟩] else row g v := by
  simp only [pushArc, row_modify, List.length_modify]
  by_cases hvs : v = s
  · subst hvs
    simp [hs, Ne.symm hst]
  · by_cases hvt : v = t
    · subst hvt
      simp [ht, hst, hvs]
    · simp [hvs, hvt, Ne.symm hvs, Ne.symm hvt]

lemma edgeAt_pushArc (hs : s < g.length) (ht : t < g.length) (hst : s ≠ t) (p : ℕ × ℕ) :
    edgeAt (pushArc g s t c) p =
      if p = (s, (row g s).length) then some ⟨t, c, (row g t).length⟩
      else if p = (t, (row g t).length) then some ⟨s, 0, (row g s).length⟩ else edgeAt g p := by
  obtain ⟨v, i⟩ := p
  simp only [edgeAt, row_pushArc hs ht hst, Prod.mk.injEq]
  by_cases hvs : v = s
  · subst hvs
    simp only [if_true, true_and, hst, false_and, if_false, List.getElem?_append]
    obtain h | h | h := Nat.lt_trichotomy i (row g v).length
    · simp [h, Nat.ne_of_lt h]
    · simp [h]
    · have hsub : i - (row g v).length ≠ 0 := by omega
      rw [if_neg (by omega), if_neg (by omega), List.getElem?_eq_none (by simp; omega),
        List.getElem?_eq_none (by omega)]
  · by_cases hvt : v = t
    · subst hvt
      simp only [if_true, true_and, hvs, false_and, if_false, List.getElem?_append]
      obtain h | h | h := Nat.lt_trichotomy i (row g v).length
      · simp [h, Nat.ne_of_lt h]
      · simp [h]
      · rw [if_neg (by omega), if_neg (by omega), List.getElem?_eq_none (by simp; omega),
          List.getElem?_eq_none (by omega)]
    · simp [hvs, hvt]

lemma edgeAt_row_length (g : Graph) (v : ℕ) : edgeAt g (v, (row g v).length) = none := by
  simp [edgeAt]

lemma edgeAt_pushArc_old (hs : s < g.length) (ht : t < g.length) (hst : s ≠ t)
    (he : edgeAt g p = some e) : edgeAt (pushArc g s t c) p = some e := by
  rw [edgeAt_pushArc hs ht hst, if_neg, if_neg, he]
  · rintro rfl
    simp [edgeAt_row_length] at he
  · rintro rfl
    simp [edgeAt_row_length] at he

lemma wellPaired_pushArc (h : WellPaired g) (hs : s < g.length) (ht : t < g.length)
    (hst : s ≠ t) : WellPaired (pushArc g s t c) := by
  intro p e he
  rw [edgeAt_pushArc hs ht hst] at he
  have hne : ((t, (row g t).length) : ℕ × ℕ) ≠ (s, (row g s).length) := by
    simp [Ne.symm hst]
  split at he
  · rename_i hp
    obtain rfl := Option.some.inj he
    subst hp
    refine ⟨Ne.symm hst, ⟨s, 0, (row g s).length⟩, ?_, rfl, rfl⟩
    rw [edgeAt_pushArc hs ht hst, if_neg hne, if_pos rfl]
  · split at he
    · rename_i hp
      obtain rfl := Option.some.inj he
      subst hp
      refine ⟨hst, ⟨t, c, (row g t).length⟩, ?_, rfl, rfl⟩
      rw [edgeAt_pushArc hs ht hst, if_pos rfl]
    · obtain ⟨hn, e', he', ht', hr'⟩ := h p e he
      exact ⟨hn, e', edgeAt_pushArc_old hs ht hst he', ht', hr'⟩

def leaving (g : Graph) (S : ℕ → Prop) [DecidablePred S] : ℤ :=
  ∑ p ∈ places g with S p.1 ∧ ¬S (target g p), residual g p

lemma leaving_pushArc (hs : s < g.length) (ht : t < g.length) (hst : s ≠ t) (S : ℕ → Prop)
    [DecidablePred S] :
    leaving (pushArc g s t c) S = leaving g S + if S s ∧ ¬S t then c else 0 := by
  have hne : ((t, (row g t).length) : ℕ × ℕ) ≠ (s, (row g s).length) := by
    simp [Ne.symm hst]
  have hforward : edgeAt (pushArc g s t c) (s, (row g s).length) =
      some ⟨t, c, (row g t).length⟩ := by rw [edgeAt_pushArc hs ht hst, if_pos rfl]
  have hbackward : edgeAt (pushArc g s t c) (t, (row g t).length) =
      some ⟨s, 0, (row g s).length⟩ := by rw [edgeAt_pushArc hs ht hst, if_neg hne, if_pos rfl]
  have hsnew : (s, (row g s).length) ∉ places g := by
    simp [mem_places, edgeAt_row_length]
  have htnew : (t, (row g t).length) ∉ places g := by
    simp [mem_places, edgeAt_row_length]
  have hplaces : places (pushArc g s t c) =
      insert (s, (row g s).length) (insert (t, (row g t).length) (places g)) := by
    ext p
    simp only [Finset.mem_insert, mem_places, edgeAt_pushArc hs ht hst]
    by_cases h1 : p = (s, (row g s).length)
    · simp [h1]
    · by_cases h2 : p = (t, (row g t).length)
      · simp [h2, Ne.symm hst]
      · simp [h1, h2]
  have hold : ∀ p ∈ places g, target (pushArc g s t c) p = target g p ∧
      residual (pushArc g s t c) p = residual g p := by
    intro p hp
    obtain ⟨e, he⟩ := mem_places.1 hp
    have he' := edgeAt_pushArc_old (c := c) hs ht hst he
    rw [target_of_edgeAt he', target_of_edgeAt he, residual_of_edgeAt he', residual_of_edgeAt he]
    exact ⟨rfl, rfl⟩
  unfold leaving
  rw [hplaces, Finset.sum_filter, Finset.sum_insert (by simp [hne.symm, hsnew]),
    Finset.sum_insert htnew, Finset.sum_filter, target_of_edgeAt hforward,
    target_of_edgeAt hbackward, residual_of_edgeAt hforward, residual_of_edgeAt hbackward]
  have hrest : ∑ p ∈ places g, (if S p.1 ∧ ¬S (target (pushArc g s t c) p) then
      residual (pushArc g s t c) p else 0) =
      ∑ p ∈ places g, (if S p.1 ∧ ¬S (target g p) then residual g p else 0) := by
    refine Finset.sum_congr rfl fun p hp => ?_
    rw [(hold p hp).1, (hold p hp).2]
  rw [hrest]
  simp only [ite_self, zero_add]
  exact add_comm _ _

end PushArc

end DevGraph.Proofs
