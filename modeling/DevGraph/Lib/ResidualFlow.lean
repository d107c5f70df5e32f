import Mathlib.Algebra.BigOperators.Group.Finset.Basic
import Mathlib.Algebra.Order.BigOperators.Group.Finset
import Mathlib.Algebra.BigOperators.Ring.Finset
import Mathlib.Logic.Relation
import Mathlib.Tactic.Linarith
import Mathlib.Tactic.Ring

/-!
# Residual flow networks

Flow on a finite set of edges paired with their opposites. The file proves the cut identity, that
augmenting along a path keeps the flow laws, and that the vertices reached through positive
residuals form the least minimum cut.
-/

namespace DevGraph.Lib
open Finset

/-- Edges `E` between vertices, closed under the partner map `rev`. -/
structure PairedEdges (ι V : Type*) where
  E : Finset ι
  src : ι → V
  dst : ι → V
  rev : ι → ι
  rev_mem : ∀ e ∈ E, rev e ∈ E
  rev_rev : ∀ e ∈ E, rev (rev e) = e
  src_rev : ∀ e ∈ E, src (rev e) = dst e
  src_ne_dst : ∀ e ∈ E, src e ≠ dst e

namespace PairedEdges

variable {ι V : Type*} (P : PairedEdges ι V)

lemma dst_rev {e : ι} (he : e ∈ P.E) : P.dst (P.rev e) = P.src e := by
  rw [← P.src_rev _ (P.rev_mem e he), P.rev_rev e he]

lemma rev_ne {e : ι} (he : e ∈ P.E) : P.rev e ≠ e := by
  intro h
  have hs := P.src_rev e he
  rw [h] at hs
  exact P.src_ne_dst e he hs

def crossing (S : V → Prop) [DecidablePred S] : Finset ι :=
  P.E.filter fun e => S (P.src e) ∧ ¬S (P.dst e)

def cutCapacity (cap : ι → ℤ) (S : V → Prop) [DecidablePred S] : ℤ :=
  ∑ e ∈ P.crossing S, cap e

variable [DecidableEq V]

/-- The net flow out of one vertex when `res` is left of `cap`. -/
def excess (cap res : ι → ℤ) (v : V) : ℤ :=
  ∑ e ∈ P.E with P.src e = v, (cap e - res e)

/-- The laws of a flow from `s` to `t` that is given by its residual capacities. -/
structure IsFlow (cap res : ι → ℤ) (s t : V) (value : ℤ) : Prop where
  nonneg : ∀ e ∈ P.E, 0 ≤ res e
  paired : ∀ e ∈ P.E, res e + res (P.rev e) = cap e + cap (P.rev e)
  conserved : ∀ v, v ≠ s → v ≠ t → P.excess cap res v = 0
  value_eq : P.excess cap res s = value

variable {P} {cap res : ι → ℤ} {s t : V} {value : ℤ}

lemma IsFlow.zero (hcap : ∀ e ∈ P.E, 0 ≤ cap e) : P.IsFlow cap cap s t 0 where
  nonneg := hcap
  paired := fun _ _ => rfl
  conserved := fun v _ _ => by simp [excess]
  value_eq := by simp [excess]

/-- The flow inside a set of vertices cancels edge by partner. -/
lemma IsFlow.sum_inside (h : P.IsFlow cap res s t value) (S : V → Prop) [DecidablePred S] :
    ∑ e ∈ P.E with S (P.src e) ∧ S (P.dst e), (cap e - res e) = 0 := by
  refine Finset.sum_involution (fun e _ => P.rev e) ?_ ?_ ?_ ?_
  · intro e he
    have hm := (Finset.mem_filter.1 he).1
    have hp := h.paired e hm
    linarith
  · intro e he _
    exact P.rev_ne (Finset.mem_filter.1 he).1
  · intro e he
    obtain ⟨hm, hs, hd⟩ := Finset.mem_filter.1 he
    refine Finset.mem_filter.2 ⟨P.rev_mem e hm, ?_, ?_⟩
    · rwa [P.src_rev e hm]
    · rwa [P.dst_rev hm]
  · intro e he
    exact P.rev_rev e (Finset.mem_filter.1 he).1

lemma IsFlow.sum_leaving (h : P.IsFlow cap res s t value) (S : V → Prop) [DecidablePred S]
    (hs : S s) (ht : ¬S t) :
    ∑ e ∈ P.E with S (P.src e), (cap e - res e) = value := by
  -- Group the edges by the vertex they leave: only `s` contributes.
  have hgroup : ∑ e ∈ P.E with S (P.src e), (cap e - res e) =
      ∑ v ∈ (P.E.image P.src).filter S, P.excess cap res v := by
    rw [← Finset.sum_fiberwise_of_maps_to (g := P.src) (t := (P.E.image P.src).filter S)]
    · refine Finset.sum_congr rfl fun v hv => ?_
      have hSv := (Finset.mem_filter.1 hv).2
      unfold excess
      refine Finset.sum_congr ?_ fun _ _ => rfl
      ext e
      simp only [Finset.mem_filter]
      constructor
      · rintro ⟨⟨hm, _⟩, rfl⟩
        exact ⟨hm, rfl⟩
      · rintro ⟨hm, rfl⟩
        exact ⟨⟨hm, hSv⟩, rfl⟩
    · intro e he
      obtain ⟨hm, hS⟩ := Finset.mem_filter.1 he
      exact Finset.mem_filter.2 ⟨Finset.mem_image_of_mem _ hm, hS⟩
  rw [hgroup]
  by_cases hmem : s ∈ (P.E.image P.src).filter S
  · rw [Finset.sum_eq_single_of_mem s hmem, h.value_eq]
    intro v hv hne
    refine h.conserved v hne ?_
    rintro rfl
    exact ht (Finset.mem_filter.1 hv).2
  · have hnone : ∀ e ∈ P.E, P.src e ≠ s := by
      intro e he hse
      exact hmem (Finset.mem_filter.2 ⟨hse ▸ Finset.mem_image_of_mem _ he, hs⟩)
    have hzero : value = 0 := by
      rw [← h.value_eq, excess, Finset.filter_false_of_mem hnone, Finset.sum_empty]
    rw [hzero]
    refine Finset.sum_eq_zero fun v hv => h.conserved v ?_ ?_
    · rintro rfl
      exact hmem hv
    · rintro rfl
      exact ht (Finset.mem_filter.1 hv).2

/-- The value of a flow is the net flow over every cut. -/
theorem IsFlow.cut_identity (h : P.IsFlow cap res s t value) (S : V → Prop) [DecidablePred S]
    (hs : S s) (ht : ¬S t) : value = P.cutCapacity cap S - ∑ e ∈ P.crossing S, res e := by
  have hall := h.sum_leaving S hs ht
  have hin := h.sum_inside S
  have hsplit : ∑ e ∈ P.E with S (P.src e), (cap e - res e) =
      ∑ e ∈ P.E with S (P.src e) ∧ S (P.dst e), (cap e - res e) +
        ∑ e ∈ P.crossing S, (cap e - res e) := by
    rw [← Finset.sum_filter_add_sum_filter_not (P.E.filter fun e => S (P.src e))
      (fun e => S (P.dst e)), Finset.filter_filter, Finset.filter_filter]
    rfl
  rw [← hall, hsplit, hin, zero_add, Finset.sum_sub_distrib]
  rfl

lemma IsFlow.sum_crossing_nonneg (h : P.IsFlow cap res s t value) (S : V → Prop)
    [DecidablePred S] : 0 ≤ ∑ e ∈ P.crossing S, res e :=
  Finset.sum_nonneg fun e he => h.nonneg e (Finset.mem_filter.1 he).1

theorem IsFlow.value_le_cut (h : P.IsFlow cap res s t value) (S : V → Prop) [DecidablePred S]
    (hs : S s) (ht : ¬S t) : value ≤ P.cutCapacity cap S := by
  have hid := h.cut_identity S hs ht
  have hnn := h.sum_crossing_nonneg S
  linarith

def Residual (P : PairedEdges ι V) (res : ι → ℤ) (v w : V) : Prop :=
  ∃ e ∈ P.E, P.src e = v ∧ P.dst e = w ∧ 0 < res e

/-- A set that no residual edge leaves is a cut of the flow's value. -/
theorem IsFlow.value_eq_cut (h : P.IsFlow cap res s t value) (S : V → Prop) [DecidablePred S]
    (hs : S s) (ht : ¬S t) (hclosed : ∀ v w, S v → P.Residual res v w → S w) :
    value = P.cutCapacity cap S := by
  have hzero : ∑ e ∈ P.crossing S, res e = 0 := by
    refine Finset.sum_eq_zero fun e he => ?_
    obtain ⟨hm, hS, hD⟩ := Finset.mem_filter.1 he
    by_contra hne
    have hpos : 0 < res e := lt_of_le_of_ne (h.nonneg e hm) (Ne.symm hne)
    exact hD (hclosed _ _ hS ⟨e, hm, rfl, rfl, hpos⟩)
  rw [h.cut_identity S hs ht, hzero, sub_zero]

/-- Every minimum cut contains all vertices reached through residual edges. -/
theorem IsFlow.reached_subset (h : P.IsFlow cap res s t value) (S : V → Prop) [DecidablePred S]
    (hs : S s) (ht : ¬S t) (hmin : P.cutCapacity cap S = value) {v : V}
    (hv : Relation.ReflTransGen (P.Residual res) s v) : S v := by
  have hzero : ∑ e ∈ P.crossing S, res e = 0 := by
    have hid := h.cut_identity S hs ht
    linarith
  have hsat := (Finset.sum_eq_zero_iff_of_nonneg
    (fun e he => h.nonneg e (Finset.mem_filter.1 he).1)).1 hzero
  induction hv with
  | refl => exact hs
  | tail _ hstep ih =>
    obtain ⟨e, hm, rfl, rfl, hpos⟩ := hstep
    by_contra hD
    have he := hsat e (Finset.mem_filter.2 ⟨hm, ih, hD⟩)
    omega

section Augment

variable [DecidableEq ι]

/-- Moves `a` of the residual capacity of one edge to its partner. -/
def push (P : PairedEdges ι V) (a : ℤ) (res : ι → ℤ) (e : ι) : ι → ℤ :=
  fun x => res x - (if x = e then a else 0) + (if x = P.rev e then a else 0)

def pushAll (P : PairedEdges ι V) (a : ℤ) (res : ι → ℤ) (p : List ι) : ι → ℤ :=
  p.foldl (P.push a) res

/-- A walk from `s` to `t`, listed from its last edge to its first. -/
def IsWalk (P : PairedEdges ι V) (s : V) : List ι → V → Prop
  | [], t => s = t
  | e :: p, t => e ∈ P.E ∧ P.dst e = t ∧ P.IsWalk s p (P.src e)

variable {p : List ι}

omit [DecidableEq V] [DecidableEq ι] in
lemma IsWalk.mem (h : P.IsWalk s p t) : ∀ e ∈ p, e ∈ P.E := by
  induction p generalizing t with
  | nil => simp
  | cons e p ih =>
    intro x hx
    obtain rfl | hx := List.mem_cons.1 hx
    · exact h.1
    · exact ih h.2.2 x hx

lemma excess_push {e : ι} (he : e ∈ P.E) (a : ℤ) (v : V) :
    P.excess cap (P.push a res e) v = P.excess cap res v +
      (if P.src e = v then a else 0) - (if P.dst e = v then a else 0) := by
  have hterm : ∀ x, cap x - P.push a res e x =
      (cap x - res x) + (if x = e then a else 0) - (if x = P.rev e then a else 0) := by
    intro x
    unfold push
    ring
  unfold excess
  simp only [hterm, Finset.sum_sub_distrib, Finset.sum_add_distrib, Finset.sum_ite_eq',
    Finset.mem_filter, he, P.rev_mem e he, P.src_rev e he, true_and]

omit [DecidableEq V] in
lemma paired_push {e : ι} (he : e ∈ P.E) (a : ℤ) {x : ι} (hx : x ∈ P.E) :
    P.push a res e x + P.push a res e (P.rev x) = res x + res (P.rev x) := by
  have hiff : P.rev x = P.rev e ↔ x = e := by
    constructor
    · intro h
      rw [← P.rev_rev x hx, h, P.rev_rev e he]
    · rintro rfl
      rfl
  have hiff' : P.rev x = e ↔ x = P.rev e := by
    constructor
    · rintro rfl
      rw [P.rev_rev x hx]
    · rintro rfl
      rw [P.rev_rev e he]
  simp only [push, hiff, hiff']
  ring

lemma excess_pushAll (hp : P.IsWalk s p t) (a : ℤ) (v : V) :
    P.excess cap (P.pushAll a res p) v = P.excess cap res v +
      (if s = v then a else 0) - (if t = v then a else 0) := by
  induction p generalizing t res with
  | nil =>
    obtain rfl : s = t := hp
    simp [pushAll]
  | cons e p ih =>
    obtain ⟨he, rfl, hw⟩ := hp
    change P.excess cap (P.pushAll a (P.push a res e) p) v = _
    rw [ih hw, excess_push he]
    ring

omit [DecidableEq V] in
lemma paired_pushAll (hp : ∀ e ∈ p, e ∈ P.E) (a : ℤ) {x : ι} (hx : x ∈ P.E) :
    P.pushAll a res p x + P.pushAll a res p (P.rev x) = res x + res (P.rev x) := by
  induction p generalizing res with
  | nil => rfl
  | cons e p ih =>
    change P.pushAll a (P.push a res e) p x + P.pushAll a (P.push a res e) p (P.rev x) = _
    rw [ih (fun y hy => hp y (List.mem_cons_of_mem _ hy)),
      paired_push (hp e List.mem_cons_self) a hx]

omit [DecidableEq V] in
/-- Pushing along distinct edges that all have room leaves no edge overdrawn. -/
lemma pushAll_nonneg (a : ℤ) (ha : 0 ≤ a) (hnd : p.Nodup)
    (hroom : ∀ e ∈ p, a ≤ res e) {x : ι} (hx : 0 ≤ res x) : 0 ≤ P.pushAll a res p x := by
  induction p generalizing res with
  | nil => exact hx
  | cons e p ih =>
    obtain ⟨hnot, hnd'⟩ := List.nodup_cons.1 hnd
    have he := hroom e List.mem_cons_self
    have hpush : ∀ y, y ≠ e → res y ≤ P.push a res e y := by
      intro y hy
      simp only [push, if_neg hy]
      split <;> omega
    refine ih hnd' ?_ ?_
    · intro y hy
      have hne : y ≠ e := by
        rintro rfl
        exact hnot hy
      exact (hroom y (List.mem_cons_of_mem _ hy)).trans (hpush y hne)
    · by_cases hxe : x = e
      · subst hxe
        simp only [push, if_true]
        split <;> omega
      · exact hx.trans (hpush x hxe)

/-- Augmenting along a walk of distinct edges with room `a` adds `a` to the value. -/
theorem IsFlow.augment (h : P.IsFlow cap res s t value) (hst : s ≠ t)
    (hp : P.IsWalk s p t) (hnd : p.Nodup) {a : ℤ} (ha : 0 ≤ a) (hroom : ∀ e ∈ p, a ≤ res e) :
    P.IsFlow cap (P.pushAll a res p) s t (value + a) where
  nonneg := fun e he => pushAll_nonneg a ha hnd hroom (h.nonneg e he)
  paired := fun e he => by rw [paired_pushAll hp.mem a he, h.paired e he]
  conserved := fun v hs ht => by
    rw [excess_pushAll hp, h.conserved v hs ht, if_neg (Ne.symm hs), if_neg (Ne.symm ht)]
    ring
  value_eq := by
    rw [excess_pushAll hp, h.value_eq, if_pos rfl, if_neg (Ne.symm hst), sub_zero]

end Augment

end PairedEdges

end DevGraph.Lib
