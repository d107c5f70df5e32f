import DevGraph.Lib.GraphStore
import Mathlib.Data.List.FinRange

/-!
# Queries over a property graph

The truth values of a query, of which one is unknown, and the matches of its patterns. Parallel
relationships are different matches, and a match of a path takes no relationship twice.
-/

namespace DevGraph.Lib

inductive Truth
  | yes | no | unknown
  deriving DecidableEq

namespace Truth

variable {α : Type}

def of (p : Prop) [Decidable p] : Truth := if p then yes else no

def and : Truth → Truth → Truth
  | yes, t => t
  | no, _ => no
  | unknown, no => no
  | unknown, _ => unknown

def or : Truth → Truth → Truth
  | yes, _ => yes
  | no, t => t
  | unknown, yes => yes
  | unknown, _ => unknown

def not : Truth → Truth
  | yes => no
  | no => yes
  | unknown => unknown

/-- Equality is unknown when a side is null. -/
def equal [DecidableEq α] : Option α → Option α → Truth
  | some a, some b => of (a = b)
  | _, _ => unknown

def all (l : List α) (p : α → Truth) : Truth := l.foldr (fun a t => (p a).and t) yes

def any (l : List α) (p : α → Truth) : Truth := l.foldr (fun a t => (p a).or t) no

def isIn [DecidableEq α] (a : Option α) (l : List α) : Truth := any l fun b => equal a (some b)

/-- Whether a match passes a filter, which an unknown value does not. -/
def exist (rows : List α) (filter : α → Truth) : Truth := of (∃ row ∈ rows, filter row = yes)

@[simp] lemma of_eq_yes {p : Prop} [Decidable p] : of p = yes ↔ p := by
  unfold of
  split <;> simp_all

@[simp] lemma of_eq_no {p : Prop} [Decidable p] : of p = no ↔ ¬ p := by
  unfold of
  split <;> simp_all

@[simp] lemma and_eq_yes {a b : Truth} : a.and b = yes ↔ a = yes ∧ b = yes := by
  cases a <;> cases b <;> simp [and]

@[simp] lemma or_eq_yes {a b : Truth} : a.or b = yes ↔ a = yes ∨ b = yes := by
  cases a <;> cases b <;> simp [or]

@[simp] lemma or_eq_no {a b : Truth} : a.or b = no ↔ a = no ∧ b = no := by
  cases a <;> cases b <;> simp [or]

@[simp] lemma not_eq_yes {a : Truth} : a.not = yes ↔ a = no := by
  cases a <;> simp [not]

@[simp] lemma equal_some [DecidableEq α] {a b : α} : equal (some a) (some b) = of (a = b) := rfl

lemma equal_eq_yes [DecidableEq α] {a : Option α} {b : α} :
    equal a (some b) = yes ↔ a = some b := by
  cases a <;> simp [equal]

variable {l : List α}

variable {p : α → Truth}

@[simp] lemma all_eq_yes : all l p = yes ↔ ∀ a ∈ l, p a = yes := by
  induction l with
  | nil => simp [all]
  | cons a l ih =>
    rw [List.forall_mem_cons, ← ih]
    exact and_eq_yes

@[simp] lemma any_eq_yes : any l p = yes ↔ ∃ a ∈ l, p a = yes := by
  induction l with
  | nil => simp [any]
  | cons a l ih =>
    rw [List.exists_mem_cons_iff, ← ih]
    exact or_eq_yes

lemma any_eq_no : any l p = no ↔ ∀ a ∈ l, p a = no := by
  induction l with
  | nil => simp [any]
  | cons a l ih =>
    rw [List.forall_mem_cons, ← ih]
    exact or_eq_no

@[simp] lemma isIn_some_eq_yes [DecidableEq α] {a : α} :
    isIn (some a) l = yes ↔ a ∈ l := by
  simp [isIn]

@[simp] lemma isIn_some_eq_no [DecidableEq α] {a : α} :
    isIn (some a) l = no ↔ a ∉ l := by
  simp only [isIn, any_eq_no, equal_some, of_eq_no]
  exact ⟨fun h ha => h a ha rfl, fun h b hb heq => h (heq ▸ hb)⟩

@[simp] lemma exist_eq_yes {rows : List α} {filter : α → Truth} :
    exist rows filter = yes ↔ ∃ row ∈ rows, filter row = yes := of_eq_yes

@[simp] lemma exist_eq_no {rows : List α} {filter : α → Truth} :
    exist rows filter = no ↔ ∀ row ∈ rows, filter row ≠ yes := by
  simp [exist]

end Truth

section Matches

variable {κ ρ π : Type} [DecidableEq κ] [DecidableEq ρ] (edges : List (Edge κ ρ π))

def into (r : ρ) (node : κ) : List (Fin edges.length) :=
  (List.finRange edges.length).filter fun i =>
    (edges.get i).relationship = r && (edges.get i).target = node

/-- The paths of at most so many relationships that end in a node and take none of them twice,
each from its start. -/
def trails (r : ρ) : Nat → κ → List (List (Fin edges.length))
  | 0, _ => [[]]
  | n + 1, node => [] :: (into edges r node).flatMap fun i =>
      ((trails r n (edges.get i).source).filter (i ∉ ·)).map (· ++ [i])

def trailStart (node : κ) : List (Fin edges.length) → κ
  | [] => node
  | i :: _ => (edges.get i).source

def trailNodes (node : κ) (trail : List (Fin edges.length)) : List κ :=
  trailStart edges node trail :: trail.map fun i => (edges.get i).target

variable {edges}

lemma mem_into {r : ρ} {node : κ} {i : Fin edges.length} :
    i ∈ into edges r node ↔ (edges.get i).relationship = r ∧ (edges.get i).target = node := by
  simp [into]

lemma map_into (r : ρ) (node : κ) : (into edges r node).map edges.get =
    edges.filter fun e => e.relationship = r && e.target = node := by
  have hedges : (List.finRange edges.length).map edges.get = edges :=
    List.map_getElem_finRange edges
  conv_rhs => rw [← hedges, List.filter_map]
  rfl

lemma mem_trails_succ {r : ρ} {n : Nat} {node : κ} {trail : List (Fin edges.length)} :
    trail ∈ trails edges r (n + 1) node ↔ trail = [] ∨ ∃ i ∈ into edges r node,
      ∃ above ∈ trails edges r n (edges.get i).source, i ∉ above ∧ trail = above ++ [i] := by
  simp only [trails, List.mem_cons, List.mem_flatMap, List.mem_map, List.mem_filter,
    decide_eq_true_eq, and_assoc, eq_comm (b := trail)]

omit [DecidableEq κ] [DecidableEq ρ] in
lemma trailStart_snoc (node : κ) (above : List (Fin edges.length)) (i : Fin edges.length) :
    trailStart edges node (above ++ [i]) = trailStart edges (edges.get i).source above := by
  cases above <;> rfl

omit [DecidableEq κ] [DecidableEq ρ] in
lemma trailNodes_snoc {node : κ} (above : List (Fin edges.length)) {i : Fin edges.length}
    (h : (edges.get i).target = node) :
    trailNodes edges node (above ++ [i]) =
      trailNodes edges (edges.get i).source above ++ [node] := by
  simp [trailNodes, trailStart_snoc, ← h]

end Matches

end DevGraph.Lib
