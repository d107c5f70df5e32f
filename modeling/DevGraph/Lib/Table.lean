import Mathlib.Algebra.BigOperators.Group.List.Basic
import Mathlib.Algebra.GroupWithZero.Nat
import Mathlib.Data.List.AList
import Mathlib.Tactic.SplitIfs

/-!
# Tables

Association lists with the operations of a hash map: entries are inserted, removed by their key or
dropped by their value, and weighed.
-/

namespace DevGraph.Lib

abbrev Table (κ α : Type) := AList fun _ : κ => α

namespace Table

variable {κ α : Type}

def values (t : Table κ α) : List α := t.entries.map Sigma.snd

/-- Drops the entries whose value does not pass. -/
def retain (p : α → Bool) (t : Table κ α) : Table κ α :=
  ⟨t.entries.filter fun e => p e.2, t.nodupKeys.sublist List.filter_sublist⟩

def keysOf (p : α → Bool) (t : Table κ α) : List κ :=
  (t.entries.filter fun e => p e.2).map Sigma.fst

def total (f : α → Nat) (t : Table κ α) : Nat := (t.values.map f).sum

def size (t : Table κ α) : Nat := t.total fun _ => 1

/-- The values that are kept and those that are dropped. -/
lemma total_retain_add (f : α → Nat) (p : α → Bool) (t : Table κ α) :
    (t.retain p).total f + (t.retain fun v => !p v).total f = t.total f := by
  have hperm := (List.filter_append_perm (fun e => p e.2) t.entries).map (f ∘ Sigma.snd)
  simp only [total, values, retain, List.map_map, ← List.sum_append, ← List.map_append]
  exact hperm.sum_eq

lemma length_keysOf (p : α → Bool) (t : Table κ α) : (t.keysOf p).length = (t.retain p).size := by
  simp [keysOf, retain, size, total, values, Function.comp_def]

variable [DecidableEq κ]

def insert (t : Table κ α) (k : κ) (v : α) : Table κ α := AList.insert k v t

def erase (t : Table κ α) (k : κ) : Table κ α := AList.erase k t

def insertAll (keys : List κ) (v : α) (t : Table κ α) : Table κ α :=
  keys.foldl (fun t k => t.insert k v) t

lemma lookup_insert (t : Table κ α) (k k' : κ) (v : α) :
    (t.insert k v).lookup k' = if k' = k then some v else t.lookup k' := by
  unfold insert
  split_ifs with h
  · rw [h]
    exact AList.lookup_insert t
  · exact AList.lookup_insert_ne h

lemma lookup_erase (t : Table κ α) (k k' : κ) :
    (t.erase k).lookup k' = if k' = k then none else t.lookup k' := by
  unfold erase
  split_ifs with h
  · rw [h]
    exact AList.lookup_erase k t
  · exact AList.lookup_erase_ne h

variable {t : Table κ α}

lemma mem_entries {k : κ} {v : α} : ⟨k, v⟩ ∈ t.entries ↔ t.lookup k = some v :=
  AList.mem_lookup_iff.symm

lemma mem_keysOf {p : α → Bool} {k : κ} :
    k ∈ t.keysOf p ↔ ∃ v, t.lookup k = some v ∧ p v = true := by
  simp only [keysOf, List.mem_map, List.mem_filter, ← mem_entries]
  constructor
  · rintro ⟨⟨k, v⟩, ⟨hmem, hp⟩, rfl⟩
    exact ⟨v, hmem, hp⟩
  · rintro ⟨v, hmem, hp⟩
    exact ⟨⟨k, v⟩, ⟨hmem, hp⟩, rfl⟩

lemma lookup_retain (t : Table κ α) (p : α → Bool) (k : κ) :
    (t.retain p).lookup k = (t.lookup k).filter p := by
  apply Option.ext
  intro v
  rw [← mem_entries, Option.filter_eq_some_iff, ← mem_entries]
  exact List.mem_filter

/-! An entry that is found after a change was there before it, or was put there. -/

lemma of_insert {k k' : κ} {v v' : α} (h : (t.insert k v).lookup k' = some v') :
    k' = k ∧ v' = v ∨ k' ≠ k ∧ t.lookup k' = some v' := by
  rw [lookup_insert] at h
  split_ifs at h with hsame
  · exact .inl ⟨hsame, (Option.some.inj h).symm⟩
  · exact .inr ⟨hsame, h⟩

lemma of_erase {k k' : κ} {v : α} (h : (t.erase k).lookup k' = some v) :
    k' ≠ k ∧ t.lookup k' = some v := by
  rw [lookup_erase] at h
  split_ifs at h with hsame
  exact ⟨hsame, h⟩

lemma of_retain {p : α → Bool} {k : κ} {v : α}
    (h : (t.retain p).lookup k = some v) : t.lookup k = some v ∧ p v = true :=
  Option.filter_eq_some_iff.1 ((lookup_retain t p k).symm.trans h)

lemma lookup_insertAll (keys : List κ) (v : α) (t : Table κ α) (k : κ) :
    (insertAll keys v t).lookup k = if k ∈ keys then some v else t.lookup k := by
  induction keys generalizing t with
  | nil => simp [insertAll]
  | cons key keys ih =>
    rw [insertAll, List.foldl_cons, ← insertAll, ih, lookup_insert]
    by_cases hmem : k ∈ keys
    · simp [hmem]
    · by_cases heq : k = key <;> simp [hmem, heq]

lemma total_erase (f : α → Nat) (t : Table κ α) (k : κ) :
    (t.erase k).total f + (t.lookup k).elim 0 f = t.total f := by
  have hlist : ∀ l : List (Sigma fun _ : κ => α),
      ((l.kerase k).map fun e => f e.2).sum + (l.dlookup k).elim 0 f =
        (l.map fun e => f e.2).sum := by
    intro l
    induction l with
    | nil => rfl
    | cons e l ih =>
      obtain ⟨key, v⟩ := e
      by_cases h : k = key
      · subst h
        simp [Nat.add_comm]
      · rw [List.kerase_cons_ne h, List.dlookup_cons_ne _ _ h, List.map_cons, List.sum_cons,
          List.map_cons, List.sum_cons, ← ih]
        omega
  simp only [total, values, List.map_map]
  exact hlist t.entries

lemma total_insert (f : α → Nat) (t : Table κ α) (k : κ) (v : α) :
    (t.insert k v).total f + (t.lookup k).elim 0 f = t.total f + f v := by
  have hinsert : (t.insert k v).total f = f v + (t.erase k).total f := by
    simp only [total, values, insert, AList.entries_insert, List.map_cons, List.sum_cons]
    rfl
  rw [hinsert, ← total_erase f t k]
  omega

lemma total_insertAll_le (f : α → Nat) (keys : List κ) (v : α) (t : Table κ α) :
    (insertAll keys v t).total f ≤ t.total f + keys.length * f v := by
  induction keys generalizing t with
  | nil => simp [insertAll]
  | cons key keys ih =>
    rw [insertAll, List.foldl_cons, ← insertAll]
    have hinsert := total_insert f t key v
    have hrest := ih (t.insert key v)
    rw [List.length_cons, Nat.succ_mul]
    omega

lemma size_insert {k : κ} (h : t.lookup k = none) (v : α) :
    (t.insert k v).size = t.size + 1 := by
  have htotal := total_insert (fun _ => 1) t k v
  rw [h] at htotal
  exact htotal

end Table

end DevGraph.Lib
