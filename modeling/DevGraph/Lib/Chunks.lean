import Mathlib.Algebra.GroupWithZero.Nat
import Mathlib.Data.List.Basic
import Mathlib.Tactic.Common

/-!
# Greedy splitting

A list of weighted items is cut into parts that each hold as many of the next items as a limit
admits. There is one such split, whichever loop finds it, and it has few parts when no item is
heavy.
-/

namespace DevGraph.Lib

variable {α : Type} (w : α → Nat) (limit : Nat)

def weight (items : List α) : Nat := (items.map w).sum

lemma weight_cons (a : α) (items : List α) : weight w (a :: items) = w a + weight w items := by
  rw [weight, List.map_cons, List.sum_cons, weight]

lemma weight_append (items items' : List α) :
    weight w (items ++ items') = weight w items + weight w items' := by
  rw [weight, List.map_append, List.sum_append, weight, weight]

/-- The parts of a list, each of them full: the item after a part would not have fitted. -/
inductive Split : List α → List (List α) → Prop
  | nil : Split [] []
  | last {part : List α} (hne : part ≠ []) (hfit : weight w part ≤ limit) : Split part [part]
  | cons {part : List α} {a : α} {rest : List α} {parts : List (List α)} (hne : part ≠ [])
    (hfit : weight w part ≤ limit) (hfull : limit < weight w part + w a)
    (hrest : Split (a :: rest) parts) : Split (part ++ a :: rest) (part :: parts)

variable {w limit} {items : List α} {parts : List (List α)}

lemma Split.flatten (h : Split w limit items parts) : parts.flatten = items := by
  induction h with
  | nil => rfl
  | last _ _ => exact List.append_nil _
  | cons _ _ _ _ ih => rw [List.flatten_cons, ih]

lemma Split.weight_le (h : Split w limit items parts) : ∀ part ∈ parts, weight w part ≤ limit := by
  induction h with
  | nil => exact nofun
  | last _ hfit =>
    intro part hpart
    rwa [List.mem_singleton.1 hpart]
  | cons _ hfit _ _ ih =>
    intro part hpart
    obtain rfl | hpart := List.mem_cons.1 hpart
    · exact hfit
    · exact ih part hpart

/-- All parts but the last are nearly full. -/
lemma Split.length_mul_le {heaviest : Nat} (h : Split w limit items parts)
    (hw : ∀ a ∈ items, w a ≤ heaviest) :
    (parts.length - 1) * (limit + 1 - heaviest) ≤ weight w items := by
  induction h with
  | nil => simp
  | last _ _ => simp
  | @cons part a rest parts _ _ hfull hrest ih =>
    have hlater := ih fun b hb => hw b (List.mem_append_right _ hb)
    have ha : w a ≤ heaviest := hw a (List.mem_append_right _ List.mem_cons_self)
    have hsome : parts ≠ [] := by
      rintro rfl
      cases hrest.flatten
    obtain ⟨next, parts, rfl⟩ := List.exists_cons_of_ne_nil hsome
    rw [weight_append]
    simp only [List.length_cons, Nat.add_sub_cancel] at hlater ⊢
    rw [Nat.succ_mul]
    omega

/-- A full part cannot be the proper beginning of a part that fits. -/
lemma no_longer_part {part part' : List α} {a : α} {rest rest' : List α}
    (hsame : part ++ a :: rest = part' ++ rest') (hfull : limit < weight w part + w a)
    (hfit : weight w part' ≤ limit) : part'.length ≤ part.length := by
  by_contra hlonger
  have htake := congrArg (List.take part'.length) hsame
  rw [List.take_left, List.take_append, List.take_of_length_le (by omega)] at htake
  obtain ⟨n, hn⟩ : ∃ n, part'.length - part.length = n + 1 := ⟨part'.length - part.length - 1,
    by omega⟩
  rw [hn, List.take_succ_cons] at htake
  rw [← htake, weight_append, weight_cons] at hfit
  omega

lemma Split.cases (h : Split w limit items parts) :
    items = [] ∧ parts = [] ∨ items ≠ [] ∧ weight w items ≤ limit ∧ parts = [items] ∨
      ∃ part a rest parts', items = part ++ a :: rest ∧ parts = part :: parts' ∧
        weight w part ≤ limit ∧ limit < weight w part + w a ∧ Split w limit (a :: rest) parts' := by
  cases h with
  | nil => exact .inl ⟨rfl, rfl⟩
  | last hne hfit => exact .inr (.inl ⟨hne, hfit, rfl⟩)
  | cons _ hfit hfull hrest => exact .inr (.inr ⟨_, _, _, _, rfl, rfl, hfit, hfull, hrest⟩)

theorem Split.unique {parts' : List (List α)} (h : Split w limit items parts)
    (h' : Split w limit items parts') : parts = parts' := by
  induction h generalizing parts' with
  | nil =>
    obtain ⟨-, rfl⟩ | ⟨hne, -⟩ | ⟨part, a, rest, tail, hitems, -⟩ := h'.cases
    · rfl
    · exact absurd rfl hne
    · simp at hitems
  | @last part hne hfit =>
    obtain ⟨hnil, -⟩ | ⟨-, -, rfl⟩ | ⟨part', a, rest, tail, hitems, -, -, hfull, -⟩ := h'.cases
    · exact absurd hnil hne
    · rfl
    · have hlong := no_longer_part
        (hitems.symm.trans (List.append_nil _).symm) hfull hfit
      rw [hitems, List.length_append, List.length_cons] at hlong
      omega
  | @cons part a rest parts hne hfit hfull hrest ih =>
    rcases h'.cases with ⟨hnil, -⟩ | ⟨-, hfit', -⟩ | ⟨part', b, rest', tail, hitems, rfl, hfit',
      hfull', hrest'⟩
    · simp at hnil
    · have hlong := no_longer_part (List.append_nil _).symm hfull hfit'
      rw [List.length_append, List.length_cons] at hlong
      omega
    · have hshort := no_longer_part hitems.symm hfull' hfit
      have hlong := no_longer_part hitems hfull hfit'
      obtain ⟨rfl, htail⟩ := List.append_inj hitems (by omega)
      rw [htail] at ih
      rw [ih hrest']

def splitLoop (w : α → Nat) (limit : Nat) :
    List α → List (List α) → List α → Nat → List (List α)
  | [], parts, part, _ => if part = [] then parts else parts ++ [part]
  | a :: rest, parts, part, size =>
    if size + w a > limit then splitLoop w limit rest (parts ++ [part]) [a] (w a)
    else splitLoop w limit rest parts (part ++ [a]) (size + w a)

lemma splitLoop_spec (hw : ∀ a ∈ items, w a ≤ limit) (parts : List (List α)) (part : List α)
    (hfit : weight w part ≤ limit) :
    ∃ rest, splitLoop w limit items parts part (weight w part) = parts ++ rest ∧
      Split w limit (part ++ items) rest := by
  induction items generalizing parts part with
  | nil =>
    rw [splitLoop, List.append_nil]
    split
    · rename_i hpart
      exact ⟨[], (List.append_nil _).symm, hpart ▸ .nil⟩
    · exact ⟨[part], rfl, .last ‹_› hfit⟩
  | cons a items ih =>
    have ha := hw a List.mem_cons_self
    have hsingle : weight w [a] = w a := by simp [weight]
    have hw' := fun b hb => hw b (List.mem_cons_of_mem a hb)
    rw [splitLoop]
    split
    · rename_i hfull
      obtain ⟨rest, hloop, hsplit⟩ := ih hw' (parts ++ [part]) [a] (hsingle ▸ ha)
      have hne : part ≠ [] := by
        rintro rfl
        simp only [weight, List.map_nil, List.sum_nil] at hfull
        omega
      refine ⟨part :: rest, ?_, .cons hne hfit hfull hsplit⟩
      rw [← hsingle, hloop, List.append_assoc]
      rfl
    · rename_i hfits
      have hsum : weight w (part ++ [a]) = weight w part + w a := by rw [weight_append, hsingle]
      obtain ⟨rest, hloop, hsplit⟩ := ih hw' parts (part ++ [a]) (by omega)
      refine ⟨rest, ?_, ?_⟩
      · rw [← hsum, hloop]
      · simpa using hsplit

theorem splitLoop_split (hw : ∀ a ∈ items, w a ≤ limit) :
    Split w limit items (splitLoop w limit items [] [] 0) := by
  obtain ⟨rest, hloop, hsplit⟩ := splitLoop_spec hw [] [] (Nat.zero_le _)
  have hloop : splitLoop w limit items [] [] 0 = rest := hloop
  rw [hloop]
  exact hsplit

end DevGraph.Lib
