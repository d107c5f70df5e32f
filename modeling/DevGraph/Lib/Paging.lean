import DevGraph.Lib.Except
import Mathlib.Data.List.Sort
import Mathlib.Order.RelClasses

/-!
# Pages of a sorted list

A page holds the first items behind a cursor, in the order of their keys. Pages that are fetched
one after another, each behind the last key of the one before, hold every item.
-/

namespace DevGraph.Lib

variable {β κ ε : Type}

/-- The items behind a cursor, in the order of their keys. -/
def behind (lt : κ → κ → Prop) [DecidableRel lt] (key : β → κ) (l : List β) (cursor : Option κ) :
    List β :=
  (l.filter fun b => cursor.all fun k => lt k (key b)).insertionSort fun a b => ¬ lt (key b) (key a)

/-- Fetches pages until one is empty. -/
def pages (fetch : Option κ → Except ε (List β)) (key : β → κ) :
    Nat → Option κ → Except ε (List β)
  | 0, _ => pure []
  | m + 1, cursor => do
    let found ← fetch cursor
    match found.getLast? with
    | none => pure []
    | some last => do
      let rest ← pages fetch key m (some (key last))
      return found ++ rest

/-- Fetches pages until one is short, as long as what was found does not exceed a capacity. -/
def fetchAll (fetch : Option κ → Except ε (List β)) (key : β → κ) (size capacity : Nat) (full : ε) :
    Nat → Option κ → List β → Except ε (List β)
  | 0, _, _ => throw full
  | m + 1, cursor, found => do
    let page ← fetch cursor
    if capacity < (found ++ page).length then throw full
    else if page.length < size then pure (found ++ page)
    else fetchAll fetch key size capacity full m (page.getLast?.map key) (found ++ page)

variable {fetch : Option κ → Except ε (List β)}

lemma mem_fetchAll {key : β → κ} {size capacity : Nat}
    {full : ε} {m : Nat} {cursor : Option κ} {found items : List β}
    (h : fetchAll fetch key size capacity full m cursor found = .ok items) {b : β}
    (hb : b ∈ items) :
    b ∈ found ∨ ∃ cursor page, fetch cursor = .ok page ∧ b ∈ page := by
  induction m generalizing cursor found with
  | zero => cases h
  | succ m ih =>
    rw [fetchAll, except_bind_ok] at h
    obtain ⟨page, hpage, h⟩ := h
    have hsplit : b ∈ found ++ page →
        b ∈ found ∨ ∃ cursor page, fetch cursor = .ok page ∧ b ∈ page :=
      fun hmem => (List.mem_append.1 hmem).imp_right fun hmem => ⟨cursor, page, hpage, hmem⟩
    split at h
    · cases h
    · split at h
      · cases h
        exact hsplit hb
      · obtain hfound | hlater := ih h
        · exact hsplit hfound
        · exact .inr hlater

section Order

variable (lt : κ → κ → Prop) [IsStrictTotalOrder κ lt] (key : β → κ)

lemma total_of_strict : Std.Total fun a b : β => ¬ lt (key b) (key a) := by
  constructor
  intro a b
  by_cases h : lt (key b) (key a)
  · exact .inr fun h' => irrefl_of lt _ (trans_of lt h h')
  · exact .inl h

lemma trans_of_strict : IsTrans β fun a b => ¬ lt (key b) (key a) := by
  constructor
  intro a b c hab hbc hca
  obtain h | h | h := trichotomous_of lt (key a) (key b)
  · exact hbc (trans_of lt hca h)
  · rw [h] at hca
    exact hbc hca
  · exact hab h

end Order

section Sorted

variable {lt : κ → κ → Prop} [DecidableRel lt] {key : β → κ} {l : List β} {cursor : Option κ}
  {n : Nat}

lemma mem_behind {b : β} :
    b ∈ behind lt key l cursor ↔ b ∈ l ∧ (cursor.all fun k => lt k (key b)) = true := by
  rw [behind, List.mem_insertionSort, List.mem_filter]

lemma length_behind_le : (behind lt key l cursor).length ≤ l.length := by
  rw [behind, List.length_insertionSort]
  exact List.length_filter_le _ _

lemma map_behind {γ : Type} {f : β → γ} {key' : γ → κ} (h : ∀ b ∈ l, key' (f b) = key b) :
    (behind lt key l cursor).map f = behind lt key' (l.map f) cursor := by
  have hfilter : (l.filter fun b => cursor.all fun k => lt k (key b)) =
      l.filter fun b => cursor.all fun k => lt k (key' (f b)) := by
    apply List.filter_congr
    intro b hb
    rw [h b hb]
  rw [behind, behind, List.filter_map, hfilter]
  apply List.map_insertionSort
  intro a ha b hb
  rw [h a (List.mem_filter.1 ha).1, h b (List.mem_filter.1 hb).1]

variable [IsStrictTotalOrder κ lt]

lemma sorted_behind (hkeys : (l.map key).Nodup) (cursor : Option κ) :
    (behind lt key l cursor).Pairwise fun a b => lt (key a) (key b) := by
  have htotal := total_of_strict lt key
  have htrans := trans_of_strict lt key
  have hsorted := List.pairwise_insertionSort (fun a b => ¬ lt (key b) (key a))
    (l.filter fun b => cursor.all fun k => lt k (key b))
  have hdistinct : (behind lt key l cursor).Pairwise fun a b => key a ≠ key b := by
    have hfilter : ((l.filter fun b => cursor.all fun k => lt k (key b)).map key).Nodup :=
      hkeys.sublist (List.filter_sublist.map key)
    exact List.pairwise_map.1 (((List.perm_insertionSort _ _).map key).nodup_iff.2 hfilter)
  apply (hsorted.and hdistinct).imp
  rintro a b ⟨hle, hne⟩
  obtain h | h | h := trichotomous_of lt (key a) (key b)
  · exact h
  · exact absurd h hne
  · exact absurd h hle

/-- Behind an item that is behind a cursor is less than behind the cursor. -/
lemma behind_of_behind {last b : β} (hlast : last ∈ behind lt key l cursor)
    (hb : b ∈ behind lt key l (some (key last))) : b ∈ behind lt key l cursor := by
  obtain ⟨hbl, hlt⟩ := mem_behind.1 hb
  obtain ⟨-, hcursor⟩ := mem_behind.1 hlast
  refine mem_behind.2 ⟨hbl, ?_⟩
  cases cursor with
  | none => rfl
  | some k =>
    simp only [Option.all_some, decide_eq_true_eq] at hlt hcursor ⊢
    exact trans_of lt hcursor hlt

/-- Behind the last item of a page is what the page left. -/
lemma behind_last (hkeys : (l.map key).Nodup) {last : β}
    (hlast : ((behind lt key l cursor).take n).getLast? = some last) :
    behind lt key l (some (key last)) = (behind lt key l cursor).drop n := by
  have hsorted : (behind lt key l cursor).Pairwise fun a b => lt (key a) (key b) :=
    sorted_behind hkeys cursor
  have hirrefl : ∀ {r : List β}, r.Pairwise (fun a b => lt (key a) (key b)) → r.Nodup := by
    intro r hr
    apply hr.imp
    rintro a b hlt rfl
    exact irrefl_of lt _ hlt
  have hlater : (behind lt key l (some (key last))).Pairwise fun a b => lt (key a) (key b) :=
    sorted_behind hkeys _
  have hdrop := hsorted.sublist (List.drop_sublist n _)
  have hsplit := hsorted
  rw [← List.take_append_drop n (behind lt key l cursor), List.pairwise_append] at hsplit
  have hperm : (behind lt key l (some (key last))).Perm ((behind lt key l cursor).drop n) := by
    rw [List.perm_ext_iff_of_nodup (hirrefl hlater) (hirrefl hdrop)]
    intro b
    constructor
    · intro hb
      have hmem := behind_of_behind (List.mem_of_mem_take (List.mem_of_getLast? hlast)) hb
      rw [← List.take_append_drop n (behind lt key l cursor), List.mem_append] at hmem
      refine hmem.resolve_left fun htake => ?_
      have hlt := (mem_behind.1 hb).2
      simp only [Option.all_some, decide_eq_true_eq] at hlt
      -- Nothing on the page is behind its last item.
      obtain ⟨init, hinit⟩ := List.getLast?_eq_some_iff.1 hlast
      rw [hinit] at htake
      rw [hinit, List.pairwise_append] at hsplit
      obtain hfirst | hself := List.mem_append.1 htake
      · exact irrefl_of lt _
          (trans_of lt hlt (hsplit.1.2.2 b hfirst last (List.mem_singleton_self _)))
      · rw [List.mem_singleton] at hself
        exact irrefl_of lt _ (hself ▸ hlt)
    · intro hb
      rw [mem_behind]
      refine ⟨(mem_behind.1 (List.mem_of_mem_drop hb)).1, ?_⟩
      simpa using hsplit.2.2 last (List.mem_of_getLast? hlast) b hb
  exact hperm.eq_of_pairwise (fun a b _ _ hab hba => absurd (trans_of lt hab hba) (irrefl_of lt _))
    hlater hdrop

theorem fetchAll_eq (hn : 0 < n) (hkeys : (l.map key).Nodup)
    (hfetch : ∀ cursor, (∀ k ∈ cursor, ∃ b ∈ l, key b = k) →
      fetch cursor = .ok ((behind lt key l cursor).take n)) {m capacity : Nat} {full : ε}
    (cursor : Option κ) (hcursor : ∀ k ∈ cursor, ∃ b ∈ l, key b = k) (found : List β)
    (hcapacity : found.length + (behind lt key l cursor).length ≤ capacity)
    (hm : (behind lt key l cursor).length < n * m) :
    fetchAll fetch key n capacity full m cursor found = .ok (found ++ behind lt key l cursor) := by
  induction m generalizing cursor found with
  | zero => omega
  | succ m ih =>
    have htake := List.length_take_le n (behind lt key l cursor)
    have hfits : ¬ capacity < (found ++ (behind lt key l cursor).take n).length := by
      rw [List.length_append, List.length_take]
      omega
    rw [fetchAll, hfetch cursor hcursor]
    simp only [bind, Except.bind, if_neg hfits]
    split
    · rename_i hshort
      rw [List.length_take] at hshort
      rw [List.take_of_length_le (by omega)]
      rfl
    · rename_i hlong
      rw [List.length_take] at hlong
      cases hlast : ((behind lt key l cursor).take n).getLast? with
      | none =>
        rw [List.getLast?_eq_none_iff, List.take_eq_nil_iff] at hlast
        obtain hzero | hnil := hlast
        · omega
        · rw [hnil, List.length_nil] at hlong
          omega
      | some last =>
        have hmem := mem_behind.1 (List.mem_of_mem_take (List.mem_of_getLast? hlast))
        have hrest := behind_last hkeys hlast
        rw [Option.map_some, ih (some (key last)) (fun k hk => ⟨last, hmem.1, Option.some.inj hk⟩),
          hrest, List.append_assoc, List.take_append_drop]
        · rw [hrest, List.length_append, List.length_take, List.length_drop]
          omega
        · rw [hrest, List.length_drop]
          rw [Nat.mul_succ] at hm
          omega

theorem mem_pages (hn : 0 < n) (hkeys : (l.map key).Nodup)
    (hfetch : ∀ cursor, (∀ k ∈ cursor, ∃ b ∈ l, key b = k) →
      fetch cursor = .ok ((behind lt key l cursor).take n)) {m : Nat}
    (cursor : Option κ) (hcursor : ∀ k ∈ cursor, ∃ b ∈ l, key b = k)
    (hm : (behind lt key l cursor).length < m) :
    ∃ items, pages fetch key m cursor = .ok items ∧
      ∀ b, b ∈ items ↔ b ∈ behind lt key l cursor := by
  induction m generalizing cursor with
  | zero => omega
  | succ m ih =>
    rw [pages, hfetch cursor hcursor]
    simp only [except_bind_ok, Except.ok.injEq, exists_eq_left']
    cases hlast : ((behind lt key l cursor).take n).getLast? with
    | none =>
      have hnil : behind lt key l cursor = [] := by
        obtain h | h := List.take_eq_nil_iff.1 (List.getLast?_eq_none_iff.1 hlast)
        · omega
        · exact h
      exact ⟨[], rfl, by simp [hnil]⟩
    | some last =>
      have hlater := behind_last hkeys hlast
      have hpage := List.mem_of_mem_take (List.mem_of_getLast? hlast)
      have hmem := mem_behind.1 hpage
      have hshorter : (behind lt key l (some (key last))).length < m := by
        have hpos := List.length_pos_of_mem hpage
        rw [hlater, List.length_drop]
        omega
      have hnext : ∀ k ∈ some (key last), ∃ b ∈ l, key b = k := by
        intro k hk
        cases hk
        exact ⟨last, hmem.1, rfl⟩
      obtain ⟨rest, hrest, hrestMem⟩ := ih (some (key last)) hnext hshorter
      refine ⟨(behind lt key l cursor).take n ++ rest, ?_, ?_⟩
      · simp only [except_bind_ok, except_pure_ok]
        exact ⟨rest, hrest, rfl⟩
      · intro b
        rw [List.mem_append, hrestMem, hlater, ← List.mem_append, List.take_append_drop]

end Sorted

end DevGraph.Lib
