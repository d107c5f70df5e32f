import Mathlib.Data.List.Forall2

/-!
# Successful computations in `Except` and `Option`

Inversion of a computation that returned: what each of its steps returned.
-/

namespace DevGraph.Lib

universe u

variable {ε : Type*} {α β σ : Type u}

variable {f : α → Except ε β}

lemma except_bind_ok {x : Except ε α} {b : β} :
    (x >>= f) = .ok b ↔ ∃ a, x = .ok a ∧ f a = .ok b := by
  cases x with
  | error e => simp [bind, Except.bind]
  | ok a => simp [bind, Except.bind]

@[simp] lemma except_pure_ok {a b : α} : (pure a : Except ε α) = .ok b ↔ a = b := by
  simp [pure, Except.pure]

lemma exists_ok_of {r : Except ε α} {P : α → Prop} [DecidablePred P]
    (h : r.toOption.any P = true) : ∃ a, r = .ok a ∧ P a := by
  cases r with
  | error e => cases h
  | ok a => exact ⟨a, rfl, of_decide_eq_true h⟩

lemma option_bind_some {x : Option α} {f : α → Option β} {b : β} :
    (x >>= f) = some b ↔ ∃ a, x = some a ∧ f a = some b :=
  Option.bind_eq_some_iff

variable {r : List β}

lemma mapM_ok {l : List α} (h : l.mapM f = .ok r) :
    List.Forall₂ (fun a b => f a = .ok b) l r := by
  induction l generalizing r with
  | nil =>
    simp only [List.mapM_nil, except_pure_ok] at h
    exact h ▸ List.Forall₂.nil
  | cons a l ih =>
    simp only [List.mapM_cons, except_bind_ok, except_pure_ok] at h
    obtain ⟨b, hb, bs, hbs, rfl⟩ := h
    exact List.Forall₂.cons hb (ih hbs)

lemma forall₂_mem {R : α → β → Prop} {l : List α} (h : List.Forall₂ R l r) {b : β}
    (hb : b ∈ r) : ∃ a ∈ l, R a b := by
  induction h with
  | nil => cases hb
  | cons hab _ ih =>
    obtain rfl | hb := List.mem_cons.1 hb
    · exact ⟨_, List.mem_cons_self, hab⟩
    · obtain ⟨a, ha, hab⟩ := ih hb
      exact ⟨a, List.mem_cons_of_mem _ ha, hab⟩

lemma mem_mapM {l : List α} (h : l.mapM f = .ok r) {b : β}
    (hb : b ∈ r) : ∃ a ∈ l, f a = .ok b :=
  forall₂_mem (mapM_ok h) hb

lemma mapM_of_mem {l : List α} (h : l.mapM f = .ok r) {a : α}
    (ha : a ∈ l) : ∃ b ∈ r, f a = .ok b :=
  forall₂_mem (mapM_ok h).flip ha

/-- A step that keeps its argument keeps the whole list. -/
lemma map_of_mapM {g : β → α} (hg : ∀ a b, f a = .ok b → g b = a)
    {l : List α} (h : l.mapM f = .ok r) : r.map g = l := by
  have hall := mapM_ok h
  clear h
  induction hall with
  | nil => rfl
  | cons hab _ ih => rw [List.map_cons, ih, hg _ _ hab]

lemma mapM_exists {l : List α} (h : ∀ a ∈ l, ∃ b, f a = .ok b) :
    ∃ r, l.mapM f = .ok r := by
  induction l with
  | nil => exact ⟨[], rfl⟩
  | cons a l ih =>
    obtain ⟨b, hb⟩ := h a List.mem_cons_self
    obtain ⟨r, hr⟩ := ih fun c hc => h c (List.mem_cons_of_mem _ hc)
    refine ⟨b :: r, ?_⟩
    simp only [List.mapM_cons, except_bind_ok, except_pure_ok]
    exact ⟨b, hb, r, hr, rfl⟩

lemma mapM_eq_map {g : α → β} {l : List α} (h : ∀ a ∈ l, f a = .ok (g a)) :
    l.mapM f = .ok (l.map g) := by
  induction l with
  | nil => rfl
  | cons a l ih =>
    simp only [List.mapM_cons, except_bind_ok, except_pure_ok]
    exact ⟨g a, h a List.mem_cons_self, l.map g, ih fun b hb => h b (List.mem_cons_of_mem _ hb),
      rfl⟩

lemma anyM_map_eq {f : β → Except ε Bool} {g : α → β} {p : α → Bool} {l : List α}
    (h : ∀ a ∈ l, f (g a) = .ok (p a)) : (l.map g).anyM f = .ok (l.any p) := by
  induction l with
  | nil => rfl
  | cons a l ih =>
    rw [List.map_cons, List.anyM, h a List.mem_cons_self, List.any_cons]
    cases hp : p a with
    | true => rfl
    | false => exact ih fun b hb => h b (List.mem_cons_of_mem _ hb)

lemma filterAuxM_eq {α : Type} {f : α → Except ε Bool} {p : α → Bool} {l : List α}
    (h : ∀ a ∈ l, f a = .ok (p a)) (taken : List α) :
    l.filterAuxM f taken = .ok ((l.filter p).reverse ++ taken) := by
  induction l generalizing taken with
  | nil => rfl
  | cons a l ih =>
    rw [List.filterAuxM, h a List.mem_cons_self]
    have hrest := ih fun b hb => h b (List.mem_cons_of_mem _ hb)
    cases hp : p a with
    | true =>
      rw [List.filter_cons_of_pos hp, List.reverse_cons, List.append_assoc]
      exact hrest (a :: taken)
    | false =>
      rw [List.filter_cons_of_neg (by simp [hp])]
      exact hrest taken

lemma filterM_eq_filter {α : Type} {f : α → Except ε Bool} {p : α → Bool} {l : List α}
    (h : ∀ a ∈ l, f a = .ok (p a)) : l.filterM f = .ok (l.filter p) := by
  rw [List.filterM, filterAuxM_eq h]
  simp [bind, Except.bind, pure, Except.pure]

lemma forM_eq_ok {f : α → Except ε PUnit} {l : List α} (h : ∀ a ∈ l, f a = .ok ⟨⟩) :
    l.forM f = .ok ⟨⟩ := by
  induction l with
  | nil => rfl
  | cons a l ih =>
    change (f a >>= fun _ => l.forM f) = _
    rw [h a List.mem_cons_self]
    exact ih fun b hb => h b (List.mem_cons_of_mem _ hb)

lemma forM_ok {f : α → Except ε PUnit} {l : List α} (h : l.forM f = .ok ⟨⟩) :
    ∀ a ∈ l, f a = .ok ⟨⟩ := by
  induction l with
  | nil => simp
  | cons a l ih =>
    change (f a >>= fun _ => l.forM f) = _ at h
    rw [except_bind_ok] at h
    obtain ⟨_, ha, hrest⟩ := h
    exact List.forall_mem_cons.2 ⟨ha, ih hrest⟩

lemma mapError_ok {δ : Type*} {x : Except ε α} {g : ε → δ} {a : α} :
    x.mapError g = .ok a ↔ x = .ok a := by
  cases x <;> simp [Except.mapError]

lemma filterAuxM_ok {α : Type} {f : α → Except ε Bool} {l taken r : List α}
    (h : l.filterAuxM f taken = .ok r) : ∀ a ∈ l, ∃ b, f a = .ok b := by
  induction l generalizing taken with
  | nil => simp
  | cons a l ih =>
    rw [List.filterAuxM, except_bind_ok] at h
    obtain ⟨b, hb, h⟩ := h
    exact List.forall_mem_cons.2 ⟨⟨b, hb⟩, ih h⟩

open Classical in
lemma filterM_of_exists {α : Type} {f : α → Except ε Bool} {l : List α}
    (h : ∀ a ∈ l, ∃ b, f a = .ok b) : l.filterM f = .ok (l.filter fun a => f a = .ok true) := by
  apply filterM_eq_filter
  intro a ha
  obtain ⟨b, hb⟩ := h a ha
  cases b <;> simp [hb]

lemma mem_filterM {α : Type} {f : α → Except ε Bool} {l r : List α} (h : l.filterM f = .ok r)
    (a : α) : a ∈ r ↔ a ∈ l ∧ f a = .ok true := by
  have hall := h
  rw [List.filterM, except_bind_ok] at hall
  obtain ⟨taken, htaken, -⟩ := hall
  rw [filterM_of_exists (filterAuxM_ok htaken)] at h
  cases h
  simp

lemma filterM_exists {α : Type} {f : α → Except ε Bool} {l : List α}
    (h : ∀ a ∈ l, ∃ b, f a = .ok b) : ∃ r, l.filterM f = .ok r :=
  ⟨_, filterM_of_exists h⟩

lemma anyM_ok {f : α → Except ε Bool} {l : List α} (h : l.anyM f = .ok true) :
    ∃ a ∈ l, f a = .ok true := by
  induction l with
  | nil => cases h
  | cons a l ih =>
    rw [List.anyM, except_bind_ok] at h
    obtain ⟨found, ha, h⟩ := h
    cases found with
    | true => exact ⟨a, List.mem_cons_self, ha⟩
    | false =>
      obtain ⟨b, hb, hfound⟩ := ih h
      exact ⟨b, List.mem_cons_of_mem _ hb, hfound⟩

lemma anyM_of_mem {f : α → Except ε Bool} {l : List α} (h : ∀ a ∈ l, ∃ b, f a = .ok b) {a : α}
    (ha : a ∈ l) (hfound : f a = .ok true) : l.anyM f = .ok true := by
  induction l with
  | nil => cases ha
  | cons b l ih =>
    obtain ⟨found, hb⟩ := h b List.mem_cons_self
    rw [List.anyM, hb]
    cases found with
    | true => rfl
    | false =>
      obtain rfl | hrest := List.mem_cons.1 ha
      · rw [hb] at hfound
        cases hfound
      · exact ih (fun c hc => h c (List.mem_cons_of_mem _ hc)) hrest

/-- A loop returns if each of its steps does, from a state that has what the steps keep. -/
lemma foldlM_total {f : σ → α → Except ε σ} (P : List α → σ → Prop) {l : List α}
    (hstep : ∀ seen s, ∀ a ∈ l, P seen s → ∃ s', f s a = .ok s' ∧ P (seen ++ [a]) s')
    {s : σ} (h : P [] s) : ∃ s', l.foldlM f s = .ok s' ∧ P l s' := by
  suffices hfrom : ∀ rest seen s, (∀ a ∈ rest, a ∈ l) → P seen s →
      ∃ s', rest.foldlM f s = .ok s' ∧ P (seen ++ rest) s' from
    hfrom l [] s (fun _ ha => ha) h
  intro rest
  induction rest with
  | nil =>
    intro seen s _ h
    exact ⟨s, rfl, by rwa [List.append_nil]⟩
  | cons a rest ih =>
    intro seen s hmem h
    obtain ⟨s1, h1, hp⟩ := hstep seen s a (hmem a List.mem_cons_self) h
    rcases ih (seen ++ [a]) s1 (fun b hb => hmem b (List.mem_cons_of_mem _ hb)) hp with
      ⟨s2, h2, hp2⟩
    refine ⟨s2, ?_, ?_⟩
    · rw [List.foldlM_cons, h1]
      exact h2
    · rwa [List.append_assoc] at hp2

/-- A loop that returned is the loop over what its steps returned. -/
lemma foldlM_ok {f : σ → α → Except ε σ} {g : σ → α → σ} {p : α → Prop}
    (hf : ∀ s a s', f s a = .ok s' → p a ∧ s' = g s a) {l : List α} {s s' : σ}
    (h : l.foldlM f s = .ok s') : (∀ a ∈ l, p a) ∧ s' = l.foldl g s := by
  induction l generalizing s with
  | nil =>
    simp only [List.foldlM_nil, except_pure_ok] at h
    exact ⟨by simp, h.symm⟩
  | cons a l ih =>
    simp only [List.foldlM_cons, except_bind_ok] at h
    obtain ⟨s1, h1, h2⟩ := h
    obtain ⟨hp, rfl⟩ := hf s a s1 h1
    obtain ⟨hall, heq⟩ := ih h2
    exact ⟨List.forall_mem_cons.2 ⟨hp, hall⟩, heq⟩

/-- A scan that raises at a vetoed element and notes the others. -/
lemma foldlM_scan {f : Bool → α → Except ε Bool} {veto : α → Prop} [DecidablePred veto]
    {note : α → Bool} {e : ε}
    (hf : ∀ noted a, f noted a = if veto a then .error e else .ok (noted || note a))
    {l : List α} {noted found : Bool} :
    l.foldlM f noted = .ok found ↔ (∀ a ∈ l, ¬ veto a) ∧ found = (noted || l.any note) := by
  induction l generalizing noted with
  | nil => simp [pure, Except.pure, eq_comm]
  | cons a l ih =>
    rw [List.foldlM_cons, hf]
    by_cases ha : veto a
    · simp [ha, bind, Except.bind]
    · simp only [if_neg ha, bind, Except.bind, ih, List.forall_mem_cons, List.any_cons,
        Bool.or_assoc]
      tauto

end DevGraph.Lib
