import DevGraph.Proofs.Runs

/-!
# The hierarchy and the order of Work

Over every run, an item has at most one parent or at most one Arena but not both, parents are of the
allowed kinds, and no chain of parents, dependencies or blockers leads back to its start.
-/

namespace DevGraph.Proofs

open Lib Work

variable {r : Relationship}

variable {sha256 : String → String} {s s' : Store}

def UniqueInto (r : Relationship) (s : Store) : Prop :=
  ∀ e ∈ s.edges, ∀ e' ∈ s.edges, e.relationship = r → e'.relationship = r →
    e.target = e'.target → e = e'

structure Placed (s : Store) : Prop where
  parent_unique : UniqueInto .hasChild s
  arena_unique : UniqueInto .containsWork s
  parent_kind : ∀ e ∈ s.edges, e.relationship = .hasChild → e.source.1 ∈ parents e.target.1
  arena_kind : ∀ e ∈ s.edges, e.relationship = .containsWork →
    e.source.1 = .arena ∧ e.target.1 ∈ directKinds
  exclusive : ∀ e ∈ s.edges, ∀ e' ∈ s.edges, e.relationship = .hasChild →
    e'.relationship = .containsWork → e.target ≠ e'.target

lemma UniqueInto.of_unchanged (h : UniqueInto r s) (hsame : Unchanged r s s') :
    UniqueInto r s' := by
  intro e he e' he' hr hr' htarget
  exact h e ((hsame e hr).1 he) e' ((hsame e' hr').1 he') hr hr' htarget

/-- All edges into a key are replaced by at most one. -/
lemma UniqueInto.replace {key : Key} {new : Option EdgeRecord}
    (h : UniqueInto r s) (hnew : ∀ e ∈ new, e.target = key)
    (hedges : ∀ e : EdgeRecord, e.relationship = r →
      (e ∈ s'.edges → e ∈ s.edges ∧ e.target ≠ key ∨ e ∈ new)) : UniqueInto r s' := by
  intro e he e' he' hr hr' htarget
  obtain ⟨hmem, hne⟩ | hmem := hedges e hr he
  · obtain ⟨hmem', -⟩ | hmem' := hedges e' hr' he'
    · exact h e hmem e' hmem' hr hr' htarget
    · exact absurd (htarget.trans (hnew e' hmem')) hne
  · obtain ⟨-, hne'⟩ | hmem' := hedges e' hr' he'
    · exact absurd (htarget.symm.trans (hnew e hmem)) hne'
    · exact Option.mem_unique hmem hmem'

lemma Placed.of_unchanged (hs : Placed s) (hchild : Unchanged .hasChild s s')
    (hcontains : Unchanged .containsWork s s') : Placed s' := by
  constructor
  · exact hs.parent_unique.of_unchanged hchild
  · exact hs.arena_unique.of_unchanged hcontains
  · intro e he hr
    exact hs.parent_kind e ((hchild e hr).1 he) hr
  · intro e he hr
    exact hs.arena_kind e ((hcontains e hr).1 he) hr
  · intro e he e' he' hr hr'
    exact hs.exclusive e ((hchild e hr).1 he) e' ((hcontains e' hr').1 he') hr hr'

lemma placed_reshape (hs : Placed s) (h : Reshape s s') : Placed s' := by
  cases h with
  | calm hsame =>
    exact hs.of_unchanged (hsame .hasChild (by decide)) (hsame .containsWork (by decide))
  | decided e hdecides =>
    have hne := hdecides.relation_ne
    apply hs.of_unchanged
    · exact hdecides.unchanged (by decide) fun heq => hne (by rw [heq]; decide)
    · exact hdecides.unchanged (by decide) fun heq => hne (by rw [heq]; decide)
  | parent child parent hkind _ _ _ hchild hcontains hsame =>
    have hfrom : ∀ e : EdgeRecord, e.relationship = .hasChild → e ∈ s'.edges →
        e ∈ s.edges ∧ e.target ≠ child ∨ e ∈ parent.map (childEdge · child) := by
      intro e hr he
      obtain hmem | ⟨p, hp, rfl⟩ := (hchild e hr).1 he
      · exact .inl hmem
      · exact .inr (Option.mem_map_of_mem _ hp)
    constructor
    · apply hs.parent_unique.replace _ hfrom
      intro e he
      obtain ⟨p, -, rfl⟩ := Option.mem_map.1 he
      rfl
    · intro e he e' he' hr hr' htarget
      exact hs.arena_unique e ((hcontains e hr).1 he).1 e' ((hcontains e' hr').1 he').1 hr hr'
        htarget
    · intro e he hr
      obtain hmem | ⟨p, hp, rfl⟩ := (hchild e hr).1 he
      · exact hs.parent_kind e hmem.1 hr
      · exact hkind p hp
    · intro e he hr
      exact hs.arena_kind e ((hcontains e hr).1 he).1 hr
    · intro e he e' he' hr hr'
      obtain ⟨hmem', hne'⟩ := (hcontains e' hr').1 he'
      obtain hmem | ⟨p, hp, rfl⟩ := (hchild e hr).1 he
      · exact hs.exclusive e hmem.1 e' hmem' hr hr'
      · exact fun heq => hne' heq.symm
  | member key arena hkind _ hroot hcontains hsame =>
    have hchild := hsame .hasChild (by decide) (by decide)
    have hfrom : ∀ e : EdgeRecord, e.relationship = .containsWork → e ∈ s'.edges →
        e ∈ s.edges ∧ e.target ≠ key ∨ e ∈ arena.map (containsEdge · key) := by
      intro e hr he
      obtain hmem | ⟨id, hid, rfl⟩ := (hcontains e hr).1 he
      · exact .inl hmem
      · exact .inr (Option.mem_map_of_mem _ hid)
    constructor
    · exact hs.parent_unique.of_unchanged hchild
    · apply hs.arena_unique.replace _ hfrom
      intro e he
      obtain ⟨id, -, rfl⟩ := Option.mem_map.1 he
      rfl
    · intro e he hr
      exact hs.parent_kind e ((hchild e hr).1 he) hr
    · intro e he hr
      obtain hmem | ⟨id, hid, rfl⟩ := (hcontains e hr).1 he
      · exact hs.arena_kind e hmem.1 hr
      · exact ⟨rfl, hkind⟩
    · intro e he e' he' hr hr'
      have hmem := (hchild e hr).1 he
      obtain hmem' | ⟨id, hid, rfl⟩ := (hcontains e' hr').1 he'
      · exact hs.exclusive e hmem e' hmem'.1 hr hr'
      · exact hroot e hmem hr
  | order r source target _ _ hnew _ hsame hordering =>
    have hne : Relationship.hasChild ≠ r ∧ Relationship.containsWork ≠ r := by
      rcases hordering with rfl | rfl <;> decide
    exact hs.of_unchanged (hsame _ (by decide) hne.1) (hsame _ (by decide) hne.2)

def depth : Label → Nat
  | .project => 1
  | .issue => 2
  | .task => 3
  | _ => 0

lemma depth_parents {parent kind : Label} (h : parent ∈ parents kind) :
    depth parent < depth kind := by
  revert h
  cases kind <;> cases parent <;> decide

lemma incoming_length (h : UniqueInto r s) (key : Key) :
    (incoming s r key).length ≤ 1 := by
  have hnodup : (incoming s r key).Nodup := s.distinct.filter _
  have hmem : ∀ e ∈ incoming s r key, e ∈ s.edges ∧ e.relationship = r ∧ e.target = key :=
    fun e he => mem_incoming.1 he
  revert hnodup hmem
  cases incoming s r key with
  | nil => exact fun _ _ => Nat.zero_le _
  | cons e rest =>
    intro hnodup hmem
    cases rest with
    | nil => exact Nat.le_refl _
    | cons e' rest =>
      have he := hmem e List.mem_cons_self
      have he' := hmem e' (List.mem_cons_of_mem _ List.mem_cons_self)
      have heq := h e he.1 e' he'.1 he.2.1 he'.2.1 (he.2.2.trans he'.2.2.symm)
      rw [heq] at hnodup
      exact absurd List.mem_cons_self (List.nodup_cons.1 hnodup).1

theorem placed_run (sha256 : String → String) (events : List Event) :
    Placed (run sha256 events) := by
  apply run_invariant (P := Placed)
  · constructor <;> intro e he <;> cases he
  · intro s r ws s' _ hs houtcome
    exact placed_reshape hs houtcome.reshape

/-- In every store that a run reaches, Work has at most one parent, of a kind that its own allows,
or is in at most one Arena as an Initiative or a Task, but never both, and no chain of parents
comes back to its start. -/
theorem run_hierarchy (sha256 : String → String) (events : List Event) (key : Key) :
    ((incoming (run sha256 events) .hasChild key).length ≤ 1 ∧
      ∀ e ∈ incoming (run sha256 events) .hasChild key, e.source.1 ∈ parents key.1) ∧
    ((incoming (run sha256 events) .containsWork key).length ≤ 1 ∧
      ∀ e ∈ incoming (run sha256 events) .containsWork key,
        e.source.1 = .arena ∧ (key.1 = .initiative ∨ key.1 = .task)) ∧
    (incoming (run sha256 events) .hasChild key = [] ∨
      incoming (run sha256 events) .containsWork key = []) ∧
    ¬ Relation.TransGen (Linked .hasChild (run sha256 events)) key key := by
  have hs := placed_run sha256 events
  refine ⟨⟨incoming_length hs.parent_unique key, ?_⟩, ⟨incoming_length hs.arena_unique key, ?_⟩, ?_,
    ?_⟩
  · intro e he
    obtain ⟨hmem, hr, rfl⟩ := mem_incoming.1 he
    exact hs.parent_kind e hmem hr
  · intro e he
    obtain ⟨hmem, hr, rfl⟩ := mem_incoming.1 he
    obtain ⟨harena, hkind⟩ := hs.arena_kind e hmem hr
    refine ⟨harena, ?_⟩
    revert hkind
    cases e.target.1 <;> decide
  · by_contra hboth
    rw [not_or] at hboth
    obtain ⟨e, he⟩ := List.exists_mem_of_ne_nil _ hboth.1
    obtain ⟨e', he'⟩ := List.exists_mem_of_ne_nil _ hboth.2
    obtain ⟨hmem, hr, htarget⟩ := mem_incoming.1 he
    obtain ⟨hmem', hr', htarget'⟩ := mem_incoming.1 he'
    exact hs.exclusive e hmem e' hmem' hr hr' (htarget.trans htarget'.symm)
  · -- Every link leads to a kind further down.
    have hlower : ∀ a b, Relation.TransGen (Linked .hasChild (run sha256 events)) a b →
        depth a.1 < depth b.1 := by
      intro a b h
      induction h with
      | single h =>
        obtain ⟨e, he, hr, rfl, rfl⟩ := h
        exact depth_parents (hs.parent_kind e he hr)
      | tail _ h ih =>
        obtain ⟨e, he, hr, rfl, rfl⟩ := h
        exact ih.trans (depth_parents (hs.parent_kind e he hr))
    exact fun h => Nat.lt_irrefl _ (hlower key key h)

lemma linked_of_unchanged (h : Unchanged r s s') {a b : Key} (hlinked : Linked r s' a b) :
    Linked r s a b := by
  obtain ⟨e, he, hr, hsource, htarget⟩ := hlinked
  exact ⟨e, (h e hr).1 he, hr, hsource, htarget⟩

lemma acyclic_of_unchanged (hs : ∀ a, ¬ Relation.TransGen (Linked r s) a a)
    (h : Unchanged r s s') (a : Key) : ¬ Relation.TransGen (Linked r s') a a :=
  fun hcycle => hs a (hcycle.lift id fun _ _ => linked_of_unchanged h)

lemma acyclic_reshape (hr : r ∈ [Relationship.dependsOn, .blocks])
    (hs : ∀ a, ¬ Relation.TransGen (Linked r s) a a) (h : Reshape s s') (a : Key) :
    ¬ Relation.TransGen (Linked r s') a a := by
  have hstructural : r ∈ structural ∧ r ≠ .hasChild ∧ r ≠ .containsWork := by
    revert hr
    cases r <;> decide
  cases h with
  | calm hsame => exact acyclic_of_unchanged hs (hsame r hstructural.1) a
  | decided e hdecides =>
    apply acyclic_of_unchanged hs (hdecides.unchanged hstructural.1 _) a
    rintro rfl
    exact hdecides.relation_ne (List.mem_cons_of_mem _ (List.mem_cons_of_mem _ hr))
  | parent _ _ _ _ _ _ _ _ hsame =>
    exact acyclic_of_unchanged hs (hsame r hstructural.1 hstructural.2.1 hstructural.2.2) a
  | member _ _ _ _ _ _ hsame =>
    exact acyclic_of_unchanged hs (hsame r hstructural.1 hstructural.2.2) a
  | order r' source target _ _ hnew _ hsame _ =>
    by_cases hsame' : r = r'
    · subst hsame'
      exact acyclic_of_new hs hnew a
    · exact acyclic_of_unchanged hs (hsame r hstructural.1 hsame') a

lemma acyclic_run (hr : r ∈ [Relationship.dependsOn, .blocks])
    (sha256 : String → String) (events : List Event) :
    ∀ key, ¬ Relation.TransGen (Linked r (run sha256 events)) key key := by
  apply run_invariant (P := fun s => ∀ key, ¬ Relation.TransGen (Linked r s) key key)
  · intro key hcycle
    cases hcycle with
    | single h =>
      obtain ⟨e, he, -⟩ := h
      cases he
    | tail _ h =>
      obtain ⟨e, he, -⟩ := h
      cases he
  · intro s _ _ s' _ hs houtcome
    exact acyclic_reshape hr hs houtcome.reshape

/-- In every store that a run reaches, no chain of dependencies and no chain of blockers comes
back to its start. -/
theorem run_order_acyclic (sha256 : String → String) (events : List Event) (key : Key) :
    ¬ Relation.TransGen (Linked .dependsOn (run sha256 events)) key key ∧
      ¬ Relation.TransGen (Linked .blocks (run sha256 events)) key key :=
  ⟨acyclic_run (by decide) sha256 events key, acyclic_run (by decide) sha256 events key⟩

end DevGraph.Proofs
