import Mathlib.Data.List.AList

/-!
# A store of keyed nodes and labelled edges

Nodes are never removed, every edge joins two nodes that are there, and no edge is there twice. What
a computation did to a store is said by its writes, in their order.
-/

namespace DevGraph.Lib

structure Edge (κ ρ π : Type) where
  source : κ
  relationship : ρ
  target : κ
  properties : π
  deriving DecidableEq

structure GraphStore (κ ν ρ π : Type) where
  nodes : AList fun _ : κ => ν
  edges : List (Edge κ ρ π)
  distinct : edges.Nodup
  endpoints : ∀ e ∈ edges, e.source ∈ nodes ∧ e.target ∈ nodes

inductive Write (κ ν ρ π : Type)
  | create (key : κ) (node : ν)
  | update (key : κ) (old new : ν)
  | link (edge : Edge κ ρ π)
  | unlink (source : κ) (relationship : ρ) (target : κ)

namespace GraphStore

variable {κ ν ρ π : Type}

def empty : GraphStore κ ν ρ π where
  nodes := ∅
  edges := []
  distinct := List.nodup_nil
  endpoints := by simp

section Nodes

variable [DecidableEq κ]

def node? (s : GraphStore κ ν ρ π) (key : κ) : Option ν := s.nodes.lookup key

def put (s : GraphStore κ ν ρ π) (key : κ) (node : ν) : GraphStore κ ν ρ π where
  nodes := s.nodes.insert key node
  edges := s.edges
  distinct := s.distinct
  endpoints := by
    intro e he
    have h := s.endpoints e he
    simp only [AList.mem_insert]
    exact ⟨.inr h.1, .inr h.2⟩

@[simp] lemma node?_put_self (s : GraphStore κ ν ρ π) (key : κ) (node : ν) :
    (s.put key node).node? key = some node := AList.lookup_insert s.nodes

lemma node?_put_of_ne (s : GraphStore κ ν ρ π) {key key' : κ} (h : key' ≠ key) (node : ν) :
    (s.put key node).node? key' = s.node? key' := AList.lookup_insert_ne h

lemma mem_nodes_iff (s : GraphStore κ ν ρ π) (key : κ) :
    key ∈ s.nodes ↔ ∃ node, s.node? key = some node := by
  rw [← AList.lookup_isSome, Option.isSome_iff_exists]
  rfl

end Nodes

section Linking

variable [DecidableEq κ] [DecidableEq ρ] [DecidableEq π]

/-- Adds an edge, unless it is there. -/
def link (s : GraphStore κ ν ρ π) (e : Edge κ ρ π) (hsource : e.source ∈ s.nodes)
    (htarget : e.target ∈ s.nodes) : GraphStore κ ν ρ π where
  nodes := s.nodes
  edges := if e ∈ s.edges then s.edges else s.edges ++ [e]
  distinct := by
    split
    · exact s.distinct
    · exact List.nodup_append.2 ⟨s.distinct, List.nodup_singleton e, by
        intro a ha b hb
        rw [List.mem_singleton.1 hb]
        exact fun h => ‹e ∉ s.edges› (h ▸ ha)⟩
  endpoints := by
    intro e' he
    by_cases hmem : e ∈ s.edges
    · rw [if_pos hmem] at he
      exact s.endpoints e' he
    · rw [if_neg hmem] at he
      obtain he | he := List.mem_append.1 he
      · exact s.endpoints e' he
      · rw [List.mem_singleton.1 he]
        exact ⟨hsource, htarget⟩

@[simp] lemma mem_edges_link (s : GraphStore κ ν ρ π) (e e' : Edge κ ρ π) (hs ht) :
    e' ∈ (s.link e hs ht).edges ↔ e' ∈ s.edges ∨ e' = e := by
  change e' ∈ (if e ∈ s.edges then s.edges else s.edges ++ [e]) ↔ _
  split
  · rename_i h
    apply Iff.intro .inl
    rintro (he | rfl)
    · exact he
    · exact h
  · rw [List.mem_append, List.mem_singleton]

end Linking

section Unlinking

variable [DecidableEq κ] [DecidableEq ρ]

/-- Whether an edge joins the given nodes in the given way. -/
def joins (source : κ) (relationship : ρ) (target : κ) (e : Edge κ ρ π) : Bool :=
  e.source = source ∧ e.relationship = relationship ∧ e.target = target

def unlink (s : GraphStore κ ν ρ π) (source : κ) (relationship : ρ) (target : κ) :
    GraphStore κ ν ρ π where
  nodes := s.nodes
  edges := s.edges.filter fun e => !joins source relationship target e
  distinct := s.distinct.filter _
  endpoints := fun e he => s.endpoints e (List.mem_filter.1 he).1

@[simp] lemma mem_edges_unlink (s : GraphStore κ ν ρ π) (a : κ) (r : ρ) (b : κ)
    (e : Edge κ ρ π) : e ∈ (s.unlink a r b).edges ↔
      e ∈ s.edges ∧ ¬ (e.source = a ∧ e.relationship = r ∧ e.target = b) := by
  change e ∈ s.edges.filter _ ↔ _
  rw [List.mem_filter, joins, Bool.not_eq_true', decide_eq_false_iff_not]

end Unlinking

end GraphStore

variable {κ ν ρ π : Type} [DecidableEq κ] [DecidableEq ρ] [DecidableEq π]

open GraphStore

inductive Trace : GraphStore κ ν ρ π → List (Write κ ν ρ π) → GraphStore κ ν ρ π → Prop
  | nil (s) : Trace s [] s
  | create {s t : GraphStore κ ν ρ π} {ws key node} (habsent : s.node? key = none)
      (rest : Trace (s.put key node) ws t) : Trace s (.create key node :: ws) t
  | update {s t : GraphStore κ ν ρ π} {ws key old new} (hold : s.node? key = some old)
      (rest : Trace (s.put key new) ws t) : Trace s (.update key old new :: ws) t
  | link {s t : GraphStore κ ν ρ π} {ws e} (hs : e.source ∈ s.nodes) (ht : e.target ∈ s.nodes)
      (rest : Trace (s.link e hs ht) ws t) : Trace s (.link e :: ws) t
  | unlink {s t : GraphStore κ ν ρ π} {ws a r b} (rest : Trace (s.unlink a r b) ws t) :
      Trace s (.unlink a r b :: ws) t

section Keys

variable {κ ν ρ π : Type} (key : κ) (node old new : ν) (e : Edge κ ρ π) (before : Prop) (a : κ)
  (r : ρ) (b : κ) (ws : List (Write κ ν ρ π))

def Write.nodeKey? : Write κ ν ρ π → Option κ
  | .create key _ => some key
  | .update key _ _ => some key
  | _ => none

/-- The key a write puts a node at, with what was there before and what is there after it. -/
def Write.replaces? : Write κ ν ρ π → Option (κ × Option ν × ν)
  | .create key node => some (key, none, node)
  | .update key old new => some (key, some old, new)
  | _ => none

def nodeKeys (ws : List (Write κ ν ρ π)) : List κ := ws.filterMap Write.nodeKey?

@[simp] lemma nodeKeys_nil : nodeKeys ([] : List (Write κ ν ρ π)) = [] := rfl

@[simp] lemma nodeKeys_create : nodeKeys (.create key node :: ws) = key :: nodeKeys ws := rfl

@[simp] lemma nodeKeys_update : nodeKeys (.update key old new :: ws) = key :: nodeKeys ws := rfl

@[simp] lemma nodeKeys_link : nodeKeys (.link e :: ws) = nodeKeys ws := rfl

@[simp] lemma nodeKeys_unlink : nodeKeys (.unlink a r b :: ws) = nodeKeys ws := rfl

@[simp] lemma nodeKeys_append (ws' : List (Write κ ν ρ π)) :
    nodeKeys (ws ++ ws') = nodeKeys ws ++ nodeKeys ws' := List.filterMap_append

lemma mem_nodeKeys {ws : List (Write κ ν ρ π)} {key : κ} :
    key ∈ nodeKeys ws ↔ (∃ node, .create key node ∈ ws) ∨ ∃ old new, .update key old new ∈ ws := by
  simp only [nodeKeys, List.mem_filterMap]
  constructor
  · rintro ⟨w, hw, hkey⟩
    cases w with
    | create k n => cases hkey; exact .inl ⟨n, hw⟩
    | update k old new => cases hkey; exact .inr ⟨old, new, hw⟩
    | link e => cases hkey
    | unlink a r b => cases hkey
  · rintro (⟨n, hw⟩ | ⟨old, new, hw⟩)
    · exact ⟨_, hw, rfl⟩
    · exact ⟨_, hw, rfl⟩

/-- Whether an edge is there after a write, given whether it was there before. -/
def Write.keeps (e : Edge κ ρ π) (before : Prop) : Write κ ν ρ π → Prop
  | .link e' => before ∨ e = e'
  | .unlink a r b => before ∧ ¬ (e.source = a ∧ e.relationship = r ∧ e.target = b)
  | _ => before

/-- Whether an edge is there after the writes. -/
def edgeAfter (e : Edge κ ρ π) (before : Prop) (ws : List (Write κ ν ρ π)) : Prop :=
  ws.foldl (Write.keeps e) before

@[simp] lemma edgeAfter_nil : edgeAfter e before ([] : List (Write κ ν ρ π)) = before := rfl

@[simp] lemma edgeAfter_create :
    edgeAfter e before (.create key node :: ws) = edgeAfter e before ws := rfl

@[simp] lemma edgeAfter_update :
    edgeAfter e before (.update key old new :: ws) = edgeAfter e before ws := rfl

@[simp] lemma edgeAfter_link (e' : Edge κ ρ π) :
    edgeAfter e before (.link e' :: ws) = edgeAfter e (before ∨ e = e') ws := rfl

@[simp] lemma edgeAfter_unlink : edgeAfter e before (.unlink a r b :: ws) =
    edgeAfter e (before ∧ ¬ (e.source = a ∧ e.relationship = r ∧ e.target = b)) ws := rfl

@[simp] lemma edgeAfter_append (ws' : List (Write κ ν ρ π)) :
    edgeAfter e before (ws ++ ws') = edgeAfter e (edgeAfter e before ws) ws' :=
  List.foldl_append

/-- A write that adds or removes no edge of the relationship. -/
def Write.avoids (r : ρ) : Write κ ν ρ π → Prop
  | .link e => e.relationship ≠ r
  | .unlink _ r' _ => r' ≠ r
  | _ => True

/-- The node whose outgoing edges a write changes. -/
def Write.edgeSource? : Write κ ν ρ π → Option κ
  | .link e => some e.source
  | .unlink a _ _ => some a
  | _ => none

lemma edgeAfter_of_avoids {e : Edge κ ρ π} {before : Prop} {ws : List (Write κ ν ρ π)}
    (h : ∀ w ∈ ws, w.avoids e.relationship ∨ w.edgeSource? ≠ some e.source) :
    edgeAfter e before ws ↔ before := by
  induction ws generalizing before with
  | nil => exact Iff.rfl
  | cons w ws ih =>
    have hw := h w List.mem_cons_self
    have hws := fun w' hw' => h w' (List.mem_cons_of_mem _ hw')
    cases w with
    | create => exact ih hws
    | update => exact ih hws
    | link e' =>
      rw [edgeAfter_link, ih hws]
      refine ⟨fun hor => hor.resolve_right ?_, .inl⟩
      rintro rfl
      exact hw.elim (fun hw => hw rfl) fun hw => hw rfl
    | unlink a r b =>
      rw [edgeAfter_unlink, ih hws]
      refine ⟨And.left, fun hb => ⟨hb, fun heq => ?_⟩⟩
      exact hw.elim (fun hw => hw heq.2.1.symm) fun hw => hw (congrArg some heq.1.symm)

/-- A write that replaces no node and removes no edge. -/
def Write.adds : Write κ ν ρ π → Prop
  | .update _ _ _ => False
  | .unlink _ _ _ => False
  | _ => True

lemma edgeAfter_unlinks {e : Edge κ ρ π} {before : Prop} {r : ρ} {b : κ} (sources : List κ) :
    edgeAfter e before (sources.map fun a => (.unlink a r b : Write κ ν ρ π)) ↔
      before ∧ ¬ (e.source ∈ sources ∧ e.relationship = r ∧ e.target = b) := by
  induction sources generalizing before with
  | nil => simp
  | cons a sources ih =>
    rw [List.map_cons, edgeAfter_unlink, ih, List.mem_cons]
    tauto

lemma edgeAfter_links {e : Edge κ ρ π} {before : Prop} (edges : List (Edge κ ρ π)) :
    edgeAfter e before (edges.map (.link : Edge κ ρ π → Write κ ν ρ π)) ↔
      before ∨ e ∈ edges := by
  induction edges generalizing before with
  | nil => simp
  | cons e' edges ih =>
    rw [List.map_cons, edgeAfter_link, ih, List.mem_cons, or_assoc]

end Keys

namespace Trace

variable {s t u : GraphStore κ ν ρ π} {ws ws' : List (Write κ ν ρ π)}

lemma append (h : Trace s ws t) (h' : Trace t ws' u) : Trace s (ws ++ ws') u := by
  induction h with
  | nil => exact h'
  | create habsent _ ih => exact .create habsent (ih h')
  | update hold _ ih => exact .update hold (ih h')
  | link hs ht _ ih => exact .link hs ht (ih h')
  | unlink _ ih => exact .unlink (ih h')

theorem mem_edges_iff (h : Trace s ws t) (e : Edge κ ρ π) :
    e ∈ t.edges ↔ edgeAfter e (e ∈ s.edges) ws := by
  induction h with
  | nil => exact Iff.rfl
  | create _ _ ih => exact ih
  | update _ _ ih => exact ih
  | link _ _ _ ih => rw [ih, edgeAfter_link, mem_edges_link]
  | unlink _ ih => rw [ih, edgeAfter_unlink, mem_edges_unlink]

/-- Writes that only add leave the edges that are there and those that they link. -/
theorem mem_edges_of_adds (h : Trace s ws t) (hadds : ∀ x ∈ ws, x.adds) {e : Edge κ ρ π}
    (he : e ∈ s.edges ∨ .link e ∈ ws) : e ∈ t.edges := by
  induction h with
  | nil => exact he.resolve_right List.not_mem_nil
  | create _ _ ih =>
    rw [List.forall_mem_cons] at hadds
    exact ih hadds.2 (he.imp_right fun hmem => by simpa using hmem)
  | update => exact absurd (hadds _ List.mem_cons_self) id
  | link hs ht _ ih =>
    rw [List.forall_mem_cons] at hadds
    apply ih hadds.2
    rw [mem_edges_link]
    obtain he | he := he
    · exact .inl (.inl he)
    · obtain heq | he := List.mem_cons.1 he
      · cases heq
        exact .inl (.inr rfl)
      · exact .inr he
  | unlink => exact absurd (hadds _ List.mem_cons_self) id

theorem edges_eq (h : Trace s ws t) (hnodes : ∀ x ∈ ws, x.edgeSource? = none) :
    t.edges = s.edges := by
  induction h with
  | nil => rfl
  | create _ _ ih => exact ih fun x hx => hnodes x (List.mem_cons_of_mem _ hx)
  | update _ _ ih => exact ih fun x hx => hnodes x (List.mem_cons_of_mem _ hx)
  | link => cases hnodes _ List.mem_cons_self
  | unlink => cases hnodes _ List.mem_cons_self

theorem node?_of_notMem (h : Trace s ws t) {key : κ} (hkey : key ∉ nodeKeys ws) :
    t.node? key = s.node? key := by
  induction h with
  | nil => rfl
  | create _ _ ih =>
    rw [nodeKeys_create, List.mem_cons, not_or] at hkey
    rw [ih hkey.2, node?_put_of_ne _ hkey.1]
  | update _ _ ih =>
    rw [nodeKeys_update, List.mem_cons, not_or] at hkey
    rw [ih hkey.2, node?_put_of_ne _ hkey.1]
  | link _ _ _ ih => exact ih hkey
  | unlink _ ih => exact ih hkey

theorem node?_isSome (h : Trace s ws t) {key : κ} (hkey : (s.node? key).isSome) :
    (t.node? key).isSome := by
  have hput : ∀ (s : GraphStore κ ν ρ π) (k : κ) (n : ν), (s.node? key).isSome →
      ((s.put k n).node? key).isSome := by
    intro s k n hsome
    by_cases hk : key = k
    · rw [hk, node?_put_self]
      rfl
    · rw [node?_put_of_ne _ hk]
      exact hsome
  induction h with
  | nil => exact hkey
  | create _ _ ih => exact ih (hput _ _ _ hkey)
  | update _ _ ih => exact ih (hput _ _ _ hkey)
  | link _ _ _ ih => exact ih hkey
  | unlink _ ih => exact ih hkey

/-- Writes that only add create each of their nodes once, where none was. -/
theorem absent_of_adds (h : Trace s ws t) (hadds : ∀ x ∈ ws, x.adds) :
    (nodeKeys ws).Nodup ∧ ∀ key ∈ nodeKeys ws, s.node? key = none := by
  induction h with
  | nil => simp
  | @create s t ws k n habsent _ ih =>
    have hrest := ih fun x hx => hadds x (List.mem_cons_of_mem _ hx)
    have hne : ∀ key ∈ nodeKeys ws, key ≠ k := by
      rintro key hkey rfl
      have hnone := hrest.2 key hkey
      rw [node?_put_self] at hnone
      cases hnone
    rw [nodeKeys_create, List.nodup_cons]
    refine ⟨⟨fun hk => hne k hk rfl, hrest.1⟩, ?_⟩
    intro key hkey
    obtain rfl | hkey := List.mem_cons.1 hkey
    · exact habsent
    · rw [← node?_put_of_ne s (hne key hkey) n]
      exact hrest.2 key hkey
  | update => exact absurd (hadds _ List.mem_cons_self) id
  | link _ _ _ ih => exact ih fun x hx => hadds x (List.mem_cons_of_mem _ hx)
  | unlink => exact absurd (hadds _ List.mem_cons_self) id

/-- A node written once is in the end as that write left it, and was before as it found it. -/
theorem node?_of_mem (h : Trace s ws t) (hnodup : (nodeKeys ws).Nodup) {w : Write κ ν ρ π}
    (hw : w ∈ ws) {key : κ} {before : Option ν} {after : ν}
    (hnode : w.replaces? = some (key, before, after)) :
    s.node? key = before ∧ t.node? key = some after := by
  -- a write under another key changes neither end
  have hother : ∀ {ws : List (Write κ ν ρ π)} {k : κ}, k ∉ nodeKeys ws → w ∈ ws → key ≠ k := by
    rintro ws k hk hw rfl
    refine hk (List.mem_filterMap.2 ⟨w, hw, ?_⟩)
    cases w <;> cases hnode <;> rfl
  induction h with
  | nil => cases hw
  | create habsent rest ih =>
    rw [nodeKeys_create, List.nodup_cons] at hnodup
    obtain rfl | hw := List.mem_cons.1 hw
    · cases hnode
      exact ⟨habsent, by rw [rest.node?_of_notMem hnodup.1, node?_put_self]⟩
    · rw [← node?_put_of_ne _ (hother hnodup.1 hw)]
      exact ih hnodup.2 hw
  | update hold rest ih =>
    rw [nodeKeys_update, List.nodup_cons] at hnodup
    obtain rfl | hw := List.mem_cons.1 hw
    · cases hnode
      exact ⟨hold, by rw [rest.node?_of_notMem hnodup.1, node?_put_self]⟩
    · rw [← node?_put_of_ne _ (hother hnodup.1 hw)]
      exact ih hnodup.2 hw
  | link _ _ _ ih =>
    obtain rfl | hw := List.mem_cons.1 hw
    · cases hnode
    · exact ih hnodup hw
  | unlink _ ih =>
    obtain rfl | hw := List.mem_cons.1 hw
    · cases hnode
    · exact ih hnodup hw

end Trace

end DevGraph.Lib
