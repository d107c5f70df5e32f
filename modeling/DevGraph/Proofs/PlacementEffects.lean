import DevGraph.Proofs.ArenaEffects

/-!
# Effects of the operations that place and order Work

A change of parent, of Arena membership, of a dependency or of a blocker moves the items that it
joins, and changes the edges of the hierarchy in the way that the request says.
-/

namespace DevGraph.Proofs

open Lib Work

variable {r : Relationship} {ws : List StoreWrite} {clock : Nat → Datetime}
  {touched touched' : List WorkObject}

variable {keys : List Key} {s s' t u : Store} {w w' : WorkObject}

def Unchanged (r : Relationship) (s s' : Store) : Prop :=
  ∀ e : EdgeRecord, e.relationship = r → (e ∈ s'.edges ↔ e ∈ s.edges)

lemma Unchanged.trans (h : Unchanged r s t) (h' : Unchanged r t u) :
    Unchanged r s u := fun e he => (h' e he).trans (h e he)

lemma unchanged_of_avoids (h : Trace s ws t) (havoids : ∀ x ∈ ws, x.avoids r) :
    Unchanged r s t := by
  intro e he
  rw [h.mem_edges_iff, edgeAfter_of_avoids fun x hx => .inl (he ▸ havoids x hx)]

lemma unchanged_of_nodes (r : Relationship) (h : Trace s ws t)
    (hnodes : ∀ x ∈ ws, x.edgeSource? = none) : Unchanged r s t := by
  intro e _
  rw [h.edges_eq hnodes]

def Linked (r : Relationship) (s : Store) (a b : Key) : Prop :=
  ∃ e ∈ s.edges, e.relationship = r ∧ e.source = a ∧ e.target = b

def Active (s : Store) (key : Key) : Prop := ∃ w, Holds s w ∧ w.key = key ∧ w.archived = false

def Unfinished (s : Store) (key : Key) : Prop :=
  ∃ w, Holds s w ∧ w.key = key ∧ w.archived = false ∧ w.progress ≠ some .done

lemma Unfinished.active {key : Key} (h : Unfinished s key) : Active s key := by
  obtain ⟨w, hold, hkey, hactive, -⟩ := h
  exact ⟨w, hold, hkey, hactive⟩

/-- How a request changes the edges that place, order and decide on Work. -/
inductive Reshape (s s' : Store) : Prop
  | calm (same : ∀ r ∈ structural, Unchanged r s s')
  | decided (e : EdgeRecord) (decides : Decides s s' e)
      (accepts : e.relationship = .acceptedByDecision →
        ∃ w, Holds s' w ∧ w.key = e.source ∧ w.status = .accepted)
  | parent (child : Key) (parent : Option Key) (kind : ∀ p ∈ parent, p.1 ∈ parents child.1)
      (unfinished : Unfinished s child)
      (previous : ∀ e ∈ s.edges, e.relationship = .hasChild → e.target = child →
        Unfinished s e.source)
      (next : ∀ p ∈ parent, Unfinished s p)
      (hasChild : ∀ e : EdgeRecord, e.relationship = .hasChild → (e ∈ s'.edges ↔
        e ∈ s.edges ∧ e.target ≠ child ∨ ∃ p ∈ parent, e = childEdge p child))
      (containsWork : ∀ e : EdgeRecord, e.relationship = .containsWork →
        (e ∈ s'.edges ↔ e ∈ s.edges ∧ e.target ≠ child))
      (same : ∀ r ∈ structural, r ≠ .hasChild → r ≠ .containsWork → Unchanged r s s')
  | member (key : Key) (arena : Option String) (kind : key.1 ∈ directKinds) (active : Active s key)
      (root : ∀ e ∈ s.edges, e.relationship = .hasChild → e.target ≠ key)
      (containsWork : ∀ e : EdgeRecord, e.relationship = .containsWork → (e ∈ s'.edges ↔
        e ∈ s.edges ∧ e.target ≠ key ∨ ∃ id ∈ arena, e = containsEdge id key))
      (same : ∀ r ∈ structural, r ≠ .containsWork → Unchanged r s s')
  | order (r : Relationship) (source target : Key) (unfinished : Unfinished s source)
      (unfinished' : Unfinished s target)
      (new : ∀ a b, Linked r s' a b → Linked r s a b ∨
        a = source ∧ b = target ∧ ¬ Relation.ReflTransGen (Linked r s) target source)
      (others : ∀ e : EdgeRecord, ¬ (e.source = source ∧ e.relationship = r ∧ e.target = target) →
        (e ∈ s'.edges ↔ e ∈ s.edges))
      (same : ∀ r' ∈ structural, r' ≠ r → Unchanged r' s s')
      (ordering : r = .dependsOn ∨ r = .blocks)

lemma Reshape.of_calm (h : Trace s ws s') (hcalm : Calm ws) :
    Reshape s s' := .calm fun r hr => unchanged_of_avoids h fun x hx => hcalm x hx r hr

lemma Decides.unchanged {e : EdgeRecord} (h : Decides s s' e)
    (hr : r ∈ structural) (hne : e.relationship ≠ r) : Unchanged r s s' := by
  intro e' he'
  rw [h.after e' (he' ▸ hr)]
  exact ⟨fun hor => hor.resolve_right fun heq => hne (heq ▸ he'), .inl⟩

/-- A decision changes nothing in the hierarchy or the order. -/
lemma Decides.relation_ne {e : EdgeRecord} (h : Decides s s' e) :
    e.relationship ∉ [Relationship.hasChild, .containsWork, .dependsOn, .blocks] := by
  obtain hrelation | hrelation := h.relation
  · revert hrelation
    cases e.relationship <;> decide
  · rw [hrelation]
    decide

variable {v : Unit}

lemma createEdges_effect (subject : Key) {edges : List EdgeRecord}
    (hkeys : ∀ e ∈ edges, e.source ∈ keys) (h : createEdges edges s = .ok v s') :
    Effect subject keys s (edges.map .link) s' := by
  induction edges generalizing s with
  | nil =>
    simp only [createEdges, pure_ok] at h
    obtain ⟨-, rfl⟩ := h
    exact .nil _ _ _
  | cons e edges ih =>
    simp only [createEdges, bind_ok] at h
    obtain ⟨_, t, hedge, hrest⟩ := h
    exact (effect_link subject (hkeys e List.mem_cons_self) hedge).append
      (ih (fun e' he' => hkeys e' (List.mem_cons_of_mem _ he')) hrest)

lemma deleteEdges_effect (subject : Key) {target : Key} {sources : List Key}
    (hkeys : ∀ a ∈ sources, a ∈ keys) (h : deleteEdges r target sources s = .ok v s') :
    Effect subject keys s (sources.map fun a => .unlink a r target) s' := by
  induction sources generalizing s with
  | nil =>
    simp only [deleteEdges, pure_ok] at h
    obtain ⟨-, rfl⟩ := h
    exact .nil _ _ _
  | cons a sources ih =>
    simp only [deleteEdges, bind_ok] at h
    obtain ⟨_, t, hedge, hrest⟩ := h
    have hfirst : Effect subject keys s [.unlink a r target] t :=
      .single (deleteEdge_trace hedge) (.unlink _ _ _) (hkeys a List.mem_cons_self)
    exact hfirst.append (ih (fun a' ha' => hkeys a' (List.mem_cons_of_mem _ ha')) hrest)

/-- Edges of one relationship to a node are replaced by others of it, and nothing else changes. -/
lemma replaceEdges_effect {α : Type} (subject : Key) {target : Key} {sources : List Key}
    {refs : List α} {edge : α → EdgeRecord} {u v : Unit}
    (hdelete : deleteEdges r target sources s = .ok u t)
    (hcreate : createEdges (refs.map edge) t = .ok v s') (hsources : ∀ a ∈ sources, a ∈ keys)
    (hrefs : ∀ x ∈ refs, (edge x).source ∈ keys) (hedge : ∀ x, (edge x).relationship = r) :
    ∃ ws, Effect subject keys s ws s' ∧ nodeKeys ws = [] ∧
      (∀ e : EdgeRecord, e ∈ s'.edges ↔ (e ∈ s.edges ∧ ¬ (e.source ∈ sources ∧ e.relationship = r ∧
        e.target = target)) ∨ ∃ x ∈ refs, e = edge x) ∧
      ∀ r', r' ≠ r → Unchanged r' s s' := by
  have hunlinks := deleteEdges_effect subject hsources hdelete
  have hlinks := createEdges_effect subject (List.forall_mem_map.2 hrefs) hcreate
  have hall := hunlinks.append hlinks
  refine ⟨_, hall, List.filterMap_eq_nil_iff.2 ?_, fun e => ?_, fun r' hne =>
    unchanged_of_avoids hall.trace ?_⟩
  · exact List.forall_mem_append.2
      ⟨List.forall_mem_map.2 fun _ _ => rfl, List.forall_mem_map.2 fun _ _ => rfl⟩
  · rw [hlinks.trace.mem_edges_iff, edgeAfter_links, hunlinks.trace.mem_edges_iff,
      edgeAfter_unlinks, List.mem_map]
    simp only [eq_comm]
  · exact List.forall_mem_append.2 ⟨List.forall_mem_map.2 fun _ _ => hne.symm,
      List.forall_mem_map.2 (List.forall_mem_map.2 fun x _ => (hedge x).trans_ne hne.symm)⟩

lemma bumpAll_effect (subject : Key) {n : Nat} {works : List WorkObject}
    (hheld : ∀ w ∈ works, Holds s w) (hkinds : ∀ w ∈ works, w.kind ∈ todoKinds)
    (hkeys : ∀ w ∈ works, w.key ∈ keys) (hdistinct : (works.map WorkObject.key).Nodup)
    (h : bumpAll clock n works s = .ok v s') :
    ∃ ws, Effect subject keys s ws s' ∧ nodeKeys ws = works.map WorkObject.key ∧
      ∀ x ∈ ws, x.edgeSource? = none := by
  induction works generalizing s n with
  | nil =>
    simp only [bumpAll, pure_ok] at h
    obtain ⟨-, rfl⟩ := h
    exact ⟨[], .nil _ _ _, rfl, by simp⟩
  | cons w works ih =>
    simp only [bumpAll, bump, bind_ok] at h
    obtain ⟨_, t, hbump, hrest⟩ := h
    rw [List.map_cons, List.nodup_cons] at hdistinct
    rw [List.forall_mem_cons] at hheld hkinds hkeys
    have hfirst := (effect_bump subject hkinds.1 hheld.1 hkeys.1 hbump).2.2
    have hheld' : ∀ w' ∈ works, Holds t w' := by
      intro w' hw'
      apply (hheld.2 w' hw').of_trace hfirst.trace
      rw [nodeKeys_update, nodeKeys_nil, List.mem_singleton]
      intro heq
      exact hdistinct.1 (heq ▸ List.mem_map_of_mem hw')
    obtain ⟨ws, hws, hnodeKeys, hedges⟩ := ih hheld' hkinds.2 hkeys.2 hdistinct.2 hrest
    refine ⟨_, hfirst.append hws, ?_, ?_⟩
    · rw [List.singleton_append, nodeKeys_update, hnodeKeys, List.map_cons]
    · exact List.forall_mem_cons.2 ⟨rfl, hedges⟩

/-- Leaving an Arena removes the membership of an item, whatever it was. -/
lemma removeForParent_effect (subject : Key) {previous : Option ArenaReference} {now : Datetime}
    (hkeys : ∀ r ∈ previous, (.arena, r.id) ∈ keys)
    (h : removeForParent w previous now s = .ok v s') :
    ∃ ws, Effect subject keys s ws s' ∧ (nodeKeys ws).Nodup ∧
      (∀ key ∈ nodeKeys ws, key.1 = .arena) ∧
      (∀ e : EdgeRecord, e.relationship = .containsWork →
        (e ∈ s'.edges ↔ e ∈ s.edges ∧ e.target ≠ w.key)) ∧
      ∀ r, r ≠ .containsWork → Unchanged r s s' := by
  simp only [removeForParent, bind_ok, reading_ok, raiseIf_ok, not_not] at h
  obtain ⟨found, _, ⟨hdirect, rfl⟩, _, _, ⟨hsame, rfl⟩, h⟩ := h
  have hmembers := direct_ok hdirect
  rw [hsame] at hmembers
  cases found with
  | none =>
    have hnone : previous = none := Option.map_eq_none_iff.1 hsame.symm
    subst hnone
    simp only [pure_ok] at h
    obtain ⟨-, rfl⟩ := h
    refine ⟨[], .nil _ _ _, List.nodup_nil, by simp, ?_, fun r _ e _ => Iff.rfl⟩
    intro e hrelation
    refine ⟨fun he => ⟨he, fun htarget => ?_⟩, And.left⟩
    obtain ⟨i, hi, -⟩ := hmembers e he hrelation htarget
    cases hi
  | some found =>
    cases previous with
    | none => cases hsame
    | some r =>
      simp only [bind_ok, reading_ok, pure_ok] at h
      obtain ⟨_, _, ⟨-, rfl⟩, arena, _, ⟨hcurrent, rfl⟩, _, t, hdelete, a, _, hbump, -, rfl⟩ := h
      obtain ⟨hid, hnode, -⟩ := currentArena_ok hcurrent
      have hkey : arena.key = (.arena, r.id) := by rw [Arena.key, hid]
      have harena : arena.key ∈ keys := hkey ▸ hkeys r rfl
      have hunlink : Effect subject keys s [.unlink arena.key .containsWork w.key] t :=
        .single (deleteEdge_trace hdelete) (.unlink _ _ _) harena
      have hnode' : t.node? arena.key = some arena.node :=
        (hunlink.trace.node?_of_notMem (by simp)).trans hnode
      have hupdate := bumpArena_effect subject hnode' harena rfl rfl id hbump
      have hall := hunlink.append hupdate
      refine ⟨_, hall, by simp, ?_, ?_, ?_⟩
      · intro key hmem
        rw [nodeKeys_append, nodeKeys_unlink, nodeKeys_update, nodeKeys_nil, List.nil_append,
          List.mem_singleton] at hmem
        rw [hmem]
        rfl
      · intro e hrelation
        rw [hall.trace.mem_edges_iff, edgeAfter_append, edgeAfter_update, edgeAfter_nil,
          edgeAfter_unlink, edgeAfter_nil]
        refine ⟨fun he => ⟨he.1, fun htarget => ?_⟩, fun he => ⟨he.1, fun h => he.2 h.2.2⟩⟩
        obtain ⟨i, hi, hsource⟩ := hmembers e he.1 hrelation htarget
        cases hi
        exact he.2 ⟨hsource.trans hkey.symm, hrelation, htarget⟩
      · intro r' hne
        apply unchanged_of_avoids hall.trace
        intro x hx
        simp only [List.singleton_append, List.mem_cons, List.not_mem_nil, or_false] at hx
        obtain rfl | rfl := hx
        · exact hne.symm
        · trivial

/-! ## Parents -/

lemma touch_ok {refs : List WorkReference} {r : WorkReference} (hs : WorkNodes s) (hr : r ∈ refs)
    (hdistinct : (touched.map WorkObject.key).Nodup)
    (hheld : ∀ w ∈ touched, Holds s w ∧ ∃ r ∈ refs, w.key = r.key)
    (h : touch s touched r = .ok touched') :
    (touched'.map WorkObject.key).Nodup ∧
      ∀ w ∈ touched', Holds s w ∧ ∃ r ∈ refs, w.key = r.key := by
  simp only [touch, reference, except_ok] at h
  obtain ⟨parent, hcurrent, _, -, _, -, _, -, rfl⟩ := h
  obtain ⟨hkey, hparent, -⟩ := current_ok hs hcurrent
  split
  · have hsame : (touched.map fun w => if w.key = parent.key then parent else w).map
        WorkObject.key = touched.map WorkObject.key := by
      rw [List.map_map]
      apply List.map_congr_left
      intro w _
      by_cases hw : w.key = parent.key
      · simp [hw]
      · simp [hw]
    refine ⟨hsame ▸ hdistinct, ?_⟩
    intro w hw
    obtain ⟨w', hw', rfl⟩ := List.mem_map.1 hw
    by_cases hkey' : w'.key = parent.key
    · rw [if_pos hkey']
      exact ⟨hparent, r, hr, hkey⟩
    · rw [if_neg hkey']
      exact hheld w' hw'
  · rename_i hnew
    refine ⟨?_, ?_⟩
    · rw [List.map_append, List.nodup_append]
      refine ⟨hdistinct, List.nodup_singleton _, ?_⟩
      intro a ha b hb heq
      obtain ⟨w, hw, rfl⟩ := List.mem_map.1 ha
      rw [List.map_singleton, List.mem_singleton] at hb
      exact hnew ⟨w, hw, heq.trans hb⟩
    · intro w hw
      obtain hw | hw := List.mem_append.1 hw
      · exact hheld w hw
      · rw [List.mem_singleton.1 hw]
        exact ⟨hparent, r, hr, hkey⟩

/-- The parents that a change touches are stored, named by the change, and each there once. -/
lemma touched_ok (refs : List WorkReference) {rest : List WorkReference}
    (hs : WorkNodes s) (hrest : ∀ r ∈ rest, r ∈ refs)
    (hdistinct : (touched.map WorkObject.key).Nodup)
    (hheld : ∀ w ∈ touched, Holds s w ∧ ∃ r ∈ refs, w.key = r.key)
    (h : rest.foldlM (touch s) touched = .ok touched') :
    (touched'.map WorkObject.key).Nodup ∧
      ∀ w ∈ touched', Holds s w ∧ ∃ r ∈ refs, w.key = r.key := by
  induction rest generalizing touched with
  | nil =>
    cases h
    exact ⟨hdistinct, hheld⟩
  | cons r rest ih =>
    simp only [List.foldlM_cons, except_bind_ok] at h
    obtain ⟨next, hnext, h⟩ := h
    rw [List.forall_mem_cons] at hrest
    obtain ⟨hdistinct', hheld'⟩ := touch_ok hs hrest.1 hdistinct hheld hnext
    exact ih hrest.2 hdistinct' hheld' h

lemma touch_unfinished {r : WorkReference} (hs : WorkNodes s)
    (h : touch s touched r = .ok touched') : Unfinished s r.key := by
  simp only [touch, reference, active, reopenBeforeScopeChange, except_ok] at h
  obtain ⟨parent, hcurrent, _, hactive, _, hopen, -⟩ := h
  obtain ⟨hkey, hold, -⟩ := current_ok hs hcurrent
  exact ⟨parent, hold, hkey, (Bool.not_eq_true _).mp hactive, hopen⟩

lemma touched_unfinished {refs : List WorkReference}
    (hs : WorkNodes s) (h : refs.foldlM (touch s) touched = .ok touched') :
    ∀ r ∈ refs, Unfinished s r.key := by
  induction refs generalizing touched with
  | nil => exact fun r hr => absurd hr List.not_mem_nil
  | cons r refs ih =>
    simp only [List.foldlM_cons, except_bind_ok] at h
    obtain ⟨next, hnext, h⟩ := h
    exact List.forall_mem_cons.2 ⟨touch_unfinished hs hnext, ih h⟩

lemma checkParents_ok {change : ParentChange} {found : List EdgeRecord}
    (h : checkParents s w change = .ok found) :
    (∀ e, e ∈ found ↔ e ∈ s.edges ∧ e.relationship = .hasChild ∧ e.target = w.key) ∧
      ∀ e ∈ found, e.source ∈ change.previousParent.toList.map WorkReference.key := by
  simp only [checkParents, validationEdges, except_ok, not_not] at h
  obtain ⟨edges, hedges, _, hsources, rfl⟩ := h
  cases boundedEdges_ok hedges
  refine ⟨?_, ?_⟩
  · intro e
    simp only [List.mem_filter, decide_eq_true_eq, and_assoc]
  · intro e he
    rw [← hsources]
    exact List.mem_dedup.2 (List.mem_map_of_mem he)

lemma parents_kinds {kind parent : Label} (h : parent ∈ parents kind) :
    parent ∈ todoKinds ∧ parent ≠ kind := by
  revert h
  cases kind <;> cases parent <;> decide

theorem setParent_effect {change : ParentChange} (hs : WorkNodes s)
    (hkind : w.kind ∈ todoKinds) (hold : Holds s w) (hactive : w.archived = false)
    (hkey : w.key ∈ keys) (hrefs : ∀ r ∈ change.previousParent.toList ++ change.parent.toList,
      r.key ∈ keys ∧ r.kind ∈ parents w.kind)
    (harenas : ∀ r ∈ change.previousArena.join, (.arena, r.id) ∈ keys)
    (h : setParent clock w change s = .ok w' s') :
    ∃ ws, Moves keys s ws s' w w' ∧ Quiet w w' ∧ Reshape s s' := by
  simp only [setParent, bump, bind_ok, lift_ok, reading_ok] at h
  rcases h with ⟨_, _, ⟨hopen, rfl⟩, found, _, ⟨hfound, rfl⟩, touched, _, ⟨htouched, rfl⟩, _, t1,
    hremove, _, t2, hdelete, _, t3, hcreate, _, t4, hbumps, hbump⟩
  rw [reopenBeforeScopeChange, raiseIf_eq_ok] at hopen
  obtain ⟨hmem, hsources⟩ := checkParents_ok hfound
  have hunfinished := touched_unfinished hs htouched
  obtain ⟨hdistinct, htouched⟩ := touched_ok _ hs (fun _ hr => hr) (by simp) (by simp) htouched
  rcases removeForParent_effect w.key harenas hremove with
    ⟨ws1, hws1, hnodup1, hlabels1, hcontains1, hsame1⟩
  have hkinds : ∀ x ∈ touched, x.kind ∈ parents w.kind := by
    intro x hx
    obtain ⟨r, hr, hxkey⟩ := (htouched x hx).2
    have hxkind : x.kind = r.kind := congrArg Prod.fst hxkey
    exact hxkind ▸ (hrefs r hr).2
  have hkeys2 : ∀ a ∈ found.map (·.source), a ∈ keys := by
    intro a ha
    obtain ⟨e, he, rfl⟩ := List.mem_map.1 ha
    obtain ⟨r, hr, hrkey⟩ := List.mem_map.1 (hsources e he)
    exact hrkey ▸ (hrefs r (List.mem_append_left _ hr)).1
  rcases replaceEdges_effect w.key hdelete hcreate hkeys2
    (fun r hr => (hrefs r (List.mem_append_right _ hr)).1) (fun _ => rfl) with
      ⟨ws2, hws2, hnokeys, hreplaced, hothers⟩
  have hedges := hws1.append hws2
  have hframe : ∀ x : WorkObject, x.kind ∈ todoKinds → Holds s x → Holds t3 x := by
    intro x hx hxs
    apply hxs.of_trace hedges.trace
    rw [nodeKeys_append, hnokeys, List.append_nil]
    intro hmem'
    have hlabel : x.kind = .arena := hlabels1 _ hmem'
    rw [hlabel] at hx
    exact absurd hx (by decide)
  have hkeys4 : ∀ x ∈ touched, x.key ∈ keys := by
    intro x hx
    obtain ⟨r, hr, hxkey⟩ := (htouched x hx).2
    exact hxkey ▸ (hrefs r hr).1
  rcases bumpAll_effect w.key
    (fun x hx => hframe x (parents_kinds (hkinds x hx)).1 (htouched x hx).1)
    (fun x hx => (parents_kinds (hkinds x hx)).1) hkeys4 hdistinct hbumps with
      ⟨ws4, hws4, hnodeKeys4, hnodes4⟩
  have hnew : w.key ∉ nodeKeys ws4 := by
    rw [hnodeKeys4]
    intro hmem'
    obtain ⟨x, hx, hxkey⟩ := List.mem_map.1 hmem'
    exact (parents_kinds (hkinds x hx)).2 (congrArg Prod.fst hxkey)
  have hheld4 := (hframe w hkind hold).of_trace hws4.trace hnew
  obtain ⟨rfl, hvalid, hws5⟩ := effect_bump w.key hkind hheld4 hkey hbump
  have hall := (hedges.append hws4).append hws5
  refine ⟨_, ⟨hall, ?_, by simp, rfl, hvalid⟩, quiet_next w _, ?_⟩
  · simp only [nodeKeys_append, hnokeys, List.append_nil, nodeKeys_update, nodeKeys_nil,
      List.nodup_append, hnodeKeys4]
    refine ⟨⟨hnodup1, hdistinct, ?_⟩, List.nodup_singleton _, ?_⟩
    · rintro a ha b hb rfl
      obtain ⟨x, hx, rfl⟩ := List.mem_map.1 hb
      have hlabel : x.kind = .arena := hlabels1 _ ha
      have hx := (parents_kinds (hkinds x hx)).1
      rw [hlabel] at hx
      exact absurd hx (by decide)
    · rintro a ha b hb rfl
      rw [List.mem_singleton.1 hb] at ha
      obtain ha | ha := List.mem_append.1 ha
      · have hlabel : w.kind = .arena := hlabels1 _ ha
        rw [hlabel] at hkind
        exact absurd hkind (by decide)
      · exact hnew (hnodeKeys4 ▸ ha)
  · -- The edges after the change, from the last step that can change them back to the first.
    have hlast : ∀ r, Unchanged r t3 s' := fun r =>
      (unchanged_of_nodes r hws4.trace hnodes4).trans
        (unchanged_of_nodes r hws5.trace fun x hx => by rw [List.mem_singleton.1 hx]; rfl)
    apply Reshape.parent w.key (change.parent.map WorkReference.key)
    · intro p hp
      obtain ⟨r, hr, rfl⟩ := Option.map_eq_some_iff.1 hp
      exact (hrefs r (List.mem_append_right _ (Option.mem_toList.2 hr))).2
    · exact ⟨w, hold, rfl, hactive, hopen⟩
    · intro e he hrelation htarget
      rcases List.mem_map.1 (hsources e ((hmem e).2 ⟨he, hrelation, htarget⟩)) with
        ⟨r, hr, hrkey⟩
      exact hrkey ▸ hunfinished r (List.mem_append_left _ hr)
    · intro p hp
      obtain ⟨r, hr, rfl⟩ := Option.map_eq_some_iff.1 hp
      exact hunfinished r (List.mem_append_right _ (Option.mem_toList.2 hr))
    · intro e he
      rw [hlast _ e he, hreplaced, hsame1 .hasChild (by decide) e he]
      refine or_congr (and_congr_right fun hes => not_congr ⟨fun h => h.2.2, fun htarget => ?_⟩)
        (by simp)
      exact ⟨List.mem_map_of_mem ((hmem e).2 ⟨hes, he, htarget⟩), he, htarget⟩
    · intro e he
      rw [hlast _ e he, hothers .containsWork (by decide) e he, hcontains1 e he]
    · intro r _ hchild hcontains
      exact ((hsame1 r hcontains).trans (hothers r hchild)).trans (hlast r)

lemma touchedArenas_ok {m : Work.Membership} {touched : List Arena}
    (h : touchedArenas s m = .ok touched) :
    (touched.map Arena.key).Nodup ∧ ∀ a ∈ touched, s.node? a.key = some a.node ∧
      ∃ r ∈ m.previousArena.toList ++ m.arena.toList, a.key = (.arena, r.id) := by
  simp only [touchedArenas, except_ok] at h
  obtain ⟨prior, hprior, target, htarget, rfl⟩ := h
  have hread : ∀ a ∈ prior ++ target, s.node? a.key = some a.node ∧
      ∃ r ∈ m.previousArena.toList ++ m.arena.toList, a.key = (.arena, r.id) := by
    intro a ha
    have hread : ∃ r ∈ m.previousArena.toList ++ m.arena.toList, currentArena s r = .ok a := by
      obtain ha | ha := List.mem_append.1 ha
      · obtain ⟨r, hr, hcurrent⟩ := mem_mapM hprior ha
        exact ⟨r, List.mem_append_left _ hr, hcurrent⟩
      · obtain ⟨r, hr, hcurrent⟩ := mem_mapM htarget ha
        exact ⟨r, List.mem_append_right _ hr, hcurrent⟩
    obtain ⟨r, hr, hcurrent⟩ := hread
    obtain ⟨hid, hnode, -⟩ := currentArena_ok hcurrent
    exact ⟨hnode, r, hr, by rw [Arena.key, hid]⟩
  refine ⟨?_, fun a ha => hread a (List.mem_dedup.1 ha)⟩
  apply List.Nodup.map_on _ (List.nodup_dedup _)
  intro a ha b hb heq
  have hnodeA := (hread a (List.mem_dedup.1 ha)).1
  have hnodeB := (hread b (List.mem_dedup.1 hb)).1
  rw [heq, hnodeB] at hnodeA
  exact arena_ext (congrArg Prod.snd heq) (Option.some.inj hnodeA).symm

theorem setMember_effect {key : Key} {version : Int}
    {m : Work.Membership} (hs : WorkNodes s) (hkind : key.1 ∈ directKinds) (hkey : key ∈ keys)
    (hrefs : ∀ r ∈ m.previousArena.toList ++ m.arena.toList, (Label.arena, r.id) ∈ keys)
    (h : setMember clock key version m s = .ok w' s') :
    ∃ w ws, w.key = key ∧ Holds s w ∧ w.version = version ∧ w.archived = false ∧
      Moves keys s ws s' w w' ∧ Quiet w w' ∧ Reshape s s' := by
  simp only [setMember, bind_ok, reading_ok] at h
  rcases h with ⟨w, _, ⟨hget, rfl⟩, touched, _, ⟨hcheck, rfl⟩, _, t1, hdelete, _, t2, hcreate, _,
    t3, hbumps, hbump⟩
  obtain ⟨rfl, hold⟩ := getById_ok hs hget
  have htodo : w.kind ∈ todoKinds := by
    revert hkind
    change w.kind ∈ directKinds → _
    cases w.kind <;> decide
  simp only [checkMember, except_ok, not_not] at hcheck
  rcases hcheck with ⟨_, hversion, _, hactive, found, hfound, _, hroot, _, harena, touched,
    htouched, _, -, rfl⟩
  obtain ⟨id, hascend, hid⟩ := membership_ok hfound
  rw [hroot] at hascend
  rw [harena] at hid
  subst hid
  obtain ⟨hparentless, hmembers⟩ := ascend_root hascend
  obtain ⟨hdistinct, hread⟩ := touchedArenas_ok htouched
  have hkeys1 : ∀ a ∈ m.previousArena.toList.map fun r => (Label.arena, r.id), a ∈ keys := by
    intro a ha
    obtain ⟨r, hr, rfl⟩ := List.mem_map.1 ha
    exact hrefs r (List.mem_append_left _ hr)
  rcases replaceEdges_effect w.key hdelete hcreate hkeys1
    (fun r hr => hrefs r (List.mem_append_right _ hr)) (fun _ => rfl) with
      ⟨ws2, hws2, hnokeys, hreplaced, hothers⟩
  have hframe : ∀ k, t2.node? k = s.node? k := fun k =>
    hws2.trace.node?_of_notMem (by rw [hnokeys]; exact List.not_mem_nil)
  have hkeys3 : ∀ a ∈ touched, a.key ∈ keys := by
    intro a ha
    obtain ⟨r, hr, hakey⟩ := (hread a ha).2
    exact hakey ▸ hrefs r hr
  rcases bumpArenas_effect w.key (fun a ha => (hframe _).trans (hread a ha).1) hdistinct hkeys3
    hbumps with ⟨ws3, hws3, hnodeKeys3, hnodes3⟩
  have hnew : w.key ∉ nodeKeys ws3 := by
    rw [hnodeKeys3]
    intro hmem
    obtain ⟨a, -, hakey⟩ := List.mem_map.1 hmem
    have hlabel : Label.arena = w.kind := congrArg Prod.fst hakey
    rw [← hlabel] at htodo
    exact absurd htodo (by decide)
  have hheld : Holds t3 w :=
    Holds.of_trace ⟨(hframe _).trans hold.node, hold.valid⟩ hws3.trace hnew
  obtain ⟨rfl, hvalid, hws4⟩ := effect_bump w.key htodo hheld hkey hbump
  have hall := (hws2.append hws3).append hws4
  refine ⟨w, _, rfl, hold, hversion, (Bool.not_eq_true _).mp hactive,
    ⟨hall, ?_, by simp, rfl, hvalid⟩, quiet_next w _, ?_⟩
  · rw [nodeKeys_append, nodeKeys_append, hnokeys, List.nil_append, nodeKeys_update, nodeKeys_nil,
      List.nodup_append]
    refine ⟨hnodeKeys3 ▸ hdistinct, List.nodup_singleton _, ?_⟩
    rintro a ha b hb rfl
    exact hnew (List.mem_singleton.1 hb ▸ ha)
  · have hlast : ∀ r, Unchanged r t2 s' := fun r =>
      (unchanged_of_nodes r hws3.trace hnodes3).trans
        (unchanged_of_nodes r hws4.trace fun x hx => by rw [List.mem_singleton.1 hx]; rfl)
    apply Reshape.member w.key (m.arena.map ArenaReference.id) hkind
      ⟨w, hold, rfl, (Bool.not_eq_true _).mp hactive⟩ hparentless
    · intro e he
      rw [hlast _ e he, hreplaced]
      refine or_congr (and_congr_right fun hes => not_congr ⟨fun h => h.2.2, fun htarget => ?_⟩)
        (by simp)
      obtain ⟨i, hi, hsource⟩ := hmembers e hes he htarget
      obtain ⟨r, hr, rfl⟩ := Option.map_eq_some_iff.1 hi
      exact ⟨List.mem_map.2 ⟨r, Option.mem_toList.2 hr, hsource.symm⟩, he, htarget⟩
    · exact fun r _ hne => (hothers r hne).trans (hlast r)

/-! ## Order -/

/-- An edge that was added closes no cycle, and one that was removed is gone. -/
lemma changeEdge_effect (subject : Key) {add : Bool} {a b : Key}
    (hkey : a ∈ keys) (h : changeEdge r add a b s = .ok v s') :
    ∃ ws, Effect subject keys s ws s' ∧ nodeKeys ws = [] ∧
      (∀ e : EdgeRecord, ¬ (e.source = a ∧ e.relationship = r ∧ e.target = b) →
        (e ∈ s'.edges ↔ e ∈ s.edges)) ∧
      ∀ c d, Linked r s' c d → Linked r s c d ∨
        c = a ∧ d = b ∧ ¬ Relation.ReflTransGen (Linked r s) b a := by
  unfold changeEdge at h
  cases add with
  | true =>
    simp only [if_true, bind_ok, reading_ok, raiseIf_ok] at h
    obtain ⟨edges, _, ⟨hedges, rfl⟩, _, _, ⟨hmeets, rfl⟩, hedge⟩ := h
    have hlink : Effect subject keys s _ s' := effect_link subject hkey hedge
    cases boundedEdges_ok hedges
    have hpath := no_path_of_not_meets ((Bool.not_eq_true _).mp hmeets)
    refine ⟨_, hlink, rfl, ?_, ?_⟩
    · intro e hne
      rw [hlink.trace.mem_edges_iff, edgeAfter_link, edgeAfter_nil]
      exact ⟨fun he => he.resolve_right fun heq => hne (heq ▸ ⟨rfl, rfl, rfl⟩), .inl⟩
    · rintro c d ⟨e, he, hrelation, rfl, rfl⟩
      rw [hlink.trace.mem_edges_iff, edgeAfter_link, edgeAfter_nil] at he
      obtain he | rfl := he
      · exact .inl ⟨e, he, hrelation, rfl, rfl⟩
      · refine .inr ⟨rfl, rfl, fun hlinked => hpath (hlinked.lift id ?_)⟩
        rintro c d ⟨e, he, hrelation, rfl, rfl⟩
        apply List.mem_map.2
        exact ⟨e, List.mem_filter.2 ⟨he, decide_eq_true hrelation⟩, rfl⟩
  | false =>
    simp only [Bool.false_eq_true, if_false] at h
    have hunlink : Effect subject keys s [.unlink a r b] s' :=
      .single (deleteEdge_trace h) (.unlink _ _ _) hkey
    refine ⟨_, hunlink, rfl, ?_, ?_⟩
    · intro e hne
      rw [hunlink.trace.mem_edges_iff, edgeAfter_unlink, edgeAfter_nil]
      exact ⟨And.left, fun he => ⟨he, hne⟩⟩
    · rintro c d ⟨e, he, hrelation, rfl, rfl⟩
      rw [hunlink.trace.mem_edges_iff, edgeAfter_unlink, edgeAfter_nil] at he
      exact .inl ⟨e, he.1, hrelation, rfl, rfl⟩

theorem edgeChange_effect {add : Bool}
    {ref : WorkReference} (hs : WorkNodes s) (hkind : w.kind ∈ todoKinds) (hold : Holds s w)
    (hactive : w.archived = false) (hkey : w.key ∈ keys) (href : ref.key ∈ keys)
    (hrefKind : ref.kind ∈ workKinds) (hne : ref.key ≠ w.key) (hr : r = .dependsOn ∨ r = .blocks)
    (h : edgeChange clock w r add ref s = .ok w' s') :
    ∃ ws, Moves keys s ws s' w w' ∧ Quiet w w' ∧ Reshape s s' := by
  simp only [edgeChange, reference, bump, active, reopenBeforeScopeChange, bind_ok, reading_ok,
    lift_ok, raiseIf_eq_ok] at h
  rcases h with ⟨target, _, ⟨hcurrent, rfl⟩, _, _, ⟨htargetActive, rfl⟩, _, _, ⟨hopen, rfl⟩, _, _,
    ⟨htargetOpen, rfl⟩, _, t1, hchange, _, t2, hbumpTarget, hbump⟩
  obtain ⟨htargetKey, htarget, -⟩ := current_ok hs hcurrent
  have htargetKind : target.kind ∈ todoKinds := by
    rw [show target.kind = ref.kind from congrArg Prod.fst htargetKey]
    exact todoKinds_iff.2 (.inr hrefKind)
  obtain ⟨ws, hws, hnokeys, hothers, hnew⟩ := changeEdge_effect w.key hkey hchange
  have hframe : ∀ x : WorkObject, Holds s x → Holds t1 x := fun x hx =>
    hx.of_trace hws.trace (by rw [hnokeys]; exact List.not_mem_nil)
  have hws2 := (effect_bump w.key htargetKind (hframe _ htarget) (htargetKey ▸ href)
    hbumpTarget).2.2
  have hdistinct : w.key ≠ target.key := htargetKey ▸ hne.symm
  have hheld : Holds t2 w := (hframe _ hold).of_trace hws2.trace (by simpa using hdistinct)
  obtain ⟨rfl, hvalid, hws3⟩ := effect_bump w.key hkind hheld hkey hbump
  have hall := (hws.append hws2).append hws3
  refine ⟨_, ⟨hall, ?_, by simp, rfl, hvalid⟩, quiet_next w _, ?_⟩
  · simp only [nodeKeys_append, hnokeys, nodeKeys_update, nodeKeys_nil, List.nil_append]
    simpa using hdistinct.symm
  · have hlast : ∀ r, Unchanged r t1 s' := fun r =>
      (unchanged_of_nodes r hws2.trace fun x hx => by rw [List.mem_singleton.1 hx]; rfl).trans
        (unchanged_of_nodes r hws3.trace fun x hx => by rw [List.mem_singleton.1 hx]; rfl)
    apply Reshape.order r w.key target.key _ _ _ _ _ hr
    · exact ⟨w, hold, rfl, hactive, hopen⟩
    · exact ⟨target, htarget, rfl, (Bool.not_eq_true _).mp htargetActive, htargetOpen⟩
    · rintro a b ⟨e, he, hrelation, rfl, rfl⟩
      exact hnew _ _ ⟨e, (hlast r e hrelation).1 he, hrelation, rfl, rfl⟩
    · intro e hne
      rw [hlast e.relationship e rfl]
      exact hothers e hne
    · intro r' _ hr' e he
      rw [hlast r' e he]
      exact hothers e fun heq => hr' (he.symm.trans heq.2.1)

end DevGraph.Proofs
