import DevGraph.Proofs.RecordStores

/-!
# The resolvers of ancestry agree

The batched survey captures where every ancestor stands, and the trails over it end in the Arena
of the lineage. So the three resolvers give the same Arena and the same root.
-/

namespace DevGraph.Proofs

open Lib Work

variable {above : List EdgeRecord}

variable {memberships : List EdgeRecord} {before : AList fun _ : Key => Placement}

variable {s : Store} {key : Key} {keys seen : List Key} {survey : Survey}

/-- The parent and the Arena that the edges into an item give. -/
def placementAt (above memberships : List EdgeRecord) : Placement :=
  ⟨above.head?.map Edge.source, arenaOf memberships⟩

/-- An item that the resolvers read. -/
def Listed (s : Store) (key : Key) : Prop := key.1 ∈ todoKinds ∧ ∃ node, s.node? key = some node

def Captures (s : Store) (captured : AList fun _ : Key => Placement) : Prop :=
  ∀ key p, captured.lookup key = some p →
    ∃ above memberships, Stands s key above memberships ∧ p = placementAt above memberships

/-- What the survey of a frontier has found after some of its items. -/
structure Surveying (s : Store) (before : AList fun _ : Key => Placement) (seen : List Key)
    (survey : Survey) : Prop where
  domain : ∀ key, key ∈ survey.captured ↔ key ∈ before ∨ key ∈ seen
  captures : Captures s survey.captured
  closed : ∀ key ∈ seen, ∀ parent, Linked .hasChild s parent key →
    parent ∈ survey.captured ∨ parent ∈ survey.pending
  pending : ∀ parent ∈ survey.pending, ∃ key ∈ seen, Linked .hasChild s parent key
  distinct : survey.pending.Nodup
  size : survey.captured.keys.length ≤ before.keys.length + seen.length
  length : survey.pending.length ≤ seen.length

section Items

variable (hs : Placed s) (hwell : WellFormed s)

include hs hwell

lemma placementOf_eq (h : Stands s key above memberships)
    (hkey : key.1 ∈ todoKinds) {node : Node} (hnode : s.node? key = some node) :
    placementOf key ⟨node, above, memberships⟩ = .ok (placementAt above memberships) := by
  obtain ⟨w, hw⟩ := hwell.work key node hnode (todoKinds_canonical hkey)
  rw [placementOf, hw]
  change (directId key ⟨node, above, memberships⟩ >>= fun _ => _) = _
  rw [directId_eq hs h]
  simp only [except_ok, Except.ok.injEq, exists_eq_left', exists_const]
  refine ⟨by simpa using h.length_le.1, ?_⟩
  cases h with
  | root => rfl
  | placed => rfl
  | @child e he hr =>
    have hkind := hs.parent_kind e he hr
    simp only [except_ok, exists_const]
    exact ⟨by simp [arenaOf, hkind], rfl⟩

end Items

lemma linked_iff (hs : Placed s)
    (h : Stands s key above memberships) {parent : Key} :
    Linked .hasChild s parent key ↔ (placementAt above memberships).parent = some parent := by
  constructor
  · rintro ⟨e, he, hr, rfl, rfl⟩
    obtain ⟨rfl, rfl⟩ := h.unique hs (.child he hr)
    rfl
  · intro hparent
    cases h with
    | root => cases hparent
    | placed => cases hparent
    | @child e he hr =>
      cases hparent
      exact ⟨e, he, hr, rfl, rfl⟩

lemma length_keys_insert {α β : Type} [DecidableEq α] (m : AList fun _ : α => β) (a : α) (b : β) :
    (m.insert a b).keys.length ≤ m.keys.length + 1 := by
  rw [AList.keys_insert, List.length_cons]
  exact Nat.succ_le_succ List.length_erase_le

lemma Surveying.capture (hs : Placed s)
    (h : Surveying s before seen survey)
    (hkey : Stands s key above memberships) :
    Surveying s before (seen ++ [key]) (survey.capture key (placementAt above memberships)) := by
  have hdomain : ∀ k, k ∈ (survey.capture key (placementAt above memberships)).captured ↔
      k = key ∨ k ∈ survey.captured := fun k => AList.mem_insert _
  have hpending : ∀ p ∈ survey.pending,
      p ∈ (survey.capture key (placementAt above memberships)).pending := by
    intro p hp
    unfold Survey.capture
    split
    · split
      · exact hp
      · exact List.mem_insert_of_mem hp
    · exact hp
  constructor
  · intro k
    rw [hdomain, h.domain, List.mem_append, List.mem_singleton]
    tauto
  · intro k p hp
    by_cases hk : k = key
    · subst hk
      rw [Survey.capture, AList.lookup_insert] at hp
      cases hp
      exact ⟨above, memberships, hkey, rfl⟩
    · rw [Survey.capture, AList.lookup_insert_ne hk] at hp
      exact h.captures k p hp
  · intro k hk parent hparent
    rw [hdomain]
    obtain hk | hk := List.mem_append.1 hk
    · obtain hmem | hmem := h.closed k hk parent hparent
      · exact .inl (.inr hmem)
      · exact .inr (hpending parent hmem)
    · rw [List.mem_singleton.1 hk, linked_iff hs hkey] at hparent
      by_cases hmem : parent ∈ survey.captured
      · exact .inl (.inr hmem)
      · apply Or.inr
        simp [Survey.capture, hparent, hmem]
  · intro parent hmem
    have hcases : parent ∈ survey.pending ∨
        (placementAt above memberships).parent = some parent := by
      unfold Survey.capture at hmem
      split at hmem
      · rename_i hparent
        split at hmem
        · exact .inl hmem
        · obtain rfl | hmem := List.mem_insert_iff.1 hmem
          · exact .inr hparent
          · exact .inl hmem
      · exact .inl hmem
    obtain hmem | hparent := hcases
    · obtain ⟨k, hk, hlink⟩ := h.pending parent hmem
      exact ⟨k, List.mem_append_left _ hk, hlink⟩
    · exact ⟨key, by simp, (linked_iff hs hkey).2 hparent⟩
  · unfold Survey.capture
    split
    · split
      · exact h.distinct
      · exact h.distinct.insert
    · exact h.distinct
  · have hsize := h.size
    rw [List.length_append, List.length_singleton]
    exact (length_keys_insert _ _ _).trans (by omega)
  · have hlength := h.length
    have hinsert : ∀ p, (survey.pending.insert p).length ≤ survey.pending.length + 1 := by
      intro p
      by_cases hp : p ∈ survey.pending
      · rw [List.length_insert_of_mem hp]
        omega
      · rw [List.length_insert_of_not_mem hp]
    rw [List.length_append, List.length_singleton]
    unfold Survey.capture
    split
    · rename_i p hparent
      split
      · simp only
        omega
      · exact (hinsert p).trans (by omega)
    · simp only
      omega

/-- The survey depends on which items it has seen, not on their order. -/
lemma Surveying.of_perm {seen' : List Key}
    (h : Surveying s before seen survey) (hperm : seen.Perm seen') :
    Surveying s before seen' survey := by
  constructor
  · intro k
    rw [h.domain, hperm.mem_iff]
  · exact h.captures
  · intro k hk
    exact h.closed k (hperm.mem_iff.2 hk)
  · intro p hp
    obtain ⟨k, hk, hlink⟩ := h.pending p hp
    exact ⟨k, hperm.mem_iff.1 hk, hlink⟩
  · exact h.distinct
  · rw [← hperm.length_eq]
    exact h.size
  · rw [← hperm.length_eq]
    exact h.length

section Survey

variable (hs : Placed s) (hwell : WellFormed s)

include hs hwell

omit hwell in
lemma containmentAt_eq (h : Listed s key) : ∃ node above memberships,
    s.node? key = some node ∧ Stands s key above memberships ∧
      containmentAt s key = .ok (key, ⟨node, above, memberships⟩) := by
  obtain ⟨hkey, node, hnode⟩ := h
  obtain ⟨above, memberships, h⟩ := stands_exists s key
  refine ⟨node, above, memberships, hnode, h, ?_⟩
  rw [containmentAt, hnode, (h.take_incoming hs).1, (h.take_incoming hs).2]
  rfl

omit hs in
lemma validateContainmentKeys_eq {batch : List Key} (hne : batch ≠ [])
    (hlength : batch.length ≤ 100) (hnodup : batch.Nodup) (hlisted : ∀ key ∈ batch, Listed s key) :
    validateContainmentKeys batch = .ok () := by
  simp only [validateContainmentKeys, except_ok, exists_const]
  refine ⟨by simp [hne, hlength], (), ?_, not_not.2 hnodup⟩
  apply forM_eq_ok
  intro key hkey
  obtain ⟨hkind, node, hnode⟩ := hlisted key hkey
  have hid := (hwell.kinds key node hnode (List.mem_cons_of_mem _ hkind)).1
  simp only [except_ok, exists_const, validateWorkObjectId]
  exact ⟨not_not.2 (todoKinds_canonical hkind), by simp [hid]⟩

lemma surveyBatch_eq (h : Surveying s before seen survey)
    {batch : List Key} (hne : batch ≠ []) (hlength : batch.length ≤ 100) (hnodup : batch.Nodup)
    (hlisted : ∀ key ∈ batch, Listed s key) :
    ∃ survey', surveyBatch s survey batch = .ok survey' ∧
      Surveying s before (seen ++ batch) survey' := by
  have hsorted : ∀ key ∈ batch.insertionSort keyLe, Listed s key :=
    fun key hkey => hlisted key ((List.mem_insertionSort _).1 hkey)
  have hexists : ∀ key ∈ batch.insertionSort keyLe, ∃ entry, containmentAt s key = .ok entry := by
    intro key hkey
    obtain ⟨node, above, memberships, -, -, h⟩ := containmentAt_eq hs (hsorted key hkey)
    exact ⟨_, h⟩
  obtain ⟨items, hitems⟩ := mapM_exists hexists
  have hkeys : items.map Prod.fst = batch.insertionSort keyLe := by
    apply map_of_mapM _ hitems
    intro key entry hentry
    unfold containmentAt at hentry
    split at hentry <;> cases hentry
    rfl
  have hstep : ∀ seen' survey, ∀ entry ∈ items,
      Surveying s before (seen ++ seen'.map Prod.fst) survey →
      ∃ survey', surveyItem survey entry = .ok survey' ∧
        Surveying s before (seen ++ (seen' ++ [entry]).map Prod.fst) survey' := by
    intro seen' survey entry hentry h
    obtain ⟨key, hkey, hat⟩ := mem_mapM hitems hentry
    rcases containmentAt_eq hs (hsorted key hkey) with
      ⟨node, above, memberships, hnode, hstands, hat'⟩
    rw [hat'] at hat
    cases hat
    refine ⟨survey.capture key (placementAt above memberships), ?_, ?_⟩
    · rw [surveyItem, placementOf_eq hs hwell hstands (hsorted key hkey).1 hnode]
      rfl
    · rw [List.map_append, ← List.append_assoc]
      exact h.capture hs hstands
  rcases foldlM_total (fun seen' => Surveying s before (seen ++ seen'.map Prod.fst)) hstep
    (by simpa using h) with ⟨survey', hfold, hsurvey⟩
  refine ⟨survey', ?_, ?_⟩
  · rw [surveyBatch, workContainmentBatch,
      validateContainmentKeys_eq hwell hne hlength hnodup hlisted]
    change ((batch.insertionSort keyLe).mapM (containmentAt s) >>= fun items => _) = _
    rw [hitems]
    exact hfold
  · rw [hkeys] at hsurvey
    exact hsurvey.of_perm ((List.perm_insertionSort _ _).append_left seen)

lemma surveyFrontier_found (hcaptures : Captures s survey.captured)
    (hdistinct : survey.pending.Nodup) (hlisted : ∀ key ∈ survey.pending, Listed s key) :
    ∃ found, (batches 99 (survey.pending.insertionSort keyLe)).foldlM (surveyBatch s)
        ⟨survey.captured, []⟩ = .ok found ∧
      Surveying s survey.captured survey.pending found := by
  have hstart :
      Surveying s survey.captured ([] : List (List Key)).flatten ⟨survey.captured, []⟩ := by
    refine ⟨?_, hcaptures, ?_, ?_, List.nodup_nil, ?_, ?_⟩ <;> simp
  have hstep : ∀ (seen : List (List Key)) found,
      ∀ batch ∈ batches 99 (survey.pending.insertionSort keyLe),
      Surveying s survey.captured seen.flatten found →
      ∃ found', surveyBatch s found batch = .ok found' ∧
        Surveying s survey.captured (seen ++ [batch]).flatten found' := by
    intro seen found batch hbatch h
    obtain ⟨hne, hlength, hsub⟩ := length_of_mem_batches hbatch
    have hnodup : batch.Nodup :=
      hsub.nodup ((List.perm_insertionSort keyLe survey.pending).nodup_iff.2 hdistinct)
    have hbatchListed : ∀ key ∈ batch, Listed s key :=
      fun key hkey => hlisted key ((List.mem_insertionSort _).1 (hsub.subset hkey))
    obtain ⟨found', hfound, h'⟩ := surveyBatch_eq hs hwell h hne hlength hnodup hbatchListed
    refine ⟨found', hfound, ?_⟩
    rwa [List.flatten_append, List.flatten_singleton]
  rcases foldlM_total (fun seen => Surveying s survey.captured seen.flatten) hstep hstart with
    ⟨found, hfound, h⟩
  rw [flatten_batches] at h
  exact ⟨found, hfound, h.of_perm (List.perm_insertionSort _ _)⟩

end Survey

/-- What the survey has found after some turns, each of which goes up by one level. -/
structure Surveyed (s : Store) (keys : List Key) (turn : Nat) (survey : Survey) : Prop where
  captures : Captures s survey.captured
  closed : ∀ key ∈ survey.captured, ∀ parent, Linked .hasChild s parent key →
    parent ∈ survey.captured ∨ parent ∈ survey.pending
  covers : ∀ key ∈ keys, key ∈ survey.captured ∨ key ∈ survey.pending
  distinct : survey.pending.Nodup
  listed : ∀ key ∈ survey.pending, Listed s key ∧ turn ≤ level key.1
  size : survey.captured.keys.length ≤ turn * keys.length
  length : survey.pending.length ≤ keys.length

lemma linked_level (hs : Placed s) {parent : Key} (h : Linked .hasChild s parent key) :
    Listed s parent ∧ level key.1 < level parent.1 := by
  obtain ⟨e, he, hr, rfl, rfl⟩ := h
  obtain ⟨hlevel, htodo⟩ := level_lt_of_parent (hs.parent_kind e he hr)
  exact ⟨⟨htodo, (node_of_edge he).1⟩, hlevel⟩

section Survey

variable (hs : Placed s) (hwell : WellFormed s) (hkeys : keys.length ≤ 10000)

include hs hwell hkeys

lemma surveyFrontier_eq {turn : Nat} (hturn : turn ≤ 3) (h : Surveyed s keys turn survey) :
    ∃ survey', surveyFrontier s survey = .ok survey' ∧ Surveyed s keys (turn + 1) survey' := by
  rcases surveyFrontier_found hs hwell h.captures h.distinct fun key hkey => (h.listed key hkey).1
    with ⟨found, hfound, hsurvey⟩
  have hlisted : ∀ key ∈ found.pending.filter (· ∉ found.captured),
      Listed s key ∧ turn + 1 ≤ level key.1 := by
    intro parent hparent
    obtain ⟨key, hkey, hlink⟩ := hsurvey.pending parent (List.mem_filter.1 hparent).1
    obtain ⟨hlisted, hlevel⟩ := linked_level hs hlink
    have hturn := (h.listed key hkey).2
    exact ⟨hlisted, by omega⟩
  have hsize : found.captured.keys.length ≤ (turn + 1) * keys.length := by
    have h1 := hsurvey.size
    have h2 := h.size
    have h3 := h.length
    rw [Nat.succ_mul]
    omega
  have hlength : (found.pending.filter (· ∉ found.captured)).length ≤ keys.length :=
    (List.length_filter_le _ _).trans (hsurvey.length.trans h.length)
  have hcapacity : ¬ found.captured.keys.length +
      (found.pending.filter (· ∉ found.captured)).length > 40000 := by
    by_cases hlast : turn = 3
    · -- nothing is above the fourth level
      have hnil : found.pending.filter (· ∉ found.captured) = [] := by
        rw [List.eq_nil_iff_forall_not_mem]
        intro key hkey
        have hlevel := (hlisted key hkey).2
        have htop := level_le key.1
        omega
      rw [hnil, List.length_nil]
      subst hlast
      omega
    · have hmul : (turn + 1) * keys.length ≤ 3 * keys.length :=
        Nat.mul_le_mul_right _ (by omega)
      omega
  refine ⟨⟨found.captured, found.pending.filter (· ∉ found.captured)⟩, ?_, ?_⟩
  · rw [surveyFrontier, hfound]
    simp only [except_ok, Except.ok.injEq, exists_eq_left', exists_const]
    exact ⟨hcapacity, trivial⟩
  · refine ⟨hsurvey.captures, ?_, ?_, hsurvey.distinct.filter _, hlisted, hsize, hlength⟩
    · intro key hkey parent hlink
      have hany : parent ∈ found.captured ∨ parent ∈ found.pending := by
        obtain hold | hnew := (hsurvey.domain key).1 hkey
        · obtain hmem | hmem := h.closed key hold parent hlink
          · exact .inl ((hsurvey.domain parent).2 (.inl hmem))
          · exact .inl ((hsurvey.domain parent).2 (.inr hmem))
        · exact hsurvey.closed key hnew parent hlink
      by_cases hmem : parent ∈ found.captured
      · exact .inl hmem
      · exact .inr (List.mem_filter.2 ⟨hany.resolve_left hmem, by simpa using hmem⟩)
    · intro key hkey
      exact .inl ((hsurvey.domain key).2 (h.covers key hkey))

lemma surveyAll_eq {n turn : Nat} (hturn : n + turn = 4) (h : Surveyed s keys turn survey) :
    ∃ survey', surveyAll s n survey = .ok survey' ∧ survey'.pending = [] ∧
      ∃ turn', Surveyed s keys turn' survey' := by
  induction n generalizing turn survey with
  | zero =>
    refine ⟨survey, rfl, ?_, turn, h⟩
    rw [List.eq_nil_iff_forall_not_mem]
    intro key hkey
    have hlevel := (h.listed key hkey).2
    have htop := level_le key.1
    omega
  | succ n ih =>
    rw [surveyAll]
    split
    · rename_i hpending
      exact ⟨survey, rfl, hpending, turn, h⟩
    · obtain ⟨next, hnext, h'⟩ := surveyFrontier_eq hs hwell hkeys (by omega) h
      rw [hnext]
      exact ih (by omega) h'

end Survey

/-! ## Trails -/

def InArena (s : Store) (key : Key) (arena : Option String) : Prop :=
  ∃ root chain, Lineage s key root arena chain

lemma InArena.child {parent : Key} {arena : Option String}
    (h : InArena s parent arena) (hlink : Linked .hasChild s parent key) : InArena s key arena := by
  obtain ⟨root, chain, h⟩ := h
  obtain ⟨e, he, hr, rfl, rfl⟩ := hlink
  exact ⟨root, _, .child (.child he hr) h⟩

section Trails

variable {captured : AList fun _ : Key => Placement} {resolved : AList fun _ : Key => Option String}

def Resolves (s : Store) (resolved : AList fun _ : Key => Option String) : Prop :=
  ∀ key arena, resolved.lookup key = some arena → InArena s key arena

variable (hs : Placed s) (hcaptures : Captures s captured)
  (hclosed : ∀ key ∈ captured, ∀ parent, Linked .hasChild s parent key → parent ∈ captured)

include hs hcaptures hclosed

lemma trail_eq (hresolves : Resolves s resolved) {n : Nat} (hn : 3 < n + level key.1)
    (hkey : key ∈ captured) :
    ∃ members arena, trail captured resolved n key = .ok (members, arena) ∧ InArena s key arena ∧
      (∀ member ∈ members, InArena s member arena) ∧ (key ∈ members ∨ key ∈ resolved) := by
  induction n generalizing key with
  | zero =>
    have htop := level_le key.1
    omega
  | succ n ih =>
    rw [trail]
    cases hresolved : resolved.lookup key with
    | some arena =>
      exact ⟨[], arena, rfl, hresolves key arena hresolved, by simp,
        .inr (AList.lookup_isSome.1 (by rw [hresolved]; rfl))⟩
    | none =>
      obtain ⟨p, hp⟩ := Option.isSome_iff_exists.1 (AList.lookup_isSome.2 hkey)
      obtain ⟨above, memberships, hstands, rfl⟩ := hcaptures key p hp
      rw [hp]
      cases above with
      | nil =>
        have harena : InArena s key (arenaOf memberships) := ⟨key, _, .root hstands⟩
        refine ⟨[key], arenaOf memberships, rfl, harena, ?_, .inl (by simp)⟩
        intro member hmember
        rw [List.mem_singleton.1 hmember]
        exact harena
      | cons e rest =>
        have hlink : Linked .hasChild s e.source key := (linked_iff hs hstands).2 rfl
        have hlevel := (linked_level hs hlink).2
        rcases ih (by omega) (hclosed key hkey e.source hlink) with
          ⟨members, arena, htrail, harena, hmembers, -⟩
        refine ⟨key :: members, arena, ?_, harena.child hlink, ?_, .inl List.mem_cons_self⟩
        · change (trail captured resolved n e.source >>= fun found => _) = _
          rw [htrail]
          rfl
        · intro member hmember
          obtain rfl | hmember := List.mem_cons.1 hmember
          · exact harena.child hlink
          · exact hmembers member hmember

omit hs hcaptures hclosed in
lemma lookup_insert_all (members : List Key) (arena : Option String)
    (resolved : AList fun _ : Key => Option String) (key : Key) :
    (members.foldl (fun resolved member => resolved.insert member arena) resolved).lookup key =
      if key ∈ members then some arena else resolved.lookup key := by
  induction members generalizing resolved with
  | nil => rfl
  | cons member members ih =>
    rw [List.foldl_cons, ih]
    by_cases hkey : key = member
    · subst hkey
      simp
    · simp only [List.mem_cons, hkey, false_or, AList.lookup_insert_ne hkey]

lemma resolve_eq (hresolves : Resolves s resolved) (hkey : key ∈ captured) :
    ∃ resolved', resolve captured resolved key = .ok resolved' ∧ Resolves s resolved' ∧
      key ∈ resolved' ∧ ∀ k ∈ resolved, k ∈ resolved' := by
  rcases trail_eq hs hcaptures hclosed hresolves (show 3 < 4 + level key.1 by omega) hkey with
    ⟨members, arena, htrail, -, hmembers, hfound⟩
  have hdomain : ∀ k, k ∈ members ∨ k ∈ resolved →
      k ∈ members.foldl (fun resolved member => resolved.insert member arena) resolved := by
    intro k hk
    rw [← AList.lookup_isSome, lookup_insert_all]
    split
    · rfl
    · rename_i hnot
      exact AList.lookup_isSome.2 (hk.resolve_left hnot)
  refine ⟨_, ?_, ?_, hdomain key hfound, fun k hk => hdomain k (.inr hk)⟩
  · rw [resolve, htrail]
    rfl
  · intro k found hlookup
    rw [lookup_insert_all] at hlookup
    split at hlookup
    · cases hlookup
      exact hmembers k ‹_›
    · exact hresolves k found hlookup

end Trails

theorem membershipIds_eq (hs : Placed s) (hwell : WellFormed s) (hlength : keys.length ≤ 10000)
    (hnodup : keys.Nodup) (hlisted : ∀ key ∈ keys, Listed s key) :
    ∃ ids, membershipIds s keys = .ok ids ∧ ids.map Prod.fst = keys ∧
      ∀ entry ∈ ids, InArena s entry.1 entry.2 := by
  have hstart : Surveyed s keys 0 ⟨∅, keys⟩ := by
    refine ⟨?_, ?_, fun key hkey => .inr hkey, hnodup, ?_, by simp, le_rfl⟩
    · intro key p hp
      simp at hp
    · intro key hkey
      simp at hkey
    · exact fun key hkey => ⟨hlisted key hkey, Nat.zero_le _⟩
  obtain ⟨survey, hsurvey, hpending, turn, h⟩ := surveyAll_eq hs hwell hlength rfl hstart
  have hclosed : ∀ key ∈ survey.captured, ∀ parent, Linked .hasChild s parent key →
      parent ∈ survey.captured := by
    intro key hkey parent hlink
    refine (h.closed key hkey parent hlink).resolve_right ?_
    rw [hpending]
    exact List.not_mem_nil
  have hcovers : ∀ key ∈ keys, key ∈ survey.captured := by
    intro key hkey
    refine (h.covers key hkey).resolve_right ?_
    rw [hpending]
    exact List.not_mem_nil
  have hstep : ∀ seen resolved, ∀ key ∈ keys,
      (Resolves s resolved ∧ ∀ k ∈ seen, k ∈ resolved) →
      ∃ resolved', resolve survey.captured resolved key = .ok resolved' ∧
        Resolves s resolved' ∧ ∀ k ∈ seen ++ [key], k ∈ resolved' := by
    rintro seen resolved key hkey ⟨hresolves, hseen⟩
    rcases resolve_eq hs h.captures hclosed hresolves (hcovers key hkey) with
      ⟨resolved', hok, hresolves', hself, hkept⟩
    refine ⟨resolved', hok, hresolves', ?_⟩
    intro k hk
    obtain hk | hk := List.mem_append.1 hk
    · exact hkept k (hseen k hk)
    · rw [List.mem_singleton.1 hk]
      exact hself
  have hempty : Resolves s ∅ := by
    intro key arena harena
    simp at harena
  rcases foldlM_total (fun seen resolved => Resolves s resolved ∧ ∀ k ∈ seen, k ∈ resolved) hstep
    ⟨hempty, by simp⟩ with ⟨resolved, hresolved, hresolves, hall⟩
  have hids : ∀ key ∈ keys, ∃ entry, resolvedId resolved key = .ok entry := by
    intro key hkey
    obtain ⟨id, hid⟩ := Option.isSome_iff_exists.1 (AList.lookup_isSome.2 (hall key hkey))
    exact ⟨(key, id), by rw [resolvedId, hid]; rfl⟩
  have hentry : ∀ key entry, resolvedId resolved key = .ok entry →
      entry.1 = key ∧ resolved.lookup key = some entry.2 := by
    intro key entry hok
    unfold resolvedId at hok
    split at hok <;> cases hok
    exact ⟨rfl, ‹_›⟩
  obtain ⟨ids, hok⟩ := mapM_exists hids
  refine ⟨ids, ?_, map_of_mapM (fun key entry h => (hentry key entry h).1) hok, ?_⟩
  · simp only [membershipIds, except_ok, exists_const]
    exact ⟨by simp [hlength, hnodup], survey, hsurvey, resolved, hresolved, hok⟩
  · intro entry hmem
    obtain ⟨key, -, hat⟩ := mem_mapM hok hmem
    obtain ⟨rfl, hlookup⟩ := hentry key entry hat
    exact hresolves _ _ hlookup

/-- The batched resolver gives the Arena of every membership, and the path of every item leads
from that Arena, or from the root of the membership, to the item. -/
def ResolversAgree (s : Store) (keys : List Key) : Prop :=
  ∃ ids, membershipIds s keys = .ok ids ∧ ids.map Prod.fst = keys ∧
    ∀ key id, (key, id) ∈ ids → ∃ found chain, membership s key = .ok found ∧
      found.arena.map Arena.id = id ∧
      currentResourcePath (memoryStorage s) key = .ok (some chain) ∧ chain.getLast? = some key ∧
      (∀ arena, chain.head? = some (.arena, arena) ↔ id = some arena) ∧
      (id = none → chain.head? = some found.root)

/-- The resolvers agree unless a base item is among the keys: the record of a membership has no
place for it as a root. -/
theorem resolvers_agree (s : Store) (keys : List Key) (hs : Placed s) (hwell : WellFormed s)
    (hlength : keys.length ≤ 10000) (hnodup : keys.Nodup) (hlisted : ∀ key ∈ keys, Listed s key) :
    ResolversAgree s keys ↔ ∀ key ∈ keys, key.1 ≠ .todo := by
  constructor
  · rintro ⟨ids, -, hkeys, hagree⟩ key hkey htodo
    rw [← hkeys] at hkey
    obtain ⟨⟨key, id⟩, hmem, rfl⟩ := List.mem_map.1 hkey
    obtain ⟨found, -, hfound, -⟩ := hagree key id hmem
    obtain ⟨-, node, hnode⟩ := hlisted key (hkeys ▸ hkey)
    rw [membership_todo hs hwell hnode htodo] at hfound
    cases hfound
  · intro hwork
    obtain ⟨ids, hok, hkeys, hids⟩ := membershipIds_eq hs hwell hlength hnodup hlisted
    refine ⟨ids, hok, hkeys, ?_⟩
    intro key id hmem
    have hkey : key ∈ keys := by
      rw [← hkeys]
      exact List.mem_map_of_mem (f := Prod.fst) hmem
    obtain ⟨hkind, node, hnode⟩ := hlisted key hkey
    obtain ⟨root, chain, h⟩ := hids _ hmem
    have hroot := (h.root_kind hs hkind).1
    rcases membership_eq hs hwell h hnode ((todoKinds_iff.1 hkind).resolve_left (hwork key hkey))
      with ⟨found, hfound, harena, hfoundRoot⟩
    refine ⟨found, chain, hfound, harena, currentResourcePath_eq hs hwell.kinds h hnode hkind,
      h.last, ?_, ?_⟩
    · intro arena
      rw [(h.head hs).1]
      cases id with
      | none =>
        simp only [Option.map_none, Option.getD_none, Option.some.injEq, reduceCtorEq, iff_false]
        rintro rfl
        exact absurd hroot (show Label.arena ∉ todoKinds by decide)
      | some id => simp
    · rintro rfl
      rw [(h.head hs).1, hfoundRoot]
      rfl

theorem resolvers_agree_task : ResolversAgree taskStore [(.task, "t"), (.initiative, "i")] :=
  (resolvers_agree taskStore [(.task, "t"), (.initiative, "i")] taskStore_placed
    taskStore_wellFormed (by decide) (by decide)
    (by simp [Listed, todoKinds, taskStore_nodes])).2 (by decide)

def todoStore : Store := chainStore [(.todo, "t")] (List.nodup_singleton _)

/-- The base item is placed and readable and the batched resolver finds that it is in no Arena,
but its membership raises. -/
theorem membership_todo_raises :
    Placed todoStore ∧ WellFormed todoStore ∧ Listed todoStore (.todo, "t") ∧
      membershipIds todoStore [(.todo, "t")] = .ok [((.todo, "t"), none)] ∧
      membership todoStore (.todo, "t") = .error ⟨.valueError, "invalid Arena membership"⟩ ∧
      ¬ ResolversAgree todoStore [(.todo, "t")] := by
  have hs : Placed todoStore := chainStore_placed (List.isChain_singleton _)
  have hwell : WellFormed todoStore := chainStore_wellFormed (by simp only [Recordable]; decide)
  have hnode : todoStore.node? (.todo, "t") = some (recordNode (.todo, "t")) :=
    node?_chainStore (List.mem_singleton_self _)
  have hlisted : Listed todoStore (.todo, "t") := ⟨show Label.todo ∈ todoKinds by decide, _, hnode⟩
  have herror := membership_todo hs hwell hnode rfl
  have hok : membershipIds todoStore [(.todo, "t")] = .ok [((.todo, "t"), none)] := by
    decide +kernel
  refine ⟨hs, hwell, hlisted, hok, herror, ?_⟩
  rintro ⟨ids, hok', -, hagree⟩
  rw [hok] at hok'
  cases hok'
  obtain ⟨found, -, hfound, -⟩ := hagree _ _ (List.mem_singleton_self _)
  rw [herror] at hfound
  cases hfound

end DevGraph.Proofs
