import DevGraph.Proofs.RecordStores

/-!
# Resource paths are exact

Paths are attenuated and intersected without a graph. Both are exact for every graph that the
containment invariant holds of: for each path there is such a graph in which an item lies within
that path and within no other that is not implied.
-/

namespace DevGraph.Proofs

open Lib Work

variable {storage : PathStorage} {key : Key}

/-- A chain has at most one item of each kind. -/
lemma ancestors_labels {n : Nat} {chain result : List Key} {current : Key}
    (hcurrent : current.1 ∈ todoKinds)
    (hchain : ∀ k ∈ chain, k.1 ∈ todoKinds ∧ level k.1 < level current.1)
    (hnodup : (chain.map Prod.fst).Nodup)
    (h : ancestors storage n chain current = .ok (some result)) :
    (result.map Prod.fst).Nodup := by
  induction n generalizing chain current with
  | zero => cases h
  | succ n ih =>
    have hhead : current.1 ∉ chain.map Prod.fst := by
      intro hmem
      obtain ⟨k, hk, hlabel⟩ := List.mem_map.1 hmem
      have hlevel := (hchain k hk).2
      rw [hlabel] at hlevel
      exact lt_irrefl _ hlevel
    have hnodup' : ((current :: chain).map Prod.fst).Nodup := by
      rw [List.map_cons, List.nodup_cons]
      exact ⟨hhead, hnodup⟩
    rw [ancestors] at h
    split at h
    · cases h
    · rw [except_bind_ok] at h
      obtain ⟨found, -, h⟩ := h
      cases found with
      | none => cases h
      | some item =>
        simp only at h
        split at h
        · cases h
        · split at h
          · rename_i e _ _ _
            split at h
            · rename_i hparent
              simp only [plainParent, Bool.and_eq_true, decide_eq_true_eq] at hparent
              obtain ⟨hlevel, htodo⟩ := level_lt_of_parent hparent.2
              apply ih htodo _ hnodup' h
              intro k hk
              obtain rfl | hk := List.mem_cons.1 hk
              · exact ⟨hcurrent, hlevel⟩
              · exact ⟨(hchain k hk).1, lt_trans (hchain k hk).2 hlevel⟩
            · cases h
          · rw [except_bind_ok] at h
            obtain ⟨arena, -, h⟩ := h
            rw [except_pure_ok] at h
            split at h
            · cases h
              rw [List.map_cons, List.nodup_cons]
              refine ⟨?_, hnodup'⟩
              intro hmem
              obtain ⟨k, hk, hlabel⟩ := List.mem_map.1 hmem
              have htodo : k.1 ∈ todoKinds := by
                obtain rfl | hk := List.mem_cons.1 hk
                · exact hcurrent
                · exact (hchain k hk).1
              rw [hlabel] at htodo
              exact absurd htodo (show Label.arena ∉ todoKinds by decide)
            · cases h
          · cases h
            exact hnodup'

lemma currentResourcePath_labels {chain : List Key}
    (h : currentResourcePath storage key = .ok (some chain)) : (chain.map Prod.fst).Nodup := by
  unfold currentResourcePath at h
  split at h
  · cases h
  · rename_i hkind
    exact ancestors_labels (not_not.1 hkind) (by simp) (by simp) h

lemma withinPaths_iff {paths : List ResourcePath} (hpaths : paths ≠ []) :
    withinPaths storage key paths = .ok true ↔
      ∃ chain, currentResourcePath storage key = .ok (some chain) ∧
        ∃ p ∈ paths, p.path ⊆ chain := by
  simp only [withinPaths, if_neg hpaths, except_ok]
  constructor
  · rintro ⟨found, hfound, hany⟩
    cases found with
    | none => cases hany
    | some chain =>
      simp only [Option.any_some, List.any_eq_true, List.all_eq_true, decide_eq_true_eq] at hany
      exact ⟨chain, hfound, hany⟩
  · rintro ⟨chain, hfound, hany⟩
    refine ⟨some chain, hfound, ?_⟩
    simp only [Option.any_some, List.any_eq_true, List.all_eq_true, decide_eq_true_eq]
    exact hany

lemma containedBy_iff {p parent : ResourcePath} :
    p.containedBy parent = true ↔ parent.path ⊆ p.path := by
  simp only [ResourcePath.containedBy, List.all_eq_true, decide_eq_true_eq]
  exact Iff.rfl

lemma pathsSubset_iff {child parent : List ResourcePath} :
    pathsSubset child parent = true ↔
      parent = [] ∨ child ≠ [] ∧ ∀ c ∈ child, ∃ p ∈ parent, p.path ⊆ c.path := by
  simp only [pathsSubset, Bool.or_eq_true, Bool.and_eq_true, List.isEmpty_iff, Bool.not_eq_true',
    List.isEmpty_eq_false_iff, List.all_eq_true, List.any_eq_true, containedBy_iff]

/-- What lies within attenuated paths lies within the paths that they attenuate. -/
theorem withinPaths_mono {child parent : List ResourcePath}
    (hsubset : pathsSubset child parent = true)
    (h : withinPaths storage key child = .ok true) : withinPaths storage key parent = .ok true := by
  obtain rfl | ⟨hchild, hcovered⟩ := pathsSubset_iff.1 hsubset
  · rfl
  · obtain ⟨chain, hchain, c, hc, hincluded⟩ := (withinPaths_iff hchild).1 h
    obtain ⟨p, hp, hpc⟩ := hcovered c hc
    exact (withinPaths_iff (List.ne_nil_of_mem hp)).2
      ⟨chain, hchain, p, hp, List.Subset.trans hpc hincluded⟩

/-! ## Attenuation -/

lemma lookup_iff_mem {l : List Key} (h : (l.map Prod.fst).Nodup) {kind : Label} {id : String} :
    l.lookup kind = some id ↔ (kind, id) ∈ l := by
  rw [List.lookup_eq_some_iff]
  constructor
  · rintro ⟨before, after, rfl, -⟩
    simp
  · intro hmem
    obtain ⟨before, after, rfl⟩ := List.append_of_mem hmem
    refine ⟨before, after, rfl, ?_⟩
    intro k hk
    rw [List.map_append, List.map_cons] at h
    have hne := (List.nodup_append.1 h).2.2 k.1 (List.mem_map_of_mem hk) kind (by simp)
    simpa using hne.symm

lemma path_labels (p : ResourcePath) : (p.path.map Prod.fst).Nodup := by
  rw [List.Nodup, List.pairwise_map]
  apply p.ordered.imp
  intro a b hrank hlabel
  rw [hlabel] at hrank
  exact lt_irrefl _ hrank

def anchored (ids : Label → Option String) : List Key :=
  anchorKinds.filterMap fun kind => (ids kind).map fun id => (kind, id)

lemma mem_anchored {ids : Label → Option String} {anchor : Key} :
    anchor ∈ anchored ids ↔ anchor.1 ∈ anchorKinds ∧ ids anchor.1 = some anchor.2 := by
  simp only [anchored, List.mem_filterMap, Option.map_eq_some_iff]
  constructor
  · rintro ⟨kind, hkind, id, hid, rfl⟩
    exact ⟨hkind, hid⟩
  · rintro ⟨hkind, hid⟩
    exact ⟨anchor.1, hkind, anchor.2, hid, rfl⟩

lemma anchored_ordered (ids : Label → Option String) :
    (anchored ids).Pairwise fun a b => anchorRank a.1 < anchorRank b.1 := by
  have hkinds : anchorKinds.Pairwise fun a b => anchorRank a < anchorRank b := by decide
  apply hkinds.filterMap
  intro kind kind' hrank anchor hanchor anchor' hanchor'
  obtain ⟨id, -, rfl⟩ := Option.map_eq_some_iff.1 hanchor
  obtain ⟨id', -, rfl⟩ := Option.map_eq_some_iff.1 hanchor'
  exact hrank

/-- The ids of a chain with the given anchors: a Project in an Arena needs an Initiative. -/
def chainIds (ids : Label → Option String) (fresh : String) (kind : Label) : Option String :=
  (ids kind).or (if kind = .initiative ∧ (ids .arena).isSome ∧ (ids .project).isSome
    then some fresh else none)

def anchoredChain (ids : Label → Option String) (fresh : String) : List Key :=
  anchored (chainIds ids fresh) ++ [(.task, "0")]

lemma anchoredChain_contains (ids : Label → Option String) (fresh : String) :
    (anchoredChain ids fresh).IsChain Contains := by
  cases ha : ids .arena <;> cases hi : ids .initiative <;> cases hp : ids .project <;>
    simp [anchoredChain, anchored, chainIds, anchorKinds, ha, hi, hp, Contains, parents,
      directKinds]

lemma anchoredChain_nodup (ids : Label → Option String) (fresh : String) :
    (anchoredChain ids fresh).Nodup := by
  rw [anchoredChain, List.nodup_append]
  refine ⟨?_, List.nodup_singleton _, ?_⟩
  · apply (anchored_ordered (chainIds ids fresh)).imp
    rintro a b hrank rfl
    exact lt_irrefl _ hrank
  · rintro a ha b hb rfl
    rw [List.mem_singleton.1 hb] at ha
    exact absurd (mem_anchored.1 ha).1 (by decide)

/-- For all anchors of distinct kinds there is a graph with an item whose ancestry has these
anchors and at most one other, with a fresh id. -/
theorem exists_within {ids : Label → Option String} {fresh : String}
    (hids : ∀ kind ∈ anchorKinds, ∀ id ∈ ids kind, isWorkObjectId id = true)
    (hfresh : isWorkObjectId fresh = true) :
    ∃ (s : Store) (key : Key) (node : Node) (chain : List Key), Placed s ∧
      s.node? key = some node ∧ currentResourcePath (memoryStorage s) key = .ok (some chain) ∧
      anchored ids ⊆ chain ∧ ∀ anchor ∈ chain, anchor.1 ∈ anchorKinds →
        anchor ∈ anchored ids ∨ anchor = (.initiative, fresh) := by
  have hchain := anchoredChain_contains ids fresh
  have hnodup := anchoredChain_nodup ids fresh
  have hsplit : ∀ anchor ∈ anchored (chainIds ids fresh),
      anchor ∈ anchored ids ∨ anchor = (.initiative, fresh) := by
    intro anchor hanchor
    obtain ⟨hkind, hid⟩ := mem_anchored.1 hanchor
    rw [chainIds, Option.or_eq_some_iff] at hid
    obtain hid | ⟨-, hid⟩ := hid
    · exact .inl (mem_anchored.2 ⟨hkind, hid⟩)
    · split at hid
      · rename_i hcond
        cases hid
        exact .inr (Prod.ext hcond.1 rfl)
      · cases hid
  have hanchor : ∀ kind ∈ anchorKinds, kind ∈ Label.arena :: canonicalWorkKinds := by decide
  have hvalid : ∀ key ∈ anchoredChain ids fresh, Recordable key := by
    intro key hkey
    obtain hkey | hkey := List.mem_append.1 hkey
    · obtain hkey | rfl := hsplit key hkey
      · obtain ⟨hkind, hid⟩ := mem_anchored.1 hkey
        exact ⟨hids key.1 hkind key.2 hid, hanchor key.1 hkind⟩
      · exact ⟨hfresh, hanchor .initiative (by decide)⟩
    · rw [List.mem_singleton.1 hkey]
      exact ⟨by decide, by decide⟩
  refine ⟨chainStore _ hnodup, (.task, "0"), _, _, chainStore_placed hchain,
    node?_chainStore (by simp [anchoredChain]), chainStore_path hchain hvalid rfl (by decide), ?_,
    ?_⟩
  · intro anchor hanchor
    obtain ⟨hkind, hid⟩ := mem_anchored.1 hanchor
    apply List.mem_append_left
    exact mem_anchored.2 ⟨hkind, by rw [chainIds, hid]; rfl⟩
  · intro anchor hanchor hkind
    obtain hanchor | hanchor := List.mem_append.1 hanchor
    · exact hsplit anchor hanchor
    · rw [List.mem_singleton.1 hanchor] at hkind
      exact absurd hkind (by decide)

lemma mem_path_iff (p : ResourcePath) {anchor : Key} :
    anchor ∈ p.path ↔ anchor ∈ anchored fun kind => p.path.lookup kind := by
  rw [mem_anchored, lookup_iff_mem (path_labels p)]
  exact ⟨fun h => ⟨(p.anchors anchor h).1, h⟩, And.right⟩

lemma lookup_valid (p : ResourcePath) :
    ∀ kind ∈ anchorKinds, ∀ id ∈ p.path.lookup kind, isWorkObjectId id = true := by
  intro kind _ id hid
  exact (p.anchors (kind, id) ((lookup_iff_mem (path_labels p)).1 hid)).2

lemma isWorkObjectId_printNat {n : Nat} (hn : n < 2 ^ 63) :
    isWorkObjectId (String.ofList (printNat n)) = true := by
  have hdigit : ∀ c ∈ printNat n, isLowerAlnum c = true := by
    intro c hc
    unfold printNat at hc
    split at hc
    · rw [List.mem_singleton.1 hc]
      decide
    · obtain ⟨d, hd, rfl⟩ := List.mem_map.1 hc
      have hlt : d < 10 := Nat.digits_lt_base (by decide) (List.mem_reverse.1 hd)
      interval_cases d <;> decide
  have hlength : (printNat n).length ≤ 256 := by
    unfold printNat
    split
    · decide
    · rw [List.length_map, List.length_reverse, Nat.digits_length_le_iff (by decide)]
      exact lt_trans hn (by norm_num)
  obtain ⟨c, rest, heq, -⟩ := printNat_head n
  rw [heq] at hdigit hlength
  simp only [isWorkObjectId, String.toList_ofList, heq, Bool.and_eq_true, List.all_eq_true,
    Bool.or_eq_true, decide_eq_true_eq]
  refine ⟨⟨⟨hdigit c (by simp), fun d hd => .inl (hdigit d (by simp [hd]))⟩,
    hdigit _ (List.getLast_mem _)⟩, ?_⟩
  rw [List.length_cons] at hlength
  omega

lemma printNat_injective {m n : Nat} (h : printNat m = printNat n) : m = n := by
  have hm := readNat_printNat m (show StartsNoDigit [] from nofun)
  have hn := readNat_printNat n (show StartsNoDigit [] from nofun)
  rw [h, hn] at hm
  cases hm
  rfl

lemma exists_fresh {paths : List ResourcePath} (hlength : paths.length < 2 ^ 63) :
    ∃ fresh, isWorkObjectId fresh = true ∧ ∀ p ∈ paths, (.initiative, fresh) ∉ p.path := by
  let named := (paths.filterMap fun p => p.path.lookup .initiative).toFinset
  let numerals := (Finset.range (2 ^ 63)).image fun n => String.ofList (printNat n)
  have hnumerals : numerals.card = 2 ^ 63 := by
    rw [Finset.card_image_of_injective, Finset.card_range]
    intro m n h
    exact printNat_injective (String.ofList_inj.1 h)
  have hnamed : named.card < numerals.card := by
    rw [hnumerals]
    exact lt_of_le_of_lt ((List.toFinset_card_le _).trans (List.length_filterMap_le _ _)) hlength
  obtain ⟨fresh, hmem, hfresh⟩ := Finset.exists_mem_notMem_of_card_lt_card hnamed
  obtain ⟨n, hn, rfl⟩ := Finset.mem_image.1 hmem
  refine ⟨_, isWorkObjectId_printNat (Finset.mem_range.1 hn), ?_⟩
  intro p hp hanchor
  apply hfresh
  rw [List.mem_toFinset, List.mem_filterMap]
  exact ⟨p, hp, (lookup_iff_mem (path_labels p)).2 hanchor⟩

/-- A path within the ancestry that is built for some anchors has no other anchors. -/
lemma subset_of_within {p : ResourcePath} {chain anchors : List Key} {fresh : String}
    (hp : p.path ⊆ chain) (hfresh : (.initiative, fresh) ∉ p.path)
    (hchain : ∀ anchor ∈ chain, anchor.1 ∈ anchorKinds →
      anchor ∈ anchors ∨ anchor = (.initiative, fresh)) : p.path ⊆ anchors := by
  intro anchor hanchor
  obtain h | rfl := hchain anchor (hp hanchor) (p.anchors anchor hanchor).1
  · exact h
  · exact absurd hanchor hfresh

/-- Attenuation of paths is exact. Ids are of bounded length, so a tuple of paths could name
all of them; the bound is that of the length of a tuple. -/
theorem pathsSubset_exact (child parent : List ResourcePath) (hlength : parent.length < 2 ^ 63) :
    pathsSubset child parent = true ↔
      ∀ (s : Store), Placed s → ∀ key, (s.node? key).isSome →
        withinPaths (memoryStorage s) key child = .ok true →
          withinPaths (memoryStorage s) key parent = .ok true := by
  constructor
  · intro h s _ key _
    exact withinPaths_mono h
  · intro h
    rw [pathsSubset_iff]
    by_contra hnot
    rw [not_or] at hnot
    obtain ⟨hparent, hnot⟩ := hnot
    obtain ⟨fresh, hvalid, hfresh⟩ := exists_fresh hlength
    by_cases hchild : child = []
    · subst hchild
      rcases @exists_within (fun _ => none) fresh (by simp) hvalid with
        ⟨s, key, node, chain, hs, hnode, hpath, -, hanchors⟩
      have hwithin := h s hs key (by rw [hnode]; rfl) rfl
      obtain ⟨chain', hpath', p, hp, hincluded⟩ := (withinPaths_iff hparent).1 hwithin
      rw [hpath] at hpath'
      cases hpath'
      exact p.nonempty (List.subset_nil.1 (subset_of_within hincluded (hfresh p hp) hanchors))
    · have hrejected : ∃ c ∈ child, ∀ p ∈ parent, ¬ p.path ⊆ c.path := by
        by_contra hall
        push Not at hall
        exact hnot ⟨hchild, hall⟩
      obtain ⟨c, hc, hrejected⟩ := hrejected
      rcases exists_within (lookup_valid c) hvalid with
        ⟨s, key, node, chain, hs, hnode, hpath, hsub, hanchors⟩
      have hwithin := h s hs key (by rw [hnode]; rfl) ((withinPaths_iff hchild).2
        ⟨chain, hpath, c, hc, fun anchor hanchor => hsub ((mem_path_iff c).1 hanchor)⟩)
      obtain ⟨chain', hpath', p, hp, hincluded⟩ := (withinPaths_iff hparent).1 hwithin
      rw [hpath] at hpath'
      cases hpath'
      apply hrejected p hp
      intro anchor hanchor
      exact (mem_path_iff c).2 (subset_of_within hincluded (hfresh p hp) hanchors hanchor)

theorem pathsSubset_exact_arena :
    pathsSubset [⟨[(.arena, "a"), (.project, "p")], by decide, by decide, by decide⟩]
        [⟨[(.project, "p")], by decide, by decide, by decide⟩] = true ∧
      ∀ (s : Store), Placed s → ∀ key, (s.node? key).isSome →
        withinPaths (memoryStorage s) key
            [⟨[(.arena, "a"), (.project, "p")], by decide, by decide, by decide⟩] = .ok true →
          withinPaths (memoryStorage s) key
            [⟨[(.project, "p")], by decide, by decide, by decide⟩] = .ok true :=
  ⟨by decide, (pathsSubset_exact _ _ (by decide)).1 (by decide)⟩

/-! ## Intersection -/

/-- Two anchors of one kind in the paths, with different ids. -/
def Conflict (a b : ResourcePath) : Prop :=
  ∃ kind x y, (kind, x) ∈ a.path ∧ (kind, y) ∈ b.path ∧ x ≠ y

variable {a b : ResourcePath}

lemma conflict_iff :
    (b.path.any fun anchor => (a.path.lookup anchor.1).any (· ≠ anchor.2)) = true ↔
      Conflict a b := by
  simp only [List.any_eq_true, Option.any_eq_true, decide_eq_true_eq]
  constructor
  · rintro ⟨⟨kind, y⟩, hy, x, hx, hne⟩
    exact ⟨kind, x, y, (lookup_iff_mem (path_labels a)).1 hx, hy, hne⟩
  · rintro ⟨kind, x, y, hx, hy, hne⟩
    exact ⟨(kind, y), hy, x, (lookup_iff_mem (path_labels a)).2 hx, hne⟩

/-- What two paths without a conflict are merged to holds the anchors of both. -/
lemma mem_merged (h : ¬ Conflict a b) {anchor : Key} :
    (anchor ∈ anchored fun kind => (b.path.lookup kind).or (a.path.lookup kind)) ↔
      anchor ∈ a.path ∨ anchor ∈ b.path := by
  simp only [mem_anchored, Option.or_eq_some_iff, lookup_iff_mem (path_labels _), Prod.mk.eta]
  constructor
  · rintro ⟨-, hb | ⟨-, ha⟩⟩
    · exact .inr hb
    · exact .inl ha
  · rintro (ha | hb)
    · refine ⟨(a.anchors anchor ha).1, ?_⟩
      cases hlookup : b.path.lookup anchor.1 with
      | none => exact .inr ⟨rfl, ha⟩
      | some y =>
        have hy := (lookup_iff_mem (path_labels b)).1 hlookup
        have heq : anchor.2 = y := by
          by_contra hne
          exact h ⟨anchor.1, anchor.2, y, ha, hy, hne⟩
        rw [← heq] at hy
        exact .inl hy
    · exact ⟨(b.anchors anchor hb).1, .inl hb⟩

lemma validated_path (p : ResourcePath) : ResourcePath.validated p.path = .ok p := by
  unfold ResourcePath.validated
  rw [dif_pos ⟨p.nonempty, p.anchors, p.ordered⟩]
  rfl

/-- Two paths without a conflict are merged to a path. -/
def mergedPath {a b : ResourcePath} (h : ¬ Conflict a b) : ResourcePath where
  path := anchored fun kind => (b.path.lookup kind).or (a.path.lookup kind)
  nonempty := by
    obtain ⟨anchor, hanchor⟩ := List.exists_mem_of_ne_nil _ a.nonempty
    exact List.ne_nil_of_mem ((mem_merged h).2 (.inl hanchor))
  anchors := by
    intro anchor hanchor
    obtain hanchor | hanchor := (mem_merged h).1 hanchor
    · exact a.anchors anchor hanchor
    · exact b.anchors anchor hanchor
  ordered := anchored_ordered _

lemma mergedAnchors_iff {merged : List Key} :
    mergedAnchors a b = some merged ↔ ∃ h : ¬ Conflict a b, (mergedPath h).path = merged := by
  unfold mergedAnchors
  split
  · rename_i hconflict
    constructor
    · intro h
      cases h
    · rintro ⟨h, -⟩
      exact absurd (conflict_iff.1 hconflict) h
  · rename_i hconflict
    rw [conflict_iff] at hconflict
    constructor
    · intro h
      cases h
      exact ⟨hconflict, rfl⟩
    · rintro ⟨-, rfl⟩
      rfl

lemma intersectPaths_ok {left right : List ResourcePath} (hleft : left ≠ []) (hright : right ≠ []) :
    ∃ result, intersectPaths left right = .ok result ∧
      ∀ p, p ∈ result ↔ ∃ a ∈ left, ∃ b ∈ right, ∃ h : ¬ Conflict a b, mergedPath h = p := by
  have hmem : ∀ merged,
      (merged ∈ left.flatMap fun a => right.filterMap fun b => mergedAnchors a b) ↔
        ∃ a ∈ left, ∃ b ∈ right, ∃ h : ¬ Conflict a b, (mergedPath h).path = merged := by
    intro merged
    simp only [List.mem_flatMap, List.mem_filterMap, mergedAnchors_iff]
  have hvalid : ∀ merged ∈ left.flatMap fun a => right.filterMap fun b => mergedAnchors a b,
      ∃ p, ResourcePath.validated merged = .ok p := by
    intro merged hmerged
    obtain ⟨a, -, b, -, h, rfl⟩ := (hmem merged).1 hmerged
    exact ⟨_, validated_path _⟩
  obtain ⟨paths, hpaths⟩ := mapM_exists hvalid
  refine ⟨paths.dedup.insertionSort fun a b => pathTexts a ≤ pathTexts b, ?_, ?_⟩
  · rw [intersectPaths, if_neg hleft, if_neg hright, hpaths]
    rfl
  · intro p
    rw [List.mem_insertionSort, List.mem_dedup]
    constructor
    · intro hp
      obtain ⟨merged, hmerged, hok⟩ := mem_mapM hpaths hp
      obtain ⟨a, ha, b, hb, h, rfl⟩ := (hmem merged).1 hmerged
      rw [validated_path] at hok
      exact ⟨a, ha, b, hb, h, Except.ok.inj hok⟩
    · rintro ⟨a, ha, b, hb, h, rfl⟩
      obtain ⟨p, hp, hok⟩ := mapM_of_mem hpaths ((hmem _).2 ⟨a, ha, b, hb, h, rfl⟩)
      rw [validated_path] at hok
      cases hok
      exact hp

lemma eq_of_label {chain : List Key} (h : (chain.map Prod.fst).Nodup) {a b : Key} (ha : a ∈ chain)
    (hb : b ∈ chain) (hlabel : a.1 = b.1) : a = b :=
  List.inj_on_of_nodup_map h ha hb hlabel

lemma within_both {left right result : List ResourcePath} (hleft : left ≠ []) (hright : right ≠ [])
    (hresult : ∀ p, p ∈ result ↔ ∃ a ∈ left, ∃ b ∈ right, ∃ h : ¬ Conflict a b, mergedPath h = p) :
    withinPaths storage key left = .ok true ∧ withinPaths storage key right = .ok true ↔
      result ≠ [] ∧ withinPaths storage key result = .ok true := by
  rw [withinPaths_iff hleft, withinPaths_iff hright]
  constructor
  · rintro ⟨⟨chain, hchain, a, ha, hac⟩, chain', hchain', b, hb, hbc⟩
    rw [hchain] at hchain'
    cases hchain'
    have h : ¬ Conflict a b := by
      rintro ⟨kind, x, y, hx, hy, hne⟩
      have heq := eq_of_label (currentResourcePath_labels hchain) (hac hx) (hbc hy) rfl
      exact hne (Prod.mk.inj heq).2
    have hp : mergedPath h ∈ result := (hresult _).2 ⟨a, ha, b, hb, h, rfl⟩
    refine ⟨List.ne_nil_of_mem hp, ?_⟩
    rw [withinPaths_iff (List.ne_nil_of_mem hp)]
    refine ⟨chain, hchain, _, hp, ?_⟩
    intro anchor hanchor
    obtain hanchor | hanchor := (mem_merged h).1 hanchor
    · exact hac hanchor
    · exact hbc hanchor
  · rintro ⟨hne, hwithin⟩
    obtain ⟨chain, hchain, p, hp, hpc⟩ := (withinPaths_iff hne).1 hwithin
    obtain ⟨a, ha, b, hb, h, rfl⟩ := (hresult p).1 hp
    exact ⟨⟨chain, hchain, a, ha, fun x hx => hpc ((mem_merged h).2 (.inl hx))⟩,
      chain, hchain, b, hb, fun x hx => hpc ((mem_merged h).2 (.inr hx))⟩

/-- The intersection of paths is their meet: it never raises, what lies within both lies within
it, and it is empty only if nothing ever lies within both. -/
theorem intersectPaths_meet (left right : List ResourcePath) :
    (left ≠ [] → right ≠ [] → ∃ result, intersectPaths left right = .ok result ∧
      (∀ (s : Store), Placed s → ∀ key, (s.node? key).isSome →
        (withinPaths (memoryStorage s) key left = .ok true ∧
            withinPaths (memoryStorage s) key right = .ok true ↔
          result ≠ [] ∧ withinPaths (memoryStorage s) key result = .ok true)) ∧
      (result = [] ↔ ¬ ∃ (s : Store) (key : Key), Placed s ∧ (s.node? key).isSome ∧
        withinPaths (memoryStorage s) key left = .ok true ∧
          withinPaths (memoryStorage s) key right = .ok true)) ∧
      intersectPaths [] right = .ok right ∧ intersectPaths left [] = .ok left := by
  refine ⟨?_, rfl, ?_⟩
  · intro hleft hright
    obtain ⟨result, hok, hresult⟩ := intersectPaths_ok hleft hright
    refine ⟨result, hok, fun s _ key _ => within_both hleft hright hresult, ?_⟩
    constructor
    · rintro hempty ⟨s, key, -, -, hboth⟩
      exact ((within_both hleft hright hresult).1 hboth).1 hempty
    · intro hnone
      by_contra hne
      obtain ⟨p, hp⟩ := List.exists_mem_of_ne_nil _ hne
      rcases exists_within (lookup_valid p) (show isWorkObjectId "0" = true by decide) with
        ⟨s, key, node, chain, hs, hnode, hpath, hsub, -⟩
      apply hnone
      refine ⟨s, key, hs, by rw [hnode]; rfl, (within_both hleft hright hresult).2 ⟨hne, ?_⟩⟩
      rw [withinPaths_iff hne]
      exact ⟨chain, hpath, p, hp, fun anchor hanchor => hsub ((mem_path_iff p).1 hanchor)⟩
  · unfold intersectPaths
    split
    · rename_i hleft
      rw [hleft]
      rfl
    · rfl

end DevGraph.Proofs
