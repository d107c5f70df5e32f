import DevGraph.Lib.Paging
import DevGraph.Proofs.Placements
import DevGraph.Proofs.ReviewRecords
import DevGraph.Work.DelegatedRead

/-!
# Listing and getting admit the same Work

The storage selects the Work below the Arenas of a grant by a search from the Arenas, the reader of
a single item walks up from it. Both follow the lineage of the item, so an item is on the pages of
a listing exactly when it can be read alone.
-/

namespace DevGraph.Proofs

open Lib Work

variable {grant : WorkReadGrant} {arena : Option String} {w : WorkObject} {node : Node}

variable {entry : Sigma fun _ : Key => Node} {limit : Nat} {afterId : Option String}

variable {s : Store} {key : Key}

lemma arc_childArcs {a b : Key} : Arc (childArcs s) a b ↔ Linked .hasChild s a b := by
  simp only [Arc, childArcs, List.mem_map, List.mem_filter, decide_eq_true_eq, Prod.mk.injEq]
  constructor
  · rintro ⟨e, ⟨he, hr⟩, rfl, rfl⟩
    exact ⟨e, he, hr, rfl, rfl⟩
  · rintro ⟨e, he, hr, rfl, rfl⟩
    exact ⟨e, ⟨he, hr⟩, rfl, rfl⟩

/-- The search from the Arenas finds the items whose lineage begins in one of them. -/
theorem mem_arenaDescendantKeys (hs : Placed s) {arenas : List String} :
    key ∈ arenaDescendantKeys s arenas ↔ ∃ id ∈ arenas, InArena s key (some id) := by
  rw [arenaDescendantKeys, mem_closure .start]
  simp only [List.not_mem_nil, false_or, List.mem_reverse, List.mem_map, List.mem_filter,
    Bool.and_eq_true, decide_eq_true_eq]
  constructor
  · rintro ⟨start, ⟨e, ⟨he, ⟨hr, -⟩, hid⟩, rfl⟩, hpath⟩
    refine ⟨e.source.2, hid, ?_⟩
    induction hpath with
    | refl => exact ⟨_, _, .root (.placed he hr)⟩
    | tail _ harc ih => exact ih.child (arc_childArcs.1 harc)
  · rintro ⟨id, hid, root, chain, h⟩
    generalize harena : some id = arena at h
    induction h with
    | @root key memberships h =>
      cases h with
      | root => cases harena
      | @placed e he hr =>
        cases harena
        exact ⟨e.target, ⟨e, ⟨he, ⟨hr, (hs.arena_kind e he hr).1⟩, hid⟩, rfl⟩, .refl⟩
    | @child key root e arena chain h _ ih =>
      obtain ⟨start, hstart, hpath⟩ := ih harena
      obtain ⟨he, hr, rfl, -⟩ := h.parent
      exact ⟨start, hstart, hpath.tail (arc_childArcs.2 ⟨e, he, hr, rfl, rfl⟩)⟩

lemma inArena_exists (hs : Placed s) (key : Key) : ∃ arena, InArena s key arena := by
  obtain ⟨root, arena, chain, h⟩ := lineage_exists hs key
  exact ⟨arena, root, chain, h⟩

lemma split_slash {l : List Char} (h : '/' ∈ l) :
    l = l.takeWhile (· ≠ '/') ++ '/' :: (l.dropWhile (· ≠ '/')).tail := by
  induction l with
  | nil => cases h
  | cons c l ih =>
    by_cases hc : c = '/'
    · subst hc
      simp
    · have hmem : '/' ∈ l := (List.mem_cons.1 h).resolve_left (Ne.symm hc)
      simpa [hc] using ih hmem

lemma splitResource_resource (key : Key) : splitResource (resource key) = (key.1.name, key.2) := by
  rw [splitResource, (cut_resource key).1, (cut_resource key).2, List.tail_cons,
    String.ofList_toList, String.ofList_toList]

/-- The texts of a checked selector name the item exactly when the selector has its resource. -/
lemma mem_split_iff {workIds : List String} (hvalid : ∀ r ∈ workIds, '/' ∈ r.toList) :
    (key.1.name, key.2) ∈ workIds.map splitResource ↔ resource key ∈ workIds := by
  rw [List.mem_map]
  constructor
  · rintro ⟨r, hr, hsplit⟩
    have htext : r = resource key := by
      rw [splitResource, Prod.mk.injEq] at hsplit
      rw [← String.toList_inj, split_slash (hvalid r hr), resource, ← hsplit.1, ← hsplit.2]
      simp
    rwa [← htext]
  · intro hr
    exact ⟨resource key, hr, splitResource_resource key⟩

def Selectable (grant : WorkReadGrant) : Prop :=
  validateSelectors grant.workIds grant.arenaIds = .ok ()

lemma slash_of_valid {workIds arenaIds : List String}
    (h : validateSelectors workIds arenaIds = .ok ()) : ∀ r ∈ workIds, '/' ∈ r.toList := by
  simp only [validateSelectors, except_bind_ok] at h
  obtain ⟨_, hwork, -⟩ := h
  intro r hr
  have hcheck := forM_ok hwork r hr
  simp only [validateWorkSelector, except_ok, not_not] at hcheck
  obtain ⟨_, hcount, -⟩ := hcheck
  rw [← List.count_pos_iff, hcount]
  exact one_pos

lemma selectorOf_validated (h : Selectable grant) :
    (selectorOf grant).validated = .ok (selectorOf grant) := by
  have hkinds : ∀ kind ∈ grant.workKinds, kind ∈ canonicalWorkKinds := fun kind hkind =>
    todoKinds_canonical (todoKinds_iff.2 (.inr (grant.workKinds_known kind hkind)))
  simp only [DelegatedWorkSelector.validated, except_ok, exists_const]
  refine ⟨(), h, by simp [selectorOf], ?_, trivial⟩
  rintro (hempty | ⟨kind, hkind, hnot⟩ | hdup)
  · exact grant.workKinds_distinct.1 hempty
  · exact hnot (hkinds kind hkind)
  · exact hdup grant.workKinds_distinct.2

/-- What a grant asks of an item that lies in the given Arena. -/
def admits (grant : WorkReadGrant) (key : Key) (archived : Bool) (arena : Option String) : Bool :=
  (!archived || grant.includeArchived) &&
    (grant.workIds.isEmpty || resource key ∈ grant.workIds) &&
    (grant.arenaIds.isEmpty || arena.any (· ∈ grant.arenaIds))

lemma admits_iff {archived : Bool} :
    admits grant key archived arena = true ↔
      (archived = false ∨ grant.includeArchived = true) ∧
        (grant.workIds = [] ∨ resource key ∈ grant.workIds) ∧
        (grant.arenaIds = [] ∨ ∃ id ∈ arena, id ∈ grant.arenaIds) := by
  cases arena <;> simp [admits, and_assoc]

section Placed

variable (hs : Placed s)

include hs

lemma selects_eq (hgrant : Selectable grant)
    (hkind : key.1 ∈ grant.workKinds) (harena : InArena s key arena)
    (node : Node) :
    selects s key node (selectorOf grant) = .ok (admits grant key node.archived arena) := by
  have hdescend : key ∈ arenaDescendantKeys s grant.arenaIds ↔
      ∃ id ∈ arena, id ∈ grant.arenaIds := by
    rw [mem_arenaDescendantKeys hs]
    constructor
    · rintro ⟨id, hid, root, chain, h⟩
      obtain ⟨root', chain', h'⟩ := harena
      obtain ⟨-, rfl, -⟩ := h'.unique hs h
      exact ⟨id, rfl, hid⟩
    · rintro ⟨id, hid, hmem⟩
      cases hid
      exact ⟨id, hmem, harena⟩
  have hiff := @admits_iff grant arena key node.archived
  simp only [selects, selectorOf, hkind, true_and, mem_split_iff (slash_of_valid hgrant), hdescend,
    ← hiff]
  cases admits grant key node.archived arena <;> rfl

lemma workAdmitted_eq (hwell : WellFormed s) (hnode : s.node? key = some node)
    (hkey : key.1 ∈ workKinds) (harena : InArena s key arena)
    (archived : Bool) (grants : List WorkReadGrant) (known : Option ArenaMembership)
    (hknown : ∀ found ∈ known, found.arena.map Arena.id = arena) :
    workAdmitted s key archived known grants = .ok (grants.any (admits · key archived arena)) := by
  induction grants generalizing known with
  | nil => rfl
  | cons grant grants ih =>
    have hlookup : ∃ found, known.elim (membership s key) .ok = .ok found ∧
        found.arena.map Arena.id = arena := by
      cases known with
      | none =>
        obtain ⟨root, chain, h⟩ := harena
        obtain ⟨found, hfound, harena, -⟩ := membership_eq hs hwell h hnode hkey
        exact ⟨found, hfound, harena⟩
      | some found => exact ⟨found, rfl, hknown found rfl⟩
    rw [workAdmitted, List.any_cons]
    split
    · rename_i harchived
      have hno : admits grant key archived arena = false := by simp [admits, harchived]
      rw [hno, Bool.false_or, ih known hknown]
    · rename_i harchived
      have hshown : (!archived || grant.includeArchived) = true := by
        cases archived <;> simp_all
      split
      · rename_i hexact
        have hno : admits grant key archived arena = false := by
          rw [not_or] at hexact
          simp [admits, hexact]
        rw [hno, Bool.false_or, ih known hknown]
      · rename_i hexact
        rw [not_not] at hexact
        have hlisted : (grant.workIds.isEmpty || resource key ∈ grant.workIds) = true := by
          simpa using hexact
        split
        · rename_i hunplaced
          have hyes : admits grant key archived arena = true := by
            rw [admits, hshown, hlisted, hunplaced]
            rfl
          rw [hyes]
          rfl
        · rename_i hplaced
          have hadmits : admits grant key archived arena = arena.any (· ∈ grant.arenaIds) := by
            rw [admits, hshown, hlisted]
            simp [hplaced]
          obtain ⟨found, hfound, hid⟩ := hlookup
          have hany : found.arena.any (·.id ∈ grant.arenaIds) = arena.any (· ∈ grant.arenaIds) := by
            rw [← hid]
            cases found.arena <;> rfl
          simp only [hfound, hany, hadmits]
          cases harenas : arena.any (· ∈ grant.arenaIds) with
          | true => rfl
          | false =>
            rw [Bool.false_or, if_neg (by simp), ih (some found)]
            intro found' hfound'
            cases hfound'
            exact hid

end Placed

def onWork (grants : List ReadGrant) : List WorkReadGrant := grants.filterMap ReadGrant.work?

/-- Whether all grants on Work include what is archived. -/
def archivedToo (grants : List ReadGrant) : Bool := (onWork grants).all (·.includeArchived)

def onKind (grants : List ReadGrant) (kind : Label) : List WorkReadGrant :=
  (onWork grants).filter (kind ∈ ·.workKinds)

lemma workGrants_eq {grants : List ReadGrant} {operation : WorkOperation}
    (hoperation : ∀ grant ∈ onWork grants, operation ∈ grant.operations) (kind : Label)
    {includeArchived : Bool} (harchived : includeArchived = true → archivedToo grants = true) :
    workGrants grants operation (some kind) none includeArchived = onKind grants kind := by
  unfold workGrants onKind
  apply List.filter_congr
  intro grant hgrant
  have hshown : (!includeArchived || grant.includeArchived) = true := by
    cases includeArchived with
    | false => rfl
    | true =>
      have hall := List.all_eq_true.1 (harchived rfl) grant hgrant
      simpa using hall
  simp [hoperation grant hgrant, hshown]

/-! ## Pages -/

instance (descending : Bool) : IsStrictTotalOrder String (idBefore descending) :=
  match descending with
  | false => inferInstanceAs (IsStrictTotalOrder String fun a b => a < b)
  | true => inferInstanceAs (IsStrictTotalOrder String fun a b => a > b)

lemma fromNode_fields (h : fromNode key node = .ok w) :
    w.key = key ∧ w.archived = node.archived := by
  have hbuild := (fromNode_ok h).2.2
  unfold build at hbuild
  split at hbuild
  · obtain ⟨rfl, -⟩ := postInit_ok.1 hbuild
    exact ⟨rfl, rfl⟩
  · cases hbuild

section Page

variable {kind : Label} {includeArchived : Bool} {found : (Sigma fun _ : Key => Node) → Bool}

def pageEntries (s : Store) (kind : Label) (includeArchived : Bool)
    (found : (Sigma fun _ : Key => Node) → Bool) : List (Sigma fun _ : Key => Node) :=
  s.nodes.entries.filter fun entry =>
    entry.1.1 = kind && (includeArchived || !entry.2.archived) && found entry

lemma node_of_entry :
    entry ∈ s.nodes.entries ↔ s.node? entry.1 = some entry.2 := AList.mem_lookup_iff.symm

lemma mem_pageEntries :
    entry ∈ pageEntries s kind includeArchived found ↔ s.node? entry.1 = some entry.2 ∧
      entry.1.1 = kind ∧ (includeArchived = true ∨ entry.2.archived = false) ∧
      found entry = true := by
  rw [pageEntries, List.mem_filter, node_of_entry]
  simp only [Bool.and_eq_true, decide_eq_true_eq, Bool.or_eq_true, Bool.not_eq_true', and_assoc]

lemma pageEntries_ids :
    ((pageEntries s kind includeArchived found).map fun entry => entry.1.2).Nodup := by
  have hkeys : (pageEntries s kind includeArchived found).Pairwise fun a b => a.1 ≠ b.1 :=
    (List.pairwise_map.1 s.nodes.nodupKeys).sublist List.filter_sublist
  rw [List.Nodup, List.pairwise_map]
  apply hkeys.imp_of_mem
  intro a b ha hb hne hid
  exact hne (Prod.ext ((mem_pageEntries.1 ha).2.1.trans (mem_pageEntries.1 hb).2.1.symm) hid)

lemma delegatedWorkPage_behind (hkind : kind ∈ canonicalWorkKinds)
    {selectors : List DelegatedWorkSelector} (hsome : selectors ≠ [])
    (hfound : ∀ entry ∈ s.nodes.entries, entry.1.1 = kind →
      admitted s selectors entry.1 = .ok (found entry)) (descending : Bool)
    (hlimit : 1 ≤ limit ∧ limit ≤ 100) (hafter : ∀ id ∈ afterId, isWorkObjectId id = true) :
    delegatedWorkPage s kind selectors [kind] includeArchived descending afterId limit =
      .ok ((behind (idBefore descending) (fun entry : Sigma fun _ : Key => Node => entry.1.2)
        (pageEntries s kind includeArchived found) afterId).take limit) := by
  have hfilter : validateWorkFilter kind selectors [kind] afterId limit = .ok () := by
    simp only [validateWorkFilter, except_ok, exists_const]
    refine ⟨not_not.2 hkind, hsome, by simp [hkind], ?_⟩
    cases afterId with
    | none => exact raiseIf_eq_ok.2 (not_not.2 hlimit)
    | some id =>
      simp only [except_ok, validateWorkObjectId, exists_const]
      exact ⟨by simp [hafter id rfl], not_not.2 hlimit⟩
  have hrecords : (s.nodes.entries.filterM fun entry =>
      if entry.1.1 = kind ∧ kind ∈ [kind] ∧ (includeArchived = true ∨ entry.2.archived = false)
      then do
        let found ← admitted s selectors entry.1
        return found && afterId.all fun id => idBefore descending id entry.1.2
      else pure false) = .ok ((pageEntries s kind includeArchived found).filter fun entry =>
        afterId.all fun id => idBefore descending id entry.1.2) := by
    rw [pageEntries, List.filter_filter]
    apply filterM_eq_filter
    intro entry hentry
    split
    · rename_i hcond
      obtain ⟨rfl, -, harchived⟩ := hcond
      have hshown : (includeArchived || !entry.2.archived) = true := by simpa using harchived
      rw [hfound entry hentry rfl, hshown]
      simp [bind, Except.bind, pure, Except.pure, Bool.and_comm]
    · rename_i hcond
      have hhidden : (decide (entry.1.1 = kind) && (includeArchived || !entry.2.archived)) =
          false := by
        rw [Bool.eq_false_iff]
        intro h
        simp only [Bool.and_eq_true, decide_eq_true_eq, Bool.or_eq_true, Bool.not_eq_true'] at h
        exact hcond ⟨h.1, by simp, h.2⟩
      rw [hhidden, Bool.false_and, Bool.and_false]
      rfl
  simp only [delegatedWorkPage, except_ok]
  exact ⟨(), hfilter, _, hrecords, rfl⟩

lemma mem_delegatedWorkPage {selectors : List DelegatedWorkSelector} {workKinds : List Label}
    {descending : Bool} {page : List (Sigma fun _ : Key => Node)}
    (h : delegatedWorkPage s kind selectors workKinds includeArchived descending afterId limit =
      .ok page) (hentry : entry ∈ page) :
    entry.1.1 = kind ∧ admitted s selectors entry.1 = .ok true := by
  simp only [delegatedWorkPage, except_ok] at h
  obtain ⟨_, -, records, hrecords, rfl⟩ := h
  have hmem := List.mem_of_mem_take hentry
  rw [List.mem_insertionSort] at hmem
  have hkept := ((mem_filterM hrecords entry).1 hmem).2
  split at hkept
  · rename_i hcond
    simp only [except_ok, Bool.and_eq_true] at hkept
    obtain ⟨found, hfound, rfl, -⟩ := hkept
    exact ⟨hcond.1, hfound⟩
  · cases hkept

end Page

section Listing

variable {grants : List ReadGrant} {kind : Label} {arenaAt : Key → Option String}

abbrev shown (s : Store) (grants : List ReadGrant) (kind : Label) (arenaAt : Key → Option String) :
    List (Sigma fun _ : Key => Node) :=
  pageEntries s kind (archivedToo grants) fun entry =>
    (onKind grants kind).any (admits · entry.1 entry.2.archived (arenaAt entry.1))

lemma kind_of_onKind (h : grant ∈ onKind grants kind) :
    grant ∈ onWork grants ∧ kind ∈ grant.workKinds := by
  rw [onKind, List.mem_filter] at h
  exact ⟨h.1, of_decide_eq_true h.2⟩

variable (hs : Placed s) (hselectable : ∀ grant ∈ onWork grants, Selectable grant)
  (harena : ∀ key, InArena s key (arenaAt key))

include hs hselectable harena

lemma admitted_eq (hnode : s.node? key = some node) :
    admitted s ((onKind grants key.1).map selectorOf) key =
      .ok ((onKind grants key.1).any (admits · key node.archived (arenaAt key))) := by
  rw [admitted, hnode]
  apply anyM_map_eq
  intro grant hgrant
  obtain ⟨hwork, hkind⟩ := kind_of_onKind hgrant
  exact selects_eq hs (hselectable grant hwork) hkind (harena key) node

lemma delegatedWorkPage_eq (hsome : onKind grants kind ≠ []) (descending : Bool)
    (hlimit : 1 ≤ limit ∧ limit ≤ 100) (hafter : ∀ id ∈ afterId, isWorkObjectId id = true) :
    delegatedWorkPage s kind ((onKind grants kind).map selectorOf) [kind] (archivedToo grants)
        descending afterId limit =
      .ok ((behind (idBefore descending) (fun entry : Sigma fun _ : Key => Node => entry.1.2)
        (shown s grants kind arenaAt) afterId).take limit) := by
  obtain ⟨grant, hgrant⟩ := List.exists_mem_of_ne_nil _ hsome
  obtain ⟨-, hgrantKind⟩ := kind_of_onKind hgrant
  have hcanonical : kind ∈ canonicalWorkKinds :=
    todoKinds_canonical (todoKinds_iff.2 (.inr (grant.workKinds_known kind hgrantKind)))
  exact delegatedWorkPage_behind hcanonical (by simpa using hsome)
    (fun entry hentry hkind => hkind ▸ admitted_eq hs hselectable harena (node_of_entry.1 hentry))
    descending hlimit hafter

lemma listWork_eq (hoperation : ∀ grant ∈ onWork grants, .list ∈ grant.operations)
    (hsome : onKind grants kind ≠ []) (descending : Bool)
    (hlimit : 1 ≤ limit ∧ limit ≤ 100) {object : (Sigma fun _ : Key => Node) → WorkObject}
    (hobject : ∀ entry ∈ shown s grants kind arenaAt, fromNode entry.1 entry.2 = .ok (object entry))
    (hafter : ∀ id ∈ afterId, ∃ w ∈ (shown s grants kind arenaAt).map object, w.id = id) :
    listWork s grants kind (archivedToo grants) descending limit afterId =
      .ok ((behind (idBefore descending) WorkObject.id ((shown s grants kind arenaAt).map object)
        afterId).take limit) := by
  have hid : ∀ entry ∈ shown s grants kind arenaAt, (object entry).id = entry.1.2 := by
    intro entry hentry
    exact congrArg Prod.snd (fromNode_fields (hobject entry hentry)).1
  have hvalid : ∀ id ∈ afterId, isWorkObjectId id = true := by
    intro id hmem
    obtain ⟨w, hw, rfl⟩ := hafter id hmem
    obtain ⟨entry, hentry, rfl⟩ := List.mem_map.1 hw
    rw [hid entry hentry]
    exact (fromNode_ok (hobject entry hentry)).1
  have hselectors : ((onKind grants kind).mapM fun grant => (selectorOf grant).validated) =
      .ok ((onKind grants kind).map selectorOf) :=
    mapM_eq_map fun grant hgrant =>
      selectorOf_validated (hselectable grant (kind_of_onKind hgrant).1)
  have hpage := delegatedWorkPage_eq hs hselectable harena hsome descending hlimit hvalid
  have hobjects : ((behind (idBefore descending)
      (fun entry : Sigma fun _ : Key => Node => entry.1.2)
      (shown s grants kind arenaAt) afterId).take limit).mapM
        (fun entry => fromNode entry.1 entry.2) =
      .ok ((behind (idBefore descending) WorkObject.id ((shown s grants kind arenaAt).map object)
        afterId).take limit) := by
    rw [← map_behind hid, ← List.map_take]
    apply mapM_eq_map
    intro entry hentry
    exact hobject entry (mem_behind.1 (List.mem_of_mem_take hentry)).1
  simp only [listWork, except_ok, exists_const]
  rw [workGrants_eq hoperation kind id]
  exact ⟨by simpa using hsome, _, hselectors, _, hpage, hobjects⟩

end Listing

/-! ## Agreement -/

lemma getById_read (hkind : key.1 ∈ canonicalWorkKinds)
    (hnode : s.node? key = some node) (hread : fromNode key node = .ok w) :
    getById s key = .ok w := by
  have hid := (fromNode_ok hread).1
  simp only [getById, requireKnownKind, validateWorkObjectId, except_ok, exists_const]
  exact ⟨not_not.2 hkind, by simp [hid], some node, by rw [getNode_eq hid, hnode], hread⟩

lemma workKind_of_onKind {grants : List ReadGrant} {kind : Label} (h : onKind grants kind ≠ []) :
    kind ∈ workKinds := by
  obtain ⟨grant, hgrant⟩ := List.exists_mem_of_ne_nil _ h
  exact grant.workKinds_known kind (kind_of_onKind hgrant).2

lemma getWork_iff (hs : Placed s) (hwell : WellFormed s) {grants : List ReadGrant}
    (hoperation : ∀ grant ∈ onWork grants, .get ∈ grant.operations) {arena : Option String}
    (harena : InArena s key arena) {w : WorkObject} :
    getWork s grants key = .ok w ↔ ∃ node, s.node? key = some node ∧ fromNode key node = .ok w ∧
      (onKind grants key.1).any (admits · key node.archived arena) = true := by
  rw [getWork, workGrants_eq hoperation key.1 (by simp), requireWork]
  constructor
  · intro h
    cases hget : getById s key with
    | error e =>
      rw [hget] at h
      simp only at h
      split at h <;> cases h
    | ok work =>
      rw [hget] at h
      simp only [except_ok, exists_const] at h
      obtain ⟨hsome, found, hfound, hadmitted, rfl⟩ := h
      obtain ⟨-, node, hnode, hread⟩ := getById_node hget
      have hkind := workKind_of_onKind (by simpa using hsome)
      rw [workAdmitted_eq hs hwell hnode hkind harena _ _ none (by simp),
        (fromNode_fields hread).2] at hfound
      cases hfound
      exact ⟨node, hnode, hread, by simpa using hadmitted⟩
  · rintro ⟨node, hnode, hread, hany⟩
    have hsome : onKind grants key.1 ≠ [] := by
      intro hnil
      rw [hnil] at hany
      cases hany
    have hkind := workKind_of_onKind hsome
    have hcanonical := todoKinds_canonical (todoKinds_iff.2 (.inr hkind))
    have hadmitted := workAdmitted_eq hs hwell hnode hkind harena node.archived
      (onKind grants key.1) none (by simp)
    rw [getById_read hcanonical hnode hread]
    simp only [except_ok, exists_const]
    refine ⟨by simpa using hsome, true, ?_, by simp, trivial⟩
    rw [(fromNode_fields hread).2, hadmitted, hany]

lemma listWork_none {grants : List ReadGrant} {kind : Label} {descending : Bool}
    (hoperation : ∀ grant ∈ onWork grants, .list ∈ grant.operations)
    (hnone : onKind grants kind = []) :
    listWork s grants kind (archivedToo grants) descending limit afterId = .error notGranted := by
  rw [listWork, workGrants_eq hoperation kind id, hnone]
  rfl

/-- The pages of a listing hold the objects of the shown entries. -/
lemma pages_listWork (hs : Placed s) (hwork : ∀ key node, s.node? key = some node →
    key.1 ∈ canonicalWorkKinds → ∃ w, fromNode key node = .ok w) {grants : List ReadGrant}
    (hoperation : ∀ grant ∈ onWork grants, .list ∈ grant.operations)
    (hselectable : ∀ grant ∈ onWork grants, Selectable grant) {kind : Label}
    (hsome : onKind grants kind ≠ []) (descending : Bool)
    (hlimit : 1 ≤ limit ∧ limit ≤ 100) {n : Nat} (hn : s.nodes.keys.length < n)
    {arenaAt : Key → Option String} (harena : ∀ key, InArena s key (arenaAt key)) :
    ∃ items, pages (listWork s grants kind (archivedToo grants) descending limit)
        WorkObject.id n none = .ok items ∧
      ∀ w, w ∈ items ↔ ∃ entry ∈ shown s grants kind arenaAt,
        fromNode entry.1 entry.2 = .ok w := by
  have hcanonical : kind ∈ canonicalWorkKinds :=
    todoKinds_canonical (todoKinds_iff.2 (.inr (workKind_of_onKind hsome)))
  have hread : ∀ entry : Sigma fun _ : Key => Node, ∃ w, entry ∈ shown s grants kind arenaAt →
      fromNode entry.1 entry.2 = .ok w := by
    intro entry
    by_cases hentry : entry ∈ shown s grants kind arenaAt
    · obtain ⟨hnode, hkind, -⟩ := mem_pageEntries.1 hentry
      obtain ⟨w, hw⟩ := hwork _ _ hnode (by rw [hkind]; exact hcanonical)
      exact ⟨w, fun _ => hw⟩
    · exact ⟨newObject kind "" "" "" epoch epoch, fun h => absurd h hentry⟩
  choose object hobject using hread
  have hids : (((shown s grants kind arenaAt).map object).map WorkObject.id).Nodup := by
    have hid : ((shown s grants kind arenaAt).map object).map WorkObject.id =
        (shown s grants kind arenaAt).map fun entry => entry.1.2 := by
      rw [List.map_map]
      apply List.map_congr_left
      intro entry hentry
      exact congrArg Prod.snd (fromNode_fields (hobject entry hentry)).1
    rw [hid]
    exact pageEntries_ids
  have hlength : (behind (idBefore descending) WorkObject.id
      ((shown s grants kind arenaAt).map object) none).length < n := by
    refine lt_of_le_of_lt (length_behind_le.trans ?_) hn
    rw [List.length_map, AList.keys, List.keys, List.length_map]
    exact List.length_filter_le _ _
  rcases mem_pages hlimit.1 hids (fun _ => listWork_eq hs hselectable harena hoperation hsome
    descending hlimit hobject) none (by simp) hlength with ⟨items, hitems, hmem⟩
  refine ⟨items, hitems, ?_⟩
  intro w
  rw [hmem, mem_behind, List.mem_map]
  constructor
  · rintro ⟨⟨entry, hentry, rfl⟩, -⟩
    exact ⟨entry, hentry, hobject entry hentry⟩
  · rintro ⟨entry, hentry, hw⟩
    rw [hobject entry hentry] at hw
    cases hw
    exact ⟨⟨entry, hentry, rfl⟩, rfl⟩

/-- An item stands on the pages of a listing exactly when it can be read alone, and a search from
the Arenas of a grant finds it exactly when the walk to its root ends in one of them. -/
theorem list_get_agree (s : Store) (hs : Placed s) (hwell : WellFormed s) (grants : List ReadGrant)
    (hoperations : ∀ grant ∈ onWork grants, .list ∈ grant.operations ∧ .get ∈ grant.operations)
    (hselectable : ∀ grant ∈ onWork grants, Selectable grant) (kind : Label) (descending : Bool)
    (limit : Nat) (hlimit : 1 ≤ limit ∧ limit ≤ 100) (n : Nat) (hn : s.nodes.keys.length < n) :
    (∀ w, (∃ items, pages (listWork s grants kind (archivedToo grants) descending limit)
        WorkObject.id n none = .ok items ∧ w ∈ items) ↔
      w.kind = kind ∧ getWork s grants (kind, w.id) = .ok w ∧
        (archivedToo grants = true ∨ w.archived = false)) ∧
    ∀ key node, s.node? key = some node → key.1 ∈ workKinds → ∀ grant ∈ onWork grants,
      (key ∈ arenaDescendantKeys s grant.arenaIds ↔ ∃ found arena, membership s key = .ok found ∧
        found.arena = some arena ∧ arena.id ∈ grant.arenaIds) := by
  have hlist : ∀ grant ∈ onWork grants, .list ∈ grant.operations :=
    fun grant hgrant => (hoperations grant hgrant).1
  have hget : ∀ grant ∈ onWork grants, .get ∈ grant.operations :=
    fun grant hgrant => (hoperations grant hgrant).2
  choose arenaAt harena using inArena_exists hs
  refine ⟨?_, ?_⟩
  · intro w
    rw [getWork_iff hs hwell hget (harena (kind, w.id))]
    by_cases hsome : onKind grants kind = []
    · constructor
      · rintro ⟨items, hitems, -⟩
        obtain ⟨m, rfl⟩ := Nat.exists_eq_add_of_lt (Nat.lt_of_le_of_lt (Nat.zero_le _) hn)
        rw [zero_add, pages, listWork_none hlist hsome] at hitems
        cases hitems
      · rintro ⟨-, ⟨node, -, -, hany⟩, -⟩
        rw [hsome] at hany
        cases hany
    · rcases pages_listWork hs hwell.work hlist hselectable hsome descending hlimit hn harena with
        ⟨items, hitems, hmem⟩
      constructor
      · rintro ⟨items', hitems', hw⟩
        rw [hitems] at hitems'
        cases hitems'
        obtain ⟨⟨key, node⟩, hentry, hread⟩ := (hmem w).1 hw
        obtain ⟨hnode, hkind, harchived, hany⟩ := mem_pageEntries.1 hentry
        obtain ⟨rfl, hflag⟩ := fromNode_fields hread
        subst hkind
        rw [hflag]
        exact ⟨rfl, ⟨node, hnode, hread, hany⟩, harchived⟩
      · rintro ⟨rfl, ⟨node, hnode, hread, hany⟩, harchived⟩
        rw [(fromNode_fields hread).2] at harchived
        exact ⟨items, hitems, (hmem w).2 ⟨⟨w.key, node⟩,
          mem_pageEntries.2 ⟨hnode, rfl, harchived, hany⟩, hread⟩⟩
  · intro key node hnode hkind grant _
    obtain ⟨root, arena, chain, h⟩ := lineage_exists hs key
    obtain ⟨found, hfound, hid, -⟩ := membership_eq hs hwell h hnode hkind
    rw [mem_arenaDescendantKeys hs]
    constructor
    · rintro ⟨id, hmem, root', chain', h'⟩
      obtain ⟨-, rfl, -⟩ := h.unique hs h'
      obtain ⟨a, ha, rfl⟩ := Option.map_eq_some_iff.1 hid
      exact ⟨found, a, hfound, ha, hmem⟩
    · rintro ⟨found', a, hfound', ha, hmem⟩
      rw [hfound] at hfound'
      cases hfound'
      rw [ha] at hid
      cases hid
      exact ⟨a.id, hmem, root, chain, h⟩

def taskGrant (workIds arenaIds : List String) (hwork : workIds.Nodup ∧ "" ∉ workIds)
    (harena : arenaIds.Nodup ∧ "" ∉ arenaIds) : WorkReadGrant where
  operations := [.list, .get]
  relationshipTypes := [.children]
  workKinds := [.task]
  workIds := workIds
  arenaIds := arenaIds
  includeArchived := false
  operations_distinct := by decide
  relationshipTypes_distinct := by decide
  workKinds_distinct := by decide
  workKinds_known := by decide
  workIds_distinct := hwork
  arenaIds_distinct := harena

def arenaGrants : List ReadGrant := [.work (taskGrant [] ["a"] (by decide) (by decide))]

def kindGrants : List ReadGrant := [.work (taskGrant [] [] (by decide) (by decide))]

def mixedGrants : List ReadGrant :=
  kindGrants ++ [.work (taskGrant ["x"] [] (by decide) (by decide))]

lemma arenaGrants_selectable : ∀ grant ∈ onWork arenaGrants, Selectable grant := by
  intro grant hgrant
  rw [List.mem_singleton.1 hgrant]
  rfl

theorem list_get_agree_task :
    Placed taskStore ∧ (∀ w, (∃ items, pages (listWork taskStore arenaGrants .task false false 1)
        WorkObject.id 4 none = .ok items ∧ w ∈ items) ↔
      w.kind = .task ∧ getWork taskStore arenaGrants (.task, w.id) = .ok w ∧
        (false = true ∨ w.archived = false)) :=
  ⟨taskStore_placed, (list_get_agree taskStore taskStore_placed taskStore_wellFormed arenaGrants
    (by decide) arenaGrants_selectable .task false 1 (by decide) 4 (by decide)).1⟩

def brokenTask : Store := taskStore.put (.task, "u") ⟨noProps, false⟩

def brokenArena : Store := taskStore.put (.arena, "a") ⟨noProps, false⟩

lemma put_placed (hs : Placed s) (node : Node) : Placed (s.put key node) where
  parent_unique := hs.parent_unique
  arena_unique := hs.arena_unique
  parent_kind := hs.parent_kind
  arena_kind := hs.arena_kind
  exclusive := hs.exclusive

/-- A selector that names no item and an unreadable Task stop every listing but no read of another
Task. An unreadable Arena stops the read of a Task below it but no listing. -/
theorem list_get_differ :
    ((∃ w, getWork taskStore mixedGrants (.task, "t") = .ok w) ∧
      pages (listWork taskStore mixedGrants .task false true 1) WorkObject.id 4 none =
        .error invalidSelector) ∧
    (Placed brokenTask ∧ (∃ w, getWork brokenTask kindGrants (.task, "t") = .ok w) ∧
      ∃ e, pages (listWork brokenTask kindGrants .task false true 1) WorkObject.id 5 none =
        .error e) ∧
    (Placed brokenArena ∧ getWork brokenArena arenaGrants (.task, "t") = .error malformedArena ∧
      ∃ items w, pages (listWork brokenArena arenaGrants .task false true 1) WorkObject.id 4 none =
        .ok items ∧ w ∈ items ∧ w.key = (.task, "t")) := by
  obtain ⟨v, hmixed, -⟩ := exists_ok_of (P := fun _ => True)
    (r := getWork taskStore mixedGrants (.task, "t")) (by decide +kernel)
  obtain ⟨u, hbroken, -⟩ := exists_ok_of (P := fun _ => True)
    (r := getWork brokenTask kindGrants (.task, "t")) (by decide +kernel)
  obtain ⟨items, hitems, w, hmem, hkey⟩ := exists_ok_of
    (P := fun items : List WorkObject => ∃ w ∈ items, w.key = (.task, "t"))
    (r := pages (listWork brokenArena arenaGrants .task false true 1) WorkObject.id 4 none)
    (by decide +kernel)
  exact ⟨⟨⟨v, hmixed⟩, rfl⟩, ⟨put_placed taskStore_placed _, ⟨u, hbroken⟩, ⟨_, rfl⟩⟩,
    put_placed taskStore_placed _, by decide +kernel, items, w, hitems, hmem, hkey⟩

end DevGraph.Proofs
