import DevGraph.Proofs.AccessPolicy
import DevGraph.Proofs.NativePolicy
import DevGraph.Work.SelectorGrants
import Mathlib.Data.List.ReduceOption

/-!
# Selectors keep what a grant admits

The selector of a grant keeps less than the grant, which stays beside it, so the view of a
transaction admits what the grant admits. A selector that was not made from the grant can only
take away from it.
-/

namespace DevGraph.Proofs

open Lib Work

variable {refs : List ResourceReference} {rows : List SnapshotRow}

variable {s : Store} {key : Key}

/-- The target is a root that is included, or a root is among the ancestors in its row. -/
def hierarchyAllows (rows : List SnapshotRow) (hierarchy : SelectorHierarchy)
    (target : ResourceReference) : Bool :=
  (hierarchy.includeSelf && target ∈ hierarchy.roots) ||
    rows.any fun row => row.resource = target && row.ancestors.any (· ∈ hierarchy.roots)

/-- What the native helper decides about a target. -/
def selectorAllows (selector : ResourceSelector) (rows : List SnapshotRow)
    (target : ResourceReference) : Bool :=
  target.1 ∈ selector.kinds &&
    (match selector.selection.mode with
      | .all => true
      | .objects refs => target ∈ refs
      | .descendants hierarchy => hierarchyAllows rows hierarchy target) &&
    selector.selection.within.all fun hierarchy => hierarchyAllows rows hierarchy target

def ExactCheck (check : SelectorCheck) : Prop :=
  ∀ selector targets rows,
    check selector targets rows = .ok (targets.map (selectorAllows selector rows))

/-- The item is a root that is included, or a root is above it in the store. -/
def Descends (s : Store) (hierarchy : SelectorHierarchy) (key : Key) : Prop :=
  (hierarchy.includeSelf = true ∧ keyReference key ∈ hierarchy.roots) ∨
    ∃ chain, currentResourcePath (memoryStorage s) key = .ok (some chain) ∧
      ∃ above ∈ chain, above ≠ key ∧ keyReference above ∈ hierarchy.roots

/-- What a selector means in a store. -/
structure SelectorAdmits (s : Store) (selector : ResourceSelector) (key : Key) : Prop where
  kind : key.1.name ∈ selector.kinds
  mode : match selector.selection.mode with
    | .all => True
    | .objects refs => keyReference key ∈ refs
    | .descendants hierarchy => Descends s hierarchy key
  within : ∀ hierarchy ∈ selector.selection.within, Descends s hierarchy key

def GrantAdmits (s : Store) (selector : DelegatedWorkSelector) (key : Key) : Prop :=
  selector.validated = .ok selector ∧ admitted s [selector] key = .ok true

def ViewAdmits (s : Store) (view : List LocalGrant) (key : Key) : Prop :=
  ∃ grant ∈ view, ∃ selector ∈ grant.selector?, GrantAdmits s selector key

/-- A grant on Work is encoded, wrapped and materialized. -/
def encodedView (check : SelectorCheck) (s : Store) (grant : ScopedReadGrant) (service : String) :
    Except Error (List LocalGrant) := do
  let roles ← permissionV2 (.work grant) service
  let held ← wrapPermission roles [.work grant]
  materialize check s held

/-! ## Snapshots -/

lemma ofName_some {name : String} {kind : Label} (h : Label.ofName name = some kind) :
    kind.name = name := by
  have hfound := List.find?_some h
  simpa using hfound

lemma keyReference_injective : Function.Injective keyReference := by
  intro a b h
  rw [keyReference, keyReference, Prod.mk.injEq] at h
  have hkind := ofName_label a.1
  rw [h.1, ofName_label] at hkind
  exact Prod.ext (Option.some.inj hkind).symm h.2

lemma mem_snapshot (h : snapshot s refs = .ok rows) {row : SnapshotRow} :
    row ∈ rows ↔ ∃ ref ∈ refs, snapshotRow s ref = .ok (some row) := by
  simp only [snapshot, except_ok] at h
  obtain ⟨found, hfound, rfl⟩ := h
  rw [List.reduceOption_mem_iff]
  constructor
  · intro hrow
    obtain ⟨ref, href, hread⟩ := mem_mapM hfound hrow
    rw [List.mem_insertionSort, List.mem_dedup] at href
    exact ⟨ref, href, hread⟩
  · rintro ⟨ref, href, hread⟩
    rcases mapM_of_mem hfound (a := ref) (by rwa [List.mem_insertionSort, List.mem_dedup]) with
      ⟨row', hmem, hread'⟩
    rw [hread] at hread'
    cases hread'
    exact hmem

lemma snapshot_exists (h : ∀ ref ∈ refs, ∃ row, snapshotRow s ref = .ok row) :
    ∃ rows, snapshot s refs = .ok rows := by
  simp only [snapshot, except_ok]
  rcases mapM_exists (l := refs.dedup.insertionSort fun a b => a.1 < b.1 ∨ a.1 = b.1 ∧ a.2 ≤ b.2)
    (f := snapshotRow s) (by
      intro ref href
      rw [List.mem_insertionSort, List.mem_dedup] at href
      exact h ref href) with ⟨rows, hrows⟩
  exact ⟨_, rows, hrows, rfl⟩

lemma snapshotRow_ancestors {ref : ResourceReference} {row : SnapshotRow}
    (h : snapshotRow s ref = .ok (some row)) (href : row.resource = keyReference key)
    {root : ResourceReference} (hroot : root ∈ row.ancestors) :
    ∃ chain, currentResourcePath (memoryStorage s) key = .ok (some chain) ∧
      ∃ above ∈ chain, above ≠ key ∧ keyReference above = root := by
  simp only [snapshotRow, except_bind_ok] at h
  obtain ⟨_, -, h⟩ := h
  split at h
  · cases h
  · rename_i kind hkind
    split at h
    · cases h
    · simp only [except_bind_ok] at h
      obtain ⟨_, -, h⟩ := h
      split at h
      · rw [except_bind_ok] at h
        obtain ⟨path, hpath, h⟩ := h
        split at h
        · cases h
        · rename_i chain
          cases h
          have hkey : (kind, ref.2) = key := by
            apply keyReference_injective
            rw [← href, keyReference, ofName_some hkind]
          rw [hkey] at hpath hroot
          simp only [List.mem_map, List.mem_filter, decide_eq_true_eq] at hroot
          obtain ⟨above, ⟨habove, hne⟩, rfl⟩ := hroot
          exact ⟨chain, hpath, above, habove, hne, rfl⟩
      · cases h
        cases hroot

lemma descends_of_allows (h : snapshot s refs = .ok rows) {hierarchy : SelectorHierarchy}
    (hallows : hierarchyAllows rows hierarchy (keyReference key) = true) :
    Descends s hierarchy key := by
  simp only [hierarchyAllows, Bool.or_eq_true, Bool.and_eq_true, List.any_eq_true,
    decide_eq_true_eq] at hallows
  obtain hself | ⟨row, hrow, href, root, hroot, hmem⟩ := hallows
  · exact .inl hself
  · obtain ⟨ref, -, hread⟩ := (mem_snapshot h).1 hrow
    obtain ⟨chain, hchain, above, habove, hne, rfl⟩ := snapshotRow_ancestors hread href hroot
    exact .inr ⟨chain, hchain, above, habove, hne, hmem⟩

lemma selectorAdmits_of_allows (h : snapshot s refs = .ok rows) {selector : ResourceSelector}
    (hallows : selectorAllows selector rows (keyReference key) = true) :
    SelectorAdmits s selector key := by
  simp only [selectorAllows, Bool.and_eq_true, decide_eq_true_eq] at hallows
  obtain ⟨⟨hkind, hmode⟩, hwithin⟩ := hallows
  refine ⟨hkind, ?_, ?_⟩
  · split at hmode
    · trivial
    · exact of_decide_eq_true hmode
    · exact descends_of_allows h hmode
  · intro hierarchy hmem
    rw [Option.mem_def] at hmem
    rw [hmem] at hwithin
    exact descends_of_allows h hwithin

section Permitted

variable {check : SelectorCheck} (hexact : ExactCheck check) {selector : ResourceSelector}

include hexact

lemma mem_permittedPage {page selected : List Key}
    (h : permittedPage check s selector page = .ok selected) (hkey : key ∈ selected) :
    key ∈ page ∧ SelectorAdmits s selector key := by
  simp only [permittedPage, except_ok] at h
  obtain ⟨rows, hrows, allowed, hallowed, _, -, rfl⟩ := h
  rw [hexact] at hallowed
  cases hallowed
  rw [List.map_map, ← List.map_prod_left_eq_zip] at hkey
  simp only [List.mem_map, List.mem_filter, Function.comp_apply] at hkey
  obtain ⟨_, ⟨⟨key', hmem, rfl⟩, hallows⟩, rfl⟩ := hkey
  exact ⟨hmem, selectorAdmits_of_allows hrows hallows⟩

lemma mem_permitted {nodes selected : List Key}
    (h : permitted check s selector nodes = .ok selected) (hkey : key ∈ selected) :
    key ∈ nodes ∧ SelectorAdmits s selector key := by
  simp only [permitted, except_ok] at h
  obtain ⟨pages, hpages, rfl⟩ := h
  obtain ⟨kept, hkept, hkey⟩ := List.mem_flatten.1 hkey
  obtain ⟨page, hpage, hread⟩ := mem_mapM hpages hkept
  obtain ⟨hmem, hadmits⟩ := mem_permittedPage hexact hread hkey
  exact ⟨(length_of_mem_batches hpage).2.2.subset hmem, hadmits⟩

lemma permitted_eq {nodes : List Key}
    (h : ∀ page, page ⊆ nodes → ∃ rows,
      snapshot s (selector.selection.roots ++ page.map keyReference) = .ok rows ∧
        ∀ key ∈ page, selectorAllows selector rows (keyReference key) = true) :
    permitted check s selector nodes = .ok nodes := by
  have hpage : ∀ page ∈ batches 15 nodes, permittedPage check s selector page = .ok (id page) := by
    intro page hmem
    obtain ⟨rows, hrows, hallows⟩ := h page (length_of_mem_batches hmem).2.2.subset
    have hall : (page.map keyReference).map (selectorAllows selector rows) =
        page.map fun _ => true := by
      rw [List.map_map]
      exact List.map_congr_left hallows
    simp only [permittedPage, except_ok]
    refine ⟨rows, hrows, _, hexact _ _ _, (), by simp, ?_⟩
    rw [hall, ← List.map_prod_left_eq_zip]
    simp [List.filter_map, Function.comp_def]
  simp only [permitted, except_ok]
  exact ⟨_, mapM_eq_map hpage, by rw [List.map_id, flatten_batches]⟩

end Permitted

/-! ## The listing of a grant -/

/-- Whether a selector is known to admit an item. -/
def admittedBy (s : Store) (selector : DelegatedWorkSelector) (key : Key) : Bool :=
  match admitted s [selector] key with
  | .ok found => found
  | .error _ => false

lemma admittedBy_iff {selector : DelegatedWorkSelector} :
    admittedBy s selector key = true ↔ admitted s [selector] key = .ok true := by
  unfold admittedBy
  cases admitted s [selector] key with
  | ok found => simp
  | error e => simp

def listedKeys (s : Store) (selector : DelegatedWorkSelector) (kind : Label) : List Key :=
  behind (idBefore false) Prod.snd
    ((pageEntries s kind true fun entry => admittedBy s selector entry.1).map Sigma.fst) none

lemma mem_listedKeys {selector : DelegatedWorkSelector} {kind : Label} :
    key ∈ listedKeys s selector kind ↔ key.1 = kind ∧ admitted s [selector] key = .ok true := by
  rw [listedKeys, mem_behind, List.mem_map]
  constructor
  · rintro ⟨⟨entry, hentry, rfl⟩, -⟩
    obtain ⟨-, hkind, -, hadmitted⟩ := mem_pageEntries.1 hentry
    exact ⟨hkind, admittedBy_iff.1 hadmitted⟩
  · rintro ⟨hkind, hadmitted⟩
    obtain ⟨node, hnode, -⟩ := admitted_single.1 hadmitted
    exact ⟨⟨⟨key, node⟩, mem_pageEntries.2 ⟨hnode, hkind, .inl rfl, admittedBy_iff.2 hadmitted⟩,
      rfl⟩, rfl⟩

lemma listedKeys_nodup {selector : DelegatedWorkSelector} {kind : Label} :
    (listedKeys s selector kind).Nodup := by
  have hids : (((pageEntries s kind true fun entry => admittedBy s selector entry.1).map
      Sigma.fst).map Prod.snd).Nodup := by
    rw [List.map_map]
    exact pageEntries_ids
  have hsorted : (listedKeys s selector kind).Pairwise fun a b => idBefore false a.2 b.2 :=
    sorted_behind hids none
  apply hsorted.imp
  rintro a b hlt rfl
  exact irrefl_of (idBefore false) _ hlt

variable {page : List Key}

lemma mem_workKeys {selector : DelegatedWorkSelector} {kind : Label} {afterId : Option String}
    (h : workKeys s selector kind afterId = .ok page) (hkey : key ∈ page) :
    admitted s [selector] key = .ok true := by
  simp only [workKeys, except_ok] at h
  obtain ⟨entries, hentries, rfl⟩ := h
  obtain ⟨entry, hentry, rfl⟩ := List.mem_map.1 hkey
  exact (mem_delegatedWorkPage hentries hentry).2

lemma mem_selectorNodes {selector : DelegatedWorkSelector} {kinds : List Label}
    {found nodes : List Key}
    (h : kinds.foldlM (fun nodes kind => selectorNodes (workKeys s selector kind) nodes) found =
      .ok nodes) (hfound : ∀ key ∈ found, admitted s [selector] key = .ok true) :
    ∀ key ∈ nodes, admitted s [selector] key = .ok true := by
  induction kinds generalizing found with
  | nil =>
    cases h
    exact hfound
  | cons kind kinds ih =>
    rw [List.foldlM_cons, except_bind_ok] at h
    obtain ⟨later, hlater, h⟩ := h
    apply ih h
    intro key hkey
    obtain hkey | ⟨cursor, page, hpage, hkey⟩ := mem_fetchAll hlater hkey
    · exact hfound key hkey
    · exact mem_workKeys hpage hkey

section Placed

variable (hs : Placed s) (hkinds : KindsStored s) {selector : DelegatedWorkSelector} {kind : Label}

include hs hkinds

lemma admitted_total {node : Node} (hnode : s.node? key = some node) (hkey : key.1 ∈ todoKinds) :
    admitted s [selector] key = .ok (admittedBy s selector key) := by
  have hpaths : ∃ found, withinPaths (memoryStorage s) key selector.resourcePaths = .ok found := by
    obtain ⟨root, arena, chain, h⟩ := lineage_exists hs key
    unfold withinPaths
    split
    · exact ⟨true, rfl⟩
    · rw [currentResourcePath_eq hs hkinds h hnode hkey]
      exact ⟨_, rfl⟩
  have hselects : ∃ found, selects s key node selector = .ok found := by
    unfold selects
    split
    · exact hpaths
    · exact ⟨false, rfl⟩
  obtain ⟨found, hfound⟩ := hselects
  have hadmitted : admitted s [selector] key = .ok found := by
    rw [admitted, hnode]
    cases found <;> simp [List.anyM, hfound, bind, Except.bind, pure, Except.pure]
  rw [admittedBy, hadmitted]

lemma workKeys_eq (hkind : kind ∈ todoKinds) {afterId : Option String}
    (hafter : ∀ id ∈ afterId, isWorkObjectId id = true) :
    workKeys s selector kind afterId = .ok ((behind (idBefore false) Prod.snd
      ((pageEntries s kind true fun entry => admittedBy s selector entry.1).map Sigma.fst)
        afterId).take 100) := by
  have hfound : ∀ entry ∈ s.nodes.entries, entry.1.1 = kind →
      admitted s [selector] entry.1 = .ok (admittedBy s selector entry.1) :=
    fun entry hentry hlabel => admitted_total hs hkinds (node_of_entry.1 hentry) (hlabel ▸ hkind)
  simp only [workKeys, except_ok]
  refine ⟨_, delegatedWorkPage_behind (todoKinds_canonical hkind) (List.cons_ne_nil _ _) hfound
    false (by decide) hafter, ?_⟩
  rw [List.map_take, map_behind fun _ _ => rfl]

lemma selectorNodes_eq (hkind : kind ∈ todoKinds) {found : List Key}
    (hcapacity : found.length + (listedKeys s selector kind).length ≤ 10000) :
    selectorNodes (workKeys s selector kind) found =
      .ok (found ++ listedKeys s selector kind) := by
  have hids : ((((pageEntries s kind true fun entry => admittedBy s selector entry.1).map
      Sigma.fst)).map Prod.snd).Nodup := by
    rw [List.map_map]
    exact pageEntries_ids
  apply fetchAll_eq (by decide) hids _ none (by simp) found hcapacity
  · have hlength : (listedKeys s selector kind).length ≤ 10000 := by omega
    exact Nat.lt_of_le_of_lt hlength (by decide)
  · intro cursor hcursor
    apply workKeys_eq hs hkinds hkind
    intro id hid
    obtain ⟨key, hkey, rfl⟩ := hcursor id hid
    obtain ⟨entry, hentry, rfl⟩ := List.mem_map.1 hkey
    obtain ⟨hnode, hlabel, -⟩ := mem_pageEntries.1 hentry
    exact (hkinds _ _ hnode (List.mem_cons_of_mem _ (hlabel ▸ hkind))).1

lemma foldlM_selectorNodes {kinds : List Label} (hkind : ∀ kind ∈ kinds, kind ∈ todoKinds)
    {found : List Key}
    (hcapacity : found.length + (kinds.flatMap (listedKeys s selector)).length ≤ 10000) :
    kinds.foldlM (fun nodes kind => selectorNodes (workKeys s selector kind) nodes) found =
      .ok (found ++ kinds.flatMap (listedKeys s selector)) := by
  induction kinds generalizing found with
  | nil => simp [pure, Except.pure]
  | cons kind kinds ih =>
    rw [List.flatMap_cons, List.length_append] at hcapacity
    rw [List.foldlM_cons, selectorNodes_eq hs hkinds (hkind kind List.mem_cons_self) (by omega)]
    change kinds.foldlM _ _ = _
    rw [ih (fun kind hmem => hkind kind (List.mem_cons_of_mem _ hmem)), List.flatMap_cons,
      List.append_assoc]
    rw [List.length_append]
    omega

lemma snapshotRow_item {root : Key} {arena : Option String} {chain : List Key}
    (h : Lineage s key root arena chain) {node : Node} (hnode : s.node? key = some node)
    (hkey : key.1 ∈ todoKinds) :
    snapshotRow s (keyReference key) =
      .ok (some ⟨keyReference key, (chain.filter (· ≠ key)).map keyReference⟩) := by
  obtain ⟨hid, hkind⟩ := hkinds key node hnode (List.mem_cons_of_mem _ hkey)
  have hpath := currentResourcePath_eq hs hkinds h hnode hkey
  simp only [snapshotRow, keyReference, ofName_label, Prod.mk.eta, hnode, hpath, if_pos hkey,
    validateWorkObjectId, hkind, except_bind_ok]
  exact ⟨(), raiseIf_eq_ok.2 (by simp [hid]), (), raiseIf_eq_ok.2 (by simp), some chain, rfl,
    rfl⟩

lemma snapshotRow_total (hid : isWorkObjectId key.2 = true)
    (hkey : key.1 ∈ Label.arena :: todoKinds) :
    ∃ row, snapshotRow s (keyReference key) = .ok row := by
  cases hnode : s.node? key with
  | none =>
    refine ⟨none, ?_⟩
    simp only [snapshotRow, keyReference, ofName_label, Prod.mk.eta, hnode, validateWorkObjectId,
      except_bind_ok]
    exact ⟨(), raiseIf_eq_ok.2 (by simp [hid]), rfl⟩
  | some node =>
    by_cases htodo : key.1 ∈ todoKinds
    · obtain ⟨root, arena, chain, h⟩ := lineage_exists hs key
      exact ⟨_, snapshotRow_item hs hkinds h hnode htodo⟩
    · have hkind := (hkinds key node hnode hkey).2
      refine ⟨some ⟨keyReference key, []⟩, ?_⟩
      simp only [snapshotRow, keyReference, ofName_label, Prod.mk.eta, hnode, if_neg htodo,
        validateWorkObjectId, hkind, except_bind_ok]
      exact ⟨(), raiseIf_eq_ok.2 (by simp [hid]), (), raiseIf_eq_ok.2 (by simp), rfl⟩

end Placed

lemma validated_iff {selector checked : DelegatedWorkSelector} :
    selector.validated = .ok checked ↔ checked = selector ∧
      validateSelectors selector.workIds selector.arenaIds = .ok () ∧
      (selector.resourcePaths.length ≤ 16 ∧ selector.resourcePaths.Nodup) ∧
      selector.workKinds ≠ [] ∧ (∀ kind ∈ selector.workKinds, kind ∈ canonicalWorkKinds) ∧
      selector.workKinds.Nodup := by
  simp only [DelegatedWorkSelector.validated, except_ok, exists_const, not_or, not_lt, not_not,
    not_exists, not_and, gt_iff_lt]
  constructor
  · rintro ⟨_, hids, hpaths, hkinds, rfl⟩
    exact ⟨rfl, hids, hpaths, hkinds⟩
  · rintro ⟨rfl, hids, hpaths, hkinds⟩
    exact ⟨(), hids, hpaths, hkinds, rfl⟩

lemma ScopedReadGrant.validated_iff {grant : ScopedReadGrant} :
    grant.selector.validated = .ok grant.selector ↔
      validateSelectors grant.workIds grant.arenaIds = .ok () := by
  rw [Proofs.validated_iff]
  exact ⟨fun h => h.2.1, fun h => ⟨rfl, h, grant.paths_distinct, grant.workKinds_distinct.1,
    fun kind hkind => todoKinds_canonical (grant.workKinds_known kind hkind),
    grant.workKinds_distinct.2⟩⟩

lemma mem_resources {keys : List Key} :
    (key.1.name, key.2) ∈ (keys.map resource).map splitResource ↔ key ∈ keys := by
  have hslash : ∀ r ∈ keys.map resource, '/' ∈ r.toList := by
    intro r hr
    obtain ⟨k, -, rfl⟩ := List.mem_map.1 hr
    simp [resource]
  rw [mem_split_iff hslash, List.mem_map_of_injective resource_injective]

/-- A held grant admits the item, and so does its selector if it has one. -/
def HeldAdmits (s : Store) (held : HeldGrant) (key : Key) : Prop :=
  match held with
  | .plain grant => ∃ work ∈ grant.work?, GrantAdmits s work.selector key
  | .selected grant selector =>
    (∃ work ∈ grant.work?, GrantAdmits s work.selector key) ∧ SelectorAdmits s selector key

section View

variable {check : SelectorCheck} {grant : DraftReadGrant} {selector : ResourceSelector}
  {narrowed : LocalGrant} {found : DelegatedWorkSelector}

lemma materializeAll_admits (h : materializeAll grant selector = .ok (some narrowed))
    (hselector : selector.selection = ⟨.all, none⟩) (hfound : found ∈ narrowed.selector?)
    (hadmits : GrantAdmits s found key) : HeldAdmits s (.selected grant selector) key := by
  cases grant with
  | work grant =>
    rw [materializeAll, if_neg (by simp [DraftReadGrant.scope])] at h
    simp only [except_pure_ok] at h
    split at h
    · cases h
    · cases h
      cases hfound
      obtain ⟨node, hnode, hselects⟩ := admitted_single.1 hadmits.2
      obtain ⟨⟨hkind, hrest⟩, hpaths⟩ := selects_iff.1 hselects
      simp only [List.mem_filter, decide_eq_true_eq] at hkind
      refine ⟨⟨grant, rfl, ScopedReadGrant.validated_iff.2 (validated_iff.1 hadmits.1).2.1,
        admitted_single.2 ⟨node, hnode, selects_iff.2 ⟨⟨hkind.1, hrest⟩, hpaths⟩⟩⟩,
        hkind.2, ?_, ?_⟩
      · rw [hselector]
        trivial
      · rw [hselector]
        simp
  | _ =>
    unfold materializeAll at h
    split at h
    · cases h
      cases hfound
    · cases h

lemma materializeNamed_admits (hexact : ExactCheck check)
    (h : materializeNamed check s grant selector = .ok (some narrowed))
    (hfound : found ∈ narrowed.selector?) (hadmits : GrantAdmits s found key) :
    HeldAdmits s (.selected grant selector) key := by
  cases grant with
  | work grant =>
    rw [materializeNamed, if_neg (by simp [DraftReadGrant.scope])] at h
    simp only [except_ok] at h
    obtain ⟨valid, hvalid, nodes, hnodes, selected, hselected, h⟩ := h
    split at h
    · cases h
    · rename_i hsome
      cases h
      cases hfound
      cases (validated_iff.1 hvalid).1
      obtain ⟨node, hnode, hselects⟩ := admitted_single.1 hadmits.2
      obtain ⟨⟨-, -, hids, -⟩, -⟩ := selects_iff.1 hselects
      have hkey : key ∈ selected :=
        mem_resources.1 (hids.resolve_left (by simpa using hsome))
      obtain ⟨hlisted, hallowed⟩ := mem_permitted hexact hselected hkey
      exact ⟨⟨grant, rfl, hvalid, mem_selectorNodes hnodes (by simp) key hlisted⟩, hallowed⟩
  | _ =>
    unfold materializeNamed at h
    split at h
    · simp only [except_ok] at h
      obtain ⟨_, -, _, -, h⟩ := h
      split at h <;> cases h
      cases hfound
    · cases h

/-- The view admits nothing that the held grants and their selectors do not admit. -/
lemma materialize_admits (hexact : ExactCheck check) {held : List HeldGrant}
    {view : List LocalGrant} (h : materialize check s held = .ok view)
    (hadmits : ViewAdmits s view key) : ∃ grant ∈ held, HeldAdmits s grant key := by
  simp only [materialize, except_ok] at h
  obtain ⟨found, hfound, rfl⟩ := h
  obtain ⟨narrowed, hmem, selector, hselector, hadmits⟩ := hadmits
  rw [List.reduceOption_mem_iff] at hmem
  obtain ⟨grant, hgrant, hone⟩ := mem_mapM hfound hmem
  refine ⟨grant, hgrant, ?_⟩
  cases grant with
  | plain grant =>
    cases hone
    obtain ⟨work, hwork, rfl⟩ := Option.map_eq_some_iff.1 hselector
    exact ⟨work, hwork, hadmits⟩
  | selected grant selector =>
    rw [materializeOne] at hone
    split at hone
    · rename_i hall
      exact materializeAll_admits hone hall hselector hadmits
    · exact materializeNamed_admits hexact hone hselector hadmits

end View

lemma mem_wrapPermission {roles : List (String × ResourceSelector)} {decoded : List DraftReadGrant}
    {held : List HeldGrant} (h : wrapPermission roles decoded = .ok held) {wrapped : HeldGrant}
    (hmem : wrapped ∈ held) :
    ∃ grant ∈ decoded, ∃ selector, wrapped = .selected grant selector := by
  unfold wrapPermission at h
  split at h
  · cases h
    obtain ⟨grant, hgrant, rfl⟩ := List.mem_map.1 hmem
    exact ⟨grant, hgrant, _, rfl⟩
  · cases h

section Encoded

variable {grant : ScopedReadGrant} {service : String}

def encodedMode (grant : ScopedReadGrant) : SelectionMode :=
  if grant.workIds ≠ [] ∧ grant.workIds.length ≤ 128 then
    .objects (grant.workIds.map splitResource)
  else if grant.resourcePaths ≠ [] then .descendants ⟨selectorRoots grant.resourcePaths, true⟩
  else .all

def encodedSelector (grant : ScopedReadGrant) (service : String) : ResourceSelector :=
  ⟨service, grant.workKinds.map Label.name, encodedMode grant, none⟩

lemma selectionMode_eq (hvalid : validateSelectors grant.workIds grant.arenaIds = .ok ()) :
    selectionMode grant.workIds grant.resourcePaths = .ok (encodedMode grant) := by
  have hrefs : grant.workIds.mapM referenceOf = .ok (grant.workIds.map splitResource) := by
    apply mapM_eq_map
    intro r hr
    simp only [referenceOf, except_bind_ok, raiseIf_eq_ok, not_not]
    exact ⟨(), slash_of_valid hvalid r hr, rfl⟩
  unfold selectionMode encodedMode
  split
  · rw [hrefs]
    rfl
  · split <;> rfl

lemma permissionV2_eq (hvalid : validateSelectors grant.workIds grant.arenaIds = .ok ()) :
    permissionV2 (.work grant) service = .ok [("target", encodedSelector grant service)] := by
  have hscope : (DraftReadGrant.work grant).scope ≠ "devgraph.arena.read" := by
    simp [DraftReadGrant.scope]
  have hkinds : grant.workKinds.map Label.name ≠ [] := by
    simpa using grant.workKinds_distinct.1
  simp only [permissionV2, if_neg hscope, except_bind_ok]
  exact ⟨(), raiseIf_eq_ok.2 hkinds, _, selectionMode_eq hvalid, rfl⟩

lemma encodedView_eq {check : SelectorCheck}
    (hvalid : validateSelectors grant.workIds grant.arenaIds = .ok ()) :
    encodedView check s grant service =
      (materializeOne check s (.selected (.work grant) (encodedSelector grant service))).map
        Option.toList := by
  rw [encodedView, permissionV2_eq hvalid]
  change materialize check s [.selected (.work grant) (encodedSelector grant service)] = _
  rw [materialize, List.mapM_cons, List.mapM_nil]
  cases materializeOne check s (.selected (.work grant) (encodedSelector grant service)) with
  | error e => rfl
  | ok found => cases found <;> rfl

lemma mem_selectorRoots {paths : List ResourcePath} {root : ResourceReference} :
    root ∈ selectorRoots paths ↔ ∃ p ∈ paths, keyReference (p.path.getLast p.nonempty) = root := by
  have hfold : ∀ roots : List ResourceReference,
      root ∈ paths.foldl (fun roots p =>
        let root := keyReference (p.path.getLast p.nonempty)
        if root ∈ roots then roots else roots ++ [root]) roots ↔
      root ∈ roots ∨ ∃ p ∈ paths, keyReference (p.path.getLast p.nonempty) = root := by
    induction paths with
    | nil => simp
    | cons p paths ih =>
      intro roots
      rw [List.foldl_cons, ih]
      simp only [List.mem_cons, exists_eq_or_imp]
      split
      · rename_i hmem
        constructor
        · exact Or.imp_right .inr
        · rintro (hroot | rfl | hlater)
          · exact .inl hroot
          · exact .inl hmem
          · exact .inr hlater
      · rw [List.mem_append, List.mem_singleton, or_assoc, eq_comm]
  rw [selectorRoots, hfold]
  simp

lemma validateWorkSelector_resource (hkind : key.1 ∈ canonicalWorkKinds)
    (hid : isWorkObjectId key.2 = true) : validateWorkSelector (resource key) = .ok () := by
  have hslash : '/' ∉ key.2.toList := fun hmem =>
    absurd ((workObjectId_chars hid).1 _ hmem) (by decide)
  have hcount : (resource key).toList.count '/' = 1 := by
    simp [resource, List.count_eq_zero_of_not_mem (slash_notMem_label key.1),
      List.count_eq_zero_of_not_mem hslash]
  simp only [validateWorkSelector, splitResource_resource, validateWorkObjectId, except_ok]
  refine ⟨(), not_not.2 hcount, (), ?_, by simp [hid]⟩
  simpa using ⟨key.1, hkind, rfl⟩

variable (hkinds : KindsStored s)

include hkinds

lemma stored_of_admitted (h : admitted s [grant.selector] key = .ok true) :
    key.1 ∈ grant.workKinds ∧ key.1 ∈ todoKinds ∧ isWorkObjectId key.2 = true ∧
      ∃ node, s.node? key = some node := by
  obtain ⟨node, hnode, hselects⟩ := admitted_single.1 h
  have hkind := (selects_iff.1 hselects).1.1
  have htodo := grant.workKinds_known _ hkind
  exact ⟨hkind, htodo, (hkinds _ _ hnode (List.mem_cons_of_mem _ htodo)).1, node, hnode⟩

/-- The listed items can be named in place of the ids of the grant. -/
lemma named_valid (hvalid : validateSelectors grant.workIds grant.arenaIds = .ok ())
    {nodes : List Key} (hnodup : nodes.Nodup)
    (hnodes : ∀ key ∈ nodes, admitted s [grant.selector] key = .ok true) :
    ({ grant.selector with workIds := nodes.map resource } : DelegatedWorkSelector).validated =
      .ok { grant.selector with workIds := nodes.map resource } := by
  have hresources : (nodes.map resource).map splitResource = nodes.map keyReference := by
    rw [List.map_map]
    exact List.map_congr_left fun key _ => splitResource_resource key
  have hselectors : validateSelectors (nodes.map resource) grant.arenaIds = .ok () := by
    simp only [validateSelectors, except_ok, not_or, not_not] at hvalid ⊢
    obtain ⟨_, -, _, harenas, -, hdistinct⟩ := hvalid
    refine ⟨(), forM_eq_ok ?_, (), harenas, ?_, hdistinct⟩
    · intro r hr
      obtain ⟨key, hkey, rfl⟩ := List.mem_map.1 hr
      obtain ⟨-, htodo, hid, -⟩ := stored_of_admitted hkinds (hnodes key hkey)
      exact validateWorkSelector_resource (todoKinds_canonical htodo) hid
    · rw [hresources]
      exact hnodup.map keyReference_injective
  exact validated_iff.2 ⟨rfl, hselectors, grant.paths_distinct, grant.workKinds_distinct.1,
    fun kind hkind => todoKinds_canonical (grant.workKinds_known kind hkind),
    grant.workKinds_distinct.2⟩

variable (hs : Placed s)

include hs

/-- An item within the paths of a grant is a last anchor or lies below one. -/
lemma descendant_allowed (hpaths : grant.resourcePaths ≠ [])
    (h : admitted s [grant.selector] key = .ok true) (hrows : snapshot s refs = .ok rows)
    (hkey : keyReference key ∈ refs) :
    hierarchyAllows rows ⟨selectorRoots grant.resourcePaths, true⟩ (keyReference key) = true := by
  obtain ⟨node, hnode, hselects⟩ := admitted_single.1 h
  obtain ⟨chain, hchain, p, hp, hsubset⟩ := (withinPaths_iff hpaths).1 (selects_iff.1 hselects).2
  have hanchor := hsubset (List.getLast_mem p.nonempty)
  have hroot : keyReference (p.path.getLast p.nonempty) ∈ selectorRoots grant.resourcePaths :=
    mem_selectorRoots.2 ⟨p, hp, rfl⟩
  have htodo := (stored_of_admitted hkinds h).2.1
  obtain ⟨root, arena, chain', hlineage⟩ := lineage_exists hs key
  rw [currentResourcePath_eq hs hkinds hlineage hnode htodo] at hchain
  cases hchain
  simp only [hierarchyAllows, Bool.or_eq_true, Bool.and_eq_true, List.any_eq_true,
    decide_eq_true_eq, true_and]
  by_cases hself : p.path.getLast p.nonempty = key
  · rw [hself] at hroot
    exact .inl hroot
  · refine .inr ⟨_, (mem_snapshot hrows).2
      ⟨_, hkey, snapshotRow_item hs hkinds hlineage hnode htodo⟩, rfl, _, ?_, hroot⟩
    exact List.mem_map_of_mem (List.mem_filter.2 ⟨hanchor, by simpa using hself⟩)

lemma encoded_allowed
    (hrows : snapshot s ((encodedSelector grant service).selection.roots ++ page.map keyReference) =
      .ok rows) (hkey : key ∈ page) (h : admitted s [grant.selector] key = .ok true) :
    selectorAllows (encodedSelector grant service) rows (keyReference key) = true := by
  obtain ⟨node, hnode, hselects⟩ := admitted_single.1 h
  obtain ⟨⟨hkind, -, hids, -⟩, -⟩ := selects_iff.1 hselects
  have hmode : (match encodedMode grant with
      | .all => true
      | .objects refs => decide (keyReference key ∈ refs)
      | .descendants hierarchy => hierarchyAllows rows hierarchy (keyReference key)) = true := by
    unfold encodedMode
    split_ifs with hnamed hpaths
    · exact decide_eq_true (hids.resolve_left hnamed.1)
    · exact descendant_allowed hkinds hs hpaths h hrows
        (List.mem_append_right _ (List.mem_map_of_mem hkey))
    · rfl
  have hname : (keyReference key).1 ∈ grant.workKinds.map Label.name := List.mem_map_of_mem hkind
  simp only [selectorAllows, encodedSelector, hname, decide_true, Bool.true_and, Option.all_none,
    Bool.and_true]
  exact hmode

/-- The roots of the encoded selector are anchors of the paths. -/
lemma encoded_snapshot
    (hpage : ∀ key ∈ page, admitted s [grant.selector] key = .ok true) :
    ∃ rows, snapshot s
      ((encodedSelector grant service).selection.roots ++ page.map keyReference) = .ok rows := by
  have hroots : ∀ root ∈ (encodedSelector grant service).selection.roots,
      root ∈ selectorRoots grant.resourcePaths := by
    intro root hroot
    simp only [encodedSelector, ResourceSelection.roots, ResourceSelection.hierarchy,
      encodedMode] at hroot
    split_ifs at hroot with hnamed hpaths
    · cases hroot
    · exact hroot
    · cases hroot
  apply snapshot_exists
  intro ref href
  obtain hroot | htarget := List.mem_append.1 href
  · obtain ⟨p, -, rfl⟩ := mem_selectorRoots.1 (hroots ref hroot)
    obtain ⟨hkind, hid⟩ := p.anchors _ (List.getLast_mem p.nonempty)
    exact snapshotRow_total hs hkinds hid
      ((show anchorKinds ⊆ Label.arena :: todoKinds by decide) hkind)
  · obtain ⟨key, hkey, rfl⟩ := List.mem_map.1 htarget
    obtain ⟨-, htodo, hid, -⟩ := stored_of_admitted hkinds (hpage key hkey)
    exact snapshotRow_total hs hkinds hid (List.mem_cons_of_mem _ htodo)

variable (hvalid : validateSelectors grant.workIds grant.arenaIds = .ok ())

include hvalid

lemma materializeNamed_complete {check : SelectorCheck} (hexact : ExactCheck check)
    (hcapacity : (s.nodes.keys.filter (admittedBy s grant.selector)).length ≤ 10000) :
    ∃ found, materializeNamed check s (.work grant) (encodedSelector grant service) = .ok found ∧
      ∀ key, admitted s [grant.selector] key = .ok true → ViewAdmits s found.toList key := by
  have hnode : ∀ key, key ∈ grant.workKinds.flatMap (listedKeys s grant.selector) ↔
      admitted s [grant.selector] key = .ok true := by
    intro key
    simp only [List.mem_flatMap, mem_listedKeys]
    exact ⟨fun ⟨_, _, _, h⟩ => h, fun h => ⟨key.1, (stored_of_admitted hkinds h).1, rfl, h⟩⟩
  have hnodup : (grant.workKinds.flatMap (listedKeys s grant.selector)).Nodup := by
    rw [List.nodup_flatMap]
    refine ⟨fun kind _ => listedKeys_nodup, grant.workKinds_distinct.2.imp ?_⟩
    intro a b hne key ha hb
    exact hne ((mem_listedKeys.1 ha).1.symm.trans (mem_listedKeys.1 hb).1)
  have hlength : (grant.workKinds.flatMap (listedKeys s grant.selector)).length ≤ 10000 := by
    refine le_trans (List.subperm_of_subset hnodup ?_).length_le hcapacity
    intro key hkey
    have hadmitted := (hnode key).1 hkey
    obtain ⟨-, -, -, node, hstored⟩ := stored_of_admitted hkinds hadmitted
    exact List.mem_filter.2
      ⟨AList.mem_keys.1 (AList.lookup_isSome.1 (Option.isSome_of_eq_some hstored)),
        admittedBy_iff.2 hadmitted⟩
  have hlisted := foldlM_selectorNodes hs hkinds grant.workKinds_known
    (show ([] : List Key).length + _ ≤ 10000 by rwa [List.length_nil, Nat.zero_add])
  rw [List.nil_append] at hlisted
  have hpermitted : permitted check s (encodedSelector grant service)
      (grant.workKinds.flatMap (listedKeys s grant.selector)) =
      .ok (grant.workKinds.flatMap (listedKeys s grant.selector)) := by
    apply permitted_eq hexact
    intro page hpage
    have hadmitted : ∀ key ∈ page, admitted s [grant.selector] key = .ok true :=
      fun key hkey => (hnode key).1 (hpage hkey)
    obtain ⟨rows, hrows⟩ := encoded_snapshot hkinds hs hadmitted
    exact ⟨rows, hrows, fun key hkey => encoded_allowed hkinds hs hrows hkey (hadmitted key hkey)⟩
  have hscope : (DraftReadGrant.work grant).scope ≠ "devgraph.arena.read" := by
    simp [DraftReadGrant.scope]
  simp only [materializeNamed, if_neg hscope, except_ok]
  refine ⟨_, ⟨_, ScopedReadGrant.validated_iff.2 hvalid, _, hlisted, _, hpermitted, rfl⟩, ?_⟩
  intro key hadmitted
  have hkey := (hnode key).2 hadmitted
  rw [if_neg (List.ne_nil_of_mem hkey)]
  refine ⟨_, List.mem_singleton_self _, _, rfl,
    named_valid hkinds hvalid hnodup fun key hkey => (hnode key).1 hkey, ?_⟩
  obtain ⟨node, hstored, hselects⟩ := admitted_single.1 hadmitted
  obtain ⟨⟨hkind, harchived, -, harenas⟩, hpaths⟩ := selects_iff.1 hselects
  exact admitted_single.2 ⟨node, hstored, selects_iff.2
    ⟨⟨hkind, harchived, .inr (mem_resources.2 hkey), harenas⟩, hpaths⟩⟩

/-- The view of an encoded grant exists and admits what the grant admits. -/
lemma encodedView_complete {check : SelectorCheck} (hexact : ExactCheck check)
    (hcapacity : (s.nodes.keys.filter (admittedBy s grant.selector)).length ≤ 10000) :
    ∃ view, encodedView check s grant service = .ok view ∧
      ∀ key, admitted s [grant.selector] key = .ok true → ViewAdmits s view key := by
  rw [encodedView_eq hvalid, materializeOne]
  split
  · have hkinds : grant.workKinds.filter
        (fun kind => kind.name ∈ (encodedSelector grant service).kinds) = grant.workKinds := by
      rw [List.filter_eq_self]
      intro kind hkind
      exact decide_eq_true (List.mem_map_of_mem hkind)
    rw [materializeAll, if_neg (by simp [DraftReadGrant.scope])]
    simp only [hkinds, if_neg grant.workKinds_distinct.1]
    refine ⟨_, rfl, fun key hadmitted => ⟨_, List.mem_singleton_self _, _, rfl, ?_⟩⟩
    exact ⟨ScopedReadGrant.validated_iff.2 hvalid, hadmitted⟩
  · obtain ⟨found, hfound, hadmits⟩ := materializeNamed_complete hkinds hs hvalid hexact hcapacity
    exact ⟨found.toList, by rw [hfound]; rfl, hadmits⟩

end Encoded

/-! ## Losslessness -/

/-- A grant that is encoded, wrapped and materialized admits what the grant admits, and a view is
made of every grant that is well formed. No selector makes a view admit more than its grant and the
selector. -/
theorem selector_encoding_lossless (check : SelectorCheck) (hexact : ExactCheck check) :
    (∀ (s : Store) (grant : ScopedReadGrant) (service : String), Placed s → WellFormed s →
      (s.nodes.keys.filter (admittedBy s grant.selector)).length ≤ 10000 →
      (grant.selector.validated = .ok grant.selector →
        ∃ view, encodedView check s grant service = .ok view) ∧
      ∀ key, (∃ view, encodedView check s grant service = .ok view ∧ ViewAdmits s view key) ↔
        GrantAdmits s grant.selector key) ∧
    ∀ (s : Store) (held : List HeldGrant) (view : List LocalGrant),
      materialize check s held = .ok view →
      ∀ key, ViewAdmits s view key → ∃ grant ∈ held, HeldAdmits s grant key := by
  refine ⟨?_, fun s held view h key hadmits => materialize_admits hexact h hadmits⟩
  intro s grant service hs hwell hcapacity
  have hcomplete : grant.selector.validated = .ok grant.selector →
      ∃ view, encodedView check s grant service = .ok view ∧
        ∀ key, admitted s [grant.selector] key = .ok true → ViewAdmits s view key := fun hvalid =>
    encodedView_complete hwell.kinds hs (ScopedReadGrant.validated_iff.1 hvalid) hexact hcapacity
  refine ⟨fun hvalid => (hcomplete hvalid).imp fun view h => h.1, fun key => ⟨?_, ?_⟩⟩
  · rintro ⟨view, hview, hadmits⟩
    simp only [encodedView, except_bind_ok] at hview
    obtain ⟨roles, hroles, held, hheld, hview⟩ := hview
    obtain ⟨wrapped, hmem, hgrant⟩ := materialize_admits hexact hview hadmits
    obtain ⟨_, hdecoded, selector, rfl⟩ := mem_wrapPermission hheld hmem
    rw [List.mem_singleton] at hdecoded
    obtain ⟨work, hwork, hadmits⟩ := hgrant.1
    rw [hdecoded] at hwork
    cases hwork
    exact hadmits
  · rintro ⟨hvalid, hadmitted⟩
    exact (hcomplete hvalid).imp fun view h => ⟨h.1, h.2 key hadmitted⟩

def exactCheck : SelectorCheck := fun selector targets rows =>
  .ok (targets.map (selectorAllows selector rows))

lemma no_ids_distinct : ([] : List String).Nodup ∧ "" ∉ ([] : List String) := by decide

/-- A grant on the Tasks and Initiatives below an Initiative. -/
def belowInitiative : ScopedReadGrant where
  operations := [.get]
  relationshipTypes := [.parent]
  workKinds := [.task, .initiative]
  workIds := []
  arenaIds := []
  includeArchived := false
  resourcePaths := [⟨[(.arena, "a"), (.initiative, "i")], by decide, by decide, by decide⟩]
  operations_distinct := by decide
  relationshipTypes_distinct := by decide
  workKinds_distinct := by decide
  workKinds_known := by decide
  workIds_distinct := no_ids_distinct
  arenaIds_distinct := no_ids_distinct
  paths_distinct := by decide

theorem selector_encoding_lossless_task :
    ∃ view, encodedView exactCheck taskStore belowInitiative "devgraph" = .ok view ∧
      ViewAdmits taskStore view (.task, "t") :=
  (((selector_encoding_lossless exactCheck fun _ _ _ => rfl).1 taskStore belowInitiative "devgraph"
    taskStore_placed taskStore_wellFormed (by decide +kernel)).2 (.task, "t")).2
    ⟨rfl, by decide +kernel⟩

end DevGraph.Proofs
