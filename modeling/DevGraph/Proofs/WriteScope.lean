import DevGraph.Proofs.RequestKeys
import DevGraph.Proofs.ResourcePaths

/-!
# Narrowed write scopes admit no more

A grant that the check of an assignment puts above another one contains every placement that the
lower one contains, so a witness of the lower assignment carries over. What a guard reads of a
store whose ids and Arena records are readable never raises.
-/

namespace DevGraph.Proofs

open Lib Work

variable {grant : ScopedWriteGrant}

variable {s : Store} {key : Key}

section Raises

def IsValueError (e : Error) : Prop := e.isValueError = true

lemma repositoryError_value {e : Error} (h : e.isRepositoryError = true) : IsValueError e := by
  obtain ⟨cls, message⟩ := e
  cases cls <;> first | rfl | exact absurd h (by simp [Error.isRepositoryError])

lemma fromNode_raises (node : Node) : RaisesOnly IsValueError (fromNode key node) := by
  refine .bind (.raiseIf rfl) fun _ _ => .bind (.raiseIf rfl) fun _ _ => ?_
  unfold readableOrRaise
  split
  · exact .ok _
  · split
    · rename_i hrepository
      refine .error ?_
      exact repositoryError_value hrepository
    · split <;> exact .error rfl

lemma containment_raises : RaisesOnly IsValueError (containment s key) := by
  refine .bind (.bind (.raiseIf rfl) fun _ _ => .bind (.raiseIf rfl) fun _ _ => .ok _) ?_
  intro found _
  cases found with
  | none => exact .error rfl
  | some item => exact .bind (fromNode_raises _) fun _ _ => .ok _

lemma directId_raises (item : WorkContainment) : RaisesOnly IsValueError (directId key item) :=
  .bind (.raiseIf rfl) fun _ _ => .bind (.raiseIf rfl) fun _ _ => .ok _

lemma ascend_raises : RaisesOnly IsValueError (ascend s key) := by
  refine .bind containment_raises fun item _ => .bind (.raiseIf rfl) fun _ _ =>
    .bind (directId_raises _) fun arenaId _ => ?_
  split
  · exact .ok _
  · exact .bind (.raiseIf rfl) fun _ _ => .ok _

lemma climb_raises (visited : List Key) (current : Key) :
    RaisesOnly IsValueError (climb s visited current) := by
  fun_induction climb s visited current with
  | case1 => exact .error rfl
  | case2 visited current hnew e herror => exact .error (ascend_raises e herror)
  | case3 => exact .ok _
  | case4 visited current hnew parent hparent ih => exact ih

end Raises

/-- The ids of a store are valid and the records of its Arenas readable. -/
structure Legible (s : Store) : Prop where
  ids : ∀ key node, s.node? key = some node → isWorkObjectId key.2 = true
  arenas : ∀ id node, s.node? (.arena, id) = some node → ∃ a, Arena.fromNode id node = .ok a

section Legible

variable (hs : Legible s)

include hs

lemma getArena_raises (id : String) : RaisesOnly IsValueError (getArena s id) := by
  refine .bind (.raiseIf rfl) fun _ _ => .bind (.bind (.raiseIf rfl) fun _ _ => .ok _) ?_
  intro found hfound
  cases found with
  | none => exact .error rfl
  | some node =>
    have hnode : s.node? (.arena, id) = some node := by
      simp only [getNode, except_ok] at hfound
      obtain ⟨_, -, hfound⟩ := hfound
      exact hfound
    obtain ⟨a, ha⟩ := hs.arenas id node hnode
    intro e he
    simp only [ha] at he
    cases he

lemma membership_raises : RaisesOnly IsValueError (membership s key) := by
  refine .bind (.raiseIf rfl) fun _ _ => .bind (climb_raises _ _) fun _ _ => .bind ?_ fun _ _ =>
    .bind (.raiseIf rfl) fun _ _ => .ok _
  unfold optionalArena
  split
  · exact .ok _
  · exact .map (getArena_raises hs _)

lemma resourceArena_raises : RaisesOnly IsValueError (resourceArena s key) := by
  unfold resourceArena
  split
  · exact .map (getArena_raises hs _)
  · split
    · exact .map (membership_raises hs)
    · exact .ok _

lemma scopedArena_total (key : Key) : ∃ arena, scopedArena s key = .ok arena := by
  unfold scopedArena
  cases hfound : resourceArena s key with
  | ok arena => exact ⟨arena, rfl⟩
  | error e =>
    have hvalue : e.isValueError = true := resourceArena_raises hs e hfound
    exact ⟨none, if_pos hvalue⟩

lemma ancestors_total (n : Nat) {below : List Key} (hkey : key.1 ∈ todoKinds)
    (hid : isWorkObjectId key.2 = true) :
    ∃ chain, ancestors (memoryStorage s) n below key = .ok chain := by
  induction n generalizing key below with
  | zero => exact ⟨none, rfl⟩
  | succ n ih =>
    rw [ancestors]
    split
    · exact ⟨none, rfl⟩
    · have hread : workContainment s key = .ok ((s.node? key).map fun node =>
          ⟨node, (incoming s .hasChild key).take 2, (incoming s .containsWork key).take 2⟩) := by
        simp only [workContainment, except_ok, validateWorkObjectId, exists_const]
        exact ⟨not_not.2 (todoKinds_canonical hkey), by simp [hid], trivial⟩
      have hedge : ∀ r, ∀ e ∈ (incoming s r key).take 2, isWorkObjectId e.source.2 = true := by
        intro r e he
        have hmem : e ∈ s.edges := List.mem_of_mem_filter (List.mem_of_mem_take he)
        obtain ⟨node, hnode⟩ := (node_of_edge hmem).1
        exact hs.ids _ _ hnode
      change ∃ chain, (workContainment s key >>= _) = .ok chain
      rw [hread]
      cases s.node? key with
      | none => exact ⟨none, rfl⟩
      | some node =>
        change ∃ chain, (if plainItem key _ = false then _ else _) = Except.ok chain
        split
        · exact ⟨none, rfl⟩
        · cases hup : (incoming s .hasChild key).take 2 with
          | cons e rest =>
            change ∃ chain, (if plainParent key _ e = true then _ else _) = Except.ok chain
            split
            · rename_i hparent
              simp only [plainParent, Bool.and_eq_true, decide_eq_true_eq] at hparent
              exact ih (level_lt_of_parent hparent.2).2
                (hedge .hasChild e (by rw [hup]; exact List.mem_cons_self))
            · exact ⟨none, rfl⟩
          | nil =>
            cases hmem : (incoming s .containsWork key).take 2 with
            | nil => exact ⟨_, rfl⟩
            | cons e rest =>
              have hget : getNode s (.arena, e.source.2) = .ok (s.node? (.arena, e.source.2)) :=
                getNode_eq (hedge .containsWork e (by rw [hmem]; exact List.mem_cons_self))
              change ∃ chain, (getNode s (.arena, e.source.2) >>= _) = .ok chain
              rw [hget]
              exact ⟨_, rfl⟩

lemma withinPaths_total (hid : Named key)
    (paths : List ResourcePath) : ∃ found, withinPaths (memoryStorage s) key paths = .ok found := by
  unfold withinPaths
  split
  · exact ⟨true, rfl⟩
  · unfold currentResourcePath
    split
    · exact ⟨_, rfl⟩
    · rename_i hkey
      obtain ⟨chain, hchain⟩ := ancestors_total hs 4 (not_not.1 hkey) (hid (not_not.1 hkey))
      rw [hchain]
      exact ⟨_, rfl⟩

lemma inside_total (hid : Named key)
    (grant : ScopedWriteGrant) : ∃ found, inside s key grant = .ok found := by
  obtain ⟨within, hwithin⟩ := withinPaths_total hs hid grant.resourcePaths
  obtain ⟨arena, harena⟩ := scopedArena_total hs key
  unfold inside
  rw [hwithin]
  cases within with
  | false => exact ⟨false, rfl⟩
  | true =>
    cases grant.arenaIds with
    | none => exact ⟨true, rfl⟩
    | some ids =>
      change ∃ found, (scopedArena s key >>= _) = .ok found
      rw [harena]
      exact ⟨_, rfl⟩

end Legible

/-- The placement of a resource lies in the paths and in the Arenas of a grant. -/
structure Contained (s : Store) (grant : ScopedWriteGrant) (key : Key) : Prop where
  paths : withinPaths (memoryStorage s) key grant.resourcePaths = .ok true
  arenas : ∀ ids ∈ grant.arenaIds, ∃ id ∈ ids, scopedArena s key = .ok (some id)

lemma inside_iff :
    inside s key grant = .ok true ↔ Contained s grant key := by
  constructor
  · intro h
    simp only [inside, except_bind_ok] at h
    obtain ⟨within, hwithin, h⟩ := h
    split at h
    · cases h
    · rename_i hyes
      rw [Bool.not_eq_false] at hyes
      subst hyes
      refine ⟨hwithin, ?_⟩
      intro ids hids
      rw [Option.mem_def] at hids
      simp only [hids, except_ok] at h
      obtain ⟨arena, harena, hany⟩ := h
      cases arena with
      | none => cases hany
      | some id => exact ⟨id, by simpa using hany, harena⟩
  · rintro ⟨hpaths, harenas⟩
    rw [inside, hpaths]
    cases hids : grant.arenaIds with
    | none => rfl
    | some ids =>
      obtain ⟨id, hid, harena⟩ := harenas ids hids
      change (scopedArena s key >>= _) = _
      rw [harena]
      simp [bind, Except.bind, pure, Except.pure, hid]

lemma Contained.above {p : ScopedWriteGrant} (hp : p.above grant = true)
    (h : Contained s grant key) : Contained s p key := by
  simp only [ScopedWriteGrant.above, Bool.and_eq_true, decide_eq_true_eq] at hp
  obtain ⟨⟨-, hpaths⟩, harenas⟩ := hp
  refine ⟨withinPaths_mono hpaths h.paths, ?_⟩
  intro allowed hallowed
  rw [Option.mem_def] at hallowed
  rw [hallowed, Option.all_some, Option.any_eq_true] at harenas
  obtain ⟨ids, hids, hsubset⟩ := harenas
  obtain ⟨id, hid, harena⟩ := h.arenas ids hids
  exact ⟨id, of_decide_eq_true hsubset hid, harena⟩

lemma WriteResource.names_of_containedBy {r allowed : WriteResource}
    (h : r.containedBy allowed = true) (hnames : r.names key = true) :
    allowed.names key = true := by
  simp only [WriteResource.containedBy, Bool.and_eq_true, decide_eq_true_eq] at h
  simp only [WriteResource.names, Bool.and_eq_true, decide_eq_true_eq] at hnames ⊢
  refine ⟨h.1.symm.trans hnames.1, ?_⟩
  cases hallowed : allowed.ids with
  | none => rfl
  | some all =>
    rw [hallowed, Option.all_some, Option.any_eq_true] at h
    obtain ⟨ids, hids, hsubset⟩ := h.2
    rw [hids, Option.all_some, decide_eq_true_eq] at hnames
    rw [Option.all_some, decide_eq_true_eq]
    exact of_decide_eq_true hsubset hnames.2

lemma amplifies_iff {ceiling : List ScopedWriteGrant} :
    amplifies grant ceiling = false ↔ ∀ r ∈ grant.resources, ∃ p ∈ ceiling,
      p.above grant = true ∧ ∃ allowed ∈ p.resources, r.containedBy allowed = true := by
  simp [amplifies]

/-- A resource of a grant that does not amplify a ceiling stands under a grant of the ceiling. -/
lemma exists_above {ceiling : List ScopedWriteGrant}
    (h : amplifies grant ceiling = false) (hnames : grant.names key = true) :
    ∃ p ∈ ceiling, p.above grant = true ∧ p.names key = true := by
  obtain ⟨r, hr, hkey⟩ := List.any_eq_true.1 hnames
  obtain ⟨p, hp, habove, allowed, hallowed, hcontained⟩ := amplifies_iff.1 h r hr
  exact ⟨p, hp, habove, List.any_eq_true.2
    ⟨allowed, hallowed, WriteResource.names_of_containedBy hcontained hkey⟩⟩

/-! ## The guard -/

/-- One grant of the operation names the resource and contains it before and after. -/
def Covers (a : WriteScopeAssignment) (operation : String) (before after : Store) (key : Key) :
    Prop :=
  ∃ grant ∈ a.grants, grant.operation = operation ∧ grant.names key = true ∧
    Contained before grant key ∧ Contained after grant key

section Guard

variable {a : WriteScopeAssignment} {operation : String} {before after : Store}

lemma mem_candidates {key : Key} {found : List ScopedWriteGrant}
    (h : ResourceScopeGuard.candidates a operation before key = .ok found) :
    grant ∈ found ↔ grant ∈ a.grants ∧ grant.operation = operation ∧ grant.names key = true ∧
      Contained before grant key := by
  rw [ResourceScopeGuard.candidates] at h
  rw [mem_filterM h, List.mem_filter, Bool.and_eq_true, decide_eq_true_eq, inside_iff, and_assoc,
    and_assoc]

lemma covers_of_witness {resource : String} {w : Witness}
    (h : ResourceScopeGuard.witness a operation before resource = .ok w)
    (hafter : ScopedMutation.checkWitness after w = .ok ()) :
    ∃ key, resourceKey resource = some key ∧ Covers a operation before after key := by
  unfold ResourceScopeGuard.witness at h
  cases hkey : resourceKey resource with
  | none =>
    rw [hkey] at h
    cases h
  | some key =>
    simp only [hkey, except_ok, mapError_ok] at h
    obtain ⟨found, hfound, _, -, rfl⟩ := h
    simp only [ScopedMutation.checkWitness, except_ok, mapError_ok, Bool.not_eq_false] at hafter
    obtain ⟨_, hany, rfl⟩ := hafter
    obtain ⟨grant, hgrant, hinside⟩ := anyM_ok hany
    obtain ⟨hmem, hoperation, hnames, hbefore⟩ := (mem_candidates hfound).1 hgrant
    exact ⟨key, rfl, grant, hmem, hoperation, hnames, hbefore, inside_iff.1 hinside⟩

lemma witness_of_covers (hbefore : Legible before) (hafter : Legible after) {resource : String}
    {key : Key} (hkey : resourceKey resource = some key)
    (hid : Named key)
    (h : Covers a operation before after key) :
    ∃ w, ResourceScopeGuard.witness a operation before resource = .ok w ∧
      ScopedMutation.checkWitness after w = .ok () := by
  obtain ⟨grant, hmem, hoperation, hnames, hin, hout⟩ := h
  rcases filterM_exists (f := inside before key) (l := a.grants.filter fun grant =>
    grant.operation = operation && grant.names key) fun grant _ => inside_total hbefore hid grant
    with ⟨found, hfound⟩
  have hgrant : grant ∈ found := (mem_candidates hfound).2 ⟨hmem, hoperation, hnames, hin⟩
  have hany : found.anyM (inside after key) = .ok true :=
    anyM_of_mem (fun grant _ => inside_total hafter hid grant) hgrant (inside_iff.2 hout)
  refine ⟨⟨key, found⟩, ?_, ?_⟩
  · simp only [ResourceScopeGuard.witness, hkey, except_ok, mapError_ok, exists_const]
    exact ⟨found, hfound, by simpa using List.ne_nil_of_mem hgrant, rfl⟩
  · simp only [ScopedMutation.checkWitness, except_ok, mapError_ok]
    exact ⟨true, hany, by simp⟩

end Guard

lemma covers_of_prepare {a : WriteScopeAssignment} {operation : String} {before after : Store}
    {resources : List String} {witnesses : List Witness}
    (hprepare : ResourceScopeGuard.prepare a operation before resources = .ok witnesses)
    (hafter : ScopedMutation.checkAfter after witnesses = .ok ()) :
    ∀ text ∈ resources, ∃ key, resourceKey text = some key ∧
      Covers a operation before after key := by
  intro text htext
  obtain ⟨w, hw, hwitness⟩ := mapM_of_mem hprepare htext
  exact covers_of_witness hwitness (forM_ok hafter w hw)

lemma prepare_of_covers {a : WriteScopeAssignment} {operation : String} {before after : Store}
    (hbefore : Legible before) (hafter : Legible after) {resources : List String}
    (h : ∀ text ∈ resources, ∃ key, resourceKey text = some key ∧ Named key ∧
      Covers a operation before after key) :
    ∃ witnesses, ResourceScopeGuard.prepare a operation before resources = .ok witnesses ∧
      ScopedMutation.checkAfter after witnesses = .ok () := by
  have hwitness : ∀ text ∈ resources, ∃ w,
      ResourceScopeGuard.witness a operation before text = .ok w ∧
        ScopedMutation.checkWitness after w = .ok () := by
    intro text htext
    obtain ⟨key, hkey, hnamed, hcovers⟩ := h text htext
    exact witness_of_covers hbefore hafter hkey hnamed hcovers
  rcases mapM_exists fun text htext => (hwitness text htext).imp fun _ => And.left with
    ⟨witnesses, hprepare⟩
  refine ⟨witnesses, hprepare, forM_eq_ok ?_⟩
  intro w hw
  obtain ⟨text, htext, hread⟩ := mem_mapM hprepare hw
  obtain ⟨w', hread', hcheck⟩ := hwitness text htext
  rw [hread] at hread'
  cases hread'
  exact hcheck

lemma requireWriteScopeSubset_ok {child parent : WriteScopeAssignment}
    (h : requireWriteScopeSubset child parent = .ok ()) :
    child.validity.containedBy parent.validity = true ∧
      ∀ grant ∈ child.grants, amplifies grant parent.grants = false := by
  simp only [requireWriteScopeSubset, except_ok, exists_const, not_or, Bool.not_eq_false] at h
  refine ⟨h.1.2, ?_⟩
  intro grant hgrant
  rw [Bool.eq_false_iff]
  intro hamplifies
  exact h.2 (List.any_eq_true.2 ⟨grant, hgrant, hamplifies⟩)

lemma Covers.parent {child parent : WriteScopeAssignment} {operation : String}
    {before after : Store} {key : Key}
    (hgrants : ∀ grant ∈ child.grants, amplifies grant parent.grants = false)
    (h : Covers child operation before after key) : Covers parent operation before after key := by
  obtain ⟨grant, hgrant, hoperation, hnames, hbefore, hafter⟩ := h
  obtain ⟨p, hp, habove, hkey⟩ := exists_above (hgrants grant hgrant) hnames
  refine ⟨p, hp, ?_, hkey, hbefore.above habove, hafter.above habove⟩
  simp only [ScopedWriteGrant.above, Bool.and_eq_true, decide_eq_true_eq] at habove
  exact habove.1.1.trans hoperation

def Inside (v : GrantValidity) (t : Nat) : Prop := v.notBefore ≤ t ∧ ∀ last ∈ v.notAfter, t < last

lemma Inside.mono {v parent : GrantValidity} {t : Nat} (h : v.containedBy parent = true)
    (ht : Inside v t) :
    Inside parent t := by
  simp only [GrantValidity.containedBy, Bool.and_eq_true, decide_eq_true_eq] at h
  refine ⟨h.1.trans ht.1, ?_⟩
  intro last hlast
  rw [Option.mem_def] at hlast
  rw [hlast, Option.all_some, Option.any_eq_true] at h
  obtain ⟨own, hown, hle⟩ := h.2
  exact (ht.2 own hown).trans_le (of_decide_eq_true hle)

lemma contains_iff {v : GrantValidity} {t : Nat} :
    v.contains t = .ok true ↔ t ≤ maxSafe ∧ Inside v t := by
  simp only [GrantValidity.contains, except_ok, exists_const, Bool.and_eq_true,
    decide_eq_true_eq, not_lt, Option.all_eq_true]
  exact Iff.rfl

lemma contains_of_containedBy {v parent : GrantValidity} {now : Nat}
    (h : v.containedBy parent = true) (hnow : v.contains now = .ok true) :
    parent.contains now = .ok true := by
  rw [contains_iff] at hnow ⊢
  exact ⟨hnow.1, hnow.2.mono h⟩

/-- What a narrowed assignment admits, the assignment above it admits. Whatever passes the guard
stands under one grant that contains it before and after. -/
theorem writeScope_attenuates (sha256 : String → String) :
    (∀ child parent, requireWriteScopeSubset child parent = .ok () →
      ∀ now before after, Legible before → Legible after →
      ∀ (event : Event) (r : Request), event.request sha256 = .ok r →
        ResourceScopeGuard.Admits child now before after r →
          ResourceScopeGuard.Admits parent now before after r) ∧
    ∀ a operation before after resources witnesses,
      ResourceScopeGuard.prepare a operation before resources = .ok witnesses →
      ScopedMutation.checkAfter after witnesses = .ok () →
      ∀ text ∈ resources, ∃ key, resourceKey text = some key ∧
        Covers a operation before after key := by
  refine ⟨?_, fun a operation before after resources witnesses => covers_of_prepare⟩
  rintro child parent hsubset now before after hbefore hafter event r hr ⟨hnow, witnesses, hprepare,
    hcheck⟩
  obtain ⟨hvalidity, hgrants⟩ := requireWriteScopeSubset_ok hsubset
  refine ⟨contains_of_containedBy hvalidity hnow, prepare_of_covers hbefore hafter ?_⟩
  intro text htext
  obtain ⟨key, hkey, hnamed⟩ := request_named sha256 hr text htext
  obtain ⟨key', hkey', hcovers⟩ := covers_of_prepare hprepare hcheck text htext
  rw [hkey] at hkey'
  cases hkey'
  exact ⟨key, hkey, hnamed, hcovers.parent hgrants⟩

def archiveFields : List (String × Json) :=
  [("expected_version", .int 1), ("id", .str "a"), ("kind", .str "Arena"),
    ("operation", .str "archive"), ("payload", .obj []),
    ("schema", .str "devgraph.arena-request.v1")]

def archiveEvent : Event := .arena (canonicalJson (.obj archiveFields)) fun _ => epoch

def archiveRequest : Request :=
  .arena (ArenaEnvelope.request ⟨.archive, .arena, "a", some 1, .null⟩ .archive)

lemma archiveEvent_request : archiveEvent.request id = .ok archiveRequest := by
  have hcanonical : (Json.obj archiveFields).Canonical SafeInt := by
    simp only [archiveFields, Json.Canonical, FieldsCanonical, true_and, and_true, List.map_cons,
      List.map_nil]
    exact ⟨⟨rfl, .nil⟩, by decide⟩
  have hread := strictJsonObject_canonicalJson hcanonical rfl
    (show (canonicalJson (.obj archiveFields)).size ≤ 131072 by decide +kernel)
  have hsome : ArenaRequest.fromJson? (canonicalJson (.obj archiveFields)) =
      some (ArenaEnvelope.request ⟨.archive, .arena, "a", some 1, .null⟩ .archive) := by
    simp only [ArenaRequest.fromJson?, Option.bind_eq_bind, Option.bind_eq_some_iff,
      ensure_eq_some]
    exact ⟨_, hread, _, rfl, _, ⟨rfl, rfl⟩, _, rfl, _, ⟨rfl, rfl⟩, by decide +kernel, rfl⟩
  rw [archiveEvent, Event.request, ArenaRequest.fromJson, hsome]
  rfl

def archiveGrant (arenaIds : Option (List String))
    (harenas : ∀ selected ∈ arenaIds, selected ≠ [] ∧ selected.length ≤ 256 ∧ selected.Nodup ∧
      ∀ id ∈ selected, isWorkObjectId id = true) : ScopedWriteGrant where
  operation := "devgraph.arena.archive.v1"
  resources := [⟨.arena, none, by decide, by simp⟩]
  arenaIds := arenaIds
  resourcePaths := []
  supported := by decide
  resources_distinct := by simp
  arenas_valid := harenas
  eligible := by simp
  paths_distinct := by simp
  path_resources := by simp

def anyArena : ScopedWriteGrant := archiveGrant none (by simp)

def oneArena : ScopedWriteGrant := archiveGrant (some ["a"]) (by simp; decide)

def archiveAssignment (grants : List ScopedWriteGrant)
    (hgrants : grants ≠ [] ∧ grants.length ≤ 64 ∧ grants.Nodup) : WriteScopeAssignment where
  actorId := "pubkey:sha256:0000000000000000000000000000000000000000000000000000000000000000"
  notBefore := 0
  notAfter := 10
  grants := grants
  actor_valid := by decide
  interval := by decide
  grants_distinct := hgrants

lemma taskStore_legible : Legible taskStore where
  ids := by
    intro key node hnode
    have hmem : key ∈ [(Label.arena, "a"), (.initiative, "i"), (.task, "t")] := by
      by_contra hnot
      rw [taskStore, chainStore, node?_recordStore, if_neg hnot] at hnode
      cases hnode
    clear hnode
    revert key
    decide
  arenas := taskStore_wellFormed.arena

lemma oneArena_contained : Contained taskStore oneArena (.arena, "a") where
  paths := rfl
  arenas := by
    intro ids hids
    cases hids
    have hnode : taskStore.node? (.arena, "a") = some (recordNode (.arena, "a")) :=
      node?_chainStore (by decide)
    have hget : getArena taskStore "a" = .ok (recordArena "a") := by
      simp only [getArena, validateWorkObjectId, except_ok, exists_const]
      exact ⟨by decide, _, (getNode_eq (by decide)).trans (congrArg _ hnode),
        recordArena_fromNode (by decide)⟩
    refine ⟨"a", List.mem_singleton_self _, ?_⟩
    rw [scopedArena, resourceArena, if_pos rfl, hget]
    rfl

theorem writeScope_attenuates_archive :
    ResourceScopeGuard.Admits (archiveAssignment [anyArena] (by simp)) 5 taskStore taskStore
      archiveRequest := by
  refine (writeScope_attenuates id).1 (archiveAssignment [oneArena] (by simp)) _ rfl 5 taskStore
    taskStore taskStore_legible taskStore_legible archiveEvent archiveRequest archiveEvent_request
    ⟨rfl, prepare_of_covers taskStore_legible taskStore_legible ?_⟩
  intro text htext
  rw [show archiveRequest.resources = ["Arena/a"] from rfl, List.mem_singleton] at htext
  subst htext
  exact ⟨(.arena, "a"), rfl, named_record (by decide) _, oneArena, List.mem_singleton_self _, rfl,
    rfl, oneArena_contained, oneArena_contained⟩

/-- The record of the Arena is not readable, and only the wider assignment has a grant for which
it is read. -/
theorem writeScope_unreadable :
    requireWriteScopeSubset (archiveAssignment [anyArena] (by simp))
        (archiveAssignment [anyArena, oneArena] (by decide)) = .ok () ∧
      archiveEvent.request id = .ok archiveRequest ∧
      ResourceScopeGuard.Admits (archiveAssignment [anyArena] (by simp)) 5 brokenArena brokenArena
        archiveRequest ∧
      ¬ ResourceScopeGuard.Admits (archiveAssignment [anyArena, oneArena] (by decide)) 5
        brokenArena brokenArena archiveRequest := by
  refine ⟨rfl, archiveEvent_request, ⟨rfl, _, rfl, rfl⟩, ?_⟩
  rintro ⟨-, witnesses, hprepare, -⟩
  cases hprepare

end DevGraph.Proofs
