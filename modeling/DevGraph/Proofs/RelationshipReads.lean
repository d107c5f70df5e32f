import DevGraph.Lib.Paging
import DevGraph.Proofs.RecordStores
import DevGraph.Proofs.ReviewRecords
import DevGraph.Work.Relationships

/-!
# Relationship reads

The reader of relationships gives an item back as the repository does when the item has nothing of
what that reader leaves out.
-/

namespace DevGraph.Proofs

open Lib Work

variable {casts : Casts} {key : Key} {node : Node} {w : WorkObject}

/-- What every item looks like that was read over a relationship. -/
structure Bare (w : WorkObject) : Prop where
  kind : w.kind ∈ relationshipKinds
  archived : w.archived = false
  recordId : w.progressRecordId = none
  migration : w.progressMigrationJson = none
  progress : newProgress w.kind w.workflowJson = .ok w.progress

lemma workObjectFromNode_bare (h : workObjectFromNode casts key node = .ok w) : Bare w := by
  simp only [workObjectFromNode, except_ok, not_not] at h
  rcases h with ⟨_, hkind, createdAt, -, updatedAt, -, version, -, artifacts, -, links, -, priority,
    -, read, hread, progress, hprogress, _, -, h⟩
  obtain rfl := (postInit_ok.1 hread).1
  split at h
  · cases h
    exact ⟨hkind, rfl, rfl, rfl, hprogress⟩
  · split at h
    · obtain rfl := (postInit_ok.1 h).1
      exact ⟨hkind, rfl, rfl, rfl, hprogress⟩
    · cases h
  · cases h

variable {props : Props}

lemma eq_int_of_intOf {p : Property} {n : Int} (h : intOf props p = some n) :
    props p = some (.int n) := by
  unfold intOf at h
  split at h
  · cases h
    assumption
  · cases h

lemma eq_strs_of_strsOf {p : Property} {l : List String}
    (h : strsOf props p = some l) : props p = some (.strs l) := by
  unfold strsOf at h
  split at h
  · cases h
    assumption
  · cases h

lemma datetime_of_timestampOf {p : Property} {t : Datetime}
    (h : timestampOf props p = some t) : casts.datetime props p = .ok t := by
  unfold timestampOf at h
  split at h
  · rename_i text htext
    rw [Casts.datetime, htext]
    simp only [Casts.str, h]
    rfl
  · cases h

lemma status_of_statusOf {status : WorkStatus} (h : statusOf props = some status) :
    ∃ name, props .status = some (.str name) ∧ statusOfName name = some status := by
  unfold statusOf at h
  split at h
  · exact ⟨_, ‹_›, h⟩
  · cases h

lemma workObjectFromNode_of_bare (hread : fromNode key node = .ok w) (hbare : Bare w) :
    workObjectFromNode casts key node = .ok w := by
  have hbuild := (fromNode_ok hread).2.2
  unfold build at hbuild
  split at hbuild
  · rename_i htitle hdescription hstatus hcreated hupdated hversion hartifacts hlinks hpriority
    obtain ⟨rfl, hid, hversions, hpriorities, hartifactIds, hlinkIds, htodo⟩ :=
      postInit_ok.1 hbuild
    have harchived : node.archived = false := hbare.archived
    have hrecord : strOf node.properties .progressRecordId = none := hbare.recordId
    have hmigration : strOf node.properties .progressMigrationJson = none := hbare.migration
    obtain ⟨name, hname, hstatus⟩ := status_of_statusOf hstatus
    have htitle : node.properties .title = _ := eq_str_of_strOf htitle
    have hdescription : node.properties .description = _ := eq_str_of_strOf hdescription
    have hversion : node.properties .version = _ := eq_int_of_intOf hversion
    have hpriority : node.properties .priority = _ := eq_int_of_intOf hpriority
    have hartifacts : node.properties .artifactIds = _ := eq_strs_of_strsOf hartifacts
    have hlinks : node.properties .externalLinkIds = _ := eq_strs_of_strsOf hlinks
    have hcreated : casts.datetime node.properties .createdAt = _ :=
      datetime_of_timestampOf hcreated
    have hupdated : casts.datetime node.properties .updatedAt = _ :=
      datetime_of_timestampOf hupdated
    have hstored : node.properties .status = some (.str name) := hname
    simp only [workObjectFromNode, except_ok, not_not]
    refine ⟨(), hbare.kind, _, hcreated, _, hupdated, _, by rw [hversion]; rfl, _,
      by rw [hartifacts]; rfl, _, by rw [hlinks]; rfl, _, by rw [hpriority]; rfl, _,
      postInit_ok.2 ⟨rfl, hid, hversions, hpriorities, hartifactIds, hlinkIds, ?_⟩, _,
      hbare.progress, (), ?_, ?_⟩
    · unfold WorkObject.checkTodo
      split
      · rfl
      · rfl
    · exact htodo
    · simp only [hstored, hstatus]
      refine postInit_ok.2 ⟨?_, hid, hversions, hpriorities, hartifactIds, hlinkIds, htodo⟩
      rw [htitle, hdescription, harchived]
      exact congrArg₂ (fun id text => WorkObject.mk _ _ _ _ _ _ _ _ _ _ _ _ _ _ id text) hrecord
        hmigration
  · cases hbuild

/-- An item read over a relationship is the one that the repository reads, exactly if its kind is in
the table, it is not archived, no record and no migration is stored with its progress, and the
progress is the one that a new item with its workflow would have. -/
theorem relationship_reads (hread : fromNode key node = .ok w) :
    workObjectFromNode casts key node = .ok w ↔
      w.kind ∈ relationshipKinds ∧ w.archived = false ∧ w.progressRecordId = none ∧
        w.progressMigrationJson = none ∧ newProgress w.kind w.workflowJson = .ok w.progress := by
  constructor
  · intro h
    have hbare := workObjectFromNode_bare h
    exact ⟨hbare.kind, hbare.archived, hbare.recordId, hbare.migration, hbare.progress⟩
  · rintro ⟨hkind, harchived, hrecord, hmigration, hprogress⟩
    exact workObjectFromNode_of_bare hread ⟨hkind, harchived, hrecord, hmigration, hprogress⟩

def noCasts : Casts := ⟨fun _ => "", fun _ => .ok 0, fun _ => .ok []⟩

lemma newTask_valid : Valid (newObject .task "t" "Work" "" epoch epoch) :=
  newObject_valid (show Label.task ∈ canonicalWorkKinds by decide)
    (show isWorkObjectId "t" = true by decide)

theorem relationship_reads_new : workObjectFromNode noCasts (.task, "t")
    (newObject .task "t" "Work" "" epoch epoch).node =
      .ok (newObject .task "t" "Work" "" epoch epoch) :=
  (relationship_reads (fromNode_work newTask_valid)).2
    ⟨by decide, rfl, rfl, rfl, by decide +kernel⟩

/-- A Task that was completed, with the record of its completion. -/
def completedTask : WorkObject :=
  { newObject .task "t" "Work" "" epoch epoch with progressRecordId := some "r" }

theorem completed_task_differs :
    fromNode (.task, "t") completedTask.node = .ok completedTask ∧
      workObjectFromNode noCasts (.task, "t") completedTask.node ≠ .ok completedTask := by
  refine ⟨fromNode_work { newTask_valid with
    recordId := by decide
    progressed := ⟨newTask_valid.progressed.todo, newTask_valid.progressed.flow,
      fun h => absurd (by decide) h⟩ }, fun h => ?_⟩
  exact absurd (workObjectFromNode_bare h).recordId (Option.some_ne_none _)

/-! ## Pages -/

lemma lt_append_iff {p q : List Char} (hp : ¬ p <+: q) (hq : ¬ q <+: p) (u v : List Char) :
    p ++ u < q ++ v ↔ p < q := by
  induction p generalizing q with
  | nil => exact absurd List.nil_prefix hp
  | cons a p ih =>
    cases q with
    | nil => exact absurd List.nil_prefix hq
    | cons b q =>
      simp only [List.cons_append, List.cons_lt_cons_iff]
      by_cases hab : a = b
      · subst hab
        simp only [List.cons_prefix_cons, true_and] at hp hq
        rw [ih hp hq]
      · simp [hab]

lemma kind_not_start : ∀ a ∈ canonicalWorkKinds, ∀ b ∈ canonicalWorkKinds, a ≠ b →
    ¬ a.name.toList <+: b.name.toList := by
  decide +kernel

/-- No kind is the start of another one, so that pairs and texts are in one order. -/
lemma keyLe_iff {a b : Key} (ha : a.1 ∈ canonicalWorkKinds) (hb : b.1 ∈ canonicalWorkKinds) :
    keyLe a b ↔ ¬ resource b < resource a := by
  obtain ⟨a, x⟩ := a
  obtain ⟨b, y⟩ := b
  unfold keyLe resource
  simp only [String.lt_iff_toList_lt, String.toList_append, List.append_assoc]
  by_cases hab : a = b
  · subst hab
    have hsame : ∀ p : List Char, p ++ y.toList < p ++ x.toList ↔ y.toList < x.toList := by
      intro p
      induction p with
      | nil => rfl
      | cons c p ih => simp [ih]
    rw [← List.append_assoc, ← List.append_assoc, hsame]
    simp
  · have hba := kind_not_start b hb a ha (Ne.symm hab)
    have hne : a.name.toList ≠ b.name.toList := fun h => hba (h ▸ List.prefix_refl _)
    have hname : a.name ≠ b.name := fun h => hne (congrArg String.toList h)
    rw [lt_append_iff hba (kind_not_start a ha b hb hab), not_lt, lt_iff_le_and_ne]
    simp [hne, hname]

section Pages

variable {s : Store} {key : Key} {relationship : Relationship} {incoming : Bool}

lemma relatedWorkNodes_eq {limit : Nat} (hlimit : 1 ≤ limit ∧ limit ≤ 100)
    (hrelationship : relationship ∈ [Relationship.hasChild, .dependsOn, .blocks])
    (cursor : Option String) :
    relatedWorkNodes s key relationship incoming cursor limit =
      .ok (foundNodes s ((behind (· < ·) resource (relatedKeys s key relationship incoming).dedup
        cursor).take limit)) := by
  have hsort := List.map_insertionSort keyLe (fun a b => ¬ resource b < resource a) id
    ((relatedKeys s key relationship incoming).dedup.filter fun k =>
      cursor.all fun after => after < resource k) fun a ha b hb => keyLe_iff
        (of_decide_eq_true (List.mem_filter.1 (List.mem_dedup.1 (List.mem_filter.1 ha).1)).2)
        (of_decide_eq_true (List.mem_filter.1 (List.mem_dedup.1 (List.mem_filter.1 hb).1)).2)
  rw [List.map_id, List.map_id] at hsort
  simp only [relatedWorkNodes, except_ok]
  refine ⟨(), not_not.2 hlimit, (), not_not.2 hrelationship, ?_⟩
  rw [hsort]
  rfl

/-- The pages of the items that a relationship leads to are cut from one list in the order of the
texts: without a cursor a page is its start, behind any of its items it goes on with the next. -/
theorem related_pages (s : Store) (key : Key) (relationship : Relationship) (incoming : Bool) :
    ∃ rows : List Key, rows.Pairwise (fun a b => resource a < resource b) ∧
      (∀ k, k ∈ rows ↔ k.1 ∈ canonicalWorkKinds ∧ ∃ e ∈ s.edges, e.relationship = relationship ∧
        if incoming then e.source = k ∧ e.target = key else e.source = key ∧ e.target = k) ∧
      (∀ k ∈ rows, ∃ node, s.node? k = some node) ∧
      ∀ limit, 1 ≤ limit ∧ limit ≤ 100 →
        relationship ∈ [Relationship.hasChild, .dependsOn, .blocks] →
        relatedWorkNodes s key relationship incoming none limit =
          .ok (foundNodes s (rows.take limit)) ∧
        ∀ n last, rows[n]? = some last →
          relatedWorkNodes s key relationship incoming (some (resource last)) limit =
            .ok (foundNodes s ((rows.drop (n + 1)).take limit)) := by
  have hkeys : ((relatedKeys s key relationship incoming).dedup.map resource).Nodup :=
    (List.nodup_dedup _).map resource_injective
  have hmem : ∀ k,
      k ∈ behind (· < ·) resource (relatedKeys s key relationship incoming).dedup none ↔
      k.1 ∈ canonicalWorkKinds ∧ ∃ e ∈ s.edges, e.relationship = relationship ∧
        if incoming then e.source = k ∧ e.target = key else e.source = key ∧ e.target = k := by
    intro k
    rw [mem_behind, List.mem_dedup, relatedKeys]
    cases incoming <;> grind
  refine ⟨_, sorted_behind hkeys none, hmem, ?_, fun limit hlimit hrelationship => ?_⟩
  · intro k hk
    obtain ⟨-, e, he, -, hends⟩ := (hmem k).1 hk
    rw [← s.mem_nodes_iff]
    split_ifs at hends
    · exact hends.1 ▸ (s.endpoints e he).1
    · exact hends.2 ▸ (s.endpoints e he).2
  · refine ⟨relatedWorkNodes_eq hlimit hrelationship none, fun n last hlast => ?_⟩
    rw [relatedWorkNodes_eq hlimit hrelationship, behind_last hkeys (n := n + 1)]
    rw [List.getLast?_take, if_neg n.succ_ne_zero, Nat.add_sub_cancel, hlast]
    rfl

end Pages

end DevGraph.Proofs
