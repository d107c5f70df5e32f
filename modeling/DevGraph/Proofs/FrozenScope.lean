import DevGraph.Proofs.Hierarchy

/-!
# Work that is archived or done

Over every run, archived Work changes by being restored only, and Work that is done keeps the scope
that its evidence rests on, whether a change is requested on the item, its parent, its child, its
Arena or an item that it is ordered against.
-/

namespace DevGraph.Proofs

open Lib Work

variable {e : EdgeRecord}

variable {sha256 : String → String} {s s' : Store}

def scopeRelations : List Relationship := [.hasChild, .dependsOn, .blocks]

def Incident (key : Key) (e : EdgeRecord) : Prop := e.source = key ∨ e.target = key

/-- Scope edges change only at items that are neither archived nor done. -/
lemma Reshape.scope {key : Key} (h : Reshape s s') (hkey : ¬ Unfinished s key)
    (hincident : Incident key e) (hrelation : e.relationship ∈ scopeRelations) :
    e ∈ s'.edges ↔ e ∈ s.edges := by
  have hstructural : e.relationship ∈ structural ∧ e.relationship ≠ .containsWork := by
    revert hrelation
    cases e.relationship <;> decide
  cases h with
  | calm hsame => exact hsame _ hstructural.1 e rfl
  | decided e' hdecides =>
    apply hdecides.unchanged hstructural.1 _ e rfl
    intro heq
    apply hdecides.relation_ne
    rw [heq]
    revert hrelation
    cases e.relationship <;> decide
  | parent child parent _ hchild hprevious hnext hedges _ hothers =>
    by_cases hparent : e.relationship = .hasChild
    · have hne : e.target ≠ child ∨ e ∉ s.edges := by
        by_contra hboth
        rw [not_or, not_not, not_not] at hboth
        obtain rfl | rfl := hincident
        · exact hkey (hprevious e hboth.2 hparent hboth.1)
        · exact hkey (hboth.1 ▸ hchild)
      have hnew : ¬ ∃ p ∈ parent, e = childEdge p child := by
        rintro ⟨p, hp, rfl⟩
        obtain rfl | rfl := hincident
        · exact hkey (hnext _ hp)
        · exact hkey hchild
      rw [hedges e hparent, or_iff_left hnew]
      exact ⟨And.left, fun he => ⟨he, hne.resolve_right (not_not.2 he)⟩⟩
    · exact hothers _ hstructural.1 hparent hstructural.2 e rfl
  | member _ _ _ _ _ _ hothers => exact hothers _ hstructural.1 hstructural.2 e rfl
  | order r source target hsource htarget _ hothers =>
    apply hothers
    rintro ⟨rfl, -, rfl⟩
    obtain rfl | rfl := hincident
    · exact hkey hsource
    · exact hkey htarget

/-- The Arena of an item changes only while the item is not archived. -/
lemma Reshape.arena {key : Key} (hs : Placed s) (hs' : Placed s')
    (h : Reshape s s') (hkey : ¬ Active s key) (hkind : key.1 ≠ .arena)
    (hincident : Incident key e) (hrelation : e.relationship = .containsWork) :
    e ∈ s'.edges ↔ e ∈ s.edges := by
  -- An edge of this relationship comes from an Arena, so that it leads to the key.
  have hinto : e ∈ s'.edges ∨ e ∈ s.edges → e.target = key := by
    intro hmem
    refine hincident.resolve_left fun hsource => hkind ?_
    rw [← hsource]
    exact hmem.elim (fun he => (hs'.arena_kind e he hrelation).1)
      fun he => (hs.arena_kind e he hrelation).1
  have hiff : (e.target = key → (e ∈ s'.edges ↔ e ∈ s.edges)) → (e ∈ s'.edges ↔ e ∈ s.edges) := by
    intro hsame
    exact ⟨fun he => (hsame (hinto (.inl he))).1 he, fun he => (hsame (hinto (.inr he))).2 he⟩
  apply hiff
  intro htarget
  cases h with
  | calm hsame => exact hsame _ (hrelation ▸ by decide) e rfl
  | decided e' hdecides =>
    apply hdecides.unchanged (by decide) _ e hrelation
    intro heq
    apply hdecides.relation_ne
    rw [heq]
    decide
  | parent child _ _ hchild _ _ _ hcontains =>
    have hne : e.target ≠ child := by
      rintro rfl
      exact hkey (htarget ▸ hchild.active)
    rw [hcontains e hrelation, and_iff_left hne]
  | member key' arena _ hactive _ hcontains =>
    have hne : e.target ≠ key' := by
      rintro rfl
      exact hkey (htarget ▸ hactive)
    rw [hcontains e hrelation, and_iff_left hne]
    apply or_iff_left
    rintro ⟨id, -, rfl⟩
    exact hne rfl
  | order r _ _ _ _ _ _ hothers hordering =>
    apply hothers _ (by decide) _ e hrelation
    rcases hordering with rfl | rfl <;> decide

section Objects

variable {r : Request} {w w' : WorkObject}

lemma Change.archived (h : Change sha256 r s s' w w') (harchived : w.archived = true) :
    w' = w ∨ w.key = r.key ∧ workPayload? r = some .restore := by
  cases h with
  | kept hsame => exact .inl hsame
  | bumped hactive => exact absurd (hactive.symm.trans harchived) Bool.false_ne_true
  | moved hkey hlive => exact .inr ⟨hkey, hlive harchived⟩

lemma Change.content (h : Change sha256 r s s' w w') (hdone : w.progress = some .done) :
    w'.basisContent = w.basisContent := by
  cases h with
  | kept hsame => rw [hsame]
  | bumped _ _ hnext =>
    rw [hnext]
    rfl
  | moved _ _ hmoved =>
    cases hmoved with
    | quiet _ hquiet => exact hquiet.content hdone
    | archived _ _ _ hresult =>
      rw [hresult]
      rfl
    | restored _ _ _ hresult =>
      rw [hresult]
      rfl
    | accepted _ _ _ _ _ _ _ hresult =>
      rw [hresult]
      rfl
    | converted _ _ _ hquiet => exact hquiet.content hdone
    | noted _ _ _ hsteady => exact hsteady.content hdone
    | transitioned _ _ _ _ _ _ _ _ hsteady => exact hsteady.content hdone
    | reviewed _ _ _ _ _ _ _ _ hsteady => exact hsteady.content hdone
    | progressed _ _ _ _ _ _ _ hsteady => exact hsteady.content hdone

lemma Change.reopened (h : Change sha256 r s s' w w') (hw : Valid w) (hw' : Valid w')
    (hdone : w.progress = some .done) (hopen : w'.progress ≠ some .done) :
    w.key = r.key ∧
      ∃ change, workPayload? r = some (.progressSet change) ∧ change.progress = .inProgress := by
  have hsame : w'.progress ≠ w.progress := fun heq => hopen (heq.trans hdone)
  cases h with
  | kept heq => exact absurd (heq ▸ rfl) hsame
  | bumped _ _ hnext => exact absurd (hnext ▸ rfl) hsame
  | moved hkey _ hmoved =>
    refine ⟨hkey, ?_⟩
    cases hmoved with
    | quiet _ hquiet => exact absurd hquiet.progress hsame
    | archived _ _ _ hresult => exact absurd (hresult ▸ rfl) hsame
    | restored _ _ _ hresult => exact absurd (hresult ▸ rfl) hsame
    | accepted _ _ _ _ _ _ _ hresult => exact absurd (hresult ▸ rfl) hsame
    | converted _ _ _ hquiet => exact absurd hquiet.progress hsame
    | noted change hrequest hnoted =>
      refine ⟨change, hrequest, ?_⟩
      have hstarted := hnoted.started
      rw [hnoted.progress] at hopen
      cases hprogress : change.progress with
      | notStarted => exact absurd hprogress hstarted
      | inProgress => rfl
      | done => exact absurd (congrArg some hprogress) hopen
    | transitioned _ _ _ _ hcarries hstage =>
      exact absurd ((stage_done_iff hw hcarries).2 hdone) hstage
    | reviewed _ _ _ hcarries hstage =>
      exact absurd ((stage_done_iff hw hcarries).2 hdone) hstage
    | progressed change hrequest _ _ _ hcarries' hstep =>
      cases hstep with
      | handedOff => exact absurd ((stage_done_iff hw' hcarries').1 rfl) hopen
      | reopened _ htarget => exact ⟨change, hrequest, htarget⟩

end Objects

/-! ## Runs -/

def ArchivedAt (s : Store) (key : Key) : Prop :=
  ∃ node, s.node? key = some node ∧ node.archived = true

def DoneAt (s : Store) (key : Key) : Prop :=
  ∃ node, s.node? key = some node ∧ node.properties .progress = some (.str Progress.done.name)

/-- The properties that the evidence of an item rests on. -/
def scopeProperties : List Property := [.title, .description, .artifactIds, .externalLinkIds]

def propertyAt (s : Store) (key : Key) (p : Property) : Option Value :=
  (s.node? key).bind fun node => node.properties p

lemma ArchivedAt.holds {key : Key} (hs : WorkNodes s) (hkey : key.1 ∈ canonicalWorkKinds)
    (h : ArchivedAt s key) : ∃ w, Holds s w ∧ w.key = key ∧ w.archived = true := by
  obtain ⟨node, hnode, harchived⟩ := h
  obtain ⟨w, hvalid, rfl, rfl⟩ := hs key node hkey hnode
  exact ⟨w, ⟨hnode, hvalid⟩, rfl, harchived⟩

lemma ArchivedAt.not_active {key : Key} (h : ArchivedAt s key) : ¬ Active s key := by
  rintro ⟨w, hold, rfl, hactive⟩
  obtain ⟨node, hnode, harchived⟩ := h
  rw [hold.node] at hnode
  cases hnode
  exact absurd (hactive.symm.trans harchived) Bool.false_ne_true

lemma progress_node {w : WorkObject} (hkind : w.kind ∈ todoKinds) :
    w.node.properties .progress = some (.str Progress.done.name) ↔ w.progress = some .done := by
  change (if w.kind ∈ todoKinds then _ else _) = _ ↔ _
  rw [if_pos hkind, Option.map_eq_some_iff]
  constructor
  · rintro ⟨progress, hprogress, hname⟩
    rw [hprogress]
    exact congrArg some (progressName_injective (Value.str.inj hname))
  · exact fun hdone => ⟨_, hdone, rfl⟩

lemma DoneAt.holds {key : Key} (hs : WorkNodes s) (hkey : key.1 ∈ todoKinds)
    (h : DoneAt s key) : ∃ w, Holds s w ∧ w.key = key ∧ w.progress = some .done := by
  obtain ⟨node, hnode, hprogress⟩ := h
  have hcanonical : key.1 ∈ canonicalWorkKinds := by
    revert hkey
    cases key.1 <;> decide
  obtain ⟨w, hvalid, rfl, rfl⟩ := hs key node hcanonical hnode
  exact ⟨w, ⟨hnode, hvalid⟩, rfl, (progress_node hkey).1 hprogress⟩

lemma DoneAt.not_unfinished {key : Key} (hkey : key.1 ∈ todoKinds) (h : DoneAt s key) :
    ¬ Unfinished s key := by
  rintro ⟨w, hold, rfl, -, hopen⟩
  obtain ⟨node, hnode, hprogress⟩ := h
  rw [hold.node] at hnode
  cases hnode
  exact hopen ((progress_node hkey).1 hprogress)

/-- What every step keeps while a condition holds is the same at both ends. -/
lemma eq_of_steps {α : Type} {f : Nat → α} {P : Nat → Prop} (hstep : ∀ n, P n → f (n + 1) = f n)
    {i j : Nat} (hij : i ≤ j) (h : ∀ m, i ≤ m → m < j → P m) : f j = f i := by
  induction hij with
  | refl => rfl
  | @step j hij ih =>
    rw [Nat.succ_eq_add_one, hstep j (h j hij (Nat.lt_succ_self j))]
    exact ih fun m him hmj => h m him (Nat.lt_succ_of_lt hmj)

section Steps

variable {events : List Event} {n : Nat} {key : Key}

lemma archived_step (hkey : key.1 ∈ canonicalWorkKinds)
    (h : ArchivedAt (storeAt sha256 events n) key) :
    (storeAt sha256 events (n + 1)).node? key = (storeAt sha256 events n).node? key ∨
      ∃ r, Executed sha256 events n (.work r) ∧ r.key = key ∧ r.payload = .restore := by
  obtain hsame | ⟨r, ws, hexecuted, houtcome⟩ := storeAt_cases sha256 events n
  · rw [hsame]
    exact .inl rfl
  · rcases h.holds (workNodes_storeAt sha256 events n) hkey with
      ⟨w, hold, rfl, harchived⟩
    obtain ⟨w', hold', hkey', hchange⟩ := houtcome.change hold
    obtain rfl | ⟨hsubject, hrequest⟩ := hchange.archived harchived
    · exact .inl (hold'.node.trans hold.node.symm)
    · cases r with
      | work r => exact .inr ⟨r, hexecuted, hsubject.symm, Option.some.inj hrequest⟩
      | arena r => cases hrequest

lemma scope_step (h : ¬ Unfinished (storeAt sha256 events n) key)
    (hincident : Incident key e) (hrelation : e.relationship ∈ scopeRelations) :
    (e ∈ (storeAt sha256 events (n + 1)).edges) = (e ∈ (storeAt sha256 events n).edges) := by
  obtain hsame | ⟨r, ws, -, houtcome⟩ := storeAt_cases sha256 events n
  · rw [hsame]
  · exact propext (houtcome.reshape.scope h hincident hrelation)

lemma arena_step (hkey : key.1 ∈ canonicalWorkKinds)
    (h : ¬ Active (storeAt sha256 events n) key) (hincident : Incident key e)
    (hrelation : e.relationship = .containsWork) :
    (e ∈ (storeAt sha256 events (n + 1)).edges) = (e ∈ (storeAt sha256 events n).edges) := by
  obtain hsame | ⟨r, ws, -, houtcome⟩ := storeAt_cases sha256 events n
  · rw [hsame]
  · have hkind : key.1 ≠ .arena := by
      revert hkey
      cases key.1 <;> decide
    exact propext (houtcome.reshape.arena (placed_run sha256 _) (placed_run sha256 _) h hkind
      hincident hrelation)

lemma content_node {w w' : WorkObject} (h : w'.basisContent = w.basisContent) :
    ∀ p ∈ scopeProperties, w'.node.properties p = w.node.properties p := by
  simp only [WorkObject.basisContent, Prod.mk.injEq] at h
  obtain ⟨htitle, hdescription, hartifacts, hlinks⟩ := h
  simp only [scopeProperties, List.forall_mem_cons, WorkObject.node, WorkObject.toNodeProperties,
    htitle, hdescription, hartifacts, hlinks]
  simp

/-- Work that is done keeps its content, and stays done until it is reopened. -/
lemma done_step (hkey : key.1 ∈ todoKinds) (h : DoneAt (storeAt sha256 events n) key) :
    (∀ p ∈ scopeProperties, propertyAt (storeAt sha256 events (n + 1)) key p =
      propertyAt (storeAt sha256 events n) key p) ∧
    (¬ DoneAt (storeAt sha256 events (n + 1)) key → ∃ r change,
      Executed sha256 events n (.work r) ∧ r.key = key ∧ r.payload = .progressSet change ∧
        change.progress = .inProgress) := by
  obtain hsame | ⟨r, ws, hexecuted, houtcome⟩ := storeAt_cases sha256 events n
  · rw [hsame]
    exact ⟨fun _ _ => rfl, fun hopen => absurd h hopen⟩
  · obtain ⟨w, hold, rfl, hdone⟩ := h.holds (workNodes_storeAt sha256 events n) hkey
    obtain ⟨w', hold', hkey', hchange⟩ := houtcome.change hold
    have hnode' := hold'.node
    rw [hkey'] at hnode'
    refine ⟨?_, ?_⟩
    · intro p hp
      rw [propertyAt, propertyAt, hold.node, hnode']
      exact content_node (hchange.content hdone) p hp
    · intro hopen
      have hkind' : w'.kind ∈ todoKinds := by
        rw [show w'.kind = w.kind from congrArg Prod.fst hkey']
        exact hkey
      have hprogress : w'.progress ≠ some .done := fun hdone' =>
        hopen ⟨w'.node, hnode', (progress_node hkind').2 hdone'⟩
      rcases hchange.reopened hold.valid hold'.valid hdone hprogress with
        ⟨hsubject, change, hrequest, htarget⟩
      cases r with
      | work r => exact ⟨r, change, hexecuted, hsubject.symm, Option.some.inj hrequest, htarget⟩
      | arena r => cases hrequest

end Steps

/-- A restored item is not archived, so that what stays archived stays as it is. -/
lemma archived_kept {events : List Event} {i j : Nat} {key : Key}
    (hkey : key.1 ∈ canonicalWorkKinds) (hij : i ≤ j)
    (h : ∀ m, i ≤ m → m < j → ArchivedAt (storeAt sha256 events m) key)
    (hlast : ArchivedAt (storeAt sha256 events j) key) :
    (storeAt sha256 events j).node? key = (storeAt sha256 events i).node? key := by
  have hall : ∀ m, i ≤ m → m < j → ArchivedAt (storeAt sha256 events m) key ∧
      ArchivedAt (storeAt sha256 events (m + 1)) key := by
    intro m him hmj
    refine ⟨h m him hmj, ?_⟩
    obtain hlt | heq := Nat.lt_or_eq_of_le (Nat.succ_le_of_lt hmj)
    · exact h (m + 1) (Nat.le_succ_of_le him) hlt
    · rw [← Nat.succ_eq_add_one, heq]
      exact hlast
  refine eq_of_steps (f := fun n => (storeAt sha256 events n).node? key) ?_ hij hall
  intro n hn
  obtain hsame | ⟨r, hexecuted, hrkey, hpayload⟩ := archived_step hkey hn.1
  · exact hsame
  · exfalso
    rcases executed_moved hexecuted (fun _ hc => nomatch hpayload.symm.trans hc)
      (fun _ hc => nomatch hpayload.symm.trans hc) with ⟨w, w', -, -, hold', hwkey', hmoved⟩
    rw [hpayload] at hmoved
    obtain ⟨now, hresult⟩ := hmoved.of_restore
    obtain ⟨node, hnode, harchived⟩ := hn.2
    rw [← hrkey, ← hwkey', hold'.node] at hnode
    cases hnode
    rw [hresult] at harchived
    cases harchived

/-- What is archived and then restored comes back as it was, at a later version. -/
lemma archive_restore {events : List Event} {i j : Nat} {r r' : WorkRequest}
    (harchive : Executed sha256 events i (.work r)) (hpayload : r.payload = .archive)
    (hrestore : Executed sha256 events j (.work r')) (hpayload' : r'.payload = .restore)
    (hkey : r'.key = r.key) (hij : i < j)
    (hbetween : ∀ m q, i < m → m < j → Executed sha256 events m (.work q) → q.key = r.key →
      q.payload ≠ .restore) :
    ∃ node node', (storeAt sha256 events i).node? r.key = some node ∧
      (storeAt sha256 events (j + 1)).node? r.key = some node' ∧ node'.archived = node.archived ∧
      ∀ p, p ≠ .version → p ≠ .updatedAt → node'.properties p = node.properties p := by
  rcases executed_moved harchive (fun _ hc => nomatch hpayload.symm.trans hc)
    (fun _ hc => nomatch hpayload.symm.trans hc) with ⟨w, w', hold, hwkey, hold', hwkey', hmoved⟩
  rcases executed_moved hrestore (fun _ hc => nomatch hpayload'.symm.trans hc)
    (fun _ hc => nomatch hpayload'.symm.trans hc) with
    ⟨x, x', hheld, hxkey, hheld', hxkey', hmoved'⟩
  rw [hpayload] at hmoved
  rw [hpayload'] at hmoved'
  obtain ⟨hactive, now, hresult⟩ := hmoved.of_archive
  obtain ⟨now', hresult'⟩ := hmoved'.of_restore
  have hkind : r.key.1 ∈ canonicalWorkKinds := hwkey ▸ hold.valid.kind
  have hnode' := hold'.node
  rw [hwkey'] at hnode'
  -- Between the two requests the item stays archived, hence as the first one left it.
  have hstays : ∀ m, i + 1 ≤ m → m ≤ j →
      (storeAt sha256 events m).node? r.key = some w'.node := by
    intro m him hmj
    induction him with
    | refl => exact hnode'
    | @step m him ih =>
      have hm := ih (Nat.le_of_succ_le hmj)
      have harchived : ArchivedAt (storeAt sha256 events m) r.key := ⟨_, hm, by rw [hresult]; rfl⟩
      obtain hsame | ⟨q, hq, hqkey, hqpayload⟩ := archived_step hkind harchived
      · exact hsame.trans hm
      · exact absurd hqpayload (hbetween m q him hmj hq hqkey)
  have hlast : Holds (storeAt sha256 events j) w' :=
    ⟨by rw [hwkey']; exact hstays j hij (Nat.le_refl j), hold'.valid⟩
  cases hlast.unique hheld (hxkey.trans (hkey.trans hwkey'.symm))
  refine ⟨w.node, x'.node, hwkey ▸ hold.node, ?_, ?_, ?_⟩
  · rw [← hkey, ← hxkey']
    exact hheld'.node
  · rw [hresult']
    exact hactive.symm
  · intro p hversion hupdated
    rw [hresult', hresult]
    cases p <;> first | rfl | exact absurd rfl hversion | exact absurd rfl hupdated

/-- Over every run, archived Work and the edges that place and order it stay as they are until the
Work is restored, which gives it back as it was; Work that is done keeps its content and the
edges of its scope until it is reopened. -/
theorem run_frozen (sha256 : String → String) (events : List Event) :
    (∀ i j key, key.1 ∈ canonicalWorkKinds → i ≤ j →
      (∀ m, i ≤ m → m < j → ArchivedAt (storeAt sha256 events m) key) →
      (ArchivedAt (storeAt sha256 events j) key →
        (storeAt sha256 events j).node? key = (storeAt sha256 events i).node? key) ∧
      ∀ e, e.relationship ∈ .containsWork :: scopeRelations → Incident key e →
        (e ∈ (storeAt sha256 events j).edges ↔ e ∈ (storeAt sha256 events i).edges)) ∧
    (∀ n key, key.1 ∈ canonicalWorkKinds → ArchivedAt (storeAt sha256 events n) key →
      (storeAt sha256 events (n + 1)).node? key ≠ (storeAt sha256 events n).node? key →
      ∃ r, Executed sha256 events n (.work r) ∧ r.key = key ∧ r.payload = .restore) ∧
    (∀ i j r r', Executed sha256 events i (.work r) → r.payload = .archive →
      Executed sha256 events j (.work r') → r'.payload = .restore → r'.key = r.key → i < j →
      (∀ m q, i < m → m < j → Executed sha256 events m (.work q) → q.key = r.key →
        q.payload ≠ .restore) →
      ∃ node node', (storeAt sha256 events i).node? r.key = some node ∧
        (storeAt sha256 events (j + 1)).node? r.key = some node' ∧
        node'.archived = node.archived ∧
        ∀ p, p ≠ .version → p ≠ .updatedAt → node'.properties p = node.properties p) ∧
    (∀ i j key, key.1 ∈ todoKinds → i ≤ j →
      (∀ m, i ≤ m → m < j → DoneAt (storeAt sha256 events m) key) →
      (∀ p ∈ scopeProperties, propertyAt (storeAt sha256 events j) key p =
        propertyAt (storeAt sha256 events i) key p) ∧
      ∀ e, e.relationship ∈ scopeRelations → Incident key e →
        (e ∈ (storeAt sha256 events j).edges ↔ e ∈ (storeAt sha256 events i).edges)) ∧
    ∀ n key, key.1 ∈ todoKinds → DoneAt (storeAt sha256 events n) key →
      ¬ DoneAt (storeAt sha256 events (n + 1)) key → ∃ r change,
        Executed sha256 events n (.work r) ∧ r.key = key ∧ r.payload = .progressSet change ∧
          change.progress = .inProgress := by
  refine ⟨?_, ?_, ?_, ?_, ?_⟩
  · intro i j key hkey hij harchived
    refine ⟨fun hlast => archived_kept hkey hij harchived hlast, ?_⟩
    intro e hrelation hincident
    refine iff_of_eq (eq_of_steps (f := fun n => e ∈ (storeAt sha256 events n).edges) ?_ hij
      harchived)
    intro n h
    obtain hcontains | hscope := List.mem_cons.1 hrelation
    · exact arena_step hkey h.not_active hincident hcontains
    · exact scope_step (fun hopen => h.not_active hopen.active) hincident hscope
  · intro n key hkey harchived hchanged
    exact (archived_step hkey harchived).resolve_left hchanged
  · intro i j r r' harchive hpayload hrestore hpayload' hrkey hij hbetween
    exact archive_restore harchive hpayload hrestore hpayload' hrkey hij hbetween
  · intro i j key hkey hij hdone
    refine ⟨?_, ?_⟩
    · intro p hp
      exact eq_of_steps (f := fun n => propertyAt (storeAt sha256 events n) key p)
        (fun n h => (done_step hkey h).1 p hp) hij hdone
    · intro e hrelation hincident
      exact iff_of_eq (eq_of_steps (f := fun n => e ∈ (storeAt sha256 events n).edges)
        (fun n h => scope_step (h.not_unfinished hkey) hincident hrelation) hij hdone)
  · intro n key hkey hdone hopen
    exact (done_step hkey hdone).2 hopen

/-! A base item that is completed, archived and restored. -/

def todoRequests : List WorkRequest :=
  [asked .todo none (.create ⟨"a", "T", "", 0, [], []⟩),
    asked .todo (some 1) (.progressSet ⟨.done, "r", "p", [], []⟩),
    asked .todo (some 2) .archive, asked .todo (some 3) .restore]

lemma todoRequests_readable : Readable todoRequests := by
  simp only [Readable, todoRequests, List.forall_mem_cons, List.not_mem_nil, false_implies,
    implies_true, and_true]
  refine ⟨fromJson_asked ?_ ?_, fromJson_asked ?_ ?_, fromJson_asked ?_ ?_, fromJson_asked ?_ ?_⟩
  all_goals first
    | decide +kernel
    | simp [Payload.toJson, CreateWork.toJson, ProgressSet.toJson, strings, Json.IntsIn,
        FieldsIntsIn, ItemsIntsIn, SafeInt, strictJson, maxSafeInteger]

theorem run_frozen_todo : ∃ node node',
    (storeAt id (todoRequests.map sent) 2).node? (.todo, "a") = some node ∧
      (storeAt id (todoRequests.map sent) 4).node? (.todo, "a") = some node' ∧
      node'.archived = node.archived ∧
      ∀ p, p ≠ .version → p ≠ .updatedAt → node'.properties p = node.properties p := by
  have hread := todoRequests_readable
  have harchive : Executed id (todoRequests.map sent) 2 (.work (asked .todo (some 2) .archive)) :=
    executed_sent hread rfl (by rw [storeAt_sent hread]; decide +kernel)
  have hrestore : Executed id (todoRequests.map sent) 3 (.work (asked .todo (some 3) .restore)) :=
    executed_sent hread rfl (by rw [storeAt_sent hread]; decide +kernel)
  have hkept := (run_frozen id (todoRequests.map sent)).2.2.1 2 3 _ _ harchive rfl hrestore rfl
    (by rw [asked_key, asked_key]) (by decide) fun m q hlt hgt => absurd hgt (by omega)
  rwa [asked_key] at hkept

end DevGraph.Proofs
