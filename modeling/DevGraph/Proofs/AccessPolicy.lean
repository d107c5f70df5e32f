import DevGraph.Proofs.WriteScope
import DevGraph.Work.AccessPolicy

/-!
# Attenuation of access drafts

The check of a draft against its parent looks at selectors only. It is transitive, and on every
store what the narrower grants admit is admitted by one of the wider grants.
-/

namespace DevGraph.Proofs

open Lib Work

variable {s : Store} {key : Key}

lemma selectorSubset_iff {granted requested : List String} :
    selectorSubset granted requested = true ↔
      requested = [] ∨ granted ≠ [] ∧ granted ⊆ requested := by
  simp [selectorSubset]

lemma selectorSubset_trans {a b c : List String} (hab : selectorSubset a b = true)
    (hbc : selectorSubset b c = true) : selectorSubset a c = true := by
  rw [selectorSubset_iff] at hab hbc ⊢
  obtain rfl | ⟨hb, hbc⟩ := hbc
  · exact .inl rfl
  · obtain rfl | ⟨ha, hab⟩ := hab
    · exact absurd rfl hb
    · exact .inr ⟨ha, List.Subset.trans hab hbc⟩

lemma pathsSubset_trans {a b c : List ResourcePath} (hab : pathsSubset a b = true)
    (hbc : pathsSubset b c = true) : pathsSubset a c = true := by
  rw [pathsSubset_iff] at hab hbc ⊢
  obtain rfl | ⟨hb, hbc⟩ := hbc
  · exact .inl rfl
  · obtain rfl | ⟨ha, hab⟩ := hab
    · exact absurd rfl hb
    · refine .inr ⟨ha, ?_⟩
      intro path hpath
      obtain ⟨middle, hmiddle, hincluded⟩ := hab path hpath
      obtain ⟨wide, hwide, hwider⟩ := hbc middle hmiddle
      exact ⟨wide, hwide, List.Subset.trans hwider hincluded⟩

/-- What the check of two grants to read Work compares. -/
structure WorkSubset (granted requested : ScopedReadGrant) : Prop where
  operations : granted.operations ⊆ requested.operations
  relationshipTypes : granted.relationshipTypes ⊆ requested.relationshipTypes
  workKinds : granted.workKinds ⊆ requested.workKinds
  archived : granted.includeArchived = true → requested.includeArchived = true
  workIds : selectorSubset granted.workIds requested.workIds = true
  arenaIds : selectorSubset granted.arenaIds requested.arenaIds = true
  paths : pathsSubset granted.resourcePaths requested.resourcePaths = true

lemma workGrantIsSubset_iff {granted requested : ScopedReadGrant} :
    workGrantIsSubset granted requested = true ↔ WorkSubset granted requested := by
  simp only [workGrantIsSubset, Bool.and_eq_true, decide_eq_true_eq, Bool.or_eq_true,
    Bool.not_eq_true']
  constructor
  · rintro ⟨⟨⟨⟨⟨⟨h1, h2⟩, h3⟩, h4⟩, h5⟩, h6⟩, h7⟩
    exact ⟨h1, h2, h3, fun h => h4.resolve_left (by simp [h]), h5, h6, h7⟩
  · intro h
    refine ⟨⟨⟨⟨⟨⟨h.operations, h.relationshipTypes⟩, h.workKinds⟩, ?_⟩, h.workIds⟩, h.arenaIds⟩,
      h.paths⟩
    rw [← Bool.not_eq_true]
    exact imp_iff_not_or.1 h.archived

lemma WorkSubset.trans {a b c : ScopedReadGrant} (hab : WorkSubset a b) (hbc : WorkSubset b c) :
    WorkSubset a c where
  operations := List.Subset.trans hab.operations hbc.operations
  relationshipTypes := List.Subset.trans hab.relationshipTypes hbc.relationshipTypes
  workKinds := List.Subset.trans hab.workKinds hbc.workKinds
  archived := hbc.archived ∘ hab.archived
  workIds := selectorSubset_trans hab.workIds hbc.workIds
  arenaIds := selectorSubset_trans hab.arenaIds hbc.arenaIds
  paths := pathsSubset_trans hab.paths hbc.paths

/-- The cases in which a grant passes under another one. -/
inductive GrantSubset : DraftReadGrant → DraftReadGrant → Prop
  | work {granted requested : ScopedReadGrant} (h : WorkSubset granted requested) :
    GrantSubset (.work granted) (.work requested)
  | all {granted requested : DraftReadGrant} (hgranted : granted.allArenas = true)
    (hrequested : requested.allArenas = true) : GrantSubset granted requested
  | arenasOfAll {arenaIds : List String} {requested : DraftReadGrant}
    (hrequested : requested.allArenas = true) : GrantSubset (.arena arenaIds) requested
  | arenas {granted requested : List String} (h : granted ⊆ requested) :
    GrantSubset (.arena granted) (.arena requested)
  | simple (scope : String) : GrantSubset (.simple scope) (.simple scope)

lemma grantIsSubset_iff {granted requested : DraftReadGrant} :
    grantIsSubset granted requested = true ↔ GrantSubset granted requested := by
  constructor
  · intro h
    unfold grantIsSubset at h
    split at h
    · cases h
    · rename_i hscope
      rw [not_not] at hscope
      cases granted with
      | work granted =>
        cases requested with
        | work requested => exact .work (workGrantIsSubset_iff.1 h)
        | _ => cases h
      | arena granted =>
        cases requested with
        | arena requested => exact .arenas (of_decide_eq_true h)
        | ownerAllArenas => exact .arenasOfAll rfl
        | collectionArenas => exact .arenasOfAll rfl
        | _ => cases h
      | ownerAllArenas => exact .all rfl h
      | collectionArenas => exact .all rfl h
      | simple scope =>
        cases requested with
        | simple other =>
          cases hscope
          exact .simple scope
        | _ => cases h
  · intro h
    cases h with
    | work h => exact workGrantIsSubset_iff.2 h
    | all hgranted hrequested =>
      cases granted <;> cases hgranted <;> cases requested <;> cases hrequested <;> rfl
    | arenasOfAll hrequested => cases requested <;> cases hrequested <;> rfl
    | arenas h => simpa [grantIsSubset, DraftReadGrant.scope, DraftReadGrant.allArenas] using h
    | simple scope => simp [grantIsSubset, DraftReadGrant.allArenas, DraftReadGrant.sameClass]

lemma GrantSubset.trans {a b c : DraftReadGrant} (hab : GrantSubset a b) (hbc : GrantSubset b c) :
    GrantSubset a c := by
  cases hab with
  | work hab =>
    cases hbc with
    | work hbc => exact .work (hab.trans hbc)
    | all hgranted => cases hgranted
  | all hgranted hrequested =>
    cases hbc with
    | all _ hwide => exact .all hgranted hwide
    | _ => cases hrequested
  | arenasOfAll hrequested =>
    cases hbc with
    | all _ hwide => exact .arenasOfAll hwide
    | _ => cases hrequested
  | arenas hab =>
    cases hbc with
    | all hgranted => cases hgranted
    | arenasOfAll hwide => exact .arenasOfAll hwide
    | arenas hbc => exact .arenas (List.Subset.trans hab hbc)
  | simple scope => exact hbc

def GrantsSubset (narrow wide : List DraftReadGrant) : Prop :=
  ∀ granted ∈ narrow, ∃ requested ∈ wide, GrantSubset granted requested

lemma grantsSubset_iff {narrow wide : List DraftReadGrant} :
    ¬ narrow.any (fun g => !wide.any (grantIsSubset g)) = true ↔ GrantsSubset narrow wide := by
  simp [GrantsSubset, grantIsSubset_iff]

lemma GrantsSubset.trans {a b c : List DraftReadGrant} (hab : GrantsSubset a b)
    (hbc : GrantsSubset b c) : GrantsSubset a c := by
  intro granted hgranted
  obtain ⟨middle, hmiddle, hfirst⟩ := hab granted hgranted
  obtain ⟨requested, hrequested, hsecond⟩ := hbc middle hmiddle
  exact ⟨requested, hrequested, hfirst.trans hsecond⟩

/-! ## What grants admit -/

/-- The grant carries the operation and the relationship, and its selector admits the item. -/
structure ReadAdmits (s : Store) (grant : ScopedReadGrant) (operation : WorkOperation)
    (relationship : RelationshipType) (key : Key) : Prop where
  operation : operation ∈ grant.operations
  relationship : relationship ∈ grant.relationshipTypes
  selected : admitted s [grant.selector] key = .ok true

/-- What the narrower grants admit, one of the wider grants admits. -/
structure Narrows (s : Store) (narrow wide : List DraftReadGrant) : Prop where
  work : ∀ granted operation relationship key, .work granted ∈ narrow →
    ReadAdmits s granted operation relationship key →
    ∃ requested, .work requested ∈ wide ∧ ReadAdmits s requested operation relationship key
  arenas : ∀ id, arenaReadable s narrow id = true → arenaReadable s wide id = true

lemma arenaDescendantKeys_mono {narrow wide : List String} (h : narrow ⊆ wide)
    (hkey : key ∈ arenaDescendantKeys s narrow) : key ∈ arenaDescendantKeys s wide := by
  rw [arenaDescendantKeys, mem_closure .start] at hkey ⊢
  simp only [List.not_mem_nil, false_or, List.mem_reverse, List.mem_map, List.mem_filter,
    Bool.and_eq_true, decide_eq_true_eq] at hkey ⊢
  obtain ⟨start, ⟨e, ⟨he, hcontains, hid⟩, rfl⟩, hpath⟩ := hkey
  exact ⟨e.target, ⟨e, ⟨he, hcontains, h hid⟩, rfl⟩, hpath⟩

lemma selects_iff {node : Node} {selector : DelegatedWorkSelector} :
    selects s key node selector = .ok true ↔
      (key.1 ∈ selector.workKinds ∧ (node.archived = false ∨ selector.includeArchived = true) ∧
        (selector.workIds = [] ∨ (key.1.name, key.2) ∈ selector.workIds.map splitResource) ∧
        (selector.arenaIds = [] ∨ key ∈ arenaDescendantKeys s selector.arenaIds)) ∧
      withinPaths (memoryStorage s) key selector.resourcePaths = .ok true := by
  unfold selects
  split
  · rename_i h
    exact ⟨fun hpaths => ⟨h, hpaths⟩, And.right⟩
  · rename_i h
    constructor
    · intro hfalse
      cases hfalse
    · intro hboth
      exact absurd hboth.1 h

lemma admitted_single {selector : DelegatedWorkSelector} :
    admitted s [selector] key = .ok true ↔
      ∃ node, s.node? key = some node ∧ selects s key node selector = .ok true := by
  unfold admitted
  cases s.node? key with
  | none => simp
  | some node =>
    cases h : selects s key node selector with
    | error e => simp [List.anyM, h, bind, Except.bind]
    | ok found => cases found <;> simp [List.anyM, h, bind, Except.bind, pure, Except.pure]

lemma selector_mono (P : List String → Prop) {granted requested : List String}
    (hmono : granted ⊆ requested → P granted → P requested)
    (h : selectorSubset granted requested = true) (hadmits : granted = [] ∨ P granted) :
    requested = [] ∨ P requested := by
  obtain rfl | ⟨hsome, hsubset⟩ := selectorSubset_iff.1 h
  · exact .inl rfl
  · exact .inr (hmono hsubset (hadmits.resolve_left hsome))

lemma ReadAdmits.mono {granted requested : ScopedReadGrant} {operation : WorkOperation}
    {relationship : RelationshipType} (h : WorkSubset granted requested)
    (hadmits : ReadAdmits s granted operation relationship key) :
    ReadAdmits s requested operation relationship key := by
  refine ⟨h.operations hadmits.operation, h.relationshipTypes hadmits.relationship, ?_⟩
  obtain ⟨node, hnode, hselected⟩ := admitted_single.1 hadmits.selected
  obtain ⟨⟨hkind, harchived, hids, harenas⟩, hpaths⟩ := selects_iff.1 hselected
  refine admitted_single.2 ⟨node, hnode, selects_iff.2 ⟨⟨h.workKinds hkind,
    harchived.imp_right h.archived, ?_, ?_⟩, withinPaths_mono h.paths hpaths⟩⟩
  · exact selector_mono (fun ids => (key.1.name, key.2) ∈ ids.map splitResource)
      (fun hsubset hmem => List.map_subset _ hsubset hmem) h.workIds hids
  · exact selector_mono (fun ids => key ∈ arenaDescendantKeys s ids) arenaDescendantKeys_mono
      h.arenaIds harenas

lemma narrows_of_subset {narrow wide : List DraftReadGrant} (h : GrantsSubset narrow wide) :
    Narrows s narrow wide where
  work := by
    intro granted operation relationship key hmem hadmits
    obtain ⟨requested, hrequested, hsubset⟩ := h _ hmem
    cases hsubset with
    | work hsubset => exact ⟨_, hrequested, hadmits.mono hsubset⟩
    | all hall => cases hall
  arenas := by
    intro id hid
    simp only [arenaReadable, dynamicArenas, allowedArenas, Bool.and_eq_true, Bool.or_eq_true,
      List.any_eq_true, decide_eq_true_eq, List.mem_flatMap] at hid ⊢
    refine ⟨?_, hid.2⟩
    obtain ⟨granted, hmem, hall⟩ | ⟨granted, hmem, hnamed⟩ := hid.1
    · obtain ⟨requested, hrequested, hsubset⟩ := h granted hmem
      refine .inl ⟨requested, hrequested, ?_⟩
      cases hsubset with
      | all _ hwide => exact hwide
      | _ => cases hall
    · obtain ⟨requested, hrequested, hsubset⟩ := h granted hmem
      cases hsubset with
      | arenasOfAll hwide => exact .inl ⟨requested, hrequested, hwide⟩
      | arenas hsubset => exact .inr ⟨_, hrequested, hsubset hnamed⟩
      | all hall hwide => exact .inl ⟨requested, hrequested, hwide⟩
      | _ => cases hnamed

lemma bindingKept_trans {a b c : Option String} (hab : bindingKept a b = true)
    (hbc : bindingKept b c = true) : bindingKept a c = true := by
  simp only [bindingKept, Bool.or_eq_true, Option.isNone_iff_eq_none, decide_eq_true_eq] at *
  obtain rfl | rfl := hbc
  · exact .inl rfl
  · exact hab

lemma containedBy_trans {a b c : GrantValidity} (hab : a.containedBy b = true)
    (hbc : b.containedBy c = true) : a.containedBy c = true := by
  simp only [GrantValidity.containedBy, Bool.and_eq_true, decide_eq_true_eq, Option.all_eq_true,
    Option.any_eq_true] at *
  refine ⟨hbc.1.trans hab.1, ?_⟩
  intro last hlast
  obtain ⟨middle, hmiddle, hle⟩ := hbc.2 last hlast
  obtain ⟨first, hfirst, hfirstle⟩ := hab.2 middle hmiddle
  exact ⟨first, hfirst, hfirstle.trans hle⟩

/-- The Arenas or ids of the narrower side are among those of the wider side, if it has any. -/
lemma optionSubset_trans {a b c : Option (List String)}
    (hab : b.all (fun allowed => a.any fun ids => ids ⊆ allowed) = true)
    (hbc : c.all (fun allowed => b.any fun ids => ids ⊆ allowed) = true) :
    c.all (fun allowed => a.any fun ids => ids ⊆ allowed) = true := by
  simp only [Option.all_eq_true, Option.any_eq_true, decide_eq_true_eq] at *
  intro wide hwide
  obtain ⟨middle, hmiddle, hle⟩ := hbc wide hwide
  obtain ⟨first, hfirst, hfirstle⟩ := hab middle hmiddle
  exact ⟨first, hfirst, List.Subset.trans hfirstle hle⟩

lemma resource_containedBy_trans {a b c : WriteResource} (hab : a.containedBy b = true)
    (hbc : b.containedBy c = true) : a.containedBy c = true := by
  simp only [WriteResource.containedBy, Bool.and_eq_true, decide_eq_true_eq] at hab hbc ⊢
  exact ⟨hab.1.trans hbc.1, optionSubset_trans hab.2 hbc.2⟩

lemma above_trans {a b c : ScopedWriteGrant} (hab : b.above a = true) (hbc : c.above b = true) :
    c.above a = true := by
  simp only [ScopedWriteGrant.above, Bool.and_eq_true, decide_eq_true_eq] at hab hbc ⊢
  exact ⟨⟨hbc.1.1.trans hab.1.1, pathsSubset_trans hab.1.2 hbc.1.2⟩,
    optionSubset_trans hab.2 hbc.2⟩

lemma amplifies_trans {grant : ScopedWriteGrant} {middle wide : List ScopedWriteGrant}
    (hmiddle : amplifies grant middle = false) (hwide : ∀ g ∈ middle, amplifies g wide = false) :
    amplifies grant wide = false := by
  rw [amplifies_iff] at hmiddle ⊢
  intro r hr
  obtain ⟨p, hp, habove, allowed, hallowed, hcontained⟩ := hmiddle r hr
  rcases amplifies_iff.1 (hwide p hp) allowed hallowed with
    ⟨q, hq, hqabove, wider, hwider, hqcontained⟩
  exact ⟨q, hq, above_trans habove hqabove, wider, hwider,
    resource_containedBy_trans hcontained hqcontained⟩

/-- What the check of a draft against its parent compares. -/
structure DraftSubset (child parent : AccessDraft) : Prop where
  issuer : child.issuer = parent.issuer
  receiver : child.receiver = parent.receiver
  audience : child.writeAudience = parent.writeAudience
  subject : bindingKept child.subjectPublicKey parent.subjectPublicKey = true
  installation : bindingKept child.installationId parent.installationId = true
  validity : child.validity.containedBy parent.validity = true
  lifetime : child.lifetimeSeconds ≤ parent.lifetimeSeconds
  reads : GrantsSubset child.readGrants parent.readGrants
  writes : ∀ grant ∈ child.writeGrants, amplifies grant parent.writeGrants = false

lemma requireSubset_iff {child parent : AccessDraft} :
    requireSubset child parent = .ok () ↔ DraftSubset child parent := by
  simp only [requireSubset, except_ok, exists_const, not_or, not_not, Bool.not_eq_false, not_lt,
    grantsSubset_iff]
  simp only [List.any_eq_true, not_exists, not_and, Bool.not_eq_true]
  constructor
  · rintro ⟨⟨h1, h2, h3⟩, ⟨h4, h5⟩, ⟨h6, h7⟩, h8, h9⟩
    exact ⟨h1, h2, h3, h4, h5, h6, h7, h8, h9⟩
  · intro h
    exact ⟨⟨h.issuer, h.receiver, h.audience⟩, ⟨h.subject, h.installation⟩,
      ⟨h.validity, h.lifetime⟩, h.reads, h.writes⟩

lemma DraftSubset.trans {a b c : AccessDraft} (hab : DraftSubset a b) (hbc : DraftSubset b c) :
    DraftSubset a c where
  issuer := hab.issuer.trans hbc.issuer
  receiver := hab.receiver.trans hbc.receiver
  audience := hab.audience.trans hbc.audience
  subject := bindingKept_trans hab.subject hbc.subject
  installation := bindingKept_trans hab.installation hbc.installation
  validity := containedBy_trans hab.validity hbc.validity
  lifetime := hab.lifetime.trans hbc.lifetime
  reads := hab.reads.trans hbc.reads
  writes := fun grant hgrant => amplifies_trans (hab.writes grant hgrant) hbc.writes

def Attenuates (digest : AccessDraft → String) (parent child : AccessDraft) : Prop :=
  attenuate digest parent child = .ok child

lemma attenuates_subset {digest : AccessDraft → String} {parent child : AccessDraft}
    (h : Attenuates digest parent child) : DraftSubset child parent := by
  simp only [Attenuates, attenuate, except_bind_ok] at h
  obtain ⟨_, -, _, hsubset, -⟩ := h
  exact requireSubset_iff.1 hsubset

lemma grantsSubset_refl (grants : List DraftReadGrant) : GrantsSubset grants grants := by
  intro granted hgranted
  refine ⟨granted, hgranted, ?_⟩
  cases granted with
  | work grant =>
    refine .work ⟨List.Subset.refl _, List.Subset.refl _, List.Subset.refl _, id, ?_, ?_, ?_⟩
    · rw [selectorSubset_iff]
      exact (em _).imp_right fun h => ⟨h, List.Subset.refl _⟩
    · rw [selectorSubset_iff]
      exact (em _).imp_right fun h => ⟨h, List.Subset.refl _⟩
    · rw [pathsSubset_iff]
      exact (em _).imp_right fun h => ⟨h, fun c hc => ⟨c, hc, List.Subset.refl _⟩⟩
  | arena ids => exact .arenas (List.Subset.refl _)
  | ownerAllArenas => exact .all rfl rfl
  | collectionArenas => exact .all rfl rfl
  | simple scope => exact .simple scope

lemma chain_subset {digest : AccessDraft → String} {root leaf : AccessDraft}
    (h : Relation.ReflTransGen (Attenuates digest) root leaf) :
    GrantsSubset leaf.readGrants root.readGrants := by
  induction h with
  | refl => exact grantsSubset_refl _
  | tail _ hstep ih => exact (attenuates_subset hstep).reads.trans ih

lemma validateManifestSubset_reads {profile : CredentialRequestProfile}
    {manifest : CredentialManifest} (h : validateManifestSubset profile manifest = .ok ()) :
    GrantsSubset (manifest.readGrants.map ReadGrant.draft)
      (profile.requestedGrants.map ReadGrant.draft) := by
  simp only [validateManifestSubset, except_ok] at h
  obtain ⟨_, -, _, -, _, -, _, -, hgrants⟩ := h
  rw [← grantsSubset_iff]
  simpa [List.any_map, Function.comp_def] using hgrants

/-- A manifest under its profile, a draft under its parent and the last draft of a chain of
attenuations read nothing that one grant above does not read. The check of drafts is transitive. -/
theorem read_attenuation (digest : AccessDraft → String) (s : Store) :
    (∀ profile manifest, validateManifestSubset profile manifest = .ok () →
      Narrows s (manifest.readGrants.map ReadGrant.draft)
        (profile.requestedGrants.map ReadGrant.draft)) ∧
    (∀ child parent, requireSubset child parent = .ok () →
      Narrows s child.readGrants parent.readGrants) ∧
    (∀ root leaf, Relation.ReflTransGen (Attenuates digest) root leaf →
      Narrows s leaf.readGrants root.readGrants) ∧
    ∀ a b c, requireSubset a b = .ok () → requireSubset b c = .ok () →
      requireSubset a c = .ok () := by
  refine ⟨?_, ?_, ?_, ?_⟩
  · intro profile manifest h
    exact narrows_of_subset (validateManifestSubset_reads h)
  · intro child parent h
    exact narrows_of_subset (requireSubset_iff.1 h).reads
  · intro root leaf h
    exact narrows_of_subset (chain_subset h)
  · intro a b c hab hbc
    exact requireSubset_iff.2 ((requireSubset_iff.1 hab).trans (requireSubset_iff.1 hbc))

end DevGraph.Proofs
