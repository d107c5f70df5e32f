import DevGraph.Proofs.ObjectEffects

/-!
# Effects of the session operations

Attaching a session records the references and the link that are not there yet, and moves the
subject. The state of a session is a node of its own, with a version of its own.
-/

namespace DevGraph.Proofs

open Lib Work

variable {refId : String}

variable {authority : Authority} {value : SessionWorkState}

variable {sha256 : String → String} {keys : List Key} {s s' : Store} {w w' : WorkObject}

variable {ref : SessionRef}

lemma putSessionRef_records (subject : Key) {u : Unit}
    (hkey : ref.key sha256 ∈ keys) (h : putSessionRef sha256 ref s = .ok u s') :
    ∃ ws, Records subject keys s ws s' := by
  simp only [putSessionRef, bind_ok, reading_ok] at h
  obtain ⟨found, _, ⟨-, rfl⟩, h⟩ := h
  cases found with
  | some node =>
    simp only [bind_ok, lift_ok, pure_ok] at h
    obtain ⟨_, _, ⟨-, rfl⟩, -, rfl⟩ := h
    exact ⟨[], .nil _ _ _⟩
  | none =>
    simp only [bind_ok, pure_ok] at h
    obtain ⟨node, _, hcreate, -, rfl⟩ := h
    have hgood : Good subject (.create (ref.key sha256) node) :=
      .newSupport (show Label.sessionRef ∈ supportLabels by decide)
    exact ⟨_, .create (.single (createNode_trace hcreate) hgood hkey)⟩

lemma linkSessions_records (subject : Key) {origin target : SessionRef} {l : LinkWitness} {u : Unit}
    (hlink : l.key sha256 ∈ keys) (horigin : origin.key sha256 ∈ keys)
    (htarget : target.key sha256 ∈ keys) (h : linkSessions sha256 origin target l s = .ok u s') :
    ∃ ws, Records subject keys s ws s' := by
  simp only [linkSessions, bind_ok, raiseIf_ok, transaction_ok, reading_ok] at h
  obtain ⟨_, _, ⟨-, rfl⟩, found, _, ⟨-, rfl⟩, h⟩ := h
  cases found with
  | some node =>
    simp only [raiseIf_ok] at h
    obtain ⟨-, rfl⟩ := h
    exact ⟨[], .nil _ _ _⟩
  | none =>
    simp only [bind_ok] at h
    obtain ⟨_, t1, hput1, _, t2, hput2, node, t3, hcreate, _, t4, hedge1, hedge2⟩ := h
    obtain ⟨ws1, hws1⟩ := putSessionRef_records subject horigin hput1
    obtain ⟨ws2, hws2⟩ := putSessionRef_records subject htarget hput2
    have hgood : Good subject (.create (l.key sha256) node) :=
      .newSupport (show Label.sessionLink ∈ supportLabels by decide)
    have hnew : Records subject keys t2 [.create (l.key sha256) node] t3 :=
      .create (.single (createNode_trace hcreate) hgood hlink)
    exact ⟨_,
      (((hws1.append hws2).append hnew).append (.link subject hlink (by decide) hedge1)).append
      (.link subject hlink (by decide) hedge2)⟩

lemma attachSession_records (subject : Key) {work : Key} {version : Int}
    {basis : SessionBasis} {observedAt : String} {u : Unit} (hwork : work ∈ keys)
    (href : ref.key sha256 ∈ keys)
    (h : attachSession sha256 ref work version basis observedAt s = .ok u s') :
    ∃ ws, Records subject keys s ws s' := by
  simp only [attachSession, bind_ok, lift_ok, transaction_ok, reading_ok] at h
  obtain ⟨_, _, ⟨-, rfl⟩, _, _, ⟨-, rfl⟩, _, t, hput, context, _, ⟨-, rfl⟩, h⟩ := h
  obtain ⟨ws, hws⟩ := putSessionRef_records subject href hput
  split at h
  · simp only [pure_ok] at h
    obtain ⟨-, rfl⟩ := h
    exact ⟨ws, hws⟩
  · simp only [bind_ok, raiseIf_ok] at h
    obtain ⟨_, _, ⟨-, rfl⟩, hedge⟩ := h
    exact ⟨_, hws.append (.link subject hwork (by decide) hedge)⟩

lemma sessionReference_key {now : Datetime} {identity : SessionIdentity}
    (h : sessionReference authority now identity = .ok ref) :
    ref.key sha256 = (.sessionRef, identity.refId sha256) := by
  simp only [sessionReference, SessionRef.postInit, except_ok] at h
  obtain ⟨_, -, rfl⟩ := h
  rfl

lemma linkWitness_records (subject : Key) {clock : Nat → Datetime}
    {a : SessionAttach} {u : Unit} (hkeys : ∀ key ∈ a.keys sha256, key ∈ keys)
    (h : linkWitness sha256 authority clock a.link s = .ok u s') :
    ∃ ws, Records subject keys s ws s' := by
  cases hlink : a.link with
  | none =>
    rw [hlink] at h
    simp only [linkWitness, pure_ok] at h
    obtain ⟨-, rfl⟩ := h
    exact ⟨[], .nil _ _ _⟩
  | some l =>
    rw [hlink] at h
    simp only [linkWitness, bind_ok, lift_ok] at h
    obtain ⟨origin, _, ⟨horigin, rfl⟩, target, _, ⟨htarget, rfl⟩, h⟩ := h
    simp only [SessionAttach.keys, hlink, List.forall_mem_cons] at hkeys
    obtain ⟨-, hlinkKey, horiginKey, htargetKey, -⟩ := hkeys
    apply linkSessions_records subject hlinkKey _ _ h
    · rw [sessionReference_key horigin]
      exact horiginKey
    · rw [sessionReference_key htarget]
      exact htargetKey

theorem attachWork_effect {clock : Nat → Datetime} {a : SessionAttach}
    (hkind : w.kind ∈ todoKinds) (hold : Holds s w) (hkey : w.key ∈ keys)
    (hkeys : ∀ key ∈ a.keys sha256, key ∈ keys)
    (h : attachWork sha256 authority clock w a s = .ok w' s') :
    ∃ ws, Moves keys s ws s' w w' ∧ Calm ws ∧ Quiet w w' := by
  simp only [attachWork, bump, bind_ok, lift_ok, reraising_ok] at h
  obtain ⟨ref, _, ⟨href, rfl⟩, _, t, ⟨_, u, hlink, hattach⟩, hupdate⟩ := h
  obtain ⟨ws, hws⟩ := linkWitness_records w.key hkeys hlink
  have hrefKey : ref.key sha256 ∈ keys := by
    rw [sessionReference_key href]
    exact hkeys _ List.mem_cons_self
  obtain ⟨ws', hws'⟩ := attachSession_records w.key hkey hrefKey hattach
  have hall := hws.append hws'
  rcases effect_bump w.key hkind (hold.of_adds hall.toAdds) hkey hupdate with
    ⟨rfl, hvalid, hbump⟩
  exact ⟨_, moves_after hold hall.toAdds hbump rfl hvalid,
    calm_append hall.calm (calm_update _ _ _), quiet_next w _⟩

structure SetsState (id : String) (version : Int) (s : Store) (ws : List StoreWrite)
    (s' : Store) : Prop where
  effect : Effect (.sessionRef, id) [(.sessionRef, id)] s ws s'
  nodup : (nodeKeys ws).Nodup
  calm : Calm ws
  subject : (s.node? (.sessionRef, id)).isSome
  before : versionAt s (.sessionWorkState, id) = version
  after : versionAt s' (.sessionWorkState, id) = version + 1

lemma sessionWorkState_version {node : Node}
    (h : sessionWorkState refId node.properties = .ok value) :
    value.version = nodeVersion node := by
  simp only [sessionWorkState, except_ok] at h
  obtain ⟨_, -, _, hversion, h⟩ := h
  split at h
  · cases h
  · simp only [except_ok] at h
    obtain ⟨_, -, rfl⟩ := h
    change (((node.properties .version).map fun _ => intOf node.properties .version).getD
      (some 1)).getD 1 = (intOf node.properties .version).getD 1
    cases hvalue : node.properties .version with
    | none =>
      rw [intOf, hvalue]
      rfl
    | some value => rfl

lemma readState_version (h : readState s refId = .ok value) :
    value.version = versionAt s (.sessionWorkState, refId) := by
  simp only [readState, except_bind_ok] at h
  obtain ⟨found, hfound, h⟩ := h
  have hnode := getNode_ok hfound
  cases found with
  | none =>
    cases h
    exact (versionAt_absent hnode.symm).symm
  | some node =>
    rw [versionAt_node hnode.symm]
    exact sessionWorkState_version h

lemma nextSessionState_ok {version : Int} {state : SessionState}
    {now now' : Datetime}
    (h : nextSessionState sha256 s refId version state authority now now' = .ok value) :
    value.id = refId ∧ value.version = version + 1 ∧
      versionAt s (.sessionWorkState, refId) = version ∧ (s.node? (.sessionRef, refId)).isSome := by
  simp only [nextSessionState, except_bind_ok] at h
  obtain ⟨found, hfound, h⟩ := h
  rw [← getNode_ok hfound]
  cases found with
  | none => cases h
  | some node =>
    simp only [except_ok, not_not] at h
    obtain ⟨_, -, _, -, current, hread, _, hversion, _, -, _, -, _, -, rfl⟩ := h
    exact ⟨rfl, congrArg (· + 1) hversion, (readState_version hread).symm.trans hversion, rfl⟩

lemma nodeVersion_merge (props : Props) (value : SessionWorkState) (archived : Bool) :
    nodeVersion ⟨props.merge value.toNodeProperties, archived⟩ = value.version := rfl

theorem setState_effect {version : Int} {state : SessionState}
    {now now' : Datetime}
    (h : setState sha256 refId version state authority now now' s = .ok value s') :
    ∃ ws, SetsState refId version s ws s' := by
  simp only [setState, bind_ok, reading_ok, pure_ok] at h
  obtain ⟨next, _, ⟨hnext, rfl⟩, found, _, ⟨hfound, rfl⟩, node, _, hstore, rfl, rfl⟩ := h
  obtain ⟨hid, hversion, hbefore, hsubject⟩ := nextSessionState_ok hnext
  have hkey : next.key = (.sessionWorkState, refId) := by rw [SessionWorkState.key, hid]
  have howner : ownerKey (.sessionWorkState, refId) ∈ [(Label.sessionRef, refId)] :=
    List.mem_singleton_self _
  have hlabel : (Label.sessionWorkState, refId).1 ∉ canonicalWorkKinds :=
    show Label.sessionWorkState ∉ canonicalWorkKinds by decide
  rw [storeState, hkey] at hstore
  rw [hkey] at hfound
  have hnode := getNode_ok hfound
  cases found with
  | none =>
    rw [Option.isNone_none, if_pos rfl] at hstore
    obtain ⟨rfl, habsent, rfl⟩ := createNode_other hlabel hstore
    have hone : version = 1 := hbefore.symm.trans (versionAt_absent habsent)
    have hgood : Good (.sessionRef, refId)
        (.create (.sessionWorkState, refId) ⟨next.toNodeProperties, false⟩) := by
      apply Good.newState rfl
      change next.version = 2
      rw [hversion, hone]
      rfl
    refine ⟨_, .single (createNode_trace hstore) hgood howner, List.nodup_singleton _,
      (Records.create (.single (createNode_trace hstore) hgood howner)).calm, hsubject, hbefore, ?_⟩
    rw [versionAt_node (GraphStore.node?_put_self _ _ _)]
    exact hversion
  | some old =>
    rw [if_neg (by simp)] at hstore
    obtain ⟨_, hold, hprops, htrace⟩ := updateNode_other hlabel hstore
    rw [← hnode] at hold
    cases hold
    have hnode' : nodeVersion node = version + 1 := by
      rw [hprops, nodeVersion_merge]
      exact hversion
    have hgood : Good (.sessionRef, refId) (.update (.sessionWorkState, refId) old node) := by
      apply Good.state rfl
      rw [hnode', ← hbefore, versionAt_node hnode.symm]
    refine ⟨_, .single htrace hgood howner, List.nodup_singleton _, calm_update _ _ _, hsubject,
      hbefore, ?_⟩
    have hafter := htrace.node?_of_mem (List.nodup_singleton _) List.mem_cons_self rfl
    rw [versionAt_node hafter.2]
    exact hnode'

end DevGraph.Proofs
