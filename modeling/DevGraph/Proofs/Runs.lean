import DevGraph.Lib.TextSize
import DevGraph.Proofs.RequestEffects

/-!
# Runs of requests

What every store that a run reaches has in common: the nodes of canonical kinds hold valid
Work, a request writes only what it names, and no update is lost.
-/

namespace DevGraph.Proofs

open Lib Work

variable {key : Key} {events : List Event}

variable {sha256 : String → String} {s s' : Store}

/-- What a request did to the node with the given key. -/
inductive Fate (subject : Key) (s s' : Store) (key : Key) : Prop
  | kept (same : s'.node? key = s.node? key)
  | created (node : Node) (absent : s.node? key = none) (present : s'.node? key = some node)
      (good : Good subject (.create key node))
  | updated (old new : Node) (before : s.node? key = some old) (after : s'.node? key = some new)
      (good : Good subject (.update key old new))

section Outcomes

variable {r : Request} {ws : List StoreWrite}

theorem Outcome.fate (h : Outcome sha256 r s ws s') (key : Key) : Fate r.key s s' key := by
  by_cases hkey : key ∈ nodeKeys ws
  · obtain ⟨node, hmem⟩ | ⟨old, new, hmem⟩ := mem_nodeKeys.1 hkey
    · obtain ⟨habsent, hpresent⟩ := h.effect.trace.node?_of_mem h.nodup hmem rfl
      exact .created node habsent hpresent (h.effect.good _ hmem)
    · obtain ⟨hbefore, hafter⟩ := h.effect.trace.node?_of_mem h.nodup hmem rfl
      exact .updated old new hbefore hafter (h.effect.good _ hmem)
  · exact .kept (h.effect.trace.node?_of_notMem hkey)

lemma good_create_work {subject : Key} {node : Node} (hkey : key.1 ∈ canonicalWorkKinds)
    (h : Good subject (.create key node)) :
    ∃ w, Valid w ∧ w.key = key ∧ node = w.node ∧ w.version = 1 ∧ Fresh w ∧
      (w.kind ≠ .decision → w.status = .draft) := by
  cases h with
  | newWork hvalid hversion hfresh hdraft =>
    exact ⟨_, hvalid, rfl, rfl, hversion, hfresh, hdraft⟩
  | newArena => exact absurd hkey (show Label.arena ∉ canonicalWorkKinds by decide)
  | newSupport hlabel =>
    exfalso
    revert hkey hlabel
    cases key.1 <;> decide
  | newState => exact absurd hkey (show Label.sessionWorkState ∉ canonicalWorkKinds by decide)

lemma good_update_work {subject : Key} {old new : Node} (hkey : key.1 ∈ canonicalWorkKinds)
    (h : Good subject (.update key old new)) :
    ∃ w w', w.key = key ∧ old = w.node ∧ new = w'.node ∧ Valid w ∧ Valid w' ∧ Succeeds w w' ∧
      w.kind ∈ todoKinds ∧
      (w.key = subject ∨ w.archived = false ∧ ∃ now, w' = w.next now) := by
  cases h with
  | work hkind hvalid hvalid' hsucceeds hquiet =>
    exact ⟨_, _, rfl, rfl, rfl, hvalid, hvalid', hsucceeds, hkind, hquiet⟩
  | arena => exact absurd hkey (show Label.arena ∉ canonicalWorkKinds by decide)
  | state => exact absurd hkey (show Label.sessionWorkState ∉ canonicalWorkKinds by decide)

lemma good_update_version {subject : Key} {old new : Node}
    (h : Good subject (.update key old new)) : nodeVersion new = nodeVersion old + 1 := by
  cases h with
  | work _ _ _ hsucceeds => exact hsucceeds.version
  | arena _ hversion => exact hversion
  | state _ hversion => exact hversion

/-- What a request did to an object that was stored. -/
inductive Change (sha256 : String → String) (r : Request) (s s' : Store) (w w' : WorkObject) : Prop
  | kept (same : w' = w)
  | bumped (active : w.archived = false) (now : Datetime) (result : w' = w.next now)
  | moved (key : w.key = r.key) (live : w.archived = true → workPayload? r = some .restore)
      (moved : Moved sha256 (workPayload? r) s s' w w')

theorem Outcome.change {w : WorkObject} (h : Outcome sha256 r s ws s') (hold : Holds s w) :
    ∃ w', Holds s' w' ∧ w'.key = w.key ∧ Change sha256 r s s' w w' := by
  cases h.fate w.key with
  | kept hsame => exact ⟨w, ⟨hsame.trans hold.node, hold.valid⟩, rfl, .kept rfl⟩
  | created _ habsent =>
    rw [hold.node] at habsent
    cases habsent
  | updated old new hbefore hafter hgood =>
    rcases good_update_work hold.valid.kind hgood with
      ⟨w0, w', hkey, rfl, rfl, hvalid, hvalid', hsucceeds, hkind, hquiet⟩
    cases hold.unique ⟨hkey.symm ▸ hbefore, hvalid⟩ hkey
    obtain hsubject | ⟨hactive, now, rfl⟩ := hquiet
    · cases h.subject with
      | created _ _ habsent =>
        rw [← hsubject, hold.node] at habsent
        cases habsent
      | work w1 w1' hold1 hkey1 _ _ hold1' hkey1' hlive hmoved =>
        cases hold.unique hold1 (hkey1.trans hsubject.symm)
        exact ⟨w1', hold1', hkey1', .moved hsubject hlive hmoved⟩
      | arena _ a _ hakey =>
        have hlabel : Label.arena = w.kind := congrArg Prod.fst (hakey.trans hsubject.symm)
        rw [← hlabel] at hkind
        exact absurd hkind (by decide)
      | session _ _ id _ hskey =>
        have hlabel : w.kind = .sessionRef := congrArg Prod.fst (hsubject.trans hskey)
        rw [hlabel] at hkind
        exact absurd hkind (by decide)
    · exact ⟨w.next now, ⟨hafter, hvalid'⟩, rfl, .bumped hactive now rfl⟩

theorem Outcome.created {w' : WorkObject} (h : Outcome sha256 r s ws s')
    (habsent : s.node? w'.key = none) (hold' : Holds s' w') :
    Fresh w' ∧ (w'.kind ≠ .decision → w'.status = .draft) := by
  cases h.fate w'.key with
  | kept hsame =>
    rw [hold'.node, habsent] at hsame
    cases hsame
  | created node _ hpresent hgood =>
    rcases good_create_work hold'.valid.kind hgood with
      ⟨w, hvalid, hkey, rfl, -, hfresh, hdraft⟩
    cases hold'.unique ⟨hkey.symm ▸ hpresent, hvalid⟩ hkey
    exact ⟨hfresh, hdraft⟩
  | updated _ _ hbefore =>
    rw [habsent] at hbefore
    cases hbefore

theorem workNodes_outcome (hs : WorkNodes s) (h : Outcome sha256 r s ws s') : WorkNodes s' := by
  intro key node hkey hnode
  cases h.fate key with
  | kept hsame => exact hs key node hkey (hsame ▸ hnode)
  | created new habsent hpresent hgood =>
    rw [hpresent] at hnode
    cases hnode
    obtain ⟨w, hvalid, hwkey, rfl, -⟩ := good_create_work hkey hgood
    exact ⟨w, hvalid, hwkey, rfl⟩
  | updated old new hbefore hafter hgood =>
    rw [hafter] at hnode
    cases hnode
    obtain ⟨w, w', hwkey, -, rfl, -, hvalid, hsucceeds, -, -⟩ := good_update_work hkey hgood
    exact ⟨w', hvalid, hsucceeds.key.trans hwkey, rfl⟩

end Outcomes

/-- An event fails and changes nothing, or has the outcome of its request. -/
theorem step_cases (hs : WorkNodes s) (event : Event) :
    (∃ e, event.execute sha256 s = .error e s ∧ step sha256 s event = s) ∨
    ∃ x r ws, event.execute sha256 s = .ok x (step sha256 s event) ∧
      event.request sha256 = .ok r ∧ Outcome sha256 r s ws (step sha256 s event) := by
  cases hexecute : event.execute sha256 s with
  | ok x t =>
    have hstep : step sha256 s event = t := by rw [step, hexecute]; rfl
    obtain ⟨r, ws, hrequest, houtcome⟩ := execute_outcome hs hexecute
    rw [hstep]
    exact .inr ⟨x, r, ws, rfl, hrequest, houtcome⟩
  | error e t =>
    have hsame := execute_error hexecute
    subst hsame
    exact .inl ⟨e, rfl, by rw [step, hexecute]; rfl⟩

/-! ## Whole runs -/

lemma run_append (events : List Event) (event : Event) :
    run sha256 (events ++ [event]) = step sha256 (run sha256 events) event := by
  rw [run, List.foldl_append]
  rfl

theorem workNodes_run (sha256 : String → String) (events : List Event) :
    WorkNodes (run sha256 events) := by
  induction events using List.reverseRecOn with
  | nil =>
    intro key node _ hnode
    cases hnode
  | append_singleton events event ih =>
    rw [run_append]
    obtain ⟨_, -, hsame⟩ | ⟨_, _, _, -, -, houtcome⟩ := step_cases ih event
    · rw [hsame]
      exact ih
    · exact workNodes_outcome ih houtcome

/-- What holds at first and is kept by every outcome holds of every store that a run reaches. -/
theorem run_invariant {P : Store → Prop} (hempty : P GraphStore.empty)
    (hstep : ∀ s r ws s', WorkNodes s → P s → Outcome sha256 r s ws s' → P s')
    (events : List Event) : P (run sha256 events) := by
  induction events using List.reverseRecOn with
  | nil => exact hempty
  | append_singleton events event ih =>
    rw [run_append]
    have hs := workNodes_run sha256 events
    obtain ⟨_, -, hsame⟩ | ⟨_, r, ws, -, -, houtcome⟩ := step_cases hs event
    · rw [hsame]
      exact ih
    · exact hstep _ r ws _ hs ih houtcome

lemma mem_sortedResources {keys : List Key} (h : key ∈ keys) :
    resource key ∈ sortedResources keys := by
  unfold sortedResources
  rw [List.mem_insertionSort, List.mem_dedup]
  exact List.mem_map_of_mem h

/-- Every node that a request creates or changes, and the source of every edge that it adds or
removes, is among the resources that the request names. -/
theorem executed_within_resources (sha256 : String → String) (events : List Event) (event : Event)
    (x : Changed) (s' : Store) (h : event.execute sha256 (run sha256 events) = .ok x s') :
    ∃ r, event.request sha256 = .ok r ∧
      (∀ key, s'.node? key ≠ (run sha256 events).node? key →
        resource (ownerKey key) ∈ r.resources) ∧
      ∀ e, ¬ (e ∈ s'.edges ↔ e ∈ (run sha256 events).edges) → resource e.source ∈ r.resources := by
  obtain ⟨r, ws, hrequest, houtcome⟩ := execute_outcome (workNodes_run sha256 events) h
  have hwithin : ∀ x ∈ ws, resource (writeKey x) ∈ r.resources := by
    intro x hx
    rw [houtcome.resources]
    exact mem_sortedResources (houtcome.effect.within x hx)
  refine ⟨r, hrequest, ?_, ?_⟩
  · intro key hchanged
    have hkey : key ∈ nodeKeys ws := by
      by_contra hkey
      exact hchanged (houtcome.effect.trace.node?_of_notMem hkey)
    obtain ⟨node, hmem⟩ | ⟨old, new, hmem⟩ := mem_nodeKeys.1 hkey
    · simpa only [writeKey] using hwithin _ hmem
    · simpa only [writeKey] using hwithin _ hmem
  · intro e hchanged
    have hsource : ∃ x ∈ ws, x.edgeSource? = some e.source := by
      by_contra hnone
      apply hchanged
      rw [houtcome.effect.trace.mem_edges_iff]
      exact edgeAfter_of_avoids fun x hx => .inr fun heq => hnone ⟨x, hx, heq⟩
    obtain ⟨x, hx, heq⟩ := hsource
    have hkey : writeKey x = e.source := by
      cases x with
      | create => cases heq
      | update => cases heq
      | link e' => exact Option.some.inj heq
      | unlink a r b => exact Option.some.inj heq
    exact hkey ▸ hwithin x hx

lemma execute_work {raw : ByteArray} {r : WorkRequest} (authority : Authority)
    (clock : Nat → Datetime) (h : WorkRequest.fromJson sha256 raw = .ok r) :
    Event.execute sha256 (.work raw authority clock) =
      transaction (executeParsed sha256 authority clock r) := by
  have hagain := (workRequest_accepted h).2
  change (lift (WorkRequest.fromJson sha256 raw) >>= NamedWorkMutations.execute sha256 authority
    clock) = _
  rw [h]
  change (lift (WorkRequest.fromJson sha256 r.canonical) >>= fun r =>
    transaction (executeParsed sha256 authority clock r)) = _
  rw [hagain]
  rfl

def noon : Datetime := ⟨2024, 1, 1, 12, 0, 0, 0, 0, by decide⟩

def shortEvent : Event := .work (canonicalJson (.obj shortRequest)) ⟨"a", "b", "c"⟩ fun _ => noon

def returned {α : Type} : EStateM.Result Error Store α → Bool
  | .ok _ _ => true
  | .error _ _ => false

lemma exists_of_returned {α : Type} {x : EStateM.Result Error Store α} (h : returned x = true) :
    ∃ a t, x = .ok a t := by
  cases x with
  | ok a t => exact ⟨a, t, rfl⟩
  | error e t => cases h

lemma execute_shortEvent : ∃ x t, shortEvent.execute id GraphStore.empty = .ok x t := by
  rw [shortEvent, execute_work _ _ (fromJson_shortRequest id)]
  exact exists_of_returned (by decide +kernel)

theorem executed_within_resources_short :
    ∃ x s' r, shortEvent.execute id (run id []) = .ok x s' ∧ shortEvent.request id = .ok r ∧
      ∀ key, s'.node? key ≠ (run id []).node? key → resource (ownerKey key) ∈ r.resources := by
  obtain ⟨x, s', h⟩ := execute_shortEvent
  obtain ⟨r, hrequest, hnodes, -⟩ := executed_within_resources id [] shortEvent x s' h
  exact ⟨x, s', r, h, hrequest, hnodes⟩

/-! ## Versions -/

/-- The key whose node carries the version of a subject. -/
def versionKey (key : Key) : Key :=
  if key.1 = .sessionRef then (.sessionWorkState, key.2) else key

/-- The event with the given number succeeds with the given request. -/
def Executed (sha256 : String → String) (events : List Event) (n : Nat) (r : Request) : Prop :=
  ∃ event x, events[n]? = some event ∧ event.request sha256 = .ok r ∧
    event.execute sha256 (storeAt sha256 events n) = .ok x (storeAt sha256 events (n + 1))

variable {n : Nat}

lemma storeAt_succ {event : Event} (h : events[n]? = some event) :
    storeAt sha256 events (n + 1) = step sha256 (storeAt sha256 events n) event := by
  rw [storeAt, List.take_add_one, h]
  exact run_append _ _

lemma storeAt_of_none (h : events[n]? = none) :
    storeAt sha256 events (n + 1) = storeAt sha256 events n := by
  rw [storeAt, List.take_add_one, h, Option.toList_none, List.append_nil]
  rfl

/-! ## Requests sent as their canonical bytes -/

def asked (kind : Label) (version : Option Int) (p : Payload) : WorkRequest :=
  Envelope.request id ⟨.v2, p.operation, kind, "a", version, p.toJson⟩ p

lemma asked_key (kind : Label) (version : Option Int) (p : Payload) :
    (asked kind version p).key = (kind, "a") := rfl

def sendable (kind : Label) (version : Option Int) (p : Payload) : Bool :=
  (Envelope.mk .v2 p.operation kind "a" version p.toJson).admissible && p.admissible kind "a" &&
    kind ∈ subjectKinds && version.all strictJson.int &&
    Payload.ofJson p.operation p.toJson = some p &&
    weight Char.utf8Size ((materialized .v2 kind "a" version p).sortKeys.print false) ≤ 65536

lemma fromJson_asked {kind : Label} {version : Option Int} {p : Payload}
    (hints : p.toJson.IntsIn SafeInt) (h : sendable kind version p = true) :
    WorkRequest.fromJson id (asked kind version p).canonical = .ok (asked kind version p) := by
  simp only [sendable, Bool.and_eq_true, decide_eq_true_eq] at h
  obtain ⟨⟨⟨⟨⟨hadmissible, hfits⟩, hkind⟩, hversion⟩, hread⟩, hsize⟩ := h
  have hversion : (Json.ofNullable Json.int version).IntsIn SafeInt := by
    cases version with
    | none => trivial
    | some n => exact hversion
  have hprinted := codec_version hversion (asNullable_ofNullable (fun _ _ => rfl) nofun)
  have hcontract : (workContract id).canonical = WorkRequest.canonical := rfl
  have hrequest : (workContract id).request ⟨.v2, p.operation, kind, "a", version, p.toJson⟩ p =
      asked kind version p := rfl
  have hbytes : (asked kind version p).canonical =
      (String.ofList ((materialized .v2 kind "a" version p).sortKeys.print false)).toUTF8 := by
    simp only [asked, Envelope.request, canonicalJson, dumps]
  rw [← size_ofList, ← hbytes, ← hrequest, ← hcontract] at hsize
  have hprints : (workContract id).Prints ⟨.v2, p.operation, kind, "a", version, p.toJson⟩ p :=
    work_printed hkind hprinted (codec_payload _ hints hread) hadmissible hfits hsize
  have hback := (workContract id).read_printed hprints hsize
  rw [hrequest, hcontract] at hback
  rw [work_read]
  exact hback

def sent (r : WorkRequest) : Event := .work r.canonical ⟨"a", "b", "c"⟩ fun _ => noon

def applied (s : Store) (r : WorkRequest) : EStateM.Result Error Store Changed :=
  transaction (executeParsed id ⟨"a", "b", "c"⟩ (fun _ => noon) r) s

def Readable (rs : List WorkRequest) : Prop :=
  ∀ r ∈ rs, WorkRequest.fromJson id r.canonical = .ok r

lemma storeAt_sent {rs : List WorkRequest} (h : Readable rs) (n : Nat) :
    storeAt id (rs.map sent) n =
      (rs.take n).foldl (fun s r => storeAfter (applied s r)) GraphStore.empty := by
  rw [storeAt, ← List.map_take, run, List.foldl_map]
  apply List.foldl_ext
  intro s r hr
  rw [step, sent, execute_work _ _ (h r (List.mem_of_mem_take hr)), applied]

lemma executed_sent {rs : List WorkRequest} {r : WorkRequest} (h : Readable rs)
    (hn : rs[n]? = some r) (hok : returned (applied (storeAt id (rs.map sent) n) r) = true) :
    Executed id (rs.map sent) n (.work r) := by
  have hread := h r (List.mem_of_getElem? hn)
  have hevent : (rs.map sent)[n]? = some (sent r) := by rw [List.getElem?_map, hn, Option.map_some]
  have hexecute : (sent r).execute id (storeAt id (rs.map sent) n) =
      applied (storeAt id (rs.map sent) n) r := by
    rw [sent, execute_work _ _ hread, applied]
  obtain ⟨x, t, hx⟩ := exists_of_returned hok
  refine ⟨sent r, x, hevent, ?_, ?_⟩
  · rw [sent, Event.request, hread]
    rfl
  · rw [storeAt_succ hevent, step, hexecute, hx]
    rfl

lemma workNodes_storeAt (sha256 : String → String) (events : List Event) (n : Nat) :
    WorkNodes (storeAt sha256 events n) := workNodes_run sha256 _

theorem storeAt_cases (sha256 : String → String) (events : List Event) (n : Nat) :
    storeAt sha256 events (n + 1) = storeAt sha256 events n ∨
    ∃ r ws, Executed sha256 events n r ∧
      Outcome sha256 r (storeAt sha256 events n) ws (storeAt sha256 events (n + 1)) := by
  cases hevent : events[n]? with
  | none => exact .inl (storeAt_of_none hevent)
  | some event =>
    rw [storeAt_succ hevent]
    rcases step_cases (workNodes_storeAt sha256 events n) event with
      ⟨_, -, hsame⟩ | ⟨x, r, ws, hexecute, hrequest, houtcome⟩
    · exact .inl hsame
    · exact .inr ⟨r, ws, ⟨event, x, hevent, hrequest, by rw [storeAt_succ hevent]; exact hexecute⟩,
        houtcome⟩

lemma executed_outcome {r : Request} (h : Executed sha256 events n r) :
    ∃ ws, Outcome sha256 r (storeAt sha256 events n) ws (storeAt sha256 events (n + 1)) := by
  obtain ⟨event, x, -, hrequest, hexecute⟩ := h
  rcases execute_outcome (workNodes_storeAt sha256 events n) hexecute with
    ⟨r', ws, hrequest', houtcome⟩
  rw [hrequest] at hrequest'
  cases hrequest'
  exact ⟨ws, houtcome⟩

lemma executed_moved {r : WorkRequest}
    (h : Executed sha256 events n (.work r)) (hcreate : ∀ c, r.payload ≠ .create c)
    (hstate : ∀ state, r.payload ≠ .sessionState state) :
    ∃ w w', Holds (storeAt sha256 events n) w ∧ w.key = r.key ∧
      Holds (storeAt sha256 events (n + 1)) w' ∧ w'.key = r.key ∧
      Moved sha256 (some r.payload) (storeAt sha256 events n) (storeAt sha256 events (n + 1)) w
        w' := by
  obtain ⟨ws, houtcome⟩ := executed_outcome h
  cases houtcome.subject with
  | created hrequest =>
    obtain ⟨c, hc⟩ := hrequest r.payload rfl
    exact absurd hc (hcreate c)
  | work w w' hold hkey _ _ hold' hkey' _ hmoved =>
    exact ⟨w, w', hold, hkey, hold', hkey'.trans hkey, hmoved⟩
  | arena hrequest => cases hrequest
  | session state hrequest => exact absurd (Option.some.inj hrequest) (hstate state)

/-- The version of a key that can be the subject of a request never goes back. -/
lemma versionAt_mono_outcome {r : Request} {ws : List StoreWrite}
    (h : Outcome sha256 r s ws s') (hkey : key.1 ∉ supportLabels) :
    versionAt s key ≤ versionAt s' key := by
  cases h.fate key with
  | kept hsame => rw [versionAt, versionAt, hsame]
  | created node habsent hpresent hgood =>
    rw [versionAt_absent habsent, versionAt_node hpresent]
    cases hgood with
    | newWork _ hversion => exact hversion.ge
    | newArena hversion => exact hversion.ge
    | newSupport hlabel => exact absurd hlabel hkey
    | newState _ hversion =>
      rw [hversion]
      decide
  | updated old new hbefore hafter hgood =>
    rw [versionAt_node hbefore, versionAt_node hafter, good_update_version hgood]
    omega

lemma versionAt_mono (sha256 : String → String) (events : List Event) (hkey : key.1 ∉ supportLabels)
    {i j : Nat} (hij : i ≤ j) :
    versionAt (storeAt sha256 events i) key ≤ versionAt (storeAt sha256 events j) key := by
  induction hij with
  | refl => exact Int.le_refl _
  | @step j _ ih =>
    obtain hsame | ⟨r, ws, -, houtcome⟩ := storeAt_cases sha256 events j
    · rw [Nat.succ_eq_add_one, hsame]
      exact ih
    · exact ih.trans (versionAt_mono_outcome houtcome hkey)

/-- The subject of a request other than a creation is there, at the version that the request
expects, and goes to the next one. -/
lemma subject_version {r : Request} {ws : List StoreWrite} {version : Int}
    (h : Outcome sha256 r s ws s') (hversion : r.expectedVersion = some version) :
    (s.node? r.key).isSome ∧ versionAt s (versionKey r.key) = version ∧
      versionAt s' (versionKey r.key) = version + 1 ∧ (versionKey r.key).1 ∉ supportLabels := by
  cases h.subject with
  | created _ hnone _ =>
    rw [hnone] at hversion
    cases hversion
  | work w w' hold hkey hexpected hupdate =>
    have hkind : w.key.1 ≠ .sessionRef ∧ w.key.1 ∉ supportLabels := by
      have hcanonical := hold.valid.kind
      revert hcanonical
      change w.kind ∈ _ → w.kind ≠ _ ∧ w.kind ∉ _
      cases w.kind <;> decide
    rw [hversion] at hexpected
    cases hexpected
    rw [← hkey, versionKey, if_neg hkind.1]
    obtain ⟨hbefore, hafter⟩ := h.effect.trace.node?_of_mem h.nodup hupdate rfl
    have hnext := good_update_version (h.effect.good _ hupdate)
    exact ⟨Option.isSome_iff_exists.2 ⟨_, hbefore⟩, versionAt_node hbefore,
      (versionAt_node hafter).trans hnext, hkind.2⟩
  | arena _ a a' hkey hexpected hupdate =>
    rw [hversion] at hexpected
    cases hexpected
    have hlabel : a.key.1 ≠ .sessionRef := show Label.arena ≠ .sessionRef by decide
    rw [← hkey, versionKey, if_neg hlabel]
    obtain ⟨hbefore, hafter⟩ := h.effect.trace.node?_of_mem h.nodup hupdate rfl
    have hnext := good_update_version (h.effect.good _ hupdate)
    exact ⟨Option.isSome_iff_exists.2 ⟨_, hbefore⟩, versionAt_node hbefore,
      (versionAt_node hafter).trans hnext, show Label.arena ∉ supportLabels by decide⟩
  | session _ _ id v hkey hexpected hsets =>
    rw [hversion] at hexpected
    cases hexpected
    rw [hkey]
    exact ⟨hsets.subject, hsets.before, hsets.after, show Label.sessionWorkState ∉ _ by decide⟩

/-- No update is lost: a request moves its subject from the version that it expects to the next
one, other items keep theirs or go to the next one, no two requests on one subject expect the
same version, and a request that fails changes nothing. -/
theorem no_lost_update (sha256 : String → String) (events : List Event) :
    (∀ n r version, Executed sha256 events n r → r.expectedVersion = some version →
      ((storeAt sha256 events n).node? r.key).isSome ∧
        versionAt (storeAt sha256 events n) (versionKey r.key) = version ∧
        versionAt (storeAt sha256 events (n + 1)) (versionKey r.key) = version + 1) ∧
    (∀ n key node, key.1 ∈ canonicalWorkKinds ∨ key.1 = .arena →
      (storeAt sha256 events n).node? key = some node →
      (storeAt sha256 events (n + 1)).node? key = some node ∨
        ∃ node', (storeAt sha256 events (n + 1)).node? key = some node' ∧
          nodeVersion node' = nodeVersion node + 1) ∧
    (∀ i j r r' version, Executed sha256 events i r → Executed sha256 events j r' →
      r.key = r'.key → r.expectedVersion = some version → r'.expectedVersion = some version →
      i = j) ∧
    ∀ n event e s', events[n]? = some event →
      event.execute sha256 (storeAt sha256 events n) = .error e s' →
      s' = storeAt sha256 events n ∧ storeAt sha256 events (n + 1) = storeAt sha256 events n := by
  refine ⟨?_, ?_, ?_, ?_⟩
  · intro n r version hexecuted hversion
    obtain ⟨ws, houtcome⟩ := executed_outcome hexecuted
    have hsubject := subject_version houtcome hversion
    exact ⟨hsubject.1, hsubject.2.1, hsubject.2.2.1⟩
  · intro n key node _ hnode
    obtain hsame | ⟨r, ws, -, houtcome⟩ := storeAt_cases sha256 events n
    · exact .inl (hsame ▸ hnode)
    · cases houtcome.fate key with
      | kept hsame => exact .inl (hsame.trans hnode)
      | created _ habsent =>
        rw [habsent] at hnode
        cases hnode
      | updated old new hbefore hafter hgood =>
        rw [hbefore] at hnode
        cases hnode
        exact .inr ⟨new, hafter, good_update_version hgood⟩
  · have hlt : ∀ i j r r' version, Executed sha256 events i r → Executed sha256 events j r' →
        r.key = r'.key → r.expectedVersion = some version → r'.expectedVersion = some version →
        ¬ i < j := by
      intro i j r r' version hi hj hkey hversion hversion' hij
      obtain ⟨ws, houtcome⟩ := executed_outcome hi
      obtain ⟨ws', houtcome'⟩ := executed_outcome hj
      have hfirst := subject_version houtcome hversion
      have hsecond := subject_version houtcome' hversion'
      have hmono := versionAt_mono sha256 events hfirst.2.2.2 (Nat.succ_le_of_lt hij)
      rw [hfirst.2.2.1, hkey, hsecond.2.1] at hmono
      omega
    intro i j r r' version hi hj hkey hversion hversion'
    obtain hij | hij | hij := Nat.lt_trichotomy i j
    · exact absurd hij (hlt i j r r' version hi hj hkey hversion hversion')
    · exact hij
    · exact absurd hij (hlt j i r' r version hj hi hkey.symm hversion' hversion)
  · intro n event e s' hevent herror
    have hsame := execute_error herror
    refine ⟨hsame, ?_⟩
    rw [storeAt_succ hevent, step, herror]
    exact hsame

/-- The properties of stored Work agree with each other, and every read of it succeeds. -/
structure Consistent (s : Store) : Prop where
  workflow : ∀ key node raw, key.1 ∈ canonicalWorkKinds → s.node? key = some node →
    strOf node.properties .workflowJson = some raw → ∃ state progress,
      decodeState raw = .ok state ∧ stageProgress state.workflowId state.stage = .ok progress ∧
      node.properties .progress = some (.str progress.name) ∧
      (state.stage = .blockedWaitingInput ↔ state.resumeStage.isSome)
  todo : ∀ id node, s.node? (.todo, id) = some node → node.properties .workflowJson = none
  validates : ∀ key node allowUnknown, key.1 ∈ canonicalWorkKinds → s.node? key = some node →
    ∃ props, validateCanonicalWorkObjectProperties key node.properties node.archived
      allowUnknown = .ok props
  reads : ∀ key node, key.1 ∈ canonicalWorkKinds → s.node? key = some node →
    ∃ w, fromNode key node = .ok w
  inspects : inspectCanonicalPersistence s = .ok ()

lemma node_entry {node : Node} (h : Sigma.mk key node ∈ s.nodes.entries) :
    s.node? key = some node := by
  rw [GraphStore.node?, AList.lookup, ← Option.mem_def, List.mem_dlookup_iff s.nodes.nodupKeys]
  exact h

theorem run_consistent (sha256 : String → String) (events : List Event) :
    Consistent (run sha256 events) := by
  have hs := workNodes_run sha256 events
  constructor
  · intro key node raw hkey hnode hraw
    obtain ⟨w, hvalid, rfl, rfl⟩ := hs key node hkey hnode
    have hworkflow : w.workflowJson = some raw := by
      rw [← hraw]
      cases hcase : w.workflowJson with
      | none => simp [strOf, WorkObject.node, WorkObject.toNodeProperties, hcase]
      | some text => simp [strOf, WorkObject.node, WorkObject.toNodeProperties, hcase]
    have hflow : w.kind ∈ workKinds := by
      by_contra hflow
      by_cases htodo : w.kind = .todo
      · rw [(hvalid.progressed.todo htodo).1] at hworkflow
        cases hworkflow
      · have hother : w.kind ∉ todoKinds := fun h => (todoKinds_iff.1 h).elim htodo hflow
        rw [(hvalid.progressed.other hother).1] at hworkflow
        cases hworkflow
    obtain ⟨state, progress, ⟨raw', hraw', hdecode⟩, hstage, hp⟩ := hvalid.progressed.flow hflow
    rw [hworkflow] at hraw'
    cases hraw'
    refine ⟨state, progress, hdecode, hstage, ?_, ?_⟩
    · have htodo : w.kind ∈ todoKinds := todoKinds_iff.2 (.inr hflow)
      simp [WorkObject.node, WorkObject.toNodeProperties, htodo, hp]
    · have hstate := decodeState_valid hdecode
      simp only [WorkflowState.valid, Bool.and_eq_true, beq_iff_eq] at hstate
      have hblocked := hstate.1.1.1.2
      rw [← hblocked, decide_eq_true_eq]
  · intro id node hnode
    rcases hs _ node (show Label.todo ∈ canonicalWorkKinds by decide) hnode with
      ⟨w, hvalid, hkey, rfl⟩
    have hnone := (hvalid.progressed.todo (congrArg Prod.fst hkey)).1
    simp [WorkObject.node, WorkObject.toNodeProperties, hnone]
  · intro key node allowUnknown hkey hnode
    obtain ⟨w, hvalid, rfl, rfl⟩ := hs key node hkey hnode
    exact ⟨_, validate_work hvalid allowUnknown⟩
  · intro key node hkey hnode
    obtain ⟨w, hvalid, rfl, rfl⟩ := hs key node hkey hnode
    exact ⟨w, fromNode_work hvalid⟩
  · rw [inspectCanonicalPersistence, raiseIf_eq_ok]
    rintro ⟨⟨key, node⟩, hentry, hkey, hbad⟩
    obtain ⟨w, hvalid, rfl, rfl⟩ := hs key node hkey (node_entry hentry)
    obtain hkind | hinvalid := hbad
    · exact hkind rfl
    · have hok := validate_work hvalid true
      change Except.isOk (validateCanonicalWorkObjectProperties w.key w.toNodeProperties w.archived
        true) = false at hinvalid
      rw [hok] at hinvalid
      cases hinvalid

/-! ## What stays -/

def changing : List Label := todoKinds ++ [.arena, .sessionWorkState]

def deciding : List Relationship := [.acceptedByDecision, .rejectedByDecision, .hasWorkflowDecision]

/-- Nothing goes away, records stay as they are, and Work keeps the time of its creation. -/
structure Endures (s s' : Store) : Prop where
  nodes : ∀ key node, s.node? key = some node → ∃ node', s'.node? key = some node' ∧
    (key.1 ∉ changing → node' = node) ∧ (key.1 ∈ canonicalWorkKinds →
      node'.properties .createdAt = node.properties .createdAt)
  edges : ∀ e ∈ s.edges, e.relationship ∈ deciding → e ∈ s'.edges

lemma Endures.refl (s : Store) : Endures s s :=
  ⟨fun _ node hnode => ⟨node, hnode, fun _ => rfl, fun _ => rfl⟩, fun _ he _ => he⟩

lemma Endures.trans {s'' : Store} (h : Endures s s') (h' : Endures s' s'') : Endures s s'' where
  nodes key node hnode := by
    obtain ⟨node', hnode', hsame, hcreated⟩ := h.nodes key node hnode
    obtain ⟨node'', hnode'', hsame', hcreated'⟩ := h'.nodes key node' hnode'
    exact ⟨node'', hnode'', fun hkey => (hsame' hkey).trans (hsame hkey),
      fun hkey => (hcreated' hkey).trans (hcreated hkey)⟩
  edges e he hdeciding := h'.edges e (h.edges e he hdeciding) hdeciding

lemma Outcome.endures {r : Request} {ws : List StoreWrite} (h : Outcome sha256 r s ws s') :
    Endures s s' := by
  constructor
  · intro key node hnode
    cases h.fate key with
    | kept hsame => exact ⟨node, hsame.trans hnode, fun _ => rfl, fun _ => rfl⟩
    | created _ habsent =>
      rw [hnode] at habsent
      cases habsent
    | updated old new hbefore hafter hgood =>
      rw [hbefore] at hnode
      cases hnode
      refine ⟨new, hafter, fun hkey => ?_, fun hkey => ?_⟩
      · cases hgood with
        | work hkind => exact absurd (List.mem_append_left _ hkind) hkey
        | arena => exact absurd (show Label.arena ∈ changing by decide) hkey
        | state => exact absurd (show Label.sessionWorkState ∈ changing by decide) hkey
      · obtain ⟨w, w', -, rfl, rfl, -, -, hsucceeds, -⟩ := good_update_work hkey hgood
        change some _ = some _
        rw [hsucceeds.createdAt]
  · intro e he hdeciding
    have hne : e.relationship ∈ structural ∧ e.relationship ∉
        [Relationship.hasChild, .containsWork, .dependsOn, .blocks] := by
      revert hdeciding
      cases e.relationship <;> decide
    simp only [List.mem_cons, List.not_mem_nil, or_false, not_or] at hne
    cases h.reshape with
    | calm hsame => exact (hsame _ hne.1 e rfl).2 he
    | decided e' hdecides => exact (hdecides.after e hne.1).2 (.inl he)
    | parent _ _ _ _ _ _ _ _ hsame => exact (hsame _ hne.1 hne.2.1 hne.2.2.1 e rfl).2 he
    | member _ _ _ _ _ _ hsame => exact (hsame _ hne.1 hne.2.2.1 e rfl).2 he
    | order r _ _ _ _ _ _ hsame hordering =>
      refine (hsame _ hne.1 ?_ e rfl).2 he
      rintro rfl
      exact hordering.elim hne.2.2.2.1 hne.2.2.2.2

theorem run_permanent (sha256 : String → String) (events : List Event) (i n : Nat) :
    Endures (storeAt sha256 events i) (storeAt sha256 events (i + n)) := by
  induction n with
  | zero => exact .refl _
  | succ n ih =>
    obtain hsame | ⟨r, ws, -, houtcome⟩ := storeAt_cases sha256 events (i + n)
    · rw [← Nat.add_assoc, hsame]
      exact ih
    · exact ih.trans houtcome.endures

end DevGraph.Proofs
