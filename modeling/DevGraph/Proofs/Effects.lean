import DevGraph.Proofs.StorageWrites
import DevGraph.Work.Mutations

/-!
# The effect of a request

What the writes of a request have in common: every node that holds Work or an Arena goes to its next
version, only a subject's workflow moves, and nothing is written outside the named resources.
-/

namespace DevGraph.Proofs

open Lib Work

variable {e : EdgeRecord}

def nodeVersion (node : Node) : Int := (intOf node.properties .version).getD 1

@[simp] lemma nodeVersion_work (w : WorkObject) : nodeVersion w.node = w.version := rfl

/-- The version of a key, where a session whose state was never set counts as version one. -/
def versionAt (s : Store) (key : Key) : Int := ((s.node? key).map nodeVersion).getD 1

lemma versionAt_node {s : Store} {key : Key} {node : Node} (h : s.node? key = some node) :
    versionAt s key = nodeVersion node := by
  rw [versionAt, h]
  rfl

lemma versionAt_absent {s : Store} {key : Key} (h : s.node? key = none) : versionAt s key = 1 := by
  rw [versionAt, h]
  rfl

/-- A new item starts where its workflow starts, with no review. -/
def Fresh (w : WorkObject) : Prop :=
  ∀ state, Carries w state → state = newState (defaultWorkflow w.kind) .backlog

def supportLabels : List Label := [.externalLink, .sessionRef, .sessionLink]

inductive Good (subject : Key) : StoreWrite → Prop
  | newWork {w : WorkObject} (valid : Valid w) (version : w.version = 1) (fresh : Fresh w)
      (draft : w.kind ≠ .decision → w.status = .draft) : Good subject (.create w.key w.node)
  | newArena {a : Arena} (version : a.version = 1) : Good subject (.create a.key a.node)
  | newSupport {key : Key} {node : Node} (label : key.1 ∈ supportLabels) :
    Good subject (.create key node)
  | newState {id : String} {node : Node} (isSubject : subject = (.sessionRef, id))
      (version : nodeVersion node = 2) : Good subject (.create (.sessionWorkState, id) node)
  | work {w w' : WorkObject} (kind : w.kind ∈ todoKinds) (valid : Valid w) (valid' : Valid w')
      (succeeds : Succeeds w w')
      (quiet : w.key = subject ∨ w.archived = false ∧ ∃ now, w' = w.next now) :
    Good subject (.update w.key w.node w'.node)
  | arena {a a' : Arena} (id : a'.id = a.id) (version : a'.version = a.version + 1) :
    Good subject (.update a.key a.node a'.node)
  | state {id : String} {old new : Node} (isSubject : subject = (.sessionRef, id))
      (version : nodeVersion new = nodeVersion old + 1) :
    Good subject (.update (.sessionWorkState, id) old new)
  | link (e : EdgeRecord) : Good subject (.link e)
  | unlink (a : Key) (r : Relationship) (b : Key) : Good subject (.unlink a r b)

/-- A session state belongs to the reference of its session. -/
def ownerKey (key : Key) : Key := if key.1 = .sessionWorkState then (.sessionRef, key.2) else key

def writeKey : StoreWrite → Key
  | .create key _ => ownerKey key
  | .update key _ _ => ownerKey key
  | .link e => e.source
  | .unlink a _ _ => a

def dispositions : List Relationship := [.acceptedByDecision, .rejectedByDecision]

/-- The relationships that place Work in the hierarchy, order it and decide on it. -/
def structural : List Relationship :=
  [.hasChild, .containsWork, .dependsOn, .blocks, .acceptedByDecision, .rejectedByDecision,
    .hasWorkflowDecision]

def Calm (ws : List StoreWrite) : Prop := ∀ x ∈ ws, ∀ r ∈ structural, x.avoids r

/-- The writes lead from one store to the other, are good, and need only the given keys. -/
structure Effect (subject : Key) (keys : List Key) (s : Store) (ws : List StoreWrite)
    (s' : Store) : Prop where
  trace : Trace s ws s'
  good : ∀ x ∈ ws, Good subject x
  within : ∀ x ∈ ws, writeKey x ∈ keys

section Effects

variable {subject : Key} {keys : List Key} {s t u : Store} {ws ws' : List StoreWrite}

lemma Effect.nil (subject : Key) (keys : List Key) (s : Store) : Effect subject keys s [] s :=
  ⟨.nil s, by simp, by simp⟩

lemma Effect.append (h : Effect subject keys s ws t) (h' : Effect subject keys t ws' u) :
    Effect subject keys s (ws ++ ws') u where
  trace := h.trace.append h'.trace
  good := List.forall_mem_append.2 ⟨h.good, h'.good⟩
  within := List.forall_mem_append.2 ⟨h.within, h'.within⟩

lemma Effect.single {x : StoreWrite} (htrace : Trace s [x] t) (hgood : Good subject x)
    (hwithin : writeKey x ∈ keys) : Effect subject keys s [x] t :=
  ⟨htrace, by simpa using hgood, by simpa using hwithin⟩

lemma calm_append (h : Calm ws) (h' : Calm ws') : Calm (ws ++ ws') :=
  List.forall_mem_append.2 ⟨h, h'⟩

lemma calm_nodes (h : ∀ x ∈ ws, x.edgeSource? = none) : Calm ws := by
  intro x hx r _
  have hnone := h x hx
  cases x with
  | create => trivial
  | update => trivial
  | link => cases hnone
  | unlink => cases hnone

lemma calm_link (h : e.relationship ∉ structural) : Calm [.link e] := by
  intro x hx r hr
  rw [List.mem_singleton.1 hx]
  exact fun heq => h (heq ▸ hr)

lemma calm_around (hbefore : Calm ws) (hafter : Calm ws') (h : e.relationship ∉ structural) :
    Calm (ws ++ .link e :: ws') :=
  calm_append hbefore (calm_append (calm_link h) hafter)

lemma Holds.of_trace {w : WorkObject} (hold : Holds s w) (htrace : Trace s ws t)
    (hkey : w.key ∉ nodeKeys ws) : Holds t w :=
  ⟨(htrace.node?_of_notMem hkey).trans hold.node, hold.valid⟩

lemma ownerKey_work {key : Key} (hkey : key.1 ∈ canonicalWorkKinds) : ownerKey key = key := by
  unfold ownerKey
  rw [if_neg]
  intro h
  rw [h] at hkey
  exact absurd hkey (by decide)

variable {w w' : WorkObject}

lemma effect_create (subject : Key) (hw : Valid w) (hversion : w.version = 1) (hfresh : Fresh w)
    (hdraft : w.kind ≠ .decision → w.status = .draft) (hkey : w.key ∈ keys)
    (htrace : Trace s [.create w.key w.node] t) :
    Effect subject keys s [.create w.key w.node] t :=
  .single htrace (.newWork hw hversion hfresh hdraft)
    (by rw [writeKey, ownerKey_work hw.kind]; exact hkey)

lemma effect_update (hkind : w.kind ∈ todoKinds) (hw : Valid w) (hw' : Valid w')
    (hsucceeds : Succeeds w w')
    (hquiet : w.key = subject ∨ w.archived = false ∧ ∃ now, w' = w.next now) (hkey : w.key ∈ keys)
    (htrace : Trace s [.update w.key w.node w'.node] t) :
    Effect subject keys s [.update w.key w.node w'.node] t :=
  .single htrace (.work hkind hw hw' hsucceeds hquiet)
    (by rw [writeKey, ownerKey_work hw.kind]; exact hkey)

lemma effect_bump (subject : Key) {v : Int} {now : Datetime} (hkind : w.kind ∈ todoKinds)
    (hold : Holds s w) (hkey : w.key ∈ keys) (h : Repository.update w v now s = .ok w' t) :
    w' = w.next now ∧ Valid (w.next now) ∧
      Effect subject keys s [.update w.key w.node (w.next now).node] t := by
  obtain ⟨hactive, hnext, hvalid, htrace⟩ := update_trace hold h
  exact ⟨hnext, hvalid, effect_update hkind hold.valid hvalid (succeeds_next w now)
    (.inr ⟨hactive, now, rfl⟩) hkey htrace⟩

lemma effect_link (subject : Key) {v : Unit} (hkey : e.source ∈ keys)
    (h : createEdge e s = .ok v t) : Effect subject keys s [.link e] t :=
  .single (createEdge_trace h) (.link e) hkey

/-- The effect of writes that only add. -/
structure Adds (subject : Key) (keys : List Key) (s : Store) (ws : List StoreWrite)
    (s' : Store) : Prop extends Effect subject keys s ws s' where
  adds : ∀ x ∈ ws, x.adds

lemma Adds.append (h : Adds subject keys s ws t) (h' : Adds subject keys t ws' u) :
    Adds subject keys s (ws ++ ws') u :=
  ⟨h.toEffect.append h'.toEffect, List.forall_mem_append.2 ⟨h.adds, h'.adds⟩⟩

lemma Adds.link (subject : Key) {v : Unit} (hkey : e.source ∈ keys) (h : createEdge e s = .ok v t) :
    Adds subject keys s [.link e] t := by
  refine ⟨effect_link subject hkey h, ?_⟩
  intro x hx
  rw [List.mem_singleton.1 hx]
  trivial

lemma Adds.nodup (h : Adds subject keys s ws t) : (nodeKeys ws).Nodup :=
  (h.trace.absent_of_adds h.adds).1

lemma Adds.absent (h : Adds subject keys s ws t) {key : Key} (hkey : key ∈ nodeKeys ws) :
    s.node? key = none := (h.trace.absent_of_adds h.adds).2 key hkey

lemma Holds.notMem_adds (hold : Holds s w) (h : Adds subject keys s ws t) :
    w.key ∉ nodeKeys ws := by
  intro hmem
  have hnone := h.absent hmem
  rw [hold.node] at hnone
  cases hnone

lemma Holds.of_adds (hold : Holds s w) (h : Adds subject keys s ws t) : Holds t w :=
  hold.of_trace h.trace (hold.notMem_adds h)

/-- The effect of recording new nodes next to the ones that are there. -/
structure Records (subject : Key) (keys : List Key) (s : Store) (ws : List StoreWrite)
    (s' : Store) : Prop extends Adds subject keys s ws s' where
  calm : Calm ws

lemma Records.nil (subject : Key) (keys : List Key) (s : Store) : Records subject keys s [] s :=
  ⟨⟨.nil _ _ _, by simp⟩, by simp [Calm]⟩

lemma Records.append (h : Records subject keys s ws t) (h' : Records subject keys t ws' u) :
    Records subject keys s (ws ++ ws') u :=
  ⟨h.toAdds.append h'.toAdds, calm_append h.calm h'.calm⟩

lemma Records.create {key : Key} {node : Node}
    (h : Effect subject keys s [.create key node] t) :
    Records subject keys s [.create key node] t := by
  refine ⟨⟨h, ?_⟩, ?_⟩
  · intro x hx
    rw [List.mem_singleton.1 hx]
    trivial
  · exact calm_nodes fun x hx => by rw [List.mem_singleton.1 hx]; rfl

lemma Records.link (subject : Key) {a b : Key} {r : Relationship} {props : Props} {v : Unit}
    (hkey : a ∈ keys) (hrelation : r ∉ structural)
    (h : createEdge ⟨a, r, b, props⟩ s = .ok v t) :
    Records subject keys s [.link ⟨a, r, b, props⟩] t :=
  ⟨.link subject hkey h, calm_link hrelation⟩

/-- The request adds one edge to a new Decision, and changes nothing else that is structural. A
proposal that gets its disposition by the edge had none. -/
structure Decides (s s' : Store) (e : EdgeRecord) : Prop where
  relation : e.relationship ∈ dispositions ∨ e.relationship = .hasWorkflowDecision
  decision : e.target.1 = .decision
  absent : s.node? e.target = none
  first : e.relationship ∈ dispositions → e.source.1 = .proposal ∧
    ∀ e' ∈ s.edges, e'.source = e.source → e'.relationship ∉ dispositions
  after : ∀ e' : EdgeRecord, e'.relationship ∈ structural →
    (e' ∈ s'.edges ↔ e' ∈ s.edges ∨ e' = e)

lemma edges_of_link (h : Trace s (ws ++ (.link e :: ws')) t) (hbefore : Calm ws)
    (hafter : Calm ws') (e' : EdgeRecord) (hrelation : e'.relationship ∈ structural) :
    e' ∈ t.edges ↔ e' ∈ s.edges ∨ e' = e := by
  rw [h.mem_edges_iff, edgeAfter_append, edgeAfter_link,
    edgeAfter_of_avoids fun x hx => .inl (hafter x hx _ hrelation),
    edgeAfter_of_avoids fun x hx => .inl (hbefore x hx _ hrelation)]

end Effects

/-- Every node of a canonical kind holds a valid object of that kind. -/
def WorkNodes (s : Store) : Prop :=
  ∀ key node, key.1 ∈ canonicalWorkKinds → s.node? key = some node →
    ∃ w, Valid w ∧ w.key = key ∧ node = w.node

section Reads

variable {s : Store} {key : Key} {w : WorkObject}

lemma getById_node (h : getById s key = .ok w) :
    key.1 ∈ canonicalWorkKinds ∧ ∃ node, s.node? key = some node ∧ fromNode key node = .ok w := by
  simp only [getById, requireKnownKind, except_ok, not_not] at h
  obtain ⟨_, hkind, _, -, found, hfound, h⟩ := h
  rw [← getNode_ok hfound]
  cases found with
  | none => cases h
  | some node => exact ⟨hkind, node, rfl, h⟩

lemma getById_ok (hs : WorkNodes s) (h : getById s key = .ok w) : w.key = key ∧ Holds s w := by
  obtain ⟨hkind, node, hnode, hread⟩ := getById_node h
  obtain ⟨w0, hw0, rfl, rfl⟩ := hs key node hkind hnode
  rw [fromNode_work hw0] at hread
  cases hread
  exact ⟨rfl, hnode, hw0⟩

lemma current_ok {version : Int} (hs : WorkNodes s) (h : current s key version = .ok w) :
    w.key = key ∧ Holds s w ∧ w.version = version := by
  simp only [current, except_ok, not_not] at h
  obtain ⟨_, hget, _, hversion, rfl⟩ := h
  obtain ⟨hkey, hold⟩ := getById_ok hs hget
  exact ⟨hkey, hold, hversion⟩

end Reads

end DevGraph.Proofs
