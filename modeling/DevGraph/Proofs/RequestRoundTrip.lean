import DevGraph.Proofs.PayloadCodec

/-!
# The canonical bytes of a request

Parsing the canonical bytes of an accepted request gives that request back, so that the
bytes that were signed and the mutation that is executed cannot come apart.
-/

namespace DevGraph.Proofs

open Lib Work

variable {sha256 : String → String}

variable {fields : List (String × Json)} {raw : ByteArray}

lemma fromUTF8?_toUTF8 (s : String) : String.fromUTF8? s.toUTF8 = some s := by
  have hvalid : s.toUTF8.IsValidUTF8 := s.isValidUTF8
  rw [String.fromUTF8?, dif_pos hvalid]
  rfl

lemma strictJsonObject_canonicalJson {maximum : Nat}
    (hcanonical : (Json.obj fields).Canonical SafeInt)
    (hnested : (Json.obj fields).nestedWithin 16 = true)
    (hsize : (canonicalJson (.obj fields)).size ≤ maximum) :
    strictJsonObject (canonicalJson (.obj fields)) maximum = some fields := by
  have hloads := loads_dumps_of_canonical (fun _ h => h) false
    hcanonical
  have hhead : (dumps false (.obj fields)).toList.head? = some '\x7b' := by
    rw [dumps, String.toList_ofList, sortKeys_of_canonical _ hcanonical]
    cases fields with
    | nil => rfl
    | cons field fields => rfl
  simp only [strictJsonObject, option_bind_some, ensure_eq_some]
  refine ⟨_, ⟨by simpa using hsize, rfl⟩, _, fromUTF8?_toUTF8 _, _, ⟨?_, rfl⟩, _, hloads, _,
    ⟨hnested, rfl⟩, rfl⟩
  rw [hhead]
  decide

lemma strictJsonObject_ints {maximum : Nat} (h : strictJsonObject raw maximum = some fields) :
    FieldsIntsIn SafeInt fields := by
  simp only [strictJsonObject, option_bind_some, ensure_eq_some] at h
  obtain ⟨_, -, text, -, _, -, value, hloads, _, ⟨-, rfl⟩, hobj⟩ := h
  have hints := loads_intsIn hloads
  cases value with
  | obj fields' => cases hobj; exact hints
  | _ => cases hobj

lemma codec_map {α β : Type} {p : Int → Prop} {decode : Json → Option α} {encode : α → Json}
    {depth depth' : Nat} (hc : Codec p decode encode depth) (mk : α → β) {encode' : β → Json}
    (hle : depth ≤ depth') (hencode : ∀ a, encode' (mk a) = encode a) :
    Codec p (fun v => (decode v).map mk) encode' depth' := by
  intro v b hv h
  obtain ⟨a, ha, rfl⟩ := Option.map_eq_some_iff.1 h
  have hprinted := (hc hv ha).mono hle
  exact ⟨by rw [hencode, hprinted.read]; rfl, hencode a ▸ hprinted.canonical,
    hencode a ▸ hprinted.nested⟩

lemma codec_empty : Codec SafeInt emptyOfJson (fun _ => .obj []) 0 := by
  intro v u hv h
  exact ⟨rfl, ⟨trivial, List.Pairwise.nil⟩, rfl⟩

lemma codec_payload (operation : Operation) :
    Codec SafeInt (Payload.ofJson operation) Payload.toJson 4 := by
  cases operation with
  | create => exact codec_map codec_createWork Payload.create (by decide) fun _ => rfl
  | patch => exact codec_map codec_contentChanges Payload.patch (by decide) fun _ => rfl
  | status => exact codec_map codec_status Payload.status (by decide) fun _ => rfl
  | archive => exact codec_map codec_empty (fun _ => Payload.archive) (by decide) fun _ => rfl
  | accept => exact codec_map codec_acceptProposal Payload.accept (by decide) fun _ => rfl
  | convert => exact codec_map codec_conversion Payload.convert (by decide) fun _ => rfl
  | parentSet => exact codec_map codec_parentChange Payload.parentSet (by decide) fun _ => rfl
  | dependencyAdd => exact codec_map codec_target (Payload.dependency true) (by decide) fun _ => rfl
  | dependencyRemove =>
    exact codec_map codec_target (Payload.dependency false) (by decide) fun _ => rfl
  | blockerAdd => exact codec_map codec_target (Payload.blocker true) (by decide) fun _ => rfl
  | blockerRemove => exact codec_map codec_target (Payload.blocker false) (by decide) fun _ => rfl
  | workflowAssign =>
    exact codec_map codec_workflowAssign Payload.workflowAssign (by decide) fun _ => rfl
  | workflowReview =>
    exact codec_map codec_workflowReview Payload.workflowReview le_rfl fun _ => rfl
  | workflowTransition =>
    exact codec_map codec_workflowTransition Payload.workflowTransition (by decide) fun _ => rfl
  | progressSet => exact codec_map codec_progressSet Payload.progressSet le_rfl fun _ => rfl
  | restore => exact codec_map codec_empty (fun _ => Payload.restore) (by decide) fun _ => rfl
  | proposalReject =>
    exact codec_map codec_proposalReject Payload.proposalReject (by decide) fun _ => rfl
  | sessionAttach =>
    exact codec_map codec_sessionAttach Payload.sessionAttach (by decide) fun _ => rfl
  | sessionState => exact codec_map codec_sessionState Payload.sessionState (by decide) fun _ => rfl

lemma operation_of_ofJson {operation : Operation} {v : Json} {p : Payload}
    (h : Payload.ofJson operation v = some p) : p.operation = operation := by
  cases operation <;> simp only [Payload.ofJson, Option.map_eq_some_iff] at h <;>
    rcases h with ⟨a, -, rfl⟩ <;> rfl

lemma codec_version : Codec SafeInt (Json.asNullable Json.asInt) (Json.ofNullable Json.int) 0 :=
  codec_nullable codec_int nofun

lemma schemaName_injective : Function.Injective Schema.name :=
  injective_of_find [.v1, .v2] fun a => by cases a <;> rfl

lemma operationName_injective : Function.Injective Operation.name :=
  injective_of_find allOperations fun a => by cases a <;> rfl

lemma payload_toJson_obj (p : Payload) : ∃ fields, p.toJson = .obj fields := by
  cases p <;> exact ⟨_, rfl⟩

lemma envelope_neat {version : Option Int} {id kind operation schema : String} {payload : Json}
    (hversion : (Json.ofNullable Json.int version).Neat SafeInt 0)
    (hpayload : payload.Neat SafeInt 4) :
    (Json.obj [("expected_version", Json.ofNullable Json.int version), ("id", .str id),
      ("kind", .str kind), ("operation", .str operation), ("payload", payload),
      ("schema", .str schema)]).Neat SafeInt 16 := by
  refine (fields_printed ["expected_version", "id", "kind", "operation", "payload", "schema"]
    (.refl _) (by decide) ?_).2
  simp [hversion.mono (Nat.zero_le 15), hpayload.mono (show 4 ≤ 15 by decide)]

lemma required_obj_ints (hints : FieldsIntsIn SafeInt fields) {name : String}
    {payload : List (String × Json)} (h : required fields name Json.asObj = some payload) :
    (Json.obj payload).IntsIn SafeInt := by
  obtain ⟨v, hv, hobj⟩ := Option.bind_eq_some_iff.1 h
  have hv := member_intsIn hints hv
  cases v with
  | obj fields => cases hobj; exact hv
  | _ => cases hobj

/-- A kind of request: its envelope, its payload and what they make. -/
structure Contract (E P R : Type) where
  ofFields : List (String × Json) → Option E
  admissible : E → Bool
  ofJson : E → Option P
  fits : E → P → Bool
  request : E → P → R
  canonical : R → ByteArray

namespace Contract

variable {E P R : Type} (k : Contract E P R)

def read (raw : ByteArray) : Option R := do
  let fields ← strictJsonObject raw 131072
  let e ← k.ofFields fields
  let e ← ensure k.admissible e
  let p ← k.ofJson e
  let p ← ensure (k.fits e) p
  ensure (fun r => (k.canonical r).size ≤ 65536) (k.request e p)

structure Reads (fields : List (String × Json)) (e : E) (p : P) : Prop where
  envelope : k.ofFields fields = some e
  admissible : k.admissible e = true
  payload : k.ofJson e = some p
  fits : k.fits e p = true
  size : (k.canonical (k.request e p)).size ≤ 65536

lemma read_eq_some {r : R} : k.read raw = some r ↔
    ∃ fields e p, strictJsonObject raw 131072 = some fields ∧ k.Reads fields e p ∧
      k.request e p = r := by
  simp only [read, option_bind_some, ensure_eq_some, decide_eq_true_eq]
  constructor
  · rintro ⟨fields, hfields, e, he, _, ⟨hadmissible, rfl⟩, p, hp, _, ⟨hfits, rfl⟩, hsize, rfl⟩
    exact ⟨fields, e, p, hfields, ⟨he, hadmissible, hp, hfits, hsize⟩, rfl⟩
  · rintro ⟨fields, e, p, hfields, ⟨he, hadmissible, hp, hfits, hsize⟩, rfl⟩
    exact ⟨fields, hfields, e, he, _, ⟨hadmissible, rfl⟩, p, hp, _, ⟨hfits, rfl⟩, hsize, rfl⟩

/-- The canonical bytes of the request print members that are read back as the request. -/
def Prints (e : E) (p : P) : Prop :=
  ∃ printed e', k.canonical (k.request e p) = canonicalJson (.obj printed) ∧
    (Json.obj printed).Neat SafeInt 16 ∧ k.Reads printed e' p ∧ k.request e' p = k.request e p

lemma read_printed {e : E} {p : P} (hprints : k.Prints e p)
    (hsize : (k.canonical (k.request e p)).size ≤ 65536) :
    k.read (k.canonical (k.request e p)) = some (k.request e p) := by
  obtain ⟨printed, e', hbytes, hneat, hback, hsame⟩ := hprints
  refine k.read_eq_some.2 ⟨printed, e', p, ?_, hback, hsame⟩
  rw [hbytes] at hsize ⊢
  exact strictJsonObject_canonicalJson hneat.1 hneat.2 (by omega)

lemma read_canonical {r : R} (hprints : ∀ {fields e p}, FieldsIntsIn SafeInt fields →
      k.Reads fields e p → k.Prints e p) (h : k.read raw = some r) :
    k.read (k.canonical r) = some r := by
  obtain ⟨fields, e, p, hfields, hreads, rfl⟩ := k.read_eq_some.1 h
  exact k.read_printed (hprints (strictJsonObject_ints hfields) hreads) hreads.size

end Contract

def workContract (sha256 : String → String) : Contract Envelope Payload WorkRequest :=
  ⟨Envelope.ofFields, Envelope.admissible, fun e => Payload.ofJson e.operation e.payload,
    fun e => Payload.admissible e.kind e.id, Envelope.request sha256, WorkRequest.canonical⟩

lemma envelope_payload_ints {e : Envelope}
    (hints : FieldsIntsIn SafeInt fields) (he : Envelope.ofFields fields = some e) :
    e.payload.IntsIn SafeInt := by
  simp only [Envelope.ofFields, option_bind_some, ensure_eq_some, Option.pure_def] at he
  obtain ⟨_, ⟨-, rfl⟩, _, -, _, -, _, -, _, -, _, -, payload, hpayload, heq⟩ := he
  cases heq
  exact required_obj_ints hints hpayload

lemma asName_mem {α : Type} {name : α → String} {values : List α} {v : Json} {a : α}
    (h : v.asName name values = some a) : a ∈ values := by
  cases v with
  | str text => exact List.mem_of_find?_eq_some h
  | _ => cases h

/-- An accepted request is the one that its own envelope prints. -/
lemma work_printed {schema : Schema} {kind : Label} {id : String} {version : Option Int}
    {p : Payload} {v : Json} (hkind : kind ∈ subjectKinds)
    (hversion : Printed SafeInt (Json.asNullable Json.asInt) (Json.ofNullable Json.int) 0 version)
    (hpayload : Printed SafeInt (Payload.ofJson p.operation) Payload.toJson 4 p)
    (hadmissible : (Envelope.mk schema p.operation kind id version v).admissible = true)
    (hfits : p.admissible kind id = true)
    (hsize : ((workContract sha256).canonical ((workContract sha256).request
      ⟨schema, p.operation, kind, id, version, v⟩ p)).size ≤ 65536) :
    (workContract sha256).Prints ⟨schema, p.operation, kind, id, version, v⟩ p := by
  obtain ⟨inner, hinner⟩ := payload_toJson_obj p
  have hsame : (workContract sha256).request
      ⟨schema, p.operation, kind, id, version, p.toJson⟩ p =
        (workContract sha256).request ⟨schema, p.operation, kind, id, version, v⟩ p := rfl
  refine ⟨_, ⟨schema, p.operation, kind, id, version, p.toJson⟩, rfl,
    envelope_neat hversion.neat hpayload.neat,
    ⟨?_, hadmissible, hpayload.read, hfits, hsame ▸ hsize⟩, hsame⟩
  rw [hinner]
  simp only [workContract, Envelope.ofFields, option_bind_some, ensure_eq_some]
  exact ⟨_, ⟨rfl, rfl⟩,
    _, asName_name (by cases schema <;> decide) (fun _ _ h => schemaName_injective h),
    _, asName_name (by cases p.operation <;> decide) (fun _ _ h => operationName_injective h),
    _, asName_name hkind (fun _ _ h => labelName_injective h), _, rfl, _, hversion.read, _, rfl,
    rfl⟩

lemma work_prints {e : Envelope} {p : Payload}
    (hints : FieldsIntsIn SafeInt fields) (h : (workContract sha256).Reads fields e p) :
    (workContract sha256).Prints e p := by
  have hpayload := codec_payload e.operation (envelope_payload_ints hints h.envelope) h.payload
  have he : Envelope.ofFields fields = some e := h.envelope
  simp only [Envelope.ofFields, option_bind_some, ensure_eq_some, Option.pure_def] at he
  rcases he with ⟨_, ⟨-, rfl⟩, schema, -, operation, -, kind, hkind, id, -, version, hversion,
    payload, -, heq⟩
  cases heq
  cases operation_of_ofJson h.payload
  obtain ⟨_, -, hkind⟩ := Option.bind_eq_some_iff.1 hkind
  exact work_printed (asName_mem hkind) (required_printed codec_version hints hversion) hpayload
    h.admissible h.fits h.size

lemma work_read {r : WorkRequest} :
    WorkRequest.fromJson sha256 raw = .ok r ↔ (workContract sha256).read raw = some r := by
  change _ ↔ WorkRequest.fromJson? sha256 raw = some r
  rw [WorkRequest.fromJson]
  cases WorkRequest.fromJson? sha256 raw <;> simp

lemma workRequest_canonical {r : WorkRequest}
    (h : WorkRequest.fromJson sha256 raw = .ok r) :
    WorkRequest.fromJson sha256 r.canonical = .ok r :=
  work_read.2 ((workContract sha256).read_canonical work_prints (work_read.1 h))

lemma codec_arenaPayload (operation : ArenaOperation) :
    Codec SafeInt (ArenaPayload.ofJson operation) ArenaPayload.toJson 4 := by
  cases operation with
  | create => exact codec_map codec_createArena ArenaPayload.create (by decide) fun _ => rfl
  | patch => exact codec_map codec_arenaChanges ArenaPayload.patch (by decide) fun _ => rfl
  | archive => exact codec_map codec_empty (fun _ => ArenaPayload.archive) (by decide) fun _ => rfl
  | memberSet => exact codec_map codec_membership ArenaPayload.memberSet (by decide) fun _ => rfl

lemma operation_of_arenaPayload {operation : ArenaOperation} {v : Json} {p : ArenaPayload}
    (h : ArenaPayload.ofJson operation v = some p) : p.operation = operation := by
  cases operation <;> simp only [ArenaPayload.ofJson, Option.map_eq_some_iff] at h <;>
    rcases h with ⟨a, -, rfl⟩ <;> rfl

lemma arenaOperationName_injective : Function.Injective ArenaOperation.name :=
  injective_of_find arenaOperations fun a => by cases a <;> rfl

lemma codec_arenaVersion : Codec SafeInt
    (Json.asNullable fun v => v.asInt.bind (ensure isArenaVersion)) (Json.ofNullable Json.int) 0 :=
  codec_nullable (codec_ensure codec_int isArenaVersion) nofun

def arenaContract : Contract ArenaEnvelope ArenaPayload ArenaRequest :=
  ⟨ArenaEnvelope.ofFields, ArenaEnvelope.admissible,
    fun e => ArenaPayload.ofJson e.operation e.payload, fun e => ArenaPayload.admissible e.id,
    ArenaEnvelope.request, ArenaRequest.canonical⟩

lemma arena_prints {e : ArenaEnvelope} {p : ArenaPayload} (hints : FieldsIntsIn SafeInt fields)
    (h : arenaContract.Reads fields e p) : arenaContract.Prints e p := by
  have hoperation : p.operation = e.operation := operation_of_arenaPayload h.payload
  have he : ArenaEnvelope.ofFields fields = some e := h.envelope
  simp only [ArenaEnvelope.ofFields, option_bind_some, ensure_eq_some, Option.pure_def] at he
  rcases he with ⟨_, ⟨-, rfl⟩, _, -, operation, hop, kind, hkind, id, hid, version, hversion,
    payload, hobject, heq⟩
  cases heq
  have hpayload := codec_arenaPayload operation (required_obj_ints hints hobject) h.payload
  have hop := required_printed (codec_name _ arenaOperationName_injective) hints hop
  have hkind := required_printed (codec_name _ labelName_injective) hints hkind
  have hid := required_printed codec_identifier hints hid
  have hversion := required_printed codec_arenaVersion hints hversion
  have hobj : ∃ inner, p.toJson = .obj inner := by cases p <;> exact ⟨_, rfl⟩
  obtain ⟨inner, hinner⟩ := hobj
  refine ⟨_, ⟨operation, kind, id, version, p.toJson⟩, rfl,
    envelope_neat hversion.neat hpayload.neat,
    ⟨?_, h.admissible, hpayload.read, h.fits, h.size⟩, rfl⟩
  rw [hinner, hoperation]
  simp only [arenaContract, ArenaEnvelope.ofFields, option_bind_some, ensure_eq_some]
  exact ⟨_, ⟨rfl, rfl⟩, _, rfl, _, hop.read, _, hkind.read, _, hid.read, _, hversion.read, _, rfl,
    rfl⟩

lemma arena_read {r : ArenaRequest} :
    ArenaRequest.fromJson raw = .ok r ↔ arenaContract.read raw = some r := by
  change _ ↔ ArenaRequest.fromJson? raw = some r
  rw [ArenaRequest.fromJson]
  cases ArenaRequest.fromJson? raw <;> simp

lemma arenaRequest_canonical {r : ArenaRequest} (h : ArenaRequest.fromJson raw = .ok r) :
    ArenaRequest.fromJson r.canonical = .ok r :=
  arena_read.2 (arenaContract.read_canonical arena_prints (arena_read.1 h))

/-- Reading the canonical bytes of an accepted request gives the same request, in its bytes,
subject, version, resources and payload. -/
theorem fromJson_canonical (sha256 : String → String) (raw : ByteArray) :
    (∀ r, WorkRequest.fromJson sha256 raw = .ok r →
      WorkRequest.fromJson sha256 r.canonical = .ok r) ∧
    ∀ r, ArenaRequest.fromJson raw = .ok r → ArenaRequest.fromJson r.canonical = .ok r := by
  constructor
  · intro r h
    exact workRequest_canonical h
  · intro r h
    exact arenaRequest_canonical h

/-- The members of a request that leaves the defaults of its payload out. -/
def shortRequest : List (String × Json) :=
  [("expected_version", .null), ("id", .str "a"), ("kind", .str "Todo"),
    ("operation", .str "create"),
    ("payload", .obj [("id", .str "a"), ("title", .str "T")]),
    ("schema", .str "devgraph.work-request.v2")]

def shortWork : WorkRequest :=
  Envelope.request id ⟨.v2, .create, .todo, "a", none, .null⟩ (.create ⟨"a", "T", "", 0, [], []⟩)

lemma strictJsonObject_shortRequest :
    strictJsonObject (canonicalJson (.obj shortRequest)) 131072 = some shortRequest := by
  have hcanonical : (Json.obj shortRequest).Canonical SafeInt := by
    simp only [shortRequest, Json.Canonical, FieldsCanonical, true_and, and_true, List.map_cons,
      List.map_nil]
    decide
  exact strictJsonObject_canonicalJson hcanonical rfl
    (show (canonicalJson (.obj shortRequest)).size ≤ 131072 by decide +kernel)

lemma fromJson_shortRequest (sha256 : String → String) :
    WorkRequest.fromJson sha256 (canonicalJson (.obj shortRequest)) = .ok shortWork := by
  have hsome : WorkRequest.fromJson? sha256 (canonicalJson (.obj shortRequest)) =
      some shortWork := by
    have hsize : decide (shortWork.canonical.size ≤ 65536) = true := by decide +kernel
    simp only [WorkRequest.fromJson?, option_bind_some, ensure_eq_some]
    exact ⟨_, strictJsonObject_shortRequest, _, rfl, _, ⟨rfl, rfl⟩, _, rfl, _, ⟨rfl, rfl⟩, hsize,
      rfl⟩
  rw [WorkRequest.fromJson, hsome]

theorem fromJson_canonical_short :
    ∃ r, WorkRequest.fromJson id (canonicalJson (.obj shortRequest)) = .ok r ∧
      r.payload = .create ⟨"a", "T", "", 0, [], []⟩ ∧
      WorkRequest.fromJson id r.canonical = .ok r :=
  ⟨shortWork, fromJson_shortRequest id, rfl,
    (fromJson_canonical id (canonicalJson (.obj shortRequest))).1 _ (fromJson_shortRequest id)⟩

end DevGraph.Proofs
