import DevGraph.Lib.Chunks
import DevGraph.Work.Outbox
import DevGraph.Work.WriteScope

/-!
# Credential requests

The bytes that a Wallet signs for a named request, and the statements that it shows to the person
who approves it. The native client derives both once more, with a loop of its own.
-/

namespace DevGraph.Work

open Lib

def Request.canonical : Request → ByteArray
  | .work r => r.canonical
  | .arena r => r.canonical

section Receiver

variable (sha256 : String → String)

def invalidNamedRequest : Error := ⟨.invalidWorkRequest, "invalid_named_request"⟩

def parseNamedRequest (raw : ByteArray) : Except Error Request :=
  match (strictJsonObject raw 131072).map fun fields =>
    (member fields "schema").bind Json.asStr with
  | some (some schema) =>
    if schema ∈ [Schema.v1.name, Schema.v2.name] then
      (Request.work <$> WorkRequest.fromJson sha256 raw).mapError fun _ => invalidNamedRequest
    else if schema = arenaSchema then
      (Request.arena <$> ArenaRequest.fromJson raw).mapError fun _ => invalidNamedRequest
    else .error invalidNamedRequest
  | _ => .error invalidNamedRequest

def digestIdempotencyKey (key : String) : Except Error String := do
  raiseIf (isExactIdempotencyKey key = false)
    (Error.mk .runtimeError "invalid_devgraph_idempotency_key")
  return sha256 key

/-- No control character and no mark that changes the direction of the text. -/
def displaySafe (s : String) : Bool :=
  !s.toList.any fun c => c.toNat < 32 || (127 ≤ c.toNat && c.toNat ≤ 159) ||
    c.toNat ∈ [0x061C, 0x200E, 0x200F] || (0x202A ≤ c.toNat && c.toNat < 0x202F) ||
    (0x2066 ≤ c.toNat && c.toNat < 0x206A)

def credentialSchema : String := "devgraph.credential-request.v2"

def requestDomain : String := "devgraph.credential-request.v2\x00"

def credentialWrapper (request : Json) (keyDigest : String) : Json :=
  .obj [("schema", .str credentialSchema), ("request", request),
    ("idempotency_key_digest_sha256", .str keyDigest)]

/-- One part of the request; the parts are counted from one. -/
def requestPart (i : Nat) (part : List Char) : String :=
  "Request part " ++ String.ofList (printNat (i + 1)) ++ ": " ++ String.ofList part

/-- What is shown for a request. The parts hold all of its canonical text, cut at characters. -/
def disclosureStatements (request : Request) (text keyDigest : String) : List String :=
  ["Operation: " ++ request.authorityOperation,
    "Resources: " ++ String.intercalate ", " request.resources,
    "Expected version: " ++
      match request.expectedVersion with
      | some version => String.ofList (printInt version)
      | none => "new",
    "Idempotency digest: " ++ keyDigest] ++
  (splitLoop Char.utf8Size 480 text.toList [] [] 0).mapIdx requestPart

structure CredentialRequestBinding where
  requestBytes : ByteArray
  requestDigest : String
  title : String
  statements : List String
  disclosureDigest : String

def disclosureJson (title : String) (statements : List String) : Json :=
  .obj [("title", .str title), ("statements", .arr (statements.map Json.str))]

def unsupportedDisclosure : Error := ⟨.valueError, "unsupported_credential_disclosure"⟩

def credentialRequestBinding (raw : ByteArray) (key : String) :
    Except Error CredentialRequestBinding := do
  let request ← parseNamedRequest sha256 raw
  let keyDigest ← digestIdempotencyKey sha256 key
  let text ← (String.fromUTF8? request.canonical).elim (.error unsupportedDisclosure) .ok
  let value ← (loads plainJson text.toList).elim (.error unsupportedDisclosure) .ok
  let requestText := requestDomain ++ dumps false (credentialWrapper value keyDigest)
  let statements := disclosureStatements request text keyDigest
  raiseIf (requestText.toUTF8.size > 131072 ∨ statements.length > 144 ∨
      statements.any (fun item => item.toUTF8.size > 512 || !displaySafe item) = true)
    unsupportedDisclosure
  return {
    requestBytes := requestText.toUTF8
    requestDigest := sha256 requestText
    title := "Devgraph request"
    statements := statements
    disclosureDigest := sha256 (dumps false (disclosureJson "Devgraph request" statements)) }

end Receiver

/-- Printed with sorted keys and no blanks; nothing may lie deeper than 64. -/
def nativeCanonicalJson (value : Json) : Option ByteArray :=
  if value.nestedWithin 64 then some (canonicalJson value) else none

/-- A request that the native parser has accepted. -/
structure NativeRequest where
  value : Json
  canonical : ByteArray
  operation : String
  resources : List String
  distinct : value.Readable plainJson
  printed : nativeCanonicalJson value = some canonical

def asU64 : Json → Option Nat
  | .int n => if 0 ≤ n ∧ n < 18446744073709551616 then some n.toNat else none
  | _ => none

def NativeRequest.expectedVersion (r : NativeRequest) : Option Nat :=
  r.value.asObj.bind fun fields => (member fields "expected_version").bind asU64

/-- No character of the text lies on both sides of the byte offset. -/
def isCharBoundary : List Char → Nat → Bool
  | _, 0 => true
  | [], _ + 1 => false
  | c :: text, n + 1 => c.utf8Size ≤ n + 1 && isCharBoundary text (n + 1 - c.utf8Size)

/-- The offset, moved back to the start of a character. -/
def floorBoundary (text : List Char) : Nat → Nat
  | 0 => 0
  | n + 1 => if isCharBoundary text (n + 1) then n + 1 else floorBoundary text n

/-- The text before and after a byte offset that is a boundary. -/
def splitAtByte : List Char → Nat → List Char × List Char
  | text, 0 => ([], text)
  | [], _ + 1 => ([], [])
  | c :: text, n + 1 =>
    let (before, after) := splitAtByte text (n + 1 - c.utf8Size)
    (c :: before, after)

def partEnd (text : List Char) : Nat := floorBoundary text (min (weight Char.utf8Size text) 480)

lemma splitAtByte_append (text : List Char) (n : Nat) :
    (splitAtByte text n).1 ++ (splitAtByte text n).2 = text := by
  fun_induction splitAtByte text n with
  | case1 => rfl
  | case2 => rfl
  | case3 c text n before after hsplit ih =>
    rw [hsplit] at ih
    rw [List.cons_append, ih]

lemma le_floorBoundary {text : List Char} {n k : Nat} (hk : isCharBoundary text k = true)
    (hle : k ≤ n) : k ≤ floorBoundary text n := by
  induction n with
  | zero => exact hle
  | succ n ih =>
    rw [floorBoundary]
    split
    · exact hle
    · rename_i hno
      have hne : k ≠ n + 1 := by
        rintro rfl
        exact hno hk
      exact ih (by omega)

/-- A character has at most four bytes, so that a part is never empty. -/
lemma partEnd_pos (c : Char) (text : List Char) : 0 < partEnd (c :: text) := by
  have hpos := c.utf8Size_pos
  have hfour := c.utf8Size_le_four
  have hboundary : isCharBoundary (c :: text) c.utf8Size = true := by
    obtain ⟨n, hn⟩ := Nat.exists_eq_succ_of_ne_zero (Nat.pos_iff_ne_zero.1 hpos)
    rw [hn, isCharBoundary, hn, Nat.sub_self]
    simp [isCharBoundary]
  have hle := le_floorBoundary hboundary (n := min (weight Char.utf8Size (c :: text)) 480) (by
    rw [weight_cons]
    omega)
  exact Nat.lt_of_lt_of_le hpos hle

def partStatements (text : List Char) (i : Nat) : List String :=
  if text = [] then []
  else
    requestPart i (splitAtByte text (partEnd text)).1 ::
      partStatements (splitAtByte text (partEnd text)).2 (i + 1)
termination_by text.length
decreasing_by
  rename_i hne
  obtain ⟨c, text, rfl⟩ := List.exists_cons_of_ne_nil hne
  have hlength := congrArg List.length (splitAtByte_append (c :: text) (partEnd (c :: text)))
  obtain ⟨n, hn⟩ := Nat.exists_eq_succ_of_ne_zero (Nat.pos_iff_ne_zero.1 (partEnd_pos c text))
  rw [List.length_append] at hlength
  have hpart : 0 < (splitAtByte (c :: text) (partEnd (c :: text))).1.length := by
    rw [hn, splitAtByte]
    exact Nat.succ_pos _
  omega

/-- The bytes to sign and the statements to show. -/
def NativeRequest.bindings (sha256 : String → String) (r : NativeRequest) (key : String) :
    Option (ByteArray × List String) := do
  let key ← ensure isExactIdempotencyKey key
  let keyDigest := sha256 key
  let body ← nativeCanonicalJson (credentialWrapper r.value keyDigest)
  let bytes := requestDomain.toUTF8 ++ body
  let text ← String.fromUTF8? r.canonical
  let statements := ["Operation: " ++ r.operation,
    "Resources: " ++ String.intercalate ", " r.resources,
    "Expected version: " ++
      (r.expectedVersion.map fun version => String.ofList (printNat version)).getD "new",
    "Idempotency digest: " ++ keyDigest] ++ partStatements text.toList 0
  if bytes.size > 131072 ∨ statements.length > 144 then none
  else some (bytes, statements)

end DevGraph.Work
