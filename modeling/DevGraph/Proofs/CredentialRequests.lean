import DevGraph.Lib.TextSize
import DevGraph.Proofs.RequestRoundTrip
import DevGraph.Work.CredentialRequests

/-!
# The disclosure of a signed request

The parts that are shown hold the whole canonical text, whichever of the two loops cuts it, and
the limits on the number and the size of statements never refuse a request.
-/

namespace DevGraph.Proofs

open Lib Work

variable {raw : ByteArray}

variable {sha256 : String → String} {client : NativeRequest}

lemma size_toUTF8 (s : String) : s.toUTF8.size = weight Char.utf8Size s.toList := by
  rw [← size_ofList, String.ofList_toList]

lemma size_append (s t : String) : (s ++ t).toUTF8.size = s.toUTF8.size + t.toUTF8.size := by
  rw [size_toUTF8, size_toUTF8, size_toUTF8, String.toList_append, weight_append]

lemma weight_printNat {n k : Nat} (hn : n < 10 ^ (k + 1)) :
    weight Char.utf8Size (printNat n) ≤ k + 1 := by
  unfold printNat
  split
  · exact Nat.succ_le_succ (Nat.zero_le k)
  · have hdigits := (Nat.digits_length_le_iff (by decide) n).2 hn
    rw [weight_ascii, List.length_map, List.length_reverse]
    · exact hdigits
    · intro c hc
      obtain ⟨d, hd, rfl⟩ := List.mem_map.1 hc
      have hten := Nat.digits_lt_base (by decide) (List.mem_reverse.1 hd)
      rw [digitChar_toNat hten]
      omega

lemma weight_printInt {n : Int} {k : Nat} (hn : n.natAbs < 10 ^ (k + 1)) :
    weight Char.utf8Size (printInt n) ≤ k + 2 := by
  have hnat := weight_printNat hn
  unfold printInt
  split
  · rw [weight_cons]
    have hsign : '-'.utf8Size = 1 := rfl
    omega
  · omega

lemma hex_ascii {s : String} (h : isLowerHex 64 s = true) :
    s.toList.length = 64 ∧ ∀ c ∈ s.toList, '0' ≤ c ∧ c ≤ '9' ∨ 'a' ≤ c ∧ c ≤ 'f' := by
  simp only [isLowerHex, Bool.and_eq_true, Bool.or_eq_true, decide_eq_true_eq,
    List.all_eq_true] at h
  exact ⟨by rw [String.length_toList]; exact h.1, h.2⟩

lemma weight_hex {s : String} (h : isLowerHex 64 s = true) :
    weight Char.utf8Size s.toList = 64 := by
  obtain ⟨hlength, hhex⟩ := hex_ascii h
  rw [weight_ascii, hlength]
  intro c hc
  obtain ⟨-, hle⟩ | ⟨-, hle⟩ := hhex c hc
  · exact Nat.lt_of_le_of_lt (Char.le_def.1 hle) (by decide)
  · exact Nat.lt_of_le_of_lt (Char.le_def.1 hle) (by decide)

/-! ## The loop of the native client -/

lemma isCharBoundary_append (before after : List Char) :
    isCharBoundary (before ++ after) (weight Char.utf8Size before) = true := by
  induction before with
  | nil => rw [weight, List.map_nil, List.sum_nil, isCharBoundary]
  | cons c before ih =>
    have hpos := c.utf8Size_pos
    obtain ⟨n, hn⟩ : ∃ n, weight Char.utf8Size (c :: before) = n + 1 :=
      ⟨weight Char.utf8Size (c :: before) - 1, by rw [weight_cons]; omega⟩
    have hrest : n + 1 - c.utf8Size = weight Char.utf8Size before := by
      rw [← hn, weight_cons]
      omega
    rw [hn, List.cons_append, isCharBoundary, hrest, ih, Bool.and_true, decide_eq_true_eq, ← hn,
      weight_cons]
    omega

lemma floorBoundary_boundary (text : List Char) (n : Nat) :
    floorBoundary text n ≤ n ∧ isCharBoundary text (floorBoundary text n) = true := by
  induction n with
  | zero => exact ⟨Nat.le_refl 0, by rw [floorBoundary, isCharBoundary]⟩
  | succ n ih =>
    rw [floorBoundary]
    split
    · exact ⟨Nat.le_refl _, ‹_›⟩
    · exact ⟨Nat.le_succ_of_le ih.1, ih.2⟩

lemma weight_splitAtByte {text : List Char} {n : Nat} (h : isCharBoundary text n = true) :
    weight Char.utf8Size (splitAtByte text n).1 = n := by
  fun_induction splitAtByte text n with
  | case1 => rfl
  | case2 => simp [isCharBoundary] at h
  | case3 c text n before after hsplit ih =>
    rw [isCharBoundary, Bool.and_eq_true, decide_eq_true_eq] at h
    rw [hsplit] at ih
    have hbefore : weight Char.utf8Size before = n + 1 - c.utf8Size := ih h.2
    rw [weight_cons, hbefore]
    omega

/-- What the loop cuts off fits, and the next character would not. -/
lemma splitAtByte_partEnd {text part rest : List Char}
    (hsplit : splitAtByte text (partEnd text) = (part, rest)) :
    part ++ rest = text ∧ weight Char.utf8Size part ≤ 480 ∧
      ∀ a ∈ rest.head?, 480 < weight Char.utf8Size part + a.utf8Size := by
  obtain ⟨hle, hboundary⟩ := floorBoundary_boundary text (min (weight Char.utf8Size text) 480)
  have htext : part ++ rest = text := by
    have happend := splitAtByte_append text (partEnd text)
    rwa [hsplit] at happend
  have hweight : weight Char.utf8Size part = partEnd text := by
    have hfirst := weight_splitAtByte hboundary
    rwa [← partEnd, hsplit] at hfirst
  rw [← partEnd] at hle
  refine ⟨htext, by omega, fun a ha => ?_⟩
  by_contra hfits
  obtain ⟨rest, rfl⟩ : ∃ tail, rest = a :: tail := by
    cases rest with
    | nil => cases ha
    | cons b tail => exact ⟨tail, by rw [Option.mem_some.1 ha]⟩
  -- The next character would have fitted, and its end is a boundary.
  have hnext : weight Char.utf8Size (part ++ [a]) = weight Char.utf8Size part + a.utf8Size := by
    simp [weight]
  have hlonger : isCharBoundary text (weight Char.utf8Size (part ++ [a])) = true := by
    rw [← htext]
    simpa using isCharBoundary_append (part ++ [a]) rest
  have htotal : weight Char.utf8Size text =
      weight Char.utf8Size part + (a.utf8Size + weight Char.utf8Size rest) := by
    rw [← htext, weight_append, weight_cons]
  have hreach : weight Char.utf8Size (part ++ [a]) ≤ partEnd text :=
    le_floorBoundary hlonger (by omega)
  have hpos := a.utf8Size_pos
  omega

lemma partStatements_split (text : List Char) (i : Nat) : ∃ parts,
    Split Char.utf8Size 480 text parts ∧
      partStatements text i = parts.mapIdx fun k part => requestPart (i + k) part := by
  fun_induction partStatements text i with
  | case1 i => exact ⟨[], .nil, rfl⟩
  | case2 text i hne ih =>
    obtain ⟨parts, hsplit, hparts⟩ := ih
    cases hcut : splitAtByte text (partEnd text) with
    | mk part rest =>
    rw [hcut] at hsplit hparts
    obtain ⟨htext, hfit, hfull⟩ := splitAtByte_partEnd hcut
    have hpart : part ≠ [] := by
      obtain ⟨c, tail, rfl⟩ := List.exists_cons_of_ne_nil hne
      obtain ⟨n, hn⟩ := Nat.exists_eq_succ_of_ne_zero
        (Nat.pos_iff_ne_zero.1 (partEnd_pos c tail))
      rw [hn, splitAtByte] at hcut
      rw [← (Prod.mk.inj hcut).1]
      exact List.cons_ne_nil _ _
    refine ⟨part :: parts, ?_, ?_⟩
    · cases rest with
      | nil =>
        have hnone : parts = [] := hsplit.unique .nil
        rw [← htext, List.append_nil, hnone]
        exact .last hpart hfit
      | cons a rest =>
        rw [← htext]
        exact .cons hpart hfit (hfull a rfl) hsplit
    · rw [hparts, List.mapIdx_cons]
      simp only [Nat.add_zero, Nat.add_assoc, Nat.add_comm 1]

/-- What the disclosure needs to know of an accepted request. -/
structure Disclosable (request : Request) (value : Json) : Prop where
  canonical : request.canonical = canonicalJson value
  sorted : value.Canonical SafeInt
  nested : value.nestedWithin 16 = true
  size : request.canonical.size ≤ 65536
  version : ∀ version ∈ request.expectedVersion, version.natAbs < 10 ^ 19

lemma natAbs_lt {n : Int} (hpos : 1 ≤ n) (hlt : n < 10 ^ 19) : n.natAbs < 10 ^ 19 := by
  lift n to Nat using by omega
  rw [Int.natAbs_natCast]
  exact_mod_cast hlt

lemma workRequest_disclosable {r : WorkRequest}
    (h : WorkRequest.fromJson? sha256 raw = some r) : ∃ value, Disclosable (.work r) value := by
  obtain ⟨fields, e, p, hfields, hreads, hr⟩ := (workContract sha256).read_eq_some.1 h
  obtain ⟨printed, -, hbytes, hneat, -⟩ := work_prints (strictJsonObject_ints hfields) hreads
  have hsize := hreads.size
  rw [hr] at hbytes hsize
  refine ⟨.obj printed, hbytes, hneat.1, hneat.2, hsize, fun version hversion => ?_⟩
  have hadmissible : e.admissible = true := hreads.admissible
  have hsome : e.expectedVersion = some version :=
    (congrArg WorkRequest.expectedVersion hr).trans hversion
  rw [Envelope.admissible, hsome, Bool.and_eq_true] at hadmissible
  have hbound := hadmissible.2
  simp only [isVersion, signed64Max, Bool.and_eq_true, decide_eq_true_eq] at hbound
  exact natAbs_lt hbound.2.1 (lt_of_le_of_lt (of_decide_eq_true hbound.2.2) (by decide))

lemma arenaRequest_disclosable {r : ArenaRequest}
    (h : ArenaRequest.fromJson? raw = some r) : ∃ value, Disclosable (.arena r) value := by
  obtain ⟨fields, e, p, hfields, hreads, hr⟩ := arenaContract.read_eq_some.1 h
  obtain ⟨printed, -, hbytes, hneat, -⟩ := arena_prints (strictJsonObject_ints hfields) hreads
  have hsize := hreads.size
  rw [hr] at hbytes hsize
  refine ⟨.obj printed, hbytes, hneat.1, hneat.2, hsize, fun version hversion => ?_⟩
  have he : ArenaEnvelope.ofFields fields = some e := hreads.envelope
  have hsome : e.expectedVersion = some version :=
    (congrArg ArenaRequest.expectedVersion hr).trans hversion
  simp only [ArenaEnvelope.ofFields, Option.bind_eq_bind, Option.bind_eq_some_iff, ensure_eq_some,
    Option.pure_def, required] at he
  obtain ⟨_, -, _, -, _, -, _, -, _, -, _, ⟨v, -, hv⟩, _, -, heq⟩ := he
  cases heq
  cases hsome
  unfold Json.asNullable at hv
  split at hv
  · cases hv
  · simp only [Option.map_eq_some_iff, Option.bind_eq_some_iff, ensure_eq_some, isArenaVersion,
      maxSafeInteger, Bool.and_eq_true, decide_eq_true_eq] at hv
    obtain ⟨_, ⟨_, -, hbound, rfl⟩, hversion⟩ := hv
    cases hversion
    exact natAbs_lt hbound.1 (lt_of_le_of_lt (of_decide_eq_true hbound.2) (by decide))

lemma parseNamedRequest_disclosable {request : Request}
    (h : parseNamedRequest sha256 raw = .ok request) : ∃ value, Disclosable request value := by
  unfold parseNamedRequest at h
  split at h
  · split at h
    · cases hwork : WorkRequest.fromJson? sha256 raw with
      | none => simp [WorkRequest.fromJson, hwork, Except.mapError] at h
      | some r =>
        simp [WorkRequest.fromJson, hwork, Except.mapError] at h
        subst h
        exact workRequest_disclosable hwork
    · split at h
      · cases harena : ArenaRequest.fromJson? raw with
        | none => simp [ArenaRequest.fromJson, harena, Except.mapError] at h
        | some r =>
          simp [ArenaRequest.fromJson, harena, Except.mapError] at h
          subst h
          exact arenaRequest_disclosable harena
      · cases h
  · cases h

lemma sortKeys_wrapper (value : Json) (keyDigest : String) :
    (credentialWrapper value keyDigest).sortKeys = .obj
      [("idempotency_key_digest_sha256", .str keyDigest), ("request", value.sortKeys),
        ("schema", .str credentialSchema)] := by
  have hschema : ¬ "schema".toList ≤ "idempotency_key_digest_sha256".toList := by decide
  have hschema' : ¬ "schema".toList ≤ "request".toList := by decide
  have hrequest : ¬ "request".toList ≤ "idempotency_key_digest_sha256".toList := by decide
  simp only [credentialWrapper, Json.sortKeys, sortFields, List.insertionSort, List.foldr,
    List.orderedInsert, if_neg hschema, if_neg hschema', if_neg hrequest]

lemma printChars_hex {s : String} (h : isLowerHex 64 s = true) :
    printChars false s.toList = s.toList := by
  obtain ⟨-, hhex⟩ := hex_ascii h
  have hplain : ∀ c ∈ s.toList, printChar false c = [c] := by
    intro c hc
    have hrange : 48 ≤ c.toNat ∧ c.toNat ≤ 57 ∨ 97 ≤ c.toNat ∧ c.toNat ≤ 102 := hhex c hc
    have hne : ∀ d : Char, d.toNat < 48 ∨ d.toNat = 92 → c ≠ d := by
      rintro d hd rfl
      omega
    have hletter : escapeLetter c = none := by
      simp [escapeLetter, hne '"' (by decide), hne '\\' (by decide), hne '\n' (by decide),
        hne '\r' (by decide), hne '\t' (by decide), hne '\x0c' (by decide), hne '\x08' (by decide)]
    rw [printChar, hletter]
    exact if_neg (by simp; omega)
  rw [printChars, List.flatMap_congr hplain, List.flatMap_singleton']

lemma size_requestText {value : Json} {keyDigest : String} (hkey : isLowerHex 64 keyDigest = true)
    (hsize : (canonicalJson value).size ≤ 65536) :
    (requestDomain ++ dumps false (credentialWrapper value keyDigest)).toUTF8.size ≤ 131072 := by
  have hdigest : weight Char.utf8Size (printString false keyDigest) = 66 := by
    rw [printString, printChars_hex hkey, weight_cons, weight_append, weight_hex hkey]
    rfl
  rw [canonicalJson, dumps, size_ofList] at hsize
  rw [size_append, dumps, size_ofList, sortKeys_wrapper]
  simp only [Json.print, printFields, weight_cons, weight_append, hdigest]
  have hdomain : requestDomain.toUTF8.size = 31 := rfl
  have hname : weight Char.utf8Size (printString false "idempotency_key_digest_sha256") = 31 := rfl
  have hrequest : weight Char.utf8Size (printString false "request") = 9 := rfl
  have hschema : weight Char.utf8Size (printString false "schema") = 8 := rfl
  have htext : weight Char.utf8Size (printString false credentialSchema) = 32 := rfl
  rw [hdomain, hname, hrequest, hschema, htext]
  have hsigns : '\x7b'.utf8Size = 1 ∧ ':'.utf8Size = 1 ∧ ','.utf8Size = 1 ∧
    '\x7d'.utf8Size + weight Char.utf8Size [] = 1 := ⟨rfl, rfl, rfl, rfl⟩
  rw [hsigns.1, hsigns.2.1, hsigns.2.2.1, hsigns.2.2.2]
  omega

/-! ## Statements -/

section Statements

variable {request : Request} {value : Json} {keyDigest : String}

lemma length_parts (h : Disclosable request value) :
    (splitLoop Char.utf8Size 480 (dumps false value).toList [] [] 0).length ≤ 138 := by
  have hsplit : Split Char.utf8Size 480 (dumps false value).toList _ :=
    splitLoop_split fun c _ => c.utf8Size_le_four.trans (by decide)
  have hcount := hsplit.length_mul_le fun c _ => c.utf8Size_le_four
  have hsize := h.size
  rw [h.canonical, canonicalJson, size_toUTF8] at hsize
  omega

lemma size_requestPart {i : Nat} {part : List Char} (hi : i < 138)
    (hpart : weight Char.utf8Size part ≤ 480) : (requestPart i part).toUTF8.size ≤ 512 := by
  have hnumber : weight Char.utf8Size (printNat (i + 1)) ≤ 3 := weight_printNat (by omega)
  have hlabel : "Request part ".toUTF8.size = 13 ∧ ": ".toUTF8.size = 2 := ⟨rfl, rfl⟩
  rw [requestPart, size_append, size_append, size_append, size_ofList (printNat _),
    size_ofList part]
  omega

lemma size_operation (request : Request) :
    ("Operation: " ++ request.authorityOperation).toUTF8.size ≤ 512 := by
  cases request with
  | work r =>
    have hall : ∀ operation : Operation, ∀ schema : Schema, ("Operation: " ++ ("devgraph.work." ++
        operation.name ++ ".v" ++ toString schema.version)).toUTF8.size ≤ 512 := by
      intro operation schema
      cases operation <;> cases schema <;> decide +kernel
    exact hall r.operation r.schema
  | arena r =>
    have hall : ∀ operation : ArenaOperation,
        ("Operation: " ++ ("devgraph.arena." ++ operation.name ++ ".v1")).toUTF8.size ≤ 512 := by
      intro operation
      cases operation <;> decide +kernel
    exact hall r.operation

lemma size_version (h : Disclosable request value) :
    ("Expected version: " ++ match request.expectedVersion with
      | some version => String.ofList (printInt version)
      | none => "new").toUTF8.size ≤ 512 := by
  have hlabel : "Expected version: ".toUTF8.size = 18 := rfl
  rw [size_append]
  cases hversion : request.expectedVersion with
  | none =>
    have hnew : "new".toUTF8.size = 3 := rfl
    simp only
    omega
  | some version =>
    have hnumber := weight_printInt (h.version version hversion)
    simp only [size_ofList]
    omega

lemma size_part (h : Disclosable request value) {item : String}
    (hitem : item ∈
      (splitLoop Char.utf8Size 480 (dumps false value).toList [] [] 0).mapIdx requestPart) :
    item.toUTF8.size ≤ 512 := by
  obtain ⟨i, hi, rfl⟩ := List.mem_mapIdx.1 hitem
  have hsplit : Split Char.utf8Size 480 (dumps false value).toList _ :=
    splitLoop_split fun c _ => c.utf8Size_le_four.trans (by decide)
  exact size_requestPart (lt_of_lt_of_le hi (length_parts h))
    (hsplit.weight_le _ (List.getElem_mem hi))

/-- Only the line of resources can be too long. -/
lemma size_statement (h : Disclosable request value) (hkey : isLowerHex 64 keyDigest = true)
    {item : String} (hitem : item ∈ disclosureStatements request (dumps false value) keyDigest)
    (hresources : item ≠ "Resources: " ++ String.intercalate ", " request.resources) :
    item.toUTF8.size ≤ 512 := by
  obtain hhead | hpart := List.mem_append.1 hitem
  · simp only [List.mem_cons, List.not_mem_nil, or_false] at hhead
    obtain rfl | rfl | rfl | rfl := hhead
    · exact size_operation request
    · exact absurd rfl hresources
    · exact size_version h
    · have hlabel : "Idempotency digest: ".toUTF8.size = 20 := rfl
      rw [size_append, size_toUTF8 keyDigest, weight_hex hkey]
      omega
  · exact size_part h hpart

lemma length_statements (h : Disclosable request value) :
    (disclosureStatements request (dumps false value) keyDigest).length ≤ 144 := by
  have hparts := length_parts h
  rw [disclosureStatements, List.length_append, List.length_mapIdx]
  simp only [List.length_cons, List.length_nil]
  omega

end Statements

lemma credentialRequestBinding_eq {request : Request}
    {value : Json} (hrequest : parseNamedRequest sha256 raw = .ok request)
    (h : Disclosable request value) {key : String} (hkey : isExactIdempotencyKey key = true)
    (hsha : isLowerHex 64 (sha256 key) = true) :
    credentialRequestBinding sha256 raw key =
      if (disclosureStatements request (dumps false value) (sha256 key)).any
          (fun item => item.toUTF8.size > 512 || !displaySafe item) = true then
        .error unsupportedDisclosure
      else .ok
        { requestBytes :=
            (requestDomain ++ dumps false (credentialWrapper value (sha256 key))).toUTF8
          requestDigest :=
            sha256 (requestDomain ++ dumps false (credentialWrapper value (sha256 key)))
          title := "Devgraph request"
          statements := disclosureStatements request (dumps false value) (sha256 key)
          disclosureDigest := sha256 (dumps false (disclosureJson "Devgraph request"
            (disclosureStatements request (dumps false value) (sha256 key)))) } := by
  have htext : String.fromUTF8? request.canonical = some (dumps false value) := by
    rw [h.canonical]
    exact fromUTF8?_toUTF8 _
  have hloads : loads plainJson (dumps false value).toList = some value :=
    loads_dumps_of_canonical (fun _ _ => rfl) false h.sorted
  have hbytes := size_requestText hsha (h.canonical ▸ h.size)
  have hcount : (disclosureStatements request (dumps false value) (sha256 key)).length ≤ 144 :=
    length_statements h
  have hdigest : digestIdempotencyKey sha256 key = .ok (sha256 key) := by
    simp [digestIdempotencyKey, raiseIf, hkey]
  simp only [credentialRequestBinding, hrequest, hdigest, htext, hloads, Option.elim, bind,
    Except.bind, raiseIf]
  by_cases hbad : (disclosureStatements request (dumps false value) (sha256 key)).any
      (fun item => item.toUTF8.size > 512 || !displaySafe item) = true
  · rw [if_pos hbad, if_pos (.inr (.inr hbad))]
    rfl
  · rw [if_neg hbad, if_neg]
    · rfl
    · rintro (hlong | hmany | hhidden)
      · omega
      · omega
      · exact hbad hhidden

lemma toUTF8_injective {s t : String} (h : s.toUTF8 = t.toUTF8) : s = t := by
  have hread := congrArg String.fromUTF8? h
  rwa [fromUTF8?_toUTF8, fromUTF8?_toUTF8, Option.some.injEq] at hread

lemma nativeRequest_value {value : Json} (hsorted : value.Canonical SafeInt)
    (hsame : client.canonical = canonicalJson value) : client.value.sortKeys = value.sortKeys := by
  have hprinted := client.printed
  unfold nativeCanonicalJson at hprinted
  split at hprinted
  · have hbytes : canonicalJson client.value = canonicalJson value :=
      (Option.some.inj hprinted).trans hsame
    exact dumps_injective plainJson false client.distinct
      (readable_of_canonical (fun _ _ => rfl) value hsorted) (toUTF8_injective hbytes)
  · cases hprinted

lemma native_wrapper {value : Json} (hsorted : value.Canonical SafeInt)
    (hnested : value.nestedWithin 16 = true) (hsame : client.canonical = canonicalJson value)
    (keyDigest : String) : nativeCanonicalJson (credentialWrapper client.value keyDigest) =
      some (canonicalJson (credentialWrapper value keyDigest)) := by
  have hvalue := nativeRequest_value hsorted hsame
  have hdepth : client.value.nestedWithin 63 = true := by
    refine nestedWithin_mono (show 16 ≤ 63 by decide) _ ?_
    rw [← nestedWithin_sortKeys, hvalue, nestedWithin_sortKeys]
    exact hnested
  have hwrapper : (credentialWrapper client.value keyDigest).nestedWithin 64 = true :=
    nested_obj (nested_cons rfl (nested_cons hdepth (nested_cons rfl rfl)))
  rw [nativeCanonicalJson, if_pos hwrapper, canonicalJson, canonicalJson, dumps, dumps,
    sortKeys_wrapper, sortKeys_wrapper, hvalue]

lemma native_parts {text : String} :
    partStatements text.toList 0 =
      (splitLoop Char.utf8Size 480 text.toList [] [] 0).mapIdx requestPart := by
  obtain ⟨parts, hsplit, hparts⟩ := partStatements_split text.toList 0
  have hsame := hsplit.unique (splitLoop_split fun c _ => c.utf8Size_le_four.trans (by decide))
  rw [hparts, hsame]
  simp only [Nat.zero_add]

lemma printInt_ofNat (n : Nat) : printInt (Int.ofNat n) = printNat n := by
  unfold printInt
  rw [if_neg (by simp)]
  rfl

lemma native_statements {w : WorkRequest} {text keyDigest : String}
    (hoperation : client.operation = w.authorityOperation)
    (hresources : client.resources = w.resources)
    (hversion : client.expectedVersion.map Int.ofNat = w.expectedVersion) :
    ["Operation: " ++ client.operation,
      "Resources: " ++ String.intercalate ", " client.resources,
      "Expected version: " ++
        (client.expectedVersion.map fun version => String.ofList (printNat version)).getD "new",
      "Idempotency digest: " ++ keyDigest] ++ partStatements text.toList 0 =
    disclosureStatements (.work w) text keyDigest := by
  rw [disclosureStatements, native_parts, hoperation, hresources]
  have hexpected : (Request.work w).expectedVersion = client.expectedVersion.map Int.ofNat :=
    hversion.symm
  rw [hexpected]
  cases client.expectedVersion with
  | none => rfl
  | some version =>
    simp only [Option.map_some, printInt_ofNat]
    rfl

lemma native_bindings {w : WorkRequest}
    {value : Json} (h : Disclosable (.work w) value) {key : String}
    (hkey : isExactIdempotencyKey key = true) (hsha : isLowerHex 64 (sha256 key) = true)
    (hsame : client.canonical = w.canonical) (hoperation : client.operation = w.authorityOperation)
    (hresources : client.resources = w.resources)
    (hversion : client.expectedVersion.map Int.ofNat = w.expectedVersion) :
    client.bindings sha256 key =
      some ((requestDomain ++ dumps false (credentialWrapper value (sha256 key))).toUTF8,
        disclosureStatements (.work w) (dumps false value) (sha256 key)) := by
  have hcanonical : client.canonical = canonicalJson value := hsame.trans h.canonical
  have hbody := native_wrapper h.sorted h.nested hcanonical (sha256 key)
  have htext : String.fromUTF8? client.canonical = some (dumps false value) := by
    rw [hcanonical]
    exact fromUTF8?_toUTF8 _
  have hbytes : requestDomain.toUTF8 ++ canonicalJson (credentialWrapper value (sha256 key)) =
      (requestDomain ++ dumps false (credentialWrapper value (sha256 key))).toUTF8 :=
    (String.toByteArray_append ..).symm
  have hsize := size_requestText hsha (h.canonical ▸ h.size)
  have hcount : (disclosureStatements (.work w) (dumps false value) (sha256 key)).length ≤ 144 :=
    length_statements h
  rw [NativeRequest.bindings, ensure, if_pos hkey]
  simp only [Option.bind_eq_bind, Option.bind_some, hbody, htext, hbytes,
    native_statements hoperation hresources hversion]
  exact if_neg (by omega)

/-- The disclosure of an accepted request is lossless, its limits never refuse it, and the native
client signs and shows the same. -/
theorem signed_disclosure_lossless (sha256 : String → String)
    (hsha : ∀ text, isLowerHex 64 (sha256 text) = true) (raw : ByteArray) (request : Request)
    (hrequest : parseNamedRequest sha256 raw = .ok request) (key : String)
    (hkey : isExactIdempotencyKey key = true) :
    ∃ text : String, text.toUTF8 = request.canonical ∧
      (∀ binding, credentialRequestBinding sha256 raw key = .ok binding →
        (∃ parts : List (List Char), (binding.statements.drop 4 = parts.mapIdx fun i part =>
            "Request part " ++ String.ofList (printNat (i + 1)) ++ ": " ++ String.ofList part) ∧
          parts.flatten = text.toList) ∧
        (∀ item ∈ binding.statements, item.toUTF8.size ≤ 512) ∧
        binding.statements.length ≤ 144) ∧
      -- Why it can fail.
      ((∃ e, credentialRequestBinding sha256 raw key = .error e) ↔
        512 < ("Resources: " ++ String.intercalate ", " request.resources).toUTF8.size ∨
        ∃ item ∈ disclosureStatements request text (sha256 key), displaySafe item = false) ∧
      -- Why it never fails.
      ((disclosureStatements request text (sha256 key)).length ≤ 144 ∧
        (∀ item ∈ (disclosureStatements request text (sha256 key)).drop 4,
          item.toUTF8.size ≤ 512) ∧
        ∀ value, loads plainJson text.toList = some value →
          (requestDomain ++ dumps false (credentialWrapper value (sha256 key))).toUTF8.size ≤
            131072) ∧
      ∀ w client binding, request = .work w →
        credentialRequestBinding sha256 raw key = .ok binding →
        client.canonical = w.canonical → client.operation = w.authorityOperation →
        client.resources = w.resources →
        client.expectedVersion.map Int.ofNat = w.expectedVersion →
        NativeRequest.bindings sha256 client key =
          some (binding.requestBytes, binding.statements) := by
  obtain ⟨value, h⟩ := parseNamedRequest_disclosable hrequest
  have hbinding := credentialRequestBinding_eq hrequest h hkey (hsha key)
  have hsplit : Split Char.utf8Size 480 (dumps false value).toList _ :=
    splitLoop_split fun c _ => c.utf8Size_le_four.trans (by decide)
  have hloads : loads plainJson (dumps false value).toList = some value :=
    loads_dumps_of_canonical (fun _ _ => rfl) false h.sorted
  refine ⟨dumps false value, h.canonical.symm, fun binding hok => ?_, ?_, ⟨length_statements h, ?_,
    ?_⟩, ?_⟩
  · rw [hbinding] at hok
    split at hok
    · cases hok
    · rename_i hgood
      cases hok
      refine ⟨⟨_, rfl, hsplit.flatten⟩, fun item hitem => ?_, length_statements h⟩
      simp only [List.any_eq_true, Bool.or_eq_true, decide_eq_true_eq, not_exists, not_and] at hgood
      by_contra hlong
      exact hgood item hitem (.inl (Nat.lt_of_not_le hlong))
  · rw [hbinding]
    split
    · rename_i hbad
      refine iff_of_true ⟨_, rfl⟩ ?_
      obtain ⟨item, hitem, hwhy⟩ := List.any_eq_true.1 hbad
      rw [Bool.or_eq_true, decide_eq_true_eq, Bool.not_eq_true'] at hwhy
      obtain hlong | hhidden := hwhy
      · by_cases hresources : item = "Resources: " ++ String.intercalate ", " request.resources
        · exact .inl (hresources ▸ hlong)
        · exact absurd (size_statement h (hsha key) hitem hresources) (Nat.not_le_of_lt hlong)
      · exact .inr ⟨item, hitem, hhidden⟩
    · rename_i hgood
      refine iff_of_false (fun ⟨_, herror⟩ => nomatch herror) fun hwhy => hgood ?_
      rw [List.any_eq_true]
      obtain hlong | ⟨item, hitem, hhidden⟩ := hwhy
      · refine ⟨_, List.mem_append_left _ (List.mem_cons_of_mem _ List.mem_cons_self), ?_⟩
        rw [Bool.or_eq_true, decide_eq_true_eq]
        exact .inl hlong
      · exact ⟨item, hitem, by rw [hhidden, Bool.not_false, Bool.or_true]⟩
  · exact fun item hitem => size_part h hitem
  · intro value' hvalue'
    rw [hloads] at hvalue'
    cases hvalue'
    exact size_requestText (hsha key) (h.canonical ▸ h.size)
  · rintro w client binding rfl hok hsame hoperation hresources hversion
    rw [native_bindings h hkey (hsha key) hsame hoperation hresources hversion]
    rw [hbinding] at hok
    split at hok
    · cases hok
    · cases hok
      rfl

lemma displaySafe_append (s t : String) :
    displaySafe (s ++ t) = (displaySafe s && displaySafe t) := by
  simp only [displaySafe, String.toList_append, List.any_append, Bool.not_or]

theorem signed_disclosure_lossless_short : ∃ binding : CredentialRequestBinding,
    credentialRequestBinding (fun _ => String.ofList (List.replicate 64 '0'))
      (canonicalJson (.obj shortRequest)) "0123456789abcdef" = .ok binding ∧
    (∃ parts : List (List Char), (binding.statements.drop 4 = parts.mapIdx fun i part =>
        "Request part " ++ String.ofList (printNat (i + 1)) ++ ": " ++ String.ofList part) ∧
      (String.ofList parts.flatten).toUTF8 = shortWork.canonical) ∧
    binding.statements.length ≤ 144 := by
  let sha256 : String → String := fun _ => String.ofList (List.replicate 64 '0')
  have hrequest : parseNamedRequest sha256 (canonicalJson (.obj shortRequest)) =
      .ok (.work shortWork) := by
    rw [parseNamedRequest, strictJsonObject_shortRequest, fromJson_shortRequest]
    rfl
  obtain ⟨text, htext, hlossless, hfails, -, -⟩ := signed_disclosure_lossless sha256
    (fun _ => by decide) (canonicalJson (.obj shortRequest)) (.work shortWork) hrequest
    "0123456789abcdef" (by decide)
  have hcanonical : shortWork.canonical = canonicalJson (materialized .v2 .todo "a" none
      (.create ⟨"a", "T", "", 0, [], []⟩)) := by simp only [shortWork, Envelope.request]
  have hdumps : text = dumps false (materialized .v2 .todo "a" none
      (.create ⟨"a", "T", "", 0, [], []⟩)) := toUTF8_injective (htext.trans hcanonical)
  cases hresult : credentialRequestBinding sha256 (canonicalJson (.obj shortRequest))
      "0123456789abcdef" with
  | error e =>
    let printed := (materialized .v2 .todo "a" none
      (.create ⟨"a", "T", "", 0, [], []⟩)).sortKeys.print false
    have hprinted : text.toList = printed := by rw [hdumps, dumps, String.toList_ofList]
    have hparts : splitLoop Char.utf8Size 480 text.toList [] [] 0 = [printed] := by
      rw [hprinted]
      decide +kernel
    obtain hlong | ⟨item, hitem, hhidden⟩ := hfails.1 ⟨e, hresult⟩
    · exact absurd hlong (by decide +kernel)
    · rw [disclosureStatements, hparts] at hitem
      simp only [List.mapIdx_cons, List.mapIdx_nil, List.cons_append, List.nil_append,
        List.mem_cons, List.not_mem_nil, or_false] at hitem
      obtain rfl | rfl | rfl | rfl | rfl := hitem
      case inr.inr.inr.inr =>
        have hpart : displaySafe (String.ofList printed) = true := by
          rw [displaySafe, String.toList_ofList]
          decide +kernel
        rw [requestPart, displaySafe_append, hpart, Bool.and_true] at hhidden
        exact absurd hhidden (by decide +kernel)
      all_goals exact absurd hhidden (by decide +kernel)
  | ok binding =>
    obtain ⟨⟨parts, hparts, hflatten⟩, -, hcount⟩ := hlossless binding hresult
    refine ⟨binding, rfl, ⟨parts, hparts, ?_⟩, hcount⟩
    rw [hflatten, String.ofList_toList, htext]
    rfl

end DevGraph.Proofs
