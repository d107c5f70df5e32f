import DevGraph.Lib.Except
import DevGraph.Native.StrictJson

/-!
# Strict JSON is the closed integer profile

Over the bytes of a tree the token check looks at exactly the numbers of the tree. Once they are
safe integers, the feature of `serde_json` makes no difference to the visitor, which returns the
value of the tree unless an object repeats a key.
-/

namespace DevGraph.Proofs
open Lib Lib.JsonText Native

variable {w : List UInt8}

namespace StrictJson

/-- A number written as an integer, not as `-0`, within the safe range. -/
def SafeInteger (w : List UInt8) : Prop :=
  w ≠ [45, 48] ∧ Digits (unsigned w) ∧ (signed w).natAbs ≤ maxSafe

def Numbers (P : List UInt8 → Prop) {p : Part} : Tree p → Prop
  | .atom (.number w _) => P w
  | .node _ body => Numbers P body
  | .cons _ _ _ v body => Numbers P v ∧ Numbers P body
  | _ => True

def keys {p : Part} : Tree p → List String
  | .cons _ label _ _ body => names label ++ keys body
  | _ => []

/-- No object repeats a decoded key. -/
def Distinct {p : Part} : Tree p → Prop
  | .node _ body => (keys body).Nodup ∧ Distinct body
  | .cons _ _ _ v body => Distinct v ∧ Distinct body
  | _ => True

/-- The number of containers that some value of a tree lies inside, at most. -/
def inside {p : Part} : Tree p → Nat
  | .node _ body => inside body
  | .cons _ _ _ v body => max (inside v + 1) (inside body)
  | _ => 0

lemma checkToken_ok : checkToken w = .ok () ↔ SafeInteger w := by
  have hrange : (signed w).natAbs ≤ maxSafe → -2 ^ 63 ≤ signed w ∧ signed w < 2 ^ 63 := by
    rw [maxSafe]
    omega
  rw [checkToken, SafeInteger, Digits]
  split_ifs with htoken hvalue
  · grind
  · grind [parseI64]
  · grind [parseI64]

def plain (c : UInt8) : Bool := c != 34 && c != 45 && !digit c

section Validate

variable {r : List UInt8}

lemma validate_plain (hw : ∀ c ∈ w, plain c = true) :
    validateFrom false false (w ++ r) = validateFrom false false r := by
  induction w with
  | nil => rfl
  | cons c w ih =>
    obtain ⟨hc, hw⟩ := List.forall_mem_cons.1 hw
    rw [List.cons_append, validateFrom, ← ih hw]
    grind [plain]

lemma validate_quoted {s : List UInt8} (hs : Quotable s) :
    validateFrom true false (s ++ 34 :: r) = validateFrom false false r := by
  induction hs with
  | nil => simp [validateFrom]
  | char hquote hescape _ ih => simp [validateFrom, hquote, hescape, ih]
  | escape _ ih => simp [validateFrom, ih]

lemma validate_number (hw : Number w) (hr : Delimited r) :
    validateFrom false false (w ++ r) = .ok () ↔
      SafeInteger w ∧ validateFrom false false r = .ok () := by
  obtain ⟨c, w, rfl, hc⟩ := hw.head
  have hword : ∀ d ∈ w, (!tokenEnd d) = true := by
    intro d hd
    have hd := hw.inWord d (List.mem_cons_of_mem c hd)
    grind [inWord, delimiter, blank, tokenEnd]
  have hend : ∀ d ∈ r.head?, (!tokenEnd d) = false := by
    intro d hd
    have hd := hr d hd
    grind [delimiter, blank, tokenEnd]
  obtain ⟨htake, hdrop⟩ := run_split hword hend
  have hquote : c ≠ 34 := by grind [digit]
  rw [List.cons_append, validateFrom, if_neg Bool.false_ne_true, if_neg hquote, htake, hdrop,
    if_pos (by simpa using hc), ← checkToken_ok, except_bind_ok]
  constructor
  · rintro ⟨_, hcheck, hrest⟩
    exact ⟨hcheck, hrest⟩
  · rintro ⟨hcheck, hrest⟩
    exact ⟨(), hcheck, hrest⟩

lemma validate_blanks (b : Blanks) :
    validateFrom false false (b.1 ++ r) = validateFrom false false r :=
  validate_plain fun c hc => by grind [blank, plain, digit, b.2 c hc]

lemma validate_byte {c : UInt8} (hc : plain c = true) :
    validateFrom false false (c :: r) = validateFrom false false r :=
  validate_plain (w := [c]) (by simpa using hc)

lemma validate_string (s : Quoted) :
    validateFrom false false (34 :: (s.1 ++ 34 :: r)) = validateFrom false false r := by
  rw [validateFrom, if_neg Bool.false_ne_true, if_pos rfl, validate_quoted s.2]

lemma validate_lead {k : Kind} {started : Bool} (sep : Sep started) (label : Label k) :
    validateFrom false false (sep.write (label.write r)) = validateFrom false false r := by
  have hcomma := @validate_byte (c := 44)
  have hcolon := @validate_byte (c := 58)
  cases sep <;> cases label <;>
    simp [Sep.write, Label.write, validate_blanks, validate_string, hcomma, hcolon, plain, digit]

end Validate

theorem validate_tree {p : Part} (t : Tree p) {r : List UInt8} (hr : p = .value → Delimited r) :
    validateFrom false false (t.write r) = .ok () ↔
      Numbers SafeInteger t ∧ validateFrom false false r = .ok () := by
  induction t generalizing r with
  | atom a =>
    have hliteral : ∀ w, (∀ c ∈ w, plain c = true) → (validateFrom false false (w ++ r) = .ok () ↔
        True ∧ validateFrom false false r = .ok ()) := by
      intro w hw
      rw [validate_plain hw, true_and]
    cases a with
    | null => exact hliteral _ (List.all_eq_true.1 rfl)
    | bool b => cases b <;> exact hliteral _ (List.all_eq_true.1 rfl)
    | number w hw => exact validate_number hw (hr rfl)
  | str s => simp [Tree.write, Numbers, validate_string]
  | node k body ih =>
    have hopen : plain k.opening = true := by cases k <;> rfl
    rw [Tree.write, validate_byte hopen]
    exact ih (by rintro ⟨⟩)
  | @close k _ b =>
    have hclose : plain k.closing = true := by cases k <;> rfl
    simp [Tree.write, validate_blanks, validate_byte hclose, Numbers]
  | cons sep label b v body ihv ihb =>
    rw [Tree.write, validate_lead, validate_blanks, ihv fun _ => body.delimited r,
      ihb (by rintro ⟨⟩), Numbers, and_assoc]

lemma visitNumber_of_safe (h : SafeInteger w) (arbitraryPrecision : Bool) :
    visitNumber arbitraryPrecision w = some (.int (signed w)) := by
  obtain ⟨hzero, hdigits, hsafe⟩ := h
  rw [visitNumber, if_pos, if_neg (by omega)]
  rw [maxSafe] at hsafe
  exact ⟨by simpa using hdigits.2, by omega, by omega, .inr hzero⟩

/-- With safe integers only, the visitor gives the value of a tree without repeated keys. -/
theorem visit_eq_some {p : Part} (t : Tree p) (ht : Numbers SafeInteger t) (ap : Bool)
    (seen : List String) (x : Out p) :
    visit ap t seen = some x ↔
      t.value? = some x ∧ Distinct t ∧ (keys t).Nodup ∧ (keys t).Disjoint seen := by
  induction t generalizing seen with
  | atom a =>
    cases a with
    | number w hw =>
      have hdigits : (unsigned w).all digit = true := by simpa using ht.2.1.2
      simp [visit, visitNumber_of_safe ht ap, Tree.value?, Atom.value?, hdigits, Distinct, keys]
    | _ => simp [visit, Tree.value?, Distinct, keys]
  | str s => simp [visit, Tree.value?, Distinct, keys]
  | node k body ih =>
    simp only [visit, Tree.value?, Option.map_eq_some_iff, ih ht [], Distinct, keys,
      List.nodup_nil, List.disjoint_nil_left, List.disjoint_nil_right]
    exact ⟨fun ⟨es, ⟨hes, hd, hk, _⟩, hx⟩ => ⟨⟨es, hes, hx⟩, ⟨hk, hd⟩, trivial, trivial⟩,
      fun ⟨⟨es, hes, hx⟩, ⟨hk, hd⟩, _⟩ => ⟨es, ⟨hes, hd, hk, trivial⟩, hx⟩⟩
  | close b => simp [visit, Tree.value?, Distinct, keys]
  | cons sep label b v body ihv ihb =>
    have hnames : (names label).Nodup := by
      cases label with
      | item => exact List.nodup_nil
      | key b name c => cases h : decode name <;> simp [names, h]
    have hkeys : (names label ++ keys body).Nodup ∧ (names label ++ keys body).Disjoint seen ↔
        (¬∃ name ∈ names label, name ∈ seen) ∧ (keys body).Nodup ∧
          (keys body).Disjoint (names label ++ seen) := by
      rw [List.nodup_append', List.disjoint_append_left, List.disjoint_append_right]
      grind [List.Disjoint]
    simp only [visit, Tree.value?, option_bind_some, ihv ht.1, Distinct, keys, hkeys,
      Option.ite_none_left_eq_some, Option.map_eq_some_iff, ihb ht.2]
    constructor
    · rintro ⟨w, ⟨hw, hdv, -⟩, e, he, hfresh, es, ⟨hes, hdb, hk⟩, hx⟩
      exact ⟨⟨w, hw, e, he, es, hes, congrArg some hx⟩, ⟨hdv, hdb⟩, hfresh, hk⟩
    · rintro ⟨⟨w, hw, e, he, es, hes, hx⟩, ⟨hdv, hdb⟩, hfresh, hk⟩
      exact ⟨w, ⟨hw, hdv, List.nodup_nil, List.disjoint_nil_left _⟩, e, he, hfresh, es,
        ⟨hes, hdb, hk⟩, Option.some.inj hx⟩

/-- A value as it is, the rest of a container as a container. -/
def whole : (p : Part) → Out p → Json
  | .value, v => v
  | .rest k _, es => container k es

theorem depth_iff {p : Part} (t : Tree p) {x : Out p} (h : t.value? = some x) (n : Nat) :
    depth n (whole p x) = true ↔ n + inside t ≤ 16 := by
  induction t generalizing n with
  | atom a =>
    cases a with
    | number w hw =>
      simp only [Tree.value?, Atom.value?, Option.ite_none_right_eq_some, Option.some.injEq] at h
      simp [← h.2, whole, depth, inside]
    | _ =>
      cases h
      simp [whole, depth, inside]
  | str s =>
    obtain ⟨text, -, rfl⟩ := Option.map_eq_some_iff.1 h
    simp [whole, depth, inside]
  | node k body ih =>
    obtain ⟨es, hes, rfl⟩ := Option.map_eq_some_iff.1 h
    exact ih hes n
  | @close k _ b =>
    cases h
    cases k <;> simp [whole, container, depth, depthItems, depthFields, inside]
  | @cons k _ sep label b v body ihv ihb =>
    simp only [Tree.value?, option_bind_some] at h
    obtain ⟨w, hw, e, he, es, hes, ⟨⟩⟩ := h
    have hcons : depth n (container k (e :: es)) =
      (depth (n + 1) w && depth n (container k es)) := by
      cases label with
      | item =>
        cases he
        exact Bool.and_left_comm ..
      | key c name d =>
        obtain ⟨text, -, rfl⟩ := Option.map_eq_some_iff.1 he
        exact Bool.and_left_comm ..
    rw [whole, hcons, Bool.and_eq_true, inside]
    refine (and_congr (ihv hw (n + 1)) (ihb hes n)).trans ?_
    omega

end StrictJson

/-- A text has one tree, so that an exact parser exists. -/
lemma serde_nonempty : Nonempty Serde := by
  classical
  refine ⟨fun raw => if h : ∃ t : Text, t.bytes = raw ∧ Strings (fun s => (decode s).isSome) t.tree
    then some h.choose else none, fun raw t => ?_⟩
  split_ifs with h
  · constructor
    · rintro ⟨⟩
      exact h.choose_spec
    · intro ht
      exact congrArg some (Text.bytes_injective (h.choose_spec.1.trans ht.1.symm))
  · exact ⟨by rintro ⟨⟩, fun ht => absurd ⟨t, ht⟩ h⟩

open StrictJson in
/-- Strict JSON takes exactly the JSON texts of the closed integer profile within the size limit,
whatever the features of the parser, and returns the value of the text. -/
theorem strictJson_exact (serde : Serde) (arbitraryPrecision : Bool) (raw : List UInt8)
    (maximum : Nat) (v : Json) :
    strictJson serde arbitraryPrecision raw maximum = .ok v ↔
      raw.length ≤ maximum ∧ ∃ t : Text, t.bytes = raw ∧
        Strings (fun s => (decode s).isSome) t.tree ∧ Numbers SafeInteger t.tree ∧
        Distinct t.tree ∧ inside t.tree ≤ 16 ∧ t.tree.value? = some v := by
  have hvalidate : ∀ t : Text, validateIntegerTokens t.bytes = .ok () ↔
      Numbers SafeInteger t.tree := by
    intro t
    have hend := @validate_blanks [] t.after
    rw [List.append_nil] at hend
    rw [validateIntegerTokens, Text.bytes, validate_blanks,
      validate_tree t.tree fun _ => blanks_delimited t.after, hend, validateFrom,
      and_iff_left rfl]
  constructor
  · intro h
    rw [strictJson] at h
    split_ifs at h with hsize
    obtain ⟨_, htokens, h⟩ := except_bind_ok.1 h
    split at h
    · cases h
    · rename_i value hread
      split_ifs at h with hdepth
      cases h
      obtain ⟨t, ht, hvisit⟩ := Option.bind_eq_some_iff.1 hread
      obtain ⟨rfl, hstrings⟩ := (serde.exact raw t).1 ht
      have hnumbers := (hvalidate t).1 htokens
      obtain ⟨hvalue, hdistinct, -⟩ := (visit_eq_some t.tree hnumbers _ _ _).1 hvisit
      have hinside := (depth_iff t.tree hvalue 0).1 hdepth
      exact ⟨by omega, t, rfl, hstrings, hnumbers, hdistinct, by omega, hvalue⟩
  · rintro ⟨hsize, t, rfl, hstrings, hnumbers, hdistinct, hinside, hvalue⟩
    have hvisit := (visit_eq_some t.tree hnumbers arbitraryPrecision [] v).2
      ⟨hvalue, hdistinct, by simp [keys], List.disjoint_nil_right _⟩
    have hdepth := (depth_iff t.tree hvalue 0).2 (by omega)
    rw [whole] at hdepth
    have hread := (serde.exact t.bytes t).2 ⟨rfl, hstrings⟩
    rw [strictJson, if_neg (by omega), (hvalidate t).2 hnumbers, hread]
    simp [bind, Except.bind, hvisit, hdepth]

open StrictJson in
theorem strictJson_exact_object : ∃ serde, ∀ arbitraryPrecision,
    strictJson serde arbitraryPrecision [123, 34, 97, 34, 58, 55, 125] 7 =
      .ok (.obj [("a", .int 7)]) := by
  obtain ⟨serde⟩ := serde_nonempty
  let blanks : Blanks := ⟨[], nofun⟩
  let name : Quoted := ⟨[97], .char (by decide) (by decide) .nil⟩
  have hdigits : Digits [55] := ⟨nofun, List.forall_mem_singleton.2 rfl⟩
  have hseven : Number [55] :=
    @Number.mk [] [55] [] [] (.inl rfl) hdigits nofun (.inl rfl) (.inl rfl)
  have hname : decode name = some "a" := by decide +kernel
  refine ⟨serde, fun _ => (strictJson_exact _ _ _ _ _).2 ⟨by decide, ⟨blanks, .node .object
    (.cons .none (.key blanks name blanks) blanks (.atom (.number [55] hseven)) (.close blanks)),
    blanks⟩, rfl, ?_⟩⟩
  simp only [Strings, hname, Numbers, Distinct, keys, names, inside, Tree.value?, Label.elem]
  exact ⟨by decide, ⟨⟨nofun, hdigits, by decide⟩, trivial⟩, by decide, by decide, rfl⟩

end DevGraph.Proofs
