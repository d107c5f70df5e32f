import DevGraph.Lib.JsonText
import DevGraph.Work.CypherRead

/-!
# The nesting scan and the grammar

On the bytes of a tree the level of the scan is the number of open containers after each byte,
whatever follows. So a reader that has met no error yet has as many containers open as the scan
counts.
-/

namespace DevGraph.Proofs
open Work Lib.JsonText

namespace Nesting

def after (s : NestingScan) (byte : UInt8) : NestingScan :=
  if s.quoted then
    if s.escaped then { s with escaped := false }
    else if byte = 92 then { s with escaped := true }
    else if byte = 34 then { s with quoted := false }
    else s
  else if byte = 34 then { s with quoted := true }
  else if byte = 91 ∨ byte = 123 then { s with level := s.level + 1 }
  else if byte = 93 ∨ byte = 125 then { s with level := s.level - 1 }
  else s

def levels : NestingScan → List UInt8 → List Int
  | _, [] => []
  | s, byte :: raw => (after s byte).level :: levels (after s byte) raw

lemma step_eq {depth : Nat} {s : NestingScan} (hs : s.level ≤ depth) (byte : UInt8) :
    s.step depth byte =
      if (after s byte).level ≤ depth then .ok (after s byte) else .error invalidCypherRead := by
  unfold NestingScan.step after
  split_ifs <;> first | rfl | grind

lemma scan_eq {depth : Nat} {s : NestingScan} (hs : s.level ≤ depth) (raw : List UInt8) :
    raw.foldlM (NestingScan.step depth) s =
      if ∀ l ∈ levels s raw, l ≤ depth then .ok (raw.foldl after s)
      else .error invalidCypherRead := by
  induction raw generalizing s with
  | nil => simp [levels, pure, Except.pure]
  | cons byte raw ih =>
    rw [List.foldlM_cons, step_eq hs]
    by_cases hnext : (after s byte).level ≤ depth
    · simp [hnext, levels, ih hnext, bind, Except.bind]
    · simp [hnext, levels, bind, Except.bind]

abbrev outside (n : Nat) : NestingScan := { level := n }

abbrev counts (l : List Nat) : List Int := l.map Nat.cast

def plain (c : UInt8) : Bool := c != 34 && c != 91 && c != 123 && c != 93 && c != 125

lemma levels_plain {w : List UInt8} (hw : ∀ c ∈ w, plain c = true) (n : Nat) (r : List UInt8) :
    levels (outside n) (w ++ r) = counts (.replicate w.length n) ++ levels (outside n) r := by
  induction w with
  | nil => rfl
  | cons c w ih =>
    obtain ⟨hc, hw⟩ := List.forall_mem_cons.1 hw
    have hafter : after (outside n) c = outside n := by grind [after, plain]
    simp [levels, hafter, ih hw, List.replicate_succ]

lemma levels_quoted {s : List UInt8} (hs : Quotable s) (n : Nat) (r : List UInt8) :
    levels ⟨n, true, false⟩ (s ++ 34 :: r) =
      counts (.replicate (s.length + 1) n) ++ levels (outside n) r := by
  induction hs with
  | nil => rfl
  | @char c _ hquote hescape _ ih =>
    have hafter : after ⟨n, true, false⟩ c = ⟨n, true, false⟩ := by simp [after, hquote, hescape]
    simp [levels, hafter, ih, List.replicate_succ]
  | @escape c _ _ ih =>
    have hafter : after ⟨n, true, true⟩ c = ⟨n, true, false⟩ := rfl
    have hescape : after ⟨n, true, false⟩ 92 = ⟨n, true, true⟩ := rfl
    simp [levels, hafter, hescape, ih, List.replicate_succ]

lemma levels_string (s : Quoted) (n : Nat) (r : List UInt8) :
    levels (outside n) (34 :: (s.1 ++ 34 :: r)) =
      counts (.replicate (s.1.length + 2) n) ++ levels (outside n) r := by
  rw [List.replicate_succ]
  exact congrArg _ (levels_quoted s.2 n r)

lemma levels_blanks (b : Blanks) (n : Nat) (r : List UInt8) :
    levels (outside n) (b.1 ++ r) = counts (.replicate b.1.length n) ++ levels (outside n) r :=
  levels_plain (fun c hc => by grind [blank, plain, b.2 c hc]) n r

lemma levels_byte {c : UInt8} (hc : plain c = true) (n : Nat) (r : List UInt8) :
    levels (outside n) (c :: r) = counts (.replicate 1 n) ++ levels (outside n) r :=
  levels_plain (w := [c]) (by simpa using hc) n r

lemma counts_merge (i j n : Nat) (l : List Int) :
    counts (.replicate i n) ++ (counts (.replicate j n) ++ l) =
      counts (.replicate (i + j) n) ++ l := by
  rw [← List.append_assoc, ← List.map_append, List.replicate_append_replicate]

lemma levels_lead {k : Kind} {started : Bool} (sep : Sep started) (label : Label k) (b : Blanks)
    (n : Nat) (r : List UInt8) :
    levels (outside n) (sep.write (label.write (b.1 ++ r))) =
      counts (.replicate (sep.write (label.write b.1)).length n) ++ levels (outside n) r := by
  have hcomma := @levels_byte 44 rfl n
  have hcolon := @levels_byte 58 rfl n
  cases sep <;> cases label <;>
    simp only [Sep.write, Label.write, levels_blanks, levels_string, hcomma, hcolon, counts_merge,
      List.length_append, List.length_cons] <;>
    grind

theorem levels_tree {p : Part} (t : Tree p) (n : Nat) (r : List UInt8) :
    levels (outside (n + p.inner)) (t.write r) = counts (t.marks n) ++ levels (outside n) r := by
  induction t generalizing n r with
  | atom a =>
    exact levels_plain (fun c hc => by grind [inWord, delimiter, plain, a.inWord c hc]) n r
  | str s => exact levels_string s n r
  | node k body ih =>
    have hafter : after (outside n) k.opening = outside (n + 1) := by cases k <;> rfl
    have hbody : levels (outside (n + 1)) (body.write r) = _ := ih n r
    simp [Tree.write, Tree.marks, Part.inner, levels, hafter, hbody]
  | @close k _ b =>
    have hafter : after (outside (n + 1)) k.closing = outside n := by
      cases k <;> simp [after, Kind.closing]
    simp [Tree.write, Tree.marks, Part.inner, levels_blanks, levels, hafter]
  | cons sep label b v body ihv ihb =>
    have hv : levels (outside (n + 1)) (v.write (body.write r)) = _ := ihv (n + 1) _
    have hb : levels (outside (n + 1)) (body.write r) = _ := ihb n r
    simp [Tree.write, Tree.marks, Part.inner, levels_lead, hv, hb]

lemma levels_text (t : Text) : levels {} t.bytes = counts t.marks := by
  have htree := levels_tree t.tree 0 t.after.1
  have hafter := levels_blanks t.after 0 []
  rw [List.append_nil, levels, List.append_nil] at hafter
  rw [Part.inner, hafter] at htree
  have hbefore := levels_blanks t.before 0 (t.tree.write t.after.1)
  rw [htree] at hbefore
  simpa [Text.bytes, Text.marks, counts, outside] using hbefore

lemma levels_text_le (t : Text) (depth : Nat) :
    (∀ l ∈ levels {} t.bytes, l ≤ depth) ↔ t.tree.nesting ≤ depth := by
  have htree := t.tree.marks_le (n := 0) (Nat.zero_le depth)
  have hflat : ∀ k, ∀ m ∈ List.replicate k 0, m ≤ depth := fun k m hm => by
    simp [List.eq_of_mem_replicate hm]
  simp only [Part.inner, Nat.zero_add] at htree
  rw [levels_text, List.forall_mem_map]
  simp only [Nat.cast_le, Text.marks, List.forall_mem_append, htree]
  exact ⟨fun h => h.1.2, fun h => ⟨⟨hflat _, h⟩, hflat _⟩⟩

lemma levels_append (s : NestingScan) (w r : List UInt8) :
    levels s (w ++ r) = levels s w ++ levels (w.foldl after s) r := by
  induction w generalizing s with
  | nil => rfl
  | cons c w ih => simp [levels, ih]

lemma length_levels (s : NestingScan) (w : List UInt8) : (levels s w).length = w.length := by
  induction w generalizing s with
  | nil => rfl
  | cons c w ih => simp [levels, ih]

/-- What a reader has open is a level of the scan over the bytes it has taken. -/
lemma opens_level {read : List UInt8} {n : Nat} (h : Opens read n) :
    n = 0 ∨ (n : Int) ∈ levels {} read := by
  obtain ⟨t, rest, hbytes, hmark⟩ := h
  have hlevels := levels_text t
  rw [hbytes, levels_append] at hlevels
  have hcount : (counts (0 :: t.marks))[read.length]? = some (n : Int) := by
    rw [List.getElem?_map, hmark, Option.map_some]
  rw [counts, List.map_cons, ← counts, ← hlevels, ← List.cons_append,
    List.getElem?_append_left (by simp [length_levels])] at hcount
  simpa using List.mem_of_getElem? hcount

end Nesting

open Nesting in
/-- A text is rejected for its depth exactly when its containers nest deeper than the limit, and
over any bytes that pass, well formed or not, a reader that stops at its first error never has more
containers open than that. -/
theorem nesting_scan_exact (depth : Nat) :
    (∀ t : Text, scanNesting depth t.bytes = .error invalidCypherRead ↔ depth < t.tree.nesting) ∧
      ∀ raw s, scanNesting depth raw = .ok s →
        ∀ read, read <+: raw → ∀ n, Opens read n → n ≤ depth := by
  have hscan : ∀ raw, scanNesting depth raw = _ := scan_eq (Int.natCast_nonneg depth)
  constructor
  · intro t
    rw [hscan, ← not_le, ← levels_text_le]
    split_ifs with hlevels
    · exact ⟨by rintro ⟨⟩, fun hdeep => absurd hlevels hdeep⟩
    · exact ⟨fun _ => hlevels, fun _ => rfl⟩
  · rintro raw s hpass read ⟨rest, rfl⟩ n hopens
    rw [hscan, levels_append] at hpass
    split_ifs at hpass with hlevels
    obtain rfl | hlevel := opens_level hopens
    · exact Nat.zero_le depth
    · exact Int.ofNat_le.1 (hlevels n (List.mem_append_left _ hlevel))

end DevGraph.Proofs
