import DevGraph.Lib.Chunks
import DevGraph.Lib.JsonRoundTrip

/-!
# The size of printed text

A string token that is printed in ASCII takes as many bytes as it has characters, at most two for
each printable character of the string.
-/

namespace DevGraph.Lib

lemma size_ofList (text : List Char) :
    (String.ofList text).toUTF8.size = weight Char.utf8Size text := by
  show (String.ofList text).utf8ByteSize = _
  rw [String.utf8ByteSize_ofList]
  induction text with
  | nil => rfl
  | cons c text ih => rw [weight_cons, String.utf8Len_cons, ih, Nat.add_comm]

lemma weight_ascii {text : List Char} (h : ∀ c ∈ text, c.toNat < 128) :
    weight Char.utf8Size text = text.length := by
  induction text with
  | nil => rfl
  | cons c text ih =>
    have hc := h c List.mem_cons_self
    have hone : c.utf8Size = 1 := by
      have hval : c.val ≤ 127 := UInt32.le_iff_toNat_le.2 (Nat.le_of_lt_succ hc)
      exact if_pos hval
    rw [weight_cons, ih fun d hd => h d (List.mem_cons_of_mem c hd), hone, List.length_cons,
      Nat.add_comm]

lemma unicodeEscape_ascii {n : Nat} (hn : n < 65536) : ∀ c ∈ unicodeEscape n, c.toNat < 128 := by
  have hdigit : ∀ k < 16, (hexDigit k).toNat < 128 := by decide
  simp only [unicodeEscape, List.mem_cons, List.not_mem_nil, or_false]
  rintro c (rfl | rfl | rfl | rfl | rfl | rfl)
  · decide
  · decide
  all_goals
    apply hdigit
    omega

lemma printChar_ascii (c : Char) : ∀ d ∈ printChar true c, d.toNat < 128 := by
  have hmax := char_bounds c
  unfold printChar
  split
  · rename_i e he
    have hletter : e.toNat < 128 := by
      unfold escapeLetter at he
      split_ifs at he
      all_goals
        cases he
        decide
    simpa using hletter
  · split_ifs with hescaped hplane
    · exact unicodeEscape_ascii hplane
    · intro d hd
      obtain hd | hd := List.mem_append.1 hd
      · exact unicodeEscape_ascii (by omega) d hd
      · exact unicodeEscape_ascii (by omega) d hd
    · intro d hd
      rw [List.mem_singleton.1 hd]
      simp only [true_and, not_or, not_lt] at hescaped
      omega

lemma weight_printChars (s : List Char) :
    weight Char.utf8Size (printChars true s) = (printChars true s).length := by
  apply weight_ascii
  intro d hd
  obtain ⟨c, -, hd⟩ := List.mem_flatMap.1 hd
  exact printChar_ascii c d hd

lemma weight_printString (s : String) :
    weight Char.utf8Size (printString true s) = (printChars true s.toList).length + 2 := by
  rw [printString, weight_cons, weight_append, weight_printChars, Nat.add_comm]
  rfl

lemma length_printChars_le {s : List Char} (h : ∀ c ∈ s, 32 ≤ c.toNat ∧ c.toNat ≤ 126) :
    (printChars true s).length ≤ 2 * s.length := by
  induction s with
  | nil => exact Nat.le_refl 0
  | cons c s ih =>
    have hc := h c List.mem_cons_self
    have hchar : (printChar true c).length ≤ 2 := by
      unfold printChar
      split
      · exact Nat.le_refl 2
      · rw [if_neg (by omega)]
        exact Nat.le_succ 1
    have hrest := ih fun d hd => h d (List.mem_cons_of_mem c hd)
    rw [printChars, List.flatMap_cons, List.length_append, ← printChars, List.length_cons]
    omega

end DevGraph.Lib
