import Mathlib.Data.List.Basic

/-!
# Length-prefixed fields

A field is written as its length in four bytes, the most significant first, and its bytes.
A sequence of fields can be read back: no two sequences of as many fields are written alike.
-/

namespace DevGraph.Lib

def bigEndian4 (n : Nat) : List UInt8 :=
  [UInt8.ofNat (n / 16777216), UInt8.ofNat (n / 65536), UInt8.ofNat (n / 256), UInt8.ofNat n]

def frame (field : List UInt8) : List UInt8 := bigEndian4 field.length ++ field

lemma ofNat_eq_iff {a b : Nat} : UInt8.ofNat a = UInt8.ofNat b ↔ a % 256 = b % 256 := by
  rw [← UInt8.toNat_inj]
  simp

lemma bigEndian4_injective {a b : Nat} (ha : a < 4294967296) (hb : b < 4294967296)
    (h : bigEndian4 a = bigEndian4 b) : a = b := by
  simp only [bigEndian4, List.cons.injEq, ofNat_eq_iff, and_true] at h
  omega

theorem frame_append_injective {a b r r' : List UInt8} (ha : a.length < 4294967296)
    (hb : b.length < 4294967296) (h : frame a ++ r = frame b ++ r') : a = b ∧ r = r' := by
  simp only [frame, List.append_assoc] at h
  have hprefix := List.append_inj h rfl
  have hlength := bigEndian4_injective ha hb hprefix.1
  exact List.append_inj hprefix.2 hlength

theorem flatMap_frame_injective {as bs : List (List UInt8)} (hlength : as.length = bs.length)
    (ha : ∀ a ∈ as, a.length < 4294967296) (hb : ∀ b ∈ bs, b.length < 4294967296)
    (h : as.flatMap frame = bs.flatMap frame) : as = bs := by
  induction as generalizing bs with
  | nil => exact (List.eq_nil_of_length_eq_zero hlength.symm).symm
  | cons a as ih =>
    cases bs with
    | nil => cases hlength
    | cons b bs =>
      simp only [List.flatMap_cons] at h
      rcases frame_append_injective (ha a List.mem_cons_self) (hb b List.mem_cons_self) h with
        ⟨rfl, hrest⟩
      rw [ih (Nat.succ.inj hlength) (fun x hx => ha x (List.mem_cons_of_mem _ hx))
        (fun x hx => hb x (List.mem_cons_of_mem _ hx)) hrest]

end DevGraph.Lib
