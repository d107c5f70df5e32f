import DevGraph.Lib.Json
import Mathlib.Data.Nat.Digits.Lemmas
import Mathlib.Tactic.IntervalCases

/-!
# Reading back printed JSON

A printed value is read back as itself, whatever follows it, by every dialect that admits its
integers. So printing with sorted keys loses nothing but the order of members.
-/

variable {rest : List Char}

namespace DevGraph.Lib

variable {c : Char}

lemma hexValue_hexDigit {n : Nat} (hn : n < 16) : hexValue (hexDigit n) = some n := by
  interval_cases n <;> decide

lemma hexValue4_hexDigits {n : Nat} (hn : n < 65536) :
    hexValue4 (hexDigit (n / 4096)) (hexDigit (n / 256 % 16)) (hexDigit (n / 16 % 16))
      (hexDigit (n % 16)) = some n := by
  have h3 : n / 4096 < 16 := by omega
  have h2 : n / 256 % 16 < 16 := by omega
  have h1 : n / 16 % 16 < 16 := by omega
  have h0 : n % 16 < 16 := by omega
  simp only [hexValue4, hexValue_hexDigit h3, hexValue_hexDigit h2, hexValue_hexDigit h1,
    hexValue_hexDigit h0, Option.bind_eq_bind, Option.bind_some, Option.pure_def]
  congr 1
  omega

/-- An escape of a code unit that is no surrogate reads as that character. -/
lemma readString_unicodeEscape {n : Nat} (hn : n < 65536) (hs : n < 55296 ∨ 57344 ≤ n)
    (rest : List Char) :
    readString (unicodeEscape n ++ rest) = pushChar (Char.ofNat n) (readString rest) := by
  have hhigh : ¬ (55296 ≤ n ∧ n < 56320) := by omega
  have hlow : ¬ (56320 ≤ n ∧ n < 57344) := by omega
  simp only [unicodeEscape, List.cons_append, List.nil_append]
  rw [readString, hexValue4_hexDigits hn]
  simp only [hhigh, hlow, if_false]

/-- A surrogate pair of escapes reads as the one character it denotes. -/
lemma readString_surrogates {hi lo : Nat} (hhi : 55296 ≤ hi ∧ hi < 56320)
    (hlo : 56320 ≤ lo ∧ lo < 57344) (rest : List Char) :
    readString (unicodeEscape hi ++ unicodeEscape lo ++ rest) =
      pushChar (Char.ofNat (65536 + (hi - 55296) * 1024 + (lo - 56320))) (readString rest) := by
  simp only [unicodeEscape, List.cons_append, List.nil_append]
  rw [readString, hexValue4_hexDigits (by omega)]
  simp only [hhi, and_self, if_true]
  rw [hexValue4_hexDigits (by omega)]
  simp only [hlo, and_self, if_true]

lemma char_bounds (c : Char) : c.toNat < 55296 ∨ 57344 ≤ c.toNat ∧ c.toNat < 1114112 := by
  obtain h | h := c.valid
  · exact .inl h
  · exact .inr ⟨h.1, h.2⟩

lemma readString_plain (hquote : c ≠ '"') (hslash : c ≠ '\\')
    (hcontrol : ¬ c.toNat < 32) (rest : List Char) :
    readString (c :: rest) = pushChar c (readString rest) := by
  rw [readString]
  · rw [if_neg hcontrol]
  · exact hquote
  · intro _ _ _ _ _ h
    exact absurd h hslash
  · intro _ _ h
    exact absurd h hslash

lemma readString_short {e : Char} (he : shortEscape e = some c) (hu : e ≠ 'u') (rest : List Char) :
    readString ('\\' :: e :: rest) = pushChar c (readString rest) := by
  rw [readString]
  · rw [he]
  · intro _ _ _ _ _ h
    exact absurd h hu

lemma shortEscape_of_escapeLetter {e : Char} (h : escapeLetter c = some e) :
    shortEscape e = some c ∧ e ≠ 'u' := by
  unfold escapeLetter at h
  split_ifs at h with h1 h2 h3 h4 h5 h6 h7 <;> cases h <;> simp only [*] <;> decide

lemma readString_printChar (ascii : Bool) (c : Char) (rest : List Char) :
    readString (printChar ascii c ++ rest) = pushChar c (readString rest) := by
  unfold printChar
  split
  · rename_i e he
    have hshort := shortEscape_of_escapeLetter he
    exact readString_short hshort.1 hshort.2 rest
  rename_i hletter
  have hc := char_bounds c
  split
  · split
    · rename_i hbmp
      rw [readString_unicodeEscape hbmp (by omega), Char.ofNat_toNat]
    · rw [readString_surrogates (by omega) (by omega)]
      have hn : 65536 + (55296 + (c.toNat - 65536) / 1024 - 55296) * 1024
          + (56320 + (c.toNat - 65536) % 1024 - 56320) = c.toNat := by omega
      rw [hn, Char.ofNat_toNat]
  · rename_i hplain
    have hquote : c ≠ '"' := by rintro rfl; simp [escapeLetter] at hletter
    have hslash : c ≠ '\\' := by rintro rfl; simp [escapeLetter] at hletter
    exact readString_plain hquote hslash (fun h => hplain (.inl h)) rest

lemma readString_printChars (ascii : Bool) (s rest : List Char) :
    readString (printChars ascii s ++ '"' :: rest) = some (s, rest) := by
  induction s with
  | nil => rfl
  | cons c s ih =>
    rw [printChars, List.flatMap_cons, List.append_assoc, readString_printChar]
    change pushChar c (readString (printChars ascii s ++ '"' :: rest)) = _
    rw [ih]
    rfl

def StartsNoDigit (text : List Char) : Prop := ∀ c ∈ text.head?, isDigit c = false

lemma digitChar_toNat {d : Nat} (hd : d < 10) : (Char.ofNat (48 + d)).toNat = 48 + d := by
  interval_cases d <;> decide

lemma isDigit_digitChar {d : Nat} (hd : d < 10) : isDigit (Char.ofNat (48 + d)) = true := by
  interval_cases d <;> decide

lemma readDigits_stop (n : Nat) (hrest : StartsNoDigit rest) :
    readDigits n rest = (n, rest) := by
  cases rest with
  | nil => rfl
  | cons c rest => rw [readDigits, hrest c rfl]; rfl

lemma readDigits_digits (ds : List Nat) (hds : ∀ d ∈ ds, d < 10)
    (hrest : StartsNoDigit rest) (n : Nat) :
    readDigits n ((ds.map fun d => Char.ofNat (48 + d)) ++ rest) =
      (ds.foldl (fun m d => 10 * m + d) n, rest) := by
  induction ds generalizing n with
  | nil => exact readDigits_stop n hrest
  | cons d ds ih =>
    have hd : d < 10 := hds d (by simp)
    rw [List.map_cons, List.cons_append, readDigits, isDigit_digitChar hd, digitChar_toNat hd,
      if_pos rfl, ih (fun e he => hds e (by simp [he]))]
    simp

lemma foldl_digits (ds : List Nat) :
    ds.reverse.foldl (fun m d => 10 * m + d) 0 = Nat.ofDigits 10 ds := by
  rw [List.foldl_reverse]
  induction ds with
  | nil => rfl
  | cons d ds ih => rw [List.foldr_cons, ih, Nat.ofDigits_cons, add_comm]

lemma readNat_printNat (n : Nat) (hrest : StartsNoDigit rest) :
    readNat (printNat n ++ rest) = some (n, rest) := by
  unfold printNat
  split
  · rename_i hn
    rw [hn]
    rfl
  · rename_i hn
    have hdigits : ∀ d ∈ (Nat.digits 10 n).reverse, d < 10 := by
      intro d hd
      exact Nat.digits_lt_base (by decide) (List.mem_reverse.1 hd)
    have hfold := foldl_digits (Nat.digits 10 n)
    rw [Nat.ofDigits_digits] at hfold
    have hne : Nat.digits 10 n ≠ [] := Nat.digits_ne_nil_iff_ne_zero.2 hn
    -- the leading digit is the last one of the little-endian expansion
    have hlead : ∀ d ds, (Nat.digits 10 n).reverse = d :: ds → d ≠ 0 := by
      intro d ds h
      have hlast := Nat.getLast_digit_ne_zero 10 hn
      have hds : Nat.digits 10 n = ds.reverse ++ [d] := by
        rw [← List.reverse_reverse (Nat.digits 10 n), h, List.reverse_cons]
      simpa [hds] using hlast
    cases h : (Nat.digits 10 n).reverse with
    | nil => exact absurd (List.reverse_eq_nil_iff.1 h) hne
    | cons d ds =>
      rw [h] at hdigits hfold
      have hd : d < 10 := hdigits d (by simp)
      have hzero : Char.ofNat (48 + d) ≠ '0' := by
        intro hc
        have hnat := congrArg Char.toNat hc
        rw [digitChar_toNat hd] at hnat
        have h0 : d ≠ 0 := hlead d ds h
        change 48 + d = 48 at hnat
        omega
      rw [List.map_cons, List.cons_append, readNat, if_neg hzero, isDigit_digitChar hd,
        if_pos rfl, digitChar_toNat hd,
        readDigits_digits ds (fun e he => hdigits e (by simp [he])) hrest]
      simpa using hfold

/-! ## Values -/

mutual
/-- The dialect admits every integer of the value, and no object repeats a key. -/
def Json.Readable (d : Dialect) : Json → Prop
  | .int n => d.int n = true
  | .arr items => ItemsReadable d items
  | .obj fields => FieldsReadable d fields ∧ (fields.map Prod.fst).Nodup
  | _ => True
def ItemsReadable (d : Dialect) : List Json → Prop
  | [] => True
  | v :: items => v.Readable d ∧ ItemsReadable d items
def FieldsReadable (d : Dialect) : List (String × Json) → Prop
  | [] => True
  | (_, v) :: fields => v.Readable d ∧ FieldsReadable d fields
end

lemma startsNoDigit_cons (hc : isDigit c = false) (rest : List Char) :
    StartsNoDigit (c :: rest) := by
  intro e he
  simp only [List.head?_cons, Option.mem_def, Option.some.injEq] at he
  rw [← he, hc]

/-- What may begin a printed value: no blank and no closing bracket. -/
def StartsValue (c : Char) : Prop := isBlank c = false ∧ c ≠ ']' ∧ c ≠ '\x7d'

lemma startsValue_digit (hc : isDigit c = true) : StartsValue c := by
  refine ⟨?_, ?_, ?_⟩
  · unfold isBlank
    by_contra h
    simp only [Bool.or_eq_false_iff, decide_eq_false_iff_not, not_and_or, not_not] at h
    rcases h with ((h | h) | h) | h <;> subst h <;> revert hc <;> decide
  · rintro rfl
    revert hc
    decide
  · rintro rfl
    revert hc
    decide

lemma printNat_head (n : Nat) : ∃ c rest, printNat n = c :: rest ∧ isDigit c = true := by
  unfold printNat
  split
  · exact ⟨'0', [], rfl, by decide⟩
  · rename_i hn
    cases h : (Nat.digits 10 n).reverse with
    | nil => exact absurd (List.reverse_eq_nil_iff.1 h) (Nat.digits_ne_nil_iff_ne_zero.2 hn)
    | cons d ds =>
      have hmem : d ∈ (Nat.digits 10 n).reverse := by rw [h]; simp
      have hd : d < 10 := Nat.digits_lt_base (by decide) (List.mem_reverse.1 hmem)
      exact ⟨_, _, rfl, isDigit_digitChar hd⟩

lemma print_head (ascii : Bool) (v : Json) :
    ∃ c rest, v.print ascii = c :: rest ∧ StartsValue c := by
  cases v with
  | null => exact ⟨_, _, rfl, by decide, by decide, by decide⟩
  | bool b => cases b <;> exact ⟨_, _, rfl, by decide, by decide, by decide⟩
  | int n =>
    obtain ⟨c, rest, h, hc⟩ := printNat_head n.natAbs
    unfold Json.print printInt
    split
    · exact ⟨_, _, rfl, by decide, by decide, by decide⟩
    · exact ⟨c, rest, h, startsValue_digit hc⟩
  | str s => exact ⟨_, _, rfl, by decide, by decide, by decide⟩
  | arr items => cases items <;> exact ⟨_, _, rfl, by decide, by decide, by decide⟩
  | obj fields => cases fields <;> exact ⟨_, _, rfl, by decide, by decide, by decide⟩

lemma skipBlanks_print (ascii : Bool) (v : Json) (rest : List Char) :
    skipBlanks (v.print ascii ++ rest) = v.print ascii ++ rest := by
  obtain ⟨c, tail, h, hc⟩ := print_head ascii v
  rw [h, List.cons_append, skipBlanks, hc.1]
  rfl

lemma skipBlanks_cons (hc : isBlank c = false) (rest : List Char) :
    skipBlanks (c :: rest) = c :: rest := by
  rw [skipBlanks, hc]
  rfl

lemma readValue_digit (d : Dialect) (fuel : Nat) (hc : isDigit c = true) (text : List Char) :
    readValue d (fuel + 1) (c :: text) =
      match readNat (c :: text) with
      | some (n, rest) => if d.int n then some (.int n, rest) else none
      | none => none := by
  rw [readValue]
  all_goals first
    | rfl
    | intro rest h
      rw [(List.cons.inj h).1] at hc
      revert hc
      decide

lemma readValue_printInt (d : Dialect) {n : Int} (hn : d.int n = true) (fuel : Nat)
    (hrest : StartsNoDigit rest) :
    readValue d (fuel + 1) (printInt n ++ rest) = some (.int n, rest) := by
  have hread := readNat_printNat n.natAbs hrest
  unfold printInt
  split
  · rename_i hneg
    have habs : -(n.natAbs : Int) = n := by omega
    rw [List.cons_append, readValue, hread]
    simp only [habs, hn, if_true]
  · rename_i hpos
    have habs : (n.natAbs : Int) = n := by omega
    obtain ⟨c, tail, h, hc⟩ := printNat_head n.natAbs
    rw [h] at hread ⊢
    rw [List.cons_append] at hread ⊢
    rw [readValue_digit d fuel hc, hread]
    simp only [habs, hn, if_true]

lemma readValue_items (d : Dialect) (fuel : Nat) (hc : StartsValue c) (text : List Char) :
    readValue d (fuel + 1) ('[' :: c :: text) =
      (do
        let (v, rest) ← readValue d fuel (c :: text)
        let (items, rest) ← readItems d fuel (skipBlanks rest)
        return (Json.arr (v :: items), rest)) := by
  rw [readValue, skipBlanks_cons hc.1]
  split
  · rename_i h
    exact absurd (List.cons.inj h).1 hc.2.1
  · rfl

lemma readValue_member (d : Dialect) (fuel : Nat) (text : List Char) :
    readValue d (fuel + 1) ('\x7b' :: '"' :: text) =
      (do
        let (fields, rest) ← readMember d fuel ('"' :: text)
        let fields ← d.pairs fields
        return (Json.obj fields, rest)) := by
  rw [readValue, skipBlanks_cons (by decide)]
  rfl

lemma printItems_head (ascii : Bool) (items : List Json) (rest : List Char) :
    ∃ c tail, printItems ascii items ++ rest = c :: tail ∧ isDigit c = false ∧
      isBlank c = false := by
  cases items with
  | nil => exact ⟨_, _, rfl, by decide, by decide⟩
  | cons v items => exact ⟨_, _, rfl, by decide, by decide⟩

lemma printFields_head (ascii : Bool) (fields : List (String × Json)) (rest : List Char) :
    ∃ c tail, printFields ascii fields ++ rest = c :: tail ∧ isDigit c = false ∧
      isBlank c = false := by
  cases fields with
  | nil => exact ⟨_, _, rfl, by decide, by decide⟩
  | cons field fields => exact ⟨_, _, rfl, by decide, by decide⟩

/-- A text that a value may stand in front of, and that does not begin with a blank. -/
def Follows (text : List Char) : Prop := StartsNoDigit text ∧ skipBlanks text = text

lemma follows_of_head {text : List Char}
    (h : ∃ c tail, text = c :: tail ∧ isDigit c = false ∧ isBlank c = false) :
    Follows text := by
  obtain ⟨c, tail, rfl, hdigit, hblank⟩ := h
  exact ⟨startsNoDigit_cons hdigit tail, skipBlanks_cons hblank tail⟩

lemma readMember_print (d : Dialect) (ascii : Bool) (k : String) (v : Json)
    (fields : List (String × Json)) (rest : List Char) (fuel : Nat)
    (hvalue : readValue d fuel (v.print ascii ++ (printFields ascii fields ++ rest)) =
      some (v, printFields ascii fields ++ rest))
    (hfields : readFields d fuel (printFields ascii fields ++ rest) = some (fields, rest)) :
    readMember d (fuel + 1)
      (printString ascii k ++ ':' :: (v.print ascii ++ printFields ascii fields) ++ rest) =
      some ((k, v) :: fields, rest) := by
  have hfollows := follows_of_head (printFields_head ascii fields rest)
  have htext : printString ascii k ++ ':' :: (v.print ascii ++ printFields ascii fields) ++ rest =
      '"' :: (printChars ascii k.toList ++
        '"' :: ':' :: (v.print ascii ++ (printFields ascii fields ++ rest))) := by
    simp [printString]
  rw [htext, readMember, readString_printChars]
  simp only [Option.bind_eq_bind, Option.bind_some]
  rw [skipBlanks_cons (by decide)]
  simp only [skipBlanks_print, hvalue, Option.bind_some, hfollows.2, hfields, Option.pure_def,
    String.ofList_toList]

mutual
theorem readValue_print (d : Dialect) (ascii : Bool) (v : Json) (hv : v.Readable d)
    (rest : List Char) (hrest : StartsNoDigit rest) (fuel : Nat)
    (hfuel : (v.print ascii).length ≤ fuel) :
    readValue d fuel (v.print ascii ++ rest) = some (v, rest) := by
  have hpos : 0 < fuel := by
    obtain ⟨c, tail, h, -⟩ := print_head ascii v
    rw [h, List.length_cons] at hfuel
    omega
  obtain ⟨fuel, rfl⟩ := Nat.exists_eq_succ_of_ne_zero hpos.ne'
  match v, hv with
  | .null, _ => rfl
  | .bool true, _ => rfl
  | .bool false, _ => rfl
  | .int n, hv => exact readValue_printInt d hv fuel hrest
  | .str s, _ =>
    rw [Json.print, printString, List.cons_append, List.append_assoc, readValue]
    change (match readString (printChars ascii s.toList ++ '"' :: rest) with
      | some (s, rest) => some (Json.str (String.ofList s), rest)
      | none => none) = _
    rw [readString_printChars]
    simp only [String.ofList_toList]
  | .arr [], _ => rfl
  | .arr (v :: items), hv =>
    rw [Json.print, List.length_cons, List.length_append] at hfuel
    have hfollows := follows_of_head (printItems_head ascii items rest)
    have hitem := readValue_print d ascii v hv.1 _ hfollows.1 fuel (by omega)
    have hitems := readItems_print d ascii items hv.2 rest fuel (by omega)
    obtain ⟨c, tail, h, hc⟩ := print_head ascii v
    rw [Json.print, List.cons_append, List.append_assoc]
    rw [h, List.cons_append] at hitem ⊢
    rw [readValue_items d fuel hc, hitem]
    simp only [Option.bind_eq_bind, Option.bind_some, hfollows.2, hitems, Option.pure_def]
  | .obj [], _ => simp [Json.print, readValue, skipBlanks, isBlank, d.pairs_distinct]
  | .obj ((k, v) :: fields), hv =>
    simp only [Json.print, printString, List.length_cons, List.length_append] at hfuel
    have hfollows := follows_of_head (printFields_head ascii fields rest)
    obtain ⟨fuel, rfl⟩ := Nat.exists_eq_succ_of_ne_zero (show fuel ≠ 0 by omega)
    have hvalue := readValue_print d ascii v hv.1.1 _ hfollows.1 fuel (by omega)
    have hrest := readFields_print d ascii fields hv.1.2 rest fuel (by omega)
    have hmember := readMember_print d ascii k v fields rest fuel hvalue hrest
    rw [Json.print, List.cons_append]
    rw [printString, List.cons_append, List.cons_append] at hmember ⊢
    rw [readValue_member, hmember]
    simp only [Option.bind_eq_bind, Option.bind_some, d.pairs_distinct _ hv.2, Option.pure_def]
theorem readItems_print (d : Dialect) (ascii : Bool) (items : List Json)
    (hitems : ItemsReadable d items) (rest : List Char) (fuel : Nat)
    (hfuel : (printItems ascii items).length ≤ fuel) :
    readItems d fuel (printItems ascii items ++ rest) = some (items, rest) := by
  match items, hitems with
  | [], _ =>
    rcases Nat.exists_eq_succ_of_ne_zero (show fuel ≠ 0 by simp [printItems] at hfuel; omega)
      with ⟨fuel, rfl⟩
    rfl
  | v :: items, hitems =>
    simp only [printItems, List.length_cons, List.length_append] at hfuel
    obtain ⟨fuel, rfl⟩ := Nat.exists_eq_succ_of_ne_zero (show fuel ≠ 0 by omega)
    have hfollows := follows_of_head (printItems_head ascii items rest)
    have hitem := readValue_print d ascii v hitems.1 _ hfollows.1 fuel (by omega)
    have hrest := readItems_print d ascii items hitems.2 rest fuel (by omega)
    rw [printItems, List.cons_append, List.append_assoc, readItems, skipBlanks_print, hitem]
    simp only [Option.bind_eq_bind, Option.bind_some, hfollows.2, hrest, Option.pure_def]
theorem readFields_print (d : Dialect) (ascii : Bool) (fields : List (String × Json))
    (hfields : FieldsReadable d fields) (rest : List Char) (fuel : Nat)
    (hfuel : (printFields ascii fields).length ≤ fuel) :
    readFields d fuel (printFields ascii fields ++ rest) = some (fields, rest) := by
  match fields, hfields with
  | [], _ =>
    rcases Nat.exists_eq_succ_of_ne_zero (show fuel ≠ 0 by simp [printFields] at hfuel; omega)
      with ⟨fuel, rfl⟩
    rfl
  | (k, v) :: fields, hfields =>
    simp only [printFields, printString, List.length_cons, List.length_append] at hfuel
    obtain ⟨fuel, rfl⟩ := Nat.exists_eq_succ_of_ne_zero (show fuel ≠ 0 by omega)
    obtain ⟨fuel, rfl⟩ := Nat.exists_eq_succ_of_ne_zero (show fuel ≠ 0 by omega)
    have hfollows := follows_of_head (printFields_head ascii fields rest)
    have hvalue := readValue_print d ascii v hfields.1 _ hfollows.1 fuel (by omega)
    have hrest := readFields_print d ascii fields hfields.2 rest fuel (by omega)
    have hmember := readMember_print d ascii k v fields rest fuel hvalue hrest
    rw [printFields, List.cons_append, readFields]
    rw [printString, List.cons_append, List.cons_append] at hmember ⊢
    rw [skipBlanks_cons (by decide)]
    exact hmember
end

lemma map_fst_sortFields (fields : List (String × Json)) :
    (sortFields fields).map Prod.fst = fields.map Prod.fst := by
  induction fields with
  | nil => rfl
  | cons field fields ih => rw [sortFields, List.map_cons, ih, List.map_cons]

variable {d : Dialect}

lemma fieldsReadable_iff {fields : List (String × Json)} :
    FieldsReadable d fields ↔ ∀ field ∈ fields, field.2.Readable d := by
  induction fields with
  | nil => simp [FieldsReadable]
  | cons field fields ih => simp [FieldsReadable, ih]

mutual
theorem readable_sortKeys (v : Json) (hv : v.Readable d) :
    v.sortKeys.Readable d := by
  match v, hv with
  | .null, _ => trivial
  | .bool _, _ => trivial
  | .int _, hv => exact hv
  | .str _, _ => trivial
  | .arr items, hv => exact readable_sortItems items hv
  | .obj fields, hv =>
    have hperm := List.perm_insertionSort (fun a b : String × Json => a.1.toList ≤ b.1.toList)
      (sortFields fields)
    have hsorted := readable_sortFields fields hv.1
    constructor
    · rw [fieldsReadable_iff] at hsorted ⊢
      intro field hfield
      exact hsorted field (hperm.mem_iff.1 hfield)
    · rw [(hperm.map Prod.fst).nodup_iff, map_fst_sortFields]
      exact hv.2
theorem readable_sortItems (items : List Json) (hitems : ItemsReadable d items) :
    ItemsReadable d (sortItems items) := by
  match items, hitems with
  | [], _ => trivial
  | v :: items, hitems =>
    exact ⟨readable_sortKeys v hitems.1, readable_sortItems items hitems.2⟩
theorem readable_sortFields (fields : List (String × Json))
    (hfields : FieldsReadable d fields) : FieldsReadable d (sortFields fields) := by
  match fields, hfields with
  | [], _ => trivial
  | (_, v) :: fields, hfields =>
    exact ⟨readable_sortKeys v hfields.1, readable_sortFields fields hfields.2⟩
end

theorem loads_dumps (d : Dialect) (ascii : Bool) {v : Json} (hv : v.Readable d) :
    loads d (dumps ascii v).toList = some v.sortKeys := by
  have hread := readValue_print d ascii v.sortKeys (readable_sortKeys v hv) []
    (by simp [StartsNoDigit]) ((v.sortKeys.print ascii).length + 1) (by omega)
  have hskip := skipBlanks_print ascii v.sortKeys []
  rw [List.append_nil] at hread hskip
  rw [loads, dumps, String.toList_ofList, hskip, hread]
  rfl

/-- Two values with the same text differ at most in the order of members. -/
theorem dumps_injective (d : Dialect) (ascii : Bool) {v w : Json} (hv : v.Readable d)
    (hw : w.Readable d) (h : dumps ascii v = dumps ascii w) : v.sortKeys = w.sortKeys := by
  have hread := loads_dumps d ascii hv
  rw [h, loads_dumps d ascii hw] at hread
  exact (Option.some.inj hread).symm

end DevGraph.Lib
