import DevGraph.Lib.JsonRoundTrip
import Mathlib.Tactic.Ring

/-!
# Timestamps

Aware datetimes and their ISO-8601 text. `fromisoformat` reads the dashed date and the colons that
`isoformat` prints, any separator, shorter times and any offset, but not the compact and week forms
that newer versions of Python take too; a text without an offset has no value here, as a naive
datetime is refused.
-/

namespace DevGraph.Work

open Lib

def isLeapYear (year : Nat) : Bool :=
  year % 4 = 0 && (year % 100 ≠ 0 || year % 400 = 0)

def daysInMonth (year month : Nat) : Nat :=
  if month = 2 then (if isLeapYear year then 29 else 28)
  else if month ∈ [4, 6, 9, 11] then 30
  else 31

def isDatetime (year month day hour minute second microsecond : Nat) (offset : Int) : Bool :=
  1 ≤ year && year ≤ 9999 && 1 ≤ month && month ≤ 12 && 1 ≤ day && day ≤ daysInMonth year month &&
    hour < 24 && minute < 60 && second < 60 && microsecond < 1000000 &&
    offset.natAbs < 86400000000

structure Datetime where
  year : Nat
  month : Nat
  day : Nat
  hour : Nat
  minute : Nat
  second : Nat
  microsecond : Nat
  /-- From UTC, in microseconds. -/
  offset : Int
  valid : isDatetime year month day hour minute second microsecond offset = true
  deriving DecidableEq

def padded : Nat → Nat → List Char
  | 0, _ => []
  | w + 1, n => Char.ofNat (48 + n / 10 ^ w % 10) :: padded w n

def fractionText (microsecond : Nat) : List Char :=
  if microsecond = 0 then [] else '.' :: padded 6 microsecond

/-- The seconds of an offset are left out when there are none. -/
def offsetText (offset : Int) : List Char :=
  let n := offset.natAbs
  (if offset < 0 then '-' else '+') :: (padded 2 (n / 3600000000) ++ ':' ::
    (padded 2 (n / 60000000 % 60) ++ if n % 60000000 = 0 then [] else ':' ::
      (padded 2 (n / 1000000 % 60) ++ fractionText (n % 1000000))))

def isoformat (t : Datetime) : String :=
  String.ofList (padded 4 t.year ++ '-' :: (padded 2 t.month ++ '-' :: (padded 2 t.day ++
    'T' :: (padded 2 t.hour ++ ':' :: (padded 2 t.minute ++ ':' :: (padded 2 t.second ++
      (fractionText t.microsecond ++ offsetText t.offset)))))))

/-- Exactly `w` digits, read onto the number so far. -/
def readPadded : Nat → Nat → List Char → Option (Nat × List Char)
  | 0, n, text => some (n, text)
  | w + 1, n, c :: text =>
    if isDigit c then readPadded w (10 * n + (c.toNat - 48)) text else none
  | _ + 1, _, [] => none

/-- A dash and then two digits. -/
def readTwo : List Char → Option (Nat × List Char)
  | '-' :: text => readPadded 2 0 text
  | _ => none

/-- The microseconds of an optional fraction, of which six digits count. -/
def readFraction : List Char → Option (Nat × List Char)
  | '.' :: text =>
    let digits := (text.takeWhile isDigit).take 6
    if digits = [] then none
    else some ((readDigits 0 digits).1 * 10 ^ (6 - digits.length), text.dropWhile isDigit)
  | text => some (0, text)

/-- Hours, and perhaps minutes, seconds and a fraction. -/
def readClock (text : List Char) : Option ((Nat × Nat × Nat × Nat) × List Char) := do
  let (hour, text) ← readPadded 2 0 text
  match text with
  | ':' :: text => do
    let (minute, text) ← readPadded 2 0 text
    match text with
    | ':' :: text => do
      let (second, text) ← readPadded 2 0 text
      let (microsecond, text) ← readFraction text
      return ((hour, minute, second, microsecond), text)
    | text => return ((hour, minute, 0, 0), text)
  | text => return ((hour, 0, 0, 0), text)

def readOffset : List Char → Option Int
  | ['Z'] => some 0
  | c :: text =>
    if c = '+' ∨ c = '-' then do
      let ((hour, minute, second, microsecond), text) ← readClock text
      let n := ((hour * 60 + minute) * 60 + second) * 1000000 + microsecond
      if text = [] then some (if c = '+' then n else -n) else none
    else none
  | [] => none

def datetime? (year month day hour minute second microsecond : Nat) (offset : Int) :
    Option Datetime :=
  if h : isDatetime year month day hour minute second microsecond offset then
    some ⟨year, month, day, hour, minute, second, microsecond, offset, h⟩
  else none

def fromisoformat (s : String) : Option Datetime := do
  let (year, text) ← readPadded 4 0 s.toList
  let (month, text) ← readTwo text
  let (day, text) ← readTwo text
  let ((hour, minute, second, microsecond), text) ← readClock text.tail
  let offset ← readOffset text
  datetime? year month day hour minute second microsecond offset

lemma readPadded_padded (w n m : Nat) (rest : List Char) :
    readPadded w m (padded w n ++ rest) = some (m * 10 ^ w + n % 10 ^ w, rest) := by
  induction w generalizing m with
  | zero => simp [readPadded, padded, Nat.mod_one]
  | succ w ih =>
    have hdigit : n / 10 ^ w % 10 < 10 := Nat.mod_lt _ (by decide)
    rw [padded, List.cons_append, readPadded, isDigit_digitChar hdigit, digitChar_toNat hdigit,
      if_pos rfl, ih, Nat.mod_pow_succ]
    simp only [Option.some.injEq, Prod.mk.injEq, and_true]
    rw [Nat.add_sub_cancel_left, pow_succ]
    ring

lemma readPadded_of_lt {w n : Nat} (h : n < 10 ^ w) (rest : List Char) :
    readPadded w 0 (padded w n ++ rest) = some (n, rest) := by
  rw [readPadded_padded, Nat.mod_eq_of_lt h, Nat.zero_mul, Nat.zero_add]

lemma readTwo_padded {n : Nat} (h : n < 100) (rest : List Char) :
    readTwo ('-' :: (padded 2 n ++ rest)) = some (n, rest) :=
  readPadded_of_lt (show n < 10 ^ 2 from h) rest

lemma padded_digits (w n : Nat) : ∀ c ∈ padded w n, isDigit c = true := by
  induction w with
  | zero => simp [padded]
  | succ w ih =>
    intro c hc
    obtain rfl | hc := List.mem_cons.1 hc
    · exact isDigit_digitChar (Nat.mod_lt _ (by decide))
    · exact ih c hc

lemma length_padded (w n : Nat) : (padded w n).length = w := by
  induction w with
  | zero => rfl
  | succ w ih => rw [padded, List.length_cons, ih]

lemma readDigits_padded (w n m : Nat) :
    (readDigits m (padded w n)).1 = m * 10 ^ w + n % 10 ^ w := by
  induction w generalizing m with
  | zero => simp [readDigits, padded, Nat.mod_one]
  | succ w ih =>
    have hdigit : n / 10 ^ w % 10 < 10 := Nat.mod_lt _ (by decide)
    rw [padded, readDigits, isDigit_digitChar hdigit, digitChar_toNat hdigit, if_pos rfl, ih,
      Nat.mod_pow_succ, Nat.add_sub_cancel_left, pow_succ]
    ring

/-- What may follow a time. -/
def EndsClock (rest : List Char) : Prop := ∀ c ∈ rest.head?, isDigit c = false ∧ c ≠ '.'

lemma readFraction_text {n : Nat} (h : n < 1000000) {rest : List Char} (hrest : EndsClock rest) :
    readFraction (fractionText n ++ rest) = some (n, rest) := by
  rw [fractionText]
  split_ifs with hzero
  · rw [List.nil_append, readFraction.eq_def]
    split
    · exact absurd rfl (hrest '.' rfl).2
    · rw [hzero]
  · have htake : (padded 6 n ++ rest).takeWhile isDigit = padded 6 n := by
      rw [List.takeWhile_append_of_pos (padded_digits 6 n)]
      cases rest with
      | nil => simp
      | cons c rest => simp [(hrest c rfl).1]
    have hdrop : (padded 6 n ++ rest).dropWhile isDigit = rest := by
      rw [List.dropWhile_append_of_pos (padded_digits 6 n)]
      cases rest with
      | nil => rfl
      | cons c rest => simp [(hrest c rfl).1]
    have hvalue : (readDigits 0 (padded 6 n)).1 = n := by
      rw [readDigits_padded, Nat.mod_eq_of_lt (show n < 10 ^ 6 from h), Nat.zero_mul, Nat.zero_add]
    rw [List.cons_append, readFraction, htake, hdrop,
      List.take_of_length_le (length_padded 6 n).le, length_padded, hvalue]
    simp [padded]

lemma readClock_text {hour minute second microsecond : Nat} (hhour : hour < 100)
    (hminute : minute < 100) (hsecond : second < 100) (hmicrosecond : microsecond < 1000000)
    {rest : List Char} (hrest : EndsClock rest) :
    readClock (padded 2 hour ++ ':' :: (padded 2 minute ++ ':' :: (padded 2 second ++
      (fractionText microsecond ++ rest)))) = some ((hour, minute, second, microsecond), rest) := by
  simp [readClock, readPadded_of_lt (w := 2) hhour, readPadded_of_lt (w := 2) hminute,
    readPadded_of_lt (w := 2) hsecond, readFraction_text hmicrosecond hrest]

lemma endsClock_offset (offset : Int) : EndsClock (offsetText offset) := by
  rintro c ⟨⟩
  split_ifs <;> decide

/-- A clock behind a sign is the offset of that sign. -/
lemma readOffset_sign {c : Char} {text : List Char} {hour minute second microsecond n : Nat}
    (hc : c = '+' ∨ c = '-')
    (h : readClock text = some ((hour, minute, second, microsecond), []))
    (hn : ((hour * 60 + minute) * 60 + second) * 1000000 + microsecond = n) :
    readOffset (c :: text) = some (if c = '+' then (n : Int) else -n) := by
  subst hn
  obtain rfl | rfl := hc
  · simp [readOffset, h]
  · simp [readOffset, h]

lemma readOffset_text {offset : Int} (h : offset.natAbs < 86400000000) :
    readOffset (offsetText offset) = some offset := by
  have hclock : readClock (offsetText offset).tail = some ((offset.natAbs / 3600000000,
      offset.natAbs / 60000000 % 60, offset.natAbs / 1000000 % 60, offset.natAbs % 1000000),
      []) := by
    rw [offsetText, List.tail_cons]
    split_ifs with hwhole
    · have hsecond : offset.natAbs / 1000000 % 60 = 0 ∧ offset.natAbs % 1000000 = 0 := by omega
      have hhour : offset.natAbs / 3600000000 < 10 ^ 2 := by omega
      have hminute : offset.natAbs / 60000000 % 60 < 10 ^ 2 := by omega
      simp only [readClock, readPadded_of_lt hhour, readPadded_of_lt hminute, hsecond,
        Option.bind_eq_bind, Option.bind_some, Option.pure_def]
    · rw [← List.append_nil (fractionText _)]
      exact readClock_text (by omega) (by omega) (by omega) (by omega) nofun
  have hsplit : offsetText offset = (if offset < 0 then '-' else '+') :: (offsetText offset).tail :=
    rfl
  have hsum : ((offset.natAbs / 3600000000 * 60 + offset.natAbs / 60000000 % 60) * 60 +
      offset.natAbs / 1000000 % 60) * 1000000 + offset.natAbs % 1000000 = offset.natAbs := by omega
  rw [hsplit, readOffset_sign (by split_ifs <;> decide) hclock hsum]
  refine congrArg some ?_
  split_ifs with hneg hsign
  · exact absurd hsign (by decide)
  · omega
  · omega
  · exact absurd rfl ‹_›

theorem fromisoformat_isoformat (t : Datetime) : fromisoformat (isoformat t) = some t := by
  have hvalid := t.valid
  simp only [isDatetime, Bool.and_eq_true, decide_eq_true_eq] at hvalid
  have hdays : daysInMonth t.year t.month ≤ 31 := by
    unfold daysInMonth
    split_ifs <;> omega
  have hdatetime : datetime? t.year t.month t.day t.hour t.minute t.second t.microsecond t.offset =
      some t := dif_pos t.valid
  have hclock := @readClock_text t.hour t.minute t.second t.microsecond (by omega) (by omega)
    (by omega) (by omega) _ (endsClock_offset t.offset)
  rw [fromisoformat, isoformat, String.toList_ofList,
    readPadded_of_lt (show t.year < 10 ^ 4 by omega)]
  simp only [Option.bind_eq_bind, Option.bind_some, readTwo_padded (show t.month < 100 by omega),
    readTwo_padded (show t.day < 100 by omega), List.tail_cons, hclock,
    readOffset_text hvalid.2, hdatetime]

end DevGraph.Work
