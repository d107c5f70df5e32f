import DevGraph.Lib.Json

/-!
# JSON texts as bytes

The grammar of JSON as syntax trees that keep every byte of the text, blanks included, so that a
text has at most one tree. Of a string the grammar knows only where it ends: its escapes, its
UTF-8 and its surrogates are the business of `decode`, and a text whose strings decode is a JSON
text in the strict sense. The value of a tree is taken among the JSON values with integers.
-/

namespace DevGraph.Lib.JsonText

def blank (c : UInt8) : Bool := c == 32 || c == 9 || c == 13 || c == 10

def digit (c : UInt8) : Bool := 48 ≤ c && c ≤ 57

/-- A byte that may follow a value inside a container. -/
def delimiter (c : UInt8) : Bool := blank c || c == 44 || c == 93 || c == 125

/-- A byte that a number or a literal may have. -/
def inWord (c : UInt8) : Bool :=
  !delimiter c && c != 34 && c != 58 && c != 91 && c != 123

/-- The end of the text, or what may follow a value. -/
def Delimited (r : List UInt8) : Prop := ∀ c ∈ r.head?, delimiter c = true

def Digits (w : List UInt8) : Prop := w ≠ [] ∧ ∀ c ∈ w, digit c = true

/-- A number: its sign, integer part, fraction and exponent. -/
inductive Number : List UInt8 → Prop
  | mk {sign whole fraction exponent : List UInt8} (hsign : sign = [] ∨ sign = [45])
    (hwhole : Digits whole) (hzero : whole.head? = some 48 → whole = [48])
    (hfraction : fraction = [] ∨ ∃ w, Digits w ∧ fraction = 46 :: w)
    (hexponent : exponent = [] ∨ ∃ e s w, (e = 69 ∨ e = 101) ∧ (s = [] ∨ s = [43] ∨ s = [45]) ∧
      Digits w ∧ exponent = e :: (s ++ w)) :
    Number (sign ++ (whole ++ (fraction ++ exponent)))

inductive Atom
  | null
  | bool (b : Bool)
  | number (w : List UInt8) (h : Number w)

def Atom.bytes : Atom → List UInt8
  | .null => [110, 117, 108, 108]
  | .bool true => [116, 114, 117, 101]
  | .bool false => [102, 97, 108, 115, 101]
  | .number w _ => w

/-- What may stand between two quotes: a backslash takes the next byte with it. -/
inductive Quotable : List UInt8 → Prop
  | nil : Quotable []
  | char {c : UInt8} {w : List UInt8} (hquote : c ≠ 34) (hescape : c ≠ 92) (hw : Quotable w) :
    Quotable (c :: w)
  | escape {c : UInt8} {w : List UInt8} (hw : Quotable w) : Quotable (92 :: c :: w)

abbrev Blanks := {w : List UInt8 // ∀ c ∈ w, blank c = true}

abbrev Quoted := {w : List UInt8 // Quotable w}

/-! ## Trees -/

inductive Kind
  | array
  | object

def Kind.opening : Kind → UInt8
  | .array => 91
  | .object => 123

def Kind.closing : Kind → UInt8
  | .array => 93
  | .object => 125

/-- What comes before an element, depending on whether it is the first. -/
inductive Sep : Bool → Type
  | none : Sep false
  | comma (b : Blanks) : Sep true

/-- The name of an element, which only the members of an object have. -/
inductive Label : Kind → Type
  | item : Label .array
  | key (b : Blanks) (name : Quoted) (c : Blanks) : Label .object

/-- A value, or what is left of a container, before its first element or behind one. -/
inductive Part
  | value
  | rest (k : Kind) (started : Bool)

inductive Tree : Part → Type
  | atom (a : Atom) : Tree .value
  | str (s : Quoted) : Tree .value
  | node (k : Kind) (body : Tree (.rest k false)) : Tree .value
  | close {k : Kind} {started : Bool} (b : Blanks) : Tree (.rest k started)
  | cons {k : Kind} {started : Bool} (sep : Sep started) (label : Label k) (b : Blanks)
    (v : Tree .value) (body : Tree (.rest k true)) : Tree (.rest k started)

def Sep.write {started : Bool} : Sep started → List UInt8 → List UInt8
  | .none, r => r
  | .comma b, r => b.1 ++ 44 :: r

def Label.write {k : Kind} : Label k → List UInt8 → List UInt8
  | .item, r => r
  | .key b name c, r => b.1 ++ 34 :: (name.1 ++ 34 :: (c.1 ++ 58 :: r))

/-- The bytes of a tree, in front of what follows it. -/
def Tree.write {p : Part} : Tree p → List UInt8 → List UInt8
  | .atom a, r => a.bytes ++ r
  | .str s, r => 34 :: (s.1 ++ 34 :: r)
  | .node k body, r => k.opening :: body.write r
  | .close (k := k) b, r => b.1 ++ k.closing :: r
  | .cons sep label b v body, r => sep.write (label.write (b.1 ++ v.write (body.write r)))

structure Text where
  before : Blanks
  tree : Tree .value
  after : Blanks

def Text.bytes (t : Text) : List UInt8 := t.before.1 ++ t.tree.write t.after.1

/-- How deep the containers of a tree lie in one another. -/
def Tree.nesting {p : Part} : Tree p → Nat
  | .node _ body => body.nesting + 1
  | .cons _ _ _ v body => max v.nesting body.nesting
  | _ => 0

/-- The number of open containers after each byte of a tree, with `n` open around it; the rest
of a container lies inside one more. -/
def Tree.marks {p : Part} : Tree p → Nat → List Nat
  | .atom a, n => .replicate a.bytes.length n
  | .str s, n => .replicate (s.1.length + 2) n
  | .node _ body, n => (n + 1) :: body.marks n
  | .close b, n => .replicate b.1.length (n + 1) ++ [n]
  | .cons sep label b v body, n =>
    .replicate (sep.write (label.write b.1)).length (n + 1) ++ v.marks (n + 1) ++ body.marks n

def Text.marks (t : Text) : List Nat :=
  .replicate t.before.1.length 0 ++ t.tree.marks 0 ++ .replicate t.after.1.length 0

/-- A reader that has taken these bytes and met no error, so that they begin some text, has `n`
containers open. -/
def Opens (read : List UInt8) (n : Nat) : Prop :=
  ∃ (t : Text) (rest : List UInt8), t.bytes = read ++ rest ∧ (0 :: t.marks)[read.length]? = some n

/-! ## Values -/

/-- The characters of a string, when it is UTF-8 and its escapes denote characters. -/
def decode (s : Quoted) : Option String := do
  let text ← String.fromUTF8? ⟨s.1.toArray⟩
  let (chars, rest) ← readString (text.toList ++ ['"'])
  if rest = [] then some (String.ofList chars) else none

def natural (w : List UInt8) : Nat := w.foldl (fun n c => 10 * n + (c.toNat - 48)) 0

/-- A number without its sign. -/
def unsigned (w : List UInt8) : List UInt8 := if w.head? = some 45 then w.tail else w

/-- The integer that digits after an optional sign stand for. -/
def signed (w : List UInt8) : Int :=
  if w.head? = some 45 then -natural (unsigned w) else natural (unsigned w)

abbrev Elem : Kind → Type
  | .array => Json
  | .object => String × Json

abbrev Out : Part → Type
  | .value => Json
  | .rest k _ => List (Elem k)

def container : (k : Kind) → List (Elem k) → Json
  | .array, items => .arr items
  | .object, fields => .obj fields

def Atom.value? : Atom → Option Json
  | .null => some .null
  | .bool b => some (.bool b)
  | .number w _ => if (unsigned w).all digit then some (.int (signed w)) else none

def Label.elem {k : Kind} : Label k → Json → Option (Elem k)
  | .item, v => some v
  | .key _ name _, v => (decode name).map fun name => (name, v)

/-- The value a tree denotes: none when a string does not decode or a number is no integer. -/
def Tree.value? {p : Part} : Tree p → Option (Out p)
  | .atom a => a.value?
  | .str s => (decode s).map Json.str
  | .node k body => body.value?.map (container k)
  | .close _ => some []
  | .cons _ label _ v body => do
    let v ← v.value?
    let e ← label.elem v
    let es ← body.value?
    return e :: es


/-- The containers that the bytes of a part lie in besides those around it. -/
def Part.inner : Part → Nat
  | .value => 0
  | .rest _ _ => 1

lemma Tree.marks_le {p : Part} (t : Tree p) {n d : Nat} (hn : n + p.inner ≤ d) :
    (∀ m ∈ t.marks n, m ≤ d) ↔ n + p.inner + t.nesting ≤ d := by
  have hflat : ∀ {k m : Nat}, m ≤ d → ∀ l ∈ List.replicate k m, l ≤ d := by
    intro k m hm l hl
    exact List.eq_of_mem_replicate hl ▸ hm
  induction t generalizing n with
  | atom a => exact ⟨fun _ => hn, fun _ => hflat hn⟩
  | str s => exact ⟨fun _ => hn, fun _ => hflat hn⟩
  | node k body ih =>
    simp only [Tree.marks, Tree.nesting, List.forall_mem_cons, Part.inner] at ih ⊢
    constructor
    · rintro ⟨hopen, hbody⟩
      have hdeep := (ih hopen).1 hbody
      omega
    · intro hdeep
      exact ⟨by omega, (ih (by omega)).2 (by omega)⟩
  | close b =>
    refine ⟨fun _ => hn, fun _ => List.forall_mem_append.2 ⟨hflat hn, ?_⟩⟩
    simpa using (Nat.le_succ n).trans hn
  | cons sep label b v body ihv ihb =>
    simp only [Tree.marks, Tree.nesting, List.forall_mem_append, Part.inner] at ihv ihb hn ⊢
    refine (and_congr (and_congr (iff_true_intro (hflat hn)) (ihv hn)) (ihb hn)).trans ?_
    rw [true_and]
    omega

/-! ## Unambiguity -/

section Splitting

variable {r r' : List UInt8}

/-- A run of bytes of one class, with none of them behind it. -/
lemma run_split {P : UInt8 → Bool} {a : List UInt8} (ha : ∀ c ∈ a, P c = true)
    (hr : ∀ c ∈ r.head?, P c = false) :
    (a ++ r).takeWhile P = a ∧ (a ++ r).dropWhile P = r := by
  rw [List.takeWhile_append_of_pos ha, List.dropWhile_append_of_pos ha]
  cases r with
  | nil => simp
  | cons c r => simp [hr c rfl]

lemma run_unique {P : UInt8 → Bool} {a a' : List UInt8} (ha : ∀ c ∈ a, P c = true)
    (ha' : ∀ c ∈ a', P c = true) (hr : ∀ c ∈ r.head?, P c = false)
    (hr' : ∀ c ∈ r'.head?, P c = false) (h : a ++ r = a' ++ r') : a = a' ∧ r = r' := by
  obtain ⟨htake, hdrop⟩ := run_split ha hr
  rw [h] at htake hdrop
  obtain ⟨htake', hdrop'⟩ := run_split ha' hr'
  exact ⟨htake.symm.trans htake', hdrop.symm.trans hdrop'⟩

lemma blanks_unique {b b' : Blanks} {c c' : UInt8} (hc : blank c = false) (hc' : blank c' = false)
    (h : b.1 ++ c :: r = b'.1 ++ c' :: r') : b = b' ∧ c = c' ∧ r = r' := by
  obtain ⟨hb, hr⟩ := run_unique b.2 b'.2 (by simpa using hc) (by simpa using hc') h
  exact ⟨Subtype.ext hb, List.cons.inj hr⟩

lemma quotable_unique {s s' : List UInt8} (hs : Quotable s) (hs' : Quotable s')
    (h : s ++ 34 :: r = s' ++ 34 :: r') : s = s' ∧ r = r' := by
  induction hs generalizing s' with
  | nil => cases hs' <;> grind
  | char hquote hescape hw ih => cases hs' <;> grind
  | escape hw ih => cases hs' <;> grind

lemma quoted_unique {s s' : Quoted} (h : s.1 ++ 34 :: r = s'.1 ++ 34 :: r') : s = s' ∧ r = r' :=
  (quotable_unique s.2 s'.2 h).imp_left Subtype.ext

end Splitting

variable {c : UInt8}

lemma inWord_of_digit (h : digit c = true) : inWord c = true := by
  grind [digit, inWord, delimiter, blank]

lemma Number.inWord {w : List UInt8} (h : Number w) : ∀ c ∈ w, inWord c = true := by
  obtain ⟨hsign, hwhole, -, hfraction, hexponent⟩ := h
  have hdigits : ∀ {w : List UInt8}, Digits w → ∀ c ∈ w, JsonText.inWord c = true :=
    fun hw c hc => inWord_of_digit (hw.2 c hc)
  simp only [List.mem_append]
  rintro c (hc | hc | hc | hc)
  · obtain rfl | rfl := hsign
    · cases hc
    · rw [List.mem_singleton.1 hc]
      decide
  · exact hdigits hwhole c hc
  · obtain rfl | ⟨w, hw, rfl⟩ := hfraction
    · cases hc
    · grind [JsonText.inWord, delimiter, blank]
  · obtain rfl | ⟨e, s, w, he, hs, hw, rfl⟩ := hexponent
    · cases hc
    · grind [JsonText.inWord, delimiter, blank]

lemma Atom.inWord (a : Atom) : ∀ c ∈ a.bytes, inWord c = true := by
  cases a with
  | null => exact List.all_eq_true.1 rfl
  | bool b => cases b <;> exact List.all_eq_true.1 rfl
  | number w h => exact h.inWord

lemma Number.head {w : List UInt8} (h : Number w) :
    ∃ c rest, w = c :: rest ∧ (c = 45 ∨ digit c = true) := by
  obtain ⟨rfl | rfl, hwhole, -⟩ := h
  · obtain ⟨c, whole, rfl⟩ := List.exists_cons_of_ne_nil hwhole.1
    exact ⟨c, _, rfl, .inr (hwhole.2 c List.mem_cons_self)⟩
  · exact ⟨45, _, rfl, .inl rfl⟩

lemma Atom.bytes_injective : Function.Injective Atom.bytes := by
  -- a number begins with its sign or a digit, which no literal does
  have hliteral : ∀ {c : UInt8} {w : List UInt8}, c = 110 ∨ c = 116 ∨ c = 102 →
      ¬Number (c :: w) := by
    rintro c w hc h
    obtain ⟨_, _, ⟨⟩, rfl | hdigit⟩ := h.head
    · grind
    · grind [digit]
  rintro (_ | (_ | _) | ⟨w, hw⟩) (_ | (_ | _) | ⟨w', hw'⟩) h <;> cases h
  all_goals first
    | rfl
    | exact absurd hw (hliteral (by decide))
    | exact absurd hw' (hliteral (by decide))

lemma Atom.head (a : Atom) (r : List UInt8) :
    ∃ c w, a.bytes ++ r = c :: w ∧ JsonText.inWord c = true := by
  have hne : a.bytes ≠ [] := by
    cases a with
    | null => exact List.cons_ne_nil _ _
    | bool b => cases b <;> exact List.cons_ne_nil _ _
    | number w h =>
      obtain ⟨c, rest, rfl, -⟩ := h.head
      exact List.cons_ne_nil _ _
  obtain ⟨c, w, ha⟩ := List.exists_cons_of_ne_nil hne
  exact ⟨c, w ++ r, by rw [ha, List.cons_append], a.inWord c (ha ▸ List.mem_cons_self)⟩

lemma not_inWord_of_delimiter (h : delimiter c = true) : inWord c = false := by
  grind [inWord]

/-- A value begins with a byte that can follow no value. -/
lemma Tree.value_head (t : Tree .value) (r : List UInt8) :
    ∃ c w, t.write r = c :: w ∧ delimiter c = false := by
  cases t with
  | atom a =>
    obtain ⟨c, w, ha, hc⟩ := a.head r
    exact ⟨c, w, ha, by grind [inWord]⟩
  | str s => exact ⟨34, _, rfl, rfl⟩
  | node k body => cases k <;> exact ⟨_, _, rfl, rfl⟩

lemma blanks_delimited (b : Blanks) : Delimited b.1 := by
  intro c hc
  simp [delimiter, b.2 c (List.mem_of_mem_head? hc)]

lemma delimited_blanks (b : Blanks) {r : List UInt8} (hc : delimiter c = true) :
    Delimited (b.1 ++ c :: r) := by
  obtain ⟨_ | ⟨d, b⟩, hb⟩ := b
  · rintro _ ⟨⟩
    exact hc
  · rintro _ ⟨⟩
    simp [delimiter, hb d List.mem_cons_self]

lemma Tree.delimited {k : Kind} (t : Tree (.rest k true)) (r : List UInt8) :
    Delimited (t.write r) := by
  cases t with
  | close b => exact delimited_blanks b (by cases k <;> rfl)
  | cons sep label b v body =>
    cases sep
    exact delimited_blanks _ rfl

section Unique

variable {k : Kind} {started : Bool} {r r' : List UInt8}

lemma Atom.unique {a a' : Atom} (hr : Delimited r) (hr' : Delimited r')
    (h : a.bytes ++ r = a'.bytes ++ r') : a = a' ∧ r = r' :=
  (run_unique a.inWord a'.inWord (fun c hc => not_inWord_of_delimiter (hr c hc))
    (fun c hc => not_inWord_of_delimiter (hr' c hc)) h).imp_left fun hbytes =>
      Atom.bytes_injective hbytes

lemma Atom.ne_cons {a : Atom} (hc : JsonText.inWord c = false) :
    a.bytes ++ r ≠ c :: r' := by
  obtain ⟨d, w, ha, hd⟩ := a.head r
  grind

lemma Sep.unique {sep sep' : Sep started} (h : sep.write r = sep'.write r') :
    sep = sep' ∧ r = r' := by
  cases sep <;> cases sep'
  · exact ⟨rfl, h⟩
  · obtain ⟨rfl, -, rfl⟩ := blanks_unique rfl rfl h
    exact ⟨rfl, rfl⟩

lemma Label.unique {label label' : Label k} (h : label.write r = label'.write r') :
    label = label' ∧ r = r' := by
  cases label <;> cases label'
  · exact ⟨rfl, h⟩
  · obtain ⟨rfl, -, hname⟩ := blanks_unique rfl rfl h
    obtain ⟨rfl, hcolon⟩ := quoted_unique hname
    obtain ⟨rfl, -, rfl⟩ := blanks_unique rfl rfl hcolon
    exact ⟨rfl, rfl⟩

lemma blanks_value_unique {b b' : Blanks} {v v' : Tree .value}
    (h : b.1 ++ v.write r = b'.1 ++ v'.write r') : b = b' ∧ v.write r = v'.write r' := by
  obtain ⟨c, w, hv, hc⟩ := v.value_head r
  obtain ⟨c', w', hv', hc'⟩ := v'.value_head r'
  rw [hv, hv'] at h ⊢
  obtain ⟨rfl, rfl, rfl⟩ := blanks_unique (by grind [delimiter]) (by grind [delimiter]) h
  exact ⟨rfl, rfl⟩

/-- Behind its blanks, an element does not begin as the end of its container does. -/
lemma Tree.cons_ne_close {sep : Sep started} {label : Label k} {b b' : Blanks} {v : Tree .value}
    {body : Tree (.rest k true)} :
    (Tree.cons sep label b v body).write r ≠ b'.1 ++ k.closing :: r' := by
  intro h
  have hclosing : blank k.closing = false := by cases k <;> rfl
  cases sep with
  | comma d =>
    obtain ⟨-, hc, -⟩ := blanks_unique rfl hclosing h
    cases k <;> cases hc
  | none =>
    cases label with
    | key d name e => cases (blanks_unique rfl hclosing h).2.1
    | item =>
      obtain ⟨c, w, hv, hc⟩ := v.value_head (body.write r)
      rw [Tree.write, Sep.write, Label.write, hv] at h
      obtain ⟨-, rfl, -⟩ := blanks_unique (by grind [delimiter]) hclosing h
      cases hc

end Unique

theorem Tree.unique {p : Part} (t t' : Tree p) {r r' : List UInt8}
    (hr : p = .value → Delimited r ∧ Delimited r') (h : t.write r = t'.write r') :
    t = t' ∧ r = r' := by
  induction t generalizing r r' with
  | atom a =>
    cases t' with
    | atom a' =>
      obtain ⟨rfl, rfl⟩ := Atom.unique (hr rfl).1 (hr rfl).2 h
      exact ⟨rfl, rfl⟩
    | str s => exact absurd h (Atom.ne_cons rfl)
    | node k body => exact absurd h (Atom.ne_cons (by cases k <;> rfl))
  | str s =>
    cases t' with
    | atom a => exact absurd h.symm (Atom.ne_cons rfl)
    | str s' =>
      obtain ⟨rfl, rfl⟩ := quoted_unique (List.cons.inj h).2
      exact ⟨rfl, rfl⟩
    | node k body => cases k <;> cases (List.cons.inj h).1
  | node k body ih =>
    cases t' with
    | atom a => exact absurd h.symm (Atom.ne_cons (by cases k <;> rfl))
    | str s => cases k <;> cases (List.cons.inj h).1
    | node k' body' =>
      obtain ⟨hk, h⟩ := List.cons.inj h
      obtain rfl : k = k' := by cases k <;> cases k' <;> first | rfl | cases hk
      obtain ⟨rfl, rfl⟩ := ih body' (by rintro ⟨⟩) h
      exact ⟨rfl, rfl⟩
  | @close k _ b =>
    cases t' with
    | close b' =>
      have hclosing : blank k.closing = false := by cases k <;> rfl
      obtain ⟨rfl, -, rfl⟩ := blanks_unique hclosing hclosing h
      exact ⟨rfl, rfl⟩
    | cons sep label b v body => exact absurd h.symm Tree.cons_ne_close
  | cons sep label b v body ihv ihb =>
    cases t' with
    | close b' => exact absurd h Tree.cons_ne_close
    | cons sep' label' b' v' body' =>
      obtain ⟨rfl, hlabel⟩ := Sep.unique h
      obtain ⟨rfl, hblanks⟩ := Label.unique hlabel
      obtain ⟨rfl, hvalue⟩ := blanks_value_unique hblanks
      obtain ⟨rfl, hbody⟩ := ihv v' (fun _ => ⟨body.delimited r, body'.delimited r'⟩) hvalue
      obtain ⟨rfl, rfl⟩ := ihb body' (by rintro ⟨⟩) hbody
      exact ⟨rfl, rfl⟩

theorem Text.bytes_injective : Function.Injective Text.bytes := by
  rintro ⟨b, t, b₂⟩ ⟨b', t', b₂'⟩ h
  obtain ⟨rfl, htree⟩ := blanks_value_unique h
  obtain ⟨rfl, hend⟩ := t.unique t' (fun _ => ⟨blanks_delimited b₂, blanks_delimited b₂'⟩) htree
  rw [Subtype.ext hend]

end DevGraph.Lib.JsonText
