import DevGraph.Lib.Except
import DevGraph.Lib.JsonRoundTrip

/-!
# Closed record models over JSON

Decoders for records that name all their members. A value is canonical when its text with sorted
keys is read back as it stands.
-/

namespace DevGraph.Lib

variable {d : Dialect}

variable {α β : Type}

def Json.asStr : Json → Option String
  | .str s => some s
  | _ => none

def Json.asInt : Json → Option Int
  | .int n => some n
  | _ => none

def Json.asObj : Json → Option (List (String × Json))
  | .obj fields => some fields
  | _ => none

def Json.asList (decode : Json → Option α) : Json → Option (List α)
  | .arr items => items.mapM decode
  | _ => none

def Json.asNullable (decode : Json → Option α) : Json → Option (Option α)
  | .null => some none
  | v => (decode v).map some

/-- The member of an enumeration that bears the name. -/
def Json.asName (name : α → String) (values : List α) : Json → Option α
  | .str s => values.find? fun a => name a = s
  | _ => none

def ensure (p : α → Bool) (a : α) : Option α := if p a then some a else none

def onlyMembers (fields : List (String × Json)) (names : List String) : Bool :=
  fields.all fun field => names.contains field.1

def required (fields : List (String × Json)) (name : String) (decode : Json → Option α) :
    Option α :=
  (member fields name).bind decode

def defaulted (fields : List (String × Json)) (name : String) (default : α)
    (decode : Json → Option α) : Option α :=
  match member fields name with
  | some v => decode v
  | none => some default

def Json.ofNullable (encode : α → Json) : Option α → Json
  | none => .null
  | some a => encode a

@[simp] lemma asObj_obj (fields : List (String × Json)) : (Json.obj fields).asObj = some fields :=
  rfl

lemma asList_map {encode : α → Json} {decode : Json → Option α} {l : List α}
    (h : ∀ a ∈ l, decode (encode a) = some a) :
    (Json.arr (l.map encode)).asList decode = some l := by
  change (l.map encode).mapM decode = some l
  induction l with
  | nil => rfl
  | cons a l ih =>
    have ha := h a (by simp)
    have hl := ih fun b hb => h b (by simp [hb])
    simp [ha, hl]

lemma asNullable_ofNullable {encode : α → Json} {decode : Json → Option α} {a : Option α}
    (h : ∀ b ∈ a, decode (encode b) = some b) (hnull : ∀ b, encode b ≠ .null) :
    (Json.ofNullable encode a).asNullable decode = some a := by
  cases a with
  | none => rfl
  | some b =>
    have hb := h b rfl
    change (encode b).asNullable decode = some (some b)
    unfold Json.asNullable
    split
    · rename_i heq
      exact absurd heq (hnull b)
    · rw [hb]
      rfl

lemma asName_name {name : α → String} {values : List α} {a : α} (ha : a ∈ values)
    (hinj : ∀ b ∈ values, name b = name a → b = a) :
    (Json.str (name a)).asName name values = some a := by
  change values.find? _ = _
  cases h : values.find? fun b => decide (name b = name a) with
  | none =>
    rw [List.find?_eq_none] at h
    exact absurd (decide_eq_true rfl) (h a ha)
  | some b =>
    have hb := List.find?_some h
    rw [hinj b (List.mem_of_find?_eq_some h) (by simpa using hb)]

@[simp] lemma ensure_eq_some {p : α → Bool} {a b : α} :
    ensure p a = some b ↔ p a = true ∧ a = b := by
  unfold ensure
  split
  · rename_i h
    simp [h]
  · rename_i h
    simp [h]

mutual
def Json.IntsIn (p : Int → Prop) : Json → Prop
  | .int n => p n
  | .arr items => ItemsIntsIn p items
  | .obj fields => FieldsIntsIn p fields
  | _ => True
def ItemsIntsIn (p : Int → Prop) : List Json → Prop
  | [] => True
  | v :: items => v.IntsIn p ∧ ItemsIntsIn p items
def FieldsIntsIn (p : Int → Prop) : List (String × Json) → Prop
  | [] => True
  | (_, v) :: fields => v.IntsIn p ∧ FieldsIntsIn p fields
end

lemma fieldsIntsIn_iff {p : Int → Prop} {fields : List (String × Json)} :
    FieldsIntsIn p fields ↔ ∀ field ∈ fields, field.2.IntsIn p := by
  induction fields with
  | nil => simp [FieldsIntsIn]
  | cons field fields ih => simp [FieldsIntsIn, ih]

variable {v : Json}

lemma member_intsIn {p : Int → Prop} {fields : List (String × Json)} {name : String}
    (h : FieldsIntsIn p fields) (hv : member fields name = some v) : v.IntsIn p := by
  rw [fieldsIntsIn_iff] at h
  induction fields with
  | nil => cases hv
  | cons field fields ih =>
    rw [member, List.lookup_cons] at hv
    split at hv
    · cases hv
      exact h field (by simp)
    · exact ih (fun f hf => h f (by simp [hf])) hv

/-- The integers that a reader lets through are those that its dialect admits. -/
structure ReadsIntsIn (d : Dialect) (fuel : Nat) : Prop where
  value : ∀ {text v rest}, readValue d fuel text = some (v, rest) → v.IntsIn (d.int · = true)
  items : ∀ {text items rest}, readItems d fuel text = some (items, rest) →
    ItemsIntsIn (d.int · = true) items
  member : ∀ {text fields rest}, readMember d fuel text = some (fields, rest) →
    FieldsIntsIn (d.int · = true) fields
  fields : ∀ {text fields rest}, readFields d fuel text = some (fields, rest) →
    FieldsIntsIn (d.int · = true) fields

lemma pairs_intsIn (d : Dialect) {p : Int → Prop} {fields taken : List (String × Json)}
    (h : d.pairs fields = some taken) (hfields : FieldsIntsIn p fields) :
    FieldsIntsIn p taken := by
  rw [fieldsIntsIn_iff] at hfields ⊢
  exact fun field hfield => hfields field (d.pairs_subset h hfield)

variable {text : List Char}

lemma readValue_intsIn {fuel : Nat} (ih : ReadsIntsIn d fuel)
    {rest : List Char} (h : readValue d (fuel + 1) text = some (v, rest)) :
    v.IntsIn (d.int · = true) := by
  unfold readValue at h
  split at h
  · cases h
  · split at h
    · cases h
      trivial
    · cases h
  · rename_i hfuel
    cases hfuel
    split at h
    · simp only [Option.map_eq_some_iff] at h
      obtain ⟨fields, hpairs, heq⟩ := h
      cases heq
      exact pairs_intsIn d hpairs trivial
    · simp only [option_bind_some] at h
      obtain ⟨⟨fields, rest'⟩, hmember, taken, hpairs, heq⟩ := h
      cases heq
      exact pairs_intsIn d hpairs (ih.member hmember)
  · rename_i hfuel
    cases hfuel
    split at h
    · cases h
      trivial
    · simp only [option_bind_some] at h
      obtain ⟨⟨w, rest'⟩, hvalue, ⟨items, rest''⟩, hitems, heq⟩ := h
      cases heq
      exact ⟨ih.value hvalue, ih.items hitems⟩
  · cases h
    trivial
  · cases h
    trivial
  · cases h
    trivial
  · split at h
    · split at h
      · cases h
        assumption
      · cases h
    · cases h
  · split at h
    · split at h
      · cases h
        assumption
      · cases h
    · cases h

lemma readMember_intsIn {fuel : Nat} (ih : ReadsIntsIn d fuel)
    {fields : List (String × Json)} {rest : List Char}
    (h : readMember d (fuel + 1) text = some (fields, rest)) :
    FieldsIntsIn (d.int · = true) fields := by
  unfold readMember at h
  split at h
  · rename_i hfuel
    cases hfuel
    simp only [option_bind_some] at h
    obtain ⟨⟨k, after⟩, -, h⟩ := h
    split at h
    · simp only [option_bind_some] at h
      obtain ⟨⟨w, after'⟩, hvalue, ⟨more, after''⟩, hfields, heq⟩ := h
      cases heq
      exact ⟨ih.value hvalue, ih.fields hfields⟩
    · cases h
  · cases h

theorem reads_intsIn (d : Dialect) (fuel : Nat) : ReadsIntsIn d fuel := by
  induction fuel with
  | zero =>
    refine ⟨?_, ?_, ?_, ?_⟩ <;> intro text v rest h <;>
      simp [readValue, readItems, readMember, readFields] at h
  | succ fuel ih =>
    refine ⟨readValue_intsIn ih, ?_, readMember_intsIn ih, ?_⟩
    · intro text items rest h
      unfold readItems at h
      split at h
      · cases h
        trivial
      · rename_i hfuel
        cases hfuel
        simp only [option_bind_some] at h
        obtain ⟨⟨w, after⟩, hvalue, ⟨more, after'⟩, hitems, heq⟩ := h
        cases heq
        exact ⟨ih.value hvalue, ih.items hitems⟩
      · cases h
    · intro text fields rest h
      unfold readFields at h
      split at h
      · cases h
        trivial
      · rename_i hfuel
        cases hfuel
        exact ih.member h
      · cases h

theorem loads_intsIn (h : loads d text = some v) :
    v.IntsIn (d.int · = true) := by
  unfold loads at h
  split at h
  · rename_i hread
    split at h
    · cases h
      exact (reads_intsIn d _).value hread
    · cases h
  · cases h

/-! ## Canonical values -/

mutual
/-- Keys are in strictly increasing order in every object, and integers satisfy `p`. -/
def Json.Canonical (p : Int → Prop) : Json → Prop
  | .int n => p n
  | .arr items => ItemsCanonical p items
  | .obj fields =>
    FieldsCanonical p fields ∧ (fields.map Prod.fst).Pairwise fun a b => a.toList < b.toList
  | _ => True
def ItemsCanonical (p : Int → Prop) : List Json → Prop
  | [] => True
  | v :: items => v.Canonical p ∧ ItemsCanonical p items
def FieldsCanonical (p : Int → Prop) : List (String × Json) → Prop
  | [] => True
  | (_, v) :: fields => v.Canonical p ∧ FieldsCanonical p fields
end

mutual
theorem sortKeys_of_canonical {p : Int → Prop} (v : Json) (hv : v.Canonical p) :
    v.sortKeys = v := by
  match v, hv with
  | .null, _ => rfl
  | .bool _, _ => rfl
  | .int _, _ => rfl
  | .str _, _ => rfl
  | .arr items, hv => rw [Json.sortKeys, sortItems_of_canonical items hv]
  | .obj fields, hv =>
    have hle : fields.Pairwise fun a b => a.1.toList ≤ b.1.toList := by
      have h := List.pairwise_map.1 hv.2
      exact h.imp fun hab => le_of_lt hab
    rw [Json.sortKeys, sortFields_of_canonical fields hv.1, List.Pairwise.insertionSort_eq hle]
theorem sortItems_of_canonical {p : Int → Prop} (items : List Json)
    (h : ItemsCanonical p items) : sortItems items = items := by
  match items, h with
  | [], _ => rfl
  | v :: items, h => rw [sortItems, sortKeys_of_canonical v h.1, sortItems_of_canonical items h.2]
theorem sortFields_of_canonical {p : Int → Prop} (fields : List (String × Json))
    (h : FieldsCanonical p fields) : sortFields fields = fields := by
  match fields, h with
  | [], _ => rfl
  | (_, v) :: fields, h =>
    rw [sortFields, sortKeys_of_canonical v h.1, sortFields_of_canonical fields h.2]
end

mutual
theorem readable_of_canonical {p : Int → Prop} (hp : ∀ n, p n → d.int n = true)
    (v : Json) (hv : v.Canonical p) : v.Readable d := by
  match v, hv with
  | .null, _ => trivial
  | .bool _, _ => trivial
  | .int n, hv => exact hp n hv
  | .str _, _ => trivial
  | .arr items, hv => exact itemsReadable_of_canonical hp items hv
  | .obj fields, hv =>
    exact ⟨fieldsReadable_of_canonical hp fields hv.1,
      hv.2.imp fun hab heq => (hab.ne (congrArg String.toList heq))⟩
theorem itemsReadable_of_canonical {p : Int → Prop}
    (hp : ∀ n, p n → d.int n = true) (items : List Json) (h : ItemsCanonical p items) :
    ItemsReadable d items := by
  match items, h with
  | [], _ => trivial
  | v :: items, h =>
    exact ⟨readable_of_canonical hp v h.1, itemsReadable_of_canonical hp items h.2⟩
theorem fieldsReadable_of_canonical {p : Int → Prop}
    (hp : ∀ n, p n → d.int n = true) (fields : List (String × Json))
    (h : FieldsCanonical p fields) : FieldsReadable d fields := by
  match fields, h with
  | [], _ => trivial
  | (_, v) :: fields, h =>
    exact ⟨readable_of_canonical hp v h.1, fieldsReadable_of_canonical hp fields h.2⟩
end

theorem loads_dumps_of_canonical {p : Int → Prop} (hp : ∀ n, p n → d.int n = true)
    (ascii : Bool) (hv : v.Canonical p) : loads d (dumps ascii v).toList = some v := by
  rw [loads_dumps d ascii (readable_of_canonical hp v hv), sortKeys_of_canonical v hv]

lemma itemsCanonical_map {p : Int → Prop} {encode : α → Json} {l : List α}
    (h : ∀ a ∈ l, (encode a).Canonical p) : ItemsCanonical p (l.map encode) := by
  induction l with
  | nil => trivial
  | cons a l ih => exact ⟨h a (by simp), ih fun b hb => h b (by simp [hb])⟩

/-! ## Codecs -/

mutual
theorem nestedWithin_mono {m n : Nat} (hmn : m ≤ n) (v : Json) (h : v.nestedWithin m = true) :
    v.nestedWithin n = true := by
  match v, h with
  | .null, _ => rfl
  | .bool _, _ => rfl
  | .int _, _ => rfl
  | .str _, _ => rfl
  | .arr items, h => exact itemsNestedWithin_mono hmn items h
  | .obj fields, h => exact fieldsNestedWithin_mono hmn fields h
theorem itemsNestedWithin_mono {m n : Nat} (hmn : m ≤ n) (items : List Json)
    (h : itemsNestedWithin m items = true) : itemsNestedWithin n items = true := by
  match m, n, items, h with
  | _, _, [], _ => simp [itemsNestedWithin]
  | 0, _, _ :: _, h => simp [itemsNestedWithin] at h
  | m + 1, n + 1, v :: items, h =>
    simp only [itemsNestedWithin, Bool.and_eq_true] at h ⊢
    exact ⟨nestedWithin_mono (Nat.le_of_succ_le_succ hmn) v h.1,
      itemsNestedWithin_mono hmn items h.2⟩
theorem fieldsNestedWithin_mono {m n : Nat} (hmn : m ≤ n) (fields : List (String × Json))
    (h : fieldsNestedWithin m fields = true) : fieldsNestedWithin n fields = true := by
  match m, n, fields, h with
  | _, _, [], _ => simp [fieldsNestedWithin]
  | 0, _, _ :: _, h => simp [fieldsNestedWithin] at h
  | m + 1, n + 1, (_, v) :: fields, h =>
    simp only [fieldsNestedWithin, Bool.and_eq_true] at h ⊢
    exact ⟨nestedWithin_mono (Nat.le_of_succ_le_succ hmn) v h.1,
      fieldsNestedWithin_mono hmn fields h.2⟩
end

lemma fieldsNestedWithin_iff {n : Nat} {fields : List (String × Json)} :
    fieldsNestedWithin n fields = true ↔
      ∀ field ∈ fields, 0 < n ∧ field.2.nestedWithin (n - 1) = true := by
  induction fields with
  | nil => cases n <;> simp [fieldsNestedWithin]
  | cons field fields ih =>
    cases n with
    | zero =>
      refine iff_of_false nofun fun h => ?_
      exact absurd (h field List.mem_cons_self).1 (Nat.lt_irrefl 0)
    | succ n => simp [fieldsNestedWithin, ih]

mutual
/-- The order of members does not matter to the depth. -/
theorem nestedWithin_sortKeys (n : Nat) (v : Json) :
    v.sortKeys.nestedWithin n = v.nestedWithin n := by
  match v with
  | .null => rfl
  | .bool _ => rfl
  | .int _ => rfl
  | .str _ => rfl
  | .arr items => exact itemsNestedWithin_sortItems n items
  | .obj fields =>
    have hperm := List.perm_insertionSort (fun a b : String × Json => a.1.toList ≤ b.1.toList)
      (sortFields fields)
    have hsorted := fieldsNestedWithin_sortFields n fields
    rw [Bool.eq_iff_iff, fieldsNestedWithin_iff] at hsorted
    rw [Json.sortKeys, Json.nestedWithin, Json.nestedWithin, Bool.eq_iff_iff,
      fieldsNestedWithin_iff, ← hsorted]
    exact forall_congr' fun field => imp_congr_left hperm.mem_iff
theorem itemsNestedWithin_sortItems (n : Nat) (items : List Json) :
    itemsNestedWithin n (sortItems items) = itemsNestedWithin n items := by
  match n, items with
  | _, [] => rfl
  | 0, _ :: _ => rfl
  | n + 1, v :: items =>
    rw [sortItems, itemsNestedWithin, itemsNestedWithin, nestedWithin_sortKeys n v,
      itemsNestedWithin_sortItems (n + 1) items]
theorem fieldsNestedWithin_sortFields (n : Nat) (fields : List (String × Json)) :
    fieldsNestedWithin n (sortFields fields) = fieldsNestedWithin n fields := by
  match n, fields with
  | _, [] => rfl
  | 0, (_, _) :: _ => rfl
  | n + 1, (_, v) :: fields =>
    rw [sortFields, fieldsNestedWithin, fieldsNestedWithin, nestedWithin_sortKeys n v,
      fieldsNestedWithin_sortFields (n + 1) fields]
end

lemma nested_obj {n : Nat} {fields : List (String × Json)}
    (h : fieldsNestedWithin n fields = true) : (Json.obj fields).nestedWithin n = true := h

lemma nested_cons {n : Nat} {name : String} {fields : List (String × Json)}
    (hv : v.nestedWithin n = true) (hfields : fieldsNestedWithin (n + 1) fields = true) :
    fieldsNestedWithin (n + 1) ((name, v) :: fields) = true := by
  rw [fieldsNestedWithin, hv, hfields]
  rfl

/-- Canonical, and within the depth. -/
def Json.Neat (p : Int → Prop) (depth : Nat) (v : Json) : Prop :=
  v.Canonical p ∧ v.nestedWithin depth = true

@[simp] lemma neat_str {p : Int → Prop} {depth : Nat} (s : String) : (Json.str s).Neat p depth :=
  ⟨trivial, by cases depth <;> rfl⟩

lemma Json.Neat.mono {p : Int → Prop} {depth depth' : Nat} (h : v.Neat p depth)
    (hle : depth ≤ depth') : v.Neat p depth' := ⟨h.1, nestedWithin_mono hle v h.2⟩

/-- The value is printed canonically, within the depth, and read back from what is printed. -/
structure Printed (p : Int → Prop) (decode : Json → Option α) (encode : α → Json) (depth : Nat)
    (a : α) : Prop where
  read : decode (encode a) = some a
  canonical : (encode a).Canonical p
  nested : (encode a).nestedWithin depth = true

/-- Whatever was decoded prints. -/
def Codec (p : Int → Prop) (decode : Json → Option α) (encode : α → Json) (depth : Nat) : Prop :=
  ∀ ⦃v a⦄, v.IntsIn p → decode v = some a → Printed p decode encode depth a

section Codecs

variable {p : Int → Prop} {decode : Json → Option α} {encode : α → Json} {depth : Nat}

lemma Printed.neat {a : α} (h : Printed p decode encode depth a) : (encode a).Neat p depth :=
  ⟨h.canonical, h.nested⟩

lemma Printed.mono {a : α} (h : Printed p decode encode depth a) {depth' : Nat}
    (hle : depth ≤ depth') : Printed p decode encode depth' a :=
  ⟨h.read, h.canonical, nestedWithin_mono hle _ h.nested⟩

lemma printed_str (s : String) : Printed p Json.asStr Json.str 0 s := ⟨rfl, trivial, rfl⟩

lemma codec_str : Codec p Json.asStr Json.str 0 := fun _ _ _ _ => printed_str _

lemma codec_int : Codec p Json.asInt Json.int 0 := by
  intro v n hv h
  cases v with
  | int m => cases h; exact ⟨rfl, hv, rfl⟩
  | _ => cases h

lemma codec_ensure (hc : Codec p decode encode depth) (q : α → Bool) :
    Codec p (fun v => (decode v).bind (ensure q)) encode depth := by
  intro v a hv h
  simp only [Option.bind_eq_some_iff, ensure_eq_some] at h
  obtain ⟨b, hb, hq, rfl⟩ := h
  have hb := hc hv hb
  exact ⟨by simp [hb.read, hq], hb.canonical, hb.nested⟩

lemma codec_name {name : α → String} (values : List α) (hinj : Function.Injective name) :
    Codec p (Json.asName name values) (fun a => .str (name a)) 0 := by
  intro v a _ h
  cases v with
  | str s =>
    exact ⟨asName_name (List.mem_of_find?_eq_some h) fun b _ heq => hinj heq, trivial, rfl⟩
  | _ => cases h

lemma printed_list {l : List α} (h : ∀ a ∈ l, Printed p decode encode depth a) :
    Printed p (Json.asList decode) (fun l => .arr (l.map encode)) (depth + 1) l := by
  refine ⟨asList_map fun a ha => (h a ha).read,
    itemsCanonical_map fun a ha => (h a ha).canonical, ?_⟩
  change itemsNestedWithin (depth + 1) (l.map encode) = true
  induction l with
  | nil => rfl
  | cons a l ih =>
    rw [List.map_cons, itemsNestedWithin, (h a (by simp)).nested, Bool.true_and]
    exact ih fun b hb => h b (by simp [hb])

lemma mapM_mem {items : List Json} {l : List α} (h : items.mapM decode = some l) {a : α}
    (ha : a ∈ l) : ∃ w ∈ items, decode w = some a := by
  induction items generalizing l with
  | nil =>
    simp only [List.mapM_nil, Option.pure_def, Option.some.injEq] at h
    simp [← h] at ha
  | cons w items ih =>
    simp only [List.mapM_cons, option_bind_some, Option.pure_def, Option.some.injEq] at h
    obtain ⟨b, hb, bs, hbs, rfl⟩ := h
    obtain rfl | ha := List.mem_cons.1 ha
    · exact ⟨w, by simp, hb⟩
    · obtain ⟨w', hw', hdecode⟩ := ih hbs ha
      exact ⟨w', by simp [hw'], hdecode⟩

lemma itemsIntsIn_mem {items : List Json} (h : ItemsIntsIn p items) {w : Json} (hw : w ∈ items) :
    w.IntsIn p := by
  induction items with
  | nil => cases hw
  | cons v items ih =>
    obtain rfl | hw := List.mem_cons.1 hw
    · exact h.1
    · exact ih h.2 hw

lemma codec_list (hc : Codec p decode encode depth) :
    Codec p (Json.asList decode) (fun l => .arr (l.map encode)) (depth + 1) := by
  intro v l hv h
  cases v with
  | arr items =>
    apply printed_list
    intro a ha
    obtain ⟨w, hw, hdecode⟩ := mapM_mem h ha
    exact hc (itemsIntsIn_mem hv hw) hdecode
  | _ => cases h

lemma printed_nullable {a : Option α} (hnull : ∀ b, encode b ≠ .null)
    (h : ∀ b ∈ a, Printed p decode encode depth b) :
    Printed p (Json.asNullable decode) (Json.ofNullable encode) depth a := by
  refine ⟨asNullable_ofNullable (fun b hb => (h b hb).read) hnull, ?_, ?_⟩
  · cases a with
    | none => trivial
    | some b => exact (h b rfl).canonical
  · cases a with
    | none => rfl
    | some b => exact (h b rfl).nested

lemma codec_nullable (hc : Codec p decode encode depth) (hnull : ∀ b, encode b ≠ .null) :
    Codec p (Json.asNullable decode) (Json.ofNullable encode) depth := by
  intro v a hv h
  apply printed_nullable hnull
  intro b hb
  cases hb
  unfold Json.asNullable at h
  split at h
  · cases h
  · simp only [Option.map_eq_some_iff, Option.some.injEq, exists_eq_right] at h
    exact hc hv h

variable {fields : List (String × Json)} {name : String} {a : α}

lemma required_printed (hc : Codec p decode encode depth) (hfields : FieldsIntsIn p fields)
    (h : required fields name decode = some a) : Printed p decode encode depth a := by
  simp only [required, Option.bind_eq_some_iff] at h
  obtain ⟨v, hv, hdecode⟩ := h
  exact hc (member_intsIn hfields hv) hdecode

lemma defaulted_printed (hc : Codec p decode encode depth) (hfields : FieldsIntsIn p fields)
    {default : α} (hdefault : Printed p decode encode depth default)
    (h : defaulted fields name default decode = some a) : Printed p decode encode depth a := by
  unfold defaulted at h
  split at h
  · rename_i v hv
    exact hc (member_intsIn hfields hv) h
  · cases h
    exact hdefault

end Codecs

end DevGraph.Lib
