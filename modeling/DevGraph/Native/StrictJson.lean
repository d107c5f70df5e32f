import DevGraph.Lib.JsonText

/-!
# Strict JSON of the request protocol

`strict_json` checks the number tokens of the raw bytes before `serde_json` reads them, because
what a number becomes there depends on a feature of that crate. Its parser is a parameter, exact
for JSON texts; a map keeps its members in the order of the text.
-/

namespace DevGraph.Native
open Lib Lib.JsonText

def invalidJson : String := "invalid_json"

def tokenEnd (b : UInt8) : Bool :=
  b == 32 || b == 9 || b == 13 || b == 10 || b == 44 || b == 93 || b == 125 || b == 58

/-- A sign and digits as an `i64`. -/
def parseI64 (token : List UInt8) : Option Int :=
  if -2 ^ 63 ≤ signed token ∧ signed token < 2 ^ 63 then some (signed token) else none

def checkToken (token : List UInt8) : Except String Unit :=
  let digits := unsigned token
  if token = [45, 48] ∨ digits = [] ∨ ¬digits.all digit then .error invalidJson
  else if (parseI64 token).all (fun n => maxSafe < n.natAbs) then .error invalidJson
  else .ok ()

/-- The loop from a byte on, with the two string flags. -/
def validateFrom (quoted escaped : Bool) : List UInt8 → Except String Unit
  | [] => .ok ()
  | b :: raw =>
    if quoted then
      if escaped then validateFrom true false raw
      else if b = 92 then validateFrom true true raw
      else if b = 34 then validateFrom false false raw
      else validateFrom true false raw
    else if b = 34 then validateFrom true escaped raw
    else if b = 45 || digit b then do
      checkToken (b :: raw.takeWhile fun c => !tokenEnd c)
      validateFrom false escaped (raw.dropWhile fun c => !tokenEnd c)
    else validateFrom false escaped raw
termination_by raw => raw.length
decreasing_by
  all_goals first
    | exact Nat.lt_succ_self _
    | exact Nat.lt_succ_of_le (List.dropWhile_sublist _).length_le

def validateIntegerTokens (raw : List UInt8) : Except String Unit := validateFrom false false raw

/-- Every string of a tree has the property. -/
def Strings (P : Quoted → Prop) {p : Part} : Tree p → Prop
  | .str s => P s
  | .node _ body => Strings P body
  | .cons _ (.key _ name _) _ v body => P name ∧ Strings P v ∧ Strings P body
  | .cons _ .item _ v body => Strings P v ∧ Strings P body
  | _ => True

/-- The parser of `serde_json`: it takes the texts whose strings are UTF-8 without lone surrogate
escapes. -/
structure Serde where
  read : List UInt8 → Option Text
  exact : ∀ raw t, read raw = some t ↔ t.bytes = raw ∧ Strings (fun s => (decode s).isSome) t.tree

/-- What the visitor makes of a number. Beyond the machine integers, and for `-0` without
`arbitrary_precision`, it is offered a float, which it does not take; with the feature other
numbers come as a map with a private key. -/
def visitNumber (arbitraryPrecision : Bool) (w : List UInt8) : Option Json :=
  if (unsigned w).all digit ∧ -2 ^ 63 ≤ signed w ∧ signed w < 2 ^ 64 ∧
      (arbitraryPrecision ∨ w ≠ [45, 48]) then
    if maxSafe < (signed w).natAbs then none else some (.int (signed w))
  else if arbitraryPrecision then
    some (.obj [("$serde_json::private::Number",
      .str (String.ofList (w.map fun c => Char.ofNat c.toNat)))])
  else none

/-- The decoded name of an element. -/
def names {k : Kind} : Label k → List String
  | .item => []
  | .key _ name _ => (decode name).toList

/-- The visitor, with the keys of the map it is filling. -/
def visit (arbitraryPrecision : Bool) {p : Part} : Tree p → List String → Option (Out p)
  | .atom (.number w _), _ => visitNumber arbitraryPrecision w
  | .atom a, _ => a.value?
  | .str s, _ => (decode s).map Json.str
  | .node k body, _ => (visit arbitraryPrecision body []).map (container k)
  | .close _, _ => some []
  | .cons _ label _ v body, keys => do
    let v ← visit arbitraryPrecision v []
    let e ← label.elem v
    if ∃ name ∈ names label, name ∈ keys then none
    else (visit arbitraryPrecision body (names label ++ keys)).map (e :: ·)

mutual
def depth (n : Nat) : Json → Bool
  | .arr items => n ≤ 16 && depthItems (n + 1) items
  | .obj fields => n ≤ 16 && depthFields (n + 1) fields
  | _ => n ≤ 16
def depthItems (n : Nat) : List Json → Bool
  | [] => true
  | v :: items => depth n v && depthItems n items
def depthFields (n : Nat) : List (String × Json) → Bool
  | [] => true
  | (_, v) :: fields => depth n v && depthFields n fields
end

def strictJson (serde : Serde) (arbitraryPrecision : Bool) (raw : List UInt8) (maximum : Nat) :
    Except String Json :=
  if raw.length > maximum then .error "json_too_large"
  else do
    validateIntegerTokens raw
    match (serde.read raw).bind fun t => visit arbitraryPrecision t.tree [] with
    | none => .error invalidJson
    | some value => if depth 0 value then .ok value else .error invalidJson

end DevGraph.Native
