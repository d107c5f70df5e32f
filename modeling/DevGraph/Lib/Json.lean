import Mathlib.Data.Nat.Digits.Defs
import Mathlib.Data.List.Sort
import Mathlib.Data.String.Basic

/-!
# JSON text with integer numbers

Values, a printer with sorted keys and no blanks, and a recursive-descent reader that is given
what to do with integers and with the members of an object. Numbers with a fraction or an exponent
and lone surrogate escapes are not read.
-/

namespace DevGraph.Lib

/-- Integers up to this size are read alike everywhere. -/
def maxSafe : Nat := 9007199254740991

def maxSafeInteger : Int := maxSafe

inductive Json
  | null
  | bool (b : Bool)
  | int (n : Int)
  | str (s : String)
  | arr (items : List Json)
  | obj (fields : List (String × Json))

def hexDigit (n : Nat) : Char :=
  if n < 10 then Char.ofNat (48 + n) else Char.ofNat (87 + n)

/-- A `\u` escape of one UTF-16 code unit, in lower-case hexadecimal. -/
def unicodeEscape (n : Nat) : List Char :=
  ['\\', 'u', hexDigit (n / 4096), hexDigit (n / 256 % 16), hexDigit (n / 16 % 16),
    hexDigit (n % 16)]

/-- The letter that stands for a character after a backslash. -/
def escapeLetter (c : Char) : Option Char :=
  if c = '"' then some '"'
  else if c = '\\' then some '\\'
  else if c = '\n' then some 'n'
  else if c = '\r' then some 'r'
  else if c = '\t' then some 't'
  else if c = '\x0c' then some 'f'
  else if c = '\x08' then some 'b'
  else none

/-- One character of a string token; with `ascii`, all but printable ASCII is escaped. -/
def printChar (ascii : Bool) (c : Char) : List Char :=
  match escapeLetter c with
  | some e => ['\\', e]
  | none =>
    if c.toNat < 32 ∨ ascii ∧ 126 < c.toNat then
      if c.toNat < 65536 then unicodeEscape c.toNat
      else unicodeEscape (55296 + (c.toNat - 65536) / 1024) ++
        unicodeEscape (56320 + (c.toNat - 65536) % 1024)
    else [c]

def printChars (ascii : Bool) (s : List Char) : List Char := s.flatMap (printChar ascii)

def printString (ascii : Bool) (s : String) : List Char :=
  '"' :: (printChars ascii s.toList ++ ['"'])

def printNat (n : Nat) : List Char :=
  if n = 0 then ['0'] else (Nat.digits 10 n).reverse.map fun d => Char.ofNat (48 + d)

def printInt (n : Int) : List Char :=
  if n < 0 then '-' :: printNat n.natAbs else printNat n.natAbs

mutual
def Json.print (ascii : Bool) : Json → List Char
  | .null => ['n', 'u', 'l', 'l']
  | .bool true => ['t', 'r', 'u', 'e']
  | .bool false => ['f', 'a', 'l', 's', 'e']
  | .int n => printInt n
  | .str s => printString ascii s
  | .arr [] => ['[', ']']
  | .arr (v :: items) => '[' :: (v.print ascii ++ printItems ascii items)
  | .obj [] => ['\x7b', '\x7d']
  | .obj ((k, v) :: fields) =>
    '\x7b' :: (printString ascii k ++ ':' :: (v.print ascii ++ printFields ascii fields))
/-- The items after the first, with the closing bracket. -/
def printItems (ascii : Bool) : List Json → List Char
  | [] => [']']
  | v :: items => ',' :: (v.print ascii ++ printItems ascii items)
def printFields (ascii : Bool) : List (String × Json) → List Char
  | [] => ['\x7d']
  | (k, v) :: fields =>
    ',' :: (printString ascii k ++ ':' :: (v.print ascii ++ printFields ascii fields))
end

mutual
/-- The members of every object in the order of their keys. -/
def Json.sortKeys : Json → Json
  | .arr items => .arr (sortItems items)
  | .obj fields => .obj ((sortFields fields).insertionSort fun a b => a.1.toList ≤ b.1.toList)
  | v => v
def sortItems : List Json → List Json
  | [] => []
  | v :: items => v.sortKeys :: sortItems items
def sortFields : List (String × Json) → List (String × Json)
  | [] => []
  | (k, v) :: fields => (k, v.sortKeys) :: sortFields fields
end

def dumps (ascii : Bool) (v : Json) : String := String.ofList (v.sortKeys.print ascii)

/-- How integers and the members of an object are taken. -/
structure Dialect where
  int : Int → Bool
  pairs : List (String × Json) → Option (List (String × Json))
  pairs_distinct : ∀ fields, (fields.map Prod.fst).Nodup → pairs fields = some fields
  pairs_subset : ∀ {fields taken}, pairs fields = some taken → taken ⊆ fields

def isBlank (c : Char) : Bool := c = ' ' || c = '\t' || c = '\n' || c = '\r'

def skipBlanks : List Char → List Char
  | [] => []
  | c :: cs => if isBlank c then skipBlanks cs else c :: cs

def hexValue (c : Char) : Option Nat :=
  if 48 ≤ c.toNat ∧ c.toNat ≤ 57 then some (c.toNat - 48)
  else if 97 ≤ c.toNat ∧ c.toNat ≤ 102 then some (c.toNat - 87)
  else if 65 ≤ c.toNat ∧ c.toNat ≤ 70 then some (c.toNat - 55)
  else none

def hexValue4 (a b c d : Char) : Option Nat := do
  let a ← hexValue a
  let b ← hexValue b
  let c ← hexValue c
  let d ← hexValue d
  return a * 4096 + b * 256 + c * 16 + d

def shortEscape (c : Char) : Option Char :=
  if c = '"' then some '"'
  else if c = '\\' then some '\\'
  else if c = '/' then some '/'
  else if c = 'n' then some '\n'
  else if c = 'r' then some '\r'
  else if c = 't' then some '\t'
  else if c = 'f' then some '\x0c'
  else if c = 'b' then some '\x08'
  else none

/-- The rest of a string token after a character of it has been read. -/
def pushChar (c : Char) : Option (List Char × List Char) → Option (List Char × List Char)
  | none => none
  | some (s, rest) => some (c :: s, rest)

/-- A string token after its opening quote: its characters and what follows it. -/
def readString : List Char → Option (List Char × List Char)
  | [] => none
  | '"' :: rest => some ([], rest)
  | '\\' :: 'u' :: a :: b :: c :: d :: rest =>
    match hexValue4 a b c d with
    | none => none
    | some n =>
      if 55296 ≤ n ∧ n < 56320 then
        match rest with
        | '\\' :: 'u' :: e :: f :: g :: h :: rest =>
          match hexValue4 e f g h with
          | none => none
          | some m =>
            if 56320 ≤ m ∧ m < 57344 then
              pushChar (Char.ofNat (65536 + (n - 55296) * 1024 + (m - 56320))) (readString rest)
            else none
        | _ => none
      else if 56320 ≤ n ∧ n < 57344 then none
      else pushChar (Char.ofNat n) (readString rest)
  | '\\' :: c :: rest =>
    match shortEscape c with
    | some c => pushChar c (readString rest)
    | none => none
  | c :: rest => if c.toNat < 32 then none else pushChar c (readString rest)

def isDigit (c : Char) : Bool := decide (48 ≤ c.toNat ∧ c.toNat ≤ 57)

/-- The digits at the head of a text, read onto the number so far. -/
def readDigits (n : Nat) : List Char → Nat × List Char
  | [] => (n, [])
  | c :: cs => if isDigit c then readDigits (10 * n + (c.toNat - 48)) cs else (n, c :: cs)

/-- An unsigned integer token: `0`, or digits that do not start with `0`. -/
def readNat : List Char → Option (Nat × List Char)
  | [] => none
  | c :: cs =>
    if c = '0' then some (0, cs)
    else if isDigit c then some (readDigits (c.toNat - 48) cs)
    else none

mutual
/-- One value at the head of the text, and what follows it. -/
def readValue (d : Dialect) : Nat → List Char → Option (Json × List Char)
  | 0, _ => none
  | _ + 1, '"' :: rest =>
    match readString rest with
    | some (s, rest) => some (.str (String.ofList s), rest)
    | none => none
  | fuel + 1, '\x7b' :: rest =>
    match skipBlanks rest with
    | '\x7d' :: rest => (d.pairs []).map fun fields => (.obj fields, rest)
    | rest => do
      let (fields, rest) ← readMember d fuel rest
      let fields ← d.pairs fields
      return (.obj fields, rest)
  | fuel + 1, '[' :: rest =>
    match skipBlanks rest with
    | ']' :: rest => some (.arr [], rest)
    | rest => do
      let (v, rest) ← readValue d fuel rest
      let (items, rest) ← readItems d fuel (skipBlanks rest)
      return (.arr (v :: items), rest)
  | _ + 1, 'n' :: 'u' :: 'l' :: 'l' :: rest => some (.null, rest)
  | _ + 1, 't' :: 'r' :: 'u' :: 'e' :: rest => some (.bool true, rest)
  | _ + 1, 'f' :: 'a' :: 'l' :: 's' :: 'e' :: rest => some (.bool false, rest)
  | _ + 1, '-' :: rest =>
    match readNat rest with
    | some (n, rest) => if d.int (-n) then some (.int (-n), rest) else none
    | none => none
  | _ + 1, text =>
    match readNat text with
    | some (n, rest) => if d.int n then some (.int n, rest) else none
    | none => none
def readItems (d : Dialect) : Nat → List Char → Option (List Json × List Char)
  | _ + 1, ']' :: rest => some ([], rest)
  | fuel + 1, ',' :: rest => do
    let (v, rest) ← readValue d fuel (skipBlanks rest)
    let (items, rest) ← readItems d fuel (skipBlanks rest)
    return (v :: items, rest)
  | _, _ => none
/-- A member and all members after it, up to the closing brace. -/
def readMember (d : Dialect) : Nat → List Char → Option (List (String × Json) × List Char)
  | fuel + 1, '"' :: rest => do
    let (k, rest) ← readString rest
    match skipBlanks rest with
    | ':' :: rest => do
      let (v, rest) ← readValue d fuel (skipBlanks rest)
      let (fields, rest) ← readFields d fuel (skipBlanks rest)
      return ((String.ofList k, v) :: fields, rest)
    | _ => none
  | _, _ => none
def readFields (d : Dialect) : Nat → List Char → Option (List (String × Json) × List Char)
  | _ + 1, '\x7d' :: rest => some ([], rest)
  | fuel + 1, ',' :: rest => readMember d fuel (skipBlanks rest)
  | _, _ => none
end

/-- Reads a whole text. Every nested read consumes a character, so that the length of the
text bounds the depth of the reader. -/
def loads (d : Dialect) (text : List Char) : Option Json :=
  match readValue d (text.length + 1) (skipBlanks text) with
  | some (v, rest) => if skipBlanks rest = [] then some v else none
  | none => none

def member (fields : List (String × Json)) (key : String) : Option Json := fields.lookup key

mutual
/-- No value lies inside more than `n` containers. -/
def Json.nestedWithin : Nat → Json → Bool
  | n, .arr items => itemsNestedWithin n items
  | n, .obj fields => fieldsNestedWithin n fields
  | _, _ => true
def itemsNestedWithin : Nat → List Json → Bool
  | _, [] => true
  | 0, _ :: _ => false
  | n + 1, v :: items => v.nestedWithin n && itemsNestedWithin (n + 1) items
def fieldsNestedWithin : Nat → List (String × Json) → Bool
  | _, [] => true
  | 0, _ :: _ => false
  | n + 1, (_, v) :: fields => v.nestedWithin n && fieldsNestedWithin (n + 1) fields
end

end DevGraph.Lib
