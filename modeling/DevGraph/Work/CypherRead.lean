import Mathlib.Data.List.Basic

/-!
# The Cypher request reader

Before the recursive parser sees a request, a scan over its bytes bounds the nesting. It knows
strings and brackets and nothing else of the grammar.
-/

namespace DevGraph.Work

def invalidCypherRead : String := "invalid_cypher_read_request"

structure NestingScan where
  level : Int := 0
  quoted : Bool := false
  escaped : Bool := false
  deriving DecidableEq, Repr

def NestingScan.step (depth : Nat) (s : NestingScan) (byte : UInt8) : Except String NestingScan :=
  if s.quoted then
    if s.escaped then .ok { s with escaped := false }
    else if byte = 92 then .ok { s with escaped := true }
    else if byte = 34 then .ok { s with quoted := false }
    else .ok s
  else if byte = 34 then .ok { s with quoted := true }
  else if byte = 91 ∨ byte = 123 then
    if s.level + 1 > depth then .error invalidCypherRead else .ok { s with level := s.level + 1 }
  else if byte = 93 ∨ byte = 125 then .ok { s with level := s.level - 1 }
  else .ok s

def scanNesting (depth : Nat) (raw : List UInt8) : Except String NestingScan :=
  raw.foldlM (NestingScan.step depth) {}

end DevGraph.Work
