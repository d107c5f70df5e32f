import Mathlib.Data.List.Basic
import Mathlib.Tactic.Common

/-!
# The native transport's response stream

A response body arrives in pieces the transport chooses and leaves in chunks of one size. What the
deadline and the cancellation token say on each round of the loop is given with the call.
-/

namespace DevGraph.Native

def chunkBytes : Nat := 49152

structure NativeError where
  code : String
  dispatched : Bool
  deriving DecidableEq, Repr

inductive Signal where
  | quiet
  | late
  | cancelled
  deriving DecidableEq, Repr

structure NativeResponse where
  limit : UInt64
  dispatched : Bool
  /-- The pieces still to come; `none` is a failure of the transport, the end is the body's end. -/
  response : List (Option (List UInt8))
  pending : List UInt8 := []
  received : Nat := 0
  emitted : Nat := 0
  finished : Bool := false

/-- The bytes of a call, the total so far and the mark of the last chunk. -/
abbrev Chunk := List UInt8 × Nat × Bool

abbrev Reply := Except NativeError Chunk

/-- What is found before the draining and while waiting for a piece, round by round. -/
abbrev Signals := Nat → Signal × Signal

def transportError (dispatched : Bool) : NativeError :=
  ⟨if dispatched then "outcome_unknown" else "transport_error", dispatched⟩

namespace NativeResponse

def stopped (r : NativeResponse) : Signal → Option NativeError
  | .quiet => none
  | .late => some (transportError r.dispatched)
  | .cancelled => some ⟨if r.dispatched then "outcome_unknown" else "cancelled", r.dispatched⟩

def drain (r : NativeResponse) (output : List UInt8) : NativeResponse :=
  let take := min (chunkBytes - output.length) r.pending.length
  { r with pending := r.pending.drop take, emitted := r.emitted + take }

def drained (r : NativeResponse) (output : List UInt8) : List UInt8 :=
  output ++ r.pending.take (min (chunkBytes - output.length) r.pending.length)

/-- The loop of `next_chunk`, over the pieces it may still read. -/
def rounds (signals : Signals) :
    List (Option (List UInt8)) → Nat → List UInt8 → NativeResponse → Reply × NativeResponse
  | pieces, round, output, r =>
    match r.stopped (signals round).1 with
    | some error => (.error error, { r with response := pieces })
    | none =>
      if r.pending ≠ [] ∧ (r.drained output).length = chunkBytes then
        (.ok (r.drained output, (r.drain output).emitted, false),
          { r.drain output with response := pieces })
      else
        match r.stopped (signals round).2 with
        | some error => (.error error, { r.drain output with response := pieces })
        | none =>
          match pieces with
          | [] =>
            (.ok (r.drained output, (r.drain output).emitted, true),
              { r.drain output with response := [], finished := true })
          | none :: pieces =>
            (.error (transportError r.dispatched), { r.drain output with response := pieces })
          | some chunk :: pieces =>
            -- `checked_add` on a 64-bit `usize`.
            if UInt64.size ≤ r.received + chunk.length then
              (.error (transportError r.dispatched), { r.drain output with response := pieces })
            else if r.limit.toNat < r.received + chunk.length then
              (.error ⟨if r.dispatched then "outcome_unknown" else "response_too_large",
                r.dispatched⟩,
                { r.drain output with response := pieces, received := r.received + chunk.length })
            else
              rounds signals pieces (round + 1) (r.drained output)
                { r.drain output with received := r.received + chunk.length, pending := chunk }

def nextChunk (r : NativeResponse) (signals : Signals) : Reply × NativeResponse :=
  if r.finished then (.error ⟨"stream_closed", r.dispatched⟩, r)
  else rounds signals r.response 0 [] r

def calls : List Signals → NativeResponse → List Reply × NativeResponse
  | [], r => ([], r)
  | signals :: script, r =>
    let (reply, r) := r.nextChunk signals
    let (replies, r) := calls script r
    (reply :: replies, r)

end NativeResponse

end DevGraph.Native
