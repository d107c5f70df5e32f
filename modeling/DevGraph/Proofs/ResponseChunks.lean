import DevGraph.Native.Http
import Mathlib.Data.List.ReduceOption
import Mathlib.Order.MinMax

/-!
# Response chunking

What the stream still holds is its pending bytes and the pieces to come. A call that succeeds moves
a full chunk out of it, or all that is left; no call takes more out than the limit admits.
-/

namespace DevGraph.Proofs

open Native NativeResponse

def bodyOf (pieces : List (Option (List UInt8))) : List UInt8 := pieces.reduceOption.flatten

def undelivered (r : NativeResponse) : List UInt8 := r.pending ++ bodyOf r.response

/-- The bytes taken out and the pending ones were received within the limit. -/
def Held (r : NativeResponse) : Prop :=
  r.emitted + r.pending.length ≤ min r.limit.toNat r.received

/-- Running totals, full chunks up to the one marked done, and nothing after it. -/
def Reports : Nat → List Chunk → Prop
  | _, [] => True
  | sent, (output, total, done) :: later =>
    total = sent + output.length ∧
      if done then later = [] else output.length = chunkBytes ∧ Reports total later

def bytesOf (outs : List Chunk) : List UInt8 := (outs.map Prod.fst).flatten

def handedOut : Reply → List UInt8
  | .ok (output, _) => output
  | .error _ => []

def Ended (outs : List Chunk) : Prop := ∃ out ∈ outs, out.2.2 = true

variable {r r' : NativeResponse} {signals : Signals} {script : List Signals} {round : Nat}
  {pieces : List (Option (List UInt8))} {output : List UInt8} {outs : List Chunk}

lemma drained_append (r : NativeResponse) (output : List UInt8) :
    r.drained output ++ (r.drain output).pending = output ++ r.pending := by
  simp only [drained, drain, List.append_assoc, List.take_append_drop]

lemma emitted_drain (r : NativeResponse) (output : List UInt8) :
    (r.drain output).emitted + output.length = r.emitted + (r.drained output).length := by
  simp only [drained, drain, List.length_append, List.length_take]
  omega

lemma Held.drain (h : Held r) (output : List UInt8) : Held (r.drain output) := by
  simp only [Held, NativeResponse.drain, List.length_drop] at h ⊢
  omega

lemma drain_unfilled (hlen : output.length < chunkBytes)
    (hfull : ¬ (r.pending ≠ [] ∧ (r.drained output).length = chunkBytes)) :
    (r.drained output).length < chunkBytes ∧ (r.drain output).pending = [] := by
  by_cases hp : r.pending = []
  · simpa [drained, NativeResponse.drain, hp] using hlen
  · have hne : (r.drained output).length ≠ chunkBytes := fun h => hfull ⟨hp, h⟩
    simp only [drained, List.length_append, List.length_take] at hne
    simp only [drained, NativeResponse.drain, List.length_append, List.length_take,
      List.drop_eq_nil_iff]
    omega

/-- What a loop has done when it returns. -/
structure Looped (output : List UInt8) (r : NativeResponse)
    (pieces : List (Option (List UInt8))) (reply : Reply) (r' : NativeResponse) : Prop where
  limit : r'.limit = r.limit
  held : Held r'
  emitted : r.emitted ≤ r'.emitted
  chunk : ∀ out total done, reply = .ok (out, total, done) →
    total = r'.emitted ∧ r'.emitted + output.length = r.emitted + out.length ∧
    out ++ undelivered r' = output ++ (r.pending ++ bodyOf pieces) ∧
    r'.finished = (r.finished || done) ∧
    if done then undelivered r' = [] else out.length = chunkBytes

lemma rounds_spec (hlen : output.length < chunkBytes) (hr : Held r) :
    Looped output r pieces (rounds signals pieces round output r).1
      (rounds signals pieces round output r).2 := by
  fun_induction rounds signals pieces round output r with
  | case1 => exact ⟨rfl, hr, le_rfl, by rintro _ _ _ ⟨⟩⟩
  | case2 pieces round output r hsignal hfull =>
    refine ⟨rfl, hr.drain output, Nat.le_add_right _ _, ?_⟩
    rintro _ _ _ ⟨⟩
    refine ⟨rfl, emitted_drain r output, ?_, (Bool.or_false _).symm, hfull.2⟩
    rw [undelivered, ← List.append_assoc, drained_append, List.append_assoc]
  | case3 => exact ⟨rfl, hr.drain _, Nat.le_add_right _ _, by rintro _ _ _ ⟨⟩⟩
  | case4 round output r hsignal hfull =>
    refine ⟨rfl, hr.drain output, Nat.le_add_right _ _, ?_⟩
    rintro _ _ _ ⟨⟩
    refine ⟨rfl, emitted_drain r output, ?_, (Bool.or_true _).symm, ?_⟩
    · rw [undelivered, ← List.append_assoc, drained_append, List.append_assoc]
    · exact (List.append_nil _).trans (drain_unfilled hlen hfull).2
  | case5 => exact ⟨rfl, hr.drain _, Nat.le_add_right _ _, by rintro _ _ _ ⟨⟩⟩
  | case6 => exact ⟨rfl, hr.drain _, Nat.le_add_right _ _, by rintro _ _ _ ⟨⟩⟩
  | case7 round output r =>
    refine ⟨rfl, (hr.drain output).trans ?_, Nat.le_add_right _ _, by rintro _ _ _ ⟨⟩⟩
    exact min_le_min_left _ (Nat.le_add_right _ _)
  | case8 round output r hsignal hfull hwaiting chunk pieces husize hlimit ih =>
    obtain ⟨hunfilled, hempty⟩ := drain_unfilled hlen hfull
    have hemitted := emitted_drain r output
    -- The drained bytes had been received before the piece that replaces them.
    have hdrained : (r.drain output).emitted + (r.drain output).pending.length ≤ r.received :=
      (hr.drain output).trans (min_le_right _ _)
    rw [hempty, List.length_nil, Nat.add_zero] at hdrained
    have hreceived := Nat.add_le_add_right hdrained chunk.length
    have hloop := ih hunfilled (le_min (hreceived.trans (Nat.le_of_not_lt hlimit)) hreceived)
    refine ⟨hloop.limit, hloop.held, (Nat.le_add_right _ _).trans hloop.emitted,
      fun out total done hreply => ?_⟩
    obtain ⟨htotal, hsent, hrest, hdone⟩ := hloop.chunk out total done hreply
    refine ⟨htotal, ?_, ?_, hdone⟩
    · change _ = (r.drain output).emitted + out.length at hsent
      omega
    · have hbytes := drained_append r output
      rw [hempty, List.append_nil] at hbytes
      rw [hrest, hbytes, List.append_assoc]
      rfl

lemma nextChunk_finished (h : r.finished = true) (signals : Signals) :
    r.nextChunk signals = (.error ⟨"stream_closed", r.dispatched⟩, r) := by
  rw [nextChunk, if_pos h]

lemma nextChunk_open (h : r.finished = false) (signals : Signals) :
    r.nextChunk signals = rounds signals r.response 0 [] r := by
  rw [nextChunk, h]
  rfl

lemma nextChunk_spec (hr : Held r) (hopen : r.finished = false) (signals : Signals) :
    Looped [] r r.response (r.nextChunk signals).1 (r.nextChunk signals).2 := by
  rw [nextChunk_open hopen]
  exact rounds_spec (by decide) hr

lemma Held.nextChunk (hr : Held r) (signals : Signals) :
    Held (r.nextChunk signals).2 ∧ (r.nextChunk signals).2.limit = r.limit ∧
      r.emitted + (handedOut (r.nextChunk signals).1).length ≤ (r.nextChunk signals).2.emitted := by
  cases hfinished : r.finished with
  | true =>
    rw [nextChunk_finished hfinished]
    exact ⟨hr, rfl, le_rfl⟩
  | false =>
    have hloop := nextChunk_spec hr hfinished signals
    refine ⟨hloop.held, hloop.limit, ?_⟩
    cases hreply : (r.nextChunk signals).1 with
    | error error => exact hloop.emitted
    | ok out => exact (hloop.chunk _ _ _ hreply).2.1.ge

lemma Held.calls (hr : Held r) (script : List Signals) :
    Held (calls script r).2 ∧ (calls script r).2.limit = r.limit ∧
      r.emitted + ((calls script r).1.flatMap handedOut).length ≤ (calls script r).2.emitted := by
  induction script generalizing r with
  | nil => exact ⟨hr, rfl, le_rfl⟩
  | cons signals script ih =>
    obtain ⟨hnext, hlimit, hfirst⟩ := hr.nextChunk signals
    obtain ⟨hafter, hsame, hrest⟩ := ih hnext
    refine ⟨hafter, hsame.trans hlimit, ?_⟩
    rw [NativeResponse.calls, List.flatMap_cons, List.length_append, ← Nat.add_assoc]
    exact (Nat.add_le_add_right hfirst _).trans hrest

lemma calls_finished (h : r.finished = true) (script : List Signals) :
    (calls script r).1 = script.map fun _ => .error ⟨"stream_closed", r.dispatched⟩ := by
  induction script with
  | nil => rfl
  | cons signals script ih =>
    rw [NativeResponse.calls, nextChunk_finished h]
    exact congrArg _ ih

/-- Calls that all succeed report chunk after chunk of what the stream held. -/
lemma calls_ok (hr : Held r) (hopen : r.finished = false)
    (h : calls script r = (outs.map .ok, r')) :
    Reports r.emitted outs ∧ bytesOf outs ++ undelivered r' = undelivered r ∧
    r.emitted + (bytesOf outs).length = r'.emitted ∧
    (Ended outs → r'.finished = true ∧ undelivered r' = []) := by
  induction script generalizing r outs with
  | nil =>
    obtain ⟨houts, rfl⟩ := Prod.mk.inj h
    obtain rfl := List.map_eq_nil_iff.1 houts.symm
    exact ⟨trivial, rfl, rfl, fun ⟨_, hout, _⟩ => absurd hout List.not_mem_nil⟩
  | cons signals script ih =>
    obtain ⟨houts, hafter⟩ := Prod.mk.inj h
    obtain ⟨⟨output, total, done⟩, outs, rfl, hfirst, hrest⟩ := List.map_eq_cons_iff.1 houts.symm
    obtain ⟨htotal, hsent, hbytes, hfinished, hdone⟩ :=
      (nextChunk_spec hr hopen signals).chunk _ _ _ hfirst.symm
    have hnext := (hr.nextChunk signals).1
    rw [hopen, Bool.false_or] at hfinished
    cases done with
    | true =>
      -- Nothing succeeds after the last chunk.
      obtain ⟨rfl, rfl⟩ : outs = [] ∧ script = [] := by
        cases script with
        | nil => exact ⟨List.map_eq_nil_iff.1 hrest, rfl⟩
        | cons =>
          have hclosed := hrest.trans (calls_finished hfinished _)
          cases outs <;> cases hclosed
      obtain rfl : (r.nextChunk signals).2 = r' := hafter
      refine ⟨⟨htotal.trans hsent, rfl⟩, ?_, ?_, fun _ => ⟨hfinished, hdone⟩⟩
      · rw [bytesOf, List.map_singleton, List.flatten_singleton]
        exact hbytes
      · rw [bytesOf, List.map_singleton, List.flatten_singleton]
        exact hsent.symm
    | false =>
      obtain ⟨hreports, hsplit, hcount, hend⟩ := ih hnext hfinished (Prod.ext hrest.symm hafter)
      refine ⟨⟨htotal.trans hsent, hdone, htotal ▸ hreports⟩, ?_, ?_, ?_⟩
      · rw [bytesOf, List.map_cons, List.flatten_cons, List.append_assoc]
        exact (congrArg _ hsplit).trans hbytes
      · rw [bytesOf, List.map_cons, List.flatten_cons, List.length_append, ← Nat.add_assoc,
          ← hcount]
        exact congrArg (· + _) hsent.symm
      · rintro ⟨out, hout, hlast⟩
        obtain rfl | hout := List.mem_cons.1 hout
        · cases hlast
        · exact hend ⟨out, hout, hlast⟩

/-- Pieces that all arrive and stay within the limit. -/
structure Smooth (limit received : Nat) (pieces : List (Option (List UInt8))) : Prop where
  data : ∀ piece ∈ pieces, piece ≠ none
  fits : received + (bodyOf pieces).length ≤ limit

def quietly : Signals := fun _ => (.quiet, .quiet)

lemma rounds_quietly (h : Smooth r.limit.toNat r.received pieces) :
    (∃ out, (rounds quietly pieces round output r).1 = .ok out) ∧
    Smooth r.limit.toNat (rounds quietly pieces round output r).2.received
      (rounds quietly pieces round output r).2.response := by
  have hlimit := r.limit.toNat_lt
  have hfits := h.fits
  fun_induction rounds quietly pieces round output r with
  | case1 _ _ _ _ _ hstop => cases hstop
  | case2 => exact ⟨⟨_, rfl⟩, h⟩
  | case3 _ _ _ _ _ _ _ hstop => cases hstop
  | case4 => exact ⟨⟨_, rfl⟩, h⟩
  | case5 => exact absurd rfl (h.data none List.mem_cons_self)
  | case6 _ _ _ _ _ _ _ _ husize =>
    simp only [bodyOf, List.reduceOption_cons_of_some, List.flatten_cons, List.length_append,
      UInt64.size] at hfits husize
    omega
  | case7 =>
    simp only [bodyOf, List.reduceOption_cons_of_some, List.flatten_cons, List.length_append]
      at hfits
    omega
  | case8 _ _ _ _ _ _ _ pieces _ _ ih =>
    simp only [bodyOf, List.reduceOption_cons_of_some, List.flatten_cons, List.length_append,
      ← Nat.add_assoc] at hfits
    exact ih ⟨fun piece hpiece => h.data piece (List.mem_cons_of_mem _ hpiece), hfits⟩ hlimit hfits

/-- A stream left alone is read to its end. -/
lemma calls_quietly (hr : Held r) (hopen : r.finished = false)
    (h : Smooth r.limit.toNat r.received r.response) :
    ∃ n outs, (calls (List.replicate n quietly) r).1 = outs.map .ok ∧ Ended outs := by
  induction hsize : (undelivered r).length using Nat.strong_induction_on generalizing r with
  | _ size ih =>
    obtain ⟨hnext, hlimit, -⟩ := hr.nextChunk quietly
    obtain ⟨⟨⟨out, total, done⟩, hreply⟩, hsmooth⟩ :
        (∃ out, (r.nextChunk quietly).1 = .ok out) ∧ Smooth r.limit.toNat
          (r.nextChunk quietly).2.received (r.nextChunk quietly).2.response := by
      rw [nextChunk_open hopen]
      exact rounds_quietly h
    obtain ⟨-, -, hbytes, hfinished, hdone⟩ :=
      (nextChunk_spec hr hopen quietly).chunk _ _ _ hreply
    rw [hopen, Bool.false_or] at hfinished
    cases done with
    | true => exact ⟨1, [(out, total, true)], congrArg (fun x => [x]) hreply, _, .head _, rfl⟩
    | false =>
      have hless : (undelivered (r.nextChunk quietly).2).length < size := by
        have hlength := congrArg List.length hbytes
        have hchunk : out.length = 49152 := hdone
        rw [List.nil_append, ← undelivered, hsize, List.length_append] at hlength
        omega
      obtain ⟨n, outs, hcalls, last, hlast, hmark⟩ :=
        ih _ hless hnext hfinished (hlimit.symm ▸ hsmooth) rfl
      exact ⟨n + 1, (out, total, false) :: outs, congrArg₂ List.cons hreply hcalls,
        last, .tail _ hlast, hmark⟩

lemma replies_ok {replies : List Reply} (h : ¬ ∃ error, .error error ∈ replies) :
    ∃ outs : List Chunk, replies = outs.map .ok := by
  induction replies with
  | nil => exact ⟨[], rfl⟩
  | cons reply replies ih =>
    obtain ⟨outs, rfl⟩ := ih fun ⟨error, herror⟩ => h ⟨error, .tail _ herror⟩
    cases reply with
    | error error => exact absurd ⟨error, .head _⟩ h
    | ok out => exact ⟨out :: outs, rfl⟩

lemma calls_length (script : List Signals) (r : NativeResponse) :
    (calls script r).1.length = script.length := by
  induction script generalizing r with
  | nil => rfl
  | cons signals script ih => exact congrArg (· + 1) (ih _)

lemma reports_full {sent : Nat} (h : Reports sent outs) (hopen : ¬ Ended outs) :
    (bytesOf outs).length = outs.length * chunkBytes := by
  induction outs generalizing sent with
  | nil => rfl
  | cons out outs ih =>
    obtain ⟨output, total, done⟩ := out
    cases done with
    | true => exact absurd ⟨_, .head _, rfl⟩ hopen
    | false =>
      have hfull : output.length = chunkBytes := h.2.1
      have hrest := ih h.2.2 fun ⟨out, hout, hdone⟩ => hopen ⟨out, .tail _ hout, hdone⟩
      rw [bytesOf, List.map_cons, List.flatten_cons, List.length_append, ← bytesOf, hrest, hfull,
        List.length_cons, Nat.add_mul, Nat.one_mul, Nat.add_comm]

/-- Chunking is faithful to the body, whatever pieces it arrives in and whatever the deadline and
the cancellation token do on each round. -/
theorem nextChunk_faithful (limit : UInt64) (dispatched : Bool)
    (pieces : List (Option (List UInt8))) (script : List Signals) :
    let stream : NativeResponse := { limit, dispatched, response := pieces }
    let after := (calls script stream).2
    -- Calls that all succeed, up to the last chunk or only part of the way.
    (∀ outs, (calls script stream).1 = outs.map .ok →
      Reports 0 outs ∧ bytesOf outs <+: bodyOf pieces ∧
      (Ended outs → bytesOf outs = bodyOf pieces ∧ ∀ later,
        (calls later after).1 = later.map fun _ => .error ⟨"stream_closed", after.dispatched⟩)) ∧
    -- A body within the limit is delivered when nothing goes wrong.
    ((∀ piece ∈ pieces, piece ≠ none) → (bodyOf pieces).length ≤ limit.toNat →
      ∃ n outs, (calls (List.replicate n quietly) stream).1 = outs.map .ok ∧ Ended outs) ∧
    -- A longer one is not, and the limit holds at any time, whichever calls failed.
    (limit.toNat < (bodyOf pieces).length → limit.toNat < script.length * chunkBytes →
      ∃ error, .error error ∈ (calls script stream).1) ∧
    ((calls script stream).1.flatMap handedOut).length ≤ after.emitted ∧
    after.emitted ≤ limit.toNat := by
  intro stream after
  have hheld : Held stream := Nat.zero_le _
  obtain ⟨hafter, hlimit, hhanded⟩ := hheld.calls script
  have hemitted : after.emitted ≤ limit.toNat := by
    rw [← show after.limit = limit from hlimit]
    exact (Nat.le_add_right _ _).trans (hafter.trans (min_le_left _ _))
  refine ⟨fun outs houts => ?_, fun hdata hfits => ?_, fun hlong hcalls => ?_,
    (Nat.zero_add _).ge.trans hhanded, hemitted⟩
  · obtain ⟨hreports, hsplit, -, hend⟩ := calls_ok hheld rfl (Prod.ext houts rfl)
    refine ⟨hreports, ⟨_, hsplit⟩, fun hlast => ⟨?_, calls_finished (hend hlast).1⟩⟩
    rw [(hend hlast).2, List.append_nil] at hsplit
    exact hsplit
  · exact calls_quietly hheld rfl ⟨hdata, (Nat.zero_add _).trans_le hfits⟩
  · by_contra hnone
    obtain ⟨outs, houts⟩ := replies_ok hnone
    obtain ⟨hreports, hsplit, hcount, hend⟩ := calls_ok hheld rfl (Prod.ext houts rfl)
    have hcount : (bytesOf outs).length = after.emitted := (Nat.zero_add _).symm.trans hcount
    by_cases hlast : Ended outs
    · rw [(hend hlast).2, List.append_nil] at hsplit
      have hbody : (bytesOf outs).length = (bodyOf pieces).length := congrArg _ hsplit
      omega
    · have hlength : outs.length = script.length := by
        rw [← calls_length script stream, houts, List.length_map]
      rw [reports_full hreports hlast, hlength] at hcount
      omega

end DevGraph.Proofs
