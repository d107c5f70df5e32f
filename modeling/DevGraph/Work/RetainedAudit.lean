import Mathlib.Data.List.Basic
import Mathlib.Logic.Function.Basic

/-!
# The retained audit log

Callers queue their entries and wait; one writer thread writes batches of them in transactions and
reports the outcome to every participant. Each event is one section under the admission lock, one
wait that ended, or one transaction. `finished`, `admitted` and `transactions` only record.
-/

namespace DevGraph.Work

def retentionSeconds : Int := 30 * 86400

def maxEvents : Nat := 100000

def maxPendingSubmissions : Nat := 16

def maxPendingEvents : Nat := 1024

def maxBatchSubmissions : Nat := 32

def maxBatchEvents : Nat := 256

/-- When an event occurred, and its serialized text. -/
abbrev AuditEntry := Int × String

structure AuditRow where
  seq : Nat
  entry : AuditEntry

/-- The rows in the order of their numbers, the last number that was given out, and the time of
the last check. -/
structure AuditTable where
  rows : List AuditRow
  lastSeq : Nat
  health : Option Int
  ordered : rows.Pairwise fun row next => row.seq < next.seq
  assigned : ∀ row ∈ rows, row.seq ≤ lastSeq

namespace AuditTable

def empty : AuditTable := ⟨[], 0, none, .nil, nofun⟩

def maxSeq (t : AuditTable) : Nat := (t.rows.map AuditRow.seq).foldr max 0

def retain (keep : AuditRow → Bool) (t : AuditTable) : AuditTable :=
  { t with
    rows := t.rows.filter keep
    ordered := t.ordered.filter keep
    assigned := fun row hrow => t.assigned row (List.mem_of_mem_filter hrow) }

def pruneAge (now : Int) (t : AuditTable) : AuditTable :=
  t.retain fun row => now - retentionSeconds ≤ row.entry.1

def pruneCount (t : AuditTable) : AuditTable :=
  t.retain fun row => t.maxSeq < row.seq + maxEvents

def prune (now : Int) (t : AuditTable) : AuditTable := (t.pruneAge now).pruneCount

def insert (t : AuditTable) (entry : AuditEntry) : AuditTable where
  rows := t.rows ++ [⟨t.lastSeq + 1, entry⟩]
  lastSeq := t.lastSeq + 1
  health := t.health
  ordered := List.pairwise_append.2 ⟨t.ordered, List.pairwise_singleton _ _, by
    intro row hrow last hlast
    rw [List.mem_singleton.1 hlast]
    exact Nat.lt_succ_of_le (t.assigned row hrow)⟩
  assigned := by
    intro row hrow
    obtain hold | hlast := List.mem_append.1 hrow
    · exact Nat.le_succ_of_le (t.assigned row hold)
    · exact List.mem_singleton.1 hlast ▸ Nat.le_refl _

/-- What one submission writes. -/
def write (t : AuditTable) (entries : List AuditEntry) (checked : Option Int) : AuditTable :=
  let t := entries.foldl insert t
  match checked with
  | none => t
  | some time => { t with health := some time }

end AuditTable

inductive AuditCall
  | append (entries : List AuditEntry)
  | check (now : Int)

def AuditCall.entries : AuditCall → List AuditEntry
  | append entries => entries
  | check _ => []

def AuditCall.checked : AuditCall → Option Int
  | append _ => none
  | check now => some now

/-- What an append checks before it is queued. -/
def AuditCall.accepted (call : AuditCall) : Bool :=
  call.entries.length ≤ maxBatchEvents && call.entries.all fun entry => entry.2.length ≤ 2048

inductive CallPhase
  | ready
  | waiting
  | timedOut
  | returned
  | raised
  deriving DecidableEq

structure Submission where
  done : Bool
  successful : Bool
  cancelled : Bool
  deriving DecidableEq

/-- Where the writer thread is, if there is one. -/
inductive WriterPhase (ι : Type)
  | absent
  | starting
  | idle
  | window
  | writing (batch : List ι)
  | settling (batch : List ι) (successful : Bool)

structure AuditState (ι : Type) where
  phase : ι → CallPhase
  submission : ι → Submission
  pending : List ι
  pendingCount : Int
  pendingEvents : Int
  writerRunning : Bool
  admissionBlocked : Bool
  writer : WriterPhase ι
  table : AuditTable
  finished : ι → Nat
  admitted : List ι
  transactions : List (List AuditEntry)

/-- How a transaction may end; an exception after the commit is still a failure. -/
inductive StoreOutcome
  | committed
  | rolledBack
  | committedThenRaised
  deriving DecidableEq

inductive AuditEvent (ι : Type)
  | submit (i : ι) (threadStarts : Bool)
  | timeOut (i : ι)
  | giveUp (i : ι)
  | wake (i : ι)
  | look
  | idleTimeout
  | collect
  | store (outcome : StoreOutcome) (before after : Int)
  | settle

namespace AuditState

variable {ι : Type} [DecidableEq ι] (calls : ι → AuditCall)

def initial (table : AuditTable) : AuditState ι where
  phase := fun _ => .ready
  submission := fun _ => ⟨false, false, false⟩
  pending := []
  pendingCount := 0
  pendingEvents := 0
  writerRunning := false
  admissionBlocked := false
  writer := .absent
  table := table
  finished := fun _ => 0
  admitted := []
  transactions := []

def setPhase (i : ι) (phase : CallPhase) (s : AuditState ι) : AuditState ι :=
  { s with phase := Function.update s.phase i phase }

/-- The section that queues a submission, and starts a writer if there is none. -/
def submit (i : ι) (threadStarts : Bool) (s : AuditState ι) : AuditState ι :=
  let size := (calls i).entries.length
  if !(calls i).accepted || s.admissionBlocked || maxPendingSubmissions ≤ s.pendingCount ||
      maxPendingEvents < s.pendingEvents + size then
    s.setPhase i .raised
  else if s.writerRunning || threadStarts then
    { s.setPhase i .waiting with
      pending := s.pending ++ [i]
      pendingCount := s.pendingCount + 1
      pendingEvents := s.pendingEvents + size
      writerRunning := true
      writer := if s.writerRunning then s.writer else .starting
      admitted := s.admitted ++ [i] }
  -- The thread did not start: the submission is taken back.
  else s.setPhase i .raised

/-- The result of a call whose submission is done. -/
def conclude (i : ι) (s : AuditState ι) : AuditState ι :=
  s.setPhase i
    (if (s.submission i).successful && !(s.submission i).cancelled then .returned else .raised)

/-- The section after a wait that timed out. -/
def giveUp (i : ι) (s : AuditState ι) : AuditState ι :=
  if (s.submission i).done then s.conclude i
  else { s.setPhase i .raised with
    submission := Function.update s.submission i { s.submission i with cancelled := true }
    admissionBlocked := true }

def finish (successful : Bool) (s : AuditState ι) (i : ι) : AuditState ι :=
  { s with
    submission := Function.update s.submission i { s.submission i with
      done := true
      successful := successful && !(s.submission i).cancelled }
    pendingCount := s.pendingCount - 1
    pendingEvents := s.pendingEvents - (calls i).entries.length
    finished := Function.update s.finished i (s.finished i + 1) }

/-- What is taken off the queue: cancelled submissions are finished, the others make up the
batch as long as they fit. -/
def collectLoop : List ι → List ι → Nat → AuditState ι → List ι × AuditState ι
  | [], batch, _, s => (batch, { s with pending := [] })
  | i :: rest, batch, count, s =>
    if maxBatchSubmissions ≤ batch.length then (batch, { s with pending := i :: rest })
    else if (s.submission i).cancelled then collectLoop rest batch count (s.finish calls false i)
    else if maxBatchEvents < count + (calls i).entries.length then
      (batch, { s with pending := i :: rest })
    else collectLoop rest (batch ++ [i]) (count + (calls i).entries.length) s

def collect (s : AuditState ι) : AuditState ι :=
  let (batch, s) := s.collectLoop calls s.pending [] 0
  { s with writer := .writing batch }

/-- The table with the rows of a batch, before it is pruned once more. -/
def inserted (batch : List ι) (before : Int) (table : AuditTable) : AuditTable :=
  batch.foldl (fun t i => t.write (calls i).entries (calls i).checked) (table.prune before)

def transaction (batch : List ι) (before after : Int) (table : AuditTable) : AuditTable :=
  (inserted calls batch before table).prune after

def store (batch : List ι) (outcome : StoreOutcome) (before after : Int) (s : AuditState ι) :
    AuditState ι :=
  if batch = [] then { s with writer := .settling batch false }
  else
    let committed := { s with
      writer := .settling batch (outcome = .committed)
      table := transaction calls batch before after s.table
      transactions := s.transactions ++ [batch.flatMap fun i => (calls i).entries] }
    match outcome with
    | .committed => committed
    | .committedThenRaised => committed
    | .rolledBack => { s with writer := .settling batch false }

/-- The section that reports the outcome of a batch. -/
def settle (batch : List ι) (successful : Bool) (s : AuditState ι) : AuditState ι :=
  { batch.foldl (finish calls successful) s with admissionBlocked := false, writer := .starting }

def step : AuditEvent ι → AuditState ι → Option (AuditState ι)
  | .submit i threadStarts, s =>
    if s.phase i = .ready then some (s.submit calls i threadStarts) else none
  | .timeOut i, s =>
    if s.phase i = .waiting ∧ (s.submission i).done = false then some (s.setPhase i .timedOut)
    else none
  | .giveUp i, s => if s.phase i = .timedOut then some (s.giveUp i) else none
  | .wake i, s =>
    if s.phase i = .waiting ∧ (s.submission i).done = true then some (s.conclude i) else none
  | .look, s =>
    match s.writer with
    | .starting | .idle => some { s with writer := if s.pending = [] then .idle else .window }
    | _ => none
  | .idleTimeout, s =>
    match s.writer with
    | .idle =>
      if s.pending = [] then some { s with writerRunning := false, writer := .absent }
      else some { s with writer := .window }
    | _ => none
  | .collect, s =>
    match s.writer with
    | .window => some (s.collect calls)
    | _ => none
  | .store outcome before after, s =>
    match s.writer with
    | .writing batch => some (s.store calls batch outcome before after)
    | _ => none
  | .settle, s =>
    match s.writer with
    | .settling batch successful => some (s.settle calls batch successful)
    | _ => none

def run : List (AuditEvent ι) → AuditState ι → Option (AuditState ι)
  | [], s => some s
  | event :: events, s => (s.step calls event).bind (run events)

end AuditState

end DevGraph.Work
