import DevGraph.Lib.Json
import DevGraph.Lib.Table
import Mathlib.Data.Finset.Card

/-!
# The browser host

The native messaging host of one browser connection. Commands run as tasks between whose sections
under the state lock others may run; expiry timers and a disconnect come at any time. A log keeps
what an observer of the connection can tell, the newest mark first.
-/

namespace DevGraph.Browser

open Lib

/-- One irreversible boundary between cancellation and dispatch. -/
inductive DispatchState
  | ready | cancelled | begun
  deriving DecidableEq

/-- Exchanges only a ready state. -/
def DispatchState.begin : DispatchState → Bool × DispatchState
  | .ready => (true, .begun)
  | state => (false, state)

/-- The answer is whether dispatch had begun. -/
def DispatchState.cancel : DispatchState → Bool × DispatchState
  | .ready => (false, .cancelled)
  | .cancelled => (false, .cancelled)
  | .begun => (true, .begun)

/-- What a mutation or another command shares with its cancellation. -/
structure Cell where
  cancelled : Bool
  dispatch : DispatchState
  deriving DecidableEq

def Cell.fresh : Cell := ⟨false, .ready⟩

def Cell.revoked (cell : Cell) : Cell := ⟨true, cell.dispatch.cancel.2⟩

structure Mutation where
  generation : Nat
  deriving DecidableEq

/-- A pending command shares the cell of its mutation or has a cell of its own. -/
inductive Pending
  | mutation (mutation : Mutation)
  | control (serial : Nat)
  deriving DecidableEq

def Pending.mutation? : Pending → Option Mutation
  | .mutation m => some m
  | .control _ => none

/-- A stream keeps the mutation and the cell of the command that opened it. -/
structure Stream where
  reader : Nat
  opener : Pending
  dispatched : Bool
  leaseExpires : Option Nat
  deriving DecidableEq

def Stream.mutation? (stream : Stream) : Option Mutation := stream.opener.mutation?

/-- The reader of a response; chunks are numbered as the response gives them. -/
structure Reader where
  pulling : Bool
  nextSeq : Int
  previousAck : Int
  done : Bool
  chunks : Nat
  deriving DecidableEq

def Reader.fresh : Reader := ⟨false, 0, -1, false, 0⟩

structure ReadLease where
  id : String
  expires : Nat

structure Connection where
  id : String
  read : Option ReadLease

structure Authority where
  expiresAt : Nat

structure State where
  connection : Option Connection
  seen : Finset String
  generatedHandles : Finset String
  cancelled : Finset String
  terminalHistory : Table String Bool
  aliases : Table String Mutation
  reservedAliases : Table Nat Nat
  nextGeneration : Nat
  disposed : Bool
  pending : Table String Pending
  authorizations : Table String (Authority × Mutation)
  streams : Table String Stream
  reads : Nat
  work : Option Mutation

/-- The request of a read, as the parser of frames lets it through. -/
structure ReadRequest where
  value : Json
  nested : value.nestedWithin 16 = true

inductive Command
  | connect (origin documentId walletPublicKey : String)
  | readAccess (connectionId : String)
  | read (connectionId readContext : String) (request : ReadRequest)
  | authorize (connectionId : String) (decodable : Bool)
  | execute (connectionId authorizationId : String)
  | pull (connectionId streamId : String) (ackSeq : Int)
  | cancel (connectionId targetId : String)
  | dispose (connectionId : String)

structure NativeError where
  code : String
  dispatched : Bool
  deriving DecidableEq

def validId (id : String) : Bool :=
  id ≠ "" && id.utf8ByteSize ≤ 128 && id.toList.all fun c => '!' ≤ c && c ≤ '~'

structure Frame where
  id : String
  command : Command
  valid : validId id = true

structure Chunk where
  seq : Int
  number : Nat
  total : Nat
  done : Bool
  deriving DecidableEq

inductive Answer
  | connected (connectionId : String)
  | leased (readContext : String) (expiresAt : Nat)
  | authorized (authorizationId : String) (expiresAt : Nat)
  | opened (streamId : String) (dispatched : Bool)
  | pulled (streamId : String) (chunk : Chunk)
  | cancelled (dispatched : Bool)
  | disposed
  | failed (error : NativeError)
  deriving DecidableEq

/-- A command between two of its sections. -/
inductive Task
  | accepted (command : Command)
  | reading (connection : String) (serial expires : Nat)
  | authorizing (connection : String) (mutation : Mutation)
  | executing (connection : String) (mutation : Mutation) (begun : Bool)
  | pulling (connection streamId : String) (stream : Stream) (ack : Int) (pending : Pending)
      (result : Option (Except NativeError Chunk))

inductive Timer
  | authorization (id : String) (generation : Nat)
  | stream (id : String)
  deriving DecidableEq

inductive Role
  | authorize | authorization | execute | stream | pull
  deriving DecidableEq

inductive Use
  | connection | lease | authorization | stream
  deriving DecidableEq

inductive Mark
  | accepted (id : String)
  | replied (id : String) (answer : Answer)
  | generated (id : String) (use : Use)
  | aliased (role : Role) (id : String) (mutation : Mutation)
  | began (mutation : Mutation)
  | answered (targetId : String) (dispatched : Bool)
  | delivered (reader : Nat) (ack : Int) (chunk : Chunk)
  | closed (reader : Nat)
  | released (reads : Nat)
  | exhausted
  | cleared
  deriving DecidableEq

/-- The state behind the lock, what its tasks share outside of it, and the log. -/
structure Host extends State where
  cells : Pending → Cell
  readers : Nat → Reader
  nextSerial : Nat
  tasks : Table String Task
  timers : List Timer
  panicked : Bool
  log : List Mark

def maxControls : Nat := 65536

def maxAliases : Nat := 131072

def Host.init : Host where
  connection := none
  seen := ∅
  generatedHandles := ∅
  cancelled := ∅
  terminalHistory := ∅
  aliases := ∅
  reservedAliases := ∅
  nextGeneration := 0
  disposed := false
  pending := ∅
  authorizations := ∅
  streams := ∅
  reads := 0
  work := none
  cells := fun _ => .fresh
  readers := fun _ => .fresh
  nextSerial := 0
  tasks := ∅
  timers := []
  panicked := false
  log := []

namespace Host

def note (w : Host) (mark : Mark) : Host := { w with log := mark :: w.log }

def reply (w : Host) (id : String) (answer : Answer) : Host :=
  { w with tasks := w.tasks.erase id, log := .replied id answer :: w.log }

def fail (w : Host) (id code : String) : Host := w.reply id (.failed ⟨code, false⟩)

def setTask (w : Host) (id : String) (task : Task) : Host :=
  { w with tasks := w.tasks.insert id task }

def unpend (w : Host) (id : String) : Host := { w with pending := w.pending.erase id }

def bound (w : Host) (id : String) : Bool := w.connection.any fun c => c.id = id

def isCancelled (w : Host) (p : Pending) : Bool := (w.cells p).cancelled

def begun (w : Host) (p : Pending) : Bool := (w.cells p).dispatch = .begun

def setCell (w : Host) (p : Pending) (cell : Cell) : Host :=
  { w with cells := fun q => if q = p then cell else w.cells q }

def setReader (w : Host) (n : Nat) (reader : Reader) : Host :=
  { w with readers := fun k => if k = n then reader else w.readers k }

def setPulling (w : Host) (n : Nat) (pulling : Bool) : Host :=
  w.setReader n { w.readers n with pulling }

def revoke (w : Host) (p : Pending) : Host := w.setCell p (w.cells p).revoked

def cancelCell (w : Host) (p : Pending) : Host :=
  w.setCell p { w.cells p with cancelled := true }

/-! ## Methods of the state -/

def clear (w : Host) : Host :=
  let revoked := w.work.toList.map Pending.mutation ++ w.pending.values
  let streams := w.streams.values
  { w with
    cells := fun p =>
      if p ∈ revoked then (w.cells p).revoked
      else if p ∈ streams.map Stream.opener then { w.cells p with cancelled := true }
      else w.cells p
    connection := none
    disposed := true
    authorizations := ∅
    streams := ∅
    pending := ∅
    aliases := ∅
    terminalHistory := ∅
    reservedAliases := ∅
    seen := ∅
    generatedHandles := ∅
    cancelled := ∅
    reads := 0
    work := none
    log := .cleared :: (streams.map (fun stream => .closed stream.reader) ++ w.log) }

def owns (w : Host) (m : Mutation) : Bool := w.work.any fun work => work.generation = m.generation

def used (w : Host) : Nat :=
  w.aliases.size + w.terminalHistory.size + w.reservedAliases.total id

def reserved (w : Host) (m : Mutation) (count : Nat) : Host :=
  let reserved := (w.reservedAliases.lookup m.generation).getD 0
  { w with reservedAliases := w.reservedAliases.insert m.generation (reserved + count) }

def reserve (w : Host) (m : Mutation) (count : Nat) : Bool × Host :=
  if count > maxAliases - w.used then (false, w.clear) else (true, w.reserved m count)

/-- A reservation must be there and the id must be new; anything else is a panic. -/
def aliasMutation (w : Host) (role : Role) (id : String) (m : Mutation) : Host :=
  match w.reservedAliases.lookup m.generation with
  | some (reserved + 1) =>
    let named := { w with
      reservedAliases := w.reservedAliases.insert m.generation reserved
      aliases := w.aliases.insert id m
      panicked := w.panicked || (w.aliases.lookup id).isSome
      log := .aliased role id m :: w.log }
    if id ∈ w.cancelled then named.revoke (.mutation m) else named
  | _ => { w with panicked := true }

def handleAvailable (w : Host) (id : String) : Bool :=
  id ∉ w.seen && id ∉ w.generatedHandles && id ∉ w.cancelled &&
    (w.aliases.lookup id).isNone && (w.terminalHistory.lookup id).isNone &&
    (w.streams.lookup id).isNone && (w.authorizations.lookup id).isNone &&
    !w.connection.any fun c => c.id = id || c.read.any fun lease => lease.id = id

inductive Draw
  | found (id : String)
  | failed
  | exhausted

/-- The first draw that names nothing; the source of randomness may fail. -/
def drawHandle (w : Host) : List (Option String) → Draw
  | [] => .exhausted
  | none :: _ => .failed
  | some id :: draws => if w.handleAvailable id then .found id else w.drawHandle draws

def generate (w : Host) (handle : String) (use : Use) : Host :=
  { w with
    generatedHandles := insert handle w.generatedHandles
    log := .generated handle use :: w.log }

def uniqueHandle (w : Host) (use : Use) (draw : Nat → Option String) :
    Except String String × Host :=
  if maxControls ≤ w.generatedHandles.card then (.error "control_limit", w.clear)
  else match w.drawHandle ((List.range 16).map draw) with
    | .found id => (.ok id, w.generate id use)
    | .failed => (.error "randomness_unavailable", w)
    | .exhausted => (.error "randomness_unavailable", w.clear.note .exhausted)

def insertPending (w : Host) (id : String) (p : Pending) : Host :=
  let told := if id ∈ w.cancelled then w.revoke p else w
  { told with pending := w.pending.insert id p }

/-- A pending command with a cell of its own, under the next serial number. -/
def pendingControl (w : Host) (id : String) : Host :=
  let p := .control w.nextSerial
  ({ w with nextSerial := w.nextSerial + 1 }.setCell p .fresh).insertPending id p

def mutationPending (w : Host) (role : Role) (id : String) (m : Mutation) : Host :=
  (w.aliasMutation role id m).insertPending id (.mutation m)

def nextMutation (w : Host) : Mutation := ⟨w.nextGeneration + 1⟩

/-- The next mutation has a cell of its own and is not owned yet. -/
def create (w : Host) : Host :=
  { w with nextGeneration := w.nextGeneration + 1 }.setCell (.mutation w.nextMutation) .fresh

def startMutation (w : Host) (id : String) : Except String Mutation × Host :=
  if w.work.isSome then (.error "mutation_limit", w)
  else match w.create.reserve w.nextMutation 2 with
    | (false, cleared) => (.error "control_limit", cleared)
    | (true, reserved) =>
      (.ok w.nextMutation, { reserved with work := some w.nextMutation }.mutationPending
        .authorize id w.nextMutation)

/-- The answer is whether the mutation had been dispatched; its ids keep that answer. -/
def finishMutation (w : Host) (m : Mutation) : Bool × Host :=
  let dispatched := (w.cells (.mutation m)).dispatch.cancel.1
  let streams := w.streams.values.filter fun stream => stream.mutation? = some m
  (dispatched, { w.revoke (.mutation m) with
    work := if w.owns m then none else w.work
    pending := w.pending.retain fun p => p.mutation? ≠ some m
    authorizations := w.authorizations.retain fun a => a.2 ≠ m
    streams := w.streams.retain fun stream => stream.mutation? ≠ some m
    terminalHistory := w.terminalHistory.insertAll (w.aliases.keysOf fun n => n = m) dispatched
    aliases := w.aliases.retain fun n => n ≠ m
    reservedAliases := w.reservedAliases.erase m.generation
    log := streams.map (fun stream => .closed stream.reader) ++ w.log })

def releaseRead (w : Host) : Host :=
  { w with reads := w.reads - 1, log := .released w.reads :: w.log }

/-- What a command held is given back: its mutation ends, or its read slot is free again. -/
def release (w : Host) : Option Mutation → Host
  | some m => (w.finishMutation m).2
  | none => w.releaseRead

/-! ## Sections of the commands -/

/-- What a section finds outside of the state: the clock, random ids and the installed profile. -/
structure Env where
  clock : Option Nat
  draw : Nat → Option String
  profileError : Option NativeError

def accept (w : Host) (frame : Frame) : Host :=
  { w with
    seen := insert frame.id w.seen
    tasks := w.tasks.insert frame.id (.accepted frame.command)
    log := .accepted frame.id :: w.log }

def handle (w : Host) (frame : Frame) : Host :=
  let refuse (w : Host) code := w.note (.replied frame.id (.failed ⟨code, false⟩))
  if w.disposed then refuse w "connection_disposed"
  else if maxControls ≤ w.seen.card then refuse w.clear "duplicate_or_exhausted_id"
  else if frame.id ∈ w.generatedHandles ∨ (w.aliases.lookup frame.id).isSome ∨
      (w.terminalHistory.lookup frame.id).isSome ∨ frame.id ∈ w.seen then
    refuse w "duplicate_or_exhausted_id"
  else w.accept frame

def isWalletKey (key : String) : Bool :=
  key.utf8ByteSize = 64 && key.toList.all fun c => c.isDigit || ('a' ≤ c && c ≤ 'f')

def connect (w : Host) (id origin documentId walletPublicKey : String) (env : Env) : Host :=
  if origin ≠ "http://127.0.0.1:8080" ∨ validId documentId = false ∨
      isWalletKey walletPublicKey = false then w.fail id "unapproved_origin"
  else match env.profileError with
    | some error => w.reply id (.failed error)
    | none =>
      if w.disposed then w.fail id "connection_disposed"
      else if w.connection.isSome then w.fail id "already_connected"
      else match w.uniqueHandle .connection env.draw with
        | (.error code, w) => w.fail id code
        | (.ok handle, w) =>
          { w with connection := some ⟨handle, none⟩ }.reply id (.connected handle)

def readAccess (w : Host) (id connectionId : String) (env : Env) : Host :=
  match env.profileError, w.connection with
    | some error, _ => w.reply id (.failed error)
    | none, none => w.fail id "invalid_connection"
    | none, some connection =>
      if connection.id ≠ connectionId then w.fail id "invalid_connection"
      else match w.uniqueHandle .lease env.draw with
        | (.error code, w) => w.fail id code
        | (.ok handle, w) =>
          match env.clock with
          | none => w.fail id "invalid_clock"
          | some now =>
            { w with connection := some { connection with read := some ⟨handle, now + 900⟩ } }.reply
              id (.leased handle (now + 900))

/-- The lease of the connection, if the context names it and it has not run out. -/
def lease? (w : Host) (readContext : String) (clock : Option Nat) : Option ReadLease :=
  (w.connection.bind Connection.read).filter fun lease =>
    lease.id = readContext && clock.any (· < lease.expires)

/-- Sorting the keys of a request fails only on what is nested too deeply. -/
def canonicalJson (v : Json) : Option Json := if v.nestedWithin 64 then some v.sortKeys else none

def read (w : Host) (id connectionId readContext : String) (request : ReadRequest) (env : Env) :
    Host :=
  if w.bound connectionId = false then w.fail id "invalid_connection"
  else match w.lease? readContext env.clock with
    | none => w.fail id "invalid_read_context"
    | some lease =>
      if 4 ≤ w.reads then w.fail id "read_limit"
      else
        let serial := w.nextSerial
        let w := { w with reads := w.reads + 1 }.pendingControl id
        match canonicalJson request.value with
        | none => w.fail id "invalid_request"
        | some _ => w.setTask id (.reading connectionId serial lease.expires)

def expireAuthorizations (w : Host) (now : Nat) : Host :=
  ((w.authorizations.values.filter fun a => a.1.expiresAt ≤ now).map Prod.snd).foldl
    (fun w m => (w.finishMutation m).2) w

def authorize (w : Host) (id connectionId : String) (decodable : Bool) (env : Env) : Host :=
  if decodable = false then w.fail id "invalid_message"
  else if w.bound connectionId = false then w.fail id "invalid_connection"
  else match env.clock with
    | none => w.fail id "invalid_clock"
    | some now =>
      match (w.expireAuthorizations now).startMutation id with
      | (.error code, w) => w.fail id code
      | (.ok m, w) => w.setTask id (.authorizing connectionId m)

/-- The authority waits for its execution until a timer ends it. -/
def keepAuthority (w : Host) (handle : String) (authority : Authority) (m : Mutation) : Host :=
  { w with
    authorizations := w.authorizations.insert handle (authority, m)
    timers := .authorization handle m.generation :: w.timers }

def authorizeDone (w : Host) (id connectionId : String) (m : Mutation)
    (result : Except NativeError Authority) (env : Env) : Host :=
  let stillPending := (w.pending.lookup id).isSome
  let w := w.unpend id
  if stillPending = false ∨ w.owns m = false ∨ w.isCancelled (.mutation m) = true ∨
      w.bound connectionId = false then (w.finishMutation m).2.fail id "cancelled"
  else match result with
    | .error error => (w.finishMutation m).2.reply id (.failed error)
    | .ok authority =>
      match w.uniqueHandle .authorization env.draw with
      | (.error code, w) => (w.finishMutation m).2.fail id code
      | (.ok handle, w) =>
        let w := w.aliasMutation .authorization handle m
        match env.clock with
        | none => (w.finishMutation m).2.fail id "invalid_clock"
        | some _ =>
          (w.keepAuthority handle authority m).reply id (.authorized handle authority.expiresAt)

def execute (w : Host) (id connectionId authorizationId : String) (env : Env) : Host :=
  if w.bound connectionId = false then w.fail id "invalid_connection"
  else match env.clock with
    | none => w.fail id "invalid_clock"
    | some now =>
      let w := w.expireAuthorizations now
      match w.authorizations.lookup authorizationId with
      | none => w.fail id "invalid_authorization"
      | some (_, m) =>
        match w.reserve m 2 with
        | (false, w) => w.fail id "control_limit"
        | (true, w) =>
          let w := { w with authorizations := w.authorizations.erase authorizationId }
          (w.mutationPending .execute id m).setTask id (.executing connectionId m false)

/-- The HTTP layer dispatches the request of an execution, if it still can. -/
def begin (w : Host) (id connectionId : String) (m : Mutation) : Host :=
  match (w.cells (.mutation m)).dispatch.begin with
  | (false, _) => w
  | (true, state) =>
    ((w.setCell (.mutation m) { w.cells (.mutation m) with dispatch := state }).setTask id
      (.executing connectionId m true)).note (.began m)

def outcome (dispatched : Bool) : NativeError :=
  ⟨if dispatched then "outcome_unknown" else "cancelled", dispatched⟩

/-- A new reader behind a handle, with a timer that closes it. -/
def openStream (w : Host) (handle : String) (p : Pending) (dispatched : Bool)
    (lease : Option Nat) : Host :=
  { w.setReader w.nextSerial .fresh with
    nextSerial := w.nextSerial + 1
    streams := w.streams.insert handle ⟨w.nextSerial, p, dispatched, lease⟩
    timers := .stream handle :: w.timers }

/-- The completion of a read or of an execution; a failed result comes with its error. -/
def finishStream (w : Host) (id connectionId : String) (p : Pending)
    (failed : Option NativeError) (responseDispatched : Bool) (lease : Option Nat) (env : Env) :
    Host :=
  let stillPending := (w.pending.lookup id).isSome
  let w := w.unpend id
  let dispatched := w.begun p
  if stillPending = false ∨ w.isCancelled p = true ∨ w.bound connectionId = false ∨
      p.mutation?.any (fun m => !w.owns m) = true then
    let w := if p.mutation?.isSome || stillPending then w.release p.mutation? else w
    w.reply id (.failed (outcome dispatched))
  else match failed with
    | some error => (w.release p.mutation?).reply id (.failed error)
    | none =>
      match w.uniqueHandle .stream env.draw with
      | (.error code, w) =>
        (w.release p.mutation?).reply id
          (.failed ⟨if dispatched then "outcome_unknown" else code, dispatched⟩)
      | (.ok handle, w) =>
        let w := match p.mutation? with
          | some m => w.aliasMutation .stream handle m
          | none => w
        (w.openStream handle p responseDispatched lease).reply id
          (.opened handle responseDispatched)

def pull (w : Host) (id connectionId streamId : String) (ack : Int) : Host :=
  if w.bound connectionId = false then w.fail id "invalid_connection"
  else match w.streams.lookup streamId with
    | none => w.fail id "invalid_stream"
    | some stream =>
      if (w.readers stream.reader).pulling then
        w.reply id (.failed ⟨"concurrent_pull", stream.dispatched⟩)
      else
        let w := w.setPulling stream.reader true
        match stream.mutation? with
        | some m =>
          match w.reserve m 1 with
          | (false, w) => w.fail id "control_limit"
          | (true, w) =>
            (w.mutationPending .pull id m).setTask id
              (.pulling connectionId streamId stream ack (.mutation m) none)
        | none =>
          let p := .control w.nextSerial
          (w.pendingControl id).setTask id (.pulling connectionId streamId stream ack p none)

/-- The part of a pull that holds the reader. -/
def nextChunk (w : Host) (stream : Stream) (ack : Int) (p : Pending)
    (response : Except NativeError (Nat × Bool)) (clock : Option Nat) :
    Except NativeError Chunk × Host :=
  let reader := w.readers stream.reader
  if stream.leaseExpires.any (fun expires => clock.all (expires ≤ ·)) then
    (.error ⟨"read_context_expired", false⟩, w)
  else if reader.done = true ∨ ack ≠ reader.previousAck then
    (.error ⟨"invalid_sequence", stream.dispatched⟩, w)
  else match response with
    | .error error => (.error error, w)
    | .ok (total, done) =>
      if w.isCancelled stream.opener || w.isCancelled p then
        (.error (outcome stream.dispatched),
          w.setReader stream.reader { reader with chunks := reader.chunks + 1 })
      else
        (.ok ⟨reader.nextSeq, reader.chunks, total, done⟩,
          w.setReader stream.reader { reader with
            nextSeq := reader.nextSeq + 1
            previousAck := reader.nextSeq
            done := done
            chunks := reader.chunks + 1 })

def dropStream (w : Host) (streamId : String) (stream : Stream) : Host :=
  { w.cancelCell stream.opener with
    streams := w.streams.erase streamId
    log := .closed stream.reader :: w.log }

def closeStream (w : Host) (streamId : String) (stream : Stream) : Host :=
  (w.dropStream streamId stream).release stream.mutation?

def pullDone (w : Host) (id connectionId streamId : String) (stream : Stream) (ack : Int)
    (p : Pending) (result : Except NativeError Chunk) : Host :=
  let result :=
    if w.isCancelled p || w.isCancelled stream.opener || !w.bound connectionId then
      .error (outcome stream.dispatched)
    else result
  let w := w.unpend id
  let w := w.setPulling stream.reader false
  -- An expiry or a cancellation may have closed the stream before.
  let ended (w : Host) :=
    if (w.streams.lookup streamId).isSome then w.closeStream streamId stream else w
  match result with
  | .error error => (ended w).reply id (.failed error)
  | .ok chunk =>
    let w := w.note (.delivered stream.reader ack chunk)
    (if chunk.done then ended w else w).reply id (.pulled streamId chunk)

def cancel (w : Host) (id connectionId targetId : String) : Host :=
  if w.bound connectionId = false then w.fail id "invalid_connection"
  else if validId targetId = false then w.fail id "invalid_message"
  else if maxControls ≤ w.cancelled.card ∧ targetId ∉ w.cancelled then
    w.clear.fail id "control_limit"
  else
    let w := { w with cancelled := insert targetId w.cancelled }
    let answer (w : Host) (dispatched : Bool) :=
      (w.note (.answered targetId dispatched)).reply id (.cancelled dispatched)
    match w.aliases.lookup targetId with
    | some m =>
      let (dispatched, w) := w.finishMutation m
      answer w dispatched
    | none =>
      let known := (w.terminalHistory.lookup targetId).getD false
      let (pending, w) := match w.pending.lookup targetId with
        | some p => ((w.cells p).dispatch.cancel.1, w.revoke p)
        | none => (false, w)
      match w.streams.lookup targetId with
      | none => answer w (known || pending)
      | some stream =>
        answer (w.dropStream targetId stream).releaseRead (known || pending || stream.dispatched)

def dispose (w : Host) (id connectionId : String) : Host :=
  if w.bound connectionId = false then w.fail id "invalid_connection"
  else w.clear.reply id .disposed

/-- The first section of an accepted command. -/
def dispatch (w : Host) (id : String) (env : Env) : Command → Host
  | .connect origin documentId key => w.connect id origin documentId key env
  | .readAccess connectionId => w.readAccess id connectionId env
  | .read connectionId readContext request => w.read id connectionId readContext request env
  | .authorize connectionId decodable => w.authorize id connectionId decodable env
  | .execute connectionId authorizationId => w.execute id connectionId authorizationId env
  | .pull connectionId streamId ack => w.pull id connectionId streamId ack
  | .cancel connectionId targetId => w.cancel id connectionId targetId
  | .dispose connectionId => w.dispose id connectionId

def expire (w : Host) : Timer → Host
  | .authorization id generation =>
    match w.authorizations.lookup id with
    | some (_, m) => if m.generation = generation then (w.finishMutation m).2 else w
    | none => w
  | .stream id =>
    match w.streams.lookup id with
    | some stream => w.closeStream id stream
    | none => w

/-! ## Runs -/

inductive Event
  | receive (frame : Frame)
  | start (id : String) (env : Env)
  | readDone (id : String) (failed : Option NativeError) (env : Env)
  | authorizeDone (id : String) (result : Except NativeError Authority) (env : Env)
  | begin (id : String)
  | executeDone (id : String) (failed : Option NativeError) (env : Env)
  | chunk (id : String) (response : Except NativeError (Nat × Bool)) (clock : Option Nat)
  | pullDone (id : String)
  | expire (timer : Timer)
  | disconnect

/-- One section. An execution gives a response only after its dispatch has begun. -/
def step (w : Host) : Event → Option Host
  | .receive frame => some (w.handle frame)
  | .start id env =>
    match w.tasks.lookup id with
    | some (.accepted command) => some (w.dispatch id env command)
    | _ => none
  | .readDone id failed env =>
    match w.tasks.lookup id with
    | some (.reading connection serial expires) =>
      some (w.finishStream id connection (.control serial) failed false (some expires) env)
    | _ => none
  | .authorizeDone id result env =>
    match w.tasks.lookup id with
    | some (.authorizing connection m) => some (w.authorizeDone id connection m result env)
    | _ => none
  | .begin id =>
    match w.tasks.lookup id with
    | some (.executing connection m false) => some (w.begin id connection m)
    | _ => none
  | .executeDone id failed env =>
    match w.tasks.lookup id with
    | some (.executing connection m begun) =>
      if begun = true ∨ failed.isSome then
        some (w.finishStream id connection (.mutation m) failed true none env)
      else none
    | _ => none
  | .chunk id response clock =>
    match w.tasks.lookup id with
    | some (.pulling connection streamId stream ack p none) =>
      let (result, w) := w.nextChunk stream ack p response clock
      some (w.setTask id (.pulling connection streamId stream ack p (some result)))
    | _ => none
  | .pullDone id =>
    match w.tasks.lookup id with
    | some (.pulling connection streamId stream ack p (some result)) =>
      some (w.pullDone id connection streamId stream ack p result)
    | _ => none
  | .expire timer =>
    if timer ∈ w.timers then some ({ w with timers := w.timers.erase timer }.expire timer) else none
  | .disconnect => some w.clear

def run (w : Host) : List Event → Option Host
  | [] => some w
  | event :: events => (w.step event).bind fun w => w.run events

end Host

/-- What a connection can come to. -/
def Reachable (w : Host) : Prop := ∃ events, Host.init.run events = some w

end DevGraph.Browser
