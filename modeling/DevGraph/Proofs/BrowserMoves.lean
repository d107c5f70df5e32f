import DevGraph.Browser.Host
import DevGraph.Lib.JsonModel
import Mathlib.Logic.Relation

/-!
# What a section of the browser host can do

Every section is a sequence of moves, each of which leaves the tables of the host in agreement. The
control flow of the commands is looked at here once.
-/

namespace DevGraph.Browser

open Lib

def Host.dropTask (w : Host) (id : String) : Host := { w with tasks := w.tasks.erase id }

/-- The mutation that a task waits on the backend for. -/
def Task.busy? : Task → Option Mutation
  | .authorizing _ m => some m
  | .executing _ m _ => some m
  | _ => none

/-- Marks that no result looks at. -/
def Mark.neutral : Mark → Bool
  | .replied .. | .exhausted | .delivered .. => true
  | _ => false

end DevGraph.Browser

namespace DevGraph.Proofs.Browser

open Lib DevGraph.Browser

inductive Move : Host → Host → Prop
  | note (w mark) (h : mark.neutral = true) : Move w (w.note mark)
  | timers (w timers) : Move w { w with timers }
  | accept (w : Host) (frame : Frame) (hlive : w.disposed = false)
      (hcard : w.seen.card < maxControls) (hhandle : frame.id ∉ w.generatedHandles)
      (halias : w.aliases.lookup frame.id = none)
      (hhistory : w.terminalHistory.lookup frame.id = none) (hseen : frame.id ∉ w.seen) :
      Move w (w.accept frame)
  | clear (w) : Move w w.clear
  | create (w : Host) : Move w w.create
  | drop (w : Host) (id : String) : Move w (w.dropTask id)
  | unpend (w : Host) (id : String) : Move w (w.unpend id)
  | pulling (w : Host) (n : Nat) (running : Bool) : Move w (w.setPulling n running)
  | release (w : Host) : Move w w.releaseRead
  | close (w : Host) (streamId stream) : Move w (w.dropStream streamId stream)
  | handled (w : Host) (id command handle use connection)
      (htask : w.tasks.lookup id = some (.accepted command))
      (hlive : w.disposed = false ∨ w.connection.isSome = true)
      (hhandle : w.handleAvailable handle = true)
      (hread : ∀ lease, connection.read = some lease → lease.id = handle ∧ use = .lease ∨
        ∃ c, w.connection = some c ∧ c.read = some lease) :
      Move w (Host.dropTask { w.generate handle use with connection := some connection } id)
  | startRead (w : Host) (id command connection expires)
      (htask : w.tasks.lookup id = some (.accepted command)) :
      Move w (Host.setTask (({ w with reads := w.reads + 1 }).pendingControl id) id
        (.reading connection w.nextSerial expires))
  | startMutation (w : Host) (id command connection)
      (htask : w.tasks.lookup id = some (.accepted command))
      (hbound : w.connection.isSome = true) (hwork : w.work = none)
      (hroom : w.create.used + 2 ≤ maxAliases) :
      Move w (Host.setTask (({ w.create.reserved w.nextMutation 2 with
        work := some w.nextMutation }).mutationPending .authorize id w.nextMutation) id
        (.authorizing connection w.nextMutation))
  | finish (w : Host) (m) : Move w (w.finishMutation m).2
  | named (w : Host) (id task handle role use m) (htask : w.tasks.lookup id = some task)
      (hbusy : task.busy? = some m) (howns : w.owns m = true)
      (hbound : w.connection.isSome = true) (hhandle : w.handleAvailable handle = true)
      (hrole : role ≠ .pull) :
      Move w (Host.dropTask ((w.generate handle use).aliasMutation role handle m) id)
  | authorized (w : Host) (id connection handle m authority)
      (htask : w.tasks.lookup id = some (.authorizing connection m)) (howns : w.owns m = true)
      (hbound : w.connection.isSome = true) (hhandle : w.handleAvailable handle = true) :
      Move w ((((w.generate handle .authorization).aliasMutation .authorization handle
        m).keepAuthority handle authority m).dropTask id)
  | startExecute (w : Host) (id command connection authorizationId authority m)
      (htask : w.tasks.lookup id = some (.accepted command))
      (hbound : w.connection.isSome = true)
      (hauthority : w.authorizations.lookup authorizationId = some (authority, m))
      (hroom : w.used + 2 ≤ maxAliases) :
      Move w (Host.setTask (({ w.reserved m 2 with
        authorizations := w.authorizations.erase authorizationId }).mutationPending .execute id m)
          id
        (.executing connection m false))
  | begin (w : Host) (id connection m)
      (htask : w.tasks.lookup id = some (.executing connection m false))
      (hready : (w.cells (.mutation m)).dispatch = .ready) :
      Move w (((w.setCell (.mutation m) { w.cells (.mutation m) with dispatch := .begun }).setTask
        id (.executing connection m true)).note (.began m))
  | opened (w : Host) (id connection begun handle m)
      (htask : w.tasks.lookup id = some (.executing connection m begun)) (howns : w.owns m = true)
      (hbound : w.connection.isSome = true) (hhandle : w.handleAvailable handle = true) :
      Move w (Host.dropTask (Host.openStream
        ((w.generate handle .stream).aliasMutation .stream handle m) handle (.mutation m) true none)
        id)
  | openRead (w : Host) (handle serial expires) (hbound : w.connection.isSome = true)
      (hhandle : w.handleAvailable handle = true) :
      Move w (Host.openStream (w.generate handle .stream) handle (.control serial) false
        (some expires))
  | startPull (w : Host) (id command connection streamId stream ack m)
      (htask : w.tasks.lookup id = some (.accepted command))
      (hbound : w.connection.isSome = true)
      (hstream : w.streams.lookup streamId = some stream) (hmutation : stream.mutation? = some m)
      (hroom : w.used + 1 ≤ maxAliases) :
      Move w (Host.setTask
        (((w.setPulling stream.reader true).reserved m 1).mutationPending .pull id m) id
        (.pulling connection streamId stream ack (.mutation m) none))
  | startPullRead (w : Host) (id command connection streamId stream ack)
      (htask : w.tasks.lookup id = some (.accepted command))
      (hstream : w.streams.lookup streamId = some stream) :
      Move w (Host.setTask ((w.setPulling stream.reader true).pendingControl id) id
        (.pulling connection streamId stream ack (.control w.nextSerial) none))
  | chunk (w : Host) (id connection streamId stream ack p response clock)
      (htask : w.tasks.lookup id = some (.pulling connection streamId stream ack p none)) :
      Move w (Host.setTask (w.nextChunk stream ack p response clock).2 id
        (.pulling connection streamId stream ack p
          (some (w.nextChunk stream ack p response clock).1)))
  | remember (w : Host) (targetId) : Move w { w with cancelled := insert targetId w.cancelled }
  | tell (w : Host) (targetId p) (halias : w.aliases.lookup targetId = none)
      (hpending : w.pending.lookup targetId = some p) : Move w (w.revoke p)
  | answer (w : Host) (targetId dispatched) (hbound : w.connection.isSome = true)
      (hcancelled : targetId ∈ w.cancelled) (halias : w.aliases.lookup targetId = none)
      (hdispatched : w.terminalHistory.lookup targetId = some dispatched ∨
        dispatched = ((w.terminalHistory.lookup targetId).getD false ||
          (w.pending.lookup targetId).any w.begun)) :
      Move w (w.note (.answered targetId dispatched))
  | cancelStream (w : Host) (targetId stream dispatched) (hbound : w.connection.isSome = true)
      (hcancelled : targetId ∈ w.cancelled) (halias : w.aliases.lookup targetId = none)
      (hstream : w.streams.lookup targetId = some stream)
      (hdispatched : dispatched = ((w.terminalHistory.lookup targetId).getD false ||
        (w.pending.lookup targetId).any w.begun || stream.dispatched)) :
      Move w ((w.dropStream targetId stream).releaseRead.note (.answered targetId dispatched))

abbrev Moves := Relation.ReflTransGen Move

/-! ## Sections as moves -/

variable {w : Host} {id : String}

lemma uniqueHandle_cases (w : Host) (use : Use) (draw : Nat → Option String) :
    (∃ handle, w.handleAvailable handle = true ∧
      w.uniqueHandle use draw = (.ok handle, w.generate handle use)) ∨
    ∃ code after, w.uniqueHandle use draw = (.error code, after) ∧ Moves w after := by
  have hdraw : ∀ (draws : List (Option String)) (handle : String),
      w.drawHandle draws = .found handle → w.handleAvailable handle = true := by
    intro draws handle
    induction draws with
    | nil => exact nofun
    | cons draw draws ih =>
      cases draw with
      | none => exact nofun
      | some drawn =>
        intro h
        rw [Host.drawHandle] at h
        split_ifs at h with havailable
        · cases h
          exact havailable
        · exact ih h
  unfold Host.uniqueHandle
  split_ifs with hfull
  · exact .inr ⟨_, _, rfl, .single (.clear w)⟩
  · split
    · rename_i handle hfound
      exact .inl ⟨handle, hdraw _ _ hfound, rfl⟩
    · exact .inr ⟨_, _, rfl, .refl⟩
    · exact .inr ⟨_, _, rfl, .head (.clear w) (.single (.note _ .exhausted rfl))⟩

lemma reserve_cases (w : Host) (m : Mutation) {count : Nat} (hcount : 0 < count) :
    (w.used + count ≤ maxAliases ∧ w.reserve m count = (true, w.reserved m count)) ∨
      w.reserve m count = (false, w.clear) := by
  unfold Host.reserve
  by_cases hfull : count > maxAliases - w.used
  · exact .inr (if_pos hfull)
  · exact .inl ⟨by omega, if_neg hfull⟩

variable {connectionId : String}

lemma connected_of_bound (h : ¬ w.bound connectionId = false) :
    w.connection.isSome = true := by
  rw [Host.bound] at h
  cases hconnection : w.connection with
  | none =>
    rw [hconnection] at h
    exact absurd rfl h
  | some c => rfl

lemma moves_ite {a b : Host} {c : Prop} [Decidable c] (ha : c → Moves w a) (hb : ¬ c → Moves w b) :
    Moves w (if c then a else b) := by
  split
  · exact ha ‹c›
  · exact hb ‹¬ c›

lemma reply_moves (w : Host) (id : String) (answer : Answer) : Moves w (w.reply id answer) :=
  .head (.drop w id) (.single (.note _ (.replied id answer) rfl))

lemma cleared_moves (w : Host) (id : String) (answer : Answer) :
    Moves w (w.clear.reply id answer) :=
  .head (.clear w) (reply_moves w.clear id answer)

lemma finished_moves (w : Host) (m : Mutation) (id : String) (answer : Answer) :
    Moves w ((w.finishMutation m).2.reply id answer) :=
  .head (.finish w m) (reply_moves _ id answer)

lemma handle_moves (frame : Frame) : Moves w (w.handle frame) := by
  unfold Host.handle
  split_ifs with hdisposed hfull hknown
  · exact .single (.note _ _ rfl)
  · exact .head (.clear w) (.single (.note _ _ rfl))
  · exact .single (.note _ _ rfl)
  · simp only [not_or, Option.not_isSome_iff_eq_none] at hknown
    exact .single (.accept w frame (by simpa using hdisposed) (by omega) hknown.1 hknown.2.1
      hknown.2.2.1 hknown.2.2.2)

section Accepted

variable {command : Command} (htask : w.tasks.lookup id = some (.accepted command))

include htask

lemma connect_moves (origin documentId key : String) (env : Host.Env) :
    Moves w (w.connect id origin documentId key env) := by
  unfold Host.connect
  split
  · exact reply_moves w id _
  · cases env.profileError with
    | some error => exact reply_moves w id _
    | none =>
      dsimp only
      split_ifs with hdisposed hconnected
      · exact reply_moves w id _
      · exact reply_moves w id _
      · obtain ⟨handle, havailable, hhandle⟩ | ⟨code, after, hhandle, hafter⟩ :=
          uniqueHandle_cases w .connection env.draw
        · rw [hhandle]
          exact (Relation.ReflTransGen.single (.handled w id command handle .connection
            ⟨handle, none⟩ htask (.inl (by simpa using hdisposed)) havailable
            nofun)).tail
            (.note _ (.replied id (.connected handle)) rfl)
        · rw [hhandle]
          exact hafter.trans (reply_moves _ id _)

lemma readAccess_moves (connectionId : String) (env : Host.Env) :
    Moves w (w.readAccess id connectionId env) := by
  unfold Host.readAccess
  split
  · exact reply_moves w id _
  · exact reply_moves w id _
  · rename_i connection _ hconnection
    have hsome : w.connection.isSome = true := by rw [hconnection]; rfl
    split_ifs with hbound
    · exact reply_moves w id _
    · obtain ⟨handle, havailable, hhandle⟩ | ⟨code, after, hhandle, hafter⟩ :=
        uniqueHandle_cases w .lease env.draw
      · rw [hhandle]
        cases env.clock with
        | none =>
          have hmove := Move.handled w id command handle .lease connection htask (.inr hsome)
            havailable (fun _ hread => .inr ⟨connection, hconnection, hread⟩)
          rw [← hconnection] at hmove
          exact (Relation.ReflTransGen.single hmove).tail (.note _ _ rfl)
        | some now =>
          refine (Relation.ReflTransGen.single (.handled w id command handle .lease _ htask
            (.inr hsome) havailable ?_)).tail (.note _ _ rfl)
          intro lease hread
          cases hread
          exact .inl ⟨rfl, rfl⟩
      · rw [hhandle]
        exact hafter.trans (reply_moves _ id _)

lemma read_moves (connectionId readContext : String) (request : ReadRequest) (env : Host.Env) :
    Moves w (w.read id connectionId readContext request env) := by
  have hcanonical : Host.canonicalJson request.value = some request.value.sortKeys :=
    if_pos (nestedWithin_mono (by decide) _ request.nested)
  unfold Host.read
  split
  · exact reply_moves w id _
  · split
    · exact reply_moves w id _
    · rename_i lease _
      by_cases hreads : 4 ≤ w.reads
      · rw [if_pos hreads]
        exact reply_moves w id _
      · rw [if_neg hreads]
        simp only [hcanonical]
        exact .single (.startRead w id command connectionId lease.expires htask)

omit htask in
lemma expire_moves (now : Nat) : Moves w (w.expireAuthorizations now) := by
  have hfold : ∀ (expired : List Mutation) (w : Host),
      Moves w (expired.foldl (fun w m => (w.finishMutation m).2) w) := by
    intro expired
    induction expired with
    | nil => exact fun w => .refl
    | cons m expired ih => exact fun w => .head (.finish w m) (ih _)
  exact hfold _ w

omit htask in
lemma expire_fields (now : Nat) : (w.expireAuthorizations now).tasks = w.tasks ∧
    (w.expireAuthorizations now).connection = w.connection := by
  have hfold : ∀ (expired : List Mutation) (w : Host),
      (expired.foldl (fun w m => (w.finishMutation m).2) w).tasks = w.tasks ∧
        (expired.foldl (fun w m => (w.finishMutation m).2) w).connection = w.connection := by
    intro expired
    induction expired with
    | nil => exact fun w => ⟨rfl, rfl⟩
    | cons m expired ih => exact fun w => ih _
  exact hfold _ w

lemma startMutation_moves (hbound : w.connection.isSome = true) (connectionId : String) :
    Moves w (match w.startMutation id with
      | (.error code, w) => w.fail id code
      | (.ok m, w) => w.setTask id (.authorizing connectionId m)) := by
  by_cases hwork : w.work.isSome
  · rw [Host.startMutation, if_pos hwork]
    exact reply_moves w id _
  · rw [Host.startMutation, if_neg hwork]
    obtain ⟨hroom, hreserve⟩ | hreserve :=
      reserve_cases w.create w.nextMutation (show 0 < 2 by omega)
    · rw [hreserve]
      exact .single (.startMutation w id command connectionId htask hbound
        (by simpa using hwork) hroom)
    · rw [hreserve]
      exact .head (.create w) (cleared_moves w.create id _)

lemma authorize_moves (connectionId : String) (decodable : Bool) (env : Host.Env) :
    Moves w (w.authorize id connectionId decodable env) := by
  unfold Host.authorize
  split
  · exact reply_moves w id _
  · split
    · exact reply_moves w id _
    · rename_i hbound
      cases env.clock with
      | none => exact reply_moves w id _
      | some now =>
        obtain ⟨htasks, hconnection⟩ := expire_fields (w := w) now
        rw [← htasks] at htask
        refine (expire_moves now).trans (startMutation_moves htask ?_ connectionId)
        rw [hconnection]
        exact connected_of_bound hbound

lemma execute_moves (connectionId authorizationId : String) (env : Host.Env) :
    Moves w (w.execute id connectionId authorizationId env) := by
  unfold Host.execute
  split
  · exact reply_moves w id _
  · rename_i hbound
    cases env.clock with
    | none => exact reply_moves w id _
    | some now =>
      obtain ⟨htasks, hconnection⟩ := expire_fields (w := w) now
      refine (expire_moves now).trans ?_
      rw [← htasks] at htask
      have hsome : (w.expireAuthorizations now).connection.isSome = true := by
        rw [hconnection]
        exact connected_of_bound hbound
      dsimp only
      cases hauthority : (w.expireAuthorizations now).authorizations.lookup authorizationId with
      | none => exact reply_moves _ id _
      | some found =>
        obtain ⟨authority, m⟩ := found
        obtain ⟨hroom, hreserve⟩ | hreserve :=
          reserve_cases (w.expireAuthorizations now) m (show 0 < 2 by omega)
        · simp only [hreserve]
          exact .single (.startExecute _ id command connectionId authorizationId authority m htask
            hsome hauthority hroom)
        · simp only [hreserve]
          exact cleared_moves _ id _

lemma pull_moves (connectionId streamId : String) (ack : Int) :
    Moves w (w.pull id connectionId streamId ack) := by
  unfold Host.pull
  split
  · exact reply_moves w id _
  · rename_i hbound
    have hsome := connected_of_bound hbound
    cases hstream : w.streams.lookup streamId with
    | none => exact reply_moves w id _
    | some stream =>
      dsimp only
      by_cases hpulling : (w.readers stream.reader).pulling = true
      · rw [if_pos hpulling]
        exact reply_moves w id _
      · rw [if_neg hpulling]
        cases hmutation : stream.mutation? with
        | none =>
          exact .single (.startPullRead w id command connectionId streamId stream ack htask hstream)
        | some m =>
          obtain ⟨hroom, hreserve⟩ | hreserve := reserve_cases
            (w.setPulling stream.reader true) m
            (show 0 < 1 by omega)
          · simp only [hreserve]
            exact .single (.startPull w id command connectionId streamId stream ack m htask hsome
              hstream hmutation hroom)
          · simp only [hreserve]
            exact .head (.pulling w stream.reader true) (cleared_moves _ id _)

omit htask in
/-- What a cancellation leaves of a pending command that names no mutation. -/
lemma begun_revoke (p : Pending) : (w.revoke p).begun p = (w.cells p).dispatch.cancel.1 := by
  simp only [Host.begun, Host.revoke, Host.setCell, if_pos, Cell.revoked]
  cases (w.cells p).dispatch <;> rfl

omit htask in
lemma answered_moves {targetId : String} {dispatched : Bool} (hsome : w.connection.isSome = true)
    (hcancelled : targetId ∈ w.cancelled) (halias : w.aliases.lookup targetId = none)
    (hdispatched : dispatched = ((w.terminalHistory.lookup targetId).getD false ||
      (w.pending.lookup targetId).any w.begun)) :
    Moves w (match w.streams.lookup targetId with
      | none => (w.note (.answered targetId dispatched)).note (.replied id (.cancelled dispatched))
      | some stream =>
        ((w.dropStream targetId stream).releaseRead.note
          (.answered targetId (dispatched || stream.dispatched))).note
          (.replied id (.cancelled (dispatched || stream.dispatched)))) := by
  cases hstream : w.streams.lookup targetId with
  | none =>
    exact .head (.answer w targetId dispatched hsome hcancelled halias (.inr hdispatched))
      (.single (.note _ (.replied id _) rfl))
  | some stream =>
    exact .head (.cancelStream w targetId stream _ hsome hcancelled halias hstream
      (by rw [hdispatched])) (.single (.note _ (.replied id _) rfl))

omit htask in
lemma answer_moves {targetId : String} (hsome : w.connection.isSome = true)
    (hcancelled : targetId ∈ w.cancelled) :
    Moves (w.dropTask id) (match w.aliases.lookup targetId with
      | some m =>
        ((w.finishMutation m).2.note (.answered targetId (w.finishMutation m).1)).reply id
          (.cancelled (w.finishMutation m).1)
      | none =>
        let told := match w.pending.lookup targetId with
          | some p => ((w.cells p).dispatch.cancel.1, w.revoke p)
          | none => (false, w)
        match told.2.streams.lookup targetId with
        | none =>
          (told.2.note (.answered targetId
            ((w.terminalHistory.lookup targetId).getD false || told.1))).reply id
            (.cancelled ((w.terminalHistory.lookup targetId).getD false || told.1))
        | some stream =>
          ((told.2.dropStream targetId stream).releaseRead.note (.answered targetId
            ((w.terminalHistory.lookup targetId).getD false || told.1 || stream.dispatched))).reply
            id
            (.cancelled
              ((w.terminalHistory.lookup targetId).getD false || told.1 ||
                stream.dispatched))) := by
  cases halias : w.aliases.lookup targetId with
  | some m =>
    refine Relation.ReflTransGen.head (.finish _ m) (.head (.answer _ targetId
      (w.finishMutation m).1 hsome hcancelled ?_ (.inl ?_)) (.single (.note _ (.replied id _) rfl)))
    · change (w.aliases.retain _).lookup targetId = none
      rw [Table.lookup_retain, halias]
      simp
    · change (w.terminalHistory.insertAll _ _).lookup targetId = _
      rw [Table.lookup_insertAll, if_pos]
      · rfl
      · exact Table.mem_keysOf.2 ⟨m, halias, by simp⟩
  | none =>
    cases hpending : w.pending.lookup targetId with
    | none =>
      have hnone : ((w.dropTask id).pending.lookup targetId).any (w.dropTask id).begun = false := by
        change (w.pending.lookup targetId).any _ = false
        rw [hpending]
        rfl
      refine answered_moves (w := w.dropTask id) hsome hcancelled halias ?_
      rw [hnone]
      rfl
    | some p =>
      have hbegun : (((w.dropTask id).revoke p).pending.lookup targetId).any
          ((w.dropTask id).revoke p).begun = (w.cells p).dispatch.cancel.1 := by
        change (w.pending.lookup targetId).any _ = _
        rw [hpending]
        exact begun_revoke (w := w.dropTask id) p
      refine Relation.ReflTransGen.head (.tell (w.dropTask id) targetId p halias hpending) ?_
      refine answered_moves (w := (w.dropTask id).revoke p) hsome hcancelled halias ?_
      rw [hbegun]
      rfl

omit htask in
lemma cancel_moves (connectionId targetId : String) :
    Moves w (w.cancel id connectionId targetId) := by
  unfold Host.cancel
  split
  · exact reply_moves w id _
  · rename_i hbound
    have hsome := connected_of_bound hbound
    split
    · exact reply_moves w id _
    · split
      · exact cleared_moves _ id _
      · refine .head (.remember w targetId) (.head (.drop _ id) ?_)
        exact answer_moves (w := { w with cancelled := insert targetId w.cancelled }) hsome
          (Finset.mem_insert_self _ _)

omit htask in
lemma dispose_moves (connectionId : String) : Moves w (w.dispose id connectionId) := by
  unfold Host.dispose
  split
  · exact reply_moves w id _
  · exact cleared_moves _ id _

lemma dispatch_moves (env : Host.Env) : Moves w (w.dispatch id env command) := by
  cases command with
  | connect origin documentId key => exact connect_moves htask origin documentId key env
  | readAccess connectionId => exact readAccess_moves htask connectionId env
  | read connectionId readContext request =>
    exact read_moves htask connectionId readContext request env
  | authorize connectionId decodable => exact authorize_moves htask connectionId decodable env
  | execute connectionId authorizationId =>
    exact execute_moves htask connectionId authorizationId env
  | pull connectionId streamId ack => exact pull_moves htask connectionId streamId ack
  | cancel connectionId targetId => exact cancel_moves connectionId targetId
  | dispose connectionId => exact dispose_moves connectionId

end Accepted

lemma authorizeDone_moves {m : Mutation}
    (htask : w.tasks.lookup id = some (.authorizing connectionId m))
    (result : Except NativeError Authority) (env : Host.Env) :
    Moves w (w.authorizeDone id connectionId m result env) := by
  refine .head (.unpend w id) ?_
  refine moves_ite (fun _ => finished_moves (w.unpend id) m id _) fun hheld => ?_
  simp only [not_or] at hheld
  obtain ⟨-, howns, -, hbound⟩ := hheld
  have hsome : (w.unpend id).connection.isSome = true := connected_of_bound hbound
  rw [Bool.not_eq_false] at howns
  cases result with
  | error error => exact finished_moves (w.unpend id) m id _
  | ok authority =>
    dsimp only
    obtain ⟨handle, havailable, hhandle⟩ | ⟨code, after, hhandle, hafter⟩ :=
      uniqueHandle_cases (w.unpend id) .authorization env.draw
    · rw [hhandle]
      cases env.clock with
      | none =>
        exact .head
          (.named (w.unpend id) id _ handle .authorization .authorization m htask rfl howns
            hsome havailable (by decide))
          (.head (.finish _ m) (.single (.note _ (.replied id _) rfl)))
      | some now =>
        exact .head (.authorized (w.unpend id) id connectionId handle m authority htask howns hsome
          havailable) (.single (.note _ (.replied id _) rfl))
    · rw [hhandle]
      exact hafter.trans (finished_moves _ m id _)

lemma executeDone_moves {m : Mutation} {begun : Bool}
    (htask : w.tasks.lookup id = some (.executing connectionId m begun))
    (failed : Option NativeError) (env : Host.Env) :
    Moves w (w.finishStream id connectionId (.mutation m) failed true none env) := by
  refine .head (.unpend w id) ?_
  refine moves_ite (fun _ => finished_moves (w.unpend id) m id _) fun hheld => ?_
  simp only [not_or] at hheld
  obtain ⟨-, -, hbound, howns⟩ := hheld
  have hsome : (w.unpend id).connection.isSome = true := connected_of_bound hbound
  cases failed with
  | some error => exact finished_moves (w.unpend id) m id _
  | none =>
    dsimp only
    obtain ⟨handle, havailable, hhandle⟩ | ⟨code, after, hhandle, hafter⟩ :=
      uniqueHandle_cases (w.unpend id) .stream env.draw
    · rw [hhandle]
      exact .head (.opened (w.unpend id) id connectionId begun handle m htask
        (by simpa [Pending.mutation?] using howns) hsome havailable)
        (.single (.note _ (.replied id _) rfl))
    · rw [hhandle]
      exact hafter.trans (finished_moves _ m id _)

lemma readDone_moves (connectionId : String) (serial expires : Nat) (failed : Option NativeError)
    (env : Host.Env) :
    Moves w (w.finishStream id connectionId (.control serial) failed false (some expires) env) := by
  have hend : ∀ w answer, Moves w (w.releaseRead.reply id answer) := fun w answer =>
    .head (.release w) (reply_moves _ id answer)
  refine .head (.unpend w id) (moves_ite (fun _ => ?_) fun hheld => ?_)
  · cases (w.pending.lookup id).isSome with
    | true => exact hend (w.unpend id) _
    | false => exact reply_moves (w.unpend id) id _
  · simp only [not_or] at hheld
    have hsome : w.connection.isSome = true := connected_of_bound (w := w.unpend id) hheld.2.2.1
    cases failed with
    | some error => exact hend (w.unpend id) _
    | none =>
      dsimp only
      obtain ⟨handle, havailable, hhandle⟩ | ⟨code, after, hhandle, hafter⟩ :=
        uniqueHandle_cases (w.unpend id) .stream env.draw
      · rw [hhandle]
        exact .head (.openRead _ handle serial expires hsome havailable) (reply_moves _ id _)
      · rw [hhandle]
        exact hafter.trans (hend _ _)

lemma close_moves (streamId : String) (stream : Stream) :
    Moves w (w.closeStream streamId stream) := by
  refine .head (.close w streamId stream) ?_
  unfold Host.closeStream
  cases stream.mutation? with
  | none => exact .single (.release _)
  | some m => exact .single (.finish _ m)

lemma expire_timer_moves (timer : Timer) : Moves w (w.expire timer) := by
  cases timer with
  | authorization handle generation =>
    rw [Host.expire]
    split
    · exact moves_ite (fun _ => .single (.finish w _)) fun _ => .refl
    · exact .refl
  | stream streamId =>
    rw [Host.expire]
    split
    · exact close_moves streamId _
    · exact .refl

lemma pullDone_moves (connectionId streamId : String) (stream : Stream) (ack : Int) (p : Pending)
    (result : Except NativeError Chunk) :
    Moves w (w.pullDone id connectionId streamId stream ack p result) := by
  have hended : ∀ w : Host, Moves w
      (if (w.streams.lookup streamId).isSome then w.closeStream streamId stream else w) :=
    fun w => moves_ite (fun _ => close_moves streamId stream) fun _ => .refl
  refine .head (.unpend w id) (.head (.pulling _ stream.reader false) ?_)
  unfold Host.pullDone
  split
  · exact (hended _).trans (reply_moves _ id _)
  · cases result with
    | error error => exact (hended _).trans (reply_moves _ id _)
    | ok chunk =>
      refine .head (.note _ (.delivered stream.reader ack chunk) rfl)
        (.trans ?_ (reply_moves _ id _))
      exact moves_ite (fun _ => hended _) fun _ => .refl

theorem step_moves {event : Host.Event} {w' : Host} (h : w.step event = some w') : Moves w w' := by
  cases event with
  | receive frame =>
    cases h
    exact handle_moves frame
  | start id env =>
    rw [Host.step] at h
    split at h
    · rename_i command htask
      cases h
      exact dispatch_moves htask env
    · cases h
  | readDone id failed env =>
    rw [Host.step] at h
    split at h
    · cases h
      exact readDone_moves _ _ _ failed env
    · cases h
  | authorizeDone id result env =>
    rw [Host.step] at h
    split at h
    · rename_i connectionId m htask
      cases h
      exact authorizeDone_moves htask result env
    · cases h
  | begin id =>
    rw [Host.step] at h
    split at h
    · rename_i connectionId m htask
      cases h
      unfold Host.begin
      cases hdispatch : (w.cells (.mutation m)).dispatch with
      | ready => exact .single (.begin w id connectionId m htask hdispatch)
      | cancelled => exact .refl
      | begun => exact .refl
    · cases h
  | executeDone id failed env =>
    rw [Host.step] at h
    split at h
    · rename_i connectionId m begun htask
      split at h
      · cases h
        exact executeDone_moves htask failed env
      · cases h
    · cases h
  | chunk id response clock =>
    rw [Host.step] at h
    split at h
    · rename_i connectionId streamId stream ack p htask
      cases h
      exact .single (.chunk w id connectionId streamId stream ack p response clock htask)
    · cases h
  | pullDone id =>
    rw [Host.step] at h
    split at h
    · cases h
      exact pullDone_moves _ _ _ _ _ _
    · cases h
  | expire timer =>
    rw [Host.step] at h
    split at h
    · cases h
      exact .head (.timers w (w.timers.erase timer))
        (expire_timer_moves (w := { w with timers := w.timers.erase timer }) timer)
    · cases h
  | disconnect =>
    cases h
    exact .single (.clear w)

theorem run_moves {events : List Host.Event} {w w' : Host} (h : w.run events = some w') :
    Moves w w' := by
  induction events generalizing w with
  | nil =>
    cases h
    exact .refl
  | cons event events ih =>
    rw [Host.run] at h
    obtain ⟨between, hstep, hrun⟩ := Option.bind_eq_some_iff.1 h
    exact (step_moves hstep).trans (ih hrun)

lemma moves_of_reachable (h : Reachable w) : Moves Host.init w := by
  obtain ⟨events, hrun⟩ := h
  exact run_moves hrun

def hostAfter (events : List Host.Event) : Host := (Host.init.run events).getD Host.init

lemma reachable_hostAfter {events : List Host.Event}
    (h : (Host.init.run events).isSome = true) : Reachable (hostAfter events) := by
  obtain ⟨w, hrun⟩ := Option.isSome_iff_exists.1 h
  unfold hostAfter
  rw [hrun]
  exact ⟨events, hrun⟩

end DevGraph.Proofs.Browser
