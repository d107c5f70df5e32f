import DevGraph.Proofs.BrowserOwnership

/-!
# An id names one thing

Ids of commands and generated handles are told apart by the log: each is given out once, and a
mutation that an id was an alias of is the only one it ever names.
-/

namespace DevGraph.Browser

def Mark.naming : Mark → Bool
  | .accepted _ | .generated .. | .aliased .. => true
  | _ => false

def Mark.name? : Mark → Option String
  | .accepted id | .generated id _ => some id
  | _ => none

def Host.namings (w : Host) : List Mark := w.log.filter Mark.naming

def Host.names (w : Host) : List String := w.namings.filterMap Mark.name?

end DevGraph.Browser

namespace DevGraph.Proofs.Browser

open Lib DevGraph.Browser

variable {w : Host} {id : String} {m : Mutation}

def Unaliased (w : Host) (id : String) : Prop := ∀ role m, .aliased role id m ∉ w.namings

/-- The id is an alias of the mutation or, without one, never was an alias. -/
def Binds (w : Host) (id : String) : Option Mutation → Prop
  | some m => w.aliases.lookup id = some m
  | none => Unaliased w id

/-- What the host holds under an id has a mark that gave the id out. -/
structure Traced (marks : List Mark) (w : Host) : Prop where
  tasks : ∀ id task, w.tasks.lookup id = some task → .accepted id ∈ marks
  aliases : ∀ id m, w.aliases.lookup id = some m → ∃ role, .aliased role id m ∈ marks
  history : ∀ id dispatched, w.terminalHistory.lookup id = some dispatched →
    ∃ role m, .aliased role id m ∈ marks
  pulling : ∀ id connection streamId stream ack p result,
    w.tasks.lookup id = some (.pulling connection streamId stream ack p result) →
    .generated streamId .stream ∈ marks ∧
      ∀ other, w.streams.lookup streamId = some other → other = stream
  lease : ∀ connection lease, w.connection = some connection → connection.read = some lease →
    .generated lease.id .lease ∈ marks

structure Named (w : Host) : Prop extends Traced w.namings w where
  nodup : w.names.Nodup
  seen : w.disposed = false → ∀ id, id ∈ w.seen ↔ .accepted id ∈ w.namings
  handles : w.disposed = false →
    ∀ id, id ∈ w.generatedHandles ↔ ∃ use, .generated id use ∈ w.namings
  roles : ∀ role id m, .aliased role id m ∈ w.namings → id ∈ w.names
  unique : ∀ role role' id m m', .aliased role id m ∈ w.namings →
    .aliased role' id m' ∈ w.namings → role = role' ∧ m = m'
  fresh : ∀ id command, w.tasks.lookup id = some (.accepted command) →
    Unaliased w id ∧ w.pending.lookup id = none
  known : w.disposed = false → ∀ role id m, .aliased role id m ∈ w.namings →
    w.aliases.lookup id = some m ∨ (w.terminalHistory.lookup id).isSome = true
  streams : ∀ id stream, w.streams.lookup id = some stream →
    .generated id .stream ∈ w.namings ∧ Binds w id stream.mutation?
  pending : ∀ id p, w.pending.lookup id = some p →
    .accepted id ∈ w.namings ∧ Binds w id p.mutation?

lemma Traced.cons {marks : List Mark} (h : Traced marks w) (mark : Mark) :
    Traced (mark :: marks) w where
  tasks id task hlookup := List.mem_cons_of_mem _ (h.tasks id task hlookup)
  aliases id m hlookup := (h.aliases id m hlookup).imp fun _ => List.mem_cons_of_mem _
  history id dispatched hlookup :=
    (h.history id dispatched hlookup).imp fun _ => .imp fun _ => List.mem_cons_of_mem _
  pulling id connection streamId stream ack p result hlookup :=
    (h.pulling id connection streamId stream ack p result hlookup).imp_left
      (List.mem_cons_of_mem _)
  lease connection lease hconnection hread :=
    List.mem_cons_of_mem _ (h.lease connection lease hconnection hread)

lemma mem_names : id ∈ w.names ↔
    .accepted id ∈ w.namings ∨ ∃ use, .generated id use ∈ w.namings := by
  unfold Host.names
  rw [List.mem_filterMap]
  constructor
  · rintro ⟨mark, hmem, hname⟩
    cases mark
    case accepted =>
      cases hname
      exact .inl hmem
    case generated use =>
      cases hname
      exact .inr ⟨use, hmem⟩
    all_goals cases hname
  · rintro (hmem | ⟨use, hmem⟩)
    · exact ⟨_, hmem, rfl⟩
    · exact ⟨_, hmem, rfl⟩

section Kept

variable (h : Named w)
include h

lemma Named.disjoint {use : Use} (haccepted : .accepted id ∈ w.namings) :
    .generated id use ∉ w.namings := by
  intro hgenerated
  have hnodup := h.nodup
  unfold Host.names at hnodup
  obtain ⟨before, after, hsplit⟩ := List.append_of_mem haccepted
  rw [hsplit] at hgenerated hnodup
  simp only [List.mem_append, List.mem_cons, reduceCtorEq, false_or] at hgenerated
  rw [List.filterMap_append, List.filterMap_cons] at hnodup
  have hmem : ∀ marks : List Mark, .generated id use ∈ marks → id ∈ marks.filterMap Mark.name? :=
    fun marks hmem => List.mem_filterMap.2 ⟨_, hmem, rfl⟩
  simp only [Mark.name?, List.nodup_append, List.nodup_cons, List.mem_cons] at hnodup
  obtain hbefore | hafter := hgenerated
  · exact hnodup.2.2 id (hmem _ hbefore) id (.inl rfl) rfl
  · exact hnodup.2.1.1 (hmem _ hafter)

lemma Named.relog {log : List Mark} (hlog : log.filter Mark.naming = w.namings) :
    Named { w with log } := by
  have hnamings : Host.namings { w with log } = w.namings := hlog
  have hnames : Host.names { w with log } = w.names := congrArg (List.filterMap Mark.name?) hlog
  have hunaliased : ∀ id, Unaliased { w with log } id ↔ Unaliased w id := by
    unfold Unaliased
    rw [hnamings]
    exact fun _ => Iff.rfl
  have hbinds : ∀ id p, Binds { w with log } id p ↔ Binds w id p := by
    intro id p
    cases p with
    | none => exact hunaliased id
    | some m => exact Iff.rfl
  obtain ⟨htraced, _, _, _, _, _, _, _, _, _⟩ := h
  constructor
  case toTraced =>
    rw [hnamings]
    exact { htraced with }
  all_goals
    simp only [hnamings, hnames, hunaliased, hbinds]
    assumption

lemma Named.note {mark : Mark} (hmark : mark.naming = false) :
    Named (w.note mark) :=
  h.relog (List.filter_cons_of_neg (by rw [hmark]; exact Bool.false_ne_true))

lemma Named.dropTask (id : String) : Named (w.dropTask id) :=
  { h with
    tasks := fun _ _ hlookup => h.tasks _ _ (Table.of_erase hlookup).2
    fresh := fun _ _ hlookup => h.fresh _ _ (Table.of_erase hlookup).2
    pulling := fun _ _ _ _ _ _ _ hlookup => h.pulling _ _ _ _ _ _ _ (Table.of_erase hlookup).2 }

/-- A pull is of a stream that the host named, and of the one it still knows. -/
def PullsNamed (w : Host) (task : Task) : Prop :=
  ∀ connection streamId stream ack p result,
    task = .pulling connection streamId stream ack p result →
    .generated streamId .stream ∈ w.namings ∧
      ∀ other, w.streams.lookup streamId = some other → other = stream

variable {task : Task}

lemma Named.insertTask (haccepted : .accepted id ∈ w.namings)
    (hfresh : ∀ command, task = .accepted command →
      Unaliased w id ∧ w.pending.lookup id = none)
    (hpulling : PullsNamed w task) :
    Named (w.setTask id task) :=
  { h with
    tasks := fun id' task' hlookup => by
      obtain ⟨rfl, -⟩ | ⟨-, hlookup⟩ := Table.of_insert hlookup
      · exact haccepted
      · exact h.tasks id' task' hlookup
    fresh := fun id' command hlookup => by
      obtain ⟨rfl, hsame⟩ | ⟨-, hlookup⟩ := Table.of_insert hlookup
      · exact hfresh command hsame.symm
      · exact h.fresh id' command hlookup
    pulling := fun id' connection streamId stream ack p result hlookup => by
      obtain ⟨-, hsame⟩ | ⟨-, hlookup⟩ := Table.of_insert hlookup
      · exact hpulling connection streamId stream ack p result hsame.symm
      · exact h.pulling id' connection streamId stream ack p result hlookup }

lemma Named.setTask {before : Task} (task : Task)
    (hbefore : w.tasks.lookup id = some before) (hkind : ∀ command, task ≠ .accepted command)
    (hpulling : PullsNamed w task) :
    Named (w.setTask id task) :=
  h.insertTask (h.tasks id before hbefore) (fun command htask => absurd htask (hkind command))
    hpulling

lemma Named.unpend (id : String) : Named (w.unpend id) :=
  { h with
    fresh := fun id' command hlookup => by
      obtain ⟨hunaliased, hnone⟩ := h.fresh id' command hlookup
      exact ⟨hunaliased, (Table.lookup_erase _ _ _).trans (by rw [hnone, ite_self])⟩
    pending := fun _ _ hlookup => h.pending _ _ (Table.of_erase hlookup).2 }

lemma Named.dropStream (streamId : String) (stream : Stream) :
    Named (w.dropStream streamId stream) :=
  { h with
    streams := fun _ _ hlookup => h.streams _ _ (Table.of_erase hlookup).2
    pulling := fun id connection streamId stream ack p result hlookup => by
      obtain ⟨hgenerated, hsame⟩ := h.pulling id connection streamId stream ack p result hlookup
      exact ⟨hgenerated, fun other hother => hsame other (Table.of_erase hother).2⟩ }

lemma Named.releaseRead : Named w.releaseRead := { h with }

omit h in
lemma closed_namings (streams : List Stream) (log : List Mark) :
    (streams.map (fun stream => Mark.closed stream.reader) ++ log).filter Mark.naming =
      log.filter Mark.naming := by
  rw [List.filter_append, List.filter_eq_nil_iff.2, List.nil_append]
  intro mark hmem
  obtain ⟨stream, -, rfl⟩ := List.mem_map.1 hmem
  exact Bool.false_ne_true

lemma Named.clear : Named w.clear :=
  have hlog : Named { w with log := w.clear.log } := h.relog (closed_namings w.streams.values w.log)
  { hlog with
    fresh := fun id command hlookup => ⟨(hlog.fresh id command hlookup).1, rfl⟩
    pulling := fun id connection streamId stream ack p result hlookup =>
      ⟨(hlog.pulling id connection streamId stream ack p result hlookup).1, nofun⟩
    seen := nofun
    handles := nofun
    known := nofun
    aliases := nofun
    history := nofun
    streams := nofun
    pending := nofun
    lease := nofun }

omit h in
lemma finish_aliases (w : Host) (m : Mutation) (id : String) :
    (w.finishMutation m).2.aliases.lookup id = (w.aliases.lookup id).filter fun n => n ≠ m :=
  Table.lookup_retain _ _ _

omit h in
lemma finish_history (w : Host) (m : Mutation) (id : String) :
    (w.finishMutation m).2.terminalHistory.lookup id =
      if w.aliases.lookup id = some m then some (w.finishMutation m).1
      else w.terminalHistory.lookup id := by
  refine (Table.lookup_insertAll _ _ _ _).trans ?_
  simp only [Table.mem_keysOf, decide_eq_true_eq, exists_eq_right]
  rfl

lemma Named.finish (m : Mutation) : Named (w.finishMutation m).2 := by
  have hlog : Named { w with log := (w.finishMutation m).2.log } :=
    h.relog (closed_namings _ w.log)
  have hbinds : ∀ {id p}, Binds { w with log := (w.finishMutation m).2.log } id p → p ≠ some m →
      Binds (w.finishMutation m).2 id p := by
    intro id p hbinds hne
    cases p with
    | none => exact hbinds
    | some n =>
      unfold Binds at hbinds ⊢
      rw [finish_aliases, hbinds, Option.filter_some, if_pos]
      simpa using hne
  exact
  { hlog with
    fresh := fun id command hlookup => by
      obtain ⟨hunaliased, hnone⟩ := hlog.fresh id command hlookup
      refine ⟨hunaliased, (Table.lookup_retain _ _ _).trans ?_⟩
      rw [hnone]
      rfl
    aliases := fun id n hlookup => hlog.aliases id n (Table.of_retain hlookup).1
    known := fun hlive role id n hmem => by
      rw [finish_aliases, finish_history]
      obtain hlookup | hsome := hlog.known hlive role id n hmem
      · rw [hlookup]
        by_cases hsame : n = m
        · rw [hsame, if_pos rfl]
          exact .inr rfl
        · rw [Option.filter_some, if_pos (by simpa using hsame)]
          exact .inl rfl
      · right
        split_ifs
        · rfl
        · exact hsome
    history := fun id dispatched hlookup => by
      rw [finish_history] at hlookup
      split_ifs at hlookup with halias
      · obtain ⟨role, hmem⟩ := hlog.aliases id m halias
        exact ⟨role, m, hmem⟩
      · exact hlog.history id dispatched hlookup
    streams := fun id stream hlookup => by
      obtain ⟨hlookup, hne⟩ := Table.of_retain hlookup
      obtain ⟨hgenerated, hbound⟩ := hlog.streams id stream hlookup
      exact ⟨hgenerated, hbinds hbound (by simpa using hne)⟩
    pending := fun id p hlookup => by
      obtain ⟨hlookup, hne⟩ := Table.of_retain hlookup
      obtain ⟨haccepted, hbound⟩ := hlog.pending id p hlookup
      exact ⟨haccepted, hbinds hbound (by simpa using hne)⟩
    pulling := fun id connection streamId stream ack p result hlookup => by
      obtain ⟨hgenerated, hsame⟩ := hlog.pulling id connection streamId stream ack p result hlookup
      exact ⟨hgenerated, fun other hother => hsame other (Table.of_retain hother).1⟩ }

lemma Unaliased.of_new (hnew : id ∉ w.names) : Unaliased w id :=
  fun role m hmem => hnew (h.roles role id m hmem)

lemma Named.mint (mark : Mark) (hmark : mark.name? = some id) (hnew : id ∉ w.names)
    (seen generatedHandles : Finset String)
    (hseen : w.disposed = false → ∀ id, id ∈ seen ↔ .accepted id ∈ mark :: w.namings)
    (hhandles : w.disposed = false →
      ∀ id, id ∈ generatedHandles ↔ ∃ use, .generated id use ∈ mark :: w.namings) :
    Named { w with seen, generatedHandles, log := mark :: w.log } := by
  have hnaming : mark.naming = true := by
    cases mark <;> first | rfl | cases hmark
  have hnamings : (mark :: w.log).filter Mark.naming = mark :: w.namings :=
    List.filter_cons_of_pos hnaming
  have hnames : (mark :: w.namings).filterMap Mark.name? = id :: w.names := by
    rw [List.filterMap_cons, hmark]
    rfl
  have haliased : ∀ {role id' n}, .aliased role id' n ∈ mark :: w.namings →
      .aliased role id' n ∈ w.namings := by
    intro role id' n hmem
    refine (List.mem_cons.1 hmem).resolve_left ?_
    rintro rfl
    cases hmark
  have hbinds : ∀ {id p}, Binds w id p →
      Binds { w with seen, generatedHandles, log := mark :: w.log } id p := by
    intro id' p hbinds
    cases p with
    | none =>
      unfold Binds Unaliased Host.namings
      rw [hnamings]
      exact fun role n hmem => hbinds role n (haliased hmem)
    | some n => exact hbinds
  constructor
  case fresh =>
    intro id' command hlookup
    obtain ⟨hunaliased, hnone⟩ := h.fresh id' command hlookup
    exact ⟨hbinds (p := none) hunaliased, hnone⟩
  all_goals
    try unfold Host.names
    unfold Host.namings
    rw [hnamings]
  case toTraced => exact { h.cons mark with }
  case nodup =>
    rw [hnames]
    exact List.nodup_cons.2 ⟨hnew, h.nodup⟩
  case seen => exact hseen
  case handles => exact hhandles
  case roles =>
    intro role id' n hmem
    rw [hnames]
    exact List.mem_cons_of_mem _ (h.roles role id' n (haliased hmem))
  case unique =>
    intro role role' id' n n' hone htwo
    exact h.unique role role' id' n n' (haliased hone) (haliased htwo)
  case known => exact fun hlive role id' n hrole => h.known hlive role id' n (haliased hrole)
  case streams =>
    intro id' stream hlookup
    obtain ⟨hgenerated, hbound⟩ := h.streams id' stream hlookup
    exact ⟨List.mem_cons_of_mem _ hgenerated, hbinds hbound⟩
  case pending =>
    intro id' p hlookup
    obtain ⟨haccepted, hbound⟩ := h.pending id' p hlookup
    exact ⟨List.mem_cons_of_mem _ haccepted, hbinds hbound⟩

lemma Named.unpended (hnew : id ∉ w.names) : w.pending.lookup id = none := by
  cases hlookup : w.pending.lookup id with
  | none => rfl
  | some p => exact absurd (mem_names.2 (.inl (h.pending id p hlookup).1)) hnew

lemma Named.accept (frame : Frame) (hlive : w.disposed = false)
    (hhandle : frame.id ∉ w.generatedHandles) (hseen : frame.id ∉ w.seen) :
    Named (w.accept frame) := by
  have hnew : frame.id ∉ w.names := by
    rw [mem_names, ← h.seen hlive, ← h.handles hlive]
    exact not_or.2 ⟨hseen, hhandle⟩
  have hminted := h.mint (.accepted frame.id) rfl hnew (insert frame.id w.seen)
    w.generatedHandles ?_ ?_
  · refine hminted.insertTask List.mem_cons_self (fun _ _ => ⟨?_, h.unpended hnew⟩) nofun
    exact fun role m hmem => hnew (h.roles role frame.id m
      ((List.mem_cons.1 hmem).resolve_left nofun))
  · intro _ id
    rw [Finset.mem_insert, h.seen hlive, List.mem_cons, Mark.accepted.injEq]
  · intro _ id
    simp only [h.handles hlive, List.mem_cons, reduceCtorEq, false_or]

lemma Named.new_handle (hlive : w.disposed = false) {handle : String}
    (hhandle : w.handleAvailable handle = true) : handle ∉ w.names := by
  obtain ⟨hseen, hgenerated, -⟩ := handle_fresh hhandle
  rw [mem_names, ← h.seen hlive, ← h.handles hlive]
  exact not_or.2 ⟨hseen, hgenerated⟩

lemma Named.generate (hlive : w.disposed = false) {handle : String} (use : Use)
    (hhandle : w.handleAvailable handle = true) : Named (w.generate handle use) := by
  refine h.mint (.generated handle use) rfl (h.new_handle hlive hhandle) w.seen
    (insert handle w.generatedHandles) ?_ ?_
  · intro _ id
    simp only [h.seen hlive, List.mem_cons, reduceCtorEq, false_or]
  · intro _ id
    rw [Finset.mem_insert, h.handles hlive]
    simp only [List.mem_cons, Mark.generated.injEq, exists_or, exists_and_left, exists_eq,
      and_true]

lemma Named.name (role : Role) (hfresh : Unaliased w id) (hnamed : id ∈ w.names)
    (hstreams : w.streams.lookup id = none) (hpending : w.pending.lookup id = none)
    (htask : ∀ command, w.tasks.lookup id ≠ some (.accepted command)) :
    Named { w with aliases := w.aliases.insert id m, log := .aliased role id m :: w.log } := by
  have haliased : ∀ role' id' n, .aliased role' id' n ∈ .aliased role id m :: w.namings ↔
      (role' = role ∧ id' = id ∧ n = m) ∨ .aliased role' id' n ∈ w.namings := by
    intro role' id' n
    rw [List.mem_cons, Mark.aliased.injEq]
  have hbinds : ∀ {id' p}, id' ≠ id → Binds w id' p →
      Binds
        { w with aliases := w.aliases.insert id m, log := .aliased role id m :: w.log } id' p := by
    intro id' p hne hbinds
    cases p with
    | none =>
      intro role' n hmem
      obtain ⟨-, hid, -⟩ | hmem := (haliased role' id' n).1 hmem
      · exact hne hid
      · exact hbinds role' n hmem
    | some n =>
      refine (Table.lookup_insert _ _ _ _).trans ?_
      rw [if_neg hne]
      exact hbinds
  have hother : ∀ mark : Mark, (∀ role id n, mark ≠ .aliased role id n) →
      (mark ∈ .aliased role id m :: w.namings ↔ mark ∈ w.namings) := by
    intro mark hmark
    rw [List.mem_cons, or_iff_right (hmark role id m)]
  constructor
  case toTraced =>
    refine { h.cons (.aliased role id m) with aliases := fun id' n hlookup => ?_ }
    obtain ⟨rfl, rfl⟩ | ⟨-, hlookup⟩ := Table.of_insert hlookup
    · exact ⟨role, List.mem_cons_self⟩
    · exact (h.cons _).aliases id' n hlookup
  case nodup => exact h.nodup
  case seen =>
    intro hlive id'
    exact (h.seen hlive id').trans (hother (.accepted id') nofun).symm
  case handles =>
    intro hlive id'
    exact (h.handles hlive id').trans
      (exists_congr fun use => (hother (.generated id' use) nofun).symm)
  case roles =>
    intro role' id' n hmem
    obtain ⟨-, rfl, -⟩ | hmem := (haliased role' id' n).1 hmem
    · exact hnamed
    · exact h.roles role' id' n hmem
  case unique =>
    intro role₁ role₂ id' n₁ n₂ hone htwo
    obtain ⟨hrole₁, hid₁, hn₁⟩ | hone := (haliased role₁ id' n₁).1 hone
    all_goals obtain ⟨hrole₂, hid₂, hn₂⟩ | htwo := (haliased role₂ id' n₂).1 htwo
    · exact ⟨hrole₁.trans hrole₂.symm, hn₁.trans hn₂.symm⟩
    · exact absurd (hid₁ ▸ htwo) (hfresh role₂ n₂)
    · exact absurd (hid₂ ▸ hone) (hfresh role₁ n₁)
    · exact h.unique role₁ role₂ id' n₁ n₂ hone htwo
  case fresh =>
    intro id' command hlookup
    have hne : id' ≠ id := by
      rintro rfl
      exact htask command hlookup
    exact ⟨hbinds (p := none) hne (h.fresh id' command hlookup).1, (h.fresh id' command hlookup).2⟩
  case known =>
    intro hlive role' id' n hmem
    change (w.aliases.insert id m).lookup id' = some n ∨ _
    rw [Table.lookup_insert]
    obtain ⟨-, hid, hn⟩ | hmem := (haliased role' id' n).1 hmem
    · rw [if_pos hid, hn]
      exact .inl rfl
    · rw [if_neg fun hid : id' = id => hfresh role' n (hid ▸ hmem)]
      exact h.known hlive role' id' n hmem
  case streams =>
    intro id' stream hlookup
    have hne : id' ≠ id := by
      rintro rfl
      cases hstreams.symm.trans hlookup
    exact ⟨List.mem_cons_of_mem _ (h.streams id' stream hlookup).1,
      hbinds hne (h.streams id' stream hlookup).2⟩
  case pending =>
    intro id' p hlookup
    have hne : id' ≠ id := by
      rintro rfl
      cases hpending.symm.trans hlookup
    exact ⟨List.mem_cons_of_mem _ (h.pending id' p hlookup).1,
      hbinds hne (h.pending id' p hlookup).2⟩

lemma Named.pend {p : Pending} (haccepted : .accepted id ∈ w.namings)
    (hbinds : Binds w id p.mutation?)
    (htask : ∀ command, w.tasks.lookup id ≠ some (.accepted command)) :
    Named { w with pending := w.pending.insert id p } :=
  { h with
    fresh := fun id' command hlookup => by
      obtain ⟨hunaliased, hnone⟩ := h.fresh id' command hlookup
      refine ⟨hunaliased, (Table.lookup_insert _ _ _ _).trans ?_⟩
      rw [if_neg, hnone]
      rintro rfl
      exact htask command hlookup
    pending := fun id' p' hlookup => by
      obtain ⟨rfl, rfl⟩ | ⟨-, hlookup⟩ := Table.of_insert hlookup
      · exact ⟨haccepted, hbinds⟩
      · exact h.pending id' p' hlookup }

lemma Named.openStream {handle : String} {p : Pending}
    (hgenerated : .generated handle .stream ∈ w.namings) (hbinds : Binds w handle p.mutation?)
    (hpulls : ∀ id connection stream ack p result,
      w.tasks.lookup id ≠ some (.pulling connection handle stream ack p result))
    (dispatched : Bool) (lease : Option Nat) : Named (w.openStream handle p dispatched lease) :=
  { h with
    streams := fun id stream hlookup => by
      obtain ⟨rfl, rfl⟩ | ⟨-, hlookup⟩ := Table.of_insert hlookup
      · exact ⟨hgenerated, hbinds⟩
      · exact h.streams id stream hlookup
    pulling := fun id connection streamId stream ack p result hlookup => by
      obtain ⟨hstream, hsame⟩ := h.pulling id connection streamId stream ack p result hlookup
      refine ⟨hstream, fun other hother => ?_⟩
      obtain ⟨rfl, -⟩ | ⟨-, hother⟩ := Table.of_insert hother
      · exact absurd hlookup (hpulls id connection stream ack p result)
      · exact hsame other hother }

/-! ## Moves keep names -/

omit h in
lemma setTask_lookup (w : Host) (id : String) (task : Task) :
    (w.setTask id task).tasks.lookup id = some task :=
  (Table.lookup_insert _ _ _ _).trans (if_pos rfl)

omit h in
lemma setTask_not_accepted (hkind : ∀ command, task ≠ .accepted command)
    (command : Command) : (w.setTask id task).tasks.lookup id ≠ some (.accepted command) := by
  rw [setTask_lookup]
  intro htask
  exact hkind command (Option.some.inj htask)

lemma Named.startControl {command : Command}
    (htask : w.tasks.lookup id = some (.accepted command))
    (hkind : ∀ command, task ≠ .accepted command)
    (hpulling : PullsNamed w task) :
    Named ((w.pendingControl id).setTask id task) := by
  have hset := h.setTask task htask hkind hpulling
  have hpend := hset.pend (p := .control w.nextSerial) (h.tasks id _ htask)
    (h.fresh id command htask).1 (setTask_not_accepted hkind)
  unfold Host.pendingControl
  rw [insertPending_eq]
  exact { hpend with }

lemma Named.start {command : Command} {reserved : Nat}
    (htask : w.tasks.lookup id = some (.accepted command))
    (hreserved : w.reservedAliases.lookup m.generation = some (reserved + 1)) (role : Role)
    (hkind : ∀ command, task ≠ .accepted command)
    (hpulling : PullsNamed w task) :
    Named ((w.mutationPending role id m).setTask id task) := by
  have haccepted := h.tasks id _ htask
  have hstreams : w.streams.lookup id = none := by
    cases hlookup : w.streams.lookup id with
    | none => rfl
    | some stream => exact absurd (h.streams id stream hlookup).1 (h.disjoint haccepted)
  have hname := (h.setTask task htask hkind hpulling).name (m := m) role
    (h.fresh id command htask).1 (mem_names.2 (.inl haccepted)) hstreams
    (h.fresh id command htask).2 (setTask_not_accepted hkind)
  have hpend := hname.pend (p := .mutation m) (List.mem_cons_of_mem _ haccepted)
    ((Table.lookup_insert _ _ _ _).trans (if_pos rfl)) (setTask_not_accepted hkind)
  unfold Host.mutationPending
  rw [aliasMutation_eq hreserved, insertPending_eq]
  exact { hpend with }

lemma unaliased_generated {handle : String} (hnew : handle ∉ w.names) (use : Use)
    (role : Role) (m : Mutation) :
    .aliased role handle m ∉ .generated handle use :: w.namings := by
  rw [List.mem_cons, not_or]
  exact ⟨nofun, Unaliased.of_new h hnew role m⟩

lemma Named.handle (hlive : w.disposed = false) {handle : String} {reserved : Nat}
    (hreserved : w.reservedAliases.lookup m.generation = some (reserved + 1))
    (hhandle : w.handleAvailable handle = true) (role : Role) (use : Use) :
    Named ((w.generate handle use).aliasMutation role handle m) := by
  have hnew := h.new_handle hlive hhandle
  have hgenerate := h.generate hlive use hhandle
  have hunaliased : Unaliased (w.generate handle use) handle := unaliased_generated h hnew use
  have hname := hgenerate.name (m := m) role hunaliased List.mem_cons_self
    (handle_fresh hhandle).2.2.2.2.2.1 (h.unpended hnew)
    (fun command hlookup => hnew (mem_names.2 (.inl (h.tasks handle _ hlookup))))
  rw [aliasMutation_eq (w := w.generate handle use) hreserved]
  exact { hname with }

lemma Named.unpulled {handle : String} (hnew : handle ∉ w.names) :
    ∀ id connection stream ack p result,
      w.tasks.lookup id ≠ some (.pulling connection handle stream ack p result) := by
  intro id connection stream ack p result hlookup
  exact hnew (mem_names.2 (.inr ⟨_, (h.pulling id _ _ _ _ _ _ hlookup).1⟩))

end Kept

theorem Named.move {w w' : Host} (h : Named w) (howned : Owned w) (hmove : Move w w') :
    Named w' := by
  cases hmove with
  | note mark hmark =>
    apply h.note
    cases mark <;> first | rfl | cases hmark
  | timers timers => exact { h with }
  | accept frame hlive _ hhandle _ _ hseen => exact h.accept frame hlive hhandle hseen
  | clear => exact h.clear
  | create => exact { h with }
  | drop id => exact h.dropTask id
  | unpend id => exact h.unpend id
  | pulling n running => exact { h with }
  | release => exact h.releaseRead
  | close streamId stream => exact h.dropStream streamId stream
  | handled id command handle use connection htask hlive hhandle hread =>
    have hlive : w.disposed = false := hlive.elim (fun h => h) howned.live
    have hconnected : Named { w.generate handle use with connection := some connection } :=
      { h.generate hlive use hhandle with
        lease := fun c lease hc hlease => by
          cases hc
          obtain ⟨hid, huse⟩ | ⟨c, hc, hlease⟩ := hread lease hlease
          · rw [hid, huse]
            exact List.mem_cons_self
          · exact List.mem_cons_of_mem _ (h.lease c lease hc hlease) }
    exact hconnected.dropTask id
  | startRead id command connection expires htask =>
    have hreads : Named { w with reads := w.reads + 1 } := { h with }
    exact hreads.startControl htask nofun nofun
  | startMutation id command connection htask _ _ _ =>
    have hnext : Named { w.create.reserved w.nextMutation 2 with work := some w.nextMutation } :=
      { h with }
    exact hnext.start htask (reserved_lookup w.create w.nextMutation 2) .authorize
      nofun nofun
  | finish m => exact h.finish m
  | named id task handle role use m htask hbusy howns hbound hhandle _ =>
    obtain ⟨reserved, hreserved⟩ := howned.busy id task m htask hbusy (owns_iff.1 howns)
    exact (h.handle (howned.live hbound) hreserved hhandle role use).dropTask id
  | authorized id connection handle m authority htask howns hbound hhandle =>
    obtain ⟨reserved, hreserved⟩ := howned.busy id _ m htask rfl (owns_iff.1 howns)
    have hnamed := h.handle (howned.live hbound) hreserved hhandle .authorization .authorization
    have hkept : Named (((w.generate handle .authorization).aliasMutation .authorization handle
      m).keepAuthority handle authority m) := { hnamed with }
    exact hkept.dropTask id
  | startExecute id command connection authorizationId authority m htask _ _ _ =>
    have hspent : Named { w.reserved m 2 with
      authorizations := w.authorizations.erase authorizationId } := { h with }
    exact hspent.start htask (reserved_lookup w m 2) .execute nofun nofun
  | begin id connection m htask _ =>
    have hcell : Named
        (w.setCell (.mutation m) { w.cells (.mutation m) with dispatch := .begun }) :=
      { h with }
    exact (hcell.setTask (.executing connection m true) htask nofun nofun).note rfl
  | opened id connection begun handle m htask howns hbound hhandle =>
    obtain ⟨reserved, hreserved⟩ := howned.busy id _ m htask rfl (owns_iff.1 howns)
    have hnamed := h.handle (howned.live hbound) hreserved hhandle .stream .stream
    have hnew := h.new_handle (howned.live hbound) hhandle
    rw [aliasMutation_eq (w := w.generate handle .stream) hreserved] at hnamed ⊢
    refine (hnamed.openStream ?_ ?_ (h.unpulled hnew) true none).dropTask id
    · exact List.mem_cons_of_mem _ List.mem_cons_self
    · exact (Table.lookup_insert _ _ _ _).trans (if_pos rfl)
  | openRead handle serial expires hbound hhandle =>
    have hlive := howned.live hbound
    have hnew := h.new_handle hlive hhandle
    exact (h.generate hlive .stream hhandle).openStream (p := .control serial) List.mem_cons_self
      (unaliased_generated h hnew .stream) (h.unpulled hnew) false (some expires)
  | startPull id command connection streamId stream ack m htask _ hstream _ _ =>
    have hpulling : Named ((w.setPulling stream.reader true).reserved m 1) := { h with }
    refine hpulling.start htask (reserved_lookup w m 1) .pull nofun ?_
    rintro _ _ _ _ _ _ ⟨⟩
    exact ⟨(h.streams streamId stream hstream).1,
      fun other hother => Option.some.inj (hother.symm.trans hstream)⟩
  | startPullRead id command connection streamId stream ack htask hstream =>
    have hpulling : Named (w.setPulling stream.reader true) := { h with }
    refine hpulling.startControl htask nofun ?_
    rintro _ _ _ _ _ _ ⟨⟩
    exact ⟨(h.streams streamId stream hstream).1,
      fun other hother => Option.some.inj (hother.symm.trans hstream)⟩
  | chunk id connection streamId stream ack p response clock htask =>
    obtain ⟨readers, hreaders⟩ := nextChunk_eq w stream ack p response clock
    rw [hreaders]
    have hread : Named { w with readers } := { h with }
    refine hread.setTask _ htask nofun ?_
    rintro _ _ _ _ _ _ ⟨⟩
    exact h.pulling id _ _ _ _ _ _ htask
  | remember targetId => exact { h with }
  | tell targetId p _ _ => exact { h with }
  | answer _ _ _ _ _ _ => exact h.note rfl
  | cancelStream targetId stream _ _ _ _ _ _ =>
    exact (h.dropStream targetId stream).releaseRead.note rfl

lemma Named.init : Named Host.init where
  nodup := List.nodup_nil
  seen := fun _ _ => ⟨fun hmem => absurd hmem (Finset.notMem_empty _), nofun⟩
  handles := fun _ _ =>
    ⟨fun hmem => absurd hmem (Finset.notMem_empty _), fun ⟨_, hmem⟩ => nomatch hmem⟩
  roles := nofun
  unique := nofun
  tasks := nofun
  fresh := nofun
  aliases := nofun
  known := nofun
  history := nofun
  streams := nofun
  pending := nofun
  pulling := nofun
  lease := nofun

theorem named_of_moves (h : Moves Host.init w) : Named w := by
  induction h with
  | refl => exact Named.init
  | tail hmoves hmove ih => exact ih.move (owned_of_moves hmoves) hmove

end DevGraph.Proofs.Browser
