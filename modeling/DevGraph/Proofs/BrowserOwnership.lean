import DevGraph.Proofs.BrowserMoves

/-!
# Everything alive belongs to the owned mutation

The tables of the host refer to one mutation at a time. What a task on its way still needs has been
reserved for it, so that naming a mutation never fails.
-/

namespace DevGraph.Proofs.Browser

open Lib DevGraph.Browser

variable {w : Host} {id : String} {m : Mutation}

def toldCells (w : Host) (id : String) (p : Pending) : Pending → Cell :=
  if id ∈ w.cancelled then (w.revoke p).cells else w.cells

lemma insertPending_eq (w : Host) (id : String) (p : Pending) :
    w.insertPending id p =
      { w with cells := toldCells w id p, pending := w.pending.insert id p } := by
  unfold Host.insertPending toldCells
  split_ifs <;> rfl

lemma aliasMutation_eq {role : Role} {reserved : Nat}
    (h : w.reservedAliases.lookup m.generation = some (reserved + 1)) :
    w.aliasMutation role id m = { w with
      cells := toldCells w id (.mutation m)
      reservedAliases := w.reservedAliases.insert m.generation reserved
      aliases := w.aliases.insert id m
      panicked := w.panicked || (w.aliases.lookup id).isSome
      log := .aliased role id m :: w.log } := by
  unfold Host.aliasMutation toldCells
  rw [h]
  dsimp only
  split_ifs <;> rfl

structure Owned (w : Host) : Prop where
  empty : w.disposed = true → w.connection = none ∧ w.work = none
  aliases : ∀ id m, w.aliases.lookup id = some m → w.work = some m
  authorizations : ∀ id a m, w.authorizations.lookup id = some (a, m) → w.work = some m
  streams : ∀ id stream m, w.streams.lookup id = some stream → stream.mutation? = some m →
    w.work = some m
  pending : ∀ id m, w.pending.lookup id = some (.mutation m) → w.work = some m
  reservations : ∀ generation n, w.reservedAliases.lookup generation = some n →
    w.work = some ⟨generation⟩
  busy : ∀ id task m, w.tasks.lookup id = some task → task.busy? = some m → w.work = some m →
    ∃ n, w.reservedAliases.lookup m.generation = some (n + 1)
  busy_unique : ∀ id id' task task' m, w.tasks.lookup id = some task →
    w.tasks.lookup id' = some task' → task.busy? = some m → task'.busy? = some m →
    w.work = some m → id = id'
  authorized_idle : ∀ handle a m id task, w.authorizations.lookup handle = some (a, m) →
    w.tasks.lookup id = some task → task.busy? ≠ some m
  authorized_unique : ∀ handle handle' a a', w.authorizations.lookup handle = some a →
    w.authorizations.lookup handle' = some a' → handle = handle'
  work_generation : ∀ m, w.work = some m → m.generation ≤ w.nextGeneration
  busy_generation : ∀ id task m, w.tasks.lookup id = some task → task.busy? = some m →
    m.generation ≤ w.nextGeneration
  seen : w.disposed = false → ∀ id task, w.tasks.lookup id = some task → id ∈ w.seen
  accepted : ∀ id command, w.tasks.lookup id = some (.accepted command) → w.aliases.lookup id = none
  room : w.used ≤ maxAliases
  sound : w.panicked = false

section Kept

variable (h : Owned w)
include h

lemma Owned.live (hsome : w.connection.isSome = true) : w.disposed = false := by
  cases hdisposed : w.disposed with
  | false => rfl
  | true =>
    rw [(h.empty hdisposed).1] at hsome
    cases hsome

omit h in
lemma owns_iff : w.owns m = true ↔ w.work = some m := by
  unfold Host.owns
  cases w.work with
  | none => simp
  | some n =>
    obtain ⟨generation⟩ := n
    obtain ⟨generation'⟩ := m
    simp

/-- The mutation is owned, ids are left for it and nothing works on it. -/
structure Free (w : Host) (m : Mutation) : Prop where
  owned : w.work = some m
  reserved : ∃ n, w.reservedAliases.lookup m.generation = some (n + 1)
  unauthorized : ∀ handle, w.authorizations.lookup handle = none
  idle : ∀ id task, w.tasks.lookup id = some task → task.busy? ≠ some m

/-! ## Moves keep ownership -/

lemma Owned.dropTask (id : String) : Owned (w.dropTask id) :=
  { h with
    busy := fun _ _ _ hlookup => h.busy _ _ _ (Table.of_erase hlookup).2
    busy_unique := fun _ _ _ _ _ hone htwo =>
      h.busy_unique _ _ _ _ _ (Table.of_erase hone).2 (Table.of_erase htwo).2
    authorized_idle := fun _ _ _ _ _ hauthority hlookup =>
      h.authorized_idle _ _ _ _ _ hauthority (Table.of_erase hlookup).2
    busy_generation := fun _ _ _ hlookup => h.busy_generation _ _ _ (Table.of_erase hlookup).2
    seen := fun hlive _ _ hlookup => h.seen hlive _ _ (Table.of_erase hlookup).2
    accepted := fun _ _ hlookup => h.accepted _ _ (Table.of_erase hlookup).2 }

/-- A task works on what its id worked on before, or on a free mutation. -/
lemma Owned.insertTask (id : String) (task : Task) (seen : Finset String)
    (hbusy : ∀ m, task.busy? = some m → Free w m ∨
      ∃ before, w.tasks.lookup id = some before ∧ before.busy? = some m)
    (hseen : w.disposed = false → id ∈ seen ∧ w.seen ⊆ seen)
    (haccepted : ∀ command, task = .accepted command → w.aliases.lookup id = none) :
    Owned { w with tasks := w.tasks.insert id task, seen } := by
  have hcases : ∀ {id' task' m}, (w.tasks.insert id task).lookup id' = some task' →
      task'.busy? = some m → (id' = id ∧ Free w m) ∨
        ∃ before, w.tasks.lookup id' = some before ∧ before.busy? = some m := by
    intro id' task' m hlookup htask
    obtain ⟨rfl, rfl⟩ | ⟨-, hlookup⟩ := Table.of_insert hlookup
    · exact (hbusy m htask).imp_left fun hfree => ⟨rfl, hfree⟩
    · exact .inr ⟨task', hlookup, htask⟩
  exact
  { h with
    busy := fun id' task' m hlookup htask howned => by
      obtain ⟨-, hfree⟩ | ⟨before, hbefore, hm⟩ := hcases hlookup htask
      · exact hfree.reserved
      · exact h.busy id' before m hbefore hm howned
    busy_unique := fun id₁ id₂ task₁ task₂ m hone htwo hbusy₁ hbusy₂ howned => by
      obtain ⟨hid₁, hfree₁⟩ | ⟨before₁, hbefore₁, hm₁⟩ := hcases hone hbusy₁
      all_goals obtain ⟨hid₂, hfree₂⟩ | ⟨before₂, hbefore₂, hm₂⟩ := hcases htwo hbusy₂
      · rw [hid₁, hid₂]
      · exact absurd hm₂ (hfree₁.idle id₂ before₂ hbefore₂)
      · exact absurd hm₁ (hfree₂.idle id₁ before₁ hbefore₁)
      · exact h.busy_unique id₁ id₂ before₁ before₂ m hbefore₁ hbefore₂ hm₁ hm₂ howned
    authorized_idle := fun handle a m id' task' hauthority hlookup htask => by
      obtain ⟨-, hfree⟩ | ⟨before, hbefore, hm⟩ := hcases hlookup htask
      · cases (hfree.unauthorized handle).symm.trans hauthority
      · exact h.authorized_idle handle a m id' before hauthority hbefore hm
    busy_generation := fun id' task' m hlookup htask => by
      obtain ⟨-, hfree⟩ | ⟨before, hbefore, hm⟩ := hcases hlookup htask
      · exact h.work_generation m hfree.owned
      · exact h.busy_generation id' before m hbefore hm
    seen := fun hlive id' task' hlookup => by
      obtain ⟨rfl, -⟩ | ⟨-, hlookup⟩ := Table.of_insert hlookup
      · exact (hseen hlive).1
      · exact (hseen hlive).2 (h.seen hlive id' task' hlookup)
    accepted := fun id' command hlookup => by
      obtain ⟨rfl, hsame⟩ | ⟨-, hlookup⟩ := Table.of_insert hlookup
      · exact haccepted command hsame.symm
      · exact h.accepted id' command hlookup }

lemma Owned.setTask {before : Task} (task : Task)
    (hbefore : w.tasks.lookup id = some before)
    (hbusy : ∀ m, task.busy? = some m → Free w m ∨ before.busy? = some m)
    (htask : ∀ command, task ≠ .accepted command) : Owned (w.setTask id task) :=
  h.insertTask id task w.seen
    (fun m hm => (hbusy m hm).imp_right fun hm => ⟨before, hbefore, hm⟩)
    (fun hlive => ⟨h.seen hlive id before hbefore, Finset.Subset.refl _⟩)
    fun command hsame => absurd hsame (htask command)

lemma Owned.unpend (id : String) : Owned (w.unpend id) :=
  { h with pending := fun _ _ hlookup => h.pending _ _ (Table.of_erase hlookup).2 }

lemma Owned.dropStream (streamId : String) (stream : Stream) :
    Owned (w.dropStream streamId stream) :=
  { h with streams := fun _ _ _ hlookup => h.streams _ _ _ (Table.of_erase hlookup).2 }

lemma Owned.releaseRead : Owned w.releaseRead := { h with }

lemma Owned.clear : Owned w.clear where
  empty := fun _ => ⟨rfl, rfl⟩
  aliases := nofun
  authorizations := nofun
  streams := nofun
  pending := nofun
  reservations := nofun
  busy := fun _ _ _ _ _ howned => nomatch howned
  busy_unique := fun _ _ _ _ _ _ _ _ _ howned => nomatch howned
  authorized_idle := fun _ _ _ _ _ hlookup => nomatch hlookup
  authorized_unique := fun _ _ _ _ hlookup => nomatch hlookup
  work_generation := nofun
  busy_generation := h.busy_generation
  seen := fun hlive => nomatch hlive
  accepted := fun _ _ _ => rfl
  room := Nat.zero_le _
  sound := h.sound

lemma Owned.create : Owned w.create :=
  { h with
    work_generation := fun m howned => (h.work_generation m howned).trans (Nat.le_succ _)
    busy_generation := fun id task m hlookup htask =>
      (h.busy_generation id task m hlookup htask).trans (Nat.le_succ _) }

lemma Owned.accept (frame : Frame) (halias : w.aliases.lookup frame.id = none) :
    Owned (w.accept frame) :=
  { h.insertTask frame.id (.accepted frame.command) (insert frame.id w.seen)
      nofun
      (fun _ => ⟨Finset.mem_insert_self _ _, Finset.subset_insert _ _⟩) fun _ _ => halias with }

omit h in
lemma used_finish_le (w : Host) (m : Mutation) : (w.finishMutation m).2.used ≤ w.used := by
  have haliases := Table.total_retain_add (fun _ => 1) (fun n => decide (n ≠ m)) w.aliases
  have hkeys := Table.length_keysOf (fun n => decide (n = m)) w.aliases
  have hhistory := Table.total_insertAll_le (fun _ => 1) (w.aliases.keysOf fun n => decide (n = m))
    (w.cells (.mutation m)).dispatch.cancel.1 w.terminalHistory
  have hreserved := Table.total_erase (fun n => n) w.reservedAliases m.generation
  have hsame : (w.aliases.retain fun n => !decide (n ≠ m)) =
      w.aliases.retain fun n => decide (n = m) := by simp
  rw [hsame] at haliases
  change (w.aliases.retain fun n => decide (n ≠ m)).total (fun _ => 1) +
    (w.terminalHistory.insertAll (w.aliases.keysOf fun n => decide (n = m))
      (w.cells (.mutation m)).dispatch.cancel.1).total (fun _ => 1) +
    (w.reservedAliases.erase m.generation).total (fun n => n) ≤
    w.aliases.total (fun _ => 1) + w.terminalHistory.total (fun _ => 1) +
      w.reservedAliases.total fun n => n
  unfold Table.size at hkeys
  omega

lemma Owned.finish (m : Mutation) : Owned (w.finishMutation m).2 := by
  have hwork : ∀ n, w.work = some n → n ≠ m → (w.finishMutation m).2.work = some n := by
    intro n howned hne
    have howns : ¬ w.owns m = true := by
      intro howns
      rw [owns_iff, howned] at howns
      exact hne (Option.some.inj howns)
    exact (if_neg howns).trans howned
  have hback : ∀ n, (w.finishMutation m).2.work = some n → w.work = some n ∧ n ≠ m := by
    intro n howned
    change (if w.owns m then none else w.work) = some n at howned
    split_ifs at howned with howns
    refine ⟨howned, fun hsame => howns ?_⟩
    rw [owns_iff, howned, hsame]
  exact
  { h with
    empty := fun hdisposed => ⟨(h.empty hdisposed).1, by
      change (if w.owns m then none else w.work) = none
      rw [(h.empty hdisposed).2, ite_self]⟩
    aliases := fun id n hlookup => by
      obtain ⟨hlookup, hne⟩ := Table.of_retain hlookup
      exact hwork n (h.aliases id n hlookup) (by simpa using hne)
    authorizations := fun id a n hlookup => by
      obtain ⟨hlookup, hne⟩ := Table.of_retain hlookup
      exact hwork n (h.authorizations id a n hlookup) (by simpa using hne)
    streams := fun id stream n hlookup hmutation => by
      obtain ⟨hlookup, hne⟩ := Table.of_retain hlookup
      apply hwork n (h.streams id stream n hlookup hmutation)
      simpa [hmutation] using hne
    pending := fun id n hlookup => by
      obtain ⟨hlookup, hne⟩ := Table.of_retain hlookup
      exact hwork n (h.pending id n hlookup) (by simpa [Pending.mutation?] using hne)
    reservations := fun generation n hlookup => by
      obtain ⟨hne, hlookup⟩ := Table.of_erase hlookup
      apply hwork _ (h.reservations generation n hlookup)
      intro hsame
      exact hne (congrArg Mutation.generation hsame)
    busy := fun id task n hlookup htask howned => by
      obtain ⟨howned, hne⟩ := hback n howned
      obtain ⟨k, hreserved⟩ := h.busy id task n hlookup htask howned
      refine ⟨k, (Table.lookup_erase _ _ _).trans ((if_neg fun hsame => hne ?_).trans hreserved)⟩
      obtain ⟨_⟩ := n
      obtain ⟨_⟩ := m
      exact congrArg Mutation.mk hsame
    busy_unique := fun id id' task task' n hone htwo htask htask' howned =>
      h.busy_unique id id' task task' n hone htwo htask htask' (hback n howned).1
    authorized_idle := fun handle a n id task hauthority =>
      h.authorized_idle handle a n id task (Table.of_retain hauthority).1
    authorized_unique := fun handle handle' a a' hone htwo =>
      h.authorized_unique handle handle' a a' (Table.of_retain hone).1 (Table.of_retain htwo).1
    work_generation := fun n howned => h.work_generation n (hback n howned).1
    accepted := fun id command hlookup => by
      refine (Table.lookup_retain _ _ _).trans ?_
      rw [h.accepted id command hlookup]
      rfl
    room := (used_finish_le w m).trans h.room }

omit h in
lemma handle_fresh {handle : String} (h : w.handleAvailable handle = true) :
    handle ∉ w.seen ∧ handle ∉ w.generatedHandles ∧ handle ∉ w.cancelled ∧
      w.aliases.lookup handle = none ∧ w.terminalHistory.lookup handle = none ∧
      w.streams.lookup handle = none ∧ w.authorizations.lookup handle = none := by
  simp only [Host.handleAvailable, Bool.and_eq_true, decide_eq_true_eq, Option.isNone_iff_eq_none]
    at h
  tauto

omit h in
lemma used_reserved (w : Host) (m : Mutation) (count : Nat) :
    (w.reserved m count).used = w.used + count := by
  have htotal := Table.total_insert (fun n => n) w.reservedAliases m.generation
    ((w.reservedAliases.lookup m.generation).getD 0 + count)
  have hold : (w.reservedAliases.lookup m.generation).elim 0 (fun n => n) =
      (w.reservedAliases.lookup m.generation).getD 0 := by
    cases w.reservedAliases.lookup m.generation <;> rfl
  change w.aliases.size + w.terminalHistory.size + Table.total (fun n => n)
      (w.reservedAliases.insert m.generation
        ((w.reservedAliases.lookup m.generation).getD 0 + count)) =
    w.aliases.size + w.terminalHistory.size + Table.total (fun n => n) w.reservedAliases + count
  omega

lemma Owned.reserved (howned : w.work = some m) {count : Nat}
    (hroom : w.used + count ≤ maxAliases) : Owned (w.reserved m count) :=
  { h with
    reservations := fun generation n hlookup => by
      obtain ⟨rfl, -⟩ | ⟨-, hlookup⟩ := Table.of_insert hlookup
      · exact howned
      · exact h.reservations generation n hlookup
    busy := fun id task n hlookup htask howns => by
      obtain ⟨k, hreserved⟩ := h.busy id task n hlookup htask howns
      cases howned.symm.trans howns
      refine ⟨k + count, (Table.lookup_insert _ _ _ _).trans ((if_pos rfl).trans ?_)⟩
      rw [hreserved, Option.getD_some, Nat.add_right_comm]
    room := (used_reserved w m count).trans_le hroom }

omit h in
lemma reserved_lookup (w : Host) (m : Mutation) (count : Nat) :
    (w.reserved m count).reservedAliases.lookup m.generation =
      some ((w.reservedAliases.lookup m.generation).getD 0 + count) :=
  (Table.lookup_insert _ _ _ _).trans (if_pos rfl)

lemma Owned.alias {reserved : Nat} (role : Role) (id : String)
    (howned : w.work = some m)
    (hreserved : w.reservedAliases.lookup m.generation = some (reserved + 1))
    (hfresh : w.aliases.lookup id = none)
    (hbusy : ∀ id task, w.tasks.lookup id = some task → task.busy? = some m → reserved ≠ 0)
    (haccepted : ∀ command, w.tasks.lookup id ≠ some (.accepted command)) :
    Owned (w.aliasMutation role id m) := by
  rw [aliasMutation_eq hreserved]
  exact
  { h with
    aliases := fun id' n hlookup => by
      obtain ⟨-, rfl⟩ | ⟨-, hlookup⟩ := Table.of_insert hlookup
      · exact howned
      · exact h.aliases id' n hlookup
    reservations := fun generation n hlookup => by
      obtain ⟨rfl, -⟩ | ⟨-, hlookup⟩ := Table.of_insert hlookup
      · exact howned
      · exact h.reservations generation n hlookup
    busy := fun id' task n hlookup htask howns => by
      cases howned.symm.trans howns
      refine ⟨reserved - 1, (Table.lookup_insert _ _ _ _).trans ((if_pos rfl).trans ?_)⟩
      rw [Nat.sub_add_cancel (Nat.pos_of_ne_zero (hbusy id' task hlookup htask))]
    accepted := fun id' command hlookup => by
      refine (Table.lookup_insert _ _ _ _).trans ((if_neg ?_).trans (h.accepted _ _ hlookup))
      rintro rfl
      exact haccepted command hlookup
    room := by
      have hroom : w.aliases.size + w.terminalHistory.size +
        Table.total (fun n => n) w.reservedAliases ≤ maxAliases := h.room
      have htotal := Table.total_insert (fun n => n) w.reservedAliases m.generation reserved
      change (w.aliases.insert id m).size + w.terminalHistory.size +
        Table.total (fun n => n) (w.reservedAliases.insert m.generation reserved) ≤ maxAliases
      rw [hreserved, Option.elim_some] at htotal
      rw [Table.size_insert hfresh]
      omega
    sound := by
      change (w.panicked || (w.aliases.lookup id).isSome) = false
      rw [hfresh, h.sound]
      rfl }

omit h in
lemma dropTask_aliasMutation (w : Host) (role : Role) (handle : String) (m : Mutation)
    (id : String) : (w.aliasMutation role handle m).dropTask id =
      (w.dropTask id).aliasMutation role handle m := by
  unfold Host.aliasMutation Host.dropTask
  dsimp only
  split
  · split_ifs <;> rfl
  · rfl

lemma Owned.handle {task : Task} {handle : String} (role : Role) (use : Use)
    (htask : w.tasks.lookup id = some task) (hbusy : task.busy? = some m)
    (howned : w.work = some m) (hlive : w.disposed = false)
    (hhandle : w.handleAvailable handle = true) :
    Owned (((w.generate handle use).aliasMutation role handle m).dropTask id) := by
  obtain ⟨reserved, hreserved⟩ := h.busy id task m htask hbusy howned
  obtain ⟨hseen, -, -, hfresh, -⟩ := handle_fresh hhandle
  have hdropped : Owned ((w.generate handle use).dropTask id) := { h.dropTask id with }
  rw [dropTask_aliasMutation]
  refine hdropped.alias role handle howned hreserved hfresh ?_ ?_
  · intro id' task' hlookup htask'
    obtain ⟨hne, hlookup⟩ := Table.of_erase hlookup
    exact absurd (h.busy_unique id' id task' task m hlookup htask htask' hbusy howned) hne
  · exact fun command hlookup => hseen (hdropped.seen hlive handle _ hlookup)

/-- A command of the owned mutation starts: its id names the mutation from now on. -/
lemma Owned.start {command : Command} {task : Task} {role : Role} {reserved : Nat}
    (htask : w.tasks.lookup id = some (.accepted command)) (howned : w.work = some m)
    (hreserved : w.reservedAliases.lookup m.generation = some (reserved + 1))
    (hkind : ∀ command, task ≠ .accepted command)
    (hbusy : task.busy? = some m ∧ Free w m ∧ reserved ≠ 0 ∨ task.busy? = none ∧
      ∀ id task, w.tasks.lookup id = some task → task.busy? = some m → reserved ≠ 0) :
    Owned ((w.mutationPending role id m).setTask id task) := by
  have hstarted : Owned (w.setTask id task) := by
    refine h.setTask task htask (fun n hn => .inl ?_) hkind
    obtain ⟨hm, hfree, -⟩ | ⟨hnone, -⟩ := hbusy
    · cases hm.symm.trans hn
      exact hfree
    · cases hnone.symm.trans hn
  have hnamed : Owned ((w.setTask id task).aliasMutation role id m) := by
    refine hstarted.alias role id howned hreserved (h.accepted id command htask) ?_ ?_
    · intro id' task' hlookup htask'
      obtain ⟨-, -, hne⟩ | ⟨hnone, hothers⟩ := hbusy
      · exact hne
      · obtain ⟨-, rfl⟩ | ⟨-, hlookup⟩ := Table.of_insert hlookup
        · cases hnone.symm.trans htask'
        · exact hothers id' task' hlookup htask'
    · intro command' hlookup
      obtain ⟨-, hsame⟩ | ⟨hne, -⟩ := Table.of_insert hlookup
      · exact hkind command' hsame.symm
      · exact hne rfl
  rw [aliasMutation_eq (w := w.setTask id task) hreserved] at hnamed
  unfold Host.mutationPending
  rw [aliasMutation_eq hreserved, insertPending_eq]
  exact
  { hnamed with
    pending := fun id' n hlookup => by
      obtain ⟨-, hsame⟩ | ⟨-, hlookup⟩ := Table.of_insert hlookup
      · cases hsame
        exact howned
      · exact h.pending id' n hlookup }

lemma Owned.keepAuthority (howned : w.work = some m)
    (hnone : ∀ handle, w.authorizations.lookup handle = none)
    (hidle : ∀ id task, w.tasks.lookup id = some task → task.busy? ≠ some m) (handle : String)
    (authority : Authority) : Owned (w.keepAuthority handle authority m) := by
  have hinsert : ∀ handle' a, (w.keepAuthority handle authority m).authorizations.lookup handle' =
      some a → handle' = handle ∧ a = (authority, m) := by
    intro handle' a hlookup
    obtain hsame | ⟨-, hlookup⟩ := Table.of_insert hlookup
    · exact hsame
    · cases (hnone handle').symm.trans hlookup
  exact
  { h with
    authorizations := fun handle' a n hlookup => by
      cases (hinsert handle' (a, n) hlookup).2
      exact howned
    authorized_idle := fun handle' a n id task hlookup => by
      cases (hinsert handle' (a, n) hlookup).2
      exact hidle id task
    authorized_unique := fun handle₁ handle₂ a₁ a₂ hone htwo =>
      (hinsert handle₁ a₁ hone).1.trans (hinsert handle₂ a₂ htwo).1.symm }

lemma Owned.openStream {p : Pending} (hp : ∀ m, p.mutation? = some m → w.work = some m)
    (handle : String) (dispatched : Bool) (lease : Option Nat) :
    Owned (w.openStream handle p dispatched lease) :=
  { h with
    streams := fun handle' stream n hlookup hmutation => by
      obtain ⟨-, rfl⟩ | ⟨-, hlookup⟩ := Table.of_insert hlookup
      · exact hp n hmutation
      · exact h.streams handle' stream n hlookup hmutation }

lemma Owned.idle_next {task : Task} (hlookup : w.tasks.lookup id = some task) :
    task.busy? ≠ some w.nextMutation :=
  fun htask => absurd (h.busy_generation id task _ hlookup htask) (Nat.not_succ_le_self _)

lemma Owned.next (hwork : w.work = none) (hlive : w.disposed = false) :
    Owned { w.create with work := some w.nextMutation } := by
  have hnone : ∀ {n : Mutation}, w.work ≠ some n := fun howned => nomatch hwork.symm.trans howned
  exact
  { h.create with
    empty := fun hdisposed => nomatch hlive.symm.trans hdisposed
    aliases := fun id n hlookup => absurd (h.aliases id n hlookup) hnone
    authorizations := fun id a n hlookup => absurd (h.authorizations id a n hlookup) hnone
    streams := fun id stream n hlookup hmutation =>
      absurd (h.streams id stream n hlookup hmutation) hnone
    pending := fun id n hlookup => absurd (h.pending id n hlookup) hnone
    reservations := fun generation n hlookup => absurd (h.reservations generation n hlookup) hnone
    busy := fun id task n hlookup htask howned => by
      cases howned
      exact absurd htask (h.idle_next hlookup)
    busy_unique := fun id id' task task' n hlookup _ htask _ howned => by
      cases howned
      exact absurd htask (h.idle_next hlookup)
    work_generation := fun n howned => by
      cases howned
      exact le_refl _ }

lemma Owned.spend (authorizationId : String) :
    Owned { w with authorizations := w.authorizations.erase authorizationId } :=
  { h with
    authorizations := fun _ _ _ hlookup => h.authorizations _ _ _ (Table.of_erase hlookup).2
    authorized_idle := fun _ _ _ _ _ hlookup =>
      h.authorized_idle _ _ _ _ _ (Table.of_erase hlookup).2
    authorized_unique := fun _ _ _ _ hone htwo =>
      h.authorized_unique _ _ _ _ (Table.of_erase hone).2 (Table.of_erase htwo).2 }

lemma Owned.pendingControl (id : String) : Owned (w.pendingControl id) := by
  unfold Host.pendingControl
  rw [insertPending_eq]
  exact
  { h with
    pending := fun id' m hlookup => by
      obtain ⟨-, hsame⟩ | ⟨-, hlookup⟩ := Table.of_insert hlookup
      · cases hsame
      · exact h.pending id' m hlookup }

end Kept

lemma pendingControl_tasks (w : Host) (id : String) : (w.pendingControl id).tasks = w.tasks := by
  unfold Host.pendingControl
  rw [insertPending_eq]
  rfl

lemma nextChunk_eq (w : Host) (stream : Stream) (ack : Int) (p : Pending)
    (response : Except NativeError (Nat × Bool)) (clock : Option Nat) :
    ∃ readers, (w.nextChunk stream ack p response clock).2 = { w with readers } := by
  unfold Host.nextChunk
  dsimp only
  cases response with
  | error error => split_ifs <;> exact ⟨_, rfl⟩
  | ok chunk => split_ifs <;> exact ⟨_, rfl⟩

theorem Owned.move {w w' : Host} (h : Owned w) (hmove : Move w w') : Owned w' := by
  cases hmove with
  | note mark _ => exact { h with }
  | timers timers => exact { h with }
  | accept frame _ _ _ halias _ _ => exact h.accept frame halias
  | clear => exact h.clear
  | create => exact h.create
  | drop id => exact h.dropTask id
  | unpend id => exact h.unpend id
  | pulling n running => exact { h with }
  | release => exact h.releaseRead
  | close streamId stream => exact h.dropStream streamId stream
  | handled id command handle use connection htask hlive _ _ =>
    have hlive : w.disposed = false := hlive.elim (fun h => h) h.live
    have hconnected : Owned { w.generate handle use with connection := some connection } :=
      { h with empty := fun hdisposed => nomatch hlive.symm.trans hdisposed }
    exact hconnected.dropTask id
  | startRead id command connection expires htask =>
    have hreads : Owned { w with reads := w.reads + 1 } := { h with }
    apply (hreads.pendingControl id).setTask
    · rw [pendingControl_tasks]
      exact htask
    · exact nofun
    · exact nofun
  | startMutation id command connection htask hbound hwork hroom =>
    have hnext := (h.next hwork (h.live hbound)).reserved rfl hroom
    have hreserved := reserved_lookup { w.create with work := some w.nextMutation } w.nextMutation 2
    refine hnext.start htask rfl hreserved nofun
      (.inl ⟨rfl, ⟨rfl, ⟨_, hreserved⟩, fun handle => ?_, fun _ _ => h.idle_next⟩,
        Nat.succ_ne_zero _⟩)
    cases hlookup : w.authorizations.lookup handle with
    | none => exact hlookup
    | some a => cases hwork.symm.trans (h.authorizations handle a.1 a.2 hlookup)
  | finish m => exact h.finish m
  | named id task handle role use m htask hbusy howns hbound hhandle _ =>
    exact h.handle role use htask hbusy (owns_iff.1 howns) (h.live hbound) hhandle
  | authorized id connection handle m authority htask howns hbound hhandle =>
    have howned := owns_iff.1 howns
    obtain ⟨reserved, hreserved⟩ := h.busy id _ m htask rfl howned
    have hnamed := h.handle .authorization .authorization htask rfl howned (h.live hbound) hhandle
    rw [aliasMutation_eq (w := w.generate handle .authorization) hreserved] at hnamed ⊢
    refine hnamed.keepAuthority howned (fun handle' => ?_) ?_ handle authority
    · cases hlookup : w.authorizations.lookup handle' with
      | none => exact hlookup
      | some a =>
        have howner := h.authorizations handle' a.1 a.2 hlookup
        cases howned.symm.trans howner
        exact absurd rfl (h.authorized_idle handle' a.1 a.2 id _ hlookup htask)
    · intro id' task hlookup hbusy
      obtain ⟨hne, hlookup⟩ := Table.of_erase hlookup
      exact hne (h.busy_unique id' id task _ m hlookup htask hbusy rfl howned)
  | startExecute id command connection authorizationId authority m htask hbound hauthority hroom =>
    have howned := h.authorizations authorizationId authority m hauthority
    have hspent := (h.reserved howned hroom).spend authorizationId
    refine hspent.start htask howned (reserved_lookup w m 2) nofun
      (.inl ⟨rfl, ⟨howned, ⟨_, reserved_lookup w m 2⟩, fun handle => ?_, fun id task =>
        h.authorized_idle authorizationId authority m id task hauthority⟩, Nat.succ_ne_zero _⟩)
    refine (Table.lookup_erase _ _ _).trans ?_
    split_ifs with hne
    · rfl
    · cases hlookup : w.authorizations.lookup handle with
      | none => exact hlookup
      | some a => exact absurd (h.authorized_unique _ _ _ _ hlookup hauthority) hne
  | begin id connection m htask _ =>
    have hcell : Owned
        (w.setCell (.mutation m) { w.cells (.mutation m) with dispatch := .begun }) :=
      { h with }
    have htold := hcell.setTask (.executing connection m true) htask (fun _ => .inr)
      nofun
    exact { htold with }
  | opened id connection begun handle m htask howns hbound hhandle =>
    have howned := owns_iff.1 howns
    obtain ⟨reserved, hreserved⟩ := h.busy id _ m htask rfl howned
    have hnamed := h.handle .stream .stream htask rfl howned (h.live hbound) hhandle
    rw [aliasMutation_eq (w := w.generate handle .stream) hreserved] at hnamed ⊢
    refine hnamed.openStream ?_ handle true none
    intro n hmutation
    cases hmutation
    exact howned
  | openRead handle serial expires _ _ =>
    have hgenerated : Owned (w.generate handle .stream) := { h with }
    refine hgenerated.openStream ?_ handle false (some expires)
    intro _ hmutation
    cases hmutation
  | startPull id command connection streamId stream ack m htask hbound hstream hmutation hroom =>
    have howned := h.streams streamId stream m hstream hmutation
    have hpulling : Owned (w.setPulling stream.reader true) := { h with }
    refine (hpulling.reserved howned hroom).start htask howned (reserved_lookup w m 1)
      nofun (.inr ⟨rfl, ?_⟩)
    intro id' task hlookup hbusy
    obtain ⟨k, hreserved⟩ := h.busy id' task m hlookup hbusy howned
    rw [hreserved]
    exact Nat.succ_ne_zero k
  | startPullRead id command connection streamId stream ack htask _ =>
    have hpulling : Owned (w.setPulling stream.reader true) := { h with }
    apply (hpulling.pendingControl id).setTask
    · rw [pendingControl_tasks]
      exact htask
    · exact nofun
    · exact nofun
  | chunk id connection streamId stream ack p response clock htask =>
    obtain ⟨readers, hreaders⟩ := nextChunk_eq w stream ack p response clock
    rw [hreaders]
    have hread : Owned { w with readers } := { h with }
    exact hread.setTask _ htask nofun nofun
  | remember targetId => exact { h with }
  | tell targetId p _ _ => exact { h with }
  | answer _ _ _ _ _ _ => exact { h with }
  | cancelStream targetId stream _ _ _ _ _ _ =>
    exact { (h.dropStream targetId stream).releaseRead with }

lemma Owned.init : Owned Host.init where
  empty := nofun
  aliases := nofun
  authorizations := nofun
  streams := nofun
  pending := nofun
  reservations := nofun
  busy := fun _ _ _ hlookup => nomatch hlookup
  busy_unique := fun _ _ _ _ _ hlookup => nomatch hlookup
  authorized_idle := fun _ _ _ _ _ hlookup => nomatch hlookup
  authorized_unique := fun _ _ _ _ hlookup => nomatch hlookup
  work_generation := nofun
  busy_generation := fun _ _ _ hlookup => nomatch hlookup
  seen := nofun
  accepted := nofun
  room := Nat.zero_le _
  sound := rfl

theorem owned_of_moves (h : Moves Host.init w) : Owned w := by
  induction h with
  | refl => exact Owned.init
  | tail _ hmove ih => exact ih.move hmove

end DevGraph.Proofs.Browser
