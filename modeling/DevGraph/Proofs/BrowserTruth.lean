import DevGraph.Proofs.BrowserNames

/-!
# What a cancellation answers

A mutation that is no longer ready stays as it is: once a cancellation has answered, its dispatch
has begun before or never will. Ids that were cancelled before they were used are told when they
become aliases of a mutation that has not been dispatched.
-/

namespace DevGraph.Browser

variable {dispatched : Bool}

def Mark.began? : Mark → Option Mutation
  | .began m => some m
  | _ => none

def Mark.quiet : Mark → Bool
  | .aliased .. | .began _ | .answered .. | .cleared => false
  | _ => true

def Host.dispatchOf (w : Host) (m : Mutation) : DispatchState := (w.cells (.mutation m)).dispatch

end DevGraph.Browser

namespace DevGraph.Proofs.Browser

open Lib DevGraph.Browser

variable {cells cells' : Pending → Cell}

variable {w : Host} {id : String} {m : Mutation}

/-- The mutation was dispatched or never will be, as the answer tells. -/
def Settled (w : Host) (m : Mutation) (dispatched : Bool) : Prop :=
  w.dispatchOf m = if dispatched then .begun else .cancelled

/-- Nothing is dispatched; a mutation that is ready may be cancelled. -/
structure Calm (cells cells' : Pending → Cell) : Prop where
  mutations : ∀ m, (cells' (.mutation m)).dispatch = (cells (.mutation m)).dispatch ∨
    (cells (.mutation m)).dispatch = .ready ∧ (cells' (.mutation m)).dispatch = .cancelled
  controls : ∀ n, (cells' (.control n)).dispatch = .begun → (cells (.control n)).dispatch = .begun

lemma Calm.refl (cells : Pending → Cell) : Calm cells cells := ⟨fun _ => .inl rfl, fun _ h => h⟩

lemma cancel_calm (state : DispatchState) :
    state.cancel.2 = state ∨ state = .ready ∧ state.cancel.2 = .cancelled := by
  cases state
  · exact .inr ⟨rfl, rfl⟩
  · exact .inl rfl
  · exact .inl rfl

lemma cancel_settled (state : DispatchState) :
    state.cancel.2 = if state.cancel.1 then .begun else .cancelled := by
  cases state <;> rfl

lemma revoke_cell (w : Host) (p q : Pending) :
    (w.revoke p).cells q = if q = p then (w.cells q).revoked else w.cells q := by
  unfold Host.revoke Host.setCell
  dsimp only
  split_ifs with hsame
  · rw [hsame]
  · rfl

lemma setCell_of_ne {p q : Pending} (hne : q ≠ p) (cell : Cell) :
    (w.setCell p cell).cells q = w.cells q := if_neg hne

lemma calm_of_cells
    (hcells : ∀ p, (cells' p).dispatch = (cells p).dispatch ∨
      (cells' p).dispatch = (cells p).dispatch.cancel.2) : Calm cells cells' := by
  have hcalm : ∀ p, (cells' p).dispatch = (cells p).dispatch ∨
      (cells p).dispatch = .ready ∧ (cells' p).dispatch = .cancelled := by
    intro p
    obtain hsame | hcancel := hcells p
    · exact .inl hsame
    · rw [hcancel]
      exact cancel_calm _
  refine ⟨fun m => hcalm (.mutation m), fun n hbegun => ?_⟩
  obtain hsame | ⟨-, hcancelled⟩ := hcalm (.control n)
  · exact hsame.symm.trans hbegun
  · cases hbegun.symm.trans hcancelled

lemma revoke_calm (w : Host) (p : Pending) : Calm w.cells (w.revoke p).cells := by
  apply calm_of_cells
  intro q
  rw [revoke_cell]
  split_ifs
  · exact .inr rfl
  · exact .inl rfl

lemma told_calm (w : Host) (id : String) (p : Pending) : Calm w.cells (toldCells w id p) := by
  unfold toldCells
  split_ifs
  · exact revoke_calm w p
  · exact Calm.refl _

lemma clear_calm (w : Host) : Calm w.cells w.clear.cells := by
  apply calm_of_cells
  intro p
  unfold Host.clear
  dsimp only
  split_ifs
  · exact .inr rfl
  · exact .inl rfl
  · exact .inl rfl

lemma clear_work_settled (w : Host) (howned : w.work = some m) : w.clear.dispatchOf m ≠ .ready := by
  have hmem : Pending.mutation m ∈ w.work.toList.map Pending.mutation ++ w.pending.values := by
    rw [howned]
    exact List.mem_append_left _ List.mem_cons_self
  have hcell : w.clear.cells (.mutation m) = (w.cells (.mutation m)).revoked := if_pos hmem
  unfold Host.dispatchOf
  rw [hcell]
  change (w.cells (.mutation m)).dispatch.cancel.2 ≠ .ready
  cases (w.cells (.mutation m)).dispatch <;> exact nofun

structure Truthful (w : Host) : Prop where
  begun : ∀ m, .began m ∈ w.log ↔ w.dispatchOf m = .begun
  once : (w.log.filterMap Mark.began?).Nodup
  generations : ∀ m, (.began m ∈ w.log ∨ ∃ role id, .aliased role id m ∈ w.log) →
    m.generation ≤ w.nextGeneration
  ready : ∀ id task m, w.tasks.lookup id = some task → task.busy? = some m →
    w.dispatchOf m = .ready → w.work = some m
  authorized : ∀ id a m, w.authorizations.lookup id = some (a, m) → w.dispatchOf m ≠ .begun
  authorizing : ∀ id connection m, w.tasks.lookup id = some (.authorizing connection m) →
    w.dispatchOf m ≠ .begun
  controls : ∀ n, (w.cells (.control n)).dispatch ≠ .begun
  reads : ∀ id stream, w.streams.lookup id = some stream → stream.mutation? = none →
    stream.dispatched = false
  history : ∀ id dispatched, w.terminalHistory.lookup id = some dispatched →
    ∀ role m, .aliased role id m ∈ w.log → Settled w m dispatched
  answers : ∀ id dispatched earlier, .answered id dispatched :: earlier <:+ w.log →
    ∀ role m, .aliased role id m ∈ w.log → .aliased role id m ∈ earlier ∨ role ≠ .pull →
    Settled w m dispatched ∧ (dispatched = true → .began m ∈ earlier)
  unused : ∀ id dispatched, .answered id dispatched ∈ w.log → Unaliased w id → dispatched = false
  remembered : w.disposed = false → ∀ id dispatched, .answered id dispatched ∈ w.log →
    id ∈ w.cancelled
  cleared : .cleared ∈ w.log → w.disposed = true
  after_clear : ∀ m earlier, .began m :: earlier <:+ w.log → .cleared ∉ earlier

lemma mem_namings {mark : Mark} (hmark : mark.naming = true) :
    mark ∈ w.namings ↔ mark ∈ w.log := by
  unfold Host.namings
  rw [List.mem_filter, and_iff_left hmark]

lemma settled_of_calm (h : Calm cells cells') {state : DispatchState}
    (hstate : (cells (.mutation m)).dispatch = state) (hready : state ≠ .ready) :
    (cells' (.mutation m)).dispatch = state := by
  obtain hsame | ⟨hother, -⟩ := h.mutations m
  · exact hsame.trans hstate
  · exact absurd (hstate.symm.trans hother) hready

lemma Settled.calm {w' : Host} (h : Settled w m dispatched) (hcalm : Calm w.cells w'.cells) :
    Settled w' m dispatched := by
  refine settled_of_calm hcalm h ?_
  cases dispatched <;> exact nofun

lemma Calm.before (h : Calm cells cells') {state : DispatchState}
    (hstate : (cells' (.mutation m)).dispatch = state) (hlive : state ≠ .cancelled) :
    (cells (.mutation m)).dispatch = state := by
  obtain hsame | ⟨-, hcancelled⟩ := h.mutations m
  · exact hsame.symm.trans hstate
  · exact absurd (hstate.symm.trans hcancelled) hlive

section Kept

variable (h : Truthful w)
include h

/-- A mark of no dispatch is added: the answers for a new alias are true of it, an answer is true
now, and what is cleared is disposed of. -/
lemma Truthful.mark (mark : Mark) (hbegan : mark.began? = none)
    (haliased : ∀ role id m, mark = .aliased role id m → m.generation ≤ w.nextGeneration ∧
      w.terminalHistory.lookup id = none ∧
      ∀ dispatched earlier, .answered id dispatched :: earlier <:+ w.log →
        .aliased role id m ∈ earlier ∨ role ≠ .pull →
        Settled w m dispatched ∧ (dispatched = true → .began m ∈ earlier))
    (hanswered : ∀ id dispatched, mark = .answered id dispatched → id ∈ w.cancelled ∧
      (∀ role m, .aliased role id m ∈ w.log → Settled w m dispatched) ∧
      (Unaliased w id → dispatched = false))
    (hcleared : mark = .cleared → w.disposed = true) : Truthful (w.note mark) := by
  have hold : ∀ {m}, .began m ∈ mark :: w.log ↔ .began m ∈ w.log := by
    intro m
    rw [List.mem_cons, or_iff_right]
    rintro rfl
    cases hbegan
  exact
  { h with
    begun := fun m => hold.trans (h.begun m)
    once := by
      change ((mark :: w.log).filterMap Mark.began?).Nodup
      rw [List.filterMap_cons, hbegan]
      exact h.once
    generations := fun m hm => by
      obtain hmem | ⟨role, id, hmem⟩ := hm
      · exact h.generations m (.inl (hold.1 hmem))
      · obtain hnew | hmem := List.mem_cons.1 hmem
        · exact (haliased role id m hnew.symm).1
        · exact h.generations m (.inr ⟨role, id, hmem⟩)
    history := fun id dispatched hlookup role m hmem => by
      obtain hnew | hmem := List.mem_cons.1 hmem
      · cases (haliased role id m hnew.symm).2.1.symm.trans hlookup
      · exact h.history id dispatched hlookup role m hmem
    answers := fun id dispatched earlier hsuffix role m hmem hrole => by
      obtain hnew | hsuffix := List.suffix_cons_iff.1 hsuffix
      · obtain ⟨rfl, rfl⟩ := List.cons.inj hnew
        have hmem := (List.mem_cons.1 hmem).resolve_left nofun
        have htrue := (hanswered id dispatched rfl).2.1 role m hmem
        refine ⟨htrue, fun hdispatched => (h.begun m).2 ?_⟩
        rw [htrue, hdispatched, if_pos rfl]
      · obtain hnew | hmem := List.mem_cons.1 hmem
        · exact (haliased role id m hnew.symm).2.2 dispatched earlier hsuffix hrole
        · exact h.answers id dispatched earlier hsuffix role m hmem hrole
    unused := fun id dispatched hmem hunaliased => by
      have hbefore : Unaliased w id := by
        intro role m hrole
        refine hunaliased role m ((mem_namings rfl).2 (List.mem_cons_of_mem _ ?_))
        exact (mem_namings rfl).1 hrole
      obtain hnew | hmem := List.mem_cons.1 hmem
      · exact (hanswered id dispatched hnew.symm).2.2 hbefore
      · exact h.unused id dispatched hmem hbefore
    remembered := fun hlive id dispatched hmem => by
      obtain hnew | hmem := List.mem_cons.1 hmem
      · exact (hanswered id dispatched hnew.symm).1
      · exact h.remembered hlive id dispatched hmem
    cleared := fun hmem => (List.mem_cons.1 hmem).elim (fun hnew => hcleared hnew.symm) h.cleared
    after_clear := fun m earlier hsuffix => by
      obtain hnew | hsuffix := List.suffix_cons_iff.1 hsuffix
      · rw [← (List.cons.inj hnew).1] at hbegan
        cases hbegan
      · exact h.after_clear m earlier hsuffix }

lemma Truthful.note (mark : Mark) (hmark : mark.quiet = true) :
    Truthful (w.note mark) := by
  apply h.mark mark
  · cases mark <;> first | rfl | cases hmark
  · rintro _ _ _ rfl
    cases hmark
  · rintro _ _ rfl
    cases hmark
  · rintro rfl
    cases hmark

lemma Truthful.closed (streams : List Stream) :
    Truthful { w with log := streams.map (fun stream => .closed stream.reader) ++ w.log } := by
  induction streams with
  | nil => exact h
  | cons stream streams ih => exact ih.note (.closed stream.reader) rfl

lemma Truthful.calm {cells : Pending → Cell} (hcalm : Calm w.cells cells) :
    Truthful { w with cells } :=
  have hbegun : ∀ m, Host.dispatchOf { w with cells } m = .begun ↔ w.dispatchOf m = .begun :=
    fun _ => ⟨fun h => hcalm.before h (by rintro ⟨⟩),
      fun h => settled_of_calm hcalm h (by rintro ⟨⟩)⟩
  { h with
    begun := fun m => (h.begun m).trans (hbegun m).symm
    ready := fun id task m hlookup hbusy hready =>
      h.ready id task m hlookup hbusy (hcalm.before hready (by rintro ⟨⟩))
    authorized := fun id a m hlookup => mt (hbegun m).1 (h.authorized id a m hlookup)
    authorizing := fun id connection m hlookup =>
      mt (hbegun m).1 (h.authorizing id connection m hlookup)
    controls := fun n hbegun => h.controls n (hcalm.controls n hbegun)
    history := fun id dispatched hlookup role m hmem =>
      (h.history id dispatched hlookup role m hmem).calm hcalm
    answers := fun id dispatched earlier hsuffix role m hmem hrole =>
      (h.answers id dispatched earlier hsuffix role m hmem hrole).imp_left (·.calm hcalm) }

/-! ## Moves keep the truth -/

lemma Truthful.dropTask (id : String) : Truthful (w.dropTask id) :=
  { h with
    ready := fun _ _ _ hlookup => h.ready _ _ _ (Table.of_erase hlookup).2
    authorizing := fun _ _ _ hlookup => h.authorizing _ _ _ (Table.of_erase hlookup).2 }

lemma Truthful.setTask (id : String) (task : Task)
    (hready : ∀ m, task.busy? = some m → w.dispatchOf m = .ready → w.work = some m)
    (hauthorizing : ∀ connection m, task = .authorizing connection m → w.dispatchOf m ≠ .begun) :
    Truthful (w.setTask id task) :=
  { h with
    ready := fun id' task' m hlookup hbusy => by
      obtain ⟨-, rfl⟩ | ⟨-, hlookup⟩ := Table.of_insert hlookup
      · exact hready m hbusy
      · exact h.ready id' task' m hlookup hbusy
    authorizing := fun id' connection m hlookup => by
      obtain ⟨-, hsame⟩ | ⟨-, hlookup⟩ := Table.of_insert hlookup
      · exact hauthorizing connection m hsame.symm
      · exact h.authorizing id' connection m hlookup }

lemma Truthful.idle (id : String) (task : Task) (hidle : task.busy? = none) :
    Truthful (w.setTask id task) := by
  apply h.setTask
  · intro m hbusy
    cases hidle.symm.trans hbusy
  · rintro connection m rfl
    cases hidle

lemma Truthful.releaseRead : Truthful w.releaseRead :=
  { h.note (.released w.reads) rfl with }

omit h in
lemma cancelCell_calm (w : Host) (p : Pending) : Calm w.cells (w.cancelCell p).cells := by
  apply calm_of_cells
  intro q
  left
  unfold Host.cancelCell Host.setCell
  dsimp only
  split_ifs with hsame
  · rw [hsame]
  · rfl

lemma Truthful.dropStream (streamId : String) (stream : Stream) :
    Truthful (w.dropStream streamId stream) :=
  { (h.calm (cancelCell_calm w stream.opener)).note (.closed stream.reader) rfl with
    reads := fun _ _ hlookup => h.reads _ _ (Table.of_erase hlookup).2 }

lemma Truthful.generate (handle : String) (use : Use) :
    Truthful (w.generate handle use) :=
  { h.note (.generated handle use) rfl with }

lemma Truthful.openStream {p : Pending}
    (hreads : p.mutation? = none → dispatched = false) (handle : String) (lease : Option Nat) :
    Truthful (w.openStream handle p dispatched lease) :=
  { h with
    reads := fun id stream hlookup hmutation => by
      obtain ⟨-, rfl⟩ | ⟨-, hlookup⟩ := Table.of_insert hlookup
      · exact hreads hmutation
      · exact h.reads id stream hlookup hmutation }

lemma Truthful.keepAuthority (hdispatch : w.dispatchOf m ≠ .begun)
    (handle : String) (authority : Authority) : Truthful (w.keepAuthority handle authority m) :=
  { h with
    authorized := fun id a n hlookup => by
      obtain ⟨-, hsame⟩ | ⟨-, hlookup⟩ := Table.of_insert hlookup
      · cases hsame
        exact hdispatch
      · exact h.authorized id a n hlookup }

lemma Truthful.create (howned : Owned w) : Truthful w.create := by
  have hkept : ∀ n ≠ w.nextMutation, w.create.dispatchOf n = w.dispatchOf n := fun n hne =>
    congrArg Cell.dispatch (setCell_of_ne (fun h => hne (Pending.mutation.inj h)) _)
  have hother : ∀ n : Mutation, n.generation ≤ w.nextGeneration →
      w.create.dispatchOf n = w.dispatchOf n := by
    intro n hn
    apply hkept
    rintro rfl
    exact absurd hn (Nat.not_succ_le_self _)
  have hnew : w.create.dispatchOf w.nextMutation = .ready := congrArg Cell.dispatch (if_pos rfl)
  have haliased : ∀ {role id n}, .aliased role id n ∈ w.log → n.generation ≤ w.nextGeneration :=
    fun hmem => h.generations _ (.inr ⟨_, _, hmem⟩)
  exact
  { h with
    begun := fun n => by
      rw [show w.create.log = w.log from rfl, h.begun]
      by_cases hn : n.generation ≤ w.nextGeneration
      · rw [hother n hn]
      · apply iff_of_false
        · exact fun hbegun => hn (h.generations n (.inl ((h.begun n).2 hbegun)))
        · by_cases hsame : n = w.nextMutation
          · rw [hsame, hnew]
            exact nofun
          · rw [hkept n hsame]
            exact fun hbegun => hn (h.generations n (.inl ((h.begun n).2 hbegun)))
    generations := fun n hmem => (h.generations n hmem).trans (Nat.le_succ _)
    ready := fun id task n hlookup hbusy => by
      rw [hother n (howned.busy_generation id task n hlookup hbusy)]
      exact h.ready id task n hlookup hbusy
    authorized := fun id a n hlookup => by
      rw [hother n (howned.work_generation n (howned.authorizations id a n hlookup))]
      exact h.authorized id a n hlookup
    authorizing := fun id connection n hlookup => by
      rw [hother n (howned.busy_generation id _ n hlookup rfl)]
      exact h.authorizing id connection n hlookup
    history := fun id dispatched hlookup role n hmem => by
      unfold Settled
      rw [hother n (haliased hmem)]
      exact h.history id dispatched hlookup role n hmem
    answers := fun id dispatched earlier hsuffix role n hmem hrole => by
      unfold Settled
      rw [hother n (haliased hmem)]
      exact h.answers id dispatched earlier hsuffix role n hmem hrole }

omit h in
lemma finish_settled (w : Host) (m : Mutation) :
    Settled (w.finishMutation m).2 m (w.finishMutation m).1 := by
  unfold Settled Host.dispatchOf
  change ((w.revoke (.mutation m)).cells (.mutation m)).dispatch = _
  rw [revoke_cell, if_pos rfl]
  exact cancel_settled _

lemma Truthful.finish (hnamed : Named w) (m : Mutation) :
    Truthful (w.finishMutation m).2 := by
  have hcalm : Calm w.cells (w.finishMutation m).2.cells := revoke_calm w (.mutation m)
  have hkept := (h.calm hcalm).closed
    (w.streams.values.filter fun stream => stream.mutation? = some m)
  exact
  { hkept with
    ready := fun id task n hlookup hbusy hready => by
      have howned := hkept.ready id task n hlookup hbusy hready
      have hne : ¬ w.owns m = true := by
        rw [owns_iff, show w.work = some n from howned]
        intro hsame
        have hsettled := finish_settled w m
        have hready : (w.finishMutation m).2.dispatchOf m = .ready :=
          Option.some.inj hsame ▸ hready
        unfold Settled at hsettled
        rw [hready] at hsettled
        split_ifs at hsettled
      exact (if_neg hne).trans howned
    authorized := fun _ _ _ hlookup => hkept.authorized _ _ _ (Table.of_retain hlookup).1
    reads := fun _ _ hlookup => h.reads _ _ (Table.of_retain hlookup).1
    history := fun id dispatched hlookup role n hmem => by
      rw [finish_history] at hlookup
      split_ifs at hlookup with halias
      · cases hlookup
        obtain ⟨role', hrole'⟩ := hnamed.aliases id m halias
        have hnamings : (w.finishMutation m).2.namings = w.namings := closed_namings _ w.log
        rw [← mem_namings rfl, hnamings] at hmem
        rw [(hnamed.unique role role' id n m hmem hrole').2]
        exact finish_settled w m
      · exact hkept.history id dispatched hlookup role n hmem }

lemma Truthful.clear : Truthful w.clear := by
  have hkept := (h.calm (clear_calm w)).closed w.streams.values
  have hdisposed : Truthful { w.clear with
      log := w.streams.values.map (fun stream => .closed stream.reader) ++ w.log } :=
    { hkept with
      ready := fun id task n hlookup hbusy hready =>
        absurd hready (clear_work_settled w (hkept.ready id task n hlookup hbusy hready))
      authorized := nofun
      reads := nofun
      history := nofun
      remembered := nofun
      cleared := fun _ => rfl }
  exact hdisposed.mark .cleared rfl nofun
    nofun fun _ => rfl

lemma Truthful.begin (howned : Owned w) {connection : String}
    (htask : w.tasks.lookup id = some (.executing connection m false))
    (hready : w.dispatchOf m = .ready) :
    Truthful ((w.setCell (.mutation m) { w.cells (.mutation m) with dispatch := .begun }).note
      (.began m)) := by
  have hwork := h.ready id _ m htask rfl hready
  have hlive : ¬ w.disposed = true := by
    intro hdisposed
    rw [(howned.empty hdisposed).2] at hwork
    cases hwork
  have hnew : .began m ∉ w.log := by
    rw [h.begun, hready]
    exact nofun
  have hself : (w.setCell (.mutation m)
      { w.cells (.mutation m) with dispatch := .begun }).dispatchOf m = .begun :=
    congrArg Cell.dispatch (if_pos rfl)
  have hother : ∀ {n}, n ≠ m → (w.setCell (.mutation m)
      { w.cells (.mutation m) with dispatch := .begun }).dispatchOf n = w.dispatchOf n :=
    fun hne => congrArg Cell.dispatch (setCell_of_ne (fun h => hne (Pending.mutation.inj h)) _)
  have hsettled : ∀ {n dispatched}, Settled w n dispatched → n ≠ m := by
    rintro n dispatched hsettled rfl
    unfold Settled at hsettled
    rw [hready] at hsettled
    split_ifs at hsettled
  have hmem : ∀ {mark}, mark ∈ .began m :: w.log → mark ≠ .began m → mark ∈ w.log :=
    fun hmem hne => (List.mem_cons.1 hmem).resolve_left hne
  exact
  { begun := fun n => by
      by_cases hsame : n = m
      · rw [hsame]
        exact iff_of_true List.mem_cons_self hself
      · have hold : .began n ∈ .began m :: w.log ↔ w.dispatchOf n = .begun :=
          ⟨fun hbegan => (h.begun n).1 (hmem hbegan fun h => hsame (Mark.began.inj h)),
            fun hbegun => List.mem_cons_of_mem _ ((h.begun n).2 hbegun)⟩
        rw [← hother hsame] at hold
        exact hold
    once := List.nodup_cons.2 ⟨fun hbegan => by
      obtain ⟨mark, hmark, hbegan⟩ := List.mem_filterMap.1 hbegan
      cases mark <;> cases hbegan
      exact hnew hmark, h.once⟩
    generations := fun n hgeneration => by
      by_cases hsame : n = m
      · rw [hsame]
        exact howned.work_generation m hwork
      · apply h.generations n
        obtain hbegan | ⟨role, id, haliased⟩ := hgeneration
        · exact .inl (hmem hbegan fun h => hsame (Mark.began.inj h))
        · exact .inr ⟨role, id, hmem haliased nofun⟩
    ready := fun id' task n hlookup hbusy hstate => by
      by_cases hsame : n = m
      · rw [hsame]
        exact hwork
      · exact h.ready id' task n hlookup hbusy ((hother hsame).symm.trans hstate)
    authorized := fun id' a n hlookup => by
      by_cases hsame : n = m
      · rw [hsame] at hlookup
        exact absurd rfl (howned.authorized_idle id' a m id _ hlookup htask)
      · intro hbegun
        exact h.authorized id' a n hlookup ((hother hsame).symm.trans hbegun)
    authorizing := fun id' connection' n hlookup => by
      by_cases hsame : n = m
      · rw [hsame] at hlookup
        rw [howned.busy_unique id' id _ _ m hlookup htask rfl rfl hwork] at hlookup
        cases htask.symm.trans hlookup
      · intro hbegun
        exact h.authorizing id' connection' n hlookup ((hother hsame).symm.trans hbegun)
    controls := h.controls
    reads := h.reads
    history := fun id' dispatched hlookup role n haliased => by
      have hold := h.history id' dispatched hlookup role n (hmem haliased nofun)
      exact (hother (hsettled hold)).trans hold
    answers := fun id' dispatched earlier hanswer role n haliased hrole => by
      obtain hsame | hanswer := List.suffix_cons_iff.1 hanswer
      · cases hsame
      · obtain ⟨hold, hbegan⟩ := h.answers id' dispatched earlier hanswer role n
          (hmem haliased nofun) hrole
        exact ⟨(hother (hsettled hold)).trans hold, hbegan⟩
    unused := fun id' dispatched hanswer hunaliased =>
      h.unused id' dispatched (hmem hanswer nofun) hunaliased
    remembered := fun hlive id' dispatched hanswer =>
      h.remembered hlive id' dispatched (hmem hanswer nofun)
    cleared := fun hcleared => h.cleared (hmem hcleared nofun)
    after_clear := fun n earlier hbegan => by
      obtain hsame | hbegan := List.suffix_cons_iff.1 hbegan
      · rw [(List.cons.inj hsame).2]
        exact fun hcleared => hlive (h.cleared hcleared)
      · exact h.after_clear n earlier hbegan }

lemma Truthful.name (hlive : w.disposed = false) (role : Role)
    (hfresh : Unaliased w id) (hhistory : w.terminalHistory.lookup id = none)
    (hgeneration : m.generation ≤ w.nextGeneration)
    (hdispatch : role = .pull ∨ id ∉ w.cancelled ∨ w.dispatchOf m ≠ .begun) :
    Truthful { w with
      cells := toldCells w id (.mutation m)
      log := .aliased role id m :: w.log } := by
  refine (h.calm (told_calm w id (.mutation m))).mark (.aliased role id m) rfl ?_
    nofun nofun
  rintro _ _ _ ⟨⟩
  refine ⟨hgeneration, hhistory, fun dispatched earlier hanswer hrole => ?_⟩
  -- The cancellation came before the id was used.
  have hanswered : .answered id dispatched ∈ w.log := hanswer.mem List.mem_cons_self
  have hcancelled := h.remembered hlive id dispatched hanswered
  have hnot : role ≠ .pull := by
    apply hrole.resolve_left
    intro hearlier
    exact hfresh role m ((mem_namings rfl).2 (hanswer.mem (List.mem_cons_of_mem _ hearlier)))
  have hstate := (hdispatch.resolve_left hnot).resolve_left (not_not.2 hcancelled)
  rw [h.unused id dispatched hanswered hfresh]
  refine ⟨?_, nofun⟩
  change (toldCells w id (.mutation m) (.mutation m)).dispatch = .cancelled
  rw [toldCells, if_pos hcancelled, revoke_cell, if_pos rfl]
  change (w.cells (.mutation m)).dispatch.cancel.2 = .cancelled
  unfold Host.dispatchOf at hstate
  cases hcell : (w.cells (.mutation m)).dispatch with
  | ready => rfl
  | cancelled => rfl
  | begun => exact absurd hcell hstate

lemma Truthful.answer (hcancelled : id ∈ w.cancelled)
    (htrue : ∀ role m, .aliased role id m ∈ w.log → Settled w m dispatched)
    (hunused : Unaliased w id → dispatched = false) :
    Truthful (w.note (.answered id dispatched)) := by
  refine h.mark (.answered id dispatched) rfl nofun ?_
    nofun
  rintro _ _ ⟨⟩
  exact ⟨hcancelled, htrue, hunused⟩

omit h in
lemma Named.no_history (h : Named w) (hfresh : Unaliased w id) :
    w.terminalHistory.lookup id = none := by
  cases hlookup : w.terminalHistory.lookup id with
  | none => rfl
  | some dispatched =>
    obtain ⟨role, m, hmem⟩ := h.history id dispatched hlookup
    exact absurd hmem (hfresh role m)

lemma Truthful.pendingControl (id : String) : Truthful (w.pendingControl id) := by
  have hfresh : Calm w.cells (w.setCell (.control w.nextSerial) .fresh).cells := by
    constructor
    · exact fun m => .inl rfl
    · intro n hbegun
      by_cases hsame : Pending.control n = .control w.nextSerial
      · rw [hsame, Host.setCell] at hbegun
        dsimp only at hbegun
        rw [if_pos rfl] at hbegun
        cases hbegun
      · rwa [setCell_of_ne hsame] at hbegun
  have htold := (h.calm hfresh).calm (told_calm _ id (.control w.nextSerial))
  unfold Host.pendingControl
  rw [insertPending_eq]
  exact { htold with }

lemma Truthful.start {task : Task} {reserved : Nat} {role : Role}
    (hlive : w.disposed = false)
    (hreserved : w.reservedAliases.lookup m.generation = some (reserved + 1))
    (hfresh : Unaliased w id) (hhistory : w.terminalHistory.lookup id = none)
    (howned : w.work = some m) (hgeneration : m.generation ≤ w.nextGeneration)
    (htask : ∀ n, task.busy? = some n → n = m)
    (hdispatch : role = .pull ∧ (∀ connection n, task ≠ .authorizing connection n) ∨
      w.dispatchOf m ≠ .begun) :
    Truthful ((w.mutationPending role id m).setTask id task) := by
  have hset := h.setTask id task
    (fun n hbusy _ => by
      rw [htask n hbusy]
      exact howned)
    (fun connection n hsame => by
      obtain ⟨-, hnot⟩ | hdispatch := hdispatch
      · exact absurd hsame (hnot connection n)
      · rw [htask n (by rw [hsame]; rfl)]
        exact hdispatch)
  have hname := hset.name hlive role hfresh hhistory hgeneration
    (hdispatch.imp (fun h => h.1) fun h => .inr h)
  have htold := hname.calm (told_calm _ id (.mutation m))
  unfold Host.mutationPending
  rw [aliasMutation_eq hreserved, insertPending_eq]
  exact { htold with }

lemma Truthful.handle (hnamed : Named w) (hlive : w.disposed = false)
    {handle : String} {reserved : Nat}
    (hreserved : w.reservedAliases.lookup m.generation = some (reserved + 1))
    (hhandle : w.handleAvailable handle = true) (hgeneration : m.generation ≤ w.nextGeneration)
    (role : Role) (use : Use) :
    Truthful ((w.generate handle use).aliasMutation role handle m) := by
  obtain ⟨-, -, hcancelled, -, hhistory, -⟩ := handle_fresh hhandle
  have hname := (h.generate handle use).name hlive role
    (unaliased_generated hnamed (hnamed.new_handle hlive hhandle) use) hhistory hgeneration
    (.inr (.inl hcancelled))
  rw [aliasMutation_eq (w := w.generate handle use) hreserved]
  exact { hname with }

/-- What a cancellation finds of an id that is no alias any more is what the history keeps. -/
lemma answer_true (hnamed : Named w) (hlive : w.disposed = false)
    (halias : w.aliases.lookup id = none)
    (hdispatched : w.terminalHistory.lookup id = some dispatched ∨
      dispatched = ((w.terminalHistory.lookup id).getD false ||
        (w.pending.lookup id).any w.begun)) :
    (∀ role m, .aliased role id m ∈ w.log → Settled w m dispatched) ∧
      (Unaliased w id → dispatched = false) := by
  have hpending : (w.pending.lookup id).any w.begun = false := by
    cases hlookup : w.pending.lookup id with
    | none => rfl
    | some p =>
      cases p with
      | mutation m =>
        have hbinds := (hnamed.pending id _ hlookup).2
        cases halias.symm.trans hbinds
      | control n => exact decide_eq_false (h.controls n)
  rw [hpending, Bool.or_false] at hdispatched
  constructor
  · intro role m hmem
    obtain hbound | hsome := hnamed.known hlive role id m ((mem_namings rfl).2 hmem)
    · cases halias.symm.trans hbound
    · obtain ⟨known, hknown⟩ := Option.isSome_iff_exists.1 hsome
      have hsame : dispatched = known := by
        rw [hknown] at hdispatched
        exact hdispatched.elim (fun h => (Option.some.inj h).symm) (fun h => h)
      rw [hsame]
      exact h.history id known hknown role m hmem
  · intro hunaliased
    rw [hnamed.no_history hunaliased] at hdispatched
    exact hdispatched.elim nofun (fun h => h)

end Kept

theorem Truthful.move {w w' : Host} (h : Truthful w) (howned : Owned w) (hnamed : Named w)
    (hmove : Move w w') : Truthful w' := by
  cases hmove with
  | note mark hmark =>
    apply h.note
    cases mark <;> first | rfl | cases hmark
  | timers timers => exact { h with }
  | accept frame _ _ _ _ _ _ =>
    have hset := (h.note (.accepted frame.id) rfl).idle frame.id (.accepted frame.command) rfl
    exact { hset with }
  | clear => exact h.clear
  | create => exact h.create howned
  | drop id => exact h.dropTask id
  | unpend id => exact { h with }
  | pulling n running => exact { h with }
  | release => exact h.releaseRead
  | close streamId stream => exact h.dropStream streamId stream
  | handled id command handle use connection htask _ _ _ =>
    have hconnected : Truthful { w.generate handle use with connection := some connection } :=
      { h.generate handle use with }
    exact hconnected.dropTask id
  | startRead id command connection expires htask =>
    have hreads : Truthful { w with reads := w.reads + 1 } := { h with }
    exact (hreads.pendingControl id).idle id _ rfl
  | startMutation id command connection htask hbound hwork _ =>
    have hnext : Truthful { w.create.reserved w.nextMutation 2 with
        work := some w.nextMutation } :=
      { h.create howned with
        ready := fun id task n hlookup hbusy hready => by
          cases hwork.symm.trans ((h.create howned).ready id task n hlookup hbusy hready) }
    have hunaliased := (hnamed.fresh id command htask).1
    have hready : w.create.dispatchOf w.nextMutation = .ready := congrArg Cell.dispatch (if_pos rfl)
    refine hnext.start (howned.live hbound) (reserved_lookup w.create w.nextMutation 2) hunaliased
      (hnamed.no_history hunaliased) rfl (le_refl _)
      (fun _ hbusy => (Option.some.inj hbusy).symm) (.inr ?_)
    intro hbegun
    cases hready.symm.trans hbegun
  | finish m => exact h.finish hnamed m
  | named id task handle role use m htask hbusy howns hbound hhandle _ =>
    obtain ⟨reserved, hreserved⟩ := howned.busy id task m htask hbusy (owns_iff.1 howns)
    exact (h.handle hnamed (howned.live hbound) hreserved hhandle
      (howned.work_generation m (owns_iff.1 howns)) role use).dropTask id
  | authorized id connection handle m authority htask howns hbound hhandle =>
    obtain ⟨reserved, hreserved⟩ := howned.busy id _ m htask rfl (owns_iff.1 howns)
    have hname := h.handle hnamed (howned.live hbound) hreserved hhandle
      (howned.work_generation m (owns_iff.1 howns)) .authorization .authorization
    have hdispatch := h.authorizing id connection m htask
    rw [aliasMutation_eq (w := w.generate handle .authorization) hreserved] at hname ⊢
    refine (hname.keepAuthority ?_ handle authority).dropTask id
    intro hbegun
    have hcalm := told_calm (w.generate handle .authorization) handle (.mutation m)
    exact hdispatch (hcalm.before hbegun (by rintro ⟨⟩))
  | startExecute id command connection authorizationId authority m htask hbound hauthority _ =>
    have hspent : Truthful { w.reserved m 2 with
        authorizations := w.authorizations.erase authorizationId } :=
      { h with
        authorized := fun _ _ _ hlookup => h.authorized _ _ _ (Table.of_erase hlookup).2 }
    have hunaliased := (hnamed.fresh id command htask).1
    have hwork := howned.authorizations authorizationId authority m hauthority
    exact hspent.start (howned.live hbound) (reserved_lookup w m 2) hunaliased
      (hnamed.no_history hunaliased) hwork (howned.work_generation m hwork)
      (fun _ hbusy => (Option.some.inj hbusy).symm)
      (.inr (h.authorized authorizationId authority m hauthority))
  | begin id connection m htask hready =>
    have hbegin := (h.begin howned htask hready).setTask id (.executing connection m true)
      (fun n hbusy _ => by
        cases hbusy
        exact h.ready id _ m htask rfl hready)
      nofun
    exact { hbegin with }
  | opened id connection begun handle m htask howns hbound hhandle =>
    obtain ⟨reserved, hreserved⟩ := howned.busy id _ m htask rfl (owns_iff.1 howns)
    have hname := h.handle hnamed (howned.live hbound) hreserved hhandle
      (howned.work_generation m (owns_iff.1 howns)) .stream .stream
    exact (hname.openStream (p := .mutation m) nofun handle none).dropTask id
  | openRead handle serial expires _ _ =>
    exact (h.generate handle .stream).openStream (fun _ => rfl) handle (some expires)
  | startPull id command connection streamId stream ack m htask hbound hstream hmutation _ =>
    have hpulling : Truthful ((w.setPulling stream.reader true).reserved m 1) := { h with }
    have hunaliased := (hnamed.fresh id command htask).1
    have hwork := howned.streams streamId stream m hstream hmutation
    exact hpulling.start (howned.live hbound) (reserved_lookup w m 1) hunaliased
      (hnamed.no_history hunaliased) hwork (howned.work_generation m hwork)
      nofun (.inl ⟨rfl, nofun⟩)
  | startPullRead id command connection streamId stream ack htask _ =>
    have hpulling : Truthful (w.setPulling stream.reader true) := { h with }
    exact (hpulling.pendingControl id).idle id _ rfl
  | chunk id connection streamId stream ack p response clock htask =>
    obtain ⟨readers, hreaders⟩ := nextChunk_eq w stream ack p response clock
    rw [hreaders]
    have hread : Truthful { w with readers } := { h with }
    exact hread.idle id _ rfl
  | remember targetId =>
    exact { h with
      remembered := fun hlive id' dispatched hanswer =>
        Finset.mem_insert_of_mem (h.remembered hlive id' dispatched hanswer) }
  | tell targetId p _ _ => exact { h.calm (revoke_calm w p) with }
  | answer targetId dispatched hbound hcancelled halias hdispatched =>
    obtain ⟨htrue, hunused⟩ := answer_true h hnamed (howned.live hbound) halias hdispatched
    exact h.answer hcancelled htrue hunused
  | cancelStream targetId stream dispatched hbound hcancelled halias hstream hdispatched =>
    -- A stream of a mutation is an alias, so this one belongs to a read.
    have hmutation : stream.mutation? = none := by
      cases hmutation : stream.mutation? with
      | none => rfl
      | some m =>
        have hbinds := (hnamed.streams targetId stream hstream).2
        rw [hmutation] at hbinds
        cases halias.symm.trans hbinds
    rw [h.reads targetId stream hstream hmutation, Bool.or_false] at hdispatched
    obtain ⟨htrue, hunused⟩ :=
      answer_true h hnamed (howned.live hbound) halias (.inr hdispatched)
    have hdrop := (h.dropStream targetId stream).releaseRead
    refine hdrop.answer hcancelled (fun role m haliased => ?_) hunused
    refine (htrue role m ?_).calm (cancelCell_calm w stream.opener)
    change .aliased role targetId m ∈ .released w.reads :: .closed stream.reader ::
      w.log at haliased
    simpa using haliased

lemma Truthful.init : Truthful Host.init where
  begun := fun _ => ⟨nofun, nofun⟩
  once := List.nodup_nil
  generations := fun _ h => h.elim nofun fun ⟨_, _, hmem⟩ => nomatch hmem
  ready := nofun
  authorized := nofun
  authorizing := nofun
  controls := nofun
  reads := nofun
  history := nofun
  answers := nofun
  unused := nofun
  remembered := nofun
  cleared := nofun
  after_clear := fun _ _ hsuffix => absurd (List.suffix_nil.1 hsuffix) (List.cons_ne_nil _ _)

theorem truthful_of_moves (h : Moves Host.init w) : Truthful w := by
  induction h with
  | refl => exact Truthful.init
  | tail hmoves hmove ih => exact ih.move (owned_of_moves hmoves) (named_of_moves hmoves) hmove

/-! ## Cancellation -/

lemma settled_unique {dispatched' : Bool} (h : Settled w m dispatched)
    (h' : Settled w m dispatched') : dispatched = dispatched' := by
  unfold Settled at h h'
  rw [h] at h'
  cases dispatched <;> cases dispatched' <;> first | rfl | cases h'

/-- Over every run: what was answered for an alias of a mutation, or for the id of a command that
became one by an authorize or an execute later, is whether its dispatch had begun, and it never
begins after the answer was that it had not. All of these answers agree. Dispatch begins at most
once for a mutation, an id names one mutation only, everything alive belongs to the one owned
mutation, and nothing is dispatched after the connection was cleared. -/
theorem cancellation_truth (h : Reachable w) :
    (∀ id dispatched earlier role m, .answered id dispatched :: earlier <:+ w.log →
      .aliased role id m ∈ w.log → .aliased role id m ∈ earlier ∨ role ≠ .pull →
      (dispatched = false → .began m ∉ w.log) ∧ (dispatched = true → .began m ∈ earlier)) ∧
    (∀ id id' dispatched dispatched' earlier earlier' role role' m,
      .answered id dispatched :: earlier <:+ w.log →
      .answered id' dispatched' :: earlier' <:+ w.log →
      .aliased role id m ∈ w.log → .aliased role id m ∈ earlier ∨ role ≠ .pull →
      .aliased role' id' m ∈ w.log → .aliased role' id' m ∈ earlier' ∨ role' ≠ .pull →
      dispatched = dispatched') ∧
    (w.log.filterMap Mark.began?).Nodup ∧
    (∀ role role' id m m', .aliased role id m ∈ w.log → .aliased role' id m' ∈ w.log → m = m') ∧
    ((∀ id m, w.aliases.lookup id = some m → w.work = some m) ∧
      (∀ id a m, w.authorizations.lookup id = some (a, m) → w.work = some m) ∧
      (∀ id stream m, w.streams.lookup id = some stream → stream.mutation? = some m →
        w.work = some m) ∧
      (∀ id m, w.pending.lookup id = some (.mutation m) → w.work = some m) ∧
      ∀ id task m, w.tasks.lookup id = some task → task.busy? = some m →
        w.dispatchOf m = .ready → w.work = some m) ∧
    ∀ m earlier, .began m :: earlier <:+ w.log → .cleared ∉ earlier := by
  have hmoves := moves_of_reachable h
  have howned := owned_of_moves hmoves
  have hnamed := named_of_moves hmoves
  have htruth := truthful_of_moves hmoves
  refine ⟨?_, ?_, htruth.once, ?_, ⟨howned.aliases, howned.authorizations, howned.streams,
    howned.pending, htruth.ready⟩, htruth.after_clear⟩
  · intro id dispatched earlier role m hanswer haliased hrole
    obtain ⟨hsettled, hbegan⟩ :=
      htruth.answers id dispatched earlier hanswer role m haliased hrole
    refine ⟨fun hfalse hmem => ?_, hbegan⟩
    have hbegun := (htruth.begun m).1 hmem
    rw [hfalse] at hsettled
    cases hsettled.symm.trans hbegun
  · intro id id' dispatched dispatched' earlier earlier' role role' m hanswer hanswer' haliased
      hrole haliased' hrole'
    exact settled_unique (htruth.answers id dispatched earlier hanswer role m haliased hrole).1
      (htruth.answers id' dispatched' earlier' hanswer' role' m haliased' hrole').1
  · intro role role' id m m' haliased haliased'
    exact (hnamed.unique role role' id m m' ((mem_namings rfl).2 haliased)
      ((mem_namings rfl).2 haliased')).2

/-- A connection with an authorization, and a cancellation of an id that was not used before. -/
def cancelEarly (targetId : String) : List Host.Event :=
  let env (handle : String) : Host.Env := ⟨some 0, fun _ => some handle, none⟩
  [.receive ⟨"c", .connect "http://127.0.0.1:8080" "document"
      "aaaaaaaaaaaaaaaaaaaaaaaaaaaaaaaaaaaaaaaaaaaaaaaaaaaaaaaaaaaaaaaa", by decide⟩,
    .start "c" (env "connection"),
    .receive ⟨"a", .authorize "connection" true, by decide⟩,
    .start "a" (env ""),
    .authorizeDone "a" (.ok ⟨100⟩) (env "authorization"),
    .receive ⟨"x", .cancel "connection" targetId, by decide⟩,
    .start "x" (env ""),
    .receive ⟨"e", .execute "connection" "authorization", by decide⟩,
    .start "e" (env "")]

/-- The execution is dispatched, and a pull on its stream starts. -/
def dispatchAndPull : List Host.Event :=
  let env (handle : String) : Host.Env := ⟨some 0, fun _ => some handle, none⟩
  [.begin "e", .executeDone "e" none (env "stream"),
    .receive ⟨"p", .pull "connection" "stream" (-1), by decide⟩, .start "p" (env "")]

def before (mark : Mark) (log : List Mark) : List Mark :=
  (log.dropWhile fun other => other ≠ mark).tail

theorem cancellation_truth_execute :
    Reachable (hostAfter (cancelEarly "e")) ∧
      .began ⟨1⟩ ∉ (hostAfter (cancelEarly "e")).log := by
  have hreachable : Reachable (hostAfter (cancelEarly "e")) :=
    reachable_hostAfter (by decide +kernel)
  refine ⟨hreachable, ?_⟩
  exact ((cancellation_truth hreachable).1 "e" false
    (before (.answered "e" false) (hostAfter (cancelEarly "e")).log) .execute ⟨1⟩
    (by decide +kernel) (by decide +kernel) (.inr nofun)).1 rfl

/-- The id of a pull that was cancelled before the mutation was dispatched. -/
theorem cancelled_pull_dispatched :
    Reachable (hostAfter (cancelEarly "p" ++ dispatchAndPull)) ∧
    .answered "p" false :: before (.answered "p" false)
      (hostAfter (cancelEarly "p" ++ dispatchAndPull)).log <:+
      (hostAfter (cancelEarly "p" ++ dispatchAndPull)).log ∧
    .aliased .pull "p" ⟨1⟩ ∈ (hostAfter (cancelEarly "p" ++ dispatchAndPull)).log ∧
    .began ⟨1⟩ ∈ (hostAfter (cancelEarly "p" ++ dispatchAndPull)).log ∧
    .began ⟨1⟩ ∉ before (.answered "p" false)
      (hostAfter (cancelEarly "p" ++ dispatchAndPull)).log :=
  ⟨reachable_hostAfter (by decide +kernel), by decide +kernel, by decide +kernel,
    by decide +kernel, by decide +kernel⟩

/-! ## The alias table -/

/-- Over every run the assertions on the alias table hold, and it stays within its bound. An id or a
handle is given out once and never changes what it stands for. -/
theorem alias_table_sound (h : Reachable w) :
    w.panicked = false ∧ w.used ≤ maxAliases ∧ w.names.Nodup ∧
    (∀ role role' id m m', .aliased role id m ∈ w.namings → .aliased role' id m' ∈ w.namings →
      role = role' ∧ m = m') ∧
    (∀ id m, w.aliases.lookup id = some m →
      id ∈ w.names ∧ ∃ role, .aliased role id m ∈ w.namings) ∧
    ∀ id stream, w.streams.lookup id = some stream →
      .generated id .stream ∈ w.namings ∧ .accepted id ∉ w.namings := by
  have howned := owned_of_moves (moves_of_reachable h)
  have hnamed := named_of_moves (moves_of_reachable h)
  refine ⟨howned.sound, howned.room, hnamed.nodup, hnamed.unique, ?_, ?_⟩
  · intro id m hlookup
    obtain ⟨role, hrole⟩ := hnamed.aliases id m hlookup
    exact ⟨hnamed.roles role id m hrole, role, hrole⟩
  · intro id stream hlookup
    have hgenerated := (hnamed.streams id stream hlookup).1
    exact ⟨hgenerated, fun haccepted => hnamed.disjoint haccepted hgenerated⟩

theorem alias_table_sound_execute : (hostAfter (cancelEarly "e")).used = 4 ∧
    (hostAfter (cancelEarly "e")).panicked = false :=
  ⟨by decide +kernel, (alias_table_sound (reachable_hostAfter (by decide +kernel))).1⟩

end DevGraph.Proofs.Browser
