import Mathlib.Algebra.Order.BigOperators.Group.List
import Mathlib.Algebra.Ring.Int.Defs
import Mathlib.Data.List.Nodup
import DevGraph.Work.RetainedAudit

/-!
# Durable admission

Over every interleaving of callers, the writer and their faults, the counters are those of the
submissions in flight. A submission is finished once, and is marked successful only after a
transaction with all its entries was committed.
-/

namespace DevGraph.Proofs

open Work

variable {successful : Bool}

section Finishing

variable {ι : Type} [DecidableEq ι] {calls : ι → AuditCall} {s : AuditState ι}

def totalEntries (calls : ι → AuditCall) (ids : List ι) : Int :=
  (ids.map fun i => ((calls i).entries.length : Int)).sum

def finishAll (calls : ι → AuditCall) (successful : Bool) (s : AuditState ι) (ids : List ι) :
    AuditState ι :=
  ids.foldl (AuditState.finish calls successful) s

def concludedAs (successful : Bool) (x : Submission) : Submission :=
  { x with done := true, successful := successful && !x.cancelled }

lemma finishAll_eq {ids : List ι} (hnodup : ids.Nodup) (s : AuditState ι) :
    finishAll calls successful s ids = { s with
      submission := fun i => if i ∈ ids then concludedAs successful (s.submission i)
        else s.submission i
      pendingCount := s.pendingCount - ids.length
      pendingEvents := s.pendingEvents - totalEntries calls ids
      finished := fun i => if i ∈ ids then s.finished i + 1 else s.finished i } := by
  induction ids generalizing s with
  | nil => simp [finishAll, totalEntries]
  | cons j ids ih =>
    obtain ⟨hj, hnodup⟩ := List.nodup_cons.1 hnodup
    rw [finishAll, List.foldl_cons, ← finishAll, ih hnodup]
    simp only [AuditState.finish, AuditState.mk.injEq, true_and, and_true]
    refine ⟨?_, ?_, ?_, ?_⟩
    · funext i
      by_cases hij : i = j
      · subst hij
        simp [hj, concludedAs]
      · simp [hij]
    · rw [List.length_cons]
      omega
    · simp only [totalEntries, List.map_cons, List.sum_cons]
      omega
    · funext i
      by_cases hij : i = j
      · subst hij
        simp [hj]
      · simp [hij]

omit [DecidableEq ι] in
lemma totalEntries_append (ids ids' : List ι) :
    totalEntries calls (ids ++ ids') = totalEntries calls ids + totalEntries calls ids' := by
  rw [totalEntries, List.map_append, List.sum_append]
  rfl

omit [DecidableEq ι] in
lemma totalEntries_perm {ids ids' : List ι} (h : ids.Perm ids') :
    totalEntries calls ids = totalEntries calls ids' :=
  (h.map _).sum_eq

/-- What the callers know of the submissions, with those that are not finished. -/
structure AuditCore (calls : ι → AuditCall) (unfinished : List ι) (s : AuditState ι) : Prop where
  nodup : unfinished.Nodup
  mem : ∀ i, i ∈ unfinished ↔ i ∈ s.admitted ∧ (s.submission i).done = false
  admitted : s.admitted.Nodup
  accepted : ∀ i ∈ s.admitted, (calls i).accepted = true
  ready : ∀ i, s.phase i = .ready → i ∉ s.admitted
  fresh : ∀ i, s.phase i = .ready → s.submission i = ⟨false, false, false⟩
  count : s.pendingCount = unfinished.length
  events : s.pendingEvents = totalEntries calls unfinished
  finished : ∀ i, s.finished i = if (s.submission i).done then 1 else 0
  successful : ∀ i, (s.submission i).successful = true → (s.submission i).done = true ∧
    (s.submission i).cancelled = false ∧ ∃ tx ∈ s.transactions, (calls i).entries <:+: tx
  cancelled : ∀ i, (s.submission i).cancelled = true → s.phase i = .raised
  returned : ∀ i, s.phase i = .returned → (s.submission i).successful = true

omit [DecidableEq ι] in
lemma AuditCore.perm {ids ids' : List ι} (h : AuditCore calls ids s) (hperm : ids.Perm ids') :
    AuditCore calls ids' s :=
  { h with
    nodup := hperm.nodup_iff.1 h.nodup
    mem := fun i => hperm.mem_iff.symm.trans (h.mem i)
    count := by rw [h.count, hperm.length_eq]
    events := by rw [h.events, totalEntries_perm hperm] }

/-- Some of the unfinished submissions are finished; a success needs its transaction. -/
lemma AuditCore.finishAll {ids rest : List ι} (successful : Bool)
    (h : AuditCore calls (ids ++ rest) s)
    (hsuccess : successful = true → ∀ i ∈ ids, ∃ tx ∈ s.transactions, (calls i).entries <:+: tx) :
    AuditCore calls rest (finishAll calls successful s ids) := by
  obtain ⟨hids, hrest, hdisjoint⟩ := List.nodup_append.1 h.nodup
  rw [finishAll_eq hids]
  have hopen : ∀ i ∈ ids, i ∈ s.admitted ∧ (s.submission i).done = false := fun i hi =>
    (h.mem i).1 (List.mem_append_left _ hi)
  refine ⟨hrest, fun i => ?_, h.admitted, h.accepted, h.ready, fun i hi => ?_, ?_, ?_, fun i => ?_,
    fun i => ?_, fun i => ?_, fun i => ?_⟩
  · have hmem := h.mem i
    rw [List.mem_append] at hmem
    by_cases hi : i ∈ ids
    · have hnot : i ∉ rest := fun hr => hdisjoint i hi i hr rfl
      simp [hi, hnot, concludedAs]
    · simpa [hi] using hmem
  · have hnot : i ∉ ids := fun hmem => h.ready i hi (hopen i hmem).1
    simpa [hnot] using h.fresh i hi
  · have hcount := h.count
    rw [List.length_append] at hcount
    show s.pendingCount - _ = _
    omega
  · have hevents := h.events
    rw [totalEntries_append] at hevents
    show s.pendingEvents - _ = _
    omega
  · by_cases hi : i ∈ ids
    · simp [hi, concludedAs, h.finished i, (hopen i hi).2]
    · simp [hi, h.finished i]
  · by_cases hi : i ∈ ids
    · simp only [hi, if_true, concludedAs, Bool.and_eq_true, Bool.not_eq_true', true_and]
      rintro ⟨hok, hcancelled⟩
      exact ⟨hcancelled, hsuccess hok i hi⟩
    · simpa [hi] using h.successful i
  · by_cases hi : i ∈ ids
    · simpa [hi, concludedAs] using h.cancelled i
    · simpa [hi] using h.cancelled i
  · by_cases hi : i ∈ ids
    · intro hreturned
      have hdone := (h.successful i (h.returned i hreturned)).1
      rw [(hopen i hi).2] at hdone
      cases hdone
    · simpa [hi] using h.returned i

lemma infix_flatMap {α β : Type} {l : List α} (f : α → List β) {a : α} (ha : a ∈ l) :
    f a <:+: l.flatMap f := by
  obtain ⟨before, after, rfl⟩ := List.append_of_mem ha
  rw [List.flatMap_append, List.flatMap_cons]
  exact ⟨before.flatMap f, after.flatMap f, by rw [List.append_assoc]⟩

/-- The loop takes the front of the queue: the cancelled of these are finished, the others are
the batch. From an empty batch it takes at least one. -/
lemma collectLoop_spec {queue : List ι} (batch : List ι) (count : Nat) (hqueue : queue.Nodup)
    (s : AuditState ι) : ∃ taken rest, queue = taken ++ rest ∧
      s.collectLoop calls queue batch count =
        (batch ++ taken.filter fun i => !(s.submission i).cancelled,
          { finishAll calls false s (taken.filter fun i => (s.submission i).cancelled) with
            pending := rest }) ∧
      (batch = [] → count = 0 → (∀ i ∈ queue, (calls i).accepted = true) → queue ≠ [] →
        taken ≠ []) := by
  induction queue generalizing batch count s with
  | nil =>
    exact ⟨[], [], rfl, by simp [AuditState.collectLoop, finishAll], fun _ _ _ h => absurd rfl h⟩
  | cons i queue ih =>
    obtain ⟨hi, hqueue⟩ := List.nodup_cons.1 hqueue
    rw [AuditState.collectLoop]
    split
    · rename_i hfull
      refine ⟨[], i :: queue, rfl, by simp [finishAll], ?_⟩
      rintro rfl
      simp [maxBatchSubmissions] at hfull
    · split
      · rename_i hcancelled
        obtain ⟨taken, rest, rfl, hloop, -⟩ := ih batch count hqueue
          (s.finish calls false i)
        refine ⟨i :: taken, rest, rfl, ?_, fun _ _ _ _ => List.cons_ne_nil _ _⟩
        have hother : ∀ j ∈ taken, ((s.finish calls false i).submission j).cancelled =
            (s.submission j).cancelled := by
          intro j hj
          have hne : j ≠ i := by
            rintro rfl
            exact hi (List.mem_append_left _ hj)
          simp [AuditState.finish, hne]
        have hkeep : taken.filter (fun j => !((s.finish calls false i).submission j).cancelled) =
            taken.filter fun j => !(s.submission j).cancelled :=
          List.filter_congr fun j hj => by rw [hother j hj]
        have hdrop : taken.filter (fun j => ((s.finish calls false i).submission j).cancelled) =
            taken.filter fun j => (s.submission j).cancelled :=
          List.filter_congr fun j hj => hother j hj
        rw [hloop, hkeep, hdrop]
        simp [hcancelled, finishAll]
      · rename_i hcancelled
        split
        · rename_i hlarge
          refine ⟨[], i :: queue, rfl, by simp [finishAll], ?_⟩
          rintro - rfl haccepted
          have hsize := haccepted i List.mem_cons_self
          simp only [AuditCall.accepted, Bool.and_eq_true, decide_eq_true_eq] at hsize
          omega
        · obtain ⟨taken, rest, rfl, hloop, -⟩ := ih (batch ++ [i])
            (count + (calls i).entries.length) hqueue s
          refine ⟨i :: taken, rest, rfl, ?_, fun _ _ _ _ => List.cons_ne_nil _ _⟩
          rw [hloop]
          simp [hcancelled]

end Finishing

/-! ## The invariant -/

def inFlight {ι : Type} : WriterPhase ι → List ι
  | .writing batch => batch
  | .settling batch _ => batch
  | _ => []

structure AuditInv {ι : Type} (calls : ι → AuditCall) (s : AuditState ι) : Prop where
  core : AuditCore calls (inFlight s.writer ++ s.pending) s
  countBound : s.pendingCount ≤ maxPendingSubmissions
  eventBound : s.pendingEvents ≤ maxPendingEvents
  running : s.writerRunning = true ↔ s.writer ≠ .absent
  queued : s.writer = .absent → s.pending = []
  settling : ∀ batch, s.writer = .settling batch true → ∀ i ∈ batch,
    ∃ tx ∈ s.transactions, (calls i).entries <:+: tx

section Steps

variable {ι : Type} [DecidableEq ι] {calls : ι → AuditCall} {s s' : AuditState ι}

lemma AuditCore.setPhase {ids : List ι} (h : AuditCore calls ids s) {i : ι} {phase : CallPhase}
    (hready : phase ≠ .ready)
    (hcancelled : (s.submission i).cancelled = true → phase = .raised)
    (hreturned : phase = .returned → (s.submission i).successful = true) :
    AuditCore calls ids (s.setPhase i phase) := by
  have hphase : ∀ j, (s.setPhase i phase).phase j = if j = i then phase else s.phase j :=
    fun j => Function.update_apply s.phase i phase j
  refine { h with
    ready := fun j hj => ?_
    fresh := fun j hj => ?_
    cancelled := fun j hj => ?_
    returned := fun j hj => ?_ }
  all_goals by_cases hji : j = i
  · rw [hphase, if_pos hji] at hj
    exact absurd hj hready
  · rw [hphase, if_neg hji] at hj
    exact h.ready j hj
  · rw [hphase, if_pos hji] at hj
    exact absurd hj hready
  · rw [hphase, if_neg hji] at hj
    exact h.fresh j hj
  · rw [hphase, if_pos hji]
    exact hcancelled (hji ▸ hj)
  · rw [hphase, if_neg hji]
    exact h.cancelled j hj
  · rw [hphase, if_pos hji] at hj
    exact hji ▸ hreturned hj
  · rw [hphase, if_neg hji] at hj
    exact h.returned j hj

lemma AuditInv.setPhase (h : AuditInv calls s) {i : ι} {phase : CallPhase}
    (hready : phase ≠ .ready)
    (hcancelled : (s.submission i).cancelled = true → phase = .raised)
    (hreturned : phase = .returned → (s.submission i).successful = true) :
    AuditInv calls (s.setPhase i phase) :=
  ⟨h.core.setPhase hready hcancelled hreturned, h.countBound, h.eventBound, h.running, h.queued,
    h.settling⟩

lemma AuditInv.raised (h : AuditInv calls s) (i : ι) : AuditInv calls (s.setPhase i .raised) :=
  h.setPhase (by simp) (fun _ => rfl) (by simp)

lemma AuditInv.conclude (h : AuditInv calls s) (i : ι) : AuditInv calls (s.conclude i) := by
  refine h.setPhase ?_ (fun hcancelled => ?_) fun hreturned => ?_
  · split <;> simp
  · simp [hcancelled]
  · split at hreturned
    · rename_i hok
      exact (Bool.and_eq_true _ _ ▸ hok).1
    · cases hreturned

variable {writer : WriterPhase ι}

lemma AuditInv.queue (h : AuditInv calls s) {i : ι} (hready : s.phase i = .ready)
    (haccepted : (calls i).accepted = true) (hcount : s.pendingCount < maxPendingSubmissions)
    (hevents : s.pendingEvents + (calls i).entries.length ≤ maxPendingEvents)
    (hwriter : inFlight writer = inFlight s.writer)
    (hrunning : writer ≠ .absent)
    (hsettling : ∀ batch, writer = .settling batch true → s.writer = .settling batch true) :
    AuditInv calls { s.setPhase i .waiting with
      pending := s.pending ++ [i]
      pendingCount := s.pendingCount + 1
      pendingEvents := s.pendingEvents + (calls i).entries.length
      writerRunning := true
      writer := writer
      admitted := s.admitted ++ [i] } := by
  have hnew : i ∉ s.admitted := h.core.ready i hready
  have hfresh : s.submission i = ⟨false, false, false⟩ := h.core.fresh i hready
  have hcore : AuditCore calls (inFlight s.writer ++ s.pending) (s.setPhase i .waiting) :=
    h.core.setPhase (by simp) (by simp [hfresh]) (by simp)
  refine ⟨?_, by simp only; omega, by simpa using hevents, by simp [hrunning], fun habsent =>
    absurd habsent hrunning, fun batch hbatch => h.settling batch (hsettling batch hbatch)⟩
  simp only [hwriter, ← List.append_assoc]
  refine { hcore with
    nodup := ?_
    mem := fun j => ?_
    admitted := ?_
    accepted := fun j hj => ?_
    ready := fun j hj => ?_
    count := ?_
    events := ?_ }
  · refine List.nodup_append.2 ⟨h.core.nodup, List.nodup_singleton i, fun j hj k hk => ?_⟩
    rw [List.mem_singleton] at hk
    rintro rfl
    exact hnew (hk ▸ ((h.core.mem j).1 hj).1)
  · show j ∈ (inFlight s.writer ++ s.pending) ++ [i] ↔
      j ∈ s.admitted ++ [i] ∧ (s.submission j).done = false
    rw [List.mem_append, List.mem_singleton, List.mem_append (s := s.admitted), List.mem_singleton]
    rw [h.core.mem j]
    by_cases hj : j = i
    · subst hj
      simp [hfresh]
    · simp [hj]
  · refine List.nodup_append.2 ⟨h.core.admitted, List.nodup_singleton i, fun j hj k hk => ?_⟩
    rw [List.mem_singleton] at hk
    rintro rfl
    exact hnew (hk ▸ hj)
  · obtain hold | hlast := List.mem_append.1 hj
    · exact h.core.accepted j hold
    · exact List.mem_singleton.1 hlast ▸ haccepted
  · have hji : j ≠ i := by
      rintro rfl
      simp [AuditState.setPhase] at hj
    rw [List.mem_append, List.mem_singleton, not_or]
    exact ⟨hcore.ready j hj, hji⟩
  · rw [List.length_append, List.length_singleton]
    simp only [h.core.count]
    omega
  · rw [totalEntries_append, ← h.core.events]
    simp [totalEntries]

lemma AuditInv.submit (h : AuditInv calls s) {i : ι} (hready : s.phase i = .ready)
    (threadStarts : Bool) : AuditInv calls (s.submit calls i threadStarts) := by
  unfold AuditState.submit
  simp only
  split
  · exact h.raised i
  · rename_i hopen
    simp only [Bool.or_eq_true, Bool.not_eq_true', decide_eq_true_eq, not_or, Bool.not_eq_false,
      not_le, not_lt] at hopen
    obtain ⟨⟨⟨haccepted, -⟩, hcount⟩, hevents⟩ := hopen
    split
    · cases hrunning : s.writerRunning with
      | true =>
        exact h.queue hready haccepted hcount hevents rfl (h.running.1 hrunning) fun _ hb => hb
      | false =>
        have habsent : s.writer = .absent := by
          by_contra hnot
          rw [h.running.2 hnot] at hrunning
          cases hrunning
        refine h.queue hready haccepted hcount hevents ?_ ?_ ?_
        · simp [habsent, inFlight]
        · simp
        · simp
    · exact h.raised i

/-- A caller that raised marks its unfinished submission. -/
lemma AuditCore.cancel {ids : List ι} (h : AuditCore calls ids s) {i : ι}
    (hphase : s.phase i = .raised) (hopen : (s.submission i).done = false) :
    AuditCore calls ids { s with
      submission := Function.update s.submission i { s.submission i with cancelled := true }
      admissionBlocked := true } := by
  refine { h with
    mem := fun j => ?_
    fresh := fun j hj => ?_
    finished := fun j => ?_
    successful := fun j hok => ?_
    cancelled := fun j => ?_
    returned := fun j hj => ?_ }
  all_goals by_cases hji : j = i
  all_goals try subst hji
  · simpa using h.mem j
  · simpa [hji] using h.mem j
  · cases hphase.symm.trans hj
  · simpa [hji] using h.fresh j hj
  · simpa using h.finished j
  · simpa [hji] using h.finished j
  · have hdone := (h.successful j (by simpa using hok)).1
    rw [hopen] at hdone
    cases hdone
  · simpa [hji] using h.successful j (by simpa [hji] using hok)
  · exact fun _ => hphase
  · simpa [hji] using h.cancelled j
  · cases hphase.symm.trans hj
  · simpa [hji] using h.returned j hj

lemma AuditInv.giveUp (h : AuditInv calls s) (i : ι) : AuditInv calls (s.giveUp i) := by
  unfold AuditState.giveUp
  split
  · exact h.conclude i
  · rename_i hopen
    have hcore := (h.raised i).core.cancel (Function.update_self i _ _)
      (Bool.eq_false_of_not_eq_true hopen)
    exact ⟨hcore, h.countBound, h.eventBound, h.running, h.queued, h.settling⟩

omit [DecidableEq ι] in
lemma totalEntries_nonneg (calls : ι → AuditCall) (ids : List ι) : 0 ≤ totalEntries calls ids := by
  refine List.sum_nonneg fun n hn => ?_
  obtain ⟨i, -, rfl⟩ := List.mem_map.1 hn
  exact Int.natCast_nonneg _

/-- The writer finishes some submissions; the others are in flight or queued. -/
lemma AuditInv.finishSome (h : AuditInv calls s) {ids pending : List ι} {successful blocked : Bool}
    (hold : s.writer ≠ .absent) (hnew : writer ≠ .absent)
    (hsettling : ∀ batch, writer ≠ .settling batch true)
    (hperm : (inFlight s.writer ++ s.pending).Perm (ids ++ (inFlight writer ++ pending)))
    (hsuccess : successful = true → ∀ i ∈ ids, ∃ tx ∈ s.transactions, (calls i).entries <:+: tx) :
    AuditInv calls { finishAll calls successful s ids with
      pending := pending
      admissionBlocked := blocked
      writer := writer } := by
  have hsplit := h.core.perm hperm
  have hids := (List.nodup_append.1 hsplit.nodup).1
  have hcore := hsplit.finishAll successful hsuccess
  have hnonneg := totalEntries_nonneg calls ids
  have hcount := h.countBound
  have hevents := h.eventBound
  have hrunning := h.running.2 hold
  rw [finishAll_eq hids] at hcore ⊢
  refine ⟨{ hcore with }, ?_, ?_, iff_of_true hrunning hnew, fun habsent => absurd habsent hnew,
    fun batch hbatch => absurd hbatch (hsettling batch)⟩
  · show s.pendingCount - _ ≤ _
    omega
  · show s.pendingEvents - _ ≤ _
    omega

lemma collect_eq (calls : ι → AuditCall) (hpending : s.pending.Nodup) :
    ∃ taken rest, s.pending = taken ++ rest ∧ s.collect calls =
      { finishAll calls false s (taken.filter fun i => (s.submission i).cancelled) with
        pending := rest
        admissionBlocked := s.admissionBlocked
        writer := .writing (taken.filter fun i => !(s.submission i).cancelled) } ∧
      ((∀ i ∈ s.pending, (calls i).accepted = true) → s.pending ≠ [] → taken ≠ []) := by
  obtain ⟨taken, rest, hqueue, hloop, htaken⟩ := collectLoop_spec [] 0 hpending s
  refine ⟨taken, rest, hqueue, ?_, htaken rfl rfl⟩
  have hblocked : (finishAll calls false s
      (taken.filter fun i => (s.submission i).cancelled)).admissionBlocked =
        s.admissionBlocked := by
    rw [finishAll_eq (((List.nodup_append.1 (hqueue ▸ hpending)).1).filter _)]
  rw [AuditState.collect, hloop, ← hblocked]
  rfl

lemma AuditInv.collect (h : AuditInv calls s) (hwriter : s.writer = .window) :
    AuditInv calls (s.collect calls) := by
  have hpending : s.pending.Nodup := (List.nodup_append.1 h.core.nodup).2.1
  obtain ⟨taken, rest, hqueue, hcollect, -⟩ := collect_eq calls hpending
  rw [hcollect]
  refine h.finishSome (fun habsent => nomatch hwriter.symm.trans habsent) ?_ ?_ ?_ ?_
  · exact nofun
  · exact nofun
  · simp only [hwriter, hqueue, inFlight, List.nil_append, ← List.append_assoc]
    exact (List.filter_append_perm _ taken).symm.append_right rest
  · exact nofun

omit [DecidableEq ι] in
lemma AuditInv.batch_nodup (h : AuditInv calls s) {batch : List ι}
    (hwriter : s.writer = .settling batch successful) : batch.Nodup := by
  have hnodup := h.core.nodup
  rw [hwriter, inFlight] at hnodup
  exact (List.nodup_append.1 hnodup).1

lemma AuditInv.settle_pending (h : AuditInv calls s) {batch : List ι}
    (hwriter : s.writer = .settling batch successful) :
    (s.settle calls batch successful).pending = s.pending := by
  change (finishAll calls successful s batch).pending = s.pending
  rw [finishAll_eq (h.batch_nodup hwriter)]

lemma AuditInv.settle (h : AuditInv calls s) {batch : List ι}
    (hwriter : s.writer = .settling batch successful) :
    AuditInv calls (s.settle calls batch successful) := by
  have hpending := h.settle_pending hwriter
  rw [AuditState.settle, ← finishAll] at hpending ⊢
  refine h.finishSome (fun habsent => nomatch hwriter.symm.trans habsent) ?_ ?_ ?_ ?_
  · exact nofun
  · exact nofun
  · rw [hwriter, show (finishAll calls successful s batch).pending = s.pending from hpending]
    rfl
  · rintro rfl
    exact h.settling batch hwriter

omit [DecidableEq ι] in
lemma AuditInv.store (h : AuditInv calls s) {batch : List ι} (hwriter : s.writer = .writing batch)
    (outcome : StoreOutcome) (before after : Int) :
    AuditInv calls (s.store calls batch outcome before after) := by
  have hrunning : s.writerRunning = true := h.running.2 fun habsent =>
    nomatch hwriter.symm.trans habsent
  have hcore := h.core
  rw [hwriter] at hcore
  have hfailed : AuditInv calls { s with writer := .settling batch false } :=
    ⟨{ hcore with }, h.countBound, h.eventBound, iff_of_true hrunning (by simp), by simp, by simp⟩
  have hcommitted : AuditInv calls { s with
      writer := .settling batch (outcome = .committed)
      table := AuditState.transaction calls batch before after s.table
      transactions := s.transactions ++ [batch.flatMap fun i => (calls i).entries] } := by
    refine ⟨{ hcore with successful := fun i hok => ?_ }, h.countBound, h.eventBound,
      iff_of_true hrunning (by simp), by simp, fun members hmembers i hi => ?_⟩
    · obtain ⟨hdone, hcancelled, tx, htx, hentries⟩ := hcore.successful i hok
      exact ⟨hdone, hcancelled, tx, List.mem_append_left _ htx, hentries⟩
    · obtain ⟨rfl, -⟩ := (WriterPhase.settling.injEq ..).mp hmembers
      refine ⟨_, List.mem_append_right _ (List.mem_singleton_self _), ?_⟩
      exact infix_flatMap (fun i => (calls i).entries) hi
  unfold AuditState.store
  split
  · exact hfailed
  · cases outcome with
    | committed => exact hcommitted
    | committedThenRaised => exact hcommitted
    | rolledBack => exact hfailed

inductive AuditStep (calls : ι → AuditCall) (s : AuditState ι) : AuditEvent ι → AuditState ι → Prop
  | submit {i : ι} {threadStarts : Bool} (hready : s.phase i = .ready) :
    AuditStep calls s (.submit i threadStarts) (s.submit calls i threadStarts)
  | timeOut {i : ι} (hwaiting : s.phase i = .waiting) :
    AuditStep calls s (.timeOut i) (s.setPhase i .timedOut)
  | giveUp {i : ι} (htimedOut : s.phase i = .timedOut) : AuditStep calls s (.giveUp i) (s.giveUp i)
  | wake {i : ι} (hwaiting : s.phase i = .waiting) : AuditStep calls s (.wake i) (s.conclude i)
  | look {writer : WriterPhase ι} (hwriter : s.writer = .starting ∨ s.writer = .idle)
    (hnext : writer = .idle ∧ s.pending = [] ∨ writer = .window) :
    AuditStep calls s .look { s with writer := writer }
  | stay (hwriter : s.writer = .idle) : AuditStep calls s .idleTimeout { s with writer := .window }
  | leave (hwriter : s.writer = .idle) (hpending : s.pending = []) :
    AuditStep calls s .idleTimeout { s with writerRunning := false, writer := .absent }
  | collect (hwriter : s.writer = .window) : AuditStep calls s .collect (s.collect calls)
  | store {batch : List ι} {outcome : StoreOutcome} {before after : Int}
    (hwriter : s.writer = .writing batch) :
    AuditStep calls s (.store outcome before after) (s.store calls batch outcome before after)
  | settle {batch : List ι} {successful : Bool} (hwriter : s.writer = .settling batch successful) :
    AuditStep calls s .settle (s.settle calls batch successful)

variable {event : AuditEvent ι}

lemma auditStep_cases (hstep : s.step calls event = some s') :
    AuditStep calls s event s' := by
  cases event with
  | submit i threadStarts =>
    obtain ⟨hready, hnext⟩ := Option.ite_none_right_eq_some.1 hstep
    cases hnext
    exact .submit hready
  | timeOut i =>
    obtain ⟨hwaiting, hnext⟩ := Option.ite_none_right_eq_some.1 hstep
    cases hnext
    exact .timeOut hwaiting.1
  | giveUp i =>
    obtain ⟨htimedOut, hnext⟩ := Option.ite_none_right_eq_some.1 hstep
    cases hnext
    exact .giveUp htimedOut
  | wake i =>
    obtain ⟨hwaiting, hnext⟩ := Option.ite_none_right_eq_some.1 hstep
    cases hnext
    exact .wake hwaiting.1
  | look =>
    simp only [AuditState.step] at hstep
    split at hstep
    all_goals cases hstep
    all_goals refine .look (by simp [*]) ?_
    all_goals by_cases hpending : s.pending = [] <;> simp [hpending]
  | idleTimeout =>
    simp only [AuditState.step] at hstep
    split at hstep
    · split at hstep
      · cases hstep
        exact .leave ‹_› ‹_›
      · cases hstep
        exact .stay ‹_›
    · cases hstep
  | collect =>
    simp only [AuditState.step] at hstep
    split at hstep
    · cases hstep
      exact .collect ‹_›
    · cases hstep
  | store outcome before after =>
    simp only [AuditState.step] at hstep
    split at hstep
    · cases hstep
      exact .store ‹_›
    · cases hstep
  | settle =>
    simp only [AuditState.step] at hstep
    split at hstep
    · cases hstep
      exact .settle ‹_›
    · cases hstep

omit [DecidableEq ι] in
lemma AuditInv.look (h : AuditInv calls s) (hflight : inFlight s.writer = [])
    (hold : s.writer ≠ .absent)
    (hnew : writer = .idle ∨ writer = .window) :
    AuditInv calls { s with writer := writer } := by
  have hcore := h.core
  rw [hflight] at hcore
  have hrunning := h.running.2 hold
  obtain rfl | rfl := hnew
  all_goals exact ⟨{ hcore with }, h.countBound, h.eventBound, iff_of_true hrunning (by simp),
    by simp, by simp⟩

lemma AuditInv.step (h : AuditInv calls s)
    (hstep : AuditStep calls s event s') : AuditInv calls s' := by
  cases hstep with
  | submit hready => exact h.submit hready _
  | timeOut hwaiting =>
    refine h.setPhase (by simp) (fun hcancelled => ?_) (by simp)
    cases hwaiting.symm.trans (h.core.cancelled _ hcancelled)
  | giveUp _ => exact h.giveUp _
  | wake _ => exact h.conclude _
  | look hwriter hnext =>
    refine h.look ?_ ?_ (hnext.imp_left And.left)
    · rcases hwriter with hwriter | hwriter <;> simp [hwriter, inFlight]
    · rcases hwriter with hwriter | hwriter <;> simp [hwriter]
  | stay hwriter => exact h.look (by simp [hwriter, inFlight]) (by simp [hwriter]) (.inr rfl)
  | leave hwriter hpending =>
    have hcore := h.core
    rw [hwriter] at hcore
    exact ⟨{ hcore with }, h.countBound, h.eventBound, by simp, fun _ => hpending, by simp⟩
  | collect hwriter => exact h.collect hwriter
  | store hwriter => exact h.store hwriter _ _ _
  | settle hwriter => exact h.settle hwriter

omit [DecidableEq ι] in
lemma AuditInv.initial (table : AuditTable) :
    AuditInv calls (AuditState.initial table : AuditState ι) := by
  refine ⟨⟨.nil, ?_, .nil, ?_, ?_, ?_, rfl, rfl, ?_, ?_, ?_, ?_⟩, ?_, ?_, ?_, ?_, ?_⟩
  all_goals simp [AuditState.initial, inFlight, maxPendingSubmissions, maxPendingEvents]

/-- The rule for runs: what every step from an invariant state keeps, a run keeps. -/
lemma run_induction {P : AuditState ι → Prop}
    (hkeep : ∀ s s' event, AuditInv calls s → P s → AuditStep calls s event s' → P s')
    {events : List (AuditEvent ι)} (h : AuditInv calls s) (hP : P s)
    (hrun : s.run calls events = some s') : AuditInv calls s' ∧ P s' := by
  induction events generalizing s with
  | nil =>
    cases hrun
    exact ⟨h, hP⟩
  | cons event events ih =>
    obtain ⟨next, hnext, hrest⟩ := Option.bind_eq_some_iff.1 hrun
    have hstep := auditStep_cases hnext
    exact ih (h.step hstep) (hkeep s next event h hP hstep) hrest

/-- A submission that is finished stays as it is, a cancelled one stays cancelled, an admitted one
stays admitted. -/
def SubmissionKept (i : ι) (s s' : AuditState ι) : Prop :=
  ((s.submission i).done = true → s'.submission i = s.submission i) ∧
    ((s.submission i).cancelled = true → (s'.submission i).cancelled = true) ∧
    (i ∈ s.admitted → i ∈ s'.admitted)

/-- What one event does to the submissions. -/
lemma step_keeps (h : AuditInv calls s) (hstep : AuditStep calls s event s')
    (i : ι) : SubmissionKept i s s' := by
  -- Only unfinished submissions are finished.
  have hfinish : ∀ ids : List ι, ids.Sublist (inFlight s.writer ++ s.pending) →
      ∀ successful, SubmissionKept i s (finishAll calls successful s ids) := by
    intro ids hsub successful
    rw [finishAll_eq (h.core.nodup.sublist hsub)]
    refine ⟨fun hdone => ?_, fun hcancelled => ?_, id⟩
    · have hnot : i ∉ ids := fun hi => by
        have hopen := ((h.core.mem i).1 (hsub.subset hi)).2
        rw [hdone] at hopen
        cases hopen
      simp [hnot]
    · by_cases hi : i ∈ ids
      · simpa [hi, concludedAs] using hcancelled
      · simpa [hi] using hcancelled
  cases hstep with
  | submit hready =>
    unfold AuditState.submit
    simp only
    split
    · exact ⟨fun _ => rfl, id, id⟩
    · split
      · exact ⟨fun _ => rfl, id, List.mem_append_left _⟩
      · exact ⟨fun _ => rfl, id, id⟩
  | timeOut _ => exact ⟨fun _ => rfl, id, id⟩
  | @giveUp j _ =>
    unfold AuditState.giveUp
    split
    · exact ⟨fun _ => rfl, id, id⟩
    · rename_i hopen
      refine ⟨fun hdone => ?_, fun hcancelled => ?_, id⟩
      · have hne : i ≠ j := by
          rintro rfl
          exact hopen hdone
        simp [hne]
      · by_cases hij : i = j
        · simp [hij]
        · simpa [hij] using hcancelled
  | wake _ => exact ⟨fun _ => rfl, id, id⟩
  | look _ _ => exact ⟨fun _ => rfl, id, id⟩
  | stay _ => exact ⟨fun _ => rfl, id, id⟩
  | leave _ _ => exact ⟨fun _ => rfl, id, id⟩
  | collect hwriter =>
    obtain ⟨taken, rest, hqueue, hcollect, -⟩ :=
      collect_eq calls (List.nodup_append.1 h.core.nodup).2.1
    have hsub : (taken.filter fun i => (s.submission i).cancelled).Sublist
        (inFlight s.writer ++ s.pending) := by
      rw [hqueue]
      exact (List.filter_sublist.trans (List.sublist_append_left _ _)).trans
        (List.sublist_append_right _ _)
    rw [hcollect]
    exact hfinish _ hsub false
  | store hwriter =>
    unfold AuditState.store
    split
    · exact ⟨fun _ => rfl, id, id⟩
    · split <;> exact ⟨fun _ => rfl, id, id⟩
  | @settle batch successful hwriter =>
    have hsub : batch.Sublist (inFlight s.writer ++ s.pending) := by
      rw [hwriter]
      exact List.sublist_append_left _ _
    exact hfinish batch hsub successful

/-- A submission that failed, or is in a batch that did. -/
def AuditFailed (i : ι) (s : AuditState ι) : Prop :=
  (s.submission i).done = true ∧ (s.submission i).successful = false ∨
    ∃ batch, s.writer = .settling batch false ∧ i ∈ batch

lemma AuditFailed.step (h : AuditInv calls s) {i : ι} (hfailed : AuditFailed i s)
    (hstep : AuditStep calls s event s') : AuditFailed i s' := by
  obtain ⟨hdone, hfailed⟩ | ⟨batch, hbatch, hi⟩ := hfailed
  · have hkept := (step_keeps h hstep i).1 hdone
    exact .inl (by rw [hkept]; exact ⟨hdone, hfailed⟩)
  · have hwriter : s.writerRunning = true := h.running.2 (by simp [hbatch])
    cases hstep with
    | submit hready =>
      refine .inr ⟨batch, ?_, hi⟩
      unfold AuditState.submit
      simp only
      split
      · exact hbatch
      · split
        · simp [hbatch]
        · exact hbatch
    | timeOut _ => exact .inr ⟨batch, hbatch, hi⟩
    | giveUp _ =>
      refine .inr ⟨batch, ?_, hi⟩
      unfold AuditState.giveUp
      split <;> exact hbatch
    | wake _ => exact .inr ⟨batch, hbatch, hi⟩
    | look hidle _ => simp [hbatch] at hidle
    | stay hidle => simp [hbatch] at hidle
    | leave hidle _ => simp [hbatch] at hidle
    | collect hwindow => simp [hbatch] at hwindow
    | store hwriting => simp [hbatch] at hwriting
    | settle hsettling =>
      obtain ⟨rfl, rfl⟩ := (WriterPhase.settling.injEq ..).mp (hbatch.symm.trans hsettling)
      refine .inl ?_
      rw [AuditState.settle, ← finishAll, finishAll_eq (h.batch_nodup hbatch)]
      simp [hi, concludedAs]

/-! ## Every admitted submission is finished -/

def isWriterEvent : AuditEvent ι → Bool
  | .look | .idleTimeout | .collect | .store .. | .settle => true
  | _ => false

/-- Writer events up to the end of the current round. -/
def roundLeft : WriterPhase ι → Nat
  | .absent => 0
  | .starting => 4
  | .idle => 4
  | .window => 3
  | .writing _ => 2
  | .settling .. => 1

/-- Rounds that have to end before the queue is looked at again. -/
def roundsAhead : WriterPhase ι → Nat
  | .writing _ | .settling .. => 1
  | _ => 0

/-- Writer events after which a submission is surely finished: a round takes at least one off the
front of the queue. -/
def remaining (s : AuditState ι) (i : ι) : Nat :=
  roundLeft s.writer +
    if i ∈ s.pending then 4 * (s.pending.idxOf i + roundsAhead s.writer) else 0

omit [DecidableEq ι] in
lemma AuditInv.present (h : AuditInv calls s) {i : ι} (hi : i ∈ inFlight s.writer ++ s.pending) :
    s.writer ≠ .absent := by
  intro habsent
  rw [habsent, h.queued habsent] at hi
  cases hi

/-- Each writer event brings an unfinished submission nearer to its end, no other event takes it
away. -/
lemma remaining_step (h : AuditInv calls s)
    (hstep : AuditStep calls s event s') {i : ι} (hi : i ∈ inFlight s.writer ++ s.pending)
    (hi' : i ∈ inFlight s'.writer ++ s'.pending) :
    remaining s' i + (if isWriterEvent event then 1 else 0) ≤ remaining s i := by
  have hrunning := h.running.2 (h.present hi)
  cases hstep with
  | @submit j threadStarts hready =>
    have hij : i ≠ j := by
      rintro rfl
      exact h.core.ready i hready ((h.core.mem i).1 hi).1
    refine le_of_eq ?_
    show remaining _ i = _
    unfold AuditState.submit
    simp only
    split
    · rfl
    · simp only [hrunning, Bool.true_or, if_true, remaining, AuditState.setPhase, List.mem_append,
        List.mem_singleton, hij, or_false]
      split
      · rename_i hmem
        rw [List.idxOf_append_of_mem hmem]
      · rfl
  | timeOut _ => exact le_refl _
  | giveUp _ =>
    unfold AuditState.giveUp
    split <;> exact le_refl _
  | wake _ => exact le_refl _
  | look hwriter hnext =>
    have hmem : i ∈ s.pending := by
      rcases hwriter with hwriter | hwriter <;> simpa [hwriter, inFlight] using hi
    have hnext : _ = WriterPhase.window := hnext.resolve_left fun hidle =>
      List.ne_nil_of_mem hmem hidle.2
    rcases hwriter with hwriter | hwriter <;>
      simp only [remaining, hmem, hnext, hwriter, roundLeft, roundsAhead, isWriterEvent,
        if_true] <;>
      omega
  | stay hwriter =>
    have hmem : i ∈ s.pending := by simpa [hwriter, inFlight] using hi
    simp only [remaining, hmem, hwriter, roundLeft, roundsAhead, isWriterEvent, if_true]
    omega
  | leave hwriter hpending =>
    simp [hwriter, hpending, inFlight] at hi
  | collect hwriter =>
    have hmem : i ∈ s.pending := by simpa [hwriter, inFlight] using hi
    have hpending : s.pending.Nodup := (List.nodup_append.1 h.core.nodup).2.1
    obtain ⟨taken, rest, hqueue, hcollect, htaken⟩ := collect_eq calls hpending
    have hsome : taken ≠ [] := htaken (fun j hj => h.core.accepted j
      ((h.core.mem j).1 (List.mem_append_right _ hj)).1) (List.ne_nil_of_mem hmem)
    have hlength : 0 < taken.length := List.length_pos_of_ne_nil hsome
    rw [hcollect]
    simp only [remaining, hmem, hwriter, roundLeft, roundsAhead, isWriterEvent, if_true]
    split
    · rename_i hrest
      have hnot : i ∉ taken := fun htaken =>
        (List.nodup_append.1 (hqueue ▸ hpending)).2.2 i htaken i hrest rfl
      have hindex : s.pending.idxOf i = rest.idxOf i + taken.length := by
        rw [hqueue, List.idxOf_append_of_notMem hnot, Nat.add_comm]
      omega
    · omega
  | @store batch outcome before after hwriter =>
    obtain ⟨hpending, successful, hnext⟩ :
        (s.store calls batch outcome before after).pending = s.pending ∧ ∃ successful,
        (s.store calls batch outcome before after).writer = .settling batch successful := by
      unfold AuditState.store
      split
      · exact ⟨rfl, _, rfl⟩
      · split <;> exact ⟨rfl, _, rfl⟩
    simp only [remaining, hpending, hwriter, hnext, roundLeft, roundsAhead, isWriterEvent, if_true]
    omega
  | @settle batch successful hwriter =>
    have hpending := h.settle_pending hwriter
    have hmem : i ∈ s.pending := by
      rw [hpending] at hi'
      exact hi'
    have hnext : (s.settle calls batch successful).writer = .starting := rfl
    simp only [remaining, hpending, hmem, hwriter, hnext, roundLeft, roundsAhead, isWriterEvent,
      if_true]
    omega

lemma remaining_pos (h : AuditInv calls s) {i : ι} (hi : i ∈ inFlight s.writer ++ s.pending) :
    0 < remaining s i := by
  have hround : 0 < roundLeft s.writer := by
    cases hwriter : s.writer <;> simp [roundLeft]
    exact h.present hi hwriter
  exact Nat.lt_of_lt_of_le hround (Nat.le_add_right _ _)

/-- The queue is short, so no submission has to wait long. -/
lemma remaining_le (h : AuditInv calls s) (i : ι) : remaining s i ≤ 66 := by
  have hcount := h.core.count
  have hbound := h.countBound
  have hround : roundLeft s.writer + 4 * roundsAhead s.writer ≤ 6 := by
    cases s.writer <;> simp [roundLeft, roundsAhead]
  rw [List.length_append] at hcount
  unfold maxPendingSubmissions at hbound
  unfold remaining
  split
  · rename_i hmem
    have hindex := List.idxOf_lt_length_of_mem hmem
    omega
  · omega

lemma remaining_run {i : ι} {events : List (AuditEvent ι)} (h : AuditInv calls s)
    (hadmitted : i ∈ s.admitted) (hrun : s.run calls events = some s')
    (hopen : (s'.submission i).done = false) :
    events.countP isWriterEvent < remaining s i := by
  induction events generalizing s with
  | nil =>
    cases hrun
    exact remaining_pos h ((h.core.mem i).2 ⟨hadmitted, hopen⟩)
  | cons event events ih =>
    obtain ⟨next, hnext, hrest⟩ := Option.bind_eq_some_iff.1 hrun
    have hstep := auditStep_cases hnext
    have hadmitted' : i ∈ next.admitted := (step_keeps h hstep i).2.2 hadmitted
    have hlater := ih (h.step hstep) hadmitted' hrest
    -- A submission finished on the way would be finished at the end.
    have hopen' : (next.submission i).done = false := by
      by_contra hdone
      rw [Bool.not_eq_false] at hdone
      have hend := (run_induction (P := fun t => (t.submission i).done = true)
        (fun t t' event ht hP hmove => by rw [(step_keeps ht hmove i).1 hP]; exact hP)
        (h.step hstep) hdone hrest).2
      rw [hopen] at hend
      cases hend
    have hbefore : (s.submission i).done = false := by
      by_contra hdone
      rw [Bool.not_eq_false] at hdone
      rw [(step_keeps h hstep i).1 hdone, hdone] at hopen'
      cases hopen'
    have hdrop := remaining_step h hstep ((h.core.mem i).2 ⟨hadmitted, hbefore⟩)
      (((h.step hstep).core.mem i).2 ⟨hadmitted', hopen'⟩)
    rw [List.countP_cons]
    omega

lemma writer_enabled (h : AuditInv calls s) {i : ι} (hi : i ∈ inFlight s.writer ++ s.pending) :
    ∃ event, isWriterEvent event = true ∧ (s.step calls event).isSome = true := by
  cases hwriter : s.writer with
  | absent => exact absurd hwriter (h.present hi)
  | starting => exact ⟨.look, rfl, by simp [AuditState.step, hwriter]⟩
  | idle => exact ⟨.look, rfl, by simp [AuditState.step, hwriter]⟩
  | window => exact ⟨.collect, rfl, by simp [AuditState.step, hwriter]⟩
  | writing batch => exact ⟨.store .rolledBack 0 0, rfl, by simp [AuditState.step, hwriter]⟩
  | settling batch successful => exact ⟨.settle, rfl, by simp [AuditState.step, hwriter]⟩

end Steps

/-! ## The table -/

section Table

lemma le_foldr_max {n : Nat} {l : List Nat} (hn : n ∈ l) : n ≤ l.foldr max 0 := by
  induction l with
  | nil => cases hn
  | cons m l ih =>
    rw [List.foldr_cons]
    obtain rfl | hn := List.mem_cons.1 hn
    · exact le_max_left _ _
    · exact (ih hn).trans (le_max_right _ _)

/-- The numbers that are kept are different and lie in a window. -/
lemma pruneCount_length (t : AuditTable) : t.pruneCount.rows.length ≤ maxEvents := by
  have hnodup : (t.pruneCount.rows.map AuditRow.seq).Nodup :=
    (List.pairwise_map.2 t.pruneCount.ordered).imp Nat.ne_of_lt
  have hwindow : t.pruneCount.rows.map AuditRow.seq ⊆
      List.range' (t.maxSeq + 1 - maxEvents) maxEvents := by
    intro n hn
    obtain ⟨row, hrow, rfl⟩ := List.mem_map.1 hn
    obtain ⟨hmem, hkeep⟩ := List.mem_filter.1 hrow
    have hmax : row.seq ≤ t.maxSeq := le_foldr_max (List.mem_map_of_mem hmem)
    have hlow := of_decide_eq_true hkeep
    rw [List.mem_range'_1]
    omega
  have hlength := (List.subperm_of_subset hnodup hwindow).length_le
  rwa [List.length_map, List.length_range'] at hlength

lemma write_entries (t : AuditTable) (entries : List AuditEntry) (checked : Option Int) :
    (t.write entries checked).rows.map AuditRow.entry = t.rows.map AuditRow.entry ++ entries := by
  have hrows : (t.write entries checked).rows = (entries.foldl AuditTable.insert t).rows := by
    cases checked <;> rfl
  rw [hrows]
  clear hrows
  induction entries generalizing t with
  | nil => simp
  | cons entry entries ih =>
    rw [List.foldl_cons, ih]
    simp [AuditTable.insert]

lemma inserted_entries {ι : Type} (calls : ι → AuditCall) (batch : List ι) (before : Int)
    (t : AuditTable) : (AuditState.inserted calls batch before t).rows.map AuditRow.entry =
      (t.prune before).rows.map AuditRow.entry ++ batch.flatMap fun i => (calls i).entries := by
  unfold AuditState.inserted
  generalize t.prune before = t
  induction batch generalizing t with
  | nil => simp
  | cons i batch ih => rw [List.foldl_cons, ih, write_entries, List.flatMap_cons, List.append_assoc]

end Table

section Runs

variable {ι : Type} [DecidableEq ι] {calls : ι → AuditCall} {s s' : AuditState ι}

lemma AuditInv.run {events : List (AuditEvent ι)} (h : AuditInv calls s)
    (hrun : s.run calls events = some s') : AuditInv calls s' :=
  (run_induction (P := fun _ => True) (fun _ _ _ _ _ _ => trivial) h trivial hrun).1

def unfinished (s : AuditState ι) : List ι :=
  s.admitted.filter fun i => !(s.submission i).done

omit [DecidableEq ι] in
lemma AuditInv.counters (h : AuditInv calls s) :
    s.pendingCount = (unfinished s).length ∧
      s.pendingEvents = totalEntries calls (unfinished s) := by
  have hperm : (inFlight s.writer ++ s.pending).Perm (unfinished s) := by
    refine (List.perm_ext_iff_of_nodup h.core.nodup (h.core.admitted.filter _)).2 fun i => ?_
    rw [h.core.mem i]
    simp
  exact ⟨by rw [h.core.count, hperm.length_eq], by rw [h.core.events, totalEntries_perm hperm]⟩

omit [DecidableEq ι] in
lemma AuditFailed.unsuccessful (h : AuditInv calls s) {i : ι} (hfailed : AuditFailed i s) :
    (s.submission i).successful = false := by
  obtain ⟨-, hno⟩ | ⟨batch, hbatch, hi⟩ := hfailed
  · exact hno
  · have hopen := ((h.core.mem i).1 (by rw [hbatch]; exact List.mem_append_left _ hi)).2
    by_contra hok
    rw [Bool.not_eq_false] at hok
    rw [(h.core.successful i hok).1] at hopen
    cases hopen

omit [DecidableEq ι] in
lemma store_failed {batch : List ι} {outcome : StoreOutcome} {before after : Int}
    (houtcome : outcome ≠ .committed) :
    (s.store calls batch outcome before after).writer = .settling batch false := by
  unfold AuditState.store
  split
  · rfl
  · cases outcome with
    | committed => exact absurd rfl houtcome
    | rolledBack => rfl
    | committedThenRaised => rfl

/-- Durable admission, over every run from a state in which nothing was submitted. -/
theorem durable_audit_admission (calls : ι → AuditCall) (table : AuditTable)
    (events : List (AuditEvent ι)) (s : AuditState ι)
    (hrun : (AuditState.initial table).run calls events = some s) :
    -- A call that returned has all its entries in one committed transaction.
    (∀ i, s.phase i = .returned → ∃ tx ∈ s.transactions, (calls i).entries <:+: tx) ∧
    -- A call that timed out has raised, and is not reported successful later.
    (∀ i later s', (s.submission i).cancelled = true → s.run calls later = some s' →
      s'.phase i = .raised ∧ (s'.submission i).successful = false) ∧
    -- An admitted submission is finished at most once, and the writer, which can go on as long
    -- as it is not, finishes it within a fixed number of its events.
    (∀ i ∈ s.admitted, s.finished i = (if (s.submission i).done then 1 else 0) ∧
      ((s.submission i).done = false →
        ∃ event, isWriterEvent event = true ∧ (s.step calls event).isSome = true) ∧
      ∀ later s', s.run calls later = some s' → 66 ≤ later.countP isWriterEvent →
        s'.finished i = 1) ∧
    -- The counters.
    (s.pendingCount = (unfinished s).length ∧ s.pendingEvents = totalEntries calls (unfinished s) ∧
      s.pendingCount ≤ 16 ∧ s.pendingEvents ≤ 1024 ∧
      (unfinished s = [] → s.pendingCount = 0 ∧ s.pendingEvents = 0)) ∧
    -- A batch that failed fails for each of its members.
    (∀ batch outcome before after later s', s.writer = .writing batch → outcome ≠ .committed →
      s.run calls (.store outcome before after :: later) = some s' →
      ∀ i ∈ batch, s'.phase i ≠ .returned ∧ (s'.submission i).successful = false) ∧
    -- A batch that was committed.
    (∀ batch before after s', s.writer = .writing batch → batch ≠ [] →
      s.step calls (.store .committed before after) = some s' →
      s'.table.rows.length ≤ 100000 ∧
      ∃ tx, s'.transactions = s.transactions ++ [tx] ∧
        s'.table = (AuditState.inserted calls batch before s.table).prune after ∧
        (AuditState.inserted calls batch before s.table).rows.map AuditRow.entry =
          (s.table.prune before).rows.map AuditRow.entry ++ tx) := by
  have h : AuditInv calls s := (AuditInv.initial table).run hrun
  refine ⟨fun i hreturned => ?_, fun i later s' hcancelled hlater => ?_, fun i hi => ⟨?_, ?_, ?_⟩,
    ?_, ?_, ?_⟩
  · exact (h.core.successful i (h.core.returned i hreturned)).2.2
  · obtain ⟨h', hcancelled'⟩ := run_induction
      (P := fun t => (t.submission i).cancelled = true)
      (fun t t' event ht hP hstep => (step_keeps ht hstep i).2.1 hP) h hcancelled hlater
    refine ⟨h'.core.cancelled i hcancelled', ?_⟩
    by_contra hok
    rw [Bool.not_eq_false] at hok
    rw [(h'.core.successful i hok).2.1] at hcancelled'
    cases hcancelled'
  · exact h.core.finished i
  · exact fun hopen => writer_enabled h ((h.core.mem i).2 ⟨hi, hopen⟩)
  · intro later s' hlater hmany
    have h' := h.run hlater
    rw [h'.core.finished i]
    by_contra hopen
    have hfew := remaining_run h hi hlater (by simpa using hopen)
    have hbound := remaining_le h i
    omega
  · obtain ⟨hcount, hevents⟩ := h.counters
    refine ⟨hcount, hevents, h.countBound, h.eventBound, fun hnone => ?_⟩
    rw [hcount, hevents, hnone]
    exact ⟨rfl, rfl⟩
  · intro batch outcome before after later s' hwriter houtcome hlater i hi
    obtain ⟨next, hnext, hrest⟩ := Option.bind_eq_some_iff.1 hlater
    simp only [AuditState.step, hwriter, Option.some.injEq] at hnext
    have hfailed : AuditFailed i next :=
      .inr ⟨batch, by rw [← hnext]; exact store_failed houtcome, hi⟩
    have hinv : AuditInv calls next := hnext ▸ h.store hwriter outcome before after
    obtain ⟨h', hfailed'⟩ := run_induction (P := AuditFailed i)
      (fun t t' event ht hP hstep => hP.step ht hstep) hinv hfailed hrest
    have hno := hfailed'.unsuccessful h'
    refine ⟨fun hreturned => ?_, hno⟩
    rw [h'.core.returned i hreturned] at hno
    cases hno
  · intro batch before after s' hwriter hbatch hstep
    simp only [AuditState.step, hwriter, Option.some.injEq, AuditState.store,
      if_neg hbatch] at hstep
    subst hstep
    exact ⟨pruneCount_length _, _, rfl, rfl, inserted_entries calls batch before s.table⟩

/-- Two callers whose entries are collected together, of which one does not wait. -/
theorem durable_audit_admission_append :
    ∃ s, (AuditState.initial AuditTable.empty).run
        (fun first : Bool => .append [(7, if first then "event" else "late")])
        [.submit true true, .submit false true, .look, .timeOut false, .giveUp false, .collect,
          .store .committed 7 8, .settle, .wake true] = some s ∧
      s.phase true = .returned ∧ s.phase false = .raised ∧ s.pendingCount = 0 ∧
      (∃ tx ∈ s.transactions, [((7 : Int), "event")] <:+: tx) ∧
      (s.submission false).successful = false := by
  let calls : Bool → AuditCall := fun first => .append [(7, if first then "event" else "late")]
  let events : List (AuditEvent Bool) :=
    [.submit true true, .submit false true, .look, .timeOut false, .giveUp false, .collect,
      .store .committed 7 8, .settle, .wake true]
  have hphase : ((AuditState.initial AuditTable.empty).run calls events).map
      (fun s => (s.phase true, (s.submission false).cancelled, s.pendingCount)) =
        some (.returned, true, 0) := by decide
  obtain ⟨s, hrun, hs⟩ := Option.map_eq_some_iff.1 hphase
  obtain ⟨hreturned, hs⟩ := Prod.mk.inj hs
  obtain ⟨hcancelled, hcount⟩ := Prod.mk.inj hs
  obtain ⟨hwritten, hraised, -⟩ :=
    durable_audit_admission calls AuditTable.empty events s hrun
  obtain ⟨hphase, hfailed⟩ := hraised false [] s hcancelled rfl
  exact ⟨s, hrun, hreturned, hphase, hcount, hwritten true hreturned, hfailed⟩

end Runs

end DevGraph.Proofs
