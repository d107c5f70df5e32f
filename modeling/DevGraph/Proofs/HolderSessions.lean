import DevGraph.Lib.Table
import DevGraph.Proofs.Effects
import DevGraph.Work.HolderSessions

/-!
# Histories of holder sessions

What one call can do to the retained outcomes, and what follows for every sequence of calls:
challenges and credentials stay, a review reported as expired stays without a credential, and only
the authorization that obtained a credential is given it again.
-/

namespace DevGraph.Proofs

open Lib Work

variable {checksum : Checksums} {host : HolderSessionHost} {around : Surroundings}
  {db db' : SessionDb} {key : SessionKey} {row : SessionRow} {returned : SessionReturn}

def Marked (db : SessionDb) (key : SessionKey) : Prop := db.expiredReviews.lookup key ≠ none

structure SessionInv (db : SessionDb) : Prop where
  request : ∀ key row, db.sessions.lookup key = some row → row.challenge.requestId = key.2
  deadline : ∀ key row, db.sessions.lookup key = some row →
    row.challenge.reviewDeadline ≤ row.challenge.expiresAt
  unissued : ∀ key row, db.sessions.lookup key = some row → Marked db key → row.credential = none

/-- The four things that a call can do to the first two tables. -/
inductive SessionEffect (db db' : SessionDb) : Prop
  | calm (hsessions : db'.sessions = db.sessions)
    (hexpired : db'.expiredReviews = db.expiredReviews)
  | prepared (key : SessionKey) (row : SessionRow) (hnew : db.sessions.lookup key = none)
    (hrequest : row.challenge.requestId = key.2)
    (hdeadline : row.challenge.reviewDeadline ≤ row.challenge.expiresAt)
    (hcredential : row.credential = none)
    (hsessions : db'.sessions = db.sessions.insert key row)
    (hexpired : db'.expiredReviews = db.expiredReviews)
  | marked (key : SessionKey) (row : SessionRow) (challengeId : String)
    (hrow : db.sessions.lookup key = some row) (hcredential : row.credential = none)
    (hsessions : db'.sessions = db.sessions)
    (hexpired : db'.expiredReviews = db.expiredReviews.insert key challengeId)
  | issued (key : SessionKey) (row : SessionRow) (digest credential : String)
    (hrow : db.sessions.lookup key = some row) (hcredential : row.credential = none)
    (hunmarked : ¬ Marked db key)
    (hsessions : db'.sessions = db.sessions.insert key
      { row with authorizationDigest := some digest, credential := some credential })
    (hexpired : db'.expiredReviews = db.expiredReviews)

inductive Review (host : HolderSessionHost) (db : SessionDb) (challenge : Challenge)
    (row : SessionRow) (current : Int) : Bool → SessionDb → Prop
  | before (hmarked : Marked db (host.service, challenge.requestId))
    (hcredential : row.credential = none) : Review host db challenge row current true db
  | now (hunmarked : ¬ Marked db (host.service, challenge.requestId))
    (hcredential : row.credential = none) (hlate : challenge.reviewDeadline ≤ current) :
    Review host db challenge row current true
      (db.expire (host.service, challenge.requestId) challenge.challengeId)
  | pending (hunmarked : ¬ Marked db (host.service, challenge.requestId))
    (hopen : row.credential ≠ none ∨ current < challenge.reviewDeadline) :
    Review host db challenge row current false db

lemma reviewExpired_review {challenge : Challenge} {current : Int} {expired : Bool}
    (h : host.reviewExpired db challenge row current = .ok (expired, db')) :
    Review host db challenge row current expired db' := by
  unfold HolderSessionHost.reviewExpired at h
  cases hmark : db.expiredReviews.lookup (host.service, challenge.requestId) with
  | some challengeId =>
    simp only [hmark, except_ok, not_or, not_not] at h
    obtain ⟨_, ⟨-, hcredential⟩, hpair⟩ := h
    cases hpair
    exact .before (by simp [Marked, hmark]) hcredential
  | none =>
    simp only [hmark] at h
    have hunmarked : ¬ Marked db (host.service, challenge.requestId) := by simp [Marked, hmark]
    split at h
    · rename_i hopen
      cases h
      exact .pending hunmarked hopen
    · rename_i hlate
      rw [not_or, not_not, not_lt] at hlate
      cases h
      exact .now hunmarked hlate.1 hlate.2

/-! ## Exchanges -/

lemma sealErrors_ok {α : Type} {message : String} {x : Except Error α} {a : α} :
    sealErrors message x = .ok a ↔ x = .ok a := mapError_ok

lemma sessionRecord_ok {n : Nat} {requestId : String}
    (h : host.sessionRecord checksum around n db requestId = .ok row) :
    db.sessions.lookup (host.service, requestId) = some row := by
  unfold HolderSessionHost.sessionRecord at h
  rw [except_bind_ok] at h
  obtain ⟨_, -, h⟩ := h
  cases hrow : db.sessions.lookup (host.service, requestId) with
  | none =>
    rw [hrow] at h
    cases h
  | some found =>
    simp only [hrow, except_ok] at h
    obtain ⟨_, -, rfl⟩ := h
    rfl

/-- What an exchange that returns did, by the row of its request. -/
inductive ExchangeEffect (checksum : Checksums) (host : HolderSessionHost) (around : Surroundings)
    (a : Authorization) (db : SessionDb) (row : SessionRow) : SessionResult → SessionDb → Prop
  | again {credential : String} (hcredential : row.credential = some credential) :
    ExchangeEffect checksum host around a db row
      (sessionResult a.challenge .issued (some credential)) db
  | spent (hcredential : row.credential ≠ none) :
    ExchangeEffect checksum host around a db row (sessionResult a.challenge .expired none) db
  | before (hmarked : Marked db (host.service, a.challenge.requestId)) :
    ExchangeEffect checksum host around a db row (sessionResult a.challenge .expired none) db
  | now (hcredential : row.credential = none) :
    ExchangeEffect checksum host around a db row (sessionResult a.challenge .expired none)
      (db.expire (host.service, a.challenge.requestId) a.challenge.challengeId)
  | issues {credential : String} (hcredential : row.credential = none)
    (hunmarked : ¬ Marked db (host.service, a.challenge.requestId))
    (hreadings : ∀ n < 3, a.challenge.issuedAt ≤ around.clock n ∧
      around.clock n < a.challenge.reviewDeadline) :
    ExchangeEffect checksum host around a db row
      (sessionResult a.challenge .issued (some credential))
      (db.retain (host.service, a.challenge.requestId) { row with
        authorizationDigest := some (checksum.authorization a), credential := some credential })

section Exchange

variable {a : Authorization} {outcomes : ExchangeOutcomes} {r : SessionResult}

/-- An expired review ends the exchange, without a credential. -/
lemma expired_effect {current : Int}
    (h : Review host db a.challenge row current true db') :
    ExchangeEffect checksum host around a db row (sessionResult a.challenge .expired none) db' := by
  cases h with
  | before hmarked => exact .before hmarked
  | now _ hcredential => exact .now hcredential

lemma retainCredential_eq (hrow : db.sessions.lookup key = some row)
    (hcredential : row.credential = none) {digest credential : String}
    (h : HolderSessionHost.retainCredential db key digest credential = .ok db') :
    db' = db.retain key { row with
      authorizationDigest := some digest, credential := some credential } := by
  simp only [HolderSessionHost.retainCredential, hrow, hcredential, ne_eq, not_true_eq_false,
    if_false, except_ok] at h
  obtain ⟨_, -, rfl⟩ := h
  rfl

lemma exchangeIssue_effect
    (hrow : db.sessions.lookup (host.service, a.challenge.requestId) = some row)
    (hcredential : row.credential = none) (hissued : a.challenge.issuedAt ≤ around.clock 0)
    (h : host.exchangeIssue checksum around outcomes a row db = .ok (r, db')) :
    ExchangeEffect checksum host around a db row r db' := by
  simp only [HolderSessionHost.exchangeIssue, except_bind_ok] at h
  obtain ⟨⟨expired, db1⟩, hfirst, h⟩ := h
  have hreview := reviewExpired_review hfirst
  cases expired with
  | true =>
    cases h
    exact expired_effect hreview
  | false =>
    cases hreview with
    | pending hunmarked hopen0 =>
    simp only [Bool.false_eq_true, if_false, except_ok, not_lt] at h
    obtain ⟨credential, -, _, -, _, hissued1, ⟨expired, db2⟩, hsecond, h⟩ := h
    have hreview := reviewExpired_review hsecond
    cases expired with
    | true =>
      cases h
      exact expired_effect hreview
    | false =>
      cases hreview with
      | pending _ hopen1 =>
      simp only [Bool.false_eq_true, if_false, HolderSessionHost.exchangeRetain, except_ok,
        not_lt] at h
      obtain ⟨_, -, _, -, _, hissued2, ⟨expired, db3⟩, hthird, h⟩ := h
      have hreview := reviewExpired_review hthird
      cases expired with
      | true =>
        cases h
        exact expired_effect hreview
      | false =>
        cases hreview with
        | pending _ hopen2 =>
        simp only [Bool.false_eq_true, if_false, except_ok, Prod.mk.injEq] at h
        obtain ⟨db4, hretained, rfl, rfl⟩ := h
        rw [retainCredential_eq hrow hcredential hretained]
        refine .issues hcredential hunmarked ?_
        have hopen : ∀ {current : Int},
            row.credential ≠ none ∨ current < a.challenge.reviewDeadline →
            current < a.challenge.reviewDeadline := fun h => h.resolve_left (not_not.2 hcredential)
        intro n hn
        obtain rfl | rfl | rfl : n = 0 ∨ n = 1 ∨ n = 2 := by omega
        · exact ⟨hissued, hopen hopen0⟩
        · exact ⟨hissued1, hopen hopen1⟩
        · exact ⟨hissued2, hopen hopen2⟩

lemma exchange_effect (hinv : SessionInv db)
    (h : host.exchange checksum around outcomes a db = .ok (r, db')) :
    ∃ row, db.sessions.lookup (host.service, a.challenge.requestId) = some row ∧
      row.challenge = a.challenge ∧
      (∀ digest ∈ row.authorizationDigest, digest = checksum.authorization a) ∧
      ExchangeEffect checksum host around a db row r db' := by
  simp only [HolderSessionHost.exchange, except_ok, sealErrors_ok,
    HolderSessionHost.exchangeLocked, not_lt, not_not] at h
  obtain ⟨_, -, _, -, _, -, _, hissued, _, -, row, hrecord, _, hchallenge, _, hdigest, h⟩ := h
  have hrow := sessionRecord_ok hrecord
  refine ⟨row, hrow, hchallenge, ?_, ?_⟩
  · intro digest hmem
    rw [Option.mem_def] at hmem
    simpa [hmem] using hdigest
  · split at h
    · rename_i hexpired
      rw [except_bind_ok] at h
      obtain ⟨⟨expired, db1⟩, hreview, h⟩ := h
      cases h
      have hreview := reviewExpired_review hreview
      cases expired with
      | true => exact expired_effect hreview
      | false =>
        cases hreview with
        | pending hunmarked hopen =>
        refine .spent (hopen.resolve_right ?_)
        -- the review deadline is not after the end
        have hdeadline := hinv.deadline _ _ hrow
        rw [hchallenge] at hdeadline
        exact not_lt.2 (hdeadline.trans hexpired)
    · simp only [except_ok] at h
      obtain ⟨_, -, _, -, h⟩ := h
      cases hcredential : row.credential with
      | some credential =>
        simp only [hcredential, HolderSessionHost.exchangeAgain, except_bind_ok] at h
        obtain ⟨_, -, h⟩ := h
        split at h
        · cases h
          exact .spent (by simp [hcredential])
        · simp only [except_ok, Prod.mk.injEq] at h
          obtain ⟨_, -, rfl, rfl⟩ := h
          exact .again hcredential
      | none =>
        rw [hcredential] at h
        exact exchangeIssue_effect hrow hcredential hissued h

/-- An exchange does one of the four things, on the row of its request. -/
lemma ExchangeEffect.session (h : ExchangeEffect checksum host around a db row r db')
    (hrow : db.sessions.lookup (host.service, a.challenge.requestId) = some row) :
    SessionEffect db db' := by
  cases h with
  | again => exact .calm rfl rfl
  | spent => exact .calm rfl rfl
  | before => exact .calm rfl rfl
  | now hcredential => exact .marked _ row _ hrow hcredential rfl rfl
  | issues hcredential hunmarked => exact .issued _ row _ _ hrow hcredential hunmarked rfl rfl

end Exchange

/-- The state that a status call reports, and the mark that it may leave. -/
inductive StatusEffect (db db' : SessionDb) (row : SessionRow) (key : SessionKey) :
    SessionResult → Prop
  | told {state : HolderSessionState} (hstate : state ≠ .expired)
    (hsessions : db'.sessions = db.sessions) (hexpired : db'.expiredReviews = db.expiredReviews) :
    StatusEffect db db' row key (sessionResult row.challenge state row.credential)
  | before (hmarked : Marked db key) (hsessions : db'.sessions = db.sessions)
    (hexpired : db'.expiredReviews = db.expiredReviews) :
    StatusEffect db db' row key (sessionResult row.challenge .expired row.credential)
  | now (hcredential : row.credential = none) (hsessions : db'.sessions = db.sessions)
    (hexpired : db'.expiredReviews = db.expiredReviews.insert key row.challenge.challengeId) :
    StatusEffect db db' row key (sessionResult row.challenge .expired row.credential)

section Status

variable {outcomes : StatusOutcomes} {proof : StatusProof} {r : SessionResult}

lemma status_effect (hinv : SessionInv db)
    (h : host.status checksum around outcomes proof db = .ok (r, db')) :
    ∃ row, db.sessions.lookup (host.service, proof.requestId) = some row ∧
      StatusEffect db db' row (host.service, proof.requestId) r := by
  simp only [HolderSessionHost.status, except_ok, sealErrors_ok, Prod.mk.injEq] at h
  rcases h with ⟨_, -, row, hrecord, _, -, _, -, _, -, _, -, _, -, _, -, ⟨state, db1⟩, hstate, _, -,
    _, -, rfl, rfl⟩
  have hrow := sessionRecord_ok hrecord
  have hrequest : row.challenge.requestId = proof.requestId := hinv.request _ _ hrow
  refine ⟨row, hrow, ?_⟩
  unfold HolderSessionHost.statusState at hstate
  cases hparent : around.parent 0 with
  | error e =>
    simp only [hparent] at hstate
    split at hstate
    · cases hstate
      exact .told (by simp) rfl rfl
    · cases hstate
  | ok parent =>
    simp only [hparent, except_ok, Prod.mk.injEq] at hstate
    obtain ⟨_, -, ⟨expired, db2⟩, hreview, rfl, rfl⟩ := hstate
    have hreview := reviewExpired_review hreview
    cases expired with
    | false =>
      cases hreview with
      | pending =>
      refine .told ?_ rfl rfl
      by_cases hcredential : row.credential = none <;> simp [hcredential]
    | true =>
      cases hreview with
      | before hmarked =>
        rw [hrequest] at hmarked
        exact .before hmarked rfl rfl
      | now _ hcredential =>
        refine .now hcredential rfl ?_
        rw [← hrequest]
        rfl

lemma StatusEffect.session (h : StatusEffect db db' row key r)
    (hrow : db.sessions.lookup key = some row) : SessionEffect db db' := by
  cases h with
  | told _ hsessions hexpired => exact .calm hsessions hexpired
  | before _ hsessions hexpired => exact .calm hsessions hexpired
  | now hcredential hsessions hexpired => exact .marked _ row _ hrow hcredential hsessions hexpired

end Status

section Prepare

variable {outcomes : PrepareOutcomes} {request : PrepareRequest} {challenge : Challenge}

lemma compilePrepare_deadline {current : Int}
    (h : host.compilePrepare checksum outcomes current request = .ok challenge) :
    challenge.reviewDeadline ≤ challenge.expiresAt := by
  simp only [HolderSessionHost.compilePrepare, except_ok, sealErrors_ok] at h
  obtain ⟨_, -, _, -, _, -, selected, -, _, -, _, -, rfl⟩ := h
  exact min_le_right _ _

lemma prepare_effect (h : host.prepare checksum around outcomes request db = .ok (challenge, db')) :
    db' = db ∨ ∃ key row, db.sessions.lookup key = none ∧ row.challenge.requestId = key.2 ∧
      row.challenge.reviewDeadline ≤ row.challenge.expiresAt ∧ row.credential = none ∧
      db' = db.retain key row := by
  simp only [HolderSessionHost.prepare, except_bind_ok] at h
  obtain ⟨_, -, fresh, hcompile, _, -, h⟩ := h
  cases hrow : db.sessions.lookup (host.service, fresh.requestId) with
  | some row =>
    simp only [hrow, except_ok, Prod.mk.injEq] at h
    obtain ⟨_, -, -, rfl⟩ := h
    exact .inl rfl
  | none =>
    simp only [hrow, except_ok, Prod.mk.injEq] at h
    obtain ⟨_, -, -, rfl⟩ := h
    exact .inr ⟨_, _, hrow, rfl, compilePrepare_deadline hcompile, rfl, rfl⟩

end Prepare

/-! ## Sequences of calls -/

lemma execute_exchange {outcomes : ExchangeOutcomes} {a : Authorization}
    (h : (SessionCall.exchange host around outcomes a).execute checksum db = .ok (returned, db')) :
    ∃ r, host.exchange checksum around outcomes a db = .ok (r, db') ∧
      returned = .result (host.service, a.challenge.requestId) r := by
  simp only [SessionCall.execute, except_ok, Prod.mk.injEq] at h
  obtain ⟨⟨r, db1⟩, hexchange, rfl, rfl⟩ := h
  exact ⟨r, hexchange, rfl⟩

lemma execute_status {outcomes : StatusOutcomes} {proof : StatusProof}
    (h : (SessionCall.status host around outcomes proof).execute checksum db =
      .ok (returned, db')) :
    ∃ r, host.status checksum around outcomes proof db = .ok (r, db') ∧
      returned = .result (host.service, proof.requestId) r := by
  simp only [SessionCall.execute, except_ok, Prod.mk.injEq] at h
  obtain ⟨⟨r, db1⟩, hstatus, rfl, rfl⟩ := h
  exact ⟨r, hstatus, rfl⟩

variable {call : SessionCall}

lemma execute_effect (hinv : SessionInv db)
    (h : call.execute checksum db = .ok (returned, db')) : SessionEffect db db' := by
  cases call with
  | prepare host around outcomes request =>
    simp only [SessionCall.execute, except_ok, Prod.mk.injEq] at h
    obtain ⟨⟨challenge, db1⟩, hprepare, -, rfl⟩ := h
    obtain rfl | ⟨key, row, hnew, hrequest, hdeadline, hnone, rfl⟩ := prepare_effect hprepare
    · exact .calm rfl rfl
    · exact .prepared key row hnew hrequest hdeadline hnone rfl rfl
  | exchange host around outcomes a =>
    obtain ⟨r, hexchange, -⟩ := execute_exchange h
    obtain ⟨row, hrow, -, -, heffect⟩ := exchange_effect hinv hexchange
    exact heffect.session hrow
  | status host around outcomes proof =>
    obtain ⟨r, hstatus, -⟩ := execute_status h
    obtain ⟨row, hrow, heffect⟩ := status_effect hinv hstatus
    exact heffect.session hrow

lemma marked_insert {challengeId : String} {other : SessionKey} :
    (db.expiredReviews.insert key challengeId).lookup other ≠ none ↔
      other = key ∨ Marked db other := by
  by_cases hkey : other = key
  · subst hkey
    simp
  · simp [AList.lookup_insert_ne hkey, hkey, Marked]

lemma SessionEffect.inv (h : SessionEffect db db') (hinv : SessionInv db) : SessionInv db' := by
  cases h with
  | calm hsessions hexpired =>
    refine ⟨?_, ?_, ?_⟩ <;> simp only [Marked, hsessions, hexpired]
    · exact hinv.request
    · exact hinv.deadline
    · exact hinv.unissued
  | prepared key row hnew hrequest hdeadline hcredential hsessions hexpired =>
    refine ⟨?_, ?_, ?_⟩ <;> simp only [Marked, hsessions, hexpired] <;>
      intro other found hfound <;>
      obtain ⟨rfl, rfl⟩ | ⟨-, hold⟩ := Table.of_insert hfound
    · exact hrequest
    · exact hinv.request _ _ hold
    · exact hdeadline
    · exact hinv.deadline _ _ hold
    · exact fun _ => hcredential
    · exact hinv.unissued _ _ hold
  | marked key row challengeId hrow hcredential hsessions hexpired =>
    refine ⟨?_, ?_, ?_⟩ <;> simp only [Marked, hsessions, hexpired]
    · exact hinv.request
    · exact hinv.deadline
    · intro other found hfound hmarked
      obtain rfl | hmarked := marked_insert.1 hmarked
      · rw [hrow] at hfound
        cases hfound
        exact hcredential
      · exact hinv.unissued _ _ hfound hmarked
  | issued key row digest credential hrow hcredential hunmarked hsessions hexpired =>
    refine ⟨?_, ?_, ?_⟩ <;> simp only [Marked, hsessions, hexpired] <;>
      intro other found hfound <;>
      obtain ⟨rfl, rfl⟩ | ⟨-, hold⟩ := Table.of_insert hfound
    · exact hinv.request _ row hrow
    · exact hinv.request _ _ hold
    · exact hinv.deadline _ row hrow
    · exact hinv.deadline _ _ hold
    · exact fun hmarked => absurd hmarked hunmarked
    · exact hinv.unissued _ _ hold

/-- Later tables keep every challenge, every row with a credential and every mark. -/
structure Retains (db db' : SessionDb) : Prop where
  rows : ∀ key row, db.sessions.lookup key = some row →
    ∃ row', db'.sessions.lookup key = some row' ∧
    row'.challenge = row.challenge ∧ (row.credential ≠ none → row' = row)
  marks : ∀ key, Marked db key → Marked db' key

lemma Retains.refl (db : SessionDb) : Retains db db :=
  ⟨fun _ row hrow => ⟨row, hrow, rfl, fun _ => rfl⟩, fun _ h => h⟩

lemma Retains.trans {db1 db2 db3 : SessionDb} (h12 : Retains db1 db2) (h23 : Retains db2 db3) :
    Retains db1 db3 := by
  refine ⟨?_, fun key h => h23.marks key (h12.marks key h)⟩
  intro key row hrow
  obtain ⟨row2, hrow2, hchallenge2, hsame2⟩ := h12.rows key row hrow
  obtain ⟨row3, hrow3, hchallenge3, hsame3⟩ := h23.rows key row2 hrow2
  refine ⟨row3, hrow3, hchallenge3.trans hchallenge2, ?_⟩
  intro hcredential
  have hrow2 := hsame2 hcredential
  rw [hrow2] at hsame3
  exact hsame3 hcredential

lemma SessionEffect.retains (h : SessionEffect db db') : Retains db db' := by
  cases h with
  | calm hsessions hexpired =>
    refine ⟨?_, ?_⟩ <;> simp only [Marked, hsessions, hexpired]
    · exact (Retains.refl db).rows
    · exact (Retains.refl db).marks
  | prepared key row hnew hrequest hdeadline hcredential hsessions hexpired =>
    refine ⟨?_, ?_⟩ <;> simp only [Marked, hsessions, hexpired]
    · intro other found hfound
      refine ⟨found, ?_, rfl, fun _ => rfl⟩
      rw [AList.lookup_insert_ne, hfound]
      rintro rfl
      rw [hnew] at hfound
      cases hfound
    · exact (Retains.refl db).marks
  | marked key row challengeId hrow hcredential hsessions hexpired =>
    refine ⟨?_, ?_⟩ <;> simp only [Marked, hsessions, hexpired]
    · exact (Retains.refl db).rows
    · exact fun other hmarked => marked_insert.2 (.inr hmarked)
  | issued key row digest credential hrow hcredential hunmarked hsessions hexpired =>
    refine ⟨?_, ?_⟩ <;> simp only [Marked, hsessions, hexpired]
    · intro other found hfound
      by_cases hother : other = key
      · subst hother
        rw [hrow] at hfound
        cases hfound
        exact ⟨_, AList.lookup_insert _, rfl, fun hsome => absurd hcredential hsome⟩
      · exact ⟨found, by rw [AList.lookup_insert_ne hother, hfound], rfl, fun _ => rfl⟩
    · exact (Retains.refl db).marks

lemma sessionStep_effect (hinv : SessionInv db) (call : SessionCall) :
    SessionEffect db (sessionStep checksum db call) := by
  unfold sessionStep
  cases h : call.execute checksum db with
  | error e => exact .calm rfl rfl
  | ok pair => exact execute_effect hinv h

lemma run_retains (hinv : SessionInv db) (calls : List SessionCall) :
    SessionInv (calls.foldl (sessionStep checksum) db) ∧
      Retains db (calls.foldl (sessionStep checksum) db) := by
  induction calls generalizing db with
  | nil => exact ⟨hinv, .refl db⟩
  | cons call calls ih =>
    have hstep : SessionEffect db (sessionStep checksum db call) := sessionStep_effect hinv call
    obtain ⟨hlast, hretains⟩ := ih (hstep.inv hinv)
    exact ⟨hlast, hstep.retains.trans hretains⟩

lemma sessionInv_empty : SessionInv SessionDb.empty := by
  refine ⟨?_, ?_, ?_⟩ <;> intro key row hrow <;> cases hrow

lemma sessionsAfter_inv (calls : List SessionCall) : SessionInv (sessionsAfter checksum calls) :=
  (run_retains sessionInv_empty calls).1

lemma sessionsAfter_append (before calls : List SessionCall) :
    sessionsAfter checksum (before ++ calls) =
      calls.foldl (sessionStep checksum) (sessionsAfter checksum before) :=
  List.foldl_append

lemma sessionsAfter_retains (before calls : List SessionCall) :
    Retains (sessionsAfter checksum before) (sessionsAfter checksum (before ++ calls)) := by
  rw [sessionsAfter_append]
  exact (run_retains (sessionsAfter_inv before) calls).2

def credentialOf (db : SessionDb) (key : SessionKey) : Option String :=
  (db.sessions.lookup key).bind SessionRow.credential

lemma credentialOf_eq_some {credential : String} : credentialOf db key = some credential ↔
    ∃ row, db.sessions.lookup key = some row ∧ row.credential = some credential :=
  Option.bind_eq_some_iff

lemma Retains.credential (h : Retains db db') {credential : String}
    (hcredential : credentialOf db key = some credential) :
    credentialOf db' key = some credential := by
  obtain ⟨row, hrow, hsome⟩ := credentialOf_eq_some.1 hcredential
  obtain ⟨row', hrow', -, hsame⟩ := h.rows key row hrow
  rw [hsame (by simp [hsome])] at hrow'
  exact credentialOf_eq_some.2 ⟨row, hrow', hsome⟩

lemma SessionInv.unissued_credential (hinv : SessionInv db) (hmarked : Marked db key) :
    credentialOf db key = none := by
  rw [credentialOf, Option.bind_eq_none_iff]
  intro row hrow
  exact hinv.unissued key row hrow hmarked

/-- What a call reports of a request: the credential that the tables hold, or the end of a review
that has one or is marked. -/
structure Report (db db' : SessionDb) (key : SessionKey) (r : SessionResult) : Prop where
  credential : ∀ credential, r.credential = some credential → credentialOf db' key = some credential
  expired : r.state = .expired → credentialOf db key = none → Marked db' key

lemma execute_report (hinv : SessionInv db) {r : SessionResult}
    (h : call.execute checksum db = .ok (.result key r, db')) : Report db db' key r := by
  cases call with
  | prepare host around outcomes request =>
    simp only [SessionCall.execute, except_ok, Prod.mk.injEq, reduceCtorEq, false_and,
      and_false, exists_false] at h
  | exchange host around outcomes a =>
    obtain ⟨_, hexchange, heq⟩ := execute_exchange h
    cases heq
    obtain ⟨row, hrow, -, -, heffect⟩ := exchange_effect hinv hexchange
    have hcredentialOf :
        credentialOf db (host.service, a.challenge.requestId) = row.credential := by
      rw [credentialOf, hrow, Option.bind_some]
    cases heffect with
    | again hcredential =>
      refine ⟨?_, by simp [sessionResult]⟩
      intro credential hreturned
      rw [hcredentialOf, hcredential, ← hreturned]
      rfl
    | spent hcredential =>
      refine ⟨by simp [sessionResult], ?_⟩
      intro _ hnone
      rw [hcredentialOf] at hnone
      exact absurd hnone hcredential
    | before hmarked => exact ⟨by simp [sessionResult], fun _ _ => hmarked⟩
    | now hcredential =>
      exact ⟨by simp [sessionResult], fun _ _ => marked_insert.2 (.inl rfl)⟩
    | issues hcredential hunmarked hreadings =>
      refine ⟨?_, by simp [sessionResult]⟩
      intro credential hreturned
      rw [credentialOf_eq_some]
      exact ⟨_, AList.lookup_insert _, hreturned⟩
  | status host around outcomes proof =>
    obtain ⟨_, hstatus, heq⟩ := execute_status h
    cases heq
    obtain ⟨row, hrow, heffect⟩ := status_effect hinv hstatus
    cases heffect with
    | @told state hstate hsessions hexpired =>
      refine ⟨?_, fun h => absurd h hstate⟩
      intro credential hreturned
      rw [credentialOf, hsessions, hrow, Option.bind_some]
      simp only [sessionResult] at hreturned
      split at hreturned
      · exact hreturned
      · cases hreturned
    | before hmarked hsessions hexpired =>
      refine ⟨by simp [sessionResult], fun _ _ => ?_⟩
      rwa [Marked, hexpired]
    | now hcredential hsessions hexpired =>
      refine ⟨by simp [sessionResult], fun _ _ => ?_⟩
      rw [Marked, hexpired]
      exact marked_insert.2 (.inl rfl)

/-- A credential is retained by an exchange alone, between the issue and the review deadline. -/
lemma retained_by_exchange (hinv : SessionInv db) {credential : String}
    (hnone : credentialOf db key = none)
    (hsome : credentialOf (sessionStep checksum db call) key = some credential) :
    ∃ host around outcomes a row, call = .exchange host around outcomes a ∧
      key = (host.service, a.challenge.requestId) ∧ db.sessions.lookup key = some row ∧
      row.challenge = a.challenge ∧
      (∀ n < 3, row.challenge.issuedAt ≤ around.clock n ∧
        around.clock n < row.challenge.reviewDeadline) ∧
      ∃ row', (sessionStep checksum db call).sessions.lookup key = some row' ∧
        row'.authorizationDigest = some (checksum.authorization a) := by
  have hchanged : ∀ db', db'.sessions = db.sessions → credentialOf db' key ≠ some credential := by
    intro db' hsessions
    rw [credentialOf, hsessions, ← credentialOf, hnone]
    simp
  unfold sessionStep at hsome ⊢
  cases h : call.execute checksum db with
  | error e =>
    rw [h] at hsome
    exact absurd hsome (hchanged db rfl)
  | ok pair =>
    obtain ⟨returned, db'⟩ := pair
    simp only [h] at hsome ⊢
    cases call with
    | prepare host around outcomes request =>
      simp only [SessionCall.execute, except_ok, Prod.mk.injEq] at h
      obtain ⟨⟨challenge, db1⟩, hprepare, -, rfl⟩ := h
      obtain rfl | ⟨new, row, -, -, -, hcredential, rfl⟩ := prepare_effect hprepare
      · exact absurd hsome (hchanged _ rfl)
      · obtain ⟨found, hfound, hcredential'⟩ := credentialOf_eq_some.1 hsome
        obtain ⟨rfl, rfl⟩ | ⟨-, hold⟩ := Table.of_insert hfound
        · rw [hcredential] at hcredential'
          cases hcredential'
        · rw [credentialOf_eq_some.2 ⟨found, hold, hcredential'⟩] at hnone
          cases hnone
    | status host around outcomes proof =>
      obtain ⟨r, hstatus, -⟩ := execute_status h
      obtain ⟨row, hrow, heffect⟩ := status_effect hinv hstatus
      have hsessions : db'.sessions = db.sessions := by
        cases heffect with
        | told _ hsessions => exact hsessions
        | before _ hsessions => exact hsessions
        | now _ hsessions => exact hsessions
      exact absurd hsome (hchanged db' hsessions)
    | exchange host around outcomes a =>
      obtain ⟨r, hexchange, -⟩ := execute_exchange h
      obtain ⟨row, hrow, hchallenge, -, heffect⟩ := exchange_effect hinv hexchange
      cases heffect with
      | issues hcredential hunmarked hreadings =>
        by_cases hkey : key = (host.service, a.challenge.requestId)
        · subst hkey
          refine ⟨host, around, outcomes, a, row, rfl, rfl, hrow, hchallenge, ?_, _,
            AList.lookup_insert _, rfl⟩
          rwa [hchallenge]
        · rw [credentialOf, SessionDb.retain, AList.lookup_insert_ne hkey, ← credentialOf,
            hnone] at hsome
          cases hsome
      | now => exact absurd hsome (hchanged _ rfl)
      | again => exact absurd hsome (hchanged _ rfl)
      | spent => exact absurd hsome (hchanged _ rfl)
      | before => exact absurd hsome (hchanged _ rfl)

/-- Over every sequence of calls, with any readings of the clocks: a challenge that is stored stays;
a credential is retained only by an exchange whose readings lie between the issue and the review
deadline; all credentials that are returned for a request are the same; after a review was reported
as expired the request has no credential; and once a credential is retained, every exchange with
another authorization is refused. -/
theorem holder_session_issuance (checksum : Checksums) (before between : List SessionCall)
    (first second : SessionCall) (key : SessionKey) :
    (∀ row, (sessionsAfter checksum before).sessions.lookup key = some row →
      ∃ row', (sessionsAfter checksum (before ++ first :: between)).sessions.lookup key =
        some row' ∧
        row'.challenge = row.challenge) ∧
    (∀ credential, credentialOf (sessionsAfter checksum before) key = none →
      credentialOf (sessionsAfter checksum (before ++ [first])) key = some credential →
      ∃ host around outcomes a row, first = .exchange host around outcomes a ∧
        key = (host.service, a.challenge.requestId) ∧
        (sessionsAfter checksum before).sessions.lookup key = some row ∧
        (∀ n < 3, row.challenge.issuedAt ≤ around.clock n ∧
          around.clock n < row.challenge.reviewDeadline) ∧
        -- the authorization that obtained the credential is the only one that is accepted
        ∀ host' around' outcomes' b, second = .exchange host' around' outcomes' b →
          key = (host'.service, b.challenge.requestId) →
          checksum.authorization b ≠ checksum.authorization a →
          ∃ e, second.execute checksum (sessionsAfter checksum (before ++ first :: between)) =
            .error e) ∧
    (∀ r db r' db', first.execute checksum (sessionsAfter checksum before) =
        .ok (.result key r, db) →
      second.execute checksum (sessionsAfter checksum (before ++ first :: between)) =
        .ok (.result key r', db') →
      ∀ c c', r.credential = some c → r'.credential = some c' → c = c') ∧
    ∀ r db, first.execute checksum (sessionsAfter checksum before) = .ok (.result key r, db) →
      r.state = .expired → credentialOf (sessionsAfter checksum before) key = none →
      credentialOf (sessionsAfter checksum (before ++ first :: between)) key = none ∧
      ∀ r' db', second.execute checksum (sessionsAfter checksum (before ++ first :: between)) =
        .ok (.result key r', db') → r'.credential = none := by
  have hinv0 : SessionInv (sessionsAfter checksum before) := sessionsAfter_inv before
  have hinv : SessionInv (sessionsAfter checksum (before ++ first :: between)) :=
    sessionsAfter_inv _
  have hone : sessionsAfter checksum (before ++ [first]) =
      sessionStep checksum (sessionsAfter checksum before) first := sessionsAfter_append _ _
  have hlater : Retains (sessionsAfter checksum (before ++ [first]))
      (sessionsAfter checksum (before ++ first :: between)) := by
    have h : Retains (sessionsAfter checksum (before ++ [first]))
        (sessionsAfter checksum (before ++ [first] ++ between)) := sessionsAfter_retains _ between
    rwa [List.append_assoc, List.singleton_append] at h
  have hcommitted : ∀ {returned db},
      first.execute checksum (sessionsAfter checksum before) = .ok (returned, db) →
      db = sessionsAfter checksum (before ++ [first]) := by
    intro returned db h
    rw [hone, sessionStep, h]
  refine ⟨?_, ?_, ?_, ?_⟩
  · intro row hrow
    rcases (sessionsAfter_retains before (first :: between)).rows key row hrow with
      ⟨row', hrow', hchallenge, -⟩
    exact ⟨row', hrow', hchallenge⟩
  · intro credential hnone hsome
    rw [hone] at hsome
    rcases retained_by_exchange hinv0 hnone hsome with
      ⟨host, around, outcomes, a, row, hfirst, hkey, hrow, -, hreadings, row1, hrow1, hdigest⟩
    refine ⟨host, around, outcomes, a, row, hfirst, hkey, hrow, hreadings, ?_⟩
    intro host' around' outcomes' b hsecond hkey' hother
    subst hsecond
    cases h : (SessionCall.exchange host' around' outcomes' b).execute checksum
        (sessionsAfter checksum (before ++ first :: between)) with
    | error e => exact ⟨e, rfl⟩
    | ok pair =>
      -- the row keeps the digest of the first authorization, and an exchange compares with it
      obtain ⟨r, hexchange, -⟩ := execute_exchange h
      obtain ⟨row2, hrow2, -, hsame, -⟩ := exchange_effect hinv hexchange
      have hsome1 : row1.credential ≠ none := by
        rw [credentialOf, hrow1, Option.bind_some] at hsome
        simp [hsome]
      rw [← hone] at hrow1
      obtain ⟨row3, hrow3, -, hkept⟩ := hlater.rows key row1 hrow1
      rw [hkept hsome1, hkey', hrow2] at hrow3
      cases hrow3
      exact absurd (hsame _ hdigest).symm hother
  · intro r db r' db' hr hr' c c' hc hc'
    have hstored := (execute_report hinv0 hr).credential c hc
    rw [hcommitted hr] at hstored
    have hstored' := (execute_report hinv hr').credential c' hc'
    have hkept := (execute_effect hinv hr').retains.credential (hlater.credential hstored)
    rw [hkept] at hstored'
    exact Option.some.inj hstored'
  · intro r db hr hexpired hnone
    have hmarked := (execute_report hinv0 hr).expired hexpired hnone
    rw [hcommitted hr] at hmarked
    have hlast := hlater.marks key hmarked
    refine ⟨hinv.unissued_credential hlast, ?_⟩
    intro r' db' hr'
    have heffect := execute_effect hinv hr'
    have hnever := (heffect.inv hinv).unissued_credential (heffect.retains.marks key hlast)
    cases hc : r'.credential with
    | none => rfl
    | some c =>
      rw [(execute_report hinv hr').credential c hc] at hnever
      cases hnever

/-! A session that is prepared, and exchanged with one of two signatures. -/

def sampleHost : HolderSessionHost :=
  ⟨"issuer", "key", "service", ⟨true, ["origin"], "audience", 60⟩⟩

def sampleParent : ParentGrant := ⟨"secs.holder-grant.v2", "grant", 1, "holder", "", 90, none, ""⟩

def sampleSurroundings : Surroundings :=
  ⟨fun n => 5 + n, fun _ => true, .ok (), fun _ => .ok sampleParent⟩

def sampleChallenge : Challenge :=
  ⟨"challenge", "request", "nonce", "issuer", "key", "service", "audience", "origin", "grant",
    "grant", 1, "holder", "installation", "session", "public", "read", 5, 65, 65⟩

def prepareCall : SessionCall :=
  .prepare sampleHost sampleSurroundings ⟨.ok "read", "challenge", "nonce", fun _ => .ok ()⟩
    ⟨"request", sampleParent, "installation", "session", "public", "origin", "audience", none, 60⟩

def exchangeCall (signature : String) : SessionCall :=
  .exchange sampleHost sampleSurroundings ⟨.ok (), fun now => .ok (toString now)⟩
    ⟨sampleChallenge, sampleParent, signature, ""⟩

def sampleChecksums : Checksums :=
  ⟨(·.requestId), (·.audience), (·.grantId), (·.holderSignature)⟩

theorem holder_session_issuance_exchange :
    credentialOf (sessionsAfter sampleChecksums [prepareCall, exchangeCall "a"])
        ("service", "request") = some "5" ∧
      ∃ e, (exchangeCall "b").execute sampleChecksums
        (sessionsAfter sampleChecksums [prepareCall, exchangeCall "a"]) = .error e := by
  have hissued : credentialOf (sessionsAfter sampleChecksums ([prepareCall] ++ [exchangeCall "a"]))
      ("service", "request") = some "5" := by decide +kernel
  obtain ⟨_, _, _, _, _, hfirst, -, -, -, hother⟩ := (holder_session_issuance sampleChecksums
    [prepareCall] [] (exchangeCall "a") (exchangeCall "b") _).2.1 _ rfl hissued
  cases hfirst
  exact ⟨hissued, hother _ _ _ _ rfl rfl (by decide)⟩

end DevGraph.Proofs
