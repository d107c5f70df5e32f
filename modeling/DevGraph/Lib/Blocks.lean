import Mathlib.Init

/-!
# Programs with nested blocks

A program calls operations and opens blocks, and goes on with what each of them gave, an exception
included. Programs run alike on two machines when a map between their states commutes with what the
machines do.
-/

namespace DevGraph.Lib

variable {ω ε σ τ κ ι α β : Type} {out : ω → Type}

/-- A program over the operations `ω`, each with its type of outcomes. -/
inductive Program (ω : Type) (out : ω → Type) (ε : Type) : Type → Type 1
  | done {α : Type} (result : Except ε α) : Program ω out ε α
  | call {α : Type} (op : ω) (next : Except ε (out op) → Program ω out ε α) : Program ω out ε α
  | block {α β : Type} (body : Program ω out ε β) (next : Except ε β → Program ω out ε α) :
    Program ω out ε α

namespace Program

def bind : Program ω out ε α → (Except ε α → Program ω out ε β) → Program ω out ε β
  | done result, f => f result
  | call op next, f => call op fun r => (next r).bind f
  | block body next, f => block body fun r => (next r).bind f

/-- Every operation that the program may call is of the given sort. -/
def Only (allowed : ω → Prop) {α : Type} : Program ω out ε α → Prop
  | done _ => True
  | call op next => allowed op ∧ ∀ r, (next r).Only allowed
  | block body next => body.Only allowed ∧ ∀ r, (next r).Only allowed

lemma only_true (p : Program ω out ε α) : p.Only fun _ => True := by
  induction p with
  | done result => trivial
  | call op next ih => exact ⟨trivial, ih⟩
  | block body next ihbody ih => exact ⟨ihbody, ih⟩

lemma Only.and {allowed allowed' : ω → Prop} {p : Program ω out ε α} (h : p.Only allowed)
    (h' : p.Only allowed') : p.Only fun op => allowed op ∧ allowed' op := by
  induction p with
  | done result => trivial
  | call op next ih => exact ⟨⟨h.1, h'.1⟩, fun r => ih r (h.2 r) (h'.2 r)⟩
  | block body next ihbody ih => exact ⟨ihbody h.1 h'.1, fun r => ih r (h.2 r) (h'.2 r)⟩

end Program

/-- Operations on states of type `σ`, with savepoints of type `κ` for the blocks. -/
structure Machine (ω : Type) (out : ω → Type) (ε σ κ : Type) where
  step : (op : ω) → σ → Except ε (out op) × σ
  enter : σ → κ × σ
  /-- What the regular end of a block raises. -/
  check : σ → Option ε
  commit : κ → σ → σ
  rollback : κ → σ → σ

namespace Machine

variable (M : Machine ω out ε σ κ)

/-- The end of a block whose body gave a result. -/
def leave (k : κ) (r : Except ε β × σ) : Except ε β × σ :=
  match r.1 with
  | .error e => (.error e, M.rollback k r.2)
  | .ok b =>
    match M.check r.2 with
    | none => (.ok b, M.commit k r.2)
    | some e => (.error e, M.rollback k r.2)

def exec {α : Type} : Program ω out ε α → σ → Except ε α × σ
  | .done result, s => (result, s)
  | .call op next, s => exec (next (M.step op s).1) (M.step op s).2
  | .block body next, s =>
    exec (next (M.leave (M.enter s).1 (exec body (M.enter s).2)).1)
      (M.leave (M.enter s).1 (exec body (M.enter s).2)).2

def block (body : Program ω out ε β) (s : σ) : Except ε β × σ :=
  M.leave (M.enter s).1 (M.exec body (M.enter s).2)

lemma exec_bind (p : Program ω out ε α) (f : Except ε α → Program ω out ε β) (s : σ) :
    M.exec (p.bind f) s = M.exec (f (M.exec p s).1) (M.exec p s).2 := by
  induction p generalizing s with
  | done result => rfl
  | call op next ih => exact ih _ f _
  | block body next _ ih => exact ih _ f _

lemma exec_block (body : Program ω out ε β) (next : Except ε β → Program ω out ε α) (s : σ) :
    M.exec (.block body next) s = M.exec (next (M.block body s).1) (M.block body s).2 := rfl

lemma leave_cases (k : κ) (r : Except ε β × σ) :
    (∃ b, (M.leave k r).1 = .ok b ∧ r.1 = .ok b ∧ (M.leave k r).2 = M.commit k r.2) ∨
      ∃ e, (M.leave k r).1 = .error e ∧ (M.leave k r).2 = M.rollback k r.2 := by
  unfold leave
  cases r.1 with
  | error e => exact .inr ⟨e, rfl, rfl⟩
  | ok b =>
    cases M.check r.2 with
    | none => exact .inl ⟨b, rfl, rfl, rfl⟩
    | some e => exact .inr ⟨e, rfl, rfl⟩

/-- What every operation, beginning and end of a block keeps is kept by every program. -/
theorem exec_invariant {allowed : ω → Prop} (P : σ → Prop) (K : κ → Prop)
    (hstep : ∀ op s, allowed op → P s → P (M.step op s).2)
    (henter : ∀ s, P s → K (M.enter s).1 ∧ P (M.enter s).2)
    (hcommit : ∀ k s, K k → P s → P (M.commit k s))
    (hrollback : ∀ k s, K k → P s → P (M.rollback k s))
    {p : Program ω out ε α} (hp : p.Only allowed) {s : σ} (hs : P s) : P (M.exec p s).2 := by
  induction p generalizing s with
  | done result => exact hs
  | call op next ih => exact ih _ (hp.2 _) (hstep op s hp.1 hs)
  | block body next ihbody ih =>
    have hbody := ihbody hp.1 (henter s hs).2
    have hk := (henter s hs).1
    apply ih _ (hp.2 _)
    rcases M.leave_cases (M.enter s).1 (M.exec body (M.enter s).2) with
      ⟨b, -, -, hleave⟩ | ⟨e, -, hleave⟩
    · rw [hleave]
      exact hcommit _ _ hk hbody
    · rw [hleave]
      exact hrollback _ _ hk hbody

/-- A map of the states that commutes with the operations and the blocks of two machines. -/
structure Hom (M : Machine ω out ε σ κ) (N : Machine ω out ε τ ι) where
  state : σ → τ
  savepoint : κ → ι
  step : ∀ op s, N.step op (state s) = ((M.step op s).1, state (M.step op s).2)
  enter : ∀ s, N.enter (state s) = (savepoint (M.enter s).1, state (M.enter s).2)
  check : ∀ s, N.check (state s) = M.check s
  commit : ∀ k s, N.commit (savepoint k) (state s) = state (M.commit k s)
  rollback : ∀ k s, N.rollback (savepoint k) (state s) = state (M.rollback k s)

variable {M} {N : Machine ω out ε τ ι}

lemma Hom.leave (f : Hom M N) (k : κ) (r : Except ε β × σ) :
    N.leave (f.savepoint k) (r.1, f.state r.2) =
      ((M.leave k r).1, f.state (M.leave k r).2) := by
  unfold Machine.leave
  cases r.1 with
  | error e => simp only [f.rollback]
  | ok b =>
    simp only [f.check]
    cases M.check r.2 with
    | none => simp only [f.commit]
    | some e => simp only [f.rollback]

/-- A program gives the same on both machines, and leaves corresponding states. -/
theorem Hom.exec (f : Hom M N) (p : Program ω out ε α) (s : σ) :
    N.exec p (f.state s) = ((M.exec p s).1, f.state (M.exec p s).2) := by
  induction p generalizing s with
  | done result => rfl
  | call op next ih =>
    rw [Machine.exec, f.step]
    exact ih _ _
  | block body next ihbody ih =>
    rw [Machine.exec, f.enter, ihbody, f.leave]
    exact ih _ _

lemma Hom.block (f : Hom M N) (body : Program ω out ε β) (s : σ) :
    N.block body (f.state s) = ((M.block body s).1, f.state (M.block body s).2) := by
  rw [Machine.block, f.enter, f.exec, f.leave]
  rfl

end Machine

end DevGraph.Lib
