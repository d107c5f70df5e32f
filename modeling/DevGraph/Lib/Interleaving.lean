import Mathlib.Logic.Function.Basic

/-!
# Clients of a shared store

A client calls the operations of a store, each call atomic, and goes on with the reply. The calls
of several clients interleave in any order, and a client may stop before any of them. A client is
safe when each of its calls, whatever the others did before, keeps the invariant and does only
what it may. Safe clients stay safe together.
-/

namespace DevGraph.Lib

variable {ω σ α β ε ι : Type} {reply : ω → Type}

inductive Client (ω : Type) (reply : ω → Type) (α : Type) : Type
  | done (result : α) : Client ω reply α
  | call (op : ω) (next : reply op → Client ω reply α) : Client ω reply α

namespace Client

def bind : Client ω reply α → (α → Client ω reply β) → Client ω reply β
  | done result, f => f result
  | call op next, f => call op fun r => (next r).bind f

instance : Monad (Client ω reply) where
  pure := done
  bind := bind

/-- The client alone with a store that answers every call. -/
def run (perform : (op : ω) → σ → reply op × σ) : Client ω reply α → σ → α × σ
  | done result, s => (result, s)
  | call op next, s => run perform (next (perform op s).1) (perform op s).2

/-- The first calls of such a run. -/
def advance (perform : (op : ω) → σ → reply op × σ) :
    Nat → Client ω reply α → σ → Client ω reply α × σ
  | 0, p, s => (p, s)
  | _ + 1, done result, s => (done result, s)
  | n + 1, call op next, s => advance perform n (next (perform op s).1) (perform op s).2

lemma run_bind (perform : (op : ω) → σ → reply op × σ) (p : Client ω reply α)
    (f : α → Client ω reply β) (s : σ) :
    (p.bind f).run perform s = (f (p.run perform s).1).run perform (p.run perform s).2 := by
  induction p generalizing s with
  | done result => rfl
  | call op next ih => exact ih _ _

end Client

/-- A store that also keeps the calls it answered, the latest first. -/
def recording (commits : σ → (op : ω) → reply op → σ → Prop) (s : σ × List (Σ op, reply op))
    (op : ω) (r : reply op) (s' : σ × List (Σ op, reply op)) : Prop :=
  commits s.1 op r s'.1 ∧ s'.2 = ⟨op, r⟩ :: s.2

def recordingPerform (perform : (op : ω) → σ → reply op × σ) (op : ω)
    (s : σ × List (Σ op, reply op)) : reply op × σ × List (Σ op, reply op) :=
  ((perform op s.1).1, (perform op s.1).2, ⟨op, (perform op s.1).1⟩ :: s.2)

lemma Client.run_recording (perform : (op : ω) → σ → reply op × σ) (p : Client ω reply α)
    (s : σ × List (Σ op, reply op)) :
    (p.run (recordingPerform perform) s).1 = (p.run perform s.1).1 ∧
      (p.run (recordingPerform perform) s).2.1 = (p.run perform s.1).2 := by
  induction p generalizing s with
  | done result => exact ⟨rfl, rfl⟩
  | call op next ih => exact ih _ _

/-- What the calls of a store may do, its invariant, and what no call ever takes back. -/
structure Discipline (ω : Type) (reply : ω → Type) (σ : Type) where
  commits : σ → (op : ω) → reply op → σ → Prop
  valid : σ → Prop
  grows : σ → σ → Prop
  refl : ∀ s, grows s s
  trans : ∀ {s t u}, grows s t → grows t u → grows s u

variable {p : Client ω reply α}

namespace Discipline

variable (D : Discipline ω reply σ) (may : σ → ω → σ → Prop)

/-- The client was last heard of at the given state: others may have called since. -/
def Safe (post : α → σ → Prop) : Client ω reply α → σ → Prop
  | .done result, s => post result s
  | .call op next, s => ∀ before r after, D.valid before → D.grows s before →
      D.commits before op r after →
        (D.valid after ∧ D.grows before after ∧ may before op after) ∧ Safe post (next r) after

variable {D may} {post : α → σ → Prop} {s s' : σ}

lemma Safe.later {op : ω} {next : reply op → Client ω reply α}
    (h : D.Safe may post (.call op next) s) (hgrows : D.grows s s') :
    D.Safe may post (.call op next) s' :=
  fun before r after hvalid hbefore hcommits =>
    h before r after hvalid (D.trans hgrows hbefore) hcommits

lemma Safe.imp {post' : α → σ → Prop} (h : D.Safe may post p s)
    (himp : ∀ a t, post a t → post' a t) : D.Safe may post' p s := by
  induction p generalizing s with
  | done result => exact himp _ _ h
  | call op next ih =>
    intro before r after hvalid hbefore hcommits
    have hcall := h before r after hvalid hbefore hcommits
    exact ⟨hcall.1, ih r hcall.2⟩

/-- One client goes on as another when the first is done. -/
theorem Safe.bind {f : α → Client ω reply β} {post' : β → σ → Prop}
    (h : D.Safe may post p s) (hs : D.valid s)
    (hf : ∀ a t, D.valid t → D.grows s t → post a t → D.Safe may post' (f a) t) :
    D.Safe may post' (p.bind f) s := by
  induction p generalizing s with
  | done result => exact hf _ _ hs (D.refl s) h
  | call op next ih =>
    intro before r after hvalid hbefore hcommits
    obtain ⟨hcall, hnext⟩ := h before r after hvalid hbefore hcommits
    refine ⟨hcall, ih r hnext hcall.1 fun a t ht hgrows hpost => ?_⟩
    exact hf a t ht (D.trans (D.trans hbefore hcall.2.1) hgrows) hpost

theorem Safe.run {perform : (op : ω) → σ → reply op × σ}
    (hperform : ∀ op s, D.commits s op (perform op s).1 (perform op s).2)
    (h : D.Safe may post p s) (hs : D.valid s) :
    D.valid (p.run perform s).2 ∧ D.grows s (p.run perform s).2 ∧
      post (p.run perform s).1 (p.run perform s).2 := by
  induction p generalizing s with
  | done result => exact ⟨hs, D.refl s, h⟩
  | call op next ih =>
    obtain ⟨⟨hvalid, hgrows, -⟩, hnext⟩ := h s _ _ hs (D.refl s) (hperform op s)
    obtain ⟨hvalid', hgrows', hpost⟩ := ih _ hnext hvalid
    exact ⟨hvalid', D.trans hgrows hgrows', hpost⟩

end Discipline

/-- A store and its clients; one that stopped has nothing left to do. -/
structure Concurrent (ι ω : Type) (reply : ω → Type) (α σ : Type) where
  store : σ
  clients : ι → Option (Client ω reply α)

namespace Concurrent

variable [DecidableEq ι]

inductive Calls (commits : σ → (op : ω) → reply op → σ → Prop) :
    Concurrent ι ω reply α σ → ι → ω → Concurrent ι ω reply α σ → Prop
  | call {c : Concurrent ι ω reply α σ} {i : ι} {op : ω} {next : reply op → Client ω reply α}
      {r : reply op} {store : σ} (hnext : c.clients i = some (.call op next))
      (hcommits : commits c.store op r store) :
      Calls commits c i op ⟨store, Function.update c.clients i (some (next r))⟩

def stop (c : Concurrent ι ω reply α σ) (i : ι) : Concurrent ι ω reply α σ :=
  ⟨c.store, Function.update c.clients i none⟩

inductive Reaches (commits : σ → (op : ω) → reply op → σ → Prop)
    (c : Concurrent ι ω reply α σ) : Concurrent ι ω reply α σ → Prop
  | refl : Reaches commits c c
  | call {d e : Concurrent ι ω reply α σ} {i : ι} {op : ω} (hd : Reaches commits c d)
      (hcall : Calls commits d i op e) : Reaches commits c e
  | stop {d : Concurrent ι ω reply α σ} (i : ι) (hd : Reaches commits c d) :
      Reaches commits c (d.stop i)

/-- The store keeps its invariant and every client with a call left is safe. -/
structure Running (D : Discipline ω reply σ) (may : ι → σ → ω → σ → Prop)
    (post : ι → α → σ → Prop) (c : Concurrent ι ω reply α σ) : Prop where
  valid : D.valid c.store
  safe : ∀ i op next, c.clients i = some (.call op next) →
    D.Safe (may i) (post i) (.call op next) c.store

variable {D : Discipline ω reply σ} {may : ι → σ → ω → σ → Prop} {post : ι → α → σ → Prop}
  {c d : Concurrent ι ω reply α σ}

lemma Running.stop (h : Running D may post c) (i : ι) : Running D may post (c.stop i) := by
  refine ⟨h.valid, fun j op next hj => h.safe j op next ?_⟩
  by_cases hji : j = i
  · subst hji
    simp [Concurrent.stop] at hj
  · simpa [Concurrent.stop, Function.update_of_ne hji] using hj

/-- A call does what its client may do, and a client that is done then meets its postcondition. -/
theorem Running.calls (h : Running D may post c) {i : ι} {op : ω}
    (hcall : Calls D.commits c i op d) :
    Running D may post d ∧ D.grows c.store d.store ∧ may i c.store op d.store ∧
      ∀ result, d.clients i = some (.done result) → post i result d.store := by
  obtain ⟨hnext, hcommits⟩ := hcall
  rename_i next r store
  obtain ⟨⟨hvalid, hgrows, hmay⟩, hsafe⟩ :=
    h.safe i op next hnext c.store r store h.valid (D.refl _) hcommits
  refine ⟨⟨hvalid, fun j op' next' hj => ?_⟩, hgrows, hmay, fun result hdone => ?_⟩
  · by_cases hji : j = i
    · subst hji
      simp only [Function.update_self, Option.some.injEq] at hj
      rwa [← hj]
    · simp only [Function.update_of_ne hji] at hj
      exact (h.safe j op' next' hj).later hgrows
  · simp only [Function.update_self, Option.some.injEq] at hdone
    rwa [hdone] at hsafe

/-- One of the clients may make its next calls while the others wait. -/
theorem Reaches.advance {commits : σ → (op : ω) → reply op → σ → Prop}
    {perform : (op : ω) → σ → reply op × σ}
    (hperform : ∀ op s, commits s op (perform op s).1 (perform op s).2) {i : ι}
    (n : Nat) (hd : Reaches commits c d) (hp : d.clients i = some p) :
    Reaches commits c ⟨(p.advance perform n d.store).2,
      Function.update d.clients i (some (p.advance perform n d.store).1)⟩ := by
  induction n generalizing p d with
  | zero => simpa only [Client.advance, ← hp, Function.update_eq_self] using hd
  | succ n ih =>
    cases p with
    | done result => simpa only [Client.advance, ← hp, Function.update_eq_self] using hd
    | call op next =>
      have hcall := hd.call (Calls.call hp (hperform op d.store))
      simpa only [Client.advance, Function.update_idem] using ih hcall (Function.update_self ..)

theorem Reaches.running (hd : Reaches D.commits c d) (h : Running D may post c) :
    Running D may post d := by
  induction hd with
  | refl => exact h
  | call _ hcall ih => exact (ih.calls hcall).1
  | stop i _ ih => exact ih.stop i

end Concurrent

end DevGraph.Lib
