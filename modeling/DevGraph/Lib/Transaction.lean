import DevGraph.Lib.Except

/-!
# Computations that change a state and may raise

An exception leaves behind whatever was written before it. A transaction takes a snapshot
of the state and puts it back when an exception leaves it.
-/

namespace DevGraph.Lib

variable {ε σ α β : Type}

def reading (f : σ → Except ε α) : EStateM ε σ α := fun s =>
  match f s with
  | .ok a => .ok a s
  | .error e => .error e s

def transaction (m : EStateM ε σ α) : EStateM ε σ α := fun s =>
  match m s with
  | .ok a s' => .ok a s'
  | .error e _ => .error e s

/-- Exceptions of the given sort leave the computation as another one. -/
def reraising (caught : ε → Bool) (e : ε) (m : EStateM ε σ α) : EStateM ε σ α := fun s =>
  match m s with
  | .ok a s' => .ok a s'
  | .error e' s' => .error (if caught e' then e else e') s'

def raiseIf {m : Type → Type} [Monad m] [MonadExceptOf ε m] (c : Prop) [Decidable c] (e : ε) :
    m Unit :=
  if c then throw e else pure ()

variable {s s' : σ}

lemma bind_ok {x : EStateM ε σ α} {f : α → EStateM ε σ β} {b : β} :
    (x >>= f) s = .ok b s' ↔ ∃ a t, x s = .ok a t ∧ f a t = .ok b s' := by
  change EStateM.bind x f s = _ ↔ _
  unfold EStateM.bind
  cases h : x s with
  | ok a t =>
    constructor
    · exact fun hf => ⟨a, t, rfl, hf⟩
    · rintro ⟨a', t', ⟨⟩, hf⟩
      exact hf
  | error e t => simp

variable {e : ε}

lemma bind_error {x : EStateM ε σ α} {f : α → EStateM ε σ β} :
    (x >>= f) s = .error e s' ↔
      x s = .error e s' ∨ ∃ a t, x s = .ok a t ∧ f a t = .error e s' := by
  change EStateM.bind x f s = _ ↔ _
  unfold EStateM.bind
  cases h : x s with
  | ok a t =>
    constructor
    · exact fun hf => .inr ⟨a, t, rfl, hf⟩
    · rintro (⟨⟨⟩⟩ | ⟨a', t', ⟨⟩, hf⟩)
      exact hf
  | error e t => simp

lemma pure_ok {a b : α} :
    (pure a : EStateM ε σ α) s = .ok b s' ↔ a = b ∧ s = s' := by
  change EStateM.Result.ok a s = _ ↔ _
  simp

lemma throw_ok {a : α} : ¬ (throw e : EStateM ε σ α) s = .ok a s' := by
  intro h
  change EStateM.Result.error e s = _ at h
  cases h

lemma map_ok {x : EStateM ε σ α} {f : α → β} {b : β} :
    (f <$> x) s = .ok b s' ↔ ∃ a, x s = .ok a s' ∧ f a = b := by
  change EStateM.map f x s = _ ↔ _
  unfold EStateM.map
  cases h : x s with
  | ok a t =>
    constructor
    · rintro ⟨⟩
      exact ⟨a, rfl, rfl⟩
    · rintro ⟨a', ⟨⟩, rfl⟩
      rfl
  | error e t => simp

lemma get_ok {s s' t : σ} : (get : EStateM ε σ σ) s = .ok t s' ↔ s = t ∧ s = s' := by
  change EStateM.Result.ok s s = _ ↔ _
  simp

lemma set_ok {s s' t : σ} {u : PUnit} : (set t : EStateM ε σ PUnit) s = .ok u s' ↔ t = s' := by
  change EStateM.Result.ok PUnit.unit t = _ ↔ _
  simp

lemma modify_ok {f : σ → σ} {u : PUnit} :
    (modify f : EStateM ε σ PUnit) s = .ok u s' ↔ f s = s' := by
  change EStateM.Result.ok PUnit.unit (f s) = _ ↔ _
  simp

lemma reading_ok {f : σ → Except ε α} {a : α} :
    reading f s = .ok a s' ↔ f s = .ok a ∧ s = s' := by
  unfold reading
  cases f s <;> simp

lemma reading_error {f : σ → Except ε α} (h : reading f s = .error e s') :
    s' = s := by
  unfold reading at h
  cases hf : f s with
  | ok a => rw [hf] at h; cases h
  | error e' => rw [hf] at h; cases h; rfl

variable {m : EStateM ε σ α}

lemma transaction_ok {a : α} :
    transaction m s = .ok a s' ↔ m s = .ok a s' := by
  unfold transaction
  cases m s <;> simp

/-- A transaction that raises leaves the state as it was. -/
theorem transaction_error
    (h : transaction m s = .error e s') : s' = s := by
  unfold transaction at h
  cases hm : m s with
  | ok a t => rw [hm] at h; cases h
  | error e' t => rw [hm] at h; cases h; rfl

lemma reraising_ok {caught : ε → Bool} {a : α} :
    reraising caught e m s = .ok a s' ↔ m s = .ok a s' := by
  unfold reraising
  cases m s <;> simp

lemma raiseIf_ok {c : Prop} [Decidable c] {u : Unit} :
    (raiseIf c e : EStateM ε σ Unit) s = .ok u s' ↔ ¬ c ∧ s = s' := by
  unfold raiseIf
  split
  · rename_i h
    simp [throw_ok, h]
  · rename_i h
    simp [pure_ok, h]

lemma raiseIf_eq_ok {c : Prop} [Decidable c] {u : Unit} :
    (raiseIf c e : Except ε Unit) = .ok u ↔ ¬ c := by
  unfold raiseIf
  split
  · rename_i h
    simp [h, throw, throwThe, MonadExceptOf.throw]
  · rename_i h
    simp [h, pure, Except.pure]

/-- The rules of `Except`, to be given to the simplifier as one. -/
lemma except_ok :
    (∀ {α β : Type} {x : Except ε α} {f : α → Except ε β} {b : β},
      (x >>= f) = .ok b ↔ ∃ a, x = .ok a ∧ f a = .ok b) ∧
    (∀ {α : Type} {a b : α}, (pure a : Except ε α) = .ok b ↔ a = b) ∧
    ∀ {c : Prop} [Decidable c] {e : ε} {u : Unit}, (raiseIf c e : Except ε Unit) = .ok u ↔ ¬ c :=
  ⟨except_bind_ok, except_pure_ok, raiseIf_eq_ok⟩

/-- Whatever the computation raises is of the given sort. -/
def RaisesOnly (P : ε → Prop) (x : Except ε α) : Prop := ∀ e, x = .error e → P e

namespace RaisesOnly

variable {P : ε → Prop} {x : Except ε α} {f : α → Except ε β}

lemma ok (a : α) : RaisesOnly P (.ok a : Except ε α) := nofun

lemma error (h : P e) : RaisesOnly P (.error e : Except ε α) := by
  rintro _ ⟨⟩
  exact h

lemma bind (hx : RaisesOnly P x) (hf : ∀ a, x = .ok a → RaisesOnly P (f a)) :
    RaisesOnly P (x >>= f) := by
  cases hval : x with
  | error e =>
    rintro _ ⟨⟩
    exact hx e hval
  | ok a => exact hf a hval

lemma map {g : α → β} (hx : RaisesOnly P x) : RaisesOnly P (g <$> x) := by
  cases hval : x with
  | error e =>
    rintro _ ⟨⟩
    exact hx e hval
  | ok a => exact ok (g a)

lemma raiseIf {c : Prop} [Decidable c] (h : P e) :
    RaisesOnly P (Lib.raiseIf c e : Except ε Unit) := by
  unfold Lib.raiseIf
  split
  · exact error h
  · exact ok ()

end RaisesOnly

end DevGraph.Lib
