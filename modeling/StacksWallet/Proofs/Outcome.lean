/-!
# Computations that succeed

A computation that may fail succeeds if each of its steps does. These are the laws by which a successful run is
taken apart and put together again.
-/

namespace StacksWallet.Outcome

variable {ε α β : Type}

/-- A sequence succeeds if its first step does and what follows it does. -/
theorem bind_eq_ok {x : Except ε α} {f : α → Except ε β} {b : β} :
    (x >>= f) = .ok b ↔ ∃ a, x = .ok a ∧ f a = .ok b := by
  cases x with
  | error e => exact ⟨nofun, fun ⟨_, h, _⟩ => nomatch h⟩
  | ok a => exact ⟨fun h => ⟨a, rfl, h⟩, fun ⟨_, h, hb⟩ => by cases h; exact hb⟩

/-- A sequence fails if its first step does or what follows it does. -/
theorem bind_eq_error {x : Except ε α} {f : α → Except ε β} {e : ε} :
    (x >>= f) = .error e ↔ x = .error e ∨ ∃ a, x = .ok a ∧ f a = .error e := by
  cases x with
  | error e' =>
    exact ⟨fun h => .inl (congrArg _ (Except.error.inj h)), fun h => h.elim (congrArg (· >>= f)) nofun⟩
  | ok a => exact ⟨fun h => .inr ⟨a, rfl, h⟩, fun h => h.elim nofun fun ⟨_, h, hb⟩ => by cases h; exact hb⟩

/-- A result that is made from another one needs that one. -/
theorem map_eq_ok {x : Except ε α} {f : α → β} {b : β} : x.map f = .ok b ↔ ∃ a, x = .ok a ∧ f a = b := by
  cases x with
  | error e => exact ⟨nofun, fun ⟨_, h, _⟩ => nomatch h⟩
  | ok a => exact ⟨fun h => ⟨a, rfl, Except.ok.inj h⟩, fun ⟨_, h, hb⟩ => by cases h; exact congrArg _ hb⟩

/-- It is missing only if that one is. -/
theorem map_eq_error {x : Except ε α} {f : α → β} {e : ε} : x.map f = .error e ↔ x = .error e := by
  cases x with
  | error e' => exact ⟨fun h => congrArg _ (Except.error.inj h), fun h => congrArg _ (Except.error.inj h)⟩
  | ok a => exact ⟨nofun, nofun⟩

/-- A failure that is told in other words is still one. -/
theorem mapError_eq_ok {ε' : Type} {x : Except ε α} {f : ε → ε'} {a : α} : x.mapError f = .ok a ↔ x = .ok a := by
  cases x with
  | error e => exact ⟨nofun, nofun⟩
  | ok b => exact ⟨fun h => congrArg _ (Except.ok.inj h), fun h => congrArg _ (Except.ok.inj h)⟩

/-- It is the failure that is told in these words. -/
theorem mapError_eq_error {ε' : Type} {x : Except ε α} {f : ε → ε'} {e' : ε'} :
    x.mapError f = .error e' ↔ ∃ e, x = .error e ∧ f e = e' := by
  cases x with
  | error e => exact ⟨fun h => ⟨e, rfl, Except.error.inj h⟩, fun ⟨_, h, he⟩ => by cases h; exact congrArg _ he⟩
  | ok a => exact ⟨nofun, fun ⟨_, h, _⟩ => nomatch h⟩

/-- What follows a guard is done if the guard lets it through. -/
theorem guard_eq_ok {p : Prop} [Decidable p] {e : ε} {f : Unit → Except ε α} {a : α} :
    (if p then throw e >>= f else f ()) = .ok a ↔ ¬ p ∧ f () = .ok a := by
  split
  · rename_i hp
    exact ⟨nofun, fun h => absurd hp h.1⟩
  · rename_i hp
    exact ⟨fun h => ⟨hp, h⟩, fun h => h.2⟩

/-- A result on a condition is given if the condition holds. -/
theorem ite_eq_ok {p : Prop} [Decidable p] {e : ε} {a b : α} :
    (if p then Except.ok a else Except.error e) = .ok b ↔ p ∧ a = b := by
  split
  · rename_i hp
    exact ⟨fun h => ⟨hp, Except.ok.inj h⟩, fun h => congrArg _ h.2⟩
  · rename_i hp
    exact ⟨nofun, fun h => absurd h.1 hp⟩

/-- A result that is kept as an option is one that was computed. -/
theorem toOption_eq_some_iff {x : Except ε α} {a : α} : x.toOption = some a ↔ x = .ok a := by
  cases x with
  | error e => exact ⟨nofun, nofun⟩
  | ok b => exact ⟨fun h => congrArg _ (Option.some.inj h), fun h => congrArg _ (Except.ok.inj h)⟩

/-- A computation without a result fails. -/
theorem exists_eq_error {x : Except ε α} (h : ∀ a, x ≠ .ok a) : ∃ e, x = .error e := by
  cases x with
  | error e => exact ⟨e, rfl⟩
  | ok a => exact absurd rfl (h a)

/-- A computation that looks at its state first goes on with what it has seen. -/
theorem run_get_bind {σ : Type} (f : σ → ExceptT ε (StateM σ) β) (s : σ) : (get >>= f).run s = (f s).run s := rfl

/-- A computation with a state goes on from where its first part has stopped, unless that part has failed. -/
theorem run_bind {σ : Type} (x : ExceptT ε (StateM σ) α) (f : α → ExceptT ε (StateM σ) β) (s : σ) :
    (x >>= f).run s =
      match x.run s with
      | (.ok a, s') => (f a).run s'
      | (.error e, s') => (.error e, s') := by
  change (ExceptT.bind x f).run s = _
  simp only [ExceptT.bind, ExceptT.run, ExceptT.mk, bind, StateT.bind]
  rcases (x s : Except ε α × σ) with ⟨e | a, s'⟩ <;> rfl

/-- A computation with a state succeeds if its first part does and what follows does from there. -/
theorem run_bind_eq_ok {σ : Type} {x : ExceptT ε (StateM σ) α} {f : α → ExceptT ε (StateM σ) β} {s s' : σ} {b : β} :
    (x >>= f).run s = (.ok b, s') ↔ ∃ a s₁, x.run s = (.ok a, s₁) ∧ (f a).run s₁ = (.ok b, s') := by
  rw [run_bind]
  rcases x.run s with ⟨e | a, s₁⟩
  · exact ⟨nofun, fun ⟨_, _, h, _⟩ => nomatch h⟩
  · exact ⟨fun h => ⟨a, s₁, rfl, h⟩, fun ⟨_, _, h, hb⟩ => by cases h; exact hb⟩

/-- What can be computed without the state is computed, and the state stays. -/
theorem run_lift_bind {σ : Type} {x : Except ε α} {f : α → ExceptT ε (StateM σ) β} {s : σ} {a : α} (h : x = .ok a) :
    (liftM x >>= f : ExceptT ε (StateM σ) β).run s = (f a).run s := by
  rw [h]
  exact run_bind (liftM (Except.ok a)) f s

/-- A computation with a state that begins without it succeeds if that part does and what follows does. -/
theorem run_lift_bind_eq_ok {σ : Type} {x : Except ε α} {f : α → ExceptT ε (StateM σ) β} {s s' : σ} {b : β} :
    (liftM x >>= f : ExceptT ε (StateM σ) β).run s = (.ok b, s') ↔ ∃ a, x = .ok a ∧ (f a).run s = (.ok b, s') := by
  cases x with
  | error e =>
    have hfail : (liftM (Except.error e) >>= f : ExceptT ε (StateM σ) β).run s = (.error e, s) :=
      run_bind (liftM (Except.error e)) f s
    rw [hfail]
    exact ⟨nofun, fun ⟨_, h, _⟩ => nomatch h⟩
  | ok a =>
    rw [run_lift_bind rfl]
    exact ⟨fun h => ⟨a, rfl, h⟩, fun ⟨_, h, hb⟩ => by cases h; exact hb⟩

/-- What is computed without the state throughout leaves the state as it is. -/
theorem run_lift_bind_eq {σ : Type} {x : Except ε α} {f : α → ExceptT ε (StateM σ) β} {g : α → Except ε β} {s : σ}
    (h : ∀ a, (f a).run s = (g a, s)) : (liftM x >>= f : ExceptT ε (StateM σ) β).run s = (x >>= g, s) := by
  cases x with
  | error e => exact run_bind (liftM (Except.error e)) f s
  | ok a => exact (run_lift_bind rfl).trans (h a)

end StacksWallet.Outcome
