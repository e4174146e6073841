import HashBoard.Bus.Command

/-!
# Running exchanges

What an exchange does to a bus, one command of its program at a time, and what no exchange
changes: the generation of the chips, the bounds of a poll and the calls made before it.
-/

namespace HashBoard.Bus

open Wire

variable {τ α β : Type}

/-! ### Programs -/

theorem run_bind {σ ε : Type} (x : ExceptT ε (StateM σ) α) (f : α → ExceptT ε (StateM σ) β)
    (s : σ) : (x >>= f).run.run s =
      match x.run.run s with
      | (.ok a, middle) => (f a).run.run middle
      | (.error cause, middle) => (.error cause, middle) := by
  unfold ExceptT.run StateT.run
  simp only [bind, ExceptT.bind, ExceptT.mk, StateT.bind, ExceptT.bindCont]
  cases x s with
  | mk answer after => cases answer <;> rfl

theorem run_bind_cases {σ ε : Type} {x : ExceptT ε (StateM σ) α} {f : α → ExceptT ε (StateM σ) β}
    {s s' : σ} {answer : Except ε β} (h : (x >>= f).run.run s = (answer, s')) :
    (∃ a middle, x.run.run s = (.ok a, middle) ∧ (f a).run.run middle = (answer, s')) ∨
      (∃ cause, x.run.run s = (.error cause, s') ∧ answer = .error cause) := by
  rw [run_bind] at h
  cases hx : x.run.run s with
  | mk first middle =>
    rw [hx] at h
    cases first with
    | ok a => exact .inl ⟨a, middle, rfl, h⟩
    | error cause =>
      obtain ⟨rfl, rfl⟩ := Prod.mk.inj h
      exact .inr ⟨cause, rfl, rfl⟩

theorem runOn_bind_of_ok {x : Exchange τ α} {bus middle : Bus τ} {a : α}
    (h : x.runOn bus = (.ok a, middle)) (f : α → Exchange τ β) :
    (x >>= f).runOn bus = (f a).runOn middle := by
  have hrun : x.run.run bus = (.ok a, middle) := h
  show (x >>= f).run.run bus = _
  rw [run_bind, hrun]
  rfl

theorem runOn_bind_of_error {x : Exchange τ α} {bus after : Bus τ} {cause : ExchangeError}
    (h : x.runOn bus = (.error cause, after)) (f : α → Exchange τ β) :
    (x >>= f).runOn bus = (.error cause, after) := by
  have hrun : x.run.run bus = (.error cause, after) := h
  show (x >>= f).run.run bus = _
  rw [run_bind, hrun]

theorem runOn_get_bind (f : Bus τ → Exchange τ α) (bus : Bus τ) :
    (get >>= f : Exchange τ α).runOn bus = (f bus).runOn bus := rfl

/-- A sequence of two exchanges either gets past the first, or fails as the first does. -/
theorem bind_cases {x : Exchange τ α} {f : α → Exchange τ β} {bus after : Bus τ}
    {answer : Except ExchangeError β} (h : (x >>= f).runOn bus = (answer, after)) :
    (∃ a middle, x.runOn bus = (.ok a, middle) ∧ (f a).runOn middle = (answer, after)) ∨
      (∃ cause, x.runOn bus = (.error cause, after) ∧ answer = .error cause) :=
  run_bind_cases h

theorem runOn_throw_bind (cause : ExchangeError) (f : α → Exchange τ β) (bus : Bus τ) :
    (throw cause >>= f : Exchange τ β).runOn bus = (.error cause, bus) := rfl

theorem runOn_discard (x : Exchange τ α) (bus : Bus τ) :
    (discard x).runOn bus = ((x.runOn bus).1.map fun _ => ⟨⟩, (x.runOn bus).2) := by
  unfold discard Exchange.runOn ExceptT.run StateT.run
  simp only [Functor.mapConst, Function.comp, ExceptT.map, ExceptT.mk, bind, StateT.bind]
  cases x bus with
  | mk answer after => cases answer <;> rfl

theorem runOn_map (f : α → β) (x : Exchange τ α) (bus : Bus τ) :
    (f <$> x : Exchange τ β).runOn bus = ((x.runOn bus).1.map f, (x.runOn bus).2) := by
  unfold Exchange.runOn ExceptT.run StateT.run
  simp only [Functor.map, ExceptT.map, ExceptT.mk, bind, StateT.bind]
  cases x bus with
  | mk answer after => cases answer <;> rfl

variable [Channel τ]

theorem runOn_send (frame : Bytes) (bus : Bus τ) :
    (send frame).runOn bus =
      ((Channel.write frame bus.channel).1.mapError .channel,
        { bus with
          channel := (Channel.write frame bus.channel).2
          calls := .wrote frame (Channel.write frame bus.channel).1 :: bus.calls }) := by
  unfold send
  rw [runOn_get_bind]
  cases h : Channel.write frame bus.channel with
  | mk answer channel => cases answer <;> rfl

theorem runOn_receive (n : Nat) (bus : Bus τ) :
    (receive n).runOn bus =
      ((Channel.read n bus.channel).1.mapError .channel,
        { bus with
          channel := (Channel.read n bus.channel).2
          calls := .read n ((Channel.read n bus.channel).1.map Vector.toList) :: bus.calls }) := by
  unfold receive
  rw [runOn_get_bind]
  cases h : Channel.read n bus.channel with
  | mk answer channel => cases answer <;> rfl

theorem runOn_clock_bind (f : Nat → Exchange τ α) (bus : Bus τ) :
    (clock >>= f).runOn bus =
      (f (Channel.now bus.channel).1).runOn
        { bus with channel := (Channel.now bus.channel).2 } := rfl

/-! ### Polls -/

/-- One round of a poll: look at the clock, then take a pair and stop at it or go on behind it. -/
theorem pollPairs_succ (opcode : UInt8) (accepts : UInt8 → UInt8 → Bool)
    (length deadline rounds : Nat) :
    pollPairs (τ := τ) opcode accepts length deadline (rounds + 1) = (do
      let time ← clock
      if deadline ≤ time then throw (.timeout opcode)
      let pair ← receive 2
      if accepts (pair.get 0) (pair.get 1) then
        let rest ← receiveRest (length - 2)
        return some (pair.toList ++ rest)
      else
        pollPairs opcode accepts length deadline rounds) := rfl

end HashBoard.Bus
