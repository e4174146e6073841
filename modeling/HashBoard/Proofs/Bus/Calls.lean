import HashBoard.Proofs.Bus.Transcript
import Mathlib.Logic.Relation

/-!
# The calls of an exchange

An exchange is a sequence of single calls of its channel, whatever that answers. What is asked of
the frames written is asked of each command once, and what no call of the channel ends holds after
every exchange.
-/

namespace HashBoard.Bus

open Wire Relation

/-- One call from one bus to another; a frame that it writes has the property. -/
inductive Called {τ : Type} [Channel τ] (P : Bytes → Prop) (bus : Bus τ) : Bus τ → Prop
  | wrote {frame : Bytes} (hframe : P frame) :
    Called P bus { bus with
      channel := (Channel.write frame bus.channel).2
      calls := .wrote frame (Channel.write frame bus.channel).1 :: bus.calls }
  | read (n : Nat) :
    Called P bus { bus with
      channel := (Channel.read n bus.channel).2
      calls := .read n ((Channel.read n bus.channel).1.map Vector.toList) :: bus.calls }
  | ticked : Called P bus { bus with channel := (Channel.now bus.channel).2 }

abbrev Calls {τ : Type} [Channel τ] (P : Bytes → Prop) : Bus τ → Bus τ → Prop :=
  ReflTransGen (Called P)

variable {τ α β : Type} [Channel τ] {P : Bytes → Prop} {bus after : Bus τ}

namespace Calls

theorem generation (h : Calls P bus after) : after.generation = bus.generation := by
  induction h with
  | refl => rfl
  | tail _ hlast ih =>
    cases hlast with
    | wrote _ => exact ih
    | read _ => exact ih
    | ticked => exact ih

/-- A property of the channel that no call ends. -/
theorem channel {I : τ → Prop} (h : Calls P bus after)
    (hwrite : ∀ frame t, P frame → I t → I (Channel.write frame t).2)
    (hread : ∀ n t, I t → I (Channel.read n t).2) (hnow : ∀ t, I t → I (Channel.now t).2)
    (hI : I bus.channel) : I after.channel := by
  induction h with
  | refl => exact hI
  | tail _ hlast ih =>
    cases hlast with
    | wrote hframe => exact hwrite _ _ hframe ih
    | read n => exact hread n _ ih
    | ticked => exact hnow _ ih

end Calls

/-! ### Programs -/

/-- Every frame that the exchange writes has the property. -/
def Sends (P : Bytes → Prop) (x : Exchange τ α) : Prop := ∀ bus, Calls P bus (x.runOn bus).2

namespace Sends

theorem calls {x : Exchange τ α} {answer : Except ExchangeError α} (hx : Sends P x)
    (h : x.runOn bus = (answer, after)) : Calls P bus after := by
  have hcalls := hx bus
  rw [h] at hcalls
  exact hcalls

theorem pure (a : α) : Sends P (Pure.pure a : Exchange τ α) := fun _ => .refl

theorem throw (cause : ExchangeError) : Sends P (throw cause : Exchange τ α) := fun _ => .refl

theorem bind {x : Exchange τ α} {f : α → Exchange τ β} (hx : Sends P x)
    (hf : ∀ a, Sends P (f a)) : Sends P (x >>= f) := by
  intro bus
  rcases bind_cases (rfl : (x >>= f).runOn bus = (((x >>= f).runOn bus).1, _)) with
    ⟨a, middle, hfirst, hrest⟩ | ⟨cause, hfirst, _⟩
  · exact (hx.calls hfirst).trans ((hf a).calls hrest)
  · exact hx.calls hfirst

theorem get_bind {f : Bus τ → Exchange τ α} (hf : ∀ bus, Sends P (f bus)) :
    Sends P (get >>= f : Exchange τ α) :=
  fun bus => hf bus bus

theorem discard {x : Exchange τ α} (hx : Sends P x) : Sends P (discard x) := by
  intro bus
  rw [runOn_discard]
  exact hx bus

end Sends

/-! ### Calls -/

theorem send_sends {frame : Bytes} (hframe : P frame) : Sends P (send (τ := τ) frame) := by
  intro bus
  rw [runOn_send]
  exact .single (.wrote hframe)

theorem receive_sends (n : Nat) : Sends P (receive (τ := τ) n) := by
  intro bus
  rw [runOn_receive]
  exact .single (.read n)

theorem clock_sends : Sends P (clock (τ := τ)) := fun _ => .single .ticked

theorem receiveRest_sends (n : Nat) : Sends P (receiveRest (τ := τ) n) := by
  induction n using Nat.twoStepInduction with
  | zero => exact .pure []
  | one => exact (receive_sends 1).bind fun byte => .pure byte.toList
  | more n ih _ =>
    exact (receive_sends 2).bind fun pair => ih.bind fun rest => .pure (pair.toList ++ rest)

/-! ### Polling -/

theorem pollPairs_sends (opcode : UInt8) (accepts : UInt8 → UInt8 → Bool)
    (length deadline rounds : Nat) :
    Sends P (pollPairs (τ := τ) opcode accepts length deadline rounds) := by
  induction rounds with
  | zero => exact .pure none
  | succ rounds ih =>
    have hpair : Sends P (receive (τ := τ) 2 >>= fun pair =>
        if accepts pair[0] pair[1] then do
          let rest ← receiveRest (length - 2)
          return some (pair.toList ++ rest)
        else pollPairs opcode accepts length deadline rounds) := by
      refine (receive_sends 2).bind fun pair => ?_
      by_cases ha : accepts pair[0] pair[1]
      · rw [if_pos ha]
        exact (receiveRest_sends _).bind fun rest => .pure (some (pair.toList ++ rest))
      · rw [if_neg ha]
        exact ih
    refine clock_sends.bind fun time => ?_
    by_cases hlate : deadline ≤ time
    · rw [if_pos hlate]
      exact (Sends.throw _).bind fun _ => hpair
    · rw [if_neg hlate]
      exact hpair

theorem poll_sends (opcode : UInt8) (accepts : UInt8 → UInt8 → Bool) (length : Nat) :
    Sends P (poll (τ := τ) opcode accepts length) :=
  clock_sends.bind fun _ => .get_bind fun _ => pollPairs_sends opcode accepts length _ _

theorem expect_sends (opcode : Opcode) (length : Nat) :
    Sends P (expect (τ := τ) opcode length) := by
  refine .get_bind fun bus => (poll_sends _ _ _).bind fun response? => ?_
  cases response? with
  | none => exact .throw _
  | some response => exact .pure response

/-! ### Commands -/

theorem acknowledged_sends {opcode : Opcode} {address : UInt8}
    (hframe : P [opcode.code, address, 0, 0]) :
    Sends P (acknowledged (τ := τ) opcode address) :=
  (send_sends hframe).bind fun _ => (expect_sends _ _).discard

theorem startSelfTest_sends {address : UInt8}
    (hframe : P [Opcode.startSelfTest.code, address, 0, 0]) :
    Sends P (startSelfTest (τ := τ) address) :=
  (send_sends hframe).bind fun _ => (expect_sends _ _).bind fun _ => .pure _

theorem stored_sends {opcode : Opcode} {address : UInt8} {register : Register}
    (hframe : P (register.storeFrame opcode address)) (extra : Nat) :
    Sends P (stored (τ := τ) opcode extra address register) :=
  (send_sends hframe).bind fun _ => .get_bind fun _ => (expect_sends _ _).discard

theorem fetchRegister_sends {chip : UInt8} (hframe : P (readFrame chip)) :
    Sends P (fetchRegister (τ := τ) chip) := by
  refine (send_sends hframe).bind fun _ => .get_bind fun bus => (poll_sends _ _ _).bind fun got => ?_
  cases got with
  | none => exact .throw _
  | some response =>
    simp only
    cases Register.ofBytes? (response.drop 2) with
    | none => exact .throw _
    | some register => exact .pure register

theorem emptyJobQueue_sends {address : UInt8} (hreset : P (queueResetFrame address))
    (hread : P (readFrame (if address = broadcast then 1 else address))) :
    Sends P (emptyJobQueue (τ := τ) address) := by
  refine (send_sends hreset).bind fun _ => (expect_sends _ _).discard.bind fun _ =>
    (fetchRegister_sends hread).bind fun register => .get_bind fun bus => ?_
  by_cases hbusy : register.isBusy bus.generation.busyMask = true
  · rw [if_pos hbusy]
    exact .throw _
  · rw [if_neg hbusy]
    exact .pure _

theorem fetchResult_sends (hframe : P resultRequest) : Sends P (fetchResult (τ := τ)) := by
  refine (send_sends hframe).bind fun _ => (poll_sends _ _ _).bind fun got => ?_
  cases got with
  | none => exact .pure none
  | some response =>
    simp only
    cases FoundNonce.decode (Bytes.toVector 10 response) with
    | ok result => exact .pure (some result)
    | error cause => exact .throw cause

/-- The bytes of a job depend on the generation behind the bus. -/
theorem sendJob_calls {frame : Bytes} {answer : Except ExchangeError Unit}
    (hframe : P (jobBytes bus.generation frame)) (hread : P (readFrame (Job.chipOf frame)))
    (h : (sendJob frame).runOn bus = (answer, after)) : Calls P bus after := by
  rw [sendJob, runOn_get_bind] at h
  refine Sends.calls ((send_sends hframe).bind fun _ => ?_) h
  cases bus.generation.jobReceipt with
  | none => exact .pure ()
  | waitBusy =>
    refine (fetchRegister_sends hread).bind fun register => ?_
    by_cases hbusy : register.isBusy bus.generation.busyMask = true
    · simp only [if_pos hbusy]
      exact .pure ()
    · simp only [if_neg hbusy]
      exact .throw _

end HashBoard.Bus
