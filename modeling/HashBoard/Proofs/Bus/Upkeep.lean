import HashBoard.Proofs.Bus.Calls

/-!
# What exchanges keep

A property of a channel that no single call ends holds after each exchange of a detection, whatever
it answers.
-/

namespace HashBoard.Bus

open Wire

variable {τ α : Type}

/-- What a channel keeps through every call. -/
structure Lasting [Channel τ] (I : τ → Prop) : Prop where
  write : ∀ frame t, I t → I (Channel.write frame t).2
  read : ∀ n t, I t → I (Channel.read n t).2
  now : ∀ t, I t → I (Channel.now t).2

def Keeps (I : τ → Prop) (x : Exchange τ α) : Prop :=
  ∀ bus, I bus.channel → I (x.runOn bus).2.channel

variable {I : τ → Prop}

theorem Keeps.after {x : Exchange τ α} {bus bus' : Bus τ} {answer : Except ExchangeError α}
    (hx : Keeps I x) (h : x.runOn bus = (answer, bus')) (hI : I bus.channel) : I bus'.channel := by
  have hkept := hx bus hI
  rw [h] at hkept
  exact hkept

variable [Channel τ]

theorem Lasting.keeps (hI : Lasting I) {x : Exchange τ α} (hx : Sends (fun _ => True) x) :
    Keeps I x :=
  fun bus h => (hx bus).channel (fun frame t _ => hI.write frame t) hI.read hI.now h

theorem acknowledged_keeps (hI : Lasting I) (opcode : Opcode) (address : UInt8) :
    Keeps I (acknowledged opcode address) :=
  hI.keeps (acknowledged_sends trivial)

theorem startSelfTest_keeps (hI : Lasting I) (address : UInt8) : Keeps I (startSelfTest address) :=
  hI.keeps (startSelfTest_sends trivial)

theorem stored_keeps (hI : Lasting I) (opcode : Opcode) (extra : Nat) (address : UInt8)
    (register : Register) : Keeps I (stored opcode extra address register) :=
  hI.keeps (stored_sends trivial extra)

end HashBoard.Bus
