import HashBoard.Proofs.Bus.ByteStreams
import HashBoard.Proofs.Bus.Upkeep
import HashBoard.Sim.Chain

/-!
# Replies of simulated chips

A simulated chain has its whole reply ready behind four zero bytes, and its clock stands still. A
poll of three rounds or more therefore finds any reply of the length asked for, and hears nothing
when there is none.
-/

namespace HashBoard

open Bus Wire

/-! ### Reads -/

/-- From one bus to another nothing happened but reads. -/
def Listened (bus after : Bus SimulatedChain) : Prop :=
  ∃ reply bytesRead calls,
    after = { bus with channel := { bus.channel with reply, bytesRead }, calls }

variable {bus middle after : Bus SimulatedChain}

theorem Listened.of_calls (h : Calls (fun _ => False) bus after) : Listened bus after := by
  induction h with
  | refl => exact ⟨_, _, _, rfl⟩
  | tail _ hlast ih =>
    obtain ⟨reply, bytesRead, calls, rfl⟩ := ih
    cases hlast with
    | wrote hnone => exact hnone.elim
    | read n => exact ⟨_, _, _, rfl⟩
    | ticked => exact ⟨_, _, _, rfl⟩

namespace SimulatedChain

theorem plays_reply (s : SimulatedChain) : Plays 0 0 s (thenSilence s.reply) := by
  refine ⟨fun s stream => stream = thenSilence s.reply,
    ⟨⟨?_, fun hs => hs⟩, fun _ => ⟨Nat.le_refl 0, Nat.le_refl 0⟩⟩, rfl⟩
  rintro s stream n rfl
  exact ⟨Bytes.toVector n s.reply, rfl, (take_thenSilence n s.reply).symm,
    drop_thenSilence n s.reply⟩

/-! ### Polls -/

variable (opcode : UInt8) (accepts : UInt8 → UInt8 → Bool) (length : Nat)

theorem poll_listens {answer : Except ExchangeError (Option Bytes)}
    (h : (poll opcode accepts length).runOn bus = (answer, after)) : Listened bus after :=
  .of_calls ((poll_sends opcode accepts length).calls h)

theorem poll_inTime (htime : 0 < bus.limits.timeout) (round : Nat) :
    timeOfRound (Channel.now bus.channel).2 round <
      (Channel.now bus.channel).1 + bus.limits.timeout :=
  (plays_reply bus.channel).inTime (by rwa [Nat.zero_add]) round

theorem poll_of_silence (bus : Bus SimulatedChain) (htime : 0 < bus.limits.timeout)
    (hreply : bus.channel.reply = [])
    (hnot : accepts 0 0 = false) : ∃ after, Listened bus after ∧
      (poll opcode accepts length).runOn bus = (.ok none, after) := by
  have hzeros : Delivers bus.channel (Stream'.const 0) := by
    have hplays := plays_reply bus.channel
    rw [hreply] at hplays
    exact hplays.delivers
  obtain ⟨after, hpoll, _⟩ := poll_of_none opcode accepts length hzeros (fun _ _ => hnot)
    fun round _ => poll_inTime htime round
  exact ⟨after, poll_listens opcode accepts length hpoll, hpoll⟩

/-- The two pairs of filler are passed over, and the third pair starts the reply. -/
theorem poll_of_reply (bus : Bus SimulatedChain) {a b : UInt8} {rest : Bytes}
    (htime : 0 < bus.limits.timeout)
    (hbytes : 6 ≤ bus.limits.maxBytes)
    (hreply : bus.channel.reply = List.replicate filler 0 ++ a :: b :: rest)
    (hnot : accepts 0 0 = false) (ha : accepts a b = true) (hlength : rest.length = length - 2) :
    ∃ after, Listened bus after ∧
      (poll opcode accepts length).runOn bus = (.ok (some (a :: b :: rest)), after) := by
  have hdelivers : Delivers bus.channel (thenSilence (0 :: 0 :: 0 :: 0 :: a :: b :: rest)) := by
    have hplays := plays_reply bus.channel
    rw [hreply] at hplays
    exact hplays.delivers
  have hfiller (j : Nat) (hj : j < 2) :
      accepts ((thenSilence (0 :: 0 :: 0 :: 0 :: a :: b :: rest)).get (2 * j))
        ((thenSilence (0 :: 0 :: 0 :: 0 :: a :: b :: rest)).get (2 * j + 1)) = false := by
    match j, hj with
    | 0, _ | 1, _ => exact hnot
  have hrest : max length 2 = (a :: b :: rest).length := by
    simp only [List.length_cons]
    omega
  obtain ⟨after, hpoll, _⟩ := poll_of_first (i := 2) opcode accepts length (by omega) hdelivers
    hfiller ha fun round _ => poll_inTime htime round
  have hresponse : ((thenSilence (0 :: 0 :: 0 :: 0 :: a :: b :: rest)).drop (2 * 2)).take
      (max length 2) = a :: b :: rest := by
    rw [drop_thenSilence, take_thenSilence]
    exact Bytes.fit_of_length hrest.symm
  rw [hresponse] at hpoll
  exact ⟨after, poll_listens opcode accepts length hpoll, hpoll⟩

end SimulatedChain

end HashBoard
