import HashBoard.Proofs.Bus.ByteStreams

/-!
# Polls of any channel

What a poll does, whatever its channel answers. Of a stream it answers the bytes from the first
accepted pair on, and it takes exactly the pairs up to there and the rest of the response. Before
each pair it looks at the clock, and a deadline that has passed then ends it; while the rest of a
response is read it does not look. A failed read ends it with the error of that read.
-/

namespace HashBoard.Bus

open Wire

variable {τ : Type} [Channel τ]

/-- What the pair of a round is asked for with. -/
def readOfRound (t : τ) (round : Nat) : Call :=
  .read 2 ((Channel.read 2 (Channel.now (afterRound^[round] t)).2).1.map Vector.toList)

/-- A round that a poll goes through: it begins in time, and its pair is read and not accepted. -/
structure PassedOver (accepts : UInt8 → UInt8 → Bool) (deadline : Nat) (t : τ) (round : Nat) :
    Prop where
  inTime : timeOfRound t round < deadline
  pair : ∃ a b, readOfRound t round = .read 2 (.ok [a, b]) ∧ accepts a b = false

theorem receive_of_readOfRound {t : τ} {a b : UInt8} (bus : Bus τ)
    (h : readOfRound t 0 = .read 2 (.ok [a, b])) (hbus : bus.channel = (Channel.now t).2) :
    ∃ middle : Bus τ, (receive 2).runOn bus = (.ok #v[a, b], middle) ∧
      middle.channel = afterRound t ∧ Made [readOfRound t 0] bus middle := by
  have hread : (Channel.read 2 (Channel.now t).2).1.map Vector.toList = .ok [a, b] := by
    injection h
  rw [h]
  have hrun := runOn_receive 2 bus
  rw [hbus] at hrun
  cases hpair : (Channel.read 2 (Channel.now t).2).1 with
  | error cause =>
    rw [hpair] at hread
    cases hread
  | ok pair =>
    rw [hpair] at hread hrun
    have hlist : pair.toList = [a, b] := Except.ok.inj hread
    obtain rfl : pair = #v[a, b] := Vector.toList_inj.1 hlist
    exact ⟨_, hrun, rfl, rfl, rfl, rfl⟩

/-- A deadline that has passed when a round begins ends the poll there, behind the pairs of the
rounds before. -/
theorem pollPairs_late (opcode : UInt8) {accepts : UInt8 → UInt8 → Bool} (length : Nat)
    {deadline round rounds : Nat} (bus : Bus τ) (hround : round < rounds)
    (hpassed : ∀ j < round, PassedOver accepts deadline bus.channel j)
    (hlate : deadline ≤ timeOfRound bus.channel round) :
    ∃ after : Bus τ, (pollPairs opcode accepts length deadline rounds).runOn bus =
        (.error (.timeout opcode), after) ∧
      Made ((List.range round).map (readOfRound bus.channel)) bus after := by
  induction round generalizing bus rounds with
  | zero =>
    obtain ⟨rounds, rfl⟩ := Nat.exists_eq_succ_of_ne_zero (Nat.ne_of_gt hround)
    refine ⟨{ bus with channel := (Channel.now bus.channel).2 }, ?_, rfl, rfl, rfl⟩
    have hnow : deadline ≤ (Channel.now bus.channel).1 := hlate
    rw [pollPairs_succ, runOn_clock_bind, if_pos hnow]
    rfl
  | succ round ih =>
    obtain ⟨rounds, rfl⟩ := Nat.exists_eq_succ_of_ne_zero (Nat.ne_of_gt (Nat.zero_lt_of_lt hround))
    obtain ⟨htime, a, b, hread, hmiss⟩ := hpassed 0 (Nat.succ_pos round)
    obtain ⟨middle, hpair, hchannel, hmade⟩ := receive_of_readOfRound
      { bus with channel := (Channel.now bus.channel).2 } hread rfl
    obtain ⟨after, hrest, hmore⟩ := ih middle (Nat.lt_of_succ_lt_succ hround)
      (fun j hj => by
        have hlater := hpassed (j + 1) (Nat.succ_lt_succ hj)
        rw [hchannel]
        exact ⟨hlater.inTime, hlater.pair⟩)
      (by rwa [hchannel])
    refine ⟨after, ?_, ?_⟩
    · have hnow : ¬deadline ≤ (Channel.now bus.channel).1 := Nat.not_le.2 htime
      rw [pollPairs_succ, runOn_clock_bind, if_neg hnow]
      refine (runOn_bind_of_ok hpair _).trans ?_
      rw [← hrest]
      exact congrArg (Exchange.runOn · middle) (if_neg (ne_true_of_eq_false hmiss))
    · rw [hchannel] at hmore
      have hcalls : (List.range (round + 1)).map (readOfRound bus.channel) =
          [readOfRound bus.channel 0] ++ (List.range round).map (readOfRound (afterRound bus.channel)) := by
        rw [List.range_succ_eq_map, List.map_cons, List.map_map]
        rfl
      rw [hcalls]
      exact Made.append ⟨hmade.generation, hmade.limits, hmade.calls⟩ hmore

/-- A poll answers the first accepted pair of a stream with what follows it, or nothing when there
is none among the pairs that it may read, and takes no byte more than that. On any channel it reads
a bounded number of bytes, a deadline that has passed when a round begins ends it, and so does a
failed read, whose error is the answer. -/
theorem poll_exact (opcode : UInt8) (accepts : UInt8 → UInt8 → Bool) (length : Nat) (bus : Bus τ) :
    let rounds := (bus.limits.maxBytes + 1) / 2
    let deadline := (Channel.now bus.channel).1 + bus.limits.timeout
    let polled := (Channel.now bus.channel).2
    let outcome := (poll opcode accepts length).runOn bus
    (∀ stream, Delivers bus.channel stream →
      (∀ i < rounds, (∀ j < i, accepts (stream.get (2 * j)) (stream.get (2 * j + 1)) = false) →
        accepts (stream.get (2 * i)) (stream.get (2 * i + 1)) = true →
        (∀ j ≤ i, timeOfRound polled j < deadline) →
        outcome.1 = .ok (some ((stream.drop (2 * i)).take (max length 2))) ∧
          Consumed (2 * i + max length 2) stream bus outcome.2) ∧
      ((∀ j < rounds, accepts (stream.get (2 * j)) (stream.get (2 * j + 1)) = false) →
        (∀ j < rounds, timeOfRound polled j < deadline) →
        outcome.1 = .ok none ∧ Consumed (2 * rounds) stream bus outcome.2)) ∧
    (∀ round < rounds, (∀ j < round, PassedOver accepts deadline polled j) →
      deadline ≤ timeOfRound polled round →
      outcome.1 = .error (.timeout opcode) ∧
        Made ((List.range round).map (readOfRound polled)) bus outcome.2) ∧
    ∃ reads, Made reads bus outcome.2 ∧ (∀ call ∈ reads, call.isRead = true) ∧
      requestedIn reads ≤ 2 * rounds + (length - 2) ∧ Honest reads outcome.1 := by
  intro rounds deadline polled outcome
  refine ⟨?_, ?_, ?_⟩
  · intro stream hdelivers
    refine ⟨?_, ?_⟩
    · intro i hi hmiss hit htime
      obtain ⟨after, hpoll, hafter⟩ :=
        poll_of_first opcode accepts length hi hdelivers hmiss hit htime
      exact ⟨congrArg Prod.fst hpoll, congrArg Prod.snd hpoll ▸ hafter⟩
    · intro hmiss htime
      obtain ⟨after, hpoll, hafter⟩ := poll_of_none opcode accepts length hdelivers hmiss htime
      exact ⟨congrArg Prod.fst hpoll, congrArg Prod.snd hpoll ▸ hafter⟩
  · intro round hround hpassed hlate
    obtain ⟨after, hpoll, hafter⟩ := pollPairs_late opcode length { bus with channel := polled }
      hround hpassed hlate
    have hrun : outcome = (.error (.timeout opcode), after) := hpoll
    rw [hrun]
    exact ⟨rfl, hafter.generation, hafter.limits, hafter.calls⟩
  · obtain ⟨reads, hperformed, hreads, hbytes⟩ := poll_onlyReads opcode accepts length bus
    exact ⟨reads, hperformed.made, hreads, hbytes, hperformed.honest⟩

/-- The bus of a scripted chain that has the given bytes ready. -/
def busHearing (waiting : Bytes) (timeout : Nat) : Bus Script :=
  Bus.start { Script.start [] [] [] with waiting } .a6 ⟨5, timeout⟩

/-- A response of three bytes in the last of three rounds, no response, and no time for one. -/
theorem poll_exact_of_three_rounds :
    ((poll 0x08 FoundNonce.startsResult 3).runOn
        (busHearing [0, 0, 0, 0, 0x18, 0x01, 0x7f] 1)).1 = .ok (some [0x18, 0x01, 0x7f]) ∧
      ((poll 0x08 FoundNonce.startsResult 3).runOn (busHearing [] 1)).1 = .ok none ∧
      ((poll 0x08 FoundNonce.startsResult 3).runOn (busHearing [] 0)).1 =
        .error (.timeout 0x08) := by
  have hheard (waiting : Bytes) (timeout : Nat) := poll_exact 0x08 FoundNonce.startsResult 3
    (busHearing waiting timeout)
  have hdelivers (waiting : Bytes) (timeout : Nat) :
      Delivers (busHearing waiting timeout).channel (thenSilence waiting) :=
    (plays_waiting rfl).delivers
  refine ⟨?_, ?_, ?_⟩
  · have hanswer := ((hheard [0, 0, 0, 0, 0x18, 0x01, 0x7f] 1).1 _ (hdelivers ..)).1 2 (by decide)
      (by decide) (by decide) fun _ _ => Nat.zero_lt_one
    rw [hanswer.1, drop_thenSilence, take_thenSilence]
    rfl
  · exact (((hheard [] 1).1 _ (hdelivers ..)).2 (by decide) fun _ _ => Nat.zero_lt_one).1
  · exact ((hheard [] 0).2.1 0 (by decide) nofun (Nat.le_refl 0)).1

end HashBoard.Bus
