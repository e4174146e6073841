import HashBoard.Proofs.Bus.FirstFailure
import HashBoard.Proofs.Bus.Transcript
import HashBoard.Sim.Script
import Mathlib.Data.Stream.Init
import Mathlib.Logic.Function.Iterate

/-!
# Polling a stream of bytes

A channel that delivers a stream gives its bytes in order, in whatever portions they are asked for,
and one that plays it also keeps its clock within a span of time. A poll that sees no round begin
too late answers the bytes from the first accepted pair on, or nothing when no pair within its bound
is accepted, and takes no byte of the stream beyond these.
-/

namespace HashBoard.Bus

open Wire

variable {τ : Type} [Channel τ]

/-! ### Channels that deliver a stream -/

/-- A relation between channels and streams that reads and looks at the clock keep. -/
structure Delivering (delivers : τ → Stream' UInt8 → Prop) : Prop where
  read : ∀ {t stream} (n : Nat), delivers t stream → ∃ bytes : Vector UInt8 n,
    (Channel.read n t).1 = .ok bytes ∧ bytes.toList = stream.take n ∧
      delivers (Channel.read n t).2 (stream.drop n)
  now : ∀ {t stream}, delivers t stream → delivers (Channel.now t).2 stream

/-- All that is read from the channel from now on is the stream. -/
def Delivers (t : τ) (stream : Stream' UInt8) : Prop :=
  ∃ delivers, Delivering delivers ∧ delivers t stream

variable {t : τ} {stream : Stream' UInt8}

theorem Delivers.read (h : Delivers t stream) (n : Nat) : ∃ bytes : Vector UInt8 n,
    (Channel.read n t).1 = .ok bytes ∧ bytes.toList = stream.take n ∧
      Delivers (Channel.read n t).2 (stream.drop n) := by
  obtain ⟨delivers, hdelivering, ht⟩ := h
  obtain ⟨bytes, hanswer, hbytes, hrest⟩ := hdelivering.read n ht
  exact ⟨bytes, hanswer, hbytes, delivers, hdelivering, hrest⟩

theorem Delivers.now (h : Delivers t stream) : Delivers (Channel.now t).2 stream := by
  obtain ⟨delivers, hdelivering, ht⟩ := h
  exact ⟨delivers, hdelivering, hdelivering.now ht⟩

/-! ### Channels that play a stream -/

/-- A relation of this kind whose channels show times within a span only. -/
structure Playing (first last : Nat) (plays : τ → Stream' UInt8 → Prop) : Prop
    extends Delivering plays where
  clock : ∀ {t stream}, plays t stream → first ≤ (Channel.now t).1 ∧ (Channel.now t).1 ≤ last

/-- All that is read from the channel from now on is the stream, while its clock shows times from
`first` to `last`. -/
def Plays (first last : Nat) (t : τ) (stream : Stream' UInt8) : Prop :=
  ∃ plays, Playing first last plays ∧ plays t stream

variable {first last : Nat}

theorem Plays.delivers (h : Plays first last t stream) : Delivers t stream := by
  obtain ⟨plays, hplaying, ht⟩ := h
  exact ⟨plays, hplaying.toDelivering, ht⟩

theorem Plays.read (h : Plays first last t stream) (n : Nat) :
    Plays first last (Channel.read n t).2 (stream.drop n) := by
  obtain ⟨plays, hplaying, ht⟩ := h
  obtain ⟨bytes, hanswer, hbytes, hrest⟩ := hplaying.read n ht
  exact ⟨plays, hplaying, hrest⟩

theorem Plays.now (h : Plays first last t stream) :
    first ≤ (Channel.now t).1 ∧ (Channel.now t).1 ≤ last ∧
      Plays first last (Channel.now t).2 stream := by
  obtain ⟨plays, hplaying, ht⟩ := h
  obtain ⟨hfirst, hlast⟩ := hplaying.clock ht
  exact ⟨hfirst, hlast, plays, hplaying, hplaying.now ht⟩

/-! ### Reads -/

variable {bus middle after : Bus τ}

/-- From one bus to another the first bytes of a stream were read, and nothing else happened. -/
structure Consumed (n : Nat) (stream : Stream' UInt8) (bus after : Bus τ) : Prop where
  calls : ∃ reads, Made reads bus after ∧ (∀ call ∈ reads, call.isRead = true) ∧
    requestedIn reads = n
  rest : Delivers after.channel (stream.drop n)

theorem Consumed.none (h : Delivers bus.channel stream) : Consumed 0 stream bus bus :=
  ⟨⟨[], .nil bus, nofun, rfl⟩, h⟩

theorem Consumed.of_looked {n : Nat}
    (h : Consumed n stream { bus with channel := (Channel.now bus.channel).2 } after) :
    Consumed n stream bus after := by
  obtain ⟨⟨reads, hmade, hreads⟩, hrest⟩ := h
  exact ⟨⟨reads, ⟨hmade.generation, hmade.limits, hmade.calls⟩, hreads⟩, hrest⟩

theorem Consumed.append {m n : Nat} (h1 : Consumed m stream bus middle)
    (h2 : Consumed n (stream.drop m) middle after) : Consumed (m + n) stream bus after := by
  obtain ⟨reads, hmade, hreads, hbytes⟩ := h1.calls
  obtain ⟨more, hmade', hreads', hbytes'⟩ := h2.calls
  refine ⟨⟨reads ++ more, hmade.append hmade', ?_, ?_⟩, ?_⟩
  · intro call hcall
    rcases List.mem_append.1 hcall with hcall | hcall
    · exact hreads call hcall
    · exact hreads' call hcall
  · rw [requestedIn_append, hbytes, hbytes']
  · have hrest := h2.rest
    rwa [Stream'.drop_drop] at hrest

theorem receive_delivers (h : Delivers bus.channel stream) (n : Nat) :
    ∃ (bytes : Vector UInt8 n) (after : Bus τ), (receive n).runOn bus = (.ok bytes, after) ∧
      bytes.toList = stream.take n ∧ Consumed n stream bus after ∧
      after.channel = (Channel.read n bus.channel).2 := by
  obtain ⟨bytes, hanswer, hbytes, hrest⟩ := h.read n
  have hrun := runOn_receive n bus
  rw [hanswer] at hrun
  refine ⟨bytes, _, hrun, hbytes, ⟨⟨[.read n (.ok bytes.toList)], ⟨rfl, rfl, rfl⟩, ?_, rfl⟩, hrest⟩, rfl⟩
  intro call hcall
  rw [List.mem_singleton.1 hcall]
  rfl

theorem take_add (m n : Nat) (stream : Stream' UInt8) :
    stream.take (m + n) = stream.take m ++ (stream.drop m).take n := by
  induction m generalizing stream with
  | zero => rw [Nat.zero_add, Stream'.take_zero, Stream'.drop_zero, List.nil_append]
  | succ m ih =>
    rw [Nat.add_right_comm, Stream'.take_succ, ih, Stream'.take_succ, Stream'.drop_succ,
      List.cons_append]

theorem receiveRest_delivers (h : Delivers bus.channel stream) (n : Nat) :
    ∃ after : Bus τ, (receiveRest n).runOn bus = (.ok (stream.take n), after) ∧
      Consumed n stream bus after := by
  induction n using Nat.twoStepInduction generalizing bus stream with
  | zero => exact ⟨bus, rfl, .none h⟩
  | one =>
    obtain ⟨byte, after, hbyte, hlist, hconsumed, _⟩ := receive_delivers h 1
    refine ⟨after, ?_, hconsumed⟩
    rw [receiveRest, runOn_bind_of_ok hbyte, hlist]
    rfl
  | more n ih _ =>
    obtain ⟨pair, middle, hpair, hlist, hfirst, _⟩ := receive_delivers h 2
    obtain ⟨after, hrest, hsecond⟩ := ih hfirst.rest
    rw [Nat.add_comm n 2]
    refine ⟨after, ?_, hfirst.append hsecond⟩
    rw [Nat.add_comm 2 n, receiveRest, runOn_bind_of_ok hpair, runOn_bind_of_ok hrest, hlist,
      Nat.add_comm n 2, take_add]
    rfl

/-! ### Rounds -/

/-- A channel after one round of a poll: a look at the clock and a pair. -/
def afterRound (t : τ) : τ := (Channel.read 2 (Channel.now t).2).2

/-- What the clock shows when a round begins, counted from zero. -/
def timeOfRound (t : τ) (round : Nat) : Nat := (Channel.now (afterRound^[round] t)).1

theorem timeOfRound_succ (t : τ) (round : Nat) :
    timeOfRound t (round + 1) = timeOfRound (afterRound t) round := rfl

variable (opcode : UInt8) (accepts : UInt8 → UInt8 → Bool) (length : Nat) {deadline : Nat}

/-- One round of a poll that is not too late takes the pair at hand or goes on behind it. -/
theorem pollPairs_round (rounds : Nat) (h : Delivers bus.channel stream)
    (htime : (Channel.now bus.channel).1 < deadline) :
    ∃ middle : Bus τ, middle.channel = afterRound bus.channel ∧ Consumed 2 stream bus middle ∧
      (pollPairs opcode accepts length deadline (rounds + 1)).runOn bus =
        if accepts (stream.get 0) (stream.get 1) then
          (receiveRest (length - 2) >>= fun rest =>
            (return some (stream.take 2 ++ rest) : Exchange τ _)).runOn middle
        else (pollPairs opcode accepts length deadline rounds).runOn middle := by
  let looked : Bus τ := { bus with channel := (Channel.now bus.channel).2 }
  have hlooked : Delivers looked.channel stream := h.now
  obtain ⟨pair, middle, hpair, hlist, ⟨⟨reads, hmade, hreads⟩, hrest⟩, hchannel⟩ :=
    receive_delivers hlooked 2
  refine ⟨middle, hchannel, ⟨⟨reads, ⟨hmade.generation, hmade.limits, hmade.calls⟩, hreads⟩, hrest⟩, ?_⟩
  rw [pollPairs_succ, runOn_clock_bind, if_neg (Nat.not_le.2 htime)]
  obtain ⟨a, b, rfl⟩ := exists_eq_pair pair
  obtain ⟨ha, hb⟩ : a = stream.get 0 ∧ b = stream.get 1 := by
    simpa [Stream'.take_succ] using hlist
  rw [← hlist, ← ha, ← hb]
  refine (runOn_bind_of_ok hpair _).trans ?_
  by_cases haccepts : accepts a b = true
  · rw [if_pos haccepts]
    exact congrArg (Exchange.runOn · middle) (if_pos haccepts)
  · rw [if_neg haccepts]
    exact congrArg (Exchange.runOn · middle) (if_neg haccepts)

/-- Pairs that are not accepted are passed over. -/
theorem pollPairs_passes (i rounds : Nat) (h : Delivers bus.channel stream)
    (hmiss : ∀ j < i, accepts (stream.get (2 * j)) (stream.get (2 * j + 1)) = false)
    (htime : ∀ j < i, timeOfRound bus.channel j < deadline) :
    ∃ middle : Bus τ, middle.channel = afterRound^[i] bus.channel ∧
      Consumed (2 * i) stream bus middle ∧
      (pollPairs opcode accepts length deadline (rounds + i)).runOn bus =
        (pollPairs opcode accepts length deadline rounds).runOn middle := by
  induction i generalizing bus stream with
  | zero => exact ⟨bus, rfl, .none h, rfl⟩
  | succ i ih =>
    obtain ⟨next, hnext, hfirst, hround⟩ := pollPairs_round opcode accepts length
      (rounds + i) h (htime 0 (Nat.succ_pos i))
    have hnot : ¬accepts (stream.get 0) (stream.get 1) = true :=
      ne_true_of_eq_false (hmiss 0 (Nat.succ_pos i))
    obtain ⟨middle, hmiddle, hsecond, hrounds⟩ := ih hfirst.rest
      (fun j hj => hmiss (j + 1) (Nat.succ_lt_succ hj))
      (fun j hj => by
        rw [hnext]
        exact htime (j + 1) (Nat.succ_lt_succ hj))
    refine ⟨middle, ?_, ?_, ?_⟩
    · rw [hmiddle, hnext, Function.iterate_succ_apply]
    · rw [Nat.mul_succ, Nat.add_comm]
      exact hfirst.append hsecond
    · rw [← Nat.add_assoc, hround, if_neg hnot, hrounds]

/-- The first accepted pair starts the response, of which at least that pair is heard. -/
theorem pollPairs_of_first {i rounds : Nat} (hi : i < rounds) (h : Delivers bus.channel stream)
    (hmiss : ∀ j < i, accepts (stream.get (2 * j)) (stream.get (2 * j + 1)) = false)
    (hit : accepts (stream.get (2 * i)) (stream.get (2 * i + 1)) = true)
    (htime : ∀ j ≤ i, timeOfRound bus.channel j < deadline) :
    ∃ after : Bus τ, (pollPairs opcode accepts length deadline rounds).runOn bus =
        (.ok (some ((stream.drop (2 * i)).take (max length 2))), after) ∧
      Consumed (2 * i + max length 2) stream bus after := by
  obtain ⟨rounds, rfl⟩ : ∃ more, rounds = more + 1 + i := ⟨rounds - i - 1, by omega⟩
  obtain ⟨middle, hmiddle, hpassed, hpasses⟩ := pollPairs_passes opcode accepts length i
    (rounds + 1) h hmiss fun j hj => htime j (Nat.le_of_lt hj)
  have hnow : (Channel.now middle.channel).1 < deadline := by
    rw [hmiddle]
    exact htime i (Nat.le_refl i)
  obtain ⟨next, _, hpair, hround⟩ := pollPairs_round opcode accepts length rounds
    hpassed.rest hnow
  have haccepts : accepts ((stream.drop (2 * i)).get 0) ((stream.drop (2 * i)).get 1) = true := by
    rw [Stream'.get_drop, Stream'.get_drop]
    exact hit
  obtain ⟨after, hrest, hlast⟩ := receiveRest_delivers hpair.rest (length - 2)
  have hlength : max length 2 = 2 + (length - 2) := by omega
  refine ⟨after, ?_, ?_⟩
  · rw [hpasses, hround, if_pos haccepts, runOn_bind_of_ok hrest, hlength, take_add]
    rfl
  · rw [hlength]
    exact hpassed.append (hpair.append hlast)

theorem pollPairs_of_none (rounds : Nat) (h : Delivers bus.channel stream)
    (hmiss : ∀ j < rounds, accepts (stream.get (2 * j)) (stream.get (2 * j + 1)) = false)
    (htime : ∀ j < rounds, timeOfRound bus.channel j < deadline) :
    ∃ after : Bus τ, (pollPairs opcode accepts length deadline rounds).runOn bus =
        (.ok none, after) ∧ Consumed (2 * rounds) stream bus after := by
  obtain ⟨middle, _, hpassed, hpasses⟩ := pollPairs_passes opcode accepts length rounds 0 h
    hmiss htime
  rw [Nat.zero_add] at hpasses
  exact ⟨middle, hpasses, hpassed⟩

/-! ### Polls -/

theorem poll_of_first {i : Nat} (hi : i < (bus.limits.maxBytes + 1) / 2)
    (h : Delivers bus.channel stream)
    (hmiss : ∀ j < i, accepts (stream.get (2 * j)) (stream.get (2 * j + 1)) = false)
    (hit : accepts (stream.get (2 * i)) (stream.get (2 * i + 1)) = true)
    (htime : ∀ j ≤ i, timeOfRound (Channel.now bus.channel).2 j <
      (Channel.now bus.channel).1 + bus.limits.timeout) :
    ∃ after : Bus τ, (poll opcode accepts length).runOn bus =
        (.ok (some ((stream.drop (2 * i)).take (max length 2))), after) ∧
      Consumed (2 * i + max length 2) stream bus after := by
  have hlooked : Delivers { bus with channel := (Channel.now bus.channel).2 }.channel stream := h.now
  obtain ⟨after, hpoll, hafter⟩ :=
    pollPairs_of_first opcode accepts length hi hlooked hmiss hit htime
  exact ⟨after, hpoll, hafter.of_looked⟩

theorem poll_of_none (h : Delivers bus.channel stream)
    (hmiss : ∀ j < (bus.limits.maxBytes + 1) / 2,
      accepts (stream.get (2 * j)) (stream.get (2 * j + 1)) = false)
    (htime : ∀ j < (bus.limits.maxBytes + 1) / 2, timeOfRound (Channel.now bus.channel).2 j <
      (Channel.now bus.channel).1 + bus.limits.timeout) :
    ∃ after : Bus τ, (poll opcode accepts length).runOn bus = (.ok none, after) ∧
      Consumed (2 * ((bus.limits.maxBytes + 1) / 2)) stream bus after := by
  have hlooked : Delivers { bus with channel := (Channel.now bus.channel).2 }.channel stream := h.now
  obtain ⟨after, hpoll, hafter⟩ := pollPairs_of_none opcode accepts length _ hlooked hmiss htime
  exact ⟨after, hpoll, hafter.of_looked⟩

/-! ### Streams that end in zeros -/

/-- A byte string with zeros behind it. -/
def thenSilence (bytes : Bytes) : Stream' UInt8 := bytes ++ₛ Stream'.const 0

theorem take_thenSilence (n : Nat) (bytes : Bytes) :
    (thenSilence bytes).take n = Bytes.fit n bytes := by
  induction n generalizing bytes with
  | zero => rw [Stream'.take_zero, Bytes.fit_zero]
  | succ n ih =>
    cases bytes with
    | nil =>
      have htail : (thenSilence []).tail = thenSilence [] := rfl
      rw [Stream'.take_succ, htail, ih, Bytes.fit_nil, Bytes.fit_nil, List.replicate_succ]
      rfl
    | cons b rest =>
      have htail : (thenSilence (b :: rest)).tail = thenSilence rest := rfl
      rw [Stream'.take_succ, htail, ih, Bytes.fit_succ_cons]
      rfl

theorem drop_thenSilence (n : Nat) (bytes : Bytes) :
    (thenSilence bytes).drop n = thenSilence (bytes.drop n) := by
  induction n generalizing bytes with
  | zero => rw [Stream'.drop_zero, List.drop_zero]
  | succ n ih =>
    cases bytes with
    | nil => exact Stream'.drop_const (n + 1) 0
    | cons b rest => exact ih rest

theorem thenSilence_of_zeros {bytes : Bytes} (h : ∀ b ∈ bytes, b = 0) :
    thenSilence bytes = Stream'.const 0 := by
  induction bytes with
  | nil => rfl
  | cons b rest ih =>
    obtain ⟨rfl, hrest⟩ := List.forall_mem_cons.1 h
    rw [Stream'.const_eq, ← ih hrest]
    rfl

/-- A script whose reads do not fail plays its waiting reply. -/
theorem plays_waiting {s : Script} (h : s.failReads = []) :
    Plays 0 0 s (thenSilence s.waiting) := by
  refine ⟨fun s stream => s.failReads = [] ∧ stream = thenSilence s.waiting,
    ⟨⟨?_, fun hs => hs⟩, fun _ => ⟨Nat.le_refl 0, Nat.le_refl 0⟩⟩, h, rfl⟩
  rintro ⟨replies, waiting, failWrites, failReads, writes, reads⟩ stream n ⟨hreads, rfl⟩
  obtain rfl : failReads = [] := hreads
  exact ⟨Bytes.toVector n waiting, rfl, (take_thenSilence n waiting).symm, rfl,
    drop_thenSilence n waiting⟩

/-! ### Polls of a played stream -/

/-- The stream from the first accepted pair on, which is looked for in so many pairs. -/
def seek (accepts : UInt8 → UInt8 → Bool) : Nat → Stream' UInt8 → Option (Stream' UInt8)
  | 0, _ => none
  | rounds + 1, stream =>
    if accepts (stream.get 0) (stream.get 1) then some stream
    else seek accepts rounds (stream.drop 2)

theorem seek_cases (rounds : Nat) (stream : Stream' UInt8) :
    (∃ i < rounds, (∀ j < i, accepts (stream.get (2 * j)) (stream.get (2 * j + 1)) = false) ∧
        accepts (stream.get (2 * i)) (stream.get (2 * i + 1)) = true ∧
        seek accepts rounds stream = some (stream.drop (2 * i))) ∨
      (∀ j < rounds, accepts (stream.get (2 * j)) (stream.get (2 * j + 1)) = false) ∧
        seek accepts rounds stream = none := by
  induction rounds generalizing stream with
  | zero => exact .inr ⟨nofun, rfl⟩
  | succ rounds ih =>
    cases haccepts : accepts (stream.get 0) (stream.get 1) with
    | true => exact .inl ⟨0, Nat.succ_pos rounds, nofun, haccepts, by rw [seek, if_pos haccepts]; rfl⟩
    | false =>
      have hseek : seek accepts (rounds + 1) stream = seek accepts rounds (stream.drop 2) := by
        rw [seek, if_neg (ne_true_of_eq_false haccepts)]
      have hmiss {i : Nat} (h : ∀ j < i, accepts ((stream.drop 2).get (2 * j))
          ((stream.drop 2).get (2 * j + 1)) = false) :
          ∀ j < i + 1, accepts (stream.get (2 * j)) (stream.get (2 * j + 1)) = false := by
        intro j hj
        cases j with
        | zero => exact haccepts
        | succ j => exact h j (Nat.lt_of_succ_lt_succ hj)
      rw [hseek]
      rcases ih (stream.drop 2) with ⟨i, hi, hearlier, hit, hfound⟩ | ⟨hnone, hfound⟩
      · refine .inl ⟨i + 1, Nat.succ_lt_succ hi, hmiss hearlier, hit, ?_⟩
        rw [hfound, Stream'.drop_drop, Nat.mul_succ, Nat.add_comm]
      · exact .inr ⟨hmiss hnone, hfound⟩

theorem Plays.timeOfRound_le (h : Plays first last t stream) (round : Nat) :
    timeOfRound t round ≤ last := by
  induction round generalizing t stream with
  | zero => exact h.now.2.1
  | succ round ih =>
    rw [timeOfRound_succ]
    exact ih (h.now.2.2.read 2)

theorem Plays.inTime (h : Plays first last bus.channel stream)
    (htime : last < first + bus.limits.timeout) (round : Nat) :
    timeOfRound (Channel.now bus.channel).2 round <
      (Channel.now bus.channel).1 + bus.limits.timeout := by
  obtain ⟨hbegun, _, hlooked⟩ := h.now
  have hround := hlooked.timeOfRound_le round
  omega

theorem poll_plays (hlength : 2 ≤ length) (htime : last < first + bus.limits.timeout)
    (h : Plays first last bus.channel stream) : ∃ after : Bus τ,
      (poll opcode accepts length).runOn bus =
        (.ok ((seek accepts ((bus.limits.maxBytes + 1) / 2) stream).map (Stream'.take length)),
          after) := by
  rcases seek_cases accepts ((bus.limits.maxBytes + 1) / 2) stream with
    ⟨i, hi, hmiss, hit, hseek⟩ | ⟨hmiss, hseek⟩
  · obtain ⟨after, hpoll, _⟩ := poll_of_first opcode accepts length hi h.delivers hmiss hit
      fun j _ => h.inTime htime j
    refine ⟨after, ?_⟩
    rw [hpoll, hseek, Nat.max_eq_left hlength]
    rfl
  · obtain ⟨after, hpoll, _⟩ := poll_of_none opcode accepts length h.delivers hmiss
      fun j _ => h.inTime htime j
    refine ⟨after, ?_⟩
    rw [hpoll, hseek]
    rfl

/-- What a request for results answers is what the first ten bytes behind filler decode to. -/
theorem fetchResult_plays (htime : last < first + bus.limits.timeout)
    (hsent : (Channel.write resultRequest bus.channel).1 = .ok ())
    (h : Plays first last (Channel.write resultRequest bus.channel).2 stream) :
    (fetchResult.runOn bus).1 =
      match seek FoundNonce.startsResult ((bus.limits.maxBytes + 1) / 2) stream with
      | none => .ok none
      | some heard => (FoundNonce.decode (Bytes.toVector 10 (heard.take resultFrameLength))).map
          some := by
  obtain ⟨written, hwrite, hchannel, hlimits⟩ : ∃ written : Bus τ,
      (command .fetchResult broadcast []).runOn bus = (.ok (), written) ∧
        written.channel = (Channel.write resultRequest bus.channel).2 ∧
        written.limits = bus.limits := by
    refine ⟨((send resultRequest).runOn bus).2, ?_, ?_, ?_⟩
    · show (send resultRequest).runOn bus = _
      rw [runOn_send, hsent]
      rfl
    · rw [runOn_send]
    · rw [runOn_send]
  rw [← hchannel] at h
  rw [← hlimits] at htime
  have hlength : 2 ≤ resultFrameLength := by decide
  obtain ⟨after, hpoll⟩ := poll_plays Opcode.fetchResult.code FoundNonce.startsResult
    resultFrameLength hlength htime h
  rw [fetchResult, runOn_bind_of_ok hwrite, runOn_bind_of_ok hpoll, hlimits]
  cases seek FoundNonce.startsResult ((bus.limits.maxBytes + 1) / 2) stream with
  | none => rfl
  | some heard =>
    simp only [Option.map_some]
    cases FoundNonce.decode (Bytes.toVector 10 (heard.take resultFrameLength)) with
    | ok found => rfl
    | error cause => rfl

end HashBoard.Bus
