import HashBoard.Proofs.Bus.Exchange
import Mathlib.Algebra.GroupWithZero.Nat
import Mathlib.Data.Nat.Init

/-!
# The first failed call

What an exchange answers is held against the calls that it made. An honest answer reports a failed
call exactly when the last call failed, and no call before the last one did: nothing is tried again,
and nothing is called any more once a call has failed. A poll reads two bytes for each of its rounds
and the rest of one response, and is honest.
-/

namespace HashBoard.Bus

open Wire

/-! ### Calls -/

def Call.failure? : Call → Option ChannelError
  | wrote _ (.error cause) => some cause
  | read _ (.error cause) => some cause
  | _ => none

/-- The bytes that some calls ask for. -/
def requestedIn (calls : List Call) : Nat := (calls.map Call.requested).sum

theorem requestedIn_append (first second : List Call) :
    requestedIn (first ++ second) = requestedIn first + requestedIn second := by
  simp only [requestedIn, List.map_append, List.sum_append]

/-- From one bus to another the given calls were made, oldest first. -/
structure Made {τ : Type} (calls : List Call) (bus after : Bus τ) : Prop where
  generation : after.generation = bus.generation
  limits : after.limits = bus.limits
  calls : after.calls = calls.reverse ++ bus.calls

section Made

variable {τ : Type} {bus middle after : Bus τ} {first second : List Call}

theorem Made.nil (bus : Bus τ) : Made [] bus bus := ⟨rfl, rfl, rfl⟩

theorem Made.append (h1 : Made first bus middle) (h2 : Made second middle after) :
    Made (first ++ second) bus after where
  generation := h2.generation.trans h1.generation
  limits := h2.limits.trans h1.limits
  calls := by rw [h2.calls, h1.calls, List.reverse_append, List.append_assoc]

theorem Made.unique (h1 : Made first bus after) (h2 : Made second bus after) : first = second :=
  List.reverse_inj.1 (List.append_cancel_right (h1.calls.symm.trans h2.calls))

end Made

/-! ### Answers -/

def blamesChannel : ExchangeError → Bool
  | .channel _ => true
  | _ => false

/-- The answer blames the channel exactly when the last call failed, and then for its very cause;
all calls before the last one succeeded. -/
structure Honest {α : Type} (calls : List Call) (answer : Except ExchangeError α) : Prop where
  before : ∀ call ∈ calls.dropLast, call.failure? = none
  last : ∀ cause, answer = .error (.channel cause) ↔
    calls.getLast?.bind Call.failure? = some cause

namespace Honest

variable {α β : Type} {first second : List Call} {answer : Except ExchangeError β}

theorem nil {answer : Except ExchangeError α} (h : ∀ cause, answer ≠ .error (.channel cause)) :
    Honest [] answer where
  before := nofun
  last cause := ⟨fun hanswer => absurd hanswer (h cause), nofun⟩

theorem singleton {call : Call} {answer : Except ExchangeError α}
    (h : ∀ cause, answer = .error (.channel cause) ↔ call.failure? = some cause) :
    Honest [call] answer where
  before := nofun
  last := h

theorem of_error {cause : ExchangeError} (h : Honest first (.error cause : Except _ α)) :
    Honest first (.error cause : Except _ β) where
  before := h.before
  last other := by
    rw [← h.last other]
    exact ⟨fun hcause => congrArg _ (Except.error.inj hcause),
      fun hcause => congrArg _ (Except.error.inj hcause)⟩

theorem succeeded {a : α} (h : Honest first (.ok a)) : ∀ call ∈ first, call.failure? = none := by
  rcases List.eq_nil_or_concat first with rfl | ⟨calls, last, rfl⟩
  · nofun
  · rw [List.concat_eq_append] at h ⊢
    intro call hcall
    rcases List.mem_append.1 hcall with hcall | hcall
    · exact h.before call (by rwa [List.dropLast_concat])
    · obtain rfl := List.mem_singleton.1 hcall
      have hlast := h.last
      simp only [List.getLast?_concat, Option.bind_some] at hlast
      cases hfailure : call.failure? with
      | none => rfl
      | some cause => cases (hlast cause).2 hfailure

/-- What is called after an exchange that answered is judged for itself. -/
theorem append {a : α} (h1 : Honest first (.ok a)) (h2 : Honest second answer) :
    Honest (first ++ second) answer := by
  rcases List.eq_nil_or_concat second with rfl | ⟨calls, last, rfl⟩
  · rw [List.append_nil]
    refine ⟨h1.before, fun cause => ⟨fun hanswer => ?_, fun hlast => ?_⟩⟩
    · cases (h2.last cause).1 hanswer
    · cases (h1.last cause).2 hlast
  · rw [List.concat_eq_append] at h2 ⊢
    obtain ⟨hbefore, hlast⟩ := h2
    rw [List.dropLast_concat] at hbefore
    rw [List.getLast?_concat] at hlast
    refine ⟨?_, ?_⟩
    · rw [← List.append_assoc, List.dropLast_concat]
      intro call hcall
      rcases List.mem_append.1 hcall with hcall | hcall
      · exact h1.succeeded call hcall
      · exact hbefore call hcall
    · rw [← List.append_assoc, List.getLast?_concat]
      exact hlast

end Honest

/-- The calls of an exchange and its answer, which is true to them. -/
structure Performed {τ α : Type} (calls : List Call) (bus : Bus τ)
    (outcome : Except ExchangeError α × Bus τ) : Prop where
  made : Made calls bus outcome.2
  honest : Honest calls outcome.1

variable {τ α β : Type} {bus middle after : Bus τ} {first second : List Call}
variable {x : Exchange τ α} {f : α → Exchange τ β}

theorem Performed.bind {a : α} (hx : x.runOn bus = (.ok a, middle))
    (h1 : Performed first bus (x.runOn bus)) (h2 : Performed second middle ((f a).runOn middle)) :
    Performed (first ++ second) bus ((x >>= f).runOn bus) := by
  rw [hx] at h1
  rw [runOn_bind_of_ok hx]
  exact ⟨h1.made.append h2.made, h1.honest.append h2.honest⟩

theorem Performed.bind_of_error {cause : ExchangeError} (hx : x.runOn bus = (.error cause, after))
    (h : Performed first bus (x.runOn bus)) : Performed first bus ((x >>= f).runOn bus) := by
  rw [hx] at h
  rw [runOn_bind_of_error hx]
  exact ⟨h.made, h.honest.of_error⟩

/-- The exchange makes calls of this kind, and its answer is true to them. -/
def Performs (P : List Call → Prop) (x : Exchange τ α) (bus : Bus τ) : Prop :=
  ∃ calls, Performed calls bus (x.runOn bus) ∧ P calls

namespace Performs

variable {P Q : List Call → Prop}

theorem mono (h : Performs P x bus) (hcalls : ∀ calls, P calls → Q calls) : Performs Q x bus := by
  obtain ⟨calls, hperformed, hP⟩ := h
  exact ⟨calls, hperformed, hcalls calls hP⟩

/-- What follows an exchange is called only when that one has answered, and behind its calls. -/
theorem bind (hx : Performs P x bus) (hfailed : ∀ calls, P calls → Q calls)
    (hf : ∀ first a middle, P first → x.runOn bus = (.ok a, middle) →
      Performed first bus (.ok a, middle) →
      Performs (fun second => Q (first ++ second)) (f a) middle) :
    Performs Q (x >>= f) bus := by
  obtain ⟨first, hperformed, hfirst⟩ := hx
  cases hrun : x.runOn bus with
  | mk answer middle =>
    cases answer with
    | error cause => exact ⟨first, hperformed.bind_of_error hrun, hfailed first hfirst⟩
    | ok a =>
      have hanswered := hperformed
      rw [hrun] at hanswered
      obtain ⟨second, hperformed', hboth⟩ := hf first a middle hfirst hrun hanswered
      exact ⟨first ++ second, hperformed.bind hrun hperformed', hboth⟩

theorem discard (h : Performs P x bus) : Performs P (discard x) bus := by
  obtain ⟨calls, ⟨hmade, hhonest⟩, hP⟩ := h
  refine ⟨calls, ?_, hP⟩
  rw [runOn_discard]
  refine ⟨hmade, hhonest.before, fun cause => ?_⟩
  rw [← hhonest.last cause]
  cases (x.runOn bus).1 with
  | ok a => exact ⟨nofun, nofun⟩
  | error failure =>
    exact ⟨fun heq => congrArg _ (Except.error.inj heq),
      fun heq => congrArg _ (Except.error.inj heq)⟩

end Performs

/-! ### Reading only -/

/-- Nothing but reads, of so many bytes together at most. -/
structure AllReads (bytes : Nat) (calls : List Call) : Prop where
  reads : ∀ call ∈ calls, call.isRead = true
  bounded : requestedIn calls ≤ bytes

namespace AllReads

variable {m n : Nat}

theorem mono (h : AllReads m first) (hle : m ≤ n) : AllReads n first :=
  ⟨h.reads, Nat.le_trans h.bounded hle⟩

theorem append (h1 : AllReads m first) (h2 : AllReads n second) :
    AllReads (m + n) (first ++ second) where
  reads := by
    intro call hcall
    rcases List.mem_append.1 hcall with hcall | hcall
    · exact h1.reads call hcall
    · exact h2.reads call hcall
  bounded := by
    rw [requestedIn_append]
    exact Nat.add_le_add h1.bounded h2.bounded

end AllReads

def OnlyReads (bytes : Nat) (x : Exchange τ α) (bus : Bus τ) : Prop :=
  Performs (AllReads bytes) x bus

namespace OnlyReads

variable {m n : Nat}

theorem mono (h : OnlyReads m x bus) (hle : m ≤ n) : OnlyReads n x bus :=
  Performs.mono h fun _ hreads => hreads.mono hle

theorem pure (a : α) (bus : Bus τ) : OnlyReads 0 (Pure.pure a : Exchange τ α) bus :=
  ⟨[], ⟨.nil bus, .nil nofun⟩, nofun, Nat.le_refl 0⟩

theorem throw {cause : ExchangeError} (h : blamesChannel cause = false) (bus : Bus τ) :
    OnlyReads 0 (throw cause : Exchange τ α) bus := by
  refine ⟨[], ⟨.nil bus, .nil fun failure heq => ?_⟩, nofun, Nat.le_refl 0⟩
  rw [Except.error.inj heq] at h
  cases h

theorem throw_bind {cause : ExchangeError} (h : blamesChannel cause = false)
    (f : α → Exchange τ β) (bus : Bus τ) : OnlyReads 0 (MonadExcept.throw cause >>= f) bus :=
  throw h bus

theorem bind (hx : OnlyReads m x bus)
    (hf : ∀ a middle, x.runOn bus = (.ok a, middle) → OnlyReads n (f a) middle) :
    OnlyReads (m + n) (x >>= f) bus :=
  Performs.bind hx (fun _ hreads => hreads.mono (Nat.le_add_right m n))
    fun _ a middle hfirst hrun _ => Performs.mono (hf a middle hrun) fun _ => hfirst.append

theorem get_bind {f : Bus τ → Exchange τ α} (h : OnlyReads n (f bus) bus) :
    OnlyReads n (get >>= f : Exchange τ α) bus := h

theorem discard (h : OnlyReads n x bus) : OnlyReads n (discard x) bus := Performs.discard h

end OnlyReads

variable [Channel τ]

theorem OnlyReads.clock_bind {n : Nat} {f : Nat → Exchange τ α}
    (h : OnlyReads n (f (Channel.now bus.channel).1)
      { bus with channel := (Channel.now bus.channel).2 }) : OnlyReads n (clock >>= f) bus := by
  obtain ⟨reads, ⟨hmade, hhonest⟩, hreads⟩ := h
  exact ⟨reads, ⟨⟨hmade.generation, hmade.limits, hmade.calls⟩, hhonest⟩, hreads⟩

/-! ### Single calls -/

theorem mapError_channel_eq {answer : Except ChannelError α} (cause : ChannelError) :
    answer.mapError ExchangeError.channel = .error (.channel cause) ↔ answer = .error cause := by
  cases answer with
  | ok a => exact ⟨nofun, nofun⟩
  | error failure =>
    exact ⟨fun h => congrArg Except.error (ExchangeError.channel.inj (Except.error.inj h)),
      fun h => congrArg (Except.error ∘ ExchangeError.channel) (Except.error.inj h)⟩

theorem send_performed (frame : Bytes) (bus : Bus τ) :
    Performed [.wrote frame (Channel.write frame bus.channel).1] bus ((send frame).runOn bus) := by
  rw [runOn_send]
  refine ⟨⟨rfl, rfl, rfl⟩, .singleton fun cause => ?_⟩
  rw [mapError_channel_eq]
  cases (Channel.write frame bus.channel).1 with
  | ok u => exact ⟨nofun, nofun⟩
  | error failure => simp only [Call.failure?, Option.some.injEq, Except.error.injEq]

theorem receive_performed (n : Nat) (bus : Bus τ) :
    Performed [.read n ((Channel.read n bus.channel).1.map Vector.toList)] bus
      ((receive n).runOn bus) := by
  rw [runOn_receive]
  refine ⟨⟨rfl, rfl, rfl⟩, .singleton fun cause => ?_⟩
  rw [mapError_channel_eq]
  cases (Channel.read n bus.channel).1 with
  | ok bytes => exact ⟨nofun, nofun⟩
  | error failure => simp only [Except.map, Call.failure?, Option.some.injEq, Except.error.injEq]

/-! ### Polls -/

theorem receive_onlyReads (n : Nat) (bus : Bus τ) : OnlyReads n (receive n) bus := by
  refine ⟨_, receive_performed n bus, ?_, Nat.le_refl n⟩
  intro call hcall
  rw [List.mem_singleton.1 hcall]
  rfl

theorem receiveRest_onlyReads (n : Nat) (bus : Bus τ) : OnlyReads n (receiveRest n) bus := by
  induction n using Nat.twoStepInduction generalizing bus with
  | zero => exact .pure [] bus
  | one => exact (receive_onlyReads 1 bus).bind fun byte middle _ => .pure byte.toList middle
  | more n ih _ =>
    have hmore := (receive_onlyReads 2 bus).bind fun pair middle _ =>
      (ih middle).bind fun rest last _ => .pure (pair.toList ++ rest) last
    exact hmore.mono (by omega)

theorem pollPairs_onlyReads (opcode : UInt8) (accepts : UInt8 → UInt8 → Bool)
    (length deadline rounds : Nat) (bus : Bus τ) :
    OnlyReads (2 * rounds + (length - 2)) (pollPairs opcode accepts length deadline rounds)
      bus := by
  induction rounds generalizing bus with
  | zero => exact (OnlyReads.pure none bus).mono (Nat.zero_le _)
  | succ rounds ih =>
    rw [pollPairs_succ]
    refine .clock_bind ?_
    by_cases hlate : deadline ≤ (Channel.now bus.channel).1
    · rw [if_pos hlate]
      exact (OnlyReads.throw_bind rfl _ _).mono (Nat.zero_le _)
    · rw [if_neg hlate]
      refine ((receive_onlyReads 2 _).bind (n := 2 * rounds + (length - 2)) ?_).mono (by omega)
      intro pair middle _
      by_cases haccepts : accepts (pair.get 0) (pair.get 1)
      · rw [if_pos haccepts]
        refine ((receiveRest_onlyReads (length - 2) middle).bind fun rest last _ =>
          .pure (some (pair.toList ++ rest)) last).mono (by omega)
      · rw [if_neg haccepts]
        exact ih middle

/-- What a poll for a response of `length` bytes reads at most. -/
def pollBound (limits : PollLimits) (length : Nat) : Nat :=
  2 * ((limits.maxBytes + 1) / 2) + (length - 2)

theorem poll_onlyReads (opcode : UInt8) (accepts : UInt8 → UInt8 → Bool) (length : Nat)
    (bus : Bus τ) : OnlyReads (pollBound bus.limits length) (poll opcode accepts length) bus :=
  .clock_bind (pollPairs_onlyReads opcode accepts length _ _ _)

theorem expect_onlyReads (opcode : Opcode) (length : Nat) (bus : Bus τ) :
    OnlyReads (pollBound bus.limits length) (expect opcode length) bus := by
  have hpoll := poll_onlyReads opcode.code
    (fun first _ => bus.generation.echoRule.accepts first opcode.code) length bus
  refine (hpoll.bind (n := 0) ?_).mono (Nat.le_refl _)
  intro got middle _
  cases got with
  | none => exact .throw rfl middle
  | some response => exact .pure response middle

end HashBoard.Bus
