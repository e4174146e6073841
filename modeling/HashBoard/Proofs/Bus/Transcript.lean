import HashBoard.Proofs.Bus.Exchange
import Mathlib.Data.Nat.Init

/-!
# The transcript of a bus

The record of calls, read as what it says about the wire: each write with the answers to the reads
up to the next one. A response is found in what was heard without looking at the program that
polled for it, and the main statements are that polling answers exactly that response, and that
each exchange adds one transmission or two.
-/

namespace HashBoard.Bus

open Wire

/-! ### Transmissions -/

structure Transmission where
  frame : Bytes
  answer : Except ChannelError Unit
  heard : List (Except ChannelError Bytes)

/-- The transmissions of a record of calls, latest first. Reads ahead of the first write belong to
none. -/
def transmissions : List Call → List Transmission
  | [] => []
  | .wrote frame answer :: older => ⟨frame, answer, []⟩ :: transmissions older
  | .read _ answer :: older =>
    match transmissions older with
    | [] => []
    | t :: ts => { t with heard := t.heard ++ [answer] } :: ts

def bytesOf (heard : List (Except ChannelError Bytes)) : Bytes :=
  heard.flatMap fun answer => answer.toOption.getD []

/-- The response of `length` bytes in what was heard: pairs are passed over until one is accepted,
and what follows it has to be complete. -/
def response? (accepts : UInt8 → UInt8 → Bool) (length : Nat) :
    List (Except ChannelError Bytes) → Option Bytes
  | .ok [a, b] :: rest =>
    if accepts a b then
      if (bytesOf rest).length = length - 2 then some (a :: b :: bytesOf rest) else none
    else response? accepts length rest
  | _ => none

theorem bytesOf_ok_cons (bytes : Bytes) (heard : List (Except ChannelError Bytes)) :
    bytesOf (.ok bytes :: heard) = bytes ++ bytesOf heard := rfl

/-! ### Reads -/

/-- From one bus to another nothing happened but reads with the given answers. -/
structure Hears {τ : Type} (heard : List (Except ChannelError Bytes)) (bus after : Bus τ) :
    Prop where
  generation : after.generation = bus.generation
  limits : after.limits = bus.limits
  calls : ∃ counts : List Nat, counts.length = heard.length ∧
    after.calls = (List.zipWith Call.read counts heard).reverse ++ bus.calls

namespace Hears

variable {τ : Type} {bus middle after : Bus τ} {first second : List (Except ChannelError Bytes)}

theorem nil (channel : τ) : Hears [] bus { bus with channel } :=
  ⟨rfl, rfl, [], rfl, rfl⟩

theorem append (h1 : Hears first bus middle) (h2 : Hears second middle after) :
    Hears (first ++ second) bus after := by
  obtain ⟨counts1, hl1, hc1⟩ := h1.calls
  obtain ⟨counts2, hl2, hc2⟩ := h2.calls
  refine ⟨h2.generation.trans h1.generation, h2.limits.trans h1.limits, counts1 ++ counts2, ?_, ?_⟩
  · simp only [List.length_append, hl1, hl2]
  · rw [hc2, hc1, List.zipWith_append hl1, List.reverse_append, List.append_assoc]

theorem transmissions_eq {t : Transmission} {ts : List Transmission} (h : Hears first bus after)
    (ht : transmissions bus.calls = t :: ts) :
    transmissions after.calls = { t with heard := t.heard ++ first } :: ts := by
  obtain ⟨counts, hl, hc⟩ := h.calls
  rw [hc]
  clear hc h
  induction first generalizing counts t bus with
  | nil =>
    have hnil : counts = [] := List.length_eq_zero_iff.1 hl
    subst hnil
    simpa only [List.zipWith_nil_left, List.reverse_nil, List.nil_append, List.append_nil] using ht
  | cons answer rest ih =>
    cases counts with
    | nil => cases hl
    | cons n counts =>
      have hrest : counts.length = rest.length := Nat.succ.inj hl
      have hone : transmissions (.read n answer :: bus.calls) =
          { t with heard := t.heard ++ [answer] } :: ts := by
        simp only [transmissions, ht]
      have hmore := @ih { bus with calls := .read n answer :: bus.calls } _ hone counts hrest
      simp only [List.zipWith_cons_cons, List.reverse_cons, List.append_assoc,
        List.singleton_append] at hmore ⊢
      exact hmore

theorem calls_suffix (h : Hears first bus after) : bus.calls <:+ after.calls := by
  obtain ⟨counts, _, hc⟩ := h.calls
  exact ⟨_, hc.symm⟩

end Hears

/-! ### Polling -/

def isChecksumError : ExchangeError → Bool
  | .crc _ _ => true
  | _ => false

variable {τ : Type} [Channel τ]

theorem receive_ok_hears {n : Nat} {bus after : Bus τ} {bytes : Vector UInt8 n}
    (h : (receive n).runOn bus = (.ok bytes, after)) : Hears [.ok bytes.toList] bus after := by
  rw [runOn_receive] at h
  obtain ⟨hanswer, rfl⟩ := Prod.mk.inj h
  cases hread : (Channel.read n bus.channel).1 with
  | ok got =>
    rw [hread] at hanswer
    cases hanswer
    exact ⟨rfl, rfl, [n], rfl, rfl⟩
  | error cause =>
    rw [hread] at hanswer
    cases hanswer

theorem receive_error_hears {n : Nat} {bus after : Bus τ} {cause : ExchangeError}
    (h : (receive n).runOn bus = (.error cause, after)) :
    isChecksumError cause = false ∧ ∃ failure, Hears [.error failure] bus after := by
  rw [runOn_receive] at h
  obtain ⟨hanswer, rfl⟩ := Prod.mk.inj h
  cases hread : (Channel.read n bus.channel).1 with
  | ok got =>
    rw [hread] at hanswer
    cases hanswer
  | error failure =>
    rw [hread] at hanswer
    cases hanswer
    exact ⟨rfl, failure, rfl, rfl, [n], rfl, rfl⟩

theorem length_bytesOf_pair (pair : Vector UInt8 2) (heard : List (Except ChannelError Bytes)) :
    (bytesOf (.ok pair.toList :: heard)).length = (bytesOf heard).length + 2 := by
  rw [bytesOf_ok_cons, List.length_append, Vector.length_toList, Nat.add_comm]

theorem receiveRest_hears {n : Nat} {bus after : Bus τ} {answer : Except ExchangeError Bytes}
    (h : (receiveRest n).runOn bus = (answer, after)) :
    ∃ heard, Hears heard bus after ∧
      match answer with
      | .ok bytes => bytes = bytesOf heard ∧ (bytesOf heard).length = n
      | .error cause => (bytesOf heard).length < n ∧ isChecksumError cause = false := by
  induction n using Nat.twoStepInduction generalizing bus after answer with
  | zero =>
    obtain ⟨rfl, rfl⟩ := Prod.mk.inj h
    exact ⟨[], .nil bus.channel, rfl, rfl⟩
  | one =>
    rw [receiveRest] at h
    rcases bind_cases h with ⟨byte, middle, hr, h⟩ | ⟨cause, hr, rfl⟩
    · obtain ⟨rfl, rfl⟩ := Prod.mk.inj h
      have hbytes : bytesOf [.ok byte.toList] = byte.toList := List.append_nil _
      refine ⟨_, receive_ok_hears hr, hbytes.symm, ?_⟩
      rw [hbytes, Vector.length_toList]
    · obtain ⟨hcause, failure, hears⟩ := receive_error_hears hr
      exact ⟨_, hears, Nat.zero_lt_one, hcause⟩
  | more n ih _ =>
    rw [receiveRest] at h
    rcases bind_cases h with ⟨pair, middle, hr, h⟩ | ⟨cause, hr, rfl⟩
    · rcases bind_cases h with ⟨rest, last, hrest, h⟩ | ⟨cause, hrest, rfl⟩
      · obtain ⟨rfl, rfl⟩ := Prod.mk.inj h
        obtain ⟨heard, hears, rfl, hlen⟩ := ih hrest
        refine ⟨_, (receive_ok_hears hr).append hears, rfl, ?_⟩
        rw [List.singleton_append, length_bytesOf_pair, hlen]
      · obtain ⟨heard, hears, hlen, hcause⟩ := ih hrest
        refine ⟨_, (receive_ok_hears hr).append hears, ?_, hcause⟩
        simp only [List.singleton_append, length_bytesOf_pair] at hlen ⊢
        omega
    · obtain ⟨hcause, failure, hears⟩ := receive_error_hears hr
      exact ⟨_, hears, Nat.succ_pos _, hcause⟩

theorem exists_eq_pair {α : Type} (pair : Vector α 2) : ∃ a b, pair = #v[a, b] := by
  obtain ⟨⟨items⟩, hl⟩ := pair
  match items, hl with
  | [a, b], _ => exact ⟨a, b, rfl⟩

theorem pollPairs_hears {opcode : UInt8} {accepts : UInt8 → UInt8 → Bool}
    {length deadline rounds : Nat} {bus after : Bus τ}
    {answer : Except ExchangeError (Option Bytes)}
    (h : (pollPairs opcode accepts length deadline rounds).runOn bus = (answer, after)) :
    ∃ heard, Hears heard bus after ∧ response? accepts length heard = answer.toOption.join ∧
      ∀ cause, answer = .error cause → isChecksumError cause = false := by
  induction rounds generalizing bus with
  | zero =>
    obtain ⟨rfl, rfl⟩ := Prod.mk.inj h
    refine ⟨[], .nil bus.channel, rfl, ?_⟩
    intro cause hcause
    cases hcause
  | succ rounds ih =>
    have hticked : Hears [] bus { bus with channel := (Channel.now bus.channel).2 } := .nil _
    rw [pollPairs_succ, runOn_clock_bind] at h
    by_cases hd : deadline ≤ (Channel.now bus.channel).1
    · rw [if_pos hd, runOn_throw_bind] at h
      obtain ⟨rfl, rfl⟩ := Prod.mk.inj h
      refine ⟨[], hticked, rfl, ?_⟩
      intro cause hcause
      cases hcause
      rfl
    · rw [if_neg hd] at h
      rcases bind_cases h with ⟨pair, middle, hr, h⟩ | ⟨cause, hr, rfl⟩
      · have hpair := hticked.append (receive_ok_hears hr)
        have hresponse (heard : List (Except ChannelError Bytes)) :
            response? accepts length (.ok pair.toList :: heard) =
              if accepts (pair.get 0) (pair.get 1) then
                if (bytesOf heard).length = length - 2 then some (pair.toList ++ bytesOf heard)
                else none
              else response? accepts length heard := by
          obtain ⟨a, b, rfl⟩ := exists_eq_pair pair
          rfl
        by_cases ha : accepts (pair.get 0) (pair.get 1)
        · rw [if_pos ha] at h
          rcases bind_cases h with ⟨rest, last, hrest, h⟩ | ⟨cause, hrest, rfl⟩
          · obtain ⟨rfl, rfl⟩ := Prod.mk.inj h
            obtain ⟨heard, hears, rfl, hlen⟩ := receiveRest_hears hrest
            refine ⟨_, hpair.append hears, (hresponse heard).trans ?_, ?_⟩
            · rw [if_pos ha, if_pos hlen]
              rfl
            · intro cause hcause
              cases hcause
          · obtain ⟨heard, hears, hlen, hcause⟩ := receiveRest_hears hrest
            refine ⟨_, hpair.append hears, (hresponse heard).trans ?_, ?_⟩
            · rw [if_pos ha, if_neg (Nat.ne_of_lt hlen)]
              rfl
            · intro other hother
              cases hother
              exact hcause
        · rw [if_neg ha] at h
          obtain ⟨heard, hears, hrest, hcause⟩ := ih h
          refine ⟨_, hpair.append hears, (hresponse heard).trans ?_, hcause⟩
          rw [if_neg ha, hrest]
      · obtain ⟨hcause, failure, hears⟩ := receive_error_hears hr
        refine ⟨_, hticked.append hears, rfl, ?_⟩
        intro other hother
        cases hother
        exact hcause

theorem poll_hears {opcode : UInt8} {accepts : UInt8 → UInt8 → Bool} {length : Nat}
    {bus after : Bus τ} {answer : Except ExchangeError (Option Bytes)}
    (h : (poll opcode accepts length).runOn bus = (answer, after)) :
    ∃ heard, Hears heard bus after ∧ response? accepts length heard = answer.toOption.join ∧
      ∀ cause, answer = .error cause → isChecksumError cause = false := by
  rw [poll, runOn_clock_bind, runOn_get_bind] at h
  have hticked : Hears [] bus { bus with channel := (Channel.now bus.channel).2 } := .nil _
  obtain ⟨heard, hears, hresp⟩ := pollPairs_hears h
  exact ⟨heard, hticked.append hears, hresp⟩

theorem expect_hears {opcode : Opcode} {length : Nat} {bus after : Bus τ}
    {answer : Except ExchangeError Bytes} (h : (expect opcode length).runOn bus = (answer, after)) :
    ∃ heard, Hears heard bus after := by
  rw [expect, runOn_get_bind] at h
  rcases bind_cases h with ⟨got, middle, hp, h⟩ | ⟨cause, hp, rfl⟩
  · obtain ⟨heard, hears, _⟩ := poll_hears hp
    cases got with
    | none =>
      obtain ⟨rfl, rfl⟩ := Prod.mk.inj h
      exact ⟨heard, hears⟩
    | some response =>
      obtain ⟨rfl, rfl⟩ := Prod.mk.inj h
      exact ⟨heard, hears⟩
  · obtain ⟨heard, hears, _⟩ := poll_hears hp
    exact ⟨heard, hears⟩

/-! ### Exchanges -/

/-- From one bus to another the given transmissions took place, latest first. -/
structure Exchanged {τ : Type} (ts : List Transmission) (bus after : Bus τ) : Prop where
  generation : after.generation = bus.generation
  limits : after.limits = bus.limits
  calls : bus.calls <:+ after.calls
  transmissions : transmissions after.calls = ts ++ transmissions bus.calls

namespace Exchanged

variable {τ : Type} {bus middle after : Bus τ} {t : Transmission} {ts first second : List Transmission}

theorem append (h1 : Exchanged first bus middle) (h2 : Exchanged second middle after) :
    Exchanged (second ++ first) bus after where
  generation := h2.generation.trans h1.generation
  limits := h2.limits.trans h1.limits
  calls := h1.calls.trans h2.calls
  transmissions := by rw [h2.transmissions, h1.transmissions, List.append_assoc]

theorem hears {heard : List (Except ChannelError Bytes)} (h1 : Exchanged (t :: ts) bus middle)
    (h2 : Hears heard middle after) :
    Exchanged ({ t with heard := t.heard ++ heard } :: ts) bus after where
  generation := h2.generation.trans h1.generation
  limits := h2.limits.trans h1.limits
  calls := h1.calls.trans h2.calls_suffix
  transmissions := h2.transmissions_eq h1.transmissions

end Exchanged

theorem send_exchanged {frame : Bytes} {bus after : Bus τ} {answer : Except ExchangeError Unit}
    (h : (send frame).runOn bus = (answer, after)) :
    ∃ wrote, answer = wrote.mapError .channel ∧ Exchanged [⟨frame, wrote, []⟩] bus after := by
  rw [runOn_send] at h
  obtain ⟨rfl, rfl⟩ := Prod.mk.inj h
  exact ⟨_, rfl, rfl, rfl, List.suffix_cons .., rfl⟩

theorem send_ok_exchanged {frame : Bytes} {bus after : Bus τ} {u : Unit}
    (h : (send frame).runOn bus = (.ok u, after)) : Exchanged [⟨frame, .ok (), []⟩] bus after := by
  obtain ⟨wrote, hw, hex⟩ := send_exchanged h
  cases wrote with
  | ok _ => exact hex
  | error cause => cases hw

def readFrame (chip : UInt8) : Bytes := [Opcode.readReg.code, chip]

def Transmission.register? (g : Generation) (t : Transmission) : Option Register :=
  (response? (fun first _ => first == Opcode.readRegResp.code) (2 + g.regLen) t.heard).bind
    fun response => Register.ofBytes? (response.drop 2)

theorem fetchRegister_exchanged {chip : UInt8} {bus after : Bus τ}
    {answer : Except ExchangeError Register}
    (h : (fetchRegister chip).runOn bus = (answer, after)) :
    ∃ t : Transmission, t.frame = readFrame chip ∧ t.register? bus.generation = answer.toOption ∧
      Exchanged [t] bus after := by
  rw [fetchRegister] at h
  rcases bind_cases h with ⟨u, middle, hs, h⟩ | ⟨cause, hs, rfl⟩
  · have hsent : Exchanged [⟨readFrame chip, .ok (), []⟩] bus middle := send_ok_exchanged hs
    rw [runOn_get_bind, hsent.generation] at h
    rcases bind_cases h with ⟨got, last, hp, h⟩ | ⟨cause, hp, rfl⟩
    · obtain ⟨heard, hears, hresp, _⟩ := poll_hears hp
      refine ⟨⟨readFrame chip, .ok (), heard⟩, rfl, ?_⟩
      rw [Transmission.register?, hresp]
      cases got with
      | none =>
        obtain ⟨rfl, rfl⟩ := Prod.mk.inj h
        exact ⟨rfl, hsent.hears hears⟩
      | some response =>
        simp only at h
        cases hr : Register.ofBytes? (response.drop 2) with
        | none =>
          rw [hr] at h
          obtain ⟨rfl, rfl⟩ := Prod.mk.inj h
          exact ⟨hr, hsent.hears hears⟩
        | some register =>
          rw [hr] at h
          obtain ⟨rfl, rfl⟩ := Prod.mk.inj h
          exact ⟨hr, hsent.hears hears⟩
    · obtain ⟨heard, hears, hresp, _⟩ := poll_hears hp
      refine ⟨⟨readFrame chip, .ok (), heard⟩, rfl, ?_, hsent.hears hears⟩
      rw [Transmission.register?, hresp]
      rfl
  · obtain ⟨wrote, hw, hex⟩ := send_exchanged hs
    exact ⟨_, rfl, rfl, hex⟩

def resultRequest : Bytes := [Opcode.fetchResult.code, broadcast]

def Transmission.resultFrame? (t : Transmission) : Option Bytes :=
  response? FoundNonce.startsResult resultFrameLength t.heard

def Transmission.reported? (t : Transmission) : Option FoundNonce :=
  (response? FoundNonce.startsResult resultFrameLength t.heard).bind
    fun response => (FoundNonce.decode (Bytes.toVector 10 response)).toOption

/-- A complete result frame is decoded; without one, no result comes and no checksum is wrong. -/
theorem fetchResult_answer {bus after : Bus τ} {answer : Except ExchangeError (Option FoundNonce)}
    (h : fetchResult.runOn bus = (answer, after)) :
    ∃ t : Transmission, t.frame = resultRequest ∧ Exchanged [t] bus after ∧
      match t.resultFrame? with
      | some frame => answer = (FoundNonce.decode (Bytes.toVector 10 frame)).map some
      | none => answer.toOption.join = none ∧
          ∀ cause, answer = .error cause → isChecksumError cause = false := by
  rw [fetchResult] at h
  rcases bind_cases h with ⟨u, middle, hs, h⟩ | ⟨cause, hs, rfl⟩
  · have hsent : Exchanged [⟨resultRequest, .ok (), []⟩] bus middle := send_ok_exchanged hs
    rcases bind_cases h with ⟨got, last, hp, h⟩ | ⟨cause, hp, rfl⟩
    · obtain ⟨heard, hears, hresp, _⟩ := poll_hears hp
      refine ⟨⟨resultRequest, .ok (), heard⟩, rfl, ?_⟩
      rw [Transmission.resultFrame?, hresp]
      cases got with
      | none =>
        obtain ⟨rfl, rfl⟩ := Prod.mk.inj h
        exact ⟨hsent.hears hears, rfl, nofun⟩
      | some response =>
        simp only at h
        cases hd : FoundNonce.decode (Bytes.toVector 10 response) with
        | ok result =>
          rw [hd] at h
          obtain ⟨rfl, rfl⟩ := Prod.mk.inj h
          exact ⟨hsent.hears hears, (congrArg (Except.map some) hd).symm⟩
        | error cause =>
          rw [hd] at h
          obtain ⟨rfl, rfl⟩ := Prod.mk.inj h
          exact ⟨hsent.hears hears, (congrArg (Except.map some) hd).symm⟩
    · obtain ⟨heard, hears, hresp, hcause⟩ := poll_hears hp
      refine ⟨⟨resultRequest, .ok (), heard⟩, rfl, hsent.hears hears, ?_⟩
      rw [Transmission.resultFrame?, hresp]
      refine ⟨rfl, ?_⟩
      intro other hother
      cases hother
      exact hcause cause rfl
  · obtain ⟨wrote, hw, hex⟩ := send_exchanged hs
    refine ⟨_, rfl, hex, rfl, ?_⟩
    intro other hother
    cases hother
    cases wrote with
    | ok u => cases hw
    | error failure =>
      cases hw
      rfl

theorem fetchResult_exchanged {bus after : Bus τ}
    {answer : Except ExchangeError (Option FoundNonce)}
    (h : fetchResult.runOn bus = (answer, after)) :
    ∃ t : Transmission, t.frame = resultRequest ∧ t.reported? = answer.toOption.join ∧
      Exchanged [t] bus after := by
  obtain ⟨t, hframe, hex, hanswer⟩ := fetchResult_answer h
  refine ⟨t, hframe, ?_, hex⟩
  rw [Transmission.reported?]
  rw [Transmission.resultFrame?] at hanswer
  cases hf : response? FoundNonce.startsResult resultFrameLength t.heard with
  | none =>
    rw [hf] at hanswer
    exact hanswer.1.symm
  | some frame =>
    rw [hf] at hanswer
    rw [hanswer]
    cases hd : FoundNonce.decode (Bytes.toVector 10 frame) with
    | ok result => exact congrArg Except.toOption hd
    | error cause => exact congrArg Except.toOption hd

theorem send_then_exchanged {α : Type} {frame : Bytes} {x : Exchange τ α} {bus after : Bus τ}
    {answer : Except ExchangeError α}
    (hx : ∀ {middle got last}, x.runOn middle = (got, last) → ∃ heard, Hears heard middle last)
    (h : (send frame >>= fun _ => x).runOn bus = (answer, after)) :
    ∃ t : Transmission, t.frame = frame ∧ Exchanged [t] bus after := by
  rcases bind_cases h with ⟨u, middle, hs, h⟩ | ⟨cause, hs, rfl⟩
  · obtain ⟨heard, hears⟩ := hx h
    exact ⟨_, rfl, (send_ok_exchanged hs).hears hears⟩
  · obtain ⟨wrote, _, hex⟩ := send_exchanged hs
    exact ⟨_, rfl, hex⟩

theorem discard_expect_hears {opcode : Opcode} {length : Nat} {bus after : Bus τ}
    {answer : Except ExchangeError PUnit}
    (h : (discard (expect opcode length)).runOn bus = (answer, after)) :
    ∃ heard, Hears heard bus after := by
  rw [runOn_discard] at h
  obtain ⟨_, rfl⟩ := Prod.mk.inj h
  exact expect_hears rfl

theorem acknowledged_exchanged {opcode : Opcode} {address : UInt8} {bus after : Bus τ}
    {answer : Except ExchangeError Unit}
    (h : (acknowledged opcode address).runOn bus = (answer, after)) :
    ∃ t : Transmission, t.frame = [opcode.code, address, 0, 0] ∧ Exchanged [t] bus after :=
  send_then_exchanged discard_expect_hears h

theorem startSelfTest_exchanged {address : UInt8} {bus after : Bus τ}
    {answer : Except ExchangeError UInt8} (h : (startSelfTest address).runOn bus = (answer, after)) :
    ∃ t : Transmission, t.frame = [Opcode.startSelfTest.code, address, 0, 0] ∧
      Exchanged [t] bus after := by
  refine send_then_exchanged (fun {middle got last} hx => ?_) h
  rcases bind_cases hx with ⟨response, ended, he, hx⟩ | ⟨cause, he, rfl⟩
  · obtain ⟨_, rfl⟩ := Prod.mk.inj hx
    exact expect_hears he
  · exact expect_hears he

theorem stored_exchanged {opcode : Opcode} {extra : Nat} {address : UInt8} {register : Register}
    {bus after : Bus τ} {answer : Except ExchangeError Unit}
    (h : (stored opcode extra address register).runOn bus = (answer, after)) :
    ∃ t : Transmission, t.frame = register.storeFrame opcode address ∧ Exchanged [t] bus after := by
  refine send_then_exchanged (fun {middle got last} hx => ?_) h
  rw [runOn_get_bind] at hx
  exact discard_expect_hears hx

theorem emptyJobQueue_exchanged {address : UInt8} {bus after : Bus τ}
    {answer : Except ExchangeError Unit} (h : (emptyJobQueue address).runOn bus = (answer, after)) :
    ∃ t : Transmission, t.frame = queueResetFrame address ∧
      (Exchanged [t] bus after ∨
        ∃ r : Transmission, r.frame = readFrame (if address = broadcast then 1 else address) ∧
          Exchanged [r, t] bus after) := by
  rw [emptyJobQueue] at h
  rcases bind_cases h with ⟨u, middle, hs, h⟩ | ⟨cause, hs, rfl⟩
  · have hsent := send_ok_exchanged hs
    rcases bind_cases h with ⟨echo, echoed, he, h⟩ | ⟨cause, he, rfl⟩
    · obtain ⟨heard, hears⟩ := discard_expect_hears he
      have hreset := hsent.hears hears
      refine ⟨⟨queueResetFrame address, .ok (), [] ++ heard⟩, rfl, .inr ?_⟩
      rcases bind_cases h with ⟨register, read, hf, h⟩ | ⟨cause, hf, rfl⟩
      · obtain ⟨r, hr, _, hex⟩ := fetchRegister_exchanged hf
        have hend : after = read := by
          rw [runOn_get_bind] at h
          split at h
          · exact (Prod.mk.inj h).2.symm
          · exact (Prod.mk.inj h).2.symm
        rw [hend]
        exact ⟨r, hr, hreset.append hex⟩
      · obtain ⟨r, hr, _, hex⟩ := fetchRegister_exchanged hf
        exact ⟨r, hr, hreset.append hex⟩
    · obtain ⟨heard, hears⟩ := discard_expect_hears he
      exact ⟨_, rfl, .inl (hsent.hears hears)⟩
  · obtain ⟨wrote, _, hex⟩ := send_exchanged hs
    exact ⟨_, rfl, .inl hex⟩

end HashBoard.Bus
