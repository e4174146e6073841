import HashBoard.Proofs.Bus.SentJobs

/-!
# Addressed frames

The frames written to one address, taken by the channel or not. An exchange with one chip writes to
no other chip, and a broadcast writes to none.
-/

namespace HashBoard.Bus

open Wire

variable {τ : Type} {bus middle after : Bus τ} {address chip : UInt8}

def Call.frame? : Call → Option Bytes
  | wrote frame _ => some frame
  | read _ _ => none

def isAddressedTo (address : UInt8) (frame : Bytes) : Bool := frame[1]? == some address

/-- All frames written to an address, latest first. -/
def framesTo (bus : Bus τ) (address : UInt8) : List Bytes :=
  (bus.calls.filterMap Call.frame?).filter (isAddressedTo address)

theorem filterMap_frame? (calls : List Call) :
    calls.filterMap Call.frame? = (transmissions calls).map Transmission.frame := by
  induction calls with
  | nil => rfl
  | cons call older ih =>
    cases call with
    | wrote frame answer =>
      simp only [List.filterMap_cons, Call.frame?, transmissions, List.map_cons, ih]
    | read count answer =>
      have hread : (Call.read count answer :: older).filterMap Call.frame? =
          older.filterMap Call.frame? := rfl
      rw [hread, ih, transmissions]
      cases transmissions older with
      | nil => rfl
      | cons t ts => rfl

theorem Exchanged.framesTo_eq {ts : List Transmission} (h : Exchanged ts bus after)
    (address : UInt8) : after.framesTo address =
      (ts.map Transmission.frame).filter (isAddressedTo address) ++ bus.framesTo address := by
  simp only [framesTo, filterMap_frame?, h.transmissions, List.map_append, List.filter_append]

theorem isAddressedTo_cons (first : UInt8) (rest : Bytes) :
    isAddressedTo chip (first :: chip :: rest) = true :=
  beq_self_eq_true (some chip)

theorem isAddressedTo_eq_false {frame : Bytes} (h : isAddressedTo chip frame = true)
    (hne : address ≠ chip) : isAddressedTo address frame = false := by
  have hchip : frame[1]? = some chip := beq_iff_eq.1 h
  simp only [isAddressedTo, hchip, beq_eq_false_iff_ne]
  intro hsame
  exact hne (Option.some.inj hsame).symm

/-! ### One address -/

/-- From one bus to another nothing was written but to one address. -/
def WritesTo (chip : UInt8) (bus after : Bus τ) : Prop :=
  ∃ ts, Exchanged ts bus after ∧ ∀ t ∈ ts, isAddressedTo chip t.frame = true

namespace WritesTo

theorem of_one {t : Transmission} {first : UInt8} {rest : Bytes} (hex : Exchanged [t] bus after)
    (ht : t.frame = first :: chip :: rest) : WritesTo chip bus after := by
  refine ⟨[t], hex, ?_⟩
  intro u hu
  rw [List.mem_singleton.1 hu, ht]
  exact isAddressedTo_cons first rest

theorem trans (h1 : WritesTo chip bus middle) (h2 : WritesTo chip middle after) :
    WritesTo chip bus after := by
  obtain ⟨first, hex1, hfirst⟩ := h1
  obtain ⟨second, hex2, hsecond⟩ := h2
  refine ⟨second ++ first, hex1.append hex2, ?_⟩
  intro t ht
  rcases List.mem_append.1 ht with ht | ht
  · exact hsecond t ht
  · exact hfirst t ht

theorem generation (h : WritesTo chip bus after) : after.generation = bus.generation := by
  obtain ⟨_, hex, _⟩ := h
  exact hex.generation

theorem framesTo (h : WritesTo chip bus after) (hne : address ≠ chip) :
    after.framesTo address = bus.framesTo address := by
  obtain ⟨ts, hex, hts⟩ := h
  have hnone : (ts.map Transmission.frame).filter (isAddressedTo address) = [] := by
    apply List.filter_eq_nil_iff.2
    intro frame hframe
    obtain ⟨t, ht, rfl⟩ := List.mem_map.1 hframe
    simp only [isAddressedTo_eq_false (hts t ht) hne, Bool.false_eq_true, not_false_eq_true]
  rw [hex.framesTo_eq, hnone, List.nil_append]

end WritesTo

/-! ### Exchanges -/

variable [Channel τ]

theorem fetchRegister_framesTo {answer : Except ExchangeError Register}
    (h : (fetchRegister chip).runOn bus = (answer, after)) :
    after.framesTo chip = readFrame chip :: bus.framesTo chip := by
  obtain ⟨t, ht, _, hex⟩ := fetchRegister_exchanged h
  have hself : isAddressedTo chip (readFrame chip) = true := isAddressedTo_cons _ _
  rw [hex.framesTo_eq, List.map_singleton, ht, List.filter_cons_of_pos hself]
  rfl

theorem fetchRegister_writesTo {answer : Except ExchangeError Register}
    (h : (fetchRegister chip).runOn bus = (answer, after)) : WritesTo chip bus after := by
  obtain ⟨t, ht, _, hex⟩ := fetchRegister_exchanged h
  exact .of_one hex ht

theorem fetchResult_writesTo {answer : Except ExchangeError (Option FoundNonce)}
    (h : fetchResult.runOn bus = (answer, after)) : WritesTo broadcast bus after := by
  obtain ⟨t, ht, _, hex⟩ := fetchResult_exchanged h
  exact .of_one hex ht

theorem emptyJobQueue_writesTo {answer : Except ExchangeError Unit}
    (h : (emptyJobQueue chip).runOn bus = (answer, after)) (hchip : chip ≠ broadcast) :
    WritesTo chip bus after := by
  obtain ⟨t, ht, hex⟩ := emptyJobQueue_exchanged h
  rw [if_neg hchip] at hex
  rcases hex with hex | ⟨r, hr, hex⟩
  · exact .of_one hex ht
  · refine ⟨[r, t], hex, ?_⟩
    intro u hu
    rcases List.mem_cons.1 hu with rfl | hu
    · rw [hr]
      exact isAddressedTo_cons _ _
    · rw [List.mem_singleton.1 hu, ht]
      exact isAddressedTo_cons _ _

theorem sendJob_writesTo {j : Job} {answer : Except ExchangeError Unit}
    (h : (sendJob (j.frame bus.generation.jobCrc)).runOn bus = (answer, after)) :
    WritesTo j.chip bus after := by
  obtain ⟨rest, hframe⟩ := frame_eq_cons j bus.generation
  rw [sendJob, runOn_get_bind, hframe] at h
  rcases bind_cases h with ⟨u, middle, hs, h⟩ | ⟨cause, hs, rfl⟩
  · have hsent : WritesTo j.chip bus middle := .of_one (send_ok_exchanged hs) rfl
    cases hr : bus.generation.jobReceipt with
    | none =>
      simp only [hr] at h
      obtain ⟨_, rfl⟩ := Prod.mk.inj h
      exact hsent
    | waitBusy =>
      simp only [hr, chipOf_frame] at h
      rcases bind_cases h with ⟨register, last, hf, h⟩ | ⟨cause, hf, rfl⟩
      · have hend : after = last := by
          split at h
          · exact (Prod.mk.inj h).2.symm
          · exact (Prod.mk.inj h).2.symm
        rw [hend]
        exact hsent.trans (fetchRegister_writesTo hf)
      · exact hsent.trans (fetchRegister_writesTo hf)
  · obtain ⟨wrote, _, hex⟩ := send_exchanged hs
    exact .of_one hex rfl

end HashBoard.Bus
