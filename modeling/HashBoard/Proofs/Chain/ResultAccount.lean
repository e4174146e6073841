import HashBoard.Proofs.Chain.Phases
import HashBoard.Proofs.Chain.ResultLog
import HashBoard.Proofs.Chain.Succession
import HashBoard.Work.KnownAnswer

/-!
# The account of the results

The counters of the chain, those of its chips, the report and what the sink is told of nonces all
follow from the log of the result frames that a scan handled, also when it fails halfway. Nothing
else that a scan does touches any of them.
-/

namespace HashBoard

open Bus Wire

namespace Cycle

variable {τ : Type}

/-- From one moment to another the result frames of a log were handled, oldest first, and nothing
else happened that concerns results. -/
structure Account (log : List Handled) (p q : Moment τ) : Prop where
  frames : q.2.bus.resultFrames = (log.map Handled.frame).reverse ++ p.2.bus.resultFrames
  submissions : submissionsIn q.2.sink.events =
    (submissionsOf log).reverse ++ submissionsIn p.2.sink.events
  crcErrors : q.2.counters.crcErrors = p.2.counters.crcErrors + spoiltIn log
  dropped : q.2.counters.dropped = p.2.counters.dropped + droppedIn log
  chips : List.Forall₂ (Chip.Credited log) p.1 q.1
  totals : ∀ counter : ResultCounter,
    counter.total q.1 = counter.total p.1 + raisedIn counter log
  reports : Reports log p.2.tally q.2.tally

theorem forall₂_one {α : Type} {R : α → α → Prop} {before after : List α} {a b : α}
    (hothers : ∀ other ∈ before ++ after, R other other) (hone : R a b) :
    List.Forall₂ R (before ++ a :: after) (before ++ b :: after) :=
  List.rel_append (List.forall₂_same.2 fun other h => hothers other (List.mem_append_left _ h))
    (.cons hone (List.forall₂_same.2 fun other h => hothers other (List.mem_append_right _ h)))

theorem forall₂_comp {α : Type} {R S T : α → α → Prop} (h : ∀ a b c, R a b → S b c → T a c)
    {first second third : List α} (h1 : List.Forall₂ R first second)
    (h2 : List.Forall₂ S second third) : List.Forall₂ T first third := by
  induction h1 generalizing third with
  | nil =>
    cases h2
    exact .nil
  | cons hab _ ih =>
    cases h2 with
    | cons hbc hrest => exact .cons (h _ _ _ hab hbc) (ih hrest)

theorem Account.append {first second : List Handled} {p q r : Moment τ}
    (h1 : Account first p q) (h2 : Account second q r) : Account (first ++ second) p r where
  frames := by
    rw [h2.frames, h1.frames, List.map_append, List.reverse_append, List.append_assoc]
  submissions := by
    rw [h2.submissions, h1.submissions, submissionsOf_append, List.reverse_append,
      List.append_assoc]
  crcErrors := by rw [h2.crcErrors, h1.crcErrors, spoiltIn_append, Nat.add_assoc]
  dropped := by rw [h2.dropped, h1.dropped, droppedIn_append, Nat.add_assoc]
  chips := by
    refine forall₂_comp ?_ h1.chips h2.chips
    intro old mid new hold hnew
    refine ⟨hnew.id.trans hold.id, fun counter => ?_⟩
    rw [hnew.counters, hold.counters, hold.id, raisedAt_append, Nat.add_assoc]
  totals counter := by rw [h2.totals, h1.totals, raisedIn_append, Nat.add_assoc]
  reports := by
    have ha := h1.reports
    have hb := h2.reports
    refine ⟨?_, ?_, fun counter => ?_, ?_⟩
    · rw [hb.crcErrors, ha.crcErrors, spoiltIn_append, Nat.add_assoc]
    · rw [hb.dropped, ha.dropped, droppedIn_append, Nat.add_assoc]
    · rw [hb.counters, ha.counters, raisedIn_append, Nat.add_assoc]
    · rw [hb.results, ha.results, List.length_append, Nat.add_assoc]

theorem ids_eq_of_credited {log : List Handled} {chips chips' : List Chip}
    (h : List.Forall₂ (Chip.Credited log) chips chips') :
    chips'.map Chip.id = chips.map Chip.id := by
  induction h with
  | nil => rfl
  | cons hfirst _ ih => rw [List.map_cons, List.map_cons, hfirst.id, ih]

theorem Account.numbered {log : List Handled} {p q : Moment τ} (h : Account log p q)
    (hp : Numbered p.1) : Numbered q.1 :=
  hp.of_ids_eq (ids_eq_of_credited h.chips)

/-- Nothing is counted where only the bus, the jobs and the rest of the report change. -/
theorem Account.of_same {chips chips' : List Chip} {cy cy' : Cycle τ}
    (hbus : cy'.bus.resultFrames = cy.bus.resultFrames) (hsink : cy.sink.Returned cy'.sink)
    (hcounters : cy'.counters = cy.counters)
    (hchips : List.Forall₂ (Chip.Credited []) chips chips')
    (htotals : ∀ counter : ResultCounter, counter.total chips' = counter.total chips)
    (hreports : Reports [] cy.tally cy'.tally) : Account [] (chips, cy) (chips', cy') where
  frames := hbus
  submissions := hsink.submissionsIn_eq
  crcErrors := congrArg LifetimeTally.crcErrors hcounters
  dropped := congrArg LifetimeTally.dropped hcounters
  chips := hchips
  totals := htotals
  reports := hreports

theorem Account.of_cycle (chips : List Chip) {cy cy' : Cycle τ}
    (hbus : cy'.bus.resultFrames = cy.bus.resultFrames) (hsink : cy'.sink = cy.sink)
    (hcounters : cy'.counters = cy.counters) (hreports : Reports [] cy.tally cy'.tally) :
    Account [] (chips, cy) (chips, cy') := by
  refine .of_same hbus ?_ hcounters (List.forall₂_same.2 fun chip _ => .refl chip) (fun _ => rfl)
    hreports
  rw [hsink]
  exact .refl _

/-! ### Results -/

/-- The account of a frame whose nonce or empty slot is counted at one chip. -/
theorem Account.of_credit {before after : List Chip} {chip chip' : Chip} {cy cy' : Cycle τ}
    {frame : Bytes} {exit : Exit} (hnum : Numbered (before ++ chip :: after))
    (hframe : cy'.bus.resultFrames = frame :: cy.bus.resultFrames) (hid : chip'.id = chip.id)
    (hexit : exit = .stale chip.id ∨ ∃ work nonce accepted,
      exit = .judged work chip.id nonce accepted)
    (hstats : ∀ counter : ResultCounter, counter.of chip'.stats =
      counter.of chip.stats + if (exit.raises? counter).isSome then 1 else 0)
    (hsubmissions : submissionsIn cy'.sink.events =
      exit.submission?.toList ++ submissionsIn cy.sink.events)
    (hcounters : cy'.counters = cy.counters)
    (hreports : Reports [⟨frame, exit⟩] cy.tally cy'.tally) :
    Account [⟨frame, exit⟩] (before ++ chip :: after, cy) (before ++ chip' :: after, cy') := by
  have hkept : exit.isSpoilt = false ∧ exit.isDropped = false := by
    rcases hexit with rfl | ⟨work, nonce, accepted, rfl⟩ <;> exact ⟨rfl, rfl⟩
  have hraises (counter : ResultCounter) :
      exit.raises? counter = none ∨ exit.raises? counter = some chip.id := by
    rcases hexit with rfl | ⟨work, nonce, _ | _, rfl⟩ <;> cases counter <;>
      first | exact .inl rfl | exact .inr rfl
  refine ⟨hframe, ?_, ?_, ?_, forall₂_one ?_ ⟨hid, fun counter => ?_⟩, fun counter => ?_, hreports⟩
  · rw [hsubmissions, submissionsOf_cons]
    rcases hexit with rfl | ⟨work, nonce, accepted, rfl⟩ <;> rfl
  · rw [hcounters, spoiltIn_cons, hkept.1]
    rfl
  · rw [hcounters, droppedIn_cons, hkept.2]
    rfl
  · intro other hmem
    refine ⟨rfl, fun counter => ?_⟩
    have hne : some chip.id ≠ some other.id :=
      fun hsame => hnum.id_ne_of_mem hmem (Option.some.inj hsame).symm
    rw [raisedAt_singleton]
    rcases hraises counter with h | h
    · simp [h]
    · simp only [h, beq_eq_false_iff_ne.2 hne, Bool.false_eq_true, if_false, Nat.add_zero]
  · rw [hstats, raisedAt_singleton]
    rcases hraises counter with h | h <;> simp [h]
  · rw [total_append_cons, total_append_cons, hstats, raisedIn_cons]
    have hnone : raisedIn counter [] = 0 := rfl
    simp only [hnone]
    omega

theorem credit_account {before after : List Chip} {chip : Chip} {cy : Cycle τ} {frame : Bytes}
    {result : FoundNonce} {bus : Bus τ} (hnum : Numbered (before ++ chip :: after))
    (hframe : bus.resultFrames = frame :: cy.bus.resultFrames) (hread : Reads frame result)
    (hid : chip.id = result.chip) (hslot : JobSlots.isSlot result.slot = true)
    (hactive : chip.condition.isActive = true) : ∃ exit,
      Leaves (before ++ chip :: after) frame exit ∧
        Account [⟨frame, exit⟩] (before ++ chip :: after, cy)
          (before ++ (credit result chip
              (count { cy with bus } fun r => { r with results := r.results + 1 })).1 :: after,
            (credit result chip
              (count { cy with bus } fun r => { r with results := r.results + 1 })).2) := by
  have hchip : chip ∈ before ++ chip :: after ∧ chip.id = result.chip :=
    ⟨List.mem_append_cons_self, hid⟩
  have hrange := isSlot_iff.1 hslot
  unfold credit
  cases hwork : chip.slots.get? result.slot with
  | none =>
    refine ⟨_, .stale hread hchip hactive hrange hwork, ?_⟩
    refine .of_credit hnum hframe rfl (.inl (congrArg _ hid.symm)) ?_ rfl rfl ?_
    · intro counter
      cases counter <;> rfl
    · exact ⟨rfl, rfl, fun counter => by cases counter <;> rfl, Nat.add_right_comm _ 1 _⟩
  | some work =>
    cases haccepted : cy.sink.judge cy.sink.events work chip.id result.nonce with
    | true =>
      simp only [Sink.submit, count, haccepted, if_true]
      refine ⟨_, .judged hread hchip hactive hrange hwork true, ?_⟩
      refine .of_credit hnum hframe rfl (.inr ⟨work, result.nonce, true, ?_⟩) ?_ ?_ rfl ?_
      · rw [hid]
      · intro counter
        cases counter <;> rfl
      · rw [← hid]
        rfl
      · exact ⟨rfl, rfl, fun counter => by cases counter <;> rfl, Nat.add_right_comm _ 1 _⟩
    | false =>
      simp only [Sink.submit, count, haccepted, Bool.false_eq_true, if_false]
      refine ⟨_, .judged hread hchip hactive hrange hwork false, ?_⟩
      refine .of_credit hnum hframe rfl (.inr ⟨work, result.nonce, false, ?_⟩) ?_ ?_ rfl ?_
      · rw [hid]
      · intro counter
        cases counter <;> rfl
      · rw [← hid]
        rfl
      · exact ⟨rfl, rfl, fun counter => by cases counter <;> rfl, Nat.add_right_comm _ 1 _⟩

theorem Account.drop {chips : List Chip} {cy : Cycle τ} {frame : Bytes} {bus : Bus τ}
    (hframe : bus.resultFrames = frame :: cy.bus.resultFrames) :
    Account [⟨frame, .dropped⟩] (chips, cy)
      (chips, drop (count { cy with bus } fun r => { r with results := r.results + 1 })) where
  frames := hframe
  submissions := rfl
  crcErrors := rfl
  dropped := rfl
  chips := List.forall₂_same.2 fun chip _ => ⟨rfl, fun counter => by cases counter <;> rfl⟩
  totals counter := by cases counter <;> rfl
  reports := ⟨rfl, rfl, fun counter => by cases counter <;> rfl, Nat.add_right_comm _ 1 _⟩

theorem Account.spoilt {chips : List Chip} {cy : Cycle τ} {frame : Bytes} {bus : Bus τ}
    (hframe : bus.resultFrames = frame :: cy.bus.resultFrames) :
    Account [⟨frame, .spoilt⟩] (chips, cy) (chips, countCrcError { cy with bus }) where
  frames := hframe
  submissions := rfl
  crcErrors := rfl
  dropped := rfl
  chips := List.forall₂_same.2 fun chip _ => ⟨rfl, fun counter => by cases counter <;> rfl⟩
  totals counter := by cases counter <;> rfl
  reports := ⟨rfl, rfl, fun counter => by cases counter <;> rfl, rfl⟩

theorem takeResult_account {chips : List Chip} {cy : Cycle τ} {frame : Bytes} {result : FoundNonce}
    {bus : Bus τ} (hnum : Numbered chips)
    (hframe : bus.resultFrames = frame :: cy.bus.resultFrames) (hread : Reads frame result) :
    ∃ exit, Leaves chips frame exit ∧
      Account [⟨frame, exit⟩] (chips, cy) (takeResult result chips { cy with bus }) ∧
      (takeResult result chips { cy with bus }).1.map Chip.withoutStats = chips.map Chip.withoutStats := by
  rcases takeResult_cases result chips { cy with bus } with
    ⟨hwhy, heq⟩ | ⟨before, chip, after, rfl, hplace, hslot, hactive, heq⟩
  · rw [heq]
    exact ⟨.dropped, leaves_dropped hnum hread hwhy, .drop hframe, rfl⟩
  · have hid : chip.id = result.chip := UInt8.toNat_inj.1 (by rw [hnum.id_eq, hplace])
    obtain ⟨exit, hleaves, haccount⟩ :=
      credit_account hnum hframe hread hid hslot hactive
    rw [heq]
    refine ⟨exit, hleaves, haccount, ?_⟩
    obtain ⟨⟨stats, hstats⟩, _⟩ := credit_keeps result chip
      (count { cy with bus } fun r => { r with results := r.results + 1 })
    rw [List.map_append, List.map_append, List.map_cons, List.map_cons, hstats]
    rfl

/-! ### Exchanges with one chip -/

theorem fail_account (cy : Cycle τ) (policy : Tolerance) (now : Nat) (chip : Chip) :
    (cy.fail policy now chip).1.stats = chip.stats ∧
      (cy.fail policy now chip).2.counters = cy.counters ∧
        Reports [] cy.tally (cy.fail policy now chip).2.tally := by
  have hsame (counter : ResultCounter) {r r' : ScanTally} (h : counter.reported r' =
      counter.reported r) : counter.reported r' = counter.reported r + raisedIn counter [] := h
  unfold fail
  cases chip.condition.afterFailure now policy with
  | mk change condition =>
    cases change with
    | unchanged | cooldownRestarted => exact ⟨rfl, rfl, .refl _⟩
    | enteredCooldown | recovered | disabled =>
      exact ⟨rfl, rfl, rfl, rfl, fun counter => hsame counter (by cases counter <;> rfl), rfl⟩

variable [Channel τ] {options : DrivingOptions} {now : Nat} {round : Round}

theorem ChipStep.account {before after : List Chip} {chip chip' : Chip} {cy cy' : Cycle τ}
    (h : ChipStep options now round chip cy chip' cy') (hid : chip.id ≠ broadcast) :
    Account [] (before ++ chip :: after, cy) (before ++ chip' :: after, cy') := by
  have hkept : (∀ counter : ResultCounter, counter.of chip'.stats = counter.of chip.stats) ∧
      cy'.counters = cy.counters ∧ Reports [] cy.tally cy'.tally := by
    cases h with
    | measured _ _ | probed _ _ => exact ⟨fun _ => rfl, rfl, .refl _⟩
    | missed _ _ | missedAgain _ _ | unsent _ _ _ _ _ =>
      obtain ⟨hstats, hcounters, hreports⟩ := fail_account (_ : Cycle τ) options.tolerance now chip
      exact ⟨fun _ => congrArg _ hstats, hcounters, hreports⟩
    | recovered _ _ =>
      exact ⟨fun _ => rfl, rfl, rfl, rfl, fun counter => by cases counter <;> rfl, rfl⟩
    | sent _ _ _ _ _ =>
      refine ⟨fun counter => by cases counter <;> rfl, ?_⟩
      cases chip.slots.current? with
      | none => exact ⟨rfl, rfl, rfl, fun counter => by cases counter <;> rfl, rfl⟩
      | some done => exact ⟨rfl, rfl, rfl, fun counter => by cases counter <;> rfl, rfl⟩
  obtain ⟨hstats, hcounters, hreports⟩ := hkept
  refine .of_same (h.writesTo.resultFrames_eq hid) h.returned hcounters ?_ ?_ hreports
  · exact forall₂_one (fun other _ => .refl other) ⟨h.id_eq, hstats⟩
  · intro counter
    rw [total_append_cons, total_append_cons, hstats]

theorem Asks.account {p q : Moment τ} (h : Asks options now round p q) (hp : Numbered p.1) :
    Account [] p q := by
  induction h with
  | refl => exact .of_cycle p.1 rfl rfl rfl (.refl _)
  | tail _ hlast ih =>
    cases hlast with
    | chip hchip =>
      exact ih.append (hchip.account ((ih.numbered hp).id_ne_broadcast List.mem_append_cons_self))

/-! ### Reading the results -/

/-- Each complete frame read makes one entry of the log. -/
theorem takeResults_account (limit : Nat) {chips : List Chip} (cy : Cycle τ)
    (hnum : Numbered chips) : ∃ log, log.length ≤ limit ∧
      (∀ h ∈ log, Leaves chips h.frame h.exit) ∧
      Account log (chips, cy) (cy.takeResults limit chips).2 := by
  induction limit generalizing chips cy with
  | zero => exact ⟨[], Nat.le_refl 0, nofun, .of_cycle chips rfl rfl rfl (.refl _)⟩
  | succ limit ih =>
    have hquiet {bus : Bus τ} (hbus : bus.resultFrames = cy.bus.resultFrames) : ∃ log : List Handled,
        log.length ≤ limit + 1 ∧ (∀ h ∈ log, Leaves chips h.frame h.exit) ∧
          Account log (chips, cy) (chips, { cy with bus }) :=
      ⟨[], Nat.zero_le _, nofun, .of_cycle chips hbus rfl rfl (.refl _)⟩
    unfold takeResults
    cases hr : fetchResult.runOn cy.bus with
    | mk answer bus =>
      rcases fetchResult_heard hr with ⟨frame, hlen, hframe, rfl⟩ | ⟨hbus, hnone, hcause⟩
      · rcases decode_cases hlen with
          ⟨hseal, result, hread⟩ | ⟨hseal, computed, received, hread⟩
        · simp only [hread, Except.map]
          obtain ⟨exit, hleaves, haccount, hsame⟩ :=
            takeResult_account hnum hframe ⟨hseal, hread⟩
          have hids := congrArg (List.map Chip.id) hsame
          simp only [List.map_map] at hids
          obtain ⟨log, hlog, hrest, hmore⟩ :=
            ih (takeResult result chips { cy with bus }).2 (hnum.of_ids_eq hids)
          refine ⟨⟨frame, exit⟩ :: log, Nat.succ_le_succ hlog, ?_, haccount.append hmore⟩
          intro h hmem
          rcases List.mem_cons.1 hmem with rfl | hmem
          · exact hleaves
          · exact (hrest h hmem).of_withoutStats hsame
        · simp only [hread, Except.map]
          obtain ⟨log, hlog, hrest, hmore⟩ := ih (countCrcError { cy with bus }) hnum
          refine ⟨⟨frame, .spoilt⟩ :: log, Nat.succ_le_succ hlog, ?_,
            (Account.spoilt hframe).append hmore⟩
          intro h hmem
          rcases List.mem_cons.1 hmem with rfl | hmem
          · exact .spoilt hseal
          · exact hrest h hmem
      · cases answer with
        | ok got =>
          cases got with
          | none => exact hquiet hbus
          | some result => cases hnone
        | error cause =>
          cases cause with
          | crc computed received => cases hcause _ rfl
          | _ => exact hquiet hbus

end Cycle

/-! ### Scans -/

open HashBoard.Cycle

variable {τ : Type} [Channel τ]

theorem Chain.scan_account {c : Chain τ} (hnum : Numbered c.chips) (sink : Sink)
    (overview : Thermal.Overview) (now : Nat) :
    ∃ (log : List Handled) (q : Moment τ), log.length ≤ c.options.drainLimit ∧
      (∀ h ∈ log, Leaves (c.sampled sink now).1 h.frame h.exit) ∧
      Account log (c.chips, c.counted.cycle sink) q ∧
      ((c.scan sink overview now).chain.chips,
          (c.scan sink overview now).chain.cycle (c.scan sink overview now).sink) =
        (q.1, q.2.count fun _ => .zero) ∧
      ∀ report, (c.scan sink overview now).result = .ok report → Reports log .zero report := by
  by_cases hcores : c.numCores = 0
  · refine ⟨[], (c.chips, c.counted.cycle sink), Nat.zero_le _, nofun,
      .of_cycle c.chips rfl rfl rfl (.refl _), ?_⟩
    rw [c.scan_of_numCores_eq_zero sink overview now hcores]
    refine ⟨rfl, ?_⟩
    intro report hreport
    obtain rfl := Except.ok.inj hreport
    exact ⟨rfl, rfl, fun counter => by cases counter <;> rfl, rfl⟩
  · obtain ⟨cy, hasks, stats, hnoted⟩ := c.sampled_asks sink now
    have hnote : Account [] ((c.sampled sink now).1, cy) (c.sampled sink now) := by
      have hsame : c.sampled sink now = ((c.sampled sink now).1, (c.sampled sink now).2) := rfl
      rw [hsame, hnoted]
      exact .of_cycle _ rfl rfl rfl ⟨rfl, rfl, fun counter => by cases counter <;> rfl, rfl⟩
    have hsampled := (hasks.account hnum).append hnote
    obtain ⟨log, hlimit, hleaves, hdrain⟩ :=
      takeResults_account c.options.drainLimit (c.sampled sink now).2 (hsampled.numbered hnum)
    have hdrained : Account log (c.chips, c.counted.cycle sink) (c.drained sink now).2 :=
      hsampled.append hdrain
    obtain ⟨q, hend, hcases⟩ := c.scan_phases sink overview now hcores
    refine ⟨log, q, hlimit, hleaves, ?_⟩
    rcases hcases with ⟨cause, _, rfl, hresult⟩ | ⟨_, rfl, hresult⟩
    · refine ⟨hdrained, hend, ?_⟩
      intro report hreport
      rw [hresult] at hreport
      cases hreport
    · have hdispatch := (c.dispatched_asks sink now).account (hdrained.numbered hnum)
      have hdispatched := hdrained.append hdispatch
      have hrecheck := (c.rechecked_asks sink now).account (hdispatched.numbered hnum)
      have hall := hdispatched.append hrecheck
      rw [List.append_nil, List.append_nil] at hall
      refine ⟨hall, hend, ?_⟩
      intro report hreport
      rw [hresult] at hreport
      obtain rfl := Except.ok.inj hreport
      exact hall.reports

namespace Service

variable {s : Service τ}

/-- A scan handles at most as many result frames as it may, each by its way out, and they make all
the difference to the counters of the chain and of its chips and to what the sink is told of nonces,
whether the scan succeeds or not. The report of one that succeeds says how often each way out was
taken. -/
theorem Reachable.results_accounted (h : Reachable s) (overview : Thermal.Overview) (now : Nat) :
    let scanned := s.chain.scan s.sink overview now
    ∃ log : List Handled,
      scanned.chain.bus.resultFrames =
          (log.map Handled.frame).reverse ++ s.chain.bus.resultFrames ∧
        (∀ handled ∈ log,
          Leaves (s.chain.sampled s.sink now).1 handled.frame handled.exit) ∧
        submissionsIn scanned.sink.events =
          (submissionsOf log).reverse ++ submissionsIn s.sink.events ∧
        log.length ≤ s.chain.options.drainLimit ∧
        scanned.chain.counters.crcErrors = s.chain.counters.crcErrors + spoiltIn log ∧
        scanned.chain.counters.dropped = s.chain.counters.dropped + droppedIn log ∧
        List.Forall₂ (fun old new : Chip => new.id = old.id ∧ ∀ counter : ResultCounter,
            counter.of new.stats = counter.of old.stats + raisedAt counter old.id log)
          s.chain.chips scanned.chain.chips ∧
        ∀ report, scanned.result = .ok report →
          report.results = report.submitted + report.stale + report.hwErrors + report.dropped ∧
            report.results + report.crcErrors ≤ s.chain.options.drainLimit ∧
            (submissionsIn scanned.sink.events).length =
              (submissionsIn s.sink.events).length + (report.submitted + report.hwErrors) ∧
            scanned.chain.counters.crcErrors = s.chain.counters.crcErrors + report.crcErrors ∧
            scanned.chain.counters.dropped = s.chain.counters.dropped + report.dropped ∧
            ∀ counter : ResultCounter, counter.total scanned.chain.chips =
              counter.total s.chain.chips + counter.reported report := by
  intro scanned
  obtain ⟨log, q, hlimit, hleaves, haccount, hend, hreports⟩ :=
    s.chain.scan_account h.sound.numbered s.sink overview now
  have hchips : scanned.chain.chips = q.1 := congrArg Prod.fst hend
  have hcycle : scanned.chain.cycle scanned.sink = q.2.count fun _ => .zero :=
    congrArg Prod.snd hend
  have hbus : scanned.chain.bus = q.2.bus := congrArg Cycle.bus hcycle
  have hsink : scanned.sink = q.2.sink := congrArg Cycle.sink hcycle
  have hcounters : scanned.chain.counters = q.2.counters := congrArg Cycle.counters hcycle
  have hcrc : scanned.chain.counters.crcErrors = s.chain.counters.crcErrors + spoiltIn log := by
    rw [hcounters]
    exact haccount.crcErrors
  have hdropped : scanned.chain.counters.dropped = s.chain.counters.dropped + droppedIn log := by
    rw [hcounters]
    exact haccount.dropped
  have hsubmissions : submissionsIn scanned.sink.events =
      (submissionsOf log).reverse ++ submissionsIn s.sink.events := by
    rw [hsink]
    exact haccount.submissions
  refine ⟨log, ?_, hleaves, hsubmissions, hlimit, hcrc, hdropped, ?_, ?_⟩
  · rw [hbus]
    exact haccount.frames
  · rw [hchips]
    exact haccount.chips.imp fun old new hcredited => ⟨hcredited.id, hcredited.counters⟩
  · intro report hreport
    have hreported := hreports report hreport
    have hcount (counter : ResultCounter) : counter.reported report = raisedIn counter log := by
      rw [hreported.counters]
      cases counter <;> exact Nat.zero_add _
    have hstale : report.stale = raisedIn .stales log := hcount .stales
    have hsubmitted : report.submitted = raisedIn .noncesFound log := hcount .noncesFound
    have hrejected : report.hwErrors = raisedIn .hwErrors log := hcount .hwErrors
    have hspoilt : report.crcErrors = spoiltIn log := hreported.crcErrors.trans (Nat.zero_add _)
    have hlost : report.dropped = droppedIn log := hreported.dropped.trans (Nat.zero_add _)
    have hall : report.results + report.crcErrors = log.length :=
      hreported.results.trans (Nat.zero_add _)
    have hsum := length_eq_counts log
    refine ⟨by omega, by omega, ?_, ?_, ?_, ?_⟩
    · rw [hsubmissions, List.length_append, List.length_reverse, length_submissionsOf, hsubmitted,
        hrejected, Nat.add_comm]
    · rw [hcrc, hspoilt]
    · rw [hdropped, hlost]
    · intro counter
      rw [hchips, haccount.totals, hcount]

def resultCounts? : Except OperationError ScanTally → Option (List Nat)
  | .ok r => some [r.results, r.submitted, r.stale, r.hwErrors, r.dropped, r.crcErrors]
  | .error _ => none

/-- One scan reads a valid share, a nonce for an empty slot, one of a chip that does not exist and a
frame with a wrong checksum. -/
theorem results_accounted_of_four_frames : ∃ s : Service Script, Reachable s ∧
    let scanned := s.chain.scan s.sink .empty 0
    ∃ report, ∃ log : List Handled, scanned.result = .ok report ∧ report.submitted = 1 ∧ report.stale = 1 ∧
      report.dropped = 1 ∧ report.crcErrors = 1 ∧ report.results = 3 ∧
      scanned.chain.bus.resultFrames =
          (log.map Handled.frame).reverse ++ s.chain.bus.resultFrames ∧
        (∀ handled ∈ log, Leaves (s.chain.sampled s.sink 0).1 handled.frame handled.exit) ∧
        scanned.chain.counters.crcErrors = s.chain.counters.crcErrors + 1 := by
  let taken : List Bytes := [[], chipReply false, [], chipReply true]
  let found : List Bytes := [FoundNonce.encode ⟨1, 1, 0x1234⟩, FoundNonce.encode ⟨2, 1, 5⟩,
    FoundNonce.encode ⟨1, 9, 6⟩, (FoundNonce.encode ⟨1, 1, 7⟩).modify 9 (· ^^^ 0xff)]
  let requests : List Request := [.offer (KnownAnswer.work 0), .scan .empty 0]
  have hany : ((ofBus? (oneChip (taken ++ found)) 60000).any fun s =>
      decide (resultCounts?
        ((s.run requests).chain.scan (s.run requests).sink .empty 0).result =
          some [3, 1, 1, 0, 1, 1])) = true := by
    decide +kernel
  obtain ⟨s, hs, hcheck⟩ := (Option.any_eq_true _ _).1 hany
  have hreach := (reachable_of_ofBus? hs).run requests
  have hcounts := of_decide_eq_true hcheck
  obtain ⟨log, hframes, hleaves, _, _, _, _, _, hreport⟩ := hreach.results_accounted .empty 0
  cases hresult : ((s.run requests).chain.scan (s.run requests).sink .empty 0).result with
  | error cause =>
    rw [hresult] at hcounts
    cases hcounts
  | ok report =>
    obtain ⟨hbalance, _, _, hcrc, _, _⟩ := hreport report hresult
    rw [hresult] at hcounts
    simp only [resultCounts?, Option.some.injEq, List.cons.injEq, and_true] at hcounts
    obtain ⟨_, hsubmitted, hstale, hrejected, hdropped, hspoilt⟩ := hcounts
    rw [hspoilt] at hcrc
    exact ⟨_, hreach, report, log, hresult, hsubmitted, hstale, hdropped, hspoilt, by omega, hframes,
      hleaves, hcrc⟩

end Service

end HashBoard
