import HashBoard.Proofs.Chain.Conservation
import HashBoard.Proofs.Chain.Filling

/-!
# Work handed back by a worker

A worker offers its chain the items of its source in the order in which they came. However a run
goes and wherever it stops, every item that the source handed out is back with the sink in the end,
once, and the worker, the queue and the slots are empty.
-/

namespace HashBoard

open Bus

namespace Worker

variable {τ : Type}

def lit (w : Worker τ) : Worker τ := { w with chain := w.chain.showMining true }

/-- The items in the queue, in the slots and with the sink. -/
def items (w : Worker τ) : Multiset Work := Cycle.items (w.chain.chips, w.chain.cycle w.sink)

theorem answerDanger_eq (w : Worker τ) (tally : ScanTally) : ∃ power alarms,
    (w.answerDanger tally).2 = { w with chain := { w.chain with power }, alarms } := by
  unfold answerDanger
  cases tally.temperature with
  | none => exact ⟨w.chain.power, w.alarms, rfl⟩
  | some stats =>
    by_cases hdanger : w.thermal.isDangerous stats.max = true
    · simp only [if_pos hdanger, Chain.switchOff_snd]
      exact ⟨_, _, rfl⟩
    · simp only [if_neg hdanger]
      exact ⟨w.chain.power, w.alarms, rfl⟩

/-! ### Served items -/

/-- From one state of a worker to a later one items in line were served, and those that were taken
are in the queue, in the slots or with the sink. -/
structure Served (offers : List Offer) (dealt : List Work) (w last : Worker τ) : Prop where
  source : last.source.dealt = w.source.dealt ++ dealt
  inOrder : Serves (w.pending.toList ++ dealt) offers last.pending.toList
  items : last.items = w.items + Offer.takenOf offers

theorem Served.none (w : Worker τ) : Served [] [] w w := by
  refine ⟨(List.append_nil _).symm, ?_, (add_zero w.items).symm⟩
  rw [List.append_nil]
  exact .stop _

theorem Served.append {first second : List Offer} {dealt dealt' : List Work}
    {w w' last : Worker τ} (h1 : Served first dealt w w') (h2 : Served second dealt' w' last) :
    Served (first ++ second) (dealt ++ dealt') w last := by
  refine ⟨?_, ?_, ?_⟩
  · rw [h2.source, h1.source, List.append_assoc]
  · rw [← List.append_assoc]
    exact (h1.inOrder.joined dealt').append h2.inOrder
  · rw [h2.items, h1.items, Offer.takenOf_append, ← Multiset.coe_add, add_assoc]

/-! ### Steps -/

variable [Channel τ]

def scanned (w : Worker τ) (now : Nat) : Worker τ :=
  { w with
    chain := (w.chain.scan w.sink w.overview now).chain
    sink := (w.chain.scan w.sink w.overview now).sink
    overview := (w.chain.scan w.sink w.overview now).overview }

theorem step_eq (w : Worker τ) (now : Nat) : w.step now =
    match (w.fill.chain.scan w.fill.sink w.fill.overview now).result with
    | .error _ => (.goOn true, w.fill.scanned now)
    | .ok tally =>
      if tally.idle then (.idle, w.fill.scanned now)
      else
        match (w.fill.scanned now).answerDanger tally with
        | (true, w) => (.tripped, w)
        | (false, w) => (.goOn tally.isUneventful, w) := rfl

/-- What follows the fill in a step neither asks the source nor loses an item. -/
theorem step_keeps (w : Worker τ) (now : Nat) :
    (w.step now).2.source = w.fill.source ∧ (w.step now).2.pending = w.fill.pending ∧
      (w.step now).2.items = w.fill.items := by
  have hscan : (w.fill.scanned now).items = w.fill.items :=
    w.fill.chain.items_scan w.fill.sink w.fill.overview now
  rw [step_eq]
  cases (w.fill.chain.scan w.fill.sink w.fill.overview now).result with
  | error cause => exact ⟨rfl, rfl, hscan⟩
  | ok tally =>
    by_cases hidle : tally.idle = true
    · simp only [if_pos hidle]
      exact ⟨rfl, rfl, hscan⟩
    · simp only [if_neg hidle]
      obtain ⟨power, alarms, heq⟩ := answerDanger_eq (w.fill.scanned now) tally
      generalize (w.fill.scanned now).answerDanger tally = answered at heq ⊢
      obtain ⟨danger, w'⟩ := answered
      obtain rfl := heq
      cases danger with
      | true => exact ⟨rfl, rfl, hscan⟩
      | false => exact ⟨rfl, rfl, hscan⟩

/-- The offers made in a run, those of each step after those of the steps before it. -/
inductive Offered (stop : Worker τ → Bool) : List Nat → Worker τ → List Offer → Prop
  | timesUp (w : Worker τ) : Offered stop [] w []
  | stopped {times : List Nat} {w : Worker τ} (hstop : stop w = true) : Offered stop times w []
  | wentOn {now : Nat} {later : List Nat} {w w' : Worker τ} {quiet : Bool}
      {offers more : List Offer} (hstop : stop w = false) (hfill : Fills w offers w.fill)
      (hstep : w.step now = (.goOn quiet, w')) (hrest : Offered stop later w' more) :
      Offered stop (now :: later) w (offers ++ more)
  | ended {now : Nat} {later : List Nat} {w : Worker τ} {offers : List Offer}
      (hstop : stop w = false) (hfill : Fills w offers w.fill)
      (hend : ∀ quiet, (w.step now).1 ≠ .goOn quiet) : Offered stop (now :: later) w offers

theorem exists_offered (stop : Worker τ → Bool) (times : List Nat) (w : Worker τ) :
    ∃ offers, Offered stop times w offers := by
  induction times generalizing w with
  | nil => exact ⟨[], .timesUp w⟩
  | cons now later ih =>
    cases hstop : stop w with
    | true => exact ⟨[], .stopped hstop⟩
    | false =>
      obtain ⟨offers, hfill⟩ := w.fill_fills
      cases hstep : w.step now with
      | mk outcome w' =>
        cases outcome with
        | goOn quiet =>
          obtain ⟨more, hrest⟩ := ih w'
          exact ⟨offers ++ more, .wentOn hstop hfill hstep hrest⟩
        | idle => exact ⟨offers, .ended hstop hfill (by rw [hstep]; exact nofun)⟩
        | tripped => exact ⟨offers, .ended hstop hfill (by rw [hstep]; exact nofun)⟩

/-! ### Runs -/

theorem step_served {w : Worker τ} {offers : List Offer} (h : Fills w offers w.fill) (now : Nat) :
    ∃ dealt, Served offers dealt w (w.step now).2 := by
  obtain ⟨dealt, source, pending, hfilled, hdealt, hserves⟩ := h.serves
  obtain ⟨hsource, hpending, hitems⟩ := w.step_keeps now
  have hqueue := w.chain.items_queue w.sink (Offer.takenOf offers)
  have hfill : w.fill.items = Offer.takenOf offers + w.items := by
    rw [hfilled]
    exact hqueue
  refine ⟨dealt, ?_, ?_, ?_⟩
  · rw [hsource, hfilled]
    exact hdealt
  · rw [hpending, hfilled]
    exact hserves
  · rw [hitems, hfill]
    exact add_comm _ _

theorem Offered.served {stop : Worker τ → Bool} {times : List Nat} {w : Worker τ}
    {offers : List Offer} (h : Offered stop times w offers) :
    ∃ dealt, Served offers dealt w (steps stop times w) := by
  induction h with
  | timesUp w => exact ⟨[], .none w⟩
  | @stopped times w hstop =>
    have hsteps : steps stop times w = w := by
      cases times with
      | nil => rfl
      | cons now later => rw [steps, if_pos hstop]
    rw [hsteps]
    exact ⟨[], .none w⟩
  | @wentOn now later w w' quiet offers more hstop hfill hstep hrest ih =>
    obtain ⟨first, hfirst⟩ := step_served hfill now
    obtain ⟨second, hsecond⟩ := ih
    have hsteps : steps stop (now :: later) w = steps stop later w' := by
      simp only [steps, hstop, hstep, Bool.false_eq_true, if_false]
    rw [hstep] at hfirst
    rw [hsteps]
    exact ⟨first ++ second, hfirst.append hsecond⟩
  | @ended now later w offers hstop hfill hend =>
    obtain ⟨dealt, hserved⟩ := step_served hfill now
    have hsteps : steps stop (now :: later) w = (w.step now).2 := by
      rw [steps, hstop, if_neg Bool.false_ne_true]
      cases hstep : w.step now with
      | mk outcome w' =>
        rw [hstep] at hend
        cases outcome with
        | goOn quiet => exact absurd rfl (hend quiet)
        | idle => rfl
        | tripped => rfl
    rw [hsteps]
    exact ⟨dealt, hserved⟩

theorem windUp_eq (w : Worker τ) :
    w.windUp.source = w.source ∧ w.windUp.pending = none ∧ w.windUp.chain.queue = [] ∧
      (∀ chip ∈ w.windUp.chain.chips, chip.slots = .empty) ∧
      (completedIn w.windUp.sink.events : Multiset Work) = w.pending.toList + w.items := by
  obtain ⟨bus, _, hreclaim⟩ := w.chain.reclaim_eq w.sink
  have hall := w.chain.completedIn_reclaimed w.sink
  refine ⟨rfl, rfl, ?_, ?_, ?_⟩
  · show (w.chain.reclaim w.sink).2.1.queue = []
    rw [hreclaim]
  · show ∀ chip ∈ (w.chain.reclaim w.sink).2.1.chips, chip.slots = .empty
    rw [hreclaim]
    intro chip hmem
    obtain ⟨_, _, rfl⟩ := List.mem_map.1 hmem
    rfl
  · unfold windUp
    rw [hreclaim]
    cases w.pending with
    | none =>
      show (completedIn _ : Multiset Work) = (([] : List Work) : Multiset Work) + w.items
      rw [hall, Multiset.coe_nil, zero_add]
      rfl
    | some work =>
      show ((work :: completedIn _ : List Work) : Multiset Work) = ([work] : List Work) + w.items
      rw [← Multiset.cons_coe, hall, Multiset.coe_singleton, Multiset.singleton_add]
      rfl

/-- Filling ends for every source. A run offers items in the order in which the source handed them
out, one that was refused again before a newer one. After it all of them are back, each once, beside
what the worker, its chain and its sink had held before, and nothing is left behind. -/
theorem run_hands_back (w : Worker τ) (stop : Worker τ → Bool) (times : List Nat) :
    (∀ v : Worker τ, ∃ offers, Fills v offers v.fill) ∧
    ∃ offers dealt, Offered stop times w.lit offers ∧
      (w.run stop times).source.dealt = w.source.dealt ++ dealt ∧
      Serves (w.pending.toList ++ dealt) offers (steps stop times w.lit).pending.toList ∧
      (completedIn (w.run stop times).sink.events).Perm
        (completedIn w.sink.events ++ jobsHeld w.chain.chips ++ w.chain.queue ++
          w.pending.toList ++ dealt) ∧
      (w.run stop times).pending = none ∧ (w.run stop times).chain.queue = [] ∧
      ∀ chip ∈ (w.run stop times).chain.chips, chip.slots = .empty := by
  refine ⟨fill_fills, ?_⟩
  obtain ⟨offers, hoffered⟩ := exists_offered stop times w.lit
  obtain ⟨dealt, hserved⟩ := hoffered.served
  obtain ⟨hsource, hpending, hqueue, hslots, hback⟩ := (steps stop times w.lit).windUp_eq
  have hlit : w.lit.items =
      w.chain.queue + jobsHeld w.chain.chips + completedIn w.sink.events := rfl
  -- What was taken and what is pending at the end are together what stood in line.
  have hline := congrArg (fun line : List Work => (line : Multiset Work))
    hserved.inOrder.takenOf_append
  simp only [← Multiset.coe_add] at hline
  refine ⟨offers, dealt, hoffered, (congrArg WorkSupply.dealt hsource).trans hserved.source,
    hserved.inOrder, ?_, hpending, hqueue, hslots⟩
  apply Multiset.coe_eq_coe.1
  show (completedIn (steps stop times w.lit).windUp.sink.events : Multiset Work) = _
  simp only [← Multiset.coe_add]
  calc (completedIn (steps stop times w.lit).windUp.sink.events : Multiset Work)
      = w.lit.items + (Offer.takenOf offers + (steps stop times w.lit).pending.toList) := by
        rw [hback, hserved.items]
        abel
    _ = w.lit.items + (w.pending.toList + dealt) := by
        rw [hline]
        rfl
    _ = completedIn w.sink.events + jobsHeld w.chain.chips + w.chain.queue + w.pending.toList +
          dealt := by
        rw [hlit]
        abel

end Worker

end HashBoard
