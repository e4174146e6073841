import HashBoard.Chain.Worker

/-!
# Filling the queue

A worker offers items to its chain until the source runs dry or the chain refuses one. The loop is
stated without a bound on its rounds; it ends because each item that the chain takes leaves less
room in its queue, whatever the source does.
-/

namespace HashBoard

structure Offer where
  work : Work
  taken : Bool

namespace Offer

def takenOf (offers : List Offer) : List Work := (offers.filter Offer.taken).map Offer.work

theorem takenOf_append (first second : List Offer) :
    takenOf (first ++ second) = takenOf first ++ takenOf second := by
  simp only [takenOf, List.filter_append, List.map_append]

end Offer

/-! ### Items in line -/

/-- Offers of items in line. Each offer is of the first item, and only an item that is taken makes
way for the next. -/
inductive Serves : List Work → List Offer → List Work → Prop
  | stop (line : List Work) : Serves line [] line
  | taken {work : Work} {line rest : List Work} {offers : List Offer}
      (h : Serves line offers rest) : Serves (work :: line) (⟨work, true⟩ :: offers) rest
  | refused {work : Work} {line rest : List Work} {offers : List Offer}
      (h : Serves (work :: line) offers rest) :
      Serves (work :: line) (⟨work, false⟩ :: offers) rest

namespace Serves

variable {line middle rest : List Work} {first second offers : List Offer}

theorem append (h1 : Serves line first middle) (h2 : Serves middle second rest) :
    Serves line (first ++ second) rest := by
  induction h1 with
  | stop line => exact h2
  | taken _ ih => exact .taken (ih h2)
  | refused _ ih => exact .refused (ih h2)

theorem joined (h : Serves line offers rest) (more : List Work) :
    Serves (line ++ more) offers (rest ++ more) := by
  induction h with
  | stop line => exact .stop _
  | taken _ ih => exact .taken ih
  | refused _ ih => exact .refused ih

theorem takenOf_append (h : Serves line offers rest) : Offer.takenOf offers ++ rest = line := by
  induction h with
  | stop line => rfl
  | taken _ ih => exact congrArg (_ :: ·) ih
  | refused _ ih => exact ih

end Serves

/-! ### Items from a source -/

namespace WorkSupply

/-- The items handed out so far, oldest first. -/
def dealt (s : WorkSupply) : List Work := (List.range s.requests).filterMap s.supply

theorem dealt_next (s : WorkSupply) : s.next.2.dealt = s.dealt ++ s.next.1.toList := by
  have hlast : [s.requests].filterMap s.supply = (s.supply s.requests).toList := by
    cases h : s.supply s.requests <;> simp [h]
  show (List.range (s.requests + 1)).filterMap s.supply = _
  rw [List.range_succ, List.filterMap_append, hlast]
  rfl

end WorkSupply

/-! ### The loop -/

namespace Worker

variable {τ : Type}

/-- The next item is the first in line: the one refused before, else a new one. -/
theorem nextItem_line {w w' : Worker τ} {item : Option Work} (h : w.nextItem = (item, w')) :
    ∃ items source, w' = { w with source, pending := none } ∧
      source.dealt = w.source.dealt ++ items ∧ item.toList = w.pending.toList ++ items := by
  obtain ⟨chain, source, sink, overview, thermal, pending, alarms⟩ := w
  cases pending with
  | some work =>
    obtain ⟨rfl, rfl⟩ := Prod.mk.inj h
    exact ⟨[], source, rfl, (List.append_nil _).symm, rfl⟩
  | none =>
    obtain ⟨rfl, rfl⟩ := Prod.mk.inj h
    exact ⟨source.next.1.toList, source.next.2, rfl, source.dealt_next, rfl⟩

/-- The rounds of the loop and the offers they make, to the end of the loop. -/
inductive Fills : Worker τ → List Offer → Worker τ → Prop
  | dry {w w' : Worker τ} (hnext : w.nextItem = (none, w')) : Fills w [] w'
  | refused {w w' : Worker τ} {work : Work} {chain : Chain τ}
      (hnext : w.nextItem = (some work, w')) (hoffer : w'.chain.offer work = (false, chain)) :
      Fills w [⟨work, false⟩] { w' with pending := some work }
  | taken {w w' filled : Worker τ} {work : Work} {chain : Chain τ} {offers : List Offer}
      (hnext : w.nextItem = (some work, w')) (hoffer : w'.chain.offer work = (true, chain))
      (hrest : Fills { w' with chain } offers filled) : Fills w (⟨work, true⟩ :: offers) filled

theorem offer_cases {c chain : Chain τ} {work : Work} {taken : Bool}
    (h : c.offer work = (taken, chain)) :
    (taken = false ∧ chain = c ∧ c.capacity ≤ c.queue.length) ∨
      (taken = true ∧ chain = { c with queue := c.queue ++ [work] } ∧
        c.queue.length < c.capacity) := by
  unfold Chain.offer at h
  by_cases hfull : c.capacity ≤ c.queue.length
  · rw [if_pos hfull] at h
    obtain ⟨rfl, rfl⟩ := Prod.mk.inj h
    exact .inl ⟨rfl, rfl, hfull⟩
  · rw [if_neg hfull] at h
    obtain ⟨rfl, rfl⟩ := Prod.mk.inj h
    exact .inr ⟨rfl, rfl, Nat.lt_of_not_le hfull⟩

theorem fillUpTo_fills {tries : Nat} (w : Worker τ)
    (h : w.chain.capacity - w.chain.queue.length < tries) :
    ∃ offers, Fills w offers (fillUpTo tries w) := by
  -- On the tries left: an item that is taken leaves less room.
  induction tries generalizing w with
  | zero => exact absurd h (Nat.not_lt_zero _)
  | succ tries ih =>
    unfold fillUpTo
    cases hnext : w.nextItem with
    | mk item w' =>
      cases item with
      | none => exact ⟨[], .dry hnext⟩
      | some work =>
        simp only
        cases hoffer : w'.chain.offer work with
        | mk taken chain =>
          cases taken with
          | false => exact ⟨_, .refused hnext hoffer⟩
          | true =>
            rcases offer_cases hoffer with ⟨hrefused, _⟩ | ⟨_, hchain, hroom⟩
            · cases hrefused
            · have hless : chain.capacity - chain.queue.length < tries := by
                have hcapacity : chain.capacity = w'.chain.capacity := by
                  rw [hchain]
                  rfl
                have hlength : chain.queue.length = w'.chain.queue.length + 1 := by
                  rw [hchain, List.length_append]
                  rfl
                have hsame : w'.chain = w.chain := by
                  obtain ⟨_, _, hframe, _⟩ := nextItem_line hnext
                  rw [hframe]
                rw [hsame] at hcapacity hlength hroom
                omega
              obtain ⟨offers, hrest⟩ := ih { w' with chain } hless
              exact ⟨_, .taken hnext hoffer hrest⟩

theorem fill_fills (w : Worker τ) : ∃ offers, Fills w offers w.fill :=
  fillUpTo_fills w (Nat.lt_succ_self _)

/-- Filling serves the items in line, those that the source hands out meanwhile among them, and puts
the ones taken in the queue. -/
theorem Fills.serves {w w' : Worker τ} {offers : List Offer} (h : Fills w offers w') :
    ∃ items source pending,
      w' = { w with
        chain := { w.chain with queue := w.chain.queue ++ Offer.takenOf offers }
        source, pending } ∧
      source.dealt = w.source.dealt ++ items ∧
      Serves (w.pending.toList ++ items) offers pending.toList := by
  induction h with
  | dry hnext =>
    obtain ⟨items, source, rfl, hdealt, hline⟩ := nextItem_line hnext
    refine ⟨items, source, none, ?_, hdealt, ?_⟩
    · rw [Offer.takenOf, List.filter_nil, List.map_nil, List.append_nil]
    · rw [← hline]
      exact .stop []
  | @refused w w' work chain hnext hoffer =>
    obtain ⟨items, source, rfl, hdealt, hline⟩ := nextItem_line hnext
    refine ⟨items, source, some work, ?_, hdealt, ?_⟩
    · have hnone : Offer.takenOf [⟨work, false⟩] = [] := rfl
      rw [hnone, List.append_nil]
    · rw [← hline]
      exact .refused (.stop [work])
  | @taken w w' filled work chain offers hnext hoffer hrest ih =>
    obtain ⟨items, source, rfl, hdealt, hline⟩ := nextItem_line hnext
    obtain ⟨later, source', pending, hfilled, hdealt', hserves⟩ := ih
    rcases offer_cases hoffer with ⟨hrefused, _⟩ | ⟨_, rfl, _⟩
    · cases hrefused
    · refine ⟨items ++ later, source', pending, ?_, ?_, ?_⟩
      · have hcons : Offer.takenOf (⟨work, true⟩ :: offers) = [work] ++ Offer.takenOf offers := rfl
        rw [hfilled, hcons, ← List.append_assoc]
      · rw [hdealt', hdealt, List.append_assoc]
      · rw [← List.append_assoc, ← hline]
        exact .taken hserves

end Worker

end HashBoard
