import HashBoard.Proofs.Single.Largest
import HashBoard.Proofs.Thermal.ReportHistory
import Mathlib.Data.List.Sort

/-!
# The view of a history of reports

The overview goes through its entries once and keeps the largest mean, its chain and the largest
maximum. For every history of reports with finite statistics that is the view the history asks for:
unknown as long as no chain is enabled or an enabled one owes its statistics, and otherwise the two
maxima over the enabled chains, with the first chain of those that share the largest mean.
-/

namespace HashBoard.Thermal

/-! ### Finite statistics -/

def Statistics.IsFinite (stats : Statistics) : Prop :=
  stats.mean.isFinite = true ∧ stats.max.isFinite = true

def Report.IsFinite : Report → Prop
  | .publish _ stats => stats.IsFinite
  | _ => True

theorem Statistics.IsFinite.mean {stats : Statistics} (h : stats.IsFinite) :
    stats.mean.isNaN = false := Single.isNaN_of_isFinite h.1

theorem Statistics.IsFinite.max {stats : Statistics} (h : stats.IsFinite) :
    stats.max.isNaN = false := Single.isNaN_of_isFinite h.2

/-! ### The two maxima -/

/-- The largest mean of some chains, with the first chain that has it. -/
structure IsHottest (current : UInt8 → Statistics → Prop) (hottest : UInt8)
    (control : Float32) : Prop where
  attained : ∃ stats, current hottest stats ∧ stats.mean = control
  le : ∀ chain stats, current chain stats → stats.mean ≤ control
  first : ∀ chain stats, current chain stats → chain < hottest → stats.mean < control

structure IsHighest (current : UInt8 → Statistics → Prop) (max : Float32) : Prop where
  attained : ∃ chain stats, current chain stats ∧ stats.max = max
  le : ∀ chain stats, current chain stats → stats.max ≤ max

/-- Some chains, and one more. -/
def Added (current : UInt8 → Statistics → Prop) (chain : UInt8) (stats : Statistics) :
    UInt8 → Statistics → Prop :=
  fun c s => current c s ∨ c = chain ∧ s = stats

section Added

variable {current : UInt8 → Statistics → Prop} {hottest chain : UInt8} {control max : Float32}
  {stats : Statistics}

theorem isHottest_one (hstats : stats.IsFinite) :
    IsHottest (Added (fun _ _ => False) chain stats) chain stats.mean where
  attained := ⟨stats, .inr ⟨rfl, rfl⟩, rfl⟩
  le := by
    rintro c s (h | ⟨_, rfl⟩)
    · exact h.elim
    · exact Single.le_self hstats.mean
  first := by
    rintro c s (h | ⟨rfl, _⟩) hlt
    · exact h.elim
    · exact absurd hlt (UInt8.lt_irrefl _)

theorem isHighest_one (hstats : stats.IsFinite) :
    IsHighest (Added (fun _ _ => False) chain stats) (Single.max Single.lowest stats.max) := by
  rw [Single.max_lowest hstats.2]
  refine ⟨⟨chain, stats, .inr ⟨rfl, rfl⟩, rfl⟩, ?_⟩
  rintro c s (h | ⟨_, rfl⟩)
  · exact h.elim
  · exact Single.le_self hstats.max

variable (hfinite : ∀ c s, current c s → s.IsFinite)

include hfinite

theorem IsHottest.isNaN (h : IsHottest current hottest control) : control.isNaN = false := by
  obtain ⟨s, hs, rfl⟩ := h.attained
  exact (hfinite _ s hs).mean

theorem IsHighest.isNaN (h : IsHighest current max) : max.isNaN = false := by
  obtain ⟨c, s, hs, rfl⟩ := h.attained
  exact (hfinite c s hs).max

theorem IsHottest.add_hotter (h : IsHottest current hottest control) (hstats : stats.IsFinite)
    (hlt : control < stats.mean) : IsHottest (Added current chain stats) chain stats.mean where
  attained := ⟨stats, .inr ⟨rfl, rfl⟩, rfl⟩
  le := by
    rintro c s (hold | ⟨_, rfl⟩)
    · exact Single.le_trans (h.le c s hold) (Single.le_of_lt (h.isNaN hfinite) hstats.mean hlt)
    · exact Single.le_self hstats.mean
  first := by
    rintro c s (hold | ⟨rfl, _⟩) hbefore
    · exact Single.lt_of_le_of_lt hstats.mean (h.le c s hold) hlt
    · exact absurd hbefore (UInt8.lt_irrefl _)

/-- A later chain with the same mean is not the first one. -/
theorem IsHottest.add_later (h : IsHottest current hottest control) (hstats : stats.IsFinite)
    (hlt : ¬control < stats.mean) (hlater : hottest < chain) :
    IsHottest (Added current chain stats) hottest control where
  attained := by
    obtain ⟨s, hs, hmean⟩ := h.attained
    exact ⟨s, .inl hs, hmean⟩
  le := by
    rintro c s (hold | ⟨_, rfl⟩)
    · exact h.le c s hold
    · exact Single.le_of_not_lt (h.isNaN hfinite) hstats.mean hlt
  first := by
    rintro c s (hold | ⟨rfl, _⟩) hbefore
    · exact h.first c s hold hbefore
    · exact absurd hbefore (UInt8.lt_asymm hlater)

theorem IsHighest.add (h : IsHighest current max) (hstats : stats.IsFinite) :
    IsHighest (Added current chain stats) (Single.max max stats.max) := by
  rcases Single.max_cases (h.isNaN hfinite) hstats.max with ⟨heq, hle⟩ | ⟨heq, hlt⟩
  · rw [heq]
    obtain ⟨c, s, hs, hmax⟩ := h.attained
    refine ⟨⟨c, s, .inl hs, hmax⟩, ?_⟩
    rintro c s (hold | ⟨_, rfl⟩)
    · exact h.le c s hold
    · exact hle
  · rw [heq]
    refine ⟨⟨chain, stats, .inr ⟨rfl, rfl⟩, rfl⟩, ?_⟩
    rintro c s (hold | ⟨_, rfl⟩)
    · exact Single.le_trans (h.le c s hold)
        (Single.le_of_lt (h.isNaN hfinite) hstats.max hlt)
    · exact Single.le_self hstats.max

end Added

namespace Overview

/-! ### One pass over the entries -/

/-- What the pass carries after the chains that `current` tells of. -/
def Gathered (current : UInt8 → Statistics → Prop) (max : Float32) :
    Option (UInt8 × Float32) → Prop
  | none => (∀ chain stats, ¬current chain stats) ∧ max = Single.lowest
  | some (hottest, control) => IsHottest current hottest control ∧ IsHighest current max

def hotter (chain : UInt8) (mean : Float32) :
    Option (UInt8 × Float32) → Option (UInt8 × Float32)
  | none => some (chain, mean)
  | some (c, largest) => if mean > largest then some (chain, mean) else some (c, largest)

theorem Gathered.add {current : UInt8 → Statistics → Prop} {max : Float32}
    {control : Option (UInt8 × Float32)} {chain : UInt8} {stats : Statistics}
    (h : Gathered current max control) (hfinite : ∀ c s, current c s → s.IsFinite)
    (hbefore : ∀ c s, current c s → c < chain) (hstats : stats.IsFinite) :
    Gathered (Added current chain stats) (Single.max max stats.max)
      (hotter chain stats.mean control) := by
  cases control with
  | none =>
    obtain ⟨hnone, rfl⟩ := h
    obtain rfl : current = fun _ _ => False := by
      funext c s
      exact eq_false (hnone c s)
    exact ⟨isHottest_one hstats, isHighest_one hstats⟩
  | some control =>
    obtain ⟨hottest, control⟩ := control
    obtain ⟨hhottest, hhighest⟩ := h
    have hmax : IsHighest (Added current chain stats) (Single.max max stats.max) :=
      hhighest.add hfinite hstats
    by_cases hlt : control < stats.mean
    · rw [hotter, if_pos hlt]
      exact ⟨hhottest.add_hotter hfinite hstats hlt, hmax⟩
    · rw [hotter, if_neg hlt]
      obtain ⟨s, hs, _⟩ := hhottest.attained
      exact ⟨hhottest.add_later hfinite hstats hlt (hbefore _ s hs), hmax⟩

/-- What the entries say of enabled chains that have published. -/
def Shows (entries : List (UInt8 × OverviewEntry)) (chain : UInt8) (stats : Statistics) : Prop :=
  ∃ entry, (chain, entry) ∈ entries ∧ entry.enabled = true ∧ entry.stats = some stats

section Pass

variable {max : Float32} {control : Option (UInt8 × Float32)}
  {entries rest : List (UInt8 × OverviewEntry)} {chain : UInt8} {entry : OverviewEntry}
  {stats : Statistics}

theorem viewFrom_cons_disabled (h : entry.enabled = false) :
    viewFrom max control ((chain, entry) :: rest) = viewFrom max control rest := by
  rw [viewFrom, h, if_neg Bool.false_ne_true]

theorem viewFrom_cons_owing (h : entry.enabled = true) (hstats : entry.stats = none) :
    viewFrom max control ((chain, entry) :: rest) = .unknown := by
  rw [viewFrom, h, if_pos rfl, hstats]

theorem viewFrom_cons_published (h : entry.enabled = true) (hstats : entry.stats = some stats) :
    viewFrom max control ((chain, entry) :: rest) =
      viewFrom (Single.max max stats.max) (hotter chain stats.mean control) rest := by
  rw [viewFrom, h, if_pos rfl, hstats]
  rfl

theorem hotter_ne_none (chain : UInt8) (mean : Float32) (control : Option (UInt8 × Float32)) :
    hotter chain mean control ≠ none := by
  cases control with
  | none => exact Option.some_ne_none _
  | some control =>
    rw [hotter]
    split <;> exact Option.some_ne_none _

theorem viewFrom_eq_unknown_iff :
    viewFrom max control entries = .unknown ↔
      (control = none ∧ ∀ e ∈ entries, e.2.enabled = false) ∨
        ∃ e ∈ entries, e.2.enabled = true ∧ e.2.stats = none := by
  induction entries generalizing max control with
  | nil =>
    cases control with
    | none => exact iff_of_true rfl (.inl ⟨rfl, nofun⟩)
    | some control =>
      refine iff_of_false nofun ?_
      rintro (⟨h, _⟩ | ⟨e, he, _⟩)
      · cases h
      · cases he
  | cons first rest ih =>
    obtain ⟨chain, entry⟩ := first
    simp only [List.forall_mem_cons, List.exists_mem_cons_iff]
    cases hon : entry.enabled with
    | false =>
      rw [viewFrom_cons_disabled hon, ih]
      simp only [true_and, Bool.false_eq_true, false_and, false_or]
    | true =>
      cases hstats : entry.stats with
      | none =>
        rw [viewFrom_cons_owing hon hstats]
        exact iff_of_true rfl (.inr (.inl ⟨rfl, rfl⟩))
      | some stats =>
        rw [viewFrom_cons_published hon hstats, ih]
        simp only [hotter_ne_none, Bool.true_eq_false, false_and, and_false, false_or,
          reduceCtorEq]

theorem or_shows_nil (current : UInt8 → Statistics → Prop) :
    (fun c s => current c s ∨ Shows [] c s) = current := by
  funext c s
  apply propext
  constructor
  · rintro (hold | ⟨e, he, _⟩)
    · exact hold
    · cases he
  · exact .inl

theorem shows_cons_disabled (h : entry.enabled = false) :
    Shows ((chain, entry) :: rest) = Shows rest := by
  funext c s
  apply propext
  constructor
  · rintro ⟨e, he, hon, hs⟩
    rcases List.mem_cons.1 he with heq | he
    · rw [(Prod.mk.inj heq).2, h] at hon
      cases hon
    · exact ⟨e, he, hon, hs⟩
  · rintro ⟨e, he, hon, hs⟩
    exact ⟨e, List.mem_cons_of_mem _ he, hon, hs⟩

theorem or_shows_cons (current : UInt8 → Statistics → Prop) (chain : UInt8)
    (rest : List (UInt8 × OverviewEntry)) (h : entry.enabled = true)
    (hstats : entry.stats = some stats) :
    (fun c s => current c s ∨ Shows ((chain, entry) :: rest) c s) =
      fun c s => Added current chain stats c s ∨ Shows rest c s := by
  funext c s
  apply propext
  constructor
  · rintro (hold | ⟨e, he, hon, hs⟩)
    · exact .inl (.inl hold)
    · rcases List.mem_cons.1 he with heq | he
      · obtain ⟨rfl, rfl⟩ := Prod.mk.inj heq
        rw [hstats] at hs
        exact .inl (.inr ⟨rfl, (Option.some.inj hs).symm⟩)
      · exact .inr ⟨e, he, hon, hs⟩
  · rintro ((hold | ⟨rfl, rfl⟩) | ⟨e, he, hon, hs⟩)
    · exact .inl hold
    · exact .inr ⟨entry, List.mem_cons_self, h, hstats⟩
    · exact .inr ⟨e, List.mem_cons_of_mem _ he, hon, hs⟩

theorem viewFrom_eq_known {current : UInt8 → Statistics → Prop} {top highest : Float32}
    {hottest : UInt8} (h : Gathered current max control)
    (hordered : entries.Pairwise fun a b => a.1 < b.1)
    (hbefore : ∀ c s, current c s → ∀ e ∈ entries, c < e.1)
    (hfinite : ∀ c s, current c s ∨ Shows entries c s → s.IsFinite)
    (hview : viewFrom max control entries = .known top highest hottest) :
    IsHottest (fun c s => current c s ∨ Shows entries c s) hottest top ∧
      IsHighest (fun c s => current c s ∨ Shows entries c s) highest := by
  induction entries generalizing max control current with
  | nil =>
    rw [or_shows_nil]
    cases control with
    | none => cases hview
    | some control =>
      obtain ⟨rfl, rfl, rfl⟩ := View.known.inj hview
      exact h
  | cons first rest ih =>
    obtain ⟨chain, entry⟩ := first
    obtain ⟨hfirst, hrest⟩ := List.pairwise_cons.1 hordered
    have hrestBefore : ∀ c s, current c s → ∀ e ∈ rest, c < e.1 :=
      fun c s hold e he => hbefore c s hold e (List.mem_cons_of_mem _ he)
    cases hon : entry.enabled with
    | false =>
      rw [viewFrom_cons_disabled hon] at hview
      rw [shows_cons_disabled hon] at hfinite ⊢
      exact ih h hrest hrestBefore hfinite hview
    | true =>
      cases hstats : entry.stats with
      | none =>
        rw [viewFrom_cons_owing hon hstats] at hview
        cases hview
      | some stats =>
        rw [viewFrom_cons_published hon hstats] at hview
        have hshows := or_shows_cons current chain rest hon hstats
        have hfinite' : ∀ c s, Added current chain stats c s ∨ Shows rest c s → s.IsFinite := by
          intro c s hs
          exact hfinite c s ((congrFun (congrFun hshows c) s).mpr hs)
        have hold : ∀ c s, current c s → s.IsFinite := fun c s hs => hfinite c s (.inl hs)
        have hadded := h.add hold (fun c s hs => hbefore c s hs _ List.mem_cons_self)
          (hfinite' chain stats (.inl (.inr ⟨rfl, rfl⟩)))
        rw [hshows]
        refine ih hadded hrest ?_ hfinite' hview
        rintro c s (hs | ⟨rfl, _⟩) e he
        · exact hrestBefore c s hs e he
        · exact hfirst e he

/-- Entries that are not enabled do not count. -/
theorem viewFrom_filter (max : Float32) (control : Option (UInt8 × Float32))
    (entries : List (UInt8 × OverviewEntry)) :
    viewFrom max control (entries.filter fun e => e.2.enabled) = viewFrom max control entries := by
  induction entries generalizing max control with
  | nil => rfl
  | cons first rest ih =>
    obtain ⟨chain, entry⟩ := first
    cases hon : entry.enabled with
    | false =>
      have hdrop : ((chain, entry) :: rest).filter (fun e => e.2.enabled) =
          rest.filter fun e => e.2.enabled :=
        List.filter_cons_of_neg (by rw [hon]; exact Bool.false_ne_true)
      rw [hdrop, ih, viewFrom_cons_disabled hon]
    | true =>
      have hkeep : ((chain, entry) :: rest).filter (fun e => e.2.enabled) =
          (chain, entry) :: rest.filter fun e => e.2.enabled := List.filter_cons_of_pos hon
      rw [hkeep]
      cases hstats : entry.stats with
      | none => rw [viewFrom_cons_owing hon hstats, viewFrom_cons_owing hon hstats]
      | some stats =>
        rw [viewFrom_cons_published hon hstats, viewFrom_cons_published hon hstats, ih]

end Pass

theorem Ordered.current_congr {o o' : Overview} (ho : o.Ordered) (ho' : o'.Ordered)
    (h : ∀ chain entry, entry.enabled = true →
      (o.entry? chain = some entry ↔ o'.entry? chain = some entry)) : o.current = o'.current := by
  have hsame : (o.entries.filter fun e => e.2.enabled) =
      o'.entries.filter fun e => e.2.enabled := by
    have hasymm : Std.Antisymm fun a b : UInt8 × OverviewEntry => a.1 < b.1 :=
      ⟨fun a b hab hba => absurd hba (UInt8.lt_asymm hab)⟩
    have hirrefl : Std.Irrefl fun a b : UInt8 × OverviewEntry => a.1 < b.1 :=
      ⟨fun a => UInt8.lt_irrefl a.1⟩
    refine (ho.filter _).eq_of_mem_iff (ho'.filter _) ?_
    rintro ⟨chain, entry⟩
    rw [List.mem_filter, List.mem_filter, ho.mem_iff, ho'.mem_iff]
    exact and_congr_left (h chain entry)
  rw [current, current, ← viewFrom_filter, hsame, viewFrom_filter]

/-! ### The view and the history -/

section History

variable {reports before after : List Report} {chain : UInt8}

theorem mem_hearAll (reports : List Report) (chain : UInt8) (entry : OverviewEntry) :
    (chain, entry) ∈ (empty.hearAll reports).entries ↔
      Overview.entry? (empty.hearAll reports) chain = some entry :=
  (ordered_empty.hearAll reports).mem_iff

theorem shows_hearAll (reports : List Report) (chain : UInt8) (stats : Statistics) :
    Shows (empty.hearAll reports).entries chain stats ↔
      Enabled chain reports ∧ Latest chain stats reports := by
  have htracks := tracks_hearAll chain reports
  constructor
  · rintro ⟨entry, he, hon, hstats⟩
    have henabled : Enabled chain reports := htracks.enabled.2 ⟨entry, (mem_hearAll ..).1 he, hon⟩
    exact ⟨henabled, (htracks.latest henabled stats).2 ⟨entry, (mem_hearAll ..).1 he, hstats⟩⟩
  · rintro ⟨henabled, hlatest⟩
    obtain ⟨entry, he, hon⟩ := htracks.enabled.1 henabled
    obtain ⟨entry', he', hstats⟩ := (htracks.latest henabled stats).1 hlatest
    obtain rfl := Option.some.inj (he.symm.trans he')
    exact ⟨entry, (mem_hearAll ..).2 he, hon, hstats⟩

theorem current_eq_unknown_iff (reports : List Report) :
    current (empty.hearAll reports) = .unknown ↔
      (∀ chain, ¬Enabled chain reports) ∨
        ∃ chain, Enabled chain reports ∧ ∀ stats, ¬Latest chain stats reports := by
  rw [current, viewFrom_eq_unknown_iff]
  constructor
  · rintro (⟨_, hoff⟩ | ⟨⟨chain, entry⟩, he, hon, hstats⟩)
    · left
      intro chain hon
      obtain ⟨entry, he, hentry⟩ := (tracks_hearAll chain reports).enabled.1 hon
      have hdisabled : entry.enabled = false := hoff _ ((mem_hearAll ..).2 he)
      rw [hdisabled] at hentry
      cases hentry
    · have htracks := tracks_hearAll chain reports
      have henabled : Enabled chain reports :=
        htracks.enabled.2 ⟨entry, (mem_hearAll ..).1 he, hon⟩
      refine .inr ⟨chain, henabled, ?_⟩
      intro stats hlatest
      obtain ⟨entry', he', hstats'⟩ := (htracks.latest henabled stats).1 hlatest
      obtain rfl := Option.some.inj (((mem_hearAll ..).1 he).symm.trans he')
      exact nomatch hstats.symm.trans hstats'
  · rintro (hoff | ⟨chain, henabled, hnone⟩)
    · refine .inl ⟨rfl, ?_⟩
      rintro ⟨chain, entry⟩ he
      cases hon : entry.enabled with
      | false => rfl
      | true =>
        have henabled := (tracks_hearAll chain reports).enabled.2
          ⟨entry, (mem_hearAll ..).1 he, hon⟩
        exact absurd henabled (hoff chain)
    · have htracks := tracks_hearAll chain reports
      obtain ⟨entry, he, hon⟩ := htracks.enabled.1 henabled
      refine .inr ⟨(chain, entry), (mem_hearAll ..).2 he, hon, ?_⟩
      cases hstats : entry.stats with
      | none => rfl
      | some stats =>
        exact absurd ((htracks.latest henabled stats).2 ⟨entry, he, hstats⟩) (hnone stats)

theorem current_eq_known (hfinite : ∀ report ∈ reports, report.IsFinite) {control max : Float32}
    {hottest : UInt8} (hview : current (empty.hearAll reports) = .known control max hottest) :
    IsHottest (fun c s => Enabled c reports ∧ Latest c s reports) hottest control ∧
      IsHighest (fun c s => Enabled c reports ∧ Latest c s reports) max := by
  have hshows : (fun c s => False ∨ Shows (empty.hearAll reports).entries c s) =
      fun c s => Enabled c reports ∧ Latest c s reports := by
    funext c s
    rw [false_or]
    exact propext (shows_hearAll reports c s)
  have hstart : Gathered (fun _ _ => False) Single.lowest none := ⟨fun _ _ => id, rfl⟩
  rw [← hshows]
  refine viewFrom_eq_known hstart (ordered_empty.hearAll reports)
    (fun _ _ => False.elim) ?_ hview
  rintro c s (h | h)
  · exact h.elim
  · obtain ⟨before, report, after, rfl, rfl, _⟩ := ((shows_hearAll reports c s).1 h).2
    exact hfinite _ (List.mem_append_right _ List.mem_cons_self)

/-! ### Chains that were disabled -/

theorem not_enabled_of_disable (hknown : Known chain before)
    (hafter : .register chain ∉ after) : ¬Enabled chain (before ++ .disable chain :: after) := by
  induction after using List.reverseRecOn with
  | nil =>
    intro hon
    rcases since_snoc.1 hon with (hr | ⟨⟨_, hp⟩, _⟩) | ⟨_, hends⟩
    · cases hr
    · cases hp
    · exact hends rfl
  | append_singleton after report ih =>
    have hsplit : before ++ Report.disable chain :: (after ++ [report]) =
        (before ++ Report.disable chain :: after) ++ [report] := by
      rw [List.append_assoc, List.cons_append]
    rw [hsplit]
    intro hon
    rcases since_snoc.1 hon with (hr | ⟨_, hunknown⟩) | ⟨hsince, _⟩
    · exact hafter (List.mem_append_right _ (List.mem_singleton.2 hr.symm))
    · exact hunknown (hknown.imp (List.mem_append_left _)
        fun ⟨stats, h⟩ => ⟨stats, List.mem_append_left _ h⟩)
    · exact ih (fun h => hafter (List.mem_append_left _ h)) hsince

theorem not_enabled_without (chain : UInt8) (reports : List Report) :
    ¬Enabled chain (reports.filter fun report => report.chain != chain) := by
  rintro ⟨before, report, after, heq, hdeclares, _⟩
  have hmem : report ∈ reports.filter fun report => report.chain != chain := by
    rw [heq]
    exact List.mem_append_right _ List.mem_cons_self
  have hother : report.chain ≠ chain := bne_iff_ne.1 (List.mem_filter.1 hmem).2
  rcases hdeclares with rfl | ⟨⟨stats, rfl⟩, _⟩
  · exact hother rfl
  · exact hother rfl

theorem entry?_without {o o' : Overview} (h : ∀ other, other ≠ chain →
    o.entry? other = o'.entry? other) (reports : List Report) :
    ∀ other, other ≠ chain → Overview.entry? (o.hearAll reports) other =
      Overview.entry? (o'.hearAll (reports.filter fun report => report.chain != chain)) other := by
  induction reports generalizing o o' with
  | nil => exact h
  | cons report rest ih =>
    by_cases hsame : report.chain = chain
    · have hdrop : (report :: rest).filter (fun report => report.chain != chain) =
          rest.filter fun report => report.chain != chain :=
        List.filter_cons_of_neg (by rw [hsame, bne_self_eq_false]; exact Bool.false_ne_true)
      rw [hdrop]
      refine ih ?_
      intro other hother
      rw [entry?_hear, if_neg (by rw [hsame]; exact hother.symm)]
      exact h other hother
    · have hkeep : (report :: rest).filter (fun report => report.chain != chain) =
          report :: rest.filter fun report => report.chain != chain :=
        List.filter_cons_of_pos (bne_iff_ne.2 hsame)
      rw [hkeep]
      refine ih ?_
      intro other hother
      rw [entry?_hear, entry?_hear, h _ hsame, h other hother]

theorem current_without (hoff : ¬Enabled chain reports) :
    current (empty.hearAll reports) =
      current (empty.hearAll (reports.filter fun report => report.chain != chain)) := by
  refine (ordered_empty.hearAll _).current_congr (ordered_empty.hearAll _) ?_
  intro other entry hon
  by_cases hsame : other = chain
  · subst hsame
    refine iff_of_false ?_ ?_
    · intro he
      exact hoff ((tracks_hearAll other reports).enabled.2 ⟨entry, he, hon⟩)
    · intro he
      exact not_enabled_without other reports
        ((tracks_hearAll other _).enabled.2 ⟨entry, he, hon⟩)
  · rw [entry?_without (fun _ _ => rfl) reports other hsame]

theorem hearAll_exchange (o : Overview) (before after : List Report) {report report' : Report}
    (hne : report.chain ≠ report'.chain) :
    o.hearAll (before ++ report :: report' :: after) =
      o.hearAll (before ++ report' :: report :: after) := by
  simp only [hearAll, List.foldl_append, List.foldl_cons]
  rw [hear_comm _ hne]

/-- The view of every history with finite statistics. Disabling takes effect on a chain that has
registered or published before. -/
theorem view_of_reports (hfinite : ∀ report ∈ reports, report.IsFinite) :
    (current (empty.hearAll reports) = .unknown ↔
        (∀ chain, ¬Enabled chain reports) ∨
          ∃ chain, Enabled chain reports ∧ ∀ stats, ¬Latest chain stats reports) ∧
      (∀ control max hottest, current (empty.hearAll reports) = .known control max hottest →
        IsHottest (fun c s => Enabled c reports ∧ Latest c s reports) hottest control ∧
          IsHighest (fun c s => Enabled c reports ∧ Latest c s reports) max) ∧
      (∀ before chain after, reports = before ++ .disable chain :: after → Known chain before →
        .register chain ∉ after → current (empty.hearAll reports) =
          current (empty.hearAll (reports.filter fun report => report.chain != chain))) ∧
      ∀ before report report' after, reports = before ++ report :: report' :: after →
        report.chain ≠ report'.chain →
        empty.hearAll reports = empty.hearAll (before ++ report' :: report :: after) := by
  refine ⟨current_eq_unknown_iff reports, ?_, ?_, ?_⟩
  · intro control max hottest hview
    exact current_eq_known hfinite hview
  · rintro before chain after rfl hknown hafter
    exact current_without (not_enabled_of_disable hknown hafter)
  · rintro before report report' after rfl hne
    exact hearAll_exchange empty before after hne

end History

/-- Statistics of a single reading. -/
def readingOf (celsius : Float32) : Statistics := ⟨celsius, celsius, celsius, celsius, 1⟩

/-- The chain that published first is disabled and publishes again. -/
def reportsOfTwoChains : List Report :=
  [.register 0, .publish 1 (readingOf 60), .publish 0 (readingOf 50), .disable 1,
    .publish 1 (readingOf 70)]

theorem isFinite_readingOf {celsius : Float32} (h : celsius.isFinite = true) :
    (readingOf celsius).IsFinite := ⟨h, h⟩

theorem view_of_reportsOfTwoChains :
    current (empty.hearAll reportsOfTwoChains) = .known 50 50 0 ∧
      IsHottest (fun c s => Enabled c reportsOfTwoChains ∧ Latest c s reportsOfTwoChains) 0 50 ∧
      current (empty.hearAll reportsOfTwoChains) =
        current (empty.hearAll (reportsOfTwoChains.filter fun report => report.chain != 1)) := by
  have hfinite : ∀ report ∈ reportsOfTwoChains, report.IsFinite := by
    refine List.forall_mem_cons.2 ⟨trivial, List.forall_mem_cons.2 ⟨?_, List.forall_mem_cons.2
      ⟨?_, List.forall_mem_cons.2 ⟨trivial, List.forall_mem_cons.2 ⟨?_, nofun⟩⟩⟩⟩⟩
    · exact isFinite_readingOf (by decide +kernel)
    · exact isFinite_readingOf (by decide +kernel)
    · exact isFinite_readingOf (by decide +kernel)
  have hview : current (empty.hearAll reportsOfTwoChains) = .known 50 50 0 := rfl
  obtain ⟨_, hknown, hdisabled, _⟩ := view_of_reports hfinite
  refine ⟨hview, (hknown _ _ _ hview).1, hdisabled
    [.register 0, .publish 1 (readingOf 60), .publish 0 (readingOf 50)] 1
    [.publish 1 (readingOf 70)] rfl ?_ ?_⟩
  · exact .inr ⟨readingOf 60, List.mem_cons_of_mem _ List.mem_cons_self⟩
  · intro h
    cases List.mem_singleton.1 h

/-- A chain that is disabled before it has registered or published is enabled by publishing. -/
theorem view_of_disabled_stranger :
    ¬∀ (before after : List Report) (chain : UInt8),
      (∀ report ∈ before ++ .disable chain :: after, report.IsFinite) →
      .register chain ∉ after →
      current (empty.hearAll (before ++ .disable chain :: after)) =
        current (empty.hearAll
          ((before ++ .disable chain :: after).filter fun report => report.chain != chain)) := by
  intro hnothing
  have hfinite : ∀ report ∈ [Report.disable 5, .publish 5 (readingOf 50)], report.IsFinite :=
    List.forall_mem_cons.2 ⟨trivial,
      List.forall_mem_cons.2 ⟨isFinite_readingOf (by decide +kernel), nofun⟩⟩
  have hshown : current (empty.hearAll [.disable 5, .publish 5 (readingOf 50)]) =
      .known 50 50 5 := rfl
  have hunknown : current (empty.hearAll
      ([Report.disable 5, .publish 5 (readingOf 50)].filter fun report => report.chain != 5)) =
      .unknown := rfl
  have hsame := hnothing [] [.publish 5 (readingOf 50)] 5 hfinite
    fun h => nomatch List.mem_singleton.1 h
  cases hshown.symm.trans (hsame.trans hunknown)

end Overview

end HashBoard.Thermal
