import HashBoard.Proofs.Thermal.FanView
import Mathlib.Data.List.Basic

/-!
# What the chains have reported

The overview keeps one entry for each chain. This module says what the entries are worth in terms of
the reports themselves: a chain is enabled from its registration on, or from its first publication,
until it is disabled, and its statistics are those it published last since it was registered.
Reports of different chains can be exchanged.
-/

namespace HashBoard.Thermal

/-! ### Reports -/

inductive Report where
  | register (chain : UInt8)
  | publish (chain : UInt8) (stats : Statistics)
  | disable (chain : UInt8)

namespace Report

def chain : Report → UInt8
  | register chain => chain
  | publish chain _ => chain
  | disable chain => chain

/-- What a report makes of the entry of its chain. -/
def update : Report → Option OverviewEntry → Option OverviewEntry
  | register _, _ => some { enabled := true, stats := none }
  | publish _ stats, entry =>
    some { enabled := entry.elim true OverviewEntry.enabled, stats := some stats }
  | disable _, entry => entry.map fun _ => { enabled := false, stats := none }

/-- Whether a report is news, given the entry of its chain. -/
def isNews : Report → Option OverviewEntry → Bool
  | register _, _ => false
  | publish _ _, _ => true
  | disable _, entry => entry.isSome

end Report

namespace Overview

def hear (o : Overview) : Report → Overview
  | .register chain => o.register chain
  | .publish chain stats => o.publish chain stats
  | .disable chain => o.disable chain

def hearAll (o : Overview) (reports : List Report) : Overview := reports.foldl hear o

/-! ### Entries by chain -/

section PutEntry

variable {chain other : UInt8} {entry entry' : OverviewEntry}

theorem putEntry_cons_of_lt {c : UInt8} {e : OverviewEntry} (h : chain < c)
    (rest : List (UInt8 × OverviewEntry)) :
    putEntry chain entry ((c, e) :: rest) = (chain, entry) :: (c, e) :: rest := if_pos h

theorem putEntry_cons_self (old : OverviewEntry) (rest : List (UInt8 × OverviewEntry)) :
    putEntry chain entry ((chain, old) :: rest) = (chain, entry) :: rest := by
  rw [putEntry, if_neg (UInt8.lt_irrefl chain), if_pos rfl]

theorem putEntry_cons_of_gt {c : UInt8} {e : OverviewEntry} (h : c < chain)
    (rest : List (UInt8 × OverviewEntry)) :
    putEntry chain entry ((c, e) :: rest) = (c, e) :: putEntry chain entry rest := by
  rw [putEntry, if_neg (UInt8.lt_asymm h), if_neg (UInt8.ne_of_lt h).symm]

theorem lt_or_eq_or_gt (a b : UInt8) : a < b ∨ a = b ∨ b < a := by
  by_cases h : a = b
  · exact .inr (.inl h)
  · exact (UInt8.lt_or_lt_of_ne h).imp id .inr

theorem find?_putEntry (entries : List (UInt8 × OverviewEntry)) :
    ((putEntry chain entry entries).find? fun e => e.1 == other) =
      if chain = other then some (chain, entry) else entries.find? fun e => e.1 == other := by
  have hfirst : ∀ rest : List (UInt8 × OverviewEntry),
      (((chain, entry) :: rest).find? fun e => e.1 == other) =
        if chain = other then some (chain, entry) else rest.find? fun e => e.1 == other := by
    intro rest
    rw [List.find?_cons]
    split
    · rename_i h
      rw [if_pos (beq_iff_eq.1 h)]
    · rename_i h
      rw [if_neg (beq_eq_false_iff_ne.1 h)]
  induction entries with
  | nil => exact hfirst []
  | cons first rest ih =>
    obtain ⟨c, e⟩ := first
    rcases lt_or_eq_or_gt chain c with hlt | rfl | hgt
    · rw [putEntry_cons_of_lt hlt, hfirst]
    · rw [putEntry_cons_self, hfirst, List.find?_cons]
      split
      · rfl
      · rename_i hne
        rw [beq_eq_false_iff_ne.2 hne]
    · rw [putEntry_cons_of_gt hgt, List.find?_cons, List.find?_cons, ih]
      split
      · rename_i h
        have hne : chain ≠ other := by
          rw [← beq_iff_eq.1 h]
          exact (UInt8.ne_of_lt hgt).symm
        rw [if_neg hne]
      · rfl

theorem putEntry_comm_of_lt (hlt : chain < other) (entries : List (UInt8 × OverviewEntry)) :
    putEntry chain entry (putEntry other entry' entries) =
      putEntry other entry' (putEntry chain entry entries) := by
  induction entries with
  | nil => exact (putEntry_cons_of_lt hlt []).trans (putEntry_cons_of_gt hlt []).symm
  | cons first rest ih =>
    obtain ⟨c, e⟩ := first
    rcases lt_or_eq_or_gt chain c with hbefore | rfl | hbehind
    · rw [putEntry_cons_of_lt hbefore,
        putEntry_cons_of_gt hlt]
      rcases lt_or_eq_or_gt other c with hbefore' | rfl | hbehind'
      · rw [putEntry_cons_of_lt hbefore', putEntry_cons_of_lt hlt]
      · rw [putEntry_cons_self, putEntry_cons_of_lt hlt]
      · rw [putEntry_cons_of_gt hbehind', putEntry_cons_of_lt hbefore]
    · rw [putEntry_cons_self, putEntry_cons_of_gt hlt, putEntry_cons_self, putEntry_cons_of_gt hlt]
    · have hbehind' : c < other := UInt8.lt_trans hbehind hlt
      rw [putEntry_cons_of_gt hbehind',
        putEntry_cons_of_gt hbehind, putEntry_cons_of_gt hbehind,
        putEntry_cons_of_gt hbehind', ih]

theorem putEntry_comm (hne : chain ≠ other) (entries : List (UInt8 × OverviewEntry)) :
    putEntry chain entry (putEntry other entry' entries) =
      putEntry other entry' (putEntry chain entry entries) := by
  rcases UInt8.lt_or_lt_of_ne hne with hlt | hlt
  · exact putEntry_comm_of_lt hlt entries
  · exact (putEntry_comm_of_lt hlt entries).symm

theorem pairwise_putEntry {entries : List (UInt8 × OverviewEntry)}
    (h : entries.Pairwise fun a b => a.1 < b.1) :
    (putEntry chain entry entries).Pairwise fun a b => a.1 < b.1 := by
  induction entries with
  | nil => exact List.pairwise_singleton _ _
  | cons first rest ih =>
    obtain ⟨hfirst, hrest⟩ := List.pairwise_cons.1 h
    obtain ⟨c, e⟩ := first
    rcases lt_or_eq_or_gt chain c with hlt | rfl | hgt
    · rw [putEntry_cons_of_lt hlt, List.pairwise_cons]
      refine ⟨?_, h⟩
      intro later hlater
      rcases List.mem_cons.1 hlater with rfl | hlater
      · exact hlt
      · exact UInt8.lt_trans hlt (hfirst later hlater)
    · rw [putEntry_cons_self, List.pairwise_cons]
      exact ⟨hfirst, hrest⟩
    · rw [putEntry_cons_of_gt hgt, List.pairwise_cons]
      refine ⟨?_, ih hrest⟩
      intro later hlater
      rcases mem_putEntry hlater with rfl | hlater
      · exact hgt
      · exact hfirst later hlater

end PutEntry

/-! ### One report -/

theorem entries_hear (o : Overview) (report : Report) :
    (o.hear report).entries =
      (report.update (o.entry? report.chain)).elim o.entries fun entry =>
        putEntry report.chain entry o.entries := by
  cases report with
  | register chain => rfl
  | publish chain stats => rfl
  | disable chain =>
    show (o.disable chain).entries = ((o.entry? chain).map _).elim o.entries _
    unfold disable
    cases o.entry? chain with
    | none => rfl
    | some entry => rfl

theorem fresh_hear (o : Overview) (report : Report) :
    (o.hear report).fresh = (o.fresh || report.isNews (o.entry? report.chain)) := by
  cases report with
  | register chain => exact (Bool.or_false _).symm
  | publish chain stats => exact (Bool.or_true _).symm
  | disable chain =>
    show (o.disable chain).fresh = (o.fresh || (o.entry? chain).isSome)
    unfold disable
    cases o.entry? chain with
    | none => exact (Bool.or_false _).symm
    | some entry => exact (Bool.or_true _).symm

/-- A report touches the entry of its chain and no other. -/
theorem entry?_hear (o : Overview) (report : Report) (other : UInt8) :
    entry? (o.hear report) other =
      if report.chain = other then report.update (o.entry? report.chain) else o.entry? other := by
  have hentry : entry? (o.hear report) other =
      ((o.hear report).entries.find? fun e => e.1 == other).map Prod.snd := rfl
  rw [hentry, entries_hear]
  cases hnew : report.update (o.entry? report.chain) with
  | some entry =>
    rw [Option.elim_some, find?_putEntry]
    split <;> rfl
  | none =>
    rw [Option.elim_none]
    split
    · -- Only a chain without an entry is left without one.
      rename_i hsame
      cases report with
      | disable chain =>
        rw [← hsame]
        exact Option.map_eq_none_iff.1 hnew
      | register chain => cases hnew
      | publish chain stats => cases hnew
    · rfl

theorem hear_comm (o : Overview) {report report' : Report} (hne : report.chain ≠ report'.chain) :
    (o.hear report).hear report' = (o.hear report').hear report := by
  have hkept : entry? (o.hear report) report'.chain = o.entry? report'.chain := by
    rw [entry?_hear, if_neg hne]
  have hkept' : entry? (o.hear report') report.chain = o.entry? report.chain := by
    rw [entry?_hear, if_neg hne.symm]
  have hentries : ((o.hear report).hear report').entries =
      ((o.hear report').hear report).entries := by
    rw [entries_hear, entries_hear (o.hear report'), hkept, hkept', entries_hear, entries_hear]
    cases report.update (o.entry? report.chain) with
    | none => rfl
    | some entry =>
      cases report'.update (o.entry? report'.chain) with
      | none => rfl
      | some entry' => exact putEntry_comm hne.symm o.entries
  have hfresh : ((o.hear report).hear report').fresh = ((o.hear report').hear report).fresh := by
    rw [fresh_hear, fresh_hear, fresh_hear, fresh_hear, hkept, hkept', Bool.or_right_comm]
  generalize (o.hear report).hear report' = left at hentries hfresh ⊢
  generalize (o.hear report').hear report = right at hentries hfresh ⊢
  obtain ⟨entries, fresh⟩ := left
  obtain ⟨entries', fresh'⟩ := right
  obtain rfl : entries = entries' := hentries
  obtain rfl : fresh = fresh' := hfresh
  rfl

/-! ### Entries in order -/

def Ordered (o : Overview) : Prop := o.entries.Pairwise fun a b => a.1 < b.1

theorem Ordered.hear {o : Overview} (h : o.Ordered) (report : Report) :
    (o.hear report).Ordered := by
  unfold Ordered
  rw [entries_hear]
  cases report.update (o.entry? report.chain) with
  | none => exact h
  | some entry => exact pairwise_putEntry h

theorem Ordered.hearAll {o : Overview} (h : o.Ordered) (reports : List Report) :
    (o.hearAll reports).Ordered := by
  induction reports generalizing o with
  | nil => exact h
  | cons report rest ih => exact ih (h.hear report)

theorem ordered_empty : empty.Ordered := List.Pairwise.nil

theorem Ordered.mem_iff {o : Overview} (h : o.Ordered) {chain : UInt8} {entry : OverviewEntry} :
    (chain, entry) ∈ o.entries ↔ o.entry? chain = some entry := by
  obtain ⟨entries, fresh⟩ := o
  show _ ↔ (entries.find? fun e => e.1 == chain).map Prod.snd = some entry
  change entries.Pairwise _ at h
  change (chain, entry) ∈ entries ↔ _
  induction entries with
  | nil => exact iff_of_false List.not_mem_nil nofun
  | cons first rest ih =>
    obtain ⟨hfirst, hrest⟩ := List.pairwise_cons.1 h
    obtain ⟨c, e⟩ := first
    rw [List.mem_cons, ih hrest, List.find?_cons]
    by_cases hsame : c = chain
    · subst hsame
      rw [beq_self_eq_true]
      constructor
      · rintro (heq | hfound)
        · rw [← (Prod.mk.inj heq).2]
          rfl
        · -- The entries behind belong to larger chains.
          have hlater := (ih hrest).2 hfound
          exact absurd (hfirst _ hlater) (UInt8.lt_irrefl c)
      · intro heq
        rw [← Option.some.inj heq]
        exact .inl rfl
    · rw [beq_eq_false_iff_ne.2 hsame]
      constructor
      · rintro (heq | hfound)
        · exact absurd (Prod.mk.inj heq).1.symm hsame
        · exact hfound
      · exact .inr

end Overview

/-! ### Histories -/

/-- Something has begun, and nothing since has ended it. What begins it may depend on the reports
before. -/
def Since (begins : List Report → Report → Prop) (ends : Report → Prop)
    (reports : List Report) : Prop :=
  ∃ before report after, reports = before ++ report :: after ∧ begins before report ∧
    ∀ later ∈ after, ¬ends later

theorem since_snoc {begins : List Report → Report → Prop} {ends : Report → Prop}
    {reports : List Report} {report : Report} :
    Since begins ends (reports ++ [report]) ↔
      begins reports report ∨ Since begins ends reports ∧ ¬ends report := by
  constructor
  · rintro ⟨before, first, after, heq, hbegins, hafter⟩
    rcases List.eq_nil_or_concat after with rfl | ⟨rest, last, rfl⟩
    · obtain ⟨rfl, hlast⟩ := List.append_inj' heq rfl
      obtain rfl := (List.cons.inj hlast).1
      exact .inl hbegins
    · rw [List.concat_eq_append] at heq hafter
      have hsplit : reports ++ [report] = (before ++ first :: rest) ++ [last] := by
        rw [heq, List.append_assoc, List.cons_append]
      obtain ⟨rfl, hlast⟩ := List.append_inj' hsplit rfl
      obtain rfl := (List.cons.inj hlast).1
      refine .inr ⟨⟨before, first, rest, rfl, hbegins, ?_⟩, ?_⟩
      · intro later hlater
        exact hafter later (List.mem_append_left _ hlater)
      · exact hafter report (List.mem_append_right _ List.mem_cons_self)
  · rintro (hbegins | ⟨⟨before, first, after, rfl, hbegins, hafter⟩, hends⟩)
    · exact ⟨reports, report, [], rfl, hbegins, nofun⟩
    · refine ⟨before, first, after ++ [report], ?_, hbegins, ?_⟩
      · rw [List.append_assoc, List.cons_append]
      · intro later hlater
        rcases List.mem_append.1 hlater with hlater | hlater
        · exact hafter later hlater
        · rw [List.mem_singleton.1 hlater]
          exact hends

theorem not_since_nil {begins : List Report → Report → Prop} {ends : Report → Prop} :
    ¬Since begins ends [] := by
  rintro ⟨before, report, after, heq, _⟩
  exact List.append_ne_nil_of_right_ne_nil before (List.cons_ne_nil _ _) heq.symm

section Chain

variable (chain : UInt8)

/-- The chain has registered or published. -/
def Known (reports : List Report) : Prop :=
  .register chain ∈ reports ∨ ∃ stats, .publish chain stats ∈ reports

/-- A chain that nothing is known of is registered by its first publication. -/
def Declares (before : List Report) (report : Report) : Prop :=
  report = .register chain ∨ (∃ stats, report = .publish chain stats) ∧ ¬Known chain before

/-- The chain was declared and has not been disabled since. -/
def Enabled (reports : List Report) : Prop :=
  Since (Declares chain) (fun report => report = .disable chain) reports

/-- What the chain has published last, if it has not been registered since. -/
def Latest (stats : Statistics) (reports : List Report) : Prop :=
  Since (fun _ report => report = .publish chain stats)
    (fun report => report = .register chain ∨ ∃ later, report = .publish chain later) reports

end Chain

section Snoc

variable {chain : UInt8} {reports : List Report} {report : Report}

theorem known_snoc : Known chain (reports ++ [report]) ↔
    Known chain reports ∨ report = .register chain ∨ ∃ stats, report = .publish chain stats := by
  constructor
  · rintro (h | ⟨stats, h⟩)
    · rcases List.mem_append.1 h with h | h
      · exact .inl (.inl h)
      · exact .inr (.inl (List.mem_singleton.1 h).symm)
    · rcases List.mem_append.1 h with h | h
      · exact .inl (.inr ⟨stats, h⟩)
      · exact .inr (.inr ⟨stats, (List.mem_singleton.1 h).symm⟩)
  · rintro ((h | ⟨stats, h⟩) | rfl | ⟨stats, rfl⟩)
    · exact .inl (List.mem_append_left _ h)
    · exact .inr ⟨stats, List.mem_append_left _ h⟩
    · exact .inl (List.mem_append_right _ List.mem_cons_self)
    · exact .inr ⟨stats, List.mem_append_right _ List.mem_cons_self⟩

/-! ### Entries and histories -/

/-- An entry says of a chain what its history does. The statistics of a chain that is not enabled do
not matter. -/
structure Tracks (chain : UInt8) (reports : List Report) (entry : Option OverviewEntry) : Prop where
  known : Known chain reports ↔ entry.isSome = true
  enabled : Enabled chain reports ↔ ∃ e, entry = some e ∧ e.enabled = true
  latest : Enabled chain reports → ∀ stats,
    Latest chain stats reports ↔ ∃ e, entry = some e ∧ e.stats = some stats

variable {entry : Option OverviewEntry}

theorem tracks_nil (chain : UInt8) : Tracks chain [] none where
  known := iff_of_false (by rintro (h | ⟨_, h⟩) <;> cases h) nofun
  enabled := iff_of_false not_since_nil nofun
  latest h := absurd h not_since_nil

theorem Tracks.other (h : Tracks chain reports entry) (hne : report.chain ≠ chain) :
    Tracks chain (reports ++ [report]) entry := by
  have hregister : report ≠ .register chain := fun heq => hne (congrArg Report.chain heq)
  have hpublish : ∀ stats, report ≠ .publish chain stats :=
    fun stats heq => hne (congrArg Report.chain heq)
  have hdisable : report ≠ .disable chain := fun heq => hne (congrArg Report.chain heq)
  have henabled : Enabled chain (reports ++ [report]) ↔ Enabled chain reports := by
    unfold Enabled
    rw [since_snoc]
    constructor
    · rintro ((hr | ⟨⟨stats, hp⟩, _⟩) | ⟨hsince, _⟩)
      · exact absurd hr hregister
      · exact absurd hp (hpublish stats)
      · exact hsince
    · exact fun hsince => .inr ⟨hsince, hdisable⟩
  refine ⟨?_, henabled.trans h.enabled, ?_⟩
  · rw [known_snoc, ← h.known]
    constructor
    · rintro (hk | hr | ⟨stats, hp⟩)
      · exact hk
      · exact absurd hr hregister
      · exact absurd hp (hpublish stats)
    · exact .inl
  · intro hon stats
    rw [← h.latest (henabled.1 hon) stats]
    unfold Latest
    rw [since_snoc]
    constructor
    · rintro (hp | ⟨hsince, _⟩)
      · exact absurd hp (hpublish stats)
      · exact hsince
    · intro hsince
      refine .inr ⟨hsince, ?_⟩
      rintro (hr | ⟨later, hp⟩)
      · exact hregister hr
      · exact hpublish later hp

theorem tracks_register (chain : UInt8) (reports : List Report) :
    Tracks chain (reports ++ [.register chain]) (some { enabled := true, stats := none }) where
  known := iff_of_true (known_snoc.2 (.inr (.inl rfl))) rfl
  enabled := iff_of_true (since_snoc.2 (.inl (.inl rfl))) ⟨_, rfl, rfl⟩
  latest := by
    intro _ stats
    refine iff_of_false ?_ ?_
    · intro hlatest
      rcases since_snoc.1 hlatest with hp | ⟨_, hends⟩
      · cases hp
      · exact hends (.inl rfl)
    · rintro ⟨e, heq, hstats⟩
      rw [← Option.some.inj heq] at hstats
      cases hstats

theorem Tracks.publish (h : Tracks chain reports entry) (stats : Statistics) :
    Tracks chain (reports ++ [.publish chain stats])
      (some { enabled := entry.elim true OverviewEntry.enabled, stats := some stats }) where
  known := iff_of_true (known_snoc.2 (.inr (.inr ⟨stats, rfl⟩))) rfl
  enabled := by
    unfold Enabled
    rw [since_snoc]
    have hold := h.enabled
    have hknown := h.known
    unfold Enabled at hold
    rw [hold]
    constructor
    · rintro ((hr | ⟨_, hunknown⟩) | ⟨⟨e, rfl, hon⟩, _⟩)
      · cases hr
      · cases entry with
        | none => exact ⟨_, rfl, rfl⟩
        | some e => exact absurd (hknown.2 rfl) hunknown
      · exact ⟨_, rfl, hon⟩
    · rintro ⟨e, heq, hon⟩
      obtain rfl := Option.some.inj heq
      cases entry with
      | none => exact .inl (.inr ⟨⟨stats, rfl⟩, fun hk => nomatch hknown.1 hk⟩)
      | some e => exact .inr ⟨⟨e, rfl, hon⟩, nofun⟩
  latest := by
    intro _ other
    unfold Latest
    rw [since_snoc]
    constructor
    · rintro (hp | ⟨_, hends⟩)
      · obtain ⟨_, rfl⟩ := Report.publish.inj hp
        exact ⟨_, rfl, rfl⟩
      · exact absurd (.inr ⟨stats, rfl⟩) hends
    · rintro ⟨e, heq, hstats⟩
      obtain rfl := Option.some.inj heq
      obtain rfl := Option.some.inj hstats
      exact .inl rfl

theorem Tracks.disable (h : Tracks chain reports entry) :
    Tracks chain (reports ++ [.disable chain])
      (entry.map fun _ => { enabled := false, stats := none }) := by
  have hoff : ¬Enabled chain (reports ++ [.disable chain]) := by
    intro hon
    rcases since_snoc.1 hon with (hr | ⟨⟨stats, hp⟩, _⟩) | ⟨_, hends⟩
    · cases hr
    · cases hp
    · exact hends rfl
  refine ⟨?_, iff_of_false hoff ?_, fun hon => absurd hon hoff⟩
  · rw [known_snoc, Option.isSome_map, ← h.known]
    constructor
    · rintro (hk | hr | ⟨stats, hp⟩)
      · exact hk
      · cases hr
      · cases hp
    · exact .inl
  · rintro ⟨e, heq, hon⟩
    obtain ⟨_, _, rfl⟩ := Option.map_eq_some_iff.1 heq
    cases hon

end Snoc

namespace Overview

theorem hearAll_snoc (o : Overview) (reports : List Report) (report : Report) :
    o.hearAll (reports ++ [report]) = (o.hearAll reports).hear report :=
  List.foldl_concat _ _ _ _

theorem tracks_hearAll (chain : UInt8) (reports : List Report) :
    Tracks chain reports (Overview.entry? (empty.hearAll reports) chain) := by
  induction reports using List.reverseRecOn with
  | nil => exact tracks_nil chain
  | append_singleton reports report ih =>
    rw [hearAll_snoc, entry?_hear]
    by_cases hsame : report.chain = chain
    · subst hsame
      rw [if_pos rfl]
      cases report with
      | register chain => exact tracks_register _ _
      | publish chain stats => exact ih.publish stats
      | disable chain => exact ih.disable
    · rw [if_neg hsame]
      exact ih.other hsame

end Overview

end HashBoard.Thermal
