import HashBoard.Proofs.Configuration.Precedence
import HashBoard.Proofs.Json.Numerals
import HashBoard.Proofs.Single.Largest

/-!
# Accepted configurations

A configuration is accepted when its generation is known, its limit, duties and level are in range,
and no threshold reaches the one above it. To the last of these a threshold that is no number never
objects. No file gives one, and of the variables only the one for the target temperature does, by
the word for it: the target of a loaded configuration is below the hot threshold or NaN, and the
hot threshold is always below the dangerous one.
-/

namespace HashBoard

/-! ### The check -/

namespace Configuration

/-- What the check asks for besides the order of the thresholds. -/
structure Bounded (c : Configuration) : Prop where
  generation : ∃ g, Generation.find? c.generation = some g
  chipLimit : ∀ limit, c.chipLimit = some limit → limit ≤ 64
  duties : ∀ duty ∈ duties c.thermal, duty ≤ 100
  vidLevel : ∀ level, c.vidLevel = some level → level ≤ 127

variable {c : Configuration}

theorem bounded_of_check (h : c.check = .ok ()) : c.Bounded := by
  unfold check knownGeneration at h
  cases hg : Generation.find? c.generation with
  | none =>
    rw [hg] at h
    cases h
  | some g =>
    rw [hg] at h
    have hlimit : ∀ limit, c.chipLimit = some limit → ¬Wire.longestChain < limit := by
      intro limit hc hhigh
      rw [hc] at h
      simp only [if_pos hhigh] at h
      cases h
    have hduty : ((duties c.thermal).find? fun duty => 100 < duty) = none := by
      cases hd : (duties c.thermal).find? fun duty => 100 < duty with
      | none => rfl
      | some duty =>
        rw [hd] at h
        cases hc : c.chipLimit with
        | none =>
          rw [hc] at h
          cases h
        | some limit =>
          rw [hc] at h
          simp only [if_neg (hlimit limit hc)] at h
          cases h
    have hlevel : ∀ level, c.vidLevel = some level → ¬Device.Regulator.maxLevel < level := by
      intro level hv hhigh
      rw [hduty, hv] at h
      simp only [if_pos hhigh] at h
      cases hc : c.chipLimit with
      | none =>
        rw [hc] at h
        cases h
      | some limit =>
        rw [hc] at h
        simp only [if_neg (hlimit limit hc)] at h
        cases h
    refine ⟨⟨g, hg⟩, ?_, ?_, ?_⟩
    · exact fun limit hc => Nat.not_lt.1 (hlimit limit hc)
    · simpa only [List.find?_eq_none, decide_eq_true_eq, UInt8.not_lt] using hduty
    · exact fun level hv => UInt8.not_lt.1 (hlevel level hv)

theorem check_of_bounded (h : c.Bounded) : c.check =
    if c.thermal.target ≥ c.thermal.hot || c.thermal.hot ≥ c.thermal.danger then
      .error (.thresholds c.thermal.target c.thermal.hot c.thermal.danger)
    else .ok () := by
  obtain ⟨⟨g, hg⟩, hlimit, hduties, hlevel⟩ := h
  have hduty : ((duties c.thermal).find? fun duty => 100 < duty) = none := by
    simpa only [List.find?_eq_none, decide_eq_true_eq, UInt8.not_lt] using hduties
  have hlimit : ∀ limit, c.chipLimit = some limit → ¬Wire.longestChain < limit :=
    fun limit hc => Nat.not_lt.2 (hlimit limit hc)
  have hlevel : ∀ level, c.vidLevel = some level → ¬Device.Regulator.maxLevel < level :=
    fun level hv => UInt8.not_lt.2 (hlevel level hv)
  unfold check knownGeneration
  rw [hg, hduty]
  cases hc : c.chipLimit with
  | none =>
    cases hv : c.vidLevel with
    | none => rfl
    | some level =>
      simp only [if_neg (hlevel level hv)]
      rfl
  | some limit =>
    simp only [if_neg (hlimit limit hc)]
    cases hv : c.vidLevel with
    | none => rfl
    | some level =>
      simp only [if_neg (hlevel level hv)]
      rfl

/-- A threshold that does not reach the next one is below it, or one of them is no number. -/
theorem not_ge_iff {a b : Float32} : ¬a ≥ b ↔ a < b ∨ a.isNaN = true ∨ b.isNaN = true := by
  cases ha : a.isNaN with
  | true =>
    refine iff_of_true (fun h => ?_) (.inr (.inl rfl))
    rw [(Single.not_isNaN_of_le h).2] at ha
    cases ha
  | false =>
    cases hb : b.isNaN with
    | true =>
      refine iff_of_true (fun h => ?_) (.inr (.inr rfl))
      rw [(Single.not_isNaN_of_le h).1] at hb
      cases hb
    | false =>
      rw [ge_iff_le, Single.le_iff_rank_le hb ha, Single.lt_iff_rank_lt ha hb, Int.not_le]
      simp only [Bool.false_eq_true, or_false]

theorem check_eq_ok_iff (c : Configuration) : c.check = .ok () ↔
    c.Bounded ∧ ¬c.thermal.target ≥ c.thermal.hot ∧ ¬c.thermal.hot ≥ c.thermal.danger := by
  constructor
  · intro h
    have hbounded := bounded_of_check h
    rw [check_of_bounded hbounded] at h
    refine ⟨hbounded, not_or.1 fun hreached => ?_⟩
    rw [if_pos (by simpa using hreached)] at h
    cases h
  · rintro ⟨hbounded, htarget, hhot⟩
    rw [check_of_bounded hbounded, if_neg]
    simpa using And.intro htarget hhot

end Configuration

/-! ### Files -/

namespace Thermal.Settings

/-- The thresholds are numbers. -/
structure Numeric (s : Settings) : Prop where
  target : s.target.isNaN = false
  hot : s.hot.isNaN = false
  danger : s.danger.isNaN = false

theorem numeric_standard : Settings.standard.Numeric :=
  ⟨by decide +kernel, by decide +kernel, by decide +kernel⟩

theorem isNaN_orElse {default x : Float32} {o : Option Json} (hdefault : default.isNaN = false)
    (h : Json.orElse? Json.single? default o = some x) : x.isNaN = false := by
  cases o with
  | none => exact Option.some.inj h ▸ hdefault
  | some j => exact Json.isNaN_single h

theorem numeric_of_decode {j : Json} {s : Settings} (h : decode? j = some s) : s.Numeric := by
  unfold decode? at h
  obtain ⟨fields, _, h⟩ := Option.bind_eq_some_iff.1 h
  split at h
  · obtain ⟨target, htarget, h⟩ := Option.bind_eq_some_iff.1 h
    obtain ⟨hot, hhot, h⟩ := Option.bind_eq_some_iff.1 h
    obtain ⟨danger, hdanger, h⟩ := Option.bind_eq_some_iff.1 h
    -- The other thirteen fields.
    iterate 13 obtain ⟨_, _, h⟩ := Option.bind_eq_some_iff.1 h
    obtain rfl := Option.some.inj h
    exact ⟨isNaN_orElse numeric_standard.target htarget, isNaN_orElse numeric_standard.hot hhot,
      isNaN_orElse numeric_standard.danger hdanger⟩
  · cases h

end Thermal.Settings

namespace Configuration

variable {c : Configuration}

theorem numeric_of_orElse {o : Option Json} {s : Thermal.Settings}
    (h : Json.orElse? Thermal.Settings.decode? .standard o = some s) : s.Numeric := by
  cases o with
  | none => exact Option.some.inj h ▸ Thermal.Settings.numeric_standard
  | some j => exact Thermal.Settings.numeric_of_decode h

theorem numeric_of_ofJsonText {text : String} (h : ofJsonText text = .ok c) :
    c.thermal.Numeric := by
  unfold ofJsonText at h
  cases hdecoded : (Json.parse? text).bind decode? with
  | none =>
    rw [hdecoded] at h
    cases h
  | some found =>
    rw [hdecoded] at h
    obtain rfl := Except.ok.inj h
    obtain ⟨j, _, hj⟩ := Option.bind_eq_some_iff.1 hdecoded
    unfold decode? at hj
    obtain ⟨fields, _, h⟩ := Option.bind_eq_some_iff.1 hj
    split at h
    · obtain ⟨health, _, h⟩ := Option.bind_eq_some_iff.1 h
      dsimp only at h
      -- The thermal settings come last.
      iterate 13 obtain ⟨_, _, h⟩ := Option.bind_eq_some_iff.1 h
      obtain ⟨thermal, hthermal, h⟩ := Option.bind_eq_some_iff.1 h
      obtain rfl := Option.some.inj h
      exact numeric_of_orElse hthermal
    · cases h

end Configuration

/-! ### Variables -/

/-- Only the word for it reads as NaN. -/
theorem Decimal.Literal.eq_notANumber {l : Literal} (h : l.toSingle.isNaN = true) :
    l = .notANumber := by
  cases l with
  | notANumber => rfl
  | infinite negative =>
    exfalso
    revert h negative
    decide +kernel
  | number negative digits power =>
    exfalso
    have hmagnitude : ∀ magnitude : Float32, magnitude.isNaN = false →
        (if negative then -magnitude else magnitude).isNaN = false := by
      intro magnitude hm
      split
      · exact Single.isNaN_neg hm
      · exact hm
    refine Bool.false_ne_true (Eq.trans (hmagnitude _ ?_).symm h)
    split
    · decide +kernel
    · decide +kernel
    · exact Single.isNaN_ofScientific _ _ _

namespace Configuration

variable {c after : Configuration} {e : Environment}

def thresholds (c : Configuration) : Float32 × Float32 × Float32 :=
  (c.thermal.target, c.thermal.hot, c.thermal.danger)

theorem literal_of_target {t : Float32}
    (h : e.Gives "MUJINA_TARGET_TEMP" Environment.readSingle (some t)) :
    ∃ text literal, e.text? "MUJINA_TARGET_TEMP" = some text ∧
      Decimal.Literal.read (Text.trim text).toList = .ok literal ∧ t = literal.toSingle := by
  obtain ⟨text, htext, h⟩ := h
  unfold Environment.readSingle at h
  cases hread : Decimal.Literal.read (Text.trim text).toList with
  | error cause =>
    simp only [hread] at h
    cases h
  | ok literal =>
    simp only [hread] at h
    exact ⟨text, literal, htext, hread, (Except.ok.inj h).symm⟩

/-- Of the thresholds the variables change the target only. -/
theorem thresholds_of_applyEnvironment (h : c.applyEnvironment e = .ok after) :
    after.thresholds = c.thresholds ∨ ∃ text literal,
      e.text? "MUJINA_TARGET_TEMP" = some text ∧
        Decimal.Literal.read (Text.trim text).toList = .ok literal ∧
        after.thresholds = (literal.toSingle, c.thermal.hot, c.thermal.danger) := by
  obtain ⟨o, ho, rfl⟩ := applyEnvironment_eq_ok_iff.1 h
  have hgives := ho.target
  cases htarget : o.target with
  | none =>
    left
    simp [thresholds, Overrides.apply, htarget]
  | some t =>
    rw [htarget] at hgives
    obtain ⟨text, literal, htext, hread, rfl⟩ := literal_of_target hgives
    right
    exact ⟨text, literal, htext, hread, by simp [thresholds, Overrides.apply, htarget]⟩

theorem load_eq_ok {readFile : Option String → Except ConfigurationError String}
    (h : load e readFile = .ok c) :
    ∃ base : Configuration, base.thermal.Numeric ∧ base.applyEnvironment e = .ok c ∧
      c.check = .ok () := by
  have hrest (base : Configuration) (hbase : (do
      let after ← base.applyEnvironment e
      after.check
      return after) = .ok c) : base.applyEnvironment e = .ok c ∧ c.check = .ok () := by
    obtain ⟨after, hafter, hbase⟩ := ok_of_bind hbase
    obtain ⟨_, hcheck, hbase⟩ := ok_of_bind hbase
    obtain rfl := Except.ok.inj hbase
    exact ⟨hafter, hcheck⟩
  unfold load at h
  dsimp only at h
  split at h
  · obtain ⟨text, _, h⟩ := ok_of_bind h
    obtain ⟨base, hbase, h⟩ := ok_of_bind h
    exact ⟨base, numeric_of_ofJsonText hbase, hrest base h⟩
  · exact ⟨standard, Thermal.Settings.numeric_standard, hrest standard h⟩

/-- A configuration is accepted exactly when its generation, limit, duties and level are in range
and each threshold is below the next one or one of the two is no number. For a loaded one the last
holds in one place only: its target may be NaN, by a variable that says so. -/
theorem accepted_iff (c : Configuration) :
    (c.check = .ok () ↔ c.Bounded ∧
      (c.thermal.target < c.thermal.hot ∨ c.thermal.target.isNaN = true ∨
        c.thermal.hot.isNaN = true) ∧
      (c.thermal.hot < c.thermal.danger ∨ c.thermal.hot.isNaN = true ∨
        c.thermal.danger.isNaN = true)) ∧
    ∀ e readFile, load e readFile = .ok c →
      c.check = .ok () ∧ c.thermal.hot < c.thermal.danger ∧
        (c.thermal.target < c.thermal.hot ∨
          c.thermal.target.isNaN = true ∧ ∃ text, e.text? "MUJINA_TARGET_TEMP" = some text ∧
            Decimal.Literal.read (Text.trim text).toList = .ok .notANumber) := by
  have haccepted := c.check_eq_ok_iff
  rw [not_ge_iff, not_ge_iff] at haccepted
  refine ⟨haccepted, ?_⟩
  intro e readFile hload
  obtain ⟨base, hnumeric, hafter, hcheck⟩ := load_eq_ok hload
  obtain ⟨_, htarget, hhot⟩ := haccepted.1 hcheck
  have hthresholds := thresholds_of_applyEnvironment hafter
  have hkept : c.thermal.hot = base.thermal.hot ∧ c.thermal.danger = base.thermal.danger := by
    rcases hthresholds with heq | ⟨_, _, _, _, heq⟩
    · exact ⟨congrArg (·.2.1) heq, congrArg (·.2.2) heq⟩
    · exact ⟨congrArg (·.2.1) heq, congrArg (·.2.2) heq⟩
  have hhotNumber : c.thermal.hot.isNaN = false := hkept.1 ▸ hnumeric.hot
  have hdangerNumber : c.thermal.danger.isNaN = false := hkept.2 ▸ hnumeric.danger
  simp only [hhotNumber, hdangerNumber, Bool.false_eq_true, or_false] at htarget hhot
  refine ⟨hcheck, hhot, htarget.imp id fun hnan => ⟨hnan, ?_⟩⟩
  rcases hthresholds with heq | ⟨text, literal, htext, hread, heq⟩
  · have hsame : c.thermal.target = base.thermal.target := congrArg Prod.fst heq
    rw [hsame, hnumeric.target] at hnan
    cases hnan
  · have hliteral : c.thermal.target = literal.toSingle := congrArg Prod.fst heq
    rw [hliteral] at hnan
    obtain rfl := Decimal.Literal.eq_notANumber hnan
    exact ⟨text, htext, hread⟩

/-- A target temperature that is spelled out as no number. -/
def targetOfNaN : Environment := ⟨[("MUJINA_TARGET_TEMP", some "nan")]⟩

/-- Without a file this is all that is set. The configuration is accepted. -/
theorem accepted_iff_of_target_nan :
    ∃ c, load targetOfNaN (fun _ => .error (.parse "no file")) = .ok c ∧ c.check = .ok () ∧
      c.thermal.hot < c.thermal.danger ∧ c.thermal.target.isNaN = true := by
  have hnan : ((load targetOfNaN fun _ => .error (.parse "no file")).toOption.any
      fun c => c.thermal.target.isNaN) = true := by decide +kernel
  cases hload : load targetOfNaN fun _ => .error (.parse "no file") with
  | error cause =>
    rw [hload] at hnan
    cases hnan
  | ok c =>
    rw [hload] at hnan
    obtain ⟨hcheck, hrising, _⟩ := (accepted_iff c).2 _ _ hload
    exact ⟨c, rfl, hcheck, hrising, hnan⟩

end Configuration

end HashBoard
