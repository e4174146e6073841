import HashBoard.Configuration.Basic

/-!
# Configuration files

The configuration in a JSON value. What is missing is as when nothing is set.
-/

namespace HashBoard

open Json

/-! ### Thermal settings -/

namespace Thermal

def Gains.decode? (j : Json) : Option Gains := do
  let s := Gains.standard
  let [kp, ki, kd, offset, limit] ← j.record? ["kp", "ki", "kd", "offset", "integral_limit"]
    | none
  return {
    kp := ← orElse? single? s.kp kp
    ki := ← orElse? single? s.ki ki
    kd := ← orElse? single? s.kd kd
    offset := ← orElse? single? s.offset offset
    integralLimit := ← orElse? single? s.integralLimit limit }

def BandSettings.decode? (j : Json) : Option BandSettings := do
  let s := BandSettings.standard
  let [high, low, highDuty, lowDuty] ← j.record? ["high_c", "low_c", "high_duty", "low_duty"]
    | none
  return {
    high := ← orElse? single? s.high high
    low := ← orElse? single? s.low low
    highDuty := ← orElse? byte? s.highDuty highDuty
    lowDuty := ← orElse? byte? s.lowDuty lowDuty }

def FanMode.decode? (j : Json) : Option FanMode := j.variant? FanMode.ofName?

def Settings.decode? (j : Json) : Option Settings := do
  let s := Settings.standard
  let [target, hot, danger, full, quick, trim, mode, speed, pid, band, warmUp, warmUpMin, minDuty,
      chips, period, tick] ←
    j.record? ["target_temperature_c", "hot_temperature_c", "danger_temperature_c",
      "full_sample_secs", "quick_sample_secs", "trim_fraction", "fan_mode", "manual_speed", "pid",
      "hysteresis", "warm_up_secs", "warm_up_min_duty", "min_duty", "pwm_chips", "pwm_period_ns",
      "fan_tick_ms"] | none
  return {
    target := ← orElse? single? s.target target
    hot := ← orElse? single? s.hot hot
    danger := ← orElse? single? s.danger danger
    fullSampleSecs := ← orElse? word64? s.fullSampleSecs full
    quickSampleSecs := ← orElse? word64? s.quickSampleSecs quick
    trim := ← orElse? single? s.trim trim
    fanMode := ← orElse? FanMode.decode? s.fanMode mode
    manualSpeed := ← orElse? byte? s.manualSpeed speed
    pid := ← orElse? Gains.decode? s.pid pid
    band := ← orElse? BandSettings.decode? s.band band
    warmUpSecs := ← orElse? word64? s.warmUpSecs warmUp
    warmUpMinDuty := ← orElse? byte? s.warmUpMinDuty warmUpMin
    minDuty := ← orElse? byte? s.minDuty minDuty
    pwmChips := ← orElse? (list? word32?) s.pwmChips chips
    pwmPeriodNs := ← orElse? word32? s.pwmPeriodNs period
    fanTickMs := ← orElse? word64? s.fanTickMs tick }

end Thermal

/-! ### Parts -/

def SettleTimes.decode? (j : Json) : Option SettleTimes := do
  let s := SettleTimes.standard
  let [reset, bist, pll] ← j.record? ["after_reset_ms", "after_bist_ms", "after_pll_ms"] | none
  return {
    afterResetMs := ← orElse? word64? s.afterResetMs reset
    afterBistMs := ← orElse? word64? s.afterBistMs bist
    afterPllMs := ← orElse? word64? s.afterPllMs pll }

def OwnSettings.decode? (j : Json) : Option OwnSettings := do
  let [spi, pins, mhz] ← j.record? ["spi", "pins", "target_mhz"] | none
  return {
    spi := ← orElse? (optional? Device.SpiSettings.decode?) Option.none spi
    pins := ← orElse? (optional? Device.ControlLines.decode?) Option.none pins
    targetMhz := ← orElse? (optional? word32?) Option.none mhz }

def ChainSet.decode? (j : Json) : Option ChainSet := j.text?.bind ChainSet.ofNames?

/-- Cooldown in seconds and disabling threshold in a JSON value. -/
def decodeHealth? (j : Json) : Option (Nat × Nat) := do
  let s := Configuration.standard
  let [cooldown, threshold] ← j.record? ["cooldown_secs", "disable_threshold"] | none
  return (← orElse? word64? s.cooldownSecs cooldown,
    (← orElse? (nat? 0xffffffff) s.disableThreshold threshold))

/-! ### The whole -/

namespace Configuration

def decode? (j : Json) : Option Configuration := do
  let s := standard
  let [generation, mask, mhz, vid, speed, limit, chains, timeout, maxBytes, detect, resetQueues,
      idle, summary, condition, thermal] ←
    j.record? ["generation", "chain_mask", "target_mhz", "vid_level", "spi_speed_hz", "chip_limit",
      "chains", "poll_timeout_ms", "poll_max_bytes", "detect", "reset_queues_on_flush",
      "idle_sleep_ms", "snapshot_interval_secs", "health", "thermal"] | none
  let (cooldownSecs, disableThreshold) ←
    orElse? decodeHealth? (s.cooldownSecs, s.disableThreshold) condition
  return {
    generation := ← orElse? text? s.generation generation
    chainSet := ← orElse? ChainSet.decode? s.chainSet mask
    targetMhz := ← orElse? word32? s.targetMhz mhz
    vidLevel := ← orElse? (optional? byte?) s.vidLevel vid
    spiSpeedHz := ← orElse? (optional? word32?) s.spiSpeedHz speed
    chipLimit := ← orElse? (optional? word64?) s.chipLimit limit
    chains := ← orElse? (byteTable? OwnSettings.decode?) s.chains chains
    pollTimeoutMs := ← orElse? word64? s.pollTimeoutMs timeout
    pollMaxBytes := ← orElse? (optional? word64?) s.pollMaxBytes maxBytes
    detect := ← orElse? SettleTimes.decode? s.detect detect
    resetQueuesOnReclaim := ← orElse? bool? s.resetQueuesOnReclaim resetQueues
    idleSleepMs := ← orElse? word64? s.idleSleepMs idle
    summaryIntervalSecs := ← orElse? word64? s.summaryIntervalSecs summary
    cooldownSecs := cooldownSecs
    disableThreshold := disableThreshold
    thermal := ← orElse? Thermal.Settings.decode? s.thermal thermal }

def ofJsonText (text : String) : Except ConfigurationError Configuration :=
  match (Json.parse? text).bind decode? with
  | some c => .ok c
  | none => .error (.parse "not a configuration")

end Configuration

end HashBoard
