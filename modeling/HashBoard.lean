import HashBoard.Chain.Table
import HashBoard.Chain.Worker
import HashBoard.Device.Board
import HashBoard.Device.Fans
import HashBoard.Error
import HashBoard.Main
import HashBoard.Sim.Trial
import HashBoard.Thermal.Fan
import HashBoard.Work.Decode
import HashBoard.Work.KnownAnswer
import HashBoard.Proofs.Bus.Exchange
import HashBoard.Proofs.Bus.Transcript
import HashBoard.Proofs.Bus.SentJobs
import HashBoard.Proofs.Chain.ScanSteps
import HashBoard.Proofs.Chain.Detected
import HashBoard.Proofs.Chain.Service
import HashBoard.Proofs.Chain.Conservation
import HashBoard.Proofs.Chain.Attribution
import HashBoard.Proofs.Thermal.FanAlarm
import HashBoard.Proofs.Single.Numbers
import HashBoard.Proofs.Single.Order
import HashBoard.Proofs.Thermal.Readings
import HashBoard.Proofs.Chain.Interlock
import HashBoard.Proofs.Thermal.FanDuty
import HashBoard.Proofs.Chain.Succession
import HashBoard.Proofs.Chain.Course
import HashBoard.Proofs.Chain.CoreAccount
import HashBoard.Proofs.Chain.Exclusion
import HashBoard.Proofs.Chain.HandedBack
import HashBoard.Proofs.Thermal.FanView
import HashBoard.Proofs.Chain.Phases
import HashBoard.Proofs.Bus.ResultFrames
import HashBoard.Proofs.Chain.ResultAccount
import HashBoard.Proofs.Chain.JobRecord
import HashBoard.Proofs.Chain.DispatchPass
import HashBoard.Proofs.Bus.Upkeep
import HashBoard.Proofs.Sim.Replies
import HashBoard.Proofs.Sim.Exchanges
import HashBoard.Proofs.Sim.Detected
import HashBoard.Proofs.Chip.MissedReads
import HashBoard.Proofs.Sim.Standings
import HashBoard.Proofs.Sim.FaultyScans
import HashBoard.Proofs.Sim.Tolerance
import HashBoard.Proofs.Capture.JobLabels
import HashBoard.Proofs.Single.Largest
import HashBoard.Proofs.Thermal.ChainView
import HashBoard.Proofs.Bus.WellFormed
import HashBoard.Proofs.Chain.InUse
import HashBoard.Proofs.Sim.CleanFrames
import HashBoard.Proofs.Sim.ExactDetection
import HashBoard.Proofs.Bus.ByteStreams
import HashBoard.Proofs.Capture.ResultLabels
import HashBoard.Proofs.Thermal.FanRefusals
import HashBoard.Proofs.Json.Numerals
import HashBoard.Proofs.Configuration.Accepted
import HashBoard.Proofs.Device.FanOutlets
import HashBoard.Proofs.Wire.BitwiseChecksum
import HashBoard.Proofs.Chain.DetectionOrder
import HashBoard.Proofs.Chain.QueueOrder
import HashBoard.Proofs.Chain.ReclaimComplete
import HashBoard.Proofs.Wire.WordErrors
import HashBoard.Proofs.Bus.FirstFailure
import HashBoard.Proofs.Bus.Polling
import HashBoard.Proofs.Bus.Attempts
import HashBoard.Proofs.Sim.ResultQueue
import HashBoard.Proofs.Chip.Histories
import HashBoard.Proofs.Device.InactiveTimes
import HashBoard.Proofs.Single.Exact
import HashBoard.Proofs.Single.Ranges
import HashBoard.Proofs.Thermal.DutyRange
import HashBoard.Proofs.Thermal.Summaries
import HashBoard.Proofs.Chain.ClockChoice
import HashBoard.Proofs.Configuration.Precedence
import HashBoard.Proofs.Chip.SlotLedger
import HashBoard.Proofs.Chain.Sampling
import HashBoard.Proofs.Single.Rounding
import HashBoard.Proofs.Single.Arithmetic
import HashBoard.Proofs.Single.Monotone
import HashBoard.Proofs.Thermal.Interpolation
