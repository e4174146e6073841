import HashBoard.Chain.Basic
import HashBoard.Configuration.Basic

/-!
# Errors of the whole

Every error of the library, with the part it comes from named in front of its text.
-/

namespace HashBoard

inductive Error where
  | configuration (cause : ConfigurationError)
  | channel (cause : Wire.ChannelError)
  | protocol (cause : Wire.ExchangeError)
  | detection (cause : DetectionError)
  | chain (cause : OperationError)
  | hardware (cause : Device.DeviceError)
  | system (source : String)

def Error.message : Error → String
  | configuration cause => "configuration: " ++ cause.message
  | channel cause => "transport: " ++ cause.message
  | protocol cause => "protocol: " ++ cause.message
  | detection cause => "detection: " ++ cause.message
  | chain cause => "chain: " ++ cause.message
  | hardware cause => "hardware: " ++ cause.message
  | system source => "I/O error: " ++ source

end HashBoard
