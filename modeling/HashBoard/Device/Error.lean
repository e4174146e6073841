/-!
# Hardware errors

The causes of a failed pin, fan or regulator operation, each with its text.
-/

namespace HashBoard.Device

inductive DeviceError where
  | access (path source : String)
  | invalidParameter (text : String)
  | request (path source : String)
  deriving DecidableEq

def DeviceError.message : DeviceError → String
  | .access path source => s!"I/O error on {path}: {source}"
  | .invalidParameter text => s!"Invalid parameter: {text}"
  | .request path source => s!"ioctl on {path} failed: {source}"

end HashBoard.Device
