import HashBoard.Device.Error

/-!
# The power line of a chain

The supply and the status light of a chain, as the chain holds them. What is asked of the line is
kept, latest first, and its answer may depend on all of it.
-/

namespace HashBoard

inductive PowerCall where
  | off
  /-- Light up while mining, go dark afterwards. -/
  | led (lit : Bool)
  deriving DecidableEq

def PowerCall.text : PowerCall → String
  | off => "off"
  | led lit => if lit then "led on" else "led off"

structure PowerLine where
  respond : List PowerCall → PowerCall → Except Device.DeviceError Unit
  /-- The requests made, latest first. -/
  calls : List PowerCall

namespace PowerLine

def ask (p : PowerLine) (call : PowerCall) : Except Device.DeviceError Unit × PowerLine :=
  (p.respond p.calls call, { p with calls := call :: p.calls })

@[simp] theorem ask_calls (p : PowerLine) (call : PowerCall) :
    (p.ask call).2.calls = call :: p.calls := rfl

end PowerLine

end HashBoard
