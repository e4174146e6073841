import HashBoard.Device.Error
import HashBoard.Device.Files

/-!
# Fan outputs

Each fan output is a directory of attribute files. The drive is inverted: what is written is the
time for which the output is off, so that full speed is written as 0. Arithmetic on periods is that
of 32-bit words, and a product that does not fit into one is not computed at all.
-/

namespace HashBoard.Device

/-- The product of two words, none if it does not fit into a word. -/
def product? (a b : UInt32) : Option UInt32 :=
  if a.toNat * b.toNat < UInt32.size then some (a * b) else none

/-- The nanoseconds of a period for which an output is off at a duty in percent; more than 100
percent counts as 100. There are none when the period times its share overflows. -/
def inactiveTime? (periodNs : UInt32) (percent : UInt8) : Option UInt32 :=
  (product? (100 - (min percent 100).toUInt32) periodNs).map (· / 100)

/-- Why an output did not take a duty. -/
inductive OutletFault where
  | device (cause : DeviceError)
  /-- The off-time overflowed, which nothing recovers from. -/
  | overflow
  deriving DecidableEq

/-! ### One output -/

structure FanOutlet where
  chip : UInt32
  periodNs : UInt32
  ready : Bool

namespace FanOutlet

def directory (o : FanOutlet) : String := s!"pwmchip{o.chip.toNat}"

def channelFile (o : FanOutlet) (name : String) : NodePath := [o.directory, "pwm0", name]

def writeFile (path : NodePath) (text : String) (files : Files) : Except DeviceError Files :=
  (files.write path text).mapError fun cause => .access path.text cause.message

/-- Ask the kernel for the channel; that fails when it is there already, which does not matter. -/
def offer (o : FanOutlet) (files : Files) : Files :=
  match files.write [o.directory, "export"] "0" with
  | .ok files => files
  | .error _ => files

def setUp (o : FanOutlet) (files : Files) : Except DeviceError Unit × FanOutlet × Files :=
  let files := o.offer files
  match writeFile (o.channelFile "period") (toString o.periodNs.toNat) files with
  | .error cause => (.error cause, o, files)
  | .ok files =>
    match writeFile (o.channelFile "enable") "1" files with
    | .error cause => (.error cause, o, files)
    | .ok files => (.ok (), { o with ready := true }, files)

def writeDuty (o : FanOutlet) (percent : UInt8) (files : Files) :
    Except OutletFault Unit × FanOutlet × Files :=
  match inactiveTime? o.periodNs percent with
  | none => (.error .overflow, o, files)
  | some time =>
    match writeFile (o.channelFile "duty_cycle") (toString time.toNat) files with
    | .error cause => (.error (.device cause), o, files)
    | .ok files => (.ok (), o, files)

/-- Set the duty of an output, which is set up first if that was not done yet. -/
def drive (o : FanOutlet) (percent : UInt8) (files : Files) :
    Except OutletFault Unit × FanOutlet × Files :=
  if o.ready then o.writeDuty percent files
  else
    match o.setUp files with
    | (.error cause, o, files) => (.error (.device cause), o, files)
    | (.ok (), o, files) => o.writeDuty percent files

end FanOutlet

/-! ### All outputs -/

structure FanGroup where
  outlets : List FanOutlet

namespace FanGroup

def start (chips : List UInt32) (periodNs : UInt32) : FanGroup :=
  ⟨chips.map fun chip => ⟨chip, periodNs, false⟩⟩

/-- Set the duty of outputs in order, up to the first that fails. -/
def driveAll (percent : UInt8) :
    List FanOutlet → Files → Except OutletFault Unit × List FanOutlet × Files
  | [], files => (.ok (), [], files)
  | o :: rest, files =>
    match o.drive percent files with
    | (.error cause, o, files) => (.error cause, o :: rest, files)
    | (.ok (), o, files) =>
      let (answer, rest, files) := driveAll percent rest files
      (answer, o :: rest, files)

def drive (b : FanGroup) (percent : UInt8) (files : Files) :
    Except OutletFault Unit × FanGroup × Files :=
  let (answer, outlets, files) := driveAll percent b.outlets files
  (answer, ⟨outlets⟩, files)

end FanGroup

end HashBoard.Device
