/-
The settings that one side of a connection operates with.

A record holds a value for every setting; `none` stands for no limit.
Parameters are taken over one by one (`receive`), later ones replacing
earlier ones, and `parameters` lists what a peer has to be told so that
it arrives at the same record. Only the flow control window and the
frame size are bounded.
-/
import Http2.Attempt
import Http2.Settings.Parameter

namespace Http2

/-- A value for every setting. -/
structure Settings where
  headerTableSize : UInt32 := 4096
  enablePush : Bool := true
  maxConcurrentStreams : Option UInt32 := none
  initialWindowSize : UInt32 := 65535
  maxFrameSize : UInt32 := 16384
  maxHeaderListSize : Option UInt32 := none
  deriving DecidableEq, Repr

namespace Settings

/-- Sets the initial window size, which has a bound. -/
def setInitialWindowSize (s : Settings) (value : UInt32) :
    Except Error Settings :=
  if Setting.initialWindowSize.allows value then
    .ok { s with initialWindowSize := value }
  else .error (.invalidArgument .initialWindowSize)

/-- Sets the largest frame size, which has two bounds. -/
def setMaxFrameSize (s : Settings) (value : UInt32) : Except Error Settings :=
  if Setting.maxFrameSize.allows value then
    .ok { s with maxFrameSize := value }
  else .error (.invalidArgument .maxFrameSize)

/-- Sets the value of a setting. Push is enabled by 1 and disabled by
any other value. -/
def set (s : Settings) (setting : Setting) (value : UInt32) :
    Except Error Settings :=
  match setting with
  | .headerTableSize => .ok { s with headerTableSize := value }
  | .enablePush => .ok { s with enablePush := value == 1 }
  | .maxConcurrentStreams => .ok { s with maxConcurrentStreams := some value }
  | .initialWindowSize => s.setInitialWindowSize value
  | .maxFrameSize => s.setMaxFrameSize value
  | .maxHeaderListSize => .ok { s with maxHeaderListSize := some value }

/-- Takes a parameter over. Unknown identifiers are passed over. -/
def receive (s : Settings) (p : Parameter) : Except Error Settings :=
  match Setting.ofCode? p.ident with
  | some setting => s.set setting p.value
  | none => .ok s

/-- Takes parameters over in order, up to the first that is refused. -/
def receiveAll (s : Settings) : List Parameter → Attempt Settings
  | [] => .ok s
  | p :: ps =>
    match s.receive p with
    | .error e => .refuse s e
    | .ok s => s.receiveAll ps

/-- A window size as a signed 32 bit number. -/
def signedWindow (value : UInt32) : Int := value.toInt32.toInt

/-- By how much the initial window grows from one record to another. -/
def windowGrowth (old new : Settings) : Int :=
  signedWindow new.initialWindowSize - signedWindow old.initialWindowSize

/-- Takes the parameters of a SETTINGS frame over, and tells by how much
the initial window grows. -/
def apply (s : Settings) (ps : Parameters) :
    Except (Refused Settings) (Settings × Int) := do
  let new ← s.receiveAll ps.toList
  return (new, s.windowGrowth new)

/-- The value of a setting, unless it is unlimited. -/
def get? (s : Settings) : Setting → Option UInt32
  | .headerTableSize => some s.headerTableSize
  | .enablePush => some (if s.enablePush then 1 else 0)
  | .maxConcurrentStreams => s.maxConcurrentStreams
  | .initialWindowSize => some s.initialWindowSize
  | .maxFrameSize => some s.maxFrameSize
  | .maxHeaderListSize => s.maxHeaderListSize

/-- The settings to announce with their values, in the order of the
identifiers. Unlimited ones are left out. -/
def announced (s : Settings) : List (Setting × UInt32) :=
  Setting.all.filterMap fun setting => (s.get? setting).map (setting, ·)

end Settings

end Http2
