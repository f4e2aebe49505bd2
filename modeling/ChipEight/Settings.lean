/-!
# Host settings

The values a host starts from, and the lines that show them.
-/
namespace ChipEight.Settings

/-- Instruction slots a second. -/
def slotsPerSecond : Nat := 60

/-- Timer ticks a second, whatever the instruction rate. -/
def ticksPerSecond : Nat := 60

/-- Instructions in a slot. -/
def slotLength : Nat := 10

def maxSlotsPerSecond : Nat := 144

def maxSlotLength : Nat := 50

def logCapacity : Nat := 1000

def inputEnabled : Bool := false

def screenshotScale : Nat := 8

def defaultCycles : Nat := 2000

def defaultDialect : String := "chip48"

/-- Seconds between two timer ticks. -/
def tickInterval : Float := 1.0 / Float.ofNat ticksPerSecond

def truthText (truth : Bool) : String := if truth then "True" else "False"

def categories : List (String × List (String × String)) :=
  [ ("Timing",
      [ ("ips", toString slotsPerSecond),
        ("timer_hz", toString ticksPerSecond),
        ("multiplier", toString slotLength),
        ("max_ips", toString maxSlotsPerSecond),
        ("max_multiplier", toString maxSlotLength) ]),
    ("Instance",
      [ ("instruction_log_max", toString logCapacity),
        ("input_enabled", truthText inputEnabled) ]),
    ("Output",
      [ ("screenshot_scale", toString screenshotScale),
        ("default_cycles", toString defaultCycles),
        ("default_quirks", defaultDialect) ]) ]

def describe : List String :=
  "Host settings:" :: categories.map fun (name, options) =>
    "  " ++ name ++ ": " ++
      ", ".intercalate (options.map fun (key, value) => key ++ "=" ++ value)

end ChipEight.Settings
