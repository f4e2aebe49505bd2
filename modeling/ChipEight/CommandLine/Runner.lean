import ChipEight.CommandLine.Abort
import ChipEight.CommandLine.Arguments
import ChipEight.Machine.Host
import ChipEight.Settings

/-!
# The running command

Runs a program file without a window: a number of instructions with timer ticks in between, then a
screenshot if one is wanted and a summary. The run ends early on a stack fault and when the
program has halted.
-/
namespace ChipEight.CommandLine.Runner

/-- An option is `none`, and the seed bare, if it was given without a value. -/
structure Options where
  file : String
  dialect : Option Dialect
  cycles : Option Int
  instructionsPerSecond : Option Int
  seed : Setting Int
  screenshot : Option String
  scale : Option Int
  trace : Bool
  debug : Bool
  deriving DecidableEq, Repr

def specs : List OptionSpec :=
  [ ⟨"--quirks", .choice Dialect.presetNames⟩, ⟨"--cycles", .integer⟩, ⟨"--ips", .integer⟩,
    ⟨"--seed", .integer⟩, ⟨"--screenshot", .text⟩, ⟨"--scale", .integer⟩, ⟨"--trace", .flag⟩,
    ⟨"--debug", .flag⟩ ]

/-- Only names of dialects are accepted as a value. -/
def dialectOf (arguments : Arguments) : Except UsageError (Option Dialect) :=
  match (arguments.setting "--quirks").withDefault Settings.defaultDialect with
  | none => .ok none
  | some preset =>
    match Dialect.preset preset with
    | .error _ => .error (.invalidValue "--quirks" preset)
    | .ok dialect => .ok (some dialect)

def Options.parse (argv : List String) : Except UsageError Options := do
  let (file, arguments) ← Arguments.parse specs argv
  return {
    file
    dialect := ← dialectOf arguments
    cycles := (arguments.integer "--cycles").withDefault Settings.defaultCycles
    instructionsPerSecond := (arguments.integer "--ips").withDefault
      (Settings.slotsPerSecond * Settings.slotLength : Nat)
    seed := arguments.integer "--seed"
    screenshot := arguments.text? "--screenshot"
    scale := (arguments.integer "--scale").withDefault Settings.screenshotScale
    trace := arguments.has "--trace"
    debug := arguments.has "--debug" }

/-- What a run goes by. -/
structure Course where
  cycles : Int
  instructionsPerSecond : Int
  trace : Bool
  debug : Bool

def Options.course (options : Options) : Except Abort Course :=
  match options.instructionsPerSecond, options.cycles with
  | none, _ => .error (.noValue .instructionRate)
  | some _, none => .error (.noValue .cycles)
  | some instructionsPerSecond, some cycles =>
    .ok { cycles, instructionsPerSecond, trace := options.trace, debug := options.debug }

/-- The machine to run the program on. Without a seed of its own it starts from `seed`. -/
def Options.machine (options : Options) (seed : Int) : Except Abort Machine :=
  match options.dialect, options.seed.withDefault seed with
  | none, _ => .error (.noValue .dialect)
  | some _, none => .error (.noValue .seed)
  | some dialect, some seed => .ok (.initial dialect seed)

/-- A machine on its way, with the numbers of completed instructions and of timer ticks, and the
lines printed. -/
structure Progress where
  machine : Machine
  executed : Nat
  ticks : Nat
  fault : Option StackFault
  lines : Array String

/-- Completed instructions between two timer ticks. -/
def Course.tickPeriod (course : Course) : Nat :=
  (max 1 (course.instructionsPerSecond / Settings.ticksPerSecond)).toNat

/-- One tick after every `period` completed instructions. -/
def Progress.tickIfDue (progress : Progress) (period : Nat) : Progress :=
  if progress.executed % period = 0 then
    { progress with machine := progress.machine.tick, ticks := progress.ticks + 1 }
  else progress

/-- Up to `cycles` more instructions. -/
def advance (course : Course) : Nat → Progress → Progress
  | 0, progress => progress
  | cycles + 1, progress =>
    let outcome := progress.machine.step
    let lines := progress.lines ++ Diagnostic.shown course.debug outcome.notes
    match outcome.fault with
    | some fault => { progress with machine := outcome.machine, fault := some fault, lines }
    | none =>
      let lines := if course.trace then lines.push outcome.machine.instructionText else lines
      let stepped : Progress :=
        { progress with machine := outcome.machine, executed := progress.executed + 1, lines }
      let next := stepped.tickIfDue course.tickPeriod
      if next.machine.cpu.halted then next else advance course cycles next

/-- All cycles from a loaded machine on; none if their number is not positive. -/
def run (course : Course) (machine : Machine) : Progress :=
  advance course course.cycles.toNat ⟨machine, 0, 0, none, #[]⟩

/-- Seconds with three decimals. -/
def secondsText (milliseconds : Nat) : String :=
  let fraction := toString (milliseconds % 1000)
  toString (milliseconds / 1000) ++ "." ++
    String.ofList (List.replicate (3 - fraction.length) '0') ++ fraction

def summary (progress : Progress) (milliseconds : Nat) : String :=
  "Headless run complete: cycles=" ++ toString progress.executed ++
    ", elapsed=" ++ secondsText milliseconds ++ "s" ++
    ", pc=0x" ++ Text.Hex.ofNat 3 progress.machine.cpu.pc.toNat ++
    ", lit=" ++ toString progress.machine.screen.litCount ++
    ", halted=" ++ Settings.truthText progress.machine.cpu.halted

/-- Lines for standard output, an exit status, a screenshot to be written, and what ended the
command before its time. -/
structure Report where
  lines : List String
  status : Nat
  screenshot : Option (Screenshot Raster) := none
  abort : Option Abort := none

def aborted (lines : List String) (abort : Abort) : Report :=
  { lines, status := 1, abort := some abort }

/-- The screenshot that was asked for, if it could be taken, and the lines about it. -/
def screenshot (directory : Directory) (options : Options) (screen : Screen) :
    Except Abort (Option (Screenshot Raster) × List String) :=
  match options.screenshot, options.scale with
  | none, _ => .ok (none, [])
  | some _, none => .error (.noValue .scale)
  | some name, some scale =>
    match screen.screenshot Raster.library directory name scale with
    | .ok taken =>
      .ok (some taken, Diagnostic.shown options.debug [.screenshotSaved taken.name] ++
        ["Screenshot saved as: " ++ taken.name.text])
    | .error (.image failure) => .error (.image failure)
    | .error (.file error) =>
      match Abort.ofFileError? error with
      | some abort => .error abort
      | none => .ok (none, ["Error saving screenshot: " ++ error.message])

def finish (directory : Directory) (options : Options) (progress : Progress) (milliseconds : Nat) :
    Report :=
  match screenshot directory options progress.machine.screen with
  | .error abort => aborted progress.lines.toList abort
  | .ok (taken, lines) =>
    let ending := match progress.fault with
      | some fault => ["Stopped on fault: " ++ fault.message]
      | none => []
    { lines := progress.lines.toList ++ lines ++ [summary progress milliseconds] ++ ending
      status := if progress.fault.isSome then 1 else 0
      screenshot := taken }

def settingLines (options : Options) : List String :=
  if options.debug then Settings.describe else []

/-- The lines that precede the run. -/
def opening (options : Options) (loading : Machine.Response) : List String :=
  settingLines options ++ Diagnostic.shown options.debug loading.notes

/-- The end of a command whose file could not be loaded. -/
def notLoaded (options : Options) (loading : Machine.Response) (failure : Failure) : Report :=
  match Abort.ofFailure? failure with
  | some abort => aborted (opening options loading) abort
  | none =>
    let line := "Failed to load ROM: " ++ options.file ++ " (" ++ failure.message ++ ")"
    { lines := opening options loading ++ [line], status := 1 }

/-- A loaded machine and its course, or the end of a command that does not come to its run. -/
def prepare (directory : Directory) (options : Options) (seed : Int) :
    Except Report (Machine.Response × Course) := do
  let machine ← (options.machine seed).mapError (aborted (settingLines options))
  let loading := machine.perform directory (.loadFile options.file)
  match loading.failure with
  | some failure => .error (notLoaded options loading failure)
  | none => return (loading, ← options.course.mapError (aborted (opening options loading)))

def report (directory : Directory) (options : Options) (seed : Int) (milliseconds : Nat) :
    Report :=
  match prepare directory options seed with
  | .error ended => ended
  | .ok (loading, course) =>
    let rest := finish directory options (run course loading.machine) milliseconds
    { rest with lines := opening options loading ++ rest.lines }

def invoke (directory : Directory) (argv : List String) (seed : Int) (milliseconds : Nat) :
    Report :=
  match Options.parse argv with
  | .ok options => report directory options seed milliseconds
  | .error error => { lines := [], status := error.status }

end ChipEight.CommandLine.Runner
