import ChipEight.CommandLine.Lister
import ChipEight.CommandLine.Runner
import ChipEight.Screen.Jpeg
import ChipEight.Screen.Png

/-!
# The program

The first argument names a command: `run` plays a program file without a window, `list` prints its
listing. The remaining arguments are the command's own.
-/
namespace ChipEight.Program

open CommandLine

/-- A directory with the one file that a command reads, empty if there is no such file. -/
def directoryWith (name : String) : IO Directory := do
  try
    let content ← IO.FS.readBinFile name
    return [(name, content.toList)]
  catch _ => return []

def save (shot : Screenshot Raster) : IO Unit :=
  IO.FS.writeBinFile shot.name.text <|
    match shot.format with
    | .png => Png.encode shot.image
    | .jpeg => Jpeg.encode shot.image

def rejected (error : UsageError) : IO UInt32 := do
  IO.eprintln "usage: run FILE [OPTIONS] or list FILE [OPTIONS]"
  return UInt32.ofNat error.status

/-- The exit status of a command, after a word about what ended it if anything did. -/
def exit (status : Nat) (abort : Option Abort) : IO UInt32 := do
  abort.forM fun abort => IO.eprintln abort.message
  return UInt32.ofNat status

def list (argv : List String) : IO UInt32 := do
  match Lister.Options.parse argv with
  | .error error => rejected error
  | .ok options =>
    let report := Lister.report (← directoryWith options.file) options
    report.lines.forM IO.println
    exit report.status report.abort

def run (argv : List String) : IO UInt32 := do
  match Runner.Options.parse argv with
  | .error error => rejected error
  | .ok options =>
    let directory ← directoryWith options.file
    let seed ← IO.rand 0 0x7FFFFFFF
    match Runner.prepare directory options seed with
    | .error ended =>
      ended.lines.forM IO.println
      exit ended.status ended.abort
    | .ok (loading, course) =>
      (Runner.opening options loading).forM IO.println
      let start ← IO.monoMsNow
      let progress ← IO.lazyPure fun _ => Runner.run course loading.machine
      let stop ← IO.monoMsNow
      let report := Runner.finish directory options progress (stop - start)
      report.screenshot.forM save
      report.lines.forM IO.println
      exit report.status report.abort

end ChipEight.Program

def main : List String → IO UInt32
  | "run" :: argv => ChipEight.Program.run argv
  | "list" :: argv => ChipEight.Program.list argv
  | _ => ChipEight.Program.rejected .missingArgument
