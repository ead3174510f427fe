import Dispatch.City.Files
/-!
# Command line

`dispatch [--config FILE] [--ticks N] [--seed N]` simulates the city that a settings file
describes. The log goes to standard output; the first scenario and a summary are written to the
directory the file names.

A simulation looks at no clock while it runs. So the summary times the run as a whole only, and of
all time budgets only one of zero ends a solve early.
-/

namespace Dispatch.CommandLine

open City Json

/-! ## Arguments -/

/-- What the arguments ask for. -/
structure Options where
  config : String
  /-- The most ticks, in place of those in the file. -/
  ticks : Option Nat
  /-- The seed of the scenario, in place of the one in the file. -/
  seed : Option UInt64

namespace Options

def default : Options := ⟨"rescue.json", none, none⟩

/-- Takes in the arguments from the left, of repeated ones the last. -/
def read (options : Options) : List String → Option Options
  | [] => some options
  | "--config" :: file :: rest => read { options with config := file } rest
  | "--ticks" :: n :: rest =>
    match n.toNat? with
    | some n => read { options with ticks := some n } rest
    | none => none
  | "--seed" :: n :: rest =>
    match n.toNat? with
    | some n => if n ≤ maxCount then read { options with seed := some n.toUInt64 } rest else none
    | none => none
  | _ => none

end Options

def usage : String := "usage: dispatch [--config FILE] [--ticks N] [--seed N]"

/-! ## Settings of a run -/

/-- Where results go, and which events are logged. -/
structure Output where
  directory : String
  level : Level

namespace Output

def default : Output := ⟨"results", .info⟩

/-- The first of a list of levels that is one. -/
def readLevel (text : String) : Level :=
  let levels : List (String × Level) :=
    [("error", .error), ("warn", .warn), ("info", .info), ("debug", .debug), ("trace", .trace)]
  ((text.splitOn ",").findSome? fun name => levels.lookup name).getD default.level

def ofJson? (j : Json) : Option Output := do
  match ← j.fields? ["dir", "log_level"] with
  | [directory, level] =>
    return ⟨← orElse default.directory toString? directory,
      ← orElse default.level (fun j => j.toString?.map readLevel) level⟩
  | _ => none

end Output

/-- Everything that a settings file holds. -/
structure Launch where
  output : Output
  settings : City.Settings Float

namespace Launch

def ofJson? (j : Json) : Option Launch := do
  match ← j.fields? ["output_config", "rescue"] with
  | [output, rescue] =>
    return ⟨← orElse .default Output.ofJson? output, ← orElse .default City.Settings.ofJson? rescue⟩
  | _ => none

/-- Arguments go before what the file says. -/
def override (launch : Launch) (options : Options) : Launch :=
  let settings := launch.settings
  let generation := settings.generation
  { launch with settings := { settings with
      ticks := options.ticks.getD settings.ticks
      generation := { generation with seed := options.seed <|> generation.seed } } }

end Launch

/-! ## Texts -/

def logLine (e : Event Float) : String := toString e.level ++ " " ++ e.text

def closingLine (report : Report Float) : String :=
  (if report.extinguished then "All fires out" else "Fires still burning") ++
    s!" after {report.ticks.length} ticks"

/-- A failure, and the failure of the engine behind it if that has more to tell. -/
def complaint (f : Failure Float) : String :=
  match f.cause? with
  | some e => if e.message = f.message then f.message else f.message ++ ": " ++ e.message
  | none => f.message

/-! ## Running -/

/-- The file of a name, if it can be read. -/
def loadFile (name : String) : IO Files := do
  match ← (IO.FS.readFile name).toBaseIO with
  | .ok contents => return fun asked => if asked = name then some contents else none
  | .error _ => return fun _ => none

/-- Reads the settings and applies the arguments to them. -/
def loadLaunch (options : Options) : IO (Except (Failure Float) Launch) := do
  let files ← loadFile options.config
  return (readSettings Launch.ofJson? files options.config).map (·.override options)

/-- Draws or reads the first scenario. -/
def loadScenario (settings : City.Settings Float) : IO (Except (Failure Float) (Scenario Float)) := do
  let files ← match settings.scenarioPath with
    | some path => loadFile path
    | none => pure fun _ => none
  return settings.firstScenario files (← IO.monoNanosNow).toUInt64

/-- Distances in doubles, coins from the seeded streams, and no clock. -/
def world : World Float := ⟨straightLine, Random.toss, fun _ => .still, fun _ => 0.0⟩

/-- Simulates, logs, and writes the results. -/
def simulateAndWrite (launch : Launch) (s : Scenario Float) : IO UInt32 := do
  let directory := launch.output.directory
  IO.FS.createDirAll directory
  IO.FS.writeFile (directory ++ "/scenario.json") s.fileText
  let start ← IO.monoMsNow
  let run := launch.settings.simulate world true s
  for e in run.events do
    if e.level.heardAt launch.output.level then IO.println (logLine e)
  match run.answer with
  | .error f =>
    IO.eprintln (complaint f)
    return 1
  | .ok ticks =>
    let report := Report.of run.scenario ticks (Float.ofNat ((← IO.monoMsNow) - start))
    IO.FS.writeFile (directory ++ "/summary.json") report.toJson.pretty
    IO.println (closingLine report)
    return 0

def run (options : Options) : IO UInt32 := do
  match ← loadLaunch options with
  | .error f =>
    IO.eprintln (complaint f)
    return 1
  | .ok launch =>
    match ← loadScenario launch.settings with
    | .error f =>
      IO.eprintln (complaint f)
      return 1
    | .ok s => simulateAndWrite launch s

end Dispatch.CommandLine

def main (args : List String) : IO UInt32 := do
  match Dispatch.CommandLine.Options.default.read args with
  | some options => Dispatch.CommandLine.run options
  | none =>
    IO.eprintln Dispatch.CommandLine.usage
    return 2
