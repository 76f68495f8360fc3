import TableProbe.LogFilter
import TableProbe.Options
import TableProbe.Script.Play

/-!
# The program

From the command line to the report: the settings are checked, the schedule is
drawn, the table is prepared, and then the run is done.  The program ends with
status 0 after a successful run, with 1 after a failed one, and with 2 if the
command line cannot be understood.
-/

namespace TableProbe

/-- Why the program fails. -/
inductive ProgramError
  | config (e : ConfigError)
  | schedule (e : WrongTotal)
  | table (e : TableError)
  | run (e : RunError)
  deriving DecidableEq, Repr

/-- The text that a failed program is reported with. -/
def ProgramError.message : ProgramError → String
  | config e => e.message
  | schedule e => e.message
  | table e => e.message
  | run e => e.message

/-- How the program ends, and what it leaves on its two outputs. -/
structure Ending where
  status : Nat
  output : List String
  errors : List String
  deriving DecidableEq, Repr

/-- An ending with lines written among the errors before all others. -/
def Ending.after (lines : List String) (e : Ending) : Ending :=
  { e with errors := lines ++ e.errors }

namespace Program

/-- The name and the version of the program. -/
def version : String := "mixbench 0.1.0"

/-- The default values that the help text shows. -/
def shownDefault? (opt : Opt) : Option String :=
  let o : Options := {}
  match opt with
  | .reads | .inserts | .erases | .updates | .upserts | .prefill => some "0"
  | .initialCapacity => some (toString o.capacityExponent)
  | .totalOps => some (toString o.totalOps)
  | .table => some o.backend.name
  | .keySize => some (toString o.keySize)
  | .valueSize => some (toString o.valueSize)
  | .numThreads | .seed => none

/-- The help text for an option that takes a value. -/
def optionHelp (opt : Opt) : List String :=
  let shown := match shownDefault? opt with
    | some value => s!" [default: {value}]"
    | none => ""
  [s!"      --{opt.name} <VALUE>", s!"          {opt.purpose}{shown}"]

/-- The help text. -/
def help : List String :=
  ["A benchmark that can run an arbitrary mixture of table operations.",
    "The sum of read, insert, erase, update, and upsert percentages must be 100.",
    "",
    "Usage: mixbench [OPTIONS]",
    "",
    "Options:"] ++
  Opt.all.flatMap optionHelp ++
  ["      --latency",
    "          Record per-operation latency and print percentiles",
    "  -h, --help",
    "          Print help",
    "  -V, --version",
    "          Print version"]

/-- What the program does once its settings are checked. -/
def script (options : Options) (config : Config) (entropy : Generator) (turns : Turns) :
    ExceptT (Failure ProgramError) Script Report := do
  ExceptT.lift (Script.perform .main (.note (.configured config options.backend)))
  let generator := (options.seed.map Generator.ofSeed).getD entropy
  let (schedule, _) ← ExceptT.mk (pure ((Schedule.shuffled config.mix generator).mapError
    (Failure.map ProgramError.schedule)))
  ExceptT.lift (Script.perform .main (.note (.scheduled schedule)))
  let reply ← ExceptT.lift (Script.perform .main (.call .init))
  let _ ← ExceptT.mk (pure (reply.outcome.mapError (Failure.map ProgramError.table)))
  let report ← (Run.run config schedule options.runOptions turns).adapt
    (Failure.map ProgramError.run)
  ExceptT.lift (Script.perform .main (.note (.filled report.prefillElems report.prefillTime)))
  return report

/-- How a note is written. -/
def noteLine (n : Note) : String := s!"{n.level.name} {n.target} {n.message}"

/-- The end of a program whose command line does not lead to a run. -/
def stopped : Stop → Ending
  | .help => ⟨0, help, []⟩
  | .version => ⟨0, [version], []⟩
  | .unknownArgument arg => ⟨2, [], [s!"error: unexpected argument '{arg}' found"]⟩
  | .missingValue opt =>
    ⟨2, [], [s!"error: a value is required for '--{opt.name}' but none was supplied"]⟩
  | .unknownTable name => ⟨2, [], [s!"error: invalid value '{name}' for '--table'"]⟩
  | .notANumber opt value => ⟨2, [], [s!"error: invalid value '{value}' for '--{opt.name}'"]⟩
  | .repeated name => ⟨2, [], [s!"error: the argument '--{name}' cannot be used multiple times"]⟩
  | .unwantedValue name =>
    ⟨2, [], [s!"error: unexpected value for '--{name}' found; no more were expected"]⟩

/-- The end of a program that crashed. -/
def crashed (c : Crash) : Ending := ⟨101, [], [c.message]⟩

/-- The end of a program that came to a report, or failed. -/
def ended : Except (Failure ProgramError) Report → Ending
  | .ok report =>
    match report.lines with
    | .ok lines => ⟨0, lines, []⟩
    | .error c => crashed c
  | .error (.error e) => ⟨1, [], [s!"Error: {e.message}"]⟩
  | .error (.crash c) => crashed c

/-- The program with checked options, played against an empty table of the
chosen backend. -/
def simulateRun (options : Options) (config : Config) (filter : LogFilter) (entropy : Generator)
    (micros : UInt64) (clock : Nat → Nat) : Ending :=
  let played := (Host.ofTable Store.table micros clock).play .exit
    (script options config entropy .inOrder) (.ofBackend config.initialCapacity options.backend)
  let notes := (played.events.filterMap Event.note?).filter filter.shows
  Ending.after (notes.map noteLine) ((played.result?.map ended).getD ⟨1, [], []⟩)

/-- The whole program, on a machine that can run so many threads at once: how
it ends, with the notes that the filter shows written among the errors. -/
def simulate (args : List String) (logSpec : Option String) (cores : UInt64) (entropy : Generator)
    (micros : UInt64) (clock : Nat → Nat) : Ending :=
  let (filter, problems) := LogFilter.ofSpec (logSpec.getD LogFilter.standard)
  Ending.after (problems.flatMap FilterProblem.lines) <|
    match Options.ofArgs args with
    | .error stop => stopped stop
    | .ok options =>
      match Config.ofSettings (options.settings cores) with
      | .error e => ended (.error (e.map ProgramError.config))
      | .ok config => simulateRun options config filter entropy micros clock

end Program

end TableProbe
