import TableProbe.Program

/-!
# Command line program

Runs the program on a real clock.  Its workers take turns on one thread, so
that is how many can run at once.
-/

namespace TableProbe.Main

/-- Where deeds are done: a table, and a stream for the notes that a filter
shows. -/
structure Stage where
  store : IO.Ref Store
  filter : LogFilter
  errors : IO.FS.Stream

/-- Does a deed. -/
def Stage.respond (stage : Stage) : (d : Deed) → IO d.Result
  | .call c => do
    let before ← IO.monoNanosNow
    let outcome ← stage.store.modifyGet fun s => s.answer c
    let after ← IO.monoNanosNow
    return ⟨outcome, UInt64.ofNat ((after - before) / 1000)⟩
  | .note n => do
    if stage.filter.shows n then
      stage.errors.putStrLn s!"[{n.level.name} {n.target}] {n.message}"
  | .alarm _ => pure ()
  | .clock => IO.monoNanosNow

/-- Plays a script to its end, or up to the first alarm. -/
def Stage.play {α : Type} (stage : Stage) : Script α → IO (Option α)
  | .done a => return some a
  | .act _ deed rest => do
    let result ← stage.respond deed
    match deed with
    | .alarm _ => return none
    | _ => stage.play (rest result)

/-- Writes what an ending leaves on the two outputs, and returns its status. -/
def finish (e : Ending) : IO UInt32 := do
  let output ← IO.getStdout
  let errors ← IO.getStderr
  for line in e.errors do errors.putStrLn line
  for line in e.output do output.putStrLn line
  return UInt32.ofNat e.status

/-- Runs the program with checked options. -/
def start (options : Options) (config : Config) (filter : LogFilter) : IO UInt32 := do
  let seed ← IO.rand 0 (UInt64.size - 1)
  let store ← IO.mkRef (Store.ofBackend config.initialCapacity options.backend)
  let stage : Stage := ⟨store, filter, ← IO.getStderr⟩
  match ← stage.play (Program.script options config (.ofSeed (UInt64.ofNat seed)) .inOrder) with
  | none => return 1
  | some result => finish (Program.ended result)

/-- Runs the program with the arguments of the command line. -/
def run (args : List String) : IO UInt32 := do
  let spec ← IO.getEnv "RUST_LOG"
  let (filter, problems) := LogFilter.ofSpec (spec.getD LogFilter.standard)
  for line in problems.flatMap FilterProblem.lines do (← IO.getStderr).putStrLn line
  match Options.ofArgs args with
  | .error stop => finish (Program.stopped stop)
  | .ok options =>
    match Config.ofSettings (options.settings 1) with
    | .error e => finish (Program.ended (.error (e.map ProgramError.config)))
    | .ok config => start options config filter

end TableProbe.Main

/-- The entry of the program. -/
def main (args : List String) : IO UInt32 := TableProbe.Main.run args
