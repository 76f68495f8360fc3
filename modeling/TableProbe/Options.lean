import TableProbe.Config
import TableProbe.Run
import TableProbe.Table.Backend
import TableProbe.Text.Numeral

/-!
# Command line options

Arguments are read from left to right, and the first problem is reported.  An
option takes its value from the same argument, after an equals sign, or from
the next one; a value of the second kind is looked at only when the option
after it is met or the arguments end, so that a problem of the argument in
between comes first.
-/

namespace TableProbe

/-- What the command line asks for. -/
structure Options where
  mix : Percentages := ⟨0, 0, 0, 0, 0⟩
  capacityExponent : UInt32 := 25
  prefill : UInt64 := 0
  totalOps : UInt64 := 90
  /-- None for as many threads as can run at once. -/
  threads : Option UInt64 := none
  backend : Backend := .hashed
  keySize : Nat := 8
  valueSize : Nat := 8
  /-- None for a schedule that differs from run to run. -/
  seed : Option UInt64 := none
  latency : Bool := false
  deriving DecidableEq, Repr

/-- An option that takes a value. -/
inductive Opt
  | reads
  | inserts
  | erases
  | updates
  | upserts
  | initialCapacity
  | prefill
  | totalOps
  | numThreads
  | table
  | keySize
  | valueSize
  | seed
  deriving DecidableEq, Repr

/-- Why the command line does not lead to a run. -/
inductive Stop
  /-- An argument that is neither a known option nor a value of one. -/
  | unknownArgument (arg : String)
  /-- An option without its value. -/
  | missingValue (opt : Opt)
  /-- A table that does not exist. -/
  | unknownTable (name : String)
  /-- A value that is not a number of the wanted range. -/
  | notANumber (opt : Opt) (value : String)
  /-- An option that was given before. -/
  | repeated (name : String)
  /-- A value for an option that takes none. -/
  | unwantedValue (name : String)
  /-- The help text is asked for. -/
  | help
  /-- The version is asked for. -/
  | version
  deriving DecidableEq, Repr

namespace Opt

/-- All options that take a value, in the order of the help text. -/
def all : List Opt :=
  [reads, inserts, erases, updates, upserts, initialCapacity, prefill, totalOps, numThreads,
    table, keySize, valueSize, seed]

/-- The name of an option, without the two dashes. -/
def name : Opt → String
  | reads => "reads"
  | inserts => "inserts"
  | erases => "erases"
  | updates => "updates"
  | upserts => "upserts"
  | initialCapacity => "initial-capacity"
  | prefill => "prefill"
  | totalOps => "total-ops"
  | numThreads => "num-threads"
  | table => "table"
  | keySize => "key-size"
  | valueSize => "value-size"
  | seed => "seed"

/-- What an option is for. -/
def purpose : Opt → String
  | reads => "Percentage of mix that is reads"
  | inserts => "Percentage of mix that is inserts"
  | erases => "Percentage of mix that is erases"
  | updates => "Percentage of mix that is updates"
  | upserts => "Percentage of mix that is upserts"
  | initialCapacity => "Initial capacity of table, as a power of 2"
  | prefill => "Percentage of final size to pre-fill table"
  | totalOps =>
    "Number of operations, as a percentage of the initial capacity. This can exceed 100"
  | numThreads => "Number of threads [default: available parallelism]"
  | table => "Table to run against"
  | keySize => "Key size in bytes, at least 8"
  | valueSize => "Value size in bytes"
  | seed => "Seed for shuffling the operation mix"

/-- The option with a name. -/
def ofName? (name : String) : Option Opt := all.find? fun opt => opt.name = name

/-- A word as the value of an option. -/
def word (opt : Opt) (value : String) : Except Stop UInt64 :=
  match Text.below? UInt64.size value with
  | some n => .ok (UInt64.ofNat n)
  | none => .error (.notANumber opt value)

/-- A number of 32 bits as the value of an option.  It is read with its sign,
so that minus zero is zero. -/
def halfWord (opt : Opt) (value : String) : Except Stop UInt32 :=
  match Text.integer? value with
  | some n =>
    if 0 ≤ n ∧ n < UInt32.size then .ok (UInt32.ofNat n.toNat) else .error (.notANumber opt value)
  | none => .error (.notANumber opt value)

/-- Gives an option its value. -/
def set (opt : Opt) (value : String) (o : Options) : Except Stop Options := do
  match opt with
  | reads => return { o with mix := { o.mix with reads := ← opt.word value } }
  | inserts => return { o with mix := { o.mix with inserts := ← opt.word value } }
  | erases => return { o with mix := { o.mix with erases := ← opt.word value } }
  | updates => return { o with mix := { o.mix with updates := ← opt.word value } }
  | upserts => return { o with mix := { o.mix with upserts := ← opt.word value } }
  | initialCapacity => return { o with capacityExponent := ← opt.halfWord value }
  | prefill => return { o with prefill := ← opt.word value }
  | totalOps => return { o with totalOps := ← opt.word value }
  | numThreads => return { o with threads := some (← opt.word value) }
  | table =>
    match Backend.ofName? value with
    | some backend => return { o with backend }
    | none => throw (.unknownTable value)
  | keySize => return { o with keySize := (← opt.word value).toNat }
  | valueSize => return { o with valueSize := (← opt.word value).toNat }
  | seed => return { o with seed := some (← opt.word value) }

end Opt

namespace Options

/-- The state of reading arguments. -/
structure Reading where
  /-- What was asked for so far. -/
  options : Options
  /-- The options that have their values. -/
  given : List Opt
  /-- The option met last, with its value if that was met too, as long as it
  was not looked at. -/
  pending : Option (Opt × Option String)
  /-- Whether a lone double dash was met; no option may follow it. -/
  ended : Bool

namespace Reading

/-- Before the first argument. -/
def start : Reading := ⟨{}, [], none, false⟩

/-- Gives an option its value, unless it has one. -/
def give (r : Reading) (opt : Opt) (value : String) : Except Stop Reading := do
  if opt ∈ r.given then throw (.repeated opt.name)
  let options ← opt.set value r.options
  return { r with options, given := opt :: r.given }

/-- Looks at the pending option. -/
def settle (r : Reading) : Except Stop Reading :=
  match r.pending with
  | none => .ok r
  | some (opt, none) => .error (.missingValue opt)
  | some (opt, some value) => { r with pending := none }.give opt value

/-- Reads an argument that begins with two dashes, given its name and the value
after its equals sign. -/
def takeLong (r : Reading) (arg name : String) (value? : Option String) :
    Except Stop Reading := do
  match Opt.ofName? name, value? with
  | some opt, some value => (← r.settle).give opt value
  | some opt, none => return { ← r.settle with pending := some (opt, none) }
  | none, _ =>
    if name ∉ ["latency", "help", "version"] then throw (.unknownArgument arg)
    if value?.isSome then throw (.unwantedValue name)
    let r ← r.settle
    if name = "help" then throw .help
    if name = "version" then throw .version
    if r.options.latency then throw (.repeated name)
    return { r with options := { r.options with latency := true } }

/-- Reads an argument that begins with one dash, given the letter after it. -/
def takeShort (r : Reading) (arg : String) (letter : Char) : Except Stop Reading := do
  if letter = 'h' then
    let _ ← r.settle
    throw .help
  else if letter = 'V' then
    let _ ← r.settle
    throw .version
  else
    throw (.unknownArgument arg)

/-- Reads an argument that does not begin with a dash, or is a lone one. -/
def takeValue (r : Reading) (arg : String) : Except Stop Reading :=
  match r.pending with
  | some (opt, none) => .ok { r with pending := some (opt, some arg) }
  | _ => .error (.unknownArgument arg)

/-- Reads an argument. -/
def take (r : Reading) (arg : String) : Except Stop Reading :=
  if r.ended then .error (.unknownArgument arg)
  else
    match arg.toList with
    | ['-', '-'] => .ok { r with ended := true }
    | '-' :: '-' :: cs =>
      let name := String.ofList (cs.takeWhile (· ≠ '='))
      match cs.dropWhile (· ≠ '=') with
      | [] => r.takeLong arg name none
      | _ :: value => r.takeLong arg name (some (String.ofList value))
    | '-' :: letter :: _ => r.takeShort arg letter
    | _ => r.takeValue arg

end Reading

/-- Reads all arguments. -/
def ofArgs (args : List String) : Except Stop Options := do
  let r ← args.foldlM Reading.take .start
  return (← r.settle).options

/-- The parameters of the run, on a machine where so many threads can run at
once. -/
def settings (o : Options) (cores : UInt64) : Settings where
  mix := o.mix
  capacityExponent := o.capacityExponent
  prefill := o.prefill
  totalOps := o.totalOps
  threads := o.threads.getD cores

/-- How the run is done. -/
def runOptions (o : Options) : RunOptions where
  keySize := o.keySize
  valueSize := o.valueSize
  latency := o.latency

end Options

end TableProbe
