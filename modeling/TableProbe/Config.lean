import TableProbe.Percentages

/-!
# Run configuration

`Settings` are the parameters of a run as they are given; `Config` holds the
absolute numbers that a run works with.  `Config.ofSettings` checks the one and
derives the other, and reports the first condition that does not hold.
-/

namespace TableProbe

/-- The parameters of a run as they are given. -/
structure Settings where
  mix : Percentages
  /-- The initial capacity is two to the power of this. -/
  capacityExponent : UInt32
  /-- How much of the initial capacity is filled before the mix runs, in
  percent. -/
  prefill : UInt64
  /-- The number of operations, in percent of the initial capacity; may exceed
  100. -/
  totalOps : UInt64
  threads : UInt64
  deriving DecidableEq, Repr

/-- The numbers that a run works with. -/
structure Config where
  mix : Percentages
  initialCapacity : UInt64
  totalOps : UInt64
  prefillElems : UInt64
  threads : UInt64
  deriving DecidableEq, Repr

/-- Why settings are refused. -/
inductive ConfigError
  /-- A percentage exceeds 100. -/
  | percentageTooLarge (name : String)
  /-- The mix does not sum to 100. -/
  | wrongTotal (e : WrongTotal)
  /-- There is no thread to work. -/
  | noThreads
  /-- The capacity does not fit into 64 bits. -/
  | capacityTooLarge (exponent : UInt32)
  /-- Capacity times percentage of operations does not fit into 64 bits. -/
  | tooManyOps (percentage : UInt64) (exponent : UInt32)
  deriving DecidableEq, Repr

/-- The text that refused settings are reported with. -/
def ConfigError.message : ConfigError → String
  | percentageTooLarge name => "Percentage for `" ++ name ++ "` cannot exceed 100"
  | wrongTotal e => e.message
  | noThreads => "Number of threads must be at least 1"
  | capacityTooLarge exponent =>
    s!"Initial capacity exponent must be less than 64 (got {exponent})"
  | tooManyOps percentage exponent =>
    s!"Total ops percentage {percentage} overflows with initial capacity 2^{exponent}"

namespace Config

/-- Refuses a percentage above 100. -/
def checkPercentage (name : String) (value : UInt64) : Except (Failure ConfigError) Unit :=
  if 100 < value then .error (.error (.percentageTooLarge name)) else .ok ()

/-- Refuses settings unless a condition holds. -/
def require (condition : Bool) (e : ConfigError) : Except (Failure ConfigError) Unit :=
  if condition then .ok () else .error (.error e)

/-- `percent` hundredths of `whole`, rounded down.  The product is taken
without a limit, so the result fits whenever `percent` is at most 100. -/
def hundredths (whole percent : UInt64) : UInt64 :=
  UInt64.ofNat (whole.toNat * percent.toNat / 100)

/-- Checks settings and derives the numbers of a run. -/
def ofSettings (s : Settings) : Except (Failure ConfigError) Config := do
  checkPercentage "reads" s.mix.reads
  checkPercentage "inserts" s.mix.inserts
  checkPercentage "erases" s.mix.erases
  checkPercentage "updates" s.mix.updates
  checkPercentage "upserts" s.mix.upserts
  checkPercentage "prefill" s.prefill
  let total ← Failure.ofCrash s.mix.total
  require (total = 100) (.wrongTotal ⟨total⟩)
  require (0 < s.threads) .noThreads
  require (s.capacityExponent < 64) (.capacityTooLarge s.capacityExponent)
  let capacity : UInt64 := 1 <<< s.capacityExponent.toUInt64
  match Checked.mul capacity s.totalOps with
  | .error _ => .error (.error (.tooManyOps s.totalOps s.capacityExponent))
  | .ok hundredfold =>
    return { mix := s.mix
             initialCapacity := capacity
             totalOps := hundredfold / 100
             prefillElems := hundredths capacity s.prefill
             threads := s.threads }

/-- The one-line summary of a configuration. -/
def summary (c : Config) : String :=
  let shares := "/".intercalate (OpKind.all.map fun kind => toString (c.mix.of kind))
  s!"mix r/i/e/u/ups = {shares} | capacity: {c.initialCapacity} | prefill: {c.prefillElems}" ++
    s!" | ops: {c.totalOps} | threads: {c.threads}"

end Config

end TableProbe
