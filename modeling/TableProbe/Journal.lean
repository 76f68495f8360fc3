import TableProbe.Config
import TableProbe.Duration
import TableProbe.Mismatch
import TableProbe.Schedule
import TableProbe.Table.Backend
import TableProbe.Window

/-!
# Journal

What a run writes down about itself.  Each note has a level, the part of the
program that it comes from, and a text.
-/

namespace TableProbe

/-- How important a note is. -/
inductive Level
  | error
  | warn
  | info
  | debug
  | trace
  deriving DecidableEq, Repr

namespace Level

/-- All levels, the most important first. -/
def all : List Level := [error, warn, info, debug, trace]

/-- The name of a level. -/
def name : Level → String
  | error => "ERROR"
  | warn => "WARN"
  | info => "INFO"
  | debug => "DEBUG"
  | trace => "TRACE"

/-- The place of a level among all levels. -/
def rank : Level → Nat
  | error => 1
  | warn => 2
  | info => 3
  | debug => 4
  | trace => 5

end Level

/-- One note. -/
inductive Note
  /-- The run is configured. -/
  | configured (config : Config) (backend : Backend)
  /-- The schedule is drawn. -/
  | scheduled (schedule : Schedule)
  /-- The table was filled before the mix, in so much time. -/
  | filled (elems : UInt64) (time : Duration)
  /-- A worker with so many keys in the table begins with so many operations. -/
  | started (thread keys ops : UInt64)
  /-- A worker is done with the mix. -/
  | finished (thread : UInt64) (window : Window)
  /-- A worker saw an answer that disagrees with its bookkeeping. -/
  | mismatch (m : Mismatch) (window : Window)
  /-- A key that fills the table was refused. -/
  | fillRefused (thread seq : UInt64)
  deriving DecidableEq

namespace Note

/-- How important a note is. -/
def level : Note → Level
  | configured .. | filled .. => .info
  | scheduled .. | started .. | finished .. => .debug
  | mismatch .. | fillRefused .. => .error

/-- The part of the program that a note comes from. -/
def target : Note → String
  | configured .. | scheduled .. | filled .. => "mixbench"
  | started .. | finished .. => "mixbench::workload"
  | mismatch .. | fillRefused .. => "mixbench::workload::executor"

/-- How many slots of each kind a schedule has, in words. -/
def slotCounts (s : Schedule) : String :=
  s!"{s.count .read} reads, {s.count .insert} inserts, {s.count .erase} erases, " ++
    s!"{s.count .update} updates, {s.count .upsert} upserts"

/-- The text of a note. -/
def message : Note → String
  | configured config backend => s!"{config.summary} | table: {backend.label}"
  | scheduled schedule => s!"operation mix ({slotCounts schedule}): {schedule.letters}"
  | filled elems time => s!"prefilled {elems} elements in {time.brief}"
  | started thread keys ops => s!"thread {thread}: {keys} prefilled, {ops} ops"
  | finished thread window =>
    s!"thread {thread}: done, erase_seq {window.erased}, insert_seq {window.inserted}"
  | mismatch m window =>
    m.message ++ s!" (erase_seq {window.erased}, insert_seq {window.inserted})"
  | fillRefused thread seq => (WorkError.fillRefused thread seq).message

end Note

end TableProbe
