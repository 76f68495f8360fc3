import TableProbe.Table.Hashed
import TableProbe.Table.Ordered
import TableProbe.Table.Swapping
import TableProbe.Table.Transactional

/-!
# Backends

The tables that can be put under test, their names on the command line and in
reports, and a store that is any one of them.
-/

namespace TableProbe

/-- A kind of table that can be put under test. -/
inductive Backend
  | hashed
  | ordered
  | transactional
  | swapping
  deriving DecidableEq, Repr

namespace Backend

/-- All backends, in the order in which they are listed. -/
def all : List Backend := [hashed, ordered, transactional, swapping]

/-- The name that selects a backend. -/
def name : Backend → String
  | hashed => "dash-map"
  | ordered => "mem-btree"
  | transactional => "redb"
  | swapping => "sled"

/-- The name of a backend in reports. -/
def label : Backend → String
  | hashed => "DashMap"
  | ordered => "MemBtree"
  | transactional => "Redb"
  | swapping => "Sled"

/-- The backend with a name; names are told apart by case. -/
def ofName? (name : String) : Option Backend := all.find? fun b => b.name = name

end Backend

/-- A table of any backend. -/
inductive Store
  | hashed (t : Hashed)
  | ordered (t : Ordered)
  | transactional (t : Transactional)
  | swapping (t : Swapping)

namespace Store

/-- The empty table of a backend, for an expected number of entries. -/
def ofBackend (capacity : UInt64) : Backend → Store
  | .hashed => hashed (.ofCapacity capacity)
  | .ordered => ordered .empty
  | .transactional => transactional .empty
  | .swapping => swapping .empty

/-- What the table holds. -/
def contents : Store → Contents
  | hashed t => t.contents
  | ordered t => t.contents
  | transactional t => t.contents
  | swapping t => t.contents

/-- How a call ends, and the table after it. -/
def answer (call : Call) : Store → Outcome × Store
  | hashed t => let (o, t) := t.answer call; (o, hashed t)
  | ordered t => let (o, t) := t.answer call; (o, ordered t)
  | transactional t => let (o, t) := t.answer call; (o, transactional t)
  | swapping t => let (o, t) := t.answer call; (o, swapping t)

/-- The table under test that a store is. -/
def table : Table Store := ⟨answer⟩

/-- Whether reads are answered: a transactional table has to be created before. -/
def isReady : Store → Bool
  | transactional t => t.entries?.isSome
  | _ => true

@[simp] theorem contents_ofBackend (capacity : UInt64) (b : Backend) :
    (ofBackend capacity b).contents = Contents.empty := by
  cases b with
  | hashed => exact Hashed.contents_ofCapacity capacity
  | ordered => exact Ordered.contents_empty
  | transactional => exact Transactional.contents_empty
  | swapping => exact Swapping.contents_empty

/-- Every backend does what a table should, save for reads before the table is
ready. -/
theorem answer_agrees {call : Call} {s : Store} (h : s.isReady ∨ ∀ key, call ≠ .read key) :
    s.contents.Agrees call (s.answer call).1 (s.answer call).2.contents := by
  cases s with
  | hashed t => exact t.answer_agrees call
  | ordered t => exact t.answer_agrees call
  | transactional t => exact t.answer_agrees h
  | swapping t => exact t.answer_agrees call

/-- A store is ready after every call but a read, and stays so whatever is
called. -/
theorem isReady_answer {call : Call} {s : Store} (h : s.isReady ∨ ∀ key, call ≠ .read key) :
    (s.answer call).2.isReady := by
  cases s with
  | hashed t => rfl
  | ordered t => rfl
  | swapping t => rfl
  | transactional t =>
    rcases h with h | h
    · exact Transactional.isSome_entries?_answer_of_isSome h
    · exact Transactional.isSome_entries?_answer h t

end Store

end TableProbe
