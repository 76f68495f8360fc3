import TableProbe.Percentages
import TableProbe.Shuffle

/-!
# Schedules

A schedule says, for each of a hundred slots, which kind of operation a worker
does there; workers go through it in rounds.  It holds exactly as many slots of
a kind as the percentages ask for, in an order that is shuffled once.
-/

namespace TableProbe

/-- The kind of operation for each of a hundred slots. -/
structure Schedule where
  slots : Vector OpKind 100
  deriving DecidableEq

namespace Schedule

/-- The slots before they are shuffled: all of one kind together, in the order
of `OpKind.all`. -/
def layout (p : Percentages) : List OpKind :=
  OpKind.all.flatMap fun kind => List.replicate (p.of kind).toNat kind

theorem length_layout (p : Percentages) : (layout p).length = p.exactTotal := by
  simp [layout, OpKind.all, Percentages.of, Percentages.exactTotal]
  omega

theorem length_layout_of_total {p : Percentages} (h : p.total = .ok 100) :
    (layout p).length = 100 := by
  rw [length_layout, ← Percentages.toNat_of_total_eq_ok h]
  rfl

/-- The layout of percentages that sum to 100. -/
def unshuffled (p : Percentages) (h : p.total = .ok 100) : Schedule :=
  ⟨⟨(layout p).toArray, length_layout_of_total h⟩⟩

/-- The schedule with its slots shuffled, and the generator after it. -/
def reordered (s : Schedule) (g : Generator) : Schedule × Generator :=
  (Shuffle.shuffle s.slots g).map Schedule.mk id

/-- Draws a schedule for the given percentages, and leaves the generator to go
on with.  Percentages that do not sum to 100 are refused before anything is
drawn. -/
def draw (p : Percentages) (g : Generator) : Except (Failure WrongTotal) Schedule × Generator :=
  match h : p.total with
  | .error c => (.error (.crash c), g)
  | .ok total =>
    if enough : total = 100 then ((unshuffled p (enough ▸ h)).reordered g).map .ok id
    else (.error (.error ⟨total⟩), g)

/-- The schedule that is drawn for the given percentages, with the generator
after it. -/
def shuffled (p : Percentages) (g : Generator) :
    Except (Failure WrongTotal) (Schedule × Generator) :=
  let (drawn, g) := draw p g
  drawn.map fun schedule => (schedule, g)

/-- How many slots are of a kind. -/
def count (s : Schedule) (kind : OpKind) : Nat := s.slots.toList.count kind

/-- The letters of all slots, in order. -/
def letters (s : Schedule) : String := String.ofList (s.slots.toList.map OpKind.letter)

/-- The slots with their places, in order. -/
def places (s : Schedule) : List (UInt64 × OpKind) :=
  ((List.range 100).map UInt64.ofNat).zip s.slots.toList

end Schedule

end TableProbe
