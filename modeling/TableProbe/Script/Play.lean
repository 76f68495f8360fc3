import TableProbe.Script.Basic

/-!
# Playing a script

A script is played against a host, which answers the calls and shows the time.
Playing yields everything that was done, in order, and the result of the
script; where an alarm ends the whole program, what would have followed the
first alarm does not happen, and there is no result.
-/

namespace TableProbe

/-- The world around a script, with states of type `σ`. -/
structure Host (σ : Type) where
  /-- What a caller gets, and the state after the call. -/
  answer : Actor → Call → σ → Reply × σ
  /-- What the clock shows after so many deeds. -/
  clock : Nat → Nat

/-- The host whose calls go to a table, and take so many microseconds each. -/
def Host.ofTable {σ : Type} (table : Table σ) (micros : UInt64) (clock : Nat → Nat) : Host σ where
  answer _ call s :=
    let (outcome, s) := table.answer call s
    (⟨outcome, micros⟩, s)
  clock := clock

/-- What an alarm leads to. -/
inductive AlarmPolicy
  /-- The script goes on. -/
  | goOn
  /-- The program ends at once. -/
  | exit
  deriving DecidableEq, Repr

/-- A deed that was done, and what it resulted in. -/
structure Event where
  who : Actor
  deed : Deed
  result : deed.Result

namespace Event

/-- The call that an event is, with what the caller got. -/
def call? : Event → Option (Call × Reply)
  | ⟨_, .call c, reply⟩ => some (c, reply)
  | _ => none

/-- The note that an event is. -/
def note? : Event → Option Note
  | ⟨_, .note n, _⟩ => some n
  | _ => none

/-- The cause of the alarm that an event is. -/
def alarm? : Event → Option WorkError
  | ⟨_, .alarm e, _⟩ => some e
  | _ => none

end Event

/-- A script that was played. -/
structure Performance (σ α : Type) where
  /-- The result, unless an alarm ended the program. -/
  result? : Option α
  /-- What was done, in order. -/
  events : List Event
  /-- The state of the host afterwards. -/
  state : σ

namespace Host

variable {σ α : Type}

/-- What a deed results in after the given events, the last one first, and the
state after it. -/
def respond (host : Host σ) (past : List Event) (s : σ) (who : Actor) : (d : Deed) → d.Result × σ
  | .call c => host.answer who c s
  | .note _ => ((), s)
  | .alarm _ => ((), s)
  | .clock => (host.clock past.length, s)

/-- Plays a script after the given events, the last one first. -/
def playAfter (host : Host σ) (policy : AlarmPolicy) :
    Script α → List Event → σ → Performance σ α
  | .done a, past, s => ⟨some a, past.reverse, s⟩
  | .act who deed rest, past, s =>
    let (result, s) := host.respond past s who deed
    let event : Event := ⟨who, deed, result⟩
    if policy = .exit ∧ event.alarm?.isSome then ⟨none, (event :: past).reverse, s⟩
    else host.playAfter policy (rest result) (event :: past) s

/-- Plays a script from a state of the host. -/
def play (host : Host σ) (policy : AlarmPolicy) (script : Script α) (s : σ) : Performance σ α :=
  host.playAfter policy script [] s

end Host

end TableProbe
