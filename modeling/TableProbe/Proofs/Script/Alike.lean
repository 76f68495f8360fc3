import TableProbe.Proofs.Script.Runs

/-!
# Scripts that are alike

Two scripts of one thread are alike if they do the same deeds as long as the
calls end the same way, however long the calls take, and come to related
results.  The clock is not looked at, and only calls that belong to the thread
are made.  Against one machine, two alike scripts then have the same run up to
measured times (`Script.Alike.runs`).
-/

namespace TableProbe

variable {α β γ δ ρ : Type}

/-- A deed that leaves the clock alone and calls the table within limits only. -/
def Deed.Within (own : Call → Prop) : Deed → Prop
  | .call c => own c
  | .note _ => True
  | .alarm _ => True
  | .clock => False

/-- All deeds of the script are done by one thread, and within limits. -/
def Script.By (who : Actor) (own : Call → Prop) : Script α → Prop
  | .done _ => True
  | .act actor deed rest => actor = who ∧ deed.Within own ∧ ∀ result, (rest result).By who own

theorem Script.By.of_mem {who : Actor} {own : Call → Prop} {s : Script α} (owned : s.By who own)
    {events : List Event} {a : α} (runs : s.Runs events a) :
    ∀ e ∈ events, e.who = who ∧ e.deed.Within own := by
  induction runs with
  | done =>
    intro e he
    cases he
  | act _ ih =>
    rcases owned with ⟨actor, within, rest⟩
    intro e he
    rcases List.mem_cons.1 he with rfl | he
    · exact ⟨actor, within⟩
    · exact ih (rest _) e he

/-- What there is to see of an event when times are left out. -/
def Event.seen (e : Event) : Actor × Deed × Option Outcome :=
  (e.who, e.deed, e.call?.map fun answered => answered.2.outcome)

/-- The scripts do the same deeds within limits, whatever times are measured,
and end related. -/
inductive Script.Alike (who : Actor) (own : Call → Prop) (R : α → β → Prop) :
    Script α → Script β → Prop
  | done {a : α} {b : β} : R a b → Alike who own R (.done a) (.done b)
  | call {c : Call} {rest : Reply → Script α} {rest' : Reply → Script β} :
      own c →
      (∀ r r', r.outcome = r'.outcome → Alike who own R (rest r) (rest' r')) →
      Alike who own R (.act who (.call c) rest) (.act who (.call c) rest')
  | note {n : Note} {rest : Unit → Script α} {rest' : Unit → Script β} :
      Alike who own R (rest ()) (rest' ()) →
      Alike who own R (.act who (.note n) rest) (.act who (.note n) rest')
  | alarm {e : WorkError} {rest : Unit → Script α} {rest' : Unit → Script β} :
      Alike who own R (rest ()) (rest' ()) →
      Alike who own R (.act who (.alarm e) rest) (.act who (.alarm e) rest')

namespace Script.Alike

variable {who : Actor} {own : Call → Prop} {R : α → β → Prop} {Q : γ → δ → Prop}

/-- Scripts that are alike can be put together: related ends of the first ones
are followed by scripts that are alike.  By induction on the first scripts. -/
theorem bind {s : Script α} {s' : Script β} {f : α → Script γ} {f' : β → Script δ}
    (head : Alike who own R s s') (tail : ∀ a b, R a b → Alike who own Q (f a) (f' b)) :
    Alike who own Q (s >>= f) (s' >>= f') := by
  induction head with
  | done related => exact tail _ _ related
  | call mine _ ih => exact .call mine fun r r' same => ih r r' same
  | note _ ih => exact .note ih
  | alarm _ ih => exact .alarm ih

theorem map {s : Script α} {s' : Script β} {f : α → γ} {f' : β → δ}
    (alike : Alike who own R s s') (related : ∀ a b, R a b → Q (f a) (f' b)) :
    Alike who own Q (f <$> s) (f' <$> s') := by
  rw [← bind_pure_comp, ← bind_pure_comp]
  exact alike.bind fun a b h => .done (related a b h)

theorem by_left {s : Script α} {s' : Script β} (alike : Alike who own R s s') : s.By who own := by
  induction alike with
  | done _ => trivial
  | call mine _ ih => exact ⟨rfl, mine, fun r => ih r r rfl⟩
  | note _ ih => exact ⟨rfl, trivial, fun _ => ih⟩
  | alarm _ ih => exact ⟨rfl, trivial, fun _ => ih⟩

/-- Alike scripts that one machine answers from one state do and see the same.
By induction on the scripts: an equal deed in an equal state has an equal
outcome, and leaves equal states behind. -/
theorem runs {s : Script α} {s' : Script β} (alike : Alike who own R s s') {m : Machine ρ}
    {events events' : List Event} {a : α} {b : β} {x y y' : ρ} (run : s.Runs events a)
    (run' : s'.Runs events' b) (answers : m.Answers events x y)
    (answers' : m.Answers events' x y') :
    events.map Event.seen = events'.map Event.seen ∧ R a b ∧ y = y' := by
  induction alike generalizing events events' x with
  | done related =>
    obtain ⟨rfl, rfl⟩ := runs_done_iff.1 run
    obtain ⟨rfl, rfl⟩ := runs_done_iff.1 run'
    cases answers
    cases answers'
    exact ⟨rfl, related, rfl⟩
  | call mine _ ih =>
    obtain ⟨reply, later, rfl, tail⟩ := runs_act_iff.1 run
    obtain ⟨reply', later', rfl, tail'⟩ := runs_act_iff.1 run'
    rcases answers with ⟨outcome, answers⟩
    rcases answers' with ⟨outcome', answers'⟩
    have same : reply.outcome = reply'.outcome := outcome.trans outcome'.symm
    obtain ⟨seen, related, state⟩ := ih reply reply' same tail tail' answers answers'
    refine ⟨?_, related, state⟩
    rw [List.map_cons, List.map_cons, seen]
    simp only [Event.seen, Event.call?, Option.map_some, same]
  | note _ ih =>
    obtain ⟨_, later, rfl, tail⟩ := runs_act_iff.1 run
    obtain ⟨_, later', rfl, tail'⟩ := runs_act_iff.1 run'
    obtain ⟨seen, related, state⟩ := ih tail tail' answers answers'
    exact ⟨congrArg (List.cons _) seen, related, state⟩
  | alarm _ ih =>
    obtain ⟨_, later, rfl, tail⟩ := runs_act_iff.1 run
    obtain ⟨_, later', rfl, tail'⟩ := runs_act_iff.1 run'
    obtain ⟨seen, related, state⟩ := ih tail tail' answers answers'
    exact ⟨congrArg (List.cons _) seen, related, state⟩

end Script.Alike

end TableProbe
