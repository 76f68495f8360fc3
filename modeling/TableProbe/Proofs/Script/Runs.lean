import TableProbe.Script.Play

/-!
# Runs of a script

`Script.Runs` relates a script to the events of one way through it and to the
result at its end, whatever the replies were.  The host is kept apart:
`Machine.Answers` says that the calls among some events were answered by a
machine that went from one state to another.  Playing a script is both at once
(`Host.exists_play`), so a fact about all runs is one about every table.
-/

namespace TableProbe

variable {σ τ α β : Type}

/-! ## Ways through a script -/

/-- The script does these deeds, with these results, and comes to this end. -/
inductive Script.Runs : Script α → List Event → α → Prop
  | done {a : α} : Runs (.done a) [] a
  | act {who : Actor} {deed : Deed} {rest : deed.Result → Script α} {result : deed.Result}
      {events : List Event} {a : α} :
      Runs (rest result) events a → Runs (.act who deed rest) (⟨who, deed, result⟩ :: events) a

theorem Script.runs_done_iff {a b : α} {events : List Event} :
    (Script.done a).Runs events b ↔ events = [] ∧ b = a := by
  constructor
  · intro h
    cases h
    exact ⟨rfl, rfl⟩
  · rintro ⟨rfl, rfl⟩
    exact .done

/-- A run of a script that begins with a deed is some result of the deed and a
run of what follows. -/
theorem Script.runs_act_iff {who : Actor} {deed : Deed} {rest : deed.Result → Script α}
    {events : List Event} {a : α} :
    (Script.act who deed rest).Runs events a ↔
      ∃ result later, events = ⟨who, deed, result⟩ :: later ∧ (rest result).Runs later a := by
  constructor
  · intro h
    cases h with
    | act h => exact ⟨_, _, rfl, h⟩
  · rintro ⟨result, later, rfl, h⟩
    exact .act h

/-- The runs of two scripts one after the other are the runs of the first one,
each continued by those of the second one.  With this a run can be cut at any
place of its script. -/
theorem Script.runs_bind_iff {s : Script α} {f : α → Script β} {events : List Event} {b : β} :
    (s >>= f).Runs events b ↔
      ∃ first a later, events = first ++ later ∧ s.Runs first a ∧ (f a).Runs later b := by
  constructor
  · intro h
    induction s generalizing events with
    | done a => exact ⟨[], a, events, rfl, .done, h⟩
    | act who deed rest ih =>
      rw [act_bind, runs_act_iff] at h
      rcases h with ⟨result, later, rfl, h⟩
      obtain ⟨first, a, last, rfl, head, tail⟩ := ih result h
      exact ⟨_, a, last, rfl, .act head, tail⟩
  · rintro ⟨first, a, later, rfl, head, tail⟩
    induction head with
    | done => exact tail
    | act _ ih => exact .act (ih tail)

theorem Script.runs_map_iff {s : Script α} {f : α → β} {events : List Event} {b : β} :
    (f <$> s).Runs events b ↔ ∃ a, s.Runs events a ∧ b = f a := by
  rw [← bind_pure_comp, runs_bind_iff]
  constructor
  · rintro ⟨first, a, later, rfl, head, tail⟩
    obtain ⟨rfl, rfl⟩ := runs_done_iff.1 tail
    exact ⟨a, by rwa [List.append_nil], rfl⟩
  · rintro ⟨a, head, rfl⟩
    exact ⟨events, a, [], (List.append_nil _).symm, head, .done⟩

theorem Script.runs_perform_bind_iff {who : Actor} {deed : Deed} {f : deed.Result → Script α}
    {events : List Event} {a : α} : (Script.perform who deed >>= f).Runs events a ↔
      ∃ result later, events = ⟨who, deed, result⟩ :: later ∧ (f result).Runs later a :=
  Script.runs_act_iff

/-! ## Machines that answer -/

/-- How calls end, for every caller, and the state after them. -/
abbrev Machine (σ : Type) := Actor → Call → σ → Outcome × σ

/-- The calls among the events were answered by the machine, from one state to
another. -/
def Machine.Answers (m : Machine σ) : List Event → σ → σ → Prop
  | [], s, s' => s' = s
  | ⟨who, .call c, reply⟩ :: events, s, s' =>
    reply.outcome = (m who c s).1 ∧ m.Answers events (m who c s).2 s'
  | _ :: events, s, s' => m.Answers events s s'

theorem Machine.answers_cons_of_call?_eq_none {m : Machine σ} {e : Event} {events : List Event}
    {s s' : σ} (h : e.call? = none) : m.Answers (e :: events) s s' ↔ m.Answers events s s' := by
  rcases e with ⟨who, deed, result⟩
  cases deed with
  | call c => cases h
  | note n => exact Iff.rfl
  | alarm w => exact Iff.rfl
  | clock => exact Iff.rfl

/-- A history of calls can be cut anywhere: there is a state in which the first
part ends and the second one begins. -/
theorem Machine.answers_append_iff {m : Machine σ} {first later : List Event} {s s' : σ} :
    m.Answers (first ++ later) s s' ↔ ∃ mid, m.Answers first s mid ∧ m.Answers later mid s' := by
  induction first generalizing s with
  | nil => exact ⟨fun h => ⟨s, rfl, h⟩, fun ⟨_, h, h'⟩ => by cases h; exact h'⟩
  | cons e first ih =>
    rcases e with ⟨who, deed, result⟩
    cases deed with
    | call c =>
      simp only [List.cons_append, Machine.Answers, ih]
      exact ⟨fun ⟨h, mid, h'⟩ => ⟨mid, ⟨h, h'.1⟩, h'.2⟩, fun ⟨mid, h, h'⟩ => ⟨h.1, mid, h.2, h'⟩⟩
    | note n => exact ih
    | alarm w => exact ih
    | clock => exact ih

/-- Every call ended as the machine lets it end in some state. -/
theorem Machine.Answers.outcome {m : Machine σ} {events : List Event} {s s' : σ}
    (answers : m.Answers events s s') : ∀ e ∈ events, ∀ call reply, e.call? = some (call, reply) →
      ∃ mid, reply.outcome = (m e.who call mid).1 := by
  induction events generalizing s with
  | nil =>
    intro e he
    cases he
  | cons first events ih =>
    intro e he call reply calls
    rcases List.mem_cons.1 he with rfl | later
    · rcases e with ⟨who, deed, result⟩
      cases deed with
      | call c =>
        cases calls
        exact ⟨s, answers.1⟩
      | note n => cases calls
      | alarm w => cases calls
      | clock => cases calls
    · have split : m.Answers ([first] ++ events) s s' := answers
      obtain ⟨mid, -, rest⟩ := answers_append_iff.1 split
      exact ih rest e later call reply calls

/-- Events without calls leave the state as it is. -/
theorem Machine.answers_iff_of_no_calls {m : Machine σ} {events : List Event} {s s' : σ}
    (quiet : ∀ e ∈ events, e.call? = none) : m.Answers events s s' ↔ s' = s := by
  induction events with
  | nil => exact Iff.rfl
  | cons e events ih =>
    rw [answers_cons_of_call?_eq_none (quiet e List.mem_cons_self)]
    exact ih fun e he => quiet e (List.mem_cons_of_mem _ he)

/-- One machine follows another through a view of its states, as long as these
stay regular. -/
structure Machine.Follows (m : Machine σ) (n : Machine τ) (view : σ → τ) (regular : σ → Prop) :
    Prop where
  outcome : ∀ {who c s}, regular s → (m who c s).1 = (n who c (view s)).1
  state : ∀ {who c s}, regular s → view (m who c s).2 = (n who c (view s)).2
  stays : ∀ {who c s}, regular s → regular (m who c s).2

/-- Calls that are answered by one machine are answered alike by the machine
that it follows.  By induction on the events, with the regularity of the state
as the invariant. -/
theorem Machine.Follows.answers {m : Machine σ} {n : Machine τ} {view : σ → τ}
    {regular : σ → Prop} (follows : m.Follows n view regular) {events : List Event} {s s' : σ}
    (start : regular s) (answers : m.Answers events s s') :
    n.Answers events (view s) (view s') ∧ regular s' := by
  induction events generalizing s with
  | nil =>
    cases answers
    exact ⟨rfl, start⟩
  | cons e events ih =>
    rcases e with ⟨who, deed, result⟩
    cases deed with
    | call c =>
      rcases answers with ⟨outcome, answers⟩
      obtain ⟨later, regular⟩ := ih (follows.stays start) answers
      rw [follows.state start] at later
      exact ⟨⟨outcome.trans (follows.outcome start), later⟩, regular⟩
    | note n => exact ih start answers
    | alarm w => exact ih start answers
    | clock => exact ih start answers

/-! ## Playing is running with answers -/

namespace Host

/-- How the calls of a script end that is played against the host. -/
def machine (host : Host σ) : Machine σ := fun who c s =>
  ((host.answer who c s).1.outcome, (host.answer who c s).2)

/-- What comes of a script at a host is a run of the script, appended to what
was done before, and it is cut short only by an alarm that the policy stops at.
By induction on the script; the past grows with each deed, so it has to be
general. -/
theorem playAfter_spec (host : Host σ) (policy : AlarmPolicy) (script : Script α)
    (past : List Event) (s : σ) :
    ∃ events, (host.playAfter policy script past s).events = past.reverse ++ events ∧
      host.machine.Answers events s (host.playAfter policy script past s).state ∧
      (∀ a, (host.playAfter policy script past s).result? = some a → script.Runs events a) ∧
      (policy = .goOn ∨ (∀ e ∈ events, e.alarm? = none) →
        (host.playAfter policy script past s).result? ≠ none) := by
  -- the past grows with each deed, and the state changes, so the induction has both general
  induction script generalizing past s with
  | done a =>
    refine ⟨[], by simp [playAfter], rfl, fun b h => ?_, fun _ => by simp [playAfter]⟩
    rw [← Option.some.inj h]
    exact .done
  | act who deed rest ih =>
    let result := (host.respond past s who deed).1
    let next := (host.respond past s who deed).2
    let event : Event := ⟨who, deed, result⟩
    have answered (events : List Event) (s' : σ) (later : host.machine.Answers events next s') :
        host.machine.Answers (event :: events) s s' := by
      cases deed with
      | call c => exact ⟨rfl, later⟩
      | note n => exact later
      | alarm w => exact later
      | clock => exact later
    -- only an alarm, and only under the policy that exits, ends the play before the script
    by_cases stop : policy = .exit ∧ event.alarm?.isSome
    · have play : host.playAfter policy (.act who deed rest) past s =
          ⟨none, (event :: past).reverse, next⟩ := if_pos stop
      rw [play]
      refine ⟨[event], List.reverse_cons, answered [] _ rfl, fun a h => (by cases h), fun h => ?_⟩
      rcases h with h | h
      · rw [stop.1] at h
        cases h
      · rw [h event (List.mem_singleton_self _)] at stop
        cases stop.2
    · have play : host.playAfter policy (.act who deed rest) past s =
          host.playAfter policy (rest result) (event :: past) next := if_neg stop
      rw [play]
      obtain ⟨events, all, answers, runs, goesOn⟩ := ih result (event :: past) next
      rw [List.reverse_cons, List.append_assoc] at all
      exact ⟨event :: events, all, answered _ _ answers, fun a h => .act (runs a h),
        fun h => goesOn (h.imp_right fun h e he => h e (List.mem_cons_of_mem _ he))⟩

/-- A script that is played with alarms that change nothing comes to an end.
Scripts are finite whatever the replies are, so no bound on their length is
needed. -/
theorem exists_play (host : Host σ) (script : Script α) (s : σ) :
    ∃ events a s', host.play .goOn script s = ⟨some a, events, s'⟩ ∧ script.Runs events a ∧
      host.machine.Answers events s s' := by
  obtain ⟨events, all, answers, runs, goesOn⟩ := host.playAfter_spec .goOn script [] s
  obtain ⟨a, result⟩ := Option.ne_none_iff_exists'.1 (goesOn (.inl rfl))
  refine ⟨events, a, _, ?_, runs a result, answers⟩
  rw [play, ← result]
  exact congrArg (Performance.mk _ · _) all

/-- A play that comes to a result has run through the script. -/
theorem runs_of_play (host : Host σ) {policy : AlarmPolicy} {script : Script α} {s : σ} {a : α}
    (ends : (host.play policy script s).result? = some a) :
    script.Runs (host.play policy script s).events a := by
  obtain ⟨events, all, -, runs, -⟩ := host.playAfter_spec policy script [] s
  have same : (host.play policy script s).events = events := all
  exact same ▸ runs a ends

/-- A call that comes next is answered by the host, and the script goes on with
the reply. -/
theorem playAfter_call (host : Host σ) (policy : AlarmPolicy) (who : Actor) (c : Call)
    (rest : Reply → Script α) (past : List Event) (s : σ) :
    host.playAfter policy (.act who (.call c) rest) past s =
      host.playAfter policy (rest (host.answer who c s).1)
        (⟨who, .call c, (host.answer who c s).1⟩ :: past) (host.answer who c s).2 :=
  if_neg fun stop => by cases stop.2

/-- One script after another is played one after the other, unless an alarm
ends the program in the first of them. -/
theorem playAfter_bind (host : Host σ) (policy : AlarmPolicy) (script : Script α)
    (next : α → Script β) (past : List Event) (s : σ) :
    host.playAfter policy (script >>= next) past s =
      match host.playAfter policy script past s with
      | ⟨some a, events, s'⟩ => host.playAfter policy (next a) events.reverse s'
      | ⟨none, events, s'⟩ => ⟨none, events, s'⟩ := by
  induction script generalizing past s with
  | done a =>
    rw [Script.done_bind, playAfter]
    dsimp only
    rw [List.reverse_reverse]
  | act who deed rest ih =>
    rw [Script.act_bind, playAfter, playAfter]
    dsimp only
    split
    · rfl
    · exact ih ..

/-- A result is only looked at when the play is over. -/
theorem playAfter_map (host : Host σ) (policy : AlarmPolicy) (f : α → β) (script : Script α)
    (past : List Event) (s : σ) :
    host.playAfter policy (f <$> script) past s =
      ⟨(host.playAfter policy script past s).result?.map f,
        (host.playAfter policy script past s).events,
        (host.playAfter policy script past s).state⟩ := by
  induction script generalizing past s with
  | done a => rfl
  | act who deed rest ih =>
    let result := (host.respond past s who deed).1
    let next := (host.respond past s who deed).2
    let event : Event := ⟨who, deed, result⟩
    by_cases stop : policy = .exit ∧ event.alarm?.isSome
    · have play : host.playAfter policy (.act who deed rest) past s =
          ⟨none, (event :: past).reverse, next⟩ := if_pos stop
      have mapped : host.playAfter policy (f <$> Script.act who deed rest) past s =
          ⟨none, (event :: past).reverse, next⟩ := if_pos stop
      rw [play, mapped]
      rfl
    · have play : host.playAfter policy (.act who deed rest) past s =
          host.playAfter policy (rest result) (event :: past) next := if_neg stop
      have mapped : host.playAfter policy (f <$> Script.act who deed rest) past s =
          host.playAfter policy (f <$> rest result) (event :: past) next := if_neg stop
      rw [play, mapped]
      exact ih result (event :: past) next

/-- An alarm that ends the program only cuts short what would have been done.
If there is none then both ways to play come to the same. -/
theorem playAfter_cases (host : Host σ) (policy : AlarmPolicy) (script : Script α)
    (past : List Event) (s : σ) :
    host.playAfter policy script past s = host.playAfter .goOn script past s ∨
      (host.playAfter policy script past s).result? = none ∧
        (host.playAfter policy script past s).events <+:
          (host.playAfter .goOn script past s).events := by
  induction script generalizing past s with
  | done a => exact .inl rfl
  | act who deed rest ih =>
    let result := (host.respond past s who deed).1
    let next := (host.respond past s who deed).2
    let event : Event := ⟨who, deed, result⟩
    have next_deed (p : AlarmPolicy) (on : ¬ (p = .exit ∧ event.alarm?.isSome)) :
        host.playAfter p (.act who deed rest) past s = host.playAfter p (rest result)
            (event :: past) next :=
      if_neg on
    rw [next_deed .goOn fun stop => by cases stop.1]
    by_cases stop : policy = .exit ∧ event.alarm?.isSome
    · have play : host.playAfter policy (.act who deed rest) past s =
          ⟨none, (event :: past).reverse, next⟩ := if_pos stop
      obtain ⟨later, all, -⟩ := host.playAfter_spec .goOn (rest result) (event :: past) next
      rw [play]
      exact .inr ⟨rfl, later, all.symm⟩
    · rw [next_deed policy stop]
      exact ih result (event :: past) next

/-- Stopping at an alarm cuts off what would have come after it, and changes
nothing before it. -/
theorem events_play_prefix (host : Host σ) (policy : AlarmPolicy) (script : Script α) (s : σ) :
    (host.play policy script s).events <+: (host.play .goOn script s).events := by
  rcases host.playAfter_cases policy script [] s with same | ⟨-, cut⟩
  · have events := congrArg Performance.events same
    exact ⟨[], (List.append_nil _).trans events⟩
  · exact cut

/-- What alarms lead to does not matter if there are none. -/
theorem playAfter_eq_goOn (host : Host σ) (policy : AlarmPolicy) (script : Script α)
    (past : List Event) (s : σ)
    (quiet : ∀ e ∈ (host.playAfter .goOn script past s).events, e.alarm? = none) :
    host.playAfter policy script past s = host.playAfter .goOn script past s := by
  rcases host.playAfter_cases policy script past s with same | ⟨none, before⟩
  · exact same
  · obtain ⟨events, all, -, -, goesOn⟩ := host.playAfter_spec policy script past s
    rw [all] at before
    refine absurd none (goesOn (.inr fun e he => quiet e ?_))
    exact before.subset (List.mem_append_right _ he)

end Host

end TableProbe
