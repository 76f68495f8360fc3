import Mathlib.Data.List.Nodup
import Mathlib.Data.List.Perm.Basic
import TableProbe.Proofs.Script.Alike

/-!
# Interleaved scripts

Whatever the turns are, each of several interleaved scripts goes one way
through itself (`Script.runs_of_interleave`): the events of its thread are a
run of the script.  What these events are depends on the replies.  If threads
share a machine but each calls it only in its own part of the state, then the
replies to a thread come from that part alone (`Machine.Splits.answers`).
-/

namespace TableProbe

variable {σ ρ α : Type}

/-- The events of one thread, in order. -/
def eventsOf (who : Actor) (events : List Event) : List Event :=
  events.filter fun e => e.who = who

theorem eventsOf_append (who : Actor) (first later : List Event) :
    eventsOf who (first ++ later) = eventsOf who first ++ eventsOf who later :=
  List.filter_append ..

theorem eventsOf_cons_self (who : Actor) (deed : Deed) (result : deed.Result)
    (events : List Event) :
    eventsOf who (⟨who, deed, result⟩ :: events) = ⟨who, deed, result⟩ :: eventsOf who events :=
  List.filter_cons_of_pos (decide_eq_true rfl)

theorem eventsOf_cons_of_ne {who : Actor} {e : Event} (h : e.who ≠ who) (events : List Event) :
    eventsOf who (e :: events) = eventsOf who events :=
  List.filter_cons_of_neg (by simpa using h)

theorem eventsOf_eq_self {who : Actor} {events : List Event} (h : ∀ e ∈ events, e.who = who) :
    eventsOf who events = events :=
  List.filter_eq_self.2 fun e he => by simpa using h e he

theorem eventsOf_eq_nil {who : Actor} {events : List Event} (h : ∀ e ∈ events, e.who ≠ who) :
    eventsOf who events = [] :=
  List.filter_eq_nil_iff.2 fun e he => by simpa using h e he

/-! ## Every thread runs its own script -/

/-- Scripts for different threads, each of which keeps to its own calls. -/
structure Script.Team (own : Actor → Call → Prop) (actors : List Actor)
    (scripts : List (Script α)) : Prop where
  distinct : actors.Nodup
  length_eq : scripts.length = actors.length
  owned : ∀ {i : Nat} {who} {s : Script α}, actors[i]? = some who → scripts[i]? = some s →
    s.By who (own who)

/-- What a run of interleaved scripts is made of. -/
structure Script.Woven (own : Actor → Call → Prop) (actors : List Actor)
    (scripts : List (Script α)) (events : List Event) (results : List α) : Prop where
  length_eq : results.length = actors.length
  mem : ∀ e ∈ events, e.who ∈ actors ∧ e.deed.Within (own e.who)
  runs : ∀ {i : Nat} {who} {s : Script α} {a}, actors[i]? = some who → scripts[i]? = some s →
    results[i]? = some a → s.Runs (eventsOf who events) a

namespace Script.Team

variable {own : Actor → Call → Prop} {actors : List Actor} {scripts : List (Script α)}

theorem tail {who : Actor} {s : Script α} (team : Team own (who :: actors) (s :: scripts)) :
    Team own actors scripts where
  distinct := (List.nodup_cons.1 team.distinct).2
  length_eq := Nat.succ.inj team.length_eq
  owned {i _ _} h h' := team.owned (i := i + 1) h h'

theorem exists_actor (team : Team own actors scripts) {i : Nat} {s : Script α}
    (h : scripts[i]? = some s) : ∃ who, actors[i]? = some who ∧ s.By who (own who) := by
  obtain ⟨bound, -⟩ := List.getElem?_eq_some_iff.1 h
  rw [team.length_eq] at bound
  have actor : actors[i]? = some actors[i] := List.getElem?_eq_getElem bound
  exact ⟨_, actor, team.owned actor h⟩

/-- A team goes on when one of its scripts has done a deed: what is left of the
script is one of the same thread, within the same limits. -/
theorem set {i : Nat} {who : Actor} {deed : Deed} {rest : deed.Result → Script α}
    (team : Team own actors scripts) (h : scripts[i]? = some (.act who deed rest))
    (result : deed.Result) : Team own actors (scripts.set i (rest result)) where
  distinct := team.distinct
  length_eq := by rw [List.length_set, team.length_eq]
  owned {j actor s} hj hs := by
    rw [List.getElem?_set] at hs
    split at hs
    · rename_i hij
      subst hij
      split at hs
      · obtain ⟨actor', hactor, owned⟩ := team.exists_actor h
        rw [hactor] at hj
        obtain rfl := Option.some.inj hj
        obtain rfl := Option.some.inj hs
        exact owned.2.2 result
      · cases hs
    · exact team.owned hj hs

/-- Scripts that are played one after another are woven as well: the events of
each thread are those of a run of its own script. -/
theorem sequence_woven {events : List Event} {results : List α} (team : Team own actors scripts)
    (runs : (sequence scripts).Runs events results) :
    Woven own actors scripts events results := by
  induction scripts generalizing actors events results with
  | nil =>
    obtain ⟨rfl, rfl⟩ := runs_done_iff.1 runs
    refine ⟨team.length_eq, fun e he => (by cases he), fun {i _ _ _} _ h _ => (by cases h)⟩
  | cons s scripts ih =>
    cases actors with
    | nil => cases team.length_eq
    | cons who actors =>
      obtain ⟨first, a, later, rfl, head, runs⟩ := runs_bind_iff.1 runs
      obtain ⟨middle, rest, last, rfl, tails, done⟩ := runs_bind_iff.1 runs
      obtain ⟨rfl, rfl⟩ := runs_done_iff.1 done
      rw [List.append_nil]
      have fresh := (List.nodup_cons.1 team.distinct).1
      have firsts := (team.owned (i := 0) rfl rfl).of_mem head
      obtain ⟨lengths, others, woven⟩ := ih team.tail tails
      refine ⟨congrArg Nat.succ lengths, fun e he => ?_, fun {i actor t b} hi ht hb => ?_⟩
      · rcases List.mem_append.1 he with he | he
        · obtain ⟨actor, within⟩ := firsts e he
          rw [actor]
          exact ⟨List.mem_cons_self, within⟩
        · exact ⟨List.mem_cons_of_mem _ (others e he).1, (others e he).2⟩
      · rw [eventsOf_append]
        cases i with
        | zero =>
          obtain rfl := Option.some.inj hi
          obtain rfl := Option.some.inj ht
          obtain rfl := Option.some.inj hb
          rw [eventsOf_eq_self fun e he => (firsts e he).1,
            eventsOf_eq_nil fun e he heq => fresh (by rw [← heq]; exact (others e he).1),
            List.append_nil]
          exact head
        | succ i =>
          have member : actor ∈ actors := List.mem_of_getElem? hi
          rw [eventsOf_eq_nil fun e he heq => fresh (by rwa [← (firsts e he).1, heq]),
            List.nil_append]
          exact woven hi ht hb

/-- Whatever the turns are, each script of a team goes one way through itself.
By induction on the turns: each of them does one deed of one script, and then
goes on with what is left of the team. -/
theorem runs_of_interleave {turns : List Nat} {events : List Event} {results : List α}
    (team : Team own actors scripts) (runs : (interleave turns scripts).Runs events results) :
    Woven own actors scripts events results := by
  induction turns generalizing scripts events with
  | nil => exact team.sequence_woven runs
  | cons turn turns ih =>
    unfold interleave at runs
    split at runs
    · rename_i who deed rest next
      obtain ⟨result, later, rfl, after⟩ := runs_act_iff.1 runs
      obtain ⟨actor, hactor, owned, within, -⟩ := team.exists_actor next
      subst owned
      obtain ⟨lengths, others, woven⟩ := ih (team.set next result) after
      refine ⟨lengths, fun e he => ?_, fun {i actor s a} hi hs ha => ?_⟩
      · rcases List.mem_cons.1 he with rfl | he
        · exact ⟨List.mem_of_getElem? hactor, within⟩
        · exact others e he
      -- the script whose turn it is has done one deed; to all others nothing has happened
      · by_cases hit : i = turn
        · subst hit
          rw [hactor] at hi
          rw [next] at hs
          obtain rfl := Option.some.inj hi
          obtain rfl := Option.some.inj hs
          rw [eventsOf_cons_self]
          have bound := (List.getElem?_eq_some_iff.1 next).1
          exact .act (woven hactor (by rw [List.getElem?_set_self bound]) ha)
        · have differ : who ≠ actor := fun heq =>
            hit ((List.getElem?_inj (List.getElem?_eq_some_iff.1 hi).1 team.distinct).1
              (by rw [hi, hactor, heq]))
          rw [eventsOf_cons_of_ne differ]
          exact woven hi (by rwa [List.getElem?_set_ne (Ne.symm hit)]) ha
    · exact ih team runs

end Script.Team

/-! ## Replies come from a thread's own part -/

/-- A machine whose state has a part for each thread: own calls of a thread are
answered by its part, and leave the parts of all others as they are. -/
structure Machine.Splits (m : Machine σ) (view : Actor → σ → ρ) (part : Actor → Machine ρ)
    (own : Actor → Call → Prop) : Prop where
  outcome : ∀ {who c s}, own who c → (m who c s).1 = (part who who c (view who s)).1
  mine : ∀ {who c s}, own who c → view who (m who c s).2 = (part who who c (view who s)).2
  others : ∀ {who other c s}, own who c → other ≠ who → view other (m who c s).2 = view other s

/-- To each thread it looks as if it were alone.  Its own calls are answered by
its own part of the state, and the calls of others do not touch that part. -/
theorem Machine.Splits.answers {m : Machine σ} {view : Actor → σ → ρ} {part : Actor → Machine ρ}
    {own : Actor → Call → Prop} (splits : m.Splits view part own) {events : List Event} {s s' : σ}
    (within : ∀ e ∈ events, e.deed.Within (own e.who)) (answers : m.Answers events s s')
    (who : Actor) : (part who).Answers (eventsOf who events) (view who s) (view who s') := by
  induction events generalizing s with
  | nil =>
    cases answers
    rfl
  | cons e events ih =>
    have later := fun e he => within e (List.mem_cons_of_mem _ he)
    have here := within e List.mem_cons_self
    rcases e with ⟨actor, deed, result⟩
    -- an event of another thread is left out here, and leaves this part of the state alone
    by_cases hactor : actor = who
    · subst hactor
      rw [eventsOf_cons_self]
      cases deed with
      | call c =>
        rcases answers with ⟨outcome, answers⟩
        have rest := ih later answers
        rw [splits.mine here] at rest
        exact ⟨outcome.trans (splits.outcome here), rest⟩
      | note n => exact ih later answers
      | alarm w => exact ih later answers
      | clock => exact ih later answers
    · rw [eventsOf_cons_of_ne hactor]
      cases deed with
      | call c =>
        have rest := ih later answers.2
        rwa [splits.others here (Ne.symm hactor)] at rest
      | note n => exact ih later answers
      | alarm w => exact ih later answers
      | clock => exact ih later answers

/-! ## All events from those of the threads -/

/-- Events can be counted thread by thread, as long as no thread is listed
twice. -/
theorem countP_eq_sum_eventsOf {actors : List Actor} (distinct : actors.Nodup) (p : Event → Bool)
    {events : List Event} (mem : ∀ e ∈ events, e.who ∈ actors) :
    events.countP p = (actors.map fun who => (eventsOf who events).countP p).sum := by
  induction actors generalizing events with
  | nil =>
    cases events with
    | nil => rfl
    | cons e events => cases mem e List.mem_cons_self
  | cons who actors ih =>
    obtain ⟨fresh, distinct⟩ := List.nodup_cons.1 distinct
    have others : ∀ e ∈ events.filter fun e => !decide (e.who = who), e.who ∈ actors := by
      intro e he
      obtain ⟨he, hne⟩ := List.mem_filter.1 he
      exact (List.mem_cons.1 (mem e he)).resolve_left (by simpa using hne)
    have rest := ih distinct others
    have same : ∀ actor ∈ actors,
        eventsOf actor (events.filter fun e => !decide (e.who = who)) =
          eventsOf actor events := by
      intro actor hactor
      have differ : actor ≠ who := fun heq => fresh (heq ▸ hactor)
      rw [eventsOf, List.filter_filter]
      refine List.filter_congr fun e _ => ?_
      by_cases h : e.who = actor
      · simp [h, differ]
      · simp [h]
    rw [List.map_cons, List.sum_cons,
      List.countP_eq_countP_filter_add events p fun e => e.who = who, rest, eventsOf]
    congr 2
    exact List.map_congr_left fun actor hactor => by rw [same actor hactor]

/-- What there is to see of the events of one thread. -/
def seenBy (who : Actor) (events : List Event) : List (Actor × Deed × Option Outcome) :=
  (eventsOf who events).map Event.seen

theorem seenBy_eq_filter (who : Actor) (events : List Event) :
    seenBy who events = (events.map Event.seen).filter fun x => x.1 = who := by
  rw [List.filter_map]
  rfl

theorem seenBy_append (who : Actor) (first later : List Event) :
    seenBy who (first ++ later) = seenBy who first ++ seenBy who later := by
  rw [seenBy, eventsOf_append, List.map_append]
  rfl

theorem seenBy_eq_nil {who : Actor} {events : List Event} (h : ∀ e ∈ events, e.who ≠ who) :
    seenBy who events = [] := by
  rw [seenBy, eventsOf_eq_nil h]
  rfl

/-- Events that look the same to every thread are the same up to their order
and to times. -/
theorem perm_of_seenBy_eq {events events' : List Event}
    (same : ∀ who, seenBy who events = seenBy who events') :
    (events.map Event.seen).Perm (events'.map Event.seen) := by
  classical
  rw [List.perm_iff_count]
  intro x
  have here := congrArg (List.count x) (same x.1)
  rwa [seenBy_eq_filter, seenBy_eq_filter, List.count_filter (by simp),
    List.count_filter (by simp)] at here

/-- The note that a deed writes. -/
def Deed.note? : Deed → Option Note
  | .note n => some n
  | _ => none

/-- The cause of the alarm that a deed raises. -/
def Deed.alarm? : Deed → Option WorkError
  | .alarm e => some e
  | _ => none

/-- Notes can be seen even when times are left out; so threads that see the
same write the same notes. -/
theorem Event.note?_eq (e : Event) : e.note? = e.seen.2.1.note? := by
  rcases e with ⟨who, deed, result⟩
  cases deed with
  | call c => rfl
  | note n => rfl
  | alarm w => rfl
  | clock => rfl

theorem Event.alarm?_eq (e : Event) : e.alarm? = e.seen.2.1.alarm? := by
  rcases e with ⟨who, deed, result⟩
  cases deed with
  | call c => rfl
  | note n => rfl
  | alarm w => rfl
  | clock => rfl

/-- The same notes are written and the same alarms raised, up to their order,
if the same is seen up to its order. -/
theorem perm_notes_alarms {events events' : List Event}
    (same : (events.map Event.seen).Perm (events'.map Event.seen)) :
    (events.filterMap Event.note?).Perm (events'.filterMap Event.note?) ∧
      (events.filterMap Event.alarm?).Perm (events'.filterMap Event.alarm?) := by
  have notes := same.filterMap fun x => x.2.1.note?
  have alarms := same.filterMap fun x => x.2.1.alarm?
  rw [List.filterMap_map, List.filterMap_map] at notes alarms
  rw [funext Event.note?_eq, funext Event.alarm?_eq]
  exact ⟨notes, alarms⟩

end TableProbe
