import TableProbe.Table.Backend

/-!
# Sequences of calls

A table is seen by its callers through the outcomes of their calls alone.
Whatever the calls are, those of every backend are the outcomes of a perfect
map that begins with nothing (`Store.backends_are_one_map`).  There is one
exception: a table that has to be created first refuses the reads that come
before any other call.
-/

namespace TableProbe

variable {σ : Type}

/-- How calls end that are made one after another, and the state after them. -/
def Table.answerAll (t : Table σ) : List Call → σ → List Outcome × σ
  | [], s => ([], s)
  | call :: calls, s =>
    let (outcome, s) := t.answer call s
    let (outcomes, s) := t.answerAll calls s
    (outcome :: outcomes, s)

theorem Table.answerAll_append (t : Table σ) (first later : List Call) (s : σ) :
    t.answerAll (first ++ later) s =
      ((t.answerAll first s).1 ++ (t.answerAll later (t.answerAll first s).2).1,
        (t.answerAll later (t.answerAll first s).2).2) := by
  induction first generalizing s with
  | nil => rfl
  | cons call first ih => simp only [List.cons_append, answerAll, ih]

/-! ## What callers were told -/

namespace Contents

/-- What callers have to believe after they were told how a call ended. -/
def told (c : Contents) : Call × Outcome → Contents
  | (.insert key value, .ok (.changed true)) => c.set key (some value)
  | (.update key value, .ok (.changed true)) => c.set key (some value)
  | (.erase key, .ok (.changed true)) => c.set key none
  | _ => c

/-- What callers have to believe after a history of calls: each key holds the
value that was stored last, unless it was erased since. -/
def ofHistory (history : List (Call × Outcome)) : Contents := history.foldl told empty

/-- A perfect map holds what callers were told, after one call as before it. -/
theorem told_answer (c : Contents) (call : Call) :
    c.told (call, .ok (answer call c).1) = (answer call c).2 := by
  cases call with
  | init => rfl
  | read key => rfl
  | insert key value =>
    cases h : c key with
    | none => simp only [answer, h, Option.isNone_none, if_true, told]
    | some old => simp only [answer, h, Option.isNone_some, Bool.false_eq_true, if_false, told]
  | update key value =>
    cases h : c key with
    | none => simp only [answer, h, Option.isSome_none, Bool.false_eq_true, if_false, told]
    | some old => simp only [answer, h, Option.isSome_some, if_true, told]
  | erase key =>
    cases h : c key with
    | none => simp only [answer, h, Option.isSome_none, Bool.false_eq_true, if_false, told]
    | some old => simp only [answer, h, Option.isSome_some, if_true, told]

variable {calls : List Call} {c : Contents}

/-- After any number of calls the contents are what callers have to believe who
were told all the outcomes. -/
theorem answerAll_eq_told (calls : List Call) (c : Contents) :
    (table.answerAll calls c).2 = (calls.zip (table.answerAll calls c).1).foldl told c := by
  induction calls generalizing c with
  | nil => rfl
  | cons call calls ih =>
    simp only [Table.answerAll, table, List.zip_cons_cons, List.foldl_cons, told_answer]
    exact ih (answer call c).2

/-- Every answer of a perfect map follows from what callers were told before:
nobody needs to look into the map to know it. -/
theorem outcome_of_history {past rest : List (Call × Outcome)} {call : Call} {outcome : Outcome}
    (h : calls.zip (table.answerAll calls c).1 = past ++ (call, outcome) :: rest) :
    outcome = .ok (answer call (past.foldl told c)).1 := by
  induction calls generalizing c past with
  | nil => simp [Table.answerAll] at h
  | cons first calls ih =>
    simp only [Table.answerAll, table, List.zip_cons_cons] at h
    cases past with
    | nil =>
      injection h with h
      injection h with h₁ h₂
      rw [← h₁, ← h₂]
      rfl
    | cons told_first past =>
      injection h with h₁ h₂
      rw [List.foldl_cons, ← h₁, told_answer]
      exact ih h₂

theorem answerAll_ok (calls : List Call) (c : Contents) :
    ∀ outcome ∈ (table.answerAll calls c).1, ∃ answer, outcome = .ok answer := by
  induction calls generalizing c with
  | nil =>
    intro outcome mem
    cases mem
  | cons call calls ih =>
    intro outcome mem
    rcases List.mem_cons.1 mem with rfl | mem
    · exact ⟨_, rfl⟩
    · exact ih _ outcome mem

end Contents

/-! ## Backends -/

/-- The call looks a key up. -/
def Call.isRead : Call → Bool
  | .read _ => true
  | _ => false

/-- Whether a table refuses a call as long as it was not created. -/
def Backend.refuses (b : Backend) (call : Call) : Bool := b = .transactional && call.isRead

namespace Store

variable {b : Backend} {capacity : UInt64} {calls : List Call}

/-- A table that is ready answers as a perfect map with the same contents, for
any number of calls.  By induction on the calls; the table stays ready. -/
theorem answerAll_of_isReady {s : Store} (ready : s.isReady = true) (calls : List Call) :
    (table.answerAll calls s).1 = (Contents.table.answerAll calls s.contents).1 ∧
      (table.answerAll calls s).2.contents = (Contents.table.answerAll calls s.contents).2 := by
  induction calls generalizing s with
  | nil => exact ⟨rfl, rfl⟩
  | cons call calls ih =>
    have able : s.isReady = true ∨ ∀ key, call ≠ .read key := .inl ready
    obtain ⟨outcome, after⟩ := answer_agrees able
    obtain ⟨outcomes, last⟩ := ih (isReady_answer able)
    rw [after] at outcomes last
    refine ⟨?_, last⟩
    simp only [Table.answerAll, table, Contents.table] at outcomes ⊢
    rw [outcome, outcomes]

/-- A table that is not created yet will be so by any call that is not a read. -/
theorem ready_or_creates (capacity : UInt64) {call : Call} (accepts : b.refuses call = false) :
    (ofBackend capacity b).isReady = true ∨ ∀ key, call ≠ .read key := by
  cases b with
  | hashed => exact .inl rfl
  | ordered => exact .inl rfl
  | swapping => exact .inl rfl
  | transactional =>
    refine .inr fun key same => ?_
    rw [same] at accepts
    cases accepts

/-- So does an empty table, unless it is still to be created and the first call
is a read. -/
theorem answerAll_ofBackend (capacity : UInt64)
    (accepts : ∀ call, calls.head? = some call → b.refuses call = false) :
    (table.answerAll calls (ofBackend capacity b)).1 = (Contents.table.answerAll calls .empty).1 ∧
      (table.answerAll calls (ofBackend capacity b)).2.contents =
        (Contents.table.answerAll calls .empty).2 := by
  cases calls with
  | nil => exact ⟨rfl, contents_ofBackend capacity b⟩
  | cons call calls =>
    have able := ready_or_creates capacity (accepts call rfl)
    obtain ⟨outcome, after⟩ := answer_agrees able
    obtain ⟨outcomes, last⟩ := answerAll_of_isReady (isReady_answer able) calls
    rw [after] at outcomes last
    rw [contents_ofBackend] at outcome outcomes last
    refine ⟨?_, last⟩
    simp only [Table.answerAll, table, Contents.table] at outcomes ⊢
    rw [outcome, outcomes]

/-- A read of a table that is not created fails, and does not create it. -/
theorem answer_of_refuses (capacity : UInt64) {call : Call} (refuses : b.refuses call = true) :
    table.answer call (ofBackend capacity b) =
      (.error (.error .missing), ofBackend capacity b) := by
  obtain ⟨transactional, read⟩ := Bool.and_eq_true_iff.1 refuses
  obtain rfl := of_decide_eq_true transactional
  cases call with
  | read key => rfl
  | init => cases read
  | insert key value => cases read
  | update key value => cases read
  | erase key => cases read

/-- Calls that are refused leave the table as it was, so a row of them is
refused as a whole. -/
theorem answerAll_refused (refused : ∀ call ∈ calls, b.refuses call = true) :
    table.answerAll calls (ofBackend capacity b) =
      (calls.map fun _ => .error (.error .missing), ofBackend capacity b) := by
  induction calls with
  | nil => rfl
  | cons call calls ih =>
    have rest := ih fun call mem => refused call (List.mem_cons_of_mem _ mem)
    have first := answer_of_refuses capacity (refused call List.mem_cons_self)
    simp only [Table.answerAll, first, rest, List.map_cons]

/-- All backends are one map.  An empty table of any backend, for any expected
number of entries, answers any sequence of calls as a perfect map does that
begins with nothing, and holds the same afterwards; the answers are those that
follow from what the callers were told before.  Only a table that is still to
be created fails the reads before the first other call, and these change
nothing.  So tables that are prepared first cannot be told apart. -/
theorem backends_are_one_map (b : Backend) (capacity : UInt64) (calls : List Call) :
    let refused := calls.takeWhile b.refuses
    let served := calls.dropWhile b.refuses
    let perfect := Contents.table.answerAll served .empty
    table.answerAll refused (ofBackend capacity b) =
        (refused.map fun _ => .error (.error .missing), ofBackend capacity b) ∧
      (table.answerAll calls (ofBackend capacity b)).1 =
        refused.map (fun _ => .error (.error .missing)) ++ perfect.1 ∧
      (table.answerAll calls (ofBackend capacity b)).2.contents = perfect.2 ∧
      (∀ outcome ∈ perfect.1, ∃ answer, outcome = .ok answer) ∧
      (∀ past call outcome rest, served.zip perfect.1 = past ++ (call, outcome) :: rest →
        outcome = .ok (Contents.answer call (Contents.ofHistory past)).1) ∧
      perfect.2 = Contents.ofHistory (served.zip perfect.1) ∧
      TableError.missing.message = "Table 'data' does not exist" ∧
      ∀ b' capacity', (table.answerAll (.init :: calls) (ofBackend capacity b)).1 =
        (table.answerAll (.init :: calls) (ofBackend capacity' b')).1 := by
  intro refused served perfect
  have first : table.answerAll refused (ofBackend capacity b) =
      (refused.map fun _ => .error (.error .missing), ofBackend capacity b) :=
    answerAll_refused fun call mem => List.all_eq_true.1 List.all_takeWhile call mem
  have accepts : ∀ call, served.head? = some call → b.refuses call = false := by
    intro call head
    have stopped := List.head?_dropWhile_not b.refuses calls
    rw [head] at stopped
    exact stopped
  obtain ⟨outcomes, last⟩ := answerAll_ofBackend capacity accepts
  have parts : refused ++ served = calls := List.takeWhile_append_dropWhile
  have whole : table.answerAll calls (ofBackend capacity b) =
      (refused.map (fun _ => .error (.error .missing)) ++
        (table.answerAll served (ofBackend capacity b)).1,
        (table.answerAll served (ofBackend capacity b)).2) := by
    calc table.answerAll calls (ofBackend capacity b)
        = table.answerAll (refused ++ served) (ofBackend capacity b) := by rw [parts]
      _ = _ := by rw [Table.answerAll_append, first]
  have prepared (b' : Backend) (capacity' : UInt64) :
      (table.answerAll (.init :: calls) (ofBackend capacity' b')).1 =
        (Contents.table.answerAll (.init :: calls) .empty).1 := by
    refine (answerAll_ofBackend capacity' fun call head => ?_).1
    obtain rfl := Option.some.inj head
    exact Bool.and_false _
  refine ⟨first, ?_, ?_, Contents.answerAll_ok served .empty, ?_,
    Contents.answerAll_eq_told served .empty, rfl, ?_⟩
  · rw [whole, outcomes]
  · rw [whole, last]
  · intro past call outcome rest split
    exact Contents.outcome_of_history split
  · intro b' capacity'
    rw [prepared, prepared]

end Store

end TableProbe
