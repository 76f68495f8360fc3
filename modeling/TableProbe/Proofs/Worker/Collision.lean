import TableProbe.Proofs.Table.Correct
import TableProbe.Proofs.Worker.InRange

/-!
# Filling a table that holds something already

A worker that fills a correct table adds its keys one after another until it
comes to one that was there before.  It stops at that key, says so once, and
leaves everything else as it was (`Worker.fill_stops_at_first_present`).  The
keys that it adds itself are never in its way, since they differ from each
other.
-/

namespace TableProbe

/-! ## Values in their order -/

namespace ValueSource

/-- The value that comes next, however long it is. -/
def value (source : ValueSource) : Bytes := (source.generator.bytes source.size).1

/-- What is left of a source when so many values were drawn. -/
def ahead (source : ValueSource) : Nat → ValueSource
  | 0 => source
  | n + 1 => ahead { source with generator := (source.generator.bytes source.size).2 } n

/-- The value that is drawn is the next one, and the values that come later are
those that were to come. -/
theorem eq_value_of_next {source rest : ValueSource} {drawn : Bytes}
    (h : source.next = .ok (drawn, rest)) :
    drawn = source.value ∧ ∀ n, rest.ahead n = source.ahead (n + 1) := by
  obtain ⟨-, rfl, rfl⟩ := next_eq_ok_iff.1 h
  exact ⟨rfl, fun _ => rfl⟩

end ValueSource

/-! ## Contents that gain keys -/

/-- So many keys of a thread, from a place on, were absent and have the values
of a source in their order now; all other keys are as before. -/
structure Contents.Gains (c c' : Contents) (space : KeySpace) (thread : UInt64) (first n : Nat)
    (values : ValueSource) : Prop where
  absent : ∀ i < n, c (space.keyAt thread (first + i)) = none
  added : ∀ i < n, c' (space.keyAt thread (first + i)) = some (values.ahead i).value
  others : ∀ key, (∀ i < n, key ≠ space.keyAt thread (first + i)) → c' key = c key

namespace Contents.Gains

variable {c c' : Contents} {space : KeySpace} {thread : UInt64} {first n : Nat}
  {values rest : ValueSource}

theorem none_added (c : Contents) (space : KeySpace) (thread : UInt64) (first : Nat)
    (values : ValueSource) : c.Gains c space thread first 0 values where
  absent i h := absurd h (Nat.not_lt_zero i)
  added i h := absurd h (Nat.not_lt_zero i)
  others _ _ := rfl

/-- What was there before is still there. -/
theorem kept (gains : c.Gains c' space thread first n values) {key : Bytes}
    (present : (c key).isSome) : c' key = c key := by
  refine gains.others key fun i below same => ?_
  rw [same, gains.absent i below] at present
  cases present

/-- One more key was added before. -/
theorem cons {value : Bytes} (absent : c (space.keyAt thread first) = none)
    (drawn : values.next = .ok (value, rest))
    (fit : ∀ i < first + (n + 1), space.numberAt thread i < 2 ^ 64)
    (gains : (c.set (space.keyAt thread first) (some value)).Gains c' space thread
      (first + 1) n rest) :
    c.Gains c' space thread first (n + 1) values := by
  obtain ⟨rfl, ahead⟩ := ValueSource.eq_value_of_next drawn
  have later {i : Nat} (below : i < n) : space.keyAt thread (first + 1 + i) ≠
      space.keyAt thread first := by
    intro same
    have := (space.keyAt_inj (fit _ (by omega)) (fit first (by omega))).1 same
    omega
  have step (i : Nat) : first + (i + 1) = first + 1 + i := by omega
  refine ⟨fun i below => ?_, fun i below => ?_, fun key other => ?_⟩
  · cases i with
    | zero => exact absent
    | succ i =>
      have below := Nat.lt_of_succ_lt_succ below
      rw [step, ← gains.absent i below, set_of_ne (later below)]
  · cases i with
    | zero =>
      rw [Nat.add_zero, gains.others _ fun i below => (later below).symm, set_same]
      rfl
    | succ i => rw [step, gains.added i (Nat.lt_of_succ_lt_succ below), ahead]
  · rw [gains.others key fun i below => step i ▸ other (i + 1) (Nat.succ_lt_succ below)]
    exact set_of_ne (other 0 (Nat.succ_pos n))

end Contents.Gains

namespace Worker

variable {keys : KeySpace} {thread seq : UInt64} {count first added made : Nat}
  {values values' rest : ValueSource} {events : List Event} {r : Except (Failure WorkError) Unit}
  {c c' : Contents}

/-- The inserts of the keys of a thread from a place on, each with the next
value. -/
def inserts (keys : KeySpace) (thread : UInt64) (first : Nat) (values : ValueSource) (n : Nat) :
    List Call :=
  (List.range n).map fun i => .insert (keys.keyAt thread (first + i)) (values.ahead i).value

theorem inserts_succ (drawn : values.next = .ok (value, rest)) (n : Nat) :
    inserts keys thread first values (n + 1) =
      .insert (keys.keyAt thread first) value :: inserts keys thread (first + 1) rest n := by
  obtain ⟨rfl, ahead⟩ := ValueSource.eq_value_of_next drawn
  rw [inserts, List.range_succ_eq_map, List.map_cons, List.map_map, inserts]
  refine congrArg₂ List.cons rfl (List.map_congr_left fun i _ => ?_)
  rw [Function.comp_apply, ahead, Nat.succ_eq_add_one, Nat.add_right_comm, Nat.add_assoc]

/-- How filling ends that added some keys in so many inserts: all of them, or
those before one that was there. -/
inductive Met (keys : KeySpace) (thread : UInt64) (first count : Nat) (c : Contents) :
    Nat → Nat → List Note → List WorkError → Except (Failure WorkError) Unit → Prop
  | nothing : Met keys thread first count c count count [] [] (.ok ())
  | present {n : Nat} : n < count → (c (keys.keyAt thread (first + n))).isSome →
      Met keys thread first count c n (n + 1) [.fillRefused thread (.ofNat (first + n))]
        [.fillRefused thread (.ofNat (first + n))]
          (.error (.error (.fillRefused thread (.ofNat (first + n)))))

theorem Met.added_le {notes : List Note} {alarms : List WorkError}
    (met : Met keys thread first count c added made notes alarms r) : added ≤ count := by
  cases met with
  | nothing => exact Nat.le_refl _
  | present below _ => exact Nat.le_of_lt below

/-- A key added before is not the one that is met. -/
theorem Met.cons {value : Bytes} {notes : List Note} {alarms : List WorkError}
    (fit : ∀ i < first + (count + 1), keys.numberAt thread i < 2 ^ 64)
    (met : Met keys thread (first + 1) count (c.set (keys.keyAt thread first) (some value)) added
      made notes alarms r) :
    Met keys thread first (count + 1) c (added + 1) (made + 1) notes alarms r := by
  cases met with
  | nothing => exact .nothing
  | present below present =>
    have other : keys.keyAt thread (first + 1 + added) ≠ keys.keyAt thread first := by
      intro same
      have := (keys.keyAt_inj (fit _ (by omega)) (fit first (by omega))).1 same
      omega
    have step : first + 1 + added = first + (added + 1) := by omega
    rw [Contents.set_of_ne other] at present
    rw [step] at present ⊢
    exact .present (Nat.succ_lt_succ below) present

/-- What filling a perfect table did, and what is left of the contents and of
the source of values. -/
structure Filled (keys : KeySpace) (thread : UInt64) (first count : Nat) (values : ValueSource)
    (c c' : Contents) (events : List Event) (r : Except (Failure WorkError) Unit)
    (values' : ValueSource) (added made : Nat) : Prop where
  met : Met keys thread first count c added made (events.filterMap Event.note?)
    (events.filterMap Event.alarm?) r
  gains : c.Gains c' keys thread first added values
  calls : (events.filterMap Event.call?).map Prod.fst = inserts keys thread first values made
  values_eq : values' = values.ahead made

/-- A worker that fills a perfect table goes on to the first key that was
there. -/
theorem filled_of_filling (short : count = 0 ∨ keys.size < 2 ^ 63 ∧ values.size < 2 ^ 63)
    (bound : seq.toNat + count < 2 ^ 64)
    (fit : ∀ i < seq.toNat + count, keys.numberAt thread i < 2 ^ 64)
    (filling : Filling keys thread count seq values events r values')
    (answers : Contents.machine.Answers events c c') :
    ∃ added made, Filled keys thread seq.toNat count values c c' events r values' added made := by
  induction filling generalizing c with
  | finished =>
    obtain rfl : c' = c := answers
    exact ⟨0, 0, .nothing, .none_added _ _ _ _ _, rfl, rfl⟩
  | @keyless count seq _ _ hkey =>
    have sizes := short.resolve_left (Nat.succ_ne_zero _)
    exact absurd sizes.1 (keys.long_of_key_eq_error (fit seq.toNat (by omega)) hkey).2
  | valueless hvalue =>
    have sizes := short.resolve_left (Nat.succ_ne_zero _)
    exact absurd sizes.2 (ValueSource.long_of_next_eq_error hvalue).2
  | refused _ _ failed =>
    rw [answers.1] at failed
    cases failed
  | @mismatched count seq values rest key value _ _ hkey hvalue answered miss =>
    obtain ⟨-, -, rfl⟩ := keys.key_eq_ok_iff.1 hkey
    cases answers.1.symm.trans answered
    have unchanged : c' = c := answers.2.trans (Contents.answer_of_not_holds miss)
    have present : (c (keys.keyAt thread (seq.toNat + 0))).isSome := by
      simpa [Contents.answer_insert, Answer.holds] using miss
    obtain ⟨-, ahead⟩ := ValueSource.eq_value_of_next hvalue
    have number : UInt64.ofNat (seq.toNat + 0) = seq := UInt64.ofNat_toNat
    have met := Met.present (Nat.succ_pos count) present
    rw [number] at met
    exact ⟨0, 1, met, unchanged ▸ .none_added _ _ _ _ _, (inserts_succ hvalue 0).symm, ahead 0⟩
  | @added count seq values rest _ key value reply _ later _ hkey hvalue answered hit _ ih =>
    obtain ⟨-, -, rfl⟩ := keys.key_eq_ok_iff.1 hkey
    cases answers.1.symm.trans answered
    have absent : c (keys.keyAt thread seq.toNat) = none := by
      simpa [Contents.answer_insert, Answer.holds] using hit
    have set : (Contents.answer (.insert (keys.keyAt thread seq.toNat) value) c).2 =
        c.set (keys.keyAt thread seq.toNat) (some value) := by
      rw [Contents.answer_insert, absent]
      rfl
    have after :
        Contents.machine.Answers later (c.set (keys.keyAt thread seq.toNat) (some value)) c' :=
      set ▸ answers.2
    have size := (ValueSource.next_eq_ok hvalue).2
    have next := toNat_next bound
    have sizes := short.resolve_left (Nat.succ_ne_zero _)
    obtain ⟨n, made, met, gains, calls, values_eq⟩ :=
      ih (.inr ⟨sizes.1, size ▸ sizes.2⟩) (by omega) (fun i below => fit i (by omega)) after
    rw [next] at met gains calls
    have few := met.added_le
    refine ⟨n + 1, made + 1, met.cons fit,
      gains.cons absent hvalue fun i below => fit i (by omega), ?_, ?_⟩
    · rw [inserts_succ hvalue, ← calls]
      rfl
    · rw [values_eq, (ValueSource.eq_value_of_next hvalue).2]

/-- Where keys or values are too long to exist, not even the first one is
added. -/
theorem stopped_of_filling (long : ¬ (keys.size < 2 ^ 63 ∧ values.size < 2 ^ 63))
    (fits : keys.numberAt thread seq.toNat < 2 ^ 64)
    (filling : Filling keys thread (count + 1) seq values events r values') :
    r = .error (.crash .lengthTooLarge) ∧ events = [] ∧ values' = values := by
  have sizes {key value : Bytes} {rest : ValueSource} (hkey : keys.key seq thread = .ok key)
      (hvalue : values.next = .ok (value, rest)) : keys.size < 2 ^ 63 ∧ values.size < 2 ^ 63 :=
    ⟨(keys.key_eq_ok_iff.1 hkey).2.1, (ValueSource.next_eq_ok_iff.1 hvalue).1⟩
  cases filling with
  | keyless hkey =>
    obtain ⟨rfl, -⟩ := keys.long_of_key_eq_error fits hkey
    exact ⟨rfl, rfl, rfl⟩
  | valueless hvalue =>
    obtain ⟨rfl, -⟩ := ValueSource.long_of_next_eq_error hvalue
    exact ⟨rfl, rfl, rfl⟩
  | refused hkey hvalue _ => exact absurd (sizes hkey hvalue) long
  | mismatched hkey hvalue _ _ => exact absurd (sizes hkey hvalue) long
  | added hkey hvalue _ _ _ => exact absurd (sizes hkey hvalue) long

section

variable {σ : Type} {host : Host σ} {s : σ} {ready : σ → Prop} {contents : σ → Contents}
  {total : UInt64}

/-- Filling a correct table goes on to the first key that was there.  The calls
are answered as by a perfect table, and of the ways of filling that leaves this
one. -/
theorem exists_filled (correct : host.Correct ready contents) (start : ready s)
    (short : total = 0 ∨ keys.size < 2 ^ 63 ∧ values.size < 2 ^ 63)
    (fit : ∀ i < total.toNat, keys.numberAt thread i < 2 ^ 64) :
    let played := host.play .goOn ((fill keys thread total).start values) s
    ∃ result values' added made, played.result? = some (result, values') ∧
      Filled keys thread 0 total.toNat values (contents s) (contents played.state) played.events
        result values' added made := by
  intro played
  obtain ⟨events, ⟨result, values'⟩, s', play, runs, answers⟩ :=
    host.exists_play ((fill keys thread total).start values) s
  have perfect := (correct.follows_perfect.answers start answers).1
  have zero : (0 : UInt64).toNat + total.toNat = total.toNat := Nat.zero_add _
  obtain ⟨added, made, filled⟩ := filled_of_filling (short.imp_left (congrArg UInt64.toNat))
    (zero.symm ▸ total.toNat_lt) (zero.symm ▸ fit) (filling_of_runs runs) perfect
  rw [show played = ⟨some (result, values'), events, s'⟩ from play]
  exact ⟨result, values', added, made, rfl, filled⟩

/-- Filling that cannot make its first key or value does nothing. -/
theorem play_fill_of_long (host : Host σ) (s : σ)
    (long : ¬ (total = 0 ∨ keys.size < 2 ^ 63 ∧ values.size < 2 ^ 63))
    (fit : ∀ i < total.toNat, keys.numberAt thread i < 2 ^ 64) :
    host.play .goOn ((fill keys thread total).start values) s =
      ⟨some (.error (.crash .lengthTooLarge), values), [], s⟩ := by
  obtain ⟨events, ⟨result, values'⟩, s', play, runs, answers⟩ :=
    host.exists_play ((fill keys thread total).start values) s
  obtain ⟨n, hn⟩ : ∃ n, total.toNat = n + 1 :=
    Nat.exists_eq_succ_of_ne_zero fun none => long (.inl (UInt64.toNat_inj.1 none))
  have filling := filling_of_runs runs
  rw [hn] at filling
  obtain ⟨rfl, rfl, rfl⟩ :=
    stopped_of_filling (fun sizes => long (.inr sizes)) (fit 0 (by omega)) filling
  obtain rfl : s' = s := answers
  exact play

end

/-- What filling does to a correct table, whatever it holds.  All keys are
added if and only if none of them was there.  Otherwise the worker adds those
before the first one that was, draws one value for each insert that it makes,
and reports that one key.  Nothing else changes, and above all no value that
was there before.  Where keys or values are too long to exist, the worker
crashes before anything is done. -/
theorem fill_stops_at_first_present {σ : Type} (host : Host σ) (s : σ) {ready : σ → Prop}
    {contents : σ → Contents} (correct : host.Correct ready contents) (start : ready s)
    (keys : KeySpace) (thread count : UInt64) (values : ValueSource)
    (fit : ∀ i < count.toNat, keys.numberAt thread i < 2 ^ 64) :
    let played := host.play .goOn ((fill keys thread count).start values) s
    let calls := (played.events.filterMap Event.call?).map Prod.fst
    let notes := played.events.filterMap Event.note?
    let alarms := played.events.filterMap Event.alarm?
    let absent (i : Nat) : Prop := contents s (keys.keyAt thread i) = none
    let short : Prop := count = 0 ∨ keys.size < 2 ^ 63 ∧ values.size < 2 ^ 63
    ∃ result values', played.result? = some (result, values') ∧
      (¬ short →
        result = .error (.crash .lengthTooLarge) ∧ played.events = [] ∧ values' = values ∧
          played.state = s) ∧
      (short →
        (result = .ok () ↔ ∀ i < count.toNat, absent i) ∧
        (∀ key, (contents s key).isSome → contents played.state key = contents s key) ∧
        (result = .ok () →
          (contents s).Gains (contents played.state) keys thread 0 count.toNat values ∧
          calls = inserts keys thread 0 values count.toNat ∧ values' = values.ahead count.toNat ∧
          notes = [] ∧ alarms = []) ∧
        ∀ n < count.toNat, ¬ absent n → (∀ i < n, absent i) →
          result = .error (.error (.fillRefused thread (.ofNat n))) ∧
          (contents s).Gains (contents played.state) keys thread 0 n values ∧
          calls = inserts keys thread 0 values (n + 1) ∧ values' = values.ahead (n + 1) ∧
          notes = [.fillRefused thread (.ofNat n)] ∧ notes.map Note.level = [.error] ∧
          alarms = [.fillRefused thread (.ofNat n)]) := by
  intro played calls notes alarms absent short
  by_cases fine : short
  · obtain ⟨result, values', added, made, ends,
      (met : Met _ _ _ _ _ _ _ notes alarms _), gains, calls_eq, values_eq⟩ :=
      exists_filled correct start fine fit
    refine ⟨result, values', ends, fun long => absurd fine long, fun _ => ?_⟩
    have before (i : Nat) (below : i < added) : absent i := Nat.zero_add i ▸ gains.absent i below
    have kept (key : Bytes) (present : (contents s key).isSome) :
        contents played.state key = contents s key :=
      gains.kept present
    clear_value notes alarms
    cases met with
    | nothing =>
      exact ⟨⟨fun _ => before, fun _ => rfl⟩, kept,
        fun _ => ⟨gains, calls_eq, values_eq, rfl, rfl⟩,
        fun n below present _ => absurd (before n below) present⟩
    | present below present =>
      rw [Nat.zero_add] at present ⊢
      have there : ¬ absent added := fun none => by rw [none] at present; cases present
      refine ⟨⟨fun ok => ?_, fun all => absurd (all added below) there⟩, kept, fun ok => ?_,
        fun n below' present' first => ?_⟩
      · cases ok
      · cases ok
      obtain rfl : n = added := by
        rcases Nat.lt_trichotomy n added with less | same | more
        · exact absurd (before n less) present'
        · exact same
        · exact absurd (first added more) there
      exact ⟨rfl, gains, calls_eq, values_eq, rfl, rfl, rfl⟩
  · have play := play_fill_of_long host s fine fit
    refine ⟨_, values, congrArg Performance.result? play, fun _ => ?_,
      fun short => absurd short fine⟩
    exact ⟨rfl, congrArg Performance.events play, rfl, congrArg Performance.state play⟩

/-- Of three keys the second one was there. -/
theorem fill_stops_at_first_present_second :
    let keys : KeySpace := ⟨1, 8, by decide, by decide⟩
    let c : Contents := Contents.empty.set (keys.keyAt 0 1) (some [7])
    let played :=
      (Host.ofTable Contents.table 0 id).play .goOn ((fill keys 0 3).start (.ofSeed 8 0)) c
    (∀ i < (3 : UInt64).toNat, keys.numberAt 0 i < 2 ^ 64) ∧ c (keys.keyAt 0 0) = none ∧
      c (keys.keyAt 0 1) = some [7] ∧
      ∃ result values', played.result? = some (result, values') ∧
        result = .error (.error (.fillRefused 0 1)) ∧
        (played.events.filterMap Event.call?).length = 2 ∧
            played.state (keys.keyAt 0 1) = some [7] := by
  intro keys c played
  have fit : ∀ i < (3 : UInt64).toNat, keys.numberAt 0 i < 2 ^ 64 := by decide
  have first : c (keys.keyAt 0 0) = none := by decide
  have second : c (keys.keyAt 0 1) = some [7] := by decide
  obtain ⟨result, values', ends, -, fills⟩ :=
    fill_stops_at_first_present (Host.ofTable Contents.table 0 id) c
      (Contents.correct 0 id) trivial keys 0 3 (.ofSeed 8 0) fit
  obtain ⟨-, kept, -, stops⟩ := fills (.inr (by decide))
  have present : ¬ c (keys.keyAt 0 1) = none := by rw [second]; decide
  obtain ⟨refused, -, calls, -⟩ := stops 1 (by decide) present fun i below => by
    obtain rfl := Nat.lt_one_iff.1 below
    exact first
  refine ⟨fit, first, second, result, values', ends, refused, ?_, ?_⟩
  · simpa [inserts] using congrArg List.length calls
  · exact (kept (keys.keyAt 0 1) (by rw [id, second]; rfl)).trans second

/-- A value that is too long to exist keeps the worker from coming to the key
that is there. -/
theorem fill_crashes_before_present :
    let keys : KeySpace := ⟨1, 8, by decide, by decide⟩
    let c : Contents := Contents.empty.set (keys.keyAt 0 0) (some [0xaa])
    let played :=
      (Host.ofTable Contents.table 0 id).play .goOn ((fill keys 0 1).start (.ofSeed (2 ^ 63) 0)) c
    (∀ i < (1 : UInt64).toNat, keys.numberAt 0 i < 2 ^ 64) ∧ c (keys.keyAt 0 0) = some [0xaa] ∧
      played.result? = some (.error (.crash .lengthTooLarge), .ofSeed (2 ^ 63) 0) ∧
      played.events.filterMap Event.call? = [] := by
  intro keys c played
  exact ⟨by decide, by decide, by rfl, by rfl⟩

end Worker

end TableProbe
