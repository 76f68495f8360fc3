import Mathlib.Data.List.Count
import TableProbe.Proofs.Shuffle
import TableProbe.Schedule

/-!
# Schedules are shuffled layouts

A schedule that is drawn is the layout of its percentages in another order.
The order and the generator after it are the same for all percentages that sum
to 100 (`Schedule.draw_eq_ok`), so a schedule has as many slots of each kind as
the percentages ask for.  Percentages that do not sum to 100 take nothing from
the generator.
-/

namespace TableProbe.Schedule

variable {p : Percentages} {g : Generator} {n : UInt64}

/-- Laid out are the slots of one kind after another, in the order in which
kinds are listed. -/
theorem layout_eq (p : Percentages) : layout p =
    List.replicate p.reads.toNat .read ++ (List.replicate p.inserts.toNat .insert ++
      (List.replicate p.erases.toNat .erase ++ (List.replicate p.updates.toNat .update ++
        List.replicate p.upserts.toNat .upsert))) := by
  simp only [layout, OpKind.all, List.flatMap_cons, List.flatMap_nil, List.append_nil]
  rfl

/-- Every kind has as many slots as its percentage says, even if the
percentages do not add up to 100. -/
theorem count_layout (p : Percentages) (kind : OpKind) :
    (layout p).count kind = (p.of kind).toNat := by
  rw [layout_eq]
  cases kind <;> simp [List.count_append, List.count_replicate, Percentages.of]

/-- If the percentages add up to 100, then the layout has 100 slots, and the
schedule is the layout in an order that depends on the generator alone. -/
theorem draw_eq_ok (h : p.total = .ok 100) (g : Generator) :
    draw p g = ((unshuffled p h).reordered g).map .ok id := by
  unfold draw
  split
  · rename_i c overflow
    rw [h] at overflow
    cases overflow
  · rename_i total sum
    obtain rfl : 100 = total := Except.ok.inj (h.symm.trans sum)
    rw [dif_pos rfl]

/-- Any other total is refused before something is drawn, so the generator is
left as it was. -/
theorem draw_eq_error (h : p.total = .ok n) (wrong : n ≠ 100) (g : Generator) :
    draw p g = (.error (.error ⟨n⟩), g) := by
  unfold draw
  split
  · rename_i c overflow
    rw [h] at overflow
    cases overflow
  · rename_i total sum
    obtain rfl : n = total := Except.ok.inj (h.symm.trans sum)
    exact dif_neg wrong

theorem shuffled_eq {drawn : Except (Failure WrongTotal) Schedule} {rest : Generator}
    (h : draw p g = (drawn, rest)) :
    shuffled p g = drawn.map fun schedule => (schedule, rest) := by
  rw [shuffled, h]

/-- Which slot comes where, and which generator is left, does not depend on the
slots: these are exchanged at the positions that the generator draws. -/
theorem reordered_eq (s : Schedule) (g : Generator) :
    ∃ t, s.reordered g = (t, Shuffle.after 100 g) ∧
      t.slots = Shuffle.exchange s.slots 0 ((Shuffle.Draw.start g).positions 100).1 ∧
      (∀ place, t.slots.get place = s.slots.get (Shuffle.order 100 g place)) ∧
      ∀ kind, t.count kind = s.count kind := by
  obtain ⟨slots, same, exchanged, moved, perm⟩ := Shuffle.shuffle_reorders s.slots g
  refine ⟨⟨slots⟩, ?_, exchanged, moved, perm.count_eq⟩
  rw [reordered, same, Prod.map_apply, id]

theorem getElem?_layout (h : p.total = .ok 100) (place : Fin 100) :
    (layout p)[place.val]? = some ((unshuffled p h).slots.get place) := by
  have inside : place.val < (layout p).length := (length_layout_of_total h).symm ▸ place.isLt
  exact List.getElem?_eq_getElem inside

theorem count_unshuffled (h : p.total = .ok 100) (kind : OpKind) :
    (unshuffled p h).count kind = (p.of kind).toNat := count_layout p kind

theorem length_letters (s : Schedule) : s.letters.length = 100 := by
  simp [letters]

theorem toList_letters (s : Schedule) : s.letters.toList = s.slots.toList.map OpKind.letter :=
  String.toList_ofList

/-- The letters of a schedule count what its slots count. -/
theorem count_letters (s : Schedule) (kind : OpKind) :
    s.letters.toList.count kind.letter = s.count kind := by
  rw [toList_letters]
  exact List.count_map_of_injective _ OpKind.letter (fun _ _ => OpKind.letter_injective) kind

/-- A schedule is the layout of its percentages in an order that depends on the
generator alone, and so does the generator that is left.  The order is the one
in which the layout is left by exchanges, each of a slot with one at or before
it, at positions that the generator draws. -/
theorem drawn_is_reordered_layout (g : Generator) :
    ∃ (order : Equiv.Perm (Fin 100)) (rest : Generator) (positions : List Nat),
      (∃ d, (Shuffle.Draw.start g).positions 100 = (positions, d) ∧ d.generator = rest) ∧
      positions.length = 100 ∧ (∀ k (h : k < positions.length), positions[k] ≤ k) ∧
      (∀ (p : Percentages) (h : p.total = .ok 100),
        layout p = List.replicate p.reads.toNat .read ++
          (List.replicate p.inserts.toNat .insert ++
          (List.replicate p.erases.toNat .erase ++ (List.replicate p.updates.toNat .update ++
            List.replicate p.upserts.toNat .upsert))) ∧
        (layout p).length = 100 ∧
        ∃ s, draw p g = (.ok s, rest) ∧ shuffled p g = .ok (s, rest) ∧
          s.slots = Shuffle.exchange ⟨(layout p).toArray, length_layout_of_total h⟩ 0 positions ∧
          (∀ place : Fin 100, (layout p)[(order place).val]? = some (s.slots.get place)) ∧
          (∀ kind, s.count kind = (p.of kind).toNat) ∧
          s.letters.length = 100 ∧ s.letters.toList = s.slots.toList.map OpKind.letter ∧
          ∀ kind, s.letters.toList.count kind.letter = (p.of kind).toNat) ∧
      ∀ (p : Percentages) n, p.total = .ok n → n ≠ 100 →
        draw p g = (.error (.error ⟨n⟩), g) ∧ shuffled p g = .error (.error ⟨n⟩) := by
  -- positions are drawn before percentages come in, so one order serves all of them
  obtain ⟨positions, d, drawn_at, length, within⟩ :=
    Shuffle.Draw.exists_positions (by decide : 100 < 2 ^ 32) g
  have left : d.generator = Shuffle.after 100 g := by rw [Shuffle.after, drawn_at]
  refine ⟨Shuffle.order 100 g, Shuffle.after 100 g, positions, ⟨d, drawn_at, left⟩, length,
    within, fun p h => ?_, fun p n h wrong => ?_⟩
  · obtain ⟨s, reordered, exchanged, moved, count_eq⟩ := reordered_eq (unshuffled p h) g
    have drawn : draw p g = (.ok s, Shuffle.after 100 g) := by
      rw [draw_eq_ok h, reordered, Prod.map_apply, id]
    have shares (kind : OpKind) : s.count kind = (p.of kind).toNat :=
      (count_eq kind).trans (count_unshuffled h kind)
    rw [drawn_at] at exchanged
    refine ⟨layout_eq p, length_layout_of_total h, s, drawn, shuffled_eq drawn, exchanged,
      fun place => ?_, shares, length_letters s, toList_letters s, fun kind => ?_⟩
    · rw [moved, getElem?_layout h]
    · rw [count_letters, shares]
  · have refused := draw_eq_error h wrong g
    exact ⟨refused, shuffled_eq refused⟩

end TableProbe.Schedule
