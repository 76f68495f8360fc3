import TableProbe.Proofs.Config
import TableProbe.Proofs.Partition
import TableProbe.Proofs.Run.Phase

/-!
# What falls to each thread

The parts of all threads can always be had (`Run.assignments_eq_ok`), and they
sum to the whole run (`Run.sum_parts`).  If the whole run leaves some room
below the end of a word, then so does the part of every thread
(`Run.covered_of_room`); and there is room if the configuration was derived
from settings and has not too many threads (`Run.room_of_ofSettings`).
-/

namespace TableProbe

open TableProbe.Partition (part toNat_ofNat_part mem_threadIds mapM_eq_ok_of_forall)

namespace Run

variable {config : Config} {a : Assignment}

/-- The assignment of a thread. -/
def assignmentOf (config : Config) (thread : UInt64) : Assignment where
  thread := thread
  filled := .ofNat (part config.prefillElems.toNat config.threads.toNat thread.toNat)
  ops := .ofNat (part config.totalOps.toNat config.threads.toNat thread.toNat)

/-- The assignments of all threads, in order. -/
def partsOf (config : Config) : List Assignment :=
  (Partition.threadIds config.threads).map (assignmentOf config)

/-- The work of every configuration is shared out without a crash. -/
theorem assignments_eq_ok (config : Config) : assignments config = .ok (partsOf config) := by
  apply mapM_eq_ok_of_forall
  intro thread member
  have within := mem_threadIds.1 member
  rw [Partition.share_eq_ok within, Partition.share_eq_ok within]
  rfl

/-- The parts of the threads sum to the whole, for the keys to fill in and for
the operations alike. -/
theorem sum_parts (n : UInt64) (some_threads : 0 < config.threads) {item : Assignment → UInt64}
    (items : ∀ t, item (assignmentOf config t) =
      .ofNat (part n.toNat config.threads.toNat t.toNat)) :
    ((partsOf config).map fun a => (item a).toNat).sum = n.toNat := by
  refine Eq.trans (congrArg List.sum ?_) (Partition.sum_threadIds n.toNat some_threads)
  rw [partsOf, List.map_map]
  refine List.map_congr_left fun thread _ => ?_
  rw [Function.comp_apply, items, toNat_ofNat_part]

/-! ## Parts that can be done -/

/-- The key numbers of a thread lie a bit beyond the whole run, if it is the
last one: it takes what is left over, of keys and of operations. -/
theorem product_le (mem : a ∈ partsOf config) :
    (a.filled.toNat + a.ops.toNat) * config.threads.toNat ≤
      config.prefillElems.toNat + config.totalOps.toNat + 2 * (config.threads.toNat - 1) ^ 2 := by
  obtain ⟨thread, within, rfl⟩ := List.mem_map.1 mem
  have filledPart :=
    Partition.part_mul_le config.prefillElems.toNat config.threads.toNat thread.toNat
  have opsPart := Partition.part_mul_le config.totalOps.toNat config.threads.toNat thread.toNat
  have filled : (assignmentOf config thread).filled.toNat = _ := toNat_ofNat_part ..
  have ops : (assignmentOf config thread).ops.toNat = _ := toNat_ofNat_part ..
  rw [filled, ops, Nat.add_mul, Nat.pow_two]
  omega

/-- The keys that a thread may come to have numbers, and the values of its
second phase a seed. -/
structure Covered (keys : KeySpace) (a : Assignment) : Prop where
  seed : a.thread.toNat + keys.threads.toNat < 2 ^ 64
  fit : ∀ i < a.filled.toNat + a.ops.toNat, keys.numberAt a.thread i < 2 ^ 64

/-- With so much room no worker comes to a key without a number.  The room is
measured for the last thread, whose shares include the remainders of both the
keys to fill in and the operations. -/
theorem covered_of_room {keys : KeySpace}
    (room : config.prefillElems.toNat + config.totalOps.toNat +
      2 * (config.threads.toNat - 1) ^ 2 ≤ 2 ^ 64)
    (threads : keys.threads = config.threads) (mem : a ∈ partsOf config) : Covered keys a := by
  have product := Nat.le_trans (product_le mem) room
  have member : a.thread.toNat < config.threads.toNat := by
    obtain ⟨thread, within, rfl⟩ := List.mem_map.1 mem
    exact mem_threadIds.1 within
  constructor
  · have few : config.threads.toNat - 1 < 2 ^ 32 := by
      apply Nat.lt_of_not_le
      intro many
      have square := Nat.mul_le_mul many many
      rw [Nat.pow_two] at room
      omega
    rw [threads]
    omega
  · intro i below
    have step := Nat.mul_le_mul_right config.threads.toNat (Nat.succ_le_of_lt below)
    rw [Nat.succ_mul] at step
    rw [KeySpace.numberAt, threads]
    omega

/-- There is room for every configuration that was derived from settings and
has not too many threads. -/
theorem room_of_ofSettings {settings : Settings}
    (accepted : Config.ofSettings settings = .ok config) (few : config.threads.toNat ≤ 2 ^ 30) :
    config.prefillElems.toNat + config.totalOps.toNat + 2 * (config.threads.toNat - 1) ^ 2 <
      2 ^ 64 := by
  obtain ⟨-, prefill, ops⟩ := Config.bounds_of_ofSettings accepted
  have square : (config.threads.toNat - 1) * (config.threads.toNat - 1) ≤ 2 ^ 30 * 2 ^ 30 :=
    Nat.mul_le_mul (by omega) (by omega)
  rw [Nat.pow_two]
  omega

/-- The thread of an assignment can make all keys and values that it may come
to. -/
structure Feasible (opts : RunOptions) (keys : KeySpace) (a : Assignment) :
    Prop extends Covered keys a where
  sizes : keys.size < 2 ^ 63 ∧ opts.valueSize < 2 ^ 63
  bound : a.filled.toNat + a.ops.toNat < 2 ^ 64

/-- Accepted settings leave enough room by themselves, unless there are more
than 2 ^ 30 threads.  What remains to be asked are keys and values that are not
too long. -/
theorem feasible_of_ofSettings {settings : Settings} {opts : RunOptions} {keys : KeySpace}
    (accepted : Config.ofSettings settings = .ok config) (few : config.threads.toNat ≤ 2 ^ 30)
    (threads : keys.threads = config.threads)
    (sizes : keys.size < 2 ^ 63 ∧ opts.valueSize < 2 ^ 63) (mem : a ∈ partsOf config) :
    Feasible opts keys a := by
  have room := room_of_ofSettings accepted few
  have all :
      a.filled.toNat + a.ops.toNat ≤ (a.filled.toNat + a.ops.toNat) * config.threads.toNat :=
    Nat.le_mul_of_pos_right _ (threads ▸ keys.toNat_threads_pos)
  refine ⟨covered_of_room (Nat.le_of_lt room) threads mem, sizes, ?_⟩
  exact Nat.lt_of_le_of_lt (Nat.le_trans all (product_le mem)) room

end Run

end TableProbe
