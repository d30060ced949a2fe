import Mathlib.Data.List.Range
import Mathlib.Logic.Function.Basic

/-!
# A bounded queue in a ring of slots

`front` is the slot of the oldest entry, `rear` the slot of the next one, `size` the number of
entries; both indices go around.  `contents` is the queue as a list, oldest entry first.  On a sound
queue `put` appends to it and `pop` drops its head.
-/

namespace ProjectSensor.Library

/-- The fields of a ring; the slots outside the queue keep what they held. -/
structure RingQueue (α : Type*) where
  slot : ℕ → α
  front : ℕ
  rear : ℕ
  size : ℕ

namespace RingQueue

variable {α : Type*} (capacity : ℕ) (q : RingQueue α)

/-- The index after `i`. -/
def after (i : ℕ) : ℕ := (i + 1) % capacity

/-- An entry added at the rear. -/
def put (a : α) : RingQueue α :=
  { slot := Function.update q.slot q.rear a
    front := q.front
    rear := after capacity q.rear
    size := q.size + 1 }

/-- The entry at the front given up. -/
def pop : RingQueue α := { q with front := after capacity q.front, size := q.size - 1 }

/-- The entry at the front. -/
def head : α := q.slot q.front

/-- The entries, oldest first. -/
def contents : List α := (List.range q.size).map fun k ↦ q.slot ((q.front + k) % capacity)

/-- The indices are slots, and the rear is `size` slots behind the front. -/
structure Sound : Prop where
  front_lt : q.front < capacity
  size_le : q.size ≤ capacity
  rear_eq : q.rear = (q.front + q.size) % capacity

variable {capacity q}

theorem contents_eq_nil_iff : q.contents capacity = [] ↔ q.size = 0 := by
  simp [contents]

theorem Sound.put (h : q.Sound capacity) (hroom : q.size < capacity) (a : α) :
    (q.put capacity a).Sound capacity where
  front_lt := h.front_lt
  size_le := hroom
  rear_eq := by
    show after capacity q.rear = (q.front + (q.size + 1)) % capacity
    rw [after, h.rear_eq, Nat.mod_add_mod, Nat.add_assoc]

theorem Sound.pop (h : q.Sound capacity) (hsome : 0 < q.size) :
    (q.pop capacity).Sound capacity where
  front_lt := Nat.mod_lt _ (h.front_lt.trans_le' (Nat.zero_le _))
  size_le := (Nat.sub_le ..).trans h.size_le
  rear_eq := by
    show q.rear = (after capacity q.front + (q.size - 1)) % capacity
    rw [after, h.rear_eq, Nat.mod_add_mod]
    congr 1
    omega

/-- Where an index less than one turn past a slot comes to lie. -/
theorem mod_of_lt_turn {n : ℕ} (hn : n < 2 * capacity) :
    n < capacity ∧ n % capacity = n ∨ capacity ≤ n ∧ n % capacity = n - capacity := by
  rcases Nat.lt_or_ge n capacity with hlt | hge
  · exact .inl ⟨hlt, Nat.mod_eq_of_lt hlt⟩
  · exact .inr ⟨hge, by rw [Nat.mod_eq_sub_mod hge, Nat.mod_eq_of_lt (by omega)]⟩

/-- Two slots of the queue that are not the same number of places behind the front. -/
theorem Sound.slot_ne (h : q.Sound capacity) (hroom : q.size < capacity) {k : ℕ}
    (hk : k < q.size) : (q.front + k) % capacity ≠ q.rear := by
  have hfront := h.front_lt
  have hk' := mod_of_lt_turn (show q.front + k < 2 * capacity by omega)
  have hsize := mod_of_lt_turn (show q.front + q.size < 2 * capacity by omega)
  rw [h.rear_eq]
  omega

theorem Sound.contents_put (h : q.Sound capacity) (hroom : q.size < capacity) (a : α) :
    (q.put capacity a).contents capacity = q.contents capacity ++ [a] := by
  rw [contents, show (q.put capacity a).size = q.size + 1 from rfl, List.range_succ,
    List.map_append, List.map_singleton]
  congr 1
  · refine List.map_congr_left fun k hk ↦ ?_
    exact Function.update_of_ne (h.slot_ne hroom (List.mem_range.mp hk)) _ _
  · show [Function.update q.slot q.rear a ((q.front + q.size) % capacity)] = [a]
    rw [← h.rear_eq, Function.update_self]

/-- The entry at the front is the oldest one. -/
theorem Sound.contents_pop (h : q.Sound capacity) (hsome : 0 < q.size) :
    q.contents capacity = q.head :: (q.pop capacity).contents capacity := by
  obtain ⟨n, hn⟩ : ∃ n, q.size = n + 1 := ⟨q.size - 1, by omega⟩
  have hsize : (q.pop capacity).size = n := by simp [RingQueue.pop, hn]
  rw [contents, contents, hn, hsize, List.range_succ_eq_map, List.map_cons, List.map_map]
  congr 1
  · rw [Nat.add_zero, Nat.mod_eq_of_lt h.front_lt]
    rfl
  · refine List.map_congr_left fun k _ ↦ ?_
    show q.slot ((q.front + (k + 1)) % capacity) = q.slot ((after capacity q.front + k) % capacity)
    rw [after, Nat.mod_add_mod]
    congr 2
    omega

/-! ### Several entries at a time -/

@[simp]
theorem length_contents : (q.contents capacity).length = q.size := by
  rw [contents, List.length_map, List.length_range]

/-- Entries stored in the slots from the rear on, the others kept, are added to the queue. -/
theorem contents_store {q' : RingQueue α} {entries : List α} (hfront : q'.front = q.front)
    (hsize : q'.size = q.size + entries.length)
    (hkept : ∀ k < q.size, q'.slot ((q.front + k) % capacity) = q.slot ((q.front + k) % capacity))
    (hstored : ∀ i (hi : i < entries.length),
      q'.slot ((q.front + (q.size + i)) % capacity) = entries[i]) :
    q'.contents capacity = q.contents capacity ++ entries := by
  rw [contents, contents, hfront, hsize, List.range_add, List.map_append, List.map_map]
  congr 1
  · exact List.map_congr_left fun k hk ↦ hkept k (List.mem_range.mp hk)
  · apply List.ext_getElem
    · rw [List.length_map, List.length_range]
    · intro i hi hi'
      rw [List.getElem_map, List.getElem_range]
      exact hstored i hi'

/-- A front moved on gives up as many entries. -/
theorem contents_drop {q' : RingQueue α} {count : ℕ} (hslot : q'.slot = q.slot)
    (hfront : q'.front = (q.front + count) % capacity) (hsize : q'.size = q.size - count) :
    q'.contents capacity = (q.contents capacity).drop count := by
  apply List.ext_getElem
  · rw [List.length_drop, length_contents, length_contents, hsize]
  · intro i _ _
    simp only [contents, List.getElem_drop, List.getElem_map, List.getElem_range, hslot, hfront]
    rw [Nat.mod_add_mod, Nat.add_assoc]

end RingQueue

end ProjectSensor.Library
