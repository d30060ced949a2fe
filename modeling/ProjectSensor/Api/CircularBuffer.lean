import ProjectSensor.Library.ByteMemory
import ProjectSensor.Library.RingQueue
import ProjectSensor.Library.Transition

/-!
# `circular_buffer`

Bytes are copied in and out in one step or, around the end of the array, in two; an index that
arrives at `CAPACITY` goes back to 0.  A full buffer and an empty one have the same indices and
differ in `size_`.
-/

open ProjectSensor.Library ProjectSensor.Library.ByteMemory ProjectSensor.Library.Transition

namespace ProjectSensor.Api

structure CircularBuffer where
  begIndex : ℕ
  endIndex : ℕ
  size : ℕ
  data : Mem

namespace CircularBuffer

variable (capacity : ℕ) (c : CircularBuffer)

/-- The constructor; the array may hold anything. -/
def construct (data : Mem) : CircularBuffer where
  begIndex := 0
  endIndex := 0
  size := 0
  data := data

/-- An index moved on in one step. -/
def wrap (index : ℕ) : ℕ := if index = capacity then 0 else index

/-- The copy of `write`. -/
def store (data : Mem) (bytesToWrite : ℕ) : CircularBuffer :=
  if bytesToWrite ≤ capacity - c.endIndex then { c with
    data := blit c.data c.endIndex data 0 bytesToWrite
    endIndex := wrap capacity (c.endIndex + bytesToWrite) }
  else
    let size1 := capacity - c.endIndex
    let size2 := bytesToWrite - size1
    { c with
      data := blit (blit c.data c.endIndex data 0 size1) 0 data size1 size2
      endIndex := size2 }

def write (data : Mem) (len : ℕ) : ℕ × CircularBuffer :=
  if len = 0 then (0, c)
  else
    let bytesToWrite := min len (capacity - c.size)
    let c := c.store capacity data bytesToWrite
    (bytesToWrite, { c with size := c.size + bytesToWrite })

/-- The copy of `read`. -/
def load (data : Mem) (bytesToRead : ℕ) : Mem × CircularBuffer :=
  if bytesToRead ≤ capacity - c.begIndex then
    (blit data 0 c.data c.begIndex bytesToRead,
      { c with begIndex := wrap capacity (c.begIndex + bytesToRead) })
  else
    let size1 := capacity - c.begIndex
    let size2 := bytesToRead - size1
    (blit (blit data 0 c.data c.begIndex size1) size1 c.data 0 size2, { c with begIndex := size2 })

def read (data : Mem) (len : ℕ) : ℕ × Mem × CircularBuffer :=
  if len = 0 then (0, data, c)
  else
    let bytesToRead := min len c.size
    let (data, c) := c.load capacity data bytesToRead
    (bytesToRead, data, { c with size := c.size - bytesToRead })

/-- The buffer as a ring of slots. -/
def ring : RingQueue Byte := ⟨c.data, c.begIndex, c.endIndex, c.size⟩

/-- The bytes in the buffer, the oldest first. -/
def contents : List Byte := c.ring.contents capacity

/-! ### What a call does -/

variable {capacity c}

/-- Going around at the end is counting modulo the capacity. -/
theorem wrap_eq_mod {index : ℕ} (hle : index ≤ capacity) :
    wrap capacity index = index % capacity := by
  unfold wrap
  split
  case isTrue heq => rw [heq, Nat.mod_self]
  case isFalse hne => rw [Nat.mod_eq_of_lt (lt_of_le_of_ne hle hne)]

theorem store_begIndex (data : Mem) (count : ℕ) :
    (c.store capacity data count).begIndex = c.begIndex := by
  unfold store
  split <;> rfl

theorem store_size (data : Mem) (count : ℕ) : (c.store capacity data count).size = c.size := by
  unfold store
  split <;> rfl

theorem store_endIndex (hend : c.endIndex < capacity) (data : Mem) {count : ℕ}
    (hcount : count ≤ capacity) :
    (c.store capacity data count).endIndex = (c.endIndex + count) % capacity := by
  unfold store
  split
  case isTrue hone => exact wrap_eq_mod (by omega)
  case isFalse hmore =>
    rw [Nat.mod_eq_sub_mod (by omega), Nat.mod_eq_of_lt (by omega)]
    show count - (capacity - c.endIndex) = c.endIndex + count - capacity
    omega

/-- Both ways of storing put the bytes into the slots from the end index on. -/
theorem store_at (hend : c.endIndex < capacity) (data : Mem) {count i : ℕ}
    (hcount : count ≤ capacity) (hi : i < count) :
    (c.store capacity data count).data ((c.endIndex + i) % capacity) = data i := by
  unfold store
  split
  case isTrue hone =>
    rw [Nat.mod_eq_of_lt (by omega)]
    simpa using blit_add c.data c.endIndex data 0 hi
  case isFalse hmore =>
    show blit _ _ _ _ _ _ = _
    rcases RingQueue.mod_of_lt_turn (show c.endIndex + i < 2 * capacity by omega) with
      ⟨hlt, hmod⟩ | ⟨hge, hmod⟩
    · rw [hmod]
      -- the first piece lies behind the place of the second
      rw [blit_of_outside _ _ _ (by omega), blit_add _ _ _ _ (by omega), Nat.zero_add]
    · rw [hmod, blit_of_mem _ _ _ (by omega) (by omega)]
      congr 1
      omega

/-- No other slot changes. -/
theorem store_of_ne (hend : c.endIndex < capacity) (data : Mem) {count slot : ℕ}
    (hslot : ∀ i < count, slot ≠ (c.endIndex + i) % capacity)
    (hlt : slot < capacity) : (c.store capacity data count).data slot = c.data slot := by
  have hfirst : ¬ (c.endIndex ≤ slot ∧ slot < c.endIndex + count) := by
    rintro ⟨hle, hin⟩
    have hne := hslot (slot - c.endIndex) (by omega)
    rw [Nat.add_sub_of_le hle, Nat.mod_eq_of_lt hlt] at hne
    exact hne rfl
  have hsecond : ¬ slot + capacity < c.endIndex + count := by
    intro hin
    have hne := hslot (slot + capacity - c.endIndex) (by omega)
    rw [Nat.add_sub_of_le (by omega), Nat.add_mod_right, Nat.mod_eq_of_lt hlt] at hne
    exact hne rfl
  unfold store
  split
  case isTrue hone => exact blit_of_outside _ _ _ (by omega)
  case isFalse hmore =>
    show blit _ _ _ _ _ _ = _
    rw [blit_of_outside _ _ _ (by omega), blit_of_outside _ _ _ (by omega)]

/-- The bytes stored in the free slots are added to the contents. -/
theorem contents_store (h : c.ring.Sound capacity) (data : Mem) {count : ℕ}
    (hpos : 0 < capacity) (hroom : c.size + count ≤ capacity) :
    { c.store capacity data count with size := c.size + count }.contents capacity =
      c.contents capacity ++ bytes data 0 count := by
  have hbeg : c.begIndex < capacity := h.front_lt
  have hend : c.endIndex = (c.begIndex + c.size) % capacity := h.rear_eq
  have hendlt : c.endIndex < capacity := hend ▸ Nat.mod_lt _ hpos
  have hplace : ∀ i, (c.endIndex + i) % capacity = (c.begIndex + (c.size + i)) % capacity := by
    intro i
    rw [hend, Nat.mod_add_mod, Nat.add_assoc]
  apply RingQueue.contents_store
  case hfront => exact store_begIndex data count
  case hsize =>
    show c.size + count = c.size + _
    rw [length_bytes]
  case hkept =>
    intro k hk
    apply store_of_ne hendlt data
    · intro i hi
      have hk' : k < c.size := hk
      have hold := RingQueue.mod_of_lt_turn (show c.begIndex + k < 2 * capacity by omega)
      have hnew := RingQueue.mod_of_lt_turn
        (show c.begIndex + (c.size + i) < 2 * capacity by omega)
      rw [hplace]
      show (c.begIndex + k) % capacity ≠ _
      omega
    · exact Nat.mod_lt _ hpos
  case hstored =>
    intro i hi
    rw [length_bytes] at hi
    have hat := store_at hendlt data (show count ≤ capacity by omega) hi
    rw [hplace] at hat
    exact hat.trans (by simp [bytes])

/-- A write takes the first bytes, as many as there is room for, and adds them to the contents. -/
theorem write_spec (h : c.ring.Sound capacity) (data : Mem) (len : ℕ) :
    (c.write capacity data len).1 = min len (capacity - c.size) ∧
      (c.write capacity data len).2.ring.Sound capacity ∧
      (c.write capacity data len).2.contents capacity =
        c.contents capacity ++ bytes data 0 (min len (capacity - c.size)) := by
  have hbeg : c.begIndex < capacity := h.front_lt
  have hsize : c.size ≤ capacity := h.size_le
  have hend : c.endIndex = (c.begIndex + c.size) % capacity := h.rear_eq
  have hendlt : c.endIndex < capacity := hend ▸ Nat.mod_lt _ (by omega)
  by_cases hzero : len = 0
  · rw [write, if_pos hzero, hzero, Nat.zero_min]
    exact ⟨rfl, h, (List.append_nil _).symm⟩
  · generalize hcount : min len (capacity - c.size) = count
    have hroom : c.size + count ≤ capacity := by omega
    have hwrite : c.write capacity data len =
        (count, { c.store capacity data count with size := c.size + count }) := by
      rw [write, if_neg hzero, hcount]
      simp only [store_size]
    rw [hwrite]
    refine ⟨rfl, ⟨?_, hroom, ?_⟩, contents_store h data (by omega) hroom⟩
    · exact (store_begIndex data count).trans_lt hbeg
    · show (c.store capacity data count).endIndex =
        ((c.store capacity data count).begIndex + (c.size + count)) % capacity
      rw [store_begIndex, store_endIndex hendlt data (by omega), hend, Nat.mod_add_mod,
        Nat.add_assoc]

/-- Both ways of loading take the bytes in the slots from the begin index on. -/
theorem load_spec (hbeg : c.begIndex < capacity) (data : Mem) {count : ℕ}
    (hcount : count ≤ capacity) :
    (c.load capacity data count).2 =
        { c with begIndex := (c.begIndex + count) % capacity } ∧
      ∀ i < count, (c.load capacity data count).1 i = c.data ((c.begIndex + i) % capacity) := by
  unfold load
  by_cases hone : count ≤ capacity - c.begIndex
  · rw [if_pos hone, wrap_eq_mod (by omega)]
    refine ⟨rfl, fun i hi ↦ ?_⟩
    have hplace : (c.begIndex + i) % capacity = c.begIndex + i := Nat.mod_eq_of_lt (by omega)
    rw [hplace]
    exact blit_start _ _ _ hi
  · have hwrapped : (c.begIndex + count) % capacity = count - (capacity - c.begIndex) := by
      rw [Nat.mod_eq_sub_mod (by omega), Nat.mod_eq_of_lt (by omega)]
      omega
    rw [if_neg hone, hwrapped]
    refine ⟨rfl, fun i hi ↦ ?_⟩
    show blit _ _ _ _ _ _ = _
    rcases RingQueue.mod_of_lt_turn (show c.begIndex + i < 2 * capacity by omega) with
      ⟨hlt, hmod⟩ | ⟨hge, hmod⟩
    · rw [hmod, blit_of_outside _ _ _ (by omega), blit_start _ _ _ (by omega)]
    · rw [hmod, blit_of_mem _ _ _ (by omega) (by omega)]
      congr 1
      omega

/-- A read takes the oldest bytes, as many as there are, off the contents. -/
theorem read_spec (h : c.ring.Sound capacity) (data : Mem) (len : ℕ) :
    (c.read capacity data len).1 = min len c.size ∧
      (c.read capacity data len).2.2.ring.Sound capacity ∧
      c.contents capacity = bytes (c.read capacity data len).2.1 0 (min len c.size) ++
        (c.read capacity data len).2.2.contents capacity := by
  have hbeg : c.begIndex < capacity := h.front_lt
  have hsize : c.size ≤ capacity := h.size_le
  have hend : c.endIndex = (c.begIndex + c.size) % capacity := h.rear_eq
  unfold read
  by_cases hzero : len = 0
  · rw [if_pos hzero, hzero, Nat.zero_min]
    exact ⟨rfl, h, rfl⟩
  · rw [if_neg hzero]
    generalize hcount : min len c.size = count
    have hle : count ≤ c.size := by omega
    obtain ⟨hloaded, hbytes⟩ := load_spec hbeg data (show count ≤ capacity by omega)
    simp only [hloaded]
    refine ⟨trivial, ⟨Nat.mod_lt _ (by omega), (Nat.sub_le ..).trans hsize, ?_⟩, ?_⟩
    · show c.endIndex = ((c.begIndex + count) % capacity + (c.size - count)) % capacity
      rw [hend, Nat.mod_add_mod, Nat.add_assoc, Nat.add_sub_of_le hle]
    · have htaken : (c.contents capacity).take count =
          bytes (c.load capacity data count).1 0 count := by
        apply List.ext_getElem
        · rw [List.length_take, contents, RingQueue.length_contents, length_bytes]
          exact Nat.min_eq_left hle
        · intro i hi hi'
          rw [length_bytes] at hi'
          have hbyte := hbytes i hi'
          simp only [contents, RingQueue.contents, bytes, List.getElem_take, List.getElem_map,
            List.getElem_range, Nat.zero_add]
          exact hbyte.symm
      rw [← htaken]
      nth_rewrite 1 [← List.take_append_drop count (c.contents capacity)]
      congr 1
      symm
      apply RingQueue.contents_drop <;> rfl

end CircularBuffer

/-! ### Runs -/

/-- A buffer, and what has been stored in it and taken from it since it was made. -/
structure ByteFifo where
  buffer : CircularBuffer
  stored : List Byte
  taken : List Byte

inductive FifoAction where
  | write (data : Mem) (len : ℕ)
  | read (data : Mem) (len : ℕ)

namespace ByteFifo

variable (capacity : ℕ) (f : ByteFifo)

/-- What a write stores is the beginning of its data, what a read takes is what it returns. -/
def step : FifoAction → ByteFifo
  | .write data len =>
      { buffer := (f.buffer.write capacity data len).2
        stored := f.stored ++ bytes data 0 (min len (capacity - f.buffer.size))
        taken := f.taken }
  | .read data len =>
      let (count, data, buffer) := f.buffer.read capacity data len
      { buffer := buffer, stored := f.stored, taken := f.taken ++ bytes data 0 count }

def construct (data : Mem) : ByteFifo := ⟨.construct data, [], []⟩

/-- The buffer is a bounded queue of bytes. -/
structure BoundedQueue : Prop where
  size_le : f.buffer.size ≤ capacity
  beg_lt : f.buffer.begIndex < capacity
  end_lt : f.buffer.endIndex < capacity
  end_eq : f.buffer.endIndex = (f.buffer.begIndex + f.buffer.size) % capacity
  write_result : ∀ data len,
    (f.buffer.write capacity data len).1 = min len (capacity - f.buffer.size)
  write_contents : ∀ data len, (f.buffer.write capacity data len).2.contents capacity =
    f.buffer.contents capacity ++ bytes data 0 (min len (capacity - f.buffer.size))
  stored_eq : f.stored = f.taken ++ f.buffer.contents capacity

variable {capacity f}

/-- A ring in order, and nothing lost between storing and taking. -/
structure Inv (capacity : ℕ) (f : ByteFifo) : Prop where
  sound : f.buffer.ring.Sound capacity
  stored_eq : f.stored = f.taken ++ f.buffer.contents capacity

theorem Inv.boundedQueue (h : f.Inv capacity) : f.BoundedQueue capacity where
  size_le := h.sound.size_le
  beg_lt := h.sound.front_lt
  end_lt := h.sound.rear_eq.trans_lt (Nat.mod_lt _ (h.sound.front_lt.trans_le' (Nat.zero_le _)))
  end_eq := h.sound.rear_eq
  write_result := fun data len ↦ (CircularBuffer.write_spec h.sound data len).1
  write_contents := fun data len ↦ (CircularBuffer.write_spec h.sound data len).2.2
  stored_eq := h.stored_eq

theorem Inv.step (h : f.Inv capacity) (action : FifoAction) :
    (f.step capacity action).Inv capacity := by
  cases action with
  | write data len =>
      obtain ⟨-, hsound, hcontents⟩ := CircularBuffer.write_spec h.sound data len
      refine ⟨hsound, ?_⟩
      show f.stored ++ _ = f.taken ++ (f.buffer.write capacity data len).2.contents capacity
      rw [h.stored_eq, hcontents, List.append_assoc]
  | read data len =>
      obtain ⟨hcount, hsound, hcontents⟩ := CircularBuffer.read_spec h.sound data len
      refine ⟨hsound, ?_⟩
      show f.stored = f.taken ++ bytes _ 0 (f.buffer.read capacity data len).1 ++ _
      rw [h.stored_eq, hcontents, hcount, List.append_assoc]
      rfl

/-- Whatever is written and read, the buffer is a bounded queue of bytes. -/
theorem boundedQueue_run (hcapacity : 0 < capacity) (data : Mem) (actions : List FifoAction) :
    (run (step capacity) (construct data) actions).BoundedQueue capacity := by
  have hinit : (construct data).Inv capacity :=
    ⟨⟨hcapacity, Nat.zero_le _, (Nat.zero_mod _).symm⟩, rfl⟩
  have hinv : (run (step capacity) (construct data) actions).Inv capacity :=
    run_of_step (Inv capacity) (fun _ action h ↦ h.step action) hinit
  exact hinv.boundedQueue

/-- A buffer of four bytes with three taken out of it and four more stored, around the end. -/
theorem boundedQueue_wrapped :
    (run (step 4) (construct fun _ ↦ 0) [.write (fun i ↦ i) 3, .read (fun _ ↦ 0) 9,
      .write (fun i ↦ 8 * i) 4]).BoundedQueue 4 :=
  boundedQueue_run (by decide) _ _

end ByteFifo

end ProjectSensor.Api
