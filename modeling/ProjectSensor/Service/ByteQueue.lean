import ProjectSensor.Library.Transition
import ProjectSensor.Service.Buffer

/-!
# The buffer as a queue of bytes

What can be read is a sequence of bytes: appending adds to its back, prepending to its front, and
reading takes from its front.  The buffer follows the sequence through every mix of operations that
neither prepend nor read more than there is, although an emptied buffer moves its indices back to
the mark.
-/

open ProjectSensor.Library ProjectSensor.Library.ByteMemory ProjectSensor.Library.Transition

namespace ProjectSensor.Service

namespace Buffer

variable {b : Buffer}

/-! ### What each member does -/

theorem Sound.length_readable (h : b.Sound) :
    b.readable.length = b.writerIndex - b.readerIndex := by
  rw [readable, length_bytes, h.readableBytes_eq]

theorem append_of_lt {data : Mem} {len : ℕ} (hlt : b.writableBytes < len) :
    b.append data len = (-1, b) := by
  rw [Buffer.append, if_pos hlt, if_pos hlt]

/-- Data that fit are added at the back. -/
theorem Sound.append (h : b.Sound) {len : ℕ} (data : Mem) (hle : len ≤ b.writableBytes) :
    (b.append data len).1 = 0 ∧ (b.append data len).2.Sound ∧
      (b.append data len).2.readable = b.readable ++ bytes data 0 len := by
  rw [h.writableBytes_eq] at hle
  have hwriter := h.writer_le
  have hreader := h.reader_le
  have hlen := h.len_lt
  have hsum : (b.writerIndex + len) % 2 ^ 32 = b.writerIndex + len :=
    Nat.mod_eq_of_lt (by omega)
  have heq : b.append data len = (0, { b with
      buffer := blit b.buffer b.writerIndex data 0 len
      writerIndex := b.writerIndex + len }) := by
    have hfits : ¬ b.writableBytes < len := by
      rw [h.writableBytes_eq]
      omega
    rw [Buffer.append, if_neg hfits, if_neg hfits, hasWritten, hsum]
  have hsound : (b.append data len).2.Sound := by
    rw [heq]
    exact ⟨hlen, h.cheapPrepend_le, by simp only; omega, by simp only; omega⟩
  refine ⟨by rw [heq], hsound, ?_⟩
  rw [readable, hsound.readableBytes_eq, heq, readable, h.readableBytes_eq]
  simp only
  have hplace : b.writerIndex = b.readerIndex + (b.writerIndex - b.readerIndex) := by omega
  have hcount : b.writerIndex + len - b.readerIndex =
      (b.writerIndex - b.readerIndex) + len := by omega
  rw [hcount]
  nth_rewrite 1 [hplace]
  exact bytes_blit_behind _ _ _ _ _ _

/-- Data that fit before the reader are added at the front. -/
theorem Sound.prepend (h : b.Sound) {len : ℕ} (data : Mem) (hle : len ≤ b.prependableBytes) :
    (b.prepend data len).Sound ∧
      (b.prepend data len).readable = bytes data 0 len ++ b.readable := by
  have hwriter := h.writer_le
  have hreader := h.reader_le
  have hlen := h.len_lt
  have hmark : len ≤ b.readerIndex := hle
  have hsub : sizeSub b.readerIndex len = b.readerIndex - len := sizeSub_of_le hmark (by omega)
  have heq : b.prepend data len = { b with
      buffer := blit b.buffer (b.readerIndex - len) data 0 len
      readerIndex := b.readerIndex - len } := by
    rw [Buffer.prepend, hsub]
  have hsound : (b.prepend data len).Sound := by
    rw [heq]
    exact ⟨hlen, h.cheapPrepend_le, by simp only; omega, hwriter⟩
  refine ⟨hsound, ?_⟩
  rw [readable, hsound.readableBytes_eq, heq, readable, h.readableBytes_eq]
  simp only
  have hcount : b.writerIndex - (b.readerIndex - len) =
      len + (b.writerIndex - b.readerIndex) := by omega
  rw [hcount, bytes_blit_before, Nat.sub_add_cancel hmark]

theorem Sound.retrieveAll (h : b.Sound) : b.retrieveAll.Sound ∧ b.retrieveAll.readable = [] := by
  have hsound : b.retrieveAll.Sound := ⟨h.len_lt, h.cheapPrepend_le, le_rfl, h.cheapPrepend_le⟩
  refine ⟨hsound, List.length_eq_zero_iff.mp ?_⟩
  rw [hsound.length_readable]
  exact Nat.sub_self _

/-- Bytes are taken from the front; the indices move back to the mark with the last one. -/
theorem Sound.retrieve (h : b.Sound) {len : ℕ} (hle : len ≤ b.readableBytes) :
    (b.retrieve len).Sound ∧ (b.retrieve len).readable = b.readable.drop len := by
  unfold Buffer.retrieve
  have hcount := h.readableBytes_eq
  split
  case isTrue hlt =>
    have hsound : ({ b with readerIndex := b.readerIndex + len } : Buffer).Sound :=
      ⟨h.len_lt, h.cheapPrepend_le, by simp only; omega, h.writer_le⟩
    refine ⟨hsound, ?_⟩
    rw [readable, hsound.readableBytes_eq, readable, hcount, drop_bytes _ _ (by omega), Nat.sub_sub]
  case isFalse hge =>
    have hall : b.readable.length ≤ len := by
      rw [h.length_readable]
      omega
    rw [List.drop_eq_nil_of_le hall]
    exact h.retrieveAll

/-- `appendInt16` is `append` of the two bytes of its argument. -/
theorem Sound.appendInt16_eq (h : b.Sound) (x : BitVec 16) :
    b.appendInt16 x = (b.append (var16 x) 2).2 := by
  have hwritable := h.writableBytes_eq
  have hlen := h.len_lt
  unfold Buffer.appendInt16 Buffer.append
  simp only
  split
  · rfl
  · have hbytes : store16 b.buffer b.writerIndex x =
        blit b.buffer b.writerIndex (var16 x) 0 2 := by
      funext addr
      rw [store16_apply, blit, var16]
      simp only [store16_apply]
      grind
    have hsum : (b.writerIndex + 2) % 2 ^ 32 = b.writerIndex + 2 := Nat.mod_eq_of_lt (by omega)
    rw [hbytes, hasWritten, hsum]

end Buffer

/-! ### The sequence -/

/-- The members of the buffer that append, prepend, read and retrieve. -/
inductive BufferOp where
  | append (data : Mem) (len : ℕ)
  | appendInt8 (x : BitVec 8)
  | appendInt16 (x : BitVec 16)
  | appendInt32 (x : BitVec 32)
  | prepend (data : Mem) (len : ℕ)
  | prependInt8 (x : BitVec 8)
  | prependInt16 (x : BitVec 16)
  | prependInt32 (x : BitVec 32)
  | retrieve (len : ℕ)
  | retrieveUntil (stop : ℕ)
  | retrieveAll
  | retrieveAsCharArray (dst : Mem) (len : ℕ)
  | retrieveAllAsCharArray (dst : Mem)
  | readInt8
  | readInt16
  | readInt32
  | readFloat

/-- A buffer and the sequence it stands for. -/
structure BufferQueue where
  buffer : Buffer
  sequence : List Byte

namespace BufferQueue

open Buffer

variable (q : BufferQueue)

/-- The buffer after an operation. -/
def bufferStep : BufferOp → Buffer
  | .append data len => (q.buffer.append data len).2
  | .appendInt8 x => q.buffer.appendInt8 x
  | .appendInt16 x => q.buffer.appendInt16 x
  | .appendInt32 x => q.buffer.appendInt32 x
  | .prepend data len => q.buffer.prepend data len
  | .prependInt8 x => q.buffer.prependInt8 x
  | .prependInt16 x => q.buffer.prependInt16 x
  | .prependInt32 x => q.buffer.prependInt32 x
  | .retrieve len => q.buffer.retrieve len
  | .retrieveUntil stop => q.buffer.retrieveUntil stop
  | .retrieveAll => q.buffer.retrieveAll
  | .retrieveAsCharArray dst len => (q.buffer.retrieveAsCharArray dst len).2.2
  | .retrieveAllAsCharArray dst => (q.buffer.retrieveAllAsCharArray dst).2.2
  | .readInt8 => q.buffer.readInt8.2
  | .readInt16 => q.buffer.readInt16.2
  | .readInt32 => q.buffer.readInt32.2
  | .readFloat => q.buffer.readFloat.2

/-- Data are added at the back, or not at all if they exceed the writable bytes. -/
def pushBack (data : Mem) (len : ℕ) : List Byte :=
  if len ≤ q.buffer.writableBytes then q.sequence ++ bytes data 0 len else q.sequence

/-- The sequence after an operation. -/
def sequenceStep : BufferOp → List Byte
  | .append data len => q.pushBack data len
  | .appendInt8 x => q.pushBack (var8 x) 1
  | .appendInt16 x => q.pushBack (var16 x) 2
  | .appendInt32 x => q.pushBack (var32 x) 4
  | .prepend data len => bytes data 0 len ++ q.sequence
  | .prependInt8 x => bytes (var8 x) 0 1 ++ q.sequence
  | .prependInt16 x => bytes (var16 x) 0 2 ++ q.sequence
  | .prependInt32 x => bytes (var32 x) 0 4 ++ q.sequence
  | .retrieve len => q.sequence.drop len
  | .retrieveUntil stop => q.sequence.drop (stop - q.buffer.readerIndex)
  | .retrieveAll => []
  -- more than there is, is refused
  | .retrieveAsCharArray _ len =>
      if len ≤ q.sequence.length then q.sequence.drop len else q.sequence
  | .retrieveAllAsCharArray _ => []
  | .readInt8 => q.sequence.drop 1
  | .readInt16 => q.sequence.drop 2
  | .readInt32 => q.sequence.drop 4
  | .readFloat => q.sequence.drop 4

def step (op : BufferOp) : BufferQueue := ⟨q.bufferStep op, q.sequenceStep op⟩

/-- At most the prependable bytes are prepended, and at most the readable ones read. -/
def Allowed : BufferOp → Prop
  | .prepend _ len => len ≤ q.buffer.prependableBytes
  | .prependInt8 _ => 1 ≤ q.buffer.prependableBytes
  | .prependInt16 _ => 2 ≤ q.buffer.prependableBytes
  | .prependInt32 _ => 4 ≤ q.buffer.prependableBytes
  | .retrieve len => len ≤ q.buffer.readableBytes
  | .retrieveUntil stop => q.buffer.readerIndex ≤ stop ∧ stop ≤ q.buffer.writerIndex
  | .readInt8 => 1 ≤ q.buffer.readableBytes
  | .readInt16 => 2 ≤ q.buffer.readableBytes
  | .readInt32 => 4 ≤ q.buffer.readableBytes
  | .readFloat => 4 ≤ q.buffer.readableBytes
  | _ => True

/-- The buffer is a queue of bytes. -/
structure IsByteQueue : Prop where
  reader_le : q.buffer.readerIndex ≤ q.buffer.writerIndex
  writer_le : q.buffer.writerIndex ≤ q.buffer.len
  readable_eq : q.buffer.readable = q.sequence
  append_refused : ∀ data len, (q.buffer.append data len).1 = -1 ↔ q.buffer.writableBytes < len
  refused_unchanged : ∀ data len,
    (q.buffer.append data len).1 = -1 → (q.buffer.append data len).2 = q.buffer
  readInt8_eq : ∀ x rest, q.sequence = bytes (var8 x) 0 1 ++ rest → q.buffer.readInt8.1 = x
  readInt16_eq : ∀ x rest, q.sequence = bytes (var16 x) 0 2 ++ rest → q.buffer.readInt16.1 = x
  readInt32_eq : ∀ x rest, q.sequence = bytes (var32 x) 0 4 ++ rest → q.buffer.readInt32.1 = x
  readFloat_eq : ∀ x rest, q.sequence = bytes (var32 x) 0 4 ++ rest → q.buffer.readFloat.1 = x

/-- A buffer in order with the sequence it holds. -/
structure Inv : Prop where
  sound : q.buffer.Sound
  readable_eq : q.buffer.readable = q.sequence

variable {q}

theorem inv_mk {b : Buffer} {sequence : List Byte} (hsound : b.Sound)
    (hreadable : b.readable = sequence) : Inv ⟨b, sequence⟩ := ⟨hsound, hreadable⟩

theorem Inv.readableBytes_eq (h : q.Inv) : q.buffer.readableBytes = q.sequence.length := by
  rw [← h.readable_eq, readable, length_bytes]

/-- The bytes at the front of the sequence lie at the reader index. -/
theorem Inv.bytes_front (h : q.Inv) {data : Mem} {len : ℕ} {rest : List Byte}
    (hfront : q.sequence = bytes data 0 len ++ rest) :
    bytes q.buffer.buffer q.buffer.readerIndex len = bytes data 0 len := by
  have hlen : len ≤ q.buffer.readableBytes := by
    rw [h.readableBytes_eq, hfront, List.length_append, length_bytes]
    exact Nat.le_add_right ..
  calc bytes q.buffer.buffer q.buffer.readerIndex len
      = q.buffer.readable.take len := by rw [readable, take_bytes, Nat.min_eq_left hlen]
    _ = bytes data 0 len := by
        rw [h.readable_eq, hfront, List.take_left' (length_bytes ..)]

theorem Inv.isByteQueue (h : q.Inv) : q.IsByteQueue where
  reader_le := h.sound.reader_le
  writer_le := h.sound.writer_le
  readable_eq := h.readable_eq
  append_refused := by
    intro data len
    rcases Nat.lt_or_ge q.buffer.writableBytes len with hlt | hle
    · exact iff_of_true (congrArg Prod.fst (append_of_lt hlt)) hlt
    · rw [(h.sound.append data hle).1]
      exact iff_of_false (by decide) hle.not_gt
  refused_unchanged := by
    intro data len hrefused
    rcases Nat.lt_or_ge q.buffer.writableBytes len with hlt | hle
    · exact congrArg Prod.snd (append_of_lt hlt)
    · rw [(h.sound.append data hle).1] at hrefused
      exact absurd hrefused (by decide)
  readInt8_eq := by
    intro x rest hfront
    have hbyte := apply_eq_of_bytes_eq (h.bytes_front hfront) Nat.zero_lt_one
    exact hbyte.trans (store_same ..)
  readInt16_eq := by
    intro x rest hfront
    exact (load16_eq_of_bytes_eq (h.bytes_front hfront)).trans (load16_store16_same ..)
  readInt32_eq := by
    intro x rest hfront
    exact (load32_eq_of_bytes_eq (h.bytes_front hfront)).trans (load32_store32_same ..)
  readFloat_eq := by
    intro x rest hfront
    exact (load32_eq_of_bytes_eq (h.bytes_front hfront)).trans (load32_store32_same ..)

theorem Inv.pushBack (h : q.Inv) (data : Mem) (len : ℕ) :
    Inv ⟨(q.buffer.append data len).2, q.pushBack data len⟩ := by
  unfold BufferQueue.pushBack
  rcases Nat.lt_or_ge q.buffer.writableBytes len with hlt | hle
  · have hsame : (q.buffer.append data len).2 = q.buffer := congrArg Prod.snd (append_of_lt hlt)
    rw [hsame, if_neg hlt.not_ge]
    exact h
  · obtain ⟨-, hsound, hreadable⟩ := h.sound.append data hle
    rw [if_pos hle, ← h.readable_eq]
    exact inv_mk hsound hreadable

theorem Inv.prepend (h : q.Inv) (data : Mem) {len : ℕ} (hle : len ≤ q.buffer.prependableBytes) :
    Inv ⟨q.buffer.prepend data len, bytes data 0 len ++ q.sequence⟩ := by
  obtain ⟨hsound, hreadable⟩ := h.sound.prepend data hle
  rw [← h.readable_eq]
  exact inv_mk hsound hreadable

theorem Inv.retrieve (h : q.Inv) {len : ℕ} (hle : len ≤ q.buffer.readableBytes) :
    Inv ⟨q.buffer.retrieve len, q.sequence.drop len⟩ := by
  obtain ⟨hsound, hreadable⟩ := h.sound.retrieve hle
  rw [← h.readable_eq]
  exact inv_mk hsound hreadable

theorem Inv.retrieveUntil (h : q.Inv) {stop : ℕ} (hlow : q.buffer.readerIndex ≤ stop)
    (hhigh : stop ≤ q.buffer.writerIndex) :
    Inv ⟨q.buffer.retrieveUntil stop, q.sequence.drop (stop - q.buffer.readerIndex)⟩ := by
  have hlen := h.sound.len_lt
  have hwriter := h.sound.writer_le
  rw [Buffer.retrieveUntil, sizeSub_of_le hlow (by omega)]
  apply h.retrieve
  rw [h.sound.readableBytes_eq]
  omega

theorem Inv.retrieveAsCharArray (h : q.Inv) (dst : Mem) (len : ℕ) :
    Inv ⟨(q.buffer.retrieveAsCharArray dst len).2.2,
      if len ≤ q.sequence.length then q.sequence.drop len else q.sequence⟩ := by
  rw [← h.readableBytes_eq, Buffer.retrieveAsCharArray]
  rcases Nat.lt_or_ge q.buffer.readableBytes len with hlt | hle
  · simp only [if_pos hlt, if_neg hlt.not_ge]
    exact h
  · simp only [if_neg hle.not_gt, if_pos hle]
    exact h.retrieve hle

theorem Inv.retrieveAllAsCharArray (h : q.Inv) (dst : Mem) :
    Inv ⟨(q.buffer.retrieveAllAsCharArray dst).2.2, []⟩ := by
  have hall := h.retrieveAsCharArray dst q.buffer.readableBytes
  rw [if_pos h.readableBytes_eq.le, h.readableBytes_eq, List.drop_length,
    ← h.readableBytes_eq] at hall
  rw [Buffer.retrieveAllAsCharArray]
  exact hall

theorem Inv.step (h : q.Inv) (op : BufferOp) (hallowed : q.Allowed op) : (q.step op).Inv := by
  unfold BufferQueue.step
  cases op <;> simp only [bufferStep, sequenceStep, Allowed, appendInt8, appendInt32, prependInt8,
    prependInt16, prependInt32, readInt8, readInt16, readInt32, readFloat] at hallowed ⊢
  case append data len => exact h.pushBack data len
  case appendInt8 x => exact h.pushBack (var8 x) 1
  case appendInt16 x =>
    rw [h.sound.appendInt16_eq]
    exact h.pushBack (var16 x) 2
  case appendInt32 x => exact h.pushBack (var32 x) 4
  case prepend data len => exact h.prepend data hallowed
  case prependInt8 x => exact h.prepend (var8 x) hallowed
  case prependInt16 x => exact h.prepend (var16 x) hallowed
  case prependInt32 x => exact h.prepend (var32 x) hallowed
  case retrieve len => exact h.retrieve hallowed
  case retrieveUntil stop => exact h.retrieveUntil hallowed.1 hallowed.2
  case retrieveAll => exact inv_mk h.sound.retrieveAll.1 h.sound.retrieveAll.2
  case retrieveAsCharArray dst len => exact h.retrieveAsCharArray dst len
  case retrieveAllAsCharArray dst => exact h.retrieveAllAsCharArray dst
  case readInt8 => exact h.retrieve hallowed
  case readInt16 => exact h.retrieve hallowed
  case readInt32 => exact h.retrieve hallowed
  case readFloat => exact h.retrieve hallowed

/-- Through every sequence of allowed operations the buffer is a queue of bytes. -/
theorem isByteQueue_run (pdata : Mem) {len cheapPrepend : ℕ} (hle : cheapPrepend ≤ len)
    (hlen : len < 2 ^ 32) (ops : List BufferOp)
    (hallowed : AllSteps step Allowed ⟨constructPrepend pdata len cheapPrepend, []⟩ ops) :
    AllStates step IsByteQueue ⟨constructPrepend pdata len cheapPrepend, []⟩ ops := by
  have hinit : Inv ⟨constructPrepend pdata len cheapPrepend, []⟩ :=
    inv_mk (sound_constructPrepend pdata hle hlen) (readable_constructPrepend pdata hle hlen)
  have hinv : AllStates step Inv ⟨constructPrepend pdata len cheapPrepend, []⟩ ops :=
    allStates_of_step (fun _ op h hstep ↦ h.step op hstep) hinit hallowed
  exact hinv.mono fun _ h ↦ h.isByteQueue

/-- A halfword behind a byte prepended later, both read again. -/
theorem isByteQueue_halfword :
    AllStates step IsByteQueue ⟨constructPrepend (fun _ ↦ 0) 16 4, []⟩
      [.appendInt16 0x1234, .prependInt8 7, .readInt8, .readInt16] :=
  isByteQueue_run _ (by decide) (by decide) _
    ⟨trivial, (by decide : 1 ≤ 4), (by decide : 1 ≤ 3), (by decide : 2 ≤ 2), trivial⟩

end BufferQueue

end ProjectSensor.Service
