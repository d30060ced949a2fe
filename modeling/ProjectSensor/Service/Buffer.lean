import ProjectSensor.Library.ByteMemory

/-!
# `class buffer`

A fixed block of bytes with a reader and a writer index; the bytes before `cheapPrepend` are kept
for prepending.  Sizes are 32-bit and unsigned.
-/

open ProjectSensor.Library.ByteMemory

namespace ProjectSensor.Service

structure Buffer where
  buffer : Mem
  len : ℕ
  cheapPrepend : ℕ
  readerIndex : ℕ
  writerIndex : ℕ

/-- `buffer(pdata, len, cheapPrepend = 4)`. -/
def Buffer.construct (pdata : Mem) (len : ℕ) : Buffer where
  buffer := pdata
  len := len
  cheapPrepend := 4
  readerIndex := 4
  writerIndex := 4

/-- `buffer(pdata, len, cheapPrepend)`. -/
def Buffer.constructPrepend (pdata : Mem) (len cheapPrepend : ℕ) : Buffer where
  buffer := pdata
  len := len
  cheapPrepend := cheapPrepend
  readerIndex := cheapPrepend
  writerIndex := cheapPrepend

/-- Subtraction of `size_t`. -/
def sizeSub (a b : ℕ) : ℕ := (a + 2 ^ 32 - b) % 2 ^ 32

namespace Buffer

def readableBytes (b : Buffer) : ℕ := sizeSub b.writerIndex b.readerIndex

def writableBytes (b : Buffer) : ℕ := sizeSub b.len b.writerIndex

def prependableBytes (b : Buffer) : ℕ := b.readerIndex

/-- The readable bytes. -/
def readable (b : Buffer) : List Byte := bytes b.buffer b.readerIndex b.readableBytes

def hasWritten (b : Buffer) (len : ℕ) : Buffer :=
  { b with writerIndex := (b.writerIndex + len) % 2 ^ 32 }

def retrieveAll (b : Buffer) : Buffer :=
  { b with readerIndex := b.cheapPrepend, writerIndex := b.cheapPrepend }

def retrieve (b : Buffer) (len : ℕ) : Buffer :=
  if len < b.readableBytes then { b with readerIndex := b.readerIndex + len } else b.retrieveAll

/-- `appendInt16`: refused without a trace when the two bytes do not fit. -/
def appendInt16 (b : Buffer) (x : BitVec 16) : Buffer :=
  if b.writableBytes < 2 then b
  else { b with buffer := store16 b.buffer b.writerIndex x, writerIndex := b.writerIndex + 2 }

def peekInt16 (b : Buffer) : BitVec 16 := load16 b.buffer b.readerIndex

/-- `readInt16`: the value and the buffer after it. -/
def readInt16 (b : Buffer) : BitVec 16 × Buffer := (b.peekInt16, b.retrieve 2)

/-! ### The other members -/

/-- `append` of `len` bytes at `data`; -1 when they do not fit. -/
def append (b : Buffer) (data : Mem) (len : ℕ) : ℤ × Buffer :=
  (if b.writableBytes < len then -1 else 0,
    if b.writableBytes < len then b
    else { b with buffer := blit b.buffer b.writerIndex data 0 len }.hasWritten len)

/-- `prepend`; that the bytes fit is up to the caller. -/
def prepend (b : Buffer) (data : Mem) (len : ℕ) : Buffer :=
  let b := { b with readerIndex := sizeSub b.readerIndex len }
  { b with buffer := blit b.buffer b.readerIndex data 0 len }

/-- `retrieveUntil`; `stop` is the index in the block that `end` points at. -/
def retrieveUntil (b : Buffer) (stop : ℕ) : Buffer := b.retrieve (sizeSub stop b.readerIndex)

def retrieveAsCharArray (b : Buffer) (dst : Mem) (len : ℕ) : BitVec 32 × Mem × Buffer :=
  (if b.readableBytes < len then -1 else len,
    if b.readableBytes < len then dst else blit dst 0 b.buffer b.readerIndex len,
    if b.readableBytes < len then b else b.retrieve len)

def retrieveAllAsCharArray (b : Buffer) (dst : Mem) : BitVec 32 × Mem × Buffer :=
  b.retrieveAsCharArray dst b.readableBytes

/-- The bytes of a variable of one, two or four bytes. -/
def var8 (x : BitVec 8) : Mem := store (fun _ ↦ 0) 0 x

def var16 (x : BitVec 16) : Mem := store16 (fun _ ↦ 0) 0 x

def var32 (x : BitVec 32) : Mem := store32 (fun _ ↦ 0) 0 x

def appendInt8 (b : Buffer) (x : BitVec 8) : Buffer := (b.append (var8 x) 1).2

def appendInt32 (b : Buffer) (x : BitVec 32) : Buffer := (b.append (var32 x) 4).2

def prependInt8 (b : Buffer) (x : BitVec 8) : Buffer := b.prepend (var8 x) 1

def prependInt16 (b : Buffer) (x : BitVec 16) : Buffer := b.prepend (var16 x) 2

def prependInt32 (b : Buffer) (x : BitVec 32) : Buffer := b.prepend (var32 x) 4

def peekInt8 (b : Buffer) : BitVec 8 := b.buffer b.readerIndex

def peekInt32 (b : Buffer) : BitVec 32 := load32 b.buffer b.readerIndex

/-- `peekFloat`, the bits of the number. -/
def peekFloat (b : Buffer) : BitVec 32 := load32 b.buffer b.readerIndex

def readInt8 (b : Buffer) : BitVec 8 × Buffer := (b.peekInt8, b.retrieve 1)

def readInt32 (b : Buffer) : BitVec 32 × Buffer := (b.peekInt32, b.retrieve 4)

def readFloat (b : Buffer) : BitVec 32 × Buffer := (b.peekFloat, b.retrieve 4)

/-- The indices are in order and inside the block, the mark included. -/
structure Sound (b : Buffer) : Prop where
  len_lt : b.len < 2 ^ 32
  cheapPrepend_le : b.cheapPrepend ≤ b.len
  reader_le : b.readerIndex ≤ b.writerIndex
  writer_le : b.writerIndex ≤ b.len

end Buffer

theorem sizeSub_of_le {a c : ℕ} (hle : c ≤ a) (hlt : a < 2 ^ 32) : sizeSub a c = a - c := by
  unfold sizeSub
  omega

namespace Buffer

variable {b : Buffer}

theorem sound_constructPrepend (pdata : Mem) {len cheapPrepend : ℕ} (hle : cheapPrepend ≤ len)
    (hlen : len < 2 ^ 32) : (constructPrepend pdata len cheapPrepend).Sound where
  len_lt := hlen
  cheapPrepend_le := hle
  reader_le := le_rfl
  writer_le := hle

theorem Sound.readableBytes_eq (h : b.Sound) :
    b.readableBytes = b.writerIndex - b.readerIndex :=
  sizeSub_of_le h.reader_le (h.writer_le.trans_lt h.len_lt)

theorem readable_constructPrepend (pdata : Mem) {len cheapPrepend : ℕ} (hle : cheapPrepend ≤ len)
    (hlen : len < 2 ^ 32) : (constructPrepend pdata len cheapPrepend).readable = [] := by
  rw [readable, (sound_constructPrepend pdata hle hlen).readableBytes_eq]
  show bytes _ _ (cheapPrepend - cheapPrepend) = []
  rw [Nat.sub_self]
  rfl

theorem Sound.writableBytes_eq (h : b.Sound) : b.writableBytes = b.len - b.writerIndex :=
  sizeSub_of_le h.writer_le h.len_lt

end Buffer

end ProjectSensor.Service
