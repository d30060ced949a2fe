import ProjectSensor.App.Devices
import ProjectSensor.Reactor.Poller
import ProjectSensor.Service.Buffer

/-!
# What a channel reads into

`channel::handleEvent` reads up to 100 bytes into an array of 100, but behind the four bytes that
the buffer keeps for prepending, and adds the result to the writer index, an error as well as a
count.  The array lies at the addresses 0 to 99; what the drivers keep for themselves is no part of
this memory.
-/

open ProjectSensor.Library ProjectSensor.Library.ByteMemory
open ProjectSensor.Service ProjectSensor.Bsp ProjectSensor.App

namespace ProjectSensor.Reactor

variable {σ : Type*}

/-- `POLLNONE`. -/
def pollNone : BitVec 8 := 0

/-- What `set_revents` and the constructor leave: one event at most. -/
def Channel.Single (channel : Channel) : Prop :=
  channel.revents = pollNone ∨ channel.revents = pollIn ∨ channel.revents = pollOut

/-- A channel with its events set by the poller. -/
structure PolledChannel extends Channel where
  single : toChannel.Single

/-- What the poller sets is one of these. -/
theorem Channel.single_setRevents {channel : Channel} {rt : BitVec 32} {revt : BitVec 8}
    (hoccurred : channel.occurred rt = some revt) :
    { channel with revents := revt : Channel }.Single := by
  unfold occurred at hoccurred
  split_ifs at hoccurred
  · exact .inr (.inl (Option.some_inj.mp hoccurred).symm)
  · exact .inr (.inr (Option.some_inj.mp hoccurred).symm)

/-- A call of the callback: what it is given, and the world it is called in. -/
structure Handed (σ : Type*) where
  eventType : BitVec 8
  buffer : Buffer
  world : World σ

/-- `handle_channel_cb`, with its `pvoid` and the time of the event. -/
abbrev HandleChannelCb (σ : Type*) := BitVec 8 → Buffer → World σ → Buffer × World σ

/-- `sizeof(data)`. -/
def dataSize : ℕ := 100

/-- The array `data` in the memory. -/
def dataOf (w : World σ) : Mem := fun i ↦ w.ram i

namespace Channel

variable (channel : Channel) (cb : HandleChannelCb σ) (handle : Device σ) (w : World σ)

/-- The read of `handleEvent`. -/
def readData (buffer : Buffer) : BitVec 16 × Device σ × World σ :=
  handle.read w 0 (some buffer.readerIndex) (BitVec.ofNat 16 dataSize)

/-- The branch for `POLLIN`. -/
def handleIn (buffer : Buffer) : List (Handed σ) × Buffer × Device σ × World σ :=
  if channel.revents &&& pollIn ≠ 0 then
    let (rtLen, handle, w) := readData handle w buffer
    let buffer := { buffer with buffer := dataOf w }.hasWritten (rtLen.signExtend 32).toNat
    let (buffer', w') := cb pollIn buffer w
    ([⟨pollIn, buffer, w⟩], buffer', handle, w')
  else ([], buffer, handle, w)

/-- `channel::handleEvent`, and the calls of the callback it makes. -/
def handleEvent : Option (HandleChannelCb σ) → List (Handed σ) × Device σ × World σ
  | none => ([], handle, w)
  | some cb =>
      let buffer := Buffer.construct (dataOf w) dataSize
      let (handed, buffer, handle, w) := channel.handleIn cb handle w buffer
      if channel.revents &&& pollOut ≠ 0 then
        let buffer := { buffer with buffer := dataOf w }
        (handed ++ [⟨pollOut, buffer, w⟩], handle, (cb pollOut buffer w).2)
      else (handed, handle, w)

end Channel

/-- The bytes that a read of so many has put behind the mark, none if it failed. -/
def bytesRead (rtLen : BitVec 16) (w : World σ) : List Byte :=
  if rtLen = -1 then [] else bytes (dataOf w) 4 rtLen.toNat

/-- The read that a call of `handleEvent` begins with. -/
def Channel.readResult (handle : Device σ) (w : World σ) : BitVec 16 × Device σ × World σ :=
  Channel.readData handle w (Buffer.construct (dataOf w) dataSize)

/-- What the buffer of a call has to hold. -/
def Channel.received (channel : Channel) (handle : Device σ) (w : World σ) : List Byte :=
  if channel.revents &&& pollIn ≠ 0 then
    bytesRead (Channel.readResult handle w).1 (Channel.readResult handle w).2.2
  else []

/-- The read succeeds, and what it writes and counts fits behind the mark. -/
def FitsBehindMark (handle : Device σ) (w : World σ) : Prop :=
  (Channel.readResult handle w).1.toNat ≤ dataSize - 4 ∧
    ∀ addr ∈ (Channel.readResult handle w).2.2.writesSince w, addr < dataSize

instance decidableFitsBehindMark (handle : Device σ) (w : World σ) :
    Decidable (FitsBehindMark handle w) := inferInstanceAs (Decidable (_ ∧ _))

/-- Nothing was written outside the array, and the buffer handed over is in order and holds the
bytes read. -/
structure Handed.InOrder (handed : Handed σ) (before : World σ) (read : List Byte) : Prop where
  inside : ∀ addr ∈ handed.world.writesSince before, 0 ≤ addr ∧ addr < dataSize
  mark_le : handed.buffer.cheapPrepend ≤ handed.buffer.readerIndex
  reader_le : handed.buffer.readerIndex ≤ handed.buffer.writerIndex
  writer_le : handed.buffer.writerIndex ≤ handed.buffer.len
  readable_eq : handed.buffer.readable = read

/-! ### The buffer after the read -/

theorem toNat_signExtend_of_nonneg {rtLen : BitVec 16} (hpos : 0 ≤ rtLen.toInt) :
    (rtLen.signExtend 32).toNat = rtLen.toNat := by
  have hmsb : rtLen.msb = false := BitVec.msb_eq_false_iff_two_mul_lt.mpr (by
    rw [BitVec.toInt_eq_toNat_cond] at hpos
    split at hpos <;> omega)
  rw [BitVec.signExtend_eq_setWidth_of_msb_false hmsb, BitVec.toNat_setWidth]
  omega

/-- The buffer handed over after a read that returned `rtLen`. -/
def bufferOf (w : World σ) (rtLen : BitVec 16) : Buffer :=
  (Buffer.construct (dataOf w) dataSize).hasWritten (rtLen.signExtend 32).toNat

theorem writerIndex_bufferOf_of_nonneg (w : World σ) {rtLen : BitVec 16}
    (hpos : 0 ≤ rtLen.toInt) : (bufferOf w rtLen).writerIndex = 4 + rtLen.toNat := by
  show (4 + (rtLen.signExtend 32).toNat) % 2 ^ 32 = _
  rw [toNat_signExtend_of_nonneg hpos, Nat.mod_eq_of_lt (by omega)]

/-- An error puts the writer before the reader. -/
theorem writerIndex_bufferOf_error (w : World σ) : (bufferOf w (-1)).writerIndex = 3 := by
  show (4 + ((-1 : BitVec 16).signExtend 32).toNat) % 2 ^ 32 = 3
  decide

theorem readable_bufferOf_of_nonneg (w : World σ) {rtLen : BitVec 16} (hpos : 0 ≤ rtLen.toInt) :
    (bufferOf w rtLen).readable = bytesRead rtLen w := by
  have hne : rtLen ≠ -1 := by
    rintro rfl
    exact absurd hpos (by decide)
  have hcount : sizeSub (4 + rtLen.toNat) 4 = rtLen.toNat := by
    rw [sizeSub_of_le (Nat.le_add_right ..) (by omega)]
    omega
  rw [bytesRead, if_neg hne, Buffer.readable, Buffer.readableBytes,
    writerIndex_bufferOf_of_nonneg w hpos]
  show bytes (dataOf w) 4 (sizeSub (4 + rtLen.toNat) 4) = _
  rw [hcount]

/-- What is handed over after a read is in order exactly if the read fits behind the mark. -/
theorem inOrder_bufferOf_iff {w w' : World σ} {rtLen : BitVec 16}
    (hread : Device.KeepsWithin w 4 (BitVec.ofNat 16 dataSize) rtLen w') :
    (Handed.mk pollIn (bufferOf w' rtLen) w').InOrder w (bytesRead rtLen w') ↔
      rtLen.toNat ≤ dataSize - 4 ∧ ∀ addr ∈ w'.writesSince w, addr < dataSize := by
  rcases hread.result with rfl | ⟨hpos, -⟩
  · refine iff_of_false (fun horder ↦ ?_) fun hfits ↦ absurd hfits.1 (by decide)
    have hreader : 4 ≤ (bufferOf w' (-1)).writerIndex := horder.reader_le
    rw [writerIndex_bufferOf_error] at hreader
    omega
  · have hwriter := writerIndex_bufferOf_of_nonneg w' hpos
    constructor
    · intro horder
      have hlen : (bufferOf w' rtLen).writerIndex ≤ dataSize := horder.writer_le
      rw [hwriter] at hlen
      exact ⟨by omega, fun addr haddr ↦ (horder.inside addr haddr).2⟩
    · rintro ⟨hcount, hwrites⟩
      have hlen : 4 + rtLen.toNat ≤ dataSize := by
        have : 4 ≤ dataSize := by decide
        omega
      refine ⟨fun addr haddr ↦ ⟨?_, hwrites addr haddr⟩, le_rfl, ?_, ?_, ?_⟩
      · have hlow := (hread.inside addr haddr).1
        omega
      · exact hwriter.symm ▸ Nat.le_add_right ..
      · exact hwriter.symm ▸ hlen
      · exact readable_bufferOf_of_nonneg w' hpos

/-- The calls of the callback that `handleEvent` makes for one event. -/
theorem PolledChannel.handed_eq (channel : PolledChannel) (handle : Device σ) (w : World σ)
    (cb : HandleChannelCb σ) : (channel.handleEvent handle w (some cb)).1 =
      if channel.revents = pollIn then
        [⟨pollIn, bufferOf (Channel.readResult handle w).2.2 (Channel.readResult handle w).1,
          (Channel.readResult handle w).2.2⟩]
      else if channel.revents = pollOut then
        [⟨pollOut, Buffer.construct (dataOf w) dataSize, w⟩]
      else [] := by
  unfold Channel.handleEvent Channel.handleIn
  rcases channel.single with hnone | hin | hout
  · simp [hnone, pollNone, pollIn, pollOut]
  · simp [hin, pollIn, pollOut, Channel.readResult, bufferOf]
    rfl
  · simp [hout, pollIn, pollOut, Buffer.construct]

/-- A call keeps its array and its buffer in order exactly if it does not read, or the read
succeeds and fits behind the mark. -/
theorem PolledChannel.handleEvent_inOrder_iff (channel : PolledChannel) (handle : Device σ)
    (w : World σ) (cb : Option (HandleChannelCb σ))
    (hread : Device.KeepsWithin w 4 (BitVec.ofNat 16 dataSize) (Channel.readResult handle w).1
      (Channel.readResult handle w).2.2) :
    (∀ handed ∈ (channel.handleEvent handle w cb).1,
        handed.InOrder w (channel.received handle w)) ↔
      cb = none ∨ channel.revents &&& pollIn = 0 ∨ FitsBehindMark handle w := by
  cases cb with
  | none => exact iff_of_true (fun _ hmem ↦ absurd hmem List.not_mem_nil) (.inl rfl)
  | some cb =>
      rw [channel.handed_eq, Channel.received]
      by_cases hin : channel.revents = pollIn
      · have hbit : pollIn &&& pollIn ≠ 0 := by decide
        simp only [hin, if_true, List.mem_singleton, forall_eq, hbit, ne_eq, not_false_eq_true,
          reduceCtorEq, false_or]
        exact inOrder_bufferOf_iff hread
      · have hbit : channel.revents &&& pollIn = 0 := by
          rcases channel.single with hnone | hin' | hout
          · rw [hnone]
            rfl
          · exact absurd hin' hin
          · rw [hout]
            rfl
        refine iff_of_true (fun handed hmem ↦ ?_) (.inr (.inl hbit))
        rw [if_neg hin] at hmem
        split at hmem
        · rw [List.mem_singleton.mp hmem, if_neg (not_not.mpr hbit)]
          have hmark : 4 ≤ dataSize := by decide
          refine ⟨?_, le_rfl, le_rfl, hmark,
            Buffer.readable_constructPrepend _ hmark (by decide)⟩
          simp [World.writesSince]
        · exact absurd hmem List.not_mem_nil

/-- A channel with a byte to read. -/
def readyChannel : PolledChannel where
  events := pollIn
  revents := pollIn
  single := .inr (.inl rfl)

def blankWorld : World Unit := { ram := fun _ ↦ 0, writes := [], errorInfo := .ok, rest := () }

/-- A device of the base class over a driver with this read function. -/
def plainDevice (pfread : World Unit → BitVec 16 → ℤ → BitVec 16 → BitVec 16 × World Unit) :
    Device Unit :=
  { Device.construct deviceProcessCommand with
    pdevice := some { flag := 0, pfinit := none, pfopen := none, pfread := some pfread } }

/-- It reads one byte. -/
def oneByteRead (w : World Unit) (_ : BitVec 16) (buffer : ℤ) (_ : BitVec 16) :
    BitVec 16 × World Unit :=
  (1, { w with ram := Function.update w.ram buffer 7, writes := w.writes ++ [buffer] })

/-- It fails. -/
def failingRead (w : World Unit) (_ : BitVec 16) (_ : ℤ) (_ : BitVec 16) :
    BitVec 16 × World Unit :=
  (-1, w.apiDeviceErrorInfoSet .eexec)

theorem keepsWithin_oneByteRead : Device.KeepsWithin blankWorld 4 (BitVec.ofNat 16 dataSize)
    (oneByteRead blankWorld 0 4 (BitVec.ofNat 16 dataSize)).1
    (oneByteRead blankWorld 0 4 (BitVec.ofNat 16 dataSize)).2 where
  result := by decide
  appended := rfl
  inside := by decide
  recorded := by
    intro addr haddr
    have hne : addr ≠ 4 := fun heq ↦ haddr (heq ▸ List.mem_singleton_self _)
    exact Function.update_of_ne hne _ _

/-- One byte is handed over as it should be. -/
theorem handleEvent_inOrder_oneByte :
    readyChannel.received (plainDevice oneByteRead) blankWorld = [7] ∧
      ∀ handed ∈ (readyChannel.handleEvent (plainDevice oneByteRead) blankWorld
          (some fun _ buffer w ↦ (buffer, w))).1,
        handed.InOrder blankWorld (readyChannel.received (plainDevice oneByteRead) blankWorld) := by
  have hread := Device.keepsWithin_read (d := plainDevice oneByteRead) rfl rfl blankWorld 0 4
    (BitVec.ofNat 16 dataSize) fun pfread hpfread ↦ by
      rw [← Option.some_inj.mp hpfread]
      exact keepsWithin_oneByteRead
  refine ⟨by decide, ?_⟩
  exact (readyChannel.handleEvent_inOrder_iff _ _ _ hread).mpr (.inr (.inr (by decide)))

/-- After a read that failed the buffer handed over has its writer before its reader. -/
theorem handleEvent_not_inOrder_failing :
    Device.KeepsWithin blankWorld 4 (BitVec.ofNat 16 dataSize)
        (Channel.readResult (plainDevice failingRead) blankWorld).1
        (Channel.readResult (plainDevice failingRead) blankWorld).2.2 ∧
      ¬ ∀ handed ∈ (readyChannel.handleEvent (plainDevice failingRead) blankWorld
          (some fun _ buffer w ↦ (buffer, w))).1,
        handed.InOrder blankWorld
          (readyChannel.received (plainDevice failingRead) blankWorld) := by
  constructor
  · exact Device.keepsWithin_read rfl rfl blankWorld 0 4 _ fun pfread hpfread ↦ by
      rw [← Option.some_inj.mp hpfread]
      exact Device.keepsWithin_of_same _ (.inl rfl) rfl rfl
  · intro hall
    have hhanded := readyChannel.handed_eq (plainDevice failingRead) blankWorld
      fun _ buffer w ↦ (buffer, w)
    rw [if_pos (by rfl)] at hhanded
    rw [hhanded] at hall
    exact absurd (hall _ (List.mem_singleton_self _)).reader_le (by decide)

end ProjectSensor.Reactor
