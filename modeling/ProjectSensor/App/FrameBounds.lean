import ProjectSensor.App.Commu
import ProjectSensor.Library.Transition

/-!
# Frames handed to `unpack`

`unpack` reads the checksum from the last two bytes of the frame and the bytes before it.  A frame
of fewer than two bytes has no checksum: its length less two wraps around.  Such frames are closed
by the byte timer, after a single byte or after none when the receiver was armed in between.
-/

open ProjectSensor.Library ProjectSensor.Library.ByteMemory ProjectSensor.Library.Transition
open ProjectSensor.Service ProjectSensor.Bsp ProjectSensor.Api

namespace ProjectSensor.App

/-- The device and the frames that were handed to `unpack`, the latest first. -/
structure Link where
  device : DeviceCommu
  handed : List HandedFrame

/-- The steps of the receiver.  `recvHandle` is one pass of the loop in PendSV. -/
inductive LinkAction where
  | byte (c : Byte)
  | byteTimer
  | recvHandle (buf : Ram) (param : Mem)
  | rxEnter
  | txDone
  | slaveSet (addr : Byte)

namespace Link

/-- The device after its construction and opening. -/
def construct (rtu : ProtocolModbusRtu) (datum : ModelDatum) : Link where
  device := { uart := (Transceiver.construct .halfDuplex).recvInit, rtu := rtu, datum := datum }
  handed := []

variable (link : Link)

def withUart (uart : Transceiver) : Link :=
  { link with device := { link.device with uart := uart } }

/-- One pass of the loop in `package_event_fetch`. -/
def recvHandle (buf : Ram) (param : Mem) : Bool × Link :=
  let received := link.device.packageRecvHandle buf param
  (received.toContinue,
    { device := received.device, handed := received.handed.toList ++ link.handed })

def step : LinkAction → Link
  | .byte c => link.withUart (link.device.uart.push c).2
  | .byteTimer => link.withUart link.device.uart.byteTimerTimeout
  | .recvHandle buf param => (link.recvHandle buf param).2
  | .rxEnter => { link with device := link.device.rxEnter }
  | .txDone => link.withUart link.device.uart.dmaUartTxIntHandler
  | .slaveSet addr => { link with device := link.device.slaveSet addr }

/-- `package_event_fetch`, with what the stack held in each pass. -/
def packageEventFetch : List (Ram × Mem) → Link → Link
  | [], link => link
  | (buf, param) :: locals, link =>
      let (toContinue, link) := link.recvHandle buf param
      if toContinue then packageEventFetch locals link else link

end Link

/-- The handling in PendSV is a series of passes. -/
theorem packageEventFetch_eq_run (locals : List (Ram × Mem)) (link : Link) :
    ∃ passes, passes <+: locals ∧ link.packageEventFetch locals =
      run Link.step link (passes.map fun pass ↦ .recvHandle pass.1 pass.2) := by
  induction locals generalizing link with
  | nil => exact ⟨[], List.prefix_rfl, rfl⟩
  | cons pass locals ih =>
      cases hcontinue : (link.recvHandle pass.1 pass.2).1 with
      | false =>
          refine ⟨[pass], ⟨locals, rfl⟩, ?_⟩
          simp [Link.packageEventFetch, hcontinue, Link.step]
      | true =>
          obtain ⟨passes, hprefix, hrun⟩ := ih (link.recvHandle pass.1 pass.2).2
          refine ⟨pass :: passes, List.cons_prefix_cons.mpr ⟨rfl, hprefix⟩, ?_⟩
          simpa [Link.packageEventFetch, hcontinue, Link.step] using hrun

/-- Every index that `unpack` and the checksum read lies in the frame. -/
def HandedFrame.InFrame (handed : HandedFrame) : Prop :=
  ∀ index ∈ (unpack handed.rtu handed.pbuf handed.len).reads,
    0 ≤ index ∧ index < handed.len.toNat

/-- What `unpack` reads. -/
theorem unpack_reads (rtu : ProtocolModbusRtu) (pbuf : Ram) (len : BitVec 16) :
    (unpack rtu pbuf len).reads =
      if maxMessageLength < len.toNat ∨
          pbuf 0 ≠ rtu.modbus.slave ∧ pbuf 0 ≠ modbusBroadcastAddress then [0]
      else 0 :: ((List.range (len - 2).toNat).map (fun (i : ℕ) ↦ (i : ℤ)) ++
        [(len.toNat : ℤ) - 2, (len.toNat : ℤ) - 1]) := by
  rw [unpack, Traced.reads_bind, Traced.reads_read, Traced.value_read]
  by_cases hlong : maxMessageLength < len.toNat
  · rw [if_pos hlong, if_pos (.inl hlong)]
    rfl
  by_cases hslave : pbuf 0 ≠ rtu.modbus.slave ∧ pbuf 0 ≠ modbusBroadcastAddress
  · rw [if_neg hlong, if_pos hslave, if_pos (.inr hslave)]
    rfl
  rw [if_neg hlong, if_neg hslave, if_neg (not_or.mpr ⟨hlong, hslave⟩), Traced.reads_bind,
    Traced.reads_bind, Traced.reads_bind, crc16_reads]
  split <;> rfl

/-- A frame is read inside its bounds when it has a checksum, or when its only byte is an address
of no interest. -/
theorem inFrame_iff (handed : HandedFrame) :
    handed.InFrame ↔ 2 ≤ handed.len.toNat ∨ handed.len.toNat = 1 ∧
      handed.pbuf 0 ≠ handed.rtu.modbus.slave ∧ handed.pbuf 0 ≠ modbusBroadcastAddress := by
  rw [HandedFrame.InFrame, unpack_reads]
  split
  · rename_i hskip
    rw [List.forall_mem_singleton]
    have hmax : maxMessageLength = 260 := rfl
    constructor
    · rintro ⟨_, hpos⟩
      rcases hskip with hlong | hslave
      · exact .inl (by omega)
      · exact (by omega : 2 ≤ handed.len.toNat ∨ handed.len.toNat = 1).imp_right
          fun hone ↦ ⟨hone, hslave⟩
    · rintro (htwo | ⟨hone, _⟩) <;> omega
  · rename_i hread
    constructor
    · intro hin
      have hhigh := hin ((handed.len.toNat : ℤ) - 2) (by simp)
      exact .inl (by omega)
    · rintro (htwo | ⟨_, hslave⟩)
      swap
      · exact absurd (.inr hslave) hread
      have hsub : (handed.len - 2).toNat = handed.len.toNat - 2 := by
        have hle : (2 : BitVec 16) ≤ handed.len := BitVec.le_def.mpr htwo
        rw [BitVec.toNat_sub_of_le hle]
        rfl
      intro index hindex
      simp only [List.mem_cons, List.mem_append, List.mem_map, List.mem_range, hsub,
        List.not_mem_nil, or_false] at hindex
      rcases hindex with rfl | ⟨i, hi, rfl⟩ | rfl | rfl <;> omega

/-- Every frame that was handed to `unpack` was read inside its bounds. -/
def FramesInBounds (link : Link) : Prop := ∀ handed ∈ link.handed, handed.InFrame

/-- A frame with a checksum, or with a single byte that is not the address of a request. -/
def Fits (slave : Byte) (frame : List Byte) : Prop :=
  2 ≤ frame.length ∨ frame.length = 1 ∧ slave ∉ frame ∧ modbusBroadcastAddress ∉ frame

/-- The frame at the front of the queue, if one is about to be taken, has a checksum or is a byte
that is neither the slave address nor the broadcast address. -/
def FrontFits (link : Link) : LinkAction → Prop
  | .recvHandle _ _ => ∀ frame ∈ (frames link.device.uart.bufQueue).head?,
      Fits link.device.rtu.modbus.slave frame
  | _ => True

/-- The queue of the receiver holds frames of at most 130 bytes. -/
def LinkSound (link : Link) : Prop := QueueSound link.device.uart.bufQueue

/-- What a frame from the queue becomes when it is handed to `unpack`. -/
def handedOf (rtu : ProtocolModbusRtu) (buf : Ram) (frame : List Byte) : HandedFrame :=
  ⟨rtu, put buf frame, BitVec.ofNat 16 frame.length⟩

theorem inFrame_handedOf_iff (rtu : ProtocolModbusRtu) (buf : Ram) {frame : List Byte}
    (hlen : frame.length ≤ queueBufLen) :
    (handedOf rtu buf frame).InFrame ↔ Fits rtu.modbus.slave frame := by
  have hnat : (handedOf rtu buf frame).len.toNat = frame.length := by
    rw [handedOf, BitVec.toNat_ofNat, Nat.mod_eq_of_lt (hlen.trans_lt (by decide))]
  rw [inFrame_iff, hnat, Fits]
  refine or_congr_right (and_congr_right fun hone ↦ ?_)
  obtain ⟨c, rfl⟩ := List.length_eq_one_iff.mp hone
  have hfirst : (handedOf rtu buf [c]).pbuf 0 = c := by simp [handedOf, put]
  rw [hfirst, List.mem_singleton, List.mem_singleton]
  exact and_congr ne_comm ne_comm

theorem write_bufQueue (d : DeviceCommu) (pbuf : Ram) (len : BitVec 16) :
    (d.write pbuf len).uart.bufQueue = d.uart.bufQueue := by
  unfold DeviceCommu.write
  split
  · rfl
  · simp only [DeviceCommu.rxEnter, Transceiver.recvInit]
    split <;> rfl

/-- One pass takes the front frame off the queue and hands it to `unpack`. -/
theorem recvHandle_spec {link : Link} (h : LinkSound link) (buf : Ram) (param : Mem) :
    LinkSound (link.recvHandle buf param).2 ∧
      (link.recvHandle buf param).2.handed =
        ((frames link.device.uart.bufQueue).head?.map (handedOf link.device.rtu buf)).toList ++
          link.handed := by
  obtain ⟨hhead, hsound, -⟩ := QueueSound.get h
  rw [← hhead]
  rcases hget : bufQueueGet link.device.uart.bufQueue with ⟨_ | frame, bufQueue⟩
  · rw [hget] at hsound
    simp only [Link.recvHandle, DeviceCommu.packageRecvHandle, Transceiver.fetch, hget]
    exact ⟨hsound, rfl⟩
  · rw [hget] at hsound
    simp only [Link.recvHandle, DeviceCommu.packageRecvHandle, Transceiver.fetch, hget]
    split
    · exact ⟨hsound, rfl⟩
    · refine ⟨?_, rfl⟩
      rw [LinkSound, write_bufQueue]
      exact hsound

theorem linkSound_step {link : Link} (h : LinkSound link) (action : LinkAction) :
    LinkSound (link.step action) := by
  cases action with
  | byte c => exact queueSound_push h c
  | byteTimer => exact queueSound_byteTimerTimeout h
  | recvHandle buf param => exact (recvHandle_spec h buf param).1
  | rxEnter => exact h
  | txDone => exact h
  | slaveSet addr => exact h

/-- One step keeps all frames inside their bounds exactly when the frame it hands over fits. -/
theorem framesInBounds_step_iff {link : Link} (h : LinkSound link) (hin : FramesInBounds link)
    (action : LinkAction) : FramesInBounds (link.step action) ↔ FrontFits link action := by
  cases action with
  | recvHandle buf param =>
      rw [FramesInBounds, Link.step, (recvHandle_spec h buf param).2, FrontFits]
      cases hhead : (frames link.device.uart.bufQueue).head? with
      | none => simpa [FramesInBounds] using hin
      | some frame =>
          have hlen := h.length_le frame (List.mem_of_mem_head? hhead)
          have hiff := inFrame_handedOf_iff link.device.rtu buf hlen
          simp only [Option.map_some, Option.toList_some, List.singleton_append,
            List.forall_mem_cons, Option.mem_some_iff, forall_eq']
          exact (and_iff_left hin).trans hiff
  | _ => exact iff_of_true hin trivial

/-- In every run of the receiver, `unpack` reads inside every frame it is handed exactly when each
of those frames has a checksum or is a single byte that is no address of a request. -/
theorem framesInBounds_run_iff (rtu : ProtocolModbusRtu) (datum : ModelDatum)
    (actions : List LinkAction) :
    AllStates Link.step FramesInBounds (.construct rtu datum) actions ↔
      AllSteps Link.step FrontFits (.construct rtu datum) actions :=
  allStates_iff_allSteps LinkSound (fun _ action h _ _ ↦ linkSound_step h action)
    (fun _ action h hin ↦ framesInBounds_step_iff h hin action) actions queueSound_init
    (by simp [FramesInBounds, Link.construct])

/-- The device when a byte 0 was received and the line is silent. -/
def afterLoneByte : Link :=
  run Link.step (.construct .construct ⟨fun _ ↦ 0, fun _ ↦ 0⟩) [.byte 0, .byteTimer]

/-- The frame of the one byte 0, the broadcast address, is handed over with length 1: the checksum
is computed over 65535 bytes and compared with the bytes at -1 and 0. -/
theorem framesInBounds_fails_after_lone_byte :
    ¬ AllStates Link.step FramesInBounds (.construct .construct ⟨fun _ ↦ 0, fun _ ↦ 0⟩)
      [.byte 0, .byteTimer, .recvHandle (fun _ ↦ 0) fun _ ↦ 0] := by
  intro hstates
  have hlast : FramesInBounds (afterLoneByte.recvHandle (fun _ ↦ 0) fun _ ↦ 0).2 := hstates.last
  have hinit : LinkSound (.construct .construct ⟨fun _ ↦ 0, fun _ ↦ 0⟩) := queueSound_init
  have hsound : LinkSound afterLoneByte :=
    linkSound_step (linkSound_step hinit (.byte 0)) .byteTimer
  have hfront : (frames afterLoneByte.device.uart.bufQueue).head? = some [0] := by decide +kernel
  have hspec := (recvHandle_spec hsound (fun _ ↦ 0) fun _ ↦ 0).2
  rw [hfront] at hspec
  have hin : (handedOf afterLoneByte.device.rtu (fun _ ↦ 0) [0]).InFrame :=
    hlast _ (by rw [hspec]; exact List.mem_cons_self)
  have hfits := (inFrame_handedOf_iff _ _ (by decide)).mp hin
  unfold Fits at hfits
  revert hfits
  decide

end ProjectSensor.App
