import ProjectSensor.App.FrameBounds
import ProjectSensor.App.ValidResponses

/-!
# Draining the receiver

PendSV handles frames until a pass tells it to stop.  `package_recv_handle` asks to go on only
after a frame that `unpack` accepted: a pass that finds a frame `unpack` rejects stops the loop like
one that finds the queue empty, whatever lies behind that frame.  The receiver is armed by a
rejection and by the answer to a frame, but an empty frame is not answered.
-/

open ProjectSensor.Library ProjectSensor.Library.ByteMemory ProjectSensor.Library.Transition
open ProjectSensor.Service ProjectSensor.Bsp ProjectSensor.Api

namespace ProjectSensor.App

/-! ### The protocol stays configured -/

namespace Exchange

/-- Both branches of a choice leave the configuration of the protocol as it is. -/
theorem modbus_ite {modbus : Modbus} {p : Prop} [Decidable p] {y z : ℤ × Exchange}
    (hy : y.2.rtu.modbus = modbus) (hz : z.2.rtu.modbus = modbus) :
    (if p then y else z).2.rtu.modbus = modbus := by
  split
  · exact hy
  · exact hz

theorem parse_modbus (rtu : ProtocolModbusRtu) (ram : Ram) (package : ℤ) :
    (rtu.parse ram package).modbus = rtu.modbus := by
  simp only [ProtocolModbusRtu.parse]
  split
  · split <;> rfl
  · rfl

theorem handlePrepare_modbus (x : Exchange) : (handlePrepare x).2.rtu.modbus = x.rtu.modbus := by
  simp only [handlePrepare, packageEventPrepare]
  split
  · rfl
  split
  · rfl
  split <;> rfl

theorem replyRegisters_modbus (x : Exchange) (slave function : Byte) (rsp req reqLength : ℤ) :
    (x.replyRegisters handlePrepare slave function rsp req reqLength).2.rtu.modbus =
      x.rtu.modbus := by
  have hparse := parse_modbus x.rtu x.ram req
  by_cases hread : function = fcReadHoldingRegisters ∨ function = fcReadInputRegisters
  · simp only [replyRegisters, buildResponseBasis, if_pos hread]
    apply modbus_ite
    · apply modbus_ite
      · exact (handlePrepare_modbus _).trans hparse
      · exact (handlePrepare_modbus _).trans hparse
    · exact hparse
  · simp only [replyRegisters, buildResponseBasis, if_neg hread]
    apply modbus_ite
    · apply modbus_ite
      · apply modbus_ite <;> exact (handlePrepare_modbus _).trans hparse
      · exact (handlePrepare_modbus _).trans hparse
    · exact hparse

/-- Answering a request leaves the slave address alone. -/
theorem pack_modbus (x : Exchange) (dst src : ℤ) (len : BitVec 16) :
    (x.pack handlePrepare dst src len).2.rtu.modbus = x.rtu.modbus := by
  unfold pack modbusReply
  by_cases hnames : namesRegisters (x.ram (src + 1)) = true
  · simp only [hnames, if_true]
    exact replyRegisters_modbus ..
  by_cases hslaveId : x.ram (src + 1) = fcReportSlaveId
  · simp only [if_neg hnames, if_pos hslaveId, sendMsgPre, buildResponseBasis, setByte,
      setBytes_rtu]
  · simp only [if_neg hnames, if_neg hslaveId]
    rfl

end Exchange

/-! ### One pass -/

/-- A frame, and what its pass finds on the stack. -/
abbrev FetchPass := List Byte × Ram × Mem

/-- `unpack` accepts the frame of the pass. -/
def Accepts (rtu : ProtocolModbusRtu) (pass : FetchPass) : Prop :=
  (unpack rtu (put pass.2.1 pass.1) (BitVec.ofNat 16 pass.1.length)).value = 0

instance (rtu : ProtocolModbusRtu) : DecidablePred (Accepts rtu) :=
  fun _ ↦ inferInstanceAs (Decidable (_ = 0))

/-- Of the protocol `unpack` looks at the slave address only. -/
theorem accepts_congr {rtu rtu' : ProtocolModbusRtu} (hmodbus : rtu'.modbus = rtu.modbus)
    (pass : FetchPass) : Accepts rtu' pass ↔ Accepts rtu pass := by
  unfold Accepts unpack
  rw [hmodbus]

/-- The queue is empty and the receiver armed. -/
structure Drained (link : Link) : Prop where
  empty : frames link.device.uart.bufQueue = []
  armed : link.device.uart.rxStatus = .recv

theorem write_modbus (d : DeviceCommu) (pbuf : Ram) (len : BitVec 16) :
    (d.write pbuf len).rtu.modbus = d.rtu.modbus := by
  unfold DeviceCommu.write
  split
  · rfl
  · exact Exchange.pack_modbus ⟨pbuf, d.rtu, d.datum⟩ 0 0 len

/-- The receiver is armed when a response has been sent, and left as it is for an empty frame. -/
theorem write_rxStatus (d : DeviceCommu) (pbuf : Ram) (len : BitVec 16) :
    (d.write pbuf len).uart.rxStatus = if len = 0 then d.uart.rxStatus else .recv := by
  unfold DeviceCommu.write
  split <;> rfl

variable {link : Link} {frame : List Byte} {rest : List (List Byte)}

/-- A pass that finds the queue empty changes nothing and stops the loop. -/
theorem recvHandle_of_empty (h : LinkSound link) (hempty : frames link.device.uart.bufQueue = [])
    (buf : Ram) (param : Mem) :
    (link.recvHandle buf param).1 = false ∧
      frames (link.recvHandle buf param).2.device.uart.bufQueue = [] ∧
      (link.recvHandle buf param).2.device.uart.rxStatus = link.device.uart.rxStatus := by
  obtain ⟨hhead, -, htail⟩ := QueueSound.get h
  rw [hempty] at hhead htail
  rcases hget : bufQueueGet link.device.uart.bufQueue with ⟨_ | frame, bufQueue⟩
  · rw [hget] at htail
    simp only [Link.recvHandle, DeviceCommu.packageRecvHandle, Transceiver.fetch, hget]
    exact ⟨trivial, htail, trivial⟩
  · rw [hget] at hhead
    exact absurd hhead (Option.some_ne_none _)

/-- What a pass does with the frame at the front of the queue. -/
structure FrontTaken (link after : Link) (rest : List (List Byte)) (armed : RxStat) : Prop where
  sound : LinkSound after
  frames : frames after.device.uart.bufQueue = rest
  modbus : after.device.rtu.modbus = link.device.rtu.modbus
  rxStatus : after.device.uart.rxStatus = armed

/-- The frame leaves the queue; the loop goes on if it was accepted, and the receiver is armed
unless it was accepted and empty. -/
theorem recvHandle_of_frame (h : LinkSound link)
    (hframes : frames link.device.uart.bufQueue = frame :: rest) (buf : Ram) (param : Mem) :
    (link.recvHandle buf param).1 = decide (Accepts link.device.rtu (frame, buf, param)) ∧
      FrontTaken link (link.recvHandle buf param).2 rest
        (if Accepts link.device.rtu (frame, buf, param) ∧ frame = [] then
          link.device.uart.rxStatus else .recv) := by
  obtain ⟨hhead, hsound, htail⟩ := QueueSound.get h
  have hlen := h.length_le frame (hframes ▸ List.mem_cons_self)
  rw [hframes] at hhead htail
  rcases hget : bufQueueGet link.device.uart.bufQueue with ⟨_ | taken, bufQueue⟩
  · rw [hget] at hhead
    exact absurd hhead.symm (Option.some_ne_none _)
  rw [hget] at hhead hsound htail
  obtain rfl : taken = frame := Option.some.inj hhead
  have hzero : BitVec.ofNat 16 taken.length = 0 ↔ taken = [] := by
    rw [← BitVec.toNat_inj, BitVec.toNat_ofNat, Nat.mod_eq_of_lt (hlen.trans_lt (by decide))]
    exact List.length_eq_zero_iff
  by_cases haccept : Accepts link.device.rtu (taken, buf, param)
  · have hvalue : ¬ (unpack link.device.rtu (put buf taken)
        (BitVec.ofNat 16 taken.length)).value ≠ 0 := not_not.mpr haccept
    simp only [Link.recvHandle, DeviceCommu.packageRecvHandle, Transceiver.fetch, hget,
      if_neg hvalue, haccept, true_and, decide_true]
    refine ⟨?_, ?_, write_modbus _ _ _, ?_⟩
    · rw [LinkSound, write_bufQueue]
      exact hsound
    · rw [write_bufQueue]
      exact htail
    · rw [write_rxStatus]
      exact if_congr hzero rfl rfl
  · have hvalue : (unpack link.device.rtu (put buf taken)
        (BitVec.ofNat 16 taken.length)).value ≠ 0 := haccept
    simp only [Link.recvHandle, DeviceCommu.packageRecvHandle, Transceiver.fetch, hget,
      if_pos hvalue, haccept, false_and, decide_false, if_false]
    exact ⟨trivial, hsound, htail, rfl, rfl⟩

/-! ### The loop -/

theorem packageEventFetch_cons (link : Link) (buf : Ram) (param : Mem)
    (locals : List (Ram × Mem)) : link.packageEventFetch ((buf, param) :: locals) =
      if (link.recvHandle buf param).1 then
        (link.recvHandle buf param).2.packageEventFetch locals
      else (link.recvHandle buf param).2 := rfl

/-- The frames of the queue, each with what its pass finds on the stack. -/
def passes (link : Link) (locals : List (Ram × Mem)) : List FetchPass :=
  (frames link.device.uart.bufQueue).zip locals

/-- Every frame but the last is accepted, and something arms the receiver: it is armed to begin
with, or some frame has a byte, or the last one is rejected. -/
structure Drainable (link : Link) (locals : List (Ram × Mem)) : Prop where
  accepted : ∀ pass ∈ (passes link locals).dropLast, Accepts link.device.rtu pass
  armed : link.device.uart.rxStatus = .recv ∨
    (∃ frame ∈ frames link.device.uart.bufQueue, frame ≠ []) ∨
    ∃ pass ∈ (passes link locals).getLast?, ¬ Accepts link.device.rtu pass

theorem drained_iff {after : Link} {armed : RxStat} (htaken : FrontTaken link after rest armed) :
    Drained after ↔ rest = [] ∧ armed = .recv := by
  rw [← htaken.frames, ← htaken.rxStatus]
  exact ⟨fun h ↦ ⟨h.empty, h.armed⟩, fun h ↦ ⟨h.1, h.2⟩⟩

theorem drainable_iff (link : Link) (locals : List (Ram × Mem)) :
    Drainable link locals ↔
      (∀ pass ∈ (passes link locals).dropLast, Accepts link.device.rtu pass) ∧
      (link.device.uart.rxStatus = .recv ∨
        (∃ frame ∈ frames link.device.uart.bufQueue, frame ≠ []) ∨
        ∃ pass ∈ (passes link locals).getLast?, ¬ Accepts link.device.rtu pass) :=
  ⟨fun h ↦ ⟨h.accepted, h.armed⟩, fun h ↦ ⟨h.1, h.2⟩⟩

/-- With nothing in the queue the receiver has to be armed already. -/
theorem drainable_of_empty (hempty : frames link.device.uart.bufQueue = [])
    (locals : List (Ram × Mem)) :
    Drainable link locals ↔ link.device.uart.rxStatus = .recv := by
  rw [drainable_iff, passes, hempty]
  simp

/-- After an accepted frame the rest decides. -/
theorem drainable_of_accepts {after : Link} {buf : Ram} {param : Mem}
    {locals : List (Ram × Mem)} (hframes : frames link.device.uart.bufQueue = frame :: rest)
    (haccept : Accepts link.device.rtu (frame, buf, param))
    (htaken : FrontTaken link after rest
      (if frame = [] then link.device.uart.rxStatus else .recv)) :
    Drainable link ((buf, param) :: locals) ↔ Drainable after locals := by
  have hpasses : passes link ((buf, param) :: locals) =
      (frame, buf, param) :: passes after locals := by
    rw [passes, hframes, passes, htaken.frames, List.zip_cons_cons]
  have hsame := accepts_congr htaken.modbus
  have hdrop : (∀ pass ∈ (passes link ((buf, param) :: locals)).dropLast,
      Accepts link.device.rtu pass) ↔
      ∀ pass ∈ (passes after locals).dropLast, Accepts after.device.rtu pass := by
    rw [hpasses]
    cases passes after locals with
    | nil => simp
    | cons next more => simp [haccept, hsame]
  have hlast : (∃ pass ∈ (passes link ((buf, param) :: locals)).getLast?,
      ¬ Accepts link.device.rtu pass) ↔
      ∃ pass ∈ (passes after locals).getLast?, ¬ Accepts after.device.rtu pass := by
    rw [hpasses]
    cases passes after locals with
    | nil => simp [haccept]
    | cons next more => simp [hsame, List.getLast?_cons_cons]
  have harmed : (link.device.uart.rxStatus = .recv ∨ ∃ other ∈ frame :: rest, other ≠ []) ↔
      after.device.uart.rxStatus = .recv ∨ ∃ other ∈ rest, other ≠ [] := by
    rw [htaken.rxStatus]
    by_cases hempty : frame = [] <;> simp [hempty]
  rw [drainable_iff, drainable_iff, hdrop, hlast, hframes, htaken.frames, ← or_assoc, harmed,
    or_assoc]

/-- A rejected frame has to be the last. -/
theorem drainable_of_rejects {buf : Ram} {param : Mem} {locals : List (Ram × Mem)}
    (hframes : frames link.device.uart.bufQueue = frame :: rest)
    (hreject : ¬ Accepts link.device.rtu (frame, buf, param))
    (henough : rest.length ≤ locals.length) :
    Drainable link ((buf, param) :: locals) ↔ rest = [] := by
  have hpasses : passes link ((buf, param) :: locals) = (frame, buf, param) :: rest.zip locals := by
    rw [passes, hframes, List.zip_cons_cons]
  constructor
  · intro h
    by_contra hmore
    obtain ⟨next, more, rfl⟩ := List.exists_cons_of_ne_nil hmore
    obtain ⟨local', locals', rfl⟩ : ∃ first others, locals = first :: others :=
      List.exists_cons_of_ne_nil fun hnil ↦ by simp [hnil] at henough
    apply hreject
    apply h.accepted
    rw [hpasses]
    simp
  · rintro rfl
    refine ⟨fun pass hpass ↦ absurd hpass (by simp [hpasses]), .inr (.inr ?_)⟩
    exact ⟨(frame, buf, param), by simp [hpasses], hreject⟩

/-- With a pass for each frame and one more, `package_event_fetch` leaves the queue empty and the
receiver armed if and only if every frame but the last is accepted and something arms the
receiver. -/
theorem packageEventFetch_drains_iff (link : Link) (locals : List (Ram × Mem))
    (h : LinkSound link)
    (henough : (frames link.device.uart.bufQueue).length < locals.length) :
    Drained (link.packageEventFetch locals) ↔ Drainable link locals := by
  generalize hframes : frames link.device.uart.bufQueue = queue at henough
  induction queue generalizing link locals with
  | nil =>
      obtain ⟨⟨buf, param⟩, locals, rfl⟩ : ∃ first others, locals = first :: others :=
        List.exists_cons_of_ne_nil (List.ne_nil_of_length_pos henough)
      obtain ⟨hstop, hempty, harmed⟩ := recvHandle_of_empty h hframes buf param
      rw [packageEventFetch_cons, hstop, if_neg Bool.false_ne_true]
      calc Drained (link.recvHandle buf param).2
          ↔ (link.recvHandle buf param).2.device.uart.rxStatus = .recv :=
            ⟨fun hdrained ↦ hdrained.armed, fun hrecv ↦ ⟨hempty, hrecv⟩⟩
        _ ↔ link.device.uart.rxStatus = .recv := by rw [harmed]
        _ ↔ Drainable link ((buf, param) :: locals) := (drainable_of_empty hframes _).symm
  | cons frame rest ih =>
      obtain ⟨⟨buf, param⟩, locals, rfl⟩ : ∃ first others, locals = first :: others :=
        List.exists_cons_of_ne_nil (List.ne_nil_of_length_pos (Nat.zero_lt_of_lt henough))
      obtain ⟨hcontinue, htaken⟩ := recvHandle_of_frame h hframes buf param
      have hless : rest.length < locals.length := by simpa using henough
      rw [packageEventFetch_cons, hcontinue]
      by_cases haccept : Accepts link.device.rtu (frame, buf, param)
      · simp only [haccept, true_and] at htaken
        rw [if_pos (decide_eq_true haccept)]
        calc Drained ((link.recvHandle buf param).2.packageEventFetch locals)
            ↔ Drainable (link.recvHandle buf param).2 locals :=
              ih _ _ htaken.sound htaken.frames hless
          _ ↔ Drainable link ((buf, param) :: locals) :=
              (drainable_of_accepts hframes haccept htaken).symm
      · simp only [haccept, false_and, if_false] at htaken
        rw [if_neg (by simpa using haccept)]
        calc Drained (link.recvHandle buf param).2
            ↔ rest = [] := (drained_iff htaken).trans (and_iff_left rfl)
          _ ↔ Drainable link ((buf, param) :: locals) :=
              (drainable_of_rejects hframes haccept hless.le).symm

/-- A frame of two bytes for slave 5. -/
def foreignFrame : List LinkAction := [.byte 5, .byte 5, .byteTimer]

/-- The device of slave 0 when it has received what `actions` say. -/
def received (actions : List LinkAction) : Link :=
  run Link.step (.construct .construct ⟨fun _ ↦ 0, fun _ ↦ 0⟩) actions

theorem linkSound_received (actions : List LinkAction) : LinkSound (received actions) :=
  run_of_step LinkSound (fun _ action h ↦ linkSound_step h action) queueSound_init

/-- One frame for another slave: it is rejected, and it is the last. -/
theorem packageEventFetch_drains_iff_one_frame :
    Drained ((received foreignFrame).packageEventFetch
      [(fun _ ↦ 0, fun _ ↦ 0), (fun _ ↦ 0, fun _ ↦ 0)]) := by
  apply (packageEventFetch_drains_iff _ _ (linkSound_received _) (by decide +kernel)).mpr
  exact ⟨by decide +kernel, .inr (.inl (by decide +kernel))⟩

/-- Two frames for another slave: the first one stops the loop, and the second one stays. -/
theorem packageEventFetch_leaves_second_frame :
    ¬ ∀ (link : Link) (locals : List (Ram × Mem)), LinkSound link →
      (frames link.device.uart.bufQueue).length < locals.length →
      Drained (link.packageEventFetch locals) := by
  intro hdrains
  have hdrained := hdrains (received (foreignFrame ++ .rxEnter :: foreignFrame))
    (List.replicate 3 (fun _ ↦ 0, fun _ ↦ 0)) (linkSound_received _) (by decide +kernel)
  exact absurd hdrained.empty (by decide +kernel)

end ProjectSensor.App
