import ProjectSensor.Library.SlotBitmap
import ProjectSensor.Service.LinkedList

/-!
# `timer_manage`

Six timers, each with a node for one of two lists: hard timers are handled in the tick interrupt,
soft timers in the event loop.  Whether a timer runs is recorded three times, by its flag, by its
links and (as a slot in use) by a bit of `m_bitmap`.  Callbacks call no timer operation; time may
pass while one runs.
-/

open ProjectSensor.Library.LinkedRing ProjectSensor.Library.SlotBitmap

namespace ProjectSensor.Service

/-- `def_MONITOR_TIME_NR`. -/
abbrev monitorTimeNr : ℕ := 6

abbrev Tick := BitVec 32

/-- `TICK_MAX/2`. -/
def tickHalf : Tick := 0x7FFFFFFF

/-- `sv_tick_from_millisecond` with `TICK_PER_SECOND` 100. -/
def svTickFromMillisecond (ms : BitVec 32) : Tick := (100 * ms + 999) / 1000

def svTimerFlagActivated : BitVec 8 := 0x1
def svTimerFlagPeriodic : BitVec 8 := 0x2
def svTimerFlagSoftTimer : BitVec 8 := 0x4
def svTimerFlagTimeout : BitVec 8 := 0x10
def svTimerFlagHandling : BitVec 8 := 0x20

def hasFlag (flag mask : BitVec 8) : Bool := flag &&& mask ≠ 0

/-- The nodes of the two lists: their heads, and the node inside each timer. -/
inductive TimerNode where
  | timerList
  | softTimerList
  | timer (i : Fin monitorTimeNr)
  deriving DecidableEq

variable {Func Param : Type}

/-- `struct sv_timer` without its list node. -/
structure SvTimer (Func Param : Type) where
  flag : BitVec 8
  timeoutFunc : Option Func
  parameter : Param
  initTick : Tick
  timeoutTick : Tick

/-- A callback that was run: whose, what, and at which tick. -/
structure Expiry (Func Param : Type) where
  timer : Fin monitorTimeNr
  func : Func
  parameter : Param
  tick : Tick

/-- `timer_manage` and the clock it reads; `sTime` is the count of the timer device, and `expiries`
is a record of the callbacks run, the latest first. -/
structure TimerManage (Func Param : Type) where
  links : Links TimerNode
  bitmap : BitVec 16
  timer : Fin monitorTimeNr → SvTimer Func Param
  softTimerHandling : Bool
  sTick : Tick
  sTime : BitVec 32
  expiries : List (Expiry Func Param)

namespace SvTimer

def activated (t : SvTimer Func Param) : Bool := hasFlag t.flag svTimerFlagActivated

def periodic (t : SvTimer Func Param) : Bool := hasFlag t.flag svTimerFlagPeriodic

def soft (t : SvTimer Func Param) : Bool := hasFlag t.flag svTimerFlagSoftTimer

/-- `sv_timer_init`. -/
def init (func : Option Func) (parameter : Param) (time : Tick) (flag : BitVec 8) :
    SvTimer Func Param where
  flag := flag &&& ~~~(svTimerFlagActivated ||| svTimerFlagTimeout ||| svTimerFlagHandling)
  timeoutFunc := func
  parameter := parameter
  initTick := time
  timeoutTick := 0

end SvTimer

namespace TimerManage

variable (m : TimerManage Func Param)

/-- `m_timer[i]` replaced. -/
def setTimer (i : Fin monitorTimeNr) (t : SvTimer Func Param) : TimerManage Func Param :=
  { m with timer := Function.update m.timer i t }

def setFlag (i : Fin monitorTimeNr) (flag : BitVec 8) : TimerManage Func Param :=
  m.setTimer i { m.timer i with flag := flag }

/-- The list a timer belongs on. -/
def listOf (t : SvTimer Func Param) : TimerNode := if t.soft then .softTimerList else .timerList

/-- The first node on the list whose timer is due no earlier than `timeout`, or else the head. -/
def startPlace (head : TimerNode) (timeout : Tick) : TimerNode :=
  ((walk m.links head (monitorTimeNr + 1) (m.links.next head)).find? fun
    | .timer j => (m.timer j).timeoutTick - timeout < tickHalf
    | _ => false).getD head

def svTimerStart (i : Fin monitorTimeNr) : ℤ × TimerManage Func Param :=
  if (m.timer i).activated then (-1, m)
  else
    let m := m.setTimer i { m.timer i with timeoutTick := m.sTick + (m.timer i).initTick }
    let place := m.startPlace (listOf (m.timer i)) (m.timer i).timeoutTick
    let m := { m with links := listInsertBefore m.links place (.timer i) }
    let flag := (m.timer i).flag ||| svTimerFlagActivated
    (0, m.setFlag i (flag &&& ~~~(svTimerFlagTimeout ||| svTimerFlagHandling)))

def svTimerStop (i : Fin monitorTimeNr) : ℤ × TimerManage Func Param :=
  if !(m.timer i).activated then (-1, m)
  else
    let m := { m with links := listDel m.links (.timer i) }
    (0, m.setFlag i ((m.timer i).flag &&& ~~~(svTimerFlagActivated ||| svTimerFlagTimeout)))

/-- `timer_register`: the handle, 254 for a time that is too long and 255 for want of a slot. -/
def timerRegister (expiredMs : BitVec 32) (flag : BitVec 8) (func : Option Func) (data : Param) :
    ℕ × TimerManage Func Param :=
  let tick := svTickFromMillisecond expiredMs
  if tickHalf ≤ tick then (254, m)
  else
    match firstFree m.bitmap monitorTimeNr with
    | none => (255, m)
    | some i =>
        let m := { m with bitmap := take m.bitmap i }
        let m := m.setTimer i (SvTimer.init func data tick flag)
        (i, { m with links := listInit m.links (.timer i) })

/-- The mask `~SV_TIMER_FLAG_HARD_TIMER|SV_TIMER_FLAG_SOFT_TIMER` lets every flag through. -/
def hardTimerRegister (expiredMs : BitVec 32) (flag : BitVec 8) (func : Option Func)
    (data : Param) : ℕ × TimerManage Func Param :=
  m.timerRegister expiredMs (flag &&& (~~~0 ||| svTimerFlagSoftTimer)) func data

def softTimerRegister (expiredMs : BitVec 32) (flag : BitVec 8) (func : Option Func)
    (data : Param) : ℕ × TimerManage Func Param :=
  m.timerRegister expiredMs
    ((flag &&& (~~~0 ||| svTimerFlagSoftTimer)) ||| svTimerFlagSoftTimer) func data

/-- `timer_unregister` of a handle. -/
def timerUnregister (handle : ℕ) : Bool × TimerManage Func Param :=
  if h : handle < monitorTimeNr then
    let i : Fin monitorTimeNr := ⟨handle, h⟩
    let m := { m with bitmap := release m.bitmap i }
    (true, m.setFlag i ((m.timer i).flag &&& ~~~svTimerFlagActivated))
  else (false, m)

/-- `-SV_EPARAM`. -/
def svEparam : ℤ := -9

/-- `-SV_EIO`. -/
def svEio : ℤ := -8

def timerStart (handle : ℕ) : ℤ × TimerManage Func Param :=
  if h : handle < monitorTimeNr then m.svTimerStart ⟨handle, h⟩ else (svEparam, m)

def timerStop (handle : ℕ) : ℤ × TimerManage Func Param :=
  if h : handle < monitorTimeNr then m.svTimerStop ⟨handle, h⟩ else (svEparam, m)

/-- `timer_restart`.  The flag is read before the handle is checked; for a handle that is out of
range the result is one of two errors, and nothing is changed. -/
def timerRestart (handle : ℕ) : ℤ × TimerManage Func Param :=
  if h : handle < monitorTimeNr then
    let i : Fin monitorTimeNr := ⟨handle, h⟩
    if hasFlag (m.timer i).flag (svTimerFlagHandling ||| svTimerFlagPeriodic) then (svEio, m)
    else
      let (rt, m) := m.svTimerStop i
      if rt = 0 then m.svTimerStart i else (rt, m)
  else (svEparam, m)

def timerTimeout (handle : ℕ) (expiredMs : BitVec 32) : ℤ × TimerManage Func Param :=
  let tick := svTickFromMillisecond expiredMs
  if h : handle < monitorTimeNr then
    let i : Fin monitorTimeNr := ⟨handle, h⟩
    if tickHalf ≤ tick then (svEparam, m)
    else (0, m.setTimer i { m.timer i with initTick := tick })
  else (svEparam, m)

def timerStartMs (handle : ℕ) (expiredMs : BitVec 32) : ℤ × TimerManage Func Param :=
  let (rt, m) := m.timerTimeout handle expiredMs
  if rt = 0 then m.timerStart handle else (rt, m)

def timerRestartMs (handle : ℕ) (expiredMs : BitVec 32) : ℤ × TimerManage Func Param :=
  let (rt, m) := m.timerTimeout handle expiredMs
  if rt = 0 then m.timerRestart handle else (rt, m)

/-- `timer_expired`. -/
def timerExpired (handle : ℕ) : ℤ :=
  if h : handle < monitorTimeNr then
    ((m.timer ⟨handle, h⟩).flag &&& svTimerFlagTimeout).toNat
  else -1

/-- The call of `t->timeout_func`, at the end of which the clock shows `tick`. -/
def callTimeoutFunc (i : Fin monitorTimeNr) (tick : Tick) : TimerManage Func Param :=
  match (m.timer i).timeoutFunc with
  | none => m
  | some func =>
      let m := m.setFlag i ((m.timer i).flag ||| svTimerFlagHandling)
      let m := { m with
        expiries := ⟨i, func, (m.timer i).parameter, m.sTick⟩ :: m.expiries
        sTick := tick }
      m.setFlag i ((m.timer i).flag &&& ~~~svTimerFlagHandling)

/-- What `timer_handle` does with the timer at the front of the list when it is due. -/
def expire (head : TimerNode) (i : Fin monitorTimeNr) (tick : Tick) : TimerManage Func Param :=
  let m := { m with links := listDel m.links (.timer i) }
  let m := m.callTimeoutFunc i tick
  let t := m.timer i
  if t.periodic && t.activated then
    let m := m.setFlag i (t.flag &&& ~~~svTimerFlagActivated)
    (m.svTimerStart i).2
  else
    let m := m.setFlag i (t.flag &&& ~~~svTimerFlagActivated ||| svTimerFlagTimeout)
    if head = .softTimerList then { m with bitmap := release m.bitmap i } else m

end TimerManage

/-- The loop of `timer_handle`; `ticks` are the readings of the clock after the callbacks, one for
each timer handled.  It is left when the list is empty or its first timer is not due. -/
def timerHandle (head : TimerNode) :
    List Tick → TimerManage Func Param → TimerManage Func Param
  | [], m => m
  | tick :: ticks, m =>
      match m.links.next head with
      | .timer i =>
          if m.sTick - (m.timer i).timeoutTick < tickHalf then
            timerHandle head ticks (m.expire head i tick)
          else m
      | _ => m

namespace TimerManage

variable (m : TimerManage Func Param)

def softTimerHandle (ticks : List Tick) : TimerManage Func Param :=
  { timerHandle .softTimerList ticks m with softTimerHandling := false, sTime := 0 }

/-- The part of `timer_check` that wakes the event loop for the soft timers. -/
def softTimerCheck : TimerManage Func Param :=
  match m.links.next .softTimerList with
  | .timer i =>
      if m.softTimerHandling = false ∧ m.sTick - (m.timer i).timeoutTick < tickHalf then
        { m with sTime := m.sTime + 1, softTimerHandling := true }
      else m
  | _ => m

def timerCheck (ticks : List Tick) : TimerManage Func Param :=
  (timerHandle .timerList ticks m).softTimerCheck

/-- `timer_manage` after `init`; the memory was cleared, the links hold anything. -/
def construct (links : Links TimerNode) (parameter : Param) : TimerManage Func Param where
  links := listInit (listInit links .timerList) .softTimerList
  bitmap := 0
  timer := fun _ ↦ ⟨0, none, parameter, 0, 0⟩
  softTimerHandling := false
  sTick := 0
  sTime := 0
  expiries := []

end TimerManage

end ProjectSensor.Service
