import Mathlib.Data.BitVec
import ProjectSensor.Library.Transition

/-!
# The PWM driver

Each channel is a pair of PWM outputs with a period `LEN` and compare registers.  `PWM_Freq` and
`PWM_DutyCycle` read back the setting of the other, clip the duty cycle to the period, and hand both
to `PwmTime` with a low side that is high for one count.  `PwmTime` refuses a high side shorter than
the low side, so a duty cycle of 0 is never written, and with it no period: from the reset on the
registers stay 0.
-/

open ProjectSensor.Library.Transition

namespace ProjectSensor.Bsp

/-- `PWM0_1`, `PWM2_3` and `PWM4_5`. -/
inductive IPair where
  | pwm01
  | pwm23
  | pwm45
  deriving DecidableEq

/-- `PWMxLEN` and the compare registers of a pair. -/
structure PwmPair where
  len : BitVec 16
  com0 : BitVec 16
  com1 : BitVec 16
  com2 : BitVec 16
  deriving DecidableEq

/-- A port: `GPCON`, `GPOEN` and the outputs that `GPSET` and `GPCLR` change. -/
structure Port where
  gpcon : BitVec 16
  gpoen : BitVec 16
  gpout : BitVec 16

structure PwmRegs where
  pair : IPair → PwmPair
  pwmcon0 : BitVec 16
  gp0 : Port
  gp1 : Port

/-- `enum_RHREF` and `enum_HEAT`. -/
inductive Channel where
  | rhref
  | heat
  deriving DecidableEq

/-- The commands of the PWM device; `other` is any number that is none of them. -/
inductive PwmIoc where
  | rhrefForceH
  | rhrefForceL
  | heatForceH
  | heatForceL
  | rhrefFreq
  | rhrefDutyCycle
  | heatFreq
  | heatDutyCycle
  | measureOn
  | measureOff
  | other
  deriving DecidableEq

inductive DeviceStatus where
  | ok
  | ecmdInvalid
  deriving DecidableEq

namespace Port

variable (port : Port)

def dioOen (oen : BitVec 16) : Port := { port with gpoen := oen }

def dioSet (val : BitVec 16) : Port := { port with gpout := port.gpout ||| val }

def dioClr (val : BitVec 16) : Port := { port with gpout := port.gpout &&& ~~~val }

/-- The pin of the channel leaves the PWM mode, if it is in it, and becomes an output. -/
def pinsDisable (mode pin : BitVec 16) : Port :=
  if port.gpcon &&& mode ≠ 0 then
    { port with gpcon := port.gpcon &&& ~~~mode }.dioOen (port.gpoen ||| pin)
  else port

/-- The pin of the channel goes to the PWM mode. -/
def pinsEnable (mode pwm : BitVec 16) : Port :=
  if port.gpcon &&& mode = 0 then { port with gpcon := port.gpcon &&& ~~~mode ||| pwm } else port

def pwmRhrefPinsDisable : Port := port.pinsDisable 0x30 0x4

def pwmRhrefPinsEnable : Port := port.pinsEnable 0x30 0x10

def pwmHeatPinsDisable : Port := port.pinsDisable 0x300 0x10

def pwmHeatPinsEnable : Port := port.pinsEnable 0x300 0x100

end Port

namespace PwmRegs

variable (regs : PwmRegs)

/-- `PwmGo` in standard mode: bit 0 of `PWMCON0` enables the outputs, bit 1 is the mode. -/
def pwmGo (enable : Bool) : PwmRegs :=
  { regs with pwmcon0 := regs.pwmcon0 &&& 0xFFFC ||| (if enable then 1 else 0) }

/-- `PwmLoad(PWMCON0_LCOMP_EN)`. -/
def pwmLoad : PwmRegs := { regs with pwmcon0 := regs.pwmcon0 &&& 0xFFF7 ||| 0x8 }

/-- `PwmTime`; 0 says that the high side is shorter than the low side, and nothing was written. -/
def pwmTime (iPair : IPair) (freq high low : BitVec 16) : ℕ × PwmRegs :=
  if high < low then (0, regs)
  else
    let pair := { regs.pair iPair with len := freq, com0 := freq, com1 := high }
    if low ≤ pair.com1 then
      (1, { regs with pair := Function.update regs.pair iPair { pair with com2 := low } })
    else (2, { regs with pair := Function.update regs.pair iPair pair })

/-- `PWM_ParamGet`: period, duty cycle and pair of a channel. -/
def pwmParamGet : Channel → BitVec 16 × BitVec 16 × IPair
  | .rhref => ((regs.pair .pwm01).len, (regs.pair .pwm01).com1, .pwm01)
  | .heat => ((regs.pair .pwm23).len, (regs.pair .pwm23).com1, .pwm23)

/-- `PWM_Freq`. -/
def pwmFreq (channel : Channel) (freq : BitVec 16) : PwmRegs :=
  let (oldFreq, dutyCycle, iPair) := regs.pwmParamGet channel
  if freq ≠ oldFreq then
    let dutyCycle := if freq < dutyCycle then freq else dutyCycle
    (((regs.pwmGo false).pwmTime iPair freq dutyCycle 1).2).pwmGo true
  else regs

/-- `PWM_DutyCycle`; the argument is an `int`, but comes from a `uint16`. -/
def pwmDutyCycle (channel : Channel) (dutyCycle : BitVec 16) : PwmRegs :=
  let (freq, oldDutyCycle, iPair) := regs.pwmParamGet channel
  if dutyCycle ≠ oldDutyCycle then
    let dutyCycle := if freq < dutyCycle then freq else dutyCycle
    ((regs.pwmTime iPair freq dutyCycle 1).2).pwmLoad
  else regs

/-- `_drv_ioctl`. -/
def drvIoctl (cmd : PwmIoc) (args : BitVec 32) : DeviceStatus × PwmRegs :=
  match cmd with
  | .rhrefForceH => (.ok, { regs with gp1 := regs.gp1.pwmRhrefPinsDisable.dioSet 0x4 })
  | .rhrefForceL => (.ok, { regs with gp1 := regs.gp1.pwmRhrefPinsDisable.dioClr 0x4 })
  | .heatForceH => (.ok, { regs with gp1 := regs.gp1.pwmHeatPinsDisable.dioSet 0x10 })
  | .heatForceL => (.ok, { regs with gp1 := regs.gp1.pwmHeatPinsDisable.dioClr 0x10 })
  | .rhrefFreq =>
      (.ok, { regs with gp1 := regs.gp1.pwmRhrefPinsEnable }.pwmFreq .rhref (args.setWidth 16))
  | .rhrefDutyCycle =>
      (.ok, { regs with gp1 := regs.gp1.pwmRhrefPinsEnable }.pwmDutyCycle .rhref (args.setWidth 16))
  | .heatFreq =>
      (.ok, { regs with gp1 := regs.gp1.pwmHeatPinsEnable }.pwmFreq .heat (args.setWidth 16))
  | .heatDutyCycle =>
      (.ok, { regs with gp1 := regs.gp1.pwmHeatPinsEnable }.pwmDutyCycle .heat (args.setWidth 16))
  | .measureOn => (.ok, { regs with gp0 := regs.gp0.dioSet 0x1 })
  | .measureOff => (.ok, { regs with gp0 := regs.gp0.dioClr 0x1 })
  | .other => (.ecmdInvalid, regs)

/-- A command with its argument. -/
def ioctlStep (regs : PwmRegs) (command : PwmIoc × BitVec 32) : PwmRegs :=
  (regs.drvIoctl command.1 command.2).2

/-- The registers at reset: no length and nothing to compare with; the others are left open. -/
def reset (pwmcon0 : BitVec 16) (gp0 gp1 : Port) : PwmRegs where
  pair := fun _ ↦ ⟨0, 0, 0, 0⟩
  pwmcon0 := pwmcon0
  gp0 := gp0
  gp1 := gp1

end PwmRegs

namespace Channel

/-- The pair of a channel. -/
def iPair : Channel → IPair
  | .rhref => .pwm01
  | .heat => .pwm23

def freqCmd : Channel → PwmIoc
  | .rhref => .rhrefFreq
  | .heat => .heatFreq

def dutyCycleCmd : Channel → PwmIoc
  | .rhref => .rhrefDutyCycle
  | .heat => .heatDutyCycle

end Channel

namespace PwmRegs

variable {regs : PwmRegs}

/-- After the two commands the channel has the period and the duty cycle asked for. -/
def TakesSettings (regs : PwmRegs) (channel : Channel) (f d : BitVec 16) : Prop :=
  let regs' := (regs.ioctlStep (channel.freqCmd, f.setWidth 32)).ioctlStep
    (channel.dutyCycleCmd, d.setWidth 32)
  (regs'.pair channel.iPair).len = f ∧
    (regs'.pair channel.iPair).com1.toNat = min d.toNat f.toNat

/-- No duty cycle is longer than its period. -/
def Clipped (regs : PwmRegs) : Prop := ∀ iPair, (regs.pair iPair).com1 ≤ (regs.pair iPair).len

theorem pwmParamGet_eq (channel : Channel) : regs.pwmParamGet channel =
    ((regs.pair channel.iPair).len, (regs.pair channel.iPair).com1, channel.iPair) := by
  cases channel <;> rfl

/-- What `PwmTime` does to the pairs. -/
theorem pwmTime_pair (iPair : IPair) (freq high low : BitVec 16) :
    (regs.pwmTime iPair freq high low).2.pair =
      if high < low then regs.pair
      else Function.update regs.pair iPair ⟨freq, freq, high, low⟩ := by
  by_cases hshort : high < low
  · rw [pwmTime, if_pos hshort, if_pos hshort]
  · rw [pwmTime, if_neg hshort, if_neg hshort]
    simp only [if_pos (BitVec.not_lt.mp hshort)]

/-- The duty cycle cut off at the period. -/
def clip (freq dutyCycle : BitVec 16) : BitVec 16 := if freq < dutyCycle then freq else dutyCycle

theorem clip_le (freq dutyCycle : BitVec 16) : clip freq dutyCycle ≤ freq := by
  rw [clip]
  split
  · exact BitVec.le_refl freq
  · rename_i hle
    exact BitVec.not_lt.mp hle

theorem pwmFreq_pair (channel : Channel) (freq : BitVec 16) :
    (regs.pwmFreq channel freq).pair =
      if freq = (regs.pair channel.iPair).len ∨ clip freq (regs.pair channel.iPair).com1 < 1 then
        regs.pair
      else Function.update regs.pair channel.iPair
        ⟨freq, freq, clip freq (regs.pair channel.iPair).com1, 1⟩ := by
  rw [pwmFreq, pwmParamGet_eq]
  by_cases hsame : freq = (regs.pair channel.iPair).len
  · rw [if_pos (.inl hsame)]
    simp only [ne_eq, hsame, not_true_eq_false, if_false]
  · simp only [ne_eq, hsame, not_false_eq_true, if_true, false_or]
    exact @pwmTime_pair (regs.pwmGo false) _ _ _ _

theorem pwmDutyCycle_pair (channel : Channel) (dutyCycle : BitVec 16) :
    (regs.pwmDutyCycle channel dutyCycle).pair =
      if dutyCycle = (regs.pair channel.iPair).com1 ∨
          clip (regs.pair channel.iPair).len dutyCycle < 1 then regs.pair
      else Function.update regs.pair channel.iPair
        ⟨(regs.pair channel.iPair).len, (regs.pair channel.iPair).len,
          clip (regs.pair channel.iPair).len dutyCycle, 1⟩ := by
  rw [pwmDutyCycle, pwmParamGet_eq]
  by_cases hsame : dutyCycle = (regs.pair channel.iPair).com1
  · rw [if_pos (.inl hsame)]
    simp only [ne_eq, hsame, not_true_eq_false, if_false]
  · simp only [ne_eq, hsame, not_false_eq_true, if_true, false_or]
    exact pwmTime_pair _ _ _ _

/-- Putting the pin of a channel into the PWM mode does not touch the pairs. -/
theorem ioctlStep_freqCmd (channel : Channel) (args : BitVec 32) :
    (regs.ioctlStep (channel.freqCmd, args)).pair =
      (regs.pwmFreq channel (args.setWidth 16)).pair := by
  have hport : ∀ gp1 : Port, ({ regs with gp1 := gp1 }.pwmFreq channel (args.setWidth 16)).pair =
      (regs.pwmFreq channel (args.setWidth 16)).pair := by
    intro gp1
    rw [pwmFreq_pair, pwmFreq_pair]
  cases channel with
  | rhref => exact hport _
  | heat => exact hport _

theorem ioctlStep_dutyCycleCmd (channel : Channel) (args : BitVec 32) :
    (regs.ioctlStep (channel.dutyCycleCmd, args)).pair =
      (regs.pwmDutyCycle channel (args.setWidth 16)).pair := by
  have hport : ∀ gp1 : Port,
      ({ regs with gp1 := gp1 }.pwmDutyCycle channel (args.setWidth 16)).pair =
        (regs.pwmDutyCycle channel (args.setWidth 16)).pair := by
    intro gp1
    rw [pwmDutyCycle_pair, pwmDutyCycle_pair]
  cases channel with
  | rhref => exact hport _
  | heat => exact hport _

/-- What the two settings of every channel keep of the pairs, every command keeps. -/
theorem pair_of_ioctlStep (keeps : (IPair → PwmPair) → Prop)
    (hfreq : ∀ channel freq, keeps (regs.pwmFreq channel freq).pair)
    (hduty : ∀ channel dutyCycle, keeps (regs.pwmDutyCycle channel dutyCycle).pair)
    (hkeeps : keeps regs.pair) (command : PwmIoc × BitVec 32) :
    keeps (regs.ioctlStep command).pair := by
  obtain ⟨cmd, args⟩ := command
  have hfreqCmd : ∀ channel : Channel, keeps (regs.ioctlStep (channel.freqCmd, args)).pair := by
    intro channel
    rw [ioctlStep_freqCmd]
    exact hfreq channel _
  have hdutyCmd : ∀ channel : Channel,
      keeps (regs.ioctlStep (channel.dutyCycleCmd, args)).pair := by
    intro channel
    rw [ioctlStep_dutyCycleCmd]
    exact hduty channel _
  cases cmd with
  | rhrefFreq => exact hfreqCmd .rhref
  | rhrefDutyCycle => exact hdutyCmd .rhref
  | heatFreq => exact hfreqCmd .heat
  | heatDutyCycle => exact hdutyCmd .heat
  | _ => exact hkeeps

theorem clipped_update {pair : IPair → PwmPair} (h : ∀ iPair, (pair iPair).com1 ≤ (pair iPair).len)
    (iPair : IPair) {set : PwmPair} (hset : set.com1 ≤ set.len) (iPair' : IPair) :
    (Function.update pair iPair set iPair').com1 ≤ (Function.update pair iPair set iPair').len := by
  by_cases heq : iPair' = iPair
  · subst heq
    rwa [Function.update_self]
  · rw [Function.update_of_ne heq]
    exact h iPair'

/-- Every command keeps the duty cycles within the periods, whatever the registers are. -/
theorem Clipped.ioctlStep (h : regs.Clipped) (command : PwmIoc × BitVec 32) :
    (regs.ioctlStep command).Clipped := by
  apply pair_of_ioctlStep (fun pair ↦ ∀ iPair, (pair iPair).com1 ≤ (pair iPair).len)
  · intro channel freq
    rw [pwmFreq_pair]
    split
    · exact h
    · exact clipped_update h _ (clip_le _ _)
  · intro channel dutyCycle
    rw [pwmDutyCycle_pair]
    split
    · exact h
    · exact clipped_update h _ (clip_le _ _)
  · exact h

/-- No pair has a period or a duty cycle. -/
def Silent (regs : PwmRegs) : Prop := ∀ iPair, regs.pair iPair = ⟨0, 0, 0, 0⟩

theorem silent_reset (pwmcon0 : BitVec 16) (gp0 gp1 : Port) : (reset pwmcon0 gp0 gp1).Silent :=
  fun _ ↦ rfl

theorem Silent.clipped (h : regs.Silent) : regs.Clipped := by
  intro iPair
  rw [h iPair]
  exact BitVec.le_refl 0

/-- A period needs a duty cycle, and a duty cycle needs a period: neither can be set first. -/
theorem Silent.pwmFreq_pair (h : regs.Silent) (channel : Channel) (freq : BitVec 16) :
    (regs.pwmFreq channel freq).pair = regs.pair := by
  have hnone : ¬ freq < 0 := Nat.not_lt_zero freq.toNat
  have hshort : clip freq 0 < 1 := by
    rw [clip, if_neg hnone]
    decide
  rw [PwmRegs.pwmFreq_pair, h channel.iPair]
  exact if_pos (.inr hshort)

theorem Silent.pwmDutyCycle_pair (h : regs.Silent) (channel : Channel) (dutyCycle : BitVec 16) :
    (regs.pwmDutyCycle channel dutyCycle).pair = regs.pair := by
  have hshort : clip 0 dutyCycle < 1 := Nat.lt_of_le_of_lt (clip_le 0 dutyCycle) Nat.zero_lt_one
  rw [PwmRegs.pwmDutyCycle_pair, h channel.iPair]
  exact if_pos (.inr hshort)

theorem Silent.ioctlStep (h : regs.Silent) (command : PwmIoc × BitVec 32) :
    (regs.ioctlStep command).Silent := by
  apply pair_of_ioctlStep (fun pair ↦ ∀ iPair, pair iPair = ⟨0, 0, 0, 0⟩)
  · intro channel freq
    rwa [h.pwmFreq_pair]
  · intro channel dutyCycle
    rwa [h.pwmDutyCycle_pair]
  · exact h

theorem Silent.takesSettings_iff (h : regs.Silent) (channel : Channel) (f d : BitVec 16) :
    regs.TakesSettings channel f d ↔ f = 0 := by
  have hafter := (h.ioctlStep (channel.freqCmd, f.setWidth 32)).ioctlStep
    (channel.dutyCycleCmd, d.setWidth 32)
  rw [TakesSettings, hafter channel.iPair]
  constructor
  · rintro ⟨hlen, -⟩
    exact hlen.symm
  · rintro rfl
    exact ⟨rfl, (Nat.min_zero d.toNat).symm⟩

/-- From the reset on, whatever commands were given: the duty cycles are within the periods, and
the period and the duty cycle asked for are taken exactly if the period is 0. -/
theorem pwmSettings_run_iff (pwmcon0 : BitVec 16) (gp0 gp1 : Port)
    (commands : List (PwmIoc × BitVec 32)) (channel : Channel) (f d : BitVec 16) :
    (run PwmRegs.ioctlStep (reset pwmcon0 gp0 gp1) commands).Clipped ∧
      ((run PwmRegs.ioctlStep (reset pwmcon0 gp0 gp1) commands).TakesSettings channel f d ↔
        f = 0) := by
  have hclipped : (run PwmRegs.ioctlStep (reset pwmcon0 gp0 gp1) commands).Clipped := by
    apply run_of_step
    · exact fun _ command h ↦ h.ioctlStep command
    · exact (silent_reset pwmcon0 gp0 gp1).clipped
  have hsilent : (run PwmRegs.ioctlStep (reset pwmcon0 gp0 gp1) commands).Silent := by
    apply run_of_step
    · exact fun _ command h ↦ h.ioctlStep command
    · exact silent_reset pwmcon0 gp0 gp1
  exact ⟨hclipped, hsilent.takesSettings_iff channel f d⟩

/-- `self_calib_handle` asks the heater for a period of 100 with a duty cycle of 25; both registers
stay 0. -/
theorem pwmSettings_fail_for_heater :
    let regs := run PwmRegs.ioctlStep (reset 0 ⟨0, 0, 0⟩ ⟨0, 0, 0⟩)
      [(.heatFreq, 100), (.heatDutyCycle, 25)]
    (regs.pair .pwm23).len = 0 ∧ (regs.pair .pwm23).com1 = 0 ∧
      ¬ (reset 0 ⟨0, 0, 0⟩ ⟨0, 0, 0⟩).TakesSettings .heat 100 25 := by
  refine ⟨by decide, by decide, ?_⟩
  rintro ⟨hlen, -⟩
  revert hlen
  decide

end PwmRegs

end ProjectSensor.Bsp
