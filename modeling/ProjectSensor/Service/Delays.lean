import Mathlib.Algebra.Order.Floor.Div
import ProjectSensor.Service.Timer

/-!
# Delays in ticks

`sv_tick_from_millisecond` forms `TICK_PER_SECOND * ms + 999` in 32 bits and divides afterwards.
Below the overflow the quotient is the delay rounded up to whole ticks.  From 42949663 ms on the
product has lost its carry: the quotient is smaller than the delay, and so small that the test
against `TICK_MAX/2`, which looks at the quotient, never refuses anything.
-/

open ProjectSensor.Library.SlotBitmap

namespace ProjectSensor.Service

/-- The delay of `ms` milliseconds in ticks, rounded up. -/
def exactTicks (ms : ℕ) : ℕ := (100 * ms) ⌈/⌉ 1000

theorem exactTicks_eq (ms : ℕ) : exactTicks ms = (100 * ms + 999) / 1000 := by
  rw [exactTicks, Nat.ceilDiv_eq_add_pred_div, Nat.add_sub_assoc (by decide)]

/-- The product of `sv_tick_from_millisecond` fits in 32 bits. -/
def TicksFit (ms : BitVec 32) : Prop := 100 * ms.toNat + 999 < 2 ^ 32

instance : DecidablePred TicksFit :=
  fun ms ↦ inferInstanceAs (Decidable (100 * ms.toNat + 999 < 2 ^ 32))

theorem toNat_svTickFromMillisecond (ms : BitVec 32) :
    (svTickFromMillisecond ms).toNat = (100 * ms.toNat + 999) % 2 ^ 32 / 1000 := by
  have hproduct : (100 * ms + 999).toNat = (100 * ms.toNat + 999) % 2 ^ 32 := by
    rw [BitVec.toNat_add, BitVec.toNat_mul]
    simp
  rw [svTickFromMillisecond, BitVec.toNat_udiv, hproduct]
  rfl

/-- No result of `sv_tick_from_millisecond` comes near the longest time a timer can be given. -/
theorem svTickFromMillisecond_lt_tickHalf (ms : BitVec 32) :
    svTickFromMillisecond ms < tickHalf := by
  rw [BitVec.lt_def, toNat_svTickFromMillisecond]
  calc (100 * ms.toNat + 999) % 2 ^ 32 / 1000
      ≤ (2 ^ 32 - 1) / 1000 := Nat.div_le_div_right (by omega)
    _ < tickHalf.toNat := by decide

/-- Nor does any exact count. -/
theorem exactTicks_lt_tickHalf (ms : BitVec 32) : exactTicks ms.toNat < tickHalf.toNat := by
  rw [exactTicks_eq]
  calc (100 * ms.toNat + 999) / 1000
      ≤ (100 * (2 ^ 32 - 1) + 999) / 1000 := Nat.div_le_div_right (by omega)
    _ < tickHalf.toNat := by decide

theorem svTickFromMillisecond_exact {ms : BitVec 32} (hfit : TicksFit ms) :
    (svTickFromMillisecond ms).toNat = exactTicks ms.toNat := by
  rw [toNat_svTickFromMillisecond, exactTicks_eq, Nat.mod_eq_of_lt hfit]

/-- With the carry of the product lost the timer would fire early. -/
theorem svTickFromMillisecond_lt_exact {ms : BitVec 32} (hover : ¬ TicksFit ms) :
    (svTickFromMillisecond ms).toNat < exactTicks ms.toNat := by
  have hlost : (100 * ms.toNat + 999) % 2 ^ 32 + 2 ^ 32 ≤ 100 * ms.toNat + 999 := by
    rw [TicksFit] at hover
    omega
  rw [toNat_svTickFromMillisecond, exactTicks_eq]
  omega

theorem svTickFromMillisecond_exact_iff (ms : BitVec 32) :
    (svTickFromMillisecond ms).toNat = exactTicks ms.toNat ↔ TicksFit ms := by
  constructor
  · intro heq
    by_contra hover
    exact (svTickFromMillisecond_lt_exact hover).ne heq
  · exact svTickFromMillisecond_exact

variable {Func Param : Type} (m : TimerManage Func Param)

/-- A request was refused: an error is returned and nothing has changed. -/
def RegisterRefused (result : ℕ × TimerManage Func Param) : Prop :=
  monitorTimeNr ≤ result.1 ∧ result.2 = m

/-- `timer_register` refuses the request, or the timer of the handle it returns has the exact
number of ticks; a request of `TICK_MAX/2` ticks or more is refused. -/
def RegistersExactly (expiredMs : BitVec 32) (flag : BitVec 8) (func : Option Func)
    (data : Param) : Prop :=
  let result := m.timerRegister expiredMs flag func data
  (RegisterRefused m result ∨ ∃ h : result.1 < monitorTimeNr,
    (result.2.timer ⟨result.1, h⟩).initTick.toNat = exactTicks expiredMs.toNat) ∧
  (tickHalf.toNat ≤ exactTicks expiredMs.toNat → RegisterRefused m result)

def TimeoutRefused (result : ℤ × TimerManage Func Param) : Prop := result.1 < 0 ∧ result.2 = m

/-- The same of `timer_timeout`. -/
def SetsExactly (handle : ℕ) (expiredMs : BitVec 32) : Prop :=
  let result := m.timerTimeout handle expiredMs
  (TimeoutRefused m result ∨ result.1 = 0 ∧ ∃ h : handle < monitorTimeNr,
    (result.2.timer ⟨handle, h⟩).initTick.toNat = exactTicks expiredMs.toNat) ∧
  (tickHalf.toNat ≤ exactTicks expiredMs.toNat → TimeoutRefused m result)

theorem registersExactly_iff (expiredMs : BitVec 32) (flag : BitVec 8) (func : Option Func)
    (data : Param) : RegistersExactly m expiredMs flag func data ↔
      firstFree m.bitmap monitorTimeNr = none ∨ TicksFit expiredMs := by
  have hlong := exactTicks_lt_tickHalf expiredMs
  have hshort := svTickFromMillisecond_lt_tickHalf expiredMs
  rw [← svTickFromMillisecond_exact_iff expiredMs]
  cases hfree : firstFree m.bitmap monitorTimeNr with
  | none =>
      have hresult : m.timerRegister expiredMs flag func data = (255, m) := by
        simp only [TimerManage.timerRegister, hfree, if_neg (BitVec.not_le.mpr hshort)]
      have hrefused : RegisterRefused m (m.timerRegister expiredMs flag func data) := by
        rw [hresult]
        exact ⟨show monitorTimeNr ≤ 255 by decide, rfl⟩
      exact iff_of_true ⟨.inl hrefused, fun _ ↦ hrefused⟩ (.inl rfl)
  | some i =>
      have hresult : (m.timerRegister expiredMs flag func data).1 = i ∧
          ((m.timerRegister expiredMs flag func data).2.timer i).initTick =
            svTickFromMillisecond expiredMs := by
        simp only [TimerManage.timerRegister, hfree, if_neg (BitVec.not_le.mpr hshort)]
        simp [TimerManage.setTimer, SvTimer.init]
      obtain ⟨hhandle, htick⟩ := hresult
      simp only [RegistersExactly, RegisterRefused, hhandle, Fin.is_lt, Fin.eta, htick,
        exists_true_left]
      constructor
      · rintro ⟨hrefused | hexact, -⟩
        · exact absurd i.isLt (Nat.not_lt.mpr hrefused.1)
        · exact .inr hexact
      · rintro (hnone | hexact)
        · exact absurd hnone (Option.some_ne_none i)
        · exact ⟨.inr hexact, fun hrefuse ↦ absurd hlong (Nat.not_lt.mpr hrefuse)⟩

theorem setsExactly_iff (handle : ℕ) (expiredMs : BitVec 32) :
    SetsExactly m handle expiredMs ↔ monitorTimeNr ≤ handle ∨ TicksFit expiredMs := by
  have hlong := exactTicks_lt_tickHalf expiredMs
  have hshort := svTickFromMillisecond_lt_tickHalf expiredMs
  rw [← svTickFromMillisecond_exact_iff expiredMs]
  rcases Nat.lt_or_ge handle monitorTimeNr with hlt | hge
  · have hresult : m.timerTimeout handle expiredMs = (0, m.setTimer ⟨handle, hlt⟩
        { m.timer ⟨handle, hlt⟩ with initTick := svTickFromMillisecond expiredMs }) := by
      simp only [TimerManage.timerTimeout, dif_pos hlt, if_neg (BitVec.not_le.mpr hshort)]
    rw [SetsExactly, hresult]
    simp only [TimeoutRefused, TimerManage.setTimer, Function.update_self, hlt, exists_true_left]
    constructor
    · rintro ⟨hrefused | hexact, -⟩
      · exact absurd hrefused.1 (Int.lt_irrefl 0)
      · exact .inr hexact.2
    · rintro (hge | hexact)
      · exact absurd hlt (Nat.not_lt.mpr hge)
      · exact ⟨.inr ⟨trivial, hexact⟩, fun hrefuse ↦ absurd hlong (Nat.not_lt.mpr hrefuse)⟩
  · have hrefused : TimeoutRefused m (m.timerTimeout handle expiredMs) := by
      rw [TimerManage.timerTimeout, dif_neg (Nat.not_lt.mpr hge)]
      exact ⟨show TimerManage.svEparam < 0 by decide, rfl⟩
    exact iff_of_true ⟨.inl hrefused, fun _ ↦ hrefused⟩ (.inl hge)

/-- The delays that are armed are exact as long as the product fits in 32 bits; otherwise only the
requests that are refused for another reason do no harm. -/
theorem delaysExact_iff (expiredMs : BitVec 32) (flag : BitVec 8) (func : Option Func)
    (data : Param) (handle : ℕ) :
    (RegistersExactly m expiredMs flag func data ↔
      firstFree m.bitmap monitorTimeNr = none ∨ TicksFit expiredMs) ∧
    (SetsExactly m handle expiredMs ↔ monitorTimeNr ≤ handle ∨ TicksFit expiredMs) := by
  constructor
  · exact registersExactly_iff m expiredMs flag func data
  · exact setsExactly_iff m handle expiredMs

/-- 42949663 ms, almost twelve hours, is accepted as 0 ticks. -/
theorem delaysExact_fails_at_overflow :
    svTickFromMillisecond 42949663 = 0 ∧ exactTicks 42949663 = 4294967 ∧
      ¬ RegistersExactly (.construct ⟨id, id⟩ () : TimerManage Unit Unit) 42949663 0 (some ()) () ∧
      ¬ SetsExactly (.construct ⟨id, id⟩ () : TimerManage Unit Unit) 0 42949663 := by
  refine ⟨by decide, by decide, ?_, ?_⟩
  · rw [registersExactly_iff]
    decide
  · rw [setsExactly_iff]
    decide

end ProjectSensor.Service
