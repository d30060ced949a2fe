import Mathlib.Data.BitVec
import Mathlib.Logic.Function.Iterate
import ProjectSensor.Service.Timer

/-!
# The wall time

`gettimeofday` takes the seconds from `xtime`, which advances with every hundredth tick, and the
milliseconds from `s_tick` modulo 100.  The two are in phase until `s_tick` wraps around: 2^32 is
not a multiple of 100, so the milliseconds then start again in the middle of a second.
-/

namespace ProjectSensor.Service

/-- The counters of `service.cpp`. -/
structure Clock where
  sTick : Tick
  sTickForXtime : Tick
  xtime : BitVec 64
  deriving DecidableEq

/-- `struct timeval`. -/
structure Timeval where
  tvSec : BitVec 64
  tvUsec : BitVec 64

/-- `TICK_PER_SECOND`. -/
def tickPerSecond : Tick := 100

/-- `kAccuracyPerSecond` with `LOG_IN_EMBEDED`: milliseconds. -/
def kAccuracyPerSecond : BitVec 32 := 1000

namespace Clock

/-- `sv_tick_init`. -/
def svTickInit : Clock := ⟨0, 0, 0⟩

/-- What `sv_tick_increase` does to the counters. -/
def svTickIncrease (clock : Clock) : Clock :=
  let clock := { clock with
    sTick := clock.sTick + 1
    sTickForXtime := clock.sTickForXtime + 1 }
  if tickPerSecond ≤ clock.sTickForXtime then
    { clock with sTickForXtime := 0, xtime := clock.xtime + 1 }
  else clock

def gettimeofday (clock : Clock) : Timeval where
  tvSec := clock.xtime
  tvUsec := (clock.sTick % tickPerSecond * kAccuracyPerSecond / tickPerSecond).setWidth 64

/-- `Timestamp::now`. -/
def now (clock : Clock) : BitVec 64 :=
  clock.gettimeofday.tvSec * kAccuracyPerSecond.setWidth 64 + clock.gettimeofday.tvUsec

/-- The clock after `n` ticks. -/
def after (n : ℕ) : Clock := svTickIncrease^[n] svTickInit

theorem after_succ (n : ℕ) : after (n + 1) = (after n).svTickIncrease :=
  Function.iterate_succ_apply' svTickIncrease n svTickInit

theorem ofNat_add_one (w n : ℕ) : BitVec.ofNat w n + 1 = BitVec.ofNat w (n + 1) :=
  (BitVec.ofNat_add n 1).symm

/-- The counters in terms of the ticks so far. -/
theorem after_eq (n : ℕ) : after n =
    ⟨BitVec.ofNat 32 n, BitVec.ofNat 32 (n % 100), BitVec.ofNat 64 (n / 100)⟩ := by
  induction n with
  | zero => rfl
  | succ n ih =>
      have hfull : tickPerSecond ≤ BitVec.ofNat 32 (n % 100 + 1) ↔ 100 ≤ n % 100 + 1 := by
        rw [BitVec.le_def, BitVec.toNat_ofNat, Nat.mod_eq_of_lt (by omega)]
        rfl
      rw [after_succ, ih, svTickIncrease]
      simp only [ofNat_add_one, hfull]
      by_cases hlast : n % 100 = 99
      · have hsecond : (n + 1) / 100 = n / 100 + 1 := by omega
        have hzero : (n + 1) % 100 = 0 := by omega
        rw [if_pos (by omega), hsecond, hzero]
        rfl
      · have hsecond : (n + 1) / 100 = n / 100 := by omega
        have hnext : (n + 1) % 100 = n % 100 + 1 := by omega
        rw [if_neg (by omega), hsecond, hnext]

/-- The milliseconds shown after `n` ticks, while they fit in 64 bits. -/
def millis (n : ℕ) : ℕ := n / 100 * 1000 + n % 2 ^ 32 % 100 * 10

theorem toNat_now_after {n : ℕ} (hn : n ≤ 2 ^ 32) : (after n).now.toNat = millis n := by
  have hsec : (BitVec.ofNat 64 (n / 100) * kAccuracyPerSecond.setWidth 64).toNat =
      n / 100 * 1000 := by
    rw [BitVec.toNat_mul, BitVec.toNat_ofNat, show (kAccuracyPerSecond.setWidth 64).toNat = 1000
      from rfl, Nat.mod_eq_of_lt (by omega), Nat.mod_eq_of_lt (by omega)]
  have husec : (BitVec.ofNat 32 n % tickPerSecond * kAccuracyPerSecond / tickPerSecond).toNat =
      n % 2 ^ 32 % 100 * 10 := by
    rw [BitVec.toNat_udiv, BitVec.toNat_mul, BitVec.toNat_umod, BitVec.toNat_ofNat,
      show tickPerSecond.toNat = 100 from rfl, show kAccuracyPerSecond.toNat = 1000 from rfl]
    omega
  rw [after_eq, now, gettimeofday, BitVec.toNat_add, hsec, BitVec.toNat_setWidth, husec, millis]
  omega

/-- While `s_tick` has not wrapped around, every tick is ten milliseconds. -/
theorem millis_eq {n : ℕ} (hn : n < 2 ^ 32) : millis n = 10 * n := by
  rw [millis, Nat.mod_eq_of_lt hn]
  omega

theorem now_le_now_succ {n : ℕ} (hn : n + 1 < 2 ^ 32) : (after n).now ≤ (after (n + 1)).now := by
  rw [BitVec.le_def, toNat_now_after (by omega), toNat_now_after (by omega),
    millis_eq (by omega), millis_eq hn]
  omega

/-- The tick that wraps `s_tick` takes back 950 ms. -/
theorem now_back_at_wrap : (after (2 ^ 32)).now.toNat + 950 = (after (2 ^ 32 - 1)).now.toNat := by
  rw [toNat_now_after (Nat.le_refl _), toNat_now_after (Nat.sub_le ..)]
  decide

/-- Time does not run backwards in a run of `n` ticks exactly if `s_tick` does not wrap around in
it. -/
theorem neverBackwards_iff (n : ℕ) :
    (∀ k < n, (after k).now ≤ (after (k + 1)).now) ↔ n < 2 ^ 32 := by
  constructor
  · intro hnever
    by_contra hlong
    have hstep := hnever (2 ^ 32 - 1) (by omega)
    rw [BitVec.le_def, Nat.sub_add_cancel (by decide)] at hstep
    have hback := now_back_at_wrap
    omega
  · intro hn k hk
    exact now_le_now_succ (by omega)

/-- After 2^32 - 1 ticks, some 497 days, `Timestamp::now` is 42949672950 ms; one tick later it is
42949672000 ms. -/
theorem neverBackwards_fails_at_wrap :
    (after (2 ^ 32 - 1)).now = 42949672950 ∧ (after (2 ^ 32)).now = 42949672000 ∧
      ¬ ∀ k < 2 ^ 32, (after k).now ≤ (after (k + 1)).now := by
  refine ⟨?_, ?_, ?_⟩
  · apply BitVec.eq_of_toNat_eq
    rw [toNat_now_after (Nat.sub_le ..)]
    decide
  · apply BitVec.eq_of_toNat_eq
    rw [toNat_now_after (Nat.le_refl _)]
    decide
  · rw [neverBackwards_iff]
    exact Nat.lt_irrefl _

end Clock

end ProjectSensor.Service
