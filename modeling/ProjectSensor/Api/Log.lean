import ProjectSensor.Api.Asctime
import ProjectSensor.Api.LogStream
import ProjectSensor.Service.WallTime

/-!
# `Logger`

A line is the time, the level, perhaps the function, what the program writes, and the place in the
source.  The text of the second is made once and kept for the lines of the same second.  No line
depends on the lines before it for all that.

What is written in a `double` is a parameter, as in `LogStream`; `errno` is never set.
-/

open ProjectSensor.Library ProjectSensor.Library.ByteMemory ProjectSensor.Library.Numeral
open ProjectSensor.Library.Ascii ProjectSensor.Service

namespace ProjectSensor.Api

/-- `Logger::LogLevel`. -/
inductive LogLevel where
  | trace | debug | info | warn | error | fatal
  deriving DecidableEq

namespace LogLevel

/-- The value of the enumerator. -/
def toNat : LogLevel → ℕ
  | trace => 0
  | debug => 1
  | info => 2
  | warn => 3
  | error => 4
  | fatal => 5

/-- `LogLevelName`. -/
def name : LogLevel → List Byte
  | trace => text ['T', 'R', 'A', 'C', 'E', ' ']
  | debug => text ['D', 'E', 'B', 'U', 'G', ' ']
  | info => text ['I', 'N', 'F', 'O', ' ', ' ']
  | warn => text ['W', 'A', 'R', 'N', ' ', ' ']
  | error => text ['E', 'R', 'R', 'O', 'R', ' ']
  | fatal => text ['F', 'A', 'T', 'A', 'L', ' ']

/-- The macros `LOG_TRACE`, `LOG_DEBUG` and `LOG_INFO` look at `g_logLevel`, the others do not. -/
def enabled (gLogLevel : LogLevel) : LogLevel → Bool
  | warn | error | fatal => true
  | level => gLogLevel.toNat ≤ level.toNat

end LogLevel

/-- `SourceFile`: the name behind the last backslash. -/
def baseName (filename : List Byte) : List Byte :=
  (filename.reverse.takeWhile fun c ↦ c ≠ ascii '\\').reverse

/-- A statement `LOG_... << items`, in a function of a source file. -/
structure Call (δ : Type) where
  level : LogLevel
  file : List Byte
  line : BitVec 32
  func : List Byte
  items : List (Item δ)

/-- The static variables of `log.cpp`. -/
structure LogState where
  tTime : List Byte
  tLastSecond : BitVec 64
  gLogLevel : LogLevel

/-- The variables at the start. -/
def LogState.start : LogState := ⟨List.replicate 32 0, -1, .trace⟩

/-- `%d`, with the width of the field and with zeros or blanks to fill it. -/
def formatD (zeros : Bool) (width : ℕ) (v : ℤ) : List Byte :=
  let sign := if v < 0 then [minus] else []
  let digits := numeral digitSymbol 10 v.natAbs
  let fill := width - (sign.length + digits.length)
  if zeros then sign ++ List.replicate fill (ascii '0') ++ digits
  else List.replicate fill (ascii ' ') ++ sign ++ digits

/-- `"%4d%02d%02d %02d:%02d:%02d"`. -/
def printSecond (tm : Tm) : List Byte :=
  formatD false 4 (tm.tmYear + tmYearBase) ++ formatD true 2 (tm.tmMon + 1) ++
    formatD true 2 tm.tmMday ++ ascii ' ' :: formatD true 2 tm.tmHour ++
    ascii ':' :: formatD true 2 tm.tmMin ++ ascii ':' :: formatD true 2 tm.tmSec

/-- `snprintf` into an array: the text, cut if it is too long, a terminator, and what was there. -/
def snprintf (size : ℕ) (buf s : List Byte) : List Byte :=
  let s := s.take (size - 1) ++ [0]
  s ++ buf.drop s.length

/-- The second of a time. -/
def secondOf (time : BitVec 64) : BitVec 64 := time / kAccuracyPerSecond.setWidth 64

/-- The milliseconds of a time. -/
def millisOf (time : BitVec 64) : ℤ := (time % kAccuracyPerSecond.setWidth 64).toNat

section
variable {δ : Type} (printG : δ → List Byte)

/-- `".%03d "`. -/
def printMillis (time : BitVec 64) : List Byte :=
  ascii '.' :: formatD true 3 (millisOf time) ++ [ascii ' ']

/-- `Impl::formatTime`: the variables and what is written to the stream. -/
def formatTime (state : LogState) (time : BitVec 64) : LogState × List (Item δ) :=
  let seconds := secondOf time
  let state :=
    if seconds ≠ state.tLastSecond then
      { state with
        tLastSecond := seconds
        tTime := snprintf 32 state.tTime (printSecond (gmtimeR seconds)) }
    else state
  let us := snprintf 32 [] (printMillis time)
  (state, [.string (state.tTime.take 17), .string (us.take 5)])

/-- What follows the time: the constructors of `Logger` and `Impl`, the statement, `finish`. -/
def Call.body (call : Call δ) : List (Item δ) :=
  [.string (text ['p', 'i', 'd', ' ', '=', ' ', '1', ' ']), .string call.level.name] ++
    (match call.level with
      | .trace | .debug => [.string call.func, .char (ascii ' ')]
      | _ => []) ++
    call.items ++
    [.string (text [' ', '-', ' ']), .string (baseName call.file), .char (ascii ':'),
      .integer .int call.line, .char (ascii '\n')]

/-- A `Logger` from its constructor to its destructor: the variables and what it hands to
`g_output`.  The memory of the buffer is not initialised. -/
def log (state : LogState) (time : BitVec 64) (call : Call δ) (data : Mem) :
    LogState × List Byte :=
  let (state, items) := formatTime state time
  let buffer := stream printG data (items ++ call.body)
  (state, bytes buffer.data 0 buffer.cur)

/-- What a program does with its log. -/
inductive LogEvent (δ : Type) where
  | setLogLevel (level : LogLevel)
  | log (time : BitVec 64) (call : Call δ) (data : Mem)

/-- The lines that a run hands to `g_output`. -/
def runLog : LogState → List (LogEvent δ) → List (List Byte)
  | _, [] => []
  | state, .setLogLevel level :: events => runLog { state with gLogLevel := level } events
  | state, .log time call data :: events =>
      if call.level.enabled state.gLogLevel then
        let (state, line) := log printG state time call data
        line :: runLog state events
      else runLog state events

/-- The variables after an event. -/
def LogState.after (state : LogState) : LogEvent δ → LogState
  | .setLogLevel level => { state with gLogLevel := level }
  | .log time call data =>
      if call.level.enabled state.gLogLevel then (log printG state time call data).1 else state

/-! ### The lines without the kept text -/

/-- The first 17 characters of the time, from the time alone. -/
def stamp (second : BitVec 64) : List Byte := (printSecond (gmtimeR second)).take 17

/-- The line of a call at a time. -/
def lineAt (time : BitVec 64) (call : Call δ) : List Byte :=
  lineOf printG ([.string (stamp (secondOf time)), .string (printMillis time)] ++ call.body)

/-- The lines of a run, each for itself. -/
def plainLog : LogLevel → List (LogEvent δ) → List (List Byte)
  | _, [] => []
  | _, .setLogLevel level :: events => plainLog level events
  | level, .log time call _ :: events =>
      if call.level.enabled level then lineAt printG time call :: plainLog level events
      else plainLog level events

end

/-! ### Formatted numbers -/

theorem digitSymbol_eq_digitChar : ∀ d < 10, digitSymbol d = digitChar d := by decide

/-- Zeros and the digits are as many digits as the width says. -/
theorem replicate_append_numeral {width n : ℕ} (hwidth : 0 < width) (hn : n < 10 ^ width) :
    List.replicate (width - (digitList 10 n).length) (ascii '0') ++ numeral digitSymbol 10 n =
      padded width n := by
  induction width generalizing n with
  | zero => exact absurd hwidth (lt_irrefl 0)
  | succ width ih =>
      have hlast : digitSymbol (n % 10) = digitChar (n % 10) :=
        digitSymbol_eq_digitChar _ (Nat.mod_lt _ (by decide))
      rw [padded, numeral]
      by_cases hdiv : n / 10 = 0
      · have hzeros : ∀ w, padded w 0 = List.replicate w (ascii '0') := by
          intro w
          induction w with
          | zero => rfl
          | succ w ihw =>
              rw [padded, Nat.zero_div, ihw, Nat.zero_mod, List.replicate_succ']
              rfl
        rw [digitList_of_div_eq_zero (by decide) hdiv, hdiv, hzeros, List.length_singleton,
          Nat.add_sub_cancel, List.map_singleton, List.reverse_singleton, hlast]
      · have hrest : n / 10 < 10 ^ width := div_lt_pow hn
        have hpos : 0 < width := by
          rcases Nat.eq_zero_or_pos width with rfl | hpos
          · exact absurd (Nat.lt_one_iff.mp hrest) hdiv
          · exact hpos
        rw [digitList_of_div_ne_zero (by decide) hdiv, List.length_cons, Nat.add_sub_add_right,
          List.map_cons, List.reverse_cons, ← List.append_assoc, ← ih hpos hrest, hlast]
        rfl

theorem formatD_zeros {width : ℕ} {v : ℤ} (hwidth : 0 < width) (hlow : 0 ≤ v)
    (hhigh : v.toNat < 10 ^ width) : formatD true width v = padded width v.toNat := by
  have habs : v.natAbs = v.toNat := by omega
  rw [formatD, if_neg (not_lt.mpr hlow)]
  simp only [if_true, List.nil_append, List.length_nil, zero_add, length_numeral, habs]
  exact replicate_append_numeral hwidth hhigh

/-- A number that fills its field. -/
theorem formatD_blanks {width : ℕ} {v : ℤ} (hlow : 10 ^ width ≤ v)
    (hhigh : v.toNat < 10 ^ (width + 1)) :
    formatD false (width + 1) v = padded (width + 1) v.toNat := by
  have hpow : (0 : ℤ) ≤ 10 ^ width := by positivity
  have habs : v.natAbs = v.toNat := by omega
  have hle : 10 ^ width ≤ v.toNat := by
    have hcast : ((10 ^ width : ℕ) : ℤ) ≤ v := by exact_mod_cast hlow
    omega
  have hlength : width + 1 - (digitList 10 v.toNat).length = 0 := by
    have hne : v.toNat ≠ 0 := by
      have hpos : 0 < 10 ^ width := Nat.pow_pos (by decide)
      omega
    have hdigits : width < (Nat.digits 10 v.toNat).length :=
      (Nat.lt_digits_length_iff (by decide) v.toNat).mpr hle
    rw [digitList, if_neg hne]
    omega
  have hpadded := replicate_append_numeral (Nat.succ_pos width) hhigh
  rw [hlength, List.replicate_zero, List.nil_append] at hpadded
  rw [formatD, if_neg (not_lt.mpr (hpow.trans hlow))]
  simp only [Bool.false_eq_true, if_false, List.append_nil, List.length_nil, zero_add,
    length_numeral, habs, hlength, List.replicate_zero, List.nil_append]
  exact hpadded

theorem le_length_formatD (zeros : Bool) (width : ℕ) (v : ℤ) :
    width ≤ (formatD zeros width v).length := by
  unfold formatD
  cases zeros <;>
    simp only [Bool.false_eq_true, if_true, if_false, List.length_append, List.length_replicate] <;>
    omega

/-! ### The kept text -/

theorem le_length_printSecond (tm : Tm) : 17 ≤ (printSecond tm).length := by
  have hyear := le_length_formatD false 4 (tm.tmYear + tmYearBase)
  have hmon := le_length_formatD true 2 (tm.tmMon + 1)
  have hmday := le_length_formatD true 2 tm.tmMday
  have hhour := le_length_formatD true 2 tm.tmHour
  have hmin := le_length_formatD true 2 tm.tmMin
  have hsec := le_length_formatD true 2 tm.tmSec
  simp only [printSecond, List.length_append, List.length_cons]
  omega

theorem take_snprintf {size count : ℕ} {buf s : List Byte} (hcount : count ≤ s.length)
    (hsize : count < size) : (snprintf size buf s).take count = s.take count := by
  have hlength : count ≤ (s.take (size - 1)).length := by
    rw [List.length_take]
    omega
  rw [snprintf, List.append_assoc, List.take_append_of_le_length hlength, List.take_take,
    Nat.min_eq_left (by omega)]

theorem length_stamp (second : BitVec 64) : (stamp second).length = 17 := by
  rw [stamp, List.length_take, Nat.min_eq_left (le_length_printSecond _)]

theorem millisOf_range (time : BitVec 64) : 0 ≤ millisOf time ∧ millisOf time < 1000 := by
  have hthousand : (kAccuracyPerSecond.setWidth 64).toNat = 1000 := rfl
  have hlt := Nat.mod_lt time.toNat (show 0 < 1000 by decide)
  unfold millisOf
  rw [BitVec.toNat_umod, hthousand]
  omega

theorem printMillis_eq (time : BitVec 64) :
    printMillis time = ascii '.' :: padded 3 (millisOf time).toNat ++ [ascii ' '] := by
  obtain ⟨hlow, hhigh⟩ := millisOf_range time
  rw [printMillis, formatD_zeros (by decide) hlow (by omega)]

/-- No second is the one that stands for none. -/
theorem secondOf_ne (time : BitVec 64) : secondOf time ≠ -1 := by
  intro heq
  have hnat := congrArg BitVec.toNat heq
  have hthousand : (kAccuracyPerSecond.setWidth 64).toNat = 1000 := rfl
  have hlast : (-1 : BitVec 64).toNat = 2 ^ 64 - 1 := rfl
  have hlt := time.isLt
  rw [secondOf, BitVec.toNat_udiv, hthousand, hlast] at hnat
  omega

/-- The kept text is that of the kept second, if there is one. -/
def Kept (state : LogState) : Prop :=
  state.tLastSecond = -1 ∨ state.tTime.take 17 = stamp state.tLastSecond

section
variable {δ : Type} {printG : δ → List Byte}

/-- The text of the second is right, whether it was kept or made. -/
theorem formatTime_spec {state : LogState} (hkept : Kept state) (time : BitVec 64) :
    (formatTime state time : LogState × List (Item δ)).2 =
        [.string (stamp (secondOf time)), .string (printMillis time)] ∧
      Kept (formatTime state time : LogState × List (Item δ)).1 ∧
      (formatTime state time : LogState × List (Item δ)).1.gLogLevel = state.gLogLevel := by
  have hlength : (printMillis time).length = 5 := by
    rw [printMillis_eq, List.length_append, List.length_cons, length_padded, List.length_singleton]
  have hus : (snprintf 32 [] (printMillis time)).take 5 = printMillis time := by
    rw [take_snprintf hlength.ge (by decide), List.take_of_length_le hlength.le]
  unfold formatTime
  simp only [hus]
  by_cases hsame : secondOf time = state.tLastSecond
  · have htext : state.tTime.take 17 = stamp (secondOf time) := by
      rcases hkept with hnone | htext
      · exact absurd (hsame.trans hnone) (secondOf_ne time)
      · rw [htext, hsame]
    rw [if_neg (not_not.mpr hsame)]
    simp only [htext]
    exact ⟨trivial, hkept, trivial⟩
  · have htext : (snprintf 32 state.tTime (printSecond (gmtimeR (secondOf time)))).take 17 =
        stamp (secondOf time) := take_snprintf (le_length_printSecond _) (by decide)
    rw [if_pos hsame]
    simp only [htext]
    exact ⟨trivial, .inr htext, trivial⟩

/-- A line does not depend on the lines before. -/
theorem log_eq (hprintG : ∀ v, (printG v).length < 32) {state : LogState} (hkept : Kept state)
    (time : BitVec 64) (call : Call δ) (data : Mem) :
    (log printG state time call data).2 = lineAt printG time call ∧
      Kept (log printG state time call data).1 ∧
      (log printG state time call data).1.gLogLevel = state.gLogLevel := by
  obtain ⟨hitems, hkept', hlevel⟩ := formatTime_spec (δ := δ) hkept time
  have hshows := shows_stream hprintG data
    ((formatTime state time : LogState × List (Item δ)).2 ++ call.body)
  have htext := hshows.text
  rw [← hshows.length, hitems] at htext
  refine ⟨?_, hkept', hlevel⟩
  rw [← hitems] at htext
  rw [log, lineAt, ← hitems]
  exact htext

/-- In every state of a run the kept text is right. -/
theorem kept_foldl (hprintG : ∀ v, (printG v).length < 32) {state : LogState} (hkept : Kept state)
    (events : List (LogEvent δ)) : Kept (events.foldl (LogState.after printG) state) := by
  induction events generalizing state with
  | nil => exact hkept
  | cons event events ih =>
      apply ih
      cases event with
      | setLogLevel level => exact hkept
      | log time call data =>
          rw [LogState.after]
          split
          · exact (log_eq hprintG hkept time call data).2.1
          · exact hkept

/-- In every run, each line is that of its own call and time. -/
theorem runLog_eq (hprintG : ∀ v, (printG v).length < 32) {state : LogState} (hkept : Kept state)
    (events : List (LogEvent δ)) :
    runLog printG state events = plainLog printG state.gLogLevel events := by
  induction events generalizing state with
  | nil => rfl
  | cons event events ih =>
      cases event with
      | setLogLevel level => exact @ih { state with gLogLevel := level } hkept
      | log time call data =>
          obtain ⟨hline, hkept', hlevel⟩ := log_eq hprintG hkept time call data
          rw [runLog, plainLog]
          split
          · change (log printG state time call data).2 ::
              runLog printG (log printG state time call data).1 events = _
            rw [hline, ih hkept', hlevel]
          · exact ih hkept

/-- From the start on, whatever is logged, at whatever times and levels: each line that is handed
out is the line of its own call and time. -/
theorem runLog_start (printG : δ → List Byte) (hprintG : ∀ v, (printG v).length < 32)
    (events : List (LogEvent δ)) :
    runLog printG LogState.start events = plainLog printG .trace events :=
  runLog_eq hprintG (.inl rfl) events

end

/-- Two lines of one second, between them one of the next. -/
def threeLines : List (LogEvent ℕ) :=
  let call : Call ℕ := ⟨.warn, text ['a', '.', 'c'], 7, [], [.string (text ['x']), .double 0]⟩
  [.log 5000 call fun _ ↦ 0, .log 6000 call fun _ ↦ 0, .setLogLevel .error,
    .log 5900 { call with level := .info } fun _ ↦ 0, .log 5900 call fun _ ↦ 0]

theorem runLog_threeLines :
    runLog (fun _ ↦ [ascii '0']) LogState.start threeLines =
      plainLog (fun _ ↦ [ascii '0']) .trace threeLines :=
  runLog_start (fun _ ↦ [ascii '0']) (fun _ ↦ by decide) threeLines

end ProjectSensor.Api
