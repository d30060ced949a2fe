import ProjectSensor.Api.Calendar
import ProjectSensor.Api.Log

/-!
# The time in the log

`application::init` reads the time of the compilation from its text and sets the clock to it.  From
then on the clock counts the seconds, and every line of the log begins with its second.  That second
can be read back from the line.
-/

open ProjectSensor.Library ProjectSensor.Library.ByteMemory ProjectSensor.Library.Ascii
open ProjectSensor.Library.Gregorian ProjectSensor.Service ProjectSensor.Api

namespace ProjectSensor.App

/-- The format of `application::init`. -/
def initFormat : List Byte :=
  text ['%', 'b', ' ', '%', 'd', ' ', '%', 'Y', ' ', '%', 'H', ':', '%', 'M', ':', '%', 'S']

/-- `__DATE__" "__TIME__`, for a program compiled at a time. -/
def compileStamp (tm : Tm) : List Byte :=
  printOf tm [.monthName, .paddedMday, .blank, .number .year, .blank, .number .hour,
    .literal (ascii ':'), .number .min, .literal (ascii ':'), .number .sec]

/-- The time that `application::init` reads; `tm_time` is not initialised, and what `strptime`
returns is not looked at. -/
def initTime (stamp : List Byte) (vars : Vars) : Option (BitVec 64) :=
  (mktime (strptime stamp initFormat vars).2.tm).map Prod.fst

/-- `sv_xtime_set`. -/
def svXtimeSet (clock : Clock) (time : BitVec 64) : Clock := { clock with xtime := time }

/-- The clock `n` ticks after `application::init`, which runs `start` ticks after the start. -/
def clockAfterInit (stamp : List Byte) (vars : Vars) (start n : ℕ) : Option Clock :=
  (initTime stamp vars).map fun time ↦
    Clock.svTickIncrease^[n] (svXtimeSet (Clock.after start) time)

/-! ### The calendar -/

/-- The fields of a time before the year 10000 can be printed. -/
theorem printable_gmtimeR {timep : BitVec 64} {year : ℕ}
    (hyear : InYear 1970 (timep.toNat / (24 * 60 * 60)) year) (hlast : year ≤ 9999) :
    Printable (gmtimeR timep) ∧ (gmtimeR timep).year = year := by
  have hfit : year ≤ intMax := hlast.trans (by decide)
  have hlength := sub_daysBetween_lt hyear
  have hdate := monthDay_dateOf _ _ hlength
  have hfirst := hyear.1
  have hmonth := hdate.month_le
  have hdayLow := hdate.day_pos
  have hday : (monthDay (isLeap year) (timep.toNat / (24 * 60 * 60) - daysBetween 1970 year)).2 ≤
      31 := by
    have hlongest : ∀ leap, ∀ month < 12, monthLength leap month ≤ 31 := by decide
    exact hdate.day_le.trans (hlongest _ _ (by omega))
  have hyday : timep.toNat / (24 * 60 * 60) - daysBetween 1970 year ≤ 365 := by
    split at hlength <;> omega
  rw [gmtimeR_eq hyear hfit]
  refine ⟨⟨?_, ?_, ?_, ?_, ?_, ?_, ?_, ?_⟩, ?_⟩ <;> simp only [tmYearBase, Tm.year] <;> omega

/-- `mktime` does not look at the day of the week and the day of the year. -/
theorem mktime_fields {timep : BitVec 64} {year : ℕ}
    (hyear : InYear 1970 (timep.toNat / (24 * 60 * 60)) year) (hfit : year ≤ intMax)
    (tmWday tmYday : ℤ) :
    mktime { gmtimeR timep with tmWday := tmWday, tmYday := tmYday } =
      some (timep, gmtimeR timep) := by
  have hdate := monthDay_dateOf _ _ (sub_daysBetween_lt hyear)
  rw [gmtimeR_eq hyear hfit]
  rw [mktime_of_normal hyear.1 hfit rfl rfl rfl (by simp only; omega) (by simp only; omega)
    (by simp only; omega) hdate]
  have hweekday : ((BitVec.ofNat 64 (timep.toNat / (24 * 60 * 60)) + 4) % 7).toNat =
      (4 + timep.toNat / (24 * 60 * 60)) % 7 := by
    have hlt := timep.isLt
    simp only [BitVec.toNat_umod, BitVec.toNat_add, BitVec.toNat_ofNat, BitVec.reduceToNat]
    omega
  simp only [dayOfYears_add hyear hfit, BitVec.ofInt_natCast, timep_eq_of_fields, hweekday]

/-! ### The time of the compilation -/

def initDirectives : List Directive :=
  [.monthName, .paddedMday, .blank, .number .year, .blank, .number .hour, .literal (ascii ':'),
    .number .min, .literal (ascii ':'), .number .sec]

theorem formatOf_initDirectives : formatOf initDirectives = initFormat := by decide

theorem separated_initDirectives (tm : Tm) : Separated tm [] initDirectives := by
  have hletter : isalpha (ascii ' ') = false := by decide
  have hdigit : isdigit (ascii ' ') = false := by decide
  have hcolon : isspace (ascii ':') = false ∧ ascii ':' ≠ ascii '%' := by decide
  refine ⟨?_, (startsNot_cons ..).mpr hdigit, ?_, trivial, ?_, trivial, hcolon, trivial, hcolon,
    trivial, trivial⟩
  · rw [printOf, List.flatMap_cons, print_paddedMday]
    exact (startsNot_cons ..).mpr hletter
  · rw [printOf, List.flatMap_cons, List.append_assoc]
    exact startsNot_isspace_padded 3 _ _
  · rw [printOf, List.flatMap_cons, List.append_assoc]
    exact startsNot_isspace_padded 1 _ _

/-- Whatever was in `tm_time`, `application::init` finds the time of the compilation. -/
theorem initTime_eq {timep : BitVec 64} {year : ℕ}
    (hyear : InYear 1970 (timep.toNat / (24 * 60 * 60)) year) (hlast : year ≤ 9999)
    (vars : Vars) : initTime (compileStamp (gmtimeR timep)) vars = some timep := by
  obtain ⟨hprintable, -⟩ := printable_gmtimeR hyear hlast
  obtain ⟨vars', hholds, hcall⟩ :=
    strptime_of_printOf hprintable (separated_initDirectives (gmtimeR timep)) vars
  have hyears : YearReadable (gmtimeR timep) initDirectives := fun hany ↦ absurd hany (by decide)
  have hfields := evaluateYear_of_holds hprintable hholds hyears
  rw [List.append_nil, formatOf_initDirectives] at hcall
  have hstamp : compileStamp (gmtimeR timep) = printOf (gmtimeR timep) initDirectives := rfl
  rw [initTime, hstamp, hcall]
  simp only [hfields]
  have hmktime := mktime_fields hyear (hlast.trans (by decide)) vars.tm.tmWday vars.tm.tmYday
  exact congrArg (Option.map Prod.fst) hmktime

/-! ### The second of a line -/

/-- The format of the time of a line. -/
def stampDirectives : List Directive :=
  [.number .year, .number .mon, .number .mday, .blank, .clock]

theorem printSecond_eq {tm : Tm} (hprintable : Printable tm) (hyear : 1000 ≤ tm.year) :
    printSecond tm = printOf tm stampDirectives := by
  obtain ⟨hsec, hmin, hhour, hmday, hmon, hyears, -, -⟩ := hprintable
  have htmYear : (tm.tmYear + tmYearBase).toNat = tm.year := rfl
  have hnumber : (tm.tmYear + tmYearBase : ℤ) = tm.year := by
    unfold Tm.year tmYearBase
    omega
  have hlast : tm.year < 10 ^ (3 + 1) := by
    unfold Tm.year tmYearBase
    omega
  have hfour : formatD false 4 (tm.tmYear + tmYearBase) = padded 4 tm.year := by
    have hlow : (10 : ℤ) ^ 3 ≤ tm.tmYear + tmYearBase := by
      rw [hnumber]
      exact_mod_cast hyear
    rw [← htmYear]
    exact formatD_blanks hlow hlast
  have hmonth : (tm.tmMon + 1).toNat = tm.tmMon.toNat + 1 := by omega
  rw [printSecond, hfour, formatD_zeros (by decide) (by omega) (by omega),
    formatD_zeros (by decide) (by omega) (by omega),
    formatD_zeros (by decide) (by omega) (by omega),
    formatD_zeros (by decide) (by omega) (by omega),
    formatD_zeros (by decide) (by omega) (by omega), hmonth]
  simp only [stampDirectives, printOf, List.flatMap_cons, List.flatMap_nil, Directive.print,
    Directive.digits, NumberField.width, NumberField.number, List.append_assoc,
    List.cons_append, List.append_nil, List.nil_append]

theorem stamp_eq_printOf {second : BitVec 64} {year : ℕ}
    (hyear : InYear 1970 (second.toNat / (24 * 60 * 60)) year) (hlast : year ≤ 9999) :
    stamp second = printOf (gmtimeR second) stampDirectives := by
  obtain ⟨hprintable, hyearEq⟩ := printable_gmtimeR hyear hlast
  have hfirst := hyear.1
  have hprint := printSecond_eq hprintable (by omega)
  have hlength : (printOf (gmtimeR second) stampDirectives).length = 17 := by
    simp only [stampDirectives, printOf, List.flatMap_cons, List.flatMap_nil, Directive.print,
      Directive.digits, List.length_append, List.length_cons, length_padded, NumberField.width,
      List.length_nil]
  rw [stamp, hprint, List.take_of_length_le hlength.le]

/-- Every line begins with its time. -/
theorem lineAt_eq {δ : Type} (printG : δ → List Byte) (time : BitVec 64) (call : Call δ) :
    ∃ tail, lineAt printG time call = stamp (secondOf time) ++ (printMillis time ++ tail) := by
  have hmillis : (printMillis time).length = 5 := by
    rw [printMillis_eq, List.length_append, List.length_cons, length_padded, List.length_singleton]
  have hstamp := length_stamp (secondOf time)
  obtain ⟨kept, -, hline⟩ := foldl_writeItem_sublist printG
    (stamp (secondOf time) ++ printMillis time) call.body
  refine ⟨kept.flatMap (Item.text printG), ?_⟩
  have hfirst : writeItem printG [] (.string (stamp (secondOf time))) =
      stamp (secondOf time) := by
    rw [writeItem_string (by rw [List.length_nil, hstamp]; decide), List.nil_append]
  have hsecond : writeItem printG (stamp (secondOf time)) (.string (printMillis time)) =
      stamp (secondOf time) ++ printMillis time :=
    writeItem_string (by rw [hstamp, hmillis]; decide)
  rw [lineAt, lineOf, List.foldl_append, List.foldl_cons, List.foldl_cons, List.foldl_nil, hfirst,
    hsecond, hline, List.append_assoc]

/-- The second of a line is read back from it. -/
theorem strptime_lineAt {δ : Type} (printG : δ → List Byte) {time : BitVec 64} {year : ℕ}
    (hyear : InYear 1970 ((secondOf time).toNat / (24 * 60 * 60)) year) (hlast : year ≤ 9999)
    (call : Call δ) (vars : Vars) :
    (mktime (strptime (lineAt printG time call) (formatOf stampDirectives) vars).2.tm).map
      Prod.fst = some (secondOf time) := by
  obtain ⟨tail, hline⟩ := lineAt_eq printG time call
  obtain ⟨hprintable, -⟩ := printable_gmtimeR hyear hlast
  have hseparated : Separated (gmtimeR (secondOf time)) (printMillis time ++ tail)
      stampDirectives := by
    refine ⟨trivial, trivial, trivial, ?_, trivial, trivial⟩
    rw [printOf, List.flatMap_cons, List.append_assoc, Directive.print, List.append_assoc,
      List.append_assoc]
    exact startsNot_isspace_padded 1 _ _
  obtain ⟨vars', hholds, hcall⟩ := strptime_of_printOf hprintable hseparated vars
  have hyears : YearReadable (gmtimeR (secondOf time)) stampDirectives :=
    fun hany ↦ absurd hany (by decide)
  have hfields := evaluateYear_of_holds hprintable hholds hyears
  rw [hline, stamp_eq_printOf hyear hlast, hcall]
  simp only [hfields]
  have hmktime := mktime_fields hyear (hlast.trans (by decide)) vars.tm.tmWday vars.tm.tmYday
  exact congrArg (Option.map Prod.fst) hmktime

/-! ### The clock -/

/-- The clock counts on from the time it is set to. -/
theorem svTickIncrease_shift (clock : Clock) (shift : BitVec 64) :
    Clock.svTickIncrease (svXtimeSet clock (clock.xtime + shift)) =
      svXtimeSet clock.svTickIncrease (clock.svTickIncrease.xtime + shift) := by
  have hcomm : clock.xtime + shift + 1 = clock.xtime + 1 + shift := by ring
  by_cases hfull : tickPerSecond ≤ clock.sTickForXtime + 1
  · simp only [svXtimeSet, Clock.svTickIncrease, hfull, if_true, hcomm]
  · simp only [svXtimeSet, Clock.svTickIncrease, hfull, if_false]

theorem iterate_svTickIncrease_shift (clock : Clock) (shift : BitVec 64) (n : ℕ) :
    Clock.svTickIncrease^[n] (svXtimeSet clock (clock.xtime + shift)) =
      svXtimeSet (Clock.svTickIncrease^[n] clock)
        ((Clock.svTickIncrease^[n] clock).xtime + shift) := by
  induction n with
  | zero => rfl
  | succ n ih =>
      rw [Function.iterate_succ_apply', Function.iterate_succ_apply', ih, svTickIncrease_shift]

/-- The seconds since `application::init`, by the clock. -/
def secondsSince (start n : ℕ) : ℕ := (start + n) / 100 - start / 100

theorem iterate_svXtimeSet (time : BitVec 64) (start n : ℕ) :
    Clock.svTickIncrease^[n] (svXtimeSet (Clock.after start) time) =
      svXtimeSet (Clock.after (start + n)) (time + BitVec.ofNat 64 (secondsSince start n)) := by
  have hshift := iterate_svTickIncrease_shift (Clock.after start)
    (time - (Clock.after start).xtime) n
  have hset : (Clock.after start).xtime + (time - (Clock.after start).xtime) = time := by ring
  have hafter : Clock.svTickIncrease^[n] (Clock.after start) = Clock.after (start + n) := by
    rw [Clock.after, Clock.after, ← Function.iterate_add_apply, Nat.add_comm]
  have hseconds : BitVec.ofNat 64 ((start + n) / 100) =
      BitVec.ofNat 64 (start / 100) + BitVec.ofNat 64 (secondsSince start n) := by
    have hle : start / 100 ≤ (start + n) / 100 := Nat.div_le_div_right (Nat.le_add_right ..)
    rw [← BitVec.ofNat_add, secondsSince, Nat.add_sub_cancel' hle]
  rw [hset, hafter] at hshift
  rw [hshift]
  congr 1
  rw [Clock.after_eq, Clock.after_eq, hseconds]
  ring

/-- The second that a clock shows. -/
theorem secondOf_now (clock : Clock) (hfits : clock.xtime.toNat < 2 ^ 54) :
    secondOf clock.now = clock.xtime := by
  have hthousand : (kAccuracyPerSecond.setWidth 64).toNat = 1000 := rfl
  have husec : (clock.gettimeofday.tvUsec).toNat < 1000 := by
    have hmod := Nat.mod_lt clock.sTick.toNat (show 0 < 100 by decide)
    rw [Clock.gettimeofday, BitVec.toNat_setWidth, BitVec.toNat_udiv, BitVec.toNat_mul,
      BitVec.toNat_umod, show tickPerSecond.toNat = 100 from rfl,
      show kAccuracyPerSecond.toNat = 1000 from rfl]
    generalize clock.sTick.toNat % 100 = ticks at hmod
    have hproduct : ticks * 1000 % 2 ^ 32 / 100 = ticks * 10 := by
      rw [Nat.mod_eq_of_lt (by omega)]
      omega
    rw [hproduct, Nat.mod_eq_of_lt (by omega)]
    omega
  have hsec : clock.gettimeofday.tvSec = clock.xtime := rfl
  apply BitVec.eq_of_toNat_eq
  rw [secondOf, Clock.now, hsec, BitVec.toNat_udiv, BitVec.toNat_add, BitVec.toNat_mul, hthousand]
  rw [Nat.mod_eq_of_lt (a := clock.xtime.toNat * 1000) (by omega), Nat.mod_eq_of_lt (by omega)]
  omega

/-- The first second of the year 10000. -/
def yearTenThousand : ℕ := 253402300800

theorem exists_inYear_of_lt {second : ℕ} (hlt : second < yearTenThousand) :
    ∃ year, InYear 1970 (second / (24 * 60 * 60)) year ∧ year ≤ 9999 := by
  obtain ⟨year, hyear⟩ := exists_inYear 1970 (second / (24 * 60 * 60))
  have hdays : daysBetween 1970 10000 = 2932897 := by
    have hclosed := daysBetween_add_leapsBefore (by decide : 1970 ≤ 10000)
    have hfirst : leapsBefore 1970 = 478 := by decide
    have hlast : leapsBefore 10000 = 2425 := by decide
    omega
  have hbefore : year < 10000 := by
    apply lt_of_inYear hyear
    unfold yearTenThousand at hlt
    omega
  exact ⟨year, hyear, Nat.lt_succ_iff.mp hbefore⟩

/-- For a program compiled at any time, `n` ticks after `application::init` and whatever was logged
before: the line that is logged then tells the second that it is, the seconds since
`application::init` added to the time of the compilation, as long as that second lies before the
year 10000. -/
theorem logged_second {δ : Type} (printG : δ → List Byte) (hprintG : ∀ v, (printG v).length < 32)
    (compiled : BitVec 64) (start n : ℕ)
    (hlast : compiled.toNat + secondsSince start n < yearTenThousand) (tmTime tm : Vars)
    (events : List (LogEvent δ)) (call : Call δ) (data : Mem) :
    let state := events.foldl (LogState.after printG) LogState.start
    ∃ clock, clockAfterInit (compileStamp (gmtimeR compiled)) tmTime start n = some clock ∧
      (mktime (strptime (log printG state clock.now call data).2 (formatOf stampDirectives)
        tm).2.tm).map (fun result ↦ result.1.toNat) =
          some (compiled.toNat + secondsSince start n) := by
  intro state
  have hkept : Kept state := kept_foldl hprintG (.inl rfl) events
  obtain ⟨year, hyear, hyearLast⟩ := exists_inYear_of_lt hlast
  have hcompiled : compiled.toNat < yearTenThousand := by omega
  obtain ⟨first, hfirst, hfirstLast⟩ := exists_inYear_of_lt hcompiled
  have hseconds : (compiled + BitVec.ofNat 64 (secondsSince start n)).toNat =
      compiled.toNat + secondsSince start n := by
    unfold yearTenThousand at hlast
    rw [BitVec.toNat_add, BitVec.toNat_ofNat, Nat.add_mod_mod, Nat.mod_eq_of_lt (by omega)]
  generalize hclock : svXtimeSet (Clock.after (start + n))
    (compiled + BitVec.ofNat 64 (secondsSince start n)) = clock
  have hxtime : clock.xtime = compiled + BitVec.ofNat 64 (secondsSince start n) := by
    rw [← hclock]
    rfl
  have hsecond : secondOf clock.now = compiled + BitVec.ofNat 64 (secondsSince start n) := by
    rw [secondOf_now clock, hxtime]
    unfold yearTenThousand at hlast
    rw [hxtime, hseconds]
    omega
  refine ⟨clock, ?_, ?_⟩
  · rw [clockAfterInit, initTime_eq hfirst hfirstLast, Option.map_some, iterate_svXtimeSet, hclock]
  · obtain ⟨hline, -, -⟩ := log_eq hprintG hkept clock.now call data
    rw [← hseconds, ← hsecond] at hyear ⊢
    have hread := strptime_lineAt printG hyear hyearLast call tm
    rw [Option.map_eq_some_iff] at hread
    obtain ⟨result, hresult, hfst⟩ := hread
    rw [hline, hresult, Option.map_some, hfst]

/-- Compiled on New Year's Day of 2015, 2.5 seconds after `application::init`. -/
theorem logged_second_2015 :
    let state := ([] : List (LogEvent ℕ)).foldl (LogState.after fun _ ↦ [ascii '0']) LogState.start
    ∃ clock, clockAfterInit (compileStamp (gmtimeR 1420070400)) ⟨endOfJune, 0, 0⟩ 3 250 =
        some clock ∧
      (mktime (strptime (log (fun _ ↦ [ascii '0']) state clock.now
        (⟨.warn, text ['a', '.', 'c'], 7, [], []⟩ : Call ℕ) fun _ ↦ 0).2 (formatOf stampDirectives)
          ⟨endOfJune, 0, 0⟩).2.tm).map (fun result ↦ result.1.toNat) =
        some ((1420070400 : BitVec 64).toNat + secondsSince 3 250) :=
  logged_second (fun _ ↦ [ascii '0']) (fun _ ↦ by decide) 1420070400 3 250 (by decide) _ _ [] _ _

end ProjectSensor.App
