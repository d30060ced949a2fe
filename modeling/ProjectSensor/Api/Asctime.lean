import ProjectSensor.Api.StrptimeRoundTrip

/-!
# `asctime_r`

The buffer gets 25 bytes and no terminator.  What is written is what the format `%a %b %d %T %Y`
prints with a blank in front of a one-digit day, and a line feed, so that `strptime` reads it back.
-/

open ProjectSensor.Library.ByteMemory ProjectSensor.Library.Ascii

namespace ProjectSensor.Api

/-- `days`. -/
def days : List Byte :=
  text ['S', 'u', 'n', ' ', 'M', 'o', 'n', ' ', 'T', 'u', 'e', ' ', 'W', 'e', 'd', ' ', 'T', 'h',
    'u', ' ', 'F', 'r', 'i', ' ', 'S', 'a', 't', ' ']

/-- `months`. -/
def months : List Byte :=
  text ['J', 'a', 'n', ' ', 'F', 'e', 'b', ' ', 'M', 'a', 'r', ' ', 'A', 'p', 'r', ' ', 'M', 'a',
    'y', ' ', 'J', 'u', 'n', ' ', 'J', 'u', 'l', ' ', 'A', 'u', 'g', ' ', 'S', 'e', 'p', ' ', 'O',
    'c', 't', ' ', 'N', 'o', 'v', ' ', 'D', 'e', 'c', ' ']

/-- `num2str` at a place of the buffer. -/
def num2str (buf : Mem) (c : ℕ) (i : ℤ) : Mem :=
  store (store buf c (BitVec.ofInt 8 (i.tdiv 10 + 48))) (c + 1) (BitVec.ofInt 8 (i.tmod 10 + 48))

/-- The four bytes of a word copied out of a string. -/
def copyWord (buf : Mem) (c : ℕ) (string : List Byte) (i : ℤ) : Mem :=
  blit buf c (fun addr ↦ string.getD addr 0) (i * 4).toNat 4

/-- `asctime_r`. -/
def asctimeR (t : Tm) (buf : Mem) : Mem :=
  let buf := copyWord buf 0 days t.tmWday
  let buf := copyWord buf 4 months t.tmMon
  let buf := num2str buf 8 t.tmMday
  let buf := if buf 8 = ascii '0' then store buf 8 (ascii ' ') else buf
  let buf := store buf 10 (ascii ' ')
  let buf := num2str buf 11 t.tmHour
  let buf := store buf 13 (ascii ':')
  let buf := num2str buf 14 t.tmMin
  let buf := store buf 16 (ascii ':')
  let buf := num2str buf 17 t.tmSec
  let buf := store buf 19 (ascii ' ')
  let buf := num2str buf 20 ((t.tmYear + tmYearBase).tdiv 100)
  let buf := num2str buf 22 ((t.tmYear + tmYearBase).tmod 100)
  store buf 24 (ascii '\n')

/-! ### The text -/

/-- The two digits of `num2str`. -/
theorem ofInt_digits {n : ℕ} {i : ℤ} (hi : i = n) (hn : n < 100) :
    [BitVec.ofInt 8 (i.tdiv 10 + 48), BitVec.ofInt 8 (i.tmod 10 + 48)] = padded 2 n := by
  have hfirst : i.tdiv 10 + 48 = ((0x30 + n / 10 % 10 : ℕ) : ℤ) := by
    rw [hi, Int.tdiv_eq_ediv_of_nonneg (Int.natCast_nonneg n)]
    omega
  have hsecond : i.tmod 10 + 48 = ((0x30 + n % 10 : ℕ) : ℤ) := by
    rw [hi, Int.tmod_eq_emod_of_nonneg (Int.natCast_nonneg n)]
    omega
  rw [hfirst, hsecond, BitVec.ofInt_natCast, BitVec.ofInt_natCast]
  rfl

/-- A name and the blank behind it, as the bytes of a word. -/
theorem word_day : ∀ i < 7, (List.range 4).map (fun k ↦ days.getD (i * 4 + k) 0) =
    abday.getD i [] ++ [ascii ' '] := by decide

theorem word_month : ∀ i < 12, (List.range 4).map (fun k ↦ months.getD (i * 4 + k) 0) =
    abmon.getD i [] ++ [ascii ' '] := by decide

theorem bytes_num2str {buf : Mem} {s : List Byte} {c : ℕ} (hbuf : bytes buf 0 c = s) {n : ℕ}
    {i : ℤ} (hi : i = n) (hn : n < 100) : bytes (num2str buf c i) 0 (c + 2) = s ++ padded 2 n := by
  have hfirst := bytes_store buf 0 c (BitVec.ofInt 8 (i.tdiv 10 + 48))
  have hsecond := bytes_store (store buf c (BitVec.ofInt 8 (i.tdiv 10 + 48))) 0 (c + 1)
    (BitVec.ofInt 8 (i.tmod 10 + 48))
  rw [Nat.zero_add] at hfirst hsecond
  rw [num2str, hsecond, hfirst, hbuf, List.append_assoc, ← ofInt_digits hi hn]
  rfl

theorem bytes_copyWord {buf : Mem} {s : List Byte} {c : ℕ} (hbuf : bytes buf 0 c = s)
    {string name : List Byte} {index : ℤ} (i : ℕ) (hindex : index = i)
    (hname : (List.range 4).map (fun k ↦ string.getD (i * 4 + k) 0) = name) :
    bytes (copyWord buf c string index) 0 (c + 4) = s ++ name := by
  have hcopy := bytes_blit_behind buf 0 c (fun addr ↦ string.getD addr 0) (i * 4) 4
  have hplace : (index * 4).toNat = i * 4 := by omega
  rw [Nat.zero_add] at hcopy
  rw [copyWord, hplace, hcopy, hbuf, ← hname]
  rfl

theorem bytes_store_behind {buf : Mem} {s : List Byte} {c : ℕ} (hbuf : bytes buf 0 c = s)
    (value : Byte) : bytes (store buf c value) 0 (c + 1) = s ++ [value] := by
  have hstore := bytes_store buf 0 c value
  rwa [Nat.zero_add, hbuf] at hstore

/-- The zero in front of a one-digit day makes room for a blank. -/
theorem bytes_blank_for_zero {buf : Mem} {s : List Byte} {c n : ℕ}
    (hbuf : bytes buf 0 (c + 2) = s ++ padded 2 n) (hs : s.length = c) (hn : n < 100) :
    bytes (if buf c = ascii '0' then store buf c (ascii ' ') else buf) 0 (c + 2) =
      s ++ if n < 10 then [ascii ' ', digitChar n] else padded 2 n := by
  have hsplit : bytes buf 0 c = s ∧ bytes buf c 2 = padded 2 n := by
    rw [← bytes_append, Nat.zero_add] at hbuf
    exact List.append_inj hbuf (by rw [length_bytes, hs])
  have hfirst : buf c = digitChar (n / 10 % 10) := (List.cons.inj hsplit.2).1
  have hsecond : buf (c + 1) = digitChar (n % 10) := (List.cons.inj (List.cons.inj hsplit.2).2).1
  have hzero : ∀ d < 10, digitChar d = ascii '0' ↔ d = 0 := by decide
  have hcondition : buf c = ascii '0' ↔ n < 10 := by
    rw [hfirst, hzero _ (Nat.mod_lt _ (by decide))]
    omega
  by_cases hlt : n < 10
  · have hbefore : bytes (store buf c (ascii ' ')) 0 c = s := by
      rw [← hsplit.1]
      apply bytes_congr
      intro i hi
      exact store_of_ne _ _ (by omega)
    have hday : bytes (store buf c (ascii ' ')) c 2 = [ascii ' ', digitChar n] := by
      have hnext : store buf c (ascii ' ') (c + 1) = digitChar n := by
        rw [store_of_ne _ _ (by omega), hsecond, Nat.mod_eq_of_lt hlt]
      change [store buf c (ascii ' ') c, store buf c (ascii ' ') (c + 1)] = _
      rw [store_same, hnext]
    rw [if_pos (hcondition.mpr hlt), if_pos hlt, ← bytes_append, Nat.zero_add, hbefore, hday]
  · rw [if_neg (mt hcondition.mp hlt), if_neg hlt, hbuf]

theorem padded_four (n : ℕ) : padded 4 n = padded 2 (n / 100) ++ padded 2 (n % 100) := by
  have hthousands : n / 10 / 10 / 10 % 10 = n / 100 / 10 % 10 := by omega
  have hhundreds : n / 10 / 10 % 10 = n / 100 % 10 := by omega
  have htens : n / 10 % 10 = n % 100 / 10 % 10 := by omega
  have hones : n % 10 = n % 100 % 10 := by omega
  simp only [padded, List.nil_append, List.cons_append, hthousands, hhundreds, htens, hones]

theorem print_paddedMday (t : Tm) : Directive.paddedMday.print t = ascii ' ' ::
    if t.tmMday.toNat < 10 then [ascii ' ', digitChar t.tmMday.toNat]
    else padded 2 t.tmMday.toNat := by
  rw [Directive.print]
  by_cases hlt : t.tmMday < 10
  · rw [if_pos hlt, if_pos (by omega)]
  · rw [if_neg hlt, if_neg (by omega)]
    rfl

/-- What `asctime_r` prints, as a format. -/
def asctimeFormat : List Directive :=
  [.dayName, .blank, .monthName, .paddedMday, .blank, .clock, .blank, .number .year]

example : formatOf asctimeFormat =
    text ['%', 'a', ' ', '%', 'b', ' ', '%', 'd', ' ', '%', 'T', ' ', '%', 'Y'] := by decide

/-- `asctime_r` fills the buffer with what its format prints, and a line feed. -/
theorem bytes_asctimeR {t : Tm} (hprintable : Printable t) (buf : Mem) :
    bytes (asctimeR t buf) 0 25 = printOf t asctimeFormat ++ [ascii '\n'] := by
  obtain ⟨hsec, hmin, hhour, hmday, hmon, hyear, hwday, -⟩ := hprintable
  have hyearCentury : (t.tmYear + tmYearBase).tdiv 100 = ((t.year / 100 : ℕ) : ℤ) := by
    unfold Tm.year tmYearBase
    rw [Int.tdiv_eq_ediv_of_nonneg (by omega)]
    omega
  have hyearRest : (t.tmYear + tmYearBase).tmod 100 = ((t.year % 100 : ℕ) : ℤ) := by
    unfold Tm.year tmYearBase
    rw [Int.tmod_eq_emod_of_nonneg (by omega)]
    omega
  have hcentury : t.year / 100 < 100 := by
    unfold Tm.year tmYearBase
    omega
  have hnothing : bytes buf 0 0 = [] := rfl
  have hdayIndex : t.tmWday = (t.tmWday.toNat : ℤ) := by omega
  have hmonthIndex : t.tmMon = (t.tmMon.toNat : ℤ) := by omega
  have h4 := bytes_copyWord hnothing t.tmWday.toNat hdayIndex (word_day _ (by omega))
  have h8 := bytes_copyWord h4 t.tmMon.toNat hmonthIndex (word_month _ (by omega))
  have h10 := bytes_num2str h8 (i := t.tmMday) (n := t.tmMday.toNat) (by omega) (by omega)
  have hlength := congrArg List.length h8
  rw [length_bytes] at hlength
  have hday := bytes_blank_for_zero h10 hlength.symm (by omega)
  have h11 := bytes_store_behind hday (ascii ' ')
  have h13 := bytes_num2str h11 (i := t.tmHour) (n := t.tmHour.toNat) (by omega) (by omega)
  have h14 := bytes_store_behind h13 (ascii ':')
  have h16 := bytes_num2str h14 (i := t.tmMin) (n := t.tmMin.toNat) (by omega) (by omega)
  have h17 := bytes_store_behind h16 (ascii ':')
  have h19 := bytes_num2str h17 (i := t.tmSec) (n := t.tmSec.toNat) (by omega) (by omega)
  have h20 := bytes_store_behind h19 (ascii ' ')
  have h22 := bytes_num2str h20 hyearCentury hcentury
  have h24 := bytes_num2str h22 hyearRest (Nat.mod_lt _ (by decide))
  have h25 := bytes_store_behind h24 (ascii '\n')
  refine h25.trans ?_
  have hprint : printOf t asctimeFormat = Directive.dayName.print t ++ ([ascii ' '] ++
      (Directive.monthName.print t ++ (Directive.paddedMday.print t ++ ([ascii ' '] ++
        (Directive.clock.print t ++ ([ascii ' '] ++ (padded 4 t.year ++ []))))))) := rfl
  have hclock : Directive.clock.print t = padded 2 t.tmHour.toNat ++ (ascii ':' ::
      padded 2 t.tmMin.toNat ++ ascii ':' :: padded 2 t.tmSec.toNat) := by
    simp only [Directive.print, Directive.digits, NumberField.width, NumberField.number,
      List.append_assoc, List.cons_append]
  rw [hprint, print_paddedMday, hclock, padded_four]
  simp only [Directive.print, List.nil_append,
    List.append_assoc, List.cons_append, List.append_nil]

theorem separated_asctimeFormat {t : Tm} (hprintable : Printable t) (behind : List Byte) :
    Separated t (ascii '\n' :: behind) asctimeFormat := by
  have hmonths : ∀ i < 12, StartsNot isspace (abmon.getD i []) ∧ abmon.getD i [] ≠ [] := by decide
  have hletter : isalpha (ascii ' ') = false := by decide
  have hdigit : isdigit (ascii ' ') = false := by decide
  have hmon := hprintable.mon
  obtain ⟨hname, hne⟩ := hmonths t.tmMon.toNat (by omega)
  refine ⟨(startsNot_cons ..).mpr hletter, ?_, ?_, (startsNot_cons ..).mpr hdigit, ?_, trivial, ?_,
    trivial, trivial⟩
  · rw [printOf, List.flatMap_cons, List.append_assoc]
    exact hname.append hne _
  · rw [printOf, List.flatMap_cons, print_paddedMday]
    exact (startsNot_cons ..).mpr hletter
  · rw [printOf, List.flatMap_cons, Directive.print, Directive.digits, List.append_assoc,
      List.append_assoc, List.append_assoc]
    exact startsNot_isspace_padded 1 _ _
  · rw [printOf, List.flatMap_cons, Directive.print, Directive.digits, List.append_assoc]
    exact startsNot_isspace_padded 3 _ _

/-- `strptime` reads back what `asctime_r` wrote and stops at the line feed, whatever lies behind
the buffer. -/
theorem strptime_asctimeR (t : Tm) (buf : Mem) (behind : List Byte) (vars : Vars)
    (hprintable : Printable t) :
    (strptime (bytes (asctimeR t buf) 0 25 ++ behind) (formatOf asctimeFormat) vars).1 =
        some (ascii '\n' :: behind) ∧
      (strptime (bytes (asctimeR t buf) 0 25 ++ behind) (formatOf asctimeFormat) vars).2.tm =
        { t with tmYday := vars.tm.tmYday } := by
  obtain ⟨vars', hholds, hcall⟩ :=
    strptime_of_printOf hprintable (separated_asctimeFormat hprintable behind) vars
  have hyears : YearReadable t asctimeFormat := fun hany ↦ absurd hany (by decide)
  rw [bytes_asctimeR hprintable, List.append_assoc, List.singleton_append, hcall]
  exact ⟨rfl, evaluateYear_of_holds hprintable hholds hyears⟩

/-- `Wed Jun 30 21:49:08 1993`, the text of the comment in the source. -/
theorem strptime_asctimeR_endOfJune :
    (strptime (bytes (asctimeR endOfJune fun _ ↦ 0) 0 25 ++ [1]) (formatOf asctimeFormat)
        ⟨endOfJune, 0, 0⟩).1 = some (ascii '\n' :: [1]) ∧
      (strptime (bytes (asctimeR endOfJune fun _ ↦ 0) 0 25 ++ [1]) (formatOf asctimeFormat)
        ⟨endOfJune, 0, 0⟩).2.tm = { endOfJune with tmYday := 180 } :=
  strptime_asctimeR endOfJune (fun _ ↦ 0) [1] ⟨endOfJune, 0, 0⟩ printable_endOfJune

end ProjectSensor.Api
