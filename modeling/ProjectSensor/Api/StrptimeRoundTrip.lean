import ProjectSensor.Api.Strptime

/-!
# What `strptime` makes of printed times

A format is a row of directives, and each of them prints a part of a time.  `strptime` reads what a
format prints back into the fields that the format has, and stops behind it, whatever follows.

A directive is read in front of any text that cannot be taken for a part of it.  Two-digit years
stand for the years from 1969 to 2068; with a century in the format all years are read back but
those from 1900 to 1968, for a century of 19 is taken for none.
-/

open ProjectSensor.Library.ByteMemory ProjectSensor.Library.Ascii

namespace ProjectSensor.Api

variable {nested : List Byte → List Byte → Vars → Parsed}

/-! ### Reading a piece of the text -/

/-- In front of `rest`, the format reads the piece and changes the variables. -/
def Reads (nested : List Byte → List Byte → Vars → Parsed) (fmt s rest : List Byte)
    (change : Vars → Vars) : Prop :=
  ∀ fmt' vars, strptimeLoop nested none (fmt ++ fmt') (s ++ rest) vars =
    strptimeLoop nested none fmt' rest (change vars)

/-- Two pieces, one behind the other. -/
theorem Reads.append {fmt fmt' s s' rest : List Byte} {change change' : Vars → Vars}
    (hfirst : Reads nested fmt s (s' ++ rest) change)
    (hsecond : Reads nested fmt' s' rest change') :
    Reads nested (fmt ++ fmt') (s ++ s') rest fun vars ↦ change' (change vars) := by
  intro fmt'' vars
  rw [List.append_assoc, List.append_assoc, hfirst, hsecond]

/-- The whole format. -/
theorem Reads.finish {fmt s rest : List Byte} {change : Vars → Vars}
    (hreads : Reads nested fmt s rest change) (vars : Vars) :
    strptimeLoop nested none fmt (s ++ rest) vars = (some rest, evaluateYear (change vars)) := by
  have hfmt := hreads [] vars
  rwa [List.append_nil] at hfmt

theorem legalAlt_zero (x : BitVec 32) : legalAlt 0 x = true := by
  change decide (0#32 &&& ~~~x = 0#32) = true
  rw [BitVec.zero_and]
  rfl

/-- A conversion without modifiers. -/
theorem reads_conversion {c : Byte} {case : Case} (hcase : caseOf c = some case)
    (hmodifier : ∀ alt, case.conversion ≠ .modifier alt) {s rest : List Byte}
    {change : Vars → Vars}
    (hconvert : ∀ vars, convertCase nested case.conversion (s ++ rest) vars =
      (some rest, change vars)) :
    Reads nested [ascii '%', c] s rest change := by
  intro fmt' vars
  have hlegal : case.legal.all (legalAlt 0) = true := List.all_eq_true.mpr fun x _ ↦ legalAlt_zero x
  have hpercent : isspace (ascii '%') = false := by decide
  rw [List.cons_append, List.cons_append, List.nil_append, strptimeLoop, hpercent,
    if_neg Bool.false_ne_true, if_pos rfl, strptimeLoop_convert hcase hlegal hmodifier, hconvert]

theorem reads_number {c : Byte} {legal : List (BitVec 32)} {llim ulim : ℕ}
    {set : ℕ → Vars → Vars} (hcase : caseOf c = some ⟨legal, .number llim ulim set⟩)
    (hulim : 0 < ulim) {n : ℕ} {s rest : List Byte} (hreads : ReadsNumber llim ulim n s rest) :
    Reads nested [ascii '%', c] s rest (set n) := by
  apply reads_conversion hcase (fun alt ↦ by simp)
  intro vars
  have hconv := (convNum_eq_some_iff hulim (s ++ rest) rest n).mpr ⟨s, rfl, hreads⟩
  simp only [convertCase, hconv]

/-- All the digits that the limit has. -/
theorem readsNumber_padded {llim ulim width n : ℕ} (hlow : llim ≤ n) (hhigh : n ≤ ulim)
    (hwidth : 10 ^ (width - 1) ≤ ulim ∧ ulim < 10 ^ width) (rest : List Byte) :
    ReadsNumber llim ulim n (padded width n) rest where
  nonempty := by
    rintro hnil
    have hlength := length_padded width n
    rw [hnil, List.length_nil] at hlength
    subst hlength
    omega
  digits := fun c hc ↦ isdigit_of_mem_padded hc
  value := valueFrom_padded (hhigh.trans_lt hwidth.2)
  low := hlow
  high := hhigh
  short := by
    rw [length_padded]
    exact hwidth.1
  maximal := by
    rw [length_padded]
    exact .inl hwidth.2

/-- One digit, and no digit behind it. -/
theorem readsNumber_digit {llim ulim d : ℕ} (hd : d < 10) (hlow : llim ≤ d) (hhigh : d ≤ ulim)
    (hulim : 0 < ulim) {rest : List Byte} (hrest : StartsNot isdigit rest) :
    ReadsNumber llim ulim d [digitChar d] rest where
  nonempty := List.cons_ne_nil _ _
  digits := fun c hc ↦ by rw [List.mem_singleton.mp hc]; exact isdigit_digitChar hd
  value := by rw [valueFrom_cons, valueFrom_nil, digitValue_digitChar hd, zero_mul, zero_add]
  low := hlow
  high := hhigh
  short := hulim
  maximal := .inr (.inr hrest)

/-! ### Names -/

theorem isalpha_tolower : ∀ c : Byte, isalpha (tolower c) = isalpha c := by decide

/-- What is no letter does not change whether a name is found in front of it. -/
theorem matchesName_append {name : List Byte} (hname : ∀ c ∈ name, isalpha c = true) (s : List Byte)
    {rest : List Byte} (hrest : StartsNot isalpha rest) :
    matchesName name (s ++ rest) = matchesName name s := by
  unfold matchesName
  rcases Nat.lt_or_ge s.length name.length with hshort | hle
  · have hne : name.map tolower ≠ (s.take name.length).map tolower := by
      intro heq
      have hlength := congrArg List.length heq
      rw [List.length_map, List.length_map, List.length_take] at hlength
      omega
    have hne' : name.map tolower ≠ ((s ++ rest).take name.length).map tolower := by
      intro heq
      cases rest with
      | nil =>
          rw [List.append_nil] at heq
          exact hne heq
      | cons c rest =>
          have hc := (startsNot_cons isalpha c rest).mp hrest
          have hplace := congrArg (fun l ↦ l[s.length]?) heq
          simp only [List.getElem?_map, List.getElem?_take_of_lt hshort,
            List.getElem?_append_right le_rfl, Nat.sub_self, List.getElem?_cons_zero,
            List.getElem?_eq_getElem hshort, Option.map_some, Option.some.injEq] at hplace
          have hletter := hname _ (List.getElem_mem hshort)
          rw [← isalpha_tolower, hplace, isalpha_tolower, hc] at hletter
          exact Bool.false_ne_true hletter
    rw [decide_eq_false hne, decide_eq_false hne']
  · rw [List.take_append_of_le_length hle]

theorem findName_append {full abbreviated : List (List Byte)}
    (hfull : ∀ name ∈ full, ∀ c ∈ name, isalpha c = true)
    (habbreviated : ∀ name ∈ abbreviated, ∀ c ∈ name, isalpha c = true) (s : List Byte)
    {rest : List Byte} (hrest : StartsNot isalpha rest) (i : ℕ) :
    findName (s ++ rest) full abbreviated i = findName s full abbreviated i := by
  induction full generalizing abbreviated i with
  | nil => rw [findName, findName] <;> simp
  | cons name full ih =>
      cases abbreviated with
      | nil => rw [findName, findName] <;> simp
      | cons short abbreviated =>
          have hname := hfull name List.mem_cons_self
          have hshort := habbreviated short List.mem_cons_self
          rw [findName, findName, matchesName_append hname s hrest,
            matchesName_append hshort s hrest,
            ih (fun n hn ↦ hfull n (List.mem_cons_of_mem _ hn))
              (fun n hn ↦ habbreviated n (List.mem_cons_of_mem _ hn))]

theorem isalpha_names : (∀ name ∈ day, ∀ c ∈ name, isalpha c = true) ∧
    (∀ name ∈ abday, ∀ c ∈ name, isalpha c = true) ∧
    (∀ name ∈ mon, ∀ c ∈ name, isalpha c = true) ∧
    ∀ name ∈ abmon, ∀ c ∈ name, isalpha c = true := by
  -- to decide it as it stands would go through all bytes
  simp only [← List.all_eq_true]
  decide

theorem findName_abday : ∀ i < 7, findName (abday.getD i []) day abday 0 = some (i, 3) ∧
    (abday.getD i []).length = 3 := by decide

theorem findName_abmon : ∀ i < 12, findName (abmon.getD i []) mon abmon 0 = some (i, 3) ∧
    (abmon.getD i []).length = 3 := by decide

/-- An abbreviated name in front of what is no letter. -/
theorem reads_name {c : Byte} {legal : List (BitVec 32)} {full abbreviated : List (List Byte)}
    {set : ℕ → Vars → Vars} (hcase : caseOf c = some ⟨legal, .name full abbreviated set⟩)
    (hfull : ∀ name ∈ full, ∀ c ∈ name, isalpha c = true)
    (habbreviated : ∀ name ∈ abbreviated, ∀ c ∈ name, isalpha c = true) {i : ℕ} {s : List Byte}
    (hfind : findName s full abbreviated 0 = some (i, s.length)) {rest : List Byte}
    (hrest : StartsNot isalpha rest) : Reads nested [ascii '%', c] s rest (set i) := by
  apply reads_conversion hcase (fun alt ↦ by simp)
  intro vars
  have happend := findName_append hfull habbreviated s hrest 0
  rw [hfind] at happend
  simp only [convertCase, happend, List.drop_left]

/-! ### Blanks, characters and formats of their own -/

theorem reads_blank {s rest : List Byte} (hs : ∀ c ∈ s, isspace c = true)
    (hrest : StartsNot isspace rest) : Reads nested [ascii ' '] s rest id := by
  intro fmt' vars
  have hspace : isspace (ascii ' ') = true := by decide
  rw [List.cons_append, List.nil_append, strptimeLoop, if_pos hspace,
    List.dropWhile_append_of_pos hs, dropWhile_of_startsNot hrest]
  rfl

theorem reads_literal {c : Byte} (hspace : isspace c = false) (hpercent : c ≠ ascii '%')
    {rest : List Byte} : Reads nested [c] [c] rest id := by
  intro fmt' vars
  rw [List.cons_append, List.cons_append, List.nil_append, List.nil_append, strptimeLoop, hspace,
    if_neg Bool.false_ne_true, if_neg hpercent, eat, if_pos rfl]
  rfl

theorem reads_complex {c : Byte} {legal : List (BitVec 32)} {fmt : List Byte}
    (hcase : caseOf c = some ⟨legal, .complex fmt⟩) {s rest : List Byte} {change : Vars → Vars}
    (hreads : Reads (fun _ _ vars ↦ (none, vars)) fmt s rest change) :
    Reads (strptimeAt 0) [ascii '%', c] s rest fun vars ↦ evaluateYear (change vars) := by
  apply reads_conversion hcase (fun alt ↦ by simp)
  intro vars
  exact hreads.finish vars

/-! ### Directives -/

/-- Fields printed as numbers of a fixed width. -/
inductive NumberField where
  | sec | min | hour | mday | mon | year | century | relyear | wday | yday
  deriving DecidableEq

/-- The year itself. -/
def Tm.year (tm : Tm) : ℕ := (tm.tmYear + tmYearBase).toNat

namespace NumberField

/-- The character of the conversion. -/
def char : NumberField → Byte
  | sec => ascii 'S'
  | min => ascii 'M'
  | hour => ascii 'H'
  | mday => ascii 'd'
  | mon => ascii 'm'
  | year => ascii 'Y'
  | century => ascii 'C'
  | relyear => ascii 'y'
  | wday => ascii 'w'
  | yday => ascii 'j'

def width : NumberField → ℕ
  | year => 4
  | yday => 3
  | wday => 1
  | _ => 2

/-- The number that is printed. -/
def number (tm : Tm) : NumberField → ℕ
  | sec => tm.tmSec.toNat
  | min => tm.tmMin.toNat
  | hour => tm.tmHour.toNat
  | mday => tm.tmMday.toNat
  | mon => tm.tmMon.toNat + 1
  | year => tm.year
  | century => tm.year / 100
  | relyear => tm.year % 100
  | wday => tm.tmWday.toNat
  | yday => tm.tmYday.toNat + 1

end NumberField

/-- A part of a format. -/
inductive Directive where
  | number (field : NumberField)
  /-- `%a` -/
  | dayName
  /-- `%b` -/
  | monthName
  /-- a blank and `%d`, which prints a one-digit day behind one more blank -/
  | paddedMday
  /-- `%D` -/
  | date
  /-- `%R` -/
  | hourMinute
  /-- `%T` -/
  | clock
  | blank
  /-- any other character but `%` -/
  | literal (c : Byte)
  deriving DecidableEq

namespace Directive

def format : Directive → List Byte
  | number field => [ascii '%', field.char]
  | dayName => [ascii '%', ascii 'a']
  | monthName => [ascii '%', ascii 'b']
  | paddedMday => [ascii ' ', ascii '%', ascii 'd']
  | date => [ascii '%', ascii 'D']
  | hourMinute => [ascii '%', ascii 'R']
  | clock => [ascii '%', ascii 'T']
  | blank => [ascii ' ']
  | literal c => [c]

/-- The text of a number. -/
def digits (tm : Tm) (field : NumberField) : List Byte := padded field.width (field.number tm)

/-- The text that is printed. -/
def print (tm : Tm) : Directive → List Byte
  | number field => digits tm field
  | dayName => abday.getD tm.tmWday.toNat []
  | monthName => abmon.getD tm.tmMon.toNat []
  | paddedMday =>
      if tm.tmMday < 10 then [ascii ' ', ascii ' ', digitChar tm.tmMday.toNat]
      else ascii ' ' :: digits tm .mday
  | date => digits tm .mon ++ ascii '/' :: digits tm .mday ++ ascii '/' :: digits tm .relyear
  | hourMinute => digits tm .hour ++ ascii ':' :: digits tm .min
  | clock => digits tm .hour ++ ascii ':' :: digits tm .min ++ ascii ':' :: digits tm .sec
  | blank => [ascii ' ']
  | literal c => [c]

/-- The fields that a directive tells, taken over from the printed time. -/
def restore (tm tm' : Tm) : Directive → Tm
  | number .sec => { tm' with tmSec := tm.tmSec }
  | number .min => { tm' with tmMin := tm.tmMin }
  | number .hour => { tm' with tmHour := tm.tmHour }
  | number .mday | paddedMday => { tm' with tmMday := tm.tmMday }
  | number .mon | monthName => { tm' with tmMon := tm.tmMon }
  | number .year | number .relyear => { tm' with tmYear := tm.tmYear }
  | number .wday | dayName => { tm' with tmWday := tm.tmWday }
  | number .yday => { tm' with tmYday := tm.tmYday }
  | date => { tm' with tmMon := tm.tmMon, tmMday := tm.tmMday, tmYear := tm.tmYear }
  | hourMinute => { tm' with tmHour := tm.tmHour, tmMin := tm.tmMin }
  | clock => { tm' with tmHour := tm.tmHour, tmMin := tm.tmMin, tmSec := tm.tmSec }
  | number .century | blank | literal _ => tm'

/-- The text behind a directive cannot be taken for a part of it. -/
def Before (s : List Byte) : Directive → Prop
  | dayName | monthName => StartsNot isalpha s
  | paddedMday => StartsNot isdigit s
  | blank => StartsNot isspace s
  | literal c => isspace c = false ∧ c ≠ ascii '%'
  | _ => True

/-- The two-digit year is read. -/
def isRelyear : Directive → Bool
  | number .relyear | date => true
  | _ => false

end Directive

/-- A format. -/
def formatOf (directives : List Directive) : List Byte := directives.flatMap Directive.format

/-- What the format prints. -/
def printOf (tm : Tm) (directives : List Directive) : List Byte :=
  directives.flatMap (Directive.print tm)

/-- The fields of the format, taken over from the printed time. -/
def restoreAll (tm tm' : Tm) (directives : List Directive) : Tm :=
  directives.foldl (Directive.restore tm) tm'

/-- No directive runs into the text behind it. -/
def Separated (tm : Tm) (rest : List Byte) : List Directive → Prop
  | [] => True
  | directive :: directives =>
      directive.Before (printOf tm directives ++ rest) ∧ Separated tm rest directives

/-- The fields of a time that can be printed. -/
structure Printable (tm : Tm) : Prop where
  sec : 0 ≤ tm.tmSec ∧ tm.tmSec ≤ 61
  min : 0 ≤ tm.tmMin ∧ tm.tmMin ≤ 59
  hour : 0 ≤ tm.tmHour ∧ tm.tmHour ≤ 23
  mday : 1 ≤ tm.tmMday ∧ tm.tmMday ≤ 31
  mon : 0 ≤ tm.tmMon ∧ tm.tmMon ≤ 11
  year : -1900 ≤ tm.tmYear ∧ tm.tmYear ≤ 8099
  wday : 0 ≤ tm.tmWday ∧ tm.tmWday ≤ 6
  yday : 0 ≤ tm.tmYday ∧ tm.tmYday ≤ 365

/-- A two-digit year can be read back. -/
def YearReadable (tm : Tm) (directives : List Directive) : Prop :=
  directives.any Directive.isRelyear →
    if Directive.number .century ∈ directives then ¬ (1900 ≤ tm.year ∧ tm.year ≤ 1968)
    else 1969 ≤ tm.year ∧ tm.year ≤ 2068

/-! ### What a directive does -/

namespace NumberField

def llim : NumberField → ℕ
  | mday | mon | yday => 1
  | _ => 0

def ulim : NumberField → ℕ
  | sec => 61
  | min => 59
  | hour => 23
  | mday => 31
  | mon => 12
  | year => 9999
  | century | relyear => 99
  | wday => 6
  | yday => 366

def set : NumberField → ℕ → Vars → Vars
  | sec => setSec
  | min => setMin
  | hour => setHour
  | mday => setMday
  | mon => fun i ↦ setMon (i - 1)
  | year => setYear
  | century => setCentury
  | relyear => setRelyear
  | wday => setWday
  | yday => fun i ↦ setYday (i - 1)

theorem caseOf_char (field : NumberField) :
    ∃ legal, caseOf field.char = some ⟨legal, .number field.llim field.ulim field.set⟩ := by
  cases field <;> exact ⟨_, rfl⟩

theorem width_spec (field : NumberField) :
    10 ^ (field.width - 1) ≤ field.ulim ∧ field.ulim < 10 ^ field.width := by
  cases field <;> decide

theorem number_range {tm : Tm} (hprintable : Printable tm) (field : NumberField) :
    field.llim ≤ field.number tm ∧ field.number tm ≤ field.ulim := by
  have hyear := hprintable.year
  have hlast : tm.year ≤ 9999 := by
    unfold Tm.year tmYearBase
    omega
  obtain ⟨hsec, hmin, hhour, hmday, hmon, -, hwday, hyday⟩ := hprintable
  cases field <;> simp only [llim, ulim, number] <;> omega

end NumberField

/-- The digits of a field are read in front of any text. -/
theorem reads_digits {tm : Tm} (hprintable : Printable tm) (field : NumberField)
    (rest : List Byte) :
    Reads nested [ascii '%', field.char] (Directive.digits tm field) rest
      (field.set (field.number tm)) := by
  obtain ⟨legal, hcase⟩ := field.caseOf_char
  obtain ⟨hlow, hhigh⟩ := field.number_range hprintable
  have hulim : 0 < field.ulim := by cases field <;> decide
  exact reads_number hcase hulim (readsNumber_padded hlow hhigh field.width_spec rest)

namespace Directive

/-- What reading the directive does to the variables. -/
def effect (tm : Tm) : Directive → Vars → Vars
  | number field => field.set (field.number tm)
  | dayName => setWday tm.tmWday.toNat
  | monthName => setMon tm.tmMon.toNat
  | paddedMday => setMday tm.tmMday.toNat
  | date => fun vars ↦ evaluateYear (NumberField.relyear.set (NumberField.relyear.number tm)
      (NumberField.mday.set (NumberField.mday.number tm)
        (NumberField.mon.set (NumberField.mon.number tm) vars)))
  | hourMinute => fun vars ↦ evaluateYear (NumberField.min.set (NumberField.min.number tm)
      (NumberField.hour.set (NumberField.hour.number tm) vars))
  | clock => fun vars ↦ evaluateYear (NumberField.sec.set (NumberField.sec.number tm)
      (NumberField.min.set (NumberField.min.number tm)
        (NumberField.hour.set (NumberField.hour.number tm) vars)))
  | blank | literal _ => id

end Directive

/-- Numbers with a character between them. -/
theorem Reads.literal_append {c : Byte} (hspace : isspace c = false) (hpercent : c ≠ ascii '%')
    {fmt s rest : List Byte} {change : Vars → Vars} (hreads : Reads nested fmt s rest change) :
    Reads nested (c :: fmt) (c :: s) rest change :=
  (reads_literal hspace hpercent).append hreads

theorem reads_paddedMday {tm : Tm} (hprintable : Printable tm) {rest : List Byte}
    (hrest : StartsNot isdigit rest) :
    Reads nested Directive.paddedMday.format (Directive.paddedMday.print tm) rest
      (Directive.paddedMday.effect tm) := by
  obtain ⟨legal, hcase⟩ := NumberField.mday.caseOf_char
  have hmday := hprintable.mday
  rw [Directive.print]
  split
  case isTrue hlt =>
    have hd : tm.tmMday.toNat < 10 := by omega
    have hnumber : ReadsNumber 1 31 tm.tmMday.toNat [digitChar tm.tmMday.toNat] rest :=
      readsNumber_digit hd (by omega) (by omega) (by decide) hrest
    have hblanks : Reads nested [ascii ' '] [ascii ' ', ascii ' ']
        ([digitChar tm.tmMday.toNat] ++ rest) id := by
      apply reads_blank (by decide)
      rw [List.cons_append, startsNot_cons]
      exact (digit_facts _ hd).2.2.1
    exact hblanks.append (reads_number hcase (by decide) hnumber)
  case isFalse hge =>
    have hblank : Reads nested [ascii ' '] [ascii ' '] (Directive.digits tm .mday ++ rest) id := by
      apply reads_blank (by decide)
      have hd : tm.tmMday.toNat / 10 % 10 < 10 := Nat.mod_lt _ (by decide)
      exact (startsNot_cons ..).mpr (digit_facts _ hd).2.2.1
    exact hblank.append (reads_digits hprintable .mday rest)

/-- Every directive is read in front of what cannot be taken for a part of it. -/
theorem Directive.reads {tm : Tm} (hprintable : Printable tm) (directive : Directive)
    {rest : List Byte} (hbefore : directive.Before rest) :
    Reads (strptimeAt 0) directive.format (directive.print tm) rest (directive.effect tm) := by
  have hslash : isspace (ascii '/') = false ∧ ascii '/' ≠ ascii '%' := by decide
  have hcolon : isspace (ascii ':') = false ∧ ascii ':' ≠ ascii '%' := by decide
  cases directive with
  | number field => exact reads_digits hprintable field rest
  | dayName =>
      have hwday := hprintable.wday
      obtain ⟨hfind, hlength⟩ := findName_abday tm.tmWday.toNat (by omega)
      have hcase : caseOf (ascii 'a') = some ⟨[0], .name day abday setWday⟩ := rfl
      rw [← hlength] at hfind
      exact reads_name hcase isalpha_names.1 isalpha_names.2.1 hfind hbefore
  | monthName =>
      have hmon := hprintable.mon
      obtain ⟨hfind, hlength⟩ := findName_abmon tm.tmMon.toNat (by omega)
      have hcase : caseOf (ascii 'b') = some ⟨[0], .name mon abmon setMon⟩ := rfl
      rw [← hlength] at hfind
      exact reads_name hcase isalpha_names.2.2.1 isalpha_names.2.2.2 hfind hbefore
  | paddedMday => exact reads_paddedMday hprintable hbefore
  | date =>
      have hcase : caseOf (ascii 'D') =
        some ⟨[0], .complex (text ['%', 'm', '/', '%', 'd', '/', '%', 'y'])⟩ := rfl
      apply reads_complex hcase
      rw [Directive.print, List.append_assoc]
      exact (reads_digits hprintable .mon _).append
        ((Reads.literal_append hslash.1 hslash.2 (reads_digits hprintable .mday _)).append
          (Reads.literal_append hslash.1 hslash.2 (reads_digits hprintable .relyear _)))
  | hourMinute =>
      have hcase : caseOf (ascii 'R') =
        some ⟨[0], .complex (text ['%', 'H', ':', '%', 'M'])⟩ := rfl
      apply reads_complex hcase
      exact (reads_digits hprintable .hour _).append
        (Reads.literal_append hcolon.1 hcolon.2 (reads_digits hprintable .min _))
  | clock =>
      have hcase : caseOf (ascii 'T') =
        some ⟨[0], .complex (text ['%', 'H', ':', '%', 'M', ':', '%', 'S'])⟩ := rfl
      apply reads_complex hcase
      rw [Directive.print, List.append_assoc]
      exact (reads_digits hprintable .hour _).append
        ((Reads.literal_append hcolon.1 hcolon.2 (reads_digits hprintable .min _)).append
          (Reads.literal_append hcolon.1 hcolon.2 (reads_digits hprintable .sec _)))
  | blank =>
      have hspace : ∀ c ∈ [ascii ' '], isspace c = true := by decide
      exact reads_blank hspace hbefore
  | literal c => exact reads_literal hbefore.1 hbefore.2

/-! ### The round trip -/

/-- The variables once the directives `done` are read: the century and the two-digit year wait for
the end of the format. -/
structure Holds (tm tm' : Tm) (done : List Directive) (vars : Vars) : Prop where
  fields : { vars.tm with tmYear := (restoreAll tm tm' done).tmYear } = restoreAll tm tm' done
  century : vars.century =
    if Directive.number .century ∈ done then ((tm.year / 100 * 100 : ℕ) : ℤ) else tmYearBase
  year : vars.relyear = -1 ∧ vars.tm.tmYear = (restoreAll tm tm' done).tmYear ∧
      (done.any Directive.isRelyear = true → Directive.number .year ∈ done) ∨
    vars.relyear = (tm.year % 100 : ℕ) ∧ (restoreAll tm tm' done).tmYear = tm.tmYear ∧
      done.any Directive.isRelyear = true

theorem evaluateYear_century (vars : Vars) : (evaluateYear vars).century = vars.century := by
  unfold evaluateYear
  split <;> rfl

theorem evaluateYear_relyear (vars : Vars) : (evaluateYear vars).relyear = vars.relyear := by
  unfold evaluateYear
  split <;> rfl

theorem evaluateYear_fields (vars : Vars) (tmYear : ℤ) :
    { (evaluateYear vars).tm with tmYear := tmYear } = { vars.tm with tmYear := tmYear } := by
  unfold evaluateYear
  split <;> rfl

theorem evaluateYear_of_none {vars : Vars} (hnone : vars.relyear = -1) :
    evaluateYear vars = vars := by
  rw [evaluateYear, if_neg (not_not.mpr hnone)]

theorem restoreAll_append (tm tm' : Tm) (done : List Directive) (directive : Directive) :
    restoreAll tm tm' (done ++ [directive]) = directive.restore tm (restoreAll tm tm' done) := by
  rw [restoreAll, List.foldl_append]
  rfl

/-- Apart from the year, the fields are those of the directives so far. -/
theorem effect_fields {tm t : Tm} (hprintable : Printable tm) {vars : Vars}
    (hfields : { vars.tm with tmYear := t.tmYear } = t) (directive : Directive) :
    { (directive.effect tm vars).tm with tmYear := (directive.restore tm t).tmYear } =
      directive.restore tm t := by
  have hsec : ((tm.tmSec.toNat : ℕ) : ℤ) = tm.tmSec := Int.toNat_of_nonneg hprintable.sec.1
  have hmin : ((tm.tmMin.toNat : ℕ) : ℤ) = tm.tmMin := Int.toNat_of_nonneg hprintable.min.1
  have hhour : ((tm.tmHour.toNat : ℕ) : ℤ) = tm.tmHour := Int.toNat_of_nonneg hprintable.hour.1
  have hmday : ((tm.tmMday.toNat : ℕ) : ℤ) = tm.tmMday :=
    Int.toNat_of_nonneg (by linarith [hprintable.mday.1])
  have hmon : ((tm.tmMon.toNat : ℕ) : ℤ) = tm.tmMon := Int.toNat_of_nonneg hprintable.mon.1
  have hwday : ((tm.tmWday.toNat : ℕ) : ℤ) = tm.tmWday := Int.toNat_of_nonneg hprintable.wday.1
  have hyday : ((tm.tmYday.toNat : ℕ) : ℤ) = tm.tmYday := Int.toNat_of_nonneg hprintable.yday.1
  generalize t.tmYear = tmYear at hfields
  subst hfields
  cases directive with
  | number field =>
      cases field <;>
        simp only [Directive.effect, Directive.restore, NumberField.set, NumberField.number, setSec,
          setMin, setHour, setMday, setMon, setYear, setCentury, setRelyear, setWday, setYday,
          Nat.add_sub_cancel, hsec, hmin, hhour, hmday, hmon, hwday, hyday]
  | date | hourMinute | clock =>
      simp only [Directive.effect, Directive.restore, evaluateYear_fields, NumberField.set,
        NumberField.number, setSec, setMin, setHour, setMday, setMon, setRelyear,
        Nat.add_sub_cancel, hsec, hmin, hhour, hmday, hmon]
  | _ =>
      simp only [Directive.effect, Directive.restore, setMday, setMon, setWday, hmday, hmon, hwday,
        id]

theorem effect_century (tm : Tm) (directive : Directive) (vars : Vars) :
    (directive.effect tm vars).century =
      if directive = .number .century then ((tm.year / 100 * 100 : ℕ) : ℤ) else vars.century := by
  cases directive with
  | number field => cases field <;> rfl
  | date | hourMinute | clock => exact evaluateYear_century _
  | _ => rfl

/-- What a directive does to the year, and to the two-digit year that waits. -/
theorem effect_year {tm : Tm} (hprintable : Printable tm) (directive : Directive) (t : Tm)
    (vars : Vars) :
    ((directive.effect tm vars).relyear = -1 ∧ (directive.effect tm vars).tm.tmYear = tm.tmYear ∧
        (directive.restore tm t).tmYear = tm.tmYear ∧ directive = .number .year) ∨
      ((directive.effect tm vars).relyear = (tm.year % 100 : ℕ) ∧
        (directive.restore tm t).tmYear = tm.tmYear ∧ directive.isRelyear = true) ∨
      ((directive.effect tm vars).relyear = vars.relyear ∧
        (directive.restore tm t).tmYear = t.tmYear ∧
        (vars.relyear = -1 → (directive.effect tm vars).tm.tmYear = vars.tm.tmYear) ∧
        directive.isRelyear = false) := by
  have hyear : ((tm.year : ℕ) : ℤ) - tmYearBase = tm.tmYear := by
    have hlow := hprintable.year.1
    unfold Tm.year tmYearBase
    omega
  cases directive with
  | number field =>
      cases field with
      | year => exact .inl ⟨rfl, hyear, rfl, rfl⟩
      | relyear => exact .inr (.inl ⟨rfl, rfl, rfl⟩)
      | _ => exact .inr (.inr ⟨rfl, rfl, fun _ ↦ rfl, rfl⟩)
  | date =>
      refine .inr (.inl ⟨?_, rfl, rfl⟩)
      exact evaluateYear_relyear _
  | hourMinute | clock =>
      refine .inr (.inr ⟨evaluateYear_relyear _, rfl, fun hnone ↦ ?_, rfl⟩)
      simp only [Directive.effect]
      rw [evaluateYear_of_none] <;> first | exact hnone | rfl
  | _ => exact .inr (.inr ⟨rfl, rfl, fun _ ↦ rfl, rfl⟩)

theorem holds_effect {tm tm' : Tm} (hprintable : Printable tm) {done : List Directive}
    {vars : Vars} (hholds : Holds tm tm' done vars) (directive : Directive) :
    Holds tm tm' (done ++ [directive]) (directive.effect tm vars) where
  fields := by
    rw [restoreAll_append]
    exact effect_fields hprintable hholds.fields directive
  century := by
    rw [effect_century, hholds.century]
    simp only [List.mem_append, List.mem_singleton, eq_comm (a := Directive.number .century)]
    split_ifs with hnow hbefore <;> tauto
  year := by
    rw [restoreAll_append, List.any_append]
    rcases effect_year hprintable directive (restoreAll tm tm' done) vars with
      ⟨hrelyear, hyear, hrestore, rfl⟩ | ⟨hrelyear, hrestore, hdirective⟩ |
      ⟨hrelyear, hrestore, hsame, hdirective⟩
    · exact .inl ⟨hrelyear, hyear.trans hrestore.symm, fun _ ↦ by simp⟩
    · refine .inr ⟨hrelyear, hrestore, ?_⟩
      rw [List.any_cons, hdirective, Bool.true_or, Bool.or_true]
    · rw [hrelyear, hrestore]
      rcases hholds.year with ⟨hnone, hyear, hfour⟩ | ⟨hset, hyear, hany⟩
      · refine .inl ⟨hnone, (hsame hnone).trans hyear, fun hany ↦ ?_⟩
        rw [List.any_cons, hdirective, List.any_nil, Bool.or_self, Bool.or_false] at hany
        exact List.mem_append_left _ (hfour hany)
      · refine .inr ⟨hset, hyear, ?_⟩
        rw [hany, Bool.true_or]

/-- The loop over a format reads what the format printed. -/
theorem strptimeLoop_printOf {tm tm' : Tm} (hprintable : Printable tm) {rest : List Byte}
    (directives : List Directive) (hseparated : Separated tm rest directives)
    {done : List Directive} {vars : Vars} (hholds : Holds tm tm' done vars) :
    ∃ vars', Holds tm tm' (done ++ directives) vars' ∧
      strptimeLoop (strptimeAt 0) none (formatOf directives) (printOf tm directives ++ rest) vars =
        (some rest, evaluateYear vars') := by
  induction directives generalizing done vars with
  | nil =>
      refine ⟨vars, ?_, rfl⟩
      rwa [List.append_nil]
  | cons directive directives ih =>
      obtain ⟨hbefore, hrest⟩ := hseparated
      have hreads := directive.reads hprintable hbefore
      obtain ⟨vars', hholds', hloop⟩ := ih hrest (holds_effect hprintable hholds directive)
      rw [List.append_assoc, List.singleton_append] at hholds'
      refine ⟨vars', hholds', ?_⟩
      have hformat : formatOf (directive :: directives) =
          directive.format ++ formatOf directives := List.flatMap_cons
      have hprint : printOf tm (directive :: directives) =
          directive.print tm ++ printOf tm directives := List.flatMap_cons
      rw [hformat, hprint, List.append_assoc, hreads]
      exact hloop

/-- The years that two digits stand for, with a century and without. -/
theorem evaluateYear_eq_iff {tm : Tm} (hprintable : Printable tm) {done : List Directive}
    {vars : Vars} (hset : vars.relyear = (tm.year % 100 : ℕ))
    (hcentury : vars.century =
      if Directive.number .century ∈ done then ((tm.year / 100 * 100 : ℕ) : ℤ) else tmYearBase) :
    (evaluateYear vars).tm.tmYear = tm.tmYear ↔
      if Directive.number .century ∈ done then ¬ (1900 ≤ tm.year ∧ tm.year ≤ 1968)
      else 1969 ≤ tm.year ∧ tm.year ≤ 2068 := by
  have hlow := hprintable.year.1
  unfold evaluateYear
  rw [if_pos (by omega)]
  simp only [hset]
  unfold Tm.year tmYearBase at *
  split_ifs at hcentury ⊢ <;> omega

/-- At the end of the format the year is that of the time. -/
theorem evaluateYear_of_holds {tm tm' : Tm} (hprintable : Printable tm) {done : List Directive}
    {vars : Vars} (hholds : Holds tm tm' done vars) (hreadable : YearReadable tm done) :
    (evaluateYear vars).tm = restoreAll tm tm' done := by
  have hfields := hholds.fields
  rcases hholds.year with ⟨hnone, hyear, -⟩ | ⟨hset, hyear, hany⟩
  · rw [evaluateYear_of_none hnone, ← hfields, ← hyear]
  · have hevaluated := (evaluateYear_eq_iff hprintable hset hholds.century).mpr (hreadable hany)
    rw [← hfields, hyear, ← hevaluated]
    exact evaluateYear_fields vars (evaluateYear vars).tm.tmYear

/-- A call on what the format prints. -/
theorem strptime_of_printOf {tm : Tm} (hprintable : Printable tm) {rest : List Byte}
    {directives : List Directive} (hseparated : Separated tm rest directives) (vars : Vars) :
    ∃ vars', Holds tm vars.tm directives vars' ∧
      strptime (printOf tm directives ++ rest) (formatOf directives) vars =
        (some rest, evaluateYear vars') := by
  have hstart : Holds tm vars.tm [] { vars with century := tmYearBase, relyear := -1 } :=
    ⟨rfl, rfl, .inl ⟨rfl, rfl, fun hany ↦ absurd hany Bool.false_ne_true⟩⟩
  exact strptimeLoop_printOf hprintable directives hseparated hstart

/-- `strptime` reads what a format prints, stops behind it, and leaves the other fields. -/
theorem strptime_printOf (tm : Tm) (directives : List Directive) (rest : List Byte) (vars : Vars)
    (hprintable : Printable tm) (hseparated : Separated tm rest directives)
    (hreadable : YearReadable tm directives) :
    (strptime (printOf tm directives ++ rest) (formatOf directives) vars).1 = some rest ∧
      (strptime (printOf tm directives ++ rest) (formatOf directives) vars).2.tm =
        restoreAll tm vars.tm directives := by
  obtain ⟨vars', hholds, hcall⟩ := strptime_of_printOf hprintable hseparated vars
  rw [hcall]
  exact ⟨rfl, evaluateYear_of_holds hprintable hholds hreadable⟩

/-- Two digits are the year exactly within these limits, in every format without `%Y`. -/
theorem strptime_relyear_iff (tm : Tm) (directives : List Directive) (rest : List Byte)
    (vars : Vars) (hprintable : Printable tm) (hseparated : Separated tm rest directives)
    (hrelyear : directives.any Directive.isRelyear = true)
    (hfour : Directive.number .year ∉ directives) :
    (strptime (printOf tm directives ++ rest) (formatOf directives) vars).2.tm.tmYear =
        tm.tmYear ↔
      if Directive.number .century ∈ directives then ¬ (1900 ≤ tm.year ∧ tm.year ≤ 1968)
      else 1969 ≤ tm.year ∧ tm.year ≤ 2068 := by
  obtain ⟨vars', hholds, hcall⟩ := strptime_of_printOf hprintable hseparated vars
  rw [hcall]
  rcases hholds.year with ⟨-, -, hnone⟩ | ⟨hset, -, -⟩
  · exact absurd (hnone hrelyear) hfour
  · exact evaluateYear_eq_iff hprintable hset hholds.century

instance (s : List Byte) (directive : Directive) : Decidable (directive.Before s) := by
  cases directive <;> unfold Directive.Before <;> infer_instance

instance instDecidableSeparated (tm : Tm) (rest : List Byte) :
    (directives : List Directive) → Decidable (Separated tm rest directives)
  | [] => .isTrue trivial
  | _ :: directives =>
      have := instDecidableSeparated tm rest directives
      inferInstanceAs (Decidable (_ ∧ _))

/-- The 30th of June 1993, a Wednesday. -/
def endOfJune : Tm := ⟨8, 49, 21, 30, 5, 93, 3, 180⟩

theorem printable_endOfJune : Printable endOfJune := by
  constructor <;> decide

/-- `%Y-%m-%d %T`, followed by a period. -/
theorem strptime_printOf_endOfJune :
    (strptime (printOf endOfJune [.number .year, .literal (ascii '-'), .number .mon,
        .literal (ascii '-'), .number .mday, .blank, .clock] ++ [ascii '.'])
      (formatOf [.number .year, .literal (ascii '-'), .number .mon, .literal (ascii '-'),
        .number .mday, .blank, .clock]) ⟨⟨0, 0, 0, 0, 0, 0, 0, 0⟩, 0, 0⟩).1 = some [ascii '.'] ∧
    (strptime (printOf endOfJune [.number .year, .literal (ascii '-'), .number .mon,
        .literal (ascii '-'), .number .mday, .blank, .clock] ++ [ascii '.'])
      (formatOf [.number .year, .literal (ascii '-'), .number .mon, .literal (ascii '-'),
        .number .mday, .blank, .clock]) ⟨⟨0, 0, 0, 0, 0, 0, 0, 0⟩, 0, 0⟩).2.tm =
      restoreAll endOfJune ⟨0, 0, 0, 0, 0, 0, 0, 0⟩ [.number .year, .literal (ascii '-'),
        .number .mon, .literal (ascii '-'), .number .mday, .blank, .clock] :=
  strptime_printOf endOfJune _ _ _ printable_endOfJune (by decide)
    fun hany ↦ absurd hany (by decide)

/-- With the century, the year 1950 is read as 2050. -/
theorem strptime_relyear_1950 :
    ¬ (strptime (printOf { endOfJune with tmYear := 50 } [.number .century, .number .relyear] ++ [])
        (formatOf [.number .century, .number .relyear]) ⟨endOfJune, 0, 0⟩).2.tm.tmYear = 50 := by
  have hprintable : Printable { endOfJune with tmYear := 50 } := by constructor <;> decide
  rw [strptime_relyear_iff { endOfJune with tmYear := 50 } _ _ _ hprintable (by decide) (by decide)
    (by decide)]
  decide

end ProjectSensor.Api
