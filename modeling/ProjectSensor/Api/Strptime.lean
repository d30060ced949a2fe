import ProjectSensor.Api.Timestamp
import ProjectSensor.Library.Ascii

/-!
# `strptime`

A format is read character by character; a conversion reads a number, a name or blanks from the
text, or hands it to the function again with a format of its own.  What was read before an error
stays in the fields.  `century` and `relyear` are static; the two-digit year is evaluated where a
format ends.

A text is the row of its characters in front of the terminator.
-/

open ProjectSensor.Library.ByteMemory ProjectSensor.Library.Ascii

namespace ProjectSensor.Api

/-- `*tm`, and the static variables. -/
structure Vars where
  tm : Tm
  century : ℤ
  relyear : ℤ
  deriving DecidableEq

/-- What a conversion returns: where to go on in the text, unless it is an error. -/
abbrev Parsed := Option (List Byte) × Vars

/-! ### Numbers -/

/-- The loop of `_conv_num`; the text begins with a digit. -/
def convNumLoop (ulim : ℕ) : List Byte → ℕ → ℕ → ℕ × List Byte
  | [], result, _ => (result, [])
  | c :: buf, result, rulim =>
      let result := result * 10 + digitValue c
      let rulim := rulim / 10
      if result * 10 ≤ ulim ∧ rulim ≠ 0 ∧ buf.head?.any isdigit then
        convNumLoop ulim buf result rulim
      else (result, buf)

/-- `_conv_num`: the number and the text behind it. -/
def convNum (llim ulim : ℕ) (buf : List Byte) : Option (ℕ × List Byte) :=
  if buf.head?.any isdigit then
    let (result, buf) := convNumLoop ulim buf 0 ulim
    if result < llim ∨ ulim < result then none else some (result, buf)
  else none

/-! ### The cases of the switch -/

/-- `_ALT_E`. -/
def altE : BitVec 32 := 1

/-- `_ALT_O`. -/
def altO : BitVec 32 := 2

/-- `_LEGAL_ALT`, as the condition to go on. -/
def legalAlt (altFormat x : BitVec 32) : Bool := altFormat &&& ~~~x = 0

/-- `day`. -/
def day : List (List Byte) :=
  [['S', 'u', 'n', 'd', 'a', 'y'], ['M', 'o', 'n', 'd', 'a', 'y'],
    ['T', 'u', 'e', 's', 'd', 'a', 'y'], ['W', 'e', 'n', 'd', 'e', 's', 'd', 'a', 'y'],
    ['T', 'h', 'u', 'r', 's', 'd', 'a', 'y'], ['F', 'r', 'i', 'd', 'a', 'y'],
    ['S', 'a', 't', 'u', 'r', 'd', 'a', 'y']].map text

/-- `abday`. -/
def abday : List (List Byte) :=
  [['S', 'u', 'n'], ['M', 'o', 'n'], ['T', 'u', 'e'], ['W', 'e', 'd'], ['T', 'h', 'u'],
    ['F', 'r', 'i'], ['S', 'a', 't']].map text

/-- `mon`. -/
def mon : List (List Byte) :=
  [['J', 'a', 'n', 'u', 'a', 'r', 'y'], ['F', 'e', 'b', 'r', 'u', 'a', 'r', 'y'],
    ['M', 'a', 'r', 'c', 'h'], ['A', 'p', 'r', 'i', 'l'], ['M', 'a', 'y'], ['J', 'u', 'n', 'e'],
    ['J', 'u', 'l', 'y'], ['A', 'g', 'u', 'e', 's', 't'],
    ['S', 'e', 'p', 't', 'e', 'm', 'b', 'e', 'r'], ['O', 'c', 't', 'o', 'b', 'e', 'r'],
    ['N', 'o', 'v', 'e', 'm', 'b', 'e', 'r'], ['D', 'e', 'c', 'e', 'm', 'b', 'e', 'r']].map text

/-- `abmon`. -/
def abmon : List (List Byte) :=
  [['J', 'a', 'n'], ['F', 'e', 'b'], ['M', 'a', 'r'], ['A', 'p', 'r'], ['M', 'a', 'y'],
    ['J', 'u', 'n'], ['J', 'u', 'l'], ['A', 'u', 'g'], ['S', 'e', 'p'], ['O', 'c', 't'],
    ['N', 'o', 'v'], ['D', 'e', 'c']].map text

/-- What a case does once the modifiers are checked. -/
inductive Conversion where
  /-- a `%` of the text -/
  | literal
  /-- `goto again` with the modifier set -/
  | modifier (alt : BitVec 32)
  /-- recursion -/
  | complex (fmt : List Byte)
  /-- a full or an abbreviated name, and what is done with its index -/
  | name (full abbreviated : List (List Byte)) (set : ℕ → Vars → Vars)
  /-- `_conv_num`, and what is done with the number -/
  | number (llim ulim : ℕ) (set : ℕ → Vars → Vars)
  | whitespace

/-- A case: the masks of its `_LEGAL_ALT`s, one behind the other, and the conversion. -/
structure Case where
  legal : List (BitVec 32)
  conversion : Conversion

def setSec (i : ℕ) (vars : Vars) : Vars := { vars with tm := { vars.tm with tmSec := i } }
def setMin (i : ℕ) (vars : Vars) : Vars := { vars with tm := { vars.tm with tmMin := i } }
def setHour (i : ℕ) (vars : Vars) : Vars := { vars with tm := { vars.tm with tmHour := i } }
def setMday (i : ℕ) (vars : Vars) : Vars := { vars with tm := { vars.tm with tmMday := i } }
def setMon (i : ℕ) (vars : Vars) : Vars := { vars with tm := { vars.tm with tmMon := i } }
def setWday (i : ℕ) (vars : Vars) : Vars := { vars with tm := { vars.tm with tmWday := i } }
def setYday (i : ℕ) (vars : Vars) : Vars := { vars with tm := { vars.tm with tmYday := i } }

def setYear (i : ℕ) (vars : Vars) : Vars :=
  { vars with relyear := -1, tm := { vars.tm with tmYear := i - tmYearBase } }

def setCentury (i : ℕ) (vars : Vars) : Vars := { vars with century := i * 100 }

def setRelyear (i : ℕ) (vars : Vars) : Vars := { vars with relyear := i }

/-- The cases that are compiled, under their characters. -/
def cases : List (Char × Case) :=
  [('%', ⟨[], .literal⟩),
    ('E', ⟨[0], .modifier altE⟩),
    ('O', ⟨[0], .modifier altO⟩),
    ('D', ⟨[0], .complex (text ['%', 'm', '/', '%', 'd', '/', '%', 'y'])⟩),
    ('R', ⟨[0], .complex (text ['%', 'H', ':', '%', 'M'])⟩),
    ('r', ⟨[0], .complex (text ['%', 'I', ':', '%', 'M', ':', '%', 'S', ' ', '%', 'p'])⟩),
    ('T', ⟨[0], .complex (text ['%', 'H', ':', '%', 'M', ':', '%', 'S'])⟩),
    ('A', ⟨[0], .name day abday setWday⟩),
    ('a', ⟨[0], .name day abday setWday⟩),
    ('B', ⟨[0], .name mon abmon setMon⟩),
    ('b', ⟨[0], .name mon abmon setMon⟩),
    ('h', ⟨[0], .name mon abmon setMon⟩),
    ('C', ⟨[altE], .number 0 99 setCentury⟩),
    ('d', ⟨[altO], .number 1 31 setMday⟩),
    ('e', ⟨[altO], .number 1 31 setMday⟩),
    ('k', ⟨[0, altO], .number 0 23 setHour⟩),
    ('H', ⟨[altO], .number 0 23 setHour⟩),
    ('l', ⟨[0, altO], .number 1 12 setHour⟩),
    ('I', ⟨[altO], .number 1 12 setHour⟩),
    ('j', ⟨[0], .number 1 366 fun i ↦ setYday (i - 1)⟩),
    ('M', ⟨[altO], .number 0 59 setMin⟩),
    ('m', ⟨[altO], .number 1 12 fun i ↦ setMon (i - 1)⟩),
    ('S', ⟨[altO], .number 0 61 setSec⟩),
    ('U', ⟨[altO], .number 0 53 fun _ vars ↦ vars⟩),
    ('W', ⟨[altO], .number 0 53 fun _ vars ↦ vars⟩),
    ('w', ⟨[altO], .number 0 6 setWday⟩),
    ('Y', ⟨[altE], .number 0 9999 setYear⟩),
    ('y', ⟨[altE ||| altO], .number 0 99 setRelyear⟩),
    ('n', ⟨[0], .whitespace⟩),
    ('t', ⟨[0], .whitespace⟩)]

/-- The case of a character; all others are unsupported. -/
def caseOf (c : Byte) : Option Case := (cases.find? fun entry ↦ ascii entry.1 = c).map Prod.snd

/-- `strncasecmp` of the text with a whole name. -/
def matchesName (name bp : List Byte) : Bool :=
  name.map tolower = (bp.take name.length).map tolower

/-- The loop over the names from index `i` on: the index and the length of the first match. -/
def findName (bp : List Byte) : List (List Byte) → List (List Byte) → ℕ → Option (ℕ × ℕ)
  | full :: fulls, short :: shorts, i =>
      if matchesName full bp then some (i, full.length)
      else if matchesName short bp then some (i, short.length)
      else findName bp fulls shorts (i + 1)
  | _, _, _ => none

/-- `literal`: the character itself. -/
def eat (c : Byte) : List Byte → Option (List Byte)
  | [] => none
  | b :: bp => if c = b then some bp else none

/-- The year of a two-digit year, at the end of a format. -/
def evaluateYear (vars : Vars) : Vars :=
  if vars.relyear ≠ -1 then
    let tmYear :=
      if vars.century = tmYearBase then
        if vars.relyear ≤ 68 then vars.relyear + 2000 - tmYearBase
        else vars.relyear + tmYearBase - tmYearBase
      else vars.relyear + vars.century - tmYearBase
    { vars with tm := { vars.tm with tmYear := tmYear } }
  else vars

/-- A conversion other than a modifier; `nested` is the function on a format of its own. -/
def convertCase (nested : List Byte → List Byte → Vars → Parsed) (conversion : Conversion)
    (bp : List Byte) (vars : Vars) : Parsed :=
  match conversion with
  | .literal => (eat (ascii '%') bp, vars)
  | .modifier _ => (none, vars)
  | .complex fmt => nested fmt bp vars
  | .name full abbreviated set =>
      match findName bp full abbreviated 0 with
      | some (i, len) => (some (bp.drop len), set i vars)
      | none => (none, vars)
  | .number llim ulim set =>
      match convNum llim ulim bp with
      | some (i, bp) => (some bp, set i vars)
      | none => (none, vars)
  | .whitespace => (some (bp.dropWhile isspace), vars)

/-- The loop over the format, at the start of a turn or behind `again` with the modifiers. -/
def strptimeLoop (nested : List Byte → List Byte → Vars → Parsed) :
    Option (BitVec 32) → List Byte → List Byte → Vars → Parsed
  | none, [], bp, vars => (some bp, evaluateYear vars)
  | none, c :: fmt, bp, vars =>
      if isspace c then strptimeLoop nested none fmt (bp.dropWhile isspace) vars
      else if c = ascii '%' then strptimeLoop nested (some 0) fmt bp vars
      else
        match eat c bp with
        | some bp => strptimeLoop nested none fmt bp vars
        | none => (none, vars)
  -- the terminator is no conversion
  | some _, [], _, vars => (none, vars)
  | some altFormat, c :: fmt, bp, vars =>
      match caseOf c with
      | none => (none, vars)
      | some case =>
          if case.legal.all (legalAlt altFormat) then
            match case.conversion with
            | .modifier alt => strptimeLoop nested (some (altFormat ||| alt)) fmt bp vars
            | conversion =>
                match convertCase nested conversion bp vars with
                | (some bp, vars) => strptimeLoop nested none fmt bp vars
                | (none, vars) => (none, vars)
          else (none, vars)

/-- `_strptime` with formats nested `depth` deep. -/
def strptimeAt : ℕ → List Byte → List Byte → Vars → Parsed
  | 0 => strptimeLoop (fun _ _ vars ↦ (none, vars)) none
  | depth + 1 => strptimeLoop (strptimeAt depth) none

/-- `strptime`; no format of a conversion has one of its own in it. -/
def strptime (buf fmt : List Byte) (vars : Vars) : Parsed :=
  strptimeAt 1 fmt buf { vars with century := tmYearBase, relyear := -1 }

/-! ### What a number is -/

/-- A number from its digits: as many of them as follow each other, but no more than the limit has,
and none behind which the limit would be passed in any case. -/
structure ReadsNumber (llim ulim n : ℕ) (s rest : List Byte) : Prop where
  nonempty : s ≠ []
  digits : ∀ c ∈ s, isdigit c = true
  value : valueFrom 0 s = n
  low : llim ≤ n
  high : n ≤ ulim
  short : 10 ^ (s.length - 1) ≤ ulim
  maximal : ulim < 10 ^ s.length ∨ ulim < n * 10 ∨ StartsNot isdigit rest

theorem any_isdigit_eq_false_iff (s : List Byte) :
    s.head?.any isdigit = false ↔ StartsNot isdigit s := by
  cases s with
  | nil => exact iff_of_true rfl (startsNot_nil isdigit)
  | cons c s => rw [startsNot_cons, List.head?_cons, Option.any_some]

theorem convNumLoop_cons (ulim : ℕ) (c : Byte) (buf : List Byte) (result rulim : ℕ) :
    convNumLoop ulim (c :: buf) result rulim =
      if (result * 10 + digitValue c) * 10 ≤ ulim ∧ rulim / 10 ≠ 0 ∧
          (buf.head?.any isdigit : Bool) then
        convNumLoop ulim buf (result * 10 + digitValue c) (rulim / 10)
      else (result * 10 + digitValue c, buf) := by
  rw [convNumLoop]

theorem pow_pred_le_div {count rulim : ℕ} (hle : 10 ^ (count + 1) ≤ rulim) :
    10 ^ count ≤ rulim / 10 := by
  rw [pow_succ] at hle
  exact (Nat.le_div_iff_mul_le (by decide)).mpr hle

/-- The loop reads digits that fit, up to where it has to stop. -/
theorem convNumLoop_append {ulim : ℕ} {s : List Byte} (rest : List Byte) (hne : s ≠ [])
    (hdigits : ∀ c ∈ s, isdigit c = true) {sum rulim : ℕ}
    (hshort : 10 ^ (s.length - 1) ≤ rulim) (hhigh : valueFrom sum s ≤ ulim)
    (hmaximal : rulim < 10 ^ s.length ∨ ulim < valueFrom sum s * 10 ∨ StartsNot isdigit rest) :
    convNumLoop ulim (s ++ rest) sum rulim = (valueFrom sum s, rest) := by
  induction s generalizing sum rulim with
  | nil => exact absurd rfl hne
  | cons c s ih =>
      rw [List.cons_append, convNumLoop_cons, valueFrom_cons]
      rw [valueFrom_cons] at hhigh hmaximal
      cases s with
      | nil =>
          rw [List.nil_append, valueFrom_nil, if_neg]
          rintro ⟨hmore, hrulim, hdigit⟩
          rcases hmaximal with hlast | hpassed | hnone
          · exact hrulim (Nat.div_eq_of_lt hlast)
          · exact absurd hmore (not_le.mpr hpassed)
          · rw [(any_isdigit_eq_false_iff rest).mpr hnone] at hdigit
            exact Bool.false_ne_true hdigit
      | cons d s =>
          have hle := mul_pow_le_valueFrom (sum * 10 + digitValue c) (d :: s)
          have hmore : (sum * 10 + digitValue c) * 10 ≤ ulim := by
            calc (sum * 10 + digitValue c) * 10
                ≤ (sum * 10 + digitValue c) * 10 ^ (d :: s).length :=
                  Nat.mul_le_mul_left _ (Nat.le_self_pow (by simp) 10)
              _ ≤ ulim := hle.trans hhigh
          have hrulim : 10 ^ s.length ≤ rulim / 10 := pow_pred_le_div hshort
          have hpos : rulim / 10 ≠ 0 := (Nat.lt_of_lt_of_le (Nat.pow_pos (by decide)) hrulim).ne'
          have hdigit : ((d :: s ++ rest).head?.any isdigit : Bool) = true :=
            hdigits d (List.mem_cons_of_mem _ List.mem_cons_self)
          rw [if_pos ⟨hmore, hpos, hdigit⟩]
          apply ih (List.cons_ne_nil d s) (fun c' hc' ↦ hdigits c' (List.mem_cons_of_mem _ hc'))
            hrulim hhigh
          refine hmaximal.imp_left fun hlast ↦ ?_
          rw [List.length_cons, pow_succ] at hlast
          exact Nat.div_lt_of_lt_mul (by rwa [mul_comm] at hlast)

/-- Whatever the loop reads, it stopped where it had to. -/
theorem convNumLoop_split (ulim : ℕ) {buf : List Byte} (hdigit : buf.head?.any isdigit = true)
    (sum : ℕ) {rulim : ℕ} (hpos : 0 < rulim) :
    ∃ s rest, buf = s ++ rest ∧ s ≠ [] ∧ (∀ c ∈ s, isdigit c = true) ∧
      10 ^ (s.length - 1) ≤ rulim ∧
      (rulim < 10 ^ s.length ∨ ulim < valueFrom sum s * 10 ∨ StartsNot isdigit rest) ∧
      convNumLoop ulim buf sum rulim = (valueFrom sum s, rest) := by
  induction buf generalizing sum rulim with
  | nil => exact absurd hdigit Bool.false_ne_true
  | cons c buf ih =>
      have hc : isdigit c = true := hdigit
      rw [convNumLoop_cons]
      by_cases hgo : (sum * 10 + digitValue c) * 10 ≤ ulim ∧ rulim / 10 ≠ 0 ∧
          (buf.head?.any isdigit : Bool)
      · obtain ⟨s, rest, rfl, hne, hdigits, hshort, hmaximal, hloop⟩ :=
          ih hgo.2.2 (sum * 10 + digitValue c) (Nat.pos_of_ne_zero hgo.2.1)
        refine ⟨c :: s, rest, rfl, List.cons_ne_nil c s, ?_, ?_, ?_, ?_⟩
        · intro c' hc'
          rcases List.mem_cons.mp hc' with rfl | hmem
          · exact hc
          · exact hdigits c' hmem
        · have hlen : (c :: s).length - 1 = s.length - 1 + 1 := by
            have := List.length_pos_iff.mpr hne
            simp only [List.length_cons]
            omega
          rw [hlen, pow_succ]
          exact (Nat.le_div_iff_mul_le (by decide)).mp hshort
        · refine hmaximal.imp_left fun hlast ↦ ?_
          rw [List.length_cons, pow_succ]
          exact (Nat.div_lt_iff_lt_mul (by decide)).mp hlast
        · rw [if_pos hgo, hloop, valueFrom_cons]
      · refine ⟨[c], buf, rfl, List.cons_ne_nil c [], ?_, hpos, ?_, ?_⟩
        · intro c' hc'
          rwa [List.mem_singleton.mp hc']
        · rw [valueFrom_cons, valueFrom_nil, List.length_singleton, pow_one]
          by_cases hmore : (sum * 10 + digitValue c) * 10 ≤ ulim
          · by_cases hrulim : rulim / 10 = 0
            · exact .inl (Nat.lt_of_div_eq_zero (by decide) hrulim)
            · refine .inr (.inr ((any_isdigit_eq_false_iff buf).mp ?_))
              exact Bool.eq_false_iff.mpr fun hnext ↦ hgo ⟨hmore, hrulim, hnext⟩
          · exact .inr (.inl (not_le.mp hmore))
        · rw [if_neg hgo, valueFrom_cons, valueFrom_nil]

/-- `_conv_num` returns a number exactly if its digits stand at the beginning of the text. -/
theorem convNum_eq_some_iff {llim ulim : ℕ} (hulim : 0 < ulim) (buf rest : List Byte) (n : ℕ) :
    convNum llim ulim buf = some (n, rest) ↔
      ∃ s, buf = s ++ rest ∧ ReadsNumber llim ulim n s rest := by
  constructor
  · intro hconv
    rw [convNum] at hconv
    split at hconv
    case isFalse => exact absurd hconv (by simp)
    case isTrue hdigit =>
      obtain ⟨s, rest', rfl, hne, hdigits, hshort, hmaximal, hloop⟩ :=
        convNumLoop_split ulim hdigit 0 hulim
      simp only [hloop] at hconv
      split at hconv
      case isTrue => exact absurd hconv (by simp)
      case isFalse hrange =>
        simp only [Option.some.injEq, Prod.mk.injEq] at hconv
        obtain ⟨rfl, rfl⟩ := hconv
        exact ⟨s, rfl, hne, hdigits, rfl, by omega, by omega, hshort, hmaximal⟩
  · rintro ⟨s, rfl, hreads⟩
    have hloop : convNumLoop ulim (s ++ rest) 0 ulim = (n, rest) := by
      rw [← hreads.value]
      apply convNumLoop_append rest hreads.nonempty hreads.digits hreads.short
      · rw [hreads.value]
        exact hreads.high
      · rw [hreads.value]
        exact hreads.maximal
    have hdigit : (s ++ rest).head?.any isdigit = true := by
      cases s with
      | nil => exact absurd rfl hreads.nonempty
      | cons c s => exact hreads.digits c List.mem_cons_self
    rw [convNum, if_pos hdigit]
    simp only [hloop]
    rw [if_neg (not_or.mpr ⟨not_lt.mpr hreads.low, not_lt.mpr hreads.high⟩)]

/-- The digits of a number end where a day of the month can have no more. -/
theorem convNum_fortyFive :
    0 < 31 ∧ (convNum 1 31 (text ['4', '5']) = some (4, text ['5']) ↔
      ∃ s, text ['4', '5'] = s ++ text ['5'] ∧ ReadsNumber 1 31 4 s (text ['5'])) :=
  ⟨by decide, convNum_eq_some_iff (by decide) _ _ _⟩

/-! ### What a call can do -/

/-- The field has its old value, or one from the range. -/
def KeptOrIn (llim ulim old new : ℤ) : Prop := new = old ∨ llim ≤ new ∧ new ≤ ulim

/-- The fields after a call, compared with those before. -/
structure Bounded (old new : Tm) : Prop where
  sec : KeptOrIn 0 61 old.tmSec new.tmSec
  min : KeptOrIn 0 59 old.tmMin new.tmMin
  hour : KeptOrIn 0 23 old.tmHour new.tmHour
  mday : KeptOrIn 1 31 old.tmMday new.tmMday
  mon : KeptOrIn 0 11 old.tmMon new.tmMon
  year : KeptOrIn (-1900) 8099 old.tmYear new.tmYear
  wday : KeptOrIn 0 6 old.tmWday new.tmWday
  yday : KeptOrIn 0 365 old.tmYday new.tmYday

/-- The static variables within a call. -/
def StaticsIn (vars : Vars) : Prop :=
  0 ≤ vars.century ∧ vars.century ≤ 9900 ∧ -1 ≤ vars.relyear ∧ vars.relyear ≤ 99

/-- What a part of a call leads to. -/
def LeadsTo (vars vars' : Vars) : Prop :=
  StaticsIn vars → StaticsIn vars' ∧ Bounded vars.tm vars'.tm

theorem KeptOrIn.trans {llim ulim old mid new : ℤ} (hfirst : KeptOrIn llim ulim old mid)
    (hsecond : KeptOrIn llim ulim mid new) : KeptOrIn llim ulim old new := by
  rcases hsecond with rfl | hrange
  · exact hfirst
  · exact .inr hrange

theorem KeptOrIn.rfl {llim ulim old : ℤ} : KeptOrIn llim ulim old old := .inl (Eq.refl old)

theorem Bounded.refl (old : Tm) : Bounded old old :=
  ⟨.rfl, .rfl, .rfl, .rfl, .rfl, .rfl, .rfl, .rfl⟩

theorem LeadsTo.rfl {vars : Vars} : LeadsTo vars vars := fun hstatics ↦ ⟨hstatics, .refl _⟩

theorem LeadsTo.trans {vars vars' vars'' : Vars} (hfirst : LeadsTo vars vars')
    (hsecond : LeadsTo vars' vars'') : LeadsTo vars vars'' := by
  intro hstatics
  obtain ⟨hstatics', hold⟩ := hfirst hstatics
  obtain ⟨hstatics'', hnew⟩ := hsecond hstatics'
  exact ⟨hstatics'', hold.sec.trans hnew.sec, hold.min.trans hnew.min, hold.hour.trans hnew.hour,
    hold.mday.trans hnew.mday, hold.mon.trans hnew.mon, hold.year.trans hnew.year,
    hold.wday.trans hnew.wday, hold.yday.trans hnew.yday⟩

theorem leadsTo_evaluateYear (vars : Vars) : LeadsTo vars (evaluateYear vars) := by
  intro hstatics
  unfold evaluateYear
  split
  case isFalse => exact ⟨hstatics, .refl _⟩
  case isTrue hset =>
    refine ⟨hstatics, { Bounded.refl vars.tm with year := .inr ?_ }⟩
    unfold StaticsIn at hstatics
    simp only [tmYearBase]
    split_ifs <;> omega

/-- What a call returns: a place in the text, and fields that are bounded. -/
def Sound (bp : List Byte) (vars : Vars) (parsed : Parsed) : Prop :=
  (∀ rest ∈ parsed.1, rest <:+ bp) ∧ LeadsTo vars parsed.2

/-- A conversion sets its field within the range, if what it was given keeps to the ranges. -/
def Conversion.Keeps : Conversion → Prop
  | .name full abbreviated set =>
      ∀ i < min full.length abbreviated.length, ∀ vars, LeadsTo vars (set i vars)
  | .number llim ulim set => ∀ i, llim ≤ i → i ≤ ulim → ∀ vars, LeadsTo vars (set i vars)
  | _ => True

/-- One field is set, within its range. -/
theorem leadsTo_of_bounded {vars : Vars} {tm : Tm} (hbounded : Bounded vars.tm tm) :
    LeadsTo vars { vars with tm := tm } := fun hstatics ↦ ⟨hstatics, hbounded⟩

theorem keeps_of_mem_cases : ∀ entry ∈ cases, entry.2.conversion.Keeps := by
  have hsec (i : ℕ) (hi : i ≤ 61) (vars : Vars) : LeadsTo vars (setSec i vars) :=
    leadsTo_of_bounded { Bounded.refl vars.tm with sec := .inr (by simp only; omega) }
  have hmin (i : ℕ) (hi : i ≤ 59) (vars : Vars) : LeadsTo vars (setMin i vars) :=
    leadsTo_of_bounded { Bounded.refl vars.tm with min := .inr (by simp only; omega) }
  have hhour (i : ℕ) (hi : i ≤ 23) (vars : Vars) : LeadsTo vars (setHour i vars) :=
    leadsTo_of_bounded { Bounded.refl vars.tm with hour := .inr (by simp only; omega) }
  have hmday (i : ℕ) (hlow : 1 ≤ i) (hi : i ≤ 31) (vars : Vars) : LeadsTo vars (setMday i vars) :=
    leadsTo_of_bounded { Bounded.refl vars.tm with mday := .inr (by simp only; omega) }
  have hmon (i : ℕ) (hi : i ≤ 11) (vars : Vars) : LeadsTo vars (setMon i vars) :=
    leadsTo_of_bounded { Bounded.refl vars.tm with mon := .inr (by simp only; omega) }
  have hwday (i : ℕ) (hi : i ≤ 6) (vars : Vars) : LeadsTo vars (setWday i vars) :=
    leadsTo_of_bounded { Bounded.refl vars.tm with wday := .inr (by simp only; omega) }
  have hyday (i : ℕ) (hi : i ≤ 365) (vars : Vars) : LeadsTo vars (setYday i vars) :=
    leadsTo_of_bounded { Bounded.refl vars.tm with yday := .inr (by simp only; omega) }
  have hyear (i : ℕ) (hi : i ≤ 9999) (vars : Vars) : LeadsTo vars (setYear i vars) := by
    intro hstatics
    refine ⟨⟨hstatics.1, hstatics.2.1, le_refl (-1 : ℤ), (by decide : (-1 : ℤ) ≤ 99)⟩,
      { Bounded.refl vars.tm with year := .inr ?_ }⟩
    simp only [setYear, tmYearBase]
    omega
  have hcentury (i : ℕ) (hi : i ≤ 99) (vars : Vars) : LeadsTo vars (setCentury i vars) := by
    intro hstatics
    refine ⟨⟨?_, ?_, hstatics.2.2⟩, .refl _⟩ <;> simp only [setCentury] <;> omega
  have hrelyear (i : ℕ) (hi : i ≤ 99) (vars : Vars) : LeadsTo vars (setRelyear i vars) := by
    intro hstatics
    refine ⟨⟨hstatics.1, hstatics.2.1, ?_, ?_⟩, .refl _⟩ <;> simp only [setRelyear] <;> omega
  have hsevenDays : min day.length abday.length = 7 := by decide
  have htwelveMonths : min ProjectSensor.Api.mon.length abmon.length = 12 := by decide
  simp only [cases, List.forall_mem_cons, List.not_mem_nil, Conversion.Keeps, hsevenDays,
    htwelveMonths]
  grind [LeadsTo.rfl]

theorem findName_lt {bp : List Byte} {full abbreviated : List (List Byte)} {i j len : ℕ}
    (hfind : findName bp full abbreviated i = some (j, len)) :
    j < i + min full.length abbreviated.length := by
  induction full generalizing abbreviated i with
  | nil => exact absurd hfind (by simp [findName])
  | cons name full ih =>
      cases abbreviated with
      | nil => exact absurd hfind (by simp [findName])
      | cons short abbreviated =>
          rw [findName] at hfind
          rw [List.length_cons, List.length_cons]
          split_ifs at hfind
          · simp only [Option.some.injEq, Prod.mk.injEq] at hfind
            omega
          · simp only [Option.some.injEq, Prod.mk.injEq] at hfind
            omega
          · have hlater := ih hfind
            omega

theorem eat_suffix {c : Byte} {bp rest : List Byte} (heat : eat c bp = some rest) :
    rest <:+ bp := by
  cases bp with
  | nil => exact absurd heat (by simp [eat])
  | cons b bp =>
      rw [eat] at heat
      split at heat
      · rw [← Option.some.inj heat]
        exact List.suffix_cons b bp
      · exact absurd heat (by simp)

theorem convNumLoop_suffix (ulim : ℕ) (buf : List Byte) (sum rulim : ℕ) :
    (convNumLoop ulim buf sum rulim).2 <:+ buf := by
  induction buf generalizing sum rulim with
  | nil => exact List.suffix_rfl
  | cons c buf ih =>
      rw [convNumLoop_cons]
      split
      · exact (ih _ _).trans (List.suffix_cons c buf)
      · exact List.suffix_cons c buf

/-- A number that is accepted is in the range. -/
theorem convNum_range {llim ulim n : ℕ} {buf rest : List Byte}
    (hconv : convNum llim ulim buf = some (n, rest)) : llim ≤ n ∧ n ≤ ulim ∧ rest <:+ buf := by
  have hsuffix := convNumLoop_suffix ulim buf 0 ulim
  rw [convNum] at hconv
  split at hconv
  case isFalse => exact absurd hconv (by simp)
  case isTrue hdigit =>
    generalize convNumLoop ulim buf 0 ulim = read at hconv hsuffix
    simp only at hconv
    split at hconv
    case isTrue => exact absurd hconv (by simp)
    case isFalse hrange =>
      simp only [Option.some.injEq, Prod.mk.injEq] at hconv
      obtain ⟨rfl, rfl⟩ := hconv
      exact ⟨by omega, by omega, hsuffix⟩

theorem sound_error {bp : List Byte} {vars : Vars} : Sound bp vars (none, vars) :=
  ⟨fun rest hrest ↦ absurd hrest (by simp), .rfl⟩

theorem sound_some {bp rest : List Byte} {vars vars' : Vars} (hrest : rest <:+ bp)
    (hleads : LeadsTo vars vars') : Sound bp vars (some rest, vars') := by
  refine ⟨fun rest' hrest' ↦ ?_, hleads⟩
  rwa [← Option.mem_some_iff.mp hrest']

/-- What goes on from a place in the text is sound from where the text began. -/
theorem Sound.after {bp rest : List Byte} {vars vars' : Vars} {parsed : Parsed}
    (hparsed : Sound rest vars' parsed) (hrest : rest <:+ bp) (hleads : LeadsTo vars vars') :
    Sound bp vars parsed :=
  ⟨fun rest' hrest' ↦ (hparsed.1 rest' hrest').trans hrest, hleads.trans hparsed.2⟩

theorem convertCase_sound {nested : List Byte → List Byte → Vars → Parsed}
    (hnested : ∀ fmt bp vars, Sound bp vars (nested fmt bp vars)) {conversion : Conversion}
    (hkeeps : conversion.Keeps) (bp : List Byte) (vars : Vars) :
    Sound bp vars (convertCase nested conversion bp vars) := by
  cases conversion with
  | literal => exact ⟨fun rest hrest ↦ eat_suffix hrest, .rfl⟩
  | modifier alt => exact sound_error
  | complex fmt => exact hnested fmt bp vars
  | name full abbreviated set =>
      rw [convertCase]
      cases hfind : findName bp full abbreviated 0 with
      | none => exact sound_error
      | some found =>
          have hlt := findName_lt hfind
          rw [Nat.zero_add] at hlt
          exact sound_some (List.drop_suffix found.2 bp) (hkeeps found.1 hlt vars)
  | number llim ulim set =>
      rw [convertCase]
      cases hconv : convNum llim ulim bp with
      | none => exact sound_error
      | some read =>
          obtain ⟨hlow, hhigh, hrest⟩ := convNum_range hconv
          exact sound_some hrest (hkeeps read.1 hlow hhigh vars)
  | whitespace => exact sound_some (List.dropWhile_suffix isspace) .rfl

theorem keeps_of_caseOf {c : Byte} {case : Case} (hcase : caseOf c = some case) :
    case.conversion.Keeps := by
  rw [caseOf, Option.map_eq_some_iff] at hcase
  obtain ⟨entry, hfind, rfl⟩ := hcase
  exact keeps_of_mem_cases entry (List.mem_of_find?_eq_some hfind)

/-- What the loop makes of a conversion that is none of the modifiers. -/
theorem strptimeLoop_convert {nested : List Byte → List Byte → Vars → Parsed} {c : Byte}
    {case : Case} (hcase : caseOf c = some case) {altFormat : BitVec 32}
    (hlegal : case.legal.all (legalAlt altFormat) = true)
    (hmodifier : ∀ alt, case.conversion ≠ .modifier alt) (fmt bp : List Byte) (vars : Vars) :
    strptimeLoop nested (some altFormat) (c :: fmt) bp vars =
      match convertCase nested case.conversion bp vars with
      | (some bp, vars) => strptimeLoop nested none fmt bp vars
      | (none, vars) => (none, vars) := by
  rw [strptimeLoop, hcase]
  simp only [hlegal, if_true]

theorem strptimeLoop_sound {nested : List Byte → List Byte → Vars → Parsed}
    (hnested : ∀ fmt bp vars, Sound bp vars (nested fmt bp vars))
    (altFormat : Option (BitVec 32)) (fmt bp : List Byte) (vars : Vars) :
    Sound bp vars (strptimeLoop nested altFormat fmt bp vars) := by
  induction fmt generalizing altFormat bp vars with
  | nil =>
      cases altFormat with
      | none => exact sound_some List.suffix_rfl (leadsTo_evaluateYear vars)
      | some altFormat => exact sound_error
  | cons c fmt ih =>
      cases altFormat with
      | none =>
          rw [strptimeLoop]
          split_ifs
          · exact (ih none _ vars).after (List.dropWhile_suffix isspace) .rfl
          · exact ih (some 0) bp vars
          · cases heat : eat c bp with
            | none => exact sound_error
            | some rest => exact (ih none rest vars).after (eat_suffix heat) .rfl
      | some altFormat =>
          cases hcase : caseOf c with
          | none =>
              rw [strptimeLoop, hcase]
              exact sound_error
          | some case =>
              by_cases hlegal : case.legal.all (legalAlt altFormat) = true
              · by_cases hmodifier : ∃ alt, case.conversion = .modifier alt
                · obtain ⟨alt, hconversion⟩ := hmodifier
                  rw [strptimeLoop, hcase]
                  simp only [hlegal, if_true, hconversion]
                  exact ih (some (altFormat ||| alt)) bp vars
                · rw [strptimeLoop_convert hcase hlegal fun alt h ↦ hmodifier ⟨alt, h⟩]
                  have hsound := convertCase_sound hnested (keeps_of_caseOf hcase) bp vars
                  cases hconvert : convertCase nested case.conversion bp vars with
                  | mk result vars' =>
                      rw [hconvert] at hsound
                      cases result with
                      | none => exact hsound
                      | some rest => exact (ih none rest vars').after (hsound.1 rest rfl) hsound.2
              · rw [strptimeLoop, hcase]
                simp only [hlegal]
                exact sound_error

theorem strptimeAt_sound (depth : ℕ) (fmt bp : List Byte) (vars : Vars) :
    Sound bp vars (strptimeAt depth fmt bp vars) := by
  induction depth generalizing fmt bp vars with
  | zero => exact strptimeLoop_sound (fun _ _ _ ↦ sound_error) none fmt bp vars
  | succ depth ih => exact strptimeLoop_sound ih none fmt bp vars

/-- For every format and text, also where it is an error: what is returned points into the text, and
each field has its old value or one in its range. -/
theorem strptime_bounded (buf fmt : List Byte) (vars : Vars) :
    (∀ rest ∈ (strptime buf fmt vars).1, rest <:+ buf) ∧
      Bounded vars.tm (strptime buf fmt vars).2.tm := by
  have hsound := strptimeAt_sound 1 fmt buf { vars with century := tmYearBase, relyear := -1 }
  have hstatics : StaticsIn { vars with century := tmYearBase, relyear := -1 } :=
    ⟨(by decide : (0 : ℤ) ≤ 1900), (by decide : (1900 : ℤ) ≤ 9900), le_refl (-1 : ℤ),
      (by decide : (-1 : ℤ) ≤ 99)⟩
  exact ⟨hsound.1, (hsound.2 hstatics).2⟩

end ProjectSensor.Api
