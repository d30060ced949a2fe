import ProjectSensor.Api.Itoa
import ProjectSensor.Library.Ascii

/-!
# `LogStream`

A log line is put together in a buffer of 200 bytes.  A text goes into the buffer whole or not at
all; a number is written where it will stand, digit by digit and then reversed, if there are 32
bytes left for it.  So the line is what was written, without the items that found no room, and
nothing is ever written behind the buffer.

A `double` goes through `snprintf`, whose text is a parameter here.
-/

open ProjectSensor.Library ProjectSensor.Library.ByteMemory ProjectSensor.Library.Numeral
open ProjectSensor.Library.Ascii

namespace ProjectSensor.Api

/-! ### Numbers -/

/-- `digits`; `zero` points to its middle. -/
def digitTable : List Byte :=
  text ['9', '8', '7', '6', '5', '4', '3', '2', '1', '0', '1', '2', '3', '4', '5', '6', '7', '8',
    '9']

/-- `zero[lsd]`. -/
def zero (lsd : ℤ) : Byte := digitTable.getD (9 + lsd).toNat 0

/-- `digitsHex`. -/
def digitsHex : List Byte :=
  text ['0', '1', '2', '3', '4', '5', '6', '7', '8', '9', 'A', 'B', 'C', 'D', 'E', 'F']

/-- `digitsHex[lsd]`. -/
def hex (lsd : ℤ) : Byte := digitsHex.getD lsd.natAbs 0

/-- The loop of `convert` and `convertHex` from `*p` on; 64 bits have at most `fuel` = 20 decimal
digits. -/
def convertLoop (base : ℤ) (symbol : ℤ → Byte) : ℕ → ℤ → Mem → ℕ → Mem × ℕ
  | 0, _, buf, p => (buf, p)
  | fuel + 1, i, buf, p =>
      let lsd := i.tmod base
      let i := i.tdiv base
      let buf := store buf p (symbol lsd)
      if i ≠ 0 then convertLoop base symbol fuel i buf (p + 1) else (buf, p + 1)

/-- `std::reverse`. -/
def reverse (buf : Mem) (first last : ℕ) : Mem := fun addr ↦
  if first ≤ addr ∧ addr < last then buf (first + last - 1 - addr) else buf addr

/-- `convert` at a place of the memory: the memory and the length. -/
def convert (buf : Mem) (place : ℕ) (value : ℤ) : Mem × ℕ :=
  let (buf, p) := convertLoop 10 zero 20 value buf place
  let (buf, p) := if value < 0 then (store buf p minus, p + 1) else (buf, p)
  let buf := store buf p 0
  (reverse buf place p, p - place)

/-- `convertHex`. -/
def convertHex (buf : Mem) (place : ℕ) (value : BitVec 32) : Mem × ℕ :=
  let (buf, p) := convertLoop 16 hex 20 value.toNat buf place
  let buf := store buf p 0
  (reverse buf place p, p - place)

/-! ### The buffer -/

/-- `kSmallBuffer`. -/
def kSmallBuffer : ℕ := 200

/-- `kMaxNumericSize`. -/
def kMaxNumericSize : ℤ := 32

/-- `FixedBuffer<kSmallBuffer>`: the memory from `data_` on, and `cur_` as an offset. -/
structure FixedBuffer where
  data : Mem
  cur : ℕ

namespace FixedBuffer

def avail (buffer : FixedBuffer) : ℤ := kSmallBuffer - buffer.cur

/-- `append`; the length is a `size_t`, and so is what is left of the buffer. -/
def append (buffer : FixedBuffer) (buf : List Byte) : FixedBuffer :=
  if buf.length < (BitVec.ofInt 32 buffer.avail).toNat then
    { data := blit buffer.data buffer.cur (fun addr ↦ buf.getD addr 0) 0 buf.length
      cur := buffer.cur + buf.length }
  else buffer

end FixedBuffer

/-- The integer types for which `operator<<` is overloaded. -/
inductive IntegerType where
  | short | unsignedShort | int | unsignedInt | long | unsignedLong | longLong | unsignedLongLong
  deriving DecidableEq

namespace IntegerType

/-- Bits, on the target. -/
def width : IntegerType → ℕ
  | short | unsignedShort => 16
  | int | unsignedInt | long | unsignedLong => 32
  | longLong | unsignedLongLong => 64

/-- The number that a word of the type is. -/
def number (type : IntegerType) (v : BitVec type.width) : ℤ :=
  match type with
  | short | int | long | longLong => v.toInt
  | unsignedShort | unsignedInt | unsignedLong | unsignedLongLong => v.toNat

end IntegerType

/-- What can be written to a stream; `δ` is the type `double`. -/
inductive Item (δ : Type) where
  | bool (v : Bool)
  | char (v : Byte)
  | integer (type : IntegerType) (v : BitVec type.width)
  | pointer (v : BitVec 32)
  | double (v : δ)
  /-- `const char *`, `string`, `StringPiece` and the like -/
  | string (v : List Byte)

section
variable {δ : Type} (printG : δ → List Byte)

namespace FixedBuffer

/-- `formatInteger`; the conversion of the short types to `int` keeps the number. -/
def formatInteger (buffer : FixedBuffer) (v : ℤ) : FixedBuffer :=
  if kMaxNumericSize ≤ buffer.avail then
    let (data, len) := Api.convert buffer.data buffer.cur v
    { data := data, cur := buffer.cur + len }
  else buffer

/-- `operator<<(const void *)`. -/
def formatPointer (buffer : FixedBuffer) (v : BitVec 32) : FixedBuffer :=
  if kMaxNumericSize ≤ buffer.avail then
    let buf := store buffer.data buffer.cur (ascii '0')
    let buf := store buf (buffer.cur + 1) (ascii 'x')
    let (data, len) := convertHex buf (buffer.cur + 2) v
    { data := data, cur := buffer.cur + (len + 2) }
  else buffer

/-- `operator<<(double)`: `snprintf` cuts the text at 31 characters and returns its full length. -/
def formatDouble (buffer : FixedBuffer) (v : δ) : FixedBuffer :=
  if kMaxNumericSize ≤ buffer.avail then
    let buf := (printG v).take 31 ++ [0]
    { data := blit buffer.data buffer.cur (fun addr ↦ buf.getD addr 0) 0 buf.length
      cur := buffer.cur + (printG v).length }
  else buffer

/-- `operator<<`. -/
def put (buffer : FixedBuffer) : Item δ → FixedBuffer
  | .bool v => buffer.append [if v then ascii '1' else ascii '0']
  | .char v => buffer.append [v]
  | .integer type v => buffer.formatInteger (type.number v)
  | .pointer v => buffer.formatPointer v
  | .double v => buffer.formatDouble printG v
  | .string v => buffer.append v

end FixedBuffer

/-! ### What the line should be -/

/-- An integer in decimal. -/
def decimal (v : ℤ) : List Byte :=
  if v < 0 then minus :: numeral digitSymbol 10 v.natAbs else numeral digitSymbol 10 v.natAbs

/-- The text of an item. -/
def Item.text : Item δ → List Byte
  | .bool v => [if v then ascii '1' else ascii '0']
  | .char v => [v]
  | .integer type v => decimal (type.number v)
  | .pointer v => ascii '0' :: ascii 'x' :: numeral digitSymbol 16 v.toNat
  | .double v => printG v
  | .string v => v

/-- The item finds room behind `length` characters. -/
def Item.Fits (length : ℕ) : Item δ → Prop
  | .bool _ | .char _ => length + 1 < kSmallBuffer
  | .string v => length + v.length < kSmallBuffer
  | .integer _ _ | .pointer _ | .double _ => length + 32 ≤ kSmallBuffer

instance instDecidableFits (length : ℕ) : (item : Item δ) → Decidable (item.Fits length)
  | .bool _ | .char _ | .string _ => inferInstanceAs (Decidable (_ < _))
  | .integer _ _ | .pointer _ | .double _ => inferInstanceAs (Decidable (_ ≤ _))

/-- The line with one more item. -/
def writeItem (line : List Byte) (item : Item δ) : List Byte :=
  if item.Fits line.length then line ++ item.text printG else line

end

/-! ### Numbers are printed right -/

theorem zero_eq : ∀ d < 10, zero (d : ℕ) = digitSymbol d ∧ zero (-(d : ℕ)) = digitSymbol d := by
  decide

theorem digitsHex_eq : ∀ d < 16, digitsHex.getD d 0 = digitSymbol d := by decide

/-- What a write leaves: the text from `place` on, and the bytes outside `room` bytes there. -/
structure Writes (place room : ℕ) (s : List Byte) (buf buf' : Mem) : Prop where
  text : bytes buf' place s.length = s
  outside : ∀ a, a < place ∨ place + room ≤ a → buf' a = buf a
  fits : s.length ≤ room

theorem convertLoop_succ (base : ℤ) (symbol : ℤ → Byte) (fuel : ℕ) (i : ℤ) (buf : Mem) (p : ℕ) :
    convertLoop base symbol (fuel + 1) i buf p =
      if i.tdiv base ≠ 0 then
        convertLoop base symbol fuel (i.tdiv base) (store buf p (symbol (i.tmod base))) (p + 1)
      else (store buf p (symbol (i.tmod base)), p + 1) := by
  rw [convertLoop]

/-- The loop writes the digits, the last one first. -/
theorem convertLoop_spec {base : ℕ} (hbase : 1 < base) {symbol : ℤ → Byte} {sym : ℕ → Byte}
    (hsymbol : ∀ i : ℤ, i.natAbs < base → symbol i = sym i.natAbs) {fuel : ℕ} {value : ℤ}
    (hfuel : 0 < fuel) (hlt : value.natAbs < base ^ fuel) (buf : Mem) (place : ℕ) :
    (convertLoop base symbol fuel value buf place).2 =
        place + (digitList base value.natAbs).length ∧
      Writes place (digitList base value.natAbs).length ((digitList base value.natAbs).map sym)
        buf (convertLoop base symbol fuel value buf place).1 := by
  induction fuel generalizing value buf place with
  | zero => exact absurd hfuel (lt_irrefl 0)
  | succ fuel ih =>
      have hmod : (value.tmod base).natAbs = value.natAbs % base := by
        rw [Int.natAbs_tmod, Int.natAbs_natCast]
      have hdiv : (value.tdiv base).natAbs = value.natAbs / base := by
        rw [Int.natAbs_tdiv, Int.natAbs_natCast]
        rfl
      have hlast : symbol (value.tmod base) = sym (value.natAbs % base) := by
        rw [hsymbol _ (by rw [hmod]; exact Nat.mod_lt _ (by omega)), hmod]
      have hzero : value.tdiv base ≠ 0 ↔ value.natAbs / base ≠ 0 := by
        rw [← hdiv, ne_eq, ne_eq, Int.natAbs_eq_zero]
      rw [convertLoop_succ]
      by_cases hmore : value.natAbs / base = 0
      · have hstop : ¬ value.tdiv base ≠ 0 := by rw [hzero]; exact not_not.mpr hmore
        rw [if_neg hstop, digitList_of_div_eq_zero hbase hmore, List.length_singleton,
          List.map_singleton, hlast]
        refine ⟨rfl, ?_, fun a ha ↦ store_of_ne _ _ (by omega), le_rfl⟩
        exact congrArg (fun b ↦ [b]) (store_same buf place _)
      · have hgo : value.tdiv base ≠ 0 := hzero.mpr hmore
        have hrest := div_lt_pow hlt
        rw [← hdiv] at hrest
        have hfuel' : 0 < fuel := by
          rcases Nat.eq_zero_or_pos fuel with rfl | hpos
          · exact absurd (Nat.lt_one_iff.mp hrest) (by rwa [hdiv])
          · exact hpos
        obtain ⟨hend, hwrites⟩ :=
          ih hfuel' hrest (store buf place (symbol (value.tmod base))) (place + 1)
        rw [hdiv] at hend hwrites
        have hfirst := hwrites.outside place (.inl (Nat.lt_succ_self place))
        rw [store_same] at hfirst
        have htext := hwrites.text
        rw [List.length_map] at htext
        generalize convertLoop base symbol fuel (value.tdiv base)
          (store buf place (symbol (value.tmod base))) (place + 1) = result at *
        rw [if_pos hgo, digitList_of_div_ne_zero hbase hmore, List.length_cons, List.map_cons]
        refine ⟨by rw [hend]; omega, ?_, fun a ha ↦ ?_, ?_⟩
        · rw [List.length_cons, List.length_map, Nat.add_comm _ 1, ← bytes_append, htext]
          exact congrArg (fun b ↦ [b] ++ _) (hfirst.trans hlast)
        · rw [hwrites.outside a (by omega), store_of_ne _ _ (by omega)]
        · rw [List.length_cons, List.length_map]

theorem bytes_reverse (buf : Mem) (first len : ℕ) :
    bytes (reverse buf first (first + len)) first len = (bytes buf first len).reverse := by
  apply List.ext_getElem
  · rw [length_bytes, List.length_reverse, length_bytes]
  · intro i hi hi'
    rw [length_bytes] at hi
    have hinside : first ≤ first + i ∧ first + i < first + len := by omega
    have hplace : first + (first + len) - 1 - (first + i) = first + (len - 1 - i) := by omega
    simp only [bytes, List.getElem_reverse, List.getElem_map, List.getElem_range, List.length_map,
      List.length_range, reverse, hinside, if_true, and_self, hplace]

/-- Digits, perhaps with a sign behind them, terminated and reversed. -/
theorem writes_reversed {buf buf' : Mem} {place : ℕ} {s : List Byte}
    (hwrites : Writes place s.length s buf buf') :
    Writes place (s.length + 1) (s.reverse ++ [0]) buf
      (reverse (store buf' (place + s.length) 0) place (place + s.length)) := by
  have hstored : bytes (store buf' (place + s.length) 0) place s.length = s := by
    refine Eq.trans (bytes_congr fun i hi ↦ ?_) hwrites.text
    exact store_of_ne _ _ (by omega)
  have hend : reverse (store buf' (place + s.length) 0) place (place + s.length)
      (place + s.length) = 0 := by
    rw [reverse, if_neg (by omega), store_same]
  refine ⟨?_, fun a ha ↦ ?_, ?_⟩
  · rw [List.length_append, List.length_reverse, List.length_singleton, ← bytes_append,
      bytes_reverse, hstored]
    exact congrArg (fun b ↦ _ ++ [b]) hend
  · rw [reverse, if_neg (by omega), store_of_ne _ _ (by omega), hwrites.outside a (by omega)]
  · rw [List.length_append, List.length_reverse, List.length_singleton]

theorem Writes.store_behind {buf buf' : Mem} {place : ℕ} {s : List Byte}
    (hwrites : Writes place s.length s buf buf') (value : Byte) :
    Writes place (s ++ [value]).length (s ++ [value]) buf
      (store buf' (place + s.length) value) := by
  refine ⟨?_, fun a ha ↦ ?_, le_rfl⟩
  · rw [List.length_append, List.length_singleton, bytes_store, hwrites.text]
  · rw [List.length_append, List.length_singleton] at ha
    rw [store_of_ne _ _ (by omega), hwrites.outside a (by omega)]

theorem writes_nil (place : ℕ) (buf : Mem) : Writes place ([] : List Byte).length [] buf buf :=
  ⟨rfl, fun _ _ ↦ rfl, le_rfl⟩

/-- Two texts, one behind the other. -/
theorem Writes.append {buf buf' buf'' : Mem} {place room : ℕ} {s s' : List Byte}
    (hfirst : Writes place s.length s buf buf')
    (hsecond : Writes (place + s.length) room s' buf' buf'') :
    Writes place (s.length + room) (s ++ s') buf buf'' := by
  have hbefore : bytes buf'' place s.length = s := by
    refine Eq.trans (bytes_congr fun i hi ↦ ?_) hfirst.text
    exact hsecond.outside _ (.inl (by omega))
  refine ⟨?_, fun a ha ↦ ?_, ?_⟩
  · rw [List.length_append, ← bytes_append, hbefore, hsecond.text]
  · rw [hsecond.outside a (by omega), hfirst.outside a (by omega)]
  · rw [List.length_append]
    exact Nat.add_le_add_left hsecond.fits _

/-- A number that 64 bits can hold. -/
theorem convert_writes {value : ℤ} (hlt : value.natAbs < 10 ^ 20) (buf : Mem) (place : ℕ) :
    (convert buf place value).2 = (decimal value).length ∧
      Writes place ((decimal value).length + 1) (decimal value ++ [0]) buf
        (convert buf place value).1 := by
  have hsymbol : ∀ i : ℤ, i.natAbs < 10 → zero i = digitSymbol i.natAbs := by
    intro i hi
    rcases Int.natAbs_eq i with hpos | hneg
    · rw [hpos, Int.natAbs_natCast]
      exact (zero_eq _ hi).1
    · rw [hneg, Int.natAbs_neg, Int.natAbs_natCast]
      exact (zero_eq _ hi).2
  obtain ⟨hend, hwrites⟩ :=
    convertLoop_spec (by decide : 1 < 10) hsymbol (by decide : 0 < 20) hlt buf place
  have hlength : ((digitList 10 value.natAbs).map digitSymbol).length =
      (digitList 10 value.natAbs).length := List.length_map ..
  rw [← hlength] at hend hwrites
  unfold convert decimal numeral
  push_cast at hend hwrites
  by_cases hneg : value < 0
  · have hsigned := writes_reversed (hwrites.store_behind minus)
    rw [List.reverse_append, List.reverse_singleton, List.singleton_append, List.length_append,
      List.length_singleton] at hsigned
    simp only [hneg, if_true, hend, List.length_cons, List.length_reverse]
    exact ⟨by omega, hsigned⟩
  · have hunsigned := writes_reversed hwrites
    simp only [hneg, if_false, hend, List.length_reverse]
    exact ⟨by omega, hunsigned⟩

theorem convertHex_writes (buf : Mem) (place : ℕ) (value : BitVec 32) :
    (convertHex buf place value).2 = (numeral digitSymbol 16 value.toNat).length ∧
      Writes place ((numeral digitSymbol 16 value.toNat).length + 1)
        (numeral digitSymbol 16 value.toNat ++ [0]) buf (convertHex buf place value).1 := by
  have hlt : ((value.toNat : ℕ) : ℤ).natAbs < 16 ^ 20 := by
    rw [Int.natAbs_natCast]
    exact value.isLt.trans (by decide)
  have hsymbol : ∀ i : ℤ, i.natAbs < 16 → hex i = digitSymbol i.natAbs :=
    fun i hi ↦ digitsHex_eq i.natAbs hi
  obtain ⟨hend, hwrites⟩ :=
    convertLoop_spec (by decide : 1 < 16) hsymbol (by decide : 0 < 20) hlt buf place
  have hlength : ((digitList 16 value.toNat).map digitSymbol).length =
      (digitList 16 value.toNat).length := List.length_map ..
  rw [Int.natAbs_natCast, ← hlength] at hend hwrites
  have hreversed := writes_reversed hwrites
  unfold convertHex numeral
  push_cast at hend hreversed
  simp only [hend, List.length_reverse]
  exact ⟨by omega, hreversed⟩

/-! ### The line -/

/-- A number below a power of the base has no more digits than the power. -/
theorem length_digitList_le {base n k : ℕ} (hbase : 1 < base) (hk : 0 < k) (hlt : n < base ^ k) :
    (digitList base n).length ≤ k := by
  unfold digitList
  split
  · exact hk
  · exact (Nat.digits_length_le_iff hbase n).mpr hlt

theorem readBack_decimal (v : ℤ) : readBack 10 (decimal v) = v := by
  have hread := readBack_numeral (by decide : 2 ≤ 10) (by decide) v.natAbs
  unfold decimal
  by_cases hneg : v < 0
  · have hvalue : value digitOf 10 (numeral digitSymbol 10 v.natAbs) = v.natAbs :=
      value_numeral (by decide) fun d hd ↦ digitOf_digitSymbol d (by omega)
    rw [if_pos hneg, readBack, if_pos rfl, hvalue]
    omega
  · rw [if_neg hneg, hread]
    omega

/-- The numbers of the integer types. -/
theorem number_range (type : IntegerType) (v : BitVec type.width) :
    -2 ^ 63 ≤ type.number v ∧ type.number v < 2 ^ 64 := by
  have hlt := v.isLt
  cases type <;> simp only [IntegerType.number, IntegerType.width] at hlt v ⊢
  case short | int | long | longLong =>
    have hle := BitVec.le_toInt v
    have hlt' := BitVec.toInt_lt (x := v)
    norm_num at hle hlt'
    omega
  all_goals
    norm_num at hlt
    omega

theorem length_decimal_le (type : IntegerType) (v : BitVec type.width) :
    (decimal (type.number v)).length ≤ 20 := by
  obtain ⟨hlow, hhigh⟩ := number_range type v
  unfold decimal
  by_cases hneg : type.number v < 0
  · rw [if_pos hneg, List.length_cons, length_numeral]
    have hle : (digitList 10 (type.number v).natAbs).length ≤ 19 :=
      length_digitList_le (by decide) (by decide) (by omega)
    omega
  · rw [if_neg hneg, length_numeral]
    exact length_digitList_le (by decide) (by decide) (by omega)

/-- `convert` prints every number of every integer type, the most negative ones too: the text reads
back as the number, a terminator follows, and no more than 21 bytes are written. -/
theorem convert_printsRight (type : IntegerType) (v : BitVec type.width) (buf : Mem) (place : ℕ) :
    let text := bytes (convert buf place (type.number v)).1 place
      (convert buf place (type.number v)).2
    readBack 10 text = type.number v ∧ text = decimal (type.number v) ∧
      (convert buf place (type.number v)).1 (place + (convert buf place (type.number v)).2) = 0 ∧
      ∀ a, a < place ∨ place + 21 ≤ a → (convert buf place (type.number v)).1 a = buf a := by
  obtain ⟨hlow, hhigh⟩ := number_range type v
  have hlength := length_decimal_le type v
  have hlt : (type.number v).natAbs < 10 ^ 20 := by omega
  obtain ⟨hlen, hwrites⟩ := convert_writes hlt buf place
  have htext := hwrites.text
  rw [List.length_append, List.length_singleton, ← bytes_append] at htext
  obtain ⟨hdigits, hend⟩ := List.append_inj htext (length_bytes ..)
  simp only [hlen, hdigits]
  refine ⟨readBack_decimal _, trivial, (List.cons.inj hend).1, fun a ha ↦ ?_⟩
  exact hwrites.outside a (by omega)

/-- The buffer holds the line, and nothing behind the buffer is written. -/
structure Shows (behind : Mem) (line : List Byte) (buffer : FixedBuffer) : Prop where
  text : bytes buffer.data 0 line.length = line
  length : buffer.cur = line.length
  room : buffer.cur < kSmallBuffer
  outside : ∀ a, kSmallBuffer ≤ a → buffer.data a = behind a

/-- A text is written behind the line. -/
theorem Shows.write {behind : Mem} {line : List Byte} {buffer : FixedBuffer}
    (hshows : Shows behind line buffer) {s : List Byte} {data : Mem}
    (htext : bytes data buffer.cur s.length = s)
    (houtside : ∀ a, a < buffer.cur ∨ kSmallBuffer ≤ a → data a = buffer.data a)
    (hroom : buffer.cur + s.length < kSmallBuffer) :
    Shows behind (line ++ s) { data := data, cur := buffer.cur + s.length } where
  text := by
    have hbefore : bytes data 0 line.length = line := by
      rw [← hshows.text, length_bytes]
      apply bytes_congr
      intro i hi
      exact houtside _ (.inl (by rw [Nat.zero_add, hshows.length]; exact hi))
    rw [hshows.length] at htext
    rw [List.length_append, ← bytes_append, Nat.zero_add, hbefore, htext]
  length := by rw [List.length_append, hshows.length]
  room := hroom
  outside := fun a ha ↦ (houtside a (.inr ha)).trans (hshows.outside a ha)

theorem Shows.avail {behind : Mem} {line : List Byte} {buffer : FixedBuffer}
    (hshows : Shows behind line buffer) :
    buffer.avail = ((kSmallBuffer - line.length : ℕ) : ℤ) := by
  have hlength := hshows.length
  have hroom := hshows.room
  unfold FixedBuffer.avail
  omega

/-- A copy of a text reads as the text. -/
theorem bytes_blit_text (dst : Mem) (place : ℕ) (s : List Byte) :
    bytes (blit dst place (fun addr ↦ s.getD addr 0) 0 s.length) place s.length = s := by
  rw [bytes_blit]
  apply List.ext_getElem
  · rw [length_bytes]
  · intro i hi hi'
    simp [bytes, hi']

/-- `append` writes a text whole or not at all. -/
theorem Shows.append {behind : Mem} {line : List Byte} {buffer : FixedBuffer}
    (hshows : Shows behind line buffer) (s : List Byte) :
    Shows behind (if line.length + s.length < kSmallBuffer then line ++ s else line)
      (buffer.append s) := by
  have havail : (BitVec.ofInt 32 buffer.avail).toNat = kSmallBuffer - line.length := by
    rw [hshows.avail, BitVec.ofInt_natCast, BitVec.toNat_ofNat]
    unfold kSmallBuffer
    omega
  unfold FixedBuffer.append
  rw [havail]
  by_cases hfits : line.length + s.length < kSmallBuffer
  · rw [if_pos hfits, if_pos (by omega)]
    apply hshows.write
    · exact bytes_blit_text ..
    · intro a ha
      apply blit_of_outside
      rw [hshows.length] at ha ⊢
      omega
    · rw [hshows.length]
      exact hfits
  · rw [if_neg hfits, if_neg (by omega)]
    exact hshows

/-- A number is written, terminator included, if there are 32 bytes left. -/
theorem Shows.number {behind : Mem} {line : List Byte} {buffer : FixedBuffer}
    (hshows : Shows behind line buffer) {s : List Byte} {data : Mem} {room : ℕ}
    (hwrites : Writes buffer.cur room (s ++ [0]) buffer.data data)
    (hroom : s.length + 1 ≤ 32 ∧ room ≤ 32) (hfits : line.length + 32 ≤ kSmallBuffer) :
    Shows behind (line ++ s) { data := data, cur := buffer.cur + s.length } := by
  have hlength := hshows.length
  have htext := hwrites.text
  rw [List.length_append, List.length_singleton, ← bytes_append] at htext
  obtain ⟨hdigits, -⟩ := List.append_inj htext (length_bytes ..)
  apply hshows.write hdigits
  · intro a ha
    exact hwrites.outside a (by omega)
  · omega

section
variable {δ : Type} {printG : δ → List Byte}

/-- Every item is written as the line says. -/
theorem shows_put (hprintG : ∀ v, (printG v).length < 32) {behind : Mem} {line : List Byte}
    {buffer : FixedBuffer} (hshows : Shows behind line buffer) (item : Item δ) :
    Shows behind (writeItem printG line item) (buffer.put printG item) := by
  have hnumeric : kMaxNumericSize ≤ buffer.avail ↔ line.length + 32 ≤ kSmallBuffer := by
    have hroom := hshows.room
    have hlength := hshows.length
    rw [hshows.avail]
    unfold kMaxNumericSize
    omega
  unfold writeItem
  cases item with
  | bool v => exact hshows.append [if v then ascii '1' else ascii '0']
  | char v => exact hshows.append [v]
  | string v => exact hshows.append v
  | integer type v =>
      rw [FixedBuffer.put, FixedBuffer.formatInteger]
      by_cases hfits : (Item.integer type v : Item δ).Fits line.length
      · have hlength := length_decimal_le type v
        obtain ⟨hlow, hhigh⟩ := number_range type v
        have hlt : (type.number v).natAbs < 10 ^ 20 := by omega
        obtain ⟨hlen, hwrites⟩ := convert_writes hlt buffer.data buffer.cur
        rw [if_pos (hnumeric.mpr hfits), if_pos hfits]
        simp only [hlen]
        exact hshows.number (s := decimal (type.number v)) hwrites (by omega) hfits
      · rw [if_neg (mt hnumeric.mp hfits), if_neg hfits]
        exact hshows
  | pointer v =>
      rw [FixedBuffer.put, FixedBuffer.formatPointer]
      by_cases hfits : (Item.pointer v : Item δ).Fits line.length
      · have hlength : (numeral digitSymbol 16 v.toNat).length ≤ 8 := by
          rw [length_numeral]
          exact length_digitList_le (by decide) (by decide) (v.isLt.trans_le (by decide))
        have hbegin := ((writes_nil buffer.cur buffer.data).store_behind (ascii '0')).store_behind
          (ascii 'x')
        obtain ⟨hlen, hhex⟩ := convertHex_writes
          (store (store buffer.data buffer.cur (ascii '0')) (buffer.cur + 1) (ascii 'x'))
          (buffer.cur + 2) v
        have hwrites := hbegin.append hhex
        rw [if_pos (hnumeric.mpr hfits), if_pos hfits]
        simp only [hlen]
        have hroom : (numeral digitSymbol 16 v.toNat).length + 1 + 1 + 1 ≤ 32 ∧
            1 + 1 + ((numeral digitSymbol 16 v.toNat).length + 1) ≤ 32 := by omega
        exact hshows.number (s := ascii '0' :: ascii 'x' :: numeral digitSymbol 16 v.toNat) hwrites
          hroom hfits
      · rw [if_neg (mt hnumeric.mp hfits), if_neg hfits]
        exact hshows
  | double v =>
      rw [FixedBuffer.put, FixedBuffer.formatDouble]
      by_cases hfits : (Item.double v : Item δ).Fits line.length
      · have hlength := hprintG v
        have htake : (printG v).take 31 = printG v := List.take_of_length_le (by omega)
        rw [if_pos (hnumeric.mpr hfits), if_pos hfits, htake]
        have hwrites : Writes buffer.cur ((printG v).length + 1) (printG v ++ [0]) buffer.data
            (blit buffer.data buffer.cur (fun addr ↦ (printG v ++ [0]).getD addr 0) 0
              (printG v ++ [0]).length) := by
          refine ⟨bytes_blit_text .., fun a ha ↦ ?_, ?_⟩
          · apply blit_of_outside
            rw [List.length_append, List.length_singleton]
            omega
          · rw [List.length_append, List.length_singleton]
        exact hshows.number (s := printG v) hwrites (by omega) hfits
      · rw [if_neg (mt hnumeric.mp hfits), if_neg hfits]
        exact hshows

variable (printG)

/-- The buffer after a row of items, in memory that may hold anything. -/
def stream (data : Mem) (items : List (Item δ)) : FixedBuffer :=
  items.foldl (FixedBuffer.put printG) { data := data, cur := 0 }

/-- The line that the items make. -/
def lineOf (items : List (Item δ)) : List Byte := items.foldl (writeItem printG) []

variable {printG}

theorem shows_foldl (hprintG : ∀ v, (printG v).length < 32) {behind : Mem} {line : List Byte}
    {buffer : FixedBuffer} (hshows : Shows behind line buffer) (items : List (Item δ)) :
    Shows behind (items.foldl (writeItem printG) line)
      (items.foldl (FixedBuffer.put printG) buffer) := by
  induction items generalizing line buffer with
  | nil => exact hshows
  | cons item items ih => exact ih (shows_put hprintG hshows item)

theorem shows_stream (hprintG : ∀ v, (printG v).length < 32) (data : Mem)
    (items : List (Item δ)) : Shows data (lineOf printG items) (stream printG data items) := by
  have hstart : Shows data [] { data := data, cur := 0 } :=
    ⟨rfl, rfl, (by decide : 0 < kSmallBuffer), fun _ _ ↦ rfl⟩
  exact shows_foldl hprintG hstart items

/-- The items that found room make up the line, each of them whole. -/
theorem foldl_writeItem_sublist (printG : δ → List Byte) (line : List Byte)
    (items : List (Item δ)) :
    ∃ kept : List (Item δ), kept.Sublist items ∧
      items.foldl (writeItem printG) line = line ++ kept.flatMap (Item.text printG) := by
  induction items generalizing line with
  | nil => exact ⟨[], List.Sublist.refl [], by rw [List.flatMap_nil, List.append_nil]; rfl⟩
  | cons item items ih =>
      obtain ⟨kept, hsublist, hline⟩ := ih (writeItem printG line item)
      rw [List.foldl_cons, hline, writeItem]
      split
      · refine ⟨item :: kept, hsublist.cons_cons item, ?_⟩
        rw [List.flatMap_cons, List.append_assoc]
      · exact ⟨kept, hsublist.cons item, rfl⟩

theorem writeItem_string {line s : List Byte} (hfits : line.length + s.length < kSmallBuffer) :
    writeItem printG line (.string s) = line ++ s := if_pos hfits

/-- An item whose end leaves 32 characters of the buffer finds room. -/
theorem fits_of_le (printG : δ → List Byte) {length : ℕ} (item : Item δ)
    (hle : length + (item.text printG).length + 32 ≤ kSmallBuffer) : item.Fits length := by
  cases item <;> simp only [Item.Fits, Item.text, List.length_singleton] at hle ⊢ <;> omega

/-- Nothing is left out of a short line. -/
theorem foldl_writeItem_of_short {line : List Byte} (items : List (Item δ))
    (hshort : line.length + (items.flatMap (Item.text printG)).length + 32 ≤ kSmallBuffer) :
    items.foldl (writeItem printG) line = line ++ items.flatMap (Item.text printG) := by
  induction items generalizing line with
  | nil => rw [List.flatMap_nil, List.append_nil]; rfl
  | cons item items ih =>
      rw [List.flatMap_cons, List.length_append] at hshort
      have hfits : item.Fits line.length := fits_of_le printG item (by omega)
      rw [List.foldl_cons, writeItem, if_pos hfits, ih (by rw [List.length_append]; omega),
        List.flatMap_cons, List.append_assoc]

/-- Whatever is written to a stream: the buffer holds the line that the items make; the line is made
of items that are there whole and in their order, all of them if it is short; it ends inside the
buffer, and no byte behind the buffer is written. -/
theorem stream_spec (printG : δ → List Byte) (hprintG : ∀ v, (printG v).length < 32) (data : Mem)
    (items : List (Item δ)) :
    let buffer := stream printG data items
    bytes buffer.data 0 buffer.cur = lineOf printG items ∧
      (∃ kept : List (Item δ), kept.Sublist items ∧
        lineOf printG items = kept.flatMap (Item.text printG)) ∧
      ((items.flatMap (Item.text printG)).length ≤ 168 →
        lineOf printG items = items.flatMap (Item.text printG)) ∧
      buffer.cur < 200 ∧ ∀ a, 200 ≤ a → buffer.data a = data a := by
  have hshows := shows_stream hprintG data items
  have htext := hshows.text
  rw [← hshows.length] at htext
  refine ⟨htext, foldl_writeItem_sublist printG [] items, fun hshort ↦ ?_, hshows.room,
    hshows.outside⟩
  apply foldl_writeItem_of_short items
  unfold kSmallBuffer
  rw [List.length_nil]
  omega

/-- The most negative number, a `double` and a text. -/
def intMinLine : List (Item ℕ) :=
  [.integer .longLong (BitVec.intMin 64), .double 0, .string (text ['s'])]

/-- Every `double` is printed as one digit here. -/
theorem stream_spec_intMinLine :
    let buffer := stream (fun _ ↦ [ascii '0']) (fun _ ↦ 0) intMinLine
    bytes buffer.data 0 buffer.cur = lineOf (fun _ ↦ [ascii '0']) intMinLine ∧
      (∃ kept : List (Item ℕ), kept.Sublist intMinLine ∧
        lineOf (fun _ ↦ [ascii '0']) intMinLine =
          kept.flatMap (Item.text fun _ ↦ [ascii '0'])) ∧
      ((intMinLine.flatMap (Item.text fun _ ↦ [ascii '0'])).length ≤ 168 →
        lineOf (fun _ ↦ [ascii '0']) intMinLine =
          intMinLine.flatMap (Item.text fun _ ↦ [ascii '0'])) ∧
      buffer.cur < 200 ∧ ∀ a, 200 ≤ a → buffer.data a = (fun _ ↦ 0 : Mem) a :=
  stream_spec (fun _ ↦ [ascii '0']) (fun _ ↦ by decide) (fun _ ↦ 0) intMinLine

end

end ProjectSensor.Api
