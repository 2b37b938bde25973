import Mathlib.Algebra.Group.Nat.Defs
import Ipad.Lib.Except
import Ipad.Lib.Memory
import Ipad.Buf

/-!
# Hexadecimal digits

`ipa_hexdump` and `ipa_binary_from_hexstr`.
-/

namespace Ipad.Utils.Hex
open Lib.Except Lib.Memory

/-! ## Printing -/

def ipaHexdumpMax : Nat := 4
def ipaHexdumpBufsize : Nat := 256

def hexDigit (n : Nat) : UInt8 := UInt8.ofNat (if n < 10 then 0x30 + n else 0x37 + n)

/-- `%02X`. -/
def hexByte (byte : UInt8) : List UInt8 := [hexDigit (byte.toNat / 16), hexDigit (byte.toNat % 16)]

def dots : List UInt8 := [0x2E, 0x2E, 0x2E]

abbrev Slot := Region UInt8 ipaHexdumpBufsize

def sprintf (out : Slot) (outPtr : Nat) (text : List UInt8) : Except Fault Slot :=
  out.store .outOfBounds outPtr (text ++ [0])

def hexdumpLoop : (data : List UInt8) → (i outPtr : Nat) → Slot → Except Fault Slot
  | [], _, outPtr, out => out.store .outOfBounds outPtr [0]
  | byte :: data, i, outPtr, out => do
      let out ← sprintf out outPtr (hexByte byte)
      if i > ipaHexdumpBufsize / 2 - 4 then sprintf out (outPtr + 2) dots
      else hexdumpLoop data (i + 1) (outPtr + 2) out

structure HexdumpStatic where
  out : Fin ipaHexdumpMax → Slot
  idx : UInt8

def HexdumpStatic.next (static : HexdumpStatic) : UInt8 := (static.idx + 1) % UInt8.ofNat ipaHexdumpMax

theorem HexdumpStatic.next_lt (static : HexdumpStatic) : static.next.toNat < ipaHexdumpMax := by
  rw [next, UInt8.toNat_mod]
  exact Nat.mod_lt _ (by decide)

/-- The slot that is used; without data it is a constant string instead. -/
def ipaHexdump (static : HexdumpStatic) (data : Option (List UInt8)) :
    Except Fault (HexdumpStatic × Option (Fin ipaHexdumpMax)) :=
  let idx : Fin ipaHexdumpMax := ⟨static.next.toNat, static.next_lt⟩
  match data with
  | none => .ok ({ static with idx := static.next }, none)
  | some data => do
      let out ← hexdumpLoop data 0 0 (static.out idx)
      return ({ out := Function.update static.out idx out, idx := static.next }, some idx)

def hex (data : List UInt8) : List UInt8 := data.flatMap hexByte

/-- What is printed of `data`: no more than 126 bytes, and then three dots. -/
def printed (data : List UInt8) : List UInt8 :=
  if data.length ≤ 125 then hex data else hex (data.take 126) ++ dots

theorem hexDigit_ne_zero : ∀ n < 16, hexDigit n ≠ 0 := by decide

theorem zero_notMem_hexByte (byte : UInt8) : 0 ∉ hexByte byte := by
  have small := byte.toNat_lt
  have high := hexDigit_ne_zero (byte.toNat / 16) (by omega)
  have low := hexDigit_ne_zero (byte.toNat % 16) (Nat.mod_lt _ (by decide))
  simp [hexByte, high.symm, low.symm]

theorem zero_notMem_hex (data : List UInt8) : 0 ∉ hex data := by
  rw [hex, List.mem_flatMap]
  rintro ⟨byte, -, member⟩
  exact zero_notMem_hexByte byte member

theorem length_hex (data : List UInt8) : (hex data).length = 2 * data.length := by
  induction data with
  | nil => rfl
  | cons byte data ih =>
      rw [hex, List.flatMap_cons, List.length_append, ← hex, ih, List.length_cons]
      simp only [hexByte, List.length_cons, List.length_nil]
      omega

theorem zero_notMem_printed (data : List UInt8) : 0 ∉ printed data := by
  unfold printed
  split
  · exact zero_notMem_hex data
  · simp [zero_notMem_hex, dots]

theorem length_printed (data : List UInt8) : (printed data).length + 1 ≤ ipaHexdumpBufsize := by
  unfold printed ipaHexdumpBufsize
  split
  · rw [length_hex]
    omega
  · rw [List.length_append, length_hex, List.length_take]
    simp only [dots, List.length_cons, List.length_nil]
    omega

/-- What is printed behind `i` bytes. -/
def printedFrom (i : Nat) (data : List UInt8) : List UInt8 :=
  if i + data.length ≤ 125 then hex data else hex (data.take (126 - i)) ++ dots

theorem sprintf_ok (out : Slot) (outPtr : Nat) (text : List UInt8)
    (room : outPtr + text.length < ipaHexdumpBufsize) :
    ∃ out', sprintf out outPtr text = .ok out' ∧
      out'.cells.take (outPtr + text.length + 1) = out.cells.take outPtr ++ text ++ [0] := by
  obtain ⟨out', done, cells⟩ := out.store_front Fault.outOfBounds outPtr (text ++ [0])
    (by rw [List.length_append, List.length_singleton]; exact room)
  rw [List.length_append, List.length_singleton, ← Nat.add_assoc, ← List.append_assoc] at cells
  exact ⟨out', done, cells⟩

theorem printedFrom_next (i : Nat) (byte : UInt8) (data : List UInt8) (room : i ≤ 124) :
    printedFrom i (byte :: data) = hexByte byte ++ printedFrom (i + 1) data := by
  have length : i + (byte :: data).length = i + 1 + data.length := by
    rw [List.length_cons]
    omega
  have rest : 126 - i = 126 - (i + 1) + 1 := by omega
  rw [printedFrom, printedFrom, length]
  split
  · rfl
  · rw [rest, List.take_succ_cons, ← List.append_assoc]
    rfl

theorem printedFrom_last (byte : UInt8) (data : List UInt8) :
    printedFrom 125 (byte :: data) = hexByte byte ++ dots := by
  rw [printedFrom, if_neg (by rw [List.length_cons]; omega)]
  rfl

theorem hexdumpLoop_ok (data : List UInt8) (i : Nat) (out : Slot) (room : i ≤ 125) :
    ∃ out', hexdumpLoop data i (2 * i) out = .ok out' ∧
      out'.cells.take (2 * i + (printedFrom i data).length + 1) =
        out.cells.take (2 * i) ++ printedFrom i data ++ [0] := by
  induction data generalizing i out with
  | nil =>
      have nothing : printedFrom i [] = [] := if_pos room
      rw [nothing]
      exact sprintf_ok out (2 * i) [] (by simp only [ipaHexdumpBufsize, List.length_nil]; omega)
  | cons byte data ih =>
      obtain ⟨next, written, cells⟩ := sprintf_ok out (2 * i) (hexByte byte)
        (by simp only [ipaHexdumpBufsize, hexByte, List.length_cons, List.length_nil]; omega)
      have width : (hexByte byte).length = 2 := rfl
      -- the two characters stay, and the zero behind them is written over
      have kept : next.cells.take (2 * i + 2) = out.cells.take (2 * i) ++ hexByte byte := by
        have long : (out.cells.take (2 * i) ++ hexByte byte).length = 2 * i + 2 := by
          rw [List.length_append, List.length_take, out.length_cells, width, ipaHexdumpBufsize]
          omega
        rw [width] at cells
        calc next.cells.take (2 * i + 2)
            = (next.cells.take (2 * i + 2 + 1)).take (2 * i + 2) := by rw [List.take_take, Nat.min_eq_left (by omega)]
          _ = out.cells.take (2 * i) ++ hexByte byte := by rw [cells, List.take_left' long]
      rw [hexdumpLoop, written]
      by_cases full : i > ipaHexdumpBufsize / 2 - 4
      · obtain rfl : i = 125 := Nat.le_antisymm room full
        obtain ⟨last, ended, cells'⟩ := sprintf_ok next (2 * 125 + 2) dots (by decide)
        refine ⟨last, ?_, ?_⟩
        · simpa [bind, Except.bind, ipaHexdumpBufsize] using ended
        · rw [printedFrom_last, List.length_append, width, ← Nat.add_assoc, ← List.append_assoc, cells', kept]
      · have below : i ≤ 124 := by
          simp only [ipaHexdumpBufsize] at full
          omega
        obtain ⟨last, looped, cells'⟩ := ih (i + 1) next (by omega)
        refine ⟨last, ?_, ?_⟩
        · rw [Nat.mul_add, Nat.mul_one] at looped
          simpa [bind, Except.bind, full] using looped
        · rw [printedFrom_next i byte data below, List.length_append, width, ← Nat.add_assoc,
            ← List.append_assoc, ← kept]
          exact cells'

/-! ## Reading -/

def toLower (c : UInt8) : UInt8 := if 0x41 ≤ c ∧ c ≤ 0x5a then c + 0x20 else c

def isHex (hexDigit : UInt8) : Bool :=
  toLower hexDigit ∈
    [0x61, 0x62, 0x63, 0x64, 0x65, 0x66, 0x31, 0x32, 0x33, 0x34, 0x35, 0x36, 0x37, 0x38, 0x39, 0x30]

def digitValue (hexDigit : UInt8) : UInt8 := if hexDigit ≤ 0x39 then hexDigit - 0x30 else toLower hexDigit - 0x57

/-- Two digits are read with `%02x`. -/
def hexDigitBin (first second : UInt8) : UInt8 :=
  if !isHex first || !isHex second then 0xff else digitValue first * 16 + digitValue second

/-- The pairs are counted in an `unsigned int`. -/
def pairsLoop (binaryLen : Nat) (hexstr : CString) (binary : Region UInt8 binaryLen) (i : UInt32)
    (hexstrPtr binaryCount : Nat) : Except Fault (Region UInt8 binaryLen × Nat) :=
  if i.toNat < hexstr.chars.length / 2 then do
    let first ← load .outOfBounds hexstr.memory hexstrPtr
    let second ← load .outOfBounds hexstr.memory (hexstrPtr + 1)
    let binary ← binary.store .outOfBounds binaryCount [hexDigitBin first second]
    if _full : binaryLen ≤ binaryCount + 1 then return (binary, binaryCount + 1)
    else pairsLoop binaryLen hexstr binary (i + 1) (hexstrPtr + 2) (binaryCount + 1)
  else .ok (binary, binaryCount)
termination_by binaryLen - binaryCount

def ipaBinaryFromHexstr (binaryLen : Nat) (hexstr : CString) : Except Fault (Region UInt8 binaryLen × Nat) :=
  pairsLoop binaryLen hexstr (.filled binaryLen 0) 0 0 0

def pairs : List UInt8 → List UInt8
  | [] => []
  | [_] => []
  | first :: second :: rest => hexDigitBin first second :: pairs rest

theorem length_pairs (chars : List UInt8) : (pairs chars).length = chars.length / 2 := by
  induction chars using pairs.induct with
  | case1 => simp [pairs]
  | case2 last => simp [pairs]
  | case3 first second rest ih =>
      simp only [pairs, List.length_cons, ih]
      omega

theorem getElem?_pairs (chars : List UInt8) (j : Nat) (inside : j < chars.length / 2) :
    ∃ first second, chars[2 * j]? = some first ∧ chars[2 * j + 1]? = some second ∧
      (pairs chars)[j]? = some (hexDigitBin first second) := by
  induction chars using pairs.induct generalizing j with
  | case1 => simp at inside
  | case2 last => simp at inside
  | case3 first second rest ih =>
      cases j with
      | zero => exact ⟨first, second, rfl, rfl, rfl⟩
      | succ j =>
          simp only [List.length_cons] at inside
          obtain ⟨first', second', found⟩ := ih j (by omega)
          exact ⟨first', second', found⟩

section
variable {binaryLen : Nat} {hexstr : CString}

def Decoded (hexstr : CString) (count : Nat) (binary : Region UInt8 binaryLen) : Prop :=
  binary.cells = (pairs hexstr.chars).take count ++ List.replicate (binaryLen - count) 0

theorem load_memory {k : Nat} {c : UInt8} (found : hexstr.chars[k]? = some c) :
    load Fault.outOfBounds hexstr.memory k = .ok c := by
  obtain ⟨inside, same⟩ := List.getElem?_eq_some_iff.mp found
  have behind : k < hexstr.memory.length := by
    rw [CString.memory, List.length_append]
    omega
  rw [load_ok _ behind, ← same]
  simp [CString.memory, List.getElem_append_left inside]

theorem Decoded.store {count : Nat} {binary : Region UInt8 binaryLen} (decoded : Decoded hexstr count binary)
    (room : count < binaryLen) {byte : UInt8} (next : (pairs hexstr.chars)[count]? = some byte) :
    ∃ binary', binary.store Fault.outOfBounds count [byte] = .ok binary' ∧ Decoded hexstr (count + 1) binary' := by
  obtain ⟨binary', stored, cells⟩ := binary.store_ok Fault.outOfBounds count [byte] room
  obtain ⟨inside, same⟩ := List.getElem?_eq_some_iff.mp next
  have width : ((pairs hexstr.chars).take count).length = count := by
    rw [List.length_take]
    omega
  have zeros : binaryLen - count - 1 = binaryLen - (count + 1) := by omega
  refine ⟨binary', stored, ?_⟩
  rw [Decoded, cells, decoded, List.take_left' width, List.length_singleton, ← List.drop_drop,
    List.drop_left' width, List.drop_replicate, zeros, List.take_add_one, next]
  rfl

theorem pairsLoop_step {count : Nat} {binary : Region UInt8 binaryLen} (decoded : Decoded hexstr count binary)
    (inside : count < hexstr.chars.length / 2) (room : count < binaryLen) {i : UInt32}
    (more : i.toNat < hexstr.chars.length / 2) :
    ∃ binary', Decoded hexstr (count + 1) binary' ∧
      pairsLoop binaryLen hexstr binary i (2 * count) count =
        if binaryLen ≤ count + 1 then .ok (binary', count + 1)
        else pairsLoop binaryLen hexstr binary' (i + 1) (2 * (count + 1)) (count + 1) := by
  obtain ⟨first, second, first', second', next⟩ := getElem?_pairs hexstr.chars count inside
  obtain ⟨binary', stored, decoded'⟩ := decoded.store room next
  refine ⟨binary', decoded', ?_⟩
  rw [pairsLoop, if_pos more]
  simp only [load_memory first', load_memory second', stored, bind, Except.bind]
  split <;> rfl

/-- The strings whose pairs the loop can count, or does not get to the end of. -/
def Countable (binaryLen : Nat) (hexstr : CString) : Prop :=
  hexstr.chars.length / 2 < 2 ^ 32 ∨ binaryLen ≤ hexstr.chars.length / 2

theorem pairsLoop_ok (countable : Countable binaryLen hexstr) {count : Nat} {binary : Region UInt8 binaryLen}
    (decoded : Decoded hexstr count binary) (inside : count ≤ hexstr.chars.length / 2) (room : count < binaryLen) :
    ∃ binary', pairsLoop binaryLen hexstr binary (UInt32.ofNat count) (2 * count) count =
        .ok (binary', min (hexstr.chars.length / 2) binaryLen) ∧
      Decoded hexstr (min (hexstr.chars.length / 2) binaryLen) binary' := by
  induction left : binaryLen - count generalizing count binary with
  | zero => omega
  | succ left ih =>
      have index : (UInt32.ofNat count).toNat ≤ count := by
        rw [UInt32.toNat_ofNat']
        exact Nat.mod_le _ _
      by_cases ended : count = hexstr.chars.length / 2
      · -- all pairs have been read, and the counter has not wrapped
        have exact' : (UInt32.ofNat count).toNat = count := by
          rw [UInt32.toNat_ofNat', Nat.mod_eq_of_lt]
          unfold Countable at countable
          omega
        have least : min (hexstr.chars.length / 2) binaryLen = count := by omega
        refine ⟨binary, ?_, by rw [least]; exact decoded⟩
        rw [pairsLoop, if_neg (by omega), least]
      · obtain ⟨binary', decoded', step⟩ := pairsLoop_step decoded (by omega) room
          (i := UInt32.ofNat count) (by omega)
        rw [step]
        by_cases full : binaryLen ≤ count + 1
        · have least : min (hexstr.chars.length / 2) binaryLen = count + 1 := by omega
          rw [if_pos full, least]
          exact ⟨binary', rfl, decoded'⟩
        · rw [if_neg full, ← UInt32.ofNat_one, ← UInt32.ofNat_add]
          exact ih decoded' (by omega) (by omega) (by omega)

/-- A counter of 32 bits does not get to 2^32 pairs, and only the end of `binary` ends the loop. -/
theorem pairsLoop_long (long : 2 ^ 32 ≤ hexstr.chars.length / 2) {count : Nat} {binary : Region UInt8 binaryLen}
    {i : UInt32} {hexstrPtr : Nat} (room : count < binaryLen) {out : Region UInt8 binaryLen × Nat}
    (run : pairsLoop binaryLen hexstr binary i hexstrPtr count = .ok out) : out.2 = binaryLen := by
  induction left : binaryLen - count generalizing count binary i hexstrPtr with
  | zero => omega
  | succ left ih =>
      have more : i.toNat < hexstr.chars.length / 2 := Nat.lt_of_lt_of_le i.toNat_lt long
      rw [pairsLoop, if_pos more, bind_eq_ok] at run
      obtain ⟨first, -, run⟩ := run
      rw [bind_eq_ok] at run
      obtain ⟨second, -, run⟩ := run
      rw [bind_eq_ok] at run
      obtain ⟨stored, -, run⟩ := run
      split at run
      next full =>
        cases run
        exact Nat.le_antisymm room full
      next more => exact ih (by omega) run (by omega)

end

/-! ## Digits -/

def IsDigit (c : UInt8) (value : Nat) : Prop :=
  value < 16 ∧ (c = hexDigit value ∨ 10 ≤ value ∧ c = hexDigit value + 0x20)

instance (c : UInt8) (value : Nat) : Decidable (IsDigit c value) := inferInstanceAs (Decidable (_ ∧ _))

theorem isDigit_ofNat : ∀ n < 256, isHex (UInt8.ofNat n) = true →
    IsDigit (UInt8.ofNat n) (digitValue (UInt8.ofNat n)).toNat := by
  decide +kernel

theorem digitValue_hexDigit : ∀ value < 16, isHex (hexDigit value) = true ∧
    (digitValue (hexDigit value)).toNat = value := by
  decide

theorem digitValue_lower : ∀ value < 16, 10 ≤ value → isHex (hexDigit value + 0x20) = true ∧
    (digitValue (hexDigit value + 0x20)).toNat = value := by
  decide

theorem IsDigit.value_eq {c : UInt8} {value : Nat} (digit : IsDigit c value) :
    isHex c = true ∧ (digitValue c).toNat = value := by
  obtain ⟨small, rfl | ⟨letter, rfl⟩⟩ := digit
  · exact digitValue_hexDigit value small
  · exact digitValue_lower value small letter

theorem isDigit_of_isHex {c : UInt8} (digit : isHex c = true) : IsDigit c (digitValue c).toNat := by
  have small := c.toNat_lt
  rw [← UInt8.ofNat_toNat (x := c)] at digit ⊢
  exact isDigit_ofNat c.toNat small digit

structure DecodesPair (first second byte : UInt8) : Prop where
  digits : ∀ high low, IsDigit first high → IsDigit second low → byte.toNat = 16 * high + low
  other : (¬ ∃ high low, IsDigit first high ∧ IsDigit second low) → byte = 0xff

theorem hexDigitBin_digits {first second : UInt8} {high low : Nat} (digit : IsDigit first high)
    (digit' : IsDigit second low) : (hexDigitBin first second).toNat = 16 * high + low := by
  obtain ⟨known, value⟩ := digit.value_eq
  obtain ⟨known', value'⟩ := digit'.value_eq
  have small := digit.1
  have small' := digit'.1
  simp only [hexDigitBin, known, known', Bool.not_true, Bool.or_self, Bool.false_eq_true, if_false]
  rw [UInt8.toNat_add, UInt8.toNat_mul, value, value']
  show (high * 16 % 256 + low) % 256 = _
  omega

theorem hexDigitBin_decodes (first second : UInt8) : DecodesPair first second (hexDigitBin first second) where
  digits _ _ digit digit' := hexDigitBin_digits digit digit'
  other none := by
    have unknown : (!isHex first || !isHex second) = true := by
      by_contra known
      simp only [Bool.not_eq_true, Bool.or_eq_false_iff, Bool.not_eq_false'] at known
      exact none ⟨_, _, isDigit_of_isHex known.1, isDigit_of_isHex known.2⟩
    exact if_pos unknown

/-! ## Both ways -/

/-- What is left in `binary` and what is returned. -/
def Reads (binaryLen : Nat) (hexstr : CString) : Prop :=
  ∃ binary, ipaBinaryFromHexstr binaryLen hexstr = .ok (binary, min (hexstr.chars.length / 2) binaryLen) ∧
    ∀ j < min (hexstr.chars.length / 2) binaryLen, ∃ first second byte, hexstr.chars[2 * j]? = some first ∧
      hexstr.chars[2 * j + 1]? = some second ∧ binary.cells[j]? = some byte ∧ DecodesPair first second byte

/-- The slot that is used holds what is printed, and the others what they held. -/
def Prints (static : HexdumpStatic) (data : List UInt8) : Prop :=
  (printed data).length + 1 ≤ ipaHexdumpBufsize ∧
    ∃ static' idx, ipaHexdump static (some data) = .ok (static', some idx) ∧
      stringAt (static'.out idx).cells = printed data ∧ ∀ other ≠ idx, static'.out other = static.out other

def stringOf (cells : List UInt8) : CString where
  chars := stringAt cells
  nonzero := stringAt_nonzero cells

def ReadsBack (static : HexdumpStatic) (data : List UInt8) : Prop :=
  ∀ static' idx, ipaHexdump static (some data) = .ok (static', some idx) → data.length ≤ 125 →
    ∀ binaryLen, data.length ≤ binaryLen →
      ∃ binary, ipaBinaryFromHexstr binaryLen (stringOf (static'.out idx).cells) = .ok (binary, data.length) ∧
        binary.cells = data ++ List.replicate (binaryLen - data.length) 0

theorem pairs_hex (data : List UInt8) : pairs (hex data) = data := by
  induction data with
  | nil => rfl
  | cons byte data ih =>
      have small := byte.toNat_lt
      have high : IsDigit (hexDigit (byte.toNat / 16)) (byte.toNat / 16) := ⟨by omega, .inl rfl⟩
      have low : IsDigit (hexDigit (byte.toNat % 16)) (byte.toNat % 16) := ⟨by omega, .inl rfl⟩
      have value := hexDigitBin_digits high low
      have same : hexDigitBin (hexDigit (byte.toNat / 16)) (hexDigit (byte.toNat % 16)) = byte := by
        apply UInt8.toNat_inj.mp
        omega
      rw [hex, List.flatMap_cons, ← hex]
      simp only [hexByte, List.cons_append, List.nil_append, pairs, same, ih]

theorem ipaHexdump_prints (static : HexdumpStatic) (data : List UInt8) : Prints static data := by
  refine ⟨length_printed data, ?_⟩
  obtain ⟨out, looped, cells⟩ := hexdumpLoop_ok data 0 (static.out ⟨static.next.toNat, static.next_lt⟩) (Nat.zero_le _)
  have whole : printedFrom 0 data = printed data := by simp [printedFrom, printed]
  rw [Nat.mul_zero, Nat.zero_add, List.take_zero, List.nil_append, whole] at cells
  rw [Nat.mul_zero] at looped
  refine ⟨_, _, by rw [ipaHexdump, looped]; rfl, ?_, fun other apart => ?_⟩
  · have here := Function.update_self (⟨static.next.toNat, static.next_lt⟩ : Fin ipaHexdumpMax) out static.out
    exact (congrArg (fun slot : Slot => stringAt slot.cells) here).trans
      (stringAt_eq cells (zero_notMem_printed data))
  · exact Function.update_of_ne apart _ _

theorem ipaBinaryFromHexstr_ok {binaryLen : Nat} (hexstr : CString) (countable : Countable binaryLen hexstr)
    (room : 0 < binaryLen) :
    ∃ binary, ipaBinaryFromHexstr binaryLen hexstr = .ok (binary, min (hexstr.chars.length / 2) binaryLen) ∧
      Decoded hexstr (min (hexstr.chars.length / 2) binaryLen) binary := by
  have cleared : Decoded hexstr 0 (.filled binaryLen 0) := rfl
  exact pairsLoop_ok countable cleared (Nat.zero_le _) room

theorem ipaHexdump_readsBack (static : HexdumpStatic) (data : List UInt8) : ReadsBack static data := by
  intro static' idx dumped short binaryLen room
  obtain ⟨-, static'', idx', dumped', text, -⟩ := ipaHexdump_prints static data
  rw [dumped] at dumped'
  cases dumped'
  have chars : (stringOf (static'.out idx).cells).chars = hex data := text.trans (if_pos short)
  have count : (stringOf (static'.out idx).cells).chars.length / 2 = data.length := by
    rw [chars, length_hex]
    omega
  rcases Nat.eq_zero_or_pos binaryLen with rfl | positive
  · obtain rfl : data = [] := List.length_eq_zero_iff.mp (Nat.le_zero.mp room)
    refine ⟨.filled 0 0, ?_, rfl⟩
    rw [ipaBinaryFromHexstr, pairsLoop, if_neg (by rw [count]; exact Nat.not_lt_zero _)]
    rfl
  · obtain ⟨binary, read, decoded⟩ := ipaBinaryFromHexstr_ok (stringOf (static'.out idx).cells)
      (.inl (by rw [count]; omega)) positive
    rw [count, Nat.min_eq_left room] at read decoded
    refine ⟨binary, read, ?_⟩
    rw [decoded, chars, pairs_hex, List.take_length]

theorem reads_iff {binaryLen : Nat} (positive : 0 < binaryLen) (hexstr : CString) :
    Reads binaryLen hexstr ↔ Countable binaryLen hexstr := by
  constructor
  · rintro ⟨binary, read, -⟩
    by_contra uncountable
    simp only [Countable, not_or, Nat.not_lt, Nat.not_le] at uncountable
    have full := pairsLoop_long uncountable.1 positive read
    simp only at full
    omega
  · intro countable
    obtain ⟨binary, read, decoded⟩ := ipaBinaryFromHexstr_ok hexstr countable positive
    refine ⟨binary, read, fun j inside => ?_⟩
    obtain ⟨first, second, first', second', next⟩ := getElem?_pairs hexstr.chars j (by omega)
    refine ⟨first, second, _, first', second', ?_, hexDigitBin_decodes first second⟩
    have width : j < ((pairs hexstr.chars).take (min (hexstr.chars.length / 2) binaryLen)).length := by
      rw [List.length_take, length_pairs]
      omega
    rw [decoded, List.getElem?_append_left width, List.getElem?_take_of_lt inside, next]

theorem hex_iff (static : HexdumpStatic) (data : List UInt8) (hexstr : CString) {binaryLen : Nat}
    (positive : 0 < binaryLen) :
    (Prints static data ∧ ReadsBack static data ∧ Reads binaryLen hexstr) ↔ Countable binaryLen hexstr := by
  rw [← reads_iff positive hexstr]
  constructor
  · rintro ⟨-, -, reads⟩
    exact reads
  · intro reads
    exact ⟨ipaHexdump_prints static data, ipaHexdump_readsBack static data, reads⟩

def HexdumpStatic.zero : HexdumpStatic where
  out := fun _ => .filled ipaHexdumpBufsize 0
  idx := 0

def twoDigits : CString where
  chars := [0x41, 0x30]
  nonzero := by decide

theorem hex_iff_twoDigits : 0 < 2 ∧
    ((Prints .zero [0xA0] ∧ ReadsBack .zero [0xA0] ∧ Reads 2 twoDigits) ↔ Countable 2 twoDigits) :=
  ⟨by decide, hex_iff .zero [0xA0] twoDigits (by decide)⟩

def zeroDigits (count : Nat) : CString where
  chars := List.replicate count 0x30
  nonzero := fun member => absurd (List.eq_of_mem_replicate member) (by decide)

theorem zeroDigits_not_reads {count : Nat} (long : 2 ^ 32 ≤ count) :
    ¬ Reads (count + 1) (zeroDigits (2 * count)) := by
  rintro ⟨binary, read, -⟩
  have half : (zeroDigits (2 * count)).chars.length / 2 = count := by
    rw [zeroDigits, List.length_replicate]
    omega
  have full := pairsLoop_long (by rw [half]; exact long) (Nat.succ_pos _) read
  rw [half] at full
  simp only at full
  omega

theorem zeroDigits_overrun : ¬ Reads (2 ^ 32 + 1) (zeroDigits (2 * 2 ^ 32)) :=
  zeroDigits_not_reads (Nat.le_refl _)

end Ipad.Utils.Hex
