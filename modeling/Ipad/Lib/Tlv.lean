import Mathlib.Algebra.Group.Nat.Defs
import Mathlib.Data.List.Basic
import Mathlib.Data.Nat.Basic

/-!
# DER tag-length-value elements
-/

namespace Lib.Tlv

/-! ## Unsigned numbers, big-endian -/

def bigEndian : (k : Nat) → Nat → List UInt8
  | 0, _ => []
  | k + 1, n => bigEndian k (n / 256) ++ [UInt8.ofNat n]

def bigEndianValue (bytes : List UInt8) : Nat :=
  bytes.foldl (fun value byte => value * 256 + byte.toNat) 0

@[simp] theorem length_bigEndian (k n : Nat) : (bigEndian k n).length = k := by
  induction k generalizing n with
  | zero => rfl
  | succ k ih => simp [bigEndian, ih]

theorem bigEndianValue_concat (bytes : List UInt8) (byte : UInt8) :
    bigEndianValue (bytes ++ [byte]) = bigEndianValue bytes * 256 + byte.toNat := by
  simp [bigEndianValue]

theorem bigEndianValue_bigEndian (k n : Nat) : bigEndianValue (bigEndian k n) = n % 256 ^ k := by
  induction k generalizing n with
  | zero => simp [bigEndian, bigEndianValue, Nat.mod_one]
  | succ k ih =>
      have split : n % 256 ^ (k + 1) = n % 256 + 256 * (n / 256 % 256 ^ k) := by
        rw [Nat.pow_succ', Nat.mod_mul]
      rw [bigEndian, bigEndianValue_concat, ih, UInt8.toNat_ofNat', split]
      omega

private def byteWidthAux : (fuel : Nat) → Nat → Nat
  | 0, _ => 1
  | fuel + 1, n => if n < 256 then 1 else byteWidthAux fuel (n / 256) + 1

def byteWidth (n : Nat) : Nat := byteWidthAux n n

private theorem byteWidthAux_le_iff (fuel n k : Nat) (enough : n ≤ fuel) (positive : 0 < k) :
    byteWidthAux fuel n ≤ k ↔ n < 256 ^ k := by
  induction fuel generalizing n k with
  | zero =>
      obtain rfl : n = 0 := Nat.le_zero.mp enough
      simp only [byteWidthAux, Nat.pow_pos (by decide : 0 < 256), iff_true]
      exact positive
  | succ fuel ih =>
      obtain ⟨k, rfl⟩ : ∃ j, k = j + 1 := ⟨k - 1, by omega⟩
      by_cases small : n < 256
      · have below : n < 256 ^ (k + 1) :=
          Nat.lt_of_lt_of_le small (Nat.le_self_pow (by omega) 256)
        simp [byteWidthAux, small, below]
      · cases k with
        | zero =>
            have wide : ¬ byteWidthAux fuel (n / 256) + 1 ≤ 1 := by
              cases fuel <;> simp only [byteWidthAux] <;> [omega; (split <;> omega)]
            simp only [byteWidthAux, small, if_false, wide, Nat.zero_add, Nat.pow_one]
        | succ k =>
            have shrink : n / 256 ≤ fuel := by omega
            rw [byteWidthAux, if_neg small, Nat.add_le_add_iff_right, ih (n / 256) (k + 1) shrink (by omega),
              Nat.div_lt_iff_lt_mul (by decide), ← Nat.pow_succ]

theorem byteWidth_le_iff (n k : Nat) (positive : 0 < k) : byteWidth n ≤ k ↔ n < 256 ^ k :=
  byteWidthAux_le_iff n n k (Nat.le_refl n) positive

theorem byteWidth_pos (n : Nat) : 0 < byteWidth n := by
  unfold byteWidth
  cases n with
  | zero => decide
  | succ n => simp only [byteWidthAux]; split <;> omega

theorem lt_byteWidth (n : Nat) : n < 256 ^ byteWidth n :=
  (byteWidth_le_iff n _ (byteWidth_pos n)).mp (Nat.le_refl _)

theorem bigEndianValue_byteWidth (n : Nat) : bigEndianValue (bigEndian (byteWidth n) n) = n := by
  rw [bigEndianValue_bigEndian, Nat.mod_eq_of_lt (lt_byteWidth n)]

/-! ## Integers -/

def magnitude (x : Int) : Nat := (if 0 ≤ x then x else -x - 1).toNat

def derInteger (x : Int) : List UInt8 :=
  bigEndian (byteWidth (2 * magnitude x)) (x % (256 ^ byteWidth (2 * magnitude x) : Nat)).toNat

def readInteger (bytes : List UInt8) : Int :=
  if 2 * bigEndianValue bytes < 256 ^ bytes.length then bigEndianValue bytes
  else (bigEndianValue bytes : Int) - (256 ^ bytes.length : Nat)

theorem readInteger_derInteger (x : Int) : readInteger (derInteger x) = x := by
  have room := lt_byteWidth (2 * magnitude x)
  have positive := byteWidth_pos (2 * magnitude x)
  unfold readInteger derInteger
  rw [length_bigEndian, bigEndianValue_bigEndian]
  obtain ⟨width, same⟩ : ∃ width, byteWidth (2 * magnitude x) = width + 1 :=
    ⟨byteWidth (2 * magnitude x) - 1, by omega⟩
  rw [same, Nat.pow_succ] at room ⊢
  generalize 256 ^ width = scale at room ⊢
  unfold magnitude at room
  by_cases sign : 0 ≤ x
  · rw [if_pos sign] at room
    have inside : x % ((scale * 256 : Nat) : Int) = x := Int.emod_eq_of_lt sign (by omega)
    rw [inside, Nat.mod_eq_of_lt (by omega), if_pos (by omega)]
    omega
  · rw [if_neg sign] at room
    have inside : x % ((scale * 256 : Nat) : Int) = x + ((scale * 256 : Nat) : Int) := by
      rw [← Int.add_emod_right, Int.emod_eq_of_lt (by omega) (by omega)]
    rw [inside, Nat.mod_eq_of_lt (by omega), if_neg (by omega)]
    omega

/-! ## Elements -/

/-- A length in its shortest form: one byte below 128, else the number of length bytes and these. DER
has no form for lengths of more than 126 length bytes; the reserved byte ff introduces these here, so
that every length has a form. -/
def derLength (n : Nat) : List UInt8 :=
  if n < 128 then [UInt8.ofNat n]
  else if byteWidth n < 127 then UInt8.ofNat (128 + byteWidth n) :: bigEndian (byteWidth n) n
  else 0xFF :: (List.replicate (byteWidth n) 1 ++ 0 :: bigEndian (byteWidth n) n)

def header (tag : List UInt8) (n : Nat) : List UInt8 := tag ++ derLength n

def tlv (tag content : List UInt8) : List UInt8 := header tag content.length ++ content

/-- The tags of elements: one byte, or two when the low five bits of the first are all set. -/
inductive ShortTag : List UInt8 → Prop where
  | one (first : UInt8) (low : first &&& 0x1f ≠ 0x1f) : ShortTag [first]
  | two (first second : UInt8) (high : first &&& 0x1f = 0x1f) : ShortTag [first, second]

theorem derLength_short (n : Nat) (short : n < 128) : derLength n = [UInt8.ofNat n] := if_pos short

theorem derLength_long (n : Nat) (long : ¬ n < 128) (width : byteWidth n < 127) :
    derLength n = UInt8.ofNat (128 + byteWidth n) :: bigEndian (byteWidth n) n := by
  rw [derLength, if_neg long, if_pos width]

theorem length_derLength_pos (n : Nat) : 0 < (derLength n).length := by
  unfold derLength
  split
  · simp
  · split <;> simp

theorem length_tlv (tag content : List UInt8) :
    (tlv tag content).length = (header tag content.length).length + content.length := by
  simp [tlv]

theorem length_content_lt (tag content : List UInt8) : content.length < (tlv tag content).length := by
  have positive := length_derLength_pos content.length
  simp only [length_tlv, header, List.length_append]
  omega

/-! ## Length fields -/

/-- The length fields of BER, of any number of length bytes. -/
inductive BerLength : List UInt8 → Nat → Prop where
  | short (first : UInt8) (low : first.toNat < 128) : BerLength [first] first.toNat
  | long (first : UInt8) (digits : List UInt8) (count : first.toNat = 128 + digits.length)
      (some : digits ≠ []) (notReserved : digits.length ≠ 127) :
      BerLength (first :: digits) (bigEndianValue digits)

theorem BerLength.unique {field field' : List UInt8} {n n' : Nat} (known : BerLength field n)
    (known' : BerLength field' n') {rest rest' : List UInt8} (same : field ++ rest = field' ++ rest') :
    field = field' ∧ n = n' ∧ rest = rest' := by
  cases known with
  | short first low =>
      cases known' with
      | short first' low' =>
          obtain ⟨rfl, rfl⟩ := List.cons_eq_cons.mp same
          exact ⟨rfl, rfl, rfl⟩
      | long first' digits' count' =>
          obtain ⟨rfl, -⟩ := List.cons_eq_cons.mp same
          omega
  | long first digits count =>
      cases known' with
      | short first' low' =>
          obtain ⟨rfl, -⟩ := List.cons_eq_cons.mp same
          omega
      | long first' digits' count' =>
          obtain ⟨rfl, tail⟩ := List.cons_eq_cons.mp same
          obtain ⟨rfl, rfl⟩ := List.append_inj tail (by omega)
          exact ⟨rfl, rfl, rfl⟩

theorem toNat_longForm (width : Nat) (small : width < 128) :
    (UInt8.ofNat (128 + width)).toNat = 128 + width := by
  rw [UInt8.toNat_ofNat']
  omega

theorem berLength_derLength (n : Nat) (width : byteWidth n < 127) : BerLength (derLength n) n := by
  by_cases short : n < 128
  · have value : (UInt8.ofNat n).toNat = n := by
      rw [UInt8.toNat_ofNat']
      omega
    have field := BerLength.short (UInt8.ofNat n) (by omega)
    rw [value] at field
    rw [derLength_short n short]
    exact field
  · have size : (bigEndian (byteWidth n) n).length = byteWidth n := length_bigEndian _ _
    have positive := byteWidth_pos n
    have field := BerLength.long (UInt8.ofNat (128 + byteWidth n)) (bigEndian (byteWidth n) n)
      (by rw [size, toNat_longForm _ (by omega)]) (List.ne_nil_of_length_pos (by omega)) (by omega)
    rw [bigEndianValue_byteWidth] at field
    rw [derLength_long n short width]
    exact field

/-! ## Reading elements back -/

def readUnary : List UInt8 → Nat × List UInt8
  | [] => (0, [])
  | byte :: rest => if byte = 0 then (0, rest) else ((readUnary rest).1 + 1, (readUnary rest).2)

def readLength : List UInt8 → Option (Nat × List UInt8)
  | [] => none
  | first :: rest =>
      if first.toNat < 128 then some (first.toNat, rest)
      else
        let (width, rest) := if first = 0xFF then readUnary rest else (first.toNat - 128, rest)
        if width ≤ rest.length then some (bigEndianValue (rest.take width), rest.drop width) else none

def readTag : List UInt8 → Option (List UInt8 × List UInt8)
  | first :: rest =>
      if first &&& 0x1f = 0x1f then
        match rest with
        | second :: rest => some ([first, second], rest)
        | [] => none
      else some ([first], rest)
  | [] => none

def readTlv (bytes : List UInt8) : Option (List UInt8 × List UInt8 × List UInt8) :=
  match readTag bytes with
  | none => none
  | some (tag, rest) =>
      match readLength rest with
      | none => none
      | some (length, rest) =>
          if length ≤ rest.length then some (tag, rest.take length, rest.drop length) else none

def readTlvsWithin : (fuel : Nat) → List UInt8 → Option (List (List UInt8 × List UInt8))
  | _, [] => some []
  | 0, _ :: _ => none
  | fuel + 1, byte :: bytes =>
      match readTlv (byte :: bytes) with
      | none => none
      | some (tag, content, rest) => (readTlvsWithin fuel rest).map fun elements => (tag, content) :: elements

def readTlvs (bytes : List UInt8) : Option (List (List UInt8 × List UInt8)) :=
  readTlvsWithin bytes.length bytes

theorem readUnary_replicate (n : Nat) (rest : List UInt8) :
    readUnary (List.replicate n 1 ++ 0 :: rest) = (n, rest) := by
  induction n with
  | zero => simp [readUnary]
  | succ n ih => simp [List.replicate_succ, readUnary, ih]

theorem readLength_derLength (n : Nat) (rest : List UInt8) :
    readLength (derLength n ++ rest) = some (n, rest) := by
  have digits : ∀ tail, (bigEndian (byteWidth n) n ++ tail).take (byteWidth n) = bigEndian (byteWidth n) n :=
    fun tail => List.take_left' (length_bigEndian _ _)
  have after : (bigEndian (byteWidth n) n ++ rest).drop (byteWidth n) = rest :=
    List.drop_left' (length_bigEndian _ _)
  unfold derLength
  split
  · rename_i short
    have value : (UInt8.ofNat n).toNat = n := by
      rw [UInt8.toNat_ofNat']
      omega
    simp [readLength, value, short]
  · split
    · rename_i width
      have value := toNat_longForm (byteWidth n) (by omega)
      have notReserved : UInt8.ofNat (128 + byteWidth n) ≠ 0xFF := by
        intro reserved
        rw [reserved] at value
        simp at value
        omega
      have long : ¬ 128 + byteWidth n < 128 := by omega
      simp only [List.cons_append, readLength, value, if_neg notReserved, if_neg long]
      simp [digits, after, bigEndianValue_byteWidth]
    · simp only [List.cons_append, List.append_assoc, readLength, readUnary_replicate]
      simp [digits, after, bigEndianValue_byteWidth]

theorem readTag_append (tag : List UInt8) (known : ShortTag tag) (rest : List UInt8) :
    readTag (tag ++ rest) = some (tag, rest) := by
  cases known with
  | one first low => simp [readTag, low]
  | two first second high => simp [readTag, high]

theorem readTlv_tlv (tag content rest : List UInt8) (known : ShortTag tag) :
    readTlv (tlv tag content ++ rest) = some (tag, content, rest) := by
  have tagged := readTag_append tag known (derLength content.length ++ (content ++ rest))
  have sized := readLength_derLength content.length (content ++ rest)
  simp only [readTlv, tlv, header, List.append_assoc, tagged, sized]
  simp

private theorem readTlvsWithin_flatMap (elements : List (List UInt8 × List UInt8))
    (known : ∀ element ∈ elements, ShortTag element.1) (fuel : Nat)
    (enough : (elements.flatMap fun element => tlv element.1 element.2).length ≤ fuel) :
    readTlvsWithin fuel (elements.flatMap fun element => tlv element.1 element.2) = some elements := by
  induction elements generalizing fuel with
  | nil => cases fuel <;> rfl
  | cons element elements ih =>
      rw [List.flatMap_cons, List.length_append] at enough
      have longer := length_content_lt element.1 element.2
      have read := readTlv_tlv element.1 element.2
        (elements.flatMap fun element => tlv element.1 element.2) (known element (List.mem_cons_self ..))
      obtain ⟨fuel, rfl⟩ : ∃ less, fuel = less + 1 := ⟨fuel - 1, by omega⟩
      have tail := ih (fun other member => known other (List.mem_cons_of_mem _ member)) fuel (by omega)
      rw [List.flatMap_cons]
      generalize bytes : tlv element.1 element.2 = first at read enough longer
      cases first with
      | nil => simp at longer
      | cons byte first =>
          rw [List.cons_append] at read ⊢
          simp only [readTlvsWithin, read, tail, Option.map_some]

theorem readTlvs_flatMap (elements : List (List UInt8 × List UInt8))
    (known : ∀ element ∈ elements, ShortTag element.1) :
    readTlvs (elements.flatMap fun element => tlv element.1 element.2) = some elements :=
  readTlvsWithin_flatMap elements known _ (Nat.le_refl _)

end Lib.Tlv
