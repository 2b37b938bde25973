import Ipad.Libasn.BerTlv
import Mathlib.Data.List.Forall2

/-!
# The tags in front of a value

`der_encoder.c` and `ber_decoder.c`: every type has a list of tags, which are written and checked here.
-/

namespace Ipad.Libasn
open Lib.Tlv Lib.Ber

/-! ## Writing -/

/-- How many digits of `width` bits a number has besides its last one. -/
def furtherDigits (n width : Nat) : (steps i : Nat) → Nat
  | 0, _ => 0
  | steps + 1, i => if n >>> i ≠ 0 then furtherDigits n width steps (i + width) + 1 else 0

def tagOctets (tval : Nat) : Nat → List UInt8
  | 0 => [UInt8.ofNat (tval &&& 0x7f)]
  | k + 1 => UInt8.ofNat (0x80 ||| (tval >>> (7 * (k + 1)) &&& 0x7f)) :: tagOctets tval k

/-- What is written to a buffer of `size` bytes, and the size that is needed. -/
def berTlvTagSerialize (tag size : Nat) : List UInt8 × Nat :=
  let tclass := tag &&& 0x3
  let tval := tag >>> 2
  if tval ≤ 30 then (if size ≠ 0 then [UInt8.ofNat (tclass <<< 6 ||| tval)] else [], 1)
  else
    let first := if size ≠ 0 then [UInt8.ofNat (tclass <<< 6 ||| 0x1f)] else []
    let requiredSize := furtherDigits tval 7 4 7 + 1
    if size - 1 < requiredSize then (first, requiredSize + 1)
    else (first ++ tagOctets tval (requiredSize - 1), requiredSize + 1)

def lenOctets (len : Nat) : Nat → List UInt8
  | 0 => []
  | k + 1 => UInt8.ofNat (len >>> (8 * k)) :: lenOctets len k

def derTlvLengthSerialize (len size : Nat) : List UInt8 × Nat :=
  if len ≤ 127 then (if size ≠ 0 then [UInt8.ofNat len] else [], 1)
  else
    let requiredSize := furtherDigits len 8 7 8 + 1
    if size ≤ requiredSize then ([], requiredSize + 1)
    else (UInt8.ofNat (0x80 ||| requiredSize) :: lenOctets len requiredSize, requiredSize + 1)

def markConstructed (constructed : Bool) : List UInt8 → List UInt8
  | [] => []
  | first :: rest => (if constructed then first ||| 0x20 else first) :: rest

/-- Without the callback only the size is computed. The callback does not fail. -/
def derWriteTL (tag len : Nat) (cb constructed : Bool) : Option (List UInt8 × Nat) :=
  let bufSize := if cb then 32 else 0
  let (t, tagSize) := berTlvTagSerialize tag bufSize
  if tagSize > 32 then none
  else
    let (l, lenSize) := derTlvLengthSerialize len (if bufSize ≠ 0 then bufSize - tagSize else 0)
    if tagSize + lenSize > 32 then none
    else some (if cb then markConstructed constructed (t ++ l) else [], tagSize + lenSize)

/-- The lengths that go with the tags, from right to left, and the overall length. -/
def tagLens : (tags : List Nat) → (structLength : Nat) → Option (List Nat × Nat)
  | [], structLength => some ([], structLength)
  | tag :: tags, structLength =>
      match tagLens tags structLength with
      | none => none
      | some (lens, overallLength) =>
          match derWriteTL tag overallLength false false with
          | none => none
          | some (_, len) => some (overallLength :: lens, overallLength + len)

def writeTLs (lastTagForm : Bool) : (tags lens : List Nat) → Option (List UInt8)
  | tag :: tags, len :: lens =>
      match derWriteTL tag len true (lastTagForm || !tags.isEmpty) with
      | none => none
      | some (front, _) => (writeTLs lastTagForm tags lens).map (front ++ ·)
  | _, _ => some []

inductive TagMode where
  | plain
  | implicit
  | explicit
  deriving DecidableEq, Repr

def maxTagsCount : Nat := 4

/-- The tags of a value whose type has the tags `sdTags`. -/
def tagsOf (sdTags : List Nat) (tag : Nat) : TagMode → List Nat
  | .plain => sdTags
  | .implicit => tag :: sdTags.tail
  | .explicit => tag :: sdTags

def derWriteTags (sdTags : List Nat) (structLength : Nat) (tagMode : TagMode) (lastTagForm : Bool) (tag : Nat) :
    Option (List UInt8 × Nat) :=
  if sdTags.length + 1 > maxTagsCount then none
  else
    match tagLens (tagsOf sdTags tag tagMode) structLength with
    | none => none
    | some (lens, overallLength) =>
        (writeTLs lastTagForm (tagsOf sdTags tag tagMode) lens).map fun encoded =>
          (encoded, overallLength - structLength)

/-! ## Checking -/

inductive Checked where
  | fail
  | more
  | ok (consumed : Nat) (tlvForm : Option Bool) (lastLength : Int)
  deriving DecidableEq, Repr

/-- `expected` is empty where no tag is expected in particular. -/
def checkTags (lastTagForm : Option Bool) :
    (expected : List (Option Nat)) → List UInt8 → (consumed : Nat) → (limitLen : Option Nat) →
      (terminators : Nat) → (tlvForm : Option Bool) → (tlvLen : Int) → Checked
  | [], _, consumed, _, terminators, tlvForm, tlvLen =>
      .ok consumed tlvForm (if terminators ≠ 0 then -terminators else tlvLen)
  | tag :: expected, bytes, consumed, limitLen, terminators, _, _ =>
      match berFetchTag bytes with
      | .failed => .fail
      | .wantMore => .more
      | .got tagLen tlvTag =>
          let tlvConstr := isConstructed bytes
          if tag.any (· ≠ tlvTag) then .fail
          else if !expected.isEmpty && !tlvConstr then .fail
          else if expected.isEmpty && lastTagForm.any (· ≠ tlvConstr) then .fail
          else
            match berFetchLength tlvConstr (bytes.drop tagLen) with
            | .failed => .fail
            | .wantMore => .more
            | .got lenLen none =>
                if limitLen.isSome then .fail
                else
                  checkTags lastTagForm expected (bytes.drop (tagLen + lenLen)) (consumed + (tagLen + lenLen)) none
                    (terminators + 1) (some tlvConstr) (-1)
            | .got lenLen (some tlvLen) =>
                if terminators ≠ 0 then .fail
                -- the sum of the first lengths is not negative
                else if limitLen.any (· ≠ tlvLen + (tagLen + lenLen)) then .fail
                else
                  checkTags lastTagForm expected ((bytes.drop (tagLen + lenLen)).take tlvLen)
                    (consumed + (tagLen + lenLen)) (some tlvLen) 0 (some tlvConstr) tlvLen

def expectedTags (tdTags : List Nat) : TagMode → List (Option Nat)
  | .plain => tdTags.map some
  | .implicit => none :: tdTags.tail.map some
  | .explicit => none :: tdTags.map some

/-- For a type that has a tag. -/
def berCheckTags (tdTags : List Nat) (tagMode : TagMode) (lastTagForm : Option Bool) (bytes : List UInt8) : Checked :=
  checkTags lastTagForm (expectedTags tdTags tagMode) bytes 0 none 0 none 0

/-! ## What is written -/

theorem shiftRight_ne_zero_iff (n i : Nat) : n >>> i ≠ 0 ↔ 2 ^ i ≤ n := by
  rw [Nat.shiftRight_eq_div_pow, Nat.div_ne_zero_iff]
  exact ⟨And.right, fun large => ⟨Nat.ne_of_gt (Nat.two_pow_pos i), large⟩⟩

/-- The number has so many digits, and the first one is not zero unless it is the only one. -/
theorem furtherDigits_spec (n width steps j : Nat) (bounded : n < 2 ^ (width * (j + steps))) :
    n < 2 ^ (width * (j + furtherDigits n width steps (width * j))) ∧
      furtherDigits n width steps (width * j) ≤ steps ∧
      (0 < furtherDigits n width steps (width * j) →
        2 ^ (width * (j + furtherDigits n width steps (width * j) - 1)) ≤ n) := by
  induction steps generalizing j with
  | zero => exact ⟨bounded, Nat.le_refl 0, fun none => absurd none (Nat.lt_irrefl 0)⟩
  | succ steps ih =>
      rw [furtherDigits]
      by_cases more : n >>> (width * j) ≠ 0
      · rw [if_pos more, ← Nat.mul_succ]
        have shifted : j + (steps + 1) = j + 1 + steps := by omega
        rw [shifted] at bounded
        obtain ⟨below, few, least⟩ := ih (j + 1) bounded
        generalize furtherDigits n width steps (width * j.succ) = further at below few least
        have sum : j + (further + 1) = j + 1 + further := by omega
        rw [sum]
        refine ⟨below, Nat.succ_le_succ few, fun _ => ?_⟩
        cases further with
        | zero => exact (shiftRight_ne_zero_iff n (width * j)).mp more
        | succ further => exact least (Nat.succ_pos _)
      · rw [if_neg more]
        rw [shiftRight_ne_zero_iff, Nat.not_le] at more
        exact ⟨more, Nat.zero_le _, fun none => absurd none (Nat.lt_irrefl 0)⟩

theorem ofNat_digit (x : Nat) :
    (UInt8.ofNat (x &&& 0x7f)).toNat = x % 128 ∧ (UInt8.ofNat (0x80 ||| (x &&& 0x7f))).toNat = 128 + x % 128 := by
  have mask : x &&& 0x7f = x % 128 := Nat.and_two_pow_sub_one_eq_mod x 7
  have low : x % 128 < 2 ^ 7 := Nat.mod_lt _ (by decide)
  have top : 0x80 ||| x % 128 = 128 + x % 128 := (Nat.two_pow_add_eq_or_of_lt low 1).symm
  rw [mask, top, UInt8.toNat_ofNat', UInt8.toNat_ofNat']
  omega

theorem tagOctets_digits (tval k : Nat) :
    ∃ digits last, tagOctets tval k = digits ++ [last] ∧ digits.length = k ∧
      (∀ digit ∈ digits, 128 ≤ digit.toNat) ∧ last.toNat < 128 := by
  induction k with
  | zero =>
      refine ⟨[], _, rfl, rfl, fun _ none => absurd none List.not_mem_nil, ?_⟩
      rw [(ofNat_digit tval).1]
      exact Nat.mod_lt _ (by decide)
  | succ k ih =>
      obtain ⟨digits, last, octets, size, continues, ends⟩ := ih
      refine ⟨_ :: digits, last, by rw [tagOctets, octets, List.cons_append], by rw [List.length_cons, size],
        List.forall_mem_cons.mpr ⟨?_, continues⟩, ends⟩
      rw [(ofNat_digit _).2]
      exact Nat.le_add_right _ _

theorem accumulate_tagOctets (val tval k : Nat) :
    accumulate val (tagOctets tval k) = val * 128 ^ (k + 1) + tval % 128 ^ (k + 1) := by
  induction k generalizing val with
  | zero =>
      simp only [accumulate, tagOctets, List.foldl_cons, List.foldl_nil, (ofNat_digit tval).1]
      rw [Nat.pow_one, Nat.mod_mod]
  | succ k ih =>
      have step : accumulate val (tagOctets tval (k + 1)) =
          accumulate (val * 128 + (128 + tval >>> (7 * (k + 1)) % 128) % 128) (tagOctets tval k) := by
        rw [tagOctets, accumulate, List.foldl_cons, (ofNat_digit _).2]
        rfl
      have scale : (2 : Nat) ^ (7 * (k + 1)) = 128 ^ (k + 1) := by rw [Nat.pow_mul]
      rw [step, ih, Nat.shiftRight_eq_div_pow, scale, Nat.pow_succ' (n := k + 1), Nat.mul_comm 128 (128 ^ (k + 1)),
        Nat.mod_mul]
      rw [Nat.add_mod_left, Nat.mod_mod, Nat.add_mul, Nat.mul_assoc, Nat.mul_comm 128 (128 ^ (k + 1)),
        Nat.mul_comm (tval / _ % _), Nat.add_assoc, Nat.add_comm (128 ^ (k + 1) * _)]

theorem lenOctets_eq (len k : Nat) : lenOctets len k = bigEndian k len := by
  have concat (n k : Nat) : lenOctets n (k + 1) = lenOctets (n / 256) k ++ [UInt8.ofNat n] := by
    induction k with
    | zero => rfl
    | succ k ih =>
        have shifted : n >>> (8 * (k + 1)) = (n / 256) >>> (8 * k) := by
          rw [Nat.mul_succ, Nat.add_comm, Nat.shiftRight_add, Nat.shiftRight_eq_div_pow n 8]
        rw [lenOctets, ih, lenOctets, List.cons_append, shifted]
  induction k generalizing len with
  | zero => rfl
  | succ k ih => rw [concat, ih, bigEndian]

/-- The length is in its shortest form. -/
theorem derTlvLengthSerialize_eq {len size : Nat} (room : 9 ≤ size) (bounded : len < 2 ^ 64) :
    derTlvLengthSerialize len size = (derLength len, (derLength len).length) ∧ (derLength len).length ≤ 9 ∧
      (derTlvLengthSerialize len 0) = ([], (derLength len).length) := by
  unfold derTlvLengthSerialize
  by_cases short : len ≤ 127
  · rw [if_pos short, if_pos short, if_pos (by omega), if_neg (by decide), derLength_short len (by omega)]
    exact ⟨rfl, Nat.le_add_left 1 8, rfl⟩
  · obtain ⟨below, few, least⟩ := furtherDigits_spec len 8 7 1 (by omega)
    rw [Nat.mul_one] at below few least
    rw [if_neg short, if_neg short]
    generalize furtherDigits len 8 7 8 = further at below few least
    have bytes (k : Nat) : (2 : Nat) ^ (8 * k) = 256 ^ k := by rw [Nat.pow_mul]
    rw [bytes] at below least
    rw [Nat.add_comm] at below
    have width : byteWidth len = further + 1 := by
      apply Nat.le_antisymm
      · exact (byteWidth_le_iff _ _ (Nat.succ_pos _)).mpr below
      · rcases Nat.eq_zero_or_pos further with rfl | positive
        · exact byteWidth_pos len
        · refine Nat.lt_of_not_le fun narrow => ?_
          rw [byteWidth_le_iff _ _ positive] at narrow
          have large := least positive
          rw [Nat.add_sub_cancel_left] at large
          exact absurd narrow (Nat.not_lt.mpr large)
    have top : 0x80 ||| (further + 1) = 128 + (further + 1) :=
      (Nat.two_pow_add_eq_or_of_lt (i := 7) (by omega) 1).symm
    rw [derLength_long len (by omega) (by omega), width]
    simp only [top, lenOctets_eq]
    rw [if_neg (by omega), if_pos (Nat.zero_le _)]
    simp only [List.length_cons, length_bigEndian]
    exact ⟨trivial, by omega, trivial⟩

theorem lengthField_of_berLength {constructed : Bool} {field : List UInt8} {len : Nat} (known : BerLength field len) :
    LengthField constructed field (some len) := by
  cases known with
  | short first low => exact .short constructed first low
  | long first digits count nonempty notReserved =>
      exact .long constructed first digits count notReserved (.inr nonempty)

theorem lengthForm_derLength (constructed : Bool) {len : Nat} (bounded : len ≤ rssizeMax) :
    LengthForm (rssizeMax + 1) constructed (derLength len) (some len) := by
  have narrow : byteWidth len ≤ 8 := (byteWidth_le_iff _ _ (by decide)).mpr (Nat.lt_of_le_of_lt bounded (by decide))
  refine ⟨lengthField_of_berLength (berLength_derLength len (by omega)), fun n same => ?_⟩
  cases same
  exact Nat.lt_succ_of_le bounded

theorem first_octet {tclass low : Nat} (small : tclass < 4) (few : low < 32) :
    (UInt8.ofNat (tclass <<< 6 ||| low) >>> 6).toNat = tclass ∧
      (UInt8.ofNat (tclass <<< 6 ||| low) &&& 0x1f).toNat = low ∧
      UInt8.ofNat (tclass <<< 6 ||| low) &&& 0x20 = 0 := by
  have each : ∀ (c : Fin 4) (n : Fin 32), (UInt8.ofNat (c.val <<< 6 ||| n.val) >>> 6).toNat = c.val ∧
      (UInt8.ofNat (c.val <<< 6 ||| n.val) &&& 0x1f).toNat = n.val ∧
      UInt8.ofNat (c.val <<< 6 ||| n.val) &&& 0x20 = 0 := by
    decide +kernel
  exact each ⟨tclass, small⟩ ⟨low, few⟩

theorem marked_octet (first : UInt8) :
    (first ||| 0x20) >>> 6 = first >>> 6 ∧
    (first ||| 0x20) &&& 0x1f = first &&& 0x1f ∧ (first ||| 0x20) &&& 0x20 ≠ 0 := by
  have each : ∀ n : Fin 256, (UInt8.ofFin n ||| 0x20) >>> 6 = UInt8.ofFin n >>> 6 ∧
      (UInt8.ofFin n ||| 0x20) &&& 0x1f = UInt8.ofFin n &&& 0x1f ∧ (UInt8.ofFin n ||| 0x20) &&& 0x20 ≠ 0 := by
    decide +kernel
  exact each first.toFin

theorem berTlvTagSerialize_written {tag size : Nat} (room : 6 ≤ size) (bounded : tag < 2 ^ 32) :
    ∃ octets, berTlvTagSerialize tag size = (octets, octets.length) ∧ octets.length ≤ 6 ∧
      TagForm (2 ^ 30) octets tag ∧ isConstructed octets = false ∧
      berTlvTagSerialize tag 0 = ([], octets.length) := by
  have tclass : tag &&& 0x3 = tag % 4 := Nat.and_two_pow_sub_one_eq_mod tag 2
  have tval : tag >>> 2 = tag / 4 := Nat.shiftRight_eq_div_pow tag 2
  have whole : tag = tag / 4 * 4 + tag % 4 := by omega
  have small : tag % 4 < 4 := Nat.mod_lt _ (by decide)
  simp only [berTlvTagSerialize, tclass, tval]
  by_cases short : tag / 4 ≤ 30
  · obtain ⟨tagClass, number, primitive⟩ := first_octet small (Nat.lt_of_le_of_lt short (by decide))
    rw [if_pos short, if_pos short, if_pos (by omega), if_neg (by decide)]
    generalize UInt8.ofNat ((tag % 4) <<< 6 ||| tag / 4) = first at tagClass number primitive
    have low : first &&& 0x1f ≠ 0x1f := by
      intro high
      rw [high] at number
      have top : (0x1f : UInt8).toNat = 31 := rfl
      omega
    refine ⟨[first], rfl, Nat.le_add_left 1 5, ⟨_, _, .short first low, by omega, by rw [tagClass, number]; exact whole⟩,
      by simp [isConstructed, primitive], rfl⟩
  · obtain ⟨tagClass, number, primitive⟩ := first_octet small (show 31 < 32 by decide)
    obtain ⟨below, few, -⟩ := furtherDigits_spec (tag / 4) 7 4 1 (by omega)
    rw [Nat.mul_one] at below few
    generalize furtherDigits (tag / 4) 7 4 7 = further at below few
    rw [Nat.pow_mul, Nat.add_comm 1] at below
    obtain ⟨digits, last, octets, length, continues, ends⟩ := tagOctets_digits (tag / 4) further
    have present : size ≠ 0 := by omega
    have fits : ¬ size - 1 < further + 1 := by omega
    have none : 0 - 1 < further + 1 := Nat.succ_pos further
    simp only [if_neg short, if_pos present, if_neg fits, if_pos none, Nat.add_sub_cancel]
    generalize UInt8.ofNat ((tag % 4) <<< 6 ||| 0x1f) = first at tagClass number primitive
    have high : first &&& 0x1f = 0x1f := UInt8.toNat_inj.mp number
    have value := accumulate_tagOctets 0 (tag / 4) further
    rw [Nat.zero_mul, Nat.zero_add, Nat.mod_eq_of_lt below, octets] at value
    have size' : (digits ++ [last]).length = further + 1 := by rw [List.length_append, length, List.length_singleton]
    refine ⟨first :: (digits ++ [last]), ?_, ?_, ⟨_, _, .long first digits last high continues ends, ?_, ?_⟩,
      by simp [isConstructed, primitive], ?_⟩
    · rw [octets, List.length_cons, size']
      rfl
    · rw [List.length_cons, size']
      omega
    · exact lt_of_eq_of_lt value (by omega)
    · rw [tagClass]
      exact whole.trans (congrArg (fun n => n * 4 + tag % 4) value.symm)
    · rw [List.length_cons, size']
      rfl

theorem TagForm.marked {limit tag : Nat} {identifier : List UInt8} (known : TagForm limit identifier tag)
    (constructed : Bool) : TagForm limit (markConstructed constructed identifier) tag := by
  obtain ⟨tagClass, number, known, inside, same⟩ := known
  cases constructed with
  | false =>
      have kept : markConstructed false identifier = identifier := by cases identifier <;> rfl
      rw [kept]
      exact ⟨tagClass, number, known, inside, same⟩
  | true =>
      refine ⟨tagClass, number, ?_, inside, same⟩
      cases known with
      | short first low =>
          obtain ⟨tagClass, number, -⟩ := marked_octet first
          have whole := Identifier.short (first ||| 0x20) (number ▸ low)
          rwa [tagClass, number] at whole
      | long first digits last high continues ends =>
          obtain ⟨tagClass, number, -⟩ := marked_octet first
          have whole := Identifier.long (first ||| 0x20) digits last (number ▸ high) continues ends
          rwa [tagClass] at whole

theorem isConstructed_marked {identifier : List UInt8} (some : identifier ≠ [])
    (primitive : isConstructed identifier = false) (constructed : Bool) :
    isConstructed (markConstructed constructed identifier) = constructed := by
  cases identifier with
  | nil => exact absurd rfl some
  | cons first rest =>
      cases constructed with
      | false => exact primitive
      | true =>
          obtain ⟨-, -, marked⟩ := marked_octet first
          exact decide_eq_true marked

/-- A tag and a length, in at most 15 bytes, and the size that is computed without writing. -/
theorem derWriteTL_written {tag len : Nat} (bounded : tag < 2 ^ 32) (short : len ≤ rssizeMax) (constructed : Bool) :
    ∃ identifier, derWriteTL tag len true constructed =
        some (identifier ++ derLength len, (identifier ++ derLength len).length) ∧
      derWriteTL tag len false false = some ([], (identifier ++ derLength len).length) ∧
      TagForm (2 ^ 30) identifier tag ∧ isConstructed identifier = constructed ∧
      (identifier ++ derLength len).length ≤ 15 := by
  obtain ⟨octets, written, few, known, primitive, without⟩ :=
    berTlvTagSerialize_written (show 6 ≤ 32 by decide) bounded
  have limit : len < 2 ^ 64 := Nat.lt_of_le_of_lt short (by decide)
  obtain ⟨length, narrow, computed⟩ := derTlvLengthSerialize_eq (show 9 ≤ 32 - octets.length by omega) limit
  have nonempty : octets ≠ [] := by
    rintro rfl
    obtain ⟨_, _, known, -⟩ := known
    exact known.ne_nil rfl
  have marked : markConstructed constructed (octets ++ derLength len) =
      markConstructed constructed octets ++ derLength len := by
    cases octets with
    | nil => exact absurd rfl nonempty
    | cons first rest => rfl
  have size : (markConstructed constructed octets).length = octets.length := by cases octets <;> rfl
  have small : ¬ 32 < octets.length := by omega
  have sum : ¬ 32 < octets.length + (derLength len).length := by omega
  refine ⟨markConstructed constructed octets, ?_, ?_, known.marked constructed,
    isConstructed_marked nonempty primitive constructed, ?_⟩
  · simp [derWriteTL, written, length, small, sum, marked, size]
  · simp [derWriteTL, without, computed, small, sum, size]
  · rw [List.length_append, size]
    omega

/-! ## What is accepted -/

/-- The tags and lengths in front of a value of the length `len`. The lengths fit each other, or all are
indefinite. -/
inductive Wrapped (lastTagForm : Option Bool) (form : Bool) (len : Option Nat) :
    (expected : List (Option Nat)) → List UInt8 → Prop where
  | innermost {expected : Option Nat} {tag : Nat} {identifier field : List UInt8}
      (known : TagForm (2 ^ 30) identifier tag) (meets : ∀ e ∈ expected, e = tag)
      (formed : isConstructed identifier = form) (required : ∀ f ∈ lastTagForm, f = form)
      (length : LengthForm (rssizeMax + 1) form field len) :
      Wrapped lastTagForm form len [expected] (identifier ++ field)
  | wrap {expected : Option Nat} {others : List (Option Nat)} {tag : Nat} {identifier field front : List UInt8}
      (known : TagForm (2 ^ 30) identifier tag) (meets : ∀ e ∈ expected, e = tag)
      (constructed : isConstructed identifier = true)
      (length : LengthForm (rssizeMax + 1) true field (len.map (front.length + ·)))
      (inner : Wrapped lastTagForm form len others front) :
      Wrapped lastTagForm form len (expected :: others) (identifier ++ field ++ front)

section
variable {lastTagForm : Option Bool} {e : Option Nat} {expected : List (Option Nat)} {tag : Nat}
  {identifier field : List UInt8} (known : TagForm (2 ^ 30) identifier tag) (meets : ∀ t ∈ e, t = tag)
  (wraps : expected ≠ [] → isConstructed identifier = true)
  (required : expected = [] → ∀ f ∈ lastTagForm, f = isConstructed identifier)
include known meets wraps required

/-- One pass of the loop over the tags, for a tag that is in its place. -/
theorem checkTags_tag (rest : List UInt8) :
    berFetchTag (identifier ++ rest) = .got identifier.length tag ∧
      isConstructed (identifier ++ rest) = isConstructed identifier ∧ e.any (· ≠ tag) = false ∧
      (!expected.isEmpty && !isConstructed identifier) = false ∧
      (expected.isEmpty && lastTagForm.any (· ≠ isConstructed identifier)) = false := by
  have inside : isConstructed (identifier ++ rest) = isConstructed identifier := by
    obtain ⟨_, _, known, -⟩ := known
    exact isConstructed_append known rest
  refine ⟨berFetchTag_reads.whole _ rest tag known, inside, ?_, ?_, ?_⟩
  · cases e with
    | none => rfl
    | some t => simp [meets t rfl]
  · cases expected with
    | nil => rfl
    | cons next others => simp [wraps (List.cons_ne_nil _ _)]
  · cases expected with
    | nil =>
        cases lastTagForm with
        | none => rfl
        | some f => simp [required rfl f rfl]
    | cons next others => rfl

theorem checkTags_definite {n : Nat} {limitLen : Option Nat}
    (length : LengthForm (rssizeMax + 1) (isConstructed identifier) field (some n))
    (limit : ∀ l ∈ limitLen, l = n + (identifier ++ field).length) (rest : List UInt8) (consumed : Nat)
    (tlvForm : Option Bool) (tlvLen : Int) :
    checkTags lastTagForm (e :: expected) (identifier ++ field ++ rest) consumed limitLen 0 tlvForm tlvLen =
      checkTags lastTagForm expected (rest.take n) (consumed + (identifier ++ field).length) (some n) 0
        (some (isConstructed identifier)) n := by
  obtain ⟨fetched, form, same, nested, last⟩ := checkTags_tag known meets wraps required (field ++ rest)
  have behind : berFetchLength (isConstructed identifier) (field ++ rest) = .got field.length (some n) :=
    (berFetchLength_reads _).whole field rest _ length
  have within : limitLen.any (· ≠ n + (identifier.length + field.length)) = false := by
    cases limitLen with
    | none => rfl
    | some l => simp [limit l rfl]
  have after : (identifier ++ (field ++ rest)).drop (identifier.length + field.length) = rest := by
    rw [← List.append_assoc, ← List.length_append, List.drop_left]
  rw [List.append_assoc, checkTags, fetched]
  simp only [form, same, nested, last, List.drop_left, behind, within, after, List.length_append]
  rfl

theorem checkTags_indefinite (length : LengthForm (rssizeMax + 1) (isConstructed identifier) field none)
    (rest : List UInt8) (consumed terminators : Nat) (tlvForm : Option Bool) (tlvLen : Int) :
    checkTags lastTagForm (e :: expected) (identifier ++ field ++ rest) consumed none terminators tlvForm tlvLen =
      checkTags lastTagForm expected rest (consumed + (identifier ++ field).length) none (terminators + 1)
        (some (isConstructed identifier)) (-1) := by
  obtain ⟨fetched, form, same, nested, last⟩ := checkTags_tag known meets wraps required (field ++ rest)
  have behind : berFetchLength (isConstructed identifier) (field ++ rest) = .got field.length none :=
    (berFetchLength_reads _).whole field rest _ length
  have after : (identifier ++ (field ++ rest)).drop (identifier.length + field.length) = rest := by
    rw [← List.append_assoc, ← List.length_append, List.drop_left]
  rw [List.append_assoc, checkTags, fetched]
  simp only [form, same, nested, last, List.drop_left, behind, after, List.length_append]
  rfl

theorem checkTags_begun {len : Option Nat} (length : LengthForm (rssizeMax + 1) (isConstructed identifier) field len)
    {begun later : List UInt8} (split : identifier ++ field = begun ++ later) (unfinished : later ≠ [])
    (consumed : Nat) (limitLen : Option Nat) (terminators : Nat) (tlvForm : Option Bool) (tlvLen : Int) :
    checkTags lastTagForm (e :: expected) begun consumed limitLen terminators tlvForm tlvLen = .more := by
  obtain ⟨middle, rfl, rfl⟩ | ⟨middle, rfl, rfl⟩ := List.append_eq_append_iff.mp split
  · obtain ⟨fetched, form, same, nested, last⟩ := checkTags_tag known meets wraps required middle
    have behind : berFetchLength (isConstructed identifier) middle = .wantMore :=
      (berFetchLength_reads _).more_of_begun unfinished length
    rw [checkTags, fetched]
    simp only [form, same, nested, last, List.drop_left, behind]
    rfl
  · by_cases whole : middle = []
    · subst whole
      obtain ⟨fetched, form, same, nested, last⟩ := checkTags_tag known meets wraps required []
      simp only [List.append_nil] at fetched form same nested last
      rw [checkTags, fetched]
      simp only [same, nested, last, List.drop_length]
      rfl
    · rw [checkTags, berFetchTag_reads.more_of_begun whole known]

end

def lastLength (len : Option Nat) (terminators : Nat) : Int := len.elim (-terminators) (·)

/-- Such tags are accepted, after tags that fit them. -/
theorem Wrapped.accepted {lastTagForm : Option Bool} {form : Bool} {len : Option Nat} {expected : List (Option Nat)}
    {front : List UInt8} (wrapped : Wrapped lastTagForm form len expected front) (rest : List UInt8) (consumed : Nat)
    {limitLen : Option Nat} {terminators : Nat} (limit : ∀ l ∈ limitLen, len.map (front.length + ·) = some l)
    (definite : len.isSome → terminators = 0) (tlvForm : Option Bool) (tlvLen : Int) :
    checkTags lastTagForm expected (front ++ rest) consumed limitLen terminators tlvForm tlvLen =
      .ok (consumed + front.length) (some form) (lastLength len (terminators + expected.length)) := by
  induction wrapped generalizing rest consumed limitLen terminators tlvForm tlvLen with
  | innermost known meets formed required length =>
      subst formed
      cases len with
      | none =>
          obtain rfl : limitLen = none := by
            cases limitLen with
            | none => rfl
            | some l => cases limit l rfl
          rw [checkTags_indefinite known meets (absurd rfl) (fun _ => required) length]
          rfl
      | some n =>
          obtain rfl := definite rfl
          rw [checkTags_definite known meets (absurd rfl) (fun _ => required) length]
          · rfl
          · intro l mem
            rw [Nat.add_comm]
            exact (Option.some.inj (limit l mem)).symm
  | @wrap e others tag identifier field front known meets constructed length inner ih =>
      have notLast : others ≠ [] := by rintro rfl; cases inner
      rw [List.append_assoc]
      cases len with
      | none =>
          obtain rfl : limitLen = none := by
            cases limitLen with
            | none => rfl
            | some l => cases limit l rfl
          rw [checkTags_indefinite known meets (fun _ => constructed) (fun none => absurd none notLast)
              (constructed.symm ▸ length), ih]
          · simp [lastLength, Nat.add_assoc, Nat.add_comm 1]
          · simp
          · simp
      | some n =>
          obtain rfl := definite rfl
          have outer : ∀ l ∈ limitLen, l = front.length + n + (identifier ++ field).length := by
            intro l mem
            have same : (identifier ++ field ++ front).length + n = l := Option.some.inj (limit l mem)
            rw [← same, List.length_append]
            omega
          have cut : (front ++ rest).take (front.length + n) = front ++ rest.take n := List.take_length_add_append n
          rw [checkTags_definite known meets (fun _ => constructed) (fun none => absurd none notLast)
              (constructed.symm ▸ length) outer, cut, ih]
          · simp [lastLength, Nat.add_assoc]
          · simp
          · simp

theorem begun_within {header front begun later : List UInt8} (split : header ++ front = begun ++ later) :
    (∃ middle, begun = header ++ middle ∧ front = middle ++ later) ∨
      ∃ middle, header = begun ++ middle ∧ middle ≠ [] := by
  obtain found | ⟨middle, partly, behind⟩ := List.append_eq_append_iff.mp split
  · exact .inl found
  · by_cases whole : middle = []
    · subst whole
      exact .inl ⟨[], by rw [partly, List.append_nil, List.append_nil], behind.symm⟩
    · exact .inr ⟨middle, partly, whole⟩

/-- What begins them makes the decoder wait. -/
theorem Wrapped.begun {lastTagForm : Option Bool} {form : Bool} {len : Option Nat} {expected : List (Option Nat)}
    {front : List UInt8} (wrapped : Wrapped lastTagForm form len expected front) {begun later : List UInt8}
    (split : front = begun ++ later) (unfinished : later ≠ []) (consumed : Nat) {limitLen : Option Nat}
    {terminators : Nat} (limit : ∀ l ∈ limitLen, len.map (front.length + ·) = some l)
    (definite : len.isSome → terminators = 0) (tlvForm : Option Bool) (tlvLen : Int) :
    checkTags lastTagForm expected begun consumed limitLen terminators tlvForm tlvLen = .more := by
  induction wrapped generalizing begun consumed limitLen terminators tlvForm tlvLen with
  | innermost known meets formed required length =>
      subst formed
      exact checkTags_begun known meets (absurd rfl) (fun _ => required) length split unfinished ..
  | @wrap e others tag identifier field front known meets constructed length inner ih =>
      have notLast : others ≠ [] := by rintro rfl; cases inner
      obtain ⟨middle, rfl, rfl⟩ | ⟨middle, partly, whole⟩ := begun_within split
      · cases len with
        | none =>
            obtain rfl : limitLen = none := by
              cases limitLen with
              | none => rfl
              | some l => cases limit l rfl
            rw [checkTags_indefinite known meets (fun _ => constructed) (fun none => absurd none notLast)
              (constructed.symm ▸ length)]
            exact ih rfl _ (by simp) (by simp) _ _
        | some n =>
            obtain rfl := definite rfl
            have outer : ∀ l ∈ limitLen, l = (middle ++ later).length + n + (identifier ++ field).length := by
              intro l mem
              have same : (identifier ++ field ++ (middle ++ later)).length + n = l := Option.some.inj (limit l mem)
              rw [← same, List.length_append]
              omega
            have cut : middle.take ((middle ++ later).length + n) = middle := by
              rw [List.length_append]
              exact List.take_of_length_le (by omega)
            rw [checkTags_definite known meets (fun _ => constructed) (fun none => absurd none notLast)
              (constructed.symm ▸ length) outer, cut]
            exact ih rfl _ (fun _ same => same) (fun _ => rfl) _ _
      · exact checkTags_begun known meets (fun _ => constructed) (fun none => absurd none notLast)
          (constructed.symm ▸ length) partly whole ..

theorem wrapped_of_ok {lastTagForm : Option Bool} {expected : List (Option Nat)} (nonempty : expected ≠ [])
    {bytes : List UInt8} {consumed n : Nat} {limitLen : Option Nat} {terminators : Nat} {tlvForm form : Option Bool}
    {tlvLen last : Int}
    (found : checkTags lastTagForm expected bytes consumed limitLen terminators tlvForm tlvLen = .ok n form last) :
    ∃ front rest len f, bytes = front ++ rest ∧ form = some f ∧ n = consumed + front.length ∧
      Wrapped lastTagForm f len expected front ∧ (∀ l ∈ limitLen, len.map (front.length + ·) = some l) ∧
      (len.isSome → terminators = 0) ∧ last = lastLength len (terminators + expected.length) := by
  induction expected generalizing bytes consumed limitLen terminators tlvForm tlvLen with
  | nil => exact absurd rfl nonempty
  | cons e others ih =>
      rw [checkTags] at found
      split at found
      · cases found
      · cases found
      next tagLen tag fetched =>
        obtain ⟨identifier, behind, rfl, rfl, known⟩ := (berFetchTag_reads.got_iff bytes _ tag).mp fetched
        have formed : isConstructed (identifier ++ behind) = isConstructed identifier := by
          obtain ⟨_, _, known, -⟩ := known
          exact isConstructed_append known behind
        simp only [formed, List.drop_left] at found
        split at found
        · cases found
        next tags =>
          have meets : ∀ t ∈ e, t = tag := by
            rintro t rfl
            simpa using tags
          split at found
          · cases found
          next nested =>
            split at found
            · cases found
            next innermost =>
              have required : others = [] → ∀ f ∈ lastTagForm, f = isConstructed identifier := by
                rintro rfl f rfl
                simpa using innermost
              have after (field rest : List UInt8) :
                  (identifier ++ (field ++ rest)).drop (identifier.length + field.length) = rest := by
                rw [← List.append_assoc, ← List.length_append, List.drop_left]
              split at found
              · cases found
              · cases found
              next lenLen fetched =>
                obtain ⟨field, rest, rfl, rfl, length⟩ := ((berFetchLength_reads _).got_iff behind _ _).mp fetched
                split at found
                · cases found
                next unlimited =>
                  obtain rfl : limitLen = none := by simpa using unlimited
                  rw [after] at found
                  cases others with
                  | nil =>
                      cases found
                      refine ⟨identifier ++ field, rest, none, _, by rw [List.append_assoc], rfl,
                        by rw [List.length_append], .innermost known meets rfl (required rfl) length,
                        by simp, by simp, ?_⟩
                      simp [lastLength]
                  | cons next others =>
                      obtain ⟨front, rest, len, f, rfl, rfl, rfl, inner, -, definite, rfl⟩ := ih (by simp) found
                      obtain rfl : len = none := by
                        cases len with
                        | none => rfl
                        | some len => cases definite rfl
                      have constructed : isConstructed identifier = true := by simpa using nested
                      refine ⟨identifier ++ field ++ front, rest, none, f, by simp only [List.append_assoc], rfl,
                        ?_, .wrap known meets constructed (constructed ▸ length) inner, by simp, by simp, ?_⟩
                      · simp only [List.length_append, Nat.add_assoc]
                      · simp only [lastLength, List.length_cons, Nat.add_assoc, Nat.add_comm 1]
              next lenLen len fetched =>
                obtain ⟨field, rest, rfl, rfl, length⟩ := ((berFetchLength_reads _).got_iff behind _ _).mp fetched
                split at found
                · cases found
                next definite =>
                  split at found
                  · cases found
                  next limit =>
                    obtain rfl : terminators = 0 := by simpa using definite
                    have exact' : ∀ l ∈ limitLen, l = len + (identifier.length + field.length) := by
                      rintro l rfl
                      simpa using limit
                    rw [after] at found
                    cases others with
                    | nil =>
                        cases found
                        refine ⟨identifier ++ field, rest, some len, _, by rw [List.append_assoc], rfl,
                          by rw [List.length_append], .innermost known meets rfl (required rfl) length,
                          ?_, by simp, by simp [lastLength]⟩
                        intro l mem
                        rw [exact' l mem, Option.map_some, List.length_append, Nat.add_comm]
                    | cons next others =>
                        obtain ⟨front, beyond, len', f, cut, rfl, rfl, inner, same, -, rfl⟩ := ih (by simp) found
                        have whole := same len rfl
                        obtain ⟨front', rfl⟩ : front <+: rest :=
                          (List.prefix_append front beyond).trans (cut ▸ List.take_prefix len rest)
                        have constructed : isConstructed identifier = true := by simpa using nested
                        refine ⟨identifier ++ field ++ front, front', len', f, by simp only [List.append_assoc], rfl,
                          ?_, .wrap known meets constructed (whole.symm ▸ constructed ▸ length) inner, ?_, by simp, ?_⟩
                        · simp only [List.length_append, Nat.add_assoc]
                        · intro l mem
                          rw [exact' l mem]
                          cases len' with
                          | none => cases whole
                          | some n =>
                              obtain rfl : front.length + n = len := Option.some.inj whole
                              rw [Option.map_some, List.length_append, List.length_append]
                              exact congrArg some (by omega)
                        · cases len' with
                          | none => cases whole
                          | some n => rfl

/-- The tags and lengths of a value are accepted exactly where they are those of the type, in the right form and
with lengths that fit each other. -/
theorem berCheckTags_accepts (tdTags : List Nat) (tagged : tdTags ≠ []) (tagMode : TagMode)
    (lastTagForm : Option Bool) (bytes : List UInt8) (n : Nat) (tlvForm : Option Bool) (last : Int) :
    berCheckTags tdTags tagMode lastTagForm bytes = .ok n tlvForm last ↔
      ∃ front rest len form, bytes = front ++ rest ∧ front.length = n ∧ tlvForm = some form ∧
        Wrapped lastTagForm form len (expectedTags tdTags tagMode) front ∧
        last = lastLength len (expectedTags tdTags tagMode).length := by
  have nonempty : expectedTags tdTags tagMode ≠ [] := by cases tagMode <;> simp [expectedTags, tagged]
  constructor
  · intro found
    obtain ⟨front, rest, len, form, whole, same, size, wrapped, -, -, length⟩ := wrapped_of_ok nonempty found
    rw [Nat.zero_add] at size length
    exact ⟨front, rest, len, form, whole, size.symm, same, wrapped, length⟩
  · rintro ⟨front, rest, len, form, rfl, rfl, rfl, wrapped, rfl⟩
    have accepted : berCheckTags tdTags tagMode lastTagForm (front ++ rest) =
        .ok (0 + front.length) (some form) (lastLength len (0 + (expectedTags tdTags tagMode).length)) :=
      wrapped.accepted rest 0 (by simp) (fun _ => rfl) none 0
    rwa [Nat.zero_add, Nat.zero_add] at accepted

theorem berCheckTags_accepts_indefinite :
    ∃ front rest len form, [0xbf, 0x20, 0x80, 0x00, 0x00] = front ++ rest ∧ front.length = 3 ∧ some true = some form ∧
      Wrapped (some true) form len (expectedTags [130] .plain) front ∧
      -1 = lastLength len (expectedTags [130] .plain).length :=
  (berCheckTags_accepts [130] (by simp) .plain (some true) _ 3 (some true) (-1)).mp (by decide)

/-! ## What is written is accepted -/

theorem writeTLs_wrapped {lastTagForm : Bool} {expected : List (Option Nat)} {tags : List Nat}
    (meets : List.Forall₂ (fun e tag => ∀ t ∈ e, t = tag) expected tags) (nonempty : tags ≠ [])
    (words : ∀ tag ∈ tags, tag < 2 ^ 32) {len : Nat} (room : len + 15 * tags.length ≤ rssizeMax) :
    ∃ lens front, tagLens tags len = some (lens, len + front.length) ∧ writeTLs lastTagForm tags lens = some front ∧
      front.length ≤ 15 * tags.length ∧ Wrapped (some lastTagForm) lastTagForm (some len) expected front := by
  induction meets with
  | nil => exact absurd rfl nonempty
  | @cons e tag expected tags first others ih =>
      obtain ⟨word, words⟩ := List.forall_mem_cons.mp words
      rw [List.length_cons] at room
      cases others with
      | nil =>
          obtain ⟨identifier, written, computed, known, form, small⟩ :=
            derWriteTL_written word (show len ≤ rssizeMax by omega) lastTagForm
          have length := lengthForm_derLength lastTagForm (show len ≤ rssizeMax by omega)
          refine ⟨[len], identifier ++ derLength len, ?_, ?_, small,
            .innermost known first form (fun f same => (Option.some.inj same).symm) length⟩
          · simp [tagLens, computed]
          · simp [writeTLs, written]
      | @cons e' tag' expected tags second others =>
          obtain ⟨lens, front, lengths, encoded, small, inner⟩ := ih (by simp) words (by omega)
          obtain ⟨identifier, written, computed, known, form, narrow⟩ :=
            derWriteTL_written word (show len + front.length ≤ rssizeMax by omega) true
          have length := lengthForm_derLength true (show len + front.length ≤ rssizeMax by omega)
          rw [Nat.add_comm len] at length
          refine ⟨(len + front.length) :: lens, identifier ++ derLength (front.length + len) ++ front, ?_, ?_, ?_,
            .wrap known first form length inner⟩
          · rw [tagLens, lengths]
            simp only [computed, List.length_append, Nat.add_comm front.length len]
            simp only [Nat.add_assoc, Nat.add_comm front.length]
          · rw [writeTLs]
            simp [written, encoded, Nat.add_comm]
          · rw [List.length_append, Nat.add_comm front.length, List.length_cons]
            omega

theorem expectedTags_meets (tags : List Nat) (tagMode : TagMode) (tag : Nat) :
    List.Forall₂ (fun e tag => ∀ t ∈ e, t = tag) (expectedTags tags tagMode) (tagsOf tags tag tagMode) := by
  have same (tags : List Nat) : List.Forall₂ (fun e tag => ∀ t ∈ e, t = tag) (tags.map some) tags := by
    induction tags with
    | nil => exact .nil
    | cons tag tags ih => exact .cons (fun t mem => (Option.some.inj mem).symm) ih
  cases tagMode with
  | plain => exact same tags
  | implicit => exact .cons (fun _ none => nomatch none) (same tags.tail)
  | explicit => exact .cons (fun _ none => nomatch none) (same tags)

/-- Up to three tags of a type are written. They are accepted as they were written, and what begins them makes the
decoder wait for the others. -/
theorem derWriteTags_checked (sdTags : List Nat) (tagged : sdTags ≠ []) (tagMode : TagMode) (lastTagForm : Bool)
    (tag : Nat) (words : ∀ t ∈ tag :: sdTags, t < 2 ^ 32) (structLength : Nat)
    (room : structLength + 60 ≤ rssizeMax) :
    ((derWriteTags sdTags structLength tagMode lastTagForm tag).isSome ↔ sdTags.length ≤ 3) ∧
    ∀ front size, derWriteTags sdTags structLength tagMode lastTagForm tag = some (front, size) →
      size = front.length ∧
      (∀ content, berCheckTags sdTags tagMode (some lastTagForm) (front ++ content) =
        .ok size (some lastTagForm) structLength) ∧
      ∀ begun later, later ≠ [] → front = begun ++ later →
        berCheckTags sdTags tagMode (some lastTagForm) begun = .more := by
  by_cases few : sdTags.length + 1 > maxTagsCount
  · have refused : derWriteTags sdTags structLength tagMode lastTagForm tag = none := if_pos few
    rw [refused]
    refine ⟨⟨fun some => absurd some (by simp), fun fits => absurd few ?_⟩, by simp⟩
    rw [maxTagsCount]
    omega
  · have fits : sdTags.length ≤ 3 := by
      rw [maxTagsCount] at few
      omega
    have count : (tagsOf sdTags tag tagMode).length ≤ 4 := by
      cases tagMode <;> simp [tagsOf] <;> omega
    have nonempty : tagsOf sdTags tag tagMode ≠ [] := by cases tagMode <;> simp [tagsOf, tagged]
    have all : ∀ t ∈ tagsOf sdTags tag tagMode, t < 2 ^ 32 := by
      intro t mem
      refine words t ?_
      cases tagMode with
      | plain => exact List.mem_cons_of_mem tag mem
      | implicit => exact List.cons_subset_cons tag (List.tail_sublist sdTags).subset mem
      | explicit => exact mem
    obtain ⟨lens, front, lengths, encoded, -, wrapped⟩ :=
      @writeTLs_wrapped lastTagForm _ _ (expectedTags_meets sdTags tagMode tag) nonempty all structLength (by omega)
    have written : derWriteTags sdTags structLength tagMode lastTagForm tag = some (front, front.length) := by
      rw [derWriteTags, if_neg few]
      simp [lengths, encoded]
    rw [written]
    refine ⟨⟨fun _ => fits, fun _ => rfl⟩, fun front' size same => ?_⟩
    obtain ⟨rfl, rfl⟩ := Prod.mk.inj (Option.some.inj same)
    refine ⟨rfl, fun content => ?_, fun begun later unfinished split => ?_⟩
    · have accepted : berCheckTags sdTags tagMode (some lastTagForm) (front ++ content) =
          .ok (0 + front.length) (some lastTagForm) structLength :=
        wrapped.accepted content 0 (by simp) (fun _ => rfl) none 0
      rwa [Nat.zero_add] at accepted
    · exact wrapped.begun split unfinished 0 (by simp) (fun _ => rfl) none 0

theorem derWriteTags_checked_explicit :
    berCheckTags [130] .explicit (some true) ([0xa1, 0x08, 0xbf, 0x20, 0x05] ++ [0x82, 0x03]) = .ok 5 (some true) 5 :=
  ((derWriteTags_checked [130] (by simp) .explicit true 6 (by simp) 5 (by decide)).2 _ 5 (by decide)).2.1 [0x82, 0x03]

end Ipad.Libasn
