import Ipad.Utils.Btlv

/-!
# Strings and tag lists
-/

namespace Ipad.Utils

/-! ## Comparison -/

/-- `toupper` in the C locale. -/
def toUpper (c : UInt8) : UInt8 := if 0x61 ≤ c ∧ c ≤ 0x7a then c - 0x20 else c

/-- The strings are of one length. -/
def ipaCmpCaseInsensitive : List UInt8 → List UInt8 → Int
  | c1 :: str1, c2 :: str2 => if toUpper c1 ≠ toUpper c2 then -1 else ipaCmpCaseInsensitive str1 str2
  | _, _ => 0

/-- Without a buffer there is no match. -/
def ipaAsnStrCmpBufI (asn1Obj : List UInt8) : Option (List UInt8) → Bool
  | none => false
  | some buf =>
      if asn1Obj.length ≠ buf.length then false
      else if ipaCmpCaseInsensitive asn1Obj buf ≠ 0 then false
      else true

theorem ipaCmpCaseInsensitive_eq_zero (str1 str2 : List UInt8) (len : str1.length = str2.length) :
    ipaCmpCaseInsensitive str1 str2 = 0 ↔ str1.map toUpper = str2.map toUpper := by
  induction str1 generalizing str2 with
  | nil =>
      cases str2 with
      | nil => exact iff_of_true rfl rfl
      | cons c2 str2 => cases len
  | cons c1 str1 ih =>
      cases str2 with
      | nil => cases len
      | cons c2 str2 =>
          rw [ipaCmpCaseInsensitive, List.map_cons, List.map_cons, List.cons.injEq]
          by_cases same : toUpper c1 = toUpper c2
          · rw [if_neg (not_not.mpr same), ih str2 (Nat.succ.inj len)]
            exact ⟨fun rest => ⟨same, rest⟩, And.right⟩
          · rw [if_pos same]
            exact iff_of_false (by decide) fun both => same both.1

theorem ipaAsnStrCmpBufI_iff (asn1Obj : List UInt8) (buf : Option (List UInt8)) :
    ipaAsnStrCmpBufI asn1Obj buf = true ↔ ∃ str, buf = some str ∧ asn1Obj.map toUpper = str.map toUpper := by
  cases buf with
  | none => exact iff_of_false Bool.false_ne_true fun ⟨_, absent, _⟩ => Option.some_ne_none _ absent.symm
  | some str =>
      rw [ipaAsnStrCmpBufI]
      by_cases len : asn1Obj.length = str.length
      · have compared := ipaCmpCaseInsensitive_eq_zero asn1Obj str len
        rw [if_neg (not_not.mpr len)]
        by_cases same : ipaCmpCaseInsensitive asn1Obj str = 0
        · rw [if_neg (not_not.mpr same)]
          exact iff_of_true rfl ⟨str, rfl, compared.mp same⟩
        · rw [if_pos same]
          refine iff_of_false Bool.false_ne_true ?_
          rintro ⟨_, ⟨⟩, match'⟩
          exact same (compared.mpr match')
      · rw [if_pos len]
        refine iff_of_false Bool.false_ne_true ?_
        rintro ⟨_, ⟨⟩, match'⟩
        have lengths := congrArg List.length match'
        rw [List.length_map, List.length_map] at lengths
        exact len lengths

/-! ## Envelopes -/

/-- For a string with a buffer, which the decoder ends with a zero byte: where the parser reads that byte it goes
on to find that the header does not fit. `HeaderBounds.ipaStripTlvEnvelope` has the faults of the other reads, and
`HeaderBounds.ipaStripTlvEnvelope_eq` is what the two have in common. -/
def ipaStripTlvEnvelope (data : List UInt8) (envelopeTag : UInt16) : List UInt8 :=
  match parseBtlvHdr data with
  | .error _ => data
  | .ok hdr =>
      if hdr.tag ≠ some envelopeTag then data
      else if data.length < hdr.rc then data
      else data.drop hdr.rc

/-! ## Strings out of ASN.1 objects -/

def ipaCopyAsnBuf (size : Nat) (asn1Obj : List UInt8) : List UInt8 :=
  if asn1Obj.length ≤ size then asn1Obj ++ List.replicate (size - asn1Obj.length) 0
  else List.replicate size 0

/-- A C string ends at its first zero byte. -/
def ipaStrFromAsn (asn1Obj : List UInt8) : List UInt8 := asn1Obj.takeWhile (· ≠ 0)

/-! ## Tag lists -/

/-- On the bytes that are left. The search with the pointer of the source is `TagList.ipaTagInTaglist`, and
`TagList.ipaTagInTaglist_eq` says that it finds the same. -/
def ipaTagInTaglist (tag : UInt16) : List UInt8 → Bool
  | [] => false
  | first :: rest =>
      if first &&& 0x1f = 0x1f then
        match rest with
        | [] => false
        | second :: rest =>
            if first.toUInt16 <<< 8 ||| second.toUInt16 = tag then true else ipaTagInTaglist tag rest
      else if first.toUInt16 = tag then true
      else ipaTagInTaglist tag rest

/-- The tags that a list can hold, of one byte or of two. -/
inductive Tag where
  | one (first : UInt8) (short : first &&& 0x1f ≠ 0x1f)
  | two (first second : UInt8) (long : first &&& 0x1f = 0x1f)

def Tag.value : Tag → UInt16
  | .one first _ => first.toUInt16
  | .two first second _ => first.toUInt16 <<< 8 ||| second.toUInt16

def Tag.bytes : Tag → List UInt8
  | .one first _ => [first]
  | .two first second _ => [first, second]

theorem pos_of_long {first : UInt8} (long : first &&& 0x1f = 0x1f) : 0 < first.toNat := by
  rcases Nat.eq_zero_or_pos first.toNat with zero | pos
  · obtain rfl : first = 0 := UInt8.toNat_inj.mp zero
    cases long
  · exact pos

theorem Tag.value_injective : Function.Injective Tag.value := by
  intro tag other same
  replace same := congrArg UInt16.toNat same
  cases tag with
  | one first short =>
      cases other with
      | one first' short' =>
          simp only [Tag.value, UInt8.toNat_toUInt16] at same
          cases UInt8.toNat_inj.mp same
          rfl
      | two first' second' long' =>
          have pos := pos_of_long long'
          have small := first.toNat_lt
          simp only [Tag.value, UInt8.toNat_toUInt16, toNat_shift_or] at same
          omega
  | two first second long =>
      have small := second.toNat_lt
      cases other with
      | one first' short' =>
          have pos := pos_of_long long
          have small' := first'.toNat_lt
          simp only [Tag.value, UInt8.toNat_toUInt16, toNat_shift_or] at same
          omega
      | two first' second' long' =>
          have small' := second'.toNat_lt
          simp only [Tag.value, toNat_shift_or] at same
          cases UInt8.toNat_inj.mp (by omega : first.toNat = first'.toNat)
          cases UInt8.toNat_inj.mp (by omega : second.toNat = second'.toNat)
          rfl

theorem ipaTagInTaglist_one (tag : UInt16) (first : UInt8) (rest : List UInt8) (short : first &&& 0x1f ≠ 0x1f) :
    ipaTagInTaglist tag (first :: rest) =
      if first.toUInt16 = tag then true else ipaTagInTaglist tag rest := by
  rw [ipaTagInTaglist.eq_def]
  exact if_neg short

theorem ipaTagInTaglist_two (tag : UInt16) (first second : UInt8) (rest : List UInt8)
    (long : first &&& 0x1f = 0x1f) :
    ipaTagInTaglist tag (first :: second :: rest) =
      if first.toUInt16 <<< 8 ||| second.toUInt16 = tag then true else ipaTagInTaglist tag rest := by
  rw [ipaTagInTaglist.eq_def]
  exact if_pos long

theorem ipaTagInTaglist_iff (tag : UInt16) (tags : List Tag) :
    ipaTagInTaglist tag (tags.flatMap Tag.bytes) = true ↔ tag ∈ tags.map Tag.value := by
  induction tags with
  | nil => exact iff_of_false Bool.false_ne_true List.not_mem_nil
  | cons head tags ih =>
      rw [List.flatMap_cons, List.map_cons, List.mem_cons, ← ih]
      cases head with
      | one first short =>
          show ipaTagInTaglist tag (first :: tags.flatMap Tag.bytes) = true ↔ tag = first.toUInt16 ∨ _
          rw [ipaTagInTaglist_one tag first _ short]
          by_cases same : first.toUInt16 = tag
          · rw [if_pos same]
            exact iff_of_true rfl (.inl same.symm)
          · rw [if_neg same]
            exact ⟨.inr, fun found => found.resolve_left fun other => same other.symm⟩
      | two first second long =>
          show ipaTagInTaglist tag (first :: second :: tags.flatMap Tag.bytes) = true ↔
            tag = first.toUInt16 <<< 8 ||| second.toUInt16 ∨ _
          rw [ipaTagInTaglist_two tag first second _ long]
          by_cases same : first.toUInt16 <<< 8 ||| second.toUInt16 = tag
          · rw [if_pos same]
            exact iff_of_true rfl (.inl same.symm)
          · rw [if_neg same]
            exact ⟨.inr, fun found => found.resolve_left fun other => same other.symm⟩

end Ipad.Utils
