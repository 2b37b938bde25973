import Ipad.Lib.Ber

/-!
# Tags and lengths

`ber_tlv_tag.c` and `ber_tlv_length.c`. All numbers stay below the size of their types.
-/

namespace Ipad.Libasn
open Lib.Tlv Lib.Ber

/-! ## Fetching -/

def fetchTagOctets (tclass : Nat) : List UInt8 → (val skipped : Nat) → Fetched Nat
  | [], _, _ => .wantMore
  | oct :: rest, val, skipped =>
      if oct &&& 0x80 ≠ 0 then
        let val := val <<< 7 ||| (oct &&& 0x7f).toNat
        -- there have to be 9 bits spare
        if val >>> 23 ≠ 0 then .failed else fetchTagOctets tclass rest val (skipped + 1)
      else .got skipped ((val <<< 7 ||| oct.toNat) <<< 2 ||| tclass)

def berFetchTag : List UInt8 → Fetched Nat
  | [] => .wantMore
  | first :: rest =>
      let tclass := (first >>> 6).toNat
      if first &&& 0x1f ≠ 0x1f then .got 1 ((first &&& 0x1f).toNat <<< 2 ||| tclass)
      else fetchTagOctets tclass rest 0 2

def rssizeMax : Nat := 2 ^ 62 - 1

def fetchLenOctets : (oct : Nat) → List UInt8 → (len skipped : Nat) → Fetched (Option Nat)
  | 0, _, len, skipped => if len > rssizeMax then .failed else .got skipped (some len)
  | _ + 1, [], _, _ => .wantMore
  | oct + 1, byte :: rest, len, skipped =>
      if len >>> 55 = 0 then fetchLenOctets oct rest (len <<< 8 ||| byte.toNat) (skipped + 1) else .failed

/-- The length is -1 when it is indefinite. -/
def berFetchLength (constructed : Bool) : List UInt8 → Fetched (Option Nat)
  | [] => .wantMore
  | first :: rest =>
      if first &&& 0x80 = 0 then .got 1 (some first.toNat)
      else if constructed ∧ first = 0x80 then .got 1 none
      else if first = 0xff then .failed
      else fetchLenOctets (first &&& 0x7f).toNat rest 0 1

/-! ## Skipping -/

/-- The loop over the elements of an indefinite value. Every pass takes two bytes or more. -/
def skipElements (berSkipLength : Bool → List UInt8 → Fetched Unit) :
    (fuel skip : Nat) → List UInt8 → Fetched Unit
  | 0, _, _ => .wantMore
  | fuel + 1, skip, bytes =>
      match berFetchTag bytes with
      | .wantMore => .wantMore
      | .failed => .failed
      | .got tl _ =>
          match berSkipLength (isConstructed bytes) (bytes.drop tl) with
          | .wantMore => .wantMore
          | .failed => .failed
          | .got ll () =>
              if bytes.take 2 = endOfContents then .got (skip + (tl + ll)) ()
              else skipElements berSkipLength fuel (skip + (tl + ll)) (bytes.drop (tl + ll))

/-- `stack`: the calls that the stack has room for. -/
def berSkipLength : (stack : Nat) → (constructed : Bool) → List UInt8 → Fetched Unit
  | 0, _, _ => .failed
  | stack + 1, constructed, bytes =>
      match berFetchLength constructed bytes with
      | .wantMore => .wantMore
      | .failed => .failed
      | .got ll (some vlen) => if ll + vlen > bytes.length then .wantMore else .got (ll + vlen) ()
      | .got ll none => skipElements (berSkipLength stack) bytes.length ll (bytes.drop ll)

/-! ## Tags -/

def TagForm (limit : Nat) (bytes : List UInt8) (tag : Nat) : Prop :=
  ∃ tagClass number, Identifier bytes tagClass number ∧ number < limit ∧ tag = number * 4 + tagClass

theorem continues_iff (oct : UInt8) : oct &&& 0x80 ≠ 0 ↔ 128 ≤ oct.toNat := by
  have each : ∀ n : Fin 256, UInt8.ofFin n &&& 0x80 ≠ 0 ↔ 128 ≤ (UInt8.ofFin n).toNat := by decide +kernel
  exact each oct.toFin

theorem toNat_and_7f (oct : UInt8) : (oct &&& 0x7f).toNat = oct.toNat % 128 := by
  have mask : (0x7f : UInt8).toNat = 2 ^ 7 - 1 := rfl
  rw [UInt8.toNat_and, mask, Nat.and_two_pow_sub_one_eq_mod]

theorem shiftLeft_or (k value : Nat) {low : Nat} (small : low < 2 ^ k) : value <<< k ||| low = value * 2 ^ k + low := by
  rw [← Nat.shiftLeft_add_eq_or_of_lt small, Nat.shiftLeft_eq]

theorem toNat_class_lt (first : UInt8) : (first >>> 6).toNat < 4 := by
  have each : ∀ n : Fin 256, (UInt8.ofFin n >>> 6).toNat < 4 := by decide +kernel
  exact each first.toFin

theorem toNat_and_1f_lt (first : UInt8) : (first &&& 0x1f).toNat < 32 := by
  rw [UInt8.toNat_and]
  exact Nat.lt_of_le_of_lt Nat.and_le_right (by decide)

theorem fetchTagOctets_cons {tclass : Nat} (small : tclass < 4) (oct : UInt8) (rest : List UInt8) (val skipped : Nat) :
    fetchTagOctets tclass (oct :: rest) val skipped =
      if 128 ≤ oct.toNat then
        if 2 ^ 23 ≤ val * 128 + oct.toNat % 128 then .failed
        else fetchTagOctets tclass rest (val * 128 + oct.toNat % 128) (skipped + 1)
      else .got skipped ((val * 128 + oct.toNat % 128) * 4 + tclass) := by
  have low : oct.toNat % 128 < 2 ^ 7 := Nat.mod_lt _ (by decide)
  have full (n : Nat) : n >>> 23 ≠ 0 ↔ 2 ^ 23 ≤ n := by
    rw [Nat.shiftRight_eq_div_pow]
    omega
  rw [fetchTagOctets]
  simp only [continues_iff, toNat_and_7f, shiftLeft_or 7 val low, full]
  by_cases more : 128 ≤ oct.toNat
  · simp only [if_pos more]
    rfl
  · have whole : oct.toNat % 128 = oct.toNat := by omega
    rw [if_neg more, if_neg more, shiftLeft_or 7 val (by omega), shiftLeft_or 2 _ small, whole]
    rfl

def accumulate (val : Nat) (digits : List UInt8) : Nat :=
  digits.foldl (fun value digit => value * 128 + digit.toNat % 128) val

theorem le_accumulate (val : Nat) (digits : List UInt8) : val ≤ accumulate val digits := by
  induction digits generalizing val with
  | nil => exact Nat.le_refl val
  | cons digit digits ih => exact Nat.le_trans (by omega) (ih (val * 128 + digit.toNat % 128))

section
variable {tclass : Nat} (small : tclass < 4)
include small

theorem fetchTagOctets_whole (digits rest : List UInt8) (last : UInt8) (val skipped : Nat)
    (continues : ∀ digit ∈ digits, 128 ≤ digit.toNat) (ends : last.toNat < 128)
    (inside : accumulate val (digits ++ [last]) < 2 ^ 30) :
    fetchTagOctets tclass (digits ++ [last] ++ rest) val skipped =
      .got (skipped + digits.length) (accumulate val (digits ++ [last]) * 4 + tclass) := by
  induction digits generalizing val skipped with
  | nil =>
      rw [List.nil_append, List.singleton_append, fetchTagOctets_cons small, if_neg (Nat.not_le.mpr ends)]
      rfl
  | cons digit digits ih =>
      obtain ⟨more, others⟩ := List.forall_mem_cons.mp continues
      have below : (val * 128 + digit.toNat % 128) * 128 ≤ accumulate val (digit :: digits ++ [last]) := by
        have grows := le_accumulate (val * 128 + digit.toNat % 128) digits
        simp only [accumulate, List.cons_append, List.foldl_cons, List.foldl_append, List.foldl_nil] at grows ⊢
        omega
      rw [List.cons_append, List.cons_append, fetchTagOctets_cons small, if_pos more, if_neg (by omega),
        ih _ _ others inside, List.length_cons]
      rw [Nat.add_assoc, Nat.add_comm 1]
      rfl

theorem fetchTagOctets_got (bytes : List UInt8) (val skipped n tag : Nat)
    (found : fetchTagOctets tclass bytes val skipped = .got n tag) (room : val < 2 ^ 23) :
    ∃ digits last rest, bytes = digits ++ [last] ++ rest ∧ (∀ digit ∈ digits, 128 ≤ digit.toNat) ∧
      last.toNat < 128 ∧ n = skipped + digits.length ∧ accumulate val (digits ++ [last]) < 2 ^ 30 ∧
      tag = accumulate val (digits ++ [last]) * 4 + tclass := by
  induction bytes generalizing val skipped with
  | nil => cases found
  | cons oct bytes ih =>
      rw [fetchTagOctets_cons small] at found
      split at found
      next more =>
        split at found
        · cases found
        next fits =>
          obtain ⟨digits, last, rest, rfl, continues, ends, size, inside, same⟩ :=
            ih _ _ found (Nat.lt_of_not_le fits)
          refine ⟨oct :: digits, last, rest, rfl, List.forall_mem_cons.mpr ⟨more, continues⟩, ends, ?_, inside, same⟩
          rw [size, List.length_cons]
          omega
      next ends =>
        cases found
        refine ⟨[], oct, bytes, rfl, fun _ none => absurd none List.not_mem_nil, Nat.lt_of_not_le ends, rfl, ?_, rfl⟩
        simp only [accumulate, List.nil_append, List.foldl_cons, List.foldl_nil]
        omega

theorem fetchTagOctets_more (bytes : List UInt8) (val skipped : Nat)
    (found : fetchTagOctets tclass bytes val skipped = .wantMore) : ∀ digit ∈ bytes, 128 ≤ digit.toNat := by
  induction bytes generalizing val skipped with
  | nil => exact fun _ none => absurd none List.not_mem_nil
  | cons oct bytes ih =>
      rw [fetchTagOctets_cons small] at found
      split at found
      next more =>
        split at found
        · cases found
        · exact List.forall_mem_cons.mpr ⟨more, ih _ _ found⟩
      next => cases found

theorem fetchTagOctets_failed (bytes : List UInt8) (val skipped : Nat)
    (found : fetchTagOctets tclass bytes val skipped = .failed) (digits : List UInt8) (last : UInt8)
    (begun : bytes <+: digits ++ [last]) (ends : last.toNat < 128) :
    2 ^ 30 ≤ accumulate val (digits ++ [last]) := by
  induction bytes generalizing val skipped digits with
  | nil => cases found
  | cons oct bytes ih =>
      rw [fetchTagOctets_cons small] at found
      split at found
      next more =>
        cases digits with
        | nil =>
            obtain ⟨rfl, -⟩ := List.cons_prefix_cons.mp begun
            omega
        | cons digit digits =>
            obtain ⟨rfl, rest⟩ := List.cons_prefix_cons.mp begun
            split at found
            next full =>
              have grows := le_accumulate (val * 128 + oct.toNat % 128) digits
              simp only [accumulate, List.cons_append, List.foldl_cons, List.foldl_append, List.foldl_nil] at grows ⊢
              omega
            · exact ih _ _ found digits rest
      next => cases found

end

theorem berFetchTag_long {first : UInt8} (high : first &&& 0x1f = 0x1f) (rest : List UInt8) :
    berFetchTag (first :: rest) = fetchTagOctets (first >>> 6).toNat rest 0 2 := by
  simp [berFetchTag, high]

theorem berFetchTag_short {first : UInt8} (low : first &&& 0x1f ≠ 0x1f) (rest : List UInt8) :
    berFetchTag (first :: rest) = .got 1 ((first &&& 0x1f).toNat * 4 + (first >>> 6).toNat) := by
  rw [berFetchTag]
  simp only [if_pos low, shiftLeft_or 2 _ (toNat_class_lt first)]
  rfl

/-- Tags with numbers of 30 bits are read, and no others. -/
theorem berFetchTag_reads :
    Reads (TagForm (2 ^ 30)) (fun bytes tag => ∃ limit, TagForm limit bytes tag) berFetchTag where
  whole := by
    rintro bytes rest tag ⟨tagClass, number, known, inside, rfl⟩
    cases known with
    | short first low => exact berFetchTag_short low rest
    | long first digits last high continues ends =>
        rw [List.cons_append, berFetchTag_long high,
          fetchTagOctets_whole (toNat_class_lt first) digits rest last 0 2 continues ends inside]
        simp only [List.length_cons, List.length_append, List.length_nil]
        rw [Nat.add_comm 2]
        rfl
  got := by
    intro bytes n tag found
    cases bytes with
    | nil => cases found
    | cons first bytes =>
        by_cases high : first &&& 0x1f = 0x1f
        · rw [berFetchTag_long high] at found
          obtain ⟨digits, last, rest, rfl, continues, ends, rfl, inside, rfl⟩ :=
            fetchTagOctets_got (toNat_class_lt first) _ _ _ _ _ found (by decide)
          have front : (first :: (digits ++ [last] ++ rest)).take (2 + digits.length) = first :: (digits ++ [last]) := by
            rw [Nat.add_comm, List.take_succ_cons, List.take_left' (by simp)]
          refine ⟨?_, ?_⟩
          · rw [front]
            exact ⟨_, _, .long first digits last high continues ends, inside, rfl⟩
          · simp only [List.length_cons, List.length_append, List.length_nil]
            omega
        · rw [berFetchTag_short high] at found
          cases found
          refine ⟨⟨_, _, .short first high, ?_, rfl⟩, by simp⟩
          exact Nat.lt_trans (toNat_and_1f_lt first) (by decide)
  more := by
    intro bytes found
    cases bytes with
    | nil => exact ⟨[0x00], 0, by simp, 1, 0, 0, .short 0x00 (by decide), by decide, rfl⟩
    | cons first bytes =>
        by_cases high : first &&& 0x1f = 0x1f
        · rw [berFetchTag_long high] at found
          have continues := fetchTagOctets_more (toNat_class_lt first) _ _ _ found
          exact ⟨[0x00], _, by simp, _, _, _, .long first bytes 0x00 high continues (by decide), Nat.lt_succ_self _,
            rfl⟩
        · rw [berFetchTag_short high] at found
          cases found
  failed := by
    rintro bytes later tag found ⟨tagClass, number, known, inside, rfl⟩
    cases bytes with
    | nil => cases found
    | cons first bytes =>
        by_cases high : first &&& 0x1f = 0x1f
        · rw [berFetchTag_long high] at found
          rw [List.cons_append] at known
          generalize whole : bytes ++ later = octets at known
          cases known with
          | short _ low => exact low high
          | long _ digits last _ _ ends =>
              have large := fetchTagOctets_failed (toNat_class_lt first) _ _ _ found digits last ⟨later, whole⟩ ends
              exact absurd inside (Nat.not_lt.mpr large)
        · rw [berFetchTag_short high] at found
          cases found

/-! ## Lengths -/

def LengthForm (limit : Nat) (constructed : Bool) (bytes : List UInt8) (len : Option Nat) : Prop :=
  LengthField constructed bytes len ∧ ∀ n ∈ len, n < limit

def joined (len : Nat) (octets : List UInt8) : Nat := octets.foldl (fun value octet => value * 256 + octet.toNat) len

theorem le_joined (len : Nat) (octets : List UInt8) : len ≤ joined len octets := by
  induction octets generalizing len with
  | nil => exact Nat.le_refl len
  | cons octet octets ih => exact Nat.le_trans (by omega) (ih (len * 256 + octet.toNat))

theorem fetchLenOctets_cons (oct : Nat) (byte : UInt8) (rest : List UInt8) (len skipped : Nat) :
    fetchLenOctets (oct + 1) (byte :: rest) len skipped =
      if len < 2 ^ 55 then fetchLenOctets oct rest (len * 256 + byte.toNat) (skipped + 1) else .failed := by
  have room : len >>> 55 = 0 ↔ len < 2 ^ 55 := by
    rw [Nat.shiftRight_eq_div_pow]
    omega
  rw [fetchLenOctets]
  simp only [room, shiftLeft_or 8 len byte.toNat_lt]
  rfl

theorem fetchLenOctets_whole (octets rest : List UInt8) (len skipped : Nat)
    (inside : joined len octets ≤ rssizeMax) :
    fetchLenOctets octets.length (octets ++ rest) len skipped =
      .got (skipped + octets.length) (some (joined len octets)) := by
  induction octets generalizing len skipped with
  | nil => exact if_neg (Nat.not_lt.mpr inside)
  | cons octet octets ih =>
      have grows := le_joined (len * 256 + octet.toNat) octets
      have below : len * 256 + octet.toNat ≤ rssizeMax := Nat.le_trans grows inside
      rw [rssizeMax] at below
      rw [List.length_cons, List.cons_append, fetchLenOctets_cons, if_pos (by omega), ih _ _ inside, Nat.add_assoc,
        Nat.add_comm 1]
      rfl

theorem fetchLenOctets_got (oct : Nat) (bytes : List UInt8) (len skipped n : Nat) (value : Option Nat)
    (found : fetchLenOctets oct bytes len skipped = .got n value) :
    ∃ octets rest, bytes = octets ++ rest ∧ octets.length = oct ∧ n = skipped + oct ∧
      value = some (joined len octets) ∧ joined len octets ≤ rssizeMax := by
  induction oct generalizing bytes len skipped with
  | zero =>
      rw [fetchLenOctets] at found
      split at found
      · cases found
      next inside =>
        cases found
        exact ⟨[], bytes, rfl, rfl, rfl, rfl, Nat.le_of_not_lt inside⟩
  | succ oct ih =>
      cases bytes with
      | nil => cases found
      | cons byte bytes =>
          rw [fetchLenOctets_cons] at found
          split at found
          · obtain ⟨octets, rest, rfl, rfl, rfl, rfl, inside⟩ := ih _ _ _ found
            exact ⟨byte :: octets, rest, rfl, rfl, by omega, rfl, inside⟩
          · cases found

theorem fetchLenOctets_more (oct : Nat) (bytes : List UInt8) (len skipped : Nat)
    (found : fetchLenOctets oct bytes len skipped = .wantMore) : bytes.length < oct := by
  induction oct generalizing bytes len skipped with
  | zero =>
      rw [fetchLenOctets] at found
      split at found <;> cases found
  | succ oct ih =>
      cases bytes with
      | nil => exact Nat.succ_pos oct
      | cons byte bytes =>
          rw [fetchLenOctets_cons] at found
          split at found
          · exact Nat.succ_lt_succ (ih _ _ _ found)
          · cases found

theorem fetchLenOctets_failed (bytes octets : List UInt8) (len skipped : Nat)
    (found : fetchLenOctets octets.length bytes len skipped = .failed) (begun : bytes <+: octets) :
    rssizeMax < joined len octets := by
  induction octets generalizing bytes len skipped with
  | nil =>
      rw [List.length_nil, fetchLenOctets] at found
      split at found
      next outside => exact outside
      · cases found
  | cons octet octets ih =>
      cases bytes with
      | nil => cases found
      | cons byte bytes =>
          obtain ⟨rfl, rest⟩ := List.cons_prefix_cons.mp begun
          rw [List.length_cons, fetchLenOctets_cons] at found
          split at found
          · exact ih _ _ _ found rest
          next full =>
            have grows : len * 256 + byte.toNat ≤ joined len (byte :: octets) := le_joined _ octets
            rw [rssizeMax]
            omega

theorem berFetchLength_cons (constructed : Bool) (first : UInt8) (rest : List UInt8) :
    berFetchLength constructed (first :: rest) =
      if first.toNat < 128 then .got 1 (some first.toNat)
      else if constructed = true ∧ first = 0x80 then .got 1 none
      else if first = 0xff then .failed
      else fetchLenOctets (first.toNat - 128) rest 0 1 := by
  have low : first &&& 0x80 = 0 ↔ first.toNat < 128 := by
    rw [← not_iff_not, Nat.not_lt]
    exact continues_iff first
  rw [berFetchLength]
  simp only [low, toNat_and_7f]
  by_cases short : first.toNat < 128
  · rw [if_pos short, if_pos short]
  · have size := first.toNat_lt
    have count : first.toNat % 128 = first.toNat - 128 := by omega
    rw [if_neg short, if_neg short, count]

theorem toNat_ne_ff {first : UInt8} (other : first ≠ 0xff) : first.toNat < 255 := by
  have bound := first.toNat_lt
  have differs : first.toNat ≠ 255 := fun same => other (UInt8.toNat_inj.mp same)
  omega

theorem toNat_80 (constructed : Bool) (first : UInt8) (long : ¬ first.toNat < 128)
    (definite : ¬ (constructed = true ∧ first = 0x80)) : constructed = false ∨ first.toNat - 128 ≠ 0 := by
  cases constructed with
  | false => exact .inl rfl
  | true =>
      refine .inr fun none => definite ⟨rfl, UInt8.toNat_inj.mp ?_⟩
      have eighty : (0x80 : UInt8).toNat = 128 := rfl
      omega

/-- Lengths are read as far as they are below 2^62. -/
theorem berFetchLength_reads (constructed : Bool) :
    Reads (LengthForm (rssizeMax + 1) constructed) (LengthField constructed) (berFetchLength constructed) where
  whole := by
    rintro bytes rest len ⟨known, inside⟩
    cases known with
    | short _ first low => rw [List.singleton_append, berFetchLength_cons, if_pos low, List.length_singleton]
    | indefinite => rfl
    | long _ first digits count notReserved definite =>
        have other : first ≠ 0xff := by
          rintro rfl
          exact notReserved (Nat.add_left_cancel (n := 128) count.symm)
        have open' : ¬ (constructed = true ∧ first = 0x80) := by
          rintro ⟨rfl, rfl⟩
          have empty : digits.length = 0 := Nat.add_left_cancel (n := 128) count.symm
          exact definite.elim Bool.noConfusion fun some => some (List.length_eq_zero_iff.mp empty)
        have size : first.toNat - 128 = digits.length := by omega
        rw [List.cons_append, berFetchLength_cons, if_neg (by omega), if_neg open', if_neg other, size,
          fetchLenOctets_whole digits rest 0 1 (Nat.lt_succ_iff.mp (inside _ rfl)), List.length_cons, Nat.add_comm 1]
        rfl
  got := by
    intro bytes n len found
    cases bytes with
    | nil => cases found
    | cons first bytes =>
        rw [berFetchLength_cons] at found
        split at found
        next low =>
          cases found
          refine ⟨⟨.short constructed first low, ?_⟩, by simp⟩
          rintro _ ⟨⟩
          exact Nat.lt_trans low (by decide)
        next long =>
          split at found
          next indefinite =>
            obtain ⟨rfl, rfl⟩ := indefinite
            cases found
            exact ⟨⟨.indefinite, by simp⟩, by simp⟩
          next definite =>
            split at found
            · cases found
            next other =>
              obtain ⟨octets, rest, rfl, size, taken, rfl, inside⟩ := fetchLenOctets_got _ _ _ _ _ _ found
              have below := toNat_ne_ff other
              have front : (first :: (octets ++ rest)).take n = first :: octets := by
                rw [taken, Nat.add_comm, List.take_succ_cons, List.take_left' size]
              have some := toNat_80 constructed first long definite
              refine ⟨?_, ?_⟩
              · rw [front]
                refine ⟨.long constructed first octets (by omega) (by omega) ?_, ?_⟩
                · exact some.imp id fun nonzero none => nonzero (by rw [← size, none]; rfl)
                · rintro _ ⟨⟩
                  exact Nat.lt_succ_of_le inside
              · simp only [List.length_cons, List.length_append]
                omega
  more := by
    intro bytes found
    cases bytes with
    | nil => exact ⟨[0x00], some 0, by simp, .short constructed 0x00 (by decide)⟩
    | cons first bytes =>
        rw [berFetchLength_cons] at found
        split at found
        · cases found
        next long =>
          split at found
          · cases found
          next definite =>
            split at found
            · cases found
            next other =>
              have missing := fetchLenOctets_more _ _ _ _ found
              have below := toNat_ne_ff other
              have size : (bytes ++ List.replicate (first.toNat - 128 - bytes.length) 0x00).length =
                  first.toNat - 128 := by
                rw [List.length_append, List.length_replicate]
                omega
              have filled : LengthField constructed
                  (first :: (bytes ++ List.replicate (first.toNat - 128 - bytes.length) 0x00)) _ :=
                .long constructed first _ (by omega) (by omega) (.inr (List.ne_nil_of_length_pos (by omega)))
              exact ⟨_, _, List.ne_nil_of_length_pos (by rw [List.length_replicate]; omega), filled⟩
  failed := by
    rintro bytes later len found ⟨known, inside⟩
    cases bytes with
    | nil => cases found
    | cons first bytes =>
        rw [berFetchLength_cons] at found
        rw [List.cons_append] at known
        generalize whole : bytes ++ later = octets at known
        cases known with
        | short _ _ low =>
            rw [if_pos low] at found
            cases found
        | indefinite => cases found
        | long _ _ digits count notReserved definite =>
            split at found
            · cases found
            · split at found
              · cases found
              · split at found
                next reserved =>
                  subst reserved
                  exact notReserved (Nat.add_left_cancel (n := 128) count.symm)
                · have size : first.toNat - 128 = octets.length := by omega
                  rw [size] at found
                  have outside := fetchLenOctets_failed bytes octets 0 1 found ⟨later, whole⟩
                  exact absurd (inside _ rfl) (Nat.not_lt.mpr outside)

end Ipad.Libasn
