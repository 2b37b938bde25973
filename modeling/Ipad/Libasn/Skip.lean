import Ipad.Libasn.BerTlv

/-!
# Which values are skipped
-/

namespace Ipad.Libasn
open Lib.Tlv Lib.Ber

/-- The stack has room for so many calls, numbers have 30 bits and lengths 62. -/
def stackLimits : Limits Nat where
  deeper stack stack' := stack = stack' + 1
  tag number := number < 2 ^ 30
  length n := n < rssizeMax + 1

/-- `skip` is for values, constructed ones or others. -/
def Skips (stack : Nat) (constructed : Bool) (skip : List UInt8 → Fetched Unit) : Prop :=
  Reads (fun bytes _ => Formed stackLimits stack (.value constructed) bytes)
    (fun bytes _ => Formed unlimited () (.value constructed) bytes) skip

theorem isConstructed_take {bytes : List UInt8} {n tagClass number : Nat}
    (known : Identifier (bytes.take n) tagClass number) : isConstructed bytes = isConstructed (bytes.take n) := by
  rw [← isConstructed_append known (bytes.drop n), List.take_append_drop]

section
variable {stack : Nat} {skip : Bool → List UInt8 → Fetched Unit}
  (skips : ∀ constructed, Skips stack constructed (skip constructed))
include skips

/-! ## The loop over the elements -/

theorem skipElements_whole (fuel skipped : Nat) (bytes rest : List UInt8)
    (formed : Formed stackLimits stack .elements bytes) (enough : bytes.length ≤ fuel) :
    skipElements skip fuel skipped (bytes ++ rest) = .got (skipped + bytes.length) () := by
  induction fuel generalizing skipped bytes with
  | zero =>
      obtain ⟨identifier, _, _, _, _, rfl, known, -⟩ := formed.first (by decide : 0 < 2 ^ 30)
      have positive := List.length_pos_iff.mpr known.ne_nil
      simp only [List.length_append] at enough
      omega
  | succ fuel ih =>
      obtain ⟨identifier, tagClass, number, value, others, rfl, known, inside, formed, ending⟩ :=
        formed.first (by decide : 0 < 2 ^ 30)
      have fetched := berFetchTag_reads.whole identifier (value ++ others ++ rest) _ ⟨_, _, known, inside, rfl⟩
      have taken := (skips (isConstructed identifier)).whole value (others ++ rest) () formed
      have positive := List.length_pos_iff.mpr known.ne_nil
      have front : identifier ++ value ++ others ++ rest = identifier ++ (value ++ others ++ rest) := by simp
      have behind : (identifier ++ (value ++ others ++ rest)).drop (identifier.length + value.length) =
          others ++ rest := by
        rw [← List.drop_drop, List.drop_left, List.append_assoc, List.drop_left]
      rw [front, skipElements, fetched]
      simp only [isConstructed_append known, List.drop_left]
      rw [List.append_assoc, taken]
      simp only
      rw [← List.append_assoc value]
      rcases ending with ⟨closed, rfl⟩ | ⟨unclosed, others'⟩
      · have two : identifier.length + value.length = 2 := by
          rw [← List.length_append, closed]
          rfl
        have first : (identifier ++ (value ++ [] ++ rest)).take 2 = endOfContents := by
          rw [List.append_nil, ← List.append_assoc, closed]
          rfl
        rw [if_pos first]
        simp only [List.length_append, List.length_nil]
        rfl
      · have first : ¬ (identifier ++ (value ++ others ++ rest)).take 2 = endOfContents := by
          intro zeros
          have same : identifier ++ (value ++ others ++ rest) = identifier ++ value ++ (others ++ rest) := by simp
          rw [same] at zeros
          obtain ⟨rfl, rfl⟩ := endOfContents_of_front known formed zeros
          exact unclosed rfl
        simp only [List.length_append] at enough
        rw [if_neg first, behind, ih _ others others' (by omega)]
        simp only [List.length_append]
        congr 1
        omega

theorem skipElements_got (fuel skipped n : Nat) (bytes : List UInt8)
    (found : skipElements skip fuel skipped bytes = .got n ()) :
    ∃ k, n = skipped + k ∧ k ≤ bytes.length ∧ Formed stackLimits stack .elements (bytes.take k) := by
  induction fuel generalizing skipped bytes with
  | zero => cases found
  | succ fuel ih =>
      rw [skipElements] at found
      split at found
      · cases found
      · cases found
      next tl tag fetched =>
        obtain ⟨⟨tagClass, number, known, inside, -⟩, first⟩ := berFetchTag_reads.got _ _ _ fetched
        split at found
        · cases found
        · cases found
        next _ ll taken =>
          rw [isConstructed_take known] at taken
          obtain ⟨formed, second⟩ := (skips _).got _ _ _ taken
          rw [List.length_drop] at second
          have split : bytes.take (tl + ll) = bytes.take tl ++ (bytes.drop tl).take ll := List.take_add
          split at found
          next zeros =>
            cases found
            refine ⟨tl + ll, rfl, by omega, ?_⟩
            have front : (bytes.take tl ++ (bytes.drop tl).take ll ++ (bytes.drop tl).drop ll).take 2 =
                endOfContents := by
              rw [List.append_assoc, List.take_append_drop, List.take_append_drop, zeros]
            obtain ⟨identifier, empty⟩ := endOfContents_of_front known formed front
            rw [identifier, empty] at formed
            rw [split, identifier, empty]
            exact .close stack formed
          next nonzero =>
            obtain ⟨k, rfl, inside', elements⟩ := ih _ _ found
            rw [List.length_drop] at inside'
            refine ⟨tl + ll + k, by omega, by omega, ?_⟩
            rw [List.take_add, split]
            refine .element stack _ _ _ _ _ known inside formed ?_ elements
            intro closed
            apply nonzero
            have whole := List.take_append_drop (tl + ll) bytes
            rw [split, closed] at whole
            rw [← whole]
            rfl

theorem skipElements_more (fuel skipped : Nat) (bytes : List UInt8)
    (found : skipElements skip fuel skipped bytes = .wantMore) (enough : bytes.length ≤ fuel) :
    ∃ later, later ≠ [] ∧ Formed unlimited () .elements (bytes ++ later) := by
  induction fuel generalizing skipped bytes with
  | zero =>
      obtain rfl := List.length_eq_zero_iff.mp (Nat.le_zero.mp enough)
      exact ⟨endOfContents, List.cons_ne_nil _ _, formed_endOfContents⟩
  | succ fuel ih =>
      rw [skipElements] at found
      split at found
      next begun =>
        obtain ⟨later, tag, some, limit, tagClass, number, known, -⟩ := berFetchTag_reads.more _ begun
        obtain ⟨behind, -, elements⟩ := finished_identifier known
        refine ⟨later ++ behind, List.append_ne_nil_of_left_ne_nil some behind, ?_⟩
        rw [← List.append_assoc]
        exact elements
      · cases found
      next tl tag fetched =>
        obtain ⟨⟨tagClass, number, known, inside, -⟩, first⟩ := berFetchTag_reads.got _ _ _ fetched
        have positive := List.length_pos_iff.mpr known.ne_nil
        rw [List.length_take] at positive
        split at found
        next begun =>
          rw [isConstructed_take known] at begun
          obtain ⟨later, -, some, value⟩ := (skips _).more _ begun
          obtain ⟨behind, elements⟩ := finished_element known value
          refine ⟨later ++ behind, List.append_ne_nil_of_left_ne_nil some behind, ?_⟩
          rw [← List.append_assoc, List.take_append_drop] at elements
          rw [← List.append_assoc]
          exact elements
        · cases found
        next _ ll taken =>
          rw [isConstructed_take known] at taken
          obtain ⟨formed, second⟩ := (skips _).got _ _ _ taken
          rw [List.length_drop] at second
          split at found
          · cases found
          next nonzero =>
            obtain ⟨later, some, elements⟩ := ih _ _ found (by rw [List.length_drop]; omega)
            refine ⟨later, some, ?_⟩
            have whole : bytes ++ later = bytes.take tl ++ (bytes.drop tl).take ll ++
                (bytes.drop (tl + ll) ++ later) := by
              rw [← List.take_add, ← List.append_assoc, List.take_append_drop]
            rw [whole]
            refine .element () _ _ _ _ _ known trivial formed.beyond ?_ elements
            intro closed
            apply nonzero
            rw [← List.take_add] at closed
            rw [← List.take_append_drop (tl + ll) bytes, closed]
            rfl

theorem skipElements_failed (fuel skipped : Nat) (bytes later : List UInt8)
    (found : skipElements skip fuel skipped bytes = .failed) :
    ¬ Formed stackLimits stack .elements (bytes ++ later) := by
  intro formed
  induction fuel generalizing skipped bytes with
  | zero => cases found
  | succ fuel ih =>
      obtain ⟨identifier, tagClass, number, value, others, split, known, inside, formed, ending⟩ :=
        formed.first (by decide : 0 < 2 ^ 30)
      rw [List.append_assoc] at split
      rw [skipElements] at found
      split at found
      · cases found
      next failed => exact berFetchTag_reads.failed_split _ failed split ⟨_, _, known, inside, rfl⟩
      next tl tag fetched =>
        obtain ⟨rfl, behind, -⟩ := berFetchTag_reads.got_split fetched split ⟨_, _, known, inside, rfl⟩
        split at found
        · cases found
        next failed =>
          rw [isConstructed_take known] at failed
          exact (skips _).failed_split () failed behind.symm formed
        next _ ll taken =>
          rw [isConstructed_take known] at taken
          obtain ⟨rfl, behind', -⟩ := (skips _).got_split (a := ()) taken behind.symm formed
          split at found
          · cases found
          next nonzero =>
            rcases ending with ⟨closed, -⟩ | ⟨-, elements⟩
            · apply nonzero
              rw [← List.take_add] at closed
              rw [← List.take_append_drop (tl + ll) bytes, closed]
              rfl
            · rw [behind', List.drop_drop] at elements
              exact ih _ _ found elements

end

/-! ## Values -/

/-- With room for `stack` calls, the values within the limits are skipped whole, and no others. More is asked for
only at the beginning of a value, and a failure is final. -/
theorem berSkipLength_skips (stack : Nat) (constructed : Bool) :
    Skips stack constructed (berSkipLength stack constructed) := by
  induction stack generalizing constructed with
  | zero =>
      have none (bytes : List UInt8) : ¬ Formed stackLimits 0 (.value constructed) bytes := by
        intro formed
        cases formed with
        | definite _ s' _ _ _ below => exact Nat.succ_ne_zero s' below.symm
        | indefinite _ s' _ below => exact Nat.succ_ne_zero s' below.symm
      exact {
        whole := fun bytes _ _ formed => absurd formed (none bytes)
        got := fun _ _ _ found => nomatch found
        more := fun _ found => nomatch found
        failed := fun _ _ _ _ => none _ }
  | succ stack ih =>
      have lengths := berFetchLength_reads constructed
      constructor
      · intro bytes rest _ formed
        cases formed with
        | definite _ s' _ field content below known inside =>
            have fetched := lengths.whole field (content ++ rest) _ ⟨known, fun n same => by cases same; exact inside⟩
            rw [List.append_assoc, berSkipLength, fetched]
            simp only [List.length_append]
            rw [if_neg (by omega)]
        | indefinite _ s' bytes below elements =>
            obtain rfl : stack = s' := Nat.succ.inj below
            have fetched := (berFetchLength_reads true).whole [0x80] (bytes ++ rest) none ⟨.indefinite, by simp⟩
            rw [List.cons_append, berSkipLength]
            rw [List.singleton_append] at fetched
            rw [fetched]
            simp only [List.length_singleton, List.drop_one, List.tail_cons]
            rw [skipElements_whole ih _ _ bytes rest elements
              (by simp only [List.length_cons, List.length_append]; omega),
              List.length_cons, Nat.add_comm]
      · intro bytes n _ found
        rw [berSkipLength] at found
        split at found
        · cases found
        · cases found
        next ll vlen fetched =>
          obtain ⟨⟨known, inside⟩, first⟩ := lengths.got _ _ _ fetched
          split at found
          · cases found
          next fits =>
            cases found
            have size : ((bytes.drop ll).take vlen).length = vlen := by
              rw [List.length_take_of_le]
              rw [List.length_drop]
              omega
            refine ⟨?_, by omega⟩
            rw [List.take_add]
            refine .definite _ stack _ _ _ rfl ?_ ?_
            · rw [size]
              exact known
            · rw [size]
              exact inside _ rfl
        next ll fetched =>
          obtain ⟨⟨known, -⟩, first⟩ := lengths.got _ _ _ fetched
          obtain ⟨k, rfl, inside, elements⟩ := skipElements_got ih _ _ _ _ found
          rw [List.length_drop] at inside
          refine ⟨?_, by omega⟩
          rw [List.take_add]
          generalize bytes.take ll = field at known
          cases known
          exact .indefinite _ stack _ rfl elements
      · intro bytes found
        rw [berSkipLength] at found
        split at found
        next begun =>
          obtain ⟨later, len, some, known⟩ := lengths.more _ begun
          cases len with
          | some len =>
              refine ⟨later ++ List.replicate len 0x00, (), List.append_ne_nil_of_left_ne_nil some _, ?_⟩
              rw [← List.append_assoc]
              exact .definite () () _ _ _ trivial (by rw [List.length_replicate]; exact known) trivial
          | none =>
              refine ⟨later ++ endOfContents, (), List.append_ne_nil_of_left_ne_nil some _, ?_⟩
              rw [← List.append_assoc]
              generalize bytes ++ later = field at known
              cases known
              exact .indefinite () () _ trivial formed_endOfContents
        · cases found
        next ll vlen fetched =>
          obtain ⟨⟨known, -⟩, first⟩ := lengths.got _ _ _ fetched
          split at found
          next short =>
            refine ⟨List.replicate (ll + vlen - bytes.length) 0x00, (), List.ne_nil_of_length_pos ?_, ?_⟩
            · rw [List.length_replicate]
              omega
            · have size : (bytes.drop ll ++ List.replicate (ll + vlen - bytes.length) 0x00).length = vlen := by
                rw [List.length_append, List.length_replicate, List.length_drop]
                omega
              rw [← List.take_append_drop ll bytes, List.append_assoc, List.take_append_drop]
              exact .definite () () _ _ _ trivial (by rw [size]; exact known) trivial
          · cases found
        next ll fetched =>
          obtain ⟨⟨known, -⟩, first⟩ := lengths.got _ _ _ fetched
          obtain ⟨later, some, elements⟩ := skipElements_more ih _ _ _ found (by rw [List.length_drop]; omega)
          refine ⟨later, (), some, ?_⟩
          rw [← List.take_append_drop ll bytes, List.append_assoc]
          generalize bytes.take ll = field at known ⊢
          cases known
          exact .indefinite () () _ trivial elements
      · intro bytes later _ found formed
        rw [berSkipLength] at found
        generalize whole : bytes ++ later = octets at formed
        cases formed with
        | definite _ s' _ field content below known inside =>
            have form : LengthForm (rssizeMax + 1) constructed field (some content.length) :=
              ⟨known, fun n same => by cases same; exact inside⟩
            split at found
            · cases found
            next failed => exact lengths.failed_split _ failed whole form
            next ll vlen fetched => split at found <;> cases found
            next ll fetched =>
              obtain ⟨-, -, same⟩ := lengths.got_split fetched whole form
              cases same
        | indefinite _ s' elements below formed =>
            obtain rfl : stack = s' := Nat.succ.inj below
            have form : LengthForm (rssizeMax + 1) true [0x80] none := ⟨.indefinite, by simp⟩
            rw [← List.singleton_append] at whole
            split at found
            · cases found
            next failed => exact lengths.failed_split _ failed whole form
            next ll vlen fetched => split at found <;> cases found
            next ll fetched =>
              obtain ⟨-, behind, -⟩ := lengths.got_split fetched whole form
              rw [behind] at formed
              exact skipElements_failed ih _ _ _ _ found formed

/-- A value at the front is skipped whole when it is within the limits, and then only. A value that has begun makes
the caller wait, and nobody waits for what is no beginning of a value. What fails is not the front of a value within
the limits, whatever comes. -/
theorem berSkipLength_decides (stack : Nat) (constructed : Bool) (bytes : List UInt8) :
    (∀ n, berSkipLength stack constructed bytes = .got n () ↔ ∃ front rest, bytes = front ++ rest ∧
      front.length = n ∧ Formed stackLimits stack (.value constructed) front) ∧
    (∀ later, later ≠ [] → Formed stackLimits stack (.value constructed) (bytes ++ later) →
      berSkipLength stack constructed bytes = .wantMore) ∧
    (berSkipLength stack constructed bytes = .wantMore →
      ∃ later, later ≠ [] ∧ Formed unlimited () (.value constructed) (bytes ++ later)) ∧
    (berSkipLength stack constructed bytes = .failed → ∀ later front rest, bytes ++ later = front ++ rest →
      ¬ Formed stackLimits stack (.value constructed) front) := by
  have skips := berSkipLength_skips stack constructed
  refine ⟨fun n => skips.got_iff bytes n (), fun later some formed => skips.more_of_begun (a := ()) some formed,
    fun begun => ?_, fun failed later front rest split => skips.failed_split () failed split⟩
  obtain ⟨later, -, some, formed⟩ := skips.more bytes begun
  exact ⟨later, some, formed⟩

end Ipad.Libasn
