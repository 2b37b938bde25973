import Ipad.Lib.Tlv

/-!
# BER values

Identifiers, lengths and the nesting of elements, with the limits that a reader may have. A reader looks at the
front of some bytes and finds a whole form there, the beginning of one, or neither.
-/

namespace Lib.Ber
open Lib.Tlv

inductive Fetched (α : Type) where
  | wantMore
  | failed
  | got (size : Nat) (value : α)
  deriving DecidableEq, Repr

/-- A reader of the forms within its limits. It asks for more only when what it has begins a form, within the
limits or not. -/
structure Reads {α : Type} (form beyond : List UInt8 → α → Prop) (read : List UInt8 → Fetched α) : Prop where
  whole : ∀ bytes rest a, form bytes a → read (bytes ++ rest) = .got bytes.length a
  got : ∀ bytes n a, read bytes = .got n a → form (bytes.take n) a ∧ n ≤ bytes.length
  more : ∀ bytes, read bytes = .wantMore → ∃ later a, later ≠ [] ∧ beyond (bytes ++ later) a
  failed : ∀ bytes later a, read bytes = .failed → ¬ form (bytes ++ later) a

section
variable {α : Type} {form beyond : List UInt8 → α → Prop} {read : List UInt8 → Fetched α}

theorem Reads.got_iff (reads : Reads form beyond read) (bytes : List UInt8) (n : Nat) (a : α) :
    read bytes = .got n a ↔ ∃ front rest, bytes = front ++ rest ∧ front.length = n ∧ form front a := by
  constructor
  · intro found
    obtain ⟨formed, inside⟩ := reads.got bytes n a found
    exact ⟨bytes.take n, bytes.drop n, (List.take_append_drop ..).symm, List.length_take_of_le inside, formed⟩
  · rintro ⟨front, rest, rfl, rfl, formed⟩
    exact reads.whole front rest a formed

/-- No form within the limits lies at the front of what failed, whatever follows. -/
theorem Reads.failed_split (reads : Reads form beyond read) {bytes later front rest : List UInt8} (a : α)
    (failed : read bytes = .failed) (split : bytes ++ later = front ++ rest) : ¬ form front a := by
  intro formed
  obtain ⟨middle, rfl, -⟩ | ⟨middle, rfl, -⟩ := List.append_eq_append_iff.mp split
  · exact reads.failed _ _ a failed formed
  · rw [reads.whole front middle a formed] at failed
    cases failed

/-- The form at the front of what was read is the one that was found. -/
theorem Reads.got_split (reads : Reads form beyond read) {bytes later front rest : List UInt8} {a b : α} {n : Nat}
    (found : read bytes = .got n b) (split : bytes ++ later = front ++ rest) (formed : form front a) :
    front = bytes.take n ∧ rest = bytes.drop n ++ later ∧ a = b := by
  obtain ⟨formed', inside⟩ := reads.got bytes n b found
  have again := reads.whole _ (bytes.drop n ++ later) b formed'
  rw [← List.append_assoc, List.take_append_drop, List.length_take_of_le inside, split,
    reads.whole front rest a formed] at again
  obtain ⟨size, same⟩ := Fetched.got.inj again
  rw [← List.take_append_drop n bytes, List.append_assoc] at split
  obtain ⟨first, second⟩ := List.append_inj split (by rw [List.length_take_of_le inside, size])
  exact ⟨first.symm, second.symm, same⟩

/-- What begins a form within the limits, but is not whole, makes the reader ask for more. -/
theorem Reads.more_of_begun (reads : Reads form beyond read) {bytes later : List UInt8} {a : α} (some : later ≠ [])
    (formed : form (bytes ++ later) a) : read bytes = .wantMore := by
  cases found : read bytes with
  | wantMore => rfl
  | failed => exact absurd formed (reads.failed bytes later a found)
  | got n b =>
      obtain ⟨front, inside⟩ := reads.got bytes n b found
      have short := reads.whole _ (bytes.drop n ++ later) b front
      rw [← List.append_assoc, List.take_append_drop, List.length_take_of_le inside] at short
      have long := reads.whole _ [] a formed
      rw [List.append_nil, short] at long
      have same := (Fetched.got.inj long).1
      rw [List.length_append] at same
      have positive := List.length_pos_iff.mpr some
      omega

end

/-! ## Identifiers -/

def digitsValue (digits : List UInt8) : Nat := digits.foldl (fun value digit => value * 128 + digit.toNat % 128) 0

inductive Identifier : List UInt8 → (tagClass number : Nat) → Prop where
  | short (first : UInt8) (low : first &&& 0x1f ≠ 0x1f) :
      Identifier [first] (first >>> 6).toNat (first &&& 0x1f).toNat
  | long (first : UInt8) (digits : List UInt8) (last : UInt8) (high : first &&& 0x1f = 0x1f)
      (continues : ∀ digit ∈ digits, 128 ≤ digit.toNat) (ends : last.toNat < 128) :
      Identifier (first :: (digits ++ [last])) (first >>> 6).toNat (digitsValue (digits ++ [last]))

def isConstructed : List UInt8 → Bool
  | [] => false
  | first :: _ => first &&& 0x20 ≠ 0

/-! ## Lengths -/

/-- The indefinite form is for constructed elements. In other elements its octet stands for no content here,
which is more than BER has. -/
inductive LengthField : (constructed : Bool) → List UInt8 → Option Nat → Prop where
  | short (constructed : Bool) (first : UInt8) (low : first.toNat < 128) :
      LengthField constructed [first] (some first.toNat)
  | indefinite : LengthField true [0x80] none
  | long (constructed : Bool) (first : UInt8) (digits : List UInt8) (count : first.toNat = 128 + digits.length)
      (notReserved : digits.length ≠ 127) (definite : constructed = false ∨ digits ≠ []) :
      LengthField constructed (first :: digits) (some (bigEndianValue digits))

/-! ## Values -/

/-- `deeper s s'`: a value that is read at `s` may have values at `s'` in it. -/
structure Limits (ι : Type) where
  deeper : ι → ι → Prop
  tag : Nat → Prop
  length : Nat → Prop

def unlimited : Limits Unit := ⟨fun _ _ => True, fun _ => True, fun _ => True⟩

inductive Part where
  | value (constructed : Bool)
  | elements

def endOfContents : List UInt8 := [0x00, 0x00]

/-- A value is a length with the content behind it. The elements of an indefinite one go up to the end of
contents, which is read like an element. -/
inductive Formed {ι : Type} (limits : Limits ι) : ι → Part → List UInt8 → Prop where
  | definite (s s' : ι) (constructed : Bool) (field content : List UInt8) (below : limits.deeper s s')
      (known : LengthField constructed field (some content.length)) (inside : limits.length content.length) :
      Formed limits s (.value constructed) (field ++ content)
  | indefinite (s s' : ι) (bytes : List UInt8) (below : limits.deeper s s')
      (elements : Formed limits s' .elements bytes) :
      Formed limits s (.value true) (0x80 :: bytes)
  | close (s : ι) (empty : Formed limits s (.value false) [0x00]) : Formed limits s .elements endOfContents
  | element (s : ι) (identifier : List UInt8) (tagClass number : Nat) (value rest : List UInt8)
      (known : Identifier identifier tagClass number) (inside : limits.tag number)
      (formed : Formed limits s (.value (isConstructed identifier)) value)
      (unclosed : identifier ++ value ≠ endOfContents) (others : Formed limits s .elements rest) :
      Formed limits s .elements (identifier ++ value ++ rest)

section
variable {ι : Type} {limits : Limits ι} {s : ι}

theorem Formed.beyond {part : Part} {bytes : List UInt8} (formed : Formed limits s part bytes) :
    Formed unlimited () part bytes := by
  induction formed with
  | definite s s' constructed field content below known inside =>
      exact .definite () () constructed field content trivial known trivial
  | indefinite s s' bytes below elements ih => exact .indefinite () () bytes trivial ih
  | close s empty ih => exact .close () ih
  | element s identifier tagClass number value rest known inside formed unclosed others ih ih' =>
      exact .element () identifier tagClass number value rest known trivial ih unclosed ih'

theorem Identifier.ne_nil {identifier : List UInt8} {tagClass number : Nat}
    (known : Identifier identifier tagClass number) : identifier ≠ [] := by
  cases known <;> exact List.cons_ne_nil _ _

theorem LengthField.ne_nil {constructed : Bool} {field : List UInt8} {length : Option Nat}
    (known : LengthField constructed field length) : field ≠ [] := by
  cases known <;> exact List.cons_ne_nil _ _

theorem Formed.ne_nil {constructed : Bool} {value : List UInt8}
    (formed : Formed limits s (.value constructed) value) : value ≠ [] := by
  cases formed with
  | definite _ _ _ field content below known inside => exact List.append_ne_nil_of_left_ne_nil known.ne_nil content
  | indefinite => exact List.cons_ne_nil _ _

theorem isConstructed_append {identifier : List UInt8} {tagClass number : Nat}
    (known : Identifier identifier tagClass number) (rest : List UInt8) :
    isConstructed (identifier ++ rest) = isConstructed identifier := by
  cases known <;> rfl

theorem empty_value {value : List UInt8} {constructed : Bool}
    (formed : Formed limits s (.value constructed) (0x00 :: value)) : value = [] := by
  generalize whole : (0x00 :: value : List UInt8) = bytes at formed
  cases formed with
  | definite _ _ _ field content below known inside =>
      generalize size : content.length = length at known
      cases known with
      | short _ first low =>
          obtain ⟨rfl, rfl⟩ := List.cons_eq_cons.mp whole
          exact List.length_eq_zero_iff.mp size
      | long _ first digits count =>
          obtain ⟨rfl, -⟩ := List.cons_eq_cons.mp whole
          have none : (0x00 : UInt8).toNat = 0 := rfl
          omega
  | indefinite => exact absurd (List.cons_eq_cons.mp whole).1 (by decide)

/-- Two zero octets at the front are the end of contents. -/
theorem endOfContents_of_front {identifier value rest : List UInt8} {tagClass number : Nat}
    (known : Identifier identifier tagClass number)
    (formed : Formed limits s (.value (isConstructed identifier)) value)
    (front : (identifier ++ value ++ rest).take 2 = endOfContents) :
    identifier = [0x00] ∧ value = [0x00] := by
  cases known with
  | short first low =>
      obtain ⟨octet, value, rfl⟩ := List.exists_cons_of_ne_nil formed.ne_nil
      simp only [endOfContents, List.cons_append, List.nil_append, List.take_succ_cons, List.cons.injEq] at front
      obtain ⟨rfl, rfl, -⟩ := front
      exact ⟨rfl, by rw [empty_value formed]⟩
  | long first digits last high =>
      simp only [endOfContents, List.cons_append, List.take_succ_cons, List.cons.injEq] at front
      obtain ⟨rfl, -⟩ := front
      exact absurd high (by decide)

/-- The first element, and what comes behind it. -/
theorem Formed.first {bytes : List UInt8} (zero : limits.tag 0) (formed : Formed limits s .elements bytes) :
    ∃ identifier tagClass number value rest, bytes = identifier ++ value ++ rest ∧
      Identifier identifier tagClass number ∧ limits.tag number ∧
      Formed limits s (.value (isConstructed identifier)) value ∧
      (identifier ++ value = endOfContents ∧ rest = [] ∨
        identifier ++ value ≠ endOfContents ∧ Formed limits s .elements rest) := by
  cases formed with
  | close _ empty => exact ⟨[0x00], 0, 0, [0x00], [], rfl, .short 0x00 (by decide), zero, empty, .inl ⟨rfl, rfl⟩⟩
  | element _ identifier tagClass number value rest known inside formed unclosed others =>
      exact ⟨identifier, tagClass, number, value, rest, rfl, known, inside, formed, .inr ⟨unclosed, others⟩⟩

end

theorem formed_endOfContents : Formed unlimited () .elements endOfContents :=
  .close () (.definite () () false [0x00] [] trivial (.short false 0x00 (by decide)) trivial)

/-- An element can be followed by the end of contents, unless it is the end of contents. -/
theorem finished_element {identifier value : List UInt8} {tagClass number : Nat}
    (known : Identifier identifier tagClass number)
    (formed : Formed unlimited () (.value (isConstructed identifier)) value) :
    ∃ later, Formed unlimited () .elements (identifier ++ value ++ later) := by
  by_cases closed : identifier ++ value = endOfContents
  · exact ⟨[], by rw [closed, List.append_nil]; exact formed_endOfContents⟩
  · exact ⟨endOfContents, .element () identifier tagClass number value _ known trivial formed closed
      formed_endOfContents⟩

theorem finished_identifier {identifier : List UInt8} {tagClass number : Nat}
    (known : Identifier identifier tagClass number) :
    ∃ later, later ≠ [] ∧ Formed unlimited () .elements (identifier ++ later) := by
  obtain ⟨later, formed⟩ := finished_element known
    (.definite () () (isConstructed identifier) [0x00] [] trivial (.short _ 0x00 (by decide)) trivial)
  exact ⟨_, List.cons_ne_nil _ _, by rw [List.append_assoc] at formed; exact formed⟩

end Lib.Ber
