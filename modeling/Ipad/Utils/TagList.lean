import Ipad.Lib.Memory
import Ipad.Utils.Strings

/-!
# Tag lists

The search for a tag with the pointer that it moves and the bytes that are left.
-/

namespace Ipad.Utils.TagList
open Lib.Memory

def byteAt (tagList : List UInt8) (tagListPtr : Nat) : Except Fault UInt8 :=
  load .outOfBounds tagList tagListPtr

/-- The loop stops where no tag is left, and where only half of one is. -/
def searchTag (tag : UInt16) (tagList : List UInt8) : (tagBytesLeft tagListPtr : Nat) → Except Fault Bool
  | 0, _ => .ok false
  | 1, tagListPtr => do
      let first ← byteAt tagList tagListPtr
      if first &&& 0x1f = 0x1f then return false
      else if first.toUInt16 = tag then return true
      else searchTag tag tagList 0 (tagListPtr + 1)
  | tagBytesLeft + 2, tagListPtr => do
      let first ← byteAt tagList tagListPtr
      if first &&& 0x1f = 0x1f then
        let second ← byteAt tagList (tagListPtr + 1)
        if first.toUInt16 <<< 8 ||| second.toUInt16 = tag then return true
        else searchTag tag tagList tagBytesLeft (tagListPtr + 2)
      else if first.toUInt16 = tag then return true
      else searchTag tag tagList (tagBytesLeft + 1) (tagListPtr + 1)

/-- The function of the source. `ipaTagInTaglist_eq` gives its value as that of `Utils.ipaTagInTaglist`. -/
def ipaTagInTaglist (tag : UInt16) (tagList : IpaBuf) : Except Fault Bool :=
  searchTag tag tagList.bytes tagList.len 0

/-! ## The search on lists -/

theorem byteAt_cons (seen rest : List UInt8) (byte : UInt8) :
    byteAt (seen ++ byte :: rest) seen.length = .ok byte :=
  load_append_cons Fault.outOfBounds seen rest byte

theorem searchTag_short (tag : UInt16) (tagList : List UInt8) (tagBytesLeft tagListPtr : Nat) (first : UInt8)
    (read : byteAt tagList tagListPtr = .ok first) (short : first &&& 0x1f ≠ 0x1f) :
    searchTag tag tagList (tagBytesLeft + 1) tagListPtr =
      if first.toUInt16 = tag then .ok true else searchTag tag tagList tagBytesLeft (tagListPtr + 1) := by
  cases tagBytesLeft <;> simp [searchTag, read, short, bind, Except.bind, pure, Except.pure]

theorem searchTag_long (tag : UInt16) (tagList : List UInt8) (tagBytesLeft tagListPtr : Nat) (first second : UInt8)
    (read : byteAt tagList tagListPtr = .ok first) (long : first &&& 0x1f = 0x1f)
    (next : byteAt tagList (tagListPtr + 1) = .ok second) :
    searchTag tag tagList (tagBytesLeft + 2) tagListPtr =
      if first.toUInt16 <<< 8 ||| second.toUInt16 = tag then .ok true
      else searchTag tag tagList tagBytesLeft (tagListPtr + 2) := by
  simp [searchTag, read, long, next, bind, Except.bind, pure, Except.pure]

/-- With the pointer behind what has been searched, and as many bytes left as there are. -/
theorem searchTag_eq (tag : UInt16) (seen rest : List UInt8) :
    searchTag tag (seen ++ rest) rest.length seen.length = .ok (Utils.ipaTagInTaglist tag rest) := by
  induction rest using Utils.ipaTagInTaglist.induct tag generalizing seen with
  | case1 => rfl
  | case2 first long =>
      simp [searchTag, byteAt_cons, Utils.ipaTagInTaglist, long, bind, Except.bind, pure, Except.pure]
  | case3 first long second rest same =>
      have next := byteAt_cons (seen ++ [first]) rest second
      simp only [List.append_assoc, List.singleton_append, List.length_append, List.length_singleton] at next
      rw [List.length_cons, List.length_cons, searchTag_long tag _ _ _ _ _ (byteAt_cons ..) long next, if_pos same,
        ipaTagInTaglist_two tag first second rest long, if_pos same]
  | case4 first long second rest other ih =>
      have next := byteAt_cons (seen ++ [first]) rest second
      simp only [List.append_assoc, List.singleton_append, List.length_append, List.length_singleton] at next
      rw [List.length_cons, List.length_cons, searchTag_long tag _ _ _ _ _ (byteAt_cons ..) long next, if_neg other,
        ipaTagInTaglist_two tag first second rest long, if_neg other]
      simpa using ih (seen ++ [first, second])
  | case5 first rest short same =>
      rw [List.length_cons, searchTag_short tag _ _ _ _ (byteAt_cons ..) short, if_pos same,
        ipaTagInTaglist_one tag first rest short, if_pos same]
  | case6 first rest short other ih =>
      rw [List.length_cons, searchTag_short tag _ _ _ _ (byteAt_cons ..) short, if_neg other,
        ipaTagInTaglist_one tag first rest short, if_neg other]
      simpa using ih (seen ++ [first])

theorem ipaTagInTaglist_eq (tag : UInt16) (tagList : ValidBuf) :
    ipaTagInTaglist tag tagList.toIpaBuf = .ok (Utils.ipaTagInTaglist tag tagList.bytes) := by
  have whole := searchTag_eq tag [] tagList.bytes
  rwa [tagList.length_bytes tagList.valid] at whole

/-! ## The tags of a list -/

def tagsOf : List UInt8 → List Tag
  | [] => []
  | first :: rest =>
      if long : first &&& 0x1f = 0x1f then
        match rest with
        | [] => []
        | second :: rest => .two first second long :: tagsOf rest
      else .one first long :: tagsOf rest

theorem tagsOf_append (tag : Tag) (rest : List UInt8) : tagsOf (tag.bytes ++ rest) = tag :: tagsOf rest := by
  cases tag with
  | one first short => simp [Tag.bytes, tagsOf, short]
  | two first second long => simp [Tag.bytes, tagsOf, long]

theorem tagsOf_parses (bytes : List UInt8) : (tagsOf bytes).flatMap Tag.bytes <+: bytes := by
  induction bytes using tagsOf.induct with
  | case1 => simp [tagsOf]
  | case2 first long => simp [tagsOf, long]
  | case3 first long second rest ih =>
      simpa [tagsOf, long, Tag.bytes, List.cons_prefix_cons] using ih
  | case4 first rest short ih =>
      simpa [tagsOf, short, Tag.bytes, List.cons_prefix_cons] using ih

theorem prefix_tagsOf {tags : List Tag} {bytes : List UInt8} (reads : tags.flatMap Tag.bytes <+: bytes) :
    tags <+: tagsOf bytes := by
  induction tags generalizing bytes with
  | nil => exact List.nil_prefix
  | cons tag tags ih =>
      obtain ⟨rest, rfl⟩ := reads
      rw [List.flatMap_cons, List.append_assoc, tagsOf_append, List.cons_prefix_cons]
      exact ⟨rfl, ih (List.prefix_append ..)⟩

/-- The tags of the longest prefix that parses. -/
structure LongestPrefix (bytes : List UInt8) (tags : List Tag) : Prop where
  parses : tags.flatMap Tag.bytes <+: bytes
  longest : ∀ tags' : List Tag, tags'.flatMap Tag.bytes <+: bytes → tags' <+: tags

theorem tagsOf_longestPrefix (bytes : List UInt8) : LongestPrefix bytes (tagsOf bytes) where
  parses := tagsOf_parses bytes
  longest _ reads := prefix_tagsOf reads

theorem ipaTagInTaglist_tagsOf (tag : UInt16) (bytes : List UInt8) :
    Utils.ipaTagInTaglist tag bytes = decide (tag ∈ (tagsOf bytes).map Tag.value) := by
  induction bytes using tagsOf.induct with
  | case1 => simp [tagsOf, Utils.ipaTagInTaglist]
  | case2 first long => simp [tagsOf, Utils.ipaTagInTaglist, long]
  | case3 first long second rest ih =>
      rw [ipaTagInTaglist_two tag first second rest long, ih]
      simp only [tagsOf, long, dite_true, List.map_cons, List.mem_cons, Tag.value]
      by_cases same : first.toUInt16 <<< 8 ||| second.toUInt16 = tag
      · simp [same]
      · simp [same, Ne.symm same]
  | case4 first rest short ih =>
      rw [ipaTagInTaglist_one tag first rest short, ih]
      simp only [tagsOf, short, dite_false, List.map_cons, List.mem_cons, Tag.value]
      by_cases same : first.toUInt16 = tag
      · simp [same]
      · simp [same, Ne.symm same]

/-- Which tags a list has, and that the search finds these. -/
structure Decides (tagList : ValidBuf) (tags : List Tag) : Prop where
  longest : LongestPrefix tagList.bytes tags
  search : ∀ tag, ipaTagInTaglist tag tagList.toIpaBuf = .ok (decide (tag ∈ tags.map Tag.value))
  concatenation : ∀ tags' : List Tag, tagList.bytes = tags'.flatMap Tag.bytes → ∀ tag : Tag,
    ipaTagInTaglist tag.value tagList.toIpaBuf = .ok true ↔ tag ∈ tags'

theorem ipaTagInTaglist_decides (tagList : ValidBuf) : ∃ tags, Decides tagList tags := by
  refine ⟨tagsOf tagList.bytes, tagsOf_longestPrefix _, fun tag => ?_, fun tags' concatenation tag => ?_⟩
  · rw [ipaTagInTaglist_eq, ipaTagInTaglist_tagsOf]
  · rw [ipaTagInTaglist_eq, concatenation, Except.ok.injEq, ipaTagInTaglist_iff,
      List.mem_map_of_injective Tag.value_injective]

end Ipad.Utils.TagList
