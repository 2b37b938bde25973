import Ipad.Lib.Memory
import Ipad.Lib.Objects
import Ipad.Proc.IndirectDwnld
import Mathlib.Tactic.Abel

/-!
# Activation codes

`ipa_activation_code_parse` with the string it goes through and the buffers it allocates. A pointer into the
string is an offset, and a fault would be an access outside of it.
-/

namespace Ipad.Proc.AcParse
open Lib.Memory Lib.Objects

/-- The members own the buffers that they point to. -/
structure AcDecoded where
  object : Nat
  smDpPlusAddress : Option (Ref (List UInt8))
  acToken : Option (Ref (List UInt8))
  smDpPlusOid : Option (Ref (List UInt8))
  confirmationCodeRequired : Bool
  ciPublicKeyIndicator : Option (Ref (List UInt8))
  deleteNotificationForDeviceChange : Option (Ref (List UInt8))

def AcDecoded.empty (object : Nat) : AcDecoded where
  object
  smDpPlusAddress := none
  acToken := none
  smDpPlusOid := none
  confirmationCodeRequired := false
  ciPublicKeyIndicator := none
  deleteNotificationForDeviceChange := none

def AcDecoded.new : Mem Fault AcDecoded := do
  let object ← alloc
  return .empty object

def ipaActivationCodeFree : Option AcDecoded → Mem Fault Unit
  | none => pure ()
  | some acDecoded => do
      access acDecoded.object
      freeOpt (acDecoded.smDpPlusAddress.map Ref.object)
      freeOpt (acDecoded.acToken.map Ref.object)
      freeOpt (acDecoded.smDpPlusOid.map Ref.object)
      freeOpt (acDecoded.ciPublicKeyIndicator.map Ref.object)
      freeOpt (acDecoded.deleteNotificationForDeviceChange.map Ref.object)
      free acDecoded.object

/-- The search ends at the zero byte. -/
def strchr (ac : CString) (p : Nat) (c : UInt8) : Except Fault (Option Nat) :=
  if p ≤ ac.chars.length then .ok (((ac.chars.drop p).idxOf? c).map (p + ·)) else .error .outOfBounds

def itemLen (ac : CString) (item : Nat) : Except Fault Nat := do
  match ← strchr ac (item + 1) dollar with
  | none => return ac.chars.length - item
  | some itemEnd => return itemEnd - item

/-- The length of the text is `item_len - 1`, which must not wrap. -/
def itemText (ac : CString) (item itemLen : Nat) : Except Fault (List UInt8) :=
  if itemLen = 0 then .error .outOfBounds else loadRun .outOfBounds ac.memory (item + 1) (itemLen - 1)

def itemBuf (ac : CString) (item : Nat) : Except Fault (List UInt8) := do
  let itemLen ← itemLen ac item
  let text ← itemText ac item itemLen
  let buf ← (Region.filled (itemLen + 1) 0).store .outOfBounds 0 text
  let buf ← buf.store .outOfBounds (itemLen - 1) [0]
  return buf.cells

def newItem (ac : CString) (item : Nat) : Mem Fault (Ref (List UInt8)) := do
  let cells ← lift (itemBuf ac item)
  Ref.new cells

/-- An empty item is released and the member stays what it was. -/
def keepNonempty (member : Option (Ref (List UInt8))) (item : Ref (List UInt8)) :
    Mem Fault (Option (Ref (List UInt8))) := do
  access item.object
  if 0 < (stringAt item.value).length then return some item
  else
    free item.object
    return member

def setItem (acDecoded : AcDecoded) (itemCount : Nat) (item : Ref (List UInt8)) : Mem Fault AcDecoded :=
  match itemCount with
  | 0 => do
      let smDpPlusAddress ← keepNonempty acDecoded.smDpPlusAddress item
      return { acDecoded with smDpPlusAddress }
  | 1 => return { acDecoded with acToken := some item }
  | 2 => do
      let smDpPlusOid ← keepNonempty acDecoded.smDpPlusOid item
      return { acDecoded with smDpPlusOid }
  | 3 => do
      access item.object
      free item.object
      return {
        acDecoded with
        confirmationCodeRequired := acDecoded.confirmationCodeRequired || item.value.head? = some 0x31 }
  | 4 => do
      let ciPublicKeyIndicator ← keepNonempty acDecoded.ciPublicKeyIndicator item
      return { acDecoded with ciPublicKeyIndicator }
  | 5 => do
      let deleteNotificationForDeviceChange ← keepNonempty acDecoded.deleteNotificationForDeviceChange item
      return { acDecoded with deleteNotificationForDeviceChange }
  | _ => do
      free item.object
      return acDecoded

theorem strchr_inside {ac : CString} {p q : Nat} {c : UInt8} (found : strchr ac p c = .ok (some q)) :
    p ≤ q ∧ q < ac.chars.length := by
  unfold strchr at found
  split at found
  · rw [Except.ok.injEq, Option.map_eq_some_iff] at found
    obtain ⟨k, at_k, rfl⟩ := found
    obtain ⟨short, -⟩ := List.idxOf?_eq_some_iff.mp at_k
    rw [List.length_drop] at short
    omega
  · cases found

def itemsLoop (ac : CString) (item itemCount : Nat) (acDecoded : AcDecoded) : Mem Fault AcDecoded :=
  match found : strchr ac (item + 1) dollar with
  | .error fault => stop fault
  | .ok none => pure acDecoded
  | .ok (some next) => do
      let itemBuf ← newItem ac next
      let acDecoded ← setItem acDecoded itemCount itemBuf
      itemsLoop ac next (itemCount + 1) acDecoded
termination_by ac.chars.length - item
decreasing_by
  have inside := strchr_inside found
  omega

def lpa : List UInt8 := [0x4C, 0x50, 0x41, 0x3A]

def decodeItems (ac : CString) (start : Nat) : Mem Fault (Option AcDecoded) := do
  let acDecoded ← AcDecoded.new
  let acDecoded ← itemsLoop ac start 0 acDecoded
  if acDecoded.smDpPlusAddress.isNone || acDecoded.acToken.isNone then
    ipaActivationCodeFree (some acDecoded)
    return none
  else return some acDecoded

/-- The second half of the checks, on the string from `start` on. -/
def parseFrom (ac : CString) (start : Nat) : Mem Fault (Option AcDecoded) :=
  if ac.chars.length - start ≤ 4 then pure none
  else do
    let qualifier ← lift (loadRun .outOfBounds ac.memory start 2)
    if qualifier = [0x31, dollar] then decodeItems ac start else return none

def ipaActivationCodeParse : Option CString → Mem Fault (Option AcDecoded)
  | none => pure none
  | some ac =>
      if ac.chars.length ≤ 4 then pure none
      else do
        let head ← lift (loadRun .outOfBounds ac.memory 0 4)
        parseFrom ac (if head = lpa then 4 else 0)

/-! ## Items -/

section
variable {ac : CString}

theorem idxOf?_append_cons {piece : List UInt8} {c : UInt8} (first : c ∉ piece) (rest : List UInt8) :
    (piece ++ c :: rest).idxOf? c = some piece.length := by
  induction piece with
  | nil => simp [List.idxOf?_cons]
  | cons head piece ih =>
      rw [List.mem_cons, not_or] at first
      simp [List.idxOf?_cons, Ne.symm first.1, ih first.2]

theorem strchr_none {p : Nat} {c : UInt8} (inside : p ≤ ac.chars.length) (absent : c ∉ ac.chars.drop p) :
    strchr ac p c = .ok none := by
  rw [strchr, if_pos inside, List.idxOf?_eq_none_iff.mpr absent]
  rfl

theorem strchr_some {p : Nat} {c : UInt8} (inside : p ≤ ac.chars.length) {piece rest : List UInt8}
    (text : ac.chars.drop p = piece ++ c :: rest) (first : c ∉ piece) :
    strchr ac p c = .ok (some (p + piece.length)) := by
  rw [strchr, if_pos inside, text, idxOf?_append_cons first]
  rfl

theorem splitOn_cases (text : List UInt8) :
    dollar ∉ text ∧ text.splitOn dollar = [text] ∨
      ∃ piece rest, text = piece ++ dollar :: rest ∧ dollar ∉ piece ∧
        text.splitOn dollar = piece :: rest.splitOn dollar := by
  by_cases member : dollar ∈ text
  · obtain ⟨piece, rest, rfl, first⟩ := List.eq_append_cons_of_mem member
    exact .inr ⟨piece, rest, rfl, first, List.splitOn_append_cons_self_of_not_mem first rest⟩
  · exact .inl ⟨member, List.splitOn_eq_singleton member⟩

theorem drop_behind {p : Nat} {piece rest : List UInt8} (text : ac.chars.drop p = piece ++ dollar :: rest) :
    ac.chars.drop (p + piece.length + 1) = rest := by
  rw [Nat.add_assoc, ← List.drop_drop, text, ← List.drop_drop, List.drop_left]
  rfl

/-- The item that begins behind a separator: its length counts the separator. -/
theorem itemLen_piece {item : Nat} (inside : item < ac.chars.length) {piece : List UInt8}
    {pieces : List (List UInt8)} (split : (ac.chars.drop (item + 1)).splitOn dollar = piece :: pieces) :
    itemLen ac item = .ok (piece.length + 1) ∧ piece <+: ac.chars.drop (item + 1) := by
  rcases splitOn_cases (ac.chars.drop (item + 1)) with ⟨last, same⟩ | ⟨piece', rest, text, first, same⟩
  · rw [same] at split
    cases split
    refine ⟨?_, List.prefix_rfl⟩
    have length : ac.chars.length - item = ac.chars.length - (item + 1) + 1 := by omega
    rw [itemLen, strchr_none inside last, List.length_drop, ← length]
    rfl
  · rw [same] at split
    cases split
    refine ⟨?_, ?_⟩
    · have length : item + 1 + piece.length - item = piece.length + 1 := by omega
      rw [itemLen, strchr_some inside text first, ← length]
      rfl
    · rw [text]
      exact List.prefix_append _ _

theorem itemText_piece {item : Nat} {piece : List UInt8} (inside : item < ac.chars.length)
    (behind : piece <+: ac.chars.drop (item + 1)) : itemText ac item (piece.length + 1) = .ok piece := by
  have short := behind.length_le
  rw [List.length_drop] at short
  have room : item + 1 + (piece.length + 1 - 1) ≤ ac.memory.length := by
    rw [CString.memory, List.length_append]
    omega
  have text : ac.memory.drop (item + 1) = ac.chars.drop (item + 1) ++ [0] := by
    rw [CString.memory, List.drop_append_of_le_length (by omega)]
  rw [itemText, if_neg (Nat.succ_ne_zero _), loadRun_ok _ room, text, Nat.add_sub_cancel,
    List.take_append_of_le_length behind.length_le, List.prefix_iff_eq_take.mp behind]
  simp

/-- The buffer has a cell more than the terminated text. -/
theorem itemBuf_piece {item : Nat} (inside : item < ac.chars.length) {piece : List UInt8}
    {pieces : List (List UInt8)} (split : (ac.chars.drop (item + 1)).splitOn dollar = piece :: pieces) :
    itemBuf ac item = .ok (piece ++ [0, 0]) := by
  obtain ⟨length, behind⟩ := itemLen_piece inside split
  obtain ⟨copied, stored, cells⟩ := (Region.filled (piece.length + 1 + 1) (0 : UInt8)).store_ok Fault.outOfBounds
    0 piece (by omega)
  obtain ⟨ended, stored', cells'⟩ := copied.store_ok Fault.outOfBounds piece.length [0]
    (by rw [List.length_singleton]; omega)
  have whole : copied.cells = piece ++ [0, 0] := by
    have left : piece.length + 1 + 1 - piece.length = 2 := by omega
    rw [cells, List.take_zero, List.nil_append, Nat.zero_add, Region.filled, List.drop_replicate, left]
    rfl
  have whole' : ended.cells = piece ++ [0, 0] := by
    rw [cells', whole, List.take_left' rfl, List.length_singleton, List.append_assoc, ← List.drop_drop,
      List.drop_left' rfl]
    rfl
  rw [itemBuf, length]
  simp only [bind, Except.bind, itemText_piece inside behind, stored, Nat.add_sub_cancel, stored', whole']
  rfl

end

/-! ## Members -/

def slot (member : Option (Ref (List UInt8))) : Multiset Nat := ((member.map Ref.object).toList : Multiset Nat)

@[simp] theorem slot_none : slot none = 0 := rfl

def AcDecoded.owned (acDecoded : AcDecoded) : Multiset Nat :=
  slot acDecoded.smDpPlusAddress + (slot acDecoded.acToken + (slot acDecoded.smDpPlusOid +
    (slot acDecoded.ciPublicKeyIndicator + (slot acDecoded.deleteNotificationForDeviceChange +
      {acDecoded.object}))))

def textOf (item : Ref (List UInt8)) : List UInt8 := stringAt item.value

def AcDecoded.values (acDecoded : AcDecoded) : ActivationCode where
  smDpPlusAddress := acDecoded.smDpPlusAddress.map textOf
  acToken := acDecoded.acToken.map textOf
  smDpPlusOid := acDecoded.smDpPlusOid.map textOf
  confirmationCodeRequired := acDecoded.confirmationCodeRequired
  ciPublicKeyIndicator := acDecoded.ciPublicKeyIndicator.map textOf
  deleteNotificationForDeviceChange := acDecoded.deleteNotificationForDeviceChange.map textOf

/-- Nothing is set by the items from `itemCount` on. -/
structure Untouched (ac : ActivationCode) (itemCount : Nat) : Prop where
  address : itemCount ≤ 0 → ac.smDpPlusAddress = none
  token : itemCount ≤ 1 → ac.acToken = none
  oid : itemCount ≤ 2 → ac.smDpPlusOid = none
  flag : itemCount ≤ 3 → ac.confirmationCodeRequired = false
  indicator : itemCount ≤ 4 → ac.ciPublicKeyIndicator = none
  notification : itemCount ≤ 5 → ac.deleteNotificationForDeviceChange = none

theorem untouched_empty : Untouched .empty 0 := by
  constructor <;> intro <;> rfl

theorem Untouched.setItem {ac : ActivationCode} {itemCount : Nat} (untouched : Untouched ac itemCount)
    (item : List UInt8) : Untouched (ac.setItem itemCount item) (itemCount + 1) := by
  obtain ⟨address, token, oid, flag, indicator, notification⟩ := untouched
  unfold ActivationCode.setItem
  split <;> constructor <;> grind

section
variable {heap : Heap} {rest : Multiset Nat} {stopped : Fault → Prop}

theorem safe_keepNonempty {member : Option (Ref (List UInt8))} (absent : member = none) {item : Ref (List UInt8)}
    (held : heap.live = item.object ::ₘ rest) :
    Safe (keepNonempty member item) heap
      (fun kept heap' => kept.map textOf = nonempty (textOf item) ∧ heap'.live = slot kept + rest) stopped := by
  have member : item.object ∈ heap.live := held ▸ Multiset.mem_cons_self _ _
  rw [keepNonempty, safe_bind]
  refine safe_access member ?_
  by_cases text : stringAt item.value = []
  · rw [if_neg (by simp [text]), safe_bind]
    refine safe_free held fun heap' freed => ⟨?_, ?_⟩
    · simp [absent, nonempty, textOf, text]
    · simp [absent, slot, freed]
  · rw [if_pos (List.length_pos_iff.mpr text)]
    exact ⟨(if_neg text).symm, by rw [held]; rfl⟩

theorem safe_setMember {member : Option (Ref (List UInt8))} (absent : member = none) {item : Ref (List UInt8)}
    {acDecoded : AcDecoded} (held : heap.live = item.object ::ₘ (acDecoded.owned + rest))
    (next : Option (Ref (List UInt8)) → AcDecoded) (unset : next member = acDecoded)
    (values : Option (List UInt8) → ActivationCode) (same : ∀ kept, (next kept).values = values (kept.map textOf))
    (parts : ∀ kept, (next kept).owned = slot kept + (next none).owned) :
    Safe (do return next (← keepNonempty member item)) heap
      (fun acDecoded' heap' => acDecoded'.values = values (nonempty (textOf item)) ∧
        heap'.live = acDecoded'.owned + rest) stopped := by
  have others : heap.live = item.object ::ₘ ((next none).owned + rest) := by rw [held, ← unset, absent]
  rw [safe_bind]
  refine (safe_keepNonempty absent others).mono (fun kept heap' ⟨text, owned⟩ => ⟨?_, ?_⟩) fun _ => id
  · rw [same, text]
  · rw [owned, parts kept, Multiset.add_assoc]

theorem safe_setItem {acDecoded : AcDecoded} {itemCount : Nat} (untouched : Untouched acDecoded.values itemCount)
    {item : Ref (List UInt8)} {text : List UInt8} (cells : item.value = text ++ [0, 0]) (nonzero : 0 ∉ text)
    (held : heap.live = item.object ::ₘ (acDecoded.owned + rest)) :
    Safe (setItem acDecoded itemCount item) heap
      (fun acDecoded' heap' => acDecoded'.values = acDecoded.values.setItem itemCount text ∧
        heap'.live = acDecoded'.owned + rest) stopped := by
  have written : textOf item = text := by
    rw [textOf, cells]
    exact stringAt_append text [0] nonzero
  have absent {member : Option (Ref (List UInt8))} : member.map textOf = none → member = none :=
    Option.map_eq_none_iff.mp
  rw [← written]
  match itemCount with
  | 0 =>
      exact safe_setMember (absent (untouched.address (Nat.le_refl _))) held
        (fun kept => { acDecoded with smDpPlusAddress := kept }) rfl
        (fun kept => { acDecoded.values with smDpPlusAddress := kept }) (fun _ => rfl)
        (fun _ => by simp only [AcDecoded.owned, slot_none]; abel)
  | 1 =>
      refine ⟨rfl, ?_⟩
      rw [held]
      simp only [AcDecoded.owned, absent (untouched.token (Nat.le_refl _)), slot, Option.map_none,
        Option.toList_none, Option.map_some, Option.toList_some, Multiset.coe_nil, Multiset.coe_singleton,
        ← Multiset.singleton_add]
      abel
  | 2 =>
      exact safe_setMember (absent (untouched.oid (Nat.le_refl _))) held
        (fun kept => { acDecoded with smDpPlusOid := kept }) rfl
        (fun kept => { acDecoded.values with smDpPlusOid := kept }) (fun _ => rfl)
        (fun _ => by simp only [AcDecoded.owned, slot_none]; abel)
  | 3 =>
      have first : (item.value.head? = some 0x31) = ((textOf item).head? = some 0x31) := by
        rw [written, cells]
        cases text <;> simp
      have member : item.object ∈ heap.live := held ▸ Multiset.mem_cons_self _ _
      have clear : acDecoded.confirmationCodeRequired = false := untouched.flag (Nat.le_refl _)
      show Safe (do access item.object; free item.object; return _) _ _ _
      rw [safe_bind]
      refine safe_access member ?_
      rw [safe_bind]
      refine safe_free held fun heap' freed => ⟨?_, freed⟩
      simp only [AcDecoded.values, ActivationCode.setItem, clear, first, Bool.false_or]
  | 4 =>
      exact safe_setMember (absent (untouched.indicator (Nat.le_refl _))) held
        (fun kept => { acDecoded with ciPublicKeyIndicator := kept }) rfl
        (fun kept => { acDecoded.values with ciPublicKeyIndicator := kept }) (fun _ => rfl)
        (fun _ => by simp only [AcDecoded.owned, slot_none]; abel)
  | 5 =>
      exact safe_setMember (absent (untouched.notification (Nat.le_refl _))) held
        (fun kept => { acDecoded with deleteNotificationForDeviceChange := kept }) rfl
        (fun kept => { acDecoded.values with deleteNotificationForDeviceChange := kept }) (fun _ => rfl)
        (fun _ => by simp only [AcDecoded.owned, slot_none]; abel)
  | itemCount + 6 =>
      show Safe (do free item.object; return acDecoded) _ _ _
      rw [safe_bind]
      exact safe_free held fun heap' freed => ⟨rfl, freed⟩

theorem safe_newItem {ac : CString} {item : Nat} (inside : item < ac.chars.length) {piece : List UInt8}
    {pieces : List (List UInt8)} (split : (ac.chars.drop (item + 1)).splitOn dollar = piece :: pieces)
    {post : Ref (List UInt8) → Heap → Prop}
    (next : ∀ object heap', heap'.live = object ::ₘ heap.live → post { object, value := piece ++ [0, 0] } heap') :
    Safe (newItem ac item) heap post stopped := by
  rw [newItem, safe_bind]
  exact safe_lift (itemBuf_piece inside split) (safe_new _ next)

theorem zero_notMem_piece {ac : CString} {p : Nat} {piece : List UInt8} {pieces : List (List UInt8)}
    (split : (ac.chars.drop p).splitOn dollar = piece :: pieces) : 0 ∉ piece := by
  have part : ∀ c ∈ piece, c ∈ ac.chars.drop p := by
    rcases splitOn_cases (ac.chars.drop p) with ⟨-, same⟩ | ⟨first, rest, text, -, same⟩
    · rw [same] at split
      cases split
      exact fun _ => id
    · rw [same] at split
      cases split
      rw [text]
      exact fun c member => List.mem_append_left _ member
  exact fun zero => ac.nonzero (List.mem_of_mem_drop (part 0 zero))

/-- The items that the loop goes through are the pieces behind the first separator from here. -/
theorem safe_itemsLoop {ac : CString} {item itemCount : Nat} (inside : item < ac.chars.length)
    {acDecoded : AcDecoded} (untouched : Untouched acDecoded.values itemCount)
    (held : heap.live = acDecoded.owned + rest) :
    Safe (itemsLoop ac item itemCount acDecoded) heap
      (fun acDecoded' heap' => acDecoded'.values =
          setItems acDecoded.values itemCount ((ac.chars.drop (item + 1)).splitOn dollar).tail ∧
        heap'.live = acDecoded'.owned + rest) stopped := by
  induction left : ac.chars.length - item using Nat.strong_induction_on generalizing item itemCount acDecoded heap with
  | _ left ih =>
      rcases splitOn_cases (ac.chars.drop (item + 1)) with ⟨absent, same⟩ | ⟨before, behind, text, first, same⟩
      · have ended := strchr_none inside absent
        rw [itemsLoop, ended, same]
        exact ⟨rfl, held⟩
      · have found := strchr_some inside text first
        have further := strchr_inside found
        have from' : ac.chars.drop (item + 1 + before.length + 1) = behind := drop_behind text
        obtain ⟨piece, pieces, split⟩ := List.exists_cons_of_ne_nil (List.splitOn_ne_nil dollar behind)
        rw [← from'] at split
        rw [itemsLoop, found, same, List.tail_cons, ← from', split]
        show Safe (do let itemBuf ← newItem ac _; _) _ _ _
        rw [safe_bind]
        refine safe_newItem further.2 split fun object heap' grown => ?_
        rw [safe_bind]
        rw [held] at grown
        refine (safe_setItem untouched rfl (zero_notMem_piece split) grown).mono ?_ fun _ => id
        rintro acDecoded' heap'' ⟨values, held'⟩
        have untouched' : Untouched acDecoded'.values (itemCount + 1) := values ▸ untouched.setItem piece
        have step := ih _ (by omega) further.2 untouched' held' rfl
        rw [split, List.tail_cons, values] at step
        exact step

theorem safe_ipaActivationCodeFree {acDecoded : AcDecoded} (held : heap.live = acDecoded.owned + rest) :
    Safe (ipaActivationCodeFree (some acDecoded)) heap (fun _ heap' => heap'.live = rest) stopped := by
  have member : acDecoded.object ∈ heap.live := by
    rw [held]
    simp [AcDecoded.owned]
  simp only [AcDecoded.owned, slot, Multiset.add_assoc] at held
  rw [ipaActivationCodeFree, safe_bind]
  refine safe_access member ?_
  rw [safe_bind]
  refine safe_freeOpt held fun _ held => ?_
  rw [safe_bind]
  refine safe_freeOpt held fun _ held => ?_
  rw [safe_bind]
  refine safe_freeOpt held fun _ held => ?_
  rw [safe_bind]
  refine safe_freeOpt held fun _ held => ?_
  rw [safe_bind]
  refine safe_freeOpt held fun _ held => ?_
  rw [Multiset.singleton_add] at held
  exact safe_free held fun _ => id

end

/-! ## The whole string -/

def owned : Option AcDecoded → Multiset Nat
  | none => 0
  | some acDecoded => acDecoded.owned

section
variable {heap : Heap} {stopped : Fault → Prop}

/-- What `Proc.ipaActivationCodeParse` keeps of the items. -/
def usable (decoded : ActivationCode) : Option ActivationCode :=
  if decoded.smDpPlusAddress = none ∨ decoded.acToken = none then none else some decoded

theorem safe_decodeItems {ac : CString} {start : Nat} (inside : start < ac.chars.length)
    (separator : ∃ c rest, ac.chars.drop start = c :: dollar :: rest) :
    Safe (decodeItems ac start) heap
      (fun result heap' => result.map AcDecoded.values =
          usable (setItems .empty 0 ((ac.chars.drop (start + 2)).splitOn dollar)) ∧
        heap'.live = owned result + heap.live) stopped := by
  obtain ⟨c, rest, text⟩ := separator
  have behind : ac.chars.drop (start + 1) = [] ++ dollar :: rest := by
    rw [← List.drop_drop, text]
    rfl
  have items : ((ac.chars.drop (start + 1)).splitOn dollar).tail = (ac.chars.drop (start + 2)).splitOn dollar := by
    have further : ac.chars.drop (start + 2) = rest := drop_behind behind
    rw [further, behind, List.splitOn_append_cons_self_of_not_mem List.not_mem_nil]
    rfl
  rw [decodeItems, safe_bind, AcDecoded.new, safe_bind]
  refine safe_alloc fun object heap' grown => ?_
  rw [safe_pure, safe_bind]
  have untouched : Untouched (AcDecoded.empty object).values 0 := untouched_empty
  have held : heap'.live = (AcDecoded.empty object).owned + heap.live := grown
  refine (safe_itemsLoop inside untouched held).mono ?_ fun _ => id
  rintro acDecoded heap'' ⟨values, held⟩
  have values : acDecoded.values = setItems .empty 0 ((ac.chars.drop (start + 2)).splitOn dollar) := items ▸ values
  have address : acDecoded.smDpPlusAddress.isNone = true ↔ acDecoded.values.smDpPlusAddress = none := by
    simp [AcDecoded.values]
  have token : acDecoded.acToken.isNone = true ↔ acDecoded.values.acToken = none := by
    simp [AcDecoded.values]
  by_cases absent : (acDecoded.smDpPlusAddress.isNone || acDecoded.acToken.isNone) = true
  · rw [if_pos absent, safe_bind]
    rw [Bool.or_eq_true, address, token] at absent
    refine (safe_ipaActivationCodeFree held).mono (fun _ freed => ?_) fun _ => id
    intro live
    refine ⟨?_, ?_⟩
    · exact (if_pos (values ▸ absent)).symm
    · rw [live]
      exact (Multiset.zero_add _).symm
  · rw [if_neg absent]
    rw [Bool.or_eq_true, address, token] at absent
    exact ⟨by rw [usable, if_neg (values ▸ absent), ← values]; rfl, held⟩

def withoutLpa (text : List UInt8) : List UInt8 := if text.take 4 = lpa then text.drop 4 else text

def parseText (text : List UInt8) : Option ActivationCode :=
  if text.length ≤ 4 ∨ text.take 2 ≠ [0x31, dollar] then none
  else usable (setItems .empty 0 ((text.drop 2).splitOn dollar))

theorem length_withoutLpa (text : List UInt8) : (withoutLpa text).length ≤ text.length := by
  unfold withoutLpa
  split
  · rw [List.length_drop]
    exact Nat.sub_le _ _
  · exact Nat.le_refl _

theorem parse_eq (text : List UInt8) : Proc.ipaActivationCodeParse text = parseText (withoutLpa text) := by
  have shorter := length_withoutLpa text
  unfold Proc.ipaActivationCodeParse parseText
  by_cases short : text.length ≤ 4
  · rw [if_pos short, if_pos (.inl (Nat.le_trans shorter short))]
  · rw [if_neg short]
    show (if (withoutLpa text).length ≤ 4 then none
      else if (withoutLpa text).take 2 ≠ [0x31, dollar] then none
      else usable (setItems .empty 0 (((withoutLpa text).drop 2).splitOn dollar))) = _
    by_cases short' : (withoutLpa text).length ≤ 4
    · rw [if_pos short', if_pos (.inl short')]
    · simp only [short', false_or, if_false]

theorem safe_parseFrom {ac : CString} {start : Nat} (inside : start ≤ ac.chars.length) :
    Safe (parseFrom ac start) heap
      (fun result heap' => result.map AcDecoded.values = parseText (ac.chars.drop start) ∧
        heap'.live = owned result + heap.live) stopped := by
  have length : (ac.chars.drop start).length = ac.chars.length - start := List.length_drop
  by_cases short : ac.chars.length - start ≤ 4
  · rw [parseFrom, if_pos short]
    refine ⟨(if_pos (.inl ?_)).symm, (Multiset.zero_add _).symm⟩
    rw [length]
    exact short
  · have room : start + 2 ≤ ac.memory.length := by
      rw [CString.memory, List.length_append]
      omega
    have text : (ac.memory.drop start).take 2 = (ac.chars.drop start).take 2 := by
      rw [CString.memory, List.drop_append_of_le_length inside, List.take_append_of_le_length (by omega)]
    rw [parseFrom, if_neg short, safe_bind]
    refine safe_lift (loadRun_ok _ room) ?_
    rw [text]
    by_cases qualifier : (ac.chars.drop start).take 2 = [0x31, dollar]
    · rw [if_pos qualifier]
      have separator : ∃ c rest, ac.chars.drop start = c :: dollar :: rest :=
        ⟨_, _, by rw [← List.take_append_drop 2 (ac.chars.drop start), qualifier]; rfl⟩
      have behind : parseText (ac.chars.drop start) =
          usable (setItems .empty 0 ((ac.chars.drop (start + 2)).splitOn dollar)) := by
        rw [parseText, if_neg (by rw [length, not_or, not_not]; exact ⟨short, qualifier⟩), List.drop_drop]
      rw [behind]
      exact safe_decodeItems (by omega) separator
    · rw [if_neg qualifier]
      exact ⟨(if_pos (.inr qualifier)).symm, (Multiset.zero_add _).symm⟩

/-- The loop with its pointers and buffers computes what the splitting computes. -/
theorem safe_ipaActivationCodeParse (ac : CString) :
    Safe (ipaActivationCodeParse (some ac)) heap
      (fun result heap' => result.map AcDecoded.values = Proc.ipaActivationCodeParse ac.chars ∧
        heap'.live = owned result + heap.live) stopped := by
  rw [parse_eq]
  by_cases short : ac.chars.length ≤ 4
  · rw [ipaActivationCodeParse, if_pos short]
    have shorter := length_withoutLpa ac.chars
    exact ⟨(if_pos (.inl (Nat.le_trans shorter short))).symm, (Multiset.zero_add _).symm⟩
  · have room : 0 + 4 ≤ ac.memory.length := by
      rw [CString.memory, List.length_append]
      omega
    have head : (ac.memory.drop 0).take 4 = ac.chars.take 4 := by
      rw [CString.memory, List.drop_zero, List.take_append_of_le_length (by omega)]
    rw [ipaActivationCodeParse, if_neg short, safe_bind]
    refine safe_lift (loadRun_ok _ room) ?_
    rw [head, withoutLpa]
    split
    · exact safe_parseFrom (by omega)
    · exact safe_parseFrom (Nat.zero_le _)

end

/-! ## The grammar -/

/-- `1$`, the address, the token and any number of further fields. -/
structure Written (text address token : List UInt8) (fields : List (List UInt8)) : Prop where
  parts : text = 0x31 :: dollar :: (address ++ dollar :: (token ++ fields.flatMap (dollar :: ·)))
  named : address ≠ []
  separate : ∀ field ∈ address :: token :: fields, dollar ∉ field

def present (field : Option (List UInt8)) : Option (List UInt8) := field.filter (· ≠ [])

def activationCode (address token : List UInt8) (fields : List (List UInt8)) : ActivationCode where
  smDpPlusAddress := some address
  acToken := some token
  smDpPlusOid := present fields[0]?
  confirmationCodeRequired := fields[1]?.any (·.head? = some 0x31)
  ciPublicKeyIndicator := present fields[2]?
  deleteNotificationForDeviceChange := present fields[3]?

theorem setItems_surplus (ac : ActivationCode) (itemCount : Nat) (items : List (List UInt8)) :
    setItems ac (itemCount + 6) items = ac := by
  induction items generalizing itemCount with
  | nil => rfl
  | cons item items ih => exact ih (itemCount + 1)

theorem nonempty_eq (item : List UInt8) : nonempty item = present (some item) := by
  by_cases empty : item = [] <;> simp [nonempty, present, Option.filter, empty]

theorem setItems_fields (address token : List UInt8) (fields : List (List UInt8)) :
    setItems .empty 0 (address :: token :: fields) =
      { activationCode address token fields with smDpPlusAddress := nonempty address } := by
  match fields with
  | [] => rfl
  | [oid] => simp [setItems, ActivationCode.setItem, ActivationCode.empty, activationCode, nonempty_eq, present]
  | [oid, flag] =>
      simp [setItems, ActivationCode.setItem, ActivationCode.empty, activationCode, nonempty_eq, present]
  | [oid, flag, indicator] =>
      simp [setItems, ActivationCode.setItem, ActivationCode.empty, activationCode, nonempty_eq, present]
  | oid :: flag :: indicator :: notification :: surplus =>
      have ignored := fun ac => setItems_surplus ac 0 surplus
      simp [setItems, ActivationCode.setItem, ActivationCode.empty, activationCode, nonempty_eq, present, ignored]

theorem intercalate_cons (piece : List UInt8) (pieces : List (List UInt8)) :
    [dollar].intercalate (piece :: pieces) = piece ++ pieces.flatMap (dollar :: ·) := by
  induction pieces generalizing piece with
  | nil => simp
  | cons next pieces ih =>
      rw [List.intercalate_cons_cons, ih]
      simp

theorem separate_splitOn (text : List UInt8) : ∀ piece ∈ text.splitOn dollar, dollar ∉ piece := by
  induction length : text.length using Nat.strong_induction_on generalizing text with
  | _ length ih =>
      rcases splitOn_cases text with ⟨absent, same⟩ | ⟨first, rest, parts, absent, same⟩
      · rw [same]
        simpa using absent
      · rw [same, List.forall_mem_cons]
        refine ⟨absent, ih rest.length ?_ rest rfl⟩
        rw [← length, parts, List.length_append, List.length_cons]
        omega

theorem written_iff {text address token : List UInt8} {fields : List (List UInt8)} :
    Written text address token fields ↔ text.take 2 = [0x31, dollar] ∧ address ≠ [] ∧
      (text.drop 2).splitOn dollar = address :: token :: fields := by
  have joined : [dollar].intercalate (address :: token :: fields) =
      address ++ dollar :: (token ++ fields.flatMap (dollar :: ·)) := by
    rw [intercalate_cons]
    rfl
  constructor
  · rintro ⟨parts, named, separate⟩
    refine ⟨by rw [parts]; rfl, named, ?_⟩
    rw [parts, ← joined]
    exact List.splitOn_intercalate dollar separate (List.cons_ne_nil _ _)
  · rintro ⟨qualifier, named, split⟩
    refine ⟨?_, named, split ▸ separate_splitOn (text.drop 2)⟩
    rw [← joined, ← split, List.intercalate_splitOn]
    calc text = text.take 2 ++ text.drop 2 := (List.take_append_drop 2 text).symm
      _ = 0x31 :: dollar :: text.drop 2 := by rw [qualifier]; rfl

def Accepted (text : List UInt8) : Prop :=
  4 < text.length ∧ ∃ address token fields, Written text address token fields

theorem parseText_written {text address token : List UInt8} {fields : List (List UInt8)} (long : 4 < text.length)
    (written : Written text address token fields) : parseText text = some (activationCode address token fields) := by
  obtain ⟨qualifier, named, split⟩ := written_iff.mp written
  have kept : ¬ (text.length ≤ 4 ∨ text.take 2 ≠ [0x31, dollar]) := by
    rw [not_or, not_not]
    exact ⟨Nat.not_le.mpr long, qualifier⟩
  rw [parseText, if_neg kept, split, setItems_fields, nonempty, if_neg named]
  exact if_neg (by simp [activationCode])

theorem accepted_of_parseText {text : List UInt8} {decoded : ActivationCode} (parsed : parseText text = some decoded) :
    Accepted text := by
  unfold parseText at parsed
  split at parsed
  · cases parsed
  · next kept =>
      rw [not_or, not_not, Nat.not_le] at kept
      refine ⟨kept.1, ?_⟩
      unfold usable at parsed
      split at parsed
      · cases parsed
      · next complete =>
          rw [not_or] at complete
          match split : (text.drop 2).splitOn dollar with
          | [] => exact absurd split (List.splitOn_ne_nil _ _)
          | [address] =>
              rw [split] at complete
              exact absurd rfl complete.2
          | address :: token :: fields =>
              rw [split, setItems_fields] at complete
              refine ⟨address, token, fields, written_iff.mpr ⟨kept.2, ?_, split⟩⟩
              rintro rfl
              exact complete.1 rfl

structure Parses (ac : CString) (heap : Heap) (result : Option AcDecoded) (heap' : Heap) : Prop where
  accepts : result.isSome = true ↔ Accepted (withoutLpa ac.chars)
  members : ∀ acDecoded, result = some acDecoded →
    ∀ address token fields, Written (withoutLpa ac.chars) address token fields →
      acDecoded.values = activationCode address token fields
  owned : heap'.live = owned result + heap.live
  released : ∃ heap'', ipaActivationCodeFree result heap' = .ok ((), heap'') ∧ heap''.live = heap.live
  lpaIgnored : ¬ lpa <+: ac.chars → ∀ prefixed : CString, prefixed.chars = lpa ++ ac.chars →
    ∃ result' heap'', ipaActivationCodeParse (some prefixed) heap = .ok (result', heap'') ∧
      result'.map AcDecoded.values = result.map AcDecoded.values

theorem withoutLpa_prefixed (text : List UInt8) : withoutLpa (lpa ++ text) = text := by
  have behind : (lpa ++ text).drop 4 = text := rfl
  rw [withoutLpa, behind]
  exact if_pos rfl

theorem withoutLpa_bare {text : List UInt8} (bare : ¬ lpa <+: text) : withoutLpa text = text := by
  refine if_neg fun head => bare ?_
  rw [← head]
  exact List.take_prefix 4 text

theorem ipaActivationCodeParse_parses (ac : CString) (heap : Heap) :
    ∃ result heap', ipaActivationCodeParse (some ac) heap = .ok (result, heap') ∧ Parses ac heap result heap' := by
  obtain ⟨result, heap', run, values, held⟩ := (safe_ipaActivationCodeParse ac).returns
  rw [parse_eq] at values
  refine ⟨result, heap', run, ?_, ?_, held, ?_, ?_⟩
  · constructor
    · intro accepted
      obtain ⟨acDecoded, rfl⟩ := Option.isSome_iff_exists.mp accepted
      exact accepted_of_parseText values.symm
    · rintro ⟨long, address, token, fields, written⟩
      rw [parseText_written long written] at values
      rw [← Option.isSome_map, values]
      rfl
  · rintro acDecoded rfl address token fields written
    have accepted := accepted_of_parseText values.symm
    rw [parseText_written accepted.1 written] at values
    exact Option.some_inj.mp values
  · cases result with
    | none => exact ⟨heap', rfl, held.trans (Multiset.zero_add _)⟩
    | some acDecoded =>
        obtain ⟨⟨⟩, heap'', freed, live⟩ := (safe_ipaActivationCodeFree held).returns
        exact ⟨heap'', freed, live⟩
  · intro bare prefixed text
    have safe : Safe _ heap _ fun _ => False := safe_ipaActivationCodeParse prefixed
    obtain ⟨result', heap'', run', values', -⟩ := safe.returns
    rw [parse_eq, text, withoutLpa_prefixed] at values'
    rw [withoutLpa_bare bare] at values
    exact ⟨result', heap'', run', values'.trans values.symm⟩

end Ipad.Proc.AcParse
