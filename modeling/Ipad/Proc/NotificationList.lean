import Ipad.Utils.AsnResponse
import Ipad.Proc.DwnldExec

/-!
# Conversion of notification lists

RetrieveNotificationsList of the emulation once more, with its objects. The SGP.32 list holds copies of the
entries of the SGP.22 list, and its release does not look at the alternative.
-/

namespace Ipad.Proc.NotificationList
open Lib.Objects Ipad.Utils

/-- The member of an absent structure is read, or an alternative that is not selected. -/
inductive Misuse where
  | absent
  | unselected

/-- `struct ipa_es10b_retr_notif_from_lst_res`. -/
structure RetrNotifFromLstRes (Notif : Type) where
  object : Nat
  res : Option (AsnResponse Notif)
  sgp32Res : Option (AsnResponse Notif)
  notifLstResultErr : Int

section
variable {Notif : Type} (isEmpty : Notif → Bool) (size : Notif → Nat)

def convertNotificationList (lstOut : AsnList (AsnEntry Notif)) :
    List (AsnEntry Notif) → Mem Misuse (AsnList (AsnEntry Notif))
  | [] => pure lstOut
  | entry :: entries => do
      access entry.object
      if isEmpty entry.value then convertNotificationList lstOut entries
      else
        let object ← alloc
        let lstOut ← asnSetAdd lstOut { entry with object }
        convertNotificationList lstOut entries

def freeConvertedNotificationList : Option (AsnResponse Notif) → Mem Misuse Unit
  -- the address of the member of no structure is not the null pointer
  | none => stop .absent
  | some { object, choice := .list set } => do
      access object
      freeCopies set
  -- an error code lies where a list has its array
  | some _ => stop .unselected

def ipaEs10bRetrNotifFromLstResFree : Option (RetrNotifFromLstRes Notif) → Mem Misuse Unit
  | none => pure ()
  | some { object, res := some res, sgp32Res, .. } => do
      freeConvertedNotificationList sgp32Res
      freeOpt (sgp32Res.map AsnResponse.object)
      freeEach res.objects
      free object
  | some { object, res := none, sgp32Res := some sgp32Res, .. } => do
      freeEach sgp32Res.objects
      free object
  | some { object, res := none, sgp32Res := none, .. } => free object

def decRetrNotifFromLstRes (object : Nat) (answer : ListChoice (List Notif)) :
    Mem Misuse (RetrNotifFromLstRes Notif) := do
  let asn ← decodeAsnResponse size answer
  access asn.object
  match asn.choice with
  | .list set =>
      let sgp32 ← alloc
      accessEach set.array.toList
      let lstOut ← convertNotificationList isEmpty .empty set.entries
      return { object, res := some asn, sgp32Res := some ⟨sgp32, .list lstOut⟩, notifLstResultErr := 0 }
  | .error code =>
      let sgp32 ← alloc
      return { object, res := some asn, sgp32Res := some ⟨sgp32, .error code⟩, notifLstResultErr := code }
  | .nothing => return { object, res := some asn, sgp32Res := none, notifLstResultErr := -1 }

/-- `answer` is what the response of the card decodes to, if it does. -/
def ipaEs10bRetrNotifFromLst (answer : Option (ListChoice (List Notif))) :
    Mem Misuse (Option (RetrNotifFromLstRes Notif)) := do
  let object ← alloc
  match answer with
  | none =>
      let res : RetrNotifFromLstRes Notif := { object, res := none, sgp32Res := none, notifLstResultErr := 0 }
      ipaEs10bRetrNotifFromLstResFree (some res)
      return none
  | some answer =>
      let res ← decRetrNotifFromLstRes isEmpty size object answer
      return some res

/-! ## What the pieces hold -/

variable {heap : Heap} {stopped : Misuse → Prop}

theorem safe_convertNotificationList (entries : List (AsnEntry Notif)) (lstOut : AsnList (AsnEntry Notif))
    {rest : Multiset Nat} {post : AsnList (AsnEntry Notif) → Heap → Prop}
    (held : heap.live = (lstOut.array.toList : Multiset Nat) + rest)
    (readable : ∀ entry ∈ entries, entry.object ∈ rest)
    (next : ∀ (lstOut' : AsnList (AsnEntry Notif)) copies heap', lstOut'.entries = lstOut.entries ++ copies →
      copies.map AsnEntry.value = (entries.map AsnEntry.value).filter (fun value => !isEmpty value) →
      heap'.live = (lstOut'.array.toList : Multiset Nat) + ((copies.map AsnEntry.object : List Nat) + rest) →
      post lstOut' heap') :
    Safe (convertNotificationList isEmpty lstOut entries) heap post stopped := by
  induction entries generalizing lstOut heap rest with
  | nil => exact next lstOut [] heap (List.append_nil _).symm rfl (held.trans (congrArg _ (zero_add rest).symm))
  | cons entry entries ih =>
      rw [List.forall_mem_cons] at readable
      rw [convertNotificationList, safe_bind]
      refine safe_access (held_right held readable.1) ?_
      cases empty : isEmpty entry.value with
      | true =>
          refine ih lstOut held readable.2 fun lstOut' copies heap' all values final => ?_
          exact next lstOut' copies heap' all (by simp [values, empty]) final
      | false =>
          simp only [Bool.false_eq_true, if_false]
          rw [safe_bind]
          refine safe_alloc fun object heap' held' => ?_
          rw [safe_bind]
          rw [held, ← Multiset.add_cons] at held'
          refine safe_asnSetAdd lstOut _ held' fun set heap'' added held'' => ?_
          refine ih set held'' (fun other member => Multiset.mem_cons_of_mem (readable.2 other member))
            fun lstOut' copies last all values final => ?_
          refine next lstOut' ({ entry with object } :: copies) last ?_ (by simp [values, empty]) ?_
          · rw [all, added, List.append_assoc, List.singleton_append]
          · rw [final, List.map_cons, coe_cons_add, Multiset.add_cons]

def convertedChoice : ListChoice (List Notif) → Option (ListChoice (List Notif))
  | .list values => some (.list (values.filter fun value => !isEmpty value))
  | .error code => some (.error code)
  | .nothing => none

def sgp32Shells (sgp32Res : Option (AsnResponse Notif)) : List Nat := (sgp32Res.map AsnResponse.shells).getD []

/-- The result with both responses, in the order in which they are released. -/
structure Got (answer : ListChoice (List Notif)) (out : RetrNotifFromLstRes Notif) (asn : AsnResponse Notif)
    (rest : Multiset Nat) (heap : Heap) : Prop where
  res : out.res = some asn
  converted : out.sgp32Res.map (fun sgp32 => sgp32.choice.values) = convertedChoice isEmpty answer
  held : heap.live = (sgp32Shells out.sgp32Res : Multiset Nat) + (asn.objects + out.object ::ₘ rest)

theorem safe_ipaEs10bRetrNotifFromLst (answer : ListChoice (List Notif))
    {post : Option (RetrNotifFromLstRes Notif) → Heap → Prop}
    (next : ∀ out asn heap', Got isEmpty answer out asn heap.live heap' → post (some out) heap') :
    Safe (ipaEs10bRetrNotifFromLst isEmpty size (some answer)) heap post stopped := by
  rw [ipaEs10bRetrNotifFromLst, safe_bind]
  refine safe_alloc fun object heap1 held1 => ?_
  simp only
  rw [safe_bind, decRetrNotifFromLstRes, safe_bind]
  refine safe_decodeAsnResponse size answer fun asn heap2 values held2 => ?_
  have inAsn : ∀ read ∈ asn.objects, read ∈ heap2.live := fun read member => held_left held2 member
  rw [safe_bind]
  refine safe_access (inAsn _ (List.mem_cons_self ..)) ?_
  obtain ⟨shell, choice⟩ := asn
  have same : answer = choice.values := values.symm
  cases choice with
  | nothing =>
      refine next _ _ heap2 ⟨rfl, by rw [same]; rfl, ?_⟩
      rw [held2, held1]
      exact (zero_add _).symm
  | error code =>
      simp only
      rw [safe_bind]
      refine safe_alloc fun sgp32 heap3 held3 => next _ _ heap3 ⟨rfl, by rw [same]; rfl, ?_⟩
      rw [held3, held2, held1, sgp32Shells, Option.map_some, Option.getD_some, AsnResponse.shells, coe_cons_add]
      exact congrArg _ (zero_add _).symm
  | list set =>
      simp only
      rw [safe_bind]
      refine safe_alloc fun sgp32 heap3 held3 => ?_
      have grown : ∀ read ∈ heap2.live, read ∈ heap3.live :=
        fun read member => held3 ▸ Multiset.mem_cons_of_mem member
      rw [safe_bind]
      refine safe_accessEach (fun read member => grown _ (inAsn _ ?_)) ?_
      · exact List.mem_cons_of_mem _ (List.mem_append_left _ member)
      rw [safe_bind]
      refine safe_convertNotificationList isEmpty set.entries .empty (held3.trans (zero_add _).symm)
        (fun entry member => ?_) fun lstOut copies heap4 all kept held4 => ?_
      · refine Multiset.mem_cons_of_mem (inAsn _ (List.mem_cons_of_mem _ (List.mem_append_right _ ?_)))
        exact List.mem_flatMap.mpr ⟨entry, member, List.mem_cons_self ..⟩
      have all' : lstOut.entries = copies := all
      refine next _ _ heap4 ⟨rfl, ?_, ?_⟩
      · rw [same]
        show some (ListChoice.list (lstOut.entries.map AsnEntry.value)) = _
        rw [all', kept]
        rfl
      · rw [held4, held2, held1, sgp32Shells, Option.map_some, Option.getD_some, AsnResponse.shells,
          ListChoice.shells, all', coe_cons_add, ← Multiset.coe_add]
        simp only [← Multiset.singleton_add]
        ac_rfl

theorem safe_ipaEs10bRetrNotifFromLstResFree {values : List Notif} {out : RetrNotifFromLstRes Notif}
    {asn : AsnResponse Notif} {rest : Multiset Nat} {post : Unit → Heap → Prop}
    (got : Got isEmpty (.list values) out asn rest heap) (next : ∀ heap', heap'.live = rest → post () heap') :
    Safe (ipaEs10bRetrNotifFromLstResFree (some out)) heap post stopped := by
  obtain ⟨object, res, sgp32Res, notifLstResultErr⟩ := out
  obtain ⟨res, converted, held⟩ := got
  cases res
  cases sgp32Res with
  | none => cases converted
  | some sgp32 =>
      obtain ⟨shell, choice⟩ := sgp32
      cases choice with
      | error code => cases converted
      | nothing => cases converted
      | list set =>
          rw [sgp32Shells, Option.map_some, Option.getD_some, AsnResponse.shells, coe_cons_add] at held
          rw [ipaEs10bRetrNotifFromLstResFree, safe_bind, freeConvertedNotificationList, safe_bind]
          refine safe_access (held ▸ Multiset.mem_cons_self ..) ?_
          rw [← Multiset.add_cons] at held
          refine safe_freeCopies set held fun heap' held' => ?_
          rw [safe_bind]
          refine safe_free held' fun heap'' held'' => ?_
          rw [safe_bind]
          exact safe_freeEach held'' fun last held''' => safe_free held''' next

/-- The release takes every other response for a list. -/
theorem not_safe_ipaEs10bRetrNotifFromLstResFree {answer : ListChoice (List Notif)} {out : RetrNotifFromLstRes Notif}
    {asn : AsnResponse Notif} {rest : Multiset Nat} {post : Unit → Heap → Prop}
    (got : Got isEmpty answer out asn rest heap) (other : ∀ values, answer ≠ .list values) :
    ¬ Safe (ipaEs10bRetrNotifFromLstResFree (some out)) heap post fun _ => False := by
  obtain ⟨object, res, sgp32Res, notifLstResultErr⟩ := out
  obtain ⟨res, converted, held⟩ := got
  cases res
  intro safe
  rw [ipaEs10bRetrNotifFromLstResFree, safe_bind] at safe
  cases answer with
  | list values => exact other values rfl
  | nothing =>
      cases sgp32Res with
      | none => exact safe
      | some sgp32 => cases converted
  | error code =>
      cases sgp32Res with
      | none => cases converted
      | some sgp32 =>
          obtain ⟨shell, choice⟩ := sgp32
          cases choice with
          | list set => cases converted
          | error code => exact safe
          | nothing => exact safe

/-! ## The conversion as a whole -/

/-- The SGP.32 response for a decoded response, of which there is none without a known alternative. -/
structure Conversion (answer : ListChoice (List Notif)) (sgp32Res : Option (ListChoice (List Notif))) : Prop where
  list : ∀ values, answer = .list values → sgp32Res = some (.list (values.filter fun value => !isEmpty value))
  error : ∀ code, answer = .error code → sgp32Res = some (.error code)

/-- Decoding, conversion and release of a response. -/
structure Releases (answer : ListChoice (List Notif)) (heap : Heap) : Prop where
  safe : Safe (ipaEs10bRetrNotifFromLst isEmpty size (some answer)) heap (fun out heap' =>
      (∃ res, out = some res ∧ Conversion isEmpty answer (res.sgp32Res.map fun sgp32 => sgp32.choice.values)) ∧
        Safe (ipaEs10bRetrNotifFromLstResFree out) heap' (fun _ last => last.live = heap.live) fun _ => False)
    fun _ => False

theorem conversion_convertedChoice (answer : ListChoice (List Notif)) :
    Conversion isEmpty answer (convertedChoice isEmpty answer) where
  list values same := by rw [same]; rfl
  error code same := by rw [same]; rfl

theorem Releases.isList {answer : ListChoice (List Notif)} (releases : Releases isEmpty size answer heap) :
    ∃ values, answer = .list values := by
  by_contra other
  have passes : Safe (ipaEs10bRetrNotifFromLst isEmpty size (some answer)) heap
      (fun out heap' => ∃ res asn, out = some res ∧ Got isEmpty answer res asn heap.live heap') fun _ => False :=
    safe_ipaEs10bRetrNotifFromLst isEmpty size answer fun out asn heap' got => ⟨out, asn, rfl, got⟩
  obtain ⟨_, heap', ⟨res, asn, rfl, got⟩, -, safe⟩ := passes.meet releases.safe
  exact not_safe_ipaEs10bRetrNotifFromLstResFree isEmpty got (fun values same => other ⟨values, same⟩) safe

theorem releases_iff (answer : ListChoice (List Notif)) (heap : Heap) :
    Releases isEmpty size answer heap ↔ ∃ values, answer = .list values := by
  constructor
  · exact fun releases => releases.isList
  · rintro ⟨values, rfl⟩
    refine ⟨safe_ipaEs10bRetrNotifFromLst isEmpty size _ fun out asn heap' got => ⟨⟨out, rfl, ?_⟩, ?_⟩⟩
    · rw [got.converted]
      exact conversion_convertedChoice isEmpty _
    · exact safe_ipaEs10bRetrNotifFromLstResFree isEmpty got fun _ released => released

end

/-! ## The notifications of the eUICC -/

/-- The response without its objects. -/
def plain : ListChoice (List PendingNotification) → NotificationsListResponse
  | .list list => .notificationList list
  | .error code => .notificationsListResultError code
  | .nothing => .nothing

theorem decRetrNotifFromLstRes_plain (answer : ListChoice (List PendingNotification)) :
    (Proc.decRetrNotifFromLstRes (plain answer)).sgp32Res =
      (convertedChoice PendingNotification.isEmpty answer).map plain := by
  cases answer <;> rfl

theorem not_releases_error :
    ¬ Releases PendingNotification.isEmpty (fun _ => 0) (.error 127) .empty := by
  intro releases
  obtain ⟨values, same⟩ := releases.isList
  cases same

end Ipad.Proc.NotificationList
