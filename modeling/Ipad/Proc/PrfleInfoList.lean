import Ipad.Utils.AsnResponse
import Ipad.EimCfg.Der
import Ipad.Proc.LoadEuiccPkg

/-!
# Conversion of profile information

GetProfilesInfo once more, now with its objects. The SGP.32 response is a copy of the entries of the SGP.22
response, duplicated for the result of the PSMO and released with the SGP.22 response.
-/

namespace Ipad.Proc.PrfleInfoList
open Lib.Objects Ipad.Utils

def incorrectInputValues : Int := 1
def undefinedError : Int := 127

def choiceEncoding {Info : Type} (encoding : Info → Encoding) : ListChoice (List Info) → Encoding
  | .list values => .ofList encoding values
  | .error _ => .encoded
  | .nothing => .refused

/-- asn1c encodes a CHOICE if an alternative is selected, and a list if it can encode all entries. Values with the
same encoding are not told apart. -/
structure ResponseCodec (Info : Type) where
  encoding : Info → Encoding
  der : ListChoice (List Info) → List UInt8
  dec : List UInt8 → Option (ListChoice (List Info))
  dec_der : ∀ choice, choiceEncoding encoding choice = .encoded → dec (der choice) = some choice

def ResponseCodec.enc {Info : Type} (codec : ResponseCodec Info) (choice : ListChoice (List Info)) :
    Except Fault (Option (List UInt8)) :=
  match choiceEncoding codec.encoding choice with
  | .encoded => .ok (some (codec.der choice))
  | .refused => .ok none
  | .aborted => .error .assertion

/-- `struct ipa_es10c_get_prfle_info_res`. -/
structure GetPrfleInfoRes (Info : Type) where
  object : Nat
  res : Option (AsnResponse Info)
  sgp32Res : Option (AsnResponse Info)
  currentlyActivePrfle : Option Nat
  prfleInfoListErr : Int

/-- The result of the PSMO. Where the card has no answer, the response is copied out of a structure that
stays. -/
structure ListProfileInfoResult (Info : Type) where
  object : Nat
  choice : ListChoice (AsnList (AsnEntry Info))
  prfleInfoRes : Option Nat

section
variable {Info : Type}

def convertChoice : ListChoice (AsnList (AsnEntry Info)) → Mem Fault (ListChoice (AsnList (AsnEntry Info)))
  | .list set => do
      accessEach set.array.toList
      let converted ← AsnList.collect copyEntry .empty set.entries
      return .list converted
  -- the code is converted, the selection of the alternative is not reached
  | .error _ => pure .nothing
  | .nothing => pure .nothing

def convertResToSgp32 : Option (AsnResponse Info) → Mem Fault (Option (AsnResponse Info))
  | none => pure none
  | some res => do
      let object ← alloc
      access res.object
      let choice ← convertChoice res.choice
      return some { object, choice }

def freeSgp32Res (sgp32Res : AsnResponse Info) : Mem Fault Unit := do
  access sgp32Res.object
  match sgp32Res.choice with
  | .list set =>
      freeCopies set
      free sgp32Res.object
  | _ => free sgp32Res.object

def ipaEs10cGetPrfleInfoResFree : Option (GetPrfleInfoRes Info) → Mem Fault Unit
  | none => pure ()
  | some { object, res := some res, sgp32Res := some sgp32Res, .. } => do
      freeSgp32Res sgp32Res
      freeEach res.objects
      free object
  | some { object, res := some res, sgp32Res := none, .. } => do
      freeEach res.objects
      free object
  | some { object, res := none, sgp32Res := some sgp32Res, .. } => do
      freeEach sgp32Res.objects
      free object
  | some { object, res := none, sgp32Res := none, .. } => free object

def listErr : ListChoice (AsnList (AsnEntry Info)) → Int
  | .list _ => 0
  | .error code => code
  | .nothing => -1

variable (codec : ResponseCodec Info) (profileState : Info → Option Int) (size : Info → Nat)

def decGetPrfleInfoRes (object : Nat) (answer : ListChoice (List Info)) : Mem Fault (GetPrfleInfoRes Info) := do
  let asn ← decodeAsnResponse size answer
  let sgp32Res ← convertResToSgp32 (some asn)
  return { object, res := some asn, sgp32Res, currentlyActivePrfle := none
           prfleInfoListErr := listErr asn.choice }

/-- The state is behind one of the members. -/
def findActive : List (AsnEntry Info) → Mem Fault (Option Nat)
  | [] => pure none
  | entry :: entries => do
      accessEach entry.objects
      if profileState entry.value = some profileStateEnabled then return some entry.object
      else findActive entries

def findCurrentlyActivePrfle (res : GetPrfleInfoRes Info) : Mem Fault (GetPrfleInfoRes Info) :=
  match res.sgp32Res with
  | none => stop .nullDeref
  | some sgp32Res => do
      access sgp32Res.object
      match sgp32Res.choice with
      | .list set =>
          accessEach set.array.toList
          let currentlyActivePrfle ← findActive profileState set.entries
          return { res with currentlyActivePrfle }
      | _ => return { res with currentlyActivePrfle := none }

/-- `answer` is what the response of the card decodes to, if it does. -/
def ipaEs10cGetPrfleInfo (answer : Option (ListChoice (List Info))) :
    Mem Fault (Option (GetPrfleInfoRes Info)) := do
  let object ← alloc
  match answer with
  | none =>
      let res : GetPrfleInfoRes Info :=
        { object, res := none, sgp32Res := none, currentlyActivePrfle := none, prfleInfoListErr := 0 }
      ipaEs10cGetPrfleInfoResFree (some res)
      return none
  | some answer =>
      let res ← decGetPrfleInfoRes size object answer
      let res ← findCurrentlyActivePrfle profileState res
      return some res

def ipaAsn1cDup : Option (AsnResponse Info) → Mem Fault (Option (AsnResponse Info))
  | none => pure none
  | some res => do
      accessEach res.objects
      match codec.enc res.choice.values with
      | .error f => stop f
      | .ok none => return none
      | .ok (some der) =>
          let bufEncoded ← alloc
          match codec.dec der with
          | none =>
              free bufEncoded
              return none
          | some choice =>
              let dup ← decodeAsnResponse size choice
              free bufEncoded
              return some dup

def iotEmoDoListProfileInfoPsmo (answer : Option (ListChoice (List Info))) :
    Mem Fault (ListProfileInfoResult Info) := do
  let object ← alloc
  match ← ipaEs10cGetPrfleInfo profileState size answer with
  | none =>
      let prfleInfoRes ← alloc
      ipaEs10cGetPrfleInfoResFree (none : Option (GetPrfleInfoRes Info))
      return { object, choice := .error undefinedError, prfleInfoRes := some prfleInfoRes }
  | some res =>
      match ← ipaAsn1cDup codec size res.sgp32Res with
      | none => stop .assertion
      | some dup =>
          -- the alternatives move to the result, the structure around them goes
          free dup.object
          ipaEs10cGetPrfleInfoResFree (some res)
          return { object, choice := dup.choice, prfleInfoRes := none }

/-! ## What the pieces hold -/

def converted : ListChoice (List Info) → ListChoice (List Info)
  | .list values => .list values
  | .error _ => .nothing
  | .nothing => .nothing

variable {heap : Heap} {stopped : Fault → Prop}

theorem safe_convertResToSgp32 (res : AsnResponse Info) {post : Option (AsnResponse Info) → Heap → Prop}
    (readable : ∀ object ∈ res.objects, object ∈ heap.live)
    (next : ∀ (sgp32Res : AsnResponse Info) heap', sgp32Res.choice.values = converted res.choice.values →
      heap'.live = (sgp32Res.shells : Multiset Nat) + heap.live →
      (∀ object ∈ sgp32Res.objects, object ∈ heap'.live) → post (some sgp32Res) heap') :
    Safe (convertResToSgp32 (some res)) heap post stopped := by
  rw [convertResToSgp32, safe_bind]
  refine safe_alloc fun object heap' held => ?_
  have grown : ∀ read ∈ heap.live, read ∈ heap'.live := fun read member => held ▸ Multiset.mem_cons_of_mem member
  rw [safe_bind]
  refine safe_access (grown _ (readable _ (List.mem_cons_self ..))) ?_
  obtain ⟨original, choice⟩ := res
  -- without a list there is only the structure itself
  have alone : ∀ read ∈ [object], read ∈ heap'.live := by
    intro read member
    rw [held, List.mem_singleton.mp member]
    exact Multiset.mem_cons_self ..
  cases choice with
  | error code => exact next _ heap' rfl held alone
  | nothing => exact next _ heap' rfl held alone
  | list set =>
      rw [safe_bind, convertChoice, safe_bind]
      refine safe_accessEach (fun read member => grown _ (readable _ ?_)) ?_
      · exact List.mem_cons_of_mem _ (List.mem_append_left _ member)
      rw [safe_bind]
      have entries : ∀ read ∈ set.entries.flatMap AsnEntry.objects, read ∈ heap.live :=
        fun read member => readable read (List.mem_cons_of_mem _ (List.mem_append_right _ member))
      refine safe_collect_copyEntry set.entries (fun entry member => grown _ (entries _ ?_))
        fun copies last each final => ?_
      · exact List.mem_flatMap.mpr ⟨entry, member, List.mem_cons_self ..⟩
      refine next _ last ?_ ?_ fun read member => ?_
      · exact congrArg ListChoice.list (Copied.values each)
      · rw [final, held, AsnResponse.shells, coe_cons_add, Multiset.add_cons]
      · rw [final, Multiset.mem_add]
        simp only [AsnResponse.objects, ListChoice.objects, List.mem_cons, List.mem_append, List.mem_flatMap]
          at member
        rcases member with rfl | array | ⟨copy, listed, within⟩
        · exact .inr (alone _ (List.mem_singleton_self _))
        · exact .inl (Multiset.mem_coe.mpr (List.mem_append_left _ array))
        · rcases List.mem_cons.mp within with rfl | shared
          · exact .inl (Multiset.mem_coe.mpr (List.mem_append_right _ (List.mem_map_of_mem listed)))
          · have shared' := Copied.flatMap_members each read (List.mem_flatMap.mpr ⟨copy, listed, shared⟩)
            exact .inr (grown _ (entries _ shared'))

theorem safe_freeSgp32Res (sgp32Res : AsnResponse Info) {rest : Multiset Nat} {post : Unit → Heap → Prop}
    (held : heap.live = (sgp32Res.shells : Multiset Nat) + rest) (next : ∀ heap', heap'.live = rest → post () heap') :
    Safe (freeSgp32Res sgp32Res) heap post stopped := by
  have member : sgp32Res.object ∈ heap.live := held_left held (List.mem_cons_self ..)
  rw [freeSgp32Res, safe_bind]
  refine safe_access member ?_
  obtain ⟨object, choice⟩ := sgp32Res
  cases choice with
  | error code => exact safe_free held next
  | nothing => exact safe_free held next
  | list set =>
      simp only
      rw [safe_bind]
      rw [AsnResponse.shells, coe_cons_add, ← Multiset.add_cons] at held
      exact safe_freeCopies set held fun heap' held' => safe_free held' next

theorem safe_findActive (profileState : Info → Option Int) (entries : List (AsnEntry Info))
    {post : Option Nat → Heap → Prop}
    (readable : ∀ object ∈ entries.flatMap AsnEntry.objects, object ∈ heap.live) (next : ∀ found, post found heap) :
    Safe (findActive profileState entries) heap post stopped := by
  induction entries with
  | nil => exact next none
  | cons entry entries ih =>
      rw [List.flatMap_cons, List.forall_mem_append] at readable
      rw [findActive, safe_bind]
      refine safe_accessEach readable.1 ?_
      split
      · exact next _
      · exact ih readable.2

/-- The result with both responses, in the order in which they are released. -/
structure Got (answer : ListChoice (List Info)) (out : GetPrfleInfoRes Info) (asn sgp32 : AsnResponse Info)
    (rest : Multiset Nat) (heap : Heap) : Prop where
  res : out.res = some asn
  sgp32Res : out.sgp32Res = some sgp32
  values : sgp32.choice.values = converted answer
  held : heap.live = (sgp32.shells : Multiset Nat) + (asn.objects + out.object ::ₘ rest)
  readable : ∀ object ∈ sgp32.objects, object ∈ heap.live

theorem safe_ipaEs10cGetPrfleInfo (profileState : Info → Option Int) (size : Info → Nat)
    (answer : Option (ListChoice (List Info))) {post : Option (GetPrfleInfoRes Info) → Heap → Prop}
    (absent : answer = none → ∀ heap', heap'.live = heap.live → post none heap')
    (present : ∀ choice out asn sgp32 heap', answer = some choice → Got choice out asn sgp32 heap.live heap' →
      post (some out) heap') :
    Safe (ipaEs10cGetPrfleInfo profileState size answer) heap post stopped := by
  rw [ipaEs10cGetPrfleInfo, safe_bind]
  refine safe_alloc fun object heap' held => ?_
  cases answer with
  | none =>
      simp only
      rw [safe_bind]
      exact safe_free held fun heap'' released => absent rfl heap'' released
  | some choice =>
      simp only
      rw [safe_bind, decGetPrfleInfoRes, safe_bind]
      refine safe_decodeAsnResponse size choice fun asn heap'' values held' => ?_
      rw [safe_bind]
      refine safe_convertResToSgp32 asn (fun read member => held_left held' member)
        fun sgp32 last same held'' readable => ?_
      rw [values] at same
      rw [held', held] at held''
      have got : ∀ currentlyActivePrfle prfleInfoListErr, Got choice
          ⟨object, some asn, some sgp32, currentlyActivePrfle, prfleInfoListErr⟩ asn sgp32 heap.live last :=
        fun _ _ => ⟨rfl, rfl, same, held'', readable⟩
      rw [safe_pure, safe_bind, findCurrentlyActivePrfle, safe_bind]
      refine safe_access (readable _ (List.mem_cons_self ..)) ?_
      obtain ⟨shell, alternatives⟩ := sgp32
      cases alternatives with
      | error code => exact present choice _ asn _ last rfl (got _ _)
      | nothing => exact present choice _ asn _ last rfl (got _ _)
      | list set =>
          simp only
          rw [safe_bind]
          refine safe_accessEach (fun read member => readable _ ?_) ?_
          · exact List.mem_cons_of_mem _ (List.mem_append_left _ member)
          rw [safe_bind]
          refine safe_findActive profileState set.entries (fun read member => readable _ ?_) fun found => ?_
          · exact List.mem_cons_of_mem _ (List.mem_append_right _ member)
          exact present choice _ asn _ last rfl (got _ _)

theorem safe_ipaEs10cGetPrfleInfoResFree {answer : ListChoice (List Info)} {out : GetPrfleInfoRes Info}
    {asn sgp32 : AsnResponse Info} {rest : Multiset Nat} {post : Unit → Heap → Prop}
    (got : Got answer out asn sgp32 rest heap) (next : ∀ heap', heap'.live = rest → post () heap') :
    Safe (ipaEs10cGetPrfleInfoResFree (some out)) heap post stopped := by
  obtain ⟨res, sgp32Res, -, held, -⟩ := got
  obtain ⟨object, _, _, _, _⟩ := out
  cases res
  cases sgp32Res
  rw [ipaEs10cGetPrfleInfoResFree, safe_bind]
  refine safe_freeSgp32Res sgp32 held fun heap' held' => ?_
  rw [safe_bind]
  exact safe_freeEach held' fun heap'' held'' => safe_free held'' next

theorem safe_ipaAsn1cDup (codec : ResponseCodec Info) (size : Info → Nat) (res : AsnResponse Info)
    {post : Option (AsnResponse Info) → Heap → Prop} (readable : ∀ object ∈ res.objects, object ∈ heap.live)
    (encodable : choiceEncoding codec.encoding res.choice.values = .encoded)
    (next : ∀ (dup : AsnResponse Info) heap', dup.choice.values = res.choice.values →
      heap'.live = (dup.objects : Multiset Nat) + heap.live → post (some dup) heap') :
    Safe (ipaAsn1cDup codec size (some res)) heap post stopped := by
  have encoded : codec.enc res.choice.values = .ok (some (codec.der res.choice.values)) := by
    rw [ResponseCodec.enc, encodable]
  have decoded := codec.dec_der _ encodable
  rw [ipaAsn1cDup, safe_bind]
  refine safe_accessEach readable ?_
  simp only [encoded]
  rw [safe_bind]
  refine safe_alloc fun bufEncoded heap' held => ?_
  simp only [decoded]
  rw [safe_bind]
  refine safe_decodeAsnResponse size _ fun dup heap'' values held' => ?_
  rw [safe_bind]
  rw [held, Multiset.add_cons] at held'
  exact safe_free held' fun last released => next dup last values released

/-! ## The conversion as a whole -/

variable (codec : ResponseCodec Info) (profileState : Info → Option Int) (size : Info → Nat)

def sgp32Error (code : Int) : Int := if code = incorrectInputValues then incorrectInputValues else undefinedError

/-- The SGP.32 response for an SGP.22 response. -/
structure Conversion (answer sgp32 : ListChoice (List Info)) : Prop where
  list : ∀ values, answer = .list values → sgp32 = .list values
  error : ∀ code, answer = .error code → sgp32 = .error (sgp32Error code)
  encodable : choiceEncoding codec.encoding sgp32 = .encoded

def ListProfileInfoResult.objects (out : ListProfileInfoResult Info) : List Nat :=
  out.object :: (out.prfleInfoRes.toList ++ out.choice.objects)

/-- What is expected for one answer of the card, or none that decodes. -/
structure Converts (answer : Option (ListChoice (List Info))) (heap : Heap) : Prop where
  got : Safe (ipaEs10cGetPrfleInfo profileState size answer) heap (fun out heap' =>
    (∀ choice, answer = some choice → ∃ res sgp32, out = some res ∧ res.sgp32Res = some sgp32 ∧
        Conversion codec choice sgp32.choice.values) ∧
      Safe (ipaEs10cGetPrfleInfoResFree out) heap' (fun _ last => last.live = heap.live) fun _ => False)
    fun _ => False
  listed : Safe (iotEmoDoListProfileInfoPsmo codec profileState size answer) heap (fun out heap' =>
    (answer = none → out.choice = .error undefinedError) ∧
      (∀ choice, answer = some choice → Conversion codec choice out.choice.values) ∧
      heap'.live = (out.objects : Multiset Nat) + heap.live) fun _ => False

variable {codec} in
theorem conversion_list {values : List Info} (encodable : ∀ info ∈ values, codec.encoding info = .encoded) :
    Conversion codec (.list values) (.list values) where
  list _ same := same
  error _ same := nomatch same
  encodable := (Encoding.ofList_eq_encoded _ _).mpr encodable

theorem converts_none (heap : Heap) : Converts codec profileState size none heap where
  got := by
    refine safe_ipaEs10cGetPrfleInfo profileState size none (fun _ heap' same => ?_) fun _ _ _ _ _ present => ?_
    · exact ⟨nofun, same⟩
    · cases present
  listed := by
    rw [iotEmoDoListProfileInfoPsmo, safe_bind]
    refine safe_alloc fun object before held => ?_
    rw [safe_bind]
    refine safe_ipaEs10cGetPrfleInfo profileState size none (fun _ heap' same => ?_) fun _ _ _ _ _ present => ?_
    · simp only
      rw [safe_bind]
      refine safe_alloc fun prfleInfoRes last held' => ⟨fun _ => rfl, nofun, ?_⟩
      rw [held', same, held, Multiset.cons_swap, ListProfileInfoResult.objects, coe_cons_add]
      rfl
    · cases present

variable {codec} in
theorem converts_list {values : List Info} (encodable : ∀ info ∈ values, codec.encoding info = .encoded)
    (heap : Heap) : Converts codec profileState size (some (.list values)) heap where
  got := by
    refine safe_ipaEs10cGetPrfleInfo profileState size _ (fun absent => nomatch absent)
      fun choice out asn sgp32 heap' same got => ⟨fun other same' => ?_, ?_⟩
    · cases same
      cases same'
      refine ⟨out, sgp32, rfl, got.sgp32Res, ?_⟩
      rw [got.values]
      exact conversion_list encodable
    · exact safe_ipaEs10cGetPrfleInfoResFree got fun _ released => released
  listed := by
    rw [iotEmoDoListProfileInfoPsmo, safe_bind]
    refine safe_alloc fun object before held => ?_
    rw [safe_bind]
    refine safe_ipaEs10cGetPrfleInfo profileState size _ (fun absent => nomatch absent)
      fun choice out asn sgp32 heap' same got => ?_
    cases same
    have values' : sgp32.choice.values = .list values := got.values
    simp only [got.sgp32Res]
    rw [safe_bind]
    refine safe_ipaAsn1cDup codec size sgp32 got.readable
      (by rw [values']; exact (conversion_list encodable).encodable) fun dup heap'' same held' => ?_
    simp only
    rw [safe_bind]
    rw [AsnResponse.objects, coe_cons_add] at held'
    refine safe_free held' fun heap''' held'' => ?_
    have still : Got (.list values) out asn sgp32 (dup.choice.objects + before.live) heap''' := by
      refine ⟨got.res, got.sgp32Res, got.values, ?_, fun read member => ?_⟩
      · rw [held'', got.held, Multiset.add_cons, Multiset.add_cons]
        simp only [← Multiset.singleton_add]
        ac_rfl
      · exact held_right held'' (got.readable read member)
    rw [safe_bind]
    refine safe_ipaEs10cGetPrfleInfoResFree still fun last released => ⟨nofun, fun other same' => ?_, ?_⟩
    · cases same'
      rw [show dup.choice.values = .list values from same.trans values']
      exact conversion_list encodable
    · rw [released, held, Multiset.add_cons, ListProfileInfoResult.objects, coe_cons_add]
      rfl

/-- The response without a selection is not encoded, nor is a list with an entry that cannot be. -/
theorem Converts.isList {codec : ResponseCodec Info} {profileState : Info → Option Int} {size : Info → Nat}
    {choice : ListChoice (List Info)} {heap : Heap} (converts : Converts codec profileState size (some choice) heap) :
    ∃ values, choice = .list values ∧ ∀ info ∈ values, codec.encoding info = .encoded := by
  have passes : Safe (ipaEs10cGetPrfleInfo profileState size (some choice)) heap
      (fun out _ => ∃ res asn sgp32 heap', out = some res ∧ Got choice res asn sgp32 heap.live heap')
      fun _ => False := by
    refine safe_ipaEs10cGetPrfleInfo profileState size _ (fun absent => nomatch absent)
      fun choice out asn sgp32 heap' same got => ?_
    cases same
    exact ⟨out, asn, sgp32, heap', rfl, got⟩
  obtain ⟨_, _, ⟨res, asn, sgp32, heap', rfl, got⟩, conversion, -⟩ := passes.meet converts.got
  obtain ⟨_, sgp32', ⟨⟩, same, conversion⟩ := conversion choice rfl
  rw [got.sgp32Res] at same
  cases same
  have encodable := conversion.encodable
  rw [got.values] at encodable
  cases choice with
  | list values => exact ⟨values, rfl, (Encoding.ofList_eq_encoded _ _).mp encodable⟩
  | error code => cases encodable
  | nothing => cases encodable

theorem converts_iff (answer : Option (ListChoice (List Info))) (heap : Heap) :
    Converts codec profileState size answer heap ↔
      answer = none ∨
        ∃ values, answer = some (.list values) ∧ ∀ info ∈ values, codec.encoding info = .encoded := by
  constructor
  · intro converts
    cases answer with
    | none => exact .inl rfl
    | some choice =>
        obtain ⟨values, rfl, encodable⟩ := converts.isList
        exact .inr ⟨values, rfl, encodable⟩
  · rintro (rfl | ⟨values, rfl, encodable⟩)
    · exact converts_none codec profileState size heap
    · exact converts_list profileState size encodable heap

end

/-! ## DER of the response -/

section
open Lib.Tlv Ipad.EimCfg

/-- The response without its objects. -/
def plain : ListChoice (List ProfileInfo) → ProfileInfoListResponse
  | .list list => .profileInfoListOk list
  | .error code => .profileInfoListError code
  | .nothing => .nothing

theorem convertResToSgp32_plain (answer : ListChoice (List ProfileInfo)) :
    Proc.convertResToSgp32 (plain answer) = plain (converted answer) := by
  cases answer <;> rfl

def prfleInfoElements (info : ProfileInfo) : List (List UInt8 × List UInt8) :=
  optional [0x5A] info.iccid ++ optional [0x9F, 0x70] (info.profileState.map derInteger)

def derPrfleInfo (info : ProfileInfo) : List UInt8 :=
  (prfleInfoElements info).flatMap fun element => tlv element.1 element.2

def readPrfleInfo (bytes : List UInt8) : Option ProfileInfo :=
  (readTlvs bytes).map fun elements =>
    { iccid := elements.lookup [0x5A], profileState := (elements.lookup [0x9F, 0x70]).map readInteger }

theorem readPrfleInfo_derPrfleInfo (info : ProfileInfo) (buffered : info.buffered = true) :
    readPrfleInfo (derPrfleInfo info) = some info := by
  have known : ∀ element ∈ prfleInfoElements info, ShortTag element.1 := by
    rw [prfleInfoElements, List.forall_mem_append]
    exact ⟨known_optional [0x5A] (.one _ (by decide)) _, known_optional [0x9F, 0x70] (.two _ _ (by decide)) _⟩
  rw [readPrfleInfo, derPrfleInfo, readTlvs_flatMap _ known]
  obtain ⟨iccid, profileState, _⟩ := info
  cases buffered
  simp [prfleInfoElements, List.lookup_append, lookup_optional, Function.comp_def, readInteger_derInteger]

theorem mapM_readPrfleInfo (list : List ProfileInfo) (buffered : ∀ info ∈ list, info.buffered = true) :
    (list.map fun info => (([0xE3] : List UInt8), derPrfleInfo info)).mapM (fun element => readPrfleInfo element.2) =
      some list := by
  induction list with
  | nil => rfl
  | cons info list ih =>
      rw [List.forall_mem_cons] at buffered
      simp [readPrfleInfo_derPrfleInfo info buffered.1, ih buffered.2]

def derPrfleInfoList : ListChoice (List ProfileInfo) → List UInt8
  | .list list => tlv [0xBF, 0x2D] (tlv [0xA0] ((list.map fun info => ([0xE3], derPrfleInfo info)).flatMap
      fun element : List UInt8 × List UInt8 => tlv element.1 element.2))
  | .error code => tlv [0xBF, 0x2D] (tlv [0x81] (derInteger code))
  | .nothing => []

def readPrfleInfoList (bytes : List UInt8) : Option (ListChoice (List ProfileInfo)) :=
  match readTlv bytes with
  | none => none
  | some (_, content, _) =>
      match readTlv content with
      | none => none
      | some (tag, content, _) =>
          if tag = [0x81] then some (.error (readInteger content))
          else (readTlvs content).bind fun elements =>
            (elements.mapM fun element => readPrfleInfo element.2).map .list

def prfleInfoEncoding (info : ProfileInfo) : Encoding := .ofBuffered info.buffered

theorem readPrfleInfoList_derPrfleInfoList (choice : ListChoice (List ProfileInfo))
    (encodable : choiceEncoding prfleInfoEncoding choice = .encoded) :
    readPrfleInfoList (derPrfleInfoList choice) = some choice := by
  have outer : ∀ content, readTlv (tlv [0xBF, 0x2D] content) = some ([0xBF, 0x2D], content, []) := by
    intro content
    have read := readTlv_tlv [0xBF, 0x2D] content [] (.two _ _ (by decide))
    rwa [List.append_nil] at read
  have inner : ∀ (tag : UInt8) content, tag &&& 0x1f ≠ 0x1f →
      readTlv (tlv [tag] content) = some ([tag], content, []) := by
    intro tag content low
    have read := readTlv_tlv [tag] content [] (.one tag low)
    rwa [List.append_nil] at read
  cases choice with
  | nothing => cases encodable
  | error code =>
      simp only [readPrfleInfoList, derPrfleInfoList, outer, inner 0x81 _ (by decide), if_true,
        readInteger_derInteger]
  | list list =>
      have buffered : ∀ info ∈ list, info.buffered = true := by
        simpa [choiceEncoding, prfleInfoEncoding] using encodable
      have entries := readTlvs_flatMap (list.map fun info => ([0xE3], derPrfleInfo info)) (by
        intro element member
        obtain ⟨info, -, rfl⟩ := List.mem_map.mp member
        exact .one _ (by decide))
      have apart : ¬ ([0xA0] : List UInt8) = [0x81] := by decide
      simp only [readPrfleInfoList, derPrfleInfoList, outer, inner 0xA0 _ (by decide), apart, if_false, entries,
        Option.bind_some, mapM_readPrfleInfo list buffered, Option.map_some]

def derResponseCodec : ResponseCodec ProfileInfo where
  encoding := prfleInfoEncoding
  der := derPrfleInfoList
  dec := readPrfleInfoList
  dec_der := readPrfleInfoList_derPrfleInfoList

/-- Both members point to a structure, that of the ICCID to its bytes. -/
def prfleInfoSize (info : ProfileInfo) : Nat :=
  (if info.iccid.isSome then 2 else 0) + if info.profileState.isSome then 1 else 0

theorem not_converts_error :
    ¬ Converts derResponseCodec ProfileInfo.profileState prfleInfoSize (some (.error incorrectInputValues))
      .empty := by
  intro converts
  obtain ⟨values, same, -⟩ := converts.isList
  cases same

end

end Ipad.Proc.PrfleInfoList
