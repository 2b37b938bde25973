import Ipad.Utils.AsnList
import Ipad.EimCfg.Counter

/-!
# Temporary objects of the emulated eCOs

The eCOs once more, now with the objects they hold: the decoded configuration, the request of the caller,
the list that borrows entries of both, and the copy that updateEim makes of an entry.
-/

namespace Ipad.EimCfg.Temporaries
open Lib.Objects Lib.KeyedList Ipad.Nvstate Ipad.Utils

/-- A decoded `struct EimConfigurationData`. Its members are pointers. -/
structure EimEntry where
  object : Nat
  eimId : Ref (List UInt8)
  eimIdBuffered : Bool
  eimFqdn : Option (Ref OctetString)
  eimIdType : Option (Ref Int)
  counterValue : Option (Ref Int)
  associationToken : Option (Ref Int)
  eimPublicKeyData : Option (Ref KeyData)
  trustedPublicKeyDataTls : Option (Ref KeyData)
  eimSupportedProtocol : Option (Ref BitString)
  euiccCiPKId : Option (Ref OctetString)

def EimEntry.cfg (entry : EimEntry) : EimConfigurationData where
  eimId := entry.eimId.value
  eimIdBuffered := entry.eimIdBuffered
  eimFqdn := entry.eimFqdn.map Ref.value
  eimIdType := entry.eimIdType.map Ref.value
  counterValue := entry.counterValue.map Ref.value
  associationToken := entry.associationToken.map Ref.value
  eimPublicKeyData := entry.eimPublicKeyData.map Ref.value
  trustedPublicKeyDataTls := entry.trustedPublicKeyDataTls.map Ref.value
  eimSupportedProtocol := entry.eimSupportedProtocol.map Ref.value
  euiccCiPKId := entry.euiccCiPKId.map Ref.value

def pointees {α : Type} (member : Option (Ref α)) : List Nat := (member.map Ref.object).toList

def EimEntry.members (entry : EimEntry) : List Nat :=
  entry.eimId.object :: (pointees entry.eimFqdn ++ (pointees entry.eimIdType ++ (pointees entry.counterValue ++
    (pointees entry.associationToken ++ (pointees entry.eimPublicKeyData ++
      (pointees entry.trustedPublicKeyDataTls ++ (pointees entry.eimSupportedProtocol ++
        pointees entry.euiccCiPKId)))))))

def EimEntry.objects (entry : EimEntry) : List Nat := entry.object :: entry.members

abbrev EcoM (α : Type) := Mem Fault α

def newMember {α : Type} : Option α → EcoM (Option (Ref α))
  | none => pure none
  | some value => do
      let member ← Ref.new value
      return some member

def decodeEntry (cfg : EimConfigurationData) : EcoM EimEntry := do
  let object ← alloc
  let eimId ← Ref.new cfg.eimId
  let eimFqdn ← newMember cfg.eimFqdn
  let eimIdType ← newMember cfg.eimIdType
  let counterValue ← newMember cfg.counterValue
  let associationToken ← newMember cfg.associationToken
  let eimPublicKeyData ← newMember cfg.eimPublicKeyData
  let trustedPublicKeyDataTls ← newMember cfg.trustedPublicKeyDataTls
  let eimSupportedProtocol ← newMember cfg.eimSupportedProtocol
  let euiccCiPKId ← newMember cfg.euiccCiPKId
  return { object, eimId, eimIdBuffered := cfg.eimIdBuffered, eimFqdn, eimIdType, counterValue, associationToken,
           eimPublicKeyData, trustedPublicKeyDataTls, eimSupportedProtocol, euiccCiPKId }

/-- `struct ipa_es10b_eim_cfg_data` with the decoded response. -/
structure EimCfgData where
  object : Nat
  res : Nat
  list : AsnList EimEntry

def EimCfgData.objects (data : EimCfgData) : List Nat :=
  data.object :: data.res :: (data.list.array.toList ++ data.list.entries.flatMap EimEntry.objects)

/-- `struct ipa_es10b_add_init_eim_res` with the generated response. -/
structure AddInitEimRes where
  object : Nat
  res : Nat
  list : AsnList (Ref (Option Int))
  value : AddInitialEimResponse

def AddInitEimRes.objects (res : AddInitEimRes) : List Nat :=
  res.object :: res.res :: (res.list.array.toList ++ res.list.entries.map Ref.object)

section
variable (codec : EimCfgCodec) (nv : IpaNvstate)

/-- Without a decoded response there is no result. -/
def ipaEs10bGetEimCfgData : EcoM (Option EimCfgData) := do
  let object ← alloc
  match getEimCfgDataIotEmu codec nv with
  | none =>
      free object
      return none
  | some list =>
      let res ← alloc
      let list ← AsnList.collect decodeEntry .empty list
      return some { object, res, list }

def ipaEs10bGetEimCfgDataFree : Option EimCfgData → EcoM Unit
  | none => pure ()
  | some data => freeEach data.objects

def responseMembers : AddInitialEimResponse → List (Option Int)
  | .addInitialEimOk list => list
  | .addInitialEimError _ => []

/-- The request is read as a whole when it is copied. The buffer of the configuration belongs to the
non-volatile state. -/
def ipaEs10bAddInitEim (req : AsnList EimEntry) : EcoM (IpaNvstate × AddInitEimRes) := do
  let object ← alloc
  accessEach (req.array.toList ++ req.entries.flatMap EimEntry.objects)
  match addInitEimIotEmu codec nv (req.entries.map EimEntry.cfg) with
  | .error f => stop f
  | .ok (nv, value) =>
      let res ← alloc
      let list ← AsnList.collect Ref.new .empty (responseMembers value)
      return (nv, { object, res, list, value })

def ipaEs10bAddInitEimResFree : Option AddInitEimRes → EcoM Unit
  | none => pure ()
  | some res => freeEach res.objects

/-- The common way out. -/
def leave (eimCfgData : Option EimCfgData) (addInitEimRes : Option AddInitEimRes) (list : AsnList EimEntry) :
    EcoM Unit := do
  ipaEs10bGetEimCfgDataFree eimCfgData
  ipaEs10bAddInitEimResFree addInitEimRes
  freeOpt list.array

/-- `IPA_ASN_STR_CMP` of two eimIds. -/
def sameEimId (entry : EimEntry) (object : Nat) (eimId : Ref (List UInt8)) : EcoM Bool := do
  accessEach [entry.object, entry.eimId.object, object, eimId.object]
  return entry.eimId.value = eimId.value

/-! ## addEim -/

/-- Every entry goes into the list before it is compared. -/
def copyEntries (addEimEco : EimEntry) (list : AsnList EimEntry) : List EimEntry → EcoM (AsnList EimEntry × Bool)
  | [] => pure (list, false)
  | entry :: entries => do
      let list ← asnSetAdd list entry
      let same ← sameEimId entry addEimEco.object addEimEco.eimId
      if same then return (list, true) else copyEntries addEimEco list entries

/-- The last member of the list says what became of the entry that was added. -/
def addedResult (res : AddInitEimRes) : EcoM (Option (Ref (Option Int))) := do
  accessEach (res.object :: res.res :: res.list.array.toList)
  match res.list.entries.getLast? with
  | none => stop .outOfBounds
  | some last =>
      access last.object
      return some last

def iotEmoDoAddEimEco (addEimEco : EimEntry) : EcoM (Nat × IpaNvstate × AddEimResult) := do
  let euiccResultData ← alloc
  match ← ipaEs10bGetEimCfgData codec nv with
  | none =>
      leave none none .empty
      return (euiccResultData, nv, .addEimResultCode resultUndefinedError)
  | some data =>
      accessEach (data.object :: data.res :: data.list.array.toList)
      let (list, present) ← copyEntries addEimEco .empty data.list.entries
      if present then
        leave (some data) none list
        return (euiccResultData, nv, .addEimResultCode resultCommandError)
      else
        let list ← asnSetAdd list addEimEco
        let (nv, res) ← ipaEs10bAddInitEim codec nv list
        match res.value with
        | .addInitialEimError _ =>
            leave (some data) (some res) list
            return (euiccResultData, nv, .addEimResultCode resultUndefinedError)
        | .addInitialEimOk _ =>
            let last ← addedResult res
            leave (some data) (some res) list
            match last.bind Ref.value with
            | some token => return (euiccResultData, nv, .associationToken token)
            | none => return (euiccResultData, nv, .addEimResultCode resultOk)

/-! ## deleteEim -/

def copyOthers (eimId : Ref (List UInt8)) (object : Nat) (list : AsnList EimEntry) (eimFound : Bool) :
    List EimEntry → EcoM (AsnList EimEntry × Bool)
  | [] => pure (list, eimFound)
  | entry :: entries => do
      let same ← sameEimId entry object eimId
      if same then copyOthers eimId object list true entries
      else
        let list ← asnSetAdd list entry
        copyOthers eimId object list eimFound entries

/-- `object` is the request, and `eimId` its member. -/
def iotEmoDoDeleteEimEco (object : Nat) (eimId : Ref (List UInt8)) : EcoM (Nat × IpaNvstate × Int) := do
  let euiccResultData ← alloc
  match ← ipaEs10bGetEimCfgData codec nv with
  | none =>
      leave none none .empty
      return (euiccResultData, nv, resultUndefinedError)
  | some data =>
      accessEach (data.object :: data.res :: data.list.array.toList)
      let (list, eimFound) ← copyOthers eimId object .empty false data.list.entries
      if eimFound then
        let (nv, res) ← ipaEs10bAddInitEim codec nv list
        leave (some data) (some res) list
        return (euiccResultData, nv, resultOk)
      else
        leave (some data) none list
        return (euiccResultData, nv, resultEimNotFound)

/-! ## updateEim -/

/-- The comparison of the two pointers. -/
def notBelow (counterValue stored : Option (Ref Int)) : Bool :=
  match counterValue, stored with
  | some counterValue, some stored => stored.object ≤ counterValue.object
  | _, none => true
  | none, some _ => false

/-- The shallow copy at `object` with the members of the request. -/
def EimEntry.updated (updateEimEco entry : EimEntry) (object : Nat) : EimEntry :=
  { entry with
    object
    eimFqdn := updateEimEco.eimFqdn <|> entry.eimFqdn
    eimIdType := updateEimEco.eimIdType <|> entry.eimIdType
    counterValue :=
      if updateEimEco.counterValue.isSome then
        if notBelow updateEimEco.counterValue entry.counterValue then updateEimEco.counterValue
        else if updateEimEco.eimPublicKeyData.isSome then updateEimEco.counterValue
        else entry.counterValue
      else entry.counterValue
    eimPublicKeyData := updateEimEco.eimPublicKeyData <|> entry.eimPublicKeyData
    trustedPublicKeyDataTls := updateEimEco.trustedPublicKeyDataTls <|> entry.trustedPublicKeyDataTls
    eimSupportedProtocol := updateEimEco.eimSupportedProtocol <|> entry.eimSupportedProtocol
    euiccCiPKId := updateEimEco.euiccCiPKId <|> entry.euiccCiPKId }

def copyUpdated (updateEimEco entry : EimEntry) : EcoM EimEntry := do
  let object ← alloc
  accessEach [entry.object, updateEimEco.object]
  return updateEimEco.updated entry object

/-- `updated` is the local that holds the copy; it is assigned where `eimFound` is set. -/
def copyAndUpdate (updateEimEco : EimEntry) (list : AsnList EimEntry) (updated : Option EimEntry) :
    List EimEntry → EcoM (AsnList EimEntry × Option EimEntry)
  | [] => pure (list, updated)
  | entry :: entries => do
      let same ← sameEimId entry updateEimEco.object updateEimEco.eimId
      if same && updated.isNone then
        let copy ← copyUpdated updateEimEco entry
        let list ← asnSetAdd list copy
        copyAndUpdate updateEimEco list (some copy) entries
      else
        let list ← asnSetAdd list entry
        copyAndUpdate updateEimEco list updated entries

/-- The way out of updateEim, on which the copy is released. -/
def leaveUpdate (eimCfgData : Option EimCfgData) (addInitEimRes : Option AddInitEimRes) (list : AsnList EimEntry)
    (updated : Option EimEntry) : EcoM Unit := do
  leave eimCfgData addInitEimRes list
  let copy ← assigned updated
  free copy.object

def iotEmoDoUpdateEimEco (updateEimEco : EimEntry) : EcoM (Nat × IpaNvstate × Int) := do
  let euiccResultData ← alloc
  match ← ipaEs10bGetEimCfgData codec nv with
  | none =>
      leaveUpdate none none .empty none
      return (euiccResultData, nv, resultUndefinedError)
  | some data =>
      accessEach (data.object :: data.res :: data.list.array.toList)
      let (list, updated) ← copyAndUpdate updateEimEco .empty none data.list.entries
      if updated.isSome then
        let (nv, res) ← ipaEs10bAddInitEim codec nv list
        leaveUpdate (some data) (some res) list updated
        return (euiccResultData, nv, resultOk)
      else
        leaveUpdate (some data) none list updated
        return (euiccResultData, nv, resultEimNotFound)

end

/-! ## What the pieces hold -/

theorem map_eq_of_forall₂ {α β : Type} (f : β → α) {values : List α} {entries : List β}
    (each : List.Forall₂ (fun value entry => f entry = value) values entries) : entries.map f = values := by
  induction each with
  | nil => rfl
  | cons same each ih => rw [List.map_cons, same, ih]

section
variable {heap : Heap} {stopped : Fault → Prop}

theorem safe_newMember {α : Type} (value : Option α) {post : Option (Ref α) → Heap → Prop}
    (next : ∀ member heap', member.map Ref.value = value →
      heap'.live = (pointees member : Multiset Nat) + heap.live → post member heap') :
    Safe (newMember value) heap post stopped := by
  cases value with
  | none => exact next none heap rfl (zero_add _).symm
  | some value =>
      rw [newMember, safe_bind]
      refine safe_new value fun object heap' grown => next _ heap' rfl ?_
      rw [grown]
      rfl

theorem safe_decodeEntry (cfg : EimConfigurationData) {post : EimEntry → Heap → Prop}
    (next : ∀ entry heap', entry.cfg = cfg → heap'.live = (entry.objects : Multiset Nat) + heap.live →
      post entry heap') :
    Safe (decodeEntry cfg) heap post stopped := by
  rw [decodeEntry, safe_bind]
  refine safe_alloc fun object _ held => ?_
  rw [safe_bind]
  refine safe_new cfg.eimId fun eimId _ held0 => ?_
  rw [safe_bind]
  refine safe_newMember cfg.eimFqdn fun eimFqdn _ same1 held1 => ?_
  rw [safe_bind]
  refine safe_newMember cfg.eimIdType fun eimIdType _ same2 held2 => ?_
  rw [safe_bind]
  refine safe_newMember cfg.counterValue fun counterValue _ same3 held3 => ?_
  rw [safe_bind]
  refine safe_newMember cfg.associationToken fun associationToken _ same4 held4 => ?_
  rw [safe_bind]
  refine safe_newMember cfg.eimPublicKeyData fun eimPublicKeyData _ same5 held5 => ?_
  rw [safe_bind]
  refine safe_newMember cfg.trustedPublicKeyDataTls fun trustedPublicKeyDataTls _ same6 held6 => ?_
  rw [safe_bind]
  refine safe_newMember cfg.eimSupportedProtocol fun eimSupportedProtocol _ same7 held7 => ?_
  rw [safe_bind]
  refine safe_newMember cfg.euiccCiPKId fun euiccCiPKId last same8 held8 => ?_
  refine next _ last ?_ ?_
  · simp only [EimEntry.cfg, same1, same2, same3, same4, same5, same6, same7, same8]
  · rw [held8, held7, held6, held5, held4, held3, held2, held1, held0, held]
    simp only [EimEntry.objects, EimEntry.members, ← Multiset.cons_coe, ← Multiset.coe_add,
      ← Multiset.singleton_add]
    ac_rfl

variable (codec : EimCfgCodec) (nv : IpaNvstate)

/-- The decoded configuration has its own objects, and the entries that are stored. -/
structure Decoded (data : EimCfgData) (list : List EimConfigurationData) (before after : Heap) : Prop where
  cfgs : data.list.entries.map EimEntry.cfg = list
  held : after.live = (data.objects : Multiset Nat) + before.live

theorem safe_getEimCfgData {post : Option EimCfgData → Heap → Prop}
    (absent : getEimCfgDataIotEmu codec nv = none → ∀ heap', heap'.live = heap.live → post none heap')
    (present : ∀ list data heap', getEimCfgDataIotEmu codec nv = some list → Decoded data list heap heap' →
      post (some data) heap') :
    Safe (ipaEs10bGetEimCfgData codec nv) heap post stopped := by
  rw [ipaEs10bGetEimCfgData, safe_bind]
  refine safe_alloc fun object heap' held => ?_
  cases read : getEimCfgDataIotEmu codec nv with
  | none =>
      simp only
      rw [safe_bind]
      exact safe_free held fun heap'' released => absent read heap'' released
  | some list =>
      simp only
      rw [safe_bind]
      refine safe_alloc fun res heap'' held' => ?_
      rw [safe_bind]
      refine safe_collect decodeEntry (fun cfg entry => entry.cfg = cfg) EimEntry.objects [] list
        (fun cfg _ _ _ _ next => safe_decodeEntry cfg next) .empty (zero_add _).symm
        (fun _ none => absurd none List.not_mem_nil) fun set entries last collected each final => ?_
      have all : set.entries = entries := collected
      refine present list _ last read ⟨?_, ?_⟩
      · rw [all]
        exact map_eq_of_forall₂ EimEntry.cfg each
      · rw [final, held', held, EimCfgData.objects, all]
        simp only [← Multiset.cons_coe, ← Multiset.coe_add, ← Multiset.singleton_add]
        ac_rfl

theorem safe_addInitEim (req : AsnList EimEntry) {post : IpaNvstate × AddInitEimRes → Heap → Prop}
    (readable : ∀ object ∈ req.array.toList ++ req.entries.flatMap EimEntry.objects, object ∈ heap.live)
    (stops : ∀ f, addInitEimIotEmu codec nv (req.entries.map EimEntry.cfg) = .error f → stopped f)
    (next : ∀ nv' res heap', addInitEimIotEmu codec nv (req.entries.map EimEntry.cfg) = .ok (nv', res.value) →
      res.list.entries.map Ref.value = responseMembers res.value →
      heap'.live = (res.objects : Multiset Nat) + heap.live → post (nv', res) heap') :
    Safe (ipaEs10bAddInitEim codec nv req) heap post stopped := by
  rw [ipaEs10bAddInitEim, safe_bind]
  refine safe_alloc fun object heap' held => ?_
  rw [safe_bind]
  refine safe_accessEach (fun object member => ?_) ?_
  · rw [held]
    exact Multiset.mem_cons_of_mem (readable object member)
  · cases added : addInitEimIotEmu codec nv (req.entries.map EimEntry.cfg) with
    | error f => exact stops f added
    | ok out =>
        obtain ⟨nv', value⟩ := out
        simp only
        rw [safe_bind]
        refine safe_alloc fun res heap'' held' => ?_
        rw [safe_bind]
        refine safe_collect Ref.new (fun value entry => entry.value = value) (fun entry => [entry.object]) []
          (responseMembers value) (fun value _ _ _ _ next => safe_new value fun object _ grown => next _ _ rfl grown)
          .empty (zero_add _).symm (fun _ none => absurd none List.not_mem_nil)
          fun set entries last collected each final => ?_
        have all : set.entries = entries := collected
        refine next nv' _ last added ?_ ?_
        · rw [all]
          exact map_eq_of_forall₂ Ref.value each
        · rw [final, held', held, AddInitEimRes.objects, all, List.map_eq_flatMap]
          simp only [← Multiset.cons_coe, ← Multiset.coe_add, ← Multiset.singleton_add]
          ac_rfl

def dataObjects (eimCfgData : Option EimCfgData) : List Nat := (eimCfgData.map EimCfgData.objects).getD []

def resObjects (addInitEimRes : Option AddInitEimRes) : List Nat :=
  (addInitEimRes.map AddInitEimRes.objects).getD []

theorem safe_leave (eimCfgData : Option EimCfgData) (addInitEimRes : Option AddInitEimRes)
    (list : AsnList EimEntry) (rest : Multiset Nat) {post : Unit → Heap → Prop}
    (held : heap.live = (dataObjects eimCfgData : Multiset Nat) + (resObjects addInitEimRes +
      (list.array.toList + rest)))
    (next : ∀ heap', heap'.live = rest → post () heap') :
    Safe (leave eimCfgData addInitEimRes list) heap post stopped := by
  have freeData : ∀ heap' : Heap, heap'.live = (dataObjects eimCfgData : Multiset Nat) + (resObjects addInitEimRes +
      (list.array.toList + rest)) → ∀ post : Unit → Heap → Prop,
      (∀ heap'', heap''.live = (resObjects addInitEimRes : Multiset Nat) + (list.array.toList + rest) →
        post () heap'') → Safe (ipaEs10bGetEimCfgDataFree eimCfgData) heap' post stopped := by
    intro heap' held post next
    cases eimCfgData with
    | none => exact next heap' (held.trans (zero_add _))
    | some data => exact safe_freeEach held next
  have freeRes : ∀ heap' : Heap, heap'.live = (resObjects addInitEimRes : Multiset Nat) +
      (list.array.toList + rest) → ∀ post : Unit → Heap → Prop,
      (∀ heap'', heap''.live = (list.array.toList : Multiset Nat) + rest → post () heap'') →
        Safe (ipaEs10bAddInitEimResFree addInitEimRes) heap' post stopped := by
    intro heap' held post next
    cases addInitEimRes with
    | none => exact next heap' (held.trans (zero_add _))
    | some res => exact safe_freeEach held next
  rw [leave, safe_bind]
  refine freeData heap held _ fun heap' held' => ?_
  rw [safe_bind]
  exact freeRes heap' held' _ fun heap'' held'' => safe_freeOpt held'' next

/-- Without a configuration nothing has been collected. -/
theorem safe_leaveUnread {rest : Multiset Nat} {post : Unit → Heap → Prop} (held : heap.live = rest)
    (next : ∀ heap', heap'.live = rest → post () heap') : Safe (leave none none .empty) heap post stopped :=
  safe_leave none none .empty rest (held.trans ((zero_add _).trans ((zero_add _).trans (zero_add _))).symm) next

theorem safe_leaveUnwritten (data : EimCfgData) (list : AsnList EimEntry) {rest : Multiset Nat}
    {post : Unit → Heap → Prop} (held : heap.live = (list.array.toList : Multiset Nat) + (data.objects + rest))
    (next : ∀ heap', heap'.live = rest → post () heap') : Safe (leave (some data) none list) heap post stopped := by
  refine safe_leave (some data) none list rest ?_ next
  rw [held, add_left_comm]
  exact congrArg _ (zero_add _).symm

theorem safe_leaveWritten (data : EimCfgData) (res : AddInitEimRes) (list : AsnList EimEntry) {rest : Multiset Nat}
    {written : Heap} {post : Unit → Heap → Prop} (held : heap.live = (res.objects : Multiset Nat) + written.live)
    (collected : written.live = (list.array.toList : Multiset Nat) + (data.objects + rest))
    (next : ∀ heap', heap'.live = rest → post () heap') :
    Safe (leave (some data) (some res) list) heap post stopped := by
  refine safe_leave (some data) (some res) list rest ?_ next
  rw [held, collected]
  simp only [dataObjects, resObjects, Option.map_some, Option.getD_some]
  ac_rfl

/-! ## The loops -/

theorem safe_sameEimId (entry : EimEntry) (object : Nat) (eimId : Ref (List UInt8)) {post : Bool → Heap → Prop}
    (entries : ∀ object ∈ entry.objects, object ∈ heap.live) (request : object ∈ heap.live)
    (member : eimId.object ∈ heap.live) (next : post (entry.eimId.value = eimId.value) heap) :
    Safe (sameEimId entry object eimId) heap post stopped := by
  rw [sameEimId, safe_bind]
  refine safe_accessEach ?_ next
  intro read reading
  simp only [List.mem_cons, List.not_mem_nil, or_false] at reading
  rcases reading with rfl | rfl | rfl | rfl
  · exact entries _ (List.mem_cons_self ..)
  · exact entries _ (List.mem_cons_of_mem _ (List.mem_cons_self ..))
  · exact request
  · exact member

section
variable {rest : Multiset Nat}

/-- Entries of the configuration and the request lie beside the list. -/
theorem safe_compare (entry request : EimEntry) {array : List Nat} {post : Bool → Heap → Prop}
    (held : heap.live = (array : Multiset Nat) + rest) (borrowed : ∀ object ∈ entry.objects, object ∈ rest)
    (requested : ∀ object ∈ request.objects, object ∈ rest)
    (next : post (entry.eimId.value = request.eimId.value) heap) :
    Safe (sameEimId entry request.object request.eimId) heap post stopped := by
  have inRest : ∀ object ∈ rest, object ∈ heap.live :=
    fun object member => held_right held member
  have object : request.object ∈ request.objects := List.mem_cons_self ..
  have eimId : request.eimId.object ∈ request.objects := List.mem_cons_of_mem _ (List.mem_cons_self ..)
  exact safe_sameEimId entry _ _ (fun object member => inRest object (borrowed object member))
    (inRest _ (requested _ object)) (inRest _ (requested _ eimId)) next

theorem safe_copyEntries (addEimEco : EimEntry) (entries : List EimEntry) (list : AsnList EimEntry)
    {post : AsnList EimEntry × Bool → Heap → Prop}
    (held : heap.live = (list.array.toList : Multiset Nat) + rest)
    (borrowed : ∀ entry ∈ entries, ∀ object ∈ entry.objects, object ∈ rest)
    (request : ∀ object ∈ addEimEco.objects, object ∈ rest)
    (next : ∀ list' present heap', heap'.live = (list'.array.toList : Multiset Nat) + rest →
      present = (entries.any fun entry => entry.eimId.value = addEimEco.eimId.value) →
      (present = false → list'.entries = list.entries ++ entries) → post (list', present) heap') :
    Safe (copyEntries addEimEco list entries) heap post stopped := by
  induction entries generalizing list heap with
  | nil => exact next list false heap held rfl fun _ => (List.append_nil _).symm
  | cons entry entries ih =>
      rw [List.forall_mem_cons] at borrowed
      rw [copyEntries, safe_bind]
      refine safe_asnSetAdd list entry held fun set heap' added held' => ?_
      rw [safe_bind]
      refine safe_compare entry addEimEco held' borrowed.1 request ?_
      by_cases same : entry.eimId.value = addEimEco.eimId.value
      · simp only [same, decide_true, if_true]
        exact next set true heap' held' (by simp [same]) fun absent => absurd absent (by decide)
      · simp only [same, decide_false, Bool.false_eq_true, if_false]
        refine ih set held' borrowed.2 fun list' present heap'' held'' found all => ?_
        refine next list' present heap'' held'' (by simp [same, found]) fun absent => ?_
        rw [all absent, added, List.append_assoc, List.singleton_append]

theorem safe_copyOthers (eimId : Ref (List UInt8)) (object : Nat) (entries : List EimEntry)
    (list : AsnList EimEntry) (eimFound : Bool) {post : AsnList EimEntry × Bool → Heap → Prop}
    (held : heap.live = (list.array.toList : Multiset Nat) + rest)
    (borrowed : ∀ entry ∈ entries, ∀ object ∈ entry.objects, object ∈ rest)
    (request : object ∈ rest) (member : eimId.object ∈ rest)
    (next : ∀ list' found heap', heap'.live = (list'.array.toList : Multiset Nat) + rest →
      found = (eimFound || entries.any fun entry => entry.eimId.value = eimId.value) →
      list'.entries = list.entries ++ entries.filter (fun entry => entry.eimId.value ≠ eimId.value) →
      post (list', found) heap') :
    Safe (copyOthers eimId object list eimFound entries) heap post stopped := by
  induction entries generalizing list eimFound heap with
  | nil => exact next list eimFound heap held (by simp) (by simp)
  | cons entry entries ih =>
      rw [List.forall_mem_cons] at borrowed
      have inRest : ∀ object ∈ rest, object ∈ heap.live :=
        fun object member => held_right held member
      rw [copyOthers, safe_bind]
      refine safe_sameEimId entry object eimId (fun object member => inRest object (borrowed.1 object member))
        (inRest _ request) (inRest _ member) ?_
      by_cases same : entry.eimId.value = eimId.value
      · simp only [same, decide_true, if_true]
        refine ih list true held borrowed.2 fun list' found heap' held' any all => ?_
        exact next list' found heap' held' (by simp [any, same]) (by simp [all, same])
      · simp only [same, decide_false, Bool.false_eq_true, if_false]
        rw [safe_bind]
        refine safe_asnSetAdd list entry held fun set heap' added held' => ?_
        refine ih set eimFound held' borrowed.2 fun list' found heap'' held'' any all => ?_
        refine next list' found heap'' held'' (by simp [any, same]) ?_
        rw [all, added]
        simp [same]

theorem map_value_or {α : Type} (requested stored : Option (Ref α)) :
    (requested <|> stored).map Ref.value = (requested.map Ref.value <|> stored.map Ref.value) := by
  cases requested <;> rfl

theorem cfg_updated (updateEimEco entry : EimEntry) (object : Nat) :
    (updateEimEco.updated entry object).cfg =
      updateEimItem (notBelow updateEimEco.counterValue entry.counterValue) updateEimEco.cfg entry.cfg := by
  have counterValue : (updateEimEco.updated entry object).counterValue.map Ref.value =
      (updateEimItem (notBelow updateEimEco.counterValue entry.counterValue) updateEimEco.cfg
        entry.cfg).counterValue := by
    simp only [EimEntry.updated, updateEimItem, EimEntry.cfg, Option.isSome_map, apply_ite (Option.map Ref.value)]
  have others := congrArg (fun counterValue => { (updateEimEco.updated entry object).cfg with counterValue })
    counterValue
  refine others.trans ?_
  simp only [EimEntry.updated, updateEimItem, EimEntry.cfg, map_value_or]

theorem mem_pointees_or {α : Type} {object : Nat} {requested stored : Option (Ref α)}
    (member : object ∈ pointees (requested <|> stored)) : object ∈ pointees requested ∨ object ∈ pointees stored := by
  cases requested with
  | none => exact .inr member
  | some requested => exact .inl member

theorem objects_updated (updateEimEco entry : EimEntry) (object other : Nat)
    (member : other ∈ (updateEimEco.updated entry object).objects) :
    other = object ∨ other ∈ entry.objects ∨ other ∈ updateEimEco.objects := by
  have counterValue : other ∈ pointees (updateEimEco.updated entry object).counterValue →
      other ∈ pointees updateEimEco.counterValue ∨ other ∈ pointees entry.counterValue := by
    unfold EimEntry.updated
    simp only
    split
    · split
      · exact .inl
      · split
        · exact .inl
        · exact .inr
    · exact .inr
  have eimFqdn := @mem_pointees_or _ other updateEimEco.eimFqdn entry.eimFqdn
  have eimIdType := @mem_pointees_or _ other updateEimEco.eimIdType entry.eimIdType
  have eimPublicKeyData := @mem_pointees_or _ other updateEimEco.eimPublicKeyData entry.eimPublicKeyData
  have trusted := @mem_pointees_or _ other updateEimEco.trustedPublicKeyDataTls entry.trustedPublicKeyDataTls
  have protocol := @mem_pointees_or _ other updateEimEco.eimSupportedProtocol entry.eimSupportedProtocol
  have euiccCiPKId := @mem_pointees_or _ other updateEimEco.euiccCiPKId entry.euiccCiPKId
  simp only [EimEntry.objects, EimEntry.members, List.mem_cons, List.mem_append] at member ⊢
  simp only [EimEntry.updated] at member counterValue
  rcases member with same | member | member | member | member | member | member | member | member | member
  · exact .inl same
  · simp only [member, true_or, or_true]
  · rcases eimFqdn member with member | member <;> simp only [member, true_or, or_true]
  · rcases eimIdType member with member | member <;> simp only [member, true_or, or_true]
  · rcases counterValue member with member | member <;> simp only [member, true_or, or_true]
  · simp only [member, true_or, or_true]
  · rcases eimPublicKeyData member with member | member <;> simp only [member, true_or, or_true]
  · rcases trusted member with member | member <;> simp only [member, true_or, or_true]
  · rcases protocol member with member | member <;> simp only [member, true_or, or_true]
  · rcases euiccCiPKId member with member | member <;> simp only [member, true_or, or_true]

def copyObjects (updated : Option EimEntry) : List Nat := (updated.map EimEntry.object).toList

/-- Once there is a copy, the remaining entries are borrowed. -/
theorem safe_copyRest (updateEimEco copy : EimEntry) (entries : List EimEntry) (list : AsnList EimEntry)
    {post : AsnList EimEntry × Option EimEntry → Heap → Prop}
    (held : heap.live = (list.array.toList : Multiset Nat) + rest)
    (borrowed : ∀ entry ∈ entries, ∀ object ∈ entry.objects, object ∈ rest)
    (request : ∀ object ∈ updateEimEco.objects, object ∈ rest)
    (next : ∀ list' heap', heap'.live = (list'.array.toList : Multiset Nat) + rest →
      list'.entries = list.entries ++ entries → post (list', some copy) heap') :
    Safe (copyAndUpdate updateEimEco list (some copy) entries) heap post stopped := by
  induction entries generalizing list heap with
  | nil => exact next list heap held (List.append_nil _).symm
  | cons entry entries ih =>
      rw [List.forall_mem_cons] at borrowed
      rw [copyAndUpdate, safe_bind]
      refine safe_compare entry updateEimEco held borrowed.1 request ?_
      simp only [Option.isNone_some, Bool.and_false, Bool.false_eq_true, if_false]
      rw [safe_bind]
      refine safe_asnSetAdd list entry held fun set heap' added held' => ?_
      refine ih set held' borrowed.2 fun list' heap'' held'' all => next list' heap'' held'' ?_
      rw [all, added, List.append_assoc, List.singleton_append]

theorem safe_copyAndUpdate (updateEimEco : EimEntry) (entries : List EimEntry) (list : AsnList EimEntry)
    {post : AsnList EimEntry × Option EimEntry → Heap → Prop}
    (held : heap.live = (list.array.toList : Multiset Nat) + rest)
    (borrowed : ∀ entry ∈ entries, ∀ object ∈ entry.objects, object ∈ rest)
    (request : ∀ object ∈ updateEimEco.objects, object ∈ rest)
    (next : ∀ list' updated copied above heap',
      heap'.live = (list'.array.toList : Multiset Nat) + ((copyObjects updated : Multiset Nat) + rest) →
      updated.isSome = (entries.any fun entry => entry.eimId.value = updateEimEco.eimId.value) →
      list'.entries = list.entries ++ copied →
      copied.map EimEntry.cfg = updateKey EimConfigurationData.eimId updateEimEco.eimId.value
        (updateEimItem above updateEimEco.cfg) (entries.map EimEntry.cfg) →
      (∀ entry ∈ copied, ∀ object ∈ entry.objects, object ∈ copyObjects updated ∨ object ∈ rest) →
      post (list', updated) heap') :
    Safe (copyAndUpdate updateEimEco list none entries) heap post stopped := by
  induction entries generalizing list heap with
  | nil =>
      refine next list none [] true heap ?_ rfl (List.append_nil _).symm rfl fun _ member => nomatch member
      exact held.trans (congrArg _ (zero_add rest).symm)
  | cons entry entries ih =>
      rw [List.forall_mem_cons] at borrowed
      have inRest : ∀ object ∈ rest, object ∈ heap.live :=
        fun object member => held_right held member
      rw [copyAndUpdate, safe_bind]
      refine safe_compare entry updateEimEco held borrowed.1 request ?_
      by_cases same : entry.eimId.value = updateEimEco.eimId.value
      · simp only [same, decide_true, Option.isNone_none, Bool.and_self, if_true]
        rw [safe_bind, copyUpdated, safe_bind]
        refine safe_alloc fun object heap' grown => ?_
        rw [safe_bind]
        refine safe_accessEach ?_ ?_
        · intro read reading
          rw [grown]
          simp only [List.mem_cons, List.not_mem_nil, or_false] at reading
          rcases reading with rfl | rfl
          · exact Multiset.mem_cons_of_mem (inRest _ (borrowed.1 _ (List.mem_cons_self ..)))
          · exact Multiset.mem_cons_of_mem (inRest _ (request _ (List.mem_cons_self ..)))
        rw [safe_pure, safe_bind]
        -- from here on the copy is one more object beside the list
        rw [held, ← Multiset.add_cons] at grown
        refine safe_asnSetAdd list _ grown fun set heap'' added held'' => ?_
        refine safe_copyRest updateEimEco _ entries set held''
          (fun other member read reading => Multiset.mem_cons_of_mem (borrowed.2 other member read reading))
          (fun read reading => Multiset.mem_cons_of_mem (request read reading)) fun list' last held' all => ?_
        refine next list' _ (updateEimEco.updated entry object :: entries)
          (notBelow updateEimEco.counterValue entry.counterValue) last held' (by simp [same]) ?_ ?_ ?_
        · rw [all, added, List.append_assoc, List.singleton_append]
        · rw [List.map_cons, List.map_cons, updateKey, if_pos (show entry.cfg.eimId = _ from same), cfg_updated]
        · rw [List.forall_mem_cons]
          refine ⟨fun other member => ?_, fun other member read reading => ?_⟩
          swap
          · exact .inr (borrowed.2 other member read reading)
          rcases objects_updated updateEimEco entry object other member with rfl | stored | requested
          · exact .inl (List.mem_singleton_self _)
          · exact .inr (borrowed.1 other stored)
          · exact .inr (request other requested)
      · simp only [same, decide_false, Bool.false_and, Bool.false_eq_true, if_false]
        rw [safe_bind]
        refine safe_asnSetAdd list entry held fun set heap' added held' => ?_
        refine ih set held' borrowed.2 fun list' updated copied above last final found all cfgs readable => ?_
        refine next list' updated (entry :: copied) above last final (by simp [same, found]) ?_ ?_ ?_
        · rw [all, added, List.append_assoc, List.singleton_append]
        · rw [List.map_cons, List.map_cons, updateKey, if_neg (show ¬ entry.cfg.eimId = _ from same), cfgs]
        · rw [List.forall_mem_cons]
          exact ⟨fun object member => .inr (borrowed.1 object member), readable⟩

end

/-! ## The eCOs -/

/-- The result comes to the objects of the caller, and nothing else changes. Only the write of the
configuration stops. -/
structure Releases {β : Type} (program : EcoM (Nat × IpaNvstate × β)) (heap : Heap) : Prop where
  safe : Safe program heap (fun out heap' => heap'.live = out.1 ::ₘ heap.live)
    fun f => ∃ req, addInitEimIotEmu codec nv req = .error f

/-- The program releases its objects and has one of the outcomes. -/
def Performs {β : Type} (program : EcoM (Nat × IpaNvstate × β)) (heap : Heap)
    (outcomes : Except Fault (IpaNvstate × β) → Prop) : Prop :=
  Safe program heap (fun out heap' => heap'.live = out.1 ::ₘ heap.live ∧ outcomes (.ok out.2))
    fun f => (∃ req, addInitEimIotEmu codec nv req = .error f) ∧ outcomes (.error f)

theorem Performs.releases {β : Type} {program : EcoM (Nat × IpaNvstate × β)}
    {outcomes : Except Fault (IpaNvstate × β) → Prop} (performs : Performs codec nv program heap outcomes) :
    Releases codec nv program heap :=
  ⟨performs.mono (fun _ _ returns => returns.1) fun _ stops => stops.1⟩

/-- The loops borrow the entries of the configuration. -/
theorem borrowed_objects (data : EimCfgData) (rest : Multiset Nat) (entry : EimEntry)
    (member : entry ∈ data.list.entries) (object : Nat) (reading : object ∈ entry.objects) :
    object ∈ (data.objects : Multiset Nat) + rest := by
  refine Multiset.mem_add.mpr (.inl (Multiset.mem_coe.mpr ?_))
  refine List.mem_cons_of_mem _ (List.mem_cons_of_mem _ (List.mem_append_right _ ?_))
  exact List.mem_flatMap.mpr ⟨entry, member, reading⟩

theorem safe_readList (data : EimCfgData) {rest : Multiset Nat} {post : Unit → Heap → Prop}
    (held : heap.live = (data.objects : Multiset Nat) + rest) (next : post () heap) :
    Safe (accessEach (data.object :: data.res :: data.list.array.toList) : EcoM Unit) heap post stopped := by
  refine safe_accessEach (fun object member => held_left held ?_) next
  rw [EimCfgData.objects, ← List.cons_append, ← List.cons_append]
  exact List.mem_append_left _ member

theorem safe_addedResult (res : AddInitEimRes) {rest : Multiset Nat} {post : Option (Ref (Option Int)) → Heap → Prop}
    (filled : res.list.entries ≠ []) (held : heap.live = (res.objects : Multiset Nat) + rest)
    (next : ∀ last, res.list.entries.getLast? = some last → post (some last) heap) :
    Safe (addedResult res) heap post stopped := by
  have inRes : ∀ object ∈ res.objects, object ∈ heap.live :=
    fun object member => held_left held member
  rw [addedResult, safe_bind]
  refine safe_accessEach (fun object member => inRes object ?_) ?_
  · rw [AddInitEimRes.objects, ← List.cons_append, ← List.cons_append]
    exact List.mem_append_left _ member
  · cases last : res.list.entries.getLast? with
    | none => exact absurd (List.getLast?_eq_none_iff.mp last) filled
    | some last' =>
        simp only
        rw [safe_bind]
        refine safe_access (inRes _ ?_) (next last' last)
        refine List.mem_cons_of_mem _ (List.mem_cons_of_mem _ (List.mem_append_right _ ?_))
        exact List.mem_map_of_mem (List.mem_of_getLast? last)

/-- The objects of the caller outlive the result that is allocated and the configuration that is read. -/
theorem requested_held (data : EimCfgData) {before : Heap} {euiccResultData : Nat} {objects : List Nat}
    (grown : before.live = euiccResultData ::ₘ heap.live) (request : ∀ object ∈ objects, object ∈ heap.live) :
    ∀ object ∈ objects, object ∈ (data.objects : Multiset Nat) + before.live := by
  intro object member
  rw [grown]
  exact Multiset.mem_add.mpr (.inr (Multiset.mem_cons_of_mem (request object member)))

/-- What the write of the configuration reads. -/
theorem readable_list (list : AsnList EimEntry) {rest : Multiset Nat}
    (held : heap.live = (list.array.toList : Multiset Nat) + rest)
    (entries : ∀ entry ∈ list.entries, ∀ object ∈ entry.objects, object ∈ rest) :
    ∀ object ∈ list.array.toList ++ list.entries.flatMap EimEntry.objects, object ∈ heap.live := by
  intro object member
  rcases List.mem_append.mp member with array | within
  · exact held_left held array
  · obtain ⟨entry, listed, reading⟩ := List.mem_flatMap.mp within
    exact held_right held (entries entry listed object reading)

theorem any_eimId_entries {data : EimCfgData} {list : List EimConfigurationData} {before after : Heap}
    (decoded : Decoded data list before after) (eimId : List UInt8) :
    (list.any fun cfg => cfg.eimId = eimId) = data.list.entries.any fun entry => entry.eimId.value = eimId := by
  rw [← decoded.cfgs, List.any_map]
  rfl

theorem addEim_performs (addEimEco : EimEntry) (request : ∀ object ∈ addEimEco.objects, object ∈ heap.live) :
    Performs codec nv (iotEmoDoAddEimEco codec nv addEimEco) heap
      (· = EimCfg.iotEmoDoAddEimEco codec nv addEimEco.cfg) := by
  rw [Performs, iotEmoDoAddEimEco, safe_bind]
  refine safe_alloc fun euiccResultData before grown => ?_
  rw [safe_bind, EimCfg.iotEmoDoAddEimEco]
  refine safe_getEimCfgData codec nv (fun read heap' same => ?_) fun list data heap' read decoded => ?_
  · simp only [read]
    rw [safe_bind]
    exact safe_leaveUnread same fun heap'' left => ⟨left.trans grown, rfl⟩
  · have found := any_eimId_entries decoded addEimEco.cfg.eimId
    simp only [read]
    rw [safe_bind]
    refine safe_readList data decoded.held ?_
    have requested := requested_held data grown request
    rw [safe_bind]
    refine safe_copyEntries addEimEco data.list.entries .empty (decoded.held.trans (zero_add _).symm)
      (borrowed_objects data before.live) requested fun set present heap'' held any all => ?_
    cases present with
    | true =>
        rw [if_pos (found.trans any.symm), if_pos rfl, safe_bind]
        exact safe_leaveUnwritten data set held fun last left => ⟨left.trans grown, rfl⟩
    | false =>
        have cfgs : (data.list.entries ++ [addEimEco]).map EimEntry.cfg = list ++ [addEimEco.cfg] := by
          rw [List.map_append, decoded.cfgs, List.map_singleton]
        have absent : ¬ (list.any fun cfg => cfg.eimId = addEimEco.cfg.eimId) = true :=
          fun present => Bool.false_ne_true (any.trans (found.symm.trans present))
        rw [if_neg absent, if_neg Bool.false_ne_true, safe_bind]
        refine safe_asnSetAdd set addEimEco held fun req heap3 added held3 => ?_
        have entries : req.entries = data.list.entries ++ [addEimEco] := by
          rw [added, all rfl]
          rfl
        rw [safe_bind]
        refine safe_addInitEim codec nv req (readable_list req held3 ?_) (fun f failed => ?_)
          fun nv' res heap4 wrote results held4 => ?_
        · intro entry member
          rw [entries, List.mem_append, List.mem_singleton] at member
          rcases member with stored | rfl
          · exact borrowed_objects data before.live entry stored
          · exact requested
        · rw [entries, cfgs] at failed
          exact ⟨⟨_, failed⟩, by rw [failed]⟩
        · rw [entries, cfgs] at wrote
          rw [wrote]
          cases value : res.value with
          | addInitialEimError code =>
              simp only
              rw [safe_bind]
              exact safe_leaveWritten data res req held4 held3 fun last left => ⟨left.trans grown, rfl⟩
          | addInitialEimOk values =>
              rw [value] at wrote results
              replace results : res.list.entries.map Ref.value = values := results
              simp only
              rw [safe_bind]
              refine safe_addedResult res (fun empty => ?_) held4 fun last final => ?_
              · -- there is a result for each entry of the request
                have one := addInitEimIotEmu_results codec nv nv' _ values wrote
                rw [← results, empty, List.length_append] at one
                cases one
              · have lastValue : values.getLast? = some last.value := by
                  rw [← results, List.getLast?_map, final]
                  rfl
                rw [safe_bind, lastValue]
                refine safe_leaveWritten data res req held4 held3 fun heap5 left => ?_
                simp only [Option.bind_some]
                cases last.value with
                | none => exact ⟨left.trans grown, rfl⟩
                | some token => exact ⟨left.trans grown, rfl⟩

theorem deleteEim_performs (object : Nat) (eimId : Ref (List UInt8)) (request : object ∈ heap.live)
    (member : eimId.object ∈ heap.live) :
    Performs codec nv (iotEmoDoDeleteEimEco codec nv object eimId) heap
      (· = EimCfg.iotEmoDoDeleteEimEco codec nv eimId.value) := by
  rw [Performs, iotEmoDoDeleteEimEco, safe_bind]
  refine safe_alloc fun euiccResultData before grown => ?_
  rw [safe_bind, EimCfg.iotEmoDoDeleteEimEco]
  refine safe_getEimCfgData codec nv (fun read heap' same => ?_) fun list data heap' read decoded => ?_
  · simp only [read]
    rw [safe_bind]
    exact safe_leaveUnread same fun heap'' left => ⟨left.trans grown, rfl⟩
  · have found := any_eimId_entries decoded eimId.value
    have own : ∀ read ∈ [object, eimId.object], read ∈ heap.live :=
      List.forall_mem_cons.mpr ⟨request, List.forall_mem_singleton.mpr member⟩
    have requested := requested_held data grown own
    simp only [read]
    rw [safe_bind]
    refine safe_readList data decoded.held ?_
    rw [safe_bind]
    refine safe_copyOthers eimId object data.list.entries .empty false (decoded.held.trans (zero_add _).symm)
      (borrowed_objects data before.live) (requested _ (List.mem_cons_self ..))
      (requested _ (List.mem_cons_of_mem _ (List.mem_singleton_self _)))
      fun req eimFound heap'' held any all => ?_
    rw [Bool.false_or] at any
    cases eimFound with
    | false =>
        have absent : ¬ (list.any fun cfg => cfg.eimId = eimId.value) = true :=
          fun present => Bool.false_ne_true (any.trans (found.symm.trans present))
        rw [if_neg absent, if_neg Bool.false_ne_true, safe_bind]
        exact safe_leaveUnwritten data req held fun last left => ⟨left.trans grown, rfl⟩
    | true =>
        have cfgs : req.entries.map EimEntry.cfg = removeKey EimConfigurationData.eimId eimId.value list := by
          rw [all, ← decoded.cfgs, removeKey, List.filter_map]
          rfl
        rw [if_pos (found.trans any.symm), if_pos rfl, safe_bind]
        refine safe_addInitEim codec nv req (readable_list req held ?_) (fun f failed => ?_)
          fun nv' res heap3 wrote results held3 => ?_
        · intro entry kept
          rw [all] at kept
          exact borrowed_objects data before.live entry (List.mem_of_mem_filter kept)
        · rw [cfgs] at failed
          exact ⟨⟨_, failed⟩, by rw [failed]⟩
        · rw [cfgs] at wrote
          rw [wrote, safe_bind]
          exact safe_leaveWritten data res req held3 held fun last left => ⟨left.trans grown, rfl⟩

theorem updateEim_performs (updateEimEco : EimEntry) {list : List EimConfigurationData}
    (stored : getEimCfgDataIotEmu codec nv = some list)
    (present : updateEimEco.eimId.value ∈ list.map EimConfigurationData.eimId)
    (request : ∀ object ∈ updateEimEco.objects, object ∈ heap.live) :
    Performs codec nv (iotEmoDoUpdateEimEco codec nv updateEimEco) heap
      fun outcome => ∃ above, outcome = EimCfg.iotEmoDoUpdateEimEco codec nv above updateEimEco.cfg := by
  rw [Performs, iotEmoDoUpdateEimEco, safe_bind]
  refine safe_alloc fun euiccResultData before grown => ?_
  rw [safe_bind]
  refine safe_getEimCfgData codec nv (fun read => ?_) fun list' data heap' read decoded => ?_
  · rw [stored] at read
    cases read
  · rw [stored] at read
    cases read
    have requested := requested_held data grown request
    have found := (any_eimId list updateEimEco.cfg.eimId).mpr present
    simp only
    rw [safe_bind]
    refine safe_readList data decoded.held ?_
    rw [safe_bind]
    refine safe_copyAndUpdate updateEimEco data.list.entries .empty (decoded.held.trans (zero_add _).symm)
      (borrowed_objects data before.live) requested
      fun req updated copied above heap'' held any all cfgs readable => ?_
    rw [← any_eimId_entries decoded updateEimEco.eimId.value] at any
    cases updated with
    | none => exact absurd (any.trans found) Bool.false_ne_true
    | some copy =>
        replace all : req.entries = copied := all
        have wanted : req.entries.map EimEntry.cfg = updateKey EimConfigurationData.eimId updateEimEco.cfg.eimId
            (updateEimItem above updateEimEco.cfg) list := by
          rw [all, cfgs, decoded.cfgs]
          rfl
        have outcome : EimCfg.iotEmoDoUpdateEimEco codec nv above updateEimEco.cfg =
            match addInitEimIotEmu codec nv (req.entries.map EimEntry.cfg) with
            | .error f => .error f
            | .ok (nv, _) => .ok (nv, resultOk) := by
          rw [EimCfg.iotEmoDoUpdateEimEco, stored, wanted]
          exact if_pos found
        simp only [Option.isSome_some, if_true]
        rw [safe_bind]
        refine safe_addInitEim codec nv req (readable_list req held ?_) (fun f failed => ?_)
          fun nv' res heap3 wrote results held3 => ?_
        · intro entry kept object reading
          rw [all] at kept
          exact Multiset.mem_add.mpr (readable entry kept object reading)
        · exact ⟨⟨_, failed⟩, above, by rw [outcome, failed]⟩
        · rw [leaveUpdate, safe_bind, safe_bind]
          refine safe_leaveWritten data res req held3 (held.trans (congrArg _ (add_left_comm _ _ _)))
            fun heap4 left => ?_
          rw [safe_bind, safe_assigned]
          refine safe_free (left.trans (Multiset.singleton_add _ _)) fun last left => ?_
          exact ⟨left.trans grown, above, by rw [outcome, wrote]⟩

def Read (before : Heap) : Option EimCfgData → Heap → Prop
  | none, after => after.live = before.live
  | some data, after => ∃ list, getEimCfgDataIotEmu codec nv = some list ∧ Decoded data list before after

/-- Without a copy there is nothing to release, and the way out releases it. -/
theorem not_safe_leaveUpdate (eimCfgData : Option EimCfgData) (list : AsnList EimEntry) {rest : Multiset Nat}
    {post : Unit → Heap → Prop}
    (held : heap.live = (dataObjects eimCfgData : Multiset Nat) + (list.array.toList + rest)) :
    ¬ Safe (leaveUpdate eimCfgData none list none) heap post stopped := by
  intro safe
  rw [leaveUpdate, safe_bind] at safe
  have left : Safe (leave eimCfgData none list) heap (fun _ _ => True) fun _ => False :=
    safe_leave eimCfgData none list rest (held.trans (congrArg _ (zero_add _).symm)) fun _ _ => trivial
  obtain ⟨_, heap', -, safe⟩ := left.meet safe
  rw [safe_bind] at safe
  exact not_safe_unassigned safe

theorem updateEim_not_releases (updateEimEco : EimEntry)
    (request : ∀ object ∈ updateEimEco.objects, object ∈ heap.live)
    (missing : ∀ list, getEimCfgDataIotEmu codec nv = some list →
      updateEimEco.eimId.value ∉ list.map EimConfigurationData.eimId) :
    ¬ Releases codec nv (iotEmoDoUpdateEimEco codec nv updateEimEco) heap := by
  intro releases
  have safe := releases.safe
  rw [iotEmoDoUpdateEimEco, safe_bind] at safe
  obtain ⟨euiccResultData, before, grown, safe⟩ := (safe_alloc fun _ _ grown => grown).meet safe
  rw [safe_bind] at safe
  have passes : Safe (ipaEs10bGetEimCfgData codec nv) before (Read codec nv before) fun _ => False :=
    safe_getEimCfgData codec nv (fun _ _ same => same) fun list data heap' read decoded => ⟨list, read, decoded⟩
  obtain ⟨eimCfgData, heap', read, safe⟩ := passes.meet safe
  cases eimCfgData with
  | none =>
      rw [safe_bind] at safe
      exact not_safe_leaveUpdate none .empty (read.trans ((zero_add _).trans (zero_add _)).symm) safe
  | some data =>
      obtain ⟨list, stored, decoded⟩ := read
      have requested := requested_held data grown request
      have absent : ¬ (list.any fun cfg => cfg.eimId = updateEimEco.eimId.value) = true :=
        mt (any_eimId list _).mp (missing list stored)
      rw [any_eimId_entries decoded] at absent
      have copies : Safe (copyAndUpdate updateEimEco .empty none data.list.entries) heap' (fun out heap'' =>
          out.2 = none ∧ heap''.live = (out.1.array.toList : Multiset Nat) + (data.objects + before.live))
          fun _ => False := by
        refine safe_copyAndUpdate updateEimEco data.list.entries .empty (decoded.held.trans (zero_add _).symm)
          (borrowed_objects data before.live) requested fun req updated copied above last held any _ _ _ => ?_
        cases updated with
        | none => exact ⟨rfl, held.trans (congrArg _ (zero_add _))⟩
        | some copy => exact absurd any.symm absent
      have reads : Safe (accessEach (data.object :: data.res :: data.list.array.toList)) heap'
          (fun _ heap'' => heap' = heap'') fun _ => False := safe_readList data decoded.held rfl
      simp only at safe
      rw [safe_bind] at safe
      obtain ⟨_, _, rfl, safe⟩ := reads.meet safe
      rw [safe_bind] at safe
      obtain ⟨⟨req, updated⟩, last, ⟨rfl, held⟩, safe⟩ := copies.meet safe
      simp only [Option.isSome_none, Bool.false_eq_true, if_false] at safe
      rw [safe_bind] at safe
      exact not_safe_leaveUpdate (some data) req (held.trans (add_left_comm _ _ _)) safe

inductive EcoRequest where
  | addEim (addEimEco : EimEntry)
  | deleteEim (object : Nat) (eimId : Ref (List UInt8))
  | updateEim (updateEimEco : EimEntry)

def EcoRequest.objects : EcoRequest → List Nat
  | .addEim addEimEco => addEimEco.objects
  | .deleteEim object eimId => [object, eimId.object]
  | .updateEim updateEimEco => updateEimEco.objects

def EcoRequest.Releases (heap : Heap) : EcoRequest → Prop
  | .addEim addEimEco => Temporaries.Releases codec nv (iotEmoDoAddEimEco codec nv addEimEco) heap
  | .deleteEim object eimId => Temporaries.Releases codec nv (iotEmoDoDeleteEimEco codec nv object eimId) heap
  | .updateEim updateEimEco => Temporaries.Releases codec nv (iotEmoDoUpdateEimEco codec nv updateEimEco) heap

/-- updateEim needs its entry in a configuration that can be read. -/
def EcoRequest.Copies : EcoRequest → Prop
  | .addEim _ => True
  | .deleteEim _ _ => True
  | .updateEim updateEimEco =>
      ∃ list, getEimCfgDataIotEmu codec nv = some list ∧
        updateEimEco.eimId.value ∈ list.map EimConfigurationData.eimId

end

theorem ecoRequest_releases_iff (codec : EimCfgCodec) (nv : IpaNvstate) (heap : Heap) (eco : EcoRequest)
    (request : ∀ object ∈ eco.objects, object ∈ heap.live) :
    eco.Releases codec nv heap ↔ eco.Copies codec nv := by
  cases eco with
  | addEim addEimEco =>
      exact iff_of_true (addEim_performs codec nv addEimEco request).releases trivial
  | deleteEim object eimId =>
      have members : object ∈ heap.live ∧ eimId.object ∈ heap.live :=
        ⟨request _ (List.mem_cons_self ..), request _ (List.mem_cons_of_mem _ (List.mem_cons_self ..))⟩
      exact iff_of_true (deleteEim_performs codec nv object eimId members.1 members.2).releases trivial
  | updateEim updateEimEco =>
      constructor
      · intro releases
        by_contra missing
        refine updateEim_not_releases codec nv updateEimEco request (fun list stored present => ?_) releases
        exact missing ⟨list, stored, present⟩
      · intro copies
        obtain ⟨list, stored, present⟩ := copies
        exact (updateEim_performs codec nv updateEimEco stored present request).releases

/-- A request of the caller, on a heap with its two objects. -/
def someRequest : EimEntry :=
  ⟨0, ⟨1, someEim.eimId⟩, true, none, none, none, none, none, none, none, none⟩

def someHeap : Heap := Heap.empty.grown.grown

theorem someRequest_held : ∀ object ∈ (EcoRequest.updateEim someRequest).objects, object ∈ someHeap.live := by
  decide

theorem updateEim_stored_releases :
    EcoRequest.Releases derCodec someNvstate someHeap (.updateEim someRequest) :=
  (ecoRequest_releases_iff derCodec someNvstate someHeap _ someRequest_held).mpr
    ⟨[someEim], someNvstate_written.stored, List.mem_singleton_self _⟩

theorem updateEim_fresh_not_releases :
    ¬ EcoRequest.Releases derCodec .fresh someHeap (.updateEim someRequest) := by
  refine updateEim_not_releases derCodec .fresh someRequest someRequest_held fun list stored present => ?_
  rw [(written_fresh derCodec).stored] at stored
  cases stored
  cases present

end Ipad.EimCfg.Temporaries
