import Ipad.EimCfg.Der
import Ipad.EimCfg.Eco

/-!
# The eIM configuration store

The stored configuration is an ordered map keyed by `eimId`.
-/

namespace Ipad.EimCfg
open Lib.KeyedList Ipad.Nvstate Ipad.Utils

/-- The emulated operations on the configuration. `above` is the placement of the two counter values in
memory. -/
inductive EimOp where
  | addInitialEim (req : List EimConfigurationData)
  | addEim (addEimEco : EimConfigurationData)
  | deleteEim (eimId : List UInt8)
  | updateEim (above : Bool) (updateEimEco : EimConfigurationData)
  | listEim

inductive EimOpResult where
  | addInitialEim (res : AddInitialEimResponse)
  | addEim (res : AddEimResult)
  | deleteEim (res : Int)
  | updateEim (res : Int)
  | listEim (res : ListEimResult)

def eimOp (codec : EimCfgCodec) (nv : IpaNvstate) : EimOp → Except Fault (IpaNvstate × EimOpResult)
  | .addInitialEim req => (addInitEimIotEmu codec nv req).map fun (nv, res) => (nv, .addInitialEim res)
  | .addEim addEimEco => (iotEmoDoAddEimEco codec nv addEimEco).map fun (nv, res) => (nv, .addEim res)
  | .deleteEim eimId => (iotEmoDoDeleteEimEco codec nv eimId).map fun (nv, res) => (nv, .deleteEim res)
  | .updateEim above updateEimEco =>
      (iotEmoDoUpdateEimEco codec nv above updateEimEco).map fun (nv, res) => (nv, .updateEim res)
  | .listEim => .ok (nv, .listEim (iotEmoDoListEimEco codec nv))

def EimOp.Distinct : EimOp → Prop
  | .addInitialEim req => Lib.KeyedList.Distinct EimConfigurationData.eimId req
  | _ => True

/-! ## The abstract store -/

structure EimCfgMap where
  list : List EimConfigurationData
  distinct : Lib.KeyedList.Distinct EimConfigurationData.eimId list
  complete : ∀ cfg ∈ list, cfg.Complete

/-- The members of an entry after an update, the counter value left open between its two candidates. -/
structure Updated (updateEimEco item updated : EimConfigurationData) : Prop where
  eimId : updated.eimId = item.eimId
  associationToken : updated.associationToken = item.associationToken
  eimFqdn : updated.eimFqdn = (updateEimEco.eimFqdn <|> item.eimFqdn)
  eimIdType : updated.eimIdType = (updateEimEco.eimIdType <|> item.eimIdType)
  eimPublicKeyData : updated.eimPublicKeyData = (updateEimEco.eimPublicKeyData <|> item.eimPublicKeyData)
  trustedPublicKeyDataTls : updated.trustedPublicKeyDataTls =
    (updateEimEco.trustedPublicKeyDataTls <|> item.trustedPublicKeyDataTls)
  eimSupportedProtocol : updated.eimSupportedProtocol =
    (updateEimEco.eimSupportedProtocol <|> item.eimSupportedProtocol)
  euiccCiPKId : updated.euiccCiPKId = (updateEimEco.euiccCiPKId <|> item.euiccCiPKId)
  counterValue : updated.counterValue = item.counterValue ∨ updated.counterValue = updateEimEco.counterValue

def Acts (before after : EimCfgMap) : EimOp → EimOpResult → Prop
  | .addInitialEim req, .addInitialEim res =>
      ((∀ cfg ∈ req, cfg.Complete) ∧ List.Forall₂ Stored req after.list ∧
        res = .addInitialEimOk (after.list.map EimConfigurationData.associationToken)) ∨
      ((¬ ∀ cfg ∈ req, cfg.Complete) ∧ after = before ∧ res = .addInitialEimError 127)
  | .addEim addEimEco, .addEim res =>
      if addEimEco.eimId ∈ before.list.map EimConfigurationData.eimId then
        after = before ∧ res = .addEimResultCode resultCommandError
      else if addEimEco.Complete then
        ∃ stored, Stored addEimEco stored ∧ after.list = before.list ++ [stored] ∧
          res = (stored.associationToken.map .associationToken).getD (.addEimResultCode resultOk)
      else after = before ∧ res = .addEimResultCode resultUndefinedError
  | .deleteEim eimId, .deleteEim res =>
      if eimId ∈ before.list.map EimConfigurationData.eimId then
        res = resultOk ∧ ∀ front item back, before.list = front ++ item :: back → item.eimId = eimId →
          after.list = front ++ back
      else after = before ∧ res = resultEimNotFound
  | .updateEim _ updateEimEco, .updateEim res =>
      res = resultOk ∧ ∀ front item back, before.list = front ++ item :: back →
        item.eimId = updateEimEco.eimId →
          ∃ updated, Updated updateEimEco item updated ∧ after.list = front ++ updated :: back
  | .listEim, .listEim res =>
      after = before ∧ res = .eimIdList (before.list.map fun cfg => (cfg.eimId, cfg.eimIdType))
  | _, _ => False

/-! ## The refinement -/

structure Holds (codec : EimCfgCodec) (nv : IpaNvstate) (map : EimCfgMap) : Prop where
  list : getEimCfgDataIotEmu codec nv = some map.list
  encodable : ∀ cfg ∈ map.list, cfg.Encodable
  generated : ∀ cfg ∈ map.list, cfg.associationToken ≠ some (-1)
  counter : 0 ≤ nv.iotEuiccEmu.associationTokenCounter.toInt

def storedList (codec : EimCfgCodec) (nv : IpaNvstate) : List EimConfigurationData :=
  (getEimCfgDataIotEmu codec nv).getD []

/-- What a request must meet: its entries can be encoded again, an updateEim names a stored eimId, and the token
counter does not overflow. -/
def Meets (codec : EimCfgCodec) (nv : IpaNvstate) : EimOp → Prop
  | .addInitialEim req =>
      (∀ cfg ∈ req, cfg.Encodable) ∧ TokenRoom nv.iotEuiccEmu.associationTokenCounter req
  | .addEim addEimEco =>
      addEimEco.eimId ∈ (storedList codec nv).map EimConfigurationData.eimId ∨
        addEimEco.Encodable ∧ TokenRoom nv.iotEuiccEmu.associationTokenCounter [addEimEco]
  | .updateEim _ updateEimEco =>
      updateEimEco.eimId ∈ (storedList codec nv).map EimConfigurationData.eimId ∧ updateEimEco.MembersEncodable
  | .deleteEim _ => True
  | .listEim => True

def Refines (codec : EimCfgCodec) (nv : IpaNvstate) (op : EimOp) : Prop :=
  ∃ before after nv' res, getEimCfgDataIotEmu codec nv = some before.list ∧
    eimOp codec nv op = .ok (nv', res) ∧ getEimCfgDataIotEmu codec nv' = some after.list ∧
    Acts before after op res

inductive Reachable (codec : EimCfgCodec) : IpaNvstate → Prop where
  | reset : Reachable codec .fresh
  | step (nv : IpaNvstate) (reached : Reachable codec nv) (op : EimOp) (distinct : op.Distinct)
      (meets : Meets codec nv op) (nv' : IpaNvstate) (res : EimOpResult)
      (run : eimOp codec nv op = .ok (nv', res)) : Reachable codec nv'

theorem stored_eq {list stored : List EimConfigurationData} (each : List.Forall₂ Stored list stored)
    (kept : ∀ cfg ∈ list, cfg.associationToken ≠ some (-1)) : stored = list := by
  induction each with
  | nil => rfl
  | cons stores each ih =>
      rw [List.forall_mem_cons] at kept
      rw [Stored, if_neg kept.1] at stores
      rw [stores, ih kept.2]

theorem stored_append {list stored : List EimConfigurationData} {cfg : EimConfigurationData}
    (kept : ∀ cfg ∈ list, cfg.associationToken ≠ some (-1))
    (each : List.Forall₂ Stored (list ++ [cfg]) stored) :
    ∃ last, Stored cfg last ∧ stored = list ++ [last] := by
  induction list generalizing stored with
  | nil =>
      rw [List.nil_append, List.forall₂_cons_left_iff] at each
      obtain ⟨last, rest, stores, none, rfl⟩ := each
      rw [List.forall₂_nil_left_iff] at none
      exact ⟨last, stores, by rw [none, List.nil_append]⟩
  | cons head list ih =>
      rw [List.forall_mem_cons] at kept
      rw [List.cons_append, List.forall₂_cons_left_iff] at each
      obtain ⟨first, rest, stores, tail, rfl⟩ := each
      rw [Stored, if_neg kept.1] at stores
      obtain ⟨last, lastStores, rfl⟩ := ih kept.2 tail
      exact ⟨last, lastStores, by rw [stores, List.cons_append]⟩

theorem tokensRequested_append (list : List EimConfigurationData) (more : List EimConfigurationData)
    (complete : ∀ cfg ∈ list, cfg.Complete) (kept : ∀ cfg ∈ list, cfg.associationToken ≠ some (-1)) :
    tokensRequested (list ++ more) = tokensRequested more := by
  induction list with
  | nil => rfl
  | cons cfg list ih =>
      rw [List.forall_mem_cons] at complete kept
      rw [List.cons_append, tokensRequested, if_pos complete.1, if_neg kept.1, ih complete.2 kept.2,
        Nat.zero_add]

theorem map_eimId_stored {list stored : List EimConfigurationData}
    (each : List.Forall₂ Stored list stored) :
    stored.map EimConfigurationData.eimId = list.map EimConfigurationData.eimId := by
  induction each with
  | nil => rfl
  | cons stores each ih => rw [List.map_cons, List.map_cons, stores.eimId, ih]

/-- A list as the emulated AddInitialEim leaves it, with or without repeated keys. -/
structure Written (codec : EimCfgCodec) (nv : IpaNvstate) (list : List EimConfigurationData) : Prop where
  stored : getEimCfgDataIotEmu codec nv = some list
  encodable : ∀ cfg ∈ list, cfg.Encodable
  complete : ∀ cfg ∈ list, cfg.Complete
  generated : ∀ cfg ∈ list, cfg.associationToken ≠ some (-1)
  counter : 0 ≤ nv.iotEuiccEmu.associationTokenCounter.toInt

theorem Holds.written {codec : EimCfgCodec} {nv : IpaNvstate} {map : EimCfgMap} (holds : Holds codec nv map) :
    Written codec nv map.list :=
  ⟨holds.list, holds.encodable, map.complete, holds.generated, holds.counter⟩

theorem Written.holds {codec : EimCfgCodec} {nv : IpaNvstate} {map : EimCfgMap}
    (written : Written codec nv map.list) : Holds codec nv map :=
  ⟨written.stored, written.encodable, written.generated, written.counter⟩

section
variable {codec : EimCfgCodec} {nv : IpaNvstate} {list : List EimConfigurationData}

theorem Written.rewrites (written : Written codec nv list) (req : List EimConfigurationData)
    (encodable : ∀ cfg ∈ req, cfg.Encodable) (complete : ∀ cfg ∈ req, cfg.Complete)
    (kept : ∀ cfg ∈ req, cfg.associationToken ≠ some (-1)) :
    ∃ after res, addInitEimIotEmu codec nv req = .ok (after, res) ∧ Written codec after req := by
  have room : TokenRoom nv.iotEuiccEmu.associationTokenCounter req := by
    have none := tokensRequested_append req [] complete kept
    rw [List.append_nil] at none
    rw [TokenRoom, none]
    simpa [tokensRequested] using Int32.toInt_lt _
  have result := addInitEimIotEmu_addInitialEim codec nv written.counter req
  generalize addInitEimIotEmu codec nv req = out at result
  cases result with
  | unencodable lacks => exact absurd encodable lacks
  | overflow noRoom => exact absurd room noRoom
  | rejected _ _ after counter same incomplete => exact absurd complete incomplete
  | accepted _ _ after counter _ stored each generated list =>
      rw [stored_eq each kept] at list
      exact ⟨after, _, rfl, list, encodable, complete, kept, counter⟩

theorem Written.addInitialEim (written : Written codec nv list) (req : List EimConfigurationData)
    (nv' : IpaNvstate) (res : AddInitialEimResponse) (run : addInitEimIotEmu codec nv req = .ok (nv', res)) :
    ∃ stored, Written codec nv' stored := by
  have result := addInitEimIotEmu_addInitialEim codec nv written.counter req
  rw [run] at result
  cases result with
  | rejected _ _ _ counter same _ =>
      exact ⟨list, same.trans written.stored, written.encodable, written.complete, written.generated, counter⟩
  | accepted encodable _ _ counter complete stored each generated list =>
      refine ⟨stored, list, ?_, ?_, generated, counter⟩
      · exact forall_of_stored (fun _ _ stores => stores.encodable) each encodable
      · exact forall_of_stored (fun _ _ stores => stores.complete) each complete

end

section
variable (codec : EimCfgCodec) (nv : IpaNvstate) (map : EimCfgMap)

theorem addInitEimIotEmu_writes (holds : Holds codec nv map) (req : List EimConfigurationData)
    (distinct : Lib.KeyedList.Distinct EimConfigurationData.eimId req) (encodable : ∀ cfg ∈ req, cfg.Encodable)
    (room : TokenRoom nv.iotEuiccEmu.associationTokenCounter req)
    (complete : ∀ cfg ∈ req, cfg.Complete) :
    ∃ after written, addInitEimIotEmu codec nv req =
        .ok (after, .addInitialEimOk (written.list.map EimConfigurationData.associationToken)) ∧
      List.Forall₂ Stored req written.list ∧ Holds codec after written := by
  have result := addInitEimIotEmu_addInitialEim codec nv holds.counter req
  generalize addInitEimIotEmu codec nv req = out at result
  cases result with
  | unencodable lacks => exact absurd encodable lacks
  | overflow noRoom => exact absurd room noRoom
  | rejected _ _ after counter same incomplete => exact absurd complete incomplete
  | accepted _ _ after counter _ stored each generated list =>
      refine ⟨after, ⟨stored, ?_, ?_⟩, rfl, each, list, ?_, generated, counter⟩
      · rw [Lib.KeyedList.Distinct, map_eimId_stored each]
        exact distinct
      · exact forall_of_stored (fun _ _ stores => stores.complete) each complete
      · exact forall_of_stored (fun _ _ stores => stores.encodable) each encodable

theorem addInitialEim_refines (holds : Holds codec nv map) (req : List EimConfigurationData)
    (distinct : Lib.KeyedList.Distinct EimConfigurationData.eimId req) (encodable : ∀ cfg ∈ req, cfg.Encodable)
    (room : TokenRoom nv.iotEuiccEmu.associationTokenCounter req) :
    ∃ after written res, addInitEimIotEmu codec nv req = .ok (after, res) ∧ Holds codec after written ∧
      Acts map written (.addInitialEim req) (.addInitialEim res) := by
  by_cases complete : ∀ cfg ∈ req, cfg.Complete
  · obtain ⟨after, written, run, each, still⟩ :=
      addInitEimIotEmu_writes codec nv map holds req distinct encodable room complete
    exact ⟨after, written, _, run, still, .inl ⟨complete, each, rfl⟩⟩
  · have result := addInitEimIotEmu_addInitialEim codec nv holds.counter req
    generalize addInitEimIotEmu codec nv req = out at result
    cases result with
    | unencodable lacks => exact absurd encodable lacks
    | overflow noRoom => exact absurd room noRoom
    | rejected _ _ after counter same incomplete =>
        exact ⟨after, map, _, rfl, ⟨same.trans holds.list, holds.encodable, holds.generated, counter⟩,
          .inr ⟨complete, rfl, rfl⟩⟩
    | accepted _ _ after counter all stored each generated list => exact absurd all complete

theorem addEim_refines (holds : Holds codec nv map) (addEimEco : EimConfigurationData)
    (meets : addEimEco.eimId ∈ map.list.map EimConfigurationData.eimId ∨
      addEimEco.Encodable ∧ TokenRoom nv.iotEuiccEmu.associationTokenCounter [addEimEco]) :
    ∃ after written res, iotEmoDoAddEimEco codec nv addEimEco = .ok (after, res) ∧
      Holds codec after written ∧ Acts map written (.addEim addEimEco) (.addEim res) := by
  unfold iotEmoDoAddEimEco
  rw [holds.list]
  by_cases present : addEimEco.eimId ∈ map.list.map EimConfigurationData.eimId
  · simp only [(any_eimId map.list addEimEco.eimId).mpr present, if_true]
    refine ⟨nv, map, _, rfl, holds, ?_⟩
    rw [Acts, if_pos present]
    exact ⟨rfl, rfl⟩
  · have absent : (map.list.any fun cfg => cfg.eimId = addEimEco.eimId) = false :=
      Bool.eq_false_iff.mpr (mt (any_eimId _ _).mp present)
    obtain ⟨encodable, room⟩ := meets.resolve_left present
    have counted := tokensRequested_append map.list [addEimEco] map.complete holds.generated
    have roomAll : TokenRoom nv.iotEuiccEmu.associationTokenCounter (map.list ++ [addEimEco]) := by
      rw [TokenRoom, counted]
      exact room
    have encodableAll : ∀ cfg ∈ map.list ++ [addEimEco], cfg.Encodable := by
      simpa [or_imp, forall_and, encodable] using holds.encodable
    simp only [absent, Bool.false_eq_true, if_false]
    by_cases complete : addEimEco.Complete
    · obtain ⟨after, written, run, each, still⟩ := addInitEimIotEmu_writes codec nv map holds
        (map.list ++ [addEimEco]) (distinct_concat _ _ _ map.distinct present) encodableAll roomAll
        (by simpa [or_imp, forall_and, complete] using map.complete)
      obtain ⟨last, stores, appended⟩ := stored_append holds.generated each
      rw [run, appended]
      simp only [List.map_append, List.map_singleton, List.getLast?_append, List.getLast?_singleton,
        Option.some_or]
      rcases token : last.associationToken with _ | value
      · refine ⟨after, written, _, rfl, still, ?_⟩
        rw [Acts, if_neg present, if_pos complete]
        exact ⟨last, stores, appended, by rw [token]; rfl⟩
      · refine ⟨after, written, _, rfl, still, ?_⟩
        rw [Acts, if_neg present, if_pos complete]
        exact ⟨last, stores, appended, by rw [token]; rfl⟩
    · have result := addInitEimIotEmu_addInitialEim codec nv holds.counter (map.list ++ [addEimEco])
      generalize addInitEimIotEmu codec nv (map.list ++ [addEimEco]) = out at result
      cases result with
      | unencodable lacks => exact absurd encodableAll lacks
      | overflow noRoom => exact absurd roomAll noRoom
      | rejected _ _ after counter same incomplete =>
          refine ⟨after, map, _, rfl, ⟨same.trans holds.list, holds.encodable, holds.generated, counter⟩, ?_⟩
          rw [Acts, if_neg present, if_neg complete]
          exact ⟨rfl, rfl⟩
      | accepted _ _ after counter all stored each generated list =>
          exact absurd (all addEimEco (by simp)) complete

theorem deleteEim_refines (holds : Holds codec nv map) (eimId : List UInt8) :
    ∃ after written res, iotEmoDoDeleteEimEco codec nv eimId = .ok (after, res) ∧
      Holds codec after written ∧ Acts map written (.deleteEim eimId) (.deleteEim res) := by
  unfold iotEmoDoDeleteEimEco
  rw [holds.list]
  by_cases present : eimId ∈ map.list.map EimConfigurationData.eimId
  · have part : ∀ cfg ∈ removeKey EimConfigurationData.eimId eimId map.list, cfg ∈ map.list :=
      fun cfg member => (List.mem_filter.mp member).1
    obtain ⟨after, res, run, still⟩ := holds.written.rewrites
      (removeKey EimConfigurationData.eimId eimId map.list)
      (fun cfg member => holds.encodable cfg (part cfg member))
      (fun cfg member => map.complete cfg (part cfg member))
      (fun cfg member => holds.generated cfg (part cfg member))
    have removed : Holds codec after ⟨removeKey EimConfigurationData.eimId eimId map.list,
        distinct_removeKey _ _ _ map.distinct, still.complete⟩ := still.holds
    simp only [(any_eimId map.list eimId).mpr present, if_true, run]
    refine ⟨after, _, _, rfl, removed, ?_⟩
    rw [Acts, if_pos present]
    refine ⟨rfl, ?_⟩
    rintro front item back split rfl
    have distinct := map.distinct
    simp only [split] at distinct ⊢
    exact removeKey_split _ _ _ _ distinct
  · have absent : (map.list.any fun cfg => cfg.eimId = eimId) = false :=
      Bool.eq_false_iff.mpr (mt (any_eimId _ _).mp present)
    simp only [absent, Bool.false_eq_true, if_false]
    refine ⟨nv, map, _, rfl, holds, ?_⟩
    rw [Acts, if_neg present]
    exact ⟨rfl, rfl⟩

theorem updateEimItem_updated (above : Bool) (updateEimEco item : EimConfigurationData) :
    Updated updateEimEco item (updateEimItem above updateEimEco item) := by
  refine ⟨rfl, rfl, rfl, rfl, rfl, rfl, rfl, rfl, ?_⟩
  unfold updateEimItem
  simp only
  split
  · split
    · exact .inr rfl
    · split
      · exact .inr rfl
      · exact .inl rfl
  · exact .inl rfl

theorem updateEimItem_complete (above : Bool) (updateEimEco item : EimConfigurationData)
    (complete : item.Complete) : (updateEimItem above updateEimEco item).Complete := by
  obtain ⟨fqdn, value⟩ := complete
  constructor
  · rw [(updateEimItem_updated above updateEimEco item).eimFqdn]
    cases updateEimEco.eimFqdn
    · exact fqdn
    · exact Option.some_ne_none _
  · unfold updateEimItem
    cases requested : updateEimEco.counterValue with
    | none => simpa using value
    | some counterValue =>
        simp only [Option.isSome_some, if_true]
        split
        · exact Option.some_ne_none _
        · split
          · exact Option.some_ne_none _
          · exact value

theorem or_encoded (encoding : KeyData → Encoding) (update item : Option KeyData)
    (sound : ∀ key ∈ item, encoding key = .encoded) :
    (∀ key ∈ update <|> item, encoding key = .encoded) ↔ ∀ key ∈ update, encoding key = .encoded := by
  cases update with
  | none => exact iff_of_true sound (by simp)
  | some key => rfl

theorem or_all {α : Type} (buffered : α → Bool) (update item : Option α) (sound : item.all buffered = true) :
    (update <|> item).all buffered = true ↔ update.all buffered = true := by
  cases update with
  | none => exact iff_of_true sound rfl
  | some member => rfl

theorem keysEncoding_iff (cfg : EimConfigurationData) :
    cfg.keysEncoding = .encoded ↔ (∀ key ∈ cfg.eimPublicKeyData, key.encoding = .encoded) ∧
      ∀ key ∈ cfg.trustedPublicKeyDataTls, key.encoding = .encoded := by
  simp only [EimConfigurationData.keysEncoding, Encoding.ofList_eq_encoded, List.mem_append, Option.mem_toList,
    Option.mem_def, or_imp, forall_and]

theorem updateEimItem_encodable_iff (above : Bool) (updateEimEco item : EimConfigurationData)
    (encodable : item.Encodable) :
    (updateEimItem above updateEimEco item).Encodable ↔ updateEimEco.MembersEncodable := by
  obtain ⟨ownId, keys, members⟩ := item.encodable_iff.mp encodable
  obtain ⟨publicKey, trusted⟩ := (keysEncoding_iff item).mp keys
  simp only [EimConfigurationData.membersBuffered, Bool.and_eq_true] at members
  obtain ⟨⟨fqdn, protocol⟩, ciPKId⟩ := members
  have ownId' : (updateEimItem above updateEimEco item).eimIdBuffered = true := ownId
  rw [EimConfigurationData.encodable_iff, and_iff_right ownId', EimConfigurationData.MembersEncodable,
    EimConfigurationData.MembersEncodable, keysEncoding_iff, keysEncoding_iff]
  simp only [EimConfigurationData.membersBuffered, Bool.and_eq_true, updateEimItem, or_encoded _ _ _ publicKey,
    or_encoded _ _ _ trusted, or_all _ _ _ fqdn, or_all _ _ _ protocol, or_all _ _ _ ciPKId]

def updatedMap (above : Bool) (updateEimEco : EimConfigurationData) : EimCfgMap where
  list := updateKey EimConfigurationData.eimId updateEimEco.eimId (updateEimItem above updateEimEco) map.list
  distinct := distinct_updateKey _ _ (updateEimItem above updateEimEco) (fun _ => rfl) _ map.distinct
  complete := forall_updateKey _ _ _ _ _
    (fun item member => updateEimItem_complete above updateEimEco item (map.complete item member)) map.complete

theorem iotEmoDoUpdateEimEco_rewrites {codec : EimCfgCodec} {nv : IpaNvstate} {list : List EimConfigurationData}
    (written : Written codec nv list) (above : Bool) (updateEimEco : EimConfigurationData)
    (present : updateEimEco.eimId ∈ list.map EimConfigurationData.eimId)
    (encodable : updateEimEco.MembersEncodable) :
    ∃ after, iotEmoDoUpdateEimEco codec nv above updateEimEco = .ok (after, resultOk) ∧
      Written codec after (updateKey EimConfigurationData.eimId updateEimEco.eimId
        (updateEimItem above updateEimEco) list) := by
  obtain ⟨after, res, run, still⟩ := written.rewrites
    (updateKey EimConfigurationData.eimId updateEimEco.eimId (updateEimItem above updateEimEco) list)
    (forall_updateKey _ _ _ _ _
      (fun item member =>
          (updateEimItem_encodable_iff above updateEimEco item (written.encodable item member)).mpr encodable)
      written.encodable)
    (forall_updateKey _ _ _ _ _
      (fun item member => updateEimItem_complete above updateEimEco item (written.complete item member))
      written.complete)
    (forall_updateKey _ _ _ _ _ (fun item member => written.generated item member) written.generated)
  unfold iotEmoDoUpdateEimEco
  rw [written.stored]
  simp only [(any_eimId list updateEimEco.eimId).mpr present, if_true, run]
  exact ⟨after, rfl, still⟩

theorem updateEim_refines (holds : Holds codec nv map) (above : Bool) (updateEimEco : EimConfigurationData)
    (present : updateEimEco.eimId ∈ map.list.map EimConfigurationData.eimId)
    (encodable : updateEimEco.MembersEncodable) :
    ∃ after written res, iotEmoDoUpdateEimEco codec nv above updateEimEco = .ok (after, res) ∧
      Holds codec after written ∧ Acts map written (.updateEim above updateEimEco) (.updateEim res) := by
  obtain ⟨after, run, still⟩ := iotEmoDoUpdateEimEco_rewrites holds.written above updateEimEco present encodable
  have updated : Holds codec after (updatedMap map above updateEimEco) := still.holds
  refine ⟨after, _, _, run, updated, rfl, fun front item back split same => ?_⟩
  have distinct := map.distinct
  rw [split] at distinct
  refine ⟨_, updateEimItem_updated above updateEimEco item, ?_⟩
  simp only [updatedMap, split, ← same]
  exact updateKey_split _ _ _ _ _ (first_of_distinct _ _ _ _ distinct)

theorem eimOp_refines (holds : Holds codec nv map) (op : EimOp) (distinct : op.Distinct)
    (meets : Meets codec nv op) :
    ∃ nv' after res, eimOp codec nv op = .ok (nv', res) ∧ Holds codec nv' after ∧ Acts map after op res := by
  have list : storedList codec nv = map.list := by rw [storedList, holds.list, Option.getD_some]
  cases op with
  | addInitialEim req =>
      obtain ⟨after, written, res, run, still, acts⟩ :=
        addInitialEim_refines codec nv map holds req distinct meets.1 meets.2
      exact ⟨after, written, _, by rw [eimOp, run]; rfl, still, acts⟩
  | addEim addEimEco =>
      rw [Meets, list] at meets
      obtain ⟨after, written, res, run, still, acts⟩ := addEim_refines codec nv map holds addEimEco meets
      exact ⟨after, written, _, by rw [eimOp, run]; rfl, still, acts⟩
  | deleteEim eimId =>
      obtain ⟨after, written, res, run, still, acts⟩ := deleteEim_refines codec nv map holds eimId
      exact ⟨after, written, _, by rw [eimOp, run]; rfl, still, acts⟩
  | updateEim above updateEimEco =>
      rw [Meets, list] at meets
      obtain ⟨after, written, res, run, still, acts⟩ :=
        updateEim_refines codec nv map holds above updateEimEco meets.1 meets.2
      exact ⟨after, written, _, by rw [eimOp, run]; rfl, still, acts⟩
  | listEim =>
      refine ⟨nv, map, _, rfl, holds, rfl, ?_⟩
      rw [iotEmoDoListEimEco, holds.list]

theorem eimOp_faults (holds : Holds codec nv map) (op : EimOp) (unmet : ¬ Meets codec nv op) :
    ∃ f, eimOp codec nv op = .error f := by
  have list : storedList codec nv = map.list := by rw [storedList, holds.list, Option.getD_some]
  have writes : ∀ req, ¬ ((∀ cfg ∈ req, cfg.Encodable) ∧
      TokenRoom nv.iotEuiccEmu.associationTokenCounter req) →
        ∃ f, addInitEimIotEmu codec nv req = .error f := by
    intro req unmet
    have result := addInitEimIotEmu_addInitialEim codec nv holds.counter req
    generalize addInitEimIotEmu codec nv req = out at result
    cases result with
    | unencodable lacks => exact ⟨_, rfl⟩
    | overflow noRoom => exact ⟨_, rfl⟩
    | rejected encodable room => exact absurd ⟨encodable, room⟩ unmet
    | accepted encodable room => exact absurd ⟨encodable, room⟩ unmet
  cases op with
  | addInitialEim req =>
      obtain ⟨f, fault⟩ := writes req unmet
      exact ⟨f, by rw [eimOp, fault]; rfl⟩
  | addEim addEimEco =>
      rw [Meets, list, not_or] at unmet
      obtain ⟨absent, unmet⟩ := unmet
      have counted := tokensRequested_append map.list [addEimEco] map.complete holds.generated
      obtain ⟨f, fault⟩ := writes (map.list ++ [addEimEco]) (by
        rintro ⟨encodable, room⟩
        rw [TokenRoom, counted] at room
        exact unmet ⟨encodable addEimEco (by simp), room⟩)
      have notFound : (map.list.any fun cfg => cfg.eimId = addEimEco.eimId) = false :=
        Bool.eq_false_iff.mpr (mt (any_eimId _ _).mp absent)
      refine ⟨f, ?_⟩
      rw [eimOp, iotEmoDoAddEimEco, holds.list]
      simp only [notFound, Bool.false_eq_true, if_false, fault]
      rfl
  | deleteEim eimId => exact absurd trivial unmet
  | updateEim above updateEimEco =>
      rw [Meets, list, not_and] at unmet
      rw [eimOp, iotEmoDoUpdateEimEco, holds.list]
      by_cases present : updateEimEco.eimId ∈ map.list.map EimConfigurationData.eimId
      · obtain ⟨item, member, same⟩ := List.mem_map.mp present
        obtain ⟨front, back, split⟩ := List.append_of_mem member
        have distinct := map.distinct
        rw [split] at distinct
        obtain ⟨f, fault⟩ := writes (updateKey EimConfigurationData.eimId updateEimEco.eimId
            (updateEimItem above updateEimEco) map.list) (by
          rintro ⟨encodable, -⟩
          rw [split, ← same, updateKey_split _ _ _ _ _ (first_of_distinct _ _ _ _ distinct)] at encodable
          exact unmet present ((updateEimItem_encodable_iff above updateEimEco item
            (holds.encodable item member)).mp (encodable _ (by simp))))
        refine ⟨f, ?_⟩
        simp only [(any_eimId map.list updateEimEco.eimId).mpr present, if_true, fault]
        rfl
      · have notFound : (map.list.any fun cfg => cfg.eimId = updateEimEco.eimId) = false :=
          Bool.eq_false_iff.mpr (mt (any_eimId _ _).mp present)
        simp only [notFound, Bool.false_eq_true, if_false]
        exact ⟨_, rfl⟩
  | listEim => exact absurd trivial unmet

theorem fresh_holds : Holds codec .fresh ⟨[], List.nodup_nil, by simp⟩ :=
  ⟨codec.dec_empty, by simp, by simp, by decide⟩

theorem reachable_holds (reached : Reachable codec nv) : ∃ map, Holds codec nv map := by
  induction reached with
  | reset => exact ⟨_, fresh_holds codec⟩
  | step nv reached op distinct meets nv' res run ih =>
      obtain ⟨map, holds⟩ := ih
      obtain ⟨next, after, _, same, still, -⟩ := eimOp_refines codec nv map holds op distinct meets
      rw [run, Except.ok.injEq, Prod.mk.injEq] at same
      exact ⟨after, same.1 ▸ still⟩

/-- In every state of a run whose requests met their conditions the stored configuration is an ordered
map of complete entries, and a further operation acts on it as its abstract counterpart exactly when
its request meets its condition. -/
theorem reachable_refines_iff (reached : Reachable codec nv) :
    (∃ map : EimCfgMap, getEimCfgDataIotEmu codec nv = some map.list) ∧
      ∀ op : EimOp, op.Distinct → (Refines codec nv op ↔ Meets codec nv op) := by
  obtain ⟨map, holds⟩ := reachable_holds codec nv reached
  refine ⟨⟨map, holds.list⟩, fun op distinct => ⟨?_, fun meets => ?_⟩⟩
  · rintro ⟨before, after, nv', res, -, run, -, -⟩
    by_contra unmet
    obtain ⟨f, fault⟩ := eimOp_faults codec nv map holds op unmet
    rw [fault] at run
    cases run
  · obtain ⟨nv', after, res, run, still, acts⟩ := eimOp_refines codec nv map holds op distinct meets
    exact ⟨map, after, nv', res, holds.list, run, still.list, acts⟩

end

def someEim : EimConfigurationData :=
  { eimId := [0x65], eimFqdn := some (.octets [0x61]), counterValue := some 1 }

theorem someEim_refines_iff :
    ∃ nv, eimOp derCodec .fresh (.addEim someEim) = .ok (nv, .addEim (.addEimResultCode resultOk)) ∧
      ((∃ map : EimCfgMap, getEimCfgDataIotEmu derCodec nv = some map.list) ∧
        ∀ op : EimOp, op.Distinct → (Refines derCodec nv op ↔ Meets derCodec nv op)) := by
  have meets : Meets derCodec .fresh (.addEim someEim) := .inr ⟨by decide, by decide⟩
  exact ⟨_, rfl, reachable_refines_iff derCodec _ (.step .fresh .reset (.addEim someEim) trivial meets _ _ rfl)⟩

theorem reset_not_refines :
    ¬ Refines derCodec .fresh (.addEim { someEim with eimPublicKeyData := some .nothing }) ∧
      ¬ Refines derCodec .fresh (.updateEim true someEim) := by
  constructor
  · rintro ⟨_, _, _, _, -, run, -⟩
    have fault : eimOp derCodec .fresh (.addEim { someEim with eimPublicKeyData := some .nothing }) =
        .error .nullDeref := rfl
    rw [fault] at run
    cases run
  · rintro ⟨_, _, _, _, -, run, -⟩
    cases run

end Ipad.EimCfg
