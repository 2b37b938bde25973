import Ipad.Lib.KeyedList
import Ipad.EimCfg.AddInitEim

/-!
# Emulated eCOs

The eCOs read the configuration, rebuild the list and write it with the emulated AddInitialEim.
-/

namespace Ipad.EimCfg
open Lib.Except Lib.KeyedList Ipad.Nvstate

inductive AddEimResult where
  | associationToken (token : Int)
  | addEimResultCode (code : Int)
  deriving DecidableEq, Repr

inductive ListEimResult where
  | eimIdList (list : List (List UInt8 × Option Int))
  | listEimError (code : Int)
  deriving DecidableEq, Repr

def resultOk : Int := 0
def resultEimNotFound : Int := 1
def resultCommandError : Int := 7
def resultUndefinedError : Int := 127

section
variable (codec : EimCfgCodec) (nv : IpaNvstate)

def iotEmoDoAddEimEco (addEimEco : EimConfigurationData) : Except Fault (IpaNvstate × AddEimResult) :=
  match getEimCfgDataIotEmu codec nv with
  | none => .ok (nv, .addEimResultCode resultUndefinedError)
  | some list =>
      if list.any fun cfg => cfg.eimId = addEimEco.eimId then
        .ok (nv, .addEimResultCode resultCommandError)
      else
        match addInitEimIotEmu codec nv (list ++ [addEimEco]) with
        | .error f => .error f
        | .ok (nv, .addInitialEimError _) => .ok (nv, .addEimResultCode resultUndefinedError)
        | .ok (nv, .addInitialEimOk results) =>
            match results.getLast? with
            | none => .error .outOfBounds
            | some (some token) => .ok (nv, .associationToken token)
            | some none => .ok (nv, .addEimResultCode resultOk)

/-- The result is set when the entry is found, and stays when the write fails. -/
def iotEmoDoDeleteEimEco (eimId : List UInt8) : Except Fault (IpaNvstate × Int) :=
  match getEimCfgDataIotEmu codec nv with
  | none => .ok (nv, resultUndefinedError)
  | some list =>
      if list.any fun cfg => cfg.eimId = eimId then
        match addInitEimIotEmu codec nv (removeKey EimConfigurationData.eimId eimId list) with
        | .error f => .error f
        | .ok (nv, _) => .ok (nv, resultOk)
      else .ok (nv, resultEimNotFound)

/-- The copy of an entry with the members of the request. The two counter values are compared by their
addresses; `above` says that the one of the request does not lie below. -/
def updateEimItem (above : Bool) (updateEimEco item : EimConfigurationData) : EimConfigurationData :=
  { item with
    eimFqdn := updateEimEco.eimFqdn <|> item.eimFqdn
    eimIdType := updateEimEco.eimIdType <|> item.eimIdType
    counterValue :=
      if updateEimEco.counterValue.isSome then
        if above then updateEimEco.counterValue
        else if updateEimEco.eimPublicKeyData.isSome then updateEimEco.counterValue
        else item.counterValue
      else item.counterValue
    eimPublicKeyData := updateEimEco.eimPublicKeyData <|> item.eimPublicKeyData
    trustedPublicKeyDataTls := updateEimEco.trustedPublicKeyDataTls <|> item.trustedPublicKeyDataTls
    eimSupportedProtocol := updateEimEco.eimSupportedProtocol <|> item.eimSupportedProtocol
    euiccCiPKId := updateEimEco.euiccCiPKId <|> item.euiccCiPKId }

/-- All ways out free the copy of the entry, which is set only where the entry was found. -/
def iotEmoDoUpdateEimEco (above : Bool) (updateEimEco : EimConfigurationData) :
    Except Fault (IpaNvstate × Int) :=
  match getEimCfgDataIotEmu codec nv with
  | none => .error .uninitialised
  | some list =>
      if list.any fun cfg => cfg.eimId = updateEimEco.eimId then
        match addInitEimIotEmu codec nv (updateKey EimConfigurationData.eimId updateEimEco.eimId
            (updateEimItem above updateEimEco) list) with
        | .error f => .error f
        | .ok (nv, _) => .ok (nv, resultOk)
      else .error .uninitialised

def iotEmoDoListEimEco : ListEimResult :=
  match getEimCfgDataIotEmu codec nv with
  | none => .listEimError resultCommandError
  | some list => .eimIdList (list.map fun cfg => (cfg.eimId, cfg.eimIdType))

/-! ## Which eCOs can be executed -/

theorem any_eimId (list : List EimConfigurationData) (eimId : List UInt8) :
    (list.any fun cfg => cfg.eimId = eimId) = true ↔ eimId ∈ list.map EimConfigurationData.eimId := by
  simp

variable {codec nv}

theorem iotEmoDoAddEimEco_ok_iff (addEimEco : EimConfigurationData) :
    (∃ out, iotEmoDoAddEimEco codec nv addEimEco = .ok out) ↔
      ∀ list, getEimCfgDataIotEmu codec nv = some list → addEimEco.eimId ∉ list.map EimConfigurationData.eimId →
        Writable nv (list ++ [addEimEco]) := by
  unfold iotEmoDoAddEimEco
  cases getEimCfgDataIotEmu codec nv with
  | none => exact iff_of_true ⟨_, rfl⟩ fun _ found => by cases found
  | some list =>
      simp only
      split
      next present =>
        refine iff_of_true ⟨_, rfl⟩ ?_
        rintro _ ⟨⟩ absent
        exact absurd ((any_eimId list _).mp present) absent
      next absent =>
        have only : (∀ other, some list = some other →
            addEimEco.eimId ∉ other.map EimConfigurationData.eimId → Writable nv (other ++ [addEimEco])) ↔
            Writable nv (list ++ [addEimEco]) := by
          constructor
          · exact fun all => all list rfl (mt (any_eimId list _).mpr absent)
          · rintro here _ ⟨⟩ -
            exact here
        rw [only, ← addInitEimIotEmu_ok_iff codec]
        cases added : addInitEimIotEmu codec nv (list ++ [addEimEco]) with
        | error f => exact iff_of_false not_exists_ok not_exists_ok
        | ok out =>
            obtain ⟨after, response⟩ := out
            refine iff_of_true ?_ ⟨_, rfl⟩
            cases response with
            | addInitialEimError code => exact ⟨_, rfl⟩
            | addInitialEimOk results =>
                -- there is one result for each entry, and at least the entry that was added
                have one := addInitEimIotEmu_results codec nv after _ results added
                simp only
                split
                next empty =>
                  rw [List.getLast?_eq_none_iff.mp empty, List.length_append] at one
                  cases one
                · exact ⟨_, rfl⟩
                · exact ⟨_, rfl⟩

theorem iotEmoDoDeleteEimEco_ok_iff (eimId : List UInt8) :
    (∃ out, iotEmoDoDeleteEimEco codec nv eimId = .ok out) ↔
      ∀ list, getEimCfgDataIotEmu codec nv = some list → eimId ∈ list.map EimConfigurationData.eimId →
        Writable nv (removeKey EimConfigurationData.eimId eimId list) := by
  unfold iotEmoDoDeleteEimEco
  cases getEimCfgDataIotEmu codec nv with
  | none => exact iff_of_true ⟨_, rfl⟩ fun _ found => by cases found
  | some list =>
      simp only
      split
      next present =>
        have only : (∀ other, some list = some other → eimId ∈ other.map EimConfigurationData.eimId →
            Writable nv (removeKey EimConfigurationData.eimId eimId other)) ↔
            Writable nv (removeKey EimConfigurationData.eimId eimId list) := by
          constructor
          · exact fun all => all list rfl ((any_eimId list _).mp present)
          · rintro here _ ⟨⟩ -
            exact here
        rw [only, ← addInitEimIotEmu_ok_iff codec]
        cases addInitEimIotEmu codec nv (removeKey EimConfigurationData.eimId eimId list) with
        | error f => exact iff_of_false not_exists_ok not_exists_ok
        | ok out => exact iff_of_true ⟨_, rfl⟩ ⟨_, rfl⟩
      next absent =>
        refine iff_of_true ⟨_, rfl⟩ ?_
        rintro _ ⟨⟩ present
        exact absurd ((any_eimId list _).mpr present) absent

theorem iotEmoDoUpdateEimEco_ok_iff (above : Bool) (updateEimEco : EimConfigurationData) :
    (∃ out, iotEmoDoUpdateEimEco codec nv above updateEimEco = .ok out) ↔
      ∃ list, getEimCfgDataIotEmu codec nv = some list ∧ updateEimEco.eimId ∈ list.map EimConfigurationData.eimId ∧
        Writable nv (updateKey EimConfigurationData.eimId updateEimEco.eimId
          (updateEimItem above updateEimEco) list) := by
  unfold iotEmoDoUpdateEimEco
  cases getEimCfgDataIotEmu codec nv with
  | none =>
      refine iff_of_false not_exists_ok ?_
      rintro ⟨_, ⟨⟩, -⟩
  | some list =>
      simp only
      split
      next present =>
        have only : (∃ other, some list = some other ∧ updateEimEco.eimId ∈ other.map EimConfigurationData.eimId ∧
            Writable nv (updateKey EimConfigurationData.eimId updateEimEco.eimId
              (updateEimItem above updateEimEco) other)) ↔
            Writable nv (updateKey EimConfigurationData.eimId updateEimEco.eimId
              (updateEimItem above updateEimEco) list) := by
          constructor
          · rintro ⟨_, ⟨⟩, -, here⟩
            exact here
          · exact fun here => ⟨list, rfl, (any_eimId list _).mp present, here⟩
        rw [only, ← addInitEimIotEmu_ok_iff codec]
        cases addInitEimIotEmu codec nv (updateKey EimConfigurationData.eimId updateEimEco.eimId
            (updateEimItem above updateEimEco) list) with
        | error f => exact iff_of_false not_exists_ok not_exists_ok
        | ok out => exact iff_of_true ⟨_, rfl⟩ ⟨_, rfl⟩
      next absent =>
        refine iff_of_false not_exists_ok ?_
        rintro ⟨_, ⟨⟩, present, -⟩
        exact absent ((any_eimId list _).mpr present)

end

end Ipad.EimCfg
