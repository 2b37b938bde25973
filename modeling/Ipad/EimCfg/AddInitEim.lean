import Mathlib.Algebra.Group.Int.Defs
import Mathlib.Data.List.Forall2
import Ipad.Lib.Except
import Ipad.EimCfg.Data
import Ipad.Nvstate.State

namespace Ipad.EimCfg
open Lib.Except Ipad.Nvstate

def completeEimCfg (counter : Int32) (cfg : EimConfigurationData) :
    Except Fault (Int32 × Option EimConfigurationData) :=
  if cfg.eimFqdn = none then .ok (counter, none)
  else if cfg.counterValue = none then .ok (counter, none)
  else if cfg.associationToken = some (-1) then
    if counter = Int32.maxValue then .error .signedOverflow
    else .ok (counter + 1, some { cfg with associationToken := some (counter + 1).toInt })
  else .ok (counter, some cfg)

def completeEimCfgs : Int32 → List EimConfigurationData →
    Except Fault (Int32 × Option (List EimConfigurationData))
  | counter, [] => .ok (counter, some [])
  | counter, cfg :: list =>
      match completeEimCfg counter cfg with
      | .error f => .error f
      | .ok (counter, none) => .ok (counter, none)
      | .ok (counter, some cfg) =>
          match completeEimCfgs counter list with
          | .error f => .error f
          | .ok (counter, none) => .ok (counter, none)
          | .ok (counter, some list) => .ok (counter, some (cfg :: list))

section
variable (codec : EimCfgCodec)

/-- The copy of the request is used without a check that there is one. -/
def completeEimCfgList (counter : Int32) (req : List EimConfigurationData) :
    Except Fault (Int32 × Option (List EimConfigurationData)) :=
  match codec.ipaAsn1cDup req with
  | .error f => .error f
  | .ok none => .error .nullDeref
  | .ok (some reqDup) => completeEimCfgs counter reqDup

inductive AddInitialEimResponse where
  | addInitialEimOk (list : List (Option Int))
  | addInitialEimError (code : Int)
  deriving DecidableEq, Repr

def generateAddInitEimResponse (req : List EimConfigurationData) : AddInitialEimResponse :=
  .addInitialEimOk (req.map EimConfigurationData.associationToken)

def generateAddInitEimResponseErr : AddInitialEimResponse := .addInitialEimError 127

def addInitEimIotEmu (nv : IpaNvstate) (req : List EimConfigurationData) :
    Except Fault (IpaNvstate × AddInitialEimResponse) :=
  match completeEimCfgList codec nv.iotEuiccEmu.associationTokenCounter req with
  | .error f => .error f
  | .ok (counter, completed) =>
      let nv := { nv with iotEuiccEmu := { nv.iotEuiccEmu with associationTokenCounter := counter } }
      match completed with
      | none => .ok (nv, generateAddInitEimResponseErr)
      | some list =>
          match codec.encAddInitialEimRequest list with
          | .error f => .error f
          | .ok none => .ok (nv, generateAddInitEimResponseErr)
          | .ok (some eimCfgNew) =>
              -- the request becomes a GetEimConfigurationDataResponse
              let eimCfgNew := { eimCfgNew with data := eimCfgNew.data.set 1 0x55 }
              .ok ({ nv with iotEuiccEmu := { nv.iotEuiccEmu with eimCfgBer := some eimCfgNew } },
                generateAddInitEimResponse list)

def getEimCfgDataIotEmu (nv : IpaNvstate) : Option (List EimConfigurationData) :=
  codec.decGetEimConfigurationDataResponse <|
    match nv.iotEuiccEmu.eimCfgBer with
    | none => emptyEimCfg
    | some eimCfgBer => eimCfgBer.bytes

end

/-! ## Completion of a list -/

def EimConfigurationData.Complete (cfg : EimConfigurationData) : Prop :=
  cfg.eimFqdn ≠ none ∧ cfg.counterValue ≠ none

instance (cfg : EimConfigurationData) : Decidable cfg.Complete := inferInstanceAs (Decidable (_ ∧ _))

/-- An entry as it is stored: a requested token is generated, everything else stays. -/
def Stored (cfg stored : EimConfigurationData) : Prop :=
  if cfg.associationToken = some (-1) then ∃ token, stored = { cfg with associationToken := some token }
  else stored = cfg

def tokensRequested : List EimConfigurationData → Nat
  | [] => 0
  | cfg :: list =>
      if cfg.Complete then
        (if cfg.associationToken = some (-1) then 1 else 0) + tokensRequested list
      else 0

def TokenRoom (counter : Int32) (list : List EimConfigurationData) : Prop :=
  counter.toInt + tokensRequested list < 2 ^ 31

instance (counter : Int32) (list : List EimConfigurationData) : Decidable (TokenRoom counter list) :=
  inferInstanceAs (Decidable (_ < _))

theorem toInt_succ (counter : Int32) (below : counter.toInt + 1 < 2 ^ 31) :
    (counter + 1).toInt = counter.toInt + 1 := by
  have low := counter.le_toInt
  rw [Int32.toInt_add, Int32.toInt_one, Int.bmod_eq_of_le] <;> omega

theorem eq_maxValue_iff (counter : Int32) :
    counter = Int32.maxValue ↔ ¬ counter.toInt + 1 < 2 ^ 31 := by
  have high := counter.toInt_lt
  rw [← Int32.toInt_inj, show Int32.maxValue.toInt = 2 ^ 31 - 1 from rfl]
  omega

theorem completeEimCfg_incomplete (counter : Int32) (cfg : EimConfigurationData)
    (incomplete : ¬ cfg.Complete) : completeEimCfg counter cfg = .ok (counter, none) := by
  unfold completeEimCfg
  by_cases fqdn : cfg.eimFqdn = none
  · rw [if_pos fqdn]
  · have missing : cfg.counterValue = none := by
      by_contra value
      exact incomplete ⟨fqdn, value⟩
    rw [if_neg fqdn, if_pos missing]

theorem completeEimCfg_complete (counter : Int32) (cfg : EimConfigurationData) (complete : cfg.Complete)
    (kept : cfg.associationToken ≠ some (-1)) : completeEimCfg counter cfg = .ok (counter, some cfg) := by
  rw [completeEimCfg, if_neg complete.1, if_neg complete.2, if_neg kept]

theorem completeEimCfg_token (counter : Int32) (cfg : EimConfigurationData) (complete : cfg.Complete)
    (requested : cfg.associationToken = some (-1)) :
    completeEimCfg counter cfg =
      if counter.toInt + 1 < 2 ^ 31 then
        .ok (counter + 1, some { cfg with associationToken := some (counter + 1).toInt })
      else .error .signedOverflow := by
  rw [completeEimCfg, if_neg complete.1, if_neg complete.2, if_pos requested]
  by_cases top : counter = Int32.maxValue
  · rw [if_pos top, if_neg ((eq_maxValue_iff counter).mp top)]
  · rw [if_neg top, if_pos (not_not.mp (mt (eq_maxValue_iff counter).mpr top))]

inductive Completion (counter : Int32) (list : List EimConfigurationData) :
    Except Fault (Int32 × Option (List EimConfigurationData)) → Prop where
  | overflow (noRoom : ¬ TokenRoom counter list) : Completion counter list (.error .signedOverflow)
  | rejected (room : TokenRoom counter list) (after : Int32)
      (counted : after.toInt = counter.toInt + tokensRequested list)
      (incomplete : ¬ ∀ cfg ∈ list, cfg.Complete) : Completion counter list (.ok (after, none))
  | completed (room : TokenRoom counter list) (after : Int32)
      (counted : after.toInt = counter.toInt + tokensRequested list)
      (complete : ∀ cfg ∈ list, cfg.Complete) (stored : List EimConfigurationData)
      (each : List.Forall₂ Stored list stored)
      (generated : ∀ cfg ∈ stored, cfg.associationToken ≠ some (-1)) :
      Completion counter list (.ok (after, some stored))

private theorem completion_cons (counter next : Int32) (cfg kept : EimConfigurationData)
    (list : List EimConfigurationData) (complete : cfg.Complete)
    (taken : completeEimCfg counter cfg = .ok (next, some kept)) (stores : Stored cfg kept)
    (generated : kept.associationToken ≠ some (-1))
    (count : next.toInt + tokensRequested list = counter.toInt + tokensRequested (cfg :: list))
    (rest : Completion next list (completeEimCfgs next list)) :
    Completion counter (cfg :: list) (completeEimCfgs counter (cfg :: list)) := by
  have step : TokenRoom next list ↔ TokenRoom counter (cfg :: list) := by
    rw [TokenRoom, TokenRoom, count]
  rw [completeEimCfgs, taken]
  simp only
  generalize completeEimCfgs next list = result at rest
  cases rest with
  | overflow noRoom => exact .overflow (mt step.mpr noRoom)
  | rejected room after counted incomplete =>
      exact .rejected (step.mp room) after (by rw [counted, count]) (by simp [complete, incomplete])
  | completed room after counted all stored each others =>
      refine .completed (step.mp room) after (by rw [counted, count]) (by simpa [complete] using all) _
        (.cons stores each) ?_
      rintro other (_ | ⟨_, member⟩)
      · exact generated
      · exact others other member

theorem completeEimCfgs_completion (counter : Int32) (nonneg : 0 ≤ counter.toInt)
    (list : List EimConfigurationData) : Completion counter list (completeEimCfgs counter list) := by
  induction list generalizing counter with
  | nil =>
      exact .completed (by simpa [TokenRoom, tokensRequested] using counter.toInt_lt) counter
        (by simp [tokensRequested]) (by simp) [] .nil (by simp)
  | cons cfg list ih =>
      by_cases complete : cfg.Complete
      · by_cases requested : cfg.associationToken = some (-1)
        · have count : tokensRequested (cfg :: list) = 1 + tokensRequested list := by
            rw [tokensRequested, if_pos complete, if_pos requested]
          have token := completeEimCfg_token counter cfg complete requested
          by_cases below : counter.toInt + 1 < 2 ^ 31
          · rw [if_pos below] at token
            have next := toInt_succ counter below
            refine completion_cons counter _ cfg _ list complete token ?_ ?_ ?_ (ih _ (by omega))
            · rw [Stored, if_pos requested]
              exact ⟨_, rfl⟩
            · simp only [ne_eq, Option.some.injEq]
              omega
            · rw [next, count]
              omega
          · rw [if_neg below] at token
            rw [completeEimCfgs, token]
            exact .overflow (by unfold TokenRoom; rw [count]; omega)
        · have count : tokensRequested (cfg :: list) = tokensRequested list := by
            rw [tokensRequested, if_pos complete, if_neg requested, Nat.zero_add]
          refine completion_cons counter counter cfg cfg list complete
            (completeEimCfg_complete counter cfg complete requested) ?_ requested (by rw [count])
            (ih counter nonneg)
          rw [Stored, if_neg requested]
      · have count : tokensRequested (cfg :: list) = 0 := by
          rw [tokensRequested, if_neg complete]
        rw [completeEimCfgs, completeEimCfg_incomplete counter cfg complete]
        refine .rejected ?_ counter (by rw [count]; simp) (by simp [complete])
        rw [TokenRoom, count]
        simpa using counter.toInt_lt

/-! ## AddInitialEim -/

theorem Stored.encodable {cfg stored : EimConfigurationData} (stores : Stored cfg stored) (encodable : cfg.Encodable) :
    stored.Encodable := by
  unfold Stored at stores
  split at stores
  · obtain ⟨token, rfl⟩ := stores
    exact encodable
  · exact stores ▸ encodable

theorem Stored.complete {cfg stored : EimConfigurationData} (stores : Stored cfg stored)
    (complete : cfg.Complete) : stored.Complete := by
  unfold Stored at stores
  split at stores
  · obtain ⟨token, rfl⟩ := stores
    exact complete
  · exact stores ▸ complete

theorem Stored.eimId {cfg stored : EimConfigurationData} (stores : Stored cfg stored) :
    stored.eimId = cfg.eimId := by
  unfold Stored at stores
  split at stores
  · obtain ⟨token, rfl⟩ := stores
    rfl
  · rw [stores]

theorem forall_of_stored {P : EimConfigurationData → Prop}
    (keeps : ∀ cfg stored, Stored cfg stored → P cfg → P stored) {list stored : List EimConfigurationData}
    (each : List.Forall₂ Stored list stored) (all : ∀ cfg ∈ list, P cfg) : ∀ cfg ∈ stored, P cfg := by
  induction each with
  | nil => simp
  | cons stores each ih =>
      rw [List.forall_mem_cons] at all ⊢
      exact ⟨keeps _ _ stores all.1, ih all.2⟩

inductive AddInitialEim (codec : EimCfgCodec) (nv : IpaNvstate) (req : List EimConfigurationData) :
    Except Fault (IpaNvstate × AddInitialEimResponse) → Prop where
  | unencodable (lacks : ¬ ∀ cfg ∈ req, cfg.Encodable) (f : Fault) : AddInitialEim codec nv req (.error f)
  | overflow (noRoom : ¬ TokenRoom nv.iotEuiccEmu.associationTokenCounter req) :
      AddInitialEim codec nv req (.error .signedOverflow)
  | rejected (encodable : ∀ cfg ∈ req, cfg.Encodable)
      (room : TokenRoom nv.iotEuiccEmu.associationTokenCounter req) (after : IpaNvstate)
      (counter : 0 ≤ after.iotEuiccEmu.associationTokenCounter.toInt)
      (same : getEimCfgDataIotEmu codec after = getEimCfgDataIotEmu codec nv)
      (incomplete : ¬ ∀ cfg ∈ req, cfg.Complete) :
      AddInitialEim codec nv req (.ok (after, .addInitialEimError 127))
  | accepted (encodable : ∀ cfg ∈ req, cfg.Encodable)
      (room : TokenRoom nv.iotEuiccEmu.associationTokenCounter req) (after : IpaNvstate)
      (counter : 0 ≤ after.iotEuiccEmu.associationTokenCounter.toInt)
      (complete : ∀ cfg ∈ req, cfg.Complete) (stored : List EimConfigurationData)
      (each : List.Forall₂ Stored req stored)
      (generated : ∀ cfg ∈ stored, cfg.associationToken ≠ some (-1))
      (list : getEimCfgDataIotEmu codec after = some stored) :
      AddInitialEim codec nv req (.ok (after, .addInitialEimOk (stored.map EimConfigurationData.associationToken)))

theorem completeEimCfgList_encodable (codec : EimCfgCodec) (counter : Int32) {req : List EimConfigurationData}
    (encodable : ∀ cfg ∈ req, cfg.Encodable) :
    completeEimCfgList codec counter req = completeEimCfgs counter req := by
  rw [completeEimCfgList, codec.ipaAsn1cDup_encodable encodable]

theorem completeEimCfgList_not_encodable (codec : EimCfgCodec) (counter : Int32) {req : List EimConfigurationData}
    (lacks : ¬ ∀ cfg ∈ req, cfg.Encodable) : ∃ f, completeEimCfgList codec counter req = .error f := by
  unfold completeEimCfgList
  rcases codec.ipaAsn1cDup_not_encodable lacks with refused | aborted
  · exact ⟨_, by rw [refused]⟩
  · exact ⟨_, by rw [aborted]⟩

theorem addInitEimIotEmu_addInitialEim (codec : EimCfgCodec) (nv : IpaNvstate)
    (nonneg : 0 ≤ nv.iotEuiccEmu.associationTokenCounter.toInt) (req : List EimConfigurationData) :
    AddInitialEim codec nv req (addInitEimIotEmu codec nv req) := by
  unfold addInitEimIotEmu
  by_cases encodable : ∀ cfg ∈ req, cfg.Encodable
  · rw [completeEimCfgList_encodable codec _ encodable]
    have completion := completeEimCfgs_completion nv.iotEuiccEmu.associationTokenCounter nonneg req
    generalize completeEimCfgs nv.iotEuiccEmu.associationTokenCounter req = result at completion
    cases completion with
    | overflow noRoom => exact .overflow noRoom
    | rejected room after counted incomplete =>
        exact .rejected encodable room _ (by simp only; omega) rfl incomplete
    | completed room after counted complete stored each generated =>
        have storable : ∀ cfg ∈ stored, cfg.Encodable :=
          forall_of_stored (fun _ _ stores => stores.encodable) each encodable
        have patched : ({ codec.der stored with data := (codec.der stored).data.set 1 0x55 } : IpaBuf).bytes =
            (codec.der stored).bytes.set 1 0x55 := List.take_set ..
        simp only [codec.encAddInitialEimRequest_encodable storable]
        refine .accepted encodable room _ (by simp only; omega) complete stored each generated ?_
        simp only [getEimCfgDataIotEmu, patched]
        exact codec.dec_der_patched stored storable
  · obtain ⟨f, fault⟩ := completeEimCfgList_not_encodable codec nv.iotEuiccEmu.associationTokenCounter encodable
    rw [fault]
    exact .unencodable encodable f

/-! ## Which lists can be handled -/

theorem completeEimCfgs_ok_iff (counter : Int32) (list : List EimConfigurationData) :
    (∃ out, completeEimCfgs counter list = .ok out) ↔ TokenRoom counter list := by
  induction list generalizing counter with
  | nil => exact iff_of_true ⟨_, rfl⟩ (by simpa [TokenRoom, tokensRequested] using counter.toInt_lt)
  | cons cfg list ih =>
      have goesOn (next : Int32) (kept : EimConfigurationData)
          (taken : completeEimCfg counter cfg = .ok (next, some kept)) :
          (∃ out, completeEimCfgs counter (cfg :: list) = .ok out) ↔ TokenRoom next list := by
        rw [← ih next, completeEimCfgs, taken]
        simp only
        rcases completeEimCfgs next list with f | ⟨after, _ | stored⟩
        · exact iff_of_false not_exists_ok not_exists_ok
        · exact iff_of_true ⟨_, rfl⟩ ⟨_, rfl⟩
        · exact iff_of_true ⟨_, rfl⟩ ⟨_, rfl⟩
      by_cases complete : cfg.Complete
      · by_cases requested : cfg.associationToken = some (-1)
        · have token := completeEimCfg_token counter cfg complete requested
          have count : tokensRequested (cfg :: list) = 1 + tokensRequested list := by
            rw [tokensRequested, if_pos complete, if_pos requested]
          by_cases below : counter.toInt + 1 < 2 ^ 31
          · rw [if_pos below] at token
            rw [goesOn _ _ token, TokenRoom, TokenRoom, toInt_succ counter below, count]
            omega
          · rw [if_neg below] at token
            rw [completeEimCfgs, token, TokenRoom, count]
            exact iff_of_false not_exists_ok (by omega)
        · rw [goesOn counter cfg (completeEimCfg_complete counter cfg complete requested), TokenRoom, TokenRoom,
            tokensRequested, if_pos complete, if_neg requested, Nat.zero_add]
      · rw [completeEimCfgs, completeEimCfg_incomplete counter cfg complete, TokenRoom, tokensRequested,
          if_neg complete]
        exact iff_of_true ⟨_, rfl⟩ (by simpa using counter.toInt_lt)

theorem completeEimCfg_stored {counter after : Int32} {cfg kept : EimConfigurationData}
    (taken : completeEimCfg counter cfg = .ok (after, some kept)) : Stored cfg kept := by
  unfold completeEimCfg at taken
  unfold Stored
  split at taken
  · cases taken
  · split at taken
    · cases taken
    · split at taken
      next requested =>
        rw [if_pos requested]
        split at taken
        · cases taken
        · cases taken
          exact ⟨_, rfl⟩
      next kept' =>
        rw [if_neg kept']
        cases taken
        rfl

theorem completeEimCfgs_stored (counter after : Int32) (list stored : List EimConfigurationData)
    (completed : completeEimCfgs counter list = .ok (after, some stored)) : List.Forall₂ Stored list stored := by
  induction list generalizing counter stored with
  | nil =>
      cases completed
      exact .nil
  | cons cfg list ih =>
      simp only [completeEimCfgs] at completed
      split at completed
      · cases completed
      · cases completed
      next taken =>
        split at completed
        · cases completed
        · cases completed
        next rest =>
          cases completed
          exact .cons (completeEimCfg_stored taken) (ih _ _ rest)

/-- The entries can be copied, and there are enough tokens. -/
structure Writable (nv : IpaNvstate) (req : List EimConfigurationData) : Prop where
  encodable : ∀ cfg ∈ req, cfg.Encodable
  room : TokenRoom nv.iotEuiccEmu.associationTokenCounter req

theorem addInitEimIotEmu_ok_iff (codec : EimCfgCodec) (nv : IpaNvstate) (req : List EimConfigurationData) :
    (∃ out, addInitEimIotEmu codec nv req = .ok out) ↔ Writable nv req := by
  unfold addInitEimIotEmu
  by_cases encodable : ∀ cfg ∈ req, cfg.Encodable
  · rw [completeEimCfgList_encodable codec _ encodable]
    have room := completeEimCfgs_ok_iff nv.iotEuiccEmu.associationTokenCounter req
    cases completed : completeEimCfgs nv.iotEuiccEmu.associationTokenCounter req with
    | error f =>
        rw [completed] at room
        refine iff_of_false not_exists_ok fun writable => ?_
        obtain ⟨_, failed⟩ := room.mpr writable.room
        cases failed
    | ok out =>
        obtain ⟨after, _ | stored⟩ := out
        · exact iff_of_true ⟨_, rfl⟩ ⟨encodable, room.mp ⟨_, completed⟩⟩
        · refine iff_of_true ?_ ⟨encodable, room.mp ⟨_, completed⟩⟩
          have storable := forall_of_stored (fun _ _ stores => stores.encodable)
            (completeEimCfgs_stored _ _ _ _ completed) encodable
          simp only [codec.encAddInitialEimRequest_encodable storable]
          exact ⟨_, rfl⟩
  · obtain ⟨f, fault⟩ := completeEimCfgList_not_encodable codec nv.iotEuiccEmu.associationTokenCounter encodable
    rw [fault]
    exact iff_of_false not_exists_ok fun writable => encodable writable.encodable

theorem addInitEimIotEmu_results (codec : EimCfgCodec) (nv nv' : IpaNvstate) (req : List EimConfigurationData)
    (results : List (Option Int)) (added : addInitEimIotEmu codec nv req = .ok (nv', .addInitialEimOk results)) :
    results.length = req.length := by
  have writable := (addInitEimIotEmu_ok_iff codec nv req).mp ⟨_, added⟩
  rw [addInitEimIotEmu, completeEimCfgList_encodable codec _ writable.encodable] at added
  split at added
  · cases added
  next after completed found =>
    cases completed with
    | none => cases added
    | some stored =>
      simp only at added
      split at added
      · cases added
      · cases added
      · cases added
        rw [List.length_map]
        exact (completeEimCfgs_stored _ _ _ _ found).length_eq.symm

end Ipad.EimCfg
