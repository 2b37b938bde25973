import Ipad.Lib.Except
import Ipad.EimCfg.Store

/-!
# The emulated IoT eUICC

The operations that use the non-volatile state, and the session data that LoadBoundProfilePackage
collects for EnableUsingDD.
-/

namespace Ipad.Nvstate
open Ipad.EimCfg Lib.Except

structure Session where
  smdpOid : Option IpaBuf
  smdpAddress : Option IpaBuf
  profileAid : Option IpaBuf

def Session.cleared : Session := { smdpOid := none, smdpAddress := none, profileAid := none }

structure EmuCtx where
  nvstate : IpaNvstate
  session : Session

def EmuCtx.fresh : EmuCtx := { nvstate := .fresh, session := .cleared }

/-- The members of a ProfileInstallationResult that are collected. There is an AID when the profile was
installed. -/
structure PrfleInstRslt where
  seqNumber : Int
  smdpOid : List UInt8
  notificationAddress : List UInt8
  aid : Option (List UInt8)

inductive SegmentAnswer where
  | noResponse
  | empty
  | undecodable
  | installed (result : PrfleInstRslt)

def collectAutoEnableData (result : PrfleInstRslt) : Session :=
  match result.aid with
  | none => .cleared
  | some aid =>
      { smdpOid := some (.ofBytes result.smdpOid)
        smdpAddress := some (.ofBytes result.notificationAddress)
        profileAid := some (.ofBytes aid) }

def loadBndPrflePkg : SegmentAnswer → Session × Bool
  | .noResponse => (.cleared, false)
  | .empty => (.cleared, true)
  | .undecodable => (.cleared, false)
  | .installed result => (collectAutoEnableData result, true)

def configureAutoEnable (autoEnableFlag : Bool) (smdpOid smdpAddress : Option (List UInt8))
    (nv : IpaNvstate) : IpaNvstate :=
  let autoEnable : AutoEnable :=
    { flag := autoEnableFlag, smdpOid := smdpOid.map .ofBytes, smdpAddress := smdpAddress.map .ofBytes }
  { nv with iotEuiccEmu := { nv.iotEuiccEmu with autoEnable } }

/-- The memory is cleared before the eUICC is asked. -/
def euiccMemRstEmu (eimCfgData autoEnableCfg : Bool) (nv : IpaNvstate) : IpaNvstate :=
  let emu := nv.iotEuiccEmu
  let emu := if eimCfgData then { emu with eimCfgBer := none } else emu
  let emu :=
    if autoEnableCfg then
      { emu with autoEnable := { flag := false, smdpOid := none, smdpAddress := none } }
    else emu
  { nv with iotEuiccEmu := emu }

def enableUsingDdOk : Int := 0
def autoEnableNotAvailable : Int := 1
def noSessionContext : Int := 4
def enableUsingDdUndefinedError : Int := 127

def verifies (configured : Option IpaBuf) (session : IpaBuf) : Bool :=
  match configured with
  | none => true
  | some configured =>
      configured.len = session.len ∧ configured.data.take session.len = session.data.take session.len

def enableUsingDdGrant (ctx : EmuCtx) : Except Int (List UInt8) :=
  let configured := ctx.nvstate.iotEuiccEmu.autoEnable
  if configured.flag = false then .error autoEnableNotAvailable
  else if configured.smdpOid = none ∧ configured.smdpAddress = none then .error autoEnableNotAvailable
  else
    match ctx.session.smdpAddress, ctx.session.smdpOid, ctx.session.profileAid with
    | some smdpAddress, some smdpOid, some profileAid =>
        if verifies configured.smdpOid smdpOid && verifies configured.smdpAddress smdpAddress then
          .ok profileAid.bytes
        else .error autoEnableNotAvailable
    | _, _, _ => .error noSessionContext

def enableUsingDdResult (enableResult : Option Int) : Int :=
  if enableResult = some 0 then enableUsingDdOk else enableUsingDdUndefinedError

/-- The status code, and the AID of the EnableProfile request if one is sent. `card` is the result of
EnableProfile for an AID. -/
def enableUsingDdEmu (card : List UInt8 → Option Int) (ctx : EmuCtx) : Int × Option (List UInt8) :=
  match enableUsingDdGrant ctx with
  | .error rc => (rc, none)
  | .ok aid => (enableUsingDdResult (card aid), some aid)

inductive EmuOp where
  | eim (op : EimOp)
  | configureAutoEnable (autoEnableFlag : Bool) (smdpOid smdpAddress : Option (List UInt8))
  | euiccMemRst (eimCfgData autoEnableCfg : Bool) (rc : Int)
  | getEimCfgData
  | loadBndPrflePkg (answer : SegmentAnswer)
  | enableUsingDd (card : List UInt8 → Option Int)

inductive EmuRes where
  | eim (res : EimOpResult)
  | configureAutoEnable
  | euiccMemRst (rc : Int)
  | getEimCfgData (res : Option (List EimConfigurationData))
  | loadBndPrflePkg (done : Bool)
  | enableUsingDd (rc : Int) (enabled : Option (List UInt8))

section
variable (codec : EimCfgCodec)

def emuOp (ctx : EmuCtx) : EmuOp → Except Fault (EmuCtx × EmuRes)
  | .eim op => (eimOp codec ctx.nvstate op).map fun (nvstate, res) => ({ ctx with nvstate }, .eim res)
  | .configureAutoEnable autoEnableFlag smdpOid smdpAddress =>
      .ok ({ ctx with nvstate := configureAutoEnable autoEnableFlag smdpOid smdpAddress ctx.nvstate },
        .configureAutoEnable)
  | .euiccMemRst eimCfgData autoEnableCfg rc =>
      .ok ({ ctx with nvstate := euiccMemRstEmu eimCfgData autoEnableCfg ctx.nvstate }, .euiccMemRst rc)
  | .getEimCfgData => .ok (ctx, .getEimCfgData (getEimCfgDataIotEmu codec ctx.nvstate))
  | .loadBndPrflePkg answer =>
      let (session, done) := loadBndPrflePkg answer
      .ok ({ ctx with session }, .loadBndPrflePkg done)
  | .enableUsingDd card =>
      let (rc, enabled) := enableUsingDdEmu card ctx
      .ok ({ ctx with session := .cleared }, .enableUsingDd rc enabled)

def emuResults : EmuCtx → List EmuOp → List (Except Fault EmuRes)
  | _, [] => []
  | ctx, op :: ops =>
      match emuOp codec ctx op with
      | .error f => [.error f]
      | .ok (ctx, res) => .ok res :: emuResults ctx ops

end

/-! ## What the operations leave alone -/

structure EimCfgStep (nv nv' : IpaNvstate) : Prop where
  version : nv'.version = nv.version
  autoEnable : nv'.iotEuiccEmu.autoEnable = nv.iotEuiccEmu.autoEnable
  eimCfgBer : nv'.iotEuiccEmu.eimCfgBer = nv.iotEuiccEmu.eimCfgBer ∨
    ∃ buf, nv'.iotEuiccEmu.eimCfgBer = some buf ∧ buf.len ≠ 0

theorem EimCfgStep.refl (nv : IpaNvstate) : EimCfgStep nv nv := ⟨rfl, rfl, .inl rfl⟩

section
variable (codec : EimCfgCodec) (nv nv' : IpaNvstate)

theorem addInitEimIotEmu_step (req : List EimConfigurationData) (res : AddInitialEimResponse)
    (run : addInitEimIotEmu codec nv req = .ok (nv', res)) : EimCfgStep nv nv' := by
  unfold addInitEimIotEmu at run
  split at run
  next => cases run
  next counter completed _ =>
    cases completed with
    | none =>
        cases run
        exact ⟨rfl, rfl, .inl rfl⟩
    | some list =>
        simp only at run
        split at run
        next => cases run
        next =>
          cases run
          exact ⟨rfl, rfl, .inl rfl⟩
        next buf encoded =>
          cases run
          obtain ⟨-, rfl⟩ := codec.encAddInitialEimRequest_some encoded
          exact ⟨rfl, rfl, .inr ⟨_, rfl, codec.der_nonempty list⟩⟩

theorem iotEmoDoAddEimEco_step (addEimEco : EimConfigurationData) (res : AddEimResult)
    (run : iotEmoDoAddEimEco codec nv addEimEco = .ok (nv', res)) : EimCfgStep nv nv' := by
  unfold iotEmoDoAddEimEco at run
  split at run
  next => cases run; exact .refl nv
  next list _ =>
    split at run
    next => cases run; exact .refl nv
    next =>
      cases written : addInitEimIotEmu codec nv (list ++ [addEimEco]) with
      | error f => rw [written] at run; cases run
      | ok out =>
          obtain ⟨after, answer⟩ := out
          have step := addInitEimIotEmu_step codec nv after _ _ written
          rw [written] at run
          cases answer with
          | addInitialEimError code => cases run; exact step
          | addInitialEimOk results =>
              simp only at run
              split at run <;> cases run
              · exact step
              · exact step

theorem iotEmoDoDeleteEimEco_step (eimId : List UInt8) (res : Int)
    (run : iotEmoDoDeleteEimEco codec nv eimId = .ok (nv', res)) : EimCfgStep nv nv' := by
  unfold iotEmoDoDeleteEimEco at run
  split at run
  next => cases run; exact .refl nv
  next list _ =>
    split at run
    next =>
      split at run
      next => cases run
      next after answer written =>
        cases run
        exact addInitEimIotEmu_step codec nv _ _ _ written
    next => cases run; exact .refl nv

theorem iotEmoDoUpdateEimEco_step (above : Bool) (updateEimEco : EimConfigurationData) (res : Int)
    (run : iotEmoDoUpdateEimEco codec nv above updateEimEco = .ok (nv', res)) : EimCfgStep nv nv' := by
  unfold iotEmoDoUpdateEimEco at run
  split at run
  next => cases run
  next list _ =>
    split at run
    next =>
      split at run
      next => cases run
      next after answer written =>
        cases run
        exact addInitEimIotEmu_step codec nv _ _ _ written
    next => cases run

theorem eimOp_step (op : EimOp) (res : EimOpResult) (run : eimOp codec nv op = .ok (nv', res)) :
    EimCfgStep nv nv' := by
  cases op with
  | addInitialEim req =>
      obtain ⟨⟨after, answer⟩, written, same⟩ := (map_eq_ok _ _ _).mp run
      cases same
      exact addInitEimIotEmu_step codec nv _ req answer written
  | addEim addEimEco =>
      obtain ⟨⟨after, answer⟩, written, same⟩ := (map_eq_ok _ _ _).mp run
      cases same
      exact iotEmoDoAddEimEco_step codec nv _ addEimEco answer written
  | deleteEim eimId =>
      obtain ⟨⟨after, answer⟩, written, same⟩ := (map_eq_ok _ _ _).mp run
      cases same
      exact iotEmoDoDeleteEimEco_step codec nv _ eimId answer written
  | updateEim above updateEimEco =>
      obtain ⟨⟨after, answer⟩, written, same⟩ := (map_eq_ok _ _ _).mp run
      cases same
      exact iotEmoDoUpdateEimEco_step codec nv _ above updateEimEco answer written
  | listEim =>
      cases run
      exact .refl nv

end

end Ipad.Nvstate
