import Ipad.Nvstate.Emu

/-!
# eUICCMemoryReset

The reset natively and with the emulation, which does its own part before it asks the eUICC for the rest.
-/

namespace Ipad.Nvstate.MemRst
open Ipad.EimCfg Lib.Tlv

/-- `struct ipa_es10b_euicc_mem_rst`. -/
structure EuiccMemRst where
  operatnlProfiles : Bool
  testProfiles : Bool
  defaultSmdpAddr : Bool
  eimCfgData : Bool
  autoEnableCfg : Bool

structure EuiccMemoryResetResponse where
  resetResult : Int

structure Sgp32EuiccMemoryResetResponse where
  resetResult : Int
  resetEimResult : Option Int
  resetAutoEnableConfigResult : Option Int

/-- The coder of asn1c, and the eUICC with the way to it. -/
structure Euicc where
  encSgp32 : BitString → Option (List UInt8)
  enc : BitString → Option (List UInt8)
  transceive : List UInt8 → Option (List UInt8)
  decSgp32 : List UInt8 → Option Sgp32EuiccMemoryResetResponse
  dec : List UInt8 → Option EuiccMemoryResetResponse

def ok : Int := 0
def nothingToDelete : Int := 1

/-- What a function returns whose local may not have been assigned. -/
abbrev Rc := Option Int

def rcEinval : Rc := some Errno.einval.code

def checkResult (rc : Rc) (accepted : List Int) (result : Int) : Rc :=
  if result ∈ accepted then rc else rcEinval

/-- Each of the three checks looks at `resetResult`. -/
def decEuiccMemRstResSgp32 : Option Sgp32EuiccMemoryResetResponse → Rc
  | none => rcEinval
  | some asn =>
      let rc := checkResult none [ok, nothingToDelete] asn.resetResult
      let rc := checkResult rc [ok, nothingToDelete] asn.resetResult
      checkResult rc [ok] asn.resetResult

def decEuiccMemRstRes : Option EuiccMemoryResetResponse → Rc
  | none => rcEinval
  | some asn => checkResult none [ok, nothingToDelete] asn.resetResult

def rstOpt (selected : Bool) (bit : Nat) : UInt8 := if selected then UInt8.ofNat (2 ^ (7 - bit)) else 0

section
variable (euicc : Euicc) (req : EuiccMemRst)

def resetOptionsSgp32 : BitString where
  bytes := [rstOpt req.operatnlProfiles 0 ||| rstOpt req.testProfiles 1 ||| rstOpt req.defaultSmdpAddr 2 |||
    rstOpt req.eimCfgData 3 ||| rstOpt req.autoEnableCfg 4]
  bitsUnused := 3

/-- Six bits are declared unused, the third option is one of them. -/
def resetOptions : BitString where
  bytes := [rstOpt req.operatnlProfiles 0 ||| rstOpt req.testProfiles 1 ||| rstOpt req.defaultSmdpAddr 2]
  bitsUnused := 6

def euiccMemRst : Rc :=
  match euicc.encSgp32 (resetOptionsSgp32 req) with
  | none => rcEinval
  | some es10bReq =>
      match euicc.transceive es10bReq with
      | none => rcEinval
      | some es10bRes => decEuiccMemRstResSgp32 (euicc.decSgp32 es10bRes)

def euiccMemRstEmu (nv : IpaNvstate) : IpaNvstate × Rc :=
  let nv := Nvstate.euiccMemRstEmu req.eimCfgData req.autoEnableCfg nv
  match euicc.enc (resetOptions req) with
  | none => (nv, rcEinval)
  | some es10bReq =>
      match euicc.transceive es10bReq with
      | none => (nv, rcEinval)
      | some es10bRes => (nv, decEuiccMemRstRes (euicc.dec es10bRes))

def ipaEs10bEuiccMemRst (iotEuiccEmuEnabled : Bool) (nv : IpaNvstate) : IpaNvstate × Rc :=
  if iotEuiccEmuEnabled then euiccMemRstEmu euicc req nv else (nv, euiccMemRst euicc req)

/-! ## The answer of the eUICC -/

/-- The response that reaches the decoder, if there is one. -/
def answerSgp32 : Option Sgp32EuiccMemoryResetResponse :=
  (euicc.encSgp32 (resetOptionsSgp32 req)).bind fun es10bReq => (euicc.transceive es10bReq).bind euicc.decSgp32

def answer : Option EuiccMemoryResetResponse :=
  (euicc.enc (resetOptions req)).bind fun es10bReq => (euicc.transceive es10bReq).bind euicc.dec

theorem euiccMemRst_eq : euiccMemRst euicc req = decEuiccMemRstResSgp32 (answerSgp32 euicc req) := by
  unfold euiccMemRst answerSgp32
  cases euicc.encSgp32 (resetOptionsSgp32 req) with
  | none => rfl
  | some es10bReq =>
      simp only [Option.bind_some]
      cases euicc.transceive es10bReq with
      | none => rfl
      | some es10bRes => rfl

theorem euiccMemRstEmu_eq (nv : IpaNvstate) :
    euiccMemRstEmu euicc req nv =
      (Nvstate.euiccMemRstEmu req.eimCfgData req.autoEnableCfg nv, decEuiccMemRstRes (answer euicc req)) := by
  unfold euiccMemRstEmu answer
  cases euicc.enc (resetOptions req) with
  | none => rfl
  | some es10bReq =>
      simp only [Option.bind_some]
      cases euicc.transceive es10bReq with
      | none => rfl
      | some es10bRes => rfl

/-- Only the failures are assigned. -/
theorem decEuiccMemRstResSgp32_eq (asn : Sgp32EuiccMemoryResetResponse) :
    decEuiccMemRstResSgp32 (some asn) = if asn.resetResult = ok then none else rcEinval := by
  unfold decEuiccMemRstResSgp32 checkResult
  by_cases succeeded : asn.resetResult = ok
  · simp [succeeded]
  · simp [succeeded]

theorem decEuiccMemRstRes_eq (asn : EuiccMemoryResetResponse) :
    decEuiccMemRstRes (some asn) = if asn.resetResult ∈ [ok, nothingToDelete] then none else rcEinval := rfl

/-! ## The code that is returned -/

structure Sgp32EuiccMemoryResetResponse.Succeeded (asn : Sgp32EuiccMemoryResetResponse) : Prop where
  resetResult : asn.resetResult ∈ [ok, nothingToDelete]
  resetEimResult : ∀ result, asn.resetEimResult = some result → result ∈ [ok, nothingToDelete]
  resetAutoEnableConfigResult : ∀ result, asn.resetAutoEnableConfigResult = some result → result = ok

def EuiccMemoryResetResponse.Succeeded (asn : EuiccMemoryResetResponse) : Prop :=
  asn.resetResult ∈ [ok, nothingToDelete]

def Succeeds (iotEuiccEmuEnabled : Bool) : Prop :=
  if iotEuiccEmuEnabled then ∃ asn, answer euicc req = some asn ∧ asn.Succeeded
  else ∃ asn, answerSgp32 euicc req = some asn ∧ asn.Succeeded

structure Reports (rc : Rc) (success : Prop) : Prop where
  assigned : rc ≠ none
  zero_iff : rc = some 0 ↔ success
  negative : ¬ success → ∃ code < 0, rc = some code

/-- No success is reported, and natively the first result alone does not look like one. -/
def Fails (iotEuiccEmuEnabled : Bool) : Prop :=
  if iotEuiccEmuEnabled then ∀ asn, answer euicc req = some asn → ¬ asn.Succeeded
  else ∀ asn, answerSgp32 euicc req = some asn → asn.resetResult ≠ ok ∧ ¬ asn.Succeeded

theorem reports_rcEinval_iff (success : Prop) : Reports rcEinval success ↔ ¬ success := by
  constructor
  · exact fun reports succeeded => nomatch reports.zero_iff.mpr succeeded
  · intro failed
    exact ⟨nofun, iff_of_false nofun failed, fun _ => ⟨_, by decide, rfl⟩⟩

theorem not_reports_none (success : Prop) : ¬ Reports none success := fun reports => reports.assigned rfl

theorem reports_native_iff :
    Reports (decEuiccMemRstResSgp32 (answerSgp32 euicc req)) (Succeeds euicc req false) ↔ Fails euicc req false := by
  simp only [Succeeds, Fails, Bool.false_eq_true, if_false]
  cases answerSgp32 euicc req with
  | none =>
      refine ((reports_rcEinval_iff _).trans ?_)
      exact iff_of_true (fun answered => nomatch answered.choose_spec.1) nofun
  | some asn =>
      rw [decEuiccMemRstResSgp32_eq]
      by_cases first : asn.resetResult = ok
      · rw [if_pos first]
        exact iff_of_false (not_reports_none _) fun fails => (fails asn rfl).1 first
      · rw [if_neg first, reports_rcEinval_iff]
        constructor
        · rintro failed _ ⟨⟩
          exact ⟨first, fun succeeded => failed ⟨asn, rfl, succeeded⟩⟩
        · rintro fails ⟨_, ⟨⟩, succeeded⟩
          exact (fails asn rfl).2 succeeded

theorem reports_emu_iff :
    Reports (decEuiccMemRstRes (answer euicc req)) (Succeeds euicc req true) ↔ Fails euicc req true := by
  simp only [Succeeds, Fails, if_true]
  cases answer euicc req with
  | none =>
      refine ((reports_rcEinval_iff _).trans ?_)
      exact iff_of_true (fun answered => nomatch answered.choose_spec.1) nofun
  | some asn =>
      rw [decEuiccMemRstRes_eq]
      by_cases succeeded : asn.resetResult ∈ [ok, nothingToDelete]
      · rw [if_pos succeeded]
        exact iff_of_false (not_reports_none _) fun fails => fails asn rfl succeeded
      · rw [if_neg succeeded, reports_rcEinval_iff]
        constructor
        · rintro failed _ ⟨⟩
          exact succeeded
        · rintro fails ⟨_, ⟨⟩, succeeded⟩
          exact fails asn rfl succeeded

theorem reports_iff (iotEuiccEmuEnabled : Bool) (nv : IpaNvstate) :
    Reports (ipaEs10bEuiccMemRst euicc req iotEuiccEmuEnabled nv).2 (Succeeds euicc req iotEuiccEmuEnabled) ↔
      Fails euicc req iotEuiccEmuEnabled := by
  cases iotEuiccEmuEnabled with
  | false =>
      rw [← reports_native_iff, ← euiccMemRst_eq]
      rfl
  | true =>
      rw [← reports_emu_iff, ipaEs10bEuiccMemRst, if_pos rfl, euiccMemRstEmu_eq]

/-! ## The state after a failure -/

/-- What a caller can be returned. A local that was not assigned can have any value. -/
def Returns (rc : Rc) (code : Int) : Prop := ∀ assigned, rc = some assigned → code = assigned

structure Cleared (before after : IpaNvstate) : Prop where
  version : after.version = before.version
  associationTokenCounter :
    after.iotEuiccEmu.associationTokenCounter = before.iotEuiccEmu.associationTokenCounter
  eimCfgBer : after.iotEuiccEmu.eimCfgBer = if req.eimCfgData then none else before.iotEuiccEmu.eimCfgBer
  autoEnable : after.iotEuiccEmu.autoEnable =
    if req.autoEnableCfg then { flag := false, smdpOid := none, smdpAddress := none }
    else before.iotEuiccEmu.autoEnable

structure Atomic (nv : IpaNvstate) : Prop where
  failure : ∀ code < 0, Returns (euiccMemRstEmu euicc req nv).2 code → (euiccMemRstEmu euicc req nv).1 = nv
  success : Returns (euiccMemRstEmu euicc req nv).2 0 → Cleared req nv (euiccMemRstEmu euicc req nv).1

structure NothingToClear (nv : IpaNvstate) : Prop where
  eimCfgBer : req.eimCfgData = true → nv.iotEuiccEmu.eimCfgBer = none
  autoEnable : req.autoEnableCfg = true →
    nv.iotEuiccEmu.autoEnable = { flag := false, smdpOid := none, smdpAddress := none }

theorem euiccMemRstEmu_cleared (nv : IpaNvstate) :
    Cleared req nv (Nvstate.euiccMemRstEmu req.eimCfgData req.autoEnableCfg nv) := by
  unfold Nvstate.euiccMemRstEmu
  cases eimCfgData : req.eimCfgData <;> cases autoEnableCfg : req.autoEnableCfg <;>
    exact ⟨rfl, rfl, by rw [eimCfgData]; rfl, by rw [autoEnableCfg]; rfl⟩

theorem Cleared.eq_iff {before after : IpaNvstate} (cleared : Cleared req before after) :
    after = before ↔ NothingToClear req before := by
  obtain ⟨version, ⟨counter, eimCfgBer, autoEnable⟩⟩ := before
  obtain ⟨version', ⟨counter', eimCfgBer', autoEnable'⟩⟩ := after
  obtain ⟨sameVersion, sameCounter, eim, auto⟩ := cleared
  simp only at sameVersion sameCounter eim auto
  subst sameVersion sameCounter eim auto
  constructor
  · intro same
    simp only [IpaNvstate.mk.injEq, IotEuiccEmu.mk.injEq, true_and] at same
    refine ⟨fun selected => ?_, fun selected => ?_⟩
    · rw [if_pos selected] at same
      exact same.1.symm
    · rw [if_pos selected] at same
      exact same.2.symm
  · intro nothing
    simp only [IpaNvstate.mk.injEq, IotEuiccEmu.mk.injEq, true_and]
    refine ⟨?_, ?_⟩
    · split
      next selected => exact (nothing.eimCfgBer selected).symm
      · rfl
    · split
      next selected => exact (nothing.autoEnable selected).symm
      · rfl

/-- Whatever the eUICC answers, a negative code is possible. -/
theorem exists_negative (asn : Option EuiccMemoryResetResponse) :
    ∃ code < 0, Returns (decEuiccMemRstRes asn) code := by
  cases asn with
  | none => exact ⟨Errno.einval.code, by decide, fun _ same => Option.some.inj same⟩
  | some asn =>
      rw [decEuiccMemRstRes_eq]
      split
      · exact ⟨-1, by decide, nofun⟩
      · exact ⟨Errno.einval.code, by decide, fun _ same => Option.some.inj same⟩

theorem atomic_iff (nv : IpaNvstate) : Atomic euicc req nv ↔ NothingToClear req nv := by
  have cleared := euiccMemRstEmu_cleared req nv
  rw [← cleared.eq_iff]
  constructor
  · intro atomic
    obtain ⟨code, negative, returns⟩ := exists_negative (answer euicc req)
    have failure := atomic.failure code negative
    rw [euiccMemRstEmu_eq] at failure
    exact failure returns
  · intro same
    refine ⟨fun _ _ _ => ?_, fun _ => ?_⟩
    · rw [euiccMemRstEmu_eq]
      exact same
    · rw [euiccMemRstEmu_eq]
      exact cleared

end

/-! ## An eUICC with one answer -/

def readElements (bytes : List UInt8) : Option (List (List UInt8 × List UInt8)) :=
  (readTlv bytes).bind fun element => readTlvs element.2.1

def derEuicc (es10bRes : List UInt8) : Euicc where
  encSgp32 bits := some (tlv [0xBF, 0x34] (tlv [0x82] (derBitString bits)))
  enc bits := some (tlv [0xBF, 0x34] (tlv [0x82] (derBitString bits)))
  transceive _ := some es10bRes
  decSgp32 bytes :=
    (readElements bytes).bind fun elements => (elements.lookup [0x02]).map fun resetResult =>
      { resetResult := readInteger resetResult
        resetEimResult := (elements.lookup [0x81]).map readInteger
        resetAutoEnableConfigResult := (elements.lookup [0x82]).map readInteger }
  dec bytes :=
    (readElements bytes).bind fun elements => (elements.lookup [0x80]).map fun resetResult =>
      { resetResult := readInteger resetResult }

def resetAutoEnable : EuiccMemRst where
  operatnlProfiles := false
  testProfiles := false
  defaultSmdpAddr := false
  eimCfgData := false
  autoEnableCfg := true

/-- The answer is a success. -/
theorem not_reports_ok :
    ¬ Reports (ipaEs10bEuiccMemRst (derEuicc [0xBF, 0x34, 0x03, 0x02, 0x01, 0x00]) resetAutoEnable false .fresh).2
      (Succeeds (derEuicc [0xBF, 0x34, 0x03, 0x02, 0x01, 0x00]) resetAutoEnable false) :=
  fun reports => reports.assigned (by decide)

def autoEnabled : IpaNvstate :=
  { IpaNvstate.fresh with
    iotEuiccEmu := { IpaNvstate.fresh.iotEuiccEmu with
      autoEnable := { flag := true, smdpOid := none, smdpAddress := none } } }

/-- The answer is catBusy. -/
theorem not_atomic_catBusy :
    ¬ Atomic (derEuicc [0xBF, 0x34, 0x03, 0x80, 0x01, 0x05]) resetAutoEnable autoEnabled := by
  intro atomic
  have busy : (euiccMemRstEmu (derEuicc [0xBF, 0x34, 0x03, 0x80, 0x01, 0x05]) resetAutoEnable autoEnabled).2 =
      rcEinval := by decide
  have failure := atomic.failure Errno.einval.code (by decide)
  rw [busy] at failure
  have same := failure fun _ assigned => Option.some.inj assigned
  revert same
  decide

end Ipad.Nvstate.MemRst
