import Ipad.Proc.Commands
import Ipad.Proc.Queue

/-!
# The IoT eUICC that the IPAd emulates

With the emulation a consumer eUICC and the nvstate together behave as an IoT eUICC does.
-/

namespace Ipad.Proc
open Lib.Dialogue Lib.Except Ipad.EimCfg Ipad.Nvstate Ipad.BppSegments Ipad.Utils

/-! ## A consumer eUICC -/

/-- A command that is refused changes nothing. Deleting a profile leaves the enabled one alone. The strings in the
answers have buffers. -/
structure Consumer (σ : Type) where
  profiles : σ → List ProfileInfo
  enable : σ → List UInt8 → Effect σ × Int
  disable : σ → List UInt8 → Effect σ × Int
  delete : σ → List UInt8 → Effect σ × Int
  rat : σ → List (List UInt8)
  online : σ → Bool
  enable_refused : ∀ s profile, (enable s profile).2 ≠ resultOk → (enable s profile).1 = ⟨s, 0⟩
  disable_refused : ∀ s iccid, (disable s iccid).2 ≠ resultOk → (disable s iccid).1 = ⟨s, 0⟩
  delete_online : ∀ s iccid, online (delete s iccid).1.state = online s
  profiles_buffered : ∀ s, (profiles s).all ProfileInfo.buffered = true

section
variable {σ : Type} (consumer : Consumer σ)

def Consumer.rules (s : σ) : List ProfilePolicyAuthorisationRule :=
  (consumer.rat s).map fun content => { content, buffered := true }

theorem Consumer.rules_buffered (s : σ) :
    (consumer.rules s).all ProfilePolicyAuthorisationRule.buffered = true := by
  simp [Consumer.rules]

def Consumer.serve (w : World σ) : (req : Req) → Option (World σ × Ans req)
  | .getProfilesInfo _ => some (w, some (.profileInfoListOk (consumer.profiles w.state)))
  | .enableProfile _ profile =>
      some (w.perform (consumer.enable w.state profile).1, some (consumer.enable w.state profile).2)
  | .disableProfile iccid =>
      some (w.perform (consumer.disable w.state iccid).1, some (consumer.disable w.state iccid).2)
  | .deleteProfile iccid =>
      some (w.perform (consumer.delete w.state iccid).1, some (consumer.delete w.state iccid).2)
  | .getRat => some (w, some (consumer.rules w.state))
  | _ => none

/-! ## What is emulated -/

structure Emulated (σ : Type) where
  euicc : σ
  nvstate : IpaNvstate
  rollbackIccid : Option (List UInt8)

def Emulated.moved (s : Emulated σ) (effect : Effect σ) : Effect (Emulated σ) :=
  ⟨{ s with euicc := effect.state }, effect.raised⟩

def Consumer.psmo (s : Emulated σ) : Psmo → Effect (Emulated σ) × Option EuiccResultData
  | .enable iccid _ =>
      (s.moved (consumer.enable s.euicc iccid).1, some (.enableResult (consumer.enable s.euicc iccid).2))
  | .disable iccid =>
      (s.moved (consumer.disable s.euicc iccid).1, some (.disableResult (consumer.disable s.euicc iccid).2))
  | .delete iccid =>
      (s.moved (consumer.delete s.euicc iccid).1, some (.deleteResult (consumer.delete s.euicc iccid).2))
  | .listProfileInfo _ => (⟨s, 0⟩, some (.listProfileInfoResult (.profileInfoListOk (consumer.profiles s.euicc))))
  | .getRat => (⟨s, 0⟩, some (.getRatResult (consumer.rules s.euicc)))
  | .configureAutoEnable autoEnableFlag smdpOid smdpAddress =>
      (⟨{ s with nvstate := configureAutoEnable autoEnableFlag smdpOid smdpAddress s.nvstate }, 0⟩,
        some (.configureAutoEnableResult resultOk))
  | .unsupported => (⟨s, 0⟩, none)

/-- The effects add up, and the results stand in the order of the commands. -/
def Consumer.psmos (s : Emulated σ) : List Psmo → Effect (Emulated σ) × List EuiccResultData
  | [] => (⟨s, 0⟩, [])
  | psmo :: rest =>
      let (first, result) := consumer.psmo s psmo
      let (others, results) := psmos first.state rest
      (⟨others.state, first.raised + others.raised⟩, result.toList ++ results)

section
variable (codec : EimCfgCodec)

def ecoStep (nv : IpaNvstate) : Eco → Except Fault (IpaNvstate × Option EuiccResultData)
  | .addEim addEim => (iotEmoDoAddEimEco codec nv addEim).map fun (nv, res) => (nv, some (.addEimResult res))
  | .deleteEim eimId => (iotEmoDoDeleteEimEco codec nv eimId).map fun (nv, res) => (nv, some (.deleteEimResult res))
  | .updateEim above updateEim =>
      (iotEmoDoUpdateEimEco codec nv above updateEim).map fun (nv, res) => (nv, some (.updateEimResult res))
  | .listEim => .ok (nv, some (.listEimResult (iotEmoDoListEimEco codec nv)))
  | .unsupported => .ok (nv, none)

def ecoSteps (nv : IpaNvstate) : List Eco → Except Fault (IpaNvstate × List EuiccResultData)
  | [] => .ok (nv, [])
  | eco :: rest =>
      match ecoStep codec nv eco with
      | .error f => .error f
      | .ok (nv, result) => (ecoSteps nv rest).map fun (nv, results) => (nv, result.toList ++ results)

/-- The profile to come back to is the enabled one. Without an ICCID it does not take the place of the last. -/
def Consumer.remembered (s : Emulated σ) : Option (List UInt8) :=
  match (consumer.profiles s.euicc).find? fun prfleInfo => prfleInfo.profileState = some profileStateEnabled with
  | none => none
  | some prfle => prfle.iccid.or s.rollbackIccid

def Consumer.execute (s : Emulated σ) (req : EuiccPackageRequest) : Effect (Emulated σ) × List EuiccResultData :=
  let s := { s with rollbackIccid := consumer.remembered s }
  match req.euiccPackage with
  | .psmoList list => consumer.psmos s list
  | .ecoList list =>
      match ecoSteps codec s.nvstate list with
      | .ok (nvstate, results) => (⟨{ s with nvstate }, 0⟩, results)
      | .error _ => (⟨s, 0⟩, [])
  | .nothing => (⟨s, 0⟩, [])

def Consumer.rollback (s : Emulated σ) : Option (Effect (Emulated σ)) :=
  s.rollbackIccid.bind fun iccid =>
    if (consumer.enable s.euicc iccid).2 = resultOk then some (s.moved (consumer.enable s.euicc iccid).1) else none

variable {consumer}

theorem Consumer.psmo_steady (s : Emulated σ) (psmo : Psmo)
    (unchanged : ∀ result, (consumer.psmo s psmo).2 = some result → result.changesProfile = false) :
    consumer.online (consumer.psmo s psmo).1.state.euicc = consumer.online s.euicc := by
  cases psmo with
  | enable iccid rollbackFlag =>
      have result := unchanged (.enableResult (consumer.enable s.euicc iccid).2) rfl
      have refused := consumer.enable_refused s.euicc iccid (of_decide_eq_false result)
      simp only [Consumer.psmo, Emulated.moved, refused]
  | disable iccid =>
      have result := unchanged (.disableResult (consumer.disable s.euicc iccid).2) rfl
      have refused := consumer.disable_refused s.euicc iccid (of_decide_eq_false result)
      simp only [Consumer.psmo, Emulated.moved, refused]
  | delete iccid => exact consumer.delete_online s.euicc iccid
  | listProfileInfo => rfl
  | getRat => rfl
  | configureAutoEnable => rfl
  | unsupported => rfl

theorem Consumer.psmos_steady (s : Emulated σ) (list : List Psmo)
    (unchanged : (consumer.psmos s list).2.any EuiccResultData.changesProfile = false) :
    consumer.online (consumer.psmos s list).1.state.euicc = consumer.online s.euicc := by
  induction list generalizing s with
  | nil => rfl
  | cons psmo rest ih =>
      simp only [Consumer.psmos, List.any_append, Bool.or_eq_false_iff] at unchanged ⊢
      rw [ih _ unchanged.2]
      apply Consumer.psmo_steady
      intro result given
      have first := unchanged.1
      rw [given] at first
      simpa using first

theorem Consumer.psmo_encodable (s : Emulated σ) (psmo : Psmo) :
    (consumer.psmo s psmo).2.all EuiccResultData.encodable = true := by
  cases psmo with
  | listProfileInfo =>
      simp [Consumer.psmo, EuiccResultData.encodable, ProfileInfoListResponse.encoding, consumer.profiles_buffered]
  | getRat => exact consumer.rules_buffered s.euicc
  | _ => rfl

theorem Consumer.psmos_encodable (s : Emulated σ) (list : List Psmo) :
    (consumer.psmos s list).2.all EuiccResultData.encodable = true := by
  induction list generalizing s with
  | nil => rfl
  | cons psmo rest ih =>
      have first := consumer.psmo_encodable s psmo
      simp only [Consumer.psmos, List.all_append, Bool.and_eq_true]
      refine ⟨?_, ih _⟩
      cases given : (consumer.psmo s psmo).2 with
      | none => rfl
      | some result => simpa [given] using first

theorem ecoStep_encodable {nv : IpaNvstate} {eco : Eco} {out : IpaNvstate × Option EuiccResultData}
    (done : ecoStep codec nv eco = .ok out) : out.2.toList.all EuiccResultData.encodable = true := by
  cases eco with
  | addEim =>
      obtain ⟨added, -, rfl, rfl⟩ := map_eq_ok _ _ _ |>.mp done
      rfl
  | deleteEim =>
      obtain ⟨deleted, -, rfl, rfl⟩ := map_eq_ok _ _ _ |>.mp done
      rfl
  | updateEim =>
      obtain ⟨updated, -, rfl, rfl⟩ := map_eq_ok _ _ _ |>.mp done
      rfl
  | listEim =>
      cases done
      rfl
  | unsupported =>
      cases done
      rfl

theorem ecoSteps_encodable {nv : IpaNvstate} {list : List Eco} {out : IpaNvstate × List EuiccResultData}
    (done : ecoSteps codec nv list = .ok out) : out.2.all EuiccResultData.encodable = true := by
  induction list generalizing nv out with
  | nil =>
      cases done
      rfl
  | cons eco rest ih =>
      unfold ecoSteps at done
      cases first : ecoStep codec nv eco with
      | error f =>
          rw [first] at done
          cases done
      | ok stepped =>
          rw [first] at done
          obtain ⟨others, ran, rfl⟩ := map_eq_ok _ _ _ |>.mp done
          rw [List.all_append, ecoStep_encodable codec first, ih ran]
          rfl

variable (consumer)

/-- The emulated IoT eUICC. -/
def Consumer.emulated : Device (Emulated σ) where
  execute := consumer.execute codec
  rollback := consumer.rollback
  online s := consumer.online s.euicc
  encodable s req := by
    unfold Consumer.execute
    cases found : req.euiccPackage with
    | psmoList list => exact consumer.psmos_encodable _ list
    | ecoList list =>
        dsimp only
        split
        next ran => exact ecoSteps_encodable codec ran
        · rfl
    | nothing => rfl
  steady s req unchanged := by
    unfold Consumer.execute at unchanged ⊢
    cases found : req.euiccPackage with
    | psmoList list =>
        simp only [found] at unchanged ⊢
        exact Consumer.psmos_steady _ list unchanged
    | ecoList list =>
        dsimp only
        split
        · rfl
        · rfl
    | nothing => rfl

/-- What the eCOs of a list write can be written. -/
def Emulated.Supports (s : Emulated σ) (req : EuiccPackageRequest) : Prop :=
  req.buffered = true ∧ match req.euiccPackage with
  | .psmoList _ => True
  | .ecoList list => (∀ eco ∈ list, eco ≠ .unsupported) ∧ EcosExecutable codec s.nvstate list
  | .nothing => False

end

/-! ## The emulation in the IPAd -/

/-- The state of the emulated eUICC lies on both sides. -/
def emulatedBy (ctx : IpaContext) (s : σ) : Emulated σ := ⟨s, ctx.emu.nvstate, ctx.rollbackIccid⟩

def Emulated.store (s : Emulated σ) (ctx : IpaContext) : IpaContext :=
  { ctx.setNvstate s.nvstate with rollbackIccid := s.rollbackIccid }

section
variable {reach : σ → Bool} {w : World σ} {ctx : IpaContext}

theorem arrives_idle {α : Type} {euicc : Server (World σ) Req Ans} {program : ProcM α} {out : Except Abort α}
    (arrives : Arrives (serveWith reach euicc) program w out w) :
    Arrives (serveWith reach euicc) program w out (w.perform ⟨w.state, 0⟩) := by
  rw [World.perform_none]
  exact arrives

variable (reach)

theorem ipaEs10cGetPrfleInfo_arrives (ctx : IpaContext) (purpose : Purpose) :
    ∃ res, Arrives (serveWith reach consumer.serve) (ipaEs10cGetPrfleInfo ctx purpose) w (.ok (some res)) w ∧
      res.prfleInfoListErr = 0 ∧ res.sgp32Res = .profileInfoListOk (consumer.profiles w.state) ∧
      res.currentlyActivePrfle =
        (consumer.profiles w.state).find? fun prfleInfo => prfleInfo.profileState = some profileStateEnabled := by
  have answers : serveWith reach consumer.serve w (.getProfilesInfo purpose) =
      some (w, some (.profileInfoListOk (consumer.profiles w.state))) := rfl
  have reads : Arrives (serveWith reach consumer.serve) (getProfilesInfo purpose) w
      (.ok (some (.profileInfoListOk (consumer.profiles w.state)))) w := by
    cases purpose with
    | psmo => exact arrives_send (serveWith_encode rfl) answers
    | rollback => exact arrives_request answers
    | autoEnable => exact arrives_request answers
  refine ⟨_, reads.bind (arrives_pure _ _ _), ?_⟩
  cases ctx.iotEuiccEmuEnabled with
  | false => exact ⟨rfl, rfl, rfl⟩
  | true => exact ⟨rfl, rfl, rfl⟩

theorem iotEmoDoPsmo_arrives (ctx : IpaContext) (w : World σ) (psmo : Psmo) :
    Arrives (serveWith reach consumer.serve) (iotEmoDoPsmo ctx psmo) w
      (.ok ((consumer.psmo (emulatedBy ctx w.state) psmo).1.state.store ctx,
        (consumer.psmo (emulatedBy ctx w.state) psmo).2))
      (w.perform ⟨(consumer.psmo (emulatedBy ctx w.state) psmo).1.state.euicc,
        (consumer.psmo (emulatedBy ctx w.state) psmo).1.raised⟩) := by
  cases psmo with
  | enable iccid rollbackFlag =>
      have answers : serveWith reach consumer.serve w (.enableProfile .psmo iccid) =
          some (w.perform (consumer.enable w.state iccid).1, some (consumer.enable w.state iccid).2) := rfl
      exact (arrives_send (serveWith_encode rfl) answers).bind (arrives_pure _ _ _)
  | disable iccid =>
      have answers : serveWith reach consumer.serve w (.disableProfile iccid) =
          some (w.perform (consumer.disable w.state iccid).1, some (consumer.disable w.state iccid).2) := rfl
      exact (arrives_send (serveWith_encode rfl) answers).bind (arrives_pure _ _ _)
  | delete iccid =>
      have answers : serveWith reach consumer.serve w (.deleteProfile iccid) =
          some (w.perform (consumer.delete w.state iccid).1, some (consumer.delete w.state iccid).2) := rfl
      exact (arrives_send (serveWith_encode rfl) answers).bind (arrives_pure _ _ _)
  | listProfileInfo purpose =>
      obtain ⟨res, retrieved, -, list, -⟩ := @ipaEs10cGetPrfleInfo_arrives _ consumer reach w ctx .psmo
      apply arrives_idle
      apply Arrives.bind (a := .listProfileInfoResult (.profileInfoListOk (consumer.profiles w.state)))
      · have copied : res.sgp32Res.encoding = .encoded := by
          simp [list, ProfileInfoListResponse.encoding, consumer.profiles_buffered]
        apply retrieved.bind
        simp only [copied, if_true]
        rw [list]
        exact arrives_pure _ _ _
      · exact arrives_pure _ _ _
  | getRat =>
      have answers : serveWith reach consumer.serve w .getRat = some (w, some (consumer.rules w.state)) := rfl
      apply arrives_idle
      apply Arrives.bind (a := .getRatResult (consumer.rules w.state))
      · apply (arrives_request answers).bind
        simp only [Option.getD_some, consumer.rules_buffered, if_true]
        exact arrives_pure _ _ _
      · exact arrives_pure _ _ _
  | configureAutoEnable autoEnableFlag smdpOid smdpAddress =>
      apply arrives_idle
      exact arrives_pure _ _ _
  | unsupported =>
      apply arrives_idle
      exact arrives_pure _ _ _

theorem psmos_arrives (ctx : IpaContext) (w : World σ) (list : List Psmo) :
    Arrives (serveWith reach consumer.serve) (iotEmoDoList iotEmoDoPsmo ctx list) w
      (.ok ((consumer.psmos (emulatedBy ctx w.state) list).1.state.store ctx,
        (consumer.psmos (emulatedBy ctx w.state) list).2))
      (w.perform ⟨(consumer.psmos (emulatedBy ctx w.state) list).1.state.euicc,
        (consumer.psmos (emulatedBy ctx w.state) list).1.raised⟩) := by
  induction list generalizing ctx w with
  | nil =>
      apply arrives_idle
      exact arrives_pure _ _ _
  | cons psmo rest ih =>
      apply (iotEmoDoPsmo_arrives consumer reach ctx w psmo).bind
      apply (ih _ _).bind
      rw [World.perform_perform]
      exact arrives_pure _ _ _

section
variable (codec : EimCfgCodec) {euicc : Server (World σ) Req Ans}

theorem ofExcept_arrives {α : Type} {result : Except Fault α} {a : α} (done : result = .ok a) :
    Arrives (serveWith reach euicc) (ofExcept result) w (.ok a) w := by
  rw [done]
  exact arrives_pure _ _ _

theorem iotEmoDoEco_arrives (ctx : IpaContext) (w : World σ) {eco : Eco} {nv : IpaNvstate}
    {result : Option EuiccResultData} (done : ecoStep codec ctx.emu.nvstate eco = .ok (nv, result)) :
    Arrives (serveWith reach euicc) (iotEmoDoEco codec ctx eco) w (.ok (ctx.setNvstate nv, result)) w := by
  unfold ecoStep at done
  cases eco with
  | addEim cfg =>
      obtain ⟨out, added, rfl, rfl⟩ := map_eq_ok _ _ _ |>.mp done
      exact (ofExcept_arrives reach added).bind (arrives_pure _ _ _)
  | deleteEim eimId =>
      obtain ⟨out, deleted, rfl, rfl⟩ := map_eq_ok _ _ _ |>.mp done
      exact (ofExcept_arrives reach deleted).bind (arrives_pure _ _ _)
  | updateEim above cfg =>
      obtain ⟨out, updated, rfl, rfl⟩ := map_eq_ok _ _ _ |>.mp done
      exact (ofExcept_arrives reach updated).bind (arrives_pure _ _ _)
  | listEim =>
      cases done
      exact arrives_pure _ _ _
  | unsupported =>
      cases done
      exact arrives_pure _ _ _

theorem ecos_arrives (ctx : IpaContext) (w : World σ) {list : List Eco} {nv : IpaNvstate}
    {results : List EuiccResultData} (done : ecoSteps codec ctx.emu.nvstate list = .ok (nv, results)) :
    Arrives (serveWith reach euicc) (iotEmoDoList (iotEmoDoEco codec) ctx list) w
      (.ok (ctx.setNvstate nv, results)) w := by
  induction list generalizing ctx nv results with
  | nil =>
      cases done
      exact arrives_pure _ _ _
  | cons eco rest ih =>
      unfold ecoSteps at done
      cases first : ecoStep codec ctx.emu.nvstate eco with
      | error f =>
          rw [first] at done
          cases done
      | ok out =>
          obtain ⟨nv', result⟩ := out
          rw [first] at done
          obtain ⟨others, ran, rfl, rfl⟩ := map_eq_ok _ _ _ |>.mp done
          apply (iotEmoDoEco_arrives reach codec ctx w first).bind
          apply (ih (ctx.setNvstate nv') ran).bind
          exact arrives_pure _ _ _

theorem ecoStep_of_executable {nv : IpaNvstate} {eco : Eco} (supported : eco ≠ .unsupported)
    (executable : eco.Executable codec nv) :
    ∃ nv' result, EcoResult codec nv eco nv' result ∧ ecoStep codec nv eco = .ok (nv', some result) := by
  unfold ecoStep
  cases eco with
  | addEim cfg =>
      obtain ⟨out, added⟩ := (iotEmoDoAddEimEco_ok_iff cfg).mpr executable
      exact ⟨_, _, .addEim cfg _ _ added, (map_eq_ok _ _ _).mpr ⟨out, added, rfl⟩⟩
  | deleteEim eimId =>
      obtain ⟨out, deleted⟩ := (iotEmoDoDeleteEimEco_ok_iff eimId).mpr executable
      exact ⟨_, _, .deleteEim eimId _ _ deleted, (map_eq_ok _ _ _).mpr ⟨out, deleted, rfl⟩⟩
  | updateEim above cfg =>
      obtain ⟨out, updated⟩ := (iotEmoDoUpdateEimEco_ok_iff above cfg).mpr executable
      exact ⟨_, _, .updateEim above cfg _ _ updated, (map_eq_ok _ _ _).mpr ⟨out, updated, rfl⟩⟩
  | listEim => exact ⟨_, _, .listEim, rfl⟩
  | unsupported => exact absurd rfl supported

theorem ecoSteps_of_executable {nv : IpaNvstate} {list : List Eco} (supported : ∀ eco ∈ list, eco ≠ .unsupported)
    (executable : EcosExecutable codec nv list) : ∃ out, ecoSteps codec nv list = .ok out := by
  induction list generalizing nv with
  | nil => exact ⟨_, rfl⟩
  | cons eco rest ih =>
      rw [List.forall_mem_cons] at supported
      obtain ⟨nv', result, done, stepped⟩ := ecoStep_of_executable codec supported.1 executable.1
      obtain ⟨out, ran⟩ := ih supported.2 (executable.2 nv' result done)
      refine ⟨(out.1, (some result).toList ++ out.2), ?_⟩
      rw [ecoSteps, stepped]
      dsimp only
      rw [ran]
      rfl

theorem updateRollbackIccid_arrives (ctx : IpaContext) (w : World σ) :
    Arrives (serveWith reach consumer.serve) (updateRollbackIccid ctx) w
      (.ok { ctx with rollbackIccid := consumer.remembered (emulatedBy ctx w.state) }) w := by
  obtain ⟨res, retrieved, ok, -, active⟩ := @ipaEs10cGetPrfleInfo_arrives _ consumer reach w ctx .rollback
  have remembered : updatedRollbackIccid ctx.rollbackIccid (some res) =
      consumer.remembered (emulatedBy ctx w.state) := by
    unfold Consumer.remembered
    cases found : (consumer.profiles w.state).find? fun prfleInfo =>
      prfleInfo.profileState = some profileStateEnabled with
    | none => simp only [emulatedBy, found, updatedRollbackIccid_idle ok (active.trans found)]
    | some prfle => simp only [emulatedBy, found, updatedRollbackIccid_active ok (active.trans found)]
  rw [← remembered]
  exact retrieved.bind (arrives_pure _ _ _)

/-- A supported package is executed as the emulated eUICC would execute it. -/
theorem loadEuiccPkgIotEmu_arrives (ctx : IpaContext) (w : World σ) (req : EuiccPackageRequest)
    (supported : (emulatedBy ctx w.state).Supports codec req) :
    Arrives (serveWith reach consumer.serve) (loadEuiccPkgIotEmu codec ctx req) w
      (.ok ((consumer.execute codec (emulatedBy ctx w.state) req).1.state.store ctx,
        euiccPackageResult ctx req (req.transactionId.map OctetString.bytes)
          (consumer.execute codec (emulatedBy ctx w.state) req).2))
      (w.perform ⟨(consumer.execute codec (emulatedBy ctx w.state) req).1.state.euicc,
        (consumer.execute codec (emulatedBy ctx w.state) req).1.raised⟩) := by
  obtain ⟨buffered, supported⟩ := supported
  have duplicated : dupTransactionId req.transactionId = .ok (req.transactionId.map OctetString.bytes) :=
    dupTransactionId_ok_iff.mpr ⟨buffered, rfl⟩
  unfold loadEuiccPkgIotEmu Consumer.execute
  apply (updateRollbackIccid_arrives consumer reach ctx w).bind
  apply (ofExcept_arrives reach duplicated).bind
  cases package : req.euiccPackage with
  | psmoList list =>
      apply (psmos_arrives consumer reach _ w list).bind
      exact arrives_pure _ _ _
  | ecoList list =>
      rw [package] at supported
      obtain ⟨out, ran⟩ := ecoSteps_of_executable codec supported.1 supported.2
      dsimp only
      rw [show ecoSteps codec (emulatedBy ctx w.state).nvstate list = .ok out from ran]
      apply arrives_idle
      let refreshed := { ctx with rollbackIccid := consumer.remembered (emulatedBy ctx w.state) }
      apply (ecos_arrives reach codec refreshed w ran).bind
      exact arrives_pure _ _ _
  | nothing =>
      rw [package] at supported
      cases supported

variable {reach}

theorem ipaEs10bPrfleRollback_emulated (emulated : ctx.iotEuiccEmuEnabled = true) {pending : DwnldExecRes}
    (executed : ctx.procEuccPkgDwnldExecRes = some pending) {signed : EuiccPackageResultSigned}
    (loaded : pending.loadEuiccPkgRes.res = .euiccPackageResultSigned signed) {iccid : List UInt8}
    (known : ctx.rollbackIccid = some iccid) :
    Arrives (serveWith reach consumer.serve) (ipaEs10bPrfleRollback ctx) w
      (.ok (some
        { cmdResult := rollbackCmdResult (consumer.enable w.state iccid).2
          eUICCPackageResult := some (.euiccPackageResultSigned
            { signed with
              euiccResult := signed.euiccResult ++ [.rollbackResult
                (if rollbackCmdResult (consumer.enable w.state iccid).2 = resultOk then resultOk
                 else resultUndefinedError)] }) }))
      (w.perform (consumer.enable w.state iccid).1) := by
  have marks : serveWith reach consumer.serve w (.mark .prfleRollback) = some (w, ()) := rfl
  have answers : serveWith reach consumer.serve w (.enableProfile .rollback iccid) =
      some (w.perform (consumer.enable w.state iccid).1, some (consumer.enable w.state iccid).2) := rfl
  apply (arrives_request marks).bind
  rw [emulated, if_pos rfl, prfleRollbackEmu, known]
  apply (arrives_request answers).bind
  dsimp only
  rw [executed]
  dsimp only
  rw [loaded]
  simp only [appendRollbackResult, decide_eq_true_eq]
  exact arrives_pure _ _ _

theorem emulated_hosts (eimId : List UInt8) :
    Hosts true eimId codec consumer.online consumer.serve (consumer.emulated codec) emulatedBy
      (Emulated.Supports codec) where
  online _ _ := rfl
  pending _ _ _ := rfl
  load ctx w req mode eim supported := by
    have loads := loadEuiccPkgIotEmu_arrives consumer consumer.online codec ctx w req supported
    refine ⟨(consumer.execute codec (emulatedBy ctx w.state) req).1.state.store ctx, _, mode, eim, rfl, ?_⟩
    rw [ipaEs10bLoadEuiccPkg, ← eim]
    apply Arrives.bind
    · rw [loadEuiccPkg, mode]
      apply loads.bind
      exact arrives_pure _ _ _
    · exact arrives_pure _ _ _
  rollback ctx w pending signed back mode executed loaded _ rolls := by
    obtain ⟨iccid, known, enabled⟩ := Option.bind_eq_some_iff.mp rolls
    have rolling := @ipaEs10bPrfleRollback_emulated _ consumer consumer.online w ctx mode pending executed signed
      loaded iccid known
    by_cases ok : (consumer.enable w.state iccid).2 = resultOk
    · rw [if_pos (show (consumer.enable (emulatedBy ctx w.state).euicc iccid).2 = resultOk from ok)] at enabled
      cases enabled
      refine ⟨(consumer.enable w.state iccid).1.state, rfl, ?_⟩
      rw [ok] at rolling
      exact rolling
    · rw [if_neg (show (consumer.enable (emulatedBy ctx w.state).euicc iccid).2 ≠ resultOk from ok)] at enabled
      cases enabled
  noRollback ctx w pending signed mode executed loaded noProfile := by
    cases known : ctx.rollbackIccid with
    | none =>
        have marks : serveWith consumer.online consumer.serve w (.mark .prfleRollback) = some (w, ()) := rfl
        refine ⟨none, ?_, by simp⟩
        apply (arrives_request marks).bind
        rw [mode, if_pos rfl, prfleRollbackEmu, known]
        exact arrives_pure _ _ _
    | some iccid =>
        have rolling := @ipaEs10bPrfleRollback_emulated _ consumer consumer.online w ctx mode pending executed signed
          loaded iccid known
        have refused : (consumer.enable w.state iccid).2 ≠ resultOk := by
          intro ok
          have rolls := Option.bind_eq_none_iff.mp noProfile iccid known
          rw [if_pos (show (consumer.enable (emulatedBy ctx w.state).euicc iccid).2 = resultOk from ok)] at rolls
          cases rolls
        rw [consumer.enable_refused _ _ refused, World.perform_none] at rolling
        refine ⟨_, rolling, ?_⟩
        rintro _ ⟨⟩ ok
        exact refused ((rollbackCmdResult_ok_iff _).mp ok)

end

end

end

/-- Profile 9 leads nowhere. -/
def numberedConsumer : Consumer UInt8 where
  profiles s := [⟨some [s], some profileStateEnabled, true⟩]
  enable s
    | [profile] => (⟨profile, 2⟩, resultOk)
    | _ => (⟨s, 0⟩, resultUndefinedError)
  disable s _ := (⟨s, 0⟩, resultUndefinedError)
  delete s _ := (⟨s, 0⟩, resultUndefinedError)
  rat _ := []
  online s := s ≠ 9
  enable_refused s profile refused := by
    split at refused
    · exact absurd rfl refused
    · rfl
  disable_refused _ _ _ := rfl
  delete_online _ _ := rfl
  profiles_buffered _ := rfl

def listing : EuiccPackageRequest where
  counterValue := 2
  transactionId := none
  euiccPackage := .ecoList [.listEim]

end Ipad.Proc
