import Ipad.EimCfg.Der
import Ipad.Proc.Canaries
import Ipad.Proc.Installation
import Ipad.Proc.Keep
import Ipad.Proc.Onset

/-!
# What a poll returns
-/

namespace Ipad.Proc
open Lib.Dialogue Ipad.EimCfg Ipad.Nvstate Ipad.BppSegments Ipad.Utils

/-! ## The observer -/

/-- `failed` says whether the processing in this call has failed so far, as the answers of the eUICC and the
eIM tell, and `eimCfg` is the first configuration that was asked for since the package was fetched. `installed`
and `notified` say whether the last segment was answered with the result of a profile that is installed, and
whether the eIM has taken the last notification. -/
structure CallSeen where
  fetched : Option (Option GetEimPackageResponse)
  eimCfg : Option (Option (List EimConfigurationData))
  installed : Bool
  notified : Bool
  failed : Bool
  unassigned : Bool

def CallSeen.nothing : CallSeen where
  fetched := none
  eimCfg := none
  installed := false
  notified := false
  failed := false
  unassigned := false

/-- A download has failed until the profile is installed and its notification is dealt with. -/
def failedFetch : Option GetEimPackageResponse → Bool
  | some (.euiccPackageRequest _) => false
  | some (.ipaEuiccDataRequest _) => false
  | some (.eimPackageError code) => code ≠ noEimPackageAvailable
  | _ => true

def SegmentAnswer.installs : SegmentAnswer → Bool
  | .installed result => result.aid.isSome
  | _ => false

/-- An onset step begins anew, and a rollback makes good what the eIM has not answered. -/
def CallSeen.step (emulated : Bool) (seen : CallSeen) : Event Req Ans → CallSeen
  | ⟨.mark .resetCanaries, _⟩ => .nothing
  | ⟨.getEimPackage, ans⟩ =>
      { seen with
        fetched := some ans, eimCfg := none, installed := false, notified := false, failed := failedFetch ans }
  | ⟨.getEimConfigurationData, ans⟩ => { seen with eimCfg := seen.eimCfg.or (some ans) }
  | ⟨.encode (.loadEuiccPackage _), .refused⟩ => { seen with failed := true }
  | ⟨.loadEuiccPackage _, ans⟩ => { seen with failed := ans.isNone }
  | ⟨.mark (.onset _), _⟩ => { seen with failed := false }
  | ⟨.retrieveNotificationsList _, ans⟩ =>
      { seen with failed := seen.failed || (usableAnswer emulated ans).isNone }
  | ⟨.encode (.provideEimPackageResult _ _), .refused⟩ => { seen with failed := true }
  | ⟨.provideEimPackageResult _ _, ans⟩ => { seen with failed := ans.isNone }
  | ⟨.enableProfile .rollback _, ans⟩ => { seen with failed := ans ≠ some resultOk }
  | ⟨.profileRollback, ans⟩ => { seen with failed := !ans.any fun rollback => rollback.cmdResult = resultOk }
  | ⟨.loadBoundProfilePackage _, ans⟩ => { seen with installed := SegmentAnswer.installs ans, notified := false }
  | ⟨.handleNotification _, ans⟩ => { seen with notified := ans = some 0 }
  | ⟨.removeNotificationFromList _, status⟩ =>
      { seen with
        failed := seen.failed && !(seen.installed && seen.notified) || deleteNotificationStatusRc status < 0 }
  | ⟨.encode (.provideEimPackageOutcome _), .refused⟩ => { seen with failed := true }
  | ⟨.provideEimPackageOutcome _, ans⟩ => { seen with failed := ans.isNone }
  | ⟨.uninitialised, _⟩ => { seen with unassigned := true }
  | _ => seen

def callSeen (emulated : Bool) : Trace → CallSeen
  | [] => .nothing
  | event :: t => (callSeen emulated t).step emulated event

/-! ## Truth -/

def GetEimPackageResponse.IsPackage : GetEimPackageResponse → Prop
  | .euiccPackageRequest _ => True
  | .ipaEuiccDataRequest _ => True
  | .profileDownloadTriggerRequest _ => True
  | _ => False

section
variable (esipaReqRetries : UInt32) (transport : Trace → Transport)

/-- The code of a failure says what the caller should check. -/
structure Classified (t t' : Trace) (rc : Int) : Prop where
  negative : rc < 0
  http : Since t (HttpFailed esipaReqRetries transport) t' ↔ rc = pollCheckHttp
  scard : ¬ Since t (HttpFailed esipaReqRetries transport) t' →
    (Since t (ScardFailed transport) t' ↔ rc = pollCheckScard)

structure Truthful (ctx : IpaContext) (t t' : Trace) (rc : Int) : Prop where
  later : rc = pollAgainLater →
    (callSeen ctx.iotEuiccEmuEnabled t').fetched = some (some (.eimPackageError noEimPackageAvailable))
  again : rc = pollAgain ∨ rc = pollAgainWhenOnline →
    (callSeen ctx.iotEuiccEmuEnabled t').failed = false ∧ (ctx.procEuccPkgDwnldExecRes.isSome ∨
      ∃ response, (callSeen ctx.iotEuiccEmuEnabled t').fetched = some (some response) ∧ response.IsPackage)
  classified : (callSeen ctx.iotEuiccEmuEnabled t').failed = true →
    Classified esipaReqRetries transport t t' rc
  assigned : (callSeen ctx.iotEuiccEmuEnabled t').unassigned = false

end

section
variable (codec : EimCfgCodec)

def EimEntry (ctx : IpaContext) (seen : CallSeen) : Prop :=
  ∃ list,
    (if ctx.iotEuiccEmuEnabled then getEimCfgDataIotEmu codec ctx.emu.nvstate else seen.eimCfg.join) = some list ∧
    (ipaEs10bGetEimCfgDataFilter list ctx.eimId).isSome

/-- No eUICC package was fetched whose execution has failed, and no download was begun that did not install. -/
def CallSeen.Sound (ctx : IpaContext) (seen : CallSeen) : Prop :=
  match seen.fetched with
  | some (some (.euiccPackageRequest _)) => seen.failed = false
  | some (some (.profileDownloadTriggerRequest ⟨some (.activationCode _)⟩)) =>
      EimEntry codec ctx seen → seen.failed = false
  | _ => True

end

/-! ## Requests that the observer takes no notice of -/

section
variable {emulated : Bool} {t t' : Trace}

/-- Neither fetches nor reads what was not set. -/
def Req.Inner : Req → Prop
  | .getEimPackage => False
  | .canaries => False
  | .uninitialised => False
  | .mark .resetCanaries => False
  | _ => True

theorem CallSeen.step_encode (emulated : Bool) (seen : CallSeen) (req : Req) (ans : Encoding) :
    seen.step emulated ⟨.encode req, ans⟩ = seen ∨
      seen.step emulated ⟨.encode req, ans⟩ = { seen with failed := true } := by
  cases ans with
  | refused =>
      cases req with
      | loadEuiccPackage => exact .inr rfl
      | provideEimPackageResult => exact .inr rfl
      | provideEimPackageOutcome => exact .inr rfl
      | _ => exact .inl rfl
  | _ => cases req <;> exact .inl rfl

theorem CallSeen.step_inner (emulated : Bool) (seen : CallSeen) (req : Req) (ans : Ans req) (inner : req.Inner) :
    (seen.step emulated ⟨req, ans⟩).fetched = seen.fetched ∧
      (seen.step emulated ⟨req, ans⟩).unassigned = seen.unassigned ∧
        (seen.eimCfg.isSome → (seen.step emulated ⟨req, ans⟩).eimCfg = seen.eimCfg) := by
  cases req with
  | getEimPackage => exact inner.elim
  | uninitialised => exact inner.elim
  | getEimConfigurationData =>
      refine ⟨rfl, rfl, fun asked => ?_⟩
      obtain ⟨first, same⟩ := Option.isSome_iff_exists.mp asked
      simp only [step, same, Option.or_some, Option.getD_some]
  | enableProfile purpose => cases purpose <;> exact ⟨rfl, rfl, fun _ => rfl⟩
  | encode req => rcases seen.step_encode emulated req ans with same | failed <;> simp only [*, implies_true, and_self]
  | mark m =>
      cases m with
      | resetCanaries => exact inner.elim
      | _ => exact ⟨rfl, rfl, fun _ => rfl⟩
  | _ => exact ⟨rfl, rfl, fun _ => rfl⟩

theorem callSeen_inner (emulated : Bool) (adds : Adds Req.Inner t t') :
    (callSeen emulated t').fetched = (callSeen emulated t).fetched ∧
      (callSeen emulated t').unassigned = (callSeen emulated t).unassigned ∧
        ((callSeen emulated t).eimCfg.isSome → (callSeen emulated t').eimCfg = (callSeen emulated t).eimCfg) := by
  obtain ⟨later, rfl, inner⟩ := adds
  induction later with
  | nil => exact ⟨rfl, rfl, fun _ => rfl⟩
  | cons event later ih =>
      rw [List.forall_mem_cons] at inner
      obtain ⟨fetched, unassigned, eimCfg⟩ := ih inner.2
      have step := (callSeen emulated (later ++ t)).step_inner emulated event.req event.ans inner.1
      refine ⟨step.1.trans fetched, step.2.1.trans unassigned, fun asked => ?_⟩
      have same := eimCfg asked
      exact (step.2.2 (by rw [same]; exact asked)).trans same

/-! ## Executions -/

def Told (emulated : Bool) (rc : Int) (t : Trace) : Prop := rc < 0 ↔ (callSeen emulated t).failed = true

def Anyway (_ : Abort) (_ : Trace) : Prop := True

theorem Told.error (failed : (callSeen emulated t).failed = true) : Told emulated einval t :=
  iff_of_true einval_neg failed

theorem Told.success (passed : (callSeen emulated t).failed = false) : Told emulated 0 t :=
  iff_of_false (Int.lt_irrefl 0) (Bool.eq_false_iff.mp passed)

theorem ends_released {α : Type} {Q : α → Trace → Prop} {a : α} (done : Q a t) (released : Except Fault Unit) :
    Ends Q Anyway (ofExcept released >>= fun _ => pure a) t := by
  cases released with
  | ok => exact done
  | error f => trivial

theorem ipaEs10bRmNotifFromLst_told (passed : (callSeen emulated t).failed = false) (seqNumber : Int) :
    Ends (Told emulated) Anyway (ipaEs10bRmNotifFromLst seqNumber) t := by
  simp only [ipaEs10bRmNotifFromLst, ends_bind, ends_request, ends_pure]
  intro status
  simp only [Told, callSeen, CallSeen.step, passed, Bool.false_and, Bool.false_or, decide_eq_true_iff]

theorem Told.passed {rc : Int} (told : Told emulated rc t) (nonneg : ¬ rc < 0) :
    (callSeen emulated t).failed = false :=
  Bool.eq_false_iff.mpr (mt told.mpr nonneg)

theorem removeNotifications_told (passed : (callSeen emulated t).failed = false) (list : List Int) :
    Ends (Told emulated) Anyway (removeNotifications list) t := by
  induction list generalizing t with
  | nil => exact .success passed
  | cons seqNumber rest ih =>
      apply (ipaEs10bRmNotifFromLst_told passed seqNumber).bind
      intro rc t told
      split
      next negative => exact .error (told.mp negative)
      next nonneg => exact ih (told.passed nonneg)

theorem onsetAnswered_told (passed : (callSeen emulated t).failed = false) (res : DwnldExecRes)
    (eimAcknowledgements : Option (List Int)) :
    Ends (fun out t' => Told emulated out.1 t') Anyway (onsetAnswered res eimAcknowledgements) t := by
  apply (ipaEs10bRmNotifFromLst_told passed _).bind
  intro rc t told
  split
  next negative => exact .error (told.mp negative)
  next nonneg =>
    apply (removeNotifications_told (told.passed nonneg) _).bind
    intro rc t told
    split
    next negative => exact .error (told.mp negative)
    next nonneg => exact .success (told.passed nonneg)

def Recovered (rollback : Option ProfileRollbackResponse) : Prop :=
  ∃ response, rollback = some response ∧ response.cmdResult = resultOk

theorem rollbackCmdResult_ok_iff (enableResult : Int) :
    rollbackCmdResult enableResult = resultOk ↔ enableResult = resultOk := by
  unfold rollbackCmdResult
  split
  next ok => exact iff_of_true rfl ok
  next failed =>
    split
    · exact iff_of_false (by decide) failed
    · exact iff_of_false (by decide) failed

theorem ipaEs10bPrfleRollback_told (failed : (callSeen emulated t).failed = true) (ctx : IpaContext) :
    Ends (fun rollback t' => (callSeen emulated t').failed = false ↔ Recovered rollback) Anyway
      (ipaEs10bPrfleRollback ctx) t := by
  have unrecovered {t' : Trace} (failed : (callSeen emulated t').failed = true) :
      (callSeen emulated t').failed = false ↔ Recovered none := by
    refine iff_of_false (fun passed => Bool.false_ne_true (passed.symm.trans failed)) ?_
    rintro ⟨response, ⟨⟩, -⟩
  simp only [ipaEs10bPrfleRollback, ends_bind, ends_mark]
  split
  · unfold prfleRollbackEmu
    split
    · exact unrecovered failed
    · simp only [ends_bind, ends_request]
      intro ans
      cases ans with
      | none => exact unrecovered rfl
      | some enableResult =>
          have enabled (response : ProfileRollbackResponse)
              (result : response.cmdResult = rollbackCmdResult enableResult) (iccid : List UInt8) :
              (callSeen emulated (⟨.enableProfile .rollback iccid, some enableResult⟩ ::
                ⟨.mark .prfleRollback, ()⟩ :: t)).failed = false ↔ Recovered (some response) := by
            simp only [callSeen, CallSeen.step, Recovered, Option.some.injEq, exists_eq_left', result,
              rollbackCmdResult_ok_iff, ne_eq, decide_eq_false_iff_not, not_not]
          simp only
          split
          · exact enabled ⟨_, _⟩ rfl _
          next pending _ =>
            rw [ends_bind]
            cases appendRollbackResult (rollbackCmdResult enableResult = resultOk)
                pending.loadEuiccPkgRes.res with
            | error f => trivial
            | ok result => exact enabled ⟨_, _⟩ rfl _
  · intro ans
    cases ans with
    | none => exact unrecovered rfl
    | some response =>
        show (!decide (response.cmdResult = resultOk)) = false ↔ _
        simp [Recovered]

theorem onsetUnanswered_told (failed : (callSeen emulated t).failed = true) (ctx : IpaContext)
    (res : DwnldExecRes) :
    Ends (fun out t' => Told emulated out.1 t') Anyway (onsetUnanswered ctx res) t := by
  unfold onsetUnanswered
  split
  · exact .error failed
  split
  · exact .error failed
  split
  · exact .error failed
  apply (ipaEs10bPrfleRollback_told failed ctx).bind
  intro rollback t recovered
  have broken (lost : ¬ Recovered rollback) : (callSeen emulated t).failed = true := by
    rw [← recovered] at lost
    exact Bool.not_eq_false _ ▸ lost
  cases rollback with
  | none =>
      refine .error (broken ?_)
      rintro ⟨response, ⟨⟩, -⟩
  | some response =>
      simp only
      split
      next refused =>
        refine .error (broken ?_)
        rintro ⟨_, ⟨⟩, ok⟩
        exact refused ok
      next ok => exact .success (recovered.mpr ⟨response, rfl, not_not.mp ok⟩)

theorem onsetProvide_told (ctx : IpaContext) (res : DwnldExecRes) (notifications : NotificationsListResponse) :
    Ends (fun out t' => Told emulated out.1 t') Anyway (onsetProvide ctx res notifications) t := by
  rw [onsetProvide, ends_bind]
  refine (ends_send (.provideEimPackageResult ..) _ _).mpr ⟨fun answer => ?_, onsetUnanswered_told rfl ctx res, trivial⟩
  cases answer with
  | none => exact onsetUnanswered_told rfl ctx res
  | some eimAcknowledgements => exact onsetAnswered_told rfl res eimAcknowledgements

theorem ipaProcEuccPkgDwnldExecOnset_told (ctx : IpaContext) (res : DwnldExecRes) (t : Trace) :
    Ends (fun out t' => Told ctx.iotEuiccEmuEnabled out.1 t') Anyway (ipaProcEuccPkgDwnldExecOnset ctx res) t := by
  simp only [ipaProcEuccPkgDwnldExecOnset, ipaEs10bRetrNotifFromLst, ends_bind, ends_mark, ends_request, ends_pure]
  intro notifications
  have told : Ends (fun out t' => Told ctx.iotEuiccEmuEnabled out.1 t') Anyway
      (onsetNotified ctx { res with callOnset := false } (notifications.map
        (if ctx.iotEuiccEmuEnabled then decRetrNotifFromLstRes else decRetrNotifFromLstResSgp32)))
      (⟨.retrieveNotificationsList (some res.loadEuiccPkgRes.res.seqNumberField), notifications⟩ ::
        ⟨.mark (.onset res.loadEuiccPkgRes.res), ()⟩ :: t) := by
    unfold onsetNotified
    split
    next unusable =>
      apply Told.error
      simp only [callSeen, CallSeen.step, usableAnswer, unusable, Bool.false_or, Option.isNone_none]
    next => exact onsetProvide_told ctx _ _
  exact told.imp fun _ _ told =>
    ends_released (Q := fun (out : Int × DwnldExecRes) t' => Told ctx.iotEuiccEmuEnabled out.1 t') told _

theorem Req.Executing.inner {req : Req} (executing : req.Executing) : req.Inner := by
  cases req with
  | getEimPackage => exact executing.elim
  | canaries => exact executing.elim
  | uninitialised => exact executing.elim
  | mark m =>
      cases m with
      | resetCanaries => exact executing.elim
      | _ => trivial
  | _ => trivial

theorem Req.Service.inner {req : Req} (service : req.Service) : req.Inner := by
  cases req with
  | getEimPackage => exact service.elim
  | canaries => exact service.elim
  | uninitialised => exact service.elim
  | mark => exact service.elim
  | _ => trivial

theorem Req.Loading.inner {req : Req} (loading : req.Loading) : req.Inner := by
  cases req with
  | getEimPackage => exact loading.elim
  | canaries => exact loading.elim
  | uninitialised => exact loading.elim
  | mark m =>
      cases m with
      | resetCanaries => exact loading.elim
      | _ => trivial
  | _ => trivial

theorem inner_ends {α : Type} {program : ProcM α} {P : Req → Prop} {F : Abort → Prop} (asks : Asks P F program)
    (allowed : ∀ req, P req → req.Inner) (t : Trace) : Ends (fun _ t' => Adds Req.Inner t t') Anyway program t :=
  (asks.adds t).mono (fun _ _ adds => adds.imp allowed) fun _ _ _ => trivial

theorem callSeen_emulating (adds : Adds Req.Emulating t t') :
    (callSeen emulated t').failed = (callSeen emulated t).failed := by
  obtain ⟨later, rfl, emulating⟩ := adds
  induction later with
  | nil => rfl
  | cons event later ih =>
      rw [List.forall_mem_cons] at emulating
      refine Eq.trans ?_ (ih emulating.2)
      obtain ⟨req, ans⟩ := event
      have allowed : req.Emulating := emulating.1
      cases req with
      | getProfilesInfo => rfl
      | encode req =>
          cases req with
          | loadEuiccPackage => exact False.elim allowed
          | provideEimPackageResult => exact False.elim allowed
          | provideEimPackageOutcome => exact False.elim allowed
          | _ => rfl
      | enableProfile purpose =>
          cases allowed
          rfl
      | disableProfile => rfl
      | deleteProfile => rfl
      | getRat => rfl
      | _ => exact allowed.elim

theorem Req.Emulating.inner {req : Req} (emulating : req.Emulating) : req.Inner := by
  cases req with
  | getEimPackage => exact emulating.elim
  | canaries => exact emulating.elim
  | uninitialised => exact emulating.elim
  | mark => exact emulating.elim
  | _ => trivial

variable {codec : EimCfgCodec} {asn1c : Asn1c} {ctx : IpaContext}

theorem ipaProcEuccPkgDwnldExec_told (passed : (callSeen ctx.iotEuiccEmuEnabled t).failed = false)
    (req : EuiccPackageRequest) :
    Ends (fun out t' => Adds Req.Inner t t' ∧
        (out.2 = none ↔ (callSeen ctx.iotEuiccEmuEnabled t').failed = true)) Anyway
      (ipaProcEuccPkgDwnldExec codec ctx req) t := by
  simp only [ipaProcEuccPkgDwnldExec, ends_bind, ends_mark]
  have marked : Adds Req.Inner t (⟨.mark (.execute req), ()⟩ :: t) :=
    (Adds.refl _ t).cons (.mark (.execute req)) () trivial
  refine (ipaEs10bLoadEuiccPkg_loads codec ctx req).mono ?_ fun _ _ _ => trivial
  rintro ⟨ctx', load⟩ t' ⟨mode, -, loads⟩
  have loaded : Adds Req.Inner t t' ∧ (load = none ↔ (callSeen ctx.iotEuiccEmuEnabled t').failed = true) := by
    cases loads with
    | emulated load t' adds =>
        refine ⟨marked.trans (adds.imp fun _ => Req.Emulating.inner), iff_of_false (Option.some_ne_none load) ?_⟩
        rw [callSeen_emulating adds]
        exact Bool.eq_false_iff.mp passed
    | native ans events sends load same =>
        refine ⟨marked.trans (sends.adds trivial trivial _), ?_⟩
        rw [← Option.isNone_iff_eq_none, ← Option.not_isSome, same, Option.not_isSome]
        rcases sends_cases sends with ⟨ans, ⟨⟩, rfl⟩ | ⟨⟨⟩, rfl⟩ | ⟨⟨⟩, -⟩
        · exact Iff.rfl
        · exact iff_of_true rfl rfl
  cases load with
  | none =>
      simp only [ends_bind, ends_mark, ends_pure]
      exact ⟨loaded.1.cons (.mark .free) () trivial, iff_of_true trivial (loaded.2.mp rfl)⟩
  | some load =>
      simp only
      split
      · exact ⟨loaded.1, iff_of_false (Option.some_ne_none _)
          fun failed => Option.some_ne_none _ (loaded.2.mpr failed)⟩
      have step := (inner_ends (ipaProcEuccPkgDwnldExecOnset_asks ctx'
        ⟨load, none, false⟩) (fun _ => Req.Executing.inner) t').and
        (ipaProcEuccPkgDwnldExecOnset_told ctx' ⟨load, none, false⟩ t')
      rw [mode] at step
      rw [ends_bind]
      refine step.mono ?_ fun _ _ _ => trivial
      rintro ⟨rc, res⟩ t'' ⟨adds, told⟩
      simp only
      split
      next negative =>
        simp only [ends_bind, ends_mark, ends_pure]
        exact ⟨(loaded.1.trans adds).cons (.mark .free) () trivial, iff_of_true trivial (told.mp negative)⟩
      next nonneg =>
        exact ⟨loaded.1.trans adds, iff_of_false (Option.some_ne_none res) (mt told.mpr nonneg)⟩

/-! ## Retrieval -/

/-- How a retrieval ends: only the last two are no truth. -/
inductive Retrieval (codec : EimCfgCodec) (ctx : IpaContext) (rc : Int) (seen : CallSeen) : Prop where
  | noPackage (fetched : seen.fetched = some (some (.eimPackageError noEimPackageAvailable)))
      (code : rc = -noEimPackageAvailable) (passed : seen.failed = false) (assigned : seen.unassigned = false)
  | failed (sound : seen.Sound codec ctx) (code : rc = einval) (failed : seen.failed = true)
      (assigned : seen.unassigned = false)
  | processed (sound : seen.Sound codec ctx) (code : rc = 0) (passed : seen.failed = false)
      (response : GetEimPackageResponse) (fetched : seen.fetched = some (some response))
      (package : response.IsPackage) (assigned : seen.unassigned = false)
  | swallowed (unsound : ¬ seen.Sound codec ctx) (code : rc = 0) (failed : seen.failed = true)
  | unassigned (unsound : ¬ seen.Sound codec ctx) (unassigned : seen.unassigned = true)

theorem CallSeen.Sound.of_passed {seen : CallSeen} (passed : seen.failed = false) : seen.Sound codec ctx := by
  unfold Sound
  split
  · exact passed
  · exact fun _ => passed
  · trivial

/-- What is known where a package has just been fetched. -/
structure Fetched (emulated : Bool) (response : GetEimPackageResponse) (t : Trace) : Prop where
  fetched : (callSeen emulated t).fetched = some (some response)
  eimCfg : (callSeen emulated t).eimCfg = none
  failed : (callSeen emulated t).failed = failedFetch (some response)
  assigned : (callSeen emulated t).unassigned = false

theorem Req.Inner.unreset {req : Req} (inner : req.Inner) : req.Unreset := by
  cases req with
  | canaries => exact inner.elim
  | mark m =>
      cases m with
      | resetCanaries => exact inner.elim
      | _ => exact Mark.noConfusion
  | _ => trivial

theorem eimPkgExecEuiccPackage_told {req : EuiccPackageRequest}
    (start : Fetched ctx.iotEuiccEmuEnabled (.euiccPackageRequest req) t) :
    Ends (fun out t' => Adds Req.Unreset t t' ∧
        Retrieval codec ctx out.2 (callSeen ctx.iotEuiccEmuEnabled t')) Anyway
      (eimPkgExecEuiccPackage codec ctx req) t := by
  unfold eimPkgExecEuiccPackage
  split
  · trivial
  rw [ends_bind]
  refine (ipaProcEuccPkgDwnldExec_told start.failed req).mono ?_ fun _ _ _ => trivial
  rintro ⟨ctx', res⟩ t' ⟨adds, told⟩
  have kept := callSeen_inner ctx.iotEuiccEmuEnabled adds
  have unreset := adds.imp fun _ => Req.Inner.unreset
  cases res with
  | none =>
      simp only [ends_bind, ends_request, ends_pure]
      intro rc
      refine ⟨unreset.cons .uninitialised rc trivial, .unassigned ?_ rfl⟩
      have failed := told.mp rfl
      simp only [CallSeen.Sound, callSeen, CallSeen.step, kept.1, start.fetched, failed]
      exact Bool.noConfusion
  | some res =>
      have passed : (callSeen ctx.iotEuiccEmuEnabled t').failed = false :=
        Bool.eq_false_iff.mpr (mt told.mpr (Option.some_ne_none res))
      have processed : Retrieval codec ctx 0 (callSeen ctx.iotEuiccEmuEnabled t') :=
        .processed (.of_passed passed) rfl passed _ (kept.1.trans start.fetched) trivial
          (kept.2.1.trans start.assigned)
      simp only
      split
      · exact ⟨unreset, processed⟩
      · simp only [ends_bind, ends_mark, ends_pure]
        exact ⟨unreset.cons (.mark .free) () Mark.noConfusion, processed⟩

theorem ends_provideOutcome {Q : Option (Option (List Int)) → Trace → Prop} (data : IpaEuiccData) (t : Trace) :
    Ends Q Anyway (ipaEsipaPrvdeEimPkgRslt { ipaEuiccDataResp := some data }) t ↔
      (∀ ans, Q ans (⟨.provideEimPackageOutcome (.ipaEuiccDataResponse data), ans⟩ ::
        ⟨.encode (.provideEimPackageOutcome (.ipaEuiccDataResponse data)), .encoded⟩ :: t)) ∧
      Q none (⟨.encode (.provideEimPackageOutcome (.ipaEuiccDataResponse data)), .refused⟩ :: t) :=
  (ends_send (.provideEimPackageOutcome (.ipaEuiccDataResponse data)) Q t).trans
    (and_congr_right' (and_iff_left trivial))

theorem eimPkgExecDataReq_told {req : IpaEuiccDataRequest}
    (start : Fetched ctx.iotEuiccEmuEnabled (.ipaEuiccDataRequest req) t) :
    Ends (fun rc t' => Adds Req.Unreset t t' ∧
        Retrieval codec ctx (if rc < 0 then rc else 0) (callSeen ctx.iotEuiccEmuEnabled t')) Anyway
      (ipaProcEuiccDataReq codec ctx req) t := by
  simp only [ipaProcEuiccDataReq, ends_bind]
  refine ((collectIpaEuiccData_serving codec ctx req).adds t).mono ?_ fun _ _ _ => trivial
  rintro ⟨data, notifications⟩ t' adds
  have kept := callSeen_inner ctx.iotEuiccEmuEnabled (adds.imp fun _ => Req.Service.inner)
  have unreset := adds.imp fun _ service => (Req.Service.inner service).unreset
  have encoded (outcome : Encoding) := unreset.cons (.encode (.provideEimPackageOutcome (.ipaEuiccDataResponse data)))
    outcome trivial
  rw [ends_bind]
  refine (ends_provideOutcome data t').mpr ⟨fun answer => ends_released ?_ _, ends_released ?_ _⟩
  · have adds := (encoded .encoded).cons (.provideEimPackageOutcome (.ipaEuiccDataResponse data)) answer trivial
    cases answer with
    | none =>
        refine ⟨adds, .failed ?_ rfl rfl (kept.2.1.trans start.assigned)⟩
        simp only [CallSeen.Sound, callSeen, CallSeen.step, kept.1, start.fetched]
    | some answer =>
        exact ⟨adds, .processed (.of_passed rfl) rfl rfl _ (kept.1.trans start.fetched) trivial
          (kept.2.1.trans start.assigned)⟩
  · refine ⟨encoded .refused, .failed ?_ rfl rfl (kept.2.1.trans start.assigned)⟩
    simp only [CallSeen.Sound, callSeen, CallSeen.step, kept.1, start.fetched]

theorem ipaProcIndirectPrfleDwnlod_succeeds (ac : List UInt8) (allowedCa : Option (List UInt8)) :
    Ends (fun out _ => out.2 = 0) Anyway (ipaProcIndirectPrfleDwnlod asn1c ctx ac allowedCa) t := by
  have skip {α : Type} (program : ProcM α) (t : Trace) : Ends (fun _ _ => True) Anyway program t :=
    ends_always (fun _ _ => trivial) fun _ _ => trivial
  unfold ipaProcIndirectPrfleDwnlod
  split
  · rfl
  apply (skip _ t).bind
  intro res t _
  cases res with
  | none => rfl
  | some authClntRes => exact (skip _ t).bind fun _ _ _ => rfl

theorem Req.Download.inner {req : Req} (download : req.Download) : req.Inner := by
  rcases download with service | loading | ⟨rc, rfl⟩
  · exact service.inner
  · exact loading.inner
  · trivial

/-- The key identifier comes out of the configuration, which the eUICC is asked for unless it is emulated. -/
theorem getEuiccCiPkid_ends (t : Trace) :
    Ends (fun allowedCa t' => ∃ list : Option (List EimConfigurationData),
        allowedCa = (list.bind fun cfgs => ipaEs10bGetEimCfgDataFilter cfgs ctx.eimId).map pkidBuf ∧
        if ctx.iotEuiccEmuEnabled then list = getEimCfgDataIotEmu codec ctx.emu.nvstate ∧ t' = t
        else t' = ⟨.getEimConfigurationData, list⟩ :: t) Anyway (getEuiccCiPkid codec ctx) t := by
  unfold getEuiccCiPkid ipaEs10bGetEimCfgData
  cases ctx.iotEuiccEmuEnabled with
  | true => cases getEimCfgDataIotEmu codec ctx.emu.nvstate <;> exact ⟨_, rfl, rfl, rfl⟩
  | false =>
      intro list
      cases list <;> exact ⟨_, rfl, rfl⟩

theorem eimEntry_iff (list : Option (List EimConfigurationData)) :
    ((list.bind fun cfgs => ipaEs10bGetEimCfgDataFilter cfgs ctx.eimId).map pkidBuf).isSome ↔
      ∃ cfgs, list = some cfgs ∧ (ipaEs10bGetEimCfgDataFilter cfgs ctx.eimId).isSome := by
  rw [Option.isSome_map]
  cases list with
  | none =>
      refine iff_of_false Bool.false_ne_true ?_
      rintro ⟨_, ⟨⟩, -⟩
  | some cfgs => simp only [Option.bind_some, Option.some.injEq, exists_eq_left']

theorem getEuiccCiPkid_told (fresh : (callSeen ctx.iotEuiccEmuEnabled t).eimCfg = none) :
    Ends (fun allowedCa t' => Adds Req.Service t t' ∧
        (callSeen ctx.iotEuiccEmuEnabled t').failed = (callSeen ctx.iotEuiccEmuEnabled t).failed ∧
        (allowedCa.isSome ↔ EimEntry codec ctx (callSeen ctx.iotEuiccEmuEnabled t')) ∧
        (ctx.iotEuiccEmuEnabled = false → (callSeen ctx.iotEuiccEmuEnabled t').eimCfg.isSome)) Anyway
      (getEuiccCiPkid codec ctx) t := by
  apply (getEuiccCiPkid_ends t).imp
  rintro _ t' ⟨list, rfl, asked⟩
  rw [eimEntry_iff]
  split at asked
  next emulated =>
    obtain ⟨rfl, rfl⟩ := asked
    refine ⟨.refl _ _, rfl, ?_, fun native => absurd (native.symm.trans emulated) Bool.false_ne_true⟩
    simp only [EimEntry, if_pos emulated]
  next native =>
    subst asked
    have seen : (callSeen ctx.iotEuiccEmuEnabled (⟨.getEimConfigurationData, list⟩ :: t)).eimCfg = some list := by
      simp only [callSeen, CallSeen.step, fresh, Option.none_or]
    refine ⟨(Adds.refl _ t).cons .getEimConfigurationData list trivial, rfl, ?_, fun _ => by rw [seen]; rfl⟩
    simp only [EimEntry, if_neg native, seen, Option.join_some]

theorem EimEntry.of_same {seen seen' : CallSeen}
    (same : ctx.iotEuiccEmuEnabled = false → seen'.eimCfg = seen.eimCfg) :
    EimEntry codec ctx seen' ↔ EimEntry codec ctx seen := by
  unfold EimEntry
  split
  · exact Iff.rfl
  next native => rw [same (Bool.eq_false_iff.mpr native)]

theorem eimPkgExecDwnld_told {req : ProfileDownloadTriggerRequest}
    (start : Fetched ctx.iotEuiccEmuEnabled (.profileDownloadTriggerRequest req) t) :
    Ends (fun out t' => Adds Req.Unreset t t' ∧
        Retrieval codec ctx out.2 (callSeen ctx.iotEuiccEmuEnabled t')) Anyway
      (eimPkgExecDwnld codec asn1c ctx req) t := by
  obtain ⟨profileDownloadData⟩ := req
  unfold eimPkgExecDwnld
  split
  next activationCode data =>
    cases data
    simp only [ends_bind]
    refine (getEuiccCiPkid_told start.eimCfg).mono ?_ fun _ _ _ => trivial
    rintro allowedCa t' ⟨adds, same, found, asked⟩
    have kept := callSeen_inner ctx.iotEuiccEmuEnabled (adds.imp fun _ => Req.Service.inner)
    have unreset := adds.imp fun _ service => (Req.Service.inner service).unreset
    cases allowedCa with
    | none =>
        refine ⟨unreset, .failed ?_ rfl (same.trans start.failed) (kept.2.1.trans start.assigned)⟩
        simp only [CallSeen.Sound, kept.1, start.fetched]
        exact fun entry => absurd (found.mpr entry) Bool.false_ne_true
    | some allowedCa =>
        simp only [ends_bind]
        refine (((ipaProcIndirectPrfleDwnlod_downloading asn1c ctx _ allowedCa).adds t').and
          (ipaProcIndirectPrfleDwnlod_succeeds _ allowedCa)).mono ?_ fun _ _ _ => trivial
        rintro ⟨ctx', _⟩ t'' ⟨adds', rfl⟩
        have kept' := callSeen_inner ctx.iotEuiccEmuEnabled (adds'.imp fun _ => Req.Download.inner)
        have unreset' := adds'.imp fun _ download => (Req.Download.inner download).unreset
        have fetched := kept'.1.trans (kept.1.trans start.fetched)
        have entry : EimEntry codec ctx (callSeen ctx.iotEuiccEmuEnabled t'') :=
          (EimEntry.of_same fun native => kept'.2.2 (asked native)).mpr (found.mp rfl)
        refine ⟨unreset.trans unreset', ?_⟩
        cases passed : (callSeen ctx.iotEuiccEmuEnabled t'').failed with
        | false =>
            exact .processed (.of_passed passed) rfl passed _ fetched trivial
              (kept'.2.1.trans (kept.2.1.trans start.assigned))
        | true =>
            refine .swallowed ?_ rfl passed
            simp only [CallSeen.Sound, fetched, passed]
            exact fun sound => Bool.noConfusion (sound entry)
  next other =>
    refine ⟨.refl _ t, .failed ?_ rfl start.failed start.assigned⟩
    unfold CallSeen.Sound
    split
    next fetched => cases start.fetched.symm.trans fetched
    next activationCode fetched =>
      cases start.fetched.symm.trans fetched
      exact absurd rfl (other activationCode)
    next => trivial

theorem eimPkgExec_told {response : GetEimPackageResponse} (start : Fetched ctx.iotEuiccEmuEnabled response t)
    (offered : eimPkgErr response = 0) :
    Ends (fun out t' => Adds Req.Unreset t t' ∧
        Retrieval codec ctx out.2 (callSeen ctx.iotEuiccEmuEnabled t')) Anyway
      (eimPkgExec codec asn1c ctx response) t := by
  have refused (failed : failedFetch (some response) = true)
      (sound : (callSeen ctx.iotEuiccEmuEnabled t).Sound codec ctx) :
      Adds Req.Unreset t t ∧ Retrieval codec ctx einval (callSeen ctx.iotEuiccEmuEnabled t) :=
    ⟨.refl _ t, .failed sound rfl (start.failed.trans failed) start.assigned⟩
  cases response with
  | euiccPackageRequest req => exact eimPkgExecEuiccPackage_told start
  | ipaEuiccDataRequest req => exact (eimPkgExecDataReq_told start).bind fun _ _ told => told
  | profileDownloadTriggerRequest req => exact eimPkgExecDwnld_told start
  | eimPackageError code =>
      refine refused ?_ (by simp only [CallSeen.Sound, start.fetched])
      rw [show code = 0 from offered]
      rfl
  | nothing => exact refused rfl (by simp only [CallSeen.Sound, start.fetched])

theorem ipaProcEimPkgRetr_told (assigned : (callSeen ctx.iotEuiccEmuEnabled t).unassigned = false) :
    Ends (fun out t' => Adds Req.Unreset t t' ∧
        Retrieval codec ctx out.2 (callSeen ctx.iotEuiccEmuEnabled t')) Anyway
      (ipaProcEimPkgRetr codec asn1c ctx) t := by
  simp only [ipaProcEimPkgRetr, ends_bind, ends_request]
  intro ans
  have adds : Adds Req.Unreset t (⟨.getEimPackage, ans⟩ :: t) := (Adds.refl _ t).cons _ ans trivial
  cases ans with
  | none => exact ⟨adds, .failed trivial rfl rfl assigned⟩
  | some response =>
      simp only
      split
      next noPackage =>
        cases response with
        | eimPackageError code =>
            cases (noPackage : code = noEimPackageAvailable)
            exact ⟨adds, .noPackage rfl rfl rfl assigned⟩
        | nothing => cases noPackage
        | _ => cases noPackage
      next other =>
        split
        next error =>
          refine ⟨adds, .failed ?_ rfl ?_ assigned⟩
          · cases response with
            | euiccPackageRequest => exact absurd rfl error
            | profileDownloadTriggerRequest => exact absurd rfl error
            | _ => trivial
          · cases response with
            | eimPackageError code => exact decide_eq_true other
            | nothing => rfl
            | _ => exact absurd rfl error
        next offered =>
          have start : Fetched ctx.iotEuiccEmuEnabled response (⟨.getEimPackage, some response⟩ :: t) :=
            ⟨rfl, rfl, rfl, assigned⟩
          exact (eimPkgExec_told start (not_not.mp offered)).imp
            fun out t' told => ⟨adds.trans told.1, told.2⟩

/-! ## Polling -/

variable {esipaReqRetries : UInt32} {transport : Trace → Transport}

def canaryCode (flags : Bool × Bool) : Int :=
  if flags.1 then pollCheckHttp else if flags.2 then pollCheckScard else einval

theorem classified_of_canaries {flags : Bool × Bool}
    (adds : Adds Req.Unreset (⟨.mark .resetCanaries, ()⟩ :: t) t')
    (remembers : Remembers esipaReqRetries transport (⟨.canaries, flags⟩ :: t')) :
    Classified esipaReqRetries transport t (⟨.canaries, flags⟩ :: t') (canaryCode flags) := by
  have suffix : t <:+ t' := by
    obtain ⟨later, rfl, -⟩ := adds
    exact (List.suffix_cons ..).trans (List.suffix_append ..)
  have http : Since t (HttpFailed esipaReqRetries transport) (⟨.canaries, flags⟩ :: t') ↔ flags.1 = true := by
    rw [since_cons suffix, remembers.1, ← (canariesAfter_iff esipaReqRetries transport adds).1]
    exact or_iff_right fun failed => Peer.noConfusion failed.1
  have scard : Since t (ScardFailed transport) (⟨.canaries, flags⟩ :: t') ↔ flags.2 = true := by
    rw [since_cons suffix, remembers.1, ← (canariesAfter_iff esipaReqRetries transport adds).2]
    exact or_iff_right fun failed => Peer.noConfusion failed.1
  refine ⟨?_, ?_, ?_⟩
  · rcases flags with ⟨_ | _, _ | _⟩ <;> decide
  · rw [http]
    rcases flags with ⟨_ | _, _ | _⟩ <;> decide
  · rw [http, scard]
    rcases flags with ⟨_ | _, _ | _⟩ <;> decide

theorem Truthful.of_classified {rc : Int} (classified : Classified esipaReqRetries transport t t' rc)
    (assigned : (callSeen ctx.iotEuiccEmuEnabled t').unassigned = false) :
    Truthful esipaReqRetries transport ctx t t' rc where
  later := by
    rintro rfl
    exact absurd classified.negative (by decide)
  again := by
    rintro (rfl | rfl)
    · exact absurd classified.negative (by decide)
    · exact absurd classified.negative (by decide)
  classified := fun _ => classified
  assigned := assigned

theorem Truthful.of_passed {rc : Int} (passed : (callSeen ctx.iotEuiccEmuEnabled t').failed = false)
    (later : rc ≠ pollAgainLater)
    (processed : ctx.procEuccPkgDwnldExecRes.isSome ∨ ∃ response,
      (callSeen ctx.iotEuiccEmuEnabled t').fetched = some (some response) ∧ response.IsPackage)
    (assigned : (callSeen ctx.iotEuiccEmuEnabled t').unassigned = false) :
    Truthful esipaReqRetries transport ctx t t' rc where
  later := fun found => absurd found later
  again := fun _ => ⟨passed, processed⟩
  classified := fun failed => absurd (passed.symm.trans failed) Bool.false_ne_true
  assigned := assigned

/-- Where the caller is told that the memory holds what has been written, truth and soundness are the same. -/
def Honest (codec : EimCfgCodec) (esipaReqRetries : UInt32) (transport : Trace → Transport) (ctx : IpaContext)
    (t : Trace) (rc : Int) (t' : Trace) : Prop :=
  Remembers esipaReqRetries transport t' →
    (Truthful esipaReqRetries transport ctx t t' rc ↔ (callSeen ctx.iotEuiccEmuEnabled t').Sound codec ctx)

theorem checkCanaries_honest (adds : Adds Req.Unreset (⟨.mark .resetCanaries, ()⟩ :: t) t')
    (sound : (callSeen ctx.iotEuiccEmuEnabled t').Sound codec ctx)
    (assigned : (callSeen ctx.iotEuiccEmuEnabled t').unassigned = false) :
    Ends (fun rc t'' => Honest codec esipaReqRetries transport ctx t rc t'') Anyway checkCanaries t' := by
  simp only [checkCanaries, ends_bind]
  exact fun flags remembers => iff_of_true (.of_classified (classified_of_canaries adds remembers) assigned) sound

theorem pending_honest {pending : DwnldExecRes} (found : ctx.procEuccPkgDwnldExecRes = some pending) :
    Ends (fun out t' => Honest codec esipaReqRetries transport ctx t out.2 t') Anyway
      (ipaPoll codec asn1c ctx) t := by
  have waiting : ctx.procEuccPkgDwnldExecRes.isSome := by
    rw [found]
    rfl
  simp only [ipaPoll, found, ends_bind, ends_mark]
  refine ((inner_ends (ipaProcEuccPkgDwnldExecOnset_asks ctx pending) (fun _ => Req.Executing.inner) _).and
    (ipaProcEuccPkgDwnldExecOnset_told ctx pending _)).mono ?_ fun _ _ _ => trivial
  rintro ⟨rc, res⟩ t' ⟨adds, told⟩
  have kept := callSeen_inner ctx.iotEuiccEmuEnabled adds
  have unreset := adds.imp fun _ => Req.Inner.unreset
  have sound : (callSeen ctx.iotEuiccEmuEnabled t').Sound codec ctx := by
    simp only [CallSeen.Sound, kept.1, callSeen, CallSeen.step, CallSeen.nothing]
  simp only
  split
  next negative =>
    simp only [ends_bind, ends_mark]
    exact (checkCanaries_honest (unreset.cons (.mark .free) () Mark.noConfusion) sound kept.2.1).imp
      fun _ _ honest => honest
  next nonneg =>
    have passed := told.passed nonneg
    split
    · simp only [ends_bind, ends_mark, ends_pure]
      exact fun _ =>
        iff_of_true (.of_passed passed (by decide : pollAgain ≠ pollAgainLater) (.inl waiting) kept.2.1) sound
    · exact fun _ => iff_of_true
        (.of_passed passed (by decide : pollAgainWhenOnline ≠ pollAgainLater) (.inl waiting) kept.2.1) sound

theorem idle_honest (vacant : ctx.procEuccPkgDwnldExecRes = none) :
    Ends (fun out t' => Honest codec esipaReqRetries transport ctx t out.2 t') Anyway
      (ipaPoll codec asn1c ctx) t := by
  simp only [ipaPoll, vacant, ends_bind, ends_mark]
  refine (inner_ends (ipaNotifDelivery_asks ctx) (fun _ => Req.Executing.inner) _).mono ?_ fun _ _ _ => trivial
  intro _ t' adds
  have assigned : (callSeen ctx.iotEuiccEmuEnabled t').unassigned = false :=
    (callSeen_inner ctx.iotEuiccEmuEnabled adds).2.1
  rw [ends_bind]
  refine (ipaProcEimPkgRetr_told assigned).mono ?_ fun _ _ _ => trivial
  rintro ⟨ctx', rc⟩ t'' ⟨adds', retrieval⟩
  change Retrieval codec ctx rc _ at retrieval
  have unreset := (adds.imp fun _ => Req.Inner.unreset).trans adds'
  have again (rc' : Int) (code : rc' = pollAgain ∨ rc' = pollAgainWhenOnline) (nonneg : ¬ rc < 0) :
      Honest codec esipaReqRetries transport ctx t rc' t'' := by
    intro _
    have notLater : rc' ≠ pollAgainLater := by rcases code with rfl | rfl <;> decide
    cases retrieval with
    | noPackage _ code => exact absurd (by rw [code]; decide) nonneg
    | failed _ code => exact absurd (by rw [code]; exact einval_neg) nonneg
    | processed sound _ passed response fetched package assigned =>
        exact iff_of_true (.of_passed passed notLater (.inr ⟨response, fetched, package⟩) assigned) sound
    | swallowed unsound _ failed =>
        refine iff_of_false (fun truthful => ?_) unsound
        exact absurd ((truthful.again code).1.symm.trans failed) Bool.false_ne_true
    | unassigned unsound unassigned =>
        refine iff_of_false (fun truthful => ?_) unsound
        exact absurd (truthful.assigned.symm.trans unassigned) Bool.false_ne_true
  simp only
  split
  next noPackage =>
    intro _
    cases retrieval with
    | noPackage fetched _ passed assigned =>
        refine iff_of_true ⟨fun _ => fetched, ?_, ?_, assigned⟩ (.of_passed passed)
        · rintro (same | same) <;> cases same
        · exact fun failed => absurd (passed.symm.trans failed) Bool.false_ne_true
    | failed _ code => exact absurd (code.symm.trans noPackage) (by decide)
    | processed _ code => exact absurd (code.symm.trans noPackage) (by decide)
    | swallowed _ code => exact absurd (code.symm.trans noPackage) (by decide)
    | unassigned unsound unassigned =>
        refine iff_of_false (fun truthful => ?_) unsound
        exact absurd (truthful.assigned.symm.trans unassigned) Bool.false_ne_true
  split
  next other negative =>
    cases retrieval with
    | noPackage _ code => exact absurd code other
    | failed sound _ _ assigned =>
        rw [ends_bind]
        exact (checkCanaries_honest unreset sound assigned).imp fun _ _ honest => honest
    | processed _ code => exact absurd code (Int.ne_of_lt negative)
    | swallowed _ code => exact absurd code (Int.ne_of_lt negative)
    | unassigned unsound unassigned =>
        simp only [checkCanaries, ends_bind]
        refine fun flags _ => iff_of_false (fun truthful => ?_) unsound
        exact absurd (truthful.assigned.symm.trans unassigned) Bool.false_ne_true
  next nonneg =>
    split
    · exact again _ (.inr rfl) nonneg
    · exact again _ (.inl rfl) nonneg

theorem ipaPoll_truthful_iff {out : IpaContext × Int} (runs : Runs (ipaPoll codec asn1c ctx) t (.ok out) t')
    (remembers : Remembers esipaReqRetries transport t') :
    Truthful esipaReqRetries transport ctx t t' out.2 ↔ (callSeen ctx.iotEuiccEmuEnabled t').Sound codec ctx := by
  have honest : Ends (fun out t' => Honest codec esipaReqRetries transport ctx t out.2 t') Anyway
      (ipaPoll codec asn1c ctx) t := by
    cases found : ctx.procEuccPkgDwnldExecRes with
    | none => exact idle_honest found
    | some pending => exact pending_honest found
  exact (honest.of_runs runs).1 out rfl remembers

end

/-- No attempt to reach the eIM succeeds, and the card is silent. -/
def offline (_ : Trace) : Transport where
  esipaReq := some []
  ipaHttpReq := fun _ => none
  exchanges := []

def offlineReplies : (req : Req) → Option (Ans req)
  | .canaries => some (true, false)
  | _ => none

theorem offline_truthful :
    let ended := run (replies offlineReplies) (ipaPoll derCodec oneChunk (freshContext false)) []
    ended.1 = .ok (freshContext false, pollCheckHttp) ∧
      Truthful 0 offline (freshContext false) [] ended.2 pollCheckHttp := by
  have runs : Runs (ipaPoll derCodec oneChunk (freshContext false)) [] (.ok (freshContext false, pollCheckHttp))
      (run (replies offlineReplies) (ipaPoll derCodec oneChunk (freshContext false)) []).2 :=
    runs_run (replies offlineReplies) _ _
  refine ⟨rfl, (ipaPoll_truthful_iff runs ?_).mpr trivial⟩
  exact ⟨rfl, trivial, trivial, trivial, trivial⟩

/-- A download is to be made with an activation code that is none. -/
def noActivationCode : (req : Req) → Option (Ans req)
  | .getEimPackage => some (some (.profileDownloadTriggerRequest ⟨some (.activationCode [])⟩))
  | .getEimConfigurationData => some (some [someEim])
  | _ => none

theorem noActivationCode_not_truthful : ¬ ∀ codec asn1c esipaReqRetries transport ctx t out t',
    Runs (ipaPoll codec asn1c ctx) t (.ok out) t' → Remembers esipaReqRetries transport t' →
      Truthful esipaReqRetries transport ctx t t' out.2 := by
  intro truthful
  have runs : Runs (ipaPoll derCodec oneChunk (freshContext false)) [] (.ok (freshContext false, pollAgain))
      (run (replies noActivationCode) (ipaPoll derCodec oneChunk (freshContext false)) []).2 :=
    runs_run (replies noActivationCode) _ _
  have told := truthful derCodec oneChunk 0 offline _ _ _ _ runs ⟨trivial, trivial, trivial, trivial, trivial⟩
  exact absurd (told.again (.inl rfl)).1 Bool.noConfusion

end Ipad.Proc
