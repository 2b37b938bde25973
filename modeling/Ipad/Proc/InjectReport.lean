import Ipad.Proc.Interleaving

/-!
# What an injection reports
-/

namespace Ipad.Proc
open Lib.Dialogue Ipad.EimCfg Ipad.Nvstate Ipad.BppSegments Ipad.Utils

/-! ## Outcomes -/

def Req.isOutcome : Req → Bool
  | .provideEimPackageResult _ _ => true
  | .provideEimPackageOutcome _ => true
  | _ => false

def Req.isEimPackageError : Req → Bool
  | .provideEimPackageOutcome (.eimPackageError _) => true
  | _ => false

def outcomes (said : Trace) : Trace := said.filter fun event => event.req.isOutcome

section
variable (codec : EimCfgCodec) (asn1c : Asn1c) (ctx : IpaContext) (transferReq : TransferEimPackageRequest)

def Handled (t said : Trace) (rc : Int) : Prop :=
  ∃ ctx' report before, said = report :: before ∧
    Runs (handleInjected codec asn1c ctx transferReq) t (.ok (ctx', rc)) (before ++ t)

def HandlerFailed (t said : Trace) : Prop := ∃ rc, Handled codec asn1c ctx transferReq t said rc ∧ rc < 0

/-- The eIM is told once and the caller is told what the handler made of the request. -/
structure ReportsOnce (t said : Trace) (out : Except Abort (IpaContext × Int)) : Prop where
  once : ∃ event, outcomes said = [event] ∧
    (event.req.isEimPackageError = true ↔ HandlerFailed codec asn1c ctx transferReq t said)
  returns : ∃ ctx' rc, out = .ok (ctx', rc) ∧ (rc = 0 ↔ ¬ HandlerFailed codec asn1c ctx transferReq t said) ∧
    (HandlerFailed codec asn1c ctx transferReq t said → rc < 0)

/-! ## When it does -/

def eimEntry (list : Option (List EimConfigurationData)) : Option EimConfigurationData :=
  list.bind fun list => ipaEs10bGetEimCfgDataFilter list ctx.eimId

/-- The configuration could not be read, or has no entry for the eIM. It is the first that is asked for. -/
def NoEimEntry (said : Trace) : Prop :=
  if ctx.iotEuiccEmuEnabled then eimEntry ctx (getEimCfgDataIotEmu codec ctx.emu.nvstate) = none
  else ∃ later ans, said = later ++ [⟨.getEimConfigurationData, ans⟩] ∧ eimEntry ctx ans = none

/-- The eUICC does not execute the package, or keeps the notifications that go with the result, or there is no
message to be made. -/
def Refuses (emulated : Bool) : Event Req Ans → Prop
  | ⟨.loadEuiccPackage _, ans⟩ => ans = none
  | ⟨.retrieveNotificationsList _, ans⟩ => usableAnswer emulated ans = none
  | ⟨.encode (.loadEuiccPackage _), outcome⟩ => outcome = .refused
  | ⟨.encode (.provideEimPackageResult _ _), outcome⟩ => outcome = .refused
  | ⟨.encode (.provideEimPackageOutcome _), outcome⟩ => outcome = .refused
  | _ => False

/-- A request that comes to nothing before there is anything to tell the eIM. -/
def Refused (said : Trace) : Prop :=
  match transferReq with
  | .euiccPackageRequest _ => Said (Refuses ctx.iotEuiccEmuEnabled) said
  | .ipaEuiccDataRequest _ => Said (Refuses ctx.iotEuiccEmuEnabled) said
  | .profileDownloadTriggerRequest dwnldTriggerReq =>
      (∀ activationCode, dwnldTriggerReq.profileDownloadData ≠ some (.activationCode activationCode)) ∨
        NoEimEntry codec ctx said
  | _ => False

/-- The eIM does not answer what it is told last. -/
def Unanswered (said : Trace) : Prop :=
  ∃ before, said = ⟨.provideEimPackageOutcome (.eimPackageError eimPackageUndefinedError), none⟩ :: before

end

/-! ## The report -/

section
variable {codec : EimCfgCodec} {asn1c : Asn1c} {ctx : IpaContext} {t : Trace}

/-- The report is an error in any case: a request without content turns into one. -/
theorem generateProvideEimResult_ends (success : Bool) (t : Trace) :
    Ends (fun rc t' => ∃ ans,
        t' = ⟨.provideEimPackageOutcome (.eimPackageError eimPackageUndefinedError), ans⟩ :: t ∧
          rc = if ans.isSome then 0 else einval) (fun _ _ => False) (generateProvideEimResult success) t := by
  have told : Ends (fun ans t' =>
      t' = ⟨.provideEimPackageOutcome (.eimPackageError eimPackageUndefinedError), ans⟩ :: t) (fun _ _ => False)
      (ipaEsipaPrvdeEimPkgRslt { eimPkgErr := if success then 0 else eimPackageUndefinedError }) t := by
    cases success <;> exact fun ans => rfl
  unfold generateProvideEimResult
  rw [ends_bind]
  apply told.imp
  rintro ans _ rfl
  cases ans with
  | none => exact ⟨none, rfl, rfl⟩
  | some eimAcknowledgements => exact ⟨some eimAcknowledgements, rfl, rfl⟩

/-! ## eUICC packages -/

/-- Neither tells the eIM anything nor asks for what could be refused. -/
def Req.Plain : Req → Prop
  | .loadEuiccPackage _ => False
  | .retrieveNotificationsList _ => False
  | .provideEimPackageResult _ _ => False
  | .provideEimPackageOutcome _ => False
  | .encode req => req.Plain
  | _ => True

theorem Req.Plain.notOutcome {req : Req} (plain : req.Plain) : req.isOutcome = false := by
  cases req with
  | provideEimPackageResult => exact plain.elim
  | provideEimPackageOutcome => exact plain.elim
  | _ => rfl

theorem Req.Plain.notRefuses {emulated : Bool} (req : Req) (ans : Ans req) (plain : req.Plain) :
    ¬ Refuses emulated ⟨req, ans⟩ := by
  cases req with
  | loadEuiccPackage => exact plain.elim
  | retrieveNotificationsList => exact plain.elim
  | encode req =>
      cases req with
      | loadEuiccPackage => exact False.elim plain
      | provideEimPackageResult => exact False.elim plain
      | provideEimPackageOutcome => exact False.elim plain
      | _ => exact id
  | _ => exact id

theorem outcomes_plain {said : Trace} (plain : ∀ event ∈ said, event.req.Plain) : outcomes said = [] :=
  List.filter_eq_nil_iff.mpr fun event member => Bool.eq_false_iff.mp (plain event member).notOutcome

/-- It fails without an outcome exactly when it was refused. -/
def Tells (emulated : Bool) (failed : Prop) (said : Trace) : Prop :=
  failed ∧ outcomes said = [] ↔ Said (Refuses emulated) said

theorem outcomes_append (said before : Trace) : outcomes (said ++ before) = outcomes said ++ outcomes before :=
  List.filter_append ..

theorem Tells.append {emulated : Bool} {failed : Prop} {said before : Trace} (tells : Tells emulated failed said)
    (none : outcomes before = []) (accepted : ¬ Said (Refuses emulated) before) :
    Tells emulated failed (said ++ before) := by
  rw [Tells, outcomes_append, none, List.append_nil, said_append, or_iff_left accepted]
  exact tells

theorem Tells.free {emulated : Bool} {failed : Prop} {said : Trace} (tells : Tells emulated failed said) :
    Tells emulated failed (⟨.mark .free, ()⟩ :: said) := by
  rw [Tells, said_cons, or_iff_right (a := Refuses emulated ⟨.mark .free, ()⟩) id]
  exact tells

theorem Tells.sent {emulated : Bool} {failed : Prop} {said : Trace} (event : Event Req Ans)
    (outcome : event.req.isOutcome = true) (member : event ∈ said)
    (accepted : ¬ Said (Refuses emulated) said) : Tells emulated failed said := by
  refine iff_of_false ?_ accepted
  rintro ⟨-, none⟩
  have found : event ∈ outcomes said := List.mem_filter.mpr ⟨member, outcome⟩
  rw [none] at found
  exact absurd found List.not_mem_nil

theorem Req.Removes.plain {req : Req} (removes : req.Removes) : req.Plain := by
  cases req with
  | removeNotificationFromList => trivial
  | _ => exact removes.elim

theorem Onset.tells {res : DwnldExecRes} {out : Int × DwnldExecRes} {said : Trace} (onset : Onset ctx res (.ok out) said)
    (unchanged : ¬ res.loadEuiccPkgRes.profileChanged = true) : Tells ctx.iotEuiccEmuEnabled (out.1 < 0) said := by
  have sole {later : Trace} (unprovided : Unprovided ctx res.called (.ok out) later) : later = [] ∧ out.1 < 0 := by
    have never : res.called.mayRollback = false := by
      rw [Bool.eq_false_iff]
      exact fun may => unchanged (Bool.and_eq_true_iff.mp (Bool.and_eq_true_iff.mp may).1).1
    cases unprovided with
    | failed => exact ⟨rfl, einval_neg⟩
    | tried allowed => cases never.symm.trans allowed
  cases onset with
  | unusable answer unusable => exact iff_of_true ⟨einval_neg, rfl⟩ ⟨_, List.mem_cons_self .., unusable⟩
  | unencoded answer notifications usable _ later unprovided =>
      obtain ⟨rfl, negative⟩ := sole unprovided
      exact iff_of_true ⟨negative, rfl⟩ ⟨_, List.mem_cons_self .., rfl⟩
  | silent answer notifications usable _ later unprovided =>
      obtain ⟨rfl, negative⟩ := sole unprovided
      refine .sent _ rfl (List.mem_cons_self ..) ?_
      simp [onsetSent, onsetEncoded, onsetAsked, Refuses, usable]
  | acknowledged answer notifications usable eimAcknowledgements _ _ later removes =>
      refine .sent _ rfl (List.mem_append_right _ (List.mem_cons_self ..)) ?_
      rw [said_append, or_iff_right (not_said_of_forall Req.Plain.notRefuses fun event member =>
        (removes event member).plain)]
      simp [onsetSent, onsetEncoded, onsetAsked, Refuses, usable]

theorem Req.Emulating.plain {req : Req} (emulating : req.Emulating) : req.Plain := by
  induction req with
  | loadEuiccPackage => exact emulating.elim
  | retrieveNotificationsList => exact emulating.elim
  | provideEimPackageResult => exact emulating.elim
  | provideEimPackageOutcome => exact emulating.elim
  | encode req ih => exact ih (Req.Commanding.emulating emulating)
  | _ => trivial

theorem ipaProcEuccPkgDwnldExec_tells (ctx : IpaContext) (req : EuiccPackageRequest) (t : Trace) :
    Ends (fun out t' => ∃ said, t' = said ++ t ∧ Tells ctx.iotEuiccEmuEnabled (out.2 = none) said) Anyway
      (ipaProcEuccPkgDwnldExec codec ctx req) t := by
  simp only [ipaProcEuccPkgDwnldExec, ends_bind, ends_mark]
  refine (ipaEs10bLoadEuiccPkg_loads codec ctx req).mono ?_ fun _ _ _ => trivial
  rintro ⟨ctx', load⟩ t' ⟨mode, -, loads⟩
  have loaded : ∃ said, t' = said ++ t ∧ outcomes said = [] ∧
      (load = none ↔ Said (Refuses ctx.iotEuiccEmuEnabled) said) := by
    cases loads with
    | emulated load t' adds =>
        obtain ⟨later, rfl, emulating⟩ := adds
        have plain : ∀ event ∈ later ++ [⟨.mark (.execute req), ()⟩], event.req.Plain := by
          rw [List.forall_mem_append, List.forall_mem_singleton]
          exact ⟨fun event member => (emulating event member).plain, trivial⟩
        exact ⟨later ++ [⟨.mark (.execute req), ()⟩], List.append_cons .., outcomes_plain plain,
          iff_of_false (Option.some_ne_none load) (not_said_of_forall Req.Plain.notRefuses plain)⟩
    | native ans events sends load same =>
        refine ⟨events ++ [⟨.mark (.execute req), ()⟩], List.append_cons .., ?_⟩
        rw [← Option.not_isSome_iff_eq_none, same, Option.not_isSome_iff_eq_none]
        rcases sends_cases sends with ⟨ans, ⟨⟩, rfl⟩ | ⟨⟨⟩, rfl⟩ | ⟨⟨⟩, -⟩
        · exact ⟨rfl, by simp [Refuses]⟩
        · exact ⟨rfl, iff_of_true rfl ⟨_, List.mem_cons_self .., rfl⟩⟩
  obtain ⟨said, rfl, silent, refused⟩ := loaded
  cases load with
  | none =>
      simp only [ends_bind, ends_mark, ends_pure]
      refine ⟨⟨.mark .free, ()⟩ :: said, rfl, Tells.free ?_⟩
      exact iff_of_true ⟨trivial, silent⟩ (refused.mp rfl)
  | some load =>
      have accepted : ¬ Said (Refuses ctx.iotEuiccEmuEnabled) said := mt refused.mpr (Option.some_ne_none load)
      simp only
      split
      · exact ⟨said, rfl, iff_of_false (fun both => Option.some_ne_none _ both.1) accepted⟩
      next unchanged =>
        rw [ends_bind]
        refine (ipaProcEuccPkgDwnldExecOnset_onset ctx' ⟨load, none, false⟩ _).mono ?_ fun _ _ _ => trivial
        rintro ⟨rc, res⟩ _ ⟨said', rfl, onset⟩
        have tells := onset.tells unchanged
        rw [mode] at tells
        have whole := tells.append silent accepted
        simp only
        split
        next negative =>
          simp only [ends_bind, ends_mark, ends_pure]
          refine ⟨⟨.mark .free, ()⟩ :: (said' ++ said), by rw [List.cons_append, List.append_assoc], Tells.free ?_⟩
          rwa [Tells, eq_true negative] at whole
        next nonneg =>
          refine ⟨said' ++ said, (List.append_assoc ..).symm, ?_⟩
          rwa [Tells, eq_false nonneg, ← eq_false (Option.some_ne_none res)] at whole

/-! ## The handlers -/

theorem handleInjectedEuiccPackage_tells (req : EuiccPackageRequest) (t : Trace) :
    Ends (fun out t' => ∃ said, t' = said ++ t ∧ Tells ctx.iotEuiccEmuEnabled (out.2 < 0) said) Anyway
      (handleInjectedEuiccPackage codec ctx req) t := by
  unfold handleInjectedEuiccPackage
  rw [ends_bind]
  refine (ipaProcEuccPkgDwnldExec_tells ctx req t).imp ?_
  rintro ⟨ctx', res⟩ _ ⟨said, rfl, tells⟩
  cases res with
  | none =>
      refine ⟨said, rfl, ?_⟩
      rw [Tells, eq_true einval_neg]
      rwa [Tells, eq_self] at tells
  | some res =>
      have passed : Tells ctx.iotEuiccEmuEnabled ((0 : Int) < 0) said := by
        rw [Tells, eq_false (Int.lt_irrefl 0)]
        rwa [Tells, eq_false (Option.some_ne_none res)] at tells
      simp only
      split
      · exact ⟨said, rfl, passed⟩
      · simp only [ends_bind, ends_mark, ends_pure]
        exact ⟨⟨.mark .free, ()⟩ :: said, rfl, passed.free⟩

theorem Req.Service.plain {req : Req} (service : req.Service) : req.Plain := by
  induction req with
  | loadEuiccPackage => exact service.elim
  | retrieveNotificationsList => exact service.elim
  | provideEimPackageResult => exact service.elim
  | provideEimPackageOutcome => exact service.elim
  | encode req ih => exact ih service
  | _ => trivial

theorem ipaProcEuiccDataReq_tells (req : IpaEuiccDataRequest) (t : Trace) :
    Ends (fun rc t' => ∃ said, t' = said ++ t ∧ Tells ctx.iotEuiccEmuEnabled (rc < 0) said) Anyway
      (ipaProcEuiccDataReq codec ctx req) t := by
  unfold ipaProcEuiccDataReq
  rw [ends_bind]
  refine ((collectIpaEuiccData_serving codec ctx req).adds t).mono ?_ fun _ _ _ => trivial
  rintro ⟨data, notifications⟩ _ ⟨collected, rfl, service⟩
  have plain : ∀ event ∈ collected, event.req.Plain := fun event member => (service event member).plain
  have accepted : ¬ Said (Refuses ctx.iotEuiccEmuEnabled) collected := not_said_of_forall Req.Plain.notRefuses plain
  rw [ends_bind]
  refine (ends_provideOutcome data _).mpr ⟨fun answer => ends_released ?_ _, ends_released ?_ _⟩
  · refine ⟨_ :: _ :: collected, rfl, .sent _ rfl (List.mem_cons_self ..) ?_⟩
    simp [Refuses, accepted]
  · refine ⟨⟨.encode (.provideEimPackageOutcome (.ipaEuiccDataResponse data)), .refused⟩ :: collected, rfl, ?_⟩
    refine iff_of_true ⟨einval_neg, ?_⟩ ⟨_, List.mem_cons_self .., rfl⟩
    show outcomes collected = []
    exact outcomes_plain plain

theorem getEuiccCiPkid_entry (codec : EimCfgCodec) (ctx : IpaContext) (t : Trace) :
    Ends (fun allowedCa t' => ∃ first, t' = first ++ t ∧ outcomes first = [] ∧
        ∀ later, NoEimEntry codec ctx (later ++ first) ↔ allowedCa = none) Anyway (getEuiccCiPkid codec ctx) t := by
  apply (getEuiccCiPkid_ends t).imp
  rintro _ t' ⟨list, rfl, asked⟩
  rw [Option.map_eq_none_iff]
  split at asked
  next emulated =>
    obtain ⟨rfl, rfl⟩ := asked
    exact ⟨[], rfl, rfl, fun later => by rw [NoEimEntry, if_pos emulated]; rfl⟩
  next native =>
    refine ⟨[⟨.getEimConfigurationData, list⟩], asked, rfl, fun later => ?_⟩
    rw [NoEimEntry, if_neg native]
    constructor
    · rintro ⟨later', ans', same, missing⟩
      cases (List.append_inj' same rfl).2
      exact missing
    · exact fun missing => ⟨later, list, rfl, missing⟩

theorem eimPkgExecDwnld_refused (req : ProfileDownloadTriggerRequest) (t : Trace) :
    Ends (fun out t' => ∃ said, t' = said ++ t ∧
        (out.2 < 0 ∧ outcomes said = [] ↔ Refused codec ctx (.profileDownloadTriggerRequest req) said)) Anyway
      (eimPkgExecDwnld codec asn1c ctx req) t := by
  unfold eimPkgExecDwnld
  split
  next activationCode data =>
    rw [ends_bind]
    refine (getEuiccCiPkid_entry codec ctx t).imp ?_
    rintro allowedCa _ ⟨first, rfl, silent, entry⟩
    cases allowedCa with
    | none => exact ⟨first, rfl, iff_of_true ⟨einval_neg, silent⟩ (.inr ((entry []).mpr rfl))⟩
    | some allowedCa =>
        simp only
        rw [ends_bind]
        refine ((ends_suffix _ (first ++ t)).mono (fun _ _ => id) fun _ _ _ => trivial).and
          (ipaProcIndirectPrfleDwnlod_succeeds _ allowedCa) |>.mono ?_ fun _ _ _ => trivial
        rintro ⟨ctx', _⟩ _ ⟨⟨later, rfl⟩, rfl⟩
        refine ⟨later ++ first, (List.append_assoc ..).symm, iff_of_false (fun both => ?_) ?_⟩
        · exact absurd both.1 (Int.lt_irrefl 0)
        · rintro (absent | missing)
          · exact absent activationCode data
          · exact Option.some_ne_none _ ((entry later).mp missing)
  next other =>
    exact ⟨[], rfl, iff_of_true ⟨einval_neg, rfl⟩ (.inl other)⟩

theorem handleInjected_refused {transferReq : TransferEimPackageRequest} (supported : transferReq ≠ .nothing)
    (t : Trace) :
    Ends (fun out t' => ∃ said, t' = said ++ t ∧
        (out.2 < 0 ∧ outcomes said = [] ↔ Refused codec ctx transferReq said)) Anyway
      (handleInjected codec asn1c ctx transferReq) t := by
  cases transferReq with
  | euiccPackageRequest req => exact handleInjectedEuiccPackage_tells req t
  | ipaEuiccDataRequest req =>
      simp only [handleInjected, handleInjectedIpaDataRequest, ends_bind]
      apply (ipaProcEuiccDataReq_tells req t).imp
      rintro rc _ ⟨said, same, tells⟩
      exact ⟨said, same, (and_congr_left' (by split <;> omega)).trans tells⟩
  | profileDownloadTriggerRequest req => exact eimPkgExecDwnld_refused req t
  | eimAcknowledgements => exact ⟨[], rfl, iff_of_false (fun both => absurd both.1 (Int.lt_irrefl 0)) id⟩
  | nothing => exact absurd rfl supported

/-! ## Handlers that do not return -/

def Req.Unreported (req : Req) : Prop := req.isEimPackageError = false

/-- No handler tells the eIM an error. -/
def Mute {α : Type} (program : ProcM α) : Prop :=
  ∀ t₀ t, Adds Req.Unreported t₀ t →
    Ends (fun _ t' => Adds Req.Unreported t₀ t') (fun _ t' => Adds Req.Unreported t₀ t') program t

section
variable {α β : Type}

theorem mute_pure (a : α) : Mute (pure a : ProcM α) := fun _ _ adds => adds

theorem Mute.bind {program : ProcM α} {next : α → ProcM β} (mute : Mute program) (rest : ∀ a, Mute (next a)) :
    Mute (program >>= next) := by
  intro t₀ t adds
  rw [ends_bind]
  exact (mute t₀ t adds).imp fun a t' adds' => rest a t₀ t' adds'

theorem mute_asks {program : ProcM α} {P : Req → Prop} {F : Abort → Prop} (asks : Asks P F program)
    (allowed : ∀ req, P req → req.Unreported) : Mute program := by
  intro t₀ t adds
  exact (asks.adds t).mono (fun _ _ more => adds.trans (more.imp allowed)) fun _ _ more => adds.trans (more.imp allowed)

theorem mute_mark (m : Mark) : Mute (mark m) := fun _ _ adds _ => adds.cons (.mark m) () rfl

end

theorem Req.Plain.unreported {req : Req} (plain : req.Plain) : req.Unreported := by
  cases req with
  | provideEimPackageOutcome => exact plain.elim
  | _ => rfl

theorem Req.Executing.unreported {req : Req} (executing : req.Executing) : req.Unreported := by
  cases req with
  | provideEimPackageOutcome => exact executing.elim
  | _ => rfl

theorem Req.Download.unreported {req : Req} (download : req.Download) : req.Unreported := by
  rcases download with service | loading | ⟨rc, rfl⟩
  · exact service.plain.unreported
  · cases req with
    | provideEimPackageOutcome => exact loading.elim
    | _ => rfl
  · rfl

theorem ipaEs10bLoadEuiccPkg_mute (ctx : IpaContext) (req : EuiccPackageRequest) :
    Mute (ipaEs10bLoadEuiccPkg codec ctx req) := by
  intro t₀ t adds
  have emulating {t' : Trace} (more : Adds Req.Emulating t t') : Adds Req.Unreported t₀ t' :=
    adds.trans (more.imp fun _ emulating => emulating.plain.unreported)
  refine (ipaEs10bLoadEuiccPkg_loads codec ctx req).mono ?_ ?_
  · rintro ⟨ctx', load⟩ t' ⟨-, -, loads⟩
    cases loads with
    | emulated load t' more => exact emulating more
    | native ans events sends => exact adds.trans (sends.adds (P := Req.Unreported) rfl rfl t)
  · rintro abort t' (more | rfl)
    · exact emulating more
    · exact adds.cons (.encode (.loadEuiccPackage req)) .aborted rfl

theorem ipaProcEuccPkgDwnldExec_mute (ctx : IpaContext) (req : EuiccPackageRequest) :
    Mute (ipaProcEuccPkgDwnldExec codec ctx req) := by
  apply (mute_mark (.execute req)).bind
  intro _
  apply (ipaEs10bLoadEuiccPkg_mute ctx req).bind
  rintro ⟨ctx', load⟩
  cases load with
  | none => exact (mute_mark .free).bind fun _ => mute_pure _
  | some load =>
      simp only
      split
      · exact mute_pure _
      apply (mute_asks (ipaProcEuccPkgDwnldExecOnset_asks ctx' _) fun _ => Req.Executing.unreported).bind
      rintro ⟨rc, res⟩
      simp only
      split
      · exact (mute_mark .free).bind fun _ => mute_pure _
      · exact mute_pure _

theorem provideOutcome_mute (data : IpaEuiccData) :
    Mute (ipaEsipaPrvdeEimPkgRslt { ipaEuiccDataResp := some data }) := by
  have asks : Asks Req.Unreported (fun _ => True) (send (.provideEimPackageOutcome (.ipaEuiccDataResponse data))) :=
    asks_send _ rfl rfl trivial
  exact mute_asks asks fun _ => id

theorem handleInjected_mute (ctx : IpaContext) (transferReq : TransferEimPackageRequest) :
    Mute (handleInjected codec asn1c ctx transferReq) := by
  cases transferReq with
  | euiccPackageRequest req =>
      apply (ipaProcEuccPkgDwnldExec_mute ctx req).bind
      rintro ⟨ctx', res⟩
      cases res with
      | none => exact mute_pure _
      | some res =>
          simp only
          split
          · exact mute_pure _
          · exact (mute_mark .free).bind fun _ => mute_pure _
  | ipaEuiccDataRequest req =>
      refine Mute.bind (Mute.bind (mute_asks (collectIpaEuiccData_serving codec ctx req) fun _ service =>
        service.plain.unreported) ?_) fun _ => mute_pure _
      rintro ⟨data, notifications⟩
      apply (provideOutcome_mute data).bind
      intro answer
      exact (mute_asks (asks_ofExcept (P := Req.Unreported) (F := fun _ => True) _ fun _ _ => trivial) fun _ => id).bind
        fun _ => mute_pure _
  | profileDownloadTriggerRequest req =>
      simp only [handleInjected, handleInjectedDownloadTrigger, eimPkgExecDwnld]
      split
      · apply (mute_asks (getEuiccCiPkid_serving codec ctx) fun _ service => service.plain.unreported).bind
        intro allowedCa
        cases allowedCa with
        | none => exact mute_pure _
        | some allowedCa =>
            exact (mute_asks (ipaProcIndirectPrfleDwnlod_downloading asn1c ctx _ allowedCa) fun _ =>
              Req.Download.unreported).bind fun _ => mute_pure _
      · exact mute_pure _
  | eimAcknowledgements => exact mute_pure _
  | nothing => exact mute_pure _

/-! ## The whole call -/

theorem refused_report {transferReq : TransferEimPackageRequest} (outcome : EimPackageOutcome)
    (ans : Ans (.provideEimPackageOutcome outcome)) (before : Trace) :
    Refused codec ctx transferReq (⟨.provideEimPackageOutcome outcome, ans⟩ :: before) ↔
      Refused codec ctx transferReq before := by
  have told : Said (Refuses ctx.iotEuiccEmuEnabled) (⟨.provideEimPackageOutcome outcome, ans⟩ :: before) ↔
      Said (Refuses ctx.iotEuiccEmuEnabled) before := by simp [Refuses]
  cases transferReq with
  | euiccPackageRequest => exact told
  | ipaEuiccDataRequest => exact told
  | profileDownloadTriggerRequest =>
      refine or_congr Iff.rfl ?_
      unfold NoEimEntry
      split
      · exact Iff.rfl
      constructor
      · rintro ⟨later, first, same, missing⟩
        cases later with
        | nil => cases same
        | cons _ later =>
            obtain ⟨-, rfl⟩ := List.cons.inj same
            exact ⟨later, first, rfl, missing⟩
      · rintro ⟨later, first, rfl, missing⟩
        exact ⟨_ :: later, first, rfl, missing⟩
  | eimAcknowledgements => exact Iff.rfl
  | nothing => exact Iff.rfl

theorem ipaProcEimPkgInject_eq {extDec : ExtDec} {package : List UInt8} {transferReq : TransferEimPackageRequest}
    (parsed : parseTransferEimPackage extDec package = .ok transferReq) (supported : transferReq ≠ .nothing) :
    ipaProcEimPkgInject codec asn1c extDec ctx package = (do
      let (ctx, rc) ← handleInjected codec asn1c ctx transferReq
      let rc ← generateProvideEimResult (rc = 0)
      return (ctx, if rc < 0 then rc else 0)) := by
  unfold ipaProcEimPkgInject
  rw [parsed]
  cases transferReq with
  | nothing => exact absurd rfl supported
  | _ => rfl

theorem ipaProcEimPkgInject_silent (ctx : IpaContext) (transferReq : TransferEimPackageRequest) (t : Trace) :
    Ends (fun _ _ => True) (fun _ t' => Adds Req.Unreported t t') (do
      let (ctx, rc) ← handleInjected codec asn1c ctx transferReq
      let rc ← generateProvideEimResult (rc = 0)
      return (ctx, if rc < 0 then rc else 0)) t := by
  rw [ends_bind]
  refine (handleInjected_mute ctx transferReq t t (.refl _ t)).imp ?_
  rintro ⟨ctx', rc⟩ t' -
  rw [ends_bind]
  exact (generateProvideEimResult_ends _ t').mono (fun _ _ _ => trivial) fun _ _ => False.elim

theorem handlerFailed_iff {transferReq : TransferEimPackageRequest} {before : Trace} {ctx₁ : IpaContext} {rc₁ : Int}
    (handled : Runs (handleInjected codec asn1c ctx transferReq) t (.ok (ctx₁, rc₁)) (before ++ t))
    (report : Event Req Ans) : HandlerFailed codec asn1c ctx transferReq t (report :: before) ↔ rc₁ < 0 := by
  constructor
  · rintro ⟨rc, ⟨ctx', _, _, same, other⟩, negative⟩
    obtain ⟨rfl, rfl⟩ := List.cons.inj same
    cases handled.unique other
    exact negative
  · exact fun negative => ⟨rc₁, ⟨ctx₁, report, before, rfl, handled⟩, negative⟩

theorem reportsOnce_iff_of_ok {transferReq : TransferEimPackageRequest} {out : IpaContext × Int} {said : Trace}
    (supported : transferReq ≠ .nothing)
    (runs : Runs (do
      let (ctx, rc) ← handleInjected codec asn1c ctx transferReq
      let rc ← generateProvideEimResult (rc = 0)
      return (ctx, if rc < 0 then rc else 0)) t (.ok out) (said ++ t)) :
    ReportsOnce codec asn1c ctx transferReq t said (.ok out) ↔
      Refused codec ctx transferReq said ∧ Unanswered said := by
  obtain ⟨⟨ctx₁, rc₁⟩, t₁, handled, runs⟩ := runs.of_bind
  obtain ⟨rc₂, t₂, reported, last⟩ := runs.of_bind
  obtain ⟨ans, rfl, rfl⟩ := ((generateProvideEimResult_ends _ t₁).of_runs reported).1 _ rfl
  obtain ⟨before, rfl, refused⟩ := ((handleInjected_refused supported t).of_runs handled).1 _ rfl
  obtain ⟨result, whole⟩ := last.of_pure
  cases List.append_cancel_right (whole.trans (List.cons_append ..).symm)
  cases result
  have failed := handlerFailed_iff handled
    ⟨.provideEimPackageOutcome (.eimPackageError eimPackageUndefinedError), ans⟩
  rw [refused_report, ← refused]
  constructor
  · rintro ⟨⟨event, one, error⟩, ctx', rc, returned, -, failure⟩
    obtain ⟨rfl, silent⟩ := List.cons.inj one
    have negative := failed.mp (error.mp rfl)
    refine ⟨⟨negative, silent⟩, ?_⟩
    cases ans with
    | none => exact ⟨before, rfl⟩
    | some eimAcknowledgements =>
        cases returned
        exact absurd (failure (failed.mpr negative)) (Int.lt_irrefl 0)
  · rintro ⟨⟨negative, silent⟩, before', same⟩
    cases same
    have handlerFailed := failed.mpr negative
    refine ⟨⟨⟨.provideEimPackageOutcome (.eimPackageError eimPackageUndefinedError), none⟩, ?_,
      iff_of_true rfl handlerFailed⟩, _, einval, rfl, iff_of_false (by decide) (not_not.mpr handlerFailed),
      fun _ => einval_neg⟩
    show _ :: outcomes before = _
    rw [silent]

end

/-! A trigger without data, which nobody answers, and acknowledgements. -/

def triggerBytes : List UInt8 := [0xBF, 0x4E, 0x03, 0xBF, 0x54, 0x00]

def onlyTrigger : ExtDec where
  ipaBufNew bytes := some (.ofBytes bytes)
  ipaEsipaMsgFromExtDec buf := if buf.bytes = triggerBytes then some (.profileDownloadTriggerRequest ⟨none⟩) else none

def silentReport : Event Req Ans := ⟨.provideEimPackageOutcome (.eimPackageError eimPackageUndefinedError), none⟩

end Ipad.Proc
