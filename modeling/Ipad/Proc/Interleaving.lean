import Ipad.Proc.Inject
import Ipad.Proc.Polling
import Ipad.Proc.ReturnCode

/-!
# Polls and injections on one context
-/

namespace Ipad.Proc
open Lib.Dialogue Ipad.EimCfg Ipad.Nvstate Ipad.BppSegments Ipad.Utils

section
variable {t t' : Trace}

/-! ## Requests that leave the execution -/

/-- Neither begins an execution nor ends one. -/
def Req.Steady : Req → Prop
  | .mark (.execute _) => False
  | .mark .free => False
  | _ => True

theorem Req.Steady.step {req : Req} (steady : req.Steady) (ans : Ans req) (seen : Seen) :
    (seen.step ⟨req, ans⟩).executing = seen.executing := by
  cases req with
  | getProfilesInfo purpose => cases purpose <;> rfl
  | mark m =>
      cases m with
      | execute => exact steady.elim
      | free => exact steady.elim
      | _ => rfl
  | _ => rfl

theorem executing_steady (adds : Adds Req.Steady t t') : (seen t').executing = (seen t).executing := by
  obtain ⟨later, rfl, steady⟩ := adds
  induction later with
  | nil => rfl
  | cons event later ih =>
      rw [List.forall_mem_cons] at steady
      exact (steady.1.step event.ans (seen (later ++ t))).trans (ih steady.2)

theorem Req.Emulating.steady {req : Req} (emulating : req.Emulating) : req.Steady := by
  cases req with
  | mark => exact emulating.elim
  | _ => trivial

theorem Req.Executing.steady {req : Req} (executing : req.Executing) : req.Steady := by
  cases req with
  | mark m =>
      cases m with
      | execute => exact executing.elim
      | free => exact executing.elim
      | _ => trivial
  | _ => trivial

theorem Req.Idle.steady {req : Req} (idle : req.Idle) : req.Steady := by
  cases req with
  | mark m =>
      cases m with
      | execute => exact idle.elim
      | free => exact idle.elim
      | _ => trivial
  | _ => trivial

theorem steady_ends {α : Type} {program : ProcM α} {P : Req → Prop} {F : Abort → Prop} (asks : Asks P F program)
    (allowed : ∀ req, P req → req.Steady) (t : Trace) :
    Ends (fun _ t' => (seen t').executing = (seen t).executing) Anyway program t :=
  (asks.adds t).mono (fun _ _ adds => executing_steady (adds.imp allowed)) fun _ _ _ => trivial

/-! ## Onset steps -/

/-- The onset step for this execution provides its result. -/
def Offers (res : DwnldExecRes) (t t' : Trace) : Prop :=
  ∃ answer notifications eimAcknowledgements later,
    t' = later ++ (onsetSent res answer notifications eimAcknowledgements ++ t)

/-- There are no notifications to go with the result, or the two make no message. -/
def HoldsBack (emulated : Bool) : Event Req Ans → Prop
  | ⟨.retrieveNotificationsList _, answer⟩ => usableAnswer emulated answer = none
  | ⟨.encode (.provideEimPackageResult _ _), outcome⟩ => outcome ≠ .encoded
  | _ => False

theorem Onset.offers {ctx : IpaContext} {res : DwnldExecRes} {out : Except Abort (Int × DwnldExecRes)} {said : Trace}
    (onset : Onset ctx res out said) (provided : ¬ Said (HoldsBack ctx.iotEuiccEmuEnabled) said) (t : Trace) :
    Offers res t (said ++ t) := by
  cases onset with
  | unusable answer unusable => exact absurd ⟨_, List.mem_cons_self .., unusable⟩ provided
  | unreleasable answer wild =>
      cases usable : usableAnswer ctx.iotEuiccEmuEnabled answer with
      | none => exact absurd ⟨_, List.mem_cons_self .., usable⟩ provided
      | some notifications => exact absurd (releasable_of_usable usable) wild
  | aborted => exact absurd ⟨_, List.mem_cons_self .., Encoding.noConfusion⟩ provided
  | unencoded =>
      refine absurd ⟨_, List.mem_append_right _ (List.mem_cons_self ..), Encoding.noConfusion⟩ provided
  | silent answer notifications _ _ later => exact ⟨answer, notifications, none, later, List.append_assoc ..⟩
  | acknowledged answer notifications _ eimAcknowledgements _ _ later =>
      exact ⟨answer, notifications, some eimAcknowledgements, later, List.append_assoc ..⟩

theorem Onset.same {ctx : IpaContext} {res : DwnldExecRes} {out : Int × DwnldExecRes} {said : Trace}
    (onset : Onset ctx res (.ok out) said) : out.2.loadEuiccPkgRes = res.loadEuiccPkgRes := by
  have unprovided {later : Trace} (after : Unprovided ctx res.called (.ok out) later) :
      out.2.loadEuiccPkgRes = res.loadEuiccPkgRes := by
    cases after with
    | failed => rfl
    | tried _ _ same => exact same
  cases onset with
  | unusable => rfl
  | unencoded _ _ _ _ _ after => exact unprovided after
  | silent _ _ _ _ _ after => exact unprovided after
  | acknowledged _ _ _ _ _ same =>
      rw [same]
      rfl

/-! ## The slot -/

/-- What waits in the context is the execution that has begun and not ended, and its onset step is to come. -/
structure Waits (ctx : IpaContext) (t : Trace) : Prop where
  callOnset : ∀ res, ctx.procEuccPkgDwnldExecRes = some res → res.callOnset = true
  executing : (seen t).executing.isSome ↔ ctx.procEuccPkgDwnldExecRes.isSome

variable {codec : EimCfgCodec} {asn1c : Asn1c} {ctx ctx' : IpaContext} {res : DwnldExecRes}

theorem Waits.steady (waits : Waits ctx t) (executing : (seen t').executing = (seen t).executing)
    (same : ctx'.procEuccPkgDwnldExecRes = ctx.procEuccPkgDwnldExecRes) : Waits ctx' t' where
  callOnset := fun res found => waits.callOnset res (same.symm.trans found)
  executing := by rw [executing, same]; exact waits.executing

theorem Waits.freed (ctx : IpaContext) (t : Trace) : Waits (ctx.setExecution none) (⟨.mark .free, ()⟩ :: t) where
  callOnset := fun _ found => absurd found.symm (Option.some_ne_none _)
  executing := iff_of_false Bool.false_ne_true Bool.false_ne_true

theorem Waits.stored (ctx : IpaContext) (callOnset : res.callOnset = true) (executing : (seen t).executing.isSome) :
    Waits (ctx.setExecution (some res)) t where
  callOnset := by
    rintro _ ⟨⟩
    exact callOnset
  executing := iff_of_true executing rfl

theorem ipaProcEuccPkgDwnldExec_slot (ctx : IpaContext) (req : EuiccPackageRequest) (t : Trace) :
    Ends (fun out t' => (seen t').executing.isSome ↔ out.2.isSome) Anyway
      (ipaProcEuccPkgDwnldExec codec ctx req) t := by
  simp only [ipaProcEuccPkgDwnldExec, ends_bind, ends_mark]
  refine (ipaEs10bLoadEuiccPkg_loads codec ctx req).mono ?_ fun _ _ _ => trivial
  rintro ⟨ctx', load⟩ t' ⟨-, -, loads⟩
  have begun : (seen t').executing = some req := by
    cases loads with
    | emulated load t' adds => exact executing_steady (adds.imp fun _ => Req.Emulating.steady)
    | native _ _ sends => exact executing_steady (sends.adds trivial trivial _)
  cases load with
  | none =>
      simp only [ends_bind, ends_mark, ends_pure]
      exact Iff.rfl
  | some load =>
      simp only
      split
      · rw [ends_pure, begun]
        exact Iff.rfl
      rw [ends_bind]
      refine (steady_ends (ipaProcEuccPkgDwnldExecOnset_asks ctx' _) (fun _ => Req.Executing.steady) t').mono ?_
        fun _ _ _ => trivial
      rintro ⟨rc, res⟩ t'' executing
      simp only
      split
      · simp only [ends_bind, ends_mark, ends_pure]
        exact Iff.rfl
      · rw [ends_pure, executing, begun]
        exact Iff.rfl

theorem handleInjectedEuiccPackage_waits (ctx : IpaContext) (req : EuiccPackageRequest) (t : Trace) :
    Ends (fun out t' => Waits out.1 t') Anyway (handleInjectedEuiccPackage codec ctx req) t := by
  unfold handleInjectedEuiccPackage
  rw [ends_bind]
  refine (ipaProcEuccPkgDwnldExec_slot ctx req t).mono ?_ fun _ _ _ => trivial
  rintro ⟨ctx', res⟩ t' executing
  cases res with
  | none =>
      exact ⟨fun _ found => absurd found.symm (Option.some_ne_none _), executing⟩
  | some res =>
      simp only
      split
      next callOnset => exact .stored ctx' callOnset (executing.mpr rfl)
      · simp only [ends_bind, ends_mark, ends_pure]
        exact .freed ctx' t'

theorem eimPkgExecEuiccPackage_waits (vacant : ctx.procEuccPkgDwnldExecRes = none) (req : EuiccPackageRequest)
    (t : Trace) : Ends (fun out t' => Waits out.1 t') Anyway (eimPkgExecEuiccPackage codec ctx req) t := by
  rw [eimPkgExecEuiccPackage, if_neg (by rw [vacant]; exact Bool.false_ne_true), ends_bind]
  refine (ipaProcEuccPkgDwnldExec_slot ctx req t).mono ?_ fun _ _ _ => trivial
  rintro ⟨ctx', res⟩ t' executing
  cases res with
  | none =>
      simp only [ends_bind, ends_request, ends_pure]
      exact fun _ => ⟨fun _ found => absurd found.symm (Option.some_ne_none _), executing⟩
  | some res =>
      simp only
      split
      next callOnset => exact .stored ctx' callOnset (executing.mpr rfl)
      · simp only [ends_bind, ends_mark, ends_pure]
        exact .freed ctx' t'

/-! ## Injections -/

theorem Req.Download.steady {req : Req} (download : req.Download) : req.Steady := by
  obtain service | loading | ⟨rc, rfl⟩ := download
  · exact service.idle.steady
  · cases req with
    | mark m =>
        cases m with
        | execute => exact loading.elim
        | free => exact loading.elim
        | _ => trivial
    | _ => trivial
  · trivial

theorem ipaProcIndirectPrfleDwnlod_same (ctx : IpaContext) (ac : List UInt8) (allowedCa : Option (List UInt8))
    (t : Trace) : Ends (fun out _ => out.1.procEuccPkgDwnldExecRes = ctx.procEuccPkgDwnldExecRes) Anyway
      (ipaProcIndirectPrfleDwnlod asn1c ctx ac allowedCa) t :=
  have kept : Kept false [] [] := .refl trivial
  (ipaProcIndirectPrfleDwnlod_keeps asn1c kept ctx ac allowedCa).anywhere (fun _ _ after => after.1.execution) t

def Stays (ctx : IpaContext) (program : ProcM (IpaContext × Int)) (t : Trace) : Prop :=
  Ends (fun out t' => out.1.procEuccPkgDwnldExecRes = ctx.procEuccPkgDwnldExecRes ∧
    (seen t').executing = (seen t).executing) Anyway program t

theorem eimPkgExecDwnld_stays (ctx : IpaContext) (req : ProfileDownloadTriggerRequest) (t : Trace) :
    Stays ctx (eimPkgExecDwnld codec asn1c ctx req) t := by
  unfold Stays eimPkgExecDwnld
  split
  · rw [ends_bind]
    refine (steady_ends (getEuiccCiPkid_serving codec ctx) (fun _ service => service.idle.steady) t).mono ?_
      fun _ _ _ => trivial
    intro allowedCa t' executing
    cases allowedCa with
    | none => exact ⟨rfl, executing⟩
    | some allowedCa =>
        simp only
        rw [ends_bind]
        refine ((steady_ends (ipaProcIndirectPrfleDwnlod_downloading asn1c ctx _ allowedCa)
          (fun _ => Req.Download.steady) t').and (ipaProcIndirectPrfleDwnlod_same ctx _ allowedCa t')).mono ?_
            fun _ _ _ => trivial
        exact fun _ _ both => ⟨both.2, both.1.trans executing⟩
  · exact ⟨rfl, rfl⟩

theorem ipaProcEuiccDataReq_steady (ctx : IpaContext) (req : IpaEuiccDataRequest) (t : Trace) :
    Ends (fun _ t' => (seen t').executing = (seen t).executing) Anyway (ipaProcEuiccDataReq codec ctx req) t :=
  steady_ends (ipaProcEuiccDataReq_quiet codec ctx req) (fun _ => Req.Idle.steady) t

theorem handleInjected_stays (ctx : IpaContext) {transferReq : TransferEimPackageRequest}
    (other : ∀ euiccPkgReq, transferReq ≠ .euiccPackageRequest euiccPkgReq) (t : Trace) :
    Stays ctx (handleInjected codec asn1c ctx transferReq) t := by
  cases transferReq with
  | euiccPackageRequest euiccPkgReq => exact absurd rfl (other euiccPkgReq)
  | ipaEuiccDataRequest ipaDataReq =>
      simp only [Stays, handleInjected, handleInjectedIpaDataRequest, ends_bind]
      exact (ipaProcEuiccDataReq_steady ctx ipaDataReq t).imp fun _ _ executing => ⟨rfl, executing⟩
  | profileDownloadTriggerRequest dwnldTriggerReq => exact eimPkgExecDwnld_stays ctx dwnldTriggerReq t
  | eimAcknowledgements => exact ⟨rfl, rfl⟩
  | nothing => exact ⟨rfl, rfl⟩

theorem generateProvideEimResult_steady (success : Bool) (t : Trace) :
    Ends (fun _ t' => (seen t').executing = (seen t).executing) Anyway (generateProvideEimResult success) t := by
  unfold generateProvideEimResult
  rw [ends_bind]
  refine (steady_ends (ipaEsipaPrvdeEimPkgRslt_quiet _) (fun _ => Req.Idle.steady) t).imp ?_
  intro res t' executing
  cases res with
  | none => exact executing
  | some res => exact executing

theorem ipaProcEimPkgInject_waits (extDec : ExtDec) (waits : Waits ctx t) (package : List UInt8)
    (clear : ctx.procEuccPkgDwnldExecRes.isSome →
      ∀ euiccPkgReq, parseTransferEimPackage extDec package ≠ .ok (.euiccPackageRequest euiccPkgReq)) :
    Ends (fun out t' => Waits out.1 t' ∧ ∀ res, ctx.procEuccPkgDwnldExecRes = some res →
      out.1.procEuccPkgDwnldExecRes = some res) Anyway (ipaProcEimPkgInject codec asn1c extDec ctx package) t := by
  have reports {ctx' : IpaContext} {t' : Trace} (rc : Int) (waits : Waits ctx' t') (kept : ∀ res,
      ctx.procEuccPkgDwnldExecRes = some res → ctx'.procEuccPkgDwnldExecRes = some res) :
      Ends (fun out t' => Waits out.1 t' ∧ ∀ res, ctx.procEuccPkgDwnldExecRes = some res →
          out.1.procEuccPkgDwnldExecRes = some res) Anyway
        (generateProvideEimResult (rc = 0) >>= fun rc => pure (ctx', if rc < 0 then rc else 0)) t' := by
    rw [ends_bind]
    exact (generateProvideEimResult_steady _ t').imp fun _ _ executing => ⟨waits.steady executing rfl, kept⟩
  unfold ipaProcEimPkgInject
  split
  · exact ⟨waits, fun _ => id⟩
  · exact ⟨waits, fun _ => id⟩
  next transferReq _ parsed =>
    by_cases euiccPackage : ∃ euiccPkgReq, transferReq = .euiccPackageRequest euiccPkgReq
    · obtain ⟨euiccPkgReq, rfl⟩ := euiccPackage
      rw [ends_bind]
      refine (handleInjectedEuiccPackage_waits ctx euiccPkgReq t).imp fun out t' waits => reports out.2 waits ?_
      intro res found
      exact absurd parsed (clear (by rw [found]; rfl) euiccPkgReq)
    · rw [ends_bind]
      refine (handleInjected_stays ctx (fun req same => euiccPackage ⟨req, same⟩) t).imp ?_
      rintro out t' ⟨same, executing⟩
      exact reports out.2 (waits.steady executing same) fun _ found => same.trans found

/-! ## Polls -/

/-- An onset step that completed the execution or failed, or after which it goes on. -/
structure Continues (ctx : IpaContext) (res : DwnldExecRes) (t : Trace) (out : IpaContext × Int) (t' : Trace) :
    Prop where
  offers : ∀ said, t' = said ++ t → ¬ Said (HoldsBack ctx.iotEuiccEmuEnabled) said →
    Offers res (⟨.mark .resetCanaries, ()⟩ :: t) t'
  slot : out.1.procEuccPkgDwnldExecRes = none ∧ (out.2 = pollAgain ∨ out.2 < 0) ∨
    ∃ res', out.1.procEuccPkgDwnldExecRes = some res' ∧ res'.loadEuiccPkgRes = res.loadEuiccPkgRes ∧
      out.2 = pollAgainWhenOnline

theorem Onset.offers_later {out : Except Abort (Int × DwnldExecRes)} {onsetSaid : Trace}
    (onset : Onset ctx res out onsetSaid) {t' : Trace}
    (suffix : onsetSaid ++ ⟨.mark .resetCanaries, ()⟩ :: t <:+ t') {said : Trace} (split : t' = said ++ t)
    (provided : ¬ Said (HoldsBack ctx.iotEuiccEmuEnabled) said) : Offers res (⟨.mark .resetCanaries, ()⟩ :: t) t' := by
  obtain ⟨after, rfl⟩ := suffix
  have whole : said = after ++ onsetSaid ++ [⟨.mark .resetCanaries, ()⟩] := by
    have same : said ++ t = after ++ onsetSaid ++ [⟨.mark .resetCanaries, ()⟩] ++ t := by
      rw [← split]
      simp
    exact List.append_cancel_right same
  have apart : ¬ Said (HoldsBack ctx.iotEuiccEmuEnabled) onsetSaid := fun withheld =>
    provided (by rw [whole, said_append, said_append]; exact .inl (.inr withheld))
  obtain ⟨answer, notifications, eimAcknowledgements, later, same⟩ :=
    onset.offers apart (⟨.mark .resetCanaries, ()⟩ :: t)
  exact ⟨answer, notifications, eimAcknowledgements, after ++ later, by rw [same, List.append_assoc]⟩

theorem checkCanaries_waits (waits : Waits ctx t) :
    Ends (fun rc t' => rc < 0 ∧ t <:+ t' ∧ Waits ctx t') Anyway checkCanaries t := by
  simp only [checkCanaries, ends_bind, ends_request]
  rintro ⟨checkHttp, checkScard⟩
  refine ⟨?_, List.suffix_cons .., waits.steady rfl rfl⟩
  cases checkHttp <;> cases checkScard <;> decide

theorem ipaPoll_continues (waits : Waits ctx t) (found : ctx.procEuccPkgDwnldExecRes = some res) :
    Ends (fun out t' => Waits out.1 t' ∧ Continues ctx res t out t') Anyway (ipaPoll codec asn1c ctx) t := by
  simp only [ipaPoll, ends_bind, ends_mark, found]
  have begun : (seen t).executing.isSome := waits.executing.mpr (by rw [found]; rfl)
  refine ((ipaProcEuccPkgDwnldExecOnset_onset ctx res _).and (steady_ends (ipaProcEuccPkgDwnldExecOnset_asks ctx res)
    (fun _ => Req.Executing.steady) _)).mono ?_ fun _ _ _ => trivial
  rintro ⟨rc, res'⟩ _ ⟨⟨said, rfl, onset⟩, executing⟩
  simp only
  split
  · simp only [ends_bind, ends_mark]
    refine (checkCanaries_waits (.freed ctx _)).imp ?_
    rintro rc t'' ⟨negative, suffix, waits⟩
    exact ⟨waits, fun _ => onset.offers_later ((List.suffix_cons ..).trans suffix), .inl ⟨rfl, .inr negative⟩⟩
  split
  · simp only [ends_bind, ends_mark, ends_pure]
    exact ⟨.freed ctx _, fun _ => onset.offers_later (List.suffix_cons ..), .inl ⟨rfl, .inl rfl⟩⟩
  next callOnset =>
    exact ⟨.stored ctx (by simpa using callOnset) (by rw [executing]; exact begun),
      fun _ => onset.offers_later List.suffix_rfl, .inr ⟨res', rfl, onset.same, rfl⟩⟩

theorem eimPkgExec_waits (waits : Waits ctx t) (vacant : ctx.procEuccPkgDwnldExecRes = none)
    (response : GetEimPackageResponse) :
    Ends (fun out t' => Waits out.1 t') Anyway (eimPkgExec codec asn1c ctx response) t := by
  cases response with
  | euiccPackageRequest euiccPackageRequest => exact eimPkgExecEuiccPackage_waits vacant euiccPackageRequest t
  | ipaEuiccDataRequest ipaEuiccDataRequest =>
      simp only [eimPkgExec, ends_bind]
      exact (ipaProcEuiccDataReq_steady ctx ipaEuiccDataRequest t).imp
        fun _ _ executing => waits.steady executing rfl
  | profileDownloadTriggerRequest dwnldTriggerRequest =>
      exact (eimPkgExecDwnld_stays ctx dwnldTriggerRequest t).imp
        fun _ _ stays => waits.steady stays.2 stays.1
  | eimPackageError => exact waits
  | nothing => exact waits

theorem ipaProcEimPkgRetr_waits (waits : Waits ctx t) (vacant : ctx.procEuccPkgDwnldExecRes = none) :
    Ends (fun out t' => Waits out.1 t') Anyway (ipaProcEimPkgRetr codec asn1c ctx) t := by
  simp only [ipaProcEimPkgRetr, ends_bind, ends_request]
  intro ans
  have asked : Waits ctx (⟨.getEimPackage, ans⟩ :: t) := waits.steady rfl rfl
  cases ans with
  | none => exact asked
  | some response =>
      simp only
      split
      · exact asked
      split
      · exact asked
      exact eimPkgExec_waits asked vacant response

theorem ipaPoll_waits (waits : Waits ctx t) (vacant : ctx.procEuccPkgDwnldExecRes = none) :
    Ends (fun out t' => Waits out.1 t') Anyway (ipaPoll codec asn1c ctx) t := by
  simp only [ipaPoll, ends_bind, ends_mark, vacant]
  refine (steady_ends (ipaNotifDelivery_asks ctx) (fun _ => Req.Executing.steady) _).mono ?_ fun _ _ _ => trivial
  intro _ t' executing
  rw [ends_bind]
  refine (ipaProcEimPkgRetr_waits (waits.steady executing rfl) vacant).imp ?_
  rintro ⟨ctx', rc⟩ t'' waits
  simp only
  split
  · exact waits
  split
  · rw [ends_bind]
    exact (checkCanaries_waits waits).imp fun _ _ checked => checked.2.2
  split
  · exact waits
  · exact waits

/-! ## Interleavings -/

inductive Entry where
  | ipaPoll
  | ipaProcEimPkgInject (extDec : ExtDec) (package : List UInt8)

structure ApiCall where
  entry : Entry
  ctx : IpaContext
  t : Trace
  ctx' : IpaContext
  rc : Int
  t' : Trace

section
variable (codec : EimCfgCodec) (asn1c : Asn1c)

def Entry.program (ctx : IpaContext) : Entry → ProcM (IpaContext × Int)
  | .ipaPoll => Proc.ipaPoll codec asn1c ctx
  | .ipaProcEimPkgInject extDec package => Proc.ipaProcEimPkgInject codec asn1c extDec ctx package

/-- The contexts that sequences of calls lead to. The latest call comes first. -/
inductive Interleaved : List ApiCall → IpaContext → Trace → Prop where
  | new (iotEuiccEmuEnabled : Bool) (eimId : List UInt8) (nvstate : IpaNvstate) (cfg : IpaConfig) :
      Interleaved [] (.fresh iotEuiccEmuEnabled eimId nvstate cfg) []
  | call (h : List ApiCall) (ctx : IpaContext) (t : Trace) (before : Interleaved h ctx t) (entry : Entry)
      (ctx' : IpaContext) (rc : Int) (t' : Trace)
      (runs : Runs (entry.program codec asn1c ctx) t (.ok (ctx', rc)) t') :
      Interleaved (⟨entry, ctx, t, ctx', rc, t'⟩ :: h) ctx' t'

end

/-- A poll does not get to provide the result of the execution that waits. -/
def ApiCall.Withholds (call : ApiCall) : Prop :=
  call.ctx.procEuccPkgDwnldExecRes.isSome ∧ call.entry = .ipaPoll ∧
    ∃ said, call.t' = said ++ call.t ∧ Said (HoldsBack call.ctx.iotEuiccEmuEnabled) said

/-- An eUICC package is injected while an execution waits. -/
def ApiCall.Overwrites (call : ApiCall) : Prop :=
  call.ctx.procEuccPkgDwnldExecRes.isSome ∧
    match call.entry with
    | .ipaPoll => False
    | .ipaProcEimPkgInject extDec package =>
        ∃ euiccPkgReq, parseTransferEimPackage extDec package = .ok (.euiccPackageRequest euiccPkgReq)

def ApiCall.Keeps (call : ApiCall) (res : DwnldExecRes) : Prop :=
  match call.entry with
  | .ipaPoll => Continues call.ctx res call.t (call.ctx', call.rc) call.t'
  | .ipaProcEimPkgInject _ _ => call.ctx'.procEuccPkgDwnldExecRes = some res

/-- What was executed and not delivered waits in the context, only a poll takes it from there, and the next
poll offers it to the eIM. -/
structure NeverLost (h : List ApiCall) : Prop where
  waits : ∀ call ∈ h, Waits call.ctx' call.t'
  keeps : ∀ call ∈ h, ∀ res, call.ctx.procEuccPkgDwnldExecRes = some res → call.Keeps res
  offered : ∀ later poll between call earlier res, h = later ++ poll :: (between ++ call :: earlier) →
    poll.entry = .ipaPoll → (∀ other ∈ between, other.entry ≠ .ipaPoll) →
      call.ctx'.procEuccPkgDwnldExecRes = some res →
        Offers res (⟨.mark .resetCanaries, ()⟩ :: poll.t) poll.t'

theorem Entry.program_keeps (waits : Waits ctx t) {entry : Entry} {rc : Int}
    (runs : Runs (entry.program codec asn1c ctx) t (.ok (ctx', rc)) t')
    (clear : ¬ ApiCall.Overwrites ⟨entry, ctx, t, ctx', rc, t'⟩) :
    Waits ctx' t' ∧ ∀ res, ctx.procEuccPkgDwnldExecRes = some res →
      ApiCall.Keeps ⟨entry, ctx, t, ctx', rc, t'⟩ res := by
  cases entry with
  | ipaPoll =>
      cases found : ctx.procEuccPkgDwnldExecRes with
      | none => exact ⟨((ipaPoll_waits waits found).of_runs runs).1 _ rfl, fun _ other => by cases other⟩
      | some res =>
          obtain ⟨waits', continues⟩ := ((ipaPoll_continues waits found).of_runs runs).1 _ rfl
          refine ⟨waits', ?_⟩
          rintro _ ⟨⟩
          exact continues
  | ipaProcEimPkgInject extDec package =>
      have apart : ctx.procEuccPkgDwnldExecRes.isSome → ∀ euiccPkgReq,
          parseTransferEimPackage extDec package ≠ .ok (.euiccPackageRequest euiccPkgReq) :=
        fun pending euiccPkgReq parsed => clear ⟨pending, euiccPkgReq, parsed⟩
      exact ((ipaProcEimPkgInject_waits extDec waits package apart).of_runs runs).1 _ rfl

/-- As long as there was no poll, what a call has left is still there. -/
def Carried (h : List ApiCall) (ctx : IpaContext) : Prop :=
  ∀ between call earlier res, h = between ++ call :: earlier → (∀ other ∈ between, other.entry ≠ .ipaPoll) →
    call.ctx'.procEuccPkgDwnldExecRes = some res → ctx.procEuccPkgDwnldExecRes = some res

theorem NeverLost.cons {h : List ApiCall} (before : NeverLost h) {call : ApiCall} (carried : Carried h call.ctx)
    (waits : Waits call.ctx' call.t') (keeps : ∀ res, call.ctx.procEuccPkgDwnldExecRes = some res → call.Keeps res)
    (suffix : call.t <:+ call.t') (provides : ¬ call.Withholds) : NeverLost (call :: h) where
  waits := List.forall_mem_cons.mpr ⟨waits, before.waits⟩
  keeps := List.forall_mem_cons.mpr ⟨keeps, before.keeps⟩
  offered := by
    intro later poll between first earlier res split polls injects found
    cases later with
    | nil =>
        obtain ⟨rfl, rfl⟩ := List.cons.inj split
        have pending := carried between first earlier res rfl injects found
        have continues := keeps res pending
        rw [ApiCall.Keeps, polls] at continues
        obtain ⟨said, whole⟩ := suffix
        exact continues.offers said whole.symm fun withheld =>
          provides ⟨by rw [pending]; rfl, polls, said, whole.symm, withheld⟩
    | cons _ later =>
        obtain ⟨-, rfl⟩ := List.cons.inj split
        exact before.offered later poll between first earlier res rfl polls injects found

theorem Carried.cons {h : List ApiCall} {call : ApiCall} (carried : Carried h call.ctx)
    (keeps : ∀ res, call.ctx.procEuccPkgDwnldExecRes = some res → call.Keeps res) :
    Carried (call :: h) call.ctx' := by
  intro between first earlier res split injects found
  cases between with
  | nil =>
      obtain ⟨rfl, rfl⟩ := List.cons.inj split
      exact found
  | cons _ between =>
      obtain ⟨rfl, rfl⟩ := List.cons.inj split
      rw [List.forall_mem_cons] at injects
      have kept := keeps res (carried between first earlier res rfl injects.2 found)
      cases entry : call.entry with
      | ipaPoll => exact absurd entry injects.1
      | ipaProcEimPkgInject extDec package =>
          rw [ApiCall.Keeps, entry] at kept
          exact kept

/-- In every sequence of calls that injects no eUICC package over a waiting execution, and in which every poll
over one gets its result and the notifications together, no execution is lost. -/
theorem interleaved_neverLost {h : List ApiCall} (run : Interleaved codec asn1c h ctx t)
    (clear : ∀ call ∈ h, ¬ call.Overwrites ∧ ¬ call.Withholds) : NeverLost h := by
  suffices all : Waits ctx t ∧ NeverLost h ∧ Carried h ctx from all.2.1
  induction run with
  | new iotEuiccEmuEnabled eimId nvstate cfg =>
      refine ⟨⟨fun _ found => absurd found.symm (Option.some_ne_none _), Iff.rfl⟩,
        ⟨fun _ member => absurd member List.not_mem_nil, fun _ member => absurd member List.not_mem_nil, ?_⟩, ?_⟩
      · intro later poll between call earlier res split
        simp at split
      · intro between call earlier res split
        simp at split
  | call h ctx t before entry ctx' rc t' runs ih =>
      rw [List.forall_mem_cons] at clear
      obtain ⟨waits, neverLost, carried⟩ := ih clear.2
      obtain ⟨waits', keeps⟩ := entry.program_keeps waits runs clear.1.1
      exact ⟨waits', neverLost.cons carried waits' keeps runs.suffix clear.1.2, carried.cons keeps⟩

end

/-! Acknowledgements, and a package, injected while the result of another package waits. -/

def acknowledgementsBytes : List UInt8 := [0xBF, 0x4E, 0x06, 0xBF, 0x53, 0x03, 0x80, 0x01, 0x04]

def enablePackageBytes : List UInt8 :=
  [0xBF, 0x4E, 0x28, 0xBF, 0x51, 0x25, 0x30, 0x20, 0x80, 0x00, 0x5A, 0x10] ++ List.replicate 16 0 ++
    [0x81, 0x01, 0x01, 0xA0, 0x07, 0xA3, 0x05, 0x5A, 0x01, 0x01, 0x05, 0x00, 0x5F, 0x37, 0x00]

def twoRequests : ExtDec where
  ipaBufNew bytes := some (.ofBytes bytes)
  ipaEsipaMsgFromExtDec buf :=
    if buf.bytes = acknowledgementsBytes then some (.eimAcknowledgements [4])
    else if buf.bytes = enablePackageBytes then some (.euiccPackageRequest enablePackage)
    else none

theorem acknowledged_neverLost : ∃ h ctx t, Interleaved derCodec oneChunk h ctx t ∧ h.length = 2 ∧
    ctx.procEuccPkgDwnldExecRes.isSome ∧ NeverLost h := by
  have polled : Interleaved derCodec oneChunk [_] _ _ :=
    .call [] _ _ (.new false [] .fresh plainConfig) .ipaPoll _ _ _ (runs_run unreachable.answer _ _)
  have injected := Interleaved.call _ _ _ polled (.ipaProcEimPkgInject twoRequests acknowledgementsBytes) _ _ _
    (runs_run unreachable.answer _ _)
  refine ⟨_, _, _, injected, rfl, rfl, interleaved_neverLost injected ?_⟩
  rw [List.forall_mem_cons, List.forall_mem_singleton]
  constructor
  · constructor
    · rintro ⟨-, euiccPkgReq, parsed⟩
      cases parsed
    · rintro ⟨-, polls, -⟩
      cases polls
  · exact ⟨And.right, fun withholds => Bool.false_ne_true withholds.1⟩

/-- The result that waited is gone with the injected package, which was not even loaded. -/
theorem overwritten_not_neverLost : ∃ h ctx t, Interleaved derCodec oneChunk h ctx t ∧ ¬ NeverLost h := by
  have polled : Interleaved derCodec oneChunk [_] _ _ :=
    .call [] _ _ (.new false [] .fresh plainConfig) .ipaPoll _ _ _ (runs_run unreachable.answer _ _)
  have injected := Interleaved.call _ _ _ polled (.ipaProcEimPkgInject twoRequests enablePackageBytes) _ _ _
    (runs_run (replies fun _ => none) _ _)
  refine ⟨_, _, _, injected, fun neverLost => ?_⟩
  have kept := neverLost.keeps _ (List.mem_cons_self ..) _ rfl
  cases kept

end Ipad.Proc
