import Ipad.Proc.ReturnCode
import Ipad.Proc.Polling

/-!
# The poll loop

The loop of `main` around the poll, until the signal comes or the poll tells it to leave.
-/

namespace Ipad.Proc
open Lib.Dialogue Ipad.EimCfg Ipad.Nvstate Ipad.BppSegments Ipad.Utils

/-- `looping`: the flag has not been read more often so far. -/
inductive LoopEnd where
  | looping (ctx : IpaContext)
  | interrupted (ctx : IpaContext) (rc : Int)
  | left (ctx : IpaContext) (rc : Int)

def LoopEnd.ctx : LoopEnd → IpaContext
  | looping ctx => ctx
  | interrupted ctx _ => ctx
  | left ctx _ => ctx

section
variable (codec : EimCfgCodec) (asn1c : Asn1c) (oneEuiccPkgOnly : Bool)

/-- The list has the values of `running` as the loop finds them. -/
def pollLoop : (running : List Bool) → IpaContext → Int → ProcM LoopEnd
  | [], ctx, _ => pure (.looping ctx)
  | false :: _, ctx, rc => pure (.interrupted ctx rc)
  | true :: running, ctx, _ => do
      let (ctx, rc) ← ipaPoll codec asn1c ctx
      if rc = pollAgainWhenOnline then pollLoop running ctx 0
      else if rc = pollAgain then
        if oneEuiccPkgOnly then return .left ctx 0 else pollLoop running ctx 0
      else if rc = pollAgainLater then return .left ctx 0
      else return .left ctx einval

end

/-! ## Counting -/

def Req.isPass : Req → Bool
  | .mark .resetCanaries => true
  | _ => false

def Req.isFetch : Req → Bool
  | .getEimPackage => true
  | _ => false

def passes (t : Trace) : Nat := t.countP fun event => event.req.isPass

def fetches (t : Trace) : Nat := t.countP fun event => event.req.isFetch

/-- Of a request within a pass that does not fetch. -/
def Req.Within (req : Req) : Prop := req.isPass = false ∧ req.isFetch = false

section
variable {t t' : Trace}

theorem passes_cons (event : Event Req Ans) (t : Trace) :
    passes (event :: t) = passes t + if event.req.isPass then 1 else 0 := List.countP_cons

theorem fetches_cons (event : Event Req Ans) (t : Trace) :
    fetches (event :: t) = fetches t + if event.req.isFetch then 1 else 0 := List.countP_cons

theorem within_counts (adds : Adds Req.Within t t') : passes t' = passes t ∧ fetches t' = fetches t := by
  obtain ⟨later, rfl, within⟩ := adds
  induction later with
  | nil => exact ⟨rfl, rfl⟩
  | cons event later ih =>
      rw [List.forall_mem_cons] at within
      obtain ⟨⟨notPass, notFetch⟩, rest⟩ := within
      obtain ⟨samePasses, sameFetches⟩ := ih rest
      rw [List.cons_append, passes_cons, fetches_cons, notPass, notFetch]
      exact ⟨samePasses, sameFetches⟩

theorem Req.Inner.within {req : Req} (inner : req.Inner) : req.Within := by
  cases req with
  | getEimPackage => exact inner.elim
  | mark m =>
      cases m with
      | resetCanaries => exact inner.elim
      | _ => exact ⟨rfl, rfl⟩
  | _ => exact ⟨rfl, rfl⟩

theorem within_ends {α : Type} {program : ProcM α} {P : Req → Prop} {F : Abort → Prop} (asks : Asks P F program)
    (weaken : ∀ req, P req → req.Within) (t : Trace) :
    Ends (fun _ t' => Adds Req.Within t t') Anyway program t :=
  (asks.adds t).mono (fun _ _ adds => adds.imp weaken) fun _ _ _ => trivial

end

section
variable (codec : EimCfgCodec) (asn1c : Asn1c) (ctx : IpaContext) (t : Trace)

/-- Whatever is asked for now does not begin a pass and does not fetch. -/
def StaysWithin {α : Type} (program : ProcM α) : Prop :=
  ∀ t, Ends (fun _ t' => Adds Req.Within t t') Anyway program t

theorem StaysWithin.bind {α β : Type} {program : ProcM α} {next : α → ProcM β} (within : StaysWithin program)
    (rest : ∀ a, StaysWithin (next a)) : StaysWithin (program >>= next) := by
  intro t
  apply (within t).bind
  intro a t' adds
  exact (rest a t').imp fun _ _ later => adds.trans later

theorem staysWithin_pure {α : Type} (a : α) : StaysWithin (pure a) := fun t => .refl _ t

theorem staysWithin_request (req : Req) (within : req.Within) : StaysWithin (request req) :=
  fun t ans => (Adds.refl _ t).cons req ans within

theorem staysWithin_send (req : Req) (within : req.Within) : StaysWithin (send req) := fun t =>
  (send_sends req t).mono
    (fun _ _ said => by
      obtain ⟨events, sends, rfl⟩ := said
      exact sends.adds ⟨rfl, rfl⟩ within t)
    fun _ _ _ => trivial

theorem staysWithin_ofExcept {α : Type} (result : Except Fault α) : StaysWithin (ofExcept result) := by
  cases result with
  | ok a => exact staysWithin_pure a
  | error f => exact fun _ => trivial

theorem StaysWithin.counts {α : Type} {program : ProcM α} (within : StaysWithin program) :
    Ends (fun _ t' => passes t' = passes t ∧ fetches t' = fetches t) Anyway program t :=
  (within t).imp fun _ _ adds => within_counts adds

theorem executing_within {req : Req} (executing : req.Executing) : req.Within := executing.inner.within

theorem ipaEs10bLoadEuiccPkg_within (req : EuiccPackageRequest) :
    StaysWithin (ipaEs10bLoadEuiccPkg codec ctx req) := by
  intro t
  apply (ipaEs10bLoadEuiccPkg_loads codec ctx req).mono
  · rintro ⟨ctx', res⟩ t' ⟨-, -, loads⟩
    replace loads : Loads req t res t' := loads
    cases loads with
    | emulated load t' adds => exact adds.imp fun _ emulating => emulating.inner.within
    | native ans events sends load loaded => exact sends.adds ⟨rfl, rfl⟩ ⟨rfl, rfl⟩ t
  · exact fun _ _ _ => trivial

theorem ipaProcEuccPkgDwnldExecOnset_within (res : DwnldExecRes) :
    StaysWithin (ipaProcEuccPkgDwnldExecOnset ctx res) := fun t =>
  within_ends (ipaProcEuccPkgDwnldExecOnset_asks ctx res) (fun _ => executing_within) t

theorem ipaProcEuccPkgDwnldExec_within (req : EuiccPackageRequest) :
    StaysWithin (ipaProcEuccPkgDwnldExec codec ctx req) := by
  apply (staysWithin_request (.mark (.execute req)) ⟨rfl, rfl⟩).bind
  intro _
  apply (ipaEs10bLoadEuiccPkg_within codec ctx req).bind
  rintro ⟨ctx', load⟩
  have dropped : StaysWithin (do
      mark .free
      return (ctx', (none : Option DwnldExecRes))) :=
    (staysWithin_request (.mark .free) ⟨rfl, rfl⟩).bind fun _ => staysWithin_pure _
  cases load with
  | none => exact dropped
  | some load =>
      simp only
      split
      · exact staysWithin_pure _
      · apply (ipaProcEuccPkgDwnldExecOnset_within ctx' _).bind
        rintro ⟨rc, res⟩
        simp only
        split
        · exact dropped
        · exact staysWithin_pure _

theorem ipaEsipaPrvdeEimPkgRslt_within (req : PrvdeEimPkgRsltReq) : StaysWithin (ipaEsipaPrvdeEimPkgRslt req) := by
  unfold ipaEsipaPrvdeEimPkgRslt
  split
  · exact staysWithin_request (.provideEimPackageOutcome _) ⟨rfl, rfl⟩
  · split
    · exact staysWithin_send (.provideEimPackageResult _ _) ⟨rfl, rfl⟩
    · exact staysWithin_send (.provideEimPackageOutcome _) ⟨rfl, rfl⟩
    · exact staysWithin_send (.provideEimPackageOutcome _) ⟨rfl, rfl⟩
    · exact staysWithin_send (.provideEimPackageOutcome _) ⟨rfl, rfl⟩
    · exact staysWithin_request (.provideEimPackageOutcome _) ⟨rfl, rfl⟩

theorem eimPkgExec_within (response : GetEimPackageResponse) : StaysWithin (eimPkgExec codec asn1c ctx response) := by
  cases response with
  | euiccPackageRequest euiccPackageRequest =>
      simp only [eimPkgExec, eimPkgExecEuiccPackage]
      split
      · exact fun t => trivial
      apply (ipaProcEuccPkgDwnldExec_within codec ctx euiccPackageRequest).bind
      rintro ⟨ctx', res⟩
      cases res with
      | none => exact (staysWithin_request .uninitialised ⟨rfl, rfl⟩).bind fun _ => staysWithin_pure _
      | some res =>
          simp only
          split
          · exact staysWithin_pure _
          · exact (staysWithin_request (.mark .free) ⟨rfl, rfl⟩).bind fun _ => staysWithin_pure _
  | ipaEuiccDataRequest ipaEuiccDataRequest =>
      have collected : StaysWithin (collectIpaEuiccData codec ctx ipaEuiccDataRequest) := fun t =>
        within_ends (collectIpaEuiccData_serving codec ctx ipaEuiccDataRequest) (fun _ service => service.inner.within)
          t
      apply StaysWithin.bind
      · apply collected.bind
        rintro ⟨data, notifications⟩
        apply (ipaEsipaPrvdeEimPkgRslt_within _).bind
        intro answer
        exact (staysWithin_ofExcept _).bind fun _ => staysWithin_pure _
      · exact fun _ => staysWithin_pure _
  | profileDownloadTriggerRequest dwnldTriggerRequest =>
      simp only [eimPkgExec, eimPkgExecDwnld]
      split
      · have read : StaysWithin (getEuiccCiPkid codec ctx) := fun t =>
          within_ends (getEuiccCiPkid_serving codec ctx) (fun _ service => service.inner.within) t
        apply read.bind
        intro allowedCa
        cases allowedCa with
        | none => exact staysWithin_pure _
        | some allowedCa =>
            have downloads (ac : List UInt8) : StaysWithin (ipaProcIndirectPrfleDwnlod asn1c ctx ac allowedCa) :=
              fun t =>
              within_ends (ipaProcIndirectPrfleDwnlod_downloading asn1c ctx ac allowedCa)
                (fun _ download => download.inner.within) t
            exact (downloads _).bind fun _ => staysWithin_pure _
      · exact staysWithin_pure _
  | eimPackageError code => exact staysWithin_pure _
  | nothing => exact staysWithin_pure _

theorem ipaPoll_counts :
    Ends (fun _ t' => passes t' = passes t + 1 ∧
        fetches t' = fetches t + if ctx.procEuccPkgDwnldExecRes.isSome then 0 else 1) Anyway
      (ipaPoll codec asn1c ctx) t := by
  have canaries : StaysWithin checkCanaries := by
    apply (staysWithin_request .canaries ⟨rfl, rfl⟩).bind
    rintro ⟨checkHttp, checkScard⟩
    exact staysWithin_pure _
  rw [ipaPoll, ends_bind, ends_mark]
  have begun : passes (⟨.mark .resetCanaries, ()⟩ :: t) = passes t + 1 ∧
      fetches (⟨.mark .resetCanaries, ()⟩ :: t) = fetches t := by
    rw [passes_cons, fetches_cons]
    exact ⟨rfl, rfl⟩
  cases found : ctx.procEuccPkgDwnldExecRes with
  | some pending =>
      simp only [Option.isSome_some, if_true, Nat.add_zero]
      rw [← begun.1, ← begun.2]
      apply StaysWithin.counts
      apply (ipaProcEuccPkgDwnldExecOnset_within ctx pending).bind
      rintro ⟨rc, res⟩
      simp only
      split
      · apply (staysWithin_request (.mark .free) ⟨rfl, rfl⟩).bind
        exact fun _ => canaries.bind fun _ => staysWithin_pure _
      split
      · exact (staysWithin_request (.mark .free) ⟨rfl, rfl⟩).bind fun _ => staysWithin_pure _
      · exact staysWithin_pure _
  | none =>
      simp only [Option.isSome_none, Bool.false_eq_true, if_false]
      rw [← begun.1, ← begun.2]
      apply (within_ends (ipaNotifDelivery_asks ctx) (fun _ => executing_within) _).bind
      intro rc t' delivered
      rw [← (within_counts delivered).1, ← (within_counts delivered).2]
      simp only [ipaProcEimPkgRetr, ends_bind, ends_request]
      intro ans
      have fetched : passes (⟨.getEimPackage, ans⟩ :: t') = passes t' ∧
          fetches (⟨.getEimPackage, ans⟩ :: t') = fetches t' + 1 := by
        rw [passes_cons, fetches_cons]
        exact ⟨rfl, rfl⟩
      rw [← fetched.1, ← fetched.2]
      have concludes (out : IpaContext × Int) : StaysWithin (do
          if out.2 = -noEimPackageAvailable then return (out.1, pollAgainLater)
          else if out.2 < 0 then
            let rc ← checkCanaries
            return (out.1, rc)
          else if out.1.procEuccPkgDwnldExecRes.isSome then return (out.1, pollAgainWhenOnline)
          else return (out.1, pollAgain) : ProcM (IpaContext × Int)) := by
        split
        · exact staysWithin_pure _
        split
        · exact canaries.bind fun _ => staysWithin_pure _
        split
        · exact staysWithin_pure _
        · exact staysWithin_pure _
      have counted {out : IpaContext × Int} {t'' : Trace} (adds : Adds Req.Within (⟨.getEimPackage, ans⟩ :: t') t'') :=
        (concludes out t'').imp fun _ _ later => within_counts (adds.trans later)
      cases ans with
      | none => exact counted (.refl _ _)
      | some response =>
          simp only
          split
          · exact counted (.refl _ _)
          split
          · exact counted (.refl _ _)
          · exact (eimPkgExec_within codec asn1c ctx response _).imp fun _ _ adds => counted adds

end

/-! ## Runs of the loop -/

section
variable (codec : EimCfgCodec) (asn1c : Asn1c) (oneEuiccPkgOnly : Bool) {emulated : Bool} {ctx : IpaContext} {t : Trace}

/-- The passes that the pending execution may still take. -/
def owed (ctx : IpaContext) (t : Trace) : Nat :=
  if ctx.procEuccPkgDwnldExecRes.isSome then 2 - (seen t).onsetSteps else 0

theorem owed_pending (between : Between emulated ctx t) (pending : ctx.procEuccPkgDwnldExecRes.isSome) :
    owed ctx t = 2 - (seen t).onsetSteps ∧ 1 ≤ owed ctx t := by
  obtain ⟨res, found⟩ := Option.isSome_iff_exists.mp pending
  have steps := (between.pending res found).2.2.onsetSteps_le
  rw [owed, if_pos pending]
  omega

/-- A pass that found an execution pending has taken one of its passes; any other has fetched. -/
structure Passed (emulated : Bool) (before : IpaContext) (t : Trace) (out : IpaContext × Int) (t' : Trace) : Prop where
  between : Between emulated out.1 t'
  online : out.1.procEuccPkgDwnldExecRes.isSome ↔ out.2 = pollAgainWhenOnline
  passes : passes t' = passes t + 1
  fetches : fetches t' = fetches t + if before.procEuccPkgDwnldExecRes.isSome then 0 else 1
  owed : owed out.1 t' + (if before.procEuccPkgDwnldExecRes.isSome then 1 else 0) ≤
    if before.procEuccPkgDwnldExecRes.isSome then owed before t else 2

theorem ipaPoll_passed (between : Between emulated ctx t) :
    Ends (Passed emulated ctx t) (fun abort t' => Aborts emulated abort t' ∧ Anyway abort t')
      (ipaPoll codec asn1c ctx) t := by
  apply ((ipaPoll_ends between).and (ipaPoll_counts codec asn1c ctx t)).imp
  rintro out t' ⟨ends, passes, fetches⟩
  refine ⟨ends.between, ends.online, passes, fetches, ?_⟩
  by_cases pending : ctx.procEuccPkgDwnldExecRes.isSome
  · have owing := owed_pending between pending
    have advances := ends.advances pending
    simp only [pending, if_true]
    by_cases still : out.1.procEuccPkgDwnldExecRes.isSome
    · have later := owed_pending ends.between still
      omega
    · rw [owed, if_neg still]
      omega
  · simp only [pending, Bool.false_eq_true, if_false]
    rw [owed]
    split <;> omega

/-- What the loop does, in terms of the context and the trace that it begins with. -/
structure Looped (emulated oneEuiccPkgOnly : Bool) (running : List Bool) (before : IpaContext) (t : Trace)
    (out : LoopEnd) (t' : Trace) : Prop where
  between : Between emulated out.ctx t'
  settles : passes t' + owed out.ctx t' + 3 * fetches t ≤ passes t + owed before t + 3 * fetches t'
  fetches : oneEuiccPkgOnly = true →
    fetches t' ≤ fetches t + if before.procEuccPkgDwnldExecRes.isSome then 0 else 1
  looping : ∀ ctx, out = .looping ctx → passes t' = passes t + running.length ∧ (running = [] → ctx = before) ∧
    (oneEuiccPkgOnly = true → running ≠ [] → ctx.procEuccPkgDwnldExecRes.isSome)
  left : ∀ ctx rc, out = .left ctx rc → ctx.procEuccPkgDwnldExecRes = none ∧ (rc = 0 ∨ rc = einval)
  interrupted : ∀ ctx rc, out = .interrupted ctx rc → rc = 0

theorem pollLoop_ends (running : List Bool) (between : Between emulated ctx t) :
    Ends (Looped emulated oneEuiccPkgOnly running ctx t) (Aborts emulated)
      (pollLoop codec asn1c oneEuiccPkgOnly running ctx 0) t := by
  induction running generalizing ctx t with
  | nil =>
      refine ⟨between, Nat.le_refl _, fun _ => Nat.le_add_right _ _, ?_, fun _ _ => LoopEnd.noConfusion,
        fun _ _ => LoopEnd.noConfusion⟩
      rintro _ ⟨⟩
      exact ⟨rfl, fun _ => rfl, fun _ nonempty => absurd rfl nonempty⟩
  | cons flag running ih =>
      cases flag with
      | false =>
          refine ⟨between, Nat.le_refl _, fun _ => Nat.le_add_right _ _, fun _ => LoopEnd.noConfusion,
            fun _ _ => LoopEnd.noConfusion, ?_⟩
          rintro _ _ ⟨⟩
          rfl
      | true =>
          unfold pollLoop
          apply Ends.bind ((ipaPoll_passed codec asn1c between).mono (fun _ _ => id) fun _ _ aborts => aborts.1)
          rintro ⟨ctx', rc⟩ t' passed
          have first := passed.passes
          have fetched := passed.fetches
          have owing := passed.owed
          -- the pass on its own, and what the loop adds to it
          have settled : passes t' + owed ctx' t' + 3 * fetches t ≤ passes t + owed ctx t + 3 * fetches t' := by
            by_cases pending : ctx.procEuccPkgDwnldExecRes.isSome
            · simp only [pending, if_true] at fetched owing
              omega
            · simp only [pending, Bool.false_eq_true, if_false] at fetched owing
              omega
          have leaves (code : Int) (known : code = 0 ∨ code = einval) (offline : rc ≠ pollAgainWhenOnline) :
              Looped emulated oneEuiccPkgOnly (true :: running) ctx t (.left ctx' code) t' := by
            have vacant : ctx'.procEuccPkgDwnldExecRes = none := by
              rw [← Option.not_isSome_iff_eq_none]
              exact mt passed.online.mp offline
            refine ⟨passed.between, settled, fun _ => Nat.le_of_eq fetched, fun _ => LoopEnd.noConfusion, ?_,
              fun _ _ => LoopEnd.noConfusion⟩
            rintro _ _ ⟨⟩
            exact ⟨vacant, known⟩
          have continues (going : oneEuiccPkgOnly = true → ctx'.procEuccPkgDwnldExecRes.isSome) :
              Ends (Looped emulated oneEuiccPkgOnly (true :: running) ctx t) (Aborts emulated)
                (pollLoop codec asn1c oneEuiccPkgOnly running ctx' 0) t' := by
            have onwards : Between emulated ctx' t' := passed.between
            apply (ih onwards).imp
            intro out t'' looped
            have others := looped.settles
            refine ⟨looped.between, by omega, ?_, ?_, looped.left, looped.interrupted⟩
            · intro one
              have none_more := looped.fetches one
              rw [if_pos (going one)] at none_more
              omega
            · intro last same
              obtain ⟨count, stays, pending⟩ := looped.looping last same
              refine ⟨by rw [count, first, List.length_cons]; omega, (nomatch ·), fun one _ => ?_⟩
              by_cases empty : running = []
              · rw [stays empty]
                exact going one
              · exact pending one empty
          simp only
          split
          next online => exact continues fun _ => passed.online.mpr online
          next offline =>
            split
            · split
              · exact leaves 0 (.inl rfl) offline
              next more => exact continues fun one => absurd one more
            split
            · exact leaves 0 (.inl rfl) offline
            · exact leaves einval (.inr rfl) offline

/-- The loop of a new context. -/
structure MainLoop (emulated oneEuiccPkgOnly : Bool) (running : List Bool) (out : Except Abort LoopEnd) (t : Trace) :
    Prop where
  lawful : Lawful emulated t
  asserted : out ≠ .error .executionPending
  settles : ∀ loopEnd, out = .ok loopEnd → passes t ≤ 3 * fetches t
  only : ∀ loopEnd, out = .ok loopEnd → oneEuiccPkgOnly = true → fetches t ≤ 1
  looping : ∀ ctx, out = .ok (.looping ctx) → passes t = running.length ∧ (oneEuiccPkgOnly = true → passes t ≤ 2)
  left : ∀ ctx rc, out = .ok (.left ctx rc) → ctx.procEuccPkgDwnldExecRes = none ∧ (rc = 0 ∨ rc = einval)
  interrupted : ∀ ctx rc, out = .ok (.interrupted ctx rc) → rc = 0

/-- Whatever the eUICC and the eIM answer, a package takes at most two passes more than the one that fetched it, and
the loop is not left with a package half done. With the option `-1` it fetches once and ends within three passes. -/
theorem pollLoop_settles (nvstate : IpaNvstate) (cfg : IpaConfig) (eimId : List UInt8) (running : List Bool)
    {out : Except Abort LoopEnd} {t' : Trace}
    (runs : Runs (pollLoop codec asn1c oneEuiccPkgOnly running (.fresh emulated eimId nvstate cfg) 0) [] out t') :
    MainLoop emulated oneEuiccPkgOnly running out t' := by
  have start := polled_between (.new emulated eimId nvstate cfg : Polled codec asn1c _ [])
  have ends := (pollLoop_ends codec asn1c oneEuiccPkgOnly running start).of_runs runs
  have whole (loopEnd : LoopEnd) (returned : out = .ok loopEnd) :
      passes t' + owed loopEnd.ctx t' ≤ 3 * fetches t' := by
    have settles := (ends.1 loopEnd returned).settles
    have none_before : passes [] = 0 ∧ fetches [] = 0 := ⟨rfl, rfl⟩
    have none_owed : owed (.fresh emulated eimId nvstate cfg) [] = 0 := rfl
    omega
  have fetched (loopEnd : LoopEnd) (returned : out = .ok loopEnd) (one : oneEuiccPkgOnly = true) :
      fetches t' ≤ 1 := (ends.1 loopEnd returned).fetches one
  refine
    { lawful := ?_
      asserted := fun aborted => (ends.2 _ aborted).1 rfl
      settles := fun loopEnd returned => Nat.le_trans (Nat.le_add_right _ _) (whole loopEnd returned)
      only := fetched
      looping := ?_
      left := fun ctx rc returned => (ends.1 _ returned).left ctx rc rfl
      interrupted := fun ctx rc returned => (ends.1 _ returned).interrupted ctx rc rfl }
  · cases out with
    | ok loopEnd => exact (ends.1 loopEnd rfl).between.lawful
    | error abort => exact (ends.2 abort rfl).2
  · intro ctx returned
    obtain ⟨count, -, pending⟩ := (ends.1 _ returned).looping ctx rfl
    replace count : passes t' = running.length := by
      rw [count]
      exact Nat.zero_add _
    refine ⟨count, fun one => ?_⟩
    by_cases empty : running = []
    · rw [count, empty]
      exact Nat.zero_le 2
    · have owing := owed_pending (ends.1 _ returned).between (pending one empty)
      have all := whole _ returned
      have single := fetched _ returned one
      have more : 1 ≤ owed (LoopEnd.looping ctx).ctx t' := owing.2
      omega

end

/-- A package whose result never arrives takes all of its passes. -/
theorem pollLoop_settles_unreachable :
    let ended := run unreachable.answer
      (pollLoop derCodec oneChunk true [true, true, true, true] (.fresh false [] .fresh plainConfig) 0) []
    passes ended.2 = 3 ∧ fetches ended.2 = 1 ∧ MainLoop false true [true, true, true, true] ended.1 ended.2 :=
  ⟨rfl, rfl, pollLoop_settles derCodec oneChunk true .fresh plainConfig [] _ (runs_run unreachable.answer _ _)⟩

end Ipad.Proc
