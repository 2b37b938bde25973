import Ipad.Proc.Polling

/-!
# Rolling back
-/

namespace Ipad.Proc
open Lib.Dialogue Ipad.EimCfg Ipad.Nvstate Ipad.BppSegments Ipad.Utils

/-! ## Which profile a rollback enables -/

def enabledIccid (answer : Option ProfileInfoListResponse) : Option (List UInt8) :=
  (answer.bind findCurrentlyActivePrfle).bind ProfileInfo.iccid

/-- The answer says whether a profile is enabled, and which one. -/
def Determined : Option ProfileInfoListResponse → Prop
  | some (.profileInfoListOk list) => ∀ prfleInfo,
      findCurrentlyActivePrfle (.profileInfoListOk list) = some prfleInfo → prfleInfo.iccid.isSome
  | some (.profileInfoListError code) => code = 0
  | _ => False

/-- Where a package begins with an answer that does not say it, no ICCID is remembered from before. -/
def Refreshes : Event Req Ans → Trace → Prop
  | ⟨.getProfilesInfo .rollback, answer⟩, t => Determined answer ∨ (seen t).rememberedIccid = none
  | _, _ => True

def Refreshing : Trace → Prop := Every Refreshes

def EnabledAtStart (iccid : List UInt8) (t : Trace) : Prop :=
  ∃ answer, (seen t).startAnswer = some answer ∧ enabledIccid answer = some iccid

def DeterminedAtStart (t : Trace) : Prop := ∃ answer, (seen t).startAnswer = some answer ∧ Determined answer

theorem updatedRollbackIccid_determined {answer : Option ProfileInfoListResponse}
    {rollbackIccid : Option (List UInt8)} (determined : Determined answer ∨ rollbackIccid = none) :
    updatedRollbackIccid rollbackIccid (answer.map (decGetPrfleInfoRes true)) = enabledIccid answer := by
  rcases answer with _ | (list | code | _)
  · exact determined.resolve_left id
  · show updatedRollbackIccid rollbackIccid (some (decGetPrfleInfoRes true (.profileInfoListOk list))) =
      (findCurrentlyActivePrfle (.profileInfoListOk list)).bind ProfileInfo.iccid
    cases found : findCurrentlyActivePrfle (.profileInfoListOk list) with
    | none => exact updatedRollbackIccid_idle rfl found
    | some prfleInfo =>
        rw [updatedRollbackIccid_active rfl found, Option.bind_some]
        cases unnamed : prfleInfo.iccid with
        | some iccid => rfl
        | none =>
            refine determined.resolve_left fun named => ?_
            cases unnamed ▸ named prfleInfo found
  · show updatedRollbackIccid rollbackIccid (some (decGetPrfleInfoRes true (.profileInfoListError code))) = none
    by_cases failed : code = 0
    · exact updatedRollbackIccid_idle failed rfl
    · rw [updatedRollbackIccid_failed failed]
      exact determined.resolve_left failed
  · show updatedRollbackIccid rollbackIccid (some (decGetPrfleInfoRes true .nothing)) = none
    rw [updatedRollbackIccid_failed (by decide)]
    exact determined.resolve_left id

theorem not_enabled_of_not_determined {answer : Option ProfileInfoListResponse}
    (unknown : ¬ Determined answer) : enabledIccid answer = none := by
  rcases answer with _ | (list | code | _)
  · rfl
  · apply Option.eq_none_iff_forall_ne_some.mpr
    intro iccid enabled
    obtain ⟨prfleInfo, found, named⟩ := Option.bind_eq_some_iff.mp enabled
    refine unknown fun other found' => ?_
    cases found.symm.trans found'
    rw [named]
    rfl
  · rfl
  · rfl

theorem Seen.step_start (seen : Seen) (event : Event Req Ans) :
    (∃ answer, event = ⟨.getProfilesInfo .rollback, answer⟩) ∨ (seen.step event).startAnswer = none ∨
      (seen.step event).startAnswer = seen.startAnswer ∧
        (seen.step event).rememberedIccid = seen.rememberedIccid := by
  obtain ⟨req, ans⟩ := event
  cases req with
  | getProfilesInfo purpose =>
      cases purpose with
      | rollback => exact .inl ⟨ans, rfl⟩
      | psmo => exact .inr (.inr ⟨rfl, rfl⟩)
      | autoEnable => exact .inr (.inr ⟨rfl, rfl⟩)
  | mark m =>
      cases m with
      | execute => exact .inr (.inl rfl)
      | _ => exact .inr (.inr ⟨rfl, rfl⟩)
  | _ => exact .inr (.inr ⟨rfl, rfl⟩)

theorem remembered_of_startAnswer {t : Trace} {answer : Option ProfileInfoListResponse}
    (started : (seen t).startAnswer = some answer) : ∃ later earlier,
      t = later ++ ⟨.getProfilesInfo .rollback, answer⟩ :: earlier ∧ (seen t).rememberedIccid =
        updatedRollbackIccid (seen earlier).rememberedIccid (answer.map (decGetPrfleInfoRes true)) := by
  induction t with
  | nil => cases started
  | cons event t ih =>
      rcases (seen t).step_start event with ⟨answer', rfl⟩ | begun | ⟨same, remembered⟩
      · cases started
        exact ⟨[], t, rfl, rfl⟩
      · cases begun.symm.trans started
      · obtain ⟨later, earlier, rfl, updated⟩ := ih (same.symm.trans started)
        exact ⟨event :: later, earlier, rfl, remembered.trans updated⟩

theorem enabledAtStart_iff {emulated : Bool} {t : Trace} {iccid : List UInt8} {ans : Option Int}
    (law : Law emulated ⟨.enableProfile .rollback iccid, ans⟩ t) :
    EnabledAtStart iccid t ↔ DeterminedAtStart t := by
  constructor
  · rintro ⟨answer, started, enabled⟩
    refine ⟨answer, started, ?_⟩
    by_contra unknown
    cases (not_enabled_of_not_determined unknown).symm.trans enabled
  · rintro ⟨answer, started, determined⟩
    obtain ⟨later, earlier, -, updated⟩ := remembered_of_startAnswer started
    refine ⟨answer, started, ?_⟩
    rw [← updatedRollbackIccid_determined (.inl determined), ← updated]
    exact law.2.1

theorem enabledAtStart_of_refreshing {emulated : Bool} {t : Trace} {iccid : List UInt8} {ans : Option Int}
    (law : Law emulated ⟨.enableProfile .rollback iccid, ans⟩ t) (refreshing : Refreshing t) :
    EnabledAtStart iccid t := by
  obtain ⟨-, remembered, started⟩ := law
  obtain ⟨answer, started⟩ := Option.isSome_iff_exists.mp started
  obtain ⟨later, earlier, rfl, updated⟩ := remembered_of_startAnswer started
  refine ⟨answer, started, ?_⟩
  rw [← updatedRollbackIccid_determined refreshing.before, ← updated]
  exact remembered

def RestoresStart (t : Trace) : Prop :=
  ∀ later iccid ans earlier, t = later ++ ⟨.enableProfile .rollback iccid, ans⟩ :: earlier →
    EnabledAtStart iccid earlier

structure RestoresStartWhen (t : Trace) : Prop where
  refreshing : Refreshing t → RestoresStart t
  exactly : RestoresStart t ↔ ∀ later iccid ans earlier,
    t = later ++ ⟨.enableProfile .rollback iccid, ans⟩ :: earlier → DeterminedAtStart earlier
  started : ∀ later ans earlier, t = later ++ ⟨.getProfilesInfo .rollback, ans⟩ :: earlier → JustBegun earlier

theorem ipaPoll_restoresStartWhen {codec : EimCfgCodec} {asn1c : Asn1c} {ctx : IpaContext} {t t' : Trace}
    (polled : Polled codec asn1c ctx t) {out : Except Abort (IpaContext × Int)}
    (runs : Runs (ipaPoll codec asn1c ctx) t out t') : RestoresStartWhen t' := by
  have lawful := polled_lawful polled runs
  constructor
  · rintro refreshing later iccid ans earlier rfl
    exact enabledAtStart_of_refreshing lawful.before
      (refreshing.suffix ((List.suffix_cons ..).trans (List.suffix_append ..)))
  · constructor
    · rintro restores later iccid ans earlier rfl
      exact (enabledAtStart_iff lawful.before).mp (restores _ _ _ _ rfl)
    · rintro determined later iccid ans earlier rfl
      exact (enabledAtStart_iff lawful.before).mpr (determined _ _ _ _ rfl)
  · rintro later ans earlier rfl
    exact lawful.before

def emulated (profilesInfo : Trace → Option ProfileInfoListResponse)
    (eimAcknowledgements : Trace → Option (Option (List Int))) : Answers where
  euiccPackageRequest := enablePackage
  loaded := none
  profilesInfo
  enableResult := fun _ => resultOk
  disableResult := resultOk
  rollback := none
  eimAcknowledgements

def sevenEnabled : ProfileInfoListResponse := .profileInfoListOk [⟨some [7], some profileStateEnabled, true⟩]

theorem sevenEnabled_restoresStartWhen :
    let answers := emulated (fun _ => some sevenEnabled) fun _ => none
    let start := polls derCodec oneChunk answers 1 (freshContext true) []
    let ended := run answers.answer (ipaPoll derCodec oneChunk start.1) start.2
    ended.2.head? = some ⟨.enableProfile .rollback [7], some resultOk⟩ ∧ RestoresStartWhen ended.2 :=
  ⟨rfl, ipaPoll_restoresStartWhen (polled_polls derCodec oneChunk _ 1 (.new true [] .fresh plainConfig))
    (runs_run (emulated (fun _ => some sevenEnabled) fun _ => none).answer _ _)⟩

/-- The first package goes through. GetProfilesInfo fails at the beginning of the second one, and its result
is not delivered. -/
def stale : Answers :=
  emulated (fun t => if (seen t).rememberedIccid.isNone then some sevenEnabled else none) fun t =>
    match (seen t).startAnswer with
    | some none => none
    | _ => some none

theorem stale_not_restoresStart : ¬ ∀ ctx t out t', Polled derCodec oneChunk ctx t →
    Runs (ipaPoll derCodec oneChunk ctx) t out t' → RestoresStart t' := by
  intro restores
  have polled := polled_polls derCodec oneChunk stale 3 (.new true [] .fresh plainConfig)
  obtain ⟨answer, started, enabled⟩ :=
    restores _ _ _ _ polled (runs_run stale.answer _ _) [] [7] (some resultOk) _ rfl
  cases started
  cases enabled

/-! ## Which results allow a rollback -/

def Psmo.changesProfile : Psmo → Bool
  | .enable _ _ => true
  | .disable _ => true
  | _ => false

def OwnResult (list : List Psmo) (signed : EuiccPackageResultSigned) (psmo : Psmo) (result : EuiccResultData) :
    Prop :=
  ∃ outcomes, List.Forall₂ Psmo.Answer list outcomes ∧ signed.euiccResult = outcomes.filterMap id ∧
    (psmo, some result) ∈ list.zip outcomes

/-- What a rollback rests on: a PSMO that carries the flag, and some result that changed the profile. -/
structure RollbackAllowed (emulated : Bool) (t : Trace) : Prop where
  unanswered : JustUnanswered t
  package : ∃ euiccPackageRequest list signed, (seen t).executing = some euiccPackageRequest ∧
    euiccPackageRequest.euiccPackage = .psmoList list ∧
    (seen t).onsetResult = some (.euiccPackageResultSigned signed) ∧
    (∃ iccid, .enable iccid true ∈ list) ∧
    (∃ result ∈ signed.euiccResult, result.changesProfile = true) ∧
    (emulated = true → ∃ psmo result, psmo.changesProfile = true ∧ result.changesProfile = true ∧
      OwnResult list signed psmo result)

theorem flagged_of_checkForRollbackFlag {euiccPackageRequest : EuiccPackageRequest}
    (allowed : checkForRollbackFlag euiccPackageRequest = true) :
    ∃ list iccid, euiccPackageRequest.euiccPackage = .psmoList list ∧ .enable iccid true ∈ list := by
  unfold checkForRollbackFlag at allowed
  split at allowed
  next list package =>
    obtain ⟨psmo, member, allows⟩ := List.any_eq_true.mp allowed
    cases psmo with
    | enable iccid rollbackFlag =>
        cases rollbackFlag with
        | true => exact ⟨list, iccid, package, member⟩
        | false => cases allows
    | _ => cases allows
  next => cases allowed

theorem changed_of_checkForProfileChange {result : EuiccPackageResult}
    (changed : checkForProfileChange result = true) :
    ∃ signed, result = .euiccPackageResultSigned signed ∧
      ∃ data ∈ signed.euiccResult, data.changesProfile = true := by
  cases result with
  | euiccPackageResultSigned signed => exact ⟨signed, rfl, List.any_eq_true.mp changed⟩
  | euiccPackageErrorSigned => cases changed
  | euiccPackageErrorUnsigned => cases changed
  | nothing => cases changed

theorem Psmo.Answer.changesProfile {psmo : Psmo} {result : EuiccResultData}
    (answer : psmo.Answer (some result)) (changes : result.changesProfile = true) :
    psmo.changesProfile = true := by
  cases psmo with
  | enable => rfl
  | disable => rfl
  | _ =>
      cases result with
      | enableResult => exact answer.elim
      | disableResult => exact answer.elim
      | rollbackResult => exact answer.elim
      | _ => cases changes

theorem ownResult_of_mem {list : List Psmo} {signed : EuiccPackageResultSigned} {result : EuiccResultData}
    (answered : Answered Psmo.Answer list signed.euiccResult) (member : result ∈ signed.euiccResult) :
    ∃ psmo, psmo.Answer (some result) ∧ OwnResult list signed psmo result := by
  obtain ⟨outcomes, answers, results⟩ := answered
  rw [results] at member
  obtain ⟨outcome, inOutcomes, found⟩ := List.mem_filterMap.mp member
  rw [← List.map_snd_zip (Nat.le_of_eq answers.length_eq.symm)] at inOutcomes
  obtain ⟨⟨psmo, outcome⟩, pair, rfl⟩ := List.mem_map.mp inOutcomes
  cases found
  exact ⟨psmo, List.forall₂_zip answers pair, outcomes, answers, results, pair⟩

theorem MayRollback.rollbackAllowed {emulated : Bool} {t : Trace} (may : MayRollback emulated t) :
    RollbackAllowed emulated t := by
  obtain ⟨euiccPackageRequest, result, executing, onset, allowed, changed, answered⟩ := may.execution
  obtain ⟨list, iccid, package, flagged⟩ := flagged_of_checkForRollbackFlag allowed
  obtain ⟨signed, rfl, data, member, changes⟩ := changed_of_checkForProfileChange changed
  refine ⟨may.unanswered, euiccPackageRequest, list, signed, executing, package, onset, ⟨iccid, flagged⟩,
    ⟨data, member, changes⟩, fun emulation => ?_⟩
  obtain ⟨psmo, answer, own⟩ := ownResult_of_mem (answered emulation list signed package rfl) member
  exact ⟨psmo, data, answer.changesProfile changes, changes, own⟩

theorem ipaPoll_rollbackAllowed {codec : EimCfgCodec} {asn1c : Asn1c} {ctx : IpaContext} {t t' : Trace}
    (polled : Polled codec asn1c ctx t) {out : Except Abort (IpaContext × Int)}
    (runs : Runs (ipaPoll codec asn1c ctx) t out t') (later earlier : Trace)
    (tried : t' = later ++ ⟨.mark .prfleRollback, ()⟩ :: earlier) :
    RollbackAllowed ctx.iotEuiccEmuEnabled earlier := by
  subst tried
  exact MayRollback.rollbackAllowed (polled_lawful polled runs).before

/-! ## Whose success counts -/

/-- What is known of a package once it has been loaded. -/
structure LoadedFrom (euiccPackageRequest : EuiccPackageRequest) (load : LoadEuiccPkgRes) : Prop where
  changed : load.profileChanged = checkForProfileChange load.res
  allowed : load.rollbackAllowed = checkForRollbackFlag euiccPackageRequest

theorem ipaEs10bLoadEuiccPkg_loadedFrom (codec : EimCfgCodec) (ctx : IpaContext)
    (euiccPackageRequest : EuiccPackageRequest) (t : Trace) :
    Ends (fun out _ => ∀ load, out.2 = some load → LoadedFrom euiccPackageRequest load) (fun _ _ => True)
      (ipaEs10bLoadEuiccPkg codec ctx euiccPackageRequest) t := by
  have loads : Ends (fun _ _ => True) (fun _ _ => True) (loadEuiccPkg codec ctx euiccPackageRequest) t :=
    ends_always (fun _ _ => trivial) fun _ _ => trivial
  apply loads.bind
  rintro ⟨ctx', res⟩ t' - load found
  obtain ⟨result, -, rfl⟩ := Option.map_eq_some_iff.mp found
  exact ⟨rfl, rfl⟩

def Psmo.supported : Psmo → Bool
  | .unsupported => false
  | _ => true

/-- The results stand in the order of the PSMOs, as far as they go. A PSMO that is not supported has none. -/
def FlaggedOk (euiccPackageRequest : EuiccPackageRequest) (result : EuiccPackageResult) : Prop :=
  ∃ list signed iccid, euiccPackageRequest.euiccPackage = .psmoList list ∧
    result = .euiccPackageResultSigned signed ∧
    (.enable iccid true, .enableResult resultOk) ∈ (list.filter Psmo.supported).zip signed.euiccResult

def TriesRollback : Event Req Ans → Prop
  | ⟨.mark .prfleRollback, _⟩ => True
  | _ => False

/-- The eIM did not answer, or the result could not be put into a message. -/
def LeavesUndelivered : Event Req Ans → Prop
  | ⟨.provideEimPackageResult _ _, eimAcknowledgements⟩ => eimAcknowledgements = none
  | ⟨.encode (.provideEimPackageResult _ _), outcome⟩ => outcome = .refused
  | _ => False

section
variable {ctx : IpaContext} {res : DwnldExecRes} {answer : Option NotificationsListResponse}
  {notifications : NotificationsListResponse} {said : Trace}

theorem Req.Removes.delivers (req : Req) (ans : Ans req) (removes : req.Removes) :
    ¬ LeavesUndelivered ⟨req, ans⟩ := by
  cases req with
  | provideEimPackageResult => exact removes.elim
  | encode => exact removes.elim
  | _ => exact id

theorem Req.Removes.stays (req : Req) (ans : Ans req) (removes : req.Removes) : ¬ TriesRollback ⟨req, ans⟩ := by
  cases req with
  | mark => exact removes.elim
  | _ => exact id

@[simp] theorem not_said_tries_onsetAsked : ¬ Said TriesRollback (onsetAsked res answer) := by
  simp [onsetAsked, TriesRollback]

@[simp] theorem not_said_tries_onsetEncoded (outcome : Encoding) :
    ¬ Said TriesRollback (onsetEncoded res answer notifications outcome) := by
  simp [onsetEncoded, TriesRollback]

@[simp] theorem not_said_tries_onsetSent (eimAcknowledgements : Option (Option (List Int))) :
    ¬ Said TriesRollback (onsetSent res answer notifications eimAcknowledgements) := by
  simp [onsetSent, TriesRollback]

@[simp] theorem not_said_undelivered_onsetAsked : ¬ Said LeavesUndelivered (onsetAsked res answer) := by
  simp [onsetAsked, LeavesUndelivered]

@[simp] theorem said_undelivered_onsetEncoded (outcome : Encoding) :
    Said LeavesUndelivered (onsetEncoded res answer notifications outcome) ↔ outcome = .refused := by
  simp [onsetEncoded, LeavesUndelivered]

@[simp] theorem said_undelivered_onsetSent (eimAcknowledgements : Option (Option (List Int))) :
    Said LeavesUndelivered (onsetSent res answer notifications eimAcknowledgements) ↔
      eimAcknowledgements = none := by
  simp [onsetSent, LeavesUndelivered]

theorem Unprovided.tries_iff {out : Except Abort (Int × DwnldExecRes)} (unprovided : Unprovided ctx res out said) :
    Said TriesRollback said ↔ res.mayRollback = true := by
  cases unprovided with
  | failed allowed => simp [allowed]
  | tried allowed => simp [allowed, TriesRollback]
  | faulted allowed => simp [allowed, TriesRollback]

theorem Onset.tries_iff {out : Except Abort (Int × DwnldExecRes)} (onset : Onset ctx res out said) :
    Said TriesRollback said ↔ Said LeavesUndelivered said ∧ res.mayRollback = true := by
  have called : res.called.mayRollback = res.mayRollback := rfl
  cases onset with
  | unusable => simp
  | unreleasable => simp
  | aborted => simp
  | unencoded answer notifications usable out later unprovided => simp [unprovided.tries_iff, called]
  | silent answer notifications usable out later unprovided => simp [unprovided.tries_iff, called]
  | acknowledged answer notifications usable _ _ _ later removes =>
      simp [not_said_of_forall Req.Removes.stays removes, not_said_of_forall Req.Removes.delivers removes]

/-- The code asks for a flag in the package and for a change in the result, and not whether they belong together. -/
theorem ipaProcEuccPkgDwnldExecOnset_flagged_iff {euiccPackageRequest : EuiccPackageRequest}
    (loaded : LoadedFrom euiccPackageRequest res.loadEuiccPkgRes) {out : Except Abort (Int × DwnldExecRes)}
    {t : Trace} (runs : Runs (ipaProcEuccPkgDwnldExecOnset ctx res) t out (said ++ t)) :
    (Said TriesRollback said → FlaggedOk euiccPackageRequest res.loadEuiccPkgRes.res) ↔
      (Said LeavesUndelivered said → res.prfleRollbackRes = none → checkForRollbackFlag euiccPackageRequest = true →
        checkForProfileChange res.loadEuiccPkgRes.res = true →
        FlaggedOk euiccPackageRequest res.loadEuiccPkgRes.res) := by
  have ends := (ipaProcEuccPkgDwnldExecOnset_onset ctx res t).of_runs runs
  have onset : Onset ctx res out said := by
    cases out with
    | ok out =>
        obtain ⟨_, same, onset⟩ := ends.1 out rfl
        exact List.append_cancel_right same ▸ onset
    | error abort =>
        obtain ⟨_, same, onset⟩ := ends.2 abort rfl
        exact List.append_cancel_right same ▸ onset
  rw [onset.tries_iff, DwnldExecRes.mayRollback, loaded.changed, loaded.allowed]
  simp only [Bool.and_eq_true, Option.isNone_iff_eq_none]
  constructor
  · intro keeps undelivered first allowed changed
    exact keeps ⟨undelivered, ⟨changed, allowed⟩, first⟩
  · rintro keeps ⟨undelivered, ⟨changed, allowed⟩, first⟩
    exact keeps undelivered first allowed changed

end

theorem Between.loadedFrom {emulated : Bool} {ctx : IpaContext} {t : Trace} (between : Between emulated ctx t)
    {res : DwnldExecRes} (found : ctx.procEuccPkgDwnldExecRes = some res) :
    ∃ euiccPackageRequest, (seen t).executing = some euiccPackageRequest ∧
      LoadedFrom euiccPackageRequest res.loadEuiccPkgRes := by
  obtain ⟨-, ⟨euiccPackageRequest, executes⟩, -⟩ := between.pending res found
  exact ⟨euiccPackageRequest, executes.executing, executes.changed, executes.allowed⟩

def enabledRes : DwnldExecRes where
  loadEuiccPkgRes :=
    { res := packageDone 4 [.enableResult resultOk], profileChanged := true, rollbackAllowed := true }
  prfleRollbackRes := none
  callOnset := true

theorem enabledRes_flagged :
    let ended := run unreachable.answer (ipaProcEuccPkgDwnldExecOnset (freshContext false) enabledRes) []
    Said TriesRollback ended.2 ∧ FlaggedOk enablePackage enabledRes.loadEuiccPkgRes.res := by
  have runs := runs_run unreachable.answer (ipaProcEuccPkgDwnldExecOnset (freshContext false) enabledRes) []
  have loaded : LoadedFrom enablePackage enabledRes.loadEuiccPkgRes := ⟨rfl, rfl⟩
  have flagged : FlaggedOk enablePackage enabledRes.loadEuiccPkgRes.res :=
    ⟨_, _, [1], rfl, rfl, List.mem_singleton_self _⟩
  rw [← List.append_nil (run _ _ _).2] at runs
  have tried : Said TriesRollback (run unreachable.answer
      (ipaProcEuccPkgDwnldExecOnset (freshContext false) enabledRes) []).2 :=
    ⟨⟨.mark .prfleRollback, ()⟩, List.mem_cons_of_mem _ (List.mem_cons_self ..), trivial⟩
  exact ⟨tried, (ipaProcEuccPkgDwnldExecOnset_flagged_iff loaded runs).mpr (fun _ _ _ _ => flagged) tried⟩

/-- The enable with the flag fails, the one without it succeeds, and the result is not delivered. -/
def mixed : Answers where
  euiccPackageRequest :=
    { counterValue := 1, transactionId := none, euiccPackage := .psmoList [.enable [1] true, .enable [2] false] }
  loaded := none
  profilesInfo := fun _ => some sevenEnabled
  enableResult := fun iccid => if iccid = [1] then 2 else resultOk
  disableResult := resultOk
  rollback := none
  eimAcknowledgements := fun _ => none

theorem mixed_not_flaggedSucceeded : ¬ ∀ ctx t res euiccPackageRequest out said, Polled derCodec oneChunk ctx t →
    ctx.procEuccPkgDwnldExecRes = some res → (seen t).executing = some euiccPackageRequest →
    Runs (ipaProcEuccPkgDwnldExecOnset ctx res) t out (said ++ t) → Said TriesRollback said →
    FlaggedOk euiccPackageRequest res.loadEuiccPkgRes.res := by
  intro always
  have polled := polled_polls derCodec oneChunk mixed 1 (.new true [] .fresh plainConfig)
  obtain ⟨list, signed, iccid, package, result, pair⟩ := always _ _ _ _ _
    [⟨.enableProfile .rollback [7], some resultOk⟩, ⟨.mark .prfleRollback, ()⟩, ⟨.provideEimPackageResult _ _, none⟩,
      ⟨.encode _, .encoded⟩, ⟨.retrieveNotificationsList _, some (.notificationList [])⟩, ⟨.mark _, ()⟩]
    polled rfl rfl (runs_run mixed.answer _ _) ⟨_, List.mem_cons_of_mem _ (List.mem_cons_self ..), trivial⟩
  cases package
  cases result
  replace pair : (Psmo.enable iccid true, EuiccResultData.enableResult resultOk) ∈
    [(.enable [1] true, .enableResult 2), (.enable [2] false, .enableResult resultOk)] := pair
  simp [resultOk] at pair

end Ipad.Proc
