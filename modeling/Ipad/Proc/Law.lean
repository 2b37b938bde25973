import Ipad.Proc.Poll

/-!
# What the trace shows

An observer who sees every event knows how far the execution of an eUICC package has come. The law says what
each event may come after, in the observer's terms.
-/

namespace Ipad.Proc
open Lib.Dialogue Ipad.EimCfg

/-! ## The observer -/

/-- `onsetSteps`, `rollbacks`, `rolledBack` and `startAnswer` are those of the last execution that began. -/
structure Seen where
  executing : Option EuiccPackageRequest
  onsetSteps : Nat
  onsetResult : Option EuiccPackageResult
  rollbacks : Nat
  rolledBack : Option EuiccPackageResult
  loaded : Option EuiccPackageResult
  startAnswer : Option (Option ProfileInfoListResponse)
  rememberedIccid : Option (List UInt8)

def Seen.nothing : Seen where
  executing := none
  onsetSteps := 0
  onsetResult := none
  rollbacks := 0
  rolledBack := none
  loaded := none
  startAnswer := none
  rememberedIccid := none

def Seen.step (seen : Seen) : Event Req Ans → Seen
  | ⟨.mark (.execute euiccPackageRequest), _⟩ =>
      { seen with
        executing := some euiccPackageRequest, onsetSteps := 0, rollbacks := 0, rolledBack := none
        startAnswer := none }
  | ⟨.mark (.onset result), _⟩ =>
      { seen with onsetSteps := seen.onsetSteps + 1, onsetResult := some result }
  | ⟨.mark .prfleRollback, _⟩ => { seen with rollbacks := seen.rollbacks + 1 }
  | ⟨.mark .free, _⟩ => { seen with executing := none }
  | ⟨.loadEuiccPackage _, answer⟩ => { seen with loaded := answer }
  | ⟨.profileRollback, answer⟩ =>
      { seen with rolledBack := answer.bind ProfileRollbackResponse.eUICCPackageResult }
  | ⟨.getProfilesInfo .rollback, answer⟩ =>
      { seen with
        startAnswer := some answer
        rememberedIccid := updatedRollbackIccid seen.rememberedIccid (answer.map (decGetPrfleInfoRes true)) }
  | _ => seen

def seen : Trace → Seen
  | [] => .nothing
  | event :: t => (seen t).step event

/-! ## Results and their numbers -/

def EuiccPackageResult.Signed (result : EuiccPackageResult) : Prop :=
  ∃ signed, result = .euiccPackageResultSigned signed

def EuiccPackageResult.Numbered (seqNumber : Int) (result : EuiccPackageResult) : Prop :=
  ∃ signed, result = .euiccPackageResultSigned signed ∧ signed.seqNumber = seqNumber

/-- Native packages are answered with signed results, and emulated packages have one of the two lists. Where
the result that came with a rollback is delivered, it has the number of the loaded result, or that number is
acknowledged. -/
def Conforms (emulated : Bool) : Event Req Ans → Trace → Prop
  | ⟨.loadEuiccPackage _, some result⟩, _ => result.Signed
  | ⟨.getEimPackage, some (.euiccPackageRequest euiccPackageRequest)⟩, _ =>
      emulated = true → euiccPackageRequest.euiccPackage ≠ .nothing
  | ⟨.provideEimPackageResult _ _, some eimAcknowledgements⟩, t =>
      ∀ result first, (seen t).rolledBack = some result →
        (seen t).loaded = some (.euiccPackageResultSigned first) →
        result.Numbered first.seqNumber ∨ first.seqNumber ∈ eimAcknowledgements.getD []
  | _, _ => True

def Conforming (emulated : Bool) : Trace → Prop := Every (Conforms emulated)

def PendingNotification.seqNumber : PendingNotification → Option Int
  | .profileInstallationResult result => some result.seqNumber
  | .otherSignedNotification seqNumber => some seqNumber
  | .nothing => none

def Delivers (seqNumber : Int) : Event Req Ans → Prop
  | ⟨.handleNotification notification, some 0⟩ => notification.seqNumber = some seqNumber
  | ⟨.provideEimPackageResult result _, some eimAcknowledgements⟩ =>
      result.Numbered seqNumber ∨ seqNumber ∈ eimAcknowledgements.getD []
  | _ => False

def Delivered (seqNumber : Int) (t : Trace) : Prop := ∃ event ∈ t, Delivers seqNumber event

/-! ## Results and their commands -/

def Psmo.Answer : Psmo → Option EuiccResultData → Prop
  | .enable _ _, some (.enableResult _) => True
  | .disable _, some (.disableResult _) => True
  | .delete _, some (.deleteResult _) => True
  | .listProfileInfo _, some (.listProfileInfoResult _) => True
  | .getRat, some (.getRatResult _) => True
  | .configureAutoEnable _ _ _, some (.configureAutoEnableResult _) => True
  | .unsupported, none => True
  | _, _ => False

def Answered {α β : Type} (Answer : α → Option β → Prop) (commands : List α) (results : List β) : Prop :=
  ∃ outcomes : List (Option β), List.Forall₂ Answer commands outcomes ∧ results = outcomes.filterMap id

def PsmosAnswered (euiccPackageRequest : EuiccPackageRequest) (result : EuiccPackageResult) : Prop :=
  ∀ list signed, euiccPackageRequest.euiccPackage = .psmoList list →
    result = .euiccPackageResultSigned signed → Answered Psmo.Answer list signed.euiccResult

/-! ## The law -/

/-- The result did not come back acknowledged: the eIM did not answer, or there was no message to answer. -/
inductive JustUnanswered : Trace → Prop where
  | silent (result : EuiccPackageResult) (notifications : NotificationsListResponse) (rest : Trace) :
      JustUnanswered (⟨.provideEimPackageResult result notifications, none⟩ :: rest)
  | unencoded (result : EuiccPackageResult) (notifications : NotificationsListResponse) (rest : Trace) :
      JustUnanswered (⟨.encode (.provideEimPackageResult result notifications), .refused⟩ :: rest)

/-- What holds when a rollback is tried: the delivery of the result was not answered, the package allows it,
its result changed the profile, and it is the first try. -/
structure MayRollback (emulated : Bool) (t : Trace) : Prop where
  unanswered : JustUnanswered t
  execution : ∃ euiccPackageRequest result, (seen t).executing = some euiccPackageRequest ∧
    (seen t).onsetResult = some result ∧ checkForRollbackFlag euiccPackageRequest = true ∧
    checkForProfileChange result = true ∧ (emulated = true → PsmosAnswered euiccPackageRequest result)
  first : (seen t).rollbacks = 0

def JustBegun (t : Trace) : Prop := ∃ euiccPackageRequest rest, t = ⟨.mark (.execute euiccPackageRequest), ()⟩ :: rest

def JustTried (t : Trace) : Prop := ∃ rest, t = ⟨.mark .prfleRollback, ()⟩ :: rest

def Law (emulated : Bool) (event : Event Req Ans) (t : Trace) : Prop :=
  match event.req with
  | .getEimPackage => (seen t).executing = none
  | .mark (.execute _) => (seen t).executing = none
  | .mark (.onset result) => (seen t).onsetSteps ≤ 1 ∧ (Conforming emulated t → result.Signed)
  | .mark .prfleRollback => MayRollback emulated t
  | .removeNotificationFromList seqNumber => Conforming emulated t → Delivered seqNumber t
  | .getProfilesInfo .rollback => JustBegun t
  | .profileRollback => JustTried t
  | .enableProfile .rollback iccid =>
      JustTried t ∧ (seen t).rememberedIccid = some iccid ∧ (seen t).startAnswer.isSome
  | _ => True

def Lawful (emulated : Bool) : Trace → Prop := Every (Law emulated)

def Aborts (emulated : Bool) (abort : Abort) (t : Trace) : Prop :=
  abort ≠ .executionPending ∧ Lawful emulated t

theorem aborts_fault {emulated : Bool} {t : Trace} (lawful : Lawful emulated t) (f : Fault) :
    Aborts emulated (.fault f) t := ⟨nofun, lawful⟩

/-! ## Requests that change nothing -/

def Mark.Idle : Mark → Prop
  | .resetCanaries => True
  | .enableUsingDd => True
  | .prfleInst _ => True
  | _ => False

/-- The requests that the law says nothing about and that the observer takes no notice of. -/
def Req.Idle : Req → Prop
  | .getProfilesInfo purpose => purpose ≠ .rollback
  | .enableProfile purpose _ => purpose ≠ .rollback
  | .loadEuiccPackage _ => False
  | .profileRollback => False
  | .removeNotificationFromList _ => False
  | .getEimPackage => False
  | .mark m => m.Idle
  | _ => True

theorem idle_getProfilesInfo_psmo : (Req.getProfilesInfo .psmo).Idle := nofun

theorem idle_enableProfile_psmo (profile : List UInt8) : (Req.enableProfile .psmo profile).Idle := nofun

theorem idle_enableProfile_autoEnable (profile : List UInt8) : (Req.enableProfile .autoEnable profile).Idle :=
  nofun

theorem Req.Idle.law {req : Req} (idle : req.Idle) (emulated : Bool) (ans : Ans req) (t : Trace) :
    Law emulated ⟨req, ans⟩ t := by
  cases req with
  | getProfilesInfo purpose =>
      cases purpose with
      | rollback => exact absurd rfl idle
      | psmo => trivial
      | autoEnable => trivial
  | enableProfile purpose profile =>
      cases purpose with
      | rollback => exact absurd rfl idle
      | psmo => trivial
      | autoEnable => trivial
  | profileRollback => exact idle.elim
  | removeNotificationFromList => exact idle.elim
  | getEimPackage => exact idle.elim
  | mark m =>
      cases m with
      | resetCanaries => trivial
      | enableUsingDd => trivial
      | prfleInst => trivial
      | execute => exact idle.elim
      | onset => exact idle.elim
      | prfleRollback => exact idle.elim
      | free => exact idle.elim
  | _ => trivial

theorem Req.Idle.step {req : Req} (idle : req.Idle) (ans : Ans req) (seen : Seen) :
    seen.step ⟨req, ans⟩ = seen := by
  cases req with
  | getProfilesInfo purpose =>
      cases purpose with
      | rollback => exact absurd rfl idle
      | psmo => rfl
      | autoEnable => rfl
  | loadEuiccPackage => exact idle.elim
  | profileRollback => exact idle.elim
  | mark m =>
      cases m with
      | resetCanaries => rfl
      | enableUsingDd => rfl
      | prfleInst => rfl
      | execute => exact idle.elim
      | onset => exact idle.elim
      | prfleRollback => exact idle.elim
      | free => exact idle.elim
  | _ => rfl

structure Kept (emulated : Bool) (t t' : Trace) : Prop where
  lawful : Lawful emulated t'
  seen : seen t' = seen t
  suffix : t <:+ t'

section
variable {emulated : Bool} {t t' : Trace}

theorem Kept.refl (lawful : Lawful emulated t) : Kept emulated t t := ⟨lawful, rfl, List.suffix_rfl⟩

theorem Kept.idle (kept : Kept emulated t t') (req : Req) (ans : Ans req) (idle : req.Idle) :
    Kept emulated t (⟨req, ans⟩ :: t') where
  lawful := ⟨idle.law emulated ans t', kept.lawful⟩
  seen := (idle.step ans (Proc.seen t')).trans kept.seen
  suffix := kept.suffix.trans (List.suffix_cons ..)

theorem Kept.remove (kept : Kept emulated t t') (seqNumber : Int)
    (ans : Ans (.removeNotificationFromList seqNumber))
    (delivered : Conforming emulated t' → Delivered seqNumber t') :
    Kept emulated t (⟨.removeNotificationFromList seqNumber, ans⟩ :: t') where
  lawful := ⟨delivered, kept.lawful⟩
  seen := kept.seen
  suffix := kept.suffix.trans (List.suffix_cons ..)

theorem Kept.conforming (kept : Kept emulated t t') (conforming : Conforming emulated t') :
    Conforming emulated t :=
  conforming.suffix kept.suffix

end

end Ipad.Proc
