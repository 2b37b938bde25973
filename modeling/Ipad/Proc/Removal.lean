import Ipad.Proc.Polling

/-!
# Removing notifications
-/

namespace Ipad.Proc
open Lib.Dialogue Ipad.EimCfg Ipad.Nvstate Ipad.BppSegments Ipad.Utils

/-- A notification is removed after its delivery only, and an onset step takes its number from a signed
result. -/
structure RemovesDelivered (t : Trace) : Prop where
  delivered : ∀ later seqNumber ans earlier,
    t = later ++ ⟨.removeNotificationFromList seqNumber, ans⟩ :: earlier → Delivered seqNumber earlier
  selected : ∀ later result earlier, t = later ++ ⟨.mark (.onset result), ()⟩ :: earlier → result.Signed

theorem Conforming.before {emulated : Bool} {later earlier : Trace} {event : Event Req Ans}
    (conforming : Conforming emulated (later ++ event :: earlier)) : Conforming emulated earlier :=
  conforming.suffix ((List.suffix_cons ..).trans (List.suffix_append ..))

theorem ipaPoll_removesDelivered {codec : EimCfgCodec} {asn1c : Asn1c} {ctx : IpaContext} {t t' : Trace}
    (polled : Polled codec asn1c ctx t) {out : Except Abort (IpaContext × Int)}
    (runs : Runs (ipaPoll codec asn1c ctx) t out t') (conforming : Conforming ctx.iotEuiccEmuEnabled t') :
    RemovesDelivered t' := by
  have lawful := polled_lawful polled runs
  constructor
  · rintro later seqNumber ans earlier rfl
    exact lawful.before conforming.before
  · rintro later result earlier rfl
    exact lawful.before.2 conforming.before

def readPackage : EuiccPackageRequest where
  counterValue := 1
  transactionId := none
  euiccPackage := .psmoList [.getRat]

def answering (loaded : EuiccPackageResult) : Answers where
  euiccPackageRequest := readPackage
  loaded := some loaded
  profilesInfo := fun _ => none
  enableResult := fun _ => resultOk
  disableResult := resultOk
  rollback := none
  eimAcknowledgements := fun _ => some none

def readDone : EuiccPackageResult := packageDone 4 [.getRatResult []]

theorem readDone_removesDelivered :
    let ended := run (answering readDone).answer (ipaPoll derCodec oneChunk (freshContext false)) []
    Delivered 4 ended.2 ∧ RemovesDelivered ended.2 := by
  constructor
  · exact ⟨_, .tail _ (.tail _ (.head _)), .inl ⟨_, rfl, rfl⟩⟩
  · apply ipaPoll_removesDelivered (.new false [] .fresh plainConfig) (runs_run (answering readDone).answer _ _)
    exact ⟨trivial, trivial, nofun, trivial, trivial, trivial, ⟨_, rfl⟩, trivial, trivial, nofun, trivial, trivial,
      trivial⟩

def replayError : EuiccPackageResult := .euiccPackageErrorSigned [] 1 none 4

/-- What comes before the removal when the eUICC refuses a package with the code 4. -/
def refused : Trace :=
  [⟨.provideEimPackageResult replayError (.notificationList []), some none⟩,
    ⟨.encode (.provideEimPackageResult replayError (.notificationList [])), .encoded⟩,
    ⟨.retrieveNotificationsList (some 4), some (.notificationList [])⟩,
    ⟨.mark (.onset replayError), ()⟩,
    ⟨.loadEuiccPackage readPackage, some replayError⟩,
    ⟨.encode (.loadEuiccPackage readPackage), .encoded⟩,
    ⟨.mark (.execute readPackage), ()⟩,
    ⟨.getEimPackage, some (.euiccPackageRequest readPackage)⟩,
    ⟨.retrieveNotificationsList none, some (.notificationList [])⟩,
    ⟨.mark .resetCanaries, ()⟩]

theorem refused_not_delivered : ¬ Delivered 4 refused := by
  rintro ⟨event, member, delivers⟩
  simp only [refused, List.mem_cons, List.not_mem_nil, or_false] at member
  rcases member with rfl | rfl | rfl | rfl | rfl | rfl | rfl | rfl | rfl | rfl
  · rcases delivers with ⟨_, ⟨⟩, _⟩ | acknowledged
    exact List.not_mem_nil acknowledged
  all_goals exact delivers

theorem replayError_not_removesDelivered : ¬ ∀ ctx t out t', Polled derCodec oneChunk ctx t →
    Runs (ipaPoll derCodec oneChunk ctx) t out t' → RemovesDelivered t' := by
  intro removes
  have runs := runs_run (answering replayError).answer (ipaPoll derCodec oneChunk (freshContext false)) []
  have delivered := (removes _ _ _ _ (.new false [] .fresh plainConfig) runs).delivered
  exact refused_not_delivered (delivered [⟨.mark .free, ()⟩] 4 (some 0) refused rfl)

end Ipad.Proc
