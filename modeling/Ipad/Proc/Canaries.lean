import Mathlib.Algebra.Group.Nat.Defs
import Ipad.Euicc.Transceive
import Ipad.Proc.Idle

/-!
# The canaries

Two flags that a poll resets. A request to the eIM that has used up its retries sets the one, an APDU that the
card reader could not exchange sets the other.
-/

namespace Ipad.Proc
open Lib.Dialogue

/-! ## A request to the eIM -/

section
variable (esipaReqRetries : UInt32) (ipaHttpReq : UInt32 → Option (List UInt8)) (checkHttp : Bool)

/-- The attempts from the `i`-th on. Where no attempt is made at all the response is never set. -/
def esipaAttempts : (left : Nat) → (i : UInt32) → Except Fault (Option (List UInt8)) × Bool
  | 0, _ => (.error .uninitialised, checkHttp)
  | left + 1, i =>
      match ipaHttpReq i with
      | some esipaRes => (.ok (some esipaRes), checkHttp)
      | none =>
          if esipaReqRetries = 0 then (.ok none, true)
          else if esipaReqRetries ≤ i then (.ok none, true)
          else esipaAttempts left (i + 1)

/-- The response, and the flag as the second component. `EsipaRetry.ipaEsipaReq` has the attempts and the sleeping
of the source as well, and `EsipaRetry.ipaEsipaReq_refines` says that this is what is left without them. -/
def ipaEsipaReq (esipaReq : Option (List UInt8)) : Except Fault (Option (List UInt8)) × Bool :=
  match esipaReq with
  | none => (.ok none, checkHttp)
  | some _ => esipaAttempts esipaReqRetries ipaHttpReq checkHttp (esipaReqRetries + 1).toNat 0

def RetriesUsedUp (esipaReq : Option (List UInt8)) : Prop :=
  esipaReq.isSome ∧ esipaReqRetries + 1 ≠ 0 ∧ ∀ i ≤ esipaReqRetries, ipaHttpReq i = none

theorem esipaAttempts_flag_iff (left : Nat) (i : UInt32) (within : i.toNat + left = esipaReqRetries.toNat) :
    (esipaAttempts esipaReqRetries ipaHttpReq checkHttp (left + 1) i).2 = true ↔
      checkHttp = true ∨ ∀ j, i ≤ j → j ≤ esipaReqRetries → ipaHttpReq j = none := by
  induction left generalizing i with
  | zero =>
      have last : i = esipaReqRetries := UInt32.toNat_inj.mp within
      have only : (∀ j, i ≤ j → j ≤ esipaReqRetries → ipaHttpReq j = none) ↔ ipaHttpReq i = none := by
        constructor
        · exact fun all => all i (UInt32.le_refl i) (last ▸ UInt32.le_refl i)
        · intro here j low high
          rw [← last] at high
          rw [← UInt32.le_antisymm low high]
          exact here
      unfold esipaAttempts
      rw [only]
      cases answered : ipaHttpReq i with
      | some esipaRes => simp
      | none => simp [last]
  | succ left ih =>
      have bound := esipaReqRetries.toNat_lt
      have next : (i + 1).toNat = i.toNat + 1 := by
        rw [UInt32.toNat_add, UInt32.toNat_one, Nat.mod_eq_of_lt]
        omega
      have more : ¬ esipaReqRetries ≤ i := by
        rw [UInt32.le_iff_toNat_le]
        omega
      have notZero : esipaReqRetries ≠ 0 := by
        rintro rfl
        rw [UInt32.toNat_zero] at within
        omega
      have step : (∀ j, i ≤ j → j ≤ esipaReqRetries → ipaHttpReq j = none) ↔
          ipaHttpReq i = none ∧ ∀ j, i + 1 ≤ j → j ≤ esipaReqRetries → ipaHttpReq j = none := by
        constructor
        · refine fun all => ⟨all i (UInt32.le_refl i) ?_, fun j low => all j ?_⟩
          · rw [UInt32.le_iff_toNat_le]
            omega
          · rw [UInt32.le_iff_toNat_le] at low ⊢
            omega
        · rintro ⟨here, later⟩ j low high
          by_cases same : i = j
          · exact same ▸ here
          · refine later j ?_ high
            have apart : i.toNat ≠ j.toNat := mt UInt32.toNat_inj.mp same
            rw [UInt32.le_iff_toNat_le] at low ⊢
            omega
      unfold esipaAttempts
      cases answered : ipaHttpReq i with
      | some esipaRes => simp [step, answered]
      | none =>
          simp only [if_neg notZero, if_neg more]
          rw [ih (i + 1) (by omega), step]
          simp [answered]

theorem ipaEsipaReq_flag_iff (esipaReq : Option (List UInt8)) :
    (ipaEsipaReq esipaReqRetries ipaHttpReq checkHttp esipaReq).2 = true ↔
      checkHttp = true ∨ RetriesUsedUp esipaReqRetries ipaHttpReq esipaReq := by
  cases esipaReq with
  | none => simp [ipaEsipaReq, RetriesUsedUp]
  | some esipaReq =>
      by_cases wrapped : esipaReqRetries + 1 = 0
      · simp [ipaEsipaReq, RetriesUsedUp, wrapped, esipaAttempts]
      · have attempts : (esipaReqRetries + 1).toNat = esipaReqRetries.toNat + 1 := by
          have bound := esipaReqRetries.toNat_lt
          have positive : (esipaReqRetries + 1).toNat ≠ 0 := fun zero => wrapped (UInt32.toNat_inj.mp zero)
          rw [UInt32.toNat_add, UInt32.toNat_one] at positive ⊢
          omega
        rw [ipaEsipaReq, attempts, esipaAttempts_flag_iff _ _ _ _ _ (by rw [UInt32.toNat_zero, Nat.zero_add])]
        simp [RetriesUsedUp, wrapped]

end

/-! ## The flags in memory -/

inductive Peer where
  | eim
  | euicc
  | nobody

def Req.peer : Req → Peer
  | .getEimPackage => .eim
  | .provideEimPackageResult _ _ => .eim
  | .provideEimPackageOutcome _ => .eim
  | .handleNotification _ => .eim
  | .initiateAuthentication _ => .eim
  | .authenticateClient _ => .eim
  | .getBoundProfilePackage _ => .eim
  | .cancelSessionEsipa _ _ => .eim
  | .prfleInstConsent _ _ => .nobody
  | .canaries => .nobody
  | .uninitialised => .nobody
  | .mark _ => .nobody
  | _ => .euicc

/-- What lies below a request: the encoded request and the answers to its attempts, or the APDUs. -/
structure Transport where
  esipaReq : Option (List UInt8)
  ipaHttpReq : UInt32 → Option (List UInt8)
  exchanges : List Euicc.Exchange

structure Canaries where
  checkHttp : Bool
  checkScard : Bool

def Canaries.reset : Canaries where
  checkHttp := false
  checkScard := false

section
variable (esipaReqRetries : UInt32) (transport : Trace → Transport)

def Canaries.step (canaries : Canaries) (event : Event Req Ans) (t : Trace) : Canaries :=
  match event.req with
  | .mark .resetCanaries => .reset
  | req =>
      match req.peer with
      | .eim =>
          { canaries with
            checkHttp := (ipaEsipaReq esipaReqRetries (transport (event :: t)).ipaHttpReq canaries.checkHttp
              (transport (event :: t)).esipaReq).2 }
      | .euicc =>
          { canaries with
            checkScard := canaries.checkScard || (transport (event :: t)).exchanges.any Euicc.Exchange.failed }
      | .nobody => canaries

def canariesAfter : Trace → Canaries
  | [] => .reset
  | event :: t => (canariesAfter t).step esipaReqRetries transport event t

/-- The flags that are read are those that have been written. -/
def Remembers : Trace → Prop := Every fun event t =>
  match event with
  | ⟨.canaries, ans⟩ =>
      ans = ((canariesAfter esipaReqRetries transport t).checkHttp,
        (canariesAfter esipaReqRetries transport t).checkScard)
  | _ => True

/-! ## What the flags say -/

def HttpFailed (event : Event Req Ans) (t : Trace) : Prop :=
  event.req.peer = .eim ∧
    RetriesUsedUp esipaReqRetries (transport (event :: t)).ipaHttpReq (transport (event :: t)).esipaReq

def ScardFailed (event : Event Req Ans) (t : Trace) : Prop :=
  event.req.peer = .euicc ∧ (transport (event :: t)).exchanges.any Euicc.Exchange.failed = true

end

def Since (t : Trace) (P : Event Req Ans → Trace → Prop) (t' : Trace) : Prop :=
  ∃ later event earlier, t' = later ++ event :: earlier ∧ t <:+ earlier ∧ P event earlier

section
variable {t : Trace} {P : Event Req Ans → Trace → Prop}

theorem not_since_self : ¬ Since t P t := by
  rintro ⟨later, event, earlier, split, suffix, -⟩
  have short := suffix.length_le
  have long := congrArg List.length split
  rw [List.length_append, List.length_cons] at long
  omega

theorem since_cons {t' : Trace} (suffix : t <:+ t') (event : Event Req Ans) :
    Since t P (event :: t') ↔ P event t' ∨ Since t P t' := by
  constructor
  · rintro ⟨_ | ⟨newest, later⟩, other, earlier, split, suffix', holds⟩
    · cases split
      exact .inl holds
    · cases split
      exact .inr ⟨later, other, earlier, rfl, suffix', holds⟩
  · rintro (holds | ⟨later, other, earlier, rfl, suffix', holds⟩)
    · exact ⟨[], event, t', rfl, suffix, holds⟩
    · exact ⟨event :: later, other, earlier, rfl, suffix', holds⟩

end

def Req.Unreset : Req → Prop
  | .mark m => m ≠ .resetCanaries
  | .canaries => False
  | _ => True

section
variable {esipaReqRetries : UInt32} {transport : Trace → Transport} {t t' : Trace}

theorem canaries_step_iff (canaries : Canaries) (event : Event Req Ans) (t : Trace) (unreset : event.req.Unreset) :
    ((canaries.step esipaReqRetries transport event t).checkHttp = true ↔
        HttpFailed esipaReqRetries transport event t ∨ canaries.checkHttp = true) ∧
      ((canaries.step esipaReqRetries transport event t).checkScard = true ↔
        ScardFailed transport event t ∨ canaries.checkScard = true) := by
  obtain ⟨req, ans⟩ := event
  have byPeer : canaries.step esipaReqRetries transport ⟨req, ans⟩ t =
      match req.peer with
      | .eim =>
          { canaries with
            checkHttp := (ipaEsipaReq esipaReqRetries (transport (⟨req, ans⟩ :: t)).ipaHttpReq canaries.checkHttp
              (transport (⟨req, ans⟩ :: t)).esipaReq).2 }
      | .euicc =>
          { canaries with
            checkScard := canaries.checkScard ||
              (transport (⟨req, ans⟩ :: t)).exchanges.any Euicc.Exchange.failed }
      | .nobody => canaries := by
    cases req with
    | mark m =>
        cases m with
        | resetCanaries => exact absurd rfl unreset
        | _ => rfl
    | _ => rfl
  rw [byPeer]
  cases peer : req.peer with
  | eim =>
      simp only [HttpFailed, ScardFailed, peer]
      rw [ipaEsipaReq_flag_iff, or_comm]
      simp
  | euicc =>
      simp only [HttpFailed, ScardFailed, peer, true_and]
      refine ⟨by simp, ?_⟩
      rw [Bool.or_eq_true, or_comm]
  | nobody => simp [HttpFailed, ScardFailed, peer]

/-- Behind a reset the flags tell what has failed since. -/
theorem canariesAfter_iff (esipaReqRetries : UInt32) (transport : Trace → Transport)
    (adds : Adds Req.Unreset (⟨.mark .resetCanaries, ()⟩ :: t) t') :
    ((canariesAfter esipaReqRetries transport t').checkHttp = true ↔
        Since t (HttpFailed esipaReqRetries transport) t') ∧
      ((canariesAfter esipaReqRetries transport t').checkScard = true ↔ Since t (ScardFailed transport) t') := by
  obtain ⟨later, rfl, unreset⟩ := adds
  induction later with
  | nil =>
      have nobody (P : Event Req Ans → Trace → Prop) (silent : ¬ P ⟨.mark .resetCanaries, ()⟩ t) :
          ¬ Since t P (⟨.mark .resetCanaries, ()⟩ :: t) := by
        rw [since_cons List.suffix_rfl]
        exact fun failed => failed.elim silent not_since_self
      exact ⟨iff_of_false Bool.false_ne_true (nobody _ fun failed => Peer.noConfusion failed.1),
        iff_of_false Bool.false_ne_true (nobody _ fun failed => Peer.noConfusion failed.1)⟩
  | cons event later ih =>
      rw [List.forall_mem_cons] at unreset
      have before := ih unreset.2
      have suffix : t <:+ later ++ ⟨.mark .resetCanaries, ()⟩ :: t :=
        (List.suffix_cons ..).trans (List.suffix_append ..)
      rw [List.cons_append, since_cons suffix, since_cons suffix, ← before.1, ← before.2]
      exact canaries_step_iff _ event _ unreset.1

end

end Ipad.Proc
