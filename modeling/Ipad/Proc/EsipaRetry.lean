import Ipad.Proc.Canaries
import Mathlib.Data.Nat.Find

/-!
# The retries of a request

`ipa_esipa_req` with every attempt it makes and every time it sleeps.
-/

namespace Ipad.Proc.EsipaRetry

abbrev Outcome := Option (List UInt8)

structure Attempt where
  outcome : Outcome
  slept : Option UInt32
  deriving DecidableEq, Repr

structure Run where
  attempts : List Attempt
  checkHttp : Bool
  result : Except Fault Outcome

def Run.prepend (attempt : Attempt) (run : Run) : Run := { run with attempts := attempt :: run.attempts }

section
variable (esipaReqRetries : UInt32) (ipaHttpReq : Nat → Outcome) (checkHttp : Bool)

def gaveUp : Run where
  attempts := [{ outcome := none, slept := none }]
  checkHttp := true
  result := .ok none

def received (esipaRes : List UInt8) : Run where
  attempts := [{ outcome := some esipaRes, slept := none }]
  checkHttp
  result := .ok (some esipaRes)

/-- Behind the loop; the result is what was assigned last. -/
def leave (esipaRes : Option Outcome) : Run where
  attempts := []
  checkHttp
  result :=
    match esipaRes with
    | none => .error .uninitialised
    | some esipaRes => .ok esipaRes

def waitTime (i : UInt32) : UInt32 := (i + 1) * (i + 1)

def esipaLoop (i : UInt32) (esipaRes : Option Outcome) : Run :=
  if _more : i < esipaReqRetries + 1 then
    match ipaHttpReq i.toNat with
    | some esipaRes => received checkHttp esipaRes
    | none =>
        if esipaReqRetries = 0 then gaveUp
        else if esipaReqRetries ≤ i then gaveUp
        else (esipaLoop (i + 1) (some none)).prepend { outcome := none, slept := some (waitTime i) }
  else leave checkHttp esipaRes
termination_by (esipaReqRetries + 1).toNat - i.toNat
decreasing_by
  have bound := (esipaReqRetries + 1).toNat_lt
  rw [UInt32.lt_iff_toNat_lt] at _more
  rw [UInt32.toNat_add i, UInt32.toNat_one, Nat.mod_eq_of_lt (by omega)]
  omega

/-- The function of the source, its transport aside. -/
def ipaEsipaReq : (esipaReq : Option (List UInt8)) → Run
  | none => { attempts := [], checkHttp, result := .ok none }
  | some _ => esipaLoop esipaReqRetries ipaHttpReq checkHttp 0 none

end

/-! ## Closed forms -/

/-- The attempts from the `i`-th on, when `count` of them fail and are followed by another one. -/
def failures (i count : Nat) : List Attempt :=
  (List.range' i count).map fun k => { outcome := none, slept := some (waitTime (UInt32.ofNat k)) }

def Run.behind (run : Run) (attempts : List Attempt) : Run := { run with attempts := attempts ++ run.attempts }

theorem failures_succ (run : Run) (i count : Nat) :
    run.behind (failures i (count + 1)) =
      (run.behind (failures (i + 1) count)).prepend
        { outcome := none, slept := some (waitTime (UInt32.ofNat i)) } := rfl

section
variable {esipaReqRetries : UInt32} {ipaHttpReq : Nat → Outcome} {checkHttp : Bool}

theorem toNat_index {i : Nat} (within : i ≤ esipaReqRetries.toNat) : (UInt32.ofNat i).toNat = i := by
  have bound := esipaReqRetries.toNat_lt
  rw [UInt32.toNat_ofNat', Nat.mod_eq_of_lt (by omega)]

theorem index_lt (room : esipaReqRetries + 1 ≠ 0) {i : Nat} (within : i ≤ esipaReqRetries.toNat) :
    UInt32.ofNat i < esipaReqRetries + 1 := by
  have bound := esipaReqRetries.toNat_lt
  have wrapped : (esipaReqRetries + 1).toNat ≠ 0 := fun zero => room (UInt32.toNat_inj.mp zero)
  rw [UInt32.toNat_add, UInt32.toNat_one] at wrapped
  rw [UInt32.lt_iff_toNat_lt, toNat_index within, UInt32.toNat_add, UInt32.toNat_one, Nat.mod_eq_of_lt (by omega)]
  omega

theorem retries_used {i : Nat} (at_end : i = esipaReqRetries.toNat) : esipaReqRetries ≤ UInt32.ofNat i := by
  rw [UInt32.le_iff_toNat_le, toNat_index (Nat.le_of_eq at_end)]
  exact Nat.le_of_eq at_end.symm

theorem retries_left {i : Nat} (before : i < esipaReqRetries.toNat) :
    esipaReqRetries ≠ 0 ∧ ¬ esipaReqRetries ≤ UInt32.ofNat i := by
  constructor
  · rintro rfl
    exact Nat.not_lt_zero _ before
  · rw [UInt32.le_iff_toNat_le, toNat_index (Nat.le_of_lt before)]
    exact Nat.not_le.mpr before

section
variable (room : esipaReqRetries + 1 ≠ 0) {i : Nat} {last : Option Outcome}
include room

theorem esipaLoop_answered (within : i ≤ esipaReqRetries.toNat) {esipaRes : List UInt8}
    (answered : ipaHttpReq i = some esipaRes) :
    esipaLoop esipaReqRetries ipaHttpReq checkHttp (UInt32.ofNat i) last = received checkHttp esipaRes := by
  rw [esipaLoop, dif_pos (index_lt room within), toNat_index within, answered]

theorem esipaLoop_last (at_end : i = esipaReqRetries.toNat) (failed : ipaHttpReq i = none) :
    esipaLoop esipaReqRetries ipaHttpReq checkHttp (UInt32.ofNat i) last = gaveUp := by
  have within := Nat.le_of_eq at_end
  rw [esipaLoop, dif_pos (index_lt room within), toNat_index within, failed]
  simp only [retries_used at_end, if_true, ite_self]

theorem esipaLoop_retry (before : i < esipaReqRetries.toNat) (failed : ipaHttpReq i = none) :
    esipaLoop esipaReqRetries ipaHttpReq checkHttp (UInt32.ofNat i) last =
      (esipaLoop esipaReqRetries ipaHttpReq checkHttp (UInt32.ofNat (i + 1)) (some none)).prepend
        { outcome := none, slept := some (waitTime (UInt32.ofNat i)) } := by
  have within := Nat.le_of_lt before
  rw [esipaLoop, dif_pos (index_lt room within), toNat_index within, failed]
  obtain ⟨some_retries, left⟩ := retries_left before
  simp only [some_retries, left, if_false, UInt32.ofNat_add]
  rfl

theorem esipaLoop_succeeds (count : Nat) (failing : ∀ k, i ≤ k → k < i + count → ipaHttpReq k = none)
    {esipaRes : List UInt8} (answered : ipaHttpReq (i + count) = some esipaRes)
    (within : i + count ≤ esipaReqRetries.toNat) :
    esipaLoop esipaReqRetries ipaHttpReq checkHttp (UInt32.ofNat i) last =
      (received checkHttp esipaRes).behind (failures i count) := by
  induction count generalizing i last with
  | zero => exact esipaLoop_answered room within answered
  | succ count ih =>
      have next : i + (count + 1) = i + 1 + count := by omega
      rw [next] at failing answered within
      rw [esipaLoop_retry room (by omega) (failing i (Nat.le_refl _) (by omega)), failures_succ,
        ih (fun k low => failing k (Nat.le_of_succ_le low)) answered within]

theorem esipaLoop_exhausted (count : Nat)
    (failing : ∀ k, i ≤ k → k ≤ esipaReqRetries.toNat → ipaHttpReq k = none)
    (whole : i + count = esipaReqRetries.toNat) :
    esipaLoop esipaReqRetries ipaHttpReq checkHttp (UInt32.ofNat i) last = gaveUp.behind (failures i count) := by
  induction count generalizing i last with
  | zero => exact esipaLoop_last room whole (failing i (Nat.le_refl _) (Nat.le_of_eq whole))
  | succ count ih =>
      rw [esipaLoop_retry room (by omega) (failing i (Nat.le_refl _) (by omega)), failures_succ,
        ih (fun k low => failing k (Nat.le_of_succ_le low)) (by omega)]

end

theorem esipaLoop_wrapped (wrapped : esipaReqRetries + 1 = 0) (i : UInt32) :
    esipaLoop esipaReqRetries ipaHttpReq checkHttp i none = leave checkHttp none := by
  rw [esipaLoop, dif_neg]
  rw [wrapped]
  exact UInt32.not_lt_zero

section
variable (esipaReqRetries ipaHttpReq checkHttp)

def outcomeOf (run : Run) : Except Fault Outcome × Bool := (run.result, run.checkHttp)

theorem esipaLoop_refines (room : esipaReqRetries + 1 ≠ 0) (left i : Nat) (last : Option Outcome)
    (whole : i + left = esipaReqRetries.toNat) :
    outcomeOf (esipaLoop esipaReqRetries ipaHttpReq checkHttp (UInt32.ofNat i) last) =
      esipaAttempts esipaReqRetries (fun i => ipaHttpReq i.toNat) checkHttp (left + 1) (UInt32.ofNat i) := by
  have within : i ≤ esipaReqRetries.toNat := by omega
  rw [esipaAttempts, toNat_index within]
  cases answered : ipaHttpReq i with
  | some esipaRes => rw [esipaLoop_answered room within answered, outcomeOf, received]
  | none =>
      cases left with
      | zero =>
          rw [Nat.add_zero] at whole
          rw [esipaLoop_last room whole answered]
          simp only [retries_used whole, if_true, ite_self]
          rfl
      | succ left =>
          have before : i < esipaReqRetries.toNat := by omega
          obtain ⟨some_retries, more⟩ := retries_left before
          have next := esipaLoop_refines room left (i + 1) (some none) (by omega)
          rw [UInt32.ofNat_add, UInt32.ofNat_one] at next
          rw [esipaLoop_retry room before answered]
          simp only [some_retries, more, if_false, ← next, UInt32.ofNat_add, UInt32.ofNat_one]
          rfl

/-- Without the attempts and the sleeping this is `Proc.ipaEsipaReq`. -/
theorem ipaEsipaReq_refines (esipaReq : Option (List UInt8)) :
    outcomeOf (ipaEsipaReq esipaReqRetries ipaHttpReq checkHttp esipaReq) =
      Proc.ipaEsipaReq esipaReqRetries (fun i => ipaHttpReq i.toNat) checkHttp esipaReq := by
  cases esipaReq with
  | none => rfl
  | some req =>
      rw [ipaEsipaReq, Proc.ipaEsipaReq]
      by_cases wrapped : esipaReqRetries + 1 = 0
      · rw [esipaLoop_wrapped wrapped, wrapped]
        rfl
      · have bound := esipaReqRetries.toNat_lt
        have positive : (esipaReqRetries + 1).toNat ≠ 0 := fun zero => wrapped (UInt32.toNat_inj.mp zero)
        have attempts : (esipaReqRetries + 1).toNat = esipaReqRetries.toNat + 1 := by
          rw [UInt32.toNat_add, UInt32.toNat_one] at positive ⊢
          omega
        rw [attempts]
        exact esipaLoop_refines esipaReqRetries ipaHttpReq checkHttp wrapped _ 0 none (Nat.zero_add _)

end

end

/-! ## What a request does -/

/-- Between an attempt and the next one it sleeps the square of the number of attempts made so far. -/
def Sleeps (run : Run) : Prop :=
  ∀ k, 1 ≤ k → k < run.attempts.length → ∃ outcome seconds,
    run.attempts[k - 1]? = some { outcome, slept := some seconds } ∧ seconds.toNat = k * k

structure Lawful (esipaReqRetries : UInt32) (ipaHttpReq : Nat → Outcome) (checkHttp : Bool) (run : Run) : Prop where
  attempted : 1 ≤ run.attempts.length
  bounded : run.attempts.length ≤ esipaReqRetries.toNat + 1
  outcomes : run.attempts.map Attempt.outcome = (List.range run.attempts.length).map ipaHttpReq
  stops : ∀ k < run.attempts.length, ∀ esipaRes, ipaHttpReq k = some esipaRes →
    k + 1 = run.attempts.length ∧ run.result = .ok (some esipaRes) ∧ run.checkHttp = checkHttp
  returns : ∀ esipaRes, run.result = .ok (some esipaRes) →
    ∃ k, k + 1 = run.attempts.length ∧ ipaHttpReq k = some esipaRes
  fails : run.result = .ok none ↔ ∀ k ≤ esipaReqRetries.toNat, ipaHttpReq k = none
  flagged : run.result = .ok none → run.checkHttp = true
  sleeps : Sleeps run
  assigned : ∃ esipaRes, run.result = .ok esipaRes

theorem toNat_waitTime (k : Nat) : (waitTime (UInt32.ofNat k)).toNat = (k + 1) * (k + 1) % 2 ^ 32 := by
  rw [waitTime, ← UInt32.ofNat_one, ← UInt32.ofNat_add, ← UInt32.ofNat_mul, UInt32.toNat_ofNat']

theorem length_behind (final : Run) (count : Nat) (one : final.attempts.length = 1) :
    (final.behind (failures 0 count)).attempts.length = count + 1 := by
  simp [Run.behind, failures, one]

section
variable {final : Run} {count : Nat}

theorem getElem?_behind {k : Nat} (before : k < count) :
    (final.behind (failures 0 count)).attempts[k]? =
      some { outcome := none, slept := some (waitTime (UInt32.ofNat k)) } := by
  have inside : k < (failures 0 count).length := by simpa [failures] using before
  rw [Run.behind, List.getElem?_append_left inside]
  simp [failures, before]

/-- 65536 is the first number whose square does not fit into 32 bits. -/
theorem sleeps_iff (one : final.attempts.length = 1) :
    Sleeps (final.behind (failures 0 count)) ↔ count < 65536 := by
  rw [Sleeps, length_behind final count one]
  constructor
  · intro sleeps
    by_contra long
    obtain ⟨outcome, seconds, found, square⟩ := sleeps 65536 (by decide) (by omega)
    rw [getElem?_behind (by omega)] at found
    cases found
    rw [toNat_waitTime] at square
    exact absurd square (by decide)
  · intro short k positive inside
    refine ⟨none, _, getElem?_behind (by omega), ?_⟩
    have small : k < 65536 := by omega
    have square : k * k < 65536 * 65536 := Nat.mul_lt_mul'' small small
    rw [toNat_waitTime, Nat.sub_add_cancel positive]
    exact Nat.mod_eq_of_lt square

end

section
variable {esipaReqRetries : UInt32} {ipaHttpReq : Nat → Outcome} {checkHttp : Bool} {count : Nat}

theorem outcomes_behind {final : Run} (failing : ∀ k < count, ipaHttpReq k = none) {slept : Option UInt32}
    (last : final.attempts = [{ outcome := ipaHttpReq count, slept }]) :
    (final.behind (failures 0 count)).attempts.map Attempt.outcome = (List.range (count + 1)).map ipaHttpReq := by
  rw [List.range_succ, Run.behind, last]
  simp only [List.map_append, List.map_cons, List.map_nil, failures, List.map_map, ← List.range_eq_range']
  congr 1
  refine List.map_congr_left fun k member => ?_
  exact (failing k (List.mem_range.mp member)).symm

theorem lawful_succeeded (failing : ∀ k < count, ipaHttpReq k = none) {esipaRes : List UInt8}
    (answered : ipaHttpReq count = some esipaRes) (within : count ≤ esipaReqRetries.toNat) (short : count < 65536) :
    Lawful esipaReqRetries ipaHttpReq checkHttp ((received checkHttp esipaRes).behind (failures 0 count)) := by
  have length := length_behind (received checkHttp esipaRes) count rfl
  refine ⟨by omega, by omega, ?_, ?_, ?_, ?_, nofun, (sleeps_iff rfl).mpr short, _, rfl⟩
  · rw [length]
    exact outcomes_behind failing (by rw [answered]; rfl)
  · intro k inside esipaRes' answered'
    rw [length] at inside
    rcases Nat.lt_or_eq_of_le (Nat.le_of_lt_succ inside) with before | rfl
    · rw [failing k before] at answered'
      cases answered'
    · rw [answered] at answered'
      cases answered'
      exact ⟨length.symm, rfl, rfl⟩
  · rintro esipaRes' ⟨⟩
    exact ⟨count, length.symm, answered⟩
  · constructor
    · nofun
    · intro all
      rw [all count within] at answered
      cases answered

theorem lawful_exhausted (failing : ∀ k ≤ esipaReqRetries.toNat, ipaHttpReq k = none)
    (short : esipaReqRetries.toNat < 65536) :
    Lawful esipaReqRetries ipaHttpReq checkHttp (gaveUp.behind (failures 0 esipaReqRetries.toNat)) := by
  have length := length_behind gaveUp esipaReqRetries.toNat rfl
  refine ⟨by omega, by omega, ?_, ?_, nofun, ?_, fun _ => rfl, (sleeps_iff rfl).mpr short, _, rfl⟩
  · rw [length]
    exact outcomes_behind (fun k before => failing k (Nat.le_of_lt before)) (by rw [failing _ (Nat.le_refl _)]; rfl)
  · intro k inside esipaRes answered
    rw [failing k (by omega)] at answered
    cases answered
  · exact iff_of_true rfl failing

theorem first_answer (answered : ¬ ∀ k ≤ esipaReqRetries.toNat, ipaHttpReq k = none) :
    ∃ count esipaRes, count ≤ esipaReqRetries.toNat ∧ ipaHttpReq count = some esipaRes ∧
      ∀ k < count, ipaHttpReq k = none := by
  have found : ∃ k, k ≤ esipaReqRetries.toNat ∧ (ipaHttpReq k).isSome = true := by
    by_contra none_of
    refine answered fun k within => ?_
    rw [← Option.not_isSome_iff_eq_none]
    exact fun some_of => none_of ⟨k, within, some_of⟩
  obtain ⟨within, some_of⟩ := Nat.find_spec found
  obtain ⟨esipaRes, same⟩ := Option.isSome_iff_exists.mp some_of
  refine ⟨Nat.find found, esipaRes, within, same, fun k before => ?_⟩
  have not_before := Nat.find_min found before
  rw [not_and, Option.not_isSome_iff_eq_none] at not_before
  exact not_before (Nat.le_trans (Nat.le_of_lt before) within)

section
variable {esipaReq : List UInt8} (room : esipaReqRetries + 1 ≠ 0)
include room

theorem ipaEsipaReq_succeeded (before : ∀ k < count, ipaHttpReq k = none) {esipaRes : List UInt8}
    (answered : ipaHttpReq count = some esipaRes) (within : count ≤ esipaReqRetries.toNat) :
    ipaEsipaReq esipaReqRetries ipaHttpReq checkHttp (some esipaReq) =
      (received checkHttp esipaRes).behind (failures 0 count) := by
  rw [← Nat.zero_add count] at before answered within
  exact esipaLoop_succeeds room count (fun k _ => before k) answered within

theorem ipaEsipaReq_exhausted (failing : ∀ k ≤ esipaReqRetries.toNat, ipaHttpReq k = none) :
    ipaEsipaReq esipaReqRetries ipaHttpReq checkHttp (some esipaReq) =
      gaveUp.behind (failures 0 esipaReqRetries.toNat) :=
  esipaLoop_exhausted room _ (fun k _ => failing k) (Nat.zero_add _)

end

theorem ipaEsipaReq_lawful_iff (esipaReqRetries : UInt32) (ipaHttpReq : Nat → Outcome) (checkHttp : Bool)
    (esipaReq : List UInt8) :
    Lawful esipaReqRetries ipaHttpReq checkHttp (ipaEsipaReq esipaReqRetries ipaHttpReq checkHttp (some esipaReq)) ↔
      esipaReqRetries + 1 ≠ 0 ∧ ¬ (65536 ≤ esipaReqRetries.toNat ∧ ∀ k < 65536, ipaHttpReq k = none) := by
  by_cases wrapped : esipaReqRetries + 1 = 0
  · rw [ipaEsipaReq, esipaLoop_wrapped wrapped]
    refine iff_of_false (fun lawful => ?_) fun condition => condition.1 wrapped
    exact Nat.not_succ_le_zero 0 lawful.attempted
  · by_cases failing : ∀ k ≤ esipaReqRetries.toNat, ipaHttpReq k = none
    · rw [ipaEsipaReq_exhausted wrapped failing]
      constructor
      · intro lawful
        have short := (sleeps_iff rfl).mp lawful.sleeps
        exact ⟨wrapped, fun long => Nat.not_lt.mpr long.1 short⟩
      · rintro ⟨-, condition⟩
        refine lawful_exhausted failing (Nat.not_le.mp fun many => condition ⟨many, fun k before => ?_⟩)
        exact failing k (by omega)
    · obtain ⟨count, esipaRes, within, answered, before⟩ := first_answer failing
      rw [ipaEsipaReq_succeeded wrapped before answered within]
      constructor
      · intro lawful
        have short := (sleeps_iff rfl).mp lawful.sleeps
        refine ⟨wrapped, fun long => ?_⟩
        rw [long.2 count short] at answered
        cases answered
      · rintro ⟨-, condition⟩
        refine lawful_succeeded before answered within (Nat.not_le.mp fun many =>
          condition ⟨by omega, fun k first => ?_⟩)
        exact before k (by omega)

end

/-- The option `-y -1`: the number of attempts wraps to none. -/
theorem maxRetries_unlawful : ¬ Lawful 4294967295 (fun _ => some []) false
    (ipaEsipaReq 4294967295 (fun _ => some []) false (some [])) := by
  intro lawful
  obtain ⟨esipaRes, result⟩ := lawful.assigned
  rw [ipaEsipaReq, esipaLoop_wrapped (by decide)] at result
  cases result

end Ipad.Proc.EsipaRetry
