import Mathlib.Data.List.Induction
import Mathlib.Data.List.Infix
import Ipad.Proc.Installation
import Ipad.Proc.OverCard

/-!
# An installation over a card

The bytes of a bound profile package on their way from the procedure to the ISD-R.
-/

namespace Ipad.Proc
open Lib.Dialogue Ipad.Nvstate Ipad.BppSegments Ipad.Utils Ipad.Euicc

/-! ## What the ISD-R executes -/

def commandOf (es10x : Es10xCodec) (event : Event Req Ans) : Option (List UInt8) :=
  if event.req.isEs10x then (es10x.request event.req).map fun es10xReq => es10xReq.bytes else none

section
variable {σ η : Type} (es10x : Es10xCodec) (execute : σ → List UInt8 → σ × List UInt8) (isdR : σ)

def isdRAfter (t : Trace) : σ := (serveAll execute isdR (inOrder (commandOf es10x) t)).1

/-- The answer to a request is what the ISD-R made of it after all that was requested before. -/
def ServedBy (event : Event Req Ans) (earlier : Trace) : Prop :=
  ∀ command, commandOf es10x event = some command →
    event.ans = es10x.answer event.req (serve execute (isdRAfter es10x execute isdR earlier) command).2

variable {es10x execute isdR}

theorem serveAll_append (commands later : List (List UInt8)) :
    (serveAll execute isdR (commands ++ later)).1 = (serveAll execute (serveAll execute isdR commands).1 later).1 := by
  induction commands generalizing isdR with
  | nil => rfl
  | cons command commands ih => exact ih

theorem isdRAfter_cons (event : Event Req Ans) (t : Trace) :
    isdRAfter es10x execute isdR (event :: t) =
      (serveAll execute (isdRAfter es10x execute isdR t) (commandOf es10x event).toList).1 := by
  rw [isdRAfter, inOrder_cons, serveAll_append]
  rfl

theorem isdRAfter_append (later earlier : Trace) :
    isdRAfter es10x execute isdR (later ++ earlier) =
      (serveAll execute (isdRAfter es10x execute isdR earlier) (inOrder (commandOf es10x) later)).1 := by
  rw [isdRAfter, inOrder_append, serveAll_append]
  rfl

theorem direct_served {others : η → (req : Req) → η × Ans req} {α : Type} {program : ProcM α} {rest : η}
    {out : Except Abort α} {s' : σ × η} {t' : Trace}
    (runs : against (direct es10x others execute) program (isdR, rest) [] = some (out, s', t')) :
    s'.1 = isdRAfter es10x execute isdR t' ∧ Every (ServedBy es10x execute isdR) t' := by
  apply against_keeps (R := fun t s => s.1 = isdRAfter es10x execute isdR t ∧ Every (ServedBy es10x execute isdR) t)
    ?_ (show _ ∧ Every _ [] from ⟨rfl, trivial⟩) runs
  rintro t ⟨isdR', rest⟩ req s' ans ⟨now, each⟩ answers
  obtain rfl : isdR' = isdRAfter es10x execute isdR t := now
  unfold direct at answers
  by_cases toEuicc : req.isEs10x
  · simp only [if_pos toEuicc] at answers
    split at answers
    next unencoded =>
      cases answers
      have quiet : commandOf es10x ⟨req, req.silence⟩ = none := by simp [commandOf, unencoded]
      refine ⟨?_, ?_, each⟩
      · rw [isdRAfter_cons, quiet]
        rfl
      · intro command commanded
        rw [quiet] at commanded
        cases commanded
    next es10xReq encoded =>
      cases answers
      have commanded (ans : Ans req) : commandOf es10x ⟨req, ans⟩ = some es10xReq.bytes := by
        simp [commandOf, toEuicc, encoded]
      refine ⟨?_, ?_, each⟩
      · rw [isdRAfter_cons, commanded]
        rfl
      · intro command same
        rw [commanded] at same
        cases same
        rfl
  · simp only [if_neg toEuicc] at answers
    cases answers
    have quiet (ans : Ans req) : commandOf es10x ⟨req, ans⟩ = none := by simp [commandOf, toEuicc]
    refine ⟨?_, ?_, each⟩
    · rw [isdRAfter_cons, quiet]
      rfl
    · intro command commanded
      rw [quiet] at commanded
      cases commanded

end

/-! ## Loading segments -/

/-- The segments go in one after the other, as long as each is taken without a response. -/
def loadAll {σ : Type} (execute : σ → List UInt8 → σ × List UInt8) : σ → List (List UInt8) → σ × List (List UInt8)
  | isdR, [] => (isdR, [])
  | isdR, segment :: rest =>
      let (isdR, res) := serve execute isdR segment
      if res = some [] then
        let (isdR, loaded) := loadAll execute isdR rest
        (isdR, segment :: loaded)
      else (isdR, [segment])

theorem loadAll_front {σ : Type} (execute : σ → List UInt8 → σ × List UInt8) (isdR : σ)
    (segments : List (List UInt8)) : (loadAll execute isdR segments).2 <+: segments := by
  induction segments generalizing isdR with
  | nil => exact List.prefix_rfl
  | cons segment rest ih =>
      unfold loadAll
      by_cases taken : (serve execute isdR segment).2 = some []
      · simp only [taken, if_true]
        exact (List.prefix_cons_inj segment).mpr (ih _)
      · simp only [taken, if_false]
        exact (List.prefix_cons_inj segment).mpr (List.nil_prefix)

/-- The commands that do not load a segment. -/
def otherCommandOf (es10x : Es10xCodec) (event : Event Req Ans) : Option (List UInt8) :=
  if (loadOf event).isSome then none else commandOf es10x event

section
variable {σ : Type} {es10x : Es10xCodec} {execute : σ → List UInt8 → σ × List UInt8} {isdR : σ}

theorem commandOf_load (segment : List UInt8) (ans : SegmentAnswer) :
    commandOf es10x ⟨.loadBoundProfilePackage segment, ans⟩ = some segment := by
  simp [commandOf, Req.isEs10x, Es10xCodec.request]

theorem answer_eq_empty_iff (segment : List UInt8) (res : Option (List UInt8)) :
    es10x.answer (.loadBoundProfilePackage segment) res = SegmentAnswer.empty ↔ res = some [] := by
  cases res with
  | none => simp [Es10xCodec.answer, Req.silence]
  | some res =>
      by_cases empty : res = []
      · simp [Es10xCodec.answer, Es10xCodec.response, empty]
      · simp only [Es10xCodec.answer, Es10xCodec.response, empty, if_false, Option.some.injEq, iff_false]
        split <;> exact SegmentAnswer.noConfusion

theorem isdRAfter_load (segment : List UInt8) (ans : SegmentAnswer) (t : Trace) :
    isdRAfter es10x execute isdR (⟨.loadBoundProfilePackage segment, ans⟩ :: t) =
      (serve execute (isdRAfter es10x execute isdR t) segment).1 := by
  rw [isdRAfter_cons, commandOf_load]
  rfl

theorem isdRAfter_within (segment : IpaBuf) (t : Trace) :
    isdRAfter es10x execute isdR (within segment ++ t) = isdRAfter es10x execute isdR t := by
  unfold within
  split
  · rfl
  · rw [List.singleton_append, isdRAfter_cons]
    rfl

theorem taken_append_singleton (done : List IpaBuf) (segment : IpaBuf) :
    taken (done ++ [segment]) = load segment .empty ++ taken done := by
  induction done with
  | nil => simp [taken]
  | cons first done ih => rw [List.cons_append, taken, ih, List.append_assoc, taken]

theorem loadAll_taken (done : List IpaBuf) (rest : List (List UInt8))
    (each : Every (ServedBy es10x execute isdR) (taken done)) :
    (loadAll execute isdR (done.map IpaBuf.bytes ++ rest)).1 =
      (loadAll execute (isdRAfter es10x execute isdR (taken done)) rest).1 := by
  induction done using List.reverseRecOn generalizing rest with
  | nil => rfl
  | append_singleton done segment ih =>
      rw [taken_append_singleton, load, List.cons_append] at each ⊢
      have empty := (answer_eq_empty_iff _ _).mp (each.1 _ (commandOf_load ..)).symm
      rw [isdRAfter_within] at empty
      rw [List.map_append, List.append_assoc, ih _ (each.2.suffix (List.suffix_append ..)), isdRAfter_load,
        isdRAfter_within]
      simp only [List.map_cons, List.map_nil, List.singleton_append, loadAll, empty, if_true]

theorem loadAll_stops {segment : IpaBuf} {ans : SegmentAnswer} (rest : List (List UInt8)) (t : Trace)
    (each : Every (ServedBy es10x execute isdR) (load segment ans ++ t)) (stops : ans ≠ .empty) :
    (loadAll execute (isdRAfter es10x execute isdR t) (segment.bytes :: rest)).1 =
      isdRAfter es10x execute isdR (load segment ans ++ t) := by
  rw [load, List.cons_append] at each ⊢
  have answered := each.1 _ (commandOf_load ..)
  rw [isdRAfter_within] at answered
  have nonempty : (serve execute (isdRAfter es10x execute isdR t) segment.bytes).2 ≠ some [] := by
    intro empty
    rw [empty] at answered
    exact stops answered
  rw [isdRAfter_load, isdRAfter_within, loadAll]
  simp only [nonempty, if_false]

/-- The state of the ISD-R comes from loading the segments, and from a few other commands after that. -/
structure LoadsCard (es10x : Es10xCodec) (execute : σ → List UInt8 → σ × List UInt8) (isdR : σ) (few : Nat)
    (segments : List IpaBuf) (t : Trace) : Prop where
  after : isdRAfter es10x execute isdR t =
    (serveAll execute (loadAll execute isdR (segments.map IpaBuf.bytes)).1 (inOrder (otherCommandOf es10x) t)).1
  others : (inOrder (otherCommandOf es10x) t).length ≤ few

theorem otherCommands_taken (es10x : Es10xCodec) (done : List IpaBuf) :
    inOrder (otherCommandOf es10x) (taken done) = [] := taken_unseen (fun _ _ => rfl) (fun _ => rfl) done

theorem otherCommands_load (es10x : Es10xCodec) (segment : IpaBuf) (ans : SegmentAnswer) (done : List IpaBuf) :
    inOrder (otherCommandOf es10x) (load segment ans ++ taken done) = [] := by
  rw [inOrder_append, otherCommands_taken, inOrder_load fun _ _ => rfl]
  rfl

theorem otherCommands_handled (es10x : Es10xCodec) {result : PrfleInstRslt} {outcome : Except Abort (Option Nat)}
    {notice enabling : Trace}
    (sends : Sends (Req.handleNotification (.profileInstallationResult result)) outcome notice)
    (enables : Enabling enabling) :
    inOrder (otherCommandOf es10x) (notice ++ enabling ++ [⟨.mark .enableUsingDd, ()⟩]) =
        inOrder (commandOf es10x) enabling ∧
      inOrder (commandOf es10x) (notice ++ enabling ++ [⟨.mark .enableUsingDd, ()⟩]) =
        inOrder (commandOf es10x) enabling ∧
      (inOrder (commandOf es10x) enabling).length ≤ 1 := by
  have unnoticed : inOrder (otherCommandOf es10x) notice = [] ∧ inOrder (commandOf es10x) notice = [] := by
    rcases sends_cases sends with ⟨ans, rfl, rfl⟩ | ⟨rfl, rfl⟩ | ⟨rfl, rfl⟩ <;> exact ⟨rfl, rfl⟩
  simp only [inOrder_append, unnoticed, List.append_nil]
  cases enables with
  | refused => exact ⟨rfl, rfl, Nat.zero_le 1⟩
  | emulated aid ans' => exact ⟨rfl, rfl, List.length_filterMap_le ..⟩
  | native ans' => exact ⟨rfl, rfl, List.length_filterMap_le ..⟩

theorem loadsCard_handled {done rest : List IpaBuf} {segment : IpaBuf} {result : PrfleInstRslt}
    {outcome : Except Abort (Option Nat)} {notice enabling : Trace}
    (sends : Sends (Req.handleNotification (.profileInstallationResult result)) outcome notice)
    (enables : Enabling enabling)
    (each : Every (ServedBy es10x execute isdR) (handled result notice enabling segment ++ taken done)) :
    LoadsCard es10x execute isdR 1 (done ++ segment :: rest)
      (handled result notice enabling segment ++ taken done) := by
  have split : handled result notice enabling segment ++ taken done =
      (notice ++ enabling ++ [⟨.mark .enableUsingDd, ()⟩]) ++ (load segment (.installed result) ++ taken done) := by
    simp [handled]
  rw [split] at each ⊢
  have loaded := each.suffix (List.suffix_append ..)
  obtain ⟨others, commands, few⟩ := otherCommands_handled es10x sends enables
  have silent := otherCommands_load es10x segment (.installed result) done
  constructor
  · rw [isdRAfter_append, commands, inOrder_append, silent, List.nil_append, others, List.map_append,
      loadAll_taken _ _ (loaded.suffix (List.suffix_append ..)), List.map_cons,
      loadAll_stops _ _ loaded SegmentAnswer.noConfusion]
  · rw [inOrder_append, silent, List.nil_append, others]
    exact few

theorem Loading.loadsCard {segments : List IpaBuf} {out : Except Abort (Option Int)} {t : Trace}
    (loading : Loading segments out t) (valid : ∀ segment ∈ segments, segment.Valid)
    (each : Every (ServedBy es10x execute isdR) t) : LoadsCard es10x execute isdR 1 segments t := by
  cases loading with
  | finished =>
      have loaded := loadAll_taken segments [] each
      rw [List.append_nil] at loaded
      constructor
      · rw [otherCommands_taken, loaded]
        rfl
      · rw [otherCommands_taken]
        exact Nat.zero_le 1
  | overrun done rest segment longer => exact absurd (valid segment (by simp)) longer
  | unanswered done rest segment ans unusable =>
      have stops : ans ≠ .empty := by
        rintro rfl
        cases unusable
      have silent := otherCommands_load es10x segment ans done
      constructor
      · rw [silent, List.map_append, loadAll_taken _ _ (each.suffix (List.suffix_append ..)), List.map_cons,
          loadAll_stops _ _ each stops]
        rfl
      · rw [silent]
        exact Nat.zero_le 1
  | handled done rest segment result outcome notice sends enabling enables =>
      exact loadsCard_handled sends enables each

theorem LoadsCard.removal {segments : List IpaBuf} {t : Trace} {few : Nat}
    (loads : LoadsCard es10x execute isdR few segments t) (seqNumber : Int) (ans : Option Int) :
    LoadsCard es10x execute isdR (few + 1) segments (⟨.removeNotificationFromList seqNumber, ans⟩ :: t) := by
  have same : otherCommandOf es10x ⟨.removeNotificationFromList seqNumber, ans⟩ =
      commandOf es10x ⟨.removeNotificationFromList seqNumber, ans⟩ := rfl
  constructor
  · rw [isdRAfter_cons, loads.after, inOrder_cons, serveAll_append, same]
  · rw [inOrder_cons, List.length_append]
    have one := Option.length_toList_le (o := otherCommandOf es10x ⟨.removeNotificationFromList seqNumber, ans⟩)
    exact Nat.add_le_add loads.others one

theorem LoadsCard.mono {segments : List IpaBuf} {t : Trace} {few more : Nat}
    (loads : LoadsCard es10x execute isdR few segments t) (le : few ≤ more) :
    LoadsCard es10x execute isdR more segments t := ⟨loads.after, Nat.le_trans loads.others le⟩

variable (es10x execute isdR) in
theorem ipaProcPrfleInst_loadsCard {asn1c : Asn1c} {ctx : IpaContext} {bpp : BoundProfilePackage}
    {segments : List IpaBuf} (encoded : ipaBppSegmentsEncode asn1c bpp = .ok (some segments))
    (valid : ∀ segment ∈ segments, segment.Valid) :
    Ends (fun _ t' => Every (ServedBy es10x execute isdR) t' → LoadsCard es10x execute isdR 2 segments t')
      (fun _ t' => Every (ServedBy es10x execute isdR) t' → LoadsCard es10x execute isdR 2 segments t')
      (ipaProcPrfleInst asn1c ctx bpp) [] := by
  simp only [ipaProcPrfleInst, encoded]
  cases segments with
  | nil => exact fun each => ((Loading.finished []).loadsCard valid each).mono (Nat.le_succ 1)
  | cons segment rest =>
      apply Ends.bind ((loadSegments_loading ctx segment rest (-1)).mono (fun _ _ => id) ?_)
      · rintro ⟨ctx', seqNumber⟩ _ ⟨events, loading, rfl⟩
        rw [List.append_nil]
        cases seqNumber with
        | none => exact fun each => (loading.loadsCard valid each).mono (Nat.le_succ 1)
        | some seqNumber =>
            simp only
            split
            · simp only [ipaEs10bRmNotifFromLst, ends_bind, ends_request, ends_pure]
              exact fun ans each => (loading.loadsCard valid each.2).removal seqNumber ans
            · exact fun each => (loading.loadsCard valid each).mono (Nat.le_succ 1)
      · rintro abort _ ⟨events, loading, rfl⟩
        rw [List.append_nil]
        exact fun each => (loading.loadsCard valid each).mono (Nat.le_succ 1)

end

section
variable {σ η : Type} {execute : σ → List UInt8 → σ × List UInt8} {blockLen : Nat} {start : CardState σ}
  (es10x : Es10xCodec) (others : η → (req : Req) → η × Ans req)

end

/-- A card that takes every segment without a response. -/
def silent (count : Nat) (_ : List UInt8) : Nat × List UInt8 := (count + 1, [])

theorem smallBpp_encoded : ∃ segments, ipaBppSegmentsEncode oneChunk smallBpp.1 = .ok (some segments) ∧
    ∀ segment ∈ segments, segment.Valid := by
  have valid : ((ipaBppSegmentsEncode oneChunk smallBpp.1).toOption.join.map fun segments =>
      segments.all fun segment => decide segment.Valid) = some true := by
    decide +kernel
  cases encoded : ipaBppSegmentsEncode oneChunk smallBpp.1 with
  | error f =>
      rw [encoded] at valid
      cases valid
  | ok segments =>
      rw [encoded] at valid
      cases segments with
      | none => cases valid
      | some segments =>
          refine ⟨segments, rfl, fun segment member => ?_⟩
          exact of_decide_eq_true (List.all_eq_true.mp (Option.some.inj valid) segment member)

end Ipad.Proc
