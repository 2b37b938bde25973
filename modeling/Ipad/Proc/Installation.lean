import Ipad.Proc.PrfleInst

/-!
# What a profile installation says
-/

namespace Ipad.Proc
open Lib.Dialogue Ipad.EimCfg Ipad.Nvstate Ipad.BppSegments Ipad.Utils

/-! ## Calls in order -/

inductive Call where
  | result (result : PrfleInstRslt)
  | enableUsingDd
  | handleNotification (notification : PendingNotification)

def loadOf : Event Req Ans → Option (List UInt8)
  | ⟨.loadBoundProfilePackage segment, _⟩ => some segment
  | _ => none

def resultOf : Event Req Ans → Option PrfleInstRslt
  | ⟨.loadBoundProfilePackage _, .installed result⟩ => some result
  | _ => none

/-- A function of the eIM is called where its message is encoded. -/
def callOf : Event Req Ans → Option Call
  | ⟨.loadBoundProfilePackage _, .installed result⟩ => some (.result result)
  | ⟨.mark .enableUsingDd, _⟩ => some .enableUsingDd
  | ⟨.encode (.handleNotification notification), _⟩ => some (.handleNotification notification)
  | _ => none

def noticeOf : Event Req Ans → Option PendingNotification
  | ⟨.handleNotification notification, _⟩ => some notification
  | _ => none

def removalOf : Event Req Ans → Option Int
  | ⟨.removeNotificationFromList seqNumber, _⟩ => some seqNumber
  | _ => none

def inOrder {α : Type} (of : Event Req Ans → Option α) (t : Trace) : List α := t.reverse.filterMap of

def ResultDelivered (result : PrfleInstRslt) (t : Trace) : Prop :=
  ⟨.handleNotification (.profileInstallationResult result), some 0⟩ ∈ t

def NotificationRemoved (seqNumber : Int) (t : Trace) : Prop :=
  ∃ status, ⟨.removeNotificationFromList seqNumber, some status⟩ ∈ t ∧ (status = 0 ∨ status = 1)

/-- A segment that the eUICC took without a result, or a transfer that did not get behind a buffer. -/
inductive Passes : Event Req Ans → Prop where
  | load (segment : List UInt8) : Passes ⟨.loadBoundProfilePackage segment, .empty⟩
  | within (segment : List UInt8) : Passes ⟨.overrun segment, false⟩

/-- There is no return code where the program was interrupted. -/
structure Installs (segments : List IpaBuf) (rc : Option Int) (t : Trace) : Prop where
  loads : inOrder loadOf t <+: segments.map IpaBuf.bytes
  stops : ∀ later segment ans earlier, t = later ++ ⟨.loadBoundProfilePackage segment, ans⟩ :: earlier →
    ∀ event ∈ earlier, Passes event
  calls : inOrder callOf t = (inOrder resultOf t).flatMap fun result =>
    [.result result, .enableUsingDd, .handleNotification (.profileInstallationResult result)]
  notices : inOrder noticeOf t <+: (inOrder resultOf t).map .profileInstallationResult
  removes : ∀ seqNumber, seqNumber ∈ inOrder removalOf t ↔ ∃ result ∈ inOrder resultOf t,
    ResultDelivered result t ∧ 0 ≤ result.seqNumber ∧ result.seqNumber = seqNumber
  removesOnce : (inOrder removalOf t).length ≤ 1
  returns : rc = some 0 ↔ ∃ result ∈ inOrder resultOf t,
    ResultDelivered result t ∧ NotificationRemoved result.seqNumber t

/-- What ends the program in the middle: the notification cannot be encoded again for want of a buffer, or a
segment is read from behind its buffer. -/
inductive Interrupted (segments : List IpaBuf) : Trace → Prop where
  | aborted (notification : PendingNotification) (t : Trace) :
      Interrupted segments (⟨.encode (.handleNotification notification), .aborted⟩ :: t)
  | overrun (segment : IpaBuf) (member : segment ∈ segments) (longer : ¬ segment.Valid) (t : Trace) :
      Interrupted segments (⟨.overrun segment.bytes, true⟩ :: t)

/-! ## The shape of a run -/

def within (segment : IpaBuf) : Trace := if segment.Valid then [] else [⟨.overrun segment.bytes, false⟩]

def load (segment : IpaBuf) (ans : SegmentAnswer) : Trace :=
  ⟨.loadBoundProfilePackage segment.bytes, ans⟩ :: within segment

/-- The loads of segments that the eUICC took without a result. -/
def taken : List IpaBuf → Trace
  | [] => []
  | segment :: rest => taken rest ++ load segment .empty

/-- What EnableUsingDD comes down to, if it gets so far. -/
inductive Enabling : Trace → Prop where
  | refused : Enabling []
  | emulated (aid : List UInt8) (ans : Option Int) : Enabling [⟨.enableProfile .autoEnable aid, ans⟩]
  | native (ans : Option Int) : Enabling [⟨.enableUsingDd, ans⟩]

def handled (result : PrfleInstRslt) (notice enabling : Trace) (segment : IpaBuf) : Trace :=
  notice ++ enabling ++ ⟨.mark .enableUsingDd, ()⟩ :: load segment (.installed result)

inductive Loading : List IpaBuf → Except Abort (Option Int) → Trace → Prop where
  | finished (segments : List IpaBuf) : Loading segments (.ok none) (taken segments)
  | overrun (done rest : List IpaBuf) (segment : IpaBuf) (longer : ¬ segment.Valid) :
      Loading (done ++ segment :: rest) (.error (.fault .outOfBounds))
        (⟨.overrun segment.bytes, true⟩ :: taken done)
  | unanswered (done rest : List IpaBuf) (segment : IpaBuf) (ans : SegmentAnswer)
      (unusable : SegmentAnswer.result ans = none) :
      Loading (done ++ segment :: rest) (.ok none) (load segment ans ++ taken done)
  | handled (done rest : List IpaBuf) (segment : IpaBuf) (result : PrfleInstRslt)
      (outcome : Except Abort (Option Nat)) (notice : Trace)
      (sends : Sends (.handleNotification (.profileInstallationResult result)) outcome notice)
      (enabling : Trace) (enables : Enabling enabling) :
      Loading (done ++ segment :: rest)
        (outcome.map fun ans => if ans = some 0 then some result.seqNumber else none)
        (handled result notice enabling segment ++ taken done)

theorem Loading.cons {segments : List IpaBuf} {out : Except Abort (Option Int)} {events : Trace}
    (loading : Loading segments out events) (segment : IpaBuf) :
    Loading (segment :: segments) out (events ++ load segment .empty) := by
  cases loading with
  | finished => exact .finished (segment :: segments)
  | overrun done rest last longer => exact .overrun (segment :: done) rest last longer
  | unanswered done rest last ans unusable =>
      rw [List.append_assoc]
      exact .unanswered (segment :: done) rest last ans unusable
  | handled done rest last result outcome notice sends enabling enables =>
      rw [List.append_assoc]
      exact .handled (segment :: done) rest last result outcome notice sends enabling enables

section
variable {t : Trace}

theorem ipaEs10bEnableUsingDd_enabling (ctx : IpaContext) :
    Ends (fun _ t' => ∃ enabling, Enabling enabling ∧ t' = enabling ++ ⟨.mark .enableUsingDd, ()⟩ :: t)
      (fun _ _ => False) (ipaEs10bEnableUsingDd ctx) t := by
  simp only [ipaEs10bEnableUsingDd, ends_bind, ends_mark]
  split
  · split
    · exact ⟨[], .refused, rfl⟩
    · simp only [ends_bind, ends_request, ends_pure]
      exact fun ans => ⟨_, .emulated _ ans, rfl⟩
  · simp only [ends_bind, ends_request, ends_pure]
    exact fun ans => ⟨_, .native ans, rfl⟩

theorem ipaEsipaHandleNotif_sends (notification : PendingNotification) :
    Ends (fun rc t' => ∃ ans notice, Sends (.handleNotification notification) (.ok ans) notice ∧
        t' = notice ++ t ∧ rc = if ans = some 0 then 0 else einval)
      (fun abort t' => ∃ notice, Sends (.handleNotification notification) (.error abort) notice ∧ t' = notice ++ t)
      (ipaEsipaHandleNotif notification) t := by
  apply (send_sends (.handleNotification notification) t).bind
  rintro ans _ ⟨notice, sends, rfl⟩
  cases ans with
  | none => exact ⟨none, notice, sends, rfl, rfl⟩
  | some len =>
      refine ⟨some len, notice, sends, rfl, ?_⟩
      simp only [Option.some.injEq]

theorem handleLoadBndPrflePkgRes_handled (ctx : IpaContext) (result : PrfleInstRslt) (segment : IpaBuf) :
    Ends (fun out t' => ∃ ans notice enabling,
        Sends (.handleNotification (.profileInstallationResult result)) (.ok ans) notice ∧ Enabling enabling ∧
          t' = handled result notice enabling segment ++ t ∧
          out.2 = (if ans = some 0 then 1 else einval, result.seqNumber))
      (fun abort t' => ∃ notice enabling,
        Sends (.handleNotification (.profileInstallationResult result)) (.error abort) notice ∧ Enabling enabling ∧
          t' = handled result notice enabling segment ++ t)
      (handleLoadBndPrflePkgRes ctx (some result)) (load segment (.installed result) ++ t) := by
  unfold handleLoadBndPrflePkgRes
  apply Ends.bind ((ipaEs10bEnableUsingDd_enabling ctx).mono (fun _ _ => id) fun _ _ => False.elim)
  rintro out _ ⟨enabling, enables, rfl⟩
  have said (notice : Trace) : notice ++ (enabling ++ ⟨.mark .enableUsingDd, ()⟩ ::
      (load segment (.installed result) ++ t)) = handled result notice enabling segment ++ t := by simp [handled]
  rw [ends_bind]
  refine (ipaEsipaHandleNotif_sends _).mono ?_ ?_
  · rintro rc _ ⟨ans, notice, sends, rfl, rfl⟩
    refine ⟨ans, notice, enabling, sends, enables, said notice, ?_⟩
    by_cases delivered : ans = some 0
    · simp only [if_pos delivered]
      rfl
    · simp only [if_neg delivered]
      rfl
  · rintro abort _ ⟨notice, sends, rfl⟩
    exact ⟨notice, enabling, sends, enables, said notice⟩

theorem withinBuffer_within (segment : IpaBuf) :
    Ends (fun _ t' => t' = within segment ++ t)
      (fun abort t' => abort = .fault .outOfBounds ∧ ¬ segment.Valid ∧ t' = ⟨.overrun segment.bytes, true⟩ :: t)
      (withinBuffer segment) t := by
  unfold withinBuffer within
  split
  · exact rfl
  next longer =>
    rw [ends_bind]
    intro overruns
    cases overruns with
    | true => exact ⟨rfl, longer, rfl⟩
    | false => exact rfl

theorem ipaEs10bLoadBndPrflePkg_load (ctx : IpaContext) (segment : IpaBuf) :
    Ends (fun out t' => ∃ ans, t' = load segment ans ++ t ∧ out.2 = SegmentAnswer.result ans)
      (fun abort t' => abort = .fault .outOfBounds ∧ ¬ segment.Valid ∧ t' = ⟨.overrun segment.bytes, true⟩ :: t)
      (ipaEs10bLoadBndPrflePkg ctx segment) t := by
  apply (withinBuffer_within segment).bind
  rintro _ _ rfl ans
  exact ⟨ans, rfl, rfl⟩

theorem result_stops (ctx : IpaContext) (rest : List IpaBuf) (seqNumber : Int) (ans : Option Nat) :
    (if (if ans = some 0 then 1 else einval) < 0 then return (ctx, none)
      else if (if ans = some 0 then 1 else einval) = 0 ∧ rest = [] then return (ctx, none)
      else if (if ans = some 0 then 1 else einval) = 1 ∧ rest ≠ [] then return (ctx, some seqNumber)
      else loadSegments ctx rest seqNumber : ProcM (IpaContext × Option Int)) =
      pure (ctx, if ans = some 0 then some seqNumber else none) := by
  by_cases delivered : ans = some 0
  · cases rest with
    | nil => simp [delivered, loadSegments]
    | cons next rest => simp [delivered]
  · simp [delivered, einval, Errno.code]

theorem loadSegments_first (ctx : IpaContext) (segment : IpaBuf) (rest : List IpaBuf) (seqNumber : Int)
    (goesOn : rest ≠ [] → ∀ ctx, Ends (fun out t' => ∃ events, Loading rest (.ok out.2) events ∧
          t' = events ++ (load segment .empty ++ t))
      (fun abort t' => ∃ events, Loading rest (.error abort) events ∧ t' = events ++ (load segment .empty ++ t))
      (loadSegments ctx rest 0) (load segment .empty ++ t)) :
    Ends (fun out t' => ∃ events, Loading (segment :: rest) (.ok out.2) events ∧ t' = events ++ t)
      (fun abort t' => ∃ events, Loading (segment :: rest) (.error abort) events ∧ t' = events ++ t)
      (loadSegments ctx (segment :: rest) seqNumber) t := by
  unfold loadSegments
  apply Ends.bind ((ipaEs10bLoadBndPrflePkg_load ctx segment).mono (fun _ _ => id) ?_)
  · rintro ⟨ctx', res⟩ _ ⟨ans, rfl, res⟩
    cases ans with
    | noResponse =>
        cases res
        exact ⟨_, .unanswered [] rest segment .noResponse rfl, by simp [taken]⟩
    | undecodable =>
        cases res
        exact ⟨_, .unanswered [] rest segment .undecodable rfl, by simp [taken]⟩
    | empty =>
        cases res
        cases rest with
        | nil => exact ⟨_, .finished [segment], by simp [taken]⟩
        | cons next later =>
            apply (goesOn (List.cons_ne_nil next later) ctx').mono
            · rintro out _ ⟨events, loading, rfl⟩
              exact ⟨_, loading.cons segment, by simp⟩
            · rintro abort _ ⟨events, loading, rfl⟩
              exact ⟨_, loading.cons segment, by simp⟩
    | installed result =>
        cases res
        apply Ends.bind ((handleLoadBndPrflePkgRes_handled ctx' result segment).mono (fun _ _ => id) ?_)
        · rintro ⟨ctx'', _⟩ _ ⟨ans, notice, enabling, sends, enables, rfl, ⟨⟩⟩
          dsimp only
          rw [result_stops]
          exact ⟨_, .handled [] rest segment result (.ok ans) notice sends enabling enables, by simp [taken]⟩
        · rintro abort _ ⟨notice, enabling, sends, enables, rfl⟩
          exact ⟨_, .handled [] rest segment result (.error abort) notice sends enabling enables, by simp [taken]⟩
  · rintro _ _ ⟨rfl, longer, rfl⟩
    exact ⟨_, .overrun [] rest segment longer, rfl⟩

theorem loadSegments_loading (ctx : IpaContext) (segment : IpaBuf) (rest : List IpaBuf) (seqNumber : Int) :
    Ends (fun out t' => ∃ events, Loading (segment :: rest) (.ok out.2) events ∧ t' = events ++ t)
      (fun abort t' => ∃ events, Loading (segment :: rest) (.error abort) events ∧ t' = events ++ t)
      (loadSegments ctx (segment :: rest) seqNumber) t := by
  induction rest generalizing ctx segment seqNumber t with
  | nil => exact loadSegments_first ctx segment [] seqNumber fun nonempty => absurd rfl nonempty
  | cons next later ih => exact loadSegments_first ctx segment _ seqNumber fun _ ctx => ih ctx next 0

end

/-! ## What a run shows -/

section
variable {α : Type} (of : Event Req Ans → Option α)

theorem inOrder_append (later earlier : Trace) :
    inOrder of (later ++ earlier) = inOrder of earlier ++ inOrder of later := by
  simp only [inOrder, List.reverse_append, List.filterMap_append]

theorem inOrder_cons (event : Event Req Ans) (t : Trace) :
    inOrder of (event :: t) = inOrder of t ++ (of event).toList := by
  rw [← List.singleton_append, inOrder_append]
  cases found : of event <;> simp [inOrder, found]

theorem mem_inOrder {a : α} {t : Trace} : a ∈ inOrder of t ↔ ∃ event ∈ t, of event = some a := by
  simp only [inOrder, List.mem_filterMap, List.mem_reverse]

theorem inOrder_eq_nil {t : Trace} (unseen : ∀ event ∈ t, of event = none) : inOrder of t = [] := by
  simpa [inOrder] using unseen

/-- Nothing is read off the steps in between. -/
structure Unseen : Prop where
  overrun : ∀ segment overruns, of ⟨.overrun segment, overruns⟩ = none
  emulated : ∀ aid ans, of ⟨.enableProfile .autoEnable aid, ans⟩ = none
  native : ∀ ans, of ⟨.enableUsingDd, ans⟩ = none

variable {of}

theorem inOrder_load (overrun : ∀ segment overruns, of ⟨.overrun segment, overruns⟩ = none) (segment : IpaBuf)
    (ans : SegmentAnswer) :
    inOrder of (load segment ans) = (of ⟨.loadBoundProfilePackage segment.bytes, ans⟩).toList := by
  have nothing : inOrder of (within segment) = [] := by
    unfold within
    split
    · rfl
    · exact inOrder_eq_nil of (by simpa using overrun segment.bytes false)
  rw [load, inOrder_cons, nothing, List.nil_append]

theorem inOrder_taken (overrun : ∀ segment overruns, of ⟨.overrun segment, overruns⟩ = none)
    (segments : List IpaBuf) :
    inOrder of (taken segments) =
      segments.filterMap fun segment => of ⟨.loadBoundProfilePackage segment.bytes, .empty⟩ := by
  induction segments with
  | nil => rfl
  | cons segment rest ih =>
      rw [taken, inOrder_append, inOrder_load overrun, ih, List.filterMap_cons]
      cases of ⟨.loadBoundProfilePackage segment.bytes, .empty⟩ <;> rfl

theorem inOrder_enabling (unseen : Unseen of) {enabling : Trace} (enables : Enabling enabling) :
    inOrder of enabling = [] := by
  cases enables with
  | refused => rfl
  | emulated aid ans => exact inOrder_eq_nil of (by simpa using unseen.emulated aid ans)
  | native ans => exact inOrder_eq_nil of (by simpa using unseen.native ans)

theorem inOrder_handled (unseen : Unseen of) (result : PrfleInstRslt) (notice : Trace) {enabling : Trace}
    (enables : Enabling enabling) (segment : IpaBuf) (done : List IpaBuf) :
    inOrder of (handled result notice enabling segment ++ taken done) =
      (done.filterMap fun segment => of ⟨.loadBoundProfilePackage segment.bytes, .empty⟩) ++
        ((of ⟨.loadBoundProfilePackage segment.bytes, .installed result⟩).toList ++
          (of ⟨.mark .enableUsingDd, ()⟩).toList ++ inOrder of notice) := by
  rw [inOrder_append, inOrder_taken unseen.overrun, handled, inOrder_append, inOrder_cons,
    inOrder_load unseen.overrun, inOrder_append, inOrder_enabling unseen enables, List.nil_append]

theorem inOrder_sends {req : Req} {outcome : Except Abort (Ans req)} {events : Trace}
    (sends : Sends req outcome events) (asked : ∀ ans, of ⟨req, ans⟩ = none)
    (encoded : ∀ ans, of ⟨.encode req, ans⟩ = none) : inOrder of events = [] := by
  cases sends with
  | answered ans => simp [inOrder, asked, encoded]
  | refused => simp [inOrder, encoded]
  | aborted => simp [inOrder, encoded]

end

theorem loadOf_unseen : Unseen loadOf := ⟨fun _ _ => rfl, fun _ _ => rfl, fun _ => rfl⟩
theorem resultOf_unseen : Unseen resultOf := ⟨fun _ _ => rfl, fun _ _ => rfl, fun _ => rfl⟩
theorem callOf_unseen : Unseen callOf := ⟨fun _ _ => rfl, fun _ _ => rfl, fun _ => rfl⟩
theorem noticeOf_unseen : Unseen noticeOf := ⟨fun _ _ => rfl, fun _ _ => rfl, fun _ => rfl⟩
theorem removalOf_unseen : Unseen removalOf := ⟨fun _ _ => rfl, fun _ _ => rfl, fun _ => rfl⟩

theorem inOrder_callOf_sends {notification : PendingNotification} {outcome : Except Abort (Option Nat)} {events : Trace}
    (sends : Sends (.handleNotification notification) outcome events) :
    inOrder callOf events = [.handleNotification notification] := by
  rcases sends_cases sends with ⟨ans, rfl, rfl⟩ | ⟨rfl, rfl⟩ | ⟨rfl, rfl⟩
  · rfl
  · rfl
  · rfl

theorem inOrder_noticeOf_sends {notification : PendingNotification} {outcome : Except Abort (Option Nat)}
    {events : Trace} (sends : Sends (.handleNotification notification) outcome events) :
    inOrder noticeOf events <+: [notification] := by
  rcases sends_cases sends with ⟨ans, rfl, rfl⟩ | ⟨rfl, rfl⟩ | ⟨rfl, rfl⟩
  · exact List.prefix_rfl
  · exact List.nil_prefix
  · exact List.nil_prefix

theorem mem_within {event : Event Req Ans} {segment : IpaBuf} (member : event ∈ within segment) : Passes event := by
  unfold within at member
  split at member
  · cases member
  · rw [List.mem_singleton] at member
    exact member ▸ .within segment.bytes

theorem mem_taken {event : Event Req Ans} {segments : List IpaBuf} (member : event ∈ taken segments) :
    Passes event := by
  induction segments with
  | nil => cases member
  | cons segment rest ih =>
      rcases List.mem_append.mp member with later | first
      · exact ih later
      · rcases List.mem_cons.mp first with rfl | before
        · exact .load segment.bytes
        · exact mem_within before

def LoadsFirst : Event Req Ans → Trace → Prop
  | ⟨.loadBoundProfilePackage _, _⟩, earlier => ∀ event ∈ earlier, Passes event
  | _, _ => True

theorem loadsFirst_of_passes {t : Trace} (passes : ∀ event ∈ t, Passes event) : Every LoadsFirst t := by
  induction t with
  | nil => trivial
  | cons event t ih =>
      rw [List.forall_mem_cons] at passes
      refine ⟨?_, ih passes.2⟩
      cases passes.1 with
      | load segment => exact passes.2
      | within segment => trivial

theorem load_loadsFirst (segment : IpaBuf) (ans : SegmentAnswer) (done : List IpaBuf) :
    Every LoadsFirst (load segment ans ++ taken done) := by
  have before : ∀ event ∈ within segment ++ taken done, Passes event :=
    List.forall_mem_append.mpr ⟨fun _ member => mem_within member, fun _ member => mem_taken member⟩
  exact ⟨before, loadsFirst_of_passes before⟩

theorem handled_loadsFirst {result : PrfleInstRslt} {outcome : Except Abort (Option Nat)} {notice : Trace}
    (sends : Sends (Req.handleNotification (.profileInstallationResult result)) outcome notice) {enabling : Trace}
    (enables : Enabling enabling) (segment : IpaBuf) (done : List IpaBuf) :
    Every LoadsFirst (handled result notice enabling segment ++ taken done) := by
  have loads := load_loadsFirst segment (.installed result) done
  have enabled : Every LoadsFirst
      (enabling ++ ⟨.mark .enableUsingDd, ()⟩ :: load segment (.installed result) ++ taken done) := by
    cases enables with
    | refused => exact ⟨trivial, loads⟩
    | emulated aid ans => exact ⟨trivial, trivial, loads⟩
    | native ans => exact ⟨trivial, trivial, loads⟩
  rw [handled, List.append_assoc, List.append_assoc]
  rw [List.append_assoc] at enabled
  rcases sends_cases sends with ⟨ans, rfl, rfl⟩ | ⟨rfl, rfl⟩ | ⟨rfl, rfl⟩
  · exact ⟨trivial, trivial, enabled⟩
  · exact ⟨trivial, enabled⟩
  · exact ⟨trivial, enabled⟩

structure Loaded (segments : List IpaBuf) (out : Except Abort (Option Int)) (t : Trace) : Prop where
  loads : inOrder loadOf t <+: segments.map IpaBuf.bytes
  stops : Every LoadsFirst t
  calls : inOrder callOf t = (inOrder resultOf t).flatMap fun result =>
    [.result result, .enableUsingDd, .handleNotification (.profileInstallationResult result)]
  notices : inOrder noticeOf t <+: (inOrder resultOf t).map .profileInstallationResult
  removals : inOrder removalOf t = []
  delivered : ∀ seqNumber, out = .ok (some seqNumber) ↔
    ∃ result ∈ inOrder resultOf t, ResultDelivered result t ∧ result.seqNumber = seqNumber
  interrupted : ∀ abort, out = .error abort → Interrupted segments t

theorem Sends.delivered {result other : PrfleInstRslt} {outcome : Except Abort (Option Nat)} {notice : Trace}
    (sends : Sends (Req.handleNotification (.profileInstallationResult result)) outcome notice) :
    ResultDelivered other notice ↔ outcome = .ok (some 0) ∧ other = result := by
  rcases sends_cases sends with ⟨ans, rfl, rfl⟩ | ⟨rfl, rfl⟩ | ⟨rfl, rfl⟩
  · simp [ResultDelivered, and_comm, eq_comm]
  · simp [ResultDelivered, Req.silence]
  · simp [ResultDelivered]

theorem handled_delivered {result other : PrfleInstRslt} {outcome : Except Abort (Option Nat)}
    {notice enabling : Trace}
    (sends : Sends (Req.handleNotification (.profileInstallationResult result)) outcome notice)
    (enables : Enabling enabling) (segment : IpaBuf) (done : List IpaBuf) :
    ResultDelivered other (handled result notice enabling segment ++ taken done) ↔
      outcome = .ok (some 0) ∧ other = result := by
  rw [← sends.delivered]
  have unenabling : ¬ ResultDelivered other enabling := by
    cases enables <;> simp [ResultDelivered]
  have untransferred : ¬ ResultDelivered other (load segment (.installed result) ++ taken done) := by
    intro delivered
    rcases List.mem_append.mp delivered with member | member
    · rcases List.mem_cons.mp member with same | before
      · cases same
      · cases mem_within before
    · cases mem_taken member
  constructor
  · intro delivered
    simp only [ResultDelivered, handled, List.append_assoc, List.mem_append, List.cons_append,
      List.mem_cons] at delivered untransferred unenabling
    rcases delivered with said | enabled | same | loaded
    · exact said
    · exact absurd enabled unenabling
    · cases same
    · exact absurd loaded untransferred
  · exact fun delivered => List.mem_append_left _ (List.mem_append_left _ (List.mem_append_left _ delivered))

theorem loads_front (done rest : List IpaBuf) (segment : IpaBuf) :
    done.map IpaBuf.bytes ++ [segment.bytes] <+: (done ++ segment :: rest).map IpaBuf.bytes := by
  rw [List.map_append, List.map_cons]
  exact ⟨rest.map IpaBuf.bytes, by rw [List.append_assoc, List.singleton_append]⟩

theorem inOrder_loadOf_taken (segments : List IpaBuf) : inOrder loadOf (taken segments) = segments.map IpaBuf.bytes := by
  rw [inOrder_taken loadOf_unseen.overrun]
  simp [loadOf]

theorem taken_unseen {α : Type} {of : Event Req Ans → Option α}
    (overrun : ∀ segment overruns, of ⟨.overrun segment, overruns⟩ = none)
    (empty : ∀ segment, of ⟨.loadBoundProfilePackage segment, .empty⟩ = none) (segments : List IpaBuf) :
    inOrder of (taken segments) = [] := by
  rw [inOrder_taken overrun]
  simp [empty]

/-- Without a result there is nothing to tell. -/
theorem Loaded.resultless {segments : List IpaBuf} {out : Except Abort (Option Int)} {t : Trace}
    (loads : inOrder loadOf t <+: segments.map IpaBuf.bytes) (stops : Every LoadsFirst t)
    (calls : inOrder callOf t = []) (results : inOrder resultOf t = []) (notices : inOrder noticeOf t = [])
    (removals : inOrder removalOf t = []) (undelivered : ∀ seqNumber, out ≠ .ok (some seqNumber))
    (interrupted : ∀ abort, out = .error abort → Interrupted segments t) : Loaded segments out t where
  loads := loads
  stops := stops
  calls := by rw [calls, results, List.flatMap_nil]
  notices := notices ▸ List.nil_prefix
  removals := removals
  delivered := by
    rw [results]
    simpa using undelivered
  interrupted := interrupted

theorem Loading.loaded {segments : List IpaBuf} {out : Except Abort (Option Int)} {t : Trace}
    (loading : Loading segments out t) : Loaded segments out t := by
  cases loading with
  | finished =>
      apply Loaded.resultless
      · exact inOrder_loadOf_taken segments ▸ List.prefix_rfl
      · exact loadsFirst_of_passes fun _ => mem_taken
      · exact taken_unseen callOf_unseen.overrun (fun _ => rfl) segments
      · exact taken_unseen resultOf_unseen.overrun (fun _ => rfl) segments
      · exact taken_unseen noticeOf_unseen.overrun (fun _ => rfl) segments
      · exact taken_unseen removalOf_unseen.overrun (fun _ => rfl) segments
      · simp
      · simp
  | overrun done rest segment longer =>
      apply Loaded.resultless
      · rw [inOrder_cons, loadOf_unseen.overrun, inOrder_loadOf_taken]
        rw [Option.toList_none, List.append_nil]
        exact (List.prefix_append _ [segment.bytes]).trans (loads_front done rest segment)
      · exact ⟨trivial, loadsFirst_of_passes fun _ => mem_taken⟩
      · rw [inOrder_cons, taken_unseen callOf_unseen.overrun (fun _ => rfl)]
        rfl
      · rw [inOrder_cons, taken_unseen resultOf_unseen.overrun (fun _ => rfl)]
        rfl
      · rw [inOrder_cons, taken_unseen noticeOf_unseen.overrun (fun _ => rfl)]
        rfl
      · rw [inOrder_cons, taken_unseen removalOf_unseen.overrun (fun _ => rfl)]
        rfl
      · simp
      · exact fun _ _ => .overrun segment (by simp) longer _
  | unanswered done rest segment ans unusable =>
      have nothing {α : Type} {of : Event Req Ans → Option α} (unseen : Unseen of)
          (empty : ∀ segment, of ⟨.loadBoundProfilePackage segment, .empty⟩ = none)
          (unread : of ⟨.loadBoundProfilePackage segment.bytes, ans⟩ = none) :
          inOrder of (load segment ans ++ taken done) = [] := by
        rw [inOrder_append, taken_unseen unseen.overrun empty, inOrder_load unseen.overrun, unread]
        rfl
      apply Loaded.resultless
      · rw [inOrder_append, inOrder_load loadOf_unseen.overrun, inOrder_loadOf_taken]
        exact loads_front done rest segment
      · exact load_loadsFirst segment ans done
      · cases ans with
        | empty => cases unusable
        | installed => cases unusable
        | noResponse => exact nothing callOf_unseen (fun _ => rfl) rfl
        | undecodable => exact nothing callOf_unseen (fun _ => rfl) rfl
      · cases ans with
        | empty => cases unusable
        | installed => cases unusable
        | noResponse => exact nothing resultOf_unseen (fun _ => rfl) rfl
        | undecodable => exact nothing resultOf_unseen (fun _ => rfl) rfl
      · exact nothing noticeOf_unseen (fun _ => rfl) rfl
      · exact nothing removalOf_unseen (fun _ => rfl) rfl
      · simp
      · simp
  | handled done rest segment result outcome notice sends enabling enables =>
      have results : inOrder resultOf (Proc.handled result notice enabling segment ++ taken done) = [result] := by
        rw [inOrder_handled resultOf_unseen result notice enables segment done]
        rw [inOrder_sends sends (fun _ => rfl) fun _ => rfl]
        simp [resultOf]
      constructor
      · rw [inOrder_handled loadOf_unseen result notice enables segment done]
        rw [inOrder_sends sends (fun _ => rfl) fun _ => rfl]
        simp [loadOf]
      · exact handled_loadsFirst sends enables segment done
      · rw [results, inOrder_handled callOf_unseen result notice enables segment done]
        rw [inOrder_callOf_sends sends]
        simp [callOf]
      · rw [results, inOrder_handled noticeOf_unseen result notice enables segment done]
        simpa [noticeOf] using inOrder_noticeOf_sends sends
      · rw [inOrder_handled removalOf_unseen result notice enables segment done]
        rw [inOrder_sends sends (fun _ => rfl) fun _ => rfl]
        simp [removalOf]
      · intro seqNumber
        simp only [results, List.mem_singleton, exists_eq_left, handled_delivered sends enables, and_true]
        cases outcome with
        | error abort => simp [Except.map]
        | ok ans => by_cases delivered : ans = some 0 <;> simp [Except.map, delivered]
      · intro abort stopped
        rcases sends_cases sends with ⟨ans, rfl, rfl⟩ | ⟨rfl, rfl⟩ | ⟨rfl, rfl⟩
        · cases stopped
        · cases stopped
        · exact .aborted (.profileInstallationResult result) _

theorem Loaded.unremoved {segments : List IpaBuf} {out : Except Abort (Option Int)} {rc : Option Int} {t : Trace}
    (loaded : Loaded segments out t) (unnumbered : ∀ seqNumber, out = .ok (some seqNumber) → seqNumber < 0)
    (fails : rc ≠ some 0) : Installs segments rc t where
  loads := loaded.loads
  stops := by
    rintro later segment ans earlier rfl
    exact loaded.stops.before
  calls := loaded.calls
  notices := loaded.notices
  removes := by
    intro seqNumber
    rw [loaded.removals]
    refine iff_of_false List.not_mem_nil ?_
    rintro ⟨result, received, delivered, positive, -⟩
    exact Int.not_le.mpr (unnumbered _ ((loaded.delivered _).mpr ⟨result, received, delivered, rfl⟩)) positive
  removesOnce := by
    rw [loaded.removals]
    exact Nat.zero_le 1
  returns := by
    refine iff_of_false fails ?_
    rintro ⟨result, -, -, status, removed, -⟩
    have member := (mem_inOrder removalOf).mpr ⟨_, removed, rfl⟩
    rw [loaded.removals] at member
    exact List.not_mem_nil member

theorem deleteNotificationStatusRc_removed (ans : Option Int) :
    (some (if deleteNotificationStatusRc ans < 0 then einval else 0) : Option Int) = some 0 ↔
      ∃ status, ans = some status ∧ (status = 0 ∨ status = 1) := by
  rw [Option.some.injEq]
  cases ans with
  | none =>
      refine iff_of_false (by decide) ?_
      rintro ⟨status, ⟨⟩, -⟩
  | some status =>
      unfold deleteNotificationStatusRc
      by_cases ok : status = 0 ∨ status = 1
      · simp [ok]
      · simp [ok, einval, Errno.code]

theorem Loaded.removed {segments : List IpaBuf} {seqNumber : Int} {t : Trace}
    (loaded : Loaded segments (.ok (some seqNumber)) t) (positive : 0 ≤ seqNumber) (ans : Option Int) :
    Installs segments (some (if deleteNotificationStatusRc ans < 0 then einval else 0))
      (⟨.removeNotificationFromList seqNumber, ans⟩ :: t) := by
  obtain ⟨result, received, delivered, numbered⟩ := (loaded.delivered seqNumber).mp rfl
  have unique {other : PrfleInstRslt} (received : other ∈ inOrder resultOf t)
      (delivered : ResultDelivered other (⟨.removeNotificationFromList seqNumber, ans⟩ :: t)) :
      other.seqNumber = seqNumber := by
    have found := (loaded.delivered _).mpr ⟨other, received, (List.mem_cons.mp delivered).resolve_left (by simp), rfl⟩
    exact (Option.some.inj (Except.ok.inj found)).symm
  have results : inOrder resultOf (⟨.removeNotificationFromList seqNumber, ans⟩ :: t) = inOrder resultOf t := by
    rw [inOrder_cons]
    exact List.append_nil _
  have removals : inOrder removalOf (⟨.removeNotificationFromList seqNumber, ans⟩ :: t) = [seqNumber] := by
    rw [inOrder_cons, loaded.removals]
    rfl
  constructor
  · rw [inOrder_cons]
    exact (List.append_nil _).symm ▸ loaded.loads
  · rintro later segment ans' earlier said
    have stops : Every LoadsFirst (⟨.removeNotificationFromList seqNumber, ans⟩ :: t) := ⟨trivial, loaded.stops⟩
    rw [said] at stops
    exact stops.before
  · rw [results, ← loaded.calls, inOrder_cons]
    exact List.append_nil _
  · rw [results, inOrder_cons]
    exact (List.append_nil _).symm ▸ loaded.notices
  · intro other
    rw [removals, results, List.mem_singleton]
    constructor
    · rintro rfl
      exact ⟨result, received, List.mem_cons_of_mem _ delivered, numbered ▸ positive, numbered⟩
    · rintro ⟨result, received, delivered, -, rfl⟩
      exact unique received delivered
  · rw [removals]
    exact Nat.le_refl 1
  · rw [results, deleteNotificationStatusRc_removed]
    constructor
    · rintro ⟨status, rfl, ok⟩
      exact ⟨result, received, List.mem_cons_of_mem _ delivered, status, numbered ▸ List.mem_cons_self .., ok⟩
    · rintro ⟨other, received, delivered, status, member, ok⟩
      rcases List.mem_cons.mp member with same | earlier
      · cases same
        exact ⟨status, rfl, ok⟩
      · have removal := (mem_inOrder removalOf).mpr ⟨_, earlier, rfl⟩
        rw [loaded.removals] at removal
        exact absurd removal List.not_mem_nil

theorem ipaProcPrfleInst_ends {asn1c : Asn1c} {ctx : IpaContext} {bpp : BoundProfilePackage}
    {segments : Option (List IpaBuf)} (encoded : ipaBppSegmentsEncode asn1c bpp = .ok segments) :
    Ends (fun out t' => Installs (segments.getD []) (some out.2) t')
      (fun _ t' => Installs (segments.getD []) none t' ∧ Interrupted (segments.getD []) t')
      (ipaProcPrfleInst asn1c ctx bpp) [] := by
  have fails : some einval ≠ some 0 := by decide
  have nothing : Loaded [] (.ok none) [] := Loading.loaded (.finished [])
  have quiet : Installs [] (some einval) [] := nothing.unremoved (by simp) fails
  simp only [ipaProcPrfleInst, encoded]
  cases segments with
  | none => exact quiet
  | some segments =>
      cases segments with
      | nil => exact quiet
      | cons segment rest =>
          apply Ends.bind ((loadSegments_loading ctx segment rest (-1)).mono (fun _ _ => id) ?_)
          · rintro ⟨ctx', seqNumber⟩ _ ⟨events, loading, rfl⟩
            rw [List.append_nil]
            have loaded := loading.loaded
            cases seqNumber with
            | none => exact loaded.unremoved (by simp) fails
            | some seqNumber =>
                simp only
                split
                next positive =>
                  simp only [ipaEs10bRmNotifFromLst, ends_bind, ends_request, ends_pure]
                  exact fun ans => loaded.removed positive ans
                next negative =>
                  refine loaded.unremoved (fun other found => ?_) fails
                  cases found
                  exact Int.not_le.mp negative
          · rintro abort _ ⟨events, loading, rfl⟩
            rw [List.append_nil]
            exact ⟨loading.loaded.unremoved (by simp) (by simp), loading.loaded.interrupted abort rfl⟩

def earlyResult : PrfleInstRslt where
  seqNumber := 4
  smdpOid := []
  notificationAddress := []
  aid := none

def endingEarly : (req : Req) → Option (Ans req)
  | .loadBoundProfilePackage _ => some (.installed earlyResult)
  | .handleNotification _ => some (some 0)
  | .removeNotificationFromList _ => some (some 0)
  | _ => none

def plainConfig : IpaConfig where
  tac := []
  prfleInstConsentCb := false

def freshContext (iotEuiccEmuEnabled : Bool) : IpaContext := .fresh iotEuiccEmuEnabled [] .fresh plainConfig

theorem endingEarly_runs : ∃ ctx' t', inOrder removalOf t' = [4] ∧
    Runs (ipaProcPrfleInst oneChunk (freshContext false) smallBpp.1) [] (.ok (ctx', 0)) t' := by
  have runs := runs_run (replies endingEarly) (ipaProcPrfleInst oneChunk (freshContext false) smallBpp.1) []
  have removed : inOrder removalOf
      (run (replies endingEarly) (ipaProcPrfleInst oneChunk (freshContext false) smallBpp.1) []).2 = [4] := by
    decide +kernel
  have returned : (run (replies endingEarly)
      (ipaProcPrfleInst oneChunk (freshContext false) smallBpp.1) []).1.toOption.map Prod.snd = some 0 := by
    decide +kernel
  generalize run (replies endingEarly) (ipaProcPrfleInst oneChunk (freshContext false) smallBpp.1) [] = said
    at runs removed returned
  obtain ⟨out, t'⟩ := said
  cases out with
  | error abort => cases returned
  | ok out =>
      obtain ⟨ctx', rc⟩ := out
      cases returned
      exact ⟨ctx', t', removed, runs⟩

end Ipad.Proc
