import Mathlib.Logic.Function.Basic
import Ipad.Lib.Device
import Ipad.Euicc.Channel

/-!
# A card behind the channel

An eUICC as SGP.22 and ISO/IEC 7816-4 have it: logical channels, STORE DATA that collects a request, GET
RESPONSE that hands out the response in blocks. What the ISD-R makes of a request is a parameter.
-/

namespace Ipad.Euicc
open Lib.Blocks

inductive ChannelState where
  | closed
  | opened
  | selected
  deriving DecidableEq, Repr

structure CardState (σ : Type) where
  channels : UInt8 → ChannelState
  isdR : σ
  received : List UInt8
  remaining : List UInt8

namespace CardState

variable {σ : Type} (execute : σ → List UInt8 → σ × List UInt8) (blockLen : Nat) (s : CardState σ)

def fileControlParameters : List UInt8 := [0x6F, 0x00]

/-- A length of 256 is announced as zero. -/
def status (remaining : List UInt8) : List UInt8 :=
  if remaining = [] then [0x90, 0x00]
  else [0x61, UInt8.ofNat (min remaining.length blockLen)]

def manageChannel (p1 channel : UInt8) : CardState σ × List UInt8 :=
  if p1 = 0x80 then
    if s.channels channel = .closed then (s, [0x68, 0x81])
    else ({ s with channels := Function.update s.channels channel .closed }, [0x90, 0x00])
  else
    if s.channels channel = .closed then
      ({ s with channels := Function.update s.channels channel .opened }, [0x90, 0x00])
    else (s, [0x6A, 0x81])

def select (channel : UInt8) (aid : List UInt8) : CardState σ × List UInt8 :=
  if s.channels channel = .closed then (s, [0x68, 0x81])
  else if aid = aidIsdR then
    ({ s with
        channels := Function.update s.channels channel .selected
        remaining := fileControlParameters },
      status blockLen fileControlParameters)
  else (s, [0x6A, 0x82])

/-- The first block of a request has the number zero, the last one has the top bit of P1 set. -/
def storeData (p1 p2 : UInt8) (data : List UInt8) : CardState σ × List UInt8 :=
  let received := (if p2 = 0 then [] else s.received) ++ data
  if p1 &&& 0x80 = 0 then ({ s with received, remaining := [] }, [0x90, 0x00])
  else
    let (isdR, response) := execute s.isdR received
    ({ s with isdR, received := [], remaining := response }, status blockLen response)

def getResponse (p3 : UInt8) : CardState σ × List UInt8 :=
  let wanted := if p3 = 0 then 256 else p3.toNat
  if wanted ≤ s.remaining.length then
    ({ s with remaining := s.remaining.drop wanted },
      s.remaining.take wanted ++ status blockLen (s.remaining.drop wanted))
  else (s, [0x67, 0x00])

def step : List UInt8 → CardState σ × List UInt8
  | cla :: ins :: p1 :: p2 :: p3 :: data =>
      let channel := cla &&& 0x03
      if ins = 0xAA then (s, [0x90, 0x00])
      else if ins = 0x70 then s.manageChannel p1 p2
      else if ins = 0xA4 then s.select blockLen channel data
      else if s.channels channel ≠ .selected then (s, [0x69, 0x85])
      else if ins = 0xE2 then s.storeData execute blockLen p1 p2 data
      else if ins = 0xC0 then s.getResponse blockLen p3
      else (s, [0x6D, 0x00])
  | _ => (s, [0x67, 0x00])

def card : Card := Lib.Device.answer (step execute blockLen) s

end CardState

/-- An eUICC at the level of ES10. A request that does not go into 255 blocks is not made. -/
def serve {σ : Type} (execute : σ → List UInt8 → σ × List UInt8) (isdR : σ) (request : List UInt8) :
    σ × Option (List UInt8) :=
  if request.length ≤ 255 * maxBlocksizeTx then
    let (isdR, response) := execute isdR request
    (isdR, some response)
  else (isdR, none)

def serveAll {σ : Type} (execute : σ → List UInt8 → σ × List UInt8) :
    σ → List (List UInt8) → σ × List (Option (List UInt8))
  | isdR, [] => (isdR, [])
  | isdR, request :: rest =>
      let (isdR, response) := serve execute isdR request
      let (isdR, responses) := serveAll execute isdR rest
      (isdR, response :: responses)

/-! ## One exchange with the card -/

theorem parseResApdu_status (data : List UInt8) (first second : UInt8) :
    parseResApdu (.ofBytes (data ++ [first, second])) =
      .ok ⟨data.length, data, first.toUInt16 <<< 8 ||| second.toUInt16⟩ := by
  simp [parseResApdu, IpaBuf.ofBytes]

theorem announced_more (second : UInt8) :
    swMore ((0x61 : UInt8).toUInt16 <<< 8 ||| second.toUInt16) = true ∧
      announced ((0x61 : UInt8).toUInt16 <<< 8 ||| second.toUInt16) =
        if second = 0 then 256 else second.toNat := by
  have each : ∀ n : Fin 256, swMore ((0x61 : UInt8).toUInt16 <<< 8 ||| (UInt8.ofFin n).toUInt16) = true ∧
      announced ((0x61 : UInt8).toUInt16 <<< 8 ||| (UInt8.ofFin n).toUInt16) =
        if UInt8.ofFin n = 0 then 256 else (UInt8.ofFin n).toNat := by decide +kernel
  exact each second.toFin

theorem ofNat_announced {n : Nat} (positive : 0 < n) (small : n ≤ 256) :
    (if UInt8.ofNat n = 0 then 256 else (UInt8.ofNat n).toNat) = n := by
  rcases Nat.lt_or_eq_of_le small with below | rfl
  · have back : (UInt8.ofNat n).toNat = n := UInt8.toNat_ofNat_of_lt' below
    have nonzero : UInt8.ofNat n ≠ 0 := by
      intro zero
      rw [zero] at back
      exact absurd back.symm (Nat.ne_of_gt positive)
    rw [if_neg nonzero, back]
  · decide

theorem class_channel {channel : UInt8} (supported : ¬ channel > 3) :
    (0x80 ||| channel) &&& 0x03 = channel ∧ channel &&& 0x03 = channel := by
  have each : ∀ n : Fin 256, ¬ UInt8.ofFin n > 3 → (0x80 ||| UInt8.ofFin n) &&& 0x03 = UInt8.ofFin n ∧
      UInt8.ofFin n &&& 0x03 = UInt8.ofFin n := by decide +kernel
  exact each channel.toFin supported

namespace CardState

variable {σ : Type} {execute : σ → List UInt8 → σ × List UInt8} {blockLen : Nat} {start : CardState σ}

/-- The card after all that was sent to it. -/
def reached (execute : σ → List UInt8 → σ × List UInt8) (blockLen : Nat) (start : CardState σ)
    (ctx : EuiccCtx) : CardState σ :=
  Lib.Device.after (step execute blockLen) start ctx.history

theorem history_exchange (card : Card) (ctx : EuiccCtx) (room : Nat) (req : ReqApdu) :
    (ctx.exchange card room req).history = ctx.history ++ [(formatReqApdu req).bytes] := by
  simp [EuiccCtx.history, EuiccCtx.exchange]

theorem reached_exchange (ctx : EuiccCtx) (room : Nat) (req : ReqApdu) :
    reached execute blockLen start (ctx.exchange (card execute blockLen start) room req) =
      (step execute blockLen (reached execute blockLen start ctx) (formatReqApdu req).bytes).1 := by
  rw [reached, history_exchange]
  exact Lib.Device.after_concat ..

/-- The answer of a card that went on to `next`. -/
theorem answer_card {ctx : EuiccCtx} (room : Nat) {req : ReqApdu} {next : CardState σ} (data : List UInt8)
    {first second : UInt8}
    (stepped : step execute blockLen (reached execute blockLen start ctx) (formatReqApdu req).bytes =
      (next, data ++ [first, second]))
    (fits : data.length + 2 ≤ room) :
    readAnswer (ctx.answer (card execute blockLen start) room req) =
        some ⟨data.length, data, first.toUInt16 <<< 8 ||| second.toUInt16⟩ ∧
      reached execute blockLen start (ctx.exchange (card execute blockLen start) room req) = next := by
  constructor
  · rw [EuiccCtx.answer, card, Lib.Device.answer_concat]
    rw [reached] at stepped
    simp [stepped, Option.filter, fits, readAnswer, parseResApdu_status, Except.toOption]
  · rw [reached_exchange, stepped]

theorem formatReqApdu_bytes (req : ReqApdu) :
    (formatReqApdu req).bytes = req.cla :: req.ins :: req.p1 :: req.p2 :: req.p3 :: req.data := by
  simp [formatReqApdu]

/-- The status word that goes with what is left of a response. -/
theorem status_cases (room : 0 < blockLen) (small : blockLen ≤ 256) (remaining : List UInt8) :
    ∃ first second, status blockLen remaining = [first, second] ∧
      (remaining = [] → swOk (first.toUInt16 <<< 8 ||| second.toUInt16) = true) ∧
      (remaining ≠ [] → swMore (first.toUInt16 <<< 8 ||| second.toUInt16) = true ∧
        announced (first.toUInt16 <<< 8 ||| second.toUInt16) = min remaining.length blockLen) := by
  by_cases empty : remaining = []
  · exact ⟨0x90, 0x00, by simp [status, empty], fun _ => by decide, fun nonempty => absurd empty nonempty⟩
  · have positive : 0 < min remaining.length blockLen :=
      Nat.lt_min.mpr ⟨List.length_pos_iff.mpr empty, room⟩
    obtain ⟨more, length⟩ := announced_more (UInt8.ofNat (min remaining.length blockLen))
    rw [ofNat_announced positive (Nat.le_trans (Nat.min_le_right ..) small)] at length
    exact ⟨0x61, _, by simp [status, empty], fun none => absurd none empty, fun _ => ⟨more, length⟩⟩

/-! ## The response phase -/

section
variable (room : 0 < blockLen) (small : blockLen ≤ 256)
include room small

theorem getResponse_step (execute : σ → List UInt8 → σ × List UInt8) {s : CardState σ} {channel : UInt8}
    {n : Nat} (supported : ¬ channel > 3)
    (selected : s.channels channel = .selected) (pending : s.remaining ≠ [])
    (announces : n = min s.remaining.length blockLen) :
    step execute blockLen s (formatReqApdu (getResponseApdu channel n)).bytes =
      ({ s with remaining := s.remaining.drop n },
        s.remaining.take n ++ status blockLen (s.remaining.drop n)) := by
  have positive : 0 < n := by
    rw [announces]
    exact Nat.lt_min.mpr ⟨List.length_pos_iff.mpr pending, room⟩
  have bound : n ≤ 256 := by omega
  have enough : n ≤ s.remaining.length := by omega
  have p3 : (getResponseApdu channel n).p3 = UInt8.ofNat n := by
    by_cases below : n < 256
    · simp [ReqApdu.p3, ReqApdu.lc, getResponseApdu, positive, below]
    · obtain rfl : n = 256 := Nat.le_antisymm bound (Nat.le_of_not_lt below)
      rfl
  have wanted := ofNat_announced positive bound
  rw [← p3] at wanted
  simp only [formatReqApdu_bytes, step, getResponse, wanted, if_pos enough]
  simp [getResponseApdu, (class_channel supported).2, selected]

theorem recvBlocks_card (fuel : Nat) {ctx : EuiccCtx} {s : CardState σ} (sw : UInt16) (es10xRes : IpaBuf)
    (supported : ¬ ctx.euiccChannel > 3) (valid : es10xRes.Valid)
    (now : reached execute blockLen start ctx = s) (selected : s.channels ctx.euiccChannel = .selected)
    (pending : s.remaining ≠ []) (announces : announced sw = min s.remaining.length blockLen)
    (enough : s.remaining.length ≤ fuel) :
    ∃ after whole, recvBlocks (card execute blockLen start) fuel ctx sw es10xRes =
        (after, whole, .returned (.ok ())) ∧
      whole.bytes = es10xRes.bytes ++ s.remaining ∧
      reached execute blockLen start after = { s with remaining := [] } ∧
      after.checkScard = ctx.checkScard := by
  induction fuel generalizing ctx s sw es10xRes with
  | zero => exact absurd (List.length_eq_zero_iff.mp (Nat.le_zero.mp enough)) pending
  | succ fuel ih =>
      have stepped := getResponse_step room small execute supported selected pending announces
      obtain ⟨first, second, answered, done, more⟩ :=
        status_cases room small (s.remaining.drop (announced sw))
      have width : (s.remaining.take (announced sw)).length = announced sw := by
        rw [List.length_take, announces]
        omega
      rw [answered, ← now] at stepped
      obtain ⟨read, next⟩ := answer_card (maxBlocksizeRx + 2) _ stepped (by
        rw [now, width]
        exact Nat.add_le_add_right (announced_le sw) 2)
      rw [now] at read next
      have fits : Fits sw (nextAnswer (card execute blockLen start) ctx sw)
          ⟨(s.remaining.take (announced sw)).length, s.remaining.take (announced sw),
            first.toUInt16 <<< 8 ||| second.toUInt16⟩ := ⟨read, width⟩
      obtain ⟨appended, received, bytes, sound⟩ :=
        recvEs10xBlock_fits _ ctx sw es10xRes supported valid _ fits
      unfold recvBlocks
      simp only [received]
      by_cases last : s.remaining.drop (announced sw) = []
      · simp only [done last, if_true]
        refine ⟨_, appended, rfl, ?_, ?_, rfl⟩
        · rw [bytes]
          have all : s.remaining.take (announced sw) = s.remaining := by
            have cut := List.take_append_drop (announced sw) s.remaining
            rwa [last, List.append_nil] at cut
          rw [all]
        · rw [last] at next
          exact next
      · obtain ⟨continues, length⟩ := more last
        have notOk : swOk (first.toUInt16 <<< 8 ||| second.toUInt16) ≠ true := by
          intro ok
          rw [not_swMore_of_swOk _ ok] at continues
          cases continues
        simp only [notOk, continues, Bool.false_eq_true, Bool.not_true, if_false]
        have shorter : (s.remaining.drop (announced sw)).length ≤ fuel := by
          have positive : 0 < announced sw := by
            rw [announces]
            exact Nat.lt_min.mpr ⟨List.length_pos_iff.mpr pending, room⟩
          rw [List.length_drop]
          omega
        obtain ⟨after, whole, run, content, final, canary⟩ :=
          ih _ appended (show ¬ (nextCtx _ ctx sw).euiccChannel > 3 from supported) sound next selected last
            length shorter
        refine ⟨after, whole, run, ?_, final, canary⟩
        rw [content, bytes, List.append_assoc, List.take_append_drop]

end

/-! ## The request phase -/

section
variable {ctx : EuiccCtx} {s : CardState σ} (es10xReq : ValidBuf)

theorem afterBlocks_checkScard (card : Card) (ctx : EuiccCtx) (es10xReq : ValidBuf) (k : Nat) :
    (afterBlocks card ctx es10xReq k).checkScard = ctx.checkScard := by
  induction k with
  | zero => rfl
  | succ k ih => exact ih

/-- Of a card that collects a request the first `k` blocks. -/
def Collects (k : Nat) (s t : CardState σ) : Prop :=
  t.channels = s.channels ∧ t.isdR = s.isdR ∧
    (0 < k → t.received = es10xReq.bytes.take (maxBlocksizeTx * k) ∧ t.remaining = [])

theorem collected_block {k : Nat} {t : CardState σ} (collects : Collects es10xReq k s t) :
    (if k = 0 then [] else t.received) ++ block maxBlocksizeTx es10xReq.bytes k =
      es10xReq.bytes.take (maxBlocksizeTx * (k + 1)) := by
  rw [Nat.mul_add, Nat.mul_one, List.take_add]
  cases k with
  | zero => simp [block]
  | succ k => rw [if_neg (Nat.succ_ne_zero k), (collects.2.2 (Nat.succ_pos k)).1, block]

theorem blockApdu_step {k : Nat} {t : CardState σ} {channel : UInt8} (supported : ¬ channel > 3)
    (selected : t.channels channel = .selected) :
    step execute blockLen t (formatReqApdu (blockApdu es10xReq channel k)).bytes =
      t.storeData execute blockLen (if es10xReq.len - maxBlocksizeTx * k > maxBlocksizeTx then 0x11 else 0x91)
        (UInt8.ofNat k) (block maxBlocksizeTx es10xReq.bytes k) := by
  simp only [formatReqApdu_bytes, step, blockApdu_data]
  simp [blockApdu, storeDataApdu, (class_channel supported).1, selected]

theorem ofNat_eq_zero_iff {k : Nat} (small : k < 255) : UInt8.ofNat k = 0 ↔ k = 0 := by
  constructor
  · intro zero
    have back : (UInt8.ofNat k).toNat = k := UInt8.toNat_ofNat_of_lt' (by simp only [UInt8.size]; omega)
    rw [zero] at back
    exact back.symm
  · rintro rfl
    rfl

theorem block_more (execute : σ → List UInt8 → σ × List UInt8) (blockLen : Nat) (es10xReq : ValidBuf)
    {k : Nat} {t : CardState σ} {channel : UInt8} (supported : ¬ channel > 3) (small : k < 255)
    (selected : t.channels channel = .selected) (collects : Collects es10xReq k s t)
    (rest : maxBlocksizeTx * (k + 1) < es10xReq.len) :
    step execute blockLen t (formatReqApdu (blockApdu es10xReq channel k)).bytes =
      ({ t with received := es10xReq.bytes.take (maxBlocksizeTx * (k + 1)), remaining := [] },
        [] ++ [0x90, 0x00]) := by
  have more : es10xReq.len - maxBlocksizeTx * k > maxBlocksizeTx := by
    rw [Nat.mul_add, Nat.mul_one] at rest
    omega
  rw [blockApdu_step es10xReq supported selected, if_pos more]
  simp only [storeData, ofNat_eq_zero_iff small, collected_block es10xReq collects]
  rfl

theorem block_last (execute : σ → List UInt8 → σ × List UInt8) (blockLen : Nat) (es10xReq : ValidBuf)
    {k : Nat} {t : CardState σ} {channel : UInt8} (supported : ¬ channel > 3) (small : k < 255)
    (selected : t.channels channel = .selected) (collects : Collects es10xReq k s t)
    (covered : es10xReq.len ≤ maxBlocksizeTx * (k + 1)) :
    step execute blockLen t (formatReqApdu (blockApdu es10xReq channel k)).bytes =
      ({ t with
          isdR := (execute s.isdR es10xReq.bytes).1
          received := []
          remaining := (execute s.isdR es10xReq.bytes).2 },
        status blockLen (execute s.isdR es10xReq.bytes).2) := by
  have last : ¬ es10xReq.len - maxBlocksizeTx * k > maxBlocksizeTx := by
    rw [Nat.mul_add, Nat.mul_one] at covered
    omega
  have whole : es10xReq.bytes.take (maxBlocksizeTx * (k + 1)) = es10xReq.bytes := by
    apply List.take_of_length_le
    rw [IpaBuf.length_bytes _ es10xReq.valid]
    exact covered
  rw [blockApdu_step es10xReq supported selected, if_neg last]
  simp only [storeData, ofNat_eq_zero_iff small, collected_block es10xReq collects, whole, collects.2.1]
  rfl

theorem afterBlocks_card (supported : ¬ ctx.euiccChannel > 3) (selected : s.channels ctx.euiccChannel = .selected)
    (now : reached execute blockLen start ctx = s) (k : Nat) (small : k ≤ 255)
    (rest : k = 0 ∨ maxBlocksizeTx * k < es10xReq.len) :
    Collects es10xReq k s
      (reached execute blockLen start (afterBlocks (card execute blockLen start) ctx es10xReq k)) := by
  induction k with
  | zero =>
      rw [afterBlocks, now]
      exact ⟨rfl, rfl, fun positive => absurd positive (Nat.lt_irrefl 0)⟩
  | succ k ih =>
      have more := rest.resolve_left (Nat.succ_ne_zero k)
      have before : k = 0 ∨ maxBlocksizeTx * k < es10xReq.len := by
        rw [Nat.mul_add] at more
        omega
      have collects := ih (Nat.le_of_succ_le small) before
      have chosen := (congrFun collects.1 ctx.euiccChannel).trans selected
      have stepped := block_more execute blockLen es10xReq supported small chosen collects more
      rw [afterBlocks, reached_exchange, stepped]
      exact ⟨collects.1, collects.2.1, fun _ => ⟨rfl, rfl⟩⟩

section
variable (supported : ¬ ctx.euiccChannel > 3) (selected : s.channels ctx.euiccChannel = .selected)
  (now : reached execute blockLen start ctx = s)
include supported selected now

theorem blockAnswer_more {k : Nat} (small : k < 255) (rest : maxBlocksizeTx * (k + 1) < es10xReq.len) :
    readAnswer (blockAnswer (card execute blockLen start) ctx es10xReq k) = some ⟨0, [], 0x9000⟩ := by
  have before : k = 0 ∨ maxBlocksizeTx * k < es10xReq.len := by
    rw [Nat.mul_add] at rest
    omega
  have collects := afterBlocks_card es10xReq supported selected now k (Nat.le_of_lt small) before
  have stepped := block_more execute blockLen es10xReq supported small
    ((congrFun collects.1 ctx.euiccChannel).trans selected) collects rest
  exact (answer_card (maxBlocksizeTx + 2) _ stepped (by decide)).1

theorem blockAnswer_last {k : Nat} (small : k < 255) (before : k = 0 ∨ maxBlocksizeTx * k < es10xReq.len)
    (covered : es10xReq.len ≤ maxBlocksizeTx * (k + 1)) {first second : UInt8}
    (answered : status blockLen (execute s.isdR es10xReq.bytes).2 = [first, second]) :
    readAnswer (blockAnswer (card execute blockLen start) ctx es10xReq k) =
        some ⟨0, [], first.toUInt16 <<< 8 ||| second.toUInt16⟩ ∧
      reached execute blockLen start (afterBlocks (card execute blockLen start) ctx es10xReq (k + 1)) =
        { s with
          isdR := (execute s.isdR es10xReq.bytes).1
          received := []
          remaining := (execute s.isdR es10xReq.bytes).2 } := by
  have collects := afterBlocks_card es10xReq supported selected now k (Nat.le_of_lt small) before
  have stepped := block_last execute blockLen es10xReq supported small
    ((congrFun collects.1 ctx.euiccChannel).trans selected) collects covered
  rw [answered, collects.1] at stepped
  obtain ⟨read, next⟩ := answer_card (maxBlocksizeTx + 2) [] stepped (by decide)
  exact ⟨read, next⟩

end

/-- A request that goes into 255 blocks is executed once and answered in full, any other is not executed. -/
theorem ipaEuiccTransceiveEs10x_card (room : 0 < blockLen) (small : blockLen ≤ 256)
    (supported : ¬ ctx.euiccChannel > 3) (selected : s.channels ctx.euiccChannel = .selected)
    (now : reached execute blockLen start ctx = s) (fuel : Nat)
    (enough : (execute s.isdR es10xReq.bytes).2.length ≤ fuel) :
    ∃ after res, ipaEuiccTransceiveEs10x (card execute blockLen start) fuel ctx es10xReq =
        (after, .returned res) ∧
      (reached execute blockLen start after).channels = s.channels ∧
      (reached execute blockLen start after).isdR = (serve execute s.isdR es10xReq.bytes).1 ∧
      res.map IpaBuf.bytes = (serve execute s.isdR es10xReq.bytes).2 ∧
      after.checkScard = ctx.checkScard := by
  have width : es10xReq.bytes.length = es10xReq.len := IpaBuf.length_bytes _ es10xReq.valid
  obtain ⟨n, continues, ends⟩ := sendBlocks_end (card execute blockLen start) ctx es10xReq
  have acked {k : Nat} (below : k < 255) (rest : maxBlocksizeTx * (k + 1) < es10xReq.len) :=
    blockAnswer_more es10xReq supported selected now below rest
  have before : n = 0 ∨ maxBlocksizeTx * n < es10xReq.len := by
    cases n with
    | zero => exact .inl rfl
    | succ n => exact .inr (continues n (Nat.lt_succ_self n)).2
  obtain ⟨first, second, answered, done, more⟩ :=
    status_cases room small (execute s.isdR es10xReq.bytes).2
  have final {k : Nat} (below : k < 255) (rest : k = 0 ∨ maxBlocksizeTx * k < es10xReq.len)
      (covered : es10xReq.len ≤ maxBlocksizeTx * (k + 1)) :=
    blockAnswer_last es10xReq supported selected now below rest covered answered
  generalize sent : sendBlocks (card execute blockLen start) es10xReq 255 ctx 0 = out at ends
  cases ends with
  | exhausted =>
      have long : ¬ es10xReq.len ≤ 255 * maxBlocksizeTx := by
        have beyond := (continues 254 (by decide)).2
        rw [Nat.mul_comm 255]
        exact Nat.not_le.mpr beyond
      have collects := afterBlocks_card es10xReq supported selected now 255 (Nat.le_refl _) before
      rw [serve, width, if_neg long]
      exact ⟨_, none, by simp only [ipaEuiccTransceiveEs10x, euiccTransceiveEs10x, sent], collects.1,
        collects.2.1, rfl, afterBlocks_checkScard _ ctx es10xReq 255⟩
  | failed _ after below unread log =>
      by_cases covered : es10xReq.len ≤ maxBlocksizeTx * (n + 1)
      · rw [(final below before covered).1] at unread
        cases unread
      · rw [acked below (Nat.lt_of_not_le covered)] at unread
        cases unread
  | early _ res below read refused rest =>
      rw [acked below rest] at read
      cases read
      exact absurd refused (by decide)
  | finished _ res below read covered =>
      obtain ⟨told, next⟩ := final below before covered
      have fits : es10xReq.len ≤ 255 * maxBlocksizeTx := by
        simp only [maxBlocksizeTx] at covered ⊢
        omega
      rw [serve, width, if_pos fits]
      rw [told] at read
      cases read
      have channel := afterBlocks_euiccChannel (card execute blockLen start) ctx es10xReq (n + 1)
      have canary := afterBlocks_checkScard (card execute blockLen start) ctx es10xReq (n + 1)
      by_cases empty : (execute s.isdR es10xReq.bytes).2 = []
      · simp only [ipaEuiccTransceiveEs10x, euiccTransceiveEs10x, sent, responsePhase, done empty, if_true]
        exact ⟨_, _, rfl, by rw [next], by rw [next], by rw [empty]; rfl, canary⟩
      · obtain ⟨continuing, length⟩ := more empty
        obtain ⟨after, whole, received, content, last, same⟩ := recvBlocks_card room small fuel
          (first.toUInt16 <<< 8 ||| second.toUInt16) (.alloc ipaLenEuiccBuf) (by rw [channel]; exact supported)
          (IpaBuf.alloc_valid _) next (by rw [channel]; exact selected) empty length enough
        have notOk : swOk (first.toUInt16 <<< 8 ||| second.toUInt16) ≠ true := by
          intro ok
          rw [not_swMore_of_swOk _ ok] at continuing
          cases continuing
        simp only [ipaEuiccTransceiveEs10x, euiccTransceiveEs10x, sent, responsePhase, notOk, continuing,
          Bool.false_eq_true, if_true, if_false, received]
        exact ⟨after, some whole, rfl, by rw [last], by rw [last], congrArg some content, same.trans canary⟩

end

/-! ## Sessions with the card -/

section
variable {ctx : EuiccCtx} {s : CardState σ}

theorem sendCommand_card {req : ReqApdu} (accepted : UInt16 → Bool) {next : CardState σ} {first second : UInt8}
    (stepped : step execute blockLen (reached execute blockLen start ctx) (formatReqApdu req).bytes =
      (next, [first, second]))
    (accepts : accepted (first.toUInt16 <<< 8 ||| second.toUInt16) = true) :
    ∃ after, sendCommand accepted (card execute blockLen start) ctx req = (after, .ok ()) ∧
      after.euiccChannel = ctx.euiccChannel ∧ reached execute blockLen start after = next ∧
      after.checkScard = ctx.checkScard := by
  obtain ⟨read, final⟩ := answer_card (maxBlocksizeRx + 2) [] stepped (by decide)
  obtain ⟨bufRes, transceived, parsed⟩ := ipaScardTransceive_answered _ ctx _ req _ read
  refine ⟨ctx.exchange (card execute blockLen start) (maxBlocksizeRx + 2) req, ?_, rfl, final, rfl⟩
  simp only [sendCommand, transceived, parsed, accepts, if_true]

theorem requests_card (start : CardState σ) (room : 0 < blockLen) (small : blockLen ≤ 256) (reqs : List ValidBuf)
    (isdR : σ) :
    ∃ least, ∀ fuel, least ≤ fuel → ∀ (ctx : EuiccCtx) (s : CardState σ), ¬ ctx.euiccChannel > 3 →
      reached execute blockLen start ctx = s → s.channels ctx.euiccChannel = .selected → s.isdR = isdR →
      ∃ after results, requests (card execute blockLen start) fuel ctx reqs = (after, .returned results) ∧
        (reached execute blockLen start after).channels = s.channels ∧
        (reached execute blockLen start after).isdR = (serveAll execute isdR (reqs.map fun req => req.bytes)).1 ∧
        results.map (Option.map IpaBuf.bytes) =
          (serveAll execute isdR (reqs.map fun req => req.bytes)).2 := by
  induction reqs generalizing isdR with
  | nil =>
      refine ⟨0, fun fuel _ ctx s _ now _ same => ⟨ctx, [], rfl, ?_, ?_, rfl⟩⟩
      · rw [now]
      · rw [now, same]
        rfl
  | cons es10xReq rest ih =>
      obtain ⟨least, others⟩ := ih (serve execute isdR es10xReq.bytes).1
      refine ⟨max (execute isdR es10xReq.bytes).2.length least, ?_⟩
      intro fuel enough ctx s supported now selected same
      subst same
      obtain ⟨after, res, transceived, channels, stepped, answered, -⟩ :=
        ipaEuiccTransceiveEs10x_card es10xReq room small supported selected now fuel
          (Nat.le_trans (Nat.le_max_left ..) enough)
      have channel := (ipaEuiccTransceiveEs10x_spoken (card execute blockLen start) fuel ctx es10xReq).euiccChannel
      rw [transceived] at channel
      obtain ⟨last, results, requested, channels', final, responses⟩ :=
        others fuel (Nat.le_trans (Nat.le_max_right ..) enough) after _ (by rw [channel]; exact supported) rfl
          (by rw [channels, channel]; exact selected) stepped
      refine ⟨last, res :: results, ?_, channels'.trans channels, final, ?_⟩
      · simp only [requests, transceived, requested]
      · rw [List.map_cons, answered, responses]
        rfl

section
variable (execute : σ → List UInt8 → σ × List UInt8) (blockLen : Nat) (t : CardState σ)

theorem step_termcap :
    step execute blockLen t (formatReqApdu termcapApdu).bytes = (t, [0x90, 0x00]) := by
  rw [formatReqApdu_bytes]
  rfl

theorem step_manageChannel (channel : UInt8) (close : Bool) :
    step execute blockLen t (formatReqApdu (manageChannelApdu channel close)).bytes =
      t.manageChannel (if close then 0x80 else 0x00) channel := by
  rw [formatReqApdu_bytes]
  rfl

theorem step_select {channel : UInt8} (supported : ¬ channel > 3) :
    step execute blockLen t (formatReqApdu (selectApdu channel)).bytes = t.select blockLen channel aidIsdR := by
  rw [formatReqApdu_bytes]
  simp [step, selectApdu, (class_channel supported).2]

theorem select_opened {channel : UInt8} (opened : t.channels channel = .opened) :
    ∃ second, t.select blockLen channel aidIsdR =
      ({ t with
          channels := Function.update t.channels channel .selected
          remaining := fileControlParameters }, [0x61, second]) := by
  simp [select, opened, status, fileControlParameters]

end

theorem init_card (supported : ¬ ctx.euiccChannel > 3) (now : reached execute blockLen start ctx = s)
    (free : s.channels ctx.euiccChannel = if ctx.euiccChannel = 0 then .opened else .closed) :
    ∃ after, ipaEuiccInitEs10x (card execute blockLen start) ctx = (after, .ok (.ok ())) ∧
      after.euiccChannel = ctx.euiccChannel ∧
      reached execute blockLen start after =
        { s with
          channels := Function.update s.channels ctx.euiccChannel .selected
          remaining := fileControlParameters } ∧
      after.checkScard = ctx.checkScard := by
  have termcap := step_termcap execute blockLen (reached execute blockLen start ctx)
  obtain ⟨capable, sent, channel, told, canary⟩ := sendCommand_card swTermcap termcap (by decide)
  rw [now] at told
  rw [ipaEuiccInitEs10x_eq _ ctx supported, opening, if_neg supported]
  -- the channel that the ISD-R is selected on
  suffices ready : ∀ (opened : EuiccCtx) (channels : UInt8 → ChannelState),
      opened.euiccChannel = ctx.euiccChannel → reached execute blockLen start opened = { s with channels } →
      channels ctx.euiccChannel = .opened →
      ∃ after, perform (card execute blockLen start) [(selectApdu ctx.euiccChannel, swMore)] opened =
          (after, .ok ()) ∧
        after.euiccChannel = ctx.euiccChannel ∧
        reached execute blockLen start after =
          { s with
            channels := Function.update channels ctx.euiccChannel .selected
            remaining := fileControlParameters } ∧
        after.checkScard = opened.checkScard by
    by_cases basic : ctx.euiccChannel = 0
    · rw [if_pos basic] at free
      obtain ⟨after, selected, same, final, canary'⟩ := ready capable s.channels channel told free
      refine ⟨after, ?_, same, final, canary'.trans canary⟩
      simp only [if_pos basic, perform, sent]
      simp only [perform] at selected
      simp only [selected]
    · rw [if_neg basic] at free
      have managed := step_manageChannel execute blockLen s ctx.euiccChannel false
      simp only [manageChannel, free, Bool.false_eq_true, if_false, if_true] at managed
      rw [← told] at managed
      obtain ⟨opened, sent', channel', told', canary'⟩ := sendCommand_card swOk managed (by decide)
      rw [told] at told'
      obtain ⟨after, selected, same, final, canary''⟩ :=
        ready opened _ (channel'.trans channel) told' (Function.update_self ..)
      refine ⟨after, ?_, same, by rw [final, Function.update_idem], canary''.trans (canary'.trans canary)⟩
      simp only [if_neg basic, perform, sent, sent']
      simp only [perform] at selected
      simp only [selected]
  intro opened channels same told free
  obtain ⟨second, chosen⟩ := select_opened blockLen { s with channels } free
  have stepped := step_select execute blockLen (reached execute blockLen start opened)
    supported
  rw [told, chosen, ← told] at stepped
  obtain ⟨after, sent, channel', final, canary'⟩ := sendCommand_card swMore stepped (announced_more second).1
  rw [told] at final
  exact ⟨after, by simp only [perform, sent], channel'.trans same, final, canary'⟩

theorem freeCtx_card {α : Type} (value : α) (supported : ¬ ctx.euiccChannel > 3)
    (now : reached execute blockLen start ctx = s) (selected : s.channels ctx.euiccChannel = .selected) :
    ∃ after, freeCtx (card execute blockLen start) ctx value = (after, .returned value) ∧
      reached execute blockLen start after =
        if ctx.euiccChannel = 0 then s
        else { s with channels := Function.update s.channels ctx.euiccChannel .closed } := by
  by_cases basic : ctx.euiccChannel = 0
  · rw [if_pos basic]
    exact ⟨ctx, by simp only [freeCtx, ipaEuiccCloseEs10x, Euicc.manageChannel, if_neg supported, if_pos basic], now⟩
  · rw [if_neg basic]
    have managed := step_manageChannel execute blockLen s ctx.euiccChannel true
    simp only [manageChannel, selected, reduceCtorEq, if_false, if_true] at managed
    rw [← now] at managed
    obtain ⟨after, sent, -, final, -⟩ := sendCommand_card swOk managed (by decide)
    rw [now] at final
    exact ⟨after, by
      simp only [freeCtx, ipaEuiccCloseEs10x, Euicc.manageChannel, if_neg supported, if_neg basic, sent], final⟩

end

/-- From setting the channel up to closing it, a card behind the channel is as good as its ISD-R: each request
is executed once, in order, and its response comes back whole. Afterwards the channels are as they were. -/
theorem session_served (channel : UInt8) (supported : ¬ channel > 3) (room : 0 < blockLen) (small : blockLen ≤ 256)
    (free : start.channels channel = if channel = 0 then .opened else .closed) (reqs : List ValidBuf) :
    ∃ least, ∀ fuel, least ≤ fuel → ∃ after results,
      session (card execute blockLen start) fuel ⟨channel, false, []⟩ reqs = (after, .returned (some results)) ∧
        results.map (Option.map IpaBuf.bytes) =
          (serveAll execute start.isdR (reqs.map fun req => req.bytes)).2 ∧
        (reached execute blockLen start after).isdR =
          (serveAll execute start.isdR (reqs.map fun req => req.bytes)).1 ∧
        (reached execute blockLen start after).channels =
          if channel = 0 then Function.update start.channels 0 .selected else start.channels := by
  obtain ⟨least, served⟩ := requests_card start room small reqs start.isdR
  refine ⟨least, fun fuel enough => ?_⟩
  obtain ⟨opened, setUp, same, ready, -⟩ := init_card supported
    (show reached execute blockLen start ⟨channel, false, []⟩ = start from rfl) free
  replace same : opened.euiccChannel = channel := same
  obtain ⟨asked, results, requested, channels, isdR, answered⟩ := served fuel enough opened _
    (by rw [same]; exact supported) ready (by rw [same]; exact Function.update_self ..) rfl
  have same' := (requests_spoken (card execute blockLen start) fuel opened reqs).euiccChannel
  rw [requested] at same'
  replace same' : asked.euiccChannel = channel := same'.trans same
  obtain ⟨after, closed, final⟩ := freeCtx_card (some results) (by rw [same']; exact supported)
    (show reached execute blockLen start asked = _ from rfl)
    (by rw [channels, same']; exact Function.update_self ..)
  refine ⟨after, results, by simp only [session, setUp, requested, closed], answered, ?_, ?_⟩
  · rw [final, same']
    split <;> exact isdR
  · rw [final, same']
    by_cases basic : channel = 0
    · rw [if_pos basic, if_pos basic, channels, ← basic]
    · rw [if_neg basic] at free
      rw [if_neg basic, if_neg basic]
      simp only [channels]
      rw [Function.update_idem, ← free, Function.update_eq_self]

def echo (count : Nat) (request : List UInt8) : Nat × List UInt8 := (count + 1, request)

def powered : CardState Nat where
  channels := fun channel => if channel = 0 then .opened else .closed
  isdR := 0
  received := []
  remaining := []

theorem session_served_echo :
    ∃ least, ∀ fuel, least ≤ fuel → ∃ after results,
      session (card echo 256 powered) fuel ⟨1, false, []⟩
          [⟨.ofBytes [0xBF, 0x3E], by decide⟩, ⟨.alloc 16, by decide⟩] = (after, .returned (some results)) ∧
        results.map (Option.map IpaBuf.bytes) = [some [0xBF, 0x3E], some []] ∧
        (reached echo 256 powered after).isdR = 2 ∧
        (reached echo 256 powered after).channels = powered.channels :=
  session_served 1 (by decide) (by decide) (by decide) rfl _

end CardState

end Ipad.Euicc
