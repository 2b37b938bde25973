import Mathlib.Data.List.TakeDrop
import Ipad.Euicc.Send
import Ipad.Euicc.Recv

namespace Ipad.Euicc
open Lib.Blocks

def responsePhase (card : Card) (fuel : Nat) (ctx : EuiccCtx) (sw : UInt16) (es10xRes : IpaBuf) :
    EuiccCtx × IpaBuf × Outcome (Except Errno Unit) :=
  if swOk sw then (ctx, es10xRes, .returned (.ok ()))
  else if swMore sw then recvBlocks card fuel ctx sw es10xRes
  else (ctx, es10xRes, .returned (.error .einval))

def euiccTransceiveEs10x (card : Card) (fuel : Nat) (ctx : EuiccCtx) (es10xRes : IpaBuf)
    (es10xReq : ValidBuf) : EuiccCtx × IpaBuf × Outcome (Except Errno Unit) :=
  match sendBlocks card es10xReq 255 ctx 0 with
  | (ctx, .error e) => (ctx, es10xRes, .returned (.error e))
  | (ctx, .ok sw) => responsePhase card fuel ctx sw es10xRes

def ipaEuiccTransceiveEs10x (card : Card) (fuel : Nat) (ctx : EuiccCtx) (es10xReq : ValidBuf) :
    EuiccCtx × Outcome (Option IpaBuf) :=
  match euiccTransceiveEs10x card fuel ctx (.alloc ipaLenEuiccBuf) es10xReq with
  | (ctx, _, .running) => (ctx, .running)
  | (ctx, _, .fault f) => (ctx, .fault f)
  | (ctx, _, .returned (.error _)) => (ctx, .returned none)
  | (ctx, es10xRes, .returned (.ok ())) => (ctx, .returned (some es10xRes))

/-! ## What the card saw -/

def exchangesSince (before after : EuiccCtx) : List Exchange :=
  after.log.drop before.log.length

theorem exchangesSince_of_log (before after : EuiccCtx) (exchanges : List Exchange)
    (log : after.log = before.log ++ exchanges) : exchangesSince before after = exchanges := by
  rw [exchangesSince, log, List.drop_left]

def storeDataSince (before after : EuiccCtx) : List Exchange :=
  (exchangesSince before after).filter fun exchange => exchange.req.ins == 0xE2

def carried (sent : List Exchange) : List UInt8 :=
  sent.flatMap fun exchange => exchange.req.data

/-- A request is cut into STORE DATA commands as SGP.22 has it, and success means that all went out. -/
structure Segmented (es10xReq : ValidBuf) (sent : List Exchange) (success : Prop) : Prop where
  carriedPrefix : carried sent <+: es10xReq.bytes
  full : ∀ (i : Nat) (_ : i + 1 < sent.length), sent[i].req.data.length = 255
  numbered : ∀ (i : Nat) (_ : i < sent.length), sent[i].req.p2.toNat = i
  marked : ∀ (i : Nat) (_ : i < sent.length),
    sent[i].req.p1 = if carried (sent.take (i + 1)) = es10xReq.bytes then 0x91 else 0x11
  acknowledged : ∀ (i : Nat) (_ : i + 1 < sent.length),
    ∃ res, readAnswer sent[i].res = some res ∧ res.sw = 0x9000
  complete : success → carried sent = es10xReq.bytes
  bounded : 255 * 255 < es10xReq.len → ¬ success

/-- Some block before the last one is answered with 61xx, and the answers to the GET RESPONSE commands
that follow complete a response. -/
def EarlyAnswer (card : Card) (ctx : EuiccCtx) (es10xReq : ValidBuf) : Prop :=
  ∃ k res, k < 255 ∧ maxBlocksizeTx * (k + 1) < es10xReq.len ∧
    (∀ i, i < k → Acked card ctx es10xReq i) ∧
    readAnswer (blockAnswer card ctx es10xReq k) = some res ∧ swMore res.sw = true ∧
    ¬ ctx.euiccChannel > 3 ∧ Completes card (afterBlocks card ctx es10xReq (k + 1)) res.sw

section
variable (card : Card) (ctx : EuiccCtx) (es10xReq : ValidBuf)

theorem carried_blocks (n : Nat) :
    carried ((List.range n).map (blockExchange card ctx es10xReq)) =
      es10xReq.bytes.take (maxBlocksizeTx * n) := by
  rw [← flatten_blocks, blocks, carried, List.flatMap_map, List.flatMap_def]
  congr 2
  funext i
  exact blockApdu_data es10xReq ctx.euiccChannel i

theorem segmented_blocks (n : Nat) (small : n ≤ 255) (success : Prop)
    (continues : ∀ i, i + 1 < n → Continues card ctx es10xReq i)
    (complete : success → es10xReq.len ≤ maxBlocksizeTx * n) :
    Segmented es10xReq ((List.range n).map (blockExchange card ctx es10xReq)) success := by
  have width : es10xReq.bytes.length = es10xReq.len := es10xReq.length_bytes es10xReq.valid
  refine ⟨?_, ?_, ?_, ?_, ?_, ?_, ?_⟩
  · rw [carried_blocks]
    exact List.take_prefix _ _
  · intro i inside
    simp only [List.length_map, List.length_range] at inside
    simp only [List.getElem_map, List.getElem_range, blockExchange, blockApdu_data]
    exact length_block_full _ _ _ (by rw [width]; exact Nat.le_of_lt (continues i inside).2)
  · intro i inside
    simp only [List.length_map, List.length_range] at inside
    simp only [List.getElem_map, List.getElem_range, blockExchange, blockApdu, storeDataApdu]
    exact UInt8.toNat_ofNat_of_lt' (by simp only [UInt8.size]; omega)
  · intro i inside
    simp only [List.length_map, List.length_range] at inside
    have before : i = 0 ∨ maxBlocksizeTx * i < es10xReq.len := by
      rcases i with _ | i
      · exact .inl rfl
      · exact .inr (continues i inside).2
    have upTo : carried (((List.range n).map (blockExchange card ctx es10xReq)).take (i + 1)) =
        es10xReq.bytes.take (maxBlocksizeTx * (i + 1)) := by
      rw [← List.map_take, List.take_range, Nat.min_eq_left inside, carried_blocks]
    have reaches : es10xReq.bytes.take (maxBlocksizeTx * (i + 1)) = es10xReq.bytes ↔
        ¬ es10xReq.len - maxBlocksizeTx * i > maxBlocksizeTx := by
      rw [List.take_eq_self_iff, width, Nat.mul_add]
      omega
    simp only [List.getElem_map, List.getElem_range, blockExchange, blockApdu, storeDataApdu, upTo]
    by_cases last : es10xReq.len - maxBlocksizeTx * i > maxBlocksizeTx
    · rw [if_pos last, if_neg (mt reaches.mp (not_not.mpr last))]
    · rw [if_neg last, if_pos (reaches.mpr last)]
  · intro i inside
    simp only [List.length_map, List.length_range] at inside
    simp only [List.getElem_map, List.getElem_range, blockExchange]
    obtain ⟨res, read, ok⟩ := (continues i inside).1
    exact ⟨res, read, by simpa [swOk] using ok⟩
  · intro succeeded
    rw [carried_blocks, List.take_of_length_le]
    rw [width]
    exact complete succeeded
  · intro long succeeded
    have covered := complete succeeded
    simp only [maxBlocksizeTx] at covered
    omega

theorem storeData_blocks (n : Nat) :
    ((List.range n).map (blockExchange card ctx es10xReq)).filter
        (fun exchange => exchange.req.ins == 0xE2) =
      (List.range n).map (blockExchange card ctx es10xReq) := by
  rw [List.filter_eq_self]
  intro exchange member
  obtain ⟨i, -, rfl⟩ := List.mem_map.mp member
  rfl

theorem no_storeData_in_chain (channel : UInt8) (sw : UInt16) (answers : List Exchange) (data : List UInt8)
    (ending : Ending) (chain : Chain channel sw answers data ending) :
    answers.filter (fun exchange => exchange.req.ins == 0xE2) = [] := by
  induction chain with
  | pending sw => rfl
  | complete sw answer res fits ok => rfl
  | unfit sw answer unfit => rfl
  | refused sw answer res fits notOk notMore => rfl
  | more sw answer res fits more rest data ending chain ih => exact ih

theorem responsePhase_log (fuel : Nat) (sw : UInt16) (es10xRes : IpaBuf) (valid : es10xRes.Valid) :
    ∃ answers, (responsePhase card fuel ctx sw es10xRes).1.log = ctx.log ++ answers ∧
      answers.filter (fun exchange => exchange.req.ins == 0xE2) = [] := by
  unfold responsePhase
  split
  · exact ⟨[], by simp, rfl⟩
  · split
    · by_cases channel : ctx.euiccChannel > 3
      · cases fuel with
        | zero => exact ⟨[], by simp [recvBlocks], rfl⟩
        | succ fuel => exact ⟨[], by simp [recvBlocks_assertion card fuel ctx sw es10xRes channel], rfl⟩
      · obtain ⟨answers, data, ending, chain, log, -, -, -⟩ :=
          recvBlocks_chain card fuel ctx sw es10xRes channel valid
        exact ⟨answers, log, no_storeData_in_chain _ _ _ _ _ chain⟩
    · exact ⟨[], by simp, rfl⟩

theorem responsePhase_returns_iff (sw : UInt16) (es10xRes : IpaBuf) (valid : es10xRes.Valid) :
    (∃ fuel, (responsePhase card fuel ctx sw es10xRes).2.2 = .returned (.ok ())) ↔
      swOk sw = true ∨ swMore sw = true ∧ ¬ ctx.euiccChannel > 3 ∧ Completes card ctx sw := by
  by_cases ok : swOk sw = true
  · simp [responsePhase, ok]
  · by_cases more : swMore sw = true
    · simp only [responsePhase, ok, more, Bool.false_eq_true, if_true, if_false, false_or, true_and]
      by_cases channel : ctx.euiccChannel > 3
      · simp only [channel, not_true_eq_false, false_and, iff_false]
        rintro ⟨fuel, returned⟩
        cases fuel with
        | zero => cases returned
        | succ fuel => simp [recvBlocks_assertion card fuel ctx sw es10xRes channel] at returned
      · simp only [channel, not_false_eq_true, true_and]
        exact recvBlocks_returns_iff card ctx sw es10xRes channel valid
    · simp [responsePhase, ok, more]

theorem euiccTransceiveEs10x_phases (fuel : Nat) (es10xRes : IpaBuf) (valid : es10xRes.Valid) :
    ∃ n answers, n ≤ 255 ∧ (∀ i, i + 1 < n → Continues card ctx es10xReq i) ∧
      (euiccTransceiveEs10x card fuel ctx es10xRes es10xReq).1.log =
        ctx.log ++ ((List.range n).map (blockExchange card ctx es10xReq) ++ answers) ∧
      answers.filter (fun exchange => exchange.req.ins == 0xE2) = [] ∧
      ((euiccTransceiveEs10x card fuel ctx es10xRes es10xReq).2.2 = .returned (.ok ()) →
        es10xReq.len ≤ maxBlocksizeTx * n ∨ EarlyAnswer card ctx es10xReq) := by
  obtain ⟨n, continues, ends⟩ := sendBlocks_end card ctx es10xReq
  have before : ∀ i, i + 1 < n + 1 → Continues card ctx es10xReq i :=
    fun i inside => continues i (Nat.lt_of_succ_lt_succ inside)
  generalize sent : sendBlocks card es10xReq 255 ctx 0 = out at ends
  unfold euiccTransceiveEs10x
  rw [sent]
  cases ends with
  | exhausted =>
      refine ⟨255, [], Nat.le_refl _, fun i inside => continues i (Nat.lt_of_succ_lt inside), ?_, rfl, ?_⟩
      · simp [afterBlocks_log]
      · simp
  | failed _ after small unread log =>
      refine ⟨n + 1, [], small, before, ?_, rfl, by simp⟩
      simp [log, afterBlocks_log]
  | finished _ res small read covered =>
      obtain ⟨answers, log, none_sent⟩ := responsePhase_log card (afterBlocks card ctx es10xReq (n + 1))
        fuel res.sw es10xRes valid
      refine ⟨n + 1, answers, small, before, ?_, none_sent, fun _ => .inl covered⟩
      rw [log, afterBlocks_log, List.append_assoc]
  | early _ res small read refused rest =>
      obtain ⟨answers, log, none_sent⟩ := responsePhase_log card (afterBlocks card ctx es10xReq (n + 1))
        fuel res.sw es10xRes valid
      refine ⟨n + 1, answers, small, before, ?_, none_sent, fun returned => .inr ?_⟩
      · rw [log, afterBlocks_log, List.append_assoc]
      · rcases (responsePhase_returns_iff card _ res.sw es10xRes valid).mp ⟨fuel, returned⟩ with
          ok | ⟨more, channel, completes⟩
        · rw [refused] at ok
          cases ok
        · rw [afterBlocks_euiccChannel] at channel
          exact ⟨n, res, small, rest, fun i earlier => (continues i earlier).1, read, more, channel, completes⟩

theorem sendBlocks_early (k : Nat) (res : ResApdu) (small : k < 255)
    (rest : maxBlocksizeTx * (k + 1) < es10xReq.len) (acked : ∀ i, i < k → Acked card ctx es10xReq i)
    (read : readAnswer (blockAnswer card ctx es10xReq k) = some res) (refused : swOk res.sw = false) :
    sendBlocks card es10xReq 255 ctx 0 = (afterBlocks card ctx es10xReq (k + 1), .ok res.sw) := by
  obtain ⟨n, continues, ends⟩ := sendBlocks_end card ctx es10xReq
  have not_after : ¬ k < n := by
    intro later
    obtain ⟨other, again, ok⟩ := (continues k later).1
    rw [read, Option.some.injEq] at again
    subst again
    rw [refused] at ok
    cases ok
  have not_before : ¬ n < k := by
    intro earlier
    obtain ⟨other, again, ok⟩ := acked n earlier
    generalize sendBlocks card es10xReq 255 ctx 0 = out at ends
    cases ends with
    | exhausted => omega
    | failed _ after small unread log =>
        rw [again] at unread
        cases unread
    | finished _ found small first covered =>
        simp only [maxBlocksizeTx] at covered rest
        omega
    | early _ found small first notOk more =>
        rw [again, Option.some.injEq] at first
        subst first
        rw [notOk] at ok
        cases ok
  obtain rfl : n = k := by omega
  generalize sendBlocks card es10xReq 255 ctx 0 = out at ends
  cases ends with
  | exhausted => omega
  | failed _ after small unread log =>
      rw [read] at unread
      cases unread
  | finished _ found small first covered => omega
  | early _ found small first notOk more =>
      rw [read, Option.some.injEq] at first
      subst first
      rfl

def SegmentedByCalls : Prop :=
  ∀ fuel es10xRes, es10xRes.Valid →
    Segmented es10xReq
      (storeDataSince ctx (euiccTransceiveEs10x card fuel ctx es10xRes es10xReq).1)
      ((euiccTransceiveEs10x card fuel ctx es10xRes es10xReq).2.2 = .returned (.ok ()))

/-- The code cuts every request as it should unless the card answers 61xx before the last block. -/
theorem segmentedByCalls_iff :
    SegmentedByCalls card ctx es10xReq ↔ ¬ EarlyAnswer card ctx es10xReq := by
  constructor
  · rintro segmented ⟨k, res, small, rest, acked, read, more, channel, completes⟩
    have refused : swOk res.sw = false := by
      cases ok : swOk res.sw with
      | false => rfl
      | true => rw [not_swMore_of_swOk _ ok] at more; cases more
    have sent := sendBlocks_early card ctx es10xReq k res small rest acked read refused
    have valid := IpaBuf.alloc_valid ipaLenEuiccBuf
    obtain ⟨fuel, returned⟩ :=
      (responsePhase_returns_iff card (afterBlocks card ctx es10xReq (k + 1)) res.sw _ valid).mpr
        (.inr ⟨more, by rwa [afterBlocks_euiccChannel], completes⟩)
    obtain ⟨answers, log, none_sent⟩ := responsePhase_log card (afterBlocks card ctx es10xReq (k + 1))
      fuel res.sw _ valid
    have run : euiccTransceiveEs10x card fuel ctx (.alloc ipaLenEuiccBuf) es10xReq =
        responsePhase card fuel (afterBlocks card ctx es10xReq (k + 1)) res.sw (.alloc ipaLenEuiccBuf) := by
      rw [euiccTransceiveEs10x, sent]
    have complete := (segmented fuel _ valid).complete (by rw [run]; exact returned)
    rw [afterBlocks_log, List.append_assoc] at log
    rw [storeDataSince, run, exchangesSince_of_log _ _ _ log, List.filter_append, none_sent, List.append_nil,
      storeData_blocks, carried_blocks, List.take_eq_self_iff, es10xReq.length_bytes es10xReq.valid] at complete
    omega
  · intro noEarly fuel es10xRes valid
    obtain ⟨n, answers, small, continues, log, none_sent, success⟩ :=
      euiccTransceiveEs10x_phases card ctx es10xReq fuel es10xRes valid
    rw [storeDataSince, exchangesSince_of_log _ _ _ log, List.filter_append, none_sent, List.append_nil,
      storeData_blocks]
    exact segmented_blocks card ctx es10xReq n small _ continues
      fun returned => (success returned).resolve_right noEarly

end

def hastyCard : Card := fun history =>
  if history.length = 1 then some [0x61, 0x02] else some [0xBF, 0x20, 0x90, 0x00]

def twoBlocks : ValidBuf := ⟨.ofBytes (List.replicate 256 0), IpaBuf.ofBytes_valid _⟩

set_option maxRecDepth 4000 in
theorem hastyCard_not_segmented : ¬ SegmentedByCalls hastyCard ⟨0, false, []⟩ twoBlocks := by
  intro segmented
  have complete := (segmented 1 (.alloc ipaLenEuiccBuf) (IpaBuf.alloc_valid _)).complete rfl
  exact absurd (congrArg List.length complete) (by decide +kernel)

/-! ## The response -/

def statusAfter (sw : UInt16) (answers : List Exchange) : UInt16 :=
  answers.foldl (fun sw exchange => ((readAnswer exchange.res).map ResApdu.sw).getD sw) sw

def answerData (exchange : Exchange) : List UInt8 :=
  ((readAnswer exchange.res).map ResApdu.data).getD []

/-- The GET RESPONSE commands that follow a status word 61xx put the response together from answers of
the announced lengths. -/
structure Reassembled (channel : UInt8) (sw : UInt16) (answers : List Exchange)
    (result : Outcome (Option IpaBuf)) : Prop where
  asks : ∀ before exchange after, answers = before ++ exchange :: after →
    exchange.req = getResponseApdu channel (announced (statusAfter sw before))
  delivered : ∀ es10xRes, result = .returned (some es10xRes) →
    es10xRes.bytes = answers.flatMap answerData ∧ es10xRes.Valid ∧ answers ≠ []
  conforming : ∀ es10xRes, result = .returned (some es10xRes) →
    ∀ before exchange after, answers = before ++ exchange :: after →
      ∃ res, Fits (statusAfter sw before) exchange.res res ∧
        if after = [] then res.sw = 0x9000 else swMore res.sw = true
  refused : ∀ before exchange after, answers = before ++ exchange :: after →
    (∀ res, Fits (statusAfter sw before) exchange.res res → res.sw ≠ 0x9000 ∧ swMore res.sw = false) →
    result = .returned none

theorem statusAfter_cons (sw : UInt16) (channel : UInt8) (answer : Option (List UInt8)) (res : ResApdu)
    (fits : Fits sw answer res) (rest : List Exchange) :
    statusAfter sw (⟨getResponseApdu channel (announced sw), answer⟩ :: rest) = statusAfter res.sw rest := by
  simp [statusAfter, fits.1]

private theorem split_singleton {exchange other : Exchange} {before after : List Exchange}
    (split : [exchange] = before ++ other :: after) : before = [] ∧ other = exchange ∧ after = [] := by
  rcases before with _ | ⟨first, before⟩
  · simp only [List.nil_append, List.cons.injEq] at split
    exact ⟨rfl, split.1.symm, split.2.symm⟩
  · simp at split

theorem chain_asks (channel : UInt8) (sw : UInt16) (answers : List Exchange) (data : List UInt8)
    (ending : Ending) (chain : Chain channel sw answers data ending)
    (before : List Exchange) (exchange : Exchange) (after : List Exchange)
    (split : answers = before ++ exchange :: after) :
    exchange.req = getResponseApdu channel (announced (statusAfter sw before)) := by
  induction chain generalizing before with
  | pending sw => simp at split
  | complete sw answer res fits ok =>
      obtain ⟨rfl, rfl, rfl⟩ := split_singleton split
      rfl
  | unfit sw answer unfit =>
      obtain ⟨rfl, rfl, rfl⟩ := split_singleton split
      rfl
  | refused sw answer res fits notOk notMore =>
      obtain ⟨rfl, rfl, rfl⟩ := split_singleton split
      rfl
  | more sw answer res fits more rest data ending chain ih =>
      rcases before with _ | ⟨first, before⟩
      · obtain ⟨rfl, rfl⟩ : _ ∧ rest = after := by simpa using split
        rfl
      · obtain ⟨rfl, tail⟩ : _ ∧ rest = before ++ exchange :: after := by simpa using split
        rw [statusAfter_cons sw channel answer res fits]
        exact ih before tail

theorem chain_complete_data (channel : UInt8) (sw : UInt16) (answers : List Exchange) (data : List UInt8)
    (chain : Chain channel sw answers data .complete) : data = answers.flatMap answerData ∧ answers ≠ [] := by
  generalize told : Ending.complete = ending at chain
  induction chain with
  | pending sw => cases told
  | complete sw answer res fits ok => simp [answerData, fits.1]
  | unfit sw answer unfit => cases told
  | refused sw answer res fits notOk notMore => cases told
  | more sw answer res fits more rest data ending chain ih =>
      refine ⟨?_, List.cons_ne_nil _ _⟩
      rw [List.flatMap_cons, ← (ih told).1]
      simp [answerData, fits.1]

theorem chain_complete_conforming (channel : UInt8) (sw : UInt16) (answers : List Exchange)
    (data : List UInt8) (chain : Chain channel sw answers data .complete)
    (before : List Exchange) (exchange : Exchange) (after : List Exchange)
    (split : answers = before ++ exchange :: after) :
    ∃ res, Fits (statusAfter sw before) exchange.res res ∧
      if after = [] then res.sw = 0x9000 else swMore res.sw = true := by
  generalize told : Ending.complete = ending at chain
  induction chain generalizing before with
  | pending sw => cases told
  | complete sw answer res fits ok =>
      obtain ⟨rfl, rfl, rfl⟩ := split_singleton split
      exact ⟨res, fits, by simpa [swOk] using ok⟩
  | unfit sw answer unfit => cases told
  | refused sw answer res fits notOk notMore => cases told
  | more sw answer res fits more rest data ending chain ih =>
      rcases before with _ | ⟨first, before⟩
      · obtain ⟨rfl, rfl⟩ : _ ∧ rest = after := by simpa using split
        subst told
        exact ⟨res, fits, by rw [if_neg (chain_complete_data _ _ _ _ chain).2]; exact more⟩
      · obtain ⟨rfl, tail⟩ : _ ∧ rest = before ++ exchange :: after := by simpa using split
        rw [statusAfter_cons sw channel answer res fits]
        exact ih before tail told

theorem chain_refused (channel : UInt8) (sw : UInt16) (answers : List Exchange) (data : List UInt8)
    (ending : Ending) (chain : Chain channel sw answers data ending)
    (before : List Exchange) (exchange : Exchange) (after : List Exchange)
    (split : answers = before ++ exchange :: after)
    (bad : ∀ res, Fits (statusAfter sw before) exchange.res res →
      res.sw ≠ 0x9000 ∧ swMore res.sw = false) : ending = .broken := by
  induction chain generalizing before with
  | pending sw => simp at split
  | complete sw answer res fits ok =>
      obtain ⟨rfl, rfl, rfl⟩ := split_singleton split
      exact absurd (by simpa [swOk] using ok) (bad res fits).1
  | unfit sw answer unfit => rfl
  | refused sw answer res fits notOk notMore => rfl
  | more sw answer res fits more rest data ending chain ih =>
      rcases before with _ | ⟨first, before⟩
      · obtain ⟨rfl, rfl⟩ : _ ∧ rest = after := by simpa using split
        have notMore := (bad res fits).2
        rw [more] at notMore
        cases notMore
      · obtain ⟨rfl, tail⟩ : _ ∧ rest = before ++ exchange :: after := by simpa using split
        rw [statusAfter_cons sw channel answer res fits] at bad
        exact ih before tail bad

section
variable (card : Card) (ctx : EuiccCtx) (es10xReq : ValidBuf)

theorem euiccTransceiveEs10x_more (fuel : Nat) (es10xRes : IpaBuf) (sent : EuiccCtx) (sw : UInt16)
    (ended : sendBlocks card es10xReq 255 ctx 0 = (sent, .ok sw)) (more : swMore sw = true) :
    euiccTransceiveEs10x card fuel ctx es10xRes es10xReq = recvBlocks card fuel sent sw es10xRes := by
  have notOk : ¬ swOk sw = true := fun ok => by simp [not_swMore_of_swOk _ ok] at more
  simp only [euiccTransceiveEs10x, ended, responsePhase, notOk, more, Bool.false_eq_true, if_true, if_false]

theorem ipaEuiccTransceiveEs10x_reassembled (fuel : Nat) (sent : EuiccCtx) (sw : UInt16)
    (ended : sendBlocks card es10xReq 255 ctx 0 = (sent, .ok sw)) (more : swMore sw = true) :
    Reassembled sent.euiccChannel sw
        (exchangesSince sent (ipaEuiccTransceiveEs10x card fuel ctx es10xReq).1)
        (ipaEuiccTransceiveEs10x card fuel ctx es10xReq).2 ∧
      (euiccTransceiveEs10x card fuel ctx (.alloc ipaLenEuiccBuf) es10xReq).2.1.Valid := by
  have valid := IpaBuf.alloc_valid ipaLenEuiccBuf
  unfold ipaEuiccTransceiveEs10x
  rw [euiccTransceiveEs10x_more card ctx es10xReq fuel _ sent sw ended more]
  by_cases channel : sent.euiccChannel > 3
  · cases fuel with
    | zero => exact ⟨by constructor <;> simp [recvBlocks, exchangesSince], valid⟩
    | succ fuel =>
        rw [recvBlocks_assertion card fuel sent sw _ channel]
        exact ⟨by constructor <;> simp [exchangesSince], valid⟩
  · obtain ⟨answers, data, ending, chain, log, sound, tells, content⟩ :=
      recvBlocks_chain card fuel sent sw (.alloc ipaLenEuiccBuf) channel valid
    have asks := chain_asks _ _ _ _ _ chain
    have refused := chain_refused _ _ _ _ _ chain
    rcases run : recvBlocks card fuel sent sw (.alloc ipaLenEuiccBuf) with ⟨after, es10xRes, outcome⟩
    rw [run] at log sound tells content
    rw [exchangesSince_of_log _ _ answers (by rcases outcome with _ | _ | (_ | _) <;> exact log)]
    refine ⟨?_, sound⟩
    rcases outcome with _ | f | (e | _)
    · obtain rfl : ending = .pending := tells
      exact ⟨asks, by simp, by simp, fun before exchange after split bad =>
        by cases refused before exchange after split bad⟩
    · exact tells.elim
    · exact ⟨asks, by simp, by simp, fun _ _ _ _ _ => rfl⟩
    · obtain rfl : ending = .complete := tells
      have held : es10xRes.bytes = data := by simpa using content (by decide)
      obtain ⟨whole, nonempty⟩ := chain_complete_data _ _ _ _ chain
      refine ⟨asks, ?_, ?_, fun before exchange after split bad => by
        cases refused before exchange after split bad⟩
      · rintro _ ⟨rfl⟩
        exact ⟨held.trans whole, sound, nonempty⟩
      · rintro _ -
        exact chain_complete_conforming _ _ _ _ chain

end

theorem hastyCard_reassembled :
    Reassembled 0 0x6102
        (exchangesSince ⟨0, false, [⟨storeDataApdu 0 ⟨.ofBytes [0x80], by decide⟩ 0 0, some [0x61, 0x02]⟩]⟩
          (ipaEuiccTransceiveEs10x hastyCard 1 ⟨0, false, []⟩ ⟨.ofBytes [0x80], by decide⟩).1)
        (ipaEuiccTransceiveEs10x hastyCard 1 ⟨0, false, []⟩ ⟨.ofBytes [0x80], by decide⟩).2 ∧
      (euiccTransceiveEs10x hastyCard 1 ⟨0, false, []⟩ (.alloc ipaLenEuiccBuf)
        ⟨.ofBytes [0x80], by decide⟩).2.1.Valid :=
  ipaEuiccTransceiveEs10x_reassembled hastyCard ⟨0, false, []⟩ ⟨.ofBytes [0x80], by decide⟩ 1
    ⟨0, false, [⟨storeDataApdu 0 ⟨.ofBytes [0x80], by decide⟩ 0 0, some [0x61, 0x02]⟩]⟩ 0x6102
    rfl (by decide)

/-! ## The canary -/

def Exchange.failed (exchange : Exchange) : Bool := exchange.res.isNone

/-- The canary has been set exactly when an exchange failed. -/
def Flagged (before after : EuiccCtx) : Prop :=
  ∃ exchanges, after.log = before.log ++ exchanges ∧
    after.checkScard = (before.checkScard || exchanges.any Exchange.failed)

section
variable (card : Card)

theorem Flagged.refl (ctx : EuiccCtx) : Flagged ctx ctx :=
  ⟨[], (List.append_nil _).symm, (Bool.or_false _).symm⟩

theorem Flagged.trans {first second third : EuiccCtx} (one : Flagged first second) (two : Flagged second third) :
    Flagged first third := by
  obtain ⟨exchanges, log, flag⟩ := one
  obtain ⟨later, log', flag'⟩ := two
  refine ⟨exchanges ++ later, ?_, ?_⟩
  · rw [log', log, List.append_assoc]
  · rw [flag', flag, List.any_append, Bool.or_assoc]

theorem ipaScardTransceive_flagged (ctx : EuiccCtx) (resLen : Nat) (req : ReqApdu) :
    (∀ after e, ipaScardTransceive card ctx resLen req = (after, .error e) →
        Flagged ctx { after with checkScard := true }) ∧
      ∀ after bufRes, ipaScardTransceive card ctx resLen req = (after, .ok bufRes) → Flagged ctx after := by
  unfold ipaScardTransceive
  cases answered : ctx.answer card resLen req with
  | none =>
      refine ⟨?_, fun _ _ failed => by cases failed⟩
      rintro _ _ ⟨⟩
      refine ⟨[⟨req, none⟩], ?_, (Bool.or_true _).symm⟩
      simp only [EuiccCtx.exchange, answered, EuiccCtx.record_log]
  | some bytes =>
      refine ⟨fun _ _ failed => (by cases failed), ?_⟩
      rintro _ _ ⟨⟩
      refine ⟨[⟨req, some bytes⟩], ?_, (Bool.or_false _).symm⟩
      simp only [EuiccCtx.exchange, answered, EuiccCtx.record_log]

theorem sendEs10xBlock_flagged (ctx : EuiccCtx) (es10xReq : ValidBuf) (offset : Nat) (blockNr : UInt8) :
    Flagged ctx (sendEs10xBlock card ctx es10xReq offset blockNr).1 := by
  obtain ⟨fails, answers⟩ := ipaScardTransceive_flagged card ctx (maxBlocksizeTx + 2)
    (storeDataApdu ctx.euiccChannel es10xReq offset blockNr)
  unfold sendEs10xBlock
  simp only
  split
  next after e failed => exact fails after e failed
  next after bufRes answered =>
    split
    · exact answers after bufRes answered
    · exact answers after bufRes answered

theorem sendBlocks_flagged (ctx : EuiccCtx) (es10xReq : ValidBuf) (left offset : Nat) :
    Flagged ctx (sendBlocks card es10xReq left ctx offset).1 := by
  induction left generalizing ctx offset with
  | zero => exact .refl ctx
  | succ left ih =>
      have block := sendEs10xBlock_flagged card ctx es10xReq offset (UInt8.ofNat (254 - left))
      unfold sendBlocks
      split
      next after _ failed =>
        rw [failed] at block
        exact block
      next after rc sw sent =>
        rw [sent] at block
        split
        · exact block
        split
        · exact block
        · exact block.trans (ih after (offset + rc))

theorem recvEs10xBlock_flagged (ctx : EuiccCtx) (es10xRes : IpaBuf) (blockLen : Nat) :
    Flagged ctx (recvEs10xBlock card ctx es10xRes blockLen).1 := by
  unfold recvEs10xBlock
  split
  · exact .refl ctx
  simp only
  generalize (if blockLen > maxBlocksizeRx then maxBlocksizeRx else blockLen) = clipped
  obtain ⟨fails, answers⟩ := ipaScardTransceive_flagged card ctx (maxBlocksizeRx + 2)
    (getResponseApdu ctx.euiccChannel clipped)
  split
  next after e failed => exact fails after e failed
  next after bufRes answered =>
    have flagged := answers after bufRes answered
    split
    · exact flagged
    split
    · exact flagged
    split
    · exact flagged
    · exact flagged

theorem recvBlocks_flagged (fuel : Nat) (ctx : EuiccCtx) (sw : UInt16) (es10xRes : IpaBuf) :
    Flagged ctx (recvBlocks card fuel ctx sw es10xRes).1 := by
  induction fuel generalizing ctx sw es10xRes with
  | zero => exact .refl ctx
  | succ fuel ih =>
      have block := recvEs10xBlock_flagged card ctx es10xRes (announced sw)
      unfold recvBlocks
      split
      next received =>
        rw [received] at block
        exact block
      next received =>
        rw [received] at block
        exact block
      next received =>
        rw [received] at block
        split
        · exact block
        split
        · exact block
        · exact block.trans (ih _ _ _)

theorem ipaEuiccTransceiveEs10x_flagged (fuel : Nat) (ctx : EuiccCtx) (es10xReq : ValidBuf) :
    Flagged ctx (ipaEuiccTransceiveEs10x card fuel ctx es10xReq).1 := by
  have whole : Flagged ctx (euiccTransceiveEs10x card fuel ctx (.alloc ipaLenEuiccBuf) es10xReq).1 := by
    have blocks := sendBlocks_flagged card ctx es10xReq 255 0
    unfold euiccTransceiveEs10x
    split
    next failed =>
      rw [failed] at blocks
      exact blocks
    next sent =>
      rw [sent] at blocks
      unfold responsePhase
      split
      · exact blocks
      split
      · exact blocks.trans (recvBlocks_flagged card fuel _ _ _)
      · exact blocks
  unfold ipaEuiccTransceiveEs10x
  split
  all_goals
    next returned =>
      rw [returned] at whole
      exact whole

end

end Ipad.Euicc
