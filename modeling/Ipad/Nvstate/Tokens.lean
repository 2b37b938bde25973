import Ipad.Nvstate.AutoEnable

/-!
# Association tokens

Which tokens are generated over a run of the operations, and how they relate to those that come with a request.
-/

namespace Ipad.EimCfg
open Lib.KeyedList Lib.Except Ipad.Nvstate

/-! ## The tokens of a list -/

/-- The tokens that the completion of a list generates, in their order. -/
def tokensGenerated : Int32 → List EimConfigurationData → List Int
  | _, [] => []
  | counter, cfg :: list =>
      match completeEimCfg counter cfg with
      | .ok (counter, some kept) =>
          (if cfg.associationToken = some (-1) then kept.associationToken.toList else []) ++
            tokensGenerated counter list
      | _ => []

/-- A completed list beside the request: the requested tokens count on from `counter`. -/
inductive Completed : Int → List EimConfigurationData → List EimConfigurationData → Prop where
  | nil (counter : Int) : Completed counter [] []
  | generated (counter : Int) (cfg : EimConfigurationData) (requested : cfg.associationToken = some (-1))
      (list stored : List EimConfigurationData) (rest : Completed (counter + 1) list stored) :
      Completed counter (cfg :: list) ({ cfg with associationToken := some (counter + 1) } :: stored)
  | kept (counter : Int) (cfg : EimConfigurationData) (given : cfg.associationToken ≠ some (-1))
      (list stored : List EimConfigurationData) (rest : Completed counter list stored) :
      Completed counter (cfg :: list) (cfg :: stored)

theorem tokensGenerated_ascend (counter : Int32) (list : List EimConfigurationData) :
    (∀ token ∈ tokensGenerated counter list, counter.toInt < token) ∧
      (tokensGenerated counter list).Pairwise (· < ·) := by
  induction list generalizing counter with
  | nil => exact ⟨fun _ member => absurd member List.not_mem_nil, .nil⟩
  | cons cfg list ih =>
      unfold tokensGenerated
      by_cases complete : cfg.Complete
      · by_cases requested : cfg.associationToken = some (-1)
        · rw [completeEimCfg_token counter cfg complete requested]
          by_cases below : counter.toInt + 1 < 2 ^ 31
          · simp only [if_pos below, if_pos requested, Option.toList_some, List.singleton_append]
            obtain ⟨above, ascend⟩ := ih (counter + 1)
            have next := toInt_succ counter below
            rw [List.forall_mem_cons, List.pairwise_cons]
            refine ⟨⟨by omega, fun token member => ?_⟩, above, ascend⟩
            have far := above token member
            omega
          · simp only [if_neg below]
            exact ⟨fun _ member => absurd member List.not_mem_nil, .nil⟩
        · rw [completeEimCfg_complete counter cfg complete requested]
          simp only [if_neg requested, List.nil_append]
          exact ih counter
      · rw [completeEimCfg_incomplete counter cfg complete]
        exact ⟨fun _ member => absurd member List.not_mem_nil, .nil⟩

theorem completeEimCfgs_cons {counter next after : Int32} {cfg kept : EimConfigurationData}
    {list : List EimConfigurationData} {completed : Option (List EimConfigurationData)}
    (taken : completeEimCfg counter cfg = .ok (next, some kept))
    (done : completeEimCfgs counter (cfg :: list) = .ok (after, completed)) :
    ∃ rest, completeEimCfgs next list = .ok (after, rest) ∧ completed = rest.map (kept :: ·) := by
  rw [completeEimCfgs, taken] at done
  simp only at done
  split at done
  · cases done
  next found =>
    cases done
    exact ⟨none, found, rfl⟩
  next found =>
    cases done
    exact ⟨some _, found, rfl⟩

theorem completeEimCfgs_counts (counter after : Int32) (list : List EimConfigurationData)
    (completed : Option (List EimConfigurationData)) (done : completeEimCfgs counter list = .ok (after, completed)) :
    counter.toInt ≤ after.toInt ∧ (∀ token ∈ tokensGenerated counter list, token ≤ after.toInt) ∧
      ∀ stored, completed = some stored → Completed counter.toInt list stored ∧
        after.toInt = counter.toInt + tokensRequested list := by
  induction list generalizing counter completed with
  | nil =>
      cases done
      refine ⟨Int.le_refl _, fun _ member => absurd member List.not_mem_nil, ?_⟩
      rintro _ ⟨⟩
      exact ⟨.nil _, (Int.add_zero _).symm⟩
  | cons cfg list ih =>
      by_cases complete : cfg.Complete
      · by_cases requested : cfg.associationToken = some (-1)
        · have token := completeEimCfg_token counter cfg complete requested
          by_cases below : counter.toInt + 1 < 2 ^ 31
          · rw [if_pos below] at token
            obtain ⟨rest, found, rfl⟩ := completeEimCfgs_cons token done
            obtain ⟨low, each, stores⟩ := ih (counter + 1) rest found
            have next := toInt_succ counter below
            have mine : tokensGenerated counter (cfg :: list) =
                (counter + 1).toInt :: tokensGenerated (counter + 1) list := by
              simp only [tokensGenerated, token, if_pos requested, Option.toList_some, List.singleton_append]
            have count : tokensRequested (cfg :: list) = 1 + tokensRequested list := by
              rw [tokensRequested, if_pos complete, if_pos requested]
            refine ⟨by omega, ?_, ?_⟩
            · rw [mine, List.forall_mem_cons]
              exact ⟨low, each⟩
            · intro stored same
              obtain ⟨others, rfl, rfl⟩ := Option.map_eq_some_iff.mp same
              obtain ⟨completed, total⟩ := stores others rfl
              rw [next] at completed ⊢
              exact ⟨.generated _ cfg requested list others completed, by rw [count]; omega⟩
          · rw [if_neg below] at token
            rw [completeEimCfgs, token] at done
            cases done
        · have taken := completeEimCfg_complete counter cfg complete requested
          obtain ⟨rest, found, rfl⟩ := completeEimCfgs_cons taken done
          obtain ⟨low, each, stores⟩ := ih counter rest found
          have none : tokensGenerated counter (cfg :: list) = tokensGenerated counter list := by
            simp only [tokensGenerated, taken, if_neg requested, List.nil_append]
          have count : tokensRequested (cfg :: list) = tokensRequested list := by
            rw [tokensRequested, if_pos complete, if_neg requested, Nat.zero_add]
          refine ⟨low, by rw [none]; exact each, ?_⟩
          intro stored same
          obtain ⟨others, rfl, rfl⟩ := Option.map_eq_some_iff.mp same
          obtain ⟨completed, total⟩ := stores others rfl
          exact ⟨.kept _ cfg requested list others completed, by rw [count]; exact total⟩
      · have incomplete := completeEimCfg_incomplete counter cfg complete
        have none : tokensGenerated counter (cfg :: list) = [] := by
          simp only [tokensGenerated, incomplete]
        rw [completeEimCfgs, incomplete] at done
        cases done
        exact ⟨Int.le_refl _, by simp [none], fun _ found => by cases found⟩

/-! ## Tokens and the entries beside them -/

def Alone (req stored : List EimConfigurationData) : Prop :=
  ∀ (i j : Nat) (cfg item other : EimConfigurationData), i ≠ j → req[i]? = some cfg →
    cfg.associationToken = some (-1) → stored[i]? = some item → stored[j]? = some other →
      item.associationToken ≠ other.associationToken

/-- A token that comes with the request is among those that will be generated for it. -/
def Within (counter : Int) (req : List EimConfigurationData) : Prop :=
  ∃ cfg ∈ req, ∃ token, cfg.associationToken = some token ∧ counter < token ∧
    token ≤ counter + tokensRequested req

section
variable {counter : Int} {req stored : List EimConfigurationData}

theorem tokensRequested_generated {cfg : EimConfigurationData} (complete : cfg.Complete)
    (requested : cfg.associationToken = some (-1)) :
    tokensRequested (cfg :: req) = 1 + tokensRequested req := by
  rw [tokensRequested, if_pos complete, if_pos requested]

theorem tokensRequested_kept {cfg : EimConfigurationData} (complete : cfg.Complete)
    (given : cfg.associationToken ≠ some (-1)) : tokensRequested (cfg :: req) = tokensRequested req := by
  rw [tokensRequested, if_pos complete, if_neg given, Nat.zero_add]

/-- An entry as it is stored, its token between the two bounds when it was requested. -/
inductive Filled (low high : Int) (cfg : EimConfigurationData) : EimConfigurationData → Prop where
  | generated (requested : cfg.associationToken = some (-1)) (token : Int) (above : low < token)
      (upTo : token ≤ high) : Filled low high cfg { cfg with associationToken := some token }
  | kept (given : cfg.associationToken ≠ some (-1)) : Filled low high cfg cfg

theorem Filled.mono {low low' high high' : Int} (below : low' ≤ low) (beyond : high ≤ high')
    {cfg item : EimConfigurationData} (filled : Filled low high cfg item) : Filled low' high' cfg item := by
  cases filled with
  | generated requested token above upTo => exact .generated requested token (by omega) (by omega)
  | kept given => exact .kept given

theorem Filled.rel_mono {low low' high high' : Int} (below : low' ≤ low) (beyond : high ≤ high')
    {cfg item : Option EimConfigurationData} (filled : Option.Rel (Filled low high) cfg item) :
    Option.Rel (Filled low' high') cfg item := by
  cases filled with
  | none => exact .none
  | some filled => exact .some (filled.mono below beyond)

theorem Completed.filled (completed : Completed counter req stored) (complete : ∀ cfg ∈ req, cfg.Complete)
    (i : Nat) : Option.Rel (Filled counter (counter + tokensRequested req)) req[i]? stored[i]? := by
  induction completed generalizing i with
  | nil => exact .none
  | generated counter cfg requested list stored rest ih =>
      rw [List.forall_mem_cons] at complete
      rw [tokensRequested_generated complete.1 requested]
      cases i with
      | zero => exact .some (.generated requested _ (by omega) (by omega))
      | succ i => exact Filled.rel_mono (by omega) (by omega) (ih complete.2 i)
  | kept counter cfg given list stored rest ih =>
      rw [List.forall_mem_cons] at complete
      rw [tokensRequested_kept complete.1 given]
      cases i with
      | zero => exact .some (.kept given)
      | succ i => exact ih complete.2 i

theorem Completed.entry (completed : Completed counter req stored) (complete : ∀ cfg ∈ req, cfg.Complete)
    {i : Nat} {item : EimConfigurationData} (found : stored[i]? = some item) :
    ∃ cfg, req[i]? = some cfg ∧ Filled counter (counter + tokensRequested req) cfg item := by
  have filled := completed.filled complete i
  rw [found] at filled
  generalize req[i]? = asked at filled
  cases filled with
  | some filled => exact ⟨_, rfl, filled⟩

/-- Each of the next values of the counter goes to an entry that requested a token. -/
theorem Completed.reaches (completed : Completed counter req stored) (complete : ∀ cfg ∈ req, cfg.Complete)
    {token : Int} (above : counter < token) (upTo : token ≤ counter + tokensRequested req) :
    ∃ (i : Nat) (cfg item : EimConfigurationData), req[i]? = some cfg ∧ cfg.associationToken = some (-1) ∧
      stored[i]? = some item ∧ item.associationToken = some token := by
  induction completed with
  | nil counter => exact absurd upTo (by rw [tokensRequested]; omega)
  | generated counter cfg requested list stored rest ih =>
      rw [List.forall_mem_cons] at complete
      rw [tokensRequested_generated complete.1 requested] at upTo
      by_cases first : token = counter + 1
      · exact ⟨0, cfg, _, rfl, requested, rfl, congrArg some first.symm⟩
      · obtain ⟨i, other, item, place⟩ := ih complete.2 (by omega) (by omega)
        exact ⟨i + 1, other, item, place⟩
  | kept counter cfg given list stored rest ih =>
      rw [List.forall_mem_cons] at complete
      rw [tokensRequested_kept complete.1 given] at upTo
      obtain ⟨i, other, item, place⟩ := ih complete.2 above upTo
      exact ⟨i + 1, other, item, place⟩

theorem Within.cons {counter' : Int} {cfg : EimConfigurationData} (within : Within counter' req)
    (low : counter ≤ counter') (high : counter' + tokensRequested req ≤ counter + tokensRequested (cfg :: req)) :
    Within counter (cfg :: req) := by
  obtain ⟨other, member, token, same, above, upTo⟩ := within
  exact ⟨other, List.mem_cons_of_mem _ member, token, same, by omega, by omega⟩

theorem Completed.alone (completed : Completed counter req stored) (complete : ∀ cfg ∈ req, cfg.Complete)
    (clear : ¬ Within counter req) : Alone req stored := by
  induction completed with
  | nil => exact fun _ _ _ _ _ _ none => by cases none
  | generated counter cfg requested list stored rest ih =>
      rw [List.forall_mem_cons] at complete
      have count : tokensRequested (cfg :: list) = 1 + tokensRequested list :=
        tokensRequested_generated complete.1 requested
      have others : Alone list stored := ih complete.2 fun within => clear (within.cons (by omega) (by omega))
      -- the first value goes to this entry, and the rest of the list gets later ones or brings its own
      have first (j : Nat) (other : EimConfigurationData) (found : stored[j]? = some other) :
          other.associationToken ≠ some (counter + 1) := by
        intro same
        obtain ⟨asked, member, filled⟩ := rest.entry complete.2 found
        cases filled with
        | generated requested token above upTo =>
            cases same
            omega
        | kept given =>
            exact clear ⟨other, List.mem_cons_of_mem _ (List.mem_of_getElem? member), counter + 1, same, by omega,
              by omega⟩
      intro i j
      cases i with
      | zero =>
          cases j with
          | zero => exact fun _ _ _ differ => absurd rfl differ
          | succ j =>
              rintro _ item other - - - ⟨⟩ found same
              exact first j other found same.symm
      | succ i =>
          cases j with
          | zero =>
              rintro _ item other - - - found ⟨⟩ same
              exact first i item found same
          | succ j => exact fun cfg item other differ => others i j cfg item other (by omega)
  | kept counter cfg given list stored rest ih =>
      rw [List.forall_mem_cons] at complete
      have count : tokensRequested (cfg :: list) = tokensRequested list := tokensRequested_kept complete.1 given
      have others : Alone list stored := ih complete.2 fun within => clear (within.cons (by omega) (by omega))
      intro i j
      cases i with
      | zero =>
          rintro _ item other - ⟨⟩ requested
          exact absurd requested given
      | succ i =>
          cases j with
          | zero =>
              rintro asked item _ - member requested found ⟨⟩ same
              obtain ⟨cfg', asks, filled⟩ := rest.entry complete.2 found
              cases asks.symm.trans member
              cases filled with
              | generated _ token above upTo =>
                  exact clear ⟨cfg, List.mem_cons_self .., token, same.symm, above, by omega⟩
              | kept given => exact given requested
          | succ j => exact fun cfg item other differ => others i j cfg item other (by omega)

theorem Completed.alone_iff (completed : Completed counter req stored) (complete : ∀ cfg ∈ req, cfg.Complete)
    (nonneg : 0 ≤ counter) : Alone req stored ↔ ¬ Within counter req := by
  refine ⟨?_, completed.alone complete⟩
  rintro alone ⟨cfg, member, token, same, above, upTo⟩
  obtain ⟨i, requester, item, asks, requested, stores, generated⟩ := completed.reaches complete above upTo
  obtain ⟨j, place⟩ := List.getElem?_of_mem member
  have given : cfg.associationToken ≠ some (-1) := by
    rw [same, ne_eq, Option.some.injEq]
    omega
  have keeps : stored[j]? = some cfg := by
    have filled := completed.filled complete j
    rw [place] at filled
    generalize stored[j]? = item at filled
    cases filled with
    | some filled =>
        cases filled with
        | generated requested => exact absurd requested given
        | kept => rfl
  have differ : i ≠ j := by
    rintro rfl
    cases asks.symm.trans place
    exact given requested
  exact alone i j requester item cfg differ asks requested stores keeps (generated.trans same.symm)

end

/-! ## Tokens of the operations -/

section
variable (codec : EimCfgCodec)

/-- The list that an operation hands to the emulated AddInitialEim. -/
def EimOp.written (nv : IpaNvstate) : EimOp → Option (List EimConfigurationData)
  | .addInitialEim req => some req
  | .addEim addEimEco =>
      match getEimCfgDataIotEmu codec nv with
      | none => none
      | some list => if list.any fun cfg => cfg.eimId = addEimEco.eimId then none else some (list ++ [addEimEco])
  | .deleteEim eimId =>
      match getEimCfgDataIotEmu codec nv with
      | none => none
      | some list =>
          if list.any fun cfg => cfg.eimId = eimId then
            some (removeKey EimConfigurationData.eimId eimId list)
          else none
  | .updateEim above updateEimEco =>
      match getEimCfgDataIotEmu codec nv with
      | none => none
      | some list =>
          if list.any fun cfg => cfg.eimId = updateEimEco.eimId then
            some (updateKey EimConfigurationData.eimId updateEimEco.eimId (updateEimItem above updateEimEco) list)
          else none
  | .listEim => none

variable {codec} {nv nv' : IpaNvstate}

/-- The state is left alone, or it is the one that the emulated AddInitialEim leaves. -/
def Writes (codec : EimCfgCodec) (nv nv' : IpaNvstate) : Option (List EimConfigurationData) → Prop
  | none => nv' = nv
  | some req => ∃ answer, addInitEimIotEmu codec nv req = .ok (nv', answer)

theorem iotEmoDoAddEimEco_writes {addEimEco : EimConfigurationData} {answer : AddEimResult}
    (run : iotEmoDoAddEimEco codec nv addEimEco = .ok (nv', answer)) :
    Writes codec nv nv' ((EimOp.addEim addEimEco).written codec nv) := by
  unfold iotEmoDoAddEimEco at run
  unfold EimOp.written
  generalize getEimCfgDataIotEmu codec nv = kept at run ⊢
  cases kept with
  | none =>
      cases run
      rfl
  | some list =>
      simp only at run ⊢
      split at run
      next present =>
        cases run
        rw [if_pos present]
        rfl
      next absent =>
        rw [if_neg absent]
        show ∃ answer, addInitEimIotEmu codec nv (list ++ [addEimEco]) = .ok (_, answer)
        split at run
        · cases run
        next added =>
          cases run
          exact ⟨_, added⟩
        next added =>
          split at run
          · cases run
          · cases run
            exact ⟨_, added⟩
          · cases run
            exact ⟨_, added⟩

theorem iotEmoDoDeleteEimEco_writes {eimId : List UInt8} {answer : Int}
    (run : iotEmoDoDeleteEimEco codec nv eimId = .ok (nv', answer)) :
    Writes codec nv nv' ((EimOp.deleteEim eimId).written codec nv) := by
  unfold iotEmoDoDeleteEimEco at run
  unfold EimOp.written
  generalize getEimCfgDataIotEmu codec nv = kept at run ⊢
  cases kept with
  | none =>
      cases run
      rfl
  | some list =>
      simp only at run ⊢
      split at run
      next present =>
        rw [if_pos present]
        split at run
        · cases run
        next removed =>
          cases run
          exact ⟨_, removed⟩
      next absent =>
        cases run
        rw [if_neg absent]
        rfl

theorem iotEmoDoUpdateEimEco_writes {above : Bool} {updateEimEco : EimConfigurationData} {answer : Int}
    (run : iotEmoDoUpdateEimEco codec nv above updateEimEco = .ok (nv', answer)) :
    Writes codec nv nv' ((EimOp.updateEim above updateEimEco).written codec nv) := by
  unfold iotEmoDoUpdateEimEco at run
  unfold EimOp.written
  generalize getEimCfgDataIotEmu codec nv = kept at run ⊢
  cases kept with
  | none => cases run
  | some list =>
      simp only at run ⊢
      split at run
      next present =>
        rw [if_pos present]
        split at run
        · cases run
        next updated =>
          cases run
          exact ⟨_, updated⟩
      next => cases run

theorem eimOp_writes {op : EimOp} {res : EimOpResult} (run : eimOp codec nv op = .ok (nv', res)) :
    Writes codec nv nv' (op.written codec nv) := by
  cases op with
  | addInitialEim req =>
      obtain ⟨⟨after, answer⟩, written, same⟩ := (map_eq_ok _ _ _).mp run
      cases same
      exact ⟨answer, written⟩
  | addEim addEimEco =>
      obtain ⟨⟨after, answer⟩, written, same⟩ := (map_eq_ok _ _ _).mp run
      cases same
      exact iotEmoDoAddEimEco_writes written
  | deleteEim eimId =>
      obtain ⟨⟨after, answer⟩, written, same⟩ := (map_eq_ok _ _ _).mp run
      cases same
      exact iotEmoDoDeleteEimEco_writes written
  | updateEim above updateEimEco =>
      obtain ⟨⟨after, answer⟩, written, same⟩ := (map_eq_ok _ _ _).mp run
      cases same
      exact iotEmoDoUpdateEimEco_writes written
  | listEim =>
      cases run
      rfl

/-- What an emulated AddInitialEim leaves behind, as far as tokens are concerned. -/
structure Counted (codec : EimCfgCodec) (nv nv' : IpaNvstate) (req : List EimConfigurationData)
    (answer : AddInitialEimResponse) : Prop where
  dup : codec.ipaAsn1cDup req = .ok (some req)
  counter : nv.iotEuiccEmu.associationTokenCounter.toInt ≤ nv'.iotEuiccEmu.associationTokenCounter.toInt
  tokens : ∀ token ∈ tokensGenerated nv.iotEuiccEmu.associationTokenCounter req,
    token ≤ nv'.iotEuiccEmu.associationTokenCounter.toInt
  accepted : (∀ cfg ∈ req, cfg.Complete) ↔ ∃ results, answer = .addInitialEimOk results
  stored : ∀ results, answer = .addInitialEimOk results →
    ∃ stored, getEimCfgDataIotEmu codec nv' = some stored ∧
      Completed nv.iotEuiccEmu.associationTokenCounter.toInt req stored

theorem addInitEimIotEmu_accepted (nonneg : 0 ≤ nv.iotEuiccEmu.associationTokenCounter.toInt)
    {req : List EimConfigurationData} {answer : AddInitialEimResponse}
    (run : addInitEimIotEmu codec nv req = .ok (nv', answer)) :
    (∀ cfg ∈ req, cfg.Complete) ↔ ∃ results, answer = .addInitialEimOk results := by
  have result := addInitEimIotEmu_addInitialEim codec nv nonneg req
  rw [run] at result
  cases result with
  | rejected _ _ _ _ _ incomplete => exact iff_of_false incomplete fun ⟨_, same⟩ => by cases same
  | accepted _ _ _ _ complete => exact iff_of_true complete ⟨_, rfl⟩

theorem addInitEimIotEmu_counted (nonneg : 0 ≤ nv.iotEuiccEmu.associationTokenCounter.toInt)
    {req : List EimConfigurationData} {answer : AddInitialEimResponse}
    (run : addInitEimIotEmu codec nv req = .ok (nv', answer)) : Counted codec nv nv' req answer := by
  have encodable := ((addInitEimIotEmu_ok_iff codec nv req).mp ⟨_, run⟩).encodable
  have dup := codec.ipaAsn1cDup_encodable encodable
  have accepted := addInitEimIotEmu_accepted nonneg run
  rw [addInitEimIotEmu, completeEimCfgList_encodable codec _ encodable] at run
  split at run
  · cases run
  next after completed done =>
    obtain ⟨low, each, stores⟩ := completeEimCfgs_counts _ after req completed done
    cases completed with
    | none =>
        cases run
        exact ⟨dup, low, each, accepted, fun _ same => by cases same⟩
    | some list =>
        simp only at run
        split at run
        · cases run
        · cases run
          exact ⟨dup, low, each, accepted, fun _ same => by cases same⟩
        next buf encoded =>
          cases run
          obtain ⟨storable, rfl⟩ := codec.encAddInitialEimRequest_some encoded
          refine ⟨dup, low, each, accepted, fun _ _ => ⟨list, ?_, (stores list rfl).1⟩⟩
          have patched : ({ codec.der list with data := (codec.der list).data.set 1 0x55 } : IpaBuf).bytes =
              (codec.der list).bytes.set 1 0x55 := List.take_set ..
          simp only [getEimCfgDataIotEmu, patched]
          exact codec.dec_der_patched list storable

end

end Ipad.EimCfg

namespace Ipad.Nvstate
open Lib.Except Ipad.EimCfg

section
variable (codec : EimCfgCodec)

def EmuEvent.written (event : EmuEvent) : Option (List EimConfigurationData) :=
  match event.op with
  | .eim op => op.written codec event.ctx.nvstate
  | _ => none

def EmuEvent.counter (event : EmuEvent) : Int32 := event.ctx.nvstate.iotEuiccEmu.associationTokenCounter

/-- The tokens that are generated during an operation. They are generated for the copy of the list, also where
a later entry of it is rejected. -/
def EmuEvent.tokens (event : EmuEvent) : List Int :=
  match (event.written codec).map codec.ipaAsn1cDup with
  | some (.ok (some copy)) => tokensGenerated event.counter copy
  | _ => []

/-- The tokens of an operation are new, and in no other entry of the list that it stores. -/
structure Fresh (event : EmuEvent) (earlier : List EmuEvent) : Prop where
  once : (event.tokens codec).Nodup
  unused : ∀ token ∈ event.tokens codec, ∀ other ∈ earlier, token ∉ other.tokens codec
  alone : ∀ req nv' results stored, event.written codec = some req →
    addInitEimIotEmu codec event.ctx.nvstate req = .ok (nv', .addInitialEimOk results) →
      getEimCfgDataIotEmu codec nv' = some stored → Alone req stored

/-- The history has the latest event first. -/
def AllFresh (h : List EmuEvent) : Prop :=
  ∀ later event earlier, h = later ++ event :: earlier → Fresh codec event earlier

/-- The list that is stored brings a token that the counter is about to reach. -/
def EmuEvent.Collides (event : EmuEvent) : Prop :=
  ∃ req, event.written codec = some req ∧ (∀ cfg ∈ req, cfg.Complete) ∧ Within event.counter.toInt req

/-- The contexts that operations and restarts lead to, with the events on the way. -/
inductive TokenRun : List EmuEvent → EmuCtx → Prop where
  | new : TokenRun [] .fresh
  | step (h : List EmuEvent) (ctx : EmuCtx) (before : TokenRun h ctx) (op : EmuOp) (ctx' : EmuCtx)
      (res : EmuRes) (run : emuOp codec ctx op = .ok (ctx', res)) : TokenRun (⟨ctx, op, res⟩ :: h) ctx'
  | restart (h : List EmuEvent) (ctx : EmuCtx) (before : TokenRun h ctx) (addresses : Addresses)
      (ctx' : EmuCtx) (run : restart addresses ctx = .ok ctx') : TokenRun h ctx'

/-! ## The counter stays above all tokens -/

theorem counter_restart {addresses : Addresses} {ctx ctx' : EmuCtx}
    (version : ctx.nvstate.version = ipaNvstateVersion) (run : restart addresses ctx = .ok ctx') :
    ctx'.nvstate.version = ipaNvstateVersion ∧
      ctx'.nvstate.iotEuiccEmu.associationTokenCounter = ctx.nvstate.iotEuiccEmu.associationTokenCounter := by
  obtain ⟨image, saved, loads⟩ := (bind_eq_ok _ _ _).mp run
  obtain ⟨loaded, read, rfl⟩ := (map_eq_ok _ _ _).mp loads
  simp only [ipaFreeCtx, nvstateSerialize, nvstateSerializeIpaBuf_ofBytes, bind, Except.bind, Except.ok.injEq,
    List.append_assoc] at saved
  subst saved
  have loaded := (nvstateDeserialize_eq_ok _ _).mp read
  generalize whole : nvstateBytes (ctx.nvstate.raw addresses) ++ _ = bytes at loaded
  have same (front rest : List UInt8) (length : front.length = sizeofNvstate) (split : bytes = front ++ rest) :
      readNvstate front = ctx.nvstate.raw addresses := by
    have fronts := (List.append_inj (whole.trans split) (by rw [length_nvstateBytes, length])).1
    rw [← fronts, readNvstate_nvstateBytes]
  cases loaded with
  | otherVersion front rest length other =>
      rw [same front rest length rfl] at other
      exact absurd version other
  | current front length found =>
      rw [same front _ length rfl] at found
      rw [same front _ length rfl]
      exact ⟨found, rfl⟩

/-- The counter is at least as high as every token generated so far. -/
structure Counts (h : List EmuEvent) (ctx : EmuCtx) : Prop where
  version : ctx.nvstate.version = ipaNvstateVersion
  nonneg : 0 ≤ ctx.nvstate.iotEuiccEmu.associationTokenCounter.toInt
  tokens : ∀ event ∈ h, ∀ token ∈ event.tokens codec,
    token ≤ ctx.nvstate.iotEuiccEmu.associationTokenCounter.toInt

variable {codec} {h : List EmuEvent} {ctx ctx' : EmuCtx}

theorem EmuEvent.tokens_written {event : EmuEvent} {req : List EimConfigurationData}
    (written : event.written codec = some req) (dup : codec.ipaAsn1cDup req = .ok (some req)) :
    event.tokens codec = tokensGenerated event.counter req := by
  rw [tokens, written, Option.map_some, dup]

theorem EmuEvent.tokens_not_written {event : EmuEvent} (written : event.written codec = none) :
    event.tokens codec = [] := by
  rw [tokens, written, Option.map_none]

/-- What an operation does to the counter, and the answer to the list that it writes. -/
structure Advances (codec : EimCfgCodec) (event : EmuEvent) (ctx' : EmuCtx) : Prop where
  version : ctx'.nvstate.version = event.ctx.nvstate.version
  counter : event.counter.toInt ≤ ctx'.nvstate.iotEuiccEmu.associationTokenCounter.toInt
  tokens : ∀ token ∈ event.tokens codec, token ≤ ctx'.nvstate.iotEuiccEmu.associationTokenCounter.toInt
  written : ∀ req, event.written codec = some req → ∃ answer,
    addInitEimIotEmu codec event.ctx.nvstate req = .ok (ctx'.nvstate, answer) ∧
      Counted codec event.ctx.nvstate ctx'.nvstate req answer

theorem Advances.quiet {event : EmuEvent} (written : event.written codec = none)
    (version : ctx'.nvstate.version = event.ctx.nvstate.version)
    (counter : ctx'.nvstate.iotEuiccEmu.associationTokenCounter = event.counter) : Advances codec event ctx' := by
  refine ⟨version, Int.le_of_eq (congrArg Int32.toInt counter.symm), ?_, fun req found => ?_⟩
  · rw [event.tokens_not_written written]
    exact fun _ member => absurd member List.not_mem_nil
  · rw [written] at found
    cases found

theorem emuOp_advances (nonneg : 0 ≤ ctx.nvstate.iotEuiccEmu.associationTokenCounter.toInt) {op : EmuOp}
    {res : EmuRes} (run : emuOp codec ctx op = .ok (ctx', res)) : Advances codec ⟨ctx, op, res⟩ ctx' := by
  cases op with
  | configureAutoEnable =>
      cases run
      exact .quiet rfl rfl rfl
  | euiccMemRst eimCfgData autoEnableCfg rc =>
      cases run
      cases eimCfgData <;> cases autoEnableCfg <;> exact .quiet rfl rfl rfl
  | getEimCfgData =>
      cases run
      exact .quiet rfl rfl rfl
  | loadBndPrflePkg answer =>
      cases run
      exact .quiet rfl rfl rfl
  | enableUsingDd card =>
      cases run
      exact .quiet rfl rfl rfl
  | eim op =>
      obtain ⟨⟨nv', answer⟩, done, same⟩ := (map_eq_ok _ _ _).mp run
      cases same
      have effect := eimOp_writes done
      cases written : op.written codec ctx.nvstate with
      | none =>
          rw [written] at effect
          subst effect
          exact .quiet written rfl rfl
      | some req =>
          rw [written] at effect
          obtain ⟨response, added⟩ := effect
          have counted := addInitEimIotEmu_counted nonneg added
          refine ⟨(addInitEimIotEmu_step codec _ _ req response added).version, counted.counter, ?_, ?_⟩
          · have here : EmuEvent.written codec ⟨ctx, .eim op, .eim answer⟩ = some req := written
            rw [EmuEvent.tokens_written here counted.dup]
            exact counted.tokens
          · intro other found
            cases written.symm.trans found
            exact ⟨response, added, counted⟩

theorem Advances.ascend {event : EmuEvent} (advances : Advances codec event ctx') :
    (∀ token ∈ event.tokens codec, event.counter.toInt < token) ∧ (event.tokens codec).Pairwise (· < ·) := by
  cases written : event.written codec with
  | none =>
      rw [event.tokens_not_written written]
      exact ⟨fun _ member => absurd member List.not_mem_nil, .nil⟩
  | some req =>
      obtain ⟨answer, added, counted⟩ := advances.written req written
      rw [event.tokens_written written counted.dup]
      exact tokensGenerated_ascend event.counter req

theorem TokenRun.counts (run : TokenRun codec h ctx) : Counts codec h ctx := by
  induction run with
  | new => exact ⟨rfl, Int.le_refl _, fun _ member => absurd member List.not_mem_nil⟩
  | step h ctx before op ctx' res run ih =>
      have advances := emuOp_advances ih.nonneg run
      refine ⟨advances.version.trans ih.version, Int.le_trans ih.nonneg advances.counter, ?_⟩
      rw [List.forall_mem_cons]
      exact ⟨advances.tokens, fun event member token among =>
        Int.le_trans (ih.tokens event member token among) advances.counter⟩
  | restart h ctx before addresses ctx' run ih =>
      obtain ⟨version, counter⟩ := counter_restart ih.version run
      refine ⟨version, ?_, ?_⟩
      · rw [counter]
        exact ih.nonneg
      · rw [counter]
        exact ih.tokens

/-! ## Freshness -/

theorem Advances.fresh_iff {event : EmuEvent} (advances : Advances codec event ctx')
    (counts : Counts codec h event.ctx) : Fresh codec event h ↔ ¬ event.Collides codec := by
  obtain ⟨above, ascend⟩ := advances.ascend
  constructor
  · rintro fresh ⟨req, written, complete, within⟩
    obtain ⟨answer, added, counted⟩ := advances.written req written
    obtain ⟨results, rfl⟩ := counted.accepted.mp complete
    obtain ⟨stored, kept, completed⟩ := counted.stored results rfl
    have alone := fresh.alone req _ results stored written added kept
    exact (completed.alone_iff complete counts.nonneg).mp alone within
  · intro clear
    refine ⟨ascend.imp Int.ne_of_lt, fun token member other earlier also => ?_, ?_⟩
    · have low := counts.tokens other earlier token also
      have high := above token member
      rw [EmuEvent.counter] at high
      omega
    · intro req nv' results stored written added kept
      obtain ⟨answer, same, counted⟩ := advances.written req written
      cases added.symm.trans same
      obtain ⟨other, found, completed⟩ := counted.stored results rfl
      cases kept.symm.trans found
      have complete := counted.accepted.mpr ⟨results, rfl⟩
      have iff := completed.alone_iff complete counts.nonneg
      exact iff.mpr fun within => clear ⟨req, written, complete, within⟩

theorem allFresh_cons (event : EmuEvent) : AllFresh codec (event :: h) ↔ Fresh codec event h ∧ AllFresh codec h := by
  constructor
  · exact fun all => ⟨all [] event h rfl, fun later other earlier split =>
      all (event :: later) other earlier (by rw [split, List.cons_append])⟩
  · rintro ⟨first, rest⟩ later other earlier split
    cases later with
    | nil =>
        obtain ⟨rfl, rfl⟩ := List.cons.inj split
        exact first
    | cons _ later =>
        obtain ⟨-, rfl⟩ := List.cons.inj split
        exact rest later other earlier rfl

/-- In every run all generated tokens are fresh exactly when no list that was stored brought a token that the
counter was about to reach. -/
theorem tokenRun_allFresh_iff (run : TokenRun codec h ctx) :
    AllFresh codec h ↔ ∀ event ∈ h, ¬ event.Collides codec := by
  induction run with
  | new =>
      refine iff_of_true (fun later event earlier split => ?_) fun _ member => absurd member List.not_mem_nil
      simp at split
  | step h ctx before op ctx' res run ih =>
      have fresh := (emuOp_advances before.counts.nonneg run).fresh_iff before.counts
      rw [allFresh_cons, List.forall_mem_cons, fresh, ih]
  | restart h ctx before addresses ctx' run ih => exact ih

end

/-! An entry that requests a token, and one that came back with its token before. -/

def requesting : EimConfigurationData := { someEim with eimId := [0x66], associationToken := some (-1) }

def exported : EimConfigurationData := { someEim with associationToken := some 1 }

def requestedAt (ctx : EmuCtx) : EmuEvent :=
  ⟨ctx, .eim (.addEim requesting), .eim (.addEim (.associationToken 1))⟩

def reimported : EmuEvent :=
  ⟨.fresh, .eim (.addInitialEim [exported]), .eim (.addInitialEim (.addInitialEimOk [some 1]))⟩

theorem requested_allFresh_iff :
    AllFresh derCodec [requestedAt .fresh] ↔ ∀ event ∈ [requestedAt .fresh], ¬ event.Collides derCodec :=
  tokenRun_allFresh_iff (.step [] .fresh .new _ _ _ rfl)

/-- Both entries have the token 1 in the end. -/
theorem reimported_not_allFresh :
    ∃ ctx ctx', TokenRun derCodec [requestedAt ctx, reimported] ctx' ∧
      ¬ AllFresh derCodec [requestedAt ctx, reimported] := by
  refine ⟨_, _, .step _ _ (.step _ _ .new _ _ _ rfl) _ _ _ rfl, fun fresh => ?_⟩
  have alone := (fresh [] _ _ rfl).alone _ _ _ _ rfl rfl rfl
  exact alone 1 0 requesting _ _ (by decide) rfl rfl rfl rfl rfl

end Ipad.Nvstate
