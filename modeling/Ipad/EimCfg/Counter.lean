import Ipad.EimCfg.Store

/-!
# The counter rule of updateEim

Whether an update raises the counter value must not depend on where the two values lie in memory.
-/

namespace Ipad.EimCfg
open Lib.KeyedList Lib.Except Ipad.Nvstate

section
variable (codec : EimCfgCodec)

def counterValue (nv : IpaNvstate) (eimId : List UInt8) : Option Int :=
  ((storedList codec nv).find? fun cfg => cfg.eimId = eimId).bind EimConfigurationData.counterValue

/-- The counter value that an update of `c` has to leave. -/
def ruledCounter (updateEimEco : EimConfigurationData) (c : Int) : Int :=
  match updateEimEco.counterValue with
  | none => c
  | some v => if c ≤ v ∨ updateEimEco.eimPublicKeyData ≠ none then v else c

structure CounterRule (nv : IpaNvstate) (updateEimEco : EimConfigurationData) : Prop where
  stored : ∀ c, counterValue codec nv updateEimEco.eimId = some c → ∀ above, ∃ nv' res,
    iotEmoDoUpdateEimEco codec nv above updateEimEco = .ok (nv', res) ∧
      counterValue codec nv' updateEimEco.eimId = some (ruledCounter updateEimEco c)
  placement : iotEmoDoUpdateEimEco codec nv true updateEimEco = iotEmoDoUpdateEimEco codec nv false updateEimEco

inductive Updates : IpaNvstate → List EimConfigurationData → IpaNvstate → Prop where
  | nil (nv : IpaNvstate) : Updates nv [] nv
  | cons {nv nv' nv'' : IpaNvstate} {updateEimEco : EimConfigurationData} {rest : List EimConfigurationData}
      {res : Int} (above : Bool) (run : iotEmoDoUpdateEimEco codec nv above updateEimEco = .ok (nv', res))
      (updates : Updates nv' rest nv'') : Updates nv (updateEimEco :: rest) nv''

/-- Every update of a sequence obeys the rule, and without a new key no counter value decreases. -/
structure CounterLaw (nv : IpaNvstate) (requests : List EimConfigurationData) : Prop where
  rule : ∀ front updateEimEco back, requests = front ++ updateEimEco :: back → ∀ nv', Updates codec nv front nv' →
    CounterRule codec nv' updateEimEco
  neverLess : (∀ updateEimEco ∈ requests, updateEimEco.eimPublicKeyData = none) → ∀ nv',
    Updates codec nv requests nv' → ∀ eimId c, counterValue codec nv eimId = some c →
      ∃ c', counterValue codec nv' eimId = some c' ∧ c ≤ c'

/-- Nothing is left to the placement: no counter value is requested, or it comes with a key, or it is the
one that is stored. -/
structure Placed (nv : IpaNvstate) (updateEimEco : EimConfigurationData) : Prop where
  encodable : updateEimEco.MembersEncodable
  counterValue : updateEimEco.counterValue = none ∨ updateEimEco.eimPublicKeyData ≠ none ∨
    updateEimEco.counterValue = counterValue codec nv updateEimEco.eimId

def AllPlaced (nv : IpaNvstate) (requests : List EimConfigurationData) : Prop :=
  ∀ front updateEimEco back, requests = front ++ updateEimEco :: back → ∀ nv', Updates codec nv front nv' →
    Placed codec nv' updateEimEco

end

/-! ## One update -/

theorem updateEimItem_counterValue (above : Bool) (updateEimEco item : EimConfigurationData) :
    (updateEimItem above updateEimEco item).counterValue =
      if above = true ∨ updateEimEco.eimPublicKeyData ≠ none then
        updateEimEco.counterValue.or item.counterValue
      else item.counterValue := by
  unfold updateEimItem
  cases updateEimEco.counterValue <;> cases above <;> cases updateEimEco.eimPublicKeyData <;> simp

theorem updateEimItem_placed (updateEimEco item : EimConfigurationData)
    (placed : updateEimEco.counterValue = none ∨ updateEimEco.eimPublicKeyData ≠ none ∨
      updateEimEco.counterValue = item.counterValue) :
    updateEimItem true updateEimEco item = updateEimItem false updateEimEco item := by
  have counters : (updateEimItem true updateEimEco item).counterValue =
      (updateEimItem false updateEimEco item).counterValue := by
    rw [updateEimItem_counterValue, updateEimItem_counterValue, if_pos (.inl rfl)]
    rcases placed with none | key | same
    · rw [none, Option.none_or, ite_self]
    · rw [if_pos (.inr key)]
    · rw [same, Option.or_self, ite_self]
  exact congrArg (fun counterValue => { updateEimItem true updateEimEco item with counterValue }) counters

theorem le_ruledCounter (updateEimEco : EimConfigurationData) (noKey : updateEimEco.eimPublicKeyData = none)
    (c : Int) : c ≤ ruledCounter updateEimEco c := by
  unfold ruledCounter
  split
  · exact Int.le_refl c
  · split
    next allowed => exact allowed.resolve_right fun key => key noKey
    · exact Int.le_refl c

section
variable {codec : EimCfgCodec} {nv : IpaNvstate} {list : List EimConfigurationData}

theorem counterValue_written (written : Written codec nv list) (eimId : List UInt8) :
    counterValue codec nv eimId =
      (list.find? fun cfg => cfg.eimId = eimId).bind EimConfigurationData.counterValue := by
  rw [counterValue, storedList, written.stored, Option.getD_some]

theorem find?_of_present {eimId : List UInt8} (present : eimId ∈ list.map EimConfigurationData.eimId) :
    ∃ item, (list.find? fun cfg => cfg.eimId = eimId) = some item := by
  obtain ⟨cfg, member, same⟩ := List.mem_map.mp present
  exact Option.isSome_iff_exists.mp (List.find?_isSome.mpr ⟨cfg, member, decide_eq_true same⟩)

theorem counterValue_of_present (written : Written codec nv list) {eimId : List UInt8}
    (present : eimId ∈ list.map EimConfigurationData.eimId) : ∃ c, counterValue codec nv eimId = some c := by
  obtain ⟨item, found⟩ := find?_of_present present
  obtain ⟨c, value⟩ :=
    Option.ne_none_iff_exists'.mp (written.complete item (List.mem_of_find?_eq_some found)).2
  exact ⟨c, by rw [counterValue_written written, found, Option.bind_some, value]⟩

variable {after : IpaNvstate} {above : Bool} {updateEimEco : EimConfigurationData}

theorem find?_updateEim (above : Bool) (updateEimEco : EimConfigurationData) (list : List EimConfigurationData)
    (eimId : List UInt8) :
    (updateKey EimConfigurationData.eimId updateEimEco.eimId (updateEimItem above updateEimEco) list).find?
        (fun cfg => cfg.eimId = eimId) =
      if eimId = updateEimEco.eimId then
        (list.find? fun cfg => cfg.eimId = eimId).map (updateEimItem above updateEimEco)
      else list.find? fun cfg => cfg.eimId = eimId :=
  find?_updateKey EimConfigurationData.eimId updateEimEco.eimId eimId (updateEimItem above updateEimEco)
    (fun _ => rfl) list

theorem iotEmoDoUpdateEimEco_ok (written : Written codec nv list) {nv' : IpaNvstate} {res : Int}
    (run : iotEmoDoUpdateEimEco codec nv above updateEimEco = .ok (nv', res)) :
    updateEimEco.eimId ∈ list.map EimConfigurationData.eimId ∧ updateEimEco.MembersEncodable := by
  obtain ⟨_, read, present, writable⟩ := (iotEmoDoUpdateEimEco_ok_iff above updateEimEco).mp ⟨_, run⟩
  obtain rfl := Option.some_inj.mp (written.stored.symm.trans read)
  obtain ⟨item, found⟩ := find?_of_present present
  have updated := find?_updateEim above updateEimEco list updateEimEco.eimId
  rw [if_pos rfl, found, Option.map_some] at updated
  have encodable := writable.encodable _ (List.mem_of_find?_eq_some updated)
  exact ⟨present, (updateEimItem_encodable_iff above updateEimEco item
    (written.encodable item (List.mem_of_find?_eq_some found))).mp encodable⟩

theorem counterValue_updated (written : Written codec nv list)
    (still : Written codec after
      (updateKey EimConfigurationData.eimId updateEimEco.eimId (updateEimItem above updateEimEco) list))
    {c : Int} (value : counterValue codec nv updateEimEco.eimId = some c) :
    counterValue codec after updateEimEco.eimId =
      if above = true ∨ updateEimEco.eimPublicKeyData ≠ none then updateEimEco.counterValue.or (some c)
      else some c := by
  rw [counterValue_written written] at value
  obtain ⟨item, found, same⟩ := Option.bind_eq_some_iff.mp value
  rw [counterValue_written still, find?_updateEim, if_pos rfl, found, Option.map_some, Option.bind_some,
    updateEimItem_counterValue, same]

theorem counterValue_other (written : Written codec nv list)
    (still : Written codec after
      (updateKey EimConfigurationData.eimId updateEimEco.eimId (updateEimItem above updateEimEco) list))
    {eimId : List UInt8} (apart : eimId ≠ updateEimEco.eimId) :
    counterValue codec after eimId = counterValue codec nv eimId := by
  rw [counterValue_written still, counterValue_written written, find?_updateEim, if_neg apart]

theorem counterRule_iff (written : Written codec nv list)
    (present : updateEimEco.eimId ∈ list.map EimConfigurationData.eimId) :
    CounterRule codec nv updateEimEco ↔ Placed codec nv updateEimEco := by
  obtain ⟨c, value⟩ := counterValue_of_present written present
  constructor
  · intro rule
    have encodable : updateEimEco.MembersEncodable := by
      obtain ⟨nv', res, run, -⟩ := rule.stored c value true
      exact (iotEmoDoUpdateEimEco_ok written run).2
    have either (above : Bool) : (if above = true ∨ updateEimEco.eimPublicKeyData ≠ none then
        updateEimEco.counterValue.or (some c) else some c) = some (ruledCounter updateEimEco c) := by
      obtain ⟨nv', res, run, stored⟩ := rule.stored c value above
      obtain ⟨after, done, still⟩ := iotEmoDoUpdateEimEco_rewrites written above updateEimEco present encodable
      rw [done] at run
      cases run
      exact (counterValue_updated written still value).symm.trans stored
    refine ⟨encodable, ?_⟩
    by_contra placed
    simp only [not_or, value] at placed
    obtain ⟨requested, noKey, other⟩ := placed
    -- the two placements leave different values
    have both := (either true).trans (either false).symm
    rw [if_pos (.inl rfl), if_neg (by simpa using noKey),
      Option.or_of_isSome (Option.isSome_iff_ne_none.mpr requested)] at both
    exact other both
  · rintro ⟨encodable, placed⟩
    rw [value] at placed
    constructor
    · intro c' value' above
      obtain rfl := Option.some_inj.mp (value.symm.trans value')
      obtain ⟨after, done, still⟩ := iotEmoDoUpdateEimEco_rewrites written above updateEimEco present encodable
      refine ⟨after, _, done, (counterValue_updated written still value).trans ?_⟩
      unfold ruledCounter
      rcases placed with none | key | same
      · rw [none, Option.none_or, ite_self]
      · rw [if_pos (.inr key)]
        cases updateEimEco.counterValue with
        | none => rfl
        | some v =>
            rw [Option.some_or]
            simp only [key, ne_eq, not_false_eq_true, or_true, if_true]
      · rw [same, Option.some_or, ite_self]
        simp only [Int.le_refl, true_or, if_true]
    · have same : updateKey EimConfigurationData.eimId updateEimEco.eimId (updateEimItem true updateEimEco) list =
          updateKey EimConfigurationData.eimId updateEimEco.eimId (updateEimItem false updateEimEco) list := by
        refine updateKey_congr EimConfigurationData.eimId _ _ _ _ fun item found => ?_
        apply updateEimItem_placed
        rw [counterValue_written written, found, Option.bind_some] at value
        rw [value]
        exact placed
      rw [iotEmoDoUpdateEimEco, iotEmoDoUpdateEimEco, written.stored]
      simp only [same]

/-! ## Sequences of updates -/

theorem Updates.written {requests : List EimConfigurationData} {nv' : IpaNvstate}
    (updates : Updates codec nv requests nv') (written : Written codec nv list) :
    ∃ list', Written codec nv' list' ∧
      list'.map EimConfigurationData.eimId = list.map EimConfigurationData.eimId := by
  induction updates generalizing list with
  | nil nv => exact ⟨list, written, rfl⟩
  | @cons nv mid nv' updateEimEco rest res above run updates ih =>
      obtain ⟨present, encodable⟩ := iotEmoDoUpdateEimEco_ok written run
      obtain ⟨after, done, still⟩ := iotEmoDoUpdateEimEco_rewrites written above updateEimEco present encodable
      rw [done] at run
      cases run
      obtain ⟨list', last, same⟩ := ih still
      have keys := map_key_updateKey EimConfigurationData.eimId updateEimEco.eimId
        (updateEimItem above updateEimEco) (fun _ => rfl) list
      exact ⟨list', last, same.trans keys⟩

theorem Updates.counterValue_le {requests : List EimConfigurationData} {nv' : IpaNvstate}
    (updates : Updates codec nv requests nv') (written : Written codec nv list)
    (rule : ∀ front updateEimEco back, requests = front ++ updateEimEco :: back → ∀ nv', Updates codec nv front nv' →
      CounterRule codec nv' updateEimEco)
    (noKeys : ∀ updateEimEco ∈ requests, updateEimEco.eimPublicKeyData = none) (eimId : List UInt8) (c : Int)
    (value : counterValue codec nv eimId = some c) :
    ∃ c', counterValue codec nv' eimId = some c' ∧ c ≤ c' := by
  induction updates generalizing list c with
  | nil nv => exact ⟨c, value, Int.le_refl c⟩
  | @cons nv mid nv' updateEimEco rest res above run updates ih =>
      rw [List.forall_mem_cons] at noKeys
      obtain ⟨present, encodable⟩ := iotEmoDoUpdateEimEco_ok written run
      obtain ⟨after, done, still⟩ := iotEmoDoUpdateEimEco_rewrites written above updateEimEco present encodable
      obtain ⟨d, next, grown⟩ : ∃ d, counterValue codec mid eimId = some d ∧ c ≤ d := by
        by_cases here : eimId = updateEimEco.eimId
        · subst here
          obtain ⟨_, _, ruled, stored⟩ := (rule [] updateEimEco rest rfl nv (.nil nv)).stored c value above
          rw [ruled] at run
          cases run
          exact ⟨_, stored, le_ruledCounter updateEimEco noKeys.1 c⟩
        · rw [done] at run
          cases run
          exact ⟨c, (counterValue_other written still here).trans value, Int.le_refl c⟩
      rw [done] at run
      cases run
      obtain ⟨c', last, le⟩ := ih still (fun front request back split nv' before =>
        rule (updateEimEco :: front) request back (by rw [split, List.cons_append]) nv' (.cons above done before))
        noKeys.2 d next
      exact ⟨c', last, Int.le_trans grown le⟩

theorem counterLaw_iff (written : Written codec nv list) (requests : List EimConfigurationData)
    (present : ∀ updateEimEco ∈ requests, updateEimEco.eimId ∈ list.map EimConfigurationData.eimId) :
    CounterLaw codec nv requests ↔ AllPlaced codec nv requests := by
  have each (front : List EimConfigurationData) (updateEimEco : EimConfigurationData)
      (back : List EimConfigurationData) (split : requests = front ++ updateEimEco :: back) (nv' : IpaNvstate)
      (updates : Updates codec nv front nv') :
      CounterRule codec nv' updateEimEco ↔ Placed codec nv' updateEimEco := by
    obtain ⟨list', still, same⟩ := updates.written written
    apply counterRule_iff still
    rw [same]
    exact present updateEimEco (by rw [split]; simp)
  constructor
  · intro law front updateEimEco back split nv' updates
    exact (each front updateEimEco back split nv' updates).mp (law.rule front updateEimEco back split nv' updates)
  · intro placed
    have rule := fun front updateEimEco back split nv' updates =>
      (each front updateEimEco back split nv' updates).mpr (placed front updateEimEco back split nv' updates)
    exact ⟨rule, fun noKeys nv' updates => updates.counterValue_le written rule noKeys⟩

end

/-! ## The stored configurations -/

theorem written_fresh (codec : EimCfgCodec) : Written codec .fresh [] := by
  refine ⟨codec.dec_empty, ?_, ?_, ?_, by decide⟩
  · exact fun _ member => absurd member List.not_mem_nil
  · exact fun _ member => absurd member List.not_mem_nil
  · exact fun _ member => absurd member List.not_mem_nil

/-- Every operation that returns leaves a configuration as AddInitialEim does. -/
theorem Written.eimOp {codec : EimCfgCodec} {nv nv' : IpaNvstate} {list : List EimConfigurationData}
    (written : Written codec nv list) (op : EimOp) (res : EimOpResult)
    (run : eimOp codec nv op = .ok (nv', res)) : ∃ list', Written codec nv' list' := by
  cases op with
  | addInitialEim req =>
      obtain ⟨⟨after, answer⟩, added, same⟩ := (map_eq_ok _ _ _).mp run
      cases same
      exact written.addInitialEim req _ answer added
  | addEim addEimEco =>
      obtain ⟨⟨after, answer⟩, added, same⟩ := (map_eq_ok _ _ _).mp run
      cases same
      rw [iotEmoDoAddEimEco, written.stored] at added
      simp only at added
      split at added
      · cases added
        exact ⟨list, written⟩
      · split at added
        next => cases added
        next after _ initial =>
          cases added
          exact written.addInitialEim _ _ _ initial
        next after results initial =>
          obtain ⟨list', still⟩ := written.addInitialEim _ _ _ initial
          split at added <;> cases added
          · exact ⟨list', still⟩
          · exact ⟨list', still⟩
  | deleteEim eimId =>
      obtain ⟨⟨after, answer⟩, deleted, same⟩ := (map_eq_ok _ _ _).mp run
      cases same
      rw [iotEmoDoDeleteEimEco, written.stored] at deleted
      simp only at deleted
      split at deleted
      · split at deleted
        next => cases deleted
        next after initial =>
          cases deleted
          exact written.addInitialEim _ _ _ initial
      · cases deleted
        exact ⟨list, written⟩
  | updateEim above updateEimEco =>
      obtain ⟨⟨after, answer⟩, updated, same⟩ := (map_eq_ok _ _ _).mp run
      cases same
      obtain ⟨present, encodable⟩ := iotEmoDoUpdateEimEco_ok written updated
      obtain ⟨after', done, still⟩ := iotEmoDoUpdateEimEco_rewrites written above updateEimEco present encodable
      rw [done] at updated
      cases updated
      exact ⟨_, still⟩
  | listEim =>
      cases run
      exact ⟨list, written⟩

def someNvstate : IpaNvstate :=
  { IpaNvstate.fresh with
    iotEuiccEmu :=
      { IpaNvstate.fresh.iotEuiccEmu with
        eimCfgBer := some (encodedBuf (derEimCfgList [0xBF, 0x55] [someEim])) } }

theorem someNvstate_written : Written derCodec someNvstate [someEim] := by
  refine ⟨?_, by decide, by decide, by decide, by decide⟩
  have read := readEimCfgList_derEimCfgList [0xBF, 0x55] (.two _ _ (by decide)) [someEim] (by decide)
  rw [← encodedBuf_bytes (derEimCfgList [0xBF, 0x55] [someEim])] at read
  exact read

theorem counterLaw_renamed : CounterLaw derCodec someNvstate [{ someEim with eimFqdn := some (.octets [0x62]) }] := by
  refine (counterLaw_iff someNvstate_written _ (by decide)).mpr fun front updateEimEco back split nv' updates => ?_
  cases front with
  | nil =>
      cases split
      cases updates
      refine ⟨by decide, .inr (.inr ?_)⟩
      rw [counterValue_written someNvstate_written]
      rfl
  | cons request front => cases front <;> cases split

/-- The request lies above the stored entry, and takes its counter value from 1 back to 0. -/
theorem not_counterLaw : ¬ CounterLaw derCodec someNvstate [{ someEim with counterValue := some 0 }] := by
  intro law
  have value : counterValue derCodec someNvstate someEim.eimId = some 1 := by
    rw [counterValue_written someNvstate_written]
    rfl
  obtain ⟨after, done, still⟩ := iotEmoDoUpdateEimEco_rewrites someNvstate_written true
    { someEim with counterValue := some 0 } (by decide) (by decide)
  obtain ⟨c', last, le⟩ := law.neverLess (by decide) after (.cons true done (.nil after)) someEim.eimId 1 value
  rw [counterValue_written still] at last
  cases last
  exact absurd le (by decide)

end Ipad.EimCfg
