import Tabi.Rpc.Contexts
import Tabi.Rpc.Percentiles
import Tabi.Support.Casts
import Tabi.Support.Skips

/-!
# Rpc — the fee history

`FeeHistory` (`evmrpc/info.go`) goes through consecutive blocks and appends, for each, to three
lists: the gas used ratio, the base fee and the rewards.
-/

namespace Tabi.Rpc

open Support Fallible
open Synthetic (Receipt)

/-- `FeeHistoryResult`; without an oldest block it is nil. -/
structure FeeHistoryResult where
  oldestBlock : Option Int64 := none
  reward : List (List ℤ) := []
  baseFee : List ℤ := []
  gasUsedRatio : List Float := []

def gasUsedRatio : Float := 0.5

/-- `InfoAPI`; after the latest height and the first one another can follow. -/
structure InfoAPI extends HeightNode where
  maxBlocks : Int64
  current_lt : toHeightNode.currentHeight < Int64.maxValue
  genesis_lt : ∀ {genesisHeight}, genesis = .ok genesisHeight → genesisHeight < Int64.maxValue

namespace InfoAPI

variable (api : InfoAPI)

def thresholdGasUsed (totalEVMGasUsed : UInt64) (p : Float) : UInt64 :=
  (totalEVMGasUsed.toFloat * p / 100).toUInt64

def addReward (block : ResultBlock) (baseFee : ℤ) (acc : List GasAndReward × UInt64)
    (txbz : Bytes) : Outcome (List GasAndReward × UInt64) := do
  match ← getEthTxForTxBz (api.decoder block) txbz with
  | none => return acc
  | some ethtx =>
    match api.getReceipt (api.ethHash ethtx) with
    | .error _ => return acc
    | .ok receipt =>
      if receipt.blockNumber ≠ block.height.toUInt64 then return acc
      else if (receipt.effectiveGasPrice.toNat : ℤ) < baseFee then return acc
      else return (acc.1 ++ [⟨receipt.gasUsed, receipt.effectiveGasPrice.toNat - baseFee⟩],
        acc.2 + receipt.gasUsed)

def getRewards (block : ResultBlock) (baseFee : ℤ) (rewardPercentiles : List Float) :
    Outcome (List ℤ) := do
  let (gasAndRewards, totalEVMGasUsed) ← block.txs.foldlM (api.addReward block baseFee) ([], 0)
  return calculatePercentiles thresholdGasUsed rewardPercentiles gasAndRewards totalEVMGasUsed

def safeGetBaseFee (targetHeight : Int64) : Option ℤ :=
  (api.ctx targetHeight).baseFeePerGas.toOption

def validPercentiles : Option Float → List Float → Bool
  | _, [] => true
  | previous, p :: ps =>
    !(decide (p < 0) || decide (p > 100) || previous.any fun q => decide (p ≤ q)) &&
      validPercentiles (some p) ps

def cappedCount (blockCount : UInt64) : UInt64 :=
  if blockCount > api.maxBlocks.toUInt64 then api.maxBlocks.toUInt64 else blockCount

/-- `lastBlockNumber`: what the last block is resolved to. -/
def lastBlockNumber (genesisHeight : Int64) : BlockNumber → Int64
  | .safe | .finalized | .latest | .pending => api.currentHeight
  | .earliest => genesisHeight
  | .number n => if n > api.currentHeight then api.currentHeight else n

def oldestBlock (genesisHeight lastBlockNumber : Int64) (blockCount : UInt64) : Int64 :=
  if (lastBlockNumber - genesisHeight).toUInt64 < blockCount then genesisHeight
  else lastBlockNumber - blockCount.toInt64 + 1

def span (oldest last : Int64) : ℕ := (last.toInt - oldest.toInt + 1).toNat

def heights (oldest last : Int64) : List Int64 :=
  (List.range (span oldest last)).map fun i => oldest + Int64.ofNat i

def feeStep (rewardPercentiles : List Float) (result : FeeHistoryResult) (blockNum : Int64) :
    Outcome FeeHistoryResult :=
  match checkVersion (api.ctx blockNum) with
  | .error _ => .ok result
  | .ok _ =>
    let result := { result with gasUsedRatio := result.gasUsedRatio ++ [gasUsedRatio] }
    match api.safeGetBaseFee blockNum with
    | none => .ok result
    | some baseFee =>
      let result := { result with baseFee := result.baseFee ++ [baseFee] }
      match api.blockByNumber blockNum with
      | .error _ => .ok result
      | .ok block => do
        let rewards ← api.getRewards block baseFee rewardPercentiles
        return { result with reward := result.reward ++ [rewards] }

def feeHistory (blockCount : UInt64) (lastBlock : BlockNumber) (rewardPercentiles : List Float) :
    Fallible FeeHistoryResult :=
  if blockCount < 1 then .ok {}
  else do
    let blockCount := api.cappedCount blockCount
    require (rewardPercentiles.length ≤ 100)
      "rewardPercentiles length must be less than or equal to 100"
    require (validPercentiles none rewardPercentiles = true)
      "invalid reward percentiles: must be ascending and between 0 and 100"
    let genesisHeight ← ofErr api.genesis
    let last := api.lastBlockNumber genesisHeight lastBlock
    require (genesisHeight ≤ last) "requested last block is before genesis height"
    let oldest := oldestBlock genesisHeight last blockCount
    ofOutcome ((heights oldest last).foldlM (api.feeStep rewardPercentiles)
      { oldestBlock := some oldest })

def ratioIn (ctx : QueryContext) : Option Float :=
  if (checkVersion ctx).isOk then some gasUsedRatio else none

def baseFeeIn (ctx : QueryContext) : Option ℤ :=
  if (checkVersion ctx).isOk then ctx.baseFeePerGas.toOption else none

def rewardsIn (rewardPercentiles : List Float) (height : Int64) (ctx : QueryContext) :
    Option (List ℤ) :=
  match baseFeeIn ctx, api.blockByNumber height with
  | some baseFee, .ok block =>
    some ((api.getRewards block baseFee rewardPercentiles).toOption.getD [])
  | _, _ => none

variable {api}

variable {ps : List Float} {result : FeeHistoryResult}

theorem feeStep_eq_ok {result' : FeeHistoryResult} {blockNum : Int64}
    (h : api.feeStep ps result blockNum = .ok result') :
    result'.oldestBlock = result.oldestBlock ∧
      result'.gasUsedRatio = result.gasUsedRatio ++ (ratioIn (api.ctx blockNum)).toList ∧
      result'.baseFee = result.baseFee ++ (baseFeeIn (api.ctx blockNum)).toList ∧
      result'.reward = result.reward ++ (api.rewardsIn ps blockNum (api.ctx blockNum)).toList := by
  unfold feeStep at h
  unfold rewardsIn baseFeeIn ratioIn
  cases hversion : checkVersion (api.ctx blockNum) with
  | error e =>
    rw [hversion] at h
    cases h
    simp [Except.isOk, Except.toBool]
  | ok u =>
    rw [hversion] at h
    unfold safeGetBaseFee at h
    cases hfee : (api.ctx blockNum).baseFeePerGas.toOption with
    | none =>
      rw [hfee] at h
      cases h
      simp [Except.isOk, Except.toBool]
    | some baseFee =>
      rw [hfee] at h
      cases hblock : api.blockByNumber blockNum with
      | error e =>
        simp only [hblock] at h
        cases h
        simp [Except.isOk, Except.toBool]
      | ok block =>
        simp only [hblock] at h
        obtain ⟨rewards, hrewards, h⟩ := bind_eq_ok.mp h
        cases h
        simp [Except.isOk, Except.toBool, hrewards, Except.toOption]

theorem foldl_kept {β : Type} (column : Int64 → Option β) (height : ℕ → Int64) (n : ℕ) :
    ((List.range n).map height).foldl (fun acc h => acc ++ (column h).toList) [] =
      kept (fun i => column (height i)) n := by
  induction n with
  | zero => rfl
  | succ n ih =>
    rw [List.range_succ, List.map_append, List.foldl_append, ih, kept_succ]
    rfl

theorem foldlM_feeStep {oldest last : Int64}
    (h : (heights oldest last).foldlM (api.feeStep ps)
    { oldestBlock := some oldest } = .ok result) :
    result.oldestBlock = some oldest ∧
      result.gasUsedRatio =
        kept (fun i => ratioIn (api.ctx (oldest + Int64.ofNat i))) (span oldest last) ∧
      result.baseFee =
        kept (fun i => baseFeeIn (api.ctx (oldest + Int64.ofNat i))) (span oldest last) ∧
      result.reward =
        kept (fun i => api.rewardsIn ps (oldest + Int64.ofNat i)
          (api.ctx (oldest + Int64.ofNat i))) (span oldest last) := by
  refine ⟨?_, ?_, ?_, ?_⟩
  · have hconst := foldlM_obs FeeHistoryResult.oldestBlock (fun o _ => o)
      (fun hstep => (feeStep_eq_ok hstep).1) h
    rw [hconst, List.foldl_fixed]
  · rw [← foldl_kept (fun h => ratioIn (api.ctx h))]
    exact foldlM_obs FeeHistoryResult.gasUsedRatio _
      (fun hstep => (feeStep_eq_ok hstep).2.1) h
  · rw [← foldl_kept (fun h => baseFeeIn (api.ctx h))]
    exact foldlM_obs FeeHistoryResult.baseFee _
      (fun hstep => (feeStep_eq_ok hstep).2.2.1) h
  · rw [← foldl_kept (fun h => api.rewardsIn ps h (api.ctx h))]
    exact foldlM_obs FeeHistoryResult.reward _
      (fun hstep => (feeStep_eq_ok hstep).2.2.2) h

theorem lastBlockNumber_lt {genesisHeight : Int64} (hgenesis : api.genesis = .ok genesisHeight)
    (lastBlock : BlockNumber) : api.lastBlockNumber genesisHeight lastBlock < Int64.maxValue := by
  cases lastBlock with
  | safe => exact api.current_lt
  | finalized => exact api.current_lt
  | latest => exact api.current_lt
  | pending => exact api.current_lt
  | earliest => exact api.genesis_lt hgenesis
  | number n =>
    rw [lastBlockNumber]
    split
    · exact api.current_lt
    · rename_i hle
      exact Int64.lt_of_le_of_lt (Int64.not_lt.mp hle) api.current_lt

theorem oldestBlock_bounds {genesisHeight last : Int64} {count : UInt64}
    (hle : genesisHeight ≤ last) (hlt : last < Int64.maxValue) :
    genesisHeight.toInt ≤ (oldestBlock genesisHeight last count).toInt ∧
      last.toInt - (oldestBlock genesisHeight last count).toInt + 1 ≤ count.toNat := by
  have hdistance := toNat_toUInt64_sub hle
  rw [Int64.le_iff_toInt_le] at hle
  unfold oldestBlock
  split
  · rename_i hcount
    rw [UInt64.lt_iff_toNat_lt] at hcount
    omega
  · rename_i hcount
    rw [UInt64.lt_iff_toNat_lt] at hcount
    rw [toInt_sub_toInt64_add_one (m := genesisHeight) (by omega) hlt]
    omega

theorem feeHistory_eq_ok {blockCount : UInt64} {lastBlock : BlockNumber}
    (h : api.feeHistory blockCount lastBlock ps = .ok result) :
    blockCount < 1 ∧ result = {} ∨
      ∃ genesisHeight, api.genesis = .ok genesisHeight ∧
        genesisHeight ≤ api.lastBlockNumber genesisHeight lastBlock ∧
        (heights (oldestBlock genesisHeight (api.lastBlockNumber genesisHeight lastBlock)
            (api.cappedCount blockCount)) (api.lastBlockNumber genesisHeight lastBlock)).foldlM
          (api.feeStep ps) { oldestBlock := some (oldestBlock genesisHeight
            (api.lastBlockNumber genesisHeight lastBlock) (api.cappedCount blockCount)) } =
          .ok result := by
  unfold feeHistory at h
  split at h
  · rename_i hnone
    cases h
    exact .inl ⟨hnone, rfl⟩
  · obtain ⟨_, -, h⟩ := bind_eq_ok.mp h
    obtain ⟨_, -, h⟩ := bind_eq_ok.mp h
    obtain ⟨genesisHeight, hgenesis, h⟩ := bind_eq_ok.mp h
    obtain ⟨_, hle, h⟩ := bind_eq_ok.mp h
    exact .inr ⟨genesisHeight, mapError_eq_ok.mp hgenesis, require_eq_ok.mp hle,
      ofOutcome_eq_ok.mp h⟩

variable (api)

def ratioOf (height : Int64) : Option Float := (api.contexts.ofHeight height).bind ratioIn

def baseFeeOf (height : Int64) : Option ℤ := (api.contexts.ofHeight height).bind baseFeeIn

def rewardsOf (ps : List Float) (height : Int64) : Option (List ℤ) :=
  (api.contexts.ofHeight height).bind (api.rewardsIn ps height)

structure Aligned (ps : List Float) (oldest : Int64) (result : FeeHistoryResult) : Prop where
  gasUsedRatio : ∀ i v, result.gasUsedRatio[i]? = some v →
    api.ratioOf (oldest + Int64.ofNat i) = some v
  baseFee : ∀ i v, result.baseFee[i]? = some v → api.baseFeeOf (oldest + Int64.ofNat i) = some v
  reward : ∀ i v, result.reward[i]? = some v → api.rewardsOf ps (oldest + Int64.ofNat i) = some v

def HasState (height : Int64) : Prop := (checkVersion (api.ctx height)).isOk = true

def HasFee (height : Int64) : Prop :=
  api.HasState height ∧ (api.ctx height).baseFeePerGas.isOk = true

def HasBlock (height : Int64) : Prop :=
  api.HasFee height ∧ (api.blockByNumber height).isOk = true

/-- No height from the oldest to the last is skipped before one that is not, for any of the three
lists; and none that is not is read in a context of another height. -/
structure Unbroken (oldest last : Int64) : Prop where
  own : ∀ i < span oldest last, api.HasState (oldest + Int64.ofNat i) →
    (api.contexts.ofHeight (oldest + Int64.ofNat i)).isSome
  states : ∀ i j, i < j → j < span oldest last → api.HasState (oldest + Int64.ofNat j) →
    api.HasState (oldest + Int64.ofNat i)
  fees : ∀ i j, i < j → j < span oldest last → api.HasFee (oldest + Int64.ofNat j) →
    api.HasFee (oldest + Int64.ofNat i)
  blocks : ∀ i j, i < j → j < span oldest last → api.HasBlock (oldest + Int64.ofNat j) →
    api.HasBlock (oldest + Int64.ofNat i)

variable {api}

theorem isSome_toOption {ε α : Type} {x : Except ε α} : x.toOption.isSome ↔ x.isOk = true := by
  cases x with
  | error e => simp [Except.toOption, Except.isOk, Except.toBool]
  | ok a => simp [Except.toOption, Except.isOk, Except.toBool]

theorem isSome_ratioIn (api : InfoAPI) (height : Int64) :
    (ratioIn (api.ctx height)).isSome ↔ api.HasState height := by
  unfold ratioIn HasState
  split
  · rename_i h
    simp [h]
  · rename_i h
    simp [h]

theorem isSome_baseFeeIn (api : InfoAPI) (height : Int64) :
    (baseFeeIn (api.ctx height)).isSome ↔ api.HasFee height := by
  unfold baseFeeIn HasFee HasState
  split
  · rename_i h
    simp only [h, true_and]
    exact isSome_toOption
  · rename_i h
    simp [h]

theorem isSome_rewardsIn (api : InfoAPI) (ps : List Float) (height : Int64) :
    (api.rewardsIn ps height (api.ctx height)).isSome ↔ api.HasBlock height := by
  rw [HasBlock, ← isSome_baseFeeIn]
  unfold rewardsIn
  cases baseFeeIn (api.ctx height) with
  | none => simp
  | some baseFee =>
    cases api.blockByNumber height with
    | error e => simp [Except.isOk, Except.toBool]
    | ok block => simp [Except.isOk, Except.toBool]

section Own

variable {β : Type} {f : QueryContext → Option β} {height : Int64}

theorem read_of_own {v : β} (h : (api.contexts.ofHeight height).bind f = some v) :
    f (api.ctx height) = some v := by
  obtain ⟨ctx, hctx, hv⟩ := Option.bind_eq_some_iff.mp h
  rw [HeightNode.ctx, Contexts.rpcContextProvider_of_height hctx]
  exact hv

theorem isSome_own (h : (f (api.ctx height)).isSome) :
    ((api.contexts.ofHeight height).bind f).isSome ↔
      (api.contexts.ofHeight height).isSome := by
  cases hctx : api.contexts.ofHeight height with
  | none => simp
  | some ctx =>
    rw [HeightNode.ctx, Contexts.rpcContextProvider_of_height hctx] at h
    simp [h]

end Own

theorem kept_own_iff {β : Type} {f : Int64 → QueryContext → Option β} {P : Int64 → Prop}
    (hP : ∀ height, (f height (api.ctx height)).isSome ↔ P height) (oldest : Int64) (n : ℕ) :
    (∀ i v, (kept (fun i => f (oldest + Int64.ofNat i) (api.ctx (oldest + Int64.ofNat i))) n)[i]? =
        some v → (api.contexts.ofHeight (oldest + Int64.ofNat i)).bind
          (f (oldest + Int64.ofNat i)) = some v) ↔
      (∀ i j, i < j → j < n → P (oldest + Int64.ofNat j) → P (oldest + Int64.ofNat i)) ∧
        ∀ i < n, P (oldest + Int64.ofNat i) →
          (api.contexts.ofHeight (oldest + Int64.ofNat i)).isSome := by
  rw [kept_aligned_iff fun i v hv => read_of_own hv, contiguous_iff fun i => hP _]
  refine and_congr_right fun _ => forall₂_congr fun i _ => ?_
  rw [← hP]
  exact forall_congr' fun h => isSome_own h

section Loop

variable {ps : List Float} {oldest last : Int64} {result : FeeHistoryResult}

theorem aligned_iff_unbroken (h : (heights oldest last).foldlM (api.feeStep ps)
    { oldestBlock := some oldest } = .ok result) :
    api.Aligned ps oldest result ↔ api.Unbroken oldest last := by
  obtain ⟨-, hratio, hfee, hreward⟩ := foldlM_feeStep h
  have hratio_iff := kept_own_iff (f := fun _ => ratioIn) api.isSome_ratioIn oldest
    (span oldest last)
  have hfee_iff := kept_own_iff (f := fun _ => baseFeeIn) api.isSome_baseFeeIn oldest
    (span oldest last)
  have hreward_iff := kept_own_iff (f := api.rewardsIn ps) (api.isSome_rewardsIn ps) oldest
    (span oldest last)
  rw [← hratio] at hratio_iff
  rw [← hfee] at hfee_iff
  rw [← hreward] at hreward_iff
  constructor
  · rintro ⟨ratio, fee, reward⟩
    obtain ⟨hstates, hown⟩ := hratio_iff.mp ratio
    exact ⟨hown, hstates, (hfee_iff.mp fee).1, (hreward_iff.mp reward).1⟩
  · -- a height whose fee or block is there has its state
    rintro ⟨hown, hstates, hfees, hblocks⟩
    exact ⟨hratio_iff.mpr ⟨hstates, hown⟩,
      hfee_iff.mpr ⟨hfees, fun i hi hhas => hown i hi hhas.1⟩,
      hreward_iff.mpr ⟨hblocks, fun i hi hhas => hown i hi hhas.1.1⟩⟩

theorem length_le_span (h : (heights oldest last).foldlM (api.feeStep ps)
    { oldestBlock := some oldest } = .ok result) :
    ∀ n ∈ [result.gasUsedRatio.length, result.baseFee.length, result.reward.length],
      n ≤ span oldest last := by
  obtain ⟨-, hratio, hfee, hreward⟩ := foldlM_feeStep h
  rw [hratio, hfee, hreward]
  simp [length_kept_le]

end Loop

/-- **Fee history alignment**: a result covers at most the capped number of blocks, up to the last
one; and each entry of its lists describes the block with its number, counted from the oldest,
exactly when the range is unbroken. -/
theorem feeHistory_aligned_iff {blockCount : UInt64} {lastBlock : BlockNumber} {ps : List Float}
    {result : FeeHistoryResult} (h : api.feeHistory blockCount lastBlock ps = .ok result) :
    blockCount < 1 ∧ result = {} ∨
      ∃ genesisHeight oldest, api.genesis = .ok genesisHeight ∧
        result.oldestBlock = some oldest ∧ genesisHeight.toInt ≤ oldest.toInt ∧
        (api.lastBlockNumber genesisHeight lastBlock).toInt - oldest.toInt + 1 ≤
          (api.cappedCount blockCount).toNat ∧
        (∀ n ∈ [result.gasUsedRatio.length, result.baseFee.length, result.reward.length],
          n ≤ span oldest (api.lastBlockNumber genesisHeight lastBlock)) ∧
        (api.Aligned ps oldest result ↔
          api.Unbroken oldest (api.lastBlockNumber genesisHeight lastBlock)) := by
  refine (feeHistory_eq_ok h).imp_right ?_
  rintro ⟨genesisHeight, hgenesis, hle, hloop⟩
  obtain ⟨hfirst, hcount⟩ := @oldestBlock_bounds _ _ (api.cappedCount blockCount) hle
    (lastBlockNumber_lt hgenesis lastBlock)
  exact ⟨genesisHeight, _, hgenesis, (foldlM_feeStep hloop).1, hfirst, hcount,
    length_le_span hloop, aligned_iff_unbroken hloop⟩

end InfoAPI

def feeContext (evmExists : Bool) (height : Int64) : QueryContext where
  height
  evmExists
  bankExists := true
  baseFeePerGas := .ok (10 * height.toInt)
  storage _ _ := none

def prunedContexts (firstKept : Int64) : Contexts where
  latest := feeContext true 3
  createQueryContext height := .ok (feeContext (firstKept ≤ height) height)

theorem prunedContexts_lt (firstKept : Int64) :
    (emptyHeightNode (prunedContexts firstKept)).currentHeight < Int64.maxValue := by
  show (3 : Int64) < Int64.maxValue
  decide

theorem emptyHeightNode_genesis_lt {contexts : Contexts} {genesisHeight : Int64}
    (h : (emptyHeightNode contexts).genesis = .ok genesisHeight) :
    genesisHeight < Int64.maxValue := by
  cases h
  decide

def prunedAPI (firstKept : Int64) : InfoAPI where
  toHeightNode := emptyHeightNode (prunedContexts firstKept)
  maxBlocks := 1024
  current_lt := prunedContexts_lt firstKept
  genesis_lt := emptyHeightNode_genesis_lt

theorem InfoAPI.getRewards_empty {api : InfoAPI} {block : ResultBlock} {baseFee : ℤ}
    (h : block.txs = []) : api.getRewards block baseFee [] = .ok [] := by
  rw [InfoAPI.getRewards, h]
  simp [calculatePercentiles]

section Pruned

variable {firstKept height : Int64} (result : FeeHistoryResult)

theorem prunedAPI_ctx (hne : height ≠ latestCtxHeight) :
    (prunedAPI firstKept).ctx height = feeContext (firstKept ≤ height) height :=
  if_neg hne

theorem prunedAPI_feeStep_kept (hne : height ≠ latestCtxHeight) (hkept : firstKept ≤ height) :
    (prunedAPI firstKept).feeStep [] result height = .ok { result with
      gasUsedRatio := result.gasUsedRatio ++ [gasUsedRatio]
      baseFee := result.baseFee ++ [10 * height.toInt]
      reward := result.reward ++ [[]] } := by
  have hrewards : (prunedAPI firstKept).getRewards (resultBlock emptyHash height [])
      (10 * height.toInt) [] = .ok [] := InfoAPI.getRewards_empty rfl
  simp only [InfoAPI.feeStep, InfoAPI.safeGetBaseFee, prunedAPI_ctx hne, decide_eq_true hkept]
  show ((prunedAPI firstKept).getRewards (resultBlock emptyHash height []) (10 * height.toInt)
    [] >>= _) = _
  rw [hrewards]
  rfl

theorem prunedAPI_feeStep_gone (hne : height ≠ latestCtxHeight) (hgone : ¬ firstKept ≤ height) :
    (prunedAPI firstKept).feeStep [] result height = .ok result := by
  simp only [InfoAPI.feeStep, prunedAPI_ctx hne, decide_eq_false hgone]
  rfl

end Pruned

theorem heights_three : InfoAPI.heights 1 3 = [1, 2, 3] := by decide

def shiftedFees : FeeHistoryResult where
  oldestBlock := some 1
  reward := [[], []]
  baseFee := [20, 30]
  gasUsedRatio := [gasUsedRatio, gasUsedRatio]

theorem feeHistory_shifted : ∃ result, (prunedAPI 2).feeHistory 3 .latest [] = .ok result ∧
    result.oldestBlock = some 1 ∧ result.baseFee = [20, 30] ∧ (prunedAPI 2).baseFeeOf 1 = none ∧
    (prunedAPI 2).baseFeeOf 2 = some 20 ∧ ¬ (prunedAPI 2).Aligned [] 1 result := by
  refine ⟨shiftedFees, ?_, rfl, rfl, rfl, rfl, fun h => ?_⟩
  · show ofOutcome ((InfoAPI.heights 1 3).foldlM ((prunedAPI 2).feeStep [])
      { oldestBlock := some 1 }) = _
    rw [heights_three, List.foldlM_cons, prunedAPI_feeStep_gone _ (by decide) (by decide),
      Outcome.ok_bind, List.foldlM_cons, prunedAPI_feeStep_kept _ (by decide) (by decide),
      Outcome.ok_bind, List.foldlM_cons, prunedAPI_feeStep_kept _ (by decide) (by decide)]
    rfl
  · cases h.baseFee 0 20 rfl

def threeFees : FeeHistoryResult where
  oldestBlock := some 1
  reward := [[], [], []]
  baseFee := [10, 20, 30]
  gasUsedRatio := [gasUsedRatio, gasUsedRatio, gasUsedRatio]

theorem feeHistory_three : (prunedAPI 1).feeHistory 3 .latest [] = .ok threeFees := by
  show ofOutcome ((InfoAPI.heights 1 3).foldlM ((prunedAPI 1).feeStep [])
    { oldestBlock := some 1 }) = _
  rw [heights_three, List.foldlM_cons, prunedAPI_feeStep_kept _ (by decide) (by decide),
    Outcome.ok_bind, List.foldlM_cons, prunedAPI_feeStep_kept _ (by decide) (by decide),
    Outcome.ok_bind, List.foldlM_cons, prunedAPI_feeStep_kept _ (by decide) (by decide)]
  rfl

theorem prunedAPI_hasBlock {firstKept height : Int64} (hne : height ≠ latestCtxHeight)
    (hkept : firstKept ≤ height) : (prunedAPI firstKept).HasBlock height := by
  refine ⟨⟨?_, ?_⟩, rfl⟩
  · rw [InfoAPI.HasState, prunedAPI_ctx hne, decide_eq_true hkept]
    rfl
  · rw [prunedAPI_ctx hne]
    rfl

theorem feeHistory_aligned_three : (prunedAPI 1).feeHistory 3 .latest [] = .ok threeFees ∧
    (prunedAPI 1).Aligned [] 1 threeFees := by
  have hblock : ∀ i < 3, (prunedAPI 1).HasBlock (1 + Int64.ofNat i) ∧
      ((prunedAPI 1).contexts.ofHeight (1 + Int64.ofNat i)).isSome := by
    have hheights : ∀ i < 3,
        1 + Int64.ofNat i ≠ latestCtxHeight ∧ (1 : Int64) ≤ 1 + Int64.ofNat i := by
      decide
    intro i hi
    obtain ⟨hne, hle⟩ := hheights i hi
    refine ⟨prunedAPI_hasBlock hne hle, ?_⟩
    rw [Contexts.ofHeight, if_neg hne]
    rfl
  refine ⟨feeHistory_three, ?_⟩
  obtain ⟨hnone, -⟩ | ⟨_, _, hgenesis, holdest, -, -, -, hiff⟩ :=
    InfoAPI.feeHistory_aligned_iff feeHistory_three
  · exact absurd hnone (by decide)
  · cases hgenesis
    cases holdest
    refine hiff.mpr ⟨fun i hi _ => (hblock i hi).2, fun i j hij hj _ => ?_, fun i j hij hj _ => ?_,
      fun i j hij hj _ => ?_⟩
    · exact (hblock i (Nat.lt_trans hij hj)).1.1.1
    · exact (hblock i (Nat.lt_trans hij hj)).1.1
    · exact (hblock i (Nat.lt_trans hij hj)).1

end Tabi.Rpc
