import Tabi.Chain.Dec

/-!
# BaseFee — the adjustment at the end of a block

`AdjustDynamicBaseFeePerGas` (`x/evm/keeper/fee.go`) moves the base fee of the next block up or down
by how full the block was against a target, in `sdk.Dec` arithmetic, and then clamps it between the
minimum and the maximum fee of the parameters.
-/

namespace Tabi.BaseFee

open Support

/-- The parameters of the EVM module that are checked or read here.  A parameter that was checked
is not nil. -/
structure Params where
  priorityNormalizer : ℤ
  baseFeePerGas : ℤ
  maxDynamicBaseFeeUpwardAdjustment : ℤ
  maxDynamicBaseFeeDownwardAdjustment : ℤ
  minimumFeePerGas : ℤ
  maximumFeePerGas : ℤ
  deliverTxHookWasmGasLimit : UInt64
  targetGasUsedPerBlock : UInt64

/-- An error of `Validate`: a text, or a format with the value it prints. -/
inductive ParamsError where
  | text (text : String)
  | dec (format : String) (value : ℤ)
  | uint64 (format : String) (value : UInt64)
  | wrapped (format : String) (value : ℤ) (err : ParamsError)

def validateNonnegative (format : String) (v : ℤ) : Except ParamsError Unit :=
  if v < 0 then .error (.dec format v) else .ok ()

def validatePriorityNormalizer (v : ℤ) : Except ParamsError Unit :=
  if ¬ 0 < v then .error (.dec "nonpositive priority normalizer: %d" v) else .ok ()

def validateBaseFeePerGas (v : ℤ) : Except ParamsError Unit :=
  validateNonnegative "negative base fee per gas: %d" v

def validateMinFeePerGas (v : ℤ) : Except ParamsError Unit :=
  validateNonnegative "negative min fee per gas: %d" v

def validateMaxFeePerGas (v : ℤ) : Except ParamsError Unit :=
  validateNonnegative "negative max fee per gas: %d" v

def validateDeliverTxHookWasmGasLimit (v : UInt64) : Except ParamsError Unit :=
  if v = 0 then
    .error (.uint64 "invalid deliver_tx_hook_wasm_gas_limit: must be greater than 0, got %d" v)
  else .ok ()

def validateBaseFeeAdjustment (adjustment : ℤ) : Except ParamsError Unit :=
  if adjustment < 0 then .error (.dec "negative base fee adjustment: %s" adjustment)
  else if Dec.unit < adjustment then
    .error (.dec "base fee adjustment must be less than or equal to 1: %s" adjustment)
  else .ok ()

/-- `Params.Validate`: no check relates the minimum to the maximum, and none looks at the target. -/
def Params.validate (p : Params) : Except ParamsError Unit := do
  validatePriorityNormalizer p.priorityNormalizer
  validateBaseFeePerGas p.baseFeePerGas
  validateMinFeePerGas p.minimumFeePerGas
  validateMaxFeePerGas p.maximumFeePerGas
  validateDeliverTxHookWasmGasLimit p.deliverTxHookWasmGasLimit
  (if p.minimumFeePerGas < p.baseFeePerGas then
    .error (.text "minimum fee cannot be lower than base fee") else .ok ())
  (validateBaseFeeAdjustment p.maxDynamicBaseFeeUpwardAdjustment).mapError
    (.wrapped "invalid max dynamic base fee upward adjustment: %s, err: %s"
      p.maxDynamicBaseFeeUpwardAdjustment)
  (validateBaseFeeAdjustment p.maxDynamicBaseFeeDownwardAdjustment).mapError
    (.wrapped "invalid max dynamic base fee downward adjustment: %s, err: %s"
      p.maxDynamicBaseFeeDownwardAdjustment)

def defaultParams : Params where
  priorityNormalizer := Dec.unit
  baseFeePerGas := 0
  maxDynamicBaseFeeUpwardAdjustment := 189 * 10 ^ 14
  maxDynamicBaseFeeDownwardAdjustment := 39 * 10 ^ 14
  minimumFeePerGas := 1000000000 * Dec.unit
  maximumFeePerGas := 1000000000000 * Dec.unit
  deliverTxHookWasmGasLimit := 300000
  targetGasUsedPerBlock := 250000

structure Fees where
  currBaseFeePerGas : Option ℤ
  nextBaseFeePerGas : Option ℤ

variable (p : Params)

def getNextBaseFeePerGas (s : Fees) : ℤ := s.nextBaseFeePerGas.getD p.minimumFeePerGas

def capGasUsed (blockGasLimit blockGasUsed : ℤ) : ℤ :=
  if blockGasLimit < blockGasUsed then blockGasLimit else blockGasUsed

def adjustUpward (prevBaseFee targetGasUsed blockGasLimit blockGasUsed : ℤ) : Outcome ℤ := do
  let numerator ← Dec.sub blockGasUsed targetGasUsed
  let denominator ← Dec.sub blockGasLimit targetGasUsed
  let percentageFull ← Dec.quo numerator denominator
  let adjustmentFactor ← Dec.mul p.maxDynamicBaseFeeUpwardAdjustment percentageFull
  let factor ← Dec.add (Dec.ofInt64 1) adjustmentFactor
  Dec.mul prevBaseFee factor

def adjustDownward (prevBaseFee targetGasUsed blockGasUsed : ℤ) : Outcome ℤ := do
  let numerator ← Dec.sub targetGasUsed blockGasUsed
  let percentageEmpty ← Dec.quo numerator targetGasUsed
  let adjustmentFactor ← Dec.mul p.maxDynamicBaseFeeDownwardAdjustment percentageEmpty
  let factor ← Dec.sub (Dec.ofInt64 1) adjustmentFactor
  Dec.mul prevBaseFee factor

def adjusted (prevBaseFee targetGasUsed blockGasLimit blockGasUsed : ℤ) : Outcome ℤ :=
  if targetGasUsed < blockGasUsed then
    adjustUpward p prevBaseFee targetGasUsed blockGasLimit blockGasUsed
  else adjustDownward p prevBaseFee targetGasUsed blockGasUsed

def clamp (newBaseFee : ℤ) : ℤ :=
  let newBaseFee := if newBaseFee < p.minimumFeePerGas then p.minimumFeePerGas else newBaseFee
  if p.maximumFeePerGas < newBaseFee then p.maximumFeePerGas else newBaseFee

def targetGasUsed : ℤ := Dec.ofInt64 p.targetGasUsedPerBlock.toInt64

def cappedGasUsed (maxGas : Int64) (blockGasUsed : UInt64) : ℤ :=
  capGasUsed (Dec.ofInt64 maxGas) (Dec.ofInt64 blockGasUsed.toInt64)

/-- `AdjustDynamicBaseFeePerGas`.  `maxGas` is the block gas limit of the consensus parameters,
which may be nil; so may be what is returned. -/
def adjustDynamicBaseFeePerGas (maxGas : Option Int64) (s : Fees) (blockGasUsed : UInt64) :
    Outcome (Option ℤ × Fees) :=
  match maxGas with
  | none => return (none, s)
  | some maxGas =>
    let prevBaseFee := getNextBaseFeePerGas p s
    let s := { s with currBaseFeePerGas := some prevBaseFee }
    if targetGasUsed p = 0 then return (some prevBaseFee, s)
    else do
      let newBaseFee ← adjusted p prevBaseFee (targetGasUsed p) (Dec.ofInt64 maxGas)
        (cappedGasUsed maxGas blockGasUsed)
      let newBaseFee := clamp p newBaseFee
      return (some newBaseFee, { s with nextBaseFeePerGas := some newBaseFee })

end Tabi.BaseFee
