import Revm.Database.State
import Revm.Interpreter.Gas
import Revm.Interpreter.GasCalc
import Revm.Interpreter.Stack

/-!
# The L1 block info

On the OP stack a transaction also pays for its data on L1 and, from Isthmus on, an operator fee.
The prices are slots of the `L1Block` contract, read once in a block (`L1BlockInfo.tryFetch`).

The operator fee comes in two forms: `operator_fee_charge`, which is zero for enveloped bytes that
are empty or start like a deposit, and the fee behind it, which `operator_fee_refund` uses without
that guard. For an info that was fetched the fee is exact and monotone in the gas
(`OperatorFees.fee_eq`).

The size that FastLZ compresses the enveloped bytes to is a parameter, `flzCompressLen`. `none` is a
panic.
-/

set_option autoImplicit false

namespace Revm

open Option

/-- `OpSpecId`. -/
inductive OpSpecId where
  | bedrock
  | regolith
  | canyon
  | ecotone
  | fjord
  | granite
  | holocene
  | isthmus
  | jovian
  | interop
  | osaka
  deriving DecidableEq, Repr

namespace OpSpecId

/-- `self as u8`, counted from Bedrock. -/
def toNat : OpSpecId → Nat
  | bedrock => 0
  | regolith => 1
  | canyon => 2
  | ecotone => 3
  | fjord => 4
  | granite => 5
  | holocene => 6
  | isthmus => 7
  | jovian => 8
  | interop => 9
  | osaka => 10

/-- `is_enabled_in`. -/
def isEnabledIn (self other : OpSpecId) : Bool := other.toNat ≤ self.toNat

/-- `into_eth_spec`. -/
def intoEthSpec : OpSpecId → SpecId
  | bedrock | regolith => .merge
  | canyon => .shanghai
  | ecotone | fjord | granite | holocene => .cancun
  | isthmus | jovian | interop => .prague
  | osaka => .osaka

theorem london_intoEthSpec (spec : OpSpecId) : spec.intoEthSpec.isEnabledIn .london = true := by
  cases spec <;> rfl

end OpSpecId

/-! ## Saturating arithmetic -/

def u256Max : Nat := 2 ^ 256 - 1

/-- `x.saturating_add(y)` on `U256`. -/
def saturatingAddU256 (x y : Nat) : Nat := min (x + y) u256Max

/-- `x.saturating_mul(y)` on `U256`. -/
def saturatingMulU256 (x y : Nat) : Nat := min (x * y) u256Max

theorem saturatingAddU256_eq {x y : Nat} (h : x + y < 2 ^ 256) : saturatingAddU256 x y = x + y :=
  Nat.min_eq_left (Nat.le_sub_one_of_lt h)

theorem saturatingMulU256_eq {x y : Nat} (h : x * y < 2 ^ 256) : saturatingMulU256 x y = x * y :=
  Nat.min_eq_left (Nat.le_sub_one_of_lt h)

/-! ## The info -/

/-- `L1BlockInfo`. The footprint scalar is left out: nothing that charges a fee reads it. -/
structure L1BlockInfo where
  l2Block : Option U256
  l1BaseFee : U256
  l1FeeOverhead : Option U256
  l1BaseFeeScalar : U256
  l1BlobBaseFee : Option U256
  l1BlobBaseFeeScalar : Option U256
  operatorFeeScalar : Option U256
  operatorFeeConstant : Option U256
  emptyEcotoneScalars : Bool
  txL1Cost : Option Nat
  deriving DecidableEq, Repr

/-- `L1_BLOCK_CONTRACT`. -/
def l1BlockContract : Address := 0x4200000000000000000000000000000000000015#160

namespace L1BlockInfo

variable (self : L1BlockInfo)

/-- `L1BlockInfo::default()`. -/
def default : L1BlockInfo where
  l2Block := none
  l1BaseFee := 0
  l1FeeOverhead := none
  l1BaseFeeScalar := 0
  l1BlobBaseFee := none
  l1BlobBaseFeeScalar := none
  operatorFeeScalar := none
  operatorFeeConstant := none
  emptyEcotoneScalars := false
  txL1Cost := none

section Fetch

variable {ε : Type} (db : Database ε)

/-- The bytes `offset .. offset + len` of a slot. -/
def slotBytes (value : U256) (offset len : Nat) : List UInt8 :=
  ((toBigEndian value).drop offset).take len

/-- `try_fetch_isthmus`. -/
def tryFetchIsthmus : Except ε L1BlockInfo := do
  let operatorFeeScalars ← db.storage l1BlockContract 8
  return { self with
    operatorFeeScalar := some (ofBigEndian (slotBytes operatorFeeScalars 20 4))
    operatorFeeConstant := some (ofBigEndian (slotBytes operatorFeeScalars 24 8)) }

/-- `try_fetch_ecotone`. -/
def tryFetchEcotone : Except ε L1BlockInfo := do
  let l1BlobBaseFee ← db.storage l1BlockContract 7
  let l1FeeScalars ← db.storage l1BlockContract 3
  let blobScalar := ofBigEndian (slotBytes l1FeeScalars 20 4)
  let empty := blobScalar == 0 && slotBytes l1FeeScalars 16 8 == List.replicate 8 0
  let overhead ← (if empty then (db.storage l1BlockContract 5).map some else .ok none :
    Except ε (Option U256))
  return { self with
    l1BlobBaseFee := some l1BlobBaseFee
    l1BaseFeeScalar := ofBigEndian (slotBytes l1FeeScalars 16 4)
    l1BlobBaseFeeScalar := some blobScalar
    emptyEcotoneScalars := empty
    l1FeeOverhead := overhead }

/-- `try_fetch_jovian`: the footprint scalar is read. -/
def tryFetchJovian : Except ε L1BlockInfo :=
  (db.storage l1BlockContract 8).map fun _ => self

/-- `try_fetch` before Ecotone. -/
def tryFetchBedrock : Except ε L1BlockInfo := do
  let scalar ← db.storage l1BlockContract 6
  let overhead ← db.storage l1BlockContract 5
  return { self with l1BaseFeeScalar := scalar, l1FeeOverhead := some overhead }

/-- `try_fetch`. The contract is loaded first where a state of the database needs that. -/
def tryFetch (l2Block : U256) (specId : OpSpecId) : Except ε L1BlockInfo := do
  let _ ← (if specId.intoEthSpec.isEnabledIn .cancun then db.basic l1BlockContract else .ok none :
    Except ε (Option AccountInfo))
  let l1BaseFee ← db.storage l1BlockContract 1
  let out := { default with l2Block := some l2Block, l1BaseFee := l1BaseFee }
  if !specId.isEnabledIn .ecotone then out.tryFetchBedrock db
  else
    (out.tryFetchEcotone db).bind fun out =>
      (if specId.isEnabledIn .isthmus then out.tryFetchIsthmus db else .ok out).bind fun out =>
        if specId.isEnabledIn .jovian then out.tryFetchJovian db else .ok out

end Fetch

/-! ## Operator fee -/

/-- The bytes for which no fee is charged: empty, or those of a deposit. -/
def isExempt (input : List UInt8) : Bool := input.isEmpty || input.head? == some 0x7e

/-- `operator_fee_charge_inner`. -/
def operatorFeeChargeInner (gas : Nat) (specId : OpSpecId) : Option Nat := do
  let operatorFeeScalar ← self.operatorFeeScalar
  let operatorFeeConstant ← self.operatorFeeConstant
  let product :=
    if specId.isEnabledIn .jovian then
      saturatingMulU256 (saturatingMulU256 gas operatorFeeScalar.toNat) 100
    else saturatingMulU256 gas operatorFeeScalar.toNat / 1000000
  return saturatingAddU256 product operatorFeeConstant.toNat

/-- `operator_fee_charge`. -/
def operatorFeeCharge (input : List UInt8) (gasLimit : Nat) (specId : OpSpecId) : Option Nat :=
  if isExempt input then some 0 else self.operatorFeeChargeInner gasLimit specId

/-- `operator_fee_refund`. -/
def operatorFeeRefund (gas : Gas) (specId : OpSpecId) : Option Nat :=
  if !specId.isEnabledIn .isthmus then some 0
  else do
    let operatorCostGasLimit ← self.operatorFeeChargeInner gas.limit specId
    let returned ← addU64 gas.remaining (i64AsU64 gas.refunded)
    let operatorCostGasUsed ← self.operatorFeeChargeInner (← subU64 gas.limit returned) specId
    return operatorCostGasLimit - operatorCostGasUsed

/-! ## L1 cost -/

section Cost

variable (flzCompressLen : List UInt8 → Nat) (self : L1BlockInfo) (input : List UInt8)

/-- `estimate_tx_compressed_size`. -/
def estimateTxCompressedSize (input : List UInt8) : Nat :=
  max (saturatingMulU64 (flzCompressLen input) 836500 - 42585600) 100000000

/-- `data_gas`. -/
def dataGas (input : List UInt8) (specId : OpSpecId) : Option Nat :=
  if specId.isEnabledIn .fjord then
    some (saturatingMulU256 (estimateTxCompressedSize flzCompressLen input) 16 / 1000000)
  else do
    let tokens ← getTokensInCalldata input true
    let tokens ← if !specId.isEnabledIn .regolith then addU64 tokens (68 * 4) else some tokens
    return saturatingMulU64 tokens 4

variable (specId : OpSpecId)

/-- `calculate_tx_l1_cost_bedrock`. -/
def calculateTxL1CostBedrock : Option Nat :=
  (dataGas flzCompressLen input specId).map fun rollupDataGasCost =>
    saturatingMulU256
      (saturatingMulU256
        (saturatingAddU256 rollupDataGasCost (self.l1FeeOverhead.getD 0).toNat)
        self.l1BaseFee.toNat)
      self.l1BaseFeeScalar.toNat / 1000000

/-- `calculate_l1_fee_scaled_ecotone`. -/
def calculateL1FeeScaledEcotone : Nat :=
  saturatingAddU256
    (saturatingMulU256 (saturatingMulU256 self.l1BaseFee.toNat 16) self.l1BaseFeeScalar.toNat)
    (saturatingMulU256 (self.l1BlobBaseFee.getD 0).toNat (self.l1BlobBaseFeeScalar.getD 0).toNat)

/-- `calculate_tx_l1_cost_ecotone`. -/
def calculateTxL1CostEcotone : Option Nat :=
  if self.emptyEcotoneScalars then self.calculateTxL1CostBedrock flzCompressLen input specId
  else
    (dataGas flzCompressLen input specId).map fun rollupDataGasCost =>
      saturatingMulU256 self.calculateL1FeeScaledEcotone rollupDataGasCost / 16000000

/-- `calculate_tx_l1_cost_fjord`. -/
def calculateTxL1CostFjord : Nat :=
  saturatingMulU256 (estimateTxCompressedSize flzCompressLen input)
    self.calculateL1FeeScaledEcotone / 1000000000000

/-- The formula of the fork. -/
def l1CostOf : Option Nat :=
  if specId.isEnabledIn .fjord then some (self.calculateTxL1CostFjord flzCompressLen input)
  else if specId.isEnabledIn .ecotone then self.calculateTxL1CostEcotone flzCompressLen input specId
  else self.calculateTxL1CostBedrock flzCompressLen input specId

/-- `calculate_tx_l1_cost`, which caches its answer. -/
def calculateTxL1Cost : Option (Nat × L1BlockInfo) :=
  match self.txL1Cost with
  | some txL1Cost => some (txL1Cost, self)
  | none =>
      if isExempt input then some (0, self)
      else
        (self.l1CostOf flzCompressLen input specId).map fun txL1Cost =>
          (txL1Cost, { self with txL1Cost := some txL1Cost })

/-- `tx_cost`. -/
def txCost (envelopedTx : List UInt8) (gasLimit : Nat) (spec : OpSpecId) :
    Option (Nat × L1BlockInfo) := do
  let (l1Cost, chain) ← self.calculateTxL1Cost flzCompressLen envelopedTx spec
  if spec.isEnabledIn .isthmus then
    let operatorFee ← chain.operatorFeeCharge envelopedTx gasLimit spec
    return (saturatingAddU256 l1Cost operatorFee, chain)
  else return (l1Cost, chain)

/-- `clear_tx_l1_cost`. -/
def clearTxL1Cost : L1BlockInfo := { self with txL1Cost := none }

end Cost

/-! ## Exact operator fees -/

/-- The operator fee over the natural numbers. -/
def operatorFee (scalar constant : Nat) (specId : OpSpecId) (gas : Nat) : Nat :=
  (if specId.isEnabledIn .jovian then gas * scalar * 100 else gas * scalar / 1000000) + constant

theorem operatorFee_mono (scalar constant : Nat) (specId : OpSpecId) {gas gas' : Nat}
    (h : gas ≤ gas') :
    operatorFee scalar constant specId gas ≤ operatorFee scalar constant specId gas' := by
  have hmul : gas * scalar ≤ gas' * scalar := Nat.mul_le_mul_right _ h
  unfold operatorFee
  split_ifs
  · omega
  · have hdiv := Nat.div_le_div_right (c := 1000000) hmul
    omega

/-- The fields of the operator fee have the widths that a fetched info gives them. -/
structure OperatorFees (info : L1BlockInfo) (scalar constant : Nat) : Prop where
  scalar_eq : ∃ x, info.operatorFeeScalar = some x ∧ x.toNat = scalar
  constant_eq : ∃ x, info.operatorFeeConstant = some x ∧ x.toNat = constant
  scalar_lt : scalar < 2 ^ 32
  constant_lt : constant < 2 ^ 64

section Exact

variable {info : L1BlockInfo} {scalar constant : Nat} (h : info.OperatorFees scalar constant)
include h

/-- Nothing saturates: the product of a `u64`, a `u32` and 100 is far below `2 ^ 256`. -/
theorem OperatorFees.fee_eq (specId : OpSpecId) {gas : Nat} (hgas : gas ≤ u64Max) :
    info.operatorFeeChargeInner gas specId = some (operatorFee scalar constant specId gas) := by
  have hconstant := h.constant_lt
  have hproduct : gas * scalar ≤ (2 ^ 64 - 1) * 2 ^ 32 := Nat.mul_le_mul hgas h.scalar_lt.le
  obtain ⟨x, hx, hscalar⟩ := h.scalar_eq
  obtain ⟨y, hy, hconst⟩ := h.constant_eq
  have hmul : saturatingMulU256 gas scalar = gas * scalar := saturatingMulU256_eq (by omega)
  unfold operatorFeeChargeInner operatorFee
  rw [hx, hy]
  simp only [bind_eq_bind, bind_some, pure_def, some.injEq, hscalar, hconst, hmul]
  split_ifs
  · rw [saturatingMulU256_eq (by omega), saturatingAddU256_eq (by omega)]
  · rw [saturatingAddU256_eq (by omega)]

/-- The scalar has 32 bits and the gas 64. -/
theorem OperatorFees.fee_lt (specId : OpSpecId) {gas : Nat} (hgas : gas ≤ u64Max) :
    operatorFee scalar constant specId gas < 2 ^ 128 := by
  have hconstant := h.constant_lt
  have hproduct : gas * scalar ≤ (2 ^ 64 - 1) * 2 ^ 32 := Nat.mul_le_mul hgas h.scalar_lt.le
  unfold operatorFee
  split_ifs <;> omega

end Exact

theorem toNat_slotBytes_lt (value : U256) (offset : Nat) {len : Nat} (hlen : len ≤ 32) :
    (ofBigEndian (slotBytes value offset len)).toNat < 256 ^ len := by
  have hlength : (slotBytes value offset len).length ≤ len := List.length_take_le _ _
  rw [toNat_ofBigEndian (hlength.trans hlen)]
  exact lt_of_lt_of_le (BigEndian.value_lt _) (Nat.pow_le_pow_right (by decide) hlength)

section Fetched

variable {ε : Type} {db : Database ε} {l2Block : U256} {specId : OpSpecId}
  {info info' : L1BlockInfo}

theorem of_bind_eq_ok {α β : Type} {x : Except ε α} {f : α → Except ε β} {b : β}
    (h : x.bind f = .ok b) : ∃ a, x = .ok a ∧ f a = .ok b := by
  cases x with
  | error e => cases h
  | ok a => exact ⟨a, rfl, h⟩

/-- Isthmus reads the operator fees and keeps the cached cost. -/
theorem tryFetchIsthmus_ok (h : info.tryFetchIsthmus db = .ok info') :
    (∃ scalar constant, info'.OperatorFees scalar constant) ∧ info'.txL1Cost = info.txL1Cost := by
  obtain ⟨slot, -, h⟩ := of_bind_eq_ok h
  rw [← Except.ok.inj h]
  refine ⟨⟨_, _, ⟨_, rfl, rfl⟩, ⟨_, rfl, rfl⟩, ?_, ?_⟩, rfl⟩
  · exact toNat_slotBytes_lt slot 20 (by decide)
  · exact toNat_slotBytes_lt slot 24 (by decide)

theorem tryFetchEcotone_txL1Cost (h : info.tryFetchEcotone db = .ok info') :
    info'.txL1Cost = info.txL1Cost := by
  obtain ⟨blob, -, h⟩ := of_bind_eq_ok h
  obtain ⟨scalars, -, h⟩ := of_bind_eq_ok h
  obtain ⟨overhead, -, h⟩ := of_bind_eq_ok h
  rw [← Except.ok.inj h]

theorem tryFetchBedrock_txL1Cost (h : info.tryFetchBedrock db = .ok info') :
    info'.txL1Cost = info.txL1Cost := by
  obtain ⟨scalar, -, h⟩ := of_bind_eq_ok h
  obtain ⟨overhead, -, h⟩ := of_bind_eq_ok h
  rw [← Except.ok.inj h]

theorem tryFetchJovian_ok (h : info.tryFetchJovian db = .ok info') : info' = info := by
  unfold tryFetchJovian at h
  cases hslot : db.storage l1BlockContract 8 with
  | error e => rw [hslot] at h; cases h
  | ok slot => rw [hslot] at h; exact (Except.ok.inj h).symm

/-- A fetched info has no cost cached, and from Isthmus on it has the operator fee. -/
theorem tryFetch_ok (h : tryFetch db l2Block specId = .ok info) : info.txL1Cost = none ∧
      (specId.isEnabledIn .isthmus = true →
        ∃ scalar constant, info.OperatorFees scalar constant) := by
  obtain ⟨-, -, h⟩ := of_bind_eq_ok h
  obtain ⟨fee, -, h⟩ := of_bind_eq_ok h
  split_ifs at h with hecotone histhmus hjovian hjovian
  · refine ⟨tryFetchBedrock_txL1Cost h, ?_⟩
    intro histhmus
    exact absurd hecotone (by revert histhmus; cases specId <;> decide)
  all_goals
    obtain ⟨out, hout, h⟩ := of_bind_eq_ok h
    obtain ⟨out', hout', h⟩ := of_bind_eq_ok h
    have hcost := tryFetchEcotone_txL1Cost hout
  · obtain ⟨hfees, hcost'⟩ := tryFetchIsthmus_ok hout'
    rw [tryFetchJovian_ok h]
    exact ⟨hcost'.trans hcost, fun _ => hfees⟩
  · obtain ⟨hfees, hcost'⟩ := tryFetchIsthmus_ok hout'
    rw [← Except.ok.inj h]
    exact ⟨hcost'.trans hcost, fun _ => hfees⟩
  · rw [tryFetchJovian_ok h, ← Except.ok.inj hout']
    exact ⟨hcost, fun h => absurd h histhmus⟩
  · rw [← Except.ok.inj h, ← Except.ok.inj hout']
    exact ⟨hcost, fun h => absurd h histhmus⟩

end Fetched

/-! ## Exact L1 costs -/

section Exact

variable (flzCompressLen : List UInt8 → Nat) (info : L1BlockInfo) (input : List UInt8)
  (specId : OpSpecId)

/-- The data gas before Fjord over the natural numbers. -/
def rollupGas : Nat :=
  4 * (input.countP (· == 0) + 4 * (input.length - input.countP (· == 0)) +
    if specId.isEnabledIn .regolith then 0 else 272)

/-- The estimated size from Fjord on over the natural numbers. -/
def estimatedSize : Nat := max (flzCompressLen input * 836500 - 42585600) 100000000

/-- The price of a byte from Ecotone on, over the natural numbers. -/
def feeScaled : Nat :=
  info.l1BaseFee.toNat * 16 * info.l1BaseFeeScalar.toNat +
    (info.l1BlobBaseFee.getD 0).toNat * (info.l1BlobBaseFeeScalar.getD 0).toNat

/-- The amount of Bedrock before it is scaled by the fees. -/
def overheadGas : Nat := rollupGas input specId + (info.l1FeeOverhead.getD 0).toNat

/-- The Ecotone formula is in force. -/
def usesEcotone : Bool := specId.isEnabledIn .ecotone && !info.emptyEcotoneScalars

/-- The L1 cost over the natural numbers. -/
def l1Cost : Nat :=
  if isExempt input then 0
  else if specId.isEnabledIn .fjord then
    estimatedSize flzCompressLen input * info.feeScaled / 1000000000000
  else if info.usesEcotone specId then info.feeScaled * rollupGas input specId / 16000000
  else info.overheadGas input specId * info.l1BaseFee.toNat * info.l1BaseFeeScalar.toNat / 1000000

/-- The numbers that a price of a byte is computed from. -/
def scaledAmounts : List Nat :=
  [info.l1BaseFee.toNat * 16, info.l1BaseFee.toNat * 16 * info.l1BaseFeeScalar.toNat,
    (info.l1BlobBaseFee.getD 0).toNat * (info.l1BlobBaseFeeScalar.getD 0).toNat, info.feeScaled]

/-- The numbers that the formula of the fork computes. -/
def l1Amounts : List Nat :=
  if specId.isEnabledIn .fjord then
    info.scaledAmounts ++ [estimatedSize flzCompressLen input * info.feeScaled]
  else if info.usesEcotone specId then
    info.scaledAmounts ++ [info.feeScaled * rollupGas input specId]
  else
    [info.overheadGas input specId, info.overheadGas input specId * info.l1BaseFee.toNat,
      info.overheadGas input specId * info.l1BaseFee.toNat * info.l1BaseFeeScalar.toNat]

/-- The amounts of the L1 cost fit their types. -/
structure AmountsFit : Prop where
  size : 16 * input.length + 1088 ≤ u64Max
  compressed : flzCompressLen input * 836500 ≤ u64Max
  amounts : ∀ n ∈ l1Amounts flzCompressLen info input specId, n < 2 ^ 256

theorem getTokensInCalldata_eq (hsize : 16 * input.length + 1088 ≤ u64Max) :
    getTokensInCalldata input true =
      some (input.countP (· == 0) + 4 * (input.length - input.countP (· == 0))) := by
  have hcount : input.countP (· == 0) ≤ input.length := List.countP_le_length
  have hmul : mulU64 (input.length - input.countP (· == 0)) GasConst.nonZeroByteMultiplierIstanbul =
      some ((input.length - input.countP (· == 0)) * 4) := mulU64_eq_some (by
    show _ * 4 ≤ _
    omega)
  unfold getTokensInCalldata
  simp only [if_true, hmul, bind_eq_bind, bind_some]
  rw [addU64_eq_some (by omega), Nat.mul_comm _ 4]

/-- Before Fjord the data gas is `rollupGas`, without overflow. -/
theorem dataGas_eq (hsize : 16 * input.length + 1088 ≤ u64Max)
    (hfjord : specId.isEnabledIn .fjord = false) :
    dataGas flzCompressLen input specId = some (rollupGas input specId) := by
  have hcount : input.countP (· == 0) ≤ input.length := List.countP_le_length
  unfold dataGas rollupGas
  rw [hfjord, getTokensInCalldata_eq input hsize]
  cases hregolith : specId.isEnabledIn .regolith with
  | true =>
    simp only [Bool.false_eq_true, if_false, Bool.not_true, if_true, bind_eq_bind,
      bind_some, pure_def, some.injEq, saturatingMulU64]
    omega
  | false =>
    simp only [Bool.false_eq_true, if_false, Bool.not_false, if_true, bind_eq_bind, bind_some]
    rw [addU64_eq_some (by omega)]
    simp only [bind_some, pure_def, some.injEq, saturatingMulU64]
    omega

variable {flzCompressLen info input specId}

theorem estimateTxCompressedSize_eq (h : flzCompressLen input * 836500 ≤ u64Max) :
    estimateTxCompressedSize flzCompressLen input = estimatedSize flzCompressLen input := by
  unfold estimateTxCompressedSize estimatedSize saturatingMulU64
  rw [Nat.min_eq_left h]

theorem calculateL1FeeScaledEcotone_eq (h : ∀ n ∈ info.scaledAmounts, n < 2 ^ 256) :
    info.calculateL1FeeScaledEcotone = info.feeScaled := by
  simp only [scaledAmounts, List.forall_mem_cons] at h
  obtain ⟨hfee, hcalldata, hblob, hsum, -⟩ := h
  unfold calculateL1FeeScaledEcotone
  rw [saturatingMulU256_eq hfee, saturatingMulU256_eq hcalldata, saturatingMulU256_eq hblob]
  exact saturatingAddU256_eq hsum

theorem calculateTxL1CostBedrock_eq (hsize : 16 * input.length + 1088 ≤ u64Max)
    (hfjord : specId.isEnabledIn .fjord = false) (h : ∀ n ∈ [info.overheadGas input specId,
      info.overheadGas input specId * info.l1BaseFee.toNat,
      info.overheadGas input specId * info.l1BaseFee.toNat * info.l1BaseFeeScalar.toNat],
        n < 2 ^ 256) : info.calculateTxL1CostBedrock flzCompressLen input specId =
      some (info.overheadGas input specId * info.l1BaseFee.toNat * info.l1BaseFeeScalar.toNat /
        1000000) := by
  simp only [List.forall_mem_cons] at h
  obtain ⟨hgas, hfee, hscaled, -⟩ := h
  unfold calculateTxL1CostBedrock
  rw [dataGas_eq flzCompressLen input specId hsize hfjord, map_some, saturatingAddU256_eq hgas]
  change some (saturatingMulU256 (saturatingMulU256 (info.overheadGas input specId) _) _ / _) = _
  rw [saturatingMulU256_eq hfee, saturatingMulU256_eq hscaled]

/-- Where the amounts fit, no formula saturates. -/
theorem AmountsFit.l1CostOf_eq (h : AmountsFit flzCompressLen info input specId)
    (hexempt : isExempt input = false) : info.l1CostOf flzCompressLen input specId =
      some (l1Cost flzCompressLen info input specId) := by
  have hamounts := h.amounts
  unfold l1CostOf l1Cost
  rw [hexempt]
  unfold l1Amounts at hamounts
  cases hfjord : specId.isEnabledIn .fjord with
  | true =>
    rw [hfjord, if_pos rfl] at hamounts
    obtain ⟨hscaled, hproduct⟩ := List.forall_mem_append.1 hamounts
    simp only [Bool.false_eq_true, if_false, if_true, some.injEq]
    unfold calculateTxL1CostFjord
    rw [estimateTxCompressedSize_eq h.compressed, calculateL1FeeScaledEcotone_eq hscaled,
      saturatingMulU256_eq (hproduct _ List.mem_cons_self)]
  | false =>
    simp only [hfjord, Bool.false_eq_true, if_false] at hamounts ⊢
    cases hecotone : specId.isEnabledIn .ecotone with
    | false =>
      have huses : info.usesEcotone specId = false := by simp [usesEcotone, hecotone]
      simp only [huses, Bool.false_eq_true, if_false] at hamounts ⊢
      exact calculateTxL1CostBedrock_eq h.size hfjord hamounts
    | true =>
      unfold calculateTxL1CostEcotone
      cases hempty : info.emptyEcotoneScalars with
      | true =>
        have huses : info.usesEcotone specId = false := by simp [usesEcotone, hempty]
        simp only [huses, Bool.false_eq_true, if_false, if_true] at hamounts ⊢
        exact calculateTxL1CostBedrock_eq h.size hfjord hamounts
      | false =>
        have huses : info.usesEcotone specId = true := by simp [usesEcotone, hempty, hecotone]
        simp only [huses, Bool.false_eq_true, if_false, if_true] at hamounts ⊢
        obtain ⟨hscaled, hproduct⟩ := List.forall_mem_append.1 hamounts
        rw [dataGas_eq flzCompressLen input specId h.size hfjord, map_some,
          calculateL1FeeScaledEcotone_eq hscaled,
          saturatingMulU256_eq (hproduct _ List.mem_cons_self)]

/-- The first call computes the cost and every later one returns it. -/
theorem AmountsFit.calculateTxL1Cost_eq (h : AmountsFit flzCompressLen info input specId)
    (hcache : info.txL1Cost = none) : ∃ info', info.calculateTxL1Cost flzCompressLen input specId =
        some (l1Cost flzCompressLen info input specId, info') ∧
      info'.calculateTxL1Cost flzCompressLen input specId =
        some (l1Cost flzCompressLen info input specId, info') ∧
      info'.operatorFeeScalar = info.operatorFeeScalar ∧
      info'.operatorFeeConstant = info.operatorFeeConstant := by
  unfold calculateTxL1Cost
  rw [hcache]
  cases hexempt : isExempt input with
  | true =>
    have hzero : l1Cost flzCompressLen info input specId = 0 := by simp [l1Cost, hexempt]
    refine ⟨info, ?_, ?_, rfl, rfl⟩
    · rw [hzero]
      rfl
    · rw [hcache, hzero]
      rfl
  | false =>
    refine ⟨{ info with txL1Cost := some (l1Cost flzCompressLen info input specId) }, ?_, rfl,
      rfl, rfl⟩
    simp only [Bool.false_eq_true, if_false, h.l1CostOf_eq hexempt, map_some]

end Exact

end L1BlockInfo

end Revm
