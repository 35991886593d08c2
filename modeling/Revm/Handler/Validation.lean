import Revm.Handler.Env
import Revm.Interpreter.GasCalc

/-!
# Validation of a transaction

The checks of a transaction that need no state: `validate_env` against block and configuration, and
`validate_initial_tx_gas` against the intrinsic gas and the floor of EIP-7623. The lemmas say what
an accepted transaction satisfies.
-/

set_option autoImplicit false

namespace Revm

/-- `validate_legacy_gas_price`. -/
def validateLegacyGasPrice (gasPrice : Nat) (baseFee : Option Nat) :
    Except InvalidTransaction Unit :=
  match baseFee with
  | some baseFee => if gasPrice < baseFee then .error .gasPriceLessThanBasefee else .ok ()
  | none => .ok ()

/-- `validate_priority_fee_tx`. -/
def validatePriorityFeeTx (maxFee maxPriorityFee : Nat) (baseFee : Option Nat)
    (disablePriorityFeeCheck : Bool) : Except InvalidTransaction Unit :=
  if !disablePriorityFeeCheck && maxPriorityFee > maxFee then
    .error .priorityFeeGreaterThanMaxFee
  else
    match baseFee with
    | some baseFee =>
        if min maxFee (saturatingAddU128 baseFee maxPriorityFee) < baseFee then
          .error .gasPriceLessThanBasefee
        else .ok ()
    | none => .ok ()

/-- The first byte of a versioned hash. -/
def versionByte (blob : B256) : Nat := blob.toNat / 2 ^ 248

/-- `validate_eip4844_tx`. -/
def validateEip4844Tx (blobs : List B256) (maxBlobFee blockBlobGasPrice : Nat)
    (maxBlobs : Option U64) : Except InvalidTransaction Unit :=
  if blockBlobGasPrice > maxBlobFee then
    .error (.blobGasPriceGreaterThanMax blockBlobGasPrice maxBlobFee)
  else if blobs.isEmpty then .error .emptyBlobs
  else if blobs.any fun blob => versionByte blob ≠ 1 then .error .blobVersionNotSupported
  else
    match maxBlobs with
    | some maxBlobs =>
        if blobs.length > maxBlobs.toNat then .error (.tooManyBlobs maxBlobs.toNat blobs.length)
        else .ok ()
    | none => .ok ()

section Env

variable (tx : TxEnv) (block : BlockEnv) (cfg : CfgEnv)

/-- The base fee to check against, if that is enabled. -/
def checkedBaseFee : Option Nat :=
  if cfg.disableBaseFee then none else some block.basefee.toNat

/-- The chain id check of `validate_tx_env`. -/
def validateChainId : Except InvalidTransaction Unit :=
  if cfg.txChainIdCheck then
    match tx.chainId with
    | some chainId => if chainId ≠ cfg.chainId then .error .invalidChainId else .ok ()
    | none =>
        if tx.txType ≠ .legacy ∧ tx.txType ≠ .custom then .error .missingChainId else .ok ()
  else .ok ()

/-- `validate_priority_fee_tx` with the fields of the transaction. -/
def validateFees : Except InvalidTransaction Unit :=
  validatePriorityFeeTx tx.maxFeePerGas (tx.maxPriorityFeePerGas.getD 0) (checkedBaseFee block cfg)
    cfg.disablePriorityFeeCheck

/-- The match on the transaction type of `validate_tx_env`. -/
def validateTxType (specId : SpecId) : Except InvalidTransaction Unit :=
  match tx.txType with
  | .legacy => validateLegacyGasPrice tx.gasPrice.toNat (checkedBaseFee block cfg)
  | .eip2930 =>
      if !specId.isEnabledIn .berlin then .error .eip2930NotSupported
      else validateLegacyGasPrice tx.gasPrice.toNat (checkedBaseFee block cfg)
  | .eip1559 =>
      if !specId.isEnabledIn .london then .error .eip1559NotSupported
      else validateFees tx block cfg
  | .eip4844 =>
      if !specId.isEnabledIn .cancun then .error .eip4844NotSupported
      else do
        validateFees tx block cfg
        validateEip4844Tx tx.blobHashes tx.maxFeePerBlobGas.toNat block.blobGasprice
          cfg.maxBlobsPerTx
  | .eip7702 =>
      if !specId.isEnabledIn .prague then .error .eip7702NotSupported
      else do
        validateFees tx block cfg
        if tx.authorizationList.isEmpty then .error .emptyAuthorizationList else .ok ()
  | .custom => .ok ()

/-- `validate_tx_env`. -/
def validateTxEnv (specId : SpecId) : Except InvalidTransaction Unit := do
  validateChainId tx cfg
  if tx.gasLimit.toNat > cfg.gasLimitCap then
    .error (.txGasLimitGreaterThanCap tx.gasLimit.toNat cfg.gasLimitCap)
  validateTxType tx block cfg specId
  if !cfg.disableBlockGasLimit && tx.gasLimit > block.gasLimit then
    .error .callerGasLimitMoreThanBlock
  if specId.isEnabledIn .shanghai && tx.kind.isCreate && tx.data.length > cfg.maxInitcodeSize then
    .error .createInitCodeSizeLimit

/-- `validate_env`. -/
def validateEnv : Except (InvalidHeader ⊕ InvalidTransaction) Unit :=
  if cfg.spec.isEnabledIn .merge && block.prevrandao.isNone then .error (.inl .prevrandaoNotSet)
  else if cfg.spec.isEnabledIn .cancun && block.blobExcessGasAndPrice.isNone then
    .error (.inl .excessBlobGasNotSet)
  else (validateTxEnv tx block cfg cfg.spec).mapError .inr

/-- `calculate_initial_tx_gas_for_tx`. -/
def calculateInitialTxGasForTx (spec : SpecId) : Option InitialAndFloorGas :=
  let accessList := if tx.txType = .legacy then [] else tx.accessList
  calculateInitialTxGas spec tx.data tx.kind.isCreate accessList.length
    (accessList.map fun item => item.storageKeys.length).sum tx.authorizationList.length

/-- `validate_initial_tx_gas`. -/
def validateInitialTxGas (spec : SpecId) (isEip7623Disabled : Bool) :
    Option (Except InvalidTransaction InitialAndFloorGas) :=
  (calculateInitialTxGasForTx tx spec).map fun gas =>
    let gas := if isEip7623Disabled then { gas with floorGas := 0 } else gas
    if gas.initialGas > tx.gasLimit.toNat then
      .error (.callGasCostMoreThanGasLimit gas.initialGas tx.gasLimit.toNat)
    else if spec.isEnabledIn .prague && gas.floorGas > tx.gasLimit.toNat then
      .error (.gasFloorMoreThanGasLimit gas.floorGas tx.gasLimit.toNat)
    else .ok gas

end Env

/-! ## Accepted transactions -/

/-- A sequence of checks that passes passes each of them. -/
theorem ok_of_bind_eq_ok {ε α β : Type} {x : Except ε α} {f : α → Except ε β} {b : β}
    (h : x >>= f = .ok b) : ∃ a, x = .ok a ∧ f a = .ok b := by
  cases x with
  | error e => cases h
  | ok a => exact ⟨a, rfl, h⟩

section Accepted

variable {tx : TxEnv} {block : BlockEnv} {cfg : CfgEnv}

theorem checkedBaseFee_of_enabled (hbase : cfg.disableBaseFee = false) :
    checkedBaseFee block cfg = some block.basefee.toNat := by
  unfold checkedBaseFee
  rw [hbase]
  rfl

theorem validateTxEnv_of_validateEnv (h : validateEnv tx block cfg = .ok ()) :
    validateTxEnv tx block cfg cfg.spec = .ok () := by
  unfold validateEnv at h
  split_ifs at h
  cases htx : validateTxEnv tx block cfg cfg.spec with
  | error e =>
    rw [htx] at h
    cases h
  | ok u => rfl

theorem validateTxType_of_validateEnv (h : validateEnv tx block cfg = .ok ()) :
    validateTxType tx block cfg cfg.spec = .ok () := by
  have htx := validateTxEnv_of_validateEnv h
  obtain ⟨u, -, hrest⟩ := ok_of_bind_eq_ok htx
  by_cases hcap : tx.gasLimit.toNat > cfg.gasLimitCap
  · rw [if_pos hcap] at hrest
    cases hrest
  · rw [if_neg hcap] at hrest
    obtain ⟨v, htype, -⟩ := ok_of_bind_eq_ok hrest
    exact htype

/-- The priority fee check with the base fee leaves an effective price of at least the base fee. -/
theorem le_effectiveGasPrice_of_fees (hbase : cfg.disableBaseFee = false)
    (h : validateFees tx block cfg = .ok ()) :
    block.basefee.toNat ≤ tx.effectiveGasPrice block.basefee.toNat := by
  unfold validateFees validatePriorityFeeTx at h
  rw [checkedBaseFee_of_enabled hbase] at h
  split_ifs at h with hpriority
  dsimp only at h
  split_ifs at h with hlow
  have hmin := Nat.not_lt.1 hlow
  have hmax : block.basefee.toNat ≤ tx.gasPrice.toNat := hmin.trans (Nat.min_le_left _ _)
  unfold TxEnv.effectiveGasPrice
  split_ifs
  · exact hmax
  · cases hfee : tx.maxPriorityFeePerGas with
    | none => exact hmax
    | some fee =>
      rw [hfee] at hmin
      exact hmin

theorem le_gasPrice_of_legacy (hbase : cfg.disableBaseFee = false)
    (h : validateLegacyGasPrice tx.gasPrice.toNat (checkedBaseFee block cfg) = .ok ()) :
    block.basefee.toNat ≤ tx.gasPrice.toNat := by
  unfold validateLegacyGasPrice at h
  rw [checkedBaseFee_of_enabled hbase] at h
  dsimp only at h
  split_ifs at h with hlow
  exact Nat.not_lt.1 hlow

/-- A transaction type that is enabled. -/
theorem validateTxType_body {enabled : Bool} {e : InvalidTransaction}
    {body : Except InvalidTransaction Unit}
    (h : (if !enabled then .error e else body) = Except.ok ()) : body = .ok () := by
  split_ifs at h
  exact h

/-- An accepted transaction pays at least the base fee. -/
theorem le_effectiveGasPrice (hbase : cfg.disableBaseFee = false) (htype : tx.txType ≠ .custom)
    (h : validateEnv tx block cfg = .ok ()) :
    block.basefee.toNat ≤ tx.effectiveGasPrice block.basefee.toNat := by
  have hvalid := validateTxType_of_validateEnv h
  unfold validateTxType at hvalid
  cases hty : tx.txType <;> rw [hty] at hvalid
  case legacy =>
    unfold TxEnv.effectiveGasPrice
    rw [if_pos (Or.inl hty)]
    exact le_gasPrice_of_legacy hbase hvalid
  case eip2930 =>
    unfold TxEnv.effectiveGasPrice
    rw [if_pos (Or.inr hty)]
    exact le_gasPrice_of_legacy hbase (validateTxType_body hvalid)
  case eip1559 =>
    exact le_effectiveGasPrice_of_fees hbase (validateTxType_body hvalid)
  case eip4844 =>
    obtain ⟨u, hfees, -⟩ := ok_of_bind_eq_ok (validateTxType_body hvalid)
    exact le_effectiveGasPrice_of_fees hbase hfees
  case eip7702 =>
    obtain ⟨u, hfees, -⟩ := ok_of_bind_eq_ok (validateTxType_body hvalid)
    exact le_effectiveGasPrice_of_fees hbase hfees
  case custom => exact absurd hty htype

theorem effectiveGasPrice_le (tx : TxEnv) (baseFee : Nat) :
    tx.effectiveGasPrice baseFee ≤ tx.maxFeePerGas := by
  unfold TxEnv.effectiveGasPrice TxEnv.maxFeePerGas
  split_ifs
  · exact le_rfl
  · cases tx.maxPriorityFeePerGas with
    | none => exact le_rfl
    | some fee => exact Nat.min_le_left _ _

/-- An accepted blob transaction pays at least the price of the block. -/
theorem blobGasprice_le (htype : tx.txType = .eip4844) (h : validateEnv tx block cfg = .ok ()) :
    block.blobGasprice ≤ tx.maxFeePerBlobGas.toNat := by
  have hvalid := validateTxType_of_validateEnv h
  unfold validateTxType at hvalid
  rw [htype] at hvalid
  obtain ⟨u, -, hblob⟩ := ok_of_bind_eq_ok (validateTxType_body hvalid)
  unfold validateEip4844Tx at hblob
  split_ifs at hblob with hprice
  exact Nat.not_lt.1 hprice

/-- There is no floor before Prague. -/
theorem calculateInitialTxGas_floorGas {spec : SpecId} {input : List UInt8} {isCreate : Bool}
    {accounts storages authorizations : Nat} {gas : InitialAndFloorGas}
    (h : calculateInitialTxGas spec input isCreate accounts storages authorizations = some gas)
    (hspec : spec.isEnabledIn .prague = false) : gas.floorGas = 0 := by
  simp only [calculateInitialTxGas, Option.bind_eq_bind, Option.bind_eq_some_iff, hspec,
    Bool.false_eq_true, if_false] at h
  obtain ⟨tokens, -, gas₁, -, a, -, gas₂, -, b, -, gas₃, -, gas₄, -, h⟩ := h
  split_ifs at h with hinitcode
  · simp only [Option.bind_eq_some_iff] at h
    obtain ⟨cost, -, gas₅, -, h⟩ := h
    cases h
    rfl
  · cases h
    rfl

/-- The intrinsic gas and the floor of an accepted transaction are below its gas limit. -/
theorem initialGas_le {spec : SpecId} {disabled : Bool} {gas : InitialAndFloorGas}
    (h : validateInitialTxGas tx spec disabled = some (.ok gas)) :
    gas.initialGas ≤ tx.gasLimit.toNat ∧ gas.floorGas ≤ tx.gasLimit.toNat := by
  obtain ⟨init, hinit, h⟩ := Option.map_eq_some_iff.1 h
  have hfloor : spec.isEnabledIn .prague = false →
      (if disabled then { init with floorGas := 0 } else init : InitialAndFloorGas).floorGas =
        0 := by
    intro hspec
    split_ifs
    · rfl
    · exact calculateInitialTxGas_floorGas hinit hspec
  dsimp only at h
  generalize (if disabled then { init with floorGas := 0 } else init : InitialAndFloorGas) = g
    at h hfloor
  split_ifs at h with hlimit hprague
  cases h
  refine ⟨Nat.not_lt.1 hlimit, ?_⟩
  cases hspec : spec.isEnabledIn .prague with
  | false =>
    rw [hfloor hspec]
    exact Nat.zero_le _
  | true =>
    rw [hspec, Bool.true_and, decide_eq_true_iff] at hprague
    exact Nat.not_lt.1 hprague

end Accepted

end Revm
