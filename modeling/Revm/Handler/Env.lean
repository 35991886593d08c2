import Revm.Interpreter.InstructionResult
import Revm.Primitives.Ints

/-!
# The environment of a transaction

`TxEnv`, `BlockEnv` and `CfgEnv` are the inputs of the handler; the functions of the `Transaction`
trait compute prices and the balance a transaction may spend. Prices are `u128` in the source: the
fields are bit vectors of that width and the functions compute in `Nat`. `none` is a panic.
-/

set_option autoImplicit false

namespace Revm

/-- `u128`. -/
abbrev U128 := BitVec 128

/-- `TransactionType`. Every type number above four is `Custom`. -/
inductive TransactionType where
  | legacy
  | eip2930
  | eip1559
  | eip4844
  | eip7702
  | custom
  deriving DecidableEq, Repr

/-- `TxKind`. -/
inductive TxKind where
  | create
  | call (target : Address)
  deriving DecidableEq, Repr

/-- `TxKind::is_create`. -/
def TxKind.isCreate : TxKind → Bool
  | create => true
  | call _ => false

/-- `AccessListItem`. -/
structure AccessListItem where
  address : Address
  storageKeys : List B256
  deriving DecidableEq, Repr

/-- An authorization of EIP-7702 with the authority that its signature recovers to, if any. -/
structure Authorization where
  chainId : U256
  address : Address
  nonce : U64
  authority : Option Address
  deriving DecidableEq, Repr

/-- `TxEnv`. -/
structure TxEnv where
  txType : TransactionType
  caller : Address
  gasLimit : U64
  gasPrice : U128
  kind : TxKind
  value : U256
  data : List UInt8
  nonce : U64
  chainId : Option U64
  accessList : List AccessListItem
  gasPriorityFee : Option U128
  blobHashes : List B256
  maxFeePerBlobGas : U128
  authorizationList : List Authorization
  deriving DecidableEq, Repr

/-- `TxEnv::default()`. -/
def TxEnv.default : TxEnv where
  txType := .legacy
  caller := 0
  gasLimit := 16777216
  gasPrice := 0
  kind := .call 0
  value := 0
  data := []
  nonce := 0
  chainId := some 1
  accessList := []
  gasPriorityFee := none
  blobHashes := []
  maxFeePerBlobGas := 0
  authorizationList := []

/-- `BlobExcessGasAndPrice`. -/
structure BlobExcessGasAndPrice where
  excessBlobGas : U64
  blobGasprice : U128
  deriving DecidableEq, Repr

/-- `BlockEnv`. -/
structure BlockEnv where
  number : U256
  beneficiary : Address
  timestamp : U256
  gasLimit : U64
  basefee : U64
  difficulty : U256
  prevrandao : Option B256
  blobExcessGasAndPrice : Option BlobExcessGasAndPrice
  deriving DecidableEq, Repr

/-- `BlockEnv::default()`. Without excess blob gas the price is the minimum. -/
def BlockEnv.default : BlockEnv where
  number := 0
  beneficiary := 0
  timestamp := 1
  gasLimit := BitVec.ofNat 64 u64Max
  basefee := 0
  difficulty := 0
  prevrandao := some 0
  blobExcessGasAndPrice := some ⟨0, 1⟩

/-- `blob_gasprice().unwrap_or_default()`. -/
def BlockEnv.blobGasprice (block : BlockEnv) : Nat :=
  (block.blobExcessGasAndPrice.map fun blob => blob.blobGasprice.toNat).getD 0

/-- `CfgEnv`. -/
structure CfgEnv where
  chainId : U64
  txChainIdCheck : Bool
  spec : SpecId
  limitContractCodeSize : Option Nat
  limitContractInitcodeSize : Option Nat
  disableNonceCheck : Bool
  maxBlobsPerTx : Option U64
  txGasLimitCap : Option U64
  disableBalanceCheck : Bool
  disableBlockGasLimit : Bool
  disableEip3541 : Bool
  disableEip3607 : Bool
  disableEip7623 : Bool
  disableBaseFee : Bool
  disablePriorityFeeCheck : Bool
  deriving DecidableEq, Repr

namespace CfgEnv

/-- `CfgEnv::new_with_spec`. -/
def newWithSpec (spec : SpecId) : CfgEnv where
  chainId := 1
  txChainIdCheck := true
  spec := spec
  limitContractCodeSize := none
  limitContractInitcodeSize := none
  disableNonceCheck := false
  maxBlobsPerTx := none
  txGasLimitCap := none
  disableBalanceCheck := false
  disableBlockGasLimit := false
  disableEip3541 := false
  disableEip3607 := false
  disableEip7623 := false
  disableBaseFee := false
  disablePriorityFeeCheck := false

/-- `tx_gas_limit_cap`. -/
def gasLimitCap (cfg : CfgEnv) : Nat :=
  match cfg.txGasLimitCap with
  | some cap => cap.toNat
  | none => if cfg.spec.isEnabledIn .osaka then 16777216 else u64Max

/-- `max_code_size`. -/
def maxCodeSize (cfg : CfgEnv) : Nat := cfg.limitContractCodeSize.getD 0x6000

/-- `max_initcode_size`. -/
def maxInitcodeSize (cfg : CfgEnv) : Nat :=
  (cfg.limitContractInitcodeSize.or (cfg.limitContractCodeSize.map (saturatingMulU64 · 2))).getD
    (2 * 0x6000)

end CfgEnv

/-! ## Errors -/

/-- The values of `InvalidTransaction` that the handler answers. -/
inductive InvalidTransaction where
  | priorityFeeGreaterThanMaxFee
  | gasPriceLessThanBasefee
  | callerGasLimitMoreThanBlock
  | callGasCostMoreThanGasLimit (initialGas gasLimit : Nat)
  | gasFloorMoreThanGasLimit (gasFloor gasLimit : Nat)
  | rejectCallerWithCode
  | lackOfFundForMaxFee (fee balance : U256)
  | overflowPaymentInTransaction
  | nonceTooHigh (tx state : U64)
  | nonceTooLow (tx state : U64)
  | createInitCodeSizeLimit
  | invalidChainId
  | missingChainId
  | txGasLimitGreaterThanCap (gasLimit cap : Nat)
  | blobGasPriceGreaterThanMax (blockBlobGasPrice txMaxFeePerBlobGas : Nat)
  | emptyBlobs
  | tooManyBlobs (limit count : Nat)
  | blobVersionNotSupported
  | emptyAuthorizationList
  | eip2930NotSupported
  | eip1559NotSupported
  | eip4844NotSupported
  | eip7702NotSupported
  deriving DecidableEq, Repr

/-- `InvalidHeader`. -/
inductive InvalidHeader where
  | prevrandaoNotSet
  | excessBlobGasNotSet
  deriving DecidableEq, Repr

/-! ## The `Transaction` trait -/

/-- `GAS_PER_BLOB`. -/
def gasPerBlob : Nat := 2 ^ 17

namespace TxEnv

variable (tx : TxEnv)

/-- `total_blob_gas`. -/
def totalBlobGas : Option Nat := mulU64 gasPerBlob tx.blobHashes.length

/-- `calc_max_data_fee`. -/
def calcMaxDataFee : Option Nat :=
  tx.totalBlobGas.map fun blobGas => saturatingMulU128 blobGas tx.maxFeePerBlobGas.toNat

/-- `max_fee_per_gas`. -/
def maxFeePerGas : Nat := tx.gasPrice.toNat

/-- `max_priority_fee_per_gas`. -/
def maxPriorityFeePerGas : Option Nat := tx.gasPriorityFee.map (·.toNat)

/-- `effective_gas_price`. -/
def effectiveGasPrice (baseFee : Nat) : Nat :=
  if tx.txType = .legacy ∨ tx.txType = .eip2930 then tx.gasPrice.toNat
  else
    match tx.maxPriorityFeePerGas with
    | none => tx.gasPrice.toNat
    | some maxPriorityFee => min tx.gasPrice.toNat (saturatingAddU128 baseFee maxPriorityFee)

/-- The sums of `max_balance_spending` and `effective_balance_spending`: the gas at a price, the
value and, for a blob transaction, the fee of the blobs. -/
def balanceSpending (price : Nat) (blobFee : Option Nat) :
    Option (Except InvalidTransaction U256) :=
  match (mulU128 tx.gasLimit.toNat price).bind fun gasCost =>
      checkedAdd (BitVec.ofNat 256 gasCost) tx.value with
  | none => some (.error .overflowPaymentInTransaction)
  | some spending =>
      if tx.txType = .eip4844 then
        blobFee.map fun fee =>
          match checkedAdd spending (BitVec.ofNat 256 fee) with
          | none => .error .overflowPaymentInTransaction
          | some spending => .ok spending
      else some (.ok spending)

/-- `max_balance_spending`. -/
def maxBalanceSpending : Option (Except InvalidTransaction U256) :=
  tx.balanceSpending tx.maxFeePerGas tx.calcMaxDataFee

/-- `effective_balance_spending`. -/
def effectiveBalanceSpending (baseFee blobPrice : Nat) : Option (Except InvalidTransaction U256) :=
  tx.balanceSpending (tx.effectiveGasPrice baseFee)
    (tx.totalBlobGas.map fun blobGas => saturatingMulU128 blobPrice blobGas)

/-- `ensure_enough_balance`. -/
def ensureEnoughBalance (balance : U256) : Option (Except InvalidTransaction Unit) :=
  tx.maxBalanceSpending.map fun spending =>
    match spending with
    | .error e => .error e
    | .ok spending =>
        if spending > balance then .error (.lackOfFundForMaxFee spending balance) else .ok ()

end TxEnv

end Revm
