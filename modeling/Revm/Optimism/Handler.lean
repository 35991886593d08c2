import Revm.Handler.Settlement
import Revm.Optimism.L1Block

/-!
# The OP handler

The functions in which `OpHandler` differs from the handler of the mainnet: the checks before the
execution, the payments around it, and the end of a transaction that failed. A deposit is a
transaction with a source hash; it was paid for on L1, may mint, and cannot be rejected.

The journal and the info of the L1 block are passed along. `none` is a panic.
-/

set_option autoImplicit false

namespace Revm

/-! ## Transactions and configuration -/

/-- `OpTransaction`. `baseIsDeposit` says that the type number of the base transaction, which is one
of the `Custom` types, is the one of deposits. -/
structure OpTransaction where
  base : TxEnv
  envelopedTx : Option (List UInt8)
  sourceHash : B256
  mint : Option U128
  isSystemTransaction : Bool
  baseIsDeposit : Bool
  deriving DecidableEq, Repr

namespace OpTransaction

/-- `is_deposit`. -/
def isDeposit (tx : OpTransaction) : Bool := tx.sourceHash != 0 || tx.baseIsDeposit

/-- The transaction as the functions of the mainnet see it. The effective gas price of a deposit is
its gas price. -/
def env (tx : OpTransaction) : TxEnv :=
  if tx.isDeposit then { tx.base with txType := .custom, gasPriorityFee := none } else tx.base

theorem env_of_not_deposit {tx : OpTransaction} (h : tx.isDeposit = false) : tx.env = tx.base := by
  unfold env
  rw [h]
  rfl

end OpTransaction

/-- `CfgEnv<OpSpecId>`. -/
structure OpCfgEnv extends CfgEnv where
  opSpec : OpSpecId
  disableFeeCharge : Bool
  spec_eq : spec = opSpec.intoEthSpec

/-- The default configuration of a fork. -/
def OpCfgEnv.newWithSpec (opSpec : OpSpecId) : OpCfgEnv :=
  { CfgEnv.newWithSpec opSpec.intoEthSpec with
    opSpec := opSpec
    disableFeeCharge := false
    spec_eq := rfl }

/-- `EVMError` with `OpTransactionError`. -/
inductive OpError (ε : Type) where
  | database (error : JournalLoadError ε)
  | header (error : InvalidHeader)
  | invalid (error : InvalidTransaction)
  | depositSystemTxPostRegolith
  | missingEnvelopedTx
  | haltedDepositPostRegolith
  | custom (message : String)

/-- `is_tx_error`. -/
def OpError.isTxError {ε : Type} : OpError ε → Bool
  | invalid _ | depositSystemTxPostRegolith | missingEnvelopedTx | haltedDepositPostRegolith => true
  | database _ | header _ | custom _ => false

/-! ## Before the execution -/

section Handler

variable {ε : Type} (flzCompressLen : List UInt8 → Nat) (db : Database ε) (tx : OpTransaction)
  (block : BlockEnv) (cfg : OpCfgEnv) (chain : L1BlockInfo) (j : JournalInner)

/-- `validate_env`. -/
def opValidateEnv : Except (OpError ε) Unit :=
  if tx.isDeposit then
    if tx.isSystemTransaction && cfg.opSpec.isEnabledIn .regolith then
      .error .depositSystemTxPostRegolith
    else .ok ()
  else if tx.envelopedTx.isNone then .error .missingEnvelopedTx
  else
    (validateEnv tx.base block cfg.toCfgEnv).mapError fun e =>
      match e with
      | .inl e => .header e
      | .inr e => .invalid e

/-- `validate_against_state_and_deduct_caller` of a deposit, on the account of the caller. -/
def depositDeductCaller (caller : JournaledAccount) : Option Unit × JournaledAccount :=
  match tx.env.effectiveBalanceSpending block.basefee.toNat block.blobGasprice with
  | some (.ok spending) =>
      let effectiveBalanceSpending := spending - tx.base.value
      let minted := (checkedAdd caller.account.info.balance
        (BitVec.ofNat 256 (tx.mint.getD 0).toNat)).getD (BitVec.allOnes 256)
      let newBalance := (checkedSub minted effectiveBalanceSpending).getD 0
      let newBalance :=
        if cfg.disableBalanceCheck && newBalance < tx.base.value then tx.base.value else newBalance
      let caller := caller.setBalance newBalance
      (some (), if tx.base.kind.isCreate then caller else caller.bumpNonce.2)
  | _ => (none, caller)

/-- The info in force: it is fetched again unless it is of this block. -/
def refreshChain : Except ε L1BlockInfo :=
  if chain.l2Block ≠ some block.number then L1BlockInfo.tryFetch db block.number cfg.opSpec
  else .ok chain

/-- The additional cost is taken from a balance, unless fees are not charged. -/
def deductAdditionalCost (balance : U256) : Option (Except InvalidTransaction U256 × L1BlockInfo) :=
  if cfg.disableFeeCharge then some (.ok balance, chain)
  else do
    -- `expect("all not deposit tx have enveloped tx")`
    let envelopedTx ← tx.envelopedTx
    let (cost, chain) ← chain.txCost flzCompressLen envelopedTx tx.base.gasLimit.toNat cfg.opSpec
    match checkedSub balance (BitVec.ofNat 256 cost) with
    | none => return (.error (.lackOfFundForMaxFee (BitVec.ofNat 256 cost) balance), chain)
    | some balance => return (.ok balance, chain)

/-- `validate_against_state_and_deduct_caller` of a transaction that is no deposit, on the account
of the caller. -/
def opDeductCaller (caller : JournaledAccount) :
    Option (Except InvalidTransaction Unit × L1BlockInfo) × JournaledAccount :=
  match validateAccountNonceAndCode caller.account.info tx.base.nonce cfg.disableEip3607
      cfg.disableNonceCheck with
  | .error e => (some (.error e, chain), caller)
  | .ok _ =>
      match deductAdditionalCost flzCompressLen tx cfg chain caller.account.info.balance with
      | none => (none, caller)
      | some (.error e, chain) => (some (.error e, chain), caller)
      | some (.ok balance, chain) =>
          match calculateCallerFee tx.base block cfg.toCfgEnv balance with
          | none => (none, caller)
          | some (.error e) => (some (.error e, chain), caller)
          | some (.ok newBalance) =>
              let caller := caller.setBalance newBalance
              (some (.ok (), chain), if tx.base.kind.isCreate then caller else caller.bumpNonce.2)

/-- `validate_against_state_and_deduct_caller`. -/
def opValidateAgainstStateAndDeductCaller :
    Option (Except (OpError ε) Unit × L1BlockInfo × JournalInner) :=
  if tx.isDeposit then
    match j.withJournaledAccount db tx.base.caller true (depositDeductCaller tx block cfg) with
    | (.error e, j) => some (.error (.database e), chain, j)
    | (.ok r, j) => r.map fun _ => (.ok (), chain, j)
  else
    match refreshChain db block cfg chain with
    | .error e => some (.error (.database (.dbError e)), chain, j)
    | .ok chain =>
        match j.withJournaledAccount db tx.base.caller true
            (opDeductCaller flzCompressLen tx block cfg chain) with
        | (.error e, j) => some (.error (.database e), chain, j)
        | (.ok r, j) => r.map fun r => (r.1.mapError .invalid, r.2, j)

/-! ## After the execution -/

/-- `L1_FEE_RECIPIENT`. -/
def l1FeeRecipient : Address := 0x420000000000000000000000000000000000001A#160

/-- `BASE_FEE_RECIPIENT`. -/
def baseFeeRecipient : Address := 0x4200000000000000000000000000000000000019#160

/-- `OPERATOR_FEE_RECIPIENT`. -/
def operatorFeeRecipient : Address := 0x420000000000000000000000000000000000001B#160

/-- `reimburse_caller`. -/
def opReimburseCaller (gas : Gas) (j : JournalInner) :
    Option (Except (JournalLoadError ε) Bool × JournalInner) := do
  let additionalRefund ←
    (if !tx.isDeposit && !cfg.disableFeeCharge then chain.operatorFeeRefund gas cfg.opSpec
    else some 0 : Option Nat)
  reimburseCaller db tx.env block gas (BitVec.ofNat 256 additionalRefund) j

/-- The loop of `reward_beneficiary` over `balance_incr`. -/
def balanceIncrAll : List (Address × U256) → JournalInner →
    Except (JournalLoadError ε) Unit × JournalInner
  | [], j => (.ok (), j)
  | (recipient, amount) :: rest, j =>
      match j.withJournaledAccount db recipient false fun account => account.incrBalance amount with
      | (.error e, j) => (.error e, j)
      | (.ok _, j) => balanceIncrAll rest j

/-- What the three vaults receive, and the info with the L1 cost cached. -/
def vaultFees (envelopedTx : List UInt8) (used : Nat) :
    Option (List (Address × U256) × L1BlockInfo) := do
  let (l1Cost, chain) ← chain.calculateTxL1Cost flzCompressLen envelopedTx cfg.opSpec
  let operatorFeeCost ←
    (if cfg.opSpec.isEnabledIn .isthmus then chain.operatorFeeCharge envelopedTx used cfg.opSpec
    else some 0 : Option Nat)
  let baseFeeAmount := saturatingMulU128 block.basefee.toNat used
  return ([(l1FeeRecipient, BitVec.ofNat 256 l1Cost),
    (baseFeeRecipient, BitVec.ofNat 256 baseFeeAmount),
    (operatorFeeRecipient, BitVec.ofNat 256 operatorFeeCost)], chain)

/-- `reward_beneficiary`. -/
def opRewardBeneficiary (gas : Gas) (j : JournalInner) :
    Option (Except (OpError ε) Unit × L1BlockInfo × JournalInner) :=
  if tx.isDeposit then some (.ok (), chain, j)
  else do
    match ← rewardBeneficiary db tx.base block cfg.toCfgEnv gas j with
    | (.error e, j) => return (.error (.database e), chain, j)
    | (.ok _, j) =>
        match tx.envelopedTx with
        | none =>
            return (.error (.custom "[OPTIMISM] Failed to load enveloped transaction."), chain, j)
        | some envelopedTx =>
            let (fees, chain) ← vaultFees flzCompressLen block cfg chain envelopedTx (← gas.used)
            let r := balanceIncrAll db fees j
            return (r.1.mapError .database, chain, r.2)

/-- The end of `post_execution`: `reimburse_caller` and `reward_beneficiary`. -/
def opSettleBalances (gas : Gas) (j : JournalInner) :
    Option (Except (OpError ε) Unit × L1BlockInfo × JournalInner) := do
  match ← opReimburseCaller db tx block cfg chain gas j with
  | (.error e, j) => return (.error (.database e), chain, j)
  | (.ok _, j) => opRewardBeneficiary flzCompressLen db tx block cfg chain gas j

/-! ## Errors -/

/-- What a failed transaction is answered with. -/
inductive OpOutcome (ε : Type) where
  | error (e : OpError ε)
  /-- `Halt` with the reason `FailedDeposit`. -/
  | failedDeposit (gasUsed : Nat)

/-- The gas that a failed deposit reports. -/
def failedDepositGas : Nat :=
  if cfg.opSpec.isEnabledIn .regolith || !tx.isSystemTransaction then tx.base.gasLimit.toNat else 0

/-- `catch_error`. The local context and the frame stack are cleared as well. Nothing is done with
the journal unless the transaction is a deposit. -/
def opCatchError (error : OpError ε) (chain : L1BlockInfo) (j : JournalInner) :
    Option (OpOutcome ε × L1BlockInfo × JournalInner) :=
  if error.isTxError && tx.isDeposit then do
    let j ← j.checkpointRevert ⟨0, 0⟩
    match j.withJournaledAccount db tx.base.caller false (fun account =>
        let account := account.bumpNonce.2
        account.incrBalance (BitVec.ofNat 256 (tx.mint.getD 0).toNat)) with
    -- the load's error is returned at once
    | (.error e, j) => return (.error (.database e), chain, j)
    | (.ok _, j) => return (.failedDeposit (failedDepositGas tx cfg), chain.clearTxL1Cost,
        j.commitTx)
  else return (.error error, chain.clearTxL1Cost, j)

end Handler

end Revm
