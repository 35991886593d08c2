import Revm.Handler.CallerFee
import Revm.Journal.Balances

/-!
# Settlement of gas

Before the execution the caller pays for the whole gas limit, afterwards the unused gas is paid back
and the beneficiary is rewarded. The functions that do this are translated one by one. `Gas.Settled`
says what the gas of a finished transaction satisfies; the balances are followed as a ledger, over
the integers, so that a result with exact amounts leaves no room for an overflow or a saturation.
-/

set_option autoImplicit false

namespace Revm

open Option JournalInner Nat

open Ledger

variable {ε : Type} {gas : Gas} {gasLimit used limit returned blob : Nat} {eip7702Refund : Int}
  {init : InitialAndFloorGas} {amount : U256} {loadCode v skipColdLoad : Bool}
  {load : StateLoad Account} {sum₀ sum₁ sum₂ balance : ℤ}

/-! ## Gas -/

/-- `last_frame_result`. -/
def lastFrameResult (gasLimit : Nat) (result : InstructionResult) (gas : Gas) : Option Gas := do
  let spent := Gas.newSpent gasLimit
  let returned ← if result.isOkOrRevert then spent.eraseCost gas.remaining else some spent
  if result.isOk then returned.recordRefund gas.refunded else some returned

/-- `post_execution::refund`. -/
def refund (spec : SpecId) (gas : Gas) (eip7702Refund : Int) : Option Gas := do
  let gas ← gas.recordRefund eip7702Refund
  gas.setFinalRefund (spec.isEnabledIn .london)

/-- `eip7623_check_gas_floor`. -/
def eip7623CheckGasFloor (gas : Gas) (initAndFloorGas : InitialAndFloorGas) : Option Gas :=
  gas.spentSubRefunded.map fun spent =>
    if spent < initAndFloorGas.floorGas then (gas.setSpent initAndFloorGas.floorGas).setRefund 0
    else gas

/-! ## The caller pays -/

/-- `validate_account_nonce_and_code`. -/
def validateAccountNonceAndCode (callerInfo : AccountInfo) (txNonce : U64)
    (isEip3607Disabled isNonceCheckDisabled : Bool) : Except InvalidTransaction Unit :=
  let bytecode := callerInfo.code.getD Bytecode.default
  if !isEip3607Disabled && (!bytecode.isEmpty && !bytecode.isEip7702) then
    .error .rejectCallerWithCode
  else if !isNonceCheckDisabled && txNonce > callerInfo.nonce then
    .error (.nonceTooHigh txNonce callerInfo.nonce)
  else if !isNonceCheckDisabled && txNonce < callerInfo.nonce then
    .error (.nonceTooLow txNonce callerInfo.nonce)
  else .ok ()

section Handler

variable (db : Database ε) (tx : TxEnv) (block : BlockEnv) (cfg : CfgEnv)

/-- What `validate_against_state_and_deduct_caller` does with the account of the caller. -/
def deductCaller (caller : JournaledAccount) :
    Option (Except InvalidTransaction Unit) × JournaledAccount :=
  match validateAccountNonceAndCode caller.account.info tx.nonce cfg.disableEip3607
      cfg.disableNonceCheck with
  | .error e => (some (.error e), caller)
  | .ok _ =>
      match calculateCallerFee tx block cfg caller.account.info.balance with
      | none => (none, caller)
      | some (.error e) => (some (.error e), caller)
      | some (.ok newBalance) =>
          let caller := caller.setBalance newBalance
          (some (.ok ()), if tx.kind.isCreate then caller else caller.bumpNonce.2)

/-- `validate_against_state_and_deduct_caller`. -/
def validateAgainstStateAndDeductCaller (j : JournalInner) :
    Option (Except (JournalLoadError ε ⊕ InvalidTransaction) Unit × JournalInner) :=
  match j.withJournaledAccount db tx.caller true (deductCaller tx block cfg) with
  | (.error e, j) => some (.error (.inl e), j)
  | (.ok r, j) => r.map fun r => (r.mapError .inr, j)

/-! ## The caller is paid back and the beneficiary rewarded -/

/-- `reimburse_caller`. -/
def reimburseCaller (gas : Gas) (additionalRefund : U256) (j : JournalInner) :
    Option (Except (JournalLoadError ε) Bool × JournalInner) := do
  let effectiveGasPrice := tx.effectiveGasPrice block.basefee.toNat
  let returned ← addU64 gas.remaining (i64AsU64 gas.refunded)
  let amount := BitVec.ofNat 256 (saturatingMulU128 effectiveGasPrice returned) + additionalRefund
  return j.withJournaledAccount db tx.caller false fun account => account.incrBalance amount

/-- `reward_beneficiary`. -/
def rewardBeneficiary (gas : Gas) (j : JournalInner) :
    Option (Except (JournalLoadError ε) Bool × JournalInner) := do
  let basefee := block.basefee.toNat
  let effectiveGasPrice := tx.effectiveGasPrice basefee
  let coinbaseGasPrice :=
    if cfg.spec.isEnabledIn .london then effectiveGasPrice - basefee else effectiveGasPrice
  let amount ← mulU128 coinbaseGasPrice (← gas.used)
  return j.withJournaledAccount db block.beneficiary false fun account =>
    account.incrBalance (BitVec.ofNat 256 amount)

/-- The gas at the end of a transaction: `last_frame_result`, `refund` and
`eip7623_check_gas_floor`. -/
def settleGas (initAndFloorGas : InitialAndFloorGas) (result : InstructionResult) (gas : Gas)
    (eip7702Refund : Int) : Option Gas := do
  let gas ← lastFrameResult tx.gasLimit.toNat result gas
  let gas ← refund cfg.spec gas eip7702Refund
  eip7623CheckGasFloor gas initAndFloorGas

/-- The end of `post_execution`: what becomes of the balances. -/
def settleBalances (gas : Gas) (j : JournalInner) :
    Option (Except (JournalLoadError ε) Bool × JournalInner) := do
  match ← reimburseCaller db tx block gas 0 j with
  | (.error e, j) => return (.error e, j)
  | (.ok _, j) => rewardBeneficiary db tx block cfg gas j

end Handler

/-! ## The gas balances -/

/-- What the gas of a finished transaction satisfies. -/
structure Gas.Settled (gas : Gas) (gasLimit floorGas used : Nat) : Prop where
  used_eq : gas.used = some used
  refunded_nonneg : 0 ≤ gas.refunded
  sum : used + gas.remaining + gas.refunded.toNat = gasLimit
  floor_le : floorGas ≤ used
  used_le : used ≤ gasLimit
  refunded_le : 5 * gas.refunded.toNat ≤ gasLimit - gas.remaining

/-- Every unit of the gas limit is used, left or refunded. -/
structure Gas.Accounted (gas : Gas) (gasLimit used : Nat) : Prop where
  used_eq : gas.used = some used
  refunded_nonneg : 0 ≤ gas.refunded
  sum : used + gas.remaining + gas.refunded.toNat = gasLimit

theorem Gas.Settled.accounted {floorGas : Nat}
    (h : gas.Settled gasLimit floorGas used) : gas.Accounted gasLimit used :=
  ⟨h.used_eq, h.refunded_nonneg, h.sum⟩

theorem Gas.Accounted.used_le (h : gas.Accounted gasLimit used) : used ≤ gasLimit := by
  have hsum := h.sum
  omega

theorem lastFrameResult_eq (result : InstructionResult)
    (hlimit : gasLimit < 2 ^ 64) (hremaining : gas.remaining ≤ gasLimit)
    (hrefunded : 0 ≤ gas.refunded) (hrefunded' : gas.refunded < 2 ^ 63) :
    ∃ remaining refunded, remaining ≤ gas.remaining ∧ 0 ≤ refunded ∧ refunded ≤ gas.refunded ∧
      lastFrameResult gasLimit result gas = some ⟨gasLimit, remaining, refunded, .new⟩ := by
  have herase : (Gas.newSpent gasLimit).eraseCost gas.remaining =
      some ⟨gasLimit, gas.remaining, 0, .new⟩ := by
    have hadd : addU64 0 gas.remaining = some gas.remaining := by
      rw [addU64_eq_some (by unfold u64Max; omega), zero_add]
    show (addU64 0 gas.remaining).map _ = _
    rw [hadd]
    rfl
  have hrecord : ∀ remaining, (Gas.mk gasLimit remaining 0 .new).recordRefund gas.refunded =
      some ⟨gasLimit, remaining, gas.refunded, .new⟩ := by
    intro remaining
    have hadd : addI64 0 gas.refunded = some gas.refunded := by
      rw [addI64_eq_some (by omega) (by omega), Int.zero_add]
    show (addI64 0 gas.refunded).map _ = _
    rw [hadd]
    rfl
  unfold lastFrameResult InstructionResult.isOkOrRevert
  -- a success keeps gas and refund, a revert the gas, an error nothing
  cases hok : result.isOk with
  | true =>
    refine ⟨gas.remaining, gas.refunded, le_rfl, hrefunded, le_rfl, ?_⟩
    simp only [Bool.true_or, if_true, herase, bind_eq_bind, bind_some, hrecord]
  | false =>
    cases hrevert : result.isRevert with
    | true =>
      refine ⟨gas.remaining, 0, le_rfl, le_rfl, hrefunded, ?_⟩
      simp only [Bool.or_true, if_true, herase, bind_eq_bind, bind_some,
        Bool.false_eq_true, if_false]
    | false =>
      refine ⟨0, 0, zero_le _, le_rfl, hrefunded, ?_⟩
      simp only [Bool.or_false, Bool.false_eq_true, if_false, bind_eq_bind, bind_some]
      rfl

theorem refund_eq {spec : SpecId} (remaining : Nat) {refunded : Int}
    (hlondon : spec.isEnabledIn .london = true) (hlimit : gasLimit < 2 ^ 64)
    (hremaining : remaining ≤ gasLimit) (hrefunded : 0 ≤ refunded) (heip7702 : 0 ≤ eip7702Refund)
    (hsum : refunded + eip7702Refund < 2 ^ 63) :
    refund spec ⟨gasLimit, remaining, refunded, .new⟩ eip7702Refund =
      some ⟨gasLimit, remaining,
        (min (refunded + eip7702Refund).toNat ((gasLimit - remaining) / 5) : Nat), .new⟩ := by
  have hadd : addI64 refunded eip7702Refund = some (refunded + eip7702Refund) :=
    addI64_eq_some (by omega) hsum
  have hcast : i64AsU64 (refunded + eip7702Refund) = (refunded + eip7702Refund).toNat :=
    i64AsU64_of_nonneg (by omega) (by omega)
  have hspent : subU64 gasLimit remaining = some (gasLimit - remaining) := subU64_eq_some hremaining
  unfold refund Gas.recordRefund
  rw [hadd]
  simp only [map_some, bind_eq_bind, bind_some, Gas.setFinalRefund, Gas.spent,
    hspent, hlondon, if_true, hcast]
  rw [u64AsI64_of_lt (by omega)]

theorem eip7623CheckGasFloor_settled
    {refunded : Nat} (hlimit : gas.limit = gasLimit) (hbound : gasLimit < 2 ^ 64)
    (hremaining : gas.remaining ≤ gasLimit) (hrefunded : gas.refunded = refunded)
    (hfifth : 5 * refunded ≤ gasLimit - gas.remaining) (hfloor : init.floorGas ≤ gasLimit) :
    ∃ gas' used, eip7623CheckGasFloor gas init = some gas' ∧
      gas'.Settled gasLimit init.floorGas used := by
  have hcast : i64AsU64 gas.refunded = refunded := by
    rw [hrefunded, i64AsU64_of_nonneg (by omega) (by omega), Int.toNat_natCast]
  have hspent : gas.spent = some (gasLimit - gas.remaining) := by
    unfold Gas.spent
    rw [hlimit, subU64_eq_some hremaining]
  have hsub : gas.spentSubRefunded = some (gasLimit - gas.remaining - refunded) := by
    unfold Gas.spentSubRefunded
    rw [hspent, hcast]
    rfl
  unfold eip7623CheckGasFloor
  rw [hsub]
  by_cases hlow : gasLimit - gas.remaining - refunded < init.floorGas
  · -- the floor is charged and the refund dropped
    refine ⟨(gas.setSpent init.floorGas).setRefund 0, init.floorGas, ?_, ?_⟩
    · simp only [map_some, hlow, if_true]
    · have hused : ((gas.setSpent init.floorGas).setRefund 0).used = some init.floorGas := by
        show (subU64 gas.limit (gas.limit - init.floorGas)).map _ = _
        rw [hlimit, subU64_eq_some (by omega)]
        show some (gasLimit - (gasLimit - init.floorGas) - 0) = _
        congr 1
        omega
      have hrem : ((gas.setSpent init.floorGas).setRefund 0).remaining =
          gasLimit - init.floorGas := by
        show gas.limit - init.floorGas = _
        rw [hlimit]
      refine ⟨hused, le_rfl, ?_, le_rfl, hfloor, ?_⟩
      · rw [hrem]
        show init.floorGas + (gasLimit - init.floorGas) + 0 = gasLimit
        omega
      · show 5 * 0 ≤ _
        omega
  · refine ⟨gas, gasLimit - gas.remaining - refunded, ?_, ?_⟩
    · simp only [map_some, hlow, if_false]
    · refine ⟨?_, ?_, ?_, ?_, ?_, ?_⟩
      · unfold Gas.used
        rw [hspent, hcast]
        rfl
      · rw [hrefunded]
        omega
      · rw [hrefunded, Int.toNat_natCast]
        omega
      · omega
      · omega
      · rw [hrefunded, Int.toNat_natCast]
        exact hfifth

/-- The gas of every finished transaction is settled. -/
theorem settleGas_settled {tx : TxEnv} {cfg : CfgEnv} (result : InstructionResult)
    (hlondon : cfg.spec.isEnabledIn .london = true) (hfloor : init.floorGas ≤ tx.gasLimit.toNat)
    (hremaining : gas.remaining ≤ tx.gasLimit.toNat) (hrefunded : 0 ≤ gas.refunded)
    (heip7702 : 0 ≤ eip7702Refund) (hsum : gas.refunded + eip7702Refund < 2 ^ 63) :
    ∃ gas' used, settleGas tx cfg init result gas eip7702Refund = some gas' ∧
      gas'.Settled tx.gasLimit.toNat init.floorGas used := by
  have hbound : tx.gasLimit.toNat < 2 ^ 64 := tx.gasLimit.isLt
  obtain ⟨remaining, refunded, hrem, hnonneg, hle, hlast⟩ :=
    lastFrameResult_eq result hbound hremaining hrefunded (by omega)
  have hrefund :=
    refund_eq remaining hlondon hbound (hrem.trans hremaining) hnonneg heip7702 (by omega)
  unfold settleGas
  simp only [hlast, hrefund, bind_eq_bind, bind_some]
  have hfifth : 5 * min (refunded + eip7702Refund).toNat ((tx.gasLimit.toNat - remaining) / 5) ≤
      tx.gasLimit.toNat - remaining := by
    omega
  exact eip7623CheckGasFloor_settled rfl hbound (hrem.trans hremaining) rfl hfifth hfloor

/-! ## The ledger -/

namespace JournaledAccount

theorem incrBalance_balance (x : JournaledAccount)
    (hfits : Fits 256 ((x.account.info.balance.toNat : ℤ) + amount.toNat)) :
    (x.incrBalance amount).1 = true ∧
      ((x.incrBalance amount).2.account.info.balance.toNat : ℤ) =
        x.account.info.balance.toNat + amount.toNat := by
  have hadd : checkedAdd x.account.info.balance amount = some (x.account.info.balance + amount) :=
    if_pos (by exact_mod_cast hfits.2)
  refine ⟨?_, ?_⟩
  · simp only [incrBalance, account_touch]
    rw [show x.account.markTouch.info.balance = x.account.info.balance from rfl, hadd]
  · rw [account_incrBalance, hadd]
    exact toNat_add_of_fits hfits

end JournaledAccount

section Ledger

variable {db : Database ε} {j j' : JournalInner} {a : Address}

/-- What is done with a loaded account, seen in the ledger. -/
theorem withJournaledAccount_ok {α : Type} {f : JournaledAccount → α × JournaledAccount} {v : α}
    (hkeep : j.loadKeepsBalance a = true)
    (h : j.withJournaledAccount db a loadCode f = (.ok v, j')) :
    ∃ x : JournaledAccount, (x.account.info.balance.toNat : ℤ) = balances db j.state a ∧
      v = (f x).1 ∧
      ∀ amount : ℤ, ((f x).2.account.info.balance.toNat : ℤ) = balances db j.state a + amount →
        balances db j'.state = credit (balances db j.state) a amount := by
  have hquiet : Quiet db j (j.loadAccountOptional db a loadCode false).2 := .load hkeep
  unfold withJournaledAccount at h
  cases hload : j.loadAccountOptional db a loadCode false with
  | mk load j₁ =>
    rw [hload] at hquiet
    rw [show j.loadAccountMutOptionalCode db a loadCode false = (load, j₁) from hload] at h
    cases load with
    | error e => cases h
    | ok load =>
      have hl := (loadOutcome hload).lookup
      cases h
      refine ⟨⟨a, load.data, j₁.journal⟩, ?_, rfl, ?_⟩
      · rw [← hquiet.1, balances_of_lookup db hl]
      · intro amount hamount
        rw [← hquiet.1] at hamount ⊢
        exact balances_insert hamount

theorem incrBalance_credit (hkeep : j.loadKeepsBalance a = true)
    (hfits : Fits 256 (balances db j.state a + amount.toNat))
    (h : j.withJournaledAccount db a loadCode (fun account => account.incrBalance amount) =
      (.ok v, j')) :
    v = true ∧ balances db j'.state = credit (balances db j.state) a amount.toNat := by
  obtain ⟨x, hx, hv, hcredit⟩ := withJournaledAccount_ok hkeep h
  rw [← hx] at hfits
  obtain ⟨htrue, hbalance⟩ := x.incrBalance_balance hfits
  rw [hx] at hbalance
  exact ⟨hv.trans htrue, hcredit _ hbalance⟩

/-! ### Loads after a load -/

/-- The account will not be cleared by a load in this transaction. -/
def Account.isSafe (account : Account) (transactionId : Nat) : Bool :=
  !(account.isColdTransactionId transactionId && account.isSelfdestructedLocally)

theorem loadKeepsBalance_of_isSafe {account : Account} (hl : j.state.lookup a = some account)
    (hsafe : account.isSafe j.transactionId = true) : j.loadKeepsBalance a = true := by
  unfold loadKeepsBalance
  unfold Account.isSafe at hsafe
  rw [Bool.not_eq_true'] at hsafe
  simp only [hl, hsafe, Bool.false_and, Bool.not_false]

theorem loadKeepsBalance_congr (hl : j'.state.lookup a = j.state.lookup a)
    (hid : j'.transactionId = j.transactionId) : j'.loadKeepsBalance a = j.loadKeepsBalance a := by
  unfold loadKeepsBalance
  rw [hl, hid]

theorem loadEntry_isSafe
    (h : j.loadEntry db a skipColdLoad = .ok load) : load.data.isSafe j.transactionId = true := by
  unfold Account.isSafe
  cases found_of_loadEntry h with
  | cold => simp [Scope.isColdTransactionId_warmUp]
  | warm account hl hwarm => simp [hwarm]
  | stored | absent =>
    simp [Account.isSelfdestructedLocally, Account.ofInfo, Account.newNotExisting,
      AccountFlags.empty]

theorem load_isSafe (h : j.LoadOutcome db a loadCode skipColdLoad (.ok load, j')) :
    load.data.isSafe j.transactionId = true := by
  cases h with
  | code load code hentry =>
    have hsafe := loadEntry_isSafe hentry
    exact hsafe
  | loaded load hentry => exact loadEntry_isSafe hentry

/-- Paying an account does not endanger a later load. -/
theorem loadKeepsBalance_incrBalance {x : Address} (hx : j.loadKeepsBalance x = true)
    (h : j.withJournaledAccount db a false (fun account => account.incrBalance amount) =
      (.ok v, j')) : j'.loadKeepsBalance x = true := by
  unfold withJournaledAccount at h
  rcases hload : j.loadAccountMutOptionalCode db a false false with ⟨_ | load, j₁⟩ <;>
    rw [hload] at h
  · cases h
  · have hout := loadOutcome hload
    obtain ⟨hid, -, -, hother⟩ := hout.frame
    cases h
    by_cases heq : x = a
    · subst heq
      apply loadKeepsBalance_of_isSafe (AList.lookup_insert _)
      rw [JournaledAccount.account_incrBalance]
      show load.data.isSafe j₁.transactionId = true
      rw [show j₁.transactionId = j.transactionId from hid]
      exact load_isSafe hout
    · rw [← hx]
      apply loadKeepsBalance_congr
      · show (j₁.state.insert a _).lookup x = _
        rw [AList.lookup_insert_ne heq]
        exact hother x heq
      · exact hid

/-- Paying an account an amount that it can hold. -/
theorem payAccount_exact {n : Nat} {b : Bool} (hamount : amount.toNat = n)
    (hkeep : j.loadKeepsBalance a = true) (hfits : balances db j.state a + n < 2 ^ 256)
    (hb : (j.withJournaledAccount db a false fun account => account.incrBalance amount).1 = .ok b) :
    balances db (j.withJournaledAccount db a false fun account =>
        account.incrBalance amount).2.state = credit (balances db j.state) a n ∧
      ∀ x, j.loadKeepsBalance x = true →
        (j.withJournaledAccount db a false fun account =>
          account.incrBalance amount).2.loadKeepsBalance x = true := by
  rcases hw : j.withJournaledAccount db a false (fun account => account.incrBalance amount)
    with ⟨v, j₁⟩
  rw [hw] at hb
  cases hb
  have hfits' : Fits 256 (balances db j.state a + amount.toNat) := by
    have := balances_nonneg db j.state a
    constructor <;> omega
  obtain ⟨-, hcredit⟩ := incrBalance_credit hkeep hfits' hw
  rw [hamount] at hcredit
  exact ⟨hcredit, fun x hx => loadKeepsBalance_incrBalance hx hw⟩

end Ledger

/-! ## The whole settlement -/

section Settlement

variable {db : Database ε} {tx : TxEnv} {block : BlockEnv} {cfg : CfgEnv} {j : JournalInner}

/-- The caller pays for the gas limit and for the blobs. -/
theorem deductCaller_exact (db : Database ε) (hvalid : validateEnv tx block cfg = .ok ())
    (hcheck : cfg.disableBalanceCheck = false) (hfit : tx.BlobsFit block)
    (hkeep : j.loadKeepsBalance tx.caller = true) :
    ∃ r, validateAgainstStateAndDeductCaller db tx block cfg j = some r ∧ (r.1 = .ok () →
      tx.gasLimit.toNat * tx.maxFeePerGas ≤ u128Max ∧
      balances db r.2.state = credit (balances db j.state) tx.caller
        (-(tx.gasLimit.toNat * tx.effectiveGasPrice block.basefee.toNat + tx.blobFee
          block : Nat))) := by
  unfold validateAgainstStateAndDeductCaller
  rcases hw : j.withJournaledAccount db tx.caller true (deductCaller tx block cfg) with ⟨_ | v, j₁⟩
  · exact ⟨_, rfl, nofun⟩
  obtain ⟨x, hx, hv, hcredit⟩ := withJournaledAccount_ok hkeep hw
  obtain ⟨fee, hfee, hexact⟩ :=
    calculateCallerFee_exact hvalid hcheck hfit x.account.info.balance
  subst hv
  unfold deductCaller at hcredit ⊢
  cases hnonce : validateAccountNonceAndCode x.account.info tx.nonce cfg.disableEip3607
      cfg.disableNonceCheck with
  | error e => exact ⟨_, rfl, nofun⟩
  | ok u =>
    simp only [hnonce, hfee] at hcredit ⊢
    cases fee with
    | error e => exact ⟨_, rfl, nofun⟩
    | ok newBalance =>
      obtain ⟨hmul, hbalance⟩ := hexact newBalance rfl
      refine ⟨_, rfl, fun _ => ⟨hmul, hcredit _ ?_⟩⟩
      have hnew : (if tx.kind.isCreate = true then x.setBalance newBalance
          else (x.setBalance newBalance).bumpNonce.2).account.info.balance = newBalance := by
        split_ifs
        · rw [x.account_setBalance]
          rfl
        · rw [JournaledAccount.account_bumpNonce, x.account_setBalance]
          rfl
      rw [hnew, ← hx]
      omega

/-- A part of the gas limit at the effective price or less. -/
theorem mul_le_u128Max (hmul : tx.gasLimit.toNat * tx.maxFeePerGas ≤ u128Max) {price gas : Nat}
    (hprice : price ≤ tx.effectiveGasPrice block.basefee.toNat) (hgas : gas ≤ tx.gasLimit.toNat) :
    price * gas ≤ u128Max := by
  calc price * gas ≤ tx.maxFeePerGas * tx.gasLimit.toNat :=
        Nat.mul_le_mul (hprice.trans (effectiveGasPrice_le tx _)) hgas
    _ = tx.gasLimit.toNat * tx.maxFeePerGas := mul_comm _ _
    _ ≤ u128Max := hmul

/-- What is paid back for the gas, as the source adds it. -/
theorem Gas.Accounted.returned_eq (h : gas.Accounted tx.gasLimit.toNat used) :
    addU64 gas.remaining (i64AsU64 gas.refunded) = some (tx.gasLimit.toNat - used) := by
  have hsum := h.sum
  have hcast : i64AsU64 gas.refunded = gas.refunded.toNat :=
    i64AsU64_of_nonneg h.refunded_nonneg (by omega)
  rw [hcast, addU64_eq_some (by unfold u64Max; omega)]
  congr 1
  omega

/-- What is paid back. -/
theorem reimburseCaller_exact (db : Database ε) (block : BlockEnv) {additional : U256}
    (hgas : gas.Accounted tx.gasLimit.toNat used) (hadditional : additional.toNat ≤ u128Max)
    (hmul : tx.gasLimit.toNat * tx.maxFeePerGas ≤ u128Max)
    (hkeep : j.loadKeepsBalance tx.caller = true) (hfits : balances db j.state tx.caller +
      (tx.effectiveGasPrice block.basefee.toNat * (tx.gasLimit.toNat - used) +
        additional.toNat : Nat) < 2 ^ 256) :
    ∃ r, reimburseCaller db tx block gas additional j = some r ∧ ∀ b, r.1 = .ok b →
      balances db r.2.state = credit (balances db j.state) tx.caller
        (tx.effectiveGasPrice block.basefee.toNat * (tx.gasLimit.toNat - used) +
          additional.toNat : Nat) ∧
      ∀ x, j.loadKeepsBalance x = true → r.2.loadKeepsBalance x = true := by
  have hproduct : tx.effectiveGasPrice block.basefee.toNat * (tx.gasLimit.toNat - used) ≤ u128Max :=
    mul_le_u128Max hmul le_rfl (sub_le _ _)
  have hamount : (BitVec.ofNat 256 (saturatingMulU128 (tx.effectiveGasPrice block.basefee.toNat)
      (tx.gasLimit.toNat - used)) + additional).toNat =
        tx.effectiveGasPrice block.basefee.toNat * (tx.gasLimit.toNat - used) +
          additional.toNat := by
    rw [saturatingMulU128_eq hproduct, BitVec.toNat_add, toNat_ofNat_of_le_u128Max hproduct]
    apply mod_eq_of_lt
    unfold u128Max at hproduct hadditional
    omega
  unfold reimburseCaller
  rw [hgas.returned_eq]
  exact ⟨_, rfl, fun b hb => payAccount_exact hamount hkeep hfits hb⟩

/-- What the beneficiary gets. -/
theorem rewardBeneficiary_exact (db : Database ε)
    (hgas : gas.Accounted tx.gasLimit.toNat used) (hlondon : cfg.spec.isEnabledIn .london = true)
    (hmul : tx.gasLimit.toNat * tx.maxFeePerGas ≤ u128Max)
    (hkeep : j.loadKeepsBalance block.beneficiary = true)
    (hfits : balances db j.state block.beneficiary +
      ((tx.effectiveGasPrice block.basefee.toNat - block.basefee.toNat) * used : Nat) < 2 ^ 256) :
    ∃ r, rewardBeneficiary db tx block cfg gas j = some r ∧ ∀ b, r.1 = .ok b →
      balances db r.2.state = credit (balances db j.state) block.beneficiary
        ((tx.effectiveGasPrice block.basefee.toNat - block.basefee.toNat) * used : Nat) ∧
      ∀ x, j.loadKeepsBalance x = true → r.2.loadKeepsBalance x = true := by
  have hproduct : (tx.effectiveGasPrice block.basefee.toNat - block.basefee.toNat) * used ≤
      u128Max := mul_le_u128Max hmul (sub_le _ _) hgas.used_le
  unfold rewardBeneficiary
  simp only [hgas.used_eq, hlondon, if_true, bind_eq_bind, bind_some, mulU128_eq_some hproduct]
  refine ⟨_, rfl, fun b hb => ?_⟩
  exact payAccount_exact (toNat_ofNat_of_le_u128Max hproduct) hkeep hfits hb

/-- The caller can hold what is paid back: it was paid before, out of a total that fits. -/
theorem reimbursement_fits (hsum₀ : sum₀ < 2 ^ 256) (hsum₁ : sum₁ = sum₀ + -(limit + blob : Nat))
    (hlimit : limit = used + returned) (hsum₂ : sum₂ ≤ sum₁) (hbalance : balance ≤ sum₂) :
    balance + returned < 2 ^ 256 := by
  omega

/-- The beneficiary can hold the reward, which is a part of what was paid. -/
theorem reward_fits {sum₃ : ℤ} {reward : Nat}
    (hsum₀ : sum₀ < 2 ^ 256) (hsum₁ : sum₁ = sum₀ + -(limit + blob : Nat))
    (hlimit : limit = used + returned) (hsum₂ : sum₂ ≤ sum₁) (hsum₃ : sum₃ = sum₂ + returned)
    (hreward : reward ≤ used) (hbalance : balance ≤ sum₃) : balance + reward < 2 ^ 256 := by
  omega

/-- The payments of a settlement add up. -/
theorem settlement_adds (b₀ : Address → ℤ) {b₂ : Address → ℤ} {caller : Address} (blob : Nat)
    (hlimit : limit = used + returned) :
    credit b₂ caller returned =
      credit (b₀ + (b₂ - credit b₀ caller (-(limit + blob : Nat)))) caller (-(used + blob)) := by
  funext x
  simp only [credit_apply, Pi.add_apply, Pi.sub_apply]
  split_ifs <;> push_cast <;> omega

/-- Every transaction settles: its gas adds up, the caller pays exactly for the used gas and the
blobs and the beneficiary receives exactly the priority fee of the used gas, on top of what the
execution moves. -/
theorem transaction_settles (db : Database ε) (tx : TxEnv) (block : BlockEnv) (cfg : CfgEnv)
    (init : InitialAndFloorGas) (result : InstructionResult) (gas : Gas) (eip7702Refund : Int)
    (j₀ : JournalInner) (hvalid : validateEnv tx block cfg = .ok ())
    (hinit : validateInitialTxGas tx cfg.spec cfg.disableEip7623 = some (.ok init))
    (hcheck : cfg.disableBalanceCheck = false) (hbase : cfg.disableBaseFee = false)
    (htype : tx.txType ≠ .custom) (hlondon : cfg.spec.isEnabledIn .london = true)
    (hblobs : tx.BlobsFit block) (hremaining : gas.remaining ≤ tx.gasLimit.toNat - init.initialGas)
    (hrefunded : 0 ≤ gas.refunded) (heip7702 : 0 ≤ eip7702Refund)
    (hsum : gas.refunded + eip7702Refund < 2 ^ 63) (htotal : total (balances db j₀.state) < 2 ^ 256)
    (hcaller : j₀.loadKeepsBalance tx.caller = true) :
    ∃ gas' used, settleGas tx cfg init result gas eip7702Refund = some gas' ∧
      gas'.Settled tx.gasLimit.toNat init.floorGas used ∧
      ∃ paid, validateAgainstStateAndDeductCaller db tx block cfg j₀ = some paid ∧
        (paid.1 = .ok () → ∀ j₂ : JournalInner,
          total (balances db j₂.state) ≤ total (balances db paid.2.state) →
          j₂.loadKeepsBalance tx.caller = true → j₂.loadKeepsBalance block.beneficiary = true →
          ∃ settled, settleBalances db tx block cfg gas' j₂ = some settled ∧
            ∀ b, settled.1 = .ok b →
              balances db settled.2.state =
                credit (credit (balances db j₀.state +
                    (balances db j₂.state - balances db paid.2.state)) tx.caller
                  (-(used * tx.effectiveGasPrice block.basefee.toNat + tx.blobFee block)))
                  block.beneficiary
                  (used * (tx.effectiveGasPrice block.basefee.toNat - block.basefee.toNat))) := by
  obtain ⟨hinitial, hfloor⟩ := initialGas_le hinit
  obtain ⟨gas', used, hgas, hsettled⟩ := settleGas_settled result hlondon hfloor
    (hremaining.trans (sub_le _ _)) hrefunded heip7702 hsum
  obtain ⟨paid, hpaid, hdeducted⟩ := deductCaller_exact db hvalid hcheck hblobs hcaller
  refine ⟨gas', used, hgas, hsettled, paid, hpaid, ?_⟩
  intro hok j₂ htotal₂ hcaller₂ hbeneficiary₂
  obtain ⟨hmul, hb₁⟩ := hdeducted hok
  have hprice := le_effectiveGasPrice hbase htype hvalid
  have hused := hsettled.used_le
  -- the gas limit is paid for, the unused part comes back, the rest splits into reward and base fee
  have hsplit : tx.gasLimit.toNat * tx.effectiveGasPrice block.basefee.toNat =
      used * tx.effectiveGasPrice block.basefee.toNat +
        tx.effectiveGasPrice block.basefee.toNat * (tx.gasLimit.toNat - used) := by
    rw [Nat.mul_comm _ (tx.gasLimit.toNat - used), ← Nat.add_mul, Nat.add_sub_cancel' hused]
  have hreward : ((tx.effectiveGasPrice block.basefee.toNat - block.basefee.toNat) * used : Nat) =
      (used : ℤ) * (tx.effectiveGasPrice block.basefee.toNat - block.basefee.toNat) := by
    rw [cast_mul, cast_sub hprice, mul_comm]
  have hreward_le : (tx.effectiveGasPrice block.basefee.toNat - block.basefee.toNat) * used ≤
      used * tx.effectiveGasPrice block.basefee.toNat := by
    rw [mul_comm]
    exact mul_le_mul_left _ (sub_le _ _)
  have htotal₁ : total (balances db paid.2.state) = total (balances db j₀.state) +
      -(tx.gasLimit.toNat * tx.effectiveGasPrice block.basefee.toNat + tx.blobFee block : Nat) := by
    rw [hb₁, total_credit]
  have hle := le_total (balances_nonneg db j₂.state) tx.caller
  obtain ⟨r₃, hr₃, hreimbursed⟩ := reimburseCaller_exact db block hsettled.accounted
    (show (0 : U256).toNat ≤ u128Max by decide) hmul hcaller₂
    (reimbursement_fits htotal htotal₁ hsplit htotal₂ hle)
  unfold settleBalances
  rw [hr₃]
  rcases r₃ with ⟨_ | v, j₃⟩
  · exact ⟨_, rfl, nofun⟩
  obtain ⟨hb₃, hkeep₃⟩ := hreimbursed v rfl
  rw [show (0 : U256).toNat = 0 from rfl, add_zero] at hb₃
  have htotal₃ : total (balances db j₃.state) = total (balances db j₂.state) +
      (tx.effectiveGasPrice block.basefee.toNat * (tx.gasLimit.toNat - used) : Nat) := by
    rw [hb₃, total_credit]
  have hle₃ := le_total (balances_nonneg db j₃.state) block.beneficiary
  obtain ⟨r₄, hr₄, hrewarded⟩ := rewardBeneficiary_exact db hsettled.accounted hlondon hmul
    (hkeep₃ _ hbeneficiary₂)
    (reward_fits htotal htotal₁ hsplit htotal₂ htotal₃ hreward_le hle₃)
  refine ⟨r₄, hr₄, fun b hb => ?_⟩
  have hpaid₃ := hb₃.trans (settlement_adds (balances db j₀.state) (tx.blobFee block) hsplit)
  rw [(hrewarded b hb).1, hpaid₃, hb₁, hreward, cast_mul]

end Settlement

/-! ## Settlements on a small database -/

/-- Account `1` can pay fees, account `2` can hold nothing more. -/
def feeDb : Database Empty where
  basic a := .ok (if a = 1 then some { AccountInfo.default with balance := 10 ^ 9 }
    else if a = 2 then some { AccountInfo.default with balance := BitVec.allOnes 256 } else none)
  codeByHash _ := .ok Bytecode.default
  storage _ _ := .ok 0

/-- Only account `1` holds something. -/
def loneDb : Database Empty where
  basic a := .ok (if a = 1 then some { AccountInfo.default with balance := 10 ^ 9 } else none)
  codeByHash _ := .ok Bytecode.default
  storage _ _ := .ok 0

theorem total_loneDb : total (balances loneDb ∅) < 2 ^ 256 := by
  have hsupport : total (balances loneDb ∅) = ([1].map (balances loneDb ∅)).sum := by
    apply total_eq_sum (by decide)
    intro a ha
    have hne : a ≠ 1 := fun h => ha (by simp [h])
    show ((loneDb.balance a).toNat : ℤ) = 0
    unfold Database.balance loneDb
    simp only [if_neg hne]
    rfl
  rw [hsupport]
  decide

/-- The sender is the beneficiary and the execution moves nothing. -/
theorem transaction_settles_feeTx : ∃ gas' used paid settled,
      settleGas feeTx (.newWithSpec .prague) ⟨21000, 21000⟩ .stop ⟨9000, 5000, 1000, .new⟩ 0 =
        some gas' ∧
      gas'.Settled 30000 21000 used ∧
      validateAgainstStateAndDeductCaller loneDb feeTx (feeBlock 1) (.newWithSpec .prague)
        (.new .prague .new) = some paid ∧ paid.1 = .ok () ∧
      settleBalances loneDb feeTx (feeBlock 1) (.newWithSpec .prague) gas' paid.2 = some settled ∧
      settled.1 = .ok true ∧
      balances loneDb settled.2.state =
        credit (credit (balances loneDb ∅) 1 (-(used * 9))) 1 (used * (9 - 7)) := by
  obtain ⟨gas', used, hgas, hsettled, paid, hpaid, hrest⟩ :=
    transaction_settles loneDb feeTx (feeBlock 1) (.newWithSpec .prague) ⟨21000, 21000⟩ .stop
      ⟨9000, 5000, 1000, .new⟩ 0 (.new .prague .new) (by decide) (by decide) rfl rfl (by decide) rfl
      (by intro h; cases h) (by decide) (by decide) (by decide) (by decide) total_loneDb rfl
  have hrun : ((validateAgainstStateAndDeductCaller loneDb feeTx (feeBlock 1)
      (.newWithSpec .prague) (.new .prague .new)).bind fun paid =>
        (settleGas feeTx (.newWithSpec .prague) ⟨21000, 21000⟩ .stop
          ⟨9000, 5000, 1000, .new⟩ 0).bind
          fun gas' => (settleBalances loneDb feeTx (feeBlock 1) (.newWithSpec .prague) gas'
            paid.2).map fun settled =>
              (paid.1, settled.1, paid.2.loadKeepsBalance 1)) =
        some (.ok (), .ok true, true) := by
    decide +kernel
  rw [hpaid, hgas, bind_some, bind_some] at hrun
  obtain ⟨settled, hsettle, hfacts⟩ := map_eq_some_iff.1 hrun
  obtain ⟨hok, hdone, hkeep⟩ : paid.1 = .ok () ∧ settled.1 = .ok true ∧
      paid.2.loadKeepsBalance 1 = true := by
    simpa only [Prod.mk.injEq] using hfacts
  obtain ⟨settled', hsettle', hbalances⟩ := hrest hok paid.2 le_rfl hkeep hkeep
  obtain rfl : settled = settled' := some.inj (hsettle.symm.trans hsettle')
  have hledger := hbalances true hdone
  rw [sub_self, add_zero, show feeTx.blobFee (feeBlock 1) = 0 from rfl, cast_zero, add_zero]
    at hledger
  exact ⟨gas', used, paid, settled, hgas, hsettled, hpaid, hok, hsettle, hdone, hledger⟩

/-- Outside these bounds the settlement is not exact: the sum of the refunds overflows an `i64`, the
fee of the blobs saturates, and a beneficiary whose balance is full gets nothing. Without the base
fee check the reward saturates at zero. -/
theorem settlement_inexact :
    settleGas feeTx (.newWithSpec .prague) ⟨21000, 21000⟩ .stop ⟨9000, 5000, 2 ^ 63 - 1, .new⟩
      12500 = none ∧
    (validateEnv blobTx (feeBlock 1) (.newWithSpec .prague) = .ok () ∧
      calculateCallerFee blobTx (feeBlock 1) (.newWithSpec .prague) (BitVec.allOnes 256) =
        some (.ok (BitVec.allOnes 256 - BitVec.ofNat 256 (30000 * 9 + (2 ^ 128 - 1)))) ∧
      blobTx.blobFee (feeBlock 1) = 2 ^ 129) ∧
    (rewardBeneficiary feeDb feeTx (feeBlock 2) (.newWithSpec .prague) ⟨30000, 5000, 0, .new⟩
        (.new .prague .new)).map (fun r => (r.1, balances feeDb r.2.state 2 - balances feeDb ∅ 2)) =
      some (.ok false, 0) ∧
    validateEnv { feeTx with gasPrice := 1, gasPriorityFee := some 0 } (feeBlock 3)
      { CfgEnv.newWithSpec .prague with disableBaseFee := true } = .ok () ∧
    (rewardBeneficiary loneDb { feeTx with gasPrice := 1, gasPriorityFee := some 0 } (feeBlock 3)
        { CfgEnv.newWithSpec .prague with disableBaseFee := true } ⟨30000, 5000, 0, .new⟩
        (.new .prague .new)).map (fun r => (r.1, balances loneDb r.2.state 3)) =
      some (.ok true, 0) := by
  refine ⟨by decide, ⟨?_, ?_, ?_⟩, ?_, by decide, ?_⟩
  all_goals decide +kernel

end Revm
