import Revm.Optimism.Handler

/-!
# Fees of the OP stack

A transaction that is no deposit pays for its gas, for its data on L1 and, from Isthmus on, the
operator fee of its gas limit. The unused part of gas and operator fee comes back, and the rest is
split between the beneficiary and the three vaults. `fees_conserved` follows the balances as a
ledger: what the caller loses is what the four recipients receive, apart from the fee of blobs,
which is burned.

The charge of the operator fee spares enveloped bytes that are empty or start like a deposit; its
refund does not. From Isthmus on such a transaction gets back what it never paid
(`fees_not_conserved`).
-/

set_option autoImplicit false

namespace Revm

open List Option L1BlockInfo

open Ledger

variable {ε : Type} {fees : List (Address × U256)} {gas : Gas} {gasLimit cost : Nat}
  {chain : L1BlockInfo} {j : JournalInner}

/-! ## Payments -/

section Payments

variable {db : Database ε} (b : Address → ℤ) (payments : List (Address × Nat))

/-- A list of credits, the first one first. -/
def creditAll : Address → ℤ :=
  payments.foldl (fun b p => credit b p.1 p.2) b

theorem le_creditAll (x : Address) : b x ≤ creditAll b payments x := by
  induction payments generalizing b with
  | nil => exact le_rfl
  | cons payment rest ih =>
    refine le_trans ?_ (ih (credit b payment.1 payment.2))
    rw [credit_apply]
    split_ifs <;> omega

theorem creditAll_le (x : Address) :
    creditAll b payments x ≤ b x + ((payments.map Prod.snd).sum : Nat) := by
  induction payments generalizing b with
  | nil => simp [creditAll]
  | cons payment rest ih =>
    refine le_trans (ih (credit b payment.1 payment.2)) ?_
    rw [credit_apply]
    simp only [map_cons, sum_cons, Nat.cast_add]
    split_ifs <;> omega

/-- Paying a list of accounts amounts that they can hold. -/
theorem balanceIncrAll_exact {payments : List (Address × Nat)}
    (hfees : payments = fees.map fun fee => (fee.1, fee.2.toNat))
    (hkeep : ∀ fee ∈ fees, j.loadKeepsBalance fee.1 = true)
    (hfits : ∀ x, creditAll (balances db j.state) payments x < 2 ^ 256)
    (hok : (balanceIncrAll db fees j).1 = .ok ()) :
    balances db (balanceIncrAll db fees j).2.state = creditAll (balances db j.state) payments := by
  subst hfees
  induction fees generalizing j with
  | nil => rfl
  | cons fee rest ih =>
    obtain ⟨recipient, amount⟩ := fee
    have hfirst : balances db j.state recipient + amount.toNat < 2 ^ 256 := by
      have hle := le_creditAll (credit (balances db j.state) recipient amount.toNat)
        (rest.map fun fee => (fee.1, fee.2.toNat)) recipient
      rw [credit_self] at hle
      exact lt_of_le_of_lt hle (hfits recipient)
    have hkeepFirst := hkeep _ mem_cons_self
    unfold balanceIncrAll at hok ⊢
    rcases hw : j.withJournaledAccount db recipient false (fun account =>
        account.incrBalance amount) with ⟨_ | v, j'⟩
    · rw [hw] at hok
      cases hok
    · have hpaid := payAccount_exact (a := recipient) rfl hkeepFirst hfirst
        (show (j.withJournaledAccount db recipient false fun account =>
          account.incrBalance amount).1 = .ok v by rw [hw])
      rw [hw] at hok hpaid
      obtain ⟨hbalances, hsafe⟩ := hpaid
      have hrest : ∀ x, creditAll (balances db j'.state)
          (rest.map fun fee => (fee.1, fee.2.toNat)) x < 2 ^ 256 := by
        rw [hbalances]
        exact hfits
      rw [ih (fun fee hmem => hsafe _ (hkeep fee (mem_cons_of_mem _ hmem))) hok hrest, hbalances]
      rfl

end Payments

/-! ## What the caller pays -/

/-- The operator fee of an amount of gas: zero before Isthmus. -/
def L1BlockInfo.operatorFeeAt (info : L1BlockInfo) (spec : OpSpecId) (gas : Nat) : Nat :=
  if spec.isEnabledIn .isthmus then
    operatorFee (info.operatorFeeScalar.getD 0).toNat
      (info.operatorFeeConstant.getD 0).toNat spec gas
  else 0

/-- An info that was fetched for a fork. -/
def L1BlockInfo.Fetched (ε : Type) (spec : OpSpecId) (info : L1BlockInfo) : Prop :=
  ∃ (db : Database ε) (l2Block : U256), tryFetch db l2Block spec = .ok info

section Fees

variable {flzCompressLen : List UInt8 → Nat} {db : Database ε} {tx : OpTransaction}
  {block : BlockEnv} {cfg : OpCfgEnv} {info info' : L1BlockInfo} {enveloped : List UInt8}
  {spec : OpSpecId}

/-- The operator fee of a fetched info is exact for every amount of gas. -/
theorem L1BlockInfo.Fetched.chargeInner_eq (h : info.Fetched ε spec)
    (histhmus : spec.isEnabledIn .isthmus = true)
    (hscalar : info'.operatorFeeScalar = info.operatorFeeScalar)
    (hconstant : info'.operatorFeeConstant = info.operatorFeeConstant) {gas : Nat}
    (hgas : gas ≤ u64Max) :
    info'.operatorFeeChargeInner gas spec = some (info.operatorFeeAt spec gas) ∧
      info.operatorFeeAt spec gas < 2 ^ 128 := by
  obtain ⟨db', n, hfetch⟩ := h
  obtain ⟨scalar, constant, hfees⟩ := (tryFetch_ok hfetch).2 histhmus
  have hfees' : info'.OperatorFees scalar constant :=
    ⟨by rw [hscalar]; exact hfees.scalar_eq, by rw [hconstant]; exact hfees.constant_eq,
      hfees.scalar_lt, hfees.constant_lt⟩
  have hat : info.operatorFeeAt spec gas = operatorFee scalar constant spec gas := by
    obtain ⟨x, hx, hxn⟩ := hfees.scalar_eq
    obtain ⟨y, hy, hyn⟩ := hfees.constant_eq
    unfold operatorFeeAt
    rw [histhmus, hx, hy, if_pos rfl, getD_some, getD_some, hxn, hyn]
  rw [hat]
  exact ⟨hfees'.fee_eq spec hgas, hfees.fee_lt spec hgas⟩

theorem L1BlockInfo.operatorFeeAt_mono (info : L1BlockInfo) (spec : OpSpecId) {gas gas' : Nat}
    (h : gas ≤ gas') : info.operatorFeeAt spec gas ≤ info.operatorFeeAt spec gas' := by
  unfold operatorFeeAt
  split_ifs
  · exact operatorFee_mono _ _ spec h
  · exact le_rfl

/-- The bytes are charged the operator fee where there is one. -/
def ChargesOperatorFee (spec : OpSpecId) (enveloped : List UInt8) : Prop :=
  spec.isEnabledIn .isthmus = true → isExempt enveloped = false

/-- The charge up front: the L1 cost and the operator fee of the gas limit. -/
theorem txCost_eq (hfetched : info.Fetched ε spec) (hcharges : ChargesOperatorFee spec enveloped)
    (hfit : L1BlockInfo.AmountsFit flzCompressLen info enveloped spec)
    (hlimit : gasLimit ≤ u64Max) (hcost : l1Cost flzCompressLen info enveloped spec +
      info.operatorFeeAt spec gasLimit < 2 ^ 256) :
    ∃ chain, info.txCost flzCompressLen enveloped gasLimit spec =
        some (l1Cost flzCompressLen info enveloped spec +
          info.operatorFeeAt spec gasLimit, chain) ∧
      chain.calculateTxL1Cost flzCompressLen enveloped spec =
        some (l1Cost flzCompressLen info enveloped spec, chain) ∧
      chain.operatorFeeScalar = info.operatorFeeScalar ∧
      chain.operatorFeeConstant = info.operatorFeeConstant := by
  obtain ⟨db', n, hfetch⟩ := hfetched
  obtain ⟨chain, hfirst, hagain, hscalar, hconstant⟩ :=
    hfit.calculateTxL1Cost_eq (tryFetch_ok hfetch).1
  refine ⟨chain, ?_, hagain, hscalar, hconstant⟩
  unfold txCost
  rw [hfirst]
  simp only [bind_eq_bind, bind_some]
  cases histhmus : spec.isEnabledIn .isthmus with
  | false =>
    have hzero : info.operatorFeeAt spec gasLimit = 0 := by
      unfold operatorFeeAt
      rw [histhmus]
      rfl
    rw [hzero]
    rfl
  | true =>
    have hinner := (L1BlockInfo.Fetched.chargeInner_eq ⟨db', n, hfetch⟩ histhmus hscalar hconstant
      hlimit).1
    simp only [if_true, operatorFeeCharge, hcharges histhmus, Bool.false_eq_true,
      if_false, hinner, Option.bind_some, saturatingAddU256_eq hcost, Option.pure_def]

/-- The additional cost is refused, or taken exactly. -/
theorem deductAdditionalCost_exact
    (henveloped : tx.envelopedTx = some enveloped) (hfee : cfg.disableFeeCharge = false)
    (hcost : info.txCost flzCompressLen enveloped tx.base.gasLimit.toNat cfg.opSpec =
      some (cost, chain)) (hfits : cost < 2 ^ 256) (balance : U256) :
    ∃ r, deductAdditionalCost flzCompressLen tx cfg info balance = some (r, chain) ∧
      ∀ balance', r = .ok balance' → balance'.toNat + cost = balance.toNat := by
  unfold deductAdditionalCost
  rw [hfee, henveloped]
  simp only [Bool.false_eq_true, if_false, bind_eq_bind, bind_some, hcost]
  cases hsub : checkedSub balance (BitVec.ofNat 256 cost) with
  | none => exact ⟨_, rfl, nofun⟩
  | some balance' =>
    refine ⟨_, rfl, ?_⟩
    rintro _ ⟨⟩
    have hexact := checkedSub_eq hsub
    rw [BitVec.toNat_ofNat, Nat.mod_eq_of_lt hfits] at hexact
    omega

/-- The caller pays for the gas limit, the blobs, the data on L1 and the operator. -/
theorem opDeductCaller_exact (db : Database ε) (hdeposit : tx.isDeposit = false)
    (henveloped : tx.envelopedTx = some enveloped)
    (hvalid : validateEnv tx.base block cfg.toCfgEnv = .ok ()) (hfee : cfg.disableFeeCharge = false)
    (hcheck : cfg.disableBalanceCheck = false) (hblobs : tx.base.BlobsFit block)
    (hinfo : refreshChain db block cfg chain = .ok info) {chain' : L1BlockInfo}
    (hcost : info.txCost flzCompressLen enveloped tx.base.gasLimit.toNat cfg.opSpec =
      some (cost, chain')) (hfits : cost < 2 ^ 256)
    (hkeep : j.loadKeepsBalance tx.base.caller = true) :
    ∃ r, opValidateAgainstStateAndDeductCaller flzCompressLen db tx block cfg chain j = some r ∧
      (r.1 = .ok () →
        tx.base.gasLimit.toNat * tx.base.maxFeePerGas ≤ u128Max ∧ r.2.1 = chain' ∧
        balances db r.2.2.state = credit (balances db j.state) tx.base.caller
          (-(tx.base.gasLimit.toNat * tx.base.effectiveGasPrice block.basefee.toNat +
            tx.base.blobFee block + cost : Nat))) := by
  unfold opValidateAgainstStateAndDeductCaller
  rw [hdeposit, hinfo]
  simp only [Bool.false_eq_true, if_false]
  rcases hw : j.withJournaledAccount db tx.base.caller true
      (opDeductCaller flzCompressLen tx block cfg info) with ⟨_ | v, j₁⟩
  · exact ⟨_, rfl, by simp⟩
  obtain ⟨x, hx, hv, hcredit⟩ := withJournaledAccount_ok hkeep hw
  obtain ⟨r, hdeduct, hadditional⟩ :=
    deductAdditionalCost_exact henveloped hfee hcost hfits x.account.info.balance
  subst hv
  unfold opDeductCaller at hcredit ⊢
  cases hnonce : validateAccountNonceAndCode x.account.info tx.base.nonce cfg.disableEip3607
      cfg.disableNonceCheck with
  | error e => exact ⟨_, rfl, by rintro ⟨⟩⟩
  | ok u =>
    simp only [hnonce, hdeduct] at hcredit ⊢
    cases r with
    | error e => exact ⟨_, rfl, by rintro ⟨⟩⟩
    | ok balance =>
      have hsub := hadditional balance rfl
      obtain ⟨fee, hcalc, hexact⟩ := calculateCallerFee_exact hvalid hcheck hblobs balance
      simp only [hcalc] at hcredit ⊢
      cases fee with
      | error e => exact ⟨_, rfl, by rintro ⟨⟩⟩
      | ok newBalance =>
        obtain ⟨hmul, hbalance⟩ := hexact newBalance rfl
        refine ⟨_, rfl, fun _ => ⟨hmul, rfl, hcredit _ ?_⟩⟩
        have hnew : (if tx.base.kind.isCreate = true then x.setBalance newBalance
            else (x.setBalance newBalance).bumpNonce.2).account.info.balance = newBalance := by
          split_ifs
          · rw [x.account_setBalance]
            rfl
          · rw [JournaledAccount.account_bumpNonce, x.account_setBalance]
            rfl
        rw [hnew, ← hx]
        omega

/-! ## What comes back and what is paid out -/

/-- The refund of the operator fee: what was charged for the gas that was not used. -/
theorem operatorFeeRefund_eq {used : Nat} (hfetched : info.Fetched ε spec)
    (hscalar : info'.operatorFeeScalar = info.operatorFeeScalar)
    (hconstant : info'.operatorFeeConstant = info.operatorFeeConstant)
    (hgas : gas.Accounted tx.base.gasLimit.toNat used)
    (hlimit : gas.limit = tx.base.gasLimit.toNat) :
    ∃ refund, info'.operatorFeeRefund gas spec = some refund ∧ refund ≤ u128Max ∧
      refund + info.operatorFeeAt spec used =
        info.operatorFeeAt spec tx.base.gasLimit.toNat := by
  have hbound : tx.base.gasLimit.toNat ≤ u64Max := Nat.le_sub_one_of_lt tx.base.gasLimit.isLt
  have hused := hgas.used_le
  unfold operatorFeeRefund
  cases histhmus : spec.isEnabledIn .isthmus with
  | false =>
    refine ⟨0, rfl, Nat.zero_le _, ?_⟩
    unfold operatorFeeAt
    rw [histhmus]
    rfl
  | true =>
    obtain ⟨hall, hlt⟩ := hfetched.chargeInner_eq histhmus hscalar hconstant hbound
    obtain ⟨hpart, -⟩ :=
      hfetched.chargeInner_eq histhmus hscalar hconstant (hused.trans hbound)
    have hmono := info.operatorFeeAt_mono spec hused
    have hrest : subU64 tx.base.gasLimit.toNat (tx.base.gasLimit.toNat - used) = some used := by
      rw [subU64_eq_some (Nat.sub_le _ _)]
      congr 1
      omega
    simp only [Bool.not_true, Bool.false_eq_true, if_false, hlimit, hall, hgas.returned_eq, hrest,
      hpart, Option.bind_eq_bind, Option.bind_some, Option.pure_def]
    refine ⟨_, rfl, ?_, Nat.sub_add_cancel hmono⟩
    unfold u128Max
    omega

/-- What the vaults receive. -/
theorem vaultFees_eq (block : BlockEnv) (hfetched : info.Fetched ε cfg.opSpec)
    (hcharges : ChargesOperatorFee cfg.opSpec enveloped) {l1Cost : Nat}
    (hagain : info'.calculateTxL1Cost flzCompressLen enveloped cfg.opSpec = some (l1Cost, info'))
    (hscalar : info'.operatorFeeScalar = info.operatorFeeScalar)
    (hconstant : info'.operatorFeeConstant = info.operatorFeeConstant) {used : Nat}
    (hused : used ≤ u64Max) (hl1 : l1Cost < 2 ^ 256) :
    ∃ fees, vaultFees flzCompressLen block cfg info' enveloped used = some (fees, info') ∧
      fees.map (fun fee => (fee.1, fee.2.toNat)) =
        [(l1FeeRecipient, l1Cost), (baseFeeRecipient, block.basefee.toNat * used),
          (operatorFeeRecipient, info.operatorFeeAt cfg.opSpec used)] := by
  have hbase : block.basefee.toNat * used ≤ u128Max :=
    calc block.basefee.toNat * used ≤ (2 ^ 64 - 1) * (2 ^ 64 - 1) :=
          Nat.mul_le_mul (Nat.le_sub_one_of_lt block.basefee.isLt) hused
      _ ≤ u128Max := by decide
  have hoperator : ∃ fee, (if cfg.opSpec.isEnabledIn .isthmus = true then
      info'.operatorFeeCharge enveloped used cfg.opSpec else some 0) = some fee ∧
        fee = info.operatorFeeAt cfg.opSpec used ∧ fee < 2 ^ 256 := by
    cases histhmus : cfg.opSpec.isEnabledIn .isthmus with
    | false =>
      refine ⟨0, rfl, ?_, by decide⟩
      unfold operatorFeeAt
      rw [histhmus]
      rfl
    | true =>
      obtain ⟨hinner, hlt⟩ := hfetched.chargeInner_eq histhmus hscalar hconstant hused
      refine ⟨_, ?_, rfl, by omega⟩
      simp only [if_true, operatorFeeCharge, hcharges histhmus, Bool.false_eq_true,
        if_false, hinner]
  obtain ⟨fee, hfee, rfl, hlt⟩ := hoperator
  unfold vaultFees
  simp only [hagain, hfee, Option.bind_eq_bind, Option.bind_some, Option.pure_def,
    saturatingMulU128_eq hbase]
  refine ⟨_, rfl, ?_⟩
  simp only [map_cons, map_nil, toNat_ofNat_of_le_u128Max hbase, BitVec.toNat_ofNat,
    Nat.mod_eq_of_lt hl1, Nat.mod_eq_of_lt hlt]

theorem validateEnv_of_opValidateEnv (hdeposit : tx.isDeposit = false)
    (h : (opValidateEnv tx block cfg : Except (OpError ε) Unit) = .ok ()) :
    validateEnv tx.base block cfg.toCfgEnv = .ok () := by
  unfold opValidateEnv at h
  rw [hdeposit] at h
  simp only [Bool.false_eq_true, if_false] at h
  split_ifs at h
  cases hvalid : validateEnv tx.base block cfg.toCfgEnv with
  | ok u => rfl
  | error e => rw [hvalid] at h; cases h

theorem accounted_of_sum {used : Nat} (hlimit : gas.limit = gasLimit) (hbound : gasLimit < 2 ^ 64)
    (hrefunded : 0 ≤ gas.refunded) (hsum : used + gas.remaining + gas.refunded.toNat = gasLimit) :
    gas.Accounted gasLimit used := by
  refine ⟨?_, hrefunded, hsum⟩
  unfold Gas.used Gas.spent
  rw [hlimit, subU64_eq_some (by omega), map_some, i64AsU64_of_nonneg hrefunded (by omega)]
  congr 1
  omega

end Fees

/-! ## Conservation -/

section Conservation

variable (flzCompressLen : List UInt8 → Nat) (db : Database ε) (tx : OpTransaction)
  (block : BlockEnv) (cfg : OpCfgEnv) (info : L1BlockInfo) (enveloped : List UInt8) (used : Nat)

/-- What the caller owes for the used gas, the data on L1 and the operator. -/
def opCharge : Nat :=
  used * tx.base.effectiveGasPrice block.basefee.toNat +
    l1Cost flzCompressLen info enveloped cfg.opSpec +
    info.operatorFeeAt cfg.opSpec used

/-- What the beneficiary and the three vaults receive. -/
def opPayments : List (Address × Nat) :=
  [(block.beneficiary,
      (tx.base.effectiveGasPrice block.basefee.toNat - block.basefee.toNat) * used),
    (l1FeeRecipient, l1Cost flzCompressLen info enveloped cfg.opSpec),
    (baseFeeRecipient, block.basefee.toNat * used),
    (operatorFeeRecipient, info.operatorFeeAt cfg.opSpec used)]

/-- The ledger `b` after the caller was charged and the recipients were paid. The fee of the blobs
is burned. -/
def opLedger (b : Address → ℤ) : Address → ℤ :=
  creditAll
    (credit b tx.base.caller
      (-(opCharge flzCompressLen tx block cfg info enveloped used + tx.base.blobFee block : Nat)))
    (opPayments flzCompressLen tx block cfg info enveloped used)

theorem opPayments_sum (hprice : block.basefee.toNat ≤
      tx.base.effectiveGasPrice block.basefee.toNat) :
    ((opPayments flzCompressLen tx block cfg info enveloped used).map Prod.snd).sum =
      opCharge flzCompressLen tx block cfg info enveloped used := by
  have hsplit : (tx.base.effectiveGasPrice block.basefee.toNat - block.basefee.toNat) * used +
      block.basefee.toNat * used =
        used * tx.base.effectiveGasPrice block.basefee.toNat := by
    rw [← Nat.add_mul, Nat.sub_add_cancel hprice, Nat.mul_comm]
  simp only [opPayments, opCharge, map_cons, map_nil, sum_cons, sum_nil]
  omega

/-- The ledger after the refund is the one in which the caller was charged what it owes. -/
theorem credit_refund (b₀ b₂ : Address → ℤ) {operatorRefund : Nat}
    (hused : used ≤ tx.base.gasLimit.toNat)
    (hrefund : operatorRefund + info.operatorFeeAt cfg.opSpec used =
      info.operatorFeeAt cfg.opSpec tx.base.gasLimit.toNat) : credit b₂ tx.base.caller
        (tx.base.effectiveGasPrice block.basefee.toNat * (tx.base.gasLimit.toNat - used) +
          operatorRefund : Nat) =
      credit (b₀ + (b₂ - credit b₀ tx.base.caller
          (-(tx.base.gasLimit.toNat * tx.base.effectiveGasPrice block.basefee.toNat +
            tx.base.blobFee block +
            (l1Cost flzCompressLen info enveloped cfg.opSpec +
              info.operatorFeeAt cfg.opSpec tx.base.gasLimit.toNat) : Nat)))) tx.base.caller
        (-(opCharge flzCompressLen tx block cfg info enveloped used +
          tx.base.blobFee block : Nat)) := by
  have hsplit : tx.base.gasLimit.toNat * tx.base.effectiveGasPrice block.basefee.toNat =
      used * tx.base.effectiveGasPrice block.basefee.toNat +
        tx.base.effectiveGasPrice block.basefee.toNat * (tx.base.gasLimit.toNat - used) := by
    rw [Nat.mul_comm _ (tx.base.gasLimit.toNat - used), ← Nat.add_mul, Nat.add_sub_cancel' hused]
  unfold opCharge
  funext x
  simp only [credit_apply, Pi.add_apply, Pi.sub_apply]
  split_ifs <;> omega

variable {used info} in
/-- The payments after the execution, seen from its end. -/
theorem opSettleBalances_exact {j₂ : JournalInner} {refund : Nat}
    (hdeposit : tx.isDeposit = false) (henveloped : tx.envelopedTx = some enveloped)
    (hfee : cfg.disableFeeCharge = false) (hgas : gas.Accounted tx.base.gasLimit.toNat used)
    (hmul : tx.base.gasLimit.toNat * tx.base.maxFeePerGas ≤ u128Max)
    (hrefund : chain.operatorFeeRefund gas cfg.opSpec = some refund) (hrefundLe : refund ≤ u128Max)
    (hfees : vaultFees flzCompressLen block cfg chain enveloped used = some (fees, chain))
    (hpayments : opPayments flzCompressLen tx block cfg info enveloped used =
      (block.beneficiary,
        (tx.base.effectiveGasPrice block.basefee.toNat - block.basefee.toNat) * used) ::
          fees.map fun fee => (fee.1, fee.2.toNat)) (hkeep : ∀ x, x = tx.base.caller ∨
      x ∈ (opPayments flzCompressLen tx block cfg info enveloped used).map Prod.fst →
        j₂.loadKeepsBalance x = true)
    (hfits : ∀ x, creditAll (credit (balances db j₂.state) tx.base.caller
      (tx.base.effectiveGasPrice block.basefee.toNat * (tx.base.gasLimit.toNat - used) +
        refund : Nat)) (opPayments flzCompressLen tx block cfg info enveloped used) x < 2 ^ 256) :
    ∃ settled, opSettleBalances flzCompressLen db tx block cfg chain gas j₂ = some settled ∧
      (settled.1 = .ok () → balances db settled.2.2.state =
        creditAll (credit (balances db j₂.state) tx.base.caller
          (tx.base.effectiveGasPrice block.basefee.toNat * (tx.base.gasLimit.toNat - used) +
            refund : Nat)) (opPayments flzCompressLen tx block cfg info enveloped used)) := by
  have hlondon : cfg.spec.isEnabledIn .london = true := by
    rw [cfg.spec_eq]
    exact cfg.opSpec.london_intoEthSpec
  have hrefundNat : (BitVec.ofNat 256 refund).toNat = refund :=
    toNat_ofNat_of_le_u128Max hrefundLe
  rw [hpayments] at hkeep hfits ⊢
  -- each payment leaves room for the next, since later ones only add
  have hfirst := fun x => lt_of_le_of_lt (le_creditAll _ _ x) (hfits x)
  have hcallerFits := hfirst tx.base.caller
  rw [credit_self, ← hrefundNat] at hcallerFits
  obtain ⟨r₃, hr₃, hreimbursed⟩ := reimburseCaller_exact db block hgas
    (show (BitVec.ofNat 256 refund).toNat ≤ u128Max by omega) hmul (hkeep _ (.inl rfl)) hcallerFits
  rw [hrefundNat] at hreimbursed
  unfold opSettleBalances opReimburseCaller
  rw [OpTransaction.env_of_not_deposit hdeposit]
  simp only [hdeposit, hfee, Bool.not_false, Bool.and_self, if_true, hrefund, bind_eq_bind,
    bind_some, hr₃]
  rcases r₃ with ⟨_ | v, j₃⟩
  · exact ⟨_, rfl, by simp⟩
  obtain ⟨hb₃, hkeep₃⟩ := hreimbursed v rfl
  have hkeepBeneficiary := hkeep₃ _ (hkeep block.beneficiary (.inr mem_cons_self))
  have hsecond := fun x => lt_of_le_of_lt (le_creditAll _
    (fees.map fun fee => (fee.1, fee.2.toNat)) x) (hfits x)
  have hbeneficiaryFits := hsecond block.beneficiary
  dsimp only at hbeneficiaryFits
  rw [credit_self, ← hb₃] at hbeneficiaryFits
  obtain ⟨r₄, hr₄, hrewarded⟩ :=
    rewardBeneficiary_exact db hgas hlondon hmul hkeepBeneficiary hbeneficiaryFits
  unfold opRewardBeneficiary
  simp only [hdeposit, Bool.false_eq_true, if_false, hr₄, bind_eq_bind, bind_some]
  rcases r₄ with ⟨_ | v', j₄⟩
  · exact ⟨_, rfl, by simp⟩
  obtain ⟨hb₄, hkeep₄⟩ := hrewarded v' rfl
  simp only [henveloped, hgas.used_eq, hfees, bind_some]
  refine ⟨_, rfl, fun hok => ?_⟩
  have hall : (balanceIncrAll db fees j₄).1 = .ok () := by
    rcases hr : (balanceIncrAll db fees j₄).1 with e | u
    · rw [hr] at hok
      cases hok
    · rfl
  rw [hb₃] at hb₄
  have hfinal := balanceIncrAll_exact rfl (fun fee hmem => ?_) (fun x => ?_) hall
  · dsimp only
    rw [hfinal, hb₄]
    rfl
  · refine hkeep₄ _ (hkeep₃ _ (hkeep _ (.inr ?_)))
    simp only [List.map_cons, List.map_map, List.mem_cons, List.mem_map]
    exact .inr ⟨fee, hmem, rfl⟩
  · rw [hb₄]
    exact hfits x

/-- The fees of a transaction that is no deposit are conserved: the caller loses what it owes, on
top of what the execution moves and the fee of its blobs, and the four recipients receive exactly
that. -/
theorem fees_conserved (chain : L1BlockInfo) (j₀ : JournalInner)
    (hdeposit : tx.isDeposit = false) (henveloped : tx.envelopedTx = some enveloped)
    (hvalid : (opValidateEnv tx block cfg : Except (OpError ε) Unit) = .ok ())
    (hfee : cfg.disableFeeCharge = false) (hcheck : cfg.disableBalanceCheck = false)
    (hbase : cfg.disableBaseFee = false) (htype : tx.base.txType ≠ .custom)
    (hblobs : tx.base.BlobsFit block) (hinfo : refreshChain db block cfg chain = .ok info)
    (hfetched : info.Fetched ε cfg.opSpec) (hcharges : ChargesOperatorFee cfg.opSpec enveloped)
    (hfit : L1BlockInfo.AmountsFit flzCompressLen info enveloped cfg.opSpec)
    (hcost : l1Cost flzCompressLen info enveloped cfg.opSpec +
      info.operatorFeeAt cfg.opSpec tx.base.gasLimit.toNat < 2 ^ 256)
    (hcaller : j₀.loadKeepsBalance tx.base.caller = true) :
    ∃ paid, opValidateAgainstStateAndDeductCaller flzCompressLen db tx block cfg chain j₀ =
        some paid ∧
      (paid.1 = .ok () → ∀ (j₂ : JournalInner) (gas : Gas) (used : Nat),
        gas.limit = tx.base.gasLimit.toNat → 0 ≤ gas.refunded →
        used + gas.remaining + gas.refunded.toNat = tx.base.gasLimit.toNat →
        (∀ x ∈ [tx.base.caller, block.beneficiary, l1FeeRecipient, baseFeeRecipient,
          operatorFeeRecipient], j₂.loadKeepsBalance x = true) →
        (∀ x, opLedger flzCompressLen tx block cfg info enveloped used
          (balances db j₀.state + (balances db j₂.state - balances db paid.2.2.state)) x <
            2 ^ 256) →
        ∃ settled, opSettleBalances flzCompressLen db tx block cfg paid.2.1 gas j₂ = some settled ∧
          (settled.1 = .ok () →
            balances db settled.2.2.state =
              opLedger flzCompressLen tx block cfg info enveloped used
                (balances db j₀.state + (balances db j₂.state - balances db paid.2.2.state)) ∧
            ((opPayments flzCompressLen tx block cfg info enveloped used).map Prod.snd).sum =
              opCharge flzCompressLen tx block cfg info enveloped used)) := by
  have hvalid' := validateEnv_of_opValidateEnv hdeposit hvalid
  have hbound : tx.base.gasLimit.toNat ≤ u64Max := Nat.le_sub_one_of_lt tx.base.gasLimit.isLt
  obtain ⟨chain', htxCost, hagain, hscalar, hconstant⟩ :=
    txCost_eq hfetched hcharges hfit hbound hcost
  obtain ⟨paid, hpaid, hdeducted⟩ := opDeductCaller_exact db hdeposit henveloped hvalid' hfee hcheck
    hblobs hinfo htxCost hcost hcaller
  refine ⟨paid, hpaid, ?_⟩
  intro hok j₂ gas used hlimit hrefunded hsum hkeep hledger
  obtain ⟨hmul, hchain, hb₁⟩ := hdeducted hok
  have hgas := accounted_of_sum hlimit tx.base.gasLimit.isLt hrefunded hsum
  obtain ⟨refund, hrefund, hrefundLe, hrefundSum⟩ :=
    operatorFeeRefund_eq hfetched hscalar hconstant hgas hlimit
  -- the final ledger, seen from the end of the execution
  have hback := credit_refund flzCompressLen tx block cfg info enveloped used
    (balances db j₀.state) (balances db j₂.state) hgas.used_le hrefundSum
  rw [← hb₁] at hback
  unfold opLedger at hledger ⊢
  rw [← hback] at hledger ⊢
  obtain ⟨fees, hfees, hpayments⟩ := vaultFees_eq block hfetched hcharges hagain hscalar
    hconstant (hgas.used_le.trans hbound) (lt_of_le_of_lt (Nat.le_add_right _ _) hcost)
  rw [hchain]
  obtain ⟨settled, hsettled, hbalances⟩ := opSettleBalances_exact flzCompressLen db tx block cfg
    enveloped hdeposit henveloped hfee hgas hmul hrefund hrefundLe hfees
    (show opPayments flzCompressLen tx block cfg info enveloped used = _ by rw [hpayments]; rfl)
    (fun x hx => hkeep x (by simpa [opPayments] using hx)) hledger
  exact ⟨settled, hsettled, fun hok => ⟨hbalances hok,
    opPayments_sum flzCompressLen tx block cfg info enveloped used
      (le_effectiveGasPrice hbase htype hvalid')⟩⟩

end Conservation

/-! ## Fees on a small database -/

/-- Account `1` can pay fees. The `L1Block` contract sets a price for the data and an operator fee
of two units for each unit of gas and five units more. -/
def opFeeDb : Database Empty where
  basic a := .ok (if a = 1 then some { AccountInfo.default with balance := 10 ^ 9 } else none)
  codeByHash _ := .ok Bytecode.default
  storage a k := .ok (if a = l1BlockContract then
    if k = 1 then 1000
    else if k = 3 then 1000000 * 2 ^ 96
    else if k = 8 then 2000000 * 2 ^ 64 + 5
    else 0
  else 0)

/-- A payment of account `1` with the enveloped bytes given. -/
def opFeeTx (base : TxEnv) (enveloped : List UInt8) : OpTransaction where
  base := base
  envelopedTx := some enveloped
  sourceHash := 0
  mint := none
  isSystemTransaction := false
  baseIsDeposit := false

def opFeeBlock : BlockEnv := { feeBlock 9 with blobExcessGasAndPrice := some ⟨0, 1⟩ }

/-- The gas at the end: 24000 units are used. -/
def opFeeGas : Gas := ⟨30000, 5000, 1000, .new⟩

/-- What account `1` loses and what the recipients receive, if nothing is executed. -/
def opFeeRun (base : TxEnv) (enveloped : List UInt8) : Option (Bool × ℤ × ℤ) := do
  let tx := opFeeTx base enveloped
  let cfg := OpCfgEnv.newWithSpec .isthmus
  let paid ← opValidateAgainstStateAndDeductCaller (fun _ => 0) opFeeDb tx opFeeBlock cfg .default
    (.new .prague .new)
  let settled ← opSettleBalances (fun _ => 0) opFeeDb tx opFeeBlock cfg paid.2.1 opFeeGas paid.2.2
  let after := balances opFeeDb settled.2.2.state
  return ((opValidateEnv tx opFeeBlock cfg : Except (OpError Empty) Unit).isOk && paid.1.isOk &&
      settled.1.isOk, 10 ^ 9 - after 1,
    after 9 + after l1FeeRecipient + after baseFeeRecipient + after operatorFeeRecipient)

/-- The info that is fetched from the small database. -/
def opFeeInfo : L1BlockInfo :=
  { default with
    l2Block := some 1
    l1BaseFee := 1000
    l1BaseFeeScalar := 1000000
    l1BlobBaseFee := some 0
    l1BlobBaseFeeScalar := some 0
    operatorFeeScalar := some 2000000
    operatorFeeConstant := some 5 }

theorem eq_ok_of_toOption {α : Type} {x : Except ε α} {a : α} (h : x.toOption = some a) :
    x = .ok a := by
  cases x with
  | error e => cases h
  | ok b => rw [some.inj h]

theorem tryFetch_opFeeDb : tryFetch opFeeDb 1 .isthmus = .ok opFeeInfo :=
  eq_ok_of_toOption (by decide +kernel)

/-- The sum of the payments is far below `2 ^ 256`. -/
theorem opLedger_opFeeDb (x : Address) :
    opLedger (fun _ => 0) (opFeeTx feeTx [2, 1]) opFeeBlock (.newWithSpec .isthmus) opFeeInfo [2, 1]
      24000 (balances opFeeDb ∅) x < 2 ^ 256 := by
  have hbalance : balances opFeeDb ∅ x ≤ 10 ^ 9 := by
    show ((opFeeDb.balance x).toNat : ℤ) ≤ 10 ^ 9
    unfold Database.balance opFeeDb
    dsimp only
    split_ifs <;> decide
  have hpayments : ((opPayments (fun _ => 0) (opFeeTx feeTx [2, 1]) opFeeBlock
      (.newWithSpec .isthmus) opFeeInfo [2, 1] 24000).map Prod.snd).sum = 1864005 := by
    decide +kernel
  refine lt_of_le_of_lt (creditAll_le _ _ x) ?_
  rw [hpayments, credit_apply]
  split_ifs <;> omega

/-- Nothing is executed; the four recipients receive what account `1` loses. -/
theorem fees_conserved_feeTx : let tx := opFeeTx feeTx [2, 1]
    let cfg := OpCfgEnv.newWithSpec .isthmus
    ∃ paid settled,
      opValidateAgainstStateAndDeductCaller (fun _ => 0) opFeeDb tx opFeeBlock cfg .default
        (.new .prague .new) = some paid ∧ paid.1 = .ok () ∧
      opSettleBalances (fun _ => 0) opFeeDb tx opFeeBlock cfg paid.2.1 opFeeGas paid.2.2 =
        some settled ∧ settled.1 = .ok () ∧
      balances opFeeDb settled.2.2.state =
        opLedger (fun _ => 0) tx opFeeBlock cfg opFeeInfo [2, 1] 24000 (balances opFeeDb ∅) ∧
      opCharge (fun _ => 0) tx opFeeBlock cfg opFeeInfo [2, 1] 24000 =
        24000 * 9 + 1600000 + 48005 := by
  intro tx cfg
  obtain ⟨paid, hpaid, hrest⟩ := fees_conserved (fun _ => 0) opFeeDb tx opFeeBlock cfg opFeeInfo
    [2, 1] .default (.new .prague .new) rfl rfl (eq_ok_of_toOption (by decide +kernel)) rfl rfl rfl
    (by decide)
    nofun tryFetch_opFeeDb ⟨opFeeDb, 1, tryFetch_opFeeDb⟩ (fun _ => rfl)
    ⟨by decide, by decide, by decide +kernel⟩ (by decide +kernel) rfl
  have hrun : ((opValidateAgainstStateAndDeductCaller
      (fun _ => 0) opFeeDb tx opFeeBlock cfg .default
      (.new .prague .new)).bind fun paid =>
        (opSettleBalances (fun _ => 0) opFeeDb tx opFeeBlock cfg paid.2.1 opFeeGas paid.2.2).map
          fun settled => (paid.1.toOption, settled.1.toOption,
            [tx.base.caller, opFeeBlock.beneficiary, l1FeeRecipient, baseFeeRecipient,
              operatorFeeRecipient].all paid.2.2.loadKeepsBalance)) =
                some (some (), some (), true) := by
    decide +kernel
  rw [hpaid, bind_some] at hrun
  obtain ⟨settled, hsettle, hfacts⟩ := map_eq_some_iff.1 hrun
  obtain ⟨hok, hdone, hkeep⟩ : paid.1.toOption = some () ∧ settled.1.toOption = some () ∧
      [tx.base.caller, opFeeBlock.beneficiary, l1FeeRecipient, baseFeeRecipient,
        operatorFeeRecipient].all paid.2.2.loadKeepsBalance = true := by
    simpa only [Prod.mk.injEq] using hfacts
  have hpaidOk := eq_ok_of_toOption hok
  obtain ⟨settled', hsettle', hbalances⟩ := hrest hpaidOk paid.2.2 opFeeGas 24000 rfl (by decide)
    (by decide) (all_eq_true.1 hkeep) (by
      rw [sub_self, add_zero]
      exact opLedger_opFeeDb)
  obtain rfl : settled = settled' := some.inj (hsettle.symm.trans hsettle')
  have hledger := (hbalances (eq_ok_of_toOption hdone)).1
  rw [sub_self, add_zero] at hledger
  exact ⟨paid, settled, hpaid, hpaidOk, hsettle, eq_ok_of_toOption hdone,
    hledger, by decide +kernel⟩

/-- With enveloped bytes that are empty or start like a deposit the caller gets an operator fee back
that it was not charged. The fee of a blob is received by nobody. A transaction of a custom type may
pay less than the base fee, and the base fee vault receives it nevertheless. -/
theorem fees_not_conserved : opFeeRun feeTx [] = some (true, 216000 - 12000, 216000) ∧
    opFeeRun feeTx [0x7e] = some (true, 216000 - 12000, 216000) ∧
    opFeeRun { feeTx with txType := .eip4844, blobHashes := [2 ^ 248], maxFeePerBlobGas := 3 }
      [2, 1] =
      some (true, 1864005 + 2 ^ 17, 1864005) ∧
    opFeeRun { feeTx with txType := .custom, gasPrice := 1 } [2, 1] =
      some (true, 1864005 - 216000 + 24000, 1864005 - 48000) := by
  decide +kernel

end Revm
