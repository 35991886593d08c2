import Revm.Handler.Validation
import Revm.Journal.Balances

/-!
# The fee of the caller

Before the execution `calculate_caller_fee` checks that the balance covers the maximal spending and
deducts the effective one. Both are sums of checked and saturating products over `u128` and `U256`.
A transaction that passed `validate_env` has them in order: the effective prices are below the
maximal ones, so what the check allows is never more than the balance.
-/

set_option autoImplicit false

namespace Revm

open TxEnv Option

section Handler

variable (tx : TxEnv) (block : BlockEnv) (cfg : CfgEnv)

/-- `calculate_caller_fee`. -/
def calculateCallerFee (balance : U256) : Option (Except InvalidTransaction U256) := do
  let enough ← if cfg.disableBalanceCheck then some (.ok ()) else tx.ensureEnoughBalance balance
  match enough with
  | .error e => return .error e
  | .ok _ =>
      match ← tx.effectiveBalanceSpending block.basefee.toNat block.blobGasprice with
      | .error _ => none
      | .ok effectiveBalanceSpending =>
          let gasBalanceSpending := effectiveBalanceSpending - tx.value
          let newBalance := (checkedSub balance gasBalanceSpending).getD 0
          if cfg.disableBalanceCheck then
            return .ok (if newBalance < tx.value then tx.value else newBalance)
          else return .ok newBalance

end Handler

/-! ## Spendings -/

/-- The fee of the blobs of a transaction. -/
def TxEnv.blobFee (tx : TxEnv) (block : BlockEnv) : Nat :=
  if tx.txType = .eip4844 then block.blobGasprice * (gasPerBlob * tx.blobHashes.length) else 0

/-- The gas and the fee of the blobs fit their types. -/
def TxEnv.BlobsFit (tx : TxEnv) (block : BlockEnv) : Prop :=
  tx.txType = .eip4844 →
    gasPerBlob * tx.blobHashes.length ≤ u64Max ∧
      block.blobGasprice * (gasPerBlob * tx.blobHashes.length) ≤ u128Max

/-- The gas of the blobs fits a `u64`. -/
def TxEnv.BlobGasFits (tx : TxEnv) : Prop :=
  tx.txType = .eip4844 → gasPerBlob * tx.blobHashes.length ≤ u64Max

/-- The fee of the blobs that is charged: the product saturates at `u128::MAX`. -/
def TxEnv.chargedBlobFee (tx : TxEnv) (block : BlockEnv) : Nat := min (tx.blobFee block) u128Max

/-- `effective_balance_spending` has no overflow to report. -/
def TxEnv.SpendingFits (tx : TxEnv) (block : BlockEnv) : Prop :=
  tx.gasLimit.toNat * tx.effectiveGasPrice block.basefee.toNat ≤ u128Max ∧
    tx.gasLimit.toNat * tx.effectiveGasPrice block.basefee.toNat + tx.value.toNat +
      tx.chargedBlobFee block < 2 ^ 256

theorem TxEnv.BlobsFit.chargedBlobFee_eq {tx : TxEnv} {block : BlockEnv} (h : tx.BlobsFit block) :
    tx.chargedBlobFee block = tx.blobFee block := by
  apply Nat.min_eq_left
  unfold blobFee
  split
  · rename_i htype
    exact (h htype).2
  · exact Nat.zero_le _

theorem toNat_ofNat_of_le_u128Max {n : Nat} (h : n ≤ u128Max) : (BitVec.ofNat 256 n).toNat = n := by
  apply Nat.mod_eq_of_lt
  unfold u128Max at h
  omega

theorem toNat_of_checkedAdd {x y z : U256} (h : checkedAdd x y = some z) :
    z.toNat = x.toNat + y.toNat := by
  have := (checkedAdd_eq h).1
  omega

section Fee

variable {tx : TxEnv} {block : BlockEnv} {cfg : CfgEnv} {price blob : Nat} {fee : Option Nat}

/-- A spending that is answered is the exact sum. -/
theorem balanceSpending_toNat {spending : U256} (hblob : blob ≤ u128Max)
    (hfee : tx.txType = .eip4844 → fee = some blob) (hnone : tx.txType ≠ .eip4844 → blob = 0)
    (h : tx.balanceSpending price fee = some (.ok spending)) : tx.gasLimit.toNat * price ≤ u128Max ∧
      spending.toNat = tx.gasLimit.toNat * price + tx.value.toNat + blob := by
  unfold balanceSpending at h
  cases hgas : (mulU128 tx.gasLimit.toNat price).bind fun gasCost =>
      checkedAdd (BitVec.ofNat 256 gasCost) tx.value with
  | none =>
    rw [hgas] at h
    cases h
  | some sum =>
    rw [hgas] at h
    obtain ⟨gasCost, hmul, hadd⟩ := bind_eq_some_iff.1 hgas
    obtain ⟨rfl, hle⟩ := of_mulU128_eq_some hmul
    have hsum := toNat_of_checkedAdd hadd
    rw [toNat_ofNat_of_le_u128Max hle] at hsum
    refine ⟨hle, ?_⟩
    dsimp only at h
    by_cases htype : tx.txType = .eip4844
    · rw [if_pos htype, hfee htype, map_some] at h
      cases hadd' : checkedAdd sum (BitVec.ofNat 256 blob) with
      | none =>
        rw [hadd'] at h
        cases h
      | some total =>
        rw [hadd'] at h
        cases h
        have htotal := toNat_of_checkedAdd hadd'
        rw [toNat_ofNat_of_le_u128Max hblob] at htotal
        omega
    · rw [if_neg htype] at h
      cases h
      rw [hnone htype]
      omega

/-- A sum that fits is answered. -/
theorem balanceSpending_ok (hmul : tx.gasLimit.toNat * price ≤ u128Max) (hblob : blob ≤ u128Max)
    (hfee : tx.txType = .eip4844 → fee = some blob)
    (hsum : tx.gasLimit.toNat * price + tx.value.toNat + blob < 2 ^ 256) :
    ∃ spending, tx.balanceSpending price fee = some (.ok spending) := by
  have hgas : (mulU128 tx.gasLimit.toNat price).bind (fun gasCost =>
      checkedAdd (BitVec.ofNat 256 gasCost) tx.value) =
        some (BitVec.ofNat 256 (tx.gasLimit.toNat * price) + tx.value) := by
    rw [mulU128_eq_some hmul, bind_some]
    apply if_pos
    rw [toNat_ofNat_of_le_u128Max hmul]
    omega
  have hsumNat : (BitVec.ofNat 256 (tx.gasLimit.toNat * price) + tx.value).toNat =
      tx.gasLimit.toNat * price + tx.value.toNat := by
    rw [BitVec.toNat_add, toNat_ofNat_of_le_u128Max hmul]
    exact Nat.mod_eq_of_lt (by omega)
  unfold balanceSpending
  rw [hgas]
  dsimp only
  by_cases htype : tx.txType = .eip4844
  · have hadd : checkedAdd (BitVec.ofNat 256 (tx.gasLimit.toNat * price) + tx.value)
        (BitVec.ofNat 256 blob) =
          some (BitVec.ofNat 256 (tx.gasLimit.toNat * price) + tx.value + BitVec.ofNat
            256 blob) := by
      apply if_pos
      rw [hsumNat, toNat_ofNat_of_le_u128Max hblob]
      exact hsum
    rw [if_pos htype, hfee htype, map_some, hadd]
    exact ⟨_, rfl⟩
  · rw [if_neg htype]
    exact ⟨_, rfl⟩

theorem balanceSpending_isSome (hfee : tx.txType = .eip4844 → fee = some blob) :
    ∃ r, tx.balanceSpending price fee = some r := by
  unfold balanceSpending
  split
  · exact ⟨_, rfl⟩
  · by_cases htype : tx.txType = .eip4844
    · rw [if_pos htype, hfee htype]
      exact ⟨_, rfl⟩
    · rw [if_neg htype]
      exact ⟨_, rfl⟩

/-- The maximal fee of the blobs covers the fee at the price of the block. -/
theorem chargedBlobFee_le (hvalid : validateEnv tx block cfg = .ok ()) (hgas : tx.BlobGasFits) :
    ∃ maxFee, maxFee ≤ u128Max ∧ tx.chargedBlobFee block ≤ maxFee ∧
      (tx.txType = .eip4844 → tx.calcMaxDataFee = some maxFee) ∧
      (tx.txType ≠ .eip4844 → maxFee = 0) := by
  unfold chargedBlobFee blobFee
  by_cases htype : tx.txType = .eip4844
  · have hprice := blobGasprice_le htype hvalid
    have hmul : block.blobGasprice * (gasPerBlob * tx.blobHashes.length) ≤
        gasPerBlob * tx.blobHashes.length * tx.maxFeePerBlobGas.toNat := by
      rw [Nat.mul_comm]
      exact Nat.mul_le_mul_left _ hprice
    refine ⟨saturatingMulU128 (gasPerBlob * tx.blobHashes.length) tx.maxFeePerBlobGas.toNat,
      Nat.min_le_right _ _, ?_, fun _ => ?_, fun hne => absurd htype hne⟩
    · rw [if_pos htype]
      exact Nat.le_min.2 ⟨(Nat.min_le_left _ _).trans hmul, Nat.min_le_right _ _⟩
    · unfold calcMaxDataFee totalBlobGas
      rw [mulU64_eq_some (hgas htype)]
      rfl
  · refine ⟨0, Nat.zero_le _, ?_, fun h => absurd h htype, fun _ => rfl⟩
    rw [if_neg htype]
    exact Nat.min_le_left _ _

theorem effectiveBlobFee (block : BlockEnv) (hgas : tx.BlobGasFits) : (tx.txType = .eip4844 →
      (tx.totalBlobGas.map fun blobGas => saturatingMulU128 block.blobGasprice blobGas) =
        some (tx.chargedBlobFee block)) ∧
      (tx.txType ≠ .eip4844 → tx.chargedBlobFee block = 0) := by
  unfold chargedBlobFee blobFee
  constructor
  · intro htype
    unfold totalBlobGas
    rw [mulU64_eq_some (hgas htype), if_pos htype]
    rfl
  · intro htype
    rw [if_neg htype]
    exact Nat.zero_min _

/-- A spending that fits is answered, with the exact sum. -/
theorem effectiveBalanceSpending_eq (hgas : tx.BlobGasFits) (hfits : tx.SpendingFits block) :
    ∃ effective,
      tx.effectiveBalanceSpending block.basefee.toNat block.blobGasprice = some (.ok effective) ∧
      effective.toNat = tx.gasLimit.toNat * tx.effectiveGasPrice block.basefee.toNat +
        tx.value.toNat + tx.chargedBlobFee block := by
  obtain ⟨hblob, hnoBlob⟩ := effectiveBlobFee block hgas
  have hcharged : tx.chargedBlobFee block ≤ u128Max := Nat.min_le_right _ _
  obtain ⟨effective, heffective⟩ := balanceSpending_ok hfits.1 hcharged hblob hfits.2
  exact ⟨effective, heffective, (balanceSpending_toNat hcharged hblob hnoBlob heffective).2⟩

section

variable (hvalid : validateEnv tx block cfg = .ok ())

include hvalid

/-- A caller whose maximal spending is covered pays the effective one. -/
theorem calculateCallerFee_covered
    (hcheck : cfg.disableBalanceCheck = false) (hgas : tx.BlobGasFits) {balance maximal : U256}
    (hmax : tx.maxBalanceSpending = some (.ok maximal)) (hle : maximal ≤ balance) : ∃ effective,
      tx.effectiveBalanceSpending block.basefee.toNat block.blobGasprice = some (.ok effective) ∧
      effective ≤ maximal ∧ tx.gasLimit.toNat * tx.maxFeePerGas ≤ u128Max ∧
      ∃ newBalance, calculateCallerFee tx block cfg balance = some (.ok newBalance) ∧
        newBalance.toNat + tx.gasLimit.toNat * tx.effectiveGasPrice block.basefee.toNat +
          tx.chargedBlobFee block = balance.toNat ∧ tx.value ≤ newBalance := by
  obtain ⟨maxFee, hmaxFee, hblobFee, hdataFee, hnoFee⟩ := chargedBlobFee_le hvalid hgas
  obtain ⟨hmul, hspending⟩ := balanceSpending_toNat hmaxFee hdataFee hnoFee hmax
  have hprice : tx.gasLimit.toNat * tx.effectiveGasPrice block.basefee.toNat ≤
      tx.gasLimit.toNat * tx.maxFeePerGas :=
    Nat.mul_le_mul_left _ (effectiveGasPrice_le tx _)
  have hcovers : maximal.toNat ≤ balance.toNat := hle
  have hfits : tx.SpendingFits block := ⟨hprice.trans hmul, by omega⟩
  obtain ⟨effective, heffective, hexact⟩ := effectiveBalanceSpending_eq hgas hfits
  have hgasSpending : (effective - tx.value).toNat =
      tx.gasLimit.toNat * tx.effectiveGasPrice block.basefee.toNat + tx.chargedBlobFee block := by
    rw [BitVec.toNat_sub_of_le (by show tx.value.toNat ≤ effective.toNat; omega)]
    omega
  have hsubLe : effective - tx.value ≤ balance := by
    show (effective - tx.value).toNat ≤ balance.toNat
    omega
  have hsub : checkedSub balance (effective - tx.value) =
      some (balance - (effective - tx.value)) := if_pos hsubLe
  have hnew : (balance - (effective - tx.value)).toNat +
      tx.gasLimit.toNat * tx.effectiveGasPrice block.basefee.toNat + tx.chargedBlobFee block =
        balance.toNat := by
    rw [BitVec.toNat_sub_of_le hsubLe, hgasSpending]
    omega
  refine ⟨effective, heffective, ?_, hmul, balance - (effective - tx.value), ?_, hnew, ?_⟩
  · show effective.toNat ≤ maximal.toNat
    omega
  · unfold calculateCallerFee ensureEnoughBalance
    have hlack : ¬maximal > balance := Nat.not_lt.2 hle
    simp only [hcheck, hmax, Bool.false_eq_true, if_false, map_some, hlack,
      bind_eq_bind, bind_some, heffective, hsub, getD_some]
    rfl
  · show tx.value.toNat ≤ (balance - (effective - tx.value)).toNat
    omega

/-- A caller whose maximal spending is not covered is turned away. -/
theorem calculateCallerFee_cases
    (hcheck : cfg.disableBalanceCheck = false) (hgas : tx.BlobGasFits) (balance : U256) :
    (∃ e, calculateCallerFee tx block cfg balance = some (.error e)) ∨
      ∃ maximal, tx.maxBalanceSpending = some (.ok maximal) ∧ maximal ≤ balance := by
  obtain ⟨maxFee, -, -, hdataFee, -⟩ := chargedBlobFee_le hvalid hgas
  obtain ⟨spending, hmax⟩ : ∃ r, tx.maxBalanceSpending = some r := balanceSpending_isSome hdataFee
  unfold calculateCallerFee ensureEnoughBalance
  rw [hcheck, hmax]
  cases spending with
  | error e => exact .inl ⟨e, rfl⟩
  | ok maximal =>
    by_cases hlack : maximal > balance
    · refine .inl ⟨.lackOfFundForMaxFee maximal balance, ?_⟩
      simp only [Bool.false_eq_true, if_false, map_some, hlack, if_true,
        bind_eq_bind, bind_some]
      rfl
    · exact .inr ⟨maximal, rfl, Nat.not_lt.1 hlack⟩

/-- The fee of a caller whose balance was checked: never a panic, and exact. -/
theorem calculateCallerFee_exact
    (hcheck : cfg.disableBalanceCheck = false) (hfit : tx.BlobsFit block) (balance : U256) :
    ∃ r, calculateCallerFee tx block cfg balance = some r ∧ ∀ newBalance, r = .ok newBalance →
      tx.gasLimit.toNat * tx.maxFeePerGas ≤ u128Max ∧
      newBalance.toNat + tx.gasLimit.toNat * tx.effectiveGasPrice block.basefee.toNat +
        tx.blobFee block = balance.toNat := by
  have hgas : tx.BlobGasFits := fun htype => (hfit htype).1
  rcases calculateCallerFee_cases hvalid hcheck hgas balance with ⟨e, he⟩ | ⟨maximal, hmax, hle⟩
  · exact ⟨.error e, he, nofun⟩
  · obtain ⟨effective, -, -, hmul, newBalance, hnew, hsum, -⟩ :=
      calculateCallerFee_covered hvalid hcheck hgas hmax hle
    refine ⟨.ok newBalance, hnew, ?_⟩
    rintro _ ⟨⟩
    rw [hfit.chargedBlobFee_eq] at hsum
    exact ⟨hmul, hsum⟩

end

/-- Without the balance check nothing but an overflow of the spending is in the way. -/
theorem calculateCallerFee_unchecked (hcheck : cfg.disableBalanceCheck = true)
    (hgas : tx.BlobGasFits) (hfits : tx.SpendingFits block) (balance : U256) :
    ∃ newBalance, calculateCallerFee tx block cfg balance = some (.ok newBalance) := by
  obtain ⟨effective, heffective, -⟩ := effectiveBalanceSpending_eq hgas hfits
  unfold calculateCallerFee
  simp only [hcheck, if_true, bind_eq_bind, bind_some, heffective]
  exact ⟨_, rfl⟩

end Fee

/-! ## The charge -/

/-- The deduction reaches no `expect` where the balance is checked or the spending fits, and what a
checked caller is left with is the balance without the gas and the blobs. The value is still
there. -/
theorem calculateCallerFee_charges (tx : TxEnv) (block : BlockEnv) (cfg : CfgEnv) (balance : U256)
    (hvalid : validateEnv tx block cfg = .ok ()) (hgas : tx.BlobGasFits) :
    (cfg.disableBalanceCheck = false ∨ tx.SpendingFits block →
      ∃ r, calculateCallerFee tx block cfg balance = some r) ∧
    ∀ newBalance, cfg.disableBalanceCheck = false →
      calculateCallerFee tx block cfg balance = some (.ok newBalance) →
      (∃ effective maximal,
        tx.effectiveBalanceSpending block.basefee.toNat block.blobGasprice = some (.ok effective) ∧
        tx.maxBalanceSpending = some (.ok maximal) ∧ effective ≤ maximal ∧ maximal ≤ balance) ∧
      newBalance.toNat + tx.effectiveGasPrice block.basefee.toNat * tx.gasLimit.toNat +
        min (tx.blobFee block) u128Max = balance.toNat ∧
      tx.value ≤ newBalance := by
  constructor
  · intro hfits
    rcases Bool.eq_false_or_eq_true cfg.disableBalanceCheck with hcheck | hcheck
    · have hspending : tx.SpendingFits block := hfits.resolve_left (by simp [hcheck])
      obtain ⟨newBalance, hnew⟩ := calculateCallerFee_unchecked hcheck hgas hspending balance
      exact ⟨.ok newBalance, hnew⟩
    · rcases calculateCallerFee_cases hvalid hcheck hgas balance with ⟨e, he⟩ | ⟨maximal, hmax, hle⟩
      · exact ⟨.error e, he⟩
      · obtain ⟨effective, -, -, -, newBalance, hnew, -⟩ :=
          calculateCallerFee_covered hvalid hcheck hgas hmax hle
        exact ⟨.ok newBalance, hnew⟩
  · intro newBalance hcheck hok
    rcases calculateCallerFee_cases hvalid hcheck hgas balance with ⟨e, he⟩ | ⟨maximal, hmax, hle⟩
    · rw [he] at hok
      cases hok
    · obtain ⟨effective, heffective, hordered, -, newBalance', hnew, hsum, hvalue⟩ :=
        calculateCallerFee_covered hvalid hcheck hgas hmax hle
      obtain rfl : newBalance' = newBalance := by
        rw [hnew] at hok
        cases hok
        rfl
      refine ⟨⟨effective, maximal, heffective, hmax, hordered, hle⟩, ?_, hvalue⟩
      rw [Nat.mul_comm]
      exact hsum

/-! ## Some transactions -/

/-- A payment of account `1` to account `3`. -/
def feeTx : TxEnv where
  txType := .eip1559
  caller := 1
  gasLimit := 30000
  gasPrice := 10
  kind := .call 3
  value := 4
  data := []
  nonce := 0
  chainId := some 1
  accessList := []
  gasPriorityFee := some 2
  blobHashes := []
  maxFeePerBlobGas := 0
  authorizationList := []

/-- A block with a base fee. -/
def feeBlock (beneficiary : Address) : BlockEnv where
  number := 1
  beneficiary := beneficiary
  timestamp := 1
  gasLimit := 30000000
  basefee := 7
  difficulty := 0
  prevrandao := some 0
  blobExcessGasAndPrice := some ⟨0, 2 ^ 112⟩

/-- A blob at a price at which its fee leaves a `u128`. -/
def blobTx : TxEnv :=
  { feeTx with
    txType := .eip4844
    caller := 2
    blobHashes := [2 ^ 248]
    maxFeePerBlobGas := 2 ^ 112 }

/-- A blob transaction whose caller can pay. -/
theorem calculateCallerFee_charges_blobTx :
    calculateCallerFee blobTx (feeBlock 1) (.newWithSpec .prague) (BitVec.allOnes 256) =
        some (.ok (BitVec.allOnes 256 - BitVec.ofNat 256 (30000 * 9 + (2 ^ 128 - 1)))) ∧
      blobTx.value ≤ BitVec.allOnes 256 - BitVec.ofNat 256 (30000 * 9 + (2 ^ 128 - 1)) := by
  have hrun : calculateCallerFee blobTx (feeBlock 1) (.newWithSpec .prague) (BitVec.allOnes 256) =
      some (.ok (BitVec.allOnes 256 - BitVec.ofNat 256 (30000 * 9 + (2 ^ 128 - 1)))) := by
    decide +kernel
  obtain ⟨-, hcharged⟩ := calculateCallerFee_charges blobTx (feeBlock 1) (.newWithSpec .prague)
    (BitVec.allOnes 256) (by decide +kernel) (fun _ => by decide)
  exact ⟨hrun, (hcharged _ rfl hrun).2.2⟩

/-- The blob transaction with so many blobs. -/
def blobsTx (blobs : Nat) : TxEnv := { blobTx with blobHashes := List.replicate blobs (2 ^ 248) }

theorem validateEip4844Tx_replicate (blobs : Nat) {maxFee price : Nat} (h : price ≤ maxFee) :
    validateEip4844Tx (List.replicate (blobs + 1) (2 ^ 248)) maxFee price none = .ok () := by
  have hversion : (List.replicate (blobs + 1) (2 ^ 248 : B256)).any
      (fun blob => versionByte blob ≠ 1) =
      false := by
    rw [List.any_replicate, if_neg (Nat.succ_ne_zero blobs)]
    decide +kernel
  unfold validateEip4844Tx
  rw [if_neg (Nat.not_lt.2 h), hversion]
  rfl

theorem validateEnv_blobsTx (blobs : Nat) :
    validateEnv (blobsTx (blobs + 1)) (feeBlock 1) (.newWithSpec .prague) = .ok () := by
  have hfees : validateFees (blobsTx (blobs + 1)) (feeBlock 1) (.newWithSpec .prague) = .ok () := by
    unfold validateFees maxFeePerGas maxPriorityFeePerGas blobsTx
    dsimp only
    decide +kernel
  have hblobs : validateEip4844Tx (blobsTx (blobs + 1)).blobHashes
      (blobsTx (blobs + 1)).maxFeePerBlobGas.toNat (feeBlock 1).blobGasprice
      (CfgEnv.newWithSpec .prague).maxBlobsPerTx = .ok () := by
    unfold blobsTx
    dsimp only
    exact validateEip4844Tx_replicate blobs (by decide +kernel)
  have htype : validateTxType (blobsTx (blobs + 1)) (feeBlock 1) (.newWithSpec .prague) .prague =
      .ok () := by
    unfold validateTxType
    rw [hfees, hblobs, show (blobsTx (blobs + 1)).txType = .eip4844 from rfl]
    rfl
  unfold validateEnv validateTxEnv
  rw [show (CfgEnv.newWithSpec .prague).spec = .prague from rfl, htype]
  rfl

/-- A spending that overflows reaches the `expect` where the balance is not checked. The gas of
blobs without a limit can leave a `u64`, and the fee of one blob a `u128`. -/
theorem calculateCallerFee_exceptions :
    (∃ tx block cfg balance, validateEnv tx block cfg = .ok () ∧ tx.BlobGasFits ∧
      calculateCallerFee tx block cfg balance = none) ∧
    (∃ tx block cfg balance, validateEnv tx block cfg = .ok () ∧ cfg.disableBalanceCheck = false ∧
      calculateCallerFee tx block cfg balance = none) ∧
    ∃ tx block cfg balance newBalance, validateEnv tx block cfg = .ok () ∧
      cfg.disableBalanceCheck = false ∧
      calculateCallerFee tx block cfg balance = some (.ok newBalance) ∧
      balance.toNat < newBalance.toNat +
        tx.effectiveGasPrice block.basefee.toNat * tx.gasLimit.toNat + tx.blobFee block := by
  refine ⟨?_, ?_, ?_⟩
  · refine ⟨{ feeTx with value := BitVec.allOnes 256 }, feeBlock 1,
      { CfgEnv.newWithSpec .prague with disableBalanceCheck := true }, 0, ?_, ?_, ?_⟩
    · decide +kernel
    · exact nofun
    · decide +kernel
  · refine ⟨blobsTx (2 ^ 47 - 1 + 1), feeBlock 1, .newWithSpec .prague, 0,
      validateEnv_blobsTx _, rfl, ?_⟩
    have hgas : (blobsTx (2 ^ 47 - 1 + 1)).totalBlobGas = none := by
      unfold totalBlobGas
      rw [show (blobsTx (2 ^ 47 - 1 + 1)).blobHashes.length = 2 ^ 47 from List.length_replicate]
      rfl
    have hdata : (blobsTx (2 ^ 47 - 1 + 1)).calcMaxDataFee = none := by
      unfold calcMaxDataFee
      rw [hgas]
      rfl
    have hmax : (blobsTx (2 ^ 47 - 1 + 1)).maxBalanceSpending = none := by
      unfold maxBalanceSpending
      rw [hdata]
      rfl
    unfold calculateCallerFee ensureEnoughBalance
    rw [hmax]
    rfl
  · refine ⟨blobTx, feeBlock 1, .newWithSpec .prague, BitVec.allOnes 256,
      BitVec.allOnes 256 - BitVec.ofNat 256 (30000 * 9 + (2 ^ 128 - 1)), ?_, rfl, ?_, ?_⟩
    all_goals decide +kernel

end Revm
