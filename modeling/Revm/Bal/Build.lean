import Revm.Bal.Database

/-!
# Building a block access list

`Bal.update` adds the output of a transaction to the list. What is seen at an index up to the new
one stays, and above it the account and its slots are those of the output. So the list of one
account replays the history of this account: at each index it shows what the account was before the
transaction with this index (`AccountReplays`). A transaction keeps this if its output starts from
the account as it was (`AccountConsistent`), and if an account that it destroys, creates or leaves
empty had no storage, since the list does not record that storage is cleared
(`AccountReplays.commit`).
-/

set_option autoImplicit false

namespace Revm

open BalWrites AccountInfo StorageBal AccountBal Option HashMap Or AccountInfoBal Bool PlainView

variable {x : AccountInfo} {account : Account} {v : PlainView} {h : Nat → PlainView}

/-! ## Account infos -/

namespace AccountInfoBal

variable {self : AccountInfoBal} {i k : Nat} {original present base : AccountInfo}

section

variable (hbelow : self.Below i)

include hbelow

theorem below_update : (self.update i original present).Below (i + 1) :=
  ⟨below_updateWithKey hbelow.nonce _ _ _, below_updateWithKey hbelow.balance _ _ _,
    below_updateWithKey hbelow.code _ _ _⟩

theorem increasing_update (hinc : self.Increasing) : (self.update i original present).Increasing :=
  ⟨increasing_updateWithKey hbelow.nonce _ _ _ hinc.nonce,
    increasing_updateWithKey hbelow.balance _ _ _ hinc.balance,
    increasing_updateWithKey hbelow.code _ _ _ hinc.code⟩

/-- Up to the new index nothing changes. -/
theorem infoAt_update_of_le (hk : k ≤ i) :
    (self.update i original present).infoAt k base = self.infoAt k base := by
  unfold infoAt update BalWrites.update
  rw [before_updateWithKey hbelow.nonce _ _ _ hk, before_updateWithKey hbelow.balance _ _ _ hk,
    before_updateWithKey hbelow.code _ _ _ hk]

/-- Above the new index the account is the present one. -/
theorem infoAt_update_of_lt (hnonce : self.nonce.last = none → original.nonce = base.nonce)
    (hbalance : self.balance.last = none → original.balance = base.balance)
    (hcode : self.code.last = none → original.codeHash = base.codeHash) (hk : i < k) :
    ((self.update i original present).infoAt k base).eqInfo present = true := by
  have hn := subvalue_updateWithKey hbelow.nonce original.nonce present.nonce id hnonce hk
  have hb := subvalue_updateWithKey hbelow.balance original.balance present.balance id hbalance hk
  have hc := subvalue_updateWithKey hbelow.code original.codeHash
    (present.codeHash, present.code.getD .default) (·.1) hcode hk
  rw [map_id] at hn hb
  exact eqInfo_iff.2 ⟨hb, hn, hc⟩

end

end AccountInfoBal

/-! ## Storage -/

namespace StorageBal

variable {self : StorageBal} {i k : Nat} {storage : EvmStorage}

theorem lookup_update (self : StorageBal) (i : Nat) (storage : EvmStorage) (key : StorageKey) :
    (self.update i storage).storage.lookup key =
      (storage.lookup key).elim (self.storage.lookup key) fun slot =>
        some (((self.storage.lookup key).getD .default).update i slot.originalValue
          slot.presentValue) :=
  foldl_obs
    (fun (bal : HashMap StorageKey (BalWrites StorageValue)) key (slot : EvmStorageSlot) =>
      bal.upsert key .default (·.update i slot.originalValue slot.presentValue))
    (fun key bal => bal.lookup key)
    (fun _ (slot : EvmStorageSlot) (writes : Option (BalWrites StorageValue)) =>
      some ((writes.getD .default).update i slot.originalValue slot.presentValue))
    (fun bal key slot => by rw [lookup_upsert, if_pos rfl])
    (fun bal key slot key' hne => by rw [lookup_upsert, if_neg hne]) storage self.storage key

theorem lookup_updateReads (self : StorageBal) (storage : EvmStorage) (key : StorageKey) :
    (self.updateReads storage).storage.lookup key =
      (storage.lookup key).elim (self.storage.lookup key) fun _ =>
        some ((self.storage.lookup key).getD .default) :=
  foldl_obs
    (fun (bal : HashMap StorageKey (BalWrites StorageValue)) key _ => bal.upsert key .default id)
    (fun key bal => bal.lookup key)
    (fun _ (_ : EvmStorageSlot) (writes : Option (BalWrites StorageValue)) =>
      some (writes.getD .default))
    (fun bal key slot => by rw [lookup_upsert, if_pos rfl, id])
    (fun bal key slot key' hne => by rw [lookup_upsert, if_neg hne]) storage self.storage key

/-- The writes of a slot. A slot that is not in the list has none. -/
def writes (self : StorageBal) (key : StorageKey) : BalWrites StorageValue :=
  (self.storage.lookup key).getD .default

theorem before_eq (self : StorageBal) (key : StorageKey) (k : Nat) :
    self.before key k = (self.writes key).before k := by
  unfold before writes
  cases self.storage.lookup key <;> rfl

theorem increasing_iff : self.Increasing ↔ ∀ key, (self.writes key).Increasing := by
  unfold Increasing writes
  constructor
  · intro h key
    cases hlookup : self.storage.lookup key with
    | none => exact increasing_default
    | some writes => exact h key writes hlookup
  · intro h key writes hlookup
    have hkey := h key
    rwa [hlookup] at hkey

theorem below_iff : self.Below i ↔ ∀ key, (self.writes key).Below i := by
  unfold Below writes
  constructor
  · intro h key
    cases hlookup : self.storage.lookup key with
    | none => exact below_default i
    | some writes => exact h key writes hlookup
  · intro h key writes hlookup
    have hkey := h key
    rwa [hlookup] at hkey

theorem writes_update (key : StorageKey) : (self.update i storage).writes key =
      (storage.lookup key).elim (self.writes key) fun slot =>
        (self.writes key).update i slot.originalValue slot.presentValue := by
  unfold writes
  rw [lookup_update]
  cases storage.lookup key <;> rfl

/-- Reads leave the writes of all slots alone. -/
theorem writes_updateReads (key : StorageKey) :
    (self.updateReads storage).writes key = self.writes key := by
  unfold writes
  rw [lookup_updateReads]
  cases storage.lookup key <;> rfl

section

variable (hbelow : self.Below i)

include hbelow

theorem below_update : (self.update i storage).Below (i + 1) := by
  rw [below_iff] at hbelow ⊢
  intro key
  rw [writes_update]
  cases storage.lookup key with
  | none => exact (hbelow key).mono (Nat.le_succ i)
  | some slot => exact below_updateWithKey (hbelow key) _ _ _

theorem increasing_update (hinc : self.Increasing) : (self.update i storage).Increasing := by
  rw [below_iff] at hbelow
  rw [increasing_iff] at hinc ⊢
  intro key
  rw [writes_update]
  cases storage.lookup key with
  | none => exact hinc key
  | some slot => exact increasing_updateWithKey (hbelow key) _ _ _ (hinc key)

/-- Up to the new index nothing changes. -/
theorem before_update_of_le (key : StorageKey) (hk : k ≤ i) :
    (self.update i storage).before key k = self.before key k := by
  rw [below_iff] at hbelow
  rw [before_eq, before_eq, writes_update]
  cases storage.lookup key with
  | none => rfl
  | some slot => exact before_updateWithKey (hbelow key) _ _ _ hk

/-- Above the new index a slot has its present value. -/
theorem before_update_of_lt {key : StorageKey} {slot : EvmStorageSlot}
    {base : StorageValue} (hlookup : storage.lookup key = some slot)
    (hbase : (self.writes key).last = none → slot.originalValue = base) (hk : i < k) :
    ((self.update i storage).before key k).getD base = slot.presentValue := by
  rw [below_iff] at hbelow
  rw [before_eq, writes_update, hlookup]
  have h := subvalue_updateWithKey (hbelow key) slot.originalValue slot.presentValue id hbase hk
  rwa [map_id] at h

end

end StorageBal

theorem Bal.lookup_update (self : Bal) (i : Nat) (changes : EvmState) (address : Address) :
    (self.update i changes).accounts.lookup address =
      (changes.lookup address).elim (self.accounts.lookup address) fun account =>
        some (((self.accounts.lookup address).getD .default).update i account) :=
  foldl_obs (fun (bal : Bal) address (account : Account) => bal.updateAccount i address account)
    (fun address bal => bal.accounts.lookup address)
    (fun _ account b => some ((b.getD .default).update i account))
    (fun bal address account => by rw [updateAccount, lookup_upsert, if_pos rfl])
    (fun bal address account address' hne => by rw [updateAccount, lookup_upsert, if_neg hne])
    changes self address

/-! ## The history of one account -/

/-- Balance, nonce and code hash. An empty account is missing. -/
def seenInfo (info : Option AccountInfo) : Option (U256 × U64 × B256) :=
  (nonEmpty info).map fun i => (i.balance, i.nonce, i.codeHash)

theorem seenInfo_congr {y : AccountInfo} (h : x.eqInfo y = true) :
    seenInfo (some x) = seenInfo (some y) := by
  have hempty := isEmpty_congr h
  obtain ⟨hb, hn, hc⟩ := eqInfo_iff.1 h
  unfold seenInfo
  cases hx : x.isEmpty with
  | true => rw [nonEmpty_some_of_isEmpty hx, nonEmpty_some_of_isEmpty (hempty ▸ hx)]
  | false =>
    rw [nonEmpty_some_of_not_isEmpty hx, nonEmpty_some_of_not_isEmpty (hempty ▸ hx), map_some,
      map_some, hb, hn, hc]

theorem seenInfo_of_isEmpty (h : x.isEmpty = true) : seenInfo (some x) = none := by
  rw [seenInfo, nonEmpty_some_of_isEmpty h]
  rfl

theorem seenInfo_nonEmpty (info : Option AccountInfo) :
    seenInfo (nonEmpty info) = seenInfo info := by
  rw [seenInfo, nonEmpty_nonEmpty, seenInfo]

/-- Two accounts that look the same are both empty, or have the same fields. -/
theorem seenInfo_eq_iff {info : Option AccountInfo}
    (h : seenInfo (some x) = seenInfo info) : nonEmpty info = none ∧ x.isEmpty = true ∨
      ∃ y, nonEmpty info = some y ∧ x.eqInfo y = true := by
  unfold seenInfo at h
  cases hx : x.isEmpty with
  | true =>
    rw [nonEmpty_some_of_isEmpty hx] at h
    exact inl ⟨map_eq_none_iff.1 h.symm, rfl⟩
  | false =>
    rw [nonEmpty_some_of_not_isEmpty hx] at h
    obtain ⟨y, hy, heq⟩ := map_eq_some_iff.1 h.symm
    simp only [Prod.mk.injEq] at heq
    exact inr ⟨y, hy, eqInfo_iff.2 ⟨heq.1.symm, heq.2.1.symm, heq.2.2.symm⟩⟩

/-- The output of a transaction for an account starts from the account as it was. An account that
was not touched is unchanged. An account that is destroyed is so in this transaction. An account
that is destroyed, created or left empty had no storage, and one that is left empty does not get
any. -/
structure AccountConsistent (v : PlainView) (account : Account) : Prop where
  originalInfo : account.originalInfo.eqInfo ((nonEmpty v.info).getD .default) = true
  originalValue : ∀ key slot, account.storage.lookup key = some slot →
    slot.originalValue = v.storage key
  untouchedInfo : account.isTouched = false → account.info.eqInfo account.originalInfo = true
  untouchedStorage : account.isTouched = false →
    ∀ key slot, account.storage.lookup key = some slot →
    slot.presentValue = slot.originalValue
  untouchedAlive : account.isTouched = false → account.isSelfdestructedLocally = false
  destroyed : account.isTouched = true → account.isSelfdestructedLocally = account.isSelfdestructed
  cleared : account.isTouched = true → account.isSelfdestructed = true ∨ account.isEmpty = true →
    ∀ key, v.storage key = 0
  created : account.isCreated = true → ∀ key, v.storage key = 0
  emptied : account.isTouched = true → account.isEmpty = true → account.isSelfdestructed = false →
    account.isCreated = false → ∀ key slot, account.storage.lookup key = some slot →
    slot.presentValue = 0

/-- The list of one account replays the history `h` of this account up to the index `i`. -/
structure AccountReplays (v : PlainView) (h : Nat → PlainView) (i : Nat) (b : AccountBal) :
    Prop where
  infoIncreasing : b.accountInfo.Increasing
  infoBelow : b.accountInfo.Below i
  storageIncreasing : b.storage.Increasing
  storageBelow : b.storage.Below i
  info : ∀ k ≤ i, seenInfo (some (b.accountInfo.infoAt k (v.info.getD .default))) =
    seenInfo (h k).info
  storage : ∀ k ≤ i, ∀ key, (b.storage.before key k).getD (v.storage key) = (h k).storage key

namespace AccountReplays

variable {i : Nat} {b : AccountBal}

/-- The empty list replays a history without transactions. -/
theorem start (hinfo : seenInfo (h 0).info = seenInfo v.info)
    (hstorage : ∀ key, (h 0).storage key = v.storage key) : AccountReplays v h 0 .default where
  infoIncreasing :=
    ⟨increasing_default, increasing_default, increasing_default⟩
  infoBelow := ⟨below_default 0, below_default 0, below_default 0⟩
  storageIncreasing := fun key writes hlookup => (nomatch hlookup)
  storageBelow := fun key writes hlookup => (nomatch hlookup)
  info := by
    intro k hk
    obtain rfl : k = 0 := Nat.le_zero.1 hk
    rw [hinfo]
    cases v.info <;> rfl
  storage := by
    intro k hk key
    obtain rfl : k = 0 := Nat.le_zero.1 hk
    exact (hstorage key).symm

/-- A transaction without this account. -/
theorem skip (hb : AccountReplays v h i b) (hnext : h (i + 1) = h i) :
    AccountReplays v h (i + 1) b where
  infoIncreasing := hb.infoIncreasing
  infoBelow :=
    ⟨hb.infoBelow.nonce.mono (Nat.le_succ i), hb.infoBelow.balance.mono (Nat.le_succ i),
      hb.infoBelow.code.mono (Nat.le_succ i)⟩
  storageIncreasing := hb.storageIncreasing
  storageBelow := fun key writes hlookup => (hb.storageBelow key writes hlookup).mono
    (Nat.le_succ i)
  info := by
    intro k hk
    rcases Nat.lt_or_ge i k with hlt | hle
    · obtain rfl : k = i + 1 := by omega
      rw [hnext, ← hb.info i le_rfl, infoAt_of_below hb.infoBelow]
      rw [infoAt_of_below ⟨hb.infoBelow.nonce.mono (Nat.le_succ i),
        hb.infoBelow.balance.mono (Nat.le_succ i), hb.infoBelow.code.mono (Nat.le_succ i)⟩]
    · exact hb.info k hle
  storage := by
    intro k hk key
    rcases Nat.lt_or_ge i k with hlt | hle
    · obtain rfl : k = i + 1 := by omega
      rw [hnext, ← hb.storage i le_rfl key, before_of_below hb.storageBelow,
        before_of_below fun key writes hlookup =>
          (hb.storageBelow key writes hlookup).mono (Nat.le_succ i)]
    · exact hb.storage k hle key

/-- Where nothing was written yet, the account before the transaction is the one of the database. -/
theorem original_eq (hb : AccountReplays v h i b)
    (hhash : ∀ info, v.info = some info → info.codeHash ≠ 0) {original : AccountInfo}
    (horiginal : original.eqInfo ((nonEmpty (h i).info).getD .default) = true) :
    (b.accountInfo.nonce.last = none → original.nonce = (v.info.getD .default).nonce) ∧
      (b.accountInfo.balance.last = none → original.balance = (v.info.getD .default).balance) ∧
      (b.accountInfo.code.last = none → original.codeHash = (v.info.getD .default).codeHash) := by
  have hseen := hb.info i le_rfl
  rw [infoAt_of_below hb.infoBelow] at hseen
  have hbase : (v.info.getD .default).codeHash ≠ 0 := by
    cases hinfo : v.info with
    | none => decide
    | some info => exact hhash info hinfo
  revert hseen hbase
  intro hseen hbase
  rcases seenInfo_eq_iff hseen with ⟨hnone, hempty⟩ | ⟨y, hy, heq⟩
  · -- the account is missing: the list shows an empty one
    rw [hnone] at horiginal
    obtain ⟨hb', hn', hc'⟩ := eqInfo_iff.1 horiginal
    unfold AccountInfo.isEmpty AccountInfo.isEmptyCodeHash AccountInfoBal.final at hempty
    simp only [and_eq_true, or_eq_true, beq_iff_eq] at hempty
    obtain ⟨⟨hcode, hbalance⟩, hnonce⟩ := hempty
    refine ⟨fun hlast => ?_, fun hlast => ?_, fun hlast => ?_⟩
    · rw [hlast] at hnonce
      exact hn'.trans hnonce.symm
    · rw [hlast] at hbalance
      exact hb'.trans hbalance.symm
    · rw [hlast] at hcode
      exact hc'.trans (hcode.resolve_right hbase).symm
  · rw [hy] at horiginal
    obtain ⟨hb', hn', hc'⟩ := eqInfo_iff.1 horiginal
    obtain ⟨hbalance, hnonce, hcode⟩ := eqInfo_iff.1 heq
    unfold final at hbalance hnonce hcode
    refine ⟨fun hlast => ?_, fun hlast => ?_, fun hlast => ?_⟩
    · rw [hlast] at hnonce
      exact hn'.trans hnonce.symm
    · rw [hlast] at hbalance
      exact hb'.trans hbalance.symm
    · rw [hlast] at hcode
      exact hc'.trans hcode.symm

end AccountReplays

/-- The account that the list records for an output. -/
def Account.recorded (account : Account) : AccountInfo :=
  if account.isSelfdestructedLocally then .default else account.info

theorem AccountBal.accountInfo_update (b : AccountBal) (i : Nat) (account : Account) :
    (b.update i account).accountInfo =
      b.accountInfo.update i account.originalInfo account.recorded := by
  unfold update Account.recorded
  split_ifs <;> rfl

/-- The recorded account is the one that a commit leaves. -/
theorem AccountConsistent.seenInfo_recorded (hc : AccountConsistent v account) :
    seenInfo (some account.recorded) = seenInfo (v.commit account).info := by
  unfold commit Account.recorded
  cases htouched : account.isTouched with
  | false =>
    rw [hc.untouchedAlive htouched]
    show seenInfo (some account.info) = seenInfo v.info
    rw [seenInfo_congr (hc.untouchedInfo htouched), seenInfo_congr hc.originalInfo]
    rw [← seenInfo_nonEmpty v.info]
    cases nonEmpty v.info <;> rfl
  | true =>
    rw [hc.destroyed htouched]
    simp only [Bool.not_true, Bool.false_eq_true, if_false]
    split_ifs with hdestroyed hcreated hempty
    · rfl
    · rfl
    · exact seenInfo_of_isEmpty hempty
    · rfl

namespace AccountReplays

variable {i : Nat} {b : AccountBal}

/-- The slots that the list records are those that a commit leaves. -/
theorem storage_update (hb : AccountReplays v h i b)
    (hc : AccountConsistent (h i) account) (key : StorageKey) :
    ((b.update i account).storage.before key (i + 1)).getD (v.storage key) =
      ((h i).commit account).storage key := by
  have hcurrent := hb.storage i le_rfl key
  have hlast : ((b.storage.writes key).last).getD (v.storage key) = (h i).storage key := by
    rwa [before_eq, before_of_below (below_iff.1 hb.storageBelow key)]
      at hcurrent
  have hkept : ∀ writes : BalWrites StorageValue, writes = b.storage.writes key →
      (writes.before (i + 1)).getD (v.storage key) = (h i).storage key := by
    rintro writes rfl
    rw [before_of_below ((below_iff.1 hb.storageBelow key).mono (Nat.le_succ i))]
    exact hlast
  unfold AccountBal.update
  cases hlocal : account.isSelfdestructedLocally with
  | true =>
    -- the slots of a destroyed account are only read; there was none with a value
    have htouched : account.isTouched = true := by
      by_contra hne
      rw [hc.untouchedAlive (eq_false_iff.2 hne)] at hlocal
      cases hlocal
    have hdestroyed := (hc.destroyed htouched).symm.trans hlocal
    rw [if_pos rfl, before_eq, hkept _ (writes_updateReads key),
      hc.cleared htouched (inl hdestroyed) key]
    unfold commit
    rw [htouched, hdestroyed]
    rfl
  | false =>
    simp only [false_eq_true, if_false]
    cases hlookup : account.storage.lookup key with
    | none =>
      have hwrites : (b.storage.update i account.storage).writes key = b.storage.writes key := by
        rw [writes_update, hlookup]
        rfl
      rw [before_eq, hkept _ hwrites]
      unfold PlainView.commit
      cases htouched : account.isTouched with
      | false => rfl
      | true =>
        rw [← hc.destroyed htouched, hlocal]
        simp only [Bool.not_true, Bool.false_eq_true, if_false]
        split_ifs with hcreated hempty
        · dsimp only
          rw [hc.created hcreated key, hlookup]
          rfl
        · exact hc.cleared htouched (Or.inr hempty) key
        · dsimp only
          rw [hlookup]
          rfl
    | some slot =>
      rw [before_update_of_lt hb.storageBelow hlookup (fun hnone => by
        rw [hnone] at hlast
        rw [hc.originalValue key slot hlookup]
        exact hlast.symm) (Nat.lt_succ_self i)]
      unfold commit
      cases htouched : account.isTouched with
      | false =>
        exact (hc.untouchedStorage htouched key slot hlookup).trans
          (hc.originalValue key slot hlookup)
      | true =>
        have hdestroyed := (hc.destroyed htouched).symm.trans hlocal
        rw [hdestroyed]
        simp only [Bool.not_true, Bool.false_eq_true, if_false]
        split_ifs with hcreated hempty
        · dsimp only
          rw [hlookup]
          rfl
        · exact hc.emptied htouched hempty hdestroyed
            (Bool.eq_false_iff.2 hcreated) key slot hlookup
        · dsimp only
          rw [hlookup]
          rfl

/-- A transaction with this account. -/
theorem commit (hb : AccountReplays v h i b)
    (hhash : ∀ info, v.info = some info → info.codeHash ≠ 0)
    (hc : AccountConsistent (h i) account) (hnext : h (i + 1) = (h i).commit account) :
    AccountReplays v h (i + 1) (b.update i account) where
  infoIncreasing := by
    rw [accountInfo_update]
    exact increasing_update hb.infoBelow hb.infoIncreasing
  infoBelow := by
    rw [accountInfo_update]
    exact below_update hb.infoBelow
  storageIncreasing := by
    unfold AccountBal.update
    split_ifs
    · rw [increasing_iff]
      intro key
      rw [writes_updateReads]
      exact increasing_iff.1 hb.storageIncreasing key
    · exact increasing_update hb.storageBelow hb.storageIncreasing
  storageBelow := by
    unfold AccountBal.update
    split_ifs
    · rw [below_iff]
      intro key
      rw [writes_updateReads]
      exact (below_iff.1 hb.storageBelow key).mono (Nat.le_succ i)
    · exact below_update hb.storageBelow
  info := by
    intro k hk
    rw [accountInfo_update]
    rcases Nat.lt_or_ge i k with hlt | hle
    · obtain rfl : k = i + 1 := by omega
      obtain ⟨hnonce, hbalance, hcode⟩ := hb.original_eq hhash hc.originalInfo
      rw [hnext, ← hc.seenInfo_recorded]
      exact seenInfo_congr
        (infoAt_update_of_lt hb.infoBelow hnonce hbalance hcode hlt)
    · rw [infoAt_update_of_le hb.infoBelow hle]
      exact hb.info k hle
  storage := by
    intro k hk key
    rcases Nat.lt_or_ge i k with hlt | hle
    · obtain rfl : k = i + 1 := by omega
      rw [hnext]
      exact hb.storage_update hc key
    · rw [← hb.storage k hle key]
      unfold AccountBal.update
      split_ifs
      · rw [before_eq, writes_updateReads, ← before_eq]
      · rw [before_update_of_le hb.storageBelow key hle]

end AccountReplays

end Revm
