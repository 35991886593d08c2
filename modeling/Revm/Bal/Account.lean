import Revm.Bal.Writes
import Revm.State.Account

/-!
# Block access lists

A `Bal` holds for each account of a block what is written to its nonce, balance and code and to its
slots. A slot that is only read has no writes. `Bal.populateAccountInfo` and
`Bal.populateStorageSlot` overwrite an account or a slot of the state before the block with what a
transaction of the block sees; `Bal.updateAccount` adds the output of one transaction.

The accounts are an `IndexMap` in the source. The position of an account in it is its storage id.
-/

set_option autoImplicit false

namespace Revm

open BalWrites

/-- `BalError`. -/
inductive BalError where
  | accountNotFound
  | slotNotFound
  deriving DecidableEq, Repr

/-! ## Account infos -/

/-- `AccountInfoBal`. -/
structure AccountInfoBal where
  nonce : BalWrites U64
  balance : BalWrites U256
  code : BalWrites (B256 × Bytecode)

namespace AccountInfoBal

/-- `AccountInfoBal::default()`. -/
def default : AccountInfoBal := ⟨.default, .default, .default⟩

/-- `AccountInfoBal::populate_account_info`: whether the account got changed, and the account. -/
def populateAccountInfo (self : AccountInfoBal) (balIndex : Nat) (account : AccountInfo) :
    Bool × AccountInfo :=
  let (changed, account) :=
    match self.nonce.get balIndex with
    | some nonce => (true, { account with nonce := nonce })
    | none => (false, account)
  let (changed, account) :=
    match self.balance.get balIndex with
    | some balance => (true, { account with balance := balance })
    | none => (changed, account)
  match self.code.get balIndex with
  | some code => (true, { account with codeHash := code.1, code := some code.2 })
  | none => (changed, account)

/-- `AccountInfoBal::update`. -/
def update (self : AccountInfoBal) (index : Nat) (original present : AccountInfo) :
    AccountInfoBal where
  nonce := self.nonce.update index original.nonce present.nonce
  balance := self.balance.update index original.balance present.balance
  code := self.code.updateWithKey index original.codeHash
    (present.codeHash, present.code.getD .default) (·.1)

end AccountInfoBal

/-! ## Storage -/

/-- `StorageBal`. -/
structure StorageBal where
  storage : HashMap StorageKey (BalWrites StorageValue)

variable (self : StorageBal) (key : StorageKey)

namespace StorageBal

/-- `StorageBal::default()`. -/
def default : StorageBal := ⟨∅⟩

/-- `StorageBal::get`. A slot that is not in the list has no value here. -/
def get (balIndex : Nat) : Except BalError (Option StorageValue) :=
  match self.storage.lookup key with
  | none => .ok none
  | some value => .ok (value.get balIndex)

/-- `StorageBal::update`. -/
def update (balIndex : Nat) (storage : EvmStorage) : StorageBal where
  storage := storage.foldl (fun bal key slot =>
    bal.upsert key .default (·.update balIndex slot.originalValue slot.presentValue)) self.storage

/-- `StorageBal::update_reads`, of the keys of a storage. -/
def updateReads (storage : EvmStorage) : StorageBal where
  storage := storage.foldl (fun bal key _ => bal.upsert key .default id) self.storage

end StorageBal

/-! ## Accounts -/

/-- `AccountBal`. -/
structure AccountBal where
  accountInfo : AccountInfoBal
  storage : StorageBal

namespace AccountBal

/-- `AccountBal::default()`. -/
def default : AccountBal := ⟨.default, .default⟩

/-- `AccountBal::populate_account_info`. -/
def populateAccountInfo (self : AccountBal) (balIndex : Nat) (account : AccountInfo) :
    Bool × AccountInfo :=
  self.accountInfo.populateAccountInfo balIndex account

/-- `AccountBal::update`. The slots of an account that is destroyed are only read. -/
def update (self : AccountBal) (balIndex : Nat) (account : Account) : AccountBal :=
  if account.isSelfdestructedLocally then
    { accountInfo := self.accountInfo.update balIndex account.originalInfo .default
      storage := self.storage.updateReads account.storage }
  else
    { accountInfo := self.accountInfo.update balIndex account.originalInfo account.info
      storage := self.storage.update balIndex account.storage }

end AccountBal

/-! ## The list -/

/-- `Bal`. -/
structure Bal where
  accounts : HashMap Address AccountBal

namespace Bal

/-- `Bal::new`. -/
def new : Bal := ⟨∅⟩

/-- `Bal::update_account`. -/
def updateAccount (self : Bal) (balIndex : Nat) (address : Address) (account : Account) : Bal where
  accounts := self.accounts.upsert address .default (·.update balIndex account)

/-- All accounts of an output, as `BalDatabase::commit` adds them. -/
def update (self : Bal) (balIndex : Nat) (changes : EvmState) : Bal :=
  changes.foldl (fun bal address account => bal.updateAccount balIndex address account) self

/-- `Bal::populate_account_info`: whether the account got changed, and the account. -/
def populateAccountInfo (self : Bal) (address : Address) (balIndex : Nat) (account : AccountInfo) :
    Except BalError (Bool × AccountInfo) :=
  match self.accounts.lookup address with
  | none => .ok (false, account)
  | some balAccount =>
      .ok (balAccount.populateAccountInfo balIndex
        { account with storageId := some (self.accounts.keys.idxOf address) })

/-- `Bal::populate_storage_slot`. -/
def populateStorageSlot (self : Bal) (accountAddress : Address) (balIndex : Nat) (key : StorageKey)
    (value : StorageValue) : Except BalError StorageValue :=
  match self.accounts.lookup accountAddress with
  | none => .ok value
  | some balAccount => (balAccount.storage.get key balIndex).map (·.getD value)

end Bal

/-! ## What is seen at an index -/

/-- The indices of each field increase. -/
structure AccountInfoBal.Increasing (bal : AccountInfoBal) : Prop where
  nonce : bal.nonce.Increasing
  balance : bal.balance.Increasing
  code : bal.code.Increasing

/-- All indices are smaller than `index`. -/
structure AccountInfoBal.Below (bal : AccountInfoBal) (index : Nat) : Prop where
  nonce : bal.nonce.Below index
  balance : bal.balance.Below index
  code : bal.code.Below index

namespace AccountInfoBal

/-- There is a write in front of an index. -/
def isWrittenAt (self : AccountInfoBal) (index : Nat) : Bool :=
  (self.nonce.before index).isSome || (self.balance.before index).isSome ||
    (self.code.before index).isSome

/-- The account with the writes in front of an index. -/
def infoAt (self : AccountInfoBal) (index : Nat) (account : AccountInfo) : AccountInfo where
  nonce := (self.nonce.before index).getD account.nonce
  balance := (self.balance.before index).getD account.balance
  codeHash := ((self.code.before index).map (·.1)).getD account.codeHash
  code := ((self.code.before index).map (·.2)).or account.code
  storageId := account.storageId

/-- The account after all writes. -/
def final (self : AccountInfoBal) (account : AccountInfo) : AccountInfo where
  nonce := self.nonce.last.getD account.nonce
  balance := self.balance.last.getD account.balance
  codeHash := (self.code.last.map (·.1)).getD account.codeHash
  code := (self.code.last.map (·.2)).or account.code
  storageId := account.storageId

theorem populateAccountInfo_eq {self : AccountInfoBal} (hinc : self.Increasing) (index : Nat)
    (account : AccountInfo) :
    self.populateAccountInfo index account = (self.isWrittenAt index,
      self.infoAt index account) := by
  unfold populateAccountInfo isWrittenAt infoAt
  rw [get_eq_before hinc.nonce, get_eq_before hinc.balance,
    get_eq_before hinc.code]
  cases self.nonce.before index <;> cases self.balance.before index <;>
    cases self.code.before index <;> rfl

/-- Without a write in front of the index the account stays. -/
theorem infoAt_of_not_isWrittenAt {self : AccountInfoBal} {index : Nat}
    (h : self.isWrittenAt index = false) (account : AccountInfo) :
    self.infoAt index account = account := by
  unfold isWrittenAt at h
  simp only [Bool.or_eq_false_iff, Option.isSome_eq_false_iff, Option.isNone_iff_eq_none] at h
  obtain ⟨⟨hnonce, hbalance⟩, hcode⟩ := h
  unfold infoAt
  rw [hnonce, hbalance, hcode]
  rfl

/-- At an index above all writes the account is what the last writes make of it. -/
theorem infoAt_of_below {self : AccountInfoBal} {index : Nat} (hbelow : self.Below index)
    (account : AccountInfo) : self.infoAt index account = self.final account := by
  unfold infoAt final
  rw [before_of_below hbelow.nonce, before_of_below hbelow.balance,
    before_of_below hbelow.code]

end AccountInfoBal

/-- The indices of each slot increase. -/
def StorageBal.Increasing : Prop :=
  ∀ key writes, self.storage.lookup key = some writes → writes.Increasing

/-- All indices are smaller than `index`. -/
def StorageBal.Below (index : Nat) : Prop :=
  ∀ key writes, self.storage.lookup key = some writes → writes.Below index

/-- The last value of a slot. -/
def StorageBal.last : Option StorageValue :=
  (self.storage.lookup key).bind (·.last)

/-- The last value of a slot in front of an index. -/
def StorageBal.before (index : Nat) : Option StorageValue :=
  (self.storage.lookup key).bind (·.before index)

theorem StorageBal.get_eq_before {self : StorageBal} (hinc : self.Increasing) (key : StorageKey)
    (index : Nat) : self.get key index = .ok (self.before key index) := by
  unfold get before
  cases hlookup : self.storage.lookup key with
  | none => rfl
  | some writes =>
    exact congrArg Except.ok (BalWrites.get_eq_before (hinc key writes hlookup) index)

theorem StorageBal.before_of_below {self : StorageBal} {index : Nat} (hbelow : self.Below index)
    (key : StorageKey) : self.before key index = self.last key := by
  unfold before last
  cases hlookup : self.storage.lookup key with
  | none => rfl
  | some writes => exact BalWrites.before_of_below (hbelow key writes hlookup)

/-- The indices of each item of the list increase. -/
def Bal.Increasing (self : Bal) : Prop :=
  ∀ address account, self.accounts.lookup address = some account →
    account.accountInfo.Increasing ∧ account.storage.Increasing

/-- All indices are smaller than `index`. -/
def Bal.Below (self : Bal) (index : Nat) : Prop :=
  ∀ address account, self.accounts.lookup address = some account →
    account.accountInfo.Below index ∧ account.storage.Below index

end Revm
