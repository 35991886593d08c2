import Revm.Bal.Commit

/-!
# The providers after a block

The commits of both providers do not panic and do to their views what `ProviderView.commit` says
(`MdbxTables.commitBalChanges_refines`, `RocksDbTables.commitBalChanges_refines`). With what is
known of the view, both providers come to answer as a `BalDatabase` over the old provider at an
index above every write, and with them the state that the commit answers
(`commitBalChanges_postBlock`).

Three things are excluded (`commitBalChanges_exceptions`). A code is compared as the code that the
account has, since a provider answers no code for an account without code where a `BalDatabase` may
answer the empty code. The codes have to fit together. And `mdbx` deletes an account that becomes
empty only if its record names a code hash, since the commit gives the delete a record with a code
hash.
-/

set_option autoImplicit false

namespace Revm

open HashMap Option Function ProviderView BalDatabase

variable {R : Type} {reth : RethBytecode R} {address : Address} {prev : Option AccountInfo}
variable {self : AccountTables R} {code : Bytecode} {acct : RethAccount} {acctBal : AccountBal}
  {changes : RocksDbChanges R} {v : ProviderView} {hash : B256}

namespace AccountTables

/-- A code that was converted is read back. -/
theorem readCode_insert (hreth : reth.SameBytes) (hdecodable : code.Decodable) {r : R}
    (hr : toReth reth code.analyzed = some r) (codeHash hash : B256) :
    readCode reth { self with codes := self.codes.insert codeHash r } hash =
      if hash = codeHash then some code else self.readCode reth hash := by
  unfold readCode
  rw [lookup_insert_ite]
  split_ifs
  · obtain ⟨r', hr', hback⟩ := hdecodable.ofReth_toReth hreth
    obtain rfl : r = r' := some.inj (hr.symm.trans hr')
    rw [bind_some, hback, map_some, Bytecode.toBytecode_analyzed]
  · rfl

/-- A record with a code hash is the record of the account that is read. -/
theorem ofInfo_of_basicRef (hprev : self.basicRef reth address = .ok prev)
    (hacct : self.accounts.lookup address = some acct) (hhash : acct.bytecodeHash ≠ none) :
    RethAccount.ofInfo (prev.getD .default) = acct := by
  obtain ⟨nonce, balance, bytecodeHash⟩ := acct
  cases bytecodeHash with
  | none => exact absurd rfl hhash
  | some hash =>
    unfold basicRef at hprev
    rw [hacct] at hprev
    dsimp only at hprev
    split_ifs at hprev
    · split at hprev
      · cases hprev
      · rw [← Except.ok.inj hprev]
        rfl
    · rw [← Except.ok.inj hprev]
      rfl

end AccountTables

/-- A provider, with the state of its last commit, shows a view. -/
structure ProviderView.ShownBy (v : ProviderView) (db : Database ProviderFault)
    (latest : PreBlockState) : Prop where
  basic : ∀ address, db.basic address = v.basicRef address
  storage : ∀ address key, db.storage address key = .ok (v.storage address key)
  latest : ∀ address, latest.accounts.lookup address = v.latest address

/-! ## `mdbx` -/

variable {latest : PreBlockState}

namespace MdbxTables

variable {old : MdbxTables R}

/-- What the provider shows. -/
def view (reth : RethBytecode R) (self : MdbxTables R) (latest : PreBlockState) : ProviderView where
  account address := self.accounts.lookup address
  code hash := self.readCode reth hash
  storage := self.storageRef
  latest address := latest.accounts.lookup address

theorem shownBy (self : MdbxTables R) (h : self.view reth latest = v) :
    v.ShownBy (self.latestProvider reth) latest :=
  h ▸ ⟨fun _ => rfl, fun _ _ => rfl, fun _ => rfl⟩

theorem storageRef_putStorage (self : MdbxTables R) (address address' : Address)
    (slot : StorageKey × StorageValue) (key : StorageKey) :
    (self.putStorage address slot).storageRef address' key =
      if address' = address ∧ key = slot.1 then slot.2 else self.storageRef address' key := by
  have hslots : (self.putStorage address slot).slots address' =
      if address' = address then ((self.slots address).clear slot.1.toNat).put ⟨slot.1, slot.2⟩
      else self.slots address' := by
    unfold slots putStorage
    rw [lookup_insert_ite]
    split_ifs <;> rfl
  unfold storageRef
  rw [hslots]
  by_cases haddress : address' = address
  · subst haddress
    rw [if_pos rfl]
    have hget := (self.slots address').get_put_clear ⟨slot.1, slot.2⟩ key.toNat
    rw [show storageOrder.subkey ⟨slot.1, slot.2⟩ = slot.1.toNat from rfl] at hget
    rw [hget]
    by_cases hkey : key = slot.1
    · rw [if_pos (congrArg _ hkey), if_pos ⟨rfl, hkey⟩]
      rfl
    · rw [if_neg (mt BitVec.eq_of_toNat_eq hkey), if_neg (fun h => hkey h.2)]
  · rw [if_neg haddress, if_neg (fun h => haddress h.1)]

/-- The slots of one account are written, and nothing else. -/
theorem putStorages_spec (self : MdbxTables R) (address : Address) (storage : StorageBal) :
    let tables := storage.written.foldl (fun tables slot => tables.putStorage address slot) self
    tables.toAccountTables = self.toAccountTables ∧
      tables.storageRef = Function.update self.storageRef address fun key =>
        (storage.last key).getD (self.storageRef address key) := by
  constructor
  · generalize storage.written = slots
    induction slots generalizing self with
    | nil => rfl
    | cons slot slots ih => exact ih (self.putStorage address slot)
  · funext address' key
    have h := foldl_filterMap_obs (fun entry : Sigma fun _ : StorageKey => BalWrites StorageValue =>
        entry.2.last.map fun value => (entry.1, value))
      (fun tables slot => putStorage tables address slot)
      (fun k tables => storageRef tables address' k)
      (fun _ writes value => if address' = address then writes.last.getD value else value)
      (fun tables k writes => by
        cases writes.last with
        | none => simp
        | some value =>
          show (putStorage tables address (k, value)).storageRef address' k = _
          rw [storageRef_putStorage]
          simp)
      (fun tables k writes k' hne => by
        cases writes.last with
        | none => rfl
        | some value =>
          show (putStorage tables address (k, value)).storageRef address' k' = _
          rw [storageRef_putStorage, if_neg (fun h => hne h.2)])
      storage.storage self key
    refine h.trans ?_
    unfold StorageBal.last
    by_cases haddress : address' = address
    · subst haddress
      rw [update_self]
      cases storage.storage.lookup key with
      | none => rfl
      | some writes => exact if_pos rfl
    · rw [update_of_ne haddress]
      cases storage.storage.lookup key with
      | none => rfl
      | some writes => exact if_neg haddress

/-- The delete that the commit makes removes the record. -/
theorem lookup_deleteAccount {self : MdbxTables R} (hprev : old.basicRef reth address = .ok prev)
    (hfresh : self.accounts.lookup address = old.accounts.lookup address)
    (hhash : ∀ acct, old.accounts.lookup address = some acct → acct.bytecodeHash ≠ none)
    (address' : Address) :
    (self.deleteAccount address (.ofInfo (prev.getD .default))).accounts.lookup address' =
      Function.update (fun a => self.accounts.lookup a) address none address' := by
  unfold deleteAccount
  cases hacct : old.accounts.lookup address with
  | none =>
    rw [hfresh, hacct, if_neg (by simp)]
    by_cases heq : address' = address
    · subst heq
      rw [update_self, hfresh, hacct]
    · rw [update_of_ne heq]
  | some acct =>
    rw [AccountTables.ofInfo_of_basicRef hprev hacct (hhash acct hacct),
      if_pos (hfresh.trans hacct)]
    rw [lookup_erase_ite]
    split_ifs with heq
    · rw [heq, update_self]
    · rw [update_of_ne heq]

/-- The record is put or deleted. -/
theorem setAccount_spec (self : MdbxTables R) (hprev : old.basicRef reth address = .ok prev)
    (hfresh : self.accounts.lookup address = old.accounts.lookup address) (info : AccountInfo)
    (hhash : info.isEmpty = true →
      ∀ acct, old.accounts.lookup address = some acct → acct.bytecodeHash ≠ none) :
    let tables := self.setAccount address (prev.getD .default) info
    tables.codes = self.codes ∧ tables.storages = self.storages ∧
      ∀ address', tables.accounts.lookup address' =
        Function.update (fun a => self.accounts.lookup a) address
          (if info.isEmpty then none else some (.ofInfo info)) address' := by
  unfold setAccount
  split_ifs with hempty
  · refine ⟨?_, ?_, lookup_deleteAccount hprev hfresh (hhash hempty)⟩
    · unfold deleteAccount
      split_ifs <;> rfl
    · unfold deleteAccount
      split_ifs <;> rfl
  · refine ⟨rfl, rfl, fun address' => ?_⟩
    unfold putAccount
    rw [lookup_insert_ite]
    split_ifs with heq
    · rw [heq, update_self]
    · rw [update_of_ne heq]

/-- The last code is converted and put. -/
theorem putLastCode_spec (hreth : reth.SameBytes) (self : MdbxTables R)
    (hcode : ∀ hash code, acctBal.accountInfo.code.last = some (hash, code) → code.Decodable) :
    ∃ tables, self.putLastCode reth acctBal = some tables ∧ tables.accounts = self.accounts ∧
      tables.storages = self.storages ∧ ∀ hash, tables.readCode reth hash =
        match acctBal.accountInfo.code.last with
        | none => self.readCode reth hash
        | some write => if hash = write.1 then some write.2 else self.readCode reth hash := by
  unfold putLastCode
  cases hlast : acctBal.accountInfo.code.last with
  | none => exact ⟨self, rfl, rfl, rfl, fun _ => rfl⟩
  | some write =>
    obtain ⟨r, hr, -⟩ := (hcode write.1 write.2 hlast).ofReth_toReth hreth
    refine ⟨self.putCode write.1 r, ?_, rfl, rfl, fun hash => ?_⟩
    · dsimp only
      rw [hr]
      rfl
    · exact AccountTables.readCode_insert hreth (hcode write.1 write.2 hlast) hr write.1 hash

/-- One account of the list. -/
theorem commitAccount_simulates (hreth : reth.SameBytes)
    (hprev : old.basicRef reth address = .ok prev)
    (hcode : ∀ hash code, acctBal.accountInfo.code.last = some (hash, code) → code.Decodable)
    (hhash : (acctBal.latestInfo (prev.getD .default)).isEmpty = true →
      ∀ acct, old.accounts.lookup address = some acct → acct.bytecodeHash ≠ none)
    (latest : PreBlockState) {state : MdbxTables R × PreBlockState}
    (hfresh : state.1.accounts.lookup address = old.accounts.lookup address) :
    ∃ state', commitAccount reth old state address acctBal = some state' ∧
      state'.1.view reth state'.2 =
        (old.view reth latest).commitAccount (state.1.view reth state.2) address acctBal := by
  have hinfo : (old.view reth latest).prevInfo address = prev.getD .default :=
    prevInfo_eq hprev
  obtain ⟨tables, htables, haccounts, hstorage, hread⟩ := state.1.putLastCode_spec hreth hcode
  unfold commitAccount
  rw [hprev]
  dsimp only
  rw [htables, map_some]
  refine ⟨_, rfl, ?_⟩
  obtain ⟨hcodes, hstorages, hlookup⟩ :=
    setAccount_spec tables hprev (haccounts ▸ hfresh)
      (acctBal.latestInfo (prev.getD .default)) hhash
  revert hcodes hstorages hlookup
  generalize tables.setAccount address _ _ = tables'
  intro hcodes hstorages hlookup
  obtain ⟨htables', hslots⟩ := tables'.putStorages_spec address acctBal.storage
  have hstorage' : tables'.storageRef = state.1.storageRef := by
    unfold storageRef slots
    rw [hstorages, hstorage]
  unfold ProviderView.commitAccount
  rw [hinfo]
  unfold view
  rw [hslots, hstorage']
  congr 1
  · funext address'
    rw [congrArg AccountTables.accounts htables', hlookup address', haccounts]
  · funext hash
    have hsame : tables'.readCode reth hash = tables.readCode reth hash := by
      unfold AccountTables.readCode
      rw [hcodes]
    rw [htables']
    exact hsame.trans (hread hash)
  · funext address'
    rw [lookup_insert_ite]
    split_ifs with heq
    · rw [heq, update_self]
    · rw [update_of_ne heq]

/-- The commit does not panic, and does what is meant to the view. -/
theorem commitBalChanges_refines (hreth : reth.SameBytes) (self : MdbxTables R) (bal : Bal)
    (hok : ∀ address, ∃ prev, self.basicRef reth address = .ok prev)
    (hdecodable : ∀ hash code, bal.WritesCode hash code → code.Decodable)
    (hhash : ∀ address acctBal prev acct, bal.accounts.lookup address = some acctBal →
      self.basicRef reth address = .ok prev →
      (acctBal.latestInfo (prev.getD .default)).isEmpty = true →
      self.accounts.lookup address = some acct → acct.bytecodeHash ≠ none) :
    ∃ tables latest, self.commitBalChanges reth bal = some (tables, latest) ∧
      ((self.view reth ⟨∅⟩).commit bal).ShownBy (tables.latestProvider reth) latest := by
  obtain ⟨state, hrun, hview⟩ := foldlM_simulates (self.commitAccount reth)
    (self.view reth ⟨∅⟩).commitAccount (fun state v => state.1.view reth state.2 = v)
    (fun address state => state.1.accounts.lookup address = self.accounts.lookup address)
      bal.accounts
    (fun state v address acctBal hlookup hview hfresh => by
      obtain ⟨prev, hprev⟩ := hok address
      obtain ⟨state', hstep, hview'⟩ := commitAccount_simulates hreth hprev
        (fun hash code hlast => hdecodable hash code (writesCode_of_last hlookup hlast))
        (fun hempty acct => hhash address acctBal prev acct hlookup hprev hempty) ⟨∅⟩ hfresh
      subst hview
      refine ⟨state', hstep, hview', fun address' hne hfresh' => ?_⟩
      have haccount := congrFun (congrArg account hview') address'
      exact (haccount.trans (update_of_ne hne _ _)).trans hfresh')
    (self, ⟨∅⟩) (self.view reth ⟨∅⟩) rfl fun _ _ _ => rfl
  exact ⟨state.1, state.2, hrun, state.1.shownBy hview⟩

end MdbxTables

/-! ## RocksDB -/

/-- Collecting an account leaves the other batches alone. -/
theorem RocksDbChanges.insertAccount_keeps (self : RocksDbChanges R) (address : Address)
    (info : AccountInfo) : (self.insertAccount address info).codes = self.codes ∧
      (self.insertAccount address info).storages = self.storages ∧
      (self.insertAccount address info).latestState = self.latestState := by
  unfold insertAccount
  split_ifs <;> exact ⟨rfl, rfl, rfl⟩

namespace RocksDbTables

/-- What the provider shows. -/
def view (reth : RethBytecode R) (self : RocksDbTables R) (latest : PreBlockState) :
    ProviderView where
  account address := self.accounts.lookup address
  code hash := self.readCode reth hash
  storage := self.storageRef
  latest address := latest.accounts.lookup address

theorem shownBy (self : RocksDbTables R) (h : self.view reth latest = v) :
    v.ShownBy (self.latestProvider reth) latest :=
  h ▸ ⟨fun _ => rfl, fun _ _ => rfl, fun _ => rfl⟩

/-- What the provider shows once the changes are applied. -/
def changedView (reth : RethBytecode R) (self : RocksDbTables R) (changes : RocksDbChanges R) :
    ProviderView :=
  (self.apply changes).view reth changes.latestState

theorem lookup_eraseAll (accounts : HashMap Address RethAccount) (addresses : List Address)
    (address : Address) :
    (addresses.foldl (fun accounts a => accounts.erase a) accounts).lookup address =
      if address ∈ addresses then none else accounts.lookup address := by
  induction addresses generalizing accounts with
  | nil => rfl
  | cons a rest ih =>
    rw [List.foldl_cons, ih, lookup_erase_ite]
    by_cases hmem : address ∈ rest
    · rw [if_pos hmem, if_pos (List.mem_cons_of_mem a hmem)]
    · rw [if_neg hmem]
      by_cases heq : address = a
      · rw [if_pos heq, if_pos (heq ▸ List.mem_cons_self)]
      · rw [if_neg heq, if_neg (by simp [heq, hmem])]

theorem lookup_accounts_apply (self : RocksDbTables R) (changes : RocksDbChanges R)
    (address : Address) :
    (self.apply changes).accounts.lookup address = (changes.accounts.lookup address).or
      (if address ∈ changes.accountsToDelete then none else self.accounts.lookup address) := by
  unfold apply
  rw [lookup_union, lookup_eraseAll]

/-- The slots of one account are written, and nothing else. -/
theorem lookup_setStorages (storages : HashMap (Address × StorageKey) StorageValue)
    (address address' : Address) (storage : StorageBal) (key : StorageKey) :
    ((storage.written.map fun slot => (address, slot)).foldl
        (fun storages slot => storages.insert (slot.1, slot.2.1) slot.2.2) storages).lookup
        (address', key) =
      if address' = address then (storage.last key).or (storages.lookup (address', key))
      else storages.lookup (address', key) := by
  have h := foldl_filterMap_obs (fun entry : Sigma fun _ : StorageKey => BalWrites StorageValue =>
      entry.2.last.map fun value => (entry.1, value))
    (fun (storages : HashMap (Address × StorageKey) StorageValue) slot =>
      storages.insert (address, slot.1) slot.2)
    (fun k storages => storages.lookup (address', k))
    (fun _ writes value => if address' = address then writes.last.or value else value)
    (fun storages k writes => by
      cases writes.last with
      | none => simp
      | some value =>
        show (storages.insert (address, k) value).lookup (address', k) = _
        rw [lookup_insert_ite]
        simp)
    (fun storages k writes k' hne => by
      cases writes.last with
      | none => rfl
      | some value =>
        show (storages.insert (address, k) value).lookup (address', k') = _
        rw [lookup_insert_ite, if_neg (fun h => hne (Prod.mk.inj h).2)])
    storage.storage storages key
  rw [List.foldl_map]
  refine h.trans ?_
  unfold StorageBal.last
  cases storage.storage.lookup key with
  | none => simp
  | some writes => rfl

/-- The last code is converted and collected. -/
theorem insertLastCode_spec (hreth : reth.SameBytes) (self : RocksDbTables R)
    (changes : RocksDbChanges R)
    (hcode : ∀ hash code, acctBal.accountInfo.code.last = some (hash, code) → code.Decodable) :
    ∃ changes', changes.insertLastCode reth acctBal = some changes' ∧
      changes'.accounts = changes.accounts ∧
      changes'.accountsToDelete = changes.accountsToDelete ∧
      changes'.storages = changes.storages ∧ changes'.latestState = changes.latestState ∧
      ∀ hash, (self.apply changes').readCode reth hash =
        match acctBal.accountInfo.code.last with
        | none => (self.apply changes).readCode reth hash
        | some write =>
            if hash = write.1 then some write.2 else (self.apply changes).readCode reth hash := by
  unfold RocksDbChanges.insertLastCode
  cases hlast : acctBal.accountInfo.code.last with
  | none => exact ⟨changes, rfl, rfl, rfl, rfl, rfl, fun _ => rfl⟩
  | some write =>
    obtain ⟨r, hr, -⟩ := (hcode write.1 write.2 hlast).ofReth_toReth hreth
    refine ⟨changes.insertCode write.1 r, ?_, rfl, rfl, rfl, rfl, fun hash => ?_⟩
    · dsimp only
      rw [hr]
      rfl
    · -- the batch is laid over the table, and the new code over both
      refine Eq.trans ?_
        (AccountTables.readCode_insert hreth (hcode write.1 write.2 hlast) hr write.1 hash)
      unfold AccountTables.readCode apply RocksDbChanges.insertCode
      rw [lookup_union, lookup_insert_ite, lookup_insert_ite, lookup_union]
      split_ifs <;> rfl

/-- The account is collected. -/
theorem lookup_accounts_apply_insertAccount (self : RocksDbTables R)
    (hfresh : changes.accounts.lookup address = none) (info : AccountInfo) (address' : Address) :
    (self.apply (changes.insertAccount address info)).accounts.lookup address' =
      Function.update (fun a => (self.apply changes).accounts.lookup a) address
        (if info.isEmpty then none else some (.ofInfo info)) address' := by
  rw [lookup_accounts_apply]
  unfold RocksDbChanges.insertAccount
  by_cases heq : address' = address
  · subst heq
    cases info.isEmpty with
    | true => simp [hfresh]
    | false => simp
  · rw [update_of_ne heq, lookup_accounts_apply]
    cases info.isEmpty with
    | true => simp [heq]
    | false => simp [heq]

/-- One account of the list. -/
theorem commitAccount_simulates (hreth : reth.SameBytes) {old : RocksDbTables R}
    (hprev : old.basicRef reth address = .ok prev)
    (hcode : ∀ hash code, acctBal.accountInfo.code.last = some (hash, code) → code.Decodable)
    (latest : PreBlockState) (hfresh : changes.accounts.lookup address = none) :
    ∃ changes', commitAccount reth old changes address acctBal = some changes' ∧
      old.changedView reth changes' =
        (old.view reth latest).commitAccount (old.changedView reth changes) address acctBal ∧
      ∀ address', address' ≠ address → changes.accounts.lookup address' = none →
        changes'.accounts.lookup address' = none := by
  have hinfo : (old.view reth latest).prevInfo address = prev.getD .default :=
    prevInfo_eq hprev
  obtain ⟨changes₁, hchanges₁, haccounts, hdelete, hstorages, hlatest, hread⟩ :=
    insertLastCode_spec hreth old changes hcode
  have hkeep := changes₁.insertAccount_keeps address (acctBal.latestInfo (prev.getD .default))
  unfold commitAccount
  rw [hprev]
  dsimp only
  rw [hchanges₁, map_some]
  refine ⟨_, rfl, ?_, fun address' hne hfresh' => ?_⟩
  · unfold ProviderView.commitAccount
    rw [hinfo]
    unfold changedView view
    congr 1
    · funext address'
      refine (lookup_accounts_apply_insertAccount old (haccounts ▸ hfresh) _ address').trans ?_
      congr 1
      funext a
      dsimp only
      rw [lookup_accounts_apply, lookup_accounts_apply, haccounts, hdelete]
    · funext hash
      refine Eq.trans ?_ (hread hash)
      unfold AccountTables.readCode apply
      rw [hkeep.1]
    · funext address' key
      unfold storageRef apply
      rw [hkeep.2.1, hstorages, List.foldl_append, lookup_setStorages]
      by_cases heq : address' = address
      · subst heq
        rw [if_pos rfl, update_self]
        cases acctBal.storage.last key <;> rfl
      · rw [if_neg heq, update_of_ne heq]
    · funext address'
      rw [lookup_insert_ite, hkeep.2.2, hlatest]
      split_ifs with heq
      · rw [heq, update_self]
      · rw [update_of_ne heq]
  · show (changes₁.insertAccount address _).accounts.lookup address' = none
    unfold RocksDbChanges.insertAccount
    split_ifs
    · rw [haccounts]
      exact hfresh'
    · dsimp only
      rw [lookup_insert_ite, if_neg hne, haccounts]
      exact hfresh'

/-- The commit does not panic, and does what is meant to the view. -/
theorem commitBalChanges_refines (hreth : reth.SameBytes) (self : RocksDbTables R) (bal : Bal)
    (hok : ∀ address, ∃ prev, self.basicRef reth address = .ok prev)
    (hdecodable : ∀ hash code, bal.WritesCode hash code → code.Decodable) :
    ∃ tables latest, self.commitBalChanges reth bal = some (tables, latest) ∧
      ((self.view reth ⟨∅⟩).commit bal).ShownBy (tables.latestProvider reth) latest := by
  have hstart : self.changedView reth .empty = self.view reth ⟨∅⟩ := rfl
  obtain ⟨changes, hrun, hview⟩ := foldlM_simulates (self.commitAccount reth)
    (self.view reth ⟨∅⟩).commitAccount (fun changes v => self.changedView reth changes = v)
    (fun address changes => changes.accounts.lookup address = none) bal.accounts
    (fun changes v address acctBal hlookup hview hfresh => by
      obtain ⟨prev, hprev⟩ := hok address
      obtain ⟨changes', hstep, hview', hkeep⟩ := commitAccount_simulates hreth hprev
        (fun hash code hlast => hdecodable hash code (writesCode_of_last hlookup hlast)) ⟨∅⟩ hfresh
      subst hview
      exact ⟨changes', hstep, hview', hkeep⟩)
    .empty (self.view reth ⟨∅⟩) hstart fun _ _ _ => rfl
  refine ⟨self.apply changes, changes.latestState, ?_, shownBy _ hview⟩
  unfold commitBalChanges
  rw [hrun]
  rfl

end RocksDbTables

/-! ## After the block -/

/-- The new provider answers as a `BalDatabase` over the old one, and so does the state `latest` for
the accounts of the list and the slots that it writes. -/
structure PostBlock (old new : Database ProviderFault) (bal : Bal) (index : Nat)
    (latest : PreBlockState) : Prop where
  basic : ∀ address, ∃ info expected, new.basic address = .ok info ∧
    basic ⟨some bal, none, index, old⟩ address = .ok expected ∧
    seenAccount info = seenAccount expected
  storage : ∀ address key, ∃ value, new.storage address key = .ok value ∧
    storage ⟨some bal, none, index, old⟩ address key = .ok value
  latestInfo : ∀ address acctBal, bal.accounts.lookup address = some acctBal →
    ∃ acct info, latest.accounts.lookup address = some acct ∧ new.basic address = .ok info ∧
      seenAccount acct.info = seenAccount info
  latestStorage : ∀ address acctBal key writes, bal.accounts.lookup address = some acctBal →
    acctBal.storage.storage.lookup key = some writes → writes.writes ≠ [] →
    ∃ acct value, latest.accounts.lookup address = some acct ∧
      acct.storage.lookup key = some value ∧ new.storage address key = .ok value

/-- Two providers show the same accounts and the same slots. -/
structure SameAnswers (x y : Database ProviderFault) : Prop where
  basic : ∀ address, ∃ info info', x.basic address = .ok info ∧ y.basic address = .ok info' ∧
    seenAccount info = seenAccount info'
  storage : ∀ address key, x.storage address key = y.storage address key

theorem ProviderView.ShownBy.storage_final {new : Database ProviderFault} {bal : Bal}
    (h : (v.commit bal).ShownBy new latest) (address : Address) (key : StorageKey) :
    new.storage address key = .ok (bal.finalStorage address key (v.storage address key)) := by
  rw [h.storage, storage_commit]

/-- A provider whose view is the committed one is the provider after the block. -/
theorem postBlock_of_view {old new : Database ProviderFault} {bal : Bal} {index : Nat}
    (fits : v.Fits bal) (hinc : bal.Increasing) (hbelow : bal.Below index)
    (hold : v.ShownBy old ⟨∅⟩) (hnew : (v.commit bal).ShownBy new latest) :
    PostBlock old new bal index latest := by
  have hstorage := hnew.storage_final
  refine ⟨fun address => ?_, fun address key => ?_, fun address acctBal hlookup => ?_,
    fun address acctBal key writes hlookup hwrites hne => ?_⟩
  · obtain ⟨prev, hprev⟩ := fits.basicRef_ok address
    obtain ⟨info, hinfo, hseen⟩ := fits.basicRef_commit hinc hprev
    refine ⟨info, _, (hnew.basic address).trans hinfo,
      basic_of_below hinc hbelow ((hold.basic address).trans hprev), ?_⟩
    rw [hseen, seenAccount_nonEmpty]
  · exact ⟨_, hstorage address key,
      storage_of_below hinc hbelow (hold.storage address key)⟩
  · obtain ⟨prev, hprev⟩ := fits.basicRef_ok address
    obtain ⟨info, hinfo, hseen⟩ := fits.basicRef_commit hinc hprev
    have hlatestSeen := latest_commit_seen hinc hprev hlookup
    exact ⟨_, info, (hnew.latest address).trans (latest_commit_of_some hlookup),
      (hnew.basic address).trans hinfo, hlatestSeen.trans hseen.symm⟩
  · obtain ⟨value, hvalue⟩ : ∃ value, acctBal.storage.last key = some value := by
      unfold StorageBal.last
      rw [hwrites, bind_some]
      exact ne_none_iff_exists'.1 (mt BalWrites.last_eq_none_iff.1 hne)
    refine ⟨_, value, (hnew.latest address).trans (latest_commit_of_some hlookup),
      (acctBal.storage.lookup_latestStorage key).trans hvalue, ?_⟩
    rw [hstorage, Bal.finalStorage, hlookup, bind_some, hvalue]
    rfl

/-- After the commit both providers are at the state after the block, and two providers that
answered the same still do. -/
theorem commitBalChanges_postBlock (hreth : reth.SameBytes) (mdbx : MdbxTables R)
    (rocks : RocksDbTables R) (bal : Bal) (index : Nat) (hinc : bal.Increasing)
    (hbelow : bal.Below index) (hdecodable : ∀ hash code, bal.WritesCode hash code → code.Decodable)
    (hmdbx : (mdbx.view reth ⟨∅⟩).Fits bal) (hrocks : (rocks.view reth ⟨∅⟩).Fits bal)
    (hhash : ∀ address acctBal prev acct, bal.accounts.lookup address = some acctBal →
      mdbx.basicRef reth address = .ok prev → mdbx.accounts.lookup address = some acct →
      nonEmpty (bal.finalInfo address prev) = none → acct.bytecodeHash ≠ none) :
    ∃ mdbx' latest rocks' latest',
      mdbx.commitBalChanges reth bal = some (mdbx', latest) ∧
      rocks.commitBalChanges reth bal = some (rocks', latest') ∧
      PostBlock (mdbx.latestProvider reth) (mdbx'.latestProvider reth) bal index latest ∧
      PostBlock (rocks.latestProvider reth) (rocks'.latestProvider reth) bal index latest' ∧
      ((∀ address, mdbx.basicRef reth address = rocks.basicRef reth address) →
        (∀ address key, mdbx.storageRef address key = rocks.storageRef address key) →
        SameAnswers (mdbx'.latestProvider reth) (rocks'.latestProvider reth)) := by
  obtain ⟨mdbx', latest, hrun, hview⟩ := mdbx.commitBalChanges_refines hreth bal hmdbx.basicRef_ok
    hdecodable fun address acctBal prev acct hlookup hprev hempty hacct =>
      hhash address acctBal prev acct hlookup hprev hacct (by
        rw [AccountBal.latestInfo_eq (hinc address acctBal hlookup).1] at hempty
        unfold Bal.finalInfo
        rw [hlookup]
        exact nonEmpty_some_of_isEmpty hempty)
  obtain ⟨rocks', latest', hrun', hview'⟩ :=
    rocks.commitBalChanges_refines hreth bal hrocks.basicRef_ok hdecodable
  have hpost : PostBlock (mdbx.latestProvider reth) (mdbx'.latestProvider reth) bal index latest :=
    postBlock_of_view hmdbx hinc hbelow (mdbx.shownBy rfl) hview
  have hpost' : PostBlock (rocks.latestProvider reth)
      (rocks'.latestProvider reth) bal index latest' :=
    postBlock_of_view hrocks hinc hbelow (rocks.shownBy rfl) hview'
  refine ⟨mdbx', latest, rocks', latest', hrun, hrun', hpost, hpost', fun hbasic hstorage => ?_⟩
  -- the two databases under the list answer the same
  refine ⟨fun address => ?_, fun address key => ?_⟩
  · obtain ⟨info, expected, hinfo, hexpected, hseen⟩ := hpost.basic address
    obtain ⟨info', expected', hinfo', hexpected', hseen'⟩ := hpost'.basic address
    refine ⟨info, info', hinfo, hinfo', ?_⟩
    have hsame : expected = expected' := by
      unfold basic at hexpected hexpected'
      rw [show (mdbx.latestProvider reth).basic address = (rocks.latestProvider reth).basic address
        from hbasic address] at hexpected
      exact Except.ok.inj (hexpected.symm.trans hexpected')
    rw [hseen, hseen', hsame]
  · obtain ⟨value, hvalue, hexpected⟩ := hpost.storage address key
    obtain ⟨value', hvalue', hexpected'⟩ := hpost'.storage address key
    have hsame : value = value' := by
      unfold BalDatabase.storage at hexpected hexpected'
      rw [show (mdbx.latestProvider reth).storage address key =
        (rocks.latestProvider reth).storage address key from congrArg _ (hstorage address key)]
        at hexpected
      exact Except.ok.inj (hexpected.symm.trans hexpected')
    rw [hvalue, hvalue', hsame]

/-! ## A block -/

namespace PostBlockExample

/-- The codes of `reth` are byte strings that the decoder accepts. -/
def byteReth : RethBytecode (List UInt8) where
  newRawChecked bytes := if (newRawChecked bytes).toBool then some bytes else none
  originalBytes bytes := bytes

theorem byteReth_sameBytes : byteReth.SameBytes where
  accepts bytes := by
    unfold byteReth
    dsimp only
    cases newRawChecked bytes with
    | error e => exact ⟨fun h => (nomatch h), fun ⟨_, h⟩ => (nomatch h)⟩
    | ok code => exact ⟨fun _ => ⟨code, rfl⟩, fun _ => rfl⟩
  original bytes r h := by
    unfold byteReth at h
    dsimp only at h
    split_ifs at h
    exact (some.inj h).symm

/-- A transaction pays the account `1` and gives it a code, and two transactions write its slot
`1`. -/
def bal : Bal :=
  ⟨(∅ : HashMap Address AccountBal).insert 1
    ⟨⟨.default, ⟨[(1, 9)]⟩, ⟨[(1, (6, .legacyAnalyzed [1]))]⟩⟩,
      ⟨(∅ : HashMap StorageKey (BalWrites StorageValue)).insert 1 ⟨[(0, 11), (2, 12)]⟩⟩⟩⟩

/-- The account `2` has a code. -/
def tables : AccountTables (List UInt8) :=
  ⟨(∅ : HashMap Address RethAccount).insert 2 ⟨1, 7, some 5⟩,
    (∅ : HashMap B256 (List UInt8)).insert 5 [0]⟩

theorem lookup_bal (h : bal.accounts.lookup address = some acctBal) :
    acctBal = ⟨⟨.default, ⟨[(1, 9)]⟩, ⟨[(1, (6, .legacyAnalyzed [1]))]⟩⟩,
      ⟨(∅ : HashMap StorageKey (BalWrites StorageValue)).insert 1 ⟨[(0, 11), (2, 12)]⟩⟩⟩ :=
  (lookup_singleton h).2

theorem writesCode_bal (h : bal.WritesCode hash code) : hash = 6 ∧ code = .legacyAnalyzed [1] := by
  obtain ⟨address, acctBal, index, hlookup, hmem⟩ := h
  rw [lookup_bal hlookup] at hmem
  have heq := List.mem_singleton.1 hmem
  simp only [Prod.mk.injEq] at heq
  exact heq.2

theorem decodable_bal (h : bal.WritesCode hash code) : code.Decodable := by
  rw [(writesCode_bal h).2]
  exact Bytecode.decodable_of_head (by decide)

theorem bytecodeHash_tables
    (h : tables.accounts.lookup address = some acct) : acct.bytecodeHash ≠ none := by
  rw [(lookup_singleton h).2]
  exact some_ne_none _

theorem readCode_tables
    (h : tables.readCode byteReth hash = some code) : hash = 5 ∧ code = .legacyAnalyzed [0] := by
  obtain ⟨r, hr, h⟩ := bind_eq_some_iff.1 h
  obtain ⟨rfl, rfl⟩ := lookup_singleton hr
  have hread : (ofReth byteReth [0]).map (·.toBytecode) = some (.legacyAnalyzed [0]) := rfl
  exact ⟨rfl, (some.inj (hread.symm.trans h)).symm⟩

theorem fits (haccount : v.account = fun a => tables.accounts.lookup a)
    (hcode : v.code = tables.readCode byteReth) : v.Fits bal := by
  constructor
  · intro address acct hacct hhash
    rw [haccount] at hacct
    rw [(lookup_singleton hacct).2, hcode]
    exact ⟨.legacyAnalyzed [0], rfl⟩
  · -- the hashes `5`, `6` and the empty one stand for one code each
    intro hash code code' h h'
    unfold ProviderView.StandsFor at h h'
    rw [hcode] at h h'
    rcases h with ⟨rfl, rfl⟩ | ⟨-, h⟩ | h <;> rcases h' with ⟨hhash, rfl⟩ | ⟨-, h'⟩ | h'
    · rfl
    · exact absurd (readCode_tables h').1 (by decide)
    · exact absurd (writesCode_bal h').1 (by decide)
    · exact absurd ((readCode_tables h).1.symm.trans hhash) (by decide)
    · rw [(readCode_tables h).2, (readCode_tables h').2]
    · exact absurd ((readCode_tables h).1.symm.trans (writesCode_bal h').1) (by decide)
    · exact absurd ((writesCode_bal h).1.symm.trans hhash) (by decide)
    · exact absurd ((writesCode_bal h).1.symm.trans (readCode_tables h').1) (by decide)
    · rw [(writesCode_bal h).2, (writesCode_bal h').2]

theorem bal_increasing : bal.Increasing := by
  intro address acctBal hlookup
  rw [lookup_bal hlookup]
  refine ⟨⟨List.Pairwise.nil, List.pairwise_singleton _ _, List.pairwise_singleton _ _⟩, ?_⟩
  intro key writes hwrites
  rw [(lookup_singleton hwrites).2]
  show List.Pairwise (· < ·) [0, 2]
  decide

theorem bal_below : bal.Below 3 := by
  intro address acctBal hlookup
  rw [lookup_bal hlookup]
  refine ⟨⟨?_, ?_, ?_⟩, ?_⟩
  · exact BalWrites.below_default 3
  · intro write hwrite
    rw [List.mem_singleton.1 hwrite]
    decide
  · intro write hwrite
    rw [List.mem_singleton.1 hwrite]
    decide
  · intro key writes hwrites
    rw [(lookup_singleton hwrites).2]
    show ∀ write ∈ [(0, (11 : U256)), (2, 12)], write.1 < 3
    decide

/-- The first transaction sets the balance of the account `1`. -/
def balanceSet (balance : U256) : Bal :=
  ⟨(∅ : HashMap Address AccountBal).insert 1 ⟨⟨.default, ⟨[(0, balance)]⟩, .default⟩, .default⟩⟩

/-- The account `1` alone, without codes and slots. -/
def single (acct : RethAccount) : AccountTables (List UInt8) :=
  ⟨(∅ : HashMap Address RethAccount).insert 1 acct, ∅⟩

end PostBlockExample

open PostBlockExample in
/-- A new account is answered without a code by a provider and with the empty code by a
`BalDatabase`. An account without a code hash in its record that becomes empty stays in `mdbx`. A
provider that does not have the code of an account panics. -/
theorem commitBalChanges_exceptions :
    ((MdbxTables.commitBalChanges byteReth ⟨⟨∅, ∅⟩, ∅⟩ (balanceSet 9)).map
          (·.1.basicRef byteReth 1) = some (.ok (some ⟨9, 0, keccakEmpty, none, none⟩)) ∧
      (RocksDbTables.commitBalChanges byteReth ⟨⟨∅, ∅⟩, ∅⟩ (balanceSet 9)).map
          (·.1.basicRef byteReth 1) = some (.ok (some ⟨9, 0, keccakEmpty, none, none⟩)) ∧
      basic
          ⟨some (balanceSet 9), none, 1, MdbxTables.latestProvider byteReth ⟨⟨∅, ∅⟩, ∅⟩⟩ 1 =
        .ok (some ⟨9, 0, keccakEmpty, some 0, some .default⟩)) ∧
    ((MdbxTables.commitBalChanges byteReth ⟨single ⟨0, 7, none⟩, ∅⟩ (balanceSet 0)).map
          (·.1.basicRef byteReth 1) = some (.ok (some ⟨7, 0, keccakEmpty, none, none⟩)) ∧
      (RocksDbTables.commitBalChanges byteReth ⟨single ⟨0, 7, none⟩, ∅⟩ (balanceSet 0)).map
          (·.1.basicRef byteReth 1) = some (.ok none) ∧
      basic ⟨some (balanceSet 0), none, 1,
          MdbxTables.latestProvider byteReth ⟨single ⟨0, 7, none⟩, ∅⟩⟩ 1 = .ok none) ∧
    MdbxTables.commitBalChanges byteReth ⟨single ⟨0, 7, some 5⟩, ∅⟩ (balanceSet 9) = none ∧
    RocksDbTables.commitBalChanges byteReth ⟨single ⟨0, 7, some 5⟩, ∅⟩ (balanceSet 9) = none :=
  ⟨⟨rfl, rfl, rfl⟩, ⟨rfl, rfl, rfl⟩, rfl, rfl⟩

open PostBlockExample in
/-- A block that deploys a code over both providers. -/
theorem commitBalChanges_postBlock_deploy : ∃ mdbx' latest rocks' latest',
      MdbxTables.commitBalChanges byteReth ⟨tables, ∅⟩ bal = some (mdbx', latest) ∧
      RocksDbTables.commitBalChanges byteReth ⟨tables, ∅⟩ bal = some (rocks', latest') ∧
      PostBlock (MdbxTables.latestProvider byteReth ⟨tables, ∅⟩) (mdbx'.latestProvider byteReth)
        bal 3 latest ∧
      PostBlock (RocksDbTables.latestProvider byteReth ⟨tables, ∅⟩) (rocks'.latestProvider byteReth)
        bal 3 latest' ∧
      SameAnswers (mdbx'.latestProvider byteReth) (rocks'.latestProvider byteReth) := by
  obtain ⟨mdbx', latest, rocks', latest', hm, hr, hpost, hpost', hsame⟩ :=
    commitBalChanges_postBlock byteReth_sameBytes ⟨tables, ∅⟩
      ⟨tables, ∅⟩ bal 3 bal_increasing bal_below
      (fun _ _ => decodable_bal) (fits rfl rfl) (fits rfl rfl)
      (fun _ _ _ _ _ _ hacct _ => bytecodeHash_tables hacct)
  exact ⟨mdbx', latest, rocks', latest', hm, hr, hpost, hpost', hsame (fun _ => rfl) fun _ _ => rfl⟩

end Revm
