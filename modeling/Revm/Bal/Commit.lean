import Revm.Bal.Provider

/-!
# Committing a block access list

`ProviderView` is what a provider shows: the record of each account, the code behind each hash and
the value of each slot. `ProviderView.commit` is what `commit_bal_changes` is meant to do to it. The
commits of both providers do this, and afterwards the view answers what the block leaves
(`Fits.basicRef_commit`, `storage_commit`).

The codes have to fit together (`ProviderView.Fits`): the code of every account is in the table, and
no hash stands for two codes.
-/

set_option autoImplicit false

namespace Revm

open Option Function HashMap Or List BalWrites AccountInfoBal AList AccountInfo AccountBal

variable {info : AccountInfo} {prev : Option AccountInfo} {acctBal : AccountBal}

/-! ## Views -/

/-- What a provider shows, and the state that a commit answers. -/
structure ProviderView where
  account : Address → Option RethAccount
  code : B256 → Option Bytecode
  storage : Address → StorageKey → StorageValue
  latest : Address → Option MyPlainAccount

namespace ProviderView

/-- The account with its code. -/
def basicRef (v : ProviderView) (address : Address) : Except ProviderFault (Option AccountInfo) :=
  match v.account address with
  | none => .ok none
  | some acct =>
      if acct.getBytecodeHash ≠ keccakEmpty then
        match v.code acct.getBytecodeHash with
        | none => .error .panic
        | some code => .ok (some { acct.toInfo with code := some code })
      else .ok (some { acct.toInfo with code := none })

/-- The account before the block. A missing account is the default one. -/
def prevInfo (v : ProviderView) (address : Address) : AccountInfo :=
  match v.basicRef address with
  | .ok (some info) => info
  | _ => .default

/-- One account of the list. -/
def commitAccount (old v : ProviderView) (address : Address) (acctBal : AccountBal) :
    ProviderView where
  account := update v.account address
    (if (acctBal.latestInfo (old.prevInfo address)).isEmpty then none
    else some (.ofInfo (acctBal.latestInfo (old.prevInfo address))))
  code hash :=
    match acctBal.accountInfo.code.last with
    | none => v.code hash
    | some write => if hash = write.1 then some write.2 else v.code hash
  storage := update v.storage address fun key =>
    (acctBal.storage.last key).getD (v.storage address key)
  latest := update v.latest address
    (some (acctBal.latestAcct (acctBal.latestInfo (old.prevInfo address))))

/-- All accounts of the list. -/
def commit (v : ProviderView) (bal : Bal) : ProviderView := bal.accounts.foldl v.commitAccount v

section Commit

variable (v : ProviderView) (bal : Bal) (address : Address)

theorem account_commit : (v.commit bal).account address =
      (bal.accounts.lookup address).elim (v.account address) fun acctBal =>
        if (acctBal.latestInfo (v.prevInfo address)).isEmpty then none
        else some (.ofInfo (acctBal.latestInfo (v.prevInfo address))) :=
  foldl_obs v.commitAccount (fun a w => w.account a)
    (fun a acctBal _ => if (acctBal.latestInfo (v.prevInfo a)).isEmpty then none
      else some (.ofInfo (acctBal.latestInfo (v.prevInfo a))))
    (fun _ _ _ => update_self _ _ _) (fun _ _ _ _ hne => update_of_ne hne _ _)
    bal.accounts v address

theorem storage_commit (key : StorageKey) :
    (v.commit bal).storage address key = bal.finalStorage address key (v.storage address key) := by
  have h := foldl_obs v.commitAccount (fun a w => w.storage a)
    (fun _ acctBal storage key => (acctBal.storage.last key).getD (storage key))
    (fun _ _ _ => update_self _ _ _) (fun _ _ _ _ hne => update_of_ne hne _ _)
    bal.accounts v address
  refine (congrFun h key).trans ?_
  unfold Bal.finalStorage
  cases bal.accounts.lookup address <;> rfl

theorem latest_commit : (v.commit bal).latest address =
      (bal.accounts.lookup address).elim (v.latest address) fun acctBal =>
        some (acctBal.latestAcct (acctBal.latestInfo (v.prevInfo address))) :=
  foldl_obs v.commitAccount (fun a w => w.latest a)
    (fun a acctBal _ => some (acctBal.latestAcct (acctBal.latestInfo (v.prevInfo a))))
    (fun _ _ _ => update_self _ _ _) (fun _ _ _ _ hne => update_of_ne hne _ _)
    bal.accounts v address

theorem latest_commit_of_some {v : ProviderView} {bal : Bal} {address : Address}
    (hlookup : bal.accounts.lookup address = some acctBal) :
    (v.commit bal).latest address =
      some (acctBal.latestAcct (acctBal.latestInfo (v.prevInfo address))) := by
  rw [v.latest_commit bal address, hlookup]
  rfl

end Commit

/-- A code is either not written and stays, or it is the last code of an account of the list. -/
theorem code_foldl (old v : ProviderView) (l : List (Sigma fun _ : Address => AccountBal))
    (hash : B256) : ((∀ e ∈ l, ∀ write, e.2.accountInfo.code.last = some write → hash ≠ write.1) ∧
      (l.foldl (fun w e => old.commitAccount w e.1 e.2) v).code hash = v.code hash) ∨
    ∃ e ∈ l, ∃ code, e.2.accountInfo.code.last = some (hash, code) ∧
      (l.foldl (fun w e => old.commitAccount w e.1 e.2) v).code hash = some code := by
  induction l generalizing v with
  | nil => exact inl ⟨fun e he => (nomatch he), rfl⟩
  | cons e l ih =>
    rcases ih (old.commitAccount v e.1 e.2) with ⟨hnone, heq⟩ | ⟨e', he', code, hlast, heq⟩
    · rw [foldl_cons, heq]
      -- none of the accounts behind writes the code: it is what this account leaves
      rcases hlast : e.2.accountInfo.code.last with _ | write
      · refine inl ⟨fun e' he' => ?_, by simp only [commitAccount, hlast]⟩
        rcases mem_cons.1 he' with rfl | hmem
        · rw [hlast]
          exact fun write hwrite => (nomatch hwrite)
        · exact hnone e' hmem
      · by_cases hhash : hash = write.1
        · refine inr ⟨e, mem_cons_self, write.2, ?_, ?_⟩
          · rw [hlast, hhash]
          · simp only [commitAccount, hlast, if_pos hhash]
        · refine inl ⟨fun e' he' => ?_, by simp only [commitAccount, hlast, if_neg hhash]⟩
          rcases mem_cons.1 he' with rfl | hmem
          · rw [hlast]
            intro write' hwrite'
            rwa [← some.inj hwrite']
          · exact hnone e' hmem
    · exact inr ⟨e', mem_cons_of_mem _ he', code, hlast, heq⟩

end ProviderView

/-! ## The last values -/

section Latest

variable {T : Type}

/-- All indices are below the one behind the last. -/
theorem BalWrites.Increasing.below_nextIndex {self : BalWrites T} (h : self.Increasing) :
    self.Below self.nextIndex := by
  obtain ⟨writes⟩ := self
  rcases eq_nil_or_concat' writes with rfl | ⟨front, write, rfl⟩
  · exact fun write hwrite => (nomatch hwrite)
  · intro other hother
    have hnext : nextIndex ⟨front ++ [write]⟩ = write.1 + 1 := by
      rw [nextIndex, getLast?_concat]
      rfl
    unfold Increasing at h
    rw [map_append, pairwise_append] at h
    rw [hnext]
    rcases mem_append.1 hother with hmem | hmem
    · exact (h.2.2 other.1 (mem_map_of_mem hmem) write.1 (mem_singleton_self _)).trans
        (Nat.lt_succ_self _)
    · rw [mem_singleton.1 hmem]
      exact Nat.lt_succ_self _

theorem BalWrites.last_eq_none_of_nextIndex {self : BalWrites T} (h : self.nextIndex = 0) :
    self.last = none := by
  unfold nextIndex at h
  unfold last
  cases hlast : self.writes.getLast? with
  | none => rfl
  | some write =>
    rw [hlast] at h
    cases h

/-- The maximum over the three lists sees all their writes. -/
theorem AccountBal.latestInfo_eq {self : AccountBal} (h : self.accountInfo.Increasing)
    (prevInfo : AccountInfo) : self.latestInfo prevInfo = self.accountInfo.final prevInfo := by
  unfold latestInfo
  split_ifs with hpos
  · have hbelow : self.accountInfo.Below self.accountInfo.maxBalIndex :=
      ⟨h.nonce.below_nextIndex.mono ((le_max_right _ _).trans (le_max_left _ _)),
        h.balance.below_nextIndex.mono ((le_max_left _ _).trans (le_max_left _ _)),
        h.code.below_nextIndex.mono (le_max_right _ _)⟩
    unfold populateAccountInfo
    rw [populateAccountInfo_eq h, infoAt_of_below hbelow]
  · have hzero : self.accountInfo.maxBalIndex = 0 := Nat.eq_zero_of_not_pos hpos
    unfold maxBalIndex at hzero
    rw [Nat.max_eq_zero_iff, Nat.max_eq_zero_iff] at hzero
    obtain ⟨⟨hbalance, hnonce⟩, hcode⟩ := hzero
    unfold final
    rw [last_eq_none_of_nextIndex hbalance, last_eq_none_of_nextIndex hnonce,
      last_eq_none_of_nextIndex hcode]
    rfl

end Latest

theorem StorageBal.lookup_latestStorage (self : StorageBal) (key : StorageKey) :
    self.latestStorage.lookup key = self.last key := by
  have h := foldl_filterMap_obs
    (fun entry : Sigma fun _ : StorageKey => BalWrites StorageValue =>
      entry.2.last.map fun value => (entry.1, value))
    (fun (storage : PlainStorage) slot => storage.insert slot.1 slot.2)
    (fun k storage => storage.lookup k) (fun _ writes o => writes.last.or o)
    (fun storage k writes => by
      cases writes.last with
      | none => rfl
      | some value => exact lookup_insert storage)
    (fun storage k writes k' hne => by
      cases writes.last with
      | none => rfl
      | some value => exact lookup_insert_ne hne)
    self.storage ∅ key
  unfold latestStorage written last
  rw [h]
  cases self.storage.lookup key with
  | none => rfl
  | some writes => exact or_none

/-! ## What is seen of an account -/

/-- Balance, nonce, code hash and code. A code that is not loaded is the empty one. -/
def AccountInfo.seen (info : AccountInfo) : U256 × U64 × B256 × Bytecode :=
  (info.balance, info.nonce, info.codeHash, info.code.getD .default)

/-- What is seen of the answer of a database. An empty account is missing. -/
def seenAccount (info : Option AccountInfo) : Option (U256 × U64 × B256 × Bytecode) :=
  (nonEmpty info).map (·.seen)

theorem seenAccount_nonEmpty (info : Option AccountInfo) :
    seenAccount (nonEmpty info) = seenAccount info := by
  rw [seenAccount, nonEmpty_nonEmpty, seenAccount]

theorem seenAccount_congr {x y : AccountInfo} (h : x.seen = y.seen) :
    seenAccount (some x) = seenAccount (some y) := by
  have hempty : x.isEmpty = y.isEmpty := by
    simp only [seen, Prod.mk.injEq] at h
    exact isEmpty_congr (eqInfo_iff.2 ⟨h.1, h.2.1, h.2.2.1⟩)
  unfold seenAccount
  cases hx : x.isEmpty with
  | true => rw [nonEmpty_some_of_isEmpty hx, nonEmpty_some_of_isEmpty (hempty ▸ hx)]
  | false =>
    rw [nonEmpty_some_of_not_isEmpty hx, nonEmpty_some_of_not_isEmpty (hempty ▸ hx), map_some,
      map_some, h]

theorem seenAccount_of_seen {x y : Option AccountInfo} (h : x.map (·.seen) = y.map (·.seen)) :
    seenAccount x = seenAccount y := by
  cases x with
  | none =>
    cases y with
    | none => rfl
    | some y => cases h
  | some x =>
    cases y with
    | none => cases h
    | some y => exact seenAccount_congr (some.inj h)

theorem seenAccount_of_isEmpty (h : info.isEmpty = true) : seenAccount (some info) = none := by
  rw [seenAccount, nonEmpty_some_of_isEmpty h]
  rfl

/-- The storage id is not seen. -/
theorem seenAccount_finalInfo {bal : Bal} {address : Address}
    (hlookup : bal.accounts.lookup address = some acctBal) :
    seenAccount (bal.finalInfo address prev) =
      seenAccount (some (acctBal.accountInfo.final (prev.getD .default))) := by
  unfold Bal.finalInfo
  rw [hlookup]
  exact seenAccount_congr rfl

/-! ## Codes that fit together -/

/-- A code write of the list. -/
def Bal.WritesCode (self : Bal) (hash : B256) (code : Bytecode) : Prop :=
  ∃ address account index, self.accounts.lookup address = some account ∧
    (index, (hash, code)) ∈ account.accountInfo.code.writes

namespace ProviderView

/-- A hash stands for a code: the empty hash for the empty code, another one for the code of the
table or for a code that is written under it. -/
def StandsFor (v : ProviderView) (bal : Bal) (hash : B256) (code : Bytecode) : Prop :=
  hash = keccakEmpty ∧ code = .default ∨ hash ≠ keccakEmpty ∧ v.code hash = some code ∨
    bal.WritesCode hash code

/-- The code of each account is in the table, and a hash stands for one code only. -/
structure Fits (v : ProviderView) (bal : Bal) : Prop where
  found : ∀ address acct, v.account address = some acct → acct.getBytecodeHash ≠ keccakEmpty →
    ∃ code, v.code acct.getBytecodeHash = some code
  oneCode : ∀ hash code code', v.StandsFor bal hash code → v.StandsFor bal hash code' →
    code = code'

/-- The code of an account is the one behind its hash. -/
def Known (code : B256 → Option Bytecode) (info : AccountInfo) : Prop :=
  if info.codeHash = keccakEmpty then info.code.getD .default = .default
  else ∃ c, info.code = some c ∧ code info.codeHash = some c

theorem known_default (code : B256 → Option Bytecode) : Known code .default := by
  rfl

theorem prevInfo_eq {v : ProviderView} {address : Address}
    (h : v.basicRef address = .ok prev) : v.prevInfo address = prev.getD .default := by
  unfold prevInfo
  rw [h]
  cases prev <;> rfl

/-- The accounts that a view answers have their codes. -/
theorem known_of_basicRef {v : ProviderView} {address : Address}
    (h : v.basicRef address = .ok (some info)) : Known v.code info := by
  unfold basicRef at h
  split at h
  · cases h
  · next acct _ =>
    split_ifs at h with hhash
    · split at h
      · cases h
      · next code hcode =>
        rw [← some.inj (Except.ok.inj h)]
        exact (if_neg hhash).mpr ⟨code, rfl, hcode⟩
    · rw [← some.inj (Except.ok.inj h)]
      exact (if_pos (not_not.1 hhash)).mpr rfl

/-- A record that was made of an account with its code answers this account. -/
theorem basicRef_of_ofInfo {v : ProviderView} {address : Address}
    (haccount : v.account address = some (.ofInfo info)) (hknown : Known v.code info) :
    ∃ info', v.basicRef address = .ok (some info') ∧ info'.seen = info.seen := by
  have hhash : (RethAccount.ofInfo info).getBytecodeHash = info.codeHash := rfl
  unfold basicRef
  unfold Known at hknown
  rw [haccount]
  dsimp only
  rw [hhash]
  by_cases hempty : info.codeHash = keccakEmpty
  · rw [if_pos hempty] at hknown
    rw [if_neg (not_not.2 hempty)]
    refine ⟨_, rfl, ?_⟩
    unfold seen
    rw [hknown]
    rfl
  · rw [if_neg hempty] at hknown
    obtain ⟨code, hcode, hread⟩ := hknown
    rw [if_pos hempty, hread]
    refine ⟨_, rfl, ?_⟩
    unfold seen
    rw [hcode]
    rfl

section Fits

variable {v : ProviderView} {bal : Bal} (fits : v.Fits bal)
variable {address : Address} {hash : B256} {code : Bytecode}

include fits

theorem Fits.basicRef_ok (address : Address) : ∃ info, v.basicRef address = .ok info := by
  unfold basicRef
  cases haccount : v.account address with
  | none => exact ⟨none, rfl⟩
  | some acct =>
    dsimp only
    split_ifs with hhash
    · obtain ⟨code, hcode⟩ := fits.found address acct haccount hhash
      rw [hcode]
      exact ⟨_, rfl⟩
    · exact ⟨_, rfl⟩

omit fits in
theorem writesCode_of_last (hlookup : bal.accounts.lookup address = some acctBal)
    (hlast : acctBal.accountInfo.code.last = some (hash, code)) : bal.WritesCode hash code := by
  obtain ⟨write, hwrite, heq⟩ := map_eq_some_iff.1 hlast
  obtain ⟨index, write⟩ := write
  obtain rfl : write = (hash, code) := heq
  exact ⟨address, acctBal, index, hlookup, mem_of_getLast? hwrite⟩

/-- A code of the table stays. -/
theorem Fits.code_commit_of_code (hhash : hash ≠ keccakEmpty)
    (h : v.code hash = some code) : (v.commit bal).code hash = some code := by
  rcases v.code_foldl v bal.accounts.entries hash with ⟨-, heq⟩ | ⟨e, he, code', hlast, heq⟩
  · exact heq.trans h
  · rw [fits.oneCode hash code code' (inr (inl ⟨hhash, h⟩))
      (inr (inr (writesCode_of_last (mem_lookup_iff.2 he) hlast)))]
    exact heq

/-- The last code of an account is in the table. -/
theorem Fits.code_commit_of_last (hlookup : bal.accounts.lookup address = some acctBal)
    (hlast : acctBal.accountInfo.code.last = some (hash, code)) :
    (v.commit bal).code hash = some code := by
  rcases v.code_foldl v bal.accounts.entries hash with ⟨hnone, -⟩ | ⟨e, he, code', hlast', heq⟩
  · exact absurd rfl (hnone ⟨address, acctBal⟩ (mem_lookup_iff.1 hlookup) _ hlast)
  · rw [fits.oneCode hash code code' (inr (inr (writesCode_of_last hlookup hlast)))
      (inr (inr (writesCode_of_last (mem_lookup_iff.2 he) hlast')))]
    exact heq

/-- The account after all writes has its code. -/
theorem Fits.known_final (hlookup : bal.accounts.lookup address = some acctBal)
    (h : Known v.code info) : Known (v.commit bal).code (acctBal.accountInfo.final info) := by
  unfold Known at h ⊢
  unfold final
  cases hlast : acctBal.accountInfo.code.last with
  | some write =>
    -- a code was written: it is the one behind the new hash
    obtain ⟨hash, code⟩ := write
    split_ifs with hempty
    · exact fits.oneCode hash code .default (inr (inr (writesCode_of_last hlookup hlast)))
        (inl ⟨hempty, rfl⟩)
    · exact ⟨code, rfl, fits.code_commit_of_last hlookup hlast⟩
  | none =>
    dsimp only [map_none, getD_none, none_or]
    split_ifs at h ⊢ with hempty
    · exact h
    · obtain ⟨code, hcode, hread⟩ := h
      exact ⟨code, hcode, fits.code_commit_of_code hempty hread⟩

/-- An account that is not in the list stays, and so does its code. -/
theorem Fits.basicRef_commit_of_none (hlookup : bal.accounts.lookup address = none) :
    (v.commit bal).basicRef address = v.basicRef address := by
  have haccount := v.account_commit bal address
  rw [hlookup] at haccount
  unfold basicRef
  rw [haccount]
  dsimp only [elim_none]
  cases hacct : v.account address with
  | none => rfl
  | some acct =>
    dsimp only
    split_ifs with hhash
    · obtain ⟨code, hcode⟩ := fits.found address acct hacct hhash
      rw [hcode, fits.code_commit_of_code hhash hcode]
    · rfl

/-- An account of the list is answered as the commit answers it. -/
theorem Fits.basicRef_commit_of_some (hinc : bal.Increasing)
    (hlookup : bal.accounts.lookup address = some acctBal) :
    ∃ info, (v.commit bal).basicRef address = .ok info ∧ info.map (·.seen) =
      (acctBal.latestAcct (acctBal.latestInfo (v.prevInfo address))).info.map (·.seen) := by
  obtain ⟨prev, hprev⟩ := fits.basicRef_ok address
  have haccount := v.account_commit bal address
  have hknown : Known v.code (prev.getD .default) := by
    cases prev with
    | none => exact known_default v.code
    | some info => exact known_of_basicRef hprev
  rw [hlookup] at haccount
  unfold latestAcct
  dsimp only [elim_some] at haccount ⊢
  rw [prevInfo_eq hprev, latestInfo_eq (hinc address acctBal hlookup).1] at haccount ⊢
  split_ifs at haccount ⊢ with hempty
  · refine ⟨none, ?_, rfl⟩
    unfold basicRef
    rw [haccount]
  · obtain ⟨info, hinfo, hseen⟩ := basicRef_of_ofInfo haccount (fits.known_final hlookup hknown)
    exact ⟨some info, hinfo, congrArg some hseen⟩

omit fits in
/-- The state that the commit answers is seen as the block leaves it. -/
theorem latest_commit_seen (hinc : bal.Increasing) (hprev : v.basicRef address = .ok prev)
    (hlookup : bal.accounts.lookup address = some acctBal) :
    seenAccount (acctBal.latestAcct (acctBal.latestInfo (v.prevInfo address))).info =
      seenAccount (bal.finalInfo address prev) := by
  rw [prevInfo_eq hprev, latestInfo_eq (hinc address acctBal hlookup).1,
    seenAccount_finalInfo hlookup]
  unfold latestAcct
  split_ifs with hempty
  · exact (seenAccount_of_isEmpty hempty).symm
  · rfl

/-- After the commit an account is seen as the block leaves it. -/
theorem Fits.basicRef_commit (hinc : bal.Increasing)
    (hprev : v.basicRef address = .ok prev) : ∃ info, (v.commit bal).basicRef address = .ok info ∧
      seenAccount info = seenAccount (bal.finalInfo address prev) := by
  cases hlookup : bal.accounts.lookup address with
  | none =>
    refine ⟨prev, (fits.basicRef_commit_of_none hlookup).trans hprev, ?_⟩
    rw [Bal.finalInfo, hlookup]
  | some acctBal =>
    obtain ⟨info, hinfo, hseen⟩ := fits.basicRef_commit_of_some hinc hlookup
    exact ⟨info, hinfo, (seenAccount_of_seen hseen).trans (latest_commit_seen hinc hprev hlookup)⟩

end Fits

end ProviderView

end Revm
