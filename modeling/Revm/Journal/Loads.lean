import Revm.Journal.Ops

/-!
# Loads of accounts

What a load can do is said once, by cases. `JournalInner.Found` lists what the match on the entry of
the state map finds, `JournalInner.LoadOutcome` the outcomes of the whole load. Proofs about loads
go through these cases and not through the code.
-/

set_option autoImplicit false

namespace Revm

open Option

variable {loadCode skipColdLoad : Bool}

/-- The code of an account: the loaded one, or what loading it gives. -/
def Database.accountCode {ε : Type} (db : Database ε) (info : AccountInfo) : Option Bytecode :=
  match info.code with
  | some code => some code
  | none =>
      if info.codeHash = keccakEmpty then some Bytecode.default
      else (db.codeByHash info.codeHash).toOption

namespace JournalInner

/-- The journal after the match on the entry: the account is stored and a cold load is recorded. -/
def found (self : JournalInner) (a : Address) (load : StateLoad Account) : JournalInner :=
  if load.isCold then (self.setAccount a load.data).push (.accountWarmed a)
  else self.setAccount a load.data

section Found

variable (self : JournalInner) (a : Address) (load : StateLoad Account)

/-- A load inserts the account and records it if it was cold. -/
theorem found_eq : self.found a load = { self with
    state := self.state.insert a load.data
    journal := self.journal ++ if load.isCold then [.accountWarmed a] else [] } := by
  unfold found
  cases load.isCold
  · simp [setAccount]
  · rfl

@[simp] theorem found_state : (self.found a load).state = self.state.insert a load.data := by
  rw [found_eq]

@[simp] theorem found_journal : (self.found a load).journal =
    self.journal ++ if load.isCold then [.accountWarmed a] else [] := by
  rw [found_eq]

@[simp] theorem found_transactionId : (self.found a load).transactionId = self.transactionId := by
  rw [found_eq]

end Found

variable {ε : Type} (db : Database ε) (self : JournalInner) (a : Address)

/-- What the match on the entry of the state map finds. -/
inductive Found : StateLoad Account → Prop
  | cold (acc : Account) (hl : self.state.lookup a = some acc)
      (hcold : acc.isColdTransactionId self.transactionId = true) :
      Found ⟨warmUp acc self.transactionId, self.warmAddresses.isCold a⟩
  | warm (acc : Account) (hl : self.state.lookup a = some acc)
      (hwarm : acc.isColdTransactionId self.transactionId = false) : Found ⟨acc, false⟩
  | stored (info : AccountInfo) (hl : self.state.lookup a = none)
      (hbasic : db.basic a = .ok (some info)) : Found ⟨.ofInfo info, self.warmAddresses.isCold a⟩
  | absent (hl : self.state.lookup a = none) (hbasic : db.basic a = .ok none) :
      Found ⟨.newNotExisting self.transactionId, self.warmAddresses.isCold a⟩

/-- The outcomes of `load_account_mut_optional_code`. The account is in the journal even if its code
could not be read. -/
inductive LoadOutcome (loadCode skipColdLoad : Bool) :
    LoadAnswer ε Account × JournalInner → Prop
  | failed (e : JournalLoadError ε) (hentry : self.loadEntry db a skipColdLoad = .error e) :
      LoadOutcome loadCode skipColdLoad (.error e, self)
  | noCode (load : StateLoad Account) (e : ε)
      (hentry : self.loadEntry db a skipColdLoad = .ok load) :
      LoadOutcome loadCode skipColdLoad (.error (.dbError e), self.found a load)
  | code (load : StateLoad Account) (code : Bytecode)
      (hentry : self.loadEntry db a skipColdLoad = .ok load) (hnone : load.data.info.code = none)
      (hcode : db.accountCode load.data.info = some code) :
      LoadOutcome loadCode skipColdLoad (.ok ⟨load.data.cacheCode code, load.isCold⟩,
        (self.found a load).setAccount a (load.data.cacheCode code))
  | loaded (load : StateLoad Account) (hentry : self.loadEntry db a skipColdLoad = .ok load)
      (hcode : loadCode = true → load.data.info.code.isSome = true) :
      LoadOutcome loadCode skipColdLoad (.ok load, self.found a load)

variable {db self a}

theorem found_of_loadEntry {skipColdLoad : Bool} {load : StateLoad Account}
    (h : self.loadEntry db a skipColdLoad = .ok load) : self.Found db a load := by
  unfold loadEntry at h
  split at h
  · next acc hl =>
    dsimp only at h
    split_ifs at h with hcold
    · cases h
      exact .cold acc hl hcold
    · cases h
      exact .warm acc hl (Bool.not_eq_true _ ▸ hcold)
  · next hl =>
    dsimp only at h
    split_ifs at h
    split at h
    · cases h
    · next info hbasic =>
      cases h
      exact .stored info hl hbasic
    · next hbasic =>
      cases h
      exact .absent hl hbasic

/-- Every load ends in one of the ways of `LoadOutcome`. -/
theorem loadOutcome {r : LoadAnswer ε Account × JournalInner}
    (hr : self.loadAccountMutOptionalCode db a loadCode skipColdLoad = r) :
    self.LoadOutcome db a loadCode skipColdLoad r := by
  subst hr
  unfold loadAccountMutOptionalCode
  cases hentry : self.loadEntry db a skipColdLoad with
  | error e => exact .failed e hentry
  | ok load =>
    dsimp only
    rw [show (if load.isCold then (self.setAccount a load.data).push (.accountWarmed a)
      else self.setAccount a load.data) = self.found a load from rfl]
    by_cases hcode : (loadCode && load.data.info.code.isNone) = true
    · have hnone := isNone_iff_eq_none.1 (Bool.and_eq_true_iff.1 hcode).2
      have haccount : db.accountCode load.data.info =
          (if load.data.info.codeHash = keccakEmpty then .ok Bytecode.default
            else db.codeByHash load.data.info.codeHash : Except ε Bytecode).toOption := by
        unfold Database.accountCode
        rw [hnone]
        split_ifs <;> rfl
      rw [if_pos hcode]
      generalize (if load.data.info.codeHash = keccakEmpty then .ok Bytecode.default
        else db.codeByHash load.data.info.codeHash : Except ε Bytecode) = read at haccount ⊢
      cases read with
      | error e => exact .noCode load e hentry
      | ok code => exact .code load code hentry hnone haccount
    · rw [if_neg hcode]
      refine .loaded load hentry fun htrue => ?_
      simpa [htrue, isSome_iff_ne_none] using hcode

/-- `load_account_delegated` leaves what one load leaves, or a second one, of the delegate. -/
theorem loadAccountDelegated_ends {P : JournalInner → Prop}
    (hfirst : P (self.loadAccountOptional db a (self.spec.isEnabledIn .prague) false).2)
    (hsecond : ∀ load j₁ delegated version raw,
      self.loadAccountOptional db a (self.spec.isEnabledIn .prague) false = (.ok load, j₁) →
      load.data.info.code = some (.eip7702 delegated version raw) →
      P (j₁.loadAccountOptional db delegated true false).2) :
    P (self.loadAccountDelegated db a).2 := by
  unfold loadAccountDelegated
  generalize self.loadAccountOptional db a (self.spec.isEnabledIn .prague) false = r
    at hfirst hsecond ⊢
  obtain ⟨_ | load, j₁⟩ := r
  · exact hfirst
  · dsimp only
    split
    · next delegated version raw hcode =>
      have hend := hsecond load j₁ delegated version raw rfl hcode
      generalize j₁.loadAccountOptional db delegated true false = r' at hend ⊢
      obtain ⟨_ | load', j₂⟩ := r' <;> exact hend
    · exact hfirst

namespace LoadOutcome

variable {r : LoadAnswer ε Account × JournalInner}

/-- A load changes the account that it loads and records it, and nothing else. -/
theorem frame (h : self.LoadOutcome db a loadCode skipColdLoad r) :
    r.2.transactionId = self.transactionId ∧ r.2.spec = self.spec ∧
      r.2.warmAddresses = self.warmAddresses ∧
        ∀ x ≠ a, r.2.state.lookup x = self.state.lookup x := by
  cases h with
  | failed => exact ⟨rfl, rfl, rfl, fun x hx => rfl⟩
  | noCode | loaded =>
    rw [found_eq]
    exact ⟨rfl, rfl, rfl, fun x hx => AList.lookup_insert_ne hx⟩
  | code =>
    rw [found_eq]
    exact ⟨rfl, rfl, rfl, fun x hx => (AList.lookup_insert_ne hx).trans (AList.lookup_insert_ne hx)⟩

/-- A load answers the account that it stores. -/
theorem lookup {load : StateLoad Account} {j' : JournalInner}
    (h : self.LoadOutcome db a loadCode skipColdLoad (.ok load, j')) :
    j'.state.lookup a = some load.data := by
  cases h with
  | code => exact AList.lookup_insert _
  | loaded =>
    rw [found_state]
    exact AList.lookup_insert _

end LoadOutcome

end JournalInner

/-! ## Transfers -/

theorem Account.markTouch_of_isTouched {account : Account} (h : account.isTouched = true) :
    account.markTouch = account := by
  obtain ⟨info, originalInfo, transactionId, storage, status⟩ := account
  obtain ⟨_, _, _, _, touched, _, _⟩ := status
  cases h
  rfl

/-- The entry of a touch, if the touch is one. -/
def touchEntries (address : Address) (account : Account) : List JournalEntry :=
  if account.isTouched then [] else [.accountTouched address]

/-! The account behind a handle after each use of it. -/

namespace JournaledAccount

variable (x : JournaledAccount)

/-- A touch is recorded for an untouched account only. -/
theorem touch_eq : x.touch =
    ⟨x.address, x.account.markTouch, x.journalEntries ++ touchEntries x.address x.account⟩ := by
  unfold touch touchEntries
  cases htouched : x.account.isTouched with
  | false => rfl
  | true =>
    rw [Account.markTouch_of_isTouched htouched]
    simp

theorem account_touch : x.touch.account = x.account.markTouch := by rw [touch_eq]

theorem account_setBalance (balance : U256) :
    (x.setBalance balance).account = x.account.markTouch.setBalance balance := by
  unfold setBalance
  dsimp only
  split_ifs with hne
  · rw [account_touch]
  · rw [not_not, account_touch] at hne
    rw [account_touch, ← hne]
    rfl

theorem account_incrBalance (amount : U256) : (x.incrBalance amount).2.account =
    x.account.markTouch.setBalance
      ((checkedAdd x.account.info.balance amount).getD x.account.info.balance) := by
  unfold incrBalance
  dsimp only
  rw [account_touch, show x.account.markTouch.info.balance = x.account.info.balance from rfl]
  cases checkedAdd x.account.info.balance amount with
  | none => exact x.account_touch
  | some sum =>
    rw [account_setBalance, account_touch]
    rfl

theorem account_decrBalance (amount : U256) : (x.decrBalance amount).2.account =
    x.account.markTouch.setBalance
      ((checkedSub x.account.info.balance amount).getD x.account.info.balance) := by
  unfold decrBalance
  dsimp only
  rw [account_touch, show x.account.markTouch.info.balance = x.account.info.balance from rfl]
  cases checkedSub x.account.info.balance amount with
  | none => exact x.account_touch
  | some rest =>
    rw [account_setBalance, account_touch]
    rfl

theorem account_bumpNonce : x.bumpNonce.2.account =
    x.account.markTouch.setNonce ((checkedAdd x.account.info.nonce 1).getD
      x.account.info.nonce) := by
  unfold bumpNonce
  dsimp only
  rw [account_touch, show x.account.markTouch.info.nonce = x.account.info.nonce from rfl]
  cases checkedAdd x.account.info.nonce 1 with
  | none => exact x.account_touch
  | some nonce => rfl

end JournaledAccount

namespace JournalInner

/-- `touch_account` stores a touched account and records the touch if it is the first. -/
theorem touchAccount_eq (self : JournalInner) (address : Address) (account : Account) :
    self.touchAccount address account =
      { self with
        state := self.state.insert address account.markTouch
        journal := self.journal ++ touchEntries address account } := by
  unfold touchAccount touchEntries
  cases htouched : account.isTouched with
  | false => rfl
  | true =>
    rw [Account.markTouch_of_isTouched htouched]
    simp [setAccount]

/-- The outcomes of `transfer_loaded`. An overflow leaves the sender debited. -/
inductive TransferOutcome (self : JournalInner) (src dst : Address) (balance : U256) :
    Option TransferError × JournalInner → Prop
  | same (error : Option TransferError) (herror : error = none ∨ error = some .outOfFunds) :
      TransferOutcome self src dst balance (error, self)
  | nothing (receiver : Account) (hdst : self.state.lookup dst = some receiver) :
      TransferOutcome self src dst balance (none, self.touchAccount dst receiver)
  | outOfFunds (sender : Account) (hne : src ≠ dst) (hsrc : self.state.lookup src = some sender) :
      TransferOutcome self src dst balance (some .outOfFunds, self.touchAccount src sender)
  | overflow (sender receiver : Account) (hne : src ≠ dst)
      (hsrc : self.state.lookup src = some sender)
      (hdst : self.state.lookup dst = some receiver) (hle : balance ≤ sender.info.balance)
      (hadd : checkedAdd receiver.info.balance balance = none) :
      TransferOutcome self src dst balance (some .overflowPayment, { self with
        state := (self.state.insert src
          (sender.markTouch.setBalance (sender.info.balance - balance))).insert dst
            receiver.markTouch
        journal := self.journal ++ touchEntries src sender ++ touchEntries dst receiver })
  | paid (sender receiver : Account) (hne : src ≠ dst) (hsrc : self.state.lookup src = some sender)
      (hdst : self.state.lookup dst = some receiver) (hle : balance ≤ sender.info.balance)
      (hadd : checkedAdd receiver.info.balance balance = some (receiver.info.balance + balance)) :
      TransferOutcome self src dst balance (none, { self with
        state := (self.state.insert src
          (sender.markTouch.setBalance (sender.info.balance - balance))).insert dst
            (receiver.markTouch.setBalance (receiver.info.balance + balance))
        journal := self.journal ++ touchEntries src sender ++ touchEntries dst receiver ++
          [.balanceTransfer balance src dst] })

/-- Every transfer ends in one of the ways of `TransferOutcome`. -/
theorem transferOutcome {self : JournalInner} {src dst : Address} {balance : U256}
    {r : Option TransferError × JournalInner} (h : self.transferLoaded src dst balance = some r) :
    self.TransferOutcome src dst balance r := by
  unfold transferLoaded at h
  split_ifs at h with hsame hzero
  · obtain ⟨account, -, h⟩ := bind_eq_some_iff.1 h
    split_ifs at h
    · cases h
      exact .same _ (.inr rfl)
    · cases h
      exact .same _ (.inl rfl)
  · obtain ⟨receiver, hdst, h⟩ := bind_eq_some_iff.1 h
    cases h
    exact .nothing receiver hdst
  · obtain ⟨sender, hsrc, h⟩ := bind_eq_some_iff.1 h
    unfold checkedSub at h
    by_cases hle : balance ≤ sender.info.balance
    · rw [if_pos hle, touchAccount_eq] at h
      obtain ⟨paid, hpaid, h⟩ := bind_eq_some_iff.1 h
      rw [modify, AList.lookup_insert] at hpaid
      cases hpaid
      obtain ⟨receiver, hdst, h⟩ := bind_eq_some_iff.1 h
      simp only [setAccount, AList.insert_insert, AList.lookup_insert_ne (Ne.symm hsame)] at hdst h
      rw [touchAccount_eq] at h
      cases hadd : checkedAdd receiver.info.balance balance with
      | none =>
        rw [hadd] at h
        cases h
        exact .overflow sender receiver hsame hsrc hdst hle hadd
      | some sum =>
        rw [hadd] at h
        obtain rfl : sum = receiver.info.balance + balance := by
          unfold checkedAdd at hadd
          split_ifs at hadd
          exact (some.inj hadd).symm
        simp only [modify, AList.lookup_insert, map_some, bind_eq_bind, bind_some,
          setAccount, AList.insert_insert] at h
        cases h
        exact .paid sender receiver hsame hsrc hdst hle hadd
    · rw [if_neg hle] at h
      cases h
      exact .outOfFunds sender hsame hsrc

end JournalInner

end Revm
