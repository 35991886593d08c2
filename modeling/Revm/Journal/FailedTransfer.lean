import Revm.Journal.Nested

/-!
# Transfers that fail

`transfer_loaded` and `create_account_checkpoint` change the state step by step and find out on the
way that the transfer is not possible. The revert of the checkpoint that was made in front of them
takes back what has an entry. `failedTransfer_restores` says what is left then: nothing but the
debit of a sender whose payment overflows the balance of the receiver, which has no entry; the touch
of `0x03`, whose entry is not taken back; and the mark of a creation earlier in the same
transaction, which the revert of a second creation takes away.
-/

set_option autoImplicit false

namespace Revm

open JournalInner Account

variable {self j : JournalInner} {lost lost' : Address → U256}
  {flags flags' : Address → AccountFlags → AccountFlags} {state state' : EvmState}
  {entries : List JournalEntry} {balance : U256} {error : TransferError}

/-- The flags after a revert: a touch of `0x03` stays from Spurious Dragon on. -/
def AccountFlags.Restored (self : JournalInner) (address : Address) (before after : AccountFlags) :
    Prop :=
  after = before ∨
    self.spec.isEnabledIn .spuriousDragon = true ∧ address = precompile3 ∧
      after = { before with touched := true }

/-- The account after a failed transfer and its revert, with what it has lost and with the flags it
is to have. -/
structure Account.Restored (self : JournalInner) (address : Address) (lost : U256)
    (flags : AccountFlags → AccountFlags) (before after : Account) : Prop where
  balance : after.info.balance = before.info.balance - lost
  nonce : after.info.nonce = before.info.nonce
  codeHash : after.info.codeHash = before.info.codeHash
  status : AccountFlags.Restored self address (flags before.status) after.status

/-- The accounts after a failed transfer and its revert. -/
structure EvmState.Restored (self : JournalInner) (lost : Address → U256)
    (flags : Address → AccountFlags → AccountFlags) (state : EvmState) : Prop where
  missing : ∀ address, self.state.lookup address = none → state.lookup address = none
  accounts : ∀ address before, self.state.lookup address = some before →
    ∃ account, state.lookup address = some account ∧
      Account.Restored self address (lost address) (flags address) before account

/-- The journal after a failed transfer and its revert. -/
structure JournalInner.Restored (self : JournalInner) (lost : Address → U256)
    (flags : Address → AccountFlags → AccountFlags) (after : JournalInner) : Prop where
  journal : after.journal = self.journal
  depth : after.depth = self.depth
  state : EvmState.Restored self lost flags after.state

theorem Account.Restored.refl (self : JournalInner) (address : Address) (account : Account) :
    Account.Restored self address 0 (fun flags => flags) account account :=
  ⟨(BitVec.sub_zero _).symm, rfl, rfl, .inl rfl⟩

theorem EvmState.Restored.refl (self : JournalInner) :
    EvmState.Restored self (fun _ => 0) (fun _ flags => flags) self.state :=
  ⟨fun _ hl => hl, fun a before hl => ⟨before, hl, .refl self a before⟩⟩

/-- One account is written. -/
theorem EvmState.Restored.update {address : Address} {before account : Account}
    (h : EvmState.Restored self lost flags state) (hl : self.state.lookup address = some before)
    (hat : state'.lookup address = some account)
    (hoff : ∀ b, b ≠ address → state'.lookup b = state.lookup b)
    (haccount : Account.Restored self address (lost' address) (flags' address) before account)
    (hsame : ∀ b, b ≠ address → lost' b = lost b ∧ flags' b = flags b) :
    EvmState.Restored self lost' flags' state' := by
  obtain ⟨hmissing, haccounts⟩ := h
  refine ⟨fun b hb => ?_, fun b before' hb => ?_⟩
  · have hne : b ≠ address := by
      rintro rfl
      rw [hl] at hb
      cases hb
    rw [hoff b hne]
    exact hmissing b hb
  · by_cases hne : b = address
    · subst hne
      rw [hl] at hb
      cases hb
      exact ⟨account, hat, haccount⟩
    · rw [hoff b hne, (hsame b hne).1, (hsame b hne).2]
      exact haccounts b before' hb

/-! ## Touches -/

/-- An account of the state that was touched, after the touch has been taken back. -/
def Account.untouch (account : Account) (sd : Bool) (address : Address) (before : Account) :
    Account :=
  { account with
    status :=
      { account.status with touched := before.isTouched || (sd && address == precompile3) } }

/-- The revert of a touch. -/
theorem revert_touchEntries (before : Account) {address : Address} {account : Account}
    (hl : state.lookup address = some account) (htouched : account.status.touched = true)
    (t : Option TransientStorage) (sd : Bool) :
    ∃ state', (touchEntries address before).reverse.foldlM
        (fun acc entry => entry.revert acc.1 acc.2 sd) (state, t) = some (state', t) ∧
      ∀ b, state'.lookup b =
        if b = address then some (account.untouch sd address before) else state.lookup b := by
  have hsame : ∀ touched, touched = true →
      { account with status := { account.status with touched := touched } } = account := by
    rintro _ rfl
    rw [← htouched]
  have hkeep : before.isTouched = true ∨ (sd && address == precompile3) = true →
      ∀ b, state.lookup b =
        if b = address then some (account.untouch sd address before) else state.lookup b := by
    intro h b
    split_ifs with hb
    · rw [hb, hl, untouch, hsame _ (by simpa using h)]
    · rfl
  unfold touchEntries
  cases hbefore : before.isTouched with
  | true => exact ⟨state, rfl, hkeep (.inl hbefore)⟩
  | false =>
    show ∃ state', ((if sd && address == precompile3 then some (state, t)
        else (state.modify address unmarkTouch).map (·, t)) >>= fun r => some r) =
          some (state', t) ∧ _
    by_cases hkept : (sd && address == precompile3) = true
    · rw [if_pos hkept]
      exact ⟨state, rfl, hkeep (.inr hkept)⟩
    · rw [if_neg hkept]
      unfold EvmState.modify
      rw [hl]
      refine ⟨_, rfl, fun b => ?_⟩
      rw [HashMap.lookup_insert_ite]
      unfold untouch
      rw [hbefore, eq_false_of_ne_true hkept]
      rfl

/-! ## Reverts to the checkpoint in front -/

/-- The last entries are taken back first. -/
theorem revert_append {entries' : List JournalEntry} {state₁ state₂ : EvmState}
    {t : Option TransientStorage} {sd : Bool}
    (h' : entries'.reverse.foldlM (fun acc entry => entry.revert acc.1 acc.2 sd) (state, t) =
      some (state₁, t))
    (h : entries.reverse.foldlM (fun acc entry => entry.revert acc.1 acc.2 sd) (state₁, t) =
      some (state₂, t)) :
    (entries ++ entries').reverse.foldlM (fun acc entry => entry.revert acc.1 acc.2 sd) (state, t) =
      some (state₂, t) := by
  rw [List.reverse_append, List.foldlM_append, h']
  exact h

section Entries

variable {j' : JournalInner} (hj' : j.checkpointRevert self.checkpoint.1 = some j')
  (hjournal : j.journal = self.journal ++ entries) (hdepth : j.depth = self.depth + 1)
  (hspec : j.spec = self.spec) (hrevert : entries.reverse.foldlM
    (fun acc entry => entry.revert acc.1 acc.2 (self.spec.isEnabledIn .spuriousDragon))
    (j.state, some j.transientStorage) = some (state, some j.transientStorage))
  (hstate : EvmState.Restored self lost flags state)

include hjournal hdepth hspec hrevert hstate

/-- The entries since the checkpoint are taken back. -/
theorem JournalInner.restored_of_revert :
    ∃ j', j.checkpointRevert self.checkpoint.1 = some j' ∧ self.Restored lost flags j' := by
  have hdrop : j.journal.drop self.checkpoint.1.journalI = entries := by
    rw [hjournal]
    exact List.drop_left
  have htake : j.journal.take self.checkpoint.1.journalI = self.journal := by
    rw [hjournal]
    exact List.take_left
  unfold checkpointRevert
  dsimp only
  rw [hdrop, hspec, hrevert]
  refine ⟨_, rfl, htake, ?_, hstate⟩
  rw [hdepth]
  rfl

include hj' in
theorem JournalInner.Restored.of_revert : self.Restored lost flags j' := by
  obtain ⟨j'', hj'', hrestored⟩ := restored_of_revert hjournal hdepth hspec hrevert hstate
  rw [hj'] at hj''
  cases hj''
  exact hrestored

end Entries

/-! ## Transfers -/

section

variable (self : JournalInner) (address : Address) (before : Account)

theorem AccountFlags.Restored.untouch (flags : AccountFlags)
    (htouched : flags.touched = before.isTouched) :
    AccountFlags.Restored self address flags
      { flags with
        touched := before.isTouched ||
          (self.spec.isEnabledIn .spuriousDragon && address == precompile3) } := by
  by_cases hkept : (self.spec.isEnabledIn .spuriousDragon && address == precompile3) = true
  · obtain ⟨hspec, haddress⟩ := Bool.and_eq_true_iff.1 hkept
    refine .inr ⟨hspec, by simpa using haddress, ?_⟩
    rw [hkept, Bool.or_true]
  · left
    rw [eq_false_of_ne_true hkept, Bool.or_false, ← htouched]

/-- A touched account after the touch has been taken back. -/
theorem Account.Restored.untouch
    (lost : U256) : Account.Restored self address lost (fun flags => flags) before
      ((before.markTouch.setBalance (before.info.balance - lost)).untouch
        (self.spec.isEnabledIn .spuriousDragon) address before) :=
  ⟨rfl, rfl, rfl, .untouch self address before _ rfl⟩

theorem Account.Restored.untouch_same :
    Account.Restored self address 0 (fun flags => flags) before
      (before.markTouch.untouch (self.spec.isEnabledIn .spuriousDragon) address before) :=
  ⟨(BitVec.sub_zero _).symm, rfl, rfl, .untouch self address before _ rfl⟩

theorem transferLoaded_restores {src dst : Address}
    (h : self.checkpoint.2.transferLoaded src dst balance = some (some error, j)) :
    ∃ j', j.checkpointRevert self.checkpoint.1 = some j' ∧
      self.Restored (fun a => if error = .overflowPayment ∧ a = src then balance else 0)
        (fun _ flags => flags) j' := by
  cases transferOutcome h with
  | same _ herror =>
    obtain rfl : error = .outOfFunds := by simpa using herror
    exact restored_of_revert (List.append_nil _).symm rfl rfl rfl (.refl self)
  | outOfFunds sender hne hsender =>
    have hl : self.state.lookup src = some sender := hsender
    rw [touchAccount_eq]
    obtain ⟨state, hrevert, hlookup⟩ := revert_touchEntries sender
      (AList.lookup_insert (a := src) (b := sender.markTouch) self.state) rfl
      (some self.transientStorage) (self.spec.isEnabledIn .spuriousDragon)
    refine restored_of_revert rfl rfl rfl hrevert ((EvmState.Restored.refl self).update
      hl ((hlookup src).trans (if_pos rfl)) (fun b hb => ?_) ?_
        fun b _ => ⟨if_neg (by simp), rfl⟩)
    · rw [hlookup, if_neg hb, AList.lookup_insert_ne hb]
    · rw [if_neg (by simp)]
      exact .untouch_same self src sender
  | overflow sender receiver hne hsender hreceiver =>
    have hl : self.state.lookup src = some sender := hsender
    have hl' : self.state.lookup dst = some receiver := hreceiver
    obtain ⟨state₁, hrevert₁, hlookup₁⟩ := revert_touchEntries receiver
      (AList.lookup_insert (a := dst) (b := receiver.markTouch)
        (self.state.insert src (sender.markTouch.setBalance (sender.info.balance - balance)))) rfl
      (some self.transientStorage) (self.spec.isEnabledIn .spuriousDragon)
    have hsrc : state₁.lookup src =
        some (sender.markTouch.setBalance (sender.info.balance - balance)) := by
      rw [hlookup₁, if_neg hne, AList.lookup_insert_ne hne, AList.lookup_insert]
    obtain ⟨state, hrevert, hlookup⟩ := revert_touchEntries sender hsrc rfl
      (some self.transientStorage) (self.spec.isEnabledIn .spuriousDragon)
    -- the receiver is as it was, and the sender lacks what it has paid
    have hreceived := (EvmState.Restored.refl self).update hl' (AList.lookup_insert self.state)
      (fun b hb => AList.lookup_insert_ne hb) (.untouch_same self dst receiver) fun _ _ =>
        ⟨rfl, rfl⟩
    refine restored_of_revert (List.append_assoc _ _ _) rfl rfl
      (revert_append hrevert₁ hrevert) (hreceived.update hl ((hlookup src).trans (if_pos rfl))
        (fun b hb => ?_) ?_ fun b hb => ⟨if_neg fun h => hb h.2, rfl⟩)
    · simp only [hlookup, if_neg hb, hlookup₁, HashMap.lookup_insert_ite]
      split_ifs <;> rfl
    · rw [if_pos ⟨rfl, rfl⟩]
      exact .untouch self src sender balance

/-! ## Creations -/

/-- The revert of a creation that was touched before the transfer of its value failed. -/
theorem Account.Restored.uncreate (specId : SpecId) (hnonce : before.info.nonce = 0) :
    Account.Restored self address 0 (fun flags => { flags with createdLocal := false }) before
      (((JournalInner.createdAccount before specId).markTouch.untouch
        (self.spec.isEnabledIn .spuriousDragon) address
          (JournalInner.createdAccount before specId)).uncreate before.markCreatedLocally.2) := by
  have hstatus : (createdAccount before specId).status =
      { before.status with createdLocal := true, created := true } := by
    unfold createdAccount
    split_ifs <;> rfl
  have hbalance : (createdAccount before specId).info.balance = before.info.balance := by
    unfold createdAccount
    split_ifs <;> rfl
  have hcodeHash : (createdAccount before specId).info.codeHash = before.info.codeHash := by
    unfold createdAccount
    split_ifs <;> rfl
  generalize createdAccount before specId = created at hstatus hbalance hcodeHash
  have huncreate : ∀ account : Account, (account.uncreate before.markCreatedLocally.2).status =
      { account.status with
        createdLocal := false
        created := if before.status.created then account.status.created else false } := by
    intro account
    unfold Account.uncreate Account.markCreatedLocally
    cases before.status.created <;> rfl
  have hinfo : ∀ (account : Account) (isCreatedGlobally : Bool),
      (account.uncreate isCreatedGlobally).info = { account.info with nonce := 0 } := by
    intro account isCreatedGlobally
    cases isCreatedGlobally <;> rfl
  refine ⟨?_, ?_, ?_, ?_⟩
  · rw [hinfo]
    exact hbalance.trans (BitVec.sub_zero _).symm
  · rw [hinfo]
    exact hnonce.symm
  · rw [hinfo]
    exact hcodeHash
  · rw [huncreate]
    have htouched : created.isTouched = before.isTouched := by
      unfold isTouched
      rw [hstatus]
    have hcreated : (if before.status.created then
        (created.markTouch.untouch (self.spec.isEnabledIn .spuriousDragon) address
          created).status.created else false) = before.status.created := by
      show (if before.status.created then created.status.created else false) = _
      rw [hstatus]
      cases before.status.created <;> rfl
    rw [hcreated]
    have h := AccountFlags.Restored.untouch self address before
      { before.status with createdLocal := false } rfl
    unfold Account.untouch Account.markTouch
    rw [htouched, hstatus]
    exact h

theorem createAccountCheckpoint_restores {caller target : Address} {specId : SpecId}
    (h : self.createAccountCheckpoint caller target balance specId = some (.error error, j)) :
    self.Restored (fun _ => 0) (fun a flags => if error = .overflowPayment ∧ a = target then
        { flags with createdLocal := false } else flags) j := by
  obtain ⟨before, hl, h⟩ := Option.bind_eq_some_iff.1 h
  have hl : self.state.lookup target = some before := hl
  split_ifs at h with hcollision
  · -- nothing was done
    obtain ⟨j', hj', h⟩ := Option.bind_eq_some_iff.1 h
    cases h
    have hrestored := JournalInner.Restored.of_revert hj' (List.append_nil _).symm rfl rfl rfl
      (.refl self)
    simpa using hrestored
  · obtain ⟨-, hnonce⟩ := not_or.1 hcollision
    have hnonce : before.info.nonce = 0 := not_not.1 hnonce
    cases hadd : checkedAdd before.info.balance balance with
    | some newBalance =>
      rw [hadd] at h
      obtain ⟨_, -, h⟩ := Option.bind_eq_some_iff.1 h
      obtain ⟨_, -, h⟩ := Option.bind_eq_some_iff.1 h
      cases h
    | none =>
      rw [hadd] at h
      obtain ⟨j', hj', h⟩ := Option.bind_eq_some_iff.1 h
      cases h
      rw [touchAccount_eq] at hj'
      -- the touch is taken back first, then the creation
      obtain ⟨state₁, hrevert₁, hlookup₁⟩ :=
        revert_touchEntries (createdAccount before specId)
          (AList.lookup_insert (a := target)
            (b := (createdAccount before specId).markTouch) self.state) rfl
          (some self.transientStorage) (self.spec.isEnabledIn .spuriousDragon)
      have htarget : state₁.lookup target = some ((createdAccount before specId).markTouch.untouch
            (self.spec.isEnabledIn .spuriousDragon) target
              (createdAccount before specId)) := by
        rw [hlookup₁, if_pos rfl]
      have hrevert : [JournalEntry.accountCreated target before.markCreatedLocally.2].reverse.foldlM
          (fun acc entry =>
            entry.revert acc.1 acc.2 (self.spec.isEnabledIn .spuriousDragon))
          (state₁, some self.transientStorage) =
          some (state₁.insert target
            (((createdAccount before specId).markTouch.untouch
              (self.spec.isEnabledIn .spuriousDragon) target
                (createdAccount before specId)).uncreate
                  before.markCreatedLocally.2), some self.transientStorage) := by
        show ((state₁.modify target fun a => a.uncreate _).map _ >>= fun r => some r) = _
        unfold EvmState.modify
        rw [htarget]
        rfl
      refine .of_revert hj' (List.append_assoc _ _ _) rfl rfl (revert_append hrevert₁ hrevert)
        ((EvmState.Restored.refl self).update hl (AList.lookup_insert _) (fun b hb => ?_) ?_
          fun b hb => ⟨rfl, ?_⟩)
      · rw [AList.lookup_insert_ne hb, hlookup₁, if_neg hb, AList.lookup_insert_ne hb]
      · simp only [true_and, if_true]
        exact .uncreate self target before specId hnonce
      · simp only [true_and, if_neg hb]

end

/-- What is left of a transfer or a creation that failed, after its revert. -/
theorem failedTransfer_restores (self : JournalInner) : (∀ src dst balance error j,
      self.checkpoint.2.transferLoaded src dst balance = some (some error, j) →
      ∃ j', j.checkpointRevert self.checkpoint.1 = some j' ∧
        self.Restored (fun a => if error = .overflowPayment ∧ a = src then balance else 0)
          (fun _ flags => flags) j') ∧
    ∀ caller target balance specId error j,
      self.createAccountCheckpoint caller target balance specId = some (.error error, j) →
      self.Restored (fun _ => 0) (fun a flags => if error = .overflowPayment ∧ a = target then
          { flags with createdLocal := false } else flags) j :=
  ⟨fun _ _ _ _ _ h => transferLoaded_restores self h,
    fun _ _ _ _ _ _ h => createAccountCheckpoint_restores self h⟩

/-! ## Concrete transfers -/

/-- The journal after `ops` in a new transaction over `contractDb`, in which account `1` has `5`. -/
def journalIn (spec : SpecId) (ops : List Op) : JournalInner :=
  letI := lengthKeccak
  ((run contractDb ops ⟨.new spec .new, []⟩).map (·.journal)).getD (.new spec .new)

/-- Account `1` does not have the `9` that it is to pay. -/
theorem failedTransfer_restores_outOfFunds :
    let self := journalIn .prague [.loadAccount 1, .loadAccount 2]
    ∃ j j', self.checkpoint.2.transferLoaded 1 2 9 = some (some .outOfFunds, j) ∧
      j.checkpointRevert self.checkpoint.1 = some j' ∧
      self.Restored (fun a => if TransferError.outOfFunds = .overflowPayment ∧ a = 1 then 9 else 0)
        (fun _ flags => flags) j' := by
  intro self
  have herror : (self.checkpoint.2.transferLoaded 1 2 9).map (·.1) = some (some .outOfFunds) := by
    decide +kernel
  obtain ⟨⟨error, j⟩, hj, rfl⟩ := Option.map_eq_some_iff.1 herror
  obtain ⟨j', hj', hrestored⟩ := (failedTransfer_restores self).1 1 2 9 .outOfFunds j hj
  exact ⟨j, j', hj, hj', hrestored⟩

/-- The error of a transfer, and what the journal has before it and after its revert. -/
def aroundTransfer {α : Type} (self : JournalInner) (src dst : Address) (balance : U256)
    (f : JournalInner → α) : Option (Option TransferError × α × α) := do
  let (error, j) ← self.checkpoint.2.transferLoaded src dst balance
  let j' ← j.checkpointRevert self.checkpoint.1
  return (error, f self, f j')

/-- The same around a creation, which reverts on its own. -/
def aroundCreation {α : Type} (self : JournalInner) (caller target : Address) (balance : U256)
    (specId : SpecId) (f : JournalInner → α) : Option (Option TransferError × α × α) := do
  match ← self.createAccountCheckpoint caller target balance specId with
  | (.ok _, _) => none
  | (.error error, j) => return (some error, f self, f j)

/-- A sender whose payment overflows does not get it back. The touch of `0x03` stays. A second
creation that fails takes the mark of the first one away. -/
theorem failedTransfer_leaves : let rich : Op := .account 2 false (.setBalance (BitVec.allOnes 256))
    aroundTransfer (journalIn .prague [.loadAccount 1, rich]) 1 2 3
        (fun j => (j.state.lookup 1).map (·.info.balance)) =
      some (some .overflowPayment, some 5, some 2) ∧
    aroundTransfer (journalIn .prague [.loadAccount 2, .loadAccount precompile3]) precompile3 2 1
        (fun j => (j.state.lookup precompile3).map (·.status.touched)) =
      some (some .outOfFunds, some false, some true) ∧
    aroundCreation (journalIn .homestead
        [.loadAccount 1, rich, .createAccountCheckpoint 1 2 0 .homestead]) 1 2 3 .homestead
        (fun j => (j.state.lookup 2).map (·.status.createdLocal)) =
      some (some .overflowPayment, some true, some false) := by
  refine ⟨by decide +kernel, by decide +kernel, by decide +kernel⟩

end Revm
