import Revm.Bal.History
import Revm.Bal.Merge

/-!
# Lists of single transactions

A block access list can be built by adding the outputs of the transactions to one list, or by making
a list of each output and merging the lists under their indices. The first way compares a value with
the last recorded write, the second with the original value of the output. If the outputs start from
the values that the outputs before them leave (`BlockValues.Consistent`), both are the same: an
update is the merge of the list that has this update alone (`Bal.update_same_append`).

The list does not record that a destroyed account loses its storage. A slot that was written before
is then stale: its last recorded write is not its value (`NoStaleSlot`).
-/

set_option autoImplicit false

namespace Revm

open AccountBal StorageBal BalWrites

variable {x y z : Bal} {address : Address} {account : Account} {changes : EvmState}
  {bal : Bal × Nat} {destroyed : Bool} {i : Nat}

/-! ## The same lists -/

/-- The same writes of every item, and the same slots. -/
structure AccountBal.Same (x y : AccountBal) : Prop where
  accountInfo : x.accountInfo = y.accountInfo
  storage : ∀ key, x.storage.storage.lookup key = y.storage.storage.lookup key

/-- The same accounts, account by account. -/
def Bal.Same (x y : Bal) : Prop :=
  ∀ address, ((x.accounts.lookup address).isSome = (y.accounts.lookup address).isSome) ∧
    (x.account address).Same (y.account address)

/-- The two lists have the same writes of an account. -/
def Bal.SameAt (x y : Bal) (address : Address) : Prop :=
  ((x.accounts.lookup address).isSome = (y.accounts.lookup address).isSome) ∧
    (x.account address).Same (y.account address)

theorem Bal.SameAt.symm (h : x.SameAt y address) : y.SameAt x address :=
  ⟨h.1.symm, h.2.accountInfo.symm, fun key => (h.2.storage key).symm⟩

theorem Bal.SameAt.trans (h : x.SameAt y address) (h' : y.SameAt z address) : x.SameAt z address :=
  ⟨h.1.trans h'.1, h.2.accountInfo.trans h'.2.accountInfo,
    fun key => (h.2.storage key).trans (h'.2.storage key)⟩

theorem Bal.Same.trans (hxy : x.Same y) (hyz : y.Same z) : x.Same z :=
  fun address => SameAt.trans (hxy address) (hyz address)

theorem Bal.Same.symm (h : x.Same y) : y.Same x := fun address => SameAt.symm (h address)

theorem AccountBal.Same.append {x y : AccountBal} (h : x.Same y) (other : AccountBal)
    (tag : Nat → Nat) : (x.append other tag).Same (y.append other tag) where
  accountInfo := congrArg (·.append other.accountInfo tag) h.accountInfo
  storage := by
    intro key
    unfold AccountBal.append
    rw [lookup_append, lookup_append]
    unfold StorageBal.writes
    rw [h.storage key]

theorem Bal.account_append (self other : Bal) (tag : Nat → Nat) (address : Address) :
    (self.append other tag).account address =
      (other.accounts.lookup address).elim (self.account address) fun otherAccount =>
        (self.account address).append otherAccount tag := by
  unfold Bal.account
  rw [lookup_append]
  cases other.accounts.lookup address <;> rfl

theorem Bal.isSome_append (self other : Bal) (tag : Nat → Nat) (address : Address) :
    ((self.append other tag).accounts.lookup address).isSome =
      ((other.accounts.lookup address).isSome || (self.accounts.lookup address).isSome) := by
  rw [lookup_append]
  cases other.accounts.lookup address <;> rfl

theorem Bal.Same.append (h : x.Same y) (other : Bal) (tag : Nat → Nat) :
    (x.append other tag).Same (y.append other tag) := by
  intro address
  obtain ⟨hsome, haccount⟩ := h address
  refine ⟨by rw [isSome_append, isSome_append, hsome], ?_⟩
  rw [account_append, account_append]
  cases other.accounts.lookup address with
  | none => exact haccount
  | some otherAccount => exact haccount.append otherAccount tag

/-! ## An update is a merge -/

section Update

variable {T K : Type} [DecidableEq K] {self : BalWrites T} {original : K} {f : T → K}

/-- If the last recorded write is the original value, an update appends what it records in an empty
list. -/
theorem BalWrites.updateWithKey_eq_append (hbelow : self.Below i)
    (hlast : ∀ write, self.last = some write → f write = original) (value : T) :
    self.updateWithKey i original value f =
      self.append (BalWrites.default.updateWithKey i original value f) fun _ => i := by
  have horiginal : (self.last.map f).getD original = original := by
    cases hcase : self.last with
    | none => rfl
    | some write => exact hlast write hcase
  rw [updateWithKey_of_below hbelow, updateWithKey_of_below (below_default i), horiginal]
  show _ = self.append (if original = f value then _ else _) _
  split_ifs
  · exact (append_default _ self).symm
  · rfl

/-- After an update the last recorded write is the new value. -/
theorem BalWrites.last_updateWithKey (hbelow : self.Below i) (value : T) {write : T}
    (h : (self.updateWithKey i original value f).last = some write) : f write = f value := by
  rw [updateWithKey_of_below hbelow] at h
  split_ifs at h with heq
  · rw [h] at heq
    exact heq
  · rw [last, List.getLast?_concat] at h
    cases h
    rfl

end Update

/-- The last recorded nonce, balance and code hash are the ones of an account. -/
structure AccountInfoBal.Records (bal : AccountInfoBal) (n : U64) (b : U256) (c : B256) : Prop where
  nonce : ∀ write, bal.nonce.last = some write → write = n
  balance : ∀ write, bal.balance.last = some write → write = b
  code : ∀ write, bal.code.last = some write → write.1 = c

theorem AccountInfoBal.update_eq_append {self : AccountInfoBal} {original : AccountInfo}
    (hbelow : self.Below i) (h : self.Records original.nonce original.balance original.codeHash)
    (present : AccountInfo) : self.update i original present =
      self.append (AccountInfoBal.default.update i original present) fun _ => i := by
  unfold update append BalWrites.update
  rw [updateWithKey_eq_append (f := id) hbelow.nonce h.nonce,
    updateWithKey_eq_append (f := id) hbelow.balance h.balance,
    updateWithKey_eq_append hbelow.code h.code]
  rfl

theorem AccountInfoBal.records_update {self : AccountInfoBal}
    (original present : AccountInfo) (hbelow : self.Below i) :
    (self.update i original present).Records present.nonce present.balance present.codeHash where
  nonce _ hlast := BalWrites.last_updateWithKey hbelow.nonce _ hlast
  balance _ hlast := BalWrites.last_updateWithKey hbelow.balance _ hlast
  code _ hlast := last_updateWithKey hbelow.code (present.codeHash, _) hlast

/-- The slots that an output writes have their original value as the last recorded write. -/
def AccountBal.SlotsFresh (self : AccountBal) (account : Account) : Prop :=
  account.isSelfdestructedLocally = false → ∀ key slot, account.storage.lookup key = some slot →
    ∀ write, (self.storage.writes key).last = some write → write = slot.originalValue

theorem AccountBal.update_same_append {self : AccountBal}
    (hinfo : self.accountInfo.Below i) (hstorage : self.storage.Below i)
    (hrecords : self.accountInfo.Records account.originalInfo.nonce account.originalInfo.balance
      account.originalInfo.codeHash) (hfresh : self.SlotsFresh account) :
    (self.update i account).Same (self.append (AccountBal.default.update i account)
      fun _ => i) where
  accountInfo := by
    show _ = self.accountInfo.append (default.update i account).accountInfo _
    rw [accountInfo_update, accountInfo_update]
    exact AccountInfoBal.update_eq_append hinfo hrecords _
  storage := by
    intro key
    show _ = (self.storage.append (default.update i account).storage _).storage.lookup key
    unfold update
    rw [lookup_append]
    split_ifs with hdestroyed
    · -- the slots of a destroyed account are only read
      rw [lookup_updateReads, lookup_updateReads]
      cases account.storage.lookup key with
      | none => rfl
      | some slot => exact congrArg some (append_default _ _).symm
    · dsimp only
      rw [lookup_update, lookup_update]
      cases hslot : account.storage.lookup key with
      | none => rfl
      | some slot =>
        exact congrArg some (updateWithKey_eq_append (below_iff.1 hstorage key)
          (hfresh (Bool.eq_false_iff.2 hdestroyed) key slot hslot) slot.presentValue)

theorem Bal.account_update (self : Bal) (i : Nat) (changes : EvmState) (address : Address) :
    (self.update i changes).account address =
      (changes.lookup address).elim (self.account address) fun account =>
        (self.account address).update i account := by
  unfold Bal.account
  rw [lookup_update]
  cases changes.lookup address <;> rfl

/-- An output can be added to a list, or its own list can be merged. -/
theorem Bal.update_same_append {self : Bal}
    (hbelow : ∀ address, (self.account address).accountInfo.Below i ∧
      (self.account address).storage.Below i)
    (hrecords : ∀ address account, changes.lookup address = some account →
      (self.account address).accountInfo.Records account.originalInfo.nonce
        account.originalInfo.balance
        account.originalInfo.codeHash)
    (hfresh : ∀ address account, changes.lookup address = some account →
      (self.account address).SlotsFresh account) :
    (self.update i changes).Same (self.mergeBal (Bal.new.update i changes) i) := by
  intro address
  have hnew : (Bal.new.update i changes).accounts.lookup address =
      (changes.lookup address).elim none fun account => some (default.update i account) :=
    lookup_update .new i changes address
  unfold mergeBal
  rw [isSome_append, account_append, account_update, lookup_update, hnew]
  cases hlookup : changes.lookup address with
  | none => exact ⟨rfl, rfl, fun _ => rfl⟩
  | some account =>
    exact ⟨rfl, AccountBal.update_same_append (hbelow address).1 (hbelow address).2
      (hrecords address account hlookup) (hfresh address account hlookup)⟩

/-! ## Values of a block -/

/-- What the transactions of a block start from: the fields of the accounts and the slots. -/
structure BlockValues where
  nonce : Address → U64
  balance : Address → U256
  codeHash : Address → B256
  slot : Address → StorageKey → StorageValue

namespace BlockValues

variable (self : BlockValues)

/-- The values after an output. An account that is destroyed is empty and has no storage. -/
def after (changes : EvmState) : BlockValues where
  nonce address := (changes.lookup address).elim (self.nonce address) fun account =>
    if account.isSelfdestructedLocally then 0 else account.info.nonce
  balance address := (changes.lookup address).elim (self.balance address) fun account =>
    if account.isSelfdestructedLocally then 0 else account.info.balance
  codeHash address := (changes.lookup address).elim (self.codeHash address) fun account =>
    if account.isSelfdestructedLocally then keccakEmpty else account.info.codeHash
  slot address key := (changes.lookup address).elim (self.slot address key) fun account =>
    if account.isSelfdestructedLocally then 0
    else ((account.storage.lookup key).map (·.presentValue)).getD (self.slot address key)

/-- The values after some outputs. -/
def afterAll (states : List EvmState) : BlockValues := states.foldl after self

/-- An output starts from these values. -/
def Consistent (changes : EvmState) : Prop :=
  ∀ address account, changes.lookup address = some account →
    account.originalInfo.nonce = self.nonce address ∧
      account.originalInfo.balance = self.balance address ∧
      account.originalInfo.codeHash = self.codeHash address ∧
      ∀ key slot, account.storage.lookup key = some slot →
        slot.originalValue = self.slot address key

end BlockValues

variable (states : List EvmState)

/-- `update_account` for the outputs of the transactions `1`, `2` and so on, with the next index. -/
def sequentialBal : Bal × Nat :=
  states.foldl (fun bal changes => (bal.1.update bal.2 changes, bal.2 + 1)) (.new, 1)

/-- A list of each output, merged in the order of the transactions, with the next index. -/
def mergedBal : Bal × Nat :=
  states.foldl (fun bal changes => (bal.1.mergeBal (Bal.new.update bal.2 changes) bal.2, bal.2 + 1))
    (.new, 1)

/-- No slot of an output has a last recorded write that is not its value, accounts that the output
destroys apart. -/
def NoStaleSlot (bal : Bal) (values : BlockValues) (changes : EvmState) : Prop :=
  ∀ address account, changes.lookup address = some account →
    account.isSelfdestructedLocally = false → ∀ key, (account.storage.lookup key).isSome →
      ∀ write, ((bal.account address).storage.writes key).last = some write →
        write = values.slot address key

/-- What one list of a block says of the values after it. -/
structure RecordsBlock (bal : Bal × Nat) (values : BlockValues) : Prop where
  below : ∀ address, (bal.1.account address).accountInfo.Below bal.2 ∧
    (bal.1.account address).storage.Below bal.2
  records : ∀ address, (bal.1.account address).accountInfo.Records (values.nonce address)
    (values.balance address) (values.codeHash address)

theorem sequentialBal_concat (changes : EvmState) :
    sequentialBal (states ++ [changes]) =
      ((sequentialBal states).1.update (sequentialBal states).2 changes,
        (sequentialBal states).2 + 1) :=
  List.foldl_concat ..

theorem mergedBal_concat (changes : EvmState) :
    mergedBal (states ++ [changes]) =
      ((mergedBal states).1.mergeBal (Bal.new.update (mergedBal states).2 changes)
        (mergedBal states).2, (mergedBal states).2 + 1) :=
  List.foldl_concat ..

variable (values : BlockValues)

theorem BlockValues.afterAll_concat (states : List EvmState) (changes : EvmState) :
    values.afterAll (states ++ [changes]) = (values.afterAll states).after changes :=
  List.foldl_concat ..

/-- One output, added to the list. -/
theorem RecordsBlock.update {values : BlockValues} (h : RecordsBlock bal values)
    (changes : EvmState) :
    RecordsBlock (bal.1.update bal.2 changes, bal.2 + 1) (values.after changes) := by
  have hstep : ∀ address,
      ((bal.1.update bal.2 changes).account address).accountInfo.Below (bal.2 + 1) ∧
        ((bal.1.update bal.2 changes).account address).storage.Below (bal.2 + 1) ∧
        ((bal.1.update bal.2 changes).account address).accountInfo.Records
          ((values.after changes).nonce address) ((values.after changes).balance address)
          ((values.after changes).codeHash address) := by
    intro address
    obtain ⟨hinfo, hstorage⟩ := h.below address
    rw [Bal.account_update]
    unfold BlockValues.after
    dsimp only
    cases changes.lookup address with
    | none =>
      exact ⟨⟨hinfo.nonce.mono (Nat.le_succ _), hinfo.balance.mono (Nat.le_succ _),
        hinfo.code.mono (Nat.le_succ _)⟩,
        fun key writes hwrites => (hstorage key writes hwrites).mono (Nat.le_succ _),
        h.records address⟩
    | some account =>
      dsimp only [Option.elim_some]
      rw [accountInfo_update]
      refine ⟨AccountInfoBal.below_update hinfo, ?_, ?_⟩
      · unfold AccountBal.update
        split_ifs
        · rw [below_iff]
          intro key
          rw [writes_updateReads]
          exact (below_iff.1 hstorage key).mono (Nat.le_succ _)
        · exact below_update hstorage
      · have hrecords := AccountInfoBal.records_update account.originalInfo account.recorded hinfo
        unfold Account.recorded at hrecords ⊢
        split_ifs at hrecords ⊢ <;> exact hrecords
  exact ⟨fun address => ⟨(hstep address).1, (hstep address).2.1⟩,
    fun address => (hstep address).2.2⟩

theorem recordsBlock_sequentialBal (states : List EvmState) :
    RecordsBlock (sequentialBal states) (values.afterAll states) := by
  induction states using List.reverseRec with
  | nil =>
    refine ⟨fun address => ⟨⟨?_, ?_, ?_⟩, fun key writes hwrites => (nomatch hwrites)⟩,
      fun address => ?_⟩
    · exact below_default 1
    · exact below_default 1
    · exact below_default 1
    · exact ⟨fun write hwrite => (nomatch hwrite), fun write hwrite => (nomatch hwrite),
        fun write hwrite => (nomatch hwrite)⟩
  | append_singleton states changes ih =>
    rw [sequentialBal_concat, BlockValues.afterAll_concat]
    exact ih.update changes

/-! ## Stale slots -/

/-- The recorded writes of an account that is destroyed end in zero. -/
def DestroysCleared (bal : Bal) (changes : EvmState) : Prop :=
  ∀ address account, changes.lookup address = some account →
    account.isSelfdestructedLocally = true →
    ∀ key write, ((bal.account address).storage.writes key).last = some write → write = 0

/-- The last recorded write of every slot is its value. -/
def SlotsRecorded (bal : Bal) (values : BlockValues) : Prop :=
  ∀ address key write, ((bal.account address).storage.writes key).last = some write →
    write = values.slot address key

theorem SlotsRecorded.update {values : BlockValues} (h : SlotsRecorded bal.1 values)
    (hbelow : ∀ address, (bal.1.account address).storage.Below bal.2)
    (hcleared : DestroysCleared bal.1 changes) :
    SlotsRecorded (bal.1.update bal.2 changes) (values.after changes) := by
  intro address key write hwrite
  rw [Bal.account_update] at hwrite
  unfold BlockValues.after
  dsimp only
  cases hlookup : changes.lookup address with
  | none =>
    rw [hlookup] at hwrite
    exact h address key write hwrite
  | some account =>
    rw [hlookup] at hwrite
    dsimp only [Option.elim_some] at hwrite ⊢
    unfold AccountBal.update at hwrite
    split_ifs at hwrite ⊢ with hdestroyed
    · dsimp only at hwrite
      rw [writes_updateReads] at hwrite
      exact hcleared address account hlookup hdestroyed key write hwrite
    · dsimp only at hwrite
      rw [writes_update] at hwrite
      cases hslot : account.storage.lookup key with
      | none =>
        rw [hslot] at hwrite
        exact h address key write hwrite
      | some slot =>
        rw [hslot] at hwrite
        exact last_updateWithKey (f := id) (below_iff.1 (hbelow address) key) _ hwrite

/-- A slot gets stale only by the destruction of an account with a recorded write that is not
zero. -/
theorem noStaleSlot_of_destroysCleared (states : List EvmState)
    (hcleared : Along (fun past changes => DestroysCleared (sequentialBal past).1 changes) states) :
    Along (fun past changes => NoStaleSlot (sequentialBal past).1 (values.afterAll past) changes)
      states := by
  suffices h : SlotsRecorded (sequentialBal states).1 (values.afterAll states) ∧
      Along (fun past changes =>
      NoStaleSlot (sequentialBal past).1 (values.afterAll past) changes) states from h.2
  induction states using List.reverseRec with
  | nil => exact ⟨fun address key write hwrite => (nomatch hwrite), Along.nil⟩
  | append_singleton states changes ih =>
    obtain ⟨hpast, hchanges⟩ := hcleared.of_concat
    obtain ⟨hrecorded, hfresh⟩ := ih hpast
    refine ⟨?_, hfresh.concat fun address account _ _ key _ write hwrite =>
      hrecorded address key write hwrite⟩
    rw [sequentialBal_concat, BlockValues.afterAll_concat]
    exact hrecorded.update (fun address => ((recordsBlock_sequentialBal values states).below
      address).2)
      hchanges

/-! ## The block -/

/-- Merging the lists of the transactions gives the list of the block, account by account, if every
output starts from the values after the outputs before it and writes no stale slot. -/
theorem mergedBal_same (values : BlockValues) (states : List EvmState)
    (hconsistent : Along (fun past changes => (values.afterAll past).Consistent changes) states)
    (hfresh : Along (fun past changes =>
      NoStaleSlot (sequentialBal past).1 (values.afterAll past) changes) states) :
    (mergedBal states).1.Same (sequentialBal states).1 := by
  suffices h : (mergedBal states).2 = (sequentialBal states).2 ∧
      (mergedBal states).1.Same (sequentialBal states).1 from h.2
  induction states using List.reverseRec with
  | nil => exact ⟨rfl, fun address => ⟨rfl, rfl, fun _ => rfl⟩⟩
  | append_singleton states changes ih =>
    obtain ⟨hconsistent, hchanges⟩ := hconsistent.of_concat
    obtain ⟨hfresh, hslots⟩ := hfresh.of_concat
    obtain ⟨hindex, hsame⟩ := ih hconsistent hfresh
    have hrecords := recordsBlock_sequentialBal values states
    rw [mergedBal_concat, sequentialBal_concat, hindex]
    refine ⟨rfl, (hsame.append _ _).trans (Bal.update_same_append hrecords.below ?_ ?_).symm⟩
    · intro address account hlookup
      obtain ⟨hnonce, hbalance, hcodeHash, -⟩ := hchanges address account hlookup
      rw [hnonce, hbalance, hcodeHash]
      exact hrecords.records address
    · intro address account hlookup halive key slot hslot write hwrite
      obtain ⟨-, -, -, hstorage⟩ := hchanges address account hlookup
      rw [hstorage key slot hslot]
      exact hslots address account hlookup halive key (by rw [hslot]; rfl) write hwrite

/-- An output of the account `1` with the slot `1`. -/
def slotOutput (original present : StorageValue) (destroyed : Bool) : EvmState :=
  (∅ : EvmState).insert 1 ⟨.default, .default, 0,
    (∅ : EvmStorage).insert 1 ⟨original, present, 0, false⟩,
    { AccountFlags.empty with selfDestructedLocal := destroyed }⟩

/-- Empty accounts without storage. -/
def emptyValues : BlockValues := ⟨fun _ => 0, fun _ => 0, fun _ => keccakEmpty, fun _ _ => 0⟩

theorem lookup_slotOutput {original present : StorageValue}
    (h : (slotOutput original present destroyed).lookup address = some account) :
    address = 1 ∧ account = ⟨.default, .default, 0,
      (∅ : EvmStorage).insert 1 ⟨original, present, 0, false⟩,
      { AccountFlags.empty with selfDestructedLocal := destroyed }⟩ :=
  HashMap.lookup_singleton h

theorem consistent_slotOutput {values : BlockValues} {original present : StorageValue}
    (hinfo : values.nonce 1 = 0 ∧ values.balance 1 = 0 ∧ values.codeHash 1 = keccakEmpty)
    (hslot : values.slot 1 1 = original) :
    values.Consistent (slotOutput original present destroyed) := by
  intro address account hlookup
  obtain ⟨rfl, rfl⟩ := lookup_slotOutput hlookup
  refine ⟨hinfo.1.symm, hinfo.2.1.symm, hinfo.2.2.symm, fun key slot hkey => ?_⟩
  obtain ⟨rfl, rfl⟩ := HashMap.lookup_singleton hkey
  exact hslot.symm

theorem destroysCleared_slotOutput {bal : Bal} {original present : StorageValue}
    (h : destroyed = true → ∀ key write, ((bal.account 1).storage.writes key).last = some write →
      write = 0) : DestroysCleared bal (slotOutput original present destroyed) := by
  intro address account hlookup hdestroyed
  obtain ⟨rfl, rfl⟩ := lookup_slotOutput hlookup
  exact h hdestroyed

/-- An account that is destroyed in the first transaction and whose slot is then set back and
forth. -/
theorem mergedBal_same_setBack :
    ((mergedBal [slotOutput 0 9 true, slotOutput 0 5 false, slotOutput 5 0 false,
        slotOutput 0 7 false]).1.account 1).writesOf (.slot 1) = ⟨[(2, 5), (3, 0), (4, 7)]⟩ ∧
      (mergedBal [slotOutput 0 9 true, slotOutput 0 5 false, slotOutput 5 0 false,
        slotOutput 0 7 false]).1.Same
        (sequentialBal [slotOutput 0 9 true, slotOutput 0 5 false, slotOutput 5 0 false,
          slotOutput 0 7 false]).1 := by
  refine ⟨by decide +kernel, mergedBal_same emptyValues _ ?_
    (noStaleSlot_of_destroysCleared _ _ ?_)⟩
  · refine (((Along.nil.concat ?_).concat ?_).concat ?_).concat ?_
    all_goals exact consistent_slotOutput (by decide +kernel) (by decide +kernel)
  · refine (((Along.nil.concat ?_).concat ?_).concat ?_).concat ?_
    · exact destroysCleared_slotOutput fun _ key write hwrite => by cases hwrite
    all_goals exact destroysCleared_slotOutput fun h => by cases h

/-- A slot that is written, lost with its account and written again: one list has the second write,
the other one has not. -/
theorem mergedBal_differs :
    Along (fun past changes => (emptyValues.afterAll past).Consistent changes)
        [slotOutput 0 5 false, slotOutput 5 5 true, slotOutput 0 5 false] ∧
      ((mergedBal [slotOutput 0 5 false, slotOutput 5 5 true, slotOutput 0 5 false]).1.account
        1).writesOf
        (.slot 1) = ⟨[(1, 5), (3, 5)]⟩ ∧
      ((sequentialBal [slotOutput 0 5 false, slotOutput 5 5 true, slotOutput 0 5 false]).1.account
        1).writesOf (.slot 1) = ⟨[(1, 5)]⟩ := by
  refine ⟨((Along.nil.concat ?_).concat ?_).concat ?_, by decide +kernel, by decide +kernel⟩
  all_goals exact consistent_slotOutput (by decide +kernel) (by decide +kernel)

end Revm
