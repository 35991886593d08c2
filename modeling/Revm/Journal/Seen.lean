import Revm.Foundations.UndoLog
import Revm.Journal.Ops

/-!
# What the frames see of the journal

The state map of the journal holds more than a transaction can observe: accounts enter it when they
are loaded and stay in it when the load is reverted, slots likewise, and an account that was
destroyed in an earlier transaction is cleared only by its first load in the next one. `Scope.see`
removes these differences. It answers, for every address, the account as a load would find it:
an account or slot that is not in the map is what the database holds, and a cold account has the
clearing of its first load already applied.

On this view undoing an entry is a total function, `Scope.undoAccounts`, and `Scope.rule` is the
undo rule of the journal.

A `Scope` fixes what does not change during a transaction (database, spec, transaction id, warm
addresses) and what is observed of the storage: `base` is the value of a slot that is not loaded, or
`none` for a slot that is left out of the view.
-/

set_option autoImplicit false

namespace Revm

/-- A storage slot as a load would find it. -/
@[ext]
structure SeenSlot where
  present : StorageValue
  original : StorageValue
  cold : Bool

/-- An account as a load would find it. -/
@[ext]
structure SeenAccount where
  balance : U256
  nonce : U64
  codeHash : B256
  touched : Bool
  created : Bool
  createdLocal : Bool
  selfDestructed : Bool
  selfDestructedLocal : Bool
  loadedAsNotExisting : Bool
  cold : Bool
  slot : StorageKey → SeenSlot

/-- Accounts by address. -/
abbrev Seen := Address → SeenAccount

variable (v : Seen)

/-- Change the account at one address. -/
def Seen.modify (a : Address) (f : SeenAccount → SeenAccount) : Seen :=
  Function.update v a (f (v a))

namespace Seen

theorem modify_self (a : Address) (f : SeenAccount → SeenAccount) : v.modify a f a = f (v a) :=
  Function.update_self ..

theorem modify_of_ne {a b : Address} (h : b ≠ a) (f : SeenAccount → SeenAccount) :
    v.modify a f b = v b := Function.update_of_ne h ..

/-- Two changes of one account are one change. -/
theorem modify_modify (a : Address) (f g : SeenAccount → SeenAccount) :
    (v.modify a f).modify a g = v.modify a fun x => g (f x) := by
  simp [modify]

/-- A change that leaves the account as it is changes nothing. -/
theorem modify_eq_self {v : Seen} {a : Address} {f : SeenAccount → SeenAccount}
    (h : f (v a) = v a) : v.modify a f = v := by
  unfold modify
  rw [h]
  exact Function.update_eq_self a v

end Seen

namespace SeenAccount

variable (x : SeenAccount)

/-- Change one slot. -/
def modifySlot (k : StorageKey) (f : SeenSlot → SeenSlot) : SeenAccount :=
  { x with slot := Function.update x.slot k (f (x.slot k)) }

variable (amount : U256)

/-- Add to the balance. -/
def credit (x : SeenAccount) : SeenAccount :=
  { x with balance := x.balance + amount }

/-- Take from the balance. -/
def debit (x : SeenAccount) : SeenAccount :=
  { x with balance := x.balance - amount }

/-- The flags that a reverted selfdestruct of the given status takes back. -/
def undestroy : SelfdestructionRevertStatus → SeenAccount
  | .globallySelfdestroyed => { x with selfDestructed := false, selfDestructedLocal := false }
  | .locallySelfdestroyed => { x with selfDestructedLocal := false }
  | .repeatedSelfdestruction => x

/-- The account without the warmth that the accesses of a transaction leave behind. -/
def still : SeenAccount :=
  { x with cold := false, slot := fun k => { x.slot k with cold := false } }

/-- Neither nonce nor code. -/
def Codeless : Prop := x.nonce = 0 ∧ x.codeHash = keccakEmpty

/-- Balances wrap, so a debit undoes every credit. -/
@[simp]
theorem debit_credit (x : SeenAccount) : (x.credit amount).debit amount = x := by
  simp [credit, debit]

@[simp]
theorem credit_debit (x : SeenAccount) : (x.debit amount).credit amount = x := by
  simp [credit, debit]

end SeenAccount

/-- The value of a slot in the database; errors read as zero. -/
def Database.storageValue {ε : Type} (db : Database ε) (a : Address) (k : StorageKey) :
    StorageValue :=
  match db.storage a k with
  | .ok value => value
  | .error _ => 0

/-- Transient storage by account and key. -/
abbrev SeenTransient := Address × StorageKey → StorageValue

/-- What a view depends on and does not change during a transaction. -/
structure Scope (ε : Type) where
  db : Database ε
  spec : SpecId
  transactionId : Nat
  warm : WarmAddresses
  /-- The value of a slot that is not loaded; `none` leaves the slot out of the view. -/
  base : Address → StorageKey → Option StorageValue
  /-- The addresses that were not in the state when the view was taken first. -/
  fresh : Address → Prop
  /-- Accounts are created and destroyed. -/
  creates : Prop
  /-- The flag `CreatedLocal` is part of the view. Only the first transaction keeps it exactly. -/
  strict : Bool
  strict_first : strict = true → transactionId = 0

/-- `strict_first` of a scope that is not strict. -/
theorem Scope.first_of_lax (j : JournalInner) : false = true → j.transactionId = 0 := by simp

namespace Account

/-- Destroyed in an earlier transaction and not loaded since. -/
def isStale (a : Account) (transactionId : Nat) : Bool :=
  a.isColdTransactionId transactionId && a.isSelfdestructedLocally

/-- The account has this info and these flags. The touch of `0x03` is not looked at from Spurious
Dragon on. -/
structure Shows (spec : SpecId) (a : Address) (info : AccountInfo)
    (touched created selfDestructed : Bool) (acc : Account) : Prop where
  balance : acc.info.balance = info.balance
  nonce : acc.info.nonce = info.nonce
  codeHash : acc.info.codeHash = info.codeHash
  touched : ¬(spec.isEnabledIn .spuriousDragon = true ∧ a = precompile3) → acc.isTouched = touched
  created : acc.isCreated = created
  selfDestructed : acc.isSelfdestructed = selfDestructed

/-- The info that a load finds. -/
def settledInfo (a : Account) (transactionId : Nat) : AccountInfo :=
  if a.isStale transactionId then AccountInfo.default else a.info

/-- The storage that a load finds. -/
def settledStorage (a : Account) (transactionId : Nat) : EvmStorage :=
  if a.isStale transactionId then ∅ else a.storage

end Account

namespace Scope

variable {ε : Type} (c : Scope ε) (a : Address)

/-- The info of an account in the database. -/
def dbInfo : AccountInfo :=
  match c.db.basic a with
  | .ok (some info) => info
  | _ => AccountInfo.default

/-- A storage value in the database. -/
def dbStorage (k : StorageKey) : StorageValue := c.db.storageValue a k

/-- The database holds neither nonce nor code for the account. -/
def DbCodeless : Prop :=
  (c.dbInfo a).nonce = 0 ∧ (c.dbInfo a).codeHash = keccakEmpty

/-- The touch of `0x03` is never reverted after Spurious Dragon, so it is not observed. -/
def hidesTouch : Bool := c.spec.isEnabledIn .spuriousDragon && a == precompile3

def seeSlot (k : StorageKey) (slot : Option EvmStorageSlot) : SeenSlot :=
  match c.base a k with
  | none => ⟨0, 0, false⟩
  | some value =>
      slot.elim ⟨value, value, !c.warm.isStorageWarm a k⟩ fun s =>
        { present := s.presentValue
          original :=
            if s.isColdTransactionId c.transactionId then s.presentValue else s.originalValue
          cold := s.isColdTransactionId c.transactionId }

variable {c} in
/-- What is seen of a loaded slot. -/
theorem eq_of_seeSlot {a : Address} {k : StorageKey} {slot slot' : EvmStorageSlot}
    {value : StorageValue} (hbase : c.base a k = some value)
    (h : c.seeSlot a k (some slot') = c.seeSlot a k (some slot)) :
    slot'.presentValue = slot.presentValue ∧
      slot'.isColdTransactionId c.transactionId = slot.isColdTransactionId c.transactionId ∧
      (slot.isColdTransactionId c.transactionId = false →
        slot'.originalValue = slot.originalValue) := by
  simp only [seeSlot, hbase, Option.elim_some, SeenSlot.mk.injEq] at h
  obtain ⟨hpresent, horiginal, hcold⟩ := h
  refine ⟨hpresent, hcold, fun hwarm => ?_⟩
  simpa [hwarm, hcold.trans hwarm] using horiginal

/-- A loaded account. -/
def seeAccount (acc : Account) : SeenAccount where
  balance := (acc.settledInfo c.transactionId).balance
  nonce := (acc.settledInfo c.transactionId).nonce
  codeHash := (acc.settledInfo c.transactionId).codeHash
  touched := acc.isTouched && !c.hidesTouch a
  created := acc.isCreated
  createdLocal := c.strict && acc.isCreatedLocally && !acc.isColdTransactionId c.transactionId
  selfDestructed := acc.isSelfdestructed
  selfDestructedLocal :=
    acc.isSelfdestructedLocally && !acc.isColdTransactionId c.transactionId
  loadedAsNotExisting := acc.status.loadedAsNotExisting
  cold := acc.isColdTransactionId c.transactionId && c.warm.isCold a
  slot := fun k => c.seeSlot a k ((acc.settledStorage c.transactionId).lookup k)

/-- An account that is not in the state map. -/
def unloaded : SeenAccount where
  balance := (c.dbInfo a).balance
  nonce := (c.dbInfo a).nonce
  codeHash := (c.dbInfo a).codeHash
  touched := false
  created := false
  createdLocal := false
  selfDestructed := false
  selfDestructedLocal := false
  loadedAsNotExisting :=
    match c.db.basic a with
    | .ok none => true
    | _ => false
  cold := c.warm.isCold a
  slot := fun k => c.seeSlot a k none

/-- The accounts of a state map. -/
def see (s : EvmState) : Seen := fun a => (s.lookup a).elim (c.unloaded a) (c.seeAccount a)

/-- Accounts and transient storage of a journal. -/
def view (j : JournalInner) : Seen × SeenTransient :=
  (c.see j.state, fun key => (j.transientStorage.lookup key).getD 0)

/-! ## Undoing entries on the view -/

/-- A slot outside the view is left alone. -/
def modifySlot (v : Seen) (a : Address) (k : StorageKey) (f : SeenSlot → SeenSlot) : Seen :=
  match c.base a k with
  | none => v
  | some _ => v.modify a fun x => x.modifySlot k f

variable {c} in
/-- Two changes of one slot are one change. -/
theorem modifySlot_modifySlot (v : Seen) (a : Address) (k : StorageKey)
    (f g : SeenSlot → SeenSlot) :
    c.modifySlot (c.modifySlot v a k f) a k g = c.modifySlot v a k fun s => g (f s) := by
  unfold modifySlot
  cases c.base a k with
  | none => rfl
  | some value =>
    simp only [Seen.modify_modify, SeenAccount.modifySlot, Function.update_self,
      Function.update_idem]

variable {c} in
/-- Slots without a base are not seen, so only backed ones count. -/
theorem modifySlot_eq_self {v : Seen} {a : Address} {k : StorageKey} {f : SeenSlot → SeenSlot}
    (h : c.base a k ≠ none → f ((v a).slot k) = (v a).slot k) : c.modifySlot v a k f = v := by
  unfold modifySlot
  cases hb : c.base a k with
  | none => rfl
  | some value =>
    refine Seen.modify_eq_self ?_
    rw [SeenAccount.modifySlot, h (by rw [hb]; exact Option.some_ne_none value),
      Function.update_eq_self]

variable (e : JournalEntry)

/-- What undoing an entry does to the accounts. -/
def undoAccounts (v : Seen) : Seen :=
  match e with
  | .accountWarmed a => v.modify a fun x => { x with cold := c.warm.isCold a }
  | .accountTouched a => v.modify a fun x => { x with touched := false }
  | .accountDestroyed had a target status =>
      let v := v.modify a fun x => (x.undestroy status).credit had
      if a ≠ target then v.modify target (SeenAccount.debit had) else v
  | .balanceChange old a => v.modify a fun x => { x with balance := old }
  | .balanceTransfer amount src dst =>
      (v.modify src (SeenAccount.credit amount)).modify dst (SeenAccount.debit amount)
  | .nonceChange a => v.modify a fun x => { x with nonce := x.nonce - 1 }
  | .accountCreated a isCreatedGlobally =>
      v.modify a fun x =>
        { x with
          createdLocal := false
          created := if isCreatedGlobally then false else x.created
          nonce := 0 }
  | .storageChanged k had a => c.modifySlot v a k fun s => { s with present := had }
  | .storageWarmed k a => c.modifySlot v a k fun s => { s with cold := true }
  | .transientStorageChange .. => v
  | .codeChange a => v.modify a fun x => { x with codeHash := keccakEmpty }

/-- What undoing an entry does to the transient storage. -/
def undoTransient (t : SeenTransient) : SeenTransient :=
  match e with
  | .transientStorageChange k had a => Function.update t (a, k) had
  | _ => t

/-- When the code's revert of an entry does what the view says. -/
def Undoable (v : Seen) : Prop :=
  match e with
  | .accountWarmed a =>
      (v a).createdLocal = false ∧ (v a).selfDestructedLocal = false ∧ c.warm.isCold a = true
  | .accountCreated .. => c.creates
  | .storageChanged k _ a => c.base a k ≠ none → ((v a).slot k).cold = false
  | .storageWarmed k a => c.base a k ≠ none → ((v a).slot k).original = ((v a).slot k).present
  | _ => True

/-- The undo rule of the accounts. -/
def accountRule : UndoRule JournalEntry Seen := ⟨c.Undoable, c.undoAccounts⟩

/-- The undo rule of the transient storage. -/
def transientRule : UndoRule JournalEntry SeenTransient := ⟨fun _ _ => True, undoTransient⟩

/-- The undo rule of the journal. -/
def rule : UndoRule JournalEntry (Seen × SeenTransient) := c.accountRule.prod transientRule

end Scope

end Revm
