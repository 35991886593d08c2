import Revm.Journal.Codes

/-!
# Reads of the journal

A load of an account or a slot writes to the state map: it adds what the database answers, it marks
what was cold as warm and it loads missing code. `Account.Read` says that an account holds the same
content as before, apart from that. `JournalInner.Origin` lists the accounts that a read can start
from: those of the state at the start, those that an earlier transaction has destroyed and that
their first load clears, and those of the database.

`JournalInner.ReadOnly` is the invariant of a part of a run that only reads. Its journal entries are
about warmth and touches only, so it survives the revert of every checkpoint made in that part
(`ReadOnly.checkpointRevert`). What it says about the content is `JournalInner.Unchanged`.
-/

set_option autoImplicit false

namespace Revm

open Option JournalInner

variable {ε : Type} {code : Bytecode} {key : StorageKey} {e : JournalEntry} {sd : Bool}
  {account : Account}

section Defs

variable (db : Database ε)

/-- `after` has the content of `before`. Code and slots that were not loaded are those of the
database; the database is not asked for the slots of a created account. -/
structure Account.Read (address : Address) (before after : Account) : Prop where
  balance : after.info.balance = before.info.balance
  nonce : after.info.nonce = before.info.nonce
  codeHash : after.info.codeHash = before.info.codeHash
  code : ∀ code, before.info.code = some code → after.info.code = some code
  loadedCode : ∀ code, after.info.code = some code → db.accountCode before.info = some code
  created : after.status.created = before.status.created
  selfDestructed : after.status.selfDestructed = before.status.selfDestructed
  selfDestructedLocal : after.status.selfDestructedLocal = before.status.selfDestructedLocal
  createdLocal : after.status.createdLocal = true → before.status.createdLocal = true
  slot : ∀ key slot, before.storage.lookup key = some slot →
    ∃ slot', after.storage.lookup key = some slot' ∧ slot'.presentValue = slot.presentValue
  loadedSlot : ∀ key slot, before.storage.lookup key = none →
    after.storage.lookup key = some slot →
      if before.status.created then slot.presentValue = 0
      else db.storage address key = .ok slot.presentValue

namespace JournalInner

/-- The account was destroyed and not loaded since: its next load clears it. -/
def ClearsOnLoad (start : JournalInner) (account : Account) : Prop :=
  account.isColdTransactionId start.transactionId = true ∧
    account.isSelfdestructedLocally = true

/-- What a part of a run that starts from `start` has for the account when it does not change it. -/
inductive Origin (start : JournalInner) (address : Address) : Account → Prop where
  | kept {account : Account} (h : start.state.lookup address = some account) :
      Origin start address account
  | cleared {account : Account} (h : start.state.lookup address = some account)
      (hclears : start.ClearsOnLoad account) :
      Origin start address account.selfdestruct.unmarkSelfdestructedLocally
  | loaded {info : Option AccountInfo} (h : start.state.lookup address = none)
      (hbasic : db.basic address = .ok info) :
      Origin start address (Account.ofInfo (info.getD .default))

/-- The account has been read only since `start`. An account that was warm stays warm. -/
structure Reads (start : JournalInner) (address : Address) (account' : Account) : Prop where
  origin : ∃ account, Origin db start address account ∧ account.Read db address account'
  warm : ∀ account, start.state.lookup address = some account →
    account.isColdTransactionId start.transactionId = false →
      account'.isColdTransactionId start.transactionId = false ∧
        account'.status.createdLocal = account.status.createdLocal

/-- The accounts of the state have been read only since `start`. -/
structure StateReads (start : JournalInner) (state : EvmState) : Prop where
  loaded : ∀ address, start.state.lookup address ≠ none → state.lookup address ≠ none
  reads : ∀ address account, state.lookup address = some account → Reads db start address account

end JournalInner

/-- The entries that a read or a touch leaves. An account that was warm at the start is not warmed
again. -/
def JournalEntry.OnlyRead (start : JournalInner) : JournalEntry → Prop
  | accountWarmed address =>
      ∀ account, start.state.lookup address = some account →
        account.isColdTransactionId start.transactionId = true
  | accountTouched _ => True
  | storageWarmed _ _ => True
  | _ => False

namespace JournalInner

/-- The journal has been read only since `start`. -/
structure ReadOnly (start j : JournalInner) : Prop where
  transactionId : j.transactionId = start.transactionId
  transientStorage : j.transientStorage = start.transientStorage
  logs : j.logs = start.logs
  entries : ∃ entries, j.journal = start.journal ++ entries ∧ ∀ e ∈ entries, e.OnlyRead start
  state : StateReads db start j.state

/-- The content of the journal is the same: only warmth and touches may differ. New accounts are
those of the database. -/
structure Unchanged (before after : JournalInner) : Prop where
  transientStorage : after.transientStorage = before.transientStorage
  logs : after.logs = before.logs
  account : ∀ address account, before.state.lookup address = some account →
    ∃ account', after.state.lookup address = some account' ∧
      (account.Read db address account' ∨
        before.ClearsOnLoad account ∧
          account.selfdestruct.unmarkSelfdestructedLocally.Read db address account') ∧
      (account.isColdTransactionId before.transactionId = false →
        account'.status.createdLocal = account.status.createdLocal)
  loaded : ∀ address account', before.state.lookup address = none →
    after.state.lookup address = some account' →
      ∃ info, db.basic address = .ok info ∧
        (Account.ofInfo (info.getD .default)).Read db address account'

end JournalInner

end Defs

variable {db : Database ε}

/-! ## One account -/

namespace Account.Read

variable {a : Address} {x y z : Account}

theorem accountCode_eq (h : x.Read db a y)
    (hcode : db.accountCode y.info = some code) : db.accountCode x.info = some code := by
  cases hy : y.info.code with
  | some code' =>
    unfold Database.accountCode at hcode
    rw [hy] at hcode
    rw [← hcode]
    exact h.loadedCode code' hy
  | none =>
    -- what is not loaded afterwards was not loaded before, and the hash is the same
    have hx : x.info.code = none := by
      rw [eq_none_iff_forall_not_mem]
      intro code' hx
      rw [h.code code' hx] at hy
      cases hy
    unfold Database.accountCode at hcode ⊢
    rw [hy, h.codeHash] at hcode
    rw [hx]
    exact hcode

/-- Only the cold, touched and existence flags and the originals differ. -/
theorem of_same (hinfo : y.info = x.info) (hstorage : y.storage = x.storage)
    (hcreated : y.status.created = x.status.created)
    (hdestroyed : y.status.selfDestructed = x.status.selfDestructed)
    (hlocal : y.status.selfDestructedLocal = x.status.selfDestructedLocal)
    (hcreatedLocal : y.status.createdLocal = true → x.status.createdLocal = true) :
    x.Read db a y where
  balance := by rw [hinfo]
  nonce := by rw [hinfo]
  codeHash := by rw [hinfo]
  code _ h := by rw [hinfo, h]
  loadedCode code h := by
    rw [hinfo] at h
    unfold Database.accountCode
    rw [h]
  created := hcreated
  selfDestructed := hdestroyed
  selfDestructedLocal := hlocal
  createdLocal := hcreatedLocal
  slot key slot h := ⟨slot, by rw [hstorage, h], rfl⟩
  loadedSlot key slot h h' := by
    rw [hstorage, h] at h'
    cases h'

theorem refl (a : Address) (x : Account) : x.Read db a x :=
  of_same rfl rfl rfl rfl rfl fun h => h

theorem trans (h : x.Read db a y) (h' : y.Read db a z) : x.Read db a z where
  balance := h'.balance.trans h.balance
  nonce := h'.nonce.trans h.nonce
  codeHash := h'.codeHash.trans h.codeHash
  code code hx := h'.code code (h.code code hx)
  loadedCode code hz := h.accountCode_eq (h'.loadedCode code hz)
  created := h'.created.trans h.created
  selfDestructed := h'.selfDestructed.trans h.selfDestructed
  selfDestructedLocal := h'.selfDestructedLocal.trans h.selfDestructedLocal
  createdLocal hz := h.createdLocal (h'.createdLocal hz)
  slot key slot hx := by
    obtain ⟨slot', hy, hvalue⟩ := h.slot key slot hx
    obtain ⟨slot'', hz, hvalue'⟩ := h'.slot key slot' hy
    exact ⟨slot'', hz, hvalue'.trans hvalue⟩
  loadedSlot key slot hx hz := by
    cases hy : y.storage.lookup key with
    | none =>
      have hloaded := h'.loadedSlot key slot hy hz
      rw [h.created] at hloaded
      exact hloaded
    | some slot' =>
      obtain ⟨slot'', hz', hvalue⟩ := h'.slot key slot' hy
      rw [hz] at hz'
      cases hz'
      have hloaded := h.loadedSlot key slot' hx hy
      rw [hvalue]
      exact hloaded

/-- The code of the account is loaded. -/
theorem cacheCode (a : Address) (hnone : x.info.code = none)
    (hcode : db.accountCode x.info = some code) : x.Read db a (x.cacheCode code) where
  balance := rfl
  nonce := rfl
  codeHash := rfl
  code code' h := by
    rw [hnone] at h
    cases h
  loadedCode code' h := by
    cases h
    exact hcode
  created := rfl
  selfDestructed := rfl
  selfDestructedLocal := rfl
  createdLocal h := h
  slot key slot h := ⟨slot, h, rfl⟩
  loadedSlot key slot h h' := by
    rw [show (x.cacheCode code).storage.lookup key = x.storage.lookup key from rfl, h] at h'
    cases h'

/-- One slot is written back with its present value, or loaded. -/
theorem insertSlot (a : Address) {slot : EvmStorageSlot}
    (hsame : ∀ slot', x.storage.lookup key = some slot' → slot.presentValue = slot'.presentValue)
    (hloaded : x.storage.lookup key = none →
      if x.status.created then slot.presentValue = 0
      else db.storage a key = .ok slot.presentValue) :
    x.Read db a { x with storage := x.storage.insert key slot } := by
  have hself : x.Read db a x := refl a x
  refine { hself with slot := ?_, loadedSlot := ?_ }
  · intro key' slot' h
    rw [HashMap.lookup_insert_ite]
    by_cases hkey : key' = key
    · rw [if_pos hkey]
      rw [hkey] at h
      exact ⟨slot, rfl, hsame slot' h⟩
    · rw [if_neg hkey]
      exact ⟨slot', h, rfl⟩
  · intro key' slot' h h'
    obtain ⟨rfl, rfl⟩ | ⟨-, h'⟩ := HashMap.lookup_insert_some h'
    · exact hloaded h
    · rw [h] at h'
      cases h'

end Account.Read

namespace JournalInner

variable {start : JournalInner} {a : Address}

/-- A change that keeps the content and the warmth. -/
theorem Reads.step {x y : Account} (h : Reads db start a x) (hread : x.Read db a y)
    (hwarm : x.isColdTransactionId start.transactionId = false →
      y.isColdTransactionId start.transactionId = false ∧
        y.status.createdLocal = x.status.createdLocal) : Reads db start a y := by
  obtain ⟨account, horigin, hx⟩ := h.origin
  refine ⟨⟨account, horigin, hx.trans hread⟩, ?_⟩
  intro account hl hcold
  obtain ⟨hxwarm, hxlocal⟩ := h.warm account hl hcold
  obtain ⟨hywarm, hylocal⟩ := hwarm hxwarm
  exact ⟨hywarm, hylocal.trans hxlocal⟩

/-- The first load of an account in a transaction. -/
theorem Reads.warmUp {x : Account} (h : Reads db start a x)
    (hcold : x.isColdTransactionId start.transactionId = true) :
    Reads db start a (JournalInner.warmUp x start.transactionId) := by
  have hstart : ∀ account, start.state.lookup a = some account →
      account.isColdTransactionId start.transactionId = true := by
    intro account hl
    by_contra hwarm
    rw [(h.warm account hl (by simpa using hwarm)).1] at hcold
    cases hcold
  refine ⟨?_, fun account hl hwarm => ?_⟩
  · obtain ⟨account, horigin, hx⟩ := h.origin
    cases hdestroyed : x.status.selfDestructedLocal with
    | false =>
      -- the content stays
      refine ⟨account, horigin, hx.trans ?_⟩
      have hnot : (x.markWarmWithTransactionId start.transactionId).isSelfdestructedLocally =
          false := hdestroyed
      unfold JournalInner.warmUp
      dsimp only
      rw [hnot, if_neg Bool.false_ne_true]
      exact .of_same rfl rfl rfl rfl rfl nofun
    | true =>
      -- only an account that was destroyed at the start is cleared
      have hlocal : account.status.selfDestructedLocal = true :=
        hx.selfDestructedLocal.symm.trans hdestroyed
      cases horigin with
      | kept hl =>
        refine ⟨_, .cleared hl ⟨hstart account hl, hlocal⟩, ?_⟩
        have hyes : (x.markWarmWithTransactionId start.transactionId).isSelfdestructedLocally =
            true := hdestroyed
        unfold JournalInner.warmUp
        dsimp only
        rw [hyes, if_pos rfl]
        exact .of_same rfl rfl hx.created hx.selfDestructed rfl nofun
      | cleared hl hclears => cases hlocal
      | loaded hl hbasic => cases hlocal
  · rw [hstart account hl] at hwarm
    cases hwarm

/-- An account of the database. -/
theorem Reads.of_basic {info : Option AccountInfo} (hnone : start.state.lookup a = none)
    (hbasic : db.basic a = .ok info)
    (hread : (Account.ofInfo (info.getD .default)).Read db a account) :
    Reads db start a account := by
  refine ⟨⟨_, .loaded hnone hbasic, hread⟩, ?_⟩
  intro account hl
  rw [hnone] at hl
  cases hl

/-! ## The state -/

namespace StateReads

variable {state state' : EvmState}

theorem refl (db : Database ε) (start : JournalInner) : StateReads db start start.state where
  loaded _ h := h
  reads a account hl :=
    ⟨⟨account, .kept hl, .refl a account⟩, fun account' hl' hwarm => by
      rw [hl] at hl'
      cases hl'
      exact ⟨hwarm, rfl⟩⟩

theorem insert (h : StateReads db start state)
    (hreads : Reads db start a account) : StateReads db start (state.insert a account) where
  loaded address hl := by
    rw [HashMap.lookup_insert_ite]
    split_ifs
    · exact some_ne_none _
    · exact h.loaded address hl
  reads address account' hl := by
    obtain ⟨rfl, rfl⟩ | ⟨-, hl⟩ := HashMap.lookup_insert_some hl
    · exact hreads
    · exact h.reads address account' hl

/-- A reverted entry takes back warmth or a touch. -/
theorem revertState (h : StateReads db start state) (he : e.OnlyRead start)
    (hrev : e.revertState sd state = some state') : StateReads db start state' := by
  cases e with
  | accountWarmed address =>
    obtain ⟨account, hl, rfl⟩ := map_eq_some_iff.1 hrev
    have hreads := h.reads address account hl
    obtain ⟨origin, horigin, hread⟩ := hreads.origin
    refine h.insert ⟨⟨origin, horigin, hread.trans (.of_same rfl rfl rfl rfl rfl fun h => h)⟩, ?_⟩
    intro account' hl' hwarm
    rw [he account' hl'] at hwarm
    cases hwarm
  | accountTouched address =>
    rw [JournalEntry.revertState] at hrev
    split_ifs at hrev
    · cases hrev
      exact h
    · obtain ⟨account, hl, rfl⟩ := map_eq_some_iff.1 hrev
      exact h.insert ((h.reads address account hl).step
        (.of_same rfl rfl rfl rfl rfl fun h => h) fun hwarm => ⟨hwarm, rfl⟩)
  | storageWarmed key address =>
    obtain ⟨account, hl, hrev⟩ := bind_eq_some_iff.1 hrev
    obtain ⟨slot, hslot, hrev⟩ := bind_eq_some_iff.1 hrev
    cases hrev
    refine h.insert ((h.reads address account hl).step
      (.insertSlot address (fun slot' hslot' => ?_) fun hnone => ?_) fun hwarm => ⟨hwarm, rfl⟩)
    · rw [hslot] at hslot'
      cases hslot'
      rfl
    · rw [hslot] at hnone
      cases hnone
  | accountDestroyed | balanceChange | balanceTransfer | nonceChange | accountCreated
  | storageChanged | transientStorageChange | codeChange => exact he.elim

/-- The loop of a revert. -/
theorem revertAll {entries : List JournalEntry} (hentries : ∀ e ∈ entries, e.OnlyRead start)
    {t : TransientStorage} {r : EvmState × Option TransientStorage} (h : StateReads db start state)
    (hrev : entries.foldlM (fun acc entry => entry.revert acc.1 acc.2 sd) (state, some t) =
      some r) : StateReads db start r.1 ∧ r.2 = some t := by
  induction entries generalizing state with
  | nil =>
    cases hrev
    exact ⟨h, rfl⟩
  | cons e entries ih =>
    rw [List.foldlM_cons] at hrev
    obtain ⟨r₁, hr₁, hrest⟩ := bind_eq_some_iff.1 hrev
    rw [JournalEntry.revert_eq] at hr₁
    obtain ⟨s, hs, rfl⟩ := map_eq_some_iff.1 hr₁
    have he := hentries e List.mem_cons_self
    have htransient : (some t).map e.revertTransient = some t := by
      cases e with
      | transientStorageChange key hadValue address => exact he.elim
      | _ => rfl
    rw [htransient] at hrest
    exact ih (fun e' he' => hentries e' (List.mem_cons_of_mem e he')) (h.revertState he hs) hrest

end StateReads

/-! ## The journal functions -/

namespace ReadOnly

variable {j j' : JournalInner}
variable {skipColdLoad : Bool}

theorem refl (db : Database ε) (start : JournalInner) : ReadOnly db start start where
  transactionId := rfl
  transientStorage := rfl
  logs := rfl
  entries := ⟨[], (List.append_nil _).symm, nofun⟩
  state := .refl db start

section

variable (h : ReadOnly db start j)

include h

theorem setAccount
    (hreads : Reads db start a account) : ReadOnly db start (j.setAccount a account) :=
  ⟨h.transactionId, h.transientStorage, h.logs, h.entries, h.state.insert hreads⟩

theorem push (he : e.OnlyRead start) : ReadOnly db start (j.push e) := by
  obtain ⟨entries, hjournal, hentries⟩ := h.entries
  refine ⟨h.transactionId, h.transientStorage, h.logs, ⟨entries ++ [e], ?_, ?_⟩, h.state⟩
  · rw [← List.append_assoc, ← hjournal]
    rfl
  · intro e' he'
    rcases List.mem_append.1 he' with he' | he'
    · exact hentries e' he'
    · rw [List.mem_singleton.1 he']
      exact he

theorem touchAccount
    (hl : j.state.lookup a = some account) : ReadOnly db start (j.touchAccount a account) := by
  have hreads := h.state.reads a account hl
  unfold JournalInner.touchAccount
  split_ifs
  · exact (h.push (e := .accountTouched a) trivial).setAccount
      (hreads.step (.of_same rfl rfl rfl rfl rfl fun h => h) fun hwarm => ⟨hwarm, rfl⟩)
  · exact h.setAccount hreads

/-- What `load_account_mut_optional_code` finds: the account, and whether its load is recorded. -/
theorem loadEntry {load : StateLoad Account}
    (hload : j.loadEntry db a skipColdLoad = .ok load) : Reads db start a load.data ∧
      (load.isCold = true → (JournalEntry.accountWarmed a).OnlyRead start) := by
  have hnone : j.state.lookup a = none → start.state.lookup a = none := by
    intro hl
    by_contra hsome
    exact h.state.loaded a hsome hl
  have hwarmed : j.state.lookup a = none → (JournalEntry.accountWarmed a).OnlyRead start := by
    intro hl account' hl'
    rw [hnone hl] at hl'
    cases hl'
  cases found_of_loadEntry hload with
  | cold account hl hcold =>
    have hreads := h.state.reads a account hl
    rw [h.transactionId] at hcold ⊢
    refine ⟨hreads.warmUp hcold, fun _ account' hl' => ?_⟩
    by_contra hwarm
    rw [(hreads.warm account' hl' (by simpa using hwarm)).1] at hcold
    cases hcold
  | warm account hl => exact ⟨h.state.reads a account hl, nofun⟩
  | stored info hl hbasic => exact ⟨.of_basic (hnone hl) hbasic (.refl _ _), fun _ => hwarmed hl⟩
  | absent hl hbasic =>
    exact ⟨.of_basic (hnone hl) hbasic (.of_same rfl rfl rfl rfl rfl fun h => h),
      fun _ => hwarmed hl⟩

theorem loadAccountOptional (a : Address) (loadCode skipColdLoad : Bool) :
    ReadOnly db start (j.loadAccountOptional db a loadCode skipColdLoad).2 := by
  have hfound : ∀ load, j.loadEntry db a skipColdLoad = .ok load →
      Reads db start a load.data ∧ ReadOnly db start (j.found a load) := by
    intro load hload
    obtain ⟨hreads, hwarmed⟩ := h.loadEntry hload
    refine ⟨hreads, ?_⟩
    unfold found
    split_ifs with hcold
    · exact (h.setAccount hreads).push (hwarmed hcold)
    · exact h.setAccount hreads
  generalize hr : j.loadAccountOptional db a loadCode skipColdLoad = r
  cases loadOutcome hr with
  | failed => exact h
  | noCode load e hentry => exact (hfound load hentry).2
  | code load code hentry hnone hcode =>
    obtain ⟨hreads, hset⟩ := hfound load hentry
    exact hset.setAccount (hreads.step (.cacheCode a hnone hcode) fun hwarm => ⟨hwarm, rfl⟩)
  | loaded load hentry => exact (hfound load hentry).2

end

/-- The slot that `sload` stores. -/
theorem loadSlot
    {r : EvmStorageSlot × Bool} (hload : j.loadSlot db a account key skipColdLoad = .ok r) :
    account.Read db a { account with storage := account.storage.insert key r.1 } := by
  unfold JournalInner.loadSlot at hload
  cases hl : account.storage.lookup key with
  | some slot =>
    rw [hl] at hload
    dsimp only at hload
    split_ifs at hload
    cases hload
    refine .insertSlot a (fun slot' hslot' => ?_) fun hnone => ?_
    · rw [hl] at hslot'
      cases hslot'
      rfl
    · rw [hl] at hnone
      cases hnone
  | none =>
    rw [hl] at hload
    split_ifs at hload with hskip hcreated
    · -- the storage of a created account is not in the database
      cases hload
      refine .insertSlot a (fun slot' hslot' => ?_) fun _ => ?_
      · rw [hl] at hslot'
        cases hslot'
      · rw [if_pos (show account.status.created = true from hcreated)]
        rfl
    · cases hvalue : db.storage a key with
      | error e =>
        rw [hvalue] at hload
        cases hload
      | ok value =>
        rw [hvalue] at hload
        cases hload
        refine .insertSlot a (fun slot' hslot' => ?_) fun _ => ?_
        · rw [hl] at hslot'
          cases hslot'
        · rw [if_neg (show ¬ account.status.created = true from hcreated)]
          exact hvalue

section

variable (h : ReadOnly db start j)

include h

theorem sload {r : LoadAnswer ε StorageValue × JournalInner}
    (hr : j.sload db a key skipColdLoad = some r) : ReadOnly db start r.2 := by
  obtain ⟨account, hl, hr⟩ := bind_eq_some_iff.1 hr
  rcases hload : j.loadSlot db a account key skipColdLoad with e | ⟨slot, isCold⟩
  · rw [hload] at hr
    cases hr
    exact h
  · rw [hload] at hr
    cases hr
    have hset := h.setAccount ((h.state.reads a account hl).step (loadSlot hload)
      fun hwarm => ⟨hwarm, rfl⟩)
    split_ifs
    · exact hset.push (e := .storageWarmed key a) trivial
    · exact hset

/-- A transfer of nothing, or of an account to itself, only touches. -/
theorem transferLoaded {src dst : Address} {balance : U256}
    (hvalue : balance = 0 ∨ src = dst) {r : Option TransferError × JournalInner}
    (hr : j.transferLoaded src dst balance = some r) : ReadOnly db start r.2 := by
  unfold JournalInner.transferLoaded at hr
  split_ifs at hr with hself hzero
  · obtain ⟨account, -, hr⟩ := bind_eq_some_iff.1 hr
    split_ifs at hr
    · cases hr
      exact h
    · cases hr
      exact h
  · obtain ⟨account, hl, hr⟩ := bind_eq_some_iff.1 hr
    cases hr
    exact h.touchAccount hl
  · exact absurd hvalue (not_or.2 ⟨hzero, hself⟩)

theorem checkpoint : ReadOnly db start j.checkpoint.2 :=
  ⟨h.transactionId, h.transientStorage, h.logs, h.entries, h.state⟩

theorem checkpointCommit : ReadOnly db start j.checkpointCommit :=
  ⟨h.transactionId, h.transientStorage, h.logs, h.entries, h.state⟩

/-- The revert to a checkpoint that was made after the start. -/
theorem checkpointRevert {cp : JournalCheckpoint}
    (hlog : start.logs.length ≤ cp.logI) (hjournal : start.journal.length ≤ cp.journalI)
    (hrev : j.checkpointRevert cp = some j') : ReadOnly db start j' := by
  obtain ⟨r, hr, hrev⟩ := bind_eq_some_iff.1 hrev
  cases hrev
  obtain ⟨entries, heq, hentries⟩ := h.entries
  obtain ⟨n, hn⟩ := Nat.exists_eq_add_of_le hjournal
  have hdrop : j.journal.drop cp.journalI = entries.drop n := by
    rw [heq, hn, List.drop_append]
    simp
  have htake : j.journal.take cp.journalI = start.journal ++ entries.take n := by
    rw [heq, hn, List.take_append]
    simp
  rw [hdrop] at hr
  obtain ⟨hstate, htransient⟩ := h.state.revertAll
    (fun e he => hentries e (List.mem_of_mem_drop (List.mem_reverse.1 he))) hr
  refine ⟨h.transactionId, ?_, ?_, ⟨entries.take n, htake, ?_⟩, hstate⟩
  · dsimp only
    rw [htransient]
    exact h.transientStorage
  · dsimp only
    rw [h.logs]
    exact List.take_of_length_le hlog
  · exact fun e he => hentries e (List.mem_of_mem_take he)

/-- What a part of a run that only reads leaves. -/
theorem unchanged : Unchanged db start j where
  transientStorage := h.transientStorage
  logs := h.logs
  account address account hl := by
    have hloaded := h.state.loaded address (by rw [hl]; exact some_ne_none _)
    obtain ⟨account', hl'⟩ := ne_none_iff_exists'.1 hloaded
    have hreads := h.state.reads address account' hl'
    refine ⟨account', hl', ?_, fun hwarm => (hreads.warm account hl hwarm).2⟩
    obtain ⟨origin, horigin, hread⟩ := hreads.origin
    cases horigin with
    | kept hl₀ =>
      rw [hl] at hl₀
      cases hl₀
      exact .inl hread
    | cleared hl₀ hclears =>
      rw [hl] at hl₀
      cases hl₀
      exact .inr ⟨hclears, hread⟩
    | loaded hnone =>
      rw [hl] at hnone
      cases hnone
  loaded address account' hnone hl' := by
    obtain ⟨origin, horigin, hread⟩ := (h.state.reads address account' hl').origin
    cases horigin with
    | kept hl =>
      rw [hnone] at hl
      cases hl
    | cleared hl =>
      rw [hnone] at hl
      cases hl
    | loaded _ hbasic => exact ⟨_, hbasic, hread⟩

end

end ReadOnly

end JournalInner

end Revm
