import Revm.Bal.PostBlock
import Revm.Foundations.Interleaving

/-!
# The cache of many threads

`MTCache` answers from the states of the last batches, then from a cache that all threads share,
then from the database. A call is no atomic operation: the cache is asked, the database is read
without a lock, and the answer goes into the cache if there is none by then. `MTCache.call` is the
program of a call, with the operations on the shared maps and the reads of the database as its
steps.

Whatever the threads do, a call returns `MTCache.answer` (`MTCache.call_keeps`). The states of the
last batches agree with the database that they were committed to (`Overlaid.covers`), so this is
what the database answers (`mtCache_answers`). The commits of both providers are of this kind
(`MdbxTables.committed`, `RocksDbTables.committed`), if a code that is not loaded is compared as the
empty one.
-/

set_option autoImplicit false

namespace Revm

open Option

variable {ε : Type} {db : Database ε} {latest : PreBlockState}

/-! ## The cache -/

/-- `SharedCache`. -/
structure SharedCache where
  accounts : HashMap Address (Option AccountInfo)
  storage : HashMap Address (HashMap StorageKey StorageValue)
  contracts : HashMap B256 Bytecode

/-- `SharedCache::new`. -/
def SharedCache.new : SharedCache := ⟨∅, ∅, ∅⟩

/-- `MTCache` without the shared part. -/
structure MTCache (ε : Type) where
  db : Database ε
  inMemory : Option (List PreBlockState)

/-- The operations of a call on a shared map or on the database. The map of the slots of an account
is never removed, so a reference to it is its address. -/
inductive SharedOp where
  | accountsGet (address : Address)
  | accountsEntry (address : Address) (acct : Option AccountInfo)
  | contractsGet (codeHash : B256)
  | contractsEntry (codeHash : B256) (code : Bytecode)
  | storageGet (address : Address)
  | storageEntry (address : Address)
  | slotGet (address : Address) (index : StorageKey)
  | slotEntry (address : Address) (index : StorageKey) (val : StorageValue)
  | dbBasic (address : Address)
  | dbCodeByHash (codeHash : B256)
  | dbStorage (address : Address) (index : StorageKey)

/-- What an operation answers. `storageGet` answers whether there is a map of slots. -/
@[reducible] def SharedOp.Resp (ε : Type) : SharedOp → Type
  | .accountsGet _ => Option (Option AccountInfo)
  | .accountsEntry _ _ => Option AccountInfo
  | .contractsGet _ => Option Bytecode
  | .contractsEntry _ _ => Bytecode
  | .storageGet _ => Bool
  | .storageEntry _ => Unit
  | .slotGet _ _ => Option StorageValue
  | .slotEntry _ _ _ => StorageValue
  | .dbBasic _ => Except ε (Option AccountInfo)
  | .dbCodeByHash _ => Except ε Bytecode
  | .dbStorage _ _ => Except ε StorageValue

/-- The program of a single operation. -/
def SharedOp.perform (ε : Type) (op : SharedOp) : Prog SharedOp (SharedOp.Resp ε) (op.Resp ε) :=
  Prog.perform op

/-- The slots of an account. -/
def SharedCache.slots (self : SharedCache) (address : Address) : HashMap StorageKey StorageValue :=
  (self.storage.lookup address).getD ∅

/-- One operation. -/
def SharedCache.exec (db : Database ε) : (op : SharedOp) → SharedCache → op.Resp ε × SharedCache
  | .accountsGet address, shared => (shared.accounts.lookup address, shared)
  | .accountsEntry address acct, shared =>
      let entry := shared.accounts.entryOrInsert address acct
      (entry.1, { shared with accounts := entry.2 })
  | .contractsGet codeHash, shared => (shared.contracts.lookup codeHash, shared)
  | .contractsEntry codeHash code, shared =>
      let entry := shared.contracts.entryOrInsert codeHash code
      (entry.1, { shared with contracts := entry.2 })
  | .storageGet address, shared => ((shared.storage.lookup address).isSome, shared)
  | .storageEntry address, shared =>
      ((), { shared with storage := (shared.storage.entryOrInsert address ∅).2 })
  | .slotGet address index, shared => ((shared.slots address).lookup index, shared)
  | .slotEntry address index val, shared =>
      let entry := (shared.slots address).entryOrInsert index val
      (entry.1, { shared with storage := shared.storage.insert address entry.2 })
  | .dbBasic address, shared => (db.basic address, shared)
  | .dbCodeByHash codeHash, shared => (db.codeByHash codeHash, shared)
  | .dbStorage address index, shared => (db.storage address index, shared)

/-! ## Calls -/

/-- The calls of `DatabaseRef`. -/
inductive CacheQuery where
  | basic (address : Address)
  | codeByHash (codeHash : B256)
  | storage (address : Address) (index : StorageKey)
  deriving DecidableEq

@[reducible] def CacheQuery.Answer (ε : Type) : CacheQuery → Type
  | .basic _ => Except ε (Option AccountInfo)
  | .codeByHash _ => Except ε Bytecode
  | .storage _ _ => Except ε StorageValue

/-- The first of the states in memory that has the account. -/
def scanAccounts (states : List PreBlockState) (address : Address) : Option (Option AccountInfo) :=
  states.findSome? fun state => (state.accounts.lookup address).map (·.info)

/-- The first of the states in memory that has the slot. -/
def scanStorage (states : List PreBlockState) (address : Address) (index : StorageKey) :
    Option StorageValue :=
  states.findSome? fun state => (state.accounts.lookup address).bind fun acct =>
    acct.storage.lookup index

variable {α : Type}

/-- The fast path and the slow path of a call. The entry is made with the answer of the database,
and answers what stands in the cache then. -/
def cached {Op : Type} {Resp : Op → Type} (get : Prog Op Resp (Option α))
    (read : Prog Op Resp (Except ε α)) (entry : α → Prog Op Resp α) :
    Prog Op Resp (Except ε α) := do
  match ← get with
  | some v => pure (.ok v)
  | none =>
      match ← read with
      | .error e => pure (.error e)
      | .ok v => do
          let present ← entry v
          pure (.ok present)

variable (address : Address) (index : StorageKey)

namespace MTCache

variable (self : MTCache ε)

/-- `basic_ref`. -/
def basicRef (address : Address) :
    Prog SharedOp (SharedOp.Resp ε) (Except ε (Option AccountInfo)) :=
  match scanAccounts (self.inMemory.getD []) address with
  | some info => pure (.ok info)
  | none =>
      cached (SharedOp.perform ε (.accountsGet address)) (SharedOp.perform ε (.dbBasic address))
        fun acct => SharedOp.perform ε (.accountsEntry address acct)

/-- `code_by_hash_ref`. The states in memory are not asked. -/
def codeByHashRef (_self : MTCache ε) (codeHash : B256) :
    Prog SharedOp (SharedOp.Resp ε) (Except ε Bytecode) :=
  cached (SharedOp.perform ε (.contractsGet codeHash)) (SharedOp.perform ε (.dbCodeByHash codeHash))
    fun code => SharedOp.perform ε (.contractsEntry codeHash code)

/-- The fast path of `storage_ref`: the map of the account, then the slot. -/
def slotCached : Prog SharedOp (SharedOp.Resp ε) (Option StorageValue) := do
  let inner ← SharedOp.perform ε (.storageGet address)
  if inner = true then SharedOp.perform ε (.slotGet address index) else pure none

/-- The end of `storage_ref`: the map of the account is made if there is none, then the slot. -/
def slotEntry (val : StorageValue) : Prog SharedOp (SharedOp.Resp ε) StorageValue := do
  let _ ← SharedOp.perform ε (.storageEntry address)
  SharedOp.perform ε (.slotEntry address index val)

/-- `storage_ref`. -/
def storageRef (address : Address) (index : StorageKey) :
    Prog SharedOp (SharedOp.Resp ε) (Except ε StorageValue) :=
  match scanStorage (self.inMemory.getD []) address index with
  | some val => pure (.ok val)
  | none =>
      cached (slotCached address index) (SharedOp.perform ε (.dbStorage address index))
        (slotEntry address index)

/-- A call. -/
def call : (q : CacheQuery) → Prog SharedOp (SharedOp.Resp ε) (q.Answer ε)
  | .basic address => self.basicRef address
  | .codeByHash codeHash => self.codeByHashRef codeHash
  | .storage address index => self.storageRef address index

/-- What `basic_ref` returns: the account of the first state in memory that has it, or else what the
database answers. -/
def basicAnswer (address : Address) : Except ε (Option AccountInfo) :=
  match scanAccounts (self.inMemory.getD []) address with
  | some info => .ok info
  | none => self.db.basic address

/-- What `storage_ref` returns. -/
def storageAnswer (address : Address) (index : StorageKey) : Except ε StorageValue :=
  match scanStorage (self.inMemory.getD []) address index with
  | some val => .ok val
  | none => self.db.storage address index

/-- What a call returns. -/
def answer : (q : CacheQuery) → q.Answer ε
  | .basic address => self.basicAnswer address
  | .codeByHash codeHash => self.db.codeByHash codeHash
  | .storage address index => self.storageAnswer address index

end MTCache

/-! ## What a call returns -/

/-- What is in the cache is what the database answers. -/
structure SharedCache.Faithful (db : Database ε) (cached : SharedCache) : Prop where
  accounts : ∀ address info, cached.accounts.lookup address = some info →
    db.basic address = .ok info
  contracts : ∀ codeHash code, cached.contracts.lookup codeHash = some code →
    db.codeByHash codeHash = .ok code
  storage : ∀ address inner, cached.storage.lookup address = some inner →
    ∀ index val, inner.lookup index = some val → db.storage address index = .ok val

namespace SharedCache

variable {shared : SharedCache}

theorem faithful_new : Faithful db SharedCache.new :=
  ⟨fun _ _ h => (nomatch h), fun _ _ h => (nomatch h), fun _ _ h => (nomatch h)⟩

theorem Faithful.slots (h : shared.Faithful db) (address : Address) (index : StorageKey)
    (val : StorageValue) (hlookup : (shared.slots address).lookup index = some val) :
    db.storage address index = .ok val := by
  unfold SharedCache.slots at hlookup
  cases hinner : shared.storage.lookup address with
  | none =>
    rw [hinner] at hlookup
    cases hlookup
  | some inner =>
    rw [hinner] at hlookup
    exact h.storage address inner hinner index val hlookup

end SharedCache

namespace MTCache

variable {cache : MTCache ε}

/-- The programs that keep the cache faithful. -/
abbrev Keeps (cache : MTCache ε) (post : α → Prop) (p : Prog SharedOp (SharedOp.Resp ε) α) : Prop :=
  p.Meets (SharedCache.exec cache.db) (SharedCache.Faithful cache.db) post

/-- A first step whose answer does not matter. -/
theorem Keeps.step {op : SharedOp} {post : α → Prop}
    {f : op.Resp ε → Prog SharedOp (SharedOp.Resp ε) α}
    (h : ∀ shared, SharedCache.Faithful cache.db shared →
      SharedCache.Faithful cache.db (SharedCache.exec cache.db op shared).2)
    (hf : ∀ r, cache.Keeps post (f r)) : cache.Keeps post (op.perform ε >>= f) :=
  fun shared hs => ⟨h shared hs, hf _⟩

theorem perform_keeps {op : SharedOp} {post : op.Resp ε → Prop}
    (h : ∀ shared, SharedCache.Faithful cache.db shared →
      SharedCache.Faithful cache.db (SharedCache.exec cache.db op shared).2 ∧
        post (SharedCache.exec cache.db op shared).1) : cache.Keeps post (op.perform ε) := h

/-- A call on both paths. The cache may have got an entry while the database was read. -/
theorem cached_keeps {get : Prog SharedOp (SharedOp.Resp ε) (Option α)}
    {read : Prog SharedOp (SharedOp.Resp ε) (Except ε α)}
    {entry : α → Prog SharedOp (SharedOp.Resp ε) α} {answer : Except ε α}
    (hget : cache.Keeps (fun r => ∀ v, r = some v → answer = .ok v) get)
    (hread : cache.Keeps (fun r => r = answer) read)
    (hentry : ∀ v, answer = .ok v → cache.Keeps (fun r => answer = .ok r) (entry v)) :
    cache.Keeps (fun r => r = answer) (cached get read entry) := by
  refine hget.bind fun r hr => ?_
  cases r with
  | some v => exact (hr v rfl).symm
  | none =>
    refine hread.bind fun r hr => ?_
    subst hr
    cases r with
    | error e => exact Prog.Meets.pure rfl
    | ok v => exact (hentry v rfl).bind fun present hpresent => Prog.Meets.pure hpresent.symm

theorem basicRef_keeps :
    cache.Keeps (fun r => r = cache.basicAnswer address) (cache.basicRef address) := by
  unfold basicRef basicAnswer
  cases scanAccounts (cache.inMemory.getD []) address with
  | some info => exact Prog.Meets.pure rfl
  | none =>
    refine cached_keeps ?_ ?_ fun acct hacct => ?_
    · exact perform_keeps fun shared h => ⟨h, h.accounts address⟩
    · exact perform_keeps fun shared h => ⟨h, rfl⟩
    · refine perform_keeps fun shared h => ?_
      obtain ⟨hkeep, hanswer⟩ := HashMap.entryOrInsert_holds h.accounts hacct
      exact ⟨⟨hkeep, h.contracts, h.storage⟩, hanswer⟩

theorem codeByHashRef_keeps (codeHash : B256) :
    cache.Keeps (fun r => r = cache.db.codeByHash codeHash) (cache.codeByHashRef codeHash) := by
  refine cached_keeps ?_ ?_ fun code hcode => ?_
  · exact perform_keeps fun shared h => ⟨h, h.contracts codeHash⟩
  · exact perform_keeps fun shared h => ⟨h, rfl⟩
  · refine perform_keeps fun shared h => ?_
    obtain ⟨hkeep, hanswer⟩ := HashMap.entryOrInsert_holds h.contracts hcode
    exact ⟨⟨h.accounts, hkeep, h.storage⟩, hanswer⟩

theorem slotCached_keeps :
    cache.Keeps (fun r => ∀ val, r = some val → cache.db.storage address index = .ok val)
      (slotCached address index) := by
  refine Keeps.step (fun shared h => h) fun inner => ?_
  split_ifs
  · exact perform_keeps fun shared h => ⟨h, h.slots address index⟩
  · exact Prog.Meets.pure fun _ h => (nomatch h)

theorem slotEntry_keeps {address : Address} {index : StorageKey} {val : StorageValue}
    (hval : cache.db.storage address index = .ok val) :
    cache.Keeps (fun r => cache.db.storage address index = .ok r)
      (slotEntry address index val) := by
  refine Keeps.step (fun shared h => ?_) fun _ => ?_
  · have hempty : ∀ index val, (∅ : HashMap StorageKey StorageValue).lookup index = some val →
        cache.db.storage address index = .ok val := fun _ _ h => (nomatch h)
    exact ⟨h.accounts, h.contracts, (HashMap.entryOrInsert_holds h.storage hempty).1⟩
  · refine perform_keeps fun shared h => ?_
    obtain ⟨hkeep, hanswer⟩ := HashMap.entryOrInsert_holds (h.slots address) hval
    refine ⟨⟨h.accounts, h.contracts, fun address' inner hinner => ?_⟩, hanswer⟩
    obtain ⟨rfl, rfl⟩ | ⟨-, hinner⟩ := HashMap.lookup_insert_some hinner
    · exact hkeep
    · exact h.storage address' inner hinner

theorem storageRef_keeps :
    cache.Keeps (fun r => r = cache.storageAnswer address index)
      (cache.storageRef address index) := by
  unfold storageRef storageAnswer
  cases scanStorage (cache.inMemory.getD []) address index with
  | some val => exact Prog.Meets.pure rfl
  | none =>
    exact cached_keeps (slotCached_keeps address index)
      (perform_keeps fun shared h => ⟨h, rfl⟩) fun val hval => slotEntry_keeps hval

/-- A call keeps the cache faithful and returns the answer, whatever the other threads do. -/
theorem call_keeps (cache : MTCache ε) (q : CacheQuery) :
    cache.Keeps (fun r => r = cache.answer q) (cache.call q) := by
  cases q with
  | basic address => exact basicRef_keeps address
  | codeByHash codeHash => exact codeByHashRef_keeps codeHash
  | storage address index => exact storageRef_keeps address index

/-! ## Calls are short -/

theorem perform_within (op : SharedOp) : (op.perform ε).Within 1 := Prog.Within.perform op

theorem cached_within {Op : Type} {Resp : Op → Type} {get : Prog Op Resp (Option α)}
    {read : Prog Op Resp (Except ε α)} {entry : α → Prog Op Resp α} {k l m : Nat}
    (hget : get.Within k) (hread : read.Within l) (hentry : ∀ v, (entry v).Within m) :
    (cached get read entry).Within (k + (l + (m + 0))) := by
  refine hget.bind fun r => ?_
  cases r with
  | some v => exact Prog.Within.pure _ _
  | none =>
    refine hread.bind fun r => ?_
    cases r with
    | error e => exact Prog.Within.pure _ _
    | ok v => exact (hentry v).bind fun present => Prog.Within.pure _ _

theorem basicRef_within : (cache.basicRef address).Within 3 := by
  unfold basicRef
  cases scanAccounts (cache.inMemory.getD []) address with
  | some info => exact Prog.Within.pure _ _
  | none =>
    exact cached_within (perform_within (.accountsGet address)) (perform_within (.dbBasic address))
      fun acct => perform_within (.accountsEntry address acct)

theorem codeByHashRef_within (cache : MTCache ε) (codeHash : B256) :
    (cache.codeByHashRef codeHash).Within 3 :=
  cached_within (perform_within (.contractsGet codeHash)) (perform_within (.dbCodeByHash codeHash))
    fun code => perform_within (.contractsEntry codeHash code)

theorem storageRef_within : (cache.storageRef address index).Within 5 := by
  unfold storageRef
  cases scanStorage (cache.inMemory.getD []) address index with
  | some val => exact Prog.Within.pure _ _
  | none =>
    have hcached : (slotCached (ε := ε) address index).Within (1 + 1) := by
      refine (perform_within (.storageGet address)).bind fun inner => ?_
      split_ifs
      · exact perform_within (.slotGet address index)
      · exact Prog.Within.pure _ _
    have hentry : ∀ val, (slotEntry (ε := ε) address index val).Within (1 + 1) := fun val =>
      (perform_within (.storageEntry address)).bind fun _ =>
        perform_within (.slotEntry address index val)
    exact cached_within hcached (perform_within (.dbStorage address index)) hentry

/-- A call has at most five operations. -/
theorem call_within (q : CacheQuery) : (cache.call q).Within 5 := by
  cases q with
  | basic address => exact (basicRef_within address).mono (by decide)
  | codeByHash codeHash => exact (codeByHashRef_within cache codeHash).mono (by decide)
  | storage address index => exact storageRef_within address index

end MTCache

/-! ## The states in memory -/

section InMemory

variable {β : Type} (see : Option AccountInfo → β)

/-- A commit answers the new values of the accounts and slots that it wrote, and nothing else is
another in the database. The accounts are compared by what `see` shows of them. -/
structure Committed (old new : Database ε) (latest : PreBlockState) : Prop where
  info : ∀ address acct, latest.accounts.lookup address = some acct →
    (new.basic address).map see = .ok (see acct.info)
  slot : ∀ address acct index val, latest.accounts.lookup address = some acct →
    acct.storage.lookup index = some val → new.storage address index = .ok val
  otherInfo : ∀ address, latest.accounts.lookup address = none →
    (new.basic address).map see = (old.basic address).map see
  otherSlot : ∀ address index,
    ((latest.accounts.lookup address).bind fun acct => acct.storage.lookup index) = none →
      new.storage address index = old.storage address index

/-- The states of the last two commits are kept, the latest in front. -/
def pushLatest (inMem : List PreBlockState) (latest : PreBlockState) : List PreBlockState :=
  latest :: if inMem.length ≥ 2 then inMem.dropLast else inMem

/-- A database after some commits, with the states that are kept of them. -/
inductive Overlaid : Database ε → List PreBlockState → Prop
  | start (db : Database ε) : Overlaid db []
  | commit {old new : Database ε} {inMem : List PreBlockState} {latest : PreBlockState}
      (h : Overlaid old inMem) (hcommit : Committed see old new latest) :
      Overlaid new (pushLatest inMem latest)

/-- What is found in the states is what the database answers. -/
structure Covers (db : Database ε) (states : List PreBlockState) : Prop where
  basic : ∀ address info, scanAccounts states address = some info →
    (db.basic address).map see = .ok (see info)
  storage : ∀ address index val, scanStorage states address index = some val →
    db.storage address index = .ok val

variable {see} {old new : Database ε} {states front : List PreBlockState}

/-- A commit is put in front. What the older states have of an account or a slot counts only if the
commit did not write it. -/
theorem Covers.cons (h : Covers see old states) (hcommit : Committed see old new latest) :
    Covers see new (latest :: states) := by
  constructor
  · intro address info hscan
    unfold scanAccounts at hscan
    rw [List.findSome?_cons] at hscan
    cases hlookup : latest.accounts.lookup address with
    | some acct =>
      rw [hlookup] at hscan
      cases hscan
      exact hcommit.info address acct hlookup
    | none =>
      rw [hlookup] at hscan
      exact (hcommit.otherInfo address hlookup).trans (h.basic address info hscan)
  · intro address index val hscan
    unfold scanStorage at hscan
    rw [List.findSome?_cons] at hscan
    cases hslot : (latest.accounts.lookup address).bind fun acct => acct.storage.lookup index with
    | some val' =>
      rw [hslot] at hscan
      cases hscan
      obtain ⟨acct, hacct, hval⟩ := bind_eq_some_iff.1 hslot
      exact hcommit.slot address acct index _ hacct hval
    | none =>
      rw [hslot] at hscan
      exact (hcommit.otherSlot address index hslot).trans (h.storage address index val hscan)

/-- The oldest states may be dropped. -/
theorem Covers.of_append {back : List PreBlockState} (h : Covers see new (front ++ back)) :
    Covers see new front := by
  constructor
  · intro address info hscan
    refine h.basic address info ?_
    unfold scanAccounts at hscan ⊢
    rw [List.findSome?_append, hscan]
    rfl
  · intro address index val hscan
    refine h.storage address index val ?_
    unfold scanStorage at hscan ⊢
    rw [List.findSome?_append, hscan]
    rfl

theorem Overlaid.covers (h : Overlaid see db states) : Covers see db states := by
  induction h with
  | start db => exact ⟨fun _ _ h => (nomatch h), fun _ _ _ h => (nomatch h)⟩
  | @commit _ _ inMem _ _ hcommit ih =>
    unfold pushLatest
    split_ifs
    · obtain ⟨back, hback⟩ := List.dropLast_prefix inMem
      rw [← hback] at ih
      exact ih.of_append.cons hcommit
    · exact ih.cons hcommit

end InMemory

/-! ## The commits of the providers -/

section Providers

variable {R : Type} {reth : RethBytecode R} {bal : Bal}

/-- A provider whose view is the committed one has committed the list. -/
theorem committed_of_view {old new : Database ProviderFault} {v : ProviderView} (fits : v.Fits bal)
    (hinc : bal.Increasing) (hold : v.ShownBy old ⟨∅⟩) (hnew : (v.commit bal).ShownBy new latest) :
    Committed (Option.map (·.seen)) old new latest := by
  have hlisted : ∀ address, latest.accounts.lookup address =
      (bal.accounts.lookup address).map fun acctBal =>
        acctBal.latestAcct (acctBal.latestInfo (v.prevInfo address)) := by
    intro address
    rw [hnew.latest, v.latest_commit bal address, ← hold.latest]
    cases bal.accounts.lookup address <;> rfl
  have hstorage := hnew.storage_final
  refine ⟨fun address acct hacct => ?_, fun address acct index val hacct hval => ?_,
    fun address hnone => ?_, fun address index hnone => ?_⟩
  · rw [hlisted] at hacct
    obtain ⟨acctBal, hlookup, rfl⟩ := map_eq_some_iff.1 hacct
    obtain ⟨info, hinfo, hseen⟩ := fits.basicRef_commit_of_some hinc hlookup
    rw [hnew.basic, hinfo]
    exact congrArg Except.ok hseen
  · rw [hlisted] at hacct
    obtain ⟨acctBal, hlookup, rfl⟩ := map_eq_some_iff.1 hacct
    have hlast := (acctBal.storage.lookup_latestStorage index).symm.trans hval
    rw [hstorage, Bal.finalStorage, hlookup, bind_some, hlast]
    rfl
  · rw [hlisted, map_eq_none_iff] at hnone
    rw [hnew.basic, hold.basic, fits.basicRef_commit_of_none hnone]
  · rw [hstorage, hold.storage, Bal.finalStorage]
    rw [hlisted] at hnone
    cases hlookup : bal.accounts.lookup address with
    | none => rfl
    | some acctBal =>
      rw [hlookup] at hnone
      have hlast := (acctBal.storage.lookup_latestStorage index).symm.trans hnone
      rw [bind_some, hlast]
      rfl

/-- `commit_bal_changes` of `mdbx`. -/
theorem MdbxTables.committed (hreth : reth.SameBytes) (self : MdbxTables R) (hinc : bal.Increasing)
    (hdecodable : ∀ hash code, bal.WritesCode hash code → code.Decodable)
    (fits : (self.view reth ⟨∅⟩).Fits bal)
    (hhash : ∀ address acct, self.accounts.lookup address = some acct → acct.bytecodeHash ≠ none) :
    ∃ tables latest, self.commitBalChanges reth bal = some (tables, latest) ∧
      Committed (Option.map (·.seen)) (self.latestProvider reth)
        (tables.latestProvider reth) latest := by
  obtain ⟨tables, latest, hrun, hview⟩ := self.commitBalChanges_refines hreth bal fits.basicRef_ok
    hdecodable (fun address _ _ acct _ _ _ hacct => hhash address acct hacct)
  exact ⟨tables, latest, hrun, committed_of_view fits hinc (self.shownBy rfl) hview⟩

/-- `commit_bal_changes` of RocksDB. -/
theorem RocksDbTables.committed (hreth : reth.SameBytes) (self : RocksDbTables R)
    (hinc : bal.Increasing) (hdecodable : ∀ hash code, bal.WritesCode hash code → code.Decodable)
    (fits : (self.view reth ⟨∅⟩).Fits bal) :
    ∃ tables latest, self.commitBalChanges reth bal = some (tables, latest) ∧
      Committed (Option.map (·.seen)) (self.latestProvider reth)
        (tables.latestProvider reth) latest := by
  obtain ⟨tables, latest, hrun, hview⟩ := self.commitBalChanges_refines hreth bal fits.basicRef_ok
    hdecodable
  exact ⟨tables, latest, hrun, committed_of_view fits hinc (self.shownBy rfl) hview⟩

end Providers

/-! ## What the threads see -/

namespace Covers

variable {β : Type} {see : Option AccountInfo → β} {states : List PreBlockState}

theorem basicAnswer (h : Covers see db states) (address : Address) :
    ((MTCache.mk db (some states)).basicAnswer address).map see = (db.basic address).map see := by
  unfold MTCache.basicAnswer
  dsimp only [getD_some]
  cases hscan : scanAccounts states address with
  | some info => exact (h.basic address info hscan).symm
  | none => rfl

theorem storageAnswer (h : Covers see db states) (address : Address) (index : StorageKey) :
    (MTCache.mk db (some states)).storageAnswer address index = db.storage address index := by
  unfold MTCache.storageAnswer
  dsimp only [getD_some]
  cases hscan : scanStorage states address index with
  | some val => exact (h.storage address index val hscan).symm
  | none => rfl

end Covers

/-- Any number of threads, in any interleaving: every call returns what the database answers, equal
calls return equal answers, and a call returns once its thread has been scheduled often enough. -/
theorem mtCache_answers {β ι : Type} [DecidableEq ι] (see : Option AccountInfo → β)
    (db : Database ε) (inMem : List PreBlockState) (hmem : Overlaid see db inMem)
    (t : Interleaved ι SharedCache SharedOp (SharedOp.Resp ε) CacheQuery (CacheQuery.Answer ε))
    (ht : t.Reached (SharedCache.exec db) (MTCache.call ⟨db, some inMem⟩) SharedCache.new) :
    (∀ i address answer, (i, ⟨.basic address, answer⟩) ∈ t.returned →
      answer.map see = (db.basic address).map see) ∧
    (∀ i address index answer, (i, ⟨.storage address index, answer⟩) ∈ t.returned →
      answer = db.storage address index) ∧
    (∀ i codeHash answer, (i, ⟨.codeByHash codeHash, answer⟩) ∈ t.returned →
      answer = db.codeByHash codeHash) ∧
    (∀ i j q answer answer', (i, ⟨q, answer⟩) ∈ t.returned → (j, ⟨q, answer'⟩) ∈ t.returned →
      answer = answer') ∧
    ∀ i q p schedule, t.calls i = some ⟨q, p⟩ → 5 < schedule.count i →
      ∃ answer, (i, ⟨q, answer⟩) ∈ (t.run (SharedCache.exec db) schedule).returned := by
  have hcovers := hmem.covers
  have hmeets := ht.meets SharedCache.faithful_new fun q => MTCache.call_keeps ⟨db, some inMem⟩ q
  refine ⟨fun i address answer hmem => ?_, fun i address index answer hmem => ?_,
    fun i codeHash answer hmem => hmeets.returned i _ _ hmem, fun i j q answer answer' hi hj => ?_,
    fun i q p schedule hcall hcount => ?_⟩
  · rw [hmeets.returned i (.basic address) answer hmem]
    exact hcovers.basicAnswer address
  · rw [hmeets.returned i (.storage address index) answer hmem]
    exact hcovers.storageAnswer address index
  · rw [hmeets.returned i q answer hi, hmeets.returned j q answer' hj]
  · exact Interleaved.returns_of_within hcall (ht.within (fun q => MTCache.call_within q) hcall)
      schedule hcount

open PostBlockExample in
/-- Two threads ask for the account `2` at the same time, after a commit of `mdbx` that does not
write it. -/
theorem mtCache_answers_deploy :
    ∃ mdbx' latest, MdbxTables.commitBalChanges byteReth ⟨tables, ∅⟩ bal = some (mdbx', latest) ∧
      ∃ t : Interleaved Nat SharedCache SharedOp (SharedOp.Resp ProviderFault) CacheQuery
          (CacheQuery.Answer ProviderFault),
        t.Reached (SharedCache.exec (mdbx'.latestProvider byteReth))
          (MTCache.call ⟨mdbx'.latestProvider byteReth, some [latest]⟩) SharedCache.new ∧
        ∃ answer, (0, ⟨.basic 2, answer⟩) ∈ t.returned ∧ (1, ⟨.basic 2, answer⟩) ∈ t.returned ∧
          answer.map (Option.map (·.seen)) = (mdbx'.basicRef byteReth 2).map
            (Option.map (·.seen)) := by
  obtain ⟨mdbx', latest, hcommit, hcommitted⟩ := MdbxTables.committed byteReth_sameBytes ⟨tables, ∅⟩
    bal_increasing (fun _ _ => decodable_bal) (fits rfl rfl) fun _ _ => bytecodeHash_tables
  have hmem : Overlaid (Option.map (·.seen)) (mdbx'.latestProvider byteReth) [latest] :=
    .commit (.start _) hcommitted
  have hstart : ∃ t : Interleaved Nat SharedCache SharedOp (SharedOp.Resp ProviderFault) CacheQuery
      (CacheQuery.Answer ProviderFault),
      t.Reached (SharedCache.exec (mdbx'.latestProvider byteReth))
        (MTCache.call ⟨mdbx'.latestProvider byteReth, some [latest]⟩) SharedCache.new ∧
      (∃ p, t.calls 0 = some ⟨.basic 2, p⟩) ∧ ∃ p, t.calls 1 = some ⟨.basic 2, p⟩ :=
    ⟨_, (Interleaved.Reached.start.invoke 0 (CacheQuery.basic 2) rfl).invoke 1
      (CacheQuery.basic 2) rfl, ⟨_, rfl⟩, _, rfl⟩
  obtain ⟨t, ht, ⟨p, hp⟩, p', hp'⟩ := hstart
  obtain ⟨-, -, -, -, hreturns⟩ := mtCache_answers _ _ _ hmem t ht
  obtain ⟨answer, hanswer⟩ := hreturns 0 _ p [0, 1, 0, 1, 0, 1, 0, 1, 0, 1, 0, 1] hp (by decide)
  obtain ⟨answer', hanswer'⟩ := hreturns 1 _ p' [0, 1, 0, 1, 0, 1, 0, 1, 0, 1, 0, 1] hp' (by decide)
  have hrun := ht.run [0, 1, 0, 1, 0, 1, 0, 1, 0, 1, 0, 1]
  obtain ⟨hbasic, -, -, hequal, -⟩ := mtCache_answers _ _ _ hmem _ hrun
  obtain rfl := hequal 0 1 _ answer answer' hanswer hanswer'
  exact ⟨mdbx', latest, hcommit, _, hrun, answer, hanswer, hanswer', hbasic 0 2 answer hanswer⟩

end Revm
