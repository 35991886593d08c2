import Revm.Database.Slice

/-!
# The cache refines a plain state

`State` over a plain state `d` answers every read as the plain state does to which the same commits
and balance increments were applied. The relation is per address: `CacheInv v r c` relates the
account `v` of the database, the account `r` of the reference and the cached account `c`.

Main results: `CacheInv.commit`, `CacheInv.incrementBalance` (one step on one address) and
`State.run_refines` (every run).
-/

set_option autoImplicit false

namespace Revm

open CacheAccount PlainView AccountInfo

variable {ε : Type} {c : CacheAccount}
variable {account : Account} {collect : Bool}

/-- A cached account `c` stands for the reference account `r`, over the database account `v`. -/
structure CacheInv (v r : PlainView) (c : CacheAccount) : Prop where
  info : c.accountInfo = r.info ∨ (c.accountInfo = some default ∧ r.info = none)
  storage : ∀ k, c.storageAt v k = r.storage k
  /-- A cached account that was not changed has the info of the database. -/
  loaded : c.status = .loaded → c.accountInfo = v.info
  loadedEmpty : c.status = .loadedEmptyEip161 → v.codeless = true
  /-- The slots of a missing account are never asked from the database again. -/
  missing : c.account = none → c.status.isStorageKnown = true

/-- The reference account of an address that was not loaded yet is the one of the database. -/
def SliceInv (v r : PlainView) (cache : Option CacheAccount) : Prop :=
  match cache with
  | none => r = v.norm
  | some c => CacheInv v r c

namespace CacheInv

variable {v r : PlainView}

theorem nonEmpty_accountInfo (h : CacheInv v r c) : nonEmpty c.accountInfo = nonEmpty r.info := by
  rcases h.info with heq | ⟨hc, hr⟩
  · rw [heq]
  · rw [hc, hr]
    rfl

theorem getD_accountInfo (h : CacheInv v r c) :
    c.accountInfo.getD default = r.info.getD default := by
  rcases h.info with heq | ⟨hc, hr⟩
  · rw [heq]
  · rw [hc, hr]
    rfl

/-- The account that a load puts into the cache. -/
theorem ofPlain (hv : v.NoDangling) : CacheInv v v.norm (CacheAccount.ofPlain v) := by
  cases hi : v.info with
  | none =>
    have hzero := hv (by simp [codeless, hi])
    constructor <;>
      simp [CacheAccount.ofPlain, hi, CacheAccount.newLoadedNotExisting, CacheAccount.accountInfo,
        PlainView.norm, CacheAccount.storageAt, hzero, AccountStatus.isStorageKnown]
  | some info =>
    cases he : info.isEmpty with
    | true =>
      constructor <;>
        simp [CacheAccount.ofPlain, hi, he, CacheAccount.newLoadedEmptyEip161,
          PlainAccount.newEmptyWithStorage, CacheAccount.accountInfo, PlainView.norm,
          CacheAccount.storageAt, AccountStatus.isStorageKnown, nonEmpty, codeless]
    | false =>
      constructor <;>
        simp [CacheAccount.ofPlain, hi, he, CacheAccount.newLoaded, CacheAccount.accountInfo,
          PlainView.norm, CacheAccount.storageAt, AccountStatus.isStorageKnown,
          nonEmpty_some_of_not_isEmpty he]

/-- A removed account keeps its status among those that know the storage. -/
theorem of_removed (hnone : c.account = none) (hknown : c.status.isStorageKnown = true) :
    CacheInv v removed c := by
  refine ⟨Or.inl ?_, fun k => ?_, fun h => ?_, fun h => ?_, fun _ => hknown⟩
  · simp [accountInfo, hnone, removed]
  · simp [storageAt, hnone, removed]
  · rw [h] at hknown
    cases hknown
  · rw [h] at hknown
    cases hknown

/-- An account with new info and a status that is not a loaded one. -/
theorem of_changed {info : AccountInfo} {storage : PlainStorage} {status : AccountStatus}
    (hloaded : status ≠ .loaded) (hempty : status ≠ .loadedEmptyEip161)
    {f : StorageKey → StorageValue}
    (hf : ∀ k, (storage.lookup k).getD (if status.isStorageKnown then 0 else v.storage k) = f k) :
    CacheInv v ⟨some info, f⟩ ⟨some ⟨info, storage⟩, status⟩ :=
  ⟨Or.inl rfl, hf, fun h => absurd h hloaded, fun h => absurd h hempty, nofun⟩

theorem selfdestruct (c : CacheAccount) : CacheInv v removed c.selfdestruct.2 := by
  refine of_removed rfl ?_
  show c.status.onSelfdestructed.isStorageKnown = true
  cases c.status <;> rfl

theorem touchEmptyEip161 (c : CacheAccount) : CacheInv v removed c.touchEmptyEip161.2 := by
  refine of_removed rfl ?_
  show c.status.onTouchedEmptyPostEip161.isStorageKnown = true
  cases c.status <;> rfl

theorem newlyCreated (c : CacheAccount) (info : AccountInfo) (storage : StorageWithOriginalValues) :
    CacheInv v ⟨some info, fun k => ((storage.lookup k).map (·.presentValue)).getD 0⟩
      (c.newlyCreated info storage).2 := by
  have hknown : c.status.onCreated.isStorageKnown = true := by cases c.status <;> rfl
  refine of_changed (fun h => ?_) (fun h => ?_) (fun k => ?_)
  · rw [h] at hknown
    cases hknown
  · rw [h] at hknown
    cases hknown
  · simp [hknown, presentValues]

/-- A change keeps the value of every slot it does not write, also where the status goes to one
that no longer asks the database. -/
theorem onChanged_storage (hv : v.NoDangling) (h : CacheInv v r c)
    (k : StorageKey) : (((c.account.map PlainAccount.storage).getD ∅).lookup k).getD
        (if (c.status.onChanged (hadNoNonceAndCode c.accountInfo)).isStorageKnown
          then 0 else v.storage k) = r.storage k := by
  rw [← h.storage k]
  cases hacc : c.account with
  | none =>
    have hknown := h.missing hacc
    have hknown' : ∀ b, (c.status.onChanged b).isStorageKnown = true := by
      intro b
      cases hs : c.status <;> simp_all [AccountStatus.isStorageKnown, AccountStatus.onChanged]
    simp [storageAt, hacc, hknown']
  | some plain =>
    -- Only loaded accounts without nonce and code, and empty ones, change what is known; the
    -- database has no storage for them.
    have hdefault : (if (c.status.onChanged
        (hadNoNonceAndCode c.accountInfo)).isStorageKnown then 0 else v.storage k) =
        if c.status.isStorageKnown then 0 else v.storage k := by
      cases hs : c.status with
      | loaded =>
        cases hn : hadNoNonceAndCode c.accountInfo with
        | false => simp [AccountStatus.onChanged, AccountStatus.isStorageKnown]
        | true =>
          have hinfo := h.loaded hs
          have hcode : v.codeless = true := by
            cases hvi : v.info with
            | none => simp [codeless, hvi]
            | some i =>
              rw [hinfo, hvi] at hn
              have hi : i.hasNoCodeAndNonce = true := hn
              simp [codeless, hvi, hi]
          simp [AccountStatus.onChanged, AccountStatus.isStorageKnown, hv hcode k]
      | loadedEmptyEip161 =>
        simp [AccountStatus.onChanged, AccountStatus.isStorageKnown, hv (h.loadedEmpty hs) k]
      | loadedNotExisting => rfl
      | inMemoryChange => rfl
      | changed => rfl
      | destroyed => rfl
      | destroyedChanged => rfl
      | destroyedAgain => rfl
    simp only [storageAt, hacc, Option.map_some, Option.getD_some]
    rw [hdefault]

theorem onChanged_ne (status : AccountStatus) (b : Bool) :
    status.onChanged b ≠ .loaded ∧ status.onChanged b ≠ .loadedEmptyEip161 := by
  cases status <;> cases b <;> exact ⟨by decide, by decide⟩

theorem change (hv : v.NoDangling) (h : CacheInv v r c)
    (info : AccountInfo) (storage : StorageWithOriginalValues) :
    CacheInv v ⟨some info, fun k => ((storage.lookup k).map (·.presentValue)).getD (r.storage k)⟩
      (c.change info storage).2 := by
  obtain ⟨hl, he⟩ := onChanged_ne c.status (hadNoNonceAndCode c.accountInfo)
  refine of_changed hl he (fun k => ?_)
  have hold := onChanged_storage hv h k
  rw [HashMap.lookup_union, presentValues, HashMap.lookup_mapValues]
  cases hk : storage.lookup k with
  | none => simpa using hold
  | some slot => simp

theorem incrementBalance (hv : v.NoDangling) (h : CacheInv v r c) (balance : BitVec 128) :
    CacheInv v (r.incrementBalance balance) (c.incrementBalance balance).2 := by
  by_cases hz : balance = 0
  · rw [PlainView.incrementBalance, CacheAccount.incrementBalance, if_pos hz, if_pos hz]
    exact h
  · obtain ⟨hl, he⟩ := onChanged_ne c.status (CacheAccount.hadNoNonceAndCode c.accountInfo)
    have hinfo : (c.account.getD PlainAccount.default).info = r.info.getD default := by
      rw [← h.getD_accountInfo]
      cases hacc : c.account <;> simp [CacheAccount.accountInfo, hacc, PlainAccount.default]
    have hstorage : (c.account.getD PlainAccount.default).storage =
        (c.account.map PlainAccount.storage).getD ∅ := by
      cases c.account <;> rfl
    simp only [PlainView.incrementBalance, CacheAccount.incrementBalance, if_neg hz,
      CacheAccount.accountInfoChange, hinfo]
    refine of_changed hl he (fun k => ?_)
    rw [hstorage]
    exact onChanged_storage hv h k

/-- The slots of a commit, with the unchanged ones filtered out: an unchanged slot already has the
value of the reference. -/
theorem changedStorage_getD (storage : EvmStorage) (k : StorageKey) (value : StorageValue)
    (horig : ∀ slot, storage.lookup k = some slot → slot.originalValue = value) :
    (((changedStorage storage).lookup k).map (·.presentValue)).getD value =
      ((storage.lookup k).map (·.presentValue)).getD value := by
  rw [changedStorage, HashMap.lookup_filterMapValues]
  cases hk : storage.lookup k with
  | none => rfl
  | some slot =>
    have hslot := horig slot hk
    by_cases hc : slot.originalValue = slot.presentValue
    · simp [EvmStorageSlot.isChanged, hc, ← hslot]
    · simp [EvmStorageSlot.isChanged, hc, StorageSlot.ofEvm]

/-- One commit on one address. -/
theorem commitTouched (hv : v.NoDangling) (h : CacheInv v r c) (htouched : account.isTouched = true)
    (horig : ∀ k slot, account.storage.lookup k = some slot →
      slot.originalValue = if account.isCreated then 0 else r.storage k) :
    CacheInv v (r.commit account) (c.commitTouched account).2 := by
  cases hsd : account.isSelfdestructed with
  | true =>
    have hr : r.commit account = removed := by
      simp [commit, htouched, hsd]
    have hc : c.commitTouched account = c.selfdestruct := by
      simp [CacheAccount.commitTouched, hsd]
    rw [hr, hc]
    exact selfdestruct c
  | false =>
    cases hcr : account.isCreated with
    | true =>
      have hr : r.commit account = ⟨some account.info,
          fun k => ((account.storage.lookup k).map (·.presentValue)).getD 0⟩ := by
        simp [commit, htouched, hsd, hcr]
      have hc : (c.commitTouched account).2 =
          (c.newlyCreated account.info (changedStorage account.storage)).2 := by
        simp [CacheAccount.commitTouched, hsd, hcr]
      have hnew := newlyCreated (v := v) c account.info (changedStorage account.storage)
      rw [hr, hc]
      convert hnew using 3 with k
      refine (changedStorage_getD account.storage k 0 fun slot hslot => ?_).symm
      rw [horig k slot hslot, hcr, if_pos rfl]
    | false =>
      cases hem : account.isEmpty with
      | true =>
        have hr : r.commit account = removed := by
          simp [commit, htouched, hsd, hcr, hem]
        have hc : c.commitTouched account = c.touchEmptyEip161 := by
          simp [CacheAccount.commitTouched, hsd, hcr, hem]
        rw [hr, hc]
        exact touchEmptyEip161 c
      | false =>
        have hr : r.commit account = ⟨some account.info,
            fun k => ((account.storage.lookup k).map (·.presentValue)).getD (r.storage k)⟩ := by
          simp [commit, htouched, hsd, hcr, hem]
        have hc : (c.commitTouched account).2 =
            (c.change account.info (changedStorage account.storage)).2 := by
          simp [CacheAccount.commitTouched, hsd, hcr, hem]
        have hchange := change hv h account.info (changedStorage account.storage)
        rw [hr, hc]
        convert hchange using 3 with k
        refine (changedStorage_getD account.storage k (r.storage k) fun slot hslot => ?_).symm
        rw [horig k slot hslot, hcr]
        rfl

/-- A storage read keeps the relation. -/
theorem cacheSlot (h : CacheInv v r c) (k : StorageKey) : CacheInv v r (c.cacheSlot v k) := by
  refine ⟨?_, fun k' => ?_, ?_, h.loadedEmpty, fun hnone => h.missing ?_⟩
  · rw [cacheSlot_accountInfo]
    exact h.info
  · rw [cacheSlot_storageAt]
    exact h.storage k'
  · rw [cacheSlot_accountInfo]
    exact h.loaded
  · exact Option.map_eq_none_iff.1 hnone

end CacheInv

/-! ## Slices -/

namespace SliceInv

variable {v r : PlainView} {x : Slice}

section

variable (hv : v.NoDangling)

include hv

/-- Loading an address on demand. -/
theorem loaded (h : SliceInv v r x.cache) : CacheInv v r (x.loaded v) := by
  cases hc : x.cache with
  | none =>
    have hr : r = v.norm := by simpa [SliceInv, hc] using h
    rw [hr]
    simpa [Slice.loaded, hc] using CacheInv.ofPlain hv
  | some c => simpa [SliceInv, Slice.loaded, hc] using h

theorem commit (h : SliceInv v r x.cache) (hcached : x.cache.isSome)
    (horig : ∀ k slot, account.storage.lookup k = some slot →
      slot.originalValue = if account.isCreated then 0 else r.storage k) :
    SliceInv v (r.commit account) (x.commit collect account).cache := by
  obtain ⟨c, hc⟩ := Option.isSome_iff_exists.1 hcached
  have hinv : CacheInv v r c := by simpa [SliceInv, hc] using h
  rw [Slice.commit_of_cached hc]
  cases ht : account.isTouched with
  | true => exact hinv.commitTouched hv ht horig
  | false =>
    have hr : r.commit account = r := by simp [PlainView.commit, ht]
    rw [hr]
    exact h

theorem incrementBalance (balance : BitVec 128) (h : SliceInv v r x.cache) :
    SliceInv v (r.incrementBalance balance) (x.incrementBalance v collect balance).cache := by
  by_cases hz : balance = 0
  · rw [PlainView.incrementBalance, Slice.incrementBalance, if_pos hz, if_pos hz]
    exact h
  · rw [Slice.incrementBalance, if_neg hz]
    exact (h.loaded hv).incrementBalance hv balance

/-- A list of balance increments, seen at one address. -/
theorem incrementBalances (a : Address) (balances : List (Address × BitVec 128)) (d : PlainState)
    (h : SliceInv v (d a) x.cache) : SliceInv v (d.incrementBalances balances a)
      (Slice.incrementBalances v a collect balances x).cache := by
  induction balances generalizing d x with
  | nil => exact h
  | cons entry rest ih =>
    obtain ⟨b, balance⟩ := entry
    refine ih (Function.update d b ((d b).incrementBalance balance)) ?_
    by_cases hab : a = b
    · subst hab
      rw [Function.update_self, if_pos rfl]
      exact h.incrementBalance hv balance
    · rw [Function.update_of_ne hab, if_neg hab]
      exact h

end

end SliceInv

/-! ## Runs -/

/-- The operations of a run: reads, balance increments and commits. -/
inductive StateOp where
  | basic (address : Address)
  | storage (address : Address) (index : StorageKey)
  | incrementBalances (balances : List (Address × BitVec 128))
  | commit (evmState : EvmState)

/-- What an operation answers. Empty accounts are answered as missing ones. -/
inductive Answer where
  | info (info : Option AccountInfo)
  | value (value : StorageValue)
  | done
  deriving DecidableEq

/-- One operation on `State`. `none` is a panic. -/
def State.exec (s : State ε) : StateOp → Option (Except ε (Answer × State ε))
  | .basic a => some ((s.basic a).map fun r => (.info (nonEmpty r.1), r.2))
  | .storage a k => (s.storage a k).map fun res => res.map fun r => (.value r.1, r.2)
  | .incrementBalances balances =>
      match s.incrementBalances balances with
      | .error e => some (.error e)
      | .ok none => none
      | .ok (some s') => some (.ok (.done, s'))
  | .commit evmState => (s.commit evmState).map fun s' => .ok (.done, s')

/-- A run of operations on `State`, with all answers. It ends at the first panic or error. -/
def State.run : List StateOp → State ε → Option (Except ε (List Answer × State ε))
  | [], s => some (.ok ([], s))
  | op :: ops, s =>
      match s.exec op with
      | none => none
      | some (.error e) => some (.error e)
      | some (.ok (answer, s')) =>
          (s'.run ops).map fun res => res.map fun r => (answer :: r.1, r.2)

namespace PlainState

/-- One operation on the reference. -/
def exec (r : PlainState) : StateOp → Answer × PlainState
  | .basic a => (.info (nonEmpty (r a).info), r)
  | .storage a k => (.value ((r a).storage k), r)
  | .incrementBalances balances => (.done, r.incrementBalances balances)
  | .commit evmState => (.done, r.commit evmState)

/-- The answers of a run on the reference. -/
def run : List StateOp → PlainState → List Answer
  | [], _ => []
  | op :: ops, r => (r.exec op).1 :: run ops (r.exec op).2

end PlainState

namespace StateOp

/-- The addresses that an operation loads. -/
def loads : StateOp → List Address
  | .basic a => [a]
  | .storage _ _ => []
  | .incrementBalances balances => (balances.filter (·.2 ≠ 0)).map (·.1)
  | .commit _ => []

/-- What a caller promises: storage is read and accounts are committed only after a load, and each
slot of a commit has as original value the one of the reference, zero for a created account. -/
def Admissible (loaded : List Address) (r : PlainState) : StateOp → Prop
  | .basic _ => True
  | .storage a _ => a ∈ loaded
  | .incrementBalances _ => True
  | .commit evmState =>
      ∀ a account, evmState.lookup a = some account →
        a ∈ loaded ∧ ∀ k slot, account.storage.lookup k = some slot →
          slot.originalValue = if account.isCreated then 0 else (r a).storage k

/-- Every operation of the list is admissible where it is performed. -/
def AdmissibleRun : List Address → PlainState → List StateOp → Prop
  | _, _, [] => True
  | loaded, r, op :: ops =>
      op.Admissible loaded r ∧ AdmissibleRun (op.loads ++ loaded) (r.exec op).2 ops

end StateOp

/-- The relation between a state and the reference: every address is related, and the loaded
addresses are cached. -/
structure Refines (d : PlainState) (code : B256 → Bytecode) (loaded : List Address) (r : PlainState)
    (s : State ε) : Prop where
  reads : s.Over d code
  slices : ∀ a, SliceInv (d a) (r a) (s.slice a).cache
  cached : ∀ a ∈ loaded, (s.slice a).cache.isSome

/-- Balance increments never drop a cached account, and cache the accounts they change. -/
theorem Slice.incrementBalances_isSome (v : PlainView) (a : Address) (collect : Bool)
    (balances : List (Address × BitVec 128)) (x : Slice)
    (h : x.cache.isSome ∨ a ∈ (balances.filter (·.2 ≠ 0)).map (·.1)) :
    (Slice.incrementBalances v a collect balances x).cache.isSome := by
  induction balances generalizing x with
  | nil =>
    rcases h with h | h
    · exact h
    · cases h
  | cons entry rest ih =>
    obtain ⟨b, balance⟩ := entry
    refine ih _ ?_
    by_cases hab : a = b
    · subst hab
      rw [if_pos rfl]
      by_cases hz : balance = 0
      · rw [Slice.incrementBalance, if_pos hz]
        simpa [hz] using h
      · left
        rw [Slice.incrementBalance, if_neg hz]
        rfl
    · rw [if_neg hab]
      rcases h with h | h
      · exact Or.inl h
      · right
        by_cases hz : balance = 0
        · simpa [hz] using h
        · simpa [hz, hab] using h

namespace Refines

variable {d : PlainState} {code : B256 → Bytecode} {loaded : List Address} {r : PlainState}
  {s : State ε}

/-- A state whose slices are those of `s`, except that `a` may have been loaded. -/
theorem of_loaded {a : Address} (h : Refines d code loaded r s) {s' : State ε}
    (hs' : s'.Over d code) (hc : CacheInv (d a) (r a) c)
    (hslice : ∀ b, (s'.slice b).cache = if b = a then some c else (s.slice b).cache) :
    Refines d code (a :: loaded) r s' := by
  refine ⟨hs', fun b => ?_, fun b hb => ?_⟩
  · rw [hslice]
    by_cases hba : b = a
    · subst hba
      rw [if_pos rfl]
      exact hc
    · rw [if_neg hba]
      exact h.slices b
  · rw [hslice]
    by_cases hba : b = a
    · rw [if_pos hba]
      rfl
    · rw [if_neg hba]
      exact h.cached b ((List.mem_cons.1 hb).resolve_left hba)

theorem exec_basic (hd : d.NoDanglingStorage) (h : Refines d code loaded r s) (a : Address) :
    ∃ s', s.exec (.basic a) = some (.ok ((r.exec (.basic a)).1, s')) ∧
      Refines d code (a :: loaded) r s' := by
  obtain ⟨s', hrun, hs', -, -, hslice⟩ := State.basic_slice h.reads a
  have hc := (h.slices a).loaded (hd a)
  refine ⟨s', ?_, h.of_loaded hs' hc fun b => ?_⟩
  · simp only [State.exec, hrun, Except.map, PlainState.exec]
    rw [hc.nonEmpty_accountInfo]
  · rw [hslice]
    by_cases hba : b = a
    · subst hba
      simp
    · simp [hba]

theorem exec_storage (h : Refines d code loaded r s) (a : Address) (k : StorageKey)
    (ha : a ∈ loaded) : ∃ s', s.exec (.storage a k) = some (.ok ((r.exec (.storage a k)).1, s')) ∧
      Refines d code loaded r s' := by
  obtain ⟨c, hc⟩ := Option.isSome_iff_exists.1 (h.cached a ha)
  obtain ⟨s', hrun, hs', -, -, hslice⟩ := State.storage_slice h.reads hc k
  have hinv : CacheInv (d a) (r a) c := by
    have hinv := h.slices a
    rwa [hc] at hinv
  have hrel : Refines d code (a :: loaded) r s' := h.of_loaded hs' (hinv.cacheSlot k) fun b => by
    rw [hslice]
    split_ifs <;> rfl
  refine ⟨s', ?_, ⟨hrel.reads, hrel.slices, fun b hb => hrel.cached b (List.mem_cons_of_mem a hb)⟩⟩
  simp only [State.exec, hrun, Option.map_some, Except.map, PlainState.exec]
  rw [hinv.storage k]

section

variable (hd : d.NoDanglingStorage)

include hd

section

variable (h : Refines d code loaded r s)

include h

theorem exec_incrementBalances (balances : List (Address × BitVec 128)) :
    ∃ s', s.exec (.incrementBalances balances) = some (.ok (.done, s')) ∧
      Refines d code ((StateOp.incrementBalances balances).loads ++ loaded)
        (r.incrementBalances balances) s' := by
  obtain ⟨s', hrun, hs', -, -, hslice⟩ := State.incrementBalances_slice h.reads balances
  refine ⟨s', by simp only [State.exec, hrun], hs', fun a => ?_, fun a ha => ?_⟩
  · rw [hslice]
    exact SliceInv.incrementBalances (hd a) a balances r (h.slices a)
  · rw [hslice]
    refine Slice.incrementBalances_isSome (d a) a _ balances _ ?_
    rcases List.mem_append.1 ha with hl | hl
    · exact Or.inr hl
    · exact Or.inl (h.cached a hl)

theorem exec_commit (evmState : EvmState) (hop : (StateOp.commit evmState).Admissible loaded r) :
    ∃ s', s.exec (.commit evmState) = some (.ok (.done, s')) ∧
      Refines d code loaded (r.commit evmState) s' := by
  obtain ⟨s', hrun, hs', -, -, hslice⟩ := State.commit_slice h.reads evmState
    fun a account hlook => h.cached a (hop a account hlook).1
  refine ⟨s', by simp only [State.exec, hrun, Option.map_some], hs', fun a => ?_, fun a ha => ?_⟩
  · rw [hslice, PlainState.commit]
    cases hlook : evmState.lookup a with
    | none => exact h.slices a
    | some account =>
      obtain ⟨hloaded, horig⟩ := hop a account hlook
      exact (h.slices a).commit (hd a) (h.cached a hloaded) horig
  · obtain ⟨c, hc⟩ := Option.isSome_iff_exists.1 (h.cached a ha)
    rw [hslice]
    cases evmState.lookup a with
    | none => exact h.cached a ha
    | some account =>
      simp only [Slice.commit_of_cached hc]
      split_ifs
      · rfl
      · exact h.cached a ha

/-- One admissible operation neither panics nor fails, answers as the reference and keeps the
relation. -/
theorem exec (op : StateOp)
    (hop : op.Admissible loaded r) : ∃ s', s.exec op = some (.ok ((r.exec op).1, s')) ∧
      Refines d code (op.loads ++ loaded) (r.exec op).2 s' := by
  cases op with
  | basic a => exact h.exec_basic hd a
  | storage a k => exact h.exec_storage a k hop
  | incrementBalances balances => exact h.exec_incrementBalances hd balances
  | commit evmState => exact h.exec_commit hd evmState hop

end

/-- Every admissible run, from related states. -/
theorem run (ops : List StateOp) (h : Refines d code loaded r s)
    (hops : StateOp.AdmissibleRun loaded r ops) :
    ∃ s', s.run ops = some (.ok (PlainState.run ops r, s')) := by
  induction ops generalizing loaded r s with
  | nil => exact ⟨s, rfl⟩
  | cons op ops ih =>
    obtain ⟨hop, hrest⟩ := hops
    obtain ⟨s₁, hexec, hrel⟩ := h.exec hd op hop
    obtain ⟨s₂, hrun⟩ := ih hrel hrest
    refine ⟨s₂, ?_⟩
    simp only [State.run, hexec, hrun, Option.map_some, Except.map, PlainState.run]

end

end Refines

/-- A fresh state stands for the plain state it reads, with empty accounts dropped. -/
theorem State.new_refines (d : PlainState) (code : B256 → Bytecode) (bundleUpdate : Bool) :
    Refines d code [] d.norm (State.new d code bundleUpdate : State ε) :=
  ⟨State.new_over d code bundleUpdate, fun _ => rfl, nofun⟩

/-- A fresh state over a database without dangling storage answers every admissible run of reads,
balance increments and commits as the plain state does, and never panics. -/
theorem State.run_refines (d : PlainState) (code : B256 → Bytecode) (bundleUpdate : Bool)
    (hd : d.NoDanglingStorage) (ops : List StateOp) (hops : StateOp.AdmissibleRun [] d.norm ops) :
    ∃ s', (State.new d code bundleUpdate : State ε).run ops =
      some (.ok (PlainState.run ops d.norm, s')) :=
  (State.new_refines d code bundleUpdate).run hd ops hops

/-- A contract at address `1` with one slot. -/
def contractDatabase : PlainState := fun a =>
  if a = 1 then
    ⟨some { default with balance := 5, nonce := 1 }, fun k => if k = 1 then 7 else 0⟩
  else removed

theorem contractDatabase_noDanglingStorage : contractDatabase.NoDanglingStorage := by
  intro a hcode k
  by_cases ha : a = 1
  · subst ha
    exact absurd hcode (by decide)
  · rw [contractDatabase, if_neg ha]
    rfl

/-- The contract writes its slot. -/
def contractWrite : EvmState :=
  (∅ : EvmState).insert 1
    { info := { default with balance := 5, nonce := 1 }
      originalInfo := { default with balance := 5, nonce := 1 }
      transactionId := 0
      storage := (∅ : EvmStorage).insert 1 ⟨7, 9, 0, false⟩
      status := { AccountFlags.empty with touched := true } }

/-- The contract destroys itself. -/
def contractDestroy : EvmState :=
  (∅ : EvmState).insert 1
    { info := default
      originalInfo := { default with balance := 5, nonce := 1 }
      transactionId := 0
      storage := ∅
      status := { AccountFlags.empty with touched := true, selfDestructed := true } }

/-- A run with a write, a balance increment of a missing account and a destruction. -/
theorem State.run_refines_contract :
    ∃ s', (State.new contractDatabase (fun _ => Bytecode.default) true : State Empty).run
        [.basic 1, .storage 1 1, .commit contractWrite, .storage 1 1, .incrementBalances [(2, 3)],
          .basic 2, .commit contractDestroy, .basic 1, .storage 1 1] =
      some (.ok ([.info (some { default with balance := 5, nonce := 1 }), .value 7,
        .done, .value 9, .done, .info (some { default with balance := 3 }), .done,
        .info none, .value 0], s')) := by
  have hrun := State.run_refines (ε := Empty) contractDatabase (fun _ => Bytecode.default) true
    contractDatabase_noDanglingStorage
    [.basic 1, .storage 1 1, .commit contractWrite, .storage 1 1, .incrementBalances [(2, 3)],
      .basic 2, .commit contractDestroy, .basic 1, .storage 1 1]
  have hwrite : ∀ r : PlainState, (r 1).storage 1 = 7 →
      (StateOp.commit contractWrite).Admissible [1] r := by
    intro r hr a account hlook
    obtain ⟨rfl, rfl⟩ := HashMap.lookup_singleton hlook
    refine ⟨by decide, fun k slot hslot => ?_⟩
    obtain ⟨rfl, rfl⟩ := HashMap.lookup_singleton hslot
    exact hr.symm
  have hdestroy : ∀ r : PlainState, (StateOp.commit contractDestroy).Admissible [2, 2, 1] r := by
    intro r a account hlook
    obtain ⟨rfl, rfl⟩ := HashMap.lookup_singleton hlook
    exact ⟨by decide, nofun⟩
  exact hrun ⟨trivial, List.mem_singleton.2 rfl, hwrite _ rfl, List.mem_singleton.2 rfl, trivial,
    trivial, hdestroy _, trivial, List.mem_cons_self, trivial⟩

end Revm
