import Revm.Database.PlainState

/-!
# State operations, address by address

Every operation of `State` acts on each address separately: on its cached account, its pending
transition and its bundle account. This file proves that for loads, storage reads, commits, balance
increments and merges, so that the invariants of the later files are about one address.

`State.Over d` says that the state reads the plain state `d`, has the state clear rule on and no
preloaded bundle.
-/

set_option autoImplicit false

namespace Revm

open CacheAccount

variable {ε : Type} {code : B256 → Bytecode} {d : PlainState}

/-- What a state holds about one address. -/
structure Slice where
  cache : Option CacheAccount
  transition : Option TransitionAccount
  bundle : Option BundleAccount

/-- The slice of a state at an address. -/
def State.slice (s : State ε) (a : Address) : Slice where
  cache := s.cache.accounts.lookup a
  transition := s.transitionState.bind fun t => t.lookup a
  bundle := s.bundleState.state.lookup a

/-- A state that reads the plain state `d`, with state clear on and no preloaded bundle. -/
structure State.Over (d : PlainState) (code : B256 → Bytecode) (s : State ε) : Prop where
  database : s.database = d.toDatabase code
  stateClear : s.cache.hasStateClear = true
  noPreload : s.usePreloadedBundle = false

/-- A fresh state over a plain state. `bundleUpdate` turns the collection of transitions on. -/
def State.new (d : PlainState) (code : B256 → Bytecode) (bundleUpdate : Bool) : State ε where
  cache := ⟨∅, true⟩
  database := d.toDatabase code
  transitionState := if bundleUpdate then some ∅ else none
  bundleState := BundleState.empty
  usePreloadedBundle := false

theorem State.new_over (d : PlainState) (code : B256 → Bytecode) (bundleUpdate : Bool) :
    (State.new d code bundleUpdate : State ε).Over d code :=
  ⟨rfl, rfl, rfl⟩

/-! ## Loads and reads -/

/-- The account that `load_cache_account` makes of a database answer. -/
def CacheAccount.ofPlain (v : PlainView) : CacheAccount :=
  match v.info with
  | none => CacheAccount.newLoadedNotExisting
  | some acc =>
      if acc.isEmpty then CacheAccount.newLoadedEmptyEip161 ∅ else CacheAccount.newLoaded acc ∅

/-- The cached account of a slice, loaded on demand. -/
def Slice.loaded (v : PlainView) (x : Slice) : CacheAccount :=
  x.cache.getD (CacheAccount.ofPlain v)

namespace State

variable {s : State ε}

/-- Replacing one cached account. -/
def setCached (s : State ε) (a : Address) (c : CacheAccount) : State ε :=
  { s with cache := { s.cache with accounts := s.cache.accounts.insert a c } }

theorem slice_setCached (s : State ε) (a b : Address) (c : CacheAccount) :
    (s.setCached a c).slice b = if b = a then { s.slice b with cache := some c } else s.slice
      b := by
  by_cases h : b = a
  · subst h
    simp [slice, setCached]
  · simp [slice, setCached, h]

section

variable (hs : s.Over d code)

include hs

variable (a : Address)

theorem over_setCached (c : CacheAccount) : (s.setCached a c).Over d code :=
  ⟨hs.database, hs.stateClear, hs.noPreload⟩

/-- `load_cache_account` over a plain state answers with the cached account, or with the account of
the plain state, which it then caches. -/
theorem loadCacheAccount_over :
    ∃ s', s.loadCacheAccount a = .ok ((s.slice a).loaded (d a), s') ∧
      (s' = s ∧ (s.slice a).cache.isSome ∨ s' = s.setCached a ((s.slice a).loaded (d a))) := by
  cases hc : s.cache.accounts.lookup a with
  | some c =>
    refine ⟨s, ?_, Or.inl ⟨rfl, by simp [slice, hc]⟩⟩
    simp [loadCacheAccount, hc, Slice.loaded, slice]
  | none =>
    refine ⟨s.setCached a ((s.slice a).loaded (d a)), ?_, Or.inr rfl⟩
    have hl : (s.slice a).loaded (d a) = ofPlain (d a) := by
      simp [Slice.loaded, slice, hc]
    have hbasic : s.database.basic a = .ok (d a).info := by
      rw [hs.database]
      rfl
    have hbundle : (if s.usePreloadedBundle then s.bundleState.state.lookup a else none) =
        none := by
      simp [hs.noPreload]
    rw [hl]
    simp only [loadCacheAccount, hc, hbundle, hbasic, ofPlain]
    cases hi : (d a).info with
    | none => rfl
    | some acc => cases he : acc.isEmpty <;> simp [he, setCached]

/-- After a load the address is cached, and nothing else changed. -/
theorem loadCacheAccount_slice :
    ∃ s', s.loadCacheAccount a = .ok ((s.slice a).loaded (d a), s') ∧ s'.Over d code ∧
      s'.transitionState = s.transitionState ∧ s'.bundleState = s.bundleState ∧
      ∀ b, s'.slice b =
        if b = a then { s.slice b with cache := some ((s.slice b).loaded (d b)) }
        else s.slice b := by
  obtain ⟨s', hload, hcase⟩ := loadCacheAccount_over hs a
  refine ⟨s', hload, ?_⟩
  rcases hcase with ⟨rfl, hsome⟩ | rfl
  · refine ⟨hs, rfl, rfl, fun b => ?_⟩
    by_cases hb : b = a
    · subst hb
      obtain ⟨c, hc⟩ := Option.isSome_iff_exists.1 hsome
      rw [if_pos rfl]
      have hx : (s'.slice b).loaded (d b) = c := by simp [Slice.loaded, hc]
      rw [hx, ← hc]
    · rw [if_neg hb]
  · refine ⟨over_setCached hs a _, rfl, rfl, fun b => ?_⟩
    rw [slice_setCached]
    by_cases hb : b = a
    · subst hb
      rfl
    · rw [if_neg hb, if_neg hb]

/-- `basic` answers with the info of the loaded account. -/
theorem basic_slice :
    ∃ s', s.basic a = .ok (((s.slice a).loaded (d a)).accountInfo, s') ∧ s'.Over d code ∧
      s'.transitionState = s.transitionState ∧ s'.bundleState = s.bundleState ∧
      ∀ b, s'.slice b =
        if b = a then { s.slice b with cache := some ((s.slice b).loaded (d b)) }
        else s.slice b := by
  obtain ⟨s', hload, hrest⟩ := loadCacheAccount_slice hs a
  exact ⟨s', by simp [basic, hload], hrest⟩

end

end State

variable (c : CacheAccount)

/-- What `storage` answers for a cached account over a plain account. -/
def CacheAccount.storageAt (v : PlainView) (k : StorageKey) : StorageValue :=
  match c.account with
  | none => 0
  | some plain =>
      (plain.storage.lookup k).getD (if c.status.isStorageKnown then 0 else v.storage k)

/-- The cached account after a storage read, which caches the value of a missing slot. -/
def CacheAccount.cacheSlot (v : PlainView) (k : StorageKey) : CacheAccount :=
  { c with
    account := c.account.map fun plain =>
      match plain.storage.lookup k with
      | some _ => plain
      | none => { plain with storage := plain.storage.insert k (c.storageAt v k) } }

@[simp] theorem CacheAccount.cacheSlot_accountInfo (v : PlainView)
    (k : StorageKey) : (c.cacheSlot v k).accountInfo = c.accountInfo := by
  cases hc : c.account with
  | none => simp [cacheSlot, accountInfo, hc]
  | some plain =>
    simp only [cacheSlot, accountInfo, hc, Option.map_some, Option.some.injEq]
    cases plain.storage.lookup k <;> rfl

/-- A storage read does not change what later reads answer. -/
@[simp] theorem CacheAccount.cacheSlot_storageAt (v : PlainView)
    (k k' : StorageKey) : (c.cacheSlot v k).storageAt v k' = c.storageAt v k' := by
  cases hc : c.account with
  | none => simp [cacheSlot, storageAt, hc]
  | some plain =>
    cases hk : plain.storage.lookup k with
    | some value => simp [cacheSlot, storageAt, hc, hk]
    | none =>
      simp only [cacheSlot, storageAt, hc, hk, Option.map_some, HashMap.lookup_insert_ite]
      by_cases hkk : k' = k
      · subst hkk
        simp [hk]
      · simp [hkk]

namespace State

variable {s : State ε}

/-- `storage` of a cached address. -/
theorem storage_slice (hs : s.Over d code) {a : Address} {c : CacheAccount}
    (hc : (s.slice a).cache = some c) (k : StorageKey) :
    ∃ s', s.storage a k = some (.ok (c.storageAt (d a) k, s')) ∧ s'.Over d code ∧
      s'.transitionState = s.transitionState ∧ s'.bundleState = s.bundleState ∧
      ∀ b, s'.slice b =
        if b = a then { s.slice b with cache := some (c.cacheSlot (d a) k) } else s.slice b := by
  have hc' : s.cache.accounts.lookup a = some c := hc
  -- A read that caches nothing leaves the state alone.
  have hsame : c.cacheSlot (d a) k = c → ∀ b, s.slice b =
      if b = a then { s.slice b with cache := some (c.cacheSlot (d a) k) } else s.slice b := by
    intro heq b
    by_cases hb : b = a
    · subst hb
      rw [if_pos rfl, heq, ← hc]
    · rw [if_neg hb]
  cases hacc : c.account with
  | none =>
    refine ⟨s, ?_, hs, rfl, rfl, hsame ?_⟩
    · simp [storage, hc', hacc, storageAt]
    · cases c
      simp_all [cacheSlot]
  | some plain =>
    cases hslot : plain.storage.lookup k with
    | some value =>
      refine ⟨s, ?_, hs, rfl, rfl, hsame ?_⟩
      · simp [storage, hc', hacc, hslot, storageAt]
      · cases c
        simp_all [cacheSlot]
    | none =>
      refine ⟨s.setCached a (c.cacheSlot (d a) k), ?_, over_setCached hs a _, rfl, rfl, fun b => ?_⟩
      · cases hknown : c.status.isStorageKnown with
        | true =>
          simp [storage, hc', hacc, hslot, hknown, storageAt, setCached, cacheSlot]
        | false =>
          simp [storage, hc', hacc, hslot, hknown, storageAt, setCached,
            cacheSlot, hs.database, PlainState.toDatabase]
      · rw [slice_setCached]

end State

/-! ## Pending transitions -/

/-- A transition joined to the pending one of the same address. -/
def addTransition (pending new : Option TransitionAccount) : Option TransitionAccount :=
  match new with
  | none => pending
  | some t => some ((pending.map fun entry => entry.update t).getD t)

/-- The pending transition of an address after a list of transitions. -/
def addTransitionList (a : Address) (transitions : Transitions)
    (pending : Option TransitionAccount) : Option TransitionAccount :=
  (transitions.filter (·.1 = a)).foldl (fun p t => addTransition p (some t.2)) pending

theorem addTransitionList_append (a b : Address) (transitions : Transitions)
    (t : TransitionAccount) (pending : Option TransitionAccount) :
    addTransitionList a (transitions ++ [(b, t)]) pending =
      if a = b then addTransition (addTransitionList a transitions pending) (some t)
      else addTransitionList a transitions pending := by
  by_cases h : b = a
  · subst h
    simp [addTransitionList]
  · simp [addTransitionList, h, Ne.symm h]

theorem TransitionState.lookup_addTransitions (a : Address)
    (transitions : Transitions) (ts : TransitionState) :
    (ts.addTransitions transitions).lookup a = addTransitionList a transitions (ts.lookup a) := by
  induction transitions generalizing ts with
  | nil => rfl
  | cons t rest ih =>
    obtain ⟨b, t⟩ := t
    have hcons : ts.addTransitions ((b, t) :: rest) =
        (ts.addTransitions [(b, t)]).addTransitions rest := rfl
    rw [hcons, ih]
    have hone : (ts.addTransitions [(b, t)]).lookup a =
        if a = b then addTransition (ts.lookup a) (some t) else ts.lookup a := by
      simp only [addTransitions, List.foldl_cons, List.foldl_nil]
      by_cases hab : a = b
      · subst hab
        cases hl : ts.lookup a <;> simp [addTransition]
      · cases hl : ts.lookup b <;> simp [hab]
    rw [hone]
    by_cases hab : b = a
    · subst hab
      simp [addTransitionList]
    · simp [addTransitionList, hab, Ne.symm hab]

/-- Storing a cached account and, when transitions are collected, its transition. -/
def Slice.push (x : Slice) (collect : Bool) (r : Option TransitionAccount × CacheAccount) : Slice :=
  { x with
    cache := some r.2
    transition := if collect then addTransition x.transition r.1 else x.transition }

namespace State

variable (s : State ε) (transitions : Transitions)

/-- The slice of a state whose loop has collected `transitions` but not applied them yet. -/
def batchSlice (a : Address) : Slice :=
  { s.slice a with
    transition :=
      if s.transitionState.isSome then addTransitionList a transitions (s.slice a).transition
      else (s.slice a).transition }

@[simp] theorem batchSlice_nil (a : Address) : s.batchSlice [] a = s.slice a := by
  simp [batchSlice, addTransitionList]

theorem slice_applyTransition
    (a : Address) : (s.applyTransition transitions).slice a = s.batchSlice transitions a := by
  cases h : s.transitionState with
  | none => simp [applyTransition, slice, batchSlice, h]
  | some ts => simp [applyTransition, slice, batchSlice, h, TransitionState.lookup_addTransitions]

/-- Storing a cached account and appending its transition to the batch. -/
theorem batchSlice_setCached
    (a b : Address) (r : Option TransitionAccount × CacheAccount) : (s.setCached a r.2).batchSlice
        (transitions ++ (r.1.map fun t => (a, t)).toList) b =
      if b = a then (s.batchSlice transitions b).push s.transitionState.isSome r
      else s.batchSlice transitions b := by
  have hslice := slice_setCached s a b r.2
  have htr : (s.setCached a r.2).transitionState = s.transitionState := rfl
  have hlist : ∀ pending, addTransitionList b (transitions ++ (r.1.map fun t => (a, t)).toList)
      pending = if b = a then addTransition (addTransitionList b transitions pending) r.1
        else addTransitionList b transitions pending := by
    intro pending
    cases r.1 with
    | none => simp [addTransition]
    | some t => simpa using addTransitionList_append b a transitions t pending
  by_cases hb : b = a
  · subst hb
    simp only [batchSlice, hslice, htr, hlist, if_true, Slice.push]
    cases s.transitionState.isSome <;> simp
  · simp only [batchSlice, hslice, htr, hlist, if_neg hb]

end State

/-! ## Commits -/

/-- The dispatch of `apply_account_state` with the state clear rule on, where nothing panics. -/
def CacheAccount.commitTouched (account : Account) : Option TransitionAccount × CacheAccount :=
  if account.isSelfdestructed then c.selfdestruct
  else if account.isCreated then
    ((c.newlyCreated account.info (changedStorage account.storage)).map some id)
  else if account.isEmpty then c.touchEmptyEip161
  else ((c.change account.info (changedStorage account.storage)).map some id)

theorem CacheAccount.applyTouched_stateClear (account : Account) :
    c.applyTouched true account = some (c.commitTouched account) := by
  simp only [applyTouched, commitTouched, if_true]
  split_ifs <;> rfl

/-- What a commit does to a slice. -/
def Slice.commit (x : Slice) (collect : Bool) (account : Account) : Slice :=
  match x.cache with
  | none => x
  | some c => if account.isTouched then x.push collect (c.commitTouched account) else x

theorem Slice.commit_of_cached {x : Slice} {c : CacheAccount} (h : x.cache = some c)
    (collect : Bool) (account : Account) : x.commit collect account =
      if account.isTouched then x.push collect (c.commitTouched account) else x := by
  simp only [Slice.commit, h]

theorem Slice.commit_of_not_touched (x : Slice) (collect : Bool) {account : Account}
    (h : account.isTouched = false) : x.commit collect account = x := by
  unfold Slice.commit
  split <;> simp [h]

namespace State

variable {s : State ε}

/-- One step of the commit loop, with the state clear rule on. -/
theorem commitStep_eq (acc : CacheState × Transitions) (a : Address)
    (account : Account) (hclear : acc.1.hasStateClear = true) : commitStep acc a account =
      if account.isTouched then
        (acc.1.accounts.lookup a).map fun c =>
          let r := c.commitTouched account
          ({ acc.1 with accounts := acc.1.accounts.insert a r.2 },
            acc.2 ++ (r.1.map fun t => (a, t)).toList)
      else some acc := by
  cases ht : account.isTouched with
  | false => simp [commitStep, CacheState.applyAccountState, ht]
  | true =>
    cases hc : acc.1.accounts.lookup a with
    | none => simp [commitStep, CacheState.applyAccountState, ht, hc]
    | some c =>
      cases ht' : (c.commitTouched account).1 <;>
        simp [commitStep, CacheState.applyAccountState, ht, hc, hclear,
          applyTouched_stateClear, ht']

/-- The slice at `a` after a part of the commit loop of `s`. -/
def commitObs (s : State ε) (a : Address) (acc : CacheState × Transitions) : Slice :=
  { s with cache := acc.1 }.batchSlice acc.2 a

theorem commitObs_step (s : State ε) (acc acc' : CacheState × Transitions)
    (a b : Address) (account : Account) (hclear : acc.1.hasStateClear = true)
    (hrun : commitStep acc a account = some acc') : acc'.1.hasStateClear = true ∧
    commitObs s b acc' =
      if b = a then (commitObs s b acc).commit s.transitionState.isSome account
      else commitObs s b acc := by
  rw [commitStep_eq acc a account hclear] at hrun
  split_ifs at hrun with ht
  · obtain ⟨c, hc, rfl⟩ := Option.map_eq_some_iff.1 hrun
    refine ⟨hclear, ?_⟩
    have hset := batchSlice_setCached { s with cache := acc.1 } acc.2 a b (c.commitTouched account)
    refine hset.trans ?_
    by_cases hb : b = a
    · subst hb
      have hcache : (commitObs s b acc).cache = some c := hc
      rw [if_pos rfl, if_pos rfl, Slice.commit_of_cached hcache, if_pos ht]
      rfl
    · rw [if_neg hb, if_neg hb]
      rfl
  · cases hrun
    refine ⟨hclear, ?_⟩
    by_cases hb : b = a
    · rw [if_pos hb, Slice.commit_of_not_touched _ _ (Bool.eq_false_iff.2 ht)]
    · rw [if_neg hb]

/-- A commit of loaded accounts does not panic and acts on each address by `Slice.commit`. -/
theorem commit_slice (hs : s.Over d code) (evmState : EvmState)
    (hload : ∀ a account, evmState.lookup a = some account → (s.slice a).cache.isSome) :
    ∃ s', s.commit evmState = some s' ∧ s'.Over d code ∧ s'.bundleState = s.bundleState ∧
      s'.transitionState.isSome = s.transitionState.isSome ∧
      ∀ a, s'.slice a =
        match evmState.lookup a with
        | none => s.slice a
        | some account => (s.slice a).commit s.transitionState.isSome account := by
  have hP : ∀ acc a account acc', acc.1.hasStateClear = true →
      commitStep acc a account = some acc' → acc'.1.hasStateClear = true :=
    fun acc a account acc' hclear hrun => (commitObs_step s acc acc' a a account hclear hrun).1
  have hself : ∀ acc a account acc', acc.1.hasStateClear = true →
      commitStep acc a account = some acc' →
      commitObs s a acc' = (commitObs s a acc).commit s.transitionState.isSome account := by
    intro acc a account acc' hclear hrun
    rw [(commitObs_step s acc acc' a a account hclear hrun).2, if_pos rfl]
  have hother : ∀ acc a account acc' b, acc.1.hasStateClear = true →
      commitStep acc a account = some acc' → b ≠ a → commitObs s b acc' = commitObs s b acc := by
    intro acc a account acc' b hclear hrun hb
    rw [(commitObs_step s acc acc' a b account hclear hrun).2, if_neg hb]
  have hdef : ∀ a account acc, acc.1.hasStateClear = true → evmState.lookup a = some account →
      commitObs s a acc = commitObs s a (s.cache, []) → (commitStep acc a account).isSome := by
    intro a account acc hclear hlook hobs
    rw [commitStep_eq acc a account hclear]
    have hcache : acc.1.accounts.lookup a = s.cache.accounts.lookup a :=
      congrArg Slice.cache hobs
    split_ifs
    · rw [Option.isSome_map, hcache]
      exact hload a account hlook
    · rfl
  obtain ⟨acc, hacc⟩ := HashMap.foldlM_isSome commitStep (·.1.hasStateClear = true) (commitObs s)
    hP hother evmState (s.cache, []) hs.stateClear hdef
  obtain ⟨hclear, hslices⟩ := HashMap.foldlM_obs commitStep (·.1.hasStateClear = true) (commitObs s)
    (fun _ account x y => y = x.commit s.transitionState.isSome account) hP hself hother evmState
    (s.cache, []) acc hs.stateClear hacc
  refine ⟨{ s with cache := acc.1 }.applyTransition acc.2, ?_, ⟨hs.database, hclear, hs.noPreload⟩,
    rfl, ?_, fun a => ?_⟩
  · simp [commit, hacc]
  · simp [applyTransition]
  · rw [slice_applyTransition]
    have hstart : commitObs s a (s.cache, []) = s.slice a := batchSlice_nil s a
    have ha := hslices a
    rw [hstart] at ha
    cases hl : evmState.lookup a with
    | none =>
      rw [hl] at ha
      exact ha
    | some account =>
      rw [hl] at ha
      exact ha

end State

/-! ## Balance increments -/

/-- What one balance increment does to a slice. -/
def Slice.incrementBalance (v : PlainView) (x : Slice) (collect : Bool) (balance : BitVec 128) :
    Slice :=
  if balance = 0 then x else x.push collect ((x.loaded v).incrementBalance balance)

/-- What the balance increments of a list do to the slice of `a`. -/
def Slice.incrementBalances (v : PlainView) (a : Address) (collect : Bool) :
    List (Address × BitVec 128) → Slice → Slice
  | [], x => x
  | (b, balance) :: rest, x =>
      Slice.incrementBalances v a collect rest
        (if a = b then x.incrementBalance v collect balance else x)

namespace State

variable {s : State ε}

theorem incrementBalanceStep_slice (hs : s.Over d code)
    (transitions : Transitions) (a : Address) (balance : BitVec 128) :
    ∃ s' transitions', incrementBalanceStep (s, transitions) (a, balance) =
        .ok (some (s', transitions')) ∧ s'.Over d code ∧ s'.bundleState = s.bundleState ∧
      s'.transitionState = s.transitionState ∧
      ∀ b, s'.batchSlice transitions' b =
        if b = a then
          (s.batchSlice transitions b).incrementBalance (d b) s.transitionState.isSome balance
        else s.batchSlice transitions b := by
  by_cases hz : balance = 0#128
  · refine ⟨s, transitions, by simp [incrementBalanceStep, hz], hs, rfl, rfl, fun b => ?_⟩
    simp [Slice.incrementBalance, hz]
  · obtain ⟨s₁, hload, hs₁, htr, hbundle, hslice⟩ := loadCacheAccount_slice hs a
    have hr : (((s.slice a).loaded (d a)).incrementBalance balance).1.isSome := by
      simp [incrementBalance, hz]
    obtain ⟨t, ht⟩ := Option.isSome_iff_exists.1 hr
    refine ⟨s₁.setCached a (((s.slice a).loaded (d a)).incrementBalance balance).2,
      transitions ++ [(a, t)], ?_, over_setCached hs₁ a _, hbundle, htr, fun b => ?_⟩
    · simp [incrementBalanceStep, hz, hload, ht, setCached]
    · have hset := batchSlice_setCached s₁ transitions a b
        (((s.slice a).loaded (d a)).incrementBalance balance)
      rw [ht] at hset
      refine hset.trans ?_
      by_cases hb : b = a
      · subst hb
        simp [batchSlice, hslice, htr, Slice.incrementBalance, hz, Slice.push, Slice.loaded]
      · simp [batchSlice, hslice, htr, hb]

theorem incrementBalancesLoop_slice (hs : s.Over d code) (balances : List (Address × BitVec 128))
    (transitions : Transitions) :
    ∃ s' transitions', incrementBalancesLoop balances (s, transitions) =
        .ok (some (s', transitions')) ∧ s'.Over d code ∧ s'.bundleState = s.bundleState ∧
      s'.transitionState = s.transitionState ∧
      ∀ a, s'.batchSlice transitions' a =
        Slice.incrementBalances (d a) a s.transitionState.isSome balances
          (s.batchSlice transitions a) := by
  induction balances generalizing s transitions with
  | nil => exact ⟨s, transitions, rfl, hs, rfl, rfl, fun a => rfl⟩
  | cons entry rest ih =>
    obtain ⟨b, balance⟩ := entry
    obtain ⟨s₁, ts₁, hstep, hs₁, hbundle₁, htr₁, hslice₁⟩ :=
      incrementBalanceStep_slice hs transitions b balance
    obtain ⟨s₂, ts₂, hrest, hs₂, hbundle₂, htr₂, hslice₂⟩ := ih hs₁ ts₁
    refine ⟨s₂, ts₂, ?_, hs₂, hbundle₂.trans hbundle₁, htr₂.trans htr₁, fun a => ?_⟩
    · simp only [incrementBalancesLoop, hstep]
      exact hrest
    · rw [hslice₂, hslice₁, htr₁]
      rfl

/-- `increment_balances` does not fail and acts on each address by `Slice.incrementBalances`. -/
theorem incrementBalances_slice (hs : s.Over d code) (balances : List (Address × BitVec 128)) :
    ∃ s', s.incrementBalances balances = .ok (some s') ∧ s'.Over d code ∧
      s'.bundleState = s.bundleState ∧ s'.transitionState.isSome = s.transitionState.isSome ∧
      ∀ a, s'.slice a =
        Slice.incrementBalances (d a) a s.transitionState.isSome balances (s.slice a) := by
  obtain ⟨s₁, ts, hloop, hs₁, hbundle, htr, hslice⟩ := incrementBalancesLoop_slice hs balances []
  refine ⟨s₁.applyTransition ts, ?_, ⟨hs₁.database, hs₁.stateClear, hs₁.noPreload⟩, hbundle, ?_,
    fun a => ?_⟩
  · simp only [incrementBalances, hloop]
  · simp [applyTransition, htr]
  · rw [slice_applyTransition, hslice, batchSlice_nil]

end State

end Revm
