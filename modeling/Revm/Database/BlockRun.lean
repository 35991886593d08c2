import Revm.Database.BundleMerge

/-!
# Runs of loads, commits and merges

`CommitOk` states what a commit of one account must satisfy for the bundle to keep up with the
cache. `Reached d code s` says that `s` is reached from a fresh state over `d` by reads, such
commits and merges; `TrackInv` relates cache, pending transition and bundle entry of one address
along such a run.

Main result: `Reached.tracked`.
-/

set_option autoImplicit false

namespace Revm

open CacheAccount AccountStatus Option BundleState State AccountView

variable {ε : Type} {c : CacheAccount} {d : PlainState} {code : B256 → Bytecode}
variable {info : AccountInfo} {account : Account} {t : TransitionAccount} {a : Address}

/-! ## One commit on one account -/

/-- A commit that agrees with the view `w` and the status `s` of the account: slots start from
their current values, only accounts without nonce, code and storage are created, a change keeps
nonce or code, and a touched empty account is not one that is `Loaded` or `Changed`. -/
structure CommitOk (w : AccountView) (s : AccountStatus) (account : Account) : Prop where
  original : ∀ k slot, account.storage.lookup k = some slot → slot.originalValue = w.storage k
  created : account.isTouched = true → account.isSelfdestructed = false →
    account.isCreated = true → w.codeless = true ∧ ∀ k, w.storage k = 0
  changed : account.isTouched = true → account.isSelfdestructed = false →
    account.isCreated = false → account.isEmpty = false → w.codeless = false →
    account.info.hasNoCodeAndNonce = false
  emptied : account.isTouched = true → account.isSelfdestructed = false →
    account.isCreated = false → account.isEmpty = true → s ≠ .loaded ∧ s ≠ .changed

theorem codeless_of_not_isEmpty {w : AccountView} (he : info.isEmpty = false)
    (hw : w.info = infoKey (some info)) : w.codeless = info.hasNoCodeAndNonce := by
  rw [codeless, hw, infoKey_of_not_isEmpty he]
  rfl

/-- The cached account as an account of a plain state. -/
def CacheAccount.plain (c : CacheAccount) (v : PlainView) : PlainView :=
  ⟨c.accountInfo, c.storageAt v⟩

/-- What is known about a cached account over the database account `v`. -/
structure CachedInv (v : PlainView) (c : CacheAccount) : Prop where
  cache : CacheInv v (c.plain v) c
  status : StatusInv v (c.view v) c.status
  gone : c.status.isGone = true → c.account = none

/-- What one operation does to a cached account: it returns a transition from the old view to the
new one, or nothing changes. -/
structure StepInv (v : PlainView) (c : CacheAccount) (r : Option TransitionAccount × CacheAccount) :
    Prop where
  cached : CachedInv v r.2
  transition : ∀ t, r.1 = some t →
    PendingInv (c.view v) (r.2.view v) c.status t ∧ t.status = r.2.status ∧
      t.storageWasDestroyed = t.status.isGone
  nothing : r.1 = none → r.2.view v = c.view v ∧ r.2.status = c.status

namespace CachedInv

variable {v r : PlainView}
variable {status : AccountStatus} {storage : EvmStorage}

/-- The reference account may be replaced by the cached account itself. -/
theorem cacheInv_plain (h : CacheInv v r c) : CacheInv v (c.plain v) c :=
  ⟨Or.inl rfl, fun _ => rfl, h.loaded, h.loadedEmpty, h.missing⟩

theorem view_of_removed (hnone : c.account = none) : c.view v = removed := by
  refine AccountView.ext ?_ (funext fun k => ?_)
  · simp [view, accountInfo, hnone, AccountView.removed]
  · simp [view, storageAt, hnone, removed]

theorem accountInfo_of_gone (h : CachedInv v c) (hgone : c.status.isGone = true) :
    c.accountInfo = none := by
  rw [accountInfo, h.gone hgone]
  rfl

/-- An account that was removed, with a status from before that allows it. -/
theorem of_removed (hgone : status.isGone = true)
    (hlne : status = .loadedNotExisting → v.view = removed) : CachedInv v ⟨none, status⟩ := by
  have hknown : status.isStorageKnown = true := by
    revert hgone
    cases status <;> decide
  refine ⟨cacheInv_plain (CacheInv.of_removed rfl hknown), ?_, fun _ => rfl⟩
  refine ⟨fun _ hd k => ?_, fun _ => rfl, ?_, ?_, ?_, ?_⟩
  · have hs : status = .loadedNotExisting := by
      cases status with
      | loadedNotExisting => rfl
      | loaded | loadedEmptyEip161 | inMemoryChange | changed | destroyedChanged => cases hgone
      | destroyed | destroyedAgain => cases hd
    exact congrFun (congrArg AccountView.storage (hlne hs)) k
  · rintro (hs | hs | hs)
    · exact (hlne hs).symm
    · rw [show status = .loaded from hs] at hgone
      cases hgone
    · rw [show status = .loadedEmptyEip161 from hs] at hgone
      cases hgone
  · intro hs
    rw [show status = .loaded from hs] at hgone
    cases hgone
  · intro _
    rfl
  · intro hs
    rw [show status = .changed from hs] at hgone
    cases hgone

section

variable (h : CachedInv v c)

include h

/-- A missing account was missing in the database too. -/
theorem view_removed_of_loadedNotExisting
    (hs : c.status = .loadedNotExisting) : v.view = removed := by
  rw [← h.status.unchanged (Or.inl hs)]
  exact h.status.gone (by rw [hs]; rfl)

/-- The transition of a destruction. -/
theorem pending_removed (hf : c.status.follows true status = true) :
    PendingInv (c.view v) removed c.status
      { info := none, status := status, previousInfo := c.accountInfo, previousStatus := c.status,
        storage := ∅, storageWasDestroyed := true } :=
  ⟨rfl, rfl, rfl, hf, fun k => rfl, fun k slot hk => (by cases hk), fun _ => ⟨rfl, rfl⟩,
    h.accountInfo_of_gone⟩

theorem selfdestruct : StepInv v c c.selfdestruct := by
  have hgone : c.status.onSelfdestructed.isGone = true := by cases c.status <;> rfl
  have hcached : CachedInv v c.selfdestruct.2 := of_removed hgone fun hs => by
    refine h.view_removed_of_loadedNotExisting ?_
    revert hs
    cases c.status <;> simp [onSelfdestructed]
  have hview : c.selfdestruct.2.view v = removed := view_of_removed rfl
  refine ⟨hcached, fun t ht => ?_, fun hnone => ?_⟩
  · simp only [CacheAccount.selfdestruct] at ht
    split_ifs at ht with hs
    cases ht
    refine ⟨?_, rfl, hgone.symm⟩
    refine h.pending_removed ?_
    revert hs
    cases c.status <;> decide
  · simp only [CacheAccount.selfdestruct] at hnone
    split_ifs at hnone with hs
    refine ⟨?_, ?_⟩
    · rw [hview, h.status.gone (by rw [hs]; rfl)]
    · simp [CacheAccount.selfdestruct, hs, AccountStatus.onSelfdestructed]

theorem touchEmptyEip161 (hs : c.status ≠ .loaded ∧ c.status ≠ .changed) :
    StepInv v c c.touchEmptyEip161 := by
  have hgone : c.status.onTouchedEmptyPostEip161.isGone = true := by cases c.status <;> rfl
  have hcached : CachedInv v c.touchEmptyEip161.2 := of_removed hgone fun hlne => by
    refine h.view_removed_of_loadedNotExisting ?_
    revert hlne hs
    cases c.status <;> simp [onTouchedEmptyPostEip161]
  have hview : c.touchEmptyEip161.2.view v = removed := view_of_removed rfl
  -- The status keeps its value exactly where nothing is returned.
  have hcases : (c.touchEmptyEip161.1 = none ∧ c.status.isGone = true ∧
        c.status.onTouchedEmptyPostEip161 = c.status) ∨
      (c.touchEmptyEip161.1 = some
        { info := none, status := c.status.onTouchedEmptyPostEip161, previousInfo := c.accountInfo,
          previousStatus := c.status, storage := ∅, storageWasDestroyed := true } ∧
        c.status.follows true c.status.onTouchedEmptyPostEip161 = true) := by
    simp only [CacheAccount.touchEmptyEip161]
    obtain ⟨hl, hc⟩ := hs
    cases hst : c.status with
    | loaded => exact absurd hst hl
    | changed => exact absurd hst hc
    | loadedNotExisting | destroyed | destroyedAgain => exact Or.inl ⟨rfl, rfl, rfl⟩
    | loadedEmptyEip161 | inMemoryChange | destroyedChanged => exact Or.inr ⟨rfl, rfl⟩
  refine ⟨hcached, fun t ht => ?_, fun hnone => ?_⟩
  · rcases hcases with ⟨hnone, -, -⟩ | ⟨hsome, hf⟩
    · rw [hnone] at ht
      cases ht
    · rw [hsome] at ht
      cases ht
      refine ⟨?_, rfl, hgone.symm⟩
      exact h.pending_removed hf
  · rcases hcases with ⟨-, hg, heq⟩ | ⟨hsome, -⟩
    · exact ⟨by rw [hview, h.status.gone hg], heq⟩
    · rw [hsome] at hnone
      cases hnone

/-- A step after which the account exists, without a destruction in between. -/
theorem exists_of_follows {storage : PlainStorage} {slots : StorageWithOriginalValues}
    (hcache : CacheInv v ⟨some info, fun k => slotValue slots k ((c.view v).storage k)⟩
      ⟨some ⟨info, storage⟩, status⟩) (hf : c.status.follows false status = true)
    (horig : ∀ k slot, slots.lookup k = some slot →
      slot.previousOrOriginalValue = (c.view v).storage k)
    (hmem : status = .inMemoryChange → ∀ k, v.storage k = 0)
    (hchanged : status = .changed → info.isEmpty = false ∧ info.hasNoCodeAndNonce = false) :
    StepInv v c
      (some
        { info := some info, status := status, previousInfo := c.accountInfo,
          previousStatus := c.status, storage := slots, storageWasDestroyed := false },
        ⟨some ⟨info, storage⟩, status⟩) := by
  have hgone : status.isGone = false := by
    cases hg : status.isGone with
    | false => rfl
    | true => cases wiped_of_isGone hf hg
  have hstatus : status = .inMemoryChange ∨ status = .changed ∨ status = .destroyedChanged := by
    revert hf
    cases status <;> simp [follows]
  have hinv : StatusInv v ((CacheAccount.mk (some ⟨info, storage⟩) status).view v) status := by
    refine ⟨fun hk hd => ?_, fun hg => ?_, fun hs => ?_, fun hs => ?_, fun hs => ?_, fun hs => ?_⟩
    · exact hmem (eq_inMemoryChange_of_follows hf hk hd)
    · rw [hgone] at hg
      cases hg
    · rcases hstatus with rfl | rfl | rfl <;> rcases hs with hs | hs | hs <;> cases hs
    · rcases hstatus with rfl | rfl | rfl <;> cases hs
    · rcases hstatus with rfl | rfl | rfl <;> cases hs
    · obtain ⟨he, hn⟩ := hchanged hs
      exact (codeless_of_not_isEmpty he rfl).trans hn
  refine ⟨⟨cacheInv_plain hcache, hinv, fun hg => ?_⟩, fun t ht => ?_, by simp⟩
  · have hg' : status.isGone = true := hg
    rw [hgone] at hg'
    cases hg'
  · cases ht
    refine ⟨⟨rfl, rfl, rfl, hf, hcache.storage, horig, fun hg => ?_, h.accountInfo_of_gone⟩, rfl,
      hgone.symm⟩
    have hg' : status.isGone = true := hg
    rw [hgone] at hg'
    cases hg'

end

/-- Slots of the transition of a commit. -/
theorem changedStorage_original {f : StorageKey → StorageValue}
    (horig : ∀ k slot, storage.lookup k = some slot → slot.originalValue = f k) (k : StorageKey)
    (slot : StorageSlot) (hslot : (changedStorage storage).lookup k = some slot) :
    slot.previousOrOriginalValue = f k := by
  rw [changedStorage, HashMap.lookup_filterMapValues, bind_eq_some_iff] at hslot
  obtain ⟨evm, hevm, hslot⟩ := hslot
  split_ifs at hslot
  cases hslot
  exact horig k evm hevm

theorem newlyCreated (h : CachedInv v c) (info : AccountInfo)
    (horig : ∀ k slot, storage.lookup k = some slot → slot.originalValue = (c.view v).storage k)
    (hcodeless : (c.view v).codeless = true) (hzero : ∀ k, (c.view v).storage k = 0) :
    StepInv v c ((c.newlyCreated info (changedStorage storage)).map some id) := by
  have hne : c.status ≠ .changed := by
    intro hs
    have hfalse := h.status.changed hs
    rw [hcodeless] at hfalse
    cases hfalse
  have hcache := CacheInv.newlyCreated (v := v) c info (changedStorage storage)
  refine h.exists_of_follows ?_ ?_ (changedStorage_original horig) (fun hs k => ?_) fun hs => ?_
  · have hfun : (fun k => slotValue (changedStorage storage) k ((c.view v).storage k)) =
        fun k => slotValue (changedStorage storage) k 0 := funext fun k => by rw [hzero k]
    rw [hfun]
    exact hcache
  · revert hne
    cases c.status <;> decide
  · cases hc : c.status with
    | changed => exact absurd hc hne
    | destroyed | destroyedChanged | destroyedAgain => rw [hc] at hs; cases hs
    | inMemoryChange | loadedNotExisting =>
      exact h.status.inMemory (by rw [hc]; rfl) (by rw [hc]; rfl) k
    | loaded | loadedEmptyEip161 =>
      have hk := hzero k
      rw [h.status.unchanged (by rw [hc]; simp)] at hk
      exact hk
  · revert hs
    cases c.status <;> simp [onCreated]

/-- The test that a change makes on the previous info, read off the view. -/
theorem codeless_of_hadNoNonceAndCode (h : hadNoNonceAndCode c.accountInfo = true) :
    (c.view v).codeless = true := by
  cases hi : c.accountInfo with
  | none =>
    rw [hi] at h
    cases h
  | some i =>
    rw [hi] at h
    have hn : i.hasNoCodeAndNonce = true := h
    cases he : i.isEmpty with
    | true => simp [codeless, view, hi, infoKey_of_isEmpty he]
    | false => exact (codeless_of_not_isEmpty he (by rw [← hi]; rfl)).trans hn

theorem codeless_eq_of_existing (h : ((c.view v).info).isSome) :
    (c.view v).codeless = hadNoNonceAndCode c.accountInfo := by
  cases hi : c.accountInfo with
  | none =>
    rw [view, hi] at h
    cases h
  | some i =>
    cases he : i.isEmpty with
    | true =>
      rw [view, hi, infoKey_of_isEmpty he] at h
      cases h
    | false => exact codeless_of_not_isEmpty he (by rw [← hi]; rfl)

theorem change (hv : v.NoDangling) (h : CachedInv v c) (info : AccountInfo)
    (horig : ∀ k slot, storage.lookup k = some slot → slot.originalValue = (c.view v).storage k)
    (hempty : info.isEmpty = false)
    (hkeeps : (c.view v).codeless = false → info.hasNoCodeAndNonce = false) :
    StepInv v c ((c.change info (changedStorage storage)).map some id) := by
  have hcache := CacheInv.change hv h.cache info (changedStorage storage)
  have hcodeless : v.view.codeless = true → ∀ k, v.storage k = 0 := fun hw =>
    hv (PlainView.codeless_of_view hw)
  refine h.exists_of_follows hcache ?_ (changedStorage_original horig) (fun hs k => ?_) fun hs => ?_
  · cases c.status <;> cases hadNoNonceAndCode c.accountInfo <;> rfl
  · cases hc : c.status with
    | changed | destroyed | destroyedChanged | destroyedAgain => rw [hc] at hs; cases hs
    | inMemoryChange | loadedNotExisting =>
      exact h.status.inMemory (by rw [hc]; rfl) (by rw [hc]; rfl) k
    | loadedEmptyEip161 =>
      refine hcodeless ?_ k
      rw [← h.status.unchanged (by rw [hc]; simp), codeless, h.status.empty hc]
      rfl
    | loaded =>
      refine hcodeless ?_ k
      rw [← h.status.unchanged (by rw [hc]; simp)]
      refine codeless_of_hadNoNonceAndCode ?_
      revert hs
      rw [hc]
      cases hadNoNonceAndCode c.accountInfo <;> simp [onChanged]
  · refine ⟨hempty, hkeeps ?_⟩
    cases hc : c.status with
    | loadedNotExisting | loadedEmptyEip161 | inMemoryChange | destroyed | destroyedChanged
    | destroyedAgain => rw [hc] at hs; cases hs
    | changed => exact h.status.changed hc
    | loaded =>
      rw [codeless_eq_of_existing (h.status.existing hc)]
      revert hs
      rw [hc]
      cases hadNoNonceAndCode c.accountInfo <;> simp [onChanged]

/-- One commit on a cached account. -/
theorem commitTouched (hv : v.NoDangling) (h : CachedInv v c) (htouched : account.isTouched = true)
    (hok : CommitOk (c.view v) c.status account) : StepInv v c (c.commitTouched account) := by
  cases hsd : account.isSelfdestructed with
  | true =>
    have heq : c.commitTouched account = c.selfdestruct := by
      simp [CacheAccount.commitTouched, hsd]
    rw [heq]
    exact h.selfdestruct
  | false =>
    cases hcr : account.isCreated with
    | true =>
      obtain ⟨hcodeless, hzero⟩ := hok.created htouched hsd hcr
      have heq : c.commitTouched account =
          (c.newlyCreated account.info (changedStorage account.storage)).map some id := by
        simp [CacheAccount.commitTouched, hsd, hcr]
      rw [heq]
      exact h.newlyCreated account.info hok.original hcodeless hzero
    | false =>
      cases hem : account.isEmpty with
      | true =>
        have heq : c.commitTouched account = c.touchEmptyEip161 := by
          simp [CacheAccount.commitTouched, hsd, hcr, hem]
        rw [heq]
        exact h.touchEmptyEip161 (hok.emptied htouched hsd hcr hem)
      | false =>
        have heq : c.commitTouched account =
            (c.change account.info (changedStorage account.storage)).map some id := by
          simp [CacheAccount.commitTouched, hsd, hcr, hem]
        rw [heq]
        exact h.change hv account.info hok.original hem (hok.changed htouched hsd hcr hem)

/-- The account that a load puts into the cache looks as in the database. -/
theorem view_ofPlain (hv : v.NoDangling) : (ofPlain v).view v = v.view := by
  have h := CacheInv.ofPlain hv
  refine AccountView.ext ?_ (funext fun k => h.storage k)
  show infoKey (ofPlain v).accountInfo = infoKey v.info
  rw [← infoKey_nonEmpty, h.nonEmpty_accountInfo, infoKey_nonEmpty]
  exact infoKey_nonEmpty v.info

/-- The three answers of a database to a load. -/
theorem ofPlain_cases (v : PlainView) :
    (v.info = none ∧ ofPlain v = newLoadedNotExisting) ∨
    (∃ info, v.info = some info ∧ info.isEmpty = true ∧
      ofPlain v = newLoadedEmptyEip161 ∅) ∨
    ∃ info, v.info = some info ∧ info.isEmpty = false ∧
      ofPlain v = newLoaded info ∅ := by
  cases hi : v.info with
  | none => exact Or.inl ⟨rfl, by simp [ofPlain, hi]⟩
  | some info =>
    cases he : info.isEmpty with
    | true => exact Or.inr (Or.inl ⟨info, rfl, he, by simp [ofPlain, hi, he]⟩)
    | false => exact Or.inr (Or.inr ⟨info, rfl, he, by simp [ofPlain, hi, he]⟩)

theorem ofPlain (hv : v.NoDangling) : CachedInv v (ofPlain v) := by
  refine ⟨cacheInv_plain (CacheInv.ofPlain hv), ?_, ?_⟩
  · rw [view_ofPlain hv]
    rcases ofPlain_cases v with ⟨hi, hof⟩ | ⟨info, hi, he, hof⟩ | ⟨info, hi, he, hof⟩
    · have hzero := hv (by simp [PlainView.codeless, hi])
      have hrem : v.view = removed := by
        simp [PlainView.view, hi, removed, funext hzero]
      rw [hof]
      exact ⟨fun _ _ => hzero, fun _ => hrem,
        fun _ => rfl, by rintro ⟨⟩, by rintro ⟨⟩, by rintro ⟨⟩⟩
    · rw [hof]
      refine ⟨by rintro ⟨⟩, by rintro ⟨⟩, fun _ => rfl, by rintro ⟨⟩, fun _ => ?_, by rintro ⟨⟩⟩
      rw [PlainView.view, hi]
      exact infoKey_of_isEmpty he
    · rw [hof]
      refine ⟨by rintro ⟨⟩, by rintro ⟨⟩, fun _ => rfl, fun _ => ?_, by rintro ⟨⟩, by rintro ⟨⟩⟩
      rw [PlainView.view, hi, infoKey_of_not_isEmpty he]
      rfl
  · rcases ofPlain_cases v with ⟨-, hof⟩ | ⟨info, -, -, hof⟩ | ⟨info, -, -, hof⟩ <;> rw [hof]
    · exact fun _ => rfl
    · rintro ⟨⟩
    · rintro ⟨⟩

theorem wasDestroyed_ofPlain (v : PlainView) :
    (CacheAccount.ofPlain v).status.wasDestroyed = false := by
  rcases ofPlain_cases v with ⟨-, hof⟩ | ⟨info, -, -, hof⟩ | ⟨info, -, -, hof⟩ <;> rw [hof] <;> rfl

@[simp] theorem view_cacheSlot (c : CacheAccount) (v : PlainView) (k : StorageKey) :
    (c.cacheSlot v k).view v = c.view v := by
  refine AccountView.ext ?_ (funext fun k' => ?_)
  · simp [view]
  · simp [view]

theorem cacheSlot (h : CachedInv v c) (k : StorageKey) : CachedInv v (c.cacheSlot v k) := by
  refine ⟨cacheInv_plain (h.cache.cacheSlot k), ?_, fun hgone => ?_⟩
  · rw [view_cacheSlot]
    exact h.status
  · rw [CacheAccount.cacheSlot, h.gone hgone]
    rfl

end CachedInv

/-! ## Tracking one address -/

/-- The relation between cache, pending transition and bundle entry of one address. -/
def TrackInv (v : PlainView) (x : Slice) : Prop :=
  match x.cache with
  | none => x.transition = none ∧ x.bundle = none
  | some c =>
      CachedInv v c ∧ ∃ w₀ s₀, EntryInv v w₀ s₀ x.bundle ∧ StatusInv v w₀ s₀ ∧
        match x.transition with
        | none => c.view v = w₀ ∧ c.status = s₀
        | some t => PendingInv w₀ (c.view v) s₀ t ∧ t.status = c.status

namespace TrackInv

variable {v : PlainView} {x : Slice}

theorem cached (h : TrackInv v x) (hc : x.cache = some c) :
    CachedInv v c ∧ ∃ w₀ s₀, EntryInv v w₀ s₀ x.bundle ∧ StatusInv v w₀ s₀ ∧
      match x.transition with
      | none => c.view v = w₀ ∧ c.status = s₀
      | some t => PendingInv w₀ (c.view v) s₀ t ∧ t.status = c.status := by
  simpa only [TrackInv, hc] using h

/-- Replacing the cached account by one with the same view and status. -/
theorem of_same_view {c c' : CacheAccount} (h : TrackInv v x) (hc : x.cache = some c)
    (hcached : CachedInv v c') (hview : c'.view v = c.view v) (hstatus : c'.status = c.status) :
    TrackInv v { x with cache := some c' } := by
  obtain ⟨-, w₀, s₀, hentry, hs₀, htr⟩ := h.cached hc
  refine ⟨hcached, w₀, s₀, hentry, hs₀, ?_⟩
  show match x.transition with
    | none => c'.view v = w₀ ∧ c'.status = s₀
    | some t => PendingInv w₀ (c'.view v) s₀ t ∧ t.status = c'.status
  rw [hview, hstatus]
  exact htr

/-- Loading an address on demand. -/
theorem load (hv : v.NoDangling) (h : TrackInv v x) :
    TrackInv v { x with cache := some (x.loaded v) } := by
  cases hc : x.cache with
  | some c =>
    have hl : x.loaded v = c := by simp [Slice.loaded, hc]
    rw [hl]
    exact h.of_same_view hc (h.cached hc).1 rfl rfl
  | none =>
    have hx : x.transition = none ∧ x.bundle = none := by simpa only [TrackInv, hc] using h
    have hl : x.loaded v = ofPlain v := by simp [Slice.loaded, hc]
    have hof := CachedInv.ofPlain hv
    rw [hl]
    refine ⟨hof, v.view, (ofPlain v).status, ?_, ?_, ?_⟩
    · show EntryInv v v.view _ x.bundle
      rw [hx.2]
      exact ⟨rfl, fun hk => hof.status.inMemory hk (CachedInv.wasDestroyed_ofPlain v)⟩
    · have hs := hof.status
      rwa [CachedInv.view_ofPlain hv] at hs
    · show match x.transition with
        | none => _
        | some t => _
      rw [hx.1]
      exact ⟨CachedInv.view_ofPlain hv, rfl⟩

/-- One operation on a cached account. -/
theorem push {r : Option TransitionAccount × CacheAccount} (h : TrackInv v x)
    (hc : x.cache = some c) (hr : StepInv v c r) : TrackInv v (x.push true r) := by
  obtain ⟨hcached, w₀, s₀, hentry, hs₀, htr⟩ := h.cached hc
  cases hn : r.1 with
  | none =>
    obtain ⟨hview, hstatus⟩ := hr.nothing hn
    have hpush : x.push true r = { x with cache := some r.2 } := by
      simp [Slice.push, hn, addTransition]
    rw [hpush]
    exact h.of_same_view hc hr.cached hview hstatus
  | some next =>
    obtain ⟨hnext, hstatus, hwipe⟩ := hr.transition next hn
    cases ht : x.transition with
    | none =>
      -- The first transition of the block starts from the cached account.
      rw [ht] at htr
      obtain ⟨rfl, rfl⟩ := htr
      have hpush : x.push true r = { x with cache := some r.2, transition := some next } := by
        simp [Slice.push, hn, addTransition, ht]
      rw [hpush]
      exact ⟨hr.cached, c.view v, c.status, hentry, hs₀, hnext, hstatus⟩
    | some t =>
      rw [ht] at htr
      obtain ⟨hp, htc⟩ := htr
      have hpush : x.push true r =
          { x with cache := some r.2, transition := some (t.update next) } := by
        simp [Slice.push, hn, addTransition, ht]
      rw [hpush]
      rw [← htc] at hnext
      refine ⟨hr.cached, w₀, s₀, hentry, hs₀, hp.update hnext hwipe, ?_⟩
      rw [← hstatus, TransitionAccount.update]
      split_ifs <;> rfl

/-- A commit that agrees with the view of the account. -/
theorem commit (hv : v.NoDangling) (h : TrackInv v x) (hc : x.cache = some c)
    (hok : CommitOk (c.view v) c.status account) : TrackInv v (x.commit true account) := by
  rw [Slice.commit_of_cached hc]
  cases ht : account.isTouched with
  | true => exact h.push hc ((h.cached hc).1.commitTouched hv ht hok)
  | false => exact h

/-- Merging the pending transition. -/
theorem merge (h : TrackInv v x) (ht : x.transition = some t) :
    ∃ revert b', mergeAccount x.bundle t = some (revert, b') ∧
      TrackInv v { x with transition := none, bundle := b' } := by
  cases hc : x.cache with
  | none =>
    have hx : x.transition = none ∧ x.bundle = none := by simpa only [TrackInv, hc] using h
    rw [hx.1] at ht
    cases ht
  | some c =>
    obtain ⟨hcached, w₀, s₀, hentry, hs₀, htr⟩ := h.cached hc
    rw [ht] at htr
    obtain ⟨hp, htc⟩ := htr
    obtain ⟨revert, b', hrun, hb'⟩ := hentry.merge hs₀ hp (by rw [htc]; exact hcached.status)
    refine ⟨revert, b', hrun, ?_⟩
    rw [htc] at hb'
    exact ⟨hcached, c.view v, c.status, hb', hcached.status, rfl, rfl⟩

end TrackInv

/-! ## Merging all addresses -/

namespace BundleState

/-- The reverts that a merge of one address adds to its block. -/
def blockRevert (includeReverts : Bool) (a : Address) (revert : Option AccountRevert) :
    BlockReverts :=
  if includeReverts then (revert.map fun r => (a, r)).toList else []

/-- `applyTransition` merges the entry of its address and leaves the others alone. -/
theorem applyTransition_slice {bs bs' : BundleState}
    {revert : Option AccountRevert} (hrun : bs.applyTransition a t = some (revert, bs')) :
    mergeAccount (bs.state.lookup a) t = some (revert, bs'.state.lookup a) ∧
      bs'.reverts = bs.reverts ∧ ∀ b, b ≠ a → bs'.state.lookup b = bs.state.lookup b := by
  cases hl : bs.state.lookup a with
  | some entry =>
    simp only [applyTransition, hl, map_eq_some_iff] at hrun
    obtain ⟨⟨rev, entry'⟩, hupd, heq⟩ := hrun
    cases heq
    exact ⟨by simp [mergeAccount, hupd], rfl, fun b hb => by simp [hb]⟩
  | none =>
    simp only [applyTransition, hl, map_eq_some_iff] at hrun
    obtain ⟨rev, hrev, heq⟩ := hrun
    obtain ⟨rfl, rfl⟩ := Prod.mk.inj heq
    cases rev with
    | none => exact ⟨by simp [mergeAccount, hrev, hl], rfl, fun b hb => rfl⟩
    | some r => exact ⟨by simp [mergeAccount, hrev], rfl, fun b hb => by simp [hb]⟩

/-- One step of the merge loop: the entry of the address, its reverts, and nothing else. -/
theorem applyTransitionStep_slice {includeReverts : Bool} {acc acc' : BundleState × BlockReverts}
    (hrun : applyTransitionStep includeReverts acc a t = some acc') :
    ∃ revert, mergeAccount (acc.1.state.lookup a) t = some (revert, acc'.1.state.lookup a) ∧
      acc'.1.reverts = acc.1.reverts ∧
      acc'.2 = acc.2 ++ blockRevert includeReverts a revert ∧
      ∀ b, b ≠ a → acc'.1.state.lookup b = acc.1.state.lookup b := by
  simp only [applyTransitionStep, map_eq_some_iff] at hrun
  obtain ⟨⟨revert, bs⟩, happly, hacc⟩ := hrun
  obtain ⟨hmerge, hrev, hother⟩ := applyTransition_slice happly
  refine ⟨revert, ?_⟩
  cases revert with
  | none =>
    cases hacc
    exact ⟨hmerge, hrev, by simp [blockRevert], hother⟩
  | some r =>
    cases includeReverts <;> cases hacc
    all_goals exact ⟨hmerge, hrev, by simp [blockRevert], hother⟩

theorem applyTransitionStep_isSome (includeReverts : Bool) (acc : BundleState × BlockReverts)
    (a : Address) (t : TransitionAccount) (h : (mergeAccount (acc.1.state.lookup a) t).isSome) :
    (applyTransitionStep includeReverts acc a t).isSome := by
  cases hl : acc.1.state.lookup a with
  | some entry =>
    simpa [applyTransitionStep, applyTransition, hl, mergeAccount] using h
  | none =>
    simpa [applyTransitionStep, applyTransition, hl, mergeAccount] using h

/-- Merging the transitions of a block: each address by `mergeAccount`, with its reverts in the
block that is appended. -/
theorem applyTransitions_slice (bs : BundleState) (ts : TransitionState)
    (retention : BundleRetention)
    (hdef : ∀ a t, ts.lookup a = some t → (mergeAccount (bs.state.lookup a) t).isSome) :
    ∃ bs' block, bs.applyTransitionsAndCreateReverts ts retention = some bs' ∧
      bs'.reverts = bs.reverts ++ [block] ∧
      ∀ a, match ts.lookup a with
        | none => bs'.state.lookup a = bs.state.lookup a ∧ block.filter (·.1 = a) = []
        | some t => ∃ revert b', mergeAccount (bs.state.lookup a) t = some (revert, b') ∧
            bs'.state.lookup a = b' ∧
            block.filter (·.1 = a) = blockRevert (retention = .reverts) a revert := by
  let include' : Bool := retention = .reverts
  let P : BundleState × BlockReverts → Prop := fun acc =>
    acc.1.reverts = bs.reverts
  let obs : Address → BundleState × BlockReverts →
      Option BundleAccount × BlockReverts :=
    fun a acc => (acc.1.state.lookup a, acc.2.filter (·.1 = a))
  have hfilter : ∀ a b revert, (blockRevert include' a revert).filter (·.1 = b) =
      if a = b then blockRevert include' a revert else [] := by
    intro a b revert
    cases revert <;> cases hi : include' <;> by_cases hab : a = b <;> simp [blockRevert, hab]
  have hP : ∀ acc a t acc', P acc → applyTransitionStep include' acc a t = some acc' → P acc' := by
    intro acc a t acc' hacc hrun
    obtain ⟨revert, -, hrev, -⟩ := applyTransitionStep_slice hrun
    exact hrev.trans hacc
  have hother : ∀ acc a t acc' b, P acc → applyTransitionStep include' acc a t = some acc' → b ≠ a →
      obs b acc' = obs b acc := by
    intro acc a t acc' b _ hrun hb
    obtain ⟨revert, -, -, hlist, hoth⟩ := applyTransitionStep_slice hrun
    refine Prod.ext (hoth b hb) ?_
    simp only [obs, hlist, List.filter_append, hfilter, if_neg (Ne.symm hb), List.append_nil]
  have hself : ∀ acc a t acc', P acc → applyTransitionStep include' acc a t = some acc' →
      ∃ revert b', mergeAccount (obs a acc).1 t = some (revert, b') ∧
        obs a acc' = (b', (obs a acc).2 ++ blockRevert include' a revert) := by
    intro acc a t acc' _ hrun
    obtain ⟨revert, hmerge, -, hlist, -⟩ := applyTransitionStep_slice hrun
    refine ⟨revert, acc'.1.state.lookup a, hmerge, Prod.ext rfl ?_⟩
    simp only [obs, hlist, List.filter_append, hfilter, if_true]
  have hdef' : ∀ a t acc, P acc → ts.lookup a = some t → obs a acc = obs a (bs, []) →
      (applyTransitionStep include' acc a t).isSome := by
    intro a t acc _ hlook hobs
    refine applyTransitionStep_isSome include' acc a t ?_
    have hentry : acc.1.state.lookup a = bs.state.lookup a := congrArg Prod.fst hobs
    rw [hentry]
    exact hdef a t hlook
  obtain ⟨acc, hacc⟩ := HashMap.foldlM_isSome (applyTransitionStep include') P obs hP hother ts
    (bs, []) rfl hdef'
  obtain ⟨hrev, hslices⟩ := HashMap.foldlM_obs (applyTransitionStep include') P obs
    (fun a t o o' => ∃ revert b', mergeAccount o.1 t = some (revert, b') ∧
      o' = (b', o.2 ++ blockRevert include' a revert)) hP hself hother ts (bs, []) acc rfl hacc
  refine ⟨{ acc.1 with reverts := acc.1.reverts ++ [acc.2] }, acc.2, ?_, ?_, fun a => ?_⟩
  · simp only [applyTransitionsAndCreateReverts]
    rw [hacc]
    rfl
  · rw [show acc.1.reverts = bs.reverts from hrev]
  · have ha := hslices a
    cases hl : ts.lookup a with
    | none =>
      rw [hl] at ha
      exact ⟨congrArg Prod.fst ha, congrArg Prod.snd ha⟩
    | some t =>
      rw [hl] at ha
      obtain ⟨revert, b', hmerge, hobs⟩ := ha
      exact ⟨revert, b', hmerge, congrArg Prod.fst hobs, congrArg Prod.snd hobs⟩

end BundleState

/-- `merge_transitions` acts on each address by `mergeAccount`. -/
theorem State.mergeTransitions_slice {s : State ε} {ts : TransitionState}
    (hts : s.transitionState = some ts) (retention : BundleRetention)
    (hdef : ∀ a t, (s.slice a).transition = some t →
      (mergeAccount (s.slice a).bundle t).isSome) :
    ∃ s' block, s.mergeTransitions retention = some s' ∧ s'.cache = s.cache ∧
      s'.database = s.database ∧ s'.usePreloadedBundle = s.usePreloadedBundle ∧
      s'.transitionState = some ∅ ∧
      s'.bundleState.reverts = s.bundleState.reverts ++ [block] ∧
      ∀ a, match (s.slice a).transition with
        | none => (s'.slice a).bundle = (s.slice a).bundle ∧ block.filter (·.1 = a) = []
        | some t => ∃ revert b', mergeAccount (s.slice a).bundle t = some (revert, b') ∧
            (s'.slice a).bundle = b' ∧
            block.filter (·.1 = a) = blockRevert (retention = .reverts) a revert := by
  have hslice : ∀ a, (s.slice a).transition = ts.lookup a := by
    intro a
    simp [slice, hts]
  obtain ⟨bs', block, hrun, hrev, hlook⟩ := applyTransitions_slice s.bundleState ts
    retention fun a t ht => hdef a t ((hslice a).trans ht)
  refine ⟨{ s with transitionState := some ∅, bundleState := bs' }, block, ?_, rfl, rfl, rfl, rfl,
    hrev, fun a => ?_⟩
  · simp [mergeTransitions, hts, hrun]
  · rw [hslice a]
    exact hlook a

/-! ## Reached states -/

/-- Every account of the commit is cached and agrees with its view. -/
def State.CommitOk (d : PlainState) (s : State ε) (evmState : EvmState) : Prop :=
  ∀ a account, evmState.lookup a = some account →
    ∃ c, s.cache.accounts.lookup a = some c ∧ Revm.CommitOk (c.view (d a)) c.status account

/-- A commit of one account agrees with the view if the account does. -/
theorem State.commitOk_insert {s : State ε} (hc : s.cache.accounts.lookup a = some c)
    (hok : Revm.CommitOk (c.view (d a)) c.status account) :
    s.CommitOk d ((∅ : EvmState).insert a account) := by
  intro b account' hlook
  obtain ⟨rfl, rfl⟩ := HashMap.lookup_singleton hlook
  exact ⟨c, hc, hok⟩

/-- The states reached from a fresh state over `d` that collects transitions, by reads, commits
that agree with the view, and merges. -/
inductive Reached (d : PlainState) (code : B256 → Bytecode) : State ε → Prop
  | new : Reached d code (new d code true)
  | basic {s s' : State ε} {a : Address} {info : Option AccountInfo} : Reached d code s →
      s.basic a = .ok (info, s') → Reached d code s'
  | storage {s s' : State ε} {a : Address} {k : StorageKey} {value : StorageValue} :
      Reached d code s → s.storage a k = some (.ok (value, s')) → Reached d code s'
  | commit {s s' : State ε} {evmState : EvmState} : Reached d code s → s.CommitOk d evmState →
      s.commit evmState = some s' → Reached d code s'
  | merge {s s' : State ε} {retention : BundleRetention} : Reached d code s →
      s.mergeTransitions retention = some s' → Reached d code s'

/-- The invariant of reached states. -/
structure State.Tracked (d : PlainState) (code : B256 → Bytecode) (s : State ε) : Prop where
  reads : s.Over d code
  collects : s.transitionState.isSome = true
  slices : ∀ a, TrackInv (d a) (s.slice a)

namespace State.Tracked

variable {s s' : State ε}

theorem new : (new d code true : State ε).Tracked d code :=
  ⟨new_over d code true, rfl, fun _ => ⟨rfl, rfl⟩⟩

theorem basic (hd : d.NoDanglingStorage) (h : s.Tracked d code)
    {info : Option AccountInfo} (hrun : s.basic a = .ok (info, s')) : s'.Tracked d code := by
  obtain ⟨s₁, hbasic, hs₁, htr, -, hslice⟩ := basic_slice h.reads a
  rw [hrun] at hbasic
  cases hbasic
  refine ⟨hs₁, by rw [htr]; exact h.collects, fun b => ?_⟩
  rw [hslice]
  by_cases hb : b = a
  · subst hb
    rw [if_pos rfl]
    exact (h.slices b).load (hd b)
  · rw [if_neg hb]
    exact h.slices b

theorem storage (h : s.Tracked d code) {k : StorageKey} {value : StorageValue}
    (hrun : s.storage a k = some (.ok (value, s'))) : s'.Tracked d code := by
  cases hc : s.cache.accounts.lookup a with
  | none => simp [State.storage, hc] at hrun
  | some c =>
    have hcache : (s.slice a).cache = some c := hc
    obtain ⟨s₁, hstorage, hs₁, htr, -, hslice⟩ := storage_slice h.reads hcache k
    rw [hrun] at hstorage
    cases hstorage
    refine ⟨hs₁, by rw [htr]; exact h.collects, fun b => ?_⟩
    rw [hslice]
    by_cases hb : b = a
    · subst hb
      rw [if_pos rfl]
      exact (h.slices b).of_same_view hcache (((h.slices b).cached hcache).1.cacheSlot k)
        (CachedInv.view_cacheSlot c (d b) k) rfl
    · rw [if_neg hb]
      exact h.slices b

/-- A commit that agrees with the view does not panic and keeps the invariant. -/
theorem commit (hd : d.NoDanglingStorage) (h : s.Tracked d code) {evmState : EvmState}
    (hok : s.CommitOk d evmState) : ∃ s', s.commit evmState = some s' ∧ s'.Tracked d code := by
  obtain ⟨s', hrun, hs', -, htr, hslice⟩ := commit_slice h.reads evmState
    fun a account hlook => by
      obtain ⟨c, hc, -⟩ := hok a account hlook
      exact isSome_iff_exists.2 ⟨c, hc⟩
  refine ⟨s', hrun, hs', by rw [htr]; exact h.collects, fun a => ?_⟩
  rw [hslice]
  cases hlook : evmState.lookup a with
  | none => exact h.slices a
  | some account =>
    obtain ⟨c, hc, hcommit⟩ := hok a account hlook
    rw [h.collects]
    exact (h.slices a).commit (hd a) hc hcommit

/-- A merge does not panic and keeps the invariant. -/
theorem merge (h : s.Tracked d code) (retention : BundleRetention) :
    ∃ s', s.mergeTransitions retention = some s' ∧ s'.Tracked d code ∧
      s'.transitionState = some ∅ := by
  obtain ⟨ts, hts⟩ := isSome_iff_exists.1 h.collects
  obtain ⟨s', block, hrun, hcache, hdb, hpre, htr, -, hlook⟩ :=
    mergeTransitions_slice hts retention fun a t ht => by
      obtain ⟨revert, b', hmerge, -⟩ := (h.slices a).merge ht
      simp [hmerge]
  refine ⟨s', hrun, ⟨⟨hdb.trans h.reads.database, by rw [hcache]; exact h.reads.stateClear,
    hpre.trans h.reads.noPreload⟩, by rw [htr]; rfl, fun a => ?_⟩, htr⟩
  have ha := hlook a
  have hc : (s'.slice a).cache = (s.slice a).cache := by simp [slice, hcache]
  have ht' : (s'.slice a).transition = none := by simp [slice, htr]
  cases ht : (s.slice a).transition with
  | none =>
    have heq : s'.slice a = s.slice a := by
      cases hx : s'.slice a
      cases hy : s.slice a
      simp_all
    rw [heq]
    exact h.slices a
  | some t =>
    rw [ht] at ha
    obtain ⟨revert, b', hmerge, hb, -⟩ := ha
    obtain ⟨revert', b'', hmerge', htrack⟩ := (h.slices a).merge ht
    rw [hmerge] at hmerge'
    cases hmerge'
    have heq : s'.slice a = { s.slice a with transition := none, bundle := b' } := by
      cases hx : s'.slice a
      simp_all
    rw [heq]
    exact htrack

end State.Tracked

theorem Reached.tracked {s : State ε}
    (hd : d.NoDanglingStorage) (h : Reached d code s) : s.Tracked d code := by
  induction h with
  | new => exact State.Tracked.new
  | basic _ hrun ih => exact ih.basic hd hrun
  | storage _ hrun ih => exact ih.storage hrun
  | commit _ hok hrun ih =>
    obtain ⟨s₁, hrun₁, hs₁⟩ := ih.commit hd hok
    rw [hrun] at hrun₁
    cases hrun₁
    exact hs₁
  | @merge s s' retention _ hrun ih =>
    obtain ⟨s₁, hrun₁, hs₁, -⟩ := ih.merge retention
    rw [hrun] at hrun₁
    cases hrun₁
    exact hs₁

end Revm
