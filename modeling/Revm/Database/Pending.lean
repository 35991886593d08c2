import Revm.Database.CacheRefinement

/-!
# Views and pending transitions

An account view is what a reader of the state can see: balance, nonce and code hash of a non-empty
account, and the storage. `PendingInv w₀ w s t` says that the pending transition `t` of a block
leads from the view `w₀` and the status `s` to the view `w`.

Main result: `PendingInv.update`, the transitions of a block compose.
-/

set_option autoImplicit false

namespace Revm

variable {info : AccountInfo} {storage self : StorageWithOriginalValues} {k : StorageKey}
  {slot : StorageSlot} {base : StorageValue}

/-! ## Views -/

/-- Balance, nonce and code hash of an account that is not empty. -/
def infoKey (info : Option AccountInfo) : Option (U256 × U64 × B256) :=
  (nonEmpty info).map fun i => (i.balance, i.nonce, i.codeHash)

@[simp] theorem infoKey_none : infoKey none = none := rfl

/-- What can be read of an account. -/
@[ext] structure AccountView where
  info : Option (U256 × U64 × B256)
  storage : StorageKey → StorageValue

namespace AccountView

/-- The view of a missing account. -/
def removed : AccountView := ⟨none, fun _ => 0⟩

/-- Missing, or with neither nonce nor code. -/
def codeless (w : AccountView) : Bool :=
  w.info.all fun i => i.2.2 == keccakEmpty && i.2.1 == 0

end AccountView

def PlainView.view (v : PlainView) : AccountView := ⟨infoKey v.info, v.storage⟩

/-- The view of a cached account over the database account. -/
def CacheAccount.view (c : CacheAccount) (v : PlainView) : AccountView :=
  ⟨infoKey c.accountInfo, c.storageAt v⟩

theorem infoKey_of_isEmpty (h : info.isEmpty = true) : infoKey (some info) = none := by
  simp [infoKey, nonEmpty_some_of_isEmpty h]

theorem infoKey_of_not_isEmpty (h : info.isEmpty = false) :
    infoKey (some info) = some (info.balance, info.nonce, info.codeHash) := by
  simp [infoKey, nonEmpty_some_of_not_isEmpty h]

@[simp] theorem infoKey_nonEmpty (info : Option AccountInfo) :
    infoKey (nonEmpty info) = infoKey info := by
  simp [infoKey]

/-- Infos that the source compares as equal have the same key. -/
theorem infoKey_congr {x y : Option AccountInfo} (h : eqInfoOption x y = true) :
    infoKey x = infoKey y := by
  cases x with
  | none =>
    cases y with
    | none => rfl
    | some j => cases h
  | some i =>
    cases y with
    | none => cases h
    | some j =>
      have hij : i.eqInfo j = true := h
      have hempty := AccountInfo.isEmpty_congr hij
      obtain ⟨hb, hn, hc⟩ := AccountInfo.eqInfo_iff.1 hij
      cases hj : j.isEmpty with
      | true => rw [infoKey_of_isEmpty hj, infoKey_of_isEmpty (hempty.trans hj)]
      | false =>
        rw [infoKey_of_not_isEmpty hj, infoKey_of_not_isEmpty (hempty.trans hj), hb, hn, hc]

@[simp] theorem infoKey_copyWithoutCode (info : Option AccountInfo) :
    infoKey (info.map AccountInfo.copyWithoutCode) = infoKey info := by
  refine infoKey_congr ?_
  cases info <;> simp [eqInfoOption]

/-- A missing info and the default one look the same. -/
@[simp] theorem infoKey_getD_default (info : Option AccountInfo) :
    infoKey (some (info.getD AccountInfo.default)) = infoKey info := by
  cases info with
  | none => exact infoKey_of_isEmpty AccountInfo.isEmpty_default
  | some i => rfl

theorem PlainView.codeless_of_view {v : PlainView} (h : v.view.codeless = true) :
    v.codeless = true := by
  cases hi : v.info with
  | none => simp [PlainView.codeless, hi]
  | some i =>
    cases he : i.isEmpty with
    | true => simp [PlainView.codeless, hi, he]
    | false =>
      have hn : (i.codeHash == keccakEmpty && i.nonce == 0) = true := by
        simpa [AccountView.codeless, PlainView.view, hi, infoKey_of_not_isEmpty he] using h
      have hcode : i.hasNoCodeAndNonce = true := hn
      simp [PlainView.codeless, hi, hcode]

/-! ## Status of an account over several blocks -/

namespace AccountStatus

variable {s s' : AccountStatus} {wiped : Bool}

/-- The statuses of an account that is not there. -/
def isGone : AccountStatus → Bool
  | .loadedNotExisting | .destroyed | .destroyedAgain => true
  | _ => false

/-- The statuses that an account with status `s` can have after transitions of one block, with
`wiped` saying that the account was destroyed among them. -/
def follows (s : AccountStatus) (wiped : Bool) : AccountStatus → Bool
  | .loadedNotExisting | .loaded | .loadedEmptyEip161 => false
  | .inMemoryChange =>
      !wiped && (s == .loadedNotExisting || s == .loadedEmptyEip161 || s == .loaded ||
        s == .inMemoryChange)
  | .changed => !wiped && (s == .loaded || s == .changed)
  | .destroyed => wiped && !s.wasDestroyed
  | .destroyedChanged => wiped || s.wasDestroyed
  | .destroyedAgain => wiped

/-- Two parts of a block compose. -/
theorem follows_trans {s₁ s₂ : AccountStatus} {wiped₁ : Bool} (h : s.follows wiped s₁ = true)
    (h₁ : s₁.follows wiped₁ s₂ = true) : s.follows (wiped || wiped₁) s₂ = true := by
  revert h h₁
  revert wiped wiped₁
  cases s₁ <;> cases s₂ <;> cases s <;> decide

theorem isStorageKnown_of_wasDestroyed (h : s.wasDestroyed = true) : s.isStorageKnown = true := by
  revert h
  cases s <;> decide

theorem wasDestroyed_of_follows_wiped (h : s.follows true s' = true) : s'.wasDestroyed = true := by
  revert h
  cases s' <;> cases s <;> decide

theorem wasDestroyed_eq_of_follows (h : s.follows false s' = true) :
    s'.wasDestroyed = s.wasDestroyed := by
  revert h
  cases s' <;> cases s <;> decide

section

variable (h : s.follows wiped s' = true)

include h

theorem wiped_of_isGone (hgone : s'.isGone = true) : wiped = true := by
  revert h hgone
  cases s' <;> cases wiped <;> simp [follows, isGone]

theorem isNotModified_of_follows : s'.isNotModified = false := by
  cases s' with
  | loadedNotExisting | loaded | loadedEmptyEip161 => cases h
  | inMemoryChange | changed | destroyed | destroyedChanged | destroyedAgain => rfl

/-- The storage stays known. -/
theorem isStorageKnown_of_follows (hs : s.isStorageKnown = true) : s'.isStorageKnown = true := by
  revert h hs
  revert wiped
  cases s' <;> cases s <;> decide

end

/-- A modified account changes what is known about its storage only by a destruction. -/
theorem isStorageKnown_eq_of_follows (h : s.follows false s' = true)
    (hs : s.isNotModified = false) : s'.isStorageKnown = s.isStorageKnown := by
  revert h hs
  cases s' <;> cases s <;> decide

/-- The only status in memory that a block reaches without a destruction. -/
theorem eq_inMemoryChange_of_follows
    (h : s.follows wiped s' = true) (hknown : s'.isStorageKnown = true)
    (hdestroyed : s'.wasDestroyed = false) : s' = .inMemoryChange := by
  cases s' with
  | inMemoryChange => rfl
  | loadedNotExisting => cases h
  | loaded | loadedEmptyEip161 | changed => cases hknown
  | destroyed | destroyedChanged | destroyedAgain => cases hdestroyed

end AccountStatus

/-! ## Slots -/

/-- The value of a slot in a map of changes over a default. -/
def slotValue (storage : StorageWithOriginalValues) (k : StorageKey) (fallback : StorageValue) :
    StorageValue :=
  ((storage.lookup k).map StorageSlot.presentValue).getD fallback

theorem slotValue_of_some (h : storage.lookup k = some slot) (fallback : StorageValue) :
    slotValue storage k fallback = slot.presentValue := by
  simp [slotValue, h]

theorem slotValue_of_none (h : storage.lookup k = none) (fallback : StorageValue) :
    slotValue storage k fallback = fallback := by
  simp [slotValue, h]

namespace TransitionAccount

/-- The slot part of `update`, at one key. -/
def joinSlot (old : Option StorageSlot) (slot : StorageSlot) : Option StorageSlot :=
  match old with
  | none => some slot
  | some value =>
      if value.previousOrOriginalValue = slot.presentValue then none
      else some { value with presentValue := slot.presentValue }

theorem lookup_updateSlots (self other : StorageWithOriginalValues) (k : StorageKey) :
    AList.lookup k (other.foldl updateSlot self) =
      (other.lookup k).elim (self.lookup k) fun slot => joinSlot (self.lookup k) slot := by
  refine HashMap.foldl_obs updateSlot (fun k storage => AList.lookup k storage)
    (fun _ slot old => joinSlot old slot) ?_ ?_ other self k
  · intro storage key slot
    cases hk : storage.lookup key with
    | none => simp [updateSlot, joinSlot, hk]
    | some value =>
      by_cases heq : value.previousOrOriginalValue = slot.presentValue <;>
        simp [updateSlot, joinSlot, hk, heq]
  · intro storage key slot k' hne
    cases hk : storage.lookup key with
    | none => simp [updateSlot, hk, hne]
    | some value =>
      by_cases heq : value.previousOrOriginalValue = slot.presentValue <;>
        simp [updateSlot, hk, heq, hne]

section

variable (hself : ∀ value, self.lookup k = some value → value.previousOrOriginalValue = base)

include hself

/-- The value after joining a slot is the one written last, also where the slot is dropped because
it returned to its original value. -/
theorem slotValue_updateSlots {other : StorageWithOriginalValues} :
    slotValue (other.foldl updateSlot self) k base =
      slotValue other k (slotValue self k base) := by
  rw [slotValue, lookup_updateSlots]
  cases ho : other.lookup k with
  | none => simp [slotValue, ho]
  | some slot =>
    cases hs : self.lookup k with
    | none => simp [slotValue, ho, joinSlot]
    | some value =>
      have hbase := hself value hs
      by_cases heq : value.previousOrOriginalValue = slot.presentValue
      · simp [slotValue, ho, joinSlot, ← hbase, heq]
      · simp [slotValue, ho, joinSlot, heq]

/-- A joined slot keeps the original value it had first. -/
theorem joinSlot_original {slot' : StorageSlot}
    (hslot : slot.previousOrOriginalValue = slotValue self k base)
    (h : joinSlot (self.lookup k) slot = some slot') : slot'.previousOrOriginalValue = base := by
  cases hs : self.lookup k with
  | none =>
    rw [hs] at h
    cases h
    rw [hslot, slotValue_of_none hs]
  | some value =>
    rw [hs, joinSlot] at h
    split_ifs at h
    cases h
    exact hself value hs

end

end TransitionAccount

namespace BundleAccount

variable (this update : StorageWithOriginalValues)

/-- `extend_storage`, at one key. -/
theorem lookup_extendStorage (k : StorageKey) :
    (extendStorage this update).lookup k =
      (update.lookup k).elim (this.lookup k) fun slot =>
        some { (this.lookup k).getD slot with presentValue := slot.presentValue } := by
  refine HashMap.foldl_obs _ (fun k storage => AList.lookup k storage)
    (fun _ slot old => some { old.getD slot with presentValue := slot.presentValue }) ?_ ?_
    update this k
  · intro storage key slot
    simp
  · intro storage key slot k' hne
    simp [hne]

theorem slotValue_extendStorage (k : StorageKey)
    (fallback : StorageValue) : slotValue (extendStorage this update) k fallback =
      slotValue update k (slotValue this k fallback) := by
  rw [slotValue, lookup_extendStorage]
  cases hu : update.lookup k with
  | none => simp [slotValue, hu]
  | some slot => simp [slotValue, hu]

end BundleAccount

/-! ## The pending transition -/

/-- The transition `t` leads from the view `w₀` and the status `s` to the view `w`. -/
structure PendingInv (w₀ w : AccountView) (s : AccountStatus) (t : TransitionAccount) : Prop where
  previousInfo : infoKey t.previousInfo = w₀.info
  previousStatus : t.previousStatus = s
  info : infoKey t.info = w.info
  follows : s.follows t.storageWasDestroyed t.status = true
  storage : ∀ k, w.storage k =
    slotValue t.storage k (if t.storageWasDestroyed then 0 else w₀.storage k)
  original : ∀ k slot, t.storage.lookup k = some slot →
    slot.previousOrOriginalValue = if t.storageWasDestroyed then 0 else w₀.storage k
  gone : t.status.isGone = true → t.info = none ∧ t.storage = ∅
  previousGone : s.isGone = true → t.previousInfo = none

namespace PendingInv

variable {w₀ w w' : AccountView} {s : AccountStatus} {t next : TransitionAccount}

/-- After a destruction nothing is left. -/
theorem eq_removed (h : PendingInv w₀ w s t) (hgone : t.status.isGone = true) :
    w = AccountView.removed := by
  obtain ⟨hinfo, hstorage⟩ := h.gone hgone
  have hwiped := AccountStatus.wiped_of_isGone h.follows hgone
  refine AccountView.ext ?_ (funext fun k => ?_)
  · rw [← h.info, hinfo]
    rfl
  · rw [h.storage k, hstorage, hwiped]
    rfl

/-- Transitions of one block compose: `next` is the transition of one more commit, which wipes the
storage exactly when it destroys the account. -/
theorem update (h : PendingInv w₀ w s t) (hnext : PendingInv w w' t.status next)
    (hwipe : next.storageWasDestroyed = next.status.isGone) :
    PendingInv w₀ w' s (t.update next) := by
  have hfollows := AccountStatus.follows_trans h.follows hnext.follows
  have hne : next.status ≠ .loadedNotExisting := by
    intro heq
    have hf := hnext.follows
    rw [heq] at hf
    cases hf
  cases hg : next.status.isGone with
  | true =>
    have hcond : next.status = .destroyed ∨ next.status = .destroyedAgain := by
      cases hs : next.status <;> simp_all [AccountStatus.isGone]
    obtain ⟨hinfo, hstorage⟩ := hnext.gone hg
    have hremoved := hnext.eq_removed hg
    rw [hwipe, hg, Bool.or_true] at hfollows
    rw [TransitionAccount.update, if_pos hcond]
    refine ⟨h.previousInfo, h.previousStatus, hnext.info, hfollows, fun k => ?_,
      fun k slot hk => ?_, fun _ => ⟨hinfo, hstorage⟩, h.previousGone⟩
    · rw [hremoved, hstorage]
      rfl
    · rw [hstorage] at hk
      cases hk
  | false =>
    have hcond : ¬ (next.status = .destroyed ∨ next.status = .destroyedAgain) := by
      rintro (heq | heq) <;> rw [heq] at hg <;> cases hg
    have hflag : next.storageWasDestroyed = false := hwipe.trans hg
    rw [hflag, Bool.or_false] at hfollows
    rw [TransitionAccount.update, if_neg hcond]
    refine ⟨h.previousInfo, h.previousStatus, hnext.info, hfollows, fun k => ?_,
      fun k slot hk => ?_, fun hgone => absurd hgone (by simp [hg]), h.previousGone⟩
    · rw [TransitionAccount.slotValue_updateSlots (fun value hv => h.original k value hv),
        ← h.storage k, hnext.storage k, hflag]
      rfl
    · rw [TransitionAccount.lookup_updateSlots] at hk
      cases hn : next.storage.lookup k with
      | none =>
        rw [hn] at hk
        exact h.original k slot hk
      | some slot' =>
        rw [hn] at hk
        have horig := hnext.original k slot' hn
        rw [hflag, if_neg Bool.false_ne_true, h.storage k] at horig
        exact TransitionAccount.joinSlot_original (fun value hv => h.original k value hv) horig hk

end PendingInv

end Revm
