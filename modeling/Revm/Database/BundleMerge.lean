import Revm.Database.Pending

/-!
# Merging a block into the bundle, one account at a time

`BundleInv v w b` says that the bundle account `b` turns the database account `v` into the view
`w`. `Merged b t revert b'` describes what merging the transition `t` into `b` yields, including the
revert.

Main results: `BundleAccount.merge` (a merge never hits an `unreachable!`), `BundleInv.merge` (it
yields the account of the new view) and `EntryInv.merge` (the same for an optional entry).
-/

set_option autoImplicit false

namespace Revm

open AccountRevert AccountStatus BundleAccount

variable {w₀ w : AccountView} {revert : Option AccountRevert} {v : PlainView} {s : AccountStatus}

/-! ## One merge -/

/-- The storage of a bundle account after a merge: what the block left, or the old slots extended
by the slots of the block. -/
def mergedStorage (b : BundleAccount) (t : TransitionAccount) : StorageWithOriginalValues :=
  if t.storageWasDestroyed then t.storage else extendStorage b.storage t.storage

/-- The slots of a revert: the present values of the old slots after a wipe, with the new slots
marked as destroyed; the original values of the changed slots otherwise. -/
def revertedSlot (b : BundleAccount) (t : TransitionAccount) (k : StorageKey) :
    Option RevertToSlot :=
  if t.storageWasDestroyed then
    ((b.storage.lookup k).map fun slot => .some slot.presentValue).or
      ((t.storage.lookup k).map fun _ => .destroyed)
  else (previousStorageFromUpdate t.storage).lookup k

/-- The revert that a merge returns. An account that was not there is deleted again; the info and
the slots of any other account are restored. -/
inductive MergeRevert (b : BundleAccount) (t : TransitionAccount) : Option AccountRevert → Prop
  | nothing : b.status.isGone = true → t.status.isGone = true → MergeRevert b t none
  | delete (revert : AccountRevert) : b.status.isGone = true → t.status.isGone = false →
      revert.account = .deleteIt → revert.previousStatus = b.status →
      MergeRevert b t (some revert)
  | restore (revert : AccountRevert) : b.status.isGone = false →
      revert.account = infoRevert b.info t.info ∨
        revert.account = .revertTo (b.info.getD AccountInfo.default) →
      revert.previousStatus = b.status →
      (∀ k, revert.storage.lookup k = revertedSlot b t k) →
      (t.storageWasDestroyed = true → b.status.wasDestroyed = false → revert.wipeStorage = true) →
      MergeRevert b t (if revert.isEmpty then none else some revert)

/-- What a merge into the bundle account `b` yields. -/
structure Merged (b : BundleAccount) (t : TransitionAccount) (revert : Option AccountRevert)
    (b' : BundleAccount) : Prop where
  info : b'.info = t.info
  originalInfo : b'.originalInfo = b.originalInfo
  /-- An account that is created and destroyed within the block keeps its status. -/
  status : b'.status = t.status ∨
    (b.status = .loadedNotExisting ∧ t.status = .destroyed ∧ b'.status = .loadedNotExisting)
  storage : ∀ k, b'.storage.lookup k = (mergedStorage b t).lookup k
  revert : MergeRevert b t revert

variable (storage : StorageWithOriginalValues)

namespace AccountRevert

theorem lookup_addDestroyed (previous : HashMap StorageKey RevertToSlot)
    (updated : StorageWithOriginalValues) (k : StorageKey) :
    (addDestroyed previous updated).lookup k =
      (previous.lookup k).or ((updated.lookup k).map fun _ => .destroyed) := by
  have hfold := HashMap.foldl_obs
    (fun (acc : HashMap StorageKey RevertToSlot) key (_ : StorageSlot) =>
      if (acc.lookup key).isSome then acc else acc.insert key .destroyed)
    (fun k storage => AList.lookup k storage)
    (fun _ _ old => old.or (some .destroyed)) ?_ ?_ updated previous k
  · refine hfold.trans ?_
    cases updated.lookup k <;> cases previous.lookup k <;> rfl
  · intro acc key slot
    cases hk : acc.lookup key <;> simp [hk]
  · intro acc key slot k' hne
    cases hk : acc.lookup key <;> simp [hne]

theorem lookup_presentSlots (k : StorageKey) :
    (presentSlots storage).lookup k =
      (storage.lookup k).map fun slot => .some slot.presentValue := by
  rw [presentSlots, HashMap.lookup_mapValues]

end AccountRevert

namespace BundleAccount

variable {b : BundleAccount} {t : TransitionAccount}

theorem mergedStorage_extend (hwiped : t.storageWasDestroyed = false) :
    mergedStorage b t = extendStorage b.storage t.storage := by
  simp [mergedStorage, hwiped]

theorem mergedStorage_wiped (hwiped : t.storageWasDestroyed = true) :
    mergedStorage b t = t.storage := by
  simp [mergedStorage, hwiped]

/-- Over an empty storage both forms of `mergedStorage` are the slots of the block. -/
theorem lookup_mergedStorage_of_empty (hb : b.storage = ∅) (k : StorageKey) :
    (mergedStorage b t).lookup k = t.storage.lookup k := by
  rw [mergedStorage]
  split_ifs
  · rfl
  · rw [lookup_extendStorage, hb]
    cases t.storage.lookup k <;> rfl

theorem lookup_extendStorage_empty (k : StorageKey) :
    (extendStorage ∅ storage).lookup k = storage.lookup k := by
  rw [lookup_extendStorage]
  cases storage.lookup k <;> rfl

theorem lookup_mergedStorage_of_gone (hwiped : t.storageWasDestroyed = true) (ht : t.storage = ∅)
    (k : StorageKey) : (∅ : StorageWithOriginalValues).lookup k = (mergedStorage b t).lookup k := by
  rw [mergedStorage_wiped hwiped, ht]

/-- A revert that restores the changed slots of a block without destruction. -/
theorem restore_changes (hwiped : t.storageWasDestroyed = false) (hb : b.status.isGone = false)
    {revert : AccountRevert} (hacc : revert.account = infoRevert b.info t.info)
    (hprev : revert.previousStatus = b.status)
    (hstorage : revert.storage = previousStorageFromUpdate t.storage) :
    MergeRevert b t (if revert.isEmpty then none else some revert) := by
  refine MergeRevert.restore revert hb (Or.inl hacc) hprev (fun k => ?_) fun h => ?_
  · rw [hstorage, revertedSlot, if_neg (by simp [hwiped])]
  · rw [hwiped] at h
    cases h

/-- A revert that restores the slots from before a destruction. -/
theorem restore_wiped (hwiped : t.storageWasDestroyed = true) (hb : b.status.isGone = false)
    {revert : AccountRevert} (hacc : revert.account = infoRevert b.info t.info ∨
      revert.account = .revertTo (b.info.getD AccountInfo.default))
    (hprev : revert.previousStatus = b.status) (hstorage : revert.storage =
      addDestroyed (presentSlots b.storage) t.storage)
    (hwipe : b.status.wasDestroyed = false → revert.wipeStorage = true) :
    MergeRevert b t (if revert.isEmpty then none else some revert) := by
  refine MergeRevert.restore revert hb hacc hprev (fun k => ?_) fun _ => hwipe
  rw [hstorage, revertedSlot, if_pos hwiped, lookup_addDestroyed,
    lookup_presentSlots]

variable (b t) in
/-- The merge does not hit an `unreachable!`, and its result is described by `Merged`. -/
def Merges : Prop :=
  ∃ revert b', b.updateAndCreateRevert t = some (revert, b') ∧ Merged b t revert b'

section Merge

variable (hf : b.status.follows t.storageWasDestroyed t.status = true)
  (hbare : b.status.isGone = true ∨ b.status = .loadedEmptyEip161 → b.storage = ∅)
  (hbinfo : b.status.isGone = true → b.info = none)
  (htgone : t.status.isGone = true → t.info = none ∧ t.storage = ∅)

include hf

theorem merge_changed (ht : t.status = .changed) : Merges b t := by
  have hcases : t.storageWasDestroyed = false ∧ (b.status = .loaded ∨ b.status = .changed) := by
    simpa [ht, follows] using hf
  obtain ⟨hwiped, hb⟩ := hcases
  have hgone : b.status.isGone = false := by
    rcases hb with hb | hb <;> rw [hb] <;> rfl
  have hstorage := mergedStorage_extend (b := b) hwiped
  rcases hb with hb | hb
  all_goals
    simp only [Merges, updateAndCreateRevert, ht, updateToChanged, hb, Option.map_some,
      Option.bind_some]
    refine ⟨_, _, rfl, rfl, rfl, Or.inl ht.symm, fun k => ?_,
      restore_changes hwiped hgone rfl hb.symm rfl⟩
    rw [hstorage]

include hbare in
theorem merge_inMemoryChange (ht : t.status = .inMemoryChange) : Merges b t := by
  have hcases : t.storageWasDestroyed = false ∧ (b.status = .loadedNotExisting ∨
      b.status = .loadedEmptyEip161 ∨ b.status = .loaded ∨ b.status = .inMemoryChange) := by
    simpa [ht, follows, or_assoc] using hf
  obtain ⟨hwiped, hb | hb | hb | hb⟩ := hcases
  · simp only [Merges, updateAndCreateRevert, ht, updateToInMemoryChange, hb, Option.map_some,
      Option.bind_some]
    refine ⟨_, _, rfl, rfl, rfl, Or.inl ht.symm, fun k => ?_, ?_⟩
    · exact (lookup_mergedStorage_of_empty (hbare (Or.inl (by rw [hb]; rfl))) k).symm
    · exact MergeRevert.delete _ (by rw [hb]; rfl) (by rw [ht]; rfl) rfl hb.symm
  all_goals
    simp only [Merges, updateAndCreateRevert, ht, updateToInMemoryChange, hb, Option.map_some,
      Option.bind_some]
    refine ⟨_, _, rfl, rfl, rfl, Or.inl ht.symm, fun k => ?_,
      restore_changes hwiped (by rw [hb]; rfl) rfl hb.symm rfl⟩
  · exact (lookup_mergedStorage_of_empty (hbare (Or.inr hb)) k).symm
  · rw [mergedStorage_extend hwiped]
  · rw [mergedStorage_extend hwiped]

include hbinfo htgone in
theorem merge_destroyed (ht : t.status = .destroyed) : Merges b t := by
  have hcases : t.storageWasDestroyed = true ∧ b.status.wasDestroyed = false := by
    simpa [ht, follows] using hf
  obtain ⟨hwiped, hb⟩ := hcases
  obtain ⟨htinfo, htstorage⟩ := htgone (by rw [ht]; rfl)
  have hempty := lookup_mergedStorage_of_gone (b := b) hwiped htstorage
  have hslots : presentSlots b.storage =
      addDestroyed (presentSlots b.storage) t.storage := by
    rw [htstorage]
    rfl
  cases hs : b.status with
  | destroyed => rw [hs] at hb; cases hb
  | destroyedChanged => rw [hs] at hb; cases hb
  | destroyedAgain => rw [hs] at hb; cases hb
  | loadedNotExisting =>
    have hg : b.status.isGone = true := by rw [hs]; rfl
    simp only [Merges, updateAndCreateRevert, ht, updateToDestroyed, hs, Option.map_some,
      Option.bind_none]
    exact ⟨none, _, rfl, (hbinfo hg).trans htinfo.symm, rfl, Or.inr ⟨hs, ht, rfl⟩, hempty,
      MergeRevert.nothing hg (by rw [ht]; rfl)⟩
  | loaded | loadedEmptyEip161 | inMemoryChange | changed =>
    simp only [Merges, updateAndCreateRevert, ht, updateToDestroyed, hs, Option.map_some,
      Option.bind_some]
    exact ⟨_, _, rfl, htinfo.symm, rfl, Or.inl ht.symm, hempty,
      restore_wiped hwiped (by rw [hs]; rfl) (Or.inl rfl) hs.symm hslots fun _ => rfl⟩

include hbare in
theorem merge_destroyedChanged (ht : t.status = .destroyedChanged) : Merges b t := by
  have hcases : t.storageWasDestroyed = true ∨ b.status.wasDestroyed = true := by
    simpa [ht, follows] using hf
  cases hs : b.status with
  | loaded | loadedEmptyEip161 | inMemoryChange | changed =>
    -- The account of the database is destroyed in this block.
    have hwiped : t.storageWasDestroyed = true := by
      rw [hs] at hcases
      exact hcases.resolve_right (by decide)
    simp only [Merges, updateAndCreateRevert, ht, updateToDestroyedChanged,
      newSelfdestructedFromBundle, hs, Option.map_some, Option.bind_some]
    refine ⟨_, _, rfl, rfl, rfl, Or.inl ht.symm, fun k => ?_,
      restore_wiped hwiped (by rw [hs]; rfl) (Or.inl rfl) hs.symm rfl fun _ => rfl⟩
    rw [mergedStorage_wiped hwiped]
  | destroyed | loadedNotExisting | destroyedAgain =>
    have hempty : b.storage = ∅ := hbare (Or.inl (by rw [hs]; rfl))
    simp only [Merges, updateAndCreateRevert, ht, updateToDestroyedChanged,
      newSelfdestructedFromBundle, hs, Option.map_some, Option.bind_some]
    refine ⟨_, _, rfl, rfl, rfl, Or.inl ht.symm, fun k => ?_,
      MergeRevert.delete _ (by rw [hs]; rfl) (by rw [ht]; rfl) rfl hs.symm⟩
    rw [lookup_mergedStorage_of_empty hempty, hempty]
    exact lookup_extendStorage_empty t.storage k
  | destroyedChanged =>
    cases hwiped : t.storageWasDestroyed with
    | true =>
      simp only [Merges, updateAndCreateRevert, ht, updateToDestroyedChanged,
        newSelfdestructedFromBundle, hs, hwiped, if_true, Option.map_some,
        Option.bind_some]
      refine ⟨_, _, rfl, rfl, rfl, Or.inl ht.symm, fun k => ?_,
        restore_wiped hwiped (by rw [hs]; rfl) (Or.inl rfl) hs.symm rfl fun h => ?_⟩
      · rw [mergedStorage_wiped hwiped]
        exact lookup_extendStorage_empty t.storage k
      · rw [hs] at h
        cases h
    | false =>
      simp only [Merges, updateAndCreateRevert, ht, updateToDestroyedChanged,
        newSelfdestructedFromBundle, hs, hwiped, Bool.false_eq_true, if_false,
        Option.map_some, Option.bind_some]
      refine ⟨_, _, rfl, rfl, rfl, Or.inl ht.symm, fun k => ?_,
        restore_changes hwiped (by rw [hs]; rfl) rfl hs.symm rfl⟩
      rw [mergedStorage_extend hwiped]

include htgone in
theorem merge_destroyedAgain (ht : t.status = .destroyedAgain) : Merges b t := by
  have hwiped : t.storageWasDestroyed = true := by
    simpa [ht, follows] using hf
  have htgone' : t.status.isGone = true := by rw [ht]; rfl
  obtain ⟨htinfo, htstorage⟩ := htgone htgone'
  have hempty := lookup_mergedStorage_of_gone (b := b) hwiped htstorage
  have hslots : addDestroyed (presentSlots b.storage) ∅ =
      addDestroyed (presentSlots b.storage) t.storage := by
    rw [htstorage]
  cases hs : b.status with
  | loaded | loadedEmptyEip161 | inMemoryChange | changed =>
    simp only [Merges, updateAndCreateRevert, ht, updateToDestroyedAgain,
      newSelfdestructedFromBundle, hs, Option.map_some, Option.bind_some]
    exact ⟨_, _, rfl, htinfo.symm, rfl, Or.inl ht.symm, hempty,
      restore_wiped hwiped (by rw [hs]; rfl) (Or.inl rfl) hs.symm hslots fun _ => rfl⟩
  | destroyed | loadedNotExisting | destroyedAgain =>
    simp only [Merges, updateAndCreateRevert, ht, updateToDestroyedAgain,
      newSelfdestructedFromBundle, hs, Option.map_some, Option.bind_none]
    exact ⟨none, _, rfl, htinfo.symm, rfl, Or.inl ht.symm, hempty,
      MergeRevert.nothing (by rw [hs]; rfl) htgone'⟩
  | destroyedChanged =>
    simp only [Merges, updateAndCreateRevert, ht, updateToDestroyedAgain,
      newSelfdestructedFromBundle, hs, Option.map_some, Option.bind_some]
    exact ⟨_, _, rfl, htinfo.symm, rfl, Or.inl ht.symm, hempty,
      restore_wiped hwiped (by rw [hs]; rfl) (Or.inr rfl) hs.symm hslots fun h => by
        rw [hs] at h
        cases h⟩

include hbare hbinfo htgone in
/-- A merge of a transition that follows the account never hits an `unreachable!`. -/
theorem merge : Merges b t := by
  cases ht : t.status with
  | loadedNotExisting | loaded | loadedEmptyEip161 =>
    rw [ht] at hf
    cases hf
  | changed => exact merge_changed hf ht
  | inMemoryChange => exact merge_inMemoryChange hf hbare ht
  | destroyed => exact merge_destroyed hf hbinfo htgone ht
  | destroyedChanged => exact merge_destroyedChanged hf hbare ht
  | destroyedAgain => exact merge_destroyedAgain hf htgone ht

end Merge

end BundleAccount

namespace Merged

variable {b b' : BundleAccount} {t : TransitionAccount}

section

variable (hm : Merged b t revert b') (hf : b.status.follows t.storageWasDestroyed t.status = true)

include hm hf

/-- After a destruction in the block the storage is in memory. -/
theorem isStorageKnown_of_wiped (hwiped : t.storageWasDestroyed = true) :
    b'.status.isStorageKnown = true := by
  rw [hwiped] at hf
  rcases hm.status with heq | ⟨-, -, heq⟩
  · rw [heq]
    exact isStorageKnown_of_wasDestroyed
      (wasDestroyed_of_follows_wiped hf)
  · rw [heq]
    rfl

theorem isStorageKnown (hknown : b.status.isStorageKnown = true) :
    b'.status.isStorageKnown = true := by
  rcases hm.status with heq | ⟨-, -, heq⟩
  · rw [heq]
    exact isStorageKnown_of_follows hf hknown
  · rw [heq]
    rfl

end

theorem status_of_not_wiped (hm : Merged b t revert b')
    (hf : b.status.follows false t.status = true) : b'.status = t.status := by
  rcases hm.status with heq | ⟨-, heq, -⟩
  · exact heq
  · rw [heq] at hf
    cases hf

end Merged

/-! ## The bundle account -/

/-- The bundle account `b` turns the database account `v` into the view `w`. -/
structure BundleInv (v : PlainView) (w : AccountView) (b : BundleAccount) : Prop where
  info : infoKey b.info = w.info
  originalInfo : infoKey b.originalInfo = infoKey v.info
  storage : ∀ k, w.storage k =
    slotValue b.storage k (if b.status.isStorageKnown then 0 else v.storage k)
  original : b.status.wasDestroyed = false → ∀ k slot, b.storage.lookup k = some slot →
    slot.previousOrOriginalValue = v.storage k
  /-- An account that is in memory without having been destroyed has no storage in the database. -/
  inMemory : b.status.isStorageKnown = true → b.status.wasDestroyed = false →
    ∀ k, v.storage k = 0
  bare : b.status.isGone = true ∨ b.status = .loadedEmptyEip161 → b.storage = ∅
  gone : b.status.isGone = true → b.info = none

namespace BundleInv

variable {b : BundleAccount} {t : TransitionAccount}

/-- A block without destruction only moves the fallback of a missing slot where the database has
no storage. -/
theorem fallback_eq (hf : b.status.follows false t.status = true)
    (hmem : t.status = .inMemoryChange → ∀ k, v.storage k = 0) (k : StorageKey) :
    (if t.status.isStorageKnown then 0 else v.storage k) =
      if b.status.isStorageKnown then 0 else v.storage k := by
  cases ht : t.status with
  | loadedNotExisting | loaded | loadedEmptyEip161 | destroyed | destroyedAgain =>
    rw [ht] at hf
    cases hf
  | inMemoryChange => simp [hmem ht k]
  | changed =>
    have hb : b.status = .loaded ∨ b.status = .changed := by
      simpa [ht, follows] using hf
    rcases hb with hb | hb <;> rw [hb]
    all_goals rfl
  | destroyedChanged =>
    have hb : b.status.wasDestroyed = true := by simpa [ht, follows] using hf
    rw [isStorageKnown_of_wasDestroyed hb]
    rfl

variable {b' : BundleAccount}

/-- The storage part of a merge. -/
theorem merge_storage (h : BundleInv v w₀ b) (hp : PendingInv w₀ w b.status t)
    (hmem : t.status = .inMemoryChange → ∀ k, v.storage k = 0) (hm : Merged b t revert b')
    (k : StorageKey) :
    w.storage k = slotValue b'.storage k (if b'.status.isStorageKnown then 0 else v.storage k) := by
  have hlook : ∀ fallback, slotValue b'.storage k fallback =
      slotValue (mergedStorage b t) k fallback := by
    intro fallback
    rw [slotValue, hm.storage k]
    rfl
  rw [hlook, hp.storage k]
  cases hwiped : t.storageWasDestroyed with
  | true =>
    have hknown := hm.isStorageKnown_of_wiped hp.follows hwiped
    rw [mergedStorage_wiped hwiped, hknown]
    rfl
  | false =>
    have hf := hp.follows
    rw [hwiped] at hf
    rw [mergedStorage_extend hwiped, slotValue_extendStorage,
      hm.status_of_not_wiped hf, fallback_eq hf hmem k, ← h.storage k]
    rfl

/-- The original values of a merge that leaves the account undestroyed. -/
theorem merge_original (h : BundleInv v w₀ b) (hp : PendingInv w₀ w b.status t)
    (hm : Merged b t revert b') (hb' : b'.status.wasDestroyed = false) (k : StorageKey)
    (slot : StorageSlot) (hslot : b'.storage.lookup k = some slot) :
    slot.previousOrOriginalValue = v.storage k := by
  rw [hm.storage k] at hslot
  have hf := hp.follows
  cases hwiped : t.storageWasDestroyed with
  | true =>
    -- Only an account created and destroyed within the block is left undestroyed, without slots.
    rw [mergedStorage_wiped hwiped] at hslot
    rcases hm.status with heq | ⟨-, ht, -⟩
    · rw [hwiped] at hf
      rw [heq, wasDestroyed_of_follows_wiped hf] at hb'
      cases hb'
    · rw [(hp.gone (by rw [ht]; rfl)).2] at hslot
      cases hslot
  | false =>
    have hb : b.status.wasDestroyed = false := by
      rw [hwiped] at hf
      rw [← wasDestroyed_eq_of_follows hf, ← hm.status_of_not_wiped hf]
      exact hb'
    rw [mergedStorage_extend hwiped, lookup_extendStorage] at hslot
    cases ht : t.storage.lookup k with
    | none =>
      rw [ht] at hslot
      exact h.original hb k slot hslot
    | some new =>
      rw [ht] at hslot
      cases hk : b.storage.lookup k with
      | some old =>
        rw [hk] at hslot
        cases hslot
        exact h.original hb k old hk
      | none =>
        rw [hk] at hslot
        cases hslot
        have horig := hp.original k new ht
        rw [hwiped, if_neg Bool.false_ne_true, h.storage k, slotValue_of_none hk] at horig
        refine horig.trans ?_
        cases hknown : b.status.isStorageKnown with
        | true => exact (h.inMemory hknown hb k).symm
        | false => rfl

/-- Merging a pending transition yields the bundle account of the new view. -/
theorem merge (h : BundleInv v w₀ b) (hp : PendingInv w₀ w b.status t)
    (hmem : t.status = .inMemoryChange → ∀ k, v.storage k = 0) :
    ∃ revert b', b.updateAndCreateRevert t = some (revert, b') ∧ Merged b t revert b' ∧
      BundleInv v w b' := by
  obtain ⟨revert, b', hrun, hm⟩ := BundleAccount.merge hp.follows h.bare h.gone hp.gone
  -- An account that is gone after the block has neither info nor slots.
  have hgone : b'.status.isGone = true ∨ b'.status = .loadedEmptyEip161 →
      t.status.isGone = true := by
    intro hb'
    have hf := hp.follows
    rcases hm.status with heq | ⟨-, ht, -⟩
    · rw [heq] at hb'
      rcases hb' with hb' | hb'
      · exact hb'
      · rw [hb'] at hf
        cases hf
    · rw [ht]
      rfl
  refine ⟨revert, b', hrun, hm, ?_, ?_, h.merge_storage hp hmem hm, h.merge_original hp hm, ?_,
    fun hb' => ?_, fun hb' => ?_⟩
  · rw [hm.info]
    exact hp.info
  · rw [hm.originalInfo]
    exact h.originalInfo
  · intro hknown hdestroyed
    rcases hm.status with heq | ⟨hb, -, -⟩
    · rw [heq] at hknown hdestroyed
      exact hmem (eq_inMemoryChange_of_follows hp.follows hknown hdestroyed)
    · exact h.inMemory (by rw [hb]; rfl) (by rw [hb]; rfl)
  · have ht := hgone hb'
    refine HashMap.eq_empty_of_lookup fun k => (hm.storage k).trans ?_
    have hwiped := wiped_of_isGone hp.follows ht
    exact (lookup_mergedStorage_of_gone hwiped (hp.gone ht).2 k).symm
  · rw [hm.info]
    exact (hp.gone (hgone (Or.inl hb'))).1

/-- The invariant only looks at the slots by key. -/
theorem congr (h : BundleInv v w b) (hinfo : b'.info = b.info)
    (horiginal : b'.originalInfo = b.originalInfo) (hstatus : b'.status = b.status)
    (hstorage : ∀ k, b'.storage.lookup k = b.storage.lookup k) : BundleInv v w b' := by
  refine ⟨?_, ?_, fun k => ?_, fun hd k slot hslot => ?_, ?_, fun hbare => ?_, fun hgone => ?_⟩
  · rw [hinfo]
    exact h.info
  · rw [horiginal]
    exact h.originalInfo
  · rw [hstatus, slotValue, hstorage k]
    exact h.storage k
  · rw [hstatus] at hd
    rw [hstorage k] at hslot
    exact h.original hd k slot hslot
  · rw [hstatus]
    exact h.inMemory
  · rw [hstatus] at hbare
    refine HashMap.eq_empty_of_lookup fun k => ?_
    rw [hstorage k, h.bare hbare]
    rfl
  · rw [hstatus] at hgone
    rw [hinfo]
    exact h.gone hgone

/-- The account that `create_revert` starts from, for an address that is not in the bundle. -/
theorem of_original (hp : PendingInv v.view w t.previousStatus t)
    (hknown : t.previousStatus.isStorageKnown = true → ∀ k, v.storage k = 0) :
    BundleInv v v.view t.originalBundleAccount := by
  refine ⟨hp.previousInfo, hp.previousInfo, fun k => ?_, fun _ k slot hslot => ?_,
    fun h _ => hknown h, fun _ => rfl, hp.previousGone⟩
  · show v.storage k = if t.previousStatus.isStorageKnown then 0 else v.storage k
    split_ifs with h
    · exact hknown h k
    · rfl
  · cases hslot

end BundleInv

/-! ## Bundle entries -/

/-- What is known about an account with view `w` and status `s` over the database account `v`. -/
structure StatusInv (v : PlainView) (w : AccountView) (s : AccountStatus) : Prop where
  inMemory : s.isStorageKnown = true → s.wasDestroyed = false → ∀ k, v.storage k = 0
  gone : s.isGone = true → w = AccountView.removed
  unchanged : s = .loadedNotExisting ∨ s = .loaded ∨ s = .loadedEmptyEip161 → w = v.view
  existing : s = .loaded → w.info.isSome
  empty : s = .loadedEmptyEip161 → w.info = none
  changed : s = .changed → w.codeless = false

theorem StatusInv.inMemoryChange {w : AccountView}
    (h : StatusInv v w s) (hs : s = .inMemoryChange) : ∀ k, v.storage k = 0 := by
  subst hs
  exact h.inMemory rfl rfl

/-- The bundle entry `b` of an account stands for its view `w`. Without an entry the account is the
one of the database. -/
def EntryInv (v : PlainView) (w : AccountView) (s : AccountStatus) : Option BundleAccount → Prop
  | none => w = v.view ∧ (s.isStorageKnown = true → ∀ k, v.storage k = 0)
  | some b => BundleInv v w b ∧ b.status = s ∧ s.isNotModified = false

/-- One account of `apply_transitions_and_create_reverts`. -/
def mergeAccount (b : Option BundleAccount) (t : TransitionAccount) :
    Option (Option AccountRevert × Option BundleAccount) :=
  match b with
  | some b => (b.updateAndCreateRevert t).map fun r => (r.1, some r.2)
  | none =>
      t.createRevert.map fun revert =>
        (revert, if revert.isSome then some t.presentBundleAccount else none)

namespace AccountRevert

theorem isEmpty_iff {revert : AccountRevert} (h : revert.isEmpty = true) :
    revert.account = .doNothing ∧ (∀ k, revert.storage.lookup k = none) ∧
      revert.wipeStorage = false := by
  obtain ⟨account, storage, previous, wipe⟩ := revert
  obtain ⟨entries, hentries⟩ := storage
  cases account <;> cases entries <;> cases wipe <;> simp [isEmpty] at h
  exact ⟨rfl, fun k => rfl, rfl⟩

end AccountRevert

/-- A block with nothing to revert leaves the view as it was. -/
theorem PendingInv.eq_of_isEmpty {b : BundleAccount} {t : TransitionAccount}
    {revert : AccountRevert} (hp : PendingInv w₀ w b.status t) (hb : infoKey b.info = w₀.info)
    (hwiped : t.storageWasDestroyed = true → w₀.storage = fun _ => 0)
    (haccount : revert.account = infoRevert b.info t.info ∨
      revert.account = .revertTo (b.info.getD AccountInfo.default))
    (hstorage : ∀ k, revert.storage.lookup k = revertedSlot b t k)
    (hempty : revert.isEmpty = true) : w = w₀ := by
  obtain ⟨hnothing, hnone, -⟩ := isEmpty_iff hempty
  refine AccountView.ext ?_ (funext fun k => ?_)
  · rw [hnothing] at haccount
    rcases haccount with haccount | haccount
    · rw [infoRevert] at haccount
      split_ifs at haccount with heq
      rw [← hp.info, ← hb]
      exact (infoKey_congr heq).symm
    · cases haccount
  · have hslot := (hstorage k).symm.trans (hnone k)
    rw [hp.storage k]
    cases hw : t.storageWasDestroyed with
    | true =>
      rw [revertedSlot, if_pos hw, Option.or_eq_none_iff, Option.map_eq_none_iff,
        Option.map_eq_none_iff] at hslot
      rw [slotValue_of_none hslot.2, hwiped hw]
      rfl
    | false =>
      rw [revertedSlot, if_neg (by simp [hw]), previousStorageFromUpdate,
        HashMap.lookup_filterMapValues] at hslot
      cases ht : t.storage.lookup k with
      | none => exact slotValue_of_none ht _
      | some slot =>
        have horig := hp.original k slot ht
        rw [hw, if_neg Bool.false_ne_true] at horig
        rw [ht, Option.bind_some] at hslot
        split_ifs at hslot with hchanged
        have hsame : slot.previousOrOriginalValue = slot.presentValue := by
          simpa [StorageSlot.isChanged] using hchanged
        rw [slotValue_of_some ht, ← hsame, horig]

section Merge

variable {t : TransitionAccount} {b : Option BundleAccount}

/-- Merging into an entry of the bundle. -/
theorem mergeAccount_some {b : BundleAccount} (h : BundleInv v w₀ b)
    (hp : PendingInv w₀ w b.status t) (ht : StatusInv v w t.status) :
    ∃ revert b', mergeAccount (some b) t = some (revert, some b') ∧ Merged b t revert b' ∧
      BundleInv v w b' := by
  obtain ⟨revert, b', hrun, hm, hb'⟩ := h.merge hp ht.inMemoryChange
  exact ⟨revert, b', by simp [mergeAccount, hrun], hm, hb'⟩

/-- Merging at an address that is not in the bundle: an entry is made when there is something to
revert. -/
theorem mergeAccount_none (hp : PendingInv v.view w s t) (ht : StatusInv v w t.status)
    (hknown : s.isStorageKnown = true → ∀ k, v.storage k = 0) : ∃ revert, mergeAccount none t =
        some (revert, if revert.isSome then some t.presentBundleAccount else none) ∧
      MergeRevert t.originalBundleAccount t revert ∧
      (revert.isSome → Merged t.originalBundleAccount t revert t.presentBundleAccount ∧
        BundleInv v w t.presentBundleAccount) := by
  have hs := hp.previousStatus
  subst hs
  have hb := BundleInv.of_original hp hknown
  obtain ⟨revert, b', hrun, hm, hb'⟩ := hb.merge hp ht.inMemoryChange
  refine ⟨revert, by simp [mergeAccount, TransitionAccount.createRevert, hrun], hm.revert,
    fun hsome => ?_⟩
  have hlook : ∀ k, t.storage.lookup k = (mergedStorage t.originalBundleAccount t).lookup k :=
    fun k => (lookup_mergedStorage_of_empty rfl k).symm
  have hstatus : t.status = b'.status := by
    rcases hm.status with heq | ⟨hprev, hdestroyed, -⟩
    · exact heq.symm
    · -- The revert of an account created and destroyed within the block is empty.
      exfalso
      have hr := hm.revert
      rw [Option.isSome_iff_exists] at hsome
      obtain ⟨rev, rfl⟩ := hsome
      generalize hres : some rev = res at hr
      cases hr with
      | nothing => cases hres
      | delete _ _ hng => rw [hdestroyed] at hng; cases hng
      | restore _ hng => rw [hprev] at hng; cases hng
  refine ⟨⟨rfl, rfl, Or.inl rfl, hlook, hm.revert⟩, hb'.congr hm.info.symm hm.originalInfo.symm
    hstatus fun k => ?_⟩
  exact (hlook k).trans (hm.storage k).symm

/-- A block with nothing to revert leaves an address without an entry as it is in the database. -/
theorem EntryInv.of_no_revert (hs : StatusInv v v.view s) (hp : PendingInv v.view w s t)
    (ht : StatusInv v w t.status) (hknown : s.isStorageKnown = true → ∀ k, v.storage k = 0)
    (hr : MergeRevert t.originalBundleAccount t none) : EntryInv v w t.status none := by
  have hstatus := hp.previousStatus
  subst hstatus
  generalize hres : (none : Option AccountRevert) = res at hr
  cases hr with
  | nothing hb hgone =>
    have hv : v.view = AccountView.removed := hs.gone hb
    refine ⟨(hp.eq_removed hgone).trans hv.symm, fun _ k => ?_⟩
    exact congrFun (congrArg AccountView.storage hv) k
  | delete => cases hres
  | restore revert hb hacc hprev hstorage hwipe =>
    split_ifs at hres with hempty
    have hfalse := (isEmpty_iff hempty).2.2
    -- A destruction of an account of the database is never empty.
    have hwiped : t.storageWasDestroyed = true → ∀ k, v.storage k = 0 := by
      intro hw
      cases hd : t.previousStatus.wasDestroyed with
      | true => exact hknown (isStorageKnown_of_wasDestroyed hd)
      | false =>
        rw [hwipe hw hd] at hfalse
        cases hfalse
    refine ⟨PendingInv.eq_of_isEmpty (b := t.originalBundleAccount) hp hp.previousInfo
      (fun hw => funext (hwiped hw)) hacc hstorage hempty, fun hk => ?_⟩
    cases hw : t.storageWasDestroyed with
    | true => exact hwiped hw
    | false =>
      have hf := hp.follows
      rw [hw] at hf
      have heq := wasDestroyed_eq_of_follows hf
      cases hd : t.status.wasDestroyed with
      | false => exact ht.inMemory hk hd
      | true => exact hknown (isStorageKnown_of_wasDestroyed (heq.symm.trans hd))

/-- Merging the pending transition of an account never hits an `unreachable!`, and the new entry
stands for the new view. -/
theorem EntryInv.merge (h : EntryInv v w₀ s b) (hs : StatusInv v w₀ s) (hp : PendingInv w₀ w s t)
    (ht : StatusInv v w t.status) :
    ∃ revert b', mergeAccount b t = some (revert, b') ∧ EntryInv v w t.status b' := by
  have hne := isNotModified_of_follows hp.follows
  cases b with
  | some b =>
    obtain ⟨hb, rfl, hbne⟩ := h
    obtain ⟨revert, b', hrun, hm, hb'⟩ := mergeAccount_some hb hp ht
    refine ⟨revert, some b', hrun, hb', ?_, hne⟩
    refine hm.status.resolve_right fun hlne => ?_
    rw [hlne.1] at hbne
    cases hbne
  | none =>
    obtain ⟨rfl, hknown⟩ := h
    obtain ⟨revert, hrun, hr, hsome⟩ := mergeAccount_none hp ht hknown
    refine ⟨revert, _, hrun, ?_⟩
    cases revert with
    | some revert => exact ⟨(hsome rfl).2, rfl, hne⟩
    | none => exact EntryInv.of_no_revert hs hp ht hknown hr

end Merge

end Revm
