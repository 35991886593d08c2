import Revm.Database.BundleDiff

/-!
# Reverting blocks

`BundleState.revert n` takes back the last `n` merged blocks. A reverted bundle need not be the old
bundle: entries stay, slots of later blocks stay with their old values, and statuses may differ.
`EntryLike v b b'` says what is kept: `b'` reads like the entry `b` over the database account `v`,
and will do so after older reverts.

Main results: `Merged.revert_like` (one account, one block), `RevertChain.revert_like` (any number
of blocks) and `RevertRun.viewAt_revert` (every run). `RevertRun.viewAt_revert_ne` is a run outside
the conditions: a slot written after a destruction in an earlier block keeps its zero.
-/

set_option autoImplicit false

namespace Revm

open BundleAccount BundleState

variable {ε : Type} {v : PlainView} {t : TransitionAccount} {w₀ w : AccountView}

/-! ## Views of bundle entries -/

/-- What a bundle entry over a database account reads as: the database is asked when there is no
entry, or the entry does not know the slot. -/
def entryView (v : PlainView) : Option BundleAccount → AccountView
  | none => v.view
  | some b => ⟨infoKey b.info, fun k => (b.storageSlot k).getD (v.storage k)⟩

/-- The view of a bundle over a plain state. -/
def BundleState.viewAt (bs : BundleState) (d : PlainState) (a : Address) : AccountView :=
  entryView (d a) (bs.state.lookup a)

theorem storageSlot_getD (b : BundleAccount) (k : StorageKey) (value : StorageValue) :
    (b.storageSlot k).getD value =
      slotValue b.storage k (if b.status.isStorageKnown then 0 else value) := by
  cases hk : b.storage.lookup k with
  | some slot => simp [storageSlot, hk, slotValue]
  | none => cases hs : b.status.isStorageKnown <;> simp [storageSlot, hk, hs, slotValue]

theorem BundleInv.entryView_eq {w : AccountView} {b : BundleAccount}
    (h : BundleInv v w b) : entryView v (some b) = w := by
  refine AccountView.ext h.info (funext fun k => ?_)
  show (b.storageSlot k).getD (v.storage k) = w.storage k
  rw [storageSlot_getD, h.storage k]

/-! ## Reverted accounts -/

/-- The account that `revert_latest` reverts at an address without an entry. -/
def BundleAccount.absent : BundleAccount := ⟨none, none, ∅, .loadedNotExisting⟩

/-- The reverted account `b'` reads like `b`. Slots that `b` does not have hold the value that a
reader of `b` gets from elsewhere, and are zero in the database where `b` does not ask it. -/
structure Like (v : PlainView) (b b' : BundleAccount) : Prop where
  info : infoKey b'.info = infoKey b.info
  originalInfo : b'.originalInfo.isNone = b.originalInfo.isNone
  known : b'.status.isStorageKnown = b.status.isStorageKnown
  slots : ∀ k slot, b.storage.lookup k = some slot →
    ∃ slot', b'.storage.lookup k = some slot' ∧ slot'.presentValue = slot.presentValue
  extra : ∀ k slot', b.storage.lookup k = none → b'.storage.lookup k = some slot' →
    slot'.presentValue = (if b.status.isStorageKnown then 0 else v.storage k) ∧
      (b.status.isStorageKnown = true → v.storage k = 0)

/-- The entry `b'` of a reverted bundle reads like the entry `b`. -/
def EntryLike (v : PlainView) (b b' : Option BundleAccount) : Prop :=
  match b with
  | none => entryView v b' = v.view
  | some b => Like v b (b'.getD absent) ∧ (b' = none → v.view = AccountView.removed)

theorem Like.refl (v : PlainView) (b : BundleAccount) : Like v b b :=
  ⟨rfl, rfl, rfl, fun _ slot h => ⟨slot, h, rfl⟩, fun k slot' hn hs => by rw [hn] at hs; cases hs⟩

theorem EntryLike.refl (v : PlainView) (b : Option BundleAccount) : EntryLike v b b := by
  cases b with
  | none => rfl
  | some b => exact ⟨Like.refl v b, nofun⟩

theorem Like.entryView_eq {b b' : BundleAccount} (h : Like v b b') :
    entryView v (some b') = entryView v (some b) := by
  refine AccountView.ext h.info (funext fun k => ?_)
  show (b'.storageSlot k).getD (v.storage k) = (b.storageSlot k).getD (v.storage k)
  rw [storageSlot_getD, storageSlot_getD, h.known]
  cases hb : b.storage.lookup k with
  | some slot =>
    obtain ⟨slot', hslot', heq⟩ := h.slots k slot hb
    rw [slotValue_of_some hb, slotValue_of_some hslot', heq]
  | none =>
    rw [slotValue_of_none hb]
    cases hb' : b'.storage.lookup k with
    | none => exact slotValue_of_none hb' _
    | some slot' =>
      rw [slotValue_of_some hb']
      exact (h.extra k slot' hb hb').1

theorem EntryLike.entryView_eq {b b' : Option BundleAccount}
    (h : EntryLike v b b') : entryView v b' = entryView v b := by
  cases b with
  | none => exact h
  | some b =>
    obtain ⟨hlike, hremoved⟩ := h
    rw [← hlike.entryView_eq]
    cases b' with
    | some b' => rfl
    | none => exact hremoved rfl

/-! ## One account, one block -/

/-- `revert_latest` at one address. -/
def revertEntry (b' : Option BundleAccount) (revert : AccountRevert) : Option BundleAccount :=
  let r := (b'.getD absent).revert revert
  if r.2 then none else some r.1

namespace BundleAccount

/-- The slots of `BundleAccount::revert`, at one key. -/
def revertSlotAt (old : Option StorageSlot) : RevertToSlot → Option StorageSlot
  | .some value => some { old.getD (StorageSlot.new value) with presentValue := value }
  | .destroyed => none

theorem lookup_revertSlots (storage : StorageWithOriginalValues)
    (reverts : HashMap StorageKey RevertToSlot) (k : StorageKey) :
    AList.lookup k (reverts.foldl revertSlot storage) =
      (reverts.lookup k).elim (storage.lookup k) fun r => revertSlotAt (storage.lookup k) r := by
  refine HashMap.foldl_obs revertSlot (fun k storage => AList.lookup k storage)
    (fun _ r old => revertSlotAt old r) ?_ ?_ reverts storage k
  · intro storage key r
    cases r <;> simp [revertSlot, revertSlotAt]
  · intro storage key r k' hne
    cases r <;> simp [revertSlot, hne]

end BundleAccount

variable {e : Option BundleAccount}

section RevertOne

variable {b b₁ b' : BundleAccount} {result : Option AccountRevert} {revert : AccountRevert}

/-- A revert that restores an account never deletes it, and restores the info. -/
theorem BundleAccount.revert_of_restore (hinfo : infoKey b'.info = infoKey t.info)
    (hacc : revert.account = infoRevert b.info t.info ∨
      revert.account = .revertTo (b.info.getD AccountInfo.default)) :
    ∃ info, infoKey info = infoKey b.info ∧
      b'.revert revert =
        ({ b' with
            status := revert.previousStatus
            info := info
            storage := revert.storage.foldl revertSlot b'.storage }, false) := by
  by_cases heq : eqInfoOption b.info t.info = true ∧ revert.account = .doNothing
  · refine ⟨b'.info, ?_, by simp only [BundleAccount.revert, heq.2]⟩
    rw [hinfo]
    exact (infoKey_congr heq.1).symm
  · have hto : revert.account = .revertTo (b.info.getD AccountInfo.default) := by
      rcases hacc with hacc | hacc
      · rw [infoRevert] at hacc
        split_ifs at hacc with he
        · exact absurd ⟨he, hacc⟩ heq
        · exact hacc
      · exact hacc
    exact ⟨some (b.info.getD AccountInfo.default), infoKey_getD_default b.info,
      by simp only [BundleAccount.revert, hto]⟩

/-- The slot at `k` reads like the one of `b`. -/
def SlotLike (v : PlainView) (b : BundleAccount) (k : StorageKey) (found : Option StorageSlot) :
    Prop :=
  (∀ slot, b.storage.lookup k = some slot →
    ∃ slot', found = some slot' ∧ slot'.presentValue = slot.presentValue) ∧
  ∀ slot', b.storage.lookup k = none → found = some slot' →
    slot'.presentValue = (if b.status.isStorageKnown then 0 else v.storage k) ∧
      (b.status.isStorageKnown = true → v.storage k = 0)

/-- Slots after the revert of a block in which the account was destroyed. -/
theorem Like.slots_wiped (hm : Merged b t result b₁) (hwiped : t.storageWasDestroyed = true)
    (hknown : b₁.status.isStorageKnown = true) (hl : Like v b₁ b')
    (hstorage : ∀ k, revert.storage.lookup k = revertedSlot b t k) (k : StorageKey) : SlotLike v b k
      (AList.lookup k (revert.storage.foldl revertSlot b'.storage)) := by
  have hk := hstorage k
  rw [revertedSlot, if_pos hwiped] at hk
  rw [lookup_revertSlots, hk]
  refine ⟨fun slot hslot => ?_, fun slot' hnone hslot' => ?_⟩
  · rw [hslot]
    exact ⟨_, rfl, rfl⟩
  · rw [hnone] at hslot'
    cases ht : t.storage.lookup k with
    | some new =>
      -- A slot of the block is erased, so nothing is left of it.
      rw [ht] at hslot'
      cases hslot'
    | none =>
      rw [ht] at hslot'
      have hb₁ : b₁.storage.lookup k = none := by
        rw [hm.storage k, mergedStorage_wiped hwiped, ht]
      obtain ⟨hval, hzero⟩ := hl.extra k slot' hb₁ hslot'
      rw [hknown] at hval
      exact ⟨by rw [hval, hzero hknown, if_pos rfl, ite_self], fun _ => hzero hknown⟩

/-- A slot of a block without destruction has its old value after the revert. -/
theorem Like.written_slot (hp : PendingInv w₀ w b.status t) (hm : Merged b t result b₁)
    (hwiped : t.storageWasDestroyed = false) (hl : Like v b₁ b')
    (hstorage : ∀ k, revert.storage.lookup k = revertedSlot b t k) {k : StorageKey}
    {new : StorageSlot} (ht : t.storage.lookup k = some new) :
    ∃ slot', AList.lookup k (revert.storage.foldl revertSlot b'.storage) =
      some slot' ∧ slot'.presentValue = w₀.storage k := by
  have horig := hp.original k new ht
  rw [hwiped, if_neg Bool.false_ne_true] at horig
  have hk := hstorage k
  rw [revertedSlot, if_neg (by simp [hwiped]), previousStorageFromUpdate,
    HashMap.lookup_filterMapValues, ht, Option.bind_some] at hk
  rw [lookup_revertSlots, hk]
  cases hc : new.isChanged with
  | true => exact ⟨_, rfl, horig⟩
  | false =>
    -- An unchanged slot is not part of the revert; its value is the one of the merged entry.
    have hsame : new.previousOrOriginalValue = new.presentValue := by
      simpa [StorageSlot.isChanged] using hc
    have hb₁ : ∃ slot, b₁.storage.lookup k = some slot ∧ slot.presentValue = new.presentValue := by
      rw [hm.storage k, mergedStorage_extend hwiped, lookup_extendStorage, ht]
      exact ⟨_, rfl, rfl⟩
    obtain ⟨slot, hslot, hval⟩ := hb₁
    obtain ⟨slot', hslot', hval'⟩ := hl.slots k slot hslot
    exact ⟨slot', hslot', by rw [hval', hval, ← hsame, horig]⟩

-- The block `t` turns the entry `b` of the view `w₀` into the one of `w`, and writes no slot that
-- the database holds a value of and `b` does not ask it for.
variable (h : BundleInv v w₀ b) (hp : PendingInv w₀ w b.status t)
  (hmem : t.status = .inMemoryChange → ∀ k, v.storage k = 0)
  (hcond : b.status.isStorageKnown = true → ∀ k slot, t.storage.lookup k = some slot →
    v.storage k = 0)

include h hp hmem hcond

/-- Slots after the revert of a block without destruction. -/
theorem Like.slots_changed (hm : Merged b t result b₁) (hwiped : t.storageWasDestroyed = false)
    (hl : Like v b₁ b') (hstorage : ∀ k, revert.storage.lookup k = revertedSlot b t k)
    (k : StorageKey) : SlotLike v b k
      (AList.lookup k (revert.storage.foldl revertSlot b'.storage)) := by
  cases ht : t.storage.lookup k with
  | some new =>
    obtain ⟨slot₁, hslot₁, hval₁⟩ := Like.written_slot hp hm hwiped hl hstorage ht
    refine ⟨fun slot hslot => ⟨slot₁, hslot₁, ?_⟩, fun slot' hnone hslot' => ?_⟩
    · rw [hval₁, h.storage k, slotValue_of_some hslot]
    · rw [hslot₁] at hslot'
      cases hslot'
      refine ⟨?_, fun hknown => hcond hknown k new ht⟩
      rw [hval₁, h.storage k, slotValue_of_none hnone]
  | none =>
    -- The block did not write the slot: both entries agree on it.
    have hk := hstorage k
    rw [revertedSlot, if_neg (by simp [hwiped]), previousStorageFromUpdate,
      HashMap.lookup_filterMapValues, ht, Option.bind_none] at hk
    have hb₁ : b₁.storage.lookup k = b.storage.lookup k := by
      rw [hm.storage k, mergedStorage_extend hwiped, lookup_extendStorage, ht]
      rfl
    have hf := hp.follows
    rw [hwiped] at hf
    have hstatus := hm.status_of_not_wiped hf
    rw [lookup_revertSlots, hk]
    refine ⟨fun slot hslot => hl.slots k slot (hb₁.trans hslot), fun slot' hnone hslot' => ?_⟩
    obtain ⟨hval, hzero⟩ := hl.extra k slot' (hb₁.trans hnone) hslot'
    rw [hstatus] at hval hzero
    refine ⟨?_, fun hknown => hzero (AccountStatus.isStorageKnown_of_follows hf hknown)⟩
    rw [hval]
    exact BundleInv.fallback_eq hf hmem k

/-- Restoring an account undoes the block. -/
theorem Like.restore (hm : Merged b t result b₁) (hl : Like v b₁ b')
    (hacc : revert.account = infoRevert b.info t.info ∨
      revert.account = .revertTo (b.info.getD AccountInfo.default))
    (hprev : revert.previousStatus = b.status)
    (hstorage : ∀ k, revert.storage.lookup k = revertedSlot b t k) :
    (b'.revert revert).2 = false ∧ Like v b (b'.revert revert).1 := by
  have hinfo' : infoKey b'.info = infoKey t.info := by rw [hl.info, hm.info]
  obtain ⟨info, hinfo, hrun⟩ := revert_of_restore hinfo' hacc
  have hslots : ∀ k, SlotLike v b k
      (AList.lookup k (revert.storage.foldl revertSlot b'.storage)) := by
    cases hwiped : t.storageWasDestroyed with
    | true =>
      have hknown := hm.isStorageKnown_of_wiped hp.follows hwiped
      exact Like.slots_wiped hm hwiped hknown hl hstorage
    | false => exact Like.slots_changed h hp hmem hcond hm hwiped hl hstorage
  rw [hrun]
  refine ⟨rfl, hinfo, ?_, by rw [← hprev], fun k => (hslots k).1, fun k => (hslots k).2⟩
  rw [← hm.originalInfo]
  exact hl.originalInfo

omit hmem in
/-- Deleting an account that came into being in the block undoes the block. Where the account
stays in the bundle, its slots keep their keys with the value zero. -/
theorem EntryLike.delete (hv : v.NoDangling) (hm : Merged b t result b₁) (hl : Like v b₁ b')
    (hgone : b.status.isGone = true) (hacc : revert.account = .deleteIt)
    (hprev : revert.previousStatus = b.status) :
    EntryLike v (some b) (if (b'.revert revert).2 then none else some (b'.revert revert).1) := by
  have hknown : b.status.isStorageKnown = true := by
    revert hgone
    cases b.status <;> decide
  have hempty := h.bare (Or.inl hgone)
  have horiginal : b'.originalInfo.isNone = b.originalInfo.isNone := by
    rw [← hm.originalInfo]
    exact hl.originalInfo
  cases hnone : b'.originalInfo.isNone with
  | true =>
    have hb : b.originalInfo = none := Option.isNone_iff_eq_none.1 (horiginal.symm.trans hnone)
    have hremoved : v.view = AccountView.removed := by
      have hinfo : infoKey v.info = none := by rw [← h.originalInfo, hb]; rfl
      have hzero := hv (PlainView.codeless_of_view (by
        show (infoKey v.info).all _ = true
        rw [hinfo]
        rfl))
      exact AccountView.ext hinfo (funext hzero)
    have hrun : (b'.revert revert).2 = true := by simp [BundleAccount.revert, hacc, hnone]
    rw [hrun, if_pos rfl]
    refine ⟨⟨?_, by rw [hb]; rfl, by rw [hknown]; rfl, fun k slot hslot => ?_, nofun⟩,
      fun _ => hremoved⟩
    · rw [h.gone hgone]
      rfl
    · rw [hempty] at hslot
      cases hslot
  | false =>
    have hrun : b'.revert revert = ({ b' with
            status := revert.previousStatus
            info := none
            storage := b'.storage.mapValues fun slot => { slot with presentValue := 0 } },
          false) := by
      simp [BundleAccount.revert, hacc, hnone]
    rw [hrun]
    refine ⟨⟨?_, horiginal, by rw [← hprev]; rfl, fun k slot hslot => ?_,
      fun k slot' _ hslot' => ?_⟩, nofun⟩
    · rw [h.gone hgone]
      rfl
    · rw [hempty] at hslot
      cases hslot
    · have hlook : (b'.storage.lookup k).map (fun slot => { slot with presentValue := 0 }) =
          some slot' := by
        rw [← HashMap.lookup_mapValues]
        exact hslot'
      obtain ⟨slot, hslot, rfl⟩ := Option.map_eq_some_iff.1 hlook
      rw [hknown]
      refine ⟨rfl, fun _ => ?_⟩
      cases ht : t.storage.lookup k with
      | some new => exact hcond hknown k new ht
      | none =>
        have hb₁ : b₁.storage.lookup k = none := by
          rw [hm.storage k, lookup_mergedStorage_of_empty hempty, ht]
        exact (hl.extra k slot hb₁ hslot).2 (hm.isStorageKnown hp.follows hknown)

/-- The revert of a block undoes it on one account, for every entry that reads like the merged
one. -/
theorem Merged.revert_like (hv : v.NoDangling) (hm : Merged b t (some revert) b₁)
    (hl : EntryLike v (some b₁) e) : EntryLike v (some b) (revertEntry e revert) := by
  have hr := hm.revert
  generalize hres : some revert = res at hr
  cases hr with
  | nothing => cases hres
  | delete _ hgone _ hacc hprev =>
    cases hres
    exact EntryLike.delete h hp hcond hv hm hl.1 hgone hacc hprev
  | restore _ hgone hacc hprev hstorage =>
    split_ifs at hres
    cases hres
    obtain ⟨hfalse, hlike⟩ := Like.restore h hp hmem hcond hm hl.1 hacc hprev hstorage
    rw [revertEntry, hfalse]
    exact ⟨hlike, nofun⟩

/-- A block without a revert leaves an entry of the bundle readable as before. -/
theorem Merged.no_revert_like (hmod : b.status.isNotModified = false) (hm : Merged b t none b₁)
    (hl : EntryLike v (some b₁) e) : EntryLike v (some b) e := by
  obtain ⟨hlike, hremoved⟩ := hl
  refine ⟨?_, hremoved⟩
  have hr := hm.revert
  generalize hres : (none : Option AccountRevert) = res at hr
  cases hr with
  | nothing hb ht =>
    have hknown : b.status.isStorageKnown = true := by
      revert hb
      cases b.status <;> decide
    have hknown₁ := hm.isStorageKnown hp.follows hknown
    have hempty := h.bare (Or.inl hb)
    refine ⟨?_, ?_, ?_, fun k slot hslot => ?_, fun k slot' _ hslot' => ?_⟩
    · rw [hlike.info, hm.info, (hp.gone ht).1, h.gone hb]
    · rw [← hm.originalInfo]
      exact hlike.originalInfo
    · rw [hlike.known, hknown₁, hknown]
    · rw [hempty] at hslot
      cases hslot
    · have hb₁ : b₁.storage.lookup k = none := by
        rw [hm.storage k, lookup_mergedStorage_of_empty hempty, (hp.gone ht).2]
        rfl
      have hextra := hlike.extra k slot' hb₁ hslot'
      rw [hknown₁] at hextra
      rw [hknown]
      exact hextra
  | delete => cases hres
  | restore revert hgone hacc hprev hstorage hwipe =>
    -- Applying the empty revert would change the status only, and not what it knows.
    split_ifs at hres with hempty
    obtain ⟨hnothing, hnone, hfalse⟩ := AccountRevert.isEmpty_iff hempty
    obtain ⟨-, hrestored⟩ := Like.restore h hp hmem hcond hm hlike hacc hprev hstorage
    have hstorage' : revert.storage = ∅ := HashMap.eq_empty_of_lookup hnone
    have hrun : ((e.getD absent).revert revert).1 =
        { e.getD absent with status := revert.previousStatus } := by
      simp only [BundleAccount.revert, hnothing, hstorage']
      rfl
    have hknown : b₁.status.isStorageKnown = b.status.isStorageKnown := by
      cases hw : t.storageWasDestroyed with
      | true =>
        have hd : b.status.wasDestroyed = true := by
          cases hd : b.status.wasDestroyed with
          | true => rfl
          | false =>
            rw [hwipe hw hd] at hfalse
            cases hfalse
        rw [hm.isStorageKnown_of_wiped hp.follows hw,
          AccountStatus.isStorageKnown_of_wasDestroyed hd]
      | false =>
        have hf := hp.follows
        rw [hw] at hf
        rw [hm.status_of_not_wiped hf]
        exact AccountStatus.isStorageKnown_eq_of_follows hf hmod
    rw [hrun] at hrestored
    exact ⟨hrestored.info, hrestored.originalInfo, hlike.known.trans hknown, hrestored.slots,
      hrestored.extra⟩

end RevertOne

/-- The revert of a block undoes it at one address. -/
theorem EntryInv.revert_like {s : AccountStatus} {b b₁ : Option BundleAccount}
    {revert : Option AccountRevert} (hv : v.NoDangling) (h : EntryInv v w₀ s b)
    (hp : PendingInv w₀ w s t) (ht : StatusInv v w t.status)
    (hcond : s.isStorageKnown = true → ∀ k slot, t.storage.lookup k = some slot →
      v.storage k = 0) (hmerge : mergeAccount b t = some (revert, b₁)) (hl : EntryLike v b₁ e) :
    EntryLike v b (revert.elim e (revertEntry e)) := by
  have hmem := ht.inMemoryChange
  cases b with
  | some b =>
    obtain ⟨hb, rfl, hmod⟩ := h
    obtain ⟨revert', b', hrun, hm, -⟩ := mergeAccount_some hb hp ht
    rw [hmerge] at hrun
    cases hrun
    cases revert with
    | none => exact Merged.no_revert_like hb hp hmem hcond hmod hm hl
    | some revert => exact Merged.revert_like hb hp hmem hcond hv hm hl
  | none =>
    obtain ⟨rfl, hknown⟩ := h
    obtain ⟨revert', hrun, -, hsome⟩ := mergeAccount_none hp ht hknown
    rw [hmerge] at hrun
    cases hrun
    cases revert with
    | none => exact hl
    | some revert =>
      -- The account starts from the one of the database.
      have hs := hp.previousStatus
      subst hs
      have hb := BundleInv.of_original hp hknown
      have hlike := Merged.revert_like hb hp hmem hcond hv (hsome rfl).1 hl
      show entryView v (revertEntry e revert) = v.view
      rw [hlike.entryView_eq, hb.entryView_eq]

/-! ## All addresses, many blocks -/

namespace BundleState

/-- The loop of `revert_latest` changes one entry, also where there was none. -/
theorem revertAccount_eq (bs : BundleState) (a : Address) (revert : AccountRevert) :
    (bs.revertAccount a revert).reverts = bs.reverts ∧
    ∀ b, (bs.revertAccount a revert).state.lookup b =
      if b = a then revertEntry (bs.state.lookup a) revert else bs.state.lookup b := by
  have habsent : BundleAccount.mk none none ∅ .loadedNotExisting = BundleAccount.absent := rfl
  cases hl : bs.state.lookup a with
  | some account =>
    cases hr : (account.revert revert).2 <;>
      simp [revertAccount, hl, revertEntry, hr, HashMap.lookup_insert_ite, HashMap.lookup_erase_ite]
  | none =>
    cases hr : (absent.revert revert).2 <;>
      simp [revertAccount, hl, revertEntry, habsent, hr, HashMap.lookup_insert_ite]

/-- The loop of `revert_latest`, at one address. -/
theorem foldl_revertAccount (block : BlockReverts) (bs : BundleState) :
    (block.foldl (fun acc r => acc.revertAccount r.1 r.2) bs).reverts = bs.reverts ∧
    ∀ a, (block.foldl (fun acc r => acc.revertAccount r.1 r.2) bs).state.lookup a =
      (block.filter (·.1 = a)).foldl (fun e r => revertEntry e r.2) (bs.state.lookup a) := by
  induction block generalizing bs with
  | nil => exact ⟨rfl, fun a => rfl⟩
  | cons r block ih =>
    obtain ⟨b, revert⟩ := r
    obtain ⟨hrev, hlook⟩ := ih (bs.revertAccount b revert)
    obtain ⟨hstep, hentry⟩ := bs.revertAccount_eq b revert
    refine ⟨hrev.trans hstep, fun a => ?_⟩
    refine (hlook a).trans ?_
    rw [hentry a]
    by_cases hab : b = a
    · subst hab
      simp
    · simp [hab, Ne.symm hab]

end BundleState

/-- The bundles after the blocks of a run, latest first: each block has its reverts, and reverting
it leads to an entry that reads like the one before the block. -/
inductive RevertChain (d : PlainState) : BundleState → List BundleState → Prop
  | start (bs : BundleState) : RevertChain d bs []
  | block {bs bs₁ : BundleState} {older : List BundleState}
      {reverts : BlockReverts} : RevertChain d bs older →
      bs₁.reverts = bs.reverts ++ [reverts] →
      (∀ a e, EntryLike (d a) (bs₁.state.lookup a) e → EntryLike (d a) (bs.state.lookup a)
        ((reverts.filter (·.1 = a)).foldl (fun e r => revertEntry e r.2) e)) →
      RevertChain d bs₁ (bs :: older)

/-- Reverting `n` blocks leads to a bundle that reads like the one `n` blocks ago. -/
theorem RevertChain.revert_like {d : PlainState} {bs : BundleState} {older : List BundleState}
    (h : RevertChain d bs older) {bs' : BundleState} (hrev : bs'.reverts = bs.reverts)
    (hlike : ∀ a, EntryLike (d a) (bs.state.lookup a) (bs'.state.lookup a)) {n : Nat}
    {target : BundleState} (hn : (bs :: older)[n]? = some target) (a : Address) :
    EntryLike (d a) (target.state.lookup a) ((bs'.revert n).state.lookup a) := by
  induction h generalizing bs' n with
  | start bs =>
    cases n with
    | zero =>
      cases hn
      exact hlike a
    | succ n => cases hn
  | @block bs bs₁ older reverts _ hblock hstep ih =>
    cases n with
    | zero =>
      cases hn
      exact hlike a
    | succ n =>
      -- `revert_latest` pops the block, and the rest is the induction hypothesis.
      have hlast : bs'.reverts.getLast? = some reverts := by
        rw [hrev, hblock, List.getLast?_append]
        rfl
      have hdrop : bs'.reverts.dropLast = bs.reverts := by
        rw [hrev, hblock, List.dropLast_concat]
      have hlatest : bs'.revertLatest = (reverts.foldl (fun acc r => acc.revertAccount r.1 r.2)
            { bs' with reverts := bs.reverts }, true) := by
        simp only [revertLatest, hlast, hdrop]
      obtain ⟨hrev', hlook⟩ := foldl_revertAccount reverts
        { bs' with reverts := bs.reverts }
      have hrun : bs'.revert (n + 1) = bs'.revertLatest.1.revert n := by
        rw [BundleState.revert, hlatest]
        rfl
      rw [hrun, hlatest]
      refine ih hrev' (fun b => ?_) hn
      rw [hlook b]
      exact hstep b _ (hlike b)

/-! ## Runs -/

/-- The blocks to be merged write no slot that the database holds a value of, in accounts whose
storage was in memory before the block. -/
def State.MergeOk (d : PlainState) (s : State ε) : Prop :=
  ∀ a t, (s.slice a).transition = some t → t.previousStatus.isStorageKnown = true →
    ∀ k slot, t.storage.lookup k = some slot → (d a).storage k = 0

/-- The states reached by reads, commits that agree with the view, and merges that keep reverts,
with the bundles after the blocks so far, latest first. -/
inductive RevertRun (d : PlainState) (code : B256 → Bytecode) : State ε → List BundleState → Prop
  | new : RevertRun d code (State.new d code true) [empty]
  | basic {s s' : State ε} {bundles : List BundleState} {a : Address}
      {info : Option AccountInfo} : RevertRun d code s bundles →
      s.basic a = .ok (info, s') → RevertRun d code s' bundles
  | storage {s s' : State ε} {bundles : List BundleState} {a : Address} {k : StorageKey}
      {value : StorageValue} : RevertRun d code s bundles →
      s.storage a k = some (.ok (value, s')) → RevertRun d code s' bundles
  | commit {s s' : State ε} {bundles : List BundleState} {evmState : EvmState} :
      RevertRun d code s bundles → s.CommitOk d evmState → s.commit evmState = some s' →
      RevertRun d code s' bundles
  | merge {s s' : State ε} {bundles : List BundleState} : RevertRun d code s bundles →
      s.MergeOk d → s.mergeTransitions .reverts = some s' →
      RevertRun d code s' (s'.bundleState :: bundles)

namespace RevertRun

variable {d : PlainState} {code : B256 → Bytecode} {s : State ε} {bundles : List BundleState}

theorem reached (h : RevertRun d code s bundles) : Reached d code s := by
  induction h with
  | new => exact Reached.new
  | basic _ hrun ih => exact ih.basic hrun
  | storage _ hrun ih => exact ih.storage hrun
  | commit _ hok hrun ih => exact ih.commit hok hrun
  | merge _ _ hrun ih => exact ih.merge hrun

/-- One merge adds a block that its reverts undo. -/
theorem merge_step (hd : d.NoDanglingStorage) (hs : s.Tracked d code) (hok : s.MergeOk d)
    {s' : State ε} (hrun : s.mergeTransitions .reverts = some s') :
    ∃ reverts, s'.bundleState.reverts = s.bundleState.reverts ++ [reverts] ∧
      ∀ a e, EntryLike (d a) (s'.bundleState.state.lookup a) e →
        EntryLike (d a) (s.bundleState.state.lookup a)
          ((reverts.filter (·.1 = a)).foldl (fun e r => revertEntry e r.2) e) := by
  obtain ⟨ts, hts⟩ := Option.isSome_iff_exists.1 hs.collects
  obtain ⟨s₁, block, hrun₁, -, -, -, -, hrev, hlook⟩ :=
    State.mergeTransitions_slice hts .reverts fun a t ht => by
      obtain ⟨revert, b', hmerge, -⟩ := (hs.slices a).merge ht
      simp [hmerge]
  rw [hrun] at hrun₁
  cases hrun₁
  refine ⟨block, hrev, fun a e he => ?_⟩
  have ha := hlook a
  cases ht : (s.slice a).transition with
  | none =>
    rw [ht] at ha
    rw [ha.2]
    have hb : s'.bundleState.state.lookup a = s.bundleState.state.lookup a := ha.1
    rw [hb] at he
    exact he
  | some t =>
    rw [ht] at ha
    obtain ⟨revert, b', hmerge, hb', hfilter⟩ := ha
    have hfold : (block.filter (·.1 = a)).foldl (fun e r => revertEntry e r.2) e =
        revert.elim e (revertEntry e) := by
      rw [hfilter]
      cases revert <;> rfl
    rw [hfold]
    cases hc : (s.slice a).cache with
    | none =>
      have hx : (s.slice a).transition = none ∧ (s.slice a).bundle = none := by
        simpa only [TrackInv, hc] using hs.slices a
      rw [hx.1] at ht
      cases ht
    | some c =>
      obtain ⟨hcached, w₀, s₀, hentry, -, hpend⟩ := (hs.slices a).cached hc
      rw [ht] at hpend
      obtain ⟨hp, htc⟩ := hpend
      have hb : s'.bundleState.state.lookup a = b' := hb'
      rw [hb] at he
      refine hentry.revert_like (hd a) hp (by rw [htc]; exact hcached.status)
        (fun hk => ?_) hmerge he
      refine hok a t ht ?_
      rw [hp.previousStatus]
      exact hk

/-- The bundle of the state is the latest one, and the bundles form a chain of reverts. -/
theorem chain (hd : d.NoDanglingStorage) (h : RevertRun d code s bundles) :
    ∃ older, bundles = s.bundleState :: older ∧ RevertChain d s.bundleState older := by
  induction h with
  | new => exact ⟨[], rfl, RevertChain.start _⟩
  | @basic s s' bundles a info hrun hbasic ih =>
    obtain ⟨s₁, hbasic₁, -, -, hbundle, -⟩ := State.basic_slice (hrun.reached.tracked hd).reads a
    rw [hbasic] at hbasic₁
    cases hbasic₁
    rw [hbundle]
    exact ih
  | @storage s s' bundles a k value hrun hstorage ih =>
    have hbundle : s'.bundleState = s.bundleState := by
      cases hc : s.cache.accounts.lookup a with
      | none => simp [State.storage, hc] at hstorage
      | some c =>
        obtain ⟨s₁, hstorage₁, -, -, hbundle, -⟩ :=
          State.storage_slice (hrun.reached.tracked hd).reads
            (show (s.slice a).cache = some c from hc) k
        rw [hstorage] at hstorage₁
        cases hstorage₁
        exact hbundle
    rw [hbundle]
    exact ih
  | @commit s s' bundles evmState hrun hok hcommit ih =>
    obtain ⟨s₁, hcommit₁, -, hbundle, -⟩ := State.commit_slice (hrun.reached.tracked hd).reads
      evmState fun a account hlook => by
        obtain ⟨c, hc, -⟩ := hok a account hlook
        exact Option.isSome_iff_exists.2 ⟨c, hc⟩
    rw [hcommit] at hcommit₁
    cases hcommit₁
    rw [hbundle]
    exact ih
  | @merge s s' bundles hrun hok hmerge ih =>
    obtain ⟨older, rfl, hchain⟩ := ih
    obtain ⟨reverts, hrev, hstep⟩ := merge_step hd (hrun.reached.tracked hd) hok hmerge
    exact ⟨_, rfl, hchain.block hrev hstep⟩

/-- Reverting `n` blocks gives the view of the bundle `n` blocks ago. -/
theorem viewAt_revert (d : PlainState) (code : B256 → Bytecode) (hd : d.NoDanglingStorage)
    (s : State ε) (bundles : List BundleState) (h : RevertRun d code s bundles) (n : Nat)
    (target : BundleState) (hn : bundles[n]? = some target) (a : Address) :
    (s.bundleState.revert n).viewAt d a = target.viewAt d a := by
  obtain ⟨older, rfl, hchain⟩ := h.chain hd
  exact (hchain.revert_like rfl (fun b => EntryLike.refl (d b) _) hn a).entryView_eq

/-- The contract is created again after its destruction, and writes its old slot. -/
def contractRecreate : EvmState :=
  (∅ : EvmState).insert 1
    { info := { AccountInfo.default with nonce := 1 }
      originalInfo := AccountInfo.default
      transactionId := 0
      storage := (∅ : EvmStorage).insert 1 ⟨0, 9, 0, false⟩
      status := { AccountFlags.empty with touched := true, created := true } }

/-- A block with one transition can be merged if the storage was not in memory before it. -/
theorem State.mergeOk_singleton {t : TransitionAccount}
    (hs : s.transitionState = some (TransitionState.addTransitions ∅ [(1, t)]))
    (hstatus : t.previousStatus.isStorageKnown = false) : s.MergeOk d := by
  intro a t' ht hknown
  have hlook : (TransitionState.addTransitions ∅ [(1, t)]).lookup a = some t' := by
    simpa only [State.slice, hs, Option.bind_some] using ht
  rw [TransitionState.lookup_addTransitions] at hlook
  by_cases ha : a = 1
  · subst ha
    cases hlook
    cases hstatus.symm.trans hknown
  · rw [addTransitionList, List.filter_cons_of_neg (by simpa using Ne.symm ha)] at hlook
    cases hlook

/-- The contract of `contractDatabase` writes its slot in one block and is destroyed in the next
one. Reverting one block gives the written slot back, and reverting both of them the old one. -/
theorem viewAt_revert_contract : ∃ (s : State Empty) (bundles : List BundleState),
      RevertRun contractDatabase (fun _ => Bytecode.default) s bundles ∧
      bundles[2]? = some empty ∧
      (s.bundleState.viewAt contractDatabase 1).storage 1 = 0 ∧
      ((s.bundleState.revert 1).viewAt contractDatabase 1).storage 1 = 9 ∧
      ((s.bundleState.revert 2).viewAt contractDatabase 1).storage 1 = 7 := by
  have hload : RevertRun (ε := Empty) contractDatabase (fun _ => Bytecode.default) _ _ :=
    RevertRun.basic (a := 1) RevertRun.new rfl
  have hwrite := hload.commit (contractWrite_commitOk rfl (by decide)) rfl
  have hfirst := hwrite.merge (State.mergeOk_singleton rfl rfl) rfl
  have hdestroy := hfirst.commit (show State.CommitOk _ _ contractDestroy from
    State.commitOk_insert rfl ⟨nofun, nofun, nofun, nofun⟩) rfl
  have hsecond := hdestroy.merge (State.mergeOk_singleton rfl rfl) rfl
  refine ⟨_, _, hsecond, rfl, by decide, ?_, ?_⟩
  · rw [viewAt_revert contractDatabase _ contractDatabase_noDanglingStorage _ _ hsecond 1 _ rfl 1]
    decide
  · rw [viewAt_revert contractDatabase _ contractDatabase_noDanglingStorage _ _ hsecond 2 _ rfl 1]
    decide

/-- The contract is destroyed in one block and writes its old slot again in the next one. Reverting
both blocks leaves the slot at zero; it was `7` before them. -/
theorem viewAt_revert_ne : ∃ s₁ s₂ s₃ s₄ s₅ : State Empty,
      RevertRun contractDatabase (fun _ => Bytecode.default) s₁ [empty] ∧
      s₁.CommitOk contractDatabase contractDestroy ∧ s₁.commit contractDestroy = some s₂ ∧
      s₂.mergeTransitions .reverts = some s₃ ∧
      s₃.CommitOk contractDatabase contractRecreate ∧ s₃.commit contractRecreate = some s₄ ∧
      s₄.mergeTransitions .reverts = some s₅ ∧
      ((s₅.bundleState.revert 2).viewAt contractDatabase 1).storage 1 = 0 ∧
      (empty.viewAt contractDatabase 1).storage 1 = 7 := by
  have hload : RevertRun (ε := Empty) contractDatabase (fun _ => Bytecode.default) _ _ :=
    RevertRun.basic (a := 1) RevertRun.new rfl
  refine ⟨_, _, _, _, _, hload, State.commitOk_insert rfl ⟨nofun, nofun, nofun, nofun⟩, rfl, rfl,
    State.commitOk_insert rfl ⟨fun k slot hk => ?_, fun _ _ _ => ⟨by decide, fun k => rfl⟩,
      nofun, nofun⟩,
    rfl, rfl, by decide, by decide⟩
  obtain ⟨rfl, rfl⟩ := HashMap.lookup_singleton hk
  decide

end RevertRun

end Revm
