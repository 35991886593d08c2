import Mathlib.Data.List.Sort
import Revm.Bal.Account
import Revm.Bytecode.Decode

/-!
# Conversion of block access lists

The lists of Alloy keep the slots of an account in two parts, those that are changed and those that
are only read, and code as bytes. `DecodedBal` is `Bal` with code as `Bytecode` has it, all fields
included; `DecodedBal.intoAlloyBal` and `DecodedBal.tryFrom` convert it. Both ways together lose
nothing (`alloyBal_roundTrip`): a slot without writes is a slot that is only read, and bytes that
were decoded come back. Bytes that start like a delegation and are none cannot be converted.
-/

set_option autoImplicit false

namespace Revm

open List

/-! ## The lists of Alloy -/

/-- `alloy_eip7928::SlotChanges`, with `StorageChange` as a pair. -/
structure AlloySlotChanges where
  slot : StorageKey
  changes : List (Nat × StorageValue)
  deriving DecidableEq, Repr

/-- `alloy_eip7928::AccountChanges`. The changes of a field are pairs of an index and a value. -/
structure AlloyAccountChanges where
  address : Address
  storageChanges : List AlloySlotChanges
  storageReads : List StorageKey
  balanceChanges : List (Nat × U256)
  nonceChanges : List (Nat × U64)
  codeChanges : List (Nat × List UInt8)
  deriving DecidableEq, Repr

/-- `AccountInfoBal`, with all fields of the code. -/
structure DecodedAccountInfoBal where
  nonce : BalWrites U64
  balance : BalWrites U256
  code : BalWrites (B256 × DecodedBytecode)

/-- `AccountBal`, with all fields of the code. -/
structure DecodedAccountBal where
  accountInfo : DecodedAccountInfoBal
  storage : StorageBal

/-- `Bal`, with all fields of the code. -/
structure DecodedBal where
  accounts : HashMap Address DecodedAccountBal

/-! ## The conversions -/

/-- The slots in the order of their keys, as a `BTreeMap` iterates over them. -/
def StorageBal.sortedEntries (self : StorageBal) : List (StorageKey × BalWrites StorageValue) :=
  (self.storage.entries.map fun e => (e.1, e.2)).insertionSort fun x y => x.1 ≤ y.1

variable (self : DecodedAccountBal) (address : Address)

/-- `AccountBal::into_alloy_account`. The loop over the slots pushes each to one of the two
lists. -/
def DecodedAccountBal.intoAlloyAccount : AlloyAccountChanges where
  address := address
  storageChanges := (self.storage.sortedEntries.filter fun e => !e.2.isEmpty).map fun e =>
    ⟨e.1, e.2.writes⟩
  storageReads := (self.storage.sortedEntries.filter fun e => e.2.isEmpty).map (·.1)
  balanceChanges := self.accountInfo.balance.writes
  nonceChanges := self.accountInfo.nonce.writes
  codeChanges := encodeCodeChanges self.accountInfo.code.writes

/-- `Bal::into_alloy_bal`. -/
def DecodedBal.intoAlloyBal (self : DecodedBal) : List AlloyAccountChanges :=
  self.accounts.entries.map fun e => e.2.intoAlloyAccount e.1

/-- The slots of an account, the changed ones first. -/
def AlloyAccountChanges.slots (self : AlloyAccountChanges) :
    List (StorageKey × BalWrites StorageValue) :=
  (self.storageChanges.map fun slot => (slot.slot, ⟨slot.changes⟩)) ++
    self.storageReads.map fun key => (key, .default)

/-- `AccountBal::try_from_alloy`. -/
def DecodedAccountBal.tryFromAlloy [Keccak256] (alloyAccount : AlloyAccountChanges) :
    Except BytecodeDecodeError (Address × DecodedAccountBal) :=
  (decodeCodeChanges alloyAccount.codeChanges).map fun code =>
    (alloyAccount.address,
      { accountInfo := ⟨⟨alloyAccount.nonceChanges⟩, ⟨alloyAccount.balanceChanges⟩, ⟨code⟩⟩
        storage := ⟨.ofPairs alloyAccount.slots⟩ })

/-- `TryFrom<AlloyBal> for Bal`. -/
def DecodedBal.tryFrom [Keccak256] (alloyBal : List AlloyAccountChanges) :
    Except BytecodeDecodeError DecodedBal :=
  (alloyBal.mapM DecodedAccountBal.tryFromAlloy).map fun accounts => ⟨.ofPairsInOrder accounts⟩

/-! ## Slots -/

namespace StorageBal

theorem sortedEntries_perm (self : StorageBal) :
    self.sortedEntries.Perm (self.storage.entries.map fun e => (e.1, e.2)) :=
  perm_insertionSort _ _

theorem mem_sortedEntries (self : StorageBal) (key : StorageKey) (writes : BalWrites StorageValue) :
    (key, writes) ∈ self.sortedEntries ↔ self.storage.lookup key = some writes := by
  rw [self.sortedEntries_perm.mem_iff, mem_map, ← Option.mem_def, AList.mem_lookup_iff]
  constructor
  · rintro ⟨⟨key', writes'⟩, hmem, heq⟩
    cases heq
    exact hmem
  · exact fun hmem => ⟨⟨key, writes⟩, hmem, rfl⟩

theorem sortedEntries_nodup (self : StorageBal) : (self.sortedEntries.map Prod.fst).Nodup := by
  rw [(self.sortedEntries_perm.map Prod.fst).nodup_iff, map_map]
  exact self.storage.nodupKeys

end StorageBal

/-- The two parts of the slots together are all slots. -/
theorem slots_intoAlloyAccount :
    (self.intoAlloyAccount address).slots.Perm self.storage.sortedEntries := by
  have hreads : ((self.storage.sortedEntries.filter fun e => e.2.isEmpty).map (·.1)).map
      (fun key => (key, (BalWrites.default : BalWrites StorageValue))) =
        self.storage.sortedEntries.filter fun e => e.2.isEmpty := by
    rw [map_map]
    refine (map_congr_left fun e he => ?_).trans (map_id _)
    obtain ⟨key, ⟨writes⟩⟩ := e
    have hempty : writes = [] := isEmpty_iff.1 (mem_filter.1 he).2
    subst hempty
    rfl
  have hchanges : ((self.storage.sortedEntries.filter fun e => !e.2.isEmpty).map fun e =>
      (⟨e.1, e.2.writes⟩ : AlloySlotChanges)).map (fun slot => (slot.slot, ⟨slot.changes⟩)) =
        self.storage.sortedEntries.filter fun e => !e.2.isEmpty := by
    rw [map_map]
    exact (map_congr_left fun e _ => rfl).trans (map_id _)
  unfold AlloyAccountChanges.slots DecodedAccountBal.intoAlloyAccount
  rw [hreads, hchanges]
  exact perm_append_comm.trans (filter_append_perm _ _)

/-! ## From the list and back -/

/-- The code of every write was decoded from bytes, and the hash is its hash. -/
def DecodedAccountBal.CodeDecoded [Keccak256] : Prop :=
  ∀ write ∈ self.accountInfo.code.writes,
    (∃ bytes, newRawChecked bytes = .ok write.2.2) ∧ write.2.1 = write.2.2.hashSlow

/-- The same writes of all fields, and the same slots with the same writes. -/
structure DecodedAccountBal.Same (x y : DecodedAccountBal) : Prop where
  accountInfo : x.accountInfo = y.accountInfo
  storage : ∀ key, x.storage.storage.lookup key = y.storage.storage.lookup key

/-- The same accounts in the same order. -/
def DecodedBal.Same (x y : DecodedBal) : Prop :=
  List.Forall₂ (fun e e' => e.1 = e'.1 ∧ e.2.Same e'.2) x.accounts.entries y.accounts.entries

/-- An account with its slots collected again. -/
def DecodedAccountBal.recollected : DecodedAccountBal :=
  ⟨self.accountInfo, ⟨.ofPairs (self.intoAlloyAccount address).slots⟩⟩

theorem DecodedAccountBal.recollected_same : (self.recollected address).Same self where
  accountInfo := rfl
  storage := by
    intro key
    have hperm := slots_intoAlloyAccount self address
    have hnodup : ((self.intoAlloyAccount address).slots.map Prod.fst).Nodup := by
      rw [(hperm.map Prod.fst).nodup_iff]
      exact self.storage.sortedEntries_nodup
    apply Option.ext
    intro writes
    exact (HashMap.lookup_ofPairs hnodup key writes).trans
      (hperm.mem_iff.trans (self.storage.mem_sortedEntries key writes))

theorem DecodedAccountBal.tryFromAlloy_intoAlloyAccount [Keccak256] {self : DecodedAccountBal}
    (h : self.CodeDecoded) (address : Address) :
    tryFromAlloy (self.intoAlloyAccount address) = .ok (address, self.recollected address) := by
  have hcode : decodeCodeChanges (encodeCodeChanges self.accountInfo.code.writes) =
      .ok self.accountInfo.code.writes := by
    apply decodeCodeChanges_encodeCodeChanges
    intro write hwrite
    obtain ⟨⟨bytes, hbytes⟩, hhash⟩ := h write hwrite
    exact ⟨(originalBytes_of_newRawChecked hbytes).symm ▸ hbytes, hhash⟩
  unfold tryFromAlloy
  rw [show (self.intoAlloyAccount address).codeChanges =
    encodeCodeChanges self.accountInfo.code.writes from rfl, hcode]
  rfl

theorem DecodedBal.tryFrom_intoAlloyBal [Keccak256] {bal : DecodedBal}
    (h : ∀ e ∈ bal.accounts.entries, e.2.CodeDecoded) :
    ∃ bal', tryFrom bal.intoAlloyBal = .ok bal' ∧ bal'.Same bal := by
  have hmapM : bal.intoAlloyBal.mapM DecodedAccountBal.tryFromAlloy =
      .ok (bal.accounts.entries.map fun e => (e.1, e.2.recollected e.1)) := by
    unfold intoAlloyBal
    rw [mapM_eq_ok_iff, forall₂_map_left_iff, forall₂_map_right_iff, forall₂_same]
    exact fun e he => DecodedAccountBal.tryFromAlloy_intoAlloyAccount (h e he) e.1
  have hnodup : ((bal.accounts.entries.map fun e => (e.1, e.2.recollected e.1)).map
      Prod.fst).Nodup := by
    rw [map_map]
    exact bal.accounts.nodupKeys
  unfold tryFrom
  rw [hmapM]
  refine ⟨_, rfl, ?_⟩
  unfold DecodedBal.Same
  rw [HashMap.entries_ofPairsInOrder hnodup, map_map, forall₂_map_left_iff, forall₂_same]
  exact fun e _ => ⟨rfl, e.2.recollected_same e.1⟩

/-! ## To the list and back -/

/-- The same changes and reads, up to the order of the slots. -/
structure AlloyAccountChanges.SameUpToSlots (x y : AlloyAccountChanges) : Prop where
  address : x.address = y.address
  storageChanges : x.storageChanges.Perm y.storageChanges
  storageReads : x.storageReads.Perm y.storageReads
  balanceChanges : x.balanceChanges = y.balanceChanges
  nonceChanges : x.nonceChanges = y.nonceChanges
  codeChanges : x.codeChanges = y.codeChanges

/-- No slot is listed twice, and a changed slot has a change. -/
structure AlloyAccountChanges.Listed (account : AlloyAccountChanges) : Prop where
  slots : (account.storageChanges.map (·.slot) ++ account.storageReads).Nodup
  changed : ∀ slot ∈ account.storageChanges, slot.changes ≠ []

namespace AlloyAccountChanges

variable {account : AlloyAccountChanges}

theorem Listed.slots_nodup (h : account.Listed) : (account.slots.map Prod.fst).Nodup := by
  unfold AlloyAccountChanges.slots
  rw [map_append, map_map, map_map]
  exact (map_id account.storageReads).symm ▸ h.slots

theorem Listed.filter_slots (h : account.Listed) : (account.slots.filter fun e => !e.2.isEmpty) =
        account.storageChanges.map (fun slot => (slot.slot, ⟨slot.changes⟩)) ∧
      (account.slots.filter fun e => e.2.isEmpty) =
        account.storageReads.map fun key => (key, .default) := by
  have hchanged : ∀ e ∈ account.storageChanges.map fun slot =>
      (slot.slot, (⟨slot.changes⟩ : BalWrites StorageValue)), e.2.isEmpty = false := by
    intro e he
    obtain ⟨slot, hslot, rfl⟩ := mem_map.1 he
    exact isEmpty_eq_false_iff.2 (h.changed slot hslot)
  have hread : ∀ e ∈ account.storageReads.map fun key =>
      (key, (BalWrites.default : BalWrites StorageValue)), e.2.isEmpty = true := by
    intro e he
    obtain ⟨key, -, rfl⟩ := mem_map.1 he
    rfl
  unfold AlloyAccountChanges.slots
  rw [filter_append, filter_append]
  constructor
  · rw [filter_eq_self.2 fun e he => by rw [hchanged e he]; rfl,
      filter_eq_nil_iff.2 fun e he => by rw [hread e he]; decide, append_nil]
  · rw [filter_eq_nil_iff.2 fun e he => by rw [hchanged e he]; decide,
      filter_eq_self.2 hread, nil_append]

end AlloyAccountChanges

/-- The slots that are collected are those of the list. -/
theorem sortedEntries_ofPairs {pairs : List (StorageKey × BalWrites StorageValue)}
    (hnodup : (pairs.map Prod.fst).Nodup) :
    (StorageBal.mk (.ofPairs pairs)).sortedEntries.Perm pairs := by
  rw [perm_ext_iff_of_nodup (StorageBal.sortedEntries_nodup _).of_map hnodup.of_map]
  rintro ⟨key, writes⟩
  rw [StorageBal.mem_sortedEntries]
  exact HashMap.lookup_ofPairs hnodup key writes

variable {converted : Address × DecodedAccountBal}

theorem DecodedAccountBal.intoAlloyAccount_tryFromAlloy [Keccak256] {account : AlloyAccountChanges}
    (h : account.Listed) (hconverted : tryFromAlloy account = .ok converted) :
    (converted.2.intoAlloyAccount converted.1).SameUpToSlots account := by
  unfold tryFromAlloy at hconverted
  cases hcode : decodeCodeChanges account.codeChanges with
  | error e =>
    rw [hcode] at hconverted
    cases hconverted
  | ok code =>
    rw [hcode] at hconverted
    cases hconverted
    have hperm := sortedEntries_ofPairs h.slots_nodup
    obtain ⟨hchanges, hreads⟩ := h.filter_slots
    refine ⟨rfl, ?_, ?_, rfl, rfl, encodeCodeChanges_decodeCodeChanges hcode⟩
    · have hslots := (hperm.filter fun e => !e.2.isEmpty).map fun e =>
        (⟨e.1, e.2.writes⟩ : AlloySlotChanges)
      rw [hchanges, map_map] at hslots
      exact hslots.trans (List.Perm.of_eq ((map_congr_left fun _ _ => rfl).trans (map_id _)))
    · have hslots := (hperm.filter fun e => e.2.isEmpty).map (·.1)
      rw [hreads, map_map] at hslots
      exact hslots.trans (List.Perm.of_eq ((map_congr_left fun _ _ => rfl).trans (map_id _)))

theorem DecodedAccountBal.tryFromAlloy_address [Keccak256] {account : AlloyAccountChanges}
    (h : tryFromAlloy account = .ok converted) : converted.1 = account.address := by
  unfold tryFromAlloy at h
  cases hcode : decodeCodeChanges account.codeChanges with
  | error e =>
    rw [hcode] at h
    cases h
  | ok code =>
    rw [hcode] at h
    cases h
    rfl

variable {alloyBal : List AlloyAccountChanges}

/-- The accounts that are converted one by one keep their addresses. -/
theorem DecodedAccountBal.converted_back [Keccak256]
    {accounts : List (Address × DecodedAccountBal)} (hlisted : ∀ account ∈ alloyBal, account.Listed)
    (h : List.Forall₂ (fun account converted => tryFromAlloy account = .ok converted) alloyBal
      accounts) :
    accounts.map Prod.fst = alloyBal.map (·.address) ∧
      List.Forall₂ AlloyAccountChanges.SameUpToSlots
        (accounts.map fun converted => converted.2.intoAlloyAccount converted.1) alloyBal := by
  induction h with
  | nil => exact ⟨rfl, .nil⟩
  | @cons account converted alloyBal accounts hhead _ ih =>
    obtain ⟨haddresses, hsame⟩ := ih fun x hx => hlisted x (mem_cons_of_mem _ hx)
    have haccount := intoAlloyAccount_tryFromAlloy (hlisted account mem_cons_self) hhead
    rw [map_cons, map_cons, map_cons, tryFromAlloy_address hhead, haddresses]
    rw [tryFromAlloy_address hhead] at haccount
    exact ⟨rfl, .cons haccount hsame⟩

theorem DecodedBal.intoAlloyBal_tryFrom [Keccak256]
    (haddress : (alloyBal.map (·.address)).Nodup) (hlisted : ∀ account ∈ alloyBal, account.Listed)
    {bal : DecodedBal} (h : tryFrom alloyBal = .ok bal) :
    List.Forall₂ AlloyAccountChanges.SameUpToSlots bal.intoAlloyBal alloyBal := by
  unfold tryFrom at h
  cases hmapM : alloyBal.mapM DecodedAccountBal.tryFromAlloy with
  | error e =>
    rw [hmapM] at h
    cases h
  | ok accounts =>
    rw [hmapM] at h
    cases h
    obtain ⟨haddresses, hsame⟩ := DecodedAccountBal.converted_back hlisted (mapM_eq_ok_iff.1 hmapM)
    unfold intoAlloyBal
    rw [HashMap.entries_ofPairsInOrder (haddresses.symm ▸ haddress), map_map]
    exact hsame

/-- A list is converted if every code is. -/
theorem DecodedBal.tryFrom_isOk [Keccak256]
    (h : ∀ account ∈ alloyBal, ∀ change ∈ account.codeChanges,
      ∃ code, newRawChecked change.2 = .ok code) : ∃ bal, tryFrom alloyBal = .ok bal := by
  have hcode : ∀ account ∈ alloyBal, ∃ code, decodeCodeChanges account.codeChanges = .ok code :=
    fun account haccount => mapM_isOk fun change hchange => by
      obtain ⟨code, hcode⟩ := h account haccount change hchange
      exact ⟨(change.1, (code.hashSlow, code)), by rw [hcode]; rfl⟩
  have haccount : ∀ account ∈ alloyBal, ∃ converted,
      DecodedAccountBal.tryFromAlloy account = .ok converted := by
    intro account haccount
    obtain ⟨code, hcode⟩ := hcode account haccount
    unfold DecodedAccountBal.tryFromAlloy
    rw [hcode]
    exact ⟨_, rfl⟩
  obtain ⟨accounts, haccounts⟩ := mapM_isOk haccount
  unfold tryFrom
  rw [haccounts]
  exact ⟨_, rfl⟩

/-! ## Both ways -/

/-- A list whose code was decoded comes back from Alloy as it was. A list of Alloy with different
addresses, no slot listed twice and a change for every changed slot comes back up to the order of
the slots, if its code can be decoded. -/
theorem alloyBal_roundTrip [Keccak256] :
    (∀ bal : DecodedBal, (∀ e ∈ bal.accounts.entries, e.2.CodeDecoded) →
      ∃ bal', DecodedBal.tryFrom bal.intoAlloyBal = .ok bal' ∧ bal'.Same bal) ∧
    ∀ alloyBal : List AlloyAccountChanges, (alloyBal.map (·.address)).Nodup →
      (∀ account ∈ alloyBal, account.Listed) →
      (∀ account ∈ alloyBal, ∀ change ∈ account.codeChanges,
        ∃ code, newRawChecked change.2 = .ok code) →
      ∃ bal, DecodedBal.tryFrom alloyBal = .ok bal ∧
        List.Forall₂ AlloyAccountChanges.SameUpToSlots bal.intoAlloyBal alloyBal := by
  refine ⟨fun bal h => DecodedBal.tryFrom_intoAlloyBal h, fun alloyBal haddress hlisted hcode => ?_⟩
  obtain ⟨bal, hbal⟩ := DecodedBal.tryFrom_isOk hcode
  exact ⟨bal, hbal, DecodedBal.intoAlloyBal_tryFrom haddress hlisted hbal⟩

/-- A hash that is good enough to run the conversions. -/
@[reducible] def byteCount : Keccak256 := ⟨fun bytes => BitVec.ofNat 256 bytes.length⟩

/-- An account with two changed slots, a slot that is read, and code. -/
def changedAccount (code : List UInt8) : AlloyAccountChanges where
  address := 1
  storageChanges := [⟨5, [(1, 7)]⟩, ⟨2, [(1, 3), (2, 4)]⟩]
  storageReads := [9]
  balanceChanges := [(1, 10)]
  nonceChanges := []
  codeChanges := [(2, code)]

theorem changedAccount_listed (code : List UInt8) : (changedAccount code).Listed := by
  refine ⟨show ([5, 2, 9] : List StorageKey).Nodup by decide, fun slot hslot => ?_⟩
  rcases mem_cons.1 hslot with rfl | hslot
  · exact cons_ne_nil _ _
  · rw [mem_singleton.1 hslot]
    exact cons_ne_nil _ _

/-- A list of one account with a nonce, code and a slot that is read. -/
def deployedBal [Keccak256] : DecodedBal :=
  ⟨(∅ : HashMap Address DecodedAccountBal).insert 2
    ⟨⟨⟨[(1, 1)]⟩, .default, ⟨[(1, ((DecodedBytecode.newLegacy [0x60]).hashSlow,
      .newLegacy [0x60]))]⟩⟩,
      ⟨(∅ : HashMap StorageKey (BalWrites StorageValue)).insert 3 .default⟩⟩⟩

theorem alloyBal_roundTrip_changedAccount : letI := byteCount
    (∃ bal, DecodedBal.tryFrom deployedBal.intoAlloyBal = .ok bal ∧ bal.Same deployedBal) ∧
    ∃ bal, DecodedBal.tryFrom [changedAccount [0x60, 0x00]] = .ok bal ∧
      List.Forall₂ AlloyAccountChanges.SameUpToSlots bal.intoAlloyBal
        [changedAccount [0x60, 0x00]] := by
  let _ := byteCount
  obtain ⟨hbal, halloy⟩ := alloyBal_roundTrip
  refine ⟨hbal deployedBal fun e he => ?_, halloy [changedAccount [0x60, 0x00]] (by decide) ?_ ?_⟩
  · rw [mem_singleton.1 he]
    intro write hwrite
    rw [mem_singleton.1 hwrite]
    exact ⟨⟨[0x60], newRawChecked_of_ne_magic (by decide)⟩, rfl⟩
  · intro account haccount
    rw [mem_singleton.1 haccount]
    exact changedAccount_listed _
  · intro account haccount change hchange
    rw [mem_singleton.1 haccount] at hchange
    rw [mem_singleton.1 hchange]
    exact ⟨_, newRawChecked_of_ne_magic (by decide)⟩

/-- Code that starts like a delegation and is too short is not converted. -/
theorem alloyBal_undecodable : letI := byteCount
    (([changedAccount [0xef, 0x01]].map (·.address)).Nodup ∧
      ∀ account ∈ [changedAccount [0xef, 0x01]], account.Listed) ∧
      ∃ e, DecodedBal.tryFrom [changedAccount [0xef, 0x01]] = .error e := by
  refine ⟨⟨by decide, fun account haccount => ?_⟩, .eip7702 .invalidLength, rfl⟩
  rw [mem_singleton.1 haccount]
  exact changedAccount_listed _

end Revm
