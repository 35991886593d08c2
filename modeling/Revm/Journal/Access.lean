import Revm.Journal.Grow
import Revm.Journal.Loads

/-!
# Loading accounts and slots

A load answers what the view shows and makes nothing but the coldness of the loaded account or slot
change: `Scope.Inv.load` for accounts, `Scope.Inv.sload` and `Scope.Inv.sstore` for slots.
-/

set_option autoImplicit false

namespace Revm

open JournalInner Account Option

variable {skipColdLoad loadCode : Bool} {acc : Account} {a : Address} {j : JournalInner}

namespace Scope

variable {ε : Type} {c : Scope ε}

/-! ## Accounts -/

section WarmUp

variable {t : Nat}

theorem warmUp_of_destroyed (h : acc.isSelfdestructedLocally = true) : warmUp acc t =
      { info := AccountInfo.default
        originalInfo := AccountInfo.default
        transactionId := t
        storage := ∅
        status :=
          { acc.status with
            cold := false, selfDestructedLocal := false, createdLocal := false } } := by
  unfold warmUp
  dsimp only
  rw [if_pos (show (acc.markWarmWithTransactionId t).isSelfdestructedLocally = true from h)]
  rfl

theorem warmUp_of_not_destroyed (h : acc.isSelfdestructedLocally = false) :
    warmUp acc t =
      { acc with
        originalInfo := acc.info
        transactionId := t
        status := { acc.status with cold := false, createdLocal := false } } := by
  unfold warmUp
  dsimp only
  rw [if_neg (show ¬(acc.markWarmWithTransactionId t).isSelfdestructedLocally = true by
    rw [show (acc.markWarmWithTransactionId t).isSelfdestructedLocally = _ from h]
    decide)]
  rfl

theorem isColdTransactionId_warmUp : (warmUp acc t).isColdTransactionId t = false := by
  cases h : acc.isSelfdestructedLocally with
  | true => simp [warmUp_of_destroyed h, isColdTransactionId]
  | false => simp [warmUp_of_not_destroyed h, isColdTransactionId]

/-- Only cold accounts are stale. -/
theorem isStale_of_warm (h : acc.isColdTransactionId t = false) : acc.isStale t = false := by
  simp [isStale, h]

theorem isStale_warmUp : (warmUp acc t).isStale t = false :=
  isStale_of_warm isColdTransactionId_warmUp

/-- The first load of an account settles it. -/
theorem storage_warmUp (hcold : acc.isColdTransactionId t = true) :
    (warmUp acc t).storage = acc.settledStorage t := by
  cases h : acc.isSelfdestructedLocally with
  | true => simp [warmUp_of_destroyed h, settledStorage, isStale, hcold, h]
  | false => simp [warmUp_of_not_destroyed h, settledStorage, isStale, h]

theorem isCreated_warmUp : (warmUp acc t).isCreated = acc.isCreated := by
  cases h : acc.isSelfdestructedLocally with
  | true => rw [warmUp_of_destroyed h]; rfl
  | false => rw [warmUp_of_not_destroyed h]; rfl

/-- Warming an account is seen in its coldness only. -/
theorem see_warmUp (hcold : acc.isColdTransactionId c.transactionId = true) :
    c.seeAccount a (warmUp acc c.transactionId) =
      { c.seeAccount a acc with cold := false } := by
  have hwarm : (warmUp acc c.transactionId).isColdTransactionId c.transactionId =
      false := isColdTransactionId_warmUp
  rw [seeAccount_of_live isStale_warmUp, hwarm, storage_warmUp hcold]
  cases h : acc.isSelfdestructedLocally with
  | true =>
    rw [warmUp_of_destroyed h]
    have hlocal : acc.status.selfDestructedLocal = true := h
    simp [seeAccount, settledInfo, isStale, hcold, hlocal, isTouched, isCreated, isCreatedLocally,
      isSelfdestructed, isSelfdestructedLocally]
  | false =>
    rw [warmUp_of_not_destroyed h]
    have hlocal : acc.status.selfDestructedLocal = false := h
    simp [seeAccount, settledInfo, isStale, hcold, hlocal, isTouched, isCreated, isCreatedLocally,
      isSelfdestructed, isSelfdestructedLocally]

end WarmUp

section Load

/-- An account that comes from the database. -/
theorem AccountInv.of_unloaded (h : c.UnloadedInv a) (hbasic : ∃ info, c.db.basic a = .ok info)
    (hcreated : acc.isCreated = false) (hlocal : acc.isSelfdestructedLocally = false)
    (hwarm : c.strict = true → acc.isColdTransactionId c.transactionId = false) :
    c.AccountInv a acc where
  backed k v hb _ := by
    rw [hcreated]
    exact h.backed k v hb
  vacant hc k v hb _ := ⟨h.fresh hc hbasic, h.backed k v hb⟩
  live _ := isStale_of_not_destroyed _ hlocal
  clean hs hcold := by
    rw [hwarm hs] at hcold
    cases hcold

theorem AccountInv.warmUp (h : c.AccountInv a acc)
    (hcold : acc.isColdTransactionId c.transactionId = true) :
    c.AccountInv a (warmUp acc c.transactionId) := by
  have hsettled : (JournalInner.warmUp acc c.transactionId).settledStorage c.transactionId =
      acc.settledStorage c.transactionId := by
    rw [settledStorage, isStale_warmUp]
    exact storage_warmUp hcold
  refine ⟨fun k v hb hnone => ?_, fun hc k v hb hnone => ?_, fun _ => isStale_warmUp,
    fun _ hc => ?_⟩
  · rw [hsettled] at hnone
    rw [isCreated_warmUp]
    exact h.backed k v hb hnone
  · rw [hsettled] at hnone
    exact h.vacant hc k v hb hnone
  · rw [isColdTransactionId_warmUp] at hc
    cases hc

/-- What the match on the entry of the state map finds. -/
structure LoadedEntry (c : Scope ε) (j : JournalInner) (a : Address) (load : StateLoad Account) :
    Prop where
  becomes : c.Becomes j.state (j.state.insert a load.data) ((c.see j.state).modify a fun x =>
    { x with cold := load.data.isColdTransactionId c.transactionId && c.warm.isCold a })
  live : load.data.isStale c.transactionId = false
  isCold : load.isCold = (c.see j.state a).cold
  warmed : load.isCold = false →
    (load.data.isColdTransactionId c.transactionId && c.warm.isCold a) = false
  cold : load.isCold = true → c.warm.isCold a = true

theorem Inv.loadEntry (h : c.Inv j) {load : StateLoad Account}
    (hload : j.loadEntry c.db a skipColdLoad = .ok load) : LoadedEntry c j a load := by
  -- both answers of the database make an account that is seen as it was before the load
  have hnew : j.state.lookup a = none → (∃ info, c.db.basic a = .ok info) → ∀ acc : Account,
      acc.isCreated = false → acc.isSelfdestructedLocally = false →
      (c.strict = true → acc.isColdTransactionId c.transactionId = false) →
      c.seeAccount a acc = { c.unloaded a with
        cold := acc.isColdTransactionId c.transactionId && c.warm.isCold a } →
      LoadedEntry c j a ⟨acc, c.warm.isCold a⟩ := by
    intro hl hbasic acc hcreated hlocal hwarm hsee
    have hun := h.state.unloaded hl
    have hseen := see_of_none (c := c) hl
    refine ⟨?_, isStale_of_not_destroyed _ hlocal, ?_, ?_, fun hc => hc⟩
    · refine Becomes.put h.state (AccountInv.of_unloaded hun hbasic hcreated hlocal hwarm)
        (fun x hx => ?_) ?_
      · rw [hl] at hx
        cases hx
      · rw [hseen]
        exact hsee
    · rw [hseen]
      rfl
    · intro hc
      rw [show c.warm.isCold a = false from hc, Bool.and_false]
  cases found_of_loadEntry hload with
  | cold acc hl hcold =>
    rw [h.transactionId] at hcold
    rw [h.transactionId, h.warm]
    have hseen := see_of_some (c := c) hl
    refine ⟨?_, isStale_warmUp, ?_, ?_, fun hc => hc⟩
    · refine Becomes.put h.state ((h.state.account hl).warmUp hcold)
        (fun x hx hstale => ⟨isStale_warmUp, ?_⟩) ?_
      · rw [hl] at hx
        cases hx
        intro k hk
        rw [storage_warmUp hcold, settledStorage, hstale]
        exact hk
      · rw [see_warmUp hcold, isColdTransactionId_warmUp, hseen]
        rfl
    · rw [hseen]
      simp [seeAccount, hcold]
    · intro _
      rw [isColdTransactionId_warmUp]
      rfl
  | warm acc hl hwarm =>
    rw [h.transactionId] at hwarm
    refine ⟨?_, isStale_of_warm hwarm, ?_, ?_, by simp⟩
    · refine Becomes.insert_sameFrame h.state hl ⟨rfl, rfl, rfl, rfl, rfl, rfl⟩ ?_
      simp [seeAccount, hwarm]
    · rw [see_of_some (c := c) hl]
      simp [seeAccount, hwarm]
    · intro _
      rw [hwarm]
      rfl
  | stored info hl hbasic =>
    rw [h.warm]
    refine hnew hl ⟨_, hbasic⟩ _ rfl rfl (fun hs => ?_) ?_
    · simp [isColdTransactionId, ofInfo, AccountFlags.empty, c.strict_first hs]
    · rw [seeAccount_of_live (isStale_of_not_destroyed _ rfl)]
      simp [unloaded, dbInfo, hbasic, ofInfo, AccountFlags.empty, isTouched, isCreated,
        isCreatedLocally, isSelfdestructed, isSelfdestructedLocally]
  | absent hl hbasic =>
    rw [h.transactionId, h.warm]
    refine hnew hl ⟨_, hbasic⟩ _ rfl rfl (fun _ => ?_) ?_
    · simp [isColdTransactionId, newNotExisting, AccountFlags.empty]
    · rw [seeAccount_of_live (isStale_of_not_destroyed _ rfl)]
      simp [unloaded, dbInfo, hbasic, newNotExisting, AccountFlags.empty, isTouched, isCreated,
        isCreatedLocally, isSelfdestructed, isSelfdestructedLocally]

/-- The entry that a load records. -/
theorem Inv.loadEntry_grows (h : c.Inv j) {load : StateLoad Account}
    (hload : LoadedEntry c j a load) : c.Grows j (j.found a load) := by
  unfold found
  cases hcold : load.isCold with
  | true =>
    have hwarm := hload.cold hcold
    have hseen : c.SeenInv ((c.see j.state).modify a fun x =>
        { x with cold := load.data.isColdTransactionId c.transactionId && c.warm.isCold a }) :=
      h.seen.modify_same rfl rfl rfl rfl
    have hloaded : c.Loaded (j.state.insert a load.data) a :=
      ⟨load.data, AList.lookup_insert _, hload.live⟩
    have hbefore : (c.see j.state a).cold = true := hload.isCold.symm.trans hcold
    -- a cold account is seen without local flags
    have hflags : (c.see j.state a).createdLocal = false ∧
        (c.see j.state a).selfDestructedLocal = false := by
      cases hl : j.state.lookup a with
      | none =>
        rw [see_of_none hl]
        exact ⟨rfl, rfl⟩
      | some acc =>
        rw [see_of_some hl] at hbefore ⊢
        have hacc : acc.isColdTransactionId c.transactionId = true := by
          simp only [seeAccount, Bool.and_eq_true] at hbefore
          exact hbefore.1
        simp [seeAccount, hacc]
    refine Grows.recordAccount h hload.becomes hseen
      (g := fun x => { x with cold := c.warm.isCold a })
      hloaded ?_ (fun v => rfl) ?_ fun t => rfl
    · show (Seen.modify _ a _ a).createdLocal = false ∧
        (Seen.modify _ a _ a).selfDestructedLocal = false ∧ _
      rw [Seen.modify_self]
      exact ⟨hflags.1, hflags.2, hwarm⟩
    · rw [hwarm, ← hbefore]
  | false =>
    have hsame : ((c.see j.state).modify a fun x =>
        { x with cold := load.data.isColdTransactionId c.transactionId && c.warm.isCold a }) =
        c.see j.state := by
      refine Seen.modify_eq_self ?_
      rw [hload.warmed hcold, ← hcold, hload.isCold]
    have hb := hload.becomes
    rw [hsame] at hb
    exact Grows.silent h hb

/-- What a load of an account does and answers. -/
structure LoadResult (c : Scope ε) (j : JournalInner) (a : Address) (load : StateLoad Account)
    (j' : JournalInner) : Prop where
  lookup : j'.state.lookup a = some load.data
  live : load.data.isStale c.transactionId = false
  isCold : load.isCold = (c.see j.state a).cold

variable {r : LoadAnswer ε Account × JournalInner}

/-- A load either does not get past the match on the state map, or it does and changes what is seen
of the account, even if it then fails to read the code. -/
theorem Inv.load_cases (h : c.Inv j)
    (hr : j.loadAccountMutOptionalCode c.db a loadCode skipColdLoad = r) :
    (∃ e, j.loadEntry c.db a skipColdLoad = .error e ∧ r = (.error e, j)) ∨
      ∃ entry, j.loadEntry c.db a skipColdLoad = .ok entry ∧ c.Grows j r.2 ∧
        (∀ b ≠ a, r.2.state.lookup b = j.state.lookup b) ∧
        (c.see r.2.state = (c.see j.state).modify a fun x =>
          { x with cold := entry.data.isColdTransactionId c.transactionId && c.warm.isCold a }) ∧
        ∀ load, r.1 = .ok load → LoadResult c j a load r.2 := by
  have hfound : ∀ entry, j.loadEntry c.db a skipColdLoad = .ok entry →
      c.Grows j (j.found a entry) ∧ (∀ b ≠ a, (j.found a entry).state.lookup b = j.state.lookup b) ∧
        c.see (j.found a entry).state = (c.see j.state).modify a fun x =>
          { x with cold := entry.data.isColdTransactionId c.transactionId && c.warm.isCold a } := by
    intro entry hentry
    have hload := h.loadEntry hentry
    refine ⟨h.loadEntry_grows hload, fun b hb => ?_, ?_⟩
    · rw [found_state, AList.lookup_insert_ne hb]
    · rw [found_state]
      exact hload.becomes.see
  cases loadOutcome hr with
  | failed e hentry => exact .inl ⟨e, hentry, rfl⟩
  | noCode entry e hentry =>
    obtain ⟨hgrow, hother, hsee⟩ := hfound entry hentry
    exact .inr ⟨entry, hentry, hgrow, hother, hsee, fun load hok => by cases hok⟩
  | code entry code hentry =>
    obtain ⟨hgrow, hother, hsee⟩ := hfound entry hentry
    have hload := h.loadEntry hentry
    have hlookup : (j.found a entry).state.lookup a = some entry.data := by
      rw [found_state, AList.lookup_insert]
    have hb : c.Becomes (j.found a entry).state
        ((j.found a entry).state.insert a (entry.data.cacheCode code))
        ((c.see (j.found a entry).state).modify a id) :=
      Becomes.insert_sameFrame hgrow.inv.state hlookup ⟨rfl, rfl, rfl, rfl, rfl, rfl⟩
        (see_cacheCode hload.live code)
    rw [Seen.modify_eq_self rfl] at hb
    refine .inr ⟨entry, hentry, hgrow.trans (Grows.silent hgrow.inv hb),
      fun b hb => (AList.lookup_insert_ne hb).trans (hother b hb), hb.see.trans hsee,
      fun load' hok => ?_⟩
    cases hok
    exact ⟨AList.lookup_insert _, hload.live, hload.isCold⟩
  | loaded entry hentry =>
    obtain ⟨hgrow, hother, hsee⟩ := hfound entry hentry
    have hload := h.loadEntry hentry
    refine .inr ⟨entry, hentry, hgrow, hother, hsee, fun load' hok => ?_⟩
    cases hok
    refine ⟨?_, hload.live, hload.isCold⟩
    rw [found_state, AList.lookup_insert]

theorem Inv.load (h : c.Inv j)
    (hr : j.loadAccountMutOptionalCode c.db a loadCode skipColdLoad = r) :
    c.Grows j r.2 ∧ ∀ load, r.1 = .ok load → LoadResult c j a load r.2 := by
  rcases h.load_cases hr with ⟨e, -, rfl⟩ | ⟨entry, -, hgrow, -, -, hanswer⟩
  · exact ⟨Grows.refl h, fun load hok => by cases hok⟩
  · exact ⟨hgrow, hanswer⟩

/-- `load_account_delegated` loads one or two accounts. -/
theorem Inv.loadDelegated (h : c.Inv j) (a : Address) :
    c.Grows j (j.loadAccountDelegated c.db a).2 := by
  refine loadAccountDelegated_ends (h.load rfl).1 fun load j₁ delegated _ _ hload _ => ?_
  have hfirst := (h.load hload).1
  exact hfirst.trans (hfirst.inv.load rfl).1

end Load

/-! ## Storage -/

section Storage

variable {k : StorageKey}

/-- What a load of a slot does and answers. -/
structure SlotResult (c : Scope ε) (j : JournalInner) (a : Address) (k : StorageKey)
    (load : StateLoad StorageValue) (acc : Account) (slot : EvmStorageSlot) (j' : JournalInner) :
    Prop where
  account : j'.state.lookup a = some acc
  live : acc.isStale c.transactionId = false
  stored : acc.storage.lookup k = some slot
  warm : slot.isColdTransactionId c.transactionId = false
  value : load.data = slot.presentValue
  see : c.see j'.state = c.modifySlot (c.see j.state) a k fun s => { s with cold := false }
  answer : c.base a k ≠ none →
    load.data = ((c.see j.state a).slot k).present ∧
      slot.originalValue = ((c.see j.state a).slot k).original ∧
        load.isCold = ((c.see j.state a).slot k).cold

/-- The match on the slot in `sload`. -/
theorem Inv.loadSlot (h : c.Inv j) {isCold : Bool} {slot : EvmStorageSlot}
    (hl : j.state.lookup a = some acc) (hstale : acc.isStale c.transactionId = false)
    (hslot : j.loadSlot c.db a acc k skipColdLoad = .ok (slot, isCold)) :
    slot.isColdTransactionId c.transactionId = false ∧
      (c.base a k ≠ none →
        slot.presentValue = ((c.see j.state a).slot k).present ∧
        slot.originalValue = ((c.see j.state a).slot k).original ∧
        isCold = ((c.see j.state a).slot k).cold ∧
        (isCold = true → slot.originalValue = slot.presentValue)) := by
  have hseen : (c.see j.state a).slot k = c.seeSlot a k (acc.storage.lookup k) := by
    rw [see_of_some hl, slot_see hstale]
  have hacc := h.state.account hl
  unfold JournalInner.loadSlot at hslot
  rw [h.transactionId, h.warm] at hslot
  cases hk : acc.storage.lookup k with
  | some old =>
    rw [hk] at hslot
    dsimp only at hslot
    split_ifs at hslot
    cases hslot
    refine ⟨by simp [EvmStorageSlot.isColdTransactionId, EvmStorageSlot.markWarmWithTransactionId],
      fun hbase => ?_⟩
    obtain ⟨v, hv⟩ := ne_none_iff_exists'.1 hbase
    rw [hseen, hk]
    refine ⟨by simp [seeSlot, hv, EvmStorageSlot.markWarmWithTransactionId], by simp [seeSlot, hv,
      EvmStorageSlot.markWarmWithTransactionId], by simp [seeSlot, hv], fun hcold => ?_⟩
    simp [EvmStorageSlot.markWarmWithTransactionId, hcold]
  | none =>
    rw [hk] at hslot
    by_cases hskip : skipColdLoad = true
    · rw [if_pos hskip] at hslot
      cases hslot
    rw [if_neg hskip] at hslot
    have hsettled : (acc.settledStorage c.transactionId).lookup k = none := by
      rw [settledStorage, hstale]
      exact hk
    -- the value that is read is the base value of the slot
    have hread : ∀ value v, (if acc.isCreated then Except.ok 0 else c.db.storage a k) =
        .ok value → c.base a k = some v → value = v := by
      intro value v hvalue hv
      rw [← hacc.backed k v hv hsettled]
      cases hcreated : acc.isCreated with
      | true =>
        rw [hcreated] at hvalue
        cases hvalue
        rfl
      | false =>
        rw [hcreated] at hvalue
        simp only [Bool.false_eq_true, if_false] at hvalue
        simp [dbStorage, Database.storageValue, hvalue]
    cases hvalue : (if acc.isCreated then Except.ok 0 else c.db.storage a k) with
    | error e =>
      rw [hvalue] at hslot
      cases hslot
    | ok value =>
      rw [hvalue] at hslot
      cases hslot
      refine ⟨by simp [EvmStorageSlot.isColdTransactionId, EvmStorageSlot.new], fun hbase => ?_⟩
      obtain ⟨v, hv⟩ := ne_none_iff_exists'.1 hbase
      have hval := hread value v hvalue hv
      rw [hseen, hk]
      simp [seeSlot, hv, EvmStorageSlot.new, hval]

theorem Inv.sload (h : c.Inv j) {r : LoadAnswer ε StorageValue × JournalInner}
    (hlive : ∀ acc, j.state.lookup a = some acc → acc.isStale c.transactionId = false)
    (hr : j.sload c.db a k skipColdLoad = some r) :
    c.Grows j r.2 ∧ (∀ e, r.1 = .error e → r.2 = j) ∧
      ∀ load, r.1 = .ok load → ∃ acc slot, SlotResult c j a k load acc slot r.2 := by
  simp only [JournalInner.sload, Option.bind_eq_bind, Option.bind_eq_some_iff] at hr
  obtain ⟨acc, hl, hr⟩ := hr
  have hstale := hlive acc hl
  cases hslot : j.loadSlot c.db a acc k skipColdLoad with
  | error e =>
    rw [hslot] at hr
    cases hr
    exact ⟨Grows.refl h, fun _ _ => rfl, fun load hok => by cases hok⟩
  | ok result =>
    obtain ⟨slot, isCold⟩ := result
    rw [hslot] at hr
    cases hr
    obtain ⟨hwarm, hfacts⟩ := h.loadSlot hl hstale hslot
    have hb : c.Becomes j.state (j.state.insert a { acc with storage := acc.storage.insert k slot })
        (c.modifySlot (c.see j.state) a k fun s => { s with cold := false }) := by
      refine Becomes.setSlot h.state hl hstale fun hbase => ?_
      obtain ⟨hpresent, horiginal, -, -⟩ := hfacts hbase
      obtain ⟨v, hv⟩ := ne_none_iff_exists'.1 hbase
      simp [seeSlot, hv, hwarm, hpresent, horiginal]
    have hstored : (acc.storage.insert k slot).lookup k = some slot := AList.lookup_insert _
    have hstale' : ({ acc with storage := acc.storage.insert k slot } : Account).isStale
        c.transactionId = false := hstale
    have hloaded : c.LoadedSlot
        (j.state.insert a { acc with storage := acc.storage.insert k slot }) a k :=
      ⟨_, slot, AList.lookup_insert _, hstale, hstored⟩
    refine ⟨?_, fun e herr => (by cases herr), ?_⟩
    · cases isCold with
      | true =>
        refine Grows.record h hb (h.seen.modifySlot k _) hloaded (fun hbase => ?_) ?_ fun t => rfl
        · obtain ⟨hpresent, horiginal, -, hsame⟩ := hfacts hbase
          rw [← hb.see, see_of_some (AList.lookup_insert _), slot_see hstale', hstored]
          obtain ⟨v, hv⟩ := ne_none_iff_exists'.1 hbase
          simp [seeSlot, hv, hwarm, hsame rfl]
        · show c.modifySlot _ a k _ = _
          rw [modifySlot_modifySlot]
          refine modifySlot_eq_self fun hbase => ?_
          rw [(hfacts hbase).2.2.1]
      | false =>
        have hsame : (c.modifySlot (c.see j.state) a k fun s => { s with cold := false }) =
            c.see j.state :=
          modifySlot_eq_self fun hbase => by rw [(hfacts hbase).2.2.1]
        rw [hsame] at hb
        exact Grows.silent h hb
    · intro load hok
      cases hok
      have hstate : ∀ b : Bool, (if b = true then
          (j.setAccount a { acc with storage := acc.storage.insert k slot }).push
            (.storageWarmed k a)
          else j.setAccount a { acc with storage := acc.storage.insert k slot }).state =
          j.state.insert a { acc with storage := acc.storage.insert k slot } := by
        intro b
        cases b <;> rfl
      refine ⟨{ acc with storage := acc.storage.insert k slot }, slot, ?_, hstale, hstored, hwarm,
        rfl, ?_, fun hbase => ?_⟩
      · rw [hstate]
        exact AList.lookup_insert _
      · rw [hstate]
        exact hb.see
      · obtain ⟨hpresent, horiginal, hcold, -⟩ := hfacts hbase
        exact ⟨hpresent, horiginal, hcold⟩

/-- What a store to a slot answers. -/
structure StoreResult (c : Scope ε) (j : JournalInner) (a : Address) (k : StorageKey)
    (store : StateLoad SStoreResult) : Prop where
  original : store.data.originalValue = ((c.see j.state a).slot k).original
  isCold : store.isCold = ((c.see j.state a).slot k).cold

theorem Inv.sstore (h : c.Inv j) {value : StorageValue}
    {r : LoadAnswer ε SStoreResult × JournalInner}
    (hlive : ∀ acc, j.state.lookup a = some acc → acc.isStale c.transactionId = false)
    (hr : j.sstore c.db a k value skipColdLoad = some r) :
    c.Grows j r.2 ∧ (∀ e, r.1 = .error e → r.2 = j) ∧ ∀ store, r.1 = .ok store →
      c.see r.2.state = (c.modifySlot (c.see j.state) a k fun s =>
        { s with cold := false, present := value }) ∧
      (c.base a k ≠ none → StoreResult c j a k store) := by
  simp only [JournalInner.sstore, Option.bind_eq_bind, Option.bind_eq_some_iff] at hr
  obtain ⟨⟨result, j₁⟩, hload, hr⟩ := hr
  obtain ⟨hgrow, herror, hanswer⟩ := h.sload hlive hload
  cases result with
  | error e =>
    cases hr
    exact ⟨hgrow, fun _ _ => herror e rfl, fun store hok => by cases hok⟩
  | ok load =>
    obtain ⟨acc, slot, hres⟩ := hanswer load rfl
    have hresult : c.base a k ≠ none →
        StoreResult c j a k ⟨⟨slot.originalValue, load.data, value⟩, load.isCold⟩ :=
      fun hbase => ⟨(hres.answer hbase).2.1, (hres.answer hbase).2.2⟩
    simp only [hres.account, hres.stored, bind_some] at hr
    have hseen : c.base a k ≠ none →
        (c.see j₁.state a).slot k = ⟨slot.presentValue, slot.originalValue, false⟩ := by
      intro hbase
      obtain ⟨v, hv⟩ := ne_none_iff_exists'.1 hbase
      rw [see_of_some hres.account, slot_see hres.live, hres.stored]
      simp [seeSlot, hv, hres.warm]
    by_cases hsame : slot.presentValue = value
    · rw [if_pos hsame] at hr
      cases hr
      refine ⟨hgrow, fun e herr => (by cases herr), fun store hok => ?_⟩
      cases hok
      refine ⟨?_, hresult⟩
      have hfix : (c.modifySlot (c.see j₁.state) a k fun s => { s with present := value }) =
          c.see j₁.state := by
        refine modifySlot_eq_self fun hbase => ?_
        rw [hseen hbase, hsame]
      rw [← hfix, hres.see, modifySlot_modifySlot]
    · rw [if_neg hsame] at hr
      cases hr
      have hb : c.Becomes j₁.state (j₁.state.insert a
          { acc with storage := acc.storage.insert k { slot with presentValue := value } })
          (c.modifySlot (c.see j₁.state) a k fun s => { s with present := value }) := by
        refine Becomes.setSlot hgrow.inv.state hres.account hres.live fun hbase => ?_
        obtain ⟨v, hv⟩ := ne_none_iff_exists'.1 hbase
        have hwarm : ({ slot with presentValue := value } : EvmStorageSlot).isColdTransactionId
            c.transactionId = false := hres.warm
        rw [hseen hbase]
        simp [seeSlot, hv, hwarm]
      have hloaded : c.LoadedSlot (j₁.state.insert a
          { acc with storage := acc.storage.insert k { slot with presentValue := value } }) a k :=
        ⟨_, _, AList.lookup_insert _, hres.live, AList.lookup_insert _⟩
      have hstep : c.Grows j₁ ((j₁.push (.storageChanged k load.data a)).setAccount a
          { acc with storage := acc.storage.insert k { slot with presentValue := value } }) := by
        refine Grows.record hgrow.inv hb (hgrow.inv.seen.modifySlot k _) hloaded
          (fun hbase => ?_) ?_
          fun t => rfl
        · obtain ⟨v, hv⟩ := ne_none_iff_exists'.1 hbase
          simp [modifySlot, hv, Seen.modify_self, SeenAccount.modifySlot, hseen hbase]
        · show c.modifySlot _ a k _ = _
          rw [modifySlot_modifySlot]
          refine modifySlot_eq_self fun hbase => ?_
          rw [hseen hbase, hres.value]
      refine ⟨hgrow.trans hstep, fun e herr => (by cases herr), fun store hok => ?_⟩
      cases hok
      refine ⟨?_, hresult⟩
      show c.see (j₁.state.insert a _) = _
      rw [hb.see, hres.see, modifySlot_modifySlot]

end Storage

/-! ## Transient storage and logs -/

section Transient

/-- A change of the transient storage that is not seen. -/
theorem Inv.silentTransient (h : c.Inv j) {t : TransientStorage}
    (ht : NonZero j.transientStorage → NonZero t)
    (hsame : ∀ key, (t.lookup key).getD 0 = (j.transientStorage.lookup key).getD 0) :
    c.Grows j { j with transientStorage := t } := by
  refine ⟨⟨h.spec, h.transactionId, h.warm, h.state, h.seen, fun hs => ht (h.transient hs)⟩,
    Persists.refl _, rfl, ⟨[], (List.append_nil _).symm⟩,
    ⟨[], (List.append_nil _).symm, fun e he => by cases he⟩, ?_⟩
  have hview : c.view { j with transientStorage := t } = c.view j := Prod.ext rfl (funext hsame)
  rw [hview]
  exact .refl _ _

/-- A change of the transient storage with the entry that undoes it. -/
theorem Inv.recordTransient (h : c.Inv j) {t : TransientStorage} {k : StorageKey}
    {had : StorageValue} (ht : NonZero j.transientStorage → NonZero t)
    (hundo : ∀ key, (j.transientStorage.lookup key).getD 0 =
      if key = (a, k) then had else (t.lookup key).getD 0) : c.Grows j { j with
      transientStorage := t
      journal := j.journal ++ [.transientStorageChange k had a] } := by
  refine ⟨⟨h.spec, h.transactionId, h.warm, h.state, h.seen, fun hs => ht (h.transient hs)⟩,
    Persists.refl _, rfl, ⟨[], (List.append_nil _).symm⟩, ⟨_, rfl, fun e he => ?_⟩, ?_⟩
  · obtain rfl := List.mem_singleton.1 he
    trivial
  · refine .record ⟨trivial, trivial⟩ (Prod.ext rfl (funext fun key => ?_))
    show Function.update (fun key => (t.lookup key).getD 0) (a, k) had key =
      (j.transientStorage.lookup key).getD 0
    rw [hundo key, Function.update_apply]

theorem Inv.tstore (h : c.Inv j) (a : Address) (k : StorageKey) (value : StorageValue) :
    c.Grows j (j.tstore a k value) := by
  unfold JournalInner.tstore
  by_cases hzero : value = 0
  · rw [if_pos hzero]
    cases hprev : j.transientStorage.lookup (a, k) with
    | some had =>
      refine h.recordTransient (fun ht => ht.erase (a, k)) fun key => ?_
      rw [HashMap.lookup_erase_ite]
      split_ifs with hkey
      · rw [hkey, hprev]
        rfl
      · rfl
    | none =>
      refine h.silentTransient (fun ht => ht.erase (a, k)) fun key => ?_
      rw [HashMap.lookup_erase_ite]
      split_ifs with hkey
      · rw [hkey, hprev]
      · rfl
  · rw [if_neg hzero]
    by_cases hprev : (j.transientStorage.lookup (a, k)).getD 0 = value
    · rw [if_neg (not_not.2 hprev)]
      refine h.silentTransient (fun ht => ht.insert (a, k) hzero) fun key => ?_
      rw [HashMap.lookup_insert_ite]
      split_ifs with hkey
      · rw [hkey, hprev]
        rfl
      · rfl
    · rw [if_pos hprev]
      refine h.recordTransient (fun ht => ht.insert (a, k) hzero) fun key => ?_
      rw [HashMap.lookup_insert_ite]
      split_ifs with hkey
      · rw [hkey]
      · rfl

theorem Inv.log (h : c.Inv j) (log : Log) : c.Grows j (j.log log) :=
  ⟨⟨h.spec, h.transactionId, h.warm, h.state, h.seen, h.transient⟩, Persists.refl _, rfl,
    ⟨[log], rfl⟩, ⟨[], (List.append_nil _).symm, fun e he => by cases he⟩, .refl _ _⟩

end Transient

end Scope

end Revm
