import Revm.Journal.Seen

/-!
# Reverting entries

Reverting a journal entry in the state map does to the view what the undo rule says. This needs the
entry's accounts and slots to be loaded (`Scope.Live`, kept by every change because accounts and
slots never leave the map), and a few facts about the map that every operation keeps:
`Scope.StateInv`. The results are `Scope.revertState_becomes` for one entry, and for the loops of
the source `Scope.revertAll_becomes` and `Scope.discardAll_becomes`.
-/

set_option autoImplicit false

namespace Revm

open Option Account SeenAccount

variable {e : JournalEntry} {k : StorageKey} {g : SeenSlot → SeenSlot} {t : TransientStorage}
  {es : List JournalEntry} {a : Address}

namespace Scope

variable {ε : Type} (c : Scope ε)

/-! ## Facts about the state map -/

/-- What holds of every account in the state map. -/
structure AccountInv (a : Address) (acc : Account) : Prop where
  /-- A slot that is not loaded would be read as its base value. -/
  backed : ∀ k v, c.base a k = some v → (acc.settledStorage c.transactionId).lookup k = none →
    (if acc.isCreated then 0 else c.dbStorage a k) = v
  /-- Where accounts are created, only new accounts have observed slots that are not loaded. -/
  vacant : c.creates → ∀ k v, c.base a k = some v →
    (acc.settledStorage c.transactionId).lookup k = none → c.fresh a ∧ c.dbStorage a k = v
  live : c.strict = true ∨ c.fresh a → acc.isStale c.transactionId = false
  clean : c.strict = true → acc.isColdTransactionId c.transactionId = true →
    c.warm.isCold a = true ∧ acc.isCreatedLocally = false

/-- New accounts without nonce and code have no storage, where it is observed. -/
def NoCodelessStorage : Prop :=
  ∀ a k v, c.base a k = some v → c.fresh a → c.DbCodeless a → c.dbStorage a k = 0

/-- What holds of every address that is not in the state map. -/
structure UnloadedInv (a : Address) : Prop where
  backed : ∀ k v, c.base a k = some v → c.dbStorage a k = v
  fresh : c.creates → (∃ info, c.db.basic a = .ok info) → c.fresh a

/-- What holds of the state map. -/
def StateInv (s : EvmState) : Prop := ∀ a, (s.lookup a).elim (c.UnloadedInv a) (c.AccountInv a)

variable {c}

theorem StateInv.account {s : EvmState} (h : c.StateInv s) {acc : Account}
    (hl : s.lookup a = some acc) : c.AccountInv a acc := by
  have ha := h a
  rw [hl] at ha
  exact ha

theorem StateInv.unloaded {s : EvmState} (h : c.StateInv s)
    (hl : s.lookup a = none) : c.UnloadedInv a := by
  have ha := h a
  rw [hl] at ha
  exact ha

theorem StateInv.insert {s : EvmState} (h : c.StateInv s) {acc : Account}
    (hacc : c.AccountInv a acc) : c.StateInv (s.insert a acc) := by
  intro b
  rw [HashMap.lookup_insert_ite]
  split_ifs with hb
  · subst hb
    exact hacc
  · exact h b

theorem see_of_some {s : EvmState} {acc : Account} (hl : s.lookup a = some acc) :
    c.see s a = c.seeAccount a acc := by
  simp [see, hl]

theorem see_of_none {s : EvmState} (hl : s.lookup a = none) : c.see s a = c.unloaded a := by
  simp [see, hl]

theorem see_insert (s : EvmState) (a : Address) (acc : Account) :
    c.see (s.insert a acc) = Function.update (c.see s) a (c.seeAccount a acc) := by
  funext b
  by_cases hb : b = a
  · subst hb
    rw [Function.update_self]
    exact see_of_some (AList.lookup_insert s)
  · rw [Function.update_of_ne hb]
    simp [see, AList.lookup_insert_ne hb]

variable (c)

/-! ## Loaded accounts and slots -/

/-- The account is in the map and needs no clearing. -/
def Loaded (s : EvmState) (a : Address) : Prop :=
  ∃ acc, s.lookup a = some acc ∧ acc.isStale c.transactionId = false

/-- The slot of a loaded account is in the map. -/
def LoadedSlot (s : EvmState) (a : Address) (k : StorageKey) : Prop :=
  ∃ acc slot, s.lookup a = some acc ∧ acc.isStale c.transactionId = false ∧
    acc.storage.lookup k = some slot

/-- What the entry is about is loaded. -/
def Live (s : EvmState) : JournalEntry → Prop
  | .accountDestroyed _ a target _ => c.Loaded s a ∧ c.Loaded s target
  | .balanceTransfer _ src dst => c.Loaded s src ∧ c.Loaded s dst
  | .storageChanged k _ a => c.LoadedSlot s a k
  | .storageWarmed k a => c.LoadedSlot s a k
  | .transientStorageChange .. => True
  | .accountWarmed a => c.Loaded s a
  | .accountTouched a => c.Loaded s a
  | .balanceChange _ a => c.Loaded s a
  | .nonceChange a => c.Loaded s a
  | .accountCreated a _ => c.Loaded s a
  | .codeChange a => c.Loaded s a

/-- What is loaded stays loaded. -/
structure Persists (s s' : EvmState) : Prop where
  account : ∀ a, c.Loaded s a → c.Loaded s' a
  slot : ∀ a k, c.LoadedSlot s a k → c.LoadedSlot s' a k

variable {c}

namespace Persists

theorem refl (s : EvmState) : c.Persists s s := ⟨fun _ h => h, fun _ _ h => h⟩

theorem trans {s s₁ s₂ : EvmState} (h₁ : c.Persists s s₁) (h₂ : c.Persists s₁ s₂) :
    c.Persists s s₂ :=
  ⟨fun a h => h₂.account a (h₁.account a h), fun a k h => h₂.slot a k (h₁.slot a k h)⟩

theorem live {s s' : EvmState} (h : c.Persists s s') (he : c.Live s e) : c.Live s' e := by
  cases e with
  | accountDestroyed | balanceTransfer => exact ⟨h.account _ he.1, h.account _ he.2⟩
  | storageChanged | storageWarmed => exact h.slot _ _ he
  | transientStorageChange => trivial
  | accountWarmed | accountTouched | balanceChange | nonceChange | accountCreated | codeChange =>
    exact h.account _ he

/-- A change of one account that keeps its slots and does not make it stale. -/
theorem insert {s : EvmState} {acc' : Account}
    (h : ∀ acc, s.lookup a = some acc → acc.isStale c.transactionId = false →
      acc'.isStale c.transactionId = false ∧
        ∀ k, (acc.storage.lookup k).isSome → (acc'.storage.lookup k).isSome) :
    c.Persists s (s.insert a acc') := by
  constructor
  · rintro b ⟨acc, hl, hstale⟩
    by_cases hb : b = a
    · subst hb
      exact ⟨acc', AList.lookup_insert s, (h acc hl hstale).1⟩
    · exact ⟨acc, by rw [AList.lookup_insert_ne hb, hl], hstale⟩
  · rintro b k ⟨acc, slot, hl, hstale, hslot⟩
    by_cases hb : b = a
    · subst hb
      obtain ⟨hstale', hslots⟩ := h acc hl hstale
      obtain ⟨slot', hslot'⟩ := isSome_iff_exists.1 (hslots k (by rw [hslot]; rfl))
      exact ⟨acc', slot', AList.lookup_insert s, hstale', hslot'⟩
    · exact ⟨acc, slot, by rw [AList.lookup_insert_ne hb, hl], hstale, hslot⟩

end Persists

/-! ## Changes of one account -/

/-- Two accounts agree on everything but info and the flags that no invariant mentions. -/
structure SameFrame (x y : Account) : Prop where
  transactionId : y.transactionId = x.transactionId
  storage : y.storage = x.storage
  cold : y.status.cold = x.status.cold
  destroyedLocal : y.status.selfDestructedLocal = x.status.selfDestructedLocal
  createdLocal : y.status.createdLocal = x.status.createdLocal
  created : y.status.created = x.status.created

namespace SameFrame

variable {x y : Account}

theorem isColdTransactionId (h : SameFrame x y) (t : Nat) :
    y.isColdTransactionId t = x.isColdTransactionId t := by
  unfold Account.isColdTransactionId
  rw [h.transactionId, h.cold]

theorem isStale (h : SameFrame x y) (t : Nat) : y.isStale t = x.isStale t := by
  unfold Account.isStale Account.isSelfdestructedLocally
  rw [h.isColdTransactionId, h.destroyedLocal]

theorem settledStorage (h : SameFrame x y) (t : Nat) : y.settledStorage t = x.settledStorage t := by
  unfold Account.settledStorage
  rw [h.isStale, h.storage]

end SameFrame

/-- The invariant reads the frame of an account only. -/
theorem AccountInv.of_sameFrame {x y : Account} (h : c.AccountInv a x)
    (hf : SameFrame x y) : c.AccountInv a y where
  backed k v hb hnone := by
    rw [hf.settledStorage] at hnone
    have hcreated : y.isCreated = x.isCreated := hf.created
    rw [hcreated]
    exact h.backed k v hb hnone
  vacant hc k v hb hnone := by
    rw [hf.settledStorage] at hnone
    exact h.vacant hc k v hb hnone
  live hs := by
    rw [hf.isStale]
    exact h.live hs
  clean hs hcold := by
    rw [hf.isColdTransactionId] at hcold
    obtain ⟨hwarm, hlocal⟩ := h.clean hs hcold
    exact ⟨hwarm, hf.createdLocal.trans hlocal⟩

variable (c) in
/-- The map `s` turned into `s'`, which is seen as `v`. -/
structure Becomes (s s' : EvmState) (v : Seen) : Prop where
  see : c.see s' = v
  inv : c.StateInv s'
  keep : c.Persists s s'

namespace Becomes

variable {s s₁ s₂ : EvmState} {v v₁ : Seen} {acc acc' : Account} {f : SeenAccount → SeenAccount}

theorem trans (h₁ : c.Becomes s s₁ v) (h₂ : c.Becomes s₁ s₂ v₁) : c.Becomes s s₂ v₁ :=
  ⟨h₂.see, h₂.inv, h₁.keep.trans h₂.keep⟩

/-- An account was stored at an address. -/
theorem put (h : c.StateInv s) (hacc : c.AccountInv a acc')
    (hkeep : ∀ acc, s.lookup a = some acc → acc.isStale c.transactionId = false →
      acc'.isStale c.transactionId = false ∧
        ∀ k, (acc.storage.lookup k).isSome → (acc'.storage.lookup k).isSome)
    (hsee : c.seeAccount a acc' = f (c.see s a)) :
    c.Becomes s (s.insert a acc') ((c.see s).modify a f) where
  see := by
    rw [see_insert, hsee, Seen.modify]
  inv := h.insert hacc
  keep := Persists.insert hkeep

theorem insert (h : c.StateInv s) (hl : s.lookup a = some acc) (hacc : c.AccountInv a acc')
    (hkeep : acc.isStale c.transactionId = false → acc'.isStale c.transactionId = false ∧
      ∀ k, (acc.storage.lookup k).isSome → (acc'.storage.lookup k).isSome)
    (hsee : c.seeAccount a acc' = f (c.seeAccount a acc)) :
    c.Becomes s (s.insert a acc') ((c.see s).modify a f) := by
  refine put h hacc (fun x hx hstale => ?_) (hsee.trans (by rw [see_of_some hl]))
  rw [hl] at hx
  cases hx
  exact hkeep hstale

/-- A change outside the frame keeps all invariants. -/
theorem insert_sameFrame (h : c.StateInv s) (hl : s.lookup a = some acc) (hf : SameFrame acc acc')
    (hsee : c.seeAccount a acc' = f (c.seeAccount a acc)) :
    c.Becomes s (s.insert a acc') ((c.see s).modify a f) :=
  insert h hl ((h.account hl).of_sameFrame hf)
    (fun hstale => ⟨by rw [hf.isStale]; exact hstale, fun k hk => by rw [hf.storage]; exact hk⟩)
    hsee

/-- An account that is not stale keeps its slots. Only what is read of a slot that is not loaded has
to be seen to. -/
theorem insert_live (h : c.StateInv s) (hl : s.lookup a = some acc)
    (hstale : acc.isStale c.transactionId = false) (hstale' : acc'.isStale c.transactionId = false)
    (hstorage : acc'.storage = acc.storage)
    (hbacked : ∀ k v, c.base a k = some v → (acc.settledStorage c.transactionId).lookup k = none →
      (if acc'.isCreated then 0 else c.dbStorage a k) = v)
    (hclean : c.strict = true → acc'.isColdTransactionId c.transactionId = true →
      c.warm.isCold a = true ∧ acc'.isCreatedLocally = false)
    (hsee : c.seeAccount a acc' = f (c.seeAccount a acc)) :
    c.Becomes s (s.insert a acc') ((c.see s).modify a f) := by
  have hsettled : acc'.settledStorage c.transactionId = acc.settledStorage c.transactionId := by
    simp only [settledStorage, hstale, hstale', hstorage]
  refine insert h hl ⟨fun k v hb hnone => ?_, fun hc k v hb hnone => ?_, fun _ => hstale', hclean⟩
    (fun _ => ⟨hstale', fun k hk => by rw [hstorage]; exact hk⟩) hsee
  · exact hbacked k v hb (hsettled ▸ hnone)
  · exact (h.account hl).vacant hc k v hb (hsettled ▸ hnone)

end Becomes

/-! ## The seen account after each change -/

section See

variable {acc : Account}

section

variable (h : acc.isStale c.transactionId = false)

include h

/-- A loaded account is seen as it is. -/
theorem seeAccount_of_live : c.seeAccount a acc =
      { balance := acc.info.balance
        nonce := acc.info.nonce
        codeHash := acc.info.codeHash
        touched := acc.isTouched && !c.hidesTouch a
        created := acc.isCreated
        createdLocal :=
          c.strict && acc.isCreatedLocally && !acc.isColdTransactionId c.transactionId
        selfDestructed := acc.isSelfdestructed
        selfDestructedLocal :=
          acc.isSelfdestructedLocally && !acc.isColdTransactionId c.transactionId
        loadedAsNotExisting := acc.status.loadedAsNotExisting
        cold := acc.isColdTransactionId c.transactionId && c.warm.isCold a
        slot := fun k => c.seeSlot a k (acc.storage.lookup k) } := by
  simp [seeAccount, settledInfo, settledStorage, h]

theorem slot_see (k : StorageKey) :
    (c.seeAccount a acc).slot k = c.seeSlot a k (acc.storage.lookup k) := by
  rw [seeAccount_of_live h]

/-- What is seen of a loaded account, its warmth and its slots apart, it shows. -/
theorem shows_of_see {x : SeenAccount} {info : AccountInfo} {touched : Bool}
    (hsee : (c.seeAccount a acc).still = x.still) (hbalance : x.balance = info.balance)
    (hnonce : x.nonce = info.nonce) (hcode : x.codeHash = info.codeHash)
    (htouched : x.touched = (touched && !c.hidesTouch a)) :
    acc.Shows c.spec a info touched x.created x.selfDestructed := by
  rw [seeAccount_of_live h, SeenAccount.still, SeenAccount.still, SeenAccount.mk.injEq] at hsee
  obtain ⟨hbalance', hnonce', hcode', htouched', hcreated, -, hdestroyed, -⟩ := hsee
  refine ⟨hbalance'.trans hbalance, hnonce'.trans hnonce, hcode'.trans hcode, fun hhide => ?_,
    hcreated, hdestroyed⟩
  have hfalse : c.hidesTouch a = false := by simpa [hidesTouch] using hhide
  simpa [hfalse] using htouched'.trans htouched

theorem see_setBalance (balance : U256) :
    c.seeAccount a (acc.setBalance balance) = { c.seeAccount a acc with balance := balance } := by
  rw [seeAccount_of_live h, seeAccount_of_live (show (acc.setBalance balance).isStale _ = _ from h)]
  rfl

theorem see_setNonce (nonce : U64) :
    c.seeAccount a (acc.setNonce nonce) = { c.seeAccount a acc with nonce := nonce } := by
  rw [seeAccount_of_live h, seeAccount_of_live (show (acc.setNonce nonce).isStale _ = _ from h)]
  rfl

theorem see_setCode (hash : B256) (code : Bytecode) :
    c.seeAccount a (acc.setCode hash code) = { c.seeAccount a acc with codeHash := hash } := by
  rw [seeAccount_of_live h, seeAccount_of_live (show (acc.setCode hash code).isStale _ = _ from h)]
  rfl

/-- Cached code is not seen. -/
theorem see_cacheCode (code : Bytecode) :
    c.seeAccount a (acc.cacheCode code) = c.seeAccount a acc := by
  rw [seeAccount_of_live h, seeAccount_of_live (show (acc.cacheCode code).isStale _ = _ from h)]
  rfl

end

/-- Only locally destroyed accounts are stale. -/
theorem isStale_of_not_destroyed (t : Nat) (h : acc.isSelfdestructedLocally = false) :
    acc.isStale t = false := by
  simp [isStale, h]

section

variable (h : acc.isStale c.transactionId = false)

include h

theorem isStale_undestroy (status : SelfdestructionRevertStatus) :
    (acc.undestroy status).isStale c.transactionId = false := by
  cases status with
  | repeatedSelfdestruction => exact h
  | globallySelfdestroyed | locallySelfdestroyed => exact isStale_of_not_destroyed _ rfl

theorem see_undestroy (status : SelfdestructionRevertStatus) :
    c.seeAccount a (acc.undestroy status) = (c.seeAccount a acc).undestroy status := by
  rw [seeAccount_of_live h, seeAccount_of_live (isStale_undestroy h status)]
  cases status <;> rfl

/-- A loaded slot was changed. -/
theorem see_setSlot (k : StorageKey)
    (slot : EvmStorageSlot) : c.seeAccount a { acc with storage := acc.storage.insert k slot } =
      (c.seeAccount a acc).modifySlot k fun _ => c.seeSlot a k (some slot) := by
  have h' : ({ acc with storage := acc.storage.insert k slot } : Account).isStale
      c.transactionId = false := h
  rw [seeAccount_of_live h, seeAccount_of_live h']
  refine SeenAccount.ext rfl rfl rfl rfl rfl rfl rfl rfl rfl rfl (funext fun k' => ?_)
  show c.seeSlot a k' ((acc.storage.insert k slot).lookup k') =
    Function.update (fun k => c.seeSlot a k (acc.storage.lookup k)) k
      (c.seeSlot a k (some slot)) k'
  by_cases hk : k' = k
  · subst hk
    rw [Function.update_self, AList.lookup_insert]
  · rw [Function.update_of_ne hk, AList.lookup_insert_ne hk]

end

end See

/-! ## Changes of one slot -/

theorem AccountInv.setSlot {acc : Account} (h : c.AccountInv a acc)
    (hstale : acc.isStale c.transactionId = false) (k : StorageKey) (slot : EvmStorageSlot) :
    c.AccountInv a { acc with storage := acc.storage.insert k slot } := by
  have hstale' : ({ acc with storage := acc.storage.insert k slot } : Account).isStale
      c.transactionId = false := hstale
  have hnone' : ∀ k', (acc.storage.insert k slot).lookup k' = none →
      acc.storage.lookup k' = none := by
    intro k' hk'
    rw [HashMap.lookup_insert_ite] at hk'
    split_ifs at hk'
    exact hk'
  have hback := h.backed
  have hvacant := h.vacant
  simp only [settledStorage, hstale] at hback hvacant
  refine ⟨fun k' v hb hnone => ?_, fun hc k' v hb hnone => ?_, fun _ => hstale', h.clean⟩
  · simp only [settledStorage, hstale'] at hnone
    exact hback k' v hb (hnone' k' hnone)
  · simp only [settledStorage, hstale'] at hnone
    exact hvacant hc k' v hb (hnone' k' hnone)

/-- A slot was stored in a loaded account. -/
theorem Becomes.setSlot {s : EvmState} {acc : Account} {slot : EvmStorageSlot}
    (h : c.StateInv s) (hl : s.lookup a = some acc) (hstale : acc.isStale c.transactionId = false)
    (hg : c.base a k ≠ none → c.seeSlot a k (some slot) = g ((c.see s a).slot k)) :
    c.Becomes s (s.insert a { acc with storage := acc.storage.insert k slot })
      (c.modifySlot (c.see s) a k g) := by
  have hsome : ∀ k', (acc.storage.lookup k').isSome →
      ((acc.storage.insert k slot).lookup k').isSome := by
    intro k' hk'
    rw [HashMap.lookup_insert_ite]
    split_ifs
    · rfl
    · exact hk'
  have hbecomes : c.Becomes s (s.insert a { acc with storage := acc.storage.insert k slot })
      ((c.see s).modify a fun x => x.modifySlot k fun _ => c.seeSlot a k (some slot)) :=
    Becomes.insert h hl ((h.account hl).setSlot hstale k slot) (fun _ => ⟨hstale, hsome⟩)
      (see_setSlot hstale k slot)
  refine ⟨hbecomes.see.trans ?_, hbecomes.inv, hbecomes.keep⟩
  unfold modifySlot
  cases hb : c.base a k with
  | none =>
    refine Seen.modify_eq_self (SeenAccount.ext rfl rfl rfl rfl rfl rfl rfl rfl rfl rfl ?_)
    have hmask : c.seeSlot a k (some slot) = (c.see s a).slot k := by
      rw [see_of_some hl, slot_see hstale]
      simp [seeSlot, hb]
    rw [hmask]
    exact Function.update_eq_self k _
  | some v =>
    have hstep := hg (by rw [hb]; exact Option.some_ne_none v)
    simp only [Seen.modify, SeenAccount.modifySlot, hstep]

/-! ## One entry -/

theorem modify_of_some {s : EvmState} {acc : Account} (hl : s.lookup a = some acc)
    (f : Account → Account) : s.modify a f = some (s.insert a (f acc)) := by
  simp [EvmState.modify, hl]

/-- A change of a loaded account that no invariant notices. -/
theorem modify_sameFrame {s : EvmState} (h : c.StateInv s) (ha : c.Loaded s a)
    {f : Account → Account} {g : SeenAccount → SeenAccount} (hf : ∀ acc, SameFrame acc (f acc))
    (hsee : ∀ acc, acc.isStale c.transactionId = false →
      c.seeAccount a (f acc) = g (c.seeAccount a acc)) :
    ∃ s', s.modify a f = some s' ∧ c.Becomes s s' ((c.see s).modify a g) := by
  obtain ⟨acc, hl, hstale⟩ := ha
  exact ⟨_, modify_of_some hl f, Becomes.insert_sameFrame h hl (hf acc) (hsee acc hstale)⟩

section Entry

variable {s : EvmState} (h : c.StateInv s)
include h

section

variable (ha : c.Loaded s a)

include ha

theorem revert_accountWarmed (hg : c.Undoable (.accountWarmed a) (c.see s)) :
    ∃ s', s.modify a markCold = some s' ∧
      c.Becomes s s' ((c.see s).modify a fun x => { x with cold := c.warm.isCold a }) := by
  obtain ⟨acc, hl, hstale⟩ := ha
  obtain ⟨hcreated, hdestroyed, hcold⟩ := hg
  rw [see_of_some hl] at hcreated hdestroyed
  have hacc := h.account hl
  -- whether the account is warm or cold by its transaction id, it is not locally destroyed
  have hlocal : acc.isSelfdestructedLocally = false := by
    cases hc : acc.isColdTransactionId c.transactionId with
    | true => simpa [isStale, hc] using hstale
    | false => simpa [seeAccount, hc] using hdestroyed
  have hcold' : acc.markCold.isColdTransactionId c.transactionId = true := by
    simp [isColdTransactionId, markCold]
  have hstale' : acc.markCold.isStale c.transactionId = false := by
    have : acc.markCold.isSelfdestructedLocally = false := hlocal
    simp [isStale, this]
  refine ⟨_, modify_of_some hl _, Becomes.insert_live h hl hstale hstale' rfl hacc.backed
    (fun hs _ => ⟨hcold, ?_⟩) ?_⟩
  · show acc.isCreatedLocally = false
    cases hc : acc.isColdTransactionId c.transactionId with
    | true => exact (hacc.clean hs hc).2
    | false => simpa [seeAccount, hc, hs] using hcreated
  have hinfo : acc.markCold.settledInfo c.transactionId = acc.settledInfo c.transactionId := by
    simp only [settledInfo, hstale, hstale']
    rfl
  apply SeenAccount.ext
  case createdLocal =>
    rw [hcreated]
    simp [seeAccount, hcold']
  case selfDestructedLocal =>
    rw [hdestroyed]
    simp [seeAccount, hcold']
  case cold => simp [seeAccount, hcold']
  case slot =>
    simp only [seeAccount, settledStorage, hstale, hstale']
    rfl
  case balance | nonce | codeHash => simp only [seeAccount, hinfo]
  case touched | created | selfDestructed | loadedAsNotExisting => rfl

/-- The touch of precompile 3 is not undone, and not seen either. -/
theorem revert_accountTouched :
    ∃ s', (if (c.spec.isEnabledIn .spuriousDragon && a == precompile3) = true then some s
        else s.modify a unmarkTouch) = some s' ∧
      c.Becomes s s' ((c.see s).modify a fun x => { x with touched := false }) := by
  by_cases hhide : (c.spec.isEnabledIn .spuriousDragon && a == precompile3) = true
  · obtain ⟨acc, hl, -⟩ := ha
    refine ⟨s, if_pos hhide, ⟨(Seen.modify_eq_self ?_).symm, h, Persists.refl s⟩⟩
    have hfalse : (c.seeAccount a acc).touched = false := by
      have : c.hidesTouch a = true := hhide
      simp [seeAccount, this]
    rw [see_of_some hl, ← hfalse]
  · rw [if_neg hhide]
    exact modify_sameFrame h ha (fun acc => ⟨rfl, rfl, rfl, rfl, rfl, rfl⟩) fun acc _ => rfl

/-- Each entry that changes a balance is undone with its own `f`. -/
theorem revert_balance {f : U256 → U256} {g : SeenAccount → SeenAccount}
    (hg : ∀ x, g x = { x with balance := f x.balance }) :
    ∃ s', s.modify a (fun acc => acc.setBalance (f acc.info.balance)) = some s' ∧
      c.Becomes s s' ((c.see s).modify a g) := by
  refine modify_sameFrame h ha (fun acc => ⟨rfl, rfl, rfl, rfl, rfl, rfl⟩) fun acc hstale => ?_
  rw [see_setBalance hstale, hg, seeAccount_of_live hstale]

theorem revert_nonceChange :
    ∃ s', s.modify a (fun acc => acc.setNonce (acc.info.nonce - 1)) = some s' ∧
      c.Becomes s s' ((c.see s).modify a fun x => { x with nonce := x.nonce - 1 }) := by
  refine modify_sameFrame h ha (fun acc => ⟨rfl, rfl, rfl, rfl, rfl, rfl⟩) fun acc hstale => ?_
  rw [see_setNonce hstale, seeAccount_of_live hstale]

theorem revert_codeChange : ∃ s', s.modify a resetCode = some s' ∧
      c.Becomes s s' ((c.see s).modify a fun x => { x with codeHash := keccakEmpty }) := by
  refine modify_sameFrame h ha (fun acc => ⟨rfl, rfl, rfl, rfl, rfl, rfl⟩) fun acc hstale => ?_
  rw [seeAccount_of_live hstale, seeAccount_of_live (show acc.resetCode.isStale _ = _ from hstale)]
  rfl

theorem revert_accountDestroyed (had : U256)
    (status : SelfdestructionRevertStatus) : ∃ s', s.modify a (fun acc =>
        (acc.undestroy status).setBalance ((acc.undestroy status).info.balance + had)) = some s' ∧
      c.Becomes s s' ((c.see s).modify a fun x => (x.undestroy status).credit had) := by
  obtain ⟨acc, hl, hstale⟩ := ha
  have hstale' := isStale_undestroy hstale status
  refine ⟨_, modify_of_some hl _, Becomes.insert_live h hl hstale hstale' ?_
    (fun k v hb hnone => ?_)
    ?_ ?_⟩
  · cases status <;> rfl
  · have hbacked := (h.account hl).backed k v hb hnone
    cases status <;> exact hbacked
  · cases status <;> exact (h.account hl).clean
  · rw [see_setBalance hstale', ← see_undestroy hstale, credit, seeAccount_of_live hstale']

theorem revert_accountCreated {isCreatedGlobally : Bool} (hc : c.creates) :
    ∃ s', s.modify a (fun acc => acc.uncreate isCreatedGlobally) = some s' ∧
      c.Becomes s s' ((c.see s).modify a fun x =>
        { x with
          createdLocal := false
          created := if isCreatedGlobally then false else x.created
          nonce := 0 }) := by
  obtain ⟨acc, hl, hstale⟩ := ha
  have hacc := h.account hl
  have hstale' : (acc.uncreate isCreatedGlobally).isStale c.transactionId = false := by
    cases isCreatedGlobally <;> exact hstale
  refine ⟨_, modify_of_some hl _, Becomes.insert_live h hl hstale hstale' ?_
    (fun k v hb hnone => ?_)
    (fun hs hcold => ?_) ?_⟩
  · cases isCreatedGlobally <;> rfl
  · -- an account that was not created before reads the database again
    cases isCreatedGlobally with
    | true => exact (hacc.vacant hc k v hb hnone).2
    | false => exact hacc.backed k v hb hnone
  · have hcold' : acc.isColdTransactionId c.transactionId = true := by
      cases isCreatedGlobally <;> exact hcold
    refine ⟨(hacc.clean hs hcold').1, ?_⟩
    cases isCreatedGlobally <;> rfl
  · rw [seeAccount_of_live hstale, seeAccount_of_live hstale']
    cases isCreatedGlobally <;> simp [uncreate, unmarkCreated, unmarkCreatedLocally, setNonce,
      isTouched, isCreated, isCreatedLocally, isSelfdestructed, isSelfdestructedLocally,
      isColdTransactionId]

end

/-- Changing a slot that is in the map. -/
theorem revert_slot {f : EvmStorageSlot → EvmStorageSlot} (hslot : c.LoadedSlot s a k)
    (hg : ∀ slot, (c.see s a).slot k = c.seeSlot a k (some slot) → c.base a k ≠ none →
      c.seeSlot a k (some (f slot)) = g (c.seeSlot a k (some slot))) :
    ∃ s', s.modifySlot a k f = some s' ∧ c.Becomes s s' (c.modifySlot (c.see s) a k g) := by
  obtain ⟨acc, slot, hl, hstale, hk⟩ := hslot
  have hseen : (c.see s a).slot k = c.seeSlot a k (some slot) := by
    rw [see_of_some hl, slot_see hstale, hk]
  refine ⟨s.insert a { acc with storage := acc.storage.insert k (f slot) },
    by simp [EvmState.modifySlot, hl, hk], Becomes.setSlot h hl hstale fun hbase => ?_⟩
  rw [hseen]
  exact hg slot hseen hbase

/-- Reverting an entry whose accounts are loaded does what the undo rule says. -/
theorem revertState_becomes (hlive : c.Live s e) (hg : c.Undoable e (c.see s)) :
    ∃ s', e.revertState (c.spec.isEnabledIn .spuriousDragon) s = some s' ∧
      c.Becomes s s' (c.undoAccounts e (c.see s)) := by
  cases e with
  | accountWarmed a => exact revert_accountWarmed h hlive hg
  | accountTouched a => exact revert_accountTouched h hlive
  | accountDestroyed had a target status =>
    obtain ⟨s₁, hs₁, hb₁⟩ := revert_accountDestroyed h hlive.1 had status
    simp only [JournalEntry.revertState, hs₁, bind_some, undoAccounts]
    by_cases hne : a = target
    · exact ⟨s₁, by simp [hne], by simpa [hne] using hb₁⟩
    · rw [if_pos hne, if_pos hne, ← hb₁.see]
      obtain ⟨s₂, hs₂, hb₂⟩ := revert_balance hb₁.inv (hb₁.keep.account target hlive.2)
        (f := fun x => x - had) (g := debit had) fun x => rfl
      exact ⟨s₂, hs₂, hb₁.trans hb₂⟩
  | balanceChange old a => exact revert_balance h hlive (f := fun _ => old) fun x => rfl
  | balanceTransfer amount src dst =>
    obtain ⟨s₁, hs₁, hb₁⟩ := revert_balance h hlive.1
      (f := fun x => x + amount) (g := credit amount) fun x => rfl
    simp only [JournalEntry.revertState, hs₁, bind_some, undoAccounts, ← hb₁.see]
    obtain ⟨s₂, hs₂, hb₂⟩ := revert_balance hb₁.inv (hb₁.keep.account dst hlive.2)
      (f := fun x => x - amount) (g := debit amount) fun x => rfl
    exact ⟨s₂, hs₂, hb₁.trans hb₂⟩
  | nonceChange a => exact revert_nonceChange h hlive
  | accountCreated a isCreatedGlobally => exact revert_accountCreated h hlive hg
  | storageChanged k had a =>
    refine revert_slot h hlive fun slot hseen hbase => ?_
    have hcold := hg hbase
    rw [hseen] at hcold
    obtain ⟨v, hv⟩ := ne_none_iff_exists'.1 hbase
    simp only [seeSlot, hv, elim_some] at hcold ⊢
    have hcold' : ({ slot with presentValue := had } : EvmStorageSlot).isColdTransactionId
        c.transactionId = false := hcold
    simp [hcold, hcold']
  | storageWarmed k a =>
    refine revert_slot h hlive fun slot hseen hbase => ?_
    have horiginal := hg hbase
    rw [hseen] at horiginal
    obtain ⟨v, hv⟩ := ne_none_iff_exists'.1 hbase
    simp only [seeSlot, hv, elim_some] at horiginal ⊢
    have hcold : slot.markCold.isColdTransactionId c.transactionId = true := by
      simp [EvmStorageSlot.isColdTransactionId, EvmStorageSlot.markCold]
    rw [horiginal, hcold]
    rfl
  | transientStorageChange k had a => exact ⟨s, rfl, rfl, h, Persists.refl s⟩
  | codeChange a => exact revert_codeChange h hlive

end Entry

/-! ## The loops of the source -/

/-- An undone write of transient storage, with absent keys read as zero. -/
theorem getD_revertTransient (e : JournalEntry) (t : TransientStorage) :
    (fun key => ((e.revertTransient t).lookup key).getD 0) =
      undoTransient e fun key => (t.lookup key).getD 0 := by
  cases e with
  | transientStorageChange k had a =>
    funext key
    simp only [JournalEntry.revertTransient, undoTransient, Function.update_apply]
    by_cases hzero : had = 0
    · rw [if_pos hzero, HashMap.lookup_erase_ite]
      split_ifs
      · exact hzero.symm
      · rfl
    · rw [if_neg hzero, HashMap.lookup_insert_ite]
      split_ifs <;> rfl
  | _ => rfl

/-- The transient storage holds no zero values. -/
def NonZero (t : TransientStorage) : Prop := ∀ key, t.lookup key ≠ some 0

theorem NonZero.erase (h : NonZero t) (key : Address × StorageKey) : NonZero (t.erase key) := by
  intro key'
  rw [HashMap.lookup_erase_ite]
  split_ifs
  · exact nofun
  · exact h key'

theorem NonZero.insert (h : NonZero t) (key : Address × StorageKey)
    {value : StorageValue} (hvalue : value ≠ 0) : NonZero (t.insert key value) := by
  intro key'
  rw [HashMap.lookup_insert_ite]
  split_ifs
  · exact fun hv => hvalue (some.inj hv)
  · exact h key'

theorem NonZero.revertTransient (h : NonZero t) (e : JournalEntry) :
    NonZero (e.revertTransient t) := by
  cases e with
  | transientStorageChange k had a =>
    simp only [JournalEntry.revertTransient]
    split_ifs with hzero
    · exact h.erase (a, k)
    · exact h.insert (a, k) hzero
  | _ => exact h

/-- Without zero values, what is read determines what is stored. -/
theorem NonZero.lookup_eq {t' : TransientStorage} (h : NonZero t) (h' : NonZero t')
    {key : Address × StorageKey} (hread : (t.lookup key).getD 0 = (t'.lookup key).getD 0) :
    t.lookup key = t'.lookup key := by
  cases hv : t.lookup key with
  | none =>
    cases hv' : t'.lookup key with
    | none => rfl
    | some value' =>
      rw [hv, hv'] at hread
      exact absurd (hv'.trans (congrArg some hread.symm)) (h' key)
  | some value =>
    cases hv' : t'.lookup key with
    | none =>
      rw [hv, hv'] at hread
      exact absurd (hv.trans (congrArg some hread)) (h key)
    | some value' =>
      rw [hv, hv'] at hread
      exact congrArg some hread

/-- The revert loop of `checkpoint_revert`. -/
theorem revertAll_becomes {s : EvmState} (h : c.StateInv s) (t : TransientStorage)
    (hlive : ∀ e ∈ es, c.Live s e)
    (hg : c.rule.Guarded es (c.see s, fun key => (t.lookup key).getD 0)) :
    ∃ s' t', es.reverse.foldlM
        (fun acc e => e.revert acc.1 acc.2 (c.spec.isEnabledIn .spuriousDragon)) (s, some t) =
          some (s', some t') ∧
      (c.see s', fun key => (t'.lookup key).getD 0) =
        c.rule.rewind es (c.see s, fun key => (t.lookup key).getD 0) ∧
      c.StateInv s' ∧ c.Persists s s' ∧ (NonZero t → NonZero t') := by
  obtain ⟨⟨s', t'⟩, hrun, habs, ⟨hinv, hkeep, hsome, hzero⟩, -⟩ :=
    UndoRule.foldlM_reverse_rewind (r := c.rule)
      (fun e (p : EvmState × Option TransientStorage) =>
        e.revert p.1 p.2 (c.spec.isEnabledIn .spuriousDragon))
      (fun p => (c.see p.1, fun key => ((p.2.getD ∅).lookup key).getD 0))
      (fun e p => c.Live p.1 e)
      (fun p => c.StateInv p.1 ∧ c.Persists s p.1 ∧ p.2.isSome ∧
        (NonZero t → NonZero (p.2.getD ∅)))
      (by
        rintro e ⟨s₁, t₁⟩ ⟨hinv, hkeep, hsome, hzero⟩ he hguard
        obtain ⟨t₁, rfl⟩ := isSome_iff_exists.1 hsome
        obtain ⟨s₂, hs₂, hb⟩ := revertState_becomes hinv he hguard.1
        refine ⟨(s₂, some (e.revertTransient t₁)), ?_, ?_, ⟨hb.inv, hkeep.trans hb.keep, rfl,
          fun ht => (hzero ht).revertTransient e⟩, fun e' he' => hb.keep.live he'⟩
        · rw [JournalEntry.revert_eq, hs₂]
          rfl
        · exact Prod.ext hb.see (getD_revertTransient e t₁))
      es (s, some t) ⟨h, Persists.refl s, rfl, fun ht => ht⟩ hlive hg
  obtain ⟨t', rfl⟩ := isSome_iff_exists.1 hsome
  exact ⟨s', t', hrun, habs, hinv, hkeep, hzero⟩

/-- The revert loop of `discard_tx`, which leaves the transient storage out. -/
theorem discardAll_becomes {s : EvmState} (h : c.StateInv s)
    (hlive : ∀ e ∈ es, c.Live s e) (hg : c.accountRule.Guarded es (c.see s)) :
    ∃ s', es.reverse.foldlM
        (fun acc e => e.revert acc.1 acc.2 (c.spec.isEnabledIn .spuriousDragon)) (s, none) =
          some (s', none) ∧
      c.Becomes s s' (c.accountRule.rewind es (c.see s)) := by
  obtain ⟨⟨s', t'⟩, hrun, habs, ⟨hinv, hkeep, hnone⟩, -⟩ :=
    UndoRule.foldlM_reverse_rewind (r := c.accountRule)
      (fun e (p : EvmState × Option TransientStorage) =>
        e.revert p.1 p.2 (c.spec.isEnabledIn .spuriousDragon))
      (fun p => c.see p.1)
      (fun e p => c.Live p.1 e) (fun p => c.StateInv p.1 ∧ c.Persists s p.1 ∧ p.2 = none)
      (by
        rintro e ⟨s₁, t₁⟩ ⟨hinv, hkeep, hnone⟩ he hguard
        obtain rfl : t₁ = none := hnone
        obtain ⟨s₂, hs₂, hb⟩ := revertState_becomes hinv he hguard
        refine ⟨(s₂, none), ?_, hb.see, ⟨hb.inv, hkeep.trans hb.keep, rfl⟩,
          fun e' he' => hb.keep.live he'⟩
        rw [JournalEntry.revert_eq, hs₂]
        rfl)
      es (s, none) ⟨h, Persists.refl s, rfl⟩ hlive hg
  obtain rfl : t' = none := hnone
  exact ⟨s', hrun, habs, hinv, hkeep⟩

end Scope

end Revm
