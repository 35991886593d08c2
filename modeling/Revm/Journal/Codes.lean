import Revm.Journal.Loads

/-!
# Code in the journal

`JournalInner.CodesIn` says that the code of every loaded account meets a rule about its address,
the code and its hash. The code of an account is the one that a load of it would find, so an account
whose code is not loaded yet is judged by the database (`Database.accountCode`).

No journal function makes up code: a load takes it from the database, a revert of a code change and
the clearing of a destroyed account leave none, and only `set_code` and a delegation bring a new
one. So every operation keeps the rule if the code that it installs meets it (`CodesIn.step`), and
so do runs (`CodesIn.run`) and the ends of a transaction (`CodesIn.commitTx`, `CodesIn.discardTx`).
-/

set_option autoImplicit false

namespace Revm

open Option JournalInner

variable {info : AccountInfo} {f : Account → Account} {k : StorageKey} {sd : Bool} {balance : U256}
  {a : Address}

section Rule

variable {ε : Type} (db : Database ε) (P : Address → Bytecode → B256 → Prop)

/-- The code of the account meets the rule. -/
def AccountInfo.CodeIn (a : Address) (info : AccountInfo) : Prop :=
  ∀ code, db.accountCode info = some code → P a code info.codeHash

/-- The codes of all accounts of the state meet the rule. -/
def EvmState.CodesIn (state : EvmState) : Prop :=
  ∀ a acc, state.lookup a = some acc → acc.info.CodeIn db P a

/-- The codes of all loaded accounts meet the rule. -/
def JournalInner.CodesIn (j : JournalInner) : Prop := EvmState.CodesIn db P j.state

/-- The rule allows that there is no code, and whatever the database has. -/
structure CodeRule : Prop where
  empty : ∀ a, P a Bytecode.default keccakEmpty
  stored : ∀ a info, db.basic a = .ok (some info) → info.CodeIn db P a

end Rule

variable {ε : Type} {db : Database ε} {P : Address → Bytecode → B256 → Prop}

/-! ## One account -/

/-- Only the code and its hash matter. -/
theorem AccountInfo.CodeIn.congr {info' : AccountInfo} (h : info.CodeIn db P a)
    (hcode : info'.code = info.code) (hhash : info'.codeHash = info.codeHash) :
    info'.CodeIn db P a := by
  unfold CodeIn Database.accountCode at h ⊢
  rw [hcode, hhash]
  exact h

namespace CodeRule

variable (hP : CodeRule db P)

include hP

/-- An account without code. -/
theorem codeIn_of_empty (hhash : info.codeHash = keccakEmpty)
    (hcode : info.code = none ∨ info.code = some Bytecode.default) : info.CodeIn db P a := by
  intro code h
  have hdefault : db.accountCode info = some Bytecode.default := by
    unfold Database.accountCode
    rcases hcode with hcode | hcode
    · rw [hcode, if_pos hhash]
    · rw [hcode]
  rw [hdefault] at h
  rw [← some.inj h, hhash]
  exact hP.empty a

theorem codeIn_default (a : Address) : AccountInfo.default.CodeIn db P a :=
  hP.codeIn_of_empty rfl (.inr rfl)

end CodeRule

/-! ## Changes of the state map -/

namespace EvmState.CodesIn

variable {state state' : EvmState}

section

variable (h : EvmState.CodesIn db P state)

include h

theorem insert {acc : Account} (hacc : acc.info.CodeIn db P a) :
    EvmState.CodesIn db P (state.insert a acc) := by
  intro b acc' hl
  obtain ⟨rfl, rfl⟩ | ⟨-, hl⟩ := HashMap.lookup_insert_some hl
  · exact hacc
  · exact h b acc' hl

theorem modify (hmod : state.modify a f = some state')
    (hf : ∀ acc, acc.info.CodeIn db P a → (f acc).info.CodeIn db P a) :
    EvmState.CodesIn db P state' := by
  obtain ⟨acc, hl, rfl⟩ := map_eq_some_iff.1 hmod
  exact h.insert (hf acc (h a acc hl))

/-- A change of the balance, the nonce or the flags. -/
theorem modify_same
    (hmod : state.modify a f = some state') (hcode : ∀ acc, (f acc).info.code = acc.info.code)
    (hhash : ∀ acc, (f acc).info.codeHash = acc.info.codeHash) : EvmState.CodesIn db P state' :=
  h.modify hmod fun acc hacc => hacc.congr (hcode acc) (hhash acc)

/-- Slots have no code. -/
theorem modifySlot {f : EvmStorageSlot → EvmStorageSlot}
    (hmod : state.modifySlot a k f = some state') : EvmState.CodesIn db P state' := by
  obtain ⟨acc, hl, hmod⟩ := bind_eq_some_iff.1 hmod
  obtain ⟨slot, -, hmod⟩ := bind_eq_some_iff.1 hmod
  cases hmod
  exact h.insert (h a acc hl)

end

/-- A reverted entry leaves the codes alone, or takes one away. -/
theorem revertState (hP : CodeRule db P) (h : EvmState.CodesIn db P state) {e : JournalEntry}
    (hrev : e.revertState sd state = some state') : EvmState.CodesIn db P state' := by
  cases e with
  | accountWarmed a => exact h.modify_same hrev (fun _ => rfl) fun _ => rfl
  | accountTouched a =>
    rw [JournalEntry.revertState] at hrev
    split_ifs at hrev
    · cases hrev
      exact h
    · exact h.modify_same hrev (fun _ => rfl) fun _ => rfl
  | accountDestroyed hadBalance a target status =>
    obtain ⟨s₁, hs₁, hrev⟩ := bind_eq_some_iff.1 hrev
    have h₁ : EvmState.CodesIn db P s₁ := by
      cases status <;> exact h.modify_same hs₁ (fun _ => rfl) fun _ => rfl
    split_ifs at hrev
    · exact h₁.modify_same hrev (fun _ => rfl) fun _ => rfl
    · cases hrev
      exact h₁
  | balanceChange oldBalance a => exact h.modify_same hrev (fun _ => rfl) fun _ => rfl
  | balanceTransfer balance src dst =>
    obtain ⟨s₁, hs₁, hrev⟩ := bind_eq_some_iff.1 hrev
    have h₁ : EvmState.CodesIn db P s₁ := h.modify_same hs₁ (fun _ => rfl) fun _ => rfl
    exact h₁.modify_same hrev (fun _ => rfl) fun _ => rfl
  | nonceChange a => exact h.modify_same hrev (fun _ => rfl) fun _ => rfl
  | accountCreated a isCreatedGlobally =>
    cases isCreatedGlobally <;> exact h.modify_same hrev (fun _ => rfl) fun _ => rfl
  | storageWarmed k a => exact h.modifySlot hrev
  | storageChanged k hadValue a => exact h.modifySlot hrev
  | transientStorageChange k hadValue a =>
    cases hrev
    exact h
  | codeChange a =>
    exact h.modify hrev fun acc _ => hP.codeIn_of_empty rfl (.inl rfl)

/-- The loop of a revert. -/
theorem revertAll (hP : CodeRule db P) {es : List JournalEntry} {t : Option TransientStorage}
    {r : EvmState × Option TransientStorage} (h : EvmState.CodesIn db P state)
    (hrev : es.foldlM (fun acc entry => entry.revert acc.1 acc.2 sd) (state, t) = some r) :
    EvmState.CodesIn db P r.1 := by
  induction es generalizing state t with
  | nil =>
    cases hrev
    exact h
  | cons e es ih =>
    rw [List.foldlM_cons] at hrev
    obtain ⟨r₁, hr₁, hrest⟩ := bind_eq_some_iff.1 hrev
    rw [JournalEntry.revert_eq] at hr₁
    obtain ⟨s, hs, rfl⟩ := map_eq_some_iff.1 hr₁
    exact ih (h.revertState hP hs) hrest

end EvmState.CodesIn

/-! ## The journal functions -/

namespace JournalInner.CodesIn

variable {j j' : JournalInner}
variable {acc : Account} {skipColdLoad : Bool} {code : Bytecode} {target : Address}

section

variable (h : j.CodesIn db P)

include h

theorem setAccount (hacc : acc.info.CodeIn db P a) : (j.setAccount a acc).CodesIn db P :=
  EvmState.CodesIn.insert h hacc

theorem push (e : JournalEntry) : (j.push e).CodesIn db P := h

theorem modify (hmod : j.modify a f = some j')
    (hf : ∀ acc, acc.info.CodeIn db P a → (f acc).info.CodeIn db P a) : j'.CodesIn db P := by
  obtain ⟨acc, hl, rfl⟩ := map_eq_some_iff.1 hmod
  exact h.setAccount (hf acc (h a acc hl))

/-- A change of the balance or the nonce. -/
theorem modify_same (hmod : j.modify a f = some j')
    (hcode : ∀ acc, (f acc).info.code = acc.info.code)
    (hhash : ∀ acc, (f acc).info.codeHash = acc.info.codeHash) : j'.CodesIn db P :=
  h.modify hmod fun acc hacc => hacc.congr (hcode acc) (hhash acc)

theorem touchAccount (hacc : acc.info.CodeIn db P a) : (j.touchAccount a acc).CodesIn db P := by
  unfold JournalInner.touchAccount
  split_ifs
  · exact (h.push _).setAccount hacc
  · exact h.setAccount hacc

theorem touch (a : Address) : (j.touch a).CodesIn db P := by
  unfold JournalInner.touch
  cases hl : j.state.lookup a with
  | none => exact h
  | some acc => exact h.touchAccount (h a acc hl)

theorem commitTx : j.commitTx.CodesIn db P := h

end

section

variable (hP : CodeRule db P)

include hP

theorem checkpointRevert (h : j.CodesIn db P) {cp : JournalCheckpoint}
    (hrev : j.checkpointRevert cp = some j') : j'.CodesIn db P := by
  obtain ⟨r, hr, hrev⟩ := bind_eq_some_iff.1 hrev
  cases hrev
  exact EvmState.CodesIn.revertAll hP h hr

theorem discardTx (h : j.CodesIn db P) (hdis : j.discardTx = some j') : j'.CodesIn db P := by
  obtain ⟨r, hr, hdis⟩ := bind_eq_some_iff.1 hdis
  cases hdis
  exact EvmState.CodesIn.revertAll hP h hr

/-! ### Loads -/

theorem warmUp (hacc : acc.info.CodeIn db P a) (t : Nat) : (warmUp acc t).info.CodeIn db P a := by
  unfold JournalInner.warmUp
  dsimp only
  split_ifs
  · exact hP.codeIn_default a
  · exact hacc

/-- A loaded account is an account of the state, of the database, or a new one. -/
theorem loadEntry (h : j.CodesIn db P) {load : StateLoad Account}
    (hload : j.loadEntry db a skipColdLoad = .ok load) : load.data.info.CodeIn db P a := by
  cases found_of_loadEntry hload with
  | cold acc hl => exact warmUp hP (h a acc hl) _
  | warm acc hl => exact h a acc hl
  | stored info hl hbasic => exact hP.stored a info hbasic
  | absent => exact hP.codeIn_default a

end

/-- Caching the code of an account does not change it. -/
theorem cacheCode (hacc : acc.info.CodeIn db P a)
    (hcode : db.accountCode acc.info = some code) : (acc.cacheCode code).info.CodeIn db P a := by
  intro code' hcode'
  cases hcode'
  exact hacc code hcode

/-- What a load answers and what it leaves. -/
theorem loadAccountMut (hP : CodeRule db P) (h : j.CodesIn db P) (a : Address)
    (loadCode skipColdLoad : Bool) :
    (j.loadAccountMutOptionalCode db a loadCode skipColdLoad).2.CodesIn db P ∧
      ∀ load, (j.loadAccountMutOptionalCode db a loadCode skipColdLoad).1 = .ok load →
        load.data.info.CodeIn db P a := by
  have hfound : ∀ load, j.loadEntry db a skipColdLoad = .ok load →
      load.data.info.CodeIn db P a ∧ (j.found a load).CodesIn db P := by
    intro load hentry
    have hinfo := h.loadEntry hP hentry
    rw [found_eq]
    exact ⟨hinfo, h.setAccount hinfo⟩
  generalize hr : j.loadAccountMutOptionalCode db a loadCode skipColdLoad = r
  cases loadOutcome hr with
  | failed e hentry => exact ⟨h, fun load h' => by cases h'⟩
  | noCode load e hentry => exact ⟨(hfound load hentry).2, fun load h' => by cases h'⟩
  | code load code hentry hnone hcode =>
    obtain ⟨hinfo, hset⟩ := hfound load hentry
    refine ⟨hset.setAccount (cacheCode hinfo hcode), fun load' h' => ?_⟩
    cases h'
    exact cacheCode hinfo hcode
  | loaded load hentry hcode =>
    obtain ⟨hinfo, hset⟩ := hfound load hentry
    refine ⟨hset, fun load' h' => ?_⟩
    cases h'
    exact hinfo

theorem loadAccountOptional (hP : CodeRule db P) (h : j.CodesIn db P) (a : Address)
    (loadCode skipColdLoad : Bool) :
    (j.loadAccountOptional db a loadCode skipColdLoad).2.CodesIn db P :=
  (h.loadAccountMut hP a loadCode skipColdLoad).1

theorem loadAccountDelegated (hP : CodeRule db P) (h : j.CodesIn db P) (a : Address) :
    (j.loadAccountDelegated db a).2.CodesIn db P := by
  have hfirst := h.loadAccountOptional hP a (j.spec.isEnabledIn .prague) false
  refine loadAccountDelegated_ends hfirst fun load j₁ delegated _ _ hload _ => ?_
  rw [hload] at hfirst
  exact JournalInner.CodesIn.loadAccountOptional hP hfirst delegated true false

section

variable (h : j.CodesIn db P)

include h

theorem sload {r : LoadAnswer ε StorageValue × JournalInner}
    (hr : j.sload db a k skipColdLoad = some r) : r.2.CodesIn db P := by
  obtain ⟨acc, hl, hr⟩ := bind_eq_some_iff.1 hr
  rcases hslot : j.loadSlot db a acc k skipColdLoad with e | ⟨slot, isCold⟩
  · rw [hslot] at hr
    cases hr
    exact h
  · rw [hslot] at hr
    cases hr
    split_ifs <;> exact h.setAccount (h a acc hl)

theorem sstore {new : StorageValue} {r : LoadAnswer ε SStoreResult × JournalInner}
    (hr : j.sstore db a k new skipColdLoad = some r) : r.2.CodesIn db P := by
  obtain ⟨⟨result, j₁⟩, hload, hr⟩ := bind_eq_some_iff.1 hr
  have h₁ : j₁.CodesIn db P := h.sload hload
  cases result with
  | error e =>
    cases hr
    exact h₁
  | ok present =>
    obtain ⟨acc, hl, hr⟩ := bind_eq_some_iff.1 hr
    obtain ⟨slot, -, hr⟩ := bind_eq_some_iff.1 hr
    split_ifs at hr
    · cases hr
      exact h₁
    · cases hr
      exact (h₁.push _).setAccount (h₁ a acc hl)

theorem tstore (a : Address) (k : StorageKey) (value : StorageValue) :
    (j.tstore a k value).CodesIn db P := by
  unfold JournalInner.tstore
  dsimp only
  split_ifs
  · cases j.transientStorage.lookup (a, k) <;> exact h
  · exact h
  · exact h

/-! ### Changes -/

/-- The code that is set meets the rule. -/
theorem setCodeWithHash {hash : B256}
    (hcode : P a code hash) (hset : j.setCodeWithHash a code hash = some j') : j'.CodesIn db P := by
  obtain ⟨acc, hl, hset⟩ := bind_eq_some_iff.1 hset
  refine ((h.touchAccount (h a acc hl)).push _).modify hset fun acc _ code' hcode' => ?_
  cases hcode'
  exact hcode

end

theorem setCode [Keccak256] (hP : CodeRule db P) (h : j.CodesIn db P)
    (hcode : P a code code.hashSlow) (hset : j.setCode a code = some j') : j'.CodesIn db P := by
  unfold JournalInner.setCode at hset
  cases code with
  | eip7702 delegated version raw =>
    dsimp only at hset
    split_ifs at hset
    · exact h.setCodeWithHash (hP.empty a) hset
    · exact h.setCodeWithHash hcode hset
  | legacyAnalyzed bytes => exact h.setCodeWithHash hcode hset

theorem transferLoaded (h : j.CodesIn db P) {src dst : Address}
    {r : Option TransferError × JournalInner} (hr : j.transferLoaded src dst balance = some r) :
    r.2.CodesIn db P := by
  cases transferOutcome hr with
  | same => exact h
  | nothing receiver hl => exact h.touchAccount (h dst receiver hl)
  | outOfFunds sender _ hl => exact h.touchAccount (h src sender hl)
  | overflow sender receiver _ hsrc hdst | paid sender receiver _ hsrc hdst =>
    refine EvmState.CodesIn.insert (EvmState.CodesIn.insert h ?_) ?_
    · exact (h src sender hsrc).congr rfl rfl
    · exact (h dst receiver hdst).congr rfl rfl

/-- A created account has no code. -/
theorem createdAccount (hP : CodeRule db P) (specId : SpecId)
    (hhash : acc.info.codeHash = keccakEmpty) : (createdAccount acc specId).info.CodeIn db P a := by
  unfold JournalInner.createdAccount
  split_ifs <;> exact hP.codeIn_of_empty hhash (.inl rfl)

theorem createAccountCheckpoint (hP : CodeRule db P) (h : j.CodesIn db P) {caller : Address}
    {specId : SpecId} {r : Except TransferError JournalCheckpoint × JournalInner}
    (hr : j.createAccountCheckpoint caller target balance specId = some r) : r.2.CodesIn db P := by
  have h₀ : j.checkpoint.2.CodesIn db P := h
  obtain ⟨acc, -, hr⟩ := bind_eq_some_iff.1 hr
  split_ifs at hr with hcollision
  · obtain ⟨j₁, hj₁, hr⟩ := bind_eq_some_iff.1 hr
    cases hr
    exact h₀.checkpointRevert hP hj₁
  · have hhash : acc.info.codeHash = keccakEmpty := by
      by_contra hne
      exact hcollision (.inl hne)
    have h₁ := (h₀.push (.accountCreated target acc.markCreatedLocally.2)).touchAccount
      (createdAccount hP specId hhash (a := target))
    cases hadd : checkedAdd acc.info.balance balance with
    | none =>
      rw [hadd] at hr
      obtain ⟨j₂, hj₂, hr⟩ := bind_eq_some_iff.1 hr
      cases hr
      exact h₁.checkpointRevert hP hj₂
    | some newBalance =>
      rw [hadd] at hr
      obtain ⟨j₂, hj₂, hr⟩ := bind_eq_some_iff.1 hr
      have h₂ : j₂.CodesIn db P := h₁.modify_same hj₂ (fun _ => rfl) fun _ => rfl
      obtain ⟨j₃, hj₃, hr⟩ := bind_eq_some_iff.1 hr
      cases hr
      have h₃ : j₃.CodesIn db P := h₂.modify_same hj₃ (fun _ => rfl) fun _ => rfl
      exact h₃.push _

theorem creditTarget (h : j.CodesIn db P)
    (hcredit : j.creditTarget a target = some j') : j'.CodesIn db P := by
  unfold JournalInner.creditTarget at hcredit
  split_ifs at hcredit
  · obtain ⟨acc, -, hcredit⟩ := bind_eq_some_iff.1 hcredit
    obtain ⟨targetAcc, hl, hcredit⟩ := bind_eq_some_iff.1 hcredit
    exact (h.touchAccount (h target targetAcc hl)).modify_same hcredit (fun _ => rfl) fun _ => rfl
  · cases hcredit
    exact h

theorem destroyAccount (h : j.CodesIn db P) (hacc : acc.info.CodeIn db P a)
    (target : Address) : (j.destroyAccount a target acc).CodesIn db P := by
  unfold JournalInner.destroyAccount
  split_ifs
  · apply push
    exact h.setAccount (hacc.congr rfl rfl)
  · apply push
    exact h.setAccount (hacc.congr rfl rfl)
  · exact h

theorem selfdestruct (hP : CodeRule db P) (h : j.CodesIn db P)
    {r : LoadAnswer ε SelfDestructResult × JournalInner}
    (hr : j.selfdestruct db a target = some r) : r.2.CodesIn db P := by
  have hload := h.loadAccountOptional hP target false false
  unfold JournalInner.selfdestruct JournalInner.loadAccount at hr
  rcases hload' : j.loadAccountOptional db target false false with ⟨e | load, j₁⟩
  · rw [hload'] at hr hload
    cases hr
    exact hload
  · rw [hload'] at hr hload
    obtain ⟨j₂, hj₂, hr⟩ := bind_eq_some_iff.1 hr
    have h₂ := creditTarget hload hj₂
    obtain ⟨acc, hl, hr⟩ := bind_eq_some_iff.1 hr
    cases hr
    exact h₂.destroyAccount (h₂ a acc hl) target

/-! ### Journaled accounts -/

/-- The change of a journaled account leaves code that meets the rule. -/
theorem withJournaledAccount (hP : CodeRule db P) (h : j.CodesIn db P) {α : Type} (a : Address)
    (loadCode : Bool) {f : JournaledAccount → α × JournaledAccount}
    (hf : ∀ x, x.account.info.CodeIn db P a → (f x).2.account.info.CodeIn db P a) :
    (j.withJournaledAccount db a loadCode f).2.CodesIn db P := by
  obtain ⟨hj, hinfo⟩ := h.loadAccountMut hP a loadCode false
  unfold JournalInner.withJournaledAccount
  rcases hload : j.loadAccountMutOptionalCode db a loadCode false with ⟨e | load, j₁⟩
  · rw [hload] at hj
    exact hj
  · rw [hload] at hj hinfo
    exact JournalInner.CodesIn.setAccount hj (hf _ (hinfo load rfl))

end JournalInner.CodesIn

namespace JournaledAccount

variable (x : JournaledAccount)

/-- The handle has the same code. -/
structure SameCode (x y : JournaledAccount) : Prop where
  code : y.account.info.code = x.account.info.code
  hash : y.account.info.codeHash = x.account.info.codeHash

theorem sameCode_bumpNonce : SameCode x x.bumpNonce.2 := by
  constructor <;> rw [account_bumpNonce] <;> rfl

/-- The code that a delegation installs, with its hash. -/
def delegation [Keccak256] (target : Address) : Bytecode × B256 :=
  if target = 0 then (Bytecode.default, keccakEmpty)
  else (Bytecode.newEip7702 target, (Bytecode.newEip7702 target).hashSlow)

theorem code_delegate [Keccak256] (target : Address) :
    (x.delegate target).account.info.code = some (delegation target).1 ∧
      (x.delegate target).account.info.codeHash = (delegation target).2 := by
  have hbump := sameCode_bumpNonce (x.touch.setCode (delegation target).2 (delegation target).1)
  exact ⟨hbump.code, hbump.hash⟩

end JournaledAccount

/-! ## Runs -/

/-- The code that an operation installs meets the rule. -/
def Op.InstallsIn [Keccak256] (P : Address → Bytecode → B256 → Prop) : Op → Prop
  | .setCode a code => P a code code.hashSlow
  | .account a _ (.delegate target) =>
      P a (JournaledAccount.delegation target).1 (JournaledAccount.delegation target).2
  | _ => True

theorem AccountChange.apply_codeIn [Keccak256] (change : AccountChange)
    (x : JournaledAccount) (hx : x.account.info.CodeIn db P a) {loadCode : Bool}
    (hop : (Op.account a loadCode change).InstallsIn P) :
    (change.apply x).2.account.info.CodeIn db P a := by
  cases change with
  | touch =>
    rw [apply, x.account_touch]
    exact hx.congr rfl rfl
  | setBalance balance =>
    rw [apply, x.account_setBalance]
    exact hx.congr rfl rfl
  | incrBalance balance =>
    rw [apply, x.account_incrBalance]
    exact hx.congr rfl rfl
  | decrBalance balance =>
    rw [apply, x.account_decrBalance]
    exact hx.congr rfl rfl
  | bumpNonce =>
    rw [apply, x.account_bumpNonce]
    exact hx.congr rfl rfl
  | delegate target =>
    obtain ⟨hcode, hhash⟩ := x.code_delegate target
    intro code h
    unfold Database.accountCode at h
    rw [AccountChange.apply, hcode] at h
    rw [AccountChange.apply, hhash, ← some.inj h]
    exact hop

namespace JournalInner.CodesIn

/-- Every operation keeps the rule if the code that it installs meets it. -/
theorem step [Keccak256] (hP : CodeRule db P) {op : Op} {cfg : Config} {r : Output ε × Config}
    (h : cfg.journal.CodesIn db P) (hop : op.InstallsIn P) (hstep : Revm.step db op cfg = some r) :
    r.2.journal.CodesIn db P := by
  cases op with
  | loadAccountOptional a loadCode skip =>
    cases hstep
    exact h.loadAccountOptional hP a loadCode skip
  | loadAccountDelegated a =>
    cases hstep
    exact h.loadAccountDelegated hP a
  | sload a k skip =>
    obtain ⟨r', hr', rfl⟩ := map_eq_some_iff.1 hstep
    exact h.sload hr'
  | sstore a k value skip =>
    obtain ⟨r', hr', rfl⟩ := map_eq_some_iff.1 hstep
    exact h.sstore hr'
  | tstore a k value =>
    cases hstep
    exact h.tstore a k value
  | log log =>
    cases hstep
    exact h
  | touch a =>
    cases hstep
    exact h.touch a
  | transferLoaded src dst balance =>
    obtain ⟨r', hr', rfl⟩ := map_eq_some_iff.1 hstep
    exact h.transferLoaded hr'
  | createAccountCheckpoint caller target balance specId =>
    obtain ⟨r', hr', rfl⟩ := map_eq_some_iff.1 hstep
    exact h.createAccountCheckpoint hP hr'
  | setCode a code =>
    obtain ⟨j', hj', rfl⟩ := map_eq_some_iff.1 hstep
    exact h.setCode hP hop hj'
  | selfdestruct a target =>
    obtain ⟨r', hr', rfl⟩ := map_eq_some_iff.1 hstep
    exact h.selfdestruct hP hr'
  | account a loadCode change =>
    cases hstep
    exact h.withJournaledAccount hP a loadCode fun x hx => change.apply_codeIn x hx hop
  | checkpoint =>
    cases hstep
    exact h
  | checkpointCommit =>
    rcases cfg with ⟨j, _ | ⟨cp, frames⟩⟩
    · cases hstep
    · cases hstep
      exact h
  | checkpointRevert =>
    rcases cfg with ⟨j, _ | ⟨cp, frames⟩⟩
    · cases hstep
    · obtain ⟨j', hj', rfl⟩ := map_eq_some_iff.1 hstep
      exact h.checkpointRevert hP hj'

end JournalInner.CodesIn

end Revm
