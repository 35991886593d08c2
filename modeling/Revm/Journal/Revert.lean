import Revm.Journal.Nested

/-!
# Reverting a checkpoint is exact

In the first transaction of a journal, reverting a checkpoint gives back depth, logs, entries and
transient storage, and every account that was loaded when the checkpoint was taken:
`JournalInner.checkpointRevert_exact`. The conditions on the operations are those the source relies
on (`RevertOk`): the account that is created or destroyed is warm, it is not created twice, and code
is set only on accounts without code. Delegations may replace code, but only before the first
checkpoint. The touch of `0x03` is not taken back from Spurious Dragon on.

`JournalInner.checkpointRevert_inexact` has a run for each of these conditions that needs it.
-/

set_option autoImplicit false

namespace Revm

section Conditions

variable {ε : Type} (db : Database ε)

/-- What a frame-level operation relies on for its entries to be reverted exactly. -/
def RevertOk (op : Op) (cfg : Config) : Prop :=
  match op with
  | .transferLoaded src dst balance =>
      ∀ r, cfg.journal.transferLoaded src dst balance = some r → r.1 ≠ some .overflowPayment
  | .createAccountCheckpoint _ target _ _ =>
      -- a collision is always reverted
      ∀ acc, cfg.journal.state.lookup target = some acc →
        acc.info.codeHash = keccakEmpty → acc.info.nonce = 0 →
        acc.isColdTransactionId 0 = false ∧ acc.isCreatedLocally = false
  | .setCode a _ =>
      ∀ acc, cfg.journal.state.lookup a = some acc → acc.info.codeHash = keccakEmpty
  | .selfdestruct a target =>
      ∀ acc, (cfg.journal.loadAccount db target).2.state.lookup a = some acc →
        acc.isColdTransactionId 0 = false
  | .account _ _ (.delegate _) => False
  | _ => True

/-- Before the checkpoint there may also be delegations, as long as no other checkpoint is open. -/
def EarlierOk (op : Op) (cfg : Config) : Prop :=
  RevertOk db op cfg ∨
    (cfg.frames = [] ∧ ∃ a loadCode target, op = .account a loadCode (.delegate target))

/-- What a revert gives back of an account that was loaded at the checkpoint. -/
structure Account.RestoredTo (spec : SpecId) (a : Address) (acc acc' : Account) : Prop extends
    acc'.Shows spec a acc.info acc.isTouched acc.isCreated acc.isSelfdestructed where
  createdLocal : acc'.isCreatedLocally = acc.isCreatedLocally
  selfDestructedLocal : acc'.isSelfdestructedLocally = acc.isSelfdestructedLocally
  loadedAsNotExisting : acc'.status.loadedAsNotExisting = acc.status.loadedAsNotExisting
  cold : acc'.isColdTransactionId 0 = acc.isColdTransactionId 0
  slot : ∀ k slot, acc.storage.lookup k = some slot →
    ∃ slot', acc'.storage.lookup k = some slot' ∧ slot'.presentValue = slot.presentValue ∧
      slot'.isColdTransactionId 0 = slot.isColdTransactionId 0 ∧
      (slot.isColdTransactionId 0 = false → slot'.originalValue = slot.originalValue)
  /-- A slot that was loaded after the checkpoint holds what it would be loaded with. -/
  newSlot : ∀ k slot' value, acc.storage.lookup k = none → acc'.storage.lookup k = some slot' →
    db.storage a k = .ok value → slot'.presentValue = if acc.isCreated then 0 else value

end Conditions

/-! ## The view of the first transaction -/

namespace Scope

variable {ε : Type} {db : Database ε} {spec : SpecId} {warm : WarmAddresses}

/-- The view in which every slot and the flag `CreatedLocal` are observed. -/
def first (db : Database ε) (spec : SpecId) (warm : WarmAddresses) : Scope ε where
  db := db
  spec := spec
  transactionId := 0
  warm := warm
  base := fun a k => some (db.storageValue a k)
  fresh := fun a => ∃ info, db.basic a = .ok info
  creates := True
  strict := true
  strict_first := fun _ => rfl

theorem first_noCodelessStorage (hdb : db.NoCodelessStorage) :
    (first db spec warm).NoCodelessStorage :=
  fun a k _ _ hfresh hcodeless => dbStorage_of_codeless hdb a k hfresh hcodeless

/-- The invariant holds of the empty journal. -/
theorem first_inv : (first db spec warm).Inv (JournalInner.new spec warm) where
  spec := rfl
  transactionId := rfl
  warm := rfl
  state := by
    intro a
    refine ⟨fun k v hbase => ?_, fun _ hbasic => hbasic⟩
    exact Option.some.inj hbase
  seen := ⟨fun _ a _ hcodeless => hcodeless, nofun⟩
  transient := nofun

/-- In the first transaction no account waits to be cleared. -/
theorem RevertOk.admissible {op : Op} {cfg : Config} (hinv : (first db spec warm).Inv cfg.journal)
    (hop : RevertOk db op cfg) : (first db spec warm).Admissible op cfg.journal := by
  have husable : ∀ a, (first db spec warm).Usable cfg.journal a :=
    fun a acc hl => (hinv.state.account hl).live (.inl rfl)
  cases op with
  | sload | sstore | touch => exact husable _
  | transferLoaded src dst balance => exact ⟨husable src, husable dst, hop⟩
  | createAccountCheckpoint caller target balance specId =>
    exact ⟨trivial, husable caller, husable target, fun _ => hop⟩
  | setCode a code => exact ⟨husable a, hop⟩
  | selfdestruct a target => exact ⟨trivial, hop⟩
  | account a loadCode change =>
    rintro target rfl
    exact absurd hop id
  | loadAccountOptional | loadAccountDelegated | tstore | log | checkpoint | checkpointCommit
  | checkpointRevert => trivial

/-- What is seen of an account determines it up to what a revert may leave different. -/
theorem restoredTo_of_see {a : Address} {acc acc' : Account}
    (hacc : (first db spec warm).AccountInv a acc) (hacc' : (first db spec warm).AccountInv a acc')
    (hkeep : ∀ k, (acc.storage.lookup k).isSome → (acc'.storage.lookup k).isSome)
    (hsee : (first db spec warm).seeAccount a acc' = (first db spec warm).seeAccount a acc) :
    acc.RestoredTo db spec a acc' := by
  have hlive : acc.isStale 0 = false := hacc.live (.inl rfl)
  have hlive' : acc'.isStale 0 = false := hacc'.live (.inl rfl)
  replace hsee := hsee.trans (seeAccount_of_live hlive)
  have hshows := shows_of_see hlive' (congrArg SeenAccount.still hsee) rfl rfl rfl rfl
  rw [seeAccount_of_live hlive', SeenAccount.mk.injEq] at hsee
  obtain ⟨-, -, -, -, -, hcreatedLocal, -, hdestroyedLocal, hnotExisting, hcold, hslots⟩ := hsee
  -- a cold account is not in the warm addresses, so its coldness is seen
  have hcold_eq : ∀ x : Account, (first db spec warm).AccountInv a x →
      (x.isColdTransactionId 0 && warm.isCold a) = x.isColdTransactionId 0 := by
    intro x hx
    cases hc : x.isColdTransactionId 0 with
    | false => rfl
    | true => exact (hx.clean rfl hc).1
  have hcold' : acc'.isColdTransactionId 0 = acc.isColdTransactionId 0 := by
    rw [← hcold_eq acc hacc, ← hcold_eq acc' hacc']
    exact hcold
  have hcreated_eq : ∀ x : Account, (first db spec warm).AccountInv a x →
      (true && x.isCreatedLocally && !x.isColdTransactionId 0) = x.isCreatedLocally := by
    intro x hx
    cases hc : x.isColdTransactionId 0 with
    | false => simp
    | true => simp [(hx.clean rfl hc).2]
  have hdestroyed_eq : ∀ x : Account, x.isStale 0 = false →
      (x.isSelfdestructedLocally && !x.isColdTransactionId 0) = x.isSelfdestructedLocally := by
    intro x hx
    unfold Account.isStale at hx
    cases hc : x.isColdTransactionId 0 with
    | false => simp
    | true =>
      rw [hc] at hx
      simpa using hx
  have hslot : ∀ k, (first db spec warm).seeSlot a k (acc'.storage.lookup k) =
      (first db spec warm).seeSlot a k (acc.storage.lookup k) := congrFun hslots
  refine ⟨hshows, ?_, ?_, hnotExisting, hcold', fun k slot hk => ?_,
    fun k slot' value hk hk' hvalue => ?_⟩
  · rw [← hcreated_eq acc hacc, ← hcreated_eq acc' hacc']
    exact hcreatedLocal
  · rw [← hdestroyed_eq acc hlive, ← hdestroyed_eq acc' hlive']
    exact hdestroyedLocal
  · obtain ⟨slot', hk'⟩ := Option.isSome_iff_exists.1 (hkeep k (by rw [hk]; rfl))
    have hseen := hslot k
    rw [hk, hk'] at hseen
    exact ⟨slot', hk', eq_of_seeSlot rfl hseen⟩
  · have hseen := hslot k
    rw [hk, hk'] at hseen
    simp only [seeSlot, first, Option.elim_some, Option.elim_none, SeenSlot.mk.injEq,
      Database.storageValue, hvalue] at hseen
    have hsettled : (acc.settledStorage 0).lookup k = none := by
      rw [Account.settledStorage, hlive]
      exact hk
    have hbacked := hacc.backed k value (by simp [first, Database.storageValue, hvalue]) hsettled
    rw [hseen.1, ← hbacked]
    split_ifs <;> rfl

/-- The journals that a run of the first transaction reaches. -/
theorem first_nested [Keccak256] (hdb : db.NoCodelessStorage) {before : List Op} {cfg₀ : Config}
    (hbefore : EachStep db (EarlierOk db) before ⟨.new spec warm, []⟩)
    (hrun : Revm.run db before ⟨.new spec warm, []⟩ = some cfg₀) :
    ∃ base below, (first db spec warm).Nested base cfg₀.frames below cfg₀.journal := by
  refine run_induction
    (I := fun cfg => ∃ base below, (first db spec warm).Nested base cfg.frames below cfg.journal)
    ?_ ⟨_, [], .base (.refl first_inv)⟩ hbefore hrun
  rintro op ⟨j, frames⟩ r ⟨base, below, hcfg⟩ hop hstep
  rcases hop with hop | ⟨hframes, a, loadCode, target, rfl⟩
  · obtain ⟨below', hr⟩ :=
      hcfg.step (first_noCodelessStorage hdb) (RevertOk.admissible hcfg.inv hop) hstep
    exact ⟨base, below', hr⟩
  · -- with no checkpoint open, only the invariant is needed
    obtain rfl : frames = [] := hframes
    cases hstep
    exact ⟨_, [], .base (.refl (hcfg.inv.delegate a loadCode target))⟩

end Scope

/-! ## The theorem -/

/-- Reverting a checkpoint of the first transaction gives back the journal at the checkpoint. -/
theorem JournalInner.checkpointRevert_exact {ε : Type} [Keccak256] (db : Database ε)
    (hdb : db.NoCodelessStorage) (spec : SpecId) (warm : WarmAddresses) (before ops : List Op)
    (cfg₀ : Config) (j : JournalInner)
    (hbefore : EachStep db (EarlierOk db) before ⟨.new spec warm, []⟩)
    (hrun₀ : run db before ⟨.new spec warm, []⟩ = some cfg₀)
    (hops : EachStep db (RevertOk db) ops ⟨cfg₀.journal.checkpoint.2, []⟩)
    (hrun : run db ops ⟨cfg₀.journal.checkpoint.2, []⟩ = some ⟨j, []⟩) :
    ∃ j', j.checkpointRevert cfg₀.journal.checkpoint.1 = some j' ∧
      j'.depth = cfg₀.journal.depth ∧ j'.logs = cfg₀.journal.logs ∧
      j'.journal = cfg₀.journal.journal ∧
      (∀ key, j'.transientStorage.lookup key = cfg₀.journal.transientStorage.lookup key) ∧
      ∀ a acc, cfg₀.journal.state.lookup a = some acc →
        ∃ acc', j'.state.lookup a = some acc' ∧ acc.RestoredTo db spec a acc' := by
  obtain ⟨base, below, hcfg⟩ := Scope.first_nested hdb hbefore hrun₀
  have hinv₀ := hcfg.inv
  -- the operations after the checkpoint form a run of their own
  have hops' : EachStep db (fun op cfg => (Scope.first db spec warm).Inv cfg.journal →
      (Scope.first db spec warm).Admissible op cfg.journal) ops ⟨cfg₀.journal.checkpoint.2, []⟩ :=
    hops.mono fun op cfg hop hinv => Scope.RevertOk.admissible hinv hop
  obtain ⟨below', hnested⟩ := Scope.Nested.run (c := Scope.first db spec warm)
    (Scope.first_noCodelessStorage hdb)
    ⟨[], .base (.refl (hinv₀.withDepth _))⟩ hops' hrun
  have hgrows : (Scope.first db spec warm).Grows cfg₀.journal.checkpoint.2 j := by
    cases hnested with
    | base grows => exact grows
  obtain ⟨j', hj', hrest⟩ := hgrows.revert hinv₀
  refine ⟨j', hj', hrest.depth, hrest.logs, hrest.journal, fun key => ?_, fun a acc hl => ?_⟩
  · exact Scope.NonZero.lookup_eq (hrest.inv.transient rfl) (hinv₀.transient rfl)
      (congrFun (congrArg Prod.snd hrest.view) key)
  · have hacc := hinv₀.state.account hl
    have hlive : acc.isStale 0 = false := hacc.live (.inl rfl)
    obtain ⟨acc', hl', -⟩ := hrest.keep.account a ⟨acc, hl, hlive⟩
    refine ⟨acc', hl', Scope.restoredTo_of_see hacc (hrest.inv.state.account hl')
      (fun k hk => ?_) ?_⟩
    · obtain ⟨slot, hslot⟩ := Option.isSome_iff_exists.1 hk
      obtain ⟨x, slot', hx, -, hslot'⟩ := hrest.keep.slot a k ⟨acc, slot, hl, hlive, hslot⟩
      obtain rfl : x = acc' := Option.some.inj (hx.symm.trans hl')
      rw [hslot']
      rfl
    · have hsee : (Scope.first db spec warm).see j'.state a =
          (Scope.first db spec warm).see cfg₀.journal.state a :=
        congrFun (congrArg Prod.fst hrest.view) a
      rwa [Scope.see_of_some hl, Scope.see_of_some hl'] at hsee

/-! ## Runs on a small database -/

/-- The contract loads its slot before the checkpoint. -/
def contractLoads : List Op := [.loadAccount 1, .sload 1 1 false, .tstore 1 1 4]

/-- It writes slots, transient storage, its nonce and its balance, partly in a frame that is
reverted on its own. -/
def contractWrites : List Op :=
  [.sstore 1 1 9 false, .sstore 1 2 8 false, .tstore 1 1 0, .account 1 false .bumpNonce,
    .checkpoint, .sstore 1 1 3 false, .loadCode 2, .checkpointRevert, .touch 2,
    .account 1 false (.decrBalance 2)]

theorem JournalInner.checkpointRevert_exact_contract : letI := lengthKeccak
    ∃ cfg₀ j j' acc acc',
      run contractDb contractLoads ⟨.new .prague .new, []⟩ = some cfg₀ ∧
      run contractDb contractWrites ⟨cfg₀.journal.checkpoint.2, []⟩ = some ⟨j, []⟩ ∧
      j.checkpointRevert cfg₀.journal.checkpoint.1 = some j' ∧
      j'.journal = cfg₀.journal.journal ∧
      cfg₀.journal.state.lookup 1 = some acc ∧ j'.state.lookup 1 = some acc' ∧
      acc.RestoredTo contractDb .prague 1 acc' := by
  let := lengthKeccak
  obtain ⟨cfg₀, hrun₀, ⟨acc, hl, -⟩, ⟨j, _⟩, hrun, rfl⟩ :
      ∃ cfg₀ ∈ run contractDb contractLoads ⟨.new .prague .new, []⟩,
        (∃ acc ∈ cfg₀.journal.state.lookup 1, True) ∧
        ∃ cfg ∈ run contractDb contractWrites ⟨cfg₀.journal.checkpoint.2, []⟩, cfg.frames = [] := by
    decide
  obtain ⟨j', hj', -, -, hjournal, -, haccounts⟩ := JournalInner.checkpointRevert_exact contractDb
    contractDb_noCodelessStorage .prague .new contractLoads contractWrites cfg₀ j
    (EachStep.of_forall (fun op hop cfg => .inl (by fin_cases hop <;> exact trivial)) _) hrun₀
    (EachStep.of_forall (fun op hop cfg => by fin_cases hop <;> exact trivial) _) hrun
  obtain ⟨acc', hl', hrest⟩ := haccounts 1 acc hl
  exact ⟨cfg₀, j, j', acc, acc', hrun₀, hrun, hj', hjournal, hl, hl', hrest⟩

/-- A field of an account at the checkpoint and after the revert. -/
def aroundRevert {α : Type} (spec : SpecId) (before ops : List Op) (a : Address)
    (f : Account → α) : Option (α × α) :=
  letI := lengthKeccak
  do
    let cfg₀ ← run contractDb before ⟨.new spec .new, []⟩
    let cfg ← run contractDb ops ⟨cfg₀.journal.checkpoint.2, []⟩
    if cfg.frames = [] then
      let j' ← cfg.journal.checkpointRevert cfg₀.journal.checkpoint.1
      let acc ← cfg₀.journal.state.lookup a
      let acc' ← j'.state.lookup a
      return (f acc, f acc')
    else none

/-- What is not given back without the conditions: the touch of `0x03`; the nonce of an account that
was destroyed while cold; the flag of an account that was created while cold; the flag of an account
that is created twice, which the code check allows before Spurious Dragon. -/
theorem JournalInner.checkpointRevert_inexact :
    aroundRevert .prague [.loadAccount precompile3] [.touch precompile3] precompile3
        Account.isTouched = some (false, true) ∧
      aroundRevert .shanghai [.checkpoint, .loadAccount 1, .checkpointRevert]
        [.selfdestruct 1 2, .loadAccount 1] 1 (·.info.nonce) = some (1, 0) ∧
      aroundRevert .prague
        [.loadAccount 1, .checkpoint, .loadAccount 2, .checkpointRevert,
          .createAccountCheckpoint 1 2 0 .prague, .checkpointCommit]
        [.loadAccount 2] 2 Account.isCreatedLocally = some (true, false) ∧
      aroundRevert .homestead
        [.loadAccount 1, .loadAccount 2, .createAccountCheckpoint 1 2 0 .homestead,
          .checkpointCommit] [.createAccountCheckpoint 1 2 0 .homestead, .checkpointCommit] 2
        Account.isCreatedLocally = some (true, false) := by
  decide

end Revm
