import Revm.Journal.Nested

/-!
# Discarding a transaction

`discard_tx` takes back everything a failed transaction did, at any transaction number:
`JournalInner.discardTx_restores`. An account that was in the state is given back with its info, its
slots and its flags, an account that was not is left as the database has it. Left out are an account
that an earlier transaction destroyed, which its next load clears for good, and the touch of `0x03`.

`DiscardOk` is what the operations rely on: accounts are used after they were loaded, an overflowing
transfer does not happen, and code is only set where there is none.
`JournalInner.discardTx_loses` shows what is lost otherwise.
-/

set_option autoImplicit false

namespace Revm

variable {ε : Type} {cfg : Config} {ops : List Op} {s' : EvmState} {a : Address}

section Conditions

variable (db : Database ε)

/-- What an operation of a transaction relies on for `discard_tx` to take it back. -/
def DiscardOk (op : Op) (cfg : Config) : Prop :=
  -- an account that an earlier transaction destroyed has to be loaded before it is used
  let loaded (a : Address) := ∀ acc, cfg.journal.state.lookup a = some acc →
    acc.isStale cfg.journal.transactionId = false
  match op with
  | .sload a _ _ => loaded a
  | .sstore a _ _ _ => loaded a
  | .touch a => loaded a
  | .transferLoaded src dst balance =>
      loaded src ∧ loaded dst ∧
        ∀ r, cfg.journal.transferLoaded src dst balance = some r → r.1 ≠ some .overflowPayment
  | .createAccountCheckpoint caller target _ _ => loaded caller ∧ loaded target
  | .setCode a _ =>
      loaded a ∧ ∀ acc, cfg.journal.state.lookup a = some acc → acc.info.codeHash = keccakEmpty
  | .selfdestruct a target =>
      ∀ acc, (cfg.journal.loadAccount db target).2.state.lookup a = some acc →
        acc.isColdTransactionId cfg.journal.transactionId = false
  | .account a loadCode (.delegate _) =>
      ∀ load, (cfg.journal.loadAccountMutOptionalCode db a loadCode false).1 = .ok load →
        load.data.info.codeHash = keccakEmpty
  | _ => True

end Conditions

/-- An account after the transaction was discarded is the account before it. -/
structure Account.Undone (spec : SpecId) (a : Address) (acc acc' : Account) : Prop extends
    acc'.Shows spec a acc.info acc.isTouched acc.isCreated acc.isSelfdestructed where
  slot : ∀ k slot, acc.storage.lookup k = some slot →
    ∃ slot', acc'.storage.lookup k = some slot' ∧ slot'.presentValue = slot.presentValue

/-- A newly loaded account is as the database has it. -/
abbrev Account.LikeDatabase (spec : SpecId) (a : Address) (info : AccountInfo) (acc' : Account) :
    Prop :=
  acc'.Shows spec a info false false false

/-- The slots of an account are as the database has them. -/
def Account.SlotsLikeDatabase (db : Database ε) (a : Address) (acc' : Account) : Prop :=
  ∀ k slot value, acc'.storage.lookup k = some slot → db.storage a k = .ok value →
    slot.presentValue = value

/-! ## The view of a later transaction -/

namespace Scope

variable {db : Database ε} {j : JournalInner} {observe : Bool}

/-- The view in which the slots that were loaded before are observed, and those of new accounts if
asked for. -/
def later (db : Database ε) (j : JournalInner) (observe : Bool) : Scope ε where
  db := db
  spec := j.spec
  transactionId := j.transactionId
  warm := j.warmAddresses
  base := fun a k =>
    match j.state.lookup a with
    | some acc =>
        if acc.isStale j.transactionId then none
        else (acc.storage.lookup k).map (·.presentValue)
    | none =>
        if observe then some (db.storageValue a k) else none
  fresh := fun a => j.state.lookup a = none ∧ ∃ info, db.basic a = .ok info
  creates := True
  strict := false
  strict_first := first_of_lax j

theorem later_noCodelessStorage (hdb : observe = true → db.NoCodelessStorage) :
    (later db j observe).NoCodelessStorage := by
  intro a k v hbase hfresh hcodeless
  refine dbStorage_of_codeless (hdb ?_) a k hfresh.2 hcodeless
  simp only [later, hfresh.1] at hbase
  cases observe with
  | true => rfl
  | false => cases hbase

/-- The invariant holds of every journal whose flags agree. -/
theorem later_inv_of_flags
    (hflags : ∀ a acc, j.state.lookup a = some acc → acc.isSelfdestructedLocally = true →
      acc.isColdTransactionId j.transactionId = false → acc.isSelfdestructed = true) :
    (later db j observe).Inv j where
  spec := rfl
  transactionId := rfl
  warm := rfl
  state := by
    intro a
    cases hl : j.state.lookup a with
    | none =>
      refine ⟨fun k v hbase => ?_, fun _ hbasic => ⟨hl, hbasic⟩⟩
      simp only [later, hl] at hbase
      cases observe with
      | true => exact Option.some.inj hbase
      | false => cases hbase
    | some acc =>
      -- only loaded slots are observed
      have hnone : ∀ k v, (later db j observe).base a k = some v →
          (acc.settledStorage j.transactionId).lookup k ≠ none := by
        intro k v hbase hk
        simp only [later, hl] at hbase
        cases hstale : acc.isStale j.transactionId with
        | true =>
          rw [hstale] at hbase
          cases hbase
        | false =>
          simp only [Account.settledStorage, hstale, Bool.false_eq_true, if_false] at hk hbase
          rw [hk] at hbase
          cases hbase
      refine ⟨fun k v hbase hk => absurd hk (hnone k v hbase),
        fun _ k v hbase hk => absurd hk (hnone k v hbase), fun hlive => ?_, by rintro ⟨⟩⟩
      rcases hlive with hs | hfresh
      · cases hs
      · exact absurd (hl.symm.trans hfresh.1) (Option.some_ne_none acc)
  seen := by
    refine ⟨fun _ a hfresh hcodeless => ?_, fun _ a hlocal => ?_⟩
    · rw [see_of_none hfresh.1] at hcodeless
      exact hcodeless
    · cases hl : j.state.lookup a with
      | none =>
        rw [see_of_none hl] at hlocal
        cases hlocal
      | some acc =>
        rw [see_of_some hl] at hlocal
        simp only [seeAccount, Bool.and_eq_true, Bool.not_eq_true'] at hlocal
        rw [see_of_some hl]
        exact hflags a acc hl hlocal.1 hlocal.2
  transient := by rintro ⟨⟩

/-- The invariant holds at the start of a transaction. -/
theorem later_inv (hleft : j.AllCold) : (later db j observe).Inv j := by
  refine later_inv_of_flags fun a acc hl _ hwarm => ?_
  rw [hleft a acc hl] at hwarm
  cases hwarm

theorem DiscardOk.admissible {op : Op} (hinv : (later db j observe).Inv cfg.journal)
    (hop : DiscardOk db op cfg) : (later db j observe).Admissible op cfg.journal := by
  have htid : cfg.journal.transactionId = (later db j observe).transactionId := hinv.transactionId
  unfold DiscardOk at hop
  rw [htid] at hop
  cases op with
  | sload | sstore | touch | setCode | transferLoaded => exact hop
  | selfdestruct a target => exact ⟨trivial, hop⟩
  | createAccountCheckpoint caller target balance specId =>
    exact ⟨trivial, hop.1, hop.2, nofun⟩
  | account a loadCode change =>
    rintro target rfl
    exact hop
  | loadAccountOptional | loadAccountDelegated | tstore | log | checkpoint | checkpointCommit
  | checkpointRevert => trivial

theorem later_admissible [Keccak256] (hops : EachStep db (DiscardOk db) ops cfg) :
    EachStep db (fun op cfg => (later db j observe).Inv cfg.journal →
      (later db j observe).Admissible op cfg.journal) ops cfg :=
  hops.mono fun _ _ hop hinv => DiscardOk.admissible hinv hop

variable (observe) in
/-- After the loop of `discard_tx` the accounts are seen as they were at the start. -/
theorem later_discard [Keccak256] (hdb : observe = true → db.NoCodelessStorage)
    (hempty : j.journal = []) (hleft : j.AllCold) (hops : EachStep db (DiscardOk db) ops ⟨j, []⟩)
    (hrun : Revm.run db ops ⟨j, []⟩ = some cfg) : ∃ s',
      cfg.journal.discardTx = some { cfg.journal with
        state := s'
        journal := []
        transientStorage := ∅
        depth := 0
        logs := []
        transactionId := cfg.journal.transactionId + 1
        warmAddresses := cfg.journal.warmAddresses.clearCoinbaseAndAccessList } ∧
      (later db j observe).StateInv s' ∧ (later db j observe).Persists j.state s' ∧
      (later db j observe).see s' = (later db j observe).see j.state := by
  have hinv₀ : (later db j observe).Inv j := later_inv hleft
  obtain ⟨below, hnested⟩ := Nested.run (c := later db j observe) (later_noCodelessStorage hdb)
    ⟨[], .base (.refl hinv₀)⟩ (later_admissible hops) hrun
  have hinv := hnested.inv
  obtain ⟨hundo, hkeep, es', hes', hlive⟩ := hnested.undo
  obtain ⟨es, hes, hguard, hview⟩ := hundo.fst
  rw [hempty, List.nil_append] at hes hes'
  subst hes hes'
  obtain ⟨s', hloop, hbecomes⟩ := discardAll_becomes hinv.state hlive hguard
  refine ⟨s', ?_, hbecomes.inv, hkeep.trans hbecomes.keep, hbecomes.see.trans hview⟩
  simp only [JournalInner.discardTx, hinv.spec, hloop]
  rfl

theorem undone_of_see (hkeep : (later db j observe).Persists j.state s') {acc : Account}
    (hseen : ((later db j observe).see s' a).still = ((later db j observe).see j.state a).still)
    (hl : j.state.lookup a = some acc) (hstale : acc.isStale j.transactionId = false) :
    ∃ acc', s'.lookup a = some acc' ∧ acc.Undone j.spec a acc' := by
  obtain ⟨acc', hl', hstale'⟩ := hkeep.account a ⟨acc, hl, hstale⟩
  rw [see_of_some hl, see_of_some hl'] at hseen
  replace hseen := hseen.trans (congrArg SeenAccount.still (seeAccount_of_live hstale))
  refine ⟨acc', hl', shows_of_see hstale' hseen rfl rfl rfl rfl, fun k slot hk => ?_⟩
  obtain ⟨x, slot', hx, -, hk'⟩ := hkeep.slot a k ⟨acc, slot, hl, hstale, hk⟩
  obtain rfl : x = acc' := Option.some.inj (hx.symm.trans hl')
  have hbase : (later db j observe).base a k = some slot.presentValue := by
    simp [later, hl, hstale, hk]
  have hslot : (((later db j observe).seeAccount a x).slot k).present =
      ((later db j observe).seeSlot a k (acc.storage.lookup k)).present :=
    congrArg (fun y => (y.slot k).present) hseen
  rw [slot_see hstale'] at hslot
  simp only [seeSlot, hbase, hk, hk', Option.elim_some] at hslot
  exact ⟨slot', hk', hslot⟩

theorem likeDatabase_of_see (hinv : (later db j observe).StateInv s') {acc' : Account}
    {info : Option AccountInfo}
    (hseen : ((later db j observe).see s' a).still = ((later db j observe).see j.state a).still)
    (hl : j.state.lookup a = none) (hl' : s'.lookup a = some acc') (hinfo : db.basic a = .ok info) :
    acc'.LikeDatabase j.spec a (info.getD AccountInfo.default) ∧
      (observe = true → acc'.SlotsLikeDatabase db a) := by
  have hstale : acc'.isStale j.transactionId = false :=
    (hinv.account hl').live (.inr ⟨hl, info, hinfo⟩)
  rw [see_of_none hl, see_of_some hl', unloaded, dbInfo_of_basic hinfo] at hseen
  refine ⟨shows_of_see hstale hseen rfl rfl rfl rfl, ?_⟩
  rintro rfl k slot value hk hvalue
  have hbase : (later db j true).base a k = some value := by
    simp [later, hl, Database.storageValue, hvalue]
  have hslot : (((later db j true).seeAccount a acc').slot k).present =
      ((later db j true).seeSlot a k none).present := congrArg (fun y => (y.slot k).present) hseen
  rw [slot_see hstale] at hslot
  simpa only [seeSlot, hbase, hk, Option.elim_some, Option.elim_none] using hslot

end Scope

/-! ## The theorem -/

/-- `discard_tx` takes back a whole transaction. -/
theorem JournalInner.discardTx_restores {ε : Type} [Keccak256] (db : Database ε) (j : JournalInner)
    (hempty : j.journal = []) (hleft : j.AllCold) (ops : List Op) (cfg : Config)
    (hops : EachStep db (DiscardOk db) ops ⟨j, []⟩) (hrun : run db ops ⟨j, []⟩ = some cfg) :
    ∃ j', cfg.journal.discardTx = some j' ∧
      (∀ a acc, j.state.lookup a = some acc → acc.isSelfdestructedLocally = false →
        ∃ acc', j'.state.lookup a = some acc' ∧ acc.Undone j.spec a acc') ∧
      (∀ a acc' info, j.state.lookup a = none → j'.state.lookup a = some acc' →
        db.basic a = .ok info →
        acc'.LikeDatabase j.spec a (info.getD AccountInfo.default) ∧
          (db.NoCodelessStorage → acc'.SlotsLikeDatabase db a)) ∧
      j'.journal = [] ∧ j'.logs = [] ∧ j'.transientStorage = ∅ ∧ j'.depth = 0 ∧
      j'.warmAddresses.coinbase = none ∧ j'.warmAddresses.accessList = ∅ := by
  obtain ⟨s', hdiscard, hinv, hkeep, hsee⟩ :=
    Scope.later_discard false nofun hempty hleft hops hrun
  refine ⟨_, hdiscard, fun a acc hl hlocal => ?_,
    fun a acc' info hl hl' hinfo => ⟨?_, fun hdb => ?_⟩, rfl, rfl, rfl, rfl, rfl, rfl⟩
  · exact Scope.undone_of_see hkeep (congrArg SeenAccount.still (congrFun hsee a)) hl
      (Scope.isStale_of_not_destroyed _ hlocal)
  · exact (Scope.likeDatabase_of_see hinv (congrArg SeenAccount.still (congrFun hsee a)) hl hl'
      hinfo).1
  · -- the slots of new accounts are observed in a view of their own
    obtain ⟨s'', hdiscard', hinv', -, hsee'⟩ :=
      Scope.later_discard true (fun _ => hdb) hempty hleft hops hrun
    obtain rfl : s' = s'' :=
      congrArg JournalInner.state (Option.some.inj (hdiscard.symm.trans hdiscard'))
    exact (Scope.likeDatabase_of_see hinv' (congrArg SeenAccount.still (congrFun hsee' a)) hl hl'
      hinfo).2 rfl

/-! ## Runs on a small database -/

/-- The contract pays, its nonce is bumped and another account is funded, partly in an open
frame. -/
def contractPays : List Op :=
  [.account 1 false (.decrBalance 2), .account 1 false .bumpNonce, .loadCode 2, .tstore 1 1 4,
    .checkpoint, .account 2 false (.incrBalance 2), .loadAccountDelegated 4]

/-- The transaction before wrote the slot of the contract. -/
def contractWrote : Option Config :=
  letI := lengthKeccak
  run contractDb [.loadAccount 1, .sstore 1 1 9 false] ⟨.new .prague .new, []⟩

theorem JournalInner.discardTx_restores_contract : letI := lengthKeccak
    ∃ cfg₀ cfg j' acc acc',
      contractWrote = some cfg₀ ∧
      run contractDb contractPays ⟨cfg₀.journal.commitTx, []⟩ = some cfg ∧
      cfg.journal.discardTx = some j' ∧
      cfg₀.journal.state.lookup 1 = some acc ∧ j'.state.lookup 1 = some acc' ∧
      acc.Undone .prague 1 acc' := by
  let := lengthKeccak
  obtain ⟨cfg₀, hrun₀, hspec, hleft, ⟨acc, hl, hlocal⟩, cfg, hrun, -⟩ :
      ∃ cfg₀ ∈ contractWrote, cfg₀.journal.spec = .prague ∧
        (∀ e ∈ cfg₀.journal.state.entries,
          e.2.isColdTransactionId cfg₀.journal.commitTx.transactionId = true) ∧
        (∃ acc ∈ cfg₀.journal.state.lookup 1, acc.isSelfdestructedLocally = false) ∧
        ∃ cfg ∈ run contractDb contractPays ⟨cfg₀.journal.commitTx, []⟩, True := by decide
  obtain ⟨j', hj', hold, -⟩ := JournalInner.discardTx_restores contractDb cfg₀.journal.commitTx rfl
    (fun a acc hl => hleft ⟨a, acc⟩ (AList.mem_lookup_iff.1 hl))
    contractPays cfg (EachStep.of_forall (fun op hop cfg => by fin_cases hop <;> exact trivial) _)
      hrun
  obtain ⟨acc', hl', hundone⟩ := hold 1 acc hl hlocal
  rw [show cfg₀.journal.commitTx.spec = .prague from hspec] at hundone
  exact ⟨cfg₀, cfg, j', acc, acc', hrun₀, hrun, hj', hl, hl', hundone⟩

/-- Account `1` delegates to account `4`. -/
def delegatedDb : Database Empty where
  basic a :=
    .ok (if a = 1 then some { AccountInfo.default with nonce := 1, codeHash := 9 } else none)
  codeByHash _ := .ok (Bytecode.newEip7702 4)
  storage _ _ := .ok 0

/-- A field of an account before a transaction and after it was discarded. -/
def aroundDiscard {α : Type} (db : Database Empty) (spec : SpecId) (before ops : List Op)
    (a : Address) (f : Account → α) : Option (Option α × Option α) :=
  letI := lengthKeccak
  do
    let cfg₀ ← run db before ⟨.new spec .new, []⟩
    let cfg ← run db ops ⟨cfg₀.journal.commitTx, []⟩
    let j' ← cfg.journal.discardTx
    return ((cfg₀.journal.state.lookup a).map f, (j'.state.lookup a).map f)

/-- What is not given back without the conditions: the touch of `0x03`; the nonce of an account that
was destroyed in the transaction before, which the load cleared; the balance sent by an overflowing
transfer; the code hash of an account that delegates again; the nonce of an account that comes from
the database and is loaded again after it was destroyed. -/
theorem JournalInner.discardTx_loses :
    aroundDiscard contractDb .prague [.loadAccount precompile3] [.touch precompile3] precompile3
        Account.isTouched = some (some false, some true) ∧
      aroundDiscard contractDb .shanghai [.loadAccount 1, .selfdestruct 1 2] [.loadAccount 1] 1
        (·.info.nonce) = some (some 1, some 0) ∧
      aroundDiscard contractDb .prague
        [.loadAccount 1, .account 2 false (.setBalance (BitVec.allOnes 256))]
        [.transferLoaded 1 2 5] 1 (·.info.balance) = some (some 5, some 0) ∧
      aroundDiscard delegatedDb .prague [.loadAccount 1] [.account 1 true (.delegate 5)] 1
        (·.info.codeHash) = some (some 9, some keccakEmpty) ∧
      aroundDiscard contractDb .shanghai [] [.loadAccount 1, .selfdestruct 1 2, .loadAccount 1] 1
        (·.info.nonce) = some (none, some 0) := by
  decide

end Revm
