import Revm.Journal.Accesses

/-!
# Warm and cold accounts

EIP-2929 charges the first access to an account in a transaction. `JournalInner.load_isCold_iff`
says that a load answers `is_cold` exactly for an address that is neither warm by precompile,
coinbase or access list nor loaded earlier in the transaction by a load that survives, whatever the
number of the transaction and the nesting of reverted checkpoints.

This needs that a load which has to ask the database marks the account with the current transaction.
`From<AccountInfo>` writes transaction id `0` instead, so in every later transaction such an account
is cold at its second load as well (`JournalInner.load_isCold_again`). `LoadOk` excludes it.
-/

set_option autoImplicit false

namespace Revm

open WarmAddresses JournalInner

variable {ε : Type} {skipColdLoad loadCode : Bool} {loaded : List Address} {base : JournalInner}
  {cfg : Config} {s : Surviving Address}

section Conditions

variable (db : Database ε)

/-- The load gets past the state map and the database. It may still fail to read the code. -/
def JournalInner.finds (self : JournalInner) (a : Address) (skipColdLoad : Bool) : Bool :=
  match self.loadEntry db a skipColdLoad with
  | .ok _ => true
  | .error _ => false

/-- The accounts that an operation loads. -/
def loads (op : Op) (j : JournalInner) : List Address :=
  match op with
  | .loadAccountOptional a _ skipColdLoad => if j.finds db a skipColdLoad then [a] else []
  | .loadAccountDelegated a =>
      let found := if j.finds db a false then [a] else []
      match j.loadAccountOptional db a (j.spec.isEnabledIn .prague) false with
      | (.ok account, j') =>
          match account.data.info.code with
          | some (.eip7702 delegated _ _) =>
              (if j'.finds db delegated false then [delegated] else []) ++ found
          | _ => found
      | (.error _, _) => found
  | _ => []

/-- The operations that load accounts, and checkpoints. -/
def Op.isLoad : Op → Bool
  | .loadAccountOptional .. | .loadAccountDelegated _ => true
  | .checkpoint | .checkpointCommit | .checkpointRevert => true
  | _ => false

/-- The account has the designator of a delegation to `delegated` as its code. -/
def Delegates (j : JournalInner) (a delegated : Address) : Prop :=
  ∃ account version raw,
    (j.loadAccountOptional db a (j.spec.isEnabledIn .prague) false).1 = .ok account ∧
      account.data.info.code = some (.eip7702 delegated version raw)

/-- A load of the account marks it with the current transaction, or it does not matter. -/
def LoadOk (j : JournalInner) (a : Address) : Prop :=
  j.transactionId = 0 ∨ (j.state.lookup a).isSome ∨ db.basic a = .ok none ∨
    j.warmAddresses.isWarm a = true

end Conditions

namespace Scope

variable {c : Scope ε} {j : JournalInner} {a : Address}

variable (c) in
/-- An account is seen as cold if it is not among the warm addresses and not among the loaded
ones. -/
def ColdAccounts (v : Seen) (loaded : List Address) : Prop :=
  ∀ a, (v a).cold = (c.warm.isCold a && decide (a ∉ loaded))

/-- After a load the account is warm for the current transaction. -/
theorem loadEntry_warm (h : c.Inv j) {entry : StateLoad Account}
    (hentry : j.loadEntry c.db a skipColdLoad = .ok entry) (hok : LoadOk c.db j a) :
    (entry.data.isColdTransactionId c.transactionId && c.warm.isCold a) = false := by
  cases found_of_loadEntry hentry with
  | cold =>
    rw [h.transactionId, isColdTransactionId_warmUp]
    rfl
  | warm acc hl hwarm =>
    rw [h.transactionId] at hwarm
    rw [hwarm]
    rfl
  | stored info hl hbasic =>
    unfold LoadOk at hok
    rw [h.transactionId, h.warm, hl, hbasic] at hok
    rcases hok with hfirst | hsome | hnone | hwarm
    · simp [Account.isColdTransactionId, Account.ofInfo, AccountFlags.empty, hfirst]
    · cases hsome
    · cases hnone
    · simp [isCold, hwarm]
  | absent =>
    rw [h.transactionId]
    simp [Account.isColdTransactionId, Account.newNotExisting, AccountFlags.empty]

/-- One load. -/
theorem load_coldAccounts (h : c.Inv j) (hcold : c.ColdAccounts (c.see j.state) loaded)
    {r : LoadAnswer ε Account × JournalInner}
    (hr : j.loadAccountOptional c.db a loadCode skipColdLoad = r)
    (hok : j.finds c.db a skipColdLoad = true → LoadOk c.db j a) : c.Grows j r.2 ∧
      c.ColdAccounts (c.see r.2.state)
        ((if j.finds c.db a skipColdLoad then [a] else []) ++ loaded) ∧
      ∀ load, r.1 = .ok load → load.isCold = (c.warm.isCold a && decide (a ∉ loaded)) := by
  unfold finds at hok ⊢
  rcases h.load_cases hr with ⟨e, hentry, rfl⟩ | ⟨entry, hentry, hgrow, -, hsee, hanswer⟩
  · rw [hentry]
    exact ⟨Grows.refl h, hcold, fun load hload => by cases hload⟩
  · rw [hentry] at hok ⊢
    refine ⟨hgrow, fun b => ?_, fun load hload => ?_⟩
    · rw [hsee, loadEntry_warm h hentry (hok rfl)]
      by_cases hb : b = a
      · subst hb
        rw [Seen.modify_self]
        simp
      · rw [Seen.modify_of_ne _ hb, hcold b]
        simp [hb]
    · rw [(hanswer load hload).isCold, hcold a]

/-- A load that answers has found the account, and what another account needs is not taken away. -/
theorem of_load_ok (h : c.Inv j) {load : StateLoad Account}
    {j' : JournalInner} (hr : j.loadAccountOptional c.db a loadCode skipColdLoad = (.ok load, j')) :
    j.finds c.db a skipColdLoad = true ∧ ∀ b, LoadOk c.db j b → LoadOk c.db j' b := by
  rcases h.load_cases hr with ⟨e, -, herr⟩ | ⟨entry, hentry, hgrow, hother, -, hanswer⟩
  · cases herr
  · refine ⟨by simp [finds, hentry], fun b hok => ?_⟩
    rcases hok with hfirst | hsome | hnone | hwarm
    · exact .inl (by rw [hgrow.inv.transactionId, ← h.transactionId, hfirst])
    · refine .inr (.inl ?_)
      by_cases hb : b = a
      · rw [hb, (hanswer load rfl).lookup]
        rfl
      · rw [hother b hb]
        exact hsome
    · exact .inr (.inr (.inl hnone))
    · exact .inr (.inr (.inr (by rw [hgrow.inv.warm, ← h.warm, hwarm])))

/-- `load_account_delegated`, which loads one or two accounts. -/
theorem loadDelegated_coldAccounts (h : c.Inv j) (hcold : c.ColdAccounts (c.see j.state) loaded)
    {r : LoadAnswer ε AccountLoad × JournalInner} (hr : j.loadAccountDelegated c.db a = r)
    (hok : ∀ b ∈ loads c.db (.loadAccountDelegated a) j, LoadOk c.db j b) : c.Grows j r.2 ∧
      c.ColdAccounts (c.see r.2.state) (loads c.db (.loadAccountDelegated a) j ++ loaded) ∧
      ∀ load, r.1 = .ok load →
        load.isCold = (c.warm.isCold a && decide (a ∉ loaded)) ∧
        ∀ cold, load.data.isDelegateAccountCold = some cold →
          ∃ delegated, Delegates c.db j a delegated ∧
            cold = (c.warm.isCold delegated && decide (delegated ∉ a :: loaded)) := by
  unfold loadAccountDelegated at hr
  simp only [loads] at hok ⊢
  cases hfirst : j.loadAccountOptional c.db a (j.spec.isEnabledIn .prague) false with
  | mk result j₁ =>
    rw [hfirst] at hr hok
    have hstep := load_coldAccounts h hcold hfirst
    cases result with
    | error e =>
      subst hr
      obtain ⟨hgrow, hcold₁, -⟩ := hstep fun hfinds => hok a (by simp [hfinds])
      exact ⟨hgrow, hcold₁, fun load hload => by cases hload⟩
    | ok account =>
      obtain ⟨hfinds, hkeep⟩ := of_load_ok h hfirst
      simp only [hfinds, if_true] at hok hstep ⊢
      dsimp only at hr
      cases hcode : account.data.info.code with
      | none =>
        rw [hcode] at hr hok
        subst hr
        obtain ⟨hgrow, hcold₁, hanswer⟩ := hstep fun _ => hok a List.mem_cons_self
        refine ⟨hgrow, hcold₁, fun load hload => ?_⟩
        cases hload
        exact ⟨hanswer account rfl, fun cold hdelegate => by cases hdelegate⟩
      | some code =>
        cases code with
        | legacyAnalyzed bytes =>
          rw [hcode] at hr hok
          subst hr
          obtain ⟨hgrow, hcold₁, hanswer⟩ := hstep fun _ => hok a List.mem_cons_self
          refine ⟨hgrow, hcold₁, fun load hload => ?_⟩
          cases hload
          exact ⟨hanswer account rfl, fun cold hdelegate => by cases hdelegate⟩
        | eip7702 delegated version raw =>
          rw [hcode] at hr hok
          dsimp only at hr hok ⊢
          obtain ⟨hgrow, hcold₁, hanswer⟩ :=
            hstep fun _ => hok a (List.mem_append_right _ List.mem_cons_self)
          cases hsecond : j₁.loadAccountOptional c.db delegated true false with
          | mk result₂ j₂ =>
            rw [hsecond] at hr
            obtain ⟨hgrow₂, hcold₂, hanswer₂⟩ := load_coldAccounts hgrow.inv hcold₁ hsecond
              fun hfinds₂ => hkeep delegated (hok delegated (by simp [hfinds₂]))
            rw [List.append_assoc]
            cases result₂ with
            | error e =>
              subst hr
              exact ⟨hgrow.trans hgrow₂, hcold₂, fun load hload => by cases hload⟩
            | ok delegateAccount =>
              subst hr
              refine ⟨hgrow.trans hgrow₂, hcold₂, fun load hload => ?_⟩
              cases hload
              refine ⟨hanswer account rfl, fun cold hdelegate => ?_⟩
              cases hdelegate
              exact ⟨delegated, ⟨account, version, raw, by rw [hfirst], hcode⟩,
                hanswer₂ delegateAccount rfl⟩

/-- The operations of the run keep the relation. -/
theorem tracked_load [Keccak256] {op : Op} {r : Output ε × Config} (hop : op.isLoad = true)
    (hbracket : op.isBracket = false)
    (hok : ∀ b ∈ loads c.db op cfg.journal, LoadOk c.db cfg.journal b)
    (h : c.Tracked c.ColdAccounts base cfg s) (hstep : Revm.step c.db op cfg = some r) :
    c.Tracked c.ColdAccounts base r.2 (s.step op (loads c.db op cfg.journal)) := by
  obtain ⟨j, frames⟩ := cfg
  have hinv := h.inv
  obtain ⟨-, -, hcold, -⟩ := id h
  cases op with
  | loadAccountOptional b loadCode skip =>
    cases hstep
    obtain ⟨hgrow, hcold', -⟩ := load_coldAccounts hinv hcold
      (rfl : j.loadAccountOptional c.db b loadCode skip = _) fun hfinds =>
        hok b (by simp [loads, hfinds])
    exact h.grow _ hgrow hcold'
  | loadAccountDelegated b =>
    cases hstep
    obtain ⟨hgrow, hcold', -⟩ := loadDelegated_coldAccounts hinv hcold rfl hok
    exact h.grow _ hgrow hcold'
  | checkpoint | checkpointCommit | checkpointRevert => cases hbracket
  | _ => cases hop

end Scope

/-! ## The theorem -/

/-- An account counts as warm without having been loaded. -/
def WarmAddresses.Listed (w : WarmAddresses) (a : Address) : Prop :=
  w.coinbase = some a ∨ a ∈ w.accessList ∨ a ∈ w.precompileSet

theorem WarmAddresses.cold_iff (w : WarmAddresses) (a : Address) (loaded : List Address) :
    (w.isCold a && decide (a ∉ loaded)) = true ↔ ¬w.Listed a ∧ a ∉ loaded := by
  unfold isCold WarmAddresses.Listed
  rw [← w.isWarm_iff a]
  simp

/-- What the loads answer while the relation holds. -/
theorem Scope.Tracked.isCold_iff {c : Scope ε} (h : c.Tracked c.ColdAccounts base cfg s) :
    (∀ a loadCode skipColdLoad load,
      (cfg.journal.loadAccountOptional c.db a loadCode skipColdLoad).1 = .ok load →
      (load.isCold = true ↔ ¬c.warm.Listed a ∧ a ∉ s.kept)) ∧
    ∀ a load,
      (∀ b ∈ loads c.db (.loadAccountDelegated a) cfg.journal, LoadOk c.db cfg.journal b) →
      (cfg.journal.loadAccountDelegated c.db a).1 = .ok load →
      (load.isCold = true ↔ ¬c.warm.Listed a ∧ a ∉ s.kept) ∧
      ∀ cold, load.data.isDelegateAccountCold = some cold →
        ∃ delegated, Delegates c.db cfg.journal a delegated ∧
          (cold = true ↔ ¬c.warm.Listed delegated ∧ delegated ∉ a :: s.kept) := by
  have hinv := h.inv
  obtain ⟨-, -, hcold, -⟩ := h
  refine ⟨fun a loadCode skip load hload => ?_, fun a load hok hload => ?_⟩
  · have hres := (hinv.load (rfl : cfg.journal.loadAccountOptional c.db a loadCode skip = _)).2
      load hload
    rw [hres.isCold, hcold a]
    exact cold_iff _ _ _
  · obtain ⟨-, -, hanswer⟩ := Scope.loadDelegated_coldAccounts hinv hcold rfl hok
    obtain ⟨hisCold, hdelegate⟩ := hanswer load hload
    refine ⟨?_, fun cold hsome => ?_⟩
    · rw [hisCold]
      exact cold_iff _ _ _
    · obtain ⟨delegated, hdelegates, rfl⟩ := hdelegate cold hsome
      exact ⟨delegated, hdelegates, cold_iff _ _ _⟩

/-- A load answers cold exactly for an address that is not listed and that no surviving load has
loaded in the transaction. -/
theorem JournalInner.load_isCold_iff {ε : Type} [Keccak256] (db : Database ε) (j : JournalInner)
    (hleft : j.AllCold) (ops : List Op) (cfg : Config)
    (hops : EachStep db (fun op cfg => op.isLoad = true ∧
      ∀ a ∈ loads db op cfg.journal, LoadOk db cfg.journal a) ops ⟨j, []⟩)
    (hrun : run db ops ⟨j, []⟩ = some cfg) :
    let loaded := (survivors db (loads db) ops ⟨j, []⟩ .empty).kept
    (∀ a loadCode skipColdLoad load,
      (cfg.journal.loadAccountOptional db a loadCode skipColdLoad).1 = .ok load →
      (load.isCold = true ↔ ¬j.warmAddresses.Listed a ∧ a ∉ loaded)) ∧
    ∀ a load, (∀ b ∈ loads db (.loadAccountDelegated a) cfg.journal, LoadOk db cfg.journal b) →
      (cfg.journal.loadAccountDelegated db a).1 = .ok load →
      (load.isCold = true ↔ ¬j.warmAddresses.Listed a ∧ a ∉ loaded) ∧
      ∀ cold, load.data.isDelegateAccountCold = some cold →
        ∃ delegated, Delegates db cfg.journal a delegated ∧
          (cold = true ↔ ¬j.warmAddresses.Listed delegated ∧ delegated ∉ a :: loaded) := by
  have hstart : (Scope.access db j).Tracked (Scope.access db j).ColdAccounts j ⟨j, []⟩ .empty := by
    refine ⟨[], .base (.refl (Scope.access_inv db j)), fun a => ?_, .nil⟩
    cases hl : j.state.lookup a with
    | none =>
      rw [Scope.see_of_none hl]
      simp [Scope.unloaded, Surviving.empty]
    | some acc =>
      have hcold : acc.isColdTransactionId (Scope.access db j).transactionId = true :=
        hleft a acc hl
      rw [Scope.see_of_some hl]
      simp [Scope.seeAccount, Surviving.empty, hcold]
  have hend : (Scope.access db j).Tracked (Scope.access db j).ColdAccounts j cfg
      (survivors db (loads db) ops ⟨j, []⟩ .empty) :=
    hstart.run
      (fun op cfg r s hbracket hop h hstep => Scope.tracked_load hop.1 hbracket hop.2 h hstep)
      hops hrun
  exact hend.isCold_iff

/-! ## Runs on a small database -/

/-- The journal of a second transaction. -/
def secondJournal : JournalInner := (new .prague .new).commitTx

/-- Two accounts that the database does not have are loaded, the second in a reverted frame. -/
def twoLoads : List Op := [.loadAccount 2, .checkpoint, .loadAccount 3, .checkpointRevert]

theorem JournalInner.load_isCold_iff_twoLoads : letI := lengthKeccak
    ∃ cfg load₂ load₃, run contractDb twoLoads ⟨secondJournal, []⟩ = some cfg ∧
      (cfg.journal.loadAccountOptional contractDb 2 false false).1 = .ok load₂ ∧
      (cfg.journal.loadAccountOptional contractDb 3 false false).1 = .ok load₃ ∧
      load₂.isCold = false ∧ load₃.isCold = true := by
  let := lengthKeccak
  have hloaded : (survivors contractDb (loads contractDb) twoLoads ⟨secondJournal, []⟩
      .empty).kept = [2] := by decide
  have hops : EachStep contractDb (fun op cfg => op.isLoad = true ∧
      ∀ a ∈ loads contractDb op cfg.journal, LoadOk contractDb cfg.journal a) twoLoads
      ⟨secondJournal, []⟩ := by
    refine EachStep.of_forall (fun op hop cfg => ?_) _
    -- only accounts that are not in the database are loaded
    have hmissing : ∀ a, a ≠ 1 → LoadOk contractDb cfg.journal a := fun a ha =>
      .inr (.inr (.inl (congrArg Except.ok (if_neg ha))))
    fin_cases hop
    · refine ⟨rfl, fun a ha => hmissing a ?_⟩
      rintro rfl
      simp [loads, Op.loadAccount] at ha
    · exact ⟨rfl, fun a ha => by cases ha⟩
    · refine ⟨rfl, fun a ha => hmissing a ?_⟩
      rintro rfl
      simp [loads, Op.loadAccount] at ha
    · exact ⟨rfl, fun a ha => by cases ha⟩
  have hcold := (load_isCold_iff contractDb secondJournal
    (fun a acc hl => by cases hl) twoLoads _ hops rfl).1
  rw [hloaded] at hcold
  have hlisted : ∀ a, ¬secondJournal.warmAddresses.Listed a := by
    rintro a (hcoinbase | hlist | hprecompile)
    · cases hcoinbase
    · exact AList.notMem_empty a hlist
    · exact AList.notMem_empty a hprecompile
  refine ⟨_, _, _, rfl, rfl, rfl, ?_, (hcold 3 false false _ rfl).2 ⟨hlisted 3, by decide⟩⟩
  exact Bool.eq_false_iff.2 fun h => ((hcold 2 false false _ rfl).1 h).2 (by decide)

/-- In a later transaction an account that comes from the database is cold at its second load. -/
theorem JournalInner.load_isCold_again : letI := lengthKeccak
    ∃ cfg load, run contractDb [.loadAccount 1] ⟨secondJournal, []⟩ = some cfg ∧
      (survivors contractDb (loads contractDb) [.loadAccount 1] ⟨secondJournal, []⟩ .empty).kept =
        [1] ∧
      (cfg.journal.loadAccountOptional contractDb 1 false false).1 = .ok load ∧
      load.isCold = true :=
  ⟨_, _, rfl, by decide, rfl, by decide⟩

end Revm
