import Revm.Bytecode.Decode
import Revm.Handler.Codes
import Revm.Journal.Discard

/-!
# All code in the state stays decodable

`TxReaches` are the journals of a transaction: operations of the handler, authorizations among them,
and runs of the loop over the frames, in any order and to any point. If the code of every account is
decodable and stored under its hash, before the transaction and in the database, then it is so in
every journal that the transaction reaches, and designators are only on accounts that had one or
that an authorization delegated (`TxReaches.codesIn`). So the conversions of such code do not panic.

A create frame that does not succeed leaves the journal as it was at its checkpoint
(`createFrame_restores`), up to what `checkpoint_revert` keeps: the touch of `0x03`, and accounts
that an earlier transaction destroyed, which their first load clears.

The results together are `codes_stay_decodable`; `codes_decodable_exceptions` shows what the
exceptions are needed for.
-/

set_option autoImplicit false

namespace Revm

variable {ε : Type} {a caller target : Address} {balance : U256} {specId : SpecId}
  {cp : JournalCheckpoint} {j₁ j' : JournalInner} {ops : List Op} {env : EvmEnv ε}
  {authorities : List Address} {db : Database ε}

/-! ## The journals of a transaction -/

/-- What the handler does to the journal around the frames: it sets no code, and it delegates the
accounts of the authorization list. -/
def Op.OfHandler (authorities : List Address) : Op → Prop
  | .setCode .. => False
  | .account a _ (.delegate _) => a ∈ authorities
  | _ => True

/-- The journals that a transaction reaches from `j₀`. -/
inductive TxReaches {ε : Type} [Keccak256] (env : EvmEnv ε) (authorities : List Address)
    (j₀ : JournalInner) : JournalInner → Prop where
  | start : TxReaches env authorities j₀ j₀
  | op {o : Op} {c : Config} {r : Output ε × Config}
      (before : TxReaches env authorities j₀ c.journal) (hop : o.OfHandler authorities)
      (hstep : step env.db o c = some r) : TxReaches env authorities j₀ r.2.journal
  | frames {n : Nat} {init : FrameInit} {s s' : Shared ε} {state : LoopState}
      (before : TxReaches env authorities j₀ s.host.journal)
      (hrun : runExecLoop env n init s = .next state s') :
      TxReaches env authorities j₀ s'.host.journal
  | failed {n : Nat} {init : FrameInit} {s s' : Shared ε} {error : EvmError ε}
      (before : TxReaches env authorities j₀ s.host.journal)
      (hrun : runExecLoop env n init s = .stop error s') :
      TxReaches env authorities j₀ s'.host.journal

/-- The code is decodable and stored under its hash. -/
def DecodableCode [Keccak256] (code : Bytecode) (hash : B256) : Prop :=
  code.Decodable ∧ hash = code.hashSlow

/-- The account had a designator before the transaction, in the state or in the database. -/
def DesignatedBefore (db : Database ε) (j₀ : JournalInner) (a : Address) : Prop :=
  ∃ info code, db.accountCode info = some code ∧ code.isEip7702 = true ∧
    ((∃ acc, j₀.state.lookup a = some acc ∧ acc.info = info) ∨ db.basic a = .ok (some info))

/-- The codes that a transaction leaves: decodable, and designators only where there was one before
or an authorization installed it. -/
def TxCode [Keccak256] (db : Database ε) (authorities : List Address) (j₀ : JournalInner)
    (a : Address) (code : Bytecode) (hash : B256) : Prop :=
  DecodableCode code hash ∧
    (code.isEip7702 = true → a ∈ authorities ∨ DesignatedBefore db j₀ a)

section Transaction

variable [Keccak256] {j₀ j : JournalInner}

variable (authorities j₀) in
theorem txCode_rule (hdb : ∀ a info, env.db.basic a = .ok (some info) →
      info.CodeIn env.db (fun _ => DecodableCode) a) :
    CodeRule env.db (TxCode env.db authorities j₀) where
  empty _ := ⟨⟨Bytecode.decodable_default, rfl⟩, fun h => by cases h⟩
  stored a info hinfo code hcode :=
    ⟨hdb a info hinfo code hcode, fun h => .inr ⟨info, code, hcode, h, .inr hinfo⟩⟩

theorem txCode_creates : CreatesIn env.cfg.maxCodeSize (TxCode env.db authorities j₀) :=
  fun _ _ hef _ => ⟨⟨Bytecode.decodable_of_head hef, rfl⟩, fun h => by cases h⟩

/-- A delegation installs nothing or a designator. -/
theorem txCode_delegation (ha : a ∈ authorities) (target : Address) :
    TxCode env.db authorities j₀ a (JournaledAccount.delegation target).1
      (JournaledAccount.delegation target).2 := by
  unfold JournaledAccount.delegation
  split_ifs
  · exact ⟨⟨Bytecode.decodable_default, rfl⟩, fun h => by cases h⟩
  · exact ⟨⟨Bytecode.decodable_newEip7702 target, rfl⟩, fun _ => .inl ha⟩

theorem Op.OfHandler.installsIn {op : Op} (h : op.OfHandler authorities) :
    op.InstallsIn (TxCode env.db authorities j₀) := by
  cases op with
  | setCode a code => exact absurd h id
  | account a loadCode change =>
    cases change with
    | delegate target => exact txCode_delegation h target
    | touch | setBalance | incrBalance | decrBalance | bumpNonce => trivial
  | loadAccountOptional | loadAccountDelegated | sload | sstore | tstore | log | touch
  | transferLoaded | createAccountCheckpoint | selfdestruct | checkpoint | checkpointCommit
  | checkpointRevert => trivial

/-- Every journal of the transaction holds only such codes. -/
theorem TxReaches.codesIn (h : TxReaches env authorities j₀ j)
    (hlondon : env.cfg.spec.isEnabledIn .london = true) (heip3541 : env.cfg.disableEip3541 = false)
    (hpre : env.precompiles.LeavesJournal) (hdb : ∀ a info, env.db.basic a = .ok (some info) →
      info.CodeIn env.db (fun _ => DecodableCode) a)
    (hj₀ : j₀.CodesIn env.db fun _ => DecodableCode) :
    j.CodesIn env.db (TxCode env.db authorities j₀) := by
  have hrule := txCode_rule authorities j₀ hdb
  induction h with
  | start =>
    intro a acc hl code hcode
    exact ⟨hj₀ a acc hl code hcode, fun h => .inr ⟨acc.info, code, hcode, h, .inl ⟨acc, hl, rfl⟩⟩⟩
  | op _ hop hstep ih => exact JournalInner.CodesIn.step hrule ih hop.installsIn hstep
  | @frames n init s _ _ _ hrun ih =>
    have hkeeps := runExecLoop_codes hrule hlondon heip3541 txCode_creates hpre n init s ih
    rw [hrun] at hkeeps
    exact hkeeps.1
  | @failed n init s _ _ _ hrun ih =>
    have hkeeps := runExecLoop_codes hrule hlondon heip3541 txCode_creates hpre n init s ih
    rw [hrun] at hkeeps
    exact hkeeps

end Transaction

/-! ## A create frame that fails -/

/-- An account after a frame was reverted is the account at the checkpoint of the frame. -/
structure Account.AsAtCheckpoint (j₀ : JournalInner) (a : Address) (acc acc' : Account) :
    Prop extends
    acc'.Shows j₀.spec a acc.info acc.isTouched acc.isCreated acc.isSelfdestructed where
  loadedAsNotExisting : acc'.status.loadedAsNotExisting = acc.status.loadedAsNotExisting
  cold : (acc'.isColdTransactionId j₀.transactionId && j₀.warmAddresses.isCold a) =
    (acc.isColdTransactionId j₀.transactionId && j₀.warmAddresses.isCold a)
  slot : ∀ k slot, acc.storage.lookup k = some slot →
    ∃ slot', acc'.storage.lookup k = some slot' ∧ slot'.presentValue = slot.presentValue ∧
      slot'.isColdTransactionId j₀.transactionId = slot.isColdTransactionId j₀.transactionId ∧
      (slot.isColdTransactionId j₀.transactionId = false →
        slot'.originalValue = slot.originalValue)

/-- The journal after a frame was reverted is the journal at the checkpoint of the frame. -/
structure JournalInner.AsAtCheckpoint {ε : Type} (db : Database ε) (j₀ j' : JournalInner) :
    Prop where
  depth : j'.depth = j₀.depth
  logs : j'.logs = j₀.logs
  journal : j'.journal = j₀.journal
  transient : ∀ a k, j'.tload a k = j₀.tload a k
  account : ∀ a acc, j₀.state.lookup a = some acc → acc.isStale j₀.transactionId = false →
    ∃ acc', j'.state.lookup a = some acc' ∧ acc.AsAtCheckpoint j₀ a acc'
  /-- What the frame has loaded is as the database has it. -/
  loaded : ∀ a acc' info, j₀.state.lookup a = none → j'.state.lookup a = some acc' →
    db.basic a = .ok info →
    acc'.LikeDatabase j₀.spec a (info.getD AccountInfo.default) ∧
      (db.NoCodelessStorage → acc'.SlotsLikeDatabase db a)

namespace Scope

variable {j₀ : JournalInner} {observe : Bool}

theorem asAtCheckpoint_of_see {s' : EvmState} (hkeep : (later db j₀ observe).Persists j₀.state s')
    {acc : Account} (hseen : (later db j₀ observe).see s' a = (later db j₀ observe).see j₀.state a)
    (hl : j₀.state.lookup a = some acc) (hstale : acc.isStale j₀.transactionId = false) :
    ∃ acc', s'.lookup a = some acc' ∧ acc.AsAtCheckpoint j₀ a acc' := by
  obtain ⟨acc', hl', hstale'⟩ := hkeep.account a ⟨acc, hl, hstale⟩
  rw [see_of_some hl, see_of_some hl'] at hseen
  replace hseen := hseen.trans (seeAccount_of_live hstale)
  have hshows := shows_of_see hstale' (congrArg SeenAccount.still hseen) rfl rfl rfl rfl
  rw [seeAccount_of_live hstale', SeenAccount.mk.injEq] at hseen
  obtain ⟨-, -, -, -, -, -, -, -, hnotExisting, hcold, hslots⟩ := hseen
  refine ⟨acc', hl', hshows, hnotExisting, hcold, fun k slot hk => ?_⟩
  obtain ⟨x, slot', hx, -, hk'⟩ := hkeep.slot a k ⟨acc, slot, hl, hstale, hk⟩
  obtain rfl : x = acc' := Option.some.inj (hx.symm.trans hl')
  have hbase : (later db j₀ observe).base a k = some slot.presentValue := by
    simp [later, hl, hstale, hk]
  have hslot := congrFun hslots k
  rw [hk, hk'] at hslot
  exact ⟨slot', hk', eq_of_seeSlot hbase hslot⟩

end Scope

section CreateFrame

-- a frame that creates an account and then runs `ops`
variable [Keccak256] {j₀ j : JournalInner}
  (hflags : ∀ a acc, j₀.state.lookup a = some acc → acc.isSelfdestructedLocally = true →
    acc.isColdTransactionId j₀.transactionId = false → acc.isSelfdestructed = true)
  (hcreate : j₀.createAccountCheckpoint caller target balance specId = some (.ok cp, j₁))
  (hop : DiscardOk db (.createAccountCheckpoint caller target balance specId) ⟨j₀, []⟩)
  (hops : EachStep db (DiscardOk db) ops ⟨j₁, []⟩) (hrun : run db ops ⟨j₁, []⟩ = some ⟨j, []⟩)
include hflags hcreate hop hops hrun

open Scope in
/-- The view of the journal at the checkpoint is given back by the revert. -/
theorem later_createFrame (observe : Bool) (hdb : observe = true → db.NoCodelessStorage) :
    ∃ j', j.checkpointRevert cp = some j' ∧ (later db j₀ observe).Restores j₀ j' := by
  have hinv₀ : (later db j₀ observe).Inv j₀ := later_inv_of_flags hflags
  have hcodeless : (later db j₀ observe).NoCodelessStorage := later_noCodelessStorage hdb
  obtain ⟨-, hcaller, htarget, -⟩ := DiscardOk.admissible hinv₀ hop
  rcases hinv₀.createAccountCheckpoint trivial hcodeless hcaller
    (fun acc hl => ⟨htarget acc hl, fun hs => by cases hs⟩) hcreate with
    ⟨e, he, -⟩ | ⟨hok, hgrows₁⟩
  · cases he
  · obtain rfl : cp = j₀.checkpoint.1 := Except.ok.inj hok
    -- what the frame does next grows from the creation
    obtain ⟨below, hnested⟩ := Nested.run (c := later db j₀ observe) hcodeless
      ⟨[], .base (.refl hgrows₁.inv)⟩ (later_admissible hops) hrun
    cases hnested with
    | base hgrows => exact Grows.revert hinv₀ (hgrows₁.trans hgrows)

/-- Reverting a create frame gives back the journal at its checkpoint. -/
theorem createFrame_restores (hrevert : j.checkpointRevert cp = some j') :
    j₀.AsAtCheckpoint db j' := by
  obtain ⟨k, hk, hrest⟩ :=
    later_createFrame hflags hcreate hop hops hrun false (fun h => by cases h)
  obtain rfl : j' = k := Option.some.inj (hrevert.symm.trans hk)
  have hsee : ∀ a, (Scope.later db j₀ false).see j'.state a =
      (Scope.later db j₀ false).see j₀.state a := congrFun (congrArg Prod.fst hrest.view)
  refine ⟨hrest.depth, hrest.logs, hrest.journal, fun a k => ?_, fun a acc hl hstale => ?_,
    fun a acc' info hl hl' hinfo => ⟨?_, fun hdb => ?_⟩⟩
  · exact congrFun (congrArg Prod.snd hrest.view) (a, k)
  · exact Scope.asAtCheckpoint_of_see hrest.keep (hsee a) hl hstale
  · exact (Scope.likeDatabase_of_see hrest.inv.state (congrArg SeenAccount.still (hsee a)) hl hl'
      hinfo).1
  · -- the slots of new accounts are observed in a view of their own
    obtain ⟨k, hk, hrest'⟩ := later_createFrame hflags hcreate hop hops hrun true fun _ => hdb
    obtain rfl : j' = k := Option.some.inj (hrevert.symm.trans hk)
    have hsee' := congrFun (congrArg Prod.fst hrest'.view) a
    exact (Scope.likeDatabase_of_see hrest'.inv.state (congrArg SeenAccount.still hsee') hl hl'
      hinfo).2 rfl

end CreateFrame

/-! ## The theorem -/

/-- What holds of the codes of a journal that a transaction reaches. -/
structure CodesSound {ε : Type} [Keccak256] (env : EvmEnv ε) (authorities : List Address)
    (j₀ j : JournalInner) : Prop where
  /-- Every code is decodable, stored under its hash, and a designator only where one belongs. -/
  codes : j.CodesIn env.db (TxCode env.db authorities j₀)
  /-- The conversions to and from the `Bytecode` of `reth` do not panic. -/
  reth : ∀ {R : Type} (reth : RethBytecode R), reth.SameBytes → ∀ a acc code,
    j.state.lookup a = some acc → env.db.accountCode acc.info = some code →
    ∃ r, toReth reth code.analyzed = some r ∧ ofReth reth r = some code.analyzed
  /-- The code changes of a block access list that are made of them are decoded. -/
  bal : ∀ writes : List (Nat × (B256 × Bytecode)),
    (∀ write ∈ writes, ∃ a acc, j.state.lookup a = some acc ∧
      env.db.accountCode acc.info = some write.2.2 ∧ acc.info.codeHash = write.2.1) →
    decodeCodeChanges (encodeCodeChanges (writes.map fun w => (w.1, (w.2.1, w.2.2.analyzed)))) =
      .ok (writes.map fun w => (w.1, (w.2.1, w.2.2.analyzed)))

theorem CodesSound.of_codesIn [Keccak256] {j₀ j : JournalInner}
    (h : j.CodesIn env.db (TxCode env.db authorities j₀)) : CodesSound env authorities j₀ j where
  codes := h
  reth _ hreth a acc code hl hcode := (h a acc hl code hcode).1.1.ofReth_toReth hreth
  bal writes hwrites := by
    apply decodeCodeChanges_encode
    intro write hwrite
    obtain ⟨a, acc, hl, hcode, hhash⟩ := hwrites write hwrite
    obtain ⟨⟨hdecodable, hslow⟩, -⟩ := h a acc hl write.2.2 hcode
    exact ⟨hdecodable, hhash.symm.trans hslow⟩

/-- What `return_create` leaves from London on. -/
structure CreateSound {ε : Type} [Keccak256] (env : EvmEnv ε) (cp : JournalCheckpoint)
    (address : Address) (s : Shared ε) (r : InterpreterResult) (s' : Shared ε) : Prop where
  /-- The installed code is legacy code, does not start with `0xEF` and is not too long. -/
  installed : r.result.isOk = true → ∃ acc, s'.host.journal.state.lookup address = some acc ∧
    acc.info.code = some (.legacyAnalyzed r.output) ∧ r.output.head? ≠ some 0xef ∧
    r.output.length ≤ env.cfg.maxCodeSize
  /-- Every other exit reverts the checkpoint. -/
  reverted : r.result.isOk = false →
    s.host.journal.checkpointRevert cp = some s'.host.journal
  /-- So the journal is as it was when the frame was made. -/
  restored : r.result.isOk = false →
    ∀ (j₀ j₁ : JournalInner) (caller target : Address) (balance : U256) (specId : SpecId)
      (ops : List Op),
    (∀ a acc, j₀.state.lookup a = some acc → acc.isSelfdestructedLocally = true →
      acc.isColdTransactionId j₀.transactionId = false → acc.isSelfdestructed = true) →
    j₀.createAccountCheckpoint caller target balance specId = some (.ok cp, j₁) →
    DiscardOk env.db (.createAccountCheckpoint caller target balance specId) ⟨j₀, []⟩ →
    EachStep env.db (DiscardOk env.db) ops ⟨j₁, []⟩ →
    run env.db ops ⟨j₁, []⟩ = some ⟨s.host.journal, []⟩ →
    j₀.AsAtCheckpoint env.db s'.host.journal

theorem lookup_setCode_legacy [Keccak256] {j : JournalInner} {bytes : List UInt8}
    (h : j.setCode a (.legacyAnalyzed bytes) = some j') :
    ∃ acc, j'.state.lookup a = some acc ∧ acc.info.code = some (.legacyAnalyzed bytes) := by
  obtain ⟨acc, -, hset⟩ := Option.bind_eq_some_iff.1 h
  obtain ⟨acc', -, rfl⟩ := Option.map_eq_some_iff.1 hset
  exact ⟨_, AList.lookup_insert _, rfl⟩

theorem returnCreate_sound [Keccak256] (hlondon : env.cfg.spec.isEnabledIn .london = true)
    (heip3541 : env.cfg.disableEip3541 = false) {result r : InterpreterResult} {address : Address}
    {s s' : Shared ε} (h : returnCreate env cp result address s = .next r s') :
    CreateSound env cp address s r s' := by
  have hend := (returnCreate_ends hlondon heip3541 cp result address s).next h
  refine ⟨fun hok => ?_, hend.reverted, fun hok j₀ j₁ caller target balance specId ops hflags
    hcreate hop hops hrun => ?_⟩
  · obtain ⟨hef, hsize, hset⟩ := hend.installed hok
    obtain ⟨acc, hl, hcode⟩ := lookup_setCode_legacy hset
    exact ⟨acc, hl, hcode, hef, hsize⟩
  · exact createFrame_restores hflags hcreate hop hops hrun (hend.reverted hok)

/-- Decodable code stays decodable through a transaction, and create frames install only such code
or leave the journal as it was. -/
theorem codes_stay_decodable {ε : Type} [Keccak256] (env : EvmEnv ε)
    (hlondon : env.cfg.spec.isEnabledIn .london = true) (heip3541 : env.cfg.disableEip3541 = false)
    (hpre : env.precompiles.LeavesJournal) (hdb : ∀ a info, env.db.basic a = .ok (some info) →
      info.CodeIn env.db (fun _ => DecodableCode) a) (j₀ : JournalInner)
    (hj₀ : j₀.CodesIn env.db fun _ => DecodableCode) (authorities : List Address) :
    (∀ j, TxReaches env authorities j₀ j →
      CodesSound env authorities j₀ j ∧ CodesSound env authorities j₀ j.commitTx ∧
        ∀ j', j.discardTx = some j' → CodesSound env authorities j₀ j') ∧
    (∀ cp result address s r s', returnCreate env cp result address s = .next r s' →
      CreateSound env cp address s r s') ∧
    ∀ {R : Type} (reth : RethBytecode R), reth.SameBytes → ∀ bytes r,
      reth.newRawChecked bytes = some r → (ofReth reth r).isSome = true := by
  refine ⟨fun j hj => ?_, fun cp result address s r s' h => ?_,
    fun reth hreth bytes r hr => ofReth_isSome hreth hr⟩
  · have hcodes := hj.codesIn hlondon heip3541 hpre hdb hj₀
    refine ⟨.of_codesIn hcodes, .of_codesIn hcodes.commitTx, fun j' hdiscard => ?_⟩
    exact .of_codesIn (hcodes.discardTx (txCode_rule authorities j₀ hdb) hdiscard)
  · exact returnCreate_sound hlondon heip3541 h

/-! ## Runs on a small database -/

/-- Init code that returns the code `STOP`. -/
def deployStop : FrameInit where
  depth := 0
  memory := .new
  frameInput := .create
    { caller := 1
      scheme := .create
      value := 0
      initCode := [0x60, 0x01, 0x60, 0x00, 0xf3]
      gasLimit := 100000 }

/-- The codes of the accounts `2` and `7` when the loop is done. -/
def codesAtEnd : Outcome (Shared Empty) (EvmError Empty) Fault LoopState →
    Option (Option Bytecode × Option Bytecode)
  | .next (.done _) s =>
      some ((s.host.journal.state.lookup 2).bind (·.info.code),
        (s.host.journal.state.lookup 7).bind (·.info.code))
  | _ => none

theorem contractDb_decodable : letI := lengthKeccak
    ∀ a info, contractDb.basic a = .ok (some info) →
      info.CodeIn contractDb (fun _ => DecodableCode) a := by
  let := lengthKeccak
  intro a info hinfo code hcode
  have hall := Except.ok.inj hinfo
  split_ifs at hall
  cases hall
  cases hcode
  exact ⟨Bytecode.decodable_default, rfl⟩

/-- An authorization delegates account `7`, and account `1` creates a contract at `2`. -/
theorem codes_stay_decodable_deploy : letI := lengthKeccak
    let env : EvmEnv Empty := .default contractDb .prague
    let j₀ : JournalInner := .new .prague .new
    ∃ cfg result s',
      step contractDb (.account 7 true (.delegate 4)) ⟨j₀, []⟩ = some (.changed (.ok true), cfg) ∧
      runExecLoop env 3 deployStop ⟨[], ⟨cfg.journal, none⟩⟩ = .next (.done result) s' ∧
      (s'.host.journal.state.lookup 2).bind (·.info.code) = some (.legacyAnalyzed [0x00]) ∧
      (s'.host.journal.state.lookup 7).bind (·.info.code) = some (.newEip7702 4) ∧
      CodesSound env [7] j₀ s'.host.journal := by
  let := lengthKeccak
  intro env j₀
  let j₁ := (j₀.withJournaledAccount contractDb 7 true (AccountChange.delegate 4).apply).2
  have hdelegate : step contractDb (.account 7 true (.delegate 4)) ⟨j₀, []⟩ =
      some (.changed (.ok true), ⟨j₁, []⟩) := rfl
  have hcodes : codesAtEnd (runExecLoop env 3 deployStop ⟨[], ⟨j₁, none⟩⟩) =
      some (some (.legacyAnalyzed [0x00]), some (.newEip7702 4)) := by
    decide +kernel
  rcases hrun : runExecLoop env 3 deployStop ⟨[], ⟨j₁, none⟩⟩ with ⟨_ | result, s'⟩ | ⟨_, _⟩ | _
  · rw [hrun] at hcodes
    cases hcodes
  · rw [hrun] at hcodes
    obtain ⟨hcreated, hdelegated⟩ := Prod.mk.inj (Option.some.inj hcodes)
    have hbefore : TxReaches env [7] j₀ j₁ :=
      .op (c := ⟨j₀, []⟩) (r := (.changed (.ok true), ⟨j₁, []⟩)) .start (List.mem_singleton.2 rfl)
        hdelegate
    have hreaches : TxReaches env [7] j₀ s'.host.journal := .frames hbefore hrun
    have hsound := (codes_stay_decodable env rfl rfl
      (ethPrecompiles_leavesJournal fun _ => none) contractDb_decodable j₀
      (fun a acc hl => by cases hl) [7]).1 _ hreaches
    exact ⟨_, result, s', hdelegate, hrun, hcreated, hdelegated, hsound.1⟩
  · rw [hrun] at hcodes
    cases hcodes
  · rw [hrun] at hcodes
    cases hcodes

/-- A create frame in which `0x03` is touched and that ends with a revert: whether the result is ok,
and whether `0x03` was touched at the checkpoint and is touched afterwards. -/
def touchInCreate : Option (Bool × Option Bool × Option Bool) :=
  letI := lengthKeccak
  do
    let cfg₀ ← run contractDb [.loadAccount 1, .loadAccount 2, .loadAccount precompile3]
      ⟨.new .prague .new, []⟩
    match ← cfg₀.journal.createAccountCheckpoint 1 2 0 .prague with
    | (.error _, _) => none
    | (.ok cp, j₁) =>
        let cfg ← run contractDb [.touch precompile3] ⟨j₁, []⟩
        match returnCreate (.default contractDb .prague) cp ⟨.revert, [], .new 0⟩ 2
            ⟨[], ⟨cfg.journal, none⟩⟩ with
        | .next r s' =>
            some (r.result.isOk, (cfg₀.journal.state.lookup precompile3).map Account.isTouched,
              (s'.host.journal.state.lookup precompile3).map Account.isTouched)
        | _ => none

/-- The touch of `0x03` survives a create frame that fails. A decodable code that the database
stores under another hash is not repaired. -/
theorem codes_decodable_exceptions : letI := lengthKeccak
    touchInCreate = some (false, some false, some true) ∧
      (∀ a info, delegatedDb.basic a = .ok (some info) →
        info.CodeIn delegatedDb (fun _ code _ => code.Decodable) a) ∧
      ∃ j, TxReaches (.default delegatedDb .prague) [] (.new .prague .new) j ∧
        ¬ j.CodesIn delegatedDb fun _ => DecodableCode := by
  let := lengthKeccak
  refine ⟨by decide +kernel, fun a info hinfo code hcode => ?_, ?_⟩
  · have hall := Except.ok.inj hinfo
    split_ifs at hall
    cases hall
    cases hcode
    exact Bytecode.decodable_default
  · let j₁ := ((JournalInner.new .prague .new).loadAccount delegatedDb 1).2
    refine ⟨j₁, .op (o := .loadAccount 1) (c := ⟨.new .prague .new, []⟩) .start trivial rfl, ?_⟩
    intro h
    have hl : (j₁.state.lookup 1).map (fun acc => (acc.info.code, acc.info.codeHash)) =
        some (some Bytecode.default, 9) := by decide +kernel
    obtain ⟨acc, hl, hinfo⟩ := Option.map_eq_some_iff.1 hl
    obtain ⟨hcode, hhash⟩ := Prod.mk.inj hinfo
    have haccount : delegatedDb.accountCode acc.info = some Bytecode.default := by
      unfold Database.accountCode
      rw [hcode]
    have hslow := (h 1 acc hl _ haccount).2
    rw [hhash] at hslow
    exact absurd hslow (by decide +kernel)

end Revm
