import Revm.Journal.Frames

/-!
# Runs with nested checkpoints

`Scope.Nested` is the invariant of a run: below every open checkpoint lies the journal in which it
was taken, and what happened since only grew from there. It is kept by every operation that meets
`Scope.Admissible` (`Scope.Nested.step`) and hence by runs (`Scope.Nested.run`).
-/

set_option autoImplicit false

namespace Revm

/-- Accounts without nonce and code have no storage in the database. -/
def Database.NoCodelessStorage {ε : Type} (db : Database ε) : Prop :=
  ∀ a k info value, db.basic a = .ok info →
    (info.getD AccountInfo.default).nonce = 0 →
    (info.getD AccountInfo.default).codeHash = keccakEmpty →
    db.storage a k = .ok value → value = 0

/-- A contract at address `1` with one slot; no other account exists. -/
def contractDb : Database Empty where
  basic a :=
    .ok (if a = 1 then some { AccountInfo.default with balance := 5, nonce := 1 } else none)
  codeByHash _ := .ok Bytecode.default
  storage a k := .ok (if a = 1 ∧ k = 1 then 7 else 0)

/-- A hash function to run the model with. -/
@[reducible] def lengthKeccak : Keccak256 := ⟨fun bytes => BitVec.ofNat 256 bytes.length⟩

/-- The journal that a first transaction leaves. -/
def journalAfter (spec : SpecId) (ops : List Op) : JournalInner :=
  letI := lengthKeccak
  ((run contractDb ops ⟨.new spec .new, []⟩).map (·.journal.commitTx)).getD (.new spec .new)

theorem contractDb_noCodelessStorage : contractDb.NoCodelessStorage := by
  intro a k info value hinfo hnonce hcode hvalue
  cases hinfo
  cases hvalue
  by_cases ha : a = 1
  · subst ha
    exact absurd hnonce (by decide)
  · rw [if_neg fun h => ha h.1]

namespace Scope

variable {ε : Type} (c : Scope ε)

variable {c} in
theorem dbInfo_of_basic {a : Address} {info : Option AccountInfo} (h : c.db.basic a = .ok info) :
    c.dbInfo a = info.getD AccountInfo.default := by
  simp only [dbInfo, h]
  cases info <;> rfl

variable {c} in
theorem dbStorage_of_codeless (hdb : c.db.NoCodelessStorage) (a : Address) (k : StorageKey)
    (hbasic : ∃ info, c.db.basic a = .ok info) (hcodeless : c.DbCodeless a) :
    c.dbStorage a k = 0 := by
  obtain ⟨info, hinfo⟩ := hbasic
  unfold DbCodeless at hcodeless
  rw [dbInfo_of_basic hinfo] at hcodeless
  unfold dbStorage Database.storageValue
  cases hvalue : c.db.storage a k with
  | error e => rfl
  | ok value => exact hdb a k info value hinfo hcodeless.1 hcodeless.2 hvalue

/-- The account, if it is in the map, needs no clearing. -/
def Usable (j : JournalInner) (a : Address) : Prop :=
  ∀ acc, j.state.lookup a = some acc → acc.isStale c.transactionId = false

/-- What an operation relies on. -/
def Admissible (op : Op) (j : JournalInner) : Prop :=
  match op with
  | .sload a _ _ => c.Usable j a
  | .sstore a _ _ _ => c.Usable j a
  | .touch a => c.Usable j a
  | .transferLoaded src dst balance =>
      c.Usable j src ∧ c.Usable j dst ∧
        ∀ r, j.transferLoaded src dst balance = some r → r.1 ≠ some .overflowPayment
  | .createAccountCheckpoint caller target _ _ =>
      c.creates ∧ c.Usable j caller ∧ c.Usable j target ∧
        (c.strict = true → ∀ acc, j.state.lookup target = some acc →
          acc.info.codeHash = keccakEmpty → acc.info.nonce = 0 →
          acc.isColdTransactionId c.transactionId = false ∧ acc.isCreatedLocally = false)
  | .setCode a _ =>
      c.Usable j a ∧ ∀ acc, j.state.lookup a = some acc → acc.info.codeHash = keccakEmpty
  | .selfdestruct a target =>
      c.creates ∧ ∀ acc, (j.loadAccount c.db target).2.state.lookup a = some acc →
        acc.isColdTransactionId c.transactionId = false
  | .account a loadCode change =>
      ∀ target, change = .delegate target →
        ∀ load, (j.loadAccountMutOptionalCode c.db a loadCode false).1 = .ok load →
          load.data.info.codeHash = keccakEmpty
  | _ => True

/-- The open checkpoints of a run that started in `base`, with the journals in which they were
taken. -/
inductive Nested (base : JournalInner) :
    List JournalCheckpoint → List JournalInner → JournalInner → Prop where
  | base {j : JournalInner} (grows : c.Grows base j) : Nested base [] [] j
  | frame {checkpoints : List JournalCheckpoint} {below : List JournalInner}
      {j₀ j : JournalInner} (rest : Nested base checkpoints below j₀)
      (grows : c.Grows j₀.checkpoint.2 j) :
      Nested base (j₀.checkpoint.1 :: checkpoints) (j₀ :: below) j

variable {c}

namespace Nested

variable {base j j₀ j' : JournalInner} {cp : JournalCheckpoint}
  {checkpoints : List JournalCheckpoint} {below : List JournalInner}

section

variable (h : c.Nested base checkpoints below j)

include h

theorem inv : c.Inv j := by
  cases h with
  | base grows => exact grows.inv
  | frame rest grows => exact grows.inv

/-- An operation that leaves the checkpoints alone. -/
theorem grow (hgrow : c.Grows j j') : c.Nested base checkpoints below j' := by
  cases h with
  | base grows => exact .base (grows.trans hgrow)
  | frame rest grows => exact .frame rest (grows.trans hgrow)

theorem checkpoint : c.Nested base (j.checkpoint.1 :: checkpoints) (j :: below) j.checkpoint.2 :=
  .frame h (.refl (h.inv.withDepth _))

end

/-- Committing a checkpoint keeps what happened since it was taken. -/
theorem commit (h : c.Nested base (cp :: checkpoints) (j₀ :: below) j) :
    c.Nested base checkpoints below j.checkpointCommit := by
  cases h with
  | frame rest grows =>
    refine rest.grow ⟨grows.inv.withDepth _, grows.keep, ?_, grows.logs, grows.live, grows.undo⟩
    show j.depth - 1 = j₀.depth
    rw [grows.depth]
    rfl

/-- Reverting a checkpoint gives back the journal in which it was taken. -/
theorem revert (h : c.Nested base (cp :: checkpoints) (j₀ :: below) j) :
    ∃ j', j.checkpointRevert cp = some j' ∧ c.Nested base checkpoints below j' ∧
      c.Restores j₀ j' := by
  cases h with
  | frame rest grows =>
    obtain ⟨j', hj', hrest⟩ := Grows.revert rest.inv grows
    exact ⟨j', hj', rest.grow hrest.grows, hrest⟩

/-- Everything since the start can be undone. -/
theorem undo (h : c.Nested base checkpoints below j) :
    c.rule.Extends base.journal (c.view base) j.journal (c.view j) ∧
      c.Persists base.state j.state ∧
      ∃ es, j.journal = base.journal ++ es ∧ ∀ e ∈ es, c.Live j.state e := by
  induction h with
  | base grows => exact ⟨grows.undo, grows.keep, grows.live⟩
  | frame rest grows ih =>
    obtain ⟨hundo, hkeep, es₁, hes₁, hlive₁⟩ := ih
    obtain ⟨es₂, hes₂, hlive₂⟩ := grows.live
    refine ⟨hundo.trans grows.undo, hkeep.trans grows.keep, es₁ ++ es₂, ?_, fun e he => ?_⟩
    · rw [hes₂, ← List.append_assoc, ← hes₁]
      rfl
    · rcases List.mem_append.1 he with he | he
      · exact grows.keep.live (hlive₁ e he)
      · exact hlive₂ e he

/-- The run invariant is kept by every admissible operation. -/
theorem step [Keccak256] (hdb : c.NoCodelessStorage) {op : Op} {cfg : Config}
    {r : Output ε × Config} (h : c.Nested base cfg.frames below cfg.journal)
    (hop : c.Admissible op cfg.journal) (hstep : Revm.step c.db op cfg = some r) :
    ∃ below', c.Nested base r.2.frames below' r.2.journal := by
  obtain ⟨j, frames⟩ := cfg
  have hinv := h.inv
  cases op with
  | loadAccountOptional a loadCode skip =>
    cases hstep
    exact ⟨below, h.grow (hinv.load rfl).1⟩
  | loadAccountDelegated a =>
    cases hstep
    exact ⟨below, h.grow (hinv.loadDelegated a)⟩
  | sload a k skip =>
    obtain ⟨r', hr', rfl⟩ := Option.map_eq_some_iff.1 hstep
    exact ⟨below, h.grow (hinv.sload hop hr').1⟩
  | sstore a k value skip =>
    obtain ⟨r', hr', rfl⟩ := Option.map_eq_some_iff.1 hstep
    exact ⟨below, h.grow (hinv.sstore hop hr').1⟩
  | tstore a k value =>
    cases hstep
    exact ⟨below, h.grow (hinv.tstore a k value)⟩
  | log log =>
    cases hstep
    exact ⟨below, h.grow (hinv.log log)⟩
  | touch a =>
    cases hstep
    exact ⟨below, h.grow (hinv.touch hop)⟩
  | transferLoaded src dst balance =>
    obtain ⟨r', hr', rfl⟩ := Option.map_eq_some_iff.1 hstep
    obtain ⟨hsrc, hdst, hok⟩ := hop
    exact ⟨below, h.grow (hinv.transferLoaded hsrc hdst hr' (hok r' hr'))⟩
  | createAccountCheckpoint caller target balance specId =>
    obtain ⟨⟨result, j'⟩, hr', rfl⟩ := Option.map_eq_some_iff.1 hstep
    obtain ⟨hcreates, hcaller, htarget, hstrict⟩ := hop
    rcases hinv.createAccountCheckpoint hcreates hdb hcaller
      (fun acc hl => ⟨htarget acc hl, fun hs => hstrict hs acc hl⟩) hr' with
      ⟨e, he, hrest⟩ | ⟨hok, hgrow⟩
    · obtain rfl : result = .error e := he
      exact ⟨below, h.grow hrest.grows⟩
    · obtain rfl : result = .ok j.checkpoint.1 := hok
      exact ⟨j :: below, .frame h hgrow⟩
  | setCode a code =>
    obtain ⟨j', hj', rfl⟩ := Option.map_eq_some_iff.1 hstep
    exact ⟨below, h.grow (hinv.setCodeOp (fun acc hl => ⟨hop.1 acc hl, hop.2 acc hl⟩) hj')⟩
  | selfdestruct a target =>
    obtain ⟨r', hr', rfl⟩ := Option.map_eq_some_iff.1 hstep
    exact ⟨below, h.grow (hinv.selfdestruct hop.1 hop.2 hr')⟩
  | account a loadCode change =>
    cases hstep
    exact ⟨below, h.grow (hinv.withJournaledAccount a loadCode change hop)⟩
  | checkpoint =>
    cases hstep
    exact ⟨j :: below, h.checkpoint⟩
  | checkpointCommit =>
    cases frames with
    | nil => cases hstep
    | cons cp frames =>
      cases hstep
      cases below with
      | nil => cases h
      | cons j₀ below => exact ⟨below, h.commit⟩
  | checkpointRevert =>
    cases frames with
    | nil => cases hstep
    | cons cp frames =>
      cases below with
      | nil => cases h
      | cons j₀ below =>
        obtain ⟨j', hj', hnested, -⟩ := h.revert
        obtain ⟨j'', hj'', rfl⟩ := Option.map_eq_some_iff.1 hstep
        obtain rfl : j' = j'' := Option.some.inj (hj'.symm.trans hj'')
        exact ⟨below, hnested⟩

/-- The run invariant is kept by runs of admissible operations. -/
theorem run [Keccak256] (hdb : c.NoCodelessStorage) {ops : List Op} {cfg cfg' : Config}
    (h : ∃ below, c.Nested base cfg.frames below cfg.journal) (hops : EachStep c.db
      (fun op cfg => c.Inv cfg.journal → c.Admissible op cfg.journal) ops cfg)
    (hrun : Revm.run c.db ops cfg = some cfg') :
    ∃ below, c.Nested base cfg'.frames below cfg'.journal := by
  refine run_induction (I := fun cfg => ∃ below, c.Nested base cfg.frames below cfg.journal)
    ?_ h hops hrun
  rintro op cfg r ⟨below, hcfg⟩ hop hstep
  exact hcfg.step hdb (hop hcfg.inv) hstep

end Nested

end Scope

end Revm
