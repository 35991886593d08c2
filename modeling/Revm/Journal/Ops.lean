import Revm.Journal.Inner

/-!
# Runs of journal operations

A transaction is a sequence of journal operations. `Op` lists them, `step` executes one on the
journal together with the stack of its open checkpoints, `run` executes a sequence. A commit or a
revert always closes the innermost checkpoint, so every run is properly bracketed; closing a
checkpoint that is not there, like every panic of the source, is the result `none`. An operation
that fails with an error does not end the run: what it did to the journal stays.
-/

set_option autoImplicit false

namespace Revm

/-- Every account was left by an earlier transaction. -/
abbrev JournalInner.AllCold (j : JournalInner) : Prop :=
  ∀ a acc, j.state.lookup a = some acc → acc.isColdTransactionId j.transactionId = true

/-- What is done with the `JournaledAccount` that a load answers. -/
inductive AccountChange where
  | touch
  | setBalance (balance : U256)
  | incrBalance (balance : U256)
  | decrBalance (balance : U256)
  | bumpNonce
  | delegate (target : Address)
  deriving DecidableEq, Repr

/-- The change on the handle, with the Boolean that the source answers. -/
def AccountChange.apply [Keccak256] (change : AccountChange) (account : JournaledAccount) :
    Bool × JournaledAccount :=
  match change with
  | touch => (true, account.touch)
  | setBalance balance => (true, account.setBalance balance)
  | incrBalance balance => account.incrBalance balance
  | decrBalance balance => account.decrBalance balance
  | bumpNonce => account.bumpNonce
  | delegate target => (true, account.delegate target)

/-- Operations on the journal. `load_account` and `load_code` are instances of
`load_account_optional`. -/
inductive Op where
  | loadAccountOptional (address : Address) (loadCode skipColdLoad : Bool)
  | loadAccountDelegated (address : Address)
  | sload (address : Address) (key : StorageKey) (skipColdLoad : Bool)
  | sstore (address : Address) (key : StorageKey) (value : StorageValue) (skipColdLoad : Bool)
  | tstore (address : Address) (key : StorageKey) (value : StorageValue)
  | log (log : Log)
  | touch (address : Address)
  | transferLoaded (src dst : Address) (balance : U256)
  | createAccountCheckpoint (caller target : Address) (balance : U256) (specId : SpecId)
  | setCode (address : Address) (code : Bytecode)
  | selfdestruct (address target : Address)
  | account (address : Address) (loadCode : Bool) (change : AccountChange)
  | checkpoint
  | checkpointCommit
  | checkpointRevert
  deriving DecidableEq, Repr

/-- `load_account`. -/
def Op.loadAccount (address : Address) : Op := .loadAccountOptional address false false

/-- `load_code`. -/
def Op.loadCode (address : Address) : Op := .loadAccountOptional address true false

/-- What an operation answers. -/
inductive Output (ε : Type) where
  | done
  | account (result : LoadAnswer ε Account)
  | delegated (result : LoadAnswer ε AccountLoad)
  | slot (result : LoadAnswer ε StorageValue)
  | stored (result : LoadAnswer ε SStoreResult)
  | transfer (result : Option TransferError)
  | created (result : Except TransferError JournalCheckpoint)
  | destroyed (result : LoadAnswer ε SelfDestructResult)
  | changed (result : Except (JournalLoadError ε) Bool)

/-- The journal and its open checkpoints, the innermost first. -/
structure Config where
  journal : JournalInner
  frames : List JournalCheckpoint

section Run

variable {ε : Type} [Keccak256] (db : Database ε)

/-- One operation. -/
def step (op : Op) (c : Config) : Option (Output ε × Config) :=
  let j := c.journal
  match op with
  | .loadAccountOptional address loadCode skipColdLoad =>
      let r := j.loadAccountOptional db address loadCode skipColdLoad
      some (.account r.1, { c with journal := r.2 })
  | .loadAccountDelegated address =>
      let r := j.loadAccountDelegated db address
      some (.delegated r.1, { c with journal := r.2 })
  | .sload address key skipColdLoad =>
      (j.sload db address key skipColdLoad).map fun r => (.slot r.1, { c with journal := r.2 })
  | .sstore address key value skipColdLoad =>
      (j.sstore db address key value skipColdLoad).map fun r =>
        (.stored r.1, { c with journal := r.2 })
  | .tstore address key value => some (.done, { c with journal := j.tstore address key value })
  | .log log => some (.done, { c with journal := j.log log })
  | .touch address => some (.done, { c with journal := j.touch address })
  | .transferLoaded src dst balance =>
      (j.transferLoaded src dst balance).map fun r => (.transfer r.1, { c with journal := r.2 })
  | .createAccountCheckpoint caller target balance specId =>
      (j.createAccountCheckpoint caller target balance specId).map fun r =>
        (.created r.1,
          { journal := r.2
            frames :=
              match r.1 with
              | .ok checkpoint => checkpoint :: c.frames
              | .error _ => c.frames })
  | .setCode address code =>
      (j.setCode address code).map fun j => (.done, { c with journal := j })
  | .selfdestruct address target =>
      (j.selfdestruct db address target).map fun r => (.destroyed r.1, { c with journal := r.2 })
  | .account address loadCode change =>
      let r := j.withJournaledAccount db address loadCode change.apply
      some (.changed r.1, { c with journal := r.2 })
  | .checkpoint =>
      let r := j.checkpoint
      some (.done, ⟨r.2, r.1 :: c.frames⟩)
  | .checkpointCommit =>
      match c.frames with
      | [] => none
      | _ :: frames => some (.done, ⟨j.checkpointCommit, frames⟩)
  | .checkpointRevert =>
      match c.frames with
      | [] => none
      | checkpoint :: frames =>
          (j.checkpointRevert checkpoint).map fun j => (.done, ⟨j, frames⟩)

/-- A sequence of operations. -/
def run : List Op → Config → Option Config
  | [], c => some c
  | op :: ops, c => (step db op c).bind fun r => run ops r.2

/-- A condition holds before every step of a run. -/
def EachStep (P : Op → Config → Prop) : List Op → Config → Prop
  | [], _ => True
  | op :: ops, c => P op c ∧ ∀ r, step db op c = some r → EachStep P ops r.2

variable {db}

theorem run_append (ops ops' : List Op) (c : Config) :
    run db (ops ++ ops') c = (run db ops c).bind (run db ops') := by
  induction ops generalizing c with
  | nil => rfl
  | cons op ops ih =>
    simp only [List.cons_append, run]
    cases step db op c with
    | none => rfl
    | some r => exact ih r.2

variable {ops : List Op}

theorem EachStep.mono {P Q : Op → Config → Prop} (hPQ : ∀ op c, P op c → Q op c)
    {c : Config} (h : EachStep db P ops c) : EachStep db Q ops c := by
  induction ops generalizing c with
  | nil => trivial
  | cons op ops ih => exact ⟨hPQ op c h.1, fun r hr => ih (h.2 r hr)⟩

/-- A condition that can be checked before each step can be checked along a run. -/
instance EachStep.decidable (P : Op → Config → Prop) [∀ op c, Decidable (P op c)] :
    ∀ (ops : List Op) (c : Config), Decidable (EachStep db P ops c)
  | [], _ => .isTrue trivial
  | op :: ops, c =>
      match hr : step db op c with
      | none =>
          decidable_of_iff (P op c)
            ⟨fun h => ⟨h, fun r hs => by rw [hr] at hs; cases hs⟩, fun h => h.1⟩
      | some r =>
          have := EachStep.decidable P ops r.2
          decidable_of_iff (P op c ∧ EachStep db P ops r.2)
            ⟨fun h => ⟨h.1, fun r' hs => by rw [hr] at hs; cases hs; exact h.2⟩,
              fun h => ⟨h.1, h.2 r hr⟩⟩

/-- A condition that does not depend on the journal. -/
theorem EachStep.of_forall {P : Op → Config → Prop}
    (h : ∀ op ∈ ops, ∀ c, P op c) (c : Config) : EachStep db P ops c := by
  induction ops generalizing c with
  | nil => trivial
  | cons op ops ih =>
    exact ⟨h op List.mem_cons_self c, fun r _ =>
      ih (fun op' hop' => h op' (List.mem_cons_of_mem op hop')) r.2⟩

/-- An invariant of the steps that meet the condition holds at the end of a run. -/
theorem run_induction {P : Op → Config → Prop} {I : Config → Prop}
    (hstep : ∀ op c r, I c → P op c → step db op c = some r → I r.2) {c c' : Config}
    (hc : I c) (hP : EachStep db P ops c) (hrun : run db ops c = some c') : I c' := by
  induction ops generalizing c with
  | nil =>
    cases hrun
    exact hc
  | cons op ops ih =>
    obtain ⟨r, hr, hrest⟩ := Option.bind_eq_some_iff.1 hrun
    exact ih (hstep op c r hc hP.1 hr) (hP.2 r hr) hrest

end Run

end Revm
