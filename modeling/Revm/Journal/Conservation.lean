import Revm.Journal.Balances

/-!
# Conservation of value

The total of all balances is a constant of a run except for what selfdestructs burn. `Burned` counts
what is burned now and was burned at each open checkpoint: a reverted frame gives back what it
burned. `OpenFrames` is the invariant of a run: below every open checkpoint lie the balances at
which it was taken, and the journal leads back to them without leaving a register on the way.
-/

set_option autoImplicit false

namespace Revm

open Ledger JournalInner

variable {ε : Type} {balance : U256} {cfg : Config} {checkpoint : JournalCheckpoint} {op : Op}
  {frames : List JournalCheckpoint}

/-- What was burned, now and at each open checkpoint, the innermost first. -/
structure Burned where
  now : Nat
  saved : List Nat

/-- Nothing was burned. -/
def Burned.none : Burned := ⟨0, []⟩

/-- One operation that burns `amount`. A successful `create_account_checkpoint` opens a
checkpoint. -/
def Burned.step (op : Op) (output : Output ε) (amount : Nat) (b : Burned) : Burned :=
  match op with
  | .checkpoint => ⟨b.now, b.now :: b.saved⟩
  | .createAccountCheckpoint .. =>
      match output with
      | .created (.ok _) => ⟨b.now, b.now :: b.saved⟩
      | _ => b
  | .checkpointCommit => ⟨b.now, b.saved.tail⟩
  | .checkpointRevert => ⟨b.saved.headD b.now, b.saved.tail⟩
  | _ => ⟨b.now + amount, b.saved⟩

section Run

variable (db : Database ε)

/-- What an operation burns. -/
def Op.burned (op : Op) (j : JournalInner) : Nat :=
  match op with
  | .selfdestruct address target => j.burned db address target
  | _ => 0

/-- What a run burns. -/
def burnedBy [Keccak256] : List Op → Config → Burned → Burned
  | [], _, b => b
  | op :: ops, cfg, b =>
      match step db op cfg with
      | some r => burnedBy ops r.2 (b.step op r.1 (op.burned db cfg.journal))
      | none => b

/-- The operations that load accounts and move value, with what they need: a load does not meet an
account that an earlier transaction destroyed and that was paid since, and the caller of
`create_account_checkpoint` owns the value. -/
def Op.keepsValue (op : Op) (cfg : Config) : Bool :=
  let j := cfg.journal
  match op with
  | .loadAccountOptional address _ _ => j.loadKeepsBalance address
  | .loadAccountDelegated address =>
      j.loadKeepsBalance address &&
        match j.loadAccountOptional db address (j.spec.isEnabledIn .prague) false with
        | (.ok load, j₁) =>
            match load.data.info.code with
            | some (.eip7702 delegated _ _) => j₁.loadKeepsBalance delegated
            | _ => true
        | (.error _, _) => true
  | .transferLoaded .. => true
  | .createAccountCheckpoint caller target balance _ =>
      caller == target || decide ((balance.toNat : ℤ) ≤ balances db j.state caller)
  | .selfdestruct _ target => j.loadKeepsBalance target
  | .checkpoint | .checkpointCommit | .checkpointRevert => true
  | _ => false

/-- Every sum and difference of balances that the operation stores fits a `U256`. -/
def Op.Exact (op : Op) (cfg : Config) : Prop :=
  let b := balances db cfg.journal.state
  match op with
  | .transferLoaded src dst balance =>
      src ≠ dst → (balance.toNat : ℤ) ≤ b src → Fits 256 (b dst + balance.toNat)
  | .createAccountCheckpoint caller target balance _ =>
      caller ≠ target →
        Fits 256 (b target + balance.toNat) ∧ Fits 256 (b caller - balance.toNat)
  | .selfdestruct address target => address ≠ target → Fits 256 (b target + b address)
  | .checkpointRevert =>
      ∀ checkpoint ∈ cfg.frames.head?,
        balanceRule.Guarded (cfg.journal.journal.drop checkpoint.journalI) b
  | _ => True

variable {db} in
theorem Op.funds_of_keepsValue {caller target : Address} {specId : SpecId}
    (h : (Op.createAccountCheckpoint caller target balance specId).keepsValue db cfg = true)
    (hne : caller ≠ target) : (balance.toNat : ℤ) ≤ balances db cfg.journal.state caller := by
  rcases Bool.or_eq_true_iff.1 h with heq | hle
  · exact absurd (beq_iff_eq.1 heq) hne
  · exact of_decide_eq_true hle

end Run

/-! ## The invariant of a run -/

/-- The balances at each open checkpoint, with what was burned until then; `sum` is the total of the
start. -/
inductive OpenFrames (sum : ℤ) :
    List JournalCheckpoint → List Nat → List JournalEntry → (Address → ℤ) → Prop
  | nil (log : List JournalEntry) (b : Address → ℤ) : OpenFrames sum [] [] log b
  | cons {checkpoint : JournalCheckpoint} {frames : List JournalCheckpoint} {burned : Nat}
      {saved : List Nat} {log log₀ : List JournalEntry} {b b₀ : Address → ℤ}
      (hlog : checkpoint.journalI = log₀.length) (hext : balanceRule.Extends log₀ b₀ log b)
      (hsum : total b₀ + burned = sum) (hrest : OpenFrames sum frames saved log₀ b₀) :
      OpenFrames sum (checkpoint :: frames) (burned :: saved) log b

theorem OpenFrames.grow {sum : ℤ} {saved : List Nat}
    {log log' : List JournalEntry} {b b' : Address → ℤ} (h : OpenFrames sum frames saved log b)
    (hext : balanceRule.Extends log b log' b') : OpenFrames sum frames saved log' b' := by
  cases h with
  | nil => exact .nil log' b'
  | cons hlog hext₀ hsum hrest => exact .cons hlog (hext₀.trans hext) hsum hrest

/-- The state of the ledger in a run. -/
structure Balanced {ε : Type} (db : Database ε) (sum : ℤ) (cfg : Config) (burned : Burned) :
    Prop where
  value : total (balances db cfg.journal.state) + burned.now = sum
  frames : OpenFrames sum cfg.frames burned.saved cfg.journal.journal
    (balances db cfg.journal.state)

namespace Balanced

variable {db : Database ε} {sum : ℤ} {j j' : JournalInner} {burned : Burned}

theorem total_lt (h : Balanced db sum cfg burned) (hsum : sum < 2 ^ 256) :
    total (balances db cfg.journal.state) < 2 ^ 256 := by
  have := h.value
  omega

section

variable (h : Balanced db sum ⟨j, frames⟩ burned)

include h

/-- An operation that leaves the checkpoints alone. -/
theorem books (amount : Nat) (hbooks : Books db j j')
    (htotal : total (balances db j'.state) + amount = total (balances db j.state)) :
    Balanced db sum ⟨j', frames⟩ ⟨burned.now + amount, burned.saved⟩ where
  value := by
    have := h.value
    dsimp only at this
    push_cast
    omega
  frames := h.frames.grow hbooks

theorem conserves (hc : Conserves db j j') : Balanced db sum ⟨j', frames⟩ burned :=
  h.books 0 hc.1 (by rw [hc.2]; simp)

/-- A checkpoint was taken in `j`, and `j'` grew from there. -/
theorem opened (hc : Conserves db j j') :
    Balanced db sum ⟨j', j.checkpoint.1 :: frames⟩ ⟨burned.now, burned.now :: burned.saved⟩ where
  value := (h.conserves hc).value
  frames := .cons rfl hc.1 h.value h.frames

end

theorem commit (h : Balanced db sum ⟨j, checkpoint :: frames⟩ burned) :
    Balanced db sum ⟨j.checkpointCommit, frames⟩ ⟨burned.now, burned.saved.tail⟩ := by
  obtain ⟨hsum, hframes⟩ := h
  obtain ⟨now, saved⟩ := burned
  cases hframes with
  | cons hlog hext hsum₀ hrest => exact ⟨hsum, hrest.grow hext⟩

theorem revert (h : Balanced db sum ⟨j, checkpoint :: frames⟩ burned)
    (hj' : j.checkpointRevert checkpoint = some j') :
    Balanced db sum ⟨j', frames⟩ ⟨burned.saved.headD burned.now, burned.saved.tail⟩ := by
  obtain ⟨-, hframes⟩ := h
  obtain ⟨now, saved⟩ := burned
  cases hframes with
  | cons hlog hext hsum₀ hrest =>
    obtain ⟨hjournal, hb⟩ := checkpointRevert_balances hlog hext hj'
    refine ⟨?_, ?_⟩
    · show total (balances db j'.state) + _ = sum
      rw [hb]
      exact hsum₀
    · show OpenFrames sum frames _ j'.journal (balances db j'.state)
      rw [hjournal, hb]
      exact hrest

/-- One operation keeps the ledger. -/
theorem step [Keccak256] (hsum : sum < 2 ^ 256)
    {r : Output ε × Config} (h : Balanced db sum cfg burned) (hop : op.keepsValue db cfg = true)
    (hstep : Revm.step db op cfg = some r) :
    Balanced db sum r.2 (burned.step op r.1 (op.burned db cfg.journal)) := by
  have htotal := h.total_lt hsum
  obtain ⟨j, frames⟩ := cfg
  cases op with
  | loadAccountOptional address loadCode skipColdLoad =>
    cases hstep
    exact h.conserves (Quiet.load hop).conserves
  | loadAccountDelegated address =>
    cases hstep
    obtain ⟨hfirst, hsecond⟩ := Bool.and_eq_true_iff.1 hop
    refine h.conserves (Quiet.loadDelegated hfirst ?_).conserves
    intro load j₁ delegated v b hload hcode
    simp only [hload, hcode] at hsecond
    exact hsecond
  | transferLoaded src dst balance =>
    obtain ⟨r', hr', rfl⟩ := Option.map_eq_some_iff.1 hstep
    exact h.conserves (transferLoaded_conserves htotal hr').1
  | createAccountCheckpoint caller target balance specId =>
    obtain ⟨r', hr', rfl⟩ := Option.map_eq_some_iff.1 hstep
    obtain ⟨hc, hcheckpoint⟩ :=
      createAccountCheckpoint_conserves (Op.funds_of_keepsValue hop) hr'
    obtain ⟨_ | checkpoint, j'⟩ := r'
    · exact h.conserves hc
    · obtain rfl := hcheckpoint checkpoint rfl
      exact h.opened hc
  | selfdestruct address target =>
    obtain ⟨r', hr', rfl⟩ := Option.map_eq_some_iff.1 hstep
    obtain ⟨hbooks, hburned⟩ := selfdestruct_books htotal hop hr'
    exact h.books _ hbooks hburned
  | checkpoint =>
    cases hstep
    exact h.opened (Quiet.conserves ⟨rfl, [], (List.append_nil _).symm, nofun⟩)
  | checkpointCommit =>
    cases frames with
    | nil => cases hstep
    | cons checkpoint frames =>
      cases hstep
      exact h.commit
  | checkpointRevert =>
    cases frames with
    | nil => cases hstep
    | cons checkpoint frames =>
      obtain ⟨j', hj', rfl⟩ := Option.map_eq_some_iff.1 hstep
      exact h.revert hj'
  | _ => cases hop

/-- Runs keep the ledger. -/
theorem run [Keccak256] (hsum : sum < 2 ^ 256) {ops : List Op} {cfg' : Config}
    (h : Balanced db sum cfg burned)
    (hops : EachStep db (fun op cfg => op.keepsValue db cfg = true) ops cfg)
    (hrun : Revm.run db ops cfg = some cfg') :
    Balanced db sum cfg' (burnedBy db ops cfg burned) := by
  induction ops generalizing cfg burned with
  | nil =>
    cases hrun
    exact h
  | cons op ops ih =>
    obtain ⟨r, hr, hrest⟩ := Option.bind_eq_some_iff.1 hrun
    simp only [burnedBy, hr]
    exact ih (h.step hsum hops.1 hr) (hops.2 r hr) hrest

/-- Nothing wraps in the next operation. -/
theorem exact [Keccak256] (hsum : sum < 2 ^ 256)
    (h : Balanced db sum cfg burned) (hop : op.keepsValue db cfg = true) : op.Exact db cfg := by
  have htotal := h.total_lt hsum
  have hnonneg := balances_nonneg db cfg.journal.state
  cases op with
  | transferLoaded src dst balance =>
    intro hne hfunds
    exact credit_fits htotal hne (by omega) hfunds
  | createAccountCheckpoint caller target balance specId =>
    intro hne
    have hfunds := Op.funds_of_keepsValue hop hne
    refine ⟨credit_fits htotal hne (by omega) hfunds, ?_⟩
    have := (balances_fits db cfg.journal.state caller).2
    constructor <;> omega
  | selfdestruct address target =>
    intro hne
    exact credit_fits htotal hne (hnonneg address) le_rfl
  | checkpointRevert =>
    obtain ⟨j, frames⟩ := cfg
    obtain ⟨now, saved⟩ := burned
    obtain ⟨-, hframes⟩ := h
    intro checkpoint hcheckpoint
    cases hframes with
    | nil => cases hcheckpoint
    | cons hlog hext hsum₀ hrest =>
      cases hcheckpoint
      obtain ⟨es, hes, hguarded, -⟩ := hext
      rw [hes, hlog, List.drop_left]
      exact hguarded
  | _ => exact trivial

end Balanced

/-! ## The total of a run -/

/-- The total of all balances changes by what is burned and not reverted, and no balance wraps. -/
theorem JournalInner.total_balances {ε : Type} [Keccak256] (db : Database ε) (j : JournalInner)
    (htotal : total (balances db j.state) < 2 ^ 256) (ops : List Op) (cfg : Config)
    (hops : EachStep db (fun op cfg => op.keepsValue db cfg = true) ops ⟨j, []⟩)
    (hrun : run db ops ⟨j, []⟩ = some cfg) :
    total (balances db cfg.journal.state) + (burnedBy db ops ⟨j, []⟩ .none).now =
        total (balances db j.state) ∧
      ∀ op : Op, op.keepsValue db cfg = true → op.Exact db cfg := by
  have hstart : Balanced db (total (balances db j.state)) ⟨j, []⟩ .none :=
    ⟨add_zero _, .nil _ _⟩
  have hend := hstart.run htotal hops hrun
  exact ⟨hend.value, fun op hop => hend.exact htotal hop⟩

/-! ## Runs on a small database -/

theorem total_contractDb {state : EvmState} (hkeys : state.keys ⊆ [1, 2]) :
    total (balances contractDb state) =
      ([1, 2].map (balances contractDb state)).sum := by
  refine total_eq_sum (by decide) fun a ha => ?_
  have hlookup : state.lookup a = none :=
    AList.lookup_eq_none.2 fun hmem => ha (hkeys (AList.mem_keys.1 hmem))
  have hone : a ≠ 1 := fun h => ha (by simp [h])
  unfold balances Database.balance contractDb
  simp only [hlookup, if_neg hone]
  rfl

/-- The contract pays the second account in a reverted frame that burns the payment, and is then
destroyed in its own favour. -/
def burningRun : List Op :=
  [.loadAccount 1, .loadAccount 2, .checkpoint, .transferLoaded 1 2 3, .selfdestruct 2 2,
    .checkpointRevert, .selfdestruct 1 1]

theorem JournalInner.total_balances_burningRun : letI := lengthKeccak
    ∃ cfg, run contractDb burningRun ⟨.new .shanghai .new, []⟩ = some cfg ∧
      total (balances contractDb cfg.journal.state) + 5 =
        total (balances contractDb (new .shanghai .new).state) ∧
      (Op.transferLoaded 2 1 3).Exact contractDb cfg := by
  let := lengthKeccak
  have htotal : total (balances contractDb (new .shanghai .new).state) < 2 ^ 256 := by
    rw [total_contractDb (by decide)]
    decide
  obtain ⟨cfg, hcfg⟩ : ∃ cfg, run contractDb burningRun ⟨.new .shanghai .new, []⟩ = some cfg :=
    ⟨_, rfl⟩
  have hmain := total_balances contractDb (.new .shanghai .new) htotal burningRun cfg
    (by decide) hcfg
  exact ⟨cfg, hcfg, hmain.1, hmain.2 _ rfl⟩

/-- The first transaction has destroyed the contract, which was then paid. -/
def repaidJournal : JournalInner :=
  journalAfter .shanghai [.loadAccount 1, .loadAccount 2, .selfdestruct 1 2, .transferLoaded 2 1 5]

/-- The contract is destroyed, paid and loaded again in one transaction. -/
def repaidRun : List Op :=
  [.loadAccount 1, .loadAccount 2, .selfdestruct 1 2, .transferLoaded 2 1 5, .loadAccount 1]

/-- A load takes the balance of an account that an earlier transaction destroyed, a creation without
funds wraps the balance of the caller, and after the first transaction a second load takes the
balance of an account that was destroyed in the same transaction. -/
theorem JournalInner.total_balances_lost : letI := lengthKeccak
    (total (balances contractDb repaidJournal.state) = 5 ∧
      ∃ cfg, run contractDb [.loadAccount 1] ⟨repaidJournal, []⟩ = some cfg ∧
        total (balances contractDb cfg.journal.state) = 0) ∧
    (∃ cfg, run contractDb [.loadAccount 2, .loadAccount 1, .createAccountCheckpoint 1 2 7 .prague]
        ⟨.new .prague .new, []⟩ = some cfg ∧
      (cfg.journal.state.lookup 1).map (·.info.balance) = some (-2)) ∧
    ∃ cfg, run contractDb repaidRun
        ⟨{ new .shanghai .new with transactionId := 1 }, []⟩ = some cfg ∧
      total (balances contractDb (new .shanghai .new).state) = 5 ∧
      total (balances contractDb cfg.journal.state) = 0 := by
  refine ⟨⟨?_, _, rfl, ?_⟩, ⟨_, rfl, by decide⟩, _, rfl, ?_, ?_⟩
  · rw [total_contractDb (by decide)]
    rfl
  · rw [total_contractDb (by decide)]
    rfl
  · rw [total_contractDb (by decide)]
    rfl
  · rw [total_contractDb (by decide)]
    rfl

end Revm
