import Revm.Journal.Nested

/-!
# Accesses that survive

EIP-2929 keeps the set of what the transaction has accessed; a reverted frame gives the set back
that it started with. `Surviving` is that set, with a copy for each open checkpoint, and `survivors`
carries it along a run. The journal has no such set: it marks accounts and slots. `Scope.Tracked`
relates the two, and `Scope.Tracked.run` reduces a statement about whole runs to the operations that
access something.
-/

set_option autoImplicit false

namespace Revm

/-- What was accessed and not reverted, now and at each open checkpoint, the innermost first. -/
structure Surviving (β : Type) where
  kept : List β
  saved : List (List β)

/-- Nothing was accessed. -/
def Surviving.empty {β : Type} : Surviving β := ⟨[], []⟩

/-- One operation that accesses `items`. -/
def Surviving.step {β : Type} (op : Op) (items : List β) (s : Surviving β) : Surviving β :=
  match op with
  | .checkpoint => ⟨s.kept, s.kept :: s.saved⟩
  | .checkpointCommit => ⟨s.kept, s.saved.tail⟩
  | .checkpointRevert => ⟨s.saved.headD s.kept, s.saved.tail⟩
  | _ => ⟨items ++ s.kept, s.saved⟩

section Survivors

variable {ε β : Type} [Keccak256] (db : Database ε)

/-- What survives of the accesses of a run. -/
def survivors (items : Op → JournalInner → List β) : List Op → Config → Surviving β → Surviving β
  | [], _, s => s
  | op :: ops, cfg, s =>
      match step db op cfg with
      | some r => survivors items ops r.2 (s.step op (items op cfg.journal))
      | none => s

end Survivors

/-- The operations that open and close checkpoints. -/
def Op.isBracket : Op → Bool
  | .checkpoint | .checkpointCommit | .checkpointRevert => true
  | _ => false

namespace Scope

variable {ε β : Type} {c : Scope ε}

variable (c) in
/-- The relation `R` between accounts and accesses holds now and at each open checkpoint. -/
def Tracked (R : Seen → List β → Prop) (base : JournalInner) (cfg : Config) (s : Surviving β) :
    Prop :=
  ∃ below, c.Nested base cfg.frames below cfg.journal ∧ R (c.see cfg.journal.state) s.kept ∧
    List.Forall₂ (fun j l => R (c.see j.state) l) below s.saved

namespace Tracked

variable {R : Seen → List β → Prop} {base : JournalInner} {s : Surviving β}

theorem inv {cfg : Config} (h : c.Tracked R base cfg s) : c.Inv cfg.journal := by
  obtain ⟨below, hnested, -⟩ := h
  exact hnested.inv

/-- An operation that leaves the checkpoints alone. -/
theorem grow {j j' : JournalInner} {frames : List JournalCheckpoint} (items : List β)
    (h : c.Tracked R base ⟨j, frames⟩ s) (hgrow : c.Grows j j')
    (hR : R (c.see j'.state) (items ++ s.kept)) :
    c.Tracked R base ⟨j', frames⟩ ⟨items ++ s.kept, s.saved⟩ := by
  obtain ⟨below, hnested, -, hsaved⟩ := h
  exact ⟨below, hnested.grow hgrow, hR, hsaved⟩

/-- Checkpoints save, keep and give back the accesses. -/
theorem bracket [Keccak256] {op : Op} {cfg : Config} {r : Output ε × Config} (items : List β)
    (h : c.Tracked R base cfg s) (hop : op.isBracket = true)
    (hstep : Revm.step c.db op cfg = some r) : c.Tracked R base r.2 (s.step op items) := by
  obtain ⟨j, frames⟩ := cfg
  obtain ⟨kept, saved⟩ := s
  obtain ⟨below, hnested, hR, hsaved⟩ := h
  cases op with
  | checkpoint =>
    cases hstep
    exact ⟨j :: below, hnested.checkpoint, hR, .cons hR hsaved⟩
  | checkpointCommit =>
    cases frames with
    | nil => cases hstep
    | cons cp frames =>
      cases hstep
      cases hsaved with
      | nil => cases hnested
      | cons hhead htail => exact ⟨_, hnested.commit, hR, htail⟩
  | checkpointRevert =>
    cases frames with
    | nil => cases hstep
    | cons cp frames =>
      cases hsaved with
      | nil => cases hnested
      | cons hhead htail =>
        obtain ⟨j', hj', hnested', hrest⟩ := hnested.revert
        obtain ⟨j'', hj'', rfl⟩ := Option.map_eq_some_iff.1 hstep
        obtain rfl : j' = j'' := Option.some.inj (hj'.symm.trans hj'')
        refine ⟨_, hnested', ?_, htail⟩
        -- the accounts are seen as when the checkpoint was taken
        have hsee : c.see j'.state = c.see _ := congrArg Prod.fst hrest.view
        rw [hsee]
        exact hhead
  | _ => cases hop

/-- A relation that every access keeps holds after every run. -/
theorem run [Keccak256] {items : Op → JournalInner → List β} {P : Op → Config → Prop}
    (haccess : ∀ op cfg r s, op.isBracket = false → P op cfg → c.Tracked R base cfg s →
      Revm.step c.db op cfg = some r → c.Tracked R base r.2 (s.step op (items op cfg.journal)))
    {ops : List Op} {cfg cfg' : Config} (h : c.Tracked R base cfg s)
    (hops : EachStep c.db P ops cfg) (hrun : Revm.run c.db ops cfg = some cfg') :
    c.Tracked R base cfg' (survivors c.db items ops cfg s) := by
  induction ops generalizing cfg s with
  | nil =>
    cases hrun
    exact h
  | cons op ops ih =>
    obtain ⟨r, hr, hrest⟩ := Option.bind_eq_some_iff.1 hrun
    have hnext : c.Tracked R base r.2 (s.step op (items op cfg.journal)) := by
      cases hop : op.isBracket with
      | true => exact h.bracket _ hop hr
      | false => exact haccess op cfg r s hop hops.1 h hr
    simp only [survivors, hr]
    exact ih hnext (hops.2 r hr) hrest

end Tracked

/-! ## The view of the accesses -/

/-- The view in which every slot is observed, for runs that create and destroy no account. -/
def access (db : Database ε) (j : JournalInner) : Scope ε where
  db := db
  spec := j.spec
  transactionId := j.transactionId
  warm := j.warmAddresses
  base := fun a k =>
    match j.state.lookup a with
    | some acc => some (if acc.isCreated then 0 else db.storageValue a k)
    | none => some (db.storageValue a k)
  fresh := fun _ => False
  creates := False
  strict := false
  strict_first := first_of_lax j

/-- The invariant holds of every journal. -/
theorem access_inv (db : Database ε) (j : JournalInner) : (access db j).Inv j where
  spec := rfl
  transactionId := rfl
  warm := rfl
  state := by
    intro a
    cases hl : j.state.lookup a with
    | none =>
      refine ⟨fun k v hbase => ?_, fun hc => hc.elim⟩
      simp only [access, hl] at hbase
      exact Option.some.inj hbase
    | some acc =>
      refine ⟨fun k v hbase _ => ?_, fun hc => hc.elim, fun hlive => ?_, nofun⟩
      · simp only [access, hl] at hbase
        exact Option.some.inj hbase
      · rcases hlive with hs | hfresh
        · cases hs
        · exact hfresh.elim
  seen := ⟨fun hc => hc.elim, fun hc => hc.elim⟩
  transient := nofun

end Scope

end Revm
