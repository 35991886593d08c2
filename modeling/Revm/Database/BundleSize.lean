import Revm.Database.Extend

/-!
# The sizes of a bundle

`state_size` and `reverts_size` are kept by every operation of a bundle. The operations here run
with the subtractions of the source checked: `BundlePanic.underflow` is a `usize` subtraction below
zero and `BundlePanic.unreachable` an arm of `update_and_create_revert` that panics.

`Sized slack b` says that the size of the reverts is right and the size of the state too large by
`slack`. No operation changes the slack but `extend`: the slots that it drains into the reverts of
the other bundle are still counted (`extend_sized`). So no subtraction ever goes below zero, and the
sizes are exact as long as nothing is drained (`bundle_sizes_exact`).
-/

set_option autoImplicit false

namespace Revm

open List BundleState HashMap BundleAccount Except

variable {address : Address} {old : BundleAccount} {b' : BundleState} {includeReverts : Bool}
  {acc : BundleState × BlockReverts} {Extends : BundleState → BundleState → Prop} {b : BundleState}

/-- The panics of the operations of a bundle. -/
inductive BundlePanic where
  | underflow
  | unreachable
  deriving DecidableEq, Repr

/-- A result that is no underflow, with a property if it is a value. -/
def Fitting {α : Type} (P : α → Prop) : Except BundlePanic α → Prop
  | .ok x => P x
  | .error .underflow => False
  | .error .unreachable => True

namespace Fitting

variable {α β σ : Type} {P Q : α → Prop} {r : Except BundlePanic α}

theorem ne_underflow (h : Fitting P r) : r ≠ .error .underflow := by
  rintro rfl
  exact h

theorem map {R : β → Prop} {f : α → β} (h : Fitting P r)
    (hf : ∀ x, P x → R (f x)) : Fitting R (r.map f) := by
  cases r with
  | ok x => exact hf x h
  | error e => cases e <;> exact h

theorem bind {R : β → Prop} {f : α → Except BundlePanic β}
    (h : Fitting P r) (hf : ∀ x, P x → Fitting R (f x)) : Fitting R (r.bind f) := by
  cases r with
  | ok x => exact hf x h
  | error e => cases e <;> exact h

/-- A loop keeps what its body keeps. -/
theorem foldlM {I : σ → Prop} {f : σ → α → Except BundlePanic σ} (l : List α)
    (hf : ∀ s x, x ∈ l → I s → Fitting I (f s x)) {s : σ} (hs : I s) :
    Fitting I (l.foldlM f s) := by
  induction l generalizing s with
  | nil => exact hs
  | cons x l ih =>
    exact (hf s x mem_cons_self hs).bind fun s' hs' =>
      ih (fun s x hx => hf s x (mem_cons_of_mem _ hx)) hs'

end Fitting

namespace BundleState

variable (self : BundleState)

/-! ## The operations -/

/-- The subtraction of the size of an entry stays above zero. -/
def entryFits (address : Address) : Bool :=
  match self.state.lookup address with
  | some entry => entry.sizeHint ≤ self.stateSize
  | none => true

/-- The loop body of `apply_transitions_and_create_reverts`. -/
def applyTransitionChecked (includeReverts : Bool) (acc : BundleState × BlockReverts)
    (transition : Sigma fun _ : Address => TransitionAccount) :
    Except BundlePanic (BundleState × BlockReverts) :=
  if acc.1.entryFits transition.1 then
    match applyTransitionStep includeReverts acc transition.1 transition.2 with
    | some acc => .ok acc
    | none => .error .unreachable
  else .error .underflow

def applyTransitionsChecked (transitions : TransitionState)
    (retention : BundleRetention) : Except BundlePanic BundleState :=
  (transitions.entries.foldlM (applyTransitionChecked (retention = .reverts)) (self, [])).map
    fun r => { r.1 with reverts := r.1.reverts ++ [r.2] }

/-- The loop body of `extend_state`. -/
def extendAccountChecked (other : Sigma fun _ : Address => BundleAccount) :
    Except BundlePanic BundleState :=
  if self.entryFits other.1 then .ok (self.extendAccount other.1 other.2) else .error .underflow

def extendStateChecked (otherState : HashMap Address BundleAccount) :
    Except BundlePanic BundleState :=
  otherState.entries.foldlM extendAccountChecked self

def extendChecked (self other : BundleState) : Except BundlePanic BundleState :=
  let extended := self.extendReverts other.reverts
  (extended.1.extendStateChecked other.state).map fun this =>
    { this with
      contracts := extendContracts this.contracts other.contracts
      reverts := this.reverts ++ extended.2 }

def prependStateChecked (self other : BundleState) : Except BundlePanic BundleState :=
  (other.extendStateChecked self.state).map fun extended =>
    { extended with contracts := extendContracts extended.contracts self.contracts }

/-- The loop body of `revert_latest`. -/
def revertAccountChecked (revert : Address × AccountRevert) : Except BundlePanic BundleState :=
  if revert.2.sizeHint ≤ self.revertsSize ∧ self.entryFits revert.1 then
    .ok (self.revertAccount revert.1 revert.2)
  else .error .underflow

def revertLatestChecked : Except BundlePanic (BundleState × Bool) :=
  match self.reverts.getLast? with
  | some reverts =>
      (reverts.foldlM revertAccountChecked { self with reverts := self.reverts.dropLast }).map
        fun reverted => (reverted, true)
  | none => .ok (self, false)

def revertChecked (self : BundleState) : Nat → Except BundlePanic BundleState
  | 0 => .ok self
  | n + 1 =>
      self.revertLatestChecked.bind fun r => if r.2 then r.1.revertChecked n else .ok r.1

end BundleState

/-- The operations of a bundle. -/
inductive BundleOp where
  | applyTransitions (transitions : TransitionState) (retention : BundleRetention)
  | extend (other : BundleState)
  | extendState (otherState : HashMap Address BundleAccount)
  | prependState (other : BundleState)
  | takeNReverts (revertsToTake : Nat)
  | takeAllReverts
  | revert (numTransitions : Nat)
  | revertLatest

/-- One operation. -/
def BundleState.run (self : BundleState) : BundleOp → Except BundlePanic BundleState
  | .applyTransitions transitions retention => self.applyTransitionsChecked transitions retention
  | .extend other => self.extendChecked other
  | .extendState otherState => self.extendStateChecked otherState
  | .prependState other => self.prependStateChecked other
  | .takeNReverts n => .ok (self.takeNReverts n).1
  | .takeAllReverts => .ok self.takeAllReverts.1
  | .revert n => self.revertChecked n
  | .revertLatest => self.revertLatestChecked.map (·.1)

/-! ## The sizes -/

namespace BundleState

variable (block : BlockReverts)

/-- The size of the reverts of one block. -/
def sizeOfBlock : Nat := (block.map fun r => r.2.sizeHint).sum

theorem sizeOfReverts_append (reverts others : List BlockReverts) :
    sizeOfReverts (reverts ++ others) = sizeOfReverts reverts + sizeOfReverts others := by
  unfold sizeOfReverts
  rw [flatten_append, map_append, sum_append]

theorem sizeOfReverts_singleton : sizeOfReverts [block] = sizeOfBlock block := by
  unfold sizeOfReverts sizeOfBlock
  rw [flatten_singleton]

/-- The size of the state is too large by `slack`, and the size of the reverts counts `extra` on top
of the reverts of the bundle. -/
structure SizedWith (slack extra : Nat) (b : BundleState) : Prop where
  state : b.stateSize = HashMap.total BundleAccount.sizeHint b.state + slack
  reverts : b.revertsSize = sizeOfReverts b.reverts + extra

/-- The size of the reverts is right, and the size of the state too large by `slack`. -/
def Sized (slack : Nat) (b : BundleState) : Prop := SizedWith slack 0 b

section Sized

variable {slack extra : Nat}

section

variable (h : SizedWith slack extra b)

include h

theorem SizedWith.entryFits (address : Address) : b.entryFits address = true := by
  unfold BundleState.entryFits
  cases hlookup : b.state.lookup address with
  | none => rfl
  | some entry =>
    have htotal := total_erase sizeHint hlookup
    have hstate := h.state
    exact decide_eq_true (by omega)

/-- An entry is replaced. -/
theorem SizedWith.replace (hlookup : b.state.lookup address = some old) (new : BundleAccount) :
    b.stateSize - old.sizeHint + new.sizeHint =
      HashMap.total BundleAccount.sizeHint (b.state.insert address new) + slack := by
  have htotal := total_erase sizeHint hlookup
  have hstate := h.state
  rw [total_insert]
  omega

/-- An entry is added. -/
theorem SizedWith.add
    (hlookup : b.state.lookup address = none) (new : BundleAccount) : b.stateSize + new.sizeHint =
      HashMap.total BundleAccount.sizeHint (b.state.insert address new) + slack := by
  rw [total_insert, total_erase_of_none _ hlookup, h.state]
  omega

/-- An entry is removed. -/
theorem SizedWith.remove (hlookup : b.state.lookup address = some old) :
    b.stateSize - old.sizeHint = HashMap.total BundleAccount.sizeHint
      (b.state.erase address) + slack := by
  have htotal := total_erase sizeHint hlookup
  have hstate := h.state
  omega

/-! ### Transitions -/

theorem SizedWith.applyTransition {transition : TransitionAccount} {revert : Option AccountRevert}
    (hrun : b.applyTransition address transition = some (revert, b')) :
    SizedWith slack extra b' := by
  unfold BundleState.applyTransition at hrun
  cases hlookup : b.state.lookup address with
  | some entry =>
    rw [hlookup] at hrun
    obtain ⟨updated, -, heq⟩ := Option.map_eq_some_iff.1 hrun
    cases heq
    exact ⟨h.replace hlookup updated.2, h.reverts⟩
  | none =>
    rw [hlookup] at hrun
    obtain ⟨created, -, heq⟩ := Option.map_eq_some_iff.1 hrun
    cases heq
    split_ifs
    · exact ⟨h.add hlookup _, h.reverts⟩
    · exact ⟨h.state, h.reverts⟩

end

theorem SizedWith.applyTransitionChecked (h : SizedWith slack (sizeOfBlock acc.2) acc.1)
    (transition : Sigma fun _ : Address => TransitionAccount) :
    Fitting (fun acc => SizedWith slack (sizeOfBlock acc.2) acc.1)
      (applyTransitionChecked includeReverts acc transition) := by
  unfold BundleState.applyTransitionChecked applyTransitionStep
  rw [if_pos (h.entryFits transition.1)]
  cases hrun : acc.1.applyTransition transition.1 transition.2 with
  | none => trivial
  | some applied =>
    obtain ⟨revert, b'⟩ := applied
    have happlied := h.applyTransition hrun
    cases revert with
    | none => exact happlied
    | some revert =>
      cases includeReverts with
      | true =>
        refine ⟨happlied.state, ?_⟩
        show b'.revertsSize + revert.sizeHint = _ + sizeOfBlock (acc.2 ++ [(transition.1, revert)])
        unfold sizeOfBlock
        rw [map_append, sum_append, happlied.reverts]
        exact Nat.add_assoc _ _ _
      | false => exact happlied

theorem Sized.applyTransitionsChecked (h : Sized slack b) (transitions : TransitionState)
    (retention : BundleRetention) :
    Fitting (Sized slack) (b.applyTransitionsChecked transitions retention) := by
  have hloop : Fitting (fun acc => SizedWith slack (sizeOfBlock acc.2) acc.1)
      (transitions.entries.foldlM (applyTransitionChecked (retention = .reverts)) (b, [])) :=
    Fitting.foldlM _ (fun acc transition _ hacc => hacc.applyTransitionChecked transition) h
  refine hloop.map fun acc hacc => ⟨hacc.state, ?_⟩
  rw [sizeOfReverts_append, sizeOfReverts_singleton, Nat.add_zero]
  exact hacc.reverts

/-! ### Extensions -/

section

variable (h : SizedWith slack extra b)

include h

theorem SizedWith.extendAccount (address : Address) (otherAccount : BundleAccount) :
    SizedWith slack extra (b.extendAccount address otherAccount) := by
  unfold BundleState.extendAccount
  cases hlookup : b.state.lookup address with
  | some this => exact ⟨h.replace hlookup _, h.reverts⟩
  | none => exact ⟨h.add hlookup _, h.reverts⟩

theorem SizedWith.extendStateChecked (otherState : HashMap Address BundleAccount) :
    Fitting (SizedWith slack extra) (b.extendStateChecked otherState) := by
  refine Fitting.foldlM _ (fun b' other _ h' => ?_) h
  unfold extendAccountChecked
  rw [if_pos (h'.entryFits other.1)]
  exact h'.extendAccount other.1 other.2

/-- The accounts whose storage the reverts of another bundle wipe have no slots here. -/
def NothingDrained (b : BundleState) (reverts : BlockReverts) : Prop :=
  ∀ revert ∈ reverts, revert.2.wipeStorage = true →
    ∀ account, b.state.lookup revert.1 = some account → account.storage = ∅

/-- The slots that a revert takes from the bundle are still counted. -/
theorem SizedWith.extendRevert (address : Address) (revert : AccountRevert) :
    ∃ drained, SizedWith (slack + drained) (extra + (b.extendRevert address revert).2.sizeHint)
        (b.extendRevert address revert).1 ∧
      (∀ rest, NothingDrained b ((address, revert) :: rest) →
        drained = 0 ∧ NothingDrained (b.extendRevert address revert).1 rest) := by
  have hreverts : ∀ {b' : BundleState} {size : Nat}, b'.reverts = b.reverts →
      b'.revertsSize = b.revertsSize →
      b'.revertsSize + size = sizeOfReverts b'.reverts + (extra + size) := by
    intro b' size hreverts hsize
    rw [hreverts, hsize, h.reverts, Nat.add_assoc]
  unfold BundleState.extendRevert
  by_cases hwipe : revert.wipeStorage = true
  · rw [if_pos hwipe]
    cases hlookup : b.state.lookup address with
    | none =>
      exact ⟨0, ⟨h.state, hreverts rfl rfl⟩, fun rest hrest =>
        ⟨rfl, fun r hr => hrest r (mem_cons_of_mem _ hr)⟩⟩
    | some account =>
      refine ⟨account.storage.entries.length, ⟨?_, hreverts rfl rfl⟩, fun rest hrest => ?_⟩
      · have htotal := total_erase sizeHint hlookup
        have hsize : account.sizeHint = 1 + account.storage.entries.length := rfl
        have hempty : sizeHint { account with storage := ∅ } = 1 := rfl
        have hstate := h.state
        show b.stateSize = total sizeHint (b.state.insert address _) + _
        rw [total_insert]
        omega
      · have hstorage := hrest (address, revert) mem_cons_self hwipe account hlookup
        refine ⟨by rw [hstorage]; rfl, fun r hr hr' other hother => ?_⟩
        obtain ⟨-, rfl⟩ | ⟨-, hother⟩ := lookup_insert_some hother
        · rfl
        · exact hrest r (mem_cons_of_mem _ hr) hr' other hother
  · rw [if_neg hwipe]
    exact ⟨0, ⟨h.state, hreverts rfl rfl⟩, fun rest hrest =>
      ⟨rfl, fun r hr => hrest r (mem_cons_of_mem _ hr)⟩⟩

theorem SizedWith.extendBlock (block : BlockReverts) :
    ∃ drained, SizedWith (slack + drained) (extra + sizeOfBlock (b.extendBlock block).2)
        (b.extendBlock block).1 ∧
      (∀ rest, NothingDrained b (block ++ rest) →
        drained = 0 ∧ NothingDrained (b.extendBlock block).1 rest) := by
  induction block generalizing slack extra b with
  | nil => exact ⟨0, h, fun rest hrest => ⟨rfl, hrest⟩⟩
  | cons revert block ih =>
    obtain ⟨address, revert⟩ := revert
    obtain ⟨drained, hsized, hnothing⟩ := h.extendRevert address revert
    obtain ⟨drained', hsized', hnothing'⟩ := ih hsized
    refine ⟨drained + drained', ?_, fun rest hrest => ?_⟩
    · rw [Nat.add_assoc, Nat.add_assoc] at hsized'
      exact hsized'
    · obtain ⟨rfl, hblock⟩ := hnothing (block ++ rest) hrest
      obtain ⟨rfl, hrest'⟩ := hnothing' rest hblock
      exact ⟨rfl, hrest'⟩

theorem SizedWith.extendReverts (reverts : List BlockReverts) :
    ∃ drained, SizedWith (slack + drained) (extra + sizeOfReverts (b.extendReverts reverts).2)
        (b.extendReverts reverts).1 ∧
      (NothingDrained b reverts.flatten → drained = 0) := by
  induction reverts generalizing slack extra b with
  | nil => exact ⟨0, h, fun _ => rfl⟩
  | cons block reverts ih =>
    obtain ⟨drained, hsized, hnothing⟩ := h.extendBlock block
    obtain ⟨drained', hsized', hnothing'⟩ := ih hsized
    refine ⟨drained + drained', ?_, fun hrest => ?_⟩
    · rw [Nat.add_assoc, Nat.add_assoc, ← sizeOfReverts_singleton,
        ← sizeOfReverts_append] at hsized'
      exact hsized'
    · rw [flatten_cons] at hrest
      obtain ⟨rfl, hrest'⟩ := hnothing _ hrest
      rw [hnothing' hrest']

end

/-- An extension keeps the slack, and adds the slots that it drains. -/
theorem Sized.extendChecked (h : Sized slack b) (other : BundleState) :
    ∃ drained, Fitting (Sized (slack + drained)) (b.extendChecked other) ∧
      (NothingDrained b other.reverts.flatten → drained = 0) := by
  obtain ⟨drained, hsized, hnothing⟩ := SizedWith.extendReverts h other.reverts
  refine ⟨drained, (hsized.extendStateChecked other.state).map fun this hthis => ?_, hnothing⟩
  refine ⟨hthis.state, ?_⟩
  rw [sizeOfReverts_append, hthis.reverts]
  omega

theorem Sized.prependStateChecked {other : BundleState} (h : Sized slack other) (b : BundleState) :
    Fitting (Sized slack) (b.prependStateChecked other) :=
  (SizedWith.extendStateChecked h b.state).map fun _ hextended =>
    ⟨hextended.state, hextended.reverts⟩

/-! ### Reverts -/

theorem SizedWith.revertAccount {extra : Nat} {revert : AccountRevert}
    (h : SizedWith slack (revert.sizeHint + extra) b) (address : Address) :
    Fitting (SizedWith slack extra) (b.revertAccountChecked (address, revert)) := by
  have hfits : revert.sizeHint ≤ b.revertsSize := by
    have := h.reverts
    omega
  have hsize : b.revertsSize - revert.sizeHint = sizeOfReverts b.reverts + extra := by
    have := h.reverts
    omega
  unfold revertAccountChecked
  rw [if_pos ⟨hfits, h.entryFits address⟩]
  unfold BundleState.revertAccount
  cases hlookup : b.state.lookup address with
  | some account =>
    dsimp only
    split_ifs
    · exact ⟨h.remove hlookup, hsize⟩
    · exact ⟨h.replace hlookup _, hsize⟩
  | none =>
    dsimp only
    split_ifs
    · exact ⟨h.state, hsize⟩
    · exact ⟨h.add hlookup _, hsize⟩

theorem SizedWith.revertBlock (h : SizedWith slack (sizeOfBlock block) b) :
    Fitting (Sized slack) (block.foldlM revertAccountChecked b) := by
  induction block generalizing b with
  | nil => exact h
  | cons revert block ih =>
    exact (SizedWith.revertAccount h revert.1).bind fun b' hb' => ih hb'

theorem Sized.revertLatestChecked (h : Sized slack b) :
    Fitting (fun r => Sized slack r.1) b.revertLatestChecked := by
  unfold BundleState.revertLatestChecked
  cases hlast : b.reverts.getLast? with
  | none => exact h
  | some block =>
    have hreverts : b.reverts = b.reverts.dropLast ++ [block] :=
      (dropLast_append_getLast? block hlast).symm
    have hsize : b.revertsSize = sizeOfReverts b.reverts.dropLast + sizeOfBlock block := by
      rw [← sizeOfReverts_singleton, ← sizeOfReverts_append, ← hreverts, h.reverts]
      rfl
    have hloop : Fitting (Sized slack)
        (block.foldlM revertAccountChecked { b with reverts := b.reverts.dropLast }) :=
      SizedWith.revertBlock block ⟨h.state, hsize⟩
    exact hloop.map fun _ hreverted => hreverted

theorem Sized.revertChecked (h : Sized slack b) (n : Nat) :
    Fitting (Sized slack) (b.revertChecked n) := by
  induction n generalizing b with
  | zero => exact h
  | succ n ih =>
    refine h.revertLatestChecked.bind fun r hr => ?_
    split_ifs
    · exact ih hr
    · exact hr

theorem Sized.takeNReverts (h : Sized slack b) (n : Nat) : Sized slack (b.takeNReverts n).1 := by
  unfold BundleState.takeNReverts
  split_ifs
  · exact ⟨h.state, rfl⟩
  · exact ⟨h.state, rfl⟩

end Sized

end BundleState

/-! ## Runs -/

/-- The bundles that operations make of the empty one, where every extension meets a condition. A
bundle that is put underneath another one is made in the same way. -/
inductive BundleReached (Extends : BundleState → BundleState → Prop) : BundleState → Prop
  | empty : BundleReached Extends .empty
  | run {b b' : BundleState} (op : BundleOp) (hb : BundleReached Extends b)
      (hextend : ∀ other, op = .extend other → Extends b other)
      (hprepend : ∀ other, op ≠ .prependState other) (hrun : b.run op = .ok b') :
      BundleReached Extends b'
  | prepend {b b' other : BundleState} (hb : BundleReached Extends b)
      (hother : BundleReached Extends other) (hrun : b.run (.prependState other) = .ok b') :
      BundleReached Extends b'

/-- One operation other than a `prepend_state`. -/
theorem BundleState.Sized.run {slack : Nat} (h : b.Sized slack) (op : BundleOp)
    (hprepend : ∀ other, op ≠ .prependState other) :
    ∃ drained, Fitting (Sized (slack + drained)) (b.run op) ∧
      ((∀ other, op = .extend other → b.NothingDrained other.reverts.flatten) → drained = 0) := by
  cases op with
  | applyTransitions transitions retention =>
    exact ⟨0, h.applyTransitionsChecked transitions retention, fun _ => rfl⟩
  | extend other =>
    obtain ⟨drained, hsized, hnothing⟩ := h.extendChecked other
    exact ⟨drained, hsized, fun hextend => hnothing (hextend other rfl)⟩
  | extendState otherState => exact ⟨0, SizedWith.extendStateChecked h otherState, fun _ => rfl⟩
  | prependState other => exact absurd rfl (hprepend other)
  | takeNReverts n => exact ⟨0, h.takeNReverts n, fun _ => rfl⟩
  | takeAllReverts => exact ⟨0, ⟨h.state, rfl⟩, fun _ => rfl⟩
  | revert n => exact ⟨0, h.revertChecked n, fun _ => rfl⟩
  | revertLatest => exact ⟨0, h.revertLatestChecked.map fun _ hr => hr, fun _ => rfl⟩

theorem BundleReached.sized (h : BundleReached Extends b) : ∃ slack, b.Sized slack ∧
      ((∀ b other, Extends b other → b.NothingDrained other.reverts.flatten) → slack = 0) := by
  induction h with
  | empty => exact ⟨0, ⟨rfl, rfl⟩, fun _ => rfl⟩
  | run op _ hextend hprepend hrun ih =>
    obtain ⟨slack, hsized, hslack⟩ := ih
    obtain ⟨drained, hfits, hdrained⟩ := hsized.run op hprepend
    rw [hrun] at hfits
    refine ⟨slack + drained, hfits, fun hnothing => ?_⟩
    rw [hslack hnothing, hdrained fun other hop => hnothing _ _ (hextend other hop)]
  | @prepend b _ _ _ _ hrun _ ih =>
    obtain ⟨slack, hsized, hslack⟩ := ih
    have hfits : Fitting (BundleState.Sized slack) (b.run (.prependState _)) :=
      hsized.prependStateChecked b
    rw [hrun] at hfits
    exact ⟨slack, hfits, hslack⟩

/-- No operation on a bundle that is reached subtracts below zero. -/
theorem BundleReached.run_fits (h : BundleReached Extends b) (op : BundleOp)
    (hother : ∀ other, op = .prependState other → BundleReached Extends other) :
    b.run op ≠ .error .underflow := by
  by_cases hprepend : ∃ other, op = .prependState other
  · obtain ⟨other, rfl⟩ := hprepend
    obtain ⟨slack, hsized, -⟩ := (hother other rfl).sized
    exact (hsized.prependStateChecked b).ne_underflow
  · obtain ⟨slack, hsized, -⟩ := h.sized
    obtain ⟨drained, hfits, -⟩ := hsized.run op fun other hop => hprepend ⟨other, hop⟩
    exact hfits.ne_underflow

/-- What is drained by an extension stays counted; everything else is exact. In all runs the size of
the reverts is exact, the size of the state is not too small and no subtraction underflows. In the
runs whose extensions drain nothing the size of the state is exact as well. -/
theorem bundle_sizes_exact (b : BundleState) : (BundleReached (fun _ _ => True) b →
      b.revertsSize = (b.reverts.flatten.map fun r => 1 + r.2.storage.entries.length).sum ∧
      (b.state.entries.map fun e => 1 + e.2.storage.entries.length).sum ≤ b.stateSize ∧
      ∀ op, (∀ other, op = .prependState other → BundleReached (fun _ _ => True) other) →
        b.run op ≠ .error .underflow) ∧
    (BundleReached (fun b other => b.NothingDrained other.reverts.flatten) b →
      b.stateSize = (b.state.entries.map fun e => 1 + e.2.storage.entries.length).sum ∧
      b.revertsSize = (b.reverts.flatten.map fun r => 1 + r.2.storage.entries.length).sum ∧
      ∀ op, (∀ other, op = .prependState other →
        BundleReached (fun b other => b.NothingDrained other.reverts.flatten) other) →
        b.run op ≠ .error .underflow) := by
  constructor
  · intro h
    obtain ⟨slack, hsized, -⟩ := h.sized
    exact ⟨hsized.reverts, by rw [hsized.state]; exact Nat.le_add_right _ _, h.run_fits⟩
  · intro h
    obtain ⟨slack, hsized, hslack⟩ := h.sized
    obtain rfl := hslack fun _ _ hnothing => hnothing
    exact ⟨hsized.state, hsized.reverts, h.run_fits⟩

/-- An account with a balance writes a slot. -/
def slotTransition : TransitionState :=
  (∅ : TransitionState).insert 1
    { info := some { AccountInfo.default with balance := 5 }
      status := .changed
      previousInfo := some { AccountInfo.default with balance := 5 }
      previousStatus := .loaded
      storage := (∅ : StorageWithOriginalValues).insert 1 ⟨0, 7⟩
      storageWasDestroyed := false }

/-- The account is destroyed. -/
def destroyTransition : TransitionState :=
  (∅ : TransitionState).insert 1
    { info := none
      status := .destroyed
      previousInfo := some { AccountInfo.default with balance := 5 }
      previousStatus := .changed
      storage := ∅
      storageWasDestroyed := true }

/-- The bundle of the written slot is extended by itself, and the slot counts once. -/
theorem bundle_sizes_exact_slotTransition :
    ∃ b b' : BundleState, empty.run (.applyTransitions slotTransition .reverts) =
      .ok b ∧
      b.run (.extend b) = .ok b' ∧ b'.revertsSize = 4 ∧ b'.stateSize = 2 ∧
      b'.stateSize = (b'.state.entries.map fun e => 1 + e.2.storage.entries.length).sum := by
  have hrun : ∃ b b' : BundleState, empty.run (.applyTransitions slotTransition .reverts) = .ok b ∧
      b.run (.extend b) = .ok b' ∧ b'.revertsSize = 4 ∧ b'.stateSize = 2 ∧
      b.reverts.flatten.map (fun r => r.2.wipeStorage) = [false] :=
    ⟨_, _, rfl, rfl, rfl, rfl, rfl⟩
  obtain ⟨b, b', hwrite, hextend, hreverts, hstate, hwipes⟩ := hrun
  have hb : BundleReached (fun b other => b.NothingDrained other.reverts.flatten) b :=
    .run _ .empty (fun _ h => by cases h) (fun _ h => by cases h) hwrite
  have hb' : BundleReached (fun b other => b.NothingDrained other.reverts.flatten) b' := by
    refine .run _ hb (fun other h => ?_) (fun _ h => by cases h) hextend
    cases h
    intro revert hrevert hwipe
    have hmem := mem_map_of_mem (f := fun r => r.2.wipeStorage) hrevert
    rw [hwipes, hwipe] at hmem
    cases mem_singleton.1 hmem
  exact ⟨b, b', hwrite, hextend, hreverts, hstate, ((bundle_sizes_exact b').2 hb').1⟩

/-- One bundle has the account with its slot, another one destroys it. The slot has gone into the
revert when the second is put on top of the first, and it is still counted. -/
theorem stateSize_counts_drained : ∃ b other b' : BundleState,
      empty.run (.applyTransitions slotTransition .reverts) = .ok b ∧
      empty.run (.applyTransitions destroyTransition .reverts) = .ok other ∧
      b.run (.extend other) = .ok b' ∧ b.stateSize = 2 ∧ b'.stateSize = 2 ∧
      (b'.state.entries.map fun e => 1 + e.2.storage.entries.length).sum = 1 :=
  ⟨_, _, _, rfl, rfl, rfl, rfl, rfl, rfl⟩

/-! ## The operations without checks -/

/-- A loop whose body is guarded does what the loop without the guard does. -/
theorem foldl_of_foldlM_guard {σ α : Type} {f : σ → α → σ} {guard : σ → α → Prop}
    [∀ s x, Decidable (guard s x)] {l : List α} {s s' : σ}
    (h : l.foldlM (fun s x => if guard s x then ok (f s x) else .error BundlePanic.underflow)
      s =
      ok s') : l.foldl f s = s' := by
  induction l generalizing s with
  | nil => exact ok.inj h
  | cons x l ih =>
    rw [foldlM_cons] at h
    split_ifs at h
    · exact ih h
    · cases h

theorem BundleState.foldlM_applyTransitionChecked
    {l : List (Sigma fun _ : Address => TransitionAccount)} {acc' : BundleState × BlockReverts}
    (h : l.foldlM (applyTransitionChecked includeReverts) acc = .ok acc') :
    l.foldlM (fun acc e => applyTransitionStep includeReverts acc e.1 e.2) acc = some acc' := by
  induction l generalizing acc with
  | nil => exact congrArg some (ok.inj h)
  | cons e l ih =>
    rw [foldlM_cons] at h ⊢
    unfold applyTransitionChecked at h
    split_ifs at h
    · cases hstep : applyTransitionStep includeReverts acc e.1 e.2 with
      | none =>
        rw [hstep] at h
        cases h
      | some acc₁ =>
        rw [hstep] at h
        exact ih h
    · cases h

/-- One operation with the subtractions of natural numbers. -/
def BundleState.runUnchecked (self : BundleState) : BundleOp → Option BundleState
  | .applyTransitions transitions retention =>
      self.applyTransitionsAndCreateReverts transitions retention
  | .extend other => some (self.extend other)
  | .extendState otherState => some (self.extendState otherState)
  | .prependState other => some (self.prependState other)
  | .takeNReverts n => some (self.takeNReverts n).1
  | .takeAllReverts => some self.takeAllReverts.1
  | .revert n => some (self.revert n)
  | .revertLatest => some self.revertLatest.1

theorem BundleState.extendState_of_checked {other : HashMap Address BundleAccount}
    (h : b.extendStateChecked other = .ok b') : b.extendState other = b' :=
  foldl_of_foldlM_guard (f := fun (b : BundleState) (e : Sigma fun _ : Address => BundleAccount) =>
    b.extendAccount e.1 e.2) h

theorem BundleState.revertLatest_of_checked {r : BundleState × Bool}
    (h : b.revertLatestChecked = .ok r) : b.revertLatest = r := by
  unfold revertLatestChecked at h
  unfold revertLatest
  cases hlast : b.reverts.getLast? with
  | none =>
    rw [hlast] at h
    exact ok.inj h
  | some block =>
    rw [hlast] at h
    dsimp only at h ⊢
    cases hloop : block.foldlM revertAccountChecked { b with reverts := b.reverts.dropLast } with
    | error e =>
      rw [hloop] at h
      cases h
    | ok reverted =>
      rw [hloop] at h
      cases h
      have hfold := foldl_of_foldlM_guard
        (f := fun (b : BundleState) (r : Address × AccountRevert) => b.revertAccount r.1 r.2) hloop
      rw [hfold]

theorem BundleState.revert_of_checked {n : Nat} (h : b.revertChecked n = .ok b') :
    b.revert n = b' := by
  induction n generalizing b with
  | zero => exact Except.ok.inj h
  | succ n ih =>
    unfold revertChecked at h
    unfold revert
    cases hlatest : b.revertLatestChecked with
    | error e =>
      rw [hlatest] at h
      cases h
    | ok r =>
      rw [hlatest] at h
      rw [revertLatest_of_checked hlatest]
      dsimp only [Except.bind] at h ⊢
      split_ifs at h ⊢
      · exact ih h
      · exact Except.ok.inj h

/-- Without a panic the checks do not show. -/
theorem BundleState.runUnchecked_of_run {op : BundleOp} (h : b.run op = .ok b') :
    b.runUnchecked op = some b' := by
  have hmap : ∀ {α β : Type} {x : Except BundlePanic α} {f : α → β} {y : β}, x.map f = .ok y →
      ∃ x', x = .ok x' ∧ f x' = y := by
    intro α β x f y hx
    cases x with
    | error e => cases hx
    | ok x' => exact ⟨x', rfl, ok.inj hx⟩
  cases op with
  | applyTransitions transitions retention =>
    obtain ⟨acc, hacc, rfl⟩ := hmap h
    show Option.map _ (transitions.entries.foldlM _ _) = _
    rw [foldlM_applyTransitionChecked hacc]
    rfl
  | extend other =>
    obtain ⟨this, hthis, rfl⟩ := hmap h
    unfold runUnchecked extend
    dsimp only
    rw [extendState_of_checked hthis]
  | extendState otherState => exact congrArg some (extendState_of_checked h)
  | prependState other =>
    obtain ⟨extended, hextended, rfl⟩ := hmap h
    unfold runUnchecked prependState
    dsimp only
    rw [extendState_of_checked hextended]
  | takeNReverts n => exact congrArg some (ok.inj h)
  | takeAllReverts => exact congrArg some (ok.inj h)
  | revert n => exact congrArg some (revert_of_checked h)
  | revertLatest =>
    obtain ⟨r, hr, rfl⟩ := hmap h
    show some b.revertLatest.1 = some r.1
    rw [revertLatest_of_checked hr]

end Revm
