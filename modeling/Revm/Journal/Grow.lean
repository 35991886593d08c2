import Revm.Journal.Keep

/-!
# What the operations do to the journal

Every operation of the journal that does not close a checkpoint only adds entries, and undoing what
it added gives back the view it started from. `Scope.Grows` states this together with the invariant
`Scope.Inv`; it is transitive, so each function of the source is followed step by step. The lemmas
about loads and storage also say what the operation answers.
-/

set_option autoImplicit false

namespace Revm

open SeenAccount Account JournalInner

variable {s s₁ : EvmState} {e : JournalEntry} {a : Address} {v : Seen}

namespace Scope

variable {ε : Type} (c : Scope ε)

/-- What holds of the seen accounts. -/
structure SeenInv (v : Seen) : Prop where
  /-- Nonce and code never disappear: a new account without them has none in the database. -/
  codeless : c.creates → ∀ a, c.fresh a → (v a).Codeless → c.DbCodeless a
  destroyed : c.creates → ∀ a, (v a).selfDestructedLocal = true → (v a).selfDestructed = true

/-- The invariant of the journal. -/
structure Inv (j : JournalInner) : Prop where
  spec : j.spec = c.spec
  transactionId : j.transactionId = c.transactionId
  warm : j.warmAddresses = c.warm
  state : c.StateInv j.state
  seen : c.SeenInv (c.see j.state)
  transient : c.strict = true → NonZero j.transientStorage

/-- The journal `j'` is `j` with further entries, and undoing them gives back `j`. -/
structure Grows (j j' : JournalInner) : Prop where
  inv : c.Inv j'
  keep : c.Persists j.state j'.state
  depth : j'.depth = j.depth
  logs : ∃ logs, j'.logs = j.logs ++ logs
  live : ∃ es, j'.journal = j.journal ++ es ∧ ∀ e ∈ es, c.Live j'.state e
  undo : c.rule.Extends j.journal (c.view j) j'.journal (c.view j')

variable {c}

/-- The accounts were changed and entries were added. -/
theorem Inv.replace {j : JournalInner} (h : c.Inv j)
    {es : List JournalEntry} (hb : c.Becomes j.state s v) (hseen : c.SeenInv v) :
    c.Inv { j with state := s, journal := j.journal ++ es } where
  spec := h.spec
  transactionId := h.transactionId
  warm := h.warm
  state := hb.inv
  seen := by
    rw [hb.see]
    exact hseen
  transient := h.transient

namespace Grows

variable {j j₁ j₂ : JournalInner}

theorem refl (h : c.Inv j) : c.Grows j j :=
  ⟨h, Persists.refl _, rfl, ⟨[], (List.append_nil _).symm⟩,
    ⟨[], (List.append_nil _).symm, nofun⟩, .refl _ _⟩

theorem trans (h₁ : c.Grows j j₁) (h₂ : c.Grows j₁ j₂) : c.Grows j j₂ := by
  obtain ⟨l₁, hl₁⟩ := h₁.logs
  obtain ⟨l₂, hl₂⟩ := h₂.logs
  obtain ⟨es₁, hes₁, hlive₁⟩ := h₁.live
  obtain ⟨es₂, hes₂, hlive₂⟩ := h₂.live
  refine ⟨h₂.inv, h₁.keep.trans h₂.keep, h₂.depth.trans h₁.depth,
    ⟨l₁ ++ l₂, by rw [hl₂, hl₁, List.append_assoc]⟩,
    ⟨es₁ ++ es₂, by rw [hes₂, hes₁, List.append_assoc], fun e he => ?_⟩, h₁.undo.trans h₂.undo⟩
  rcases List.mem_append.1 he with he | he
  · exact h₂.keep.live (hlive₁ e he)
  · exact hlive₂ e he

/-- A change that is not seen and records nothing. -/
theorem silent (h : c.Inv j) (hb : c.Becomes j.state s (c.see j.state)) :
    c.Grows j { j with state := s } where
  inv :=
    { spec := h.spec
      transactionId := h.transactionId
      warm := h.warm
      state := hb.inv
      seen := by
        rw [hb.see]
        exact h.seen
      transient := h.transient }
  keep := hb.keep
  depth := rfl
  logs := ⟨[], (List.append_nil _).symm⟩
  live := ⟨[], (List.append_nil _).symm, nofun⟩
  undo := by
    have hview : c.view { j with state := s } = c.view j := Prod.ext hb.see rfl
    rw [hview]
    exact .refl _ _

/-- A change of the accounts that records one entry. -/
theorem record (h : c.Inv j) (hb : c.Becomes j.state s v) (hseen : c.SeenInv v)
    (hlive : c.Live s e) (hguard : c.Undoable e v) (hundo : c.undoAccounts e v = c.see j.state)
    (htransient : ∀ t, undoTransient e t = t) :
    c.Grows j { j with state := s, journal := j.journal ++ [e] } where
  inv := h.replace hb hseen
  keep := hb.keep
  depth := rfl
  logs := ⟨[], (List.append_nil _).symm⟩
  live := ⟨[e], rfl, fun e' he' => by
    obtain rfl := List.mem_singleton.1 he'
    exact hlive⟩
  undo := by
    refine .record ⟨?_, trivial⟩ (Prod.ext ?_ (htransient _))
    · show c.Undoable e (c.see s)
      rw [hb.see]
      exact hguard
    · show c.undoAccounts e (c.see s) = _
      rw [hb.see]
      exact hundo

/-- A change of one account that records one entry about it. -/
theorem recordAccount (h : c.Inv j) {f g : SeenAccount → SeenAccount}
    (hb : c.Becomes j.state s ((c.see j.state).modify a f))
    (hseen : c.SeenInv ((c.see j.state).modify a f)) (hlive : c.Live s e)
    (hguard : c.Undoable e ((c.see j.state).modify a f))
    (he : ∀ v, c.undoAccounts e v = v.modify a g) (hg : g (f (c.see j.state a)) = c.see j.state a)
    (htransient : ∀ t, undoTransient e t = t) :
    c.Grows j { j with state := s, journal := j.journal ++ [e] } := by
  refine record h hb hseen hlive hguard ?_ htransient
  rw [he, Seen.modify_modify]
  exact Seen.modify_eq_self hg

/-- The journal matters only through the lookups in its state map. -/
theorem congr (h : c.Grows j j₁) (hs : ∀ a, s.lookup a = j₁.state.lookup a) :
    c.Grows j { j₁ with state := s } := by
  have hsee : c.see s = c.see j₁.state := by
    funext a
    simp [see, hs]
  have hinv : c.StateInv s := fun a => by
    rw [hs a]
    exact h.inv.state a
  have hkeep : c.Persists j₁.state s := by
    constructor
    · rintro a ⟨acc, hl, hstale⟩
      exact ⟨acc, (hs a).trans hl, hstale⟩
    · rintro a k ⟨acc, slot, hl, hstale, hk⟩
      exact ⟨acc, slot, (hs a).trans hl, hstale, hk⟩
  exact h.trans (silent h.inv ⟨hsee, hinv, hkeep⟩)

end Grows

/-! ## The seen invariant -/

namespace SeenInv

variable {f : SeenAccount → SeenAccount}

theorem modify (h : c.SeenInv v)
    (hcodeless : c.creates → c.fresh a → (f (v a)).Codeless → (v a).Codeless)
    (hdestroyed : c.creates → (f (v a)).selfDestructedLocal = true →
      (f (v a)).selfDestructed = true) : c.SeenInv (v.modify a f) := by
  constructor
  · intro hc b hfresh hb
    by_cases hba : b = a
    · subst hba
      rw [Seen.modify_self] at hb
      exact h.codeless hc b hfresh (hcodeless hc hfresh hb)
    · rw [Seen.modify_of_ne v hba] at hb
      exact h.codeless hc b hfresh hb
  · intro hc b hb
    by_cases hba : b = a
    · subst hba
      rw [Seen.modify_self] at hb ⊢
      exact hdestroyed hc hb
    · rw [Seen.modify_of_ne v hba] at hb ⊢
      exact h.destroyed hc b hb

/-- Changes that keep nonce, code hash and the selfdestruct flags. -/
theorem modify_same (h : c.SeenInv v) (hnonce : (f (v a)).nonce = (v a).nonce)
    (hcode : (f (v a)).codeHash = (v a).codeHash)
    (hlocal : (f (v a)).selfDestructedLocal = (v a).selfDestructedLocal)
    (hglobal : (f (v a)).selfDestructed = (v a).selfDestructed) : c.SeenInv (v.modify a f) := by
  refine h.modify (fun _ _ hx => ?_) fun hc hx => ?_
  · exact ⟨hnonce ▸ hx.1, hcode ▸ hx.2⟩
  · rw [hlocal] at hx
    rw [hglobal]
    exact h.destroyed hc a hx

theorem modifySlot (h : c.SeenInv v) (k : StorageKey) (g : SeenSlot → SeenSlot) :
    c.SeenInv (c.modifySlot v a k g) := by
  unfold Scope.modifySlot
  cases c.base a k with
  | none => exact h
  | some value => exact h.modify_same rfl rfl rfl rfl

end SeenInv

/-! ## Changes of accounts -/

section Change

variable {j : JournalInner} {acc : Account} (h : c.Inv j)
include h

section

variable (hl : j.state.lookup a = some acc)

include hl

/-- Storing the account that is there. -/
theorem Inv.setAccount_self : c.Grows j (j.setAccount a acc) :=
  (Grows.refl h).congr fun b => by
    rw [HashMap.lookup_insert_ite]
    split_ifs with hb
    · rw [hb, hl]
    · rfl

section

variable (hstale : acc.isStale c.transactionId = false)

include hstale

theorem Inv.touchAccount : c.Grows j (j.touchAccount a acc) := by
  unfold JournalInner.touchAccount
  cases htouched : acc.isTouched with
  | true => exact h.setAccount_self hl
  | false =>
    have hb : c.Becomes j.state (j.state.insert a acc.markTouch)
        ((c.see j.state).modify a fun x => { x with touched := !c.hidesTouch a }) :=
      Becomes.insert_sameFrame h.state hl ⟨rfl, rfl, rfl, rfl, rfl, rfl⟩ rfl
    refine Grows.recordAccount h hb (h.seen.modify_same rfl rfl rfl rfl)
      (g := fun x => { x with touched := false }) (hb.keep.account a ⟨acc, hl, hstale⟩) trivial
      (fun v => rfl) ?_ fun t => rfl
    have hfalse : (c.see j.state a).touched = false := by
      rw [see_of_some hl]
      simp [seeAccount, htouched]
    rw [← hfalse]

theorem Inv.setBalance (balance : U256) :
    c.Grows j ((j.push (.balanceChange acc.info.balance a)).setAccount a
      (acc.setBalance balance)) := by
  have hb : c.Becomes j.state (j.state.insert a (acc.setBalance balance))
      ((c.see j.state).modify a fun x => { x with balance := balance }) :=
    Becomes.insert_sameFrame h.state hl ⟨rfl, rfl, rfl, rfl, rfl, rfl⟩
      (see_setBalance hstale balance)
  refine Grows.recordAccount h hb (h.seen.modify_same rfl rfl rfl rfl)
    (g := fun x => { x with balance := acc.info.balance }) (hb.keep.account a ⟨acc, hl, hstale⟩)
    trivial (fun v => rfl) ?_ fun t => rfl
  rw [see_of_some hl, seeAccount_of_live hstale]

/-- The nonce was not at its maximum. -/
theorem Inv.setNonce {nonce : U64} (hnonce : checkedAdd acc.info.nonce 1 = some nonce) :
    c.Grows j ((j.push (.nonceChange a)).setAccount a (acc.setNonce nonce)) := by
  have hpos := ne_zero_of_checkedAdd_one hnonce
  unfold checkedAdd at hnonce
  split_ifs at hnonce
  cases hnonce
  have hb : c.Becomes j.state (j.state.insert a (acc.setNonce (acc.info.nonce + 1)))
      ((c.see j.state).modify a fun x => { x with nonce := acc.info.nonce + 1 }) :=
    Becomes.insert_sameFrame h.state hl ⟨rfl, rfl, rfl, rfl, rfl, rfl⟩ (see_setNonce hstale _)
  have hseen : c.SeenInv
      ((c.see j.state).modify a fun x => { x with nonce := acc.info.nonce + 1 }) :=
    h.seen.modify (fun _ _ hx => absurd hx.1 hpos) (fun hc => h.seen.destroyed hc a)
  refine Grows.recordAccount h hb hseen (g := fun x => { x with nonce := x.nonce - 1 })
    (hb.keep.account a ⟨acc, hl, hstale⟩) trivial (fun v => rfl) ?_ fun t => rfl
  rw [see_of_some hl, seeAccount_of_live hstale]
  simp

/-- Code is only set on an account without code. -/
theorem Inv.setCode (hempty : acc.info.codeHash = keccakEmpty) (hash : B256) (code : Bytecode) :
    c.Grows j ((j.push (.codeChange a)).setAccount a (acc.setCode hash code)) := by
  have hb : c.Becomes j.state (j.state.insert a (acc.setCode hash code))
      ((c.see j.state).modify a fun x => { x with codeHash := hash }) :=
    Becomes.insert_sameFrame h.state hl ⟨rfl, rfl, rfl, rfl, rfl, rfl⟩
      (see_setCode hstale hash code)
  have hcode : (c.see j.state a).codeHash = keccakEmpty := by
    rw [see_of_some hl, seeAccount_of_live hstale]
    exact hempty
  have hseen : c.SeenInv ((c.see j.state).modify a fun x => { x with codeHash := hash }) :=
    h.seen.modify (fun _ _ hx => ⟨hx.1, hcode⟩) (fun hc => h.seen.destroyed hc a)
  refine Grows.recordAccount h hb hseen (g := fun x => { x with codeHash := keccakEmpty })
    (hb.keep.account a ⟨acc, hl, hstale⟩) trivial (fun v => rfl) ?_ fun t => rfl
  rw [← hcode]

end

end

/-- A transfer. The recipient is credited first, so that nothing depends on the two addresses being
different. -/
theorem Inv.transfer {src dst : Address} (hsrc : c.Loaded j.state src)
    (hdst : c.Loaded j.state dst) {amount : U256} {s₂ : EvmState}
    (h₁ : j.state.modify dst (fun x => x.setBalance (x.info.balance + amount)) = some s₁)
    (h₂ : s₁.modify src (fun x => x.setBalance (x.info.balance - amount)) = some s₂) : c.Grows j
      { j with state := s₂, journal := j.journal ++ [.balanceTransfer amount src dst] } := by
  obtain ⟨_, h₁', hb₁⟩ := revert_balance h.state hdst (f := fun x => x + amount)
    (g := credit amount) fun x => rfl
  rw [h₁] at h₁'
  cases h₁'
  obtain ⟨_, h₂', hb₂⟩ := revert_balance hb₁.inv (hb₁.keep.account src hsrc)
    (f := fun x => x - amount) (g := debit amount) fun x => rfl
  rw [h₂] at h₂'
  cases h₂'
  rw [hb₁.see] at hb₂
  have hb := hb₁.trans hb₂
  refine Grows.record h hb ?_ ⟨hb.keep.account src hsrc, hb.keep.account dst hdst⟩ trivial ?_
    fun t => rfl
  · exact (h.seen.modify_same rfl rfl rfl rfl).modify_same rfl rfl rfl rfl
  · show (((((c.see j.state).modify dst _).modify src _).modify src _).modify dst _) = _
    rw [Seen.modify_modify]
    simp only [credit_debit]
    rw [Seen.modify_eq_self (v := (c.see j.state).modify dst _) rfl, Seen.modify_modify]
    exact Seen.modify_eq_self (debit_credit _ _)

/-- An account without nonce and code is marked as created. Its unloaded slots are zero in the
database, so they are seen as before. -/
theorem Inv.markCreated (hc : c.creates) (hdb : c.NoCodelessStorage)
    (hl : j.state.lookup a = some acc) (hstale : acc.isStale c.transactionId = false)
    (hempty : acc.info.codeHash = keccakEmpty) (hnonce : acc.info.nonce = 0)
    (hstrict : c.strict = true → acc.isColdTransactionId c.transactionId = false ∧
      acc.isCreatedLocally = false) (specId : SpecId) :
    c.Grows j ((j.push (.accountCreated a acc.markCreatedLocally.2)).setAccount a
      (createdAccount acc specId)) := by
  have hcodeless : (c.see j.state a).Codeless := by
    rw [see_of_some hl, seeAccount_of_live hstale]
    exact ⟨hnonce, hempty⟩
  have hframe : ∃ nonce, createdAccount acc specId =
      ({ acc.markCreatedLocally.1 with info := { acc.info with code := none } } : Account).setNonce
        nonce := by
    unfold createdAccount
    split_ifs
    · exact ⟨1, rfl⟩
    · exact ⟨acc.info.nonce, rfl⟩
  obtain ⟨nonce, hcreated⟩ := hframe
  rw [hcreated]
  generalize hacc' : ({ acc.markCreatedLocally.1 with
    info := { acc.info with code := none } } : Account).setNonce nonce = acc'
  have hstale' : acc'.isStale c.transactionId = false := by
    subst hacc'
    exact hstale
  have hb : c.Becomes j.state (j.state.insert a acc') ((c.see j.state).modify a fun x =>
      { x with
        created := true
        createdLocal := c.strict && !acc.isColdTransactionId c.transactionId
        nonce := nonce }) := by
    refine Becomes.insert_live h.state hl hstale hstale' (by subst hacc'; rfl)
      (fun k v hb hnone => ?_)
      (fun hs hcold => ?_) ?_
    · obtain ⟨hfresh, hv⟩ := (h.state.account hl).vacant hc k v hb hnone
      have htrue : acc'.isCreated = true := by
        subst hacc'
        rfl
      rw [htrue, ← hv, hdb a k v hb hfresh (h.seen.codeless hc a hfresh hcodeless)]
      rfl
    · have hwarm := (hstrict hs).1
      subst hacc'
      exact absurd (hcold.symm.trans hwarm) Bool.noConfusion
    · rw [seeAccount_of_live hstale, seeAccount_of_live hstale']
      subst hacc'
      simp [Account.setNonce, Account.markCreatedLocally, Account.isTouched, Account.isCreated,
        Account.isCreatedLocally, Account.isSelfdestructed, Account.isSelfdestructedLocally,
        Account.isColdTransactionId]
  refine Grows.recordAccount h hb (h.seen.modify (fun _ _ _ => hcodeless)
    (fun hc => h.seen.destroyed hc a))
    (g := fun x =>
      { x with
        createdLocal := false
        created := if acc.markCreatedLocally.2 then false else x.created
        nonce := 0 })
    (hb.keep.account a ⟨acc, hl, hstale⟩) hc (fun v => rfl) ?_ fun t => rfl
  rw [see_of_some hl, seeAccount_of_live hstale]
  have hlocal : (c.strict && acc.isCreatedLocally &&
      !acc.isColdTransactionId c.transactionId) = false := by
    cases hs : c.strict with
    | false => rfl
    | true => simp [(hstrict hs).2]
  have hglobal : (if acc.markCreatedLocally.2 then false else true) = acc.isCreated := by
    cases hg : acc.isCreated <;>
      simp_all [Account.markCreatedLocally, Account.isCreated]
  rw [hlocal]
  simp only [hnonce, ← hglobal]

/-- A warm account is marked as destroyed; its balance went to the target before. -/
theorem Inv.destroy (hc : c.creates) {target : Address} (hl : j.state.lookup a = some acc)
    (hwarm : acc.isColdTransactionId c.transactionId = false) (htarget : c.Loaded j.state target)
    (h₁ : (if a ≠ target then
        j.state.modify target fun x => x.setBalance (x.info.balance + acc.info.balance)
      else some j.state) = some s₁) : c.Grows j
      { j with
        state := s₁.insert a (acc.markSelfdestructedLocally.setBalance 0)
        journal := j.journal ++ [.accountDestroyed acc.info.balance a target
          (destroyedStatus acc)] } := by
  have hstale : acc.isStale c.transactionId = false := by simp [Account.isStale, hwarm]
  generalize hacc' : acc.markSelfdestructedLocally.setBalance 0 = acc'
  have hwarm' : acc'.isColdTransactionId c.transactionId = false := by
    subst hacc'
    exact hwarm
  have hstale' : acc'.isStale c.transactionId = false := by simp [Account.isStale, hwarm']
  -- the target is credited first; the destroyed account is not changed by that
  obtain ⟨v₁, hb₁, hv₁⟩ : ∃ v₁, c.Becomes j.state s₁ v₁ ∧
      v₁ = if a ≠ target then (c.see j.state).modify target (credit acc.info.balance)
        else c.see j.state := by
    by_cases hne : a = target
    · rw [if_neg (not_not.2 hne)] at h₁
      cases h₁
      exact ⟨_, ⟨rfl, h.state, Persists.refl _⟩, by rw [if_neg (not_not.2 hne)]⟩
    · rw [if_pos hne] at h₁
      obtain ⟨_, h₁', hb₁⟩ := revert_balance h.state htarget
        (f := fun x => x + acc.info.balance) (g := credit acc.info.balance) fun x => rfl
      rw [h₁] at h₁'
      cases h₁'
      exact ⟨_, hb₁, by rw [if_pos hne]⟩
  have hl₁ : s₁.lookup a = some acc := by
    by_cases hne : a = target
    · rw [if_neg (not_not.2 hne)] at h₁
      cases h₁
      exact hl
    · rw [if_pos hne] at h₁
      obtain ⟨x, -, rfl⟩ := Option.map_eq_some_iff.1 h₁
      rw [AList.lookup_insert_ne hne]
      exact hl
  let mark : SeenAccount → SeenAccount := fun x =>
    { x with selfDestructedLocal := true, selfDestructed := true, balance := 0 }
  have hb₂ : c.Becomes s₁ (s₁.insert a acc') ((c.see s₁).modify a mark) := by
    refine Becomes.insert_live hb₁.inv hl₁ hstale hstale' (by subst hacc'; rfl)
      (fun k v hb hnone => ?_)
      (fun _ hcold => ?_) ?_
    · subst hacc'
      exact (h.state.account hl).backed k v hb hnone
    · rw [hwarm'] at hcold
      cases hcold
    · rw [seeAccount_of_live hstale, seeAccount_of_live hstale']
      subst hacc'
      simp [mark, Account.setBalance, Account.markSelfdestructedLocally, Account.isTouched,
        Account.isCreated, Account.isCreatedLocally, Account.isSelfdestructed,
        Account.isSelfdestructedLocally, Account.isColdTransactionId] at hwarm ⊢
      exact hwarm
  have hb := hb₁.trans hb₂
  rw [hb₁.see] at hb
  have hseen₁ : c.SeenInv v₁ := by
    rw [hv₁]
    split_ifs
    · exact h.seen.modify_same rfl rfl rfl rfl
    · exact h.seen
  have hsame : v₁ a = c.see j.state a := by
    rw [← hb₁.see, see_of_some hl₁, see_of_some hl]
  have hundo : ((mark (v₁ a)).undestroy (destroyedStatus acc)).credit
      acc.info.balance = v₁ a := by
    have hdestroyed := h.seen.destroyed hc a
    rw [hsame]
    rw [see_of_some hl, seeAccount_of_live hstale] at hdestroyed ⊢
    cases hglobal : acc.isSelfdestructed <;> cases hlocal : acc.isSelfdestructedLocally <;>
      simp_all [mark, destroyedStatus, SeenAccount.undestroy, SeenAccount.credit]
  refine Grows.record h hb (hseen₁.modify (fun _ _ hx => hx) fun _ _ => rfl)
    ⟨hb.keep.account a ⟨acc, hl, hstale⟩, hb.keep.account target htarget⟩ trivial ?_ fun t => rfl
  have hback : (v₁.modify a mark).modify a
      (fun x => (x.undestroy (destroyedStatus acc)).credit acc.info.balance) = v₁ := by
    rw [Seen.modify_modify]
    exact Seen.modify_eq_self hundo
  simp only [undoAccounts, hback]
  rw [hv₁]
  split_ifs with hne
  · rw [Seen.modify_modify]
    exact Seen.modify_eq_self (debit_credit _ _)
  · rfl

end Change

end Scope

end Revm
