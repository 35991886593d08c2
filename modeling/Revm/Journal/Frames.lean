import Revm.Journal.Access

/-!
# Frame operations and checkpoints

The remaining functions of the journal: those that change accounts, followed with `Scope.Grows`, and
the checkpoints. Reverting a checkpoint gives back what the journal showed when the checkpoint was
taken (`Scope.Grows.revert`).
-/

set_option autoImplicit false

namespace Revm

open JournalInner Option AList JournaledAccount

variable {j' : JournalInner} {code : Bytecode} {balance : U256} {target : Address}
  {j : JournalInner}

namespace Scope

variable {ε : Type} {c : Scope ε}

/-! ## Checkpoints -/

variable (c) in
/-- The journal `j'` shows what `j` showed. -/
structure Restores (j j' : JournalInner) : Prop where
  inv : c.Inv j'
  keep : c.Persists j.state j'.state
  journal : j'.journal = j.journal
  logs : j'.logs = j.logs
  depth : j'.depth = j.depth
  view : c.view j' = c.view j

theorem Restores.grows (h : c.Restores j j') : c.Grows j j' := by
  refine ⟨h.inv, h.keep, h.depth, ⟨[], by rw [h.logs, List.append_nil]⟩,
    ⟨[], by rw [h.journal, List.append_nil], nofun⟩, ?_⟩
  rw [h.journal, h.view]
  exact .refl _ _

theorem Inv.withDepth (h : c.Inv j) (depth : Nat) : c.Inv { j with depth := depth } :=
  ⟨h.spec, h.transactionId, h.warm, h.state, h.seen, h.transient⟩

/-- `checkpoint_revert` to a checkpoint of `j₀`. -/
theorem Grows.revert {j₀ j : JournalInner} (h₀ : c.Inv j₀) (h : c.Grows j₀.checkpoint.2 j) :
    ∃ j', j.checkpointRevert j₀.checkpoint.1 = some j' ∧ c.Restores j₀ j' := by
  obtain ⟨es, hes, hguard, hview⟩ := h.undo
  obtain ⟨logs, hlogs⟩ := h.logs
  have hjournal : j.journal = j₀.journal ++ es := hes
  have hdrop : j.journal.drop j₀.checkpoint.1.journalI = es := by
    rw [hjournal]
    exact List.drop_left
  have htake : j.journal.take j₀.checkpoint.1.journalI = j₀.journal := by
    rw [hjournal]
    exact List.take_left
  have hlive : ∀ e ∈ es, c.Live j.state e := by
    obtain ⟨es', hes', hlive⟩ := h.live
    rwa [List.append_cancel_left (hjournal.symm.trans hes')]
  obtain ⟨s', t', hrun, hback, hinv, hkeep, hzero⟩ :=
    revertAll_becomes h.inv.state j.transientStorage hlive hguard
  have hback' : (c.see s', fun key => (t'.lookup key).getD 0) = c.view j₀ := hback.trans hview
  have hsee : c.see s' = c.see j₀.state := congrArg Prod.fst hback'
  refine ⟨{ j with
      depth := j.depth - 1
      logs := j.logs.take j₀.checkpoint.1.logI
      journal := j₀.journal
      state := s'
      transientStorage := t' }, ?_, ⟨?_, h.keep.trans hkeep, ?_, ?_, ?_, ?_⟩⟩
  · simp only [checkpointRevert, hdrop, htake, h.inv.spec, hrun]
    rfl
  · refine ⟨h.inv.spec, h.inv.transactionId, h.inv.warm, hinv, ?_,
      fun hs => hzero (h.inv.transient hs)⟩
    rw [hsee]
    exact h₀.seen
  · rfl
  · show j.logs.take j₀.logs.length = j₀.logs
    rw [hlogs]
    exact List.take_left
  · show j.depth - 1 = j₀.depth
    rw [h.depth]
    rfl
  · exact hback'

/-! ## Touching and setting code -/

section Ops

variable {a : Address} (h : c.Inv j)
include h

theorem Inv.touch (hlive : ∀ acc, j.state.lookup a = some acc →
    acc.isStale c.transactionId = false) : c.Grows j (j.touch a) := by
  unfold JournalInner.touch
  cases hl : j.state.lookup a with
  | none => exact Grows.refl h
  | some acc => exact h.touchAccount hl (hlive acc hl)

section

variable (hlive : ∀ acc, j.state.lookup a = some acc →
  acc.isStale c.transactionId = false ∧ acc.info.codeHash = keccakEmpty)

include hlive

theorem Inv.setCodeWithHash {hash : B256}
    (hr : j.setCodeWithHash a code hash = some j') : c.Grows j j' := by
  simp only [JournalInner.setCodeWithHash, Option.bind_eq_bind, Option.bind_eq_some_iff] at hr
  obtain ⟨acc, hl, hr⟩ := hr
  obtain ⟨hstale, hempty⟩ := hlive acc hl
  have htouch := h.touchAccount hl hstale
  have hl₁ : (j.touchAccount a acc).state.lookup a = some acc.markTouch := by
    rw [touchAccount_eq]
    exact lookup_insert _
  have hset := htouch.inv.setCode (a := a) hl₁ hstale hempty hash code
  rw [JournalInner.modify, show ((j.touchAccount a acc).push (.codeChange a)).state.lookup a = _
    from hl₁] at hr
  cases hr
  exact htouch.trans hset

theorem Inv.setCodeOp [Keccak256] (hr : j.setCode a code = some j') : c.Grows j j' := by
  unfold JournalInner.setCode at hr
  cases code with
  | legacyAnalyzed bytes => exact h.setCodeWithHash hlive hr
  | eip7702 delegated version raw =>
    dsimp only at hr
    split_ifs at hr
    · exact h.setCodeWithHash hlive hr
    · exact h.setCodeWithHash hlive hr

end

/-! ## Transfers -/

theorem Inv.transferLoaded {src dst : Address} {r : Option TransferError × JournalInner}
    (hsrc : ∀ acc, j.state.lookup src = some acc → acc.isStale c.transactionId = false)
    (hdst : ∀ acc, j.state.lookup dst = some acc → acc.isStale c.transactionId = false)
    (hr : j.transferLoaded src dst balance = some r) (hok : r.1 ≠ some .overflowPayment) :
    c.Grows j r.2 := by
  cases transferOutcome hr with
  | same => exact Grows.refl h
  | nothing receiver hl => exact h.touchAccount hl (hdst receiver hl)
  | outOfFunds sender _ hl => exact h.touchAccount hl (hsrc sender hl)
  | overflow => exact absurd rfl hok
  | paid x y hne hx hy =>
    have h₁ := h.touchAccount hx (hsrc x hx)
    have hy₁ : (j.touchAccount src x).state.lookup dst = some y := by
      rw [touchAccount_eq]
      exact (lookup_insert_ne hne.symm).trans hy
    have h₂ := h₁.inv.touchAccount hy₁ (hdst y hy)
    -- both accounts are touched, then the value moves
    generalize hk : (j.touchAccount src x).touchAccount dst y = k at h₂
    simp only [touchAccount_eq] at hk
    have hkx : k.state.lookup src = some x.markTouch := by
      rw [← hk]
      exact (lookup_insert_ne hne).trans (lookup_insert _)
    have hky : k.state.lookup dst = some y.markTouch := by
      rw [← hk]
      exact lookup_insert _
    have htransfer := h₂.inv.transfer ⟨_, hkx, hsrc x hx⟩ ⟨_, hky, hdst y hy⟩
      (modify_of_some hky fun z => z.setBalance (z.info.balance + balance))
      (modify_of_some ((lookup_insert_ne hne).trans hkx) fun z =>
        z.setBalance (z.info.balance - balance))
    have hfinal := (h₁.trans (h₂.trans htransfer)).congr
      (s := (j.state.insert src (x.markTouch.setBalance (x.info.balance - balance))).insert dst
        (y.markTouch.setBalance (y.info.balance + balance))) fun b => by
      subst hk
      simp only [HashMap.lookup_insert_ite]
      split_ifs with hb hb'
      · exact absurd (hb'.symm.trans hb) hne
      · rfl
      · rfl
      · rfl
    subst hk
    exact hfinal

/-! ## Creating accounts -/

/-- `create_account_checkpoint` restores the journal when it fails, and leaves a checkpoint open
when it does not. -/
theorem Inv.createAccountCheckpoint (hc : c.creates) (hdb : c.NoCodelessStorage) {caller : Address}
    {specId : SpecId} {r : Except TransferError JournalCheckpoint × JournalInner}
    (hcaller : ∀ acc, j.state.lookup caller = some acc → acc.isStale c.transactionId = false)
    (htarget : ∀ acc, j.state.lookup target = some acc → acc.isStale c.transactionId = false ∧
      (c.strict = true → acc.info.codeHash = keccakEmpty → acc.info.nonce = 0 →
        acc.isColdTransactionId c.transactionId = false ∧ acc.isCreatedLocally = false))
    (hr : j.createAccountCheckpoint caller target balance specId = some r) :
    (∃ e, r.1 = .error e ∧ c.Restores j r.2) ∨
      (r.1 = .ok j.checkpoint.1 ∧ c.Grows j.checkpoint.2 r.2) := by
  have hinv : c.Inv j.checkpoint.2 := h.withDepth _
  simp only [JournalInner.createAccountCheckpoint, Option.bind_eq_bind, bind_eq_some_iff] at hr
  obtain ⟨acc, hl, hr⟩ := hr
  obtain ⟨hstale, hstrict⟩ := htarget acc hl
  by_cases hcollision : acc.info.codeHash ≠ keccakEmpty ∨ acc.info.nonce ≠ 0
  · rw [if_pos hcollision] at hr
    obtain ⟨j', hj', hrest⟩ := Grows.revert h (Grows.refl hinv)
    rw [hj'] at hr
    cases hr
    exact .inl ⟨_, rfl, hrest⟩
  rw [if_neg hcollision] at hr
  rw [not_or, not_not, not_not] at hcollision
  obtain ⟨hempty, hnonce⟩ := hcollision
  have h₁ := hinv.markCreated hc hdb hl hstale hempty hnonce
    (fun hs => hstrict hs hempty hnonce) specId
  generalize hnew : createdAccount acc specId = new at h₁ hr
  have hbalance : new.info.balance = acc.info.balance := by
    rw [← hnew]
    unfold createdAccount
    split_ifs <;> rfl
  have hnewstale : new.isStale c.transactionId = false := by
    rw [← hnew]
    unfold createdAccount
    split_ifs <;> exact hstale
  have h₂ := h₁.inv.touchAccount (lookup_insert _) hnewstale
  have hsame : (((j.checkpoint.2.push (.accountCreated target acc.markCreatedLocally.2)).setAccount
      target new).touchAccount target new) =
      (j.checkpoint.2.push (.accountCreated target acc.markCreatedLocally.2)).touchAccount
        target new := by
    simp only [touchAccount_eq, setAccount, insert_insert]
  rw [hsame] at h₂
  have hgrow := h₁.trans h₂
  generalize hk : (j.checkpoint.2.push (.accountCreated target
    acc.markCreatedLocally.2)).touchAccount
    target new = k at hgrow hr
  have hkt : k.state.lookup target = some new.markTouch := by
    rw [← hk, touchAccount_eq]
    exact lookup_insert _
  cases hadd : checkedAdd acc.info.balance balance with
  | none =>
    rw [hadd] at hr
    obtain ⟨j', hj', hrest⟩ := Grows.revert h hgrow
    rw [hj'] at hr
    cases hr
    exact .inl ⟨_, rfl, hrest⟩
  | some newBalance =>
    rw [hadd] at hr
    simp only [bind_eq_some_iff] at hr
    obtain ⟨j₁, hj₁, j₂, hj₂, hr⟩ := hr
    cases hr
    have hsum : newBalance = new.markTouch.info.balance + balance := by
      unfold checkedAdd at hadd
      split_ifs at hadd
      rw [← some.inj hadd]
      exact congrArg (· + balance) hbalance.symm
    rw [JournalInner.modify, hkt] at hj₁
    cases hj₁
    obtain ⟨x, hx, rfl⟩ := map_eq_some_iff.1 hj₂
    have hkcaller : c.Loaded k.state caller := by
      by_cases hne : caller = target
      · rw [hne]
        exact ⟨_, hkt, hnewstale⟩
      · have hx' : k.state.lookup caller = some x := by
          rw [← hx]
          exact (lookup_insert_ne hne).symm
        refine ⟨x, hx', hcaller x ?_⟩
        rw [← hx', ← hk, touchAccount_eq]
        exact (lookup_insert_ne hne).symm
    rw [hsum] at hx ⊢
    exact .inr ⟨rfl, hgrow.trans (hgrow.inv.transfer hkcaller ⟨_, hkt, hnewstale⟩
      (modify_of_some hkt fun z => z.setBalance (z.info.balance + balance))
      (modify_of_some hx fun z => z.setBalance (z.info.balance - balance)))⟩

/-! ## Selfdestruct -/

/-- The second half of `selfdestruct`, after the target was loaded. -/
theorem Inv.destroyAccount (hc : c.creates) {acc : Account} {j₂ : JournalInner}
    (htarget : c.Loaded j.state target) (hwarm : ∀ acc, j.state.lookup a = some acc →
      acc.isColdTransactionId c.transactionId = false) (hcredit : j.creditTarget a target = some j₂)
    (hl : j₂.state.lookup a = some acc) : c.Grows j (j₂.destroyAccount a target acc) := by
  unfold creditTarget at hcredit
  by_cases hne : a = target
  · rw [if_neg (not_not.2 hne)] at hcredit
    cases hcredit
    unfold JournalInner.destroyAccount
    rw [if_neg (not_not.2 hne)]
    split_ifs with hdestroy
    · exact h.destroy hc hl (hwarm acc hl) htarget (if_neg (not_not.2 hne))
    · exact Grows.refl h
  rw [if_pos hne] at hcredit
  simp only [bind_eq_bind, bind_eq_some_iff] at hcredit
  obtain ⟨x, hx, y, hy, hcredit⟩ := hcredit
  obtain ⟨y', hy', hlive⟩ := htarget
  obtain rfl : y' = y := some.inj (hy'.symm.trans hy)
  have h₁ := h.touchAccount hy hlive
  have hky : (j.touchAccount target y').state.lookup target = some y'.markTouch := by
    rw [touchAccount_eq]
    exact lookup_insert _
  have hkx : (j.touchAccount target y').state.lookup a = some x := by
    rw [touchAccount_eq]
    exact (lookup_insert_ne hne).trans hx
  rw [JournalInner.modify, hky] at hcredit
  cases hcredit
  have hxacc : x = acc := by
    have hl' : (j.touchAccount target y').state.lookup a = some acc := by
      rw [← hl]
      exact (lookup_insert_ne hne).symm
    exact some.inj (hkx.symm.trans hl')
  subst hxacc
  have hwarm' := hwarm x hx
  have hcredit := modify_of_some hky fun z => z.setBalance (z.info.balance + x.info.balance)
  unfold JournalInner.destroyAccount
  split_ifs with hdestroy
  · exact h₁.trans (h₁.inv.destroy hc hkx hwarm' ⟨_, hky, hlive⟩ ((if_pos hne).trans hcredit))
  · have htransfer := h₁.inv.transfer ⟨_, hkx, by simp [Account.isStale, hwarm']⟩ ⟨_, hky, hlive⟩
      hcredit (modify_of_some hl fun z => z.setBalance (z.info.balance - x.info.balance))
    simp only [BitVec.sub_self] at htransfer
    exact h₁.trans htransfer

theorem Inv.selfdestruct (hc : c.creates)
    {r : LoadAnswer ε SelfDestructResult × JournalInner}
    (hwarm : ∀ acc, (j.loadAccount c.db target).2.state.lookup a = some acc →
      acc.isColdTransactionId c.transactionId = false)
    (hr : j.selfdestruct c.db a target = some r) : c.Grows j r.2 := by
  unfold JournalInner.selfdestruct at hr
  cases hload : j.loadAccount c.db target with
  | mk result j₁ =>
    obtain ⟨h₁, hanswer⟩ := h.load hload
    rw [hload] at hr hwarm
    cases result with
    | error e =>
      cases hr
      exact h₁
    | ok load =>
      simp only [bind_eq_bind, bind_eq_some_iff] at hr
      obtain ⟨j₂, hcredit, acc, hl, hr⟩ := hr
      cases hr
      have hres := hanswer load rfl
      exact h₁.trans (h₁.inv.destroyAccount hc ⟨_, hres.lookup, hres.live⟩ hwarm hcredit hl)

end Ops

/-! ## Journaled accounts -/

/-- The journal after the handle was used. -/
def putAccount (j : JournalInner) (x : JournaledAccount) : JournalInner :=
  { j.setAccount x.address x.account with journal := x.journalEntries }

section Handle

variable {x : JournaledAccount}

variable (c) in
/-- A use of the handle that the journal records. -/
structure Handled (j : JournalInner) (x y : JournaledAccount) : Prop where
  address : y.address = x.address
  live : y.account.isStale c.transactionId = false
  grows : c.Grows (putAccount j x) (putAccount j y)

theorem Handled.trans {y z : JournaledAccount} (h₁ : c.Handled j x y) (h₂ : c.Handled j y z) :
    c.Handled j x z :=
  ⟨h₂.address.trans h₁.address, h₂.live, h₁.grows.trans h₂.grows⟩

theorem lookup_putAccount (j : JournalInner) (x : JournaledAccount) :
    (putAccount j x).state.lookup x.address = some x.account := lookup_insert _

variable (h : c.Inv (putAccount j x)) (hlive : x.account.isStale c.transactionId = false)
include h hlive

theorem Handled.touch : c.Handled j x x.touch ∧ x.touch.account.info = x.account.info := by
  have htouch := h.touchAccount (lookup_putAccount j x) hlive
  have hput : (putAccount j x).touchAccount x.address x.account = putAccount j x.touch := by
    rw [touchAccount_eq, x.touch_eq]
    simp [putAccount, setAccount, insert_insert]
  rw [hput] at htouch
  rw [x.touch_eq] at htouch ⊢
  exact ⟨⟨rfl, hlive, htouch⟩, rfl⟩

theorem Handled.setBalance (balance : U256) : c.Handled j x (x.setBalance balance) := by
  obtain ⟨htouch, -⟩ := Handled.touch h hlive
  unfold JournaledAccount.setBalance
  dsimp only
  split_ifs with hne
  · refine htouch.trans ⟨rfl, htouch.live, ?_⟩
    have hset := htouch.grows.inv.setBalance (lookup_putAccount j x.touch) htouch.live balance
    simpa [putAccount, setAccount, push, insert_insert] using hset
  · exact htouch

theorem Handled.incrBalance (balance : U256) : c.Handled j x (x.incrBalance balance).2 := by
  obtain ⟨htouch, -⟩ := Handled.touch h hlive
  unfold JournaledAccount.incrBalance
  dsimp only
  cases checkedAdd x.touch.account.info.balance balance with
  | none => exact htouch
  | some sum => exact htouch.trans (Handled.setBalance htouch.grows.inv htouch.live sum)

theorem Handled.decrBalance (balance : U256) : c.Handled j x (x.decrBalance balance).2 := by
  obtain ⟨htouch, -⟩ := Handled.touch h hlive
  unfold JournaledAccount.decrBalance
  dsimp only
  cases checkedSub x.touch.account.info.balance balance with
  | none => exact htouch
  | some rest => exact htouch.trans (Handled.setBalance htouch.grows.inv htouch.live rest)

theorem Handled.bumpNonce : c.Handled j x x.bumpNonce.2 := by
  obtain ⟨htouch, -⟩ := Handled.touch h hlive
  unfold JournaledAccount.bumpNonce
  dsimp only
  cases hadd : checkedAdd x.touch.account.info.nonce 1 with
  | none => exact htouch
  | some nonce =>
    refine htouch.trans ⟨rfl, htouch.live, ?_⟩
    have hset := htouch.grows.inv.setNonce (lookup_putAccount j x.touch) htouch.live hadd
    simpa [putAccount, setAccount, push, insert_insert] using hset

/-- The revert of a code change assumes that there was no code. -/
theorem Handled.setCode (hempty : x.account.info.codeHash = keccakEmpty) (hash : B256)
    (code : Bytecode) : c.Handled j x (x.setCode hash code) := by
  obtain ⟨htouch, hinfo⟩ := Handled.touch h hlive
  refine htouch.trans ⟨rfl, htouch.live, ?_⟩
  have hset := htouch.grows.inv.setCode (lookup_putAccount j x.touch) htouch.live
    (by rw [hinfo]; exact hempty) hash code
  simpa [putAccount, JournaledAccount.setCode, setAccount, push,
    insert_insert] using hset

theorem Handled.delegate [Keccak256] (hempty : x.account.info.codeHash = keccakEmpty)
    (target : Address) : c.Handled j x (x.delegate target) := by
  obtain ⟨htouch, hinfo⟩ := Handled.touch h hlive
  have hset := Handled.setCode htouch.grows.inv htouch.live (by rw [hinfo]; exact hempty)
  exact htouch.trans ((hset _ _).trans (Handled.bumpNonce (hset _ _).grows.inv (hset _ _).live))

theorem Handled.apply [Keccak256] (change : AccountChange)
    (hempty : ∀ target, change = .delegate target → x.account.info.codeHash = keccakEmpty) :
    c.Handled j x (change.apply x).2 := by
  cases change with
  | touch => exact (Handled.touch h hlive).1
  | setBalance balance => exact Handled.setBalance h hlive balance
  | incrBalance balance => exact Handled.incrBalance h hlive balance
  | decrBalance balance => exact Handled.decrBalance h hlive balance
  | bumpNonce => exact Handled.bumpNonce h hlive
  | delegate target => exact Handled.delegate h hlive (hempty target rfl) target

end Handle

/-- A load followed by a change through the handle. -/
theorem Inv.withJournaledAccount [Keccak256] (h : c.Inv j) (a : Address)
    (loadCode : Bool) (change : AccountChange) (hempty : ∀ target, change = .delegate target →
      ∀ load, (j.loadAccountMutOptionalCode c.db a loadCode false).1 = .ok load →
        load.data.info.codeHash = keccakEmpty) :
    c.Grows j (j.withJournaledAccount c.db a loadCode change.apply).2 := by
  unfold JournalInner.withJournaledAccount
  cases hload : j.loadAccountMutOptionalCode c.db a loadCode false with
  | mk result j₁ =>
    obtain ⟨h₁, hanswer⟩ := h.load hload
    cases result with
    | error e => exact h₁
    | ok load =>
      have hres := hanswer load rfl
      have hself : c.Grows j₁ (putAccount j₁ ⟨a, load.data, j₁.journal⟩) :=
        h₁.inv.setAccount_self hres.lookup
      have hhandled := Handled.apply hself.inv hres.live change fun target hchange =>
        hempty target hchange load (by rw [hload])
      have haddress := hhandled.address
      have hgrow := h₁.trans (hself.trans hhandled.grows)
      unfold putAccount at hgrow
      rw [haddress] at hgrow
      exact hgrow

/-- A delegation stores code, touches the account and leaves a nonce that is not zero. -/
theorem delegate_eq [Keccak256] (x : JournaledAccount) (target : Address) : ∃ hash code nonce es,
      x.delegate target =
        ⟨x.address, (x.account.markTouch.setCode hash code).setNonce nonce,
          x.journalEntries ++ es⟩ ∧ nonce ≠ 0 ∧
        nonce = (checkedAdd x.account.info.nonce 1).getD x.account.info.nonce ∧
        (if target = 0 then (Bytecode.default, keccakEmpty)
          else (Bytecode.newEip7702 target, (Bytecode.newEip7702 target).hashSlow)) =
            (code, hash) := by
  have hagain : ∀ (acc : Account) (entries : List JournalEntry), acc.isTouched = true →
      touch ⟨x.address, acc, entries⟩ = ⟨x.address, acc, entries⟩ := by
    intro acc entries hacc
    simp [JournaledAccount.touch, hacc]
  unfold delegate
  generalize (if target = 0 then (Bytecode.default, keccakEmpty)
    else (Bytecode.newEip7702 target, (Bytecode.newEip7702 target).hashSlow)) = new
  obtain ⟨code, hash⟩ := new
  dsimp only
  rw [x.touch_eq, JournaledAccount.setCode, hagain _ _ rfl, JournaledAccount.bumpNonce,
    hagain _ _ rfl]
  rw [show (x.account.markTouch.setCode hash code).info.nonce = x.account.info.nonce from rfl]
  cases hadd : checkedAdd x.account.info.nonce 1 with
  | none =>
    refine ⟨hash, code, x.account.info.nonce,
      touchEntries x.address x.account ++ [.codeChange x.address], ?_, fun hzero => ?_, rfl, rfl⟩
    · rw [List.append_assoc]
      rfl
    · rw [hzero] at hadd
      cases hadd
  | some nonce =>
    refine ⟨hash, code, nonce,
      touchEntries x.address x.account ++ [.codeChange x.address] ++ [.nonceChange x.address], ?_,
      ne_zero_of_checkedAdd_one hadd, rfl, rfl⟩
    rw [List.append_assoc, List.append_assoc, List.append_assoc]

/-- A delegation keeps the invariant even where its revert would lose the code. -/
theorem Inv.delegate [Keccak256] (h : c.Inv j) (a : Address) (loadCode : Bool) (target : Address) :
    c.Inv (j.withJournaledAccount c.db a loadCode (AccountChange.delegate target).apply).2 := by
  unfold JournalInner.withJournaledAccount
  cases hload : j.loadAccountMutOptionalCode c.db a loadCode false with
  | mk result j₁ =>
    obtain ⟨h₁, hanswer⟩ := h.load hload
    cases result with
    | error e => exact h₁.inv
    | ok load =>
      have hres := hanswer load rfl
      obtain ⟨hash, code, nonce, es, heq, hnonce, -⟩ :=
        delegate_eq ⟨a, load.data, j₁.journal⟩ target
      simp only [AccountChange.apply, heq]
      have hstale : (load.data.markTouch.setCode hash code).isStale c.transactionId = false :=
        hres.live
      have hb : c.Becomes j₁.state
          (j₁.state.insert a ((load.data.markTouch.setCode hash code).setNonce nonce))
          ((c.see j₁.state).modify a fun x =>
            { x with touched := !c.hidesTouch a, codeHash := hash, nonce := nonce }) := by
        refine Becomes.insert_sameFrame h₁.inv.state hres.lookup ⟨rfl, rfl, rfl, rfl, rfl, rfl⟩ ?_
        rw [see_setNonce hstale, see_setCode (show load.data.markTouch.isStale _ =
          _ from hres.live)]
        rfl
      have hseen : c.SeenInv ((c.see j₁.state).modify a fun x =>
          { x with touched := !c.hidesTouch a, codeHash := hash, nonce := nonce }) :=
        h₁.inv.seen.modify (fun _ _ hx => absurd hx.1 hnonce) (fun hc => h₁.inv.seen.destroyed hc a)
      exact h₁.inv.replace hb hseen

end Scope

end Revm
