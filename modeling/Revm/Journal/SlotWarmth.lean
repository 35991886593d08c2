import Revm.Journal.Accesses

/-!
# Warm and cold storage slots

EIP-2929 charges the first access to a storage slot in a transaction, and EIP-2200 compares a store
with the value that the slot had when the transaction started. `JournalInner.slot_isCold_iff` says
that `sload` and `sstore` answer both, for slots that earlier transactions left in the journal and
for slots that come from the database, whatever was reverted in between.

Two kinds of slots are answered wrongly (`JournalInner.slot_isCold_wrong`) and excluded by
`slotReady`: a slot that an earlier transaction left in the journal is cold even if the access list
of the transaction names it, and a slot of an account that an earlier transaction destroyed is read
from the database.
-/

set_option autoImplicit false

namespace Revm

open JournalInner Option

variable {ε : Type} {accessed : List (Address × StorageKey)}

section Conditions

variable (db : Database ε)

/-- The account was destroyed before the current transaction. -/
def Account.isDestroyedEarlier (acc : Account) (transactionId : Nat) : Bool :=
  acc.isSelfdestructed &&
    (acc.isColdTransactionId transactionId || !acc.isSelfdestructedLocally)

/-- The value that a slot has before its first access in the transaction. -/
def JournalInner.startValue (self : JournalInner) (a : Address) (k : StorageKey) : StorageValue :=
  match self.state.lookup a with
  | none => db.storageValue a k
  | some acc =>
      match (acc.settledStorage self.transactionId).lookup k with
      | some slot => slot.presentValue
      | none =>
          if acc.isCreated || acc.isDestroyedEarlier self.transactionId then 0
          else db.storageValue a k

/-- The slot is one that `sload` and `sstore` answer correctly. -/
def JournalInner.slotReady (self : JournalInner) (a : Address) (k : StorageKey) : Bool :=
  match self.state.lookup a with
  | none => true
  | some acc =>
      -- the account was loaded
      !acc.isStale self.transactionId &&
      -- a slot that an earlier transaction left is not in the access list
      (match acc.storage.lookup k with
        | some slot => !slot.isColdTransactionId self.transactionId ||
            !self.warmAddresses.isStorageWarm a k
        | none => true) &&
      -- an account that an earlier transaction destroyed has no storage in the database
      (!acc.isSelfdestructed || acc.isSelfdestructedLocally || acc.isCreated ||
        db.storageValue a k == 0)

/-- The operations of the run: loads, storage accesses and checkpoints. -/
def slotOk (op : Op) (cfg : Config) : Bool :=
  match op with
  | .sload a k _ => cfg.journal.slotReady db a k
  | .sstore a k _ _ => cfg.journal.slotReady db a k
  | .loadAccountOptional .. | .loadAccountDelegated _ => true
  | .checkpoint | .checkpointCommit | .checkpointRevert => true
  | _ => false

/-- The slots that an operation accesses. -/
def slotAccesses (op : Op) (j : JournalInner) : List (Address × StorageKey) :=
  match op with
  | .sload a k skipColdLoad =>
      match j.sload db a k skipColdLoad with
      | some (.ok _, _) => [(a, k)]
      | _ => []
  | .sstore a k value skipColdLoad =>
      match j.sstore db a k value skipColdLoad with
      | some (.ok _, _) => [(a, k)]
      | _ => []
  | _ => []

end Conditions

namespace Scope

/-! ## Loads -/

section Loads

variable {c : Scope ε} {j : JournalInner} {a : Address}

/-- The accounts differ at most in their warmth. -/
def SameButCold (v v' : Seen) : Prop := ∀ a, ∃ cold, v' a = { v a with cold := cold }

theorem SameButCold.refl (v : Seen) : SameButCold v v := fun a => ⟨(v a).cold, rfl⟩

theorem SameButCold.trans {v v₁ v₂ : Seen} (h₁ : SameButCold v v₁) (h₂ : SameButCold v₁ v₂) :
    SameButCold v v₂ := by
  intro a
  obtain ⟨cold₁, hcold₁⟩ := h₁ a
  obtain ⟨cold₂, hcold₂⟩ := h₂ a
  refine ⟨cold₂, ?_⟩
  rw [hcold₂, hcold₁]

theorem Inv.load_sameButCold (h : c.Inv j) {loadCode skipColdLoad : Bool}
    {r : LoadAnswer ε Account × JournalInner}
    (hr : j.loadAccountOptional c.db a loadCode skipColdLoad = r) :
    SameButCold (c.see j.state) (c.see r.2.state) := by
  rcases h.load_cases hr with ⟨e, -, rfl⟩ | ⟨entry, -, -, -, hsee, -⟩
  · exact .refl _
  · intro b
    rw [hsee]
    by_cases hb : b = a
    · subst hb
      rw [Seen.modify_self]
      exact ⟨_, rfl⟩
    · rw [Seen.modify_of_ne _ hb]
      exact ⟨_, rfl⟩

theorem Inv.loadDelegated_sameButCold (h : c.Inv j) (a : Address) :
    SameButCold (c.see j.state) (c.see (j.loadAccountDelegated c.db a).2.state) := by
  refine loadAccountDelegated_ends (P := fun k => SameButCold _ (c.see k.state))
    (h.load_sameButCold rfl) fun load j₁ delegated _ _ hload _ => ?_
  exact (h.load_sameButCold hload).trans ((h.load hload).1.inv.load_sameButCold rfl)

end Loads

/-! ## Storage accesses -/

/-- Flags and original values are those of the start `v₀`, and a slot is cold if it was cold at the
start and is not among the accessed ones. -/
structure ColdSlots (v₀ v : Seen) (accessed : List (Address × StorageKey)) : Prop where
  flags : ∀ a, (v a).created = (v₀ a).created ∧ (v a).selfDestructed = (v₀ a).selfDestructed ∧
    (v a).selfDestructedLocal = (v₀ a).selfDestructedLocal
  original : ∀ a k, ((v a).slot k).original = ((v₀ a).slot k).original
  cold : ∀ a k, ((v a).slot k).cold = (((v₀ a).slot k).cold && decide ((a, k) ∉ accessed))

namespace ColdSlots

variable {v₀ v v' : Seen}

theorem refl (v₀ : Seen) : ColdSlots v₀ v₀ [] :=
  ⟨fun _ => ⟨rfl, rfl, rfl⟩, fun _ _ => rfl, fun _ _ => by simp⟩

theorem of_sameButCold (h : ColdSlots v₀ v accessed) (hsame : SameButCold v v') :
    ColdSlots v₀ v' accessed := by
  refine ⟨fun a => ?_, fun a => ?_, fun a => ?_⟩
  all_goals
    obtain ⟨cold, hcold⟩ := hsame a
    rw [hcold]
  · exact h.flags a
  · exact h.original a
  · exact h.cold a

/-- An access makes the slot warm and keeps its original value. -/
theorem modifySlot (h : ColdSlots v₀ v accessed) (a : Address) (k : StorageKey)
    {f : SeenSlot → SeenSlot} (horiginal : ∀ s, (f s).original = s.original)
    (hcold : ∀ s, (f s).cold = false) :
    ColdSlots v₀ (v.modify a fun x => x.modifySlot k f) ((a, k) :: accessed) := by
  have hslot : ∀ b k', ((v.modify a fun x => x.modifySlot k f) b).slot k' =
      if b = a ∧ k' = k then f ((v b).slot k') else (v b).slot k' := by
    intro b k'
    by_cases hb : b = a
    · subst hb
      rw [Seen.modify_self]
      by_cases hk : k' = k
      · subst hk
        simp [SeenAccount.modifySlot]
      · simp [SeenAccount.modifySlot, hk]
    · rw [Seen.modify_of_ne _ hb, if_neg fun hba => hb hba.1]
  refine ⟨fun b => ?_, fun b k' => ?_, fun b k' => ?_⟩
  · by_cases hb : b = a
    · subst hb
      rw [Seen.modify_self]
      exact h.flags b
    · rw [Seen.modify_of_ne _ hb]
      exact h.flags b
  · rw [hslot]
    split_ifs
    · rw [horiginal]
      exact h.original b k'
    · exact h.original b k'
  · rw [hslot]
    split_ifs with hbk
    · rw [hcold, hbk.1, hbk.2]
      simp
    · rw [h.cold b k']
      simp [hbk]

end ColdSlots

section Access

variable {db : Database ε} {start j : JournalInner} {a : Address} {k : StorageKey}

theorem access_base (db : Database ε) (start : JournalInner) (a : Address) (k : StorageKey) :
    (access db start).base a k ≠ none := by
  simp only [access]
  cases start.state.lookup a with
  | none => exact some_ne_none _
  | some acc => exact some_ne_none _

theorem access_modifySlot (v : Seen) (f : SeenSlot → SeenSlot) :
    (access db start).modifySlot v a k f = v.modify a fun x => x.modifySlot k f := by
  obtain ⟨value, hbase⟩ := ne_none_iff_exists'.1 (access_base db start a k)
  simp only [Scope.modifySlot, hbase]

/-- What the run keeps of the slots. -/
abbrev SlotsTracked (db : Database ε) (start : JournalInner) (cfg : Config)
    (s : Surviving (Address × StorageKey)) : Prop :=
  (access db start).Tracked (ColdSlots ((access db start).see start.state)) start cfg s

theorem slotReady_live (hinv : (access db start).Inv j) (hready : j.slotReady db a k = true) :
    ∀ acc, j.state.lookup a = some acc → acc.isStale (access db start).transactionId = false := by
  intro acc hl
  have htid : j.transactionId = (access db start).transactionId := hinv.transactionId
  simp only [slotReady, hl, htid, Bool.and_eq_true, Bool.not_eq_true'] at hready
  exact hready.1.1

/-- The operations of the run keep the relation. -/
theorem tracked_slot [Keccak256] {op : Op} {cfg : Config} {r : Output ε × Config}
    {s : Surviving (Address × StorageKey)} (hop : slotOk db op cfg = true)
    (hbracket : op.isBracket = false) (h : SlotsTracked db start cfg s)
    (hstep : Revm.step db op cfg = some r) :
    SlotsTracked db start r.2 (s.step op (slotAccesses db op cfg.journal)) := by
  obtain ⟨j, frames⟩ := cfg
  have hinv := h.inv
  obtain ⟨-, -, hslots, -⟩ := id h
  cases op with
  | loadAccountOptional b loadCode skip =>
    cases hstep
    have hr : j.loadAccountOptional (access db start).db b loadCode skip = _ := rfl
    exact h.grow [] (hinv.load hr).1 (hslots.of_sameButCold (hinv.load_sameButCold hr))
  | loadAccountDelegated b =>
    cases hstep
    exact h.grow [] (hinv.loadDelegated b)
      (hslots.of_sameButCold (hinv.loadDelegated_sameButCold b))
  | sload b k skip =>
    obtain ⟨⟨result, j'⟩, hr, rfl⟩ := map_eq_some_iff.1 hstep
    obtain ⟨hgrow, herror, hanswer⟩ := hinv.sload (slotReady_live hinv hop) hr
    cases result with
    | error e =>
      have hitems : slotAccesses db (.sload b k skip) j = [] := by simp [slotAccesses, hr]
      have hsame : j' = j := herror e rfl
      rw [hitems, hsame]
      exact h
    | ok load =>
      have hitems : slotAccesses db (.sload b k skip) j = [(b, k)] := by simp [slotAccesses, hr]
      obtain ⟨acc, slot, hres⟩ := hanswer load rfl
      rw [hitems]
      refine h.grow [(b, k)] hgrow ?_
      rw [hres.see, access_modifySlot]
      exact hslots.modifySlot b k (fun _ => rfl) fun _ => rfl
  | sstore b k value skip =>
    obtain ⟨⟨result, j'⟩, hr, rfl⟩ := map_eq_some_iff.1 hstep
    obtain ⟨hgrow, herror, hanswer⟩ := hinv.sstore (slotReady_live hinv hop) hr
    show SlotsTracked db start ⟨j', frames⟩
      ⟨slotAccesses db (.sstore b k value skip) j ++ s.kept, s.saved⟩
    cases result with
    | error e =>
      have hitems : slotAccesses db (.sstore b k value skip) j = [] := by simp [slotAccesses, hr]
      have hsame : j' = j := herror e rfl
      rw [hitems, hsame]
      exact h
    | ok store =>
      have hitems : slotAccesses db (.sstore b k value skip) j = [(b, k)] := by
        simp [slotAccesses, hr]
      obtain ⟨hsee, -⟩ := hanswer store rfl
      rw [hitems]
      refine h.grow [(b, k)] hgrow ?_
      rw [hsee, access_modifySlot]
      exact hslots.modifySlot b k (fun _ => rfl) fun _ => rfl
  | checkpoint | checkpointCommit | checkpointRevert => cases hbracket
  | _ => cases hop

/-- A ready slot that is seen as cold is not in the access list. -/
theorem slotReady_cold (hinv : (access db start).Inv j) (hready : j.slotReady db a k = true)
    {acc : Account} (hl : j.state.lookup a = some acc)
    (hcold : (((access db start).see j.state a).slot k).cold = true) :
    start.warmAddresses.isStorageWarm a k = false := by
  have hstale := slotReady_live hinv hready acc hl
  obtain ⟨value, hbase⟩ := ne_none_iff_exists'.1 (access_base db start a k)
  rw [see_of_some hl, slot_see hstale] at hcold
  have htid : j.transactionId = start.transactionId := hinv.transactionId
  have hwarm : j.warmAddresses = start.warmAddresses := hinv.warm
  simp only [slotReady, hl, htid, hwarm, Bool.and_eq_true] at hready
  cases hk : acc.storage.lookup k with
  | none =>
    rw [hk] at hcold
    simp only [seeSlot, hbase, elim_none, Bool.not_eq_true'] at hcold
    exact hcold
  | some slot =>
    rw [hk] at hcold hready
    simp only [seeSlot, hbase, elim_some] at hcold
    have hslot : slot.isColdTransactionId start.transactionId = true := hcold
    simpa [hslot] using hready.1.2

section Start

variable (hleft : ∀ a acc k slot, start.state.lookup a = some acc →
  acc.storage.lookup k = some slot → slot.isColdTransactionId start.transactionId = true)
include hleft

/-- Slots that no transaction has left in the journal are seen as the access list says, the others
as cold. -/
theorem start_slot (a : Address) (k : StorageKey) : (start.warmAddresses.isStorageWarm a k = false →
      (((access db start).see start.state a).slot k).cold = true) ∧
    ((((access db start).see start.state a).slot k).original ≠ start.startValue db a k →
      ∃ acc, start.state.lookup a = some acc ∧ acc.isCreated = false ∧
        acc.isDestroyedEarlier start.transactionId = true ∧ db.storageValue a k ≠ 0) := by
  cases hl : start.state.lookup a with
  | none =>
    rw [see_of_none hl]
    simp [unloaded, seeSlot, access, hl, startValue]
  | some acc =>
    have hslot : ((access db start).see start.state a).slot k = (access db start).seeSlot a k
        ((acc.settledStorage start.transactionId).lookup k) := by
      rw [see_of_some hl]
      rfl
    rw [hslot]
    cases hk : (acc.settledStorage start.transactionId).lookup k with
    | some slot =>
      have hcold : slot.isColdTransactionId start.transactionId = true := by
        refine hleft a acc k slot hl ?_
        unfold Account.settledStorage at hk
        split_ifs at hk
        · cases hk
        · exact hk
      simp [seeSlot, access, hl, startValue, hk, hcold]
    | none =>
      simp only [seeSlot, access, hl, startValue, hk, elim_none]
      refine ⟨fun hwarm => by rw [hwarm]; rfl, fun hne => ?_⟩
      cases hcreated : acc.isCreated with
      | true => simp [hcreated] at hne
      | false =>
        cases hdestroyed : acc.isDestroyedEarlier start.transactionId with
        | false => simp [hcreated, hdestroyed] at hne
        | true =>
          refine ⟨acc, rfl, hcreated, hdestroyed, ?_⟩
          simpa [hcreated, hdestroyed] using hne

variable {acc : Account} (hinv : (access db start).Inv j)
  (hslots : ColdSlots ((access db start).see start.state) ((access db start).see j.state) accessed)
  (hready : j.slotReady db a k = true) (hl : j.state.lookup a = some acc)
include hinv hslots hready hl

/-- A ready slot is seen as cold as the accessed set says. -/
theorem slot_cold_iff : (((access db start).see j.state a).slot k).cold = true ↔
      start.warmAddresses.isStorageWarm a k = false ∧ (a, k) ∉ accessed := by
  constructor
  · intro hcold
    refine ⟨slotReady_cold hinv hready hl hcold, ?_⟩
    rw [hslots.cold a k, Bool.and_eq_true] at hcold
    exact of_decide_eq_true hcold.2
  · rintro ⟨hwarm, hnew⟩
    rw [hslots.cold a k, (start_slot hleft a k).1 hwarm]
    simpa using hnew

/-- A ready slot is seen with the value of the start as its original value. -/
theorem slot_original_eq :
    (((access db start).see j.state a).slot k).original = start.startValue db a k := by
  by_contra hne
  rw [hslots.original a k] at hne
  obtain ⟨acc₀, hl₀, hcreated, hdestroyed, hvalue⟩ := (start_slot hleft a k).2 hne
  have hstale : acc.isStale start.transactionId = false := slotReady_live hinv hready acc hl
  obtain ⟨hcreated', hdestroyed', hlocal'⟩ := hslots.flags a
  rw [see_of_some hl, see_of_some hl₀] at hcreated' hdestroyed' hlocal'
  have hcreated'' : acc.isCreated = false := hcreated'.trans hcreated
  unfold Account.isDestroyedEarlier at hdestroyed
  rw [Bool.and_eq_true] at hdestroyed
  have hdestroyed'' : acc.isSelfdestructed = true := hdestroyed'.trans hdestroyed.1
  -- an account that was destroyed earlier is loaded without the local flag
  have hlocal : acc.isSelfdestructedLocally = false := by
    have hseen : (acc.isSelfdestructedLocally && !acc.isColdTransactionId start.transactionId) =
        (acc₀.isSelfdestructedLocally && !acc₀.isColdTransactionId start.transactionId) := hlocal'
    unfold Account.isStale at hstale
    cases hc : acc.isColdTransactionId start.transactionId with
    | true => simpa [hc] using hstale
    | false =>
      cases hc₀ : acc₀.isColdTransactionId start.transactionId <;> simp_all
  simp only [slotReady, hl, Bool.and_eq_true] at hready
  exact hvalue (by simpa [hdestroyed'', hlocal, hcreated''] using hready.2)

end Start

end Access

end Scope

/-! ## The theorem -/

/-- The access list of the transaction names the slot. -/
def WarmAddresses.ListedSlot (w : WarmAddresses) (a : Address) (k : StorageKey) : Prop :=
  ∃ keys, w.accessList.lookup a = some keys ∧ k ∈ keys

theorem WarmAddresses.listedSlot_iff (w : WarmAddresses) (a : Address) (k : StorageKey) :
    w.isStorageWarm a k = false ↔ ¬w.ListedSlot a k := by
  unfold WarmAddresses.ListedSlot
  rw [← w.isStorageWarm_iff a k, Bool.not_eq_true]

/-- `sload` and `sstore` answer cold exactly for a slot that the access list does not name and that
no surviving access has accessed in the transaction, and `sstore` answers the value of the start. -/
theorem JournalInner.slot_isCold_iff {ε : Type} [Keccak256] (db : Database ε) (j : JournalInner)
    (hleft : ∀ a acc k slot, j.state.lookup a = some acc → acc.storage.lookup k = some slot →
      slot.isColdTransactionId j.transactionId = true) (ops : List Op) (cfg : Config)
    (hops : EachStep db (fun op cfg => slotOk db op cfg = true) ops ⟨j, []⟩)
    (hrun : run db ops ⟨j, []⟩ = some cfg) :
    let accessed := (survivors db (slotAccesses db) ops ⟨j, []⟩ .empty).kept
    ∀ a k, cfg.journal.slotReady db a k = true →
      (∀ skipColdLoad load j', cfg.journal.sload db a k skipColdLoad = some (.ok load, j') →
        (load.isCold = true ↔ ¬j.warmAddresses.ListedSlot a k ∧ (a, k) ∉ accessed)) ∧
      ∀ value skipColdLoad store j',
        cfg.journal.sstore db a k value skipColdLoad = some (.ok store, j') →
        (store.isCold = true ↔ ¬j.warmAddresses.ListedSlot a k ∧ (a, k) ∉ accessed) ∧
        store.data.originalValue = j.startValue db a k := by
  intro accessed a k hready
  have hend : Scope.SlotsTracked db j cfg (survivors db (slotAccesses db) ops ⟨j, []⟩ .empty) :=
    Scope.Tracked.run
      (fun op cfg r s hbracket hop h hstep => Scope.tracked_slot hop hbracket h hstep)
      ⟨[], .base (.refl (Scope.access_inv db j)), .refl _, .nil⟩ hops hrun
  have hinv := hend.inv
  obtain ⟨-, -, hslots, -⟩ := hend
  have hlive := Scope.slotReady_live hinv hready
  -- an access that answers has found the account
  have hfound : ∀ skip r, cfg.journal.sload db a k skip = some r →
      ∃ acc, cfg.journal.state.lookup a = some acc := by
    intro skip r hr
    simp only [sload, bind_eq_bind, bind_eq_some_iff] at hr
    obtain ⟨acc, hl, -⟩ := hr
    exact ⟨acc, hl⟩
  refine ⟨fun skip load j' hr => ?_, fun value skip store j' hr => ?_⟩
  · obtain ⟨acc, hl⟩ := hfound skip _ hr
    obtain ⟨-, -, hanswer⟩ := hinv.sload hlive hr
    obtain ⟨acc', slot, hres⟩ := hanswer load rfl
    rw [(hres.answer (Scope.access_base db j a k)).2.2, ← WarmAddresses.listedSlot_iff]
    exact Scope.slot_cold_iff hleft hinv hslots hready hl
  · have hload : ∃ r, cfg.journal.sload db a k skip = some r := by
      simp only [sstore, bind_eq_bind, bind_eq_some_iff] at hr
      obtain ⟨r, hload, -⟩ := hr
      exact ⟨r, hload⟩
    obtain ⟨r, hload⟩ := hload
    obtain ⟨acc, hl⟩ := hfound skip r hload
    obtain ⟨-, -, hanswer⟩ := hinv.sstore hlive hr
    have hres := (hanswer store rfl).2 (Scope.access_base db j a k)
    rw [hres.isCold, hres.original, ← WarmAddresses.listedSlot_iff]
    exact ⟨Scope.slot_cold_iff hleft hinv hslots hready hl,
      Scope.slot_original_eq hleft hinv hslots hready hl⟩

/-! ## Runs on a small database -/

/-- The first transaction has read the slot of the contract. -/
def readJournal : JournalInner := journalAfter .prague [.loadAccount 1, .sload 1 1 false]

/-- The contract writes its slot in a reverted frame and reads another one. -/
def revertedStore : List Op :=
  [.loadAccount 1, .checkpoint, .sstore 1 1 9 false, .checkpointRevert, .sload 1 2 false]

theorem JournalInner.slot_isCold_iff_revertedStore : letI := lengthKeccak
    ∃ cfg store load j' j'', run contractDb revertedStore ⟨readJournal, []⟩ = some cfg ∧
      cfg.journal.sstore contractDb 1 1 5 false = some (.ok store, j') ∧
      cfg.journal.sload contractDb 1 2 false = some (.ok load, j'') ∧
      store.isCold = true ∧ store.data.originalValue = 7 ∧ load.isCold = false := by
  let := lengthKeccak
  have hleft : readJournal.state.entries.all (fun e => e.2.storage.entries.all fun slot =>
      slot.2.isColdTransactionId readJournal.transactionId) = true := by decide
  have hops : EachStep contractDb (fun op cfg => slotOk contractDb op cfg = true) revertedStore
      ⟨readJournal, []⟩ := by decide
  have haccessed : (survivors contractDb (slotAccesses contractDb) revertedStore
      ⟨readJournal, []⟩ .empty).kept = [(1, 2)] := by decide
  have hstart : readJournal.startValue contractDb 1 1 = 7 := by decide
  have hlisted : ∀ k, ¬readJournal.warmAddresses.ListedSlot 1 k := by
    rintro k ⟨keys, hkeys, -⟩
    cases hkeys
  obtain ⟨cfg, hrun, hready, hready', ⟨⟨_ | store, j'⟩, hstore, ⟨⟩⟩, ⟨_ | load, j''⟩, hload, ⟨⟩⟩ :
      ∃ cfg ∈ run contractDb revertedStore ⟨readJournal, []⟩,
        cfg.journal.slotReady contractDb 1 1 = true ∧ cfg.journal.slotReady contractDb 1 2 = true ∧
        (∃ r ∈ cfg.journal.sstore contractDb 1 1 5 false, r.1.isOk = true) ∧
        ∃ r ∈ cfg.journal.sload contractDb 1 2 false, r.1.isOk = true := by decide
  have hslot := slot_isCold_iff contractDb readJournal
    (fun a acc k slot hl hk => (List.all_eq_true.1 (List.all_eq_true.1 hleft ⟨a, acc⟩
      (AList.mem_lookup_iff.1 hl)) ⟨k, slot⟩ (AList.mem_lookup_iff.1 hk)))
    revertedStore cfg hops hrun
  rw [haccessed] at hslot
  obtain ⟨hcold, horiginal⟩ := (hslot 1 1 hready).2 5 false store j' hstore
  have hcold' := (hslot 1 2 hready').1 false load j'' hload
  refine ⟨cfg, store, load, j', j'', hrun, hstore, hload, hcold.2 ⟨hlisted 1, by decide⟩,
    horiginal.trans hstart, Bool.eq_false_iff.2 fun h => (hcold'.1 h).2 (by decide)⟩

/-- The same journal with an access list that names the slot. -/
def listedJournal : JournalInner :=
  { readJournal with
    warmAddresses := WarmAddresses.new.setAccessList
      ((∅ : HashMap Address (HashSet StorageKey)).insert 1 ((∅ : HashSet StorageKey).insert 1 ())) }

/-- The first transaction has destroyed the contract. -/
def destroyedJournal : JournalInner := journalAfter .shanghai [.loadAccount 1, .selfdestruct 1 2]

/-- A slot that an earlier transaction left in the journal is cold although the access list names
it, and a destroyed contract is given its old storage as the original value. -/
theorem JournalInner.slot_isCold_wrong : letI := lengthKeccak
    (listedJournal.warmAddresses.ListedSlot 1 1 ∧
      ∃ load j', listedJournal.sload contractDb 1 1 false = some (.ok load, j') ∧
        load.isCold = true) ∧
    ∃ cfg store j', run contractDb [.loadAccount 1] ⟨destroyedJournal, []⟩ = some cfg ∧
      cfg.journal.sstore contractDb 1 1 9 false = some (.ok store, j') ∧
      store.data.originalValue = 7 ∧ destroyedJournal.startValue contractDb 1 1 = 0 := by
  refine ⟨⟨⟨_, rfl, ?_⟩, _, _, rfl, by decide⟩, _, _, _, rfl, rfl, by decide, by decide⟩
  exact AList.mem_insert _ |>.2 (.inl rfl)

end Revm
