import Revm.Bal.Build
import Revm.Database.CacheRefinement

/-!
# Replaying a block

The transactions of a block run over a `BalDatabase` that builds the list: each reads the state,
commits its output and bumps the index. The list that comes out, laid over the database from before
the block, answers at every index what the sequential run answered at this point
(`BalDatabase.runTxs_replay`), so that the transactions of the block can run in any order.

The outputs have to be consistent with the chain (`ChainConsistent`). Of an account that a
transaction destroys, creates or leaves empty this asks that it had no storage at that point: the
list has no entry for storage that is cleared (`BalDatabase.runTxs_replay_exceptions`).
-/

set_option autoImplicit false

namespace Revm

variable {ε : Type} {bal : Bal}

/-! ## Running a block -/

/-- A read of a transaction. -/
inductive BalRead where
  | basic (address : Address)
  | storage (address : Address) (key : StorageKey)

/-- What a transaction reads, and its output. -/
structure BalTx where
  reads : List BalRead
  changes : EvmState

variable (self : BalDatabase (State ε))

namespace BalDatabase

/-- `BalDatabase::new` with `with_bal_builder`. -/
def builder {DB : Type} (db : DB) : BalDatabase DB := ⟨none, some .new, 0, db⟩

/-- One read over a `State`. `none` is a panic. -/
def read : BalRead → Option (Except (BalDatabaseError ε) (Answer × BalDatabase (State ε)))
  | .basic address =>
      match self.db.basic address with
      | .error e => some (.error (.database e))
      | .ok (info, db) =>
          some (((self.populateBasic address info).mapError .bal).map fun info =>
            (.info info, { self with db := db }))
  | .storage address key =>
      match self.db.storage address key with
      | none => none
      | some (.error e) => some (.error (.database e))
      | some (.ok (value, db)) =>
          some (((self.populateStorage address key value).mapError .bal).map fun value =>
            (.value value, { self with db := db }))

/-- The reads of a transaction. -/
def readAll : List BalRead → BalDatabase (State ε) →
    Option (Except (BalDatabaseError ε) (BalDatabase (State ε)))
  | [], self => some (.ok self)
  | read :: reads, self =>
      match self.read read with
      | none => none
      | some (.error e) => some (.error e)
      | some (.ok (_, self)) => self.readAll reads

/-- A transaction: the reads, the commit of the output, and the next index. -/
def runTx (tx : BalTx) : Option (Except (BalDatabaseError ε) (BalDatabase (State ε))) :=
  match self.readAll tx.reads with
  | none => none
  | some (.error e) => some (.error e)
  | some (.ok self) => (self.commit State.commit tx.changes).map fun self => .ok self.bumpBalIndex

/-- The transactions of a block, one after the other. -/
def runTxs : List BalTx → BalDatabase (State ε) →
    Option (Except (BalDatabaseError ε) (BalDatabase (State ε)))
  | [], self => some (.ok self)
  | tx :: txs, self =>
      match self.runTx tx with
      | none => none
      | some (.error e) => some (.error e)
      | some (.ok self) => self.runTxs txs

end BalDatabase

/-! ## Consistency with the chain -/

/-- Slots are read of accounts that were read before. -/
def BalRead.Ordered : List Address → List BalRead → Prop
  | _, [] => True
  | loaded, .basic address :: reads => Ordered (address :: loaded) reads
  | loaded, .storage address _ :: reads => address ∈ loaded ∧ Ordered loaded reads

/-- The accounts that were read after the reads of a transaction. -/
def BalRead.loaded : List Address → List BalRead → List Address
  | loaded, [] => loaded
  | loaded, .basic address :: reads => BalRead.loaded (address :: loaded) reads
  | loaded, .storage _ _ :: reads => BalRead.loaded loaded reads

/-- A transaction reads the accounts of its output, and starts from what it read. -/
structure TxConsistent (loaded : List Address) (r : PlainState) (tx : BalTx) : Prop where
  reads : BalRead.Ordered loaded tx.reads
  read : ∀ address account, tx.changes.lookup address = some account →
    address ∈ BalRead.loaded loaded tx.reads
  accounts : ∀ address account, tx.changes.lookup address = some account →
    AccountConsistent (r address) account

/-- Every transaction is consistent with the state that the ones before it leave. -/
def ChainConsistent : List Address → PlainState → List BalTx → Prop
  | _, _, [] => True
  | loaded, r, tx :: txs =>
      TxConsistent loaded r tx ∧
        ChainConsistent (BalRead.loaded loaded tx.reads) (r.commit tx.changes) txs

theorem ChainConsistent.take {loaded : List Address} {r : PlainState} {txs : List BalTx}
    (h : ChainConsistent loaded r txs) (k : Nat) : ChainConsistent loaded r (txs.take k) := by
  induction txs generalizing loaded r k with
  | nil => rwa [List.take_nil]
  | cons tx txs ih =>
    cases k with
    | zero => trivial
    | succ k => exact ⟨h.1, ih h.2 k⟩

/-- The plain state after the first `k` transactions. -/
def PlainState.afterTxs (d : PlainState) (txs : List BalTx) (k : Nat) : PlainState :=
  (txs.take k).foldl (fun r tx => r.commit tx.changes) d.norm

theorem PlainState.afterTxs_succ (d : PlainState) {txs : List BalTx} {k : Nat} {tx : BalTx}
    (h : txs[k]? = some tx) : d.afterTxs txs (k + 1) = (d.afterTxs txs k).commit tx.changes := by
  unfold afterTxs
  rw [List.take_add_one, h, List.foldl_append]
  rfl

/-! ## The list replays the block -/

/-- The list replays the history `h` of all accounts up to the index `i`. -/
def Replays (d : PlainState) (h : Nat → PlainState) (i : Nat) (bal : Bal) : Prop :=
  ∀ address, AccountReplays (d address) (fun k => h k address) i
    ((bal.accounts.lookup address).getD .default)

namespace Replays

variable {d : PlainState} {h : Nat → PlainState} {i : Nat}

theorem start (hstart : h 0 = d.norm) : Replays d h 0 .new := by
  intro address
  apply AccountReplays.start
  · rw [hstart]
    exact seenInfo_nonEmpty (d address).info
  · intro key
    rw [hstart]
    rfl

section

variable (hb : Replays d h i bal)

include hb

/-- One transaction. -/
theorem commit (hhash : ∀ address info, (d address).info = some info → info.codeHash ≠ 0)
    {changes : EvmState} (hc : ∀ address account, changes.lookup address = some account →
      AccountConsistent (h i address) account) (hnext : h (i + 1) = (h i).commit changes) :
    Replays d h (i + 1) (bal.update i changes) := by
  intro address
  have hnext' := congrFun hnext address
  unfold PlainState.commit at hnext'
  rw [Bal.lookup_update]
  cases hlookup : changes.lookup address with
  | none =>
    rw [hlookup] at hnext'
    exact (hb address).skip hnext'
  | some account =>
    rw [hlookup] at hnext'
    exact (hb address).commit (hhash address) (hc address account hlookup) hnext'

theorem increasing : bal.Increasing := by
  intro address account hlookup
  have hacct := hb address
  rw [hlookup] at hacct
  exact ⟨hacct.infoIncreasing, hacct.storageIncreasing⟩

theorem seenInfo_infoAt {k : Nat} (hk : k ≤ i) (address : Address) :
    seenInfo (bal.infoAt address k (d address).info) = seenInfo (h k address).info := by
  have hacct := (hb address).info k hk
  rw [← hacct]
  unfold Bal.infoAt
  cases bal.accounts.lookup address with
  | none => cases (d address).info <;> rfl
  | some account => exact seenInfo_congr (AccountInfo.eqInfo_iff.2 ⟨rfl, rfl, rfl⟩)

theorem storageAt {k : Nat} (hk : k ≤ i) (address : Address) (key : StorageKey) :
    bal.storageAt address key k ((d address).storage key) = (h k address).storage key := by
  have hacct := (hb address).storage k hk key
  rw [← hacct]
  unfold Bal.storageAt
  cases bal.accounts.lookup address <;> rfl

end

end Replays

/-! ## The sequential run -/

variable {address : Address}

namespace BalDatabase

variable {d : PlainState} {code : B256 → Bytecode} {loaded : List Address} {r : PlainState}

theorem read_basic (hd : d.NoDanglingStorage) (self : BalDatabase (State ε))
    (h : Refines d code loaded r self.db) (hbal : self.bal = none) (address : Address) :
    ∃ db, self.read (.basic address) =
        some (.ok (.info (nonEmpty (r address).info), { self with db := db })) ∧
      Refines d code (address :: loaded) r db := by
  obtain ⟨db, hexec, hrefines⟩ := h.exec_basic hd address
  refine ⟨db, ?_, hrefines⟩
  dsimp only [State.exec] at hexec
  dsimp only [read, populateBasic]
  cases hbasic : self.db.basic address with
  | error e =>
    rw [hbasic] at hexec
    cases hexec
  | ok result =>
    obtain ⟨info, db'⟩ := result
    rw [hbasic] at hexec
    simp only [Except.map, Option.some.injEq, Except.ok.injEq, Prod.mk.injEq, Answer.info.injEq,
      PlainState.exec] at hexec
    obtain ⟨hinfo, rfl⟩ := hexec
    rw [← hinfo, hbal]
    rfl

theorem read_storage (h : Refines d code loaded r self.db)
    (hbal : self.bal = none) (hloaded : address ∈ loaded) (key : StorageKey) :
    ∃ db, self.read (.storage address key) =
        some (.ok (.value ((r address).storage key), { self with db := db })) ∧
      Refines d code loaded r db := by
  obtain ⟨db, hexec, hrefines⟩ := h.exec_storage address key hloaded
  refine ⟨db, ?_, hrefines⟩
  dsimp only [State.exec] at hexec
  dsimp only [read, populateStorage]
  rcases hstorage : self.db.storage address key with _ | _ | ⟨value, db'⟩
  · rw [hstorage] at hexec
    cases hexec
  · rw [hstorage] at hexec
    cases hexec
  · rw [hstorage] at hexec
    simp only [Option.map_some, Except.map, Option.some.injEq, Except.ok.injEq, Prod.mk.injEq,
      Answer.value.injEq, PlainState.exec] at hexec
    obtain ⟨hvalue, rfl⟩ := hexec
    rw [← hvalue, hbal]
    rfl

/-- Reads do not change what the state stands for. -/
theorem readAll_refines (hd : d.NoDanglingStorage) {reads : List BalRead}
    (self : BalDatabase (State ε)) (h : Refines d code loaded r self.db) (hbal : self.bal = none)
    (hreads : BalRead.Ordered loaded reads) :
    ∃ db, self.readAll reads = some (.ok { self with db := db }) ∧
      Refines d code (BalRead.loaded loaded reads) r db := by
  induction reads generalizing loaded self with
  | nil => exact ⟨self.db, rfl, h⟩
  | cons read reads ih =>
    unfold readAll
    cases read with
    | basic address =>
      obtain ⟨db, hread, hdb⟩ := read_basic hd self h hbal address
      rw [hread]
      exact ih { self with db := db } hdb hbal hreads
    | storage address key =>
      obtain ⟨db, hread, hdb⟩ := read_storage self h hbal hreads.1 key
      rw [hread]
      exact ih { self with db := db } hdb hbal hreads.2

/-- A transaction commits its output, and adds it to the list. -/
theorem runTx_refines (hd : d.NoDanglingStorage) {tx : BalTx} (self : BalDatabase (State ε))
    (h : Refines d code loaded r self.db) (hbal : self.bal = none)
    (hbuilder : self.balBuilder = some bal) (htx : TxConsistent loaded r tx) : ∃ db, self.runTx tx =
        some (.ok ⟨none, some (bal.update self.balIndex tx.changes), self.balIndex + 1, db⟩) ∧
      Refines d code (BalRead.loaded loaded tx.reads) (r.commit tx.changes) db := by
  obtain ⟨db, hreads, hdb⟩ := readAll_refines hd self h hbal htx.reads
  obtain ⟨db', hexec, hdb'⟩ := hdb.exec_commit hd tx.changes fun address account hlookup => by
    refine ⟨htx.read address account hlookup, fun key slot hslot => ?_⟩
    have hconsistent := htx.accounts address account hlookup
    rw [hconsistent.originalValue key slot hslot]
    split_ifs with hcreated
    · exact hconsistent.created hcreated key
    · rfl
  refine ⟨db', ?_, hdb'⟩
  obtain ⟨db'', hcommit, heq⟩ := Option.map_eq_some_iff.1 hexec
  have hdb'' : db'' = db' := (Prod.mk.inj (Except.ok.inj heq)).2
  unfold runTx
  rw [hreads]
  dsimp only [commit]
  rw [hcommit, hdb'', hbuilder, hbal]
  rfl

/-- The run of a block, from any point of it. -/
theorem runTxs_spec (hd : d.NoDanglingStorage)
    (hhash : ∀ address info, (d address).info = some info → info.codeHash ≠ 0)
    (h : Nat → PlainState) (txs : List BalTx) {i : Nat} {db : State ε}
    (hdb : Refines d code loaded (h i) db) (hbal : Replays d h i bal)
    (hchain : ChainConsistent loaded (h i) txs)
    (hnext : ∀ j tx, txs[j]? = some tx → h (i + j + 1) = (h (i + j)).commit tx.changes) :
    ∃ bal' db' loaded',
      runTxs txs ⟨none, some bal, i, db⟩ = some (.ok ⟨none, some bal', i + txs.length, db'⟩) ∧
      Refines d code loaded' (h (i + txs.length)) db' ∧ Replays d h (i + txs.length) bal' := by
  induction txs generalizing loaded i db bal with
  | nil => exact ⟨bal, db, loaded, rfl, hdb, hbal⟩
  | cons tx txs ih =>
    obtain ⟨htx, hrest⟩ := hchain
    have hstep : h (i + 1) = (h i).commit tx.changes := hnext 0 tx rfl
    obtain ⟨db₁, hrun, hdb₁⟩ := runTx_refines hd ⟨none, some bal, i, db⟩ hdb rfl rfl htx
    have hbal₁ := hbal.commit hhash htx.accounts hstep
    rw [← hstep] at hdb₁ hrest
    obtain ⟨bal', db', loaded', hruns, hdb', hbal'⟩ := ih hdb₁ hbal₁ hrest fun j tx' htx' => by
      have hj := hnext (j + 1) tx' htx'
      rwa [show i + (j + 1) = i + 1 + j by omega] at hj
    rw [show i + 1 + txs.length = i + (tx :: txs).length by rw [List.length_cons]; omega]
      at hruns hdb' hbal'
    refine ⟨bal', db', loaded', ?_, hdb', hbal'⟩
    unfold runTxs
    rw [hrun]
    exact hruns

/-- The list that a block builds, over the database from before the block, answers at every index
what the sequential run answers at this point. -/
theorem runTxs_replay (d : PlainState) (code : B256 → Bytecode) (bundleUpdate : Bool)
    (hd : d.NoDanglingStorage)
    (hhash : ∀ address info, (d address).info = some info → info.codeHash ≠ 0) (txs : List BalTx)
    (hchain : ChainConsistent [] d.norm txs) :
    ∃ built bal, runTxs txs (builder (State.new d code bundleUpdate : State ε)) = some (.ok built) ∧
      built.balBuilder = some bal ∧
      ∀ k ≤ txs.length, ∃ self,
        runTxs (txs.take k) (builder (State.new d code bundleUpdate : State ε)) = some (.ok self) ∧
        ∀ address, ∃ info info' self',
          self.read (.basic address) = some (.ok (.info info, self')) ∧
          basic ⟨some bal, none, k, (d.toDatabase code : Database ε)⟩ address = .ok info' ∧
          info.map (fun i => (i.balance, i.nonce, i.codeHash)) =
            info'.map (fun i => (i.balance, i.nonce, i.codeHash)) ∧
          ∀ key, ∃ value self'',
            self'.read (.storage address key) = some (.ok (.value value, self'')) ∧
            storage ⟨some bal, none, k, (d.toDatabase code : Database ε)⟩ address key =
              .ok value := by
  have hrefines : Refines d code [] d.norm (State.new d code bundleUpdate : State ε) :=
    State.new_refines d code bundleUpdate
  have hstart : Replays d (d.afterTxs txs) 0 .new := Replays.start rfl
  obtain ⟨bal, db, _, hrun, -, hbal⟩ := runTxs_spec hd hhash
    (d.afterTxs txs) txs hrefines hstart hchain
    fun j tx htx => by
      rw [Nat.zero_add]
      exact d.afterTxs_succ htx
  rw [Nat.zero_add] at hrun hbal
  refine ⟨_, bal, hrun, rfl, fun k hk => ?_⟩
  -- the first transactions alone have the same history
  obtain ⟨bal₁, db₁, loaded, hrun₁, hdb₁, -⟩ :=
    runTxs_spec hd hhash (d.afterTxs txs) (txs.take k) hrefines hstart (hchain.take k)
      fun j tx htx => by
        rw [Nat.zero_add]
        rw [List.getElem?_take] at htx
        split_ifs at htx
        exact d.afterTxs_succ htx
  rw [Nat.zero_add, List.length_take, Nat.min_eq_left hk] at hrun₁ hdb₁
  refine ⟨_, hrun₁, fun address => ?_⟩
  obtain ⟨db₂, hread, hdb₂⟩ := read_basic hd ⟨none, some bal₁, k, db₁⟩ hdb₁ rfl address
  refine ⟨_, _, _, hread, basic_eq hbal.increasing rfl, ?_, fun key => ?_⟩
  · exact (hbal.seenInfo_infoAt hk address).symm
  · obtain ⟨db₃, hread', -⟩ :=
      read_storage ⟨none, some bal₁, k, db₂⟩ hdb₂ rfl List.mem_cons_self key
    refine ⟨_, _, hread', ?_⟩
    rw [storage_eq hbal.increasing rfl, hbal.storageAt hk address key]

end BalDatabase

/-! ## Blocks -/

namespace ReplayExample

/-- An account with a nonce, at the address `1`. -/
def owner : AccountInfo := { AccountInfo.default with balance := 5, nonce := 1 }

/-- A database that holds one account. -/
def databaseOf (info : Option AccountInfo) (storage : StorageKey → StorageValue) :
    PlainState := fun a =>
  if a = 1 then ⟨info, storage⟩ else .removed

/-- A transaction that reads and changes the account. -/
def change (original present : AccountInfo) (slots : EvmStorage) (status : AccountFlags) :
    BalTx where
  reads := [.basic 1, .storage 1 1]
  changes := (∅ : EvmState).insert 1 ⟨present, original, 0, slots, status⟩

def touched : AccountFlags := { AccountFlags.empty with touched := true }

/-- The slot `1` is written. -/
def slotWrite : EvmStorage := (∅ : EvmStorage).insert 1 ⟨0, 5, 0, false⟩

variable {original present : AccountInfo}

/-- A transaction that changes an account with a nonce is consistent with what it has read. -/
theorem accountConsistent_change {v : PlainView}
    {slots : EvmStorage} (horiginal : original.eqInfo ((nonEmpty v.info).getD .default) = true)
    (hslots : ∀ key slot, slots.lookup key = some slot → slot.originalValue = v.storage key)
    (hempty : present.isEmpty = false) :
    AccountConsistent v ⟨present, original, 0, slots, touched⟩ where
  originalInfo := horiginal
  originalValue := hslots
  untouchedInfo := fun h => (nomatch h)
  untouchedStorage := fun h => (nomatch h)
  untouchedAlive := fun h => (nomatch h)
  destroyed := fun _ => rfl
  cleared := by
    rintro - (h | h)
    · cases h
    · exact absurd (hempty.symm.trans h) (by decide)
  created := fun h => (nomatch h)
  emptied := fun _ h => absurd (hempty.symm.trans h) (by decide)

theorem lookup_change {slots : EvmStorage} {status : AccountFlags} {account : Account}
    (h : (change original present slots status).changes.lookup address = some account) :
    address = 1 ∧ account = ⟨present, original, 0, slots, status⟩ :=
  HashMap.lookup_singleton h

/-- The account writes its slot, and then pays. -/
def block : List BalTx :=
  [change owner owner slotWrite touched, change owner { owner with balance := 3 } ∅ touched]

theorem block_chainConsistent :
    ChainConsistent [] (databaseOf (some owner) fun _ => 0).norm block := by
  refine ⟨⟨⟨List.mem_cons_self, trivial⟩, fun address account h => ?_, fun address account h => ?_⟩,
    ⟨⟨List.mem_cons_self, trivial⟩, fun address account h => ?_, fun address account h => ?_⟩,
      trivial⟩
  · rw [(lookup_change h).1]
    exact List.mem_cons_self
  · obtain ⟨rfl, rfl⟩ := lookup_change h
    refine accountConsistent_change (by decide) (fun key slot hslot => ?_) (by decide)
    obtain ⟨rfl, rfl⟩ := HashMap.lookup_singleton hslot
    rfl
  · rw [(lookup_change h).1]
    exact List.mem_cons_self
  · obtain ⟨rfl, rfl⟩ := lookup_change h
    exact accountConsistent_change (by decide) (fun key slot hslot => (nomatch hslot)) (by decide)

theorem owner_noDanglingStorage (info : Option AccountInfo) :
    (databaseOf info fun _ => 0).NoDanglingStorage := by
  intro address _ key
  unfold databaseOf
  split_ifs <;> rfl

theorem owner_codeHash {info : AccountInfo}
    (h : (databaseOf (some owner) (fun _ => 0) address).info = some info) : info.codeHash ≠ 0 := by
  unfold databaseOf at h
  split_ifs at h
  · rw [← Option.some.inj h]
    decide
  · cases h

variable (d : PlainState) (txs : List BalTx)

/-- What the sequential run answers after the transactions. -/
def sequential : Option (Answer × Answer) :=
  (BalDatabase.runTxs txs (.builder (State.new d (fun _ => .default) false : State Unit))).bind
    fun result => result.toOption.bind fun self =>
      (self.read (.basic 1)).bind fun result => result.toOption.bind fun basic =>
        (basic.2.read (.storage 1 1)).bind fun result => result.toOption.map fun storage =>
          (basic.1, storage.1)

/-- What the list answers above the transactions. -/
def replayed : Option (Answer × Answer) :=
  (BalDatabase.runTxs txs (.builder (State.new d (fun _ => .default) false : State Unit))).bind
    fun result => result.toOption.bind fun self => self.balBuilder.bind fun bal =>
      let laid : BalDatabase (Database Unit) :=
        ⟨some bal, none, txs.length, d.toDatabase fun _ => .default⟩
      (laid.basic 1).toOption.bind fun info => (laid.storage 1 1).toOption.map fun value =>
        (.info (info.map fun i => { i with storageId := none }), .value value)

/-- Both answers. -/
def answers : Option (Answer × Answer) × Option (Answer × Answer) :=
  (sequential d txs, replayed d txs)

end ReplayExample

open ReplayExample in
/-- Storage that a block writes comes back when a later transaction destroys, empties or creates the
account. An account that is marked as destroyed by an earlier transaction only is not destroyed for
the list. A zero code hash of an empty account comes back with its next balance. And the storage of
a missing account is answered by the database, where the sequential run knows that there is none. -/
theorem BalDatabase.runTxs_replay_exceptions : answers (databaseOf (some owner) fun _ => 0)
        [change owner owner slotWrite touched, change owner owner ∅
          { touched with selfDestructed := true, selfDestructedLocal := true }] =
      (some (.info none, .value 0), some (.info none, .value 5)) ∧
    answers (databaseOf (some owner) fun _ => 0)
        [change owner owner slotWrite touched, change owner .default ∅ touched] =
      (some (.info none, .value 0), some (.info none, .value 5)) ∧
    answers (databaseOf (some owner) fun _ => 0)
        [change owner owner slotWrite touched,
          change owner owner ∅ { touched with created := true }] =
      (some (.info (some owner), .value 0), some (.info (some owner), .value 5)) ∧
    answers (databaseOf (some owner) fun _ => 0)
        [change owner owner ∅ { touched with selfDestructed := true }] =
      (some (.info none, .value 0), some (.info (some owner), .value 0)) ∧
    answers (databaseOf (some { AccountInfo.default with codeHash := 0 }) fun _ => 0)
        [change .default { AccountInfo.default with balance := 3 } ∅ touched] =
      (some (.info (some { AccountInfo.default with balance := 3 }), .value 0),
        some (.info (some { AccountInfo.default with balance := 3, codeHash := 0 }), .value 0)) ∧
    answers (databaseOf none fun _ => 7) [] =
      (some (.info none, .value 0), some (.info none, .value 7)) := by
  decide +kernel

open ReplayExample in
/-- A block of two transactions. -/
theorem BalDatabase.runTxs_replay_block : ∃ built bal, runTxs block
        (builder (State.new (databaseOf (some owner) fun _ => 0) (fun _ => .default) false :
          State Unit)) = some (.ok built) ∧
      built.balBuilder = some bal ∧
      ∀ k ≤ 2, ∃ self,
        runTxs (block.take k)
          (builder (State.new (databaseOf (some owner) fun _ => 0) (fun _ => .default) false :
            State Unit)) = some (.ok self) ∧
        ∀ address, ∃ info info' self',
          self.read (.basic address) = some (.ok (.info info, self')) ∧
          basic ⟨some bal, none, k, ((databaseOf (some owner) fun _ => 0).toDatabase
            fun _ => .default :
            Database Unit)⟩ address = .ok info' ∧
          info.map (fun i => (i.balance, i.nonce, i.codeHash)) =
            info'.map (fun i => (i.balance, i.nonce, i.codeHash)) ∧
          ∀ key, ∃ value self'',
            self'.read (.storage address key) = some (.ok (.value value, self'')) ∧
            storage ⟨some bal, none, k, ((databaseOf (some owner) fun _ => 0).toDatabase
              fun _ => .default : Database Unit)⟩ address key = .ok value :=
  runTxs_replay _ _ false (owner_noDanglingStorage _) (fun _ _ => owner_codeHash) block
    block_chainConsistent

end Revm
