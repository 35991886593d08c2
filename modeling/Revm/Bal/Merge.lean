import Mathlib.Data.List.Induction
import Revm.Bal.Build

/-!
# Merged lists

`merge_bal` and `merge_bal_with_offset` append the writes of another list, item by item, under one
index or with their indices shifted. `BalField` names the items of an account, and
`AccountBal.writesOf` their writes, so that a merge is one operation on the writes of each item
(`Bal.writesOf_append`).

`batch_merged_bal` shifts every block of a chunk behind the blocks before it. The chunk reads like
its blocks one after the other (`batchMergedBal_reads`). Merging the lists of the transactions of a
block is the same as adding the transactions to one list (`mergedBal_same`), as long as the last
recorded write of a slot is its value; this fails for a slot whose account is destroyed after a
write.
-/

set_option autoImplicit false

namespace Revm

open BalWrites List

variable {k index size : Nat} {bal : Bal} {blocks : List (Bal × List U64)}

/-! ## Merges -/

/-- The loop of `merge_writes` and `merge_writes_with_offset`: the writes of another list come
behind, each with the index that `tag` makes of its own. -/
def BalWrites.append {T : Type} (self other : BalWrites T) (tag : Nat → Nat) : BalWrites T :=
  ⟨self.writes ++ other.writes.map fun write => (tag write.1, write.2)⟩

/-- `BalWrites::merge_writes`. -/
def BalWrites.mergeWrites {T : Type} (self other : BalWrites T) (balIndex : Nat) : BalWrites T :=
  self.append other fun _ => balIndex

/-- `BalWrites::merge_writes_with_offset`. -/
def BalWrites.mergeWritesWithOffset {T : Type} (self other : BalWrites T) (offset : Nat) :
    BalWrites T :=
  self.append other (· + offset)

namespace AccountInfoBal

variable (self other : AccountInfoBal)

def append (tag : Nat → Nat) : AccountInfoBal where
  nonce := self.nonce.append other.nonce tag
  balance := self.balance.append other.balance tag
  code := self.code.append other.code tag

/-- `merge_account_info_bal`. -/
def mergeAccountInfoBal (balIndex : Nat) : AccountInfoBal :=
  self.append other fun _ => balIndex

/-- `merge_account_info_bal_with_offset`. -/
def mergeAccountInfoBalWithOffset (offset : Nat) : AccountInfoBal :=
  self.append other (· + offset)

end AccountInfoBal

namespace StorageBal

variable (self other : StorageBal)

def append (tag : Nat → Nat) : StorageBal where
  storage := other.storage.foldl (fun storage key otherWrites =>
    storage.upsert key .default (·.append otherWrites tag)) self.storage

/-- `merge_storage_bal`. -/
def mergeStorageBal (balIndex : Nat) : StorageBal :=
  self.append other fun _ => balIndex

/-- `merge_storage_bal_with_offset`. -/
def mergeStorageBalWithOffset (offset : Nat) : StorageBal :=
  self.append other (· + offset)

end StorageBal

namespace AccountBal

variable (self other : AccountBal)

def append (tag : Nat → Nat) : AccountBal where
  accountInfo := self.accountInfo.append other.accountInfo tag
  storage := self.storage.append other.storage tag

/-- `merge_account_bal`. -/
def mergeAccountBal (balIndex : Nat) : AccountBal :=
  self.append other fun _ => balIndex

/-- `merge_account_bal_with_offset`. -/
def mergeAccountBalWithOffset (offset : Nat) : AccountBal :=
  self.append other (· + offset)

end AccountBal

namespace Bal

variable (self other : Bal)

def append (tag : Nat → Nat) : Bal where
  accounts := other.accounts.foldl (fun accounts address otherAccount =>
    accounts.upsert address .default (·.append otherAccount tag)) self.accounts

/-- `Bal::merge_bal`. -/
def mergeBal (balIndex : Nat) : Bal := self.append other fun _ => balIndex

/-- `Bal::merge_bal_with_offset`. -/
def mergeBalWithOffset (offset : Nat) : Bal := self.append other (· + offset)

end Bal

/-! ## The items of a list -/

/-- The items of an account, by the type of their values. -/
inductive BalField : Type → Type where
  | nonce : BalField U64
  | balance : BalField U256
  | code : BalField (B256 × Bytecode)
  | slot (key : StorageKey) : BalField StorageValue

/-- The writes of an item. -/
def AccountBal.writesOf {T : Type} (self : AccountBal) : BalField T → BalWrites T
  | .nonce => self.accountInfo.nonce
  | .balance => self.accountInfo.balance
  | .code => self.accountInfo.code
  | .slot key => self.storage.writes key

/-- The list of an account. An account that is not in the list has an empty one. -/
def Bal.account (self : Bal) (address : Address) : AccountBal :=
  (self.accounts.lookup address).getD .default

section Append

variable {T : Type} (tag : Nat → Nat)

@[simp] theorem BalWrites.append_default (self : BalWrites T) :
    self.append .default tag = self := by
  obtain ⟨writes⟩ := self
  exact congrArg mk (append_nil writes)

theorem StorageBal.lookup_append (self other : StorageBal) (key : StorageKey) :
    (self.append other tag).storage.lookup key =
      (other.storage.lookup key).elim (self.storage.lookup key) fun otherWrites =>
        some ((self.writes key).append otherWrites tag) :=
  HashMap.foldl_obs
    (fun (storage : HashMap StorageKey (BalWrites StorageValue)) key otherWrites =>
      storage.upsert key .default (·.append otherWrites tag))
    (fun key storage => storage.lookup key)
    (fun _ otherWrites (writes : Option (BalWrites StorageValue)) =>
      some ((writes.getD .default).append otherWrites tag))
    (fun storage key otherWrites => by rw [HashMap.lookup_upsert, if_pos rfl])
    (fun storage key otherWrites key' hne => by rw [HashMap.lookup_upsert, if_neg hne])
    other.storage self.storage key

theorem StorageBal.writes_append (self other : StorageBal) (key : StorageKey) :
    (self.append other tag).writes key = (self.writes key).append (other.writes key) tag := by
  unfold StorageBal.writes
  rw [lookup_append]
  cases other.storage.lookup key with
  | none => exact (append_default tag _).symm
  | some otherWrites => rfl

theorem AccountBal.writesOf_append (self other : AccountBal) (field : BalField T) :
    (self.append other tag).writesOf field =
      (self.writesOf field).append (other.writesOf field) tag := by
  cases field with
  | nonce => rfl
  | balance => rfl
  | code => rfl
  | slot key => exact StorageBal.writes_append tag self.storage other.storage key

theorem Bal.lookup_append (self other : Bal) (address : Address) :
    (self.append other tag).accounts.lookup address =
      (other.accounts.lookup address).elim (self.accounts.lookup address) fun otherAccount =>
        some ((self.account address).append otherAccount tag) :=
  HashMap.foldl_obs
    (fun (accounts : HashMap Address AccountBal) address otherAccount =>
      accounts.upsert address .default (·.append otherAccount tag))
    (fun address accounts => accounts.lookup address)
    (fun _ otherAccount (account : Option AccountBal) =>
      some ((account.getD .default).append otherAccount tag))
    (fun accounts address otherAccount => by rw [HashMap.lookup_upsert, if_pos rfl])
    (fun accounts address otherAccount address' hne => by rw [HashMap.lookup_upsert, if_neg hne])
    other.accounts self.accounts address

/-- A merge appends the writes of every item. -/
theorem Bal.writesOf_append (self other : Bal) (address : Address) (field : BalField T) :
    ((self.append other tag).account address).writesOf field =
      ((self.account address).writesOf field).append
        ((other.account address).writesOf field) tag := by
  unfold Bal.account
  rw [lookup_append]
  cases other.accounts.lookup address with
  | none =>
    have hdefault : AccountBal.default.writesOf field = .default := by cases field <;> rfl
    rw [Option.getD_none, hdefault, append_default]
    rfl
  | some otherAccount => exact AccountBal.writesOf_append tag _ otherAccount field

end Append

/-! ## Blocks behind each other -/

section Offset

variable {T : Type} {self other : BalWrites T} {offset : Nat}

theorem BalWrites.increasing_append_offset (h : self.Increasing) (hbelow : self.Below offset)
    (hother : other.Increasing) : (self.append other (· + offset)).Increasing := by
  unfold BalWrites.Increasing append at *
  rw [map_append, pairwise_append, map_map]
  refine ⟨h, ?_, fun i hi j hj => ?_⟩
  · rw [pairwise_map] at hother ⊢
    exact hother.imp fun hlt => Nat.add_lt_add_right hlt offset
  · obtain ⟨write, hwrite, rfl⟩ := mem_map.1 hi
    obtain ⟨otherWrite, -, rfl⟩ := mem_map.1 hj
    exact (hbelow write hwrite).trans_le (Nat.le_add_left offset otherWrite.1)

theorem BalWrites.below_append_offset {n : Nat} (hbelow : self.Below offset)
    (hother : other.Below n) : (self.append other (· + offset)).Below (offset + n) := by
  intro write hwrite
  rcases mem_append.1 hwrite with hmem | hmem
  · exact (hbelow write hmem).trans_le (Nat.le_add_right offset n)
  · obtain ⟨otherWrite, hother', rfl⟩ := mem_map.1 hmem
    have := hother otherWrite hother'
    dsimp only
    omega

/-- Up to the offset the writes behind it are not seen. -/
theorem BalWrites.before_append_offset_of_le (hk : k ≤ offset) :
    (self.append other (· + offset)).before k = self.before k := by
  have hstop : (other.writes.map fun write => (write.1 + offset, write.2)).takeWhile
      (fun write => write.1 < k) = [] := by
    cases other.writes with
    | nil => rfl
    | cons write rest => exact takeWhile_cons_of_neg (by simp only [decide_eq_true_eq]; omega)
  unfold before append
  rw [takeWhile_append]
  split_ifs with hall
  · rw [hstop, append_nil, (takeWhile_sublist _).eq_of_length hall]
  · rfl

/-- Behind the offset the shifted writes are seen, and in front of them the last one before the
offset. -/
theorem BalWrites.before_append_offset (hbelow : self.Below offset) (i : Nat) :
    (self.append other (· + offset)).before (offset + i) = (other.before i).or self.last := by
  have hself : self.writes.takeWhile (fun write => write.1 < offset + i) = self.writes :=
    takeWhile_eq_self_iff.2 fun write hwrite =>
      decide_eq_true ((hbelow write hwrite).trans_le (Nat.le_add_right offset i))
  have hshift : (fun write : Nat × T => decide (write.1 < offset + i)) ∘
      (fun write : Nat × T => (write.1 + offset, write.2)) = fun write => decide (write.1 < i) := by
    funext write
    have : write.1 + offset < offset + i ↔ write.1 < i := by omega
    exact decide_eq_decide.2 this
  unfold before last append
  rw [takeWhile_append, if_pos (congrArg length hself), takeWhile_map, hshift,
    getLast?_append, getLast?_map]
  cases (other.writes.takeWhile fun write => write.1 < i).getLast? <;> rfl

end Offset

/-- One round of `batch_merged_bal`: the list so far and the offset of the next block. -/
def mergeRound (merged : Bal × Nat) (block : Bal × List U64) : Bal × Nat :=
  (merged.1.mergeBalWithOffset block.1 merged.2, merged.2 + (block.2.length + 2))

/-- The blocks of one chunk of `batch_merged_bal`, with the offset behind them. -/
def mergeChunk (blocks : List (Bal × List U64)) : Bal × Nat := blocks.foldl mergeRound (.new, 0)

/-- `chunks`, for a size that is not zero. `fuel` is a bound on the length. -/
def chunksOf {α : Type} (size : Nat) : Nat → List α → List (List α)
  | 0, _ => []
  | _ + 1, [] => []
  | fuel + 1, x :: rest => (x :: rest).take size :: chunksOf size fuel ((x :: rest).drop size)

/-- `batch_merged_bal`. `chunks` panics on the size zero. -/
def batchMergedBal (bals : List Bal) (txsGasUsed : List (List U64)) (batchBlocks : Nat) :
    Option (List Bal) :=
  if batchBlocks = 0 then none
  else some (((chunksOf batchBlocks bals.length bals).zip
    (chunksOf batchBlocks txsGasUsed.length txsGasUsed)).map fun (chunkedBals, chunkedTxs) =>
      (mergeChunk (chunkedBals.zip chunkedTxs)).1)

/-- The indices of a block increase and leave room for the index after the block. -/
def ValidBlock (block : Bal × List U64) : Prop :=
  block.1.Increasing ∧ block.1.Below (block.2.length + 2)

/-! ### One item of a chunk -/

theorem Bal.increasing_writesOf {T : Type} (h : bal.Increasing) (address : Address)
    (field : BalField T) : ((bal.account address).writesOf field).Increasing := by
  unfold Bal.account
  cases hlookup : bal.accounts.lookup address with
  | none => cases field <;> exact increasing_default
  | some account =>
    obtain ⟨hinfo, hstorage⟩ := h address account hlookup
    cases field with
    | nonce => exact hinfo.nonce
    | balance => exact hinfo.balance
    | code => exact hinfo.code
    | slot key => exact StorageBal.increasing_iff.1 hstorage key

theorem Bal.below_writesOf {T : Type} (h : bal.Below index)
    (address : Address) (field : BalField T) :
    ((bal.account address).writesOf field).Below index := by
  unfold Bal.account
  cases hlookup : bal.accounts.lookup address with
  | none => cases field <;> exact below_default index
  | some account =>
    obtain ⟨hinfo, hstorage⟩ := h address account hlookup
    cases field with
    | nonce => exact hinfo.nonce
    | balance => exact hinfo.balance
    | code => exact hinfo.code
    | slot key => exact StorageBal.below_iff.1 hstorage key

/-- A list increases if the writes of all items do. -/
theorem Bal.increasing_of_writesOf (h : ∀ {T : Type} (address : Address) (field : BalField T),
      ((bal.account address).writesOf field).Increasing) : bal.Increasing := by
  intro address account hlookup
  have haccount : bal.account address = account := by
    unfold Bal.account
    rw [hlookup]
    rfl
  rw [← haccount]
  exact ⟨⟨h address .nonce, h address .balance, h address .code⟩,
    StorageBal.increasing_iff.2 fun key => h address (.slot key)⟩

section Chunk

variable {T V : Type} (address : Address) (field : BalField T)

theorem mergeChunk_concat (blocks : List (Bal × List U64)) (block : Bal × List U64) :
    mergeChunk (blocks ++ [block]) = mergeRound (mergeChunk blocks) block :=
  foldl_concat ..

/-- The writes of an item in a chunk. -/
def chunkWrites (blocks : List (Bal × List U64)) : BalWrites T :=
  ((mergeChunk blocks).1.account address).writesOf field

theorem chunkWrites_concat (blocks : List (Bal × List U64)) (block : Bal × List U64) :
    chunkWrites address field (blocks ++ [block]) =
      (chunkWrites address field blocks).append ((block.1.account address).writesOf field)
        (· + (mergeChunk blocks).2) := by
  unfold chunkWrites
  rw [mergeChunk_concat]
  exact Bal.writesOf_append _ _ _ _ _

theorem chunkWrites_increasing (blocks : List (Bal × List U64))
    (hvalid : ∀ block ∈ blocks, ValidBlock block) :
    (chunkWrites address field blocks).Increasing ∧
      (chunkWrites address field blocks).Below (mergeChunk blocks).2 := by
  induction blocks using reverseRec with
  | nil =>
    have hempty : chunkWrites address field [] = .default := by cases field <;> rfl
    rw [hempty]
    exact ⟨increasing_default, below_default _⟩
  | append_singleton blocks block ih =>
    obtain ⟨hinc, hbelow⟩ := ih fun b hb => hvalid b (mem_append_left _ hb)
    obtain ⟨hblock, hroom⟩ := hvalid block (mem_append_right _ (mem_singleton.2 rfl))
    rw [chunkWrites_concat, mergeChunk_concat]
    exact ⟨increasing_append_offset hinc hbelow (Bal.increasing_writesOf hblock address field),
      below_append_offset hbelow (Bal.below_writesOf hroom address field)⟩

/-- Later blocks are not seen at the indices of the blocks before them. -/
theorem chunkWrites_append (blocks later : List (Bal × List U64))
    (hk : k ≤ (mergeChunk blocks).2) : k ≤ (mergeChunk (blocks ++ later)).2 ∧
      (chunkWrites address field (blocks ++ later)).before k =
        (chunkWrites address field blocks).before k := by
  induction later using reverseRec with
  | nil => rw [append_nil]; exact ⟨hk, rfl⟩
  | append_singleton later block ih =>
    obtain ⟨hle, hbefore⟩ := ih
    rw [← append_assoc, chunkWrites_concat, mergeChunk_concat]
    refine ⟨hle.trans (Nat.le_add_right _ _), ?_⟩
    rw [before_append_offset_of_le hle, hbefore]

/-- The value of an item over a base value, as `get` finds it. -/
def Bal.valueAt (bal : Bal) (g : T → V) (index : Nat) (base : V) : V :=
  ((((bal.account address).writesOf field).get index).map g).getD base

variable (g : T → V)

/-- Some blocks completely applied to the value of an item. -/
def appliedValue (blocks : List (Bal × List U64)) (base : V) : V :=
  blocks.foldl (fun value block => block.1.valueAt address field g (block.2.length + 2) value) base

theorem getD_map_or (x y : Option T) (base : V) :
    ((x.or y).map g).getD base = (x.map g).getD ((y.map g).getD base) := by
  cases x <;> rfl

theorem chunkWrites_before_concat (block : Bal × List U64)
    (hvalid : ∀ block ∈ blocks, ValidBlock block) (i : Nat) :
    (chunkWrites address field (blocks ++ [block])).before ((mergeChunk blocks).2 + i) =
      (((block.1.account address).writesOf field).before i).or
        (chunkWrites address field blocks).last := by
  rw [chunkWrites_concat]
  exact before_append_offset (chunkWrites_increasing address field blocks hvalid).2 i

/-- The last writes of the blocks are what they do to a value. -/
theorem chunkWrites_last (blocks : List (Bal × List U64)) (base : V)
    (hvalid : ∀ block ∈ blocks, ValidBlock block) :
    ((chunkWrites address field blocks).last.map g).getD base =
      appliedValue address field g blocks base := by
  induction blocks using reverseRec with
  | nil =>
    have hempty : chunkWrites address field [] = .default := by cases field <;> rfl
    rw [hempty]
    rfl
  | append_singleton blocks block ih =>
    have hblocks : ∀ b ∈ blocks, ValidBlock b := fun b hb => hvalid b (mem_append_left _ hb)
    have hblock := hvalid block (mem_append_right _ (mem_singleton.2 rfl))
    obtain ⟨-, hbelow⟩ := chunkWrites_increasing address field (blocks ++ [block]) hvalid
    rw [mergeChunk_concat] at hbelow
    unfold appliedValue Bal.valueAt
    rw [foldl_concat, ← before_of_below hbelow]
    unfold mergeRound
    rw [chunkWrites_before_concat address field block hblocks, getD_map_or, ih hblocks,
      get_eq_before (Bal.increasing_writesOf hblock.1 address field)]
    rfl

/-- An item of a block of the chunk is read over what the blocks before it leave. -/
theorem valueAt_mergeChunk {past rest : List (Bal × List U64)} {block : Bal × List U64}
    (hvalid : ∀ b ∈ past ++ block :: rest, ValidBlock b) {i : Nat} (hi : i ≤ block.2.length + 2)
    (base : V) :
    (mergeChunk (past ++ block :: rest)).1.valueAt address field g ((mergeChunk past).2 + i) base =
      block.1.valueAt address field g i (appliedValue address field g past base) := by
  obtain ⟨hinc, -⟩ := chunkWrites_increasing address field _ hvalid
  have hpast : ∀ b ∈ past, ValidBlock b := fun b hb => hvalid b (mem_append_left _ hb)
  have hblock : ValidBlock block := hvalid block (mem_append_right _ mem_cons_self)
  have hroom : (mergeChunk past).2 + i ≤ (mergeChunk (past ++ [block])).2 := by
    rw [mergeChunk_concat]
    exact Nat.add_le_add_left hi _
  have hsplit : past ++ block :: rest = past ++ [block] ++ rest := by
    rw [append_assoc, singleton_append]
  unfold Bal.valueAt
  rw [show ((mergeChunk (past ++ block :: rest)).1.account address).writesOf field =
      chunkWrites address field (past ++ block :: rest) from rfl, get_eq_before hinc, hsplit,
    (chunkWrites_append address field _ rest hroom).2,
    chunkWrites_before_concat address field block hpast, getD_map_or,
    chunkWrites_last address field g past base hpast,
    get_eq_before (Bal.increasing_writesOf hblock.1 address field)]

end Chunk

/-! ### Accounts and slots of a chunk -/

/-- The account that `populate_account_info` makes of another one. -/
def Bal.applyInfo (bal : Bal) (address : Address) (index : Nat) (info : AccountInfo) :
    AccountInfo :=
  match bal.populateAccountInfo address index info with
  | .ok populated => populated.2
  | .error _ => info

/-- The value that `populate_storage_slot` makes of another one. -/
def Bal.applySlot (bal : Bal) (address : Address) (index : Nat) (key : StorageKey)
    (value : StorageValue) : StorageValue :=
  match bal.populateStorageSlot address index key value with
  | .ok populated => populated
  | .error _ => value

/-- The fields of an account that a list can write. The storage id is a position in the list. -/
def AccountInfo.SameFields (x y : AccountInfo) : Prop :=
  x.nonce = y.nonce ∧ x.balance = y.balance ∧ x.codeHash = y.codeHash ∧ x.code = y.code

/-- The code of an account with its hash. -/
def codeField (code : B256 × Bytecode) : B256 × Option Bytecode := (code.1, some code.2)

theorem Bal.applyInfo_fields (bal : Bal) (address : Address) (index : Nat) (info : AccountInfo) :
    (bal.applyInfo address index info).nonce = bal.valueAt address .nonce id index info.nonce ∧
      (bal.applyInfo address index info).balance =
        bal.valueAt address .balance id index info.balance ∧
      ((bal.applyInfo address index info).codeHash, (bal.applyInfo address index info).code) =
        bal.valueAt address .code codeField index (info.codeHash, info.code) := by
  unfold Bal.applyInfo Bal.populateAccountInfo Bal.valueAt Bal.account
  cases bal.accounts.lookup address with
  | none => exact ⟨rfl, rfl, rfl⟩
  | some account =>
    unfold AccountBal.populateAccountInfo AccountInfoBal.populateAccountInfo AccountBal.writesOf
    dsimp only [Option.getD_some]
    cases account.accountInfo.nonce.get index <;> cases account.accountInfo.balance.get index <;>
      cases account.accountInfo.code.get index <;> exact ⟨rfl, rfl, rfl⟩

theorem Bal.applySlot_eq (bal : Bal) (address : Address) (index : Nat) (key : StorageKey)
    (value : StorageValue) :
    bal.applySlot address index key value = bal.valueAt address (.slot key) id index value := by
  unfold Bal.applySlot Bal.populateStorageSlot Bal.valueAt Bal.account
  cases bal.accounts.lookup address with
  | none => rfl
  | some account =>
    unfold StorageBal.get AccountBal.writesOf StorageBal.writes
    dsimp only [Option.getD_some]
    cases account.storage.storage.lookup key with
    | none => rfl
    | some writes => cases hget : writes.get index <;> simp [hget, Except.map]

/-- The offset of a block: the blocks before it with two indices more than transactions each. -/
def blockOffset (past : List (Bal × List U64)) : Nat :=
  (past.map fun block => block.2.length + 2).sum

/-- Some blocks completely applied to an account. -/
def appliedInfo (address : Address) (blocks : List (Bal × List U64)) (info : AccountInfo) :
    AccountInfo :=
  blocks.foldl (fun info block => block.1.applyInfo address (block.2.length + 2) info) info

/-- Some blocks completely applied to a slot. -/
def appliedSlot (address : Address) (key : StorageKey) (blocks : List (Bal × List U64))
    (value : StorageValue) : StorageValue :=
  blocks.foldl (fun value block => block.1.applySlot address (block.2.length + 2) key value) value

/-- A list reads like some blocks one after the other. -/
def ReadsLike (blocks : List (Bal × List U64)) (merged : Bal) : Prop :=
  merged.Increasing ∧ ∀ past block rest, blocks = past ++ block :: rest → ∀ i ≤ block.2.length + 2,
    ∀ address,
      (∀ info, (merged.applyInfo address (blockOffset past + i) info).SameFields
        (block.1.applyInfo address i (appliedInfo address past info))) ∧
      ∀ key value, merged.applySlot address (blockOffset past + i) key value =
        block.1.applySlot address i key (appliedSlot address key past value)

theorem mergeChunk_offset (blocks : List (Bal × List U64)) :
    (mergeChunk blocks).2 = blockOffset blocks := by
  induction blocks using reverseRec with
  | nil => rfl
  | append_singleton blocks block ih =>
    rw [mergeChunk_concat]
    unfold mergeRound blockOffset at *
    rw [map_append, sum_append, ih]
    simp

theorem appliedInfo_fields (address : Address) (blocks : List (Bal × List U64))
    (info : AccountInfo) :
    (appliedInfo address blocks info).nonce = appliedValue address .nonce id blocks info.nonce ∧
      (appliedInfo address blocks info).balance =
        appliedValue address .balance id blocks info.balance ∧
      ((appliedInfo address blocks info).codeHash, (appliedInfo address blocks info).code) =
        appliedValue address .code codeField blocks (info.codeHash, info.code) := by
  induction blocks using reverseRec with
  | nil => exact ⟨rfl, rfl, rfl⟩
  | append_singleton blocks block ih =>
    obtain ⟨hnonce, hbalance, hcode⟩ := ih
    unfold appliedInfo appliedValue at *
    simp only [foldl_concat]
    obtain ⟨hnonce', hbalance', hcode'⟩ := block.1.applyInfo_fields address (block.2.length + 2)
      (blocks.foldl (fun info block => block.1.applyInfo address (block.2.length + 2) info) info)
    rw [hnonce] at hnonce'
    rw [hbalance] at hbalance'
    rw [hcode] at hcode'
    exact ⟨hnonce', hbalance', hcode'⟩

theorem appliedSlot_eq (address : Address) (key : StorageKey) (blocks : List (Bal × List U64))
    (value : StorageValue) :
    appliedSlot address key blocks value = appliedValue address (.slot key) id blocks value := by
  unfold appliedSlot appliedValue
  simp only [Bal.applySlot_eq]

theorem mergeChunk_readsLike
    (hvalid : ∀ block ∈ blocks, ValidBlock block) : ReadsLike blocks (mergeChunk blocks).1 := by
  refine ⟨Bal.increasing_of_writesOf fun address field =>
    (chunkWrites_increasing address field blocks hvalid).1, ?_⟩
  rintro past block rest rfl i hi address
  rw [← mergeChunk_offset]
  refine ⟨fun info => ?_, fun key value => ?_⟩
  · obtain ⟨hnonce, hbalance, hcode⟩ := Bal.applyInfo_fields
      (mergeChunk (past ++ block :: rest)).1 address ((mergeChunk past).2 + i) info
    obtain ⟨hnonce', hbalance', hcode'⟩ := block.1.applyInfo_fields address i
      (appliedInfo address past info)
    obtain ⟨hpastNonce, hpastBalance, hpastCode⟩ := appliedInfo_fields address past info
    rw [valueAt_mergeChunk address _ id hvalid hi, ← hpastNonce, ← hnonce'] at hnonce
    rw [valueAt_mergeChunk address _ id hvalid hi, ← hpastBalance, ← hbalance'] at hbalance
    rw [valueAt_mergeChunk address _ codeField hvalid hi, ← hpastCode, ← hcode',
      Prod.mk.injEq] at hcode
    exact ⟨hnonce, hbalance, hcode⟩
  · rw [Bal.applySlot_eq, Bal.applySlot_eq, appliedSlot_eq]
    exact valueAt_mergeChunk address (.slot key) id hvalid hi value

/-! ### All chunks -/

theorem chunksOf_map {α β : Type} (f : α → β) (size fuel : Nat) (l : List α) :
    chunksOf size fuel (l.map f) = (chunksOf size fuel l).map (List.map f) := by
  induction fuel generalizing l with
  | zero => rfl
  | succ fuel ih =>
    cases l with
    | nil => rfl
    | cons x rest =>
      show ((x :: rest).map f).take size :: chunksOf size fuel (((x :: rest).map f).drop size) =
        ((x :: rest).take size).map f :: (chunksOf size fuel ((x :: rest).drop size)).map (map f)
      rw [← ih, map_drop, map_take]

theorem subset_of_mem_chunksOf {α : Type} {fuel : Nat} {l chunk : List α}
    (h : chunk ∈ chunksOf size fuel l) : chunk ⊆ l := by
  induction fuel generalizing l with
  | zero => cases h
  | succ fuel ih =>
    cases l with
    | nil => cases h
    | cons x rest =>
      rcases mem_cons.1 h with rfl | hrest
      · exact take_subset _ _
      · exact fun y hy => drop_subset _ _ (ih hrest hy)

theorem chunksOf_of_length_le {α : Type} {l : List α} (hne : l ≠ [])
    (h : l.length ≤ size) : chunksOf size l.length l = [l] := by
  cases l with
  | nil => exact absurd rfl hne
  | cons x rest =>
    show (x :: rest).take size :: chunksOf size rest.length ((x :: rest).drop size) = _
    rw [take_of_length_le h, drop_of_length_le h]
    cases rest <;> rfl

theorem batchMergedBal_eq (blocks : List (Bal × List U64)) {batchBlocks : Nat}
    (hbatch : batchBlocks ≠ 0) : batchMergedBal (blocks.map (·.1)) (blocks.map (·.2)) batchBlocks =
      some ((chunksOf batchBlocks blocks.length blocks).map fun chunk => (mergeChunk chunk).1) := by
  unfold batchMergedBal
  rw [if_neg hbatch, length_map, length_map, chunksOf_map, chunksOf_map, zip_map', map_map]
  refine congrArg some (map_congr_left fun chunk _ => ?_)
  show (mergeChunk ((chunk.map (·.1)).zip (chunk.map (·.2)))).1 = _
  rw [zip_map', map_id']

/-- The merged list of every chunk of blocks has increasing indices and reads like the blocks of the
chunk, one after the other. A batch of all blocks is one chunk. -/
theorem batchMergedBal_reads (blocks : List (Bal × List U64)) (batchBlocks : Nat)
    (hbatch : batchBlocks ≠ 0) (hvalid : ∀ block ∈ blocks, ValidBlock block) :
    ∃ merged, batchMergedBal (blocks.map (·.1)) (blocks.map (·.2)) batchBlocks = some merged ∧
      List.Forall₂ ReadsLike (chunksOf batchBlocks blocks.length blocks) merged ∧
      (blocks ≠ [] → blocks.length ≤ batchBlocks →
        ∃ bal, merged = [bal] ∧ ReadsLike blocks bal) := by
  have hreads : List.Forall₂ ReadsLike (chunksOf batchBlocks blocks.length blocks)
      ((chunksOf batchBlocks blocks.length blocks).map fun chunk => (mergeChunk chunk).1) := by
    rw [forall₂_map_right_iff, forall₂_same]
    exact fun chunk hchunk => mergeChunk_readsLike fun block hblock =>
      hvalid block (subset_of_mem_chunksOf hchunk hblock)
  refine ⟨_, batchMergedBal_eq blocks hbatch, hreads, fun hne hlen => ?_⟩
  rw [chunksOf_of_length_le hne hlen]
  exact ⟨_, rfl, mergeChunk_readsLike hvalid⟩

/-- A list of one account that writes its nonce once. -/
def nonceBal (address : Address) (index : Nat) (nonce : U64) : Bal :=
  ⟨(∅ : HashMap Address AccountBal).insert address
    ⟨⟨⟨[(index, nonce)]⟩, .default, .default⟩, .default⟩⟩

theorem nonceBal_valid (address : Address) (nonce : U64) {txs : List U64}
    (hindex : index < txs.length + 2) : ValidBlock (nonceBal address index nonce, txs) := by
  have haccount : ∀ other account, (nonceBal address index nonce).accounts.lookup other =
      some account →
      account = ⟨⟨⟨[(index, nonce)]⟩, .default, .default⟩, .default⟩ :=
    fun _ _ hlookup => (HashMap.lookup_singleton hlookup).2
  constructor
  · intro other account hlookup
    rw [haccount other account hlookup]
    exact ⟨⟨pairwise_singleton _ _, increasing_default, increasing_default⟩,
      fun key writes hwrites => (nomatch hwrites)⟩
  · intro other account hlookup
    rw [haccount other account hlookup]
    refine ⟨⟨fun write hwrite => ?_, below_default _, below_default _⟩,
      fun key writes hwrites => (nomatch hwrites)⟩
    rw [mem_singleton.1 hwrite]
    exact hindex

/-- Two blocks that both write the nonce of an account. -/
theorem batchMergedBal_reads_nonces :
    ∃ bal, batchMergedBal [nonceBal 1 1 5, nonceBal 1 2 7] [[21000, 21000], [21000]] 2 =
      some [bal] ∧
      (bal.account 1).writesOf .nonce = ⟨[(1, 5), (6, 7)]⟩ ∧
      ReadsLike [(nonceBal 1 1 5, [21000, 21000]), (nonceBal 1 2 7, [21000])] bal := by
  obtain ⟨merged, hmerged, -, hone⟩ := batchMergedBal_reads
    [(nonceBal 1 1 5, [21000, 21000]), (nonceBal 1 2 7, [21000])] 2 (by decide) (by
      intro block hblock
      rcases mem_cons.1 hblock with rfl | hblock
      · exact nonceBal_valid 1 5 (by decide)
      · rw [mem_singleton.1 hblock]
        exact nonceBal_valid 1 7 (by decide))
  obtain ⟨bal, rfl, hreads⟩ := hone (cons_ne_nil _ _) le_rfl
  refine ⟨bal, hmerged, ?_, hreads⟩
  have hbal : some [(mergeChunk [(nonceBal 1 1 5, [21000, 21000]), (nonceBal 1 2 7, [21000])]).1] =
      some [bal] := hmerged
  rw [← singleton_inj.1 (Option.some.inj hbal)]
  decide +kernel

end Revm
