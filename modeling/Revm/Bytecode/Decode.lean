import Revm.Bytecode.Analysis

/-!
# Decoding bytecode

`newRawChecked` decodes a byte string: it is a delegation designator if it starts with the magic
bytes, else it is analysed as legacy code. `DecodedBytecode` is `Bytecode` with all its fields, the
padded code and the jump table included, and `Bytecode.analyzed` is the value of it that a
`Bytecode` of this development stands for.

A code is `Decodable` if its original bytes are decoded to itself. Legacy code is decodable if it
does not start with the magic bytes (`decodable_legacyAnalyzed`), new designators are
(`decodable_newEip7702`). Of a decodable code the conversions to and from the `Bytecode` of `reth`
succeed (`Decodable.ofReth_toReth`), and so does the decoding of a block access list
(`decodeCodeChanges_encode`).
-/

set_option autoImplicit false

namespace Revm

variable {bytes : List UInt8}

/-! ## Decoded bytecode -/

/-- `LegacyAnalyzedBytecode`, with the assertions of `LegacyAnalyzedBytecode::new`. -/
structure LegacyAnalyzedBytecode where
  bytecode : List UInt8
  originalLen : Nat
  jumpTable : JumpTable
  originalLen_le : originalLen ≤ bytecode.length
  originalLen_le_jumpTable : originalLen ≤ jumpTable.len
  bytecode_nonempty : 0 < bytecode.length

theorem len_jumpTable (code : List UInt8) : (jumpTable code).len = code.length := by
  unfold jumpTable analyzeLegacy
  cases code with
  | nil => rfl
  | cons byte rest =>
    rw [if_neg (by simp)]
    rfl

/-- `LegacyAnalyzedBytecode::analyze`. The assertions of `new` never fail here. -/
def LegacyAnalyzedBytecode.analyze (code : List UInt8) : LegacyAnalyzedBytecode where
  bytecode := paddedCode code
  originalLen := code.length
  jumpTable := Revm.jumpTable code
  originalLen_le := by
    obtain ⟨padding, heq⟩ := paddedCode_eq code
    rw [heq, List.length_append]
    exact Nat.le_add_right _ _
  originalLen_le_jumpTable := (len_jumpTable code).ge
  bytecode_nonempty := paddedCode_ne_nil code

/-- `Bytecode`, with all fields. -/
inductive DecodedBytecode where
  | eip7702 (delegatedAddress : Address) (version : UInt8) (raw : List UInt8)
  | legacyAnalyzed (analyzed : LegacyAnalyzedBytecode)

variable (raw : List UInt8)

namespace DecodedBytecode

/-- `Bytecode::new_legacy`. -/
def newLegacy : DecodedBytecode := .legacyAnalyzed (.analyze raw)

/-- `original_bytes`. -/
def originalBytes : DecodedBytecode → List UInt8
  | .eip7702 _ _ raw => raw
  | .legacyAnalyzed analyzed => analyzed.bytecode.take analyzed.originalLen

/-- `hash_slow`. -/
def hashSlow [Keccak256] (code : DecodedBytecode) : B256 :=
  if code.originalBytes.length == 0 then keccakEmpty else Keccak256.keccak256 code.originalBytes

/-- The padding is cut off again. -/
@[simp] theorem originalBytes_newLegacy : (newLegacy raw).originalBytes = raw := by
  obtain ⟨padding, heq⟩ := paddedCode_eq raw
  show (paddedCode raw).take raw.length = raw
  rw [heq, List.take_left' rfl]

end DecodedBytecode

/-- The value of `Bytecode` with all its fields. -/
def Bytecode.analyzed : Bytecode → DecodedBytecode
  | .eip7702 delegatedAddress version raw => .eip7702 delegatedAddress version raw
  | .legacyAnalyzed bytes => .newLegacy bytes

variable (code : Bytecode)

@[simp] theorem Bytecode.originalBytes_analyzed :
    code.analyzed.originalBytes = code.originalByteSlice := by
  cases code with
  | eip7702 => rfl
  | legacyAnalyzed bytes => exact DecodedBytecode.originalBytes_newLegacy bytes

theorem Bytecode.hashSlow_analyzed [Keccak256] : code.analyzed.hashSlow = code.hashSlow := by
  unfold DecodedBytecode.hashSlow Bytecode.hashSlow Bytecode.isEmpty
  rw [originalBytes_analyzed]

/-! ## The decoder -/

/-- `Eip7702DecodeError`. -/
inductive Eip7702DecodeError where
  | invalidLength
  | invalidMagic
  | unsupportedVersion
  deriving DecidableEq, Repr

/-- `BytecodeDecodeError`. -/
inductive BytecodeDecodeError where
  | eip7702 (error : Eip7702DecodeError)
  deriving DecidableEq, Repr

/-- `EIP7702_MAGIC_BYTES`. -/
def eip7702MagicBytes : List UInt8 := [0xef, 0x01]

/-- `EIP7702_VERSION`. -/
def eip7702Version : UInt8 := 0

/-- `Address::new`, of the last 20 bytes of a designator. -/
def addressOfBytes (bytes : List UInt8) : Address := BitVec.ofNat 160 (BigEndian.value bytes)

theorem addressOfBytes_bigEndianBytes (address : Address) :
    addressOfBytes (bigEndianBytes address.toNat 20) = address := by
  apply BitVec.eq_of_toNat_eq
  rw [addressOfBytes, value_bigEndianBytes, BitVec.toNat_ofNat]
  have hlt : address.toNat < 256 ^ 20 := address.isLt
  rw [Nat.mod_eq_of_lt hlt, Nat.mod_eq_of_lt address.isLt]

/-- `Eip7702Bytecode::new_raw`. -/
def eip7702NewRaw : Except Eip7702DecodeError DecodedBytecode :=
  if raw.length ≠ 23 then .error .invalidLength
  else if raw.take 2 ≠ eip7702MagicBytes then .error .invalidMagic
  else if raw.getD 2 0 ≠ eip7702Version then .error .unsupportedVersion
  else .ok (.eip7702 (addressOfBytes (raw.drop 3)) (raw.getD 2 0) raw)

/-- `Bytecode::new_raw_checked`. -/
def newRawChecked (bytes : List UInt8) : Except BytecodeDecodeError DecodedBytecode :=
  if bytes.take 2 = eip7702MagicBytes then
    match eip7702NewRaw bytes with
    | .error e => .error (.eip7702 e)
    | .ok code => .ok code
  else .ok (.newLegacy bytes)

theorem newRawChecked_of_ne_magic (h : bytes.take 2 ≠ eip7702MagicBytes) :
    newRawChecked bytes = .ok (.newLegacy bytes) := if_neg h

/-- What is decoded from bytes with the magic bytes in front. -/
theorem newRawChecked_of_magic {code : DecodedBytecode}
    (hmagic : bytes.take 2 = eip7702MagicBytes) (h : newRawChecked bytes = .ok code) :
    bytes.length = 23 ∧ bytes.getD 2 0 = eip7702Version ∧
      code = .eip7702 (addressOfBytes (bytes.drop 3)) (bytes.getD 2 0) bytes := by
  unfold newRawChecked eip7702NewRaw at h
  rw [if_pos hmagic] at h
  split_ifs at h with hlen _ hversion
  cases h
  exact ⟨not_not.1 hlen, not_not.1 hversion, rfl⟩

/-- Decoding does not lose a byte. -/
theorem originalBytes_of_newRawChecked {code : DecodedBytecode}
    (h : newRawChecked bytes = .ok code) : code.originalBytes = bytes := by
  by_cases hmagic : bytes.take 2 = eip7702MagicBytes
  · obtain ⟨-, -, rfl⟩ := newRawChecked_of_magic hmagic h
    rfl
  · rw [newRawChecked_of_ne_magic hmagic] at h
    cases h
    exact DecodedBytecode.originalBytes_newLegacy bytes

/-! ## Decodable code -/

namespace Bytecode

/-- The original bytes are decoded to the code itself. -/
def Decodable : Prop :=
  newRawChecked code.analyzed.originalBytes = .ok code.analyzed

theorem decodable_legacyAnalyzed (h : bytes.take 2 ≠ eip7702MagicBytes) :
    (legacyAnalyzed bytes).Decodable := by
  unfold Decodable
  rw [originalBytes_analyzed]
  exact newRawChecked_of_ne_magic h

/-- Code that EIP-3541 lets pass is no designator. -/
theorem decodable_of_head (h : bytes.head? ≠ some 0xef) : (legacyAnalyzed bytes).Decodable := by
  apply decodable_legacyAnalyzed
  intro hmagic
  cases bytes with
  | nil => cases hmagic
  | cons byte rest =>
    rw [List.take_succ_cons, eip7702MagicBytes, List.cons.injEq] at hmagic
    exact h (congrArg some hmagic.1)

theorem decodable_default : default.Decodable := decodable_of_head (by decide)

theorem decodable_newEip7702 (address : Address) : (newEip7702 address).Decodable := by
  have hraw : eip7702NewRaw (newEip7702 address).originalByteSlice =
      .ok (newEip7702 address).analyzed := by
    have hlen : (newEip7702 address).originalByteSlice.length = 23 := by
      simp [newEip7702, originalByteSlice, length_bigEndianBytes]
    unfold eip7702NewRaw
    rw [if_neg (not_not.2 hlen), if_neg (by simp [newEip7702, originalByteSlice,
      eip7702MagicBytes]), if_neg (by simp [newEip7702, originalByteSlice, eip7702Version])]
    simp [newEip7702, originalByteSlice, analyzed, addressOfBytes_bigEndianBytes]
  unfold Decodable newRawChecked
  rw [originalBytes_analyzed, hraw]
  exact if_pos rfl

end Bytecode

/-! ## Conversions -/

/-- The `Bytecode` of `reth`: its decoder, which may refuse, and the original bytes of a value. -/
structure RethBytecode (R : Type) where
  newRawChecked : List UInt8 → Option R
  originalBytes : R → List UInt8

/-- The decoder of `reth` accepts the same bytes, and keeps them. -/
structure RethBytecode.SameBytes {R : Type} (reth : RethBytecode R) : Prop where
  accepts : ∀ bytes, (reth.newRawChecked bytes).isSome = true ↔
    ∃ code, Revm.newRawChecked bytes = .ok code
  original : ∀ bytes r, reth.newRawChecked bytes = some r → reth.originalBytes r = bytes

section Reth

variable {R : Type} (reth : RethBytecode R)

/-- `From<Bytecode> for reth_primitives_traits::Bytecode`. Nothing is the panic of `unwrap`. -/
def toReth (value : DecodedBytecode) : Option R := reth.newRawChecked value.originalBytes

/-- `From<reth_primitives_traits::Bytecode> for Bytecode`. Nothing is the panic of `unwrap`. -/
def ofReth (value : R) : Option DecodedBytecode :=
  (newRawChecked (reth.originalBytes value)).toOption

variable {reth}

/-- The conversions of a decodable code do not panic, and lead back to it. -/
theorem Bytecode.Decodable.ofReth_toReth {code : Bytecode} (h : code.Decodable)
    (hreth : reth.SameBytes) :
    ∃ r, toReth reth code.analyzed = some r ∧ ofReth reth r = some code.analyzed := by
  obtain ⟨r, hr⟩ := Option.isSome_iff_exists.1 ((hreth.accepts _).2 ⟨_, h⟩)
  refine ⟨r, hr, ?_⟩
  rw [ofReth, hreth.original _ r hr, h]
  rfl

/-- A value that the decoder of `reth` has made is converted without a panic. -/
theorem ofReth_isSome (hreth : reth.SameBytes) {r : R}
    (hr : reth.newRawChecked bytes = some r) : (ofReth reth r).isSome = true := by
  obtain ⟨code, hcode⟩ := (hreth.accepts bytes).1 (by rw [hr]; rfl)
  rw [ofReth, hreth.original _ r hr, hcode]
  rfl

end Reth

variable (writes : List (Nat × (B256 × DecodedBytecode)))

/-- The code changes of `into_alloy_account`. -/
def encodeCodeChanges : List (Nat × List UInt8) :=
  writes.map fun write => (write.1, write.2.2.originalBytes)

/-- `TryFrom<Vec<AlloyCodeChange>> for BalWrites<(B256, Bytecode)>`. -/
def decodeCodeChanges [Keccak256] (changes : List (Nat × List UInt8)) :
    Except BytecodeDecodeError (List (Nat × (B256 × DecodedBytecode))) :=
  changes.mapM fun change =>
    (newRawChecked change.2).map fun bytecode => (change.1, (bytecode.hashSlow, bytecode))

/-- A traversal that succeeds does so element by element. -/
theorem mapM_eq_ok_iff {ε α β : Type} {f : α → Except ε β} {l : List α} {ys : List β} :
    l.mapM f = .ok ys ↔ List.Forall₂ (fun x y => f x = .ok y) l ys := by
  induction l generalizing ys with
  | nil =>
    rw [List.mapM_nil, List.forall₂_nil_left_iff]
    exact ⟨fun h => (Except.ok.inj h).symm, fun h => h ▸ rfl⟩
  | cons x l ih =>
    rw [List.mapM_cons]
    constructor
    · intro h
      cases hx : f x with
      | error e =>
        rw [hx] at h
        cases h
      | ok y =>
        cases hl : l.mapM f with
        | error e =>
          rw [hx, hl] at h
          cases h
        | ok rest =>
          rw [hx, hl] at h
          cases h
          exact .cons hx (ih.1 hl)
    · intro h
      cases h with
      | cons hx hrest =>
        rw [hx, ih.2 hrest]
        rfl

theorem mapM_isOk {ε α β : Type} {f : α → Except ε β} {l : List α} (h : ∀ x ∈ l, ∃ y, f x = .ok y) :
    ∃ ys, l.mapM f = .ok ys := by
  induction l with
  | nil => exact ⟨[], rfl⟩
  | cons x l ih =>
    obtain ⟨y, hy⟩ := h x List.mem_cons_self
    obtain ⟨ys, hys⟩ := ih fun x hx => h x (List.mem_cons_of_mem _ hx)
    exact ⟨y :: ys, mapM_eq_ok_iff.2 (.cons hy (mapM_eq_ok_iff.1 hys))⟩

/-- Code that was decoded is decoded to itself again, with its hash. -/
theorem decodeCodeChanges_encodeCodeChanges [Keccak256]
    (h : ∀ write ∈ writes, newRawChecked write.2.2.originalBytes = .ok write.2.2 ∧
      write.2.1 = write.2.2.hashSlow) :
    decodeCodeChanges (encodeCodeChanges writes) = .ok writes := by
  unfold decodeCodeChanges encodeCodeChanges
  rw [mapM_eq_ok_iff, List.forall₂_map_left_iff, List.forall₂_same]
  intro write hwrite
  obtain ⟨hdecoded, hhash⟩ := h write hwrite
  rw [hdecoded, Except.map, ← hhash]

/-- Decoding and encoding again gives the bytes back. -/
theorem encodeCodeChanges_decodeCodeChanges [Keccak256] {changes : List (Nat × List UInt8)}
    {writes : List (Nat × (B256 × DecodedBytecode))} (h : decodeCodeChanges changes = .ok writes) :
    encodeCodeChanges writes = changes := by
  unfold decodeCodeChanges at h
  rw [mapM_eq_ok_iff] at h
  unfold encodeCodeChanges
  induction h with
  | nil => rfl
  | @cons change write changes writes hhead _ ih =>
    rw [List.map_cons, ih]
    cases hcode : newRawChecked change.2 with
    | error e =>
      rw [hcode] at hhead
      cases hhead
    | ok code =>
      rw [hcode] at hhead
      cases hhead
      exact congrArg (· :: changes) (Prod.ext rfl (originalBytes_of_newRawChecked hcode))

/-- The writes of decodable code with their hashes are decoded to themselves. -/
theorem decodeCodeChanges_encode [Keccak256] (writes : List (Nat × (B256 × Bytecode)))
    (h : ∀ write ∈ writes, write.2.2.Decodable ∧ write.2.1 = write.2.2.hashSlow) :
    decodeCodeChanges (encodeCodeChanges (writes.map fun w => (w.1, (w.2.1, w.2.2.analyzed)))) =
      .ok (writes.map fun w => (w.1, (w.2.1, w.2.2.analyzed))) := by
  apply decodeCodeChanges_encodeCodeChanges
  intro write hwrite
  obtain ⟨w, hw, rfl⟩ := List.mem_map.1 hwrite
  obtain ⟨hdecodable, hhash⟩ := h w hw
  exact ⟨hdecodable, hhash.trans (Bytecode.hashSlow_analyzed _).symm⟩

end Revm
