import Revm.Foundations.HashMap
import Revm.Primitives.Basic

/-!
# Warm addresses

`WarmAddresses` holds the addresses that are warm before the transaction starts: precompiles,
coinbase and the access list. Precompiles are kept twice, as a set and as a bit vector over the
short addresses, and the lookup reads the bit vector first. The fields of the source are private
and only written together; the structure carries what its constructors establish, and
`WarmAddresses.isWarm_iff` shows that the lookup decides membership.
-/

set_option autoImplicit false

namespace Revm

/-- `SHORT_ADDRESS_CAP`. -/
def shortAddressCap : Nat := 300

/-- `short_address`: the first 18 bytes are zero and the last two are below the cap. -/
def shortAddress (address : Address) : Option (Fin shortAddressCap) :=
  if address.toNat / 2 ^ 16 = 0 then
    if h : address.toNat % 2 ^ 16 < shortAddressCap then some ⟨address.toNat % 2 ^ 16, h⟩ else none
  else none

theorem shortAddress_injective {a b : Address} {i : Fin shortAddressCap}
    (ha : shortAddress a = some i) (hb : shortAddress b = some i) : a = b := by
  have hval : ∀ {x : Address}, shortAddress x = some i → x.toNat = i.val := by
    intro x hx
    unfold shortAddress at hx
    split_ifs at hx with hhigh hlow
    have hi := congrArg Fin.val (Option.some.inj hx)
    rw [← hi]
    exact (Nat.mod_eq_of_lt (by omega)).symm
  exact BitVec.eq_of_toNat_eq ((hval ha).trans (hval hb).symm)

/-- `HashSet`: the keys of a map. -/
abbrev HashSet (K : Type) := HashMap K Unit

/-- `WarmAddresses`. -/
structure WarmAddresses where
  precompileSet : HashSet Address
  precompileShortAddresses : Fin shortAddressCap → Bool
  precompileAllShortAddresses : Bool
  coinbase : Option Address
  accessList : HashMap Address (HashSet StorageKey)
  short_iff : ∀ i, precompileShortAddresses i = true ↔
    ∃ a ∈ precompileSet, shortAddress a = some i
  allShort : precompileAllShortAddresses = true → ∀ a ∈ precompileSet, (shortAddress a).isSome

namespace WarmAddresses

variable (self : WarmAddresses)

/-- `WarmAddresses::new`. -/
def new : WarmAddresses where
  precompileSet := ∅
  precompileShortAddresses := fun _ => false
  precompileAllShortAddresses := true
  coinbase := none
  accessList := ∅
  short_iff := fun i => by
    constructor
    · nofun
    · rintro ⟨a, ha, -⟩
      exact absurd ha (AList.notMem_empty a)
  allShort := fun _ a ha => absurd ha (AList.notMem_empty a)

/-- One address of the loop of `set_precompile_addresses`. -/
def addShort (acc : (Fin shortAddressCap → Bool) × Bool) (address : Address) :
    (Fin shortAddressCap → Bool) × Bool :=
  match shortAddress address with
  | some short => (Function.update acc.1 short true, acc.2)
  | none => (acc.1, false)

/-- What the loop of `set_precompile_addresses` computes. -/
theorem foldl_addShort (l : List Address) (acc : (Fin shortAddressCap → Bool) × Bool) :
    l.foldl addShort acc = (fun i => acc.1 i || l.any fun a => shortAddress a = some i,
      acc.2 && l.all fun a => (shortAddress a).isSome) := by
  induction l generalizing acc with
  | nil => simp
  | cons a l ih =>
    rw [List.foldl_cons, ih, addShort]
    cases ha : shortAddress a with
    | none => simp [ha]
    | some short =>
      simp only [List.any_cons, ha, Option.some.injEq, List.all_cons, Option.isSome_some,
        Bool.true_and, Prod.mk.injEq, and_true]
      funext i
      by_cases hi : i = short
      · simp [hi]
      · simp [Function.update_of_ne hi, Ne.symm hi]

/-- `set_precompile_addresses`. -/
def setPrecompileAddresses (addresses : HashSet Address) : WarmAddresses :=
  { self with
    precompileSet := addresses
    precompileShortAddresses := (addresses.keys.foldl addShort (fun _ => false, true)).1
    precompileAllShortAddresses := (addresses.keys.foldl addShort (fun _ => false, true)).2
    short_iff := fun i => by simp [foldl_addShort, AList.mem_keys]
    allShort := by simp [foldl_addShort, AList.mem_keys] }

variable (address : Address)

/-- `set_coinbase`. -/
def setCoinbase : WarmAddresses :=
  { self with coinbase := some address }

/-- `set_access_list`. -/
def setAccessList (accessList : HashMap Address (HashSet StorageKey)) : WarmAddresses :=
  { self with accessList := accessList }

/-- `clear_coinbase_and_access_list`. -/
def clearCoinbaseAndAccessList : WarmAddresses :=
  { self with coinbase := none, accessList := ∅ }

/-- `is_warm`. -/
def isWarm : Bool :=
  if some address = self.coinbase then true
  else if (self.accessList.lookup address).isSome then true
  else if self.precompileSet.entries.isEmpty then false
  else
    match shortAddress address with
    | some short => self.precompileShortAddresses short
    | none =>
        if !self.precompileAllShortAddresses then (self.precompileSet.lookup address).isSome
        else false

/-- `is_storage_warm`. -/
def isStorageWarm (key : StorageKey) : Bool :=
  match self.accessList.lookup address with
  | some keys => (keys.lookup key).isSome
  | none => false

/-- `is_cold`. -/
def isCold : Bool := !self.isWarm address

variable (w : WarmAddresses)

/-- The bit vector and the flag decide membership in the precompile set. -/
theorem precompile_iff (a : Address) : (match shortAddress a with
      | some short => w.precompileShortAddresses short
      | none =>
          if !w.precompileAllShortAddresses then (w.precompileSet.lookup a).isSome
          else false) = true ↔ a ∈ w.precompileSet := by
  cases hs : shortAddress a with
  | some i =>
    rw [w.short_iff i]
    constructor
    · rintro ⟨b, hb, hbi⟩
      rwa [shortAddress_injective hs hbi]
    · intro h
      exact ⟨a, h, hs⟩
  | none =>
    cases hall : w.precompileAllShortAddresses with
    | false => simp [AList.lookup_isSome]
    | true =>
      constructor
      · nofun
      · intro h
        have hsome := w.allShort hall a h
        rw [hs] at hsome
        cases hsome

/-- The lookup decides membership in the three warm sets. -/
theorem isWarm_iff (a : Address) :
    w.isWarm a = true ↔ w.coinbase = some a ∨ a ∈ w.accessList ∨ a ∈ w.precompileSet := by
  unfold isWarm
  by_cases hc : some a = w.coinbase
  · simp [hc.symm]
  rw [if_neg hc]
  by_cases hl : a ∈ w.accessList
  · simp [hl, AList.lookup_isSome]
  rw [if_neg (fun h => hl (AList.lookup_isSome.1 h))]
  have hright : (w.coinbase = some a ∨ a ∈ w.accessList ∨ a ∈ w.precompileSet) ↔
      a ∈ w.precompileSet := by
    simp [hl, Ne.symm hc]
  rw [hright]
  by_cases he : w.precompileSet.entries.isEmpty = true
  · rw [if_pos he]
    constructor
    · nofun
    · intro h
      have hkeys : a ∈ w.precompileSet.entries.map Sigma.fst := h
      rw [List.isEmpty_iff.1 he] at hkeys
      exact absurd hkeys List.not_mem_nil
  · rw [if_neg he]
    exact w.precompile_iff a

theorem isStorageWarm_iff (a : Address) (k : StorageKey) :
    w.isStorageWarm a k = true ↔ ∃ keys, w.accessList.lookup a = some keys ∧ k ∈ keys := by
  unfold isStorageWarm
  cases w.accessList.lookup a with
  | none => simp
  | some keys => simp [AList.lookup_isSome]

end WarmAddresses

end Revm
