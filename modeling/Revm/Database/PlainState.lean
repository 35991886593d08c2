import Revm.Database.State

/-!
# Plain states

The abstract counterpart of a database with commits: a map from addresses to an info and a storage
function, and what a commit of EVM output is meant to do to it. It has no cache, no status and no
transitions. An empty account and a missing one are the same account here (`nonEmpty`).
-/

set_option autoImplicit false

namespace Revm

/-- The account behind a database answer, with empty accounts read as missing. -/
def nonEmpty (info : Option AccountInfo) : Option AccountInfo := info.filter fun i => !i.isEmpty

@[simp] theorem nonEmpty_none : nonEmpty none = none := rfl

theorem nonEmpty_some_of_isEmpty {info : AccountInfo} (h : info.isEmpty = true) :
    nonEmpty (some info) = none := by
  simp [nonEmpty, h]

theorem nonEmpty_some_of_not_isEmpty {info : AccountInfo} (h : info.isEmpty = false) :
    nonEmpty (some info) = some info := by
  simp [nonEmpty, h]

@[simp] theorem nonEmpty_nonEmpty (info : Option AccountInfo) :
    nonEmpty (nonEmpty info) = nonEmpty info := by
  cases info with
  | none => rfl
  | some i =>
    cases h : i.isEmpty with
    | true => rw [nonEmpty_some_of_isEmpty h, nonEmpty_none]
    | false => rw [nonEmpty_some_of_not_isEmpty h, nonEmpty_some_of_not_isEmpty h]

/-- One account of a plain state. -/
structure PlainView where
  info : Option AccountInfo
  storage : StorageKey → StorageValue

namespace PlainView

/-- The removed account. -/
def removed : PlainView := ⟨none, fun _ => 0⟩

variable (v : PlainView)

/-- The account is missing, empty, or has neither nonce nor code. -/
def codeless : Bool := v.info.all fun info => info.isEmpty || info.hasNoCodeAndNonce

/-- An account that is missing, empty, or has neither nonce nor code, holds no storage. -/
abbrev NoDangling : Prop := v.codeless = true → ∀ k, v.storage k = 0

/-- The account with an empty info dropped. -/
def norm : PlainView := ⟨nonEmpty v.info, v.storage⟩

/-- What committing an account of the EVM output does: an untouched account stays, a destroyed or
empty one is removed with its storage, a created one is replaced, any other one gets its new info
and the values of its slots. -/
def commit (account : Account) : PlainView :=
  if !account.isTouched then v
  else if account.isSelfdestructed then removed
  else if account.isCreated then
    ⟨some account.info, fun k => ((account.storage.lookup k).map (·.presentValue)).getD 0⟩
  else if account.isEmpty then removed
  else
    ⟨some account.info,
      fun k => ((account.storage.lookup k).map (·.presentValue)).getD (v.storage k)⟩

/-- Adding an amount to the balance, which creates a missing account. A zero amount does nothing. -/
def incrementBalance (balance : BitVec 128) : PlainView :=
  if balance = 0 then v
  else
    let info := v.info.getD AccountInfo.default
    ⟨some { info with balance := saturatingAdd info.balance (balance.setWidth 256) }, v.storage⟩

end PlainView

/-- A plain state. -/
abbrev PlainState := Address → PlainView

namespace PlainState

variable (d : PlainState)

/-- The database that answers from a plain state. -/
def toDatabase {ε : Type} (code : B256 → Bytecode) : Database ε where
  basic a := .ok (d a).info
  codeByHash h := .ok (code h)
  storage a k := .ok ((d a).storage k)

/-- The plain state with empty accounts dropped. -/
def norm : PlainState := fun a => (d a).norm

/-- Commit of the EVM output. -/
def commit (evmState : EvmState) : PlainState := fun a =>
  match evmState.lookup a with
  | none => d a
  | some account => (d a).commit account

/-- Balance increments in list order. -/
def incrementBalances (balances : List (Address × BitVec 128)) : PlainState :=
  balances.foldl (fun d e => Function.update d e.1 ((d e.1).incrementBalance e.2)) d

/-- No account has storage without nonce and code. -/
def NoDanglingStorage : Prop := ∀ a, (d a).NoDangling

end PlainState

end Revm
