import Mathlib.Algebra.BigOperators.Group.Finset.Basic
import Mathlib.Algebra.BigOperators.Group.List.Basic
import Mathlib.Algebra.Order.Ring.Int
import Mathlib.Tactic.Common

/-! # Two-phase double-entry ledgers

A ledger of *transfers* between accounts, in the style of TigerBeetle: a transfer moves an amount
from a debit account to a credit account either at once (**posted**) or in two phases (**pending**,
then **settled** or **voided** by a second transfer naming the first). Every account is normal on
one side, and its flag forbids taking more out of it than it holds: what is posted on its normal
side, less what is posted on the other and less what is pending on the other.

The state is the history of accepted transfers, newest first, together with the ids that were
refused for a *transient* reason (a refusal that depended on the balances): such an id is answered
`idAlreadyFailed` for ever after. Balances are sums over the history, so every question about them
is answered by what one entry contributes.

`create` is one transfer, `createLinked` a chain that lands whole or not at all. -/

namespace TwoPhase

/-! ## Accounts and transfers -/

/-- A side of an account: what it was debited, what it was credited. -/
inductive Side
  | debit
  | credit
deriving DecidableEq, Repr

/-- The other side. -/
def Side.flip : Side → Side
  | .debit => .credit
  | .credit => .debit

@[simp] theorem Side.flip_debit : Side.debit.flip = .credit := rfl

@[simp] theorem Side.flip_credit : Side.credit.flip = .debit := rfl

/-- **Chart of accounts**: the side every account is normal on (`credit` for a claim, `debit` for
an asset) and the plane it lives in. Only accounts of one plane transact. -/
class Chart (A : Type) where
  /-- The side the account's balance is counted on. -/
  normal : A → Side
  /-- The unit of value the account is kept in. -/
  plane : A → Nat

/-- A transfer as it is asked for: caller-assigned id, the two accounts, an explicit amount, and a
tag (type code and user data) the ledger stores and compares but never interprets. -/
structure Transfer (I A T : Type) where
  id : I
  debit : A
  credit : A
  amount : Nat
  tag : T
deriving DecidableEq, Repr

/-- The account a transfer touches on side `s`. -/
def Transfer.on {I A T : Type} (t : Transfer I A T) : Side → A
  | .debit => t.debit
  | .credit => t.credit

@[simp] theorem Transfer.on_debit {I A T : Type} (t : Transfer I A T) : t.on .debit = t.debit := rfl

@[simp] theorem Transfer.on_credit {I A T : Type} (t : Transfer I A T) :
    t.on .credit = t.credit := rfl

/-- What a caller submits: a posted transfer, a pending one, or the completion (`settle`, `void`)
of the pending transfer with the given id. -/
inductive Request (I A T : Type)
  | post (t : Transfer I A T)
  | reserve (t : Transfer I A T)
  | settle (pending : I) (t : Transfer I A T)
  | void (pending : I) (t : Transfer I A T)
deriving DecidableEq, Repr

/-- The transfer record a request carries. -/
def Request.transfer {I A T : Type} : Request I A T → Transfer I A T
  | .post t | .reserve t | .settle _ t | .void _ t => t

/-- The id a request would create. -/
def Request.id {I A T : Type} (r : Request I A T) : I := r.transfer.id

/-- The pending transfer a request asks to complete, if it is a completion. -/
def Request.completes {I A T : Type} : Request I A T → Option I
  | .post _ | .reserve _ => none
  | .settle p _ | .void p _ => some p

/-- An accepted transfer. A completion keeps the pending transfer it completed: that is what its
effect is computed from. -/
inductive Entry (I A T : Type)
  | posted (t : Transfer I A T)
  | pending (t : Transfer I A T)
  | settled (t reserve : Transfer I A T)
  | voided (t reserve : Transfer I A T)
deriving DecidableEq, Repr

/-- The transfer record an entry was created with. -/
def Entry.transfer {I A T : Type} : Entry I A T → Transfer I A T
  | .posted t | .pending t | .settled t _ | .voided t _ => t

/-- The id of an accepted transfer. -/
def Entry.id {I A T : Type} (e : Entry I A T) : I := e.transfer.id

/-- The pending transfer an entry completes, if it is a completion. -/
def Entry.completes {I A T : Type} : Entry I A T → Option I
  | .posted _ | .pending _ => none
  | .settled _ p | .voided _ p => some p.id

/-- The transfer whose accounts an entry moves value between: its own, or for a completion the
pending transfer's. -/
def Entry.legs {I A T : Type} : Entry I A T → Transfer I A T
  | .posted t | .pending t => t
  | .settled _ p | .voided _ p => p

/-- What an entry adds to the posted totals of its two accounts. -/
def Entry.postedAmount {I A T : Type} : Entry I A T → Int
  | .posted t => t.amount
  | .settled t _ => t.amount
  | .pending _ | .voided _ _ => 0

/-- What an entry adds to the pending totals of its two accounts; a completion takes the whole
reservation back. -/
def Entry.pendingAmount {I A T : Type} : Entry I A T → Int
  | .pending t => t.amount
  | .settled _ p | .voided _ p => -p.amount
  | .posted _ => 0

/-- **Ledger state**: accepted transfers, newest first, and the ids refused for a transient
reason. -/
structure Ledger (I A T : Type) where
  entries : List (Entry I A T)
  refused : List I
deriving DecidableEq, Repr

/-- The ledger nothing was ever submitted to. -/
def Ledger.empty {I A T : Type} : Ledger I A T := ⟨[], []⟩

/-- The ledger after accepting one more transfer. -/
def Ledger.push {I A T : Type} (L : Ledger I A T) (e : Entry I A T) : Ledger I A T :=
  { L with entries := e :: L.entries }

@[simp] theorem Ledger.push_entries {I A T : Type} (L : Ledger I A T)
    (e : Entry I A T) : (L.push e).entries = e :: L.entries := rfl

@[simp] theorem Ledger.push_refused {I A T : Type} (L : Ledger I A T)
    (e : Entry I A T) : (L.push e).refused = L.refused := rfl

/-! ## Balances -/

section Balances

variable {I A T : Type} [DecidableEq A]

/-- What an entry contributes to the posted total of account `a` on side `s`. -/
def Entry.postedOn (e : Entry I A T) (s : Side) (a : A) : Int :=
  if e.legs.on s = a then e.postedAmount else 0

/-- What an entry contributes to the pending total of account `a` on side `s`. -/
def Entry.pendingOn (e : Entry I A T) (s : Side) (a : A) : Int :=
  if e.legs.on s = a then e.pendingAmount else 0

/-- The posted total of account `a` on side `s`. -/
def Ledger.posted (L : Ledger I A T) (s : Side) (a : A) : Int :=
  (L.entries.map (·.postedOn s a)).sum

/-- The pending total of account `a` on side `s`. -/
def Ledger.pending (L : Ledger I A T) (s : Side) (a : A) : Int :=
  (L.entries.map (·.pendingOn s a)).sum

@[simp] theorem Ledger.posted_empty (s : Side) (a : A) :
    (Ledger.empty : Ledger I A T).posted s a = 0 := rfl

@[simp] theorem Ledger.pending_empty (s : Side) (a : A) :
    (Ledger.empty : Ledger I A T).pending s a = 0 := rfl

@[simp] theorem Ledger.posted_push (L : Ledger I A T) (e : Entry I A T) (s : Side) (a : A) :
    (L.push e).posted s a = L.posted s a + e.postedOn s a := by
  simp [Ledger.posted, add_comm]

@[simp] theorem Ledger.pending_push (L : Ledger I A T) (e : Entry I A T) (s : Side) (a : A) :
    (L.push e).pending s a = L.pending s a + e.pendingOn s a := by
  simp [Ledger.pending, add_comm]

variable [Chart A]

/-- The balance of an account on its natural side. -/
def Ledger.balance (L : Ledger I A T) (a : A) : Int :=
  L.posted (Chart.normal a) a - L.posted (Chart.normal a).flip a

/-- What can still be taken out of an account: its balance less what is pending against it. This is
what the account's flag protects. -/
def Ledger.room (L : Ledger I A T) (a : A) : Int :=
  L.balance a - L.pending (Chart.normal a).flip a

/-- What an entry adds to the balance of account `a`. -/
def Entry.balanceOf (e : Entry I A T) (a : A) : Int :=
  e.postedOn (Chart.normal a) a - e.postedOn (Chart.normal a).flip a

/-- What an entry adds to the room of account `a`. -/
def Entry.roomOf (e : Entry I A T) (a : A) : Int :=
  e.balanceOf a - e.pendingOn (Chart.normal a).flip a

@[simp] theorem Ledger.balance_push (L : Ledger I A T) (e : Entry I A T) (a : A) :
    (L.push e).balance a = L.balance a + e.balanceOf a := by
  simp only [Ledger.balance, Ledger.posted_push, Entry.balanceOf]
  omega

@[simp] theorem Ledger.room_push (L : Ledger I A T) (e : Entry I A T) (a : A) :
    (L.push e).room a = L.room a + e.roomOf a := by
  simp only [Ledger.room, Ledger.balance_push, Ledger.pending_push, Entry.roomOf]
  omega

end Balances

/-! ## Looking transfers up -/

section Lookup

variable {I A T : Type} [DecidableEq I]

/-- The accepted transfer with id `i`. -/
def Ledger.find (L : Ledger I A T) (i : I) : Option (Entry I A T) :=
  L.entries.find? (·.id = i)

/-- Whether a transfer with id `i` was accepted. -/
def Ledger.has (L : Ledger I A T) (i : I) : Bool := (L.find i).isSome

/-- The entry that completed the pending transfer `i`. -/
def Ledger.completion (L : Ledger I A T) (i : I) : Option (Entry I A T) :=
  L.entries.find? (·.completes = some i)

@[simp] theorem Ledger.find_empty (i : I) : (Ledger.empty : Ledger I A T).find i = none := rfl

@[simp] theorem Ledger.has_empty (i : I) : (Ledger.empty : Ledger I A T).has i = false := rfl

theorem Ledger.find_push (L : Ledger I A T) (e : Entry I A T) (i : I) :
    (L.push e).find i = if e.id = i then some e else L.find i := by
  by_cases h : e.id = i <;> simp [Ledger.find, h]

theorem Ledger.completion_push (L : Ledger I A T) (e : Entry I A T) (i : I) :
    (L.push e).completion i = if e.completes = some i then some e else L.completion i := by
  by_cases h : e.completes = some i <;> simp [Ledger.completion, h]

@[simp] theorem Ledger.has_push (L : Ledger I A T) (e : Entry I A T) (i : I) :
    (L.push e).has i = (decide (e.id = i) || L.has i) := by
  by_cases h : e.id = i <;> simp [Ledger.has, Ledger.find_push, h]

theorem Ledger.has_iff {L : Ledger I A T} {i : I} : L.has i ↔ ∃ e ∈ L.entries, e.id = i := by
  simp [Ledger.has, Ledger.find]

theorem Ledger.find_mem {L : Ledger I A T} {i : I} {e : Entry I A T} (h : L.find i = some e) :
    e ∈ L.entries ∧ e.id = i :=
  ⟨List.mem_of_find?_eq_some h, by simpa using List.find?_some h⟩

theorem Ledger.find_none {L : Ledger I A T} {i : I} : L.find i = none ↔ L.has i = false := by
  simp [Ledger.has]

theorem Ledger.has_of_find {L : Ledger I A T} {i : I} {e : Entry I A T} (h : L.find i = some e) :
    L.has i = true := by
  simp [Ledger.has, h]

theorem Ledger.completion_mem {L : Ledger I A T} {i : I} {e : Entry I A T}
    (h : L.completion i = some e) : e ∈ L.entries ∧ e.completes = some i :=
  ⟨List.mem_of_find?_eq_some h, by simpa using List.find?_some h⟩

end Lookup

/-! ## Accepting transfers -/

/-- How the ledger answers one submitted transfer. -/
inductive Status
  | created
  | linkedEventFailed
  | exists
  | existsWithDifferentFields
  | idAlreadyFailed
  | accountsMustBeDifferent
  | amountMustNotBeZero
  | accountsMustHaveTheSameLedger
  | exceedsCredits
  | exceedsDebits
  | pendingTransferNotFound
  | pendingTransferNotPending
  | pendingTransferHasDifferentFields
  | exceedsPendingTransferAmount
  | pendingTransferAlreadyPosted
  | pendingTransferAlreadyVoided
deriving DecidableEq, Repr

/-- A refusal that depends on the ledger's state rather than on the request: its id is spent. -/
def Status.transient : Status → Bool
  | .exceedsCredits | .exceedsDebits | .pendingTransferNotFound => true
  | _ => false

section Create

variable {I A T : Type} [DecidableEq I] [DecidableEq A] [DecidableEq T] [Chart A]

/-- Whether an accepted transfer is the very one a request asks for. -/
def Entry.matches (e : Entry I A T) : Request I A T → Bool
  | .post t => decide (e = .posted t)
  | .reserve t => decide (e = .pending t)
  | .settle p t =>
    match e with
    | .settled t' r => decide (t' = t ∧ r.id = p)
    | _ => false
  | .void p t =>
    match e with
    | .voided t' r => decide (t' = t ∧ r.id = p)
    | _ => false

/-- The answer to a fresh posted or pending transfer: the field checks, then the two flags. -/
def Ledger.checkTransfer (L : Ledger I A T) (t : Transfer I A T) : Status :=
  if t.debit = t.credit then .accountsMustBeDifferent
  else if t.amount = 0 then .amountMustNotBeZero
  else if Chart.plane t.debit ≠ Chart.plane t.credit then .accountsMustHaveTheSameLedger
  else if Chart.normal t.debit = .credit ∧ L.room t.debit < t.amount then .exceedsCredits
  else if Chart.normal t.credit = .debit ∧ L.room t.credit < t.amount then .exceedsDebits
  else .created

/-- The answer to a fresh completion of the pending transfer `r`. -/
def Ledger.checkCompletion (L : Ledger I A T) (r t : Transfer I A T) (voids : Bool) : Status :=
  if t.debit ≠ r.debit ∨ t.credit ≠ r.credit then .pendingTransferHasDifferentFields
  else if voids = true ∧ t.amount ≠ 0 ∧ t.amount ≠ r.amount then .pendingTransferHasDifferentFields
  else if voids = false ∧ r.amount < t.amount then .exceedsPendingTransferAmount
  else
    match L.completion r.id with
    | some (.settled _ _) => .pendingTransferAlreadyPosted
    | some (.voided _ _) => .pendingTransferAlreadyVoided
    | _ => .created

/-- The answer to a completion naming the pending transfer `p`. -/
def Ledger.checkPending (L : Ledger I A T) (p : I) (t : Transfer I A T) (voids : Bool) : Status :=
  match L.find p with
  | none => .pendingTransferNotFound
  | some (.pending r) => L.checkCompletion r t voids
  | some _ => .pendingTransferNotPending

/-- The answer to a request: an id already accepted is compared, an id already refused stays
refused, anything else is checked against the balances. -/
def Ledger.check (L : Ledger I A T) (r : Request I A T) : Status :=
  match L.find r.id with
  | some e => if e.matches r then .exists else .existsWithDifferentFields
  | none =>
    if r.id ∈ L.refused then .idAlreadyFailed
    else
      match r with
      | .post t | .reserve t => L.checkTransfer t
      | .settle p t => L.checkPending p t false
      | .void p t => L.checkPending p t true

/-- The entry an accepted request leaves. The two completion cases read the pending transfer back;
on an accepted request it is there. -/
def Ledger.entryOf (L : Ledger I A T) : Request I A T → Entry I A T
  | .post t => .posted t
  | .reserve t => .pending t
  | .settle p t => .settled t (match L.find p with | some e => e.transfer | none => t)
  | .void p t => .voided t (match L.find p with | some e => e.transfer | none => t)

/-- **One transfer.** Accepted, it is appended; refused for a transient reason, its id is spent. -/
def Ledger.create (L : Ledger I A T) (r : Request I A T) : Status × Ledger I A T :=
  match L.check r with
  | .created => (.created, L.push (L.entryOf r))
  | s => (s, if s.transient then { L with refused := r.id :: L.refused } else L)

/-- The chain applied from `L` on, up to its first refusal: the ledger after the whole chain, or
the position of the refusal, its status and the refused id. -/
def Ledger.runLinked (L : Ledger I A T) : List (Request I A T) →
    Except (Nat × Status × I) (Ledger I A T)
  | [] => .ok L
  | r :: rs =>
    match L.check r with
    | .created =>
      match (L.push (L.entryOf r)).runLinked rs with
      | .ok L' => .ok L'
      | .error (n, s, i) => .error (n + 1, s, i)
    | s => .error (0, s, r.id)

/-- **A linked chain.** Every transfer lands or none does. A refused chain reports the leg that was
refused with its own status and every other leg as `linkedEventFailed`; only the refused leg's id is
spent, and only for a transient reason. -/
def Ledger.createLinked (L : Ledger I A T) (rs : List (Request I A T)) :
    List Status × Ledger I A T :=
  match L.runLinked rs with
  | .ok L' => (rs.map fun _ => .created, L')
  | .error (n, s, i) =>
    ((List.replicate rs.length Status.linkedEventFailed).set n s,
      if s.transient then { L with refused := i :: L.refused } else L)

end Create

end TwoPhase
