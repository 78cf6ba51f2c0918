import Banking.ChartKeys
import Banking.Conservation
import Banking.Lib.Interactive

/-! # The migration window's tool

What the tool's commands share: whether a run writes, the ids it derives from a spelled-out key, the
ledger's account map, and the anchor every command reads first and last. Two derived ids are equal
exactly when their keys are, and the key of an account's move names the account
(`accountKey_injective`). -/

namespace Banking

/-! ## Runs -/

/-- Whether a mutating command writes or only says what it would write. -/
inductive Mode
  | dryRun
  | apply
deriving DecidableEq, Repr

/-- Whether it writes. -/
def Mode.applies (m : Mode) : Bool := m = .apply

/-- The anchor: the allocation whose holders must read the same before and after, and the people
behind them, by identity-plane id and units. -/
structure Anchor where
  service : ServiceId
  people : List (String × Nat)
deriving DecidableEq, Repr

/-- The anchor's holders as they are read: the units of each, live and closed. -/
structure AnchorReading where
  byHolder : List (Uuid × Nat)
  live : Nat
  closed : Nat
deriving DecidableEq, Repr

/-- The same holders with the same units, wherever the units sit. -/
def AnchorReading.sameHoldersAs (after before : AnchorReading) : Bool :=
  after.byHolder = before.byHolder

/-! ## Derived ids -/

/-- The namespace of every id the tool derives. -/
def WINDOW_NAMESPACE : Uuid := .raw 0x7e3c91d05a414f6b9b5277a01c0de001

/-- The ledger id of a thing the tool does, named by a spelled-out key. -/
def toolId (key : String) : Uuid := .v5 WINDOW_NAMESPACE key

theorem toolId_injective {a b : String} (h : toolId a = toolId b) : a = b := by
  simpa [toolId] using h

/-- An account's ledger id as a move's key spells it: 32 hexadecimal digits. -/
def hexAccount (account : Nat) : String := String.ofList (hexDigits 32 account)

/-- Keys that end in a colon and an account's id agree in what comes before. -/
theorem accountKey_injective {a b : String} {account account' : Nat}
    (h : a ++ ":" ++ hexAccount account = b ++ ":" ++ hexAccount account') : a = b := by
  have hlength : ∀ n, (hexDigits 32 n).length = 32 := fun n => by simp [hexDigits]
  have hlist : (a.toList ++ [':']) ++ hexDigits 32 account =
      (b.toList ++ [':']) ++ hexDigits 32 account' := by
    simpa [hexAccount] using congrArg String.toList h
  have hfront := (List.append_inj' hlist (by rw [hlength, hlength])).1
  exact String.toList_inj.mp (List.append_cancel_right hfront)

/-! ## The account map -/

/-- The ledger's account map: the id of every account there is. -/
abbrev AccountMap : Type := List (LedgerAccountKey × Nat)

/-- An account's ledger id. -/
def AccountMap.idOf (accounts : AccountMap) (key : LedgerAccountKey) : Option Nat :=
  accounts.lookup key

/-- Accounts are opened and never dropped. -/
def AccountMap.Extends (accounts accounts' : AccountMap) : Prop :=
  ∃ opened, accounts' = accounts ++ opened

namespace AccountMap

variable {accounts accounts' accounts'' : AccountMap} {key : LedgerAccountKey} {id : Nat}

theorem Extends.refl (accounts : AccountMap) : accounts.Extends accounts :=
  ⟨[], (List.append_nil accounts).symm⟩

theorem Extends.trans (h : accounts.Extends accounts') (h' : accounts'.Extends accounts'') :
    accounts.Extends accounts'' := by
  obtain ⟨opened, rfl⟩ := h
  obtain ⟨later, rfl⟩ := h'
  exact ⟨opened ++ later, List.append_assoc ..⟩

/-- An account keeps its id. -/
theorem Extends.idOf (h : accounts.Extends accounts') (hid : accounts.idOf key = some id) :
    accounts'.idOf key = some id := by
  obtain ⟨opened, rfl⟩ := h
  unfold AccountMap.idOf at hid ⊢
  rw [List.lookup_append, hid]
  rfl

theorem mem_of_idOf (h : accounts.idOf key = some id) : (key, id) ∈ accounts := by
  induction accounts with
  | nil => cases h
  | cons entry accounts ih =>
    obtain ⟨key', id'⟩ := entry
    unfold AccountMap.idOf at h
    rw [List.lookup_cons] at h
    split at h
    · next heq =>
      rw [beq_iff_eq] at heq
      cases h
      rw [heq]
      exact List.mem_cons_self
    · exact List.mem_cons_of_mem _ (ih h)

end AccountMap

/-! ## Balances and chains -/

/-- A balance read is the account's. -/
theorem balanceOf_ok {key : LedgerAccountKey} {L : Books} {b : LedgerBalance}
    (h : balanceOf key L = .ok b) : L.balance key = b.posted := by
  unfold balanceOf at h
  dsimp only at h
  split_ifs at h with hneg
  rw [← Except.ok.inj h]
  exact (Int.toNat_of_nonneg (not_lt.mp hneg)).symm

/-- A balance is of what was accepted. -/
theorem balance_of_entries {L L' : Books} (h : L'.entries = L.entries) (key : LedgerAccountKey) :
    L'.balance key = L.balance key := by
  unfold TwoPhase.Ledger.balance TwoPhase.Ledger.posted
  rw [h]

/-- A chain of posts that lands is on the ledger, last first. -/
theorem runLinked_entries {transfers : List LedgerTransfer} {L L' : Books}
    (h : L.runLinked (transfers.map .post) = .ok L') :
    L'.entries = (transfers.map .posted).reverse ++ L.entries := by
  induction transfers generalizing L with
  | nil =>
    cases h
    rfl
  | cons t transfers ih =>
    rw [ih (TwoPhase.Ledger.of_runLinked_cons h).2, List.map_cons, List.reverse_cons,
      List.append_assoc]
    rfl

/-- **A chain lands whole or not at all**, however it is answered. -/
theorem run_postLinked_whole (transfers : List LedgerTransfer) (L : Books) :
    ((LedgerCall.postLinked transfers).run L).2.entries =
        (transfers.map .posted).reverse ++ L.entries ∨
      ((LedgerCall.postLinked transfers).run L).2.entries = L.entries := by
  have hresult := (LedgerCall.postLinked transfers).run_result L
  generalize (LedgerCall.postLinked transfers).run L = x at hresult ⊢
  cases hresult with
  | landed hrun => exact .inl (runLinked_entries hrun)
  | skipped => exact .inr rfl
  | refused e is his => exact .inr rfl

/-! ## Holdings -/

/-- The units a product's holders have: every account of the map that holds them, with its
balance. -/
def shareHoldings (service : ServiceId) (accounts : AccountMap) (L : Books) :
    Except LedgerError (List (LedgerAccountKey × Nat)) :=
  ((accounts.map (·.1)).filter (·.holds service)).mapM fun key => do
    let balance ← balanceOf key L
    return (key, balance.posted)

end Banking
