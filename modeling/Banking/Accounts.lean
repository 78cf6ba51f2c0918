import Banking.Lib.TwoPhaseLaws

/-! # The chart of accounts

The identities of the ledger plane: parties, allocations, scopes, and the **logical keys** naming
every ledger account. A key fixes the account's ledger (USDT, mocked USD, fund units), the side it
is normal on, and so the flag that protects it. An account is identified with its key: the id map
`tb_accounts` is keyed by the key's text (`LedgerAccountKey.logicalKey`). -/

namespace Banking

open TwoPhase (Side Chart)

/-! ## Identities -/

/-- A 128-bit identifier. `raw` ids are minted or parsed; `v5 ns name` is the name-based id
`Uuid::new_v5(ns, name)`, kept symbolic: two name-based ids are equal exactly when namespace and
name are, and no minted id is a name-based one. -/
inductive Uuid
  | raw (n : Nat)
  | v5 (ns : Uuid) (name : String)
deriving DecidableEq, Repr, Inhabited

/-- The lower-case hexadecimal digits of `n`, most significant first, padded to `width`. -/
def hexDigits (width n : Nat) : List Char :=
  (List.range width).reverse.map fun i => Nat.digitChar (n / 16 ^ i % 16)

/-- The text of an id, as `Display` writes it: five hyphenated groups of lower-case digits. A
name-based id is written symbolically. -/
def Uuid.text : Uuid → String
  | .raw n =>
    let digits := hexDigits 32 n
    String.intercalate "-" <| [digits.take 8, (digits.drop 8).take 4, (digits.drop 12).take 4,
      (digits.drop 16).take 4, digits.drop 20].map String.ofList
  | .v5 ns name => "v5(" ++ ns.text ++ "," ++ name ++ ")"

/-- The all-zero id: what a planned broadcast carries in place of a transfer id. -/
def Uuid.nil : Uuid := .raw 0

/-- An investor. -/
abbrev UserId := Uuid

/-- An allocation (a product, or one of the platform's own), by its slug. -/
structure ServiceId where
  slug : String
deriving DecidableEq, Repr

/-- The fee allocation. -/
def ServiceId.fee : ServiceId := ⟨"fee"⟩

/-- The fund allocation. -/
def ServiceId.fund : ServiceId := ⟨"fund"⟩

/-- Whether the platform reserves the slug for itself. -/
def ServiceId.isReserved (s : ServiceId) : Bool := s = .fee || s = .fund

/-- A scope, by its id. -/
structure ScopeId where
  id : String
deriving DecidableEq, Repr

/-- The root scope, `main`. -/
def ScopeId.main : ScopeId := ⟨"main"⟩

/-- Whether a scope is `main`. -/
def ScopeId.isMain (s : ScopeId) : Bool := s = .main

/-- The label of a scope's own account. -/
structure ScopeAccountLabel where
  label : String
deriving DecidableEq, Repr

/-- The label of banking's own account in `main`. -/
def ScopeAccountLabel.treasury : ScopeAccountLabel := ⟨"treasury"⟩

/-- The label of banking's fee collector in a scope. -/
def ScopeAccountLabel.fee : ScopeAccountLabel := ⟨"fee"⟩

/-- A payment rail. -/
inductive Network
  | bep20
  | trc20
  | ton
  | polygon
deriving DecidableEq, Repr

/-- A rail's wire name. -/
def Network.asStr : Network → String
  | .bep20 => "bep20"
  | .trc20 => "trc20"
  | .ton => "ton"
  | .polygon => "polygon"

/-! ## Account keys -/

/-- A unit of value: only accounts of one ledger transact. -/
inductive LedgerKind
  | usdt
  | usdMock
  | share
deriving DecidableEq, Repr

/-- The ledger's number. -/
def LedgerKind.id : LedgerKind → Nat
  | .usdt => 1
  | .usdMock => 2
  | .share => 3

theorem LedgerKind.id_injective : Function.Injective LedgerKind.id := by
  intro a b h
  cases a <;> cases b <;> first | rfl | cases h

/-- The logical identity of a ledger account. -/
inductive LedgerAccountKey
  | cryptoWallet (network : Network)
  | userClaim (user : UserId)
  | serviceClaim (service : ServiceId)
  | withdrawalClearing
  | bankCustody
  | userShares (service : ServiceId) (user : UserId)
  | sharesOutstanding (service : ServiceId)
  | feeShares (service : ServiceId)
  | bookShares (service : ServiceId) (user : UserId)
  | bookCash (user : UserId)
  | scopeClaim (user : UserId) (scope : ScopeId)
  | scopeAccount (scope : ScopeId) (label : ScopeAccountLabel)
  | holdClearing
deriving DecidableEq, Repr

/-- The stable text of a key, under which the id map stores the account. -/
def LedgerAccountKey.logicalKey : LedgerAccountKey → String
  | .cryptoWallet net => "wallet:" ++ net.asStr
  | .userClaim user => "user:" ++ user.text
  | .serviceClaim service => "service:" ++ service.slug
  | .withdrawalClearing => "clearing"
  | .bankCustody => "bank"
  | .userShares service user => "shares:" ++ service.slug ++ ":" ++ user.text
  | .sharesOutstanding service => "shares_outstanding:" ++ service.slug
  | .feeShares service => "shares_fee:" ++ service.slug
  | .bookShares service user => "book_shares:" ++ service.slug ++ ":" ++ user.text
  | .bookCash user => "book_cash:" ++ user.text
  | .scopeClaim user scope => "scope_claim:" ++ scope.id ++ ":" ++ user.text
  | .scopeAccount scope label => "scope_account:" ++ scope.id ++ ":" ++ label.label
  | .holdClearing => "hold_clearing"

/-- The ledger an account is kept on. -/
def LedgerAccountKey.ledger : LedgerAccountKey → LedgerKind
  | .bankCustody => .usdMock
  | .userShares .. | .sharesOutstanding _ | .feeShares _ | .bookShares .. => .share
  | .cryptoWallet _ | .userClaim _ | .serviceClaim _ | .withdrawalClearing | .bookCash _
  | .scopeClaim .. | .scopeAccount .. | .holdClearing => .usdt

/-- The side an account is normal on: custody and every unit holding on the debit side, every claim
and the units-outstanding contra on the credit side. -/
def LedgerAccountKey.normal : LedgerAccountKey → Side
  | .cryptoWallet _ | .bankCustody | .userShares .. | .feeShares _ | .bookShares .. => .debit
  | .userClaim _ | .serviceClaim _ | .withdrawalClearing | .sharesOutstanding _ | .bookCash _
  | .scopeClaim .. | .scopeAccount .. | .holdClearing => .credit

instance : Chart LedgerAccountKey where
  normal := LedgerAccountKey.normal
  plane k := k.ledger.id

@[simp] theorem chart_normal (k : LedgerAccountKey) : Chart.normal k = k.normal := rfl

@[simp] theorem chart_plane (k : LedgerAccountKey) : Chart.plane k = k.ledger.id := rfl

/-- The allocation a Share-ledger account belongs to. -/
def LedgerAccountKey.allocation : LedgerAccountKey → Option ServiceId
  | .userShares s _ | .sharesOutstanding s | .feeShares s | .bookShares s _ => some s
  | .cryptoWallet _ | .userClaim _ | .serviceClaim _ | .withdrawalClearing | .bankCustody
  | .bookCash _ | .scopeClaim .. | .scopeAccount .. | .holdClearing => none

/-! ## Parties and what they are paid into -/

/-- A holder of value in, or a claim against, the fund. -/
inductive Party
  | user (user : UserId)
  | service (service : ServiceId)
  | treasury
deriving DecidableEq, Repr

/-- Where a fee banking retains for its own service lands. -/
inductive FeePayee
  | service (service : ServiceId)
  | scopeAccount (scope : ScopeId) (label : ScopeAccountLabel)
deriving DecidableEq, Repr

/-- banking's treasury, `(main, treasury)`. -/
def FeePayee.treasury : FeePayee := .scopeAccount .main .treasury

/-- The account a retained fee is posted to. -/
def FeePayee.claimKey : FeePayee → LedgerAccountKey
  | .service s => .serviceClaim s
  | .scopeAccount s l => .scopeAccount s l

/-- The party every allocation fee is paid to. -/
def Party.feePayee : Party := .service .fee

/-- The claim account that holds a party's value. -/
def Party.claimKey : Party → LedgerAccountKey
  | .user u => .userClaim u
  | .service s => .serviceClaim s
  | .treasury => FeePayee.treasury.claimKey

/-- Whose money a withdrawal debits: an investor's own claim, or banking's treasury under the
payment order that was approved. -/
inductive WithdrawalSource
  | user (user : UserId)
  | treasury (payment : Uuid)
deriving DecidableEq, Repr

/-- The claim account a withdrawal debits. -/
def WithdrawalSource.claimKey : WithdrawalSource → LedgerAccountKey
  | .user u => .userClaim u
  | .treasury _ => FeePayee.treasury.claimKey

/-- The user a withdrawal belongs to; none for the treasury's. -/
def WithdrawalSource.user? : WithdrawalSource → Option UserId
  | .user u => some u
  | .treasury _ => none

/-- Who receives issued units. -/
inductive UnitHolder
  | user (user : UserId)
  | allocation (service : ServiceId)
deriving DecidableEq, Repr

/-- The unit account a holder's units of `service` sit on. The only allocation with one is the fee
allocation; any other is refused. -/
def UnitHolder.sharesKey (service : ServiceId) : UnitHolder → Except String LedgerAccountKey
  | .user u => .ok (.userShares service u)
  | .allocation holder =>
    if holder = .fee then .ok (.feeShares service)
    else .error ("the '" ++ holder.slug ++ "' allocation has no unit account in '" ++
      service.slug ++ "'")

/-- One end of a compartment move: the user's `main` wallet, or their compartment in a scope. -/
inductive Compartment
  | main
  | scope (scope : ScopeId)
deriving DecidableEq, Repr

/-- The account that holds `user`'s money in a compartment. -/
def Compartment.claimKey (user : UserId) : Compartment → LedgerAccountKey
  | .main => .userClaim user
  | .scope s => .scopeClaim user s

/-- Where a capture sends held money: a scope account, or another user's compartment. -/
inductive HoldDestination
  | account (label : ScopeAccountLabel)
  | user (user : UserId)
deriving DecidableEq, Repr

/-! ## Transfer codes -/

/-- The type of a money movement, for audit. -/
inductive TransferCode
  | deposit | withdraw | withdrawFee | subscribe | redeem | shareMint | shareBurn | feeClawback
  | feeSettle | paymentTransfer | unitIssue | bookLock | bookRelease | bookFill | bookFee
  | unitRetire | compartmentMove | scopeTransfer | scopeHold | invoicePayment | scopePayout
  | scopeCharge | windowMigration
deriving DecidableEq, Repr

/-- The number a code is stored under. -/
def TransferCode.code : TransferCode → Nat
  | .deposit => 2
  | .withdraw => 3
  | .withdrawFee => 4
  | .subscribe => 40
  | .redeem => 41
  | .shareMint => 42
  | .shareBurn => 43
  | .feeClawback => 44
  | .feeSettle => 45
  | .paymentTransfer => 46
  | .unitIssue => 47
  | .bookLock => 48
  | .bookRelease => 49
  | .bookFill => 50
  | .bookFee => 51
  | .unitRetire => 53
  | .compartmentMove => 55
  | .scopeTransfer => 56
  | .scopeHold => 57
  | .invoicePayment => 58
  | .scopePayout => 59
  | .scopeCharge => 60
  | .windowMigration => 61

end Banking
