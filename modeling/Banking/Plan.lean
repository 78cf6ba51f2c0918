import Banking.Events

/-! # The relay's plan

How an outbox event becomes ledger operations: the accounts, amounts and deterministic transfer ids
of every leg, and the one custody broadcast. `plan` is a function of the row alone, so a redelivered
row plans the very same transfers. -/

namespace Banking

/-! ## Ledger operations -/

/-- What a transfer is stored under besides its accounts: its type code and the aggregate it
belongs to. -/
structure TransferTag where
  code : TransferCode
  reference : Uuid
deriving DecidableEq, Repr

/-- A transfer between two logical accounts. -/
abbrev LedgerTransfer := TwoPhase.Transfer Uuid LedgerAccountKey TransferTag

/-- How a pending transfer is completed. -/
inductive CompletionKind
  | post
  | void
deriving DecidableEq, Repr

/-- The completion of a pending transfer. `amount` is what the reservation holds. -/
structure PendingCompletion where
  id : Uuid
  pendingId : Uuid
  kind : CompletionKind
  debit : LedgerAccountKey
  credit : LedgerAccountKey
  amount : Nat
  code : TransferCode
  reference : Uuid
deriving DecidableEq, Repr

/-- One leg of a mixed linked chain. -/
inductive LinkedLeg
  | post (transfer : LedgerTransfer)
  | reserve (transfer : LedgerTransfer)
  | complete (completion : PendingCompletion)
deriving DecidableEq, Repr

/-- The id a leg would create. -/
def LinkedLeg.id : LinkedLeg → Uuid
  | .post t | .reserve t => t.id
  | .complete c => c.id

/-- A custody broadcast of a withdrawal's net. -/
structure BroadcastRequest where
  withdrawalId : Uuid
  network : Network
  address : String
  amount : Nat
deriving DecidableEq, Repr

/-- What one planned operation does. -/
inductive LedgerAction
  | post (transfer : LedgerTransfer)
  | postLinked (transfers : List LedgerTransfer)
  | reserve (transfer : LedgerTransfer)
  | complete (completion : PendingCompletion)
  | linked (legs : List LinkedLeg)
  | broadcast (request : BroadcastRequest)
deriving DecidableEq, Repr

/-- What a leg is in its event: the relay's guards choose by it. -/
inductive Role
  | deposit
  | withdrawReserve | withdrawBroadcast | withdrawSettle | withdrawDisburse | withdrawFee
  | withdrawVoid
  | subscribeCash | subscribeMint
  | redeemReserve | redeemBurn | redeemPayout | redeemVoid
  | feeClawback | feeBurn | feePayout
  | issueMint | issueRetire
  | bookLock | bookRelease | bookFill
  | paymentReserve | paymentSettle | paymentTransfer | paymentRelease
  | compartmentMove | scopeTransfer | scopePayout
  | holdReserve | holdCapture | holdRelease
  | invoicePay | scopeCharge
deriving DecidableEq, Repr

/-- One planned operation. -/
structure PlannedOp where
  role : Role
  transferId : Uuid
  action : LedgerAction
deriving DecidableEq, Repr

/-! ## Deterministic ids -/

/-- The transfer id of one leg, derived from the aggregate and a salt of the leg's own. -/
def tid (aggregateId : Uuid) (salt : String) : Uuid := .v5 aggregateId salt

@[simp] theorem tid_inj {a b : Uuid} {s t : String} : tid a s = tid b t ↔ a = b ∧ s = t := by
  simp [tid]

/-- A derived id is never a minted one. -/
@[simp] theorem tid_ne_raw (a : Uuid) (s : String) (n : Nat) : tid a s ≠ .raw n := by simp [tid]

def CLEARING_RESERVE := "withdraw:clearing"
def CLEARING_SETTLE := "withdraw:clearing:settle"
def WALLET_REDISTRIBUTE := "withdraw:wallet"
def FEE_REDISTRIBUTE := "withdraw:fee"
def CLEARING_VOID_FAIL := "withdraw:clearing:void:fail"
def CLEARING_VOID_CANCEL := "withdraw:clearing:void:cancel"
def SUBSCRIBE_CASH := "subscribe:cash"
def SUBSCRIBE_MINT := "subscribe:mint"
def ISSUE_MINT := "issue:mint"
def ISSUE_RETIRE := "issue:retire"
def BURN_RESERVE := "redeem:burn"
def BURN_SETTLE := "redeem:burn:settle"
def REDEEM_PAYOUT := "redeem:payout"
def BURN_VOID_FAIL := "redeem:burn:void:fail"
def BURN_VOID_CANCEL := "redeem:burn:void:cancel"
def PAYMENT_RESERVE := "payment:reserve"
def PAYMENT_RESERVE_SETTLE := "payment:reserve:settle"
def PAYMENT_RESERVE_VOID := "payment:reserve:void"
def PAYMENT_TRANSFER := "payment:transfer"
def FEE_SETTLE_BURN := "fee:settle:burn"
def FEE_SETTLE_PAYOUT := "fee:settle:payout"
def BOOK_LOCK := "book:lock"
def BOOK_RELEASE := "book:release"
def BOOK_FILL_UNITS := "book:fill:units"
def BOOK_FILL_CASH := "book:fill:cash"
def BOOK_FILL_FEE := "book:fill:fee"
def COMPARTMENT_MOVE := "compartment:move"
def SCOPE_TRANSFER := "scope:transfer"
def HOLD_PENDING := "scope:hold:pending:"
def HOLD_VOID := "scope:hold:void:"
def HOLD_CAPTURE := "scope:hold:capture:"
def SCOPE_PAYOUT := "scope:payout:"
def INVOICE_PAY := "scope:invoice:pay:"
def SCOPE_CHARGE := "scope:charge"

/-- The ledger id of a payout's leg `lineNo`. -/
def payoutTid (payoutId : Uuid) (lineNo : Nat) : Uuid := tid payoutId (SCOPE_PAYOUT ++ toString lineNo)

/-- A ledger id of a hold's step, over the version of the event that applies it. -/
def holdTid (holdId : Uuid) (salt : String) (version : Nat) : Uuid :=
  tid holdId (salt ++ toString version)

/-- Numbers are told apart by their text. -/
theorem natText_injective {m n : Nat} (h : toString m = toString n) : m = n := by
  have hm := Nat.ofDigitChars_ten_toDigits (n := m)
  have hn := Nat.ofDigitChars_ten_toDigits (n := n)
  simp only [Nat.toString_eq_repr, Nat.repr_eq_ofList_toDigits] at h
  rw [← hm, String.ofList_injective h, hn]

/-- Under one salt, a hold's ids are told apart by hold and version. -/
@[simp] theorem holdTid_inj {a b : Uuid} {s : String} {m n : Nat} :
    holdTid a s m = holdTid b s n ↔ a = b ∧ m = n := by
  simp only [holdTid, tid_inj, String.append_right_inj]
  exact and_congr_right fun _ => ⟨natText_injective, congrArg toString⟩

/-- A hold's reservations, voids and captures never share an id. -/
@[simp] theorem holdTid_pending_ne_void {a b : Uuid} {m n : Nat} :
    holdTid a HOLD_PENDING m ≠ holdTid b HOLD_VOID n := by
  intro h
  have hs := congrArg String.toList (tid_inj.mp h).2
  simp [HOLD_PENDING, HOLD_VOID] at hs

@[simp] theorem holdTid_pending_ne_capture {a b : Uuid} {m n : Nat} :
    holdTid a HOLD_PENDING m ≠ holdTid b HOLD_CAPTURE n := by
  intro h
  have hs := congrArg String.toList (tid_inj.mp h).2
  simp [HOLD_PENDING, HOLD_CAPTURE] at hs

@[simp] theorem holdTid_void_ne_capture {a b : Uuid} {m n : Nat} :
    holdTid a HOLD_VOID m ≠ holdTid b HOLD_CAPTURE n := by
  intro h
  have hs := congrArg String.toList (tid_inj.mp h).2
  simp [HOLD_VOID, HOLD_CAPTURE] at hs

/-- The ledger id of an invoice's payment, over the version of the attempt. -/
def invoicePayTid (invoiceId : Uuid) (version : Nat) : Uuid :=
  tid invoiceId (INVOICE_PAY ++ toString version)

/-! ## One plan for each kind -/

/-- A transfer of `reference`'s under `code`. -/
def legOf (id : Uuid) (debit credit : LedgerAccountKey) (amount : Nat) (code : TransferCode)
    (reference : Uuid) : LedgerTransfer :=
  { id, debit, credit, amount, tag := { code, reference } }

/-- A planned operation whose id is its transfer's. -/
def postOp (role : Role) (t : LedgerTransfer) : PlannedOp := ⟨role, t.id, .post t⟩

/-- A planned reservation whose id is its transfer's. -/
def reserveOp (role : Role) (t : LedgerTransfer) : PlannedOp := ⟨role, t.id, .reserve t⟩

/-- A planned completion whose id is the completion's. -/
def completeOp (role : Role) (c : PendingCompletion) : PlannedOp := ⟨role, c.id, .complete c⟩

/-- A deposit credits the party the chain named. -/
def planBalance (eventTid reference : Uuid) : LedgerEvent → PlannedOp
  | .deposited party network amount =>
    postOp .deposit (legOf eventTid (.cryptoWallet network) party.claimKey amount .deposit reference)

/-- A subscription moves the cash first, then mints the units. -/
def planSubscription (aggregateId reference : Uuid) : SubscriptionEvent → List PlannedOp
  | .subscribed user service cash _ units =>
    [postOp .subscribeCash (legOf (tid aggregateId SUBSCRIBE_CASH) (.userClaim user)
        (.serviceClaim service) cash .subscribe reference),
      postOp .subscribeMint (legOf (tid aggregateId SUBSCRIBE_MINT) (.userShares service user)
        (.sharesOutstanding service) units .shareMint reference)]

/-- An in-kind issuance: one posted transfer on the Share ledger. A holder with no account in the
product is unplannable. -/
def planIssuance (aggregateId reference : Uuid) : IssuanceEvent → Except String PlannedOp
  | .issued service holder .mint units _ _ => do
    let debit ← holder.sharesKey service
    pure <| postOp .issueMint (legOf (tid aggregateId ISSUE_MINT) debit (.sharesOutstanding service)
      units .unitIssue reference)
  | .issued service holder .retire units _ _ => do
    let credit ← holder.sharesKey service
    pure <| postOp .issueRetire (legOf (tid aggregateId ISSUE_RETIRE) (.sharesOutstanding service)
      credit units .unitRetire reference)

/-- The accounts and amount of an order's lock: units into `BookShares`, cash into `BookCash`. -/
def lockLeg (service : ServiceId) (user : UserId) :
    Locked → LedgerAccountKey × LedgerAccountKey × Nat
  | .units units => (.bookShares service user, .userShares service user, units)
  | .cash cash => (.userClaim user, .bookCash user, cash)

/-- The accounts and amount of an order's release: the lock reversed. -/
def releaseLeg (service : ServiceId) (user : UserId) :
    Locked → LedgerAccountKey × LedgerAccountKey × Nat
  | .units units => (.userShares service user, .bookShares service user, units)
  | .cash cash => (.bookCash user, .userClaim user, cash)

/-- The legs of a trade: units, cash, and the taker's fee when there is one. -/
def fillLegs (aggregateId reference : Uuid) (service : ServiceId) (buyer seller : UserId)
    (takerSide : OrderSide) (size : Nat) (notional fee : Nat) (payee : Party) :
    List LedgerTransfer :=
  [legOf (tid aggregateId BOOK_FILL_UNITS) (.userShares service buyer) (.bookShares service seller)
      size .bookFill reference,
    legOf (tid aggregateId BOOK_FILL_CASH) (.bookCash buyer) (.userClaim seller) notional .bookFill
      reference] ++
  if fee = 0 then []
  else
    [legOf (tid aggregateId BOOK_FILL_FEE)
      (match takerSide with | .buy => .bookCash buyer | .sell => .userClaim seller) payee.claimKey
      fee .bookFee reference]

/-- The book in the ledger: a lock, a release, or one linked chain for a trade. -/
def planBook (aggregateId reference : Uuid) : BookEvent → PlannedOp
  | .orderPlaced _ service user _ locked =>
    let (debit, credit, amount) := lockLeg service user locked
    postOp .bookLock (legOf (tid aggregateId BOOK_LOCK) debit credit amount .bookLock reference)
  | .orderReleased _ service user _ released =>
    let (debit, credit, amount) := releaseLeg service user released
    postOp .bookRelease
      (legOf (tid aggregateId BOOK_RELEASE) debit credit amount .bookRelease reference)
  | .tradeExecuted _ service buyer seller _ _ takerSide size notional fee _ payee =>
    ⟨.bookFill, tid aggregateId BOOK_FILL_UNITS,
      .postLinked (fillLegs aggregateId reference service buyer seller takerSide size notional fee
        payee)⟩

/-- Void the pending burn: fail and cancel differ only by the completion's id. -/
def voidBurn (aggregateId : Uuid) (user : UserId) (service : ServiceId) (units : Nat)
    (reference : Uuid) (salt : String) : PlannedOp :=
  completeOp .redeemVoid
    { id := tid aggregateId salt
      pendingId := tid aggregateId BURN_RESERVE
      kind := .void
      debit := .sharesOutstanding service
      credit := .userShares service user
      amount := units
      code := .shareBurn
      reference }

/-- A redemption: reserve the burn; settle posts it and then pays; fail and cancel void it. -/
def planRedemption (aggregateId reference : Uuid) : RedemptionEvent → List PlannedOp
  | .requested user service units =>
    [reserveOp .redeemReserve (legOf (tid aggregateId BURN_RESERVE) (.sharesOutstanding service)
      (.userShares service user) units .shareBurn reference)]
  | .settled user service units _ cash =>
    [completeOp .redeemBurn
        { id := tid aggregateId BURN_SETTLE
          pendingId := tid aggregateId BURN_RESERVE
          kind := .post
          debit := .sharesOutstanding service
          credit := .userShares service user
          amount := units
          code := .shareBurn
          reference },
      postOp .redeemPayout (legOf (tid aggregateId REDEEM_PAYOUT) (.serviceClaim service)
        (.userClaim user) cash .redeem reference)]
  | .failed user service units =>
    [voidBurn aggregateId user service units reference BURN_VOID_FAIL]
  | .cancelled user service units =>
    [voidBurn aggregateId user service units reference BURN_VOID_CANCEL]

/-- The fee plane: a charge moves units between holders; a settlement burns first and pays second. -/
def planFee (aggregateId eventTid reference : Uuid) : FeeEvent → List PlannedOp
  | .charged user service units _ _ =>
    [postOp .feeClawback (legOf eventTid (.feeShares service) (.userShares service user) units
      .feeClawback reference)]
  | .sharesSettled service units _ cash payee =>
    [postOp .feeBurn (legOf (tid aggregateId FEE_SETTLE_BURN) (.sharesOutstanding service)
        (.feeShares service) units .shareBurn reference),
      postOp .feePayout (legOf (tid aggregateId FEE_SETTLE_PAYOUT) (.serviceClaim service)
        payee.claimKey cash .feeSettle reference)]

/-- A payment between claims: reserve, then post and move on, or void. Its audit events plan
nothing. -/
def planPayment (aggregateId reference : Uuid) : PaymentEvent → List PlannedOp
  | .reserved source amount =>
    [reserveOp .paymentReserve (legOf (tid aggregateId PAYMENT_RESERVE) source.claimKey
      .withdrawalClearing amount .paymentTransfer reference)]
  | .settled source target amount =>
    [completeOp .paymentSettle
        { id := tid aggregateId PAYMENT_RESERVE_SETTLE
          pendingId := tid aggregateId PAYMENT_RESERVE
          kind := .post
          debit := source.claimKey
          credit := .withdrawalClearing
          amount
          code := .paymentTransfer
          reference },
      postOp .paymentTransfer (legOf (tid aggregateId PAYMENT_TRANSFER) .withdrawalClearing
        target.claimKey amount .paymentTransfer reference)]
  | .released source amount =>
    [completeOp .paymentRelease
      { id := tid aggregateId PAYMENT_RESERVE_VOID
        pendingId := tid aggregateId PAYMENT_RESERVE
        kind := .void
        debit := source.claimKey
        credit := .withdrawalClearing
        amount
        code := .paymentTransfer
        reference }]
  | .opened | .approvalRecorded | .approved | .executed | .executionFailed | .rejected | .expired
  | .cancelled => []

/-- Void the clearing reservation: fail and cancel differ only by the completion's id. -/
def voidClearing (aggregateId : Uuid) (source : WithdrawalSource) (amount : Nat) (reference : Uuid)
    (salt : String) : PlannedOp :=
  completeOp .withdrawVoid
    { id := tid aggregateId salt
      pendingId := tid aggregateId CLEARING_RESERVE
      kind := .void
      debit := source.claimKey
      credit := .withdrawalClearing
      amount
      code := .withdraw
      reference }

/-- `amount − fee`, or the plan's error when the fee is larger. -/
def netOf (amount fee : Nat) : Except String Nat :=
  if fee ≤ amount then .ok (amount - fee) else .error "withdrawal fee exceeds amount"

/-- A withdrawal's saga: reserve the gross into clearing, broadcast the net, then post the
reservation and disburse, or void it. -/
def planWithdrawal (aggregateId reference : Uuid) :
    WithdrawalEvent → Except String (List PlannedOp)
  | .requested source _ _ amount _ =>
    pure [reserveOp .withdrawReserve (legOf (tid aggregateId CLEARING_RESERVE) source.claimKey
      .withdrawalClearing amount .withdraw reference)]
  | .dispatched _ network address amount fee => do
    let net ← netOf amount fee
    pure [⟨.withdrawBroadcast, Uuid.nil,
      .broadcast { withdrawalId := aggregateId, network, address, amount := net }⟩]
  | .settled source network amount fee _ payee => do
    let net ← netOf amount fee
    pure <|
      [completeOp .withdrawSettle
          { id := tid aggregateId CLEARING_SETTLE
            pendingId := tid aggregateId CLEARING_RESERVE
            kind := .post
            debit := source.claimKey
            credit := .withdrawalClearing
            amount
            code := .withdraw
            reference },
        postOp .withdrawDisburse (legOf (tid aggregateId WALLET_REDISTRIBUTE) .withdrawalClearing
          (.cryptoWallet network) net .withdraw reference)] ++
      if fee = 0 then []
      else
        [postOp .withdrawFee (legOf (tid aggregateId FEE_REDISTRIBUTE) .withdrawalClearing
          payee.claimKey fee .withdrawFee reference)]
  | .failed source _ amount _ =>
    pure [voidClearing aggregateId source amount reference CLEARING_VOID_FAIL]
  | .cancelled source _ amount _ =>
    pure [voidClearing aggregateId source amount reference CLEARING_VOID_CANCEL]

/-- A user's own move: one posted claim-to-claim leg. -/
def planCompartment (aggregateId reference : Uuid) : CompartmentEvent → PlannedOp
  | .moved user source target amount =>
    postOp .compartmentMove (legOf (tid aggregateId COMPARTMENT_MOVE) (source.claimKey user)
      (target.claimKey user) amount .compartmentMove reference)

/-- A client's transfer: one posted account-to-account leg. -/
def planScopeLedger (aggregateId reference : Uuid) : ScopeLedgerEvent → PlannedOp
  | .transferred scope fromLabel toScope toLabel amount =>
    postOp .scopeTransfer (legOf (tid aggregateId SCOPE_TRANSFER) (.scopeAccount scope fromLabel)
      (.scopeAccount toScope toLabel) amount .scopeTransfer reference)

/-- A payout's legs: one posted leg for each line, in order. -/
def payoutLegs (payoutId reference : Uuid) (scope : ScopeId) (fromLabel : ScopeAccountLabel)
    (lines : List PaidLine) : List LedgerTransfer :=
  lines.zipIdx.map fun (line, lineNo) =>
    legOf (payoutTid payoutId lineNo) (.scopeAccount scope fromLabel) (.scopeClaim line.user scope)
      line.amount .scopePayout reference

/-- A payout: all its lines in one linked chain. -/
def planPayout (payoutId reference : Uuid) : ScopePayoutEvent → Except String PlannedOp
  | .paidOut scope fromLabel lines =>
    let legs := payoutLegs payoutId reference scope fromLabel lines
    match legs.head? with
    | some first => .ok ⟨.scopePayout, first.id, .postLinked legs⟩
    | none => .error "a payout without lines"

/-- The reservation a version of a hold creates. -/
def holdReservation (holdId reference : Uuid) (scope : ScopeId) (user : UserId) (version : Nat)
    (amount : Nat) : LedgerTransfer :=
  legOf (holdTid holdId HOLD_PENDING version) (.scopeClaim user scope) .holdClearing amount
    .scopeHold reference

/-- The void by which `version` releases the reservation of `released`. -/
def holdVoid (holdId reference : Uuid) (scope : ScopeId) (user : UserId) (version released : Nat)
    (held : Nat) : PendingCompletion :=
  { id := holdTid holdId HOLD_VOID version
    pendingId := holdTid holdId HOLD_PENDING released
    kind := .void
    debit := .scopeClaim user scope
    credit := .holdClearing
    amount := held
    code := .scopeHold
    reference }

/-- The account a capture credits. -/
def captureKey (scope : ScopeId) : HoldDestination → LedgerAccountKey
  | .account label => .scopeAccount scope label
  | .user other => .scopeClaim other scope

/-- A hold's steps: a placement reserves; a capture voids, posts and reserves the rest, linked; a
release voids. -/
def planHold (holdId reference : Uuid) : HoldEvent → PlannedOp
  | .placed _ scope user amount version =>
    reserveOp .holdReserve (holdReservation holdId reference scope user version amount)
  | .captured _ scope user version released held amount target =>
    let void := holdVoid holdId reference scope user version released held
    let capture := legOf (holdTid holdId HOLD_CAPTURE version) (.scopeClaim user scope)
      (captureKey scope target) amount .scopeHold reference
    let rest := held - amount
    ⟨.holdCapture, void.id,
      .linked <| [.complete void, .post capture] ++
        if rest = 0 then [] else [.reserve (holdReservation holdId reference scope user version rest)]⟩
  | .released _ scope user version released held _ =>
    let void := holdVoid holdId reference scope user version released held
    ⟨.holdRelease, void.id, .linked [.complete void]⟩

/-- A charge: one posted leg out of the user's compartment. -/
def planCharge (chargeId reference : Uuid) : ChargeEvent → PlannedOp
  | .charged scope user toLabel amount =>
    postOp .scopeCharge (legOf (tid chargeId SCOPE_CHARGE) (.scopeClaim user scope)
      (.scopeAccount scope toLabel) amount .scopeCharge reference)

/-- An invoice payment: one posted leg. An invoice's other steps plan nothing. -/
def planInvoice (invoiceId reference : Uuid) : InvoiceEvent → Option PlannedOp
  | .paid scope toLabel amount payer source version =>
    some <| postOp .invoicePay (legOf (invoicePayTid invoiceId version) (source.claimKey payer)
      (.scopeAccount scope toLabel) amount .invoicePayment reference)
  | .created _ | .cancelled _ | .expired _ | .paymentFailed .. => none

/-- **The plan**: an outbox event as the ledger operations (and the custody broadcast) it performs.
Every transfer's `reference` is the aggregate id. -/
def plan (row : OutboxRow) : Except String (List PlannedOp) :=
  let reference := row.aggregateId
  match row.payload with
  | .balance event => .ok [planBalance row.eventId reference event]
  | .withdrawals event => planWithdrawal row.aggregateId reference event
  | .subscriptions event => .ok (planSubscription row.aggregateId reference event)
  | .redemptions event => .ok (planRedemption row.aggregateId reference event)
  | .fees event => .ok (planFee row.aggregateId row.eventId reference event)
  | .issuances event => (planIssuance row.aggregateId reference event).map fun op => [op]
  | .book event => .ok [planBook row.aggregateId reference event]
  | .payments event => .ok (planPayment row.aggregateId reference event)
  | .compartments event => .ok [planCompartment row.aggregateId reference event]
  | .scopeLedger event => .ok [planScopeLedger row.aggregateId reference event]
  | .scopeHolds event => .ok [planHold row.aggregateId reference event]
  | .scopePayouts event => (planPayout row.aggregateId reference event).map fun op => [op]
  | .scopeInvoices event => .ok (planInvoice row.aggregateId reference event).toList
  | .scopeCharges event => .ok [planCharge row.aggregateId reference event]
  | .undecodable _ error => .error error
  | .other _ => .ok []

end Banking
