import Banking.Relay
import Banking.Withdrawal
import Banking.Invoice
import Banking.Orders

/-! # The bank

What the relay works on: the ledger, the outbox, and the control-plane tables its guards read and
its stamps write. `Bank.answer` is every operation of the relay carried out and answered; a fault
(`Bank.Act`) is an error answered instead, before or after the operation took effect. -/

namespace Banking

/-! ## Tables -/

/-- A stored outbox row with its stamps. -/
structure StoredRow where
  row : OutboxRow
  dispatched : Bool
  parked : Bool
  compensated : Bool
  moneyEventAttempts : Nat
deriving DecidableEq, Repr

/-- A row as it is inserted. -/
def StoredRow.fresh (row : OutboxRow) : StoredRow :=
  { row, dispatched := false, parked := false, compensated := false, moneyEventAttempts := 0 }

/-- Whether the drain reads the row. -/
def StoredRow.drainable (r : StoredRow) : Bool := !r.dispatched && !r.parked

/-- A recorded leg, or the marker of a projection. -/
structure SagaStep where
  eventId : Uuid
  leg : Nat
  transferId : Uuid
deriving DecidableEq, Repr

/-- The control-plane row of a posting other than an invoice payment. -/
structure PostingRow where
  posting : Posting
  id : Uuid
  state : MoveState
deriving DecidableEq, Repr

/-- An investor's cost basis in a product. -/
structure FundPosition where
  user : UserId
  service : ServiceId
  costBasis : Nat
  units : Nat
  highWaterMark : Nat
deriving DecidableEq, Repr

/-- **The bank.** The outbox is kept in `seq` order. `lapsedCharges` are the charges past their
posting window, `refusedHolds` the holds whose reservation the ledger refused. -/
structure Bank where
  books : Books
  outbox : List StoredRow
  sagaSteps : List SagaStep
  refusedHolds : List Uuid
  postings : List PostingRow
  invoices : List Invoice
  lapsedCharges : List Uuid
  withdrawals : List Withdrawal
  broadcasts : List Uuid
  orders : List Order
  positions : List FundPosition
deriving DecidableEq

/-- The bank with nothing in it. -/
def Bank.empty : Bank :=
  { books := .empty, outbox := [], sagaSteps := [], refusedHolds := [], postings := [],
    invoices := [], lapsedCharges := [], withdrawals := [], broadcasts := [], orders := [],
    positions := [] }

/-! ## The outbox -/

/-- The drainable rows, in `seq` order. -/
def Bank.drainable (b : Bank) : List OutboxRow := (b.outbox.filter (·.drainable)).map (·.row)

/-- Change the row `seq`. -/
def Bank.updateRow (b : Bank) (seq : Nat) (f : StoredRow → StoredRow) : Bank :=
  { b with outbox := b.outbox.map fun r => if r.row.seq = seq then f r else r }

/-- One more attempt at a row. -/
def StoredRow.attempted (r : StoredRow) : StoredRow :=
  { r with row := { r.row with attempts := r.row.attempts + 1 } }

def StoredRow.markDispatched (r : StoredRow) : StoredRow := { r with dispatched := true }

def StoredRow.markParked (r : StoredRow) : StoredRow := { r.attempted with parked := true }

def StoredRow.markCompensated (r : StoredRow) : StoredRow := { r with compensated := true }

def StoredRow.recordMoneyEventFailure (r : StoredRow) : StoredRow :=
  { r with moneyEventAttempts := r.moneyEventAttempts + 1 }

/-- Clear a park so that the relay drives the row again. A dispatched row and a compensated one are
refused. -/
def StoredRow.unpark (r : StoredRow) : StoredRow :=
  if r.parked && !r.dispatched && !r.compensated then
    { r with parked := false, moneyEventAttempts := 0, row := { r.row with attempts := 0 } }
  else r

/-! ## Saga steps and projections -/

/-- Insert a step unless its event has one at that leg; a transfer id is recorded once. -/
def insertStep (steps : List SagaStep) (s : SagaStep) : Except String (Bool × List SagaStep) :=
  if steps.any fun t => t.eventId = s.eventId && t.leg = s.leg then .ok (false, steps)
  else if steps.any fun t => t.transferId = s.transferId then
    .error "duplicate key value violates unique constraint on tb_transfer_id"
  else .ok (true, s :: steps)

/-- The leg a projection's marker is recorded under. -/
def PROJECTION_LEG : Nat := 100

def SUBSCRIBE_POSITION := "subscribe:position"
def ISSUE_APPLIED := "issue:applied"
def BOOK_TRADE_POSITION := "book:trade:position"

/-- Add to a position, or open it. -/
def gainBasis (ps : List FundPosition) (user : UserId) (service : ServiceId)
    (cost units nav : Nat) : List FundPosition :=
  if ps.any fun p => p.user = user && p.service = service then
    ps.map fun p =>
      if p.user = user ∧ p.service = service then
        { p with
            costBasis := p.costBasis + cost
            units := p.units + units
            highWaterMark := max p.highWaterMark nav }
      else p
  else { user, service, costBasis := cost, units, highWaterMark := nav } :: ps

/-- Take units out of a position, and the basis with them pro rata. -/
def shedBasis (ps : List FundPosition) (user : UserId) (service : ServiceId) (units : Nat) :
    List FundPosition :=
  ps.map fun p =>
    if p.user = user ∧ p.service = service then
      { p with
          costBasis := if units < p.units then p.costBasis * (p.units - units) / p.units else 0
          units := p.units - units }
    else p

/-- What a subscription adds to its investor's position. -/
def projectSubscriptionOn (ps : List FundPosition) : SubscriptionEvent → List FundPosition
  | .subscribed user service cash nav units => gainBasis ps user service cash units nav

/-- What an issuance changes in its holder's position; an allocation has none. -/
def projectIssuanceOn (ps : List FundPosition) : IssuanceEvent → List FundPosition
  | .issued service (.user user) .mint units nav cost => gainBasis ps user service cost units nav
  | .issued service (.user user) .retire units _ _ => shedBasis ps user service units
  | .issued _ (.allocation _) _ _ _ _ => ps

/-- What a trade changes: the buyer gains what they paid, the seller sheds pro rata. -/
def projectTradeOn (ps : List FundPosition) : BookEvent → List FundPosition
  | .tradeExecuted _ service buyer seller _ _ takerSide size notional fee nav _ =>
    let paid := match takerSide with | .buy => notional + fee | .sell => notional
    shedBasis (gainBasis ps buyer service paid size nav) seller service size
  | .orderPlaced .. | .orderReleased .. => ps

/-- Run a projection once for its event, in one transaction with its marker. -/
def Bank.projectOnce (b : Bank) (row : OutboxRow) (salt : String)
    (f : List FundPosition → List FundPosition) : Except String Unit × Bank :=
  match insertStep b.sagaSteps
      { eventId := row.eventId, leg := PROJECTION_LEG, transferId := tid row.aggregateId salt } with
  | .ok (true, steps) => (.ok (), { b with sagaSteps := steps, positions := f b.positions })
  | .ok (false, _) => (.ok (), b)
  | .error e => (.error e, b)

/-- The projection of a settled subscription. -/
def Bank.projectSubscription (b : Bank) (row : OutboxRow) : Except String Unit × Bank :=
  match row.payload with
  | .subscriptions event =>
    b.projectOnce row SUBSCRIBE_POSITION fun ps => projectSubscriptionOn ps event
  | _ => (.error "not a subscription", b)

/-- The projection of an applied issuance. -/
def Bank.projectIssuance (b : Bank) (row : OutboxRow) : Except String Unit × Bank :=
  match row.payload with
  | .issuances event => b.projectOnce row ISSUE_APPLIED fun ps => projectIssuanceOn ps event
  | _ => (.error "not an issuance", b)

/-- The projection of a trade; the book's other events have none. -/
def Bank.projectTrade (b : Bank) (row : OutboxRow) : Except String Unit × Bank :=
  match row.payload with
  | .book event =>
    match event with
    | .tradeExecuted .. => b.projectOnce row BOOK_TRADE_POSITION fun ps => projectTradeOn ps event
    | .orderPlaced .. | .orderReleased .. => (.ok (), b)
  | _ => (.error "not a book event", b)

/-! ## Postings -/

/-- Where the payment attempt `version` of an invoice stands: failed for any other attempt than the
current one. -/
def Invoice.attemptState (i : Invoice) (version : Nat) : MoveState :=
  match i.payment with
  | some p => if i.version = version then (if p.posted then .posted else .pending) else .failed
  | none => .failed

/-- The payment version an invoice row carries. -/
def paidVersion (row : OutboxRow) : Except String Nat :=
  match row.payload with
  | .scopeInvoices (.paid _ _ _ _ _ version) => .ok version
  | _ => .error "not an invoice payment"

/-- Where a row's posting stands; none when no control-plane row holds it. -/
def Bank.postingState (b : Bank) (posting : Posting) (row : OutboxRow) :
    Except String (Option MoveState) :=
  match posting with
  | .invoicePayment => do
    let version ← paidVersion row
    pure ((b.invoices.find? (·.id = row.aggregateId)).map (·.attemptState version))
  | .move | .scopeTransfer | .scopePayout | .scopeCharge =>
    .ok ((b.postings.find? fun r => r.posting = posting && r.id = row.aggregateId).map (·.state))

/-- Stamp a posting row that is still pending. -/
def PostingRow.stamp (state : MoveState) (r : PostingRow) : PostingRow :=
  if r.state = .pending then { r with state } else r

/-- Stamp the row of a posting. -/
def Bank.stampPosting (b : Bank) (posting : Posting) (id : Uuid) (state : MoveState) : Bank :=
  { b with
      postings := b.postings.map fun r =>
        if r.posting = posting ∧ r.id = id then r.stamp state else r }

/-- Change the invoice an attempt is of, while that attempt waits for the ledger. -/
def Bank.updateAttempt (b : Bank) (id : Uuid) (version : Nat) (f : Invoice → Invoice) : Bank :=
  { b with
      invoices := b.invoices.map fun i =>
        if i.id = id ∧ i.attemptState version = .pending then f i else i }

/-- The ledger took a posting. -/
def Bank.markPosted (b : Bank) (posting : Posting) (row : OutboxRow) : Except String Unit × Bank :=
  match posting with
  | .invoicePayment =>
    match paidVersion row with
    | .ok version => (.ok (), b.updateAttempt row.aggregateId version (·.postPayment))
    | .error e => (.error e, b)
  | .move | .scopeTransfer | .scopePayout | .scopeCharge =>
    (.ok (), b.stampPosting posting row.aggregateId .posted)

/-- The ledger refused a posting, or the relay parked it: a payment's invoice is open again. -/
def Bank.markFailed (b : Bank) (posting : Posting) (row : OutboxRow) (reason : String) :
    Except String Unit × Bank :=
  match posting with
  | .invoicePayment =>
    match paidVersion row with
    | .ok version =>
      (.ok (), b.updateAttempt row.aggregateId version fun i =>
        ((i.failPayment reason).map (·.1)).getD i)
    | .error e => (.error e, b)
  | .move | .scopeTransfer | .scopePayout | .scopeCharge =>
    (.ok (), b.stampPosting posting row.aggregateId .failed)

/-! ## Orders -/

/-- Reject the order `id`. -/
def Bank.markRejected (b : Bank) (id : Uuid) (reason : String) : Bank :=
  { b with orders := b.orders.map fun o => if o.id = id then o.reject reason else o }

/-! ## Answers -/

/-- **Every operation of the relay, carried out and answered.** -/
def Bank.answer (b : Bank) : (op : RelayOp) → op.Ans × Bank
  | .nextBatch limit => (.ok (b.drainable.take limit), b)
  | .probeLock => (.ok (), b)
  | .reserveRefused hold => (.ok (decide (hold ∈ b.refusedHolds)), b)
  | .postingState posting row => (b.postingState posting row, b)
  | .pastPostingWindow charge => (.ok (decide (charge ∈ b.lapsedCharges)), b)
  | .reserveApplied withdrawal =>
    (.ok (b.sagaSteps.any fun s => s.transferId = tid withdrawal CLEARING_RESERVE), b)
  | .withdrawalState withdrawal =>
    (.ok ((b.withdrawals.find? (·.id = withdrawal)).map (·.state.asStr)), b)
  | .broadcastRecorded withdrawal => (.ok (decide (withdrawal ∈ b.broadcasts)), b)
  | .transferExists id => (.ok (transferExists id b.books), b)
  | .balance key => (balanceOf key b.books, b)
  | .ledger call => ((call.run b.books).1, { b with books := (call.run b.books).2 })
  | .broadcast request =>
    (.ok (), { b with broadcasts := request.withdrawalId :: b.broadcasts })
  | .recordSagaStep eventId leg _ transferId =>
    match insertStep b.sagaSteps { eventId, leg, transferId } with
    | .ok (_, steps) => (.ok (), { b with sagaSteps := steps })
    | .error e => (.error e, b)
  | .projectSubscription row => b.projectSubscription row
  | .projectIssuance row => b.projectIssuance row
  | .projectTrade row => b.projectTrade row
  | .recordRelayed _ => (.ok (), b)
  | .markPosted posting row => b.markPosted posting row
  | .markFailed posting row reason => b.markFailed posting row reason
  | .markDispatched seq => (.ok (), b.updateRow seq (·.markDispatched))
  | .markParked seq _ => (.ok (), b.updateRow seq (·.markParked))
  | .parkRefusedReserve seq _ hold =>
    (.ok (), { b.updateRow seq (·.markParked) with refusedHolds := hold :: b.refusedHolds })
  | .markRejected order reason => (.ok (), b.markRejected order reason)
  | .markCompensated seq => (.ok (), b.updateRow seq (·.markCompensated))
  | .recordFailure seq _ => (.ok (), b.updateRow seq (·.attempted))
  | .recordMoneyEventFailure seq _ =>
    match b.outbox.find? (·.row.seq = seq) with
    | some r => (.ok (r.moneyEventAttempts + 1), b.updateRow seq (·.recordMoneyEventFailure))
    | none => (.error "no rows returned by a query that expected to return at least one row", b)

/-! ## What an operation leaves alone -/

/-- A projection changes the positions and the saga steps. -/
theorem Bank.projectOnce_changes (b : Bank) (row : OutboxRow) (salt : String)
    (f : List FundPosition → List FundPosition) : ∃ steps ps,
      (b.projectOnce row salt f).2 = { b with sagaSteps := steps, positions := ps } := by
  unfold Bank.projectOnce
  split
  · exact ⟨_, _, rfl⟩
  · exact ⟨b.sagaSteps, b.positions, rfl⟩
  · exact ⟨b.sagaSteps, b.positions, rfl⟩

theorem Bank.projectSubscription_changes (b : Bank) (row : OutboxRow) : ∃ steps ps,
    (b.projectSubscription row).2 = { b with sagaSteps := steps, positions := ps } := by
  unfold Bank.projectSubscription
  split
  · exact b.projectOnce_changes row _ _
  · exact ⟨b.sagaSteps, b.positions, rfl⟩

theorem Bank.projectIssuance_changes (b : Bank) (row : OutboxRow) : ∃ steps ps,
    (b.projectIssuance row).2 = { b with sagaSteps := steps, positions := ps } := by
  unfold Bank.projectIssuance
  split
  · exact b.projectOnce_changes row _ _
  · exact ⟨b.sagaSteps, b.positions, rfl⟩

theorem Bank.projectTrade_changes (b : Bank) (row : OutboxRow) : ∃ steps ps,
    (b.projectTrade row).2 = { b with sagaSteps := steps, positions := ps } := by
  unfold Bank.projectTrade
  split
  · split
    · exact b.projectOnce_changes row _ _
    · exact ⟨b.sagaSteps, b.positions, rfl⟩
    · exact ⟨b.sagaSteps, b.positions, rfl⟩
  · exact ⟨b.sagaSteps, b.positions, rfl⟩

/-- A posting's stamp changes its own row, or its invoice. -/
theorem Bank.markPosted_changes (b : Bank) (posting : Posting) (row : OutboxRow) : ∃ ps is,
    (b.markPosted posting row).2 = { b with postings := ps, invoices := is } := by
  unfold Bank.markPosted
  split
  · split
    · exact ⟨b.postings, _, rfl⟩
    · exact ⟨b.postings, b.invoices, rfl⟩
  all_goals exact ⟨_, b.invoices, rfl⟩

theorem Bank.markFailed_changes (b : Bank) (posting : Posting) (row : OutboxRow)
    (reason : String) : ∃ ps is,
      (b.markFailed posting row reason).2 = { b with postings := ps, invoices := is } := by
  unfold Bank.markFailed
  split
  · split
    · exact ⟨b.postings, _, rfl⟩
    · exact ⟨b.postings, b.invoices, rfl⟩
  all_goals exact ⟨_, b.invoices, rfl⟩

/-- Only a ledger write changes the ledger. -/
theorem Bank.answer_books (b : Bank) (op : RelayOp) :
    (b.answer op).2.books = match op with
      | .ledger call => (call.run b.books).2
      | _ => b.books := by
  cases op with
  | recordSagaStep => simp only [Bank.answer]; split <;> rfl
  | projectSubscription row =>
    obtain ⟨_, _, h⟩ := b.projectSubscription_changes row
    simp only [Bank.answer, h]
  | projectIssuance row =>
    obtain ⟨_, _, h⟩ := b.projectIssuance_changes row
    simp only [Bank.answer, h]
  | projectTrade row =>
    obtain ⟨_, _, h⟩ := b.projectTrade_changes row
    simp only [Bank.answer, h]
  | markPosted p row =>
    obtain ⟨_, _, h⟩ := b.markPosted_changes p row
    simp only [Bank.answer, h]
  | markFailed p row reason =>
    obtain ⟨_, _, h⟩ := b.markFailed_changes p row reason
    simp only [Bank.answer, h]
  | recordMoneyEventFailure => simp only [Bank.answer]; split <;> rfl
  | _ => rfl

/-! ## Faults -/

/-- What an outage may be answered with: a dependency that cannot be reached, or gives up. -/
def Outage : (op : RelayOp) → op.Ans → Prop
  | .nextBatch _, a | .reserveRefused _, a | .pastPostingWindow _, a | .reserveApplied _, a
  | .broadcastRecorded _, a | .postingState .., a | .withdrawalState _, a | .broadcast _, a
  | .recordRelayed _, a | .recordMoneyEventFailure .., a | .probeLock, a | .recordSagaStep .., a
  | .projectSubscription _, a | .projectIssuance _, a | .projectTrade _, a | .markPosted .., a
  | .markFailed .., a | .markDispatched _, a | .markParked .., a | .parkRefusedReserve .., a
  | .markRejected .., a | .markCompensated _, a | .recordFailure .., a => ∃ e, a = .error e
  | .transferExists _, a | .balance _, a | .ledger _, a => ∃ d, a = .error (.unavailable d)

/-- **One operation, faults included**: carried out and answered, or answered with a fault before or
after it took effect. -/
def Bank.Act (fault : (op : RelayOp) → op.Ans → Prop) (op : RelayOp) (b : Bank) (a : op.Ans)
    (b' : Bank) : Prop :=
  b.answer op = (a, b') ∨ fault op a ∧ (b' = b ∨ b' = (b.answer op).2)

/-! ## The ledger's side -/

/-- What the ledger answers and does, whatever the rest of the bank is. -/
def ledgerStep : (op : RelayOp) → Books → op.Ans → Books → Prop
  | .ledger call, L, a, L' =>
    (a, L') = call.run L ∨ (∃ d, a = .error (.unavailable d)) ∧ (L' = L ∨ L' = (call.run L).2)
  | .transferExists id, L, a, L' =>
    L' = L ∧ (a = .ok (transferExists id L) ∨ ∃ d, a = .error (.unavailable d))
  | .balance key, L, a, L' => L' = L ∧ (a = balanceOf key L ∨ ∃ d, a = .error (.unavailable d))
  | _, L, _, L' => L' = L

/-- An operation of the bank is, on its ledger, the ledger's own. -/
theorem Bank.Act.ledgerStep {op : RelayOp} {b b' : Bank} {a : op.Ans} (h : b.Act Outage op a b') :
    ledgerStep op b.books a b'.books := by
  have hbooks := b.answer_books op
  rcases h with h | ⟨hf, rfl | rfl⟩
  · have hb' : b'.books = (b.answer op).2.books := by rw [h]
    have ha : (b.answer op).1 = a := by rw [h]
    rw [hb', hbooks]
    subst ha
    cases op <;> first | rfl | exact .inl rfl | exact ⟨rfl, .inl rfl⟩
  · cases op <;> first | rfl | exact .inr ⟨hf, .inl rfl⟩ | exact ⟨rfl, .inr hf⟩
  · rw [hbooks]
    cases op <;> first | rfl | exact .inr ⟨hf, .inr rfl⟩ | exact ⟨rfl, .inr hf⟩

end Banking
