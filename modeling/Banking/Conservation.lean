import Banking.Gateway

/-! # Conservation over the chart of accounts

Every transfer the relay plans stays on one ledger and, on the Share ledger, within one allocation.
So whatever runs of planned operations the ledger takes, custody equals the claims against it and
every allocation's units outstanding equal the units held. -/

namespace Banking

open TwoPhase (Side Chart)

/-! ## Planned transfers are balanced -/

/-- Two accounts a transfer may join: of one ledger, and of one allocation where the ledger is
divided into them. -/
def Joined (debit credit : LedgerAccountKey) : Prop :=
  debit.ledger = credit.ledger ∧ debit.allocation = credit.allocation

instance (d c : LedgerAccountKey) : Decidable (Joined d c) := inferInstanceAs (Decidable (_ ∧ _))

/-- The debit and credit accounts of every transfer an action submits. -/
def LedgerAction.pairs : LedgerAction → List (LedgerAccountKey × LedgerAccountKey)
  | .post t | .reserve t => [(t.debit, t.credit)]
  | .postLinked ts => ts.map fun t => (t.debit, t.credit)
  | .complete c => [(c.debit, c.credit)]
  | .linked legs => legs.map fun
    | .post t | .reserve t => (t.debit, t.credit)
    | .complete c => (c.debit, c.credit)
  | .broadcast _ => []

/-- Every transfer of an operation joins two accounts that may be joined. -/
def PlannedOp.Balanced (op : PlannedOp) : Prop := ∀ p ∈ op.action.pairs, Joined p.1 p.2

theorem PlannedOp.balanced_postOp {role : Role} {t : LedgerTransfer} (h : Joined t.debit t.credit) :
    (postOp role t).Balanced := by
  simpa [PlannedOp.Balanced, postOp, LedgerAction.pairs] using h

theorem PlannedOp.balanced_reserveOp {role : Role} {t : LedgerTransfer}
    (h : Joined t.debit t.credit) : (reserveOp role t).Balanced := by
  simpa [PlannedOp.Balanced, reserveOp, LedgerAction.pairs] using h

theorem PlannedOp.balanced_completeOp {role : Role} {c : PendingCompletion}
    (h : Joined c.debit c.credit) : (completeOp role c).Balanced := by
  simpa [PlannedOp.Balanced, completeOp, LedgerAction.pairs] using h

@[simp] theorem legOf_debit (i : Uuid) (d c : LedgerAccountKey) (n : Nat) (k : TransferCode)
    (r : Uuid) : (legOf i d c n k r).debit = d := rfl

@[simp] theorem legOf_credit (i : Uuid) (d c : LedgerAccountKey) (n : Nat) (k : TransferCode)
    (r : Uuid) : (legOf i d c n k r).credit = c := rfl

/-- Two USDT accounts are joined: no allocation divides the USDT ledger. -/
theorem Joined.cash {d c : LedgerAccountKey} (hd : d.ledger = .usdt) (hc : c.ledger = .usdt) :
    Joined d c := by
  have hnone : ∀ k : LedgerAccountKey, k.ledger = .usdt → k.allocation = none := by
    intro k hk
    cases k <;> first | rfl | cases hk
  exact ⟨hd.trans hc.symm, (hnone d hd).trans (hnone c hc).symm⟩

/-- The account `k` holds units of the allocation `s`. -/
def LedgerAccountKey.UnitsOf (s : ServiceId) (k : LedgerAccountKey) : Prop :=
  k.ledger = .share ∧ k.allocation = some s

/-- Two unit accounts of one allocation are joined. -/
theorem Joined.units {s : ServiceId} {d c : LedgerAccountKey} (hd : d.UnitsOf s)
    (hc : c.UnitsOf s) : Joined d c :=
  ⟨hd.1.trans hc.1.symm, hd.2.trans hc.2.symm⟩

/-- A claim a party is paid into is a USDT account. -/
theorem Party.claimKey_ledger (p : Party) : p.claimKey.ledger = .usdt := by
  cases p <;> rfl

/-- The account a retained fee is posted to is a USDT account. -/
theorem FeePayee.claimKey_ledger (p : FeePayee) : p.claimKey.ledger = .usdt := by
  cases p <;> rfl

/-- A withdrawal's source is a USDT account. -/
theorem WithdrawalSource.claimKey_ledger (s : WithdrawalSource) : s.claimKey.ledger = .usdt := by
  cases s <;> rfl

/-- Either end of a compartment move is a USDT account. -/
theorem Compartment.claimKey_ledger (u : UserId) (c : Compartment) :
    (c.claimKey u).ledger = .usdt := by
  cases c <;> rfl

/-- A capture's destination is a USDT account. -/
theorem captureKey_ledger (s : ScopeId) (d : HoldDestination) : (captureKey s d).ledger = .usdt := by
  cases d <;> rfl

/-- A holder's unit account holds units of the allocation it was asked for. -/
theorem UnitHolder.sharesKey_unitsOf {service : ServiceId} {holder : UnitHolder}
    {k : LedgerAccountKey} (h : holder.sharesKey service = .ok k) : k.UnitsOf service := by
  cases holder with
  | user u => cases h; exact ⟨rfl, rfl⟩
  | allocation a =>
    simp only [UnitHolder.sharesKey] at h
    split at h
    · cases h; exact ⟨rfl, rfl⟩
    · cases h

/-! ### Kind by kind -/

/-- The lock and the release of an order join the same two accounts. -/
theorem releaseLeg_eq (service : ServiceId) (user : UserId) (l : Locked) :
    releaseLeg service user l =
      ((lockLeg service user l).2.1, (lockLeg service user l).1, (lockLeg service user l).2.2) := by
  cases l <;> rfl

theorem lockLeg_joined (service : ServiceId) (user : UserId) (l : Locked) :
    Joined (lockLeg service user l).1 (lockLeg service user l).2.1 := by
  cases l with
  | units => exact .units ⟨rfl, rfl⟩ ⟨rfl, rfl⟩
  | cash => exact .cash rfl rfl

theorem Joined.symm {d c : LedgerAccountKey} (h : Joined d c) : Joined c d := ⟨h.1.symm, h.2.symm⟩

/-- A withdrawal's legs are balanced. -/
theorem planWithdrawal_balanced {a r : Uuid} {event : WithdrawalEvent} {ops : List PlannedOp}
    (h : planWithdrawal a r event = .ok ops) : ∀ op ∈ ops, op.Balanced := by
  have hvoid : ∀ source amount salt, ∀ op ∈ [voidClearing a source amount r salt], op.Balanced := by
    intro source amount salt op hop
    obtain rfl := List.mem_singleton.mp hop
    exact PlannedOp.balanced_completeOp (.cash source.claimKey_ledger rfl)
  cases event with
  | requested source =>
    cases h
    intro op hop
    obtain rfl := List.mem_singleton.mp hop
    exact PlannedOp.balanced_reserveOp (.cash source.claimKey_ledger rfl)
  | dispatched source n ad am f =>
    simp only [planWithdrawal] at h
    cases hn : netOf am f with
    | error e => rw [hn] at h; cases h
    | ok net => rw [hn] at h; cases h; simp [PlannedOp.Balanced, LedgerAction.pairs]
  | settled source n am f tx payee =>
    simp only [planWithdrawal] at h
    cases hn : netOf am f with
    | error e => rw [hn] at h; cases h
    | ok net =>
      rw [hn] at h
      cases h
      intro op hop
      simp only [List.mem_append, List.mem_cons, List.not_mem_nil, or_false] at hop
      rcases hop with (rfl | rfl) | hfee
      · exact PlannedOp.balanced_completeOp (.cash source.claimKey_ledger rfl)
      · exact PlannedOp.balanced_postOp (.cash rfl rfl)
      · split at hfee
        · cases hfee
        · obtain rfl := List.mem_singleton.mp hfee
          exact PlannedOp.balanced_postOp (.cash rfl payee.claimKey_ledger)
  | failed | cancelled => cases h; exact hvoid _ _ _

/-- A subscription's legs are balanced. -/
theorem planSubscription_balanced (a r : Uuid) (event : SubscriptionEvent) :
    ∀ op ∈ planSubscription a r event, op.Balanced := by
  cases event with
  | subscribed u s c n un =>
    simp only [planSubscription, List.forall_mem_cons, List.not_mem_nil, IsEmpty.forall_iff,
      implies_true, and_true]
    exact ⟨PlannedOp.balanced_postOp (.cash rfl rfl),
      PlannedOp.balanced_postOp (.units ⟨rfl, rfl⟩ ⟨rfl, rfl⟩)⟩

/-- A redemption's legs are balanced. -/
theorem planRedemption_balanced (a r : Uuid) (event : RedemptionEvent) :
    ∀ op ∈ planRedemption a r event, op.Balanced := by
  cases event <;>
    simp only [planRedemption, List.forall_mem_cons, List.not_mem_nil, IsEmpty.forall_iff,
      implies_true, and_true]
  case requested => exact PlannedOp.balanced_reserveOp (.units ⟨rfl, rfl⟩ ⟨rfl, rfl⟩)
  case settled =>
    exact ⟨PlannedOp.balanced_completeOp (.units ⟨rfl, rfl⟩ ⟨rfl, rfl⟩),
      PlannedOp.balanced_postOp (.cash rfl rfl)⟩
  case failed | cancelled => exact PlannedOp.balanced_completeOp (.units ⟨rfl, rfl⟩ ⟨rfl, rfl⟩)

/-- A fee's legs are balanced. -/
theorem planFee_balanced (a e r : Uuid) (event : FeeEvent) :
    ∀ op ∈ planFee a e r event, op.Balanced := by
  cases event <;>
    simp only [planFee, List.forall_mem_cons, List.not_mem_nil, IsEmpty.forall_iff, implies_true,
      and_true]
  case charged => exact PlannedOp.balanced_postOp (.units ⟨rfl, rfl⟩ ⟨rfl, rfl⟩)
  case sharesSettled =>
    exact ⟨PlannedOp.balanced_postOp (.units ⟨rfl, rfl⟩ ⟨rfl, rfl⟩),
      PlannedOp.balanced_postOp (.cash rfl (Party.claimKey_ledger _))⟩

/-- An issuance's leg is balanced. -/
theorem planIssuance_balanced {a r : Uuid} {event : IssuanceEvent} {op : PlannedOp}
    (h : planIssuance a r event = .ok op) : op.Balanced := by
  obtain ⟨service, holder, source, units, nav, basis⟩ := event
  cases source <;> simp only [planIssuance] at h <;>
    cases hk : holder.sharesKey service <;> rw [hk] at h <;> cases h
  case mint.ok k =>
    exact PlannedOp.balanced_postOp (.units (UnitHolder.sharesKey_unitsOf hk) ⟨rfl, rfl⟩)
  case retire.ok k =>
    exact PlannedOp.balanced_postOp (.units ⟨rfl, rfl⟩ (UnitHolder.sharesKey_unitsOf hk))

/-- A book event's legs are balanced. -/
theorem planBook_balanced (a r : Uuid) (event : BookEvent) : (planBook a r event).Balanced := by
  cases event with
  | orderPlaced o s u sd l => exact PlannedOp.balanced_postOp (lockLeg_joined s u l)
  | orderReleased o s u sd l =>
    simp only [planBook, releaseLeg_eq]
    exact PlannedOp.balanced_postOp (lockLeg_joined s u l).symm
  | tradeExecuted t s b sl bo so side size notional fee nav payee =>
    intro p hp
    obtain ⟨leg, hleg, rfl⟩ := List.mem_map.mp hp
    simp only [fillLegs, List.mem_append, List.mem_cons, List.not_mem_nil, or_false] at hleg
    rcases hleg with (rfl | rfl) | hfee
    · exact .units ⟨rfl, rfl⟩ ⟨rfl, rfl⟩
    · exact .cash rfl rfl
    · split at hfee
      · cases hfee
      · obtain rfl := List.mem_singleton.mp hfee
        cases side <;> exact .cash rfl payee.claimKey_ledger

/-- A payment's legs are balanced. -/
theorem planPayment_balanced (a r : Uuid) (event : PaymentEvent) :
    ∀ op ∈ planPayment a r event, op.Balanced := by
  cases event <;>
    simp only [planPayment, List.forall_mem_cons, List.not_mem_nil, IsEmpty.forall_iff,
      implies_true, and_true]
  case reserved source _ => exact PlannedOp.balanced_reserveOp (.cash source.claimKey_ledger rfl)
  case settled source target _ =>
    exact ⟨PlannedOp.balanced_completeOp (.cash source.claimKey_ledger rfl),
      PlannedOp.balanced_postOp (.cash rfl target.claimKey_ledger)⟩
  case released source _ => exact PlannedOp.balanced_completeOp (.cash source.claimKey_ledger rfl)

/-- A hold's legs are balanced. -/
theorem planHold_balanced (a r : Uuid) (event : HoldEvent) : (planHold a r event).Balanced := by
  cases event with
  | placed => exact PlannedOp.balanced_reserveOp (.cash rfl rfl)
  | released =>
    intro p hp
    obtain rfl := List.mem_singleton.mp hp
    exact .cash rfl rfl
  | captured h s u v rel held am target =>
    intro p hp
    simp only [planHold, LedgerAction.pairs, List.map_append, List.map_cons, List.map_nil,
      List.mem_append, List.mem_cons, List.not_mem_nil, or_false] at hp
    rcases hp with (rfl | rfl) | hrest
    · exact .cash rfl rfl
    · exact .cash rfl (captureKey_ledger s target)
    · split at hrest
      · cases hrest
      · obtain rfl := List.mem_singleton.mp hrest
        exact .cash rfl rfl

/-- A payout's legs are balanced. -/
theorem planPayout_balanced {a r : Uuid} {event : ScopePayoutEvent} {op : PlannedOp}
    (h : planPayout a r event = .ok op) : op.Balanced := by
  obtain ⟨scope, label, lines⟩ := event
  simp only [planPayout] at h
  split at h <;> cases h
  intro p hp
  obtain ⟨leg, hleg, rfl⟩ := List.mem_map.mp hp
  obtain ⟨⟨line, n⟩, -, rfl⟩ := List.mem_map.mp hleg
  exact .cash rfl rfl

/-- **Every planned transfer is balanced**, whatever the event. -/
theorem plan_balanced {row : OutboxRow} {ops : List PlannedOp} (h : plan row = .ok ops) :
    ∀ op ∈ ops, op.Balanced := by
  have hone : ∀ op : PlannedOp, op.Balanced → ∀ op' ∈ [op], op'.Balanced := by
    intro op hop op' hop'
    exact List.mem_singleton.mp hop' ▸ hop
  unfold plan at h
  cases hp : row.payload <;> rw [hp] at h <;> dsimp only at h
  case balance event =>
    cases h
    cases event with
    | deposited party => exact hone _ (PlannedOp.balanced_postOp (.cash rfl party.claimKey_ledger))
  case withdrawals event => exact planWithdrawal_balanced h
  case subscriptions event => cases h; exact planSubscription_balanced _ _ event
  case redemptions event => cases h; exact planRedemption_balanced _ _ event
  case fees event => cases h; exact planFee_balanced _ _ _ event
  case issuances event =>
    cases ho : planIssuance row.aggregateId row.aggregateId event <;> rw [ho] at h <;> cases h
    exact hone _ (planIssuance_balanced ho)
  case book event => cases h; exact hone _ (planBook_balanced _ _ event)
  case payments event => cases h; exact planPayment_balanced _ _ event
  case compartments event =>
    cases h
    cases event with
    | moved u source target =>
      exact hone _ (PlannedOp.balanced_postOp
        (.cash (source.claimKey_ledger u) (target.claimKey_ledger u)))
  case scopeLedger event =>
    cases h
    cases event with
    | transferred => exact hone _ (PlannedOp.balanced_postOp (.cash rfl rfl))
  case scopeHolds event => cases h; exact hone _ (planHold_balanced _ _ event)
  case scopePayouts event =>
    cases ho : planPayout row.aggregateId row.aggregateId event <;> rw [ho] at h <;> cases h
    exact hone _ (planPayout_balanced ho)
  case scopeInvoices event =>
    cases h
    cases event with
    | paid scope label amount payer source version =>
      exact hone _ (PlannedOp.balanced_postOp (.cash (source.claimKey_ledger payer) rfl))
    | created | cancelled | expired | paymentFailed => exact fun _ hop => nomatch hop
  case scopeCharges event =>
    cases h
    cases event with
    | charged => exact hone _ (PlannedOp.balanced_postOp (.cash rfl rfl))
  case undecodable => cases h
  case other => cases h; exact fun _ hop => nomatch hop

/-! ## Runs of planned operations -/

/-- **A run of the planned legs**: from the empty ledger, any operation of any row that plans,
submitted any number of times in any order; each write is applied or refused as the ledger
decides. -/
inductive LegRun : Books → Prop
  | empty : LegRun TwoPhase.Ledger.empty
  | step {L : Books} {row : OutboxRow} {ops : List PlannedOp} {op : PlannedOp} {call : LedgerCall} :
      LegRun L → plan row = .ok ops → op ∈ ops → op.action.call? = some call →
      LegRun (call.run L).2

/-- Every accepted transfer joins two accounts that may be joined. -/
def Books.Balanced (L : Books) : Prop := ∀ e ∈ L.entries, Joined e.legs.debit e.legs.credit

/-- The accounts an action's transfers name are the accounts its write submits. -/
theorem LedgerAction.request_pair {action : LedgerAction} {call : LedgerCall}
    (h : action.call? = some call) {r : TransferRequest} (hr : r ∈ call.requests) :
    (r.transfer.debit, r.transfer.credit) ∈ action.pairs := by
  have hcomplete : ∀ c : PendingCompletion, c.request.transfer.debit = c.debit ∧
      c.request.transfer.credit = c.credit := by
    intro c
    unfold PendingCompletion.request
    cases c.kind <;> exact ⟨rfl, rfl⟩
  cases action <;> cases h
  case post t | reserve t => obtain rfl := List.mem_singleton.mp hr; exact List.mem_singleton.mpr rfl
  case postLinked ts =>
    obtain ⟨t, ht, rfl⟩ := List.mem_map.mp hr
    exact List.mem_map.mpr ⟨t, ht, rfl⟩
  case complete c =>
    obtain rfl := List.mem_singleton.mp hr
    exact List.mem_singleton.mpr (by rw [(hcomplete c).1, (hcomplete c).2])
  case linked legs =>
    obtain ⟨leg, hleg, rfl⟩ := List.mem_map.mp hr
    refine List.mem_map.mpr ⟨leg, hleg, ?_⟩
    cases leg with
    | post t | reserve t => rfl
    | complete c => simp only [LinkedLeg.request, hcomplete c]

/-- One accepted transfer between joined accounts keeps the books balanced; a completion moves value
between the accounts of its pending transfer, which is on the books. -/
theorem Books.Balanced.push {L : Books} (h : Books.Balanced L) {r : TransferRequest}
    (hr : Joined r.transfer.debit r.transfer.credit) (hc : L.check r = .created) :
    Books.Balanced (L.push (L.entryOf r)) := by
  have hfound : ∀ p : LedgerTransfer, L.find p.id = some (.pending p) → Joined p.debit p.credit :=
    fun p hp => h _ (TwoPhase.Ledger.find_mem hp).1
  intro e he
  rcases List.mem_cons.mp he with rfl | he
  · have hacc := (TwoPhase.Ledger.accepts_of_check hc).2
    cases r with
    | post t | reserve t => exact hr
    | settle p t | void p t => exact hfound _ hacc.1
  · exact h e he

/-- A write of balanced transfers keeps the books balanced, however it ends. -/
theorem Books.Balanced.run {L : Books} (h : Books.Balanced L) {call : LedgerCall}
    (hcall : ∀ r ∈ call.requests, Joined r.transfer.debit r.transfer.credit) :
    Books.Balanced (call.run L).2 := by
  refine LedgerCall.run_invariant (fun L r hr hL hc => ?_) (fun _ _ _ hL => hL) h
  exact hL.push (hcall r hr) hc

/-- Every run leaves balanced books. -/
theorem LegRun.balanced {L : Books} (h : LegRun L) : Books.Balanced L := by
  induction h with
  | empty => exact fun _ he => nomatch he
  | step _ hplan hop hcall ih =>
    exact ih.run fun r hr => plan_balanced hplan _ hop _ (LedgerAction.request_pair hcall hr)

/-! ## Totals -/

/-- An on-chain custody wallet. -/
def LedgerAccountKey.isCustody : LedgerAccountKey → Bool
  | .cryptoWallet _ => true
  | _ => false

/-- A claim against the custody: every other account of the USDT ledger. -/
def LedgerAccountKey.isClaim (k : LedgerAccountKey) : Bool := k.ledger = .usdt ∧ ¬ k.isCustody

/-- A holding of units of `s`: a user's, their escrowed ones, or the fee class. -/
def LedgerAccountKey.holds (s : ServiceId) : LedgerAccountKey → Bool
  | .userShares s' _ | .bookShares s' _ | .feeShares s' => s' = s
  | _ => false

/-- The sum of the balances of the accounts of `S` satisfying `p`. -/
def Books.total (L : Books) (S : Finset LedgerAccountKey) (p : LedgerAccountKey → Bool) : Int :=
  ∑ k ∈ S with p k, L.balance k

/-- The balance of an account is its posted net, on its natural side. -/
theorem balance_eq_net (L : Books) (k : LedgerAccountKey) :
    L.balance k = match k.normal with | .debit => L.net k | .credit => -L.net k := by
  unfold TwoPhase.Ledger.balance TwoPhase.Ledger.net
  rw [chart_normal]
  cases k.normal <;> simp

/-- Over a class of accounts that transfers never cross, the balances of the debit-normal accounts
equal those of the credit-normal ones. -/
theorem Books.Balanced.sides {L : Books} (h : Books.Balanced L) {S : Finset LedgerAccountKey}
    (hS : L.accounts ⊆ S) (p : LedgerAccountKey → Bool)
    (hp : ∀ d c, Joined d c → (p d = true ↔ p c = true)) :
    L.total S (fun k => p k && k.normal = .debit) =
      L.total S (fun k => p k && k.normal = .credit) := by
  have hzero : ∑ k ∈ S with p k, L.net k = 0 := by
    refine L.net_sum_eq_zero _ fun e he => ?_
    have hmem : ∀ k, k = e.legs.debit ∨ k = e.legs.credit → k ∈ S :=
      fun k hk => hS (TwoPhase.Ledger.mem_accounts.mpr ⟨e, he, hk⟩)
    simp only [Finset.mem_filter, hmem _ (.inl rfl), hmem _ (.inr rfl), true_and]
    exact hp _ _ (h e he)
  have hsplit : ∑ k ∈ S with p k, L.net k =
      L.total S (fun k => p k && k.normal = .debit) -
        L.total S (fun k => p k && k.normal = .credit) := by
    simp only [Books.total, Finset.sum_filter]
    rw [← Finset.sum_sub_distrib]
    refine Finset.sum_congr rfl fun k _ => ?_
    rw [balance_eq_net]
    cases hpk : p k <;> cases hn : k.normal <;> simp
  omega

/-- **Cash conservation**: total custody equals the sum of all claims on the USDT ledger. -/
theorem Books.Balanced.custody_eq_claims {L : Books} (h : Books.Balanced L)
    {S : Finset LedgerAccountKey} (hS : L.accounts ⊆ S) :
    L.total S LedgerAccountKey.isCustody = L.total S LedgerAccountKey.isClaim := by
  have hsides := h.sides hS (fun k => k.ledger = .usdt) fun d c hdc => by simp [hdc.1]
  convert hsides using 2 <;> funext k <;>
    cases k <;> rfl

/-- **Unit conservation**: an allocation's units outstanding equal the units held of it. -/
theorem Books.Balanced.outstanding_eq_held {L : Books} (h : Books.Balanced L) (s : ServiceId)
    {S : Finset LedgerAccountKey} (hS : L.accounts ⊆ S) :
    L.balance (.sharesOutstanding s) = L.total S (LedgerAccountKey.holds s) := by
  have hsides := h.sides (hS.trans (Finset.subset_insert (.sharesOutstanding s) S))
    (fun k => k.allocation = some s) fun d c hdc => by simp [hdc.2]
  have hheld : L.total (insert (.sharesOutstanding s) S)
      (fun k => k.allocation = some s && k.normal = .debit) =
        L.total S (LedgerAccountKey.holds s) := by
    unfold Books.total
    congr 1
    ext k
    simp only [Finset.mem_filter, Finset.mem_insert]
    cases k <;> simp [LedgerAccountKey.allocation, LedgerAccountKey.normal, LedgerAccountKey.holds]
  have hout : L.total (insert (.sharesOutstanding s) S)
      (fun k => k.allocation = some s && k.normal = .credit) =
        L.balance (.sharesOutstanding s) := by
    unfold Books.total
    rw [Finset.sum_eq_single (.sharesOutstanding s)]
    · intro k hk hne
      cases k <;>
        simp_all [LedgerAccountKey.allocation, LedgerAccountKey.normal, Finset.mem_filter]
    · exact fun hk => absurd (Finset.mem_filter.mpr ⟨Finset.mem_insert_self _ _, by
        simp [LedgerAccountKey.allocation, LedgerAccountKey.normal]⟩) hk
  rw [← hout, ← hheld, hsides]

/-- **Chart-of-accounts conservation.** Every transfer a planned event submits debits and credits
accounts of one ledger and, on the Share ledger, of one allocation; and over every run of the
planned legs from an empty ledger, whatever finite set of accounts covers the ones touched, total
custody equals the sum of all claims on the USDT ledger and every allocation's units outstanding
equal the sum of its holdings. -/
theorem chart_conservation :
    (∀ (row : OutboxRow) (ops : List PlannedOp), plan row = .ok ops →
      ∀ op ∈ ops, ∀ p ∈ op.action.pairs, p.1.ledger = p.2.ledger ∧
        (p.1.ledger = .share → ∃ s, p.1.allocation = some s ∧ p.2.allocation = some s)) ∧
    ∀ L : Books, LegRun L → ∀ S : Finset LedgerAccountKey, L.accounts ⊆ S →
      L.total S LedgerAccountKey.isCustody = L.total S LedgerAccountKey.isClaim ∧
      ∀ s, L.balance (.sharesOutstanding s) = L.total S (LedgerAccountKey.holds s) := by
  refine ⟨fun row ops hplan op hop p hp => ?_, fun L hL S hS => ?_⟩
  · obtain ⟨hledger, halloc⟩ := plan_balanced hplan op hop p hp
    refine ⟨hledger, fun hshare => ?_⟩
    have hsome : ∃ s, p.1.allocation = some s := by
      cases hk : p.1 <;> rw [hk] at hshare <;>
        first | exact ⟨_, rfl⟩ | cases hshare
    obtain ⟨s, hs⟩ := hsome
    exact ⟨s, hs, halloc ▸ hs⟩
  · exact ⟨hL.balanced.custody_eq_claims hS, fun s => hL.balanced.outstanding_eq_held s hS⟩

end Banking
