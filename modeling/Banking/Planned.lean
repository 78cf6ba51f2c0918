import Banking.Gateway

/-! # What a plan's transfers carry

Every transfer an outbox row plans is filed under the row's aggregate, takes an id derived from it
(or the event's own id), and completes no reservation but the aggregate's own. So the rows of other
aggregates leave an aggregate's transfers alone. -/

namespace Banking

open TwoPhase (Request)

/-! ## Ownership -/

/-- A request is the business of the aggregate `a` and the event `ev`: its id is derived from them,
it is filed under `a`, and what it completes was reserved by `a`. -/
def OwnedBy (a ev : Uuid) (r : TransferRequest) : Prop :=
  (r.id = ev ∨ ∃ salt, r.id = tid a salt) ∧ r.transfer.tag.reference = a ∧
    ∀ p, r.completes = some p → ∃ salt, p = tid a salt

@[simp] theorem requests_postOp (role : Role) (t : LedgerTransfer) :
    (postOp role t).requests = [.post t] := rfl

@[simp] theorem requests_reserveOp (role : Role) (t : LedgerTransfer) :
    (reserveOp role t).requests = [.reserve t] := rfl

@[simp] theorem requests_completeOp (role : Role) (c : PendingCompletion) :
    (completeOp role c).requests = [c.request] := rfl

/-- A posted leg under a derived id. -/
theorem OwnedBy.post {a ev : Uuid} {salt : String} {d c : LedgerAccountKey} {n : Nat}
    {code : TransferCode} : OwnedBy a ev (.post (legOf (tid a salt) d c n code a)) :=
  ⟨.inr ⟨salt, rfl⟩, rfl, fun _ h => nomatch h⟩

/-- A posted leg under the event's own id. -/
theorem OwnedBy.postEvent {a ev : Uuid} {d c : LedgerAccountKey} {n : Nat} {code : TransferCode} :
    OwnedBy a ev (.post (legOf ev d c n code a)) :=
  ⟨.inl rfl, rfl, fun _ h => nomatch h⟩

/-- A reservation under a derived id. -/
theorem OwnedBy.reserve {a ev : Uuid} {salt : String} {d c : LedgerAccountKey} {n : Nat}
    {code : TransferCode} : OwnedBy a ev (.reserve (legOf (tid a salt) d c n code a)) :=
  ⟨.inr ⟨salt, rfl⟩, rfl, fun _ h => nomatch h⟩

/-- A completion of a derived reservation under a derived id. -/
theorem OwnedBy.complete {a ev : Uuid} {c : PendingCompletion} {salt salt' : String}
    (hid : c.id = tid a salt) (hp : c.pendingId = tid a salt') (href : c.reference = a) :
    OwnedBy a ev c.request := by
  unfold PendingCompletion.request
  cases c.kind with
  | post => exact ⟨.inr ⟨salt, hid⟩, href, fun p h => ⟨salt', (Option.some.inj h) ▸ hp⟩⟩
  | void => exact ⟨.inr ⟨salt, hid⟩, href, fun p h => ⟨salt', (Option.some.inj h) ▸ hp⟩⟩

/-! ## Kind by kind -/

/-- A property of every request of an operation. -/
def PlannedOp.Each (op : PlannedOp) (P : TransferRequest → Prop) : Prop := ∀ r ∈ op.requests, P r

theorem PlannedOp.each_postOp {role : Role} {t : LedgerTransfer} {P : TransferRequest → Prop} :
    (postOp role t).Each P ↔ P (.post t) := by
  simp [PlannedOp.Each]

theorem PlannedOp.each_reserveOp {role : Role} {t : LedgerTransfer} {P : TransferRequest → Prop} :
    (reserveOp role t).Each P ↔ P (.reserve t) := by
  simp [PlannedOp.Each]

theorem PlannedOp.each_completeOp {role : Role} {c : PendingCompletion}
    {P : TransferRequest → Prop} : (completeOp role c).Each P ↔ P c.request := by
  simp [PlannedOp.Each]

section Kinds

variable {a ev : Uuid}

/-- A withdrawal's legs are its own. -/
theorem planWithdrawal_owned {event : WithdrawalEvent} {ops : List PlannedOp}
    (h : planWithdrawal a a event = .ok ops) : ∀ op ∈ ops, op.Each (OwnedBy a ev) := by
  cases event with
  | requested =>
    cases h
    rw [List.forall_mem_singleton]
    exact PlannedOp.each_reserveOp.mpr .reserve
  | dispatched source n ad am f =>
    simp only [planWithdrawal] at h
    cases hn : netOf am f with
    | error e => rw [hn] at h; cases h
    | ok net => rw [hn] at h; cases h; simp [PlannedOp.Each, PlannedOp.requests, LedgerAction.call?]
  | settled source n am f tx payee =>
    simp only [planWithdrawal] at h
    cases hn : netOf am f with
    | error e => rw [hn] at h; cases h
    | ok net =>
      rw [hn] at h
      cases h
      rw [List.forall_mem_append, List.forall_mem_cons, List.forall_mem_singleton]
      refine ⟨⟨PlannedOp.each_completeOp.mpr (.complete rfl rfl rfl),
        PlannedOp.each_postOp.mpr .post⟩, ?_⟩
      split
      · exact List.forall_mem_nil _
      · rw [List.forall_mem_singleton]
        exact PlannedOp.each_postOp.mpr .post
  | failed | cancelled =>
    cases h
    rw [List.forall_mem_singleton]
    exact PlannedOp.each_completeOp.mpr (.complete rfl rfl rfl)

/-- A subscription's legs are its own. -/
theorem planSubscription_owned (event : SubscriptionEvent) :
    ∀ op ∈ planSubscription a a event, op.Each (OwnedBy a ev) := by
  obtain ⟨user, service, cash, nav, units⟩ := event
  rw [planSubscription, List.forall_mem_cons, List.forall_mem_singleton]
  exact ⟨PlannedOp.each_postOp.mpr .post, PlannedOp.each_postOp.mpr .post⟩

/-- A redemption's legs are its own. -/
theorem planRedemption_owned (event : RedemptionEvent) :
    ∀ op ∈ planRedemption a a event, op.Each (OwnedBy a ev) := by
  cases event with
  | requested =>
    rw [planRedemption, List.forall_mem_singleton]
    exact PlannedOp.each_reserveOp.mpr .reserve
  | settled =>
    rw [planRedemption, List.forall_mem_cons, List.forall_mem_singleton]
    exact ⟨PlannedOp.each_completeOp.mpr (.complete rfl rfl rfl), PlannedOp.each_postOp.mpr .post⟩
  | failed | cancelled =>
    rw [planRedemption, List.forall_mem_singleton]
    exact PlannedOp.each_completeOp.mpr (.complete rfl rfl rfl)

/-- A fee's legs are its own. -/
theorem planFee_owned (event : FeeEvent) :
    ∀ op ∈ planFee a ev a event, op.Each (OwnedBy a ev) := by
  cases event with
  | charged =>
    rw [planFee, List.forall_mem_singleton]
    exact PlannedOp.each_postOp.mpr .postEvent
  | sharesSettled =>
    rw [planFee, List.forall_mem_cons, List.forall_mem_singleton]
    exact ⟨PlannedOp.each_postOp.mpr .post, PlannedOp.each_postOp.mpr .post⟩

/-- An issuance's leg is its own. -/
theorem planIssuance_owned {event : IssuanceEvent} {op : PlannedOp}
    (h : planIssuance a a event = .ok op) : op.Each (OwnedBy a ev) := by
  obtain ⟨service, holder, source, units, nav, basis⟩ := event
  cases source <;> simp only [planIssuance] at h <;>
    cases hk : holder.sharesKey service <;> rw [hk] at h <;> cases h
  case mint.ok | retire.ok => exact PlannedOp.each_postOp.mpr .post

/-- A book event's legs are its own. -/
theorem planBook_owned (event : BookEvent) : (planBook a a event).Each (OwnedBy a ev) := by
  cases event with
  | orderPlaced | orderReleased => exact PlannedOp.each_postOp.mpr .post
  | tradeExecuted t s b sl bo so side size notional fee nav payee =>
    intro r hr
    obtain ⟨leg, hleg, rfl⟩ := List.mem_map.mp hr
    simp only [fillLegs, List.mem_append, List.mem_cons, List.not_mem_nil, or_false] at hleg
    rcases hleg with (rfl | rfl) | hfee
    · exact .post
    · exact .post
    · split at hfee
      · cases hfee
      · obtain rfl := List.mem_singleton.mp hfee
        exact .post

/-- A payment's legs are its own. -/
theorem planPayment_owned (event : PaymentEvent) :
    ∀ op ∈ planPayment a a event, op.Each (OwnedBy a ev) := by
  cases event with
  | reserved =>
    rw [planPayment, List.forall_mem_singleton]
    exact PlannedOp.each_reserveOp.mpr .reserve
  | settled =>
    rw [planPayment, List.forall_mem_cons, List.forall_mem_singleton]
    exact ⟨PlannedOp.each_completeOp.mpr (.complete rfl rfl rfl), PlannedOp.each_postOp.mpr .post⟩
  | released =>
    rw [planPayment, List.forall_mem_singleton]
    exact PlannedOp.each_completeOp.mpr (.complete rfl rfl rfl)
  | opened | approvalRecorded | approved | executed | executionFailed | rejected | expired
  | cancelled => exact List.forall_mem_nil _

/-- A hold's void is its own. -/
theorem holdVoid_owned (scope : ScopeId) (user : UserId) (version released : Nat) (held : Nat) :
    OwnedBy a ev (holdVoid a a scope user version released held).request := by
  have hid : (holdVoid a a scope user version released held).id =
      tid a (HOLD_VOID ++ toString version) := rfl
  exact .complete hid rfl rfl

/-- A hold's legs are its own. -/
theorem planHold_owned (event : HoldEvent) : (planHold a a event).Each (OwnedBy a ev) := by
  cases event with
  | placed => exact PlannedOp.each_reserveOp.mpr .reserve
  | released =>
    intro r hr
    obtain rfl := List.mem_singleton.mp hr
    exact holdVoid_owned _ _ _ _ _
  | captured h s u v rel held am target =>
    intro r hr
    obtain ⟨leg, hleg, rfl⟩ := List.mem_map.mp hr
    simp only [List.mem_append, List.mem_cons, List.not_mem_nil, or_false] at hleg
    rcases hleg with (rfl | rfl) | hrest
    · exact holdVoid_owned _ _ _ _ _
    · exact .post
    · split at hrest
      · cases hrest
      · obtain rfl := List.mem_singleton.mp hrest
        exact .reserve

/-- A payout's legs are its own. -/
theorem planPayout_owned {event : ScopePayoutEvent} {op : PlannedOp}
    (h : planPayout a a event = .ok op) : op.Each (OwnedBy a ev) := by
  obtain ⟨scope, label, lines⟩ := event
  simp only [planPayout] at h
  split at h <;> cases h
  intro r hr
  obtain ⟨leg, hleg, rfl⟩ := List.mem_map.mp hr
  obtain ⟨⟨line, n⟩, -, rfl⟩ := List.mem_map.mp hleg
  exact .post

end Kinds

/-- **A row's transfers are its aggregate's own**, whatever the event. -/
theorem plan_owned {row : OutboxRow} {ops : List PlannedOp} (h : plan row = .ok ops) :
    ∀ op ∈ ops, op.Each (OwnedBy row.aggregateId row.eventId) := by
  unfold plan at h
  cases hp : row.payload <;> rw [hp] at h <;> dsimp only at h
  case balance event =>
    cases h
    rw [List.forall_mem_singleton]
    exact PlannedOp.each_postOp.mpr .postEvent
  case withdrawals event => exact planWithdrawal_owned h
  case subscriptions event => cases h; exact planSubscription_owned event
  case redemptions event => cases h; exact planRedemption_owned event
  case fees event => cases h; exact planFee_owned event
  case issuances event =>
    cases ho : planIssuance row.aggregateId row.aggregateId event <;> rw [ho] at h <;> cases h
    rw [List.forall_mem_singleton]
    exact planIssuance_owned ho
  case book event => cases h; rw [List.forall_mem_singleton]; exact planBook_owned event
  case payments event => cases h; exact planPayment_owned event
  case compartments event | scopeLedger event | scopeCharges event =>
    cases h
    rw [List.forall_mem_singleton]
    exact PlannedOp.each_postOp.mpr .post
  case scopeHolds event => cases h; rw [List.forall_mem_singleton]; exact planHold_owned event
  case scopePayouts event =>
    cases ho : planPayout row.aggregateId row.aggregateId event <;> rw [ho] at h <;> cases h
    rw [List.forall_mem_singleton]
    exact planPayout_owned ho
  case scopeInvoices event =>
    cases h
    cases event with
    | paid => exact (List.forall_mem_singleton).mpr (PlannedOp.each_postOp.mpr .post)
    | created | cancelled | expired | paymentFailed => exact List.forall_mem_nil _
  case undecodable => cases h
  case other => cases h; exact List.forall_mem_nil _

/-! ## Where reservations wait -/

/-- Where the relay's reservations wait: clearing, or the units to be burned. -/
def ReservedInto (k : LedgerAccountKey) : Prop :=
  k = .withdrawalClearing ∨ k = .holdClearing ∨ ∃ s u, k = .userShares s u

/-- A request that, if it is a reservation, waits in clearing or on units. -/
def Reserves (r : TransferRequest) : Prop := ∀ t, r = .reserve t → ReservedInto t.credit

theorem Reserves.post (t : LedgerTransfer) : Reserves (.post t) := fun _ h => nomatch h

theorem Reserves.complete (c : PendingCompletion) : Reserves c.request := by
  intro t h
  unfold PendingCompletion.request at h
  split at h <;> cases h

theorem Reserves.reserve {t : LedgerTransfer} (h : ReservedInto t.credit) :
    Reserves (.reserve t) := by
  rintro _ ⟨⟩
  exact h

/-- **Every reservation of a plan waits in clearing, or on the units it burns.** -/
theorem plan_reserves {row : OutboxRow} {ops : List PlannedOp} (h : plan row = .ok ops) :
    ∀ op ∈ ops, op.Each Reserves := by
  have hpost : ∀ role t, (postOp role t).Each Reserves :=
    fun _ t => PlannedOp.each_postOp.mpr (.post t)
  have hcomplete : ∀ role c, (completeOp role c).Each Reserves :=
    fun _ c => PlannedOp.each_completeOp.mpr (.complete c)
  have hposts : ∀ role i ts, (⟨role, i, .postLinked ts⟩ : PlannedOp).Each Reserves := by
    intro role i ts r hr
    obtain ⟨t, -, rfl⟩ := List.mem_map.mp hr
    exact .post t
  unfold plan at h
  cases hp : row.payload <;> rw [hp] at h <;> dsimp only at h
  case balance event => cases h; exact List.forall_mem_singleton.mpr (hpost _ _)
  case withdrawals event =>
    cases event with
    | requested =>
      cases h
      exact List.forall_mem_singleton.mpr (PlannedOp.each_reserveOp.mpr (.reserve (.inl rfl)))
    | dispatched source n ad am f =>
      simp only [planWithdrawal] at h
      cases hn : netOf am f <;> rw [hn] at h <;> cases h
      simp [PlannedOp.Each, PlannedOp.requests, LedgerAction.call?]
    | settled source n am f tx payee =>
      simp only [planWithdrawal] at h
      cases hn : netOf am f <;> rw [hn] at h <;> cases h
      intro op hop
      rcases List.mem_append.mp hop with hop | hop
      · rcases List.mem_cons.mp hop with rfl | hop
        · exact hcomplete _ _
        · rw [List.mem_singleton.mp hop]
          exact hpost _ _
      · split at hop
        · cases hop
        · rw [List.mem_singleton.mp hop]
          exact hpost _ _
    | failed | cancelled => cases h; exact List.forall_mem_singleton.mpr (hcomplete _ _)
  case subscriptions event =>
    cases h
    exact List.forall_mem_cons.mpr ⟨hpost _ _, List.forall_mem_singleton.mpr (hpost _ _)⟩
  case redemptions event =>
    cases h
    cases event with
    | requested =>
      exact List.forall_mem_singleton.mpr
        (PlannedOp.each_reserveOp.mpr (.reserve (.inr (.inr ⟨_, _, rfl⟩))))
    | settled =>
      exact List.forall_mem_cons.mpr ⟨hcomplete _ _, List.forall_mem_singleton.mpr (hpost _ _)⟩
    | failed | cancelled => exact List.forall_mem_singleton.mpr (hcomplete _ _)
  case fees event =>
    cases h
    cases event with
    | charged => exact List.forall_mem_singleton.mpr (hpost _ _)
    | sharesSettled =>
      exact List.forall_mem_cons.mpr ⟨hpost _ _, List.forall_mem_singleton.mpr (hpost _ _)⟩
  case issuances event =>
    obtain ⟨service, holder, source, units, nav, cost⟩ := event
    cases source <;> simp only [planIssuance] at h <;>
      cases hk : holder.sharesKey service <;> rw [hk] at h <;> cases h <;>
      exact List.forall_mem_singleton.mpr (hpost _ _)
  case book event =>
    cases h
    cases event with
    | orderPlaced => exact List.forall_mem_singleton.mpr (hpost _ _)
    | tradeExecuted => exact List.forall_mem_singleton.mpr (hposts _ _ _)
    | orderReleased => exact List.forall_mem_singleton.mpr (hpost _ _)
  case payments event =>
    cases h
    cases event with
    | reserved =>
      exact List.forall_mem_singleton.mpr (PlannedOp.each_reserveOp.mpr (.reserve (.inl rfl)))
    | settled =>
      exact List.forall_mem_cons.mpr ⟨hcomplete _ _, List.forall_mem_singleton.mpr (hpost _ _)⟩
    | released => exact List.forall_mem_singleton.mpr (hcomplete _ _)
    | _ => exact List.forall_mem_nil _
  case compartments event | scopeLedger event | scopeCharges event =>
    cases h
    exact List.forall_mem_singleton.mpr (hpost _ _)
  case scopeHolds event =>
    cases h
    refine List.forall_mem_singleton.mpr ?_
    have hreserve : ∀ holdId reference scope user version amount,
        Reserves (.reserve (holdReservation holdId reference scope user version amount)) :=
      fun _ _ _ _ _ _ => .reserve (.inr (.inl rfl))
    cases event with
    | placed => exact PlannedOp.each_reserveOp.mpr (hreserve _ _ _ _ _ _)
    | captured id scope user version released held amount target =>
      intro r hr
      obtain ⟨leg, hleg, rfl⟩ := List.mem_map.mp hr
      rcases List.mem_append.mp hleg with hleg | hleg
      · rcases List.mem_cons.mp hleg with rfl | hleg
        · exact Reserves.complete (holdVoid _ _ _ _ _ _ _)
        · rw [List.mem_singleton.mp hleg]
          exact .post _
      · split at hleg
        · cases hleg
        · rw [List.mem_singleton.mp hleg]
          exact hreserve _ _ _ _ _ _
    | released =>
      intro r hr
      obtain ⟨leg, hleg, rfl⟩ := List.mem_map.mp hr
      rw [List.mem_singleton.mp hleg]
      exact Reserves.complete (holdVoid _ _ _ _ _ _ _)
  case scopePayouts event =>
    obtain ⟨scope, label, lines⟩ := event
    simp only [planPayout] at h
    split at h <;> cases h
    exact List.forall_mem_singleton.mpr (hposts _ _ _)
  case scopeInvoices event =>
    cases h
    cases event with
    | paid => exact List.forall_mem_singleton.mpr (hpost _ _)
    | _ => exact List.forall_mem_nil _
  case undecodable => cases h
  case other => cases h; exact List.forall_mem_nil _

/-! ## Who files scope transfers -/

/-- A request filed under no scope transfer's code. -/
def Unscoped (r : TransferRequest) : Prop := r.transfer.tag.code ≠ .scopeTransfer

theorem Unscoped.complete {c : PendingCompletion} (h : c.code ≠ .scopeTransfer) :
    Unscoped c.request := by
  unfold PendingCompletion.request
  cases c.kind with
  | post | void => exact h

/-- **No other event files a transfer as a scope transfer's.** -/
theorem plan_unscoped {row : OutboxRow} {ops : List PlannedOp} (h : plan row = .ok ops)
    (hkind : row.payload.kind ≠ some .scopeLedger) : ∀ op ∈ ops, op.Each Unscoped := by
  have hpost : ∀ role t, t.tag.code ≠ .scopeTransfer → (postOp role t).Each Unscoped :=
    fun _ _ hc => PlannedOp.each_postOp.mpr hc
  have hreserve : ∀ role t, t.tag.code ≠ .scopeTransfer → (reserveOp role t).Each Unscoped :=
    fun _ _ hc => PlannedOp.each_reserveOp.mpr hc
  have hcomplete : ∀ role c, c.code ≠ .scopeTransfer → (completeOp role c).Each Unscoped :=
    fun _ _ hc => PlannedOp.each_completeOp.mpr (.complete hc)
  have hposts : ∀ role i ts, (∀ t ∈ ts, t.tag.code ≠ .scopeTransfer) →
      (⟨role, i, .postLinked ts⟩ : PlannedOp).Each Unscoped := by
    intro role i ts hts r hr
    obtain ⟨t, ht, rfl⟩ := List.mem_map.mp hr
    exact hts t ht
  unfold plan at h
  cases hp : row.payload <;> rw [hp] at h hkind <;> dsimp only at h
  case balance event => cases h; exact List.forall_mem_singleton.mpr (hpost _ _ nofun)
  case withdrawals event =>
    cases event with
    | requested => cases h; exact List.forall_mem_singleton.mpr (hreserve _ _ nofun)
    | dispatched source n ad am f =>
      simp only [planWithdrawal] at h
      cases hn : netOf am f <;> rw [hn] at h <;> cases h
      simp [PlannedOp.Each, PlannedOp.requests, LedgerAction.call?]
    | settled source n am f tx payee =>
      simp only [planWithdrawal] at h
      cases hn : netOf am f <;> rw [hn] at h <;> cases h
      rw [List.forall_mem_append, List.forall_mem_cons, List.forall_mem_singleton]
      refine ⟨⟨hcomplete _ _ nofun, hpost _ _ nofun⟩, ?_⟩
      split
      · exact List.forall_mem_nil _
      · exact List.forall_mem_singleton.mpr (hpost _ _ nofun)
    | failed | cancelled => cases h; exact List.forall_mem_singleton.mpr (hcomplete _ _ nofun)
  case subscriptions event =>
    cases h
    exact List.forall_mem_cons.mpr
      ⟨hpost _ _ nofun, List.forall_mem_singleton.mpr (hpost _ _ nofun)⟩
  case redemptions event =>
    cases h
    cases event with
    | requested => exact List.forall_mem_singleton.mpr (hreserve _ _ nofun)
    | settled =>
      exact List.forall_mem_cons.mpr
        ⟨hcomplete _ _ nofun, List.forall_mem_singleton.mpr (hpost _ _ nofun)⟩
    | failed | cancelled => exact List.forall_mem_singleton.mpr (hcomplete _ _ nofun)
  case fees event =>
    cases h
    cases event with
    | charged => exact List.forall_mem_singleton.mpr (hpost _ _ nofun)
    | sharesSettled =>
      exact List.forall_mem_cons.mpr
        ⟨hpost _ _ nofun, List.forall_mem_singleton.mpr (hpost _ _ nofun)⟩
  case issuances event =>
    obtain ⟨service, holder, source, units, nav, cost⟩ := event
    cases source <;> simp only [planIssuance] at h <;>
      cases hk : holder.sharesKey service <;> rw [hk] at h <;> cases h <;>
      exact List.forall_mem_singleton.mpr (hpost _ _ nofun)
  case book event =>
    cases h
    cases event with
    | orderPlaced => exact List.forall_mem_singleton.mpr (hpost _ _ nofun)
    | orderReleased => exact List.forall_mem_singleton.mpr (hpost _ _ nofun)
    | tradeExecuted =>
      refine List.forall_mem_singleton.mpr (hposts _ _ _ ?_)
      unfold fillLegs
      rw [List.forall_mem_append, List.forall_mem_cons, List.forall_mem_singleton]
      refine ⟨⟨nofun, nofun⟩, ?_⟩
      split
      · exact List.forall_mem_nil _
      · exact List.forall_mem_singleton.mpr nofun
  case payments event =>
    cases h
    cases event with
    | reserved => exact List.forall_mem_singleton.mpr (hreserve _ _ nofun)
    | settled =>
      exact List.forall_mem_cons.mpr
        ⟨hcomplete _ _ nofun, List.forall_mem_singleton.mpr (hpost _ _ nofun)⟩
    | released => exact List.forall_mem_singleton.mpr (hcomplete _ _ nofun)
    | _ => exact List.forall_mem_nil _
  case compartments event | scopeCharges event =>
    cases h
    exact List.forall_mem_singleton.mpr (hpost _ _ nofun)
  case scopeLedger event => exact absurd rfl hkind
  case scopeHolds event =>
    cases h
    refine List.forall_mem_singleton.mpr ?_
    have hvoid : ∀ scope user version released held, Unscoped
        (holdVoid row.aggregateId row.aggregateId scope user version released held).request :=
      fun _ _ _ _ _ => .complete nofun
    cases event with
    | placed => exact PlannedOp.each_reserveOp.mpr nofun
    | captured id scope user version released held amount target =>
      intro r hr
      obtain ⟨leg, hleg, rfl⟩ := List.mem_map.mp hr
      rcases List.mem_append.mp hleg with hleg | hleg
      · rcases List.mem_cons.mp hleg with rfl | hleg
        · exact hvoid _ _ _ _ _
        · rw [List.mem_singleton.mp hleg]
          exact nofun
      · split at hleg
        · cases hleg
        · rw [List.mem_singleton.mp hleg]
          exact nofun
    | released =>
      intro r hr
      obtain ⟨leg, hleg, rfl⟩ := List.mem_map.mp hr
      rw [List.mem_singleton.mp hleg]
      exact hvoid _ _ _ _ _
  case scopePayouts event =>
    obtain ⟨scope, label, lines⟩ := event
    simp only [planPayout] at h
    split at h <;> cases h
    refine List.forall_mem_singleton.mpr (hposts _ _ _ fun t ht => ?_)
    obtain ⟨⟨line, n⟩, -, rfl⟩ := List.mem_map.mp ht
    exact nofun
  case scopeInvoices event =>
    cases h
    cases event with
    | paid => exact List.forall_mem_singleton.mpr (hpost _ _ nofun)
    | _ => exact List.forall_mem_nil _
  case undecodable => cases h
  case other => cases h; exact List.forall_mem_nil _

end Banking
