import Banking.BookRuns

/-! # Placing an order once

What the caller's own order id promises. The books only ever grow by orders whose terms stay as they
were placed (`BookHistory.terms`), so an accepted request is found again under its id. But a
placement asks its gates before it looks the id up, and compares no price: a repeat is answered with
the order only while the product would take it anew, and a request at another limit price is taken
for the same. `place_order_repeats` says so exactly. -/

namespace Banking

/-! ## The history of the books -/

/-- **The relay takes an order off the book** whose escrow the ledger refused. -/
def Book.markRejected (b : Book) (id : Uuid) (reason : String) : Book :=
  match b.orders.find? fun o => o.id = id && o.state.isResting with
  | none => b
  | some order =>
    { b.bumpRevision order.service with
      orders := b.orders.map fun o => if o.id = id then o.reject reason else o }

/-- What becomes of the books: a placement, a cancellation, or an order rejected by the relay. -/
inductive BookChange : Book → Book → Prop
  | step {b b' : Book} (h : BookStep b b') : BookChange b b'
  | reject (b : Book) (id : Uuid) (reason : String) : BookChange b (b.markRejected id reason)

/-- Any number of changes. -/
abbrev BookHistory : Book → Book → Prop := Relation.ReflTransGen BookChange

/-- A fill changes no terms, the taker's or any in the table. -/
theorem Book.applyFill_terms {p : BookPolicy} {nav : Nat} {b b' : Book} {taker taker' : Order}
    {fill : Fill} {tradeId : Uuid} (h : b.applyFill p nav taker fill tradeId = .ok (taker', b')) :
    taker'.terms = taker.terms ∧ b'.orders.map Order.terms = b.orders.map Order.terms := by
  obtain ⟨maker, -, -, notional, fee, maker', -, -, -, hfill, rfl⟩ := Book.applyFill_ok h
  refine ⟨Order.fill_terms hfill, ?_⟩
  rw [Book.recordRelease_orders]
  exact Book.store_terms b maker'

/-- Nor do all the fills of a placement. -/
theorem Book.applyFills_terms {p : BookPolicy} {nav : Nat} {mint : Nat → Uuid}
    {fills : List Fill} : ∀ {b b' : Book} {taker taker' : Order},
    b.applyFills p nav mint taker fills = .ok (taker', b') →
    taker'.terms = taker.terms ∧ b'.orders.map Order.terms = b.orders.map Order.terms := by
  induction fills with
  | nil =>
    intro b b' taker taker' h
    obtain ⟨rfl, rfl⟩ := Prod.mk.inj (Except.ok.inj h)
    exact ⟨rfl, rfl⟩
  | cons fill fills ih =>
    intro b b' taker taker' h
    simp only [Book.applyFills, bind_ok_iff] at h
    obtain ⟨⟨taker₁, b₁⟩, hfirst, hrest⟩ := h
    obtain ⟨hterms, horders⟩ := Book.applyFill_terms hfirst
    obtain ⟨hterms', horders'⟩ := ih hrest
    exact ⟨hterms'.trans hterms, horders'.trans horders⟩

/-- **What a placement adds**: nothing, or the terms of its order; the row it answers with is that
order's. -/
theorem Book.place_terms {p : BookPolicy} {nav : Nat} {b b' : Book} {order : Order}
    {covers : Except DomainError Unit} {mint : Nat → Uuid} {result : PlaceOutcome}
    (h : b.place p nav order covers mint = .ok (result, b')) :
    b' = b ∧ (∀ record ts revision, result ≠ .placed record ts revision) ∨
    b'.orders.map Order.terms = b.orders.map Order.terms ++ [order.terms] ∧
      ∃ record ts revision, result = .placed record ts revision ∧ record.terms = order.terms := by
  rcases Book.place_ok h with hsame | ⟨outcome, taker, traded, last, record, ts, revision, -, hnew,
    hfills, hlast, rfl, hrecord, hresult⟩
  · exact .inl hsame
  obtain ⟨htaker, horders⟩ := Book.applyFills_terms hfills
  have hterms : last.terms = order.terms := by
    rcases hlast with rfl | ⟨-, reason, rfl⟩ <;> exact htaker
  have hall : ((traded.store last).recordRelease last).orders.map Order.terms =
      b.orders.map Order.terms ++ [order.terms] := by
    rw [Book.recordRelease_orders, Book.store_terms, horders, List.map_append, List.map_singleton]
  refine .inr ⟨hall, record, ts, revision, hresult, ?_⟩
  -- no other row has the order's id
  obtain ⟨hmem, hid⟩ := Book.loadOrder_ok hrecord
  have hterm : record.terms ∈ b.orders.map Order.terms ++ [order.terms] :=
    hall ▸ List.mem_map.mpr ⟨record, hmem, rfl⟩
  rcases List.mem_append.mp hterm with hold | hself
  · obtain ⟨x, hx, he⟩ := List.mem_map.mp hold
    have hxid : x.id = record.id := (congrArg Order.id he :)
    have hlid : last.id = order.id := (congrArg Order.id hterms :)
    exact absurd (hxid.trans (hid.trans hlid)) (hnew x hx)
  · exact List.mem_singleton.mp hself

/-- A cancellation changes no terms. -/
theorem Book.cancel_terms {b b' : Book} {id : Uuid} {record : Order} {revision : Nat}
    (h : b.cancel id = .ok (record, revision, b')) :
    b'.orders.map Order.terms = b.orders.map Order.terms := by
  simp only [Book.cancel, bind_ok_iff] at h
  obtain ⟨o, -, h⟩ := h
  split at h
  · obtain ⟨-, -, rfl⟩ := Except.ok.inj h
    rfl
  · simp only [bind_ok_iff] at h
    obtain ⟨last, -, stored, hstored, row, -, h⟩ := h
    obtain ⟨-, -, rfl⟩ := Except.ok.inj h
    obtain rfl := Book.updateOrder_ok hstored
    rw [Book.recordRelease_orders]
    exact Book.store_terms (b.bumpRevision last.service) last

/-- **One change keeps every order's terms.** -/
theorem BookChange.terms {b b' : Book} (h : BookChange b b') :
    b.orders.map Order.terms <+: b'.orders.map Order.terms := by
  cases h with
  | step h =>
    cases h with
    | place w seen _ user r id mint _ =>
      unfold placeOrder
      split
      · exact List.prefix_rfl
      · split
        · exact List.prefix_rfl
        · split
          · exact List.prefix_rfl
          · exact List.prefix_rfl
          · dsimp only
            split
            case h_2 hplace =>
              rcases Book.place_terms hplace with ⟨rfl, -⟩ | ⟨hterms, -⟩
              · exact List.prefix_rfl
              · exact hterms ▸ List.prefix_append _ _
            all_goals exact List.prefix_rfl
    | cancel seen _ id user =>
      unfold cancelOrder
      split
      · exact List.prefix_rfl
      · split
        · exact List.prefix_rfl
        · split
          case h_1 => exact List.prefix_rfl
          case h_2 hcancel => exact Book.cancel_terms hcancel ▸ List.prefix_rfl
  | reject id reason =>
    unfold Book.markRejected
    split
    · exact List.prefix_rfl
    · rw [List.map_map]
      have hsame : b.orders.map (Order.terms ∘ fun o => if o.id = id then o.reject reason else o) =
          b.orders.map Order.terms := by
        refine List.map_congr_left fun o _ => ?_
        rw [Function.comp_apply]
        split
        · unfold Order.reject
          split <;> rfl
        · rfl
      exact hsame ▸ List.prefix_rfl

/-- **A history keeps every order's terms.** -/
theorem BookHistory.terms {b b' : Book} (h : BookHistory b b') :
    b.orders.map Order.terms <+: b'.orders.map Order.terms := by
  induction h with
  | refl => exact List.prefix_rfl
  | tail _ hchange ih => exact ih.trans hchange.terms

/-- The order an id names is a matter of terms. -/
theorem Book.findByClientId_terms (b : Book) (user : UserId) (clientOrderId : String) :
    (b.findByClientId user clientOrderId).map Order.terms =
      (b.orders.map Order.terms).find? fun o =>
        o.user = user && o.clientOrderId = clientOrderId := by
  rw [List.find?_map]
  rfl

/-- **What an id names once, it names ever after.** -/
theorem BookHistory.findByClientId {b b' : Book} (h : BookHistory b b') {user : UserId}
    {clientOrderId : String} {o : Order} (ho : b.findByClientId user clientOrderId = some o) :
    ∃ o', b'.findByClientId user clientOrderId = some o' ∧ o'.terms = o.terms := by
  obtain ⟨added, hadded⟩ := h.terms
  have hfind := Book.findByClientId_terms b' user clientOrderId
  rw [← hadded, List.find?_append, ← Book.findByClientId_terms, ho] at hfind
  exact Option.map_eq_some_iff.mp hfind

/-! ## The gates -/

/-- Whether a request's price is one the gates take: of a limit order, positive and on the tick; a
market order names none, is immediate or cancel, and finds a quote that gives it a limit. -/
def Priced (policy : BookPolicy) (quoted : Book) (r : PlaceOrderRequest) : Prop :=
  match r.kind with
  | .limit => ∃ price, r.price = some price ∧ price ≠ 0 ∧ price % policy.priceTick = 0
  | .market => r.price = none ∧ r.tif = .ioc ∧
      ∃ best, quoted.bestPrice r.service r.side.opposite = some best ∧
        ∃ limit, policy.marketLimit r.side best = .ok limit

/-- **The gates a request passes** before its id is looked up: nothing is paused, its owner is not
blocked and may invest, the book is open to trading, and size and price are on the grid. -/
structure Admitted (w : PlaceReads) (quoted : Book) (r : PlaceOrderRequest) : Prop where
  unpaused : w.outflowsPaused = false
  unblocked : w.blocked ≠ some true
  tradable : ∃ backing, w.allocation = some (.invest, backing) ∧
    (w.policy.getD .default).bookOpen = true ∧
    (backing = .inKind → (w.policy.getD .default).allowUnbackedTrading = true)
  sized : r.size ≠ 0 ∧ r.size % (w.policy.getD .default).lotSize = 0
  priced : Priced (w.policy.getD .default) quoted r

/-- Who may trade a product. -/
theorem requireTradable_ok {allocation : Option (AllocationAccess × AllocationBacking)}
    {service : ServiceId} {backing : AllocationBacking} :
    requireTradable allocation service = .ok backing ↔ allocation = some (.invest, backing) := by
  unfold requireTradable
  constructor
  · intro h
    split at h
    · cases h
    · rename_i access _
      split_ifs at h with hview hinvest
      cases access
      · exact absurd hinvest (by decide)
      · exact absurd hinvest (by decide)
      · rw [Except.ok.inj h]
  · rintro rfl
    rfl

/-- When terms placeGates trading. -/
theorem ensureTradableFor_ok {p : BookPolicy} {service : ServiceId} {backing : AllocationBacking} :
    p.ensureTradableFor service backing = .ok () ↔
      p.bookOpen = true ∧ (backing = .inKind → p.allowUnbackedTrading = true) := by
  unfold BookPolicy.ensureTradableFor
  cases p.bookOpen <;> cases backing <;> cases p.allowUnbackedTrading <;> simp

/-- When a size is on the grid. -/
theorem BookPolicy.size_ok {p : BookPolicy} {size : Nat} :
    (∃ s, p.size size = .ok s) ↔ size ≠ 0 ∧ size % p.lotSize = 0 := by
  unfold BookPolicy.size
  by_cases hzero : size = 0
  · simp [hzero]
  · by_cases hlot : size % p.lotSize = 0 <;> simp [hzero, hlot]

/-- When a request's price is taken. -/
theorem orderPrice_ok {p : BookPolicy} {quoted : Book} {r : PlaceOrderRequest} :
    (∃ price, orderPrice p quoted r = .ok price) ↔ Priced p quoted r := by
  unfold orderPrice Priced
  cases r.kind with
  | limit =>
    cases hprice : r.price with
    | none => simp
    | some price =>
      unfold BookPolicy.price
      by_cases hzero : price = 0
      · simp [hzero]
      · by_cases htick : price % p.priceTick = 0 <;> simp [hzero, htick]
  | market =>
    dsimp only
    cases hprice : r.price with
    | some price => simp
    | none =>
      by_cases htif : r.tif = .ioc
      · cases hbest : quoted.bestPrice r.service r.side.opposite <;> simp [htif]
      · simp [htif]

/-- **What passes the gates.** -/
theorem placeGates_ok {w : PlaceReads} {quoted : Book} {r : PlaceOrderRequest} :
    (∃ result, placeGates w quoted r = .ok result) ↔ Admitted w quoted r := by
  unfold placeGates
  constructor
  · rintro ⟨result, h⟩
    split_ifs at h with hpaused hblocked
    simp only [bind_ok_iff] at h
    obtain ⟨backing, hallocation, tradable, htradable, size, hsize, price, hprice, -⟩ := h
    exact ⟨by simpa using hpaused, hblocked,
      ⟨backing, requireTradable_ok.mp hallocation, ensureTradableFor_ok.mp htradable⟩,
      BookPolicy.size_ok.mp ⟨size, hsize⟩, orderPrice_ok.mp ⟨price, hprice⟩⟩
  · rintro ⟨hpaused, hblocked, ⟨backing, hallocation, htradable⟩, hsized, hpriced⟩
    obtain ⟨size, hsize⟩ := BookPolicy.size_ok.mpr hsized
    obtain ⟨price, hprice⟩ := orderPrice_ok.mpr hpriced
    refine ⟨(w.policy.getD .default, price), ?_⟩
    rw [if_neg (by simp [hpaused]), if_neg hblocked, requireTradable_ok.mpr hallocation]
    simp only [bind_ok_iff]
    exact ⟨backing, rfl, (), ensureTradableFor_ok.mpr htradable, size, hsize, price, hprice, rfl⟩

/-- An answer that is no conflict. -/
def NeverConflict {α : Type} (x : Except DomainError α) : Prop :=
  ∀ message, x ≠ .error (.conflict message)

/-- Asking one thing after another. -/
theorem NeverConflict.bind {α β : Type} {x : Except DomainError α} {f : α → Except DomainError β}
    (hx : NeverConflict x) (hf : ∀ a, NeverConflict (f a)) : NeverConflict (x >>= f) := by
  cases x with
  | error e => exact fun message h => hx message (congrArg Except.error (Except.error.inj h))
  | ok a => exact hf a

/-- No price is refused with a conflict. -/
theorem orderPrice_neverConflict (p : BookPolicy) (quoted : Book) (r : PlaceOrderRequest) :
    NeverConflict (orderPrice p quoted r) := by
  have hscale : ∀ price numer denom (align : Nat → Nat), NeverConflict
      ((Price.scale price numer denom).map align) := by
    intro price numer denom align message h
    unfold Price.scale at h
    split at h <;> cases h
  have hlimit : ∀ best, NeverConflict (p.marketLimit r.side best) := by
    intro best
    unfold BookPolicy.marketLimit
    cases r.side with
    | buy | sell =>
      refine NeverConflict.bind (hscale _ _ _ _) fun limit message h => ?_
      dsimp only at h
      split_ifs at h
      cases h
  intro message h
  unfold orderPrice at h
  split at h
  · split at h
    · cases h
    · unfold BookPolicy.price at h
      split_ifs at h <;> cases h
  · split_ifs at h
    · cases h
    · cases h
    split at h
    · cases h
    · exact hlimit _ message h

/-- No gate answers with a conflict. -/
theorem placeGates_neverConflict (w : PlaceReads) (quoted : Book) (r : PlaceOrderRequest) :
    NeverConflict (placeGates w quoted r) := by
  intro message h
  unfold placeGates at h
  split_ifs at h
  · cases h
  · cases h
  revert h
  refine NeverConflict.bind ?_ (fun backing => NeverConflict.bind ?_ fun _ => NeverConflict.bind ?_ fun _ =>
    NeverConflict.bind (orderPrice_neverConflict _ _ _) fun price => ?_) message
  · intro message h
    unfold requireTradable at h
    split at h
    · cases h
    · split_ifs at h <;> cases h
  · intro message h
    unfold BookPolicy.ensureTradableFor at h
    split_ifs at h <;> cases h
  · intro message h
    unfold BookPolicy.size at h
    split_ifs at h <;> cases h
  · exact fun message h => nomatch h

/-! ## Once -/

/-- What two requests ask for alike, as the code compares them: all but the limit price. -/
def PlaceOrderRequest.alike (r r' : PlaceOrderRequest) : Prop :=
  r'.service = r.service ∧ r'.side = r.side ∧ r'.kind = r.kind ∧ r'.tif = r.tif ∧ r'.size = r.size

/-- Whether a row is what a request asks for is a matter of terms. -/
theorem matchesRequest_iff {o : Order} {r r' : PlaceOrderRequest}
    (h : o.matchesRequest r.service r.side r.kind r.tif r.size = true) :
    o.matchesRequest r'.service r'.side r'.kind r'.tif r'.size = true ↔ r.alike r' := by
  simp only [Order.matchesRequest, Bool.and_eq_true, decide_eq_true_eq, PlaceOrderRequest.alike]
    at h ⊢
  obtain ⟨⟨⟨⟨hservice, hside⟩, hkind⟩, htif⟩, hsize⟩ := h
  rw [hservice, hside, hkind, htif, hsize]
  constructor
  · rintro ⟨⟨⟨⟨h₁, h₂⟩, h₃⟩, h₄⟩, h₅⟩
    exact ⟨h₁.symm, h₂.symm, h₃.symm, h₄.symm, h₅.symm⟩
  · rintro ⟨h₁, h₂, h₃, h₄, h₅⟩
    exact ⟨⟨⟨⟨h₁.symm, h₂.symm⟩, h₃.symm⟩, h₄.symm⟩, h₅.symm⟩

/-- An order returned for a request asks for the same thing. -/
theorem sameRequestOrConflict_ok {existing o : Order} {r : PlaceOrderRequest}
    (h : sameRequestOrConflict existing r = .ok o) :
    existing = o ∧ o.matchesRequest r.service r.side r.kind r.tif r.size = true := by
  unfold sameRequestOrConflict at h
  split_ifs at h with hmatch
  rw [← Except.ok.inj h]
  exact ⟨rfl, hmatch⟩

/-- Whether a row is what a request asks for is a matter of terms. -/
theorem Order.matchesRequest_of_terms {o o' : Order} (h : o'.terms = o.terms)
    (service : ServiceId) (side : OrderSide) (kind : OrderKind) (tif : Tif) (size : Nat) :
    o'.matchesRequest service side kind tif size = o.matchesRequest service side kind tif size := by
  have hterms : ∀ x : Order, x.matchesRequest service side kind tif size =
      x.terms.matchesRequest service side kind tif size := fun _ => rfl
  rw [hterms o', h]
  rfl

/-- **What a placement is found by**: where it placed an order, that order. -/
theorem Book.place_found {p : BookPolicy} {nav revision : Nat} {b b' : Book}
    {order record : Order} {covers : Except DomainError Unit} {mint : Nat → Uuid}
    {ts : List Trade}
    (h : b.place p nav order covers mint = .ok (.placed record ts revision, b')) :
    ∃ x, b'.findByClientId order.user order.clientOrderId = some x ∧ x.terms = order.terms ∧
      record.terms = order.terms := by
  rcases Book.place_terms h with ⟨-, hno⟩ | ⟨hterms, record', ts', revision', hresult, hrecord⟩
  · exact absurd rfl (hno _ _ _)
  obtain ⟨rfl, -, -⟩ := PlaceOutcome.placed.inj hresult
  -- the id named nothing before, and the order is the last of the book
  have hnone : b.findByClientId order.user order.clientOrderId = none := by
    unfold Book.place at h
    split at h
    case h_1 => cases h
    case h_2 hnone => exact hnone
  have hfind := Book.findByClientId_terms b' order.user order.clientOrderId
  rw [hterms, List.find?_append, ← Book.findByClientId_terms, hnone] at hfind
  have hself : [order.terms].find? (fun o => o.user = order.user &&
      o.clientOrderId = order.clientOrderId) = some order.terms := by
    rw [List.find?_singleton, if_pos]
    simp [Order.terms]
  rw [hself] at hfind
  obtain ⟨x, hx, hxterms⟩ := Option.map_eq_some_iff.mp hfind
  exact ⟨x, hx, hxterms, hrecord⟩

/-- Where it answers with an order that was there, that is what the id names. -/
theorem Book.place_existing {p : BookPolicy} {nav : Nat} {b b' : Book} {order existing : Order}
    {covers : Except DomainError Unit} {mint : Nat → Uuid}
    (h : b.place p nav order covers mint = .ok (.existing existing, b')) :
    b.findByClientId order.user order.clientOrderId = some existing := by
  unfold Book.place at h
  split at h
  case h_1 found hfound =>
    obtain ⟨hsame, -⟩ := Prod.mk.inj (Except.ok.inj h)
    rw [hfound, PlaceOutcome.existing.inj hsame]
  case h_2 =>
    simp only [bind_ok_iff] at h
    obtain ⟨-, -, h⟩ := h
    split at h
    · cases h
    · simp only [bind_ok_iff] at h
      obtain ⟨_, _, _, _, _, _, _, _, _, _, h⟩ := h
      cases h

/-- **What an accepted request leaves**: its id names the order answered with, whose terms are the
request's. -/
theorem placeOrder_accepted {w : PlaceReads} {quoted seen b b' : Book} {user : UserId}
    {r : PlaceOrderRequest} {id : Uuid} {mint : Nat → Uuid} {o : Order}
    (hseen : BookHistory seen b)
    (h : placeOrder w quoted seen b user r id mint = (.ok o, b')) :
    ∃ x, b'.findByClientId user r.clientOrderId = some x ∧ x.terms = o.terms ∧
      x.matchesRequest r.service r.side r.kind r.tif r.size = true := by
  unfold placeOrder at h
  split at h
  · cases (Prod.mk.inj h).1
  split at h
  case h_1 existing hfind =>
    -- found without the lock
    obtain ⟨hsame, rfl⟩ := Prod.mk.inj h
    obtain ⟨rfl, hmatch⟩ := sameRequestOrConflict_ok hsame
    obtain ⟨x, hx, hterms⟩ := hseen.findByClientId hfind
    exact ⟨x, hx, hterms, (Order.matchesRequest_of_terms hterms ..).trans hmatch⟩
  split at h
  · cases (Prod.mk.inj h).1
  · cases (Prod.mk.inj h).1
  dsimp only at h
  split at h
  · cases (Prod.mk.inj h).1
  case h_2 order' ts revision b₁ hplace =>
    obtain ⟨hrecord, rfl⟩ := Prod.mk.inj h
    obtain rfl := Except.ok.inj hrecord
    obtain ⟨x, hx, hxterms, hoterms⟩ := Book.place_found hplace
    refine ⟨x, hx, hxterms.trans hoterms.symm, (Order.matchesRequest_of_terms hxterms ..).trans ?_⟩
    simp [Order.place, Order.matchesRequest]
  · cases (Prod.mk.inj h).1
  case h_4 existing _ hplace =>
    -- found under the lock
    obtain ⟨hsame, rfl⟩ := Prod.mk.inj h
    obtain ⟨rfl, hmatch⟩ := sameRequestOrConflict_ok hsame
    exact ⟨existing, Book.place_existing hplace, rfl, hmatch⟩

/-- The refusal of a request whose id names another order. -/
def namesAnother (r : PlaceOrderRequest) : DomainError :=
  .conflict ("client order id '" ++ r.clientOrderId ++ "' already names a different order")

/-- **Placing again.** Once a request was accepted, whatever became of the books since: the same
request is answered with its order as it now stands, and changes nothing, exactly if it passes the
gates anew; and another request under its id is refused as a conflict exactly if it passes the gates
and differs in more than its price. -/
theorem place_order_repeats {w₀ : PlaceReads} {quoted₀ seen₀ b₀ b₁ : Book} {user : UserId}
    {r : PlaceOrderRequest} {id₀ : Uuid} {mint₀ : Nat → Uuid} {o : Order}
    (hseen₀ : BookHistory seen₀ b₀)
    (haccepted : placeOrder w₀ quoted₀ seen₀ b₀ user r id₀ mint₀ = (.ok o, b₁))
    (w : PlaceReads) (quoted : Book) {seen b : Book} (hseen : BookHistory b₁ seen)
    (id : Uuid) (mint : Nat → Uuid) :
    ((∃ now, seen.findByClientId user r.clientOrderId = some now ∧ now.terms = o.terms ∧
        placeOrder w quoted seen b user r id mint = (.ok now, b)) ↔ Admitted w quoted r) ∧
    ∀ r' : PlaceOrderRequest, r'.clientOrderId = r.clientOrderId → r' ≠ r →
      (placeOrder w quoted seen b user r' id mint = (.error (namesAnother r'), b) ↔
        Admitted w quoted r' ∧ ¬ r.alike r') := by
  obtain ⟨x, hx, hxterms, hmatch⟩ := placeOrder_accepted hseen₀ haccepted
  obtain ⟨now, hnow, hnowterms⟩ := hseen.findByClientId hx
  have hmatch : now.matchesRequest r.service r.side r.kind r.tif r.size = true :=
    (Order.matchesRequest_of_terms hnowterms ..).trans hmatch
  -- past the gates, it is the row that answers
  have hadmitted : ∀ r' : PlaceOrderRequest, r'.clientOrderId = r.clientOrderId →
      Admitted w quoted r' →
      placeOrder w quoted seen b user r' id mint = (sameRequestOrConflict now r', b) := by
    intro r' hid hadmitted
    obtain ⟨result, hresult⟩ := placeGates_ok.mpr hadmitted
    unfold placeOrder
    rw [hresult, hid, hnow]
  -- and short of them, the gate's own refusal
  have hrefused : ∀ r' : PlaceOrderRequest, ¬ Admitted w quoted r' →
      ∃ e, placeGates w quoted r' = .error e ∧
        placeOrder w quoted seen b user r' id mint = (.error e, b) := by
    intro r' hnot
    cases hgates : placeGates w quoted r' with
    | ok result => exact absurd (placeGates_ok.mp ⟨result, hgates⟩) hnot
    | error e =>
      refine ⟨e, rfl, ?_⟩
      unfold placeOrder
      rw [hgates]
  refine ⟨⟨?_, fun hgates => ⟨now, hnow, hnowterms.trans hxterms, ?_⟩⟩, fun r' hid _ => ⟨?_, ?_⟩⟩
  · rintro ⟨now', -, -, hplaced⟩
    by_contra hnot
    obtain ⟨e, -, hplaced'⟩ := hrefused r hnot
    rw [hplaced'] at hplaced
    cases (Prod.mk.inj hplaced).1
  · rw [hadmitted r rfl hgates, sameRequestOrConflict, if_pos hmatch]
  · intro hplaced
    by_cases hgates : Admitted w quoted r'
    · refine ⟨hgates, fun halike => ?_⟩
      rw [hadmitted r' hid hgates, sameRequestOrConflict,
        if_pos ((matchesRequest_iff hmatch).mpr halike)] at hplaced
      cases (Prod.mk.inj hplaced).1
    · obtain ⟨e, he, hplaced'⟩ := hrefused r' hgates
      rw [hplaced'] at hplaced
      rw [Except.error.inj (Prod.mk.inj hplaced).1] at he
      exact absurd he (placeGates_neverConflict w quoted r' _)
  · rintro ⟨hgates, hnot⟩
    rw [hadmitted r' hid hgates, sameRequestOrConflict,
      if_neg fun hm => hnot ((matchesRequest_iff hmatch).mp hm)]
    rfl

theorem sampleUnits_fit : 5 * SCALE < 2 ^ 128 := by decide

/-- The bid of the sample, and the same at another limit. -/
def sampleBidRequest (price : Nat) (hprice : price * SCALE < 2 ^ 128) : PlaceOrderRequest :=
  sampleRequest .buy 5 price "b" hprice sampleUnits_fit

/-- **A repeat refused and another request taken for the same.** The sample's bid was accepted. While
outflows are paused its repeat is refused; and a bid at 3 under the id of the one at 4 is answered
with that. -/
theorem placed_bid_not_once :
    (∃ o, placeOrder sampleReads .empty sampleAsk sampleAsk (.raw 2)
      (sampleBidRequest 4 (by decide)) (.raw 20) .raw = (.ok o, sampleBid)) ∧
    placeOrder { sampleReads with outflowsPaused := true } .empty sampleBid sampleBid (.raw 2)
      (sampleBidRequest 4 (by decide)) (.raw 21) .raw =
        (.error (.precondition "money movements are temporarily paused (read-only mode)"),
          sampleBid) ∧
    ∃ o, o.price = 4 * SCALE ∧ placeOrder sampleReads .empty sampleBid sampleBid (.raw 2)
      (sampleBidRequest 3 (by decide)) (.raw 21) .raw = (.ok o, sampleBid) :=
  ⟨⟨_, rfl⟩, rfl, _, rfl, rfl⟩

theorem place_order_repeats_sample :
    ∃ now, sampleBid.findByClientId (.raw 2) "b" = some now ∧
      placeOrder sampleReads .empty sampleBid sampleBid (.raw 2) (sampleBidRequest 4 (by decide))
        (.raw 21) .raw = (.ok now, sampleBid) := by
  have haccepted : placeOrder sampleReads .empty sampleAsk sampleAsk (.raw 2)
    (sampleBidRequest 4 (by decide)) (.raw 20) .raw = (.ok _, sampleBid) := rfl
  have hadmitted : Admitted sampleReads .empty (sampleBidRequest 4 (by decide)) :=
    ⟨rfl, by decide, ⟨.cash, rfl, rfl, nofun⟩, by decide, ⟨_, rfl, by decide, by decide⟩⟩
  obtain ⟨now, hnow, -, hplaced⟩ := (place_order_repeats .refl haccepted sampleReads .empty .refl
    (.raw 21) .raw).1.mpr hadmitted
  exact ⟨now, hnow, hplaced⟩

end Banking
