import Mathlib.Logic.Relation
import Banking.BookFills

/-! # Runs of the book

What placements and cancellations of any callers, on any products, make of the books. A placement
that rests has traded with everything it crosses, so a book is never crossed; the tables agree after
every step (`Book.Kept`); and from the empty book on nothing is bought that is not sold and no escrow
is overdrawn (`book_conserves`). -/

namespace Banking

/-! ## The fills of a placement -/

/-- What some fills take from one maker. -/
def takenFrom (fills : List Fill) (maker : Uuid) : Nat :=
  (fills.map fun f => if f.maker = maker then f.size else 0).sum

/-- A fill takes its size from its maker. -/
theorem size_le_takenFrom {fills : List Fill} {f : Fill} (h : f ∈ fills) :
    f.size ≤ takenFrom fills f.maker := by
  refine List.le_sum_of_mem (List.mem_map.mpr ⟨f, h, if_pos rfl⟩)

/-- **All fills of a placement**: the tables agree after them as before. -/
theorem Book.Filling.applyFills {p : BookPolicy} {nav : Nat} {mint : Nat → Uuid}
    {fills : List Fill} : ∀ {b b' : Book} {taker taker' : Order},
    b.Filling taker → taker.FeeBounded p →
    (∀ fill ∈ fills, ∀ maker ∈ b.orders, maker.id = fill.maker → taker.Fits fill maker) →
    b.applyFills p nav mint taker fills = .ok (taker', b') →
    b'.Filling taker' ∧ taker'.terms = taker.terms ∧
    taker'.filled = taker.filled + (fills.map (·.size)).sum ∧
    b'.orders.map Order.terms = b.orders.map Order.terms ∧
    ∀ o ∈ b.orders, ∀ o' ∈ b'.orders, o'.id = o.id →
      (o'.state.isResting → o.state.isResting) ∧
      o'.filled = o.filled + takenFrom fills o.id := by
  induction fills with
  | nil =>
    intro b b' taker taker' h _ _ happly
    obtain ⟨rfl, rfl⟩ := Prod.mk.inj (Except.ok.inj happly)
    refine ⟨h, rfl, rfl, rfl, fun o ho o' ho' he => ?_⟩
    rw [eq_of_id h.ids ho' ho he]
    exact ⟨id, rfl⟩
  | cons fill fills ih =>
    intro b b' taker taker' h hfees hfits happly
    simp only [Book.applyFills, bind_ok_iff] at happly
    obtain ⟨⟨taker₁, b₁⟩, hfirst, hrest⟩ := happly
    obtain ⟨⟨h₁, hfees₁⟩, hterms₁, hfilled₁, hrows₁, hsteps₁⟩ :=
      h.applyFill hfees (hfits fill List.mem_cons_self) hfirst
    -- the makers to come still fit
    have hfits₁ : ∀ f ∈ fills, ∀ maker ∈ b₁.orders, maker.id = f.maker → taker₁.Fits f maker := by
      intro f hf maker hmaker hid
      have hterm : maker.terms ∈ b.orders.map Order.terms :=
        hrows₁ ▸ List.mem_map.mpr ⟨maker, hmaker, rfl⟩
      obtain ⟨old, hold, heq⟩ := List.mem_map.mp hterm
      have hsame : old.id = maker.id := (congrArg Order.id heq :)
      exact (hfits f (List.mem_cons_of_mem _ hf) old hold (hsame.trans hid)).of_terms hterms₁
        heq.symm
    obtain ⟨h', hterms, hfilled, hrows, hsteps⟩ := ih h₁ hfees₁ hfits₁ hrest
    refine ⟨h', hterms.trans hterms₁, ?_, hrows.trans hrows₁, ?_⟩
    · rw [hfilled, hfilled₁, List.map_cons, List.sum_cons, Nat.add_assoc]
    · intro o ho o' ho' he
      -- the order in between
      have hmid : o.id ∈ b₁.orders.map (·.id) :=
        Book.ids_of_terms hrows₁ ▸ List.mem_map.mpr ⟨o, ho, rfl⟩
      obtain ⟨o₁, ho₁, he₁⟩ := List.mem_map.mp hmid
      obtain ⟨hresting₁, hfill₁⟩ := hsteps₁ o ho o₁ ho₁ he₁
      obtain ⟨hresting, hfill⟩ := hsteps o₁ ho₁ o' ho' (he.trans he₁.symm)
      refine ⟨hresting₁ ∘ hresting, ?_⟩
      rw [hfill, hfill₁, he₁, takenFrom, takenFrom, List.map_cons, List.sum_cons, Nat.add_assoc]

/-- **What the engine fills**: of makers that cross, none of them the taker's own; together with what
is left, the whole order; and where something is left, every maker that was walked past. -/
theorem walk_ok {incoming : Order} {makers : List RestingOrder} :
    ∀ {remaining left : Nat} {fills : List Fill},
    (∀ maker ∈ makers, crosses incoming maker = true) →
    walk incoming makers remaining = .ok (fills, left) →
    (fills.map (·.size)).sum + left = remaining ∧
    (∀ f ∈ fills, ∃ maker ∈ makers, maker.id = f.maker ∧ maker.price = f.price) ∧
    (left ≠ 0 → ∀ maker ∈ makers, maker.remaining ≠ 0 →
      ∃ f ∈ fills, f.maker = maker.id ∧ f.size = maker.remaining) := by
  induction makers with
  | nil =>
    intro remaining left fills _ h
    obtain ⟨rfl, rfl⟩ := Prod.mk.inj (Except.ok.inj h)
    exact ⟨Nat.zero_add _, (fun _ hf => nomatch hf), (fun _ _ hm => nomatch hm)⟩
  | cons maker makers ih =>
    intro remaining left fills hcross h
    have hcross' := fun m hm => hcross m (List.mem_cons_of_mem _ hm)
    unfold walk at h
    split_ifs at h with hstop hself halo hempty
    · -- nothing is left: the walk stops
      obtain ⟨rfl, rfl⟩ := Prod.mk.inj (Except.ok.inj h)
      have hzero : remaining = 0 := hstop.resolve_right (not_not.mpr (hcross maker (by simp)))
      exact ⟨Nat.zero_add _, (fun _ hf => nomatch hf), fun hne => absurd hzero hne⟩
    · -- a maker with nothing left is passed over
      obtain ⟨hsum, hfrom, hall⟩ := ih hcross' h
      refine ⟨hsum, fun f hf => ?_, fun hleft m hm hne => ?_⟩
      · obtain ⟨m, hm, hid⟩ := hfrom f hf
        exact ⟨m, List.mem_cons_of_mem _ hm, hid⟩
      · rcases List.mem_cons.mp hm with rfl | hm
        · exact absurd hempty hne
        · exact hall hleft m hm hne
    · -- a fill, and the rest of the walk
      simp only [bind_ok_iff] at h
      obtain ⟨⟨fills', left'⟩, hrest, h⟩ := h
      obtain ⟨rfl, rfl⟩ := Prod.mk.inj (Except.ok.inj h)
      obtain ⟨hsum, hfrom, hall⟩ := ih hcross' hrest
      refine ⟨?_, fun f hf => ?_, fun hleft m hm hne => ?_⟩
      · rw [List.map_cons, List.sum_cons]
        dsimp only
        omega
      · rcases List.mem_cons.mp hf with rfl | hf
        · exact ⟨maker, List.mem_cons_self, rfl, rfl⟩
        · obtain ⟨m, hm, hid⟩ := hfrom f hf
          exact ⟨m, List.mem_cons_of_mem _ hm, hid⟩
      · rcases List.mem_cons.mp hm with rfl | hm
        · refine ⟨_, List.mem_cons_self, rfl, ?_⟩
          dsimp only
          omega
        · obtain ⟨f, hf, hid⟩ := hall hleft m hm hne
          exact ⟨f, List.mem_cons_of_mem _ hf, hid⟩

/-- Which makers a buy crosses. -/
theorem crosses_buy {incoming : Order} (h : incoming.side = .buy) (r : RestingOrder) :
    crosses incoming r = decide (r.price ≤ incoming.price) := by
  unfold crosses
  rw [h]

/-- Which makers a sell crosses. -/
theorem crosses_sell {incoming : Order} (h : incoming.side = .sell) (r : RestingOrder) :
    crosses incoming r = decide (incoming.price ≤ r.price) := by
  unfold crosses
  rw [h]

/-- The engine decides by its walk over the whole order. -/
theorem matchOrder_ok {incoming : Order} {makers : List RestingOrder} {outcome : MatchOutcome}
    (h : matchOrder incoming makers = .ok outcome) :
    ∃ left, walk incoming makers incoming.size = .ok (outcome.fills, left) := by
  simp only [matchOrder, bind_ok_iff] at h
  obtain ⟨⟨fills, left⟩, hwalk, h⟩ := h
  rw [← Except.ok.inj h]
  exact ⟨left, hwalk⟩

/-! ## One placement -/

/-- **Nothing is crossed**: a bid is below every ask of its product. -/
def Book.Uncrossed (b : Book) : Prop :=
  ∀ bid ∈ b.orders, ∀ ask ∈ b.orders, bid.service = ask.service → bid.side = .buy →
    ask.side = .sell → bid.state.isResting → ask.state.isResting → bid.price < ask.price

/-- What an incoming order may trade with. -/
theorem Book.mem_crossing {b : Book} {incoming : Order} {r : RestingOrder} :
    r ∈ b.crossing incoming ↔ ∃ o ∈ b.orders, o.service = incoming.service ∧
      o.side = incoming.side.opposite ∧ o.state.isResting ∧ crosses incoming o.asResting ∧
      o.asResting = r := by
  simp only [Book.crossing, Book.resting, List.mem_map, List.mem_insertionSort, List.mem_filter,
    Bool.and_eq_true, decide_eq_true_eq]
  constructor
  · rintro ⟨o, ⟨⟨ho, ⟨hservice, hside⟩, hresting⟩, hcross⟩, heq⟩
    exact ⟨o, ho, hservice, hside, hresting, hcross, heq⟩
  · rintro ⟨o, ho, hservice, hside, hresting, hcross, heq⟩
    exact ⟨o, ⟨⟨ho, ⟨hservice, hside⟩, hresting⟩, hcross⟩, heq⟩

/-- What inserting an order needs and does. -/
theorem Book.insertOrder_ok {b b' : Book} {o : Order} (h : b.insertOrder o = .ok b') :
    (∀ x ∈ b.orders, x.id ≠ o.id) ∧ b' = { b with orders := b.orders ++ [o] } := by
  unfold Book.insertOrder at h
  split_ifs at h with hid
  refine ⟨fun x hx he => hid ?_, (Except.ok.inj h).symm⟩
  exact List.any_eq_true.mpr ⟨x, hx, decide_eq_true he⟩

/-- **What a placement that succeeds did**: nothing, or its order inserted, its fills recorded, what
could not be filled cancelled, and what is left of its escrow released. -/
theorem Book.place_ok {p : BookPolicy} {nav : Nat} {b b' : Book} {order : Order}
    {covers : Except DomainError Unit} {mint : Nat → Uuid} {result : PlaceOutcome}
    (h : b.place p nav order covers mint = .ok (result, b')) :
    b' = b ∧ (∀ record ts revision, result ≠ .placed record ts revision) ∨
    ∃ outcome taker traded last record ts revision,
      matchOrder order (b.crossing order) = .ok outcome ∧
      (∀ x ∈ b.orders, x.id ≠ order.id) ∧
      Book.applyFills p nav mint
        { b with
          revisions := (b.bumpRevision order.service).revisions
          orders := b.orders ++ [order]
          events := b.events ++
            [.orderPlaced order.id order.service order.user order.side order.reserved] }
        order outcome.fills = .ok (taker, traded) ∧
      (last = taker ∨ taker.state.isResting ∧ ∃ reason,
        last = { taker with state := .cancelled, cancelReason := some reason }) ∧
      b' = (traded.store last).recordRelease last ∧
      b'.loadOrder last.id = .ok record ∧ result = .placed record ts revision := by
  unfold Book.place at h
  split at h
  · obtain ⟨rfl, rfl⟩ := Prod.mk.inj (Except.ok.inj h)
    exact .inl ⟨rfl, fun _ _ _ he => nomatch he⟩
  · simp only [bind_ok_iff] at h
    obtain ⟨-, -, h⟩ := h
    split at h
    · obtain ⟨rfl, rfl⟩ := Prod.mk.inj (Except.ok.inj h)
      exact .inl ⟨rfl, fun _ _ _ he => nomatch he⟩
    · rename_i outcome hmatch
      simp only [bind_ok_iff] at h
      obtain ⟨inserted, hinserted, ⟨taker, traded⟩, hfills, last, hlast, stored, hstored, record,
        hrecord, h⟩ := h
      obtain ⟨rfl, rfl⟩ := Prod.mk.inj (Except.ok.inj h)
      obtain ⟨hfresh, rfl⟩ := Book.insertOrder_ok hinserted
      obtain rfl := Book.updateOrder_ok hstored
      refine .inr ⟨outcome, taker, traded, last, record, _, _, hmatch, hfresh, hfills, ?_, rfl,
        ?_, rfl⟩
      · unfold MatchOutcome.cancelRemainder at hlast
        split at hlast
        case isTrue hcond =>
          have hne : taker.state ≠ .cancelled := fun hs => by
            rw [hs] at hcond
            exact absurd hcond.2 (by decide)
          obtain ⟨hresting, heq⟩ := Order.cancel_ok hlast hne
          exact .inr ⟨hresting, _, heq⟩
        case isFalse => exact .inl (Except.ok.inj hlast).symm
      · exact hrecord

/-- An order as it is placed: nothing filled, nothing spent. -/
structure Order.Fresh (o : Order) : Prop where
  opened : o.state = .opened
  filled : o.filled = 0
  spent : o.spent = 0

/-- **An inserted order**, held out of its row. -/
theorem Book.Kept.insert {b : Book} {order : Order} (h : b.Kept) (hfresh : order.Fresh)
    (hsound : order.Sound) (hnew : ∀ x ∈ b.orders, x.id ≠ order.id)
    (revisions : List (ServiceId × Nat)) :
    Book.Filling
      { b with
        revisions
        orders := b.orders ++ [order]
        events := b.events ++
          [.orderPlaced order.id order.service order.user order.side order.reserved] } order := by
  generalize hb : Book.mk _ _ _ _ = b'
  have horders : b'.orders = b.orders ++ [order] := by rw [← hb]
  have hspent : ∀ o, b'.spent o = b.spent o := fun o => by rw [← hb]; rfl
  have hlocked : ∀ o, b'.locked o =
      b.locked o + if order.id = o.id then order.reserved.amount else 0 := fun o => by
    rw [← hb]
    simp [Book.locked, BookEvent.locks]
  have hreleased : ∀ o, b'.released o = b.released o := fun o => by
    rw [← hb]
    simp [Book.released, BookEvent.releases]
  have hunknown : order.id ∉ b.orders.map (·.id) := fun hmem => by
    obtain ⟨x, hx, he⟩ := List.mem_map.mp hmem
    exact hnew x hx he
  refine ⟨?_, ⟨order, ?_, rfl⟩, ?_, ?_, ?_, ?_⟩
  · rw [horders, List.map_append]
    refine List.nodup_append.mpr ⟨h.ids, List.nodup_singleton _, fun x hx y hy he => hunknown ?_⟩
    rw [List.map_singleton, List.mem_singleton] at hy
    rw [← hy, ← he]
    exact hx
  · rw [horders]
    exact List.mem_append_right _ (List.mem_singleton_self _)
  · intro o ho hne
    rw [horders] at ho
    have hold := (List.mem_append.mp ho).resolve_right fun hm => hne (by rw [List.mem_singleton.mp hm])
    have hrow := h.row o hold
    refine ⟨hrow.sound, (hspent o).trans hrow.spent, ?_, (hreleased o).trans hrow.released⟩
    rw [hlocked, if_neg (Ne.symm hne)]
    exact hrow.locked
  · obtain ⟨hs, hl, hr⟩ := h.unknown order hunknown
    refine ⟨hsound, ?_, ?_, ?_⟩
    · rw [hspent, hs, hfresh.spent]
    · rw [hlocked, if_pos rfl, hl, Nat.zero_add]
    · rw [hreleased, hr]
  · intro o ho
    rw [horders, List.map_append, List.mem_append, not_or] at ho
    obtain ⟨hs, hl, hr⟩ := h.unknown o ho.1
    refine ⟨(hspent o).trans hs, ?_, (hreleased o).trans hr⟩
    rw [hlocked, if_neg (fun he => ho.2 (by simp [he])), hl]
  · intro s side
    have hvolume : b'.volume s = b.volume s := by rw [← hb]; rfl
    have hdealt : order.dealt s side = 0 := by
      unfold Order.dealt
      rw [hfresh.filled, ite_self]
    rw [horders, List.map_append, List.sum_append, hvolume, ← h.volume s side]
    have hrest : (b.orders.map fun o => (if o.id = order.id then order else o).dealt s side) =
        b.orders.map (·.dealt s side) :=
      List.map_congr_left fun o ho => by rw [if_neg (hnew o ho)]
    rw [hrest]
    simp [hdealt, Book.total]

/-- **The held order put back**, with what is left of its escrow. -/
theorem Book.Filling.close {b : Book} {held : Order} (h : b.Filling held) :
    ((b.store held).recordRelease held).Kept := by
  obtain ⟨row, hrow, hheld⟩ := h.inserted
  have hid : row.id = held.id := (congrArg Order.id hheld :)
  have hmem : ∀ o, o ∈ (b.store held).orders ↔ o = held ∨ o ∈ b.orders ∧ o.id ≠ held.id := fun o =>
    Book.mem_store h.ids hrow hheld
  have hids : (b.store held).orders.map (·.id) = b.orders.map (·.id) :=
    Book.ids_of_terms (Book.store_terms b held)
  generalize hb : (b.store held).recordRelease held = b'
  have horders : b'.orders = (b.store held).orders := by rw [← hb, Book.recordRelease_orders]
  have hspent : ∀ o, b'.spent o = b.spent o := fun o => by
    rw [← hb, Book.spent, Book.recordRelease_trades]
    rfl
  have hlocked : ∀ o, b'.locked o = b.locked o := fun o => by
    rw [← hb]
    exact Book.recordRelease_locked _ o
  have hreleased : ∀ o, b'.released o =
      b.released o + if held.id = o.id then held.left else 0 := fun o => by
    rw [← hb]
    exact Book.recordRelease_released _ h.heldRow.sound o
  refine ⟨?_, ?_, ?_, ?_⟩
  · rw [horders, hids]
    exact h.ids
  · intro o ho
    rw [horders] at ho
    rcases (hmem o).mp ho with rfl | ⟨ho, hne⟩
    · refine ⟨h.heldRow.sound, (hspent o).trans h.heldRow.spent, (hlocked o).trans h.heldRow.locked,
        ?_⟩
      rw [hreleased, if_pos rfl, h.heldRow.released, Nat.zero_add]
    · have hother := h.row o ho hne
      refine ⟨hother.sound, (hspent o).trans hother.spent, (hlocked o).trans hother.locked, ?_⟩
      rw [hreleased, if_neg (Ne.symm hne)]
      exact hother.released
  · intro o ho
    rw [horders, hids] at ho
    obtain ⟨hs, hl, hr⟩ := h.unknown o ho
    have hne : held.id ≠ o.id := fun he => ho (he ▸ hid ▸ List.mem_map.mpr ⟨row, hrow, rfl⟩)
    refine ⟨(hspent o).trans hs, (hlocked o).trans hl, ?_⟩
    rw [hreleased, if_neg hne, hr]
  · intro s side
    have hvolume : b'.volume s = b.volume s := by
      rw [← hb, Book.volume, Book.recordRelease_trades]
      rfl
    rw [hvolume, ← h.volume s side, Book.total, horders, Book.store, List.map_map]
    refine congrArg List.sum (List.map_congr_left fun o ho => ?_)
    rw [Function.comp_apply]
    by_cases he : o.id = held.id
    · rw [if_pos he, if_pos he, eq_of_id h.ids ho hrow (he.trans hid.symm), hheld]
    · rw [if_neg he, if_neg he]

/-- A held order cancelled. -/
theorem Book.Filling.cancelled {b : Book} {held : Order} (h : b.Filling held)
    (reason : CancelReason) :
    b.Filling { held with state := .cancelled, cancelReason := some reason } := by
  obtain ⟨row, hrow, hheld⟩ := h.inserted
  have hsound := h.heldRow.sound
  refine ⟨h.ids, ⟨row, hrow, Order.updated_held hheld rfl rfl⟩, h.row, ?_, h.unknown, ?_⟩
  · exact ⟨⟨hsound.price_lt, hsound.size_lt, hsound.filled_le, (fun hs => nomatch hs),
      (fun hs => nomatch hs), hsound.sells, hsound.buys⟩, h.heldRow.spent, h.heldRow.locked,
      h.heldRow.released⟩
  · intro s side
    rw [← h.volume s side]
    refine congrArg List.sum (List.map_congr_left fun o _ => ?_)
    dsimp only
    split <;> rfl

/-- A book's revisions are no part of what is kept. -/
theorem Book.Kept.bump {b : Book} (h : b.Kept) (service : ServiceId) :
    (b.bumpRevision service).Kept := by
  refine ⟨h.ids, fun o ho => ?_, h.unknown, h.volume⟩
  have hrow := h.row o ho
  exact ⟨hrow.sound, hrow.spent, hrow.locked, hrow.released⟩

/-- A resting order taken out of its row. -/
theorem Book.Kept.filling {b : Book} {o : Order} (h : b.Kept) (ho : o ∈ b.orders)
    (hresting : o.state.isResting) : b.Filling o := by
  have hleft : o.left = 0 := if_pos hresting
  refine ⟨h.ids, ⟨o, ho, rfl⟩, fun x hx _ => h.row x hx, hleft ▸ h.row o ho, h.unknown, ?_⟩
  intro s side
  rw [← h.volume s side]
  refine congrArg List.sum (List.map_congr_left fun x hx => ?_)
  by_cases he : x.id = o.id
  · rw [if_pos he, eq_of_id h.ids hx ho he]
  · rw [if_neg he]

/-- What comes after keeps a book uncrossed, where each order of it was resting before. -/
theorem Book.Uncrossed.of_resting {b b' : Book} (h : b.Uncrossed)
    (hback : ∀ o' ∈ b'.orders, o'.state.isResting →
      ∃ o ∈ b.orders, o.state.isResting ∧ o.terms = o'.terms) : b'.Uncrossed := by
  intro bid hbid ask hask hservice hbuy hsell hrbid hrask
  obtain ⟨bid₀, hbid₀, hrbid₀, htbid⟩ := hback bid hbid hrbid
  obtain ⟨ask₀, hask₀, hrask₀, htask⟩ := hback ask hask hrask
  have hbidService : bid₀.service = bid.service := (congrArg Order.service htbid :)
  have haskService : ask₀.service = ask.service := (congrArg Order.service htask :)
  have hbidPrice : bid₀.price = bid.price := (congrArg Order.price htbid :)
  have haskPrice : ask₀.price = ask.price := (congrArg Order.price htask :)
  rw [← hbidPrice, ← haskPrice]
  refine h bid₀ hbid₀ ask₀ hask₀ (by rw [hbidService, haskService, hservice]) ?_ ?_ hrbid₀ hrask₀
  · exact (congrArg Order.side htbid :).trans hbuy
  · exact (congrArg Order.side htask :).trans hsell

/-- **A book in order**: its tables agree and it is not crossed. -/
structure Book.Sane (b : Book) : Prop where
  kept : b.Kept
  uncrossed : b.Uncrossed

/-- **What rests crosses nothing.** An order of the other side that the placed one crosses was a
maker, and something being left, it was filled. -/
theorem resting_not_crossing {b : Book} {order last o o' : Order} {outcome : MatchOutcome}
    (hmatch : matchOrder order (b.crossing order) = .ok outcome) (hlast : last.Sound)
    (hsize : last.size = order.size) (hfilled : last.filled = (outcome.fills.map (·.size)).sum)
    (hresting : last.state.isResting) (ho : o ∈ b.orders) (hservice : o.service = order.service)
    (hside : o.side = order.side.opposite) (hwas : o.state.isResting) (hfull : o.filled < o.size)
    (ho' : o'.Sound) (his : o'.state.isResting) (hsame : o'.size = o.size)
    (hstep : o'.filled = o.filled + takenFrom outcome.fills o.id) :
    crosses order o.asResting = false := by
  rw [← Bool.not_eq_true]
  intro hcross
  have hmaker : o.asResting ∈ b.crossing order :=
    Book.mem_crossing.mpr ⟨o, ho, hservice, hside, hwas, hcross, rfl⟩
  have hcrosses : ∀ r ∈ b.crossing order, crosses order r = true := fun r hr => by
    obtain ⟨x, -, -, -, -, hx, rfl⟩ := Book.mem_crossing.mp hr
    exact hx
  obtain ⟨left, hwalk⟩ := matchOrder_ok hmatch
  obtain ⟨hsum, -, hall⟩ := walk_ok hcrosses hwalk
  -- something is left of the order that rests
  have hleft : left ≠ 0 := by have := hlast.resting_lt hresting; omega
  have hremaining : o.asResting.remaining = o.size - o.filled := rfl
  obtain ⟨f, hf, hid, hsize⟩ := hall hleft _ hmaker (by omega)
  have htaken := size_le_takenFrom hf
  have hid : f.maker = o.id := hid
  rw [hid] at htaken
  have := ho'.resting_lt his
  omega

/-- **One placement**, of a fresh order whose reserve covers it. -/
theorem Book.Sane.place {p : BookPolicy} {nav : Nat} {b b' : Book} {order : Order}
    {covers : Except DomainError Unit} {mint : Nat → Uuid} {result : PlaceOutcome} (h : b.Sane)
    (hfresh : order.Fresh) (hsound : order.Sound) (hfees : order.FeeBounded p)
    (hplace : b.place p nav order covers mint = .ok (result, b')) : b'.Sane := by
  rcases Book.place_ok hplace with ⟨rfl, -⟩ | ⟨outcome, taker, traded, last, -, -, -, hmatch, hnew,
    hfills, hlast, hb', -, -⟩
  · exact h
  have hopened := h.kept.insert hfresh hsound hnew (b.bumpRevision order.service).revisions
  -- a fill's maker is an order the engine was given
  have hfits : ∀ f ∈ outcome.fills, ∀ maker ∈ b.orders ++ [order], maker.id = f.maker →
      order.Fits f maker := by
    intro f hf maker hmaker hid
    obtain ⟨left, hwalk⟩ := matchOrder_ok hmatch
    have hcrosses : ∀ r ∈ b.crossing order, crosses order r = true := fun r hr => by
      obtain ⟨x, -, -, -, -, hx, rfl⟩ := Book.mem_crossing.mp hr
      exact hx
    obtain ⟨r, hr, hrid, hprice⟩ := (walk_ok hcrosses hwalk).2.1 f hf
    obtain ⟨o, ho, hservice, hside, -, hcross, rfl⟩ := Book.mem_crossing.mp hr
    have heq : maker = o :=
      eq_of_id hopened.ids hmaker (List.mem_append_left _ ho) (hid.trans hrid.symm)
    subst heq
    refine ⟨hnew maker ho, hservice, hside, hprice, fun hbuy => ?_⟩
    rw [crosses_buy hbuy] at hcross
    exact hprice ▸ of_decide_eq_true hcross
  obtain ⟨htraded, hterms, hfilled, hrows, hsteps⟩ := hopened.applyFills hfees hfits hfills
  -- the order as it is stored
  have hclose : traded.Filling last ∧ last.terms = order.terms ∧
      (last.state.isResting → last.filled = (outcome.fills.map (·.size)).sum) := by
    rw [hfresh.filled, Nat.zero_add] at hfilled
    rcases hlast with rfl | ⟨-, reason, rfl⟩
    · exact ⟨htraded, hterms, fun _ => hfilled⟩
    · exact ⟨htraded.cancelled reason, hterms, (fun hs => nomatch hs)⟩
  obtain ⟨hfilling, hlastTerms, hlastFilled⟩ := hclose
  have hkept : b'.Kept := hb' ▸ hfilling.close
  obtain ⟨row, hrow, hheld⟩ := hfilling.inserted
  have hid : last.id = order.id := (congrArg Order.id hlastTerms :)
  have hmem : ∀ o, o ∈ b'.orders ↔ o = last ∨ o ∈ traded.orders ∧ o.id ≠ last.id := fun o => by
    rw [hb', Book.recordRelease_orders]
    exact Book.mem_store hfilling.ids hrow hheld
  -- every other order was there before
  have hback : ∀ o' ∈ b'.orders, o' ≠ last → o'.state.isResting → ∃ o ∈ b.orders,
      o.state.isResting ∧ o.terms = o'.terms ∧
      o'.filled = o.filled + takenFrom outcome.fills o.id := by
    intro o' ho' hne his
    obtain ⟨htr, hnid⟩ := ((hmem o').mp ho').resolve_left hne
    have hterm : o'.terms ∈ (b.orders ++ [order]).map Order.terms :=
      hrows ▸ List.mem_map.mpr ⟨o', htr, rfl⟩
    obtain ⟨o, ho, heq⟩ := List.mem_map.mp hterm
    have heqid : o.id = o'.id := (congrArg Order.id heq :)
    obtain ⟨hwas, hstep⟩ := hsteps o ho o' htr heqid.symm
    have hold : o ∈ b.orders := (List.mem_append.mp ho).resolve_right fun hs => by
      rw [List.mem_singleton.mp hs] at heqid
      exact hnid (heqid.symm.trans hid.symm)
    exact ⟨o, hold, hwas his, heq, hstep⟩
  have hapart : ∀ o' ∈ b'.orders, o' ≠ last → o'.state.isResting → last.state.isResting →
      o'.service = order.service → o'.side = order.side.opposite →
      crosses order o'.asResting = false := by
    intro o' ho' hne his hlis hservice hside
    obtain ⟨o, ho, hwas, hterm, hstep⟩ := hback o' ho' hne his
    have hsize : o'.size = o.size := (congrArg Order.size hterm.symm :)
    have hprice : o'.price = o.price := (congrArg Order.price hterm.symm :)
    have := resting_not_crossing hmatch hfilling.heldRow.sound
      (congrArg Order.size hlastTerms :) (hlastFilled hlis) hlis ho
      ((congrArg Order.service hterm :).trans hservice) ((congrArg Order.side hterm :).trans hside)
      hwas ((h.kept.row o ho).sound.resting_lt hwas) (hkept.row o' ho').sound his hsize hstep
    unfold crosses Order.asResting at this ⊢
    rwa [hprice]
  refine ⟨hkept, ?_⟩
  intro bid hbid ask hask hservice hbuy hsell hrbid hrask
  have hlastService : last.service = order.service := (congrArg Order.service hlastTerms :)
  have hlastSide : last.side = order.side := (congrArg Order.side hlastTerms :)
  have hlastPrice : last.price = order.price := (congrArg Order.price hlastTerms :)
  by_cases hbl : bid = last
  · have hne : ask ≠ last := fun he => by rw [he, ← hbl, hbuy] at hsell; cases hsell
    have hside : order.side = .buy := by rw [← hlastSide, ← hbl, hbuy]
    have := hapart ask hask hne hrask (hbl ▸ hrbid) (by rw [← hservice, hbl, hlastService])
      (by rw [hside, hsell]; rfl)
    rw [crosses_buy hside] at this
    rw [hbl, hlastPrice]
    exact not_le.mp (of_decide_eq_false this)
  · by_cases hal : ask = last
    · have hside : order.side = .sell := by rw [← hlastSide, ← hal, hsell]
      have := hapart bid hbid hbl hrbid (hal ▸ hrask) (by rw [hservice, hal, hlastService])
        (by rw [hside, hbuy]; rfl)
      rw [crosses_sell hside] at this
      rw [hal, hlastPrice]
      exact not_le.mp (of_decide_eq_false this)
    · -- neither is the order placed
      obtain ⟨bid₀, hbid₀, hrbid₀, htbid, -⟩ := hback bid hbid hbl hrbid
      obtain ⟨ask₀, hask₀, hrask₀, htask, -⟩ := hback ask hask hal hrask
      have hbidPrice : bid₀.price = bid.price := (congrArg Order.price htbid :)
      have haskPrice : ask₀.price = ask.price := (congrArg Order.price htask :)
      rw [← hbidPrice, ← haskPrice]
      refine h.uncrossed bid₀ hbid₀ ask₀ hask₀ ?_ ((congrArg Order.side htbid :).trans hbuy)
        ((congrArg Order.side htask :).trans hsell) hrbid₀ hrask₀
      exact (congrArg Order.service htbid :).trans
        (hservice.trans (congrArg Order.service htask.symm :))

/-- **One cancellation.** -/
theorem Book.Sane.cancel {b b' : Book} {id : Uuid} {record : Order} {revision : Nat} (h : b.Sane)
    (hcancel : b.cancel id = .ok (record, revision, b')) : b'.Sane := by
  simp only [Book.cancel, bind_ok_iff] at hcancel
  obtain ⟨o, ho, hcancel⟩ := hcancel
  obtain ⟨hmem, -⟩ := Book.loadOrder_ok ho
  split at hcancel
  · obtain ⟨-, -, rfl⟩ := Except.ok.inj hcancel
    exact h
  case isFalse hne =>
    simp only [bind_ok_iff] at hcancel
    obtain ⟨last, hlast, stored, hstored, row, hrow, hcancel⟩ := hcancel
    obtain ⟨-, -, rfl⟩ := Except.ok.inj hcancel
    obtain ⟨hresting, rfl⟩ := Order.cancel_ok hlast hne
    obtain rfl := Book.updateOrder_ok hstored
    have hkept : (b.bumpRevision o.service).Kept := h.kept.bump _
    have hclosed := ((hkept.filling hmem hresting).cancelled .user).close
    refine ⟨hclosed, h.uncrossed.of_resting fun o' ho' his => ?_⟩
    -- what rests now is not the order cancelled
    rw [Book.recordRelease_orders, Book.mem_store hkept.ids hmem rfl] at ho'
    rcases ho' with rfl | ⟨ho', -⟩
    · cases his
    · exact ⟨o', ho', his, rfl⟩

/-! ## Runs -/

/-- The prices of a book are 128-bit. -/
def Book.Priced (b : Book) : Prop := ∀ o ∈ b.orders, o.price < 2 ^ 128

/-- **One step**: a placement, whatever it read and however it ended, or a cancellation. -/
inductive BookStep : Book → Book → Prop
  | place (w : PlaceReads) {quoted : Book} (seen b : Book) (user : UserId) (r : PlaceOrderRequest)
      (id : Uuid) (mint : Nat → Uuid) (hquoted : quoted.Priced) :
      BookStep b (placeOrder w quoted seen b user r id mint).2
  | cancel (seen b : Book) (id : Uuid) (user : UserId) : BookStep b (cancelOrder seen b id user).2

/-- Runs of steps. -/
abbrev BookRun : Book → Book → Prop := Relation.ReflTransGen BookStep

/-- A quote's price is 128-bit. -/
theorem Book.Priced.best {b : Book} (h : b.Priced) {service : ServiceId} {side : OrderSide}
    {best : Nat} (hbest : b.bestPrice service side = some best) : best < 2 ^ 128 := by
  have hmem : ∃ s, best ∈ (b.resting service s).map (·.price) := by
    cases side with
    | buy => exact ⟨_, List.max?_mem hbest⟩
    | sell => exact ⟨_, List.min?_mem hbest⟩
  obtain ⟨s, hmem⟩ := hmem
  obtain ⟨o, ho, rfl⟩ := List.mem_map.mp hmem
  exact h o (List.mem_of_mem_filter ho)

/-- A scaled quote is 128-bit. -/
theorem Price.scale_lt {price numer denom scaled : Nat} (hp : price < 2 ^ 128)
    (hn : numer < 2 ^ 128) (hd : denom < 2 ^ 128) (h : Price.scale price numer denom = .ok scaled) :
    scaled < 2 ^ 128 := by
  unfold Price.scale at h
  split at h
  case h_1 q hq => exact Except.ok.inj h ▸ (mulDivFloor_some hp hn hd hq).2.2
  case h_2 => cases h

/-- The limit of a market order is 128-bit. -/
theorem BookPolicy.marketLimit_lt {p : BookPolicy} {side : OrderSide} {best limit : Nat}
    (hbest : best < 2 ^ 128) (h : p.marketLimit side best = .ok limit) : limit < 2 ^ 128 := by
  have hslip := p.slippage_le
  have hbps : BPS_DENOMINATOR = 10000 := rfl
  cases side with
  | buy =>
    simp only [BookPolicy.marketLimit, bind_ok_iff, map_ok_iff] at h
    obtain ⟨_, ⟨scaled, hscaled, rfl⟩, h⟩ := h
    split_ifs at h
    rw [← Except.ok.inj h]
    have := Price.scale_lt hbest (by omega) (by omega) hscaled
    unfold Price.ceilTo
    split <;> omega
  | sell =>
    simp only [BookPolicy.marketLimit, bind_ok_iff, map_ok_iff] at h
    obtain ⟨_, ⟨scaled, hscaled, rfl⟩, h⟩ := h
    split_ifs at h
    rw [← Except.ok.inj h]
    have := Price.scale_lt hbest (by omega) (by omega) hscaled
    unfold Price.floorTo
    split <;> omega

/-- The price of an admitted request is 128-bit. -/
theorem placeGates_price_lt {w : PlaceReads} {quoted : Book} {r : PlaceOrderRequest} {p : BookPolicy}
    {price : Nat} (hquoted : quoted.Priced) (h : placeGates w quoted r = .ok (p, price)) :
    price < 2 ^ 128 := by
  unfold placeGates at h
  split_ifs at h
  simp only [bind_ok_iff] at h
  obtain ⟨backing, -, -, -, -, -, price', hprice, h⟩ := h
  obtain ⟨-, rfl⟩ := Prod.mk.inj (Except.ok.inj h)
  unfold orderPrice at hprice
  split at hprice
  case h_1 =>
    split at hprice
    case h_1 => cases hprice
    case h_2 named hnamed =>
      unfold BookPolicy.price at hprice
      split_ifs at hprice
      exact Except.ok.inj hprice ▸ r.price_lt named hnamed
  case h_2 =>
    split_ifs at hprice
    split at hprice
    case h_1 => cases hprice
    case h_2 best hbest => exact BookPolicy.marketLimit_lt (hquoted.best hbest) hprice

/-- **What a request reserves covers it.** -/
theorem reserve_covers {w : PlaceReads} {p : BookPolicy} {r : PlaceOrderRequest} {price : Nat}
    {reserved : Locked} (user : UserId) (id : Uuid) (hprice : price < 2 ^ 128)
    (h : reserve w p r price = .ok reserved) (hsize : 0 < r.size) :
    (Order.place id r.service user r.clientOrderId r.side r.kind r.tif price r.size
      reserved).Sound ∧
    (Order.place id r.service user r.clientOrderId r.side r.kind r.tif price r.size
      reserved).FeeBounded p := by
  unfold reserve at h
  refine ⟨⟨hprice, r.size_lt, Nat.zero_le _, fun _ => hsize, ?_, ?_, ?_⟩, ?_⟩
  · exact fun hs => nomatch hs
  · intro hs
    have hs : r.side = .sell := hs
    rw [hs] at h
    dsimp only at h
    split_ifs at h
    exact (Except.ok.inj h).symm
  all_goals
    intro hs
    have hs : r.side = .buy := hs
    rw [hs] at h
    simp only [bind_ok_iff] at h
    obtain ⟨amount, hamount, h⟩ := h
    split_ifs at h
    have hworth := BookPolicy.buyReserve_ok r.size_lt hprice hamount
  · exact ⟨_, (Except.ok.inj h).symm.trans (congrArg _ hworth), Nat.zero_le _, Nat.zero_le _⟩
  · exact ⟨(Except.ok.inj h).symm.trans (congrArg _ hworth), Nat.zero_le _⟩

/-- An admitted request is of something. -/
theorem placeGates_size_pos {w : PlaceReads} {quoted : Book} {r : PlaceOrderRequest}
    {result : BookPolicy × Nat} (h : placeGates w quoted r = .ok result) : 0 < r.size := by
  unfold placeGates at h
  split_ifs at h
  simp only [bind_ok_iff] at h
  obtain ⟨-, -, -, -, size, hsize, -⟩ := h
  unfold BookPolicy.size at hsize
  split_ifs at hsize with hzero
  exact Nat.pos_of_ne_zero hzero

/-- **What placing an order may do to the books**: nothing, or place a fresh order whose reserve
covers it. -/
theorem placeOrder_cases (w : PlaceReads) {quoted : Book} (seen b : Book) (user : UserId)
    (r : PlaceOrderRequest) (id : Uuid) (mint : Nat → Uuid) (hquoted : quoted.Priced) :
    (placeOrder w quoted seen b user r id mint).2 = b ∨
    ∃ p nav order covers result b', order.Fresh ∧ order.Sound ∧ order.FeeBounded p ∧
      b.place p nav order covers mint = .ok (result, b') ∧
      (placeOrder w quoted seen b user r id mint).2 = b' := by
  unfold placeOrder
  split
  case h_1 => exact .inl rfl
  case h_2 p price hgates =>
    split
    case h_1 => exact .inl rfl
    case h_2 =>
      split
      case h_1 => exact .inl rfl
      case h_2 => exact .inl rfl
      case h_3 reserved nav hreserved _ =>
        have hcovers := reserve_covers user id (placeGates_price_lt hquoted hgates) hreserved
          (placeGates_size_pos hgates)
        generalize horder : Order.place _ _ _ _ _ _ _ _ _ _ = order at hcovers
        have hfresh : order.Fresh := by
          rw [← horder]
          refine ⟨rfl, rfl, ?_⟩
          unfold Order.spent Order.place
          split <;> rfl
        dsimp only
        split
        case h_1 => exact .inl rfl
        case h_2 hplace =>
          exact .inr ⟨_, _, _, _, _, _, hfresh, hcovers.1, hcovers.2, hplace, rfl⟩
        case h_3 => exact .inl rfl
        case h_4 => exact .inl rfl

/-- **One step keeps a book in order.** -/
theorem Book.Sane.step {b b' : Book} (h : b.Sane) (hstep : BookStep b b') : b'.Sane := by
  cases hstep with
  | place w seen _ user r id mint hquoted =>
    rcases placeOrder_cases w seen b user r id mint hquoted with heq | ⟨p, nav, order, covers, result,
      b', hfresh, hsound, hfees, hplace, heq⟩
    · rwa [heq]
    · rw [heq]
      exact h.place hfresh hsound hfees hplace
  | cancel seen _ id user =>
    unfold cancelOrder
    split
    · exact h
    · split
      · exact h
      · split
        case h_1 => exact h
        case h_2 record revision b' hcancel => exact h.cancel hcancel

/-- The empty book is in order. -/
theorem Book.empty_sane : Book.empty.Sane := by
  refine ⟨⟨List.nodup_nil, ?_, fun _ _ => ⟨rfl, rfl, rfl⟩, fun _ _ => rfl⟩, ?_⟩
  · exact fun _ h => nomatch h
  · exact fun _ h => nomatch h

/-- **A run keeps a book in order.** -/
theorem BookRun.sane {b b' : Book} (hrun : BookRun b b') (h : b.Sane) : b'.Sane := by
  induction hrun with
  | refl => exact h
  | tail _ hstep ih => exact ih.step hstep

/-- **What a book conserves**: nothing is crossed, what rests has something left, sizes are filled
or remain, what is bought is sold, and what an order locked is what its trades spent, what was
released to it, and what its escrow still holds. -/
structure Book.Conserves (b : Book) : Prop where
  uncrossed : b.Uncrossed
  resting : ∀ o ∈ b.orders, o.state.isResting → 0 < o.remaining
  sizes : ∀ o ∈ b.orders, o.filled + o.remaining = o.size
  dealt : ∀ service, b.total service .buy = b.total service .sell
  kind : ∀ o ∈ b.orders, o.reserved = .of o.side (b.locked o)
  escrow : ∀ o ∈ b.orders, b.locked o = b.spent o + b.released o + o.escrowed

/-- **The book is never crossed and conserves**, in every run from empty. -/
theorem book_conserves {b : Book} (hrun : BookRun .empty b) : b.Conserves := by
  obtain ⟨hkept, huncrossed⟩ := hrun.sane Book.empty_sane
  refine ⟨huncrossed, fun o ho hresting => ?_, fun o ho => ?_, fun service => ?_, fun o ho => ?_,
    fun o ho => ?_⟩
  · have := (hkept.row o ho).sound.resting_lt hresting
    exact Nat.sub_pos_of_lt this
  · exact Nat.add_sub_cancel' (hkept.row o ho).sound.filled_le
  · rw [hkept.volume, hkept.volume]
  · have hrow := hkept.row o ho
    rw [hrow.locked]
    exact hrow.sound.reserved_eq
  · have hrow := hkept.row o ho
    have hle := hrow.sound.spent_le
    rw [hrow.locked, hrow.spent, hrow.released]
    unfold Order.left Order.escrowed
    split <;> omega

/-! ## A sample -/

/-- An open book with a fee of one percent, and a caller with plenty of everything. -/
def sampleReads : PlaceReads where
  outflowsPaused := false
  blocked := some false
  allocation := some (.invest, .cash)
  policy := some { BookPolicy.default with
    bookOpen := true, takerFeeBps := 100, takerFee_le := by decide }
  available := 1000 * SCALE
  spendable := 1000 * SCALE
  spendableLocked := 1000 * SCALE
  nav := .ok SCALE

/-- A limit order for some units at a price. -/
def sampleRequest (side : OrderSide) (units price : Nat) (clientOrderId : String)
    (hprice : price * SCALE < 2 ^ 128) (hunits : units * SCALE < 2 ^ 128) : PlaceOrderRequest where
  service := ⟨"product"⟩
  side := side
  kind := .limit
  tif := .gtc
  price := some (price * SCALE)
  size := units * SCALE
  clientOrderId := clientOrderId
  price_lt := fun _ h => Option.some.inj h ▸ hprice
  size_lt := hunits

/-- One holder asks 3 for 2 units. -/
def sampleAsk : Book :=
  (placeOrder sampleReads .empty .empty .empty (.raw 1)
    (sampleRequest .sell 2 3 "a" (by decide) (by decide)) (.raw 10) .raw).2

/-- Another bids 4 for 5 units: two are filled at 3, and three rest. -/
def sampleBid : Book :=
  (placeOrder sampleReads .empty sampleAsk sampleAsk (.raw 2)
    (sampleRequest .buy 5 4 "b" (by decide) (by decide)) (.raw 20) .raw).2

/-- The empty book has no price to bound. -/
theorem Book.empty_priced : Book.empty.Priced := fun _ h => nomatch h

/-- The two placements are a run. -/
theorem sampleBid_run : BookRun .empty sampleBid :=
  .tail (.tail .refl (.place _ _ _ _ _ _ _ Book.empty_priced))
    (.place _ _ _ _ _ _ _ Book.empty_priced)

theorem book_conserves_sample : sampleBid.trades.length = 1 ∧ sampleBid.Conserves :=
  ⟨by decide, book_conserves sampleBid_run⟩

end Banking
