import Banking.Settles
import Banking.Planned
import Mathlib.Logic.Relation

/-! # Deliveries of a two-leg settlement

The relay delivers a row until it is done or parked, and every delivery may be cut short by an
outage. `settle_all_or_nothing` is what the deliveries of one two-legged row leave on the ledger.

The redemption's burn must not have been voided: the ledger answers the posting of a voided
reservation with success (`voided_burn_pays`), and only the redemption's own commands keep a voided
one from being settled. -/

namespace Banking

open Interactive (Prog World Exec EndsIn)
open Relation (ReflTransGen)

/-! ## A dispatch writes planned legs -/

/-- A dispatch adds to the ledger nothing but legs its row plans, whatever it is answered. -/
theorem LegRun.dispatch {fault : (op : RelayOp) → op.Ans → Prop} {rely : Bank → Bank → Prop}
    (hrely : ∀ b b', rely b b' → LegRun b.books → LegRun b'.books) {row : OutboxRow} {b b' : Bank}
    {r : Except Outcome Unit}
    (he : Exec (fun op b => Bank.Act fault op b) rely (dispatchBody row) b r b')
    (h : LegRun b.books) : LegRun b'.books :=
  dispatch_books (P := LegRun) (fun _ _ hplan _ hop _ hcall hL => .step hL hplan hop hcall) hrely
    he h

/-- The ledger of planned legs is sound. -/
theorem LegRun.sound {L : Books} (h : LegRun L) : L.Sound := by
  induction h with
  | empty => exact TwoPhase.Ledger.Sound.empty
  | step _ _ _ _ ih => exact LedgerCall.run_sound ih

/-- Every reservation on it waits in clearing, or on the units it burns. -/
theorem LegRun.reserved {L : Books} (h : LegRun L) :
    ∀ t, .pending t ∈ L.entries → ReservedInto t.credit := by
  induction h with
  | empty => exact fun t ht => nomatch ht
  | step _ hplan hop hcall ih =>
    refine LedgerCall.run_invariant
      (P := fun L => ∀ t, .pending t ∈ L.entries → ReservedInto t.credit) ?_ ?_ ih
    · intro L r hr hL hc t ht
      rcases List.mem_cons.mp ht with ht | ht
      · have hreserve : r = .reserve t := by
          cases r <;> cases ht
          rfl
        refine plan_reserves hplan _ hop r ?_ t hreserve
        rw [PlannedOp.requests, hcall]
        exact hr
      · exact hL t ht
    · exact fun L r _ hL => hL

/-! ## Deliveries -/

/-- An operation of the settlement's dispatch: dependencies fail, no ledger call answers a
conflict. -/
def SettleStep (op : RelayOp) (b : Bank) (a : op.Ans) (b' : Bank) : Prop :=
  b.Act Outage op a b' ∧ NoConflict op a

/-- The relay is the ledger's single writer: the others leave it alone. -/
def LedgerKept (b b' : Bank) : Prop := b'.books = b.books

/-- One delivery of a row that is on its `attempts`-th try, and its outcome. -/
inductive Delivery (row : OutboxRow) (b : Bank) (o : Outcome) (b' : Bank) : Prop
  | intro (attempts : Nat) {r : Except Outcome Unit}
      (he : Exec SettleStep LedgerKept (dispatchBody { row with attempts }) b r b')
      (ho : outcomeOf r = o)

/-- Any number of deliveries of a row, the control plane moving on in between. -/
def Deliveries (row : OutboxRow) : Bank → Bank → Prop :=
  ReflTransGen fun b b' => LedgerKept b b' ∨ ∃ o, Delivery row b o b'

variable {row : OutboxRow} {first second : PlannedOp} {b b₁ b' : Bank} {o : Outcome}

/-- The tries so far change nothing about what a row settles. -/
theorem TwoLegs.retried (h : TwoLegs row first second) (attempts : Nat) :
    TwoLegs { row with attempts } first second := by
  cases h with
  | redemption hp hops => exact .redemption hp hops
  | fees hp hops => exact .fees hp hops
  | subscription hp hops => exact .subscription hp hops

/-- A delivery as its ledger sees it. -/
theorem Delivery.ends (h : Delivery row b o b') {Q : Unit → Books → Prop}
    {E : Outcome → Books → Prop} (hi : Settleable first b.books)
    (hwp : ∀ attempts,
      (settleWorld first).wp Q E (dispatchBody { row with attempts }) b.books) :
    Settleable first b'.books ∧ (o = .done ∧ Q () b'.books ∨ E o b'.books) := by
  obtain ⟨attempts, he, rfl⟩ := h
  have hL : Exec (settleWorld first).step (settleWorld first).rely
      (dispatchBody { row with attempts }) b.books _ b'.books :=
    he.map (f := Bank.books) (fun _ _ hk => hk) fun op w a w' hs => ⟨hs.1.ledgerStep, hs.2⟩
  have hstable : ∀ L L₁, (settleWorld first).inv L → (settleWorld first).rely L L₁ →
      (settleWorld first).inv L₁ := by
    rintro L _ hinv rfl
    exact hinv
  obtain ⟨hi', hends⟩ := hL.of_wp hstable hi (hwp attempts)
  rename_i r
  refine ⟨hi', ?_⟩
  cases r with
  | ok u => exact .inl ⟨rfl, hends⟩
  | error e => exact .inr hends

/-- **A delivery** from a state it can resume leaves one it can resume, and unless it waits out an
outage, both legs or neither. -/
theorem TwoLegs.delivery (h : TwoLegs row first second) (hd : Delivery row b o b')
    (hi : Settleable first b.books) (hj : Resumable first second b.books) :
    Settleable first b'.books ∧ Resumable first second b'.books ∧
      ((∀ d, o ≠ .retry d) → AllOrNothing first second b'.books) := by
  obtain ⟨hi', hends⟩ := hd.ends hi fun attempts => (h.retried attempts).wp_dispatchBody hi hj
  refine ⟨hi', ?_⟩
  rcases hends with ⟨rfl, h₁, h₂⟩ | hE
  · have hboth : AllOrNothing first second b'.books := ⟨fun _ => h₂, fun _ => h₁⟩
    exact ⟨.inl hboth, fun _ => hboth⟩
  · exact hE

/-- What any number of deliveries keeps. -/
theorem TwoLegs.deliveries (h : TwoLegs row first second) (hds : Deliveries row b b')
    (hi : Settleable first b.books) (hj : Resumable first second b.books) :
    Settleable first b'.books ∧ Resumable first second b'.books := by
  induction hds with
  | refl => exact ⟨hi, hj⟩
  | tail _ hstep ih =>
    rcases hstep with hk | ⟨o, hd⟩
    · rw [hk]
      exact ih
    · obtain ⟨hi', hj', -⟩ := h.delivery hd ih.1 ih.2
      exact ⟨hi', hj'⟩

/-! ## A shortfall -/

/-- Uncovered, the dispatch ends in its pre-check and writes nothing. -/
theorem TwoLegs.wp_uncovered (h : TwoLegs row first second) {L : Books} (hi : Settleable first L)
    (hcov : ¬ Covered second L) :
    (settleWorld first).wp (fun _ _ => False)
      (fun o L' => L' = L ∧ ((∃ d, o = .retry d) ∨ ∃ reason, o = .park reason 0))
      (dispatchBody row) L := by
  rw [h.dispatchBody_eq, World.wp_bind]
  refine World.wp_mono (h.wp_liquidityGate hi) ?_ ?_
  · rintro _ L' ⟨rfl, hcov'⟩
    exact absurd hcov' hcov
  · rintro o L' ⟨rfl, hretry | ⟨-, hpark⟩⟩
    · exact ⟨rfl, .inl hretry⟩
    · exact ⟨rfl, .inr hpark⟩

/-- A fund's claim with less available than the second leg takes out of it covers nothing. -/
theorem TwoLegs.not_covered (h : TwoLegs row first second) {L : Books} (hi : Settleable first L)
    {t : LedgerTransfer} (ht : second.action = .post t) (hn : t.debit.normal = .credit)
    (hnew : L.has t.id = false) {balance : LedgerBalance} (hb : balanceOf t.debit L = .ok balance)
    (hshort : balance.available < t.amount) : ¬ Covered second L := by
  intro hcov
  obtain ⟨t', hsecond, -, hfund⟩ := h.second_post
  obtain rfl : t = t' := by
    rw [hsecond] at ht
    cases ht
    rfl
  obtain ⟨s, hs⟩ := hfund hn
  have havail := available_le_iff hi.sound hn (fun t' ht' => hs ▸ hi.unreserved t' ht' s) hb t.amount
  rcases hcov t ht with hhas | hroom
  · rw [hnew] at hhas
    cases hhas
  · have := havail.mpr (hroom hn)
    omega

/-! ## A burn that was never reserved -/

/-- The transfers a planned call submits are new ids only of its own. -/
theorem LedgerCall.run_fresh {call : LedgerCall} {L : Books} {i : Uuid}
    (hi : ∀ r ∈ call.requests, r.id ≠ i) (h : L.has i = false) :
    (call.run L).2.has i = false := by
  refine LedgerCall.run_invariant (P := fun L => L.has i = false) ?_ (fun _ _ _ hL => hL) h
  intro L r hr hL _
  have hid : (L.entryOf r).id = r.id := by cases r <;> rfl
  rw [TwoPhase.Ledger.has_push, hL, hid]
  simp [hi r hr]

/-- No leg of the settlement is the reservation its first leg posts. -/
theorem TwoLegs.reserves_not (h : TwoLegs row first second) {c : PendingCompletion}
    (hc : first.action = .complete c) {op : PlannedOp} (hop : op ∈ [first, second])
    {call : LedgerCall} (hcall : op.action.call? = some call) :
    ∀ r ∈ call.requests, r.id ≠ c.pendingId := by
  cases h with
  | redemption hp hops =>
    cases hops
    cases hc
    rcases List.mem_cons.mp hop with rfl | hop
    · cases hcall
      simp [LedgerCall.requests, PendingCompletion.request, TwoPhase.Request.id,
        TwoPhase.Request.transfer, legOf, BURN_SETTLE, BURN_RESERVE]
    · rw [List.mem_singleton.mp hop] at hcall
      cases hcall
      simp [LedgerCall.requests, TwoPhase.Request.id, TwoPhase.Request.transfer, legOf,
        REDEEM_PAYOUT, BURN_RESERVE]
  | fees hp hops => cases hops; cases hc
  | subscription hp hops => cases hops; cases hc

/-- A delivery does not make the reservation its settlement posts. -/
theorem TwoLegs.unreserved (h : TwoLegs row first second) {c : PendingCompletion}
    (hc : first.action = .complete c) (hd : Delivery row b o b')
    (hno : b.books.has c.pendingId = false) : b'.books.has c.pendingId = false := by
  obtain ⟨attempts, he, -⟩ := hd
  have hact : Exec (fun op b => Bank.Act Outage op b) LedgerKept (dispatchBody { row with attempts })
      b _ b' := he.map (f := id) (fun _ _ hk => hk) fun _ _ _ _ hs => hs.1
  refine dispatch_books (P := fun L => L.has c.pendingId = false) ?_ ?_ hact hno
  · intro L ops hplan op hop call hcall hL
    rw [(h.retried attempts).plan_eq] at hplan
    cases hplan
    exact LedgerCall.run_fresh (h.reserves_not hc hop hcall) hL
  · intro b b' hk hL
    rw [hk]
    exact hL

/-- Nor does any number of them. -/
theorem TwoLegs.unreserved_deliveries (h : TwoLegs row first second) {c : PendingCompletion}
    (hc : first.action = .complete c) (hds : Deliveries row b b')
    (hno : b.books.has c.pendingId = false) : b'.books.has c.pendingId = false := by
  induction hds with
  | refl => exact hno
  | tail _ hstep ih =>
    rcases hstep with hk | ⟨o, hd⟩
    · rw [hk]
      exact ih
    · exact h.unreserved hc hd ih

/-! ## All or nothing -/

/-- **Two-leg settlements are all or nothing.** A two-legged row whose legs are both on a ledger of
planned legs, or neither, and whose reservation, if it posts one, was not voided, is delivered any
number of times, through outages at any call and no conflict answered. The last delivery,

* unless it waits out an outage, leaves both legs or neither;
* with the second leg still missing and the fund's claim short of it, writes nothing, and parks
  unless it waits out an outage;
* with the burn's reservation missing from the start, leaves the second leg out. -/
theorem settle_all_or_nothing (h : TwoLegs row first second) (hledger : LegRun b.books)
    (hvoid : ∀ c, first.action = .complete c →
      ∀ t q, .voided t q ∈ b.books.entries → q.id ≠ c.pendingId)
    (hstart : AllOrNothing first second b.books) (hds : Deliveries row b b₁)
    (hlast : Delivery row b₁ o b') :
    ((∀ d, o ≠ .retry d) → AllOrNothing first second b'.books) ∧
    (∀ t, second.action = .post t → t.debit.normal = .credit → b₁.books.has t.id = false →
      ∀ balance, balanceOf t.debit b₁.books = .ok balance → balance.available < t.amount →
        b'.books = b₁.books ∧ ((∃ d, o = .retry d) ∨ ∃ reason, o = .park reason 0)) ∧
    (∀ c, first.action = .complete c → b.books.has c.pendingId = false →
      ¬ second.action.Took b'.books) := by
  have hi : Settleable first b.books :=
    { sound := hledger.sound
      unreserved := by
        intro t ht s hs
        rcases hledger.reserved t ht with h' | h' | ⟨_, _, h'⟩ <;> rw [hs] at h' <;> cases h'
      not_voided := hvoid }
  obtain ⟨hi₁, hj₁⟩ := h.deliveries hds hi (.inl hstart)
  obtain ⟨hi', hj', hall⟩ := h.delivery hlast hi₁ hj₁
  refine ⟨hall, ?_, ?_⟩
  · intro t ht hn hnew balance hb hshort
    have hcov := h.not_covered hi₁ ht hn hnew hb hshort
    obtain ⟨-, ⟨-, hfalse⟩ | hE⟩ :=
      hlast.ends hi₁ fun attempts => (h.retried attempts).wp_uncovered hi₁ hcov
    · exact hfalse.elim
    · exact hE
  · intro c hc hno hsecond
    have hno' := h.unreserved hc hlast (h.unreserved_deliveries hc hds hno)
    have hfirst : ¬ first.action.Took b'.books := by
      obtain ⟨t, hsecond', -⟩ := h.second_post
      rcases h.first_leg with ⟨t', ha, -⟩ | ⟨c', ha, hk, -⟩
      · rw [ha] at hc
        cases hc
      · obtain rfl : c' = c := by
          rw [ha] at hc
          cases hc
          rfl
        rw [ha]
        simp only [LedgerAction.Took, hk]
        rintro ⟨t, q, hmem, hq⟩
        have hhas := completion_of_mem hi'.sound hmem (i := c'.pendingId)
          (by simp [TwoPhase.Entry.completes, hq])
        rw [hno'] at hhas
        cases hhas
    rcases hj' with hall' | ⟨hfirst', -⟩
    · exact hfirst (hall'.mpr hsecond)
    · exact hfirst hfirst'

/-! ## On a concrete bank -/

/-- One dispatch with nothing failing. -/
def Bank.deliver (b : Bank) (row : OutboxRow) : Bank := ((dispatchBody row).runWith Bank.answer b).2

/-- It writes planned legs. -/
theorem LegRun.deliver {b : Bank} (h : LegRun b.books) (row : OutboxRow) :
    LegRun (b.deliver row).books := by
  have hpass : ∀ (p : Step Unit) (b : Bank),
      p.answersPass Bank.answer (fun _ _ => true) b = true := by
    intro p
    induction p with
    | ret a => exact fun _ => rfl
    | exit e => exact fun _ => rfl
    | call op k ih => exact fun b => by simp only [Prog.answersPass, ih, Bool.and_self]
  have hstep : ∀ (op : RelayOp) (b : Bank), true = true →
      b.Act Outage op (b.answer op).1 (b.answer op).2 := fun _ _ _ => .inl rfl
  have hkept : ∀ b : Bank, LedgerKept b b := fun _ => rfl
  refine h.dispatch ?_ (Exec.of_runWith hkept hstep (hpass (dispatchBody row) b))
  intro b b' hk hL
  rw [hk]
  exact hL

/-- A redemption's row: all of them are of one investor's ten units. -/
def redemptionRow (seq : Nat) (event : RedemptionEvent) : OutboxRow :=
  { seq, eventId := .raw (100 + seq), aggregateId := .raw 7, payload := .redemptions event,
    attempts := 0 }

/-- Ten units bought for a hundred, and the burn of them reserved. -/
def reservedBank : Bank :=
  ((Bank.empty.deliver
    { seq := 1, eventId := .raw 101, aggregateId := .raw 5,
      payload := .balance (.deposited (.user (.raw 1)) .bep20 100), attempts := 0 }).deliver
    { seq := 2, eventId := .raw 102, aggregateId := .raw 6,
      payload := .subscriptions (.subscribed (.raw 1) ⟨"trading"⟩ 100 10 10), attempts := 0 }).deliver
    (redemptionRow 3 (.requested (.raw 1) ⟨"trading"⟩ 10))

/-- The settlement of that redemption. -/
def settledRow : OutboxRow := redemptionRow 5 (.settled (.raw 1) ⟨"trading"⟩ 10 10 100)

/-- The burn of the sample redemption. -/
def sampleBurn : PlannedOp :=
  completeOp .redeemBurn
    { id := tid (.raw 7) BURN_SETTLE, pendingId := tid (.raw 7) BURN_RESERVE, kind := .post
      debit := .sharesOutstanding ⟨"trading"⟩, credit := .userShares ⟨"trading"⟩ (.raw 1)
      amount := 10, code := .shareBurn, reference := .raw 7 }

/-- The payout of the sample redemption. -/
def samplePayout : PlannedOp :=
  postOp .redeemPayout (legOf (tid (.raw 7) REDEEM_PAYOUT) (.serviceClaim ⟨"trading"⟩)
    (.userClaim (.raw 1)) 100 .redeem (.raw 7))

theorem settledRow_legs : TwoLegs settledRow sampleBurn samplePayout := .redemption rfl rfl

/-- The reservation an entry posted. -/
def BookEntry.settles : BookEntry → Option Uuid
  | .settled _ q => some q.id
  | .posted _ | .pending _ | .voided _ _ => none

/-- Whether a reservation was posted can be looked up. -/
theorem took_post_iff {c : PendingCompletion} (hk : c.kind = .post) {L : Books} :
    (LedgerAction.complete c).Took L ↔
      ∃ e ∈ L.entries, BookEntry.settles e = some c.pendingId := by
  simp only [LedgerAction.Took, hk]
  constructor
  · rintro ⟨t, q, hmem, hq⟩
    exact ⟨_, hmem, congrArg some hq⟩
  · rintro ⟨e, hmem, hq⟩
    cases e with
    | settled t q => exact ⟨t, q, hmem, Option.some.inj hq⟩
    | posted | pending | voided => cases hq

/-- Whether an answer is no conflict of the ledger's. -/
def noConflict : (op : RelayOp) → op.Ans → Bool
  | .ledger _, .error (.conflict _) => false
  | _, _ => true

theorem noConflict_of {op : RelayOp} {a : op.Ans} (h : noConflict op a = true) :
    NoConflict op a := by
  cases op with
  | ledger call =>
    rintro d rfl
    cases h
  | _ => trivial

/-- A dispatch with nothing failing and no conflict answered is a delivery. -/
theorem Bank.deliver_delivery {b : Bank} {row : OutboxRow}
    (hp : (dispatchBody row).answersPass Bank.answer noConflict b = true) :
    Delivery row b (outcomeOf ((dispatchBody row).runWith Bank.answer b).1) (b.deliver row) := by
  have hstep : ∀ (op : RelayOp) (b : Bank), noConflict op (b.answer op).1 = true →
      SettleStep op b (b.answer op).1 (b.answer op).2 := fun _ _ h => ⟨.inl rfl, noConflict_of h⟩
  have hkept : ∀ b : Bank, LedgerKept b b := fun _ => rfl
  exact ⟨row.attempts, Exec.of_runWith hkept hstep hp, rfl⟩

/-- The sample settlement, all or nothing. -/
theorem settle_all_or_nothing_sample :
    Delivery settledRow reservedBank .done (reservedBank.deliver settledRow) ∧
      samplePayout.action.Took (reservedBank.deliver settledRow).books ∧
      AllOrNothing sampleBurn samplePayout (reservedBank.deliver settledRow).books := by
  have hledger : LegRun reservedBank.books := ((LegRun.empty.deliver _).deliver _).deliver _
  have hd : Delivery settledRow reservedBank .done (reservedBank.deliver settledRow) := by
    have hdone : outcomeOf ((dispatchBody settledRow).runWith Bank.answer reservedBank).1 = .done := by
      decide +kernel
    have hpass : (dispatchBody settledRow).answersPass Bank.answer noConflict reservedBank = true := by
      decide +kernel
    exact hdone ▸ Bank.deliver_delivery hpass
  have hvoid : ∀ c, sampleBurn.action = .complete c → ∀ t q,
      .voided t q ∈ reservedBank.books.entries → q.id ≠ c.pendingId := by
    intro c _ t q hmem
    have hnone : ∀ e ∈ reservedBank.books.entries, e.completes = none := by decide +kernel
    cases hnone _ hmem
  have hstart : AllOrNothing sampleBurn samplePayout reservedBank.books := by
    rw [AllOrNothing, sampleBurn, completeOp, took_post_iff rfl]
    show (∃ e ∈ reservedBank.books.entries, _) ↔ TwoPhase.Entry.posted _ ∈ reservedBank.books.entries
    decide +kernel
  refine ⟨hd, ?_, ?_⟩
  · show TwoPhase.Entry.posted _ ∈ (reservedBank.deliver settledRow).books.entries
    decide +kernel
  · exact (settle_all_or_nothing settledRow_legs hledger hvoid hstart .refl hd).1
      fun _ h => by cases h

/-- **A voided burn pays.** On a ledger of planned legs that holds the burn's reservation voided,
and neither leg of the settlement, the settlement's delivery is done, no call answers a conflict,
and the payout is posted while no unit was burned. -/
theorem voided_burn_pays : ∃ b b' : Bank, LegRun b.books ∧
    AllOrNothing sampleBurn samplePayout b.books ∧ Delivery settledRow b .done b' ∧
    samplePayout.action.Took b'.books ∧ ¬ sampleBurn.action.Took b'.books := by
  let b := reservedBank.deliver (redemptionRow 4 (.cancelled (.raw 1) ⟨"trading"⟩ 10))
  have hledger : LegRun b.books := (((LegRun.empty.deliver _).deliver _).deliver _).deliver _
  have hdone : outcomeOf ((dispatchBody settledRow).runWith Bank.answer b).1 = .done := by
    decide +kernel
  have hpass : (dispatchBody settledRow).answersPass Bank.answer noConflict b = true := by
    decide +kernel
  refine ⟨b, b.deliver settledRow, hledger, ?_, hdone ▸ Bank.deliver_delivery hpass, ?_, ?_⟩
  · rw [AllOrNothing, sampleBurn, completeOp, took_post_iff rfl]
    show (∃ e ∈ b.books.entries, _) ↔ TwoPhase.Entry.posted _ ∈ b.books.entries
    decide +kernel
  · show TwoPhase.Entry.posted _ ∈ (b.deliver settledRow).books.entries
    decide +kernel
  · rw [sampleBurn, completeOp, took_post_iff rfl]
    decide +kernel

end Banking
