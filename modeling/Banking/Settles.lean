import Banking.RelayRules
import Banking.Answers
import Banking.Conservation

/-! # Two-leg settlements

A redemption's settle, a fee settlement and a subscription apply by two separate ledger calls. The
relay makes them all or nothing by its pre-check, the order of the legs, and redelivery: `Halfway` is
the one state between, from which a redelivery finds the second leg still covered. -/

namespace Banking

open Interactive (Prog World Exec)
open TwoPhase (Side)

/-! ## The events -/

/-- A row whose event is settled by two ledger calls, with the two operations it plans. -/
inductive TwoLegs (row : OutboxRow) (first second : PlannedOp) : Prop
  | redemption {user : UserId} {service : ServiceId} {units nav cash : Nat}
      (hp : row.payload = .redemptions (.settled user service units nav cash))
      (hops : planRedemption row.aggregateId row.aggregateId
        (.settled user service units nav cash) = [first, second])
  | fees {service : ServiceId} {units nav cash : Nat} {payee : Party}
      (hp : row.payload = .fees (.sharesSettled service units nav cash payee))
      (hops : planFee row.aggregateId row.eventId row.aggregateId
        (.sharesSettled service units nav cash payee) = [first, second])
  | subscription {user : UserId} {service : ServiceId} {cash nav units : Nat}
      (hp : row.payload = .subscriptions (.subscribed user service cash nav units))
      (hops : planSubscription row.aggregateId row.aggregateId
        (.subscribed user service cash nav units) = [first, second])

/-- What an operation that took effect left on the ledger: its transfer, or the completion of the
reservation it names. -/
def LedgerAction.Took : LedgerAction → Books → Prop
  | .post t, L => .posted t ∈ L.entries
  | .reserve t, L => .pending t ∈ L.entries
  | .postLinked ts, L => ∀ t ∈ ts, .posted t ∈ L.entries
  | .complete c, L =>
    match c.kind with
    | .post => ∃ t q, .settled t q ∈ L.entries ∧ q.id = c.pendingId
    | .void => ∃ t q, .voided t q ∈ L.entries ∧ q.id = c.pendingId
  | .linked legs, L => ∀ leg ∈ legs, L.has leg.id = true
  | .broadcast _, _ => False

variable {row : OutboxRow} {first second : PlannedOp} {L L' : Books}

/-- The plan of a two-legged row. -/
theorem TwoLegs.plan_eq (h : TwoLegs row first second) : plan row = .ok [first, second] := by
  cases h with
  | redemption hp hops | fees hp hops | subscription hp hops => simp only [plan, hp, hops]

/-- **A two-legged row's dispatch**: its pre-check, its legs, what follows them. -/
theorem TwoLegs.dispatchBody_eq (h : TwoLegs row first second) : dispatchBody row =
    (liquidityGate second).bind fun _ => (applyLeg none row first 0).bind fun _ =>
      (applyLeg none row second 1).bind fun _ => finish none row := by
  have hplan := h.plan_eq
  unfold dispatchBody
  rw [hplan]
  cases h with
  | redemption hp hops | fees hp hops | subscription hp hops =>
    cases hops
    simp [refusedGate, refusedReserve, hp, Payload.kind, Posting.of, dispatchPlanned, guards, postingGuard,
      applyLegs, Prog.each_cons, liquidityGate, completeOp, postOp, broadcastGate, voidGate, holdGate,
      Prog.bind_assoc, legOf, BURN_SETTLE, REDEEM_PAYOUT, CLEARING_VOID_FAIL, FEE_SETTLE_BURN,
      FEE_SETTLE_PAYOUT, SUBSCRIBE_CASH, SUBSCRIBE_MINT]

/-! ## The second leg

The second leg is one posted transfer. Of its two accounts only the debited one can refuse it: the
credited one is a claim, or the units-outstanding contra. -/

/-- The second leg's transfer. -/
theorem TwoLegs.second_post (h : TwoLegs row first second) : ∃ t, second = postOp second.role t ∧
    t.credit.normal = .credit ∧ (t.debit.normal = .credit → ∃ s, t.debit = .serviceClaim s) := by
  have hclaim : ∀ p : Party, p.claimKey.normal = .credit := by
    intro p
    cases p <;> rfl
  cases h with
  | redemption hp hops => cases hops; exact ⟨_, rfl, rfl, fun _ => ⟨_, rfl⟩⟩
  | fees hp hops => cases hops; exact ⟨_, rfl, hclaim _, fun _ => ⟨_, rfl⟩⟩
  | subscription hp hops => cases hops; exact ⟨_, rfl, rfl, fun hn => by cases hn⟩

/-- The second leg, once submitted, cannot be refused for want of funds: it is on the ledger under
its id already, or the account it debits holds its amount. -/
def Covered (second : PlannedOp) (L : Books) : Prop :=
  ∀ t, second.action = .post t → L.has t.id = true ∨ (t.debit.normal = .credit → t.amount ≤ L.room t.debit)

/-! ## The first leg -/

/-- An entry the first leg may leave: it is neither a reservation nor a void, it is not the second
leg's, and it leaves what the second leg debits alone. -/
structure Beside (second : PlannedOp) (e : BookEntry) : Prop where
  id_ne : ∀ t, second.action = .post t → e.id ≠ t.id
  room_eq : ∀ t, second.action = .post t → t.debit.normal = .credit → e.roomOf t.debit = 0
  not_pending : ∀ t, e ≠ .pending t
  not_voided : ∀ t q, e ≠ .voided t q

/-- Nothing a ledger of the relay's holds makes the first leg's completion find its reservation
voided, and no reservation waits to credit a fund's claim. -/
structure Settleable (first : PlannedOp) (L : Books) : Prop where
  sound : L.Sound
  unreserved : ∀ t, .pending t ∈ L.entries → ∀ s, t.credit ≠ .serviceClaim s
  not_voided : ∀ c, first.action = .complete c → ∀ t q, .voided t q ∈ L.entries → q.id ≠ c.pendingId

theorem Settleable.push {e : BookEntry} (h : Settleable first L) (he : L.Accepts e)
    (hb : Beside second e) : Settleable first (L.push e) where
  sound := h.sound.push he
  unreserved := by
    intro t ht
    rcases List.mem_cons.mp ht with ht | ht
    · exact absurd ht.symm (hb.not_pending t)
    · exact h.unreserved t ht
  not_voided := by
    intro c hc t q ht
    rcases List.mem_cons.mp ht with ht | ht
    · exact absurd ht.symm (hb.not_voided t q)
    · exact h.not_voided c hc t q ht

/-- The first leg of a two-legged event: a posted transfer, or the posting of a reservation. -/
theorem TwoLegs.first_leg (h : TwoLegs row first second) :
    (∃ t, first.action = .post t ∧ Beside second (.posted t)) ∨
      ∃ c, first.action = .complete c ∧ c.kind = .post ∧
        ∀ q : LedgerTransfer, c.debit = q.debit → c.credit = q.credit →
          Beside second (c.entry q) := by
  cases h with
  | redemption hp hops =>
    cases hops
    refine .inr ⟨_, rfl, rfl, fun q hd hc => ?_⟩
    refine ⟨?_, ?_, (fun _ hq => by cases hq), fun _ _ hq => by cases hq⟩
    · rintro t ⟨⟩
      simp [PendingCompletion.entry, TwoPhase.Entry.id, TwoPhase.Entry.transfer,
        PendingCompletion.request, TwoPhase.Request.transfer, legOf, BURN_SETTLE, REDEEM_PAYOUT]
    · rintro t ⟨⟩ -
      simp [PendingCompletion.entry, TwoPhase.Entry.roomOf, TwoPhase.Entry.balanceOf,
        TwoPhase.Entry.postedOn, TwoPhase.Entry.pendingOn, TwoPhase.Entry.legs, legOf,
        LedgerAccountKey.normal, ← hd, ← hc]
  | fees hp hops =>
    cases hops
    refine .inl ⟨_, rfl, ?_, ?_, (fun _ hq => by cases hq), fun _ _ hq => by cases hq⟩
    · rintro t ⟨⟩
      simp [TwoPhase.Entry.id, TwoPhase.Entry.transfer, legOf, FEE_SETTLE_BURN, FEE_SETTLE_PAYOUT]
    · rintro t ⟨⟩ -
      simp [TwoPhase.Entry.roomOf, TwoPhase.Entry.balanceOf, TwoPhase.Entry.postedOn,
        TwoPhase.Entry.pendingOn, TwoPhase.Entry.legs, legOf, LedgerAccountKey.normal]
  | subscription hp hops =>
    cases hops
    refine .inl ⟨_, rfl, ?_, ?_, (fun _ hq => by cases hq), fun _ _ hq => by cases hq⟩
    · rintro t ⟨⟩
      simp [TwoPhase.Entry.id, TwoPhase.Entry.transfer, legOf, SUBSCRIBE_CASH, SUBSCRIBE_MINT]
    · rintro t ⟨⟩ hn
      cases hn

/-- A leg stays on the ledger. -/
theorem LedgerAction.Took.push {action : LedgerAction} (h : action.Took L) (e : BookEntry) :
    action.Took (L.push e) := by
  cases action with
  | post t | reserve t => exact List.mem_cons_of_mem _ h
  | postLinked ts => exact fun t ht => List.mem_cons_of_mem _ (h t ht)
  | complete c =>
    unfold LedgerAction.Took at h ⊢
    cases hk : c.kind <;> simp only [hk] at h ⊢
    all_goals
      obtain ⟨t, q, hmem, hq⟩ := h
      exact ⟨t, q, List.mem_cons_of_mem _ hmem, hq⟩
  | linked legs =>
    intro leg hleg
    rw [TwoPhase.Ledger.has_push, h leg hleg, Bool.or_true]
  | broadcast request => exact h

/-- Only entries count: spending an id takes nothing back. -/
theorem LedgerAction.took_refused {action : LedgerAction} {is : List Uuid} :
    action.Took { L with refused := is } ↔ action.Took L := by
  cases action <;> exact Iff.rfl

theorem Settleable.refused {is : List Uuid} (h : Settleable first L) :
    Settleable first { L with refused := is } :=
  ⟨h.sound.refuse is, h.unreserved, h.not_voided⟩

/-- How a leg ends on the ledger: it took effect, with at most an entry `p` added; it was refused with
nothing taken before or after; or it conflicts. -/
inductive LegAnswer (op : PlannedOp) (p : BookEntry → Prop) (L : Books) :
    Except LedgerError Unit × Books → Prop
  | took {L' : Books} (hL : L' = L ∨ ∃ e, L' = L.push e ∧ L.Accepts e ∧ p e)
      (ht : op.action.Took L') : LegAnswer op p L (.ok (), L')
  | refused (e : LedgerError) (is : List Uuid) (hno : ¬ op.action.Took L) :
      LegAnswer op p L (.error e, { L with refused := is })
  | conflict (d : String) : LegAnswer op p L (.error (.conflict d), L)

/-- A transfer on the ledger is on it under its id. -/
theorem has_of_mem {e : BookEntry} (h : e ∈ L.entries) : L.has e.id = true :=
  TwoPhase.Ledger.has_iff.mpr ⟨e, h, rfl⟩

/-- A completed reservation is on the ledger. -/
theorem completion_of_mem (hs : L.Sound) {e : BookEntry} {i : Uuid} (h : e ∈ L.entries)
    (hc : e.completes = some i) : L.has i = true := by
  have hsome : (L.completion i).isSome := by
    unfold TwoPhase.Ledger.completion
    rw [List.find?_isSome]
    exact ⟨e, h, by simp [hc]⟩
  obtain ⟨e', he'⟩ := Option.isSome_iff_exists.mp hsome
  exact hs.has_of_completion he'

/-- **What the first leg can do.** -/
theorem TwoLegs.first_answer (h : TwoLegs row first second) (hi : Settleable first L)
    {call : LedgerCall} (hcall : first.action.call? = some call) :
    LegAnswer first (Beside second) L (call.run L) := by
  rcases h.first_leg with ⟨t, ha, hb⟩ | ⟨c, ha, hk, hb⟩
  · rw [ha] at hcall
    cases hcall
    have hans := transfer_answer (L := L) (t := t) (.inl rfl)
    change LegAnswer first (Beside second) L (createTransfers [.post t] L)
    generalize createTransfers [.post t] L = x at hans
    cases hans with
    | created hc =>
      refine .took (.inr ⟨_, rfl, TwoPhase.Ledger.accepts_of_check hc, hb⟩) ?_
      rw [ha]
      exact List.mem_cons_self
    | found he => exact .took (.inl rfl) (by rw [ha]; exact he)
    | refused hfresh hnew hflag =>
      refine .refused _ _ ?_
      rw [ha]
      intro hmem
      have hhas : L.has t.id = true := has_of_mem hmem
      rw [hfresh] at hhas
      cases hhas
    | conflict d => exact .conflict d
  · rw [ha] at hcall
    cases hcall
    have hans := complete_answer L c
    change LegAnswer first (Beside second) L (createTransfers [c.request] L)
    have htook : ∀ {L' : Books}, (∃ t q, .settled t q ∈ L'.entries ∧ q.id = c.pendingId) →
        first.action.Took L' := by
      intro L' hex
      rw [ha]
      simpa only [LedgerAction.Took, hk] using hex
    have hentry : ∀ q, c.entry q = .settled c.request.transfer q := by
      intro q
      unfold PendingCompletion.entry
      rw [hk]
    generalize createTransfers [c.request] L = x at hans
    cases hans with
    | created hc hq hdebit hcredit hopen =>
      have hacc := TwoPhase.Ledger.accepts_of_check hc
      have hentryOf : L.entryOf c.request = c.entry _ := entryOf_complete hq
      refine .took (.inr ⟨_, rfl, hentryOf ▸ hacc, hb _ hdebit hcredit⟩) (htook ?_)
      refine ⟨c.request.transfer, _, ?_, (TwoPhase.Ledger.find_mem hq).2⟩
      rw [← hentry]
      exact List.mem_cons_self
    | found he hq => exact .took (.inl rfl) (htook ⟨_, _, hentry _ ▸ he, hq⟩)
    | done he =>
      refine .took (.inl rfl) (htook ?_)
      obtain ⟨hmem, hcomp⟩ := TwoPhase.Ledger.completion_mem he
      rename_i e
      cases e with
      | posted | pending => cases hcomp
      | settled t q => exact ⟨t, q, hmem, by simpa [TwoPhase.Entry.completes] using hcomp⟩
      | voided t q =>
        exact absurd (by simpa [TwoPhase.Entry.completes] using hcomp) (hi.not_voided c ha t q hmem)
    | missing d hfresh hnew hq =>
      refine .refused _ _ ?_
      rw [ha]
      simp only [LedgerAction.Took, hk]
      rintro ⟨t, q, hmem, hq'⟩
      have hhas := completion_of_mem hi.sound hmem (i := c.pendingId)
        (by simp [TwoPhase.Entry.completes, hq'])
      rw [hq] at hhas
      cases hhas
    | conflict d => exact .conflict d

/-- **What the second leg can do**, covered. -/
theorem TwoLegs.second_answer (h : TwoLegs row first second) (hcov : Covered second L)
    {call : LedgerCall} (hcall : second.action.call? = some call) :
    (∃ L', call.run L = (.ok (), L') ∧ second.action.Took L' ∧
      (L' = L ∨ ∃ t, second.action = .post t ∧ L' = L.push (.posted t) ∧
        L.Accepts (.posted t))) ∨
      ∃ d, call.run L = (.error (.conflict d), L) := by
  obtain ⟨t, hsecond, hcredit, -⟩ := h.second_post
  have ha : second.action = .post t := by rw [hsecond]; rfl
  rw [ha] at hcall
  cases hcall
  have hans := transfer_answer (L := L) (t := t) (.inl rfl)
  change (∃ L', createTransfers [.post t] L = _ ∧ _) ∨ ∃ d, createTransfers [.post t] L = _
  generalize createTransfers [.post t] L = x at hans
  cases hans with
  | created hc =>
    refine .inl ⟨_, rfl, ?_, .inr ⟨t, ha, rfl, TwoPhase.Ledger.accepts_of_check hc⟩⟩
    rw [ha]
    exact List.mem_cons_self
  | found he => exact .inl ⟨_, rfl, by rw [ha]; exact he, .inl rfl⟩
  | refused hfresh hnew hflag =>
    exfalso
    rcases hflag with ⟨hn, hroom⟩ | ⟨hn, -⟩
    · rcases hcov t ha with hhas | hle
      · rw [hfresh] at hhas
        cases hhas
      · have := hle hn
        omega
    · rw [hcredit] at hn
      cases hn
  | conflict d => exact .inr ⟨d, rfl⟩

/-! ## The pre-check -/

/-- With no reservation waiting to credit it, what a claim has available is its room. -/
theorem available_le_iff (hs : L.Sound) {k : LedgerAccountKey} (hn : k.normal = .credit)
    (hk : ∀ t, .pending t ∈ L.entries → t.credit ≠ k) {b : LedgerBalance}
    (hb : balanceOf k L = .ok b) (n : Nat) : n ≤ b.available ↔ (n : Int) ≤ L.room k := by
  have hpend : L.pending .credit k = 0 := by
    rw [hs.pending_eq_standing]
    refine List.sum_eq_zero fun x hx => ?_
    obtain ⟨t, ht, rfl⟩ := List.mem_map.mp hx
    exact if_neg (hk t (TwoPhase.Ledger.mem_standing.mp ht).1)
  have hroom := hs.room_nonneg k
  have hbal := hs.balance_nonneg k
  have hdebit := hs.pending_nonneg .debit k
  rw [balanceOf_sound hs k] at hb
  cases hb
  unfold TwoPhase.Ledger.room TwoPhase.Ledger.balance at *
  simp only [chart_normal, hn, Side.flip, hpend, LedgerBalance.available] at *
  omega

/-- The world of one settlement: the ledger, with outages and no conflict answered, and nothing else
writing to it. -/
def NoConflict : (op : RelayOp) → op.Ans → Prop
  | .ledger _, a => ∀ d, a ≠ .error (.conflict d)
  | _, _ => True

def settleWorld (first : PlannedOp) : World RelayOp RelayOp.Ans Books where
  step op L a L' := ledgerStep op L a L' ∧ NoConflict op a
  rely L L' := L' = L
  inv := Settleable first

/-- The pre-check of one leg: it passes with the leg on the ledger or its amount at hand, and parks
only short of it. -/
theorem wp_checkLiquidity (hi : Settleable first L) {id : Uuid} {key : LedgerAccountKey}
    {f : LedgerBalance → Nat} {n : Nat} {Q : Unit → Books → Prop} {E : Outcome → Books → Prop}
    (hhas : L.has id = true → Q () L)
    (hpass : ∀ b, balanceOf key L = .ok b → n ≤ f b → Q () L)
    (hshort : L.has id = false → ∀ b, balanceOf key L = .ok b → f b < n →
      E (.park (key.logicalKey ++ " liquidity insufficient at settle") 0) L)
    (hretry : ∀ d, E (.retry d) L) :
    (settleWorld first).wp Q E (checkLiquidity id key f n) L := by
  unfold checkLiquidity
  rw [Prog.bind_eq, World.wp_bind, wp_ask]
  rintro _ rfl - a L' ⟨⟨rfl, ha⟩, -⟩
  refine ⟨hi, ?_⟩
  rw [Prog.bind_eq, World.wp_bind]
  rcases ha with rfl | ⟨d, rfl⟩
  swap
  · exact hretry d
  rw [orPark_ok, World.wp_ret]
  by_cases hid : L'.has id = true
  · simp only [transferExists, hid, if_true]
    exact hhas hid
  · simp only [transferExists, hid, if_false, Bool.false_eq_true]
    rw [Prog.bind_eq, World.wp_bind, wp_ask]
    rintro _ rfl - a L ⟨⟨rfl, ha⟩, -⟩
    refine ⟨hi, ?_⟩
    rw [Prog.bind_eq, World.wp_bind]
    rcases ha with rfl | ⟨d, rfl⟩
    swap
    · exact hretry d
    rw [balanceOf_sound hi.sound key, orPark_ok, World.wp_ret]
    split
    · next hlt => exact hshort (by simpa using hid) _ (balanceOf_sound hi.sound key) hlt
    · next hge => exact hpass _ (balanceOf_sound hi.sound key) (not_lt.mp hge)

/-- **The pre-check** passes only with the second leg covered, and parks only without. -/
theorem TwoLegs.wp_liquidityGate (h : TwoLegs row first second) (hi : Settleable first L) :
    (settleWorld first).wp (fun _ L' => L' = L ∧ Covered second L)
      (fun o L' => L' = L ∧ ((∃ d, o = .retry d) ∨ ¬ Covered second L ∧ ∃ reason, o = .park reason 0))
      (liquidityGate second) L := by
  have hfund : ∀ {role : Role} {t : LedgerTransfer}, second = postOp role t →
      (∃ s, t.debit = .serviceClaim s) →
      (settleWorld first).wp (fun _ L' => L' = L ∧ Covered second L)
        (fun o L' => L' = L ∧
          ((∃ d, o = .retry d) ∨ ¬ Covered second L ∧ ∃ reason, o = .park reason 0))
        (checkLiquidity t.id t.debit (·.available) t.amount) L := by
    rintro role t rfl ⟨s, hs⟩
    have hn : t.debit.normal = .credit := by rw [hs]; rfl
    have havail := fun {b} hb => available_le_iff hi.sound hn
      (fun t' ht' => hs ▸ hi.unreserved t' ht' s) (b := b) hb t.amount
    refine wp_checkLiquidity hi (fun hhas => ⟨rfl, ?_⟩) (fun b hb hle => ⟨rfl, ?_⟩)
      (fun hhas b hb hlt => ⟨rfl, .inr ⟨?_, _, rfl⟩⟩) (fun d => ⟨rfl, .inl ⟨d, rfl⟩⟩)
    · rintro _ ⟨⟩
      exact .inl hhas
    · rintro _ ⟨⟩
      exact .inr fun _ => (havail hb).mp hle
    · intro hcov
      rcases hcov t rfl with h' | h'
      · rw [hhas] at h'
        cases h'
      · exact absurd ((havail hb).mpr (h' hn)) (by omega)
  cases h with
  | redemption hp hops => cases hops; exact hfund rfl ⟨_, rfl⟩
  | fees hp hops => cases hops; exact hfund rfl ⟨_, rfl⟩
  | subscription hp hops =>
    cases hops
    refine ⟨rfl, ?_⟩
    rintro _ ⟨⟩
    exact .inr fun hn => nomatch hn

/-! ## One dispatch -/

/-- Both legs took effect, or neither. -/
def AllOrNothing (first second : PlannedOp) (L : Books) : Prop :=
  first.action.Took L ↔ second.action.Took L

/-- What a redelivery resumes from: both legs, neither, or the first with the second covered. -/
def Resumable (first second : PlannedOp) (L : Books) : Prop :=
  AllOrNothing first second L ∨ first.action.Took L ∧ Covered second L

theorem Covered.push {e : BookEntry} (h : Covered second L) (hb : Beside second e) :
    Covered second (L.push e) := by
  intro t ht
  rcases h t ht with hhas | hroom
  · exact .inl (by rw [TwoPhase.Ledger.has_push, hhas, Bool.or_true])
  · refine .inr fun hn => ?_
    rw [TwoPhase.Ledger.room_push, hb.room_eq t ht hn]
    have := hroom hn
    omega

/-- After the first leg, whatever its answer, a redelivery resumes; it is half applied only with the
leg taken and the second covered. -/
theorem LegAnswer.first_after {x : Except LedgerError Unit × Books}
    (hx : LegAnswer first (Beside second) L x) (hi : Settleable first L)
    (hcov : Covered second L) (hj : Resumable first second L) :
    Settleable first x.2 ∧ Resumable first second x.2 ∧
      (x.1 = .ok () → first.action.Took x.2 ∧ Covered second x.2) ∧
      ∀ e, x.1 = .error e → (∀ d, e ≠ .conflict d) → AllOrNothing first second x.2 := by
  cases hx with
  | took hL ht =>
    rcases hL with rfl | ⟨e, rfl, hacc, hb⟩
    · exact ⟨hi, .inr ⟨ht, hcov⟩, fun _ => ⟨ht, hcov⟩, fun _ h => nomatch h⟩
    · exact ⟨hi.push hacc hb, .inr ⟨ht, hcov.push hb⟩, fun _ => ⟨ht, hcov.push hb⟩,
        fun _ h => nomatch h⟩
  | refused e is hno =>
    have hnone : AllOrNothing first second { L with refused := is } :=
      (LedgerAction.took_refused.trans (hj.resolve_right fun h => hno h.1)).trans
        LedgerAction.took_refused.symm
    exact ⟨hi.refused, .inl hnone, (fun h => nomatch h), fun _ _ _ => hnone⟩
  | conflict d =>
    refine ⟨hi, hj, (fun h => nomatch h), fun e he hne => ?_⟩
    cases he
    exact absurd rfl (hne d)

/-- After the second leg, covered and with the first taken, whatever its answer. -/
theorem TwoLegs.second_after (h : TwoLegs row first second) (hi : Settleable first L)
    (ht : first.action.Took L) (hcov : Covered second L) {call : LedgerCall}
    (hcall : second.action.call? = some call) :
    Settleable first (call.run L).2 ∧ first.action.Took (call.run L).2 ∧
      Covered second (call.run L).2 ∧
      ((call.run L).1 = .ok () ∧ second.action.Took (call.run L).2 ∨
        ∃ d, (call.run L).1 = .error (.conflict d)) := by
  rcases h.second_answer hcov hcall with ⟨L', hrun, htook, hL'⟩ | ⟨d, hrun⟩
  · rw [hrun]
    refine ⟨?_, ?_, ?_, .inl ⟨rfl, htook⟩⟩
    · rcases hL' with rfl | ⟨t, -, rfl, hacc⟩
      · exact hi
      · refine ⟨hi.sound.push hacc, fun t' ht' => ?_, fun c hc t' q ht' => ?_⟩
        · rcases List.mem_cons.mp ht' with h' | h'
          · cases h'
          · exact hi.unreserved t' h'
        · rcases List.mem_cons.mp ht' with h' | h'
          · cases h'
          · exact hi.not_voided c hc t' q h'
    · rcases hL' with rfl | ⟨t, -, rfl, -⟩
      · exact ht
      · exact ht.push _
    · rcases hL' with rfl | ⟨t, hact, rfl, -⟩
      · exact hcov
      · intro t' ht'
        rw [hact] at ht'
        cases ht'
        exact .inl (has_of_mem (e := .posted t) List.mem_cons_self)
  · rw [hrun]
    exact ⟨hi, ht, hcov, .inr ⟨d, rfl⟩⟩

theorem TwoLegs.first_call (h : TwoLegs row first second) :
    ∃ call, first.action.call? = some call := by
  rcases h.first_leg with ⟨t, ha, -⟩ | ⟨c, ha, -⟩ <;> exact ⟨_, by rw [ha]; rfl⟩

theorem TwoLegs.second_call (h : TwoLegs row first second) :
    ∃ call, second.action.call? = some call := by
  obtain ⟨t, hsecond, -⟩ := h.second_post
  exact ⟨_, by rw [hsecond]; rfl⟩

/-- **One dispatch.** From a state it can resume, it ends with both legs taken; or waits out an
outage, to be resumed; or ends otherwise, with both legs or neither. -/
theorem TwoLegs.wp_dispatchBody (h : TwoLegs row first second) (hi : Settleable first L)
    (hj : Resumable first second L) :
    (settleWorld first).wp (fun _ L' => first.action.Took L' ∧ second.action.Took L')
      (fun o L' => Resumable first second L' ∧
        ((∀ d, o ≠ .retry d) → AllOrNothing first second L'))
      (dispatchBody row) L := by
  obtain ⟨call₁, hcall₁⟩ := h.first_call
  obtain ⟨call₂, hcall₂⟩ := h.second_call
  rw [h.dispatchBody_eq, World.wp_bind]
  refine World.wp_mono (h.wp_liquidityGate hi) ?_ ?_
  · -- the pre-check passed
    rintro _ _ ⟨rfl, hcov⟩
    rw [World.wp_bind, wp_applyLeg hcall₁]
    rintro L rfl - a L₁ ⟨hstep, hno⟩
    obtain ⟨hi₁, hj₁, hok₁, herr₁⟩ := (h.first_answer hi hcall₁).first_after hi hcov hj
    rcases hstep with hstep | ⟨⟨d, rfl⟩, hL₁⟩
    swap
    · -- an outage on the first leg
      have hretry : ∀ L₁, L₁ = L ∨ L₁ = (call₁.run L).2 →
          Settleable first L₁ ∧ Resumable first second L₁ := by
        rintro _ (rfl | rfl)
        · exact ⟨hi, hj⟩
        · exact ⟨hi₁, hj₁⟩
      obtain ⟨hi', hj'⟩ := hretry L₁ hL₁
      exact ⟨hi', hj', fun hne => absurd rfl (hne d)⟩
    have ha : (call₁.run L).1 = a := by rw [← hstep]
    obtain rfl : (call₁.run L).2 = L₁ := by rw [← hstep]
    refine ⟨hi₁, ?_⟩
    match a, ha, hno with
    | .error (.conflict d), _, hno => exact absurd rfl (hno d)
    | .error (.unavailable d), _, _ => exact ⟨hj₁, fun hne => absurd rfl (hne d)⟩
    | .error (.retryable d), ha, _ =>
      exact ⟨hj₁, fun _ => herr₁ _ ha fun _ hc => nomatch hc⟩
    | .error .insufficientFunds, ha, _ =>
      exact ⟨hj₁, fun _ => herr₁ _ ha fun _ hc => nomatch hc⟩
    | .ok (), ha, _ =>
      -- the first leg took effect
      obtain ⟨htook₁, hcov₁⟩ := hok₁ ha
      refine wp_recordLeg hcall₁ ?_
      rintro _ rfl - b _ ⟨rfl, -⟩
      refine ⟨hi₁, ?_, fun e => ⟨.inr ⟨htook₁, hcov₁⟩, fun hne => absurd rfl (hne _)⟩⟩
      rw [World.wp_bind, wp_applyLeg hcall₂]
      rintro _ rfl - a L₂ ⟨hstep₂, hno₂⟩
      obtain ⟨hi₂, ht₂, hcov₂, hans₂⟩ := h.second_after hi₁ htook₁ hcov₁ hcall₂
      rcases hstep₂ with hstep₂ | ⟨⟨d, rfl⟩, rfl | rfl⟩
      · have ha₂ : (call₂.run (call₁.run L).2).1 = a := by rw [← hstep₂]
        obtain rfl : (call₂.run (call₁.run L).2).2 = L₂ := by rw [← hstep₂]
        refine ⟨hi₂, ?_⟩
        rcases hans₂ with ⟨hok, htook₂⟩ | ⟨d, hd⟩
        · obtain rfl : a = .ok () := ha₂.symm.trans hok
          have hboth : AllOrNothing first second _ := ⟨fun _ => htook₂, fun _ => ht₂⟩
          refine wp_recordLeg hcall₂ ?_
          rintro _ rfl - b _ ⟨rfl, -⟩
          refine ⟨hi₂, ?_, fun e => ⟨.inl hboth, fun hne => absurd rfl (hne _)⟩⟩
          refine World.wp_mono (World.wp_within
            (J := fun L => first.action.Took L ∧ second.action.Took L) (finish_within none row)
            ?_ ?_ ⟨ht₂, htook₂⟩) (fun _ _ hQ => hQ) ?_
          · rintro L L' rfl hL
            exact hL
          · rintro op L b L' hop hinv hL ⟨hs, -⟩
            cases hop <;> (obtain rfl := hs; exact ⟨hinv, hL⟩)
          · rintro o L ⟨h₁, h₂⟩
            exact ⟨.inl ⟨fun _ => h₂, fun _ => h₁⟩, fun _ => ⟨fun _ => h₂, fun _ => h₁⟩⟩
        · obtain rfl : a = .error (.conflict d) := ha₂.symm.trans hd
          exact absurd rfl (hno₂ d)
      · exact ⟨hi₁, .inr ⟨htook₁, hcov₁⟩, fun hne => absurd rfl (hne d)⟩
      · exact ⟨hi₂, .inr ⟨ht₂, hcov₂⟩, fun hne => absurd rfl (hne d)⟩
  · -- the pre-check did not pass
    rintro o L' ⟨rfl, ⟨d, rfl⟩ | ⟨hcov, reason, rfl⟩⟩
    · exact ⟨hj, fun hne => absurd rfl (hne d)⟩
    · have hnone : AllOrNothing first second L' := hj.resolve_right fun h' => hcov h'.2
      exact ⟨.inl hnone, fun _ => hnone⟩

end Banking
