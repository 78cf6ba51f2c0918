import Banking.FeeRuns

/-! # Nobody re-prices time that has passed

A promotion carries every holder's fee up to the date it is effective from, on the old terms, before
it binds the new ones; and a charge is dropped when the clock it was assessed against has moved. So
each bill is on terms that were effective when its time began and not yet replaced when it ended
(`nobody_reprices`) — as long as no clock is set back, and no position comes to hold units behind a
promotion's back. -/

namespace Banking

open Interactive

/-! ## The invariant -/

/-- A time past the effective date of every promotion, committed or under way. -/
def FeePlane.Past (w : FeePlane) (time : Nat) : Prop :=
  (∀ p ∈ w.promotions, p.change.effectiveFrom ≤ time) ∧
    ∀ p ∈ w.promoting, p.change.effectiveFrom ≤ time

/-- **The writes of one position that keep its clock in order**: none is stamped before the clock
it overwrites, nothing is charged to a position that holds no units, and one that comes to hold
units has its clock past every promotion, committed or under way. -/
def FeeOp.OrderlyFor (user : UserId) (w : FeePlane) : FeeOp → Prop
  | .charge a _ expected now =>
    a.user = user → ∀ row, w.positions user = some row → row.accruedAt = expected →
      expected ≤ now ∧ row.units ≠ 0
  | .writePosition holder found row _ =>
    holder = user → found.accruedAt ≤ row.accruedAt ∧
      (found.units = 0 → row.units ≠ 0 → w.Past row.accruedAt)
  | .insertPosition holder row => holder = user → row.units ≠ 0 → w.Past row.accruedAt
  | _ => True

/-- **One position's fees are settled.** With units, its clock is past every promotion, and past one
under way unless that has locked it. Its bills are reckoned on terms effective from when they
begin. -/
structure FeePlane.Settled (user : UserId) (Basis : Nat → Prop) (w : FeePlane) : Prop where
  due : ∀ p ∈ w.promoting, p.change.effectiveFrom ≤ w.now
  basis : ∀ row, w.positions user = some row → Basis row.costBasis
  bound : ∀ row, w.positions user = some row → row.units ≠ 0 →
    ∀ p ∈ w.promotions, p.change.effectiveFrom ≤ row.accruedAt
  coming : ∀ p ∈ w.promoting, ∀ row, w.positions user = some row → row.units ≠ 0 →
    p.holders user = false → p.change.effectiveFrom ≤ row.accruedAt
  bills : ∀ b ∈ w.bills user, w.Reckoned Basis b ∧
    ∀ p ∈ w.promotions.take b.generation, p.change.effectiveFrom ≤ b.src

section Settled

variable {user : UserId} {Basis : Nat → Prop} {w w' : FeePlane}

/-- The bills stay as they were reckoned. -/
theorem FeePlane.Settled.bills_grow (h : w.Settled user Basis) (hgrows : w.Grows w') :
    ∀ b ∈ w.bills user, w'.Reckoned Basis b ∧
      ∀ p ∈ w'.promotions.take b.generation, p.change.effectiveFrom ≤ b.src := by
  intro b hb
  obtain ⟨hreckoned, htake⟩ := h.bills b hb
  refine ⟨hreckoned.grows hgrows, ?_⟩
  rw [hgrows.take hreckoned.generation]
  exact htake

/-- What leaves one position, its bills and the promotions alone. -/
theorem FeePlane.Settled.frame (h : w.Settled user Basis) (hgrows : w.Grows w')
    (hposition : w'.positions user = w.positions user) (hbills : w'.bills user = w.bills user)
    (hpromotions : w'.promotions = w.promotions)
    (hpromoting : ∀ p ∈ w'.promoting, p ∈ w.promoting) : w'.Settled user Basis where
  due p hp := (h.due p (hpromoting p hp)).trans hgrows.now
  basis row hrow := h.basis row (hposition ▸ hrow)
  bound row hrow hunits := hpromotions ▸ h.bound row (hposition ▸ hrow) hunits
  coming p hp row hrow := h.coming p (hpromoting p hp) row (hposition ▸ hrow)
  bills := hbills ▸ h.bills_grow hgrows

/-- **One write of a settled position**, at a clock past every promotion it was past, the bill with
it reckoned from the clock it found. -/
theorem FeePlane.Settled.write (h : w.Settled user Basis) {row : PositionRow} (bill : Option Bill)
    (hbasis : Basis row.costBasis) (hpast : row.units ≠ 0 →
      (∀ p ∈ w.promotions, p.change.effectiveFrom ≤ row.accruedAt) ∧
        ∀ p ∈ w.promoting, p.holders user = false → p.change.effectiveFrom ≤ row.accruedAt)
    (hbill : ∀ b ∈ bill, w.Reckoned Basis b ∧
      ∀ p ∈ w.promotions, p.change.effectiveFrom ≤ b.src) :
    (bill.elim (w.store user row) ((w.store user row).bill user)).Settled user Basis := by
  have hrow : ∀ r, some row = some r → r = row := fun r hr => (Option.some.inj hr).symm
  have hstored : (w.store user row).Settled user Basis := by
    have hself : (w.store user row).positions user = some row := Function.update_self ..
    refine ⟨h.due, fun r hr => ?_, fun r hr hunits => ?_, fun p hp r hr hunits hout => ?_, ?_⟩
    · exact hrow r (hself ▸ hr) ▸ hbasis
    · obtain rfl := hrow r (hself ▸ hr)
      exact (hpast hunits).1
    · obtain rfl := hrow r (hself ▸ hr)
      exact (hpast hunits).2 p hp hout
    · exact h.bills_grow (.of_eq rfl rfl rfl)
  cases bill with
  | none => exact hstored
  | some b =>
    refine ⟨hstored.due, hstored.basis, hstored.bound, hstored.coming, fun b' hb' => ?_⟩
    have hbills : ((w.store user row).bill user b).bills user = b :: w.bills user :=
      Function.update_self ..
    have hgrows : w.Grows ((w.store user row).bill user b) := .of_eq rfl rfl rfl
    rw [Option.elim_some, hbills] at hb'
    rcases List.mem_cons.mp hb' with rfl | hb'
    · obtain ⟨hreckoned, hsrc⟩ := hbill b' rfl
      exact ⟨hreckoned.grows hgrows, fun p hp => hsrc p (List.mem_of_mem_take hp)⟩
    · exact h.bills_grow hgrows b' hb'

/-- **New terms bound** over a settled position. -/
theorem FeePlane.Settled.bind (h : w.Settled user Basis) {change : TermsChange}
    {holders : UserId → Bool} {marks : UserId → Option Nat}
    (hpromoting : w.promoting = some { change, holders })
    (hcarries : ∀ row e, w.carried change holders marks user ≠ some (row, .error e)) :
    (w.bind change holders marks).Settled user Basis := by
  have hgrows : w.Grows (w.bind change holders marks) :=
    ⟨le_rfl, rfl, [{ change, committedAt := w.now }], rfl, fun p hp =>
      List.mem_singleton.mp hp ▸ le_rfl⟩
  have hdue : change.effectiveFrom ≤ w.now := h.due _ hpromoting
  have hpromotions : ∀ {time : Nat}, (∀ p ∈ w.promotions, p.change.effectiveFrom ≤ time) →
      change.effectiveFrom ≤ time →
      ∀ p ∈ (w.bind change holders marks).promotions, p.change.effectiveFrom ≤ time := by
    intro time hold hnew p hp
    rcases List.mem_append.mp hp with hp | hp
    · exact hold p hp
    · exact List.mem_singleton.mp hp ▸ hnew
  cases hcarried : w.carried change holders marks user with
  | none =>
    have hposition : (w.bind change holders marks).positions user = w.positions user := by
      simp only [FeePlane.bind, hcarried]
    have hbills : (w.bind change holders marks).bills user = w.bills user := by
      simp only [FeePlane.bind, hcarried]
    refine ⟨nofun, fun row hrow => h.basis row (hposition ▸ hrow), fun row hrow hunits => ?_, nofun,
      hbills ▸ h.bills_grow hgrows⟩
    rw [hposition] at hrow
    refine hpromotions (h.bound row hrow hunits) ?_
    -- it was locked with its clock past the date, or came to hold units since
    cases hholder : holders user with
    | false => exact h.coming _ hpromoting row hrow hunits hholder
    | true =>
      by_contra hlt
      simp only [FeePlane.carried, hrow] at hcarried
      rw [if_pos ⟨hholder, hunits, not_le.mp hlt⟩] at hcarried
      cases hcarried
  | some carried =>
    obtain ⟨row, result⟩ := carried
    cases result with
    | error e => exact absurd hcarried (hcarries row e)
    | ok result =>
      obtain ⟨row', accrued⟩ := result
      have hposition : (w.bind change holders marks).positions user = some row' := by
        simp only [FeePlane.bind, hcarried]
      obtain ⟨hrow, hunits, hbefore, hcarry⟩ := FeePlane.carried_ok hcarried
      obtain ⟨hclock, -, hcost, hbilled⟩ := carryAccrual_ok hcarry
      have hbound := h.bound row hrow hunits
      have hbasis := h.basis row hrow
      refine ⟨nofun, fun r hr => ?_, fun r hr _ => ?_, nofun, ?_⟩
      · rw [← Option.some.inj (hposition.symm.trans hr), hcost]
        exact hbasis
      · rw [← Option.some.inj (hposition.symm.trans hr), hclock]
        exact hpromotions (fun p hp => (hbound p hp).trans hbefore.le) le_rfl
      · obtain ⟨hzero, -⟩ | ⟨-, due, rfl, haccrued⟩ := hbilled
        · exact absurd hzero hunits
        have hbills : (w.bind change holders marks).bills user =
            { generation := w.promotions.length, src := row.accruedAt,
              dest := change.effectiveFrom, management := due } :: w.bills user := by
          simp only [FeePlane.bind, hcarried]
        rw [hbills]
        intro b hb
        rcases List.mem_cons.mp hb with rfl | hb
        · refine ⟨FeePlane.Reckoned.grows (w := w) ⟨le_rfl, hdue, fun p hp => ?_, ?_⟩ hgrows, ?_⟩
          · rw [List.drop_length] at hp
            exact nomatch hp
          · exact accruedManagement_onTerms hbasis haccrued
          · rw [hgrows.take le_rfl, List.take_length]
            exact hbound
        · exact h.bills_grow hgrows b hb

/-- A plane written for another user. -/
theorem FeePlane.Settled.others (h : w.Settled user Basis) {holder : UserId} (hne : holder ≠ user)
    (row : PositionRow) (bill : Option Bill) :
    (bill.elim (w.store holder row) ((w.store holder row).bill holder)).Settled user Basis := by
  have hposition : (w.store holder row).positions user = w.positions user :=
    Function.update_of_ne hne.symm ..
  cases bill with
  | none => exact h.frame (.of_eq rfl rfl rfl) hposition rfl rfl fun _ hp => hp
  | some b =>
    exact h.frame (.of_eq rfl rfl rfl) hposition (Function.update_of_ne hne.symm ..) rfl
      fun _ hp => hp

/-- **What an operation keeps**: one that is vouched for and keeps the position's clock in order
leaves its fees settled. -/
theorem FeePlane.Settled.step (Bases : UserId → Nat → Prop) {op : FeeOp} {a : op.Ans}
    (h : w.Settled user (Bases user)) (hv : op.Vouched Bases w) (horderly : op.OrderlyFor user w)
    (hs : FeeStep op w a w') (hbasis : ∀ row, w'.positions user = some row →
      Bases user row.costBasis) : w'.Settled user (Bases user) := by
  cases op with
  | clock | terms | accrual _ | lockPosition _ | due _ => exact hs.2 ▸ h
  | dealingNav | holding _ | escrowed _ | latestNav => exact hs ▸ h
  | charge assessment generation expected now =>
    rcases FeePlane.charge_eq hs with rfl | ⟨row, hrow, hclock, rfl⟩
    · exact h
    by_cases huser : assessment.user = user
    · obtain rfl := huser
      obtain ⟨hstamp, hunits⟩ := horderly rfl row hrow hclock
      have hbound := h.bound row hrow hunits
      refine h.write (some _) (hbasis _ (Function.update_self ..)) (fun _ => ⟨?_, ?_⟩) ?_
      · exact fun p hp => ((hbound p hp).trans hclock.le).trans hstamp
      · intro p hp hout
        exact ((h.coming p hp row hrow hunits hout).trans hclock.le).trans hstamp
      · intro b hb
        obtain rfl := Option.some.inj hb
        exact ⟨hv, hclock ▸ hbound⟩
    · exact h.others huser _ (some _)
  | writePosition holder found row bill =>
    rcases FeePlane.writePosition_eq hs with rfl | ⟨hrow, rfl⟩
    · exact h
    by_cases huser : holder = user
    · obtain rfl := huser
      obtain ⟨hstamp, hentry⟩ := horderly rfl
      have hself : Bases holder row.costBasis := by
        refine hbasis row ?_
        cases bill <;> exact Function.update_self ..
      refine h.write bill hself (fun hunits => ?_) fun b hb => ?_
      · by_cases hzero : found.units = 0
        · exact ⟨(hentry hzero hunits).1, fun p hp _ => (hentry hzero hunits).2 p hp⟩
        · exact ⟨fun p hp => (h.bound found hrow hzero p hp).trans hstamp,
            fun p hp hout => (h.coming p hp found hrow hzero hout).trans hstamp⟩
      · obtain ⟨hunits, hsrc, -, hreckoned⟩ := hv.2 b hb
        exact ⟨hreckoned, hsrc ▸ h.bound found hrow hunits⟩
    · exact h.others huser row bill
  | insertPosition holder row =>
    rcases FeePlane.insertPosition_eq hs with rfl | ⟨hrow, rfl⟩
    · exact h
    by_cases huser : holder = user
    · obtain rfl := huser
      refine h.write none (hbasis row (Function.update_self ..)) (fun hunits => ?_) nofun
      exact ⟨(horderly rfl hunits).1, fun p hp _ => (horderly rfl hunits).2 p hp⟩
    · exact h.others huser row none
  | holders now =>
    rcases hs with ⟨-, rfl⟩ | ⟨change, -, hdue, -, -, rfl⟩
    · exact h
    refine ⟨fun p hp => ?_, h.basis, h.bound, fun p hp row hrow hunits hout => ?_,
      h.bills_grow (.of_eq rfl rfl rfl)⟩
    · obtain rfl := Option.some.inj hp
      exact hdue.trans hv
    · -- whoever holds units is locked
      obtain rfl := Option.some.inj hp
      have hrow : w.positions user = some row := hrow
      simp only [hrow, Option.any_some, decide_eq_false_iff_not, not_not] at hout
      exact absurd hout hunits
  | bindTerms change =>
    rcases hs with ⟨-, rfl⟩ | ⟨holders, marks, hpromoting, hcarries, -, rfl⟩
    · exact h
    exact h.bind hpromoting (hcarries user)

/-- Whatever else happens leaves the fees settled. -/
theorem FeePlane.Settled.env (h : w.Settled user Basis) (henv : FeeEnv w w') :
    w'.Settled user Basis := by
  refine h.frame henv.grows ?_ ?_ ?_ ?_ <;> cases henv <;> first | rfl | exact fun _ hp => hp | nofun

end Settled

/-! ## Runs -/

/-- A plane no promotion has been over, and nothing billed on. -/
structure FeePlane.Fresh (w : FeePlane) : Prop where
  promoting : w.promoting = none
  promotions : w.promotions = []
  bills : ∀ user, w.bills user = []

/-- A fresh plane is settled. -/
theorem FeePlane.Fresh.settled {w : FeePlane} (h : w.Fresh) {user : UserId} {Basis : Nat → Prop}
    (hbasis : ∀ row, w.positions user = some row → Basis row.costBasis) :
    w.Settled user Basis where
  due p hp := by rw [h.promoting] at hp; cases hp
  basis := hbasis
  bound row _ _ p hp := by rw [h.promotions] at hp; cases hp
  coming p hp := by rw [h.promoting] at hp; cases hp
  bills b hb := by rw [h.bills] at hb; cases hb

/-- The runs of the fee plane through states that meet `guard`. -/
abbrev FeeRun (guard : FeePlane → Prop) :
    Config FeeOp FeeOp.Ans DomainError Unit FeePlane →
      Config FeeOp FeeOp.Ans DomainError Unit FeePlane → Prop :=
  Runs FeeStep FeeEnv IsFeeProg fun _ c => guard c.1

/-- The operations answered by the database as it is, with nothing due and nothing to promote, and
by a ledger that has a million units of every holder, at a price of one. -/
def FeeOp.answered : (op : FeeOp) → FeePlane → op.Ans × FeePlane
  | .clock, w => (w.now, w)
  | .due _, w => ([], w)
  | .terms, w => (w.termsRead, w)
  | .accrual user, w => (w.positions user, w)
  | .dealingNav, w => (.ok SCALE, w)
  | .holding _, w => ({ posted := 1000000 * SCALE, pending := 0, locked := 0 }, w)
  | .escrowed _, w => ({ posted := 0, pending := 0, locked := 0 }, w)
  | .charge a generation expected now, w => w.charge a generation expected now
  | .lockPosition user, w => (w.positions user, w)
  | .latestNav, w => (none, w)
  | .writePosition user found row bill, w => w.writePosition user found row bill
  | .insertPosition user row, w => w.insertPosition user row
  | .holders _, w => (none, w)
  | .bindTerms _, w => (.error (.repository "lost"), w)

theorem FeeOp.answered_step (op : FeeOp) (w : FeePlane) :
    FeeStep op w (op.answered w).1 (op.answered w).2 := by
  cases op with
  | clock | terms | accrual _ | lockPosition _ => exact ⟨rfl, rfl⟩
  | dealingNav | holding _ | escrowed _ | latestNav => rfl
  | charge _ _ _ _ | writePosition _ _ _ _ | insertPosition _ _ => rfl
  | due before => exact ⟨fun _ hu => (nomatch hu), rfl⟩
  | holders now => exact .inl ⟨rfl, rfl⟩
  | bindTerms _ => exact .inl ⟨⟨_, rfl⟩, rfl⟩

section FeeRun

variable (guard : FeePlane → Prop) {w w' : FeePlane} {ps : List (FeeProg Unit)}

theorem FeeRun.env (h : FeeEnv w w') (hguard : guard w') : FeeRun guard (w, ps) (w', ps) :=
  .single ⟨.env h, hguard⟩

theorem FeeRun.start {p : FeeProg Unit} (h : IsFeeProg p) (hguard : guard w) :
    FeeRun guard (w, ps) (w, p :: ps) :=
  .single ⟨.start h, hguard⟩

theorem FeeRun.turn (i : Nat) (op : FeeOp) (a : op.Ans) {k : op.Ans → FeeProg Unit}
    (hp : ps[i]? = some (.call op k)) (h : FeeStep op w a w') (hguard : guard w') :
    FeeRun guard (w, ps) (w', ps.set i (k a)) :=
  Runs.turn i op a hp h hguard

theorem FeeRun.advance (n : Nat) {p : FeeProg Unit}
    (hguard : ∀ m < n, guard (p.advance FeeOp.answered (m + 1) w).2) :
    FeeRun guard (w, p :: ps)
      ((p.advance FeeOp.answered n w).2, (p.advance FeeOp.answered n w).1 :: ps) :=
  Runs.advance FeeOp.answered_step n p w hguard

end FeeRun

/-- One holder of a sample product. -/
def sampleHolder : UserId := .raw 7

end Banking
