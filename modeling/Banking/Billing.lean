import Mathlib.Algebra.BigOperators.Intervals
import Mathlib.Order.Interval.Finset.Nat
import Mathlib.Tactic.IntervalCases
import Banking.Repricing

/-! # The management fee of one position

A position's bills are laid end to end from the clock it began with to the clock it has now, so no
second is billed twice (`Laid`), and what they add up to is one charge for the whole time at the
rate in force in each second of it, less the rounding of each bill. But a charge is stamped with the
time its sweep began: when the clock has moved past that, the charge sets it back, and what lies
between is billed again. -/

namespace Banking

open Interactive

/-! ## Bills laid end to end -/

/-- Bills, newest first, that begin at `start`, each where the one before it ended, and end at the
clock. -/
def Laid (start : Nat) : List Bill → Nat → Prop
  | [], clock => clock = start
  | b :: bills, clock => b.dest = clock ∧ b.src ≤ clock ∧ Laid start bills b.src

theorem Laid.le {start clock : Nat} {bills : List Bill} (h : Laid start bills clock) :
    start ≤ clock := by
  induction bills generalizing clock with
  | nil => exact le_of_eq (Eq.symm h)
  | cons b bills ih => exact (ih h.2.2).trans h.2.1

/-- **Bills laid end to end** make one rate for every second, each bill's its own. -/
theorem Laid.exists_rate {start clock : Nat} {bills : List Bill} (h : Laid start bills clock)
    (rateOf : Bill → Nat) : ∃ rate : Nat → Nat,
      (∀ t ∈ Finset.Ioc start clock, ∃ b ∈ bills, b.src < t ∧ t ≤ b.dest ∧ rate t = rateOf b) ∧
        ∑ t ∈ Finset.Ioc start clock, rate t =
          (bills.map fun b => rateOf b * (b.dest - b.src)).sum := by
  induction bills generalizing clock with
  | nil =>
    obtain rfl : clock = start := h
    exact ⟨fun _ => 0, by simp, by simp⟩
  | cons b bills ih =>
    obtain ⟨rfl, hsrc, hrest⟩ := h
    obtain ⟨rate, hrate, hsum⟩ := ih hrest
    refine ⟨fun t => if t ≤ b.src then rate t else rateOf b, fun t ht => ?_, ?_⟩
    · obtain ⟨hlt, hle⟩ := Finset.mem_Ioc.mp ht
      by_cases hearlier : t ≤ b.src
      · obtain ⟨b', hb', hsrc', hdest', heq⟩ := hrate t (Finset.mem_Ioc.mpr ⟨hlt, hearlier⟩)
        exact ⟨b', List.mem_cons_of_mem _ hb', hsrc', hdest', (if_pos hearlier).trans heq⟩
      · exact ⟨b, List.mem_cons_self, not_le.mp hearlier, hle, if_neg hearlier⟩
    · have hearlier : ∑ t ∈ Finset.Ioc start b.src, (if t ≤ b.src then rate t else rateOf b) =
          ∑ t ∈ Finset.Ioc start b.src, rate t :=
        Finset.sum_congr rfl fun t ht => if_pos (Finset.mem_Ioc.mp ht).2
      have hlast : ∑ t ∈ Finset.Ioc b.src b.dest, (if t ≤ b.src then rate t else rateOf b) =
          rateOf b * (b.dest - b.src) := by
        rw [Finset.sum_const_nat fun t ht => if_neg (not_le.mpr (Finset.mem_Ioc.mp ht).1),
          Nat.card_Ioc, mul_comm]
      rw [← Finset.sum_Ioc_consecutive _ hrest.le hsrc, hearlier, hlast, hsum, List.map_cons,
        List.sum_cons, add_comm]

/-! ## The claim -/

/-- A rate in force in the second that ends at `t`: that of terms effective from before it, and not
replaced before it ended. -/
def FeePlane.InForce (w : FeePlane) (rate t : Nat) : Prop :=
  ∃ generation ≤ w.promotions.length,
    rate = ((w.policyAt generation).getD .NONE).managementBps.toNat ∧
      (∀ p ∈ w.promotions.take generation, p.change.effectiveFrom < t) ∧
        ∀ p ∈ w.promotions.drop generation, t ≤ p.committedAt

/-- What a position was charged and carried in management fees. -/
def FeePlane.billed (w : FeePlane) (user : UserId) : Nat :=
  ((w.bills user).map (·.management)).sum

/-- What one charge would be for the time after `src` and up to `dest`, at a rate for each second. -/
def singleCharge (costBasis : Nat) (rate : Nat → Nat) (src dest : Nat) : Nat :=
  costBasis * (∑ t ∈ Finset.Ioc src dest, rate t) / RATE_DENOMINATOR

/-- **A position is billed once** for the time since `start`: at most the single charge for all of
it, at a rate in force in each second, and at least that less one base unit for each bill. -/
def FeePlane.BilledOnce (w : FeePlane) (user : UserId) (costBasis start : Nat) : Prop :=
  ∃ row rate, w.positions user = some row ∧
    (∀ t ∈ Finset.Ioc start row.accruedAt, w.InForce (rate t) t) ∧
      w.billed user ≤ singleCharge costBasis rate start row.accruedAt ∧
        singleCharge costBasis rate start row.accruedAt ≤ w.billed user + (w.bills user).length

/-- The position's cost basis is fixed, and every policy is on invested capital. -/
structure FeePlane.FixedTerms (user : UserId) (costBasis : Nat) (w : FeePlane) : Prop where
  fixed : ∀ row, w.positions user = some row → row.costBasis = costBasis
  original : ∀ policy ∈ w.original, policy.basis = .investedCapital
  promoted : ∀ p ∈ w.promotions, p.change.policy.basis = .investedCapital

/-- Terms of fixed terms are on invested capital. -/
theorem FeePlane.FixedTerms.policyAt {w : FeePlane} {user : UserId} {costBasis : Nat}
    (h : w.FixedTerms user costBasis) (generation : Nat) :
    ((w.policyAt generation).getD .NONE).basis = .investedCapital := by
  cases hpolicy : w.policyAt generation with
  | none => rfl
  | some policy =>
    rw [Option.getD_some]
    unfold FeePlane.policyAt at hpolicy
    cases hlast : (w.promotions.take generation).getLast? with
    | none =>
      rw [hlast] at hpolicy
      exact h.original policy hpolicy
    | some p =>
      rw [hlast] at hpolicy
      obtain rfl := Option.some.inj hpolicy
      exact h.promoted p (List.mem_of_mem_take (List.mem_of_getLast? hlast))

/-! ## Timely runs -/

/-- **The writes of one position that keep its bills in line**: none is stamped before the clock it
overwrites, and none finds the position without units. -/
def FeeOp.TimelyFor (user : UserId) (w : FeePlane) : FeeOp → Prop
  | .charge a _ expected now =>
    a.user = user → ∀ row, w.positions user = some row → row.accruedAt = expected →
      expected ≤ now ∧ row.units ≠ 0
  | .writePosition holder found row _ =>
    holder = user → found.accruedAt ≤ row.accruedAt ∧ found.units ≠ 0
  | _ => True

/-- A step of a run whose writes keep one position's bills in line. -/
def TimelyStep (user : UserId) (op : FeeOp) (w : FeePlane) (a : op.Ans) (w' : FeePlane) : Prop :=
  FeeStep op w a w' ∧ op.TimelyFor user w

/-- What is known of everybody's cost basis: one user's. -/
def OnlyBasis (user : UserId) (costBasis : Nat) (holder : UserId) (basis : Nat) : Prop :=
  holder = user → basis = costBasis

/-- One position in line: its fees are settled, and its bills laid end to end from `start`. -/
structure FeePlane.InLine (user : UserId) (costBasis start : Nat) (w : FeePlane) : Prop where
  settled : w.Settled user (OnlyBasis user costBasis user)
  laid : ∃ row, w.positions user = some row ∧ Laid start (w.bills user) row.accruedAt

section InLine

variable {user : UserId} {costBasis start : Nat} {w w' : FeePlane}

/-- A write stamped no earlier than the clock it overwrites lays its bill at the end. -/
theorem Laid.write {found row : PositionRow} {b : Bill} (h : Laid start (w.bills user) found.accruedAt)
    (hle : found.accruedAt ≤ row.accruedAt) (hsrc : b.src = found.accruedAt)
    (hdest : b.dest = row.accruedAt) :
    ∃ r, ((w.store user row).bill user b).positions user = some r ∧
      Laid start (((w.store user row).bill user b).bills user) r.accruedAt := by
  have hbills : ((w.store user row).bill user b).bills user = b :: w.bills user :=
    Function.update_self ..
  refine ⟨row, Function.update_self .., ?_⟩
  rw [hbills]
  exact ⟨hdest, hsrc ▸ hle, hsrc ▸ h⟩

/-- **What an operation keeps**: a timely one that is vouched for leaves the position in line. -/
theorem FeePlane.InLine.step {op : FeeOp} {a : op.Ans} (h : w.InLine user costBasis start)
    (hv : op.Vouched (OnlyBasis user costBasis) w) (htimely : op.TimelyFor user w)
    (hs : FeeStep op w a w') (hfixed : ∀ row, w'.positions user = some row →
      row.costBasis = costBasis) : w'.InLine user costBasis start := by
  obtain ⟨row, hrow, hlaid⟩ := h.laid
  have hsettled : op.OrderlyFor user w → w'.Settled user (OnlyBasis user costBasis user) :=
    fun horderly => h.settled.step _ hv horderly hs fun r hr _ => hfixed r hr
  have hothers : ∀ {holder : UserId} {r : PositionRow} (bill : Option Bill), holder ≠ user →
      w' = bill.elim (w.store holder r) ((w.store holder r).bill holder) →
      ∃ row, w'.positions user = some row ∧ Laid start (w'.bills user) row.accruedAt := by
    rintro holder r (_ | b) hne rfl
    · exact ⟨row, (Function.update_of_ne hne.symm ..).trans hrow, hlaid⟩
    · refine ⟨row, (Function.update_of_ne hne.symm ..).trans hrow, ?_⟩
      have hbills : ((w.store holder r).bill holder b).bills user = w.bills user :=
        Function.update_of_ne hne.symm ..
      exact hbills ▸ hlaid
  cases op with
  | clock | terms | accrual _ | lockPosition _ | due _ => exact hs.2 ▸ h
  | dealingNav | holding _ | escrowed _ | latestNav => exact hs ▸ h
  | charge assessment generation expected now =>
    refine ⟨hsettled htimely, ?_⟩
    rcases FeePlane.charge_eq hs with rfl | ⟨found, hfound, hclock, heq⟩
    · exact h.laid
    by_cases huser : assessment.user = user
    · obtain rfl := huser
      obtain rfl := Option.some.inj (hfound.symm.trans hrow)
      have hstamp := (htimely rfl found hfound hclock).1
      rw [heq]
      exact hlaid.write (hclock ▸ hstamp) hclock.symm rfl
    · exact hothers (some _) huser heq
  | writePosition holder found r bill =>
    refine ⟨hsettled fun hholder => ?_, ?_⟩
    · obtain ⟨hle, hunits⟩ := htimely hholder
      exact ⟨hle, fun hzero => absurd hzero hunits⟩
    rcases FeePlane.writePosition_eq hs with rfl | ⟨hfound, heq⟩
    · exact h.laid
    by_cases huser : holder = user
    · obtain rfl := huser
      obtain rfl := Option.some.inj (hfound.symm.trans hrow)
      obtain ⟨hle, hunits⟩ := htimely rfl
      cases bill with
      | none => exact absurd (hv.1 rfl) hunits
      | some b =>
        obtain ⟨-, hsrc, hdest, -⟩ := hv.2 b rfl
        rw [heq]
        exact hlaid.write hle hsrc hdest
    · exact hothers bill huser heq
  | insertPosition holder r =>
    rcases FeePlane.insertPosition_eq hs with rfl | ⟨hnone, heq⟩
    · exact h
    by_cases huser : holder = user
    · exact nomatch (huser ▸ hnone).symm.trans hrow
    · exact ⟨hsettled fun hholder => absurd hholder huser, hothers none huser heq⟩
  | holders now =>
    refine ⟨hsettled trivial, ?_⟩
    rcases hs with ⟨-, rfl⟩ | ⟨change, -, -, -, -, rfl⟩
    · exact h.laid
    · exact h.laid
  | bindTerms change =>
    refine ⟨hsettled trivial, ?_⟩
    rcases hs with ⟨-, rfl⟩ | ⟨holders, marks, -, hcarries, -, rfl⟩
    · exact h.laid
    cases hcarried : w.carried change holders marks user with
    | none =>
      refine ⟨row, ?_, ?_⟩
      · simp only [FeePlane.bind, hcarried, hrow]
      · simp only [FeePlane.bind, hcarried]
        exact hlaid
    | some carried =>
      obtain ⟨found, result⟩ := carried
      cases result with
      | error e => exact absurd hcarried (hcarries user found e)
      | ok result =>
        obtain ⟨row', accrued⟩ := result
        obtain ⟨hfound, hunits, hbefore, hcarry⟩ := FeePlane.carried_ok hcarried
        obtain rfl := Option.some.inj (hfound.symm.trans hrow)
        obtain ⟨hclock, -, -, hzero | ⟨-, due, rfl, -⟩⟩ := carryAccrual_ok hcarry
        · exact absurd hzero.1 hunits
        refine ⟨row', ?_, ?_⟩
        · simp only [FeePlane.bind, hcarried]
        · simp only [FeePlane.bind, hcarried]
          exact ⟨hclock.symm, hclock ▸ hbefore.le, hlaid⟩

/-- Whatever else happens leaves the position in line. -/
theorem FeePlane.InLine.env (h : w.InLine user costBasis start) (henv : FeeEnv w w') :
    w'.InLine user costBasis start := by
  refine ⟨h.settled.env henv, ?_⟩
  cases henv <;> exact h.laid

/-- **A position in line is billed once.** -/
theorem FeePlane.InLine.billedOnce (h : w.InLine user costBasis start)
    (hfixed : w.FixedTerms user costBasis) (hcost : costBasis < 2 ^ 128) :
    w.BilledOnce user costBasis start := by
  obtain ⟨row, hrow, hlaid⟩ := h.laid
  let rateOf : Bill → Nat := fun b => ((w.policyAt b.generation).getD .NONE).managementBps.toNat
  obtain ⟨rate, hrate, hsum⟩ := hlaid.exists_rate rateOf
  -- each bill is the management rule on its own window
  have hamount : ∀ b ∈ w.bills user,
      b.management = costBasis * (rateOf b * (b.dest - b.src)) / RATE_DENOMINATOR := by
    intro b hb
    have hreckoned := (h.settled.bills b hb).1
    obtain ⟨snapshot, nav, basis, hbasis, hsrc, hkind, hdue⟩ := hreckoned.due
    have hinvested : basis = .investedCapital := by
      rcases hkind with rfl | rfl
      · exact hfixed.policyAt b.generation
      · rfl
    have hsnapshot : snapshot.costBasis = costBasis := hbasis rfl
    have hnow : b.dest < 2 ^ 63 := hreckoned.dest.trans_lt w.now_fits
    have := managementDue_investedCapital hinvested (hsnapshot ▸ hcost) hnow hdue
    rw [this, hsnapshot, hsrc]
  have hbilled : w.billed user =
      (((w.bills user).map fun b => costBasis * (rateOf b * (b.dest - b.src))).map
        (· / RATE_DENOMINATOR)).sum := by
    rw [FeePlane.billed, List.map_map]
    exact congrArg List.sum (List.map_congr_left hamount)
  have hsingle : singleCharge costBasis rate start row.accruedAt =
      ((w.bills user).map fun b => costBasis * (rateOf b * (b.dest - b.src))).sum /
        RATE_DENOMINATOR := by
    rw [singleCharge, hsum, List.sum_map_mul_left]
  refine ⟨row, rate, hrow, fun t ht => ?_, ?_, ?_⟩
  · obtain ⟨b, hb, hlt, hle, heq⟩ := hrate t ht
    obtain ⟨hreckoned, htake⟩ := h.settled.bills b hb
    exact ⟨b.generation, hreckoned.generation, heq, fun p hp => (htake p hp).trans_lt hlt,
      fun p hp => hle.trans (hreckoned.before p hp)⟩
  · rw [hbilled, hsingle]
    exact sum_div_le _ _
  · rw [hbilled, hsingle]
    refine (div_le_sum_div _ (by decide)).trans_eq ?_
    rw [List.length_map]

end InLine

/-! ## Runs -/

/-- One position of a plane, as the workers are relied on, its basis and the terms being fixed. -/
def timelyWorld (user : UserId) (costBasis start : Nat) : World FeeOp FeeOp.Ans FeePlane where
  step op w a w' := TimelyStep user op w a w' ∧ w'.FixedTerms user costBasis
  rely := FeePlane.Grows
  inv := FeePlane.InLine user costBasis start

theorem timelyWorld_rules (user : UserId) (costBasis start : Nat) :
    FeeRules (timelyWorld user costBasis start) (OnlyBasis user costBasis) where
  rely _ _ h := h
  step _ _ _ _ h := h.1.1
  basis _ _ row hinv hrow huser := hinv.settled.basis row (huser ▸ hrow) rfl
  keeps _ _ _ _ hv hinv hs := ⟨hs.1.1.grows, hinv.step hv hs.1.2 hs.1.1 hs.2.fixed⟩

/-- **The management fee is never billed twice.** In every run of assessments, carries and
promotions, whatever its interleaving, in which the position's cost basis is fixed, every policy is
on invested capital, and the position's writes are timely: what was charged and carried is the
single charge for the whole time, at a rate in force in each second, less at most one base unit a
bill. -/
theorem management_billed_once {w : FeePlane} {row : PositionRow} {user : UserId}
    {costBasis : Nat} {c : Config FeeOp FeeOp.Ans DomainError Unit FeePlane} (hfresh : w.Fresh)
    (hrow : w.positions user = some row) (hfixed : w.FixedTerms user costBasis)
    (hcost : costBasis < 2 ^ 128)
    (hrun : Runs (TimelyStep user) FeeEnv IsFeeProg (fun _ c => c.1.FixedTerms user costBasis)
      (w, []) c) : c.1.BilledOnce user costBasis row.accruedAt := by
  have hend : c.1.FixedTerms user costBasis := by
    cases hrun with
    | refl => exact hfixed
    | tail _ hstep => exact hstep.2
  have hinit : w.InLine user costBasis row.accruedAt := by
    refine ⟨hfresh.settled fun r hr _ => hfixed.fixed r hr, row, hrow, ?_⟩
    rw [hfresh.bills]
    rfl
  have hline : c.1.InLine user costBasis row.accruedAt :=
    (Runs.promised (S := timelyWorld user costBasis row.accruedAt) FeePlane.Grows.refl
      FeePlane.Grows.trans (fun _ _ _ henv _ hinv => ⟨henv.grows, hinv.env henv⟩)
      (fun _ _ _ _ _ _ hs hguard => ⟨hs, hguard⟩)
      (fun w _ hp _ => (timelyWorld_rules user costBasis row.accruedAt).promises hp w) hrun hinit
      (by simp)).2
  exact hline.billedOnce hend hcost

/-! ## A clock set back -/

/-- Fixed terms, checked. -/
theorem FeePlane.FixedTerms.of_all {w : FeePlane} {user : UserId} {costBasis : Nat}
    (h : ((w.positions user).all (·.costBasis = costBasis) &&
      w.original.all (·.basis = .investedCapital) &&
      w.promotions.all (·.change.policy.basis = .investedCapital)) = true) :
    w.FixedTerms user costBasis := by
  simp only [Bool.and_eq_true, Option.all_eq_true, List.all_eq_true, decide_eq_true_eq] at h
  obtain ⟨⟨hfixed, horiginal⟩, hpromoted⟩ := h
  exact ⟨hfixed, horiginal, hpromoted⟩

/-- A change that halves the performance fee and leaves management as it is. -/
def sampleHalfFee : TermsChange where
  policy := { FeePolicy.HOUSE with performanceBps := 1000 }
  effectiveFrom := 100005

/-- A sample product on the house terms, its holder's basis such that a second costs a base unit for
each basis point. -/
def sampleDuePlane : FeePlane where
  service := ⟨"alpha"⟩
  now := 100000
  scheduled := some sampleHalfFee
  promoting := none
  original := some .HOUSE
  promotions := []
  positions := fun user =>
    if user = sampleHolder then
      some
        { costBasis := RATE_DENOMINATOR
          units := 1000000 * SCALE
          highWaterMark := SCALE
          debt := 0
          accruedAt := 0
          crystallizedAt := 0 }
    else none
  bills := fun _ => []
  now_fits := by decide

/-- The sample at a later time. -/
def sampleDueAt (now : Nat) (fits : now < 2 ^ 63) : FeePlane :=
  { sampleDuePlane with now, now_fits := fits }

/-- No carry of the sample's fails. -/
theorem sampleDuePlane_carries (now : Nat) (fits : now < 2 ^ 63) (promoting : Option Promoting)
    (holders : UserId → Bool) (user : UserId) (row : PositionRow) (e : DomainError) :
    FeePlane.carried { sampleDueAt now fits with promoting } sampleHalfFee holders (fun _ => none)
      user ≠ some (row, .error e) := by
  intro h
  obtain ⟨hfound, -, -, hcarry⟩ := FeePlane.carried_ok h
  by_cases huser : user = sampleHolder
  · subst huser
    obtain rfl := Option.some.inj hfound
    cases hcarry
  · have hnone : sampleDuePlane.positions user = none := if_neg huser
    exact nomatch hnone.symm.trans hfound

/-- The sample's terms are fixed. -/
abbrev SampleFixed : FeePlane → Prop := FeePlane.FixedTerms sampleHolder RATE_DENOMINATOR

/-- The sample's run: a sweep begins at 100000; before it comes to the holder, a promotion carries
the fee up to 100005; the sweep's charge of that debt is stamped 100000. -/
theorem sampleSetBack : ∃ c, FeeRun SampleFixed (sampleDuePlane, []) c ∧
    (c.1.positions sampleHolder).map (·.accruedAt) = some 300000 ∧
    c.1.billed sampleHolder = 60001000 ∧ c.1.original = some .HOUSE ∧
    c.1.promotions = [{ change := sampleHalfFee, committedAt := 100010 }] := by
  refine ⟨?_, ?_, ?_⟩
  rotate_left
  · refine (FeeRun.start SampleFixed .sweep (.of_all rfl)).trans ?_
    refine (FeeRun.advance SampleFixed 1 fun m hm => ?_).trans ?_
    · obtain rfl := Nat.lt_one_iff.mp hm
      exact .of_all rfl
    refine (FeeRun.turn SampleFixed 0 (.due 13600) [sampleHolder] rfl ⟨fun user hu => ?_, rfl⟩
      (.of_all rfl)).trans ?_
    · obtain rfl := List.mem_singleton.mp hu
      exact ⟨_, rfl, by decide, by decide⟩
    refine (FeeRun.env SampleFixed (.tick _ 100010 (by decide) (by decide)) (.of_all rfl)).trans ?_
    refine (FeeRun.start SampleFixed .promote (.of_all rfl)).trans ?_
    refine (FeeRun.advance SampleFixed 1 fun m hm => ?_).trans ?_
    · obtain rfl := Nat.lt_one_iff.mp hm
      exact .of_all rfl
    refine (FeeRun.turn SampleFixed 0 (.holders 100010) (some sampleHalfFee) rfl
      (.inr ⟨_, rfl, by decide, rfl, rfl, rfl⟩) (.of_all rfl)).trans ?_
    refine (FeeRun.turn SampleFixed 0 (.bindTerms sampleHalfFee) (.ok ()) rfl
      (.inr ⟨_, fun _ => none, rfl, fun user row e h => ?_, rfl, rfl⟩) (.of_all rfl)).trans ?_
    · exact sampleDuePlane_carries 100010 (by decide) _ _ user row e h
    refine .trans (.single ⟨.crash [] _, .of_all rfl⟩) ?_
    refine (FeeRun.advance SampleFixed 6 fun m hm => ?_).trans ?_
    · interval_cases m <;> exact .of_all rfl
    refine (FeeRun.env SampleFixed (.tick _ 300000 (by decide) (by decide)) (.of_all rfl)).trans ?_
    refine (FeeRun.start SampleFixed (.assess sampleHolder .period) (.of_all rfl)).trans ?_
    refine FeeRun.advance SampleFixed 7 fun m hm => ?_
    interval_cases m <;> exact .of_all rfl
  · exact ⟨rfl, rfl, rfl, rfl⟩

/-- **Time billed twice**, a clock having been set back: more than the single charge at the one rate
there is. -/
theorem set_back_billed_twice : ∃ w c row, w.Fresh ∧ w.positions sampleHolder = some row ∧
    FeeRun SampleFixed (w, []) c ∧ SampleFixed w ∧
      ¬ c.1.BilledOnce sampleHolder RATE_DENOMINATOR row.accruedAt := by
  obtain ⟨c, hrun, hclock, hbilled, horiginal, hpromotions⟩ := sampleSetBack
  refine ⟨sampleDuePlane, c, _, ⟨rfl, rfl, fun _ => rfl⟩, rfl, hrun, .of_all rfl, ?_⟩
  rintro ⟨row, rate, hrow, hforce, hle, -⟩
  rw [hrow] at hclock
  have hclock : row.accruedAt = 300000 := Option.some.inj hclock
  -- both terms have the house's management rate
  have hrate : ∀ t ∈ Finset.Ioc 0 row.accruedAt, rate t = 200 := by
    intro t ht
    obtain ⟨generation, hgeneration, heq, -, -⟩ := hforce t ht
    rw [heq, FeePlane.policyAt, hpromotions, horiginal]
    rw [hpromotions] at hgeneration
    rcases Nat.le_one_iff_eq_zero_or_eq_one.mp hgeneration with rfl | rfl <;> rfl
  rw [hbilled, singleCharge, Nat.mul_div_cancel_left _ (by decide), Finset.sum_const_nat hrate,
    Nat.card_Ioc, hclock] at hle
  exact absurd hle (by decide)

theorem management_billed_once_sample :
    ∃ c : Config FeeOp FeeOp.Ans DomainError Unit FeePlane, c.1.billed sampleHolder = 20001000 ∧
      c.1.BilledOnce sampleHolder RATE_DENOMINATOR 0 := by
  have hrun : ∃ c, Runs (TimelyStep sampleHolder) FeeEnv IsFeeProg (fun _ c => SampleFixed c.1)
      (sampleDueAt 100010 (by decide), []) c ∧ c.1.billed sampleHolder = 20001000 := by
    refine ⟨?_, ?_, ?_⟩
    rotate_left
    · refine .trans (.single ⟨.start .promote, .of_all rfl⟩) ?_
      refine .trans (Runs.turn 0 FeeOp.clock 100010 rfl ⟨⟨rfl, rfl⟩, trivial⟩ (.of_all rfl)) ?_
      refine .trans (Runs.turn 0 (FeeOp.holders 100010) (some sampleHalfFee) rfl
        ⟨.inr ⟨_, rfl, by decide, rfl, rfl, rfl⟩, trivial⟩ (.of_all rfl)) ?_
      refine .trans (Runs.turn 0 (FeeOp.bindTerms sampleHalfFee) (.ok ()) rfl
        ⟨.inr ⟨_, fun _ => none, rfl, sampleDuePlane_carries 100010 (by decide) _ _, rfl, rfl⟩,
          trivial⟩ (.of_all rfl)) ?_
      exact .refl
    · rfl
  obtain ⟨c, hrun, hbilled⟩ := hrun
  exact ⟨c, hbilled, management_billed_once ⟨rfl, rfl, fun _ => rfl⟩ rfl (.of_all rfl) (by decide)
    hrun⟩

end Banking
