import Banking.FeeCharges
import Banking.Gateway
import Banking.Lib.Pool

/-! # The fee plane of one product

The positions of a product's holders, the terms in force, and what writes either: the sweep, which
reads terms and position before it charges; every move of a cost basis, which first carries what the
old one earned; and the promotion of new terms. A transaction's locks are held to its end, so what
it read under them is what it writes over (`FeePlane.writePosition` asks for that), and a promotion
takes effect at once, over the holders it locked.

Every charge and every carry leaves a bill: the time it was reckoned over, and on which terms. -/

namespace Banking

open Interactive

/-! ## Rows -/

/-- One holder's row of `fund_positions`: what was invested, and the state its fees accrue on. -/
structure PositionRow where
  costBasis : Nat
  units : Nat
  highWaterMark : Nat
  debt : Nat
  accruedAt : Nat
  crystallizedAt : Nat
deriving DecidableEq, Repr

/-- A scheduled change of terms. -/
structure TermsChange where
  policy : FeePolicy
  effectiveFrom : Nat
deriving DecidableEq, Repr

/-- A change of terms that was promoted, and when that was committed. -/
structure Promotion where
  change : TermsChange
  committedAt : Nat
deriving DecidableEq, Repr

/-- A promotion under way: its change, and the holders whose rows it found with units. -/
structure Promoting where
  change : TermsChange
  holders : UserId → Bool

/-- Terms as they were read, and how many promotions had been committed by then. -/
structure TermsRead where
  generation : Nat
  policy : Option FeePolicy
deriving DecidableEq, Repr

/-- What a charge or a carry reckoned: the time after `src` and up to `dest`, on the terms of a
generation. -/
structure Bill where
  generation : Nat
  src : Nat
  dest : Nat
  management : Nat
deriving DecidableEq, Repr

/-- A product's fees. Bills are newest first. -/
structure FeePlane where
  service : ServiceId
  now : Nat
  scheduled : Option TermsChange
  promoting : Option Promoting
  original : Option FeePolicy
  promotions : List Promotion
  positions : UserId → Option PositionRow
  bills : UserId → List Bill
  now_fits : now < 2 ^ 63

/-- The terms after the first `generation` promotions. -/
def FeePlane.policyAt (w : FeePlane) (generation : Nat) : Option FeePolicy :=
  ((w.promotions.take generation).getLast?.map (·.change.policy)).or w.original

/-- The row of `fee_policies`. -/
def FeePlane.termsRead (w : FeePlane) : TermsRead where
  generation := w.promotions.length
  policy := w.policyAt w.promotions.length

/-- One user's row replaced. -/
def FeePlane.store (w : FeePlane) (user : UserId) (row : PositionRow) : FeePlane :=
  { w with positions := Function.update w.positions user (some row) }

/-- One user's bill added. -/
def FeePlane.bill (w : FeePlane) (user : UserId) (bill : Bill) : FeePlane :=
  { w with bills := Function.update w.bills user (bill :: w.bills user) }

/-! ## The carry -/

/-- The unit price where none is needed. -/
def UNUSED_PRICE : Nat := 1

/-- A row as the management leg sees it. -/
def PositionRow.snapshot (row : PositionRow) : PositionSnapshot where
  units := row.units
  collectable := row.units
  costBasis := row.costBasis
  highWaterMark := row.highWaterMark
  debt := 0
  accruedAt := row.accruedAt
  crystallizedAt := row.crystallizedAt

/-- What the basis a row has now has earned. A basis that moves with the mark takes the latest one,
however old; without any, the capital invested stands in. -/
def accruedManagement (policy : Option FeePolicy) (latestNav : Option Nat) (row : PositionRow)
    (now : Nat) : Except DomainError Nat :=
  match policy with
  | none => .ok 0
  | some policy =>
    if policy.managementBps = 0 then .ok 0
    else
      match policy.basis with
      | .investedCapital => managementDue policy row.snapshot UNUSED_PRICE now
      | .marketValue =>
        match latestNav with
        | some nav => managementDue policy row.snapshot nav now
        | none =>
          let fallback : FeePolicy :=
            { managementBps := policy.managementBps
              performanceBps := 0
              hurdleBps := 0
              basis := .investedCapital
              crystallization := policy.crystallization }
          managementDue fallback row.snapshot UNUSED_PRICE now

/-- **Carry what has accrued into the debt, and restart the clock.** A row without units has
accrued nothing while it slept. With the row comes what was carried, where anything was reckoned. -/
def carryAccrual (policy : Option FeePolicy) (latestNav : Option Nat) (row : PositionRow)
    (now : Nat) : Except DomainError (PositionRow × Option Nat) :=
  if row.units = 0 then .ok ({ row with accruedAt := now, crystallizedAt := now }, none)
  else
    match accruedManagement policy latestNav row now with
    | .error e => .error e
    | .ok accrued =>
      if row.debt + accrued < 2 ^ 128 then
        .ok ({ row with debt := row.debt + accrued, accruedAt := now }, some accrued)
      else .error (.repository "carried fee debt overflows")

/-- What moves a cost basis: units gained for cash at a price, units shed, or units redeemed. -/
inductive BasisMove
  | gain (cash units nav : Nat)
  | shed (units : Nat)
  | redeem (units : Nat)
deriving DecidableEq, Repr

/-- The cost basis after `units` of the row's are gone. -/
def PositionRow.reducedBasis (row : PositionRow) (units : Nat) : Nat :=
  row.costBasis * (row.units - units) / row.units

/-- A settle that outruns the position's row. -/
def notCaughtUp : DomainError :=
  .conflict "position projection has not caught up to the subscribe — retry the settle"

/-- The move of a row that is there. -/
def BasisMove.onRow (row : PositionRow) : BasisMove → Except DomainError PositionRow
  | .gain cash units nav =>
    .ok
      { row with
        costBasis := row.costBasis + cash
        units := row.units + units
        highWaterMark := max row.highWaterMark nav }
  | .shed units =>
    .ok
      { row with
        costBasis := if units < row.units then row.reducedBasis units else 0
        units := row.units - units }
  | .redeem units =>
    if units ≤ row.units then
      .ok { row with costBasis := row.reducedBasis units, units := row.units - units }
    else .error notCaughtUp

/-- The move where there is no row: a gain inserts one, whose clocks are the transaction's start. -/
def BasisMove.onAbsent (begun : Nat) : BasisMove → Except DomainError (Option PositionRow)
  | .gain cash units nav =>
    .ok
      (some
        { costBasis := cash
          units
          highWaterMark := nav
          debt := 0
          accruedAt := begun
          crystallizedAt := begun })
  | .shed _ => .ok none
  | .redeem _ => .error notCaughtUp

/-- A move keeps the state the fees accrue on. -/
theorem BasisMove.onRow_clock {row row' : PositionRow} {m : BasisMove}
    (h : m.onRow row = .ok row') : row'.accruedAt = row.accruedAt := by
  cases m with
  | gain cash units nav => exact Except.ok.inj h ▸ rfl
  | shed units => exact Except.ok.inj h ▸ rfl
  | redeem units =>
    simp only [BasisMove.onRow] at h
    split_ifs at h
    exact Except.ok.inj h ▸ rfl

/-- A row inserted begins with its transaction. -/
theorem BasisMove.onAbsent_clock {begun : Nat} {row : PositionRow} {m : BasisMove}
    (h : m.onAbsent begun = .ok (some row)) : row.accruedAt = begun := by
  cases m with
  | gain cash units nav => exact Option.some.inj (Except.ok.inj h) ▸ rfl
  | shed units => cases h
  | redeem units => cases h

/-- **What a carry does**: the clock restarts at its stamp, and only a row with units is billed. -/
theorem carryAccrual_ok {policy : Option FeePolicy} {latestNav : Option Nat}
    {row row' : PositionRow} {now : Nat} {accrued : Option Nat}
    (h : carryAccrual policy latestNav row now = .ok (row', accrued)) :
    row'.accruedAt = now ∧ row'.units = row.units ∧ row'.costBasis = row.costBasis ∧
      (row.units = 0 ∧ accrued = none ∨
        row.units ≠ 0 ∧ ∃ due, accrued = some due ∧
          accruedManagement policy latestNav row now = .ok due) := by
  unfold carryAccrual at h
  split_ifs at h with hunits
  · obtain ⟨rfl, rfl⟩ := Prod.mk.inj (Except.ok.inj h)
    exact ⟨rfl, rfl, rfl, .inl ⟨hunits, rfl⟩⟩
  · cases hdue : accruedManagement policy latestNav row now with
    | error e =>
      rw [hdue] at h
      cases h
    | ok due =>
      simp only [hdue] at h
      split_ifs at h
      obtain ⟨rfl, rfl⟩ := Prod.mk.inj (Except.ok.inj h)
      exact ⟨rfl, rfl, rfl, .inr ⟨hunits, due, rfl, rfl⟩⟩

/-! ## The writes -/

/-- One charge against one holding. An empty charge is no assessment. -/
structure FeeAssessment where
  user : UserId
  nav : Nat
  trigger : Trigger
  charge : FeeCharge
  owed : charge.isEmpty = false
deriving DecidableEq, Repr

/-- A row after a charge: the clock of performance moves only where it crystallized. -/
def PositionRow.advance (row : PositionRow) (charge : FeeCharge) (now : Nat) : PositionRow :=
  { row with
    units := row.units - charge.chargedUnits
    debt := charge.debtCarried
    highWaterMark := charge.highWaterMark
    accruedAt := now
    crystallizedAt := if charge.crystallized then now else row.crystallizedAt }

/-- A charge against a row that is not there. -/
def positionNotFound (user : UserId) (service : ServiceId) : DomainError :=
  .notFound "fund position" (user.text ++ "/" ++ service.slug)

/-- **The charge**, under the row's lock: nothing where the accrual clock is no longer the one
assessed against. `generation` is of the terms it was assessed on. -/
def FeePlane.charge (w : FeePlane) (a : FeeAssessment) (generation expected now : Nat) :
    Except DomainError Bool × FeePlane :=
  match w.positions a.user with
  | none => (.error (positionNotFound a.user w.service), w)
  | some row =>
    if row.accruedAt = expected then
      (.ok true, (w.store a.user (row.advance a.charge now)).bill a.user
        { generation, src := expected, dest := now, management := a.charge.management })
    else (.ok false, w)

/-- A row written over the one found under the lock, with the bill of what was carried. -/
def FeePlane.writePosition (w : FeePlane) (user : UserId) (found row : PositionRow)
    (bill : Option Bill) : Bool × FeePlane :=
  if w.positions user = some found then
    match bill with
    | none => (true, w.store user row)
    | some bill => (true, (w.store user row).bill user bill)
  else (false, w)

/-- A row inserted. The relay, which alone inserts, is one worker: nobody was first. -/
def FeePlane.insertPosition (w : FeePlane) (user : UserId) (row : PositionRow) : Bool × FeePlane :=
  match w.positions user with
  | none => (true, w.store user row)
  | some _ => (false, w)

/-- A charge does nothing, or moves the clock it was assessed against. -/
theorem FeePlane.charge_eq {w w' : FeePlane} {a : FeeAssessment} {generation expected now : Nat}
    {done : Except DomainError Bool} (h : (done, w') = w.charge a generation expected now) :
    w' = w ∨ ∃ row, w.positions a.user = some row ∧ row.accruedAt = expected ∧
      w' = (w.store a.user (row.advance a.charge now)).bill a.user
        { generation, src := expected, dest := now, management := a.charge.management } := by
  unfold FeePlane.charge at h
  split at h
  case h_1 => exact .inl (Prod.mk.inj h).2
  case h_2 row hrow =>
    split_ifs at h with hclock
    · exact .inr ⟨row, hrow, hclock, (Prod.mk.inj h).2⟩
    · exact .inl (Prod.mk.inj h).2

/-- A write does nothing, or replaces the row it found. -/
theorem FeePlane.writePosition_eq {w w' : FeePlane} {user : UserId} {found row : PositionRow}
    {bill : Option Bill} {done : Bool} (h : (done, w') = w.writePosition user found row bill) :
    w' = w ∨ w.positions user = some found ∧
      w' = bill.elim (w.store user row) ((w.store user row).bill user) := by
  unfold FeePlane.writePosition at h
  split_ifs at h with hfound
  · cases bill with
    | none => exact .inr ⟨hfound, (Prod.mk.inj h).2⟩
    | some bill => exact .inr ⟨hfound, (Prod.mk.inj h).2⟩
  · exact .inl (Prod.mk.inj h).2

/-- An insertion does nothing, or adds a row where there was none. -/
theorem FeePlane.insertPosition_eq {w w' : FeePlane} {user : UserId} {row : PositionRow}
    {done : Bool} (h : (done, w') = w.insertPosition user row) :
    w' = w ∨ w.positions user = none ∧ w' = w.store user row := by
  unfold FeePlane.insertPosition at h
  split at h
  case h_1 hnone => exact .inr ⟨hnone, (Prod.mk.inj h).2⟩
  case h_2 => exact .inl (Prod.mk.inj h).2

/-- What a promotion carries of one row: nothing of one it has not locked, or that has no units
left, or whose clock is past the change's effective date. -/
def FeePlane.carried (w : FeePlane) (change : TermsChange) (holders : UserId → Bool)
    (marks : UserId → Option Nat) (user : UserId) :
    Option (PositionRow × Except DomainError (PositionRow × Option Nat)) :=
  match w.positions user with
  | none => none
  | some row =>
    if holders user ∧ row.units ≠ 0 ∧ row.accruedAt < change.effectiveFrom then
      some (row, carryAccrual (w.policyAt w.promotions.length) (marks user) row
        change.effectiveFrom)
    else none

/-- What a promotion carries is a locked row with units, its clock before the effective date. -/
theorem FeePlane.carried_ok {w : FeePlane} {change : TermsChange} {holders : UserId → Bool}
    {marks : UserId → Option Nat} {user : UserId} {row : PositionRow}
    {result : Except DomainError (PositionRow × Option Nat)}
    (h : w.carried change holders marks user = some (row, result)) :
    w.positions user = some row ∧ row.units ≠ 0 ∧ row.accruedAt < change.effectiveFrom ∧
      carryAccrual (w.policyAt w.promotions.length) (marks user) row change.effectiveFrom =
        result := by
  unfold FeePlane.carried at h
  split at h
  case h_1 => cases h
  case h_2 found hrow =>
    split_ifs at h with hheld
    obtain ⟨rfl, hcarry⟩ := Prod.mk.inj (Option.some.inj h)
    exact ⟨hrow, hheld.2.1, hheld.2.2, hcarry⟩

/-- **New terms bound**: what the locked holders owe on the old ones is carried, and the row of
`fee_policies` replaced. -/
def FeePlane.bind (w : FeePlane) (change : TermsChange) (holders : UserId → Bool)
    (marks : UserId → Option Nat) : FeePlane :=
  { w with
    scheduled := none
    promoting := none
    promotions := w.promotions ++ [{ change, committedAt := w.now }]
    positions := fun user =>
      match w.carried change holders marks user with
      | some (_, .ok (row, _)) => some row
      | _ => w.positions user
    bills := fun user =>
      match w.carried change holders marks user with
      | some (row, .ok (_, some management)) =>
        { generation := w.promotions.length
          src := row.accruedAt
          dest := change.effectiveFrom
          management } :: w.bills user
      | _ => w.bills user }

/-! ## Operations -/

/-- What the fee plane's workers ask of the database and of the ledger. -/
inductive FeeOp
  | clock
  | due (before : Nat)
  | terms
  | accrual (user : UserId)
  | dealingNav
  | holding (user : UserId)
  | escrowed (user : UserId)
  | charge (a : FeeAssessment) (generation expected now : Nat)
  | lockPosition (user : UserId)
  | latestNav
  | writePosition (user : UserId) (found row : PositionRow) (bill : Option Bill)
  | insertPosition (user : UserId) (row : PositionRow)
  | holders (now : Nat)
  | bindTerms (change : TermsChange)

/-- How each is answered. -/
abbrev FeeOp.Ans : FeeOp → Type
  | .clock => Nat
  | .due _ => List UserId
  | .terms => TermsRead
  | .accrual _ | .lockPosition _ => Option PositionRow
  | .dealingNav => Except DomainError Nat
  | .holding _ | .escrowed _ => LedgerBalance
  | .latestNav => Option Nat
  | .charge _ _ _ _ => Except DomainError Bool
  | .writePosition _ _ _ _ | .insertPosition _ _ => Bool
  | .holders _ => Option TermsChange
  | .bindTerms _ => Except DomainError Unit

/-- **What an operation may answer and do.** The ledger and the marks answer anything. A promotion
may be refused (its holders' notices are undelivered), and fails where a carry does. -/
def FeeStep : (op : FeeOp) → FeePlane → op.Ans → FeePlane → Prop
  | .clock, w, now, w' => now = w.now ∧ w' = w
  | .due before, w, users, w' =>
    (∀ user ∈ users, ∃ row, w.positions user = some row ∧ row.units ≠ 0 ∧ row.accruedAt < before) ∧
      w' = w
  | .terms, w, terms, w' => terms = w.termsRead ∧ w' = w
  | .accrual user, w, row, w' => row = w.positions user ∧ w' = w
  | .lockPosition user, w, row, w' => row = w.positions user ∧ w' = w
  | .dealingNav, w, _, w' => w' = w
  | .holding _, w, _, w' => w' = w
  | .escrowed _, w, _, w' => w' = w
  | .latestNav, w, _, w' => w' = w
  | .charge a generation expected now, w, done, w' =>
    (done, w') = w.charge a generation expected now
  | .writePosition user found row bill, w, done, w' =>
    (done, w') = w.writePosition user found row bill
  | .insertPosition user row, w, done, w' => (done, w') = w.insertPosition user row
  | .holders now, w, found, w' =>
    found = none ∧ w' = w ∨
      ∃ change, w.scheduled = some change ∧ change.effectiveFrom ≤ now ∧ w.promoting = none ∧
        found = some change ∧
        w' = { w with
          promoting := some
            { change, holders := fun user => (w.positions user).any (·.units ≠ 0) } }
  | .bindTerms change, w, done, w' =>
    (∃ e, done = .error e) ∧ w' = w ∨
      ∃ holders marks, w.promoting = some { change, holders } ∧
        (∀ user row e, w.carried change holders marks user ≠ some (row, .error e)) ∧
        done = .ok () ∧ w' = w.bind change holders marks

/-- What else happens: time passes, changes are scheduled and withdrawn, and a promotion that was
refused or lost is rolled back. -/
inductive FeeEnv : FeePlane → FeePlane → Prop
  | tick (w : FeePlane) (now : Nat) (fits : now < 2 ^ 63) (h : w.now ≤ now) :
      FeeEnv w { w with now, now_fits := fits }
  | schedule (w : FeePlane) (change : TermsChange) (h : w.scheduled = none) :
      FeeEnv w { w with scheduled := some change }
  | cancel (w : FeePlane) (h : w.promoting = none) : FeeEnv w { w with scheduled := none }
  | rollback (w : FeePlane) : FeeEnv w { w with promoting := none }

/-! ## Programs -/

/-- A worker of the fee plane. -/
abbrev FeeProg (α : Type) : Type := Prog FeeOp FeeOp.Ans DomainError α

/-- A position is only swept once its last accrual is this old: a day. -/
def MIN_ACCRUAL_AGE : Nat := 24 * 60 * 60

/-- The reads of an assessment: terms that charge something, the row, a dealing price, and what the
ledger has of the holder's units. -/
def loadAssessmentInputs (user : UserId) :
    FeeProg (Option (Nat × FeePolicy × PositionSnapshot × Nat)) :=
  (Prog.ask FeeOp.terms).bind fun terms =>
    match terms.policy with
    | none => .ret none
    | some policy =>
      if policy.isZero then .ret none
      else
        (Prog.ask (FeeOp.accrual user)).bind fun
          | none => .ret none
          | some accrual =>
            (Prog.ask FeeOp.dealingNav).bind fun
              | .error e => .exit e
              | .ok price =>
                (Prog.ask (FeeOp.holding user)).bind fun holding =>
                  (Prog.ask (FeeOp.escrowed user)).bind fun escrowed =>
                    match checkedAdd holding.posted escrowed.posted "position units overflow" with
                    | .error e => .exit e
                    | .ok units =>
                      let snapshot : PositionSnapshot :=
                        { units
                          collectable := holding.available
                          costBasis := accrual.costBasis
                          highWaterMark := accrual.highWaterMark
                          debt := accrual.debt
                          accruedAt := accrual.accruedAt
                          crystallizedAt := accrual.crystallizedAt }
                      .ret (some (terms.generation, policy, snapshot, price))

/-- **Assess one holding and charge it** what is owed, if anything is. -/
def assessPosition (user : UserId) (trigger : Trigger) (now : Nat) :
    FeeProg (Option FeeAssessment) :=
  (loadAssessmentInputs user).bind fun
    | none => .ret none
    | some (generation, policy, snapshot, price) =>
      match assess policy snapshot price trigger now with
      | .error e => .exit e
      | .ok charge =>
        if h : charge.isEmpty = false then
          let assessment : FeeAssessment := { user, nav := price, trigger, charge, owed := h }
          (Prog.ask (FeeOp.charge assessment generation snapshot.accruedAt now)).bind fun
            | .error e => .exit e
            | .ok false => .ret none
            | .ok true => .ret (some assessment)
        else .ret none

/-- An assessment made on its own. -/
def assessNow (user : UserId) (trigger : Trigger) : FeeProg (Option FeeAssessment) :=
  (Prog.ask FeeOp.clock).bind fun now => assessPosition user trigger now

/-- **One sweep**: every due position is assessed as of the time the sweep began; one that fails is
passed over. -/
def sweep : FeeProg Unit :=
  (Prog.ask FeeOp.clock).bind fun now =>
    (Prog.ask (FeeOp.due (now - MIN_ACCRUAL_AGE))).bind fun users =>
      Prog.each (fun user => (assessPosition user .period now).outcome.bind fun _ => .ret ()) users

/-- A basis moved once what the old one earned is carried: what a transaction stamped `now` does
with the row it locked. -/
def carryAndMove (user : UserId) (m : BasisMove) (begun now : Nat) : FeeProg Unit :=
  (Prog.ask (FeeOp.lockPosition user)).bind fun
    | none =>
      match m.onAbsent begun with
      | .error e => .exit e
      | .ok none => .ret ()
      | .ok (some row) => (Prog.ask (FeeOp.insertPosition user row)).bind fun _ => .ret ()
    | some found =>
      (Prog.ask FeeOp.terms).bind fun terms =>
        (Prog.ask FeeOp.latestNav).bind fun latestNav =>
          match carryAccrual terms.policy latestNav found now with
          | .error e => .exit e
          | .ok (carried, accrued) =>
            match m.onRow carried with
            | .error e => .exit e
            | .ok row =>
              let bill := accrued.map fun management =>
                { generation := terms.generation, src := found.accruedAt, dest := now, management }
              (Prog.ask (FeeOp.writePosition user found row bill)).bind fun _ => .ret ()

/-- The relay's projections: the stamp is taken before the row's lock. -/
def projectBasis (user : UserId) (m : BasisMove) : FeeProg Unit :=
  (Prog.ask FeeOp.clock).bind fun begun =>
    (Prog.ask FeeOp.clock).bind fun now => carryAndMove user m begun now

/-- A redemption's settle: the stamp is taken under the row's lock. -/
def settleRedemption (user : UserId) (units : Nat) : FeeProg Unit :=
  (Prog.ask FeeOp.clock).bind fun begun =>
    (Prog.ask (FeeOp.lockPosition user)).bind fun _ =>
      (Prog.ask FeeOp.clock).bind fun now => carryAndMove user (.redeem units) begun now

/-- **Promote the change whose moment has come.** -/
def promote : FeeProg Unit :=
  (Prog.ask FeeOp.clock).bind fun now =>
    (Prog.ask (FeeOp.holders now)).bind fun
      | none => .ret ()
      | some change =>
        (Prog.ask (FeeOp.bindTerms change)).bind fun
          | .error e => .exit e
          | .ok () => .ret ()

/-- The workers of the fee plane, whatever they answer. -/
inductive IsFeeProg : FeeProg Unit → Prop
  | assess (user : UserId) (trigger : Trigger) :
      IsFeeProg ((assessNow user trigger).bind fun _ => .ret ())
  | sweep : IsFeeProg sweep
  | project (user : UserId) (m : BasisMove) : IsFeeProg (projectBasis user m)
  | settle (user : UserId) (units : Nat) : IsFeeProg (settleRedemption user units)
  | promote : IsFeeProg promote

end Banking
