import Banking.Idempotency
import Banking.Lib.Rolling

/-! # The ceilings of a scope's policy

What a scope lets through without an approval: a user's moves in, a client's automatic transfers and
payouts, and what leaves the scope in a day without the owners. Each ceiling is checked against a
total recorded for the last day, the new amount on top. -/

namespace Banking

/-! ## The policy -/

/-- What it takes to move money into a scope, and how far its services may move money without an
approval. A limit of `none` is no limit. -/
structure ScopePolicy where
  minKycLevel : Nat
  maxPerMove : Option Nat
  maxMovedIn24h : Option Nat
  maxBalance : Option Nat
  autoPayoutPerOp : Nat
  autoPayout24h : Nat
  autoTransferPerOp : Nat
  autoTransfer24h : Nat
  scopeBudget24h : Nat
deriving DecidableEq, Repr

/-- The rule of the policy a move in breaks. -/
inductive MoveRefusal
  | kycLevel
  | maxPerMove
  | maxMovedIn24h
  | maxBalance
deriving DecidableEq, Repr

/-- What the policy is asked about one move in. -/
structure MoveInFacts where
  kycLevel : Nat
  amount : Nat
  movedIn24h : Nat
  balance : Nat
deriving DecidableEq, Repr

/-- What a client's automatic transfer is checked against. -/
structure AutoTransferFacts where
  amount : Nat
  transferred24h : Nat
deriving DecidableEq, Repr

/-- What an automatic payout is checked against. -/
structure AutoPayoutFacts where
  total : Nat
  maxLine : Nat
  paid24h : Nat
  scopeOut24h : Nat
deriving DecidableEq, Repr

/-- The largest line an automatic payout may carry. -/
def MAX_PAYOUT_LINE : Nat := 1000000000000000000000

/-- The first amount past 128 bits. -/
def Usdt.LIMIT : Nat := 2 ^ 128

/-- A sum of amounts; none past 128 bits. -/
def Usdt.checkedAdd (a b : Nat) : Option Nat := if a + b < Usdt.LIMIT then some (a + b) else none

/-- Whether an amount on top of a base stays within a cap. An overflowing sum is past any cap. -/
def withinCap (cap : Option Nat) (base amount : Nat) : Bool :=
  match cap with
  | none => true
  | some cap => (Usdt.checkedAdd base amount).any (· ≤ cap)

/-- Whether a user of this level may move money in at all. -/
def ScopePolicy.admitsKyc (p : ScopePolicy) (kycLevel : Nat) : Bool := p.minKycLevel ≤ kycLevel

/-- The first rule a move in breaks. -/
def ScopePolicy.admitMoveIn (p : ScopePolicy) (f : MoveInFacts) : Except MoveRefusal Unit :=
  if ¬ p.admitsKyc f.kycLevel then .error .kycLevel
  else if p.maxPerMove.any (· < f.amount) then .error .maxPerMove
  else if ¬ withinCap p.maxMovedIn24h f.movedIn24h f.amount then .error .maxMovedIn24h
  else if ¬ withinCap p.maxBalance f.balance f.amount then .error .maxBalance
  else .ok ()

/-- Whether a client's transfer stays inside the scope's automatic ceilings. -/
def ScopePolicy.admitAutoTransfer (p : ScopePolicy) (f : AutoTransferFacts) :
    Except LedgerRefusal Unit :=
  if p.autoTransferPerOp < f.amount then .error .approvalRequired
  else
    match Usdt.checkedAdd f.transferred24h f.amount with
    | none => .error .approvalRequired
    | some total => if p.autoTransfer24h < total then .error .approvalRequired else .ok ()

/-- Whether an amount on top of what already left the scope today breaks its daily budget. -/
def ScopePolicy.overScopeBudget (p : ScopePolicy) (scopeOut24h amount : Nat) : Bool :=
  match Usdt.checkedAdd scopeOut24h amount with
  | none => true
  | some total => p.scopeBudget24h < total

/-- Whether a client's payout stays inside its automatic ceilings and the scope's daily budget. -/
def ScopePolicy.admitAutoPayout (p : ScopePolicy) (f : AutoPayoutFacts) :
    Except LedgerRefusal Unit :=
  if p.autoPayoutPerOp < f.total ∨ MAX_PAYOUT_LINE < f.maxLine then .error .approvalRequired
  else
    match Usdt.checkedAdd f.paid24h f.total with
    | none => .error .approvalRequired
    | some paid =>
      if p.autoPayout24h < paid then .error .approvalRequired
      else if p.overScopeBudget f.scopeOut24h f.total then .error .approvalRequired
      else .ok ()

/-! ## What is admitted -/

/-- A sum is formed exactly when it fits 128 bits. -/
theorem Usdt.checkedAdd_cases (a b : Nat) :
    a + b < Usdt.LIMIT ∧ Usdt.checkedAdd a b = some (a + b) ∨
      ¬ a + b < Usdt.LIMIT ∧ Usdt.checkedAdd a b = none := by
  unfold Usdt.checkedAdd
  by_cases h : a + b < Usdt.LIMIT
  · exact .inl ⟨h, if_pos h⟩
  · exact .inr ⟨h, if_neg h⟩

/-- A sum fits a cap exactly when it neither overflows nor passes it. -/
theorem withinCap_within_iff {cap : Option Nat} {base amount : Nat} :
    withinCap cap base amount = true ↔
      ∀ c ∈ cap, base + amount < Usdt.LIMIT ∧ base + amount ≤ c := by
  cases cap with
  | none => simp [withinCap]
  | some c =>
    obtain ⟨h, hsum⟩ | ⟨h, hsum⟩ := Usdt.checkedAdd_cases base amount <;>
      simp [withinCap, hsum, h]

theorem ScopePolicy.overScopeBudget_eq_false_iff {p : ScopePolicy} {out amount : Nat} :
    p.overScopeBudget out amount = false ↔
      out + amount < Usdt.LIMIT ∧ out + amount ≤ p.scopeBudget24h := by
  obtain ⟨h, hsum⟩ | ⟨h, hsum⟩ := Usdt.checkedAdd_cases out amount <;>
    simp [ScopePolicy.overScopeBudget, hsum, h]

/-- **A move in is admitted** exactly for a user of the level, under each limit there is. -/
theorem ScopePolicy.admitMoveIn_ok_iff {p : ScopePolicy} {f : MoveInFacts} :
    p.admitMoveIn f = .ok () ↔ p.minKycLevel ≤ f.kycLevel ∧ (∀ c ∈ p.maxPerMove, f.amount ≤ c) ∧
      (∀ c ∈ p.maxMovedIn24h, f.movedIn24h + f.amount < Usdt.LIMIT ∧
        f.movedIn24h + f.amount ≤ c) ∧
      ∀ c ∈ p.maxBalance, f.balance + f.amount < Usdt.LIMIT ∧ f.balance + f.amount ≤ c := by
  rw [← withinCap_within_iff, ← withinCap_within_iff]
  have hper : (p.maxPerMove.any (· < f.amount)) = false ↔ ∀ c ∈ p.maxPerMove, f.amount ≤ c := by
    cases p.maxPerMove <;> simp
  rw [← hper]
  unfold ScopePolicy.admitMoveIn ScopePolicy.admitsKyc
  split_ifs <;> simp_all

/-- **A transfer is admitted** exactly under both ceilings. -/
theorem ScopePolicy.admitAutoTransfer_ok_iff {p : ScopePolicy} {f : AutoTransferFacts} :
    p.admitAutoTransfer f = .ok () ↔ f.amount ≤ p.autoTransferPerOp ∧
      f.transferred24h + f.amount < Usdt.LIMIT ∧
      f.transferred24h + f.amount ≤ p.autoTransfer24h := by
  unfold ScopePolicy.admitAutoTransfer
  by_cases hop : p.autoTransferPerOp < f.amount
  · simp [hop]
  · obtain ⟨h, hsum⟩ | ⟨h, hsum⟩ := Usdt.checkedAdd_cases f.transferred24h f.amount
    · simp [not_lt.mp hop, hop, hsum, h]
    · simp [hop, hsum, h]

/-- **A payout is admitted** exactly under its own ceilings and within the scope's budget. -/
theorem ScopePolicy.admitAutoPayout_ok_iff {p : ScopePolicy} {f : AutoPayoutFacts} :
    p.admitAutoPayout f = .ok () ↔ (f.total ≤ p.autoPayoutPerOp ∧ f.maxLine ≤ MAX_PAYOUT_LINE) ∧
      (f.paid24h + f.total < Usdt.LIMIT ∧ f.paid24h + f.total ≤ p.autoPayout24h) ∧
      f.scopeOut24h + f.total < Usdt.LIMIT ∧ f.scopeOut24h + f.total ≤ p.scopeBudget24h := by
  rw [← ScopePolicy.overScopeBudget_eq_false_iff]
  unfold ScopePolicy.admitAutoPayout
  by_cases hop : p.autoPayoutPerOp < f.total ∨ MAX_PAYOUT_LINE < f.maxLine
  · have hnot : ¬ (f.total ≤ p.autoPayoutPerOp ∧ f.maxLine ≤ MAX_PAYOUT_LINE) := by omega
    simp [hop, hnot]
  · have hfits : f.total ≤ p.autoPayoutPerOp ∧ f.maxLine ≤ MAX_PAYOUT_LINE := by omega
    obtain ⟨h, hsum⟩ | ⟨h, hsum⟩ := Usdt.checkedAdd_cases f.paid24h f.total
    · by_cases hday : p.autoPayout24h < f.paid24h + f.total
      · simp [hop, hsum, hday, not_le.mpr hday]
      · simp [hop, hfits, hsum, h, hday, not_lt.mp hday]
    · simp [hop, hsum, h]

/-! ## Monotony -/

/-- What is refused is refused at every larger total. -/
theorem ScopePolicy.refusals_mono (p : ScopePolicy) :
    (∀ f g : MoveInFacts, f.kycLevel = g.kycLevel → f.amount = g.amount →
      f.movedIn24h ≤ g.movedIn24h → f.balance ≤ g.balance →
      p.admitMoveIn f ≠ .ok () → p.admitMoveIn g ≠ .ok ()) ∧
    (∀ f g : AutoTransferFacts, f.amount = g.amount → f.transferred24h ≤ g.transferred24h →
      p.admitAutoTransfer f ≠ .ok () → p.admitAutoTransfer g ≠ .ok ()) ∧
    (∀ f g : AutoPayoutFacts, f.total = g.total → f.maxLine = g.maxLine →
      f.paid24h ≤ g.paid24h → f.scopeOut24h ≤ g.scopeOut24h →
      p.admitAutoPayout f ≠ .ok () → p.admitAutoPayout g ≠ .ok ()) ∧
    ∀ out out' amount, out ≤ out' →
      p.overScopeBudget out amount = true → p.overScopeBudget out' amount = true := by
  refine ⟨?_, ?_, ?_, ?_⟩
  · intro f g hkyc hamount hmoved hbalance hrefused hallowed
    refine hrefused (ScopePolicy.admitMoveIn_ok_iff.mpr ?_)
    obtain ⟨hlevel, hper, hday, hcap⟩ := ScopePolicy.admitMoveIn_ok_iff.mp hallowed
    refine ⟨hkyc ▸ hlevel, hamount ▸ hper, fun c hc => ?_, fun c hc => ?_⟩
    · have := hday c hc
      omega
    · have := hcap c hc
      omega
  · intro f g hamount htotal hrefused hallowed
    refine hrefused (ScopePolicy.admitAutoTransfer_ok_iff.mpr ?_)
    have := ScopePolicy.admitAutoTransfer_ok_iff.mp hallowed
    omega
  · intro f g htotal hline hpaid hout hrefused hallowed
    refine hrefused (ScopePolicy.admitAutoPayout_ok_iff.mpr ?_)
    have := ScopePolicy.admitAutoPayout_ok_iff.mp hallowed
    omega
  · intro out out' amount hle hover
    by_contra hnot
    have hfits := ScopePolicy.overScopeBudget_eq_false_iff.mp (by simpa using hnot)
    have hwas : p.overScopeBudget out amount = false :=
      ScopePolicy.overScopeBudget_eq_false_iff.mpr (by omega)
    simp [hwas] at hover

/-- No sum an admission is decided on has overflowed. -/
theorem ScopePolicy.admissions_in_range (p : ScopePolicy) :
    (∀ f, p.admitMoveIn f = .ok () →
      (p.maxMovedIn24h.isSome → (Usdt.checkedAdd f.movedIn24h f.amount).isSome) ∧
      (p.maxBalance.isSome → (Usdt.checkedAdd f.balance f.amount).isSome)) ∧
    (∀ f, p.admitAutoTransfer f = .ok () →
      (Usdt.checkedAdd f.transferred24h f.amount).isSome) ∧
    (∀ f, p.admitAutoPayout f = .ok () → (Usdt.checkedAdd f.paid24h f.total).isSome ∧
      (Usdt.checkedAdd f.scopeOut24h f.total).isSome) ∧
    ∀ out amount, p.overScopeBudget out amount = false → (Usdt.checkedAdd out amount).isSome := by
  have hsome : ∀ {a b : Nat}, a + b < Usdt.LIMIT → (Usdt.checkedAdd a b).isSome := by
    intro a b h
    simp [Usdt.checkedAdd, h]
  refine ⟨fun f h => ?_, fun f h => ?_, fun f h => ?_, fun out amount h => ?_⟩
  · obtain ⟨_, _, hday, hcap⟩ := ScopePolicy.admitMoveIn_ok_iff.mp h
    refine ⟨fun hd => ?_, fun hb => ?_⟩
    · obtain ⟨c, hc⟩ := Option.isSome_iff_exists.mp hd
      exact hsome (hday c hc).1
    · obtain ⟨c, hc⟩ := Option.isSome_iff_exists.mp hb
      exact hsome (hcap c hc).1
  · exact hsome (ScopePolicy.admitAutoTransfer_ok_iff.mp h).2.1
  · obtain ⟨_, hpaid, hout⟩ := ScopePolicy.admitAutoPayout_ok_iff.mp h
    exact ⟨hsome hpaid.1, hsome hout.1⟩
  · exact hsome (ScopePolicy.overScopeBudget_eq_false_iff.mp h).1

/-! ## Runs of admissions -/

open Rolling (Entry When Bounded recent total)

/-- The window of every total, in seconds. -/
def DAY : Int := 86400

/-- What an admission is recorded as. -/
inductive Outlay
  | moveIn (user : UserId)
  | autoTransfer (client : ClientId)
  | autoPayout (client : ClientId)
  | requestedPayout (client : ClientId)
deriving DecidableEq, Repr

/-- Whether an admission draws on the scope's daily budget. -/
def Outlay.leavesScope : Outlay → Bool
  | .autoPayout _ | .requestedPayout _ => true
  | .moveIn _ | .autoTransfer _ => false

/-- The admissions recorded of one kind. -/
def recordedAs (q : Outlay → Bool) (log : List (Entry Outlay)) : List (Entry Outlay) :=
  log.filter (q ·.key)

/-- One admission of a scope's policy, decided on totals that cover what is recorded of the last
day, at any time; or recorded ones that failed, and count no more. -/
inductive Admits (p : ScopePolicy) : List (Entry Outlay) → List (Entry Outlay) → Prop
  | moveIn {log : List (Entry Outlay)} (user : UserId) (now : Int) (f : MoveInFacts)
      (hcovers : recent DAY now (recordedAs (· = .moveIn user) log) ≤ f.movedIn24h)
      (hallowed : p.admitMoveIn f = .ok ()) :
      Admits p log (⟨.moveIn user, f.amount, .stamped now⟩ :: log)
  | autoTransfer {log : List (Entry Outlay)} (client : ClientId) (now : Int)
      (f : AutoTransferFacts)
      (hcovers : recent DAY now (recordedAs (· = .autoTransfer client) log) ≤ f.transferred24h)
      (hallowed : p.admitAutoTransfer f = .ok ()) :
      Admits p log (⟨.autoTransfer client, f.amount, .stamped now⟩ :: log)
  | autoPayout {log : List (Entry Outlay)} (client : ClientId) (now : Int) (f : AutoPayoutFacts)
      (hcovers : recent DAY now (recordedAs (· = .autoPayout client) log) ≤ f.paid24h)
      (hscope : recent DAY now (recordedAs (·.leavesScope) log) ≤ f.scopeOut24h)
      (hallowed : p.admitAutoPayout f = .ok ()) :
      Admits p log (⟨.autoPayout client, f.total, .stamped now⟩ :: log)
  | requestedPayout {log : List (Entry Outlay)} (client : ClientId) (now : Int)
      (out amount : Nat) (hscope : recent DAY now (recordedAs (·.leavesScope) log) ≤ out)
      (hallowed : p.overScopeBudget out amount = false) :
      Admits p log (⟨.requestedPayout client, amount, .stamped now⟩ :: log)
  | failed {log log' : List (Entry Outlay)} (hfewer : log'.Sublist log) : Admits p log log'

/-- What holds under a ceiling on admissions of one kind is kept by one more, when it fits. -/
theorem recordedAs_push {q : Outlay → Bool} {ceiling : Nat} {log : List (Entry Outlay)}
    {e : Entry Outlay} (h : Bounded DAY ceiling (recordedAs q log))
    (hfits : q e.key = true →
      recent DAY e.time.start (recordedAs q log) + e.amount ≤ ceiling) :
    Bounded DAY ceiling (recordedAs q (e :: log)) := by
  by_cases hq : q e.key
  · simpa [recordedAs, hq] using h.push (hfits hq)
  · simpa [recordedAs, hq] using h

/-- The ceilings of a policy over what is recorded. -/
structure ScopePolicy.Holds (p : ScopePolicy) (log : List (Entry Outlay)) : Prop where
  moves : ∀ user, ∀ cap ∈ p.maxMovedIn24h, Bounded DAY cap (recordedAs (· = .moveIn user) log)
  transfers : ∀ client, Bounded DAY p.autoTransfer24h (recordedAs (· = .autoTransfer client) log)
  payouts : ∀ client, Bounded DAY p.autoPayout24h (recordedAs (· = .autoPayout client) log)
  budget : Bounded DAY p.scopeBudget24h (recordedAs (·.leavesScope) log)

/-- **One admission keeps every ceiling.** -/
theorem ScopePolicy.Holds.step {p : ScopePolicy} {log log' : List (Entry Outlay)}
    (h : p.Holds log) (hstep : Admits p log log') : p.Holds log' := by
  cases hstep with
  | moveIn user now f hcovers hallowed =>
    obtain ⟨_, _, hday, _⟩ := ScopePolicy.admitMoveIn_ok_iff.mp hallowed
    refine ⟨fun user' cap hcap => recordedAs_push (h.moves user' cap hcap) fun hkey => ?_,
      fun client => recordedAs_push (h.transfers client) (by simp),
      fun client => recordedAs_push (h.payouts client) (by simp),
      recordedAs_push h.budget (by simp [Outlay.leavesScope])⟩
    obtain rfl : user = user' := by simpa using hkey
    exact (Nat.add_le_add_right hcovers _).trans (hday cap hcap).2
  | autoTransfer client now f hcovers hallowed =>
    obtain ⟨_, _, hday⟩ := ScopePolicy.admitAutoTransfer_ok_iff.mp hallowed
    refine ⟨fun user cap hcap => recordedAs_push (h.moves user cap hcap) (by simp),
      fun client' => recordedAs_push (h.transfers client') fun hkey => ?_,
      fun client' => recordedAs_push (h.payouts client') (by simp),
      recordedAs_push h.budget (by simp [Outlay.leavesScope])⟩
    obtain rfl : client = client' := by simpa using hkey
    exact (Nat.add_le_add_right hcovers _).trans hday
  | autoPayout client now f hcovers hscope hallowed =>
    obtain ⟨_, ⟨_, hday⟩, _, hbudget⟩ := ScopePolicy.admitAutoPayout_ok_iff.mp hallowed
    refine ⟨fun user cap hcap => recordedAs_push (h.moves user cap hcap) (by simp),
      fun client' => recordedAs_push (h.transfers client') (by simp),
      fun client' => recordedAs_push (h.payouts client') fun hkey => ?_,
      recordedAs_push h.budget fun _ => (Nat.add_le_add_right hscope _).trans hbudget⟩
    obtain rfl : client = client' := by simpa using hkey
    exact (Nat.add_le_add_right hcovers _).trans hday
  | requestedPayout client now out amount hscope hallowed =>
    have hbudget := (ScopePolicy.overScopeBudget_eq_false_iff.mp hallowed).2
    exact ⟨fun user cap hcap => recordedAs_push (h.moves user cap hcap) (by simp),
      fun client' => recordedAs_push (h.transfers client') (by simp),
      fun client' => recordedAs_push (h.payouts client') (by simp),
      recordedAs_push h.budget fun _ => (Nat.add_le_add_right hscope _).trans hbudget⟩
  | failed hfewer =>
    have hsub : ∀ q, (recordedAs q log').Sublist (recordedAs q log) := fun q => hfewer.filter _
    exact ⟨fun user cap hcap => (h.moves user cap hcap).sublist (hsub _),
      fun client => (h.transfers client).sublist (hsub _),
      fun client => (h.payouts client).sublist (hsub _), h.budget.sublist (hsub _)⟩

/-- **Rolling ceilings hold over runs.** Whatever sequence of moves in, automatic transfers,
automatic payouts and unflagged requests a policy admits, each on totals that cover what is
recorded: no day holds more than the ceiling of its kind; no sum an admission is decided on has
overflowed; and what is refused at some total is refused at every larger one. -/
theorem rolling_ceilings_hold (p : ScopePolicy) :
    (∀ log, Relation.ReflTransGen (Admits p) [] log →
      (∀ user, ∀ cap ∈ p.maxMovedIn24h, ∀ lo hi, hi ≤ lo + DAY →
        total (When.within lo hi) (recordedAs (· = .moveIn user) log) ≤ cap) ∧
      (∀ client lo hi, hi ≤ lo + DAY →
        total (When.within lo hi) (recordedAs (· = .autoTransfer client) log) ≤
          p.autoTransfer24h) ∧
      (∀ client lo hi, hi ≤ lo + DAY →
        total (When.within lo hi) (recordedAs (· = .autoPayout client) log) ≤ p.autoPayout24h) ∧
      ∀ lo hi, hi ≤ lo + DAY →
        total (When.within lo hi) (recordedAs (·.leavesScope) log) ≤ p.scopeBudget24h) ∧
    ((∀ f, p.admitMoveIn f = .ok () →
        (p.maxMovedIn24h.isSome → (Usdt.checkedAdd f.movedIn24h f.amount).isSome) ∧
        (p.maxBalance.isSome → (Usdt.checkedAdd f.balance f.amount).isSome)) ∧
      (∀ f, p.admitAutoTransfer f = .ok () →
        (Usdt.checkedAdd f.transferred24h f.amount).isSome) ∧
      (∀ f, p.admitAutoPayout f = .ok () → (Usdt.checkedAdd f.paid24h f.total).isSome ∧
        (Usdt.checkedAdd f.scopeOut24h f.total).isSome) ∧
      ∀ out amount, p.overScopeBudget out amount = false →
        (Usdt.checkedAdd out amount).isSome) ∧
    (∀ f g : MoveInFacts, f.kycLevel = g.kycLevel → f.amount = g.amount →
      f.movedIn24h ≤ g.movedIn24h → f.balance ≤ g.balance →
      p.admitMoveIn f ≠ .ok () → p.admitMoveIn g ≠ .ok ()) ∧
    (∀ f g : AutoTransferFacts, f.amount = g.amount → f.transferred24h ≤ g.transferred24h →
      p.admitAutoTransfer f ≠ .ok () → p.admitAutoTransfer g ≠ .ok ()) ∧
    (∀ f g : AutoPayoutFacts, f.total = g.total → f.maxLine = g.maxLine →
      f.paid24h ≤ g.paid24h → f.scopeOut24h ≤ g.scopeOut24h →
      p.admitAutoPayout f ≠ .ok () → p.admitAutoPayout g ≠ .ok ()) ∧
    ∀ out out' amount, out ≤ out' →
      p.overScopeBudget out amount = true → p.overScopeBudget out' amount = true := by
  refine ⟨fun log hrun => ?_, p.admissions_in_range, p.refusals_mono⟩
  have hnil : p.Holds [] := ⟨fun _ _ _ => .nil _ _, fun _ => .nil _ _, fun _ => .nil _ _, .nil _ _⟩
  have hholds : p.Holds log := by
    induction hrun with
    | refl => exact hnil
    | tail _ hstep ih => exact ih.step hstep
  exact ⟨hholds.moves, hholds.transfers, hholds.payouts, hholds.budget⟩

/-- A scope with a daily budget of ten. -/
def samplePolicy : ScopePolicy :=
  { minKycLevel := 1, maxPerMove := none, maxMovedIn24h := some 10, maxBalance := none
    autoPayoutPerOp := 10, autoPayout24h := 10, autoTransferPerOp := 10, autoTransfer24h := 10
    scopeBudget24h := 10 }

/-- A payout and a request fill the sample budget to its last unit, and no day holds more. -/
theorem rolling_ceilings_sample :
    let log : List (Entry Outlay) :=
      [⟨.requestedPayout ⟨"desk"⟩, 6, .stamped 5⟩, ⟨.autoPayout ⟨"invest"⟩, 4, .stamped 0⟩]
    total (When.within (-1) 6) (recordedAs (·.leavesScope) log) = 10 ∧
      ∀ lo hi, hi ≤ lo + DAY →
        total (When.within lo hi) (recordedAs (·.leavesScope) log) ≤ 10 := by
  refine ⟨by decide, ?_⟩
  have hrun : Relation.ReflTransGen (Admits samplePolicy) []
      [⟨.requestedPayout ⟨"desk"⟩, 6, .stamped 5⟩, ⟨.autoPayout ⟨"invest"⟩, 4, .stamped 0⟩] :=
    .tail (.tail .refl (.autoPayout ⟨"invest"⟩ 0 ⟨4, 4, 0, 0⟩ (by decide) (by decide) (by decide)))
      (.requestedPayout ⟨"desk"⟩ 5 4 6 (by decide) (by decide))
  exact ((rolling_ceilings_hold samplePolicy).1 _ hrun).2.2.2

end Banking
