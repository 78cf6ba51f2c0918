import Banking.WindowTool
import Mathlib.Data.List.Sort

/-! # Remapping the allocations' cash

Before the share accounts are closed, the window's tool moves the cash on every allocation's claim
onto the scope account that keeps it from then on: one linked chain an allocation, so that it moves
whole or not at all. Of the `fee` allocation's claim the operator may name a part that is banking's
own and goes to the treasury. The chain's ids derive from what was ever debited to the claim. -/

namespace Banking

open Interactive

namespace Remap

/-! ## Where the cash goes -/

/-- The one allocation whose cash lives in the `sa` scope. -/
def SA_SERVICE : String := "service_arb"

/-- The engine that opens allocation accounts. -/
def ENGINE_CLIENT : String := "invest"

/-- Why a run stops, with what its message names. -/
inductive Refusal
  | refused (reason : String)
  | ledger (cause : LedgerError)
  | invalidService (slug : String)
  | invalidDestination (service : String)
  | inFlight (service : String) (pending locked : Nat)
  | carveOutTooLarge (treasury held : Nat)
  | unknownAccount (key : String)
  | noFeeAllocation
  | scopeNotRegistered (scope : ScopeId)
  | scopeClosed (scope : ScopeId)
  | treasuryNotOurs (owner : Option String)
  | accountOfAnother (scope : ScopeId) (label : ScopeAccountLabel) (owner : String)
  | changed (service : String) (posted pending locked : Nat)
  | claimLeft (service : String) (posted : Nat)
  | destinationDiffers (key : String) (got want : Nat)
  | anchorChanged
deriving DecidableEq, Repr

/-- The scope an allocation's cash belongs to. -/
def scopeOf (service : ServiceId) : ScopeId :=
  if service.slug = SA_SERVICE then ⟨"sa"⟩ else ⟨"invest"⟩

/-- The account an allocation's cash is kept on once banking no longer knows allocations. -/
def destination (service : ServiceId) : Except Refusal (ScopeId × ScopeAccountLabel) :=
  match ScopeAccountLabel.parse ("alloc:" ++ service.slug) with
  | .ok label => .ok (scopeOf service, label)
  | .error _ => .error (.invalidDestination service.slug)

/-- What the operator decides: how much of the `fee` claim is banking's own. -/
structure Options where
  treasuryFromFee : Nat
deriving DecidableEq, Repr

/-- One allocation's claim and where it goes. -/
structure Step where
  service : ServiceId
  source : LedgerAccountKey
  posted : Nat
  destination : ScopeId × ScopeAccountLabel
  /-- The part for the treasury. -/
  treasury : Nat
  /-- What was ever debited to the claim: the discriminator of this move's ids. -/
  debits : Nat
  /-- The claim's ledger id; zero while it has nothing to move. -/
  sourceId : Nat
deriving DecidableEq, Repr

/-- Banking's treasury account. -/
def treasuryAccount : LedgerAccountKey := .scopeAccount .main .treasury

namespace Step

/-- The account an allocation's cash goes to. -/
def destKey (step : Step) : LedgerAccountKey :=
  .scopeAccount step.destination.1 step.destination.2

/-- One transfer of the chain. -/
def leg (step : Step) (role : String) (credit : LedgerAccountKey) (amount : Nat) :
    LedgerTransfer where
  id := toolId ("window:remap:" ++ step.service.slug ++ ":" ++ role ++ ":" ++
    hexAccount step.sourceId ++ ":" ++ toString step.debits)
  debit := step.source
  credit
  amount
  tag := ⟨.windowMigration, toolId ("window:remap:" ++ step.service.slug)⟩

/-- The chain: the treasury's part first, if any, then the rest to the destination. -/
def legs (step : Step) : List LedgerTransfer :=
  (if 0 < step.treasury then [step.leg "treasury" treasuryAccount step.treasury] else []) ++
    if step.treasury < step.posted then
      [step.leg "alloc" step.destKey (step.posted - step.treasury)]
    else []

/-- Where the cash lands and how much on each account. -/
def credits (step : Step) : List (LedgerAccountKey × Nat) :=
  step.legs.map fun leg => (leg.credit, leg.amount)

end Step

/-! ## What the tool asks -/

/-- An operation of the command. -/
inductive Op
  | invoke
  | readAnchor
  | requireMaintenance
  | requireDrained
  | balancedCash
  | allocations
  | balance (key : LedgerAccountKey)
  | totalDebits (key : LedgerAccountKey)
  | tbId (key : LedgerAccountKey)
  | scopeState (scope : ScopeId)
  | treasuryOwner
  | begin
  | lockClaim (key : LedgerAccountKey)
  | openRow (scope : ScopeId) (label : ScopeAccountLabel) (owner : String)
  | ensureAccount (key : LedgerAccountKey)
  | postLinked (transfers : List LedgerTransfer)
  | commit
deriving DecidableEq, Repr

/-- What each answers. -/
abbrev Op.Ans : Op → Type
  | .invoke => Mode
  | .requireMaintenance | .requireDrained | .balancedCash | .begin | .lockClaim _ | .commit =>
    Except String Unit
  | .readAnchor => Except String AnchorReading
  | .allocations => Except String (List String)
  | .balance _ => Except LedgerError LedgerBalance
  | .totalDebits _ => Except LedgerError Nat
  | .tbId _ => Except String (Option Nat)
  | .scopeState _ | .treasuryOwner => Except String (Option String)
  | .openRow .. => Except String String
  | .ensureAccount _ | .postLinked _ => Except LedgerError Unit

/-- A program of these operations. -/
abbrev Command (α : Type) : Type := Prog Op Op.Ans Refusal α

/-- One operation. -/
def ask (op : Op) : Command op.Ans := Prog.ask op

/-- An answer, or the refusal its failure is. -/
abbrev orFailed {α : Type} : Except String α → Command α := Prog.orExit .refused

/-- A ledger's answer, or the refusal its failure is. -/
abbrev orLedger {α : Type} : Except LedgerError α → Command α := Prog.orExit .ledger

/-! ## Planning -/

/-- The claim's ledger id, where there is something to move. -/
def sourceId (source : LedgerAccountKey) (posted : Nat) : Command Nat :=
  if 0 < posted then do
    let found ← orFailed (← ask (.tbId source))
    Prog.orExit (fun _ => .unknownAccount source.logicalKey) (found.elim (.error ()) .ok)
  else return 0

/-- What is to move off one allocation's claim. -/
def planStep (options : Options) (slug : String) : Command Step := do
  let service ← Prog.orExit (fun _ => .invalidService slug) (ServiceId.parse slug)
  let source := LedgerAccountKey.serviceClaim service
  let claim ← orLedger (← ask (.balance source))
  if claim.pending ≠ 0 ∨ claim.locked ≠ 0 then
    .exit (.inFlight slug claim.pending claim.locked)
  let treasury := if service = .fee then options.treasuryFromFee else 0
  if claim.posted < treasury then .exit (.carveOutTooLarge treasury claim.posted)
  let debits ← orLedger (← ask (.totalDebits source))
  let id ← sourceId source claim.posted
  let dest ← Prog.orExit (fun refusal => refusal) (destination service)
  return ⟨service, source, claim.posted, dest, treasury, debits, id⟩

/-- What is to move off each. -/
def planSteps (options : Options) : List String → Command (List Step)
  | [] => return []
  | slug :: slugs => do
    let step ← planStep options slug
    let steps ← planSteps options slugs
    return step :: steps

/-- **The plan.** -/
def plan (options : Options) : Command (List Step) := do
  let slugs ← orFailed (← ask .allocations)
  let steps ← planSteps options slugs
  if 0 < options.treasuryFromFee ∧ ¬ steps.any (·.service = .fee) then .exit .noFeeAllocation
  return steps

/-- What the accounts that receive cash must read afterwards, by key; an account met first is read
now. -/
def expect : List (LedgerAccountKey × Nat) → List (LedgerAccountKey × Nat) →
    Command (List (LedgerAccountKey × Nat))
  | expected, [] => return expected
  | expected, (key, add) :: credits =>
    if expected.any (·.1.logicalKey = key.logicalKey) then
      expect (expected.map fun (k, want) =>
        if k.logicalKey = key.logicalKey then (k, want + add) else (k, want)) credits
    else do
      let now ← orLedger (← ask (.balance key))
      expect (expected ++ [(key, now.posted + add)]) credits

/-! ## Moving -/

/-- The scope an account is to be opened in takes accounts. -/
def checkScope (scope : ScopeId) : Command Unit := do
  let state ← orFailed (← ask (.scopeState scope))
  match state with
  | none => .exit (.scopeNotRegistered scope)
  | some state => if state = "closed" then .exit (.scopeClosed scope)

/-- The treasury is registered as banking's own. -/
def checkTreasury : Command Unit := do
  let owner ← orFailed (← ask .treasuryOwner)
  if owner ≠ some "banking" then .exit (.treasuryNotOurs owner)

/-- **One allocation's cash moved**, under the claim's lock; its account is opened first. -/
def apply (step : Step) : Command Unit := do
  let scope := step.destination.1
  let label := step.destination.2
  checkScope scope
  if 0 < step.treasury then checkTreasury
  orFailed (← ask .begin)
  orFailed (← ask (.lockClaim step.source))
  let owner ← orFailed (← ask (.openRow scope label ENGINE_CLIENT))
  if owner ≠ ENGINE_CLIENT then .exit (.accountOfAnother scope label owner)
  let claim ← orLedger (← ask (.balance step.source))
  if claim.posted ≠ step.posted ∨ claim.pending ≠ 0 ∨ claim.locked ≠ 0 then
    .exit (.changed step.service.slug claim.posted claim.pending claim.locked)
  -- Nothing to move, but the account must exist for the new owner's reads.
  if step.legs = [] then orLedger (← ask (.ensureAccount step.destKey))
  else orLedger (← ask (.postLinked step.legs))
  orFailed (← ask .commit)

/-- A claim is left with nothing. -/
def verifyClaim (step : Step) : Command Unit := do
  let claim ← orLedger (← ask (.balance step.source))
  if claim.pending ≠ 0 ∨ claim.locked ≠ 0 ∨ claim.posted ≠ 0 then
    .exit (.claimLeft step.service.slug claim.posted)

/-- An account reads what it must. -/
def verifyDestination (expected : LedgerAccountKey × Nat) : Command Unit := do
  let balance ← orLedger (← ask (.balance expected.1))
  if balance.posted ≠ expected.2 then
    .exit (.destinationDiffers expected.1.logicalKey balance.posted expected.2)

/-- How a run that was not refused ends. -/
inductive Outcome
  | planned
  | moved
deriving DecidableEq, Repr

/-- **The command.** -/
def run (options : Options) : Command Outcome := do
  let mode ← ask .invoke
  let before ← orFailed (← ask .readAnchor)
  orFailed (← ask .requireMaintenance)
  orFailed (← ask .requireDrained)
  orFailed (← ask .balancedCash)
  let steps ← plan options
  if ¬ mode.applies then return .planned
  let expected ← expect [] (steps.flatMap Step.credits)
  Prog.each apply steps
  Prog.each verifyClaim steps
  Prog.each verifyDestination
    (expected.insertionSort fun a b => a.1.logicalKey ≤ b.1.logicalKey)
  orFailed (← ask .balancedCash)
  let after ← orFailed (← ask .readAnchor)
  if ¬ after.sameHoldersAs before then .exit .anchorChanged
  return .moved

end Remap

end Banking
