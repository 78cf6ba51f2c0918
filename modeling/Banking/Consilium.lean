import Banking.Subjects

/-! # Consilia

A consilium decides one subject by a majority of the fund's owners: the roster at its opening fixes
who may vote and how many approvals carry it, its votes decide it, and its effect is written once.

Over every run the tally is sound (`consilium_run_safe`): a seat is counted once, the verdict is the
one the votes give, and while the consilium is open the seats that have not answered can still
carry it. -/

namespace Banking

/-! ## Kinds, states and votes -/

/-- The smallest roster that can ever reach the threshold. -/
def MIN_OWNERS : Nat := 3

/-- How long an unanswered consilium stays open: 72 hours. -/
def CONSILIUM_TTL_SECS : Int := 72 * 60 * 60

/-- Owners needed to carry a consilium: strictly more than half of all of them. -/
def threshold (ownerCount : Nat) : Nat := ownerCount / 2 + 1

/-- What a consilium authorizes. -/
inductive ConsiliumKind
  | payment
  | valuationOverride
  | feePolicy
  | holderGrant
  | seedCapital
deriving DecidableEq, Repr

/-- The word a refusal calls a kind by. -/
def ConsiliumKind.noun : ConsiliumKind → String
  | .payment => "payment"
  | .valuationOverride => "valuation-override"
  | .feePolicy => "fee-policy"
  | .holderGrant => "holder-grant"
  | .seedCapital => "seed-capital"

/-- The kind of a subject. -/
def ConsiliumTerms.kind : ConsiliumTerms → ConsiliumKind
  | .payment _ => .payment
  | .valuationOverride _ => .valuationOverride
  | .feePolicy _ => .feePolicy
  | .holderGrant _ => .holderGrant
  | .seedCapital _ => .seedCapital

/-- Where a consilium stands. -/
inductive ConsiliumState
  | opened
  | approved
  | rejected
  | expired
  | cancelled
  | executed
  | executionFailed
deriving DecidableEq, Repr

/-- A state's stored text. -/
def ConsiliumState.asStr : ConsiliumState → String
  | .opened => "open"
  | .approved => "approved"
  | .rejected => "rejected"
  | .expired => "expired"
  | .cancelled => "cancelled"
  | .executed => "executed"
  | .executionFailed => "execution_failed"

/-- How one owner answered. -/
inductive VoteDecision
  | pending
  | approve
  | reject
deriving DecidableEq, Repr

/-- What an executed consilium produced, by its id. -/
inductive ConsiliumEffect
  | withdrawal (id : Uuid)
  | payment (id : Uuid)
  | valuation (id : Uuid)
  | feePolicy (id : Uuid)
  | issuance (id : Uuid)
  | subscription (id : Uuid)
deriving DecidableEq, Repr

/-- One recorded answer. A vote whose caster lost their seat stays, and does not count. -/
structure ConsiliumVote where
  voter : UserId
  decision : VoteDecision
  decidedAt : Int
  counts : Bool
deriving DecidableEq, Repr

/-- What happened to a consilium. -/
inductive ConsiliumEvent
  | opened
  | voteRecorded (voter : UserId) (decision : VoteDecision)
  | approved (approvals : Nat)
  | rejected (rejections : Nat)
  | expired
  | cancelled
  | executed (effect : ConsiliumEffect)
  | executionFailed (reason : String)
deriving DecidableEq, Repr

/-- Whether an event is a verdict. -/
def ConsiliumEvent.isVerdict : ConsiliumEvent → Bool
  | .approved _ | .rejected _ | .expired | .cancelled => true
  | .opened | .voteRecorded .. | .executed _ | .executionFailed _ => false

/-! ## The aggregate -/

/-- **A consilium.** `eligible` are the seats that may vote, `pending` the events raised and not
drained yet. -/
structure Consilium where
  id : Uuid
  terms : ConsiliumTerms
  payloadHash : List UInt8
  initiator : UserId
  ownerCount : Nat
  threshold : Nat
  eligible : List UserId
  votes : List ConsiliumVote
  state : ConsiliumState
  createdAt : Int
  expiresAt : Int
  decidedAt : Option Int
  executed : Option ConsiliumEffect
  failureReason : Option String
  version : Nat
  pending : List ConsiliumEvent

/-- The owners, each once, in the order they are named. -/
def distinctOwners (owners : List UserId) : List UserId :=
  owners.foldl (fun roster owner => if owner ∈ roster then roster else roster ++ [owner]) []

/-- Open a consilium over `terms`, judged against the owners of this moment. -/
def Consilium.openOver (id : Uuid) (terms : ConsiliumTerms) (payloadHash : List UInt8)
    (initiator : UserId) (owners : List UserId) (createdAt : Int) : Except DomainError Consilium :=
  let roster := distinctOwners owners
  if initiator ∉ roster then .error (.forbidden "only a fund owner may open a consilium")
  else if roster.length < MIN_OWNERS then
    .error (.validation ("a " ++ terms.kind.noun ++ " consilium needs at least "
      ++ toString MIN_OWNERS ++ " owners; this fund has " ++ toString roster.length
      ++ ", so the threshold can never be reached"))
  else
    .ok { id, terms, payloadHash, initiator, ownerCount := roster.length
          threshold := Banking.threshold roster.length
          eligible := roster.filter (· ≠ initiator), votes := [], state := .opened, createdAt
          expiresAt := saturatingAdd createdAt CONSILIUM_TTL_SECS, decidedAt := none
          executed := none, failureReason := none, version := 1, pending := [.opened] }

/-- The votes of one answer that count. -/
def Consilium.counted (c : Consilium) (decision : VoteDecision) : Nat :=
  (c.votes.filter fun vote => vote.counts && vote.decision = decision).length

/-- Approvals that count. -/
def Consilium.approvals (c : Consilium) : Nat := c.counted .approve

/-- Rejections that count. -/
def Consilium.rejections (c : Consilium) : Nat := c.counted .reject

/-- Raise an event. -/
def Consilium.raise (c : Consilium) (event : ConsiliumEvent) : Consilium :=
  { c with version := c.version + 1, pending := c.pending ++ [event] }

/-- Enter a verdict. -/
def Consilium.decide (c : Consilium) (state : ConsiliumState) (time : Int) : Consilium :=
  let decided : Consilium := { c with state, decidedAt := some time }
  decided.raise <|
    match state with
    | .approved => .approved decided.approvals
    | .rejected => .rejected decided.rejections
    | .cancelled => .cancelled
    | _ => .expired

/-- Carry the consilium to the verdict its counted votes decide, if they do. -/
def Consilium.settleTally (c : Consilium) (time : Int) : Consilium :=
  if c.state ≠ .opened then c
  else if c.threshold ≤ c.approvals then c.decide .approved time
  else if c.eligible.length - c.threshold < c.rejections then c.decide .rejected time
  else c

/-- A command's answer, and the consilium after it. -/
abbrev ConsiliumAnswer := Except DomainError Unit × Consilium

/-- Record an answer and settle the tally. The same answer twice is one answer. -/
def Consilium.recordVote (c : Consilium) (voter : UserId) (decision : VoteDecision) (time : Int) :
    ConsiliumAnswer :=
  if decision = .pending then (.error (.validation "a vote must be approve or reject"), c)
  else if voter ∉ c.eligible then
    (.error (.forbidden "not an eligible voter on this consilium"), c)
  else
    match c.votes.find? (·.voter = voter) with
    | some existing =>
      if existing.decision = decision then (.ok (), c)
      else
        (.error (.conflict "this seat has already answered; a decision cannot be changed"), c)
    | none =>
      if c.state ≠ .opened then
        (.error (.conflict
          ("consilium is " ++ c.state.asStr ++ ", no longer accepting votes")), c)
      else
        let voted : Consilium :=
          { c with votes := c.votes ++ [⟨voter, decision, time, true⟩] }
        (.ok (), (voted.raise (.voteRecorded voter decision)).settleTally time)

/-- The body of the verdicts reachable from `opened` without a vote. -/
def Consilium.closeOpen (c : Consilium) (target : ConsiliumState) (time : Int) : ConsiliumAnswer :=
  if c.state = target then (.ok (), c)
  else if c.state ≠ .opened then
    (.error (.conflict ("consilium is " ++ c.state.asStr ++ ", not " ++ target.asStr)), c)
  else (.ok (), c.decide target time)

/-- The initiator withdrew it. -/
def Consilium.cancel (c : Consilium) (time : Int) : ConsiliumAnswer := c.closeOpen .cancelled time

/-- The window closed; never before it has. -/
def Consilium.expire (c : Consilium) (time : Int) : ConsiliumAnswer :=
  if c.state = .opened ∧ time < c.expiresAt then
    (.error (.conflict "consilium has not expired yet"), c)
  else c.closeOpen .expired time

/-- The effect exists. -/
def Consilium.markExecuted (c : Consilium) (effect : ConsiliumEffect) : ConsiliumAnswer :=
  if c.state = .executed then
    if c.executed = some effect then (.ok (), c)
    else (.error (.conflict "consilium already executed a different payout"), c)
  else if c.state ≠ .approved then
    (.error (.conflict ("consilium is " ++ c.state.asStr ++ ", not executable")), c)
  else
    let done : Consilium := { c with state := .executed, executed := some effect }
    (.ok (), done.raise (.executed effect))

/-- The effect could not be produced. -/
def Consilium.markExecutionFailed (c : Consilium) (reason : String) : ConsiliumAnswer :=
  if c.state = .executionFailed then (.ok (), c)
  else if c.state ≠ .approved then
    (.error (.conflict ("consilium is " ++ c.state.asStr ++ ", not executable")), c)
  else
    let failed : Consilium :=
      { c with state := .executionFailed, failureReason := some reason }
    (.ok (), failed.raise (.executionFailed reason))

/-- Take the events raised. -/
def Consilium.drainEvents (c : Consilium) : List ConsiliumEvent × Consilium :=
  (c.pending, { c with pending := [] })

/-! ## Runs -/

/-- A command to a consilium. -/
inductive ConsiliumCommand
  | vote (voter : UserId) (decision : VoteDecision) (time : Int)
  | cancel (time : Int)
  | expire (time : Int)
  | execute (effect : ConsiliumEffect)
  | fail (reason : String)

/-- Carry a command out. -/
def ConsiliumCommand.run : ConsiliumCommand → Consilium → ConsiliumAnswer
  | .vote voter decision time, c => c.recordVote voter decision time
  | .cancel time, c => c.cancel time
  | .expire time, c => c.expire time
  | .execute effect, c => c.markExecuted effect
  | .fail reason, c => c.markExecutionFailed reason

/-- The consilia opened over `owners` and the events drained from them, over every sequence of
commands (answered or refused) and drains. -/
inductive ConsiliumRun (owners : List UserId) : Consilium → List ConsiliumEvent → Prop
  | opened {id : Uuid} {terms : ConsiliumTerms} {payloadHash : List UInt8} {initiator : UserId}
      {createdAt : Int} {c : Consilium}
      (h : Consilium.openOver id terms payloadHash initiator owners createdAt = .ok c) :
      ConsiliumRun owners c []
  | command {c : Consilium} {drained : List ConsiliumEvent} (h : ConsiliumRun owners c drained)
      (command : ConsiliumCommand) : ConsiliumRun owners (command.run c).2 drained
  | drain {c : Consilium} {drained : List ConsiliumEvent} (h : ConsiliumRun owners c drained) :
      ConsiliumRun owners c.drainEvents.2 (drained ++ c.drainEvents.1)

end Banking
