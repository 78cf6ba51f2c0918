import Banking.Consilium

/-! # The consilium store

A consilium as it is stored: its row, and a seat for each owner who may vote, with the digests of
the token and the code mailed to them. Every change locks the row, rebuilds the aggregate from the
row and the seats against the owners of that moment, changes it and writes it back. -/

namespace Banking

/-! ## Rows -/

/-- Wrong codes after which a seat's token burns. -/
def MAX_CODE_ATTEMPTS : Nat := 5

/-- What the users table says of one user. -/
structure OwnerStanding where
  owner : Bool
  frozen : Bool
  disabled : Bool
deriving DecidableEq, Repr

/-- A vote counts only while its caster is an owner in good standing. -/
def OwnerStanding.stillAnOwner (s : OwnerStanding) : Bool := s.owner && !s.frozen && !s.disabled

/-- The users table, as one change reads it. -/
abbrev Standings := UserId → OwnerStanding

/-- Audit facts the edge supplies with a vote. -/
structure VoteAudit where
  clientIp : String
  userAgent : String
deriving DecidableEq, Repr

/-- One eligible owner's seat, and the digests of the credentials mailed to it. -/
structure VoterSeat where
  user : UserId
  decision : VoteDecision
  decidedAt : Option Int
  tokenHash : List UInt8
  codeHash : List UInt8
  attempts : Nat
  burned : Bool
  expiresAt : Int
  usedAt : Option Int
  audit : Option VoteAudit
  payloadHash : Option (List UInt8)
deriving DecidableEq

/-- A consilium's row. -/
structure ConsiliumRow where
  id : Uuid
  terms : ConsiliumTerms
  payloadHash : List UInt8
  initiator : UserId
  ownerCount : Nat
  threshold : Nat
  state : ConsiliumState
  createdAt : Int
  expiresAt : Int
  decidedAt : Option Int
  executed : Option ConsiliumEffect
  failureReason : Option String
  version : Nat

/-- **A consilium as stored**: its row, its seats and the events written to the outbox. -/
structure StoredConsilium where
  row : ConsiliumRow
  seats : List VoterSeat
  outbox : List ConsiliumEvent

/-! ## Reading and writing -/

/-- A seat's answer, counted while its caster is still an owner. -/
def VoterSeat.vote (standings : Standings) (seat : VoterSeat) : ConsiliumVote where
  voter := seat.user
  decision := seat.decision
  decidedAt := seat.decidedAt.getD 0
  counts := (standings seat.user).stillAnOwner

/-- Whether a seat has answered. -/
def VoterSeat.answered (seat : VoterSeat) : Bool := seat.decision ≠ .pending

/-- Rebuild the aggregate from its row and its seats. -/
def StoredConsilium.rehydrate (standings : Standings) (s : StoredConsilium) : Consilium where
  id := s.row.id
  terms := s.row.terms
  payloadHash := s.row.payloadHash
  initiator := s.row.initiator
  ownerCount := s.row.ownerCount
  threshold := s.row.threshold
  eligible := s.seats.map (·.user)
  votes := (s.seats.filter (·.answered)).map (·.vote standings)
  state := s.row.state
  createdAt := s.row.createdAt
  expiresAt := s.row.expiresAt
  decidedAt := s.row.decidedAt
  executed := s.row.executed
  failureReason := s.row.failureReason
  version := s.row.version
  pending := []

/-- Write the aggregate back, and its events to the outbox. -/
def StoredConsilium.persist (s : StoredConsilium) (c : Consilium) : StoredConsilium :=
  { s with
    row := { s.row with
      state := c.state, decidedAt := c.decidedAt, executed := c.executed
      failureReason := c.failureReason, version := c.version }
    outbox := s.outbox ++ c.pending }

/-- Change one user's seat. -/
def StoredConsilium.withSeat (s : StoredConsilium) (user : UserId) (f : VoterSeat → VoterSeat) :
    StoredConsilium :=
  { s with seats := s.seats.map fun seat => if seat.user = user then f seat else seat }

@[simp] theorem StoredConsilium.withSeat_row (s : StoredConsilium) (user : UserId)
    (f : VoterSeat → VoterSeat) : (s.withSeat user f).row = s.row := rfl

@[simp] theorem StoredConsilium.persist_seats (s : StoredConsilium) (c : Consilium) :
    (s.persist c).seats = s.seats := rfl

@[simp] theorem StoredConsilium.persist_state (s : StoredConsilium) (c : Consilium) :
    (s.persist c).row.state = c.state := rfl

/-! ## Opening -/

/-- The digests of one seat's credentials. -/
structure VoterCredential where
  user : UserId
  tokenHash : List UInt8
  codeHash : List UInt8
deriving DecidableEq

/-- A seat nobody has voted from. -/
def VoterCredential.seat (expiresAt : Int) (credential : VoterCredential) : VoterSeat where
  user := credential.user
  decision := .pending
  decidedAt := none
  tokenHash := credential.tokenHash
  codeHash := credential.codeHash
  attempts := 0
  burned := false
  expiresAt := expiresAt
  usedAt := none
  audit := none
  payloadHash := none

/-- Write a new consilium and its seats, created at the database's own time. A token belongs to one
seat. -/
def Consilium.openOn (c : Consilium) (credentials : List VoterCredential) (createdAt : Int) :
    Except DomainError StoredConsilium :=
  if (credentials.map (·.user)).Nodup ∧ (credentials.map (·.tokenHash)).Nodup then
    .ok
      { row :=
          { id := c.id, terms := c.terms, payloadHash := c.payloadHash, initiator := c.initiator
            ownerCount := c.ownerCount, threshold := c.threshold, state := c.state, createdAt
            expiresAt := c.expiresAt, decidedAt := none, executed := none, failureReason := none
            version := c.version }
        seats := credentials.map (·.seat c.expiresAt)
        outbox := c.pending }
  else .error (.repository "duplicate key value violates unique constraint")

/-! ## Submissions -/

/-- What a submission presents: a token's digest, a code and an answer. -/
structure Submission where
  tokenHash : List UInt8
  code : String
  decision : VoteDecision
  audit : VoteAudit
  time : Int

/-- How a submission is refused: the one answer of every unusable token, or a domain error. -/
inductive SubmitError
  | invitationNotFound
  | domain (error : DomainError)
deriving DecidableEq, Repr

/-- A mistyped code, told apart from a dead link. -/
def wrongCode (message : String) : SubmitError := .domain (.validation message)

/-- What a vote did: whether it decided the consilium, and whether by approval. -/
structure SubmitOutcome where
  decided : Bool
  approved : Bool
deriving DecidableEq, Repr

/-- A submission's answer, the comparison of a code it came to (whose seat, and whether the code
was right) and what is stored after it. -/
structure Submitted where
  answer : Except SubmitError SubmitOutcome
  compared : Option (UserId × Bool)
  stored : StoredConsilium

/-- A seat with its attempts counted. -/
def VoterSeat.counted (attempts : Nat) (seat : VoterSeat) : VoterSeat := { seat with attempts }

/-- A seat whose token is burned. -/
def VoterSeat.burn (seat : VoterSeat) : VoterSeat := { seat with burned := true }

/-- A seat with an answer recorded in it. -/
def VoterSeat.answer (seat : VoterSeat) (sub : Submission) (payloadHash : List UInt8) : VoterSeat :=
  { seat with
    decision := sub.decision, decidedAt := some sub.time, usedAt := some sub.time
    audit := some sub.audit, payloadHash := some payloadHash }

section Submit

variable (digest : String → List UInt8)

/-- The end of a submission whose code is right: `counted` is what is stored once the attempt is
counted. A refusal rolls back to `s`. -/
def StoredConsilium.recordAnswer (standings : Standings) (s counted : StoredConsilium)
    (seat : VoterSeat) (sub : Submission) : Submitted :=
  let c := s.rehydrate standings
  match c.recordVote seat.user sub.decision sub.time with
  | (.error e, _) => ⟨.error (.domain e), some (seat.user, true), s⟩
  | (.ok (), voted) =>
    if voted.version = c.version then
      ⟨.ok ⟨false, false⟩, some (seat.user, true), counted⟩
    else
      ⟨.ok ⟨voted.state ≠ .opened, voted.state = .approved⟩, some (seat.user, true),
        (counted.withSeat seat.user (·.answer sub c.payloadHash)).persist voted⟩

/-- **Submit an answer with a seat's token and code**, under the row's lock. Only a seat that has
not answered pays for a wrong code. -/
def StoredConsilium.submit (standings : Standings) (s : StoredConsilium) (sub : Submission) :
    Submitted :=
  match s.seats.find? (·.tokenHash = sub.tokenHash) with
  | none => ⟨.error .invitationNotFound, none, s⟩
  | some seat =>
    if seat.burned ∨ seat.expiresAt ≤ sub.time then ⟨.error .invitationNotFound, none, s⟩
    else if s.row.state ≠ .opened ∧ seat.decision = .pending then
      ⟨.error .invitationNotFound, none, s⟩
    else if seat.decision = .pending then
      -- counted before the comparison is looked at
      let attempts := min (seat.attempts + 1) MAX_CODE_ATTEMPTS
      let counted := s.withSeat seat.user (VoterSeat.counted attempts)
      if digest sub.code ≠ seat.codeHash then
        if MAX_CODE_ATTEMPTS ≤ attempts then
          ⟨.error .invitationNotFound, some (seat.user, false),
            counted.withSeat seat.user VoterSeat.burn⟩
        else
          ⟨.error (wrongCode ("incorrect code — " ++ toString (MAX_CODE_ATTEMPTS - attempts)
            ++ " attempts remaining")), some (seat.user, false), counted⟩
      else s.recordAnswer standings counted seat sub
    else if digest sub.code ≠ seat.codeHash then
      ⟨.error (wrongCode "incorrect code"), some (seat.user, false), s⟩
    else s.recordAnswer standings s seat sub

end Submit

/-! ## The other changes -/

/-- Change the aggregate under the row's lock; a refusal changes nothing. -/
def StoredConsilium.change (standings : Standings) (s : StoredConsilium)
    (command : Consilium → ConsiliumAnswer) : Except DomainError Unit × StoredConsilium :=
  match command (s.rehydrate standings) with
  | (.error e, _) => (.error e, s)
  | (.ok (), c) => (.ok (), s.persist c)

/-- Withdraw a consilium, by the owner who opened it. -/
def StoredConsilium.cancel (standings : Standings) (s : StoredConsilium) (caller : UserId)
    (time : Int) : Except DomainError Unit × StoredConsilium :=
  if s.row.initiator ≠ caller then
    (.error (.forbidden "only the owner who opened this consilium may withdraw it"), s)
  else s.change standings (·.cancel time)

/-- Close one consilium whose window ran out. -/
def StoredConsilium.expireOne (standings : Standings) (s : StoredConsilium) (time : Int) :
    Except DomainError Bool × StoredConsilium :=
  if s.row.state ≠ .opened then (.ok false, s)
  else
    match s.change standings (·.expire time) with
    | (.error e, s') => (.error e, s')
    | (.ok (), s') => (.ok true, s')

/-- Void one consilium that was open across a roster change. -/
def StoredConsilium.voidOne (standings : Standings) (s : StoredConsilium) (time : Int) :
    Except DomainError Bool × StoredConsilium :=
  if s.row.state ≠ .opened then (.ok false, s)
  else
    match s.change standings (·.cancel time) with
    | (.error e, s') => (.error e, s')
    | (.ok (), s') => (.ok true, s')

/-- How an execution attempt ended. -/
inductive ExecutionOutcome
  | executed (effect : ConsiliumEffect)
  | failed (reason : String)
deriving DecidableEq, Repr

/-- Record how an execution attempt ended. -/
def StoredConsilium.recordExecution (standings : Standings) (s : StoredConsilium)
    (outcome : ExecutionOutcome) : Except DomainError Unit × StoredConsilium :=
  s.change standings fun c =>
    match outcome with
    | .executed effect => c.markExecuted effect
    | .failed reason => c.markExecutionFailed reason

end Banking
