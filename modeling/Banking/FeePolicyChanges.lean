import Banking.Execution
import Banking.FeeTerms
import Banking.Lib.KeyedRows

/-! # Changes of fee terms

A product's terms change in two moves. A change is scheduled, by an administrator or once the owners
carried it, and its holders are queued a notice each; when its day has come it is promoted into the
terms in force. Scheduling and promoting are transactions of several statements under the product's
lock. Under them the relay goes on moving positions, the mailer sending notices, and a change may be
withdrawn, or refused by its owners, through its own row. -/

namespace Banking

open KeyedRows (updateWhere)

/-! ## Rows -/

/-- The notice holders are owed: 24 hours. -/
def MIN_NOTICE_SECS : Int := 24 * 60 * 60

/-- When a change may bind: not before it was asked to, nor, where anyone holds units, before the
notice is up. -/
def earliestEffectiveFrom (scheduledAt requestedEffectiveFrom : Int) (hasHolders : Bool) : Int :=
  max requestedEffectiveFrom
    (if hasHolders then saturatingAdd scheduledAt MIN_NOTICE_SECS else scheduledAt)

/-- Who took responsibility for holders that could not be told, when, and for whom. -/
structure NoticeWaiver where
  givenBy : String
  givenAt : Int
  users : List UserId
deriving DecidableEq, Repr

/-- A row of `fee_policy_changes`. -/
structure FeePolicyChangeRow where
  id : Uuid
  service : ServiceId
  version : Nat
  policy : FeePolicy
  state : FeePolicyChangeState
  requirement : ChangeRequirement
  effectiveFrom : Int
  consiliumId : Option Uuid
  requestedBy : String
  requestedAt : Int
  reason : String
  scheduledAt : Option Int
  appliedAt : Option Int
  noticesWaiver : Option NoticeWaiver
deriving DecidableEq, Repr

/-- A change on its way. -/
def FeePolicyChangeRow.pending (r : FeePolicyChangeRow) : Bool :=
  r.state = .awaitingConsilium || r.state = .scheduled

/-- The row as its consilium's execution checks it. -/
def FeePolicyChangeRow.decided (r : FeePolicyChangeRow) : FeePolicyChange where
  service := r.service
  policy := r.policy
  reason := r.reason
  consiliumId := r.consiliumId
  byOwners := r.requirement = .ownerConsilium
  state := r.state

/-- The users a waiver names; none where there is no waiver. -/
def FeePolicyChangeRow.covered (r : FeePolicyChangeRow) : List UserId :=
  (r.noticesWaiver.map (·.users)).getD []

/-- A row of `fee_policies`: the terms in force. -/
structure LivePolicy where
  policy : FeePolicy
  updatedBy : String
  version : Nat
  effectiveFrom : Int
deriving DecidableEq, Repr

/-- What a change puts in force. -/
def FeePolicyChangeRow.live (r : FeePolicyChangeRow) : LivePolicy where
  policy := r.policy
  updatedBy := r.requestedBy
  version := r.version
  effectiveFrom := r.effectiveFrom

/-- A row of `fund_positions`, as far as terms go. -/
structure HeldUnits where
  service : ServiceId
  user : UserId
  units : Nat
deriving DecidableEq, Repr

/-- What a holder is told: the terms in force, the ones to come, and when. -/
structure FeePolicyNotice where
  current : Option FeePolicy
  proposed : FeePolicy
  effectiveAt : Int
deriving DecidableEq, Repr

/-- A holder's notice in the mailer's queue. -/
structure NoticeMail where
  dedupeKey : String
  change : Uuid
  user : UserId
  notice : FeePolicyNotice
  createdAt : Int
  attempts : Nat
  sent : Bool
  withdrawn : Bool
deriving DecidableEq, Repr

/-! ## The mailer -/

/-- After this many failures a mail is given up on. -/
def MAX_ATTEMPTS : Nat := 10

/-- How long a mail keeps being deferred. -/
def DEFERRAL_CEILING : Int := 24 * 60 * 60

/-- What the relay answers. -/
inductive MailAnswer
  | taken
  | deferred
  | failed
deriving DecidableEq, Repr

/-- Whether the mailer may take a mail up. -/
def NoticeMail.due (m : NoticeMail) : Bool := !m.sent && !m.withdrawn && m.attempts < MAX_ATTEMPTS

/-- A mail put back for later at no charge, or given up on past the ceiling. -/
def NoticeMail.defer (m : NoticeMail) (now : Int) : NoticeMail :=
  if m.createdAt + DEFERRAL_CEILING < now then { m with attempts := MAX_ATTEMPTS } else m

/-- A failure charged. -/
def NoticeMail.fail (m : NoticeMail) : NoticeMail :=
  { m with attempts := if MAX_ATTEMPTS ≤ m.attempts + 1 then MAX_ATTEMPTS else m.attempts + 1 }

/-- **One delivery.** A holder without a mirrored identity is waited for. -/
def NoticeMail.deliver (m : NoticeMail) (mirrored : Bool) (answer : MailAnswer) (now : Int) :
    NoticeMail :=
  if m.due then
    if mirrored then
      match answer with
      | .taken => { m with sent := true }
      | .deferred => m.defer now
      | .failed => m.fail
    else m.defer now
  else m

/-- A notice's key. -/
def noticeKey (change : Uuid) (user : UserId) : String :=
  "fee-policy-notice:" ++ change.text ++ ":" ++ user.text

/-- A notice queued; one under its key already there stands. -/
def enqueueNotice (mails : List NoticeMail) (mail : NoticeMail) : List NoticeMail :=
  if mails.any (·.dedupeKey = mail.dedupeKey) then mails else mails ++ [mail]

/-! ## Requests and work under way -/

/-- A change as the application proposes it. -/
structure NewFeePolicyChange where
  id : Uuid
  service : ServiceId
  policy : FeePolicy
  requirement : ChangeRequirement
  requestedEffectiveFrom : Int
  requestedBy : String
  reason : String
  nowUnix : Int
deriving DecidableEq, Repr

/-- The consilium opened with a change, and what its owners are to sign. -/
structure ConsiliumOpening where
  consilium : Uuid
  subject : FeePolicySubject

/-- **As `schedule_policy` asks**: the owners' consilium exactly where they are needed, over the
change as proposed. -/
def NewFeePolicyChange.OpenedWith (change : NewFeePolicyChange)
    (opening : Option ConsiliumOpening) : Prop :=
  match change.requirement, opening with
  | .admin, none => True
  | .ownerConsilium, some o =>
    o.subject.changeId = change.id ∧ o.subject.service = change.service ∧
      o.subject.toPolicy = change.policy ∧ o.subject.reason = change.reason ∧
      o.subject.requestedEffectiveFrom.toInt = change.requestedEffectiveFrom
  | _, _ => False

/-- A transaction that holds its product's lock, with what it has read. A promotion's `holders` are
those of the moment it counted the notices. -/
inductive FeeWork
  | scheduling (change : NewFeePolicyChange) (opening : Option ConsiliumOpening)
      (current : Option FeePolicy) (hasHolders : Bool)
  | carrying (row : FeePolicyChangeRow) (subject : FeePolicySubject) (nowUnix : Int)
      (current : Option FeePolicy) (hasHolders : Bool)
  | promoting (row : FeePolicyChangeRow) (nowUnix : Int) (holders : List UserId)

/-- The change whose row the transaction has locked. -/
def FeeWork.lockedRow : FeeWork → Option Uuid
  | .scheduling .. => none
  | .carrying row .. | .promoting row .. => some row.id

/-- The notices of one change, as they were queued: the consilium that carried it, the terms then in
force, whether anyone was counted as holding units, and the holders the roster found. -/
structure NoticeGiven where
  change : Uuid
  carriedBy : Option Uuid
  current : Option FeePolicy
  hasHolders : Bool
  roster : List UserId
deriving DecidableEq, Repr

/-- A promotion: the change as it bound, the terms it replaced, the holders when its notices were
counted, and the promotion's stamp. -/
structure BoundChange where
  row : FeePolicyChangeRow
  current : Option FeePolicy
  holders : List UserId
  stamp : Int
deriving DecidableEq, Repr

/-- **The tables the terms stand in**, the transactions under way, and the clock. `given` and
`bound` are the history, for the proofs only. -/
structure FeePolicyDesk where
  now : Int
  products : ServiceId → Bool
  users : UserId → Bool
  positions : List HeldUnits
  policies : ServiceId → Option LivePolicy
  changes : List FeePolicyChangeRow
  mails : List NoticeMail
  subjects : Uuid → Option FeePolicySubject
  work : ServiceId → Option FeeWork
  given : List NoticeGiven
  bound : List BoundChange

namespace FeePolicyDesk

/-! ## Reads -/

/-- The terms in force; none for a product that charges nothing. -/
def currentTerms (w : FeePolicyDesk) (service : ServiceId) : Option FeePolicy :=
  (w.policies service).map (·.policy)

/-- The positions of a product with units. -/
def heldIn (w : FeePolicyDesk) (service : ServiceId) : List HeldUnits :=
  w.positions.filter fun p => p.service = service && p.units ≠ 0

/-- Who holds units of a product. -/
def holders (w : FeePolicyDesk) (service : ServiceId) : List UserId :=
  (w.heldIn service).map (·.user)

/-- The holders a notice can be queued for: those with an account row. -/
def noticeRoster (w : FeePolicyDesk) (service : ServiceId) : List UserId :=
  (w.holders service).filter fun u => w.users u

/-- A change by its id. -/
def find (w : FeePolicyDesk) (id : Uuid) : Option FeePolicyChangeRow :=
  w.changes.find? fun r => r.id = id

/-- The notices of a change that have not reached a holder of now. -/
def undeliveredNotices (w : FeePolicyDesk) (id : Uuid) (service : ServiceId) : List NoticeMail :=
  w.mails.filter fun m =>
    m.change = id && !m.sent && !m.withdrawn && decide (m.user ∈ w.holders service)

/-- Whether the mailer has given a mail up. -/
def givenUp (m : NoticeMail) : Bool := MAX_ATTEMPTS ≤ m.attempts

/-- The next version of a product's terms. -/
def nextVersion (w : FeePolicyDesk) (service : ServiceId) : Nat :=
  ((w.changes.filter fun r => r.service = service).map (·.version)).foldr max 0 + 1

/-! ## Scheduling -/

/-- Terms for a product the registry does not know. -/
def unknownProduct (service : ServiceId) : DomainError := .notFound "allocation" service.slug

/-- A change that is not there. -/
def unknownChange (id : Uuid) : DomainError := .notFound "fee policy change" id.text

/-- A requirement decided on terms that have changed since. -/
def stale : DomainError :=
  .conflict "the live terms changed while the request was being recorded — re-submit"

/-- A second change on its way. -/
def alreadyPending : DomainError :=
  .conflict ("a fee-policy change is already pending for this product — cancel it before " ++
    "scheduling another")

/-- A consilium under an id that is taken, in the database's words. -/
def duplicateConsilium : DomainError :=
  .repository ("error returned from database: duplicate key value violates unique constraint " ++
    "\"consilium_pkey\"")

/-- The first half of `schedule`: the product locked, the requirement judged again on the terms in
force, the holders counted. -/
def beginSchedule (w : FeePolicyDesk) (change : NewFeePolicyChange)
    (opening : Option ConsiliumOpening) : Except DomainError FeeWork :=
  if ¬ w.products change.service then .error (unknownProduct change.service)
  else
    let current := w.currentTerms change.service
    if requirementFor current change.policy ≠ change.requirement then .error stale
    else if opening.any fun o => o.subject.fromPolicy ≠ current then .error stale
    else .ok (.scheduling change opening current (0 < (w.holders change.service).length))

/-- A holder's notice of a change, not yet tried. -/
def noticeMail (w : FeePolicyDesk) (row : FeePolicyChangeRow) (current : Option FeePolicy)
    (user : UserId) : NoticeMail where
  dedupeKey := noticeKey row.id user
  change := row.id
  user
  notice := { current, proposed := row.policy, effectiveAt := row.effectiveFrom }
  createdAt := w.now
  attempts := 0
  sent := false
  withdrawn := false

/-- The notices of a change queued, and what they were queued on. -/
def enqueueNotices (w : FeePolicyDesk) (row : FeePolicyChangeRow) (carriedBy : Option Uuid)
    (current : Option FeePolicy) (hasHolders : Bool) : FeePolicyDesk :=
  let roster := w.noticeRoster row.service
  { w with
    mails := (roster.map (w.noticeMail row current)).foldl enqueueNotice w.mails
    given := w.given ++ [{ change := row.id, carriedBy, current, hasHolders, roster }] }

/-- The row `schedule` inserts: scheduled at once, or waiting for the owners with its day still
provisional. -/
def scheduledRow (w : FeePolicyDesk) (change : NewFeePolicyChange)
    (opening : Option ConsiliumOpening) (hasHolders : Bool) : FeePolicyChangeRow where
  id := change.id
  service := change.service
  version := w.nextVersion change.service
  policy := change.policy
  state := match opening with
    | none => .scheduled
    | some _ => .awaitingConsilium
  requirement := change.requirement
  effectiveFrom := match opening with
    | none => earliestEffectiveFrom change.nowUnix change.requestedEffectiveFrom hasHolders
    | some _ => max change.requestedEffectiveFrom change.nowUnix
  consiliumId := opening.map (·.consilium)
  requestedBy := change.requestedBy
  requestedAt := change.nowUnix
  reason := change.reason
  scheduledAt := match opening with
    | none => some change.nowUnix
    | some _ => none
  appliedAt := none
  noticesWaiver := none

/-- The second half: the consilium opened, the row inserted under the indexes, the notices queued
where the change is scheduled already. -/
def endSchedule (w : FeePolicyDesk) (change : NewFeePolicyChange)
    (opening : Option ConsiliumOpening) (current : Option FeePolicy) (hasHolders : Bool) :
    Except DomainError FeePolicyDesk :=
  let row := w.scheduledRow change opening hasHolders
  if w.changes.any fun r =>
      r.id = row.id || (r.service = row.service && (r.pending || r.version = row.version)) then
    .error alreadyPending
  else
    let inserted := { w with changes := w.changes ++ [row] }
    match opening with
    | none => .ok (inserted.enqueueNotices row none current hasHolders)
    | some o =>
      if (w.subjects o.consilium).isSome then .error duplicateConsilium
      else .ok { inserted with subjects := Function.update w.subjects o.consilium (some o.subject) }

/-- The first half of `schedule_approved`: the product and the change locked, the change checked
against what the owners signed, the holders counted. Nothing is left to do where the consilium has
scheduled it already. -/
def beginCarry (w : FeePolicyDesk) (subject : FeePolicySubject) (consilium : Uuid) (nowUnix : Int) :
    Except DomainError (Option FeeWork) :=
  if ¬ w.products subject.service then .error (unknownProduct subject.service)
  else
    match w.find subject.changeId with
    | none => .error (unknownChange subject.changeId)
    | some row =>
      match row.decided.scheduleApproved subject consilium with
      | .error e => .error e
      | .ok false => .ok none
      | .ok true =>
        .ok (some (.carrying row subject nowUnix (w.currentTerms row.service)
          (0 < (w.holders row.service).length)))

/-- The change as its owners' approval schedules it. -/
def carriedRow (row : FeePolicyChangeRow) (subject : FeePolicySubject) (nowUnix : Int)
    (hasHolders : Bool) : FeePolicyChangeRow :=
  { row with
    state := .scheduled
    scheduledAt := some nowUnix
    effectiveFrom :=
      earliestEffectiveFrom nowUnix subject.requestedEffectiveFrom.toInt hasHolders }

/-- The second half: the change scheduled, its notices queued. -/
def endCarry (w : FeePolicyDesk) (row : FeePolicyChangeRow) (subject : FeePolicySubject)
    (nowUnix : Int) (current : Option FeePolicy) (hasHolders : Bool) : FeePolicyDesk :=
  let scheduled : FeePolicyDesk :=
    { w with
      changes := updateWhere (fun r => r.id = row.id)
        (fun r => carriedRow r subject nowUnix hasHolders) w.changes }
  scheduled.enqueueNotices (carriedRow row subject nowUnix hasHolders) row.consiliumId current
    hasHolders

/-! ## Withdrawing -/

/-- A change whose owners decided otherwise; nothing on one that is not waiting for them. -/
def rejectOn (w : FeePolicyDesk) (change consilium : Uuid) : FeePolicyDesk :=
  { w with
    changes := updateWhere
      (fun r => r.id = change ∧ r.consiliumId = some consilium ∧ r.state = .awaitingConsilium)
      (fun r => { r with state := .rejected }) w.changes }

/-- The mails of a change that were not delivered, withdrawn. -/
def withdrawUndelivered (w : FeePolicyDesk) (change : Uuid) : FeePolicyDesk :=
  { w with
    mails := updateWhere (fun m => m.change = change ∧ m.sent = false ∧ m.withdrawn = false)
      (fun m => { m with withdrawn := true }) w.mails }

/-- The consilium a change waits for, taken down if it is still open, and whether it was. -/
def withdrawConsilium (w : FeePolicyDesk) (probe : FeePolicyChangeRow) (isOpen : Bool) :
    Bool × FeePolicyDesk :=
  match probe.consiliumId, probe.state with
  | some consilium, .awaitingConsilium =>
    if isOpen then (true, w.rejectOn probe.id consilium) else (false, w)
  | _, _ => (false, w)

/-- **An administrator's withdrawal**, of the change's consilium too where that `isOpen`. -/
def cancel (w : FeePolicyDesk) (service : ServiceId) (id : Uuid) (isOpen : Bool) :
    Except DomainError FeePolicyDesk :=
  match w.find id with
  | none => .error (unknownChange id)
  | some probe =>
    let (withdrawn, opened) := w.withdrawConsilium probe isOpen
    match opened.find id with
    | none => .error (unknownChange id)
    | some change =>
      if change.service ≠ service then .error (unknownChange id)
      else
        let close : FeePolicyDesk :=
          { opened with
            changes := updateWhere (fun r => r.id = id) (fun r => { r with state := .cancelled })
              opened.changes }
        match change.state with
        | .cancelled => .ok w
        | .rejected => if withdrawn then .ok (close.withdrawUndelivered id) else .ok w
        | .scheduled | .awaitingConsilium => .ok (close.withdrawUndelivered id)
        | .active | .superseded =>
          .error (.conflict ("the fee-policy change is " ++ change.state.asStr ++
            " and can no longer be cancelled"))

/-! ## The acknowledgement -/

/-- A waiver of what holds no change back. -/
def nothingOwed : DomainError :=
  .conflict ("the terms only get cheaper for the holders — a loosening binds over an undelivered " ++
    "notice by itself and needs no acknowledgement")

/-- **Responsibility taken** for the holders of a scheduled tightening whose notice was given up on:
they are added to those a waiver names already. -/
def acknowledge (w : FeePolicyDesk) (service : ServiceId) (id : Uuid) (givenBy : String)
    (nowUnix : Int) : Except DomainError FeePolicyDesk :=
  if ¬ w.products service then .error (unknownProduct service)
  else
    match w.find id with
    | none => .error (unknownChange id)
    | some change =>
      if change.service ≠ service then .error (unknownChange id)
      else if change.state ≠ .scheduled then
        if change.noticesWaiver.isSome then .ok w
        else .error (.conflict ("the fee-policy change is " ++ change.state.asStr ++
          "; only a scheduled change has holder notices to acknowledge"))
      else if ¬ change.policy.tightensFrom ((w.currentTerms service).getD .NONE) then
        .error nothingOwed
      else
        let undelivered := w.undeliveredNotices change.id service
        let added :=
          (undelivered.filter fun m => givenUp m && !change.covered.contains m.user).map (·.user)
        if added.isEmpty then
          if change.noticesWaiver.isSome then .ok w
          else if undelivered.isEmpty then
            .error (.conflict ("every holder notice for this change has been delivered — there " ++
              "is nothing to acknowledge"))
          else .error (.conflict (toString undelivered.length ++ " holder notice(s) for this " ++
            "change are still being delivered and none has been given up on yet — there is " ++
            "nothing to acknowledge until the mailer gives up"))
        else
          let waiver : NoticeWaiver :=
            { givenBy, givenAt := nowUnix, users := change.covered ++ added }
          .ok
            { w with
              changes := updateWhere (fun r => r.id = id)
                (fun r => { r with noticesWaiver := some waiver }) w.changes }

/-! ## Promoting -/

/-- **Whether a change may bind** over the notices that reached nobody: cheaper terms do, dearer
ones only over holders a waiver names. -/
def noticeGate (w : FeePolicyDesk) (row : FeePolicyChangeRow) : Except DomainError Unit :=
  let undelivered := w.undeliveredNotices row.id row.service
  let total := toString undelivered.length ++ " holder notice(s) for this change are undelivered, "
  if undelivered.isEmpty then .ok ()
  else if row.policy.tightensFrom ((w.currentTerms row.service).getD .NONE) then
    match row.noticesWaiver with
    | none => .error (.conflict (total ++ toString (undelivered.filter givenUp).length ++
        " of them given up on — dearer terms bind once every holder has been told"))
    | some waiver =>
      let unacknowledged := (undelivered.filter fun m => !waiver.users.contains m.user).length
      if 0 < unacknowledged then
        .error (.conflict (total ++ toString unacknowledged ++ " of them to holders the " ++
          "acknowledgement by " ++ waiver.givenBy ++ " does not cover — dearer terms bind once " ++
          "every holder has been told or acknowledged"))
      else .ok ()
  else .ok ()

/-- The first half of `promote`: the product and the change locked, the notices counted. Nothing is
left to do for a change that is not due. -/
def beginPromote (w : FeePolicyDesk) (id : Uuid) (nowUnix : Int) :
    Except DomainError (Option FeeWork) :=
  match w.find id with
  | none => .ok none
  | some row =>
    if ¬ w.products row.service then .error (unknownProduct row.service)
    else if row.state ≠ .scheduled ∨ nowUnix < row.effectiveFrom then .ok none
    else
      match w.noticeGate row with
      | .error e => .error e
      | .ok () => .ok (some (.promoting row nowUnix (w.holders row.service)))

/-- The second half, the holders' accruals carried: the terms put in force, the active change
superseded, this one active. -/
def endPromote (w : FeePolicyDesk) (row : FeePolicyChangeRow) (nowUnix : Int)
    (holders : List UserId) : FeePolicyDesk :=
  let superseded := updateWhere (fun r => r.service = row.service ∧ r.state = .active)
    (fun r => { r with state := .superseded }) w.changes
  { w with
    policies := Function.update w.policies row.service (some row.live)
    changes := updateWhere (fun r => r.id = row.id)
      (fun r => { r with state := .active, appliedAt := some nowUnix }) superseded
    bound := w.bound ++
      [{ row, current := w.currentTerms row.service, holders, stamp := nowUnix }] }

/-! ## Steps -/

/-- A transaction that has begun under a product's lock, stamped no later than now. A scheduling is
of an id just minted, a carry of a consilium and the subject it was opened over. -/
inductive Begins (w : FeePolicyDesk) : ServiceId → FeeWork → Prop
  | schedule {change : NewFeePolicyChange} {opening : Option ConsiliumOpening} {work : FeeWork}
      (hstamp : change.nowUnix ≤ w.now) (hid : change.id.Minted)
      (hopened : change.OpenedWith opening)
      (h : w.beginSchedule change opening = .ok work) : Begins w change.service work
  | carry {subject : FeePolicySubject} {consilium : Uuid} {nowUnix : Int} {work : FeeWork}
      (hstamp : nowUnix ≤ w.now) (hsubject : w.subjects consilium = some subject)
      (h : w.beginCarry subject consilium nowUnix = .ok (some work)) :
      Begins w subject.service work
  | promote {id : Uuid} {nowUnix : Int} {row : FeePolicyChangeRow} {work : FeeWork}
      (hstamp : nowUnix ≤ w.now) (hrow : w.find id = some row)
      (h : w.beginPromote id nowUnix = .ok (some work)) : Begins w row.service work

/-- What a transaction's second half makes of the tables. -/
def ends (w : FeePolicyDesk) : FeeWork → Except DomainError FeePolicyDesk
  | .scheduling change opening current hasHolders =>
    w.endSchedule change opening current hasHolders
  | .carrying row subject nowUnix current hasHolders =>
    .ok (w.endCarry row subject nowUnix current hasHolders)
  | .promoting row nowUnix holders => .ok (w.endPromote row nowUnix holders)

/-- A row no transaction under way has locked. -/
def RowFree (w : FeePolicyDesk) (id : Uuid) : Prop :=
  ∀ service work, w.work service = some work → work.lockedRow ≠ some id

/-- A product's lock taken, or given back. -/
def withWork (w : FeePolicyDesk) (service : ServiceId) (work : Option FeeWork) : FeePolicyDesk :=
  { w with work := Function.update w.work service work }

/-- **A step**: time passes, the world moves, a transaction begins, commits or is lost, a change is
refused, withdrawn or acknowledged, a notice is tried. -/
inductive Step : FeePolicyDesk → FeePolicyDesk → Prop
  | tick (w : FeePolicyDesk) (time : Int) (h : w.now ≤ time) : Step w { w with now := time }
  | register (w : FeePolicyDesk) (products : ServiceId → Bool) (users : UserId → Bool)
      (hproducts : ∀ s, w.products s → products s) (husers : ∀ u, w.users u → users u) :
      Step w { w with products, users }
  | project (w : FeePolicyDesk) (positions : List HeldUnits)
      (husers : ∀ p ∈ positions, p.user.Minted) : Step w { w with positions }
  | begins {w : FeePolicyDesk} {service : ServiceId} {work : FeeWork}
      (hfree : w.work service = none) (h : w.Begins service work) :
      Step w (w.withWork service (some work))
  | commits {w w' : FeePolicyDesk} {service : ServiceId} {work : FeeWork}
      (hwork : w.work service = some work) (h : w.ends work = .ok w') :
      Step w (w'.withWork service none)
  | lost (w : FeePolicyDesk) (service : ServiceId) : Step w (w.withWork service none)
  | rejects {w : FeePolicyDesk} {id : Uuid} (consilium : Uuid) (hfree : w.RowFree id) :
      Step w (w.rejectOn id consilium)
  | cancels {w w' : FeePolicyDesk} {service : ServiceId} {id : Uuid} {isOpen : Bool}
      (hfree : w.RowFree id) (h : w.cancel service id isOpen = .ok w') : Step w w'
  | acknowledges {w w' : FeePolicyDesk} {service : ServiceId} {id : Uuid} {givenBy : String}
      {nowUnix : Int} (hfree : w.work service = none)
      (h : w.acknowledge service id givenBy nowUnix = .ok w') : Step w w'
  | delivers (w : FeePolicyDesk) (key : String) (mirrored : Bool) (answer : MailAnswer) :
      Step w
        { w with
          mails := updateWhere (fun m => m.dedupeKey = key)
            (fun m => m.deliver mirrored answer w.now) w.mails }

/-- A run. -/
abbrev Run : FeePolicyDesk → FeePolicyDesk → Prop := Relation.ReflTransGen Step

/-- **As the history begins**: nothing under way or queued, and every product's terms in force are
its one change, active. -/
structure Began (w : FeePolicyDesk) : Prop where
  keyed : KeyedRows.Keyed FeePolicyChangeRow.id w.changes
  active : ∀ r ∈ w.changes, r.state = .active
  waived : ∀ r ∈ w.changes, r.noticesWaiver = none
  one : KeyedRows.Sole (fun _ => True) FeePolicyChangeRow.service w.changes
  live : ∀ r ∈ w.changes, w.policies r.service = some r.live
  held : ∀ s, w.policies s ≠ none → ∃ r ∈ w.changes, r.service = s
  users : ∀ p ∈ w.positions, p.user.Minted
  mails : w.mails = []
  idle : ∀ s, w.work s = none
  given : w.given = []
  bound : w.bound = []

end FeePolicyDesk

end Banking
