import Banking.PaymentConsent
import Banking.VoteGate

/-! # The consent gate

What a payment's seat can do, over every sequence of submissions, session answers, link opens,
revocations and the order's other changes. A seat that has not answered pays for every wrong code
and burns at the fifth, and the payment with it; one that has answered compares codes and changes
nothing. An order is approved from pending only, by the answer its own seat calls for. -/

namespace Banking

/-! ## Steps and what they show -/

/-- One change of a stored payment. -/
inductive ConsentStep
  | submit (sub : ConsentSubmission)
  | answerSession (subject : UserId) (decision : ConsentDecision) (audit : ConsentAudit)
      (time : Int)
  | invitation (tokenHash : List UInt8) (time : Int)
  | cancel (caller : UserId) (time : Int)
  | expire (time : Int)
  | approval (consilium : Uuid) (time : Int)
  | rejection (time : Int)
  | conciergeApproval (approvalId : String) (executeBy time : Int)
  | executed (effect : PaymentEffect)
  | failed (reason : String)
  /-- The users table moves: a revocation, a new mailbox. -/
  | standing (now : SubjectStanding)

/-- What a run of changes shows. -/
inductive ConsentFact
  /-- A code was compared, for a seat that had or had not answered. -/
  | compared (undecided correct : Bool)
  /-- The seat's answer changed. -/
  | recorded (before after : StoredPayment)
  /-- The order became approved. -/
  | approved (before : StoredPayment) (step : ConsentStep)

section Runs

variable (digest : String → List UInt8)

/-- Carry a change out. -/
def ConsentStep.run : ConsentStep → StoredPayment → StoredPayment
  | .submit sub, s => (s.submit digest sub).stored
  | .answerSession subject decision audit time, s =>
    (s.answerSession digest subject decision audit time).2
  | .invitation .., s => s
  | .cancel caller time, s => s.committed (s.cancel caller time)
  | .expire time, s => s.committed (s.expireOne time)
  | .approval consilium time, s => s.committed (s.recordApproval consilium time)
  | .rejection time, s => s.committed (s.recordRejection time)
  | .conciergeApproval approvalId executeBy time, s =>
    s.committed (s.recordConciergeApproval approvalId executeBy time)
  | .executed effect, s => s.committed (s.change (·.markExecuted effect))
  | .failed reason, s => s.committed (s.change (·.markExecutionFailed reason))
  | .standing now, s => { s with standing := now }

/-- The comparison a change came to. -/
def ConsentStep.comparison : ConsentStep → StoredPayment → List ConsentFact
  | .submit sub, s =>
    ((s.submit digest sub).compared.map
      (.compared (decide (s.seat.decision = .pending)))).toList
  | _, _ => []

/-- Whether a change changed the seat's answer. -/
def answeredIn (s s' : StoredPayment) : List ConsentFact :=
  if s'.seat.decision = s.seat.decision then [] else [.recorded s s']

/-- Whether a change approved the order. -/
def approvedIn (step : ConsentStep) (s s' : StoredPayment) : List ConsentFact :=
  if s.order.state ≠ .approved ∧ s'.order.state = .approved then [.approved s step] else []

/-- What a change shows. -/
def ConsentStep.facts (step : ConsentStep) (s : StoredPayment) : List ConsentFact :=
  step.comparison digest s ++ answeredIn s (step.run digest s) ++
    approvedIn step s (step.run digest s)

/-- The payments reached from an opening, and what the changes showed. -/
inductive ConsentRun : StoredPayment → List ConsentFact → Prop
  | opened {id : Uuid} {terms : PaymentTerms} {createdAt ttl : Int} {payloadHash : List UInt8}
      {initiator : UserId} {seat : ApprovalSeat} {standing : SubjectStanding}
      (hseat : seat.Fresh (PaymentOrder.openFor id terms createdAt ttl)) :
      ConsentRun (.opened id terms createdAt ttl payloadHash initiator seat standing) []
  | step {s : StoredPayment} {log : List ConsentFact} (h : ConsentRun s log)
      (step : ConsentStep) : ConsentRun (step.run digest s) (log ++ step.facts digest s)

end Runs

/-- The comparisons a run shows, oldest first. -/
def consentComparisons (log : List ConsentFact) : List Bool :=
  log.filterMap fun
    | .compared _ correct => some correct
    | .recorded .. | .approved .. => none

/-- The wrong codes compared for a seat that had not answered. -/
def wrongCodes (log : List ConsentFact) : Nat :=
  log.countP fun
    | .compared undecided correct => undecided && !correct
    | .recorded .. | .approved .. => false

/-- When a seat answered. -/
def ApprovalSeat.decidedAt : ApprovalSeat → Option Int
  | .consent seat => seat.decidedAt
  | .session seat => seat.decidedAt
  | .consilium _ | .concierge .. => none

/-- Whether a seat's token is burned. -/
def ApprovalSeat.burned : ApprovalSeat → Bool
  | .consent seat => seat.burned
  | .session _ | .consilium _ | .concierge .. => false

/-- The step that may approve an order from `s`: the one its seat calls for. -/
def StoredPayment.ApprovedBy (digest : String → List UInt8) (s : StoredPayment)
    (step : ConsentStep) : Prop :=
  match s.seat with
  | .consent seat => ∃ sub, step = .submit sub ∧ sub.tokenHash = seat.tokenHash ∧
      digest sub.code = seat.codeHash ∧ sub.decision = .approve ∧ seat.decision = .pending ∧
      seat.burned = false ∧ seat.attempts < ConsentSeat.MAX_CODE_ATTEMPTS ∧
      sub.time < s.order.expiresAt ∧ seat.pins.moved digest s.standing = none
  | .session seat => ∃ audit time, step = .answerSession seat.subject .approve audit time ∧
      seat.decision = .pending ∧ time < s.order.expiresAt ∧
      seat.pins.moved digest s.standing = none
  | .consilium id => ∃ time, step = .approval id time
  | .concierge known _ => ∃ approvalId executeBy time,
      step = .conciergeApproval approvalId executeBy time ∧ time < s.order.expiresAt ∧
      (known = none ∨ known = some approvalId)

/-! ## The order's commands -/

theorem PaymentCommand.run_expiresAt (c : PaymentCommand) (o : PaymentOrder) :
    (c.run o).2.expiresAt = o.expiresAt := by
  cases c with
  | approve time =>
    simp only [PaymentCommand.run, PaymentOrder.approve, PaymentOrder.requirePending]
    split_ifs <;> rfl
  | reject time | cancel time =>
    simp only [PaymentCommand.run, PaymentOrder.reject, PaymentOrder.cancel, PaymentOrder.verdict,
      PaymentOrder.enterVerdict, PaymentOrder.requirePending]
    by_cases hp : o.state = .pending <;> split_ifs <;> simp_all [PaymentOrder.raise]
  | expire time =>
    simp only [PaymentCommand.run, PaymentOrder.expire, PaymentOrder.verdict,
      PaymentOrder.enterVerdict, PaymentOrder.requirePending]
    split_ifs <;> simp_all [PaymentOrder.raise]
  | execute effect =>
    simp only [PaymentCommand.run, PaymentOrder.markExecuted]
    split_ifs <;> first | rfl | (split <;> rfl)
  | fail reason =>
    simp only [PaymentCommand.run, PaymentOrder.markExecutionFailed]
    split_ifs <;> rfl

/-- What no command undoes: the deadline, and a verdict. -/
structure OrderKept (o o' : PaymentOrder) : Prop where
  expiresAt : o'.expiresAt = o.expiresAt
  settled : o.state ≠ .pending → o'.state ≠ .pending
  rejected : o.state = .rejected → o'.state = .rejected

theorem OrderKept.refl (o : PaymentOrder) : OrderKept o o := ⟨rfl, id, id⟩

theorem PaymentCommand.run_kept (c : PaymentCommand) (o : PaymentOrder) :
    OrderKept o (c.run o).2 := by
  obtain ⟨-, events, -, hstep⟩ := c.run_done o
  have hexpires := c.run_expiresAt o
  generalize (c.run o).2 = o' at hstep hexpires
  refine ⟨hexpires, ?_, ?_⟩
  · intro hs
    cases hstep with
    | same => exact hs
    | approve hp _ _ => exact absurd hp hs
    | close hp _ _ => exact absurd hp hs
    | execute _ hs' _ | fail _ hs' _ =>
      rw [hs']
      decide
  · intro hs
    cases hstep with
    | same => exact hs
    | approve hp _ _ | close hp _ _ | execute hp _ _ | fail hp _ _ =>
      rw [hs] at hp
      cases hp

/-- Only an approval approves, and a pending order only. -/
theorem PaymentCommand.run_approved {c : PaymentCommand} {o : PaymentOrder}
    (hs : o.state ≠ .approved) (hs' : (c.run o).2.state = .approved) :
    o.state = .pending ∧ ∃ time, c = .approve time := by
  obtain ⟨-, events, -, hstep⟩ := c.run_done o
  have hp : o.state = .pending := by
    generalize (c.run o).2 = o' at hstep hs'
    cases hstep with
    | same => exact absurd hs' hs
    | approve hp _ _ | close hp _ _ => exact hp
    | execute ha _ _ | fail ha _ _ => exact absurd ha hs
  refine ⟨hp, ?_⟩
  cases c with
  | approve time => exact ⟨time, rfl⟩
  | reject time | cancel time =>
    simp [PaymentCommand.run, PaymentOrder.reject, PaymentOrder.cancel, PaymentOrder.verdict,
      PaymentOrder.enterVerdict, PaymentOrder.requirePending, hp] at hs'
  | expire time =>
    simp only [PaymentCommand.run, PaymentOrder.expire] at hs'
    split_ifs at hs'
    · exact absurd hs' hs
    · simp [PaymentOrder.verdict, PaymentOrder.enterVerdict, PaymentOrder.requirePending, hp]
        at hs'
  | execute effect =>
    simp only [PaymentCommand.run, PaymentOrder.markExecuted, hp] at hs'
    split_ifs at hs' <;> simp_all
  | fail reason =>
    simp [PaymentCommand.run, PaymentOrder.markExecutionFailed, hp] at hs'

theorem PaymentOrder.reject_pending {o : PaymentOrder} (hp : o.state = .pending) (time : Int) :
    o.reject time =
      (.ok (), { o with state := .rejected, decidedAt := some time }.raise .rejected) := by
  simp [PaymentOrder.reject, PaymentOrder.verdict, PaymentOrder.enterVerdict,
    PaymentOrder.requirePending, hp]

theorem PaymentOrder.approve_pending {o : PaymentOrder} (hp : o.state = .pending) (time : Int) :
    ∃ o', o.approve time = (.ok (), o') ∧ o'.state = .approved ∧ o'.expiresAt = o.expiresAt := by
  unfold PaymentOrder.approve PaymentOrder.requirePending
  rw [if_neg (by simp [hp]), if_pos hp]
  dsimp only
  split_ifs
  · exact ⟨_, rfl, rfl, rfl⟩
  · exact ⟨_, rfl, rfl, rfl⟩

/-! ## What a change can do -/

/-- A command carried out leaves the seat alone. -/
theorem StoredPayment.change_kept {s s' : StoredPayment} (c : PaymentCommand)
    (h : s.change c.run = .ok s') : s'.seat = s.seat ∧ s'.standing = s.standing ∧
      OrderKept s.order s'.order ∧ s'.order.state = (c.run s.order).2.state := by
  have hkept := c.run_kept s.order
  unfold StoredPayment.change at h
  generalize c.run s.order = result at h hkept
  obtain ⟨answer, o'⟩ := result
  cases answer with
  | error e => cases h
  | ok _ =>
    cases h
    exact ⟨rfl, rfl, ⟨hkept.expiresAt, hkept.settled, hkept.rejected⟩, rfl⟩

/-- A pending order is rejected, and nothing but it changes. -/
theorem StoredPayment.change_reject {s : StoredPayment} (hp : s.order.state = .pending)
    (time : Int) : ∃ s', s.change (·.reject time) = .ok s' ∧ s'.seat = s.seat ∧
      s'.order.state = .rejected ∧ s'.order.expiresAt = s.order.expiresAt := by
  unfold StoredPayment.change
  dsimp only
  rw [PaymentOrder.reject_pending hp]
  exact ⟨_, rfl, rfl, rfl, rfl⟩

/-- An answer that is one decides a pending order. -/
theorem StoredPayment.decide_pending {s : StoredPayment} (hp : s.order.state = .pending)
    {decision : ConsentDecision} (hd : decision ≠ .pending) (time : Int) :
    ∃ s', s.decide decision time = .ok s' ∧ s'.seat = s.seat ∧ s'.order.state ≠ .pending ∧
      (s'.order.state = .approved → decision = .approve) ∧
      s'.order.expiresAt = s.order.expiresAt := by
  cases decision with
  | pending => exact absurd rfl hd
  | approve =>
    obtain ⟨o', happrove, hstate, hexpires⟩ := PaymentOrder.approve_pending hp time
    refine ⟨s.persist o', ?_, rfl, ?_, fun _ => rfl, hexpires⟩
    · unfold StoredPayment.decide StoredPayment.change
      dsimp only
      rw [happrove]
    · rw [StoredPayment.persist_state, hstate]
      decide
  | reject =>
    obtain ⟨s', hchange, hseat, hstate, hexpires⟩ := StoredPayment.change_reject hp time
    refine ⟨s', hchange, hseat, ?_, ?_, hexpires⟩
    · rw [hstate]
      decide
    · intro ha
      rw [hstate] at ha
      cases ha

/-- The mailed seat after its last wrong code. -/
def ConsentSeat.burnt (seat : ConsentSeat) : ConsentSeat :=
  { seat with attempts := ConsentSeat.MAX_CODE_ATTEMPTS, burned := true }

/-- The mailed seat with one more attempt counted. -/
def ConsentSeat.counted (seat : ConsentSeat) : ConsentSeat :=
  { seat with attempts := min (seat.attempts + 1) ConsentSeat.MAX_CODE_ATTEMPTS }

section Moves

variable (digest : String → List UInt8)

/-- **What one change can do**: the state it leaves, and the comparison it came to. -/
inductive ConsentMove (s : StoredPayment) (step : ConsentStep) : StoredPayment → Option Bool → Prop
  /-- The seat is left alone, or only its link to an approval changes. -/
  | kept {s' : StoredPayment}
      (hseat : s'.seat = s.seat ∨ ∃ a b c d, s.seat = .concierge a b ∧ s'.seat = .concierge c d)
      (horder : OrderKept s.order s'.order)
      (happroved : s.order.state ≠ .approved → s'.order.state = .approved →
        s.order.state = .pending ∧ s.ApprovedBy digest step) : ConsentMove s step s' none
  /-- A code was compared, and nothing was changed. -/
  | answered {seat : ConsentSeat} {correct : Bool} (hseat : s.seat = .consent seat)
      (hfree : seat.decision = .pending → correct = true) : ConsentMove s step s (some correct)
  | missed {seat : ConsentSeat} (hseat : s.seat = .consent seat) (hd : seat.decision = .pending)
      (hlive : seat.burned = false) (hmore : seat.attempts + 1 < ConsentSeat.MAX_CODE_ATTEMPTS) :
      ConsentMove s step
        { s with seat := .consent { seat with attempts := seat.attempts + 1 } } (some false)
  | burnt {seat : ConsentSeat} {s' : StoredPayment} (hseat : s.seat = .consent seat)
      (hd : seat.decision = .pending) (hlive : seat.burned = false)
      (hlast : ConsentSeat.MAX_CODE_ATTEMPTS ≤ seat.attempts + 1)
      (hseat' : s'.seat = .consent seat.burnt) (hstate : s'.order.state = .rejected)
      (hexpires : s'.order.expiresAt = s.order.expiresAt) : ConsentMove s step s' (some false)
  | mailed {seat : ConsentSeat} {sub : ConsentSubmission} {s' : StoredPayment}
      (hseat : s.seat = .consent seat) (hstep : step = .submit sub)
      (htoken : seat.tokenHash = sub.tokenHash) (hlive : seat.burned = false)
      (htime : sub.time < seat.expiresAt) (hpending : s.order.state = .pending)
      (hd : seat.decision = .pending) (hpins : seat.pins.moved digest s.standing = none)
      (hcode : digest sub.code = seat.codeHash) (hanswer : sub.decision ≠ .pending)
      (hseat' : s'.seat = .consent (seat.counted.answer sub s.payloadHash))
      (hstate : s'.order.state ≠ .pending)
      (happroved : s'.order.state = .approved → sub.decision = .approve)
      (hexpires : s'.order.expiresAt = s.order.expiresAt) : ConsentMove s step s' (some true)
  | signed {seat : SessionSeat} {decision : ConsentDecision} {audit : ConsentAudit} {time : Int}
      {s' : StoredPayment} (hseat : s.seat = .session seat)
      (hstep : step = .answerSession seat.subject decision audit time)
      (htime : time < s.order.expiresAt) (hpending : s.order.state = .pending)
      (hd : seat.decision = .pending) (hpins : seat.pins.moved digest s.standing = none)
      (hanswer : decision ≠ .pending)
      (hseat' : s'.seat = .session (seat.answer decision audit time s.payloadHash))
      (hstate : s'.order.state ≠ .pending)
      (happroved : s'.order.state = .approved → decision = .approve)
      (hexpires : s'.order.expiresAt = s.order.expiresAt) : ConsentMove s step s' none

/-- A change that leaves everything. -/
theorem ConsentMove.refused (s : StoredPayment) (step : ConsentStep) :
    ConsentMove digest s step s none :=
  .kept (.inl rfl) (.refl _) fun hs hs' => absurd hs' hs

/-- A change of the order alone, by a command that is no approval. -/
theorem ConsentMove.command {s : StoredPayment} (step : ConsentStep) (c : PaymentCommand)
    (hc : ∀ time, c ≠ .approve time) :
    ConsentMove digest s step (s.committed (s.change c.run)) none := by
  cases hchange : s.change c.run with
  | error e => exact .refused digest s step
  | ok s' =>
    obtain ⟨hseat, -, hkept, hstate⟩ := s.change_kept c hchange
    refine .kept (.inl hseat) hkept fun hs hs' => ?_
    rw [StoredPayment.committed, hstate] at hs'
    obtain ⟨-, time, rfl⟩ := PaymentCommand.run_approved hs hs'
    exact absurd rfl (hc time)

/-- A void consent closes the order. -/
theorem StoredPayment.voidConsent_pending {s : StoredPayment} (hp : s.order.state = .pending)
    (cause : ConsentInvalidation) (time : Int) :
    ∃ closed, s.voidConsent cause time = (.error (.conflict cause.text), closed) ∧
      closed.seat = s.seat ∧ closed.order.state = .rejected ∧
      closed.order.expiresAt = s.order.expiresAt := by
  obtain ⟨closed, hchange, hseat, hstate, hexpires⟩ := StoredPayment.change_reject hp time
  refine ⟨closed, ?_, hseat, hstate, hexpires⟩
  unfold StoredPayment.voidConsent
  rw [hchange]

/-- A closing of a pending order approves nothing. -/
theorem ConsentMove.closed {s closed : StoredPayment} (step : ConsentStep)
    (hp : s.order.state = .pending) (hseat : closed.seat = s.seat)
    (hstate : closed.order.state = .rejected)
    (hexpires : closed.order.expiresAt = s.order.expiresAt) :
    ConsentMove digest s step closed none := by
  refine .kept (.inl hseat) ⟨hexpires, fun hs => absurd hp hs, fun _ => hstate⟩ fun _ ha => ?_
  rw [hstate] at ha
  cases ha

/-- **Every submission is one move.** -/
theorem StoredPayment.submit_move (s : StoredPayment) (sub : ConsentSubmission) :
    ConsentMove digest s (.submit sub) (s.submit digest sub).stored
      (s.submit digest sub).compared := by
  unfold StoredPayment.submit
  cases hseat : s.seat with
  | consilium _ | concierge _ _ | session _ => exact .refused digest s _
  | consent seat =>
    dsimp only
    by_cases htoken : seat.tokenHash ≠ sub.tokenHash
    · rw [if_pos htoken]
      exact .refused digest s _
    rw [if_neg htoken]
    by_cases hdead : seat.burned = true ∨ seat.expiresAt ≤ sub.time
    · rw [if_pos hdead]
      exact .refused digest s _
    rw [if_neg hdead]
    simp only [not_or, Bool.not_eq_true, not_le] at hdead
    by_cases hclosed : s.order.state ≠ .pending ∧ seat.decision = .pending
    · rw [if_pos hclosed]
      exact .refused digest s _
    rw [if_neg hclosed]
    by_cases hd : seat.decision = .pending
    · have hp : s.order.state = .pending := by
        by_contra hp
        exact hclosed ⟨hp, hd⟩
      rw [if_pos hd]
      cases hpins : seat.pins.moved digest s.standing with
      | some cause =>
        obtain ⟨closed, hvoid, hkept, hstate, hexpires⟩ :=
          StoredPayment.voidConsent_pending hp cause sub.time
        dsimp only
        rw [hvoid]
        exact .closed digest _ hp hkept hstate hexpires
      | none =>
        dsimp only
        by_cases hcode : digest sub.code ≠ seat.codeHash
        · rw [if_pos hcode]
          by_cases hlast : ConsentSeat.MAX_CODE_ATTEMPTS ≤
              min (seat.attempts + 1) ConsentSeat.MAX_CODE_ATTEMPTS
          · -- the last wrong code burns the token and rejects the order
            rw [if_pos hlast]
            obtain ⟨closed, hchange, hkept, hstate, hexpires⟩ :=
              StoredPayment.change_reject (s := { s with
                seat := .consent { seat with
                  attempts := min (seat.attempts + 1) ConsentSeat.MAX_CODE_ATTEMPTS
                  burned := true } }) hp sub.time
            rw [hchange]
            refine .burnt hseat hd hdead.1 (le_trans hlast (min_le_left _ _)) ?_ hstate hexpires
            rw [hkept, ConsentSeat.burnt, Nat.min_eq_right (le_trans hlast (min_le_left _ _))]
          · rw [if_neg hlast]
            rw [Nat.le_min] at hlast
            have hmore : seat.attempts + 1 < ConsentSeat.MAX_CODE_ATTEMPTS := by omega
            rw [Nat.min_eq_left hmore.le]
            exact .missed hseat hd hdead.1 hmore
        · rw [if_neg hcode]
          unfold StoredPayment.recordConsent
          by_cases hanswer : sub.decision = .pending
          · rw [if_pos hanswer]
            exact .answered hseat fun _ => rfl
          · rw [if_neg hanswer]
            obtain ⟨decided, hdecide, hkept, hstate, happroved, hexpires⟩ :=
              StoredPayment.decide_pending (s := { s with
                seat := .consent (seat.counted.answer sub s.payloadHash) }) hp hanswer sub.time
            rw [ConsentSeat.counted] at hdecide
            rw [hdecide]
            exact .mailed hseat rfl (not_not.mp htoken) hdead.1 hdead.2 hp hd hpins
              (not_not.mp hcode) hanswer hkept hstate happroved hexpires
    · -- a seat that has answered: nothing is counted and nothing changes
      rw [if_neg hd]
      have hfree : ∀ correct : Bool, seat.decision = .pending → correct = true :=
        fun _ h => absurd h hd
      split_ifs <;> exact .answered hseat (hfree _)

/-- **Every session answer is one move**, and compares nothing. -/
theorem StoredPayment.answerSession_move (s : StoredPayment) (subject : UserId)
    (decision : ConsentDecision) (audit : ConsentAudit) (time : Int) :
    ConsentMove digest s (.answerSession subject decision audit time)
      (s.answerSession digest subject decision audit time).2 none := by
  unfold StoredPayment.answerSession
  by_cases hanswer : decision = .pending
  · rw [if_pos hanswer]
    exact .refused digest s _
  rw [if_neg hanswer]
  cases hseat : s.seat with
  | consilium _ | concierge _ _ | consent _ => exact .refused digest s _
  | session seat =>
    dsimp only
    by_cases hsubject : seat.subject = subject
    · rw [if_neg (not_not.mpr hsubject)]
      by_cases hd : seat.decision = .pending
      · rw [if_neg (not_not.mpr hd)]
        by_cases hclosed : s.order.state ≠ .pending ∨ s.order.expiresAt ≤ time
        · rw [if_pos hclosed]
          exact .refused digest s _
        rw [if_neg hclosed]
        simp only [not_or, not_not, not_le] at hclosed
        cases hpins : seat.pins.moved digest s.standing with
        | some cause =>
          obtain ⟨closed, hvoid, hkept, hstate, hexpires⟩ :=
            StoredPayment.voidConsent_pending hclosed.1 cause time
          dsimp only
          rw [hvoid]
          exact .closed digest _ hclosed.1 hkept hstate hexpires
        | none =>
          obtain ⟨decided, hdecide, hkept, hstate, happroved, hexpires⟩ :=
            StoredPayment.decide_pending (s := { s with
              seat := .session (seat.answer decision audit time s.payloadHash) }) hclosed.1
              hanswer time
          dsimp only
          rw [hdecide]
          subst hsubject
          exact .signed hseat rfl hclosed.2 hclosed.1 hd hpins hanswer hkept hstate happroved
            hexpires
      · rw [if_pos hd]
        split_ifs <;> exact .refused digest s _
    · rw [if_pos hsubject]
      exact .refused digest s _

/-- An approval by a command, where the seat calls for the step it is. -/
theorem ConsentMove.approve {s seated : StoredPayment} {step : ConsentStep} (time : Int)
    (hseat : seated.seat = s.seat ∨
      ∃ a b c d, s.seat = .concierge a b ∧ seated.seat = .concierge c d)
    (horder : seated.order = s.order)
    (hcalled : s.order.state = .pending → s.ApprovedBy digest step) :
    ConsentMove digest s step (s.committed (seated.change (·.approve time))) none := by
  cases hchange : seated.change (PaymentCommand.approve time).run with
  | error e =>
    change ConsentMove digest s step (s.committed (seated.change (PaymentCommand.approve time).run))
      none
    rw [hchange]
    exact .refused digest s step
  | ok s' =>
    obtain ⟨hseat', -, hkept, hstate⟩ := seated.change_kept _ hchange
    change ConsentMove digest s step (s.committed (seated.change (PaymentCommand.approve time).run))
      none
    rw [hchange]
    refine .kept (hseat' ▸ hseat) (horder ▸ hkept) fun hs hs' => ?_
    have hp := (PaymentCommand.run_approved (c := .approve time) (o := s.order) hs (by
      rw [← hs', ← horder]
      exact hstate.symm)).1
    exact ⟨hp, hcalled hp⟩

/-- **Every change is one move.** -/
theorem ConsentStep.run_move (step : ConsentStep) (s : StoredPayment) :
    ∃ compared, ConsentMove digest s step (step.run digest s) compared ∧
      step.comparison digest s =
        (compared.map (.compared (decide (s.seat.decision = .pending)))).toList := by
  cases step with
  | submit sub => exact ⟨_, s.submit_move digest sub, rfl⟩
  | answerSession subject decision audit time =>
    exact ⟨none, s.answerSession_move digest subject decision audit time, rfl⟩
  | invitation tokenHash time => exact ⟨none, .refused digest s _, rfl⟩
  | cancel caller time =>
    refine ⟨none, ?_, rfl⟩
    simp only [ConsentStep.run, StoredPayment.cancel]
    split_ifs
    · exact .refused digest s _
    · exact .command digest _ (.cancel time) (by simp)
  | expire time =>
    refine ⟨none, ?_, rfl⟩
    simp only [ConsentStep.run, StoredPayment.expireOne]
    split_ifs
    · exact .refused digest s _
    · exact .command digest _ (.expire time) (by simp)
  | approval consilium time =>
    refine ⟨none, ?_, rfl⟩
    simp only [ConsentStep.run, StoredPayment.recordApproval]
    cases hseat : s.seat with
    | concierge _ _ | consent _ | session _ => exact .refused digest s _
    | consilium linked =>
      dsimp only
      by_cases hlinked : linked = consilium
      · subst hlinked
        rw [if_neg (not_not.mpr rfl)]
        refine .approve digest time (.inl rfl) rfl fun _ => ?_
        rw [StoredPayment.ApprovedBy, hseat]
        exact ⟨time, rfl⟩
      · rw [if_pos hlinked]
        exact .refused digest s _
  | rejection time =>
    refine ⟨none, ?_, rfl⟩
    simp only [ConsentStep.run, StoredPayment.recordRejection]
    split_ifs
    · exact .command digest _ (.reject time) (by simp)
    · exact .refused digest s _
  | conciergeApproval approvalId executeBy time =>
    refine ⟨none, ?_, rfl⟩
    simp only [ConsentStep.run, StoredPayment.recordConciergeApproval]
    cases hseat : s.seat with
    | consilium _ | consent _ | session _ => exact .refused digest s _
    | concierge known deadline =>
      dsimp only
      by_cases hother : known.any (fun id => decide (id ≠ approvalId)) = true
      · rw [if_pos hother]
        exact .refused digest s _
      rw [if_neg hother]
      by_cases hdone : s.order.state = .approved ∨ s.order.state = .executed
      · -- a replay only fills the seat in
        rw [if_pos hdone]
        refine .kept (.inr ⟨_, _, _, _, hseat, rfl⟩) (.refl _) fun hs hs' => absurd hs' hs
      rw [if_neg hdone]
      by_cases hlate : s.order.expiresAt ≤ time
      · rw [if_pos hlate]
        exact .refused digest s _
      rw [if_neg hlate]
      refine .approve digest time (.inr ⟨_, _, _, _, hseat, rfl⟩) rfl fun _ => ?_
      rw [StoredPayment.ApprovedBy, hseat]
      refine ⟨approvalId, executeBy, time, rfl, not_le.mp hlate, ?_⟩
      cases known with
      | none => exact .inl rfl
      | some id => exact .inr (by simpa using hother)
  | executed effect =>
    exact ⟨none, .command digest _ (.execute effect) (by simp), rfl⟩
  | failed reason =>
    exact ⟨none, .command digest _ (.fail reason) (by simp), rfl⟩
  | standing now =>
    exact ⟨none, .kept (.inl rfl) (.refl _) fun hs hs' => absurd hs' hs, rfl⟩

end Moves

/-! ## What a change shows -/

theorem consentComparisons_append (log facts : List ConsentFact) :
    consentComparisons (log ++ facts) = consentComparisons log ++ consentComparisons facts :=
  List.filterMap_append

theorem wrongCodes_append (log facts : List ConsentFact) :
    wrongCodes (log ++ facts) = wrongCodes log + wrongCodes facts :=
  List.countP_append

section Facts

variable {digest : String → List UInt8} {s : StoredPayment} {step : ConsentStep}
  {compared : Option Bool}

/-- A change shows the comparison it came to, -/
theorem ConsentStep.facts_comparisons (hcompared : step.comparison digest s =
    (compared.map (.compared (decide (s.seat.decision = .pending)))).toList) :
    consentComparisons (step.facts digest s) = compared.toList := by
  rw [ConsentStep.facts, consentComparisons_append, consentComparisons_append, hcompared]
  have hanswered : consentComparisons (answeredIn s (step.run digest s)) = [] := by
    unfold answeredIn
    split_ifs <;> rfl
  have happroved : consentComparisons (approvedIn step s (step.run digest s)) = [] := by
    unfold approvedIn
    split_ifs <;> rfl
  rw [hanswered, happroved]
  cases compared <;> rfl

/-- a wrong code where the seat had not answered, -/
theorem ConsentStep.facts_wrongCodes (hcompared : step.comparison digest s =
    (compared.map (.compared (decide (s.seat.decision = .pending)))).toList) :
    wrongCodes (step.facts digest s) =
      if s.seat.decision = .pending ∧ compared = some false then 1 else 0 := by
  rw [ConsentStep.facts, wrongCodes_append, wrongCodes_append, hcompared]
  have hanswered : wrongCodes (answeredIn s (step.run digest s)) = 0 := by
    unfold answeredIn
    split_ifs <;> rfl
  have happroved : wrongCodes (approvedIn step s (step.run digest s)) = 0 := by
    unfold approvedIn
    split_ifs <;> rfl
  rw [hanswered, happroved]
  rcases compared with _ | _ | _ <;> by_cases hd : s.seat.decision = .pending <;>
    simp [wrongCodes, hd]

/-- the answer it changed, -/
theorem ConsentStep.mem_facts_recorded {before after : StoredPayment}
    (h : .recorded before after ∈ step.facts digest s) : before = s ∧ after = step.run digest s ∧
      (step.run digest s).seat.decision ≠ s.seat.decision := by
  rcases List.mem_append.mp h with h | h
  · rcases List.mem_append.mp h with h | h
    · cases step with
      | submit sub => simp [ConsentStep.comparison] at h
      | _ => cases h
    · unfold answeredIn at h
      split_ifs at h with hd
      · cases h
      · simp only [List.mem_singleton, ConsentFact.recorded.injEq] at h
        exact ⟨h.1, h.2, hd⟩
  · unfold approvedIn at h
    split_ifs at h <;> simp at h

/-- and the order it approved. -/
theorem ConsentStep.mem_facts_approved {before : StoredPayment} {other : ConsentStep}
    (h : .approved before other ∈ step.facts digest s) : before = s ∧ other = step ∧
      s.order.state ≠ .approved ∧ (step.run digest s).order.state = .approved := by
  rcases List.mem_append.mp h with h | h
  · rcases List.mem_append.mp h with h | h
    · cases step with
      | submit sub => simp [ConsentStep.comparison] at h
      | _ => cases h
    · unfold answeredIn at h
      split_ifs at h <;> simp at h
  · unfold approvedIn at h
    split_ifs at h with hstate
    · simp only [List.mem_singleton, ConsentFact.approved.injEq] at h
      exact ⟨h.1, h.2, hstate⟩
    · cases h

end Facts

/-! ## The invariant -/

/-- What holds of a mailed seat after `wrong` wrong codes. -/
structure MailedSafe (seat : ConsentSeat) (order : PaymentOrder) (wrong : Nat) : Prop where
  expires : seat.expiresAt = order.expiresAt
  counted : seat.attempts = wrong + if seat.decision = .pending then 0 else 1
  bounded : seat.attempts ≤ ConsentSeat.MAX_CODE_ATTEMPTS
  burned : seat.burned = true ↔ wrong = ConsentSeat.MAX_CODE_ATTEMPTS
  ended : seat.burned = true → order.state = .rejected

/-- **What holds of a stored payment and of what its run showed.** -/
structure ConsentSafe (digest : String → List UInt8) (s : StoredPayment)
    (log : List ConsentFact) : Prop where
  mailed : ∀ seat, s.seat = .consent seat → MailedSafe seat s.order (wrongCodes log)
  answered : s.seat.decision ≠ .pending → s.order.state ≠ .pending
  unmailed : (∀ seat, s.seat ≠ .consent seat) → consentComparisons log = []
  untried : true ∉ consentComparisons log → ∀ seat, s.seat = .consent seat →
    seat.decision = .pending ∧ wrongCodes log = (consentComparisons log).length
  before : ((consentComparisons log).takeWhile (!·)).length ≤ ConsentSeat.MAX_CODE_ATTEMPTS
  recorded : ∀ before after, .recorded before after ∈ log → before.order.state = .pending ∧
    before.seat.decision = .pending ∧ before.seat.burned = false ∧
      ∃ time, after.seat.decidedAt = some time ∧ time < before.order.expiresAt
  approved : ∀ before step, .approved before step ∈ log →
    before.order.state = .pending ∧ before.ApprovedBy digest step

section Safe

variable {digest : String → List UInt8} {s : StoredPayment} {log : List ConsentFact}

theorem MailedSafe.undecided {seat : ConsentSeat} {order : PaymentOrder} {wrong : Nat}
    (h : MailedSafe seat order wrong) (hd : seat.decision = .pending) : seat.attempts = wrong := by
  have hcounted := h.counted
  rwa [if_pos hd] at hcounted

/-- An answered seat is not burned. -/
theorem MailedSafe.unburned {seat : ConsentSeat} {order : PaymentOrder} {wrong : Nat}
    (h : MailedSafe seat order wrong) (hd : seat.decision ≠ .pending) : seat.burned = false := by
  have hcounted := h.counted
  rw [if_neg hd] at hcounted
  have hbounded := h.bounded
  refine Bool.eq_false_iff.mpr fun hburned => ?_
  have := h.burned.mp hburned
  omega

/-- A live seat that has not answered has attempts left. -/
theorem MailedSafe.more {seat : ConsentSeat} {order : PaymentOrder} {wrong : Nat}
    (h : MailedSafe seat order wrong) (hd : seat.decision = .pending)
    (hlive : seat.burned = false) : wrong < ConsentSeat.MAX_CODE_ATTEMPTS := by
  have hundecided := h.undecided hd
  have hbounded := h.bounded
  have hburned : wrong ≠ ConsentSeat.MAX_CODE_ATTEMPTS := fun he => by
    rw [h.burned.mpr he] at hlive
    cases hlive
  omega

/-- What a change of the order leaves of a mailed seat. -/
theorem MailedSafe.kept {seat : ConsentSeat} {order order' : PaymentOrder} {wrong : Nat}
    (h : MailedSafe seat order wrong) (hkept : OrderKept order order') :
    MailedSafe seat order' wrong :=
  ⟨h.expires.trans hkept.expiresAt.symm, h.counted, h.bounded, h.burned,
    fun hburned => hkept.rejected (h.ended hburned)⟩

theorem ConsentSafe.opened {id : Uuid} {terms : PaymentTerms} {createdAt ttl : Int}
    {payloadHash : List UInt8} {initiator : UserId} {seat : ApprovalSeat}
    {standing : SubjectStanding} (hseat : seat.Fresh (PaymentOrder.openFor id terms createdAt ttl)) :
    ConsentSafe digest (.opened id terms createdAt ttl payloadHash initiator seat standing) [] where
  mailed := by
    rintro seat rfl
    obtain ⟨-, hd, -, hattempts, hburned, hexpires, -⟩ := hseat
    exact ⟨hexpires, by simp [hd, hattempts, wrongCodes], by simp [hattempts],
      by simp [hburned, wrongCodes, ConsentSeat.MAX_CODE_ATTEMPTS], by simp [hburned]⟩
  answered := by
    intro hd
    cases seat with
    | consilium id | concierge _ _ => exact absurd rfl hd
    | consent seat | session seat => exact absurd hseat.2.1 hd
  unmailed _ := rfl
  untried := by
    rintro - seat rfl
    exact ⟨hseat.2.1, rfl⟩
  before := Nat.zero_le _
  recorded _ _ h := by cases h
  approved _ _ h := by cases h

section Move

variable {s' : StoredPayment} {step : ConsentStep} {compared : Option Bool}

/-- A mailed seat stays as its wrong codes say, -/
theorem ConsentSafe.move_mailed (h : ConsentSafe digest s log)
    (hmove : ConsentMove digest s step s' compared) (seat' : ConsentSeat)
    (hseat' : s'.seat = .consent seat') :
    MailedSafe seat' s'.order (wrongCodes log +
      if s.seat.decision = .pending ∧ compared = some false then 1 else 0) := by
  cases hmove with
  | kept hseat horder _ =>
    rcases hseat with hseat | ⟨a, b, c, d, -, hconcierge⟩
    · rw [if_neg (by simp), Nat.add_zero]
      exact (h.mailed seat' (hseat ▸ hseat')).kept horder
    · rw [hconcierge] at hseat'
      cases hseat'
  | @answered seat correct hseat hfree =>
    have hsafe := h.mailed seat' hseat'
    rw [hseat] at hseat'
    cases hseat'
    rw [if_neg fun hboth => ?_, Nat.add_zero]
    · exact hsafe
    · rw [hseat] at hboth
      have hright := hfree hboth.1
      simp [hright] at hboth
  | @missed seat hseat hd hlive hmore =>
    have hsafe := h.mailed seat hseat
    have hundecided := hsafe.undecided hd
    cases hseat'
    rw [if_pos ⟨by rw [hseat]; exact hd, rfl⟩]
    refine ⟨hsafe.expires, by simp [hd, hundecided], hmore.le, ?_, by simp [hlive]⟩
    simp only [hlive, Bool.false_eq_true, false_iff]
    omega
  | @burnt seat _ hseat hd hlive hlast hburnt hstate hexpires =>
    have hsafe := h.mailed seat hseat
    have hmore := hsafe.more hd hlive
    have hundecided := hsafe.undecided hd
    rw [hburnt] at hseat'
    cases hseat'
    rw [if_pos ⟨by rw [hseat]; exact hd, rfl⟩]
    have hwrong : wrongCodes log + 1 = ConsentSeat.MAX_CODE_ATTEMPTS := by omega
    rw [hwrong]
    exact ⟨hsafe.expires.trans hexpires.symm, by simp [ConsentSeat.burnt, hd],
      le_refl _, by simp [ConsentSeat.burnt], fun _ => hstate⟩
  | @mailed seat sub _ hseat _ _ hlive _ _ hd _ _ hanswer hseat'' _ _ hexpires =>
    have hsafe := h.mailed seat hseat
    have hmore := hsafe.more hd hlive
    have hundecided := hsafe.undecided hd
    rw [hseat''] at hseat'
    cases hseat'
    rw [if_neg (by simp), Nat.add_zero]
    have hcounted : min (seat.attempts + 1) ConsentSeat.MAX_CODE_ATTEMPTS =
        wrongCodes log + 1 := by omega
    refine ⟨hsafe.expires.trans hexpires.symm, ?_, min_le_right _ _, hsafe.burned,
      fun hburned => ?_⟩
    · have hd' : (seat.counted.answer sub s.payloadHash).decision ≠ .pending := hanswer
      rw [if_neg hd']
      exact hcounted
    · rw [ConsentSeat.answer, ConsentSeat.counted] at hburned
      simp [hlive] at hburned
  | signed _ _ _ _ _ _ _ hseat'' =>
    rw [hseat''] at hseat'
    cases hseat'

/-- a seat that has answered is one of an order that is closed, -/
theorem ConsentSafe.move_answered (h : ConsentSafe digest s log)
    (hmove : ConsentMove digest s step s' compared) (hd' : s'.seat.decision ≠ .pending) :
    s'.order.state ≠ .pending := by
  cases hmove with
  | kept hseat horder _ =>
    rcases hseat with hseat | ⟨a, b, c, d, -, hconcierge⟩
    · rw [hseat] at hd'
      exact horder.settled (h.answered hd')
    · rw [hconcierge] at hd'
      exact absurd rfl hd'
  | answered _ _ => exact h.answered hd'
  | missed _ hd _ _ => exact absurd hd hd'
  | burnt _ _ _ _ _ hstate _ =>
    rw [hstate]
    decide
  | mailed _ _ _ _ _ _ _ _ _ _ _ hstate _ _ => exact hstate
  | signed _ _ _ _ _ _ _ _ hstate _ _ => exact hstate

/-- codes are compared for a mailed seat only, -/
theorem ConsentSafe.move_unmailed (h : ConsentSafe digest s log)
    (hmove : ConsentMove digest s step s' compared) (hnone : ∀ seat, s'.seat ≠ .consent seat) :
    consentComparisons log ++ compared.toList = [] := by
  cases hmove with
  | kept hseat _ _ =>
    rw [Option.toList_none, List.append_nil]
    refine h.unmailed fun seat hs => ?_
    rcases hseat with hseat | ⟨a, b, c, d, hconcierge, -⟩
    · exact hnone seat (hseat.trans hs)
    · rw [hconcierge] at hs
      cases hs
  | answered hseat _ => exact absurd hseat (hnone _)
  | missed _ _ _ _ => exact absurd rfl (hnone _)
  | burnt _ _ _ _ hseat' _ _ => exact absurd hseat' (hnone _)
  | mailed _ _ _ _ _ _ _ _ _ _ hseat' _ _ _ => exact absurd hseat' (hnone _)
  | signed hseat _ _ _ _ _ _ _ _ _ _ =>
    rw [Option.toList_none, List.append_nil]
    refine h.unmailed fun seat hs => ?_
    rw [hseat] at hs
    cases hs

/-- until one is right it has not answered, and all of them are its wrong ones, -/
theorem ConsentSafe.move_untried (h : ConsentSafe digest s log)
    (hmove : ConsentMove digest s step s' compared)
    (hnone : true ∉ consentComparisons log ++ compared.toList) (seat' : ConsentSeat)
    (hseat' : s'.seat = .consent seat') : seat'.decision = .pending ∧
      wrongCodes log + (if s.seat.decision = .pending ∧ compared = some false then 1 else 0) =
        (consentComparisons log ++ compared.toList).length := by
  rw [List.mem_append, not_or] at hnone
  cases hmove with
  | kept hseat _ _ =>
    rcases hseat with hseat | ⟨a, b, c, d, -, hconcierge⟩
    · obtain ⟨hd, hwrong⟩ := h.untried hnone.1 seat' (hseat ▸ hseat')
      exact ⟨hd, by simpa using hwrong⟩
    · rw [hconcierge] at hseat'
      cases hseat'
  | @answered seat correct hseat hfree =>
    obtain ⟨hd, hwrong⟩ := h.untried hnone.1 seat hseat
    simp [hfree hd] at hnone
  | @missed seat hseat hd _ _ =>
    obtain ⟨-, hwrong⟩ := h.untried hnone.1 seat hseat
    cases hseat'
    exact ⟨hd, by simp [hseat, ApprovalSeat.decision, hd, hwrong]⟩
  | @burnt seat _ hseat hd _ _ hburnt _ _ =>
    obtain ⟨-, hwrong⟩ := h.untried hnone.1 seat hseat
    rw [hburnt] at hseat'
    cases hseat'
    exact ⟨hd, by simp [hseat, ApprovalSeat.decision, hd, hwrong]⟩
  | mailed => simp at hnone
  | signed _ _ _ _ _ _ _ hseat'' =>
    rw [hseat''] at hseat'
    cases hseat'

/-- an answer is recorded in a live seat of a pending order, in time, -/
theorem ConsentSafe.move_recorded (h : ConsentSafe digest s log)
    (hmove : ConsentMove digest s step s' compared)
    (hchanged : s'.seat.decision ≠ s.seat.decision) : s.order.state = .pending ∧
      s.seat.decision = .pending ∧ s.seat.burned = false ∧
        ∃ time, s'.seat.decidedAt = some time ∧ time < s.order.expiresAt := by
  cases hmove with
  | kept hseat _ _ =>
    rcases hseat with hseat | ⟨a, b, c, d, hconcierge, hconcierge'⟩
    · exact absurd (by rw [hseat]) hchanged
    · exact absurd (by rw [hconcierge, hconcierge']; rfl) hchanged
  | answered _ _ => exact absurd rfl hchanged
  | missed hseat _ _ _ => exact absurd (by rw [hseat]; rfl) hchanged
  | burnt hseat _ _ _ hseat' _ _ => exact absurd (by rw [hseat, hseat']; rfl) hchanged
  | @mailed seat sub _ hseat _ _ hlive htime hpending hd _ _ _ hseat' _ _ _ =>
    rw [hseat, hseat']
    exact ⟨hpending, hd, hlive, sub.time, rfl, (h.mailed seat hseat).expires ▸ htime⟩
  | signed hseat _ htime hpending hd _ _ hseat' _ _ _ =>
    rw [hseat, hseat']
    exact ⟨hpending, hd, rfl, _, rfl, htime⟩

/-- and an order is approved from pending, by the step its seat calls for. -/
theorem ConsentSafe.move_approved (h : ConsentSafe digest s log)
    (hmove : ConsentMove digest s step s' compared) (hs : s.order.state ≠ .approved)
    (hs' : s'.order.state = .approved) : s.order.state = .pending ∧ s.ApprovedBy digest step := by
  cases hmove with
  | kept _ _ happroved => exact happroved hs hs'
  | answered _ _ => exact absurd hs' hs
  | missed _ _ _ _ => exact absurd hs' hs
  | burnt _ _ _ _ _ hstate _ =>
    rw [hstate] at hs'
    cases hs'
  | @mailed seat sub _ hseat hstep htoken hlive htime hpending hd hpins hcode _ _ _ happroved _ =>
    have hsafe := h.mailed seat hseat
    refine ⟨hpending, ?_⟩
    rw [StoredPayment.ApprovedBy, hseat]
    exact ⟨sub, hstep, htoken.symm, hcode, happroved hs', hd, hlive,
      hsafe.undecided hd ▸ hsafe.more hd hlive, hsafe.expires ▸ htime, hpins⟩
  | signed hseat hstep htime hpending hd hpins _ _ _ happroved _ =>
    refine ⟨hpending, ?_⟩
    rw [StoredPayment.ApprovedBy, hseat]
    obtain rfl := happroved hs'
    exact ⟨_, _, hstep, hd, htime, hpins⟩

end Move

/-- **A change keeps the invariant.** -/
theorem ConsentSafe.step (h : ConsentSafe digest s log) (step : ConsentStep) :
    ConsentSafe digest (step.run digest s) (log ++ step.facts digest s) := by
  obtain ⟨compared, hmove, hcompared⟩ := step.run_move digest s
  have hcomparisons : consentComparisons (log ++ step.facts digest s) =
      consentComparisons log ++ compared.toList := by
    rw [consentComparisons_append, step.facts_comparisons hcompared]
  have hwrong : wrongCodes (log ++ step.facts digest s) = wrongCodes log +
      if s.seat.decision = .pending ∧ compared = some false then 1 else 0 := by
    rw [wrongCodes_append, step.facts_wrongCodes hcompared]
  refine ⟨?_, h.move_answered hmove, ?_, ?_, ?_, ?_, ?_⟩
  · rw [hwrong]
    exact h.move_mailed hmove
  · rw [hcomparisons]
    exact h.move_unmailed hmove
  · rw [hcomparisons, hwrong]
    exact h.move_untried hmove
  · rw [hcomparisons]
    cases hc : compared with
    | none => simpa using h.before
    | some correct =>
      refine takeWhile_append_le h.before fun hnone hfalse => ?_
      -- every code so far was a wrong one of a seat that has not answered, and so is this one
      subst hc hfalse
      obtain ⟨seat', hseat'⟩ : ∃ seat', (step.run digest s).seat = .consent seat' := by
        by_contra hother
        have := h.move_unmailed hmove fun seat hs => hother ⟨seat, hs⟩
        simp at this
      have hmore : true ∉ consentComparisons log ++ (some false).toList := by simpa using hnone
      obtain ⟨hd, hlength⟩ := h.move_untried hmove hmore seat' hseat'
      have hsafe := h.move_mailed hmove seat' hseat'
      have hbounded := hsafe.bounded
      rw [hsafe.undecided hd, hlength] at hbounded
      simpa using hbounded
  · intro before after hfact
    rcases List.mem_append.mp hfact with hfact | hfact
    · exact h.recorded before after hfact
    · obtain ⟨rfl, rfl, hchanged⟩ := step.mem_facts_recorded hfact
      exact h.move_recorded hmove hchanged
  · intro before other hfact
    rcases List.mem_append.mp hfact with hfact | hfact
    · exact h.approved before other hfact
    · obtain ⟨rfl, rfl, hs, hs'⟩ := step.mem_facts_approved hfact
      exact h.move_approved hmove hs hs'

/-- **Every run keeps the invariant.** -/
theorem ConsentRun.safe (h : ConsentRun digest s log) : ConsentSafe digest s log := by
  induction h with
  | opened hseat => exact .opened hseat
  | step _ step ih => exact ih.step step

end Safe

/-! ## Repeats and void consents -/

section Answers

variable {digest : String → List UInt8} {s : StoredPayment}

/-- **An answered mailed seat changes nothing**; with the right code its own answer is accepted
again, and any other is refused. -/
theorem StoredPayment.submit_answered {seat : ConsentSeat} (hseat : s.seat = .consent seat)
    (hd : seat.decision ≠ .pending) (hlive : seat.burned = false) (sub : ConsentSubmission) :
    (s.submit digest sub).stored = s ∧
      (seat.tokenHash = sub.tokenHash → sub.time < seat.expiresAt →
        digest sub.code = seat.codeHash → (s.submit digest sub).answer =
          if sub.decision = seat.decision then .ok ⟨false, false⟩
          else .error (.conflict "this payment has already been answered")) := by
  unfold StoredPayment.submit
  rw [hseat]
  dsimp only
  by_cases htoken : seat.tokenHash = sub.tokenHash
  · rw [if_neg (not_not.mpr htoken)]
    by_cases hlate : seat.expiresAt ≤ sub.time
    · rw [if_pos (.inr hlate)]
      exact ⟨rfl, fun _ htime => absurd htime (not_lt.mpr hlate)⟩
    · rw [if_neg (by simp [hlive, hlate]), if_neg fun hboth => hd hboth.2, if_neg hd]
      by_cases hcode : digest sub.code = seat.codeHash
      · rw [if_neg (not_not.mpr hcode)]
        by_cases hsame : sub.decision = seat.decision
        · rw [if_neg (not_not.mpr hsame.symm)]
          exact ⟨rfl, fun _ _ _ => (if_pos hsame).symm⟩
        · rw [if_pos (Ne.symm hsame)]
          exact ⟨rfl, fun _ _ _ => (if_neg hsame).symm⟩
      · rw [if_pos hcode]
        exact ⟨rfl, fun _ _ h => absurd h hcode⟩
  · rw [if_pos htoken]
    exact ⟨rfl, fun h => absurd h htoken⟩

/-- **An answered signed-in seat changes nothing**, and answers its subject alike. -/
theorem StoredPayment.answerSession_answered {seat : SessionSeat} (hseat : s.seat = .session seat)
    (hd : seat.decision ≠ .pending) (subject : UserId) (decision : ConsentDecision)
    (audit : ConsentAudit) (time : Int) :
    (s.answerSession digest subject decision audit time).2 = s ∧
      (subject = seat.subject → decision ≠ .pending →
        (s.answerSession digest subject decision audit time).1 =
          if decision = seat.decision then .ok ⟨false, false⟩
          else .error (.conflict "this payment has already been answered")) := by
  unfold StoredPayment.answerSession
  by_cases hanswer : decision = .pending
  · rw [if_pos hanswer]
    exact ⟨rfl, fun _ h => absurd hanswer h⟩
  rw [if_neg hanswer, hseat]
  dsimp only
  by_cases hsubject : seat.subject = subject
  · rw [if_neg (not_not.mpr hsubject), if_pos hd]
    by_cases hsame : decision = seat.decision
    · rw [if_neg (not_not.mpr hsame.symm)]
      exact ⟨rfl, fun _ _ => (if_pos hsame).symm⟩
    · rw [if_pos (Ne.symm hsame)]
      exact ⟨rfl, fun _ _ => (if_neg hsame).symm⟩
  · rw [if_pos hsubject]
    exact ⟨rfl, fun h => absurd h.symm hsubject⟩

/-- **A void mailed consent ends the order rejected**, before any code is looked at. -/
theorem StoredPayment.submit_void {seat : ConsentSeat} {cause : ConsentInvalidation}
    (hseat : s.seat = .consent seat) (hd : seat.decision = .pending) (hlive : seat.burned = false)
    (hp : s.order.state = .pending) (hpins : seat.pins.moved digest s.standing = some cause)
    {sub : ConsentSubmission} (htoken : seat.tokenHash = sub.tokenHash)
    (htime : sub.time < seat.expiresAt) : (s.submit digest sub).compared = none ∧
      (s.submit digest sub).stored.order.state = .rejected ∧
      (s.submit digest sub).stored.seat = s.seat := by
  obtain ⟨closed, hvoid, hkept, hstate, -⟩ :=
    StoredPayment.voidConsent_pending hp cause sub.time
  unfold StoredPayment.submit
  rw [hseat]
  dsimp only
  rw [if_neg (not_not.mpr htoken), if_neg (by simp [hlive, htime]), if_neg fun hboth => hboth.1 hp,
    if_pos hd, hpins]
  dsimp only
  rw [hvoid]
  exact ⟨rfl, hstate, hkept.trans hseat⟩

/-- **A void signed-in consent ends the order rejected.** -/
theorem StoredPayment.answerSession_void {seat : SessionSeat} {cause : ConsentInvalidation}
    (hseat : s.seat = .session seat) (hd : seat.decision = .pending)
    (hp : s.order.state = .pending) (hpins : seat.pins.moved digest s.standing = some cause)
    {decision : ConsentDecision} (hanswer : decision ≠ .pending) (audit : ConsentAudit) {time : Int}
    (htime : time < s.order.expiresAt) :
    (s.answerSession digest seat.subject decision audit time).2.order.state = .rejected ∧
      (s.answerSession digest seat.subject decision audit time).2.seat = s.seat := by
  obtain ⟨closed, hvoid, hkept, hstate, -⟩ := StoredPayment.voidConsent_pending hp cause time
  unfold StoredPayment.answerSession
  rw [if_neg hanswer, hseat]
  dsimp only
  rw [if_neg (not_not.mpr rfl), if_neg (not_not.mpr hd), if_neg (by simp [hp, htime]), hpins]
  dsimp only
  rw [hvoid]
  exact ⟨hstate, hkept.trans hseat⟩

end Answers

/-! ## The gate -/

/-- **What the gate promises**, of a stored payment and what its run showed. -/
structure ConsentGate (digest : String → List UInt8) (s : StoredPayment)
    (log : List ConsentFact) : Prop where
  /-- At most five codes are compared before one is right, -/
  attempts : ((consentComparisons log).takeWhile (!·)).length ≤ ConsentSeat.MAX_CODE_ATTEMPTS
  /-- and every wrong code of a seat that has not answered is on record, with the right one that
  was accepted; -/
  persisted : ∀ seat, s.seat = .consent seat →
    seat.attempts = wrongCodes log + (if seat.decision = .pending then 0 else 1) ∧
      seat.attempts ≤ ConsentSeat.MAX_CODE_ATTEMPTS
  /-- the fifth wrong one burns the token, and the order is rejected. -/
  burned : ∀ seat, s.seat = .consent seat →
    (seat.burned = true ↔ wrongCodes log = ConsentSeat.MAX_CODE_ATTEMPTS) ∧
      (seat.burned = true → s.order.state = .rejected ∧ seat.decision = .pending)
  /-- A mailed consent whose pins have moved ends the order rejected, with no code compared; -/
  voided : ∀ seat cause, s.seat = .consent seat → seat.decision = .pending →
    s.order.state = .pending → seat.pins.moved digest s.standing = some cause → ∀ sub,
      seat.tokenHash = sub.tokenHash → sub.time < s.order.expiresAt →
        (s.submit digest sub).compared = none ∧
          (s.submit digest sub).stored.order.state = .rejected ∧
          (s.submit digest sub).stored.seat = s.seat
  /-- so does a signed-in one. -/
  voidedSession : ∀ seat cause, s.seat = .session seat → seat.decision = .pending →
    s.order.state = .pending → seat.pins.moved digest s.standing = some cause →
      ∀ decision audit time, decision ≠ .pending → time < s.order.expiresAt →
        (s.answerSession digest seat.subject decision audit time).2.order.state = .rejected ∧
          (s.answerSession digest seat.subject decision audit time).2.seat = s.seat
  /-- An answer is recorded once, in a live seat of a pending order, before its deadline. -/
  recorded : ∀ before after, .recorded before after ∈ log → before.order.state = .pending ∧
    before.seat.decision = .pending ∧ before.seat.burned = false ∧
      ∃ time, after.seat.decidedAt = some time ∧ time < before.order.expiresAt
  /-- Once answered, a submission changes nothing: the recorded answer is accepted again, and a
  different one is refused; -/
  repeated : ∀ seat, s.seat = .consent seat → seat.decision ≠ .pending → ∀ sub,
    (s.submit digest sub).stored = s ∧ (seat.tokenHash = sub.tokenHash →
      sub.time < s.order.expiresAt → digest sub.code = seat.codeHash →
        (s.submit digest sub).answer =
          if sub.decision = seat.decision then .ok ⟨false, false⟩
          else .error (.conflict "this payment has already been answered"))
  /-- so does an answer given signed in. -/
  repeatedSession : ∀ seat, s.seat = .session seat → seat.decision ≠ .pending →
    ∀ subject decision audit time,
      (s.answerSession digest subject decision audit time).2 = s ∧
        (subject = seat.subject → decision ≠ .pending →
          (s.answerSession digest subject decision audit time).1 =
            if decision = seat.decision then .ok ⟨false, false⟩
            else .error (.conflict "this payment has already been answered"))
  /-- An order is approved from pending, by the step its seat calls for. -/
  approved : ∀ before step, .approved before step ∈ log →
    before.order.state = .pending ∧ before.ApprovedBy digest step

/-- **The consent gate**, over every run. -/
theorem consent_gate {digest : String → List UInt8} {s : StoredPayment} {log : List ConsentFact}
    (h : ConsentRun digest s log) : ConsentGate digest s log := by
  have hsafe := h.safe
  -- a seat of a pending order is not burned
  have hlive : ∀ seat, s.seat = .consent seat → s.order.state = .pending →
      seat.burned = false := by
    intro seat hseat hp
    refine Bool.eq_false_iff.mpr fun hburned => ?_
    have hended := (hsafe.mailed seat hseat).ended hburned
    rw [hp] at hended
    cases hended
  refine ⟨hsafe.before, ?_, ?_, ?_, ?_, hsafe.recorded, ?_, ?_, hsafe.approved⟩
  · intro seat hseat
    exact ⟨(hsafe.mailed seat hseat).counted, (hsafe.mailed seat hseat).bounded⟩
  · intro seat hseat
    have hmailed := hsafe.mailed seat hseat
    refine ⟨hmailed.burned, fun hburned => ⟨hmailed.ended hburned, ?_⟩⟩
    by_contra hd
    rw [hmailed.unburned hd] at hburned
    cases hburned
  · intro seat cause hseat hd hp hpins sub htoken htime
    exact s.submit_void hseat hd (hlive seat hseat hp) hp hpins htoken
      ((hsafe.mailed seat hseat).expires ▸ htime)
  · intro seat cause hseat hd hp hpins decision audit time hanswer htime
    exact s.answerSession_void hseat hd hp hpins hanswer audit htime
  · intro seat hseat hd sub
    have hmailed := hsafe.mailed seat hseat
    obtain ⟨hstored, hanswer⟩ := s.submit_answered hseat hd (hmailed.unburned hd) sub
    exact ⟨hstored, fun htoken htime => hanswer htoken (hmailed.expires ▸ htime)⟩
  · intro seat hseat hd subject decision audit time
    exact s.answerSession_answered hseat hd subject decision audit time

/-! ## An answered seat still compares, and a session compares nothing -/

/-- The investor. -/
def sampleStanding : SubjectStanding := ⟨0, 0, "a@b"⟩

/-- The investor as the seat pins them. -/
def samplePins : ConsentPins := ⟨0, sampleDigest "a@b"⟩

/-- The seat as it is mailed, with the code `AAAA`. -/
def sampleMailed : ConsentSeat :=
  ⟨.raw 1, .pending, none, [7], sampleDigest "AAAA", 0, false, 160, none, samplePins, none, none⟩

/-- The seat as it is answered signed in. -/
def sampleSigned : SessionSeat := ⟨.raw 1, .pending, none, samplePins, none, none⟩

/-- The sample as it is opened over a seat. -/
def sampleConsent (seat : ApprovalSeat) : StoredPayment :=
  .opened (.raw 9) samplePayment 100 60 [] (.raw 4) seat sampleStanding

theorem sampleMailed_opened : ConsentRun sampleDigest (sampleConsent (.consent sampleMailed)) [] := by
  refine ConsentRun.opened ?_
  exact ⟨rfl, rfl, rfl, rfl, rfl, rfl, rfl, rfl, rfl⟩

theorem sampleSession_opened :
    ConsentRun sampleDigest (sampleConsent (.session sampleSigned)) [] := by
  refine ConsentRun.opened ?_
  exact ⟨rfl, rfl, rfl, rfl, rfl⟩

/-- An approval with the mailed token and `code`. -/
def sampleAnswer (code : String) : ConsentStep := .submit ⟨[7], code, .approve, ⟨"", ""⟩, 101⟩

/-- Carry out the steps of a list, from a state and what was shown before it. -/
def consentRun (digest : String → List UInt8) :
    StoredPayment → List ConsentFact → List ConsentStep → StoredPayment × List ConsentFact
  | s, log, [] => (s, log)
  | s, log, step :: steps => consentRun digest (step.run digest s) (log ++ step.facts digest s) steps

theorem consentRun_run {digest : String → List UInt8} {s : StoredPayment} {log : List ConsentFact}
    (h : ConsentRun digest s log) (steps : List ConsentStep) :
    ConsentRun digest (consentRun digest s log steps).1 (consentRun digest s log steps).2 := by
  induction steps generalizing s log with
  | nil => exact h
  | cons step steps ih => exact ih (h.step step)

/-- The right code, and five wrong ones after it. -/
def sampleGuesses : StoredPayment × List ConsentFact :=
  consentRun sampleDigest (sampleConsent (.consent sampleMailed)) []
    (sampleAnswer "AAAA" :: List.replicate 5 (sampleAnswer "BBBB"))

theorem sampleGuesses_run : ConsentRun sampleDigest sampleGuesses.1 sampleGuesses.2 :=
  consentRun_run sampleMailed_opened _

theorem consent_gate_guesses : ConsentGate sampleDigest sampleGuesses.1 sampleGuesses.2 :=
  consent_gate sampleGuesses_run

/-- The approval given signed in. -/
def sampleSession : StoredPayment × List ConsentFact :=
  consentRun sampleDigest (sampleConsent (.session sampleSigned)) []
    [.answerSession (.raw 1) .approve ⟨"", ""⟩ 101]

/-- Six codes are compared for one payment and its seat counts one of them; and a payment is
approved with no code compared at all. -/
theorem codes_compared_past_answer :
    (∃ (digest : String → List UInt8) (s : StoredPayment) (log : List ConsentFact)
      (seat : ConsentSeat), ConsentRun digest s log ∧ s.seat = .consent seat ∧
        ConsentSeat.MAX_CODE_ATTEMPTS < (consentComparisons log).length ∧
        seat.attempts < (consentComparisons log).count false) ∧
      ∃ (digest : String → List UInt8) (s : StoredPayment) (log : List ConsentFact),
        ConsentRun digest s log ∧ s.order.state = .approved ∧ consentComparisons log = [] := by
  refine ⟨⟨sampleDigest, sampleGuesses.1, sampleGuesses.2, _, sampleGuesses_run, rfl, ?_, ?_⟩,
    sampleDigest, sampleSession.1, sampleSession.2,
    consentRun_run sampleSession_opened _, ?_, ?_⟩
  · decide +kernel
  · decide +kernel
  · decide +kernel
  · decide +kernel

end Banking
