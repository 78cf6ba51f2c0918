import Banking.Events

/-! # Holds

A client's hold on a user's compartment: the aggregate that decides which captures and releases are
accepted, and the events it raises for the relay. The events carry two version counters, their own
and the version whose reservation they void; the ledger ids of the chain are derived from them. -/

namespace Banking

/-! ## The aggregate -/

/-- Where a hold stands. -/
inductive HoldState
  | active
  | captured
  | voided
  | expired
deriving DecidableEq, Repr

/-- What a hold was placed for. `expiresAt` is Unix seconds; none holds until captured or voided. -/
structure HoldTerms where
  scope : ScopeId
  user : UserId
  amount : Nat
  expiresAt : Option Int
deriving DecidableEq, Repr

/-- How far a hold has come. `version` is the version of its last event; `pendingVersion` is the one
whose event created the reservation standing now. -/
structure HoldProgress where
  captured : Nat
  state : HoldState
  version : Nat
  pendingVersion : Nat
deriving DecidableEq, Repr

/-- A hold. -/
structure Hold where
  id : Uuid
  terms : HoldTerms
  progress : HoldProgress
deriving DecidableEq, Repr

/-- Why a capture did not happen: a refusal the wire names, or a request that cannot be one. -/
inductive HoldError
  | holdNotActive
  | insufficientFunds
  | invalid (message : String)
deriving DecidableEq, Repr

/-- Rebuild from storage. -/
def Hold.restore (id : Uuid) (terms : HoldTerms) (progress : HoldProgress) : Except String Hold :=
  if terms.amount = 0 then .error "amount must be positive"
  else if terms.scope.isMain then .error "a hold is never placed in main"
  else if terms.amount < progress.captured then
    .error ("hold " ++ id.text ++ " captured more than it held")
  else .ok { id, terms, progress }

/-- A new hold, with the event of its reservation. -/
def Hold.place (id : Uuid) (terms : HoldTerms) : Except String (Hold × HoldEvent) := do
  let hold ← Hold.restore id terms
    { captured := 0, state := .active, version := 1, pendingVersion := 1 }
  pure (hold, .placed id terms.scope terms.user terms.amount 1)

/-- What the hold still holds: nothing once it is no longer active. -/
def Hold.remaining (h : Hold) : Nat :=
  match h.progress.state with
  | .active => h.terms.amount - h.progress.captured
  | .captured | .voided | .expired => 0

/-- Active, but past its expiry. -/
def Hold.isDue (h : Hold) (now : Int) : Bool :=
  h.progress.state = .active ∧ h.terms.expiresAt.any (· ≤ now)

/-- Move `amount` (everything left when none) to `target`. Refused unless the hold is active and not
yet due, and for more than it holds; a capture into the held user's own compartment is none. -/
def Hold.capture (h : Hold) (amount : Option Nat) (target : HoldDestination) (now : Int) :
    Except HoldError (Hold × HoldEvent) :=
  if target = .user h.terms.user then
    .error (.invalid "a capture into the held user's own compartment is a void")
  else if h.progress.state ≠ .active ∨ h.isDue now then .error .holdNotActive
  else
    let held := h.remaining
    let amount := amount.getD held
    if amount = 0 then .error (.invalid "amount must be positive")
    else if held < amount then .error .insufficientFunds
    else
      let version := h.progress.version + 1
      let released := h.progress.pendingVersion
      let progress : HoldProgress :=
        { captured := h.progress.captured + amount
          state := if amount = held then .captured else .active
          version
          pendingVersion := if amount = held then released else version }
      .ok ({ h with progress },
        .captured h.id h.terms.scope h.terms.user version released held amount target)

/-- Give what is left back to the user, under the terminal state `state`. -/
def Hold.release (h : Hold) (state : HoldState) : Hold × HoldEvent :=
  let version := h.progress.version + 1
  ({ h with progress := { h.progress with version, state } },
    .released h.id h.terms.scope h.terms.user version h.progress.pendingVersion h.remaining
      (state = .expired))

/-- The client's void. A hold no longer active is left as it is; one past its expiry expires. -/
def Hold.void (h : Hold) (now : Int) : Option (Hold × HoldEvent) :=
  if h.isDue now then some (h.release .expired)
  else if h.progress.state = .active then some (h.release .voided)
  else none

/-- The reaper's release of a hold past its expiry. -/
def Hold.expire (h : Hold) (now : Int) : Option (Hold × HoldEvent) :=
  if h.isDue now then some (h.release .expired) else none

/-- The user's revoke of the client's mandate. -/
def Hold.voidByUser (h : Hold) (now : Int) : Option (Hold × HoldEvent) :=
  if h.isDue now then some (h.release .expired)
  else if h.progress.state = .active then some (h.release .voided)
  else none

/-! ## Commands -/

/-- A command on a placed hold. -/
inductive HoldCommand
  | capture (amount : Option Nat) (target : HoldDestination) (now : Int)
  | void (now : Int)
  | expire (now : Int)
  | revoke (now : Int)
deriving DecidableEq, Repr

/-- The hold after an accepted command, and the event it raised; none when the command is refused or
changes nothing. -/
def Hold.apply (h : Hold) : HoldCommand → Option (Hold × HoldEvent)
  | .capture amount target now => (h.capture amount target now).toOption
  | .void now => h.void now
  | .expire now => h.expire now
  | .revoke now => h.voidByUser now

/-- What placing a hold makes. -/
theorem Hold.place_ok {id : Uuid} {terms : HoldTerms} {h : Hold} {e : HoldEvent}
    (hp : Hold.place id terms = .ok (h, e)) :
    0 < terms.amount ∧ h = ⟨id, terms, ⟨0, .active, 1, 1⟩⟩ ∧
      e = .placed id terms.scope terms.user terms.amount 1 := by
  unfold Hold.place Hold.restore at hp
  by_cases hzero : terms.amount = 0
  · rw [if_pos hzero] at hp
    cases hp
  by_cases hmain : terms.scope.isMain
  · rw [if_neg hzero, if_pos hmain] at hp
    cases hp
  rw [if_neg hzero, if_neg hmain, if_neg (Nat.not_lt_zero _)] at hp
  cases hp
  exact ⟨Nat.pos_of_ne_zero hzero, rfl, rfl⟩

/-- What is left of the held amount after a capture that does not exceed it. -/
theorem Hold.remaining_active {h : Hold} (hs : h.progress.state = .active) :
    h.remaining = h.terms.amount - h.progress.captured := by
  simp [Hold.remaining, hs]

theorem Hold.remaining_inactive {h : Hold} (hs : h.progress.state ≠ .active) : h.remaining = 0 := by
  unfold Hold.remaining
  split
  · contradiction
  all_goals rfl

/-- **What an accepted command does.** It was accepted on an active hold, raises the next version
and names the standing reservation as the one to void: it captures a positive part of what is left
and keeps the rest reserved under its own version, or captures all of it, or gives all of it
back. -/
theorem Hold.apply_cases {h h' : Hold} {c : HoldCommand} {e : HoldEvent}
    (ha : h.apply c = some (h', e)) :
    h.progress.state = .active ∧
    ((∃ amount target, target ≠ .user h.terms.user ∧ 0 < amount ∧ amount ≤ h.remaining ∧
        e = .captured h.id h.terms.scope h.terms.user (h.progress.version + 1)
          h.progress.pendingVersion h.remaining amount target ∧
        h' = { h with progress :=
          { captured := h.progress.captured + amount
            state := if amount = h.remaining then .captured else .active
            version := h.progress.version + 1
            pendingVersion :=
              if amount = h.remaining then h.progress.pendingVersion
              else h.progress.version + 1 } }) ∨
      ∃ state, (state = .voided ∨ state = .expired) ∧ (h', e) = h.release state) := by
  have hdue : ∀ now, h.isDue now = true → h.progress.state = .active := by
    intro now hd
    simp only [Hold.isDue, decide_eq_true_eq] at hd
    exact hd.1
  cases c with
  | capture amount target now =>
    simp only [Hold.apply, Hold.capture] at ha
    by_cases htarget : target = .user h.terms.user
    · rw [if_pos htarget] at ha
      cases ha
    by_cases hact : h.progress.state ≠ .active ∨ h.isDue now
    · rw [if_neg htarget, if_pos hact] at ha
      cases ha
    by_cases hzero : amount.getD h.remaining = 0
    · rw [if_neg htarget, if_neg hact, if_pos hzero] at ha
      cases ha
    by_cases hmore : h.remaining < amount.getD h.remaining
    · rw [if_neg htarget, if_neg hact, if_neg hzero, if_pos hmore] at ha
      cases ha
    rw [if_neg htarget, if_neg hact, if_neg hzero, if_neg hmore] at ha
    cases ha
    rw [not_or, not_not] at hact
    exact ⟨hact.1, .inl ⟨_, target, htarget, Nat.pos_of_ne_zero hzero, not_lt.mp hmore, rfl, rfl⟩⟩
  | void now | revoke now =>
    simp only [Hold.apply, Hold.void, Hold.voidByUser] at ha
    split_ifs at ha with hd hs
    · exact ⟨hdue now hd, .inr ⟨.expired, .inr rfl, by rw [← Option.some.inj ha]⟩⟩
    · exact ⟨hs, .inr ⟨.voided, .inl rfl, by rw [← Option.some.inj ha]⟩⟩
  | expire now =>
    simp only [Hold.apply, Hold.expire] at ha
    split_ifs at ha with hd
    exact ⟨hdue now hd, .inr ⟨.expired, .inr rfl, by rw [← Option.some.inj ha]⟩⟩

end Banking
