import Banking.Scopes

/-! # Mandates

A user's mandate, the only consent a scope's client debits their compartment on: for which
operations, within which caps, until when. The caps are decided over what the client has drawn on
the compartment, whichever of the user's mandates it was drawn under. -/

namespace Banking

/-! ## Terms -/

/-- What a mandate lets a client do with a compartment. -/
inductive MandateOperation
  | reserve
  | charge
  | bookFill
deriving DecidableEq, Repr

/-- Every operation, in wire order. -/
def MandateOperation.ALL : List MandateOperation := [.reserve, .charge, .bookFill]

/-- An operation's stored name. -/
def MandateOperation.asStr : MandateOperation → String
  | .reserve => "reserve"
  | .charge => "charge"
  | .bookFill => "book_fill"

/-- What a mandate allows the client to draw: in one operation, over 24 hours, held at once, and
into other users' compartments. -/
structure MandateCaps where
  perOp : Nat
  per24h : Nat
  outstanding : Nat
  bookFill24h : Option Nat
deriving DecidableEq, Repr

/-- The operations listed, each once, in wire order. -/
def orderOperations (operations : List MandateOperation) :
    Except DomainError (List MandateOperation) :=
  MandateOperation.ALL.foldlM (fun ordered operation =>
    match operations.count operation with
    | 0 => .ok ordered
    | 1 => .ok (ordered ++ [operation])
    | _ => .error (.validation ("operation " ++ operation.asStr ++ " is listed twice"))) []

/-- The rules every set of terms obeys; answers the operations in wire order. -/
def checkTerms (scope : ScopeId) (caps : MandateCaps) (operations : List MandateOperation) :
    Except DomainError (List MandateOperation) :=
  if scope.isMain then .error (.validation "a mandate is never granted in main")
  else if caps.perOp = 0 then .error (.validation "cap_per_op must be positive")
  else if caps.per24h < caps.perOp then
    .error (.validation "cap_24h must be at least cap_per_op")
  else if caps.outstanding < caps.perOp then
    .error (.validation "cap_outstanding must be at least cap_per_op")
  else
    match orderOperations operations with
    | .error e => .error e
    | .ok ordered =>
      if ordered = [] then .error (.validation "a mandate lists at least one operation")
      else
        match decide (.bookFill ∈ ordered), caps.bookFill24h with
        | true, none => .error (.validation "cap_book_fill_24h is required with BOOK_FILL")
        | true, some cap =>
          if cap = 0 then .error (.validation "cap_book_fill_24h must be positive")
          else .ok ordered
        | false, some _ => .error (.validation "cap_book_fill_24h is set only with BOOK_FILL")
        | false, none => .ok ordered

/-- Everything a user grants, checked. -/
structure MandateTerms where
  user : UserId
  scope : ScopeId
  client : ClientId
  caps : MandateCaps
  operations : List MandateOperation
  expiresAt : Option Int
  scope_shaped : scope.Shaped
  client_shaped : client.Shaped
  checked : ∃ asked, checkTerms scope caps asked = .ok operations
deriving DecidableEq

/-- Whether the terms list an operation. -/
def MandateTerms.lists (t : MandateTerms) (operation : MandateOperation) : Bool :=
  operation ∈ t.operations

/-- The farthest ahead a mandate may expire, in seconds: five years. -/
def MAX_MANDATE_SECONDS : Nat := 5 * 366 * 24 * 60 * 60

/-- An expiry, if there is one, is ahead, and no farther than it may be. -/
def MandateTerms.checkExpiry (t : MandateTerms) (now : Int) : Except DomainError Unit :=
  match t.expiresAt with
  | none => .ok ()
  | some time =>
    if time ≤ now then .error (.validation "expires_at must be in the future")
    else if saturatingAdd now MAX_MANDATE_SECONDS < time then
      .error (.validation "expires_at must be within 5 years")
    else .ok ()

/-! ## Mandates -/

/-- A mandate as recorded. -/
structure Mandate where
  id : Uuid
  terms : MandateTerms
  createdAt : Int
  revokedAt : Option Int
  replacedAt : Option Int
deriving DecidableEq

/-- What the client has drawn on the user's compartment. -/
structure MandateUsage where
  drawn24h : Nat
  outstanding : Nat
  bookFilled24h : Nat
deriving DecidableEq, Repr

/-- Neither revoked, nor replaced, nor past its expiry. -/
def Mandate.isLive (m : Mandate) (now : Int) : Bool :=
  m.revokedAt.isNone && m.replacedAt.isNone && m.terms.expiresAt.all (now < ·)

/-- Whether `amount` may be drawn now by `operation`. Every refusal is the same one. -/
def Mandate.admitDraw (m : Mandate) (operation : MandateOperation) (amount : Nat)
    (usage : MandateUsage) (now : Int) : Bool :=
  if operation = .bookFill ∨ ¬ m.isLive now ∨ ¬ m.terms.lists operation ∨
      m.terms.caps.perOp < amount then false
  else if m.terms.caps.per24h < usage.drawn24h + amount then false
  else if operation = .reserve ∧ m.terms.caps.outstanding < usage.outstanding + amount then false
  else true

/-- The cap on what goes to other users, when the mandate grants it and is not revoked. -/
def Mandate.bookFillCap (m : Mandate) : Option Nat :=
  m.terms.caps.bookFill24h.filter fun _ => m.terms.lists .bookFill && m.revokedAt.isNone

/-- Whether `amount` of a hold placed under this mandate may go to another user: both it and the
user's `current` one must grant that, and the tighter of their caps bounds the last 24 hours. -/
def Mandate.admitBookFill (m : Mandate) (current : Option Mandate) (amount : Nat)
    (usage : MandateUsage) (now : Int) : Bool :=
  match current.filter (·.isLive now) with
  | none => false
  | some current =>
    match m.bookFillCap, current.bookFillCap with
    | some placed, some nowCap => usage.bookFilled24h + amount ≤ min placed nowCap
    | _, _ => false

/-- When a hold placed now expires: what the client asked, never after the mandate itself. -/
def Mandate.holdExpiry (m : Mandate) (ttlSeconds : Nat) (now : Int) : Option Int :=
  let asked := if 0 < ttlSeconds then some (saturatingAdd now ttlSeconds) else none
  match asked, m.terms.expiresAt with
  | some asked, some limit => some (min asked limit)
  | some time, none => some time
  | none, some time => some time
  | none, none => none

end Banking
