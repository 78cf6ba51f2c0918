import Banking.Plan

/-! # The ledger gateway

The relay's port to the ledger: the five writes, the two reads, and how the ledger's statuses become
the four errors the relay acts on. The functions here are the documented behaviour of one call that
reaches the ledger and is answered; what may go wrong on the way is the business of the relay's
environment. -/

namespace Banking

open TwoPhase (Status Side)

/-- The ledger's state over the chart of accounts. -/
abbrev Books := TwoPhase.Ledger Uuid LedgerAccountKey TransferTag

/-- A submitted transfer. -/
abbrev TransferRequest := TwoPhase.Request Uuid LedgerAccountKey TransferTag

/-- An accepted transfer. -/
abbrev BookEntry := TwoPhase.Entry Uuid LedgerAccountKey TransferTag

/-! ## Errors and statuses -/

/-- What a ledger call may answer instead of success. -/
inductive LedgerError
  | insufficientFunds
  | unavailable (detail : String)
  | retryable (detail : String)
  | conflict (detail : String)
deriving DecidableEq, Repr

/-- The error's text. -/
def LedgerError.text : LedgerError → String
  | .insufficientFunds => "insufficient funds"
  | .unavailable d => "ledger unavailable: " ++ d
  | .retryable d => "ledger retryable: " ++ d
  | .conflict d => "ledger conflict: " ++ d

/-- The name of a transfer status. -/
def statusName : Status → String
  | .created => "Created"
  | .linkedEventFailed => "LinkedEventFailed"
  | .exists => "Exists"
  | .existsWithDifferentFields => "ExistsWithDifferentFields"
  | .idAlreadyFailed => "IdAlreadyFailed"
  | .accountsMustBeDifferent => "AccountsMustBeDifferent"
  | .amountMustNotBeZero => "AmountMustNotBeZero"
  | .accountsMustHaveTheSameLedger => "AccountsMustHaveTheSameLedger"
  | .exceedsCredits => "ExceedsCredits"
  | .exceedsDebits => "ExceedsDebits"
  | .pendingTransferNotFound => "PendingTransferNotFound"
  | .pendingTransferNotPending => "PendingTransferNotPending"
  | .pendingTransferHasDifferentFields => "PendingTransferHasDifferentFields"
  | .exceedsPendingTransferAmount => "ExceedsPendingTransferAmount"
  | .pendingTransferAlreadyPosted => "PendingTransferAlreadyPosted"
  | .pendingTransferAlreadyVoided => "PendingTransferAlreadyVoided"

/-- One status as an answer: created, existing and already-completed transfers are success, a flag's
refusal is insufficient funds, a missing pending is retryable, anything else a conflict. -/
def mapTransferStatus : Status → Except LedgerError Unit
  | .created | .exists | .pendingTransferAlreadyPosted | .pendingTransferAlreadyVoided => .ok ()
  | .exceedsCredits | .exceedsDebits => .error .insufficientFunds
  | .pendingTransferNotFound => .error (.retryable "pending transfer not found yet")
  | other => .error (.conflict ("create transfer: " ++ statusName other))

/-- The answer to a batch: the first leg that failed with a status of its own; a chain that failed
without one is a conflict. -/
def answerOf : List Status → Bool → Except LedgerError Unit
  | [], false => .ok ()
  | [], true => .error (.conflict "linked transfer chain failed without a reported cause")
  | .linkedEventFailed :: ss, _ => answerOf ss true
  | s :: ss, chainFailed => do
    mapTransferStatus s
    answerOf ss chainFailed

/-- Submit one batch, every transfer of it but the last flagged `Linked`. -/
def createTransfers (rs : List TransferRequest) (L : Books) : Except LedgerError Unit × Books :=
  let (statuses, L') := L.createLinked rs
  (answerOf statuses false, L')

/-! ## The five writes -/

/-- A completion as the ledger is asked for it: a post names the reserved amount, a void none. -/
def PendingCompletion.request (c : PendingCompletion) : TransferRequest :=
  match c.kind with
  | .post => .settle c.pendingId (legOf c.id c.debit c.credit c.amount c.code c.reference)
  | .void => .void c.pendingId (legOf c.id c.debit c.credit 0 c.code c.reference)

/-- One leg of a mixed chain as the ledger is asked for it. -/
def LinkedLeg.request : LinkedLeg → TransferRequest
  | .post t => .post t
  | .reserve t => .reserve t
  | .complete c => c.request

/-- Submit a chain, unless its first id is on the ledger: then all of it already landed. -/
def linkedOnce (rs : List TransferRequest) (L : Books) : Except LedgerError Unit × Books :=
  match rs with
  | [] => (.ok (), L)
  | r :: _ => if L.has r.id then (.ok (), L) else createTransfers rs L

/-- A write of the relay's. -/
inductive LedgerCall
  | post (transfer : LedgerTransfer)
  | postLinked (transfers : List LedgerTransfer)
  | reserve (transfer : LedgerTransfer)
  | complete (completion : PendingCompletion)
  | applyLinked (legs : List LinkedLeg)
deriving DecidableEq, Repr

/-- The transfers a write submits, in order. -/
def LedgerCall.requests : LedgerCall → List TransferRequest
  | .post t => [.post t]
  | .postLinked ts => ts.map .post
  | .reserve t => [.reserve t]
  | .complete c => [c.request]
  | .applyLinked legs => legs.map LinkedLeg.request

/-- The write an action performs; none for a broadcast. -/
def LedgerAction.call? : LedgerAction → Option LedgerCall
  | .post t => some (.post t)
  | .postLinked ts => some (.postLinked ts)
  | .reserve t => some (.reserve t)
  | .complete c => some (.complete c)
  | .linked legs => some (.applyLinked legs)
  | .broadcast _ => none

/-- The transfers a planned operation submits. -/
def PlannedOp.requests (op : PlannedOp) : List TransferRequest :=
  (op.action.call?.map LedgerCall.requests).getD []

/-- **One answered write**: its answer and the ledger after it. -/
def LedgerCall.run (call : LedgerCall) (L : Books) : Except LedgerError Unit × Books :=
  match call with
  | .post _ | .reserve _ | .complete _ => createTransfers call.requests L
  | .postLinked _ | .applyLinked _ => linkedOnce call.requests L

/-! ## The reads -/

/-- An account's balance on its natural side. -/
structure LedgerBalance where
  posted : Nat
  pending : Nat
  locked : Nat
deriving DecidableEq, Repr

/-- The settled balance not reserved by an in-flight pending. -/
def LedgerBalance.available (b : LedgerBalance) : Nat := b.posted - b.locked

/-- The balance of `key`, normalized to its natural side. A posted balance below zero is an
inconsistency; the two pending figures saturate. -/
def balanceOf (key : LedgerAccountKey) (L : Books) : Except LedgerError LedgerBalance :=
  let own := key.normal
  let posted := L.posted own key - L.posted own.flip key
  if posted < 0 then .error (.conflict ("balance underflow on " ++ key.logicalKey))
  else
    .ok
      { posted := posted.toNat
        pending := (L.pending own key - L.pending own.flip key).toNat
        locked := (L.pending own.flip key - L.pending own key).toNat }

/-- On a sound ledger a balance reads back. -/
theorem balanceOf_sound {L : Books} (hs : L.Sound) (key : LedgerAccountKey) :
    balanceOf key L = .ok
      { posted := (L.posted key.normal key - L.posted key.normal.flip key).toNat
        pending := (L.pending key.normal key - L.pending key.normal.flip key).toNat
        locked := (L.pending key.normal.flip key - L.pending key.normal key).toNat } := by
  have hpos : ¬ L.posted key.normal key - L.posted key.normal.flip key < 0 :=
    not_lt.mpr (hs.balance_nonneg key)
  unfold balanceOf
  simp only [hpos, if_false]

/-- Whether a transfer with this id has applied. -/
def transferExists (id : Uuid) (L : Books) : Bool := L.has id

/-! ## What a write can do -/

/-- A batch that was all created is a success. -/
@[simp] theorem answerOf_replicate_created (n : Nat) :
    answerOf (List.replicate n Status.created) false = .ok () := by
  induction n with
  | zero => rfl
  | succ n ih => rw [List.replicate_succ]; exact ih

/-- Once a leg was skipped, the batch is no success. -/
theorem answerOf_chainFailed (ss : List Status) : answerOf ss true ≠ .ok () := by
  induction ss with
  | nil => simp [answerOf]
  | cons s ss ih =>
    cases s <;> simp only [answerOf, mapTransferStatus] <;>
      first
      | exact ih
      | exact fun h => nomatch h

/-- A chain refused at one leg answers success only when that leg is all of it and its status is a
success. -/
theorem answerOf_refused {n k : Nat} {s : Status} (hk : k < n)
    (h : answerOf ((List.replicate n Status.linkedEventFailed).set k s) false = .ok ()) :
    n = 1 ∧ mapTransferStatus s = .ok () := by
  obtain ⟨m, rfl⟩ : ∃ m, n = m + 1 := ⟨n - 1, by omega⟩
  rw [List.replicate_succ] at h
  cases k with
  | succ k =>
    rw [List.set_cons_succ, answerOf] at h
    exact absurd h (answerOf_chainFailed _)
  | zero =>
    rw [List.set_cons_zero] at h
    have hs : s ≠ .linkedEventFailed := by
      rintro rfl
      rw [answerOf] at h
      exact answerOf_chainFailed _ h
    rw [answerOf.eq_4 _ _ _ (fun h => hs h)] at h
    cases hm : mapTransferStatus s with
    | error e => rw [hm] at h; cases h
    | ok u =>
      rw [hm] at h
      cases m with
      | zero => exact ⟨rfl, rfl⟩
      | succ m =>
        rw [List.replicate_succ] at h
        exact absurd h (answerOf_chainFailed _)

/-- What the ledger already holds of a batch that answers success without landing: its first
transfer, or, for a single completion, a completion of its pending transfer by another. -/
def AlreadyDone (L : Books) : List TransferRequest → Prop
  | [] => False
  | r :: rs => L.has r.id = true ∨
      rs = [] ∧ ∃ p t, (r = .settle p t ∨ r = .void p t) ∧ (L.completion p).isSome

/-- How a write of `rs` on `L` can end. -/
inductive CallResult (L : Books) (rs : List TransferRequest) :
    Except LedgerError Unit × Books → Prop
  | landed {L' : Books} (h : L.runLinked rs = .ok L') : CallResult L rs (.ok (), L')
  | skipped (h : AlreadyDone L rs) : CallResult L rs (.ok (), L)
  | refused (e : LedgerError) (is : List Uuid)
      (h : is = L.refused ∨ ∃ r ∈ rs, is = r.id :: L.refused) :
      CallResult L rs (.error e, { L with refused := is })

/-- A transfer that was not created and yet answers success was there already. -/
theorem alreadyDone_of_check {L : Books} {r : TransferRequest} (hne : L.check r ≠ .created)
    (hok : mapTransferStatus (L.check r) = .ok ()) : AlreadyDone L [r] := by
  have hpend : ∀ {p : Uuid} {t : LedgerTransfer} {v : Bool}, L.checkPending p t v ≠ .created →
      mapTransferStatus (L.checkPending p t v) = .ok () → (L.completion p).isSome := by
    intro p t v hne hok
    unfold TwoPhase.Ledger.checkPending at hne hok
    split at hok
    · cases hok
    · next q hq =>
      obtain rfl : q.id = p := (TwoPhase.Ledger.find_mem hq).2
      cases hc : L.completion q.id with
      | some e => rfl
      | none =>
        rw [hq] at hne
        simp only [TwoPhase.Ledger.checkCompletion, hc] at hne hok
        split_ifs at hne hok <;> first | exact absurd rfl hne | cases hok
    · cases hok
  unfold TwoPhase.Ledger.check at hne hok
  cases hf : L.find r.id with
  | some e => exact .inl (TwoPhase.Ledger.has_of_find hf)
  | none =>
    simp only [hf] at hne hok
    split_ifs at hne hok
    · cases hok
    · right
      refine ⟨rfl, ?_⟩
      cases r with
      | post t | reserve t =>
        simp only [TwoPhase.Ledger.checkTransfer] at hne hok
        split_ifs at hne hok <;> first | exact absurd rfl hne | cases hok
      | settle p t => exact ⟨p, t, .inl rfl, hpend hne hok⟩
      | void p t => exact ⟨p, t, .inr rfl, hpend hne hok⟩

/-- **What a batch can do**: land whole, find itself done already, or be refused. -/
theorem createTransfers_result (rs : List TransferRequest) (L : Books) :
    CallResult L rs (createTransfers rs L) := by
  unfold createTransfers TwoPhase.Ledger.createLinked
  cases hrun : L.runLinked rs with
  | ok L' => simpa using CallResult.landed hrun
  | error x =>
    obtain ⟨k, s, i⟩ := x
    obtain ⟨hlt, r, hr, rfl, ⟨L₀, hL₀, hs⟩, hne⟩ := TwoPhase.Ledger.runLinked_error hrun
    dsimp only
    cases ha : answerOf ((List.replicate rs.length Status.linkedEventFailed).set k s) false with
    | error e =>
      split
      · exact .refused e _ (.inr ⟨r, List.mem_of_getElem? hr, rfl⟩)
      · exact .refused e _ (.inl rfl)
    | ok u =>
      obtain ⟨hone, hmap⟩ := answerOf_refused hlt ha
      obtain ⟨r', rfl⟩ := List.length_eq_one_iff.mp hone
      obtain rfl : k = 0 := by simpa using hlt
      obtain rfl : r' = r := by simpa using hr
      obtain rfl := hL₀ rfl
      have htransient : s.transient = false := by
        cases s <;> first | rfl | cases hmap
      rw [htransient]
      subst hs
      exact .skipped (alreadyDone_of_check hne hmap)

/-- **What a write can do.** -/
theorem LedgerCall.run_result (call : LedgerCall) (L : Books) :
    CallResult L call.requests (call.run L) := by
  have hlinked : ∀ rs : List TransferRequest, CallResult L rs (linkedOnce rs L) := by
    intro rs
    cases rs with
    | nil => exact .landed rfl
    | cons r rs =>
      unfold linkedOnce
      by_cases hhas : L.has r.id
      · have hdone : AlreadyDone L (r :: rs) := Or.inl hhas
        simpa only [hhas, if_true] using CallResult.skipped hdone
      · simpa only [hhas, if_false, Bool.false_eq_true] using createTransfers_result (r :: rs) L
  cases call with
  | post | reserve | complete => exact createTransfers_result _ L
  | postLinked | applyLinked => exact hlinked _

/-- A write whose chain lands answers success. -/
theorem LedgerCall.run_landed {call : LedgerCall} {L L' : Books}
    (h : L.runLinked call.requests = .ok L') : call.run L = (.ok (), L') := by
  have hbatch : ∀ rs : List TransferRequest, L.runLinked rs = .ok L' →
      createTransfers rs L = (.ok (), L') := by
    intro rs hrs
    unfold createTransfers TwoPhase.Ledger.createLinked
    rw [hrs]
    simp
  have hlinked : ∀ rs : List TransferRequest, L.runLinked rs = .ok L' →
      linkedOnce rs L = (.ok (), L') := by
    intro rs hrs
    match rs with
    | [] => cases hrs; rfl
    | r :: rs =>
      have hfresh := (TwoPhase.Ledger.fresh_of_check (TwoPhase.Ledger.of_runLinked_cons hrs).1).1
      have hskip : linkedOnce (r :: rs) L = createTransfers (r :: rs) L := by
        simp [linkedOnce, hfresh]
      rw [hskip]
      exact hbatch _ hrs
  cases call with
  | post | reserve | complete => exact hbatch _ h
  | postLinked | applyLinked => exact hlinked _ h

/-- A write whose first transfer is on the ledger, or was refused before, changes nothing. -/
theorem LedgerCall.run_spent {call : LedgerCall} {L : Books} {r : TransferRequest}
    {rs : List TransferRequest} (hcall : call.requests = r :: rs)
    (h : L.has r.id = true ∨ r.id ∈ L.refused) : (call.run L).2 = L := by
  obtain ⟨hne, htransient⟩ := TwoPhase.Ledger.check_spent h
  have hbatch : (createTransfers (r :: rs) L).2 = L := by
    have hrun : L.runLinked (r :: rs) = .error (0, L.check r, r.id) := by
      unfold TwoPhase.Ledger.runLinked
      split
      · next hc => exact absurd hc hne
      · rfl
    unfold createTransfers TwoPhase.Ledger.createLinked
    rw [hrun]
    simp [htransient]
  have hlinked : (linkedOnce (r :: rs) L).2 = L := by
    by_cases hhas : L.has r.id
    · simp [linkedOnce, hhas]
    · have hskip : linkedOnce (r :: rs) L = createTransfers (r :: rs) L := by
        simp [linkedOnce, hhas]
      rw [hskip]
      exact hbatch
  unfold LedgerCall.run
  rw [hcall]
  cases call with
  | post | reserve | complete => exact hbatch
  | postLinked | applyLinked => exact hlinked

/-- **The write rule.** A property that every accepted transfer of a write preserves, and every spent
id, is preserved by the write, however it ends. -/
theorem LedgerCall.run_invariant {call : LedgerCall} {P : Books → Prop} {L : Books}
    (hpush : ∀ L : Books, ∀ r ∈ call.requests, P L → L.check r = .created →
      P (L.push (L.entryOf r)))
    (hrefuse : ∀ L : Books, ∀ r ∈ call.requests, P L →
      P { L with refused := r.id :: L.refused })
    (h : P L) : P (call.run L).2 := by
  have hres := call.run_result L
  generalize call.run L = x at hres ⊢
  cases hres with
  | landed hrun => exact TwoPhase.Ledger.runLinked_invariant hpush h hrun
  | skipped => exact h
  | refused e is his =>
    rcases his with rfl | ⟨r, hr, rfl⟩
    · exact h
    · exact hrefuse L r hr h

/-- A write keeps the ledger sound. -/
theorem LedgerCall.run_sound {call : LedgerCall} {L : Books} (h : L.Sound) :
    (call.run L).2.Sound :=
  LedgerCall.run_invariant (P := TwoPhase.Ledger.Sound)
    (fun _ _ _ hs hc => hs.push (TwoPhase.Ledger.accepts_of_check hc)) (fun _ _ _ hs => hs) h

end Banking
