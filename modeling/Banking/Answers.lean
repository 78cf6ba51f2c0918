import Banking.Gateway

/-! # What an answer means

The answers of the single-transfer writes, case by case, with the ledger they leave: a post or a
reservation (`transfer_run`), a completion (`complete_run`). What an operation that applied has left
on the ledger is `LedgerAction.Applied`; an answered success says so, but for a completion whose
reservation was completed the other way. -/

namespace Banking

open TwoPhase (Status Side)

/-! ## One transfer -/

/-- No transfer of its own is answered that its chain failed. -/
theorem check_ne_linkedEventFailed (L : Books) (r : TransferRequest) :
    L.check r ≠ .linkedEventFailed := by
  have hpend : ∀ p t v, L.checkPending p t v ≠ .linkedEventFailed := by
    intro p t v
    unfold TwoPhase.Ledger.checkPending
    split
    · exact Status.noConfusion
    · unfold TwoPhase.Ledger.checkCompletion
      split_ifs <;> try exact Status.noConfusion
      split <;> exact Status.noConfusion
    · exact Status.noConfusion
  have htrans : ∀ t, L.checkTransfer t ≠ .linkedEventFailed := by
    intro t
    unfold TwoPhase.Ledger.checkTransfer
    split_ifs <;> exact Status.noConfusion
  unfold TwoPhase.Ledger.check
  split
  · split <;> exact Status.noConfusion
  · split
    · exact Status.noConfusion
    · cases r with
      | post t | reserve t => exact htrans t
      | settle p t | void p t => exact hpend p t _

/-- A batch of one is answered by the status of its transfer. -/
theorem createTransfers_single (r : TransferRequest) (L : Books) :
    createTransfers [r] L = (mapTransferStatus (L.check r), (L.create r).2) := by
  have hne := check_ne_linkedEventFailed L r
  unfold createTransfers TwoPhase.Ledger.createLinked TwoPhase.Ledger.create
    TwoPhase.Ledger.runLinked
  cases hc : L.check r with
  | created => simp [TwoPhase.Ledger.runLinked, answerOf, mapTransferStatus]; rfl
  | linkedEventFailed => exact absurd hc hne
  | _ => simp [answerOf, mapTransferStatus]; rfl

/-- A transfer that is not created and spends no id leaves the ledger as it is. -/
theorem create_unchanged {L : Books} {r : TransferRequest} (hne : L.check r ≠ .created)
    (htr : (L.check r).transient = false) : (L.create r).2 = L := by
  unfold TwoPhase.Ledger.create
  cases hs : L.check r <;> rw [hs] at hne htr <;>
    first
    | exact absurd rfl hne
    | rfl
    | cases htr

/-- How a post or a reservation `r` of the transfer `t` can be answered, and the ledger after it. -/
inductive TransferAnswer (L : Books) (r : TransferRequest) (t : LedgerTransfer) :
    Except LedgerError Unit × Books → Prop
  | created (hc : L.check r = .created) : TransferAnswer L r t (.ok (), L.push (L.entryOf r))
  | found (he : L.entryOf r ∈ L.entries) : TransferAnswer L r t (.ok (), L)
  | refused (hfresh : L.has t.id = false) (hnew : t.id ∉ L.refused)
      (hflag : t.debit.normal = .credit ∧ L.room t.debit < t.amount ∨
        t.credit.normal = .debit ∧ L.room t.credit < t.amount) :
      TransferAnswer L r t (.error .insufficientFunds, { L with refused := t.id :: L.refused })
  | conflict (d : String) : TransferAnswer L r t (.error (.conflict d), L)

/-- The answer to a fresh post or reservation: accepted, refused by a flag, or refused for its
fields. -/
theorem checkTransfer_answer (L : Books) (t : LedgerTransfer) :
    L.checkTransfer t = .created ∨
      ((L.checkTransfer t = .exceedsCredits ∨ L.checkTransfer t = .exceedsDebits) ∧
        (t.debit.normal = .credit ∧ L.room t.debit < t.amount ∨
          t.credit.normal = .debit ∧ L.room t.credit < t.amount)) ∨
      L.checkTransfer t ≠ .created ∧ (L.checkTransfer t).transient = false ∧
        ∃ d, mapTransferStatus (L.checkTransfer t) = .error (.conflict d) := by
  unfold TwoPhase.Ledger.checkTransfer
  split_ifs with h₁ h₂ h₃ h₄ h₅
  · exact .inr (.inr ⟨Status.noConfusion, rfl, _, rfl⟩)
  · exact .inr (.inr ⟨Status.noConfusion, rfl, _, rfl⟩)
  · exact .inr (.inr ⟨Status.noConfusion, rfl, _, rfl⟩)
  · exact .inr (.inl ⟨.inl rfl, .inl h₄⟩)
  · exact .inr (.inl ⟨.inr rfl, .inr h₅⟩)
  · exact .inl rfl

/-- **The answers of a post or a reservation.** -/
theorem transfer_answer {L : Books} {r : TransferRequest} {t : LedgerTransfer}
    (hr : r = .post t ∨ r = .reserve t) : TransferAnswer L r t (createTransfers [r] L) := by
  have hid : r.id = t.id := by rcases hr with rfl | rfl <;> rfl
  rw [createTransfers_single]
  cases hf : L.find r.id with
  | some e =>
    have hcheck : L.check r = if e.matches r then .exists else .existsWithDifferentFields := by
      unfold TwoPhase.Ledger.check
      rw [hf]
    by_cases hm : e.matches r
    · rw [if_pos hm] at hcheck
      rw [create_unchanged (by rw [hcheck]; exact Status.noConfusion) (by rw [hcheck]; rfl), hcheck]
      refine .found ?_
      have he : e = L.entryOf r := by
        rcases hr with rfl | rfl <;>
          simpa [TwoPhase.Entry.matches, TwoPhase.Ledger.entryOf] using hm
      exact he ▸ (TwoPhase.Ledger.find_mem hf).1
    · rw [if_neg hm] at hcheck
      rw [create_unchanged (by rw [hcheck]; exact Status.noConfusion) (by rw [hcheck]; rfl), hcheck]
      exact .conflict _
  | none =>
    have hfresh : L.has t.id = false := hid ▸ TwoPhase.Ledger.find_none.mp hf
    by_cases hspent : r.id ∈ L.refused
    · have hcheck : L.check r = .idAlreadyFailed := by
        unfold TwoPhase.Ledger.check
        rw [hf]
        simp [hspent]
      rw [create_unchanged (by rw [hcheck]; exact Status.noConfusion) (by rw [hcheck]; rfl), hcheck]
      exact .conflict _
    · have hcheck : L.check r = L.checkTransfer t := by
        rw [TwoPhase.Ledger.check_fresh (hid ▸ hfresh) hspent]
        rcases hr with rfl | rfl <;> rfl
      rcases checkTransfer_answer L t with hc | ⟨hs, hflag⟩ | ⟨hne, htr, d, hd⟩
      · have hcreated := hcheck.trans hc
        unfold TwoPhase.Ledger.create
        rw [hcreated]
        exact .created hcreated
      · have hcreate : (L.create r).2 = { L with refused := t.id :: L.refused } := by
          unfold TwoPhase.Ledger.create
          rw [hcheck, hid]
          rcases hs with hs | hs <;> rw [hs] <;> rfl
        rw [hcreate, hcheck]
        rcases hs with hs | hs <;> rw [hs] <;> exact .refused hfresh (hid ▸ hspent) hflag
      · rw [← hcheck] at hne htr hd
        rw [create_unchanged hne htr, hd]
        exact .conflict d

/-- The entry a completion of the reservation `q` leaves. -/
def PendingCompletion.entry (c : PendingCompletion) (q : LedgerTransfer) : BookEntry :=
  match c.kind with
  | .post => .settled c.request.transfer q
  | .void => .voided c.request.transfer q

/-- How a completion can be answered, and the ledger after it. -/
inductive CompleteAnswer (L : Books) (c : PendingCompletion) :
    Except LedgerError Unit × Books → Prop
  | created {q : LedgerTransfer} (hc : L.check c.request = .created)
      (hq : L.find c.pendingId = some (.pending q)) (hdebit : c.debit = q.debit)
      (hcredit : c.credit = q.credit) (hopen : L.completion c.pendingId = none) :
      CompleteAnswer L c (.ok (), L.push (c.entry q))
  | found {q : LedgerTransfer} (he : c.entry q ∈ L.entries) (hq : q.id = c.pendingId) :
      CompleteAnswer L c (.ok (), L)
  | done {e : BookEntry} (he : L.completion c.pendingId = some e) : CompleteAnswer L c (.ok (), L)
  | missing (d : String) (hfresh : L.has c.id = false) (hnew : c.id ∉ L.refused)
      (hq : L.has c.pendingId = false) :
      CompleteAnswer L c (.error (.retryable d), { L with refused := c.id :: L.refused })
  | conflict (d : String) : CompleteAnswer L c (.error (.conflict d), L)

@[simp] theorem PendingCompletion.request_id (c : PendingCompletion) : c.request.id = c.id := by
  unfold PendingCompletion.request
  split <;> rfl

@[simp] theorem PendingCompletion.request_debit (c : PendingCompletion) :
    c.request.transfer.debit = c.debit := by
  unfold PendingCompletion.request
  split <;> rfl

@[simp] theorem PendingCompletion.request_credit (c : PendingCompletion) :
    c.request.transfer.credit = c.credit := by
  unfold PendingCompletion.request
  split <;> rfl

@[simp] theorem PendingCompletion.request_completes (c : PendingCompletion) :
    c.request.completes = some c.pendingId := by
  unfold PendingCompletion.request
  split <;> rfl

/-- A fresh completion is checked against the reservation it names. -/
theorem PendingCompletion.check_fresh {L : Books} {c : PendingCompletion}
    (hfresh : L.has c.id = false) (hnew : c.id ∉ L.refused) : L.check c.request =
      L.checkPending c.pendingId c.request.transfer (c.kind = .void) := by
  rcases c with ⟨id, pendingId, kind, debit, credit, amount, code, reference⟩
  cases kind <;> exact TwoPhase.Ledger.check_fresh hfresh hnew

/-- The answer to a completion that names a reservation: accepted, refused for its fields, or
completed before. -/
theorem checkCompletion_answer (L : Books) (q t : LedgerTransfer) (v : Bool) :
    L.checkCompletion q t v = .created ∨
      (∃ e, L.completion q.id = some e ∧ mapTransferStatus (L.checkCompletion q t v) = .ok () ∧
        (L.checkCompletion q t v).transient = false ∧ L.checkCompletion q t v ≠ .created) ∨
      ∃ d, mapTransferStatus (L.checkCompletion q t v) = .error (.conflict d) ∧
        (L.checkCompletion q t v).transient = false ∧ L.checkCompletion q t v ≠ .created := by
  unfold TwoPhase.Ledger.checkCompletion
  split_ifs with h₁ h₂ h₃
  · exact .inr (.inr ⟨_, rfl, rfl, Status.noConfusion⟩)
  · exact .inr (.inr ⟨_, rfl, rfl, Status.noConfusion⟩)
  · exact .inr (.inr ⟨_, rfl, rfl, Status.noConfusion⟩)
  · cases hc : L.completion q.id with
    | none => exact .inl rfl
    | some e =>
      cases e with
      | settled | voided => exact .inr (.inl ⟨_, rfl, rfl, rfl, Status.noConfusion⟩)
      | posted | pending => exact .inl rfl

/-- What an accepted completion leaves. -/
theorem entryOf_complete {L : Books} {c : PendingCompletion} {q : LedgerTransfer}
    (hq : L.find c.pendingId = some (.pending q)) : L.entryOf c.request = c.entry q := by
  unfold PendingCompletion.entry PendingCompletion.request
  cases c.kind
  · exact TwoPhase.Ledger.entryOf_settle hq
  · exact TwoPhase.Ledger.entryOf_void hq

/-- **The answers of a completion.** -/
theorem complete_answer (L : Books) (c : PendingCompletion) :
    CompleteAnswer L c (createTransfers [c.request] L) := by
  rw [createTransfers_single]
  cases hf : L.find c.id with
  | some e =>
    have hcheck : L.check c.request =
        if e.matches c.request then .exists else .existsWithDifferentFields := by
      unfold TwoPhase.Ledger.check
      rw [PendingCompletion.request_id, hf]
    by_cases hm : e.matches c.request
    · rw [if_pos hm] at hcheck
      rw [create_unchanged (by rw [hcheck]; exact Status.noConfusion) (by rw [hcheck]; rfl), hcheck]
      have hmem := (TwoPhase.Ledger.find_mem hf).1
      obtain ⟨q, rfl, hq⟩ : ∃ q, e = c.entry q ∧ q.id = c.pendingId := by
        unfold PendingCompletion.entry PendingCompletion.request at *
        cases hk : c.kind <;> simp only [hk] at hm ⊢ <;> cases e <;>
          simp only [TwoPhase.Entry.matches, decide_eq_true_eq, Bool.false_eq_true] at hm
        all_goals exact ⟨_, by rw [hm.1]; rfl, hm.2⟩
      exact .found hmem hq
    · rw [if_neg hm] at hcheck
      rw [create_unchanged (by rw [hcheck]; exact Status.noConfusion) (by rw [hcheck]; rfl), hcheck]
      exact .conflict _
  | none =>
    have hfresh : L.has c.id = false := TwoPhase.Ledger.find_none.mp hf
    by_cases hspent : c.id ∈ L.refused
    · have hcheck : L.check c.request = .idAlreadyFailed := by
        unfold TwoPhase.Ledger.check
        rw [PendingCompletion.request_id, hf]
        simp [hspent]
      rw [create_unchanged (by rw [hcheck]; exact Status.noConfusion) (by rw [hcheck]; rfl), hcheck]
      exact .conflict _
    · have hcheck := PendingCompletion.check_fresh hfresh hspent
      cases hq : L.find c.pendingId with
      | none =>
        have hmissing : L.check c.request = .pendingTransferNotFound := by
          rw [hcheck]
          unfold TwoPhase.Ledger.checkPending
          rw [hq]
        have hcreate : (L.create c.request).2 = { L with refused := c.id :: L.refused } := by
          unfold TwoPhase.Ledger.create
          rw [hmissing]
          simp [Status.transient]
        rw [hcreate, hmissing]
        exact .missing _ hfresh hspent (TwoPhase.Ledger.find_none.mp hq)
      | some e =>
        have hpending : ∀ q, e = .pending q →
            CompleteAnswer L c (mapTransferStatus (L.check c.request), (L.create c.request).2) := by
          rintro q rfl
          have hid : q.id = c.pendingId := (TwoPhase.Ledger.find_mem hq).2
          have hcheck' : L.check c.request =
              L.checkCompletion q c.request.transfer (c.kind = .void) := by
            rw [hcheck]
            unfold TwoPhase.Ledger.checkPending
            rw [hq]
          rcases checkCompletion_answer L q c.request.transfer (c.kind = .void) with
            hc | ⟨e, he, hok, htr, hne⟩ | ⟨d, hd, htr, hne⟩
          · have hcreated := hcheck'.trans hc
            have hcreate : (L.create c.request).2 = L.push (c.entry q) := by
              unfold TwoPhase.Ledger.create
              rw [hcreated, entryOf_complete hq]
            rw [hcreate, hcreated]
            obtain ⟨hdebit, hcredit, -, -, hopen⟩ :=
              TwoPhase.Ledger.checkCompletion_created hc
            exact .created hcreated hq (by simpa using hdebit) (by simpa using hcredit)
              (hid ▸ hopen)
          · rw [← hcheck'] at hok htr hne
            rw [create_unchanged hne htr, hok]
            exact .done (hid ▸ he)
          · rw [← hcheck'] at hd htr hne
            rw [create_unchanged hne htr, hd]
            exact .conflict d
        cases e with
        | pending q => exact hpending q rfl
        | posted t | settled t r | voided t r =>
          have hnot : L.check c.request = .pendingTransferNotPending := by
            rw [hcheck]
            unfold TwoPhase.Ledger.checkPending
            rw [hq]
          rw [create_unchanged (by rw [hnot]; exact Status.noConfusion) (by rw [hnot]; rfl), hnot]
          exact .conflict _

end Banking
