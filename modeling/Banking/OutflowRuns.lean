import Banking.KeyBinding
import Banking.OutflowWindows

/-! # A day's outflow over every run

What each call promises the others, and from it what holds of every store any number of calls
reaches: no day of a scope passes its budget, nor a client's its ceilings. -/

namespace Banking

open Interactive (Prog Held Guarded World Runs Config)
open Rolling (recent)

/-! ## What the admissions admitted -/

theorem mapError_ok_iff {ε ε' α : Type} {x : Except ε α} {f : ε → ε'} {a : α} :
    x.mapError f = .ok a ↔ x = .ok a := by
  cases x <;> simp [Except.mapError]

/-- The lines resolved have the amounts asked. -/
theorem resolveLines_amounts {users : List ResolvedUser} {lines : List RequestedLine} :
    ∀ {resolved : List PayoutLine}, resolveLines users lines = .ok resolved →
      resolved.map (·.amount) = lines.map (·.amount) := by
  induction lines with
  | nil =>
    intro resolved h
    cases h
    rfl
  | cons line lines ih =>
    intro resolved h
    rw [resolveLines, List.mapM_cons] at h
    obtain ⟨first, hfirst, h⟩ := bind_ok_iff.mp h
    obtain ⟨rest, hrest, h⟩ := bind_ok_iff.mp h
    cases h
    have hamount : first.amount = line.amount := by
      unfold resolveLine at hfirst
      split at hfirst
      · cases hfirst
      · split_ifs at hfirst
        cases hfirst
        rfl
    rw [List.map_cons, List.map_cons, hamount, ih hrest]

/-- A payout's total is the sum of its lines. -/
theorem PayoutRequest.accept_total {r : PayoutRequest} {total : Nat} (h : r.accept = .ok total) :
    total = (r.lines.map (·.amount)).sum := by
  unfold PayoutRequest.accept at h
  split_ifs at h
  cases hlines : checkLines r.lines with
  | error e => simp [hlines] at h
  | ok sum =>
    rw [hlines] at h
    cases h
    exact checkLines_total hlines

theorem knownScope_ok {record : Option ScopeRecord} {scope : ScopeId} {known : ScopeRecord}
    (h : knownScope record scope = .ok known) : known ∈ record := by
  unfold knownScope at h
  split at h
  · cases h
  · cases h
    rfl

/-- **An automatic payout admitted** is the one asked for, and its policy let it through. -/
theorem PayoutRequest.admit_ok {grants : Grants} {r : PayoutRequest} {total : Nat}
    {facts : OutflowFacts} {spendable : Except DomainError Nat} {fresh : Uuid}
    {p : ScopePayout × List ScopePayoutEvent}
    (h : r.admitted grants total facts spendable fresh = .ok p) (htotal : r.accept = .ok total) :
    p.1.terms.client = r.client ∧ p.1.terms.scope = r.scope ∧ p.1.total = total ∧
      ∃ record ∈ facts.scope, record.policy.admitAutoPayout
        ⟨total, maxLine r.lines, facts.paid24h, facts.scopeOut24h⟩ = .ok () := by
  unfold PayoutRequest.admitted at h
  obtain ⟨record, hrecord, h⟩ := bind_ok_iff.mp h
  obtain ⟨-, -, h⟩ := bind_ok_iff.mp h
  obtain ⟨-, -, h⟩ := bind_ok_iff.mp h
  obtain ⟨-, -, h⟩ := bind_ok_iff.mp h
  obtain ⟨lines, hlines, h⟩ := bind_ok_iff.mp h
  obtain ⟨⟨⟩, hpolicy, h⟩ := bind_ok_iff.mp h
  obtain ⟨-, -, hrequest⟩ := bind_ok_iff.mp h
  obtain ⟨hterms, -⟩ := ScopePayout.request_ok (mapError_ok_iff.mp hrequest)
  refine ⟨by rw [hterms], by rw [hterms], ?_, record, knownScope_ok hrecord,
    mapError_ok_iff.mp hpolicy⟩
  rw [p.1.total_eq, hterms, resolveLines_amounts hlines, PayoutRequest.accept_total htotal]

/-- What a requested operation is stored as. -/
theorem RecordedOperation.request_stored {sha256Hex : String → String}
    {operation : PendingOperation} {subjectRef : SubjectRef} {now : Int} {r : RecordedOperation}
    (h : RecordedOperation.request sha256Hex operation subjectRef now = .ok r) :
    r.operation = operation ∧ r.progress = .awaiting ∧ r.createdAt = now ∧
      r.approvalLevel = none := by
  obtain ⟨payload, -, hr⟩ := bind_ok_iff.mp h
  cases hr
  exact ⟨rfl, rfl, rfl, rfl⟩

theorem PendingOperation.request_terms {id : FreshId} {terms : OperationTerms}
    {hshaped : terms.Shaped} {op : PendingOperation}
    (h : PendingOperation.request id terms hshaped = .ok op) : op.terms = terms := by
  unfold PendingOperation.request at h
  split at h
  · cases h
  · cases h
    rfl

section Requested

variable {sha256Hex : String → String} {grants : Grants} {facts : OutflowFacts}
  {spendable : Except DomainError Nat} {fresh : FreshId} {now : Int} {recorded : RecordedOperation}

/-- A new row awaits its approval, its level not known. -/
structure RecordedOperation.Requested (now : Int) (r : RecordedOperation) : Prop where
  awaits : r.progress.state = .awaitingApproval
  createdAt : r.createdAt = now
  opened : r.LevelOpened

/-- **A requested payout admitted** pays out of its scope, and is flagged unless it fits the budget
beside what left the scope today. -/
theorem RequestPayoutRequest.admit_ok {r : RequestPayoutRequest}
    (h : r.admitted sha256Hex grants facts spendable fresh now = .ok recorded) :
    recorded.Requested now ∧ ∀ s, recorded.unflagged s = true → s = r.scope ∧
      ∃ record ∈ facts.scope,
        record.policy.overScopeBudget facts.scopeOut24h recorded.operation.total = false := by
  unfold RequestPayoutRequest.admitted at h
  obtain ⟨record, hrecord, h⟩ := bind_ok_iff.mp h
  obtain ⟨-, -, h⟩ := bind_ok_iff.mp h
  obtain ⟨-, -, h⟩ := bind_ok_iff.mp h
  obtain ⟨-, -, h⟩ := bind_ok_iff.mp h
  obtain ⟨lines, hlines, h⟩ := bind_ok_iff.mp h
  obtain ⟨total, htotal, h⟩ := bind_ok_iff.mp h
  obtain ⟨-, -, h⟩ := bind_ok_iff.mp h
  obtain ⟨op, hop, h⟩ := bind_ok_iff.mp h
  have hterms := PendingOperation.request_terms (mapError_ok_iff.mp hop)
  obtain ⟨rfl, hprogress, hcreated, hlevel⟩ :=
    RecordedOperation.request_stored (mapError_ok_iff.mp h)
  refine ⟨⟨by rw [hprogress]; rfl, hcreated, fun _ => hlevel⟩, fun s hs => ?_⟩
  obtain ⟨hscope, hflag⟩ := Bool.and_eq_true_iff.mp hs
  rw [hterms] at hscope hflag
  refine ⟨(of_decide_eq_true hscope).symm, record, knownScope_ok hrecord, ?_⟩
  have hsum : recorded.operation.total = total := by
    rw [PendingOperation.total_eq, hterms, checkLines_total (mapError_ok_iff.mp htotal),
      ← resolveLines_amounts hlines]
    rfl
  rw [hsum]
  simpa using hflag

/-- **A requested transfer admitted** draws on no budget. -/
theorem RequestTransferRequest.admit_ok {r : RequestTransferRequest}
    (h : r.admitted sha256Hex facts spendable fresh now = .ok recorded) :
    recorded.Requested now ∧ ∀ s, recorded.unflagged s = false := by
  unfold RequestTransferRequest.admitted at h
  obtain ⟨record, hrecord, h⟩ := bind_ok_iff.mp h
  obtain ⟨-, -, h⟩ := bind_ok_iff.mp h
  obtain ⟨-, -, h⟩ := bind_ok_iff.mp h
  obtain ⟨-, -, h⟩ := bind_ok_iff.mp h
  obtain ⟨-, -, h⟩ := bind_ok_iff.mp h
  obtain ⟨op, hop, h⟩ := bind_ok_iff.mp h
  have hterms := PendingOperation.request_terms (mapError_ok_iff.mp hop)
  obtain ⟨rfl, hprogress, hcreated, hlevel⟩ :=
    RecordedOperation.request_stored (mapError_ok_iff.mp h)
  refine ⟨⟨by rw [hprogress]; rfl, hcreated, fun _ => hlevel⟩, fun s => ?_⟩
  simp [RecordedOperation.unflagged, hterms]

end Requested

/-- **An automatic transfer admitted** is one its policy let through. -/
theorem ScopeTransfer.admit_ok {grants : Grants} {t : ScopeTransfer} {reads : TransferReads}
    {transferred24h : Nat} {spendable : Except DomainError Nat}
    (h : t.admitted grants reads transferred24h spendable = .ok ()) :
    ∃ record ∈ reads.scope,
      record.policy.admitAutoTransfer ⟨t.terms.amount, transferred24h⟩ = .ok () := by
  unfold ScopeTransfer.admitted at h
  obtain ⟨record, hrecord, h⟩ := bind_ok_iff.mp h
  obtain ⟨-, -, h⟩ := bind_ok_iff.mp h
  obtain ⟨-, -, h⟩ := bind_ok_iff.mp h
  obtain ⟨-, -, h⟩ := bind_ok_iff.mp h
  obtain ⟨-, -, h⟩ := bind_ok_iff.mp h
  obtain ⟨-, -, h⟩ := bind_ok_iff.mp h
  obtain ⟨⟨⟩, hpolicy, -⟩ := bind_ok_iff.mp h
  exact ⟨record, knownScope_ok hrecord, mapError_ok_iff.mp hpolicy⟩

/-! ## What the calls promise -/

/-- The store as its transactions find it, while the policy of `scope` is `policy`. -/
def outflowWorld (grants : Grants) (day : Int) (scope : ScopeId) (policy : ScopePolicy) :
    World OutflowOp OutflowOp.Ans OutflowWorld where
  step := OutflowStep grants day scope policy
  rely := OutflowWorld.Evolves day
  inv := OutflowWorld.Sound day scope policy

section Calls

variable {sha256Hex : String → String} {grants : Grants} {day : Int} {scope : ScopeId}
  {policy : ScopePolicy} {w : OutflowWorld} {α β : Type}

/-- A read leaves the store as it is. -/
theorem promises_read {op : OutflowOp} {k : op.Ans → OutflowProg α}
    (hquiet : ∀ w₁ a w₂, OutflowStep grants day scope policy op w₁ a w₂ → w₂ = w₁)
    (h : ∀ w₁ a, w.Evolves day w₁ → w₁.Sound day scope policy →
      OutflowStep grants day scope policy op w₁ a w₁ →
      (outflowWorld grants day scope policy).promises (k a) w₁) :
    (outflowWorld grants day scope policy).promises (askStore op >>= k) w := by
  refine World.promises_call.mpr fun w₁ hr hi a w₂ hs => ?_
  obtain rfl := hquiet w₁ a w₂ hs
  exact ⟨.refl _, hi, h _ a hr hi hs⟩

theorem promises_refuse {x : Except TransferError β} {k : β → OutflowProg α}
    (h : ∀ b, x = .ok b → (outflowWorld grants day scope policy).promises (k b) w) :
    (outflowWorld grants day scope policy).promises (orRefuse x >>= k) w := by
  cases x with
  | error e => trivial
  | ok b => exact h b rfl

theorem promises_repeated {stored : StoredRequest} {terms : String} :
    (outflowWorld grants day scope policy).promises
      (repeated stored terms : OutflowProg (Recorded α)) w := by
  unfold repeated
  cases sameTerms stored.terms terms <;> trivial

section Reads

variable {w₀ w₁ w₂ : OutflowWorld} {client : ClientId} {s : ScopeId} {now : Int} {what : String}
  {n : Nat} (h₀ : w₀.Evolves day w₁) (h₁ : w₁.Evolves day w₂)

include h₀ h₁

/-- What a transaction read of a budget holds as long as the lock of it is its own. -/
theorem OutflowWorld.Evolves.scopeOut_read (hown : w₂.locks (.budget s) = w₀.locks (.budget s))
    (hread : sumAmounts (w₁.scopeOut24h day s now) what = .ok n) :
    recent day now (w₂.draws s) ≤ n := by
  have hfound : Guarded OutflowWorld.locks (.budget s) (w₀.locks (.budget s))
      (fun w => recent day now (w.draws s) ≤ n) w₁ :=
    ⟨h₀.locks _, fun _ => sumAmounts_ok hread ▸ w₁.recent_le_scopeOut24h s now⟩
  exact (hfound.stable (h₁.locks _) fun hsame hle => (h₁.budget s hsame now).trans hle).holds hown

theorem OutflowWorld.Evolves.paid_read (hown : w₂.locks (.budget s) = w₀.locks (.budget s))
    (hread : sumAmounts (w₁.paid24h day client s now) what = .ok n) :
    recent day now (w₂.drawsBy client s) ≤ n := by
  have hfound : Guarded OutflowWorld.locks (.budget s) (w₀.locks (.budget s))
      (fun w => recent day now (w.drawsBy client s) ≤ n) w₁ :=
    ⟨h₀.locks _, fun _ => sumAmounts_ok hread ▸ w₁.recent_le_paid24h client s now⟩
  exact (hfound.stable (h₁.locks _) fun hsame hle =>
    (h₁.payouts client s hsame now).trans hle).holds hown

theorem OutflowWorld.Evolves.transferred_read
    (hown : w₂.locks (.ceiling client s) = w₀.locks (.ceiling client s))
    (hread : sumAmounts (w₁.transferred24h day client s now) what = .ok n) :
    recent day now (w₂.sweeps client s) ≤ n := by
  have hfound : Guarded OutflowWorld.locks (.ceiling client s) (w₀.locks (.ceiling client s))
      (fun w => recent day now (w.sweeps client s) ≤ n) w₁ :=
    ⟨h₀.locks _, fun _ => sumAmounts_ok hread ▸ w₁.recent_le_transferred24h client s now⟩
  exact (hfound.stable (h₁.locks _) fun hsame hle =>
    (h₁.transfers client s hsame now).trans hle).holds hown

end Reads

/-- **`Payout`** keeps every window. -/
theorem recordPayout_promises (r : PayoutRequest) (key : String) :
    (outflowWorld grants day scope policy).promises (recordPayout grants r key) w := by
  unfold recordPayout
  refine promises_refuse fun _ _ => promises_refuse fun _ _ => ?_
  refine promises_refuse fun total htotal => ?_
  refine promises_read (by rintro _ _ _ ⟨⟩; rfl) fun _ now _ _ _ => ?_
  refine promises_read (by rintro _ _ _ ⟨⟩; rfl) fun _ stored _ _ _ => ?_
  cases stored with
  | some stored => exact promises_repeated
  | none =>
    refine promises_read (by rintro _ _ _ ⟨⟩; rfl) fun w₂ count _ _ hcount => ?_
    obtain rfl : count = w₂.locks (.budget r.scope) := by cases hcount; rfl
    refine promises_read (by rintro _ _ _ ⟨⟩; rfl) fun w₃ reads h₃ _ hreads => ?_
    refine promises_read (by rintro _ _ _ ⟨⟩; rfl) fun w₄ paid h₄ _ hpaid => ?_
    refine promises_refuse fun paid24h hpaid24h => ?_
    refine promises_read (by rintro _ _ _ ⟨⟩; rfl) fun w₅ out h₅ _ hout => ?_
    refine promises_refuse fun scopeOut24h hout24h => ?_
    refine promises_read (by rintro _ _ _ ⟨⟩; rfl) fun w₆ spendable h₆ _ _ => ?_
    refine promises_read (by rintro _ _ _ ⟨⟩; rfl) fun w₇ fresh h₇ _ _ => ?_
    refine promises_refuse fun admitted hadmitted => ?_
    obtain ⟨hclient, hscope, hsum, record, hrecord, hpolicy⟩ :=
      PayoutRequest.admit_ok hadmitted htotal
    refine World.promises_call.mpr fun w₈ h₈ hi raced w₉ hstep => ?_
    cases hstep with
    | racedPayout => exact ⟨.refl _, hi, promises_repeated⟩
    | commitPayout _ _ _ _ hown =>
      have hlock : w₈.locks (.budget r.scope) = w₂.locks (.budget r.scope) :=
        hown.eq List.mem_cons_self
      have hkeeps := hi.insertPayout ⟨admitted.1, .pending, none, now⟩
        (Held.le_release [(.budget r.scope, w₂.locks (.budget r.scope))] w₈.locks) ?_ ?_
      · exact ⟨hkeeps.evolves, hkeeps.sound, trivial⟩
      · intro _
        rw [hscope]
        exact Held.release_ne _ List.mem_cons_self
      · intro hauto
        have hhere : r.scope = scope := by
          simp only [RecordedPayout.automatic, Bool.and_eq_true, decide_eq_true_eq] at hauto
          exact hscope.symm.trans hauto.1.1
        have hrule : record.policy = policy := by
          cases hreads with
          | outflowReads _ _ _ _ _ _ hunchanged => exact hunchanged record hrecord hhere
        rw [hrule] at hpolicy
        obtain ⟨-, ⟨-, hday⟩, -, hbudget⟩ := ScopePolicy.admitAutoPayout_ok_iff.mp hpolicy
        have hpaid₈ : recent day now (w₈.drawsBy r.client r.scope) ≤ paid24h := by
          cases hpaid
          exact (h₃.trans h₄).paid_read (((h₅.trans h₆).trans h₇).trans h₈) hlock
            (mapError_ok_iff.mp hpaid24h)
        have hout₈ : recent day now (w₈.draws r.scope) ≤ scopeOut24h := by
          cases hout
          exact ((h₃.trans h₄).trans h₅).scopeOut_read ((h₆.trans h₇).trans h₈) hlock
            (mapError_ok_iff.mp hout24h)
        rw [hhere] at hpaid₈ hout₈
        rw [hclient, hsum]
        exact ⟨(Nat.add_le_add_right hout₈ total).trans hbudget,
          (Nat.add_le_add_right hpaid₈ total).trans hday⟩

/-- **`RequestPayout`** keeps every window: what it records unflagged fits the budget. -/
theorem requestPayout_promises (r : RequestPayoutRequest) (key : String) :
    (outflowWorld grants day scope policy).promises (requestPayout sha256Hex grants r key) w := by
  unfold requestPayout
  refine promises_refuse fun _ _ => promises_refuse fun _ _ => promises_refuse fun _ _ => ?_
  refine promises_read (by rintro _ _ _ ⟨⟩; rfl) fun w₀ now _ _ hnow => ?_
  obtain rfl : now = w₀.clock := by cases hnow; rfl
  refine promises_read (by rintro _ _ _ ⟨⟩; rfl) fun w₁ stored h₁ _ _ => ?_
  cases stored with
  | some stored => exact promises_repeated
  | none =>
    refine promises_read (by rintro _ _ _ ⟨⟩; rfl) fun w₂ count h₂ _ hcount => ?_
    obtain rfl : count = w₂.locks (.budget r.scope) := by cases hcount; rfl
    refine promises_read (by rintro _ _ _ ⟨⟩; rfl) fun w₃ out h₃ _ hout => ?_
    refine promises_refuse fun scopeOut24h hout24h => ?_
    refine promises_read (by rintro _ _ _ ⟨⟩; rfl) fun w₄ reads h₄ _ hreads => ?_
    refine promises_read (by rintro _ _ _ ⟨⟩; rfl) fun w₅ spendable h₅ _ _ => ?_
    refine promises_read (by rintro _ _ _ ⟨⟩; rfl) fun w₆ fresh h₆ _ _ => ?_
    refine promises_refuse fun recorded hadmitted => ?_
    obtain ⟨hrequested, hflag⟩ := RequestPayoutRequest.admit_ok hadmitted
    refine World.promises_call.mpr fun w₇ h₇ hi raced w₈ hstep => ?_
    cases hstep with
    | racedOperation => exact ⟨.refl _, hi, promises_repeated⟩
    | commitOperation _ _ _ _ hown hnew =>
      have hlater := ((h₄.trans h₅).trans h₆).trans h₇
      have hkeeps := hi.insertOperation recorded
        (Held.le_release [(.budget r.scope, w₂.locks (.budget r.scope))] w₇.locks) hnew ?_
        hrequested.opened hrequested.awaits ?_ ?_
      · exact ⟨hkeeps.evolves, hkeeps.sound, trivial⟩
      · rw [hrequested.createdAt]
        exact (((h₁.trans h₂).trans h₃).trans hlater).clock
      · intro s hs
        rw [(hflag s hs).1]
        exact Held.release_ne _ List.mem_cons_self
      · intro hs
        obtain ⟨rfl, record, hrecord, hbudget⟩ := hflag scope hs
        have hrule : record.policy = policy := by
          cases hreads with
          | outflowReads _ _ _ _ _ _ hunchanged => exact hunchanged record hrecord rfl
        have hout₇ : recent day w₀.clock (w₇.draws r.scope) ≤ scopeOut24h := by
          cases hout
          exact h₃.scopeOut_read hlater (hown.eq List.mem_cons_self) (mapError_ok_iff.mp hout24h)
        rw [hrule] at hbudget
        rw [hrequested.createdAt]
        exact (Nat.add_le_add_right hout₇ _).trans
          (ScopePolicy.overScopeBudget_eq_false_iff.mp hbudget).2

/-- **`RequestTransfer`** keeps every window: it draws on none. -/
theorem requestTransfer_promises (r : RequestTransferRequest) (key : String) :
    (outflowWorld grants day scope policy).promises (requestTransfer sha256Hex grants r key) w := by
  unfold requestTransfer
  refine promises_refuse fun _ _ => promises_refuse fun _ _ => promises_refuse fun _ _ => ?_
  refine promises_read (by rintro _ _ _ ⟨⟩; rfl) fun w₀ now _ _ hnow => ?_
  obtain rfl : now = w₀.clock := by cases hnow; rfl
  refine promises_read (by rintro _ _ _ ⟨⟩; rfl) fun w₁ stored h₁ _ _ => ?_
  cases stored with
  | some stored => exact promises_repeated
  | none =>
    refine promises_read (by rintro _ _ _ ⟨⟩; rfl) fun w₂ reads h₂ _ _ => ?_
    refine promises_read (by rintro _ _ _ ⟨⟩; rfl) fun w₃ spendable h₃ _ _ => ?_
    refine promises_read (by rintro _ _ _ ⟨⟩; rfl) fun w₄ fresh h₄ _ _ => ?_
    refine promises_refuse fun recorded hadmitted => ?_
    obtain ⟨hrequested, hnone⟩ := RequestTransferRequest.admit_ok hadmitted
    refine World.promises_call.mpr fun w₅ h₅ hi raced w₆ hstep => ?_
    cases hstep with
    | racedOperation => exact ⟨.refl _, hi, promises_repeated⟩
    | commitOperation _ _ _ _ hown hnew =>
      have hkeeps := hi.insertOperation recorded (Held.le_release [] w₅.locks) hnew ?_
        hrequested.opened hrequested.awaits ?_ ?_
      · exact ⟨hkeeps.evolves, hkeeps.sound, trivial⟩
      · rw [hrequested.createdAt]
        exact ((((h₁.trans h₂).trans h₃).trans h₄).trans h₅).clock
      · intro s hs
        simp [hnone] at hs
      · intro hs
        simp [hnone] at hs

/-- **`Transfer`** keeps every window. -/
theorem recordTransfer_promises (client : ClientId) (r : ScopeTransferRequest) (key : String) :
    (outflowWorld grants day scope policy).promises (recordTransfer grants client r key) w := by
  unfold recordTransfer
  refine promises_refuse fun _ _ => promises_refuse fun _ _ => ?_
  refine promises_refuse fun terms hterms => ?_
  refine promises_read (by rintro _ _ _ ⟨⟩; rfl) fun _ fresh _ _ _ => ?_
  refine promises_refuse fun requested hrequest => ?_
  refine promises_read (by rintro _ _ _ ⟨⟩; rfl) fun _ now _ _ _ => ?_
  refine promises_read (by rintro _ _ _ ⟨⟩; rfl) fun _ stored _ _ _ => ?_
  cases stored with
  | some stored => exact promises_repeated
  | none =>
    refine promises_read (by rintro _ _ _ ⟨⟩; rfl) fun w₂ count _ _ hcount => ?_
    obtain rfl : count = w₂.locks (.ceiling client r.scope) := by cases hcount; rfl
    refine promises_read (by rintro _ _ _ ⟨⟩; rfl) fun w₃ reads h₃ _ hreads => ?_
    refine promises_read (by rintro _ _ _ ⟨⟩; rfl) fun w₄ moved h₄ _ hmoved => ?_
    refine promises_refuse fun transferred24h hmoved24h => ?_
    refine promises_read (by rintro _ _ _ ⟨⟩; rfl) fun w₅ spendable h₅ _ _ => ?_
    refine promises_refuse fun _ hadmitted => ?_
    obtain ⟨record, hrecord, hpolicy⟩ := ScopeTransfer.admit_ok hadmitted
    obtain ⟨hclient, hscope, -⟩ := ScopeTransferRequest.accept_terms hterms
    have hasked : requested.1.terms = terms :=
      (ScopeTransfer.restore_ok_iff.mp (ScopeTransfer.request_ok (mapError_ok_iff.mp hrequest)).1).2
    have hsweeps : ∀ c s, (RecordedTransfer.sweep c s ⟨requested.1, .pending, none, now⟩).isSome →
        c = client ∧ s = r.scope := by
      intro c s hsome
      obtain ⟨e, he⟩ := Option.isSome_iff_exists.mp hsome
      have hpasses := (entryIf_some he).1
      simp only [RecordedTransfer.automatic, Bool.and_eq_true, decide_eq_true_eq, hasked, hclient,
        hscope] at hpasses
      exact ⟨hpasses.1.1.1.1.symm, hpasses.1.1.1.2.symm⟩
    refine World.promises_call.mpr fun w₆ h₆ hi raced w₇ hstep => ?_
    cases hstep with
    | racedTransfer => exact ⟨.refl _, hi, promises_repeated⟩
    | commitTransfer _ _ _ _ hown =>
      have hkeeps := hi.insertTransfer ⟨requested.1, .pending, none, now⟩
        (Held.le_release [(.ceiling client r.scope, w₂.locks (.ceiling client r.scope))] w₆.locks)
        ?_ ?_
      · exact ⟨hkeeps.evolves, hkeeps.sound, trivial⟩
      · intro c s hsome
        obtain ⟨rfl, rfl⟩ := hsweeps c s hsome
        exact Held.release_ne _ List.mem_cons_self
      · intro c hsome
        obtain ⟨rfl, rfl⟩ := hsweeps c scope hsome
        have hrule : record.policy = policy := by
          cases hreads with
          | transferReads _ _ _ hunchanged => exact hunchanged record hrecord hscope
        rw [hrule] at hpolicy
        obtain ⟨-, -, hday⟩ := ScopePolicy.admitAutoTransfer_ok_iff.mp hpolicy
        have hmoved₆ : recent day now (w₆.sweeps c r.scope) ≤ transferred24h := by
          cases hmoved
          exact (h₃.trans h₄).transferred_read (h₅.trans h₆) (hown.eq List.mem_cons_self)
            (mapError_ok_iff.mp hmoved24h)
        exact (Nat.add_le_add_right hmoved₆ _).trans hday

/-- **The executor's call** keeps every window: its transaction begins when the operation is there,
so an operation is not executed before it was requested. -/
theorem executeOperation_promises (id : Uuid) :
    (outflowWorld grants day scope policy).promises (executeOperation id) w := by
  unfold executeOperation
  refine promises_read (by rintro _ _ _ ⟨⟩; rfl) fun w₀ found _ hi₀ hfound => ?_
  cases found with
  | none => trivial
  | some r =>
    have hthere : ∃ r ∈ w₀.operations, r.operation.id = id := by
      have hfind : w₀.operations.find? (·.operation.id = id) = some r := by
        generalize some r = answer at hfound
        cases hfound
        rfl
      exact ⟨r, List.mem_of_find?_eq_some hfind, by simpa using List.find?_some hfind⟩
    refine promises_read (by rintro _ _ _ ⟨⟩; rfl) fun w₁ now h₁ hi₁ hnow => ?_
    obtain rfl : now = w₁.clock := by cases hnow; rfl
    refine World.promises_call.mpr fun w₂ h₂ hi a w₃ hstep => ?_
    have hrequested : w₁.RequestedBy id w₁.clock :=
      ⟨(h₁.requested id w₀.clock ⟨hthere, fun r hr _ => hi₀.begun r hr⟩).1,
        fun r hr _ => hi₁.begun r hr⟩
    cases hstep with
    | execute _ _ _ facts spendable fresh =>
      have hkeeps := hi.execute (h₂.requested id _ hrequested) grants facts spendable fresh
      exact ⟨hkeeps.evolves, hkeeps.sound, trivial⟩

/-- **Every call** keeps every window. -/
theorem OutflowCall.promises {p : OutflowProg Unit} (h : OutflowCall sha256Hex grants p) :
    (outflowWorld grants day scope policy).promises p w := by
  have hdone : ∀ {γ : Type} {q : OutflowProg γ},
      (outflowWorld grants day scope policy).promises q w →
      (outflowWorld grants day scope policy).promises (q.bind fun _ => (.ret () : OutflowProg Unit))
        w := fun hq =>
    World.promises_bind (J := fun _ => True) (fun _ _ _ h => h) hq trivial fun _ _ _ => trivial
  cases h with
  | payout r key => exact hdone (recordPayout_promises r key)
  | requestPayout r key => exact hdone (requestPayout_promises r key)
  | requestTransfer r key => exact hdone (requestTransfer_promises r key)
  | transfer client r key => exact hdone (recordTransfer_promises client r key)
  | execute id => exact executeOperation_promises id

end Calls

/-! ## Runs -/

section Runs

variable {sha256Hex : String → String} {grants : Grants} {day : Int} {scope : ScopeId}
  {policy : ScopePolicy} {w w' : OutflowWorld}

/-- **What the others do** keeps every window. -/
theorem OutflowEnv.keeps (henv : OutflowEnv w w') (h : w.Sound day scope policy) :
    w.Keeps day scope policy w' := by
  cases henv with
  | tick hclock =>
    exact ⟨⟨hclock, fun _ => le_rfl, fun _ _ hr => hr, fun _ _ _ => le_rfl, fun _ _ _ _ => le_rfl,
      fun _ _ _ _ => le_rfl⟩, ⟨h.budget, h.payouts, h.transfers,
        fun r hr => (h.begun r hr).trans hclock, h.opened⟩⟩
  | payoutMarked id state why => exact h.payoutMarked id state why
  | transferMarked id state why => exact h.transferMarked id state why
  | feeRouted r hroute =>
    have hsweep : ∀ c s, r.sweep c s = none := fun c s =>
      entryIf_neg (by simp [hroute]) _ _
    refine h.insertTransfer r (fun _ => le_rfl) ?_ ?_
    · intro c s hsome
      simp [hsweep] at hsome
    · intro c hsome
      simp [hsweep] at hsome
  | opened id approvalId level =>
    exact h.update id fun r hr _ => .opened_row (h.opened r hr) approvalId level
  | closed id finish reason now =>
    exact h.update id fun r hr _ => .close_row (h.opened r hr) finish reason now

/-- **Every store the calls reach is sound.** -/
theorem OutflowRuns.sound {c : Config OutflowOp OutflowOp.Ans TransferError Unit OutflowWorld}
    (h : OutflowRuns sha256Hex grants day scope policy c) : c.1.Sound day scope policy := by
  have hempty : OutflowWorld.empty.Sound day scope policy :=
    ⟨.nil _ _, fun _ => .nil _ _, fun _ => .nil _ _, by simp [OutflowWorld.empty],
      by simp [OutflowWorld.empty]⟩
  refine (Runs.promised (S := outflowWorld grants day scope policy) OutflowWorld.Evolves.refl
    OutflowWorld.Evolves.trans ?_ ?_ ?_ h hempty (by simp)).2
  · intro w w' ps henv _ hi
    have hkeeps := henv.keeps hi
    exact ⟨hkeeps.evolves, hkeeps.sound⟩
  · intro w w' op a ps ps' hstep _
    exact hstep
  · intro w p hcall _
    exact hcall.promises

end Runs

/-! ## A day in which the owners decide -/

/-- The grants of the samples. -/
def sampleDesk : Grants := ⟨sampleGrants, sampleGrants_partition⟩

/-- The scope as every sample call finds it. -/
def sampleOutflowReads : OutflowReads where
  scope := some ⟨.active, samplePolicy⟩
  sourceOwner := some ⟨"invest"⟩
  users := [⟨"ann", .raw 1, false⟩]
  destinationOwner := none
  destinationScope := none
  liveOperations := 0

/-- The same at an execution. -/
def sampleOutflowFacts : ExecutionFacts := ⟨some .active, some ⟨"invest"⟩, none, none, []⟩

/-- A store that answers every call at once. -/
def sampleOutflow : (op : OutflowOp) → OutflowWorld → op.Ans × OutflowWorld
  | .begin, w => (w.clock, w)
  | .findRequest _, w => (none, w)
  | .lock l, w => (w.locks l, w)
  | .outflowReads .., w => (sampleOutflowReads, w)
  | .transferReads _, w => (⟨some ⟨.active, samplePolicy⟩, none, none, false⟩, w)
  | .paid24h client place now, w =>
    (sumAmounts (w.paid24h DAY client place now) "payouts in 24 h", w)
  | .scopeOut24h place now, w =>
    (sumAmounts (w.scopeOut24h DAY place now) "scope outflow in 24 h", w)
  | .transferred24h client place now, w =>
    (sumAmounts (w.transferred24h DAY client place now) "transfers in 24 h", w)
  | .spendable .., w => (.ok 100, w)
  | .fresh, w => (⟨.raw 7, 7, by decide, rfl⟩, w)
  | .commitPayout held r _, w =>
    if held.Own w.locks then
      (none, { w with locks := held.release w.locks, payouts := r :: w.payouts })
    else (some ⟨"", ""⟩, w)
  | .commitOperation held r _, w =>
    if held.Own w.locks ∧ ∀ s ∈ w.operations, s.operation.id ≠ r.operation.id then
      (none, { w with locks := held.release w.locks, operations := r :: w.operations })
    else (some ⟨"", ""⟩, w)
  | .commitTransfer _ _ _, w => (some ⟨"", ""⟩, w)
  | .operationById id, w => (w.operations.find? (·.operation.id = id), w)
  | .execute id now, w =>
    w.execute id (·.carry sampleDesk sampleOutflowFacts (.ok 100) (.raw 8)) now

/-- Its answers are answers of the store. -/
theorem sampleOutflow_step (op : OutflowOp) (w : OutflowWorld) :
    OutflowStep sampleDesk DAY ⟨"invest"⟩ samplePolicy op w (sampleOutflow op w).1
      (sampleOutflow op w).2 := by
  cases op with
  | begin => exact .begin w
  | findRequest key => exact .findRequest w key none
  | lock l => exact .lock w l
  | outflowReads place source destination subjects =>
    exact .outflowReads w place source destination subjects sampleOutflowReads (by
      rintro record ⟨⟩ _
      rfl)
  | transferReads terms =>
    exact .transferReads w terms _ (by
      rintro record ⟨⟩ _
      rfl)
  | paid24h client place now => exact .paid24h w client place now
  | scopeOut24h place now => exact .scopeOut24h w place now
  | transferred24h client place now => exact .transferred24h w client place now
  | spendable place label => exact .spendable w place label (.ok 100)
  | fresh => exact .fresh w _
  | commitPayout held r key =>
    dsimp only [sampleOutflow]
    split_ifs with hown
    · exact .commitPayout w held r key hown
    · exact .racedPayout w held r key _
  | commitOperation held r key =>
    dsimp only [sampleOutflow]
    split_ifs with hown
    · exact .commitOperation w held r key hown.1 hown.2
    · exact .racedOperation w held r key _
  | commitTransfer held r key => exact .racedTransfer w held r key _
  | operationById id => exact .operationById w id
  | execute id now => exact .execute w id now _ _ _

theorem invest_shaped : ScopeId.Shaped ⟨"invest"⟩ := by decide

/-- Six units asked for, to be decided by an approval. -/
def sampleLargeAsk : RequestPayoutRequest where
  client := ⟨"invest"⟩
  scope := ⟨"invest"⟩
  fromLabel := ⟨"alloc:a"⟩
  lines := [⟨"ann", 6⟩]
  distribution := true
  subjectRef := ⟨"ref-1"⟩
  memo := ""
  client_shaped := by decide
  scope_shaped := invest_shaped
  from_shaped := by decide

/-- Ten units paid out at once. -/
def sampleQuickPay : PayoutRequest where
  client := ⟨"invest"⟩
  scope := ⟨"invest"⟩
  fromLabel := ⟨"alloc:a"⟩
  lines := [⟨"ann", 10⟩]
  reason := .book
  subjectRef := ⟨"ref-2"⟩
  memo := ""

/-- The store once the six units are requested, -/
def sampleAsked : OutflowWorld :=
  (((requestPayout id sampleDesk sampleLargeAsk "key-1").bind fun _ =>
    (.ret () : OutflowProg Unit)).advance sampleOutflow 8 .empty).2

/-- their approval is opened at the owners' level, -/
def sampleDecided : OutflowWorld :=
  sampleAsked.update (.raw 7) fun r => (r.opened "a1" (some .platform)).2

/-- they are paid out, -/
def sampleExecuted : OutflowWorld :=
  ((executeOperation (.raw 7)).advance sampleOutflow 3 sampleDecided).2

/-- and ten more are paid out at once. -/
def sampleDay : OutflowWorld :=
  (((recordPayout sampleDesk sampleQuickPay "key-2").bind fun _ =>
    (.ret () : OutflowProg Unit)).advance sampleOutflow 9 sampleExecuted).2

/-- The calls reach it. -/
theorem sampleDay_reached :
    ∃ ps, OutflowRuns id sampleDesk DAY ⟨"invest"⟩ samplePolicy (sampleDay, ps) := by
  have hcall : ∀ {p : OutflowProg Unit} (n : Nat) {w : OutflowWorld} {ps : List (OutflowProg Unit)},
      OutflowCall id sampleDesk p → OutflowRuns id sampleDesk DAY ⟨"invest"⟩ samplePolicy (w, ps) →
      OutflowRuns id sampleDesk DAY ⟨"invest"⟩ samplePolicy
        ((p.advance sampleOutflow n w).2, (p.advance sampleOutflow n w).1 :: ps) :=
    fun {p} n w ps hp hrun =>
      (hrun.tail ⟨.start hp, trivial⟩).trans
        (Runs.advance sampleOutflow_step n p w fun _ _ => trivial)
  have hasked := hcall 8 (.requestPayout sampleLargeAsk "key-1") .refl
  have hdecided := Relation.ReflTransGen.tail hasked
    ⟨.env (.opened _ (.raw 7) "a1" (some .platform)), trivial⟩
  exact ⟨_, hcall 9 (.payout sampleQuickPay "key-2") (hcall 3 (.execute (.raw 7)) hdecided)⟩

/-- **A decision of the owners is outside the budget**: six units requested unflagged and executed
under one, and ten paid out automatically in the same day, of a budget of ten. -/
theorem owners_decisions_exceed_budget :
    ¬ ∀ (sha256Hex : String → String) (grants : Grants) (day : Int) (scope : ScopeId)
      (policy : ScopePolicy)
      (c : Config OutflowOp OutflowOp.Ans TransferError Unit OutflowWorld),
      OutflowRuns sha256Hex grants day scope policy c → ∀ lo hi, hi ≤ lo + day →
        c.1.paidIn lo hi scope + c.1.executedIn lo hi (fun _ => true) scope ≤
          policy.scopeBudget24h := by
  intro h
  obtain ⟨ps, hrun⟩ := sampleDay_reached
  have hday := h id sampleDesk DAY ⟨"invest"⟩ samplePolicy (sampleDay, ps) hrun (-1) 0 (by decide)
  have hsum : sampleDay.paidIn (-1) 0 ⟨"invest"⟩ +
      sampleDay.executedIn (-1) 0 (fun _ => true) ⟨"invest"⟩ = 16 := by decide +kernel
  rw [hsum] at hday
  exact absurd hday (by decide)

/-- **A scope's outflow stays within its day's budget.** Whatever calls are made at once, each step
of each in any order and any of them lost anywhere, while approvals are opened and decided and the
ledger takes or refuses what is recorded: in no day do the automatic payouts of a scope that have
not failed and the payout operations executed unflagged, by a decision other than the owners', pass
the scope's budget; nor do a client's automatic payouts or transfers pass its own ceilings. -/
theorem scope_outflow_within_budget {sha256Hex : String → String} {grants : Grants} {day : Int}
    {scope : ScopeId} {policy : ScopePolicy}
    {c : Config OutflowOp OutflowOp.Ans TransferError Unit OutflowWorld}
    (h : OutflowRuns sha256Hex grants day scope policy c) (lo hi : Int) (hday : hi ≤ lo + day) :
    c.1.paidIn lo hi scope + c.1.executedIn lo hi (·.withoutOwners) scope ≤
        policy.scopeBudget24h ∧
      ∀ client, c.1.paidByIn lo hi client scope ≤ policy.autoPayout24h ∧
        c.1.transferredByIn lo hi client scope ≤ policy.autoTransfer24h := by
  have hsound := h.sound
  refine ⟨(c.1.day_le_draws scope).trans (hsound.budget lo hi hday), fun client => ⟨?_, ?_⟩⟩
  · exact (c.1.day_le_drawsBy client scope).trans (hsound.payouts client lo hi hday)
  · exact (c.1.day_le_sweeps client scope).trans (hsound.transfers client lo hi hday)

/-- Of the sample day, what the owners decided is beside the budget. -/
theorem scope_outflow_within_budget_sample :
    sampleDay.paidIn (-1) 0 ⟨"invest"⟩ + sampleDay.executedIn (-1) 0 (·.withoutOwners) ⟨"invest"⟩ ≤
        10 ∧
      ∀ client, sampleDay.paidByIn (-1) 0 client ⟨"invest"⟩ ≤ 10 ∧
        sampleDay.transferredByIn (-1) 0 client ⟨"invest"⟩ ≤ 10 := by
  obtain ⟨ps, hrun⟩ := sampleDay_reached
  exact scope_outflow_within_budget hrun (-1) 0 (by decide)

end Banking
