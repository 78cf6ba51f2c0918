import Banking.MoneyEventLog

/-! # What clients receive of the money-event log

In every run: a client's pages hold every event addressed to it, once and in order; a relayed row
recorded again writes nothing; and no client is shown the balance of an account it does not own. -/

namespace Banking

open CursorLog

/-! ## Positions in order -/

section Table

variable {α : Type} {f : Nat → Option α} {i j : Nat} {v t : α}

theorem update_some_eq_some :
    Function.update f i (some v) j = some t ↔ j = i ∧ v = t ∨ j ≠ i ∧ f j = some t := by
  by_cases hj : j = i <;> simp [hj]

theorem update_none_eq_some : Function.update f i none j = some t ↔ j ≠ i ∧ f j = some t := by
  by_cases hj : j = i <;> simp [hj]

end Table

/-- An append writes its event last, or finds the event's id there. -/
theorem MoneyLog.written_cases (log : MoneyLog) (txn : EventTxn) (event : NewMoneyEvent)
    (rest : List NewMoneyEvent) :
    (∀ r ∈ log.events ++ txn.events, r.event.eventId ≠ event.eventId) ∧
      log.written txn event rest = { txn with
        todo := rest
        events := txn.events ++ [⟨log.next, event⟩]
        deliveries := txn.deliveries ++ (⟨log.next, event⟩ : MoneyEventRow).deliveries } ∨
    (∃ r ∈ log.events ++ txn.events, r.event.eventId = event.eventId) ∧
      log.written txn event rest = { txn with todo := rest } := by
  by_cases h : ∀ r ∈ log.events ++ txn.events, r.event.eventId ≠ event.eventId
  · exact .inl ⟨h, if_pos h⟩
  · refine .inr ⟨?_, if_neg h⟩
    simpa only [not_forall, not_not, exists_prop] using h

/-- What a transaction has written comes after all that is seen, and needs the lock. -/
structure EventTxn.Sequenced (log : MoneyLog) (i : Nat) (txn : EventTxn) : Prop where
  held : log.lock = some i ∨ txn.events = []
  drawn : Drawn (·.position) (log.events ++ txn.events) log.next
  deliveries : txn.deliveries = txn.events.flatMap (·.deliveries)

/-- Rows are seen in the order their positions were drawn in, each with its deliveries. -/
structure MoneyLog.Sequenced (log : MoneyLog) : Prop where
  drawn : Drawn (·.position) log.events log.next
  deliveries : log.deliveries = log.events.flatMap (·.deliveries)
  txn : ∀ i txn, log.txns i = some txn → txn.Sequenced log i

/-- Transactions that are not the lock's holder have written nothing. -/
theorem EventTxn.Sequenced.events_eq_nil {log : MoneyLog} {i j : Nat} {txn : EventTxn}
    (h : txn.Sequenced log j) (hheld : log.lock = some i) (hne : j ≠ i) : txn.events = [] := by
  rcases h.held with hlock | hnil
  · rw [hheld, Option.some.injEq] at hlock
    exact absurd hlock.symm hne
  · exact hnil

/-- A transaction's standing carries over to a log that differs elsewhere. -/
theorem EventTxn.Sequenced.of_eq {log log' : MoneyLog} {i : Nat} {txn : EventTxn}
    (h : txn.Sequenced log i) (hlock : log'.lock = log.lock) (hevents : log'.events = log.events)
    (hnext : log'.next = log.next) : txn.Sequenced log' i :=
  ⟨hlock ▸ h.held, hevents ▸ hnext ▸ h.drawn, h.deliveries⟩

/-- One append keeps the order, written or not. -/
theorem MoneyLog.Sequenced.append {log : MoneyLog} (h : log.Sequenced) {i : Nat} {txn : EventTxn}
    {event : NewMoneyEvent} {rest : List NewMoneyEvent} (htxn : log.txns i = some txn)
    (hheld : log.lock = some i) : (log.append i txn event rest).Sequenced where
  drawn := h.drawn.skip
  deliveries := h.deliveries
  txn j txn' htxn' := by
    have hi := h.txn i txn htxn
    rcases update_some_eq_some.mp htxn' with ⟨rfl, rfl⟩ | ⟨hne, htxn'⟩
    · rcases log.written_cases txn event rest with ⟨-, hwritten⟩ | ⟨-, hwritten⟩ <;> rw [hwritten]
      · refine ⟨.inl hheld, ?_, ?_⟩
        · rw [← List.append_assoc]
          exact hi.drawn.draw rfl
        · rw [List.flatMap_append, hi.deliveries, List.flatMap_singleton]
      · exact ⟨.inl hheld, hi.drawn.skip, hi.deliveries⟩
    · have hj := h.txn j txn' htxn'
      refine ⟨.inr (hj.events_eq_nil hheld hne), ?_, hj.deliveries⟩
      rw [hj.events_eq_nil hheld hne, List.append_nil]
      exact h.drawn.skip

/-- A transaction whose lock is free afterwards, beside another one's end. -/
theorem EventTxn.Sequenced.released {log : MoneyLog} {i j : Nat} {txn : EventTxn}
    (h : txn.Sequenced log j) (hne : j ≠ i) : log.released i = some j ∨ txn.events = [] := by
  rcases h.held with hlock | hnil
  · refine .inl ?_
    rw [MoneyLog.released, hlock, if_neg fun heq => hne (Option.some.inj heq)]
  · exact .inr hnil

/-- A commit makes seen what comes after all that was seen. -/
theorem MoneyLog.Sequenced.commit {log : MoneyLog} (h : log.Sequenced) {i : Nat} {txn : EventTxn}
    (htxn : log.txns i = some txn) : (log.commit i txn).Sequenced where
  drawn := (h.txn i txn htxn).drawn
  deliveries := by
    simp only [MoneyLog.commit, List.flatMap_append, h.deliveries,
      (h.txn i txn htxn).deliveries]
  txn j txn' htxn' := by
    obtain ⟨hne, htxn'⟩ := update_none_eq_some.mp htxn'
    have hi := h.txn i txn htxn
    have hj := h.txn j txn' htxn'
    refine ⟨hj.released hne, ?_, hj.deliveries⟩
    -- of two transactions only one has written anything
    rcases hi.held with hheld | hnil
    · simp only [MoneyLog.commit]
      rw [hj.events_eq_nil hheld hne, List.append_nil]
      exact hi.drawn
    · simp only [MoneyLog.commit]
      rw [hnil, List.append_nil]
      exact hj.drawn

theorem MoneyLog.Sequenced.step {grants : Grants} {log log' : MoneyLog} (h : log.Sequenced)
    (hstep : log.Step grants log') : log'.Sequenced := by
  cases hstep with
  | @begins i txn hfree hbegins =>
    refine ⟨h.drawn, h.deliveries, fun j txn' htxn' => ?_⟩
    rcases update_some_eq_some.mp htxn' with ⟨rfl, rfl⟩ | ⟨-, htxn'⟩
    · cases hbegins <;> exact ⟨.inr rfl, by simpa using h.drawn, rfl⟩
    · exact (h.txn j txn' htxn').of_eq rfl rfl rfl
  | @locks i txn htxn hfree =>
    refine ⟨h.drawn, h.deliveries, fun j txn' htxn' => ?_⟩
    have hj := h.txn j txn' htxn'
    refine ⟨.inr ?_, hj.drawn, hj.deliveries⟩
    simpa [hfree] using hj.held
  | appends htxn htodo hheld => exact h.append htxn hheld
  | commits htxn hdone => exact h.commit htxn
  | aborts htxn =>
    refine ⟨h.drawn, h.deliveries, fun j txn' htxn' => ?_⟩
    obtain ⟨hne, htxn'⟩ := update_none_eq_some.mp htxn'
    have hj := h.txn j txn' htxn'
    exact ⟨hj.released hne, hj.drawn, hj.deliveries⟩
  | feeOpened hseen hopen =>
    exact ⟨h.drawn, h.deliveries, fun j t ht => (h.txn j t ht).of_eq rfl rfl rfl⟩
  | payoutRecorded facts hnew =>
    exact ⟨h.drawn, h.deliveries, fun j t ht => (h.txn j t ht).of_eq rfl rfl rfl⟩
  | joins client scope hnew =>
    exact ⟨h.drawn, h.deliveries, fun j t ht => (h.txn j t ht).of_eq rfl rfl rfl⟩
  | pulls hreader hpull =>
    exact ⟨h.drawn, h.deliveries, fun j t ht => (h.txn j t ht).of_eq rfl rfl rfl⟩

/-! ## Balances of their owners -/

/-- An event's balances are of accounts the tables say their owners have. -/
def NewMoneyEvent.Owned (owners : ScopeId → ScopeAccountLabel → Option ClientId)
    (e : NewMoneyEvent) : Prop :=
  ∀ b ∈ e.balances, owners e.scope b.label = some b.owner

/-- Accounts keep their owners. -/
def OwnersGrow (owners owners' : ScopeId → ScopeAccountLabel → Option ClientId) : Prop :=
  ∀ scope label client, owners scope label = some client → owners' scope label = some client

theorem NewMoneyEvent.Owned.grow {owners owners' : ScopeId → ScopeAccountLabel → Option ClientId}
    {e : NewMoneyEvent} (h : e.Owned owners) (hgrow : OwnersGrow owners owners') :
    e.Owned owners' :=
  fun b hb => hgrow _ _ _ (h b hb)

/-- An account opened where there was none changes no other's owner. -/
theorem ownersGrow_ownersWith {owners : ScopeId → ScopeAccountLabel → Option ClientId}
    {opened : Option OwnedAccount}
    (h : ∀ account, opened = some account → owners account.scope account.label = none) :
    OwnersGrow owners (ownersWith owners opened) := by
  intro scope label client hclient
  cases opened with
  | none => exact hclient
  | some account =>
    simp only [ownersWith]
    split
    · rename_i hkey
      rw [hkey.1, hkey.2, h account rfl] at hclient
      exact absurd hclient nofun
    · exact hclient

theorem OwnersGrow.with {owners owners' : ScopeId → ScopeAccountLabel → Option ClientId}
    (h : OwnersGrow owners owners') (opened : Option OwnedAccount) :
    OwnersGrow (ownersWith owners opened) (ownersWith owners' opened) := by
  intro scope label client hclient
  cases opened with
  | none => exact h scope label client hclient
  | some account =>
    simp only [ownersWith] at hclient ⊢
    split
    · rename_i hkey
      simpa [hkey] using hclient
    · rename_i hkey
      exact h scope label client (by simpa [hkey] using hclient)

/-- What a transaction has written, or will: its events. -/
def EventTxn.told (txn : EventTxn) : List NewMoneyEvent := txn.todo ++ txn.events.map (·.event)

/-- Every balance in the log, or about to be there, is its account's owner's; and no two
transactions open one account. -/
structure MoneyLog.Owning (log : MoneyLog) : Prop where
  seen : ∀ r ∈ log.events, r.event.Owned log.owners
  written : ∀ i txn, log.txns i = some txn →
    ∀ e ∈ txn.told, e.Owned (ownersWith log.owners txn.opened)
  unseen : ∀ i txn account, log.txns i = some txn → txn.opened = some account →
    log.owners account.scope account.label = none
  apart : ∀ i j txn other a b, log.txns i = some txn → log.txns j = some other →
    txn.opened = some a → other.opened = some b → i ≠ j → ¬ (a.scope = b.scope ∧ a.label = b.label)

/-- A step that moves no money shows no balance. -/
theorem NewMoneyEvent.Direct.balances {e : NewMoneyEvent} (h : e.Direct) : e.balances = [] := by
  cases h with
  | holdRefused | operation | mandate => rfl
  | invoiceStep h =>
    unfold Banking.invoiceStep at h
    split at h
    case h_4 => exact nomatch h
    all_goals
      obtain rfl := Except.ok.inj h
      rfl

/-- What a transaction sets out to write is owned once the account it opened is seen. -/
theorem EventTxn.Begins.owned {log : MoneyLog} {txn : EventTxn} (h : txn.Begins log) :
    ∀ e ∈ txn.told, e.Owned (ownersWith log.owners txn.opened) := by
  intro e he
  cases h with
  | opening account hseen hopen =>
    obtain rfl := List.mem_singleton.mp he
    intro b hb
    obtain rfl := List.mem_singleton.mp hb
    simp [ownersWith, accountOpened]
  | direct hdirect =>
    intro b hb
    rw [(hdirect e (by simpa [EventTxn.told] using he)).balances] at hb
    exact (List.not_mem_nil hb).elim
  | recording hrelayed hanswered =>
    intro b hb
    have hmade := EventReads.relayed_made hanswered.payout hrelayed
    exact hanswered.owner _ _ _
      (EventReads.relayed_owner hmade e (by simpa [EventTxn.told] using he) b hb)

/-- An append moves an event from what is to be written to what is, or drops it. -/
theorem MoneyLog.mem_told_written {log : MoneyLog} {txn : EventTxn} {event : NewMoneyEvent}
    {rest : List NewMoneyEvent} (htodo : txn.todo = event :: rest) :
    ∀ e ∈ (log.written txn event rest).told, e ∈ txn.told := by
  intro e he
  rcases log.written_cases txn event rest with ⟨-, hwritten⟩ | ⟨-, hwritten⟩ <;>
    rw [hwritten] at he <;> simp only [EventTxn.told, htodo, List.mem_append, List.mem_cons,
      List.map_append, List.map_cons, List.map_nil, List.not_mem_nil, or_false] at he ⊢
  · rcases he with he | he | he
    · exact .inl (.inr he)
    · exact .inr he
    · exact .inl (.inl he)
  · rcases he with he | he
    · exact .inl (.inr he)
    · exact .inr he

theorem MoneyLog.written_opened (log : MoneyLog) (txn : EventTxn) (event : NewMoneyEvent)
    (rest : List NewMoneyEvent) : (log.written txn event rest).opened = txn.opened := by
  unfold MoneyLog.written
  split <;> rfl

theorem MoneyLog.written_record (log : MoneyLog) (txn : EventTxn) (event : NewMoneyEvent)
    (rest : List NewMoneyEvent) : (log.written txn event rest).record = txn.record := by
  unfold MoneyLog.written
  split <;> rfl

/-- **A commit keeps it**: the account it opens is seen with the event that shows it. -/
theorem MoneyLog.Owning.commit {log : MoneyLog} (h : log.Owning) {i : Nat} {txn : EventTxn}
    (htxn : log.txns i = some txn) : (log.commit i txn).Owning := by
  have hgrow : OwnersGrow log.owners (ownersWith log.owners txn.opened) :=
    ownersGrow_ownersWith fun account hopened => h.unseen i txn account htxn hopened
  refine ⟨?_, ?_, ?_, ?_⟩
  · intro r hr
    rcases List.mem_append.mp hr with hr | hr
    · exact (h.seen r hr).grow hgrow
    · exact h.written i txn htxn _ (List.mem_append_right _ (List.mem_map_of_mem hr))
  · intro j other hother e he
    obtain ⟨-, hother⟩ := update_none_eq_some.mp hother
    exact (h.written j other hother e he).grow (hgrow.with other.opened)
  · intro j other account hother hopened
    obtain ⟨hne, hother⟩ := update_none_eq_some.mp hother
    have hunseen := h.unseen j other account hother hopened
    cases hmine : txn.opened with
    | none => simpa [MoneyLog.commit, hmine, ownersWith] using hunseen
    | some mine =>
      have hapart := h.apart j i other txn account mine hother htxn hopened hmine hne
      simp only [MoneyLog.commit, hmine, ownersWith, if_neg hapart, hunseen]
  · intro j k other other' a b hother hother' ha hb hne
    obtain ⟨-, hother⟩ := update_none_eq_some.mp hother
    obtain ⟨-, hother'⟩ := update_none_eq_some.mp hother'
    exact h.apart j k other other' a b hother hother' ha hb hne

theorem MoneyLog.Owning.append {log : MoneyLog} (h : log.Owning) {i : Nat} {txn : EventTxn}
    {event : NewMoneyEvent} {rest : List NewMoneyEvent} (htxn : log.txns i = some txn)
    (htodo : txn.todo = event :: rest) : (log.append i txn event rest).Owning := by
  -- the transactions are as they were, but for what one has still to write
  have hback : ∀ j other, (log.append i txn event rest).txns j = some other →
      ∃ other', log.txns j = some other' ∧ other.opened = other'.opened ∧
        ∀ e ∈ other.told, e ∈ other'.told := by
    intro j other hother
    rcases update_some_eq_some.mp hother with ⟨rfl, rfl⟩ | ⟨-, hother⟩
    · exact ⟨txn, htxn, log.written_opened txn event rest, MoneyLog.mem_told_written htodo⟩
    · exact ⟨other, hother, rfl, fun e he => he⟩
  refine ⟨h.seen, ?_, ?_, ?_⟩
  · intro j other hother e he
    obtain ⟨other', hother', hopened, hmem⟩ := hback j other hother
    rw [hopened]
    exact h.written j other' hother' e (hmem e he)
  · intro j other account hother hopened
    obtain ⟨other', hother', heq, -⟩ := hback j other hother
    exact h.unseen j other' account hother' (heq ▸ hopened)
  · intro j k other other' a b hother hother' ha hb hne
    obtain ⟨mine, hmine, hminea, -⟩ := hback j other hother
    obtain ⟨yours, hyours, hyoursb, -⟩ := hback k other' hother'
    exact h.apart j k mine yours a b hmine hyours (hminea ▸ ha) (hyoursb ▸ hb) hne

theorem MoneyLog.Owning.step {grants : Grants} {log log' : MoneyLog} (h : log.Owning)
    (hstep : log.Step grants log') : log'.Owning := by
  cases hstep with
  | @begins i txn hfree hbegins =>
    have hnew : ∀ account, txn.opened = some account →
        log.owners account.scope account.label = none ∧
          ∀ j other b, log.txns j = some other → other.opened = some b →
            ¬ (b.scope = account.scope ∧ b.label = account.label) := by
      intro account hopened
      cases hbegins with
      | opening mine hseen hopen =>
        obtain rfl := Option.some.inj hopened
        exact ⟨hseen, hopen⟩
      | direct | recording => exact nomatch hopened
    refine ⟨h.seen, ?_, ?_, ?_⟩
    · intro j other hother
      rcases update_some_eq_some.mp hother with ⟨rfl, rfl⟩ | ⟨-, hother⟩
      · exact hbegins.owned
      · exact h.written j other hother
    · intro j other account hother hopened
      rcases update_some_eq_some.mp hother with ⟨rfl, rfl⟩ | ⟨-, hother⟩
      · exact (hnew account hopened).1
      · exact h.unseen j other account hother hopened
    · intro j k other other' a b hother hother' ha hb hne
      rcases update_some_eq_some.mp hother with ⟨rfl, rfl⟩ | ⟨-, hmine⟩
      · rcases update_some_eq_some.mp hother' with ⟨rfl, rfl⟩ | ⟨-, hother'⟩
        · exact absurd rfl hne
        · exact fun hkey => (hnew a ha).2 k other' b hother' hb ⟨hkey.1.symm, hkey.2.symm⟩
      · rcases update_some_eq_some.mp hother' with ⟨rfl, rfl⟩ | ⟨-, hbefore⟩
        · exact (hnew b hb).2 j other a hmine ha
        · exact h.apart j k other other' a b hmine hbefore ha hb hne
  | locks htxn hfree => exact ⟨h.seen, h.written, h.unseen, h.apart⟩
  | appends htxn htodo hheld => exact h.append htxn htodo
  | commits htxn hdone => exact h.commit htxn
  | aborts htxn =>
    refine ⟨h.seen, ?_, ?_, ?_⟩
    · intro j other hother
      exact h.written j other (update_none_eq_some.mp hother).2
    · intro j other account hother
      exact h.unseen j other account (update_none_eq_some.mp hother).2
    · intro j k other other' a b hother hother'
      exact h.apart j k other other' a b (update_none_eq_some.mp hother).2
        (update_none_eq_some.mp hother').2
  | @feeOpened scope label hseen hopen =>
    have hgrow : OwnersGrow log.owners (ownersWith log.owners (some ⟨scope, label, .banking⟩)) :=
      ownersGrow_ownersWith fun account haccount => by
        obtain rfl := Option.some.inj haccount
        exact hseen
    refine ⟨?_, ?_, ?_, h.apart⟩
    · exact fun r hr => (h.seen r hr).grow hgrow
    · exact fun j other hother e he => (h.written j other hother e he).grow (hgrow.with _)
    · intro j other account hother hopened
      have hunseen := h.unseen j other account hother hopened
      simp only [ownersWith, if_neg (hopen j other account hother hopened), hunseen]
  | payoutRecorded facts hnew => exact ⟨h.seen, h.written, h.unseen, h.apart⟩
  | joins client scope hnew => exact ⟨h.seen, h.written, h.unseen, h.apart⟩
  | pulls hreader hpull => exact ⟨h.seen, h.written, h.unseen, h.apart⟩

/-! ## Once for each thing told -/

/-- The ids of some rows' events. -/
def eventIds (rows : List MoneyEventRow) : List Uuid := rows.map (·.event.eventId)

/-- The ids of what an outbox row tells of. -/
def MoneyLog.idsOf (log : MoneyLog) (row : OutboxRow) : List Uuid :=
  (row.tells log.payouts).map Occurrence.eventId

/-- A transaction that records an outbox row: it writes what the row tells of, each unless it is
there already, and nothing of a row recorded before. -/
structure EventTxn.Records (log : MoneyLog) (txn : EventTxn) (row : OutboxRow) : Prop where
  settled : row.Settled log.payouts
  within : ∀ e ∈ txn.told, e.eventId ∈ log.idsOf row
  covers : ∀ id ∈ log.idsOf row,
    id ∈ txn.todo.map (·.eventId) ∨ id ∈ eventIds (log.events ++ txn.events)
  again : row ∈ log.recorded → txn.events = []

/-- No id is in the log twice, and all a recorded row tells of is there. -/
structure MoneyLog.Once (log : MoneyLog) : Prop where
  unique : (eventIds log.events).Nodup
  fresh : ∀ i txn, log.txns i = some txn → (eventIds (log.events ++ txn.events)).Nodup
  recording : ∀ i txn row, log.txns i = some txn → txn.record = some row → txn.Records log row
  recorded : ∀ row ∈ log.recorded,
    row.Settled log.payouts ∧ ∀ id ∈ log.idsOf row, id ∈ eventIds log.events

theorem EventTxn.Begins.records {log : MoneyLog} {txn : EventTxn} (h : txn.Begins log)
    {row : OutboxRow} (hrow : txn.record = some row) : txn.Records log row := by
  cases h with
  | opening | direct => exact nomatch hrow
  | @recording recorded reads events hrelayed hanswered =>
    obtain rfl := Option.some.inj hrow
    have hids := EventReads.relayed_ids (EventReads.relayed_made hanswered.payout hrelayed)
    refine ⟨EventReads.relayed_settled hanswered.payout hrelayed, ?_, ?_, fun _ => rfl⟩
    · intro e he
      have hmem : e ∈ events := by simpa [EventTxn.told] using he
      rw [MoneyLog.idsOf, ← hids]
      exact List.mem_map_of_mem hmem
    · intro id hid
      rw [MoneyLog.idsOf, ← hids] at hid
      exact .inl hid

/-- A transaction's standing carries over to a log with the same rows, or more. -/
theorem EventTxn.Records.of_eq {log log' : MoneyLog} {txn : EventTxn} {row : OutboxRow}
    (h : txn.Records log row) (hpayouts : log'.payouts = log.payouts)
    (hevents : log'.events = log.events) (hrecorded : log'.recorded = log.recorded) :
    txn.Records log' row := by
  have hids : log'.idsOf row = log.idsOf row := by rw [MoneyLog.idsOf, MoneyLog.idsOf, hpayouts]
  exact ⟨hpayouts ▸ h.settled, hids ▸ h.within, hids ▸ hevents ▸ h.covers, hrecorded ▸ h.again⟩

theorem MoneyLog.Once.append {log : MoneyLog} (h : log.Once) {i : Nat} {txn : EventTxn}
    {event : NewMoneyEvent} {rest : List NewMoneyEvent} (htxn : log.txns i = some txn)
    (htodo : txn.todo = event :: rest) : (log.append i txn event rest).Once where
  unique := h.unique
  fresh j other hother := by
    rcases update_some_eq_some.mp hother with ⟨rfl, rfl⟩ | ⟨-, hother⟩
    · have hnodup := h.fresh j txn htxn
      rcases log.written_cases txn event rest with ⟨hnew, hwritten⟩ | ⟨-, hwritten⟩ <;>
        rw [hwritten]
      · rw [eventIds, ← List.append_assoc, List.map_append, List.nodup_append]
        refine ⟨hnodup, List.nodup_singleton _, ?_⟩
        rintro id hid _ hmem rfl
        obtain ⟨r, hr, hrid⟩ := List.mem_map.mp hid
        exact hnew r hr (hrid.trans (List.mem_singleton.mp hmem))
      · exact hnodup
    · exact h.fresh j other hother
  recording j other row hother hrow := by
    rcases update_some_eq_some.mp hother with ⟨rfl, rfl⟩ | ⟨-, hother⟩
    · have hrec := h.recording j txn row htxn (log.written_record txn event rest ▸ hrow)
      have hwithin : ∀ e ∈ (log.written txn event rest).told, e.eventId ∈ log.idsOf row :=
        fun e he => hrec.within e (MoneyLog.mem_told_written htodo e he)
      refine ⟨hrec.settled, hwithin, ?_, ?_⟩
      · -- what it drops is there already
        intro id hid
        have hcovers := hrec.covers id hid
        rw [htodo, List.map_cons, List.mem_cons, or_assoc] at hcovers
        rcases log.written_cases txn event rest with ⟨-, hwritten⟩ | ⟨⟨r, hr, hrid⟩, hwritten⟩ <;>
          rw [hwritten]
        · have hids : eventIds (log.events ++ (txn.events ++ [⟨log.next, event⟩])) =
              eventIds (log.events ++ txn.events) ++ [event.eventId] := by
            rw [eventIds, ← List.append_assoc, List.map_append]
            rfl
          simp only [MoneyLog.append, hids, List.mem_append, List.mem_singleton]
          rcases hcovers with heq | hrest | hthere
          · exact .inr (.inr heq)
          · exact .inl hrest
          · exact .inr (.inl hthere)
        · rcases hcovers with rfl | hrest | hthere
          · exact .inr (List.mem_map.mpr ⟨r, hr, hrid⟩)
          · exact .inl hrest
          · exact .inr hthere
      · intro hagain
        have hnil := hrec.again hagain
        obtain ⟨-, hall⟩ := h.recorded row hagain
        have hthere : event.eventId ∈ eventIds log.events :=
          hall _ (hrec.within event (by simp [EventTxn.told, htodo]))
        obtain ⟨r, hr, hrid⟩ := List.mem_map.mp hthere
        rcases log.written_cases txn event rest with ⟨hnew, -⟩ | ⟨-, hwritten⟩
        · exact absurd hrid (hnew r (List.mem_append_left _ hr))
        · rw [hwritten]
          exact hnil
    · exact (h.recording j other row hother hrow).of_eq rfl rfl rfl
  recorded := h.recorded

/-- **A commit keeps it**: of two transactions that record one row, only the first has written. -/
theorem MoneyLog.Once.commit {log : MoneyLog} (h : log.Once) (hseq : log.Sequenced) {i : Nat}
    {txn : EventTxn} (htxn : log.txns i = some txn) (hdone : txn.todo = []) :
    (log.commit i txn).Once where
  unique := h.fresh i txn htxn
  fresh j other hother := by
    obtain ⟨hne, hother⟩ := update_none_eq_some.mp hother
    rcases (hseq.txn i txn htxn).held with hheld | hnil
    · rw [(hseq.txn j other hother).events_eq_nil hheld hne, List.append_nil]
      exact h.fresh i txn htxn
    · simp only [MoneyLog.commit, hnil, List.append_nil]
      exact h.fresh j other hother
  recording j other row hother hrow := by
    obtain ⟨hne, hother⟩ := update_none_eq_some.mp hother
    have hrec := h.recording j other row hother hrow
    refine ⟨hrec.settled, hrec.within, ?_, ?_⟩
    · intro id hid
      rcases hrec.covers id hid with htodo | hthere
      · exact .inl htodo
      · refine .inr ?_
        simp only [eventIds, MoneyLog.commit, List.map_append, List.mem_append] at hthere ⊢
        rcases hthere with hthere | hthere
        · exact .inl (.inl hthere)
        · exact .inr hthere
    · intro hagain
      rcases List.mem_append.mp hagain with hmine | hbefore
      · rcases (hseq.txn i txn htxn).held with hheld | hnil
        · exact (hseq.txn j other hother).events_eq_nil hheld hne
        · -- all the row tells of is seen, so what the other has written is no part of it
          have hrecord : txn.record = some row := by simpa using hmine
          have hcovers := (h.recording i txn row htxn hrecord).covers
          rw [hdone, hnil, List.append_nil] at hcovers
          rw [List.eq_nil_iff_forall_not_mem]
          intro r hr
          have hwithin := hrec.within r.event (by
            simp only [EventTxn.told, List.mem_append]
            exact .inr (List.mem_map_of_mem hr))
          have hseen : r.event.eventId ∈ eventIds log.events := by simpa using hcovers _ hwithin
          have hnodup := h.fresh j other hother
          rw [eventIds, List.map_append, List.nodup_append] at hnodup
          exact hnodup.2.2 _ hseen _ (List.mem_map_of_mem hr) rfl
      · exact hrec.again hbefore
  recorded row hrow := by
    rcases List.mem_append.mp hrow with hmine | hbefore
    · have hrec := h.recording i txn row htxn (by simpa using hmine)
      refine ⟨hrec.settled, fun id hid => ?_⟩
      have hcovers : id ∈ eventIds (log.events ++ txn.events) := by
        simpa [hdone] using hrec.covers id hid
      exact hcovers
    · obtain ⟨hsettled, hall⟩ := h.recorded row hbefore
      refine ⟨hsettled, fun id hid => ?_⟩
      simp only [eventIds, MoneyLog.commit, List.map_append, List.mem_append]
      exact .inl (hall id hid)

theorem MoneyLog.Once.step {grants : Grants} {log log' : MoneyLog} (h : log.Once)
    (hseq : log.Sequenced) (hstep : log.Step grants log') : log'.Once := by
  cases hstep with
  | @begins i txn hfree hbegins =>
    refine ⟨h.unique, ?_, ?_, h.recorded⟩
    · intro j other hother
      rcases update_some_eq_some.mp hother with ⟨rfl, rfl⟩ | ⟨-, hother⟩
      · have hnil : txn.events = [] := by cases hbegins <;> rfl
        rw [hnil, List.append_nil]
        exact h.unique
      · exact h.fresh j other hother
    · intro j other row hother hrow
      rcases update_some_eq_some.mp hother with ⟨rfl, rfl⟩ | ⟨-, hother⟩
      · exact (hbegins.records hrow).of_eq rfl rfl rfl
      · exact (h.recording j other row hother hrow).of_eq rfl rfl rfl
  | appends htxn htodo hheld => exact h.append htxn htodo
  | commits htxn hdone => exact h.commit hseq htxn hdone
  | aborts htxn =>
    refine ⟨h.unique, ?_, ?_, h.recorded⟩
    · intro j other hother
      exact h.fresh j other (update_none_eq_some.mp hother).2
    · intro j other row hother hrow
      exact (h.recording j other row (update_none_eq_some.mp hother).2 hrow).of_eq rfl rfl rfl
  | @payoutRecorded id facts hnew =>
    have hids : ∀ row : OutboxRow, row.Settled log.payouts →
        (row.tells (Function.update log.payouts id (some facts))).map Occurrence.eventId =
          log.idsOf row :=
      fun row hsettled => by rw [OutboxRow.tells_update facts hnew hsettled, MoneyLog.idsOf]
    refine ⟨h.unique, h.fresh, ?_, ?_⟩
    · intro j other row hother hrow
      have hrec := h.recording j other row hother hrow
      refine ⟨hrec.settled.update facts, ?_, ?_, hrec.again⟩
      · intro e he
        rw [MoneyLog.idsOf, hids row hrec.settled]
        exact hrec.within e he
      · intro eventId hid
        rw [MoneyLog.idsOf, hids row hrec.settled] at hid
        exact hrec.covers eventId hid
    · intro row hrow
      obtain ⟨hsettled, hall⟩ := h.recorded row hrow
      refine ⟨hsettled.update facts, fun eventId hid => ?_⟩
      rw [MoneyLog.idsOf, hids row hsettled] at hid
      exact hall eventId hid
  | locks htxn hfree =>
    exact ⟨h.unique, h.fresh,
      fun j other row hother hrow => (h.recording j other row hother hrow).of_eq rfl rfl rfl,
      h.recorded⟩
  | feeOpened hseen hopen =>
    exact ⟨h.unique, h.fresh,
      fun j other row hother hrow => (h.recording j other row hother hrow).of_eq rfl rfl rfl,
      h.recorded⟩
  | joins client scope hnew =>
    exact ⟨h.unique, h.fresh,
      fun j other row hother hrow => (h.recording j other row hother hrow).of_eq rfl rfl rfl,
      h.recorded⟩
  | pulls hreader hpull =>
    exact ⟨h.unique, h.fresh,
      fun j other row hother hrow => (h.recording j other row hother hrow).of_eq rfl rfl rfl,
      h.recorded⟩

/-! ## What a reader has received -/

/-- The seen events addressed to a client in some scopes. -/
def MoneyLog.addressed (log : MoneyLog) (client : ClientId) (scopes : List ScopeId) :
    List MoneyEventRow :=
  log.events.filter fun r => client ∈ r.event.recipients ∧ r.event.scope ∈ scopes

/-- A row's delivery to a client, where there is one, leads back to the row. -/
theorem MoneyLog.Sequenced.joined {log : MoneyLog} (h : log.Sequenced) {r : MoneyEventRow}
    (hr : r ∈ log.events) (client : ClientId) (scopes : List ScopeId) (after : Int) :
    ((r.deliveries.filter fun d =>
      d.client = client ∧ after < d.position ∧ d.scope ∈ scopes).flatMap fun d =>
        log.events.filter fun r => r.position = d.position) =
    if (client ∈ r.event.recipients ∧ r.event.scope ∈ scopes) ∧ after < r.position then [r]
    else [] := by
  have hjoin : log.events.filter (fun r' => r'.position = r.position) = [r] :=
    h.drawn.filter_pos hr
  have hone : r.event.recipients.filter (fun c => c = client) =
      if client ∈ r.event.recipients then [client] else [] := by
    rw [List.filter_eq]
    split
    · rename_i hmem
      have hcount : r.event.recipients.count client = 1 :=
        List.count_eq_one_of_mem (List.nodup_dedup _) hmem
      rw [hcount, List.replicate_one]
    · rename_i hmem
      rw [List.count_eq_zero_of_not_mem hmem, List.replicate_zero]
  have hfilter : (r.deliveries.filter fun d =>
      d.client = client ∧ after < d.position ∧ d.scope ∈ scopes) =
      if (client ∈ r.event.recipients ∧ r.event.scope ∈ scopes) ∧ after < r.position then
        [⟨client, r.position, r.event.scope⟩]
      else [] := by
    rw [MoneyEventRow.deliveries, List.filter_map]
    by_cases hpast : after < r.position ∧ r.event.scope ∈ scopes
    · have hsame : r.event.recipients.filter ((fun d : MoneyEventDelivery =>
          decide (d.client = client ∧ after < d.position ∧ d.scope ∈ scopes)) ∘
          fun client => ⟨client, r.position, r.event.scope⟩) =
          r.event.recipients.filter (fun c => c = client) := by
        refine List.filter_congr fun c _ => ?_
        simp [hpast.1, hpast.2]
      rw [hsame, hone]
      by_cases hmem : client ∈ r.event.recipients <;> simp [hmem, hpast.1, hpast.2]
    · have hnone : r.event.recipients.filter ((fun d : MoneyEventDelivery =>
          decide (d.client = client ∧ after < d.position ∧ d.scope ∈ scopes)) ∘
          fun client => ⟨client, r.position, r.event.scope⟩) = [] := by
        rw [List.filter_eq_nil_iff]
        intro c _
        simp only [Function.comp_apply, decide_eq_true_eq]
        exact fun hall => hpast hall.2
      rw [hnone, List.map_nil, if_neg fun hall => hpast ⟨hall.2, hall.1.2⟩]
  rw [hfilter]
  split
  · rw [List.flatMap_singleton, hjoin]
  · rfl

/-- **The rows delivered** past a position are the addressed ones past it, in order. -/
theorem MoneyLog.Sequenced.delivered {log : MoneyLog} (h : log.Sequenced) (client : ClientId)
    (scopes : List ScopeId) (after : Int) :
    log.delivered client scopes after =
      past (·.position) (log.addressed client scopes) after := by
  have hflat : ((log.deliveries.filter fun d =>
      d.client = client ∧ after < d.position ∧ d.scope ∈ scopes).flatMap fun d =>
        log.events.filter fun r => r.position = d.position) =
      past (·.position) (log.addressed client scopes) after := by
    rw [h.deliveries, List.filter_flatMap, List.flatMap_assoc,
      List.flatMap_congr fun r hr => h.joined hr client scopes after, past, MoneyLog.addressed,
      List.filter_filter]
    generalize log.events = rows
    induction rows with
    | nil => rfl
    | cons r rows ih =>
      rw [List.flatMap_cons, ih, List.filter_cons]
      by_cases haddressed : client ∈ r.event.recipients ∧ r.event.scope ∈ scopes <;>
        by_cases hpast : after < r.position <;> simp [haddressed, hpast]
  have hordered : (past (·.position) (log.addressed client scopes) after).Pairwise
      fun r r' => r.position ≤ r'.position :=
    (h.drawn.ordered.sublist (List.filter_sublist.trans List.filter_sublist)).imp Int.le_of_lt
  rw [MoneyLog.delivered, hflat]
  exact hordered.insertionSort_eq

/-- A position before all that is still to be seen. -/
structure MoneyLog.Behind (log : MoneyLog) (cursor : Int) : Prop where
  next : cursor < log.next
  written : ∀ i txn, log.txns i = some txn → ∀ r ∈ txn.events, cursor < r.position

/-- **What is still to be seen stays ahead**, whoever writes and commits. -/
theorem MoneyLog.Behind.step {grants : Grants} {log log' : MoneyLog} {cursor : Int}
    (h : log.Behind cursor) (hstep : log.Step grants log') : log'.Behind cursor := by
  cases hstep with
  | @begins i txn hfree hbegins =>
    refine ⟨h.next, fun j other hother r hr => ?_⟩
    rcases update_some_eq_some.mp hother with ⟨rfl, rfl⟩ | ⟨-, hother⟩
    · cases hbegins <;> exact nomatch hr
    · exact h.written j other hother r hr
  | @appends i txn event rest htxn htodo hheld =>
    have hnext := h.next
    refine ⟨by simp only [MoneyLog.append]; omega, fun j other hother r hr => ?_⟩
    rcases update_some_eq_some.mp hother with ⟨rfl, rfl⟩ | ⟨-, hother⟩
    · rcases log.written_cases txn event rest with ⟨-, hwritten⟩ | ⟨-, hwritten⟩ <;>
        rw [hwritten] at hr
      · rcases List.mem_append.mp hr with hr | hr
        · exact h.written j txn htxn r hr
        · rw [List.mem_singleton.mp hr]
          exact hnext
      · exact h.written j txn htxn r hr
    · exact h.written j other hother r hr
  | commits htxn hdone =>
    exact ⟨h.next, fun j other hother => h.written j other (update_none_eq_some.mp hother).2⟩
  | aborts htxn =>
    exact ⟨h.next, fun j other hother => h.written j other (update_none_eq_some.mp hother).2⟩
  | locks | feeOpened | payoutRecorded | joins | pulls => exact ⟨h.next, h.written⟩

/-- A seen row's position is before all that is still to be seen. -/
theorem MoneyLog.Sequenced.behind {log : MoneyLog} (h : log.Sequenced) {r : MoneyEventRow}
    (hr : r ∈ log.events) : log.Behind r.position where
  next := h.drawn.below r hr
  written i txn htxn r' hr' :=
    (List.pairwise_append.mp (h.txn i txn htxn).drawn.ordered).2.2 r hr r' hr'

/-- What a page holds, and where it leads, for a client whose grants allow the request. -/
theorem MoneyLog.Sequenced.pull_ok {log : MoneyLog} (h : log.Sequenced) {grants : Grants}
    {client : ClientId} {scope : Option ScopeId} {after : Int} {limit : Nat} {page : PulledEvents}
    (hpull : log.pull grants client scope after limit = .ok page) :
    ∃ scopes, grants.pulled client scope = .ok scopes ∧
      page.events = ((past (·.position) (log.addressed client scopes) after).take
        (pullLimit limit)).map (·.shownTo client) ∧
      page.nextPosition = resume (·.position) after
        ((past (·.position) (log.addressed client scopes) after).take (pullLimit limit)) := by
  unfold MoneyLog.pull at hpull
  split at hpull
  · exact nomatch hpull
  · obtain ⟨scopes, hscopes, hpage⟩ := bind_ok_iff.mp hpull
    refine ⟨scopes, hscopes, ?_⟩
    split at hpage
    · -- with no scope nothing is addressed
      rename_i hempty
      obtain rfl := List.isEmpty_iff.mp hempty
      obtain rfl := Except.ok.inj hpage
      simp [MoneyLog.addressed, past]
    · obtain rfl := Except.ok.inj hpage
      rw [h.delivered]
      exact ⟨rfl, rfl⟩

/-- What a reader has received is all that is addressed to it, up to its cursor. -/
structure EventReader.Read (grants : Grants) (log : MoneyLog) (reader : EventReader) : Prop where
  behind : log.Behind reader.cursor
  received : ∀ scopes, grants.pulled reader.client reader.scope = .ok scopes →
    reader.received = (upTo (·.position) (log.addressed reader.client scopes) reader.cursor).map
      (·.shownTo reader.client)
  refused : ∀ e, grants.pulled reader.client reader.scope = .error e → reader.received = []

/-- The log as readers rely on it. -/
structure MoneyLog.Reading (grants : Grants) (log : MoneyLog) : Prop where
  start : log.Behind 0
  positive : ∀ r ∈ log.events, 0 < r.position
  reader : ∀ j reader, log.readers j = some reader → reader.Read grants log

/-- Events that come to be seen past a reader's cursor change nothing of what it has received. -/
theorem EventReader.Read.grow {grants : Grants} {log log' : MoneyLog} {reader : EventReader}
    {more : List MoneyEventRow} (h : reader.Read grants log) (hbehind : log'.Behind reader.cursor)
    (hevents : log'.events = log.events ++ more)
    (hmore : ∀ r ∈ more, reader.cursor < r.position) : reader.Read grants log' := by
  refine ⟨hbehind, fun scopes hscopes => ?_, h.refused⟩
  rw [MoneyLog.addressed, hevents, List.filter_append,
    upTo_append fun r hr => hmore r (List.mem_of_mem_filter hr)]
  exact h.received scopes hscopes

/-- **A page keeps it.** -/
theorem EventReader.Read.pull {grants : Grants} {log : MoneyLog} {reader : EventReader}
    (hseq : log.Sequenced) (h : reader.Read grants log) {limit : Nat} {page : PulledEvents}
    (hpull : log.pull grants reader.client reader.scope reader.cursor limit = .ok page) :
    EventReader.Read grants log { reader with
      cursor := page.nextPosition
      received := reader.received ++ page.events } := by
  obtain ⟨scopes, hscopes, hevents, hnext⟩ := hseq.pull_ok hpull
  have hordered : (log.addressed reader.client scopes).Pairwise
      fun r r' => r.position < r'.position := hseq.drawn.ordered.sublist List.filter_sublist
  have hbehind : log.Behind page.nextPosition := by
    rw [hnext]
    generalize hrows : (past (·.position) (log.addressed reader.client scopes)
      reader.cursor).take (pullLimit limit) = rows
    rcases resume_eq reader.cursor rows with heq | ⟨r, hr, heq⟩
    · rw [heq]
      exact h.behind
    · rw [heq]
      rw [← hrows] at hr
      exact hseq.behind
        (List.mem_of_mem_filter (List.mem_of_mem_filter (List.mem_of_mem_take hr)))
  refine ⟨hbehind, ?_, ?_⟩
  · intro scopes' hscopes'
    obtain rfl := Except.ok.inj (hscopes.symm.trans hscopes')
    rw [h.received scopes hscopes, hevents, ← List.map_append, upTo_page hordered, hnext]
  · intro e he
    rw [hscopes] at he
    exact nomatch he

theorem MoneyLog.Reading.step {grants : Grants} {log log' : MoneyLog} (h : log.Reading grants)
    (hseq : log.Sequenced) (hstep : log.Step grants log') : log'.Reading grants := by
  have hstart := h.start.step hstep
  have hbehind : ∀ j reader, log.readers j = some reader → log'.Behind reader.cursor :=
    fun j reader hreader => (h.reader j reader hreader).behind.step hstep
  cases hstep with
  | @commits i txn htxn hdone =>
    refine ⟨hstart, ?_, fun j reader hreader => ?_⟩
    · intro r hr
      rcases List.mem_append.mp hr with hr | hr
      · exact h.positive r hr
      · exact h.start.written i txn htxn r hr
    · have hread := h.reader j reader hreader
      exact hread.grow (hbehind j reader hreader) rfl (hread.behind.written i txn htxn)
  | @joins j client scope hnew =>
    refine ⟨hstart, h.positive, fun k reader hreader => ?_⟩
    rcases update_some_eq_some.mp hreader with ⟨rfl, rfl⟩ | ⟨-, hreader⟩
    · refine ⟨hstart, fun scopes hscopes => ?_, fun _ _ => rfl⟩
      have hnone : upTo (·.position) (log.addressed client scopes) 0 = [] := by
        rw [upTo, List.filter_eq_nil_iff]
        intro r hr
        have hpos := h.positive r (List.mem_of_mem_filter hr)
        simp only [decide_eq_true_eq]
        omega
      exact (congrArg (List.map _) hnone).symm
    · exact ⟨hbehind k reader hreader, (h.reader k reader hreader).received,
        (h.reader k reader hreader).refused⟩
  | @pulls j limit reader page hreader hpull =>
    refine ⟨hstart, h.positive, fun k other hother => ?_⟩
    rcases update_some_eq_some.mp hother with ⟨rfl, rfl⟩ | ⟨-, hother⟩
    · have hread := (h.reader k reader hreader).pull hseq hpull
      exact ⟨⟨hread.behind.next, hread.behind.written⟩, hread.received, hread.refused⟩
    · exact ⟨hbehind k other hother, (h.reader k other hother).received,
        (h.reader k other hother).refused⟩
  | begins | locks | appends | aborts | feeOpened | payoutRecorded =>
    exact ⟨hstart, h.positive, fun j reader hreader => ⟨hbehind j reader hreader,
      (h.reader j reader hreader).received, (h.reader j reader hreader).refused⟩⟩

/-! ## Every run -/

/-- What holds of every log a run comes to. -/
structure MoneyLog.Sound (grants : Grants) (log : MoneyLog) : Prop where
  sequenced : log.Sequenced
  owning : log.Owning
  once : log.Once
  reading : log.Reading grants

theorem MoneyLog.Fresh.sound {log : MoneyLog} (grants : Grants) (h : log.Fresh) :
    log.Sound grants := by
  have htxns : ∀ i txn, log.txns i ≠ some txn := fun i txn => by simp [h.txns i]
  refine ⟨⟨?_, ?_, ?_⟩, ⟨?_, ?_, ?_, ?_⟩, ⟨?_, ?_, ?_, ?_⟩, ⟨⟨?_, ?_⟩, ?_, ?_⟩⟩
  · rw [h.events]
    exact Drawn.nil
  · rw [h.deliveries, h.events, List.flatMap_nil]
  · exact fun i txn htxn => absurd htxn (htxns i txn)
  · simp [h.events]
  · exact fun i txn htxn => absurd htxn (htxns i txn)
  · exact fun i txn account htxn => absurd htxn (htxns i txn)
  · exact fun i j txn other a b htxn => absurd htxn (htxns i txn)
  · simp [eventIds, h.events]
  · exact fun i txn htxn => absurd htxn (htxns i txn)
  · exact fun i txn row htxn => absurd htxn (htxns i txn)
  · simp [h.recorded]
  · simp [h.next]
  · exact fun i txn htxn => absurd htxn (htxns i txn)
  · simp [h.events]
  · exact fun j reader hreader => by simp [h.readers j] at hreader

theorem MoneyLog.Reached.sound {grants : Grants} {log : MoneyLog} (h : log.Reached grants) :
    log.Sound grants := by
  obtain ⟨fresh, hfresh, hrun⟩ := h
  induction hrun with
  | refl => exact hfresh.sound grants
  | tail _ hstep ih =>
    exact ⟨ih.sequenced.step hstep, ih.owning.step hstep, ih.once.step ih.sequenced hstep,
      ih.reading.step ih.sequenced hstep⟩

/-! ### A sample

The desk's account is opened and a charge into it recorded; a second recording of the charge is
open; and the desk reads. -/

/-- No table row, no event, no reader. -/
def sampleFreshLog : MoneyLog where
  owners _ _ := none
  payouts _ := none
  events := []
  deliveries := []
  next := 1
  lock := none
  txns _ := none
  recorded := []
  readers _ := none

/-- What the two sample clients are granted. -/
def sampleEventGrants : Grants := ⟨sampleGrants, sampleGrants_partition⟩

/-- The desk's account. -/
def sampleOpened : OwnedAccount := ⟨⟨"invest"⟩, ⟨"svc:desk:1"⟩, ⟨"desk"⟩⟩

/-- A charge of five into it. -/
def sampleChargeRow : OutboxRow where
  seq := 1
  eventId := .raw 8
  aggregateId := .raw 7
  payload := .scopeCharges (.charged ⟨"invest"⟩ (.raw 1) ⟨"svc:desk:1"⟩ 5)
  attempts := 0

/-- What is answered once the account is seen. -/
def sampleEventReads : EventReads where
  owner scope label :=
    .ok (if scope = ⟨"invest"⟩ ∧ label = ⟨"svc:desk:1"⟩ then some ⟨"desk"⟩ else none)
  posted _ _ := .ok 5
  authSubject _ := .error (.unavailable "")
  transfer _ := .error (.unavailable "")
  payout _ := .error (.unavailable "")
  hold _ := .error (.unavailable "")
  invoice _ := .error (.unavailable "")
  charge _ := .ok ⟨⟨"desk"⟩, "order:1", "alice"⟩
  stepRef := none

/-- The charge's event. -/
def sampleCharged : NewMoneyEvent where
  eventId := moneyEventId ("charged:" ++ (Uuid.raw 7).text)
  scope := ⟨"invest"⟩
  kind := .charged
  refId := (Uuid.raw 7).text
  aggregateVersion := 1
  authSubject := "alice"
  amount := some 5
  source := none
  target := some (.account ⟨"svc:desk:1"⟩)
  subjectRef := "order:1"
  initiatorClient := "desk"
  balances := [⟨⟨"svc:desk:1"⟩, ⟨"desk"⟩, 5⟩]
  holdRemaining := none
  counterpartyScope := ""
  failureReason := ""
  paidFrom := ""
  audience := [⟨"desk"⟩, ⟨"desk"⟩]

/-- The opening's transaction. -/
def sampleEventOpening : EventTxn :=
  ⟨some sampleOpened, none, [accountOpened ⟨"invest"⟩ ⟨"svc:desk:1"⟩ ⟨"desk"⟩], [], []⟩

/-- The charge's. -/
def sampleRecording : EventTxn := ⟨none, some sampleChargeRow, [sampleCharged], [], []⟩

/-- The log with the account open. -/
def sampleOpenedLog : MoneyLog :=
  let begun := { sampleFreshLog with
    txns := Function.update sampleFreshLog.txns 0 (some sampleEventOpening), lock := some 0 }
  let event := accountOpened ⟨"invest"⟩ ⟨"svc:desk:1"⟩ ⟨"desk"⟩
  (begun.append 0 sampleEventOpening event []).commit 0 (begun.written sampleEventOpening event [])

/-- The log with the charge recorded, and being recorded again. -/
def sampleChargedLog : MoneyLog :=
  let first := Function.update sampleOpenedLog.txns 1 (some sampleRecording)
  let begun := { sampleOpenedLog with
    txns := Function.update first 2 (some sampleRecording), lock := some 1 }
  (begun.append 1 sampleRecording sampleCharged []).commit 1
    (begun.written sampleRecording sampleCharged [])

/-- The desk before its first page. -/
def sampleReader : EventReader := ⟨⟨"desk"⟩, none, 0, []⟩

/-- Its first page. -/
def samplePage : PulledEvents where
  events :=
    [(⟨1, accountOpened ⟨"invest"⟩ ⟨"svc:desk:1"⟩ ⟨"desk"⟩⟩ : MoneyEventRow).shownTo ⟨"desk"⟩,
      (⟨2, sampleCharged⟩ : MoneyEventRow).shownTo ⟨"desk"⟩]
  nextPosition := 2

/-- The desk after its first page. -/
def sampleEventRead : EventReader := { sampleReader with
  cursor := samplePage.nextPosition
  received := sampleReader.received ++ samplePage.events }

/-- The log with the desk's page taken. -/
def sampleEventLog : MoneyLog :=
  let joined := { sampleChargedLog with
    readers := Function.update sampleChargedLog.readers 0 (some sampleReader) }
  { joined with readers := Function.update joined.readers 0 (some sampleEventRead) }

theorem sampleOpenedLog_reached : sampleOpenedLog.Reached sampleEventGrants := by
  refine ⟨sampleFreshLog, ⟨rfl, rfl, rfl, rfl, fun _ => rfl, rfl, fun _ => rfl⟩, ?_⟩
  have hbegin : sampleEventOpening.Begins sampleFreshLog :=
    .opening sampleOpened rfl fun _ _ _ htxn => nomatch htxn
  exact .tail (.tail (.tail (.tail .refl (.begins rfl hbegin)) (.locks rfl rfl))
    (.appends rfl rfl rfl)) (.commits rfl rfl)

theorem sampleReads_answered : sampleOpenedLog.Answered sampleEventReads := by
  refine ⟨fun scope label client h => ?_, fun _ _ h => nomatch h⟩
  have hsome : (if scope = ⟨"invest"⟩ ∧ label = ⟨"svc:desk:1"⟩ then some (⟨"desk"⟩ : ClientId)
      else none) = some client := Except.ok.inj h
  split at hsome
  · rename_i hkey
    obtain ⟨rfl, rfl⟩ := hkey
    exact hsome
  · exact nomatch hsome

theorem sampleEventLog_reached : sampleEventLog.Reached sampleEventGrants := by
  obtain ⟨fresh, hfresh, hrun⟩ := sampleOpenedLog_reached
  refine ⟨fresh, hfresh, hrun.trans ?_⟩
  have hrelayed : sampleEventReads.relayed sampleChargeRow = .ok [sampleCharged] := by decide
  have hbegin : sampleRecording.Begins sampleOpenedLog := .recording hrelayed sampleReads_answered
  have hagain : sampleRecording.Begins { sampleOpenedLog with
      txns := Function.update sampleOpenedLog.txns 1 (some sampleRecording) } :=
    .recording hrelayed ⟨sampleReads_answered.owner, sampleReads_answered.payout⟩
  have hcharged : Relation.ReflTransGen (MoneyLog.Step sampleEventGrants) sampleOpenedLog
      sampleChargedLog :=
    .tail (.tail (.tail (.tail (.tail .refl (.begins rfl hbegin)) (.begins rfl hagain))
      (.locks rfl rfl)) (.appends rfl rfl rfl)) (.commits rfl rfl)
  exact .tail (.tail hcharged (.joins ⟨"desk"⟩ none rfl))
    (@MoneyLog.Step.pulls _ _ 0 0 sampleReader samplePage rfl (by decide))

/-- **Each event once, and in order.** Whoever appends and commits meanwhile, what a client has
received is every event addressed to it in its scopes up to its cursor, by position, each once; its
next page, of whatever size, goes on from there, and one that is not full leaves nothing unread. -/
theorem money_events_reach_readers_once {grants : Grants} {log : MoneyLog}
    (h : log.Reached grants) {j : Nat} {reader : EventReader}
    (hreader : log.readers j = some reader) {scopes : List ScopeId}
    (hscopes : grants.pulled reader.client reader.scope = .ok scopes) :
    reader.received = ((log.addressed reader.client scopes).filter (·.position ≤ reader.cursor)).map
      (·.shownTo reader.client) ∧
    (reader.received.map (·.position)).Pairwise (· < ·) ∧
    ∀ limit page, log.pull grants reader.client reader.scope reader.cursor limit = .ok page →
      reader.received ++ page.events =
        ((log.addressed reader.client scopes).filter (·.position ≤ page.nextPosition)).map
          (·.shownTo reader.client) ∧
      (page.events.length < pullLimit limit →
        reader.received ++ page.events =
          (log.addressed reader.client scopes).map (·.shownTo reader.client)) := by
  have hsound := h.sound
  have hread := hsound.reading.reader j reader hreader
  have hreceived := hread.received scopes hscopes
  have hordered : (log.addressed reader.client scopes).Pairwise
      fun r r' => r.position < r'.position :=
    hsound.sequenced.drawn.ordered.sublist List.filter_sublist
  refine ⟨hreceived, ?_, fun limit page hpull => ?_⟩
  · rw [hreceived, List.map_map, List.pairwise_map]
    exact hordered.sublist List.filter_sublist
  · have hnext := (hread.pull hsound.sequenced hpull).received scopes hscopes
    refine ⟨hnext, fun hshort => ?_⟩
    obtain ⟨scopes', hscopes', hevents, hresume⟩ := hsound.sequenced.pull_ok hpull
    obtain rfl := Except.ok.inj (hscopes.symm.trans hscopes')
    rw [hevents, List.length_map] at hshort
    have hnothing := past_resume_eq_nil hordered hshort
    have hsplit := upTo_append_past hordered page.nextPosition
    rw [← hresume] at hnothing
    rw [hnothing, List.append_nil] at hsplit
    exact hnext.trans (congrArg (List.map _) hsplit)

/-- Both events of the sample are received, once each. -/
theorem money_events_reach_readers_once_sample :
    sampleEventRead.received =
      ((sampleEventLog.addressed ⟨"desk"⟩ [⟨"invest"⟩]).filter (·.position ≤ 2)).map
        (·.shownTo ⟨"desk"⟩) ∧
    (sampleEventRead.received.map (·.position)).Pairwise (· < ·) :=
  have h := money_events_reach_readers_once sampleEventLog_reached
    (show sampleEventLog.readers 0 = some sampleEventRead from rfl)
    (show sampleEventGrants.pulled ⟨"desk"⟩ none = .ok [⟨"invest"⟩] by decide)
  ⟨h.1, h.2.1⟩

/-- **A row recorded again writes nothing.** Of a row whose events were committed, each is in the
log once; and a transaction that records the row anew, begun before that or after, has written
nothing and leaves the log as it is. -/
theorem recorded_row_told_once {grants : Grants} {log : MoneyLog} (h : log.Reached grants)
    {row : OutboxRow} (hrow : row ∈ log.recorded) :
    (∀ id ∈ log.idsOf row, (eventIds log.events).count id = 1) ∧
    ∀ i txn, log.txns i = some txn → txn.record = some row →
      (log.commit i txn).events = log.events ∧ (log.commit i txn).deliveries = log.deliveries := by
  have hsound := h.sound
  refine ⟨fun id hid => ?_, fun i txn htxn hrecord => ?_⟩
  · exact List.count_eq_one_of_mem hsound.once.unique ((hsound.once.recorded row hrow).2 id hid)
  · have hnil := (hsound.once.recording i txn row htxn hrecord).again hrow
    have hdeliveries := (hsound.sequenced.txn i txn htxn).deliveries
    rw [hnil, List.flatMap_nil] at hdeliveries
    simp only [MoneyLog.commit, hnil, hdeliveries, List.append_nil, and_self]

/-- The charge of the sample, whose second recording is open. -/
theorem recorded_row_told_once_sample :
    (∀ id ∈ sampleEventLog.idsOf sampleChargeRow, (eventIds sampleEventLog.events).count id = 1) ∧
      ∃ txn, sampleEventLog.txns 2 = some txn ∧
        (sampleEventLog.commit 2 txn).events = sampleEventLog.events :=
  have h := recorded_row_told_once sampleEventLog_reached
    (show sampleChargeRow ∈ sampleEventLog.recorded from List.mem_singleton.mpr rfl)
  ⟨h.1, sampleRecording, rfl, (h.2 2 sampleRecording rfl rfl).1⟩

/-- **Balances are shown to owners only**: each balance in what a client has received is of an
account in the event's scope that the tables say is its own. -/
theorem shown_balances_are_the_readers {grants : Grants} {log : MoneyLog} (h : log.Reached grants)
    {j : Nat} {reader : EventReader} (hreader : log.readers j = some reader) :
    ∀ record ∈ reader.received, ∀ b ∈ record.event.balances,
      b.owner = reader.client ∧ log.owners record.event.scope b.label = some reader.client := by
  have hsound := h.sound
  have hread := hsound.reading.reader j reader hreader
  intro record hrecord b hb
  cases hscopes : grants.pulled reader.client reader.scope with
  | error e =>
    rw [hread.refused e hscopes] at hrecord
    exact nomatch hrecord
  | ok scopes =>
    rw [hread.received scopes hscopes] at hrecord
    obtain ⟨r, hr, rfl⟩ := List.mem_map.mp hrecord
    obtain ⟨hbalance, howner⟩ := List.mem_filter.mp hb
    have hseen : r ∈ log.events := List.mem_of_mem_filter (List.mem_of_mem_filter hr)
    have howned := hsound.owning.seen r hseen b hbalance
    have howner : b.owner = reader.client := by simpa using howner
    exact ⟨howner, howner ▸ howned⟩

/-- The desk is shown its own account's balances, and is shown some. -/
theorem shown_balances_are_the_readers_sample :
    sampleEventRead.received.any (fun record => !record.event.balances.isEmpty) = true ∧
      ∀ record ∈ sampleEventRead.received, ∀ b ∈ record.event.balances,
        b.owner = ⟨"desk"⟩ ∧ sampleEventLog.owners record.event.scope b.label = some ⟨"desk"⟩ :=
  ⟨rfl, shown_balances_are_the_readers sampleEventLog_reached
    (show sampleEventLog.readers 0 = some sampleEventRead from rfl)⟩

end Banking
