import Mathlib.Logic.Function.Basic
import Banking.ChartKeys
import Banking.MoneyEvents
import Banking.Subjects

/-! # What a money event's id names

An event's id is made from the name of what it tells of, and a second event of one id is not
written. No two happenings have one name, so that an event is passed over only as a repeat. -/

namespace Banking

open Framing (Delimited delimited_terminated)

/-! ## Names -/

/-- What an event tells of: a transfer has a name for each side, a payout one for each line, a hold,
an invoice and a mandate one for each version, an operation one for each kind. -/
inductive Occurrence
  | accountOpened (scope : ScopeId) (label : ScopeAccountLabel)
  | transferred (id : Uuid)
  | arrived (id : Uuid)
  | paidOut (id : Uuid) (lineNo : Nat)
  | hold (id : Uuid) (version : Nat)
  | invoice (id : Uuid) (version : Nat)
  | charged (id : Uuid)
  | operation (id : Uuid) (kind : MoneyEventKind)
  | mandate (id : Uuid) (version : Nat)
deriving DecidableEq, Repr

/-- The name's first part. -/
def Occurrence.tag : Occurrence → String
  | .accountOpened .. => "account_opened"
  | .transferred _ | .arrived _ => "transferred"
  | .paidOut .. => "paid_out"
  | .hold .. => "hold"
  | .invoice .. => "invoice"
  | .charged _ => "charged"
  | .operation .. => "operation"
  | .mandate .. => "mandate"

/-- The name after its first part. -/
def Occurrence.rest : Occurrence → String
  | .accountOpened scope label => scope.id ++ ":" ++ label.label
  | .transferred id | .charged id => id.text
  | .arrived id => id.text ++ ":in"
  | .paidOut id n | .hold id n | .invoice id n | .mandate id n => id.text ++ ":" ++ toString n
  | .operation id kind => id.text ++ ":" ++ kind.asStr

/-- The id of what an event tells of. -/
def Occurrence.eventId (t : Occurrence) : Uuid := moneyEventId (t.tag ++ ":" ++ t.rest)

/-- Ids as they are drawn, scopes of their shape. -/
def Occurrence.Sound : Occurrence → Prop
  | .accountOpened scope _ => scope.Shaped
  | .transferred id | .arrived id | .paidOut id _ | .hold id _ | .invoice id _ | .charged id
  | .operation id _ | .mandate id _ => id.Minted

/-- The text of an id has one width. -/
theorem Uuid.delimited_text : Delimited Uuid.Minted fun u => u.text.toList := by
  refine Delimited.of_width (w := 36) ?_ ?_
  · rintro _ ⟨n, -, rfl⟩
    simp [Uuid.text, hexDigits]
  · intro u v hu hv h
    exact Uuid.text_injective hu hv (String.toList_inj.mp h)

theorem MoneyEventKind.asStr_injective : Function.Injective MoneyEventKind.asStr := by
  intro a b h
  cases a <;> cases b <;> first | rfl | exact absurd h (by decide)

/-- An id and what follows it are both read back. -/
theorem Uuid.text_append_inj {u v : Uuid} (hu : u.Minted) (hv : v.Minted) {s s' : String}
    (h : u.text ++ s = v.text ++ s') : u = v ∧ s = s' := by
  have hlist := congrArg String.toList h
  rw [String.toList_append, String.toList_append] at hlist
  obtain ⟨rfl, hs⟩ := Uuid.delimited_text _ _ _ _ hu hv hlist
  exact ⟨rfl, String.toList_inj.mp hs⟩

/-- An id and a field behind a colon are both read back. -/
theorem Uuid.text_field_inj {u v : Uuid} (hu : u.Minted) (hv : v.Minted) {s s' : String}
    (h : u.text ++ ":" ++ s = v.text ++ ":" ++ s') : u = v ∧ s = s' := by
  rw [String.append_assoc, String.append_assoc] at h
  obtain ⟨hid, hs⟩ := Uuid.text_append_inj hu hv h
  exact ⟨hid, (String.append_right_inj ":").mp hs⟩

/-- What the events of a relayed row tell of; a payout's, by its recorded lines. -/
def OutboxRow.tells (payouts : Uuid → Option PayoutFacts) (row : OutboxRow) : List Occurrence :=
  match row.payload with
  | .scopeLedger (.transferred scope _ toScope _ _) =>
    if scope = toScope then [.transferred row.aggregateId]
    else [.transferred row.aggregateId, .arrived row.aggregateId]
  | .scopeHolds (.placed id _ _ _ version) => [.hold id version]
  | .scopeHolds (.captured id _ _ version ..) => [.hold id version]
  | .scopeHolds (.released id _ _ version ..) => [.hold id version]
  | .scopePayouts _ =>
    match payouts row.aggregateId with
    | some facts => facts.lines.map fun line => .paidOut row.aggregateId line.lineNo
    | none => []
  | .scopeInvoices (.paid _ _ _ _ _ version) => [.invoice row.aggregateId version]
  | .scopeCharges _ => [.charged row.aggregateId]
  | _ => []

/-- Whether a row's payout, when it is one, has its lines recorded. -/
def OutboxRow.Settled (payouts : Uuid → Option PayoutFacts) (row : OutboxRow) : Prop :=
  ∀ event, row.payload = .scopePayouts event → (payouts row.aggregateId).isSome = true

/-- A payout recorded elsewhere changes nothing of what a row tells of. -/
theorem OutboxRow.tells_update {payouts : Uuid → Option PayoutFacts} {row : OutboxRow} {id : Uuid}
    (facts : PayoutFacts) (hnew : payouts id = none) (h : row.Settled payouts) :
    row.tells (Function.update payouts id (some facts)) = row.tells payouts := by
  cases hpayload : row.payload with
  | scopePayouts event =>
    have hne : row.aggregateId ≠ id := by
      rintro rfl
      have hsome := h event hpayload
      rw [hnew] at hsome
      exact nomatch hsome
    simp only [OutboxRow.tells, hpayload, Function.update_of_ne hne]
  | scopeHolds event => cases event <;> simp only [OutboxRow.tells, hpayload]
  | scopeInvoices event => cases event <;> simp only [OutboxRow.tells, hpayload]
  | _ => simp only [OutboxRow.tells, hpayload]

theorem OutboxRow.Settled.update {payouts : Uuid → Option PayoutFacts} {row : OutboxRow} {id : Uuid}
    (facts : PayoutFacts) (h : row.Settled payouts) :
    row.Settled (Function.update payouts id (some facts)) := by
  intro event hpayload
  by_cases hid : row.aggregateId = id
  · rw [hid, Function.update_self]
    rfl
  · rw [Function.update_of_ne hid]
    exact h event hpayload

/-- What an event of a relayed row is: it tells of one thing, and every balance in it is of an
account whose owner was asked for. -/
structure EventReads.Made (reads : EventReads) (e : NewMoneyEvent) (t : Occurrence) : Prop where
  eventId : e.eventId = t.eventId
  owner : ∀ b ∈ e.balances, reads.owner e.scope b.label = .ok (some b.owner)

/-- A balance found is of the account asked for, and its owner's. -/
theorem EventReads.balanceOf_owner {reads : EventReads} {scope : ScopeId}
    {label : ScopeAccountLabel} {found : Option EventBalance}
    (h : reads.balanceOf scope label = .ok found) :
    ∀ b ∈ found.toList, reads.owner scope b.label = .ok (some b.owner) := by
  simp only [EventReads.balanceOf, bind_ok_iff] at h
  obtain ⟨owner, howner, h⟩ := h
  cases owner with
  | none =>
    obtain rfl := Except.ok.inj h
    simp
  | some owner =>
    simp only [bind_ok_iff, Except.ok.injEq] at h
    obtain ⟨balance, -, rfl⟩ := h
    intro b hb
    obtain rfl := List.mem_singleton.mp hb
    exact howner

theorem EventReads.transferred_made {reads : EventReads} {row : OutboxRow}
    {event : ScopeLedgerEvent} {events : List NewMoneyEvent}
    {payouts : Uuid → Option PayoutFacts} (hpayload : row.payload = .scopeLedger event)
    (h : reads.transferred row.aggregateId event = .ok events) :
    List.Forall₂ reads.Made events (row.tells payouts) := by
  obtain ⟨scope, source, toScope, target, amount⟩ := event
  simp only [EventReads.transferred, bind_ok_iff] at h
  obtain ⟨facts, -, fromBalance, hfrom, toBalance, hto, h⟩ := h
  have hfrom := EventReads.balanceOf_owner hfrom
  have hto := EventReads.balanceOf_owner hto
  simp only [OutboxRow.tells, hpayload]
  split at h
  · rename_i hscope
    subst hscope
    obtain rfl := Except.ok.inj h
    rw [if_pos rfl]
    refine .cons ⟨rfl, fun b hb => ?_⟩ .nil
    rcases List.mem_append.mp hb with hb | hb
    · exact hfrom b hb
    · exact hto b hb
  · rename_i hscope
    obtain rfl := Except.ok.inj h
    rw [if_neg hscope]
    refine .cons ⟨rfl, hfrom⟩ (.cons ⟨?_, hto⟩ .nil)
    simp [transferSide, Occurrence.eventId, Occurrence.tag, Occurrence.rest, String.append_assoc]

theorem EventReads.paidOut_made {reads : EventReads} {row : OutboxRow}
    {event : ScopePayoutEvent} {events : List NewMoneyEvent}
    {payouts : Uuid → Option PayoutFacts} (hpayload : row.payload = .scopePayouts event)
    (hanswered : ∀ id facts, reads.payout id = .ok facts → payouts id = some facts)
    (h : reads.paidOut row.aggregateId event = .ok events) :
    List.Forall₂ reads.Made events (row.tells payouts) := by
  obtain ⟨scope, source, lines⟩ := event
  simp only [EventReads.paidOut, bind_ok_iff] at h
  obtain ⟨facts, hfacts, balance, hbalance, h⟩ := h
  obtain rfl := Except.ok.inj h
  simp only [OutboxRow.tells, hpayload, hanswered _ _ hfacts]
  rw [List.forall₂_map_left_iff, List.forall₂_map_right_iff, List.forall₂_same]
  intro line _
  refine ⟨?_, EventReads.balanceOf_owner hbalance⟩
  simp [Occurrence.eventId, Occurrence.tag, Occurrence.rest, String.append_assoc]

theorem EventReads.holdEvent_made {reads : EventReads} {row : OutboxRow}
    {event : HoldEvent} {made : NewMoneyEvent}
    {payouts : Uuid → Option PayoutFacts} (hpayload : row.payload = .scopeHolds event)
    (h : reads.holdEvent event = .ok made) :
    List.Forall₂ reads.Made [made] (row.tells payouts) := by
  have hname : ∀ (id : Uuid) (version : Nat),
      moneyEventId ("hold:" ++ id.text ++ ":" ++ toString version) =
        (Occurrence.hold id version).eventId := by
    intro id version
    simp [Occurrence.eventId, Occurrence.tag, Occurrence.rest, String.append_assoc]
  cases event with
  | placed id scope user amount version =>
    simp only [EventReads.holdEvent, bind_ok_iff] at h
    obtain ⟨facts, -, h⟩ := h
    obtain rfl := Except.ok.inj h
    simp only [OutboxRow.tells, hpayload]
    exact .cons ⟨hname id version, by simp [holdBase]⟩ .nil
  | captured id scope user version releasedVersion held amount target =>
    simp only [OutboxRow.tells, hpayload]
    cases target with
    | account label =>
      simp only [EventReads.holdEvent, bind_ok_iff] at h
      obtain ⟨facts, -, balance, hbalance, shown, hshown, h⟩ := h
      obtain rfl := Except.ok.inj hshown
      split at h
      · exact nomatch h
      obtain rfl := Except.ok.inj h
      exact .cons ⟨hname id version, EventReads.balanceOf_owner hbalance⟩ .nil
    | user user =>
      simp only [EventReads.holdEvent, bind_ok_iff] at h
      obtain ⟨facts, -, subject, -, shown, hshown, h⟩ := h
      obtain rfl := Except.ok.inj hshown
      split at h
      · exact nomatch h
      obtain rfl := Except.ok.inj h
      exact .cons ⟨hname id version, by simp⟩ .nil
  | released id scope user version releasedVersion held expired =>
    simp only [EventReads.holdEvent, bind_ok_iff] at h
    obtain ⟨facts, -, h⟩ := h
    obtain rfl := Except.ok.inj h
    simp only [OutboxRow.tells, hpayload]
    exact .cons ⟨hname id version, by simp [holdBase]⟩ .nil

theorem EventReads.invoicePaid_made {reads : EventReads} {row : OutboxRow} {event : InvoiceEvent}
    {made : Option NewMoneyEvent} {payouts : Uuid → Option PayoutFacts}
    (hpayload : row.payload = .scopeInvoices event)
    (h : reads.invoicePaid row.aggregateId event = .ok made) :
    List.Forall₂ reads.Made made.toList (row.tells payouts) := by
  cases event with
  | paid scope label amount payer source version =>
    simp only [EventReads.invoicePaid, bind_ok_iff] at h
    obtain ⟨facts, -, h⟩ := h
    cases hpayer : facts.paidBy with
    | none =>
      rw [hpayer] at h
      exact nomatch h
    | some payer =>
      rw [hpayer] at h
      simp only [bind_ok_iff] at h
      obtain ⟨shown, -, balance, hbalance, h⟩ := h
      obtain rfl := Except.ok.inj h
      simp only [OutboxRow.tells, hpayload]
      refine .cons ⟨?_, EventReads.balanceOf_owner hbalance⟩ .nil
      simp [Occurrence.eventId, Occurrence.tag, Occurrence.rest, String.append_assoc]
  | created | cancelled | expired | paymentFailed =>
    obtain rfl := Except.ok.inj h
    simp [OutboxRow.tells, hpayload]

theorem EventReads.charged_made {reads : EventReads} {row : OutboxRow} {event : ChargeEvent}
    {made : NewMoneyEvent} {payouts : Uuid → Option PayoutFacts}
    (hpayload : row.payload = .scopeCharges event)
    (h : reads.charged row.aggregateId event = .ok made) :
    List.Forall₂ reads.Made [made] (row.tells payouts) := by
  obtain ⟨scope, user, label, amount⟩ := event
  simp only [EventReads.charged, bind_ok_iff] at h
  obtain ⟨facts, -, balance, hbalance, h⟩ := h
  obtain rfl := Except.ok.inj h
  simp only [OutboxRow.tells, hpayload]
  refine .cons ⟨?_, EventReads.balanceOf_owner hbalance⟩ .nil
  simp [Occurrence.eventId, Occurrence.tag, Occurrence.rest]

/-- **What the relay records of a row** is one event for each thing the row tells of. -/
theorem EventReads.relayed_made {reads : EventReads} {row : OutboxRow}
    {events : List NewMoneyEvent} {payouts : Uuid → Option PayoutFacts}
    (hanswered : ∀ id facts, reads.payout id = .ok facts → payouts id = some facts)
    (h : reads.relayed row = .ok events) : List.Forall₂ reads.Made events (row.tells payouts) := by
  unfold EventReads.relayed at h
  split at h
  case h_1 event hpayload => exact EventReads.transferred_made hpayload h
  case h_2 event hpayload =>
    obtain ⟨made, hmade, rfl⟩ := map_ok_iff.mp h
    exact EventReads.holdEvent_made hpayload hmade
  case h_3 event hpayload => exact EventReads.paidOut_made hpayload hanswered h
  case h_4 event hpayload =>
    obtain ⟨made, hmade, rfl⟩ := map_ok_iff.mp h
    exact EventReads.invoicePaid_made hpayload hmade
  case h_5 event hpayload =>
    obtain ⟨made, hmade, rfl⟩ := map_ok_iff.mp h
    exact EventReads.charged_made hpayload hmade
  case h_11 hledger hholds hpayouts hinvoices hcharges _ _ _ _ _ =>
    obtain rfl := Except.ok.inj h
    unfold OutboxRow.tells
    split <;> simp_all
  all_goals exact nomatch h

/-- Its events have the ids of what it tells of. -/
theorem EventReads.relayed_ids {reads : EventReads} {events : List NewMoneyEvent}
    {tells : List Occurrence} (h : List.Forall₂ reads.Made events tells) :
    events.map (·.eventId) = tells.map Occurrence.eventId := by
  induction h with
  | nil => rfl
  | cons hmade _ ih => rw [List.map_cons, List.map_cons, hmade.eventId, ih]

/-- Each balance in its events is of an account whose owner was asked for. -/
theorem EventReads.relayed_owner {reads : EventReads} {events : List NewMoneyEvent}
    {tells : List Occurrence} (h : List.Forall₂ reads.Made events tells) :
    ∀ e ∈ events, ∀ b ∈ e.balances, reads.owner e.scope b.label = .ok (some b.owner) := by
  induction h with
  | nil => simp
  | cons hmade _ ih => exact List.forall_mem_cons.mpr ⟨hmade.owner, ih⟩

/-- A payout's events were made from its recorded lines. -/
theorem EventReads.relayed_settled {reads : EventReads} {row : OutboxRow}
    {events : List NewMoneyEvent} {payouts : Uuid → Option PayoutFacts}
    (hanswered : ∀ id facts, reads.payout id = .ok facts → payouts id = some facts)
    (h : reads.relayed row = .ok events) : row.Settled payouts := by
  rintro ⟨scope, source, lines⟩ hpayload
  simp only [EventReads.relayed, hpayload, EventReads.paidOut, bind_ok_iff] at h
  obtain ⟨facts, hfacts, -⟩ := h
  rw [hanswered _ _ hfacts]
  rfl

/-! ## Events of one id -/

/-- What each writer's event tells of. -/
inductive NewMoneyEvent.TellsOf : NewMoneyEvent → Occurrence → Prop
  | opened (scope : ScopeId) (label : ScopeAccountLabel) (owner : ClientId) :
      TellsOf (accountOpened scope label owner) (.accountOpened scope label)
  | holdRefused (hold : Uuid) (scope : ScopeId) (client : ClientId) (authSubject : String)
      (held version : Nat) :
      TellsOf (Banking.holdRefused hold scope client authSubject held version) (.hold hold version)
  | invoiceStep {client : ClientId} {subjectRef : String} {invoice : Invoice} {e : NewMoneyEvent}
      (h : Banking.invoiceStep client subjectRef invoice = .ok e) :
      TellsOf e (.invoice invoice.id invoice.version)
  | operation (id : Uuid) (terms : OperationTerms) (total : Nat) (subjectRef : String)
      (kind : MoneyEventKind) (version : Nat) (failureReason : String) :
      TellsOf (operationEvent id terms total subjectRef kind version failureReason)
        (.operation id kind)
  | mandate (mandate : Mandate) (authSubject : String) (kind : MoneyEventKind) (version : Nat) :
      TellsOf (mandateEvent mandate authSubject kind version) (.mandate mandate.id version)
  | relayed {reads : EventReads} {row : OutboxRow} {events : List NewMoneyEvent}
      {payouts : Uuid → Option PayoutFacts} {n : Nat} {e : NewMoneyEvent} {t : Occurrence}
      (hanswered : ∀ id facts, reads.payout id = .ok facts → payouts id = some facts)
      (h : reads.relayed row = .ok events) (he : events[n]? = some e)
      (ht : (row.tells payouts)[n]? = some t) : TellsOf e t

/-- An event's id is that of what it tells of. -/
theorem NewMoneyEvent.TellsOf.eventId {e : NewMoneyEvent} {t : Occurrence} (h : e.TellsOf t) :
    e.eventId = t.eventId := by
  cases h with
  | opened =>
    simp [accountOpened, Occurrence.eventId, Occurrence.tag, Occurrence.rest,
      String.append_assoc]
  | holdRefused =>
    simp [Banking.holdRefused, Occurrence.eventId, Occurrence.tag, Occurrence.rest,
      String.append_assoc]
  | operation =>
    simp [operationEvent, Occurrence.eventId, Occurrence.tag, Occurrence.rest,
      String.append_assoc]
  | mandate =>
    simp [mandateEvent, Occurrence.eventId, Occurrence.tag, Occurrence.rest,
      String.append_assoc]
  | invoiceStep h =>
    unfold Banking.invoiceStep at h
    split at h
    case h_4 => exact nomatch h
    all_goals
      obtain rfl := Except.ok.inj h
      simp [Occurrence.eventId, Occurrence.tag, Occurrence.rest, String.append_assoc]
  | @relayed _ _ _ _ n _ _ hanswered h he ht =>
    have hids := EventReads.relayed_ids (EventReads.relayed_made hanswered h)
    have hat := congrArg (fun ids : List Uuid => ids[n]?) hids
    simpa [he, ht] using hat

end Banking
