import Banking.ExecutionRuns
import Banking.FeePolicyChanges
import Banking.MoneyEventNames

/-! # What a step does to changes and notices

What each transaction finds before it goes on, and what it leaves of the tables; what becomes of a
notice once it is queued. -/

namespace Banking

open KeyedRows (Keyed Sole updateWhere mem_updateWhere mem_updateWhere_of_neg
  mem_updateWhere_of_pos)

/-! ## What a mail can become -/

/-- A mail later on: delivered or withdrawn for good, given up on for good. -/
structure NoticeMail.Becomes (m m' : NoticeMail) : Prop where
  key : m'.dedupeKey = m.dedupeKey
  change : m'.change = m.change
  user : m'.user = m.user
  notice : m'.notice = m.notice
  sent : m.sent = true → m'.sent = true
  withdrawn : m.withdrawn = true → m'.withdrawn = true
  givenUp : m.sent = false → FeePolicyDesk.givenUp m = true →
    m'.sent = false ∧ FeePolicyDesk.givenUp m' = true

theorem NoticeMail.Becomes.refl (m : NoticeMail) : m.Becomes m :=
  ⟨rfl, rfl, rfl, rfl, id, id, fun h hup => ⟨h, hup⟩⟩

/-- A withdrawal. -/
theorem NoticeMail.becomes_withdrawn (m : NoticeMail) : m.Becomes { m with withdrawn := true } :=
  ⟨rfl, rfl, rfl, rfl, id, fun _ => rfl, fun h hup => ⟨h, hup⟩⟩

/-- A deferral charges nothing, or gives the mail up. -/
theorem NoticeMail.defer_becomes (m : NoticeMail) (now : Int) :
    m.Becomes (m.defer now) ∧ (m.defer now).withdrawn = m.withdrawn := by
  unfold NoticeMail.defer
  split_ifs
  · exact ⟨⟨rfl, rfl, rfl, rfl, id, id, fun h _ => ⟨h, decide_eq_true le_rfl⟩⟩, rfl⟩
  · exact ⟨.refl m, rfl⟩

/-- **A delivery**: what was given up on is not taken up again. -/
theorem NoticeMail.deliver_becomes (m : NoticeMail) (mirrored : Bool) (answer : MailAnswer)
    (now : Int) : m.Becomes (m.deliver mirrored answer now) ∧
      (m.deliver mirrored answer now).withdrawn = m.withdrawn := by
  unfold NoticeMail.deliver
  split_ifs with hdue hmirrored
  · have hattempts : ¬ FeePolicyDesk.givenUp m = true := by
      simp only [NoticeMail.due, Bool.and_eq_true, decide_eq_true_eq] at hdue
      simp only [FeePolicyDesk.givenUp, decide_eq_true_eq, not_le]
      exact hdue.2
    cases answer with
    | taken => exact ⟨⟨rfl, rfl, rfl, rfl, fun _ => rfl, id, fun _ h => absurd h hattempts⟩, rfl⟩
    | deferred => exact m.defer_becomes now
    | failed => exact ⟨⟨rfl, rfl, rfl, rfl, id, id, fun _ h => absurd h hattempts⟩, rfl⟩
  · exact m.defer_becomes now
  · exact ⟨.refl m, rfl⟩

/-! ## Notices queued -/

/-- The keys of two notices tell their change and their user. -/
theorem noticeKey_injective {c c' : Uuid} {u u' : UserId} (hc : c.Minted) (hc' : c'.Minted)
    (hu : u.Minted) (hu' : u'.Minted) (h : noticeKey c u = noticeKey c' u') : c = c' ∧ u = u' := by
  unfold noticeKey at h
  rw [String.append_assoc, String.append_assoc, String.append_assoc, String.append_assoc] at h
  have hrest := (String.append_right_inj "fee-policy-notice:").mp h
  rw [← String.append_assoc, ← String.append_assoc] at hrest
  obtain ⟨hchange, huser⟩ := Uuid.text_field_inj hc hc' hrest
  exact ⟨hchange, Uuid.text_injective hu hu' huser⟩

/-- Queueing keeps what is queued. -/
theorem subset_foldl_enqueueNotice (mails new : List NoticeMail) :
    ∀ m ∈ mails, m ∈ new.foldl enqueueNotice mails := by
  induction new generalizing mails with
  | nil => exact fun _ h => h
  | cons x new ih =>
    intro m hm
    refine ih (enqueueNotice mails x) m ?_
    unfold enqueueNotice
    split_ifs
    · exact hm
    · exact List.mem_append_left _ hm

/-- What is queued was there, or is new. -/
theorem mem_foldl_enqueueNotice {mails new : List NoticeMail} :
    ∀ m ∈ new.foldl enqueueNotice mails, m ∈ mails ∨ m ∈ new := by
  induction new generalizing mails with
  | nil => exact fun _ h => .inl h
  | cons x new ih =>
    intro m hm
    rcases ih m hm with hm | hm
    · unfold enqueueNotice at hm
      split_ifs at hm
      · exact .inl hm
      · rcases List.mem_append.mp hm with hm | hm
        · exact .inl hm
        · exact .inr (List.mem_singleton.mp hm ▸ List.mem_cons_self)
    · exact .inr (List.mem_cons_of_mem x hm)

/-- **Every notice is queued**, or one under its key was. -/
theorem exists_foldl_enqueueNotice (mails new : List NoticeMail) :
    ∀ x ∈ new, ∃ m ∈ new.foldl enqueueNotice mails, m.dedupeKey = x.dedupeKey := by
  induction new generalizing mails with
  | nil => exact fun _ h => absurd h List.not_mem_nil
  | cons y new ih =>
    intro x hx
    rcases List.mem_cons.mp hx with rfl | hx
    · have hqueued : ∃ m ∈ enqueueNotice mails x, m.dedupeKey = x.dedupeKey := by
        unfold enqueueNotice
        split_ifs with hany
        · obtain ⟨m, hm, hkey⟩ := List.any_eq_true.mp hany
          exact ⟨m, hm, of_decide_eq_true hkey⟩
        · exact ⟨x, List.mem_append_right _ (List.mem_singleton_self x), rfl⟩
      obtain ⟨m, hm, hkey⟩ := hqueued
      exact ⟨m, subset_foldl_enqueueNotice _ new m hm, hkey⟩
    · exact ih (enqueueNotice mails y) x hx

namespace FeePolicyDesk

/-! ## What each transaction finds -/

/-- A change found is the row of its id. -/
theorem find_mem {w : FeePolicyDesk} {id : Uuid} {r : FeePolicyChangeRow} (h : w.find id = some r) :
    r ∈ w.changes ∧ r.id = id :=
  ⟨List.mem_of_find?_eq_some h, of_decide_eq_true
    (List.find?_some (p := fun r : FeePolicyChangeRow => decide (r.id = id)) h)⟩

/-- What a scheduling that goes on has judged. -/
theorem beginSchedule_ok {w : FeePolicyDesk} {change : NewFeePolicyChange}
    {opening : Option ConsiliumOpening} {work : FeeWork}
    (h : w.beginSchedule change opening = .ok work) :
    requirementFor (w.currentTerms change.service) change.policy = change.requirement ∧
      (∀ o, opening = some o → o.subject.fromPolicy = w.currentTerms change.service) ∧
      ∃ hasHolders,
        work = .scheduling change opening (w.currentTerms change.service) hasHolders := by
  unfold beginSchedule at h
  dsimp only at h
  split_ifs at h with hproduct hrequired hfrom
  refine ⟨not_not.mp hrequired, ?_, _, (Except.ok.inj h).symm⟩
  rintro o rfl
  simpa using hfrom

/-- **What a carry that goes on has checked.** -/
theorem beginCarry_ok {w : FeePolicyDesk} {subject : FeePolicySubject} {consilium : Uuid}
    {nowUnix : Int} {work : FeeWork}
    (h : w.beginCarry subject consilium nowUnix = .ok (some work)) :
    ∃ row hasHolders, row ∈ w.changes ∧ row.service = subject.service ∧
      row.state = .awaitingConsilium ∧
      work = .carrying row subject nowUnix (w.currentTerms row.service) hasHolders := by
  unfold beginCarry at h
  split_ifs at h with hproduct
  cases hfind : w.find subject.changeId with
  | none => simp [hfind] at h
  | some row =>
    simp only [hfind] at h
    cases hscheduled : row.decided.scheduleApproved subject consilium with
    | error e => simp [hscheduled] at h
    | ok fresh =>
      have hstate := FeePolicyChange.scheduleApproved_ok hscheduled
      cases fresh with
      | false => simp [hscheduled] at h
      | true =>
        simp only [hscheduled, Except.ok.injEq, Option.some.injEq] at h
        refine ⟨row, _, (find_mem hfind).1, ?_, by simpa [FeePolicyChangeRow.decided] using hstate,
          h.symm⟩
        -- the change is of the product the owners signed for
        unfold FeePolicyChange.scheduleApproved at hscheduled
        split_ifs at hscheduled with hdecides hmatches
        have hservice := (not_or.mp hmatches).1
        exact not_not.mp hservice

/-- **The gate**: where terms get dearer, a waiver names every holder whose notice is out. -/
theorem noticeGate_ok {w : FeePolicyDesk} {row : FeePolicyChangeRow} (h : w.noticeGate row = .ok ())
    (htighter : row.policy.tightensFrom ((w.currentTerms row.service).getD .NONE) = true) :
    ∀ m ∈ w.undeliveredNotices row.id row.service, m.user ∈ row.covered := by
  intro m hm
  unfold noticeGate at h
  simp only [htighter, if_true] at h
  split_ifs at h with hempty
  · rw [List.isEmpty_iff.mp hempty] at hm
    exact absurd hm List.not_mem_nil
  · cases hwaiver : row.noticesWaiver with
    | none => simp [hwaiver] at h
    | some waiver =>
      simp only [hwaiver] at h
      split_ifs at h with hleft
      have hnone := List.length_eq_zero_iff.mp (Nat.eq_zero_of_not_pos hleft)
      have hcovered := List.filter_eq_nil_iff.mp hnone m hm
      simpa [FeePolicyChangeRow.covered, hwaiver] using hcovered

/-- **What a promotion that goes on has found**: a scheduled change whose day has come, past the
gate. -/
theorem beginPromote_ok {w : FeePolicyDesk} {id : Uuid} {nowUnix : Int} {work : FeeWork}
    (h : w.beginPromote id nowUnix = .ok (some work)) :
    ∃ row, w.find id = some row ∧ row ∈ w.changes ∧ row.state = .scheduled ∧
      row.effectiveFrom ≤ nowUnix ∧ w.noticeGate row = .ok () ∧
      work = .promoting row nowUnix (w.holders row.service) := by
  unfold beginPromote at h
  cases hfind : w.find id with
  | none => simp [hfind] at h
  | some row =>
    simp only [hfind] at h
    split_ifs at h with hproduct hdue
    · cases h
    · obtain ⟨hstate, htime⟩ := not_or.mp hdue
      cases hgate : w.noticeGate row with
      | error e => simp [hgate] at h
      | ok _ =>
        simp only [hgate, Except.ok.injEq, Option.some.injEq] at h
        exact ⟨row, rfl, (find_mem hfind).1, not_not.mp hstate, not_lt.mp htime, hgate, h.symm⟩

/-! ## What each transaction leaves -/

/-- **An insertion**: under a new id, into a product with no change on its way. The consilium it is
opened with is a new one. -/
theorem endSchedule_ok {w w' : FeePolicyDesk} {change : NewFeePolicyChange}
    {opening : Option ConsiliumOpening} {current : Option FeePolicy} {hasHolders : Bool}
    (h : w.endSchedule change opening current hasHolders = .ok w') :
    (∀ r ∈ w.changes, r.id ≠ change.id) ∧
      (∀ r ∈ w.changes, r.service = change.service → r.pending = false) ∧
      let inserted := { w with changes := w.changes ++ [w.scheduledRow change opening hasHolders] }
      (opening = none ∧ w' = inserted.enqueueNotices (w.scheduledRow change none hasHolders) none
          current hasHolders ∨
        ∃ o, opening = some o ∧ w.subjects o.consilium = none ∧
          w' = { inserted with
            subjects := Function.update w.subjects o.consilium (some o.subject) }) := by
  unfold endSchedule at h
  dsimp only at h
  split_ifs at h with htaken
  have htaken : ∀ r ∈ w.changes, r.id ≠ change.id ∧
      (r.service = change.service → r.pending = false) := by
    intro r hr
    have hfree := mt (fun htrue => List.any_eq_true.mpr ⟨r, hr, htrue⟩) htaken
    simp only [Bool.or_eq_true, Bool.and_eq_true, decide_eq_true_eq, not_or, not_and] at hfree
    exact ⟨hfree.1, fun hservice => Bool.eq_false_iff.mpr (hfree.2 hservice).1⟩
  refine ⟨fun r hr => (htaken r hr).1, fun r hr => (htaken r hr).2, ?_⟩
  cases opening with
  | none => exact .inl ⟨rfl, (Except.ok.inj h).symm⟩
  | some o =>
    simp only at h
    split_ifs at h with hconsilium
    exact .inr ⟨o, rfl, by simpa using hconsilium, (Except.ok.inj h).symm⟩

/-- A change's row closed under `state`, its notices that are out withdrawn. -/
def closed (w : FeePolicyDesk) (id : Uuid) (state : FeePolicyChangeState) : FeePolicyDesk :=
  { w with
    changes := updateWhere (fun r => r.id = id) (fun r => { r with state }) w.changes
    mails := updateWhere (fun m => m.change = id ∧ m.sent = false ∧ m.withdrawn = false)
      (fun m => { m with withdrawn := true }) w.mails }

/-- Taking down a change's consilium leaves everything as it was, or refuses a change that waits. -/
theorem withdrawConsilium_cases (w : FeePolicyDesk) (probe : FeePolicyChangeRow) (isOpen : Bool) :
    w.withdrawConsilium probe isOpen = (false, w) ∨
      probe.state = .awaitingConsilium ∧
        ∃ consilium, w.withdrawConsilium probe isOpen = (true, w.rejectOn probe.id consilium) := by
  unfold withdrawConsilium
  split
  case h_1 consilium hconsilium hstate =>
    split_ifs
    · exact .inr ⟨hstate, consilium, rfl⟩
    · exact .inl rfl
  case h_2 => exact .inl rfl

/-- **A withdrawal** leaves everything as it was, or closes a change on its way, once its consilium
has let go of it. -/
theorem cancel_ok {w w' : FeePolicyDesk} {service : ServiceId} {id : Uuid} {isOpen : Bool}
    (h : w.cancel service id isOpen = .ok w') :
    w' = w ∨ ∃ probe opened, w.find id = some probe ∧ probe.pending = true ∧
      (opened = w ∨ ∃ consilium, opened = w.rejectOn id consilium) ∧
      (∃ r, opened.find id = some r ∧ r.state ≠ .active ∧ r.state ≠ .superseded) ∧
      w' = opened.closed id .cancelled := by
  unfold cancel at h
  cases hprobe : w.find id with
  | none => simp [hprobe] at h
  | some probe =>
    simp only [hprobe] at h
    rcases w.withdrawConsilium_cases probe isOpen with hkept | ⟨hwaits, consilium, htaken⟩
    · simp only [hkept, hprobe] at h
      split at h
      · cases h
      cases hstate : probe.state <;> simp only [hstate] at h
      case awaitingConsilium | scheduled =>
        exact .inr ⟨probe, w, rfl, by simp [FeePolicyChangeRow.pending, hstate], .inl rfl,
          ⟨probe, hprobe, by simp [hstate], by simp [hstate]⟩, (Except.ok.inj h).symm⟩
      case rejected | cancelled => exact .inl (Except.ok.inj h).symm
      case active | superseded => cases h
    · simp only [htaken, (find_mem hprobe).2] at h
      cases hfind : (w.rejectOn id consilium).find id with
      | none => simp [hfind] at h
      | some change =>
        have hpending : probe.pending = true := by simp [FeePolicyChangeRow.pending, hwaits]
        simp only [hfind] at h
        split at h
        · cases h
        cases hstate : change.state <;> simp only [hstate, if_true] at h
        case awaitingConsilium | scheduled | rejected =>
          exact .inr ⟨probe, _, rfl, hpending, .inr ⟨consilium, rfl⟩,
            ⟨change, hfind, by simp [hstate], by simp [hstate]⟩, (Except.ok.inj h).symm⟩
        case cancelled => exact .inl (Except.ok.inj h).symm
        case active | superseded => cases h

/-- **An acknowledgement** leaves everything as it was, or adds to those a scheduled change may bind
over only holders whose notice was given up on. -/
theorem acknowledge_ok {w w' : FeePolicyDesk} {service : ServiceId} {id : Uuid} {givenBy : String}
    {nowUnix : Int} (h : w.acknowledge service id givenBy nowUnix = .ok w') :
    w' = w ∨ ∃ r waiver, w.find id = some r ∧ r.service = service ∧ r.state = .scheduled ∧
      (∀ u ∈ r.covered, u ∈ waiver.users) ∧
      (∀ u ∈ waiver.users, u ∈ r.covered ∨ ∃ m ∈ w.mails, m.change = id ∧ m.user = u ∧
        m.sent = false ∧ givenUp m = true) ∧
      w' = { w with
        changes := updateWhere (fun r => r.id = id)
          (fun r => { r with noticesWaiver := some waiver }) w.changes } := by
  unfold acknowledge at h
  split_ifs at h with hproduct
  cases hfind : w.find id with
  | none => simp [hfind] at h
  | some r =>
    simp only [hfind] at h
    split_ifs at h with hservice hstate hsome htighter hempty hsome
    · exact .inl (Except.ok.inj h).symm
    · exact .inl (Except.ok.inj h).symm
    · refine .inr ⟨r, _, rfl, not_not.mp hservice, not_not.mp hstate,
        fun u hu => List.mem_append_left _ hu, fun u hu => ?_, (Except.ok.inj h).symm⟩
      rcases List.mem_append.mp hu with hu | hu
      · exact .inl hu
      · obtain ⟨m, hm, rfl⟩ := List.mem_map.mp hu
        obtain ⟨hm, hup⟩ := List.mem_filter.mp hm
        obtain ⟨hm, hout⟩ := List.mem_filter.mp hm
        simp only [Bool.and_eq_true, Bool.not_eq_true', decide_eq_true_eq] at hup hout
        exact .inr ⟨m, hm, hout.1.1.1.trans (find_mem hfind).2, rfl, hout.1.1.2, hup.1⟩

end FeePolicyDesk

end Banking
