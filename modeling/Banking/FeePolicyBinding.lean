import Banking.FeePolicyChangeRuns

/-! # The history of a product's terms

What stands over whole runs: what becomes of a change, which terms are in force, who had to agree to
them, and who was told before they got dearer. -/

namespace Banking

open KeyedRows (updateWhere mem_updateWhere)

/-! ## What becomes of a change -/

/-- One move of a change. -/
inductive FeePolicyChangeState.Move : FeePolicyChangeState → FeePolicyChangeState → Prop
  | carried : Move .awaitingConsilium .scheduled
  | refused : Move .awaitingConsilium .rejected
  | withdrawn {s : FeePolicyChangeState} (h : s = .awaitingConsilium ∨ s = .scheduled) :
      Move s .cancelled
  | promoted : Move .scheduled .active
  | replaced : Move .active .superseded

/-- No move leads back to the owners. -/
theorem FeePolicyChangeState.Move.ne_awaiting {s s' : FeePolicyChangeState} (h : s.Move s') :
    s' ≠ .awaitingConsilium := by
  cases h <;> decide

/-- A closed change has no move. -/
theorem FeePolicyChangeState.Move.not_closed {s s' : FeePolicyChangeState} (h : s.Move s') :
    s ≠ .rejected ∧ s ≠ .cancelled ∧ s ≠ .superseded := by
  cases h with
  | withdrawn hs => rcases hs with rfl | rfl <;> simp
  | carried | refused | promoted | replaced => simp

/-- **A change later on**: what was asked for is what it stays, its day is fixed once the owners
have spoken, and a waiver only grows. -/
structure FeePolicyChangeRow.Becomes (r r' : FeePolicyChangeRow) : Prop where
  id : r'.id = r.id
  service : r'.service = r.service
  version : r'.version = r.version
  policy : r'.policy = r.policy
  requirement : r'.requirement = r.requirement
  consiliumId : r'.consiliumId = r.consiliumId
  requestedBy : r'.requestedBy = r.requestedBy
  reason : r'.reason = r.reason
  state : Relation.ReflTransGen FeePolicyChangeState.Move r.state r'.state
  day : r.state ≠ .awaitingConsilium →
    r'.scheduledAt = r.scheduledAt ∧ r'.effectiveFrom = r.effectiveFrom
  covered : ∀ u ∈ r.covered, u ∈ r'.covered

theorem FeePolicyChangeRow.Becomes.refl (r : FeePolicyChangeRow) : r.Becomes r :=
  ⟨rfl, rfl, rfl, rfl, rfl, rfl, rfl, rfl, .refl, fun _ => ⟨rfl, rfl⟩, fun _ hu => hu⟩

/-- A change that is not with its owners does not return to them. -/
theorem FeePolicyChangeRow.Becomes.ne_awaiting {r r' : FeePolicyChangeRow} (h : r.Becomes r')
    (hr : r.state ≠ .awaitingConsilium) : r'.state ≠ .awaitingConsilium := by
  rcases h.state.cases_tail with hsame | ⟨_, -, hmove⟩
  · rw [hsame]
    exact hr
  · exact hmove.ne_awaiting

theorem FeePolicyChangeRow.Becomes.trans {a b c : FeePolicyChangeRow} (hab : a.Becomes b)
    (hbc : b.Becomes c) : a.Becomes c where
  id := hbc.id.trans hab.id
  service := hbc.service.trans hab.service
  version := hbc.version.trans hab.version
  policy := hbc.policy.trans hab.policy
  requirement := hbc.requirement.trans hab.requirement
  consiliumId := hbc.consiliumId.trans hab.consiliumId
  requestedBy := hbc.requestedBy.trans hab.requestedBy
  reason := hbc.reason.trans hab.reason
  state := hab.state.trans hbc.state
  day := fun ha => by
    obtain ⟨hscheduled, heffective⟩ := hbc.day (hab.ne_awaiting ha)
    exact ⟨hscheduled.trans (hab.day ha).1, heffective.trans (hab.day ha).2⟩
  covered := fun u hu => hbc.covered u (hab.covered u hu)

/-- A change moved on. -/
theorem FeePolicyChangeRow.Becomes.of_move {r : FeePolicyChangeRow} {state : FeePolicyChangeState}
    (h : r.state.Move state) : r.Becomes { r with state } :=
  ⟨rfl, rfl, rfl, rfl, rfl, rfl, rfl, rfl, .single h, fun _ => ⟨rfl, rfl⟩, fun _ hu => hu⟩

namespace FeePolicyDesk

/-- An update under which every row becomes what it does. -/
theorem becomes_updateWhere {q : FeePolicyChangeRow → Prop} [DecidablePred q]
    {f : FeePolicyChangeRow → FeePolicyChangeRow} {rows : List FeePolicyChangeRow}
    (h : ∀ r ∈ rows, q r → r.Becomes (f r)) :
    ∀ r ∈ rows, ∃ r' ∈ updateWhere q f rows, r.Becomes r' := by
  intro r hr
  refine ⟨_, mem_updateWhere.mpr ⟨r, hr, rfl⟩, ?_⟩
  split_ifs with hq
  · exact h r hr hq
  · exact .refl r

/-- A refusal. -/
theorem rejectOn_becomes (w : FeePolicyDesk) (id consilium : Uuid) :
    ∀ r ∈ w.changes, ∃ r' ∈ (w.rejectOn id consilium).changes, r.Becomes r' :=
  becomes_updateWhere fun _ _ hq => FeePolicyChangeRow.Becomes.of_move (hq.2.2 ▸ .refused)

/-- A withdrawal. -/
theorem Sound.cancel_becomes {w w' : FeePolicyDesk} (h : w.Sound) {service : ServiceId} {id : Uuid}
    {isOpen : Bool} (hcancel : w.cancel service id isOpen = .ok w') :
    ∀ r ∈ w.changes, ∃ r' ∈ w'.changes, r.Becomes r' := by
  rcases cancel_ok hcancel with rfl | ⟨probe, opened, hfind, hpending, hopened, -, rfl⟩
  · exact fun r hr => ⟨r, hr, .refl r⟩
  obtain ⟨hprobe, hid⟩ := find_mem hfind
  intro r hr
  by_cases hrid : r.id = id
  · -- whatever its consilium made of it, the change is withdrawn
    obtain rfl := h.tables.keyed.eq hr hprobe (hrid.trans hid.symm)
    have hstate : r.state = .awaitingConsilium ∨ r.state = .scheduled := by
      simpa [FeePolicyChangeRow.pending] using hpending
    refine ⟨{ r with state := .cancelled }, ?_, .of_move (.withdrawn hstate)⟩
    rcases hopened with rfl | ⟨consilium, rfl⟩
    · exact mem_updateWhere.mpr ⟨r, hr, if_pos hrid⟩
    · refine mem_updateWhere.mpr ⟨_, mem_updateWhere.mpr ⟨r, hr, rfl⟩, ?_⟩
      split_ifs <;> rfl
  · refine ⟨r, mem_updateWhere.mpr ⟨r, ?_, if_neg hrid⟩, .refl r⟩
    rcases hopened with rfl | ⟨consilium, rfl⟩
    · exact hr
    · exact mem_updateWhere.mpr ⟨r, hr, if_neg fun hq => hrid hq.1⟩

/-- **A step** leaves every change, moved on or as it was. -/
theorem Sound.becomes_step {w w' : FeePolicyDesk} (h : w.Sound) (hstep : Step w w') :
    ∀ r ∈ w.changes, ∃ r' ∈ w'.changes, r.Becomes r' := by
  have hsame : ∀ r ∈ w.changes, ∃ r' ∈ w.changes, r.Becomes r' := fun r hr => ⟨r, hr, .refl r⟩
  have hsole : ∀ row ∈ w.changes, ∀ r ∈ w.changes, r.id = row.id → r = row :=
    fun row hrow r hr hid => h.tables.keyed.eq hr hrow hid
  cases hstep with
  | tick | register | project | begins | lost | delivers => exact hsame
  | @commits _ service work hwork hends =>
    cases work with
    | scheduling change opening current hasHolders =>
      have hinserted : ∀ r ∈ w.changes,
          r ∈ w.changes ++ [w.scheduledRow change opening hasHolders] :=
        fun r hr => List.mem_append_left _ hr
      obtain ⟨-, -, ⟨rfl, rfl⟩ | ⟨o, rfl, -, rfl⟩⟩ := endSchedule_ok hends
      · exact fun r hr => ⟨r, hinserted r hr, .refl r⟩
      · exact fun r hr => ⟨r, hinserted r hr, .refl r⟩
    | carrying row subject nowUnix current hasHolders =>
      obtain rfl := Except.ok.inj hends
      obtain ⟨hrow, -, hstate, -⟩ := h.working _ _ hwork
      refine becomes_updateWhere fun r hr hid => ?_
      obtain rfl := hsole row hrow r hr hid
      exact ⟨rfl, rfl, rfl, rfl, rfl, rfl, rfl, rfl, .single (hstate ▸ .carried),
        fun hne => absurd hstate hne, fun _ hu => hu⟩
    | promoting row nowUnix holders =>
      obtain rfl := Except.ok.inj hends
      obtain ⟨hrow, rfl, hstate, -⟩ := h.working _ _ hwork
      have hmem := mem_endPromote h.tables hrow hstate nowUnix holders
      intro r hr
      by_cases hid : r.id = row.id
      · obtain rfl := hsole row hrow r hr hid
        exact ⟨_, (hmem _).mpr (.inl rfl), rfl, rfl, rfl, rfl, rfl, rfl, rfl, rfl,
          .single (hstate ▸ .promoted), fun _ => ⟨rfl, rfl⟩, fun _ hu => hu⟩
      · by_cases hactive : r.service = row.service ∧ r.state = .active
        · exact ⟨_, (hmem _).mpr (.inr (.inl ⟨r, hr, hactive.1, hactive.2, rfl⟩)),
            .of_move (hactive.2 ▸ .replaced)⟩
        · exact ⟨r, (hmem _).mpr (.inr (.inr ⟨hr, hid, hactive⟩)), .refl r⟩
  | rejects consilium hfree => exact w.rejectOn_becomes _ consilium
  | cancels hfree hcancel => exact h.cancel_becomes hcancel
  | acknowledges hfree hack =>
    rcases acknowledge_ok hack with rfl | ⟨row, waiver, hfind, -, -, hgrows, -, rfl⟩
    · exact hsame
    · obtain ⟨hrow, hid⟩ := find_mem hfind
      refine becomes_updateWhere fun r hr hrid => ?_
      obtain rfl := hsole row hrow r hr (hrid.trans hid.symm)
      exact ⟨rfl, rfl, rfl, rfl, rfl, rfl, rfl, rfl, .refl, fun _ => ⟨rfl, rfl⟩, hgrows⟩

/-- **A run** does. -/
theorem Sound.becomes_run {w w' : FeePolicyDesk} (h : w.Sound) (hrun : Run w w') :
    ∀ r ∈ w.changes, ∃ r' ∈ w'.changes, r.Becomes r' := by
  induction hrun with
  | refl => exact fun r hr => ⟨r, hr, .refl r⟩
  | tail hrun hstep ih =>
    intro r hr
    obtain ⟨r', hr', hbecomes⟩ := ih r hr
    obtain ⟨r'', hr'', hbecomes'⟩ := (h.run hrun).becomes_step hstep r' hr'
    exact ⟨r'', hr'', hbecomes.trans hbecomes'⟩

/-! ## The terms in force -/

/-- The terms the last promotion of a product put in force. -/
def lastBound (bound : List BoundChange) (service : ServiceId) : Option LivePolicy :=
  (bound.filter fun b => b.row.service = service).getLast?.map (·.row.live)

/-- One more promotion. -/
theorem lastBound_append (bound : List BoundChange) (b : BoundChange) (service : ServiceId) :
    lastBound (bound ++ [b]) service =
      if b.row.service = service then some b.row.live else lastBound bound service := by
  unfold lastBound
  rw [List.filter_append]
  split_ifs with hservice
  · simp [hservice]
  · simp [hservice]

/-- **A step promotes one change, or none**: the terms in force move with it, and it is told what it
replaced. -/
theorem Sound.step_bound {w w' : FeePolicyDesk} (h : w.Sound) (hstep : Step w w') :
    w'.policies = w.policies ∧ w'.bound = w.bound ∨
      ∃ b : BoundChange, w'.bound = w.bound ++ [b] ∧ b.current = w.currentTerms b.row.service ∧
        w'.policies = Function.update w.policies b.row.service (some b.row.live) := by
  cases hstep with
  | tick | register | project | begins | lost | delivers | rejects => exact .inl ⟨rfl, rfl⟩
  | @commits _ service work hwork hends =>
    cases work with
    | scheduling change opening current hasHolders =>
      obtain ⟨-, -, ⟨rfl, rfl⟩ | ⟨o, rfl, -, rfl⟩⟩ := endSchedule_ok hends <;>
        exact .inl ⟨rfl, rfl⟩
    | carrying =>
      obtain rfl := Except.ok.inj hends
      exact .inl ⟨rfl, rfl⟩
    | promoting row nowUnix holders =>
      obtain rfl := Except.ok.inj hends
      exact .inr ⟨_, rfl, rfl, rfl⟩
  | cancels hfree hcancel =>
    rcases cancel_ok hcancel with rfl | ⟨-, opened, -, -, rfl | ⟨consilium, rfl⟩, -, rfl⟩ <;>
      exact .inl ⟨rfl, rfl⟩
  | acknowledges hfree hack =>
    rcases acknowledge_ok hack with rfl | ⟨row, waiver, -, -, -, -, -, rfl⟩ <;>
      exact .inl ⟨rfl, rfl⟩

/-- **The terms in force** are those of the last promotion, or what the history began with. -/
theorem Began.policies_eq {w₀ w : FeePolicyDesk} (hbegan : w₀.Began) (hrun : Run w₀ w)
    (service : ServiceId) : w.policies service = (lastBound w.bound service).or
      (w₀.policies service) := by
  induction hrun with
  | refl => simp [lastBound, hbegan.bound]
  | tail hrun hstep ih =>
    rcases (hbegan.sound.run hrun).step_bound hstep with ⟨hpolicies, hbound⟩ |
      ⟨b, hbound, -, hpolicies⟩
    · rw [hpolicies, hbound, ih]
    · rw [hpolicies, hbound, lastBound_append, Function.update_apply]
      by_cases hservice : b.row.service = service
      · rw [if_pos hservice.symm, if_pos hservice, Option.some_or]
      · rw [if_neg (Ne.symm hservice), if_neg hservice, ih]

/-- Every promotion replaced what the one before it, of its product, had put in force. -/
def Chained (began : ServiceId → Option LivePolicy) (bound : List BoundChange) : Prop :=
  ∀ before b after, bound = before ++ b :: after →
    b.current = ((lastBound before b.row.service).or (began b.row.service)).map (·.policy)

theorem Began.chained {w₀ w : FeePolicyDesk} (hbegan : w₀.Began) (hrun : Run w₀ w) :
    Chained w₀.policies w.bound := by
  induction hrun with
  | refl =>
    intro before b after h
    simp [hbegan.bound] at h
  | @tail w w' hrun hstep ih =>
    rcases (hbegan.sound.run hrun).step_bound hstep with ⟨-, hbound⟩ | ⟨b, hbound, hcurrent, -⟩
    · rw [hbound]
      exact ih
    · intro before x after h
      rw [hbound] at h
      rcases List.eq_nil_or_concat after with rfl | ⟨after, y, rfl⟩
      · obtain ⟨rfl, hx⟩ := List.append_inj' h rfl
        obtain rfl := List.singleton_inj.mp hx
        rw [hcurrent, currentTerms, hbegan.policies_eq hrun]
      · rw [List.concat_eq_append, ← List.cons_append, ← List.append_assoc] at h
        exact ih before x after (List.append_inj' h rfl).1

/-! ## A sample -/

/-- A lock just taken. -/
theorem withWork_self (w : FeePolicyDesk) (service : ServiceId) (work : Option FeeWork) :
    (w.withWork service work).work service = work := by
  unfold withWork
  exact Function.update_self _ _ _

/-- Half a percent a year. -/
def sampleCheap : FeePolicy := { FeePolicy.HOUSE with managementBps := 50 }

/-- The product of the sample. -/
def sampleFund : ServiceId := ⟨"service_arb"⟩

/-- The change the sample's terms came with. -/
def sampleFirst : FeePolicyChangeRow where
  id := .raw 1
  service := sampleFund
  version := 1
  policy := sampleCheap
  state := .active
  requirement := .admin
  effectiveFrom := 0
  consiliumId := none
  requestedBy := "admin"
  requestedAt := 0
  reason := ""
  scheduledAt := some 0
  appliedAt := some 0
  noticesWaiver := none

/-- One product, one holder. -/
def sampleTermsDesk : FeePolicyDesk where
  now := 0
  products := fun s => s = sampleFund
  users := fun u => u = .raw 7
  positions := [⟨sampleFund, .raw 7, 100⟩]
  policies := Function.update (fun _ => none) sampleFund (some sampleFirst.live)
  changes := [sampleFirst]
  mails := []
  subjects := fun _ => none
  work := fun _ => none
  given := []
  bound := []

theorem sampleTermsDesk_began : sampleTermsDesk.Began where
  keyed := List.nodup_singleton _
  active := fun r hr => by rw [List.mem_singleton.mp hr]; rfl
  waived := fun r hr => by rw [List.mem_singleton.mp hr]; rfl
  one := fun a ha b hb _ _ _ => (List.mem_singleton.mp ha).trans (List.mem_singleton.mp hb).symm
  live := fun r hr => by rw [List.mem_singleton.mp hr]; rfl
  held := fun s hs => by
    by_cases hservice : s = sampleFund
    · exact ⟨sampleFirst, List.mem_singleton_self _, hservice.symm⟩
    · simp [sampleTermsDesk, hservice] at hs
  users := fun p hp => by rw [List.mem_singleton.mp hp]; exact ⟨7, by decide, rfl⟩
  mails := rfl
  idle := fun _ => rfl
  given := rfl
  bound := rfl

/-- Back to the house's two percent. -/
def sampleDearer : NewFeePolicyChange where
  id := .raw 2
  service := sampleFund
  policy := .HOUSE
  requirement := .admin
  requestedEffectiveFrom := 0
  requestedBy := "admin"
  reason := ""
  nowUnix := 0

/-- The change once it is scheduled. -/
def sampleDearerRow : FeePolicyChangeRow :=
  sampleTermsDesk.scheduledRow sampleDearer none true

/-- The scheduling under way. -/
def sampleScheduling : FeePolicyDesk :=
  sampleTermsDesk.withWork sampleFund
    (some (.scheduling sampleDearer none (some sampleCheap) true))

/-- Scheduled, its one notice queued. -/
def sampleScheduled : FeePolicyDesk :=
  (enqueueNotices { sampleScheduling with changes := [sampleFirst, sampleDearerRow] }
    sampleDearerRow none (some sampleCheap) true).withWork sampleFund none

theorem sampleScheduled_run : Run sampleTermsDesk sampleScheduled := by
  have hopened : sampleDearer.OpenedWith none := trivial
  have hbegins : sampleTermsDesk.Begins sampleFund
      (.scheduling sampleDearer none (some sampleCheap) true) :=
    .schedule le_rfl ⟨2, by decide, rfl⟩ hopened rfl
  have hwork : sampleScheduling.work sampleFund =
      some (.scheduling sampleDearer none (some sampleCheap) true) := withWork_self _ _ _
  exact (Relation.ReflTransGen.single (.begins rfl hbegins)).tail (.commits hwork rfl)

/-- The notice sent, a day gone by, the promotion under way. -/
def samplePromoting : FeePolicyDesk :=
  withWork
    { sampleScheduled with
      now := MIN_NOTICE_SECS
      mails := updateWhere (fun m => m.dedupeKey = noticeKey (.raw 2) (.raw 7))
        (fun m => m.deliver true .taken 0) sampleScheduled.mails }
    sampleFund (some (.promoting sampleDearerRow MIN_NOTICE_SECS [.raw 7]))

/-- What is recorded of the promotion. -/
def samplePromotion : BoundChange where
  row := sampleDearerRow
  current := some sampleCheap
  holders := [.raw 7]
  stamp := MIN_NOTICE_SECS

/-- The change in force. -/
def samplePromoted : FeePolicyDesk :=
  (samplePromoting.endPromote sampleDearerRow MIN_NOTICE_SECS [.raw 7]).withWork sampleFund none

theorem samplePromoted_run : Run sampleTermsDesk samplePromoted := by
  have hsent := sampleScheduled_run.tail (.delivers _ (noticeKey (.raw 2) (.raw 7)) true .taken)
  have hdue := hsent.tail (.tick _ MIN_NOTICE_SECS (by decide))
  have hgate : beginPromote
      { sampleScheduled with
        now := MIN_NOTICE_SECS
        mails := updateWhere (fun m => m.dedupeKey = noticeKey (.raw 2) (.raw 7))
          (fun m => m.deliver true .taken 0) sampleScheduled.mails } (.raw 2) MIN_NOTICE_SECS =
      .ok (some (.promoting sampleDearerRow MIN_NOTICE_SECS [.raw 7])) := rfl
  have hbegun := hdue.tail (.begins rfl (.promote le_rfl rfl hgate))
  have hwork : samplePromoting.work sampleFund =
      some (.promoting sampleDearerRow MIN_NOTICE_SECS [.raw 7]) := withWork_self _ _ _
  exact hbegun.tail (.commits hwork rfl)

/-! ## What every run has -/

/-- **A change keeps what it asks for, and moves one way.** Of every change, at any later moment:
its terms, its reason and who has to agree to it are what they were, its day too once its owners
have spoken, and it has moved along its life, if at all. One that is refused or withdrawn stays so,
is never in force, and has no notice left to be sent. -/
theorem change_keeps_its_terms {w₀ w w' : FeePolicyDesk} (hbegan : w₀.Began) (hrun : Run w₀ w)
    (hlater : Run w w') {r : FeePolicyChangeRow} (hr : r ∈ w.changes) :
    ∃ r' ∈ w'.changes, r.Becomes r' ∧ (∀ x ∈ w'.changes, x.id = r.id → x = r') ∧
      (r.state = .rejected ∨ r.state = .cancelled → r'.state = r.state ∧
        (∀ b ∈ w'.bound, b.row.id ≠ r.id) ∧ ∀ m ∈ w'.mails, m.change = r.id → m.due = false) := by
  have hsound := (hbegan.sound.run hrun).run hlater
  obtain ⟨r', hr', hbecomes⟩ := (hbegan.sound.run hrun).becomes_run hlater r hr
  refine ⟨r', hr', hbecomes, fun x hx hid => hsound.tables.keyed.eq hx hr'
    (hid.trans hbecomes.id.symm), fun hclosed => ?_⟩
  have hstate : r'.state = r.state := by
    rcases hbecomes.state.cases_head with hsame | ⟨_, hmove, -⟩
    · exact hsame.symm
    · obtain ⟨hrejected, hcancelled, -⟩ := hmove.not_closed
      exact absurd hclosed (not_or.mpr ⟨hrejected, hcancelled⟩)
  refine ⟨hstate, fun b hb hid => ?_, fun m hm hchange => ?_⟩
  · obtain ⟨x, hx, hxid, hsettled⟩ := (hsound.boundOver b hb).settled
    obtain rfl := hsound.tables.keyed.eq hx hr' ((hxid.trans hid).trans hbecomes.id.symm)
    rw [Settled, hstate] at hsettled
    rcases hclosed with hclosed | hclosed <;> simp [hclosed] at hsettled
  · rw [← hstate] at hclosed
    rcases hsound.queue.closed r' hr' hclosed m hm (hchange.trans hbecomes.id.symm) with h | h <;>
      simp [NoticeMail.due, h]

theorem change_keeps_its_terms_sample :
    ∃ r' ∈ samplePromoted.changes, sampleFirst.Becomes r' ∧
      ∀ x ∈ samplePromoted.changes, x.id = sampleFirst.id → x = r' := by
  obtain ⟨r', hr', hbecomes, hone, -⟩ := change_keeps_its_terms sampleTermsDesk_began .refl
    samplePromoted_run (List.mem_singleton_self sampleFirst)
  exact ⟨r', hr', hbecomes, hone⟩

/-- **One change on its way, one in force.** In every state a product has at most one change pending
and at most one active; its terms are those of its last promotion, or what the history began with;
no change is promoted twice; and every promotion replaced what the one before had put in force. -/
theorem one_change_in_force {w₀ w : FeePolicyDesk} (hbegan : w₀.Began) (hrun : Run w₀ w) :
    (∀ a ∈ w.changes, ∀ b ∈ w.changes, a.service = b.service →
      a.pending = true ∧ b.pending = true ∨ a.state = .active ∧ b.state = .active → a = b) ∧
    (∀ s, w.policies s = (lastBound w.bound s).or (w₀.policies s)) ∧
    (∀ s live, w.policies s = some live →
      ∃ r ∈ w.changes, r.service = s ∧ r.state = .active ∧ r.live = live) ∧
    (w.bound.map (·.row.id)).Nodup ∧ Chained w₀.policies w.bound := by
  have hsound := hbegan.sound.run hrun
  refine ⟨fun a ha b hb hservice hstates => ?_, hbegan.policies_eq hrun, fun s live hlive => ?_,
    hsound.boundOnce, hbegan.chained hrun⟩
  · rcases hstates with ⟨hpa, hpb⟩ | ⟨haa, hab⟩
    · exact hsound.tables.pendingOne a ha b hb hpa hpb hservice
    · exact hsound.tables.activeOne a ha b hb haa hab hservice
  · obtain ⟨r, hr, rfl, hactive⟩ := hsound.tables.held s (by simp [hlive])
    exact ⟨r, hr, rfl, hactive,
      Option.some.inj ((hsound.tables.live r hr hactive).symm.trans hlive)⟩

theorem one_change_in_force_sample :
    samplePromoted.policies sampleFund = some sampleDearerRow.live ∧
      Chained sampleTermsDesk.policies samplePromoted.bound := by
  obtain ⟨-, hlast, -, -, hchained⟩ := one_change_in_force sampleTermsDesk_began samplePromoted_run
  exact ⟨hlast sampleFund, hchained⟩

/-- **Dearer terms bind told holders.** Of every promotion: the terms it replaced are those its
notices stated, and the notice was up where anyone held units when they went out. If the terms got
dearer in any leg, everyone on the roster of the notices who still held units when they were counted
had been sent one, of these terms and this day, or is named by the waiver, their notice given up
on. -/
theorem dearer_terms_bind_told_holders {w₀ w : FeePolicyDesk} (hbegan : w₀.Began)
    (hrun : Run w₀ w) {b : BoundChange} (hb : b ∈ w.bound) :
    ∃ g ∈ w.given, g.change = b.row.id ∧ g.current = b.current ∧
      (∃ t, b.row.scheduledAt = some t ∧
        (if g.hasHolders then saturatingAdd t MIN_NOTICE_SECS else t) ≤ b.stamp) ∧
      (b.row.policy.tightensFrom (b.current.getD .NONE) = true →
        ∀ u ∈ g.roster, u ∈ b.holders →
          (∃ m ∈ w.mails, m.user = u ∧ m.sent = true ∧ Tells m b.row b.current) ∨
          u ∈ b.row.covered ∧ ∃ m ∈ w.mails, m.change = b.row.id ∧ m.user = u ∧
            m.sent = false ∧ givenUp m = true) := by
  have hover := (hbegan.sound.run hrun).boundOver b hb
  obtain ⟨g, hg, hannounced⟩ := hover.announced
  obtain ⟨t, ht, hnotice⟩ := hannounced.stamped
  refine ⟨g, hg, hannounced.change, hannounced.replaced, ⟨t, ht, hnotice.trans hover.due⟩,
    fun htighter u hu hholds => ?_⟩
  obtain ⟨m, hm, rfl, htells, hout⟩ := hannounced.queued u hu
  rcases hover.cleared htighter m hm htells.1 hholds with hsent | hwithdrawn | hcovered
  · exact .inl ⟨m, hm, rfl, hsent, htells⟩
  · rw [hout] at hwithdrawn
    cases hwithdrawn
  · exact .inr ⟨hcovered, hover.waived _ hcovered⟩

theorem dearer_terms_bind_told_holders_sample :
    ∃ m ∈ samplePromoted.mails, m.user = .raw 7 ∧ m.sent = true ∧
      Tells m sampleDearerRow (some sampleCheap) := by
  have hbound : samplePromotion ∈ samplePromoted.bound := List.mem_singleton_self _
  obtain ⟨g, hg, -, -, -, htold⟩ :=
    dearer_terms_bind_told_holders sampleTermsDesk_began samplePromoted_run hbound
  obtain rfl := List.mem_singleton.mp hg
  rcases htold (by decide) (.raw 7) (by decide) (by decide) with hsent | ⟨hcovered, -⟩
  · exact hsent
  · exact absurd hcovered (by decide)

/-- An administrator's promotion keeps the terms of every product where they were bounded. -/
theorem Began.noDearer {w₀ w : FeePolicyDesk} (hbegan : w₀.Began) (hrun : Run w₀ w)
    (s : ServiceId) :
    (∀ b ∈ w.bound, b.row.service = s → b.row.requirement = .admin) →
      ((w₀.currentTerms s).getD .NONE).NoDearer ((w.currentTerms s).getD .NONE) := by
  induction hrun with
  | refl => exact fun _ => .refl _
  | @tail w w' hrun hstep ih =>
    intro hadmin
    have hsound := (hbegan.sound.run hrun).step hstep
    rcases (hbegan.sound.run hrun).step_bound hstep with ⟨hpolicies, hbound⟩ |
      ⟨b, hbound, hcurrent, hpolicies⟩
    · rw [currentTerms, currentTerms, hpolicies]
      exact ih (hbound ▸ hadmin)
    · have hold := ih fun x hx => hadmin x (hbound ▸ List.mem_append_left _ hx)
      have hb : b ∈ w'.bound := hbound ▸ List.mem_append_right _ (List.mem_singleton_self b)
      rw [currentTerms, currentTerms, hpolicies, Function.update_apply]
      by_cases hservice : s = b.row.service
      · subst hservice
        rw [if_pos rfl]
        have hjudged := (hsound.boundOver b hb).judged
        rw [hadmin b hb rfl, hcurrent] at hjudged
        exact hold.change hjudged
      · rw [if_neg hservice]
        exact hold

/-- **Whoever had to agree did.** A promotion needed the owners exactly where the rule says so of
the terms it replaced; then a consilium carried it, opened over those terms, these and this reason. So
while a product's promotions are administrators' alone, no leg of its terms gets dearer than the
larger of what it began with and the house envelope's, and its hurdle no lower. -/
theorem whoever_had_to_agree_did {w₀ w : FeePolicyDesk} (hbegan : w₀.Began) (hrun : Run w₀ w) :
    (∀ b ∈ w.bound, requirementFor b.current b.row.policy = b.row.requirement ∧
      (b.row.requirement = .ownerConsilium →
        ∃ consilium subject, w.subjects consilium = some subject ∧
          (∃ g ∈ w.given, g.change = b.row.id ∧ g.carriedBy = some consilium) ∧
          subject.changeId = b.row.id ∧ subject.service = b.row.service ∧
          subject.fromPolicy = b.current ∧ subject.toPolicy = b.row.policy ∧
          subject.reason = b.row.reason)) ∧
    ∀ s, (∀ b ∈ w.bound, b.row.service = s → b.row.requirement = .admin) →
      ((w₀.currentTerms s).getD .NONE).NoDearer ((w.currentTerms s).getD .NONE) := by
  refine ⟨fun b hb => ?_, hbegan.noDearer hrun⟩
  have hover := (hbegan.sound.run hrun).boundOver b hb
  refine ⟨hover.judged, fun howners => ?_⟩
  obtain ⟨consilium, subject, hconsilium, hsubject, hrest⟩ := hover.signed howners
  obtain ⟨g, hg, hannounced⟩ := hover.announced
  have hcarried := hannounced.carried
  rw [howners] at hcarried
  exact ⟨consilium, subject, hsubject, ⟨g, hg, hannounced.change, hcarried.1.trans hconsilium⟩,
    hrest⟩

theorem whoever_had_to_agree_did_sample :
    requirementFor (some sampleCheap) .HOUSE = .admin ∧
      sampleCheap.NoDearer ((samplePromoted.currentTerms sampleFund).getD .NONE) := by
  have hbound : ∀ b ∈ samplePromoted.bound, b = samplePromotion := fun b hb =>
    List.mem_singleton.mp hb
  obtain ⟨hjudged, hnoDearer⟩ :=
    whoever_had_to_agree_did sampleTermsDesk_began samplePromoted_run
  refine ⟨(hjudged samplePromotion (List.mem_singleton_self _)).1,
    hnoDearer sampleFund fun b hb _ => ?_⟩
  rw [hbound b hb]
  rfl

end FeePolicyDesk

end Banking
