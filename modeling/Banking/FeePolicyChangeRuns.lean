import Banking.FeePolicyChangeSteps

/-! # What binds the holders of a product

In any order of scheduling, approval, refusal, withdrawal, acknowledgement, delivery and promotion,
with positions moving all the while: a product has one change on its way and one in force; the terms
a change was judged against stand until it binds; and dearer terms bind over nobody who held units
when the notices went out and holds them when they are counted, but was neither told nor named by
whoever took responsibility. -/

namespace Banking

open KeyedRows (Keyed Sole updateWhere mem_updateWhere mem_updateWhere_of_neg
  mem_updateWhere_of_pos forall_updateWhere updateWhere_congr updateWhere_eq_self)

namespace FeePolicyDesk

/-! ## What is kept -/

/-- A notice of what a change brings, what it replaces and when. -/
def Tells (m : NoticeMail) (r : FeePolicyChangeRow) (current : Option FeePolicy) : Prop :=
  m.change = r.id ∧
    m.notice = { current, proposed := r.policy, effectiveAt := r.effectiveFrom }

/-- A change whose consilium was opened over these very terms. -/
def Signed (w : FeePolicyDesk) (r : FeePolicyChangeRow) (current : Option FeePolicy) : Prop :=
  ∃ consilium subject, r.consiliumId = some consilium ∧ w.subjects consilium = some subject ∧
    subject.changeId = r.id ∧ subject.service = r.service ∧ subject.fromPolicy = current ∧
    subject.toPolicy = r.policy ∧ subject.reason = r.reason

/-- **A change that was announced**: by whoever had to agree to it, with its day fixed by then, and
a notice to everyone on its roster that no one withdraws while it stands. -/
structure Announced (w : FeePolicyDesk) (r : FeePolicyChangeRow) (current : Option FeePolicy)
    (g : NoticeGiven) : Prop where
  change : g.change = r.id
  replaced : g.current = current
  carried : match r.requirement with
    | .admin => g.carriedBy = none
    | .ownerConsilium => g.carriedBy = r.consiliumId ∧ g.carriedBy ≠ none
  stamped : ∃ t, r.scheduledAt = some t ∧
    (if g.hasHolders then saturatingAdd t MIN_NOTICE_SECS else t) ≤ r.effectiveFrom
  queued : ∀ u ∈ g.roster, ∃ m ∈ w.mails, m.user = u ∧ Tells m r current ∧ m.withdrawn = false

/-- Every notice of a change to one of `holders` has been sent, or been withdrawn, or is waived. -/
def Cleared (w : FeePolicyDesk) (r : FeePolicyChangeRow) (holders : List UserId) : Prop :=
  ∀ m ∈ w.mails, m.change = r.id → m.user ∈ holders →
    m.sent = true ∨ m.withdrawn = true ∨ m.user ∈ r.covered

/-- **A change on its way**, judged against the terms in force. -/
structure OnItsWay (w : FeePolicyDesk) (r : FeePolicyChangeRow) (current : Option FeePolicy) :
    Prop where
  minted : r.id.Minted
  judged : requirementFor current r.policy = r.requirement
  signed : r.requirement = .ownerConsilium → w.Signed r current
  waits : r.state = .awaitingConsilium → r.requirement = .ownerConsilium ∧ r.scheduledAt = none
  announced : r.state = .scheduled → ∃ g ∈ w.given, w.Announced r current g

/-- What a transaction under way has found, and holds under its lock. -/
def Working (w : FeePolicyDesk) (service : ServiceId) : FeeWork → Prop
  | .scheduling change opening current _ =>
    change.service = service ∧ change.id.Minted ∧ change.OpenedWith opening ∧
      current = w.currentTerms service ∧ requirementFor current change.policy = change.requirement ∧
      ∀ o, opening = some o → o.subject.fromPolicy = current
  | .carrying row _ _ current _ =>
    row ∈ w.changes ∧ row.service = service ∧ row.state = .awaitingConsilium ∧
      current = w.currentTerms service
  | .promoting row nowUnix holders =>
    row ∈ w.changes ∧ row.service = service ∧ row.state = .scheduled ∧
      row.effectiveFrom ≤ nowUnix ∧
      (row.policy.tightensFrom ((w.currentTerms service).getD .NONE) = true →
        w.Cleared row holders)

/-- A change in force, or one that was. -/
def Settled (r : FeePolicyChangeRow) : Prop := r.state = .active ∨ r.state = .superseded

/-- **A change that was promoted.** -/
structure BoundOver (w : FeePolicyDesk) (b : BoundChange) : Prop where
  settled : ∃ r ∈ w.changes, r.id = b.row.id ∧ Settled r
  judged : requirementFor b.current b.row.policy = b.row.requirement
  signed : b.row.requirement = .ownerConsilium → w.Signed b.row b.current
  announced : ∃ g ∈ w.given, w.Announced b.row b.current g
  due : b.row.effectiveFrom ≤ b.stamp
  cleared : b.row.policy.tightensFrom (b.current.getD .NONE) = true → w.Cleared b.row b.holders
  waived : ∀ u ∈ b.row.covered, ∃ m ∈ w.mails, m.change = b.row.id ∧ m.user = u ∧
    m.sent = false ∧ givenUp m = true

/-- The changes, under the indexes, and the terms in force. -/
structure Tables (w : FeePolicyDesk) : Prop where
  keyed : Keyed FeePolicyChangeRow.id w.changes
  pendingOne : Sole (fun r => r.pending = true) FeePolicyChangeRow.service w.changes
  activeOne : Sole (fun r => r.state = .active) FeePolicyChangeRow.service w.changes
  live : ∀ r ∈ w.changes, r.state = .active → w.policies r.service = some r.live
  held : ∀ s, w.policies s ≠ none → ∃ r ∈ w.changes, r.service = s ∧ r.state = .active

/-- The queue: every notice under its own key and of a change that was scheduled, none out of a
change that is closed, one given up on for everyone a waiver names. -/
structure Queue (w : FeePolicyDesk) : Prop where
  users : ∀ p ∈ w.positions, p.user.Minted
  keys : ∀ m ∈ w.mails,
    m.dedupeKey = noticeKey m.change m.user ∧ m.change.Minted ∧ m.user.Minted
  mailed : ∀ m ∈ w.mails, ∃ r ∈ w.changes, r.id = m.change ∧ r.scheduledAt ≠ none
  closed : ∀ r ∈ w.changes, r.state = .rejected ∨ r.state = .cancelled → ∀ m ∈ w.mails,
    m.change = r.id → m.sent = true ∨ m.withdrawn = true
  covered : ∀ r ∈ w.changes, ∀ u ∈ r.covered, ∃ m ∈ w.mails, m.change = r.id ∧ m.user = u ∧
    m.sent = false ∧ givenUp m = true

/-- **The invariant.** -/
structure Sound (w : FeePolicyDesk) : Prop where
  tables : w.Tables
  queue : w.Queue
  onItsWay : ∀ r ∈ w.changes, r.pending = true → w.OnItsWay r (w.currentTerms r.service)
  working : ∀ s work, w.work s = some work → w.Working s work
  boundOnce : (w.bound.map (·.row.id)).Nodup
  boundOver : ∀ b ∈ w.bound, w.BoundOver b

/-! ## What is not undone -/

/-- **What a step adds to**: the notices, those withdrawn being of a change `taken` back, those new
of one `added`; the history; what consilia were opened over. -/
structure Extends (taken added : Uuid → Prop) (w w' : FeePolicyDesk) : Prop where
  mails : ∀ m ∈ w.mails, ∃ m' ∈ w'.mails, m.Becomes m' ∧
    (¬ taken m.change → m'.withdrawn = m.withdrawn)
  back : ∀ m' ∈ w'.mails, (∃ m ∈ w.mails, m.Becomes m') ∨ added m'.change
  given : ∀ g ∈ w.given, g ∈ w'.given
  subjects : ∀ c subject, w.subjects c = some subject → w'.subjects c = some subject

section

variable {taken added : Uuid → Prop} {w w' : FeePolicyDesk}

/-- A step that leaves the queue, the history and the consilia as they are. -/
theorem Extends.of_same (hmails : w'.mails = w.mails) (hgiven : w'.given = w.given)
    (hsubjects : w'.subjects = w.subjects) : Extends taken added w w' where
  mails := fun m hm => ⟨m, hmails ▸ hm, .refl m, fun _ => rfl⟩
  back := fun m hm => .inl ⟨m, hmails ▸ hm, .refl m⟩
  given := fun _ hg => hgiven ▸ hg
  subjects := fun _ _ hs => hsubjects ▸ hs

/-- A notice given up on stays so. -/
theorem Extends.givenUp (hx : Extends taken added w w') {id : Uuid} {u : UserId}
    (h : ∃ m ∈ w.mails, m.change = id ∧ m.user = u ∧ m.sent = false ∧ givenUp m = true) :
    ∃ m ∈ w'.mails, m.change = id ∧ m.user = u ∧ m.sent = false ∧ givenUp m = true := by
  obtain ⟨m, hm, hchange, huser, hsent, hup⟩ := h
  obtain ⟨m', hm', hbecomes, -⟩ := hx.mails m hm
  exact ⟨m', hm', hbecomes.change.trans hchange, hbecomes.user.trans huser,
    hbecomes.givenUp hsent hup⟩

theorem Signed.extends {r : FeePolicyChangeRow} {current : Option FeePolicy}
    (h : w.Signed r current) (hx : Extends taken added w w') : w'.Signed r current := by
  obtain ⟨consilium, subject, hc, hsubject, hrest⟩ := h
  exact ⟨consilium, subject, hc, hx.subjects _ _ hsubject, hrest⟩

theorem Announced.extends {r : FeePolicyChangeRow} {current : Option FeePolicy} {g : NoticeGiven}
    (h : w.Announced r current g) (hx : Extends taken added w w') (htaken : ¬ taken r.id) :
    w'.Announced r current g := by
  refine ⟨h.change, h.replaced, h.carried, h.stamped, fun u hu => ?_⟩
  obtain ⟨m, hm, huser, ⟨hchange, hnotice⟩, hout⟩ := h.queued u hu
  obtain ⟨m', hm', hbecomes, hkept⟩ := hx.mails m hm
  refine ⟨m', hm', hbecomes.user.trans huser,
    ⟨hbecomes.change.trans hchange, hbecomes.notice.trans hnotice⟩, ?_⟩
  rw [hkept (hchange ▸ htaken), hout]

theorem Cleared.extends {r : FeePolicyChangeRow} {holders : List UserId}
    (h : w.Cleared r holders) (hx : Extends taken added w w') (hadded : ¬ added r.id) :
    w'.Cleared r holders := by
  intro m' hm' hchange huser
  rcases hx.back m' hm' with ⟨m, hm, hbecomes⟩ | hnew
  · rw [hbecomes.change] at hchange
    rw [hbecomes.user] at huser ⊢
    rcases h m hm hchange huser with hsent | hwithdrawn | hcovered
    · exact .inl (hbecomes.sent hsent)
    · exact .inr (.inl (hbecomes.withdrawn hwithdrawn))
    · exact .inr (.inr hcovered)
  · exact absurd (hchange ▸ hnew) hadded

/-- A change on its way stays one while its row and its terms stand. -/
theorem OnItsWay.extends {r : FeePolicyChangeRow} {current : Option FeePolicy}
    (h : w.OnItsWay r current) (hx : Extends taken added w w') (htaken : ¬ taken r.id) :
    w'.OnItsWay r current where
  minted := h.minted
  judged := h.judged
  signed := fun howners => (h.signed howners).extends hx
  waits := h.waits
  announced := fun hscheduled => by
    obtain ⟨g, hg, hannounced⟩ := h.announced hscheduled
    exact ⟨g, hx.given g hg, hannounced.extends hx htaken⟩

/-- What a transaction holds stands while its row does and its product's terms do. -/
theorem Working.extends {service : ServiceId} {work : FeeWork} (h : w.Working service work)
    (hx : Extends taken added w w')
    (hrow : ∀ r ∈ w.changes, work.lockedRow = some r.id → r ∈ w'.changes ∧ ¬ added r.id)
    (hterms : w'.currentTerms service = w.currentTerms service) : w'.Working service work := by
  cases work with
  | scheduling change opening current hasHolders =>
    simpa only [Working, hterms] using h
  | carrying row subject nowUnix current hasHolders =>
    obtain ⟨hmem, hrest⟩ := h
    simp only [Working, hterms]
    exact ⟨(hrow row hmem rfl).1, hrest⟩
  | promoting row nowUnix holders =>
    obtain ⟨hmem, hservice, hstate, hdue, hcleared⟩ := h
    simp only [Working, hterms]
    obtain ⟨hmem', hadded⟩ := hrow row hmem rfl
    exact ⟨hmem', hservice, hstate, hdue, fun htighter => (hcleared htighter).extends hx hadded⟩

/-- What was promoted stays so. -/
theorem BoundOver.extends {b : BoundChange} (h : w.BoundOver b) (hx : Extends taken added w w')
    (hsettled : ∀ r ∈ w.changes, r.id = b.row.id → Settled r →
      (∃ r' ∈ w'.changes, r'.id = b.row.id ∧ Settled r') ∧ ¬ taken b.row.id ∧ ¬ added b.row.id) :
    w'.BoundOver b := by
  obtain ⟨r, hr, hid, hstate⟩ := h.settled
  obtain ⟨hstays, htaken, hadded⟩ := hsettled r hr hid hstate
  obtain ⟨g, hg, hannounced⟩ := h.announced
  exact
    { settled := hstays
      judged := h.judged
      signed := fun howners => (h.signed howners).extends hx
      announced := ⟨g, hx.given g hg, hannounced.extends hx htaken⟩
      due := h.due
      cleared := fun htighter => (h.cleared htighter).extends hx hadded
      waived := fun u hu => hx.givenUp (h.waived u hu) }

/-- **The queue after a step**: rows keep their ids and their stamps, what is new is keyed and
stamped, a change that is closed now was, or has nothing out, and a waiver names whom it did, or
holders whose notice is given up on. -/
theorem Queue.extends (h : w.Queue) (hx : Extends taken added w w')
    (hrows : ∀ r ∈ w.changes, ∃ r' ∈ w'.changes, r'.id = r.id ∧
      (r.scheduledAt ≠ none → r'.scheduledAt ≠ none))
    (husers : ∀ p ∈ w'.positions, p.user.Minted)
    (hnew : ∀ m' ∈ w'.mails, added m'.change →
      (m'.dedupeKey = noticeKey m'.change m'.user ∧ m'.change.Minted ∧ m'.user.Minted) ∧
        ∃ r ∈ w'.changes, r.id = m'.change ∧ r.scheduledAt ≠ none)
    (hclosed : ∀ r' ∈ w'.changes, r'.state = .rejected ∨ r'.state = .cancelled →
      (∃ r ∈ w.changes, r.id = r'.id ∧ ¬ added r.id ∧
        (r.state = .rejected ∨ r.state = .cancelled)) ∨
      ∀ m ∈ w'.mails, m.change = r'.id → m.sent = true ∨ m.withdrawn = true)
    (hcovered : ∀ r' ∈ w'.changes, ∀ u ∈ r'.covered,
      (∃ r ∈ w.changes, r.id = r'.id ∧ u ∈ r.covered) ∨
      ∃ m ∈ w.mails, m.change = r'.id ∧ m.user = u ∧ m.sent = false ∧ givenUp m = true) :
    w'.Queue where
  users := husers
  keys := fun m' hm' => by
    rcases hx.back m' hm' with ⟨m, hm, hbecomes⟩ | hadded
    · rw [hbecomes.key, hbecomes.change, hbecomes.user]
      exact h.keys m hm
    · exact (hnew m' hm' hadded).1
  mailed := fun m' hm' => by
    rcases hx.back m' hm' with ⟨m, hm, hbecomes⟩ | hadded
    · obtain ⟨r, hr, hid, hstamped⟩ := h.mailed m hm
      obtain ⟨r', hr', hid', hstamped'⟩ := hrows r hr
      exact ⟨r', hr', (hid'.trans hid).trans hbecomes.change.symm, hstamped' hstamped⟩
    · exact (hnew m' hm' hadded).2
  closed := fun r' hr' hstate m' hm' hchange => by
    rcases hclosed r' hr' hstate with ⟨r, hr, hid, hadded, hstate⟩ | hnothing
    · rcases hx.back m' hm' with ⟨m, hm, hbecomes⟩ | hnew
      · exact (h.closed r hr hstate m hm ((hbecomes.change.symm.trans hchange).trans hid.symm)).imp
          hbecomes.sent hbecomes.withdrawn
      · exact absurd (hid ▸ hchange ▸ hnew) hadded
    · exact hnothing m' hm' hchange
  covered := fun r' hr' u hu => by
    have hup : ∃ m ∈ w.mails, m.change = r'.id ∧ m.user = u ∧ m.sent = false ∧
        givenUp m = true := by
      rcases hcovered r' hr' u hu with ⟨r, hr, hid, hu⟩ | hup
      · rw [← hid]
        exact h.covered r hr u hu
      · exact hup
    exact hx.givenUp hup

end

/-! ## Steps that leave the changes alone -/

/-- A step that leaves the tables as they are, and every transaction with what it holds. -/
theorem Sound.of_same {w w' : FeePolicyDesk} (h : w.Sound) (hchanges : w'.changes = w.changes)
    (hpolicies : w'.policies = w.policies) (hmails : w'.mails = w.mails)
    (hsubjects : w'.subjects = w.subjects) (hgiven : w'.given = w.given)
    (hbound : w'.bound = w.bound) (husers : ∀ p ∈ w'.positions, p.user.Minted)
    (hwork : ∀ s work, w'.work s = some work → w.Working s work) : w'.Sound := by
  have hx : Extends (fun _ => False) (fun _ => False) w w' := .of_same hmails hgiven hsubjects
  have hterms : ∀ s, w'.currentTerms s = w.currentTerms s := fun s => by
    rw [currentTerms, currentTerms, hpolicies]
  refine
    { tables := ?_, queue := ?_, onItsWay := ?_, working := ?_, boundOnce := ?_, boundOver := ?_ }
  · obtain ⟨hkeyed, hpending, hactive, hlive, hheld⟩ := h.tables
    constructor <;> simpa only [hchanges, hpolicies]
  · obtain ⟨-, hkeys, hmailed, hclosed, hcovered⟩ := h.queue
    refine ⟨husers, ?_, ?_, ?_, ?_⟩ <;> simpa only [hchanges, hmails]
  · intro r hr hpending
    rw [hterms]
    rw [hchanges] at hr
    exact (h.onItsWay r hr hpending).extends hx id
  · intro s work hs
    refine (hwork s work hs).extends hx (fun r hr _ => ⟨hchanges ▸ hr, id⟩) (hterms s)
  · rw [hbound]
    exact h.boundOnce
  · intro b hb
    rw [hbound] at hb
    exact (h.boundOver b hb).extends hx fun r hr hid hsettled =>
      ⟨⟨r, hchanges ▸ hr, hid, hsettled⟩, id, id⟩

/-- A lock taken or given back is that of one product. -/
theorem withWork_work {w : FeePolicyDesk} {service s : ServiceId} {work : Option FeeWork}
    {found : FeeWork} (h : (w.withWork service work).work s = some found) :
    s = service ∧ work = some found ∨ s ≠ service ∧ w.work s = some found := by
  have h : Function.update w.work service work s = some found := h
  by_cases hsame : s = service
  · subst hsame
    rw [Function.update_self] at h
    exact .inl ⟨rfl, h⟩
  · rw [Function.update_of_ne hsame] at h
    exact .inr ⟨hsame, h⟩

/-- A transaction's end, or its loss, gives back its product's lock. -/
theorem Sound.withoutWork {w : FeePolicyDesk} (h : w.Sound) (service : ServiceId) :
    (w.withWork service none).Sound := by
  refine h.of_same rfl rfl rfl rfl rfl rfl h.queue.users fun s work hs => ?_
  rcases withWork_work hs with ⟨-, hnone⟩ | ⟨-, hs⟩
  · cases hnone
  · exact h.working s work hs

/-- The holders a notice is out to are among those counted. -/
theorem cleared_of_gate {w : FeePolicyDesk} {row : FeePolicyChangeRow}
    (hgate : w.noticeGate row = .ok ())
    (htighter : row.policy.tightensFrom ((w.currentTerms row.service).getD .NONE) = true) :
    w.Cleared row (w.holders row.service) := by
  intro m hm hchange huser
  cases hsent : m.sent with
  | true => exact .inl rfl
  | false =>
    cases hwithdrawn : m.withdrawn with
    | true => exact .inr (.inl rfl)
    | false =>
      refine .inr (.inr (noticeGate_ok hgate htighter m (List.mem_filter.mpr ⟨hm, ?_⟩)))
      simp [hchange, hsent, hwithdrawn, huser]

/-- **A beginning**: the transaction holds what it found. -/
theorem Sound.begins {w : FeePolicyDesk} (h : w.Sound) {service : ServiceId} {work : FeeWork}
    (hbegins : w.Begins service work) : (w.withWork service (some work)).Sound := by
  refine h.of_same rfl rfl rfl rfl rfl rfl h.queue.users fun s work' hs => ?_
  rcases withWork_work hs with ⟨rfl, hsame⟩ | ⟨-, hs⟩
  · obtain rfl := Option.some.inj hsame
    cases hbegins with
    | schedule hstamp hid hopened hbegun =>
      obtain ⟨hjudged, hfrom, hasHolders, rfl⟩ := beginSchedule_ok hbegun
      exact ⟨rfl, hid, hopened, rfl, hjudged, hfrom⟩
    | carry hstamp hsubject hbegun =>
      obtain ⟨row, hasHolders, hrow, hservice, hstate, rfl⟩ := beginCarry_ok hbegun
      exact ⟨hrow, hservice, hstate, by rw [hservice]⟩
    | promote hstamp hrow hbegun =>
      obtain ⟨row, hfind, hmem, hstate, hdue, hgate, rfl⟩ := beginPromote_ok hbegun
      obtain rfl := Option.some.inj (hrow.symm.trans hfind)
      exact ⟨hmem, rfl, hstate, hdue, cleared_of_gate hgate⟩
  · exact h.working s work' hs

/-! ## The mailer -/

/-- **A delivery.** -/
theorem Sound.delivers {w : FeePolicyDesk} (h : w.Sound) (key : String) (mirrored : Bool)
    (answer : MailAnswer) :
    Sound
      { w with
        mails := updateWhere (fun m => m.dedupeKey = key)
          (fun m => m.deliver mirrored answer w.now) w.mails } := by
  have hbecomes : ∀ m : NoticeMail, m.Becomes
      (if m.dedupeKey = key then m.deliver mirrored answer w.now else m) ∧
      (if m.dedupeKey = key then m.deliver mirrored answer w.now else m).withdrawn =
        m.withdrawn := by
    intro m
    split_ifs
    · exact m.deliver_becomes mirrored answer w.now
    · exact ⟨.refl m, rfl⟩
  have hx : Extends (fun _ => False) (fun _ => False) w
      { w with
        mails := updateWhere (fun m => m.dedupeKey = key)
          (fun m => m.deliver mirrored answer w.now) w.mails } :=
    { mails := fun m hm => ⟨_, mem_updateWhere.mpr ⟨m, hm, rfl⟩, (hbecomes m).1,
        fun _ => (hbecomes m).2⟩
      back := fun m' hm' => by
        obtain ⟨m, hm, rfl⟩ := mem_updateWhere.mp hm'
        exact .inl ⟨m, hm, (hbecomes m).1⟩
      given := fun _ hg => hg
      subjects := fun _ _ hs => hs }
  exact
    { tables := ⟨h.tables.keyed, h.tables.pendingOne, h.tables.activeOne, h.tables.live,
        h.tables.held⟩
      queue := h.queue.extends hx (fun r hr => ⟨r, hr, rfl, id⟩) h.queue.users
        (fun _ _ hadded => hadded.elim) (fun r hr hclosed => .inl ⟨r, hr, rfl, id, hclosed⟩)
        fun r hr u hu => .inl ⟨r, hr, rfl, hu⟩
      onItsWay := fun r hr hpending => (h.onItsWay r hr hpending).extends hx id
      working := fun s work hs => (h.working s work hs).extends hx (fun r hr _ => ⟨hr, id⟩) rfl
      boundOnce := h.boundOnce
      boundOver := fun b hb => (h.boundOver b hb).extends hx fun r hr hid hsettled =>
        ⟨⟨r, hr, hid, hsettled⟩, id, id⟩ }

/-! ## A change closed -/

/-- A row a transaction under way has locked is not one that is free. -/
theorem RowFree.ne {w : FeePolicyDesk} {id : Uuid} (h : w.RowFree id) {s : ServiceId}
    {work : FeeWork} (hs : w.work s = some work) {r : FeePolicyChangeRow}
    (hlocked : work.lockedRow = some r.id) : r.id ≠ id :=
  fun hid => h s work hs (hid ▸ hlocked)

/-- A closed change is no longer on its way. -/
theorem not_pending_of_closed {r : FeePolicyChangeRow} {state : FeePolicyChangeState}
    (hstate : state = .rejected ∨ state = .cancelled) :
    FeePolicyChangeRow.pending { r with state } = false := by
  rcases hstate with rfl | rfl <;> rfl

/-- **A change that is not in force closed**, with what is out of it withdrawn. -/
theorem Sound.closes {w : FeePolicyDesk} (h : w.Sound) {id : Uuid} {row : FeePolicyChangeRow}
    (hrow : row ∈ w.changes) (hid : row.id = id) (hforce : ¬ Settled row)
    (hfree : w.RowFree id) {state : FeePolicyChangeState}
    (hstate : state = .rejected ∨ state = .cancelled) : (w.closed id state).Sound := by
  -- the row of the id, and the others
  have hsole : ∀ r ∈ w.changes, r.id = id → r = row := fun r hr hrid =>
    h.tables.keyed.eq hr hrow (hrid.trans hid.symm)
  have hother : ∀ r ∈ w.changes, r.id ≠ id → r ∈ (w.closed id state).changes := fun r hr hne =>
    mem_updateWhere_of_neg hr hne
  have hback : ∀ r' ∈ (w.closed id state).changes, r' ∈ w.changes ∧ r'.id ≠ id ∨
      r' = { row with state } := by
    intro r' hr'
    obtain ⟨r, hr, rfl⟩ := mem_updateWhere.mp hr'
    split_ifs with hrid
    · exact .inr (by rw [hsole r hr hrid])
    · exact .inl ⟨hr, hrid⟩
  have hinactive : state ≠ .active := by
    rcases hstate with rfl | rfl <;> decide
  have hx : Extends (fun c => c = id) (fun _ => False) w (w.closed id state) :=
    { mails := fun m hm => by
        refine ⟨_, mem_updateWhere.mpr ⟨m, hm, rfl⟩, ?_, fun hne => ?_⟩
        · split_ifs
          · exact m.becomes_withdrawn
          · exact .refl m
        · rw [if_neg fun hout => hne hout.1]
      back := fun m' hm' => by
        obtain ⟨m, hm, rfl⟩ := mem_updateWhere.mp hm'
        refine .inl ⟨m, hm, ?_⟩
        split_ifs
        · exact m.becomes_withdrawn
        · exact .refl m
      given := fun _ hg => hg
      subjects := fun _ _ hs => hs }
  refine
    { tables := ⟨h.tables.keyed.updateWhere fun _ => rfl, ?_, ?_, ?_, ?_⟩
      queue := ?_, onItsWay := ?_, working := ?_, boundOnce := h.boundOnce, boundOver := ?_ }
  · refine h.tables.pendingOne.updateWhere (fun r _ hpending => ?_) fun _ => rfl
    rw [not_pending_of_closed hstate] at hpending
    cases hpending
  · exact h.tables.activeOne.updateWhere (fun r _ hactive => absurd hactive hinactive) fun _ => rfl
  · intro r' hr' hactive
    rcases hback r' hr' with ⟨hr, -⟩ | rfl
    · exact h.tables.live r' hr hactive
    · exact absurd hactive hinactive
  · intro s hs
    obtain ⟨r, hr, hservice, hactive⟩ := h.tables.held s hs
    refine ⟨r, hother r hr fun hrid => ?_, hservice, hactive⟩
    rw [hsole r hr hrid] at hactive
    exact hforce (.inl hactive)
  · refine h.queue.extends hx (fun r hr => ?_) h.queue.users (fun _ _ hadded => hadded.elim)
      (fun r' hr' hclosed => ?_) fun r' hr' u hu => ?_
    · by_cases hrid : r.id = id
      · exact ⟨_, mem_updateWhere_of_pos hr hrid, rfl, fun hstamped => hstamped⟩
      · exact ⟨r, hother r hr hrid, rfl, fun hstamped => hstamped⟩
    · rcases hback r' hr' with ⟨hr, -⟩ | rfl
      · exact .inl ⟨r', hr, rfl, fun hadded => hadded, hclosed⟩
      · refine .inr fun m' hm' hchange => ?_
        obtain ⟨m, hm, rfl⟩ := mem_updateWhere.mp hm'
        split_ifs at hchange ⊢ with hout
        · exact .inr rfl
        · rw [not_and, not_and] at hout
          cases hsent : m.sent with
          | true => exact .inl rfl
          | false => exact .inr (Bool.eq_true_of_not_eq_false (hout (hchange.trans hid) hsent))
    · rcases hback r' hr' with ⟨hr, -⟩ | rfl
      · exact .inl ⟨r', hr, rfl, hu⟩
      · exact .inl ⟨row, hrow, rfl, hu⟩
  · intro r' hr' hpending
    rcases hback r' hr' with ⟨hr, hrid⟩ | rfl
    · exact (h.onItsWay r' hr hpending).extends hx hrid
    · rw [not_pending_of_closed hstate] at hpending
      cases hpending
  · intro s work hs
    exact (h.working s work hs).extends hx (fun r hr hlocked =>
      ⟨hother r hr (hfree.ne hs hlocked), fun hadded => hadded⟩) rfl
  · intro b hb
    refine (h.boundOver b hb).extends hx fun r hr hbid hsettled => ?_
    have hne : r.id ≠ id := fun hrid => hforce (hsole r hr hrid ▸ hsettled)
    exact ⟨⟨r, hother r hr hne, hbid, hsettled⟩, hbid ▸ hne, fun hadded => hadded⟩

/-- A change awaiting its owners has no notice. -/
theorem Sound.not_mailed {w : FeePolicyDesk} (h : w.Sound) {r : FeePolicyChangeRow}
    (hr : r ∈ w.changes) (hstate : r.state = .awaitingConsilium) :
    ∀ m ∈ w.mails, m.change ≠ r.id := by
  intro m hm hchange
  obtain ⟨r', hr', hid, hstamped⟩ := h.queue.mailed m hm
  obtain rfl := h.tables.keyed.eq hr' hr (hid.trans hchange)
  have hpending : r'.pending = true := by simp [FeePolicyChangeRow.pending, hstate]
  exact hstamped ((h.onItsWay r' hr hpending).waits hstate).2

/-- **A refusal** does nothing, or closes the change. -/
theorem Sound.rejectOn_cases {w : FeePolicyDesk} (h : w.Sound) (id consilium : Uuid) :
    w.rejectOn id consilium = w ∨
      w.rejectOn id consilium = w.closed id .rejected ∧
        ∃ r ∈ w.changes, r.id = id ∧ r.state = .awaitingConsilium := by
  by_cases hmeets : ∃ r ∈ w.changes, r.id = id ∧ r.consiliumId = some consilium ∧
      r.state = .awaitingConsilium
  · obtain ⟨r, hr, hid, hconsilium, hstate⟩ := hmeets
    refine .inr ⟨?_, r, hr, hid, hstate⟩
    have hchanges : updateWhere
        (fun r => r.id = id ∧ r.consiliumId = some consilium ∧ r.state = .awaitingConsilium)
        (fun r => { r with state := .rejected }) w.changes =
        updateWhere (fun r => r.id = id) (fun r => { r with state := .rejected }) w.changes := by
      refine updateWhere_congr fun r' hr' => ⟨And.left, fun hid' => ?_⟩
      rw [h.tables.keyed.eq hr' hr (hid'.trans hid.symm)]
      exact ⟨hid, hconsilium, hstate⟩
    have hmails : updateWhere (fun m => m.change = id ∧ m.sent = false ∧ m.withdrawn = false)
        (fun m => { m with withdrawn := true }) w.mails = w.mails :=
      updateWhere_eq_self fun m hm hout => h.not_mailed hr hstate m hm (hout.1.trans hid.symm)
    rw [rejectOn, closed, hchanges, hmails]
  · refine .inl ?_
    have hchanges : updateWhere
        (fun r => r.id = id ∧ r.consiliumId = some consilium ∧ r.state = .awaitingConsilium)
        (fun r => { r with state := .rejected }) w.changes = w.changes :=
      updateWhere_eq_self fun r hr hq => hmeets ⟨r, hr, hq⟩
    rw [rejectOn, hchanges]

/-- A refusal keeps the invariant. -/
theorem Sound.rejects {w : FeePolicyDesk} (h : w.Sound) {id : Uuid} (hfree : w.RowFree id)
    (consilium : Uuid) : (w.rejectOn id consilium).Sound := by
  rcases h.rejectOn_cases id consilium with hsame | ⟨hclosed, r, hr, hid, hstate⟩
  · rw [hsame]
    exact h
  · rw [hclosed]
    refine h.closes hr hid (fun hsettled => ?_) hfree (.inl rfl)
    rcases hsettled with hsettled | hsettled <;> simp [hstate] at hsettled

/-- A withdrawal keeps it. -/
theorem Sound.cancels {w w' : FeePolicyDesk} (h : w.Sound) {service : ServiceId} {id : Uuid}
    {isOpen : Bool} (hfree : w.RowFree id) (hcancel : w.cancel service id isOpen = .ok w') :
    w'.Sound := by
  rcases cancel_ok hcancel with
    rfl | ⟨-, opened, -, -, hopened, ⟨r, hfind, hactive, hsuperseded⟩, rfl⟩
  · exact h
  · have hsound : opened.Sound ∧ opened.RowFree id := by
      rcases hopened with rfl | ⟨consilium, rfl⟩
      · exact ⟨h, hfree⟩
      · exact ⟨h.rejects hfree consilium, hfree⟩
    obtain ⟨hr, hid⟩ := find_mem hfind
    exact hsound.1.closes hr hid (not_or.mpr ⟨hactive, hsuperseded⟩) hsound.2 (.inr rfl)

/-! ## An acknowledgement -/

/-- The row a transaction has locked is one of its product's changes, on its way. -/
theorem Working.locked {w : FeePolicyDesk} {s : ServiceId} {work : FeeWork} (h : w.Working s work)
    {id : Uuid} (hlocked : work.lockedRow = some id) :
    ∃ r ∈ w.changes, r.id = id ∧ r.service = s ∧ r.pending = true := by
  cases work with
  | scheduling => cases hlocked
  | carrying row =>
    obtain ⟨hrow, hservice, hstate, -⟩ := h
    exact ⟨row, hrow, Option.some.inj hlocked, hservice,
      by simp [FeePolicyChangeRow.pending, hstate]⟩
  | promoting row =>
    obtain ⟨hrow, hservice, hstate, -⟩ := h
    exact ⟨row, hrow, Option.some.inj hlocked, hservice,
      by simp [FeePolicyChangeRow.pending, hstate]⟩

/-- A waiver changes nothing a change on its way is judged by. -/
theorem OnItsWay.waive {w : FeePolicyDesk} {r : FeePolicyChangeRow} {current : Option FeePolicy}
    (h : w.OnItsWay r current) (waiver : NoticeWaiver) :
    w.OnItsWay { r with noticesWaiver := some waiver } current where
  minted := h.minted
  judged := h.judged
  signed := h.signed
  waits := h.waits
  announced := fun hscheduled => by
    obtain ⟨g, hg, ha⟩ := h.announced hscheduled
    exact ⟨g, hg, ha.change, ha.replaced, ha.carried, ha.stamped, ha.queued⟩

/-- **Responsibility taken**, under the product's lock. -/
theorem Sound.acknowledges {w w' : FeePolicyDesk} (h : w.Sound) {service : ServiceId} {id : Uuid}
    {givenBy : String} {nowUnix : Int} (hfree : w.work service = none)
    (hack : w.acknowledge service id givenBy nowUnix = .ok w') : w'.Sound := by
  rcases acknowledge_ok hack with
    rfl | ⟨row, waiver, hfind, hservice, hstate, hgrows, hadded, rfl⟩
  · exact h
  obtain ⟨hrow, hid⟩ := find_mem hfind
  have hsole : ∀ r ∈ w.changes, r.id = id → r = row := fun r hr hrid =>
    h.tables.keyed.eq hr hrow (hrid.trans hid.symm)
  have hback : ∀ r' ∈ updateWhere (fun r => r.id = id)
      (fun r => { r with noticesWaiver := some waiver }) w.changes,
      r' ∈ w.changes ∧ r'.id ≠ id ∨ r' = { row with noticesWaiver := some waiver } := by
    intro r' hr'
    obtain ⟨r, hr, rfl⟩ := mem_updateWhere.mp hr'
    split_ifs with hrid
    · exact .inr (by rw [hsole r hr hrid])
    · exact .inl ⟨hr, hrid⟩
  have hx : Extends (fun _ => False) (fun _ => False) w
      { w with
        changes := updateWhere (fun r => r.id = id)
          (fun r => { r with noticesWaiver := some waiver }) w.changes } :=
    .of_same rfl rfl rfl
  refine
    { tables := ⟨h.tables.keyed.updateWhere fun _ => rfl,
        h.tables.pendingOne.updateWhere (fun _ _ hpending => hpending) fun _ => rfl,
        h.tables.activeOne.updateWhere (fun _ _ hactive => hactive) fun _ => rfl, ?_, ?_⟩
      queue := ?_, onItsWay := ?_, working := ?_, boundOnce := h.boundOnce, boundOver := ?_ }
  · intro r' hr' hactive
    rcases hback r' hr' with ⟨hr, -⟩ | rfl
    · exact h.tables.live r' hr hactive
    · exact h.tables.live row hrow hactive
  · intro s hs
    obtain ⟨r, hr, hrs, hactive⟩ := h.tables.held s hs
    refine ⟨r, mem_updateWhere_of_neg hr fun hrid => ?_, hrs, hactive⟩
    rw [hsole r hr hrid, hstate] at hactive
    cases hactive
  · refine h.queue.extends hx (fun r hr => ?_) h.queue.users (fun _ _ hnew => hnew.elim)
      (fun r' hr' hclosed => ?_) fun r' hr' u hu => ?_
    · refine ⟨_, mem_updateWhere.mpr ⟨r, hr, rfl⟩, ?_, ?_⟩
      · split_ifs <;> rfl
      · split_ifs <;> exact fun hstamped => hstamped
    · rcases hback r' hr' with ⟨hr, -⟩ | rfl
      · exact .inl ⟨r', hr, rfl, not_false, hclosed⟩
      · exact .inl ⟨row, hrow, rfl, not_false, hclosed⟩
    · rcases hback r' hr' with ⟨hr, -⟩ | rfl
      · exact .inl ⟨r', hr, rfl, hu⟩
      · rcases hadded u hu with hcovered | ⟨m, hm, hchange, hrest⟩
        · exact .inl ⟨row, hrow, rfl, hcovered⟩
        · exact .inr ⟨m, hm, hchange.trans hid.symm, hrest⟩
  · intro r' hr' hpending
    rcases hback r' hr' with ⟨hr, -⟩ | rfl
    · exact (h.onItsWay r' hr hpending).extends hx not_false
    · exact ((h.onItsWay row hrow hpending).waive waiver).extends hx not_false
  · intro s work hs
    have hworking := h.working s work hs
    refine hworking.extends hx (fun r hr hlocked =>
      ⟨mem_updateWhere_of_neg hr fun hrid => ?_, not_false⟩) rfl
    -- the product's lock is free, so no one has the row
    obtain ⟨r', hr', hid', hservice', -⟩ := hworking.locked hlocked
    rw [hsole r' hr' (hid'.trans hrid), hservice] at hservice'
    rw [← hservice', hfree] at hs
    cases hs
  · intro b hb
    refine (h.boundOver b hb).extends hx fun r hr hbid hsettled => ?_
    refine ⟨⟨r, mem_updateWhere_of_neg hr fun hrid => ?_, hbid, hsettled⟩, not_false, not_false⟩
    rw [hsole r hr hrid] at hsettled
    rcases hsettled with hsettled | hsettled <;> simp [hstate] at hsettled

/-! ## A change announced -/

/-- **The notices of a change that had none**: one for everyone on the roster. -/
theorem enqueueNotices_extends (w : FeePolicyDesk) (row : FeePolicyChangeRow)
    (carriedBy : Option Uuid) (current : Option FeePolicy) (hasHolders : Bool)
    (hid : row.id.Minted) (husers : ∀ p ∈ w.positions, p.user.Minted)
    (hkeys : ∀ m ∈ w.mails,
      m.dedupeKey = noticeKey m.change m.user ∧ m.change.Minted ∧ m.user.Minted)
    (hnone : ∀ m ∈ w.mails, m.change ≠ row.id) :
    Extends (fun _ => False) (fun c => c = row.id) w
        (w.enqueueNotices row carriedBy current hasHolders) ∧
      (∀ m ∈ (w.enqueueNotices row carriedBy current hasHolders).mails, m.change = row.id →
        m.dedupeKey = noticeKey m.change m.user ∧ m.change.Minted ∧ m.user.Minted) ∧
      ∀ u ∈ w.noticeRoster row.service,
        ∃ m ∈ (w.enqueueNotices row carriedBy current hasHolders).mails,
          m.user = u ∧ Tells m row current ∧ m.withdrawn = false := by
  have hroster : ∀ u ∈ w.noticeRoster row.service, u.Minted := by
    intro u hu
    obtain ⟨p, hp, rfl⟩ := List.mem_map.mp (List.mem_filter.mp hu).1
    exact husers p (List.mem_filter.mp hp).1
  -- a notice of this change is a new one
  have hnew : ∀ m ∈ (w.enqueueNotices row carriedBy current hasHolders).mails, m.change = row.id →
      m.dedupeKey = noticeKey row.id m.user ∧ m.user.Minted ∧ Tells m row current ∧
        m.withdrawn = false := by
    intro m hm hchange
    rcases mem_foldl_enqueueNotice m hm with hold | hfresh
    · exact absurd hchange (hnone m hold)
    · obtain ⟨u, hu, rfl⟩ := List.mem_map.mp hfresh
      exact ⟨rfl, hroster u hu, ⟨rfl, rfl⟩, rfl⟩
  refine ⟨⟨?_, ?_, ?_, fun _ _ hs => hs⟩, ?_, ?_⟩
  · exact fun m hm => ⟨m, subset_foldl_enqueueNotice _ _ m hm, .refl m, fun _ => rfl⟩
  · intro m hm
    rcases mem_foldl_enqueueNotice m hm with hold | hfresh
    · exact .inl ⟨m, hold, .refl m⟩
    · obtain ⟨u, -, rfl⟩ := List.mem_map.mp hfresh
      exact .inr rfl
  · exact fun g hg => List.mem_append_left _ hg
  · intro m hm hchange
    obtain ⟨hkey, huser, -⟩ := hnew m hm hchange
    rw [hchange]
    exact ⟨hkey, hid, huser⟩
  · intro u hu
    obtain ⟨m, hm, hkey⟩ := exists_foldl_enqueueNotice w.mails _ _
      (List.mem_map_of_mem (f := w.noticeMail row current) hu)
    -- the key under which it is queued is this change's and this holder's
    have hsame : m.change = row.id ∧ m.user = u := by
      rcases mem_foldl_enqueueNotice m hm with hold | hfresh
      · obtain ⟨hmkey, hchange, huser⟩ := hkeys m hold
        exact noticeKey_injective hchange hid huser (hroster u hu) (hmkey.symm.trans hkey)
      · obtain ⟨v, hv, rfl⟩ := List.mem_map.mp hfresh
        exact noticeKey_injective hid hid (hroster v hv) (hroster u hu) hkey
    exact ⟨m, hm, hsame.2, (hnew m hm hsame.1).2.2.1, (hnew m hm hsame.1).2.2.2⟩

/-- The notice is up before the change may bind. -/
theorem earliestEffectiveFrom_le (scheduledAt requested : Int) (hasHolders : Bool) :
    (if hasHolders then saturatingAdd scheduledAt MIN_NOTICE_SECS else scheduledAt) ≤
      earliestEffectiveFrom scheduledAt requested hasHolders :=
  le_max_right _ _

/-- **A row inserted** under a new id, into a product with nothing on its way. -/
theorem Sound.inserts {w w' : FeePolicyDesk} (h : w.Sound) {row : FeePolicyChangeRow}
    (hx : Extends (fun _ => False) (fun c => c = row.id) w w')
    (hchanges : w'.changes = w.changes ++ [row]) (hpolicies : w'.policies = w.policies)
    (hpositions : w'.positions = w.positions) (hwork : w'.work = w.work)
    (hbound : w'.bound = w.bound) (hfresh : ∀ r ∈ w.changes, r.id ≠ row.id)
    (hfree : ∀ r ∈ w.changes, r.service = row.service → r.pending = false)
    (hpending : row.pending = true) (hwaiver : row.noticesWaiver = none)
    (hrow : w'.OnItsWay row (w.currentTerms row.service))
    (hnew : ∀ m ∈ w'.mails, m.change = row.id →
      (m.dedupeKey = noticeKey m.change m.user ∧ m.change.Minted ∧ m.user.Minted) ∧
        row.scheduledAt ≠ none) : w'.Sound := by
  have hterms : ∀ s, w'.currentTerms s = w.currentTerms s := fun s => by
    rw [currentTerms, currentTerms, hpolicies]
  have hstays : ∀ r ∈ w.changes, r ∈ w'.changes := fun r hr => hchanges ▸ List.mem_append_left _ hr
  have hback : ∀ r' ∈ w'.changes, r' ∈ w.changes ∨ r' = row := fun r' hr' =>
    (List.mem_append.mp (hchanges ▸ hr')).imp_right List.mem_singleton.mp
  have hstate : row.state ≠ .active ∧ row.state ≠ .rejected ∧ row.state ≠ .cancelled := by
    simp only [FeePolicyChangeRow.pending, Bool.or_eq_true, decide_eq_true_eq] at hpending
    rcases hpending with hstate | hstate <;> simp [hstate]
  refine
    { tables := ⟨?_, ?_, ?_, ?_, ?_⟩, queue := ?_, onItsWay := ?_, working := ?_,
      boundOnce := by rw [hbound]; exact h.boundOnce, boundOver := ?_ }
  · rw [hchanges]
    exact h.tables.keyed.append hfresh
  · rw [hchanges]
    refine h.tables.pendingOne.append fun _ r hr hrpending hservice => ?_
    rw [hfree r hr hservice] at hrpending
    cases hrpending
  · rw [hchanges]
    exact h.tables.activeOne.append fun hactive => absurd hactive hstate.1
  · intro r' hr' hactive
    rw [hpolicies]
    rcases hback r' hr' with hr | rfl
    · exact h.tables.live r' hr hactive
    · exact absurd hactive hstate.1
  · intro s hs
    obtain ⟨r, hr, hactive⟩ := h.tables.held s (hpolicies ▸ hs)
    exact ⟨r, hstays r hr, hactive⟩
  · refine h.queue.extends hx (fun r hr => ⟨r, hstays r hr, rfl, fun hstamped => hstamped⟩)
      (hpositions ▸ h.queue.users) (fun m hm hchange => ⟨(hnew m hm hchange).1, row, ?_,
        hchange.symm, (hnew m hm hchange).2⟩) (fun r' hr' hclosed => ?_) fun r' hr' u hu => ?_
    · rw [hchanges]
      exact List.mem_append_right _ (List.mem_singleton_self row)
    · rcases hback r' hr' with hr | rfl
      · exact .inl ⟨r', hr, rfl, hfresh r' hr, hclosed⟩
      · exact absurd hclosed (not_or.mpr hstate.2)
    · rcases hback r' hr' with hr | rfl
      · exact .inl ⟨r', hr, rfl, hu⟩
      · simp [FeePolicyChangeRow.covered, hwaiver] at hu
  · intro r' hr' hrpending
    rw [hterms]
    rcases hback r' hr' with hr | rfl
    · exact (h.onItsWay r' hr hrpending).extends hx not_false
    · exact hrow
  · intro s work hs
    rw [hwork] at hs
    exact (h.working s work hs).extends hx (fun r hr _ => ⟨hstays r hr, hfresh r hr⟩) (hterms s)
  · intro b hb
    rw [hbound] at hb
    exact (h.boundOver b hb).extends hx fun r hr hid hsettled =>
      ⟨⟨r, hstays r hr, hid, hsettled⟩, not_false, hid ▸ hfresh r hr⟩

/-- **A scheduling committed.** -/
theorem Sound.schedules {w w' : FeePolicyDesk} (h : w.Sound) {service : ServiceId}
    {change : NewFeePolicyChange} {opening : Option ConsiliumOpening} {current : Option FeePolicy}
    {hasHolders : Bool}
    (hwork : w.work service = some (.scheduling change opening current hasHolders))
    (hends : w.endSchedule change opening current hasHolders = .ok w') : w'.Sound := by
  obtain ⟨rfl, hminted, hopened, rfl, hjudged, hfrom⟩ := h.working _ _ hwork
  obtain ⟨hfresh, hfree, hcase⟩ := endSchedule_ok hends
  have hnone : ∀ m ∈ w.mails, m.change ≠ change.id := by
    intro m hm hchange
    obtain ⟨r, hr, hid, -⟩ := h.queue.mailed m hm
    exact hfresh r hr (hid.trans hchange)
  rcases hcase with ⟨rfl, rfl⟩ | ⟨o, rfl, hconsilium, rfl⟩
  · -- an administrator's change is scheduled at once, and its notices go out
    have hadmin : change.requirement = .admin := by
      cases hrequired : change.requirement with
      | admin => rfl
      | ownerConsilium => simp [NewFeePolicyChange.OpenedWith, hrequired] at hopened
    obtain ⟨hx, hkeys, hqueued⟩ := enqueueNotices_extends
      { w with changes := w.changes ++ [w.scheduledRow change none hasHolders] }
      (w.scheduledRow change none hasHolders) none
      (w.currentTerms change.service) hasHolders hminted h.queue.users
      h.queue.keys hnone
    refine h.inserts ⟨hx.mails, hx.back, hx.given, hx.subjects⟩ rfl rfl rfl rfl rfl hfresh hfree rfl
      rfl ?_ fun m hm hchange => ⟨hkeys m hm hchange, by simp [scheduledRow]⟩
    refine ⟨hminted, hjudged, fun howners => ?_, fun hstate => (by cases hstate),
      fun _ => ⟨_, List.mem_append_right _ (List.mem_singleton_self _), ?_⟩⟩
    · cases hadmin.symm.trans howners
    · refine ⟨rfl, rfl, ?_, ⟨_, rfl, earliestEffectiveFrom_le _ _ _⟩, ?_⟩
      · have hrequired : (w.scheduledRow change none hasHolders).requirement = .admin := hadmin
        rw [hrequired]
      · exact hqueued
  · -- a change for the owners waits, with its consilium opened over it
    have hrequired : change.requirement = .ownerConsilium := by
      cases hrequired : change.requirement with
      | admin => simp [NewFeePolicyChange.OpenedWith, hrequired] at hopened
      | ownerConsilium => rfl
    simp only [NewFeePolicyChange.OpenedWith, hrequired] at hopened
    obtain ⟨hid, hservice, hpolicy, hreason, -⟩ := hopened
    refine h.inserts ⟨?_, ?_, fun _ hg => hg, ?_⟩ rfl rfl rfl rfl rfl hfresh hfree rfl rfl ?_
      fun m hm hchange => absurd hchange (hnone m hm)
    · exact fun m hm => ⟨m, hm, .refl m, fun _ => rfl⟩
    · exact fun m hm => .inl ⟨m, hm, .refl m⟩
    · intro c subject hc
      have hne : c ≠ o.consilium := by
        rintro rfl
        rw [hconsilium] at hc
        cases hc
      exact (Function.update_of_ne hne _ _).trans hc
    · refine ⟨hminted, hjudged, fun _ => ?_, fun _ => ⟨hrequired, rfl⟩,
        fun hstate => (by cases hstate)⟩
      exact ⟨o.consilium, o.subject, rfl, Function.update_self _ _ _, hid, hservice,
        hfrom o rfl, hpolicy, hreason⟩

/-- **A carry committed**: the owners' change scheduled, and its notices out. -/
theorem Sound.carries {w : FeePolicyDesk} (h : w.Sound) {service : ServiceId}
    {row : FeePolicyChangeRow} {subject : FeePolicySubject} {nowUnix : Int}
    {current : Option FeePolicy} {hasHolders : Bool}
    (hwork : w.work service = some (.carrying row subject nowUnix current hasHolders)) :
    ((w.endCarry row subject nowUnix current hasHolders).withWork service none).Sound := by
  obtain ⟨hrow, rfl, hstate, rfl⟩ := h.working _ _ hwork
  have hpending : row.pending = true := by simp [FeePolicyChangeRow.pending, hstate]
  have hway := h.onItsWay row hrow hpending
  obtain ⟨howners, hunstamped⟩ := hway.waits hstate
  have hsole : ∀ r ∈ w.changes, r.id = row.id → r = row := fun r hr hid =>
    h.tables.keyed.eq hr hrow hid
  obtain ⟨hx, hkeys, hqueued⟩ := enqueueNotices_extends
    { w with
      changes := updateWhere (fun r => r.id = row.id)
        (fun r => carriedRow r subject nowUnix hasHolders) w.changes }
    (carriedRow row subject nowUnix hasHolders) row.consiliumId
    (w.currentTerms row.service) hasHolders hway.minted h.queue.users h.queue.keys
    fun m hm => h.not_mailed hrow hstate m hm
  have hx : Extends (fun _ => False) (fun c => c = row.id) w
      ((w.endCarry row subject nowUnix (w.currentTerms row.service) hasHolders).withWork
        row.service none) :=
    ⟨hx.mails, hx.back, hx.given, hx.subjects⟩
  have hcarried : carriedRow row subject nowUnix hasHolders ∈
      updateWhere (fun r => r.id = row.id)
        (fun r => carriedRow r subject nowUnix hasHolders) w.changes :=
    mem_updateWhere_of_pos (q := fun r => r.id = row.id)
      (f := fun r => carriedRow r subject nowUnix hasHolders) hrow rfl
  have hother : ∀ r ∈ w.changes, r.id ≠ row.id → r ∈ updateWhere (fun r => r.id = row.id)
      (fun r => carriedRow r subject nowUnix hasHolders) w.changes :=
    fun r hr hne => mem_updateWhere_of_neg hr hne
  have hback : ∀ r' ∈ updateWhere (fun r => r.id = row.id)
      (fun r => carriedRow r subject nowUnix hasHolders) w.changes,
      r' ∈ w.changes ∧ r'.id ≠ row.id ∨ r' = carriedRow row subject nowUnix hasHolders := by
    intro r' hr'
    obtain ⟨r, hr, rfl⟩ := mem_updateWhere.mp hr'
    split_ifs with hid
    · exact .inr (by rw [hsole r hr hid])
    · exact .inl ⟨hr, hid⟩
  refine
    { tables := ⟨h.tables.keyed.updateWhere fun _ => rfl, ?_, ?_, ?_, ?_⟩
      queue := ?_, onItsWay := ?_, working := ?_, boundOnce := h.boundOnce, boundOver := ?_ }
  · -- the row was on its way already
    intro a ha b hb hpa hpb hservice
    rcases hback a ha with ⟨ha, hia⟩ | rfl <;> rcases hback b hb with ⟨hb, hib⟩ | rfl
    · exact h.tables.pendingOne a ha b hb hpa hpb hservice
    · exact absurd (congrArg _ (h.tables.pendingOne a ha row hrow hpa hpending hservice)) hia
    · exact absurd (congrArg _ (h.tables.pendingOne b hb row hrow hpb hpending hservice.symm)) hib
    · rfl
  · exact h.tables.activeOne.updateWhere (fun r _ hactive => by cases hactive) fun _ => rfl
  · intro r' hr' hactive
    rcases hback r' hr' with ⟨hr, -⟩ | rfl
    · exact h.tables.live r' hr hactive
    · cases hactive
  · intro s hs
    obtain ⟨r, hr, hservice, hactive⟩ := h.tables.held s hs
    refine ⟨r, hother r hr fun hid => ?_, hservice, hactive⟩
    rw [hsole r hr hid, hstate] at hactive
    cases hactive
  · refine h.queue.extends hx (fun r hr => ?_) h.queue.users (fun m hm hchange =>
      ⟨hkeys m hm hchange, _, hcarried, hchange.symm, by simp [carriedRow]⟩)
      (fun r' hr' hclosed => ?_) fun r' hr' u hu => ?_
    · by_cases hid : r.id = row.id
      · exact ⟨_, hcarried, hid.symm, fun _ => by simp [carriedRow]⟩
      · exact ⟨r, hother r hr hid, rfl, fun hstamped => hstamped⟩
    · rcases hback r' hr' with ⟨hr, hid⟩ | rfl
      · exact .inl ⟨r', hr, rfl, hid, hclosed⟩
      · rcases hclosed with hclosed | hclosed <;> cases hclosed
    · rcases hback r' hr' with ⟨hr, -⟩ | rfl
      · exact .inl ⟨r', hr, rfl, hu⟩
      · exact .inl ⟨row, hrow, rfl, hu⟩
  · intro r' hr' hrpending
    rcases hback r' hr' with ⟨hr, -⟩ | rfl
    · exact (h.onItsWay r' hr hrpending).extends hx not_false
    · refine ⟨hway.minted, hway.judged, fun _ => (hway.signed howners).extends hx,
        fun hwaits => (by cases hwaits), fun _ => ⟨_, List.mem_append_right _
          (List.mem_singleton_self _), rfl, rfl, ?_,
          ⟨nowUnix, rfl, earliestEffectiveFrom_le _ _ _⟩, hqueued⟩⟩
      have hrequired : (carriedRow row subject nowUnix hasHolders).requirement =
          .ownerConsilium := howners
      obtain ⟨consilium, -, hconsilium, -⟩ := hway.signed howners
      rw [hrequired]
      exact ⟨rfl, by rw [hconsilium]; exact Option.some_ne_none consilium⟩
  · intro s work hs
    rcases withWork_work hs with ⟨-, hnone⟩ | ⟨hne, hs⟩
    · cases hnone
    have hworking := h.working s work hs
    refine hworking.extends hx (fun r hr hlocked => ?_) rfl
    -- only this product's transaction has the row
    have hne : r.id ≠ row.id := by
      intro hid
      obtain ⟨r', hr', hid', hservice, -⟩ := hworking.locked hlocked
      rw [hsole r' hr' (hid'.trans hid)] at hservice
      exact hne hservice.symm
    exact ⟨hother r hr hne, hne⟩
  · intro b hb
    refine (h.boundOver b hb).extends hx fun r hr hid hsettled => ?_
    have hne : r.id ≠ row.id := by
      intro hrid
      rw [hsole r hr hrid] at hsettled
      rcases hsettled with hsettled | hsettled <;> simp [hstate] at hsettled
    exact ⟨⟨r, hother r hr hne, hid, hsettled⟩, not_false, hid ▸ hne⟩

/-! ## A change promoted -/

/-- The rows after a promotion: the change in force, the one it replaced, and the rest. -/
theorem mem_endPromote {w : FeePolicyDesk} (h : w.Tables) {row : FeePolicyChangeRow}
    (hrow : row ∈ w.changes) (hstate : row.state = .scheduled) (nowUnix : Int)
    (holders : List UserId) (r' : FeePolicyChangeRow) :
    r' ∈ (w.endPromote row nowUnix holders).changes ↔
      r' = { row with state := .active, appliedAt := some nowUnix } ∨
        (∃ r ∈ w.changes, r.service = row.service ∧ r.state = .active ∧
          r' = { r with state := .superseded }) ∨
        r' ∈ w.changes ∧ r'.id ≠ row.id ∧ ¬ (r'.service = row.service ∧ r'.state = .active) := by
  have hsole : ∀ r ∈ w.changes, r.id = row.id → r = row := fun r hr hid => h.keyed.eq hr hrow hid
  have hinactive : ¬ (row.service = row.service ∧ row.state = .active) := by simp [hstate]
  constructor
  · intro hr'
    obtain ⟨x, hx, rfl⟩ := mem_updateWhere.mp hr'
    obtain ⟨r, hr, rfl⟩ := mem_updateWhere.mp hx
    by_cases hactive : r.service = row.service ∧ r.state = .active
    · have hne : r.id ≠ row.id := fun hid => by
        rw [hsole r hr hid] at hactive
        exact hinactive hactive
      rw [if_pos hactive, if_neg hne]
      exact .inr (.inl ⟨r, hr, hactive.1, hactive.2, rfl⟩)
    · rw [if_neg hactive]
      split_ifs with hid
      · exact .inl (by rw [hsole r hr hid])
      · exact .inr (.inr ⟨hr, hid, hactive⟩)
  · rintro (rfl | ⟨r, hr, hservice, hactive, rfl⟩ | ⟨hr, hid, hother⟩)
    · exact mem_updateWhere_of_pos (q := fun r => r.id = row.id)
        (f := fun r => { r with state := .active, appliedAt := some nowUnix })
        (mem_updateWhere_of_neg (q := fun r => r.service = row.service ∧ r.state = .active) hrow
          hinactive) rfl
    · refine mem_updateWhere_of_neg (mem_updateWhere_of_pos
        (q := fun r => r.service = row.service ∧ r.state = .active)
        (f := fun r => { r with state := .superseded }) hr ⟨hservice, hactive⟩) fun hid => ?_
      rw [hsole r hr hid, hstate] at hactive
      cases hactive
    · exact mem_updateWhere_of_neg (mem_updateWhere_of_neg hr hother) hid

/-- **A promotion committed.** -/
theorem Sound.promotes {w : FeePolicyDesk} (h : w.Sound) {service : ServiceId}
    {row : FeePolicyChangeRow} {nowUnix : Int} {holders : List UserId}
    (hwork : w.work service = some (.promoting row nowUnix holders)) :
    ((w.endPromote row nowUnix holders).withWork service none).Sound := by
  obtain ⟨hrow, rfl, hstate, hdue, hcleared⟩ := h.working _ _ hwork
  have hpending : row.pending = true := by simp [FeePolicyChangeRow.pending, hstate]
  have hway := h.onItsWay row hrow hpending
  have hsole : ∀ r ∈ w.changes, r.id = row.id → r = row := fun r hr hid =>
    h.tables.keyed.eq hr hrow hid
  have hx : Extends (fun _ => False) (fun _ => False) w
      ((w.endPromote row nowUnix holders).withWork row.service none) := .of_same rfl rfl rfl
  have hmem := mem_endPromote h.tables hrow hstate nowUnix holders
  -- elsewhere the terms are what they were
  have hterms : ∀ s, s ≠ row.service →
      ((w.endPromote row nowUnix holders).withWork row.service none).policies s = w.policies s :=
    fun s hne => Function.update_of_ne hne _ _
  have hstays : ∀ r ∈ w.changes, ∃ r' ∈
      ((w.endPromote row nowUnix holders).withWork row.service none).changes,
      r'.id = r.id ∧ (r.scheduledAt ≠ none → r'.scheduledAt ≠ none) ∧
        (Settled r → Settled r') := by
    intro r hr
    by_cases hid : r.id = row.id
    · refine ⟨_, (hmem _).mpr (.inl rfl), hid.symm, fun hstamped => ?_, fun _ => .inl rfl⟩
      rw [hsole r hr hid] at hstamped
      exact hstamped
    · by_cases hactive : r.service = row.service ∧ r.state = .active
      · exact ⟨_, (hmem _).mpr (.inr (.inl ⟨r, hr, hactive.1, hactive.2, rfl⟩)), rfl,
          fun hstamped => hstamped, fun _ => .inr rfl⟩
      · exact ⟨r, (hmem _).mpr (.inr (.inr ⟨hr, hid, hactive⟩)), rfl, fun hstamped => hstamped,
          fun hsettled => hsettled⟩
  refine
    { tables := ⟨?_, ?_, ?_, ?_, ?_⟩
      queue := ?_, onItsWay := ?_, working := ?_, boundOnce := ?_, boundOver := ?_ }
  · refine Keyed.updateWhere (Keyed.updateWhere h.tables.keyed fun r => ?_) fun r => ?_ <;> rfl
  · refine Sole.updateWhere (Sole.updateWhere h.tables.pendingOne (fun r _ hp => ?_) fun r => ?_)
      (fun r _ hp => ?_) fun r => ?_
    · simp [FeePolicyChangeRow.pending] at hp
    · rfl
    · simp [FeePolicyChangeRow.pending] at hp
    · rfl
  · intro a ha b hb hactivea hactiveb hservice
    rcases (hmem a).mp ha with rfl | ⟨r, -, -, -, rfl⟩ | ⟨ha, -, hothera⟩
    · rcases (hmem b).mp hb with rfl | ⟨r, -, -, -, rfl⟩ | ⟨-, -, hotherb⟩
      · rfl
      · cases hactiveb
      · exact absurd ⟨hservice.symm, hactiveb⟩ hotherb
    · cases hactivea
    · rcases (hmem b).mp hb with rfl | ⟨r, -, -, -, rfl⟩ | ⟨hb, -, -⟩
      · exact absurd ⟨hservice, hactivea⟩ hothera
      · cases hactiveb
      · exact h.tables.activeOne a ha b hb hactivea hactiveb hservice
  · intro r' hr' hactive
    rcases (hmem r').mp hr' with rfl | ⟨r, -, -, -, rfl⟩ | ⟨hr, -, hother⟩
    · exact Function.update_self _ _ _
    · cases hactive
    · rw [hterms r'.service fun hservice => hother ⟨hservice, hactive⟩]
      exact h.tables.live r' hr hactive
  · intro s hs
    by_cases hservice : s = row.service
    · exact ⟨_, (hmem _).mpr (.inl rfl), hservice.symm, rfl⟩
    · rw [hterms s hservice] at hs
      obtain ⟨r, hr, rfl, hactive⟩ := h.tables.held s hs
      refine ⟨r, (hmem r).mpr (.inr (.inr ⟨hr, fun hid => ?_, fun hsame => hservice hsame.1⟩)), rfl,
        hactive⟩
      exact hservice (by rw [hsole r hr hid])
  · refine h.queue.extends hx (fun r hr => ?_) h.queue.users (fun _ _ hnew => hnew.elim)
      (fun r' hr' hclosed => ?_) fun r' hr' u hu => ?_
    · obtain ⟨r', hr', hid, hstamped, -⟩ := hstays r hr
      exact ⟨r', hr', hid, hstamped⟩
    · rcases (hmem r').mp hr' with rfl | ⟨r, -, -, -, rfl⟩ | ⟨hr, -, -⟩
      · rcases hclosed with hclosed | hclosed <;> cases hclosed
      · rcases hclosed with hclosed | hclosed <;> cases hclosed
      · exact .inl ⟨r', hr, rfl, not_false, hclosed⟩
    · rcases (hmem r').mp hr' with rfl | ⟨r, hr, -, -, rfl⟩ | ⟨hr, -, -⟩
      · exact .inl ⟨row, hrow, rfl, hu⟩
      · exact .inl ⟨r, hr, rfl, hu⟩
      · exact .inl ⟨r', hr, rfl, hu⟩
  · intro r' hr' hrpending
    rcases (hmem r').mp hr' with rfl | ⟨r, -, -, -, rfl⟩ | ⟨hr, hid, -⟩
    · cases hrpending
    · cases hrpending
    · -- a change on its way elsewhere: this product's was the one promoted
      have hne : r'.service ≠ row.service := fun hservice => hid (congrArg _
        (h.tables.pendingOne r' hr row hrow hrpending hpending hservice))
      rw [currentTerms, hterms _ hne]
      exact (h.onItsWay r' hr hrpending).extends hx not_false
  · intro s work hs
    rcases withWork_work hs with ⟨-, hnone⟩ | ⟨hne, hs⟩
    · cases hnone
    have hworking := h.working s work hs
    refine hworking.extends hx (fun r hr hlocked => ⟨(hmem r).mpr (.inr (.inr ?_)), not_false⟩)
      (by rw [currentTerms, currentTerms, hterms s hne])
    obtain ⟨r', hr', hid', hservice, -⟩ := hworking.locked hlocked
    obtain rfl := h.tables.keyed.eq hr' hr hid'
    refine ⟨hr, fun hid => ?_, fun hsame => ?_⟩
    · rw [hsole r' hr hid] at hservice
      exact hne hservice.symm
    · exact hne (hservice.symm.trans hsame.1)
  · have hmap : ((w.endPromote row nowUnix holders).withWork row.service none).bound.map
        (·.row.id) = w.bound.map (·.row.id) ++ [row.id] := List.map_append
    rw [hmap]
    refine List.Nodup.append h.boundOnce (List.nodup_singleton _) ?_
    rw [List.disjoint_singleton]
    intro hmem
    obtain ⟨b, hb, hid⟩ := List.mem_map.mp hmem
    obtain ⟨r, hr, hrid, hsettled⟩ := (h.boundOver b hb).settled
    rw [hsole r hr (hrid.trans hid)] at hsettled
    rcases hsettled with hsettled | hsettled <;> simp [hstate] at hsettled
  · intro b hb
    rcases List.mem_append.mp hb with hb | hb
    · refine (h.boundOver b hb).extends hx fun r hr hid hsettled => ?_
      obtain ⟨r', hr', hid', -, hsettled'⟩ := hstays r hr
      exact ⟨⟨r', hr', hid'.trans hid, hsettled' hsettled⟩, not_false, not_false⟩
    · obtain rfl := List.mem_singleton.mp hb
      obtain ⟨g, hg, hannounced⟩ := hway.announced hstate
      exact
        { settled := ⟨_, (hmem _).mpr (.inl rfl), rfl, .inl rfl⟩
          judged := hway.judged
          signed := fun howners => (hway.signed howners).extends hx
          announced := ⟨g, hg, hannounced.extends hx not_false⟩
          due := hdue
          cleared := fun htighter => (hcleared htighter).extends hx not_false
          waived := fun u hu => hx.givenUp (h.queue.covered row hrow u hu) }

/-! ## Runs -/

/-- **A step keeps the invariant.** -/
theorem Sound.step {w w' : FeePolicyDesk} (h : w.Sound) (hstep : Step w w') : w'.Sound := by
  cases hstep with
  | tick time => exact h.of_same rfl rfl rfl rfl rfl rfl h.queue.users h.working
  | register => exact h.of_same rfl rfl rfl rfl rfl rfl h.queue.users h.working
  | project positions husers => exact h.of_same rfl rfl rfl rfl rfl rfl husers h.working
  | begins hfree hbegins => exact h.begins hbegins
  | @commits _ service work hwork hends =>
    cases work with
    | scheduling => exact (h.schedules hwork hends).withoutWork service
    | carrying =>
      obtain rfl := Except.ok.inj hends
      exact h.carries hwork
    | promoting =>
      obtain rfl := Except.ok.inj hends
      exact h.promotes hwork
  | lost service => exact h.withoutWork service
  | rejects consilium hfree => exact h.rejects hfree consilium
  | cancels hfree hcancel => exact h.cancels hfree hcancel
  | acknowledges hfree hack => exact h.acknowledges hfree hack
  | delivers key mirrored answer => exact h.delivers key mirrored answer

/-- The history begins so. -/
theorem Began.sound {w : FeePolicyDesk} (h : w.Began) : w.Sound where
  tables :=
    { keyed := h.keyed
      pendingOne := fun a ha b hb hpa hpb hservice => h.one a ha b hb trivial trivial hservice
      activeOne := fun a ha b hb _ _ hservice => h.one a ha b hb trivial trivial hservice
      live := fun r hr _ => h.live r hr
      held := fun s hs => by
        obtain ⟨r, hr, hservice⟩ := h.held s hs
        exact ⟨r, hr, hservice, h.active r hr⟩ }
  queue :=
    { users := h.users
      keys := fun m hm => by simp [h.mails] at hm
      mailed := fun m hm => by simp [h.mails] at hm
      closed := fun r hr hclosed => by simp [h.active r hr] at hclosed
      covered := fun r hr u hu => by simp [FeePolicyChangeRow.covered, h.waived r hr] at hu }
  onItsWay := fun r hr hpending => by simp [FeePolicyChangeRow.pending, h.active r hr] at hpending
  working := fun s work hs => by simp [h.idle s] at hs
  boundOnce := by simp [h.bound]
  boundOver := fun b hb => by simp [h.bound] at hb

/-- **Every run keeps the invariant.** -/
theorem Sound.run {w₀ w : FeePolicyDesk} (h : w₀.Sound) (hrun : Run w₀ w) : w.Sound := by
  induction hrun with
  | refl => exact h
  | tail _ hstep ih => exact ih.step hstep

end FeePolicyDesk

end Banking
