import Banking.ExecutionRuns
import Banking.Roster

/-! # A roster change and the consilia open across it

Any number of openings, roster changes, sweeps and executions at once. What they rely on each other
for is little: the journal only grows, and a consilium that is closed stays closed and is not
straddled any more (`RosterWorld.Leads`). An execution acts on a closed consilium, and has read the
journal since it closed: a change the consilium was open across, and journalled no earlier than the
consilium's own second, is refused there.

Neither of the two is enforced. A change may commit between an opening's look at the journal and its
row, and a change journalled under an earlier time may commit while the consilium is open
(`roster_not_straddled` says that nothing else goes wrong). -/

namespace Banking

open Interactive (Prog PoolStep Config Runs World)

/-! ## What holds on the way -/

/-- What a step leaves of a consilium: when it was created, that it is closed, and that it is not
executed. -/
structure GovernedConsilium.Kept (g g' : GovernedConsilium) : Prop where
  createdAt : g'.createdAt = g.createdAt
  readAt : g'.stored.row.createdAt = g.stored.row.createdAt
  closed : g.stored.row.state ≠ .opened → g'.stored.row.state ≠ .opened

/-- What every world on the way satisfies. -/
structure RosterWorld.Governed (w : RosterWorld) : Prop where
  clock : w.clock ≤ I64_MAX
  changes : ∀ t ∈ w.changes, t ≤ I64_MAX
  readAt : ∀ id g, w.consilia id = some g → g.stored.row.createdAt = epochSecs g.createdAt
  /-- A consilium set about is closed. -/
  spent : ∀ id, w.spent id = true → ∃ g, w.consilia id = some g ∧ g.stored.row.state ≠ .opened
  /-- A straddled one was straddled by a change of its own second or later, and nothing came of
  it. -/
  straddled : ∀ id, w.straddled id = true → w.spent id = false ∧ ∃ g, w.consilia id = some g ∧
    g.stored.row.state ≠ .executed ∧ ∃ t ∈ w.changes, epochSecs g.createdAt ≤ epochSecs t
  openings : ∀ o ∈ w.openings, ∀ s, o.lastChange = some s →
    s + ROSTER_COOLING_OFF_SECS ≤ epochSecs o.createdAt

/-- **What the calls rely on each other for.** -/
structure RosterWorld.Leads (w w' : RosterWorld) : Prop where
  changes : ∀ t ∈ w.changes, t ∈ w'.changes
  closed : ∀ id g, w.consilia id = some g → g.stored.row.state ≠ .opened →
    w'.straddled id = w.straddled id ∧ ∃ g', w'.consilia id = some g' ∧ g.Kept g'

/-- **The steps that straddle nothing**: an opening writes its row with no change committed since
it read the journal, by a clock that is not ahead of the database's; a change commits with a time
no earlier than the second of any consilium open at that moment. -/
structure Unstraddling (w w' : RosterWorld) : Prop where
  opening : ∀ o, w'.openings = o :: w.openings →
    o.checked = w.lastRosterChangeAt ∧ o.now ≤ epochSecs o.createdAt
  change : ∀ t, w'.changes = t :: w.changes → ∀ id g, w.consilia id = some g →
    g.stored.row.state = .opened → epochSecs g.createdAt ≤ epochSecs t

theorem GovernedConsilium.Kept.refl (g : GovernedConsilium) : g.Kept g := ⟨rfl, rfl, id⟩

theorem GovernedConsilium.Kept.trans {g₁ g₂ g₃ : GovernedConsilium} (h₁ : g₁.Kept g₂)
    (h₂ : g₂.Kept g₃) : g₁.Kept g₃ :=
  ⟨h₂.createdAt.trans h₁.createdAt, h₂.readAt.trans h₁.readAt, h₂.closed ∘ h₁.closed⟩

theorem RosterWorld.Leads.refl (w : RosterWorld) : w.Leads w :=
  ⟨fun _ => id, fun _ g hg _ => ⟨rfl, g, hg, .refl g⟩⟩

theorem RosterWorld.Leads.trans {w₁ w₂ w₃ : RosterWorld} (h₁ : w₁.Leads w₂) (h₂ : w₂.Leads w₃) :
    w₁.Leads w₃ := by
  refine ⟨fun t ht => h₂.changes t (h₁.changes t ht), fun id g hg hclosed => ?_⟩
  obtain ⟨hstraddled, g', hg', hkept⟩ := h₁.closed id g hg hclosed
  obtain ⟨hstraddled', g'', hg'', hkept'⟩ := h₂.closed id g' hg' (hkept.closed hclosed)
  exact ⟨hstraddled'.trans hstraddled, g'', hg'', hkept.trans hkept'⟩

/-- The last change read is no earlier than any change journalled. -/
theorem RosterWorld.le_lastRosterChangeAt {w : RosterWorld} {t : Int} (ht : t ∈ w.changes) :
    ∃ s, w.lastRosterChangeAt = some s ∧ epochSecs t ≤ s := by
  cases hmax : w.changes.max? with
  | none =>
    rw [List.max?_eq_none_iff.mp hmax] at ht
    cases ht
  | some m =>
    have hle : t ≤ m := (List.max?_eq_some_iff.mp hmax).2 t ht
    refine ⟨epochSecs m, by simp [RosterWorld.lastRosterChangeAt, hmax], ?_⟩
    unfold epochSecs
    omega

/-- The last change read is one that was journalled. -/
theorem RosterWorld.mem_of_lastRosterChangeAt {w : RosterWorld} {s : Int}
    (h : w.lastRosterChangeAt = some s) : ∃ t ∈ w.changes, epochSecs t = s := by
  obtain ⟨m, hmax, rfl⟩ := Option.map_eq_some_iff.mp h
  exact ⟨m, (List.max?_eq_some_iff.mp hmax).1, rfl⟩

/-! ## One consilium written back -/

section Put

variable {w : RosterWorld} {id : Uuid} {g g' : GovernedConsilium}

@[simp] theorem RosterWorld.put_same : (w.put id g).consilia id = some g := by
  simp [RosterWorld.put]

theorem RosterWorld.put_other {id' : Uuid} (h : id' ≠ id) :
    (w.put id g).consilia id' = w.consilia id' := by
  simp [RosterWorld.put, h]

/-- Writing a consilium back as it was leads on. -/
theorem RosterWorld.put_leads (hg : w.consilia id = some g) (hkept : g.Kept g') :
    w.Leads (w.put id g') := by
  refine ⟨fun _ ht => ht, fun id' h hh _ => ?_⟩
  by_cases hid : id' = id
  · subst hid
    obtain rfl := Option.some.inj (hg.symm.trans hh)
    exact ⟨rfl, g', put_same, hkept⟩
  · exact ⟨rfl, h, (put_other hid).trans hh, .refl h⟩

/-- Writing a consilium back keeps the world governed, unless it was straddled and is executed. -/
theorem RosterWorld.Governed.put (h : w.Governed) (hg : w.consilia id = some g)
    (hkept : g.Kept g')
    (hexecuted : w.straddled id = true → g.stored.row.state ≠ .executed →
      g'.stored.row.state ≠ .executed) : (w.put id g').Governed where
  clock := h.clock
  changes := h.changes
  openings := h.openings
  readAt := by
    intro id' g₁ hg₁
    by_cases hid : id' = id
    · subst hid
      obtain rfl := Option.some.inj (put_same.symm.trans hg₁)
      rw [hkept.readAt, hkept.createdAt]
      exact h.readAt _ g hg
    · exact h.readAt id' g₁ ((put_other hid).symm.trans hg₁)
  spent := by
    intro id' hspent
    obtain ⟨g₁, hg₁, hclosed⟩ := h.spent id' hspent
    by_cases hid : id' = id
    · subst hid
      obtain rfl := Option.some.inj (hg.symm.trans hg₁)
      exact ⟨g', put_same, hkept.closed hclosed⟩
    · exact ⟨g₁, (put_other hid).trans hg₁, hclosed⟩
  straddled := by
    intro id' hstraddled
    obtain ⟨hspent, g₁, hg₁, hstate, t, ht, hle⟩ := h.straddled id' hstraddled
    refine ⟨hspent, ?_⟩
    by_cases hid : id' = id
    · subst hid
      obtain rfl := Option.some.inj (hg.symm.trans hg₁)
      exact ⟨g', put_same, hexecuted hstraddled hstate, t, ht, hkept.createdAt ▸ hle⟩
    · exact ⟨g₁, (put_other hid).trans hg₁, hstate, t, ht, hle⟩

end Put

/-! ## What the operations do -/

/-- Only recording an outcome changes the consilium. -/
theorem ExecOp.run_stored {op : ExecOp} (hop : ∀ outcome time, op ≠ .recordExecution outcome time)
    (w : ExecWorld) : (op.run w).2.stored = w.stored := by
  cases op with
  | recordExecution outcome time => exact absurd rfl (hop outcome time)
  | recordApproval consilium time =>
    simp only [ExecOp.run]
    split
    · split <;> rfl
    · rfl
  | scheduleApproved subject consilium =>
    simp only [ExecOp.run]
    split
    · split <;> rfl
    · rfl
  | find => rfl
  | lastRosterChangeAt => rfl
  | executeOrder => rfl
  | admitUnits => rfl
  | _ =>
    simp only [ExecOp.run]
    split <;> rfl

/-- A refused change of the store changes nothing. -/
theorem StoredConsilium.change_error {standings : Standings} {s s' : StoredConsilium}
    {command : Consilium → ConsiliumAnswer} {e : DomainError}
    (h : s.change standings command = (.error e, s')) : s' = s := by
  unfold StoredConsilium.change at h
  split at h
  · cases h
    rfl
  · cases h

theorem ExecWorld.recordExecution_stored (w : ExecWorld) (outcome : ExecutionOutcome) (time : Int) :
    (w.recordExecution outcome time).2.stored =
      (w.stored.recordExecution w.standings outcome).2 := by
  unfold ExecWorld.recordExecution
  split
  · next e stored h =>
    rw [h]
    exact (StoredConsilium.change_error h).symm
  · next stored h =>
    rw [h]
    split_ifs <;> rfl

/-- The verdict an operation records. -/
def ExecOp.verdict? : ExecOp → Option ConsiliumState
  | .recordExecution outcome _ => some outcome.verdict
  | _ => none

/-- What an operation leaves of the consilium: as it was, or with the verdict it records. -/
theorem ExecOp.run_kept (op : ExecOp) (w : RosterWorld) (g : GovernedConsilium) :
    g.Kept (g.after (op.run (w.view g)).2) ∧
      ((op.run (w.view g)).2.stored.row.state = g.stored.row.state ∨
        op.verdict? = some (op.run (w.view g)).2.stored.row.state) := by
  by_cases hop : ∀ outcome time, op ≠ .recordExecution outcome time
  · have hstored := ExecOp.run_stored hop (w.view g)
    refine ⟨⟨rfl, congrArg (·.row.createdAt) hstored, fun hclosed => ?_⟩,
      .inl (congrArg (·.row.state) hstored)⟩
    exact (congrArg (·.row.state) hstored).trans_ne hclosed
  · push Not at hop
    obtain ⟨outcome, time, rfl⟩ := hop
    have hstored := (w.view g).recordExecution_stored outcome time
    obtain ⟨hcreated, hstate⟩ := g.stored.recordExecution_state w.standings outcome
    have hrow : ((ExecOp.recordExecution outcome time).run (w.view g)).2.stored =
        (g.stored.recordExecution w.standings outcome).2 := hstored
    rw [← hrow] at hcreated hstate
    refine ⟨⟨rfl, hcreated, fun hclosed => ?_⟩, ?_⟩
    · rcases hstate with hsame | hverdict
      · exact hsame.trans_ne hclosed
      · refine hverdict.trans_ne ?_
        cases outcome <;> exact nofun
    · exact hstate.imp_right fun hverdict => congrArg some hverdict.symm

/-- What the others leave of a consilium. -/
theorem ExecEnv.kept {digest : String → List UInt8} {w : RosterWorld} {g : GovernedConsilium}
    {e : ExecWorld} (h : ExecEnv digest (w.view g) e) : g.Kept (g.after e) ∧
      (g.stored.row.state ≠ .executed → (g.after e).stored.row.state ≠ .executed) := by
  have hkept : g.stored.VerdictKept e.stored := by
    cases h with
    | store step hstep => exact step.run_verdictKept digest hstep g.stored
    | _ => exact .refl _
  refine ⟨⟨rfl, hkept.createdAt, fun hclosed => ?_⟩, fun hnot => ?_⟩
  · rcases hkept.state with hsame | ⟨hopen, -⟩
    · exact hsame.trans_ne hclosed
    · exact absurd hopen hclosed
  · rcases hkept.state with hsame | ⟨-, hstate, -⟩
    · exact hsame.trans_ne hnot
    · exact hstate

/-- A void changes a consilium as any other verdict without an execution does. -/
theorem StoredConsilium.voidOne_kept (standings : Standings) (s : StoredConsilium) (time : Int) :
    s.VerdictKept (s.voidOne standings time).2 := by
  have hvoid : ∀ st outcome, StoreStep.void standings time ≠ .record st outcome := nofun
  exact StoreStep.run_verdictKept (fun _ => []) hvoid s

/-- Every operation is one the others rely on. -/
theorem RosterOp.run_leads (op : RosterOp) (w : RosterWorld) : w.Leads (op.run w).2 := by
  cases op with
  | begin => exact .refl w
  | lastRosterChangeAt => exact .refl w
  | ownerRoster => exact .refl w
  | dueToVoid before => exact .refl w
  | insertConsilium c credentials effect createdAt now checked =>
    simp only [RosterOp.run]
    split
    · exact .refl w
    · next hfresh =>
      split
      · exact .refl w
      · refine ⟨fun _ ht => ht, fun id g hg _ => ⟨rfl, g, ?_, .refl g⟩⟩
        have hid : id ≠ c.id := by
          rintro rfl
          rw [hfresh] at hg
          cases hg
        exact (RosterWorld.put_other hid).trans hg
  | insertRosterChange changedAt owners standings =>
    refine ⟨fun t ht => List.mem_cons_of_mem _ ht, fun id g hg hclosed => ⟨?_, g, hg, .refl g⟩⟩
    simp [RosterOp.run, RosterWorld.isOpen, hg, hclosed]
  | voidOne id time =>
    simp only [RosterOp.run]
    split
    · exact .refl w
    · next g hg =>
      have hkept := g.stored.voidOne_kept w.standings time
      refine RosterWorld.put_leads hg ⟨rfl, hkept.createdAt, fun hclosed => ?_⟩
      rcases hkept.state with hsame | ⟨hopen, -⟩
      · exact hsame.trans_ne hclosed
      · exact absurd hopen hclosed
  | execution id op =>
    simp only [RosterOp.run]
    split
    · exact .refl w
    · next g hg =>
      obtain ⟨hchanges, hclosed⟩ := RosterWorld.put_leads hg (op.run_kept w g).1
      exact ⟨hchanges, hclosed⟩

theorem RosterStep.leads {op : RosterOp} {w w' : RosterWorld} {a : op.Ans}
    (h : RosterStep op w a w') : w.Leads w' := by
  cases h with
  | done => exact op.run_leads w
  | lost detail => exact op.run_leads w
  | outage detail => exact .refl w
  | refused hgated e => exact .refl w

/-! ## The calls -/

/-- The calls' world: what they do on the way, what they rely on and what they keep. -/
def rosterWorld : World RosterOp RosterOp.Ans RosterWorld where
  step op w a w' := RosterStep op w a w' ∧ Unstraddling w w'
  rely := RosterWorld.Leads
  inv := RosterWorld.Governed

/-- A call keeps the world governed from here on. -/
abbrev Governs {α : Type} (p : RosterProg α) (w : RosterWorld) : Prop :=
  rosterWorld.wp (fun _ _ => True) (fun _ _ => True) p w

/-- A query goes on where it succeeds, and is over where it does not. -/
theorem governs_query {α : Type} {op : RosterOp} {f : op.Res → RosterProg α} {w : RosterWorld}
    (h : ∀ w₁, w.Leads w₁ → w₁.Governed → Unstraddling w₁ (op.run w₁).2 →
      (op.run w₁).2.Governed ∧ ∀ r, (op.run w₁).1 = .ok r → Governs (f r) (op.run w₁).2) :
    Governs ((RosterOp.query op).bind f) w := by
  intro w₁ hleads hgoverned a w₂ hstep
  obtain ⟨hstep, hguard⟩ := hstep
  cases hstep with
  | done =>
    obtain ⟨hafter, hnext⟩ := h w₁ hleads hgoverned hguard
    refine ⟨hafter, ?_⟩
    cases ha : (op.run w₁).1 with
    | ok r => exact hnext r ha
    | error e => trivial
  | lost detail => exact ⟨(h w₁ hleads hgoverned hguard).1, trivial⟩
  | outage detail => exact ⟨hgoverned, trivial⟩
  | refused hgated e => exact ⟨hgoverned, trivial⟩

/-! ### Executions -/

/-- An operation of an execution that neither sets about the effect nor records it. -/
def ExecOp.harmless (op : ExecOp) : Prop := op.produces = false ∧ op.vouches = false

/-- A consilium nothing can straddle any more, and nothing has. -/
def RosterWorld.Settled (w : RosterWorld) (id : Uuid) : Prop :=
  w.straddled id = false ∧ ∃ g, w.consilia id = some g ∧ g.stored.row.state ≠ .opened

theorem RosterWorld.Settled.leads {w w' : RosterWorld} {id : Uuid} (h : w.Settled id)
    (hleads : w.Leads w') : w'.Settled id := by
  obtain ⟨hnot, g, hg, hclosed⟩ := h
  obtain ⟨hsame, g', hg', hkept⟩ := hleads.closed id g hg hclosed
  exact ⟨hsame.trans hnot, g', hg', hkept.closed hclosed⟩

/-- A settled consilium may be set about. -/
theorem RosterWorld.Governed.spend {w : RosterWorld} {id : Uuid} (h : w.Governed)
    (hsettled : w.Settled id) : { w with spent := Function.update w.spent id true }.Governed where
  clock := h.clock
  changes := h.changes
  readAt := h.readAt
  openings := h.openings
  spent := by
    intro id' hspent
    by_cases hid : id' = id
    · subst hid
      exact hsettled.2
    · exact h.spent id' (by simpa [Function.update_of_ne hid] using hspent)
  straddled := by
    intro id' hstraddled
    have hid : id' ≠ id := by
      rintro rfl
      exact Bool.false_ne_true (hsettled.1.symm.trans hstraddled)
    simpa [Function.update_of_ne hid] using h.straddled id' hstraddled

/-- An operation of an execution keeps the world governed, of a settled consilium or when it is
harmless. -/
theorem RosterWorld.Governed.execution {w : RosterWorld} {id : Uuid} {op : ExecOp}
    (h : w.Governed) (hop : w.Settled id ∨ op.harmless) :
    ((RosterOp.execution id op).run w).2.Governed := by
  simp only [RosterOp.run]
  split
  · exact h
  · next g hg =>
    obtain ⟨hkept, hstate⟩ := op.run_kept w g
    have hput : (w.put id (g.after (op.run (w.view g)).2)).Governed := by
      refine h.put hg hkept fun hstraddled hnot => ?_
      rcases hop with hsettled | ⟨-, hvouches⟩
      · exact absurd (hsettled.1.symm.trans hstraddled) Bool.false_ne_true
      · rcases hstate with hsame | hverdict
        · exact hsame.trans_ne hnot
        · -- what is recorded is a failure
          cases op with
          | recordExecution outcome time =>
            cases outcome with
            | executed effect => cases hvouches
            | failed reason => exact (Option.some.inj hverdict).symm.trans_ne nofun
          | _ => cases hverdict
    unfold RosterWorld.executed
    split_ifs with hproduces
    · rcases hop with hsettled | ⟨hnot, -⟩
      · exact hput.spend (hsettled.leads (RosterWorld.put_leads hg hkept))
      · exact absurd (hnot.symm.trans hproduces) Bool.false_ne_true
    · exact hput

/-- However an operation of an execution is answered, the world stays governed. -/
theorem RosterStep.governed {id : Uuid} {op : ExecOp} {w w' : RosterWorld}
    {a : (RosterOp.execution id op).Ans} (hstep : RosterStep (.execution id op) w a w')
    (h : w.Governed) (hop : w.Settled id ∨ op.harmless) : w'.Governed := by
  cases hstep with
  | done => exact h.execution hop
  | lost detail => exact h.execution hop
  | outage detail => exact h
  | refused hgated e => exact h

/-- Whatever is done to a settled consilium. -/
theorem governs_settled {α : Type} {id : Uuid} (p : ExecProg α) {w : RosterWorld}
    (h : w.Settled id) : Governs (onConsilium id p) w := by
  induction p generalizing w with
  | ret a => trivial
  | exit e => trivial
  | call op k ih =>
    intro w₁ hleads hgoverned a w₂ hstep
    have hsettled := h.leads hleads
    exact ⟨hstep.1.governed hgoverned (.inl hsettled), ih a (hsettled.leads hstep.1.leads)⟩

/-- What does no harm to any consilium. -/
theorem governs_harmless {α : Type} {id : Uuid} {p : ExecProg α} (hp : p.Within ExecOp.harmless)
    (w : RosterWorld) : Governs (onConsilium id p) w := by
  induction p generalizing w with
  | ret a => trivial
  | exit e => trivial
  | call op k ih =>
    intro w₁ _ hgoverned a w₂ hstep
    exact ⟨hstep.1.governed hgoverned (.inr hp.1), ih a (hp.2 a) w₂⟩

/-- What an operation of an execution answers when it is carried out on a consilium. -/
theorem RosterStep.answer {id : Uuid} {op : ExecOp} {w w' : RosterWorld} {r : op.Res}
    (hstep : RosterStep (.execution id op) w (.ok r) w') :
    ∃ g, w.consilia id = some g ∧ (op.run (w.view g)).1 = .ok r := by
  have hanswer : ∀ a, RosterStep (.execution id op) w a w' → a = .ok r →
      ∃ g, w.consilia id = some g ∧ (op.run (w.view g)).1 = .ok r := by
    intro a hstep ha
    cases hstep with
    | done =>
      simp only [RosterOp.run] at ha
      split at ha
      · cases ha
      · next g hg => exact ⟨g, hg, ha⟩
    | lost detail => cases ha
    | outage detail => cases ha
    | refused hgated e => cases ha
  exact hanswer _ hstep rfl

/-- **An execution.** It has read the consilium closed, and the journal after that: either nothing
straddled the consilium, or the call is refused. -/
theorem governs_execution (sha256 : List UInt8 → List UInt8) (id : Uuid) (now : Int) (fresh : Uuid)
    (w : RosterWorld) : Governs (onConsilium id (execute sha256 now fresh)) w := by
  have hfailed : ∀ (reason : String) (w : RosterWorld),
      Governs (onConsilium id (query (.recordExecution (.failed reason) now))) w := by
    intro reason w
    have hrecord : (query (.recordExecution (.failed reason) now)).Within ExecOp.harmless := by
      refine ⟨⟨rfl, rfl⟩, fun a => ?_⟩
      cases a <;> trivial
    exact governs_harmless hrecord w
  intro w₁ _ hgoverned a w₂ hstep
  have hafter := hstep.1.governed hgoverned (.inr ⟨rfl, rfl⟩)
  refine ⟨hafter, ?_⟩
  cases a with
  | error e => trivial
  | ok c =>
    obtain ⟨g, hg, hc⟩ := hstep.1.answer
    have hread : c = g.stored.rehydrate w₁.standings := (Except.ok.inj hc).symm
    dsimp only [Prog.bind, Prog.ask]
    split
    · trivial
    split
    · trivial
    next happroved =>
    split
    · exact hfailed _ w₂
    split
    · exact hfailed _ w₂
    have hclosed : g.stored.row.state ≠ .opened := by
      rw [hread] at happroved
      exact (not_ne_iff.mp happroved).trans_ne nofun
    intro w₃ hleads hgoverned₃ a w₄ hstep₄
    refine ⟨hstep₄.1.governed hgoverned₃ (.inr ⟨rfl, rfl⟩), ?_⟩
    cases a with
    | error e => trivial
    | ok changedAt =>
      obtain ⟨g₃, hg₃, hjournal⟩ := hstep₄.1.answer
      have hchanged : changedAt = w₃.lastRosterChangeAt := (Except.ok.inj hjournal).symm
      obtain ⟨-, g', hg', hkept⟩ := (hstep.1.leads.trans hleads).closed id g hg hclosed
      obtain rfl := Option.some.inj (hg₃.symm.trans hg')
      dsimp only [Prog.bind]
      split
      · exact hfailed _ w₄
      next hearlier =>
      split
      · exact hfailed _ w₄
      refine governs_settled _ (RosterWorld.Settled.leads ⟨?_, g₃, hg₃, hkept.closed hclosed⟩
        hstep₄.1.leads)
      -- a change it was open across is one the journal shows by now
      by_contra hstraddled
      obtain ⟨-, g', hg', -, t, ht, hle⟩ :=
        hgoverned₃.straddled id (Bool.eq_true_of_not_eq_false hstraddled)
      obtain rfl := Option.some.inj (hg₃.symm.trans hg')
      obtain ⟨s, hs, hts⟩ := RosterWorld.le_lastRosterChangeAt ht
      have hcreated : c.createdAt = epochSecs g₃.createdAt := by
        rw [hread]
        exact hkept.readAt.symm.trans (hgoverned₃.readAt id g₃ hg₃)
      refine hearlier ?_
      rw [hchanged, hs, Option.any_some, decide_eq_true_eq, hcreated]
      exact hle.trans hts

/-! ### Openings, changes and sweeps -/

/-- An operation that only reads. -/
theorem governs_read {α : Type} {op : RosterOp} {f : op.Res → RosterProg α} {w : RosterWorld}
    (hread : ∀ w₁ : RosterWorld, (op.run w₁).2 = w₁)
    (h : ∀ w₁ r, w₁.Governed → (op.run w₁).1 = .ok r → Governs (f r) w₁) :
    Governs ((RosterOp.query op).bind f) w := by
  refine governs_query fun w₁ _ hgoverned _ => ?_
  rw [hread w₁]
  exact ⟨hgoverned, fun r hr => h w₁ r hgoverned hr⟩

/-- A call's last operation. -/
theorem governs_last {op : RosterOp} {w : RosterWorld}
    (h : ∀ w₁ : RosterWorld, w₁.Governed → Unstraddling w₁ (op.run w₁).2 → (op.run w₁).2.Governed) :
    Governs (RosterOp.query op) w := by
  rw [← Prog.bind_ret (RosterOp.query op)]
  exact governs_query fun w₁ _ hgoverned hguard => ⟨h w₁ hgoverned hguard, fun _ _ => trivial⟩

/-- A roster that has settled did so two days before now. -/
theorem requireSettledRoster_ok {kind : ConsiliumKind} {s now : Int} (hs : s ≤ epochSecs I64_MAX)
    (h : requireSettledRoster kind (some s) now = .ok ()) : s + ROSTER_COOLING_OFF_SECS ≤ now := by
  unfold requireSettledRoster at h
  dsimp only at h
  split_ifs at h with hlifts
  have hmax : epochSecs I64_MAX + ROSTER_COOLING_OFF_SECS ≤ I64_MAX := by decide
  unfold saturatingAdd at hlifts
  omega

/-- The row a consilium is opened with. -/
theorem Consilium.openOn_row {c : Consilium} {credentials : List VoterCredential} {createdAt : Int}
    {stored : StoredConsilium} (h : c.openOn credentials createdAt = .ok stored) :
    stored.row.createdAt = createdAt := by
  unfold Consilium.openOn at h
  split_ifs at h
  cases h
  rfl

/-- **An opening's row**, in the shadow of no change the call has read of. -/
theorem RosterWorld.Governed.insertConsilium {w : RosterWorld} (h : w.Governed) {c : Consilium}
    {credentials : List VoterCredential} {effect : EffectRow} {createdAt now : Int}
    {checked : Option Int}
    (hsettled : ∀ s, checked = some s → s + ROSTER_COOLING_OFF_SECS ≤ now)
    (hguard : Unstraddling w
      ((RosterOp.insertConsilium c credentials effect createdAt now checked).run w).2) :
    ((RosterOp.insertConsilium c credentials effect createdAt now checked).run w).2.Governed := by
  simp only [RosterOp.run] at hguard ⊢
  split
  · exact h
  · next hfresh =>
    rw [hfresh] at hguard
    split
    · exact h
    · next stored hopen =>
      rw [hopen] at hguard
      obtain ⟨hchecked, hnow⟩ := hguard.opening _ rfl
      have hother : ∀ id g, w.consilia id = some g →
          (w.put c.id ⟨stored, effect, 0, createdAt⟩).consilia id = some g := by
        intro id g hg
        have hid : id ≠ c.id := by
          rintro rfl
          rw [hfresh] at hg
          cases hg
        exact (RosterWorld.put_other hid).trans hg
      refine ⟨h.clock, h.changes, ?_, ?_, ?_, ?_⟩
      · intro id g hg
        by_cases hid : id = c.id
        · subst hid
          obtain rfl := Option.some.inj (RosterWorld.put_same.symm.trans hg)
          exact Consilium.openOn_row hopen
        · exact h.readAt id g ((RosterWorld.put_other hid).symm.trans hg)
      · intro id hspent
        obtain ⟨g, hg, hclosed⟩ := h.spent id hspent
        exact ⟨g, hother id g hg, hclosed⟩
      · intro id hstraddled
        obtain ⟨hspent, g, hg, hrest⟩ := h.straddled id hstraddled
        exact ⟨hspent, g, hother id g hg, hrest⟩
      · intro o ho s hs
        rcases List.mem_cons.mp ho with rfl | ho
        · exact (hsettled s (hchecked.trans hs)).trans hnow
        · exact h.openings o ho s hs

/-- **A roster change's row**, no earlier than the second of any consilium open at that moment. -/
theorem RosterWorld.Governed.insertRosterChange {w : RosterWorld} (h : w.Governed) {changedAt : Int}
    {owners : List UserId} {standings : Standings} (hmax : changedAt ≤ I64_MAX)
    (hguard : Unstraddling w
      ((RosterOp.insertRosterChange changedAt owners standings).run w).2) :
    ((RosterOp.insertRosterChange changedAt owners standings).run w).2.Governed where
  clock := h.clock
  changes := by
    intro t ht
    rcases List.mem_cons.mp ht with rfl | ht
    · exact hmax
    · exact h.changes t ht
  readAt := h.readAt
  spent := h.spent
  openings := h.openings
  straddled := by
    intro id hstraddled
    rcases Bool.or_eq_true_iff.mp hstraddled with hbefore | hopen
    · obtain ⟨hspent, g, hg, hstate, t, ht, hle⟩ := h.straddled id hbefore
      exact ⟨hspent, g, hg, hstate, t, List.mem_cons_of_mem _ ht, hle⟩
    · -- open until now: nothing was set about, and this change is no earlier than it
      obtain ⟨g, hg, hstate⟩ : ∃ g, w.consilia id = some g ∧ g.stored.row.state = .opened := by
        simpa [RosterWorld.isOpen, Option.any_eq_true] using hopen
      refine ⟨Bool.eq_false_iff.mpr fun hspent => ?_, g, hg, ?_, changedAt, List.mem_cons_self,
        hguard.change changedAt rfl id g hg hstate⟩
      · obtain ⟨g', hg', hclosed⟩ := h.spent id hspent
        obtain rfl := Option.some.inj (hg.symm.trans hg')
        exact hclosed hstate
      · rw [hstate]
        decide

theorem governs_opening (id : Uuid) (terms : ConsiliumTerms) (payloadHash : List UInt8)
    (initiator : UserId) (mint : UserId → VoterCredential) (effect : EffectRow) (now : Int)
    (w : RosterWorld) :
    Governs (openConsilium id terms payloadHash initiator mint effect now) w := by
  refine governs_read (fun _ => rfl) fun w₁ checked hgoverned hchecked => ?_
  have hchecked : w₁.lastRosterChangeAt = checked := Except.ok.inj hchecked
  cases hsettled : requireSettledRoster terms.kind checked now with
  | error e => trivial
  | ok _ =>
    have hlifted : ∀ s, checked = some s → s + ROSTER_COOLING_OFF_SECS ≤ now := by
      rintro s rfl
      obtain ⟨t, ht, rfl⟩ := RosterWorld.mem_of_lastRosterChangeAt hchecked
      refine requireSettledRoster_ok ?_ hsettled
      have hmax := hgoverned.changes t ht
      unfold epochSecs
      omega
    refine governs_read (fun _ => rfl) fun w₂ owners _ _ => ?_
    split
    · trivial
    · refine governs_read (fun _ => rfl) fun w₃ createdAt _ _ => ?_
      exact governs_last fun w₄ hgoverned hguard => hgoverned.insertConsilium hlifted hguard

theorem governs_change (owners : List UserId) (standings : Standings) (w : RosterWorld) :
    Governs (recordRosterChange owners standings) w := by
  refine governs_read (fun _ => rfl) fun w₁ changedAt hgoverned hbegin => ?_
  have hmax : changedAt ≤ I64_MAX := (Except.ok.inj hbegin).symm.trans_le hgoverned.clock
  exact governs_last fun w₂ hgoverned hguard => hgoverned.insertRosterChange hmax hguard

/-- A void keeps the world governed. -/
theorem RosterWorld.Governed.voidOne {w : RosterWorld} (h : w.Governed) (id : Uuid) (time : Int) :
    ((RosterOp.voidOne id time).run w).2.Governed := by
  simp only [RosterOp.run]
  split
  · exact h
  · next g hg =>
    have hkept := g.stored.voidOne_kept w.standings time
    refine h.put hg ⟨rfl, hkept.createdAt, fun hclosed => ?_⟩ fun _ hnot => ?_
    · rcases hkept.state with hsame | ⟨hopen, -⟩
      · exact hsame.trans_ne hclosed
      · exact absurd hopen hclosed
    · rcases hkept.state with hsame | ⟨-, hstate, -⟩
      · exact hsame.trans_ne hnot
      · exact hstate

theorem governs_sweep (now : Int) (w : RosterWorld) : Governs (voidOpenForRosterChange now) w := by
  refine governs_read (fun _ => rfl) fun w₁ changedAt _ _ => ?_
  cases changedAt with
  | none => trivial
  | some changedAt =>
    refine governs_read (fun _ => rfl) fun w₂ due _ _ => ?_
    refine World.wp_each (J := fun _ _ => True) (fun _ id _ _ w₃ _ => ?_) trivial
    intro w₄ _ hgoverned a w₅ hstep
    obtain ⟨hstep, -⟩ := hstep
    refine ⟨?_, trivial⟩
    cases hstep with
    | done => exact hgoverned.voidOne id now
    | lost detail => exact hgoverned.voidOne id now
    | outage detail => exact hgoverned
    | refused hgated e => exact hgoverned

/-- Every call keeps the world governed from wherever it starts. -/
theorem IsRosterCall.governs {sha256 : List UInt8 → List UInt8} {p : RosterProg Unit}
    (hp : IsRosterCall sha256 p) (w : RosterWorld) : Governs p w := by
  cases hp with
  | opening id terms payloadHash initiator mint effect now =>
    exact governs_opening id terms payloadHash initiator mint effect now w
  | change owners standings => exact governs_change owners standings w
  | sweep now => exact governs_sweep now w
  | execution id now fresh => exact governs_execution sha256 id now fresh w

/-- So do the others. -/
theorem RosterEnv.governed {digest : String → List UInt8} {w w' : RosterWorld}
    (henv : RosterEnv digest w w') (h : w.Governed) : w.Leads w' ∧ w'.Governed := by
  cases henv with
  | tick hle hmax =>
    exact ⟨⟨fun _ ht => ht, fun id g hg _ => ⟨rfl, g, hg, .refl g⟩⟩,
      ⟨hmax, h.changes, h.readAt, h.spent, h.straddled, h.openings⟩⟩
  | users standings =>
    exact ⟨⟨fun _ ht => ht, fun id g hg _ => ⟨rfl, g, hg, .refl g⟩⟩,
      ⟨h.clock, h.changes, h.readAt, h.spent, h.straddled, h.openings⟩⟩
  | consilium hg henv =>
    obtain ⟨hkept, hstate⟩ := henv.kept
    exact ⟨RosterWorld.put_leads hg hkept, h.put hg hkept fun _ => hstate⟩

/-! ## Runs -/

/-- A world and the calls under way in it. -/
abbrev RosterConfig : Type := Config RosterOp RosterOp.Ans DomainError Unit RosterWorld

/-- A world in which no consilium has been opened yet. -/
structure RosterWorld.Fresh (w : RosterWorld) : Prop where
  clock : w.clock ≤ I64_MAX
  changes : ∀ t ∈ w.changes, t ≤ I64_MAX
  consilia : ∀ id, w.consilia id = none
  openings : w.openings = []
  straddled : ∀ id, w.straddled id = false
  spent : ∀ id, w.spent id = false

/-- **What a settled roster promises**: no consilium was opened in the cooling-off period of the
last roster change there was, and none that was open when a roster change committed has been set
about or executed. -/
structure RosterWorld.Unstraddled (w : RosterWorld) : Prop where
  opened : ∀ o ∈ w.openings, ∀ s, o.lastChange = some s →
    s + ROSTER_COOLING_OFF_SECS ≤ epochSecs o.createdAt
  executed : ∀ id, w.straddled id = true → w.spent id = false ∧
    ∀ g, w.consilia id = some g → g.stored.row.state ≠ .executed

theorem RosterWorld.Governed.unstraddled {w : RosterWorld} (h : w.Governed) : w.Unstraddled := by
  refine ⟨h.openings, fun id hstraddled => ?_⟩
  obtain ⟨hspent, g, hg, hstate, -⟩ := h.straddled id hstraddled
  refine ⟨hspent, fun g' hg' => ?_⟩
  obtain rfl := Option.some.inj (hg.symm.trans hg')
  exact hstate

/-- **A roster change is not straddled**, in any run whose steps straddle nothing. -/
theorem roster_not_straddled {sha256 : List UInt8 → List UInt8} {digest : String → List UInt8}
    {c c' : RosterConfig} (hfresh : c.1.Fresh) (hcalls : c.2 = [])
    (hrun : Runs RosterStep (RosterEnv digest) (IsRosterCall sha256)
      (fun c c' => Unstraddling c.1 c'.1) c c') : c'.1.Unstraddled := by
  have hgoverned : c.1.Governed := by
    refine ⟨hfresh.clock, hfresh.changes, ?_, ?_, ?_, ?_⟩
    · intro id g hg
      rw [hfresh.consilia id] at hg
      cases hg
    · exact fun id hspent => absurd ((hfresh.spent id).symm.trans hspent) Bool.false_ne_true
    · exact fun id hstraddled =>
        absurd ((hfresh.straddled id).symm.trans hstraddled) Bool.false_ne_true
    · simp [hfresh.openings]
  refine RosterWorld.Governed.unstraddled ?_
  refine Runs.reliant (S := rosterWorld) RosterWorld.Leads.refl RosterWorld.Leads.trans ?_ ?_ ?_
    hrun hgoverned (by simp [hcalls])
  · exact fun w w' _ henv _ h => henv.governed h
  · exact fun w w' op a _ _ hstep hguard _ => ⟨⟨hstep, hguard⟩, hstep.leads⟩
  · exact fun w p hp _ => hp.governs w

/-! ## Openings and changes that cross -/

/-- Three owners and no consilium, at a time of the database. -/
def sampleRoster (clock : Int) (changes : List Int) : RosterWorld where
  clock := clock
  owners := [.raw 1, .raw 2, .raw 3]
  standings := frozenOwners []
  changes := changes
  ids := []
  consilia := fun _ => none
  openings := []
  straddled := fun _ => false
  spent := fun _ => false

theorem sampleRoster_fresh {clock : Int} {changes : List Int} (hclock : clock ≤ I64_MAX)
    (hchanges : ∀ t ∈ changes, t ≤ I64_MAX) : (sampleRoster clock changes).Fresh :=
  ⟨hclock, hchanges, fun _ => rfl, rfl, fun _ => rfl, fun _ => rfl⟩

/-- The opening of a mark. -/
def sampleOpening (now : Int) : RosterProg Unit :=
  openConsilium (.raw 7) (.valuationOverride (sampleMark 1 sampleMark_one)) [] (.raw 1)
    (fun user => if user = .raw 2 then ⟨.raw 2, [2], sampleDigest "AAAA"⟩
      else ⟨user, [3], sampleDigest "BBBB"⟩)
    (.valuation false) now

/-- The fourth owner's admission. -/
def sampleAdmission : RosterProg Unit :=
  recordRosterChange [.raw 1, .raw 2, .raw 3, .raw 4] (frozenOwners [])

/-- An operation carried out. -/
def RosterOp.carriedOut (op : RosterOp) (w : RosterWorld) : op.Ans × RosterWorld := op.run w

/-- A program of the sample `n` operations on. -/
abbrev sampleStage (p : RosterProg Unit) (n : Nat) (w : RosterWorld) :
    RosterProg Unit × RosterWorld :=
  p.advance RosterOp.carriedOut n w

/-- A step that writes neither a consilium nor a change straddles nothing. -/
theorem Unstraddling.of_same {w w' : RosterWorld} (hopenings : w'.openings = w.openings)
    (hchanges : w'.changes = w.changes) : Unstraddling w w' := by
  refine ⟨fun o ho => ?_, fun t ht => ?_⟩
  · simp [hopenings] at ho
  · simp [hchanges] at ht

/-- A call of the sample after its first `n` operations, the others where they were. -/
def sampleStep (p : RosterProg Unit) (n : Nat) (w : RosterWorld)
    (others : List (RosterProg Unit)) : RosterConfig :=
  ((sampleStage p n w).2, (sampleStage p n w).1 :: others)

theorem sampleStep_run {guard : RosterConfig → RosterConfig → Prop} (p : RosterProg Unit) (n : Nat)
    (w : RosterWorld) (others : List (RosterProg Unit))
    (hguard : ∀ m < n, guard (sampleStep p m w others) (sampleStep p (m + 1) w others)) :
    Runs RosterStep (RosterEnv sampleDigest) (IsRosterCall fun _ => []) guard (w, p :: others)
      (sampleStep p n w others) :=
  Runs.advance (fun _ _ => .done) n p w hguard

theorem sampleOpening_call (now : Int) : IsRosterCall (fun _ => []) (sampleOpening now) :=
  .opening _ _ _ _ _ _ _

/-- A mark's consilium opened more than two days after a change. -/
def sampleSettled : RosterConfig :=
  sampleStep (sampleOpening 200000) 4 (sampleRoster 200000000000 [0]) []

theorem roster_not_straddled_sample :
    sampleSettled.1.Unstraddled ∧ sampleSettled.1.openings.length = 1 := by
  refine ⟨?_, by rfl⟩
  have hstart : PoolStep RosterStep (RosterEnv sampleDigest) (IsRosterCall fun _ => [])
      (sampleRoster 200000000000 [0], []) (sampleRoster 200000000000 [0], [sampleOpening 200000]) :=
    .start (sampleOpening_call 200000)
  refine roster_not_straddled (sampleRoster_fresh (by decide) (by decide)) rfl
    (.head ⟨hstart, .of_same rfl rfl⟩ (sampleStep_run _ 4 _ [] fun m hm => ?_))
  interval_cases m
  · exact .of_same rfl rfl
  · exact .of_same rfl rfl
  · exact .of_same rfl rfl
  · refine ⟨fun o ho => ?_, fun t ht => ?_⟩
    · obtain rfl := (List.cons.inj ho).1
      decide
    · exact absurd (congrArg List.length ht) (Nat.ne_of_lt (Nat.lt_succ_self _))

/-- The mark's opening once it has read of no change and of the owners. -/
def sampleChecked : RosterConfig :=
  sampleStep (sampleOpening 1000) 2 (sampleRoster 1000000000 []) []

/-- The fourth owner admitted then. -/
def sampleAdmitted : RosterConfig :=
  sampleStep sampleAdmission 2 sampleChecked.1 sampleChecked.2

/-- The mark's consilium opened five seconds later. -/
def sampleShadowed : RosterConfig :=
  sampleStep (sampleStage (sampleOpening 1000) 2 (sampleRoster 1000000000 [])).1 2
    { sampleAdmitted.1 with clock := 1005000000 } []

/-- The mark's consilium opened ten seconds into an admission that is still under way. -/
def sampleAcross : RosterConfig :=
  sampleStep (sampleOpening 1010) 4
    { sampleRoster 1000000000 [] with clock := 1010000000 }
    [(sampleStage sampleAdmission 1 (sampleRoster 1000000000 [])).1]

/-- The admission committed with the consilium open. -/
def sampleStraddled : RosterWorld :=
  (sampleStage (sampleStage sampleAdmission 1 (sampleRoster 1000000000 [])).1 1 sampleAcross.1).2

/-- The consilium's two votes. -/
def sampleVotes : List StoreStep :=
  [.submit (frozenOwners []) ⟨[2], "AAAA", .approve, ⟨"", ""⟩, 1011⟩,
    .submit (frozenOwners []) ⟨[3], "BBBB", .approve, ⟨"", ""⟩, 1012⟩]

/-- A consilium after a vote. -/
def RosterWorld.voted (w : RosterWorld) (step : StoreStep) : RosterWorld :=
  match w.consilia (.raw 7) with
  | none => w
  | some g => w.put (.raw 7) { g with stored := step.run sampleDigest g.stored }

/-- The mark's execution, once both have voted. -/
def sampleSpent : RosterConfig :=
  sampleStep (onConsilium (.raw 7) (execute (fun _ => []) 1013 (.raw 9))) 5
    (sampleVotes.foldl RosterWorld.voted sampleStraddled) []

/-- The runs of the sample, whatever they straddle. -/
abbrev sampleRuns : RosterConfig → RosterConfig → Prop :=
  Runs RosterStep (RosterEnv sampleDigest) (IsRosterCall fun _ => []) fun _ _ => True

theorem sampleRuns_voted {w : RosterWorld} {ps : List (RosterProg Unit)} (step : StoreStep)
    (hstep : ∀ standings outcome, step ≠ .record standings outcome) :
    sampleRuns (w, ps) (w.voted step, ps) := by
  unfold RosterWorld.voted
  split
  · exact .refl
  · next g hg => exact .single ⟨.env (.consilium w hg (.store (w.view g) step hstep)), trivial⟩

theorem sampleShadowed_run : sampleRuns (sampleRoster 1000000000 [], []) sampleShadowed := by
  refine .head ⟨.start (sampleOpening_call 1000), trivial⟩ ?_
  refine (sampleStep_run _ 2 _ [] fun _ _ => trivial).trans ?_
  refine .head ⟨.start (.change [.raw 1, .raw 2, .raw 3, .raw 4] (frozenOwners [])), trivial⟩ ?_
  refine (sampleStep_run _ 2 _ _ fun _ _ => trivial).trans ?_
  refine .head ⟨.crash [] _, trivial⟩ ?_
  refine .head ⟨.env (.tick _ (t := 1005000000) (by decide) (by decide)), trivial⟩ ?_
  exact sampleStep_run _ 2 _ [] fun _ _ => trivial

theorem sampleSpent_run : sampleRuns (sampleRoster 1000000000 [], []) sampleSpent := by
  refine .head ⟨.start (.change [.raw 1, .raw 2, .raw 3, .raw 4] (frozenOwners [])), trivial⟩ ?_
  refine (sampleStep_run _ 1 _ [] fun _ _ => trivial).trans ?_
  refine .head ⟨.env (.tick _ (t := 1010000000) (by decide) (by decide)), trivial⟩ ?_
  refine .head ⟨.start (sampleOpening_call 1010), trivial⟩ ?_
  refine (sampleStep_run _ 4 _ _ fun _ _ => trivial).trans ?_
  refine .head ⟨.crash [] _, trivial⟩ ?_
  refine (sampleStep_run _ 1 _ [] fun _ _ => trivial).trans ?_
  refine .head ⟨.crash [] [], trivial⟩ ?_
  refine (sampleRuns_voted sampleVotes[0] nofun).trans ?_
  refine (sampleRuns_voted sampleVotes[1] nofun).trans ?_
  refine .head ⟨.start (.execution (.raw 7) 1013 (.raw 9)), trivial⟩ ?_
  exact sampleStep_run _ 5 _ [] fun _ _ => trivial

/-- **What crosses a roster change**: a consilium opened five seconds after one, which committed
between the opening's look at the journal and its row; and one open when a change committed, its
effect set about later, the change journalled under a time before the opening. -/
theorem roster_straddled :
    ∃ (sha256 : List UInt8 → List UInt8) (digest : String → List UInt8) (c opened executed :
        RosterConfig), c.1.Fresh ∧ c.2 = [] ∧
      Runs RosterStep (RosterEnv digest) (IsRosterCall sha256) (fun _ _ => True) c opened ∧
      (∃ o ∈ opened.1.openings, ∃ s, o.lastChange = some s ∧
        epochSecs o.createdAt < s + ROSTER_COOLING_OFF_SECS) ∧
      Runs RosterStep (RosterEnv digest) (IsRosterCall sha256) (fun _ _ => True) c executed ∧
      ∃ id, executed.1.straddled id = true ∧ executed.1.spent id = true ∧
        ∃ g, executed.1.consilia id = some g ∧ g.stored.row.state = .executed ∧ g.written = 1 := by
  have hopenings : sampleShadowed.1.openings = [⟨1005000000, 1000, none, some 1000⟩] := by rfl
  refine ⟨fun _ => [], sampleDigest, (sampleRoster 1000000000 [], []), sampleShadowed, sampleSpent,
    sampleRoster_fresh (by decide) (by decide), rfl, sampleShadowed_run,
    ⟨_, hopenings ▸ List.mem_cons_self, 1000, rfl, by decide⟩, sampleSpent_run, .raw 7, by rfl,
    by rfl, ?_⟩
  exact ⟨_, rfl, by rfl, by rfl⟩

end Banking
