import Banking.Executor

/-! # What holds in every round of the executor

What the replicas rely on each other for (`Evolves`), what a void or failed report is backed by
(`Backed`), when an operation may be executed (`Cleared`), and the invariant every operation keeps
(`Sound`). From them, what holds in every world the replicas reach. -/

namespace Banking

open Interactive (Prog World Config Runs PoolStep)

variable {sha256Hex : String → String} {parseUuid : String → Option Uuid} {grants : Grants}
  {w w' w'' : ExecutorWorld}

/-! ## What the replicas rely on -/

/-- What happens to the world meanwhile: the log grows, a stored operation advances, and an id a
pull named before anything was stored under it stays unused. -/
structure ExecutorWorld.Evolves (parseUuid : String → Option Uuid) (w w' : ExecutorWorld) :
    Prop where
  log : ∃ events, w'.log = events ++ w.log
  rows : ∀ id r, w.rows id = some r → ∃ r', w'.rows id = some r' ∧ r.Advances r'
  unused : ∀ id view, w.rows id = none → .pulled view ∈ w.log →
    operationRef parseUuid view.subjectRef = some id → w'.rows id = none

theorem ExecutorWorld.Evolves.refl (w : ExecutorWorld) : w.Evolves parseUuid w :=
  ⟨⟨[], rfl⟩, fun _ r hr => ⟨r, hr, .refl r⟩, fun _ _ h _ _ => h⟩

/-- What happened stays in the log. -/
theorem ExecutorWorld.Evolves.mem (h : w.Evolves parseUuid w') {event : ExecutorEvent}
    (hmem : event ∈ w.log) : event ∈ w'.log := by
  obtain ⟨events, hlog⟩ := h.log
  rw [hlog]
  exact List.mem_append_right _ hmem

theorem ExecutorWorld.Evolves.trans (h : w.Evolves parseUuid w') (h' : w'.Evolves parseUuid w'') :
    w.Evolves parseUuid w'' where
  log := by
    obtain ⟨events, hlog⟩ := h.log
    obtain ⟨events', hlog'⟩ := h'.log
    exact ⟨events' ++ events, by rw [hlog', hlog, List.append_assoc]⟩
  rows id r hr := by
    obtain ⟨r', hr', hadv⟩ := h.rows id r hr
    obtain ⟨r'', hr'', hadv'⟩ := h'.rows id r' hr'
    exact ⟨r'', hr'', hadv.trans hadv'⟩
  unused id view hnone hpulled href :=
    h'.unused id view (h.unused id view hnone hpulled href) (h.mem hpulled) href

/-- More in the log, nothing else. -/
theorem ExecutorWorld.evolves_logs (w : ExecutorWorld) (events : List ExecutorEvent) :
    w.Evolves parseUuid (w.logs events) :=
  ⟨⟨events, rfl⟩, fun _ r hr => ⟨r, hr, .refl r⟩, fun _ _ h _ _ => h⟩

/-- A row advanced, nothing else. -/
theorem ExecutorWorld.evolves_setRow {id : Uuid} {r r' : RecordedOperation}
    (hr : w.rows id = some r) (hadv : r.Advances r') : w.Evolves parseUuid (w.setRow id r') := by
  refine ⟨⟨[], rfl⟩, fun id' s hs => ?_, fun id' view hnone _ _ => ?_⟩
  · by_cases hid : id' = id
    · subst hid
      rw [hr] at hs
      cases hs
      exact ⟨r', by simp, hadv⟩
    · exact ⟨s, by simp [hid, hs], .refl s⟩
  · have hid : id' ≠ id := by
      rintro rfl
      rw [hr] at hnone
      cases hnone
    simp [hid, hnone]

/-! ## What a report is backed by -/

/-- Why the approval `approvalId` does not execute the operation `id`: nothing is stored under that
id, or what is stored is decided by another approval, or ended, or is not what the approval was
passed for. -/
def ExecutorWorld.Unfit (sha256Hex : String → String) (w : ExecutorWorld) (id : Uuid)
    (approvalId : String) : Prop :=
  w.rows id = none ∨ ∃ r, w.rows id = some r ∧
    ((∃ known, r.progress.approvalId = some known ∧ known ≠ approvalId) ∨
      r.progress.state = .rejected ∨ r.progress.state = .failed ∨
      ∃ view, .answered view ∈ w.log ∧ view.id = approvalId ∧ view.state = .passed ∧
        r.mismatch sha256Hex view ≠ none)

/-- A pull named an operation the approval does not execute. -/
def ExecutorWorld.Backed (sha256Hex : String → String) (parseUuid : String → Option Uuid)
    (w : ExecutorWorld) (approvalId : String) : Prop :=
  ∃ view id, .pulled view ∈ w.log ∧ view.id = approvalId ∧
    operationRef parseUuid view.subjectRef = some id ∧ w.Unfit sha256Hex id approvalId

theorem ExecutorWorld.Backed.evolve {approvalId : String}
    (h : w.Backed sha256Hex parseUuid approvalId) (he : w.Evolves parseUuid w') :
    w'.Backed sha256Hex parseUuid approvalId := by
  obtain ⟨view, id, hpulled, hid, href, hunfit⟩ := h
  refine ⟨view, id, he.mem hpulled, hid, href, ?_⟩
  rcases hunfit with hnone | ⟨r, hr, hwhy⟩
  · exact .inl (he.unused id view hnone hpulled href)
  · obtain ⟨r', hr', hadv⟩ := he.rows id r hr
    refine .inr ⟨r', hr', ?_⟩
    rcases hwhy with ⟨known, hknown, hne⟩ | hrejected | hfailed | ⟨v, hv, hvid, hpassed, hmiss⟩
    · exact .inl ⟨known, hadv.approval _ hknown, hne⟩
    · exact .inr (.inl ((hadv.decided (by simp [hrejected])).1.trans hrejected))
    · exact .inr (.inr (.inl ((hadv.decided (by simp [hfailed])).1.trans hfailed)))
    · exact .inr (.inr (.inr ⟨v, he.mem hv, hvid, hpassed, by rwa [hadv.mismatch]⟩))

/-! ## When an operation may be executed -/

/-- The operation `id` is decided by the approval `approvalId`, which was re-read passed and its
own. -/
def ExecutorWorld.Cleared (sha256Hex : String → String) (w : ExecutorWorld) (id : Uuid)
    (approvalId : String) : Prop :=
  ∃ r view, w.rows id = some r ∧ .answered view ∈ w.log ∧ view.id = approvalId ∧
    view.state = .passed ∧ r.mismatch sha256Hex view = none ∧
    r.progress.approvalId = some approvalId

theorem ExecutorWorld.Cleared.evolve {id : Uuid} {approvalId : String}
    (h : w.Cleared sha256Hex id approvalId) (he : w.Evolves parseUuid w') :
    w'.Cleared sha256Hex id approvalId := by
  obtain ⟨r, view, hr, hview, hid, hpassed, hmatch, happroval⟩ := h
  obtain ⟨r', hr', hadv⟩ := he.rows id r hr
  exact ⟨r', view, hr', he.mem hview, hid, hpassed, by rwa [hadv.mismatch],
    hadv.approval _ happroval⟩

/-! ## The invariant -/

/-- **What holds of every world reached.** -/
structure ExecutorWorld.Sound (sha256Hex : String → String) (parseUuid : String → Option Uuid)
    (w : ExecutorWorld) : Prop where
  named : ∀ id r, w.rows id = some r → r.operation.id = id
  once : ∀ id, w.effects id = [] ∨
    ∃ done r, w.effects id = [done] ∧ w.rows id = some r ∧ r.progress.state = .executed
  preceded : ∀ later id done earlier, w.log = later ++ .recorded id done :: earlier →
    ∃ r view, w.rows id = some r ∧ done.CarriesOut r ∧ .answered view ∈ earlier ∧
      view.state = .passed ∧ r.mismatch sha256Hex view = none ∧
      r.progress.approvalId = some view.id
  backed : ∀ report, .reported report ∈ w.log → report.outcome ≠ .executed →
    w.Backed sha256Hex parseUuid report.approvalId

theorem ExecutorWorld.sound_empty : ExecutorWorld.empty.Sound sha256Hex parseUuid where
  named _ _ h := by simp [ExecutorWorld.empty] at h
  once _ := .inl rfl
  preceded later id done earlier h := absurd h.symm (by simp [ExecutorWorld.empty])
  backed _ h := by simp [ExecutorWorld.empty] at h

/-- An event that records nothing, and reports only what is backed. -/
def ExecutorEvent.Quiet (sha256Hex : String → String) (parseUuid : String → Option Uuid)
    (w : ExecutorWorld) : ExecutorEvent → Prop
  | .pulled _ | .answered _ => True
  | .recorded .. => False
  | .reported report => report.outcome ≠ .executed →
    w.Backed sha256Hex parseUuid report.approvalId

/-- **Nothing recorded**: what evolves with quiet events stays sound. -/
theorem ExecutorWorld.Sound.quiet (h : w.Sound sha256Hex parseUuid) (he : w.Evolves parseUuid w')
    (hnamed : ∀ id r, w'.rows id = some r → r.operation.id = id) {events : List ExecutorEvent}
    (hlog : w'.log = events ++ w.log)
    (hquiet : ∀ event ∈ events, event.Quiet sha256Hex parseUuid w') :
    w'.Sound sha256Hex parseUuid where
  named := hnamed
  once id := by
    have hnone : events.filterMap (·.effect id) = [] := by
      refine List.filterMap_eq_nil_iff.mpr fun event hevent => ?_
      cases event with
      | pulled | answered | reported => rfl
      | recorded id' done => exact (hquiet _ hevent).elim
    have heffects : w'.effects id = w.effects id := by
      rw [ExecutorWorld.effects, hlog, List.filterMap_append, hnone, List.nil_append]
      rfl
    rcases h.once id with hnil | ⟨done, r, hone, hr, hstate⟩
    · exact .inl (heffects.trans hnil)
    · obtain ⟨r', hr', hadv⟩ := he.rows id r hr
      exact .inr ⟨done, r', heffects.trans hone, hr',
        (hadv.decided (by simp [hstate])).1.trans hstate⟩
  preceded later id done earlier hsplit := by
    have hold : ∃ later', w.log = later' ++ .recorded id done :: earlier := by
      rw [hlog] at hsplit
      rcases List.append_eq_append_iff.mp hsplit with ⟨more, -, hw⟩ | ⟨more, hevents, hw⟩
      · exact ⟨more, hw⟩
      · cases more with
        | nil => exact ⟨[], hw.symm⟩
        | cons event more =>
          obtain ⟨hevent, -⟩ := List.cons.inj hw
          exact (hquiet (.recorded id done) (by simp [hevents, hevent])).elim
    obtain ⟨later', hold⟩ := hold
    obtain ⟨r, view, hr, hdone, hview, hpassed, hmatch, hid⟩ :=
      h.preceded later' id done earlier hold
    obtain ⟨r', hr', hadv⟩ := he.rows id r hr
    exact ⟨r', view, hr', (hadv.carriesOut done).mpr hdone, hview, hpassed,
      by rwa [hadv.mismatch], hadv.approval _ hid⟩
  backed report hreport houtcome := by
    rw [hlog] at hreport
    rcases List.mem_append.mp hreport with hnew | hold
    · exact hquiet _ hnew houtcome
    · exact (h.backed report hold houtcome).evolve he

/-! ## What each operation keeps -/

/-- A write that was made, or was not. -/
theorem Written.world {ε α : Type} {fault : String → ε} {made : Except ε α × ExecutorWorld}
    {a : Except ε α} (h : Written fault w made a w') : w' = made.2 ∨ w' = w := by
  cases h with
  | done => exact .inl rfl
  | lost => exact .inl rfl
  | outage => exact .inr rfl

/-- A write that was answered was made. -/
theorem Written.ok {ε α : Type} {fault : String → ε} {made : Except ε α × ExecutorWorld} {a : α}
    (h : Written fault w made (.ok a) w') : made = (.ok a, w') := by
  generalize hans : Except.ok a = ans at h
  cases h with
  | done => rfl
  | lost => cases hans
  | outage => cases hans

/-- What the replicas rely on, and the invariant: kept. -/
structure ExecutorWorld.Keeps (sha256Hex : String → String) (parseUuid : String → Option Uuid)
    (w w' : ExecutorWorld) : Prop where
  evolves : w.Evolves parseUuid w'
  sound : w'.Sound sha256Hex parseUuid

theorem ExecutorWorld.Sound.stay (h : w.Sound sha256Hex parseUuid) :
    w.Keeps sha256Hex parseUuid w := ⟨.refl w, h⟩

/-- Quiet events keep it. -/
theorem ExecutorWorld.Sound.logs (h : w.Sound sha256Hex parseUuid) {events : List ExecutorEvent}
    (hquiet : ∀ event ∈ events, event.Quiet sha256Hex parseUuid (w.logs events)) :
    w.Keeps sha256Hex parseUuid (w.logs events) :=
  ⟨w.evolves_logs events, h.quiet (w.evolves_logs events) h.named rfl hquiet⟩

/-- A row that advances keeps it. -/
theorem ExecutorWorld.Sound.setRow (h : w.Sound sha256Hex parseUuid) {id : Uuid}
    {r r' : RecordedOperation} (hr : w.rows id = some r) (hadv : r.Advances r') :
    w.Keeps sha256Hex parseUuid (w.setRow id r') := by
  have he : w.Evolves parseUuid (w.setRow id r') := ExecutorWorld.evolves_setRow hr hadv
  refine ⟨he, h.quiet he (fun id' s hs => ?_) (List.nil_append _).symm (by simp)⟩
  rw [ExecutorWorld.setRow_rows] at hs
  split_ifs at hs with hid
  · cases hs
    rw [hadv.operation, hid, h.named id r hr]
  · exact h.named id' s hs

/-- `opened` keeps it, and a success records the approval. -/
theorem ExecutorWorld.Sound.opened (h : w.Sound sha256Hex parseUuid) (id : Uuid)
    (approvalId : String) (level : Option ApprovalLevel) :
    w.Keeps sha256Hex parseUuid (w.opened id approvalId level).2 ∧
      ((w.opened id approvalId level).1 = .ok () →
        ∃ r, (w.opened id approvalId level).2.rows id = some r ∧
          r.progress.approvalId = some approvalId) := by
  unfold ExecutorWorld.opened
  cases hr : w.rows id with
  | none => exact ⟨h.stay, nofun⟩
  | some r =>
    obtain ⟨⟨e, he⟩, hsame⟩ | ⟨-, hid, -, hadv⟩ := r.opened_cases approvalId level
    · dsimp only
      rw [he, hsame]
      exact ⟨h.setRow hr (.refl r), nofun⟩
    · exact ⟨h.setRow hr hadv, fun _ => ⟨_, by simp, hid⟩⟩

/-- `close` keeps it. -/
theorem ExecutorWorld.Sound.close (h : w.Sound sha256Hex parseUuid) (id : Uuid)
    (finish : OperationEnd) (reason : String) (now : Int) :
    w.Keeps sha256Hex parseUuid (w.close id finish reason now).2 := by
  unfold ExecutorWorld.close
  cases hr : w.rows id with
  | none => exact h.stay
  | some r =>
    dsimp only
    obtain ⟨-, heq⟩ | ⟨-, r', heq, hadv, -⟩ := r.close_cases finish reason now
    · rw [heq]
      exact h.setRow hr (.refl r)
    · rw [heq]
      exact h.setRow hr hadv

/-- **`execute` under a cleared decision keeps it**, and what it answers is what is stored. -/
theorem ExecutorWorld.Sound.execute (grants : Grants) (h : w.Sound sha256Hex parseUuid)
    {id : Uuid} {approvalId : String} (hcleared : w.Cleared sha256Hex id approvalId)
    (facts : ExecutionFacts) (spendable : Except DomainError Nat) (fresh : Uuid) (now : Int) :
    let made := w.execute id (·.carry grants facts spendable fresh) now
    w.Keeps sha256Hex parseUuid made.2 ∧ ∀ r, made.1 = .ok r → made.2.rows id = some r := by
  obtain ⟨r, view, hr, hview, rfl, hpassed, hmatch, happroval⟩ := hcleared
  simp only [ExecutorWorld.execute, hr]
  obtain ⟨-, heq⟩ | ⟨hawaits, ⟨e, -, heq⟩ | ⟨done, r', hcarry, heq, hadv, -, hstate⟩⟩ :=
    r.execute_cases (·.carry grants facts spendable fresh) now
  · rw [heq]
    refine ⟨h.stay, fun s hs => ?_⟩
    cases hs
    exact hr
  · rw [heq]
    refine ⟨h.stay, fun s hs => ?_⟩
    cases hs
  · rw [heq]
    have hkeeps := h.setRow hr hadv
    refine ⟨?_, fun s hs => by cases hs; simp⟩
    by_cases hdone : done.leaves = .executed
    · simp only [hdone, if_true]
      have he := hkeeps.evolves.trans ((w.setRow id r').evolves_logs [.recorded id done])
      have hnow : ((w.setRow id r').logs [.recorded id done]).rows id = some r' := by simp
      refine ⟨he, hkeeps.sound.named, fun id' => ?_, ?_, fun report hreport houtcome => ?_⟩
      · by_cases hid : id' = id
        · subst hid
          have hnone : w.effects id' = [] := by
            rcases h.once id' with hnone | ⟨-, s, -, hs, hexecuted⟩
            · exact hnone
            · rw [hr] at hs
              cases hs
              rw [hawaits] at hexecuted
              cases hexecuted
          refine .inr ⟨done, r', ?_, hnow, hstate.trans hdone⟩
          have heffects : ((w.setRow id' r').logs [.recorded id' done]).effects id' =
              done :: w.effects id' := by
            simp [ExecutorWorld.effects, ExecutorEvent.effect]
          rw [heffects, hnone]
        · have heffects : ((w.setRow id r').logs [.recorded id done]).effects id' =
              (w.setRow id r').effects id' := by
            simp [ExecutorWorld.effects, ExecutorEvent.effect, Ne.symm hid]
          rw [heffects]
          exact hkeeps.sound.once id'
      · intro later id' done' earlier hsplit
        rcases List.cons_eq_append_iff.mp hsplit with ⟨-, hcons⟩ | ⟨later', -, hcons⟩
        · obtain ⟨hevent, hrest⟩ := List.cons.inj hcons
          cases hevent
          have hcarries := RecordedOperation.carry_carriesOut hcarry hdone
          exact ⟨r', view, hnow, (hadv.carriesOut done).mpr hcarries, hrest ▸ hview, hpassed,
            by rwa [hadv.mismatch], hadv.approval _ happroval⟩
        · exact hkeeps.sound.preceded later' id' done' earlier hcons
      · rcases List.mem_cons.mp hreport with hreport | hreport
        · cases hreport
        · exact (hkeeps.sound.backed report hreport houtcome).evolve
            ((w.setRow id r').evolves_logs _)
    · simp only [hdone, if_false]
      exact hkeeps

/-- The operations that need nothing to be known when they are asked. -/
def ExecutorOp.Harmless : ExecutorOp → Prop
  | .execute _ | .report _ => False
  | _ => True

/-- **A harmless operation keeps it.** -/
theorem ExecutorStep.keeps {op : ExecutorOp} {a : op.Ans} (hop : op.Harmless)
    (hs : ExecutorStep grants op w a w') (h : w.Sound sha256Hex parseUuid) :
    w.Keeps sha256Hex parseUuid w' := by
  cases hs with
  | opened hw => rcases hw.world with rfl | rfl; exacts [(h.opened _ _ _).1, h.stay]
  | close now hw => rcases hw.world with rfl | rfl; exacts [h.close _ _ _ _, h.stay]
  | execute | report => exact hop.elim
  | pullApproved views =>
    refine h.logs fun event hevent => ?_
    obtain ⟨view, -, rfl⟩ := List.mem_map.mp hevent
    trivial
  | get approvalId view =>
    refine h.logs fun event hevent => ?_
    cases List.mem_singleton.mp hevent
    trivial
  | ensureCatalog | staleUnopened | staleFailed | dueToPropose | proposeFailed | dueToCheck
  | checkFailed | operationById | readFailed | postpone | propose | withdraw | pullFailed
  | getFailed => exact h.stay

/-! ## What the programs promise -/

/-- The executor's environment: its steps, what the replicas rely on, the invariant. -/
def executorWorld (sha256Hex : String → String) (parseUuid : String → Option Uuid)
    (grants : Grants) : World ExecutorOp ExecutorOp.Ans ExecutorWorld where
  step := ExecutorStep grants
  rely := ExecutorWorld.Evolves parseUuid
  inv := ExecutorWorld.Sound sha256Hex parseUuid

/-- A program that keeps what the replicas rely on and the invariant, from `w` on. -/
abbrev Promises (sha256Hex : String → String) (parseUuid : String → Option Uuid) (grants : Grants)
    {α : Type} (p : ExecutorProg α) (w : ExecutorWorld) : Prop :=
  (executorWorld sha256Hex parseUuid grants).promises p w

/-- A program of harmless operations promises. -/
theorem promises_harmless {α : Type} {p : ExecutorProg α} (hp : p.Within ExecutorOp.Harmless) :
    Promises sha256Hex parseUuid grants p w := by
  refine World.promises_within hp fun op w a w' hop hinv hs => ?_
  have hkeeps := ExecutorStep.keeps hop hs hinv
  exact ⟨hkeeps.evolves, hkeeps.sound⟩

/-- A harmless operation, and what follows on its answer. -/
theorem promises_call {α : Type} {op : ExecutorOp} {k : op.Ans → ExecutorProg α}
    (hop : op.Harmless)
    (hk : ∀ w₁ a w₂, w.Evolves parseUuid w₁ → w₁.Sound sha256Hex parseUuid →
      ExecutorStep grants op w₁ a w₂ → w₁.Evolves parseUuid w₂ →
      Promises sha256Hex parseUuid grants (k a) w₂) :
    Promises sha256Hex parseUuid grants (.call op k) w := by
  refine World.promises_call.mpr fun w₁ hr hi a w₂ hs => ?_
  have hkeeps := ExecutorStep.keeps hop hs hi
  exact ⟨hkeeps.evolves, hkeeps.sound, hk w₁ a w₂ hr hi hs hkeeps.evolves⟩

theorem orExit_within {α : Type} {U : ExecutorOp → Prop} (a : Except DomainError α) :
    (orExit a).Within U := by
  cases a <;> trivial

theorem closeOperation_within (id : Uuid) (finish : OperationEnd) (reason : String) :
    (closeOperation id finish reason).Within ExecutorOp.Harmless :=
  ⟨trivial, fun a => (orExit_within a).bind fun _ => trivial⟩

/-- One answer, then its error ends the step. -/
theorem ask_orExit_within {α β : Type} {a : Except DomainError α} {f : α → ExecutorProg β}
    (hf : ∀ x, (f x).Within ExecutorOp.Harmless) :
    ((orExit a).bind f).Within ExecutorOp.Harmless :=
  (orExit_within a).bind hf

theorem whileNext_within {f : RecordedOperation → ExecutorProg Flow}
    (hf : ∀ r, (f r).Within ExecutorOp.Harmless) (rs : List RecordedOperation) :
    (whileNext f rs).Within ExecutorOp.Harmless := by
  induction rs with
  | nil => trivial
  | cons r rs ih =>
    refine (hf r).outcome.bind fun a => ?_
    rcases a with e | _ | _
    · exact ⟨trivial, fun _ => ih⟩
    · exact ih
    · trivial

theorem proposeOne_within (r : RecordedOperation) :
    (proposeOne r).Within ExecutorOp.Harmless := by
  refine ask_orExit_within fun proposal => ⟨trivial, fun a => ?_⟩
  rcases a with (why | why | why) | view
  · exact (closeOperation_within _ _ _).bind fun _ => trivial
  · exact ⟨trivial, fun _ => ask_orExit_within fun _ => trivial⟩
  · exact ⟨trivial, fun _ => ask_orExit_within fun _ => trivial⟩
  · simp only [Prog.ret_bind]
    split_ifs
    · exact (closeOperation_within _ _ _).bind fun _ => ⟨trivial, fun _ => trivial⟩
    · exact ⟨trivial, fun _ => ask_orExit_within fun _ => trivial⟩

theorem proposeDue_within : proposeDue.Within ExecutorOp.Harmless :=
  ⟨trivial, fun _ => ask_orExit_within fun _ =>
    (Prog.Within.each fun _ _ => closeOperation_within _ _ _).bind fun _ =>
      ⟨trivial, fun _ => ask_orExit_within fun rs => whileNext_within proposeOne_within rs⟩⟩

theorem settleOne_within (r : RecordedOperation) : (settleOne r).Within ExecutorOp.Harmless := by
  unfold settleOne
  cases r.progress.approvalId with
  | none => trivial
  | some approvalId =>
    refine ⟨trivial, fun a => ?_⟩
    rcases a with (why | why | why) | approval
    · exact ⟨trivial, fun _ => ask_orExit_within fun _ => trivial⟩
    · exact ⟨trivial, fun _ => ask_orExit_within fun _ => trivial⟩
    · exact ⟨trivial, fun _ => ask_orExit_within fun _ => trivial⟩
    · simp only [Prog.ret_bind]
      cases approval.state with
      | isOpen | passed | executed | executionFailed =>
        exact ⟨trivial, fun _ => ask_orExit_within fun _ => trivial⟩
      | rejected | vetoed | expired | cancelled | void =>
        exact (closeOperation_within _ _ _).bind fun _ => trivial

theorem settleDecided_within : settleDecided.Within ExecutorOp.Harmless :=
  ⟨trivial, fun _ => ask_orExit_within fun rs => whileNext_within settleOne_within rs⟩

/-- **A report** that is backed, or says executed. -/
theorem reportOutcome_promises {approvalId : String} {outcome : ApprovalOutcome} (detail : String)
    (h : outcome ≠ .executed → w.Backed sha256Hex parseUuid approvalId) :
    Promises sha256Hex parseUuid grants (reportOutcome approvalId outcome detail) w := by
  refine World.promises_call.mpr fun w₁ hr hi a w₂ hs => ?_
  cases hs
  have hkeeps : w₁.Keeps sha256Hex parseUuid
      (w₁.logs [.reported ⟨approvalId, outcome, detail⟩]) := by
    refine ExecutorWorld.Sound.logs hi fun event hevent => ?_
    cases List.mem_singleton.mp hevent
    exact fun houtcome => ((h houtcome).evolve hr).evolve (w₁.evolves_logs _)
  exact ⟨hkeeps.evolves, hkeeps.sound, trivial⟩

/-- **An execution** under a decision cleared for the operation a pull named. -/
theorem executeUnder_promises {view : ApprovalView} {id : Uuid}
    (hpulled : .pulled view ∈ w.log) (href : operationRef parseUuid view.subjectRef = some id)
    (hcleared : w.Cleared sha256Hex id view.id) :
    Promises sha256Hex parseUuid grants (executeUnder id view.id) w := by
  refine World.promises_call.mpr fun w₁ hr hi a w₂ hs => ?_
  cases hs with
  | execute facts spendable fresh now hw =>
    obtain ⟨hkeeps, hrow⟩ := ExecutorWorld.Sound.execute grants hi (hcleared.evolve hr)
      facts spendable fresh now
    have hworld : w₁.Keeps sha256Hex parseUuid w₂ := by
      rcases hw.world with rfl | rfl
      · exact hkeeps
      · exact ExecutorWorld.Sound.stay hi
    refine ⟨hworld.evolves, hworld.sound, ?_⟩
    rcases a with (refusal | limit | why | e) | done
    · trivial
    · trivial
    · trivial
    · trivial
    · have hmade := hw.ok
      have hdone : w₂.rows id = some done := by
        have h := hrow done (by rw [hmade])
        rwa [hmade] at h
      have hback : done.progress.state = .rejected ∨ done.progress.state = .failed →
          w₂.Backed sha256Hex parseUuid view.id := fun hends =>
        ⟨view, id, hworld.evolves.mem (hr.mem hpulled), rfl, href,
          .inr ⟨done, hdone, .inr (hends.elim .inl fun h => .inr (.inl h))⟩⟩
      rw [Prog.ret_bind]
      dsimp only
      cases hstate : done.progress.state with
      | executed => exact reportOutcome_promises _ fun h => absurd rfl h
      | failed => exact reportOutcome_promises _ fun _ => hback (.inr hstate)
      | rejected => exact reportOutcome_promises _ fun _ => hback (.inl hstate)
      | awaitingApproval => trivial

/-- The operation `id` was read as `r`, under the decision `view` that a pull said names it. -/
structure ExecutorWorld.Read (parseUuid : String → Option Uuid) (w : ExecutorWorld)
    (view : ApprovalView) (id : Uuid) (r : RecordedOperation) : Prop where
  pulled : .pulled view ∈ w.log
  names : operationRef parseUuid view.subjectRef = some id
  id_eq : r.operation.id = id
  row : ∃ r', w.rows id = some r' ∧ r.Advances r'

theorem ExecutorWorld.Read.evolve {view : ApprovalView} {id : Uuid} {r : RecordedOperation}
    (h : w.Read parseUuid view id r) (he : w.Evolves parseUuid w') :
    w'.Read parseUuid view id r := by
  obtain ⟨r', hr', hadv⟩ := h.row
  obtain ⟨r'', hr'', hadv'⟩ := he.rows id r' hr'
  exact ⟨he.mem h.pulled, h.names, h.id_eq, r'', hr'', hadv.trans hadv'⟩

/-- What was read ended, or is decided by another approval: the decision does not execute it. -/
theorem ExecutorWorld.Read.backed {view : ApprovalView} {id : Uuid} {r : RecordedOperation}
    (h : w.Read parseUuid view id r)
    (hwhy : (∃ known, r.progress.approvalId = some known ∧ known ≠ view.id) ∨
      r.progress.state = .rejected ∨ r.progress.state = .failed) :
    w.Backed sha256Hex parseUuid view.id := by
  obtain ⟨r', hr', hadv⟩ := h.row
  refine ⟨view, id, h.pulled, rfl, h.names, .inr ⟨r', hr', ?_⟩⟩
  rcases hwhy with ⟨known, hknown, hne⟩ | hrejected | hfailed
  · exact .inl ⟨known, hadv.approval _ hknown, hne⟩
  · exact .inr (.inl ((hadv.decided (by simp [hrejected])).1.trans hrejected))
  · exact .inr (.inr (.inl ((hadv.decided (by simp [hfailed])).1.trans hfailed)))

/-- **A re-read decision**: what does not match ends the operation and is void, which it is backed
for; what matches is opened first, and clears the execution. -/
theorem actOn_promises {view approval : ApprovalView} {id : Uuid} {r : RecordedOperation}
    (hread : w.Read parseUuid view id r) (hanswered : .answered approval ∈ w.log)
    (hown : ¬ r.progress.approvalId.any (· ≠ view.id)) :
    Promises sha256Hex parseUuid grants (actOn sha256Hex view r approval) w := by
  unfold actOn
  by_cases hpassed : approval.state ≠ .passed ∨ approval.id ≠ view.id
  · rw [if_pos hpassed]
    trivial
  rw [if_neg hpassed]
  obtain ⟨hstate, hid⟩ := not_or.mp hpassed
  rw [not_not] at hstate hid
  cases hmatch : r.mismatch sha256Hex approval with
  | some field =>
    -- the operation may already be executed: the report does not ask
    refine World.promises_bind (J := fun w => w.Backed sha256Hex parseUuid approval.id)
      (fun _ _ he hb => hb.evolve he) (promises_harmless (closeOperation_within _ _ _)) ?_
      fun _ w hb => reportOutcome_promises _ fun _ => hb
    obtain ⟨r', hr', hadv⟩ := hread.row
    refine ⟨view, id, hread.pulled, hid.symm, hread.names, .inr ⟨r', hr', ?_⟩⟩
    exact .inr (.inr (.inr ⟨approval, hanswered, rfl, hstate, by
      rw [hadv.mismatch, hmatch]
      simp⟩))
  | none =>
    dsimp only
    rw [hread.id_eq, hid]
    by_cases hopen : r.progress.approvalId = none
    · rw [if_pos hopen]
      refine promises_call trivial fun w₁ a w₂ hr hi hs he => ?_
      cases a with
      | error e => trivial
      | ok u =>
        cases hs with
        | opened hw =>
          have hmade := hw.ok
          obtain ⟨-, hrow⟩ := hi.opened id view.id approval.level
          rw [hmade] at hrow
          obtain ⟨r'', hr'', happroval⟩ := hrow rfl
          have hnow := hread.evolve (hr.trans he)
          obtain ⟨r', hr', hadv⟩ := hnow.row
          rw [hr''] at hr'
          cases hr'
          exact executeUnder_promises hnow.pulled hnow.names ⟨r'', approval, hr'',
            (hr.trans he).mem hanswered, hid, hstate, by rw [hadv.mismatch, hmatch], happroval⟩
    · rw [if_neg hopen]
      obtain ⟨r', hr', hadv⟩ := hread.row
      obtain ⟨known, hknown⟩ := Option.ne_none_iff_exists'.mp hopen
      have hsame : known = view.id := by simpa [hknown] using hown
      exact executeUnder_promises hread.pulled hread.names ⟨r', approval, hr', hanswered, hid,
        hstate, by rw [hadv.mismatch, hmatch], hsame ▸ hadv.approval _ hknown⟩

/-- **A decision on the operation it names.** -/
theorem carryOut_promises {view : ApprovalView} {id : Uuid} {r : RecordedOperation}
    (hread : w.Read parseUuid view id r) :
    Promises sha256Hex parseUuid grants (carryOut sha256Hex view r) w := by
  unfold carryOut
  split_ifs with hother
  · cases hknown : r.progress.approvalId with
    | none => simp [hknown] at hother
    | some known =>
      exact reportOutcome_promises _ fun _ =>
        hread.backed (.inl ⟨known, hknown, by simpa [hknown] using hother⟩)
  · cases hstate : r.progress.state with
    | executed => exact reportOutcome_promises _ fun h => absurd rfl h
    | failed => exact reportOutcome_promises _ fun _ => hread.backed (.inr (.inr hstate))
    | rejected => exact reportOutcome_promises _ fun _ => hread.backed (.inr (.inl hstate))
    | awaitingApproval =>
      refine promises_call trivial fun w₁ a w₂ hr hi hs he => ?_
      cases hs with
      | get approvalId approval =>
        exact actOn_promises (hread.evolve (hr.trans he)) (by simp) hother
      | getFailed => trivial

/-- A decision of a pull. -/
theorem executePulled_promises {view : ApprovalView} (hpulled : .pulled view ∈ w.log) :
    Promises sha256Hex parseUuid grants (executePulled sha256Hex parseUuid view) w := by
  unfold executePulled
  cases OperationKind.parse view.kind with
  | none => trivial
  | some kind =>
    dsimp only
    cases href : operationRef parseUuid view.subjectRef with
    | none => trivial
    | some id =>
      refine promises_call trivial fun w₁ a w₂ hr hi hs he => ?_
      have hpulled := (hr.trans he).mem hpulled
      cases hs with
      | readFailed => trivial
      | operationById =>
        simp only [Prog.ret_bind]
        cases hrow : w₁.rows id with
        | none =>
          exact reportOutcome_promises _ fun _ => ⟨view, id, hpulled, rfl, href, .inl hrow⟩
        | some r =>
          have hread : w₁.Read parseUuid view id r :=
            ⟨hpulled, href, hi.named id r hrow, r, hrow, .refl r⟩
          exact World.promises_bind (J := fun _ => True) (fun _ _ _ _ => trivial)
            (World.promises_outcome (carryOut_promises hread)) trivial fun _ _ _ => trivial

/-- **A round keeps the promises.** -/
theorem executorRound_promises :
    Promises sha256Hex parseUuid grants (executorRound sha256Hex parseUuid) w := by
  have hstable : ∀ w w' : ExecutorWorld, w.Evolves parseUuid w' → True → True :=
    fun _ _ _ _ => trivial
  refine promises_call trivial fun w₁ ready w₂ hr hi hs he => ?_
  simp only [Prog.ret_bind]
  refine World.promises_bind (J := fun _ => True) hstable ?_ trivial fun _ w _ => ?_
  · cases ready
    · trivial
    · exact promises_harmless proposeDue_within
  refine World.promises_bind (J := fun _ => True) hstable ?_ trivial fun _ w _ =>
    promises_harmless settleDecided_within
  refine promises_call trivial fun w₁ a w₂ hr hi hs he => ?_
  rcases a with e | views
  · trivial
  · cases hs
    refine World.promises_each_mem (J := fun w => ∀ view ∈ views, .pulled view ∈ w.log)
      (fun w w' he h view hview => ExecutorWorld.Evolves.mem he (h view hview)) views
      (fun view hview w h => executePulled_promises (h view hview)) fun view hview => ?_
    exact List.mem_append_left _ (List.mem_map_of_mem hview)

/-! ## Every run -/

/-- A client's request keeps what the replicas rely on. -/
theorem ExecutorEnv.keeps (h : ExecutorEnv parseUuid w w') (hs : w.Sound sha256Hex parseUuid) :
    w.Keeps sha256Hex parseUuid w' := by
  cases h with
  | requested r hnew habsent hfresh =>
    have he : w.Evolves parseUuid (w.setRow r.operation.id r) := by
      refine ⟨⟨[], rfl⟩, fun id s hs => ⟨s, ?_, .refl s⟩, fun id view hnone hpulled href => ?_⟩
      · have hid : id ≠ r.operation.id := by
          rintro rfl
          rw [habsent] at hs
          cases hs
        simp [hid, hs]
      · have hid : id ≠ r.operation.id := by
          rintro rfl
          exact hfresh view hpulled href
        simp [hid, hnone]
    refine ⟨he, hs.quiet he (fun id s hrow => ?_) (List.nil_append _).symm (by simp)⟩
    rw [ExecutorWorld.setRow_rows] at hrow
    split_ifs at hrow with hid
    · cases hrow
      exact hid.symm
    · exact hs.named id s hrow

/-- **Every world the replicas reach is sound.** -/
theorem ExecutorRuns.sound {c : Config ExecutorOp ExecutorOp.Ans DomainError Unit ExecutorWorld}
    (h : ExecutorRuns sha256Hex parseUuid grants c) : c.1.Sound sha256Hex parseUuid := by
  refine (Runs.promised (S := executorWorld sha256Hex parseUuid grants)
    (fun w => ExecutorWorld.Evolves.refl w) (fun h h' => ExecutorWorld.Evolves.trans h h') ?_
    (fun _ _ _ _ _ _ hs _ => hs) ?_ h ExecutorWorld.sound_empty (by simp)).2
  · intro w w' ps henv _ hi
    have hkeeps := ExecutorEnv.keeps henv hi
    exact ⟨hkeeps.evolves, hkeeps.sound⟩
  · rintro w p rfl _
    exact executorRound_promises

/-- **Approved operations move money once and only on their own approval.** Wherever the replicas
get: an operation is carried out at most once, by its own lines or its own transfer; before that a
re-read answered that the approval it is decided by had passed, for that very operation under the
hash of its proposal. And of an operation that was executed, its own approval is reported executed
and nothing else, provided every pull that served the approval named that operation and every
re-read that answered it passed was about that operation. -/
theorem approved_operations_move_once {w : ExecutorWorld} {ps : List (ExecutorProg Unit)}
    (h : ExecutorRuns sha256Hex parseUuid grants (w, ps)) :
    (∀ id, (w.effects id).length ≤ 1) ∧
    (∀ later id done earlier, w.log = later ++ .recorded id done :: earlier →
      ∃ r view, w.rows id = some r ∧ done.CarriesOut r ∧ .answered view ∈ earlier ∧
        view.state = .passed ∧ r.Approves sha256Hex view ∧
        r.progress.approvalId = some view.id) ∧
    ∀ id r approvalId, w.rows id = some r → r.progress.state = .executed →
      r.progress.approvalId = some approvalId →
      (∀ view, .pulled view ∈ w.log → view.id = approvalId →
        operationRef parseUuid view.subjectRef = some id) →
      (∀ view, .answered view ∈ w.log → view.id = approvalId → view.state = .passed →
        r.mismatch sha256Hex view = none) →
      ∀ report, .reported report ∈ w.log → report.approvalId = approvalId →
        report.outcome = .executed := by
  have hsound := ExecutorRuns.sound h
  refine ⟨fun id => ?_, fun later id done earlier hlog => ?_, ?_⟩
  · rcases hsound.once id with hnone | ⟨done, r, hone, -⟩
    · simp [hnone]
    · simp [hone]
  · obtain ⟨r, view, hr, hdone, hview, hpassed, hmatch, hid⟩ :=
      hsound.preceded later id done earlier hlog
    exact ⟨r, view, hr, hdone, hview, hpassed, RecordedOperation.approves_of_mismatch _ hmatch, hid⟩
  · intro id r approvalId hr hexecuted happroval hpulls hreads report hreport hid
    by_contra houtcome
    obtain ⟨view, id', hpulled, hview, href, hunfit⟩ := hsound.backed report hreport houtcome
    rw [hid] at hview hunfit
    have hsame : id' = id := Option.some.inj (href.symm.trans (hpulls view hpulled hview))
    rw [hsame] at hunfit
    rcases hunfit with hnone | ⟨r', hr', hwhy⟩
    · rw [hr] at hnone
      cases hnone
    · rw [hr] at hr'
      cases hr'
      rcases hwhy with ⟨known, hknown, hne⟩ | hends | hends | ⟨v, hv, hvid, hpassed, hmiss⟩
      · exact hne (Option.some.inj (hknown.symm.trans happroval))
      · simp [hexecuted] at hends
      · simp [hexecuted] at hends
      · exact hmiss (hreads v hv hvid hpassed)

/-! ## Two replicas at once -/

section Race

variable (sha256Hex : String → String)

/-- Reads the id of the sample. -/
def sampleParse (raw : String) : Option Uuid :=
  if raw = sampleMove.id.text then some sampleMove.id else none

/-- The sample's decision as a second re-read answers it: of another kind. -/
def sampleMoveMisread : ApprovalView :=
  { sampleMoveApproval sha256Hex with kind := "bank:scope_transfer" }

/-- The rest of a round after one decision. -/
def inRound (p : ExecutorProg Unit) : ExecutorProg Unit :=
  ((p.outcome.bind fun _ => .ret ()).bind fun _ => .ret ()).bind fun _ => settleDecided

theorem sampleMove_ref :
    operationRef sampleParse sampleMove.approvalSubjectRef = some sampleMove.id := by
  decide

theorem executePulled_sample :
    executePulled sha256Hex sampleParse (sampleMoveApproval sha256Hex) =
      .call (ExecutorOp.operationById sampleMove.id)
        (executeFound sha256Hex (sampleMoveApproval sha256Hex)) := by
  have hkind : OperationKind.parse (sampleMoveApproval sha256Hex).kind = some .accountTransfer :=
    show OperationKind.parse "bank:account_transfer" = _ by decide
  have href : operationRef sampleParse (sampleMoveApproval sha256Hex).subjectRef =
    some sampleMove.id := sampleMove_ref
  unfold executePulled
  rw [hkind, href]
  rfl

/-- What a replica does on a re-read of the sample's decision. -/
abbrev actOnSample (reread : ApprovalView) : ExecutorProg Unit :=
  actOn sha256Hex (sampleMoveApproval sha256Hex) (sampleMoveRecord sha256Hex) reread

theorem actOnSample_match :
    actOnSample sha256Hex (sampleMoveApproval sha256Hex) =
      (Prog.ask (ExecutorOp.opened sampleMove.id "a1" (some .scope))).bind fun a =>
        (orExit a).bind fun _ => executeUnder sampleMove.id "a1" := by
  have hpassed : ¬ ((sampleMoveApproval sha256Hex).state ≠ .passed ∨
      (sampleMoveApproval sha256Hex).id ≠ (sampleMoveApproval sha256Hex).id) := by
    simp [sampleMoveApproval]
  unfold actOnSample actOn
  rw [if_neg hpassed, sampleMove_mismatch]
  rfl

theorem actOnSample_misread :
    actOnSample sha256Hex (sampleMoveMisread sha256Hex) =
      (closeOperation sampleMove.id .failed "approval_mismatch").bind fun _ =>
        reportOutcome "a1" .void "the decision does not match the requested operation" := by
  have hpassed : ¬ ((sampleMoveMisread sha256Hex).state ≠ .passed ∨
      (sampleMoveMisread sha256Hex).id ≠ (sampleMoveApproval sha256Hex).id) := by
    simp [sampleMoveApproval, sampleMoveMisread]
  have hmiss : (sampleMoveRecord sha256Hex).mismatch sha256Hex (sampleMoveMisread sha256Hex) =
      some "kind" := by
    have hkind : (sampleMoveMisread sha256Hex).kind ≠
        (sampleMoveRecord sha256Hex).operation.kind.asStr :=
      show "bank:scope_transfer" ≠ "bank:account_transfer" by decide
    unfold RecordedOperation.mismatch
    rw [if_pos hkind]
  unfold actOnSample actOn
  rw [if_neg hpassed, hmiss]
  rfl

/-- Replicas at work under the sample's parser. -/
abbrev Race (grants : Grants) :
    Config ExecutorOp ExecutorOp.Ans DomainError Unit ExecutorWorld →
      Config ExecutorOp ExecutorOp.Ans DomainError Unit ExecutorWorld → Prop :=
  Runs (ExecutorStep grants) (ExecutorEnv sampleParse)
    (fun p => p = executorRound sha256Hex sampleParse) (fun _ _ => True)

variable {sha256Hex} {grants : Grants}

/-- One replica's step. -/
theorem Race.step {w w' : ExecutorWorld} (before after : List (ExecutorProg Unit)) {op : ExecutorOp}
    {a : op.Ans} {k : op.Ans → ExecutorProg Unit} (h : ExecutorStep grants op w a w') :
    Race sha256Hex grants (w, before ++ .call op k :: after) (w', before ++ k a :: after) :=
  .single ⟨.call before after h, trivial⟩

/-- A round that gets as far as one decision, whose operation it read. -/
theorem Race.toDecision {w : ExecutorWorld} {r : RecordedOperation}
    (hrow : w.rows sampleMove.id = some r) (before after : List (ExecutorProg Unit)) :
    Race sha256Hex grants (w, before ++ executorRound sha256Hex sampleParse :: after)
      (w.logs [.pulled (sampleMoveApproval sha256Hex)],
        before ++ inRound (carryOut sha256Hex (sampleMoveApproval sha256Hex) r) :: after) := by
  refine (Race.step before after (ExecutorStep.ensureCatalog w false)).trans ?_
  refine (Race.step before after
    (ExecutorStep.pullApproved w [sampleMoveApproval sha256Hex])).trans ?_
  simp only [Prog.ret_bind, Prog.each_cons, executePulled_sample]
  have hread : ExecutorStep grants (ExecutorOp.operationById sampleMove.id)
      (w.logs [.pulled (sampleMoveApproval sha256Hex)]) (.ok (some r))
      (w.logs [.pulled (sampleMoveApproval sha256Hex)]) := hrow ▸ ExecutorStep.operationById _ _
  exact Race.step before after hread

/-- It re-reads the decision. -/
theorem Race.toAct {w : ExecutorWorld} (view : ApprovalView)
    (before after : List (ExecutorProg Unit)) :
    Race sha256Hex grants
      (w, before ++ inRound (carryOut sha256Hex (sampleMoveApproval sha256Hex)
        (sampleMoveRecord sha256Hex)) :: after)
      (w.logs [.answered view], before ++ inRound (actOnSample sha256Hex view) :: after) :=
  Race.step before after (ExecutorStep.get w "a1" view)


/-- The world once the sample is carried out and reported, its approval having just been re-read. -/
def ExecutorWorld.raceExecuted (sha256Hex : String → String) (w : ExecutorWorld) : ExecutorWorld :=
  (((w.setRow sampleMove.id (sampleMoveOpened sha256Hex)).setRow sampleMove.id
    (sampleMoveExecuted sha256Hex (.raw 9) 2)).logs
      [.recorded sampleMove.id (sampleMoveDone (.raw 9))]).logs [.reported ⟨"a1", .executed, ""⟩]

/-- It carries the operation out and reports it. -/
theorem Race.executes {w : ExecutorWorld}
    (hrow : w.rows sampleMove.id = some (sampleMoveRecord sha256Hex))
    (before after : List (ExecutorProg Unit)) :
    Race sha256Hex grants
      (w, before ++ inRound (actOnSample sha256Hex (sampleMoveApproval sha256Hex)) :: after)
      (w.raceExecuted sha256Hex, before ++ inRound (.ret ()) :: after) := by
  rw [actOnSample_match]
  have hopened : ExecutorStep grants (ExecutorOp.opened sampleMove.id "a1" (some .scope)) w (.ok ())
      (w.setRow sampleMove.id (sampleMoveOpened sha256Hex)) := by
    have hmade : w.opened sampleMove.id "a1" (some .scope) =
        (.ok (), w.setRow sampleMove.id (sampleMoveOpened sha256Hex)) := by
      rw [ExecutorWorld.opened, hrow]
      rfl
    refine .opened ?_
    rw [hmade]
    exact .done
  have hexecute : ExecutorStep grants (ExecutorOp.execute sampleMove.id)
      (w.setRow sampleMove.id (sampleMoveOpened sha256Hex))
      (.ok (sampleMoveExecuted sha256Hex (.raw 9) 2))
      (((w.setRow sampleMove.id (sampleMoveOpened sha256Hex)).setRow sampleMove.id
        (sampleMoveExecuted sha256Hex (.raw 9) 2)).logs
          [.recorded sampleMove.id (sampleMoveDone (.raw 9))]) := by
    have hmade : (w.setRow sampleMove.id (sampleMoveOpened sha256Hex)).execute sampleMove.id
        (·.carry grants sampleMoveFacts (.ok 10) (.raw 9)) 2 =
        (.ok (sampleMoveExecuted sha256Hex (.raw 9) 2),
          ((w.setRow sampleMove.id (sampleMoveOpened sha256Hex)).setRow sampleMove.id
            (sampleMoveExecuted sha256Hex (.raw 9) 2)).logs
              [.recorded sampleMove.id (sampleMoveDone (.raw 9))]) := by
      have hdone : (sampleMoveDone (.raw 9)).leaves = .executed := rfl
      simp [ExecutorWorld.execute, sampleMove_execute, hdone]
    refine .execute sampleMoveFacts (.ok 10) (.raw 9) 2 ?_
    rw [hmade]
    exact .done
  refine (Race.step before after hopened).trans ((Race.step before after hexecute).trans ?_)
  exact Race.step before after (ExecutorStep.report _ ⟨"a1", .executed, ""⟩ (.ok ()))

/-- It finds the operation gone from `awaiting_approval`, and reports its decision void all the
same. -/
theorem Race.voids {w : ExecutorWorld} {fresh : Uuid} {now : Int}
    (hrow : w.rows sampleMove.id = some (sampleMoveExecuted sha256Hex fresh now))
    (before after : List (ExecutorProg Unit)) :
    ∃ w', Race sha256Hex grants
      (w, before ++ inRound (actOnSample sha256Hex (sampleMoveMisread sha256Hex)) :: after)
      (w', before ++ inRound (.ret ()) :: after) ∧
      w'.rows sampleMove.id = some (sampleMoveExecuted sha256Hex fresh now) ∧
      .reported ⟨"a1", .void, "the decision does not match the requested operation"⟩ ∈ w'.log := by
  rw [actOnSample_misread]
  have hclose : ExecutorStep grants (ExecutorOp.close sampleMove.id .failed "approval_mismatch") w
      (.ok false) (w.setRow sampleMove.id (sampleMoveExecuted sha256Hex fresh now)) := by
    have hmade : w.close sampleMove.id .failed "approval_mismatch" 3 =
        (.ok false, w.setRow sampleMove.id (sampleMoveExecuted sha256Hex fresh now)) := by
      rw [ExecutorWorld.close, hrow]
      rfl
    refine .close 3 ?_
    rw [hmade]
    exact .done
  refine ⟨_, (Race.step before after hclose).trans (Race.step before after (ExecutorStep.report _
    ⟨"a1", .void, "the decision does not match the requested operation"⟩ (.ok ()))), ?_, ?_⟩
  · simp
  · simp

/-- The world in which one of two replicas has carried the sample out. -/
def raceWorld (sha256Hex : String → String) : ExecutorWorld :=
  ((((ExecutorWorld.empty.setRow sampleMove.id (sampleMoveRecord sha256Hex)).logs
    [.pulled (sampleMoveApproval sha256Hex)]).logs [.pulled (sampleMoveApproval sha256Hex)]).logs
      [.answered (sampleMoveApproval sha256Hex)]).raceExecuted sha256Hex

/-- Two replicas start, both pull the decision and read the operation awaiting it, and one carries
it out. -/
theorem Race.oneExecutes : Race sha256Hex grants (.empty, [])
    (raceWorld sha256Hex, [inRound (.ret ()), inRound (carryOut sha256Hex
      (sampleMoveApproval sha256Hex) (sampleMoveRecord sha256Hex))]) := by
  have hfresh : ∀ view, ExecutorEvent.pulled view ∈ ExecutorWorld.empty.log →
      operationRef sampleParse view.subjectRef ≠
        some (sampleMoveRecord sha256Hex).operation.id := by
    simp [ExecutorWorld.empty]
  refine .head ⟨.env (.requested (sampleMoveRecord sha256Hex) rfl rfl hfresh), trivial⟩ ?_
  refine .head ⟨.start rfl, trivial⟩ (.head ⟨.start rfl, trivial⟩ ?_)
  refine (Race.toDecision (r := sampleMoveRecord sha256Hex) rfl [] [_]).trans ?_
  refine (Race.toDecision (r := sampleMoveRecord sha256Hex) rfl [_] []).trans ?_
  refine (Race.toAct (sampleMoveApproval sha256Hex) [] [_]).trans ?_
  exact Race.executes rfl [] [_]

end Race

/-- **An executed operation is reported void.** Two replicas pull one decision and read the
operation awaiting it; the re-read of one is answered with the operation's own kind, it executes and
reports so; the re-read of the other is answered with another kind, it ends nothing, and reports the
decision void. -/
theorem executed_operation_reported_void :
    ¬ ∀ (sha256Hex : String → String) (parseUuid : String → Option Uuid) (grants : Grants)
      (w : ExecutorWorld) (ps : List (ExecutorProg Unit)),
      ExecutorRuns sha256Hex parseUuid grants (w, ps) →
      ∀ id r approvalId, w.rows id = some r → r.progress.state = .executed →
        r.progress.approvalId = some approvalId →
        ∀ report, .reported report ∈ w.log → report.approvalId = approvalId →
          report.outcome = .executed := by
  intro hall
  obtain ⟨w, hrun, hrow, hreport⟩ := @Race.voids id noGrants
    ((raceWorld id).logs [.answered (sampleMoveMisread id)]) (.raw 9) 2 rfl [inRound (.ret ())] []
  have hrace : Race id noGrants (.empty, []) (w, [inRound (.ret ()), inRound (.ret ())]) :=
    (Race.oneExecutes.trans (Race.toAct (sampleMoveMisread id) [_] [])).trans hrun
  have hvoid :=
    hall id sampleParse noGrants w _ hrace sampleMove.id _ "a1" hrow rfl rfl _ hreport rfl
  cases hvoid


/-- Of the sample, once one replica has carried it out, its approval is reported executed. -/
theorem approved_operations_move_once_sample :
    ((raceWorld id).effects sampleMove.id).length ≤ 1 ∧
      ∀ report, .reported report ∈ (raceWorld id).log → report.approvalId = "a1" →
        report.outcome = .executed := by
  obtain ⟨honce, -, hreported⟩ :=
    @approved_operations_move_once id sampleParse noGrants (raceWorld id) _ Race.oneExecutes
  refine ⟨honce sampleMove.id, hreported sampleMove.id (sampleMoveExecuted id (.raw 9) 2) "a1" rfl
    rfl rfl ?_ ?_⟩
  · intro view hview _
    have hsame : view = sampleMoveApproval id := by
      simpa [raceWorld, ExecutorWorld.raceExecuted, ExecutorWorld.empty] using hview
    exact hsame ▸ sampleMove_ref
  · intro view hview _ _
    have hsame : view = sampleMoveApproval id := by
      simpa [raceWorld, ExecutorWorld.raceExecuted, ExecutorWorld.empty] using hview
    exact hsame ▸ sampleMove_mismatch id

end Banking
