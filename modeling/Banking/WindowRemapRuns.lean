import Banking.Lib.Pool
import Banking.WindowRemaps

/-! # The remap conserves

The command is walked through: a step planned is of what its claim holds, and the claim still holds
it when the chain is submitted, for it is read again under its lock (`upholds_apply`). Of any
sequence of runs with one carve-out, interrupted anywhere, it follows that what left a claim landed
where it belongs and no more than was there, and that a run that reports success leaves every claim
at zero (`remap_conserves`). The carve-out is of a run: a later run with the same options takes it
again of what came in since (`carve_out_repeated`). -/

namespace Banking

open Interactive

namespace Remap

variable {T : Nat} {start : Books}

/-! ## One operation -/

variable {products : List String}

variable (T start products) in
/-- The tool's world. -/
def remapping : World Op Op.Ans State where
  step := State.Step products
  rely := Elsewhere
  inv := Kept T start

variable (T start products) in
/-- What holds where a program of the tool ends; of a refusal nothing is said. -/
abbrev Upholds {α : Type} (Q : α → State → Prop) (p : Command α) (s : State) : Prop :=
  (remapping T start products).wp Q (fun _ _ => True) p s

/-- The operations that post nothing. -/
def Op.Quiet : Op → Prop
  | .invoke | .postLinked _ => False
  | _ => True

theorem State.Step.books {op : Op} (hop : op.Quiet) {s s' : State} {a : op.Ans}
    (h : State.Step products op s a s') : s'.books = s.books := by
  cases op with
  | invoke | postLinked => exact hop.elim
  | readAnchor | requireMaintenance | requireDrained | balancedCash | scopeState | lockClaim =>
    exact congrArg State.books h
  | allocations | balance | totalDebits | tbId | treasuryOwner => exact congrArg State.books h.1
  | begin =>
    rw [show s' = { s with uncommitted := [] } from h]
  | openRow scope label owner =>
    rcases h with ⟨h, -⟩ | ⟨h, -⟩
    · rw [h, State.openRow]
      split <;> rfl
    · rw [h]
  | ensureAccount => rw [h.2]
  | commit =>
    rcases h with h | ⟨h, -⟩ <;> rw [h]

section Programs

variable {α β : Type} {Q : α → State → Prop} {s : State}

/-- One program after another. -/
theorem upholds_then {P : β → State → Prop} {p : Command β} {f : β → Command α}
    (hp : Upholds T start products P p s)
    (hf : ∀ b s, P b s → Upholds T start products Q (f b) s) :
    Upholds T start products Q (p >>= f) s :=
  World.wp_bind.mpr (World.wp_mono hp hf fun _ _ h => h)

/-- One operation that posts nothing. -/
theorem upholds_ask (op : Op) (hop : op.Quiet) {f : op.Ans → Command α}
    (hf : ∀ s₁ a s₂, Elsewhere s s₁ → s₂.books = s₁.books → State.Step products op s₁ a s₂ →
      Upholds T start products Q (f a) s₂) : Upholds T start products Q (ask op >>= f) s := by
  intro s₁ hrely hkept a s₂ hstep
  have hbooks := State.Step.books hop hstep
  exact ⟨hkept.of_books hbooks, hf s₁ a s₂ hrely hbooks hstep⟩

/-- A result used, where its failure refuses. -/
theorem upholds_orExit {δ : Type} {g : δ → Refusal} {x : Except δ β} {f : β → Command α}
    (hf : ∀ b, x = .ok b → Upholds T start products Q (f b) s) :
    Upholds T start products Q (Prog.orExit g x >>= f) s :=
  World.wp_orExit (fun _ _ => trivial) hf

/-- Past a refusal its condition does not hold. -/
theorem upholds_refuse {c : Prop} [Decidable c] {refusal : Refusal} {f : Unit → Command α}
    (hf : ¬ c → Upholds T start products Q (f ()) s) :
    Upholds T start products Q (if c then (.exit refusal) >>= f else f ()) s := by
  split
  · trivial
  · next hc => exact hf hc

/-- A check made only if `c`, with what follows. -/
theorem upholds_when {c : Prop} [Decidable c] {p : Command Unit} {f : Unit → Command α}
    (hp : c → Upholds T start products (fun _ _ => True) p s)
    (hf : ∀ s, Upholds T start products Q (f ()) s) :
    Upholds T start products Q (if c then p >>= f else f ()) s := by
  split
  case isTrue hc => exact upholds_then (hp hc) fun _ s _ => hf s
  case isFalse => exact hf s

/-! ## Planning -/

/-- **A step planned.** -/
theorem upholds_planStep (slug : String) :
    Upholds T start products
      (fun step _ => step.Sound T ∧ ServiceId.parse slug = .ok step.service)
      (planStep ⟨T⟩ slug) s := by
  unfold planStep
  refine upholds_orExit fun service hservice => ?_
  refine upholds_ask (.balance _) trivial fun s₁ a s₂ _ _ _ => upholds_orExit fun claim _ => ?_
  refine upholds_refuse fun _ => ?_
  refine upholds_refuse fun hwithin => ?_
  refine upholds_ask (.totalDebits _) trivial fun s₁ a s₂ _ _ _ => upholds_orExit fun debits _ => ?_
  have hid : ∀ s, Upholds T start products (fun _ _ => True)
      (sourceId (.serviceClaim service) claim.posted) s := by
    intro s
    unfold sourceId
    split
    · refine upholds_ask (.tbId _) trivial fun s₁ a s₂ _ _ _ => upholds_orExit fun found _ => ?_
      cases found <;> trivial
    · trivial
  refine upholds_then (hid _) fun id s _ => upholds_orExit fun dest hdest => ?_
  exact ⟨⟨rfl, hdest, rfl, not_lt.mp hwithin⟩, hservice⟩

/-- **Every step planned.** -/
theorem upholds_planSteps (slugs : List String) :
    Upholds T start products
      (fun steps _ => (∀ step ∈ steps, step.Sound T) ∧
        ∀ slug ∈ slugs, ∃ step ∈ steps, ServiceId.parse slug = .ok step.service)
      (planSteps ⟨T⟩ slugs) s := by
  induction slugs generalizing s with
  | nil => exact ⟨(fun _ h => by cases h), fun _ h => by cases h⟩
  | cons slug slugs ih =>
    rw [planSteps]
    refine upholds_then (upholds_planStep slug) ?_
    rintro step s₁ ⟨hsound, hparse⟩
    refine upholds_then ih ?_
    rintro steps s₂ ⟨hall, hslugs⟩
    refine ⟨fun i hi => ?_, fun other hother => ?_⟩
    · rcases List.mem_cons.mp hi with rfl | hi
      · exact hsound
      · exact hall i hi
    · rcases List.mem_cons.mp hother with rfl | hother
      · exact ⟨step, List.mem_cons_self, hparse⟩
      · obtain ⟨i, hi, hparsed⟩ := hslugs other hother
        exact ⟨i, List.mem_cons_of_mem _ hi, hparsed⟩

/-- **The plan**: a step for every allocation. -/
theorem upholds_plan :
    Upholds T start products
      (fun steps _ => (∀ step ∈ steps, step.Sound T) ∧
        ∀ slug ∈ products, ∃ step ∈ steps, ServiceId.parse slug = .ok step.service)
      (plan ⟨T⟩) s := by
  unfold plan
  refine upholds_ask .allocations trivial fun s₁ a s₂ _ _ hstep =>
    upholds_orExit fun slugs hok => ?_
  have hperm := hstep.2 slugs hok
  refine upholds_then (upholds_planSteps slugs) ?_
  rintro steps s₃ ⟨hall, hslugs⟩
  refine upholds_refuse fun _ => ?_
  exact ⟨hall, fun slug hslug => hslugs slug (hperm.mem_iff.mpr hslug)⟩

/-! ## Moving -/

/-- Reading what is expected moves nothing. -/
theorem upholds_expect (credits : List (LedgerAccountKey × Nat)) :
    ∀ (expected : List (LedgerAccountKey × Nat)) (s : State),
      Upholds T start products (fun _ _ => True) (expect expected credits) s := by
  induction credits with
  | nil => exact fun _ _ => trivial
  | cons credit credits ih =>
    intro expected s
    obtain ⟨key, add⟩ := credit
    rw [expect]
    split
    · exact ih _ s
    · exact upholds_ask (.balance key) trivial fun _ _ s₂ _ _ _ => upholds_orExit fun _ _ => ih _ s₂

/-- **One allocation's cash moved.** -/
theorem upholds_apply {step : Step} (hsound : step.Sound T) :
    Upholds T start products (fun _ _ => True) (apply step) s := by
  unfold apply
  have hscope : Upholds T start products (fun _ _ => True) (checkScope step.destination.1) s := by
    unfold checkScope
    refine upholds_ask (.scopeState _) trivial fun _ _ s _ _ _ => upholds_orExit fun state _ => ?_
    cases state with
    | none => trivial
    | some state => exact upholds_refuse fun _ => trivial
  refine upholds_then hscope fun _ s _ => upholds_when (fun _ => ?_) fun s => ?_
  · unfold checkTreasury
    refine upholds_ask .treasuryOwner trivial fun _ _ s _ _ _ => upholds_orExit fun owner _ => ?_
    split <;> trivial
  refine upholds_ask .begin trivial fun _ _ s _ _ _ => upholds_orExit fun _ _ => ?_
  refine upholds_ask (.lockClaim _) trivial fun _ _ s _ _ _ => upholds_orExit fun _ _ => ?_
  refine upholds_ask (.openRow ..) trivial fun _ _ s _ _ _ => upholds_orExit fun owner _ => ?_
  refine upholds_refuse fun _ => ?_
  refine upholds_ask (.balance _) trivial fun s₁ _ s₂ _ hbooks hstep =>
    upholds_orExit fun claim hclaim => ?_
  refine upholds_refuse fun hsame => ?_
  rw [not_or, not_not] at hsame
  -- The claim still holds what was planned when the chain is submitted.
  have hposted : s₂.books.balance step.source = step.posted := by
    rw [hbooks, balanceOf_ok (hstep.2 claim hclaim), hsame.1]
  have hcommit : ∀ s, Upholds T start products (fun _ _ => True)
      (ask .commit >>= fun a => orFailed a) s := fun s =>
    upholds_ask .commit trivial fun _ a _ _ _ _ => by cases a <;> trivial
  split
  · exact upholds_ask (.ensureAccount _) trivial fun _ _ s _ _ _ =>
      upholds_orExit fun _ _ => hcommit s
  · intro s₃ hrely hkept a s₄ hsubmit
    have hheld : s₃.books.balance step.source = step.posted := by
      rw [hsound.source, hrely.claim, ← hsound.source, hposted]
    exact ⟨State.Submit.kept hsubmit hkept hsound hheld, upholds_orExit fun _ _ => hcommit s₄⟩

/-- **A claim verified** is left with nothing. -/
theorem upholds_verifyClaim {J : State → Prop} (step : Step) (hw : J s)
    (hJ : ∀ s s₁ s₂, Elsewhere s s₁ → s₂.books = s₁.books → J s → J s₂) :
    Upholds T start products (fun _ s' => J s' ∧ s'.books.balance step.source = 0)
      (verifyClaim step) s := by
  unfold verifyClaim
  refine upholds_ask (.balance _) trivial fun s₁ _ s₂ hrely hbooks hstep =>
    upholds_orExit fun claim hclaim => ?_
  split
  · trivial
  next hnone =>
  rw [not_or, not_or, not_not, not_not, not_not] at hnone
  refine ⟨hJ _ _ _ hrely hbooks hw, ?_⟩
  rw [hbooks, balanceOf_ok (hstep.2 claim hclaim), hnone.2.2]
  rfl

variable (products) in
/-- Every allocation's claim is at zero. -/
def Emptied (s : State) : Prop :=
  ∀ slug ∈ products, ∃ service, ServiceId.parse slug = .ok service ∧
    s.books.balance (.serviceClaim service) = 0

theorem Emptied.elsewhere {s s₁ s₂ : State} (h : Elsewhere s s₁) (hbooks : s₂.books = s₁.books)
    (hs : Emptied products s) : Emptied products s₂ := by
  intro slug hslug
  obtain ⟨service, hservice, hzero⟩ := hs slug hslug
  exact ⟨service, hservice, by rw [hbooks, h.claim, hzero]⟩

/-! ## The command -/

/-- **The command**: a run that reports success leaves every claim at zero. -/
theorem upholds_run :
    Upholds T start products (fun outcome s' => outcome = .moved → Emptied products s')
      (run ⟨T⟩) s := by
  unfold run
  intro s₁ _ hkept mode s₂ hbetween
  refine ⟨Between.kept hbetween hkept, ?_⟩
  refine upholds_ask .readAnchor trivial fun _ _ s _ _ _ => upholds_orExit fun before _ => ?_
  refine upholds_ask .requireMaintenance trivial fun _ _ s _ _ _ => upholds_orExit fun _ _ => ?_
  refine upholds_ask .requireDrained trivial fun _ _ s _ _ _ => upholds_orExit fun _ _ => ?_
  refine upholds_ask .balancedCash trivial fun _ _ s _ _ _ => upholds_orExit fun _ _ => ?_
  refine upholds_then upholds_plan ?_
  rintro steps s ⟨hsound, hproducts⟩
  split
  · intro h
    cases h
  refine upholds_then (upholds_expect _ _ _) fun expected s _ => ?_
  refine upholds_then (World.wp_each (J := fun _ _ => True)
    (fun done step rest hsplit s _ => upholds_apply (hsound step (by simp [hsplit]))) trivial) ?_
  intro _ s _
  refine upholds_then (World.wp_each
    (J := fun done s => ∀ step ∈ done, s.books.balance step.source = 0)
    (fun done step rest hsplit s hdone => ?_) fun _ h => by cases h) ?_
  · refine World.wp_mono (upholds_verifyClaim
      (J := fun s => ∀ i ∈ done, s.books.balance i.source = 0) step hdone
      fun s s₁ s₂ he hbooks hs i hi => ?_) ?_ fun _ _ h => h
    · have hsource := (hsound i (by simp [hsplit, hi])).source
      rw [hbooks, hsource, he.claim, ← hsource, hs i hi]
    · rintro _ s ⟨hdone, hzero⟩ i hi
      rcases List.mem_append.mp hi with hi | hi
      · exact hdone i hi
      · exact List.mem_singleton.mp hi ▸ hzero
  intro _ s hzero
  have hemptied : Emptied products s := fun slug hslug => by
    obtain ⟨step, hstep, hparse⟩ := hproducts slug hslug
    exact ⟨step.service, hparse, (hsound step hstep).source ▸ hzero step hstep⟩
  refine upholds_then (World.wp_each (J := fun _ => Emptied products)
    (fun _ account _ _ s hs => ?_) hemptied) ?_
  · unfold verifyDestination
    refine upholds_ask (.balance _) trivial fun _ _ s₂ he hbooks _ => upholds_orExit fun _ _ => ?_
    have hs₂ := hs.elsewhere he hbooks
    split
    · trivial
    · exact hs₂
  intro _ s hs
  refine upholds_ask .balancedCash trivial fun _ _ s₂ he hbooks _ => upholds_orExit fun _ _ => ?_
  have hs₂ := hs.elsewhere he hbooks
  refine upholds_ask .readAnchor trivial fun _ _ s₃ he hbooks _ => upholds_orExit fun after _ => ?_
  have hs₃ := hs₂.elsewhere he hbooks
  split
  · trivial
  · exact fun _ => hs₃

end Programs

/-! ## Every run -/

variable (T start products) in
/-- The runs of the command with one carve-out `T`, one after another, from the ledger `start`. -/
abbrev Moves : State → Option (Command Outcome) → Prop :=
  Reach (State.Step products) Elsewhere (run ⟨T⟩) fun s => s.books = start

variable {s : State} {p : Option (Command Outcome)}

/-- A claim has what it had, what arrived, less what was taken. -/
theorem claim_balance {moved : List BookEntry} {L : Books}
    (hentries : L.entries = moved ++ start.entries) (service : ServiceId) :
    L.balance (.serviceClaim service) = start.balance (.serviceClaim service) +
      credited (.serviceClaim service) moved - debited (.serviceClaim service) moved := by
  have hside : ∀ side, L.posted side (.serviceClaim service) =
      (moved.map (·.postedOn side (.serviceClaim service))).sum +
        start.posted side (.serviceClaim service) := fun side => by
    unfold TwoPhase.Ledger.posted
    rw [hentries, List.map_append, List.sum_append]
  have hnet : ∀ L : Books, L.balance (.serviceClaim service) =
      L.posted .credit (.serviceClaim service) - L.posted .debit (.serviceClaim service) :=
    fun _ => rfl
  rw [hnet, hnet, hside, hside]
  unfold credited debited
  omega

/-- Nothing has moved yet. -/
theorem Kept.initial (h : s.books = start) : Kept T start s := by
  refine ⟨[], ?_, fun _ he => ?_, fun _ => .inl fun _ he => ?_, fun later e earlier hsplit => ?_⟩
  · rw [h]
    rfl
  · cases he
  · cases he
  · cases later <;> cases hsplit

/-- **The remap conserves.** However its runs with one carve-out are interrupted and whatever cash
arrives on the claims between them: what left a claim landed on the allocation's own account or, of
`fee`, the carve-out on the treasury; no more left a claim than was there; a further carve-out was
taken only of cash that arrived after the last; and a run that reports success leaves every claim at
zero. -/
theorem remap_conserves (h : Moves T start products s p) :
    (∃ moved, s.books.entries = moved ++ start.entries ∧ (∀ e ∈ moved, Lands T e) ∧
      (∀ service, debited (.serviceClaim service) moved = 0 ∨
        debited (.serviceClaim service) moved ≤
          start.balance (.serviceClaim service) + credited (.serviceClaim service) moved) ∧
      ∀ later e earlier, moved = later ++ e :: earlier → CarveOut e →
        T * carved later ≤ credited (.serviceClaim .fee) later) ∧
    (p = some (.ret .moved) → Emptied products s) := by
  have hreach := Reach.reaches (S := remapping T start products) Elsewhere.refl
    (fun _ _ _ => Elsewhere.trans)
    (fun _ => Kept.initial)
    (fun _ _ hinv he => ⟨he, Elsewhere.kept he hinv⟩) (fun _ _ => upholds_run) h
  obtain ⟨⟨moved, hmoved, hlands, hspent, hcarved⟩, hposition⟩ := hreach
  refine ⟨⟨moved, hmoved, hlands, fun service => ?_, fun later e earlier hsplit he => ?_⟩,
    fun hp => ?_⟩
  · refine (hspent service).imp (fun hnone => ?_) fun hleft => ?_
    · refine List.sum_eq_zero fun x hx => ?_
      obtain ⟨e, he, rfl⟩ := List.mem_map.mp hx
      exact postedOn_of_ne .debit (hnone e he)
    · rw [claim_balance hmoved] at hleft
      omega
  · have hleft := hcarved later e earlier hsplit he
    have hheld : 0 ≤ s.books.balance (.serviceClaim .fee) := by
      rcases hspent .fee with hnone | hheld
      · exact absurd he.1 (hnone e (hsplit ▸ List.mem_append_right _ List.mem_cons_self))
      · exact hheld
    omega
  · obtain ⟨s₀, hrely, hend⟩ := hposition _ hp
    exact (hend rfl).elsewhere hrely rfl

/-! ## A sample -/

/-- What the world answers a run when nothing fails, `arrived` having come in before it. -/
def Op.served (arrived : List BookEntry) : (op : Op) → State → op.Ans × State
  | .invoke, s =>
    (.apply, { s with uncommitted := [], books := ⟨arrived ++ s.books.entries, s.books.refused⟩ })
  | .readAnchor, s => (.ok ⟨[], 0, 0⟩, s)
  | .requireMaintenance, s | .requireDrained, s | .balancedCash, s | .lockClaim _, s => (.ok (), s)
  | .allocations, s => (.ok ["fee"], s)
  | .balance key, s => (balanceOf key s.books, s)
  | .totalDebits key, s =>
    let debits := s.books.posted .debit key + s.books.pending .debit key
    (if 0 ≤ debits then .ok debits.toNat else .error (.unavailable ""), s)
  | .tbId key, s => (.ok (s.accounts.idOf key), s)
  | .scopeState _, s => (.ok (some "active"), s)
  | .treasuryOwner, s => (.ok (s.ownerOf (.main, .treasury)), s)
  | .begin, s => (.ok (), { s with uncommitted := [] })
  | .openRow scope label owner, s =>
    let opened := s.openRow (scope, label) owner
    (((opened.ownerOf (scope, label)).elim (.error "") .ok), opened)
  | .ensureAccount _, s => (.ok (), s)
  | .postLinked transfers, s =>
    let run := (LedgerCall.postLinked transfers).run s.books
    (run.1, { s with books := run.2 })
  | .commit, s => (.ok (), { s with rows := s.uncommitted ++ s.rows, uncommitted := [] })

/-- So may it. -/
theorem Op.served_step {arrived : List BookEntry} (harrived : ∀ e ∈ arrived, Arrival e) (op : Op)
    (s : State) : State.Step ["fee"] op s (op.served arrived s).1 (op.served arrived s).2 := by
  cases op with
  | invoke => exact ⟨rfl, List.Subset.refl _, .refl _, arrived, rfl, harrived⟩
  | readAnchor | requireMaintenance | requireDrained | balancedCash | lockClaim | scopeState
  | begin => rfl
  | allocations => exact ⟨rfl, fun slugs h => Except.ok.inj h ▸ .refl _⟩
  | balance key => exact ⟨rfl, fun b h => h⟩
  | totalDebits key =>
    refine ⟨rfl, fun debits h => ?_⟩
    simp only [served] at h
    split at h
    · next hpos =>
      rw [← Except.ok.inj h]
      exact Int.toNat_of_nonneg hpos
    · cases h
  | tbId key => exact ⟨rfl, fun found h => (Except.ok.inj h).symm⟩
  | treasuryOwner => exact ⟨rfl, fun owner h => (Except.ok.inj h).symm⟩
  | openRow scope label owner =>
    refine .inl ⟨rfl, fun registered h => ?_⟩
    simp only [served] at h ⊢
    cases howner : (s.openRow (scope, label) owner).ownerOf (scope, label) with
    | none => rw [howner] at h; cases h
    | some found => rw [howner] at h; exact congrArg some (Except.ok.inj h)
  | ensureAccount key => exact ⟨.refl _, rfl⟩
  | postLinked transfers => exact ⟨rfl, rfl, .refl _, .inl ⟨rfl, .inl rfl⟩⟩
  | commit => exact .inl rfl

/-- Cash that comes onto the `fee` claim. -/
def sampleArrival (id : Uuid) (amount : Nat) : BookEntry :=
  .posted ⟨id, .cryptoWallet .bep20, .serviceClaim .fee, amount, ⟨.windowMigration, id⟩⟩

theorem sampleArrival_arrives (id : Uuid) (amount : Nat) : Arrival (sampleArrival id amount) :=
  fun _ h => by cases h

/-- Ten on the `fee` claim, before the first run. -/
def sampleState : State where
  books := ⟨[sampleArrival (.raw 1) 10], []⟩
  accounts := [(.serviceClaim .fee, 1)]
  rows := [((.main, .treasury), "banking")]
  uncommitted := []

/-- A run with a carve-out of five, to its end. -/
def sampleRun (arrived : List BookEntry) (s : State) : Command Outcome × State :=
  (run ⟨5⟩).advance (Op.served arrived) 40 s

/-- The first run's end, and the end of a second one before which seven more came in. -/
def sampleFirst : Command Outcome × State := sampleRun [] sampleState

def sampleSecond : Command Outcome × State :=
  sampleRun [sampleArrival (.raw 2) 7] sampleFirst.2

theorem sampleFirst_reached :
    Moves 5 sampleState.books ["fee"] sampleFirst.2 (some sampleFirst.1) :=
  Reach.advance (Op.served_step fun _ he => by cases he) 40 (.start (.init rfl))

theorem sampleSecond_reached :
    Moves 5 sampleState.books ["fee"] sampleSecond.2 (some sampleSecond.1) := by
  refine Reach.advance (Op.served_step fun e he => ?_) 40 (.start (.stop sampleFirst_reached))
  obtain rfl := List.mem_singleton.mp he
  exact sampleArrival_arrives _ _

/-- **The carve-out is taken again** by a later run with the same options, of what came in since. -/
theorem carve_out_repeated :
    ¬ ∀ (T : Nat) (start : Books) (products : List String) (s : State)
      (p : Option (Command Outcome)), Moves T start products s p →
        ∀ moved, s.books.entries = moved ++ start.entries → carved moved ≤ 1 := by
  intro h
  have htaken : sampleSecond.2.books.entries.take 5 ++ sampleState.books.entries =
      sampleSecond.2.books.entries := by decide +kernel
  have hcarved : carved (sampleSecond.2.books.entries.take 5) = 2 := by decide +kernel
  have hone := h 5 _ _ _ _ sampleSecond_reached _ htaken.symm
  rw [hcarved] at hone
  exact absurd hone (by decide)

/-- Whether a run is at its end, and reports success. -/
def Outcome.reported : Command Outcome → Bool
  | .ret .moved => true
  | _ => false

theorem Outcome.eq_moved {p : Command Outcome} (h : Outcome.reported p = true) :
    p = .ret .moved := by
  cases p with
  | ret outcome =>
    cases outcome with
    | planned => cases h
    | moved => rfl
  | exit refusal => cases h
  | call op k => cases h

/-- The second run reports success, and leaves the claim at zero. -/
theorem remap_conserves_sample :
    sampleSecond.2.books.balance (.serviceClaim .fee) = 0 := by
  have hmoved : sampleSecond.1 = .ret .moved := Outcome.eq_moved (by decide +kernel)
  obtain ⟨service, hparse, hzero⟩ := (remap_conserves sampleSecond_reached).2
    (congrArg some hmoved) "fee" List.mem_cons_self
  have hfee : ServiceId.parse "fee" = .ok .fee := by decide +kernel
  obtain rfl := Except.ok.inj (hfee.symm.trans hparse)
  exact hzero

end Remap

end Banking
