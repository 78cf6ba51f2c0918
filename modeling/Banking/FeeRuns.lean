import Banking.FeePlane

/-! # What the workers of the fee plane vouch for

Between a worker's reads and its write anything may happen, but time does not go back and promotions
stay committed (`FeePlane.Grows`). So whatever a worker hands to a write was reckoned, by the code's
own rule, on terms that were in force when they were read, and as of a time no later than that
(`FeePlane.Reckoned`). `FeeRules.promises` says so of every worker, for whatever is then to be shown
of the writes. -/

namespace Banking

open Interactive

/-! ## What becomes of a plane -/

/-- Time passes, and promotions are committed after those there are. -/
structure FeePlane.Grows (w w' : FeePlane) : Prop where
  now : w.now ≤ w'.now
  original : w'.original = w.original
  promotions : ∃ later, w'.promotions = w.promotions ++ later ∧ ∀ p ∈ later, w.now ≤ p.committedAt

theorem FeePlane.Grows.refl (w : FeePlane) : w.Grows w :=
  ⟨le_rfl, rfl, [], (List.append_nil _).symm, fun _ hp => nomatch hp⟩

theorem FeePlane.Grows.trans {w w' w'' : FeePlane} (h : w.Grows w') (h' : w'.Grows w'') :
    w.Grows w'' := by
  obtain ⟨hnow, horiginal, later, hlater, hcommitted⟩ := h
  obtain ⟨hnow', horiginal', later', hlater', hcommitted'⟩ := h'
  refine ⟨hnow.trans hnow', horiginal'.trans horiginal, later ++ later', ?_, fun p hp => ?_⟩
  · rw [hlater', hlater, List.append_assoc]
  · rcases List.mem_append.mp hp with hp | hp
    · exact hcommitted p hp
    · exact hnow.trans (hcommitted' p hp)

/-- What leaves the clock and the promotions alone. -/
theorem FeePlane.Grows.of_eq {w w' : FeePlane} (hnow : w'.now = w.now)
    (horiginal : w'.original = w.original) (hpromotions : w'.promotions = w.promotions) :
    w.Grows w' :=
  ⟨hnow.ge, horiginal, [], by rw [hpromotions, List.append_nil], fun _ hp => nomatch hp⟩

/-- Terms that were in force stay on record. -/
theorem FeePlane.Grows.take {w w' : FeePlane} (h : w.Grows w') {generation : Nat}
    (hle : generation ≤ w.promotions.length) :
    w'.promotions.take generation = w.promotions.take generation := by
  obtain ⟨-, -, later, hlater, -⟩ := h
  rw [hlater, List.take_append_of_le_length hle]

theorem FeePlane.Grows.policyAt {w w' : FeePlane} (h : w.Grows w') {generation : Nat}
    (hle : generation ≤ w.promotions.length) : w'.policyAt generation = w.policyAt generation := by
  rw [FeePlane.policyAt, FeePlane.policyAt, h.take hle, h.original]

theorem FeePlane.Grows.length {w w' : FeePlane} (h : w.Grows w') :
    w.promotions.length ≤ w'.promotions.length := by
  obtain ⟨-, -, later, hlater, -⟩ := h
  rw [hlater, List.length_append]
  exact Nat.le_add_right _ _

/-- A time no later than the commits that followed some terms stays so. -/
theorem FeePlane.Grows.drop {w w' : FeePlane} (h : w.Grows w') {generation time : Nat}
    (hle : generation ≤ w.promotions.length) (htime : time ≤ w.now)
    (hdrop : ∀ p ∈ w.promotions.drop generation, time ≤ p.committedAt) :
    ∀ p ∈ w'.promotions.drop generation, time ≤ p.committedAt := by
  obtain ⟨-, -, later, hlater, hcommitted⟩ := h
  rw [hlater, List.drop_append_of_le_length hle]
  intro p hp
  rcases List.mem_append.mp hp with hp | hp
  · exact hdrop p hp
  · exact htime.trans (hcommitted p hp)

/-- **Every operation** lets the plane grow. -/
theorem FeeStep.grows {op : FeeOp} {w w' : FeePlane} {a : op.Ans} (h : FeeStep op w a w') :
    w.Grows w' := by
  cases op with
  | clock | terms | accrual _ | lockPosition _ | due _ => exact h.2 ▸ .refl w
  | dealingNav | holding _ | escrowed _ | latestNav => exact h ▸ .refl w
  | charge a generation expected now =>
    rcases FeePlane.charge_eq h with rfl | ⟨row, -, -, rfl⟩
    · exact .refl _
    · exact .of_eq rfl rfl rfl
  | writePosition user found row bill =>
    rcases FeePlane.writePosition_eq h with rfl | ⟨-, rfl⟩
    · exact .refl _
    · cases bill <;> exact .of_eq rfl rfl rfl
  | insertPosition user row =>
    rcases FeePlane.insertPosition_eq h with rfl | ⟨-, rfl⟩
    · exact .refl _
    · exact .of_eq rfl rfl rfl
  | holders now =>
    rcases h with ⟨-, rfl⟩ | ⟨change, -, -, -, -, rfl⟩
    · exact .refl _
    · exact .of_eq rfl rfl rfl
  | bindTerms change =>
    rcases h with ⟨-, rfl⟩ | ⟨holders, marks, -, -, -, rfl⟩
    · exact .refl _
    · exact ⟨le_rfl, rfl, [{ change, committedAt := w.now }], rfl, fun p hp =>
        List.mem_singleton.mp hp ▸ le_rfl⟩

/-- **Whatever else happens** lets the plane grow. -/
theorem FeeEnv.grows {w w' : FeePlane} (h : FeeEnv w w') : w.Grows w' := by
  cases h with
  | tick now fits h => exact ⟨h, rfl, [], (List.append_nil _).symm, fun _ hp => nomatch hp⟩
  | schedule change h => exact .of_eq rfl rfl rfl
  | cancel h => exact .of_eq rfl rfl rfl
  | rollback => exact .of_eq rfl rfl rfl

/-! ## What a bill was reckoned on -/

/-- A bill's amount is what the management rule makes of its window on some terms, and of a cost
basis that meets `Basis`; a basis that moves with the mark may have been stood in for. -/
def Bill.OnTerms (policy : Option FeePolicy) (Basis : Nat → Prop) (b : Bill) : Prop :=
  ∃ (snapshot : PositionSnapshot) (nav : Nat) (basis : ManagementBasis),
    Basis snapshot.costBasis ∧ snapshot.accruedAt = b.src ∧
      (basis = (policy.getD .NONE).basis ∨ basis = .investedCapital) ∧
      managementDue { policy.getD .NONE with basis } snapshot nav b.dest = .ok b.management

/-- **How a bill is reckoned**: on the terms of its generation, up to a time at which they had not
been replaced. -/
structure FeePlane.Reckoned (w : FeePlane) (Basis : Nat → Prop) (b : Bill) : Prop where
  generation : b.generation ≤ w.promotions.length
  dest : b.dest ≤ w.now
  before : ∀ p ∈ w.promotions.drop b.generation, b.dest ≤ p.committedAt
  due : b.OnTerms (w.policyAt b.generation) Basis

theorem FeePlane.Reckoned.grows {w w' : FeePlane} {Basis : Nat → Prop} {b : Bill}
    (h : w.Reckoned Basis b) (hgrows : w.Grows w') : w'.Reckoned Basis b where
  generation := h.generation.trans hgrows.length
  dest := h.dest.trans hgrows.now
  before := hgrows.drop h.generation h.dest h.before
  due := by
    rw [hgrows.policyAt h.generation]
    exact h.due

/-- What a carry reckons. -/
theorem accruedManagement_onTerms {policy : Option FeePolicy} {latestNav : Option Nat}
    {row : PositionRow} {now management generation : Nat} {Basis : Nat → Prop}
    (hbasis : Basis row.costBasis)
    (h : accruedManagement policy latestNav row now = .ok management) :
    Bill.OnTerms policy Basis { generation, src := row.accruedAt, dest := now, management } := by
  unfold accruedManagement at h
  cases policy with
  | none =>
    cases h
    exact ⟨row.snapshot, UNUSED_PRICE, .investedCapital, hbasis, rfl, .inr rfl, rfl⟩
  | some policy =>
    simp only at h
    split at h
    case isTrue hzero =>
      cases h
      refine ⟨row.snapshot, UNUSED_PRICE, .investedCapital, hbasis, rfl, .inr rfl, ?_⟩
      exact if_pos hzero
    case isFalse =>
      cases hpolicy : policy.basis with
      | investedCapital =>
        rw [hpolicy] at h
        exact ⟨row.snapshot, UNUSED_PRICE, policy.basis, hbasis, rfl, .inl rfl, h⟩
      | marketValue =>
        rw [hpolicy] at h
        cases latestNav with
        | some nav => exact ⟨row.snapshot, nav, policy.basis, hbasis, rfl, .inl rfl, h⟩
        | none => exact ⟨row.snapshot, UNUSED_PRICE, .investedCapital, hbasis, rfl, .inr rfl, h⟩

/-! ## What a worker vouches for -/

/-- What a worker hands to a write is reckoned; the row it writes is billed exactly where the one it
found had units; and a promotion is asked for as of a time that has come. -/
def FeeOp.Vouched (Basis : UserId → Nat → Prop) (w : FeePlane) : FeeOp → Prop
  | .charge a generation expected now =>
    w.Reckoned (Basis a.user)
      { generation, src := expected, dest := now, management := a.charge.management }
  | .writePosition user found row bill =>
    (bill = none → found.units = 0) ∧
      ∀ b ∈ bill, found.units ≠ 0 ∧ b.src = found.accruedAt ∧ b.dest = row.accruedAt ∧
        w.Reckoned (Basis user) b
  | .holders now => now ≤ w.now
  | _ => True

theorem FeeOp.Vouched.grows {Basis : UserId → Nat → Prop} {w w' : FeePlane} {op : FeeOp}
    (h : op.Vouched Basis w) (hgrows : w.Grows w') : op.Vouched Basis w' := by
  cases op with
  | charge a generation expected now => exact FeePlane.Reckoned.grows h hgrows
  | writePosition user found row bill =>
    exact ⟨h.1, fun b hb =>
      let ⟨hunits, hsrc, hdest, hreckoned⟩ := h.2 b hb
      ⟨hunits, hsrc, hdest, hreckoned.grows hgrows⟩⟩
  | holders now => exact le_trans h hgrows.now
  | _ => trivial

/-- What is to be shown of the writes, `Basis` being what holds of a user's cost basis: vouched
operations keep the invariant, and do no more than the workers rely on. -/
structure FeeRules (S : World FeeOp FeeOp.Ans FeePlane) (Basis : UserId → Nat → Prop) : Prop where
  rely : ∀ w w', S.rely w w' → w.Grows w'
  step : ∀ op w a w', S.step op w a w' → FeeStep op w a w'
  basis : ∀ w user row, S.inv w → w.positions user = some row → Basis user row.costBasis
  keeps : ∀ op w a w', op.Vouched Basis w → S.inv w → S.step op w a w' → S.rely w w' ∧ S.inv w'

section Workers

variable {S : World FeeOp FeeOp.Ans FeePlane} {Basis : UserId → Nat → Prop} {α : Type}
  {w : FeePlane}

/-- One vouched operation, and what follows on its answer. -/
theorem FeeRules.call (R : FeeRules S Basis) (op : FeeOp) {g : op.Ans → FeeProg α}
    (hv : op.Vouched Basis w)
    (hg : ∀ w₁ a w₂, w.Grows w₁ → S.inv w₁ → FeeStep op w₁ a w₂ → S.promises (g a) w₂) :
    S.promises ((Prog.ask op).bind g) w := by
  intro w₁ hr hi a w₂ hs
  have hgrows := R.rely _ _ hr
  obtain ⟨hr₂, hi₂⟩ := R.keeps op w₁ a w₂ (hv.grows hgrows) hi hs
  exact ⟨hr₂, hi₂, hg w₁ a w₂ hgrows hi (R.step _ _ _ _ hs)⟩

/-- The same inside a longer program. -/
theorem FeeRules.asked {β : Type} (R : FeeRules S Basis) (op : FeeOp) {g : op.Ans → FeeProg β}
    {f : β → FeeProg α} (hv : op.Vouched Basis w)
    (hk : ∀ w₁ a w₂, w.Grows w₁ → S.inv w₁ → FeeStep op w₁ a w₂ →
      S.promises ((g a).bind f) w₂) : S.promises (((Prog.ask op).bind g).bind f) w := by
  rw [Prog.bind_assoc]
  exact R.call op hv hk

/-- What the reads of an assessment as of `now` have found. -/
def Loaded (Basis : Nat → Prop) (now : Nat) (w : FeePlane) :
    Option (Nat × FeePolicy × PositionSnapshot × Nat) → Prop
  | none => True
  | some (generation, policy, snapshot, _) =>
    generation ≤ w.promotions.length ∧ now ≤ w.now ∧
      (∀ p ∈ w.promotions.drop generation, now ≤ p.committedAt) ∧
      w.policyAt generation = some policy ∧ Basis snapshot.costBasis

/-- **The reads of an assessment.** -/
theorem FeeRules.loadAssessmentInputs (R : FeeRules S Basis) {user : UserId} {now : Nat}
    {f : Option (Nat × FeePolicy × PositionSnapshot × Nat) → FeeProg α} (hnow : now ≤ w.now)
    (hf : ∀ inputs w', Loaded (Basis user) now w' inputs → S.promises (f inputs) w') :
    S.promises ((loadAssessmentInputs user).bind f) w := by
  refine R.asked (.terms) trivial fun w₁ terms w₂ hg₁ _ hs => ?_
  obtain ⟨rfl, rfl⟩ := hs
  dsimp only
  cases hpolicy : w₂.termsRead.policy with
  | none => exact hf none w₂ trivial
  | some policy =>
    dsimp only
    split
    case isTrue => exact hf none w₂ trivial
    case isFalse =>
      refine R.asked (.accrual user) trivial fun w₃ row w₄ hg₂ hinv hs => ?_
      obtain ⟨rfl, rfl⟩ := hs
      cases hrow : w₄.positions user with
      | none => exact hf none w₄ trivial
      | some accrual =>
        have hbasis := R.basis w₄ user accrual hinv hrow
        refine R.asked (.dealingNav) trivial fun w₅ price w₆ hg₃ _ hs => ?_
        obtain rfl := hs
        cases price with
        | error e => trivial
        | ok price =>
          refine R.asked (.holding user) trivial fun w₇ holding w₈ hg₄ _ hs => ?_
          obtain rfl := hs
          refine R.asked (.escrowed user) trivial fun w₉ escrowed w₁₀ hg₅ _ hs => ?_
          obtain rfl := hs
          cases checkedAdd holding.posted escrowed.posted "position units overflow" with
          | error e => trivial
          | ok units =>
            -- what was true of the terms when they were read is true still
            have hgrows := ((hg₂.trans hg₃).trans hg₄).trans hg₅
            refine hf _ w₁₀ ⟨hgrows.length, (hnow.trans hg₁.now).trans hgrows.now, ?_, ?_, hbasis⟩
            · refine hgrows.drop le_rfl (hnow.trans hg₁.now) fun p hp => ?_
              rw [FeePlane.termsRead, List.drop_length] at hp
              exact nomatch hp
            · exact (hgrows.policyAt le_rfl).trans hpolicy

/-- **An assessment** as of a time that has come. -/
theorem FeeRules.assessPosition (R : FeeRules S Basis) {user : UserId} {trigger : Trigger}
    {now : Nat} (hnow : now ≤ w.now) : S.promises (assessPosition user trigger now) w := by
  refine R.loadAssessmentInputs hnow fun inputs w' hloaded => ?_
  rcases inputs with _ | ⟨generation, policy, snapshot, price⟩
  · trivial
  obtain ⟨hgeneration, hnow', hbefore, hpolicy, hbasis⟩ := hloaded
  dsimp only
  cases hcharge : assess policy snapshot price trigger now with
  | error e => trivial
  | ok charge =>
    dsimp only
    split
    case isFalse => trivial
    case isTrue howed =>
      refine R.call (.charge _ generation snapshot.accruedAt now)
        ⟨hgeneration, hnow', hbefore, ?_⟩ fun _ done w₂ _ _ _ => ?_
      · rw [hpolicy]
        exact ⟨snapshot, price, policy.basis, hbasis, rfl, .inl rfl, assess_management hcharge⟩
      · rcases done with e | _ | _ <;> trivial

/-- What a transaction stamped `now` does with the row it locks. -/
theorem FeeRules.carryAndMove (R : FeeRules S Basis) {user : UserId} {m : BasisMove}
    {begun now : Nat} (hnow : now ≤ w.now) : S.promises (carryAndMove user m begun now) w := by
  refine R.call (.lockPosition user) trivial fun w₁ found w₂ hg₁ hinv hs => ?_
  obtain ⟨rfl, rfl⟩ := hs
  cases hrow : w₂.positions user with
  | none =>
    dsimp only
    cases m.onAbsent begun with
    | error e => trivial
    | ok row =>
      cases row with
      | none => trivial
      | some row => exact R.call (.insertPosition user row) trivial fun _ _ _ _ _ _ => trivial
  | some found =>
    have hbasis := R.basis w₂ user found hinv hrow
    refine R.call (.terms) trivial fun w₃ terms w₄ hg₂ _ hs => ?_
    obtain ⟨rfl, rfl⟩ := hs
    refine R.call (.latestNav) trivial fun w₅ latestNav w₆ hg₃ _ hs => ?_
    obtain rfl := hs
    dsimp only
    cases hcarry : carryAccrual w₄.termsRead.policy latestNav found now with
    | error e => trivial
    | ok carried =>
      obtain ⟨carried, accrued⟩ := carried
      obtain ⟨hclock, -, -, hbilled⟩ := carryAccrual_ok hcarry
      dsimp only
      cases hmove : m.onRow carried with
      | error e => trivial
      | ok row =>
        have hstamp : row.accruedAt = now := (BasisMove.onRow_clock hmove).trans hclock
        refine R.call (.writePosition user found row _) ⟨?_, fun b hb => ?_⟩
          fun _ _ _ _ _ _ => trivial
        · rcases hbilled with ⟨hunits, -⟩ | ⟨-, due, rfl, -⟩
          · exact fun _ => hunits
          · exact nofun
        · rcases hbilled with ⟨-, rfl⟩ | ⟨hunits, due, rfl, hdue⟩
          · cases hb
          · obtain rfl := Option.some.inj hb
            have hnow' := (hnow.trans hg₁.now).trans hg₂.now
            refine ⟨hunits, rfl, hstamp.symm, ?_⟩
            refine FeePlane.Reckoned.grows (w := w₄) ⟨le_rfl, hnow', fun p hp => ?_, ?_⟩ hg₃
            · rw [FeePlane.termsRead, List.drop_length] at hp
              exact nomatch hp
            · exact accruedManagement_onTerms hbasis hdue

/-- **Every worker of the fee plane**, wherever it starts, hands to its writes only what it can
vouch for. -/
theorem FeeRules.promises (R : FeeRules S Basis) {p : FeeProg Unit} (hp : IsFeeProg p)
    (w : FeePlane) : S.promises p w := by
  cases hp with
  | assess user trigger =>
    refine World.promises_bind (J := fun _ => True) (fun _ _ _ _ => trivial) ?_ trivial
      fun _ _ _ => trivial
    refine R.call (.clock) trivial fun w₁ now w₂ _ _ hs => ?_
    obtain ⟨rfl, rfl⟩ := hs
    exact R.assessPosition le_rfl
  | sweep =>
    refine R.call (.clock) trivial fun w₁ now w₂ _ _ hs => ?_
    obtain ⟨rfl, rfl⟩ := hs
    refine R.call (.due _) trivial fun w₃ users w₄ hg _ hs => ?_
    obtain ⟨-, rfl⟩ := hs
    -- the time the sweep began stays past
    refine World.promises_each (J := fun w => w₂.now ≤ w.now)
      (fun w w' hr hle => hle.trans (R.rely w w' hr).now) (fun user w hle => ?_) users hg.now
    exact World.promises_bind (J := fun _ => True) (fun _ _ _ _ => trivial)
      (World.promises_outcome (R.assessPosition hle)) trivial fun _ _ _ => trivial
  | project user m =>
    refine R.call (.clock) trivial fun w₁ begun w₂ _ _ hs => ?_
    obtain ⟨-, rfl⟩ := hs
    refine R.call (.clock) trivial fun w₃ now w₄ _ _ hs => ?_
    obtain ⟨rfl, rfl⟩ := hs
    exact R.carryAndMove le_rfl
  | settle user units =>
    refine R.call (.clock) trivial fun w₁ begun w₂ _ _ hs => ?_
    refine R.call (.lockPosition user) trivial fun w₃ _ w₄ _ _ _ => ?_
    refine R.call (.clock) trivial fun w₅ now w₆ _ _ hs => ?_
    obtain ⟨rfl, rfl⟩ := hs
    exact R.carryAndMove le_rfl
  | promote =>
    refine R.call (.clock) trivial fun w₁ now w₂ _ _ hs => ?_
    obtain ⟨rfl, rfl⟩ := hs
    refine R.call (.holders _) le_rfl fun w₃ found w₄ _ _ _ => ?_
    cases found with
    | none => trivial
    | some change =>
      refine R.call (.bindTerms change) trivial fun _ done _ _ _ _ => ?_
      rcases done with e | _ <;> trivial

end Workers

end Banking
