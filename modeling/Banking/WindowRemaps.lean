import Banking.WindowRemap

/-! # What the remap keeps

The world the remap runs in is the ledger with its account map and the scope accounts registered;
cash moves elsewhere during a run, and between two runs it may arrive on the allocations' claims.

`Remapped` is what all of it keeps: a claim's cash landed where it belongs, nothing was taken off a
claim that was not there, and a carve-out after a carve-out was of cash that arrived after it. A
chain keeps it because it is of what the claim holds, so that nothing is left (`Remapped.chain`),
and it lands whole or not at all; a retry of a chain that landed finds the claim empty. -/

namespace Banking

open Interactive

namespace Remap

/-! ## The world -/

/-- The ledger with its account map, and the scope accounts registered: those of the transaction
under way apart. -/
structure State where
  books : Books
  accounts : AccountMap
  rows : List ((ScopeId × ScopeAccountLabel) × String)
  uncommitted : List ((ScopeId × ScopeAccountLabel) × String)

/-- Who a scope account is registered to, as the transaction under way sees it. -/
def State.ownerOf (s : State) (account : ScopeId × ScopeAccountLabel) : Option String :=
  (s.uncommitted ++ s.rows).lookup account

/-- An account registered, unless it is. -/
def State.openRow (s : State) (account : ScopeId × ScopeAccountLabel) (owner : String) : State :=
  if (s.ownerOf account).isSome then s
  else { s with uncommitted := (account, owner) :: s.uncommitted }

/-- A movement that takes nothing off an allocation's claim: cash may arrive there. -/
def Arrival (e : BookEntry) : Prop := ∀ service, e.legs.debit ≠ .serviceClaim service

/-- A movement that leaves the allocations' claims alone. -/
def Apart (e : BookEntry) : Prop :=
  Arrival e ∧ ∀ service, e.legs.credit ≠ .serviceClaim service

/-- What goes on between two operations of a run: accounts are opened and registered, cash moves
elsewhere. -/
structure Elsewhere (s s' : State) : Prop where
  uncommitted : s'.uncommitted = s.uncommitted
  rows : s.rows ⊆ s'.rows
  accounts : s.accounts.Extends s'.accounts
  books : ∃ moved, s'.books.entries = moved ++ s.books.entries ∧ ∀ e ∈ moved, Apart e

/-- What goes on between two runs: cash may arrive on the claims as well, and a transaction under
way is rolled back. -/
structure Between (s s' : State) : Prop where
  uncommitted : s'.uncommitted = []
  rows : s.rows ⊆ s'.rows
  accounts : s.accounts.Extends s'.accounts
  books : ∃ moved, s'.books.entries = moved ++ s.books.entries ∧ ∀ e ∈ moved, Arrival e

/-- A submitted chain: answered as the ledger does, or failed, and then landed or not. -/
def State.Submit (s : State) (transfers : List LedgerTransfer) (a : Except LedgerError Unit)
    (s' : State) : Prop :=
  let run := (LedgerCall.postLinked transfers).run s.books
  s'.rows = s.rows ∧ s'.uncommitted = s.uncommitted ∧ s.accounts.Extends s'.accounts ∧
    (s'.books = run.2 ∧ (a = run.1 ∨ ∃ e, a = .error e) ∨ s'.books = s.books ∧ ∃ e, a = .error e)

variable (products : List String)

/-- What an operation may answer and do. A read answers what there is, or fails; a commit that fails
may have been made. -/
def State.Step : (op : Op) → State → op.Ans → State → Prop
  | .invoke, s, _, s' => Between s s'
  | .readAnchor, s, _, s' => s' = s
  | .requireMaintenance, s, _, s' => s' = s
  | .requireDrained, s, _, s' => s' = s
  | .balancedCash, s, _, s' => s' = s
  | .allocations, s, a, s' => s' = s ∧ ∀ slugs, a = .ok slugs → slugs.Perm products
  | .balance key, s, a, s' => s' = s ∧ ∀ b, a = .ok b → balanceOf key s.books = .ok b
  | .totalDebits key, s, a, s' => s' = s ∧ ∀ debits : Nat, a = .ok debits →
    (debits : Int) = s.books.posted .debit key + s.books.pending .debit key
  | .tbId key, s, a, s' => s' = s ∧ ∀ found, a = .ok found → found = s.accounts.idOf key
  | .scopeState _, s, _, s' => s' = s
  | .treasuryOwner, s, a, s' => s' = s ∧ ∀ owner, a = .ok owner →
    owner = s.ownerOf (.main, .treasury)
  | .begin, s, _, s' => s' = { s with uncommitted := [] }
  | .lockClaim _, s, _, s' => s' = s
  | .openRow scope label owner, s, a, s' =>
    s' = s.openRow (scope, label) owner ∧
        (∀ registered, a = .ok registered → s'.ownerOf (scope, label) = some registered) ∨
      s' = s ∧ ∃ e, a = .error e
  | .ensureAccount _, s, _, s' =>
    s.accounts.Extends s'.accounts ∧ s' = { s with accounts := s'.accounts }
  | .postLinked transfers, s, a, s' => s.Submit transfers a s'
  | .commit, s, a, s' =>
    s' = { s with rows := s.uncommitted ++ s.rows, uncommitted := [] } ∨
      s' = { s with uncommitted := [] } ∧ ∃ e, a = .error e

/-! ## What the ledger gains -/

/-- What some movements debited and credited to an account. -/
def debited (key : LedgerAccountKey) (moved : List BookEntry) : Int :=
  (moved.map (·.postedOn .debit key)).sum

def credited (key : LedgerAccountKey) (moved : List BookEntry) : Int :=
  (moved.map (·.postedOn .credit key)).sum

/-- The treasury's part of the `fee` claim. -/
def CarveOut (e : BookEntry) : Prop :=
  e.legs.debit = .serviceClaim .fee ∧ e.legs.credit = treasuryAccount

instance : DecidablePred CarveOut := fun _ => inferInstanceAs (Decidable (_ ∧ _))

/-- How often the treasury was given its part. -/
def carved (moved : List BookEntry) : Nat := moved.countP (CarveOut ·)

/-- **Where a claim's cash goes**: on its own scope account, or the `fee` claim's part `T` on the
treasury. -/
def Lands (T : Nat) (e : BookEntry) : Prop :=
  ∀ service, e.legs.debit = .serviceClaim service → ∃ t, e = .posted t ∧
    ((∃ dest, destination service = .ok dest ∧ t.credit = .scopeAccount dest.1 dest.2) ∨
      service = .fee ∧ t.credit = treasuryAccount ∧ t.amount = T)

/-- **Carve-outs after a carve-out are of cash that arrived after it**, as what is left on the claim
now is. -/
def Carved (T : Nat) (left : Int) (moved : List BookEntry) : Prop :=
  ∀ later e earlier, moved = later ++ e :: earlier → CarveOut e →
    T * carved later + left ≤ credited (.serviceClaim .fee) later

theorem Carved.mono {T : Nat} {left left' : Int} {moved : List BookEntry} (h : Carved T left moved)
    (hle : left' ≤ left) : Carved T left' moved := fun later e earlier hsplit he => by
  have hold := h later e earlier hsplit he
  omega

/-- What a movement credits is no loss. -/
theorem postedOn_nonneg (e : BookEntry) (side : TwoPhase.Side) (key : LedgerAccountKey) :
    0 ≤ e.postedOn side key := by
  unfold TwoPhase.Entry.postedOn
  split
  · cases e <;> simp [TwoPhase.Entry.postedAmount]
  · exact le_rfl

theorem credited_cons (key : LedgerAccountKey) (e : BookEntry) (moved : List BookEntry) :
    credited key (e :: moved) = e.postedOn .credit key + credited key moved := by
  unfold credited
  rw [List.map_cons, List.sum_cons]

/-- A movement that is no carve-out, which may credit the claim. -/
theorem Carved.quiet {T : Nat} {left left' : Int} {moved : List BookEntry} {e : BookEntry}
    (h : Carved T left moved) (he : ¬ CarveOut e)
    (hleft : left' ≤ left + e.postedOn .credit (.serviceClaim .fee)) :
    Carved T left' (e :: moved) := by
  intro later c earlier hsplit hc
  cases later with
  | nil =>
    obtain ⟨rfl, -⟩ := List.cons.inj hsplit
    exact absurd hc he
  | cons x later =>
    obtain ⟨rfl, hrest⟩ := List.cons.inj hsplit
    have hold := h later c earlier hrest hc
    have hcount : carved (e :: later) = carved later := by
      unfold carved
      rw [List.countP_cons_of_neg (by simpa using he)]
    rw [hcount, credited_cons]
    omega

/-- A carve-out of no more than is left, with nothing left on the claim when its chain is done. -/
theorem Carved.carve {T : Nat} {left : Int} {moved : List BookEntry} {e : BookEntry}
    (h : Carved T left moved) (hleft : T ≤ left) (he : CarveOut e) : Carved T 0 (e :: moved) := by
  intro later c earlier hsplit hc
  cases later with
  | nil => exact le_of_eq (by simp [carved, credited])
  | cons x later =>
    obtain ⟨rfl, hrest⟩ := List.cons.inj hsplit
    have hold := h later c earlier hrest hc
    have hcount : carved (e :: later) = carved later + 1 := by
      unfold carved
      rw [List.countP_cons_of_pos (by simpa using he)]
    have hpos := postedOn_nonneg e .credit (.serviceClaim .fee)
    rw [hcount, credited_cons, Int.natCast_add, Int.natCast_one, Int.mul_add, Int.mul_one]
    omega

/-! ## What any of it keeps -/

/-- **The ledger's invariant**: since `start` a claim's cash landed where it belongs, nothing was
taken off a claim that was not there, and a carve-out after a carve-out was of cash that arrived
after it, of which `left` is not yet moved. -/
structure Remapped (T : Nat) (start : Books) (left : Int) (L : Books) : Prop where
  moved : ∃ moved, L.entries = moved ++ start.entries ∧ (∀ e ∈ moved, Lands T e) ∧
    (∀ service, (∀ e ∈ moved, e.legs.debit ≠ .serviceClaim service) ∨
      0 ≤ L.balance (.serviceClaim service)) ∧
    Carved T left moved

variable {T : Nat} {start : Books}

/-- What a movement adds to a claim. -/
theorem claim_balanceOf (e : BookEntry) (service : ServiceId) :
    e.balanceOf (.serviceClaim service) =
      e.postedOn .credit (.serviceClaim service) - e.postedOn .debit (.serviceClaim service) := rfl

theorem postedOn_of_ne {e : BookEntry} (side : TwoPhase.Side) {key : LedgerAccountKey}
    (h : e.legs.on side ≠ key) : e.postedOn side key = 0 := if_neg h

/-- Cash that arrives keeps it. -/
theorem Remapped.arrival {left : Int} {L : Books} (h : Remapped T start left L) {e : BookEntry}
    (he : Arrival e) :
    Remapped T start (left + e.balanceOf (.serviceClaim .fee)) (L.push e) := by
  obtain ⟨moved, hmoved, hlands, hspent, hcarved⟩ := h.moved
  have hdebit : ∀ service, e.postedOn .debit (.serviceClaim service) = 0 := fun service =>
    postedOn_of_ne .debit (he service)
  refine ⟨e :: moved, by rw [TwoPhase.Ledger.push_entries, hmoved]; rfl, ?_, ?_, ?_⟩
  · intro c hc
    rcases List.mem_cons.mp hc with rfl | hc
    · exact fun service hservice => absurd hservice (he service)
    · exact hlands c hc
  · intro service
    refine (hspent service).imp (fun hnone c hc => ?_) fun hleft => ?_
    · rcases List.mem_cons.mp hc with rfl | hc
      · exact he service
      · exact hnone c hc
    · rw [TwoPhase.Ledger.balance_push, claim_balanceOf, hdebit]
      have hpos := postedOn_nonneg e .credit (.serviceClaim service)
      omega
  · refine hcarved.quiet (fun hc => he .fee hc.1) ?_
    rw [claim_balanceOf, hdebit]
    omega

/-! ## A chain -/

variable (T) in
/-- What a planned step is. -/
structure Step.Sound (step : Step) : Prop where
  source : step.source = .serviceClaim step.service
  dest : Remap.destination step.service = .ok step.destination
  treasury : step.treasury = if step.service = .fee then T else 0
  within : step.treasury ≤ step.posted

/-- What one transfer of a chain takes off a claim. -/
theorem Step.leg_balanceOf {step : Step} (hsource : step.source = .serviceClaim step.service)
    {role : String} {scope : ScopeId} {label : ScopeAccountLabel} {amount : Nat}
    (service : ServiceId) :
    (TwoPhase.Entry.posted (step.leg role (.scopeAccount scope label) amount) : BookEntry).balanceOf
        (.serviceClaim service) = if step.service = service then -(amount : Int) else 0 := by
  rw [claim_balanceOf, postedOn_of_ne .credit (fun he => by cases he), Int.zero_sub]
  unfold TwoPhase.Entry.postedOn
  have hon : (TwoPhase.Entry.posted (step.leg role (.scopeAccount scope label) amount) :
      BookEntry).legs.on .debit = .serviceClaim step.service := hsource
  rw [hon]
  by_cases hservice : step.service = service
  · rw [if_pos hservice, if_pos (congrArg _ hservice)]
    rfl
  · rw [if_neg hservice, if_neg fun he => hservice (LedgerAccountKey.serviceClaim.inj he)]
    rfl

/-- One transfer of a chain, of no more than the claim holds. -/
theorem Remapped.leg {left left' : Int} {L : Books} (h : Remapped T start left L) {step : Step}
    (hsource : step.source = .serviceClaim step.service) {role : String} {scope : ScopeId}
    {label : ScopeAccountLabel} {amount : Nat}
    (hlands : (∃ dest, destination step.service = .ok dest ∧
        LedgerAccountKey.scopeAccount scope label = .scopeAccount dest.1 dest.2) ∨
      step.service = .fee ∧ LedgerAccountKey.scopeAccount scope label = treasuryAccount ∧
        amount = T)
    (hheld : amount ≤ L.balance step.source)
    (hcarved : ∀ moved, Carved T left moved →
      Carved T left' (.posted (step.leg role (.scopeAccount scope label) amount) :: moved)) :
    Remapped T start left'
      (L.push (.posted (step.leg role (.scopeAccount scope label) amount))) := by
  obtain ⟨moved, hmoved, hall, hspent, hold⟩ := h.moved
  refine ⟨_ :: moved, by rw [TwoPhase.Ledger.push_entries, hmoved]; rfl, ?_, ?_, hcarved moved hold⟩
  · intro c hc
    rcases List.mem_cons.mp hc with rfl | hc
    · intro service hservice
      obtain rfl : step.service = service :=
        LedgerAccountKey.serviceClaim.inj (hsource.symm.trans hservice)
      exact ⟨_, rfl, hlands⟩
    · exact hall c hc
  · intro service
    rw [TwoPhase.Ledger.balance_push, Step.leg_balanceOf hsource]
    by_cases hservice : step.service = service
    · right
      rw [if_pos hservice, ← hservice, ← hsource]
      omega
    · rw [if_neg hservice, add_zero]
      refine (hspent service).imp_left fun hnone c hc => ?_
      rcases List.mem_cons.mp hc with rfl | hc
      · exact fun he => hservice (LedgerAccountKey.serviceClaim.inj (hsource.symm.trans he))
      · exact hnone c hc

/-- An allocation's own account is not the treasury. -/
theorem destination_ne_treasury {service : ServiceId} {dest : ScopeId × ScopeAccountLabel}
    (h : destination service = .ok dest) :
    LedgerAccountKey.scopeAccount dest.1 dest.2 ≠ treasuryAccount := by
  unfold destination at h
  split at h
  · obtain rfl := Except.ok.inj h
    intro he
    have hscope : scopeOf service = .main := (LedgerAccountKey.scopeAccount.inj he).1
    unfold scopeOf at hscope
    split at hscope <;> exact absurd hscope (by decide)
  · cases h

theorem Remapped.of_entries {left : Int} {L L' : Books} (h : Remapped T start left L)
    (hentries : L'.entries = L.entries) : Remapped T start left L' := by
  obtain ⟨moved, hmoved, hall, hspent, hcarved⟩ := h.moved
  refine ⟨moved, hentries.trans hmoved, hall, fun service => ?_, hcarved⟩
  rw [balance_of_entries hentries]
  exact hspent service

/-- The allocation's own part moved. -/
theorem Remapped.alloc {left : Int} {L : Books} (h : Remapped T start left L) {step : Step}
    (hsound : step.Sound T) {amount : Nat} (hheld : amount ≤ L.balance step.source) :
    Remapped T start left (L.push (.posted (step.leg "alloc" step.destKey amount))) := by
  refine h.leg hsound.source (.inl ⟨_, hsound.dest, rfl⟩) hheld fun moved hcarved =>
    hcarved.quiet (fun hc => destination_ne_treasury hsound.dest hc.2) ?_
  rw [postedOn_of_ne .credit fun he => by cases he]
  omega

theorem Remapped.mono {left left' : Int} {L : Books} (h : Remapped T start left L)
    (hle : left' ≤ left) : Remapped T start left' L := by
  obtain ⟨moved, hmoved, hall, hspent, hcarved⟩ := h.moved
  exact ⟨moved, hmoved, hall, hspent, hcarved.mono hle⟩

/-- The treasury's part moved, of a claim that holds it. -/
theorem Remapped.treasury {L : Books} (h : Remapped T start (L.balance (.serviceClaim .fee)) L)
    {step : Step} (hsound : step.Sound T) (htreasury : 0 < step.treasury)
    (hposted : L.balance step.source = step.posted) :
    step.service = .fee ∧
      Remapped T start 0
        (L.push (.posted (step.leg "treasury" treasuryAccount step.treasury))) := by
  have hsource := hsound.source
  have hwithin := hsound.within
  have hfee : step.service = .fee ∧ step.treasury = T := by
    have ht := hsound.treasury
    split at ht
    · next hfee => exact ⟨hfee, ht⟩
    · omega
  have hclaim : L.balance (.serviceClaim .fee) = step.posted := by
    rw [← hfee.1, ← hsource, hposted]
  refine ⟨hfee.1, h.leg hsource (.inr ⟨hfee.1, rfl, hfee.2⟩) (by omega) fun moved hcarved =>
    hcarved.carve ?_ ⟨?_, rfl⟩⟩
  · rw [hclaim, ← hfee.2]
    omega
  · rw [← hfee.1]
    exact hsource

/-- **A whole chain** of what the claim holds keeps it: nothing is left on the claim. -/
theorem Remapped.chain {L L' : Books} (h : Remapped T start (L.balance (.serviceClaim .fee)) L)
    {step : Step} (hsound : step.Sound T) (hposted : L.balance step.source = step.posted)
    (hentries : L'.entries = (step.legs.map .posted).reverse ++ L.entries) :
    Remapped T start (L'.balance (.serviceClaim .fee)) L' := by
  have hsource := hsound.source
  have hwithin := hsound.within
  unfold Step.legs at hentries
  by_cases htreasury : 0 < step.treasury
  · obtain ⟨hfee, hcarve⟩ := h.treasury hsound htreasury hposted
    have hafter : (L.push (.posted (step.leg "treasury" treasuryAccount step.treasury))).balance
        (.serviceClaim .fee) = step.posted - step.treasury := by
      have hclaim : L.balance (.serviceClaim .fee) = step.posted := by
        rw [← hfee, ← hsource, hposted]
      rw [TwoPhase.Ledger.balance_push, hclaim, treasuryAccount, Step.leg_balanceOf hsource,
        if_pos hfee]
      rfl
    rw [if_pos htreasury] at hentries
    by_cases hrest : step.treasury < step.posted
    · rw [if_pos hrest] at hentries
      refine ((hcarve.alloc hsound ?_).of_entries hentries).mono (le_of_eq ?_)
      · rw [hsource, hfee, hafter]
        omega
      · rw [balance_of_entries (L := (L.push _).push _) hentries, TwoPhase.Ledger.balance_push,
          hafter, Step.destKey, Step.leg_balanceOf hsource, if_pos hfee]
        omega
    · rw [if_neg hrest, List.append_nil] at hentries
      refine (hcarve.of_entries hentries).mono ?_
      rw [balance_of_entries (L := L.push _) hentries, hafter]
      omega
  · have hzero : step.treasury = 0 := by omega
    rw [if_neg htreasury, List.nil_append, hzero] at hentries
    by_cases hrest : 0 < step.posted
    · rw [if_pos hrest] at hentries
      refine ((h.alloc hsound ?_).of_entries hentries).mono ?_
      · rw [hposted]
        omega
      · rw [balance_of_entries (L := L.push _) hentries, TwoPhase.Ledger.balance_push, Step.destKey,
          Step.leg_balanceOf hsource]
        split <;> omega
    · rw [if_neg hrest] at hentries
      rw [balance_of_entries hentries]
      exact h.of_entries hentries

/-! ## What goes on meanwhile -/

/-- Cash that arrives keeps it. -/
theorem Remapped.arrivals {moved : List BookEntry} {L L' : Books}
    (h : Remapped T start (L.balance (.serviceClaim .fee)) L)
    (hentries : L'.entries = moved ++ L.entries) (hmoved : ∀ e ∈ moved, Arrival e) :
    Remapped T start (L'.balance (.serviceClaim .fee)) L' := by
  induction moved generalizing L' with
  | nil =>
    rw [balance_of_entries hentries]
    exact h.of_entries hentries
  | cons e moved ih =>
    have hrest := @ih ⟨moved ++ L.entries, []⟩ rfl fun c hc => hmoved c (List.mem_cons_of_mem _ hc)
    have hpushed : L'.entries = ((⟨moved ++ L.entries, []⟩ : Books).push e).entries := hentries
    rw [balance_of_entries hpushed, TwoPhase.Ledger.balance_push]
    exact (hrest.arrival (hmoved e List.mem_cons_self)).of_entries hpushed

/-- What leaves a claim alone leaves its balance. -/
theorem balance_apart {moved : List BookEntry} {L L' : Books}
    (hentries : L'.entries = moved ++ L.entries) (hmoved : ∀ e ∈ moved, Apart e)
    (service : ServiceId) :
    L'.balance (.serviceClaim service) = L.balance (.serviceClaim service) := by
  induction moved generalizing L' with
  | nil => exact balance_of_entries hentries _
  | cons e moved ih =>
    have hrest := @ih ⟨moved ++ L.entries, []⟩ rfl fun c hc => hmoved c (List.mem_cons_of_mem _ hc)
    have hpushed : L'.entries = ((⟨moved ++ L.entries, []⟩ : Books).push e).entries := hentries
    obtain ⟨hdebit, hcredit⟩ := hmoved e List.mem_cons_self
    rw [balance_of_entries hpushed, TwoPhase.Ledger.balance_push, hrest, claim_balanceOf,
      postedOn_of_ne .debit (hdebit service), postedOn_of_ne .credit (hcredit service), sub_self,
      add_zero]

namespace Elsewhere

theorem refl (s : State) : Elsewhere s s :=
  ⟨rfl, List.Subset.refl _, .refl _, [], rfl, fun _ he => by cases he⟩

variable {s s₁ s₂ : State}

theorem trans (h : Elsewhere s s₁) (h' : Elsewhere s₁ s₂) : Elsewhere s s₂ := by
  obtain ⟨moved, hmoved, hall⟩ := h.books
  obtain ⟨later, hlater, hall'⟩ := h'.books
  refine ⟨h'.uncommitted.trans h.uncommitted, List.Subset.trans h.rows h'.rows,
    h.accounts.trans h'.accounts, later ++ moved, by rw [hlater, hmoved, List.append_assoc],
    fun e he => ?_⟩
  rcases List.mem_append.mp he with he | he
  · exact hall' e he
  · exact hall e he

theorem claim (h : Elsewhere s s₁) (service : ServiceId) :
    s₁.books.balance (.serviceClaim service) = s.books.balance (.serviceClaim service) := by
  obtain ⟨moved, hmoved, hall⟩ := h.books
  exact balance_apart hmoved hall service

end Elsewhere

variable (T start) in
/-- What holds of the world. -/
def Kept (s : State) : Prop := Remapped T start (s.books.balance (.serviceClaim .fee)) s.books

theorem Elsewhere.kept {s s' : State} (h : Elsewhere s s') (hs : Kept T start s) :
    Kept T start s' := by
  obtain ⟨moved, hmoved, hall⟩ := h.books
  exact hs.arrivals hmoved fun e he => (hall e he).1

theorem Between.kept {s s' : State} (h : Between s s') (hs : Kept T start s) : Kept T start s' := by
  obtain ⟨moved, hmoved, hall⟩ := h.books
  exact hs.arrivals hmoved hall

theorem Kept.of_books {s s' : State} (h : Kept T start s) (hbooks : s'.books = s.books) :
    Kept T start s' := by
  unfold Kept
  rw [hbooks]
  exact h

/-- **A step's chain**, however it is answered. -/
theorem State.Submit.kept {s s' : State} {step : Remap.Step} {a : Except LedgerError Unit}
    (h : s.Submit step.legs a s') (hs : Kept T start s) (hsound : step.Sound T)
    (hposted : s.books.balance step.source = step.posted) : Kept T start s' := by
  obtain ⟨-, -, -, ⟨hbooks, -⟩ | ⟨hbooks, -⟩⟩ := h
  · unfold Kept
    rw [hbooks]
    rcases run_postLinked_whole step.legs s.books with hlanded | hsame
    · exact Remapped.chain hs hsound hposted hlanded
    · rw [balance_of_entries hsame]
      exact Remapped.of_entries hs hsame
  · exact hs.of_books hbooks

end Remap

end Banking
