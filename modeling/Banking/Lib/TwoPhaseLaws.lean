import Mathlib.Algebra.BigOperators.Group.Finset.Piecewise
import Mathlib.Algebra.Order.BigOperators.Group.List
import Banking.Lib.TwoPhase

/-! # Laws of two-phase ledgers

What holds of every ledger that was only ever extended by accepted transfers (`Ledger.Sound`): ids
are distinct, a pending transfer is completed at most once and by a transfer on its own accounts, no
account is ever taken below zero (`Sound.room_nonneg`), and on every class of accounts closed under
transfers the debits and the credits balance (`net_sum_eq_zero`). -/

namespace TwoPhase

variable {I A T : Type}

/-! ## What the checks accept -/

section Checks

variable [DecidableEq A]

/-- An accepted completion finds its pending transfer, not completed yet, on its own accounts. -/
theorem Ledger.checkCompletion_created [DecidableEq I] {L : Ledger I A T}
    {r t : Transfer I A T} {voids : Bool}
    (h : L.checkCompletion r t voids = .created) :
    t.debit = r.debit ∧ t.credit = r.credit ∧ (voids = false → t.amount ≤ r.amount) ∧
      (voids = true → t.amount = 0 ∨ t.amount = r.amount) ∧ L.completion r.id = none := by
  unfold Ledger.checkCompletion at h
  split at h
  · cases h
  next hacc =>
  split at h
  · cases h
  next hvoid =>
  split at h
  · cases h
  next hamt =>
  have hnone : L.completion r.id = none := by
    cases hc : L.completion r.id with
    | none => rfl
    | some e =>
      have hcomp := (Ledger.completion_mem hc).2
      rw [hc] at h
      cases e with
      | posted | pending => simp [Entry.completes] at hcomp
      | settled | voided => simp at h
  refine ⟨by tauto, by tauto, ?_, ?_, hnone⟩
  · intro hv
    by_contra hlt
    exact hamt ⟨hv, by omega⟩
  · intro hv
    by_contra hne
    exact hvoid ⟨hv, by tauto⟩

/-- Exactly when a completion on its reservation's own accounts is accepted. -/
theorem Ledger.checkCompletion_eq_created [DecidableEq I] {L : Ledger I A T}
    {r t : Transfer I A T} {voids : Bool}
    (hd : t.debit = r.debit) (hc : t.credit = r.credit) (hs : voids = false → t.amount ≤ r.amount)
    (hv : voids = true → t.amount = 0) (hn : L.completion r.id = none) :
    L.checkCompletion r t voids = .created := by
  cases voids <;> simp_all [Ledger.checkCompletion]

/-- An accepted posted or pending transfer moves a positive amount between two accounts of one
plane, and neither flag forbids it. -/
theorem Ledger.checkTransfer_created [Chart A] {L : Ledger I A T} {t : Transfer I A T}
    (h : L.checkTransfer t = .created) :
    t.debit ≠ t.credit ∧ 0 < t.amount ∧ Chart.plane t.debit = Chart.plane t.credit ∧
      (Chart.normal t.debit = .credit → (t.amount : Int) ≤ L.room t.debit) ∧
      (Chart.normal t.credit = .debit → (t.amount : Int) ≤ L.room t.credit) := by
  unfold Ledger.checkTransfer at h
  split_ifs at h with h₁ h₂ h₃ h₄ h₅
  refine ⟨h₁, Nat.pos_of_ne_zero h₂, not_not.mp h₃, fun hn => ?_, fun hn => ?_⟩
  · exact not_lt.mp fun hlt => h₄ ⟨hn, hlt⟩
  · exact not_lt.mp fun hlt => h₅ ⟨hn, hlt⟩

/-- Exactly when a posted or pending transfer is accepted. -/
theorem Ledger.checkTransfer_eq_created [Chart A] {L : Ledger I A T} {t : Transfer I A T}
    (hne : t.debit ≠ t.credit) (hpos : 0 < t.amount)
    (hplane : Chart.plane t.debit = Chart.plane t.credit)
    (hdebit : Chart.normal t.debit = .credit → (t.amount : Int) ≤ L.room t.debit)
    (hcredit : Chart.normal t.credit = .debit → (t.amount : Int) ≤ L.room t.credit) :
    L.checkTransfer t = .created := by
  unfold Ledger.checkTransfer
  rw [if_neg hne, if_neg (by omega), if_neg (not_not.mpr hplane), if_neg, if_neg]
  · exact fun h => absurd (hcredit h.1) (by omega)
  · exact fun h => absurd (hdebit h.1) (by omega)

end Checks

variable [DecidableEq I] [DecidableEq A]

/-! ## Histories of accepted transfers -/

section Sound

variable [Chart A]

/-- The ledger `L` would accept the entry `e` next: its id is fresh, and it passes the checks of its
kind. -/
def Ledger.Accepts (L : Ledger I A T) (e : Entry I A T) : Prop :=
  L.has e.id = false ∧
    match e with
    | .posted t | .pending t => L.checkTransfer t = .created
    | .settled t p => L.find p.id = some (.pending p) ∧ L.checkCompletion p t false = .created
    | .voided t p => L.find p.id = some (.pending p) ∧ L.checkCompletion p t true = .created

/-- A list of entries, newest first, each of which the ledger before it accepts. -/
inductive History : List (Entry I A T) → Prop
  | nil : History []
  | cons {e : Entry I A T} {es : List (Entry I A T)} :
      Ledger.Accepts ⟨es, []⟩ e → History es → History (e :: es)

/-- **Sound ledgers**: only accepted transfers were ever appended. -/
def Ledger.Sound (L : Ledger I A T) : Prop := History L.entries

theorem Ledger.Sound.empty : (Ledger.empty : Ledger I A T).Sound := History.nil

theorem Ledger.Sound.push {L : Ledger I A T} {e : Entry I A T} (h : L.Sound) (he : L.Accepts e) :
    (L.push e).Sound := History.cons he h

/-- Soundness says nothing about the refused ids. -/
theorem Ledger.Sound.refuse {L : Ledger I A T} (h : L.Sound) (is : List I) :
    Ledger.Sound { L with refused := is } := h

section Create

variable [DecidableEq T]

/-- A chain refused at position `k` was refused there by a status of its own, under that leg's id;
refused at its first leg, by that leg's answer from the ledger itself. -/
theorem Ledger.runLinked_error {rs : List (Request I A T)} {L : Ledger I A T} {k : Nat} {s : Status}
    {i : I} (h : L.runLinked rs = .error (k, s, i)) :
    k < rs.length ∧ ∃ r, rs[k]? = some r ∧ i = r.id ∧ (∃ L' : Ledger I A T, (k = 0 → L' = L) ∧
      L'.check r = s) ∧ s ≠ .created := by
  induction rs generalizing L k with
  | nil => cases h
  | cons r rs ih =>
    unfold Ledger.runLinked at h
    split at h
    · split at h
      · cases h
      · next hrun =>
        cases h
        obtain ⟨hlt, r', hr', hid, ⟨L', -, hL'⟩, hne⟩ := ih hrun
        exact ⟨by simpa using hlt, r', by simpa using hr', hid,
          ⟨L', fun h0 => absurd h0 (Nat.succ_ne_zero _), hL'⟩, hne⟩
    · next hne =>
      cases h
      exact ⟨by simp, r, by simp, rfl, ⟨L, fun _ => rfl, rfl⟩, fun hc => hne hc⟩

/-- A chain whose first transfer is accepted lands with the rest of it. -/
theorem Ledger.runLinked_cons {L L' : Ledger I A T} {r : Request I A T} {rs : List (Request I A T)}
    (hc : L.check r = .created) (hr : (L.push (L.entryOf r)).runLinked rs = .ok L') :
    L.runLinked (r :: rs) = .ok L' := by
  rw [Ledger.runLinked, hc]
  simp only [hr]

/-- A chain that landed had its first transfer accepted, and the rest after it. -/
theorem Ledger.of_runLinked_cons {L L' : Ledger I A T} {r : Request I A T}
    {rs : List (Request I A T)} (h : L.runLinked (r :: rs) = .ok L') :
    L.check r = .created ∧ (L.push (L.entryOf r)).runLinked rs = .ok L' := by
  unfold Ledger.runLinked at h
  split at h
  next hc =>
    split at h
    · next hr =>
      cases h
      exact ⟨hc, hr⟩
    · cases h
  next => cases h

/-- A transfer under a fresh id is checked against the balances. -/
theorem Ledger.check_fresh {L : Ledger I A T} {r : Request I A T} (hhas : L.has r.id = false)
    (href : r.id ∉ L.refused) : L.check r = match r with
      | .post t | .reserve t => L.checkTransfer t
      | .settle p t => L.checkPending p t false
      | .void p t => L.checkPending p t true := by
  unfold Ledger.check
  rw [Ledger.find_none.mpr hhas]
  simp only [href, if_false]
  cases r <;> rfl

/-- An accepted transfer has a fresh id. -/
theorem Ledger.fresh_of_check {L : Ledger I A T} {r : Request I A T} (h : L.check r = .created) :
    L.has r.id = false ∧ r.id ∉ L.refused := by
  unfold Ledger.check at h
  cases hf : L.find r.id with
  | some e =>
    simp only [hf] at h
    split at h <;> cases h
  | none =>
    refine ⟨Ledger.find_none.mp hf, fun hmem => ?_⟩
    simp only [hf, hmem, if_true] at h
    cases h

/-- An accepted completion names a pending transfer on the ledger. -/
theorem Ledger.pending_of_check {L : Ledger I A T} {r : Request I A T} (h : L.check r = .created)
    {p : I} (hp : r.completes = some p) : ∃ q, L.find p = some (.pending q) := by
  have hpend : ∀ {t : Transfer I A T} {v : Bool}, L.checkPending p t v = .created →
      ∃ q, L.find p = some (.pending q) := by
    intro t v hc
    unfold Ledger.checkPending at hc
    split at hc
    · cases hc
    · next q hq => exact ⟨q, hq⟩
    · cases hc
  obtain ⟨hhas, href⟩ := Ledger.fresh_of_check h
  rw [Ledger.check_fresh hhas href] at h
  cases r with
  | post | reserve => cases hp
  | settle | void => cases hp; exact hpend h

/-- A transfer whose id is on the ledger, or was refused, is not created and spends no id. -/
theorem Ledger.check_spent {L : Ledger I A T} {r : Request I A T}
    (h : L.has r.id = true ∨ r.id ∈ L.refused) :
    L.check r ≠ .created ∧ (L.check r).transient = false := by
  unfold Ledger.check
  cases hf : L.find r.id with
  | some e =>
    dsimp only
    split
    · exact ⟨Status.noConfusion, rfl⟩
    · exact ⟨Status.noConfusion, rfl⟩
  | none =>
    have hmem : r.id ∈ L.refused := h.resolve_left (by rw [Ledger.find_none.mp hf]; simp)
    simp only [hmem, if_true]
    exact ⟨Status.noConfusion, rfl⟩

omit [DecidableEq A] [DecidableEq T] [Chart A] in
/-- What a completion completes, read off the ledger. -/
theorem Ledger.entryOf_void {L : Ledger I A T} {p : I} {t q : Transfer I A T}
    (h : L.find p = some (.pending q)) : L.entryOf (.void p t) = .voided t q := by
  simp only [Ledger.entryOf, h, Entry.transfer]

omit [DecidableEq A] [DecidableEq T] [Chart A] in
theorem Ledger.entryOf_settle {L : Ledger I A T} {p : I} {t q : Transfer I A T}
    (h : L.find p = some (.pending q)) : L.entryOf (.settle p t) = .settled t q := by
  simp only [Ledger.entryOf, h, Entry.transfer]

/-- A request answered `created` leaves an entry the ledger accepts. -/
theorem Ledger.accepts_of_check {L : Ledger I A T} {r : Request I A T}
    (h : L.check r = .created) : L.Accepts (L.entryOf r) := by
  unfold Ledger.check at h
  cases hf : L.find r.id with
  | some e => simp only [hf] at h; split at h <;> cases h
  | none =>
    simp only [hf] at h
    split at h
    · cases h
    have hid : L.has r.id = false := Ledger.find_none.mp hf
    have hpend : ∀ {p : I} {t : Transfer I A T} {v : Bool}, L.checkPending p t v = .created →
        ∃ q : Transfer I A T, L.find p = some (.pending q) ∧ L.find q.id = some (.pending q) ∧
          L.checkCompletion q t v = .created := by
      intro p t v hp
      unfold Ledger.checkPending at hp
      split at hp
      · cases hp
      · next q hq =>
        have hqid : q.id = p := (Ledger.find_mem hq).2
        exact ⟨q, hq, hqid ▸ hq, hp⟩
      · cases hp
    cases r with
    | post t => exact ⟨hid, h⟩
    | reserve t => exact ⟨hid, h⟩
    | settle p t =>
      obtain ⟨q, hq, hqq, hc⟩ := hpend h
      simp only [Ledger.entryOf, hq, Entry.transfer]
      exact ⟨hid, hqq, hc⟩
    | void p t =>
      obtain ⟨q, hq, hqq, hc⟩ := hpend h
      simp only [Ledger.entryOf, hq, Entry.transfer]
      exact ⟨hid, hqq, hc⟩

/-- One transfer keeps the ledger sound. -/
theorem Ledger.Sound.create {L : Ledger I A T} (h : L.Sound) (r : Request I A T) :
    (L.create r).2.Sound := by
  unfold Ledger.create
  split
  · next hc => exact h.push (Ledger.accepts_of_check hc)
  · dsimp only
    split
    · exact h.refuse _
    · exact h

/-- **The chain rule.** A property every accepted transfer of a chain preserves is preserved by the
chain. -/
theorem Ledger.runLinked_invariant {P : Ledger I A T → Prop} {rs : List (Request I A T)}
    (hstep : ∀ L : Ledger I A T, ∀ r ∈ rs, P L → L.check r = .created → P (L.push (L.entryOf r)))
    {L L' : Ledger I A T} (h : P L) (hr : L.runLinked rs = .ok L') : P L' := by
  induction rs generalizing L with
  | nil => cases hr; exact h
  | cons r rs ih =>
    unfold Ledger.runLinked at hr
    split at hr
    · next hc =>
      split at hr
      · next hrun =>
        cases hr
        exact ih (fun L' r' hr' => hstep L' r' (List.mem_cons_of_mem _ hr'))
          (hstep L r List.mem_cons_self h hc) hrun
      · cases hr
    · cases hr

/-- A chain that lands keeps the ledger sound. -/
theorem Ledger.Sound.runLinked {rs : List (Request I A T)} {L L' : Ledger I A T} (h : L.Sound)
    (hr : L.runLinked rs = .ok L') : L'.Sound :=
  Ledger.runLinked_invariant (P := Ledger.Sound)
    (fun _ _ _ hs hc => hs.push (Ledger.accepts_of_check hc)) h hr

/-- A linked chain keeps the ledger sound, whether it lands or not. -/
theorem Ledger.Sound.createLinked {L : Ledger I A T} (h : L.Sound) (rs : List (Request I A T)) :
    (L.createLinked rs).2.Sound := by
  unfold Ledger.createLinked
  split
  · next hr => exact h.runLinked hr
  · dsimp only
    split
    · exact h.refuse _
    · exact h

end Create

/-! ## What a sound history looks like -/

/-- Every entry of a sound history was accepted by the entries before it. -/
theorem History.accepted {es : List (Entry I A T)} (h : History es) {e : Entry I A T}
    (he : e ∈ es) : ∃ front back, es = front ++ e :: back ∧ Ledger.Accepts ⟨back, []⟩ e := by
  induction h with
  | nil => cases he
  | @cons e' es' hacc _ ih =>
    cases he with
    | head => exact ⟨[], es', rfl, hacc⟩
    | tail _ hmem =>
      obtain ⟨front, back, rfl, hacc'⟩ := ih hmem
      exact ⟨e' :: front, back, rfl, hacc'⟩

/-- **Ids are distinct** in a sound ledger. -/
theorem Ledger.Sound.eq_of_id {L : Ledger I A T} (h : L.Sound) {e e' : Entry I A T}
    (he : e ∈ L.entries) (he' : e' ∈ L.entries) (hid : e.id = e'.id) : e = e' := by
  obtain ⟨es, is⟩ := L
  replace h : History es := h
  change e ∈ es at he
  change e' ∈ es at he'
  induction h with
  | nil => cases he
  | @cons e₀ es hacc _ ih =>
    have hfresh : ∀ x ∈ es, x.id ≠ e₀.id := by
      intro x hx hxid
      have hhas : (⟨es, []⟩ : Ledger I A T).has e₀.id := Ledger.has_iff.mpr ⟨x, hx, hxid⟩
      rw [hacc.1] at hhas
      cases hhas
    rcases List.mem_cons.mp he with rfl | hm <;> rcases List.mem_cons.mp he' with rfl | hm'
    · rfl
    · exact absurd hid.symm (hfresh _ hm')
    · exact absurd hid (hfresh _ hm)
    · exact ih hm hm'

/-- A sound ledger repeats no entry. -/
theorem Ledger.Sound.nodup {L : Ledger I A T} (h : L.Sound) : L.entries.Nodup := by
  obtain ⟨es, is⟩ := L
  replace h : History es := h
  change es.Nodup
  induction h with
  | nil => exact List.nodup_nil
  | @cons e es hacc _ ih =>
    refine List.nodup_cons.mpr ⟨fun hmem => ?_, ih⟩
    have hhas : (⟨es, []⟩ : Ledger I A T).has e.id := Ledger.has_iff.mpr ⟨e, hmem, rfl⟩
    rw [hacc.1] at hhas
    cases hhas

/-- In a sound ledger a member is what its id finds. -/
theorem Ledger.Sound.find_eq {L : Ledger I A T} (h : L.Sound) {e : Entry I A T}
    (he : e ∈ L.entries) : L.find e.id = some e := by
  cases hf : L.find e.id with
  | none =>
    have hhas : L.has e.id := Ledger.has_iff.mpr ⟨e, he, rfl⟩
    rw [Ledger.find_none.mp hf] at hhas
    cases hhas
  | some e' =>
    obtain ⟨hmem, hid⟩ := Ledger.find_mem hf
    rw [h.eq_of_id hmem he hid]

/-- The room an accepted entry leaves. -/
theorem Ledger.Accepts.room_nonneg {L : Ledger I A T} {e : Entry I A T} (hacc : L.Accepts e)
    {a : A} (h : 0 ≤ L.room a) : 0 ≤ (L.push e).room a := by
  rw [Ledger.room_push]
  cases e with
  | posted t | pending t =>
    obtain ⟨-, hc⟩ := hacc
    obtain ⟨hne, -, -, hd, hcr⟩ := Ledger.checkTransfer_created hc
    unfold Entry.roomOf Entry.balanceOf Entry.postedOn Entry.pendingOn
    cases hn : Chart.normal a <;>
      simp only [Side.flip_debit, Side.flip_credit, Entry.legs, Entry.postedAmount,
        Entry.pendingAmount, Transfer.on_debit, Transfer.on_credit]
    · by_cases h₁ : t.credit = a <;> by_cases h₂ : t.debit = a <;> simp only [h₁, h₂, if_true,
        if_false] <;> try omega
      all_goals
        subst h₁
        have := hcr hn
        omega
    · by_cases h₁ : t.credit = a <;> by_cases h₂ : t.debit = a <;> simp only [h₁, h₂, if_true,
        if_false] <;> try omega
      all_goals
        subst h₂
        have := hd hn
        omega
  | settled t p | voided t p =>
    obtain ⟨-, -, hc⟩ := hacc
    obtain ⟨-, -, hs, hv, -⟩ := Ledger.checkCompletion_created hc
    unfold Entry.roomOf Entry.balanceOf Entry.postedOn Entry.pendingOn
    cases hn : Chart.normal a <;>
      simp only [Side.flip_debit, Side.flip_credit, Entry.legs, Entry.postedAmount,
        Entry.pendingAmount, Transfer.on_debit, Transfer.on_credit] <;>
      simp only [forall_const, reduceCtorEq, IsEmpty.forall_iff] at hs hv <;>
      by_cases h₁ : p.credit = a <;> by_cases h₂ : p.debit = a <;>
      simp only [h₁, h₂, if_true, if_false] <;> omega

/-- **No account is overdrawn** in a sound ledger: what its flag protects never goes below zero. -/
theorem Ledger.Sound.room_nonneg {L : Ledger I A T} (h : L.Sound) (a : A) : 0 ≤ L.room a := by
  obtain ⟨es, is⟩ := L
  replace h : History es := h
  change 0 ≤ Ledger.room ⟨es, []⟩ a
  induction h with
  | nil => simp [Ledger.room, Ledger.balance, Ledger.posted, Ledger.pending]
  | cons hacc _ ih => exact hacc.room_nonneg ih

/-- In a sound ledger whatever was completed is on the ledger. -/
theorem Ledger.Sound.has_of_completion {L : Ledger I A T} (h : L.Sound) {i : I} {e : Entry I A T}
    (he : L.completion i = some e) : L.has i = true := by
  obtain ⟨hmem, hcomp⟩ := Ledger.completion_mem he
  obtain ⟨front, back, hes, hacc⟩ := History.accepted h hmem
  have hfind : ∃ p : Transfer I A T, p.id = i ∧ (⟨back, []⟩ : Ledger I A T).find p.id =
      some (.pending p) := by
    cases e with
    | posted t | pending t => cases hcomp
    | settled t p | voided t p => exact ⟨p, by simpa [Entry.completes] using hcomp, hacc.2.1⟩
  obtain ⟨p, rfl, hfind⟩ := hfind
  refine Ledger.has_iff.mpr ⟨.pending p, ?_, rfl⟩
  rw [hes]
  exact List.mem_append_right _ (List.mem_cons_of_mem _ (Ledger.find_mem hfind).1)

/-! ## Standing reservations -/

/-- The pending transfers no completion has taken back, newest first. -/
def Ledger.standing (L : Ledger I A T) : List (Transfer I A T) :=
  L.entries.filterMap fun
    | .pending t => if (L.completion t.id).isNone then some t else none
    | _ => none

omit [DecidableEq A] [Chart A] in
theorem Ledger.mem_standing {L : Ledger I A T} {t : Transfer I A T} :
    t ∈ L.standing ↔ .pending t ∈ L.entries ∧ L.completion t.id = none := by
  unfold Ledger.standing
  rw [List.mem_filterMap]
  constructor
  · rintro ⟨e, he, hsome⟩
    cases e with
    | pending t' =>
      simp only [Option.ite_none_right_eq_some, Option.some.injEq, Option.isNone_iff_eq_none]
        at hsome
      obtain ⟨hc, rfl⟩ := hsome
      exact ⟨he, hc⟩
    | posted | settled | voided => cases hsome
  · rintro ⟨he, hc⟩
    exact ⟨_, he, by simp [hc]⟩

omit [DecidableEq A] [Chart A] in
theorem Ledger.standing_push_posted (L : Ledger I A T) (t : Transfer I A T) :
    (L.push (.posted t)).standing = L.standing := by
  unfold Ledger.standing
  rw [Ledger.push_entries, List.filterMap_cons]
  simp only [Ledger.completion_push, Entry.completes, reduceCtorEq, if_false]

/-- A new reservation stands. -/
theorem Ledger.Sound.standing_push_pending {L : Ledger I A T} (h : L.Sound) {t : Transfer I A T}
    (hfresh : L.has t.id = false) : (L.push (.pending t)).standing = t :: L.standing := by
  have hnone : L.completion t.id = none := by
    cases hc : L.completion t.id with
    | none => rfl
    | some e =>
      rw [h.has_of_completion hc] at hfresh
      cases hfresh
  unfold Ledger.standing
  rw [Ledger.push_entries, List.filterMap_cons]
  simp only [Ledger.completion_push, Entry.completes, reduceCtorEq, if_false, hnone,
    Option.isNone_none, if_true]

omit [DecidableEq A] [Chart A] in
/-- A completion takes exactly the reservation it names off the standing ones. -/
theorem Ledger.standing_push_completion (L : Ledger I A T) {e : Entry I A T} {i : I}
    (he : e.completes = some i) : (L.push e).standing = L.standing.filter (·.id ≠ i) := by
  unfold Ledger.standing
  rw [Ledger.push_entries, List.filterMap_cons, List.filter_filterMap]
  have hhead : ∀ f : Transfer I A T → Option (Transfer I A T), (match e with
      | .pending t => f t
      | _ => none) = none := by
    intro f
    cases e <;> first | rfl | cases he
  rw [hhead]
  refine List.filterMap_congr fun e' _ => ?_
  cases e' with
  | pending t =>
    simp only [Ledger.completion_push, he, Option.some.injEq]
    by_cases hid : t.id = i
    · subst hid
      by_cases hc : (L.completion t.id).isNone <;> simp [hc, Option.filter]
    · rw [if_neg (Ne.symm hid)]
      by_cases hc : (L.completion t.id).isNone <;> simp [hc, hid, Option.filter]
  | posted | settled | voided => rfl

/-- Standing reservations are distinct. -/
theorem Ledger.Sound.standing_nodup {L : Ledger I A T} (h : L.Sound) :
    (L.standing.map (·.id)).Nodup := by
  obtain ⟨es, is⟩ := L
  replace h : History es := h
  change ((⟨es, []⟩ : Ledger I A T).standing.map (·.id)).Nodup
  induction h with
  | nil => exact List.nodup_nil
  | @cons e es hacc hes ih =>
    change ((Ledger.push ⟨es, []⟩ e).standing.map (·.id)).Nodup
    have hsound : Ledger.Sound (⟨es, []⟩ : Ledger I A T) := hes
    cases e with
    | posted t => rwa [Ledger.standing_push_posted]
    | pending t =>
      have hfresh : (⟨es, []⟩ : Ledger I A T).has t.id = false := hacc.1
      rw [hsound.standing_push_pending hfresh, List.map_cons, List.nodup_cons]
      refine ⟨fun hmem => ?_, ih⟩
      obtain ⟨t', ht', hid⟩ := List.mem_map.mp hmem
      have hhas : (⟨es, []⟩ : Ledger I A T).has t.id :=
        Ledger.has_iff.mpr ⟨_, (Ledger.mem_standing.mp ht').1, hid⟩
      rw [hfresh] at hhas
      cases hhas
    | settled t p =>
      rw [Ledger.standing_push_completion _ rfl]
      exact ih.sublist (List.filter_sublist.map _)
    | voided t p =>
      rw [Ledger.standing_push_completion _ rfl]
      exact ih.sublist (List.filter_sublist.map _)

omit [DecidableEq A] [Chart A] in
/-- Taking one transfer off a list without repetitions takes its share off every sum over it. -/
theorem sum_filter_id_ne {l : List (Transfer I A T)} {p : Transfer I A T}
    (hl : (l.map (·.id)).Nodup) (hp : p ∈ l) (f : Transfer I A T → Int) :
    ((l.filter (·.id ≠ p.id)).map f).sum = (l.map f).sum - f p := by
  induction l with
  | nil => cases hp
  | cons t l ih =>
    rw [List.map_cons, List.nodup_cons] at hl
    by_cases hid : t.id = p.id
    · have hrest : l.filter (·.id ≠ p.id) = l := by
        refine List.filter_eq_self.mpr fun x hx => ?_
        have hne : x.id ≠ p.id := fun he => hl.1 (List.mem_map.mpr ⟨x, hx, he.trans hid.symm⟩)
        simpa using hne
      obtain rfl : p = t := by
        rcases List.mem_cons.mp hp with rfl | hmem
        · rfl
        · exact absurd (List.mem_map.mpr ⟨p, hmem, hid.symm⟩) hl.1
      rw [List.filter_cons_of_neg (by simp), hrest, List.map_cons, List.sum_cons]
      omega
    · have hmem : p ∈ l := (List.mem_cons.mp hp).resolve_left fun h => hid (h ▸ rfl)
      rw [List.filter_cons_of_pos (by simpa using hid), List.map_cons, List.sum_cons,
        ih hl.2 hmem, List.map_cons, List.sum_cons]
      omega

/-- The pending total of an account is what stands against it. -/
theorem Ledger.Sound.pending_eq_standing {L : Ledger I A T} (h : L.Sound) (s : Side) (a : A) :
    L.pending s a = (L.standing.map fun t => if t.on s = a then (t.amount : Int) else 0).sum := by
  obtain ⟨es, is⟩ := L
  replace h : History es := h
  change (⟨es, []⟩ : Ledger I A T).pending s a = _
  change _ = (((⟨es, []⟩ : Ledger I A T).standing).map _).sum
  induction h with
  | nil => rfl
  | @cons e es hacc hes ih =>
    have hsound : Ledger.Sound (⟨es, []⟩ : Ledger I A T) := hes
    change (Ledger.push ⟨es, []⟩ e).pending s a = ((Ledger.push ⟨es, []⟩ e).standing.map _).sum
    rw [Ledger.pending_push, ih]
    have hcompleted : ∀ p : Transfer I A T, (⟨es, []⟩ : Ledger I A T).find p.id =
        some (.pending p) → (⟨es, []⟩ : Ledger I A T).completion p.id = none →
        p ∈ (⟨es, []⟩ : Ledger I A T).standing := fun p hp hc =>
      Ledger.mem_standing.mpr ⟨(Ledger.find_mem hp).1, hc⟩
    cases e with
    | posted t => rw [Ledger.standing_push_posted]; simp [Entry.pendingOn, Entry.pendingAmount]
    | pending t =>
      have hfresh : (⟨es, []⟩ : Ledger I A T).has t.id = false := hacc.1
      have hval : (Entry.pending t).pendingOn s a = if t.on s = a then (t.amount : Int) else 0 :=
        rfl
      rw [hsound.standing_push_pending hfresh, List.map_cons, List.sum_cons, hval, add_comm]
    | settled t p | voided t p =>
      obtain ⟨-, hfind, hc⟩ := hacc
      obtain ⟨-, -, -, -, hnone⟩ := Ledger.checkCompletion_created hc
      have hval : (if p.on s = a then -(p.amount : Int) else 0) =
          -(if p.on s = a then (p.amount : Int) else 0) := by
        split_ifs <;> omega
      rw [Ledger.standing_push_completion _ rfl,
        sum_filter_id_ne hsound.standing_nodup (hcompleted p hfind hnone), sub_eq_add_neg, ← hval]
      rfl

/-- Pending totals are never negative. -/
theorem Ledger.Sound.pending_nonneg {L : Ledger I A T} (h : L.Sound) (s : Side) (a : A) :
    0 ≤ L.pending s a := by
  rw [h.pending_eq_standing]
  refine List.sum_nonneg fun x hx => ?_
  obtain ⟨t, -, rfl⟩ := List.mem_map.mp hx
  split_ifs <;> omega

/-- Balances are never negative: an account holds at least what is pending against it. -/
theorem Ledger.Sound.balance_nonneg {L : Ledger I A T} (h : L.Sound) (a : A) :
    0 ≤ L.balance a := by
  have hroom := h.room_nonneg a
  have hpend := h.pending_nonneg (Chart.normal a).flip a
  unfold Ledger.room at hroom
  omega

end Sound

/-! ## Conservation -/

section Conservation

variable {I A T : Type} [DecidableEq A]

/-- What an account was debited less what it was credited, posted. -/
def Ledger.net (L : Ledger I A T) (a : A) : Int := L.posted .debit a - L.posted .credit a

@[simp] theorem Ledger.net_empty (a : A) : (Ledger.empty : Ledger I A T).net a = 0 := rfl

@[simp] theorem Ledger.net_push (L : Ledger I A T) (e : Entry I A T) (a : A) :
    (L.push e).net a = L.net a + (e.postedOn .debit a - e.postedOn .credit a) := by
  simp only [Ledger.net, Ledger.posted_push]
  omega

/-- One entry moves nothing in or out of a finite set holding both its accounts or neither. -/
theorem Entry.postedOn_sum_eq_zero (e : Entry I A T) (s : Finset A)
    (h : e.legs.debit ∈ s ↔ e.legs.credit ∈ s) :
    ∑ a ∈ s, (e.postedOn .debit a - e.postedOn .credit a) = 0 := by
  have hd : ∑ a ∈ s, e.postedOn .debit a = if e.legs.debit ∈ s then e.postedAmount else 0 :=
    Finset.sum_ite_eq s e.legs.debit fun _ => e.postedAmount
  have hc : ∑ a ∈ s, e.postedOn .credit a = if e.legs.credit ∈ s then e.postedAmount else 0 :=
    Finset.sum_ite_eq s e.legs.credit fun _ => e.postedAmount
  simp only [Finset.sum_sub_distrib, hd, hc, h, sub_self]

/-- The accounts the accepted transfers touched. -/
def Ledger.accounts (L : Ledger I A T) : Finset A :=
  (L.entries.flatMap fun e => [e.legs.debit, e.legs.credit]).toFinset

theorem Ledger.mem_accounts {L : Ledger I A T} {a : A} :
    a ∈ L.accounts ↔ ∃ e ∈ L.entries, a = e.legs.debit ∨ a = e.legs.credit := by
  simp [Ledger.accounts]

/-- An account no transfer touched holds nothing. -/
theorem Ledger.posted_eq_zero {L : Ledger I A T} {a : A} (h : a ∉ L.accounts) (s : Side) :
    L.posted s a = 0 := by
  refine List.sum_eq_zero fun x hx => ?_
  obtain ⟨e, he, rfl⟩ := List.mem_map.mp hx
  have hne : e.legs.on s ≠ a := by
    rintro rfl
    exact h (Ledger.mem_accounts.mpr ⟨e, he, by cases s <;> simp⟩)
  exact if_neg hne

/-- **Double entry.** Over a finite set of accounts that every entry touches on both sides or not at
all, posted debits equal posted credits. -/
theorem Ledger.net_sum_eq_zero (L : Ledger I A T) (s : Finset A)
    (h : ∀ e ∈ L.entries, e.legs.debit ∈ s ↔ e.legs.credit ∈ s) : ∑ a ∈ s, L.net a = 0 := by
  obtain ⟨es, is⟩ := L
  induction es with
  | nil => simp [Ledger.net, Ledger.posted]
  | cons e es ih =>
    have hpush : (⟨e :: es, is⟩ : Ledger I A T) = Ledger.push ⟨es, is⟩ e := rfl
    rw [hpush]
    simp only [Ledger.net_push, Finset.sum_add_distrib]
    rw [ih fun e' he' => h e' (List.mem_cons_of_mem _ he'),
      e.postedOn_sum_eq_zero s (h e List.mem_cons_self), add_zero]

end Conservation

end TwoPhase
