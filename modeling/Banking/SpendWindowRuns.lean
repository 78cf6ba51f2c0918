import Banking.Lib.Rolling
import Banking.SpendWindows

/-! # Spend windows over every run

The spend ledger, and any number of signing requests served over it at once: each opens its windows
in transactions of its own, which begin before they wait for the lock and sweep what has aged out of
their window when they commit. As long as no window is read after a sweep took a row it still
counts, what the signed requests charged in any window is within the ceiling the last of them was
let in under. -/

namespace Banking

open Interactive (Held Guarded Served ServedStep ServedEnv Runs Config Prog Journal)
open Rolling (Entry When total recent)

/-! ## The spend ledger -/

/-- The length of a spend window, in microseconds. -/
def SPEND_WINDOW : Int := 60 * 60 * 1000000

/-- A row of the ledger, stamped with the start of the transaction that recorded it. -/
structure SpendRow where
  id : Nat
  key : WindowKey
  spend : U128
  signedAt : Int
deriving DecidableEq, Repr

/-- A row a sweep of a window takes. -/
def SpendRow.aged (key : WindowKey) (now : Int) (r : SpendRow) : Bool :=
  r.key = key && r.signedAt < now - SPEND_WINDOW

/-- The ledger: its rows, the next row's number, its locks and its clock; and, for the sake of what
is said of it, the rows its sweeps have taken. -/
structure SpendWorld where
  clock : Int
  locks : WindowKey → Nat
  rows : List SpendRow
  swept : List SpendRow
  nextId : Nat

/-- Nothing recorded yet. -/
def SpendWorld.empty : SpendWorld := ⟨0, fun _ => 0, [], [], 0⟩

/-- The sum of a window, as a transaction that began at `now` reads it. -/
def SpendWorld.spent (w : SpendWorld) (key : WindowKey) (now : Int) : Nat :=
  ((w.rows.filter fun r => r.key = key && now - SPEND_WINDOW ≤ r.signedAt).map (·.spend.val)).sum

/-- A spend recorded: the transaction commits its sweep and its row, and leaves its lock. -/
def SpendWorld.record (w : SpendWorld) (held : Held WindowKey) (key : WindowKey) (spend : U128)
    (now : Int) : SpendWorld :=
  { w with
    locks := held.release w.locks
    rows := ⟨w.nextId, key, spend, now⟩ :: w.rows.filter fun r => !r.aged key now
    swept := w.rows.filter (SpendRow.aged key now) ++ w.swept
    nextId := w.nextId + 1 }

/-- A reservation given back. -/
def SpendWorld.release (w : SpendWorld) (row : Nat) : SpendWorld :=
  { w with
    rows := w.rows.filter fun r => r.id ≠ row
    swept := w.swept.filter fun r => r.id ≠ row }

/-- Not asked of the ledger. -/
def SignerOp.Elsewhere : SignerOp → Prop
  | .begin | .lock _ | .spent .. | .record .. | .release _ => False
  | _ => True

/-- How what a handler asks is answered. -/
inductive SpendStep : (op : SignerOp) → SpendWorld → op.Ans → SpendWorld → Prop
  | begin (w : SpendWorld) : SpendStep .begin w (.ok w.clock) w
  | lock (w : SpendWorld) (key : WindowKey) : SpendStep (.lock key) w (.ok (w.locks key)) w
  | spent (w : SpendWorld) (held : Held WindowKey) (key : WindowKey) (now : Int) (spent : U128)
      (h : spent.val = w.spent key now) : SpendStep (.spent held key now) w (.ok spent) w
  | record (w : SpendWorld) (held : Held WindowKey) (key : WindowKey) (spend : U128) (now : Int)
      (hown : held.Own w.locks) :
      SpendStep (.record held key spend now) w (.ok w.nextId) (w.record held key spend now)
  | release (w : SpendWorld) (row : Nat) : SpendStep (.release row) w (.ok ()) (w.release row)
  | failed (w : SpendWorld) (op : SignerOp) (status : SignerStatus) :
      SpendStep op w (.error status) w
  | elsewhere (w : SpendWorld) {op : SignerOp} (a : op.Ans) (h : op.Elsewhere) : SpendStep op w a w

/-- What happens beside the requests: time passes. -/
inductive SpendEnv : SpendWorld → SpendWorld → Prop
  | tick (w : SpendWorld) (clock : Int) (h : w.clock ≤ clock) : SpendEnv w { w with clock }

/-- The ledger, and what every request asked. -/
abbrev SpendServed : Type := Served SignerOp SignerOp.Ans SpendWorld

/-- The configurations of any number of requests, in steps that meet `guard`. -/
def SpendRuns (lib : ChainLib) (env : SignerPolicy)
    (guard : Config (Interactive.Asks SignerOp) (Interactive.Asks.Reply SignerOp.Ans) SignerStatus
        Unit SpendServed →
      Config (Interactive.Asks SignerOp) (Interactive.Asks.Reply SignerOp.Ans) SignerStatus Unit
        SpendServed → Prop)
    (c : Config (Interactive.Asks SignerOp) (Interactive.Asks.Reply SignerOp.Ans) SignerStatus Unit
      SpendServed) : Prop :=
  Runs (ServedStep SpendStep) (ServedEnv SpendEnv)
    (fun p => ∃ main, (∃ request, main = serveSigning lib env request) ∧ p = main.serve) guard
    (.fresh .empty, []) c

/-! ## What the requests have charged -/

/-- A row a request charged. -/
structure Charge where
  request : Nat
  row : SpendRow
deriving DecidableEq, Repr

/-- The charge of an answer, if it is one. -/
def chargeOf : (Nat × Σ op : SignerOp, op.Ans) → Option Charge
  | (q, ⟨.record _ key spend now, .ok id⟩) => some ⟨q, ⟨id, key, spend, now⟩⟩
  | _ => none

/-- The row an answer gave back, if it did. -/
def releaseOf : (Nat × Σ op : SignerOp, op.Ans) → Option Nat
  | (_, ⟨.release row, .ok _⟩) => some row
  | _ => none

/-- Every charge, the last one first. -/
def spendCharges (s : SpendServed) : List Charge := s.journal.filterMap chargeOf

/-- The rows given back. -/
def spendReleases (s : SpendServed) : List Nat := s.journal.filterMap releaseOf

/-- The charges not given back. -/
def liveCharges (s : SpendServed) : List Charge :=
  (spendCharges s).filter fun c => c.row.id ∉ spendReleases s

/-- The ceiling a charge was let in under: that of the policy its request ran under. -/
def Charge.ceiling (env : SignerPolicy) (s : SpendServed) (c : Charge) : Nat :=
  (policyOf env (s.asked c.request)).windowCeiling c.row.key

/-- **No window is read short**: when a window is summed, no sweep has taken a row of it that its
own transaction, by its start, still counts. -/
def NoneMissed {P : Type} (c c' : SpendServed × P) : Prop :=
  ∀ q held key now a, c'.1.journal = (q, ⟨.spent held key now, a⟩) :: c.1.journal →
    ∀ r ∈ c.1.world.swept, r.key = key → r.signedAt < now - SPEND_WINDOW

/-! ## What every step keeps -/

/-- A row as a record of its window. -/
def SpendRow.entry (r : SpendRow) : Entry WindowKey := ⟨r.key, r.spend.val, .stamped r.signedAt⟩

/-- A charge with its ceiling. -/
def Charge.admitted (env : SignerPolicy) (s : SpendServed) (c : Charge) : Entry WindowKey × Nat :=
  (c.row.entry, c.ceiling env s)

/-- The charges of a window not given back. -/
def windowCharges (s : SpendServed) (key : WindowKey) : List Charge :=
  (liveCharges s).filter fun c => c.row.key = key

/-- What a window holds for a transaction that began at `now`, swept or not. -/
def windowSum (s : SpendServed) (key : WindowKey) (now : Int) : Nat :=
  recent (SPEND_WINDOW + 1) now ((windowCharges s key).map fun c => c.row.entry)

/-- **The invariant.** The table is what was charged, less what was given back and swept; a window
just summed under its lock holds no more than was read, as long as the lock is its reader's; and the
charges of each window were let in one after another. -/
structure SpendSound (env : SignerPolicy) (s : SpendServed) : Prop where
  charged : ∀ c ∈ spendCharges s, c.row.id < s.world.nextId
  released : ∀ id ∈ spendReleases s, id < s.world.nextId
  swept : ∀ r ∈ s.world.swept, r.id < s.world.nextId
  apart : ((spendCharges s).map fun c => c.row.id).Nodup
  rows : s.world.rows = ((liveCharges s).filter fun c => c.row ∉ s.world.swept).map Charge.row
  locked : ∀ q key count, ⟨.lock key, .ok count⟩ ∈ s.asked q → count ≤ s.world.locks key
  read : ∀ q held key now spent count earlier,
    s.asked q = ⟨.spent held key now, .ok spent⟩ :: ⟨.lock key, .ok count⟩ :: earlier →
    Guarded (fun s => s.world.locks) key count (fun s => windowSum s key now ≤ spent.val) s
  admitted : ∀ key,
    Rolling.Admitted (SPEND_WINDOW + 1) ((windowCharges s key).map (Charge.admitted env s))

section Journals

variable {env : SignerPolicy} {s : SpendServed} {q : Nat} {op : SignerOp} {a : op.Ans}
  {w : SpendWorld}

theorem chargeOf_some {e : Nat × Σ op : SignerOp, op.Ans} {c : Charge} (h : chargeOf e = some c) :
    ∃ held, e = (c.request, ⟨.record held c.row.key c.row.spend c.row.signedAt,
      .ok c.row.id⟩) := by
  unfold chargeOf at h
  split at h
  · cases h
    exact ⟨_, rfl⟩
  · cases h

/-- A charge is in its request's journal. -/
theorem asked_of_charge {c : Charge} (hc : c ∈ spendCharges s) :
    ∃ held, ⟨.record held c.row.key c.row.spend c.row.signedAt, .ok c.row.id⟩ ∈
      s.asked c.request := by
  obtain ⟨e, he, hcharge⟩ := List.mem_filterMap.mp hc
  obtain ⟨held, rfl⟩ := chargeOf_some hcharge
  exact ⟨held, Served.mem_asked.mpr he⟩

/-- And what a request's journal has charged is a charge. -/
theorem charge_of_asked {held : Held WindowKey} {key : WindowKey} {spend : U128} {now : Int}
    {id : Nat} (h : ⟨.record held key spend now, .ok id⟩ ∈ s.asked q) :
    ⟨q, ⟨id, key, spend, now⟩⟩ ∈ spendCharges s :=
  List.mem_filterMap.mpr ⟨_, Served.mem_asked.mp h, rfl⟩

/-- A charge's ceiling stays what it was. -/
theorem Charge.ceiling_answer {c : Charge} (hc : c ∈ spendCharges s) :
    c.ceiling env (s.answer q op a w) = c.ceiling env s := by
  unfold Charge.ceiling
  by_cases hq : q = c.request
  · subst hq
    obtain ⟨held, hmem⟩ := asked_of_charge hc
    rw [Served.asked_answer_self, policyOf_cons env (List.ne_nil_of_mem hmem)]
  · rw [Served.asked_answer_ne hq]

theorem mem_spendCharges_of_window {key : WindowKey} {c : Charge} (hc : c ∈ windowCharges s key) :
    c ∈ spendCharges s ∧ c.row.key = key := by
  obtain ⟨hlive, hkey⟩ := List.mem_filter.mp hc
  exact ⟨(List.mem_filter.mp hlive).1, of_decide_eq_true hkey⟩

/-- The log of a window stays what it was. -/
theorem admitted_answer {cs : List Charge} (hcs : ∀ c ∈ cs, c ∈ spendCharges s) :
    cs.map (Charge.admitted env (s.answer q op a w)) = cs.map (Charge.admitted env s) :=
  List.map_congr_left fun c hc =>
    Prod.ext rfl (Charge.ceiling_answer (hcs c hc))

end Journals

section Steps

variable {env : SignerPolicy} {s : SpendServed} {q : Nat} {op : SignerOp} {a : op.Ans}
  {w : SpendWorld}

/-- An answer that neither charges nor gives back leaves every window's charges as they were. -/
theorem windowCharges_answer (hcharge : chargeOf (q, ⟨op, a⟩) = none)
    (hrelease : releaseOf (q, ⟨op, a⟩) = none) :
    spendCharges (s.answer q op a w) = spendCharges s ∧
      spendReleases (s.answer q op a w) = spendReleases s ∧
      liveCharges (s.answer q op a w) = liveCharges s ∧
      ∀ key, windowCharges (s.answer q op a w) key = windowCharges s key := by
  have hcharges : spendCharges (s.answer q op a w) = spendCharges s :=
    List.filterMap_cons_none hcharge
  have hreleases : spendReleases (s.answer q op a w) = spendReleases s :=
    List.filterMap_cons_none hrelease
  have hlive : liveCharges (s.answer q op a w) = liveCharges s := by
    rw [liveCharges, liveCharges, hcharges, hreleases]
  exact ⟨hcharges, hreleases, hlive, fun key => by rw [windowCharges, windowCharges, hlive]⟩

/-- **An answer that moves nothing** keeps the invariant, when a lock's count is the lock's and what
is read of a window is no less than the window holds. -/
theorem SpendSound.told (h : SpendSound env s) (hcharge : chargeOf (q, ⟨op, a⟩) = none)
    (hrelease : releaseOf (q, ⟨op, a⟩) = none)
    (hlock : ∀ key count, (⟨op, a⟩ : Σ op : SignerOp, op.Ans) = ⟨.lock key, .ok count⟩ →
      count ≤ s.world.locks key)
    (hread : ∀ held key now spent,
      (⟨op, a⟩ : Σ op : SignerOp, op.Ans) = ⟨.spent held key now, .ok spent⟩ →
      windowSum s key now ≤ spent.val) : SpendSound env (s.answer q op a s.world) := by
  obtain ⟨hcharges, hreleases, hlive, hwindow⟩ :=
    windowCharges_answer (s := s) (w := s.world) hcharge hrelease
  have hsum : ∀ key now, windowSum (s.answer q op a s.world) key now = windowSum s key now :=
    fun key now => by rw [windowSum, windowSum, hwindow key]
  refine ⟨by rw [hcharges]; exact h.charged, by rw [hreleases]; exact h.released, h.swept,
    by rw [hcharges]; exact h.apart, by rw [hlive]; exact h.rows, ?_, ?_, ?_⟩
  · intro q' key count hmem
    by_cases hq : q = q'
    · subst hq
      rw [Served.asked_answer_self] at hmem
      rcases List.mem_cons.mp hmem with heq | hmem
      · exact hlock key count heq.symm
      · exact h.locked q key count hmem
    · rw [Served.asked_answer_ne hq] at hmem
      exact h.locked q' key count hmem
  · intro q' held key now spent count earlier hasked
    by_cases hq : q = q'
    · subst hq
      rw [Served.asked_answer_self] at hasked
      obtain ⟨heq, hrest⟩ := List.cons.inj hasked
      refine ⟨h.locked q key count (hrest ▸ List.mem_cons_self), fun _ => ?_⟩
      rw [hsum]
      exact hread held key now spent heq
    · rw [Served.asked_answer_ne hq] at hasked
      have hguarded := h.read q' held key now spent count earlier hasked
      exact ⟨hguarded.found, fun hown => by rw [hsum]; exact hguarded.holds hown⟩
  · intro key
    rw [hwindow key, admitted_answer fun c hc => (mem_spendCharges_of_window hc).1]
    exact h.admitted key

/-- What a window's reader reads is what the window holds, when no sweep took a row of it. -/
theorem SpendSound.spent_eq (h : SpendSound env s) {key : WindowKey} {now : Int}
    (hnone : ∀ r ∈ s.world.swept, r.key = key → r.signedAt < now - SPEND_WINDOW) :
    s.world.spent key now = windowSum s key now := by
  unfold SpendWorld.spent windowSum recent total windowCharges
  rw [h.rows, List.filter_map, List.filter_map, List.map_map, List.map_map, List.filter_filter,
    List.filter_filter]
  refine congrArg List.sum (congrArg (List.map _) (List.filter_congr fun c _ => ?_))
  simp only [Function.comp, When.recent, SpendRow.entry]
  by_cases hkey : c.row.key = key
  · by_cases hin : now - SPEND_WINDOW ≤ c.row.signedAt
    · have hnot : c.row ∉ s.world.swept := fun hmem => by
        have := hnone c.row hmem hkey
        omega
      have hrecent : now - (SPEND_WINDOW + 1) < c.row.signedAt := by omega
      simp [hkey, hin, hnot, hrecent]
    · have hrecent : ¬ now - (SPEND_WINDOW + 1) < c.row.signedAt := by omega
      simp [hin, hrecent]
  · simp [hkey]

/-- **A spend recorded** under a lock still its own keeps the invariant. -/
theorem SpendSound.record (h : SpendSound env s) {held : Held WindowKey} {key : WindowKey}
    {spend : U128} {now : Int} {count : Nat} {spent : U128} {earlier : SignerJournal}
    (hasked : s.asked q = ⟨.spent held key now, .ok spent⟩ :: ⟨.lock key, .ok count⟩ :: earlier)
    (hheld : held = [(key, count)])
    (hfits : spent.val + spend.val ≤ (policyOf env (s.asked q)).windowCeiling key)
    (hown : held.Own s.world.locks) :
    SpendSound env (s.answer q (.record held key spend now) (.ok s.world.nextId)
      (s.world.record held key spend now)) := by
  have hmine : (key, count) ∈ held := hheld ▸ List.mem_cons_self
  have hlock : s.world.locks key = count := hown.eq hmine
  generalize hs' : s.answer q (.record held key spend now) (.ok s.world.nextId)
    (s.world.record held key spend now) = s'
  have hworld : s'.world = s.world.record held key spend now := by rw [← hs']; rfl
  have hcharges : spendCharges s' = ⟨q, ⟨s.world.nextId, key, spend, now⟩⟩ :: spendCharges s := by
    rw [← hs']; rfl
  have hreleases : spendReleases s' = spendReleases s := by rw [← hs']; rfl
  have hfresh : s.world.nextId ∉ spendReleases s := fun hmem =>
    Nat.lt_irrefl _ (h.released _ hmem)
  have hlive : liveCharges s' = ⟨q, ⟨s.world.nextId, key, spend, now⟩⟩ :: liveCharges s := by
    rw [liveCharges, hcharges, hreleases, List.filter_cons_of_pos (by simpa using hfresh)]
    rfl
  have hothers : ∀ key', key' ≠ key → windowCharges s' key' = windowCharges s key' := by
    intro key' hne
    rw [windowCharges, hlive, List.filter_cons_of_neg (by simpa using Ne.symm hne)]
    rfl
  have hthis : windowCharges s' key =
      ⟨q, ⟨s.world.nextId, key, spend, now⟩⟩ :: windowCharges s key := by
    rw [windowCharges, hlive, List.filter_cons_of_pos (by simp)]
    rfl
  have hlog : ∀ key', (windowCharges s key').map (Charge.admitted env s') =
      (windowCharges s key').map (Charge.admitted env s) := fun key' => by
    rw [← hs']
    exact admitted_answer fun c hc => (mem_spendCharges_of_window hc).1
  refine ⟨?_, ?_, ?_, ?_, ?_, ?_, ?_, ?_⟩
  · intro c hc
    rw [hworld]
    rw [hcharges] at hc
    rcases List.mem_cons.mp hc with rfl | hc
    · exact Nat.lt_succ_self _
    · exact Nat.lt_succ_of_lt (h.charged c hc)
  · intro id hid
    rw [hworld]
    rw [hreleases] at hid
    exact Nat.lt_succ_of_lt (h.released id hid)
  · intro r hr
    rw [hworld] at hr ⊢
    rcases List.mem_append.mp hr with hr | hr
    · have hrow := (List.mem_filter.mp hr).1
      rw [h.rows] at hrow
      obtain ⟨c, hc, rfl⟩ := List.mem_map.mp hrow
      have hcharge := (List.mem_filter.mp (List.mem_filter.mp hc).1).1
      exact Nat.lt_succ_of_lt (h.charged c hcharge)
    · exact Nat.lt_succ_of_lt (h.swept r hr)
  · rw [hcharges, List.map_cons, List.nodup_cons]
    refine ⟨fun hmem => ?_, h.apart⟩
    obtain ⟨c, hc, hid⟩ := List.mem_map.mp hmem
    exact Nat.lt_irrefl _ (hid ▸ h.charged c hc)
  · rw [hworld, hlive]
    have hnew : (⟨s.world.nextId, key, spend, now⟩ : SpendRow) ∉
        (s.world.record held key spend now).swept := by
      intro hmem
      rcases List.mem_append.mp hmem with hmem | hmem
      · have hrow := (List.mem_filter.mp hmem).1
        rw [h.rows] at hrow
        obtain ⟨c, hc, hcrow⟩ := List.mem_map.mp hrow
        have hlt := h.charged c (List.mem_filter.mp (List.mem_filter.mp hc).1).1
        rw [hcrow] at hlt
        exact Nat.lt_irrefl _ hlt
      · exact Nat.lt_irrefl _ (h.swept _ hmem)
    rw [List.filter_cons_of_pos (by simpa using hnew), List.map_cons]
    refine congrArg (_ :: ·) ?_
    -- a charge in the table is swept now just when its row has aged out of this window
    rw [h.rows, List.filter_map, List.filter_filter]
    refine congrArg (List.map _) (List.filter_congr fun c hc => ?_)
    by_cases hswept : c.row ∈ s.world.swept
    · simp [SpendWorld.record, hswept]
    · have hrow : c.row ∈ s.world.rows := by
        rw [h.rows]
        exact List.mem_map_of_mem (List.mem_filter.mpr ⟨hc, by simpa using hswept⟩)
      simp [SpendWorld.record, hswept, hrow]
  · intro q' key' count' hmem
    rw [hworld]
    refine le_trans ?_ (Held.le_release held s.world.locks key')
    rw [← hs'] at hmem
    by_cases hq : q = q'
    · subst hq
      rw [Served.asked_answer_self] at hmem
      rcases List.mem_cons.mp hmem with heq | hmem
      · cases heq
      · exact h.locked q key' count' hmem
    · rw [Served.asked_answer_ne hq] at hmem
      exact h.locked q' key' count' hmem
  · intro q' held' key' now' spent' count' earlier' hasked'
    rw [← hs'] at hasked'
    by_cases hq : q = q'
    · subst hq
      rw [Served.asked_answer_self] at hasked'
      cases (List.cons.inj hasked').1
    · rw [Served.asked_answer_ne hq] at hasked'
      refine (h.read q' held' key' now' spent' count' earlier' hasked').stable ?_ ?_
      · rw [hworld]
        exact Held.le_release held s.world.locks key'
      · intro hsame hle
        rw [hworld] at hsame
        have hne : key' ≠ key := by
          rintro rfl
          exact Held.release_ne s.world.locks hmine hsame
        rw [windowSum, hothers key' hne]
        exact hle
  · intro key'
    by_cases hkey : key' = key
    · subst hkey
      rw [hthis, List.map_cons, hlog]
      refine ⟨?_, h.admitted key'⟩
      have hle : windowSum s key' now ≤ spent.val := (h.read q _ _ _ _ _ _ hasked).holds hlock
      have hceiling : (policyOf env (s'.asked q)).windowCeiling key' =
          (policyOf env (s.asked q)).windowCeiling key' := by
        rw [← hs', Served.asked_answer_self,
          policyOf_cons env (by rw [hasked]; exact List.cons_ne_nil _ _)]
      have hentries : ((windowCharges s key').map (Charge.admitted env s)).map Prod.fst =
          (windowCharges s key').map fun c => c.row.entry := by
        rw [List.map_map]
        rfl
      rw [hentries]
      exact (Nat.add_le_add_right hle spend.val).trans (hfits.trans_eq hceiling.symm)
    · rw [hothers key' hkey, hlog]
      exact h.admitted key'

/-- **A reservation given back** keeps it: every window holds less. -/
theorem SpendSound.release (h : SpendSound env s) {row : Nat} (hrow : row < s.world.nextId) :
    SpendSound env (s.answer q (.release row) (.ok ()) (s.world.release row)) := by
  generalize hs' : s.answer q (.release row) (.ok ()) (s.world.release row) = s'
  have hworld : s'.world = s.world.release row := by rw [← hs']; rfl
  have hcharges : spendCharges s' = spendCharges s := by rw [← hs']; rfl
  have hreleases : spendReleases s' = row :: spendReleases s := by rw [← hs']; rfl
  have hlive : liveCharges s' = (liveCharges s).filter fun c => c.row.id ≠ row := by
    rw [liveCharges, hcharges, hreleases, liveCharges, List.filter_filter]
    refine List.filter_congr fun c _ => ?_
    simp [List.mem_cons]
  have hsub : ∀ key, (windowCharges s' key).Sublist (windowCharges s key) := fun key => by
    rw [windowCharges, hlive]
    exact List.Sublist.filter _ List.filter_sublist
  have hlog : ∀ key, (windowCharges s' key).map (Charge.admitted env s') =
      (windowCharges s' key).map (Charge.admitted env s) := fun key => by
    rw [← hs']
    refine admitted_answer fun c hc => ?_
    rw [hs'] at hc
    exact (mem_spendCharges_of_window ((hsub key).subset hc)).1
  refine ⟨?_, ?_, ?_, ?_, ?_, ?_, ?_, ?_⟩
  · rw [hcharges, hworld]
    exact h.charged
  · rw [hreleases, hworld]
    intro id hid
    rcases List.mem_cons.mp hid with rfl | hid
    · exact hrow
    · exact h.released id hid
  · rw [hworld]
    exact fun r hr => h.swept r (List.mem_filter.mp hr).1
  · rw [hcharges]
    exact h.apart
  · rw [hworld, hlive]
    unfold SpendWorld.release
    dsimp only
    rw [h.rows, List.filter_map, List.filter_filter, List.filter_filter]
    refine congrArg (List.map _) (List.filter_congr fun c _ => ?_)
    by_cases hid : c.row.id = row <;> simp [hid]
  · intro q' key count hmem
    rw [hworld]
    rw [← hs'] at hmem
    by_cases hq : q = q'
    · subst hq
      rw [Served.asked_answer_self] at hmem
      rcases List.mem_cons.mp hmem with heq | hmem
      · cases heq
      · exact h.locked q key count hmem
    · rw [Served.asked_answer_ne hq] at hmem
      exact h.locked q' key count hmem
  · intro q' held key now spent count earlier hasked
    rw [← hs'] at hasked
    by_cases hq : q = q'
    · subst hq
      rw [Served.asked_answer_self] at hasked
      cases (List.cons.inj hasked).1
    · rw [Served.asked_answer_ne hq] at hasked
      refine (h.read q' held key now spent count earlier hasked).stable ?_ ?_
      · rw [hworld]
        exact le_rfl
      · exact fun _ hle => (Rolling.total_sublist ((hsub key).map _)).trans hle
  · intro key
    rw [hlog]
    exact (h.admitted key).sublist ((hsub key).map _)

end Steps

/-- **Every answer** keeps the invariant: one that sums a window, when no sweep took a row of it. -/
theorem SpendStep.keeps {env : SignerPolicy} {s : SpendServed} {q : Nat} {op : SignerOp}
    {a : op.Ans} {w : SpendWorld} (hstep : SpendStep op s.world a w) (h : SpendSound env s)
    (hallowed : ChargesWithin env (s.asked q) op)
    (hnone : ∀ held key now, op = .spent held key now → ∀ r ∈ s.world.swept, r.key = key →
      r.signedAt < now - SPEND_WINDOW) : SpendSound env (s.answer q op a w) := by
  cases hstep with
  | begin =>
    exact h.told rfl rfl (fun _ _ heq => by cases heq) fun _ _ _ _ heq => by cases heq
  | lock _ key =>
    refine h.told rfl rfl (fun key' count heq => ?_) fun _ _ _ _ heq => by cases heq
    cases heq
    exact le_rfl
  | spent _ held key now spent hspent =>
    refine h.told rfl rfl (fun _ _ heq => by cases heq) fun held' key' now' spent' heq => ?_
    cases heq
    rw [hspent, h.spent_eq (hnone held key now rfl)]
  | record _ held key spend now hown =>
    obtain ⟨-, count, spent, earlier, hasked, hheld, hfits⟩ := hallowed
    exact h.record hasked hheld hfits hown
  | release _ row =>
    obtain ⟨-, held, key, spend, now, hmem⟩ := hallowed
    exact h.release (h.charged _ (charge_of_asked hmem))
  | failed _ _ status =>
    refine h.told ?_ ?_ (fun _ _ heq => by cases heq) fun _ _ _ _ heq => by cases heq
    · cases op <;> rfl
    · cases op <;> rfl
  | elsewhere _ a hop =>
    refine h.told ?_ ?_ ?_ ?_
    · cases op <;> first | rfl | exact hop.elim
    · cases op <;> first | rfl | exact hop.elim
    · rintro key count heq
      obtain rfl := congrArg Sigma.fst heq
      exact hop.elim
    · rintro held key now spent heq
      obtain rfl := congrArg Sigma.fst heq
      exact hop.elim

/-! ## Runs -/

section Runs

variable {lib : ChainLib} {env : SignerPolicy}

/-- **Everywhere the requests get** the invariant holds, and each request has kept its protocol. -/
theorem SpendRuns.pooled {c : Config (Interactive.Asks SignerOp)
      (Interactive.Asks.Reply SignerOp.Ans) SignerStatus Unit SpendServed}
    (h : SpendRuns lib env NoneMissed c) :
    SpendSound env c.1 ∧ ∀ q, Journal.Keeps (ChargesWithin env) (c.1.asked q) := by
  have hfresh : SpendSound env (.fresh .empty) :=
    ⟨fun _ hc => (nomatch hc), fun _ hid => (nomatch hid), fun _ hr => (nomatch hr),
      List.nodup_nil, rfl, fun _ _ _ hmem => (nomatch hmem),
      fun _ _ _ _ _ _ _ hasked => (nomatch hasked), fun _ => trivial⟩
  have hpooled : Interactive.Pooled (ChargesWithin env)
      (fun p => ∃ request, p = serveSigning lib env request) (SpendSound env) c := by
    refine Runs.served (fun p ⟨request, hp⟩ => hp ▸ serveSigning_charges request) ?_ ?_ ?_ hfresh h
    · intro s w henv hs
      cases henv with
      | tick _ _ =>
        exact ⟨hs.charged, hs.released, hs.swept, hs.apart, hs.rows, hs.locked,
          fun q held key now spent count earlier hasked =>
            have hread := hs.read q held key now spent count earlier hasked
            ⟨hread.found, hread.holds⟩, hs.admitted⟩
    · intro s hs
      exact ⟨hs.charged, hs.released, hs.swept, hs.apart, hs.rows, hs.locked,
        fun q held key now spent count earlier hasked =>
          have hread := hs.read q held key now spent count earlier hasked
          ⟨hread.found, hread.holds⟩, hs.admitted⟩
    · intro s q op a w ps ps' hstep hguard _ hallowed hs
      refine hstep.keeps hs hallowed fun held key now hop => ?_
      subst hop
      exact hguard q held key now a rfl
  exact ⟨hpooled.holds, hpooled.keeps⟩

variable {s : SpendServed}

end Runs

/-! ## A window read after its rows were swept -/

end Banking
