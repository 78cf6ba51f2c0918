import Banking.Hold
import Banking.Planned

/-! # A hold's chain on the ledger

A hold's accepted commands raise events, and the relay submits each event's plan in order while the
other rows' transfers go on around it. The ledger then follows the aggregate: once the placement is
applied, one reservation of what is left stands exactly while the hold is active, each event voids
that very reservation, and what was captured, released and is still reserved adds up to what was
held. -/

namespace Banking

open TwoPhase (Ledger)

/-! ## Traces of accepted commands -/

/-- `Hold.Trace r es h`: accepted commands took the hold from `r` to `h` and raised the events
`es`, oldest first. -/
inductive Hold.Trace : Hold → List HoldEvent → Hold → Prop
  | nil (h : Hold) : Hold.Trace h [] h
  | cons {r h h' : Hold} {c : HoldCommand} {e : HoldEvent} {es : List HoldEvent} :
      r.apply c = some (h, e) → Hold.Trace h es h' → Hold.Trace r (e :: es) h'

/-- One more accepted command. -/
theorem Hold.Trace.snoc {r h h' : Hold} {es : List HoldEvent} (ht : Hold.Trace r es h)
    {c : HoldCommand} {e : HoldEvent} (hc : h.apply c = some (h', e)) :
    Hold.Trace r (es ++ [e]) h' := by
  induction ht with
  | nil => exact .cons hc (.nil _)
  | cons ha _ ih => exact .cons ha (ih hc)

/-- The version an event of a hold carries. -/
def HoldEvent.version : HoldEvent → Nat
  | .placed _ _ _ _ v | .captured _ _ _ v .. | .released _ _ _ v .. => v

/-- An accepted command raises the next version, and keeps id and terms. -/
theorem Hold.apply_version {h h' : Hold} {c : HoldCommand} {e : HoldEvent}
    (ha : h.apply c = some (h', e)) :
    h'.id = h.id ∧ h'.terms = h.terms ∧ h'.progress.version = h.progress.version + 1 ∧
      e.version = h.progress.version + 1 := by
  obtain ⟨-, ⟨amount, target, -, -, -, rfl, rfl⟩ | ⟨state, -, hr⟩⟩ := Hold.apply_cases ha
  · exact ⟨rfl, rfl, rfl, rfl⟩
  · cases hr
    exact ⟨rfl, rfl, rfl, rfl⟩

/-- A hold that can be: it captured no more than it held, less while active, and the reservation it
will void is not from the future. -/
structure Hold.Valid (h : Hold) : Prop where
  captured_le : h.progress.captured ≤ h.terms.amount
  remaining_pos : h.progress.state = .active → h.progress.captured < h.terms.amount
  pending_le : h.progress.pendingVersion ≤ h.progress.version

/-- Accepted commands keep a hold one that can be. -/
theorem Hold.Valid.apply {h h' : Hold} {c : HoldCommand} {e : HoldEvent} (hv : h.Valid)
    (ha : h.apply c = some (h', e)) : h'.Valid := by
  obtain ⟨hs, ⟨amount, target, -, hpos, hle, -, rfl⟩ | ⟨state, hstate, hr⟩⟩ := Hold.apply_cases ha
  · rw [Hold.remaining_active hs] at hle
    have hcap := hv.captured_le
    have hpend := hv.pending_le
    refine ⟨?_, ?_, ?_⟩
    · show h.progress.captured + amount ≤ h.terms.amount
      omega
    · show (if amount = h.remaining then HoldState.captured else .active) = .active →
        h.progress.captured + amount < h.terms.amount
      rw [Hold.remaining_active hs]
      split
      · exact fun hc => nomatch hc
      · intro _
        omega
    · show (if amount = h.remaining then h.progress.pendingVersion else h.progress.version + 1) ≤
        h.progress.version + 1
      split <;> omega
  · cases hr
    refine ⟨hv.captured_le, fun hc => ?_, Nat.le_succ_of_le hv.pending_le⟩
    rcases hstate with rfl | rfl <;> cases hc

/-! ## The ids of a chain -/

/-- The transfers a hold's event submits. -/
def holdRequests (id : Uuid) (e : HoldEvent) : List TransferRequest := (planHold id id e).requests

/-- The ids a hold's event takes are those of its own version. -/
theorem holdRequests_id {id : Uuid} {e : HoldEvent} {r : TransferRequest}
    (hr : r ∈ holdRequests id e) :
    ∃ salt ∈ [HOLD_PENDING, HOLD_VOID, HOLD_CAPTURE], r.id = holdTid id salt e.version := by
  cases e with
  | placed =>
    obtain rfl := List.mem_singleton.mp hr
    exact ⟨HOLD_PENDING, by simp, rfl⟩
  | released =>
    obtain rfl := List.mem_singleton.mp hr
    exact ⟨HOLD_VOID, by simp, rfl⟩
  | captured h s u v rel held am target =>
    obtain ⟨leg, hleg, rfl⟩ := List.mem_map.mp hr
    simp only [List.mem_append, List.mem_cons, List.not_mem_nil, or_false] at hleg
    rcases hleg with (rfl | rfl) | hrest
    · exact ⟨HOLD_VOID, by simp, rfl⟩
    · exact ⟨HOLD_CAPTURE, by simp, rfl⟩
    · split at hrest
      · cases hrest
      · obtain rfl := List.mem_singleton.mp hrest
        exact ⟨HOLD_PENDING, by simp, rfl⟩

/-- Ids of different versions differ, whatever their salts. -/
theorem holdTid_ne_of_version {id : Uuid} {s t : String} {m n : Nat}
    (hs : s ∈ [HOLD_PENDING, HOLD_VOID, HOLD_CAPTURE])
    (ht : t ∈ [HOLD_PENDING, HOLD_VOID, HOLD_CAPTURE]) (h : m ≠ n) :
    holdTid id s m ≠ holdTid id t n := by
  simp only [List.mem_cons, List.not_mem_nil, or_false] at hs ht
  rcases hs with rfl | rfl | rfl <;> rcases ht with rfl | rfl | rfl <;>
    first
    | exact fun he => h (holdTid_inj.mp he).2
    | exact holdTid_pending_ne_void
    | exact holdTid_pending_ne_void.symm
    | exact holdTid_pending_ne_capture
    | exact holdTid_pending_ne_capture.symm
    | exact holdTid_void_ne_capture
    | exact holdTid_void_ne_capture.symm

/-- Ids of one version differ by their salts. -/
theorem holdTid_ne_of_salt {id : Uuid} {s t : String} {v : Nat} (h : s ≠ t) :
    holdTid id s v ≠ holdTid id t v := by
  intro he
  exact h ((String.append_left_inj _).mp (tid_inj.mp he).2)

/-- The ids of one event are distinct. -/
theorem holdRequests_nodup (id : Uuid) (e : HoldEvent) :
    ((holdRequests id e).map TwoPhase.Request.id).Nodup := by
  cases e with
  | placed | released => exact List.nodup_singleton _
  | captured h s u v rel held am target =>
    have hv : (LinkedLeg.complete (holdVoid id id s u v rel held)).request.id =
        holdTid id HOLD_VOID v := rfl
    have hids : (holdRequests id (.captured h s u v rel held am target)).map
        TwoPhase.Request.id = [holdTid id HOLD_VOID v, holdTid id HOLD_CAPTURE v] ++
          if held - am = 0 then [] else [holdTid id HOLD_PENDING v] := by
      unfold holdRequests planHold PlannedOp.requests
      by_cases hrest : held - am = 0 <;>
        simp only [LedgerAction.call?, Option.map_some, Option.getD_some, LedgerCall.requests,
          List.map_append, List.map_cons, List.map_nil, hrest, if_true, if_false] <;> rfl
    rw [hids]
    have hne : holdTid id HOLD_CAPTURE v ≠ holdTid id HOLD_PENDING v :=
      holdTid_pending_ne_capture.symm
    have hne' : holdTid id HOLD_VOID v ≠ holdTid id HOLD_PENDING v :=
      holdTid_pending_ne_void.symm
    split <;> simp [hne, hne']

/-- The ids of a trace are distinct, and none is of a version the trace began at or before. -/
theorem Hold.Trace.ids {r h : Hold} {es : List HoldEvent} (ht : Hold.Trace r es h) (id : Uuid) :
    ((es.flatMap fun e => (holdRequests id e).map TwoPhase.Request.id).Nodup) ∧
      ∀ e ∈ es, r.progress.version < e.version := by
  induction ht with
  | nil => exact ⟨List.nodup_nil, fun _ he => nomatch he⟩
  | @cons r h h' c e es ha _ ih =>
    obtain ⟨-, -, hnext, hev⟩ := Hold.apply_version ha
    have hlater : ∀ e' ∈ es, e.version < e'.version := by
      intro e' he'
      have := ih.2 e' he'
      omega
    refine ⟨?_, ?_⟩
    · rw [List.flatMap_cons, List.nodup_append]
      refine ⟨holdRequests_nodup id e, ih.1, ?_⟩
      intro i hi j hj
      obtain ⟨q, hq, rfl⟩ := List.mem_map.mp hi
      obtain ⟨e', he', hj⟩ := List.mem_flatMap.mp hj
      obtain ⟨q', hq', rfl⟩ := List.mem_map.mp hj
      obtain ⟨s, hs, hid⟩ := holdRequests_id hq
      obtain ⟨t, ht, hid'⟩ := holdRequests_id hq'
      rw [hid, hid']
      exact holdTid_ne_of_version hs ht (by have := hlater e' he'; omega)
    · intro e' he'
      rcases List.mem_cons.mp he' with rfl | he'
      · omega
      · have := hlater e' he'
        omega

/-! ## What the ledger holds of a hold -/

/-- The standing reservations filed under a hold. -/
def heldOn (id : Uuid) (L : Books) : List LedgerTransfer :=
  L.standing.filter (·.tag.reference = id)

/-- What an entry posted for a hold. -/
def capturedBy (id : Uuid) : BookEntry → Nat
  | .posted t => if t.tag.reference = id then t.amount else 0
  | .pending _ | .settled _ _ | .voided _ _ => 0

/-- What was captured of a hold: everything posted under it. -/
def capturedOn (id : Uuid) (L : Books) : Nat := (L.entries.map (capturedBy id)).sum

/-- What an event gave back: for a release whose void is on the ledger, the reservation it
voided. -/
def releasedBy (id : Uuid) (L : Books) : HoldEvent → Nat
  | .released _ _ _ version _ _ _ =>
    match L.find (holdTid id HOLD_VOID version) with
    | some (.voided _ reserve) => reserve.amount
    | _ => 0
  | .placed .. | .captured .. => 0

/-- What was released of a hold by the events `es`. -/
def releasedOn (id : Uuid) (L : Books) (es : List HoldEvent) : Nat :=
  (es.map (releasedBy id L)).sum

/-- The reservation an active hold keeps. -/
def Hold.reservation (h : Hold) : LedgerTransfer :=
  holdReservation h.id h.id h.terms.scope h.terms.user h.progress.pendingVersion h.remaining

@[simp] theorem capturedOn_push (id : Uuid) (L : Books) (e : BookEntry) :
    capturedOn id (L.push e) = capturedBy id e + capturedOn id L := rfl

@[simp] theorem heldOn_refused (id : Uuid) (L : Books) (is : List Uuid) :
    heldOn id { L with refused := is } = heldOn id L := rfl

theorem heldOn_push_posted (id : Uuid) (L : Books) (t : LedgerTransfer) :
    heldOn id (L.push (.posted t)) = heldOn id L := by
  unfold heldOn
  rw [Ledger.standing_push_posted]

/-- A new reservation of the hold stands in front of the others. -/
theorem heldOn_push_pending (id : Uuid) {L : Books} (hs : L.Sound) {t : LedgerTransfer}
    (hfresh : L.has t.id = false) :
    heldOn id (L.push (.pending t)) =
      if t.tag.reference = id then t :: heldOn id L else heldOn id L := by
  unfold heldOn
  rw [hs.standing_push_pending hfresh, List.filter_cons]
  simp only [decide_eq_true_eq]

/-- A completion takes the reservation it names off the hold's, if it is the hold's. -/
theorem heldOn_push_completion (id : Uuid) (L : Books) {e : BookEntry} {i : Uuid}
    (he : e.completes = some i) : heldOn id (L.push e) = (heldOn id L).filter (·.id ≠ i) := by
  unfold heldOn
  rw [Ledger.standing_push_completion _ he, List.filter_filter, List.filter_filter]
  exact List.filter_congr fun t _ => Bool.and_comm _ _

/-! ## The other rows' transfers -/

/-- The books `L` hold of the hold `id` what `L₀` did: its ids are taken, refused and completed as
they were, and the same is reserved and captured. -/
structure HoldUnchanged (id : Uuid) (L₀ L : Books) : Prop where
  sound : L.Sound
  find : ∀ salt, L.find (tid id salt) = L₀.find (tid id salt)
  refused : ∀ salt, tid id salt ∈ L.refused ↔ tid id salt ∈ L₀.refused
  held : heldOn id L = heldOn id L₀
  captured : capturedOn id L = capturedOn id L₀

theorem HoldUnchanged.refl {id : Uuid} {L : Books} (hs : L.Sound) : HoldUnchanged id L L :=
  ⟨hs, fun _ => rfl, fun _ => Iff.rfl, rfl, rfl⟩

theorem HoldUnchanged.has {id : Uuid} {L₀ L : Books} (h : HoldUnchanged id L₀ L) (salt : String) :
    L.has (tid id salt) = L₀.has (tid id salt) := by
  unfold Ledger.has
  rw [h.find]

/-- A request of another aggregate's row names no transfer of the hold's. -/
structure HoldForeign (id : Uuid) (r : TransferRequest) : Prop where
  id_ne : ∀ salt, r.id ≠ tid id salt
  completes_ne : ∀ salt, r.completes ≠ some (tid id salt)
  reference_ne : r.transfer.tag.reference ≠ id

/-- The transfers of another aggregate's row are foreign to the hold. -/
theorem OwnedBy.foreign {a ev id : Uuid} {r : TransferRequest} (h : OwnedBy a ev r) (ha : a ≠ id)
    (hev : ∀ salt, ev ≠ tid id salt) : HoldForeign id r := by
  obtain ⟨hid, href, hcomp⟩ := h
  refine ⟨fun salt he => ?_, fun salt he => ?_, href ▸ ha⟩
  · rcases hid with hid | ⟨salt', hid⟩
    · exact hev salt (hid ▸ he)
    · exact ha (tid_inj.mp (hid ▸ he)).1
  · obtain ⟨salt', he'⟩ := hcomp _ he
    exact ha (tid_inj.mp he').1.symm

/-- One accepted foreign transfer changes nothing of the hold's. -/
theorem HoldUnchanged.push {id : Uuid} {L₀ L : Books} (h : HoldUnchanged id L₀ L)
    (hown : ∀ t ∈ heldOn id L₀, ∃ salt, t.id = tid id salt) {r : TransferRequest}
    (hr : HoldForeign id r) (hc : L.check r = .created) :
    HoldUnchanged id L₀ (L.push (L.entryOf r)) := by
  have hacc := Ledger.accepts_of_check hc
  have hid : (L.entryOf r).id = r.id := by cases r <;> rfl
  have hfresh := (Ledger.fresh_of_check hc).1
  have hfind : ∀ salt, (L.push (L.entryOf r)).find (tid id salt) = L₀.find (tid id salt) := by
    intro salt
    rw [Ledger.find_push, hid, if_neg (hr.id_ne salt), h.find]
  -- a foreign completion takes no reservation of the hold's
  have hcompleted : ∀ (e : BookEntry) (i : Uuid), e.completes = some i →
      (∀ salt, i ≠ tid id salt) → heldOn id (L.push e) = heldOn id L₀ := by
    intro e i he hi
    rw [heldOn_push_completion id L he, h.held, List.filter_eq_self]
    intro t ht
    obtain ⟨salt, hsalt⟩ := hown t ht
    simpa [hsalt] using (hi salt).symm
  refine ⟨h.sound.push hacc, hfind, h.refused, ?_, ?_⟩
  · cases r with
    | post t => rw [← h.held]; exact heldOn_push_posted id L t
    | reserve t =>
        have hpend := heldOn_push_pending id h.sound hfresh
        rw [if_neg hr.reference_ne] at hpend
        rw [← h.held]
        exact hpend
    | settle p t =>
        have hp : ∀ salt, p ≠ tid id salt := fun salt he => hr.completes_ne salt (he ▸ rfl)
        obtain ⟨q, hq, hqid⟩ : ∃ q : LedgerTransfer, L.entryOf (.settle p t) = .settled t q ∧
            q.id = p := by
          obtain ⟨q, hq⟩ := Ledger.pending_of_check hc rfl
          exact ⟨q, Ledger.entryOf_settle hq, (Ledger.find_mem hq).2⟩
        rw [hq]
        exact hcompleted _ q.id rfl (hqid ▸ hp)
    | void p t =>
        have hp : ∀ salt, p ≠ tid id salt := fun salt he => hr.completes_ne salt (he ▸ rfl)
        obtain ⟨q, hq, hqid⟩ : ∃ q : LedgerTransfer, L.entryOf (.void p t) = .voided t q ∧
            q.id = p := by
          obtain ⟨q, hq⟩ := Ledger.pending_of_check hc rfl
          exact ⟨q, Ledger.entryOf_void hq, (Ledger.find_mem hq).2⟩
        rw [hq]
        exact hcompleted _ q.id rfl (hqid ▸ hp)
  · rw [capturedOn_push, h.captured]
    have hzero : capturedBy id (L.entryOf r) = 0 := by
      cases r with
      | post t => exact if_neg hr.reference_ne
      | reserve | settle | void => rfl
    rw [hzero, Nat.zero_add]

/-- **The frame rule.** A write of foreign transfers changes nothing of the hold's. -/
theorem HoldUnchanged.run {id : Uuid} {L : Books} (hs : L.Sound)
    (hown : ∀ t ∈ heldOn id L, ∃ salt, t.id = tid id salt) {call : LedgerCall}
    (hcall : ∀ r ∈ call.requests, HoldForeign id r) : HoldUnchanged id L (call.run L).2 := by
  refine LedgerCall.run_invariant (fun L' r hr h hc => h.push hown (hcall r hr) hc)
    (fun L' r hr h => ?_) (HoldUnchanged.refl hs)
  refine ⟨h.sound, h.find, fun salt => ?_, h.held, h.captured⟩
  rw [List.mem_cons, h.refused salt]
  exact or_iff_right ((hcall r hr).id_ne salt).symm

/-! ## Applying the chain -/

/-- The transfer ids a hold's events take, one of each kind for a version. -/
def HOLD_SALTS : List String := [HOLD_PENDING, HOLD_VOID, HOLD_CAPTURE]

/-- The id a hold's event is recognized by on the ledger: that of its first transfer. -/
def holdEventTid (id : Uuid) (e : HoldEvent) : Uuid := (planHold id id e).transferId

/-- **The ledger has followed the hold up to `r`**: the events `es` are applied, one reservation of
what is left stands exactly while `r` is active, what was captured and released is what `r` says,
and the ids of later versions are free. -/
structure HoldApplied (id : Uuid) (r : Hold) (es : List HoldEvent) (L : Books) : Prop where
  sound : L.Sound
  id_eq : r.id = id
  valid : r.Valid
  held : heldOn id L = if r.progress.state = .active then [r.reservation] else []
  captured : capturedOn id L = r.progress.captured
  released : releasedOn id L es =
    if r.progress.state = .active then 0 else r.terms.amount - r.progress.captured
  landed : ∀ e ∈ es, L.has (holdEventTid id e) = true
  fresh : ∀ v, r.progress.version < v → ∀ salt ∈ HOLD_SALTS,
    L.has (holdTid id salt v) = false ∧ holdTid id salt v ∉ L.refused

/-- The hold's standing reservation carries one of its ids. -/
theorem HoldApplied.own {id : Uuid} {r : Hold} {es : List HoldEvent} {L : Books}
    (h : HoldApplied id r es L) : ∀ t ∈ heldOn id L, ∃ salt, t.id = tid id salt := by
  intro t ht
  rw [h.held] at ht
  split at ht
  · obtain rfl := List.mem_singleton.mp ht
    exact ⟨_, congrArg (tid · _) h.id_eq⟩
  · cases ht

/-- An event's release is read off ids of the hold's own. -/
theorem releasedBy_congr {id : Uuid} {L L' : Books} {e : HoldEvent}
    (h : L'.find (holdEventTid id e) = L.find (holdEventTid id e)) :
    releasedBy id L' e = releasedBy id L e := by
  cases e with
  | placed | captured => rfl
  | released hid scope user version rel held ex =>
    have hf : L'.find (holdTid id HOLD_VOID version) = L.find (holdTid id HOLD_VOID version) := h
    simp only [releasedBy, hf]

theorem releasedOn_congr {id : Uuid} {L L' : Books} {es : List HoldEvent}
    (h : ∀ e ∈ es, L'.find (holdEventTid id e) = L.find (holdEventTid id e)) :
    releasedOn id L' es = releasedOn id L es := by
  unfold releasedOn
  rw [List.map_congr_left fun e he => releasedBy_congr (h e he)]

/-- The id of an event is one of the hold's. -/
theorem holdEventTid_eq (id : Uuid) (e : HoldEvent) :
    ∃ salt ∈ HOLD_SALTS, holdEventTid id e = holdTid id salt e.version := by
  cases e with
  | placed => exact ⟨HOLD_PENDING, by simp [HOLD_SALTS], rfl⟩
  | captured | released => exact ⟨HOLD_VOID, by simp [HOLD_SALTS], rfl⟩

/-- What the other rows do changes nothing of it. -/
theorem HoldApplied.frame {id : Uuid} {r : Hold} {es : List HoldEvent} {L L' : Books}
    (h : HoldApplied id r es L) (hL : HoldUnchanged id L L') : HoldApplied id r es L' where
  sound := hL.sound
  id_eq := h.id_eq
  valid := h.valid
  held := hL.held.trans h.held
  captured := hL.captured.trans h.captured
  released := by
    rw [← h.released]
    refine releasedOn_congr fun e _ => ?_
    obtain ⟨salt, -, hid⟩ := holdEventTid_eq id e
    rw [hid]
    exact hL.find _
  landed e he := by
    obtain ⟨salt, -, hid⟩ := holdEventTid_eq id e
    have hhas := h.landed e he
    rw [hid] at hhas ⊢
    exact (hL.has _).trans hhas
  fresh v hv salt hsalt := by
    obtain ⟨hhas, href⟩ := h.fresh v hv salt hsalt
    exact ⟨(hL.has _).trans hhas, fun hmem => href ((hL.refused _).mp hmem)⟩

section Step

variable {id : Uuid} {r : Hold} {es : List HoldEvent} {L : Books}

/-- An active hold's reservation is on the ledger, not completed yet. -/
theorem HoldApplied.standing (h : HoldApplied id r es L) (hs : r.progress.state = .active) :
    heldOn id L = [r.reservation] ∧ L.find r.reservation.id = some (.pending r.reservation) ∧
      L.completion r.reservation.id = none := by
  have hheld := h.held
  rw [if_pos hs] at hheld
  have hmem : r.reservation ∈ L.standing := by
    have : r.reservation ∈ heldOn id L := by rw [hheld]; exact List.mem_singleton_self _
    exact (List.mem_filter.mp this).1
  obtain ⟨hentry, hnone⟩ := Ledger.mem_standing.mp hmem
  exact ⟨hheld, h.sound.find_eq hentry, hnone⟩

/-- The void of a hold's event at version `v`, as the ledger is asked for it. -/
def Hold.voidRequest (r : Hold) (v : Nat) : TransferRequest :=
  (holdVoid r.id r.id r.terms.scope r.terms.user v r.progress.pendingVersion r.remaining).request

/-- The record of that void. -/
def Hold.voidRecord (r : Hold) (v : Nat) : LedgerTransfer :=
  legOf (holdTid r.id HOLD_VOID v) (.scopeClaim r.terms.user r.terms.scope) .holdClearing 0
    .scopeHold r.id

/-- The books after the void of a hold's reservation. -/
def Hold.voided (r : Hold) (v : Nat) (L : Books) : Books :=
  L.push (.voided (r.voidRecord v) r.reservation)

/-- The next version's void takes the standing reservation back, and with it the room it took. -/
theorem HoldApplied.void (h : HoldApplied id r es L) (hs : r.progress.state = .active) {v : Nat}
    (hv : r.progress.version < v) :
    L.check (r.voidRequest v) = .created ∧ L.push (L.entryOf (r.voidRequest v)) = r.voided v L ∧
      (r.remaining : Int) ≤ (r.voided v L).room (.scopeClaim r.terms.user r.terms.scope) := by
  obtain ⟨-, hfind, hnone⟩ := h.standing hs
  have hsalt : HOLD_VOID ∈ HOLD_SALTS := by simp [HOLD_SALTS]
  obtain ⟨hhas, href⟩ := h.fresh v hv HOLD_VOID hsalt
  rw [← h.id_eq] at hhas href
  have hreq : r.voidRequest v = .void r.reservation.id (r.voidRecord v) := rfl
  refine ⟨?_, ?_, ?_⟩
  · have hfresh : L.check (r.voidRequest v) =
        L.checkPending r.reservation.id (r.voidRecord v) true := Ledger.check_fresh hhas href
    rw [hfresh]
    unfold Ledger.checkPending
    rw [hfind]
    exact Ledger.checkCompletion_eq_created rfl rfl (fun hf => nomatch hf) (fun _ => rfl) hnone
  · rw [hreq, Ledger.entryOf_void hfind]
    rfl
  · have hroom := h.sound.room_nonneg (.scopeClaim r.terms.user r.terms.scope)
    have hback : (TwoPhase.Entry.voided (r.voidRecord v) r.reservation : BookEntry).roomOf
        (.scopeClaim r.terms.user r.terms.scope) = r.remaining := by
      unfold TwoPhase.Entry.roomOf TwoPhase.Entry.balanceOf TwoPhase.Entry.postedOn
        TwoPhase.Entry.pendingOn
      simp [TwoPhase.Entry.legs, TwoPhase.Entry.postedAmount, TwoPhase.Entry.pendingAmount,
        Hold.reservation, holdReservation, legOf, LedgerAccountKey.normal]
    unfold Hold.voided
    rw [Ledger.room_push, hback]
    omega

/-- The books that differ from `L` only under ids of the version after `r`. -/
structure NextVersion (id : Uuid) (r : Hold) (L L' : Books) : Prop where
  sound : L'.Sound
  find : ∀ i, (∀ salt ∈ HOLD_SALTS, i ≠ holdTid id salt (r.progress.version + 1)) →
    L'.find i = L.find i
  refused : L'.refused = L.refused

/-- Books that took the next version's transfers follow the hold's next state, once its own figures
do. -/
theorem HoldApplied.next {r' : Hold} {e : HoldEvent} {L' : Books} (h : HoldApplied id r es L)
    (hid : r'.id = r.id) (hver : r'.progress.version = r.progress.version + 1) (hvalid : r'.Valid)
    (hL : NextVersion id r L L')
    (hheld : heldOn id L' = if r'.progress.state = .active then [r'.reservation] else [])
    (hcap : capturedOn id L' = r'.progress.captured)
    (hrel : releasedBy id L' e + releasedOn id L es =
      if r'.progress.state = .active then 0 else r'.terms.amount - r'.progress.captured)
    (hland : L'.has (holdEventTid id e) = true) : HoldApplied id r' (e :: es) L' := by
  -- an applied event's id is on the ledger, so it is none of the next version's
  have hold : ∀ e' ∈ es, L'.find (holdEventTid id e') = L.find (holdEventTid id e') := by
    intro e' he'
    refine hL.find _ fun salt hsalt heq => ?_
    have hhas := h.landed e' he'
    rw [heq, (h.fresh _ (Nat.lt_add_one _) salt hsalt).1] at hhas
    cases hhas
  refine ⟨hL.sound, hid.trans h.id_eq, hvalid, hheld, hcap, ?_, ?_, ?_⟩
  · rw [← hrel, ← releasedOn_congr hold]
    rfl
  · intro e' he'
    rcases List.mem_cons.mp he' with rfl | he'
    · exact hland
    · unfold Ledger.has
      rw [hold e' he']
      exact h.landed e' he'
  · intro v hv salt hsalt
    obtain ⟨hhas, href⟩ := h.fresh v (by omega) salt hsalt
    have hfind := hL.find (holdTid id salt v) fun salt' hsalt' =>
      holdTid_ne_of_version hsalt hsalt' (by omega)
    refine ⟨?_, hL.refused ▸ href⟩
    unfold Ledger.has
    rw [hfind]
    exact hhas

/-- One more transfer under an id of the next version. -/
theorem NextVersion.push {L' : Books} (h : NextVersion id r L L') {q : TransferRequest}
    (hc : L'.check q = .created)
    (hid : ∃ salt ∈ HOLD_SALTS, q.id = holdTid id salt (r.progress.version + 1)) :
    NextVersion id r L (L'.push (L'.entryOf q)) := by
  have hentry : (L'.entryOf q).id = q.id := by cases q <;> rfl
  obtain ⟨salt, hsalt, hq⟩ := hid
  refine ⟨h.sound.push (Ledger.accepts_of_check hc), fun i hi => ?_, h.refused⟩
  rw [Ledger.find_push, hentry, hq, if_neg (hi salt hsalt).symm, h.find i hi]

/-- The void of the next version, pushed. -/
theorem HoldApplied.nextVersion_voided (h : HoldApplied id r es L)
    (hs : r.progress.state = .active) :
    NextVersion id r L (r.voided (r.progress.version + 1) L) := by
  obtain ⟨hc, hpush, -⟩ := h.void hs (Nat.lt_add_one _)
  have hrefl : NextVersion id r L L := ⟨h.sound, fun _ _ => rfl, rfl⟩
  rw [← hpush]
  exact hrefl.push hc ⟨HOLD_VOID, by simp [HOLD_SALTS], congrArg (holdTid · _ _) h.id_eq⟩

/-- After the void the hold has no reservation. -/
theorem HoldApplied.heldOn_voided (h : HoldApplied id r es L) (hs : r.progress.state = .active)
    (v : Nat) : heldOn id (r.voided v L) = [] := by
  unfold Hold.voided
  rw [heldOn_push_completion id L (i := r.reservation.id) rfl, (h.standing hs).1]
  simp

/-- **A release applies**: it voids the standing reservation, and nothing is reserved after it. -/
theorem HoldApplied.release (h : HoldApplied id r es L) (hs : r.progress.state = .active)
    {state : HoldState} (hstate : state = .voided ∨ state = .expired) {call : LedgerCall}
    (hcall : (planHold id id (r.release state).2).action.call? = some call) :
    call.run L = (.ok (), r.voided (r.progress.version + 1) L) ∧
      HoldApplied id (r.release state).1 ((r.release state).2 :: es)
        (r.voided (r.progress.version + 1) L) := by
  obtain rfl := h.id_eq
  obtain ⟨hc, hpush, -⟩ := h.void hs (Nat.lt_add_one _)
  have hne : state ≠ .active := by rcases hstate with rfl | rfl <;> exact fun hc => nomatch hc
  have hreq : call.requests = [r.voidRequest (r.progress.version + 1)] := by
    cases hcall
    rfl
  have hfind : (r.voided (r.progress.version + 1) L).find
      (holdTid r.id HOLD_VOID (r.progress.version + 1)) =
        some (.voided (r.voidRecord (r.progress.version + 1)) r.reservation) := by
    unfold Hold.voided
    rw [Ledger.find_push]
    exact if_pos rfl
  refine ⟨LedgerCall.run_landed ?_, h.next rfl rfl ?_ (h.nextVersion_voided hs) ?_ ?_ ?_ ?_⟩
  · rw [hreq]
    exact Ledger.runLinked_cons hc (by rw [hpush]; rfl)
  · exact ⟨h.valid.captured_le, fun hc => absurd hc hne, Nat.le_succ_of_le h.valid.pending_le⟩
  · rw [h.heldOn_voided hs]
    exact (if_neg hne).symm
  · unfold Hold.voided
    rw [capturedOn_push, h.captured]
    exact Nat.zero_add _
  · have hback : releasedBy r.id (r.voided (r.progress.version + 1) L) (r.release state).2 =
        r.remaining := by
      simp only [Hold.release, releasedBy, hfind]
      rfl
    rw [hback, h.released, if_pos hs, Hold.remaining_active hs]
    exact (if_neg hne).symm
  · exact Ledger.has_of_find hfind

/-- The record of a capture at version `v`. -/
def Hold.captureRecord (r : Hold) (v amount : Nat) (target : HoldDestination) : LedgerTransfer :=
  legOf (holdTid r.id HOLD_CAPTURE v) (.scopeClaim r.terms.user r.terms.scope)
    (captureKey r.terms.scope target) amount .scopeHold r.id

/-- The books after the void and the post of a capture. -/
def Hold.posted (r : Hold) (v amount : Nat) (target : HoldDestination) (L : Books) : Books :=
  (r.voided v L).push (.posted (r.captureRecord v amount target))

/-- The books after a capture: where something is left, it is reserved again. -/
def Hold.capturedBooks (r : Hold) (v amount : Nat) (target : HoldDestination) (L : Books) : Books :=
  if amount = r.remaining then r.posted v amount target L
  else
    (r.posted v amount target L).push (.pending (holdReservation r.id r.id r.terms.scope
      r.terms.user v (r.remaining - amount)))

/-- The hold after a capture. -/
def Hold.capturedNext (r : Hold) (amount : Nat) : Hold :=
  { r with progress :=
    { captured := r.progress.captured + amount
      state := if amount = r.remaining then .captured else .active
      version := r.progress.version + 1
      pendingVersion :=
        if amount = r.remaining then r.progress.pendingVersion else r.progress.version + 1 } }

/-- A capture's destination is another account than the compartment it is taken from. -/
theorem captureKey_ne (scope : ScopeId) {user : UserId} {target : HoldDestination}
    (ht : target ≠ .user user) : captureKey scope target ≠ .scopeClaim user scope := by
  cases target with
  | account label => exact fun he => nomatch he
  | user other =>
      intro he
      rw [captureKey, LedgerAccountKey.scopeClaim.injEq] at he
      exact ht (by rw [he.1])

section Capture

variable {amount : Nat} {target : HoldDestination}

/-- The post of a capture is accepted after the void, and leaves room for the rest. -/
theorem HoldApplied.post (h : HoldApplied id r es L) (hs : r.progress.state = .active)
    (ht : target ≠ .user r.terms.user) (hpos : 0 < amount) (hle : amount ≤ r.remaining) :
    (r.voided (r.progress.version + 1) L).check
        (.post (r.captureRecord (r.progress.version + 1) amount target)) = .created ∧
      ((r.remaining - amount : Nat) : Int) ≤ (r.posted (r.progress.version + 1) amount target L).room
        (.scopeClaim r.terms.user r.terms.scope) := by
  obtain ⟨-, -, hroom⟩ := h.void hs (Nat.lt_add_one _)
  have hne := captureKey_ne r.terms.scope ht
  obtain ⟨hhas, href⟩ := h.fresh _ (Nat.lt_add_one _) HOLD_CAPTURE (by simp [HOLD_SALTS])
  rw [← h.id_eq] at hhas href
  have hfree : (r.voided (r.progress.version + 1) L).has
      (holdTid r.id HOLD_CAPTURE (r.progress.version + 1)) = false := by
    unfold Hold.voided
    rw [Ledger.has_push, hhas, Bool.or_false, decide_eq_false_iff_not]
    exact holdTid_ne_of_salt (by decide)
  refine ⟨?_, ?_⟩
  · refine (Ledger.check_fresh hfree href).trans (Ledger.checkTransfer_eq_created hne.symm hpos ?_
      (fun _ => (Int.ofNat_le.mpr hle).trans hroom) fun hd => ?_)
    · show (LedgerAccountKey.scopeClaim r.terms.user r.terms.scope).ledger.id =
        (captureKey r.terms.scope target).ledger.id
      cases target <;> rfl
    · cases target <;> cases hd
  · have htaken : (TwoPhase.Entry.posted (r.captureRecord (r.progress.version + 1) amount target) :
        BookEntry).roomOf (.scopeClaim r.terms.user r.terms.scope) = -amount := by
      unfold TwoPhase.Entry.roomOf TwoPhase.Entry.balanceOf TwoPhase.Entry.postedOn
        TwoPhase.Entry.pendingOn
      simp [TwoPhase.Entry.legs, TwoPhase.Entry.postedAmount, TwoPhase.Entry.pendingAmount,
        Hold.captureRecord, legOf, LedgerAccountKey.normal, hne]
    unfold Hold.posted
    rw [Ledger.room_push, htaken]
    omega

/-- The void and the post of a capture, pushed. -/
theorem HoldApplied.nextVersion_posted (h : HoldApplied id r es L)
    (hs : r.progress.state = .active) (ht : target ≠ .user r.terms.user) (hpos : 0 < amount)
    (hle : amount ≤ r.remaining) :
    NextVersion id r L (r.posted (r.progress.version + 1) amount target L) :=
  (h.nextVersion_voided hs).push (h.post hs ht hpos hle).1
    ⟨HOLD_CAPTURE, by simp [HOLD_SALTS], congrArg (holdTid · _ _) h.id_eq⟩

/-- After the post the hold has no reservation. -/
theorem HoldApplied.heldOn_posted (h : HoldApplied id r es L) (hs : r.progress.state = .active)
    (v : Nat) : heldOn id (r.posted v amount target L) = [] := by
  unfold Hold.posted
  rw [heldOn_push_posted]
  exact h.heldOn_voided hs v

/-- The rest of a capture can be reserved again. -/
theorem HoldApplied.reserve (h : HoldApplied id r es L) (hs : r.progress.state = .active)
    (ht : target ≠ .user r.terms.user) (hpos : 0 < amount) (hle : amount ≤ r.remaining)
    (hrest : amount ≠ r.remaining) :
    (r.posted (r.progress.version + 1) amount target L).check
      (.reserve (holdReservation r.id r.id r.terms.scope r.terms.user (r.progress.version + 1)
        (r.remaining - amount))) = .created := by
  obtain ⟨hhas, href⟩ := h.fresh _ (Nat.lt_add_one _) HOLD_PENDING (by simp [HOLD_SALTS])
  rw [← h.id_eq] at hhas href
  have hfree : (r.posted (r.progress.version + 1) amount target L).has
      (holdTid r.id HOLD_PENDING (r.progress.version + 1)) = false := by
    have hvoid : holdTid r.id HOLD_VOID (r.progress.version + 1) ≠
        holdTid r.id HOLD_PENDING (r.progress.version + 1) := holdTid_ne_of_salt (by decide)
    have hcapture : holdTid r.id HOLD_CAPTURE (r.progress.version + 1) ≠
        holdTid r.id HOLD_PENDING (r.progress.version + 1) := holdTid_ne_of_salt (by decide)
    unfold Hold.posted Hold.voided
    rw [Ledger.has_push, Ledger.has_push, hhas, Bool.or_false, Bool.or_eq_false_iff,
      decide_eq_false_iff_not, decide_eq_false_iff_not]
    exact ⟨hcapture, hvoid⟩
  refine (Ledger.check_fresh hfree href).trans (Ledger.checkTransfer_eq_created ?_ ?_ rfl
    (fun _ => (h.post hs ht hpos hle).2) fun hd => nomatch hd)
  · exact fun he => nomatch he
  · show 0 < r.remaining - amount
    omega

/-- What a capture submits. -/
theorem requests_captured {v : Nat} {call : LedgerCall}
    (hcall : (planHold id id (.captured id r.terms.scope r.terms.user v
      r.progress.pendingVersion r.remaining amount target)).action.call? = some call)
    (hid : r.id = id) (hle : amount ≤ r.remaining) :
    call.requests = [r.voidRequest v, .post (r.captureRecord v amount target)] ++
      if amount = r.remaining then []
      else [.reserve (holdReservation r.id r.id r.terms.scope r.terms.user v
        (r.remaining - amount))] := by
  subst hid
  have hzero : r.remaining - amount = 0 ↔ amount = r.remaining := by omega
  cases hcall
  simp only [LedgerCall.requests, List.map_append, hzero]
  split <;> rfl

/-- **A capture applies**: it voids the standing reservation, posts what it captures and reserves
what is left, and the ledger has followed the hold. -/
theorem HoldApplied.capture (h : HoldApplied id r es L) (hs : r.progress.state = .active)
    (ht : target ≠ .user r.terms.user) (hpos : 0 < amount) (hle : amount ≤ r.remaining)
    (hvalid : (r.capturedNext amount).Valid) {call : LedgerCall}
    (hcall : (planHold id id (.captured id r.terms.scope r.terms.user (r.progress.version + 1)
      r.progress.pendingVersion r.remaining amount target)).action.call? = some call) :
    call.run L = (.ok (), r.capturedBooks (r.progress.version + 1) amount target L) ∧
      HoldApplied id (r.capturedNext amount)
        (.captured id r.terms.scope r.terms.user (r.progress.version + 1)
          r.progress.pendingVersion r.remaining amount target :: es)
        (r.capturedBooks (r.progress.version + 1) amount target L) := by
  obtain ⟨hvoid, hpush, -⟩ := h.void hs (Nat.lt_add_one _)
  obtain ⟨hpost, -⟩ := h.post hs ht hpos hle
  have hnext := h.nextVersion_posted hs ht hpos hle
  have hcaptured : capturedOn id (r.posted (r.progress.version + 1) amount target L) =
      r.progress.captured + amount := by
    unfold Hold.posted Hold.voided
    rw [capturedOn_push, capturedOn_push, h.captured]
    simp only [capturedBy, Hold.captureRecord, legOf, h.id_eq, if_true]
    omega
  have hhas : (r.posted (r.progress.version + 1) amount target L).has
      (holdTid id HOLD_VOID (r.progress.version + 1)) = true := by
    unfold Hold.posted Hold.voided
    rw [Ledger.has_push, Ledger.has_push]
    have hid : (TwoPhase.Entry.voided (r.voidRecord (r.progress.version + 1)) r.reservation :
        BookEntry).id = holdTid id HOLD_VOID (r.progress.version + 1) :=
      congrArg (holdTid · _ _) h.id_eq
    simp [hid]
  have hrequests := requests_captured hcall h.id_eq hle
  by_cases hall : amount = r.remaining
  · have hbooks : r.capturedBooks (r.progress.version + 1) amount target L =
        r.posted (r.progress.version + 1) amount target L := if_pos hall
    have hstate : (r.capturedNext amount).progress.state ≠ .active := by
      simp [Hold.capturedNext, hall]
    rw [hbooks]
    refine ⟨LedgerCall.run_landed ?_, h.next rfl rfl hvalid hnext ?_ hcaptured ?_ hhas⟩
    · rw [hrequests, if_pos hall]
      refine Ledger.runLinked_cons hvoid ?_
      rw [hpush]
      exact Ledger.runLinked_cons hpost rfl
    · rw [if_neg hstate]
      exact h.heldOn_posted hs _
    · rw [if_neg hstate, h.released, if_pos hs]
      rw [Hold.remaining_active hs] at hall
      show 0 + 0 = r.terms.amount - (r.progress.captured + amount)
      have := h.valid.captured_le
      omega
  · have hreserve := h.reserve hs ht hpos hle hall
    have hbooks : r.capturedBooks (r.progress.version + 1) amount target L =
        (r.posted (r.progress.version + 1) amount target L).push
          (.pending (holdReservation r.id r.id r.terms.scope r.terms.user (r.progress.version + 1)
            (r.remaining - amount))) := if_neg hall
    have hstate : (r.capturedNext amount).progress.state = .active := by
      simp [Hold.capturedNext, hall]
    have hres : (r.capturedNext amount).reservation = holdReservation r.id r.id r.terms.scope
        r.terms.user (r.progress.version + 1) (r.remaining - amount) := by
      have hrem : (r.capturedNext amount).remaining = r.remaining - amount := by
        rw [Hold.remaining_active hstate, Hold.remaining_active hs]
        show r.terms.amount - (r.progress.captured + amount) = _
        omega
      unfold Hold.reservation
      rw [hrem]
      simp [Hold.capturedNext, hall]
    rw [hbooks]
    refine ⟨LedgerCall.run_landed ?_, h.next rfl rfl hvalid (hnext.push hreserve ?_) ?_ ?_ ?_ ?_⟩
    · rw [hrequests, if_neg hall]
      refine Ledger.runLinked_cons hvoid ?_
      rw [hpush]
      exact Ledger.runLinked_cons hpost (Ledger.runLinked_cons hreserve rfl)
    · exact ⟨HOLD_PENDING, by simp [HOLD_SALTS], congrArg (holdTid · _ _) h.id_eq⟩
    · have hpend := heldOn_push_pending id hnext.sound (Ledger.fresh_of_check hreserve).1
      rw [if_pos hstate, hres, ← h.heldOn_posted hs (r.progress.version + 1)]
      exact hpend.trans (if_pos h.id_eq)
    · rw [capturedOn_push, hcaptured]
      exact Nat.zero_add _
    · rw [if_pos hstate, h.released, if_pos hs]
      rfl
    · rw [Ledger.has_push]
      exact Bool.or_eq_true_iff.mpr (.inr hhas)

/-- **A capture frees nothing**: the user's available balance after it is no more than before. -/
theorem HoldApplied.capture_available (h : HoldApplied id r es L)
    (ht : target ≠ .user r.terms.user) (hle : amount ≤ r.remaining)
    (hsound : (r.capturedBooks (r.progress.version + 1) amount target L).Sound) :
    ∃ b b', balanceOf (.scopeClaim r.terms.user r.terms.scope) L = .ok b ∧
      balanceOf (.scopeClaim r.terms.user r.terms.scope)
        (r.capturedBooks (r.progress.version + 1) amount target L) = .ok b' ∧
      b'.available ≤ b.available := by
  refine ⟨_, _, balanceOf_sound h.sound _, balanceOf_sound hsound _, ?_⟩
  have hne := captureKey_ne r.terms.scope ht
  have hclear : LedgerAccountKey.holdClearing ≠ .scopeClaim r.terms.user r.terms.scope :=
    fun he => nomatch he
  -- the void takes `remaining` off what is pending, the post and the reserve put it back as what
  -- is gone and what is pending
  by_cases hall : amount = r.remaining <;>
    simp only [Hold.capturedBooks, hall, if_true, if_false, Hold.posted, Hold.voided,
      Ledger.posted_push, Ledger.pending_push, TwoPhase.Entry.postedOn, TwoPhase.Entry.pendingOn,
      TwoPhase.Entry.legs, TwoPhase.Entry.postedAmount, TwoPhase.Entry.pendingAmount,
      TwoPhase.Transfer.on_debit, TwoPhase.Transfer.on_credit, LedgerAccountKey.normal,
      TwoPhase.Side.flip_credit, Hold.captureRecord, Hold.reservation, holdReservation, legOf, hne,
      hclear, LedgerBalance.available] <;>
    omega

end Capture

end Step

end Banking
