import Banking.HoldChain

/-! # Runs of a hold

A hold's commands, the in-order relay of its events with redeliveries, and everything the other
rows submit meanwhile, in any interleaving. -/

namespace Banking

open TwoPhase (Ledger)

/-! ## The system -/

/-- A hold with the events it raised that wait to be relayed, the events relayed so far (newest
first) and the books. -/
structure HoldSystem where
  hold : Hold
  queue : List HoldEvent
  relayed : List HoldEvent
  books : Books
deriving DecidableEq, Repr

/-- Nothing on the ledger is the hold's, and none of its ids was refused. -/
def Untouched (id : Uuid) (L : Books) : Prop :=
  (∀ e ∈ L.entries, e.transfer.tag.reference ≠ id ∧ ∀ salt, e.id ≠ tid id salt) ∧
    ∀ salt, tid id salt ∉ L.refused

/-- **Runs of the hold `id`.** It is placed over any sound books it never touched; then, in any
order: a command is accepted and raises its event; the relay submits the oldest waiting event; an
event already submitted is delivered again; an operation planned for another aggregate's row is
submitted. -/
inductive HoldRun (id : Uuid) : HoldSystem → Prop
  | place {terms : HoldTerms} {hold : Hold} {e : HoldEvent} {L : Books} :
      Hold.place id terms = .ok (hold, e) → L.Sound → Untouched id L →
      HoldRun id ⟨hold, [e], [], L⟩
  | command {s : HoldSystem} {c : HoldCommand} {hold : Hold} {e : HoldEvent} :
      HoldRun id s → s.hold.apply c = some (hold, e) →
      HoldRun id { s with hold, queue := s.queue ++ [e] }
  | relay {s : HoldSystem} {e : HoldEvent} {queue : List HoldEvent} {call : LedgerCall} :
      HoldRun id s → s.queue = e :: queue → (planHold id id e).action.call? = some call →
      HoldRun id { s with queue, relayed := e :: s.relayed, books := (call.run s.books).2 }
  | redeliver {s : HoldSystem} {e : HoldEvent} {call : LedgerCall} :
      HoldRun id s → e ∈ s.relayed → (planHold id id e).action.call? = some call →
      HoldRun id { s with books := (call.run s.books).2 }
  | other {s : HoldSystem} {row : OutboxRow} {ops : List PlannedOp} {op : PlannedOp}
      {call : LedgerCall} :
      HoldRun id s → row.aggregateId ≠ id → (∀ salt, row.eventId ≠ tid id salt) →
      plan row = .ok ops → op ∈ ops → op.action.call? = some call →
      HoldRun id { s with books := (call.run s.books).2 }

/-! ## Before the placement applies, and when it is refused -/

/-- Nothing of the hold's is on the ledger. -/
structure HoldAbsent (id : Uuid) (L : Books) : Prop where
  sound : L.Sound
  absent : ∀ salt, L.has (tid id salt) = false
  held : heldOn id L = []
  captured : capturedOn id L = 0

/-- Books the hold never touched hold nothing of it. -/
theorem Untouched.absent {id : Uuid} {L : Books} (hs : L.Sound) (h : Untouched id L) :
    HoldAbsent id L := by
  refine ⟨hs, fun salt => ?_, ?_, ?_⟩
  · by_contra hhas
    obtain ⟨e, he, hid⟩ := Ledger.has_iff.mp (Bool.of_not_eq_false hhas)
    exact (h.1 e he).2 salt hid
  · refine List.filter_eq_nil_iff.mpr fun t ht href => ?_
    exact (h.1 _ (Ledger.mem_standing.mp ht).1).1 (of_decide_eq_true href)
  · refine List.sum_eq_zero fun n hn => ?_
    obtain ⟨e, he, rfl⟩ := List.mem_map.mp hn
    cases e with
    | posted t => exact if_neg (h.1 _ he).1
    | pending | settled | voided => rfl

/-- What the other rows do leaves it so. -/
theorem HoldAbsent.frame {id : Uuid} {L L' : Books} (h : HoldAbsent id L)
    (hL : HoldUnchanged id L L') : HoldAbsent id L' :=
  ⟨hL.sound, fun salt => (hL.has salt).trans (h.absent salt), hL.held.trans h.held,
    hL.captured.trans h.captured⟩

theorem HoldAbsent.refuse {id : Uuid} {L : Books} (h : HoldAbsent id L) (is : List Uuid) :
    HoldAbsent id { L with refused := is } := ⟨h.sound, h.absent, h.held, h.captured⟩

theorem HoldAbsent.own {id : Uuid} {L : Books} (h : HoldAbsent id L) :
    ∀ t ∈ heldOn id L, ∃ salt, t.id = tid id salt := by
  intro t ht
  rw [h.held] at ht
  cases ht

/-- Nothing of an absent hold was released. -/
theorem HoldAbsent.released {id : Uuid} {L : Books} (h : HoldAbsent id L) (es : List HoldEvent) :
    releasedOn id L es = 0 := by
  refine List.sum_eq_zero fun n hn => ?_
  obtain ⟨e, -, rfl⟩ := List.mem_map.mp hn
  cases e with
  | placed | captured => rfl
  | released hid scope user version rel held ex =>
      have hnone : L.find (holdTid id HOLD_VOID version) = none :=
        Ledger.find_none.mpr (h.absent _)
      simp only [releasedBy, hnone]

/-- What a hold's event submits begins with the transfer it is recognized by; unless it places the
hold, that is a void of a reservation of the hold's. -/
theorem holdRequests_head {id : Uuid} {e : HoldEvent} {call : LedgerCall}
    (hcall : (planHold id id e).action.call? = some call) :
    ∃ q qs, call.requests = q :: qs ∧ q.id = holdEventTid id e ∧
      ((∃ h sc u n v, e = .placed h sc u n v) ∨ ∃ salt, q.completes = some (tid id salt)) := by
  cases e with
  | placed h sc u n v =>
      cases hcall
      exact ⟨_, _, rfl, rfl, .inl ⟨h, sc, u, n, v, rfl⟩⟩
  | captured | released =>
      cases hcall
      exact ⟨_, _, rfl, rfl, .inr ⟨_, rfl⟩⟩

/-- **Without its placement a chain does nothing**: the ledger refuses whatever voids a reservation
that never stood. -/
theorem HoldAbsent.run {id : Uuid} {L : Books} (h : HoldAbsent id L) {e : HoldEvent}
    {call : LedgerCall} (hcall : (planHold id id e).action.call? = some call)
    (hspent : (∃ h sc u n v, e = .placed h sc u n v) → holdEventTid id e ∈ L.refused) :
    ∃ is, (call.run L).2 = { L with refused := is } ∧ L.refused ⊆ is := by
  obtain ⟨q, qs, hreq, hid, hplaced | ⟨salt, hvoid⟩⟩ := holdRequests_head hcall
  · have hq : q.id ∈ L.refused := hid ▸ hspent hplaced
    exact ⟨L.refused, LedgerCall.run_spent hreq (.inr hq), List.Subset.refl _⟩
  · have hres := call.run_result L
    generalize call.run L = x at hres ⊢
    cases hres with
    | landed hrun =>
        rw [hreq] at hrun
        obtain ⟨p, hp⟩ := Ledger.pending_of_check (Ledger.of_runLinked_cons hrun).1 hvoid
        have habsent := h.absent salt
        rw [Ledger.has_of_find hp] at habsent
        cases habsent
    | skipped => exact ⟨L.refused, rfl, List.Subset.refl _⟩
    | refused err is his =>
        refine ⟨is, rfl, ?_⟩
        rcases his with rfl | ⟨r, -, rfl⟩
        · exact List.Subset.refl _
        · exact List.subset_cons_self _ _

/-- **The placement applies or is refused for good.** -/
theorem HoldAbsent.place {id : Uuid} {L : Books} (h : HoldAbsent id L)
    (hfree : ∀ salt, tid id salt ∉ L.refused) {terms : HoldTerms} {r : Hold} {e : HoldEvent}
    (hp : Hold.place id terms = .ok (r, e)) {call : LedgerCall}
    (hcall : (planHold id id e).action.call? = some call) :
    HoldApplied id r [e] (call.run L).2 ∨
      (call.run L).2 = { L with refused := holdTid id HOLD_PENDING 1 :: L.refused } := by
  obtain ⟨hpos, rfl, rfl⟩ := Hold.place_ok hp
  cases hcall
  have hcheck : L.check (.reserve (holdReservation id id terms.scope terms.user 1 terms.amount)) =
      L.checkTransfer (holdReservation id id terms.scope terms.user 1 terms.amount) :=
    Ledger.check_fresh (h.absent _) (hfree _)
  by_cases hroom : (terms.amount : Int) ≤ L.room (.scopeClaim terms.user terms.scope)
  · left
    have hcreated : L.check (.reserve (holdReservation id id terms.scope terms.user 1
        terms.amount)) = .created := by
      refine hcheck.trans (Ledger.checkTransfer_eq_created ?_ hpos rfl (fun _ => hroom)
        fun hd => nomatch hd)
      exact fun he => nomatch he
    have hrun : (LedgerCall.reserve (holdReservation id id terms.scope terms.user 1
        terms.amount)).run L = (.ok (), L.push (.pending (holdReservation id id terms.scope
          terms.user 1 terms.amount))) :=
      LedgerCall.run_landed (Ledger.runLinked_cons hcreated rfl)
    rw [hrun]
    refine ⟨h.sound.push (Ledger.accepts_of_check hcreated), rfl,
      ⟨Nat.zero_le _, fun _ => hpos, Nat.le_refl _⟩, ?_, ?_, rfl, ?_, ?_⟩
    · have hpend := heldOn_push_pending id h.sound
        (t := holdReservation id id terms.scope terms.user 1 terms.amount) (h.absent _)
      rw [h.held] at hpend
      exact hpend.trans (if_pos rfl)
    · rw [capturedOn_push, h.captured]
      rfl
    · intro e' he'
      obtain rfl := List.mem_singleton.mp he'
      rw [Ledger.has_push]
      exact Bool.or_eq_true_iff.mpr (.inl (decide_eq_true rfl))
    · intro v hv salt hsalt
      refine ⟨?_, hfree _⟩
      have hne : holdTid id HOLD_PENDING 1 ≠ holdTid id salt v :=
        holdTid_ne_of_version (by simp) hsalt (Nat.ne_of_lt hv)
      have habsent : L.has (holdTid id salt v) = false := h.absent _
      rw [Ledger.has_push, habsent, Bool.or_false, decide_eq_false_iff_not]
      exact hne
  · right
    have hrefused : L.check (.reserve (holdReservation id id terms.scope terms.user 1
        terms.amount)) = .exceedsCredits := by
      rw [hcheck]
      unfold Ledger.checkTransfer
      rw [if_neg, if_neg, if_neg, if_pos]
      · exact ⟨rfl, not_le.mp hroom⟩
      · exact not_not.mpr rfl
      · exact Nat.ne_of_gt hpos
      · exact fun he => nomatch he
    have hrun : L.runLinked [.reserve (holdReservation id id terms.scope terms.user 1
        terms.amount)] = .error (0, .exceedsCredits, holdTid id HOLD_PENDING 1) := by
      rw [Ledger.runLinked, hrefused]
      rfl
    simp only [LedgerCall.run, LedgerCall.requests, createTransfers, Ledger.createLinked, hrun]
    rfl

/-! ## The invariant -/

/-- Where a run of the hold stands: its placement waits to be relayed, or the ledger has followed
the hold up to the last relayed event, or the placement was refused and nothing is on the ledger. -/
inductive HoldStage (id : Uuid) (s : HoldSystem) (first : Hold) (e : HoldEvent) : Prop
  | waiting (es : List HoldEvent) (hrelayed : s.relayed = []) (hqueue : s.queue = e :: es)
      (htrace : first.Trace es s.hold) (habsent : HoldAbsent id s.books)
      (hfree : ∀ salt, tid id salt ∉ s.books.refused)
  | applied (r : Hold) (es : List HoldEvent) (hrelayed : s.relayed = es ++ [e])
      (hpast : first.Trace es.reverse r) (htrace : r.Trace s.queue s.hold)
      (happlied : HoldApplied id r s.relayed s.books)
  | refused (r : Hold) (es : List HoldEvent) (hrelayed : s.relayed = es ++ [e])
      (hpast : first.Trace es.reverse r) (htrace : r.Trace s.queue s.hold)
      (habsent : HoldAbsent id s.books) (hspent : holdTid id HOLD_PENDING 1 ∈ s.books.refused)

/-- The events of a trace are no placements. -/
theorem Hold.Trace.not_placed {r h : Hold} {es : List HoldEvent} (ht : r.Trace es h) :
    ∀ e ∈ es, ¬ ∃ i sc u n v, e = .placed i sc u n v := by
  induction ht with
  | nil => exact fun _ he => nomatch he
  | cons ha _ ih =>
      intro e he
      rcases List.mem_cons.mp he with rfl | he
      · rintro ⟨i, sc, u, n, v, rfl⟩
        obtain ⟨-, ⟨_, _, -, -, -, hc, -⟩ | ⟨state, -, hr⟩⟩ := Hold.apply_cases ha
        · cases hc
        · cases hr
      · exact ih e he

/-- A placed hold's terms stay its terms. -/
theorem Hold.Trace.terms {r h : Hold} {es : List HoldEvent} (ht : r.Trace es h) :
    h.terms = r.terms := by
  induction ht with
  | nil => rfl
  | cons ha _ ih => exact ih.trans (Hold.apply_version ha).2.1

/-- **One relayed event of an applied chain**: the write succeeds, voids the standing reservation,
and the ledger has followed the hold one event further; a capture frees nothing. -/
theorem HoldApplied.relay {id : Uuid} {r h' : Hold} {es : List HoldEvent} {L : Books}
    (h : HoldApplied id r es L) {c : HoldCommand} {e : HoldEvent} (ha : r.apply c = some (h', e))
    {call : LedgerCall} (hcall : (planHold id id e).action.call? = some call) :
    r.progress.state = .active ∧ ∃ L', call.run L = (.ok (), L') ∧ HoldApplied id h' (e :: es) L' ∧
      (∃ t, t.id = holdTid id HOLD_VOID e.version ∧ .voided t r.reservation ∈ L'.entries) ∧
      ((∃ i sc u v rel held n target, e = .captured i sc u v rel held n target) →
        ∃ b b', balanceOf (.scopeClaim r.terms.user r.terms.scope) L = .ok b ∧
          balanceOf (.scopeClaim r.terms.user r.terms.scope) L' = .ok b' ∧
          b'.available ≤ b.available) := by
  have hvalid := h.valid.apply ha
  obtain rfl := h.id_eq
  obtain ⟨hs, ⟨amount, target, htarget, hpos, hle, rfl, rfl⟩ | ⟨state, hstate, hr⟩⟩ :=
    Hold.apply_cases ha
  · obtain ⟨hrun, hnext⟩ := h.capture hs htarget hpos hle hvalid hcall
    refine ⟨hs, _, hrun, hnext, ⟨r.voidRecord (r.progress.version + 1), rfl, ?_⟩,
      fun _ => h.capture_available htarget hle hnext.sound⟩
    unfold Hold.capturedBooks Hold.posted Hold.voided
    split <;> simp
  · obtain ⟨rfl, rfl⟩ := Prod.mk.inj hr
    obtain ⟨hrun, hnext⟩ := h.release hs hstate hcall
    refine ⟨hs, _, hrun, hnext, ⟨r.voidRecord (r.progress.version + 1), rfl, ?_⟩, ?_⟩
    · exact List.mem_cons_self
    · rintro ⟨i, sc, u, v, rel, held, n, target, he⟩
      cases he

/-- **Every run stands at one of the three stages.** -/
theorem HoldRun.stage {id : Uuid} {s : HoldSystem} (h : HoldRun id s) :
    ∃ terms first e, Hold.place id terms = .ok (first, e) ∧ HoldStage id s first e := by
  induction h with
  | @place terms hold e L hp hs hL =>
      exact ⟨terms, hold, e, hp, .waiting [] rfl rfl (.nil _) (hL.absent hs) hL.2⟩
  | command _ ha ih =>
      obtain ⟨terms, first, e, hp, hstage⟩ := ih
      refine ⟨terms, first, e, hp, ?_⟩
      cases hstage with
      | waiting es hrelayed hqueue htrace habsent hfree =>
          exact .waiting _ hrelayed (by rw [hqueue]; rfl) (htrace.snoc ha) habsent hfree
      | applied r es hrelayed hpast htrace happlied =>
          exact .applied r es hrelayed hpast (htrace.snoc ha) happlied
      | refused r es hrelayed hpast htrace habsent hspent =>
          exact .refused r es hrelayed hpast (htrace.snoc ha) habsent hspent
  | @relay s e' queue call _ hq hcall ih =>
      obtain ⟨terms, first, e, hp, hstage⟩ := ih
      refine ⟨terms, first, e, hp, ?_⟩
      cases hstage with
      | waiting es hrelayed hqueue htrace habsent hfree =>
          obtain ⟨rfl, rfl⟩ := List.cons.inj (hqueue.symm.trans hq)
          have hone : e :: s.relayed = [] ++ [e] := by rw [hrelayed]; rfl
          rcases habsent.place hfree hp hcall with happlied | hrefused
          · exact .applied first [] hone (.nil _) htrace (by rw [hrelayed]; exact happlied)
          · refine .refused first [] hone (.nil _) htrace ?_ ?_
            · rw [hrefused]
              exact habsent.refuse _
            · rw [hrefused]
              exact List.mem_cons_self
      | applied r es hrelayed hpast htrace happlied =>
          rw [hq] at htrace
          cases htrace with
          | @cons _ h₁ _ c _ _ ha hrest =>
              obtain ⟨-, L', hrun, hnext, -⟩ := happlied.relay ha hcall
              refine .applied h₁ (e' :: es) (by rw [hrelayed]; rfl) ?_ hrest ?_
              · rw [List.reverse_cons]
                exact hpast.snoc ha
              · rw [hrun]
                exact hnext
      | refused r es hrelayed hpast htrace habsent hspent =>
          have hnot := htrace.not_placed e' (by rw [hq]; exact List.mem_cons_self)
          rw [hq] at htrace
          cases htrace with
          | @cons _ h₁ _ c _ _ ha hrest =>
              obtain ⟨is, hrun, hsub⟩ := habsent.run hcall fun hpl => absurd hpl hnot
              refine .refused h₁ (e' :: es) (by rw [hrelayed]; rfl) ?_ hrest ?_ ?_
              · rw [List.reverse_cons]
                exact hpast.snoc ha
              · rw [hrun]
                exact habsent.refuse _
              · rw [hrun]
                exact hsub hspent
  | @redeliver s e' call _ hmem hcall ih =>
      obtain ⟨terms, first, e, hp, hstage⟩ := ih
      refine ⟨terms, first, e, hp, ?_⟩
      obtain ⟨q, qs, hreq, hid, -⟩ := holdRequests_head hcall
      cases hstage with
      | waiting es hrelayed hqueue htrace habsent hfree =>
          rw [hrelayed] at hmem
          cases hmem
      | applied r es hrelayed hpast htrace happlied =>
          have hhas := happlied.landed e' hmem
          have hrun := LedgerCall.run_spent hreq (.inl (hid ▸ hhas))
          refine .applied r es hrelayed hpast htrace ?_
          rw [hrun]
          exact happlied
      | refused r es hrelayed hpast htrace habsent hspent =>
          have hplaced : (∃ i sc u n v, e' = .placed i sc u n v) →
              holdEventTid id e' ∈ s.books.refused := by
            intro hpl
            rw [hrelayed] at hmem
            rcases List.mem_append.mp hmem with hmem | hmem
            · exact absurd hpl (hpast.not_placed e' (List.mem_reverse.mpr hmem))
            · obtain rfl := List.mem_singleton.mp hmem
              obtain ⟨-, -, rfl⟩ := Hold.place_ok hp
              exact hspent
          obtain ⟨is, hrun, hsub⟩ := habsent.run hcall hplaced
          refine .refused r es hrelayed hpast htrace ?_ ?_
          · rw [hrun]
            exact habsent.refuse _
          · rw [hrun]
            exact hsub hspent
  | @other s row ops op call _ hagg hev hplan hop hcall ih =>
      obtain ⟨terms, first, e, hp, hstage⟩ := ih
      refine ⟨terms, first, e, hp, ?_⟩
      have hforeign : ∀ r ∈ call.requests, HoldForeign id r := by
        intro r hr
        have hmem : r ∈ op.requests := by
          unfold PlannedOp.requests
          rw [hcall]
          exact hr
        exact (plan_owned hplan op hop r hmem).foreign hagg hev
      cases hstage with
      | waiting es hrelayed hqueue htrace habsent hfree =>
          have hsame := HoldUnchanged.run habsent.sound habsent.own hforeign
          exact .waiting es hrelayed hqueue htrace (habsent.frame hsame)
            fun salt hmem => hfree salt ((hsame.refused salt).mp hmem)
      | applied r es hrelayed hpast htrace happlied =>
          have hsame := HoldUnchanged.run happlied.sound happlied.own hforeign
          exact .applied r es hrelayed hpast htrace (happlied.frame hsame)
      | refused r es hrelayed hpast htrace habsent hspent =>
          have hsame := HoldUnchanged.run habsent.sound habsent.own hforeign
          exact .refused r es hrelayed hpast htrace (habsent.frame hsame)
            ((hsame.refused _).mpr hspent)

/-! ## The hold chain against the ledger -/

/-- Two traces, one after the other. -/
theorem Hold.Trace.append {r h h' : Hold} {es es' : List HoldEvent} (ht : r.Trace es h)
    (ht' : h.Trace es' h') : r.Trace (es ++ es') h' := by
  induction ht with
  | nil => exact ht'
  | cons ha _ ih => exact .cons ha (ih ht')

/-- All transfer ids of a placed hold's chain are distinct. -/
theorem Hold.chain_nodup {id : Uuid} {terms : HoldTerms} {first h : Hold} {e : HoldEvent}
    {es : List HoldEvent} (hp : Hold.place id terms = .ok (first, e)) (ht : first.Trace es h) :
    ((e :: es).flatMap fun e => (holdRequests id e).map TwoPhase.Request.id).Nodup := by
  obtain ⟨-, rfl, rfl⟩ := Hold.place_ok hp
  obtain ⟨hnodup, hlater⟩ := ht.ids id
  rw [List.flatMap_cons, List.nodup_append]
  refine ⟨holdRequests_nodup id _, hnodup, ?_⟩
  intro i hi j hj
  obtain ⟨q, hq, rfl⟩ := List.mem_map.mp hi
  obtain ⟨e', he', hj⟩ := List.mem_flatMap.mp hj
  obtain ⟨q', hq', rfl⟩ := List.mem_map.mp hj
  obtain ⟨salt, hs, hid⟩ := holdRequests_id hq
  obtain ⟨salt', hs', hid'⟩ := holdRequests_id hq'
  rw [hid, hid']
  exact holdTid_ne_of_version hs hs' (Nat.ne_of_lt (hlater e' he'))

/-- What was captured, what was released and what stands add up to what was held. -/
theorem HoldApplied.total {id : Uuid} {r : Hold} {es : List HoldEvent} {L : Books}
    (h : HoldApplied id r es L) :
    capturedOn id L + releasedOn id L es + ((heldOn id L).map (·.amount)).sum =
      r.terms.amount := by
  have hle := h.valid.captured_le
  rw [h.captured, h.released, h.held]
  by_cases hs : r.progress.state = .active
  · have hamount : r.reservation.amount = r.remaining := rfl
    have hsum : ([r.reservation].map (·.amount)).sum = r.remaining := by simp [hamount]
    rw [if_pos hs, if_pos hs, hsum, Hold.remaining_active hs]
    omega
  · rw [if_neg hs, if_neg hs, List.map_nil, List.sum_nil]
    omega

/-- **The hold chain against the ledger.** In every state of every run: all transfer ids of the
chain are distinct. Once the placement is on the ledger, what was captured, what was released and
what is still pending add up to the held amount, and with `r` the hold as of the last relayed event,
exactly one reservation stands, of what `r` has left, while `r` is active, and none once it is not;
the next event's write succeeds and voids that reservation, and a capture leaves the user no more
available than before. While the placement is not on the ledger nothing of the hold is, and an event
relayed after a refused placement moves nothing. -/
theorem hold_chain {id : Uuid} {s : HoldSystem} (h : HoldRun id s) :
    ((s.relayed.reverse ++ s.queue).flatMap fun e =>
      (holdRequests id e).map TwoPhase.Request.id).Nodup ∧
    (s.books.has (holdTid id HOLD_PENDING 1) = true →
      capturedOn id s.books + releasedOn id s.books s.relayed +
        ((heldOn id s.books).map (·.amount)).sum = s.hold.terms.amount ∧
      ∃ first e es r, Hold.place id s.hold.terms = .ok (first, e) ∧
        s.relayed.reverse = e :: es ∧ first.Trace es r ∧ r.Trace s.queue s.hold ∧
        capturedOn id s.books = r.progress.captured ∧
        heldOn id s.books = (if r.progress.state = .active then [r.reservation] else []) ∧
        (r.progress.state = .active → 0 < r.remaining) ∧
        ∀ e queue call, s.queue = e :: queue → (planHold id id e).action.call? = some call →
          r.progress.state = .active ∧ ∃ L', call.run s.books = (.ok (), L') ∧
            (∃ t, t.id = holdTid id HOLD_VOID e.version ∧
              .voided t r.reservation ∈ L'.entries) ∧
            ((∃ i sc u v rel held n target, e = .captured i sc u v rel held n target) →
              ∃ b b', balanceOf (.scopeClaim r.terms.user r.terms.scope) s.books = .ok b ∧
                balanceOf (.scopeClaim r.terms.user r.terms.scope) L' = .ok b' ∧
                b'.available ≤ b.available)) ∧
    (s.books.has (holdTid id HOLD_PENDING 1) = false →
      capturedOn id s.books = 0 ∧ heldOn id s.books = [] ∧
      releasedOn id s.books s.relayed = 0 ∧
      ∀ e queue call, s.relayed ≠ [] → s.queue = e :: queue →
        (planHold id id e).action.call? = some call →
        (call.run s.books).2.entries = s.books.entries) := by
  obtain ⟨terms, first, e, hp, hstage⟩ := h.stage
  cases hstage with
  | waiting es hrelayed hqueue htrace habsent hfree =>
      have hnone : s.books.has (holdTid id HOLD_PENDING 1) = false := habsent.absent _
      refine ⟨?_, fun hhas => absurd (hnone.symm.trans hhas) (by decide), fun _ =>
        ⟨habsent.captured, habsent.held, habsent.released _, fun _ _ _ hne => ?_⟩⟩
      · rw [hrelayed, hqueue]
        exact Hold.chain_nodup hp htrace
      · exact absurd hrelayed hne
  | applied r es hrelayed hpast htrace happlied =>
      have hrev : s.relayed.reverse = e :: es.reverse := by rw [hrelayed]; simp
      have hterms : first.terms = terms := by
        obtain ⟨-, rfl, -⟩ := Hold.place_ok hp
        rfl
      have hhas : s.books.has (holdTid id HOLD_PENDING 1) = true := by
        have hland := happlied.landed e (by rw [hrelayed]; simp)
        obtain ⟨-, -, rfl⟩ := Hold.place_ok hp
        exact hland
      refine ⟨?_, fun _ => ⟨?_, first, e, es.reverse, r, ?_, hrev, hpast, htrace,
        happlied.captured, happlied.held, ?_, ?_⟩, fun hnone => absurd (hnone.symm.trans hhas)
          (by decide)⟩
      · rw [hrev]
        exact Hold.chain_nodup hp (hpast.append htrace)
      · rw [htrace.terms]
        exact happlied.total
      · rw [htrace.terms, hpast.terms, hterms]
        exact hp
      · intro hs
        have := happlied.valid.remaining_pos hs
        rw [Hold.remaining_active hs]
        omega
      · intro e' queue call hq hcall
        rw [hq] at htrace
        cases htrace with
        | cons ha _ =>
            obtain ⟨hs, L', hrun, -, hvoid, hfree⟩ := happlied.relay ha hcall
            exact ⟨hs, L', hrun, hvoid, hfree⟩
  | refused r es hrelayed hpast htrace habsent hspent =>
      have hrev : s.relayed.reverse = e :: es.reverse := by rw [hrelayed]; simp
      have hnone : s.books.has (holdTid id HOLD_PENDING 1) = false := habsent.absent _
      refine ⟨?_, fun hhas => absurd (hnone.symm.trans hhas) (by decide), fun _ =>
        ⟨habsent.captured, habsent.held, habsent.released _, ?_⟩⟩
      · rw [hrev]
        exact Hold.chain_nodup hp (hpast.append htrace)
      · intro e' queue call _ hq hcall
        have hnot := htrace.not_placed e' (by rw [hq]; exact List.mem_cons_self)
        obtain ⟨is, hrun, -⟩ := habsent.run hcall fun hpl => absurd hpl hnot
        rw [hrun]

/-- A hold of 10 in a compartment funded by a deposit and a move, placed, relayed and captured by 4
with the capture still to be relayed: what stands is the whole 10. -/
theorem hold_chain_sample : ∃ s, HoldRun (.raw 5) s ∧ s.queue ≠ [] ∧
    capturedOn (.raw 5) s.books + releasedOn (.raw 5) s.books s.relayed +
      ((heldOn (.raw 5) s.books).map (·.amount)).sum = 10 := by
  have hterms : Hold.place (.raw 5) ⟨⟨"shop"⟩, .raw 7, 10, none⟩ = .ok (_, _) := rfl
  have hfresh : Untouched (.raw 5) Ledger.empty :=
    ⟨fun _ he => (nomatch he), fun _ he => nomatch he⟩
  have hdeposit : plan ⟨1, .raw 1, .raw 2,
    .balance (.deposited (.user (.raw 7)) .bep20 10), 0⟩ = .ok _ := rfl
  have hmove : plan ⟨2, .raw 3, .raw 4,
    .compartments (.moved (.raw 7) .main (.scope ⟨"shop"⟩) 10), 0⟩ = .ok _ := rfl
  have hplaced := HoldRun.place hterms Ledger.Sound.empty hfresh
  have hpaid := hplaced.other (by decide) (fun salt => (tid_ne_raw _ salt 1).symm) hdeposit
    (List.mem_singleton_self _) rfl
  have hmoved := hpaid.other (by decide) (fun salt => (tid_ne_raw _ salt 3).symm) hmove
    (List.mem_singleton_self _) rfl
  have hrelayed := hmoved.relay rfl rfl
  have hcaptured := hrelayed.command
    (rfl : Hold.apply _ (.capture (some 4) (.account ⟨"fee"⟩) 0) = some (_, _))
  exact ⟨_, hcaptured, by decide, ((hold_chain hcaptured).2.1 (by decide)).1⟩

end Banking