import Mathlib.Data.List.TakeWhile
import Banking.ConsiliumRuns
import Banking.ConsiliumStore

/-! # The submission gate

What a seat's token and code can do, over every sequence of submissions and of the other changes of
one consilium, the owners' standing anything at each of them. A seat's code is compared at most five
times before it is first right, and each wrong one is on record; no answer is recorded from a burned
or expired seat or in a closed consilium; a repeat changes nothing.

A vote counts only while its caster is an owner, except in the submission that casts it: the gate
does not read the caster's own standing. `submission_gate` says when that lets a lost seat carry a
consilium. -/

namespace Banking

/-! ## Steps and what they show -/

/-- What a run of changes shows. -/
inductive VoteFact
  /-- A code presented for a voter's seat was compared. -/
  | compared (voter : UserId) (correct : Bool)
  /-- A seat's answer changed, in a consilium in `state`. -/
  | recorded (seat answered : VoterSeat) (state : ConsiliumState)
  /-- A consilium was carried, with `live` approvals by those who are owners at that moment. -/
  | carried (live threshold : Nat)

/-- One change of a stored consilium, and the users as it reads them. -/
inductive StoreStep
  | submit (standings : Standings) (sub : Submission)
  | cancel (standings : Standings) (caller : UserId) (time : Int)
  | expire (standings : Standings) (time : Int)
  | void (standings : Standings) (time : Int)
  | record (standings : Standings) (outcome : ExecutionOutcome)

/-- The users as a change reads them. -/
def StoreStep.standings : StoreStep → Standings
  | .submit standings _ | .cancel standings .. | .expire standings _ | .void standings _
  | .record standings _ => standings

section Runs

variable (digest : String → List UInt8)

/-- Carry a change out. -/
def StoreStep.run : StoreStep → StoredConsilium → StoredConsilium
  | .submit standings sub, s => (s.submit digest standings sub).stored
  | .cancel standings caller time, s => (s.cancel standings caller time).2
  | .expire standings time, s => (s.expireOne standings time).2
  | .void standings time, s => (s.voidOne standings time).2
  | .record standings outcome, s => (s.recordExecution standings outcome).2

/-- The comparison a change came to. -/
def StoreStep.comparison : StoreStep → StoredConsilium → List VoteFact
  | .submit standings sub, s =>
    ((s.submit digest standings sub).compared.map fun c => .compared c.1 c.2).toList
  | _, _ => []

/-- The seats whose answer a change changed. -/
def recordedIn (s s' : StoredConsilium) : List VoteFact :=
  (s.seats.zip s'.seats).filterMap fun p =>
    if p.1.decision = p.2.decision then none else some (.recorded p.1 p.2 s.row.state)

/-- Whether a change carried the consilium, and by how many live approvals. -/
def carriedIn (standings : Standings) (s s' : StoredConsilium) : List VoteFact :=
  if s.row.state = .opened ∧ s'.row.state = .approved then
    [.carried (s'.rehydrate standings).approvals s'.row.threshold]
  else []

/-- What a change shows. -/
def StoreStep.facts (step : StoreStep) (s : StoredConsilium) : List VoteFact :=
  step.comparison digest s ++ recordedIn s (step.run digest s) ++
    carriedIn step.standings s (step.run digest s)

/-- The consilia reached from an opening by changes that meet `guard`, and what the changes
showed. -/
inductive StoreRun (guard : StoredConsilium → StoreStep → Prop) :
    StoredConsilium → List VoteFact → Prop
  | opened {id : Uuid} {terms : ConsiliumTerms} {payloadHash : List UInt8} {initiator : UserId}
      {owners : List UserId} {now createdAt : Int} {c : Consilium}
      {credentials : List VoterCredential} {s : StoredConsilium}
      (h : Consilium.openOver id terms payloadHash initiator owners now = .ok c)
      (hseats : credentials.map (·.user) = c.eligible)
      (hopen : c.openOn credentials createdAt = .ok s) : StoreRun guard s []
  | step {s : StoredConsilium} {log : List VoteFact} (h : StoreRun guard s log) (step : StoreStep)
      (hguard : guard s step) :
      StoreRun guard (step.run digest s) (log ++ step.facts digest s)

/-- The comparisons of codes for a voter's seat, oldest first. -/
def comparisons (log : List VoteFact) (voter : UserId) : List Bool :=
  log.filterMap fun
    | .compared v correct => if v = voter then some correct else none
    | .recorded .. | .carried .. => none

/-- **The one submission that carries a consilium from a lost seat**: right in everything else, the
approval that is the last one missing, by one who is no longer an owner. -/
def StoredConsilium.LostSeatCarries (standings : Standings) (s : StoredConsilium)
    (sub : Submission) : Prop :=
  ∃ seat ∈ s.seats, seat.tokenHash = sub.tokenHash ∧ seat.burned = false ∧
    sub.time < seat.expiresAt ∧ s.row.state = .opened ∧ seat.decision = .pending ∧
    digest sub.code = seat.codeHash ∧ sub.decision = .approve ∧
    (standings seat.user).stillAnOwner = false ∧
    s.row.threshold = (s.rehydrate standings).approvals + 1

/-- A change that is not such a submission. -/
def SeatKept (s : StoredConsilium) : StoreStep → Prop
  | .submit standings sub => ¬ s.LostSeatCarries digest standings sub
  | _ => True

end Runs

/-! ## The aggregate behind a row -/

section Rehydrate

variable {s : StoredConsilium} {seat : VoterSeat}

/-- A seat is known by its user. -/
theorem StoredConsilium.seat_unique (husers : (s.seats.map (·.user)).Nodup) (hseat : seat ∈ s.seats)
    {other : VoterSeat} (hother : other ∈ s.seats) (h : other.user = seat.user) : other = seat :=
  List.inj_on_of_nodup_map husers hother hseat h

theorem StoredConsilium.mem_eligible (standings : Standings) (hseat : seat ∈ s.seats) :
    seat.user ∈ (s.rehydrate standings).eligible :=
  List.mem_map_of_mem (f := VoterSeat.user) hseat

/-- A seat that has not answered has no vote. -/
theorem StoredConsilium.voter_notMem (standings : Standings)
    (husers : (s.seats.map (·.user)).Nodup) (hseat : seat ∈ s.seats)
    (hpending : seat.decision = .pending) :
    seat.user ∉ (s.rehydrate standings).votes.map (·.voter) := by
  intro hmem
  simp only [StoredConsilium.rehydrate, List.map_map, List.mem_map, List.mem_filter] at hmem
  obtain ⟨other, ⟨hother, hanswered⟩, huser⟩ := hmem
  rw [s.seat_unique husers hseat hother huser] at hanswered
  simp [VoterSeat.answered, hpending] at hanswered

/-- A seat that has answered has its answer for a vote. -/
theorem StoredConsilium.find_vote (standings : Standings) (husers : (s.seats.map (·.user)).Nodup)
    (hseat : seat ∈ s.seats) (hanswered : seat.decision ≠ .pending) :
    (s.rehydrate standings).votes.find? (fun vote => decide (vote.voter = seat.user)) =
      some (seat.vote standings) := by
  have hmem : seat.vote standings ∈ (s.rehydrate standings).votes := by
    refine List.mem_map_of_mem (List.mem_filter.mpr ⟨hseat, ?_⟩)
    simpa [VoterSeat.answered] using hanswered
  cases hfind : (s.rehydrate standings).votes.find? (fun vote => decide (vote.voter = seat.user)) with
  | none =>
    have := List.find?_eq_none.mp hfind _ hmem
    simp [VoterSeat.vote] at this
  | some vote =>
    have hvoter : vote.voter = seat.user := by simpa using List.find?_some hfind
    obtain ⟨other, hother, rfl⟩ := List.mem_map.mp (List.mem_of_find?_eq_some hfind)
    rw [s.seat_unique husers hseat (List.mem_filter.mp hother).1 hvoter]

/-- The live approvals: the seats that approve and whose holders are owners. -/
theorem StoredConsilium.approvals_rehydrate (standings : Standings) (s : StoredConsilium) :
    (s.rehydrate standings).approvals = s.seats.countP fun seat =>
      (standings seat.user).stillAnOwner && decide (seat.decision = .approve) := by
  simp only [Consilium.approvals, Consilium.counted, StoredConsilium.rehydrate]
  rw [← List.countP_eq_length_filter, List.countP_map, List.countP_filter]
  refine List.countP_congr fun seat _ => ?_
  simp only [Function.comp_apply, VoterSeat.vote, VoterSeat.answered, Bool.and_eq_true,
    decide_eq_true_eq]
  constructor
  · exact fun h => h.1
  · exact fun h => ⟨h, by rw [h.2]; decide⟩

end Rehydrate

/-- A fresh answer in an open consilium is recorded. -/
theorem Consilium.recordVote_fresh {c : Consilium} {voter : UserId} {decision : VoteDecision}
    (time : Int) (hd : decision ≠ .pending) (hseat : voter ∈ c.eligible)
    (hnew : voter ∉ c.votes.map (·.voter)) (hopen : c.state = .opened) :
    ∃ voted events, c.recordVote voter decision time = (.ok (), voted) ∧
      ConsiliumFrame c voted events ∧ voted.votes = c.votes ++ [⟨voter, decision, time, true⟩] ∧
      Tallied voted voter decision events := by
  have hfind : c.votes.find? (·.voter = voter) = none := by
    refine List.find?_eq_none.mpr fun vote hvote => ?_
    simpa using fun h => hnew (List.mem_map.mpr ⟨vote, hvote, h⟩)
  have hsettle : ∀ c : Consilium, (c.settleTally time).votes = c.votes := by
    intro c
    unfold Consilium.settleTally
    split_ifs <;> rfl
  let fresh : Consilium := { c with votes := c.votes ++ [⟨voter, decision, time, true⟩] }
  let voted : Consilium := (fresh.raise (.voteRecorded voter decision)).settleTally time
  have hvotes : voted.votes = c.votes ++ [⟨voter, decision, time, true⟩] := hsettle _
  have hvoted : c.recordVote voter decision time = (.ok (), voted) := by
    unfold Consilium.recordVote
    rw [if_neg hd, if_neg (not_not.mpr hseat), hfind]
    dsimp only
    rw [if_neg (not_not.mpr hopen)]
  obtain ⟨events, hframe, hmove⟩ := c.recordVote_done voter decision time
  rw [hvoted] at hframe hmove
  clear_value voted
  dsimp only at hframe hmove
  -- only a vote leaves one more vote behind
  have hmore : voted.votes ≠ c.votes := by
    rw [hvotes]
    simp
  refine ⟨voted, events, hvoted, hframe, hvotes, ?_⟩
  cases hmove with
  | same => exact absurd rfl hmore
  | vote _ _ _ _ _ _ _ hvotes' _ htally =>
    rw [hvotes] at hvotes'
    simp only [List.append_cancel_left_eq, List.cons.injEq, ConsiliumVote.mk.injEq,
      and_true] at hvotes'
    obtain ⟨rfl, rfl, -⟩ := hvotes'
    exact htally
  | close _ _ hvotes' => exact absurd hvotes' hmore
  | execute _ _ _ hvotes' => exact absurd hvotes' hmore
  | fail _ _ _ hvotes' => exact absurd hvotes' hmore

/-! ## What a submission can do -/

/-- A seat after a wrong code: one more attempt, and burned at the last of them. -/
def VoterSeat.missed (seat : VoterSeat) : VoterSeat :=
  let attempts := min (seat.attempts + 1) MAX_CODE_ATTEMPTS
  { seat with attempts, burned := seat.burned || decide (MAX_CODE_ATTEMPTS ≤ attempts) }

/-- A seat after its answer: the attempt counted, the answer recorded. -/
def VoterSeat.voted (seat : VoterSeat) (sub : Submission) (payloadHash : List UInt8) : VoterSeat :=
  (seat.counted (min (seat.attempts + 1) MAX_CODE_ATTEMPTS)).answer sub payloadHash

section Submit

variable (digest : String → List UInt8)

/-- What a submission can do to a stored consilium. -/
inductive SubmitMove (standings : Standings) (s : StoredConsilium) (sub : Submission) :
    Submitted → Prop
  | refused {answer : Except SubmitError SubmitOutcome} :
      SubmitMove standings s sub ⟨answer, none, s⟩
  | wrong {answer : Except SubmitError SubmitOutcome} {seat : VoterSeat} (hseat : seat ∈ s.seats)
      (hlive : seat.burned = false) (hpending : seat.decision = .pending)
      (hcode : digest sub.code ≠ seat.codeHash) :
      SubmitMove standings s sub
        ⟨answer, some (seat.user, false), s.withSeat seat.user VoterSeat.missed⟩
  | answered {answer : Except SubmitError SubmitOutcome} {seat : VoterSeat} {correct : Bool}
      (hseat : seat ∈ s.seats) (hanswered : seat.decision ≠ .pending) :
      SubmitMove standings s sub ⟨answer, some (seat.user, correct), s⟩
  | returned {answer : Except SubmitError SubmitOutcome} {seat : VoterSeat} (hseat : seat ∈ s.seats)
      (hd : sub.decision = .pending) :
      SubmitMove standings s sub ⟨answer, some (seat.user, true), s⟩
  | recorded {answer : Except SubmitError SubmitOutcome} {seat : VoterSeat} {voted : Consilium}
      {events : List ConsiliumEvent} (hseat : seat ∈ s.seats)
      (htoken : seat.tokenHash = sub.tokenHash) (hlive : seat.burned = false)
      (htime : sub.time < seat.expiresAt) (hopen : s.row.state = .opened)
      (hpending : seat.decision = .pending) (hcode : digest sub.code = seat.codeHash)
      (hd : sub.decision ≠ .pending) (hframe : ConsiliumFrame (s.rehydrate standings) voted events)
      (hvotes : voted.votes =
        (s.rehydrate standings).votes ++ [⟨seat.user, sub.decision, sub.time, true⟩])
      (htally : Tallied voted seat.user sub.decision events) :
      SubmitMove standings s sub
        ⟨answer, some (seat.user, true),
          (s.withSeat seat.user (·.voted sub s.row.payloadHash)).persist voted⟩

/-- Changing one user's seat twice. -/
theorem StoredConsilium.withSeat_withSeat (s : StoredConsilium) (user : UserId)
    {f g : VoterSeat → VoterSeat} (hf : ∀ seat, (f seat).user = seat.user) :
    (s.withSeat user f).withSeat user g = s.withSeat user fun seat => g (f seat) := by
  simp only [StoredConsilium.withSeat, List.map_map, StoredConsilium.mk.injEq, true_and, and_true]
  refine List.map_congr_left fun seat _ => ?_
  by_cases huser : seat.user = user
  · simp [huser, hf]
  · simp [huser]

/-- Only the seat itself is changed. -/
theorem StoredConsilium.withSeat_congr {s : StoredConsilium} (husers : (s.seats.map (·.user)).Nodup)
    {seat : VoterSeat} (hseat : seat ∈ s.seats) {f g : VoterSeat → VoterSeat} (h : f seat = g seat) :
    s.withSeat seat.user f = s.withSeat seat.user g := by
  simp only [StoredConsilium.withSeat, StoredConsilium.mk.injEq, true_and, and_true]
  refine List.map_congr_left fun other hother => ?_
  by_cases huser : other.user = seat.user
  · rw [s.seat_unique husers hseat hother huser, if_pos rfl, if_pos rfl, h]
  · rw [if_neg huser, if_neg huser]

/-- A right code from a seat that has answered changes nothing. -/
theorem StoredConsilium.recordAnswer_answered {s : StoredConsilium} (standings : Standings)
    (husers : (s.seats.map (·.user)).Nodup) {seat : VoterSeat} (hseat : seat ∈ s.seats)
    (hanswered : seat.decision ≠ .pending) (sub : Submission) :
    (s.recordAnswer standings s seat sub).compared = some (seat.user, true) ∧
      (s.recordAnswer standings s seat sub).stored = s := by
  unfold StoredConsilium.recordAnswer Consilium.recordVote
  dsimp only
  by_cases hd : sub.decision = .pending
  · rw [if_pos hd]
    exact ⟨rfl, rfl⟩
  · rw [if_neg hd, if_neg (not_not.mpr (s.mem_eligible standings hseat)),
      s.find_vote standings husers hseat hanswered]
    dsimp only
    by_cases hsame : (seat.vote standings).decision = sub.decision
    · rw [if_pos hsame]
      dsimp only
      rw [if_pos rfl]
      exact ⟨rfl, rfl⟩
    · rw [if_neg hsame]
      exact ⟨rfl, rfl⟩

/-- A right code and an answer, from a seat that has not answered, are recorded. -/
theorem StoredConsilium.recordAnswer_fresh {s : StoredConsilium} (standings : Standings)
    (husers : (s.seats.map (·.user)).Nodup) {seat : VoterSeat} (hseat : seat ∈ s.seats)
    (hpending : seat.decision = .pending) (hopen : s.row.state = .opened) {sub : Submission}
    (hd : sub.decision ≠ .pending) :
    ∃ answer voted events,
      s.recordAnswer standings (s.withSeat seat.user
          (VoterSeat.counted (min (seat.attempts + 1) MAX_CODE_ATTEMPTS))) seat sub =
        ⟨answer, some (seat.user, true),
          (s.withSeat seat.user (·.voted sub s.row.payloadHash)).persist voted⟩ ∧
      ConsiliumFrame (s.rehydrate standings) voted events ∧
      voted.votes =
        (s.rehydrate standings).votes ++ [⟨seat.user, sub.decision, sub.time, true⟩] ∧
      Tallied voted seat.user sub.decision events := by
  obtain ⟨voted, events, hvoted, hframe, hvotes, htally⟩ :=
    Consilium.recordVote_fresh sub.time hd (s.mem_eligible standings hseat)
      (s.voter_notMem standings husers hseat hpending) hopen
  have hversion : voted.version ≠ (s.rehydrate standings).version := by
    rw [hframe.version]
    cases htally <;> simp
  refine ⟨.ok ⟨voted.state ≠ .opened, voted.state = .approved⟩, voted, events, ?_, hframe, hvotes,
    htally⟩
  unfold StoredConsilium.recordAnswer
  dsimp only
  rw [hvoted]
  dsimp only
  rw [if_neg hversion, StoredConsilium.withSeat_withSeat _ _ (f := VoterSeat.counted _)
      (fun _ => rfl),
    StoredConsilium.withSeat_congr husers hseat (g := (·.voted sub s.row.payloadHash)) rfl]

/-- **Every submission is one move.** -/
theorem StoredConsilium.submit_move {s : StoredConsilium} (standings : Standings)
    (husers : (s.seats.map (·.user)).Nodup) (sub : Submission) :
    SubmitMove digest standings s sub (s.submit digest standings sub) := by
  unfold StoredConsilium.submit
  cases hfind : s.seats.find? (·.tokenHash = sub.tokenHash) with
  | none => exact .refused
  | some seat =>
    have hseat : seat ∈ s.seats := List.mem_of_find?_eq_some hfind
    have htoken : seat.tokenHash = sub.tokenHash := by simpa using List.find?_some hfind
    dsimp only
    by_cases hdead : seat.burned = true ∨ seat.expiresAt ≤ sub.time
    · rw [if_pos hdead]
      exact .refused
    rw [if_neg hdead]
    simp only [not_or, Bool.not_eq_true, not_le] at hdead
    by_cases hclosed : s.row.state ≠ .opened ∧ seat.decision = .pending
    · rw [if_pos hclosed]
      exact .refused
    rw [if_neg hclosed]
    by_cases hpending : seat.decision = .pending
    · have hopen : s.row.state = .opened := by
        by_contra hopen
        exact hclosed ⟨hopen, hpending⟩
      rw [if_pos hpending]
      by_cases hcode : digest sub.code = seat.codeHash
      · -- the code is right: the answer is recorded, unless it is no answer
        rw [if_neg (not_not.mpr hcode)]
        by_cases hd : sub.decision = .pending
        · have hrefused : (s.rehydrate standings).recordVote seat.user sub.decision sub.time =
              (.error (.validation "a vote must be approve or reject"), s.rehydrate standings) := by
            unfold Consilium.recordVote
            rw [if_pos hd]
          unfold StoredConsilium.recordAnswer
          dsimp only
          rw [hrefused]
          exact .returned hseat hd
        · obtain ⟨answer, voted, events, hrecorded, hframe, hvotes, htally⟩ :=
            s.recordAnswer_fresh standings husers hseat hpending hopen hd
          rw [hrecorded]
          exact .recorded hseat htoken hdead.1 hdead.2 hopen hpending hcode hd hframe hvotes htally
      · rw [if_pos hcode]
        by_cases hlast : MAX_CODE_ATTEMPTS ≤ min (seat.attempts + 1) MAX_CODE_ATTEMPTS
        · rw [if_pos hlast, StoredConsilium.withSeat_withSeat _ _ (f := VoterSeat.counted _)
              (fun _ => rfl),
            StoredConsilium.withSeat_congr husers hseat (g := VoterSeat.missed)
              (by simp [VoterSeat.missed, VoterSeat.counted, VoterSeat.burn, hlast])]
          exact .wrong hseat hdead.1 hpending hcode
        · rw [if_neg hlast, StoredConsilium.withSeat_congr husers hseat (g := VoterSeat.missed)
              (by simp [VoterSeat.missed, VoterSeat.counted, hlast])]
          exact .wrong hseat hdead.1 hpending hcode
    · rw [if_neg hpending]
      by_cases hcode : digest sub.code = seat.codeHash
      · rw [if_neg (not_not.mpr hcode)]
        have hsame := s.recordAnswer_answered standings husers hseat hpending sub
        cases hanswer : s.recordAnswer standings s seat sub with
        | mk answer compared stored =>
          rw [hanswer] at hsame
          obtain ⟨rfl, rfl⟩ := hsame
          exact .answered hseat hpending
      · rw [if_pos hcode]
        exact .answered hseat hpending

end Submit

/-! ## What a change shows -/

theorem comparisons_append (log facts : List VoteFact) (voter : UserId) :
    comparisons (log ++ facts) voter = comparisons log voter ++ comparisons facts voter :=
  List.filterMap_append

/-- The seats whose answer a change of one seat changed: that seat at most. -/
theorem mem_recordedIn_withSeat {s s' : StoredConsilium} {user : UserId}
    {f : VoterSeat → VoterSeat} (hs' : s'.seats = (s.withSeat user f).seats) {fact : VoteFact}
    (h : fact ∈ recordedIn s s') : ∃ seat ∈ s.seats, seat.user = user ∧
      seat.decision ≠ (f seat).decision ∧ fact = .recorded seat (f seat) s.row.state := by
  rw [recordedIn, hs', StoredConsilium.withSeat] at h
  dsimp only at h
  rw [← List.map_prod_left_eq_zip] at h
  simp only [List.mem_filterMap, List.mem_map] at h
  obtain ⟨_, ⟨seat, hseat, rfl⟩, hfact⟩ := h
  dsimp only at hfact
  by_cases huser : seat.user = user
  · rw [if_pos huser] at hfact
    by_cases hd : seat.decision = (f seat).decision
    · rw [if_pos hd] at hfact
      cases hfact
    · rw [if_neg hd] at hfact
      exact ⟨seat, hseat, huser, hd, (Option.some.inj hfact).symm⟩
  · rw [if_neg huser, if_pos rfl] at hfact
    cases hfact

/-- A change that leaves the answers alone records none. -/
theorem recordedIn_withSeat {s s' : StoredConsilium} {user : UserId} {f : VoterSeat → VoterSeat}
    (hs' : s'.seats = (s.withSeat user f).seats) (hf : ∀ seat, (f seat).decision = seat.decision) :
    recordedIn s s' = [] := by
  refine List.eq_nil_iff_forall_not_mem.mpr fun fact h => ?_
  obtain ⟨seat, -, -, hd, -⟩ := mem_recordedIn_withSeat hs' h
  exact hd (hf seat).symm

theorem StoredConsilium.withSeat_id (s : StoredConsilium) (user : UserId) :
    s.withSeat user id = s := by
  simp [StoredConsilium.withSeat]

/-- A change that leaves the seats alone records no answer. -/
theorem recordedIn_same {s s' : StoredConsilium} (hs' : s'.seats = s.seats) :
    recordedIn s s' = [] :=
  @recordedIn_withSeat s s' s.row.initiator id (by rw [hs', s.withSeat_id]) fun _ => rfl

theorem comparisons_recordedIn (s s' : StoredConsilium) (voter : UserId) :
    comparisons (recordedIn s s') voter = [] := by
  refine List.filterMap_eq_nil_iff.mpr fun fact h => ?_
  simp only [recordedIn, List.mem_filterMap] at h
  obtain ⟨_, -, hfact⟩ := h
  split at hfact
  · cases hfact
  · cases hfact
    rfl

theorem comparisons_carriedIn (standings : Standings) (s s' : StoredConsilium) (voter : UserId) :
    comparisons (carriedIn standings s s') voter = [] := by
  unfold carriedIn
  split_ifs <;> rfl

/-! ## The other changes -/

/-- A change of the aggregate leaves the seats alone. -/
theorem StoredConsilium.change_seats (standings : Standings) (s : StoredConsilium)
    (command : Consilium → ConsiliumAnswer) : (s.change standings command).2.seats = s.seats := by
  unfold StoredConsilium.change
  split <;> rfl

/-- The state a change leaves is the command's. -/
theorem StoredConsilium.change_state (standings : Standings) (s : StoredConsilium)
    (command : Consilium → ConsiliumAnswer)
    (hc : ∀ c, c.state = .opened → (command c).2.state ≠ .approved) (hopen : s.row.state = .opened) :
    (s.change standings command).2.row.state ≠ .approved := by
  have hcommand := hc (s.rehydrate standings) hopen
  unfold StoredConsilium.change
  split
  · rw [hopen]
    decide
  · next c hanswer =>
    rw [hanswer] at hcommand
    exact hcommand

/-- Only a vote carries a consilium. -/
theorem Consilium.closeOpen_state {c : Consilium} {target : ConsiliumState} (time : Int)
    (htarget : target ≠ .approved) (hopen : c.state = .opened) :
    (c.closeOpen target time).2.state ≠ .approved := by
  unfold Consilium.closeOpen
  split_ifs
  · rw [hopen]
    decide
  · rw [hopen]
    decide
  · exact htarget

theorem Consilium.expire_state {c : Consilium} (time : Int) (hopen : c.state = .opened) :
    (c.expire time).2.state ≠ .approved := by
  unfold Consilium.expire
  split_ifs
  · rw [hopen]
    decide
  · exact Consilium.closeOpen_state time (by decide) hopen

/-- Every change but a submission leaves the seats alone and carries nothing. -/
theorem StoreStep.run_other (digest : String → List UInt8) {step : StoreStep}
    (hstep : ∀ standings sub, step ≠ .submit standings sub) (s : StoredConsilium) :
    (step.run digest s).seats = s.seats ∧
      (s.row.state = .opened → (step.run digest s).row.state ≠ .approved) := by
  have hopened : s.row.state = .opened → s.row.state ≠ .approved := fun hopen h => by
    rw [hopen] at h
    cases h
  cases step with
  | submit standings sub => exact absurd rfl (hstep standings sub)
  | cancel standings caller time =>
    simp only [StoreStep.run, StoredConsilium.cancel]
    split_ifs
    · exact ⟨rfl, hopened⟩
    · exact ⟨s.change_seats _ _, s.change_state _ _ fun c =>
        Consilium.closeOpen_state time (by decide)⟩
  | expire standings time =>
    have hseats := s.change_seats standings (·.expire time)
    have hstate := s.change_state standings (·.expire time) fun c => Consilium.expire_state time
    simp only [StoreStep.run, StoredConsilium.expireOne]
    split_ifs with hclosed
    · exact ⟨rfl, hopened⟩
    · cases hchange : s.change standings (·.expire time) with
      | mk answer s' =>
        rw [hchange] at hseats hstate
        cases answer <;> exact ⟨hseats, hstate⟩
  | void standings time =>
    have hseats := s.change_seats standings (·.cancel time)
    have hstate := s.change_state standings (·.cancel time) fun c =>
      Consilium.closeOpen_state time (by decide)
    simp only [StoreStep.run, StoredConsilium.voidOne]
    split_ifs with hclosed
    · exact ⟨rfl, hopened⟩
    · cases hchange : s.change standings (·.cancel time) with
      | mk answer s' =>
        rw [hchange] at hseats hstate
        cases answer <;> exact ⟨hseats, hstate⟩
  | record standings outcome =>
    refine ⟨s.change_seats _ _, s.change_state _ _ fun c hopen => ?_⟩
    cases outcome with
    | executed effect =>
      dsimp only
      unfold Consilium.markExecuted
      simp [hopen]
    | failed reason =>
      dsimp only
      unfold Consilium.markExecutionFailed
      simp [hopen]

/-! ## The invariant -/

/-- **What holds of a stored consilium and of what its run showed.** -/
structure GateSafe (s : StoredConsilium) (log : List VoteFact) : Prop where
  users : (s.seats.map (·.user)).Nodup
  tokens : (s.seats.map (·.tokenHash)).Nodup
  counted : ∀ seat ∈ s.seats, true ∉ comparisons log seat.user → seat.decision = .pending ∧
    seat.attempts = (comparisons log seat.user).length ∧ seat.attempts ≤ MAX_CODE_ATTEMPTS ∧
    (seat.burned = true ↔ seat.attempts = MAX_CODE_ATTEMPTS)
  before : ∀ voter, ((comparisons log voter).takeWhile (!·)).length ≤ MAX_CODE_ATTEMPTS
  recorded : ∀ seat answered state, .recorded seat answered state ∈ log →
    seat.burned = false ∧ state = .opened ∧
      ∃ time, answered.decidedAt = some time ∧ time < seat.expiresAt

/-- One more comparison keeps the count below the bound, where a wrong one is still allowed. -/
theorem takeWhile_append_le {bs : List Bool} {b : Bool} {n : Nat}
    (h : (bs.takeWhile (!·)).length ≤ n) (hmore : true ∉ bs → b = false → bs.length + 1 ≤ n) :
    ((bs ++ [b]).takeWhile (!·)).length ≤ n := by
  rw [List.takeWhile_append]
  split_ifs with hall
  · -- no code was right before this one
    have hnone : true ∉ bs := by
      intro hmem
      have hself := (List.takeWhile_prefix (p := (!·)) (l := bs)).eq_of_length hall
      have := List.mem_takeWhile_imp (hself ▸ hmem)
      cases this
    cases b with
    | false =>
      have := hmore hnone rfl
      simpa using this
    | true => simpa [hall] using h
  · exact h

section Safe

variable {digest : String → List UInt8} {s s' : StoredConsilium} {log facts : List VoteFact}

/-- A change that compares no code and leaves the seats alone. -/
theorem GateSafe.same_seats (h : GateSafe s log) (hseats : s'.seats = s.seats)
    (hcompared : ∀ voter, comparisons facts voter = [])
    (hrecorded : ∀ seat answered state, .recorded seat answered state ∉ facts) :
    GateSafe s' (log ++ facts) where
  users := hseats ▸ h.users
  tokens := hseats ▸ h.tokens
  counted := by
    intro seat hseat hnone
    rw [comparisons_append, hcompared, List.append_nil] at hnone ⊢
    exact h.counted seat (hseats ▸ hseat) hnone
  before := by
    intro voter
    rw [comparisons_append, hcompared, List.append_nil]
    exact h.before voter
  recorded := by
    intro seat answered state hfact
    rcases List.mem_append.mp hfact with hfact | hfact
    · exact h.recorded seat answered state hfact
    · exact absurd hfact (hrecorded seat answered state)

/-- A change that compares one code for `seat`, and may change that seat. -/
theorem GateSafe.compare (h : GateSafe s log) {seat : VoterSeat} (hseat : seat ∈ s.seats)
    {f : VoterSeat → VoterSeat} {b : Bool} (hseats : s'.seats = (s.withSeat seat.user f).seats)
    (huser : ∀ seat, (f seat).user = seat.user)
    (htoken : ∀ seat, (f seat).tokenHash = seat.tokenHash)
    (hcompared : ∀ voter, comparisons facts voter = if seat.user = voter then [b] else [])
    (hwrong : true ∉ comparisons log seat.user → b = false → (f seat).decision = .pending ∧
      (f seat).attempts = seat.attempts + 1 ∧ seat.attempts + 1 ≤ MAX_CODE_ATTEMPTS ∧
      ((f seat).burned = true ↔ seat.attempts + 1 = MAX_CODE_ATTEMPTS))
    (hrecorded : ∀ seat answered state, .recorded seat answered state ∈ facts →
      seat.burned = false ∧ state = .opened ∧
        ∃ time, answered.decidedAt = some time ∧ time < seat.expiresAt) :
    GateSafe s' (log ++ facts) where
  users := by
    have hmap : s'.seats.map (·.user) = s.seats.map (·.user) := by
      rw [hseats, StoredConsilium.withSeat, List.map_map]
      refine List.map_congr_left fun other _ => ?_
      by_cases ho : other.user = seat.user <;> simp [ho, huser]
    exact hmap ▸ h.users
  tokens := by
    have hmap : s'.seats.map (·.tokenHash) = s.seats.map (·.tokenHash) := by
      rw [hseats, StoredConsilium.withSeat, List.map_map]
      refine List.map_congr_left fun other _ => ?_
      by_cases ho : other.user = seat.user <;> simp [ho, htoken]
    exact hmap ▸ h.tokens
  counted := by
    intro changed hchanged hnone
    rw [hseats] at hchanged
    obtain ⟨other, hother, rfl⟩ := List.mem_map.mp hchanged
    by_cases ho : other.user = seat.user
    · -- the seat the code was compared for
      obtain rfl := s.seat_unique h.users hseat hother ho
      rw [if_pos rfl] at hnone ⊢
      rw [huser, comparisons_append, hcompared, if_pos rfl, List.mem_append, not_or] at hnone
      have hb : b = false := by simpa using hnone.2
      obtain ⟨-, hattempts, -, -⟩ := h.counted other hother hnone.1
      obtain ⟨hd, hmore, hle, hburned⟩ := hwrong hnone.1 hb
      refine ⟨hd, ?_, by rw [hmore]; exact hle, by rw [hmore]; exact hburned⟩
      rw [huser, comparisons_append, hcompared, if_pos rfl, hmore, hattempts, List.length_append]
      rfl
    · rw [if_neg ho] at hnone ⊢
      rw [comparisons_append, hcompared, if_neg (Ne.symm ho), List.append_nil] at hnone ⊢
      exact h.counted other hother hnone
  before := by
    intro voter
    rw [comparisons_append, hcompared]
    by_cases hvoter : seat.user = voter
    · subst hvoter
      rw [if_pos rfl]
      refine takeWhile_append_le (h.before _) fun hnone hb => ?_
      obtain ⟨-, hattempts, -, -⟩ := h.counted seat hseat hnone
      obtain ⟨-, -, hle, -⟩ := hwrong hnone hb
      rwa [hattempts] at hle
    · rw [if_neg hvoter, List.append_nil]
      exact h.before voter
  recorded := by
    intro a b state hfact
    rcases List.mem_append.mp hfact with hfact | hfact
    · exact h.recorded a b state hfact
    · exact hrecorded a b state hfact

/-- A wrong code is still allowed to a seat that has not burned, and is counted. -/
theorem GateSafe.missed (h : GateSafe s log) {seat : VoterSeat} (hseat : seat ∈ s.seats)
    (hlive : seat.burned = false) (hnone : true ∉ comparisons log seat.user) :
    seat.missed.decision = .pending ∧ seat.missed.attempts = seat.attempts + 1 ∧
      seat.attempts + 1 ≤ MAX_CODE_ATTEMPTS ∧
      (seat.missed.burned = true ↔ seat.attempts + 1 = MAX_CODE_ATTEMPTS) := by
  obtain ⟨hd, -, hle, hburned⟩ := h.counted seat hseat hnone
  have hlt : seat.attempts < MAX_CODE_ATTEMPTS := by
    refine lt_of_le_of_ne hle fun hmax => ?_
    rw [hburned.mpr hmax] at hlive
    cases hlive
  have hmin : min (seat.attempts + 1) MAX_CODE_ATTEMPTS = seat.attempts + 1 := min_eq_left hlt
  refine ⟨hd, hmin, hlt, ?_⟩
  simp only [VoterSeat.missed, hmin, hlive, Bool.false_or, decide_eq_true_eq]
  omega

theorem comparisons_facts (step : StoreStep) (s : StoredConsilium) (voter : UserId) :
    comparisons (step.facts digest s) voter = comparisons (step.comparison digest s) voter := by
  rw [StoreStep.facts, comparisons_append, comparisons_append, comparisons_recordedIn,
    comparisons_carriedIn, List.append_nil, List.append_nil]

/-- An answer a change shows is one of the seats it changed. -/
theorem mem_facts_recorded {step : StoreStep} {seat answered : VoterSeat} {state : ConsiliumState}
    (h : VoteFact.recorded seat answered state ∈ step.facts digest s) :
    VoteFact.recorded seat answered state ∈ recordedIn s (step.run digest s) := by
  rcases List.mem_append.mp h with h | h
  · rcases List.mem_append.mp h with h | h
    · cases step with
      | submit standings sub =>
        simp only [StoreStep.comparison, Option.mem_toList, Option.map_eq_some_iff] at h
        obtain ⟨_, -, hfact⟩ := h
        cases hfact
      | _ => cases h
    · exact h
  · unfold carriedIn at h
    split_ifs at h
    · simp at h
    · cases h

/-- **Every change keeps the invariant.** -/
theorem GateSafe.step (h : GateSafe s log) (step : StoreStep) :
    GateSafe (step.run digest s) (log ++ step.facts digest s) := by
  by_cases hsubmit : ∃ standings sub, step = .submit standings sub
  · obtain ⟨standings, sub, rfl⟩ := hsubmit
    have hmove := s.submit_move digest standings h.users sub
    have hfacts : ∀ voter, comparisons ((StoreStep.submit standings sub).facts digest s) voter =
        match (s.submit digest standings sub).compared with
        | some (user, b) => if user = voter then [b] else []
        | none => [] := by
      intro voter
      rw [comparisons_facts, StoreStep.comparison]
      cases (s.submit digest standings sub).compared with
      | none => rfl
      | some c =>
        obtain ⟨user, b⟩ := c
        by_cases huser : user = voter <;> simp [comparisons, huser]
    have hrun : (StoreStep.submit standings sub).run digest s =
        (s.submit digest standings sub).stored := rfl
    have hrecorded := @mem_facts_recorded digest s (.submit standings sub)
    rw [hrun] at hrecorded ⊢
    generalize s.submit digest standings sub = result at hmove hfacts hrecorded
    generalize (StoreStep.submit standings sub).facts digest s = facts at hfacts hrecorded
    -- a change that leaves the seats as they are records nothing
    have hnothing : ∀ seat answered state, result.stored.seats = s.seats →
        .recorded seat answered state ∉ facts := by
      intro seat answered state hseats hfact
      have := hrecorded hfact
      rw [recordedIn_same hseats] at this
      cases this
    cases hmove with
    | refused => exact h.same_seats rfl hfacts fun a b state => hnothing a b state rfl
    | @wrong _ seat hseat hlive hpending _ =>
      refine h.compare hseat rfl (fun _ => rfl) (fun _ => rfl) hfacts
        (fun hnone _ => h.missed hseat hlive hnone) fun a b state hfact => ?_
      have := hrecorded hfact
      rw [recordedIn_withSeat (f := VoterSeat.missed) rfl fun _ => rfl] at this
      cases this
    | @answered _ seat _ hseat hanswered =>
      refine h.compare hseat (f := id) (by rw [s.withSeat_id]) (fun _ => rfl) (fun _ => rfl) hfacts
        (fun hnone _ => ?_) fun a b state hfact => absurd hfact (hnothing a b state rfl)
      exact absurd (h.counted seat hseat hnone).1 hanswered
    | @returned _ seat hseat _ =>
      refine h.compare hseat (f := id) (by rw [s.withSeat_id]) (fun _ => rfl) (fun _ => rfl) hfacts
        (fun _ hb => by cases hb) fun a b state hfact => absurd hfact (hnothing a b state rfl)
    | @recorded _ seat voted events hseat _ hlive htime hopen _ _ _ _ _ _ =>
      refine h.compare hseat (f := (·.voted sub s.row.payloadHash)) rfl (fun _ => rfl)
        (fun _ => rfl) hfacts (fun _ hb => by cases hb) fun a b state hfact => ?_
      obtain ⟨other, hother, huser, -, hsame⟩ :=
        mem_recordedIn_withSeat (f := (·.voted sub s.row.payloadHash)) rfl (hrecorded hfact)
      obtain rfl := s.seat_unique h.users hseat hother huser
      cases hsame
      exact ⟨hlive, hopen, sub.time, rfl, htime⟩
  · obtain ⟨hseats, -⟩ := step.run_other digest (fun standings sub hs => hsubmit ⟨_, _, hs⟩) s
    refine h.same_seats hseats (fun voter => ?_) fun a b state hfact => ?_
    · rw [comparisons_facts]
      cases step with
      | submit standings sub => exact absurd ⟨_, _, rfl⟩ hsubmit
      | _ => rfl
    · have := mem_facts_recorded hfact
      rw [recordedIn_same hseats] at this
      cases this

/-- An opened consilium. -/
theorem Consilium.openOn_safe {c : Consilium} {credentials : List VoterCredential}
    {createdAt : Int} (h : c.openOn credentials createdAt = .ok s) : GateSafe s [] := by
  unfold Consilium.openOn at h
  split_ifs at h with hdistinct
  simp only [Except.ok.injEq] at h
  subst h
  have husers : (credentials.map (·.seat c.expiresAt)).map (·.user) = credentials.map (·.user) := by
    rw [List.map_map]
    rfl
  have htokens : (credentials.map (·.seat c.expiresAt)).map (·.tokenHash) =
      credentials.map (·.tokenHash) := by
    rw [List.map_map]
    rfl
  refine ⟨husers ▸ hdistinct.1, htokens ▸ hdistinct.2, fun seat hseat _ => ?_,
    fun _ => by simp [comparisons], fun _ _ _ hfact => by cases hfact⟩
  obtain ⟨credential, -, rfl⟩ := List.mem_map.mp hseat
  exact ⟨rfl, rfl, by simp [VoterCredential.seat],
    by simp [VoterCredential.seat, MAX_CODE_ATTEMPTS]⟩

/-- Every run keeps the invariant. -/
theorem StoreRun.safe {guard : StoredConsilium → StoreStep → Prop}
    (h : StoreRun digest guard s log) : GateSafe s log := by
  induction h with
  | opened _ _ hopen => exact Consilium.openOn_safe hopen
  | step _ step _ ih => exact ih.step step

/-! ## Repeats -/

/-- A token leads to its seat. -/
theorem GateSafe.find_token (h : GateSafe s log) {seat : VoterSeat} (hseat : seat ∈ s.seats)
    {tokenHash : List UInt8} (htoken : seat.tokenHash = tokenHash) :
    s.seats.find? (fun seat => decide (seat.tokenHash = tokenHash)) = some seat := by
  cases hfind : s.seats.find? (fun seat => decide (seat.tokenHash = tokenHash)) with
  | none =>
    have := List.find?_eq_none.mp hfind seat hseat
    simp [htoken] at this
  | some other =>
    have hother : other.tokenHash = tokenHash := by simpa using List.find?_some hfind
    rw [List.inj_on_of_nodup_map h.tokens (List.mem_of_find?_eq_some hfind) hseat
      (hother.trans htoken.symm)]

/-- A seat that has answered is not changed again, whatever is presented for it. -/
theorem GateSafe.answered_kept (h : GateSafe s log) {seat : VoterSeat} (hseat : seat ∈ s.seats)
    (hanswered : seat.decision ≠ .pending) (standings : Standings) {sub : Submission}
    (htoken : seat.tokenHash = sub.tokenHash) : (s.submit digest standings sub).stored = s := by
  unfold StoredConsilium.submit
  rw [h.find_token hseat htoken]
  dsimp only
  rw [if_neg (fun hclosed : s.row.state ≠ .opened ∧ seat.decision = .pending =>
    hanswered hclosed.2), if_neg hanswered]
  split_ifs
  · rfl
  · rfl
  · exact (s.recordAnswer_answered standings h.users hseat hanswered sub).2

/-! ## Carrying -/

/-- How the seats counted change with one of them. -/
theorem countP_withSeat (husers : (s.seats.map (·.user)).Nodup) {seat : VoterSeat}
    (hseat : seat ∈ s.seats) (f : VoterSeat → VoterSeat) (p : VoterSeat → Bool)
    (hbefore : p seat = false) : (s.withSeat seat.user f).seats.countP p =
      s.seats.countP p + if p (f seat) then 1 else 0 := by
  have hlist : ∀ seats : List VoterSeat, (seats.map (·.user)).Nodup → seat ∈ seats →
      (seats.map fun other => if other.user = seat.user then f other else other).countP p =
        seats.countP p + if p (f seat) then 1 else 0 := by
    intro seats hnodup hmem
    induction seats with
    | nil => cases hmem
    | cons first rest ih =>
      simp only [List.map_cons, List.nodup_cons] at hnodup
      rw [List.map_cons, List.countP_cons, List.countP_cons]
      rcases List.mem_cons.mp hmem with rfl | hrest
      · -- the seat itself; no other is its user's
        have hothers : (rest.map fun other => if other.user = seat.user then f other else other) =
            rest := by
          refine (List.map_congr_left fun other hother => if_neg fun huser => ?_).trans
            (List.map_id' rest)
          exact hnodup.1 (huser ▸ List.mem_map_of_mem (f := VoterSeat.user) hother)
        rw [hothers, if_pos rfl, hbefore]
        simp
      · have hother : first.user ≠ seat.user := fun huser =>
          hnodup.1 (huser ▸ List.mem_map_of_mem (f := VoterSeat.user) hrest)
        rw [if_neg hother, ih hnodup.2 hrest]
        omega
  exact hlist s.seats husers hseat

/-- The approvals of the aggregate after a vote: the vote counts whoever casts it. -/
theorem approvals_of_votes {c voted : Consilium} {voter : UserId} {decision : VoteDecision}
    {time : Int} (hvotes : voted.votes = c.votes ++ [⟨voter, decision, time, true⟩]) :
    voted.approvals = c.approvals + if decision = .approve then 1 else 0 := by
  unfold Consilium.approvals Consilium.counted
  rw [hvotes, List.filter_append, List.length_append]
  by_cases hd : decision = .approve <;> simp [hd]

/-- The live approvals after a vote: the vote counts if its caster is an owner. -/
theorem approvals_of_voted (standings : Standings) (husers : (s.seats.map (·.user)).Nodup)
    {seat : VoterSeat} (hseat : seat ∈ s.seats) (hpending : seat.decision = .pending)
    (sub : Submission) (payloadHash : List UInt8) (voted : Consilium) :
    (((s.withSeat seat.user (·.voted sub payloadHash)).persist voted).rehydrate
        standings).approvals = (s.rehydrate standings).approvals +
      if (standings seat.user).stillAnOwner = true ∧ sub.decision = .approve then 1 else 0 := by
  rw [StoredConsilium.approvals_rehydrate, StoredConsilium.approvals_rehydrate,
    StoredConsilium.persist_seats, countP_withSeat husers hseat _ _ (by simp [hpending])]
  by_cases hd : sub.decision = .approve <;>
    simp [VoterSeat.voted, VoterSeat.counted, VoterSeat.answer, hd]

/-- What a vote that carries shows. -/
theorem carried_of_recorded {standings : Standings} {sub : Submission} {seat : VoterSeat}
    {voted : Consilium} {events : List ConsiliumEvent}
    (hframe : ConsiliumFrame (s.rehydrate standings) voted events)
    (htally : Tallied voted seat.user sub.decision events) (hstate : voted.state = .approved) :
    s.row.threshold ≤ voted.approvals := by
  have hthreshold : voted.threshold = s.row.threshold := hframe.threshold
  cases htally with
  | carried _ ha => exact hthreshold ▸ ha
  | refused hs _ _ => rw [hs] at hstate; cases hstate
  | undecided hs _ _ => rw [hs] at hstate; cases hstate

/-- **A submission that is not a lost seat's carries by live approvals.** -/
theorem GateSafe.carried_le (h : GateSafe s log) {standings : Standings} {sub : Submission}
    (hkept : ¬ s.LostSeatCarries digest standings sub) {live threshold : Nat}
    (hfact : .carried live threshold ∈
      carriedIn standings s (s.submit digest standings sub).stored) : threshold ≤ live := by
  have hmove := s.submit_move digest standings h.users sub
  generalize s.submit digest standings sub = result at hmove hfact
  have hkeeps : ∀ {s' : StoredConsilium}, s'.row.state = s.row.state →
      .carried live threshold ∉ carriedIn standings s s' := by
    intro s' hstate hmem
    unfold carriedIn at hmem
    rw [hstate] at hmem
    split_ifs at hmem with hcarried
    · rw [hcarried.1] at hcarried
      exact absurd hcarried.2 (by decide)
    · cases hmem
  cases hmove with
  | refused => exact absurd hfact (hkeeps rfl)
  | wrong => exact absurd hfact (hkeeps rfl)
  | answered => exact absurd hfact (hkeeps rfl)
  | returned => exact absurd hfact (hkeeps rfl)
  | @recorded _ seat voted events hseat htoken hlive htime hopen hpending hcode _ hframe hvotes
      htally =>
    unfold carriedIn at hfact
    split_ifs at hfact with hcarried
    · simp only [List.mem_singleton, VoteFact.carried.injEq] at hfact
      obtain ⟨rfl, rfl⟩ := hfact
      have hle := carried_of_recorded hframe htally hcarried.2
      rw [approvals_of_votes hvotes] at hle
      rw [approvals_of_voted _ h.users hseat hpending]
      change s.row.threshold ≤ _
      by_contra hlt
      -- short by one, so it is the caster's own approval that is missing
      by_cases hd : sub.decision = .approve
      · by_cases howner : (standings seat.user).stillAnOwner = true
        · rw [if_pos ⟨howner, hd⟩] at hlt
          rw [if_pos hd] at hle
          exact hlt hle
        · rw [if_neg fun hboth => howner hboth.1] at hlt
          rw [if_pos hd] at hle
          exact hkept ⟨seat, hseat, htoken, hlive, htime, hopen, hpending, hcode, hd,
            by simpa using howner, by omega⟩
      · rw [if_neg hd] at hle
        rw [if_neg fun hboth => hd hboth.2] at hlt
        exact hlt hle
    · cases hfact

/-- A lost seat's approval, the last one missing, carries the consilium short of one. -/
theorem GateSafe.carried_lt (h : GateSafe s log) {standings : Standings} {sub : Submission}
    (hlost : s.LostSeatCarries digest standings sub) :
    ∃ live threshold, live < threshold ∧ .carried live threshold ∈
      carriedIn standings s (s.submit digest standings sub).stored := by
  obtain ⟨seat, hseat, htoken, hlive, htime, hopen, hpending, hcode, hd, howner, hshort⟩ := hlost
  have hvote : sub.decision ≠ .pending := by
    rw [hd]
    decide
  obtain ⟨answer, voted, events, hrecorded, hframe, hvotes, htally⟩ :=
    s.recordAnswer_fresh standings h.users hseat hpending hopen hvote
  have hsubmit : (s.submit digest standings sub).stored =
      (s.withSeat seat.user (·.voted sub s.row.payloadHash)).persist voted := by
    unfold StoredConsilium.submit
    rw [h.find_token hseat htoken]
    dsimp only
    rw [if_neg (by simp [hlive, htime]), if_neg (fun hclosed => hclosed.1 hopen), if_pos hpending,
      if_neg (not_not.mpr hcode), hrecorded]
  have happrovals := approvals_of_votes hvotes
  rw [if_pos hd] at happrovals
  have hthreshold : voted.threshold = s.row.threshold := hframe.threshold
  have hstate : voted.state = .approved := by
    cases htally with
    | carried hs _ => exact hs
    | refused _ ha _ => omega
    | undecided _ ha _ => omega
  refine ⟨(s.rehydrate standings).approvals, s.row.threshold, by omega, ?_⟩
  have happrovals := approvals_of_voted standings h.users hseat hpending sub s.row.payloadHash voted
  rw [if_neg (by simp [howner]), Nat.add_zero] at happrovals
  rw [hsubmit]
  unfold carriedIn
  rw [if_pos ⟨hopen, hstate⟩, happrovals]
  exact List.mem_singleton.mpr rfl

/-- A carried consilium a change shows is the one it carried. -/
theorem mem_facts_carried {step : StoreStep} {live threshold : Nat}
    (h : VoteFact.carried live threshold ∈ step.facts digest s) :
    VoteFact.carried live threshold ∈ carriedIn step.standings s (step.run digest s) := by
  rcases List.mem_append.mp h with h | h
  · rcases List.mem_append.mp h with h | h
    · cases step with
      | submit standings sub =>
        simp only [StoreStep.comparison, Option.mem_toList, Option.map_eq_some_iff] at h
        obtain ⟨_, -, hfact⟩ := h
        cases hfact
      | _ => cases h
    · simp only [recordedIn, List.mem_filterMap] at h
      obtain ⟨_, -, hfact⟩ := h
      split_ifs at hfact
      cases hfact
  · exact h

/-- A change carries by live approvals exactly when it is not a lost seat's submission. -/
theorem GateSafe.carried_iff (h : GateSafe s log) (step : StoreStep) :
    (∀ live threshold, .carried live threshold ∈ step.facts digest s → threshold ≤ live) ↔
      SeatKept digest s step := by
  by_cases hsubmit : ∃ standings sub, step = .submit standings sub
  · obtain ⟨standings, sub, rfl⟩ := hsubmit
    constructor
    · intro hle hlost
      obtain ⟨live, threshold, hlt, hfact⟩ := h.carried_lt hlost
      exact absurd (hle live threshold (List.mem_append_right _ hfact)) (Nat.not_le.mpr hlt)
    · intro hkept live threshold hfact
      exact h.carried_le hkept (mem_facts_carried hfact)
  · obtain ⟨-, hstate⟩ := step.run_other digest (fun standings sub hs => hsubmit ⟨_, _, hs⟩) s
    refine ⟨fun _ => ?_, fun _ live threshold hfact => ?_⟩
    · cases step with
      | submit standings sub => exact absurd ⟨_, _, rfl⟩ hsubmit
      | _ => trivial
    · have hcarried := mem_facts_carried hfact
      unfold carriedIn at hcarried
      rw [if_neg fun hboth => hstate hboth.1 hboth.2] at hcarried
      cases hcarried

end Safe

/-! ## The gate -/

/-- **What the gate promises**, of a stored consilium and what its run showed. -/
structure SubmissionGate (digest : String → List UInt8) (s : StoredConsilium)
    (log : List VoteFact) : Prop where
  /-- At most five codes are compared for a seat before one is right. -/
  attempts : ∀ voter, ((comparisons log voter).takeWhile (!·)).length ≤ MAX_CODE_ATTEMPTS
  /-- Until one is right, every comparison is on record. -/
  persisted : ∀ seat ∈ s.seats, true ∉ comparisons log seat.user →
    seat.attempts = (comparisons log seat.user).length
  /-- An answer is recorded from a live seat in an open consilium. -/
  recorded : ∀ seat answered state, .recorded seat answered state ∈ log →
    seat.burned = false ∧ state = .opened ∧
      ∃ time, answered.decidedAt = some time ∧ time < seat.expiresAt
  /-- A repeated answer changes nothing. -/
  repeated : ∀ seat ∈ s.seats, seat.decision ≠ .pending → ∀ standings sub,
    seat.tokenHash = sub.tokenHash → sub.decision = seat.decision →
    (s.submit digest standings sub).stored = s

/-- **The submission gate**, over every run: it keeps its promises, and the consilium is carried by
approvals of current owners exactly in the runs in which no seat's holder, no longer an owner,
submits the approval that is the last one missing. -/
theorem submission_gate {digest : String → List UInt8} {s : StoredConsilium} {log : List VoteFact}
    (h : StoreRun digest (fun _ _ => True) s log) : SubmissionGate digest s log ∧
      ((∀ live threshold, .carried live threshold ∈ log → threshold ≤ live) ↔
        StoreRun digest (SeatKept digest) s log) := by
  have hsafe := h.safe
  refine ⟨⟨hsafe.before, fun seat hseat hnone => (hsafe.counted seat hseat hnone).2.1,
    hsafe.recorded, fun seat hseat hanswered standings sub htoken _ =>
      hsafe.answered_kept hseat hanswered standings htoken⟩, ?_, ?_⟩
  · intro hlive
    induction h with
    | opened h hseats hopen => exact .opened h hseats hopen
    | step h step _ ih =>
      refine .step (ih h.safe fun live threshold hfact =>
        hlive live threshold (List.mem_append_left _ hfact)) step ?_
      exact (h.safe.carried_iff step).mp fun live threshold hfact =>
        hlive live threshold (List.mem_append_right _ hfact)
  · intro hkept
    clear h hsafe
    induction hkept with
    | opened => exact fun live threshold hfact => by cases hfact
    | step hkept step hguard ih =>
      intro live threshold hfact
      rcases List.mem_append.mp hfact with hfact | hfact
      · exact ih live threshold hfact
      · exact (hkept.safe.carried_iff step).mpr hguard live threshold hfact

/-! ## A lost seat carries -/

/-- The digest of the sample: the text itself. -/
def sampleDigest (code : String) : List UInt8 := code.toList.map fun c => UInt8.ofNat c.toNat

/-- The two who may vote on the sample. -/
def sampleCredentials : List VoterCredential :=
  [⟨.raw 2, [2], sampleDigest "AAAA"⟩, ⟨.raw 3, [3], sampleDigest "BBBB"⟩]

/-- The sample as it is stored at its opening. -/
def sampleStored : StoredConsilium where
  row :=
    { id := .raw 7, terms := .valuationOverride (sampleMark 1 sampleMark_one), payloadHash := []
      initiator := .raw 1, ownerCount := 3, threshold := 2, state := .opened, createdAt := 100
      expiresAt := 259300, decidedAt := none, executed := none, failureReason := none
      version := 1 }
  seats := sampleCredentials.map (·.seat 259300)
  outbox := [.opened]

/-- Everybody is an owner; the frozen ones are in no good standing. -/
def frozenOwners (frozen : List UserId) : Standings := fun user =>
  { owner := true, frozen := user ∈ frozen, disabled := false }

/-- An owner's approval. -/
def sampleApproval : StoreStep :=
  .submit (frozenOwners []) ⟨[2], "AAAA", .approve, ⟨"", ""⟩, 101⟩

/-- The approval of an owner frozen by then. -/
def sampleLostApproval : StoreStep :=
  .submit (frozenOwners [.raw 3]) ⟨[3], "BBBB", .approve, ⟨"", ""⟩, 102⟩

/-- The sample after the first approval. -/
def sampleHalf : StoredConsilium := sampleApproval.run sampleDigest sampleStored

/-- What both approvals showed. -/
def sampleLog : List VoteFact :=
  [] ++ sampleApproval.facts sampleDigest sampleStored ++
    sampleLostApproval.facts sampleDigest sampleHalf

theorem sampleLog_run {guard : StoredConsilium → StoreStep → Prop}
    (hfirst : guard sampleStored sampleApproval) (hlost : guard sampleHalf sampleLostApproval) :
    StoreRun sampleDigest guard (sampleLostApproval.run sampleDigest sampleHalf) sampleLog := by
  have hopen : Consilium.openOver (.raw 7) (.valuationOverride (sampleMark 1 (by decide))) []
      (.raw 1) [.raw 1, .raw 2, .raw 3] 100 = .ok sampleConsilium := by rfl
  have hstored : sampleConsilium.openOn sampleCredentials 100 = .ok sampleStored := by rfl
  exact ((StoreRun.opened hopen rfl hstored).step sampleApproval hfirst).step sampleLostApproval
    hlost

/-- The second approval carries it with one live approval of two. -/
theorem sampleLog_carried : .carried 1 2 ∈ sampleLog := by
  have hcarried : carriedIn sampleLostApproval.standings sampleHalf
      (sampleLostApproval.run sampleDigest sampleHalf) = [.carried 1 2] := by rfl
  refine List.mem_append_right _ (List.mem_append_right _ ?_)
  rw [hcarried]
  exact List.mem_singleton.mpr rfl

theorem submission_gate_sample :
    SubmissionGate sampleDigest (sampleLostApproval.run sampleDigest sampleHalf) sampleLog ∧
      ¬ StoreRun sampleDigest (SeatKept sampleDigest)
        (sampleLostApproval.run sampleDigest sampleHalf) sampleLog := by
  obtain ⟨hgate, hlive⟩ := submission_gate (sampleLog_run trivial trivial)
  refine ⟨hgate, fun hkept => ?_⟩
  exact absurd (hlive.mpr hkept 1 2 sampleLog_carried) (by decide)

/-- A frozen owner's approval, the last one missing, carries the consilium. -/
theorem lost_seat_carries :
    ∃ (digest : String → List UInt8) (s : StoredConsilium) (log : List VoteFact),
      StoreRun digest (fun _ _ => True) s log ∧
        ∃ live threshold, .carried live threshold ∈ log ∧ live < threshold :=
  ⟨sampleDigest, _, sampleLog, sampleLog_run trivial trivial, 1, 2, sampleLog_carried, by decide⟩

end Banking
