import Mathlib.Data.Finset.Card
import Mathlib.Data.Finset.Dedup
import Banking.Consilium

/-! # The tally over a run

What one command can do to a consilium (`ConsiliumMove`), the invariant of its tally
(`ConsiliumSafe`), and what holds of every run. -/

namespace Banking

/-! ## The roster of an opening -/

theorem foldl_distinctOwners (owners : List UserId) :
    ∀ roster : List UserId, roster.Nodup →
      (owners.foldl (fun roster owner => if owner ∈ roster then roster else roster ++ [owner])
        roster).Nodup ∧
      ∀ u, u ∈ owners.foldl (fun roster owner => if owner ∈ roster then roster
        else roster ++ [owner]) roster ↔ u ∈ roster ∨ u ∈ owners := by
  induction owners with
  | nil => exact fun roster hr => ⟨hr, fun u => by simp⟩
  | cons owner owners ih =>
    intro roster hr
    rw [List.foldl_cons]
    by_cases hin : owner ∈ roster
    · rw [if_pos hin]
      refine ⟨(ih roster hr).1, fun u => ?_⟩
      rw [(ih roster hr).2 u, List.mem_cons]
      constructor
      · rintro (h | h)
        · exact .inl h
        · exact .inr (.inr h)
      · rintro (h | rfl | h)
        · exact .inl h
        · exact .inl hin
        · exact .inr h
    · rw [if_neg hin]
      have hr' : (roster ++ [owner]).Nodup :=
        List.nodup_append.mpr ⟨hr, List.nodup_singleton owner,
          fun a ha b hb => fun hab => hin (by simp_all)⟩
      refine ⟨(ih _ hr').1, fun u => ?_⟩
      rw [(ih _ hr').2 u, List.mem_append, List.mem_singleton, List.mem_cons, or_assoc]

theorem nodup_distinctOwners (owners : List UserId) : (distinctOwners owners).Nodup :=
  (foldl_distinctOwners owners [] List.nodup_nil).1

theorem mem_distinctOwners {owners : List UserId} {u : UserId} :
    u ∈ distinctOwners owners ↔ u ∈ owners := by
  simpa [distinctOwners] using (foldl_distinctOwners owners [] List.nodup_nil).2 u

/-- The roster counts the owners, each once. -/
theorem length_distinctOwners (owners : List UserId) :
    (distinctOwners owners).length = owners.toFinset.card := by
  rw [← List.toFinset_card_of_nodup (nodup_distinctOwners owners)]
  congr 1
  ext u
  simp [mem_distinctOwners]

/-! ## What a command can do -/

/-- The seats that have not answered. -/
def Consilium.pendingSeats (c : Consilium) : List UserId :=
  c.eligible.filter (· ∉ c.votes.map (·.voter))

/-- What a recorded answer raised and left, by where the tally stands after it. -/
inductive Tallied (c : Consilium) (voter : UserId) (decision : VoteDecision) :
    List ConsiliumEvent → Prop
  | carried (hs : c.state = .approved) (ha : c.threshold ≤ c.approvals) :
      Tallied c voter decision [.voteRecorded voter decision, .approved c.approvals]
  | refused (hs : c.state = .rejected) (ha : c.approvals < c.threshold)
      (hr : c.eligible.length - c.threshold < c.rejections) :
      Tallied c voter decision [.voteRecorded voter decision, .rejected c.rejections]
  | undecided (hs : c.state = .opened) (ha : c.approvals < c.threshold)
      (hr : c.rejections ≤ c.eligible.length - c.threshold) :
      Tallied c voter decision [.voteRecorded voter decision]

/-- What a command can do to a consilium, and the events it raises. -/
inductive ConsiliumMove (c : Consilium) : Consilium → List ConsiliumEvent → Prop
  | same : ConsiliumMove c c []
  | vote {c' : Consilium} {events : List ConsiliumEvent} (voter : UserId) (decision : VoteDecision)
      (time : Int) (hopen : c.state = .opened) (hd : decision ≠ .pending) (hseat : voter ∈ c.eligible)
      (hnew : voter ∉ c.votes.map (·.voter))
      (hvotes : c'.votes = c.votes ++ [⟨voter, decision, time, true⟩])
      (hexecuted : c'.executed = c.executed) (htally : Tallied c' voter decision events) :
      ConsiliumMove c c' events
  | close {c' : Consilium} {event : ConsiliumEvent} (hopen : c.state = .opened)
      (hs : c'.state = .cancelled ∨ c'.state = .expired) (hvotes : c'.votes = c.votes)
      (hexecuted : c'.executed = c.executed) (hevent : event.isVerdict = true) :
      ConsiliumMove c c' [event]
  | execute {c' : Consilium} (effect : ConsiliumEffect) (happroved : c.state = .approved)
      (hs : c'.state = .executed) (hvotes : c'.votes = c.votes)
      (hexecuted : c'.executed = some effect) : ConsiliumMove c c' [.executed effect]
  | fail {c' : Consilium} (reason : String) (happroved : c.state = .approved)
      (hs : c'.state = .executionFailed) (hvotes : c'.votes = c.votes)
      (hexecuted : c'.executed = c.executed) : ConsiliumMove c c' [.executionFailed reason]

/-- What every command leaves alone, and how the counters go with the events it raises. -/
structure ConsiliumFrame (c c' : Consilium) (events : List ConsiliumEvent) : Prop where
  initiator : c'.initiator = c.initiator
  threshold : c'.threshold = c.threshold
  eligible : c'.eligible = c.eligible
  pending : c'.pending = c.pending ++ events
  version : c'.version = c.version + events.length

/-- What a command did: a move, and its frame. -/
def ConsiliumDone (c c' : Consilium) : Prop :=
  ∃ events, ConsiliumFrame c c' events ∧ ConsiliumMove c c' events

theorem ConsiliumDone.refl (c : Consilium) : ConsiliumDone c c :=
  ⟨[], ⟨rfl, rfl, rfl, by simp, by simp⟩, .same⟩

theorem Consilium.closeOpen_done (c : Consilium) {target : ConsiliumState} (time : Int)
    (htarget : target = .cancelled ∨ target = .expired) :
    ConsiliumDone c (c.closeOpen target time).2 := by
  unfold Consilium.closeOpen
  split_ifs with hsame hclosed
  · exact .refl c
  · exact .refl c
  · have hopen : c.state = .opened := not_not.mp hclosed
    rcases htarget with rfl | rfl <;>
      exact ⟨_, ⟨rfl, rfl, rfl, rfl, rfl⟩,
        .close hopen (by simp [Consilium.decide, Consilium.raise]) rfl rfl rfl⟩

theorem Consilium.markExecuted_done (c : Consilium) (effect : ConsiliumEffect) :
    ConsiliumDone c (c.markExecuted effect).2 := by
  unfold Consilium.markExecuted
  by_cases happroved : c.state = .approved
  · simp only [happroved, reduceCtorEq, if_false, not_true_eq_false, ne_eq]
    exact ⟨_, ⟨rfl, rfl, rfl, rfl, rfl⟩, .execute effect happroved rfl rfl rfl⟩
  · split_ifs <;> exact .refl c

theorem Consilium.markExecutionFailed_done (c : Consilium) (reason : String) :
    ConsiliumDone c (c.markExecutionFailed reason).2 := by
  unfold Consilium.markExecutionFailed
  by_cases happroved : c.state = .approved
  · simp only [happroved, reduceCtorEq, if_false, not_true_eq_false, ne_eq]
    exact ⟨_, ⟨rfl, rfl, rfl, rfl, rfl⟩, .fail reason happroved rfl rfl rfl⟩
  · split_ifs <;> exact .refl c

theorem Consilium.expire_done (c : Consilium) (time : Int) :
    ConsiliumDone c (c.expire time).2 := by
  unfold Consilium.expire
  split_ifs
  · exact .refl c
  · exact c.closeOpen_done time (.inr rfl)

theorem Consilium.recordVote_done (c : Consilium) (voter : UserId) (decision : VoteDecision)
    (time : Int) : ConsiliumDone c (c.recordVote voter decision time).2 := by
  unfold Consilium.recordVote
  by_cases hd : decision = .pending
  · rw [if_pos hd]
    exact .refl c
  rw [if_neg hd]
  by_cases hseat : voter ∈ c.eligible
  · rw [if_neg (not_not.mpr hseat)]
    cases hfind : c.votes.find? (·.voter = voter) with
    | some existing =>
      dsimp only
      split_ifs <;> exact .refl c
    | none =>
      have hnew : voter ∉ c.votes.map (·.voter) := by
        intro hmem
        obtain ⟨vote, hvote, hvoter⟩ := List.mem_map.mp hmem
        have := List.find?_eq_none.mp hfind vote hvote
        simp [hvoter] at this
      by_cases hopen : c.state = .opened
      · dsimp only
        rw [if_neg (not_not.mpr hopen)]
        have hopen' : ((({ c with votes := c.votes ++ [⟨voter, decision, time, true⟩] } :
            Consilium)).raise (.voteRecorded voter decision)).state = .opened := hopen
        unfold Consilium.settleTally
        rw [if_neg (not_not.mpr hopen')]
        -- the tally after the vote decides where the consilium goes
        split_ifs with ha hr
        · exact ⟨_, ⟨rfl, rfl, rfl, List.append_assoc _ _ _, rfl⟩,
            .vote voter decision time hopen hd hseat hnew rfl rfl (.carried rfl ha)⟩
        · exact ⟨_, ⟨rfl, rfl, rfl, List.append_assoc _ _ _, rfl⟩,
            .vote voter decision time hopen hd hseat hnew rfl rfl
              (.refused rfl (Nat.lt_of_not_le ha) hr)⟩
        · exact ⟨_, ⟨rfl, rfl, rfl, rfl, rfl⟩,
            .vote voter decision time hopen hd hseat hnew rfl rfl
              (.undecided hopen' (Nat.lt_of_not_le ha) (Nat.le_of_not_lt hr))⟩
      · simp only [if_pos (show c.state ≠ .opened from hopen)]
        exact .refl c
  · rw [if_pos hseat]
    exact .refl c

/-- Every command, answered or refused, is one move. -/
theorem ConsiliumCommand.run_done (command : ConsiliumCommand) (c : Consilium) :
    ConsiliumDone c (command.run c).2 := by
  cases command with
  | vote voter decision time => exact c.recordVote_done voter decision time
  | cancel time => exact c.closeOpen_done time (.inl rfl)
  | expire time => exact c.expire_done time
  | execute effect => exact c.markExecuted_done effect
  | fail reason => exact c.markExecutionFailed_done reason

/-- A command that errs changes nothing. -/
theorem ConsiliumCommand.run_error {command : ConsiliumCommand} {c : Consilium} {e : DomainError}
    (h : (command.run c).1 = .error e) : (command.run c).2 = c := by
  have hclose : ∀ target time, (c.closeOpen target time).1 = .error e →
      (c.closeOpen target time).2 = c := by
    intro target time h
    unfold Consilium.closeOpen at h ⊢
    split_ifs at h ⊢
    rfl
  cases command with
  | vote voter decision time =>
    simp only [ConsiliumCommand.run, Consilium.recordVote] at h ⊢
    cases hfind : c.votes.find? (·.voter = voter) <;> simp only [hfind] at h ⊢ <;>
      split_ifs at h ⊢ <;> rfl
  | cancel time => exact hclose _ _ h
  | expire time =>
    simp only [ConsiliumCommand.run, Consilium.expire] at h ⊢
    split_ifs at h ⊢
    · rfl
    · exact hclose _ _ h
  | execute effect =>
    simp only [ConsiliumCommand.run, Consilium.markExecuted] at h ⊢
    split_ifs at h ⊢ <;> rfl
  | fail reason =>
    simp only [ConsiliumCommand.run, Consilium.markExecutionFailed] at h ⊢
    split_ifs at h ⊢
    rfl

/-! ## The invariant -/

/-- Where the counted votes stand in each state. -/
def Consilium.TallySays (c : Consilium) : Prop :=
  match c.state with
  | .opened => c.approvals < c.threshold ∧ c.rejections ≤ c.eligible.length - c.threshold
  | .approved | .executed | .executionFailed => c.threshold ≤ c.approvals
  | .rejected => c.approvals < c.threshold ∧ c.eligible.length - c.threshold < c.rejections
  | .expired | .cancelled => True

/-- **The invariant of a consilium** opened over `owners` that has raised `raised`. -/
structure ConsiliumSafe (owners : List UserId) (c : Consilium) (raised : List ConsiliumEvent) :
    Prop where
  enough : MIN_OWNERS ≤ owners.toFinset.card
  threshold : c.threshold = Banking.threshold owners.toFinset.card
  seats : c.eligible.length + 1 = owners.toFinset.card
  nodup : c.eligible.Nodup
  initiator : c.initiator ∉ c.eligible
  once : (c.votes.map (·.voter)).Nodup
  seated : ∀ vote ∈ c.votes, vote.voter ∈ c.eligible
  answered : ∀ vote ∈ c.votes, vote.counts = true ∧ vote.decision ≠ .pending
  tally : c.TallySays
  verdicts : (raised.filter (·.isVerdict)).length = if c.state = .opened then 0 else 1
  version : c.version = raised.length
  effect : c.state = .executed ↔ c.executed.isSome

/-- Every recorded answer is an approval or a rejection that counts. -/
theorem ConsiliumSafe.approvals_add_rejections {owners : List UserId} {c : Consilium}
    {raised : List ConsiliumEvent} (h : ConsiliumSafe owners c raised) :
    c.approvals + c.rejections = c.votes.length := by
  unfold Consilium.approvals Consilium.rejections Consilium.counted
  rw [List.length_eq_length_filter_add (l := c.votes) fun vote =>
    vote.counts && vote.decision = .approve]
  congr 2
  refine List.filter_congr fun vote hvote => ?_
  obtain ⟨hcounts, hanswer⟩ := h.answered vote hvote
  cases hd : vote.decision with
  | pending => exact absurd hd hanswer
  | approve | reject => simp [hcounts]

/-- The seats that have not answered are the others. -/
theorem ConsiliumSafe.pendingSeats_add_votes {owners : List UserId} {c : Consilium}
    {raised : List ConsiliumEvent} (h : ConsiliumSafe owners c raised) :
    c.pendingSeats.length + c.votes.length = c.eligible.length := by
  rw [List.length_eq_length_filter_add (l := c.eligible) (· ∉ c.votes.map (·.voter))]
  have hperm : (c.eligible.filter fun seat => !decide (seat ∉ c.votes.map (·.voter))).Perm
      (c.votes.map (·.voter)) := by
    rw [List.perm_ext_iff_of_nodup (h.nodup.filter _) h.once]
    intro u
    simp only [List.mem_filter, decide_not, Bool.not_not, decide_eq_true_eq]
    refine ⟨fun hu => hu.2, fun hu => ⟨?_, hu⟩⟩
    obtain ⟨vote, hvote, rfl⟩ := List.mem_map.mp hu
    exact h.seated vote hvote
  rw [hperm.length_eq, List.length_map]
  rfl

/-- A roster of three or more can carry without its initiator. -/
theorem ConsiliumSafe.threshold_le {owners : List UserId} {c : Consilium}
    {raised : List ConsiliumEvent} (h : ConsiliumSafe owners c raised) :
    c.threshold ≤ c.eligible.length := by
  have henough := h.enough
  have hseats := h.seats
  rw [h.threshold]
  unfold Banking.threshold
  unfold MIN_OWNERS at henough
  omega

/-- An opening is safe. -/
theorem Consilium.openOver_safe {id : Uuid} {terms : ConsiliumTerms} {payloadHash : List UInt8}
    {initiator : UserId} {owners : List UserId} {createdAt : Int} {c : Consilium}
    (h : Consilium.openOver id terms payloadHash initiator owners createdAt = .ok c) :
    ConsiliumSafe owners c c.pending := by
  unfold Consilium.openOver at h
  dsimp only at h
  split_ifs at h with howner hfew
  cases h
  have hnodup := nodup_distinctOwners owners
  have hfilter : ((distinctOwners owners).filter (· ≠ initiator)).length + 1 =
      (distinctOwners owners).length := by
    have herase : (distinctOwners owners).filter (· ≠ initiator) =
        (distinctOwners owners).erase initiator := by
      rw [hnodup.erase_eq_filter]
      exact List.filter_congr fun u _ => by simp [bne, beq_eq_decide]
    have hpos := List.length_pos_of_mem howner
    rw [herase, List.length_erase_of_mem howner]
    omega
  exact {
    enough := by rw [← length_distinctOwners]; exact Nat.le_of_not_lt hfew
    threshold := by rw [← length_distinctOwners]
    seats := by rw [← length_distinctOwners]; exact hfilter
    nodup := hnodup.filter _
    initiator := by simp
    once := List.nodup_nil
    seated := by simp
    answered := by simp
    tally := ⟨Nat.succ_pos _, Nat.zero_le _⟩
    verdicts := rfl
    version := rfl
    effect := by simp }

/-! ## One step -/

/-- A consilium that is not open any more has had its verdict. -/
theorem verdicts_append {raised events : List ConsiliumEvent} {n : Nat}
    (h : (raised.filter (·.isVerdict)).length = n) :
    ((raised ++ events).filter (·.isVerdict)).length =
      n + (events.filter (·.isVerdict)).length := by
  rw [List.filter_append, List.length_append, h]

/-- The seat of a new answer was pending. -/
theorem ConsiliumSafe.vote {owners : List UserId} {c c' : Consilium} {raised : List ConsiliumEvent}
    {events : List ConsiliumEvent} (h : ConsiliumSafe owners c raised)
    (hframe : ConsiliumFrame c c' events) {voter : UserId} {decision : VoteDecision} {time : Int}
    (hopen : c.state = .opened) (hd : decision ≠ .pending) (hseat : voter ∈ c.eligible)
    (hnew : voter ∉ c.votes.map (·.voter))
    (hvotes : c'.votes = c.votes ++ [⟨voter, decision, time, true⟩])
    (hexecuted : c'.executed = c.executed) (htally : Tallied c' voter decision events) :
    ConsiliumSafe owners c' (raised ++ events) := by
  have hverdicts := h.verdicts
  rw [if_pos hopen] at hverdicts
  have hnone : c'.executed.isSome = false := by
    rw [hexecuted]
    by_contra hsome
    have hstate := h.effect.mpr (by simpa [Option.isSome_iff_ne_none] using hsome)
    rw [hopen] at hstate
    cases hstate
  exact {
    enough := h.enough
    threshold := hframe.threshold.trans h.threshold
    seats := by rw [hframe.eligible]; exact h.seats
    nodup := by rw [hframe.eligible]; exact h.nodup
    initiator := by rw [hframe.eligible, hframe.initiator]; exact h.initiator
    once := by
      rw [hvotes, List.map_append, List.nodup_append]
      exact ⟨h.once, List.nodup_singleton _, fun a ha b hb hab => hnew (by simp_all)⟩
    seated := by
      intro vote hvote
      rw [hvotes, List.mem_append, List.mem_singleton] at hvote
      rw [hframe.eligible]
      rcases hvote with hvote | rfl
      · exact h.seated vote hvote
      · exact hseat
    answered := by
      intro vote hvote
      rw [hvotes, List.mem_append, List.mem_singleton] at hvote
      rcases hvote with hvote | rfl
      · exact h.answered vote hvote
      · exact ⟨rfl, hd⟩
    tally := by
      unfold Consilium.TallySays
      cases htally with
      | carried hs ha => rw [hs]; exact ha
      | refused hs ha hr => rw [hs]; exact ⟨ha, hr⟩
      | undecided hs ha hr => rw [hs]; exact ⟨ha, hr⟩
    verdicts := by
      rw [verdicts_append hverdicts]
      cases htally with
      | carried hs | refused hs | undecided hs => rw [hs]; rfl
    version := by rw [hframe.version, h.version, List.length_append]
    effect := by
      rw [hnone]
      cases htally with
      | carried hs | refused hs | undecided hs => simp [hs] }

/-- A move that records no answer keeps the roster and the votes. -/
theorem ConsiliumSafe.of_votes {owners : List UserId} {c c' : Consilium}
    {raised events : List ConsiliumEvent} (h : ConsiliumSafe owners c raised)
    (hframe : ConsiliumFrame c c' events) (hvotes : c'.votes = c.votes) (htally : c'.TallySays)
    (hverdicts : ((raised ++ events).filter (·.isVerdict)).length =
      if c'.state = .opened then 0 else 1)
    (heffect : c'.state = .executed ↔ c'.executed.isSome) :
    ConsiliumSafe owners c' (raised ++ events) where
  enough := h.enough
  threshold := hframe.threshold.trans h.threshold
  seats := by rw [hframe.eligible]; exact h.seats
  nodup := by rw [hframe.eligible]; exact h.nodup
  initiator := by rw [hframe.eligible, hframe.initiator]; exact h.initiator
  once := by rw [hvotes]; exact h.once
  seated := by rw [hvotes, hframe.eligible]; exact h.seated
  answered := by rw [hvotes]; exact h.answered
  tally := htally
  verdicts := hverdicts
  version := by rw [hframe.version, h.version, List.length_append]
  effect := heffect

/-- The votes of an approved consilium carry it, whatever becomes of its effect. -/
theorem ConsiliumSafe.carried {owners : List UserId} {c c' : Consilium}
    {raised events : List ConsiliumEvent} (h : ConsiliumSafe owners c raised)
    (hframe : ConsiliumFrame c c' events) (hvotes : c'.votes = c.votes)
    (happroved : c.state = .approved) : c'.threshold ≤ c'.approvals := by
  have htally := h.tally
  rw [Consilium.TallySays, happroved] at htally
  rw [hframe.threshold, Consilium.approvals, Consilium.counted, hvotes]
  exact htally

/-- One move keeps the invariant. -/
theorem ConsiliumSafe.move {owners : List UserId} {c c' : Consilium} {raised : List ConsiliumEvent}
    {events : List ConsiliumEvent} (h : ConsiliumSafe owners c raised)
    (hframe : ConsiliumFrame c c' events) (hmove : ConsiliumMove c c' events) :
    ConsiliumSafe owners c' (raised ++ events) := by
  have hverdicts := h.verdicts
  cases hmove with
  | same => simpa using h
  | vote voter decision time hopen hd hseat hnew hvotes hexecuted htally =>
    exact h.vote hframe hopen hd hseat hnew hvotes hexecuted htally
  | close hopen hs hvotes hexecuted hevent =>
    rw [if_pos hopen] at hverdicts
    have hclosed : c'.state ≠ .opened := by rcases hs with hs | hs <;> simp [hs]
    refine h.of_votes hframe hvotes ?_ ?_ ?_
    · rcases hs with hs | hs <;> simp [Consilium.TallySays, hs]
    · rw [verdicts_append hverdicts, if_neg hclosed]
      simp [hevent]
    · rw [hexecuted, ← h.effect, hopen]
      rcases hs with hs | hs <;> simp [hs]
  | execute effect happroved hs hvotes hexecuted =>
    rw [if_neg (by simp [happroved])] at hverdicts
    refine h.of_votes hframe hvotes ?_ ?_ ?_
    · rw [Consilium.TallySays, hs]
      exact h.carried hframe hvotes happroved
    · rw [verdicts_append hverdicts, if_neg (by simp [hs])]
      rfl
    · simp [hs, hexecuted]
  | fail reason happroved hs hvotes hexecuted =>
    rw [if_neg (by simp [happroved])] at hverdicts
    refine h.of_votes hframe hvotes ?_ ?_ ?_
    · rw [Consilium.TallySays, hs]
      exact h.carried hframe hvotes happroved
    · rw [verdicts_append hverdicts, if_neg (by simp [hs])]
      rfl
    · rw [hexecuted, ← h.effect, happroved, hs]
      simp

/-! ## Every run -/

/-- The invariant holds of every run. -/
theorem ConsiliumRun.safe {owners : List UserId} {c : Consilium} {drained : List ConsiliumEvent}
    (h : ConsiliumRun owners c drained) : ConsiliumSafe owners c (drained ++ c.pending) := by
  induction h with
  | opened hopen => exact Consilium.openOver_safe hopen
  | @command c drained h command ih =>
    obtain ⟨events, hframe, hmove⟩ := command.run_done c
    rw [hframe.pending, ← List.append_assoc]
    exact ih.move hframe hmove
  | @drain c drained h ih =>
    have hraised : (drained ++ c.drainEvents.1) ++ c.drainEvents.2.pending =
        drained ++ c.pending := by simp [Consilium.drainEvents]
    rw [hraised]
    exact ⟨ih.enough, ih.threshold, ih.seats, ih.nodup, ih.initiator, ih.once, ih.seated,
      ih.answered, ih.tally, ih.verdicts, ih.version, ih.effect⟩

/-- A seat voted by the initiator would be one of the seats. -/
theorem ConsiliumSafe.initiator_silent {owners : List UserId} {c : Consilium}
    {raised : List ConsiliumEvent} (h : ConsiliumSafe owners c raised) :
    c.initiator ∉ c.votes.map (·.voter) := by
  intro hmem
  obtain ⟨vote, hvote, hvoter⟩ := List.mem_map.mp hmem
  exact h.initiator (hvoter ▸ h.seated vote hvote)

/-- The answers and the seats without one make up the roster that may vote. -/
theorem ConsiliumSafe.seats_split {owners : List UserId} {c : Consilium}
    {raised : List ConsiliumEvent} (h : ConsiliumSafe owners c raised) :
    c.approvals + c.rejections + c.pendingSeats.length = c.eligible.length := by
  rw [h.approvals_add_rejections, Nat.add_comm]
  exact h.pendingSeats_add_votes

/-- A move into `executed` is from `approved`, or none at all. -/
theorem ConsiliumMove.of_executed {c c' : Consilium} {events : List ConsiliumEvent}
    (h : ConsiliumMove c c' events) (hs : c'.state = .executed) : c.state = .approved ∨ c' = c := by
  cases h with
  | same => exact .inr rfl
  | vote voter decision time hopen hd hseat hnew hvotes hexecuted htally =>
    cases htally with
    | carried h | refused h | undecided h => rw [hs] at h; cases h
  | close hopen h => rcases h with h | h <;> rw [hs] at h <;> cases h
  | execute effect happroved => exact .inl happroved
  | fail reason happroved h => rw [hs] at h; cases h

/-- An effect written is never written over. -/
theorem ConsiliumMove.executed_kept {c c' : Consilium} {events : List ConsiliumEvent}
    (h : ConsiliumMove c c' events) (hs : c.state = .executed) : c' = c := by
  cases h with
  | same => rfl
  | vote voter decision time hopen => rw [hs] at hopen; cases hopen
  | close hopen => rw [hs] at hopen; cases hopen
  | execute effect happroved => rw [hs] at happroved; cases happroved
  | fail reason happroved => rw [hs] at happroved; cases happroved

/-- **Consilium run safety.** Over every run on a consilium opened over any owners: the initiator
never votes and each seat is counted once; a carried consilium has the approvals of more than half
of the distinct owners, a rejected one can no longer be carried by the seats still pending, an open
one still can; one verdict at most; an effect only after the approval, and never another; a refused
command changes nothing; the version is the number of events raised. -/
theorem consilium_run_safe {owners : List UserId} {c : Consilium} {drained : List ConsiliumEvent}
    (h : ConsiliumRun owners c drained) :
    c.initiator ∉ c.votes.map (·.voter) ∧
    ((c.votes.map (·.voter)).Nodup ∧ ∀ vote ∈ c.votes, vote.voter ∈ c.eligible) ∧
    (c.state = .approved ∨ c.state = .executed ∨ c.state = .executionFailed →
      owners.toFinset.card < 2 * c.approvals) ∧
    (c.state = .rejected → c.approvals + c.pendingSeats.length < c.threshold) ∧
    (c.state = .opened → c.threshold ≤ c.approvals + c.pendingSeats.length) ∧
    ((drained ++ c.pending).filter (·.isVerdict)).length ≤ 1 ∧
    (c.state = .executed ↔ c.executed.isSome) ∧
    (∀ command : ConsiliumCommand, (command.run c).2.state = .executed →
      c.state = .approved ∨ (command.run c).2 = c) ∧
    (∀ command : ConsiliumCommand, c.state = .executed → (command.run c).2 = c) ∧
    (∀ (command : ConsiliumCommand) (e : DomainError), (command.run c).1 = .error e →
      (command.run c).2 = c) ∧
    c.version = (drained ++ c.pending).length := by
  have hsafe := h.safe
  have hsplit := hsafe.seats_split
  have hreach := hsafe.threshold_le
  have htally := hsafe.tally
  refine ⟨hsafe.initiator_silent, ⟨hsafe.once, hsafe.seated⟩, fun hs => ?_, fun hs => ?_,
    fun hs => ?_, ?_, hsafe.effect, fun command hs => ?_, fun command hs => ?_,
    fun command e => ConsiliumCommand.run_error, hsafe.version⟩
  · have hcarried : c.threshold ≤ c.approvals := by
      rcases hs with hs | hs | hs <;> rw [Consilium.TallySays, hs] at htally <;> exact htally
    rw [hsafe.threshold] at hcarried
    unfold threshold at hcarried
    omega
  · rw [Consilium.TallySays, hs] at htally
    omega
  · rw [Consilium.TallySays, hs] at htally
    omega
  · rw [hsafe.verdicts]
    split <;> omega
  · obtain ⟨events, -, hmove⟩ := command.run_done c
    exact hmove.of_executed hs
  · obtain ⟨events, -, hmove⟩ := command.run_done c
    exact hmove.executed_kept hs

/-- Three owners decide the fund's mark; the first opened it. -/
def sampleConsilium : Consilium where
  id := .raw 7
  terms := .valuationOverride (sampleMark 1 (by decide))
  payloadHash := []
  initiator := .raw 1
  ownerCount := 3
  threshold := 2
  eligible := [.raw 2, .raw 3]
  votes := []
  state := .opened
  createdAt := 100
  expiresAt := 259300
  decidedAt := none
  executed := none
  failureReason := none
  version := 1
  pending := [.opened]

/-- The two others approve: two of three owners carry it. -/
theorem consilium_run_safe_sample :
    ([.raw 1, .raw 2, .raw 3, .raw 3] : List UserId).toFinset.card <
      2 * ((ConsiliumCommand.vote (.raw 3) .approve 102).run
        ((ConsiliumCommand.vote (.raw 2) .approve 101).run sampleConsilium).2).2.approvals := by
  have hopen : Consilium.openOver (.raw 7) (.valuationOverride (sampleMark 1 (by decide))) []
      (.raw 1) [.raw 1, .raw 2, .raw 3, .raw 3] 100 = .ok sampleConsilium := by rfl
  have hrun := ((ConsiliumRun.opened hopen).command (.vote (.raw 2) .approve 101)).command
    (.vote (.raw 3) .approve 102)
  exact (consilium_run_safe hrun).2.2.1 (.inl (by decide))

end Banking
