import Banking.EvmDeposits

/-! # What a deposit scan asks after what

The protocol of the live scan and of the backfill, however they are answered: logs are asked for of
all the addresses watched, a deposit is recorded of a log that was answered, and the cursor is moved
only over blocks that were read, with all that arrived in them recorded, or reported as skipped. It
follows from what the scan of `PrunedHistory` keeps of its own bookkeeping, carried over to what is
asked of the database and the endpoint. -/

namespace Banking

open Interactive

/-! ## What a scan asks after what -/

/-- What a scan has asked and was answered, newest first. -/
abbrev WatchJournal : Type := Journal WatchOp WatchOp.Ans

/-- Whom a scan has read that it scans for. -/
structure Viewed (view : ScanView) (j : WatchJournal) : Prop where
  rows : ⟨.watchedRows, .ok view.rows⟩ ∈ j
  custody : ⟨.treasuryAddresses, view.custody⟩ ∈ j

/-- A log that leaves nothing to record: what a transfer to a watched address comes to is. -/
def SettledLog (network : Network) (view : ScanView) (j : WatchJournal) (log : LogValue) : Prop :=
  ∀ transfer user, log.decodeTransfer = some transfer → view.watched transfer.target = some user →
    ∃ terms, transfer.terms network = .ok terms ∧ ∀ txRef amount, terms = some (txRef, amount) →
      ∃ new, ⟨.recordDeposit txRef user network amount, .ok new⟩ ∈ j

/-- **A block a scan has read**: nobody is watched, or it was in a chunk asked for all the watched
addresses, and every log answered is settled. -/
inductive BlockRead (network : Network) (view : ScanView) (j : WatchJournal) (block : Nat) : Prop
  | idle (h : view.keys = [] ∧ view.treasury = none)
  | read {a b : Nat} {logs : List LogValue} (hlo : a ≤ block) (hhi : block ≤ b)
      (hanswered : ⟨.ethGetLogs a b view.addresses, .ok (some logs)⟩ ∈ j)
      (hsettled : ∀ log ∈ logs, SettledLog network view j log)

/-- A block reported as skipped. -/
def BlockSkipped (j : WatchJournal) (block : Nat) : Prop :=
  ∃ a b first, a ≤ block ∧ block ≤ b ∧ ⟨.reportSkipped a b first, ()⟩ ∈ j

/-- A block a scan is done with. -/
def ScannedBlock (network : Network) (j : WatchJournal) (block : Nat) : Prop :=
  (∃ view, Viewed view j ∧ BlockRead network view j block) ∨ BlockSkipped j block

/-- The block after which a live cycle starts: the cursor it read, or the one it stored. -/
def StartsAfter (w : DepositWatcher) (j : WatchJournal) (start : Nat) : Prop :=
  (∃ cursor, ⟨.readCursor, .ok (some cursor)⟩ ∈ j ∧ start = (max cursor 0).toNat) ∨
    ∃ block, w.startBlock = some block ∧ start = block - 1 ∧ ⟨.insertCursor start, .ok ()⟩ ∈ j

/-- **The protocol of a scan.** -/
def ScanKeeps (w : DepositWatcher) (j : WatchJournal) : WatchOp → Prop
  | .insertCursor init => ∀ block, w.startBlock = some block → init = block - 1
  | .ethGetLogs _ _ addresses => ∃ view, Viewed view j ∧ addresses = view.addresses
  | .recordDeposit txRef user network amount => network = w.network ∧
    ∃ view a b logs log transfer, Viewed view j ∧
      ⟨.ethGetLogs a b view.addresses, .ok (some logs)⟩ ∈ j ∧ log ∈ logs ∧
      log.decodeTransfer = some transfer ∧ view.watched transfer.target = some user ∧
      transfer.terms network = .ok (some (txRef, amount))
  | .setScanCursor block => ∃ start, StartsAfter w j start ∧
    ∀ b, start < b → b ≤ block → ScannedBlock w.network j b
  | .finished a b _ => ∀ block, a ≤ block → block ≤ b → 0 < block →
    ∃ view, Viewed view j ∧ BlockRead w.network view j block
  | _ => True

section Grows

variable {network : Network} {view : ScanView} {w : DepositWatcher} {j j' : WatchJournal}

/-- What was asked stays asked. -/
theorem Viewed.mono (h : Viewed view j) (hj : j ⊆ j') : Viewed view j' :=
  ⟨hj h.rows, hj h.custody⟩

theorem SettledLog.mono {log : LogValue} (h : SettledLog network view j log) (hj : j ⊆ j') :
    SettledLog network view j' log := by
  intro transfer user hdecode hwatched
  obtain ⟨terms, hterms, hrecorded⟩ := h transfer user hdecode hwatched
  refine ⟨terms, hterms, fun txRef amount hsome => ?_⟩
  obtain ⟨new, hnew⟩ := hrecorded txRef amount hsome
  exact ⟨new, hj hnew⟩

theorem BlockRead.mono {block : Nat} (h : BlockRead network view j block) (hj : j ⊆ j') :
    BlockRead network view j' block := by
  cases h with
  | idle h => exact .idle h
  | read hlo hhi hanswered hsettled =>
    exact .read hlo hhi (hj hanswered) fun log hlog => (hsettled log hlog).mono hj

theorem ScannedBlock.mono {block : Nat} (h : ScannedBlock network j block) (hj : j ⊆ j') :
    ScannedBlock network j' block := by
  rcases h with ⟨view, hview, hread⟩ | ⟨a, b, first, hlo, hhi, hreported⟩
  · exact .inl ⟨view, hview.mono hj, hread.mono hj⟩
  · exact .inr ⟨a, b, first, hlo, hhi, hj hreported⟩

theorem StartsAfter.mono {start : Nat} (h : StartsAfter w j start) (hj : j ⊆ j') :
    StartsAfter w j' start := by
  rcases h with ⟨cursor, hread, hstart⟩ | ⟨block, hblock, hstart, hinserted⟩
  · exact .inl ⟨cursor, hj hread, hstart⟩
  · exact .inr ⟨block, hblock, hstart, hj hinserted⟩

end Grows

/-! ## What a scan credits was answered -/

/-- Every log credited is of a chunk answered. -/
def EvmScan.CreditsAnswered {L : Type} (s : EvmScan L) : Prop :=
  ∀ log ∈ s.credited, ∃ chunk ∈ s.answered, log ∈ chunk.2.2

/-- A scan that has to credit what was answered. -/
def crediting (L : Type) : World (EvmScanOp L) EvmScanOp.Ans (EvmScan L) where
  step := EvmScanOp.step
  rely := (· = ·)
  inv := EvmScan.CreditsAnswered

/-- The operations that credit nothing. -/
def EvmScanOp.CreditsNone {L : Type} : EvmScanOp L → Prop
  | .creditLog _ => False
  | _ => True

section Credits

variable {L : Type} {E : WatcherError → EvmScan L → Prop}

/-- They leave what is credited answered. -/
theorem EvmScan.CreditsAnswered.step {s s' : EvmScan L} (h : s.CreditsAnswered)
    {op : EvmScanOp L} {a : op.Ans} (hstep : (crediting L).step op s a s')
    (hop : op.CreditsNone) : s'.CreditsAnswered := by
  cases op with
  | creditLog log => exact hop.elim
  | watchedAddresses =>
    cases a <;> (obtain rfl : s' = _ := hstep; exact h)
  | treasuryAddresses =>
    obtain rfl : s' = _ := hstep
    exact h
  | reportSkipped =>
    obtain rfl : s' = _ := hstep
    exact h
  | ethGetLogs fromBlock toBlock addresses =>
    match a with
    | .ok (some logs) =>
      obtain rfl : s' = _ := hstep
      intro log hlog
      obtain ⟨chunk, hchunk, hin⟩ := h log hlog
      exact ⟨chunk, List.mem_append_left _ hchunk, hin⟩
    | .ok none | .error _ =>
      obtain rfl : s' = _ := hstep
      exact h
  | setScanCursor block =>
    match a with
    | .ok _ =>
      obtain rfl : s' = _ := hstep
      exact h
    | .error _ =>
      rcases hstep with rfl | rfl
      · exact h
      · exact h

/-- A part of a scan that credits nothing. -/
theorem wp_creditsNone {α : Type} {p : EvmScanProg L α} (hp : p.Within EvmScanOp.CreditsNone)
    (s : EvmScan L) : (crediting L).wp (fun _ _ => True) (fun _ _ => True) p s :=
  World.wp_within hp (fun _ _ _ h => h)
    (fun _ _ _ _ hop hinv _ hstep => ⟨EvmScan.CreditsAnswered.step hinv hstep hop, trivial⟩) trivial

/-- A chunk's logs are answered. -/
theorem wp_getLogs_answered {next toBlock range : Nat} {addresses : List String} {s : EvmScan L} :
    (crediting L).wp
      (fun result s' => ∀ logs, result.1 = .ok logs →
        ∀ log ∈ logs, ∃ chunk ∈ s'.answered, log ∈ chunk.2.2) E
      (getLogs next toBlock addresses range) s := by
  induction range using Nat.strongRecOn generalizing s with
  | _ range ih =>
    rw [getLogs]
    rintro s₁ rfl hinv a s' hstep
    refine ⟨EvmScan.CreditsAnswered.step hinv hstep trivial, ?_⟩
    rcases a with detail | _ | logs
    · dsimp only
      split
      case isTrue hnarrow =>
        have hmin : MIN_BLOCK_RANGE = 16 := rfl
        exact ih _ (by omega)
      case isFalse =>
        intro logs hlogs
        cases hlogs
    · intro logs hlogs
      cases hlogs
    · obtain rfl : s' = _ := hstep
      intro logs' hlogs log hlog
      obtain rfl := Except.ok.inj hlogs
      exact ⟨_, List.mem_append_right _ (List.mem_singleton_self _), hlog⟩

/-- Logs that were answered may be credited. -/
theorem wp_creditLogs_answered {logs : List L} {credited : Nat} {s : EvmScan L}
    (hlogs : ∀ log ∈ logs, ∃ chunk ∈ s.answered, log ∈ chunk.2.2) :
    (crediting L).wp (fun _ _ => True) (fun _ _ => True) (creditLogs logs credited) s := by
  induction logs generalizing credited s with
  | nil => trivial
  | cons log logs ih =>
    rw [creditLogs]
    rintro s₁ rfl hinv a s' hstep
    cases a with
    | error e =>
      obtain rfl : s' = _ := hstep
      exact ⟨hinv, trivial⟩
    | ok newly =>
      obtain rfl : s' = _ := hstep
      refine ⟨fun log' hlog' => ?_, ih fun log' hlog' => hlogs log' (List.mem_cons_of_mem _ hlog')⟩
      rcases List.mem_append.mp hlog' with hold | hnew
      · exact hinv log' hold
      · exact List.mem_singleton.mp hnew ▸ hlogs log List.mem_cons_self

/-- A probe credits nothing. -/
theorem isRetained_creditsNone (safeHead : Nat) (addresses : List String) (block : Nat) :
    (isRetained safeHead addresses block : EvmScanProg L Bool).Within EvmScanOp.CreditsNone := by
  refine ⟨trivial, fun answer => ?_⟩
  dsimp only
  split
  · trivial
  · split <;> trivial

/-- Nor does the cursor's update. -/
theorem advanceCursor_creditsNone (policy : CursorPolicy) (block : Nat) :
    (advanceCursor policy block : EvmScanProg L Unit).Within EvmScanOp.CreditsNone := by
  unfold advanceCursor
  split
  · refine ⟨trivial, fun a => ?_⟩
    cases a <;> trivial
  · trivial

/-- **A scan credits what was answered.** -/
theorem wp_scanChunks_answered {toBlock next clamps range : Nat} {policy : CursorPolicy}
    {addresses : List String} {summary : ScanSummary} {s : EvmScan L} :
    (crediting L).wp (fun _ _ => True) (fun _ _ => True)
      (scanChunks toBlock addresses policy next clamps range summary) s := by
  induction hd : toBlock + 1 - next using Nat.strongRecOn
    generalizing next clamps range summary s with
  | _ d ih =>
    subst hd
    rw [scanChunks]
    by_cases hnext : next ≤ toBlock
    swap
    · rw [dif_neg hnext]
      trivial
    rw [dif_pos hnext]
    refine World.wp_bind.mpr (World.wp_mono wp_getLogs_answered ?_ fun _ _ h => h)
    rintro ⟨result, used⟩ s₁ hlogs
    cases result with
    | ok logs =>
      refine World.wp_bind.mpr (World.wp_mono (wp_creditLogs_answered (hlogs logs rfl)) ?_
        fun _ _ h => h)
      intro credited s₂ _
      refine World.wp_bind.mpr (World.wp_mono (wp_creditsNone (advanceCursor_creditsNone _ _) s₂)
        ?_ fun _ _ h => h)
      intro _ s₃ _
      refine ih _ ?_ rfl
      unfold chunkEnd
      omega
    | error err =>
      dsimp only
      split
      case isFalse => trivial
      case isTrue =>
        refine World.wp_bind.mpr (World.wp_mono (wp_creditsNone
          (firstRetainedBlock_within (isRetained_creditsNone toBlock addresses) next toBlock) s₁)
          ?_ fun _ _ h => h)
        intro found s₂ _
        cases found with
        | none => trivial
        | some first =>
          obtain ⟨hresume, -, -⟩ := resumeAfterPrune_bounds first.2.1 first.2.2 (clamps + 1)
          dsimp only
          rintro s₃ rfl hinv _ s₄ hstep
          refine ⟨EvmScan.CreditsAnswered.step hinv hstep trivial, ?_⟩
          refine World.wp_bind.mpr (World.wp_mono
            (wp_creditsNone (advanceCursor_creditsNone _ _) s₄) ?_ fun _ _ h => h)
          intro _ s₅ _
          exact ih _ (by omega) rfl

end Credits

/-! ## A scan carried out -/

/-- What the scan of a window asks, after whom it scans for. -/
def EvmScanOp.Carried (policy : CursorPolicy) (addresses : List String) :
    EvmScanOp LogValue → Prop
  | .watchedAddresses | .treasuryAddresses => False
  | .ethGetLogs _ _ asked => asked = addresses
  | .setScanCursor _ | .reportSkipped .. => policy = .advance
  | .creditLog _ => True

section Carried

variable {policy : CursorPolicy} {addresses : List String}

theorem getLogs_carried (next toBlock range : Nat) :
    (getLogs next toBlock addresses range).Within (EvmScanOp.Carried policy addresses) := by
  induction range using Nat.strongRecOn with
  | _ range ih =>
    rw [getLogs]
    refine ⟨rfl, fun answer => ?_⟩
    rcases answer with detail | _ | logs
    · dsimp only
      split
      case isTrue hnarrow =>
        have hmin : MIN_BLOCK_RANGE = 16 := rfl
        exact ih _ (by omega)
      case isFalse => trivial
    · trivial
    · trivial

theorem creditLogs_carried (logs : List LogValue) (credited : Nat) :
    (creditLogs logs credited).Within (EvmScanOp.Carried policy addresses) := by
  induction logs generalizing credited with
  | nil => trivial
  | cons log logs ih =>
    refine ⟨trivial, fun answer => ?_⟩
    cases answer with
    | error e => trivial
    | ok newly => exact ih _

theorem isRetained_carried (safeHead block : Nat) :
    (isRetained safeHead addresses block).Within (EvmScanOp.Carried policy addresses) := by
  refine ⟨rfl, fun answer => ?_⟩
  dsimp only
  split
  · trivial
  · split <;> trivial

theorem advanceCursor_carried (block : Nat) :
    (advanceCursor policy block).Within (EvmScanOp.Carried policy addresses) := by
  unfold advanceCursor
  split
  case isTrue hadvance =>
    refine ⟨hadvance, fun a => ?_⟩
    cases a <;> trivial
  case isFalse => trivial

/-- The scan of a window asks for its addresses alone; a backfill neither skips nor moves the
cursor. -/
theorem scanChunks_carried (toBlock next clamps range : Nat) (summary : ScanSummary) :
    (scanChunks toBlock addresses policy next clamps range summary).Within
      (EvmScanOp.Carried policy addresses) := by
  induction hd : toBlock + 1 - next using Nat.strongRecOn
    generalizing next clamps range summary with
  | _ d ih =>
    subst hd
    rw [scanChunks]
    split
    case isFalse => trivial
    case isTrue hnext =>
      refine (getLogs_carried next toBlock range).bind fun fetched => ?_
      obtain ⟨result, used⟩ := fetched
      cases result with
      | ok logs =>
        refine (creditLogs_carried logs _).bind fun credited =>
          (advanceCursor_carried _).bind fun _ => ih _ ?_ _ _ _ _ rfl
        unfold chunkEnd
        omega
      | error err =>
        dsimp only
        split
        case isFalse => trivial
        case isTrue hpruned =>
          obtain ⟨rfl, -, -⟩ := hpruned
          refine (firstRetainedBlock_within (isRetained_carried toBlock) next toBlock).bind
            fun found => ?_
          cases found with
          | none => trivial
          | some first =>
            obtain ⟨hresume, -, -⟩ := resumeAfterPrune_bounds first.2.1 first.2.2 (clamps + 1)
            exact ⟨rfl, fun _ => (advanceCursor_carried _).bind fun _ =>
              ih _ (by omega) _ _ _ _ rfl⟩

end Carried

/-- **A scan as it was carried out**: whom it read that it scans for, and that everything it counts
as answered, credited and skipped was asked. -/
structure Told (w : DepositWatcher) (view : ScanView) (policy : CursorPolicy) (fromBlock : Nat)
    (s : EvmScan LogValue) (j : WatchJournal) : Prop where
  viewed : Viewed view j
  watched : s.watched = some view.keys
  treasury : s.treasury = some view.treasury
  answered : ∀ chunk ∈ s.answered,
    ⟨.ethGetLogs chunk.1 chunk.2.1 view.addresses, .ok (some chunk.2.2)⟩ ∈ j
  credited : ∀ log ∈ s.credited, SettledLog w.network view j log
  skipped : ∀ skip ∈ s.skipped, ⟨.reportSkipped skip.1 skip.2.1 skip.2.2, ()⟩ ∈ j
  leaves : policy = .leave → s.skipped = []
  start : policy = .advance → ∃ start, StartsAfter w j start ∧ fromBlock = start + 1

section Carrying

variable {w : DepositWatcher} {view : ScanView} {policy : CursorPolicy} {fromBlock toBlock : Nat}
  {s : EvmScan LogValue} {j j' : WatchJournal}

theorem Told.mono (h : Told w view policy fromBlock s j) (hj : j ⊆ j') :
    Told w view policy fromBlock s j' where
  viewed := h.viewed.mono hj
  watched := h.watched
  treasury := h.treasury
  answered := fun chunk hchunk => hj (h.answered chunk hchunk)
  credited := fun log hlog => (h.credited log hlog).mono hj
  skipped := fun skip hskip => hj (h.skipped skip hskip)
  leaves := h.leaves
  start := by
    intro hadvance
    obtain ⟨start, hstart, hfrom⟩ := h.start hadvance
    exact ⟨start, hstart.mono hj, hfrom⟩

/-- Nobody watched, as it was carried out. -/
theorem Told.idle (h : Told w view policy fromBlock s j) (hidle : s.Idle) (block : Nat) :
    BlockRead w.network view j block := by
  obtain ⟨hwatched, htreasury⟩ := hidle
  exact .idle ⟨Option.some.inj (h.watched.symm.trans hwatched),
    Option.some.inj (h.treasury.symm.trans htreasury)⟩

/-- What is covered was read or skipped. -/
theorem Told.scanned (h : Told w view policy fromBlock s j) {block : Nat}
    (hcovers : s.Covers block ∨ s.Idle) :
    BlockRead w.network view j block ∨ policy = .advance ∧ BlockSkipped j block := by
  rcases hcovers with (⟨chunk, hchunk, hlo, hhi, hlogs⟩ | ⟨skip, hskip, hlo, hhi⟩) | hidle
  · exact .inl (.read hlo hhi (h.answered chunk hchunk) fun log hlog =>
      h.credited log (hlogs log hlog))
  · refine .inr ⟨?_, skip.1, skip.2.1, skip.2.2, hlo, hhi, h.skipped skip hskip⟩
    cases policy with
    | advance => rfl
    | leave =>
      rw [h.leaves rfl] at hskip
      cases hskip
  · exact .inl (h.idle hidle block)

/-- **A transfer to a user** recorded, where its log was answered. -/
theorem wp_credit {log : LogValue} {transfer : EvmTransfer} {user : UserId} {a b : Nat}
    {logs : List LogValue} (hview : Viewed view j)
    (hanswered : ⟨.ethGetLogs a b view.addresses, .ok (some logs)⟩ ∈ j) (hlog : log ∈ logs)
    (hdecode : log.decodeTransfer = some transfer)
    (hwatched : view.watched transfer.target = some user) :
    (journaling (ScanKeeps w)).wp
      (fun _ j' => j ⊆ j' ∧ SettledLog w.network view j' log) (fun _ j' => j ⊆ j')
      (w.credit user transfer) j := by
  have hsettled : ∀ j' terms, transfer.terms w.network = .ok terms →
      (∀ txRef amount, terms = some (txRef, amount) →
        ∃ new, ⟨.recordDeposit txRef user w.network amount, .ok new⟩ ∈ j') →
      SettledLog w.network view j' log := by
    intro j' terms hterms hrecorded transfer' user' hdecode' hwatched'
    obtain rfl := Option.some.inj (hdecode.symm.trans hdecode')
    obtain rfl := Option.some.inj (hwatched.symm.trans hwatched')
    exact ⟨terms, hterms, hrecorded⟩
  unfold DepositWatcher.credit
  cases hterms : transfer.terms w.network with
  | error e => exact List.Subset.refl j
  | ok terms =>
    match terms with
    | none => exact ⟨List.Subset.refl j, hsettled j none hterms nofun⟩
    | some (txRef, amount) =>
      refine journaling_call ⟨rfl, view, a, b, logs, log, transfer, hview, hanswered, hlog, hdecode,
        hwatched, hterms⟩ fun answer => ?_
      cases answer with
      | error e => exact List.subset_cons_self _ _
      | ok new =>
        refine ⟨List.subset_cons_self _ _, hsettled _ _ hterms fun txRef' amount' hsome => ?_⟩
        obtain ⟨rfl, rfl⟩ := Prod.mk.inj (Option.some.inj hsome)
        exact ⟨new, List.mem_cons_self⟩

/-- **One log**, which comes to nothing left to record. -/
theorem wp_visitLog {log : LogValue} {a b : Nat} {logs : List LogValue} (hview : Viewed view j)
    (hanswered : ⟨.ethGetLogs a b view.addresses, .ok (some logs)⟩ ∈ j) (hlog : log ∈ logs) :
    (journaling (ScanKeeps w)).wp
      (fun _ j' => j ⊆ j' ∧ SettledLog w.network view j' log) (fun _ j' => j ⊆ j')
      (w.visitLog view log) j := by
  unfold DepositWatcher.visitLog
  cases hdecode : log.decodeTransfer with
  | none =>
    refine ⟨List.Subset.refl j, fun transfer user hsome => ?_⟩
    rw [hdecode] at hsome
    cases hsome
  | some transfer =>
    dsimp only
    cases hwatched : view.watched transfer.target with
    | some user =>
      have hrecipient : view.recipientOf transfer = .user user := by
        unfold ScanView.recipientOf
        rw [hwatched]
      rw [hrecipient]
      exact wp_credit hview hanswered hlog hdecode hwatched
    | none =>
      have hsettled : ∀ j', SettledLog w.network view j' log := by
        intro j' transfer' user' hdecode' hwatched'
        obtain rfl := Option.some.inj (hdecode.symm.trans hdecode')
        rw [hwatched] at hwatched'
        cases hwatched'
      have hother : view.recipientOf transfer = .unattributedTreasury ∨
          view.recipientOf transfer = .notOurs := by
        unfold ScanView.recipientOf
        rw [hwatched]
        dsimp only
        split
        · exact .inl rfl
        · exact .inr rfl
      rcases hother with hother | hother
      · rw [hother]
        dsimp only
        cases (fromOnchain w.network transfer.value).mapError WatcherError.decode with
        | error e => exact List.Subset.refl j
        | ok amount =>
          dsimp only [orWatcherError, Prog.ret_bind]
          split
          · exact ⟨List.Subset.refl j, hsettled j⟩
          · exact journaling_call trivial fun _ => ⟨List.subset_cons_self _ _, hsettled _⟩
      · rw [hother]
        exact ⟨List.Subset.refl j, hsettled j⟩

/-- **What a scan asks, carried out.** -/
theorem wp_carriedOut {op : EvmScanOp LogValue} (hop : op.Carried policy view.addresses)
    (h : Told w view policy fromBlock s j)
    (hkeeps : ∀ a s₁, op.step s a s₁ → s₁.Sound fromBlock toBlock ∧ s₁.CreditsAnswered) :
    (journaling (ScanKeeps w)).wp
      (fun a j' => ∃ s₁, op.step s a s₁ ∧ Told w view policy fromBlock s₁ j') (fun _ _ => True)
      (w.carriedOut view op) j := by
  cases op with
  | watchedAddresses => exact hop.elim
  | treasuryAddresses => exact hop.elim
  | ethGetLogs a b asked =>
    obtain rfl : asked = view.addresses := hop
    refine journaling_call ⟨view, h.viewed, rfl⟩ fun answer => ?_
    have h' := h.mono (List.subset_cons_self ⟨.ethGetLogs a b view.addresses, answer⟩ j)
    match answer with
    | .ok (some logs) =>
      refine ⟨_, rfl, { h' with answered := fun chunk hchunk => ?_ }⟩
      rcases List.mem_append.mp hchunk with hold | hnew
      · exact h'.answered chunk hold
      · obtain rfl := List.mem_singleton.mp hnew
        exact List.mem_cons_self
    | .ok none => exact ⟨_, rfl, h'⟩
    | .error e => exact ⟨_, rfl, h'⟩
  | creditLog log =>
    obtain ⟨chunk, hchunk, hlog⟩ := (hkeeps (.ok true) _ rfl).2 log
      (List.mem_append_right _ (List.mem_singleton_self log))
    refine World.wp_outcome.mpr (World.wp_mono
      (wp_visitLog h.viewed (h.answered chunk hchunk) hlog) ?_ ?_)
    · rintro new j' ⟨hj, hsettled⟩
      have h' := h.mono hj
      refine ⟨_, rfl, { h' with credited := fun log' hlog' => ?_ }⟩
      rcases List.mem_append.mp hlog' with hold | hnew
      · exact h'.credited log' hold
      · exact List.mem_singleton.mp hnew ▸ hsettled
    · exact fun e j' hj => ⟨s, rfl, h.mono hj⟩
  | reportSkipped a b first =>
    refine journaling_call trivial fun answer => ?_
    have h' := h.mono (List.subset_cons_self ⟨.reportSkipped a b first, answer⟩ j)
    refine ⟨_, rfl, { h' with
      skipped := fun skip hskip => ?_
      leaves := fun hleave => ?_ }⟩
    · rcases List.mem_append.mp hskip with hold | hnew
      · exact h'.skipped skip hold
      · obtain rfl := List.mem_singleton.mp hnew
        exact List.mem_cons_self
    · cases hleave.symm.trans hop
  | setScanCursor block =>
    obtain ⟨start, hstart, hfrom⟩ := h.start hop
    have hcovered := (hkeeps (.ok ()) _ rfl).1.covered
    refine journaling_call ⟨start, hstart, fun b hlo hhi => ?_⟩ fun answer => ?_
    · exact (h.scanned (hcovered b (by omega) hhi)).imp (fun hread => ⟨view, h.viewed, hread⟩)
        fun hskipped => hskipped.2
    · have h' := h.mono (List.subset_cons_self ⟨.setScanCursor block, answer⟩ j)
      cases answer with
      | ok done => exact ⟨{ s with cursor := block }, rfl, { h' with }⟩
      | error e => exact ⟨s, .inl rfl, h'⟩

/-- A cursor moved by a scan leaves it as it was carried out. -/
theorem wp_advanceTo {block : Nat} (h : policy = .advance → ScanKeeps w j (.setScanCursor block)) :
    (journaling (ScanKeeps w)).wp (fun _ j' => j ⊆ j') (fun _ _ => True)
      ((advanceCursor policy block).via (w.carriedOut view)) j := by
  unfold advanceCursor
  split
  case isTrue hadvance =>
    refine journaling_call (h hadvance) fun answer => ?_
    cases answer with
    | error e => trivial
    | ok done => exact List.subset_cons_self _ _
  case isFalse => exact List.Subset.refl j

/-- **The scan of a window** keeps the protocol, and leaves nothing of the window unscanned; a
backfill has read all of it. -/
theorem wp_scanRange_kept {range : Nat}
    (hstart : policy = .advance → ∃ start, StartsAfter w j start ∧ fromBlock = start + 1) :
    (journaling (ScanKeeps w)).wp
      (fun _ j' => policy = .leave → ∀ block, fromBlock ≤ block → block ≤ toBlock → 0 < block →
        ∃ view, Viewed view j' ∧ BlockRead w.network view j' block) (fun _ _ => True)
      (w.scanRange fromBlock toBlock policy range) j := by
  unfold DepositWatcher.scanRange
  split
  case isTrue hempty => exact fun _ block hlo hhi => by omega
  case isFalse hwindow =>
    refine journaling_call trivial fun rows => ?_
    cases rows with
    | error e => trivial
    | ok rows =>
      refine journaling_call trivial fun custody => ?_
      generalize hj : (⟨.treasuryAddresses, custody⟩ : Σ op : WatchOp, op.Ans) ::
        ⟨.watchedRows, .ok rows⟩ :: j = j₁
      have hsub : j ⊆ j₁ := by
        rw [← hj]
        exact fun e he => List.mem_cons_of_mem _ (List.mem_cons_of_mem _ he)
      have hview : Viewed ⟨rows, custody⟩ j₁ := by
        rw [← hj]
        exact ⟨List.mem_cons_of_mem _ List.mem_cons_self, List.mem_cons_self⟩
      generalize (⟨rows, custody⟩ : ScanView) = view at hview
      have htold : Told w view policy (max fromBlock 1)
          { cursor := 0, watched := some view.keys, treasury := some view.treasury, answered := [],
            credited := [], skipped := [] } j₁ := by
        refine ⟨hview, rfl, rfl, nofun, nofun, nofun, fun _ => rfl, fun hadvance => ?_⟩
        obtain ⟨start, hstarts, hfrom⟩ := hstart hadvance
        exact ⟨start, hstarts.mono hsub, by omega⟩
      unfold Banking.scanRange
      rw [if_neg hwindow]
      dsimp only [Prog.via, DepositWatcher.carriedOut, Prog.ret_bind, orRaise]
      split
      case isTrue hidle =>
        -- nobody is watched: the cursor may go to the end
        have hread : ∀ block, BlockRead w.network view j₁ block := fun block => .idle hidle
        rw [Prog.via_bind]
        refine World.wp_bind.mpr (World.wp_mono (wp_advanceTo fun hadvance => ?_) ?_
          fun _ _ _ => trivial)
        · obtain ⟨start, hstarts, -⟩ := hstart hadvance
          exact ⟨start, hstarts.mono hsub, fun b _ _ => .inl ⟨view, hview, hread b⟩⟩
        · exact fun _ j' hj' _ block _ _ _ => ⟨view, hview.mono hj', (hread block).mono hj'⟩
      case isFalse =>
        have hfresh : ScanAt (max fromBlock 1) toBlock policy fromBlock
            { cursor := 0, watched := some view.keys, treasury := some view.treasury,
              answered := [], credited := [], skipped := [] : EvmScan LogValue } := by
          refine ⟨.fresh ?_ rfl, fun block hlo hhi => ?_, by omega, fun hadvance => .inl ?_⟩
          · dsimp only
            omega
          · omega
          · obtain ⟨start, -, hfrom⟩ := hstart hadvance
            omega
        refine World.wp_mono (World.wp_via (R := Told w view policy (max fromBlock 1))
          (fun _ => rfl) (fun op s j hop hrel hkeeps => wp_carriedOut hop hrel hkeeps)
          (fun _ _ _ _ _ => trivial) (scanChunks_carried toBlock fromBlock 0 range _)
          (World.wp_and (wp_scanChunks hfresh) wp_scanChunks_answered)
          ⟨hfresh.sound, nofun⟩ htold) ?_ fun _ _ h => h
        rintro summary j' ⟨s', ⟨hdone, -⟩, htold'⟩ hleave block hlo hhi hpos
        have hcovers := hdone.before block (by omega) (by omega)
        rcases htold'.scanned (.inl hcovers) with hread | ⟨hadvance, -⟩
        · exact ⟨view, htold'.viewed, hread⟩
        · cases hleave.symm.trans hadvance

/-- The cursor read or stored. -/
theorem wp_cursor (defaultHead : Nat) :
    (journaling (ScanKeeps w)).wp
      (fun start j' => defaultHead ≤ start ∨ StartsAfter w j' start) (fun _ _ => True)
      (w.cursor defaultHead) j := by
  unfold DepositWatcher.cursor
  refine journaling_call trivial fun existing => ?_
  cases existing with
  | error e => trivial
  | ok existing =>
    cases existing with
    | some block => exact .inr (.inl ⟨block, List.mem_cons_self, rfl⟩)
    | none =>
      dsimp only [orWatcherError, Prog.ret_bind]
      cases hblock : w.startBlock with
      | none =>
        refine journaling_call (fun block hsome => ?_) fun inserted => ?_
        · rw [hblock] at hsome
          cases hsome
        · cases inserted with
          | error e => trivial
          | ok done => exact .inl le_rfl
      | some block =>
        refine journaling_call (fun block' hsome => ?_) fun inserted => ?_
        · rw [hblock] at hsome
          rw [Option.some.inj hsome]
          rfl
        · cases inserted with
          | error e => trivial
          | ok done => exact .inr (.inr ⟨block, hblock, rfl, List.mem_cons_self⟩)

/-- **A live cycle** keeps the protocol. -/
theorem scanOnce_keeps (range : Nat) :
    (journaling (ScanKeeps w)).wp (fun _ _ => True) (fun _ _ => True) (w.scanOnce range) [] := by
  unfold DepositWatcher.scanOnce
  refine journaling_call trivial fun latest => ?_
  cases latest with
  | error e => trivial
  | ok latest =>
    show (journaling (ScanKeeps w)).wp _ _
      ((w.cursor (latest - w.confirmations)).bind fun lastScanned =>
        if latest - w.confirmations ≤ lastScanned then .ret ()
        else (w.scanRange (lastScanned + 1) (latest - w.confirmations) .advance range).bind
          fun _ => .ret ()) _
    refine World.wp_bind.mpr (World.wp_mono (wp_cursor _) ?_ fun _ _ h => h)
    intro start j' hstart
    split
    · trivial
    · refine World.wp_bind.mpr (World.wp_mono (wp_scanRange_kept fun _ => ?_) (fun _ _ _ => trivial)
        fun _ _ h => h)
      exact ⟨start, hstart.resolve_left ‹_›, rfl⟩

/-- **So does a backfill.** -/
theorem backfill_keeps (a b range : Nat) :
    (journaling (ScanKeeps w)).wp (fun _ _ => True) (fun _ _ => True) (w.backfill a b range)
      [] := by
  unfold DepositWatcher.backfill
  refine World.wp_bind.mpr (World.wp_mono (wp_scanRange_kept nofun) ?_ fun _ _ h => h)
  exact fun summary j' hread => journaling_call (hread rfl) fun _ => trivial

end Carrying

end Banking
