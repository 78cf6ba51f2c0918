import Banking.EvmDepositScans

/-! # Deposit scans over every run

The live scans and the backfills of a rail, any number of them at once and each lost anywhere, over
its cursor and its table of deposits. A block the cursor has passed was read for all the addresses
watched then with every transfer to one of them recorded, or was reported as skipped; a transfer is
recorded once, for the user its address belongs to; and nothing is recorded that did not arrive at
a user's address. -/

namespace Banking

open Interactive

/-! ## The rail's cursor and deposits -/

/-- The transfers of a chain's token: what each block holds, under a transaction's hash and its
place in the block each. -/
structure EvmChain where
  logs : Nat → List LogValue
  hash : ∀ block, ∀ log ∈ logs block, ∀ transfer, log.decodeTransfer = some transfer →
    isTxHash transfer.txHash.toList = true
  one : ∀ a, ∀ log ∈ logs a, ∀ b, ∀ log' ∈ logs b, ∀ transfer transfer',
    log.decodeTransfer = some transfer → log'.decodeTransfer = some transfer' →
    transfer.txHash = transfer'.txHash → transfer.logIndex = transfer'.logIndex →
    transfer = transfer'

/-- An answer of the endpoint's: logs of the chunk, those to the addresses asked for among them. -/
structure EvmChain.Answers (chain : EvmChain) (a b : Nat) (addresses : List String)
    (answer : List LogValue) : Prop where
  within : ∀ log ∈ answer, ∃ block, a ≤ block ∧ block ≤ b ∧ log ∈ chain.logs block
  complete : ∀ block, a ≤ block → block ≤ b → ∀ log ∈ chain.logs block, ∀ transfer,
    log.decodeTransfer = some transfer → transfer.target ∈ addresses → log ∈ answer

/-- A row of the deposits; an operator's and another rail's are recorded elsewhere. -/
structure DepositRow where
  txRef : TxRef
  user : UserId
  network : Network
  amount : Nat
  elsewhere : Bool
deriving DecidableEq, Repr

/-- The rail's tables: the derived addresses, the cursor and the deposits; and, for the sake of what
is said of it, the block the cursor started at. -/
structure WatchWorld where
  rows : List (UserId × String)
  cursor : Option Int
  origin : Option Nat
  deposits : List DepositRow

/-- A block number as the cursor's column stores it. -/
def asI64 (n : Nat) : Int := if n < 2 ^ 63 then n else n - 2 ^ 64

namespace WatchWorld

/-- Nothing stored yet. -/
def empty : WatchWorld := ⟨[], none, none, []⟩

/-- The cursor stored where there is none. -/
def insertCursor (init : Nat) (s : WatchWorld) : WatchWorld :=
  if s.cursor = none then { s with cursor := some (asI64 init), origin := some init } else s

/-- The cursor moved where there is one. -/
def setScanCursor (block : Nat) (s : WatchWorld) : WatchWorld :=
  { s with cursor := s.cursor.map fun _ => asI64 block }

/-- A deposit recorded, unless one of its reference is. -/
def record (row : DepositRow) (s : WatchWorld) : WatchWorld :=
  if s.deposits.any (·.txRef = row.txRef) then s else { s with deposits := row :: s.deposits }

end WatchWorld

/-- How what a scan asks is answered. What fails may have been done. -/
inductive WatchStep (chain : EvmChain) : (op : WatchOp) → WatchWorld → op.Ans → WatchWorld → Prop
  | blockNumber (s : WatchWorld) (answer : Except WatcherError Nat) :
      WatchStep chain .blockNumber s answer s
  | readCursor (s : WatchWorld) : WatchStep chain .readCursor s (.ok s.cursor) s
  | insertCursor (s : WatchWorld) (init : Nat) (answer : Except WatcherError Unit) :
      WatchStep chain (.insertCursor init) s answer (s.insertCursor init)
  | setScanCursor (s : WatchWorld) (block : Nat) (answer : Except WatcherError Unit) :
      WatchStep chain (.setScanCursor block) s answer (s.setScanCursor block)
  | watchedRows (s : WatchWorld) : WatchStep chain .watchedRows s (.ok s.rows) s
  | treasuryAddresses (s : WatchWorld) (custody : Option (String × Option String)) :
      WatchStep chain .treasuryAddresses s custody s
  | ethGetLogs (s : WatchWorld) {a b : Nat} {addresses : List String} {logs : List LogValue}
      (h : chain.Answers a b addresses logs) :
      WatchStep chain (.ethGetLogs a b addresses) s (.ok (some logs)) s
  | notLogs (s : WatchWorld) (a b : Nat) (addresses : List String) :
      WatchStep chain (.ethGetLogs a b addresses) s (.ok none) s
  | refused (s : WatchWorld) (a b : Nat) (addresses : List String) (detail : String) :
      WatchStep chain (.ethGetLogs a b addresses) s (.error detail) s
  | recordDeposit (s : WatchWorld) (row : DepositRow) (hscan : row.elsewhere = false) :
      WatchStep chain (.recordDeposit row.txRef row.user row.network row.amount) s
        (.ok (! s.deposits.any (·.txRef = row.txRef))) (s.record row)
  | recordLost (s : WatchWorld) (row : DepositRow) (hscan : row.elsewhere = false)
      (e : WatcherError) :
      WatchStep chain (.recordDeposit row.txRef row.user row.network row.amount) s (.error e)
        (s.record row)
  | noteUnattributed (s : WatchWorld) (txHash source : String) (amount : Nat) :
      WatchStep chain (.noteUnattributed txHash source amount) s () s
  | reportSkipped (s : WatchWorld) (a b first : Nat) :
      WatchStep chain (.reportSkipped a b first) s () s
  | finished (s : WatchWorld) (a b : Nat) (summary : ScanSummary) :
      WatchStep chain (.finished a b summary) s () s
  | readFailed (s : WatchWorld) (e : WatcherError) : WatchStep chain .readCursor s (.error e) s
  | insertFailed (s : WatchWorld) (init : Nat) (e : WatcherError) :
      WatchStep chain (.insertCursor init) s (.error e) s
  | setFailed (s : WatchWorld) (block : Nat) (e : WatcherError) :
      WatchStep chain (.setScanCursor block) s (.error e) s
  | rowsFailed (s : WatchWorld) (e : WatcherError) : WatchStep chain .watchedRows s (.error e) s
  | recordFailed (s : WatchWorld) (txRef : TxRef) (user : UserId) (network : Network)
      (amount : Nat) (e : WatcherError) :
      WatchStep chain (.recordDeposit txRef user network amount) s (.error e) s

/-- What happens beside the scans: addresses are derived and retired, each its owner's; a deposit is
recorded elsewhere; and a crash of the database loses updates of the cursor. -/
inductive WatchEnv (owner : String → Option UserId) : WatchWorld → WatchWorld → Prop
  | derive (s : WatchWorld) (rows : List (UserId × String))
      (h : ∀ row ∈ rows, owner (lowerHash row.2) = some row.1) : WatchEnv owner s { s with rows }
  | elsewhere (s : WatchWorld) (row : DepositRow) (h : row.elsewhere = true) :
      WatchEnv owner s (s.record row)
  | lost (s : WatchWorld) {cursor : Int} (later : Int) (h : s.cursor = some later)
      (hle : cursor ≤ later) : WatchEnv owner s { s with cursor := some cursor }

/-- The rail, and what every scan has asked. -/
abbrev WatchServed : Type := Served WatchOp WatchOp.Ans WatchWorld

/-- The configurations of any number of live cycles and backfills, any of them lost anywhere. -/
def WatchRuns (w : DepositWatcher) (chain : EvmChain) (owner : String → Option UserId)
    (c : Config (Interactive.Asks WatchOp) (Interactive.Asks.Reply WatchOp.Ans) WatcherError Unit
      WatchServed) : Prop :=
  Runs (ServedStep (WatchStep chain)) (ServedEnv (WatchEnv owner))
    (fun p => ∃ main, ((∃ range, main = w.scanOnce range) ∨
      ∃ a b range, main = w.backfill a b range) ∧ p = main.serve)
    (fun _ _ => True) (.fresh .empty, []) c

/-! ## What every step keeps -/

/-- Everything from where the cursor started up to a block is scanned. -/
def Passed (w : DepositWatcher) (s : WatchServed) (last : Nat) : Prop :=
  ∃ origin, s.world.origin = some origin ∧
    ∀ block, origin < block → block ≤ last → ∃ q, ScannedBlock w.network (s.asked q) block

/-- **What an answer says**, and goes on saying. -/
def AnswerHolds (w : DepositWatcher) (chain : EvmChain) (owner : String → Option UserId)
    (s : WatchServed) : (Σ op : WatchOp, op.Ans) → Prop
  | ⟨.readCursor, .ok (some cursor)⟩ => Passed w s (max cursor 0).toNat
  | ⟨.insertCursor _, .ok _⟩ => ∃ origin, s.world.origin = some origin ∧
    ∀ block, w.startBlock = some block → origin = block - 1
  | ⟨.watchedRows, .ok rows⟩ => ∀ row ∈ rows, owner (lowerHash row.2) = some row.1
  | ⟨.ethGetLogs a b addresses, .ok (some logs)⟩ => chain.Answers a b addresses logs
  | ⟨.recordDeposit txRef _ _ _, .ok _⟩ => ∃ row ∈ s.world.deposits, row.txRef = txRef
  | _ => True

/-- **What every step keeps.** -/
structure WatchSound (w : DepositWatcher) (chain : EvmChain) (owner : String → Option UserId)
    (s : WatchServed) : Prop where
  rows : ∀ row ∈ s.world.rows, owner (lowerHash row.2) = some row.1
  cursor : ∀ cursor, s.world.cursor = some cursor → Passed w s (max cursor 0).toNat
  origin : ∀ origin block, s.world.origin = some origin → w.startBlock = some block →
    origin = block - 1
  unstarted : s.world.cursor = none → s.world.origin = none
  unique : (s.world.deposits.map DepositRow.txRef).Nodup
  deposits : ∀ row ∈ s.world.deposits, row.elsewhere = false → ∃ q answer,
    (q, ⟨.recordDeposit row.txRef row.user row.network row.amount, answer⟩) ∈ s.journal
  answers : ∀ e ∈ s.journal, AnswerHolds w chain owner s e.2

/-- What only grows: where the cursor started stays, deposits stay, and so does what was asked. -/
structure WatchGrows (s s' : WatchServed) : Prop where
  origin : ∀ origin, s.world.origin = some origin → s'.world.origin = some origin
  deposits : s.world.deposits ⊆ s'.world.deposits
  journal : s.journal ⊆ s'.journal

section Kept

variable {w : DepositWatcher} {chain : EvmChain} {owner : String → Option UserId}
  {s s' : WatchServed} {q : Nat}

theorem WatchGrows.asked (h : WatchGrows s s') (q : Nat) : s.asked q ⊆ s'.asked q :=
  fun _ he => Served.mem_asked.mpr (h.journal (Served.mem_asked.mp he))

theorem Passed.mono {last : Nat} (h : Passed w s last) (hgrows : WatchGrows s s') :
    Passed w s' last := by
  obtain ⟨origin, horigin, hscanned⟩ := h
  refine ⟨origin, hgrows.origin origin horigin, fun block hlo hhi => ?_⟩
  obtain ⟨q, hq⟩ := hscanned block hlo hhi
  exact ⟨q, hq.mono (hgrows.asked q)⟩

theorem AnswerHolds.mono {e : Σ op : WatchOp, op.Ans} (h : AnswerHolds w chain owner s e)
    (hgrows : WatchGrows s s') : AnswerHolds w chain owner s' e := by
  match e, h with
  | ⟨.readCursor, .ok (some _)⟩, h => exact Passed.mono h hgrows
  | ⟨.insertCursor _, .ok _⟩, ⟨origin, horigin, hblock⟩ =>
    exact ⟨origin, hgrows.origin origin horigin, hblock⟩
  | ⟨.recordDeposit .., .ok _⟩, ⟨row, hrow, hsame⟩ => exact ⟨row, hgrows.deposits hrow, hsame⟩
  | ⟨.watchedRows, .ok _⟩, h => exact h
  | ⟨.ethGetLogs .., .ok (some _)⟩, h => exact h
  | ⟨.blockNumber, _⟩, _ | ⟨.readCursor, .ok none⟩, _ | ⟨.readCursor, .error _⟩, _
  | ⟨.insertCursor _, .error _⟩, _ | ⟨.setScanCursor _, _⟩, _ | ⟨.watchedRows, .error _⟩, _
  | ⟨.treasuryAddresses, _⟩, _ | ⟨.ethGetLogs .., .ok none⟩, _ | ⟨.ethGetLogs .., .error _⟩, _
  | ⟨.recordDeposit .., .error _⟩, _ | ⟨.noteUnattributed .., _⟩, _
  | ⟨.reportSkipped .., _⟩, _ | ⟨.finished .., _⟩, _ => trivial

/-- The answers of a world that grows by one. -/
theorem WatchSound.answersOf (h : WatchSound w chain owner s) {op : WatchOp} {a : op.Ans}
    {world : WatchWorld} (hgrows : WatchGrows s (s.answer q op a world))
    (hnew : AnswerHolds w chain owner (s.answer q op a world) ⟨op, a⟩) :
    ∀ e ∈ (s.answer q op a world).journal,
      AnswerHolds w chain owner (s.answer q op a world) e.2 := by
  intro e he
  rcases List.mem_cons.mp he with rfl | he
  · exact hnew
  · exact (h.answers e he).mono hgrows

/-- An answer that leaves the rail as it is. -/
theorem WatchSound.told (h : WatchSound w chain owner s) {op : WatchOp} {a : op.Ans}
    (hnew : WatchGrows s (s.answer q op a s.world) →
      AnswerHolds w chain owner (s.answer q op a s.world) ⟨op, a⟩) :
    WatchSound w chain owner (s.answer q op a s.world) := by
  have hgrows : WatchGrows s (s.answer q op a s.world) :=
    ⟨fun _ h => h, fun _ h => h, List.subset_cons_self _ _⟩
  exact {
    rows := h.rows
    cursor := fun cursor hcursor => (h.cursor cursor hcursor).mono hgrows
    origin := h.origin
    unstarted := h.unstarted
    unique := h.unique
    deposits := fun row hrow hscan => by
      obtain ⟨q', answer, hasked⟩ := h.deposits row hrow hscan
      exact ⟨q', answer, List.mem_cons_of_mem _ hasked⟩
    answers := h.answersOf hgrows (hnew hgrows) }

/-- The number a column reads back is no larger than the one stored. -/
theorem asI64_le (n : Nat) : (max (asI64 n) 0).toNat ≤ n := by
  unfold asI64
  split <;> omega

/-- **The cursor stored where there is none**: nothing is passed yet. -/
theorem WatchSound.insertCursor (h : WatchSound w chain owner s) {init : Nat}
    (answer : Except WatcherError Unit)
    (hallowed : ScanKeeps w (s.asked q) (.insertCursor init)) :
    WatchSound w chain owner
      (s.answer q (.insertCursor init) answer (s.world.insertCursor init)) := by
  unfold WatchWorld.insertCursor
  split
  case isTrue hnone =>
    have hgrows : WatchGrows s (s.answer q (.insertCursor init) answer
        { s.world with cursor := some (asI64 init), origin := some init }) := by
      refine ⟨fun origin horigin => ?_, fun _ h => h, List.subset_cons_self _ _⟩
      rw [h.unstarted hnone] at horigin
      cases horigin
    refine
      { rows := h.rows
        cursor := fun cursor hcursor => ⟨init, rfl, fun block hlo hhi => ?_⟩
        origin := fun origin block horigin hblock => ?_
        unstarted := nofun
        unique := h.unique
        deposits := fun row hrow hscan => ?_
        answers := h.answersOf hgrows ?_ }
    · obtain rfl := Option.some.inj hcursor
      have := asI64_le init
      omega
    · rw [← Option.some.inj horigin]
      exact hallowed block hblock
    · obtain ⟨q', answer', hasked⟩ := h.deposits row hrow hscan
      exact ⟨q', answer', List.mem_cons_of_mem _ hasked⟩
    · cases answer with
      | ok done => exact ⟨init, rfl, hallowed⟩
      | error e => trivial
  case isFalse hsome =>
    refine h.told fun _ => ?_
    cases answer with
    | ok done =>
      obtain ⟨cursor, hcursor⟩ := Option.ne_none_iff_exists'.mp hsome
      obtain ⟨origin, horigin, -⟩ := h.cursor cursor hcursor
      exact ⟨origin, horigin, fun block hblock => h.origin origin block horigin hblock⟩
    | error e => trivial

/-- What is passed where a cycle starts. -/
theorem WatchSound.starts (h : WatchSound w chain owner s) {start : Nat}
    (hstart : StartsAfter w (s.asked q) start) : Passed w s start := by
  rcases hstart with ⟨cursor, hread, rfl⟩ | ⟨block, hblock, hstart, hinserted⟩
  · exact h.answers _ (Served.mem_asked.mp hread)
  · obtain ⟨origin, horigin, hsame⟩ := h.answers _ (Served.mem_asked.mp hinserted)
    refine ⟨origin, horigin, fun block' hlo hhi => ?_⟩
    have := hsame block hblock
    omega

/-- **The cursor moved**: it passes what its cycle has scanned. -/
theorem WatchSound.setScanCursor (h : WatchSound w chain owner s) {block : Nat}
    (answer : Except WatcherError Unit)
    (hallowed : ScanKeeps w (s.asked q) (.setScanCursor block)) :
    WatchSound w chain owner
      (s.answer q (.setScanCursor block) answer (s.world.setScanCursor block)) := by
  have hgrows : WatchGrows s (s.answer q (.setScanCursor block) answer
      (s.world.setScanCursor block)) :=
    ⟨fun _ h => h, fun _ h => h, List.subset_cons_self _ _⟩
  refine
    { rows := h.rows
      cursor := fun cursor hcursor => ?_
      origin := h.origin
      unstarted := fun hnone => h.unstarted (Option.map_eq_none_iff.mp hnone)
      unique := h.unique
      deposits := fun row hrow hscan => ?_
      answers := h.answersOf hgrows (by cases answer <;> trivial) }
  · obtain ⟨_, -, rfl⟩ := Option.map_eq_some_iff.mp hcursor
    obtain ⟨start, hstart, hscanned⟩ := hallowed
    obtain ⟨origin, horigin, hpassed⟩ := h.starts hstart
    have hle := asI64_le block
    refine ⟨origin, horigin, fun block' hlo hhi => ?_⟩
    by_cases hold : block' ≤ start
    · obtain ⟨q', hq'⟩ := hpassed block' hlo hold
      exact ⟨q', hq'.mono (hgrows.asked q')⟩
    · exact ⟨q, (hscanned block' (Nat.not_le.mp hold) (hhi.trans hle)).mono (hgrows.asked q)⟩
  · obtain ⟨q', answer', hasked⟩ := h.deposits row hrow hscan
    exact ⟨q', answer', List.mem_cons_of_mem _ hasked⟩

/-! ### Deposits -/

/-- A recorded deposit is there, or one of its reference is. -/
theorem WatchWorld.exists_record (row : DepositRow) (world : WatchWorld) :
    ∃ row' ∈ (world.record row).deposits, row'.txRef = row.txRef := by
  unfold WatchWorld.record
  split
  case isTrue hany =>
    obtain ⟨row', hrow', hsame⟩ := List.any_eq_true.mp hany
    exact ⟨row', hrow', of_decide_eq_true hsame⟩
  case isFalse => exact ⟨row, List.mem_cons_self, rfl⟩

/-- Recording adds that deposit alone. -/
theorem WatchWorld.mem_record {row row' : DepositRow} {world : WatchWorld}
    (h : row' ∈ (world.record row).deposits) : row' ∈ world.deposits ∨ row' = row := by
  unfold WatchWorld.record at h
  split at h
  · exact .inl h
  · exact (List.mem_cons.mp h).symm

theorem WatchWorld.subset_record (row : DepositRow) (world : WatchWorld) :
    world.deposits ⊆ (world.record row).deposits := by
  unfold WatchWorld.record
  split
  · exact List.Subset.refl _
  · exact List.subset_cons_self _ _

/-- References stay one for each deposit. -/
theorem WatchWorld.nodup_record {row : DepositRow} {world : WatchWorld}
    (h : (world.deposits.map DepositRow.txRef).Nodup) :
    ((world.record row).deposits.map DepositRow.txRef).Nodup := by
  unfold WatchWorld.record
  split
  case isTrue => exact h
  case isFalse hnone =>
    refine List.nodup_cons.mpr ⟨fun hmem => hnone ?_, h⟩
    obtain ⟨row', hrow', hsame⟩ := List.mem_map.mp hmem
    exact List.any_eq_true.mpr ⟨row', hrow', decide_eq_true hsame⟩

/-- What is recorded changes nothing else. -/
theorem WatchWorld.record_eq (row : DepositRow) (world : WatchWorld) :
    (world.record row).rows = world.rows ∧ (world.record row).cursor = world.cursor ∧
      (world.record row).origin = world.origin := by
  unfold WatchWorld.record
  split <;> exact ⟨rfl, rfl, rfl⟩

/-- **A rail with one more deposit**, asked for by a scan or recorded elsewhere. -/
theorem WatchSound.recorded (h : WatchSound w chain owner s) {row : DepositRow}
    (hworld : s'.world = s.world.record row) (hgrows : WatchGrows s s')
    (hasked : row.elsewhere = false → ∃ q answer,
      (q, ⟨.recordDeposit row.txRef row.user row.network row.amount, answer⟩) ∈ s'.journal)
    (hanswers : ∀ e ∈ s'.journal, AnswerHolds w chain owner s' e.2) :
    WatchSound w chain owner s' := by
  obtain ⟨hrows, hcursor, horigin⟩ := WatchWorld.record_eq row s.world
  refine
    { rows := by rw [hworld, hrows]; exact h.rows
      cursor := fun cursor hc => ?_
      origin := by rw [hworld, horigin]; exact h.origin
      unstarted := by rw [hworld, hcursor, horigin]; exact h.unstarted
      unique := by rw [hworld]; exact WatchWorld.nodup_record h.unique
      deposits := fun row' hrow' hscan => ?_
      answers := hanswers }
  · rw [hworld, hcursor] at hc
    exact (h.cursor cursor hc).mono hgrows
  · rw [hworld] at hrow'
    rcases WatchWorld.mem_record hrow' with hold | rfl
    · obtain ⟨q', answer, hasked'⟩ := h.deposits row' hold hscan
      exact ⟨q', answer, hgrows.journal hasked'⟩
    · exact hasked hscan

/-- A scan's recording. -/
theorem WatchSound.recordDeposit (h : WatchSound w chain owner s) (row : DepositRow)
    (answer : Except WatcherError Bool) :
    WatchSound w chain owner
      (s.answer q (.recordDeposit row.txRef row.user row.network row.amount) answer
        (s.world.record row)) := by
  have hgrows : WatchGrows s (s.answer q
      (.recordDeposit row.txRef row.user row.network row.amount) answer (s.world.record row)) := by
    refine ⟨fun origin horigin => ?_, WatchWorld.subset_record row s.world,
      List.subset_cons_self _ _⟩
    exact (WatchWorld.record_eq row s.world).2.2.trans horigin
  refine h.recorded rfl hgrows (fun _ => ⟨q, answer, List.mem_cons_self⟩)
    (h.answersOf hgrows ?_)
  cases answer with
  | ok new => exact WatchWorld.exists_record row s.world
  | error e => trivial

/-! ### Runs -/

/-- **One answer** keeps what every step keeps. -/
theorem WatchSound.answer (h : WatchSound w chain owner s) {op : WatchOp} {a : op.Ans}
    {world : WatchWorld} (hstep : WatchStep chain op s.world a world)
    (hallowed : ScanKeeps w (s.asked q) op) : WatchSound w chain owner (s.answer q op a world) := by
  generalize hworld : s.world = before at hstep
  cases hstep with
  | readCursor =>
    subst hworld
    have hpassed := h.cursor
    generalize s.world.cursor = answer at hpassed ⊢
    refine h.told fun hgrows => ?_
    cases answer with
    | none => trivial
    | some cursor => exact (hpassed cursor rfl).mono hgrows
  | insertCursor _ init answer =>
    subst hworld
    exact h.insertCursor answer hallowed
  | setScanCursor _ block answer =>
    subst hworld
    exact h.setScanCursor answer hallowed
  | watchedRows =>
    subst hworld
    exact h.told fun _ => h.rows
  | ethGetLogs _ hanswers =>
    subst hworld
    exact h.told fun _ => hanswers
  | recordDeposit _ row hscan =>
    subst hworld
    exact h.recordDeposit row _
  | recordLost _ row hscan e =>
    subst hworld
    exact h.recordDeposit row _
  | blockNumber | treasuryAddresses | notLogs | refused | noteUnattributed | reportSkipped
  | finished | readFailed | insertFailed | setFailed | rowsFailed | recordFailed =>
    subst hworld
    exact h.told fun _ => trivial

/-- **So does what happens beside.** -/
theorem WatchSound.beside (h : WatchSound w chain owner s) {world : WatchWorld}
    (henv : WatchEnv owner s.world world) : WatchSound w chain owner { s with world } := by
  cases henv with
  | derive rows hrows =>
    have hgrows : WatchGrows s { s with world := { s.world with rows } } :=
      ⟨fun _ h => h, fun _ h => h, fun _ h => h⟩
    exact {
      rows := hrows
      cursor := fun cursor hcursor => (h.cursor cursor hcursor).mono hgrows
      origin := h.origin
      unstarted := h.unstarted
      unique := h.unique
      deposits := h.deposits
      answers := fun e he => (h.answers e he).mono hgrows }
  | elsewhere row helsewhere =>
    have hgrows : WatchGrows s { s with world := s.world.record row } := by
      refine ⟨fun origin horigin => ?_, WatchWorld.subset_record row s.world, fun _ h => h⟩
      exact (WatchWorld.record_eq row s.world).2.2.trans horigin
    refine h.recorded rfl hgrows (fun hscan => ?_) fun e he => (h.answers e he).mono hgrows
    cases helsewhere.symm.trans hscan
  | @lost cursor later hlater hle =>
    have hgrows : WatchGrows s { s with world := { s.world with cursor := some cursor } } :=
      ⟨fun _ h => h, fun _ h => h, fun _ h => h⟩
    refine
      { rows := h.rows
        cursor := fun cursor' hcursor' => ?_
        origin := h.origin
        unstarted := nofun
        unique := h.unique
        deposits := h.deposits
        answers := fun e he => (h.answers e he).mono hgrows }
    obtain rfl := Option.some.inj hcursor'
    obtain ⟨origin, horigin, hpassed⟩ := (h.cursor later hlater).mono hgrows
    exact ⟨origin, horigin, fun block hlo hhi => hpassed block hlo (by omega)⟩

/-- What every step keeps holds wherever the scans get. -/
theorem WatchRuns.pooled {c : Config (Interactive.Asks WatchOp)
      (Interactive.Asks.Reply WatchOp.Ans) WatcherError Unit WatchServed}
    (h : WatchRuns w chain owner c) :
    WatchSound w chain owner c.1 ∧ ∀ q, Journal.Keeps (ScanKeeps w) (c.1.asked q) := by
  have hpooled : Pooled (ScanKeeps w) (fun main => (∃ range, main = w.scanOnce range) ∨
      ∃ a b range, main = w.backfill a b range) (WatchSound w chain owner) c := by
    refine Runs.served ?_ (fun _ _ henv hsound => hsound.beside henv) ?_
      (fun _ _ _ _ _ _ _ hstep _ _ hallowed hsound => hsound.answer hstep hallowed) ?_ h
    · rintro main (⟨range, rfl⟩ | ⟨a, b, range, rfl⟩)
      · exact scanOnce_keeps range
      · exact backfill_keeps a b range
    · rintro s hsound
      exact ⟨hsound.rows, hsound.cursor, hsound.origin, hsound.unstarted, hsound.unique,
        hsound.deposits, hsound.answers⟩
    · exact ⟨nofun, nofun, nofun, fun _ => rfl, .nil, nofun, nofun⟩
  exact ⟨hpooled.holds, hpooled.keeps⟩

/-! ## A transfer and its reference -/

/-- A letter in lower case stays. -/
theorem toLower_toLower (c : Char) : c.toLower.toLower = c.toLower := by
  by_cases h : 65 ≤ c.toNat ∧ c.toNat ≤ 90
  · have hall : ∀ n < 26, (Char.ofNat (65 + n)).toLower.toLower =
        (Char.ofNat (65 + n)).toLower := by decide
    have hc : Char.ofNat (65 + (c.toNat - 65)) = c := by
      rw [Nat.add_sub_cancel' h.1, Char.ofNat_toNat]
    exact hc ▸ hall (c.toNat - 65) (by omega)
  · have hsame : c.toLower = c := dif_neg h
    rw [hsame, hsame]

theorem lowerHash_lower (hash : String) :
    (lowerHash hash).toList.map Char.toLower = (lowerHash hash).toList := by
  rw [lowerHash, String.toList_ofList, List.map_map]
  exact List.map_congr_left fun c _ => toLower_toLower c

/-- A number read is below the bound. -/
theorem fromStrRadix16_lt {bound n : Nat} {s : List Char} (h : fromStrRadix16 bound s = some n) :
    n < bound := by
  unfold fromStrRadix16 at h
  dsimp only at h
  split_ifs at h
  obtain ⟨digits, -, h⟩ := Option.bind_eq_some_iff.mp h
  split_ifs at h with hlt
  exact Option.some.inj h ▸ hlt

/-- **A transfer decoded** has a hash in lower case and an index of 64 bits. -/
theorem LogValue.decodeTransfer_some {log : LogValue} {transfer : EvmTransfer}
    (h : log.decodeTransfer = some transfer) :
    transfer.txHash.toList.map Char.toLower = transfer.txHash.toList ∧
      transfer.logIndex < 2 ^ 64 := by
  obtain ⟨topics, -, h⟩ := Option.bind_eq_some_iff.mp h
  split at h
  · cases h
  obtain ⟨topic, -, h⟩ := Option.bind_eq_some_iff.mp h
  split at h
  · cases h
  obtain ⟨sourceTopic, -, h⟩ := Option.bind_eq_some_iff.mp h
  obtain ⟨source, -, h⟩ := Option.bind_eq_some_iff.mp h
  obtain ⟨targetTopic, -, h⟩ := Option.bind_eq_some_iff.mp h
  obtain ⟨target, -, h⟩ := Option.bind_eq_some_iff.mp h
  obtain ⟨data, -, h⟩ := Option.bind_eq_some_iff.mp h
  obtain ⟨value, -, h⟩ := Option.bind_eq_some_iff.mp h
  obtain ⟨hash, -, h⟩ := Option.bind_eq_some_iff.mp h
  obtain ⟨index, -, h⟩ := Option.bind_eq_some_iff.mp h
  obtain ⟨logIndex, hindex, h⟩ := Option.bind_eq_some_iff.mp h
  obtain rfl := Option.some.inj h
  obtain ⟨digits, -, hdigits⟩ := Option.bind_eq_some_iff.mp hindex
  exact ⟨lowerHash_lower hash, fromStrRadix16_lt hdigits⟩

/-- A reference of the watcher's is taken as it is. -/
theorem TxRef.parse_evmTxRef {hash : String} {index : Nat} {txRef : TxRef}
    (hhash : isTxHash hash.toList = true) (h : TxRef.parse (evmTxRef hash index) = .ok txRef) :
    txRef.text = evmTxRef hash index := by
  have htrim : Text.trim (evmTxRef hash index).toList = (evmTxRef hash index).toList := by
    refine Text.trim_eq_self fun c hc => ?_
    rw [evmTxRef_toList] at hc
    rcases List.mem_append.mp hc with hc | hc
    · exact isWhitespace_of_isTxHash hhash c hc
    · rcases List.mem_cons.mp hc with rfl | hc
      · decide
      · exact Text.isWhitespace_of_isDigit (Text.decimal_isDigit hc)
  unfold TxRef.parse at h
  dsimp only at h
  rw [htrim] at h
  split_ifs at h
  rw [← Except.ok.inj h, String.ofList_toList]

/-- **What a transfer to a user comes to**: nothing where its value is nothing, else its value in
canonical units under its reference. -/
theorem EvmTransfer.terms_ok {transfer : EvmTransfer} {network : Network}
    {terms : Option (TxRef × Nat)} (h : transfer.terms network = .ok terms) :
    terms = none ∧ transfer.value = 0 ∨ ∃ txRef,
      terms = some (txRef, transfer.value * network.scaleToCanonical) ∧ 0 < transfer.value ∧
        TxRef.parse transfer.txRef = .ok txRef := by
  have hscale : 0 < network.scaleToCanonical := Nat.pow_pos (by decide)
  unfold EvmTransfer.terms at h
  cases hamount : fromOnchain network transfer.value with
  | error e =>
    rw [hamount] at h
    cases h
  | ok amount =>
    rw [hamount] at h
    have hvalue : amount = transfer.value * network.scaleToCanonical := by
      unfold fromOnchain at hamount
      split_ifs at hamount
      exact (Except.ok.inj hamount).symm
    change (if amount = 0 then .ok none else _) = Except.ok terms at h
    split_ifs at h with hzero
    · refine .inl ⟨(Except.ok.inj h).symm, ?_⟩
      rw [hvalue] at hzero
      exact (Nat.mul_eq_zero.mp hzero).resolve_right hscale.ne'
    · have hpos : 0 < transfer.value := by
        refine Nat.pos_of_ne_zero fun hnone => hzero ?_
        rw [hvalue, hnone, Nat.zero_mul]
      cases hparse : TxRef.parse transfer.txRef with
      | error e =>
        rw [hparse] at h
        cases h
      | ok txRef =>
        rw [hparse] at h
        exact .inr ⟨txRef, hvalue ▸ (Except.ok.inj h).symm, hpos, rfl⟩

/-- **A reference names one transfer** of the chain. -/
theorem EvmChain.eq_of_ref {a b : Nat} {log log' : LogValue} {transfer transfer' : EvmTransfer}
    {txRef : TxRef} (hlog : log ∈ chain.logs a) (hlog' : log' ∈ chain.logs b)
    (hdecode : log.decodeTransfer = some transfer) (hdecode' : log'.decodeTransfer = some transfer')
    (href : TxRef.parse transfer.txRef = .ok txRef)
    (href' : TxRef.parse transfer'.txRef = .ok txRef) : transfer = transfer' := by
  have hhash := chain.hash a log hlog transfer hdecode
  have hhash' := chain.hash b log' hlog' transfer' hdecode'
  obtain ⟨hlower, hindex⟩ := LogValue.decodeTransfer_some hdecode
  obtain ⟨hlower', hindex'⟩ := LogValue.decodeTransfer_some hdecode'
  have htext : evmTxRef transfer.txHash transfer.logIndex =
      evmTxRef transfer'.txHash transfer'.logIndex :=
    (TxRef.parse_evmTxRef hhash href).symm.trans (TxRef.parse_evmTxRef hhash' href')
  have hsplit := splitEvmTxRef_evmTxRef hhash hlower hindex
  rw [htext, splitEvmTxRef_evmTxRef hhash' hlower' hindex'] at hsplit
  obtain ⟨hsame, hplace⟩ := Prod.mk.inj (Option.some.inj hsplit)
  exact chain.one a log hlog b log' hlog' transfer transfer' hdecode hdecode' hsame.symm hplace.symm

/-- A watched address is a row's. -/
theorem ScanView.watched_row {view : ScanView} {address : String} {user : UserId}
    (h : view.watched address = some user) :
    ∃ row ∈ view.rows, lowerHash row.2 = address ∧ row.1 = user := by
  obtain ⟨row, hfind, huser⟩ := Option.map_eq_some_iff.mp h
  have haddress := List.find?_some hfind
  exact ⟨row, List.mem_reverse.mp (List.mem_of_find?_eq_some hfind), of_decide_eq_true haddress,
    huser⟩

/-- It is one of the addresses asked for. -/
theorem ScanView.watched_mem {view : ScanView} {address : String} {user : UserId}
    (h : view.watched address = some user) : address ∈ view.keys := by
  obtain ⟨row, hrow, rfl, -⟩ := ScanView.watched_row h
  exact List.mem_dedup.mpr (List.mem_map.mpr ⟨row, hrow, rfl⟩)

/-! ## What arrives is credited once -/

/-- A deposit that arrived: a transfer of the chain's to an address of the user's, of its value. -/
def DepositRow.Arrived (network : Network) (chain : EvmChain) (owner : String → Option UserId)
    (row : DepositRow) : Prop :=
  ∃ block, ∃ log ∈ chain.logs block, ∃ transfer, log.decodeTransfer = some transfer ∧
    0 < transfer.value ∧ owner transfer.target = some row.user ∧
    TxRef.parse transfer.txRef = .ok row.txRef ∧ row.network = network ∧
    row.amount = transfer.value * network.scaleToCanonical

/-- **A transfer credited once**: one deposit is of its reference, and unless it was recorded
elsewhere it is the user's, of the transfer's value. -/
def CreditedOnce (network : Network) (deposits : List DepositRow) (transfer : EvmTransfer)
    (user : UserId) : Prop :=
  ∃ txRef row, TxRef.parse transfer.txRef = .ok txRef ∧
    deposits.filter (·.txRef = txRef) = [row] ∧
    (row.elsewhere = false → row.user = user ∧ row.network = network ∧
      row.amount = transfer.value * network.scaleToCanonical)

/-- Of references that are all different one is its deposit's alone. -/
theorem filter_txRef {deposits : List DepositRow} (h : (deposits.map DepositRow.txRef).Nodup)
    {row : DepositRow} (hrow : row ∈ deposits) :
    deposits.filter (·.txRef = row.txRef) = [row] := by
  induction deposits with
  | nil => cases hrow
  | cons d deposits ih =>
    obtain ⟨hnot, hrest⟩ := List.nodup_cons.mp h
    rcases List.mem_cons.mp hrow with rfl | hrow
    · have hothers : deposits.filter (·.txRef = row.txRef) = [] := by
        refine List.filter_eq_nil_iff.mpr fun d hd hsame => hnot ?_
        exact List.mem_map.mpr ⟨d, hd, of_decide_eq_true hsame⟩
      rw [List.filter_cons_of_pos (by simp), hothers]
    · rw [List.filter_cons_of_neg, ih hrest hrow]
      intro hsame
      exact hnot (List.mem_map.mpr ⟨row, hrow, (of_decide_eq_true hsame).symm⟩)

/-- A watched address belongs to the user it is watched for. -/
theorem WatchSound.owned (h : WatchSound w chain owner s) {view : ScanView}
    (hview : Viewed view (s.asked q)) {address : String} {user : UserId}
    (hwatched : view.watched address = some user) : owner address = some user := by
  have hrows := h.answers _ (Served.mem_asked.mp hview.rows)
  obtain ⟨row, hrow, rfl, rfl⟩ := ScanView.watched_row hwatched
  exact hrows row hrow

/-- **What a scan records arrived.** -/
theorem WatchSound.arrived (h : WatchSound w chain owner s)
    (hkeeps : ∀ q, Journal.Keeps (ScanKeeps w) (s.asked q)) {row : DepositRow}
    (hrow : row ∈ s.world.deposits) (hscan : row.elsewhere = false) :
    row.Arrived w.network chain owner := by
  obtain ⟨q, answer, hasked⟩ := h.deposits row hrow hscan
  obtain ⟨later, earlier, hsplit, hallowed, -⟩ := (hkeeps q).of_mem (Served.mem_asked.mpr hasked)
  have hsub : earlier ⊆ s.asked q := by
    rw [hsplit]
    exact fun e he => List.mem_append_right _ (List.mem_cons_of_mem _ he)
  obtain ⟨hnetwork, view, a, b, logs, log, transfer, hview, hanswered, hlog, hdecode, hwatched,
    hterms⟩ := hallowed
  have hanswers := h.answers _ (Served.mem_asked.mp (hsub hanswered))
  obtain ⟨block, -, -, hblock⟩ := hanswers.within log hlog
  rcases EvmTransfer.terms_ok hterms with ⟨hnone, -⟩ | ⟨txRef, hsome, hpos, hparse⟩
  · cases hnone
  · obtain ⟨rfl, hamount⟩ := Prod.mk.inj (Option.some.inj hsome)
    rw [hnetwork] at hamount
    exact ⟨block, log, hblock, transfer, hdecode, hpos, h.owned (hview.mono hsub) hwatched, hparse,
      hnetwork, hamount⟩

/-- **What a scan reads is credited once.** -/
theorem WatchSound.credited (h : WatchSound w chain owner s)
    (hkeeps : ∀ q, Journal.Keeps (ScanKeeps w) (s.asked q)) {view : ScanView} {block : Nat}
    (hview : Viewed view (s.asked q)) (hread : BlockRead w.network view (s.asked q) block)
    {log : LogValue} (hlog : log ∈ chain.logs block) {transfer : EvmTransfer}
    (hdecode : log.decodeTransfer = some transfer) (hpos : 0 < transfer.value) {user : UserId}
    (hwatched : view.watched transfer.target = some user) :
    CreditedOnce w.network s.world.deposits transfer user := by
  have hkey := ScanView.watched_mem hwatched
  cases hread with
  | idle hidle =>
    rw [hidle.1] at hkey
    cases hkey
  | read hlo hhi hanswered hsettled =>
    have hanswers := h.answers _ (Served.mem_asked.mp hanswered)
    have hin := hanswers.complete block hlo hhi log hlog transfer hdecode
      (List.mem_append_left _ hkey)
    obtain ⟨terms, hterms, hrecorded⟩ := hsettled log hin transfer user hdecode hwatched
    rcases EvmTransfer.terms_ok hterms with ⟨-, hzero⟩ | ⟨txRef, rfl, -, hparse⟩
    · omega
    obtain ⟨new, hnew⟩ := hrecorded txRef _ rfl
    obtain ⟨row, hrow, rfl⟩ := h.answers _ (Served.mem_asked.mp hnew)
    refine ⟨row.txRef, row, hparse, filter_txRef h.unique hrow, fun hscan => ?_⟩
    obtain ⟨block', log', hlog', transfer', hdecode', -, howner, hparse', hnetwork, hamount⟩ :=
      h.arrived hkeeps hrow hscan
    obtain rfl := chain.eq_of_ref hlog hlog' hdecode hdecode' hparse hparse'
    exact ⟨Option.some.inj (howner.symm.trans (h.owned hview hwatched)), hnetwork, hamount⟩

end Kept

/-! ## A withdrawal to a user's address -/

/-- The treasury of the sample, -/
def sampleTokenTreasury : String := "0x00000000000000000000000000000000000000aa"

/-- the address of a user's, -/
def sampleDepositAddress : String := "0x00000000000000000000000000000000000000bb"

/-- and a transfer from one to the other. -/
def sampleTokenLog : LogValue where
  topics := some [some TRANSFER_TOPIC,
    some "0x00000000000000000000000000000000000000000000000000000000000000aa",
    some "0x00000000000000000000000000000000000000000000000000000000000000bb"]
  data := some "0x0000000000000000000000000000000000000000000000000000000000000005"
  transactionHash := some "0x1111111111111111111111111111111111111111111111111111111111111111"
  logIndex := some "0x0"

/-- The same decoded. -/
def sampleTokenTransfer : EvmTransfer where
  source := sampleTokenTreasury
  target := sampleDepositAddress
  value := 5
  txHash := "0x1111111111111111111111111111111111111111111111111111111111111111"
  logIndex := 0

theorem decode_sampleTokenLog : sampleTokenLog.decodeTransfer = some sampleTokenTransfer := by
  decide +kernel

/-- It is the only transfer of the chain, in the first block. -/
def sampleTokenChain : EvmChain where
  logs block := if block = 1 then [sampleTokenLog] else []
  hash block log hlog transfer hdecode := by
    split at hlog
    · rw [List.mem_singleton.mp hlog, decode_sampleTokenLog] at hdecode
      obtain rfl := Option.some.inj hdecode
      decide
    · cases hlog
  one a log hlog b log' hlog' transfer transfer' hdecode hdecode' _ _ := by
    split at hlog
    · split at hlog'
      · rw [List.mem_singleton.mp hlog] at hdecode
        rw [List.mem_singleton.mp hlog'] at hdecode'
        exact Option.some.inj (hdecode.symm.trans hdecode')
      · cases hlog'
    · cases hlog

/-- The address is the user's. -/
def sampleTokenOwner (address : String) : Option UserId :=
  if address = sampleDepositAddress then some (.raw 7) else none

/-- A watcher from the first block on. -/
def sampleWatcher : DepositWatcher := ⟨.bep20, 0, some 1⟩

/-- The address derived. -/
def sampleDerived : WatchServed :=
  .fresh { WatchWorld.empty with rows := [(.raw 7, sampleDepositAddress)] }

/-- A database, and an endpoint, that answer at once. -/
def sampleWatch : (op : WatchOp) → WatchWorld → op.Ans × WatchWorld
  | .blockNumber, s => (.ok 1, s)
  | .readCursor, s => (.ok s.cursor, s)
  | .insertCursor init, s => (.ok (), s.insertCursor init)
  | .setScanCursor block, s => (.ok (), s.setScanCursor block)
  | .watchedRows, s => (.ok s.rows, s)
  | .treasuryAddresses, s => (some (sampleTokenTreasury, none), s)
  | .ethGetLogs a b _, s => (.ok (some (if a ≤ 1 ∧ 1 ≤ b then [sampleTokenLog] else [])), s)
  | .recordDeposit txRef user network amount, s =>
    (.ok (! s.deposits.any (·.txRef = txRef)), s.record ⟨txRef, user, network, amount, false⟩)
  | .noteUnattributed .., s | .reportSkipped .., s | .finished .., s => ((), s)

/-- The same, for scans served together. -/
def sampleWatchServe : (op : Interactive.Asks WatchOp) → WatchServed →
    Interactive.Asks.Reply WatchOp.Ans op × WatchServed
  | .arrive, s => (s.arrivals, { s with arrivals := s.arrivals + 1 })
  | .ask q op, s =>
    ((sampleWatch op s.world).1,
      s.answer q op (sampleWatch op s.world).1 (sampleWatch op s.world).2)

/-- Its answers are the rail's. -/
theorem sampleWatch_step (op : WatchOp) (s : WatchWorld) :
    WatchStep sampleTokenChain op s (sampleWatch op s).1 (sampleWatch op s).2 := by
  cases op with
  | blockNumber => exact .blockNumber s _
  | readCursor => exact .readCursor s
  | insertCursor init => exact .insertCursor s init _
  | setScanCursor block => exact .setScanCursor s block _
  | watchedRows => exact .watchedRows s
  | treasuryAddresses => exact .treasuryAddresses s _
  | ethGetLogs a b addresses =>
    refine .ethGetLogs s ⟨fun log hlog => ?_, fun block hlo hhi log hlog transfer _ _ => ?_⟩
    · split at hlog
      case isTrue hin => exact ⟨1, hin.1, hin.2, hlog⟩
      case isFalse => cases hlog
    · by_cases hblock : block = 1
      · subst hblock
        rw [if_pos ⟨hlo, hhi⟩]
        exact hlog
      · exact absurd hlog (by simp [sampleTokenChain, hblock])
  | recordDeposit txRef user network amount =>
    exact .recordDeposit s ⟨txRef, user, network, amount, false⟩ rfl
  | noteUnattributed txHash source amount => exact .noteUnattributed s txHash source amount
  | reportSkipped a b first => exact .reportSkipped s a b first
  | finished a b summary => exact .finished s a b summary

theorem sampleWatchServe_step (op : Interactive.Asks WatchOp) (s : WatchServed) :
    ServedStep (WatchStep sampleTokenChain) op s (sampleWatchServe op s).1
      (sampleWatchServe op s).2 := by
  cases op with
  | arrive => exact .arrive s
  | ask q op => exact .ask q (sampleWatch_step op s.world)

/-- One live cycle over the first block. -/
def sampleScanned : WatchServed :=
  ((sampleWatcher.scanOnce 16).serve.advance sampleWatchServe 9 sampleDerived).2

/-- It is reached. -/
theorem sampleScanned_reached :
    ∃ ps, WatchRuns sampleWatcher sampleTokenChain sampleTokenOwner (sampleScanned, ps) := by
  have hderived :
      WatchRuns sampleWatcher sampleTokenChain sampleTokenOwner (sampleDerived, []) := by
    refine .single ⟨.env (.act (.derive _ _ fun row hrow => ?_)), trivial⟩
    rw [List.mem_singleton.mp hrow]
    decide
  have hstarted := hderived.tail ⟨.start ⟨_, .inl ⟨16, rfl⟩, rfl⟩, trivial⟩
  exact ⟨_, hstarted.trans (Runs.advance sampleWatchServe_step 9 _ sampleDerived
    fun _ _ => trivial)⟩

/-- Whom a scan was told the rail's own wallets are. -/
def WatchOp.custodyTold : (Σ op : WatchOp, op.Ans) → Option (Option (String × Option String))
  | ⟨.treasuryAddresses, custody⟩ => some custody
  | _ => none

/-- The transfer is recorded, its block passed, and the treasury known. -/
theorem sampleScanned_done :
    sampleScanned.world.cursor = some 1 ∧
      sampleScanned.world.deposits =
        [⟨⟨sampleTokenTransfer.txRef⟩, .raw 7, .bep20, 5, false⟩] ∧
      (sampleScanned.asked 0).filterMap WatchOp.custodyTold =
        [some (sampleTokenTreasury, none)] := by
  decide +kernel

/-- **A transfer out of the treasury is credited** where it goes to a user's deposit address. -/
theorem treasury_transfer_credited :
    ¬ ∀ (w : DepositWatcher) (chain : EvmChain) (owner : String → Option UserId)
        (c : Config (Interactive.Asks WatchOp) (Interactive.Asks.Reply WatchOp.Ans) WatcherError
          Unit WatchServed), WatchRuns w chain owner c →
      ∀ q treasury gasStation, ⟨.treasuryAddresses, some (treasury, gasStation)⟩ ∈ c.1.asked q →
        ∀ block, ∀ log ∈ chain.logs block, ∀ transfer, log.decodeTransfer = some transfer →
          transfer.source = lowerHash treasury → ∀ row ∈ c.1.world.deposits,
            row.elsewhere = false → TxRef.parse transfer.txRef ≠ .ok row.txRef := by
  intro h
  obtain ⟨ps, hrun⟩ := sampleScanned_reached
  obtain ⟨-, hrow, htold⟩ := sampleScanned_done
  have hasked : ⟨.treasuryAddresses, some (sampleTokenTreasury, none)⟩ ∈ sampleScanned.asked 0 := by
    obtain ⟨⟨op, a⟩, hin, htold⟩ := List.mem_filterMap.mp (htold ▸ List.mem_singleton_self _)
    cases op with
    | treasuryAddresses => exact Option.some.inj htold ▸ hin
    | _ => cases htold
  exact h sampleWatcher sampleTokenChain sampleTokenOwner _ hrun 0 _ _ hasked 1 sampleTokenLog
    List.mem_cons_self _ decode_sampleTokenLog (by decide) _ (hrow ▸ List.mem_cons_self) rfl
    (by decide +kernel)

/-- **The deposit scan loses no block and credits once.** However many live cycles and backfills of
a rail run at once, each step of each in any order, any of them lost anywhere and any answer a
failure: every block from where the cursor started up to it was read by a scan for all the addresses
it had read as watched, or was reported as skipped; a backfill that is done has read its whole
window; in every block read each transfer of a positive value to a watched address is recorded
exactly once, and unless that was elsewhere for the user the address belongs to and of its value;
and every deposit of a scan's is a transfer of the chain's to an address of its user's. -/
theorem deposits_credited_once {w : DepositWatcher} {chain : EvmChain}
    {owner : String → Option UserId}
    {c : Config (Interactive.Asks WatchOp) (Interactive.Asks.Reply WatchOp.Ans) WatcherError Unit
      WatchServed} (h : WatchRuns w chain owner c) :
    (∀ cursor, c.1.world.cursor = some cursor → ∃ origin, c.1.world.origin = some origin ∧
      (∀ start, w.startBlock = some start → origin = start - 1) ∧
      ∀ block : Nat, origin < block → block ≤ cursor →
        ∃ q, ScannedBlock w.network (c.1.asked q) block) ∧
    (∀ q a b summary, ⟨.finished a b summary, ()⟩ ∈ c.1.asked q →
      ∀ block, a ≤ block → block ≤ b → 0 < block →
        ∃ view, Viewed view (c.1.asked q) ∧ BlockRead w.network view (c.1.asked q) block) ∧
    (∀ q view block, Viewed view (c.1.asked q) → BlockRead w.network view (c.1.asked q) block →
      ∀ log ∈ chain.logs block, ∀ transfer user, log.decodeTransfer = some transfer →
        0 < transfer.value → view.watched transfer.target = some user →
          owner transfer.target = some user ∧
            CreditedOnce w.network c.1.world.deposits transfer user) ∧
    ∀ row ∈ c.1.world.deposits, row.elsewhere = false → row.Arrived w.network chain owner := by
  obtain ⟨hsound, hkeeps⟩ := h.pooled
  refine ⟨fun cursor hcursor => ?_, fun q a b summary hfinished => ?_, ?_, ?_⟩
  · obtain ⟨origin, horigin, hpassed⟩ := hsound.cursor cursor hcursor
    exact ⟨origin, horigin, fun start hstart => hsound.origin origin start horigin hstart,
      fun block hlo hhi => hpassed block hlo (by omega)⟩
  · obtain ⟨later, earlier, hsplit, hallowed, -⟩ := (hkeeps q).of_mem hfinished
    intro block hlo hhi hpos
    obtain ⟨view, hview, hread⟩ := hallowed block hlo hhi hpos
    have hsub : earlier ⊆ c.1.asked q := by
      rw [hsplit]
      exact fun e he => List.mem_append_right _ (List.mem_cons_of_mem _ he)
    exact ⟨view, hview.mono hsub, hread.mono hsub⟩
  · intro q view block hview hread log hlog transfer user hdecode hpos hwatched
    exact ⟨hsound.owned hview hwatched,
      hsound.credited hkeeps hview hread hlog hdecode hpos hwatched⟩
  · exact fun row hrow hscan => hsound.arrived hkeeps hrow hscan

/-- The first block, which the sample's cursor has passed, was scanned. -/
theorem deposits_credited_once_sample :
    ∃ q, ScannedBlock sampleWatcher.network (sampleScanned.asked q) 1 := by
  obtain ⟨ps, hrun⟩ := sampleScanned_reached
  obtain ⟨origin, -, hstart, hscanned⟩ := (deposits_credited_once hrun).1 1 sampleScanned_done.1
  obtain rfl := hstart 1 rfl
  exact hscanned 1 (by decide) (by decide)

end Banking
