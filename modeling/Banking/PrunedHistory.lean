import Mathlib.Data.List.Infix
import Mathlib.Data.Nat.Log
import Banking.DepositScan

/-! # History a provider no longer serves

The deposit scan of the EVM rails. A scan reads its window in chunks; where the provider says that
it has pruned a chunk's history, the first block it still serves is looked for by bisection
(`firstRetainedBlock`), and the scan resumes past it. The provider may answer one block both ways,
so the boundary is what survives the answers given, not a fact about the chain. -/

namespace Banking

open Interactive

/-! ## The bisection -/

/-- An interval of blocks within `(pruned, top]` above a lower end that was refused, up to an upper
one that was served. -/
structure Bracket (pruned top : Nat) where
  lo : Nat
  hi : Nat
  pruned_le : pruned ≤ lo
  lt : lo < hi
  le_top : hi ≤ top

/-- A block above the pruned one and not above the top. -/
abbrev BlockWithin (pruned top : Nat) : Type := { block : Nat // pruned < block ∧ block ≤ top }

section Bisection

variable {Op : Type} {Ans : Op → Type} {ε : Type} (probe : Nat → Prog Op Ans ε Bool)

/-- Halve the bracket, by what the middle is answered, until its ends are neighbours. -/
def bisect {pruned top : Nat} (b : Bracket pruned top) : Prog Op Ans ε (Bracket pruned top) :=
  if h : 1 < b.hi - b.lo then
    (probe (b.lo + (b.hi - b.lo) / 2)).bind fun served =>
      if served then
        bisect { b with
          hi := b.lo + (b.hi - b.lo) / 2
          lt := by omega
          le_top := by have := b.le_top; omega }
      else
        bisect { b with
          lo := b.lo + (b.hi - b.lo) / 2
          pruned_le := by have := b.pruned_le; omega
          lt := by omega }
  else .ret b
termination_by b.hi - b.lo

/-- The oldest block in `(pruned, hi]` that is still served, or none where no boundary can be
trusted: the pruned block and the top are probed first, and the block below the boundary once
more. -/
def firstRetainedBlock (pruned hi : Nat) : Prog Op Ans ε (Option (BlockWithin pruned hi)) :=
  if h : hi ≤ pruned then .ret none
  else
    (probe pruned).bind fun served =>
      if served then .ret none
      else
        (probe hi).bind fun served =>
          if ¬ served then .ret none
          else
            (bisect probe
              { lo := pruned, hi, pruned_le := le_rfl, lt := by omega, le_top := le_rfl }).bind
              fun b =>
                (probe b.lo).bind fun served =>
                  if served then .ret none
                  else .ret (some ⟨b.hi, b.pruned_le.trans_lt b.lt, b.le_top⟩)

end Bisection

/-- Blocks skipped past a confirmed boundary, doubled on each further one of a scan. -/
def PRUNE_SLACK_BLOCKS : Nat := 256

/-- The largest 64-bit number. -/
def U64_MAX : Nat := 2 ^ 64 - 1

/-- Where a scan resumes after its `clamp`-th confirmed boundary. A sum that saturates is no less
than the top. -/
def resumeAfterPrune (first clamp top : Nat) : Nat :=
  let slack := min (PRUNE_SLACK_BLOCKS * 2 ^ min (clamp - 1) 63) U64_MAX
  min (first + slack) top

/-- **Where a scan resumes** is at or past the boundary, which is past where it stopped, and not
past the top. -/
theorem resumeAfterPrune_bounds {next first top : Nat} (h : next < first) (hle : first ≤ top)
    (clamp : Nat) :
    next < resumeAfterPrune first clamp top ∧ first ≤ resumeAfterPrune first clamp top ∧
      resumeAfterPrune first clamp top ≤ top := by
  unfold resumeAfterPrune
  dsimp only
  omega

/-! ## The scan -/

/-- The narrowest window of logs that is asked for. -/
def MIN_BLOCK_RANGE : Nat := 16

/-- How often one scan may skip past pruned history. -/
def PRUNE_CLAMPS_PER_SCAN : Nat := 3

/-- How a refusal of the endpoint is met. -/
inductive RpcAction
  | backoff
  | narrow
  | pruned
  | fail
deriving DecidableEq, Repr

/-- Whether a text is a part of another. -/
def hasText (text : String) (s : List Char) : Bool := decide (text.toList <:+: s)

/-- What a refusal's message says to do. -/
def RpcAction.classify (msg : String) : RpcAction :=
  let compact := msg.toList.filter (! Text.isWhitespace ·)
  if hasText "\"code\":-32701" compact || hasText "pruned" (msg.toList.map Char.toLower) then
    .pruned
  else if hasText "\"code\":35" compact || hasText "blocks are not supported" msg.toList ||
      hasText "block range" msg.toList || hasText "query returned more than" msg.toList ||
      hasText "exceed maximum block range" msg.toList then .narrow
  else if hasText "\"code\":15" compact || hasText "\"code\":30" compact ||
      hasText "request failed" msg.toList || hasText "http status 429" msg.toList ||
      hasText "http status 5" msg.toList then .backoff
  else .fail

/-- The refusal only a later window gets past. -/
def isPruned : WatcherError → Bool
  | .rpc detail => RpcAction.classify detail = .pruned
  | _ => false

/-- Whether a scan owns the cursor: the live one does, a backfill does not. -/
inductive CursorPolicy
  | advance
  | leave
deriving DecidableEq, Repr

/-- What a scan did. -/
structure ScanSummary where
  scannedTo : Nat
  credited : Nat
deriving DecidableEq, Repr

/-- What a scan asks of its database, the endpoint and the custody adapter: a log is whatever the
endpoint answers, and crediting one decodes it, sees whose it is and records it. -/
inductive EvmScanOp (L : Type)
  | watchedAddresses
  | treasuryAddresses
  | ethGetLogs (fromBlock toBlock : Nat) (addresses : List String)
  | creditLog (log : L)
  | reportSkipped (fromBlock toBlock retainedFrom : Nat)
  | setScanCursor (block : Nat)

/-- What each is answered with. The endpoint answers logs, something that is no list of them, or a
refusal. -/
abbrev EvmScanOp.Ans {L : Type} : EvmScanOp L → Type
  | .watchedAddresses => Except WatcherError (List String)
  | .treasuryAddresses => Option String
  | .ethGetLogs .. => Except String (Option (List L))
  | .creditLog _ => Except WatcherError Bool
  | .reportSkipped .. => Unit
  | .setScanCursor _ => Except WatcherError Unit

/-- A program of a scan. -/
abbrev EvmScanProg (L α : Type) : Type := Prog (EvmScanOp L) EvmScanOp.Ans WatcherError α

section Scan

variable {L : Type}

/-- An answer with its failure passed on. -/
def orRaise {α : Type} : Except WatcherError α → EvmScanProg L α
  | .ok a => .ret a
  | .error e => .exit e

/-- The last block of a chunk: the window in use, and no further than the safe head. -/
def chunkEnd (fromBlock safeHead range : Nat) : Nat := min (fromBlock + (range - 1)) safeHead

/-- One chunk of logs, the window halved for as long as the endpoint refuses its width; with the
window that was used last. -/
def getLogs (fromBlock safeHead : Nat) (addresses : List String) (range : Nat) :
    EvmScanProg L (Except WatcherError (List L) × Nat) :=
  .call (.ethGetLogs fromBlock (chunkEnd fromBlock safeHead range) addresses) fun answer =>
    match answer with
    | .ok (some logs) => .ret (.ok logs, range)
    | .ok none => .ret (.error (.rpc "eth_getLogs: result is not an array"), range)
    | .error detail =>
      if h : RpcAction.classify ("rpc: " ++ detail) = .narrow ∧ MIN_BLOCK_RANGE < range then
        getLogs fromBlock safeHead addresses (max (range / 2) MIN_BLOCK_RANGE)
      else .ret (.error (.rpc detail), range)
termination_by range
decreasing_by
  have : MIN_BLOCK_RANGE = 16 := rfl
  omega

/-- Whether the provider still serves logs from a block on. -/
def isRetained (safeHead : Nat) (addresses : List String) (block : Nat) : EvmScanProg L Bool :=
  .call (.ethGetLogs block (chunkEnd block safeHead MIN_BLOCK_RANGE) addresses) fun answer =>
    match answer with
    | .ok _ => .ret true
    | .error detail => if isPruned (.rpc detail) then .ret false else .exit (.rpc detail)

/-- A chunk's logs credited in turn, counting those that were new. -/
def creditLogs : List L → Nat → EvmScanProg L Nat
  | [], credited => .ret credited
  | log :: logs, credited =>
    .call (.creditLog log) fun answer => (orRaise answer).bind fun newly =>
      creditLogs logs (if newly then credited + 1 else credited)

/-- Store the cursor, where the scan owns it. -/
def advanceCursor (policy : CursorPolicy) (block : Nat) : EvmScanProg L Unit :=
  if policy = .advance then .call (.setScanCursor block) orRaise else .ret ()

/-- The window from `next` on, chunk by chunk. Past pruned history the cursor jumps, for the live
scan and so many times only. -/
def scanChunks (toBlock : Nat) (addresses : List String) (policy : CursorPolicy)
    (next clamps range : Nat) (summary : ScanSummary) : EvmScanProg L ScanSummary :=
  if _h : next ≤ toBlock then
    (getLogs next toBlock addresses range).bind fun result =>
      match result with
      | (.ok logs, range) =>
        (creditLogs logs summary.credited).bind fun credited =>
          (advanceCursor policy (chunkEnd next toBlock range)).bind fun _ =>
            scanChunks toBlock addresses policy (chunkEnd next toBlock range + 1) clamps range
              { scannedTo := chunkEnd next toBlock range, credited }
      | (.error err, range) =>
        if policy = .advance ∧ isPruned err ∧ clamps < PRUNE_CLAMPS_PER_SCAN then
          (firstRetainedBlock (isRetained toBlock addresses) next toBlock).bind fun found =>
            match found with
            | none => .exit err
            | some first =>
              let resume := resumeAfterPrune first.1 (clamps + 1) toBlock
              .call (.reportSkipped next (resume - 1) first.1) fun _ =>
                (advanceCursor .advance (resume - 1)).bind fun _ =>
                  scanChunks toBlock addresses policy resume (clamps + 1) range summary
        else .exit err
  else .ret summary
termination_by toBlock + 1 - next
decreasing_by
  · unfold chunkEnd
    omega
  · have := resumeAfterPrune_bounds first.2.1 first.2.2 (clamps + 1)
    omega

/-- **A scan of `[fromBlock, toBlock]`**: who is watched, and the window chunk by chunk; where
nobody is, the live scan skips to its end. -/
def scanRange (fromBlock toBlock : Nat) (policy : CursorPolicy) (range : Nat) :
    EvmScanProg L ScanSummary :=
  if toBlock < fromBlock then .ret { scannedTo := fromBlock - 1, credited := 0 }
  else
    .call .watchedAddresses fun watched => (orRaise watched).bind fun watched =>
      .call .treasuryAddresses fun treasury =>
        if watched = [] ∧ treasury = none then
          (advanceCursor policy toBlock).bind fun _ =>
            .ret { scannedTo := toBlock, credited := 0 }
        else
          scanChunks toBlock (watched ++ treasury.toList) policy fromBlock 0 range
            { scannedTo := fromBlock - 1, credited := 0 }

end Scan

/-! ## A boundary and the answers it was found by -/

/-- A probe of a block, with whatever answers it. -/
inductive ProbeOp
  | probe (block : Nat)

/-- Whether the block is served, or a failure. -/
abbrev ProbeOp.Ans (ε : Type) : ProbeOp → Type
  | .probe _ => Except ε Bool

/-- A probe with its failure passed on. -/
def askProbe {ε : Type} (block : Nat) : Prog ProbeOp (ProbeOp.Ans ε) ε Bool :=
  .call (.probe block) fun answer => match answer with
    | .ok served => .ret served
    | .error e => .exit e

/-- A block and what was said of it. -/
abbrev Answer : Type := Nat × Bool

/-- Any answer may be given; the log keeps those that are. -/
def ProbeOp.step {ε : Type} : (op : ProbeOp) → List Answer → op.Ans ε → List Answer → Prop
  | .probe block, log, .ok served, log' => log' = log ++ [(block, served)]
  | .probe _, log, .error _, log' => log' = log

/-- The probes answered by a function of the answers given before. -/
def answeredBy {ε : Type} (answer : List Answer → Nat → Except ε Bool) (log : List Answer) :
    (op : ProbeOp) → op.Ans ε × List Answer
  | .probe block => match answer log block with
    | .ok served => (.ok served, log ++ [(block, served)])
    | .error e => (.error e, log)

/-- The probes' world: nobody else acts, and nothing has to be kept. -/
def probing (ε : Type) : World ProbeOp (ProbeOp.Ans ε) (List Answer) where
  step := ProbeOp.step
  rely := (· = ·)
  inv := fun _ => True

/-- **What the answers say of a bracket**: its ends were answered so, each of the upper end's
answers was that it is served, and every block probed is one of the ends or outside. -/
structure Bracket.Known {pruned top : Nat} (b : Bracket pruned top) (log : List Answer) : Prop where
  refused : (b.lo, false) ∈ log
  served : (b.hi, true) ∈ log
  always : ∀ answer ∈ log, answer.1 = b.hi → answer.2 = true
  outside : ∀ answer ∈ log, answer.1 ≤ b.lo ∨ b.hi ≤ answer.1

/-- **A boundary as the answers have it**: it was probed and always served, the last probe of all
was of the block below and refused it, and its bounds. -/
structure Boundary (pruned top block : Nat) (log : List Answer) : Prop where
  above : pruned < block
  le_top : block ≤ top
  served : (block, true) ∈ log
  never_refused : (block, false) ∉ log
  last : log.getLast? = some (block - 1, false)

section Probing

variable {ε : Type}

/-- A probe adds its answer to the log. -/
theorem wp_askProbe {Q : Bool → List Answer → Prop} {E : ε → List Answer → Prop} {block : Nat}
    {log : List Answer} (h : ∀ served, Q served (log ++ [(block, served)]))
    (he : ∀ e, E e log) : (probing ε).wp Q E (askProbe block) log := by
  rintro log₁ rfl - answer log₂ hstep
  refine ⟨trivial, ?_⟩
  cases answer with
  | ok served =>
    obtain rfl : log₂ = _ := hstep
    exact h served
  | error e =>
    obtain rfl : log₂ = _ := hstep
    exact he e

/-- Halving takes one probe off what is left. -/
theorem clog_half {d : Nat} (h : 1 < d) :
    Nat.clog 2 (d / 2) + 1 ≤ Nat.clog 2 d ∧ Nat.clog 2 (d - d / 2) + 1 ≤ Nat.clog 2 d := by
  rw [Nat.clog_of_two_le (by decide) h, Nat.add_le_add_iff_right, Nat.add_le_add_iff_right]
  constructor <;> refine Nat.clog_mono_right 2 ?_ <;> omega

variable {pruned top : Nat}

/-- A middle that is served is the new upper end. -/
theorem Bracket.Known.down {b b' : Bracket pruned top} {log : List Answer} (h : b.Known log)
    (hlo : b'.lo = b.lo) (hhi : b'.hi < b.hi) :
    b'.Known (log ++ [(b'.hi, true)]) where
  refused := by
    rw [hlo]
    exact List.mem_append_left _ h.refused
  served := by simp
  always := by
    intro answer hmem heq
    rcases List.mem_append.mp hmem with hold | hnew
    · -- nothing between the old ends was probed before
      have := h.outside answer hold
      have := b'.lt
      omega
    · rw [List.mem_singleton.mp hnew]
  outside := by
    intro answer hmem
    rcases List.mem_append.mp hmem with hold | hnew
    · have := h.outside answer hold
      omega
    · rw [List.mem_singleton.mp hnew]
      exact .inr le_rfl

/-- A middle that is refused is the new lower end. -/
theorem Bracket.Known.up {b b' : Bracket pruned top} {log : List Answer} (h : b.Known log)
    (hhi : b'.hi = b.hi) (hlo : b.lo < b'.lo) :
    b'.Known (log ++ [(b'.lo, false)]) where
  refused := by simp
  served := by
    rw [hhi]
    exact List.mem_append_left _ h.served
  always := by
    intro answer hmem heq
    rcases List.mem_append.mp hmem with hold | hnew
    · exact h.always answer hold (heq.trans hhi)
    · rw [List.mem_singleton.mp hnew] at heq
      have := b'.lt
      dsimp only at heq
      omega
  outside := by
    intro answer hmem
    rcases List.mem_append.mp hmem with hold | hnew
    · have := h.outside answer hold
      omega
    · rw [List.mem_singleton.mp hnew]
      exact .inl le_rfl

/-- **The bisection** ends with neighbours of which it knows what it was told, within its probes. -/
theorem wp_bisect {n : Nat} (b : Bracket pruned top) {log : List Answer} (h : b.Known log)
    (hlen : log.length + Nat.clog 2 (b.hi - b.lo) ≤ n) :
    (probing ε).wp
      (fun b log => b.Known log ∧ b.hi = b.lo + 1 ∧ log.length ≤ n) (fun _ log => log.length ≤ n)
      (bisect askProbe b) log := by
  induction hd : b.hi - b.lo using Nat.strongRecOn generalizing b log with
  | _ d ih =>
    subst hd
    rw [bisect]
    by_cases hwide : 1 < b.hi - b.lo
    swap
    · rw [dif_neg hwide]
      have := b.lt
      exact ⟨h, by omega, by omega⟩
    rw [dif_pos hwide]
    obtain ⟨hdown, hup⟩ := clog_half hwide
    refine World.wp_bind.mpr (wp_askProbe (fun served => ?_) fun _ => by omega)
    cases served with
    | true =>
      refine ih _ ?_ _ (h.down rfl ?_) ?_ rfl
      · dsimp only
        omega
      · dsimp only
        omega
      · rw [List.length_append, List.length_singleton]
        dsimp only
        rw [Nat.add_sub_cancel_left]
        omega
    | false =>
      refine ih _ ?_ _ (h.up rfl ?_) ?_ rfl
      · dsimp only
        omega
      · dsimp only
        omega
      · rw [List.length_append, List.length_singleton]
        dsimp only
        rw [Nat.sub_add_eq]
        omega

/-- **The search for the first retained block**: what it returns is a boundary as the answers have
it; and it probes at most three times more than a bisection has steps. -/
theorem wp_firstRetainedBlock (pruned hi : Nat) :
    (probing ε).wp
      (fun found log => log.length ≤ Nat.clog 2 (hi - pruned) + 3 ∧
        (∀ block, found = some block → Boundary pruned hi block.1 log) ∧
        (found = none → hi ≤ pruned ∨ (pruned, true) ∈ log ∨ (hi, false) ∈ log ∨
          ∃ block, (block, false) ∈ log ∧ (block, true) ∈ log))
      (fun _ log => log.length ≤ Nat.clog 2 (hi - pruned) + 3)
      (firstRetainedBlock askProbe pruned hi) [] := by
  unfold firstRetainedBlock
  by_cases hempty : hi ≤ pruned
  · rw [dif_pos hempty]
    exact ⟨Nat.zero_le _, nofun, fun _ => .inl hempty⟩
  rw [dif_neg hempty]
  refine World.wp_bind.mpr (wp_askProbe (fun served => ?_) fun _ => Nat.zero_le _)
  cases served with
  | true => exact ⟨by simp, nofun, fun _ => .inr (.inl (by simp))⟩
  | false =>
    refine World.wp_bind.mpr (wp_askProbe (fun served => ?_) fun _ => by simp)
    cases served with
    | false => exact ⟨by simp, nofun, fun _ => .inr (.inr (.inl (by simp)))⟩
    | true =>
      have hknown : (⟨pruned, hi, le_rfl, by omega, le_rfl⟩ : Bracket pruned hi).Known
          [(pruned, false), (hi, true)] := by
        refine ⟨by simp, by simp, fun answer hmem heq => ?_, fun answer hmem => ?_⟩
        · rcases List.mem_pair.mp hmem with rfl | rfl
          · dsimp only at heq
            omega
          · rfl
        · rcases List.mem_pair.mp hmem with rfl | rfl
          · exact .inl le_rfl
          · exact .inr le_rfl
      refine World.wp_bind.mpr (World.wp_mono
        (wp_bisect (n := Nat.clog 2 (hi - pruned) + 2) _ hknown (by simp; omega)) ?_ ?_)
      · rintro b log ⟨hb, hnext, hlen⟩
        refine World.wp_bind.mpr (wp_askProbe (fun served => ?_) fun _ => by omega)
        have hlen' : (log ++ [(b.lo, served)]).length ≤ Nat.clog 2 (hi - pruned) + 3 := by
          rw [List.length_append, List.length_singleton]
          omega
        cases served with
        | true =>
          -- the same block answered both ways
          refine ⟨hlen', nofun, fun _ => .inr (.inr (.inr ⟨b.lo, ?_, ?_⟩))⟩
          · exact List.mem_append_left _ hb.refused
          · simp
        | false =>
          refine ⟨hlen', fun block hblock => ?_, nofun⟩
          obtain rfl := Option.some.inj hblock
          refine ⟨b.pruned_le.trans_lt b.lt, b.le_top, List.mem_append_left _ hb.served, ?_, ?_⟩
          · intro hmem
            rcases List.mem_append.mp hmem with hold | hlast
            · cases hb.always _ hold rfl
            · have hsame : b.hi = b.lo := (Prod.mk.inj (List.mem_singleton.mp hlast)).1
              exact absurd hsame b.lt.ne'
          · rw [List.getLast?_append]
            simp [hnext]
      · intro _ log hlen
        omega

end Probing

/-! ## What a scan leaves behind -/

/-- **What is kept of a scan**: the cursor, who was watched, the chunks of logs that were answered,
the logs that were credited, and the ranges that were reported as skipped, each with the block its
history was found to be retained from. -/
structure EvmScan (L : Type) where
  cursor : Nat
  watched : Option (List String)
  treasury : Option (Option String)
  answered : List (Nat × Nat × List L)
  credited : List L
  skipped : List (Nat × Nat × Nat)

section ScanRuns

variable {L : Type}

/-- What an operation may be answered, and what it leaves behind. A cursor whose update failed may
have been stored. -/
def EvmScanOp.step : (op : EvmScanOp L) → EvmScan L → op.Ans → EvmScan L → Prop
  | .watchedAddresses, w, .ok watched, w' => w' = { w with watched := some watched }
  | .watchedAddresses, w, .error _, w' => w' = w
  | .treasuryAddresses, w, treasury, w' => w' = { w with treasury := some treasury }
  | .ethGetLogs a b _, w, .ok (some logs), w' =>
    w' = { w with answered := w.answered ++ [(a, b, logs)] }
  | .ethGetLogs .., w, _, w' => w' = w
  | .creditLog log, w, .ok _, w' => w' = { w with credited := w.credited ++ [log] }
  | .creditLog _, w, .error _, w' => w' = w
  | .reportSkipped a b first, w, _, w' => w' = { w with skipped := w.skipped ++ [(a, b, first)] }
  | .setScanCursor block, w, .ok _, w' => w' = { w with cursor := block }
  | .setScanCursor block, w, .error _, w' => w' = w ∨ w' = { w with cursor := block }

/-- Nobody was watched. -/
def EvmScan.Idle (w : EvmScan L) : Prop := w.watched = some [] ∧ w.treasury = some none

/-- A block that was read, with every log of its chunk credited, or that was reported as skipped. -/
def EvmScan.Covers (w : EvmScan L) (block : Nat) : Prop :=
  (∃ chunk ∈ w.answered, chunk.1 ≤ block ∧ block ≤ chunk.2.1 ∧
    ∀ log ∈ chunk.2.2, log ∈ w.credited) ∨
    ∃ skip ∈ w.skipped, skip.1 ≤ block ∧ block ≤ skip.2.1

/-- **A skip a scan may make**: up to where it resumes, which is past where it stopped, at or past
the block found to be retained, and in the window. -/
structure SkipWithin (toBlock : Nat) (skip : Nat × Nat × Nat) : Prop where
  retained : skip.1 < skip.2.2 ∧ skip.2.2 ≤ toBlock
  resumes : skip.1 < skip.2.1 + 1
  past : skip.2.2 ≤ skip.2.1 + 1
  within : skip.2.1 + 1 ≤ toBlock

/-- **What every operation of a scan keeps**: its skips are such, and every block of its window up
to the cursor was read or reported, unless nobody was watched. -/
structure EvmScan.Sound (fromBlock toBlock : Nat) (w : EvmScan L) : Prop where
  skips : ∀ skip ∈ w.skipped, SkipWithin toBlock skip
  covered : ∀ block, fromBlock ≤ block → block ≤ w.cursor → w.Covers block ∨ w.Idle
  cursor_le : w.cursor ≤ max toBlock (fromBlock - 1)

/-- A scan alone with its cursor. -/
def scanning (L : Type) (fromBlock toBlock : Nat) :
    World (EvmScanOp L) EvmScanOp.Ans (EvmScan L) where
  step := EvmScanOp.step
  rely := (· = ·)
  inv := EvmScan.Sound fromBlock toBlock

/-- What reading and crediting do: more is answered and credited, and nothing else changes. -/
structure EvmScan.Reads (w w' : EvmScan L) : Prop where
  cursor : w'.cursor = w.cursor
  watched : w'.watched = w.watched
  treasury : w'.treasury = w.treasury
  skipped : w'.skipped = w.skipped
  answered : w.answered ⊆ w'.answered
  credited : w.credited ⊆ w'.credited

theorem EvmScan.Reads.refl (w : EvmScan L) : w.Reads w :=
  ⟨rfl, rfl, rfl, rfl, fun _ h => h, fun _ h => h⟩

theorem EvmScan.Reads.trans {w w' w'' : EvmScan L} (h : w.Reads w') (h' : w'.Reads w'') :
    w.Reads w'' where
  cursor := h'.cursor.trans h.cursor
  watched := h'.watched.trans h.watched
  treasury := h'.treasury.trans h.treasury
  skipped := h'.skipped.trans h.skipped
  answered := List.Subset.trans h.answered h'.answered
  credited := List.Subset.trans h.credited h'.credited

/-- What was covered stays so. -/
theorem EvmScan.Reads.covers {w w' : EvmScan L} (h : w.Reads w') {block : Nat}
    (hcovers : w.Covers block) : w'.Covers block := by
  rcases hcovers with ⟨chunk, hchunk, hlo, hhi, hlogs⟩ | ⟨skip, hskip, hin⟩
  · exact .inl ⟨chunk, h.answered hchunk, hlo, hhi, fun log hlog => h.credited (hlogs log hlog)⟩
  · exact .inr ⟨skip, h.skipped ▸ hskip, hin⟩

/-- Reading and crediting keep what has to be kept. -/
theorem EvmScan.Reads.sound {w w' : EvmScan L} {fromBlock toBlock : Nat} (h : w.Reads w')
    (hsound : w.Sound fromBlock toBlock) : w'.Sound fromBlock toBlock where
  skips := h.skipped ▸ hsound.skips
  covered := by
    intro block hlo hhi
    rw [h.cursor] at hhi
    refine (hsound.covered block hlo hhi).imp h.covers fun hidle => ?_
    rw [EvmScan.Idle, h.watched, h.treasury]
    exact hidle
  cursor_le := by
    rw [h.cursor]
    exact hsound.cursor_le

/-- The operations that read and credit. -/
def EvmScanOp.IsRead : EvmScanOp L → Prop
  | .ethGetLogs .. | .creditLog _ => True
  | _ => False

/-- What they do. -/
theorem EvmScanOp.IsRead.reads {op : EvmScanOp L} (h : op.IsRead) {w w' : EvmScan L} {a : op.Ans}
    (hstep : op.step w a w') : w.Reads w' := by
  cases op with
  | ethGetLogs fromBlock toBlock addresses =>
    match a with
    | .ok (some logs) =>
      obtain rfl : w' = _ := hstep
      exact ⟨rfl, rfl, rfl, rfl, fun _ h => List.mem_append_left _ h, fun _ h => h⟩
    | .ok none | .error _ =>
      obtain rfl : w' = _ := hstep
      exact .refl w'
  | creditLog log =>
    match a with
    | .ok _ =>
      obtain rfl : w' = _ := hstep
      exact ⟨rfl, rfl, rfl, rfl, fun _ h => h, fun _ h => List.mem_append_left _ h⟩
    | .error _ =>
      obtain rfl : w' = _ := hstep
      exact .refl w'
  | _ => exact h.elim

/-- The bisection asks no more than its probe does. -/
theorem bisect_within {Op : Type} {Ans : Op → Type} {ε : Type} {U : Op → Prop}
    {probe : Nat → Prog Op Ans ε Bool} (hprobe : ∀ block, (probe block).Within U)
    {pruned top : Nat} (b : Bracket pruned top) : (bisect probe b).Within U := by
  fun_induction bisect probe b with
  | case1 b hwide hdown hup =>
    refine (hprobe _).bind fun served => ?_
    cases served with
    | true => exact hdown
    | false => exact hup
  | case2 b hdone => trivial

/-- Nor does the search. -/
theorem firstRetainedBlock_within {Op : Type} {Ans : Op → Type} {ε : Type} {U : Op → Prop}
    {probe : Nat → Prog Op Ans ε Bool} (hprobe : ∀ block, (probe block).Within U)
    (pruned hi : Nat) : (firstRetainedBlock probe pruned hi).Within U := by
  unfold firstRetainedBlock
  split
  · trivial
  · refine (hprobe _).bind fun served => ?_
    split
    · trivial
    · refine (hprobe _).bind fun served => ?_
      split
      · trivial
      · refine (bisect_within hprobe _).bind fun b => (hprobe _).bind fun served => ?_
        split <;> trivial

/-- A probe of the scan is a read. -/
theorem isRetained_within (safeHead : Nat) (addresses : List String) (block : Nat) :
    (isRetained safeHead addresses block : EvmScanProg L Bool).Within EvmScanOp.IsRead := by
  refine ⟨trivial, fun answer => ?_⟩
  dsimp only
  split
  · trivial
  · split <;> trivial

variable {fromBlock toBlock : Nat} {E : WatcherError → EvmScan L → Prop}

/-- One operation that reads. -/
theorem wp_read {α : Type} {op : EvmScanOp L} {k : op.Ans → EvmScanProg L α}
    {Q : α → EvmScan L → Prop} {w : EvmScan L} (hop : op.IsRead)
    (hsound : w.Sound fromBlock toBlock)
    (h : ∀ a w', op.step w a w' → w.Reads w' → w'.Sound fromBlock toBlock →
      (scanning L fromBlock toBlock).wp Q E (k a) w') :
    (scanning L fromBlock toBlock).wp Q E (.call op k) w := by
  rintro w₁ rfl - a w' hstep
  have hreads := hop.reads hstep
  have hsound' := hreads.sound hsound
  exact ⟨hsound', h a w' hstep hreads hsound'⟩

/-- **A chunk read**: it ends where the window used last says, and its logs were answered. -/
theorem wp_getLogs {next range : Nat} {addresses : List String} {w : EvmScan L}
    (hsound : w.Sound fromBlock toBlock) :
    (scanning L fromBlock toBlock).wp
      (fun result w' => w.Reads w' ∧ ∀ logs, result.1 = .ok logs →
        (next, chunkEnd next toBlock result.2, logs) ∈ w'.answered) E
      (getLogs next toBlock addresses range) w := by
  induction range using Nat.strongRecOn generalizing w with
  | _ range ih =>
    rw [getLogs]
    refine wp_read trivial hsound fun a w' hstep hreads hsound' => ?_
    match a with
    | .ok (some logs) =>
      obtain rfl : w' = _ := hstep
      refine ⟨hreads, fun logs' hlogs => ?_⟩
      obtain rfl := Except.ok.inj hlogs
      simp
    | .ok none => exact ⟨hreads, nofun⟩
    | .error detail =>
      dsimp only
      split
      case isTrue hnarrow =>
        have hmin : MIN_BLOCK_RANGE = 16 := rfl
        refine World.wp_mono (ih _ (by omega) hsound') ?_ fun _ _ h => h
        rintro result w'' ⟨hreads', hlogs⟩
        exact ⟨hreads.trans hreads', hlogs⟩
      case isFalse => exact ⟨hreads, nofun⟩

/-- **Logs credited**: all of them. -/
theorem wp_creditLogs {logs : List L} {credited : Nat} {w : EvmScan L}
    (hsound : w.Sound fromBlock toBlock) :
    (scanning L fromBlock toBlock).wp
      (fun _ w' => w.Reads w' ∧ ∀ log ∈ logs, log ∈ w'.credited) (fun _ _ => True)
      (creditLogs logs credited) w := by
  induction logs generalizing credited w with
  | nil => exact ⟨.refl w, nofun⟩
  | cons log logs ih =>
    rw [creditLogs]
    refine wp_read trivial hsound fun a w' hstep hreads hsound' => ?_
    match a with
    | .error e => trivial
    | .ok newly =>
      obtain rfl : w' = _ := hstep
      refine World.wp_mono (ih hsound') ?_ fun _ _ h => h
      rintro _ w'' ⟨hreads', hlogs⟩
      refine ⟨hreads.trans hreads', fun log' hlog' => ?_⟩
      rcases List.mem_cons.mp hlog' with rfl | hlog'
      · exact hreads'.credited (by simp)
      · exact hlogs log' hlog'

/-- **The search within a scan** reads, and finds a block past where the scan stopped. -/
theorem wp_search {addresses : List String} {next : Nat} {w : EvmScan L} :
    (scanning L fromBlock toBlock).wp (fun _ w' => w.Reads w') (fun _ _ => True)
      (firstRetainedBlock (isRetained toBlock addresses) next toBlock) w := by
  have hwithin := firstRetainedBlock_within (isRetained_within (L := L) toBlock addresses) next
    toBlock
  refine World.wp_mono (World.wp_within hwithin (J := fun w' => w.Reads w') ?_ ?_ (.refl w))
    (fun _ _ h => h) fun _ _ _ => trivial
  · rintro w₁ _ rfl h
    exact h
  · intro op w₁ a w₂ hop hinv h hstep
    have hreads := hop.reads hstep
    exact ⟨hreads.sound hinv, h.trans hreads⟩

/-- The cursor stored by a scan that owns it: what it is stored at has to be sound, whether or not
the update's failure stored it. -/
theorem wp_advanceCursor {policy : CursorPolicy} {block : Nat} {Q : Unit → EvmScan L → Prop}
    {w : EvmScan L} (hsound : w.Sound fromBlock toBlock)
    (hstored : policy = .advance → EvmScan.Sound fromBlock toBlock { w with cursor := block })
    (hadvance : policy = .advance → Q () { w with cursor := block })
    (hleave : policy = .leave → Q () w) :
    (scanning L fromBlock toBlock).wp Q (fun _ _ => True) (advanceCursor policy block) w := by
  unfold advanceCursor
  cases policy with
  | leave => exact hleave rfl
  | advance =>
    rw [if_pos rfl]
    rintro w₁ rfl - a w' hstep
    match a with
    | .ok _ =>
      obtain rfl : w' = _ := hstep
      exact ⟨hstored rfl, hadvance rfl⟩
    | .error _ =>
      rcases hstep with rfl | rfl
      · exact ⟨hsound, trivial⟩
      · exact ⟨hstored rfl, trivial⟩

/-- **Where a scan stands**: everything of its window below `next` was read or reported. -/
structure ScanAt (fromBlock toBlock : Nat) (policy : CursorPolicy) (next : Nat) (w : EvmScan L) :
    Prop where
  sound : w.Sound fromBlock toBlock
  before : ∀ block, fromBlock ≤ block → block < next → w.Covers block
  next_le : next ≤ toBlock + 1
  cursor : policy = .advance → next = fromBlock ∨ w.cursor + 1 = next

/-- A cursor stored where everything up to it is covered is sound. -/
theorem EvmScan.Sound.stored {w : EvmScan L} {block : Nat} (hsound : w.Sound fromBlock toBlock)
    (hle : block ≤ toBlock)
    (hcovers : ∀ b, fromBlock ≤ b → b ≤ block → w.Covers b) :
    EvmScan.Sound fromBlock toBlock { w with cursor := block } where
  skips := hsound.skips
  covered := fun b hlo hhi => .inl (hcovers b hlo hhi)
  cursor_le := hle.trans (le_max_left _ _)

/-- Reading keeps where the scan stands. -/
theorem ScanAt.reads {policy : CursorPolicy} {next : Nat} {w w' : EvmScan L}
    (h : ScanAt fromBlock toBlock policy next w) (hreads : w.Reads w') :
    ScanAt fromBlock toBlock policy next w' where
  sound := hreads.sound h.sound
  before := fun block hlo hhi => hreads.covers (h.before block hlo hhi)
  next_le := h.next_le
  cursor := by
    rw [hreads.cursor]
    exact h.cursor

/-- A chunk read and credited takes the scan to its end. -/
theorem ScanAt.chunk {policy : CursorPolicy} {next range : Nat} {logs : List L} {w : EvmScan L}
    (h : ScanAt fromBlock toBlock policy next w) (hnext : next ≤ toBlock)
    (hanswered : (next, chunkEnd next toBlock range, logs) ∈ w.answered)
    (hcredited : ∀ log ∈ logs, log ∈ w.credited) :
    next ≤ chunkEnd next toBlock range ∧ chunkEnd next toBlock range ≤ toBlock ∧
      ∀ block, fromBlock ≤ block → block ≤ chunkEnd next toBlock range → w.Covers block := by
  have hge : next ≤ chunkEnd next toBlock range := by
    unfold chunkEnd
    omega
  refine ⟨hge, Nat.min_le_right _ _, fun block hlo hhi => ?_⟩
  by_cases hbefore : block < next
  · exact h.before block hlo hbefore
  · exact .inl ⟨_, hanswered, Nat.not_lt.mp hbefore, hhi, hcredited⟩

/-- **The loop over the chunks.** -/
theorem wp_scanChunks {policy : CursorPolicy} {addresses : List String} {next clamps range : Nat}
    {summary : ScanSummary} {w : EvmScan L} (h : ScanAt fromBlock toBlock policy next w) :
    (scanning L fromBlock toBlock).wp
      (fun _ w' => ScanAt fromBlock toBlock policy (toBlock + 1) w') (fun _ _ => True)
      (scanChunks toBlock addresses policy next clamps range summary) w := by
  induction hd : toBlock + 1 - next using Nat.strongRecOn
    generalizing next clamps range summary w with
  | _ d ih =>
    subst hd
    rw [scanChunks]
    by_cases hnext : next ≤ toBlock
    swap
    · -- the window is done
      rw [dif_neg hnext]
      obtain rfl : next = toBlock + 1 := by
        have := h.next_le
        omega
      exact h
    rw [dif_pos hnext]
    refine World.wp_bind.mpr (World.wp_mono (wp_getLogs h.sound) ?_ fun _ _ h => h)
    rintro ⟨result, used⟩ w₁ ⟨hreads, hanswered⟩
    have h₁ := h.reads hreads
    cases result with
    | ok logs =>
      -- a chunk: its logs, then the cursor
      refine World.wp_bind.mpr (World.wp_mono (wp_creditLogs h₁.sound) ?_ fun _ _ h => h)
      rintro credited w₂ ⟨hreads₂, hcredited⟩
      have h₂ := h₁.reads hreads₂
      have hchunk := hreads₂.answered (hanswered logs rfl)
      dsimp only at hchunk
      obtain ⟨hge, hle, hcovers⟩ := h₂.chunk hnext hchunk hcredited
      have hstored := h₂.sound.stored hle hcovers
      refine World.wp_bind.mpr (wp_advanceCursor h₂.sound (fun _ => hstored) ?_ ?_)
      · rintro rfl
        refine ih _ (by omega) ⟨hstored, fun block hlo hhi => ?_, by omega, fun _ => .inr rfl⟩ rfl
        exact hcovers block hlo (by omega)
      · rintro rfl
        refine ih _ (by omega) ⟨h₂.sound, fun block hlo hhi => ?_, by omega, nofun⟩ rfl
        exact hcovers block hlo (by omega)
    | error err =>
      dsimp only
      split
      case isFalse => trivial
      case isTrue hpruned =>
        obtain ⟨rfl, -, -⟩ := hpruned
        refine World.wp_bind.mpr (World.wp_mono wp_search ?_ fun _ _ _ => trivial)
        intro found w₂ hreads₂
        have h₂ := h₁.reads hreads₂
        cases found with
        | none => trivial
        | some first =>
          obtain ⟨first, hfirst, hfirstLe⟩ := first
          obtain ⟨hresume, hpast, hresumeLe⟩ :=
            resumeAfterPrune_bounds hfirst hfirstLe (clamps + 1)
          dsimp only
          -- the skip is reported first, then the cursor jumps
          rintro w₃ rfl - _ w₄ hstep
          obtain rfl : w₄ = _ := hstep
          generalize resumeAfterPrune first (clamps + 1) toBlock = resume at *
          have hcovers : ∀ block, fromBlock ≤ block → block ≤ resume - 1 →
              EvmScan.Covers { w₂ with
                skipped := w₂.skipped ++ [(next, resume - 1, first)] } block := by
            intro block hlo hhi
            by_cases hbefore : block < next
            · rcases h₂.before block hlo hbefore with hread | ⟨skip, hskip, hin⟩
              · exact .inl hread
              · exact .inr ⟨skip, List.mem_append_left _ hskip, hin⟩
            · exact .inr ⟨_, List.mem_append_right _ (List.mem_singleton_self _),
                Nat.not_lt.mp hbefore, hhi⟩
          have hsound : EvmScan.Sound fromBlock toBlock { w₂ with
              skipped := w₂.skipped ++ [(next, resume - 1, first)] } := by
            refine ⟨fun skip hskip => ?_, fun block hlo hhi => ?_, h₂.sound.cursor_le⟩
            · rcases List.mem_append.mp hskip with hold | hnew
              · exact h₂.sound.skips skip hold
              · rw [List.mem_singleton.mp hnew]
                exact ⟨⟨hfirst, hfirstLe⟩, by dsimp only; omega, by dsimp only; omega,
                  by dsimp only; omega⟩
            · refine (h₂.sound.covered block hlo hhi).imp_left fun hcovered => ?_
              rcases hcovered with hread | ⟨skip, hskip, hin⟩
              · exact .inl hread
              · exact .inr ⟨skip, List.mem_append_left _ hskip, hin⟩
          refine ⟨hsound, ?_⟩
          have hstored := hsound.stored (by omega) hcovers
          refine World.wp_bind.mpr (wp_advanceCursor hsound (fun _ => hstored) (fun _ => ?_) nofun)
          refine ih _ (by omega) ⟨hstored, fun block hlo hhi => ?_, by omega, fun _ => .inr ?_⟩ rfl
          · exact hcovers block hlo (by omega)
          · dsimp only
            omega

/-- A scan whose cursor is below its window has nothing to keep yet. -/
theorem EvmScan.Sound.fresh {w : EvmScan L} (hcursor : w.cursor < fromBlock)
    (hskips : w.skipped = []) : w.Sound fromBlock toBlock where
  skips := by
    rw [hskips]
    nofun
  covered := fun _ hlo hhi => absurd (hlo.trans hhi) (Nat.not_le.mpr hcursor)
  cursor_le := by omega

/-- **The scan of a window.** -/
theorem wp_scanRange {policy : CursorPolicy} {range : Nat} {w : EvmScan L}
    (hcursor : w.cursor < fromBlock) (hskips : w.skipped = []) :
    (scanning L fromBlock toBlock).wp
      (fun _ w' => toBlock < fromBlock ∨ w'.Idle ∨
        ScanAt fromBlock toBlock policy (toBlock + 1) w') (fun _ _ => True)
      (scanRange fromBlock toBlock policy range) w := by
  unfold scanRange
  split
  case isTrue hempty => exact .inl hempty
  case isFalse hwindow =>
    rintro w₁ rfl - watched w₂ hstep
    match watched with
    | .error _ =>
      obtain rfl : w₂ = _ := hstep
      exact ⟨.fresh hcursor hskips, trivial⟩
    | .ok watched =>
      obtain rfl : w₂ = _ := hstep
      refine ⟨.fresh hcursor hskips, ?_⟩
      rintro w₃ rfl - treasury w₄ hstep
      obtain rfl : w₄ = _ := hstep
      have hfresh : EvmScan.Sound fromBlock toBlock
          { w with watched := some watched, treasury := some treasury } := .fresh hcursor hskips
      refine ⟨hfresh, ?_⟩
      dsimp only
      split
      case isTrue hidle =>
        -- nobody is watched: the cursor may go to the end
        obtain ⟨rfl, rfl⟩ := hidle
        have hstored : EvmScan.Sound fromBlock toBlock
            { w with watched := some [], treasury := some none, cursor := toBlock } :=
          ⟨hfresh.skips, fun _ _ _ => .inr ⟨rfl, rfl⟩, le_max_left _ _⟩
        refine World.wp_bind.mpr (wp_advanceCursor hfresh (fun _ => hstored) ?_ ?_)
        · exact fun _ => .inr (.inl ⟨rfl, rfl⟩)
        · exact fun _ => .inr (.inl ⟨rfl, rfl⟩)
      case isFalse =>
        have hstart : ScanAt fromBlock toBlock policy fromBlock
            { w with watched := some watched, treasury := some treasury } :=
          ⟨hfresh, fun block hlo hhi => absurd hlo (by omega), by omega, fun _ => .inl rfl⟩
        exact World.wp_mono (wp_scanChunks hstart) (fun _ _ h => .inr (.inr h)) fun _ _ h => h

end ScanRuns

/-! ## The first retained block -/

/-- Every answer given is one a function of the block gives. -/
def Consistent (served : Nat → Prop) (log : List Answer) : Prop :=
  ∀ answer ∈ log, answer.2 = true ↔ served answer.1

/-- **Where the provider keeps a suffix of the chain, a boundary is its first block.** -/
theorem Boundary.isLeast {pruned top block : Nat} {log : List Answer}
    (h : Boundary pruned top block log) {served : Nat → Prop} (hlog : Consistent served log)
    (hmono : ∀ a b, a ≤ b → served a → served b) :
    served block ∧ ∀ other, served other → block ≤ other := by
  refine ⟨(hlog _ h.served).mp rfl, fun other hother => ?_⟩
  by_contra hlt
  have hbelow : served (block - 1) := hmono _ _ (by omega) hother
  have hrefused : ((block - 1, false) : Answer) ∈ log := List.mem_of_getLast? h.last
  have := (hlog _ hrefused).mpr hbelow
  cases this

/-- A log of answers by a function of the block answers no block both ways. -/
theorem Consistent.not_both {served : Nat → Prop} {log : List Answer} (h : Consistent served log)
    {block : Nat} (hrefused : (block, false) ∈ log) (hserved : (block, true) ∈ log) : False := by
  have := (h _ hrefused).mpr ((h _ hserved).mp rfl)
  cases this

/-- A run of the search against any way of answering is one the probes' world allows. -/
theorem exec_answeredBy {ε α : Type} (answer : List Answer → Nat → Except ε Bool)
    (p : Prog ProbeOp (ProbeOp.Ans ε) ε α) (log : List Answer) :
    Exec (probing ε).step (probing ε).rely p log (p.runWith (answeredBy answer) log).1
      (p.runWith (answeredBy answer) log).2 := by
  have hpass : ∀ log, p.answersPass (answeredBy answer) (fun _ _ => true) log = true := by
    induction p with
    | ret a => exact fun _ => rfl
    | exit e => exact fun _ => rfl
    | call op k ih => exact fun log => ih _ _
  refine Exec.of_runWith (fun _ => rfl) ?_ (hpass log)
  rintro ⟨block⟩ log -
  show ProbeOp.step _ _ _ _
  unfold answeredBy
  dsimp only
  cases answer log block <;> rfl

/-- **Finding the first retained block, and resuming past it.** For every interval and every way of
answering the probes, one that contradicts itself included, the search ends within three probes more
than a bisection takes; a block it returns is above the pruned one and not above the top, was served
whenever probed, and the last probe of all refused its predecessor; where the answers are those of a
provider that keeps a suffix of the chain it is the first block of that, and it is found unless the
pruned block is served or the top is not. Where a scan resumes is past where it stopped and within
its window. And in every run of a scan, whatever is answered, every range it skips is such, and at
every cursor it stores every block of its window up to there was read with all its logs credited, or
was reported as skipped, unless nobody was watched. -/
theorem first_retained_block_found :
    (∀ {ε : Type} (pruned hi : Nat) (answer : List Answer → Nat → Except ε Bool),
      let out := (firstRetainedBlock askProbe pruned hi).runWith (answeredBy answer) []
      out.2.length ≤ Nat.clog 2 (hi - pruned) + 3 ∧
      (∀ block, out.1 = .ok (some block) → Boundary pruned hi block.1 out.2 ∧
        ∀ served : Nat → Prop, Consistent served out.2 →
          (∀ a b, a ≤ b → served a → served b) →
          served block.1 ∧ ∀ other, served other → block.1 ≤ other) ∧
      (out.1 = .ok none → ∀ served : Nat → Prop, Consistent served out.2 →
        hi ≤ pruned ∨ served pruned ∨ ¬ served hi)) ∧
    (∀ next first top clamp, next < first → first ≤ top →
      next < resumeAfterPrune first clamp top ∧ first ≤ resumeAfterPrune first clamp top ∧
        resumeAfterPrune first clamp top ≤ top) ∧
    (∀ {L : Type} (fromBlock toBlock range : Nat) (policy : CursorPolicy) (w w' : EvmScan L)
      (r : Except WatcherError ScanSummary), w.cursor < fromBlock → w.skipped = [] →
      Exec EvmScanOp.step (· = ·) (scanRange fromBlock toBlock policy range) w r w' →
      w'.Sound fromBlock toBlock ∧
      (r.isOk = true → fromBlock ≤ toBlock → ¬ w'.Idle →
        (∀ block, fromBlock ≤ block → block ≤ toBlock → w'.Covers block) ∧
        (policy = .advance → w'.cursor = toBlock))) := by
  refine ⟨fun {ε} pruned hi answer => ?_,
    fun _ _ _ clamp h hle => resumeAfterPrune_bounds h hle clamp,
    fun fromBlock toBlock range policy w w' r hcursor hskips hrun => ?_⟩
  · intro out
    have hends := (Exec.of_wp (S := probing ε) (fun _ _ _ _ => trivial)
      (exec_answeredBy answer (firstRetainedBlock askProbe pruned hi) []) trivial
      (wp_firstRetainedBlock pruned hi)).2
    change EndsIn _ _ out.1 out.2 at hends
    cases hout : out.1 with
    | error e =>
      rw [hout] at hends
      exact ⟨hends, nofun, nofun⟩
    | ok found =>
      rw [hout] at hends
      obtain ⟨hlen, hfound, hnone⟩ := hends
      refine ⟨hlen, fun block hblock => ?_, fun hempty served hlog => ?_⟩
      · have hboundary := hfound block (Except.ok.inj hblock)
        exact ⟨hboundary, fun served hlog hmono => hboundary.isLeast hlog hmono⟩
      · rcases hnone (Except.ok.inj hempty) with hempty | hserved | hrefused | ⟨block, hno, hyes⟩
        · exact .inl hempty
        · exact .inr (.inl ((hlog _ hserved).mp rfl))
        · exact .inr (.inr fun hserved => by cases (hlog _ hrefused).mpr hserved)
        · exact (hlog.not_both hno hyes).elim
  · obtain ⟨hsound, hends⟩ := Exec.of_wp (S := scanning _ fromBlock toBlock)
      (fun _ _ hinv hrely => hrely ▸ hinv) hrun (.fresh hcursor hskips)
      (wp_scanRange hcursor hskips)
    refine ⟨hsound, fun hok hwindow hbusy => ?_⟩
    cases r with
    | error e => cases hok
    | ok summary =>
      rcases hends with hempty | hidle | hdone
      · omega
      · exact absurd hidle hbusy
      · refine ⟨fun block hlo hhi => hdone.before block hlo (by omega), fun hadvance => ?_⟩
        rcases hdone.cursor hadvance with h | h <;> omega

end Banking
