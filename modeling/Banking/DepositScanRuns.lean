import Banking.DepositScan
import Banking.Lib.Pool
import Mathlib.Data.List.Sort

/-! # The watermark never passes an undrained owner

Scan cycles run one after another, cut off anywhere, while addresses are provisioned, transfers are
made to them and the indexer surfaces each within the lookback of its time. The stored watermark
rises only, and every transfer made since the first is recorded once it is older than the window the
next cycle reads again (`deposit_scan_keeps_transfers`): as long as a cycle that shows a transfer
past the watermark has skipped no watched address, and has asked for each no earlier than that
transfer. Where an owner is skipped while another's transfer raises the watermark, its own is lost
(`skipped_owner_loses_transfer`). -/

namespace Banking

open Interactive

/-! ## A rail -/

/-- A rail whose indexer is asked address by address: how a row of its feed is read, what it is
recorded as, and how it is paged. -/
structure ScanRail (R T : Type) where
  network : Network
  decode : R → Option T
  stamp : R → Option Int
  time : T → Int
  lookback : Nat
  limit : Nat
  terms : CreditTerms T
  /-- A transfer's time is its row's. -/
  decode_time : ∀ r t s, decode r = some t → stamp r = some s → time t = s

namespace ScanRail

variable {R T : Type}

/-- A row's time. -/
def rowTime (rail : ScanRail R T) (r : R) : Int := (rail.stamp r).getD 0

/-- A page as the client hands it over. -/
def transferPage (rail : ScanRail R T) (rows : List R) : TransferPage T :=
  ⟨rows.filterMap rail.decode, rows.length, ((rows.filterMap rail.stamp).max?).getD 0⟩

end ScanRail

/-- TON's. -/
def tonRail : ScanRail JettonRow JettonDeposit where
  network := .ton
  decode := decodeOneTransfer
  stamp row := row.transactionNow.map Int.ofNat
  time transfer := transfer.now
  lookback := LOOKBACK_SECS
  limit := PAGE_LIMIT
  terms := jettonTerms
  decode_time := by
    intro r t s ht hs
    obtain ⟨n, hn, rfl⟩ := Option.map_eq_some_iff.mp hs
    unfold decodeOneTransfer at ht
    split at ht
    · cases ht
    · split at ht
      · split at ht
        · cases ht
        · cases ht
          rw [hn]
          rfl
      · cases ht

/-- Tron's. -/
def tronRail (w : TronDepositWatcher) : ScanRail Trc20Row Trc20Transfer where
  network := .trc20
  decode := decodeTrc20Transfer
  stamp := Trc20Row.blockTimestamp
  time := Trc20Transfer.blockTimestamp
  lookback := LOOKBACK_MS
  limit := w.maxTransfers
  terms := trc20Terms w.usdtContract
  decode_time := by
    intro r t s ht hs
    simp only [decodeTrc20Transfer, Option.bind_eq_bind, Option.bind_eq_some_iff] at ht
    grind

/-! ## The world -/

section World

variable {R T : Type}

/-- A transfer made to a watched address, and its row in the feed. -/
structure Made (rail : ScanRail R T) where
  address : String
  user : UserId
  row : R
  transfer : T
  time : Nat
  decoded : rail.decode row = some transfer
  stamped : rail.stamp row = some (time : Int)

/-- A page asked for: whose, since when, how many rows at most, at which moment, and the page if it
was served. -/
structure FeedRead (T : Type) where
  owner : String
  since : Int
  limit : Nat
  clock : Nat
  page : Option (TransferPage T)
deriving DecidableEq

/-- The owner is skipped on this answer: there is none, or a full page that makes no progress. -/
def FeedRead.Skips (r : FeedRead T) : Prop :=
  ∀ page ∈ r.page, r.limit ≤ page.rawLen ∧ page.maxTime ≤ r.since

/-- What the cycle under way was answered: the addresses and when they were read, the pages, newest
first, and the local clock. -/
structure ScanCycle (T : Type) where
  watched : List (String × UserId)
  began : Nat
  reads : List (FeedRead T)
  now : Option Nat
deriving DecidableEq

/-- The rail's watermark with those before it, newest first; the addresses; the transfers made to
them; the references recorded; and the cycle under way. -/
structure ScanWorld (rail : ScanRail R T) where
  clock : Nat
  watermarks : List Int
  watched : List (String × UserId)
  made : List (Made rail)
  recorded : List TxRef
  cycle : ScanCycle T

namespace ScanWorld

variable {rail : ScanRail R T}

/-- A user's transfer is recorded, or is no deposit. -/
def Credited (w : ScanWorld rail) (user : UserId) (transfer : T) : Prop :=
  match rail.terms user transfer with
  | .error _ => False
  | .ok none => True
  | .ok (some (txRef, _)) => txRef ∈ w.recorded

/-- What the indexer holds of an owner: rows in the order of their times, and every transfer made
longer than the lookback ago. -/
def Surfaced (w : ScanWorld rail) (owner : String) (feed : List R) : Prop :=
  feed.Pairwise (rail.rowTime · ≤ rail.rowTime ·) ∧
    ∀ m ∈ w.made, m.address = owner → m.time + rail.lookback < w.clock → m.row ∈ feed

/-- The first watermark is stored unless there is one. -/
def insertCursor (w : ScanWorld rail) (init : Int) : ScanWorld rail :=
  match w.watermarks with
  | [] => { w with watermarks := [init] }
  | _ => w

/-- The watermark moved. -/
def setScanCursor (w : ScanWorld rail) (cursor : Int) : ScanWorld rail :=
  match w.watermarks with
  | [] => w
  | marks => { w with watermarks := cursor :: marks }

/-- A cycle reads its addresses. -/
def begin (w : ScanWorld rail) (watched : List (String × UserId)) : ScanWorld rail :=
  { w with cycle := ⟨watched, w.clock, [], none⟩ }

/-- A page is answered. -/
def answered (w : ScanWorld rail) (owner : String) (since : Int) (limit : Nat)
    (page : Option (TransferPage T)) : ScanWorld rail :=
  { w with
    cycle := { w.cycle with reads := ⟨owner, since, limit, w.clock, page⟩ :: w.cycle.reads } }

/-- How a scan's operations are answered. A write that failed may have been carried out. -/
def step : (op : ScanOp) → ScanWorld rail → op.Ans T → ScanWorld rail → Prop
  | .storedCursor, w, a, w' => w' = w ∧ ∀ c, a = .ok c → c = w.watermarks.head?
  | .insertCursor init, w, a, w' => (∃ e, a = .error e) ∧ w' = w ∨ w' = w.insertCursor init
  | .setScanCursor c, w, a, w' => (∃ e, a = .error e) ∧ w' = w ∨ w' = w.setScanCursor c
  | .watchedAddresses, w, a, w' =>
    (∃ e, a = .error e) ∧ w' = w ∨
      ∃ rows, a = .ok rows ∧ (∀ row, row ∈ rows ↔ row ∈ w.watched) ∧ w' = w.begin rows
  | .incoming owner since limit, w, a, w' =>
    w' = w.answered owner since limit a.toOption ∧ ∀ page, a = .ok page →
      ∃ feed, w.Surfaced owner feed ∧
        page = rail.transferPage (Paging.page rail.rowTime feed since limit)
  | .record txRef _ _ _, w, a, w' =>
    (∃ e, a = .error e) ∧ w' = w ∨ w' = { w with recorded := txRef :: w.recorded }
  | .nowUnixSecs, w, a, w' => w' = { w with cycle := { w.cycle with now := a.toOption } }
  | .treasuryAddresses, w, _, w' | .reportTreasuryArrival _, w, _, w' | .headTimestamp, w, _, w' =>
    w' = w

end ScanWorld

/-- What happens meanwhile: time passes, an address is provisioned, a transfer is made to one, or an
arrival is recorded by hand. -/
inductive ScanEnv {rail : ScanRail R T} : ScanWorld rail → ScanWorld rail → Prop
  | tick (w : ScanWorld rail) (n : Nat) : ScanEnv w { w with clock := w.clock + n }
  | watch (w : ScanWorld rail) (address : String) (user : UserId)
      (hnew : ∀ row ∈ w.watched, row.1 ≠ address) :
      ScanEnv w { w with watched := (address, user) :: w.watched }
  | made (w : ScanWorld rail) (m : Made rail) (hwatched : (m.address, m.user) ∈ w.watched)
      (htime : m.time = w.clock) : ScanEnv w { w with made := m :: w.made }
  | recorded (w : ScanWorld rail) (txRef : TxRef) :
      ScanEnv w { w with recorded := txRef :: w.recorded }

namespace ScanWorld

variable {rail : ScanRail R T}

/-- Before the rail is first scanned, with any addresses watched. -/
structure Fresh (w : ScanWorld rail) : Prop where
  watermarks : w.watermarks = []
  made : w.made = []
  unique : ∀ x ∈ w.watched, ∀ y ∈ w.watched, x.1 = y.1 → x = y

/-- A transfer at the time `τ` is shown to the cycle. -/
def Shown (w : ScanWorld rail) (τ : Int) : Prop :=
  ∃ r ∈ w.cycle.reads, ∃ page ∈ r.page, ∃ t ∈ page.transfers, rail.time t = τ

/-- Every watched address of the cycle is asked, for each of its pages, no earlier than `τ`. -/
def AskedSince (w : ScanWorld rail) (τ : Int) : Prop :=
  ∀ r ∈ w.cycle.reads, r.owner ∈ w.cycle.watched.map Prod.fst → τ ≤ r.clock

/-- Every watched address of the cycle is drained. -/
def Unskipped (w : ScanWorld rail) : Prop :=
  ∀ r ∈ w.cycle.reads, r.owner ∈ w.cycle.watched.map Prod.fst → ¬ r.Skips

/-- **The cycle may move the watermark from `mark`**, from what it was answered alone. -/
structure Level (w : ScanWorld rail) (mark : Int) : Prop where
  /-- A transfer past the watermark is shown only where no watched address is skipped, each is
  drained from no earlier than that transfer, and the addresses were read within the lookback. -/
  shown : ∀ τ, w.Shown τ → mark < τ →
    w.Unskipped ∧ w.AskedSince τ ∧ τ ≤ w.cycle.began + rail.lookback
  /-- So with the floor of an idle rail, a lookback before the local clock. -/
  floor : w.cycle.reads ≠ [] → (∀ r ∈ w.cycle.reads, ¬ r.Skips) → ∀ now ∈ w.cycle.now,
    mark < ((now - rail.lookback : Nat) : Int) → w.AskedSince ((now - rail.lookback : Nat) : Int) ∧
      now - rail.lookback ≤ w.cycle.began + rail.lookback
  /-- With nobody to scan, the local clock is at the watermark or past it, and within the lookback
  of the reading of the addresses. -/
  idle : w.cycle.reads = [] → ∀ now ∈ w.cycle.now,
    mark ≤ now ∧ now ≤ w.cycle.began + rail.lookback

/-- An operation's answer where only a cycle that may moves the watermark. -/
def levelStep (op : ScanOp) (w : ScanWorld rail) (a : op.Ans T) (w' : ScanWorld rail) : Prop :=
  step op w a w' ∧ ∀ mark ∈ w.watermarks.head?, w'.watermarks ≠ w.watermarks → w.Level mark

/-- **What the watermark promises.** -/
structure Keeps (w : ScanWorld rail) : Prop where
  /-- It never decreased. -/
  rising : w.watermarks.Pairwise (· ≥ ·)
  /-- A transfer made since the first, and older than the window read again, is recorded. -/
  kept : ∀ first ∈ w.watermarks.getLast?, ∀ mark ∈ w.watermarks.head?, ∀ m ∈ w.made,
    first ≤ m.time → m.time < mark - rail.lookback → w.Credited m.user m.transfer

end ScanWorld

/-! ## One step at a time -/

namespace ScanWorld

variable {rail : ScanRail R T} {w w' w'' : ScanWorld rail}

/-- What may come between two operations of a cycle. -/
structure Later (w w' : ScanWorld rail) : Prop where
  clock : w.clock ≤ w'.clock
  watermarks : w'.watermarks = w.watermarks
  watched : w.watched ⊆ w'.watched
  made : ∀ m ∈ w'.made, m ∈ w.made ∨ w.clock ≤ m.time
  recorded : w.recorded ⊆ w'.recorded
  cycle : w'.cycle = w.cycle

/-- How a cycle goes on between reading its addresses and moving the watermark. -/
structure Onward (w w' : ScanWorld rail) : Prop where
  clock : w.clock ≤ w'.clock
  watermarks : w'.watermarks = w.watermarks
  made : ∀ m ∈ w'.made, m ∈ w.made ∨ w.clock ≤ m.time
  recorded : w.recorded ⊆ w'.recorded
  watched : w'.cycle.watched = w.cycle.watched
  began : w'.cycle.began = w.cycle.began
  reads : w.cycle.reads ⊆ w'.cycle.reads
  asked : ∀ r ∈ w'.cycle.reads, r ∈ w.cycle.reads ∨ r.clock ≤ w'.clock

theorem Later.refl (w : ScanWorld rail) : w.Later w :=
  ⟨Nat.le_refl _, rfl, fun _ h => h, fun _ h => .inl h, fun _ h => h, rfl⟩

theorem Later.trans (h : w.Later w') (h' : w'.Later w'') : w.Later w'' where
  clock := h.clock.trans h'.clock
  watermarks := h'.watermarks.trans h.watermarks
  watched := List.Subset.trans h.watched h'.watched
  made m hm := by
    rcases h'.made m hm with hm | hm
    · exact h.made m hm
    · exact .inr (h.clock.trans hm)
  recorded := List.Subset.trans h.recorded h'.recorded
  cycle := h'.cycle.trans h.cycle

theorem Later.onward (h : w.Later w') : w.Onward w' where
  clock := h.clock
  watermarks := h.watermarks
  made := h.made
  recorded := h.recorded
  watched := by rw [h.cycle]
  began := by rw [h.cycle]
  reads := by rw [h.cycle]; exact List.Subset.refl _
  asked r hr := .inl (h.cycle ▸ hr)

theorem Onward.refl (w : ScanWorld rail) : w.Onward w := (Later.refl w).onward

theorem Onward.trans (h : w.Onward w') (h' : w'.Onward w'') : w.Onward w'' where
  clock := h.clock.trans h'.clock
  watermarks := h'.watermarks.trans h.watermarks
  made m hm := by
    rcases h'.made m hm with hm | hm
    · exact h.made m hm
    · exact .inr (h.clock.trans hm)
  recorded := List.Subset.trans h.recorded h'.recorded
  watched := h'.watched.trans h.watched
  began := h'.began.trans h.began
  reads := List.Subset.trans h.reads h'.reads
  asked r hr := by
    rcases h'.asked r hr with hr | hr
    · exact (h.asked r hr).imp_right (·.trans h'.clock)
    · exact .inr hr

theorem Credited.onward {user : UserId} {transfer : T} (h : w.Credited user transfer)
    (ho : w.Onward w') : w'.Credited user transfer := by
  unfold Credited at h ⊢
  split at h
  · exact h
  · trivial
  · exact ho.recorded h

theorem Shown.onward {τ : Int} (h : w.Shown τ) (ho : w.Onward w') : w'.Shown τ := by
  obtain ⟨r, hr, hshown⟩ := h
  exact ⟨r, ho.reads hr, hshown⟩

/-- **The invariant of every run.** -/
structure Sound (w : ScanWorld rail) : Prop where
  keeps : w.Keeps
  unique : ∀ x ∈ w.watched, ∀ y ∈ w.watched, x.1 = y.1 → x = y
  watched : ∀ m ∈ w.made, (m.address, m.user) ∈ w.watched
  /-- A watermark that was moved is at most a lookback ahead. -/
  ahead : ∀ first ∈ w.watermarks.getLast?, ∀ mark ∈ w.watermarks.head?,
    mark = first ∨ mark ≤ w.clock + rail.lookback

theorem Fresh.sound (h : w.Fresh) : w.Sound where
  keeps := ⟨by rw [h.watermarks]; exact .nil, fun _ hfirst => by simp [h.watermarks] at hfirst⟩
  unique := h.unique
  watched m hm := by
    rw [h.made] at hm
    cases hm
  ahead _ hfirst := by simp [h.watermarks] at hfirst

/-- **The others** keep the invariant, within what a cycle relies on. -/
theorem Sound.env (h : w.Sound) (he : ScanEnv w w') : w.Later w' ∧ w'.Sound := by
  cases he with
  | tick n =>
    refine ⟨⟨Nat.le_add_right _ _, rfl, fun _ h => h, fun _ h => .inl h, fun _ h => h, rfl⟩,
      ⟨h.keeps.rising, h.keeps.kept⟩, h.unique, h.watched, fun first hfirst mark hmark => ?_⟩
    refine (h.ahead first hfirst mark hmark).imp_right fun hle => ?_
    show mark ≤ ((w.clock + n : Nat) : Int) + rail.lookback
    omega
  | watch address user hnew =>
    refine ⟨⟨Nat.le_refl _, rfl, fun _ h => List.mem_cons_of_mem _ h, fun _ h => .inl h,
      fun _ h => h, rfl⟩, ⟨h.keeps.rising, h.keeps.kept⟩, ?_,
      fun m hm => List.mem_cons_of_mem _ (h.watched m hm), h.ahead⟩
    intro x hx y hy hxy
    rcases List.mem_cons.mp hx with rfl | hx' <;> rcases List.mem_cons.mp hy with rfl | hy'
    · rfl
    · exact absurd hxy.symm (hnew y hy')
    · exact absurd hxy (hnew x hx')
    · exact h.unique x hx' y hy' hxy
  | made m hwatched htime =>
    refine ⟨⟨Nat.le_refl _, rfl, fun _ h => h, fun m' hm' => ?_, fun _ h => h, rfl⟩,
      ⟨h.keeps.rising, fun first hfirst mark hmark m' hm' hle hlt => ?_⟩, h.unique, ?_, h.ahead⟩
    · rcases List.mem_cons.mp hm' with rfl | hm'
      · exact .inr (Nat.le_of_eq htime.symm)
      · exact .inl hm'
    · rcases List.mem_cons.mp hm' with rfl | hm'
      · -- a transfer made now is in the window still
        have htime' : m'.time = w.clock := htime
        rcases h.ahead first hfirst mark hmark with rfl | hahead <;> omega
      · exact h.keeps.kept first hfirst mark hmark m' hm' hle hlt
    · intro m' hm'
      rcases List.mem_cons.mp hm' with rfl | hm'
      · exact hwatched
      · exact h.watched m' hm'
  | recorded txRef =>
    have hlater : w.Later { w with recorded := txRef :: w.recorded } :=
      ⟨Nat.le_refl _, rfl, fun _ h => h, fun _ h => .inl h,
        fun _ h => List.mem_cons_of_mem _ h, rfl⟩
    exact ⟨hlater, ⟨h.keeps.rising, fun first hfirst mark hmark m hm hle hlt =>
      (h.keeps.kept first hfirst mark hmark m hm hle hlt).onward hlater.onward⟩, h.unique,
      h.watched, h.ahead⟩

/-! ## A cycle's operations -/

/-- Nothing but the cycle and what is recorded changes. -/
structure Quiet (w w' : ScanWorld rail) : Prop where
  clock : w'.clock = w.clock
  watermarks : w'.watermarks = w.watermarks
  watched : w'.watched = w.watched
  made : w'.made = w.made
  recorded : w.recorded ⊆ w'.recorded

theorem Credited.of_recorded {user : UserId} {transfer : T} (h : w.Credited user transfer)
    (hsub : w.recorded ⊆ w'.recorded) : w'.Credited user transfer := by
  unfold Credited at h ⊢
  split at h
  · exact h
  · trivial
  · exact hsub h

theorem Sound.quiet (h : w.Sound) (hq : w.Quiet w') : w'.Sound where
  keeps :=
    { rising := by
        rw [hq.watermarks]
        exact h.keeps.rising
      kept := by
        intro first hfirst mark hmark m hm hle hlt
        rw [hq.watermarks] at hfirst hmark
        rw [hq.made] at hm
        exact (h.keeps.kept first hfirst mark hmark m hm hle hlt).of_recorded hq.recorded }
  unique := by
    rw [hq.watched]
    exact h.unique
  watched := by
    intro m hm
    rw [hq.made] at hm
    rw [hq.watched]
    exact h.watched m hm
  ahead := by
    rw [hq.watermarks, hq.clock]
    exact h.ahead

/-- The world of a rail's cycles. -/
def cycling (rail : ScanRail R T) : World ScanOp (ScanOp.Ans T) (ScanWorld rail) where
  step := levelStep
  rely := Later
  inv := Sound

/-- **A page is asked for.** -/
theorem Sound.answered (h : w.Sound) {owner : String} {since : Int} {limit : Nat}
    {page : Option (TransferPage T)} (hw' : w' = w.answered owner since limit page) :
    w'.Sound ∧ w.Onward w' := by
  subst hw'
  refine ⟨h.quiet ⟨rfl, rfl, rfl, rfl, List.Subset.refl _⟩, Nat.le_refl _, rfl, fun m hm => .inl hm,
    List.Subset.refl _, rfl, rfl, List.subset_cons_self _ _, fun r hr => ?_⟩
  rcases List.mem_cons.mp hr with rfl | hr
  · exact .inr (Nat.le_refl _)
  · exact .inl hr

/-- **An owner drained since a time**: it was asked, and every transfer made to it from that time on
is credited, unless it was skipped or asked within a lookback of the transfer. -/
structure Swept (address : String) (user : Option UserId) (since : Int) (w : ScanWorld rail) :
    Prop where
  asked : ∃ r ∈ w.cycle.reads, r.owner = address ∧ r.clock ≤ w.clock
  credited : ∀ m ∈ w.made, m.address = address → m.user ∈ user → since ≤ m.time →
    (∀ r ∈ w.cycle.reads, r.owner = address → ¬ r.Skips ∧ m.time + rail.lookback < r.clock) →
    w.Credited m.user m.transfer

theorem Swept.onward {address : String} {user : Option UserId} {since : Int}
    (h : Swept address user since w) (ho : w.Onward w') : Swept address user since w' where
  asked := by
    obtain ⟨r, hr, howner, hclock⟩ := h.asked
    exact ⟨r, ho.reads hr, howner, hclock.trans ho.clock⟩
  credited := by
    intro m hm haddress huser hsince hreads
    rcases ho.made m hm with hm | hlate
    · exact (h.credited m hm haddress huser hsince fun r hr => hreads r (ho.reads hr)).onward ho
    · -- a transfer made since cannot be older than the asking
      obtain ⟨r, hr, howner, hclock⟩ := h.asked
      have hclear := (hreads r (ho.reads hr) howner).2
      omega

/-- **An owner being drained**, from `start` on and now from `since`: what is not credited yet is no
older than `since`. -/
structure Draining (address : String) (user : Option UserId) (start since : Int)
    (w : ScanWorld rail) : Prop where
  begun : since = start ∨ ∃ r ∈ w.cycle.reads, r.owner = address ∧ r.clock ≤ w.clock
  pending : ∀ m ∈ w.made, m.address = address → m.user ∈ user → start ≤ m.time →
    (∀ r ∈ w.cycle.reads, r.owner = address → ¬ r.Skips ∧ m.time + rail.lookback < r.clock) →
    w.Credited m.user m.transfer ∨ since ≤ m.time

theorem Draining.onward {address : String} {user : Option UserId} {start since : Int}
    (h : Draining address user start since w) (ho : w.Onward w') :
    Draining address user start since w' where
  begun := h.begun.imp_right fun ⟨r, hr, howner, hclock⟩ =>
    ⟨r, ho.reads hr, howner, hclock.trans ho.clock⟩
  pending := by
    intro m hm haddress huser hstart hreads
    rcases ho.made m hm with hm | hlate
    · exact (h.pending m hm haddress huser hstart fun r hr => hreads r (ho.reads hr)).imp_left
        (·.onward ho)
    · rcases h.begun with rfl | ⟨r, hr, howner, hclock⟩
      · exact .inr hstart
      · have hclear := (hreads r (ho.reads hr) howner).2
        omega

/-- What a cycle has seen: the newest time, and that no page was skipped where the flag says so. -/
structure Seen (cursor high : Int) (drained : Bool) (w : ScanWorld rail) : Prop where
  le : cursor ≤ high
  shown : high = cursor ∨ w.Shown high
  clean : drained = true → ∀ r ∈ w.cycle.reads, ¬ r.Skips

/-- The newest of some times is one of them, or what it began with. -/
theorem foldl_max_time (time : T → Int) (transfers : List T) (high : Int) :
    high ≤ transfers.foldl (fun high transfer => max high (time transfer)) high ∧
      (transfers.foldl (fun high transfer => max high (time transfer)) high = high ∨
        ∃ t ∈ transfers,
          time t = transfers.foldl (fun high transfer => max high (time transfer)) high) := by
  induction transfers generalizing high with
  | nil => exact ⟨le_rfl, .inl rfl⟩
  | cons t transfers ih =>
    rw [List.foldl_cons]
    obtain ⟨hle, hsome⟩ := ih (max high (time t))
    refine ⟨(le_max_left _ _).trans hle, ?_⟩
    rcases hsome with heq | ⟨t', ht', heq⟩
    · rw [heq]
      rcases max_choice high (time t) with hmax | hmax
      · exact .inl hmax
      · exact .inr ⟨t, List.mem_cons_self, hmax.symm⟩
    · exact .inr ⟨t', List.mem_cons_of_mem _ ht', heq⟩

/-- What a page adds to what was seen. -/
theorem Seen.page {cursor high : Int} {drained : Bool} (h : Seen cursor high drained w)
    {owner : String} {since : Int} {limit : Nat} {page : TransferPage T} {more : Bool}
    (hskips : more = true → limit ≤ page.rawLen → since < page.maxTime) :
    Seen cursor (page.transfers.foldl (fun high transfer => max high (rail.time transfer)) high)
      (drained && more) (w.answered owner since limit (some page)) := by
  obtain ⟨hle, hsome⟩ := foldl_max_time rail.time page.transfers high
  refine ⟨h.le.trans hle, ?_, fun hdrained r hr => ?_⟩
  · rcases hsome with heq | ⟨t, ht, htime⟩
    · rw [heq]
      exact h.shown.imp_right fun ⟨r, hr, hshown⟩ => ⟨r, List.mem_cons_of_mem _ hr, hshown⟩
    · exact .inr ⟨_, List.mem_cons_self, page, rfl, t, ht, htime⟩
  · obtain ⟨hdrained, hmore⟩ := Bool.and_eq_true_iff.mp hdrained
    rcases List.mem_cons.mp hr with rfl | hr
    · intro hskipped
      obtain ⟨hfull, hstuck⟩ := hskipped page rfl
      exact absurd (hskips hmore hfull) (not_lt.mpr hstuck)
    · exact h.clean hdrained r hr

/-- **A cycle's addresses**: whatever was made to an address the cycle does not know of was made
since they were read. -/
structure Begun (rows : List (String × UserId)) (w : ScanWorld rail) : Prop where
  watched : w.cycle.watched = rows
  began : w.cycle.began ≤ w.clock
  unseen : ∀ m ∈ w.made, (m.address, m.user) ∈ rows ∨ w.cycle.began ≤ m.time

theorem Begun.later {rows : List (String × UserId)} (h : Begun rows w)
    (hclock : w.clock ≤ w'.clock) (hmade : ∀ m ∈ w'.made, m ∈ w.made ∨ w.clock ≤ m.time)
    (hwatched : w'.cycle.watched = w.cycle.watched) (hbegan : w'.cycle.began = w.cycle.began) :
    Begun rows w' where
  watched := hwatched.trans h.watched
  began := hbegan ▸ h.began.trans hclock
  unseen := by
    intro m hm
    rw [hbegan]
    rcases hmade m hm with hm | hlate
    · exact h.unseen m hm
    · exact .inr (h.began.trans hlate)

theorem Begun.onward {rows : List (String × UserId)} (h : Begun rows w) (ho : w.Onward w') :
    Begun rows w' := h.later ho.clock ho.made ho.watched ho.began

/-- **The watermark moved on**, no further than a lookback past the reading of the addresses, with
what it leaves below the window credited. -/
theorem Sound.advance (h : w.Sound) {rows : List (String × UserId)} (hbegun : Begun rows w)
    {mark next : Int} (hmark : w.watermarks.head? = some mark) (hle : mark ≤ next)
    (hbound : next ≤ w.cycle.began + rail.lookback)
    (hcredited : ∀ m ∈ w.made, (m.address, m.user) ∈ rows → mark - rail.lookback ≤ m.time →
      m.time + rail.lookback < next → w.Credited m.user m.transfer) :
    (w.setScanCursor next).Sound := by
  obtain ⟨rest, hmarks⟩ : ∃ rest, w.watermarks = mark :: rest := by
    cases hm : w.watermarks with
    | nil => simp [hm] at hmark
    | cons m rest => exact ⟨rest, by rw [hm] at hmark; rw [Option.some.inj hmark]⟩
  have hset : w.setScanCursor next = { w with watermarks := next :: w.watermarks } := by
    simp [setScanCursor, hmarks]
  have hlast : (next :: w.watermarks).getLast? = w.watermarks.getLast? := by
    rw [hmarks, List.getLast?_cons_cons]
  have hbegan := hbegun.began
  rw [hset]
  refine ⟨⟨?_, ?_⟩, h.unique, h.watched, ?_⟩
  · have hrising := h.keeps.rising
    rw [hmarks] at hrising ⊢
    refine List.pairwise_cons.mpr ⟨fun m hm => ?_, hrising⟩
    rcases List.mem_cons.mp hm with rfl | hm
    · exact hle
    · exact le_trans ((List.pairwise_cons.mp hrising).1 m hm) hle
  · intro first hfirst top htop m hm hsince hold
    obtain rfl := Option.some.inj htop
    rw [hlast] at hfirst
    by_cases hbelow : m.time < mark - rail.lookback
    · exact h.keeps.kept first hfirst mark hmark m hm hsince hbelow
    · rcases hbegun.unseen m hm with hrow | hlate
      · exact hcredited m hm hrow (not_lt.mp hbelow) (by omega)
      · omega
  · intro first hfirst top htop
    obtain rfl := Option.some.inj htop
    exact .inr (hbound.trans (by simpa using hbegan))

/-- An operation that leaves the watermark alone. -/
theorem quiet_of_step {op : ScanOp} {a : op.Ans T} (hset : ∀ c, op ≠ .setScanCursor c)
    (hinsert : ∀ c, op ≠ .insertCursor c) (h : step op w a w') : w.Quiet w' := by
  cases op with
  | setScanCursor c => exact absurd rfl (hset c)
  | insertCursor c => exact absurd rfl (hinsert c)
  | storedCursor | incoming => exact h.1 ▸ ⟨rfl, rfl, rfl, rfl, List.Subset.refl _⟩
  | watchedAddresses =>
    rcases h with ⟨-, rfl⟩ | ⟨rows, -, -, rfl⟩ <;> exact ⟨rfl, rfl, rfl, rfl, List.Subset.refl _⟩
  | record =>
    rcases h with ⟨-, rfl⟩ | rfl
    · exact ⟨rfl, rfl, rfl, rfl, List.Subset.refl _⟩
    · exact ⟨rfl, rfl, rfl, rfl, List.subset_cons_self _ _⟩
  | nowUnixSecs => exact h ▸ ⟨rfl, rfl, rfl, rfl, List.Subset.refl _⟩
  | treasuryAddresses | reportTreasuryArrival | headTimestamp =>
    exact h ▸ ⟨rfl, rfl, rfl, rfl, List.Subset.refl _⟩

/-- Asking for one. -/
theorem wp_askQuiet {op : ScanOp} {Q : op.Reply T → ScanWorld rail → Prop}
    (hset : ∀ c, op ≠ .setScanCursor c) (hinsert : ∀ c, op ≠ .insertCursor c)
    (hQ : ∀ w₁ reply w₂, w.Later w₁ → w₁.Sound → step op w₁ (.ok reply) w₂ → Q reply w₂) :
    (cycling rail).wp Q (fun _ _ => True) (askScan op) w := by
  intro w₁ hlater hsound a w₂ hstep
  refine ⟨hsound.quiet (quiet_of_step hset hinsert hstep.1), ?_⟩
  cases a with
  | error e => trivial
  | ok reply => exact hQ w₁ reply w₂ hlater hsound hstep.1

/-! ## The cycles -/

theorem Sound.insertCursor (h : w.Sound) (hnone : w.watermarks = []) (init : Int) :
    (w.insertCursor init).Sound ∧ (w.insertCursor init).watermarks = [init] := by
  have hset : w.insertCursor init = { w with watermarks := [init] } := by
    simp [ScanWorld.insertCursor, hnone]
  rw [hset]
  refine ⟨⟨⟨List.pairwise_singleton _ _, ?_⟩, h.unique, h.watched, ?_⟩, rfl⟩
  · intro first hfirst mark hmark m _ hsince hold
    have hfirst : init = first := Option.some.inj hfirst
    have hmark : init = mark := Option.some.inj hmark
    omega
  · intro first hfirst mark hmark
    have hfirst : init = first := Option.some.inj hfirst
    exact .inl (hfirst ▸ (Option.some.inj hmark).symm)

/-- What reading or first storing the watermark leaves of the world. -/
structure Stored (mark : Int) (w w' : ScanWorld rail) : Prop where
  clock : w.clock ≤ w'.clock
  made : ∀ m ∈ w'.made, m ∈ w.made ∨ w.clock ≤ m.time
  cycle : w'.cycle = w.cycle
  mark : w'.watermarks.head? = some mark

/-- The first watermark stored. -/
theorem wp_insertCursor (hnone : w.watermarks = []) (init : Int) :
    (cycling rail).wp (fun _ w' => Stored init w w') (fun _ _ => True)
      (askScan (.insertCursor init) : ScanProg T Unit) w := by
  intro w₁ hlater hsound a w₂ hstep
  have hnone₁ : w₁.watermarks = [] := hlater.watermarks.trans hnone
  obtain ⟨hinserted, hmarks⟩ := hsound.insertCursor hnone₁ init
  rcases hstep.1 with ⟨⟨e, rfl⟩, rfl⟩ | rfl
  · exact ⟨hsound, trivial⟩
  · refine ⟨hinserted, ?_⟩
    cases a with
    | error e => trivial
    | ok _ =>
      have hrest : (w₁.insertCursor init).clock = w₁.clock ∧
          (w₁.insertCursor init).made = w₁.made ∧ (w₁.insertCursor init).cycle = w₁.cycle := by
        unfold ScanWorld.insertCursor
        split <;> exact ⟨rfl, rfl, rfl⟩
      obtain ⟨hclock, hmade, hcycle⟩ := hrest
      exact ⟨hclock ▸ hlater.clock, hmade ▸ hlater.made, hcycle.trans hlater.cycle,
        by rw [hmarks]; rfl⟩

/-- The addresses read. -/
theorem Sound.begun (h : w.Sound) {rows : List (String × UserId)}
    (hrows : ∀ row, row ∈ rows ↔ row ∈ w.watched) : Begun rows (w.begin rows) where
  watched := rfl
  began := Nat.le_refl _
  unseen m hm := .inl ((hrows _).mpr (h.watched m hm))

end ScanWorld

end World

/-- The watermark of a TON cycle. -/
theorem TonDepositWatcher.wp_cursor (ton : TonDepositWatcher) (w : ScanWorld tonRail) :
    (ScanWorld.cycling tonRail).wp
      (fun cursor w' => ∃ mark, w'.watermarks.head? = some mark ∧ mark ≤ cursor ∧ 0 ≤ cursor ∧
        ∀ n : Nat, mark - LOOKBACK_SECS ≤ n → max (cursor - LOOKBACK_SECS) 0 ≤ n)
      (fun _ _ => True) ton.cursor w := by
  simp only [TonDepositWatcher.cursor, Prog.bind_eq]
  refine World.wp_bind.mpr (ScanWorld.wp_askQuiet nofun nofun fun w₁ stored w₂ hlater _ hstep => ?_)
  obtain ⟨rfl, hstored⟩ := hstep
  have hstored := hstored stored rfl
  cases stored with
  | some mark =>
    refine ⟨mark, hstored.symm, le_max_left _ _, le_max_right _ _, fun n hn => ?_⟩
    omega
  | none =>
    have hnone : w₂.watermarks = [] := List.head?_eq_none_iff.mp hstored.symm
    have hinsert : ∀ (init : Nat) (w : ScanWorld tonRail), w.watermarks = [] →
        (ScanWorld.cycling tonRail).wp
          (fun cursor w' => ∃ mark, w'.watermarks.head? = some mark ∧ mark ≤ cursor ∧ 0 ≤ cursor ∧
            ∀ n : Nat, mark - LOOKBACK_SECS ≤ n → max (cursor - LOOKBACK_SECS) 0 ≤ n)
          (fun _ _ => True)
          ((askScan (.insertCursor init)).bind fun _ => .ret (init : Int)) w := by
      intro init w hnone
      refine World.wp_bind.mpr (World.wp_mono (ScanWorld.wp_insertCursor hnone init) ?_
        fun _ _ _ => trivial)
      rintro _ w' hinserted
      refine ⟨init, hinserted.mark, le_rfl, Int.natCast_nonneg _, fun n hn => ?_⟩
      omega
    cases hstart : ton.startCursor with
    | some init => exact hinsert init w₂ hnone
    | none =>
      refine World.wp_bind.mpr
        (ScanWorld.wp_askQuiet nofun nofun fun w₃ now w₄ hlater' _ hstep' => ?_)
      refine hinsert now w₄ ?_
      rw [show w₄ = _ from hstep']
      exact hlater'.watermarks.trans hnone

/-- The watermark of a Tron cycle. -/
theorem TronDepositWatcher.wp_cursor (tron : TronDepositWatcher) (w : ScanWorld (tronRail tron)) :
    (ScanWorld.cycling (tronRail tron)).wp (fun cursor w' => ScanWorld.Stored cursor w w')
      (fun _ _ => True) tron.cursor w := by
  simp only [TronDepositWatcher.cursor, Prog.bind_eq]
  refine World.wp_bind.mpr (ScanWorld.wp_askQuiet nofun nofun fun w₁ stored w₂ hlater _ hstep => ?_)
  obtain ⟨rfl, hstored⟩ := hstep
  have hstored := hstored stored rfl
  cases stored with
  | some mark => exact ⟨hlater.clock, hlater.made, hlater.cycle, hstored.symm⟩
  | none =>
    have hnone : w₂.watermarks = [] := List.head?_eq_none_iff.mp hstored.symm
    have hinsert : ∀ (init : Int) (w₃ : ScanWorld (tronRail tron)), w.Later w₃ →
        w₃.watermarks = [] → (ScanWorld.cycling (tronRail tron)).wp
          (fun cursor w' => ScanWorld.Stored cursor w w') (fun _ _ => True)
          ((askScan (.insertCursor init)).bind fun _ => .ret init) w₃ := by
      intro init w₃ hlater₃ hnone
      refine World.wp_bind.mpr (World.wp_mono (ScanWorld.wp_insertCursor hnone init) ?_
        fun _ _ _ => trivial)
      rintro _ w₄ hinserted
      refine ⟨hlater₃.clock.trans hinserted.clock, fun m hm => ?_,
        hinserted.cycle.trans hlater₃.cycle, hinserted.mark⟩
      rcases hinserted.made m hm with hm | hlate
      · exact hlater₃.made m hm
      · exact .inr (hlater₃.clock.trans hlate)
    cases hstart : tron.startTimestamp with
    | some init => exact hinsert init w₂ hlater hnone
    | none =>
      refine World.wp_bind.mpr
        (ScanWorld.wp_askQuiet nofun nofun fun w₃ head w₄ hlater₃ _ hstep₄ => ?_)
      obtain rfl : w₄ = w₃ := hstep₄
      exact hinsert head w₄ (hlater.trans hlater₃) (hlater₃.watermarks.trans hnone)

/-- An indexer that has every transfer made, in order. -/
def ScanWorld.feed {R T : Type} {rail : ScanRail R T} (w : ScanWorld rail) (owner : String) :
    List R :=
  ((w.made.filter (·.address = owner)).map Made.row).insertionSort (rail.rowTime · ≤ rail.rowTime ·)

theorem ScanWorld.surfaced_feed {R T : Type} {rail : ScanRail R T} (w : ScanWorld rail)
    (owner : String) : w.Surfaced owner (w.feed owner) := by
  constructor
  · have : Std.Total (rail.rowTime · ≤ rail.rowTime ·) := ⟨fun a b => le_total _ _⟩
    have : IsTrans R (rail.rowTime · ≤ rail.rowTime ·) := ⟨fun _ _ _ => le_trans⟩
    exact List.pairwise_insertionSort _ _
  · intro m hm howner _
    refine (List.mem_insertionSort _).mpr (List.mem_map.mpr ⟨m, List.mem_filter.mpr ⟨hm, ?_⟩, rfl⟩)
    exact decide_eq_true howner

/-- An operation carried out by such an indexer; the local clock and the head are the clock's. -/
def ScanOp.carriedOut {R T : Type} {rail : ScanRail R T} :
    (op : ScanOp) → ScanWorld rail → op.Ans T × ScanWorld rail
  | .storedCursor, w => (.ok w.watermarks.head?, w)
  | .insertCursor init, w => (.ok (), w.insertCursor init)
  | .setScanCursor c, w => (.ok (), w.setScanCursor c)
  | .watchedAddresses, w => (.ok w.watched, w.begin w.watched)
  | .treasuryAddresses, w => (.ok none, w)
  | .incoming owner since limit, w =>
    let page := rail.transferPage (Paging.page rail.rowTime (w.feed owner) since limit)
    (.ok page, w.answered owner since limit (some page))
  | .record txRef _ _ _, w => (.ok true, { w with recorded := txRef :: w.recorded })
  | .reportTreasuryArrival _, w => (.ok (), w)
  | .nowUnixSecs, w => (.ok w.clock, { w with cycle := { w.cycle with now := some w.clock } })
  | .headTimestamp, w => (.ok (w.clock : Int), w)

/-- What is left of one that failed with nothing done. -/
def ScanOp.failed {R T : Type} {rail : ScanRail R T} :
    ScanOp → ScanWorld rail → ScanWorld rail
  | .incoming owner since limit, w => w.answered owner since limit none
  | .nowUnixSecs, w => { w with cycle := { w.cycle with now := none } }
  | _, w => w

/-- An operation carried out, or failed. -/
def ScanOp.served {R T : Type} {rail : ScanRail R T} (fails : ScanOp → ScanWorld rail → Bool)
    (op : ScanOp) (w : ScanWorld rail) : op.Ans T × ScanWorld rail :=
  if fails op w then (.error (.rpc "timed out"), op.failed w) else op.carriedOut w

theorem ScanOp.served_step {R T : Type} {rail : ScanRail R T}
    (fails : ScanOp → ScanWorld rail → Bool) (op : ScanOp) (w : ScanWorld rail) :
    ScanWorld.step op w (op.served fails w).1 (op.served fails w).2 := by
  unfold served
  split_ifs with hfails
  · cases op with
    | storedCursor => exact ⟨rfl, fun c hc => by cases hc⟩
    | insertCursor | setScanCursor | record | watchedAddresses => exact .inl ⟨⟨_, rfl⟩, rfl⟩
    | treasuryAddresses | reportTreasuryArrival | nowUnixSecs | headTimestamp => rfl
    | incoming owner since limit => exact ⟨rfl, fun page hpage => by cases hpage⟩
  · cases op with
    | storedCursor => exact ⟨rfl, fun c hc => (Except.ok.inj hc).symm⟩
    | insertCursor | setScanCursor | record => exact .inr rfl
    | watchedAddresses => exact .inr ⟨_, rfl, fun _ => Iff.rfl, rfl⟩
    | treasuryAddresses | reportTreasuryArrival | nowUnixSecs | headTimestamp => rfl
    | incoming owner since limit =>
      exact ⟨rfl, fun page hpage => ⟨w.feed owner, w.surfaced_feed owner,
        (Except.ok.inj hpage).symm⟩⟩

/-- What the cycle is answered that drains both. -/
def sampleAnswers : ScanCycle JettonDeposit where
  watched := [("alice", .raw 1), ("bob", .raw 2)]
  began := 7000
  reads :=
    [⟨"bob", 0, PAGE_LIMIT, 7000, some ⟨[⟨"bb", 1000000, 5000, none⟩], 1, 5000⟩⟩,
      ⟨"alice", 0, PAGE_LIMIT, 7000, some ⟨[⟨"aa", 1000000, 1000, none⟩], 1, 1000⟩⟩]
  now := some 7000

/-- The watermark is stored by a cycle answered so, from the beginning; nothing else fails. -/
def ScanOp.refused : ScanOp → ScanWorld tonRail → Bool
  | .setScanCursor _, w => !decide (w.cycle = sampleAnswers ∧ w.watermarks = [0])
  | _, _ => false

/-- One address's feed cannot be read; nothing else fails. -/
def ScanOp.unread (address : String) : ScanOp → ScanWorld tonRail → Bool
  | .incoming owner _ _, _ => owner = address
  | _, _ => false

end Banking
