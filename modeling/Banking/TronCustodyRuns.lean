import Banking.TronCustody
import Banking.Lib.Expiring

/-! # Tron never pays twice on a re-sign

The drivers of one withdrawal, any number of relays and watchers that may stop anywhere, over its
row, the signer and the chain. As long as every first send finds no row when it stores its own, the
row's transaction is the only one that may still land (`TronWorld.Sound`): whatever was stored
before is dead, and nothing else was ever submitted. A first send that stores second submits all the
same, and then both may land. -/

namespace Banking

open Interactive
open Expiring (Chain Block)

/-! ## The world -/

/-- A transaction replaced by another, and the chain then. -/
structure TronReplacement where
  old : TronTx
  new : TronTx
  chain : Chain TronTx

/-- One withdrawal's row, the chain, what was submitted to it, and what was signed; with what was
ever stored, each replacement, and how many first sends found a row when they stored. -/
structure TronWorld where
  row : Option BroadcastRow
  chain : Chain TronTx
  pool : List TronTx
  signed : List TronTx
  stored : List TronTx
  replacements : List TronReplacement
  clashes : Nat

/-- Insert the row, unless there is one. -/
def TronWorld.storeTx (w : TronWorld) (t : TronTx) : TronWorld :=
  match w.row with
  | none => { w with row := some t.row, stored := t :: w.stored }
  | some _ => { w with clashes := w.clashes + 1 }

/-- Replace the row, while it still holds the old transaction; whether it did. -/
def TronWorld.replaceTx (w : TronWorld) (oldTxid : String) (t : TronTx) : Bool × TronWorld :=
  match w.row with
  | some r =>
    if r.txHash = oldTxid then
      (true, { w with
        row := some t.row, stored := t :: w.stored
        replacements := ⟨r.storedTx, t, w.chain⟩ :: w.replacements })
    else (false, w)
  | none => (false, w)

/-- A node takes what was signed. -/
def TronWorld.broadcastHex (w : TronWorld) (rawTx : String) : TronWorld :=
  { w with pool := w.signed.filter (·.rawTx = rawTx) ++ w.pool }

/-- What the signer gives is told from what it gave before by its id, and by its bytes. -/
def TronWorld.Fits (w : TronWorld) (t : TronTx) : Prop :=
  ∀ s ∈ w.signed, s.txid = t.txid ∨ s.rawTx = t.rawTx → s = t

/-- How a driver's operations are answered. A node's irreversible head may be an old one; and a node
that finds no receipt is no further behind the irreversible head than the margin. -/
def TronWorld.step : (op : TronOp) → TronWorld → op.Ans → TronWorld → Prop
  | .storedTx, w, a, w' => w' = w ∧ ∀ r, a = .ok r → r = w.row
  | .storeTx t, w, a, w' => (∃ e, a = .error e) ∧ w' = w ∨
    w' = w.storeTx t ∧ (a = .ok () ∨ ∃ e, a = .error e)
  | .replaceTx oldTxid t, w, a, w' => (∃ e, a = .error e) ∧ w' = w ∨
    w' = (w.replaceTx oldTxid t).2 ∧ (a = .ok (w.replaceTx oldTxid t).1 ∨ ∃ e, a = .error e)
  | .solidBlockTimestamp, w, a, w' => w' = w ∧ ∀ ts, a = .ok ts →
    ts ≤ I64_MAX ∧ ∃ b ∈ w.chain.solid, ts ≤ b.time
  | .transactionInfo txid, w, a, w' => w' = w ∧ (a = .ok none →
    ∀ b ∈ w.chain.solid, (∃ t ∈ b.txs, t.txid = txid) →
      ∀ head ∈ w.chain.solid, head.time ≤ b.time + EXPIRATION_MARGIN_MS)
  | .broadcastHex rawTx, w, _, w' => w' = w ∨ w' = w.broadcastHex rawTx
  | .signTrc20Transfer _, w, a, w' => (∃ e, a = .error e) ∧ w' = w ∨
    ∃ t, w.Fits t ∧ w' = { w with signed := t :: w.signed } ∧ (a = .ok t ∨ ∃ e, a = .error e)
  | _, w, _, w' => w' = w

/-- The chain goes on, with transactions that were submitted. -/
inductive TronEnv : TronWorld → TronWorld → Prop
  | mined (w : TronWorld) (chain : Chain TronTx) (hvalid : chain.Valid TronTx.expiration)
      (hgrows : w.chain.Grows chain) (hpool : ∀ t ∈ chain.mined, t ∈ w.pool) :
      TronEnv w { w with chain }

/-- A relay's delivery, or a watcher's scan. -/
inductive TronDriver : WatchProg Unit → Prop
  | relay (c : TronCustody) (request : BroadcastRequest) :
      TronDriver ((c.broadcast request).outcome.bind fun _ => .ret ())
  | watcher (c : TronCustody) (request : BroadcastRequest) : TronDriver (c.scanOnce request)

/-- The configurations of drivers reached from one another by steps that meet `guard`. -/
abbrev TronRuns (guard : TronWorld → TronWorld → Prop) :
    Config TronOp TronOp.Ans String Unit TronWorld →
      Config TronOp TronOp.Ans String Unit TronWorld → Prop :=
  Runs TronWorld.step TronEnv TronDriver fun c c' => guard c.1 c'.1

/-- No first send finds a row when it stores its own. -/
def FirstSendsApart (w w' : TronWorld) : Prop := w'.clashes = w.clashes

/-- Before the withdrawal is sent. -/
structure TronWorld.Initial (w : TronWorld) : Prop where
  row : w.row = none
  valid : w.chain.Valid TronTx.expiration
  mined : w.chain.mined = []
  pool : w.pool = []
  signed : w.signed = []
  stored : w.stored = []
  replacements : w.replacements = []

/-- A transaction that no chain that goes on from `c` has. -/
def Unincludable (c : Chain TronTx) (t : TronTx) : Prop :=
  ∀ c', c.Grows c' → c'.Valid TronTx.expiration → t ∉ c'.mined

/-- **What the drivers promise of a withdrawal.** -/
structure TronPaysOnce (w : TronWorld) : Prop where
  /-- One of its transactions is mined, at most. -/
  once : w.chain.mined.length ≤ 1
  /-- What was replaced could not be included in any block any more. -/
  replaced : ∀ r ∈ w.replacements, Unincludable r.chain r.old
  /-- Nothing was submitted that was not the row's. -/
  submitted : w.pool ⊆ w.stored

/-! ## Losing the swap -/

/-- An answer that says the row held another transaction. -/
def TronOp.Lost : (op : TronOp) → op.Ans → Prop
  | .replaceTx _ _, a => a = .ok false
  | _, _ => False

/-- Submits nothing. -/
def TronOp.Silent (op : TronOp) : Prop := ∀ rawTx, op ≠ .broadcastHex rawTx

/-- Swaps nothing. -/
def TronOp.Swapless (op : TronOp) : Prop := ∀ oldTxid t, op ≠ .replaceTx oldTxid t

/-- A program that submits nothing once it lost the swap. -/
def SilentOnceLost {ε α : Type} : Prog TronOp TronOp.Ans ε α → Prop
  | .ret _ | .exit _ => True
  | .call op k => ∀ a, (op.Lost a → (k a).Within TronOp.Silent) ∧ SilentOnceLost (k a)

section Silent

variable {ε ε' α β : Type}

theorem SilentOnceLost.of_within {p : Prog TronOp TronOp.Ans ε α}
    (hp : p.Within TronOp.Swapless) : SilentOnceLost p := by
  induction p with
  | ret | exit => trivial
  | call op k ih =>
    refine fun a => ⟨fun hlost => ?_, ih a (hp.2 a)⟩
    cases op <;> first | exact absurd hlost id | exact absurd rfl (hp.1 _ _)

/-- What swaps nothing may come before. -/
theorem SilentOnceLost.after {p : Prog TronOp TronOp.Ans ε α}
    {f : α → Prog TronOp TronOp.Ans ε β} (hp : p.Within TronOp.Swapless)
    (hf : ∀ a, SilentOnceLost (f a)) : SilentOnceLost (p.bind f) := by
  induction p with
  | ret a => exact hf a
  | exit => trivial
  | call op k ih =>
    refine fun a => ⟨fun hlost => ?_, ih a (hp.2 a)⟩
    cases op <;> first | exact absurd hlost id | exact absurd rfl (hp.1 _ _)

/-- What submits nothing may come after. -/
theorem SilentOnceLost.before {p : Prog TronOp TronOp.Ans ε α}
    {f : α → Prog TronOp TronOp.Ans ε β} (hp : SilentOnceLost p)
    (hquiet : ∀ a, (f a).Within TronOp.Silent) (hf : ∀ a, SilentOnceLost (f a)) :
    SilentOnceLost (p.bind f) := by
  induction p with
  | ret a => exact hf a
  | exit => trivial
  | call op k ih =>
    refine fun a => ⟨fun hlost => ?_, ih a (hp a).2⟩
    exact ((hp a).1 hlost).bind hquiet

theorem SilentOnceLost.outcome {p : Prog TronOp TronOp.Ans ε α} (hp : SilentOnceLost p) :
    SilentOnceLost (p.outcome : Prog TronOp TronOp.Ans ε' (Except ε α)) := by
  induction p with
  | ret | exit => trivial
  | call op k ih => exact fun a => ⟨fun hlost => ((hp a).1 hlost).outcome, ih a (hp a).2⟩

end Silent

/-- No submission. -/
theorem submit_swapless (c : TronCustody) (rawTx : String) :
    (c.submit rawTx).Within TronOp.Swapless := by
  refine ⟨fun _ _ => TronOp.noConfusion, fun a => ?_⟩
  rcases a with e | id
  · cases e with
    | transport detail => trivial
    | rpc message =>
      dsimp only [Prog.bind]
      split_ifs <;> trivial
  · trivial

section Programs

variable {c : TronCustody} {request : BroadcastRequest} {S : TronOp → Prop} {α : Type}

theorem dbUnavailable_within (x : Except String α) : (dbUnavailable x).Within S := by
  cases x <;> trivial

theorem readErr_within (x : Except TronRpcError α) : (readErr x).Within S := by
  cases x <;> trivial

theorem orCustody_within (x : Except CustodyError α) : (orCustody x).Within S := by
  cases x <;> trivial

theorem orRpc_within (x : Except TronRpcError α) : (orRpc x).Within S := by
  cases x <;> trivial

theorem signerErr_within (x : Except SignerRefusal TronTx) : (signerErr x).Within S := by
  rcases x with e | t
  · cases e <;> trivial
  · trivial

/-- A read: of the clock, the node, the signer's address or the row. -/
def TronOp.IsRead : TronOp → Prop
  | .storeTx _ | .replaceTx _ _ | .broadcastHex _ | .signTrc20Transfer _ => False
  | _ => True

/-- The treasury's funds are only read. -/
theorem ensureTreasuryFunded_within :
    (c.ensureTreasuryFunded request).Within TronOp.IsRead := by
  refine Prog.Within.bind ⟨trivial, fun answer => ?_⟩ fun treasury => ⟨trivial, fun answer => ?_⟩
  · rcases answer with e | ⟨address, kind⟩
    · trivial
    · dsimp only [Prog.bind]
      split_ifs <;> trivial
  · refine (readErr_within answer).bind fun state => (orCustody_within _).bind fun needed => ?_
    simp only
    split_ifs <;> trivial

theorem TronOp.IsRead.swapless {op : TronOp} (h : op.IsRead) : op.Swapless := by
  rintro oldTxid t rfl
  exact h

theorem signFresh_swapless : (c.signFresh request).Within TronOp.Swapless := by
  refine (orCustody_within _).bind fun amount => ⟨fun _ _ => TronOp.noConfusion, fun answer => ?_⟩
  refine (readErr_within answer).bind fun refs => ⟨fun _ _ => TronOp.noConfusion, fun answer => ?_⟩
  exact signerErr_within answer

/-- **The loser of the swap submits nothing.** -/
theorem resign_silent (stored : TronTx) : SilentOnceLost (c.resign request stored) := by
  refine .after (ensureTreasuryFunded_within.mono fun _ h => h.swapless) fun _ => ?_
  refine .after signFresh_swapless fun signed a => ⟨fun hlost => ?_, ?_⟩
  · obtain rfl : a = .ok false := hlost
    trivial
  · change SilentOnceLost ((dbUnavailable a).bind _)
    refine .after (dbUnavailable_within a) fun won => ?_
    cases won with
    | true => exact .of_within (submit_swapless c signed.rawTx)
    | false => trivial

theorem resubmit_silent (stored : TronTx) : SilentOnceLost (c.resubmit request stored) := by
  refine .after ⟨fun _ _ => TronOp.noConfusion, fun _ => trivial⟩ fun now => ?_
  split_ifs
  · exact .of_within (submit_swapless c stored.rawTx)
  · refine .after ⟨fun _ _ => TronOp.noConfusion, fun _ => trivial⟩ fun answer => ?_
    refine .after (readErr_within answer) fun solidTs => ?_
    split_ifs
    · trivial
    · refine .after ⟨fun _ _ => TronOp.noConfusion, fun _ => trivial⟩ fun answer => ?_
      refine .after (readErr_within answer) fun receipt => ?_
      cases receipt with
      | some receipt => trivial
      | none => exact resign_silent stored

theorem storedTx_within : TronCustody.storedTx.Within TronOp.IsRead :=
  ⟨trivial, fun answer => (dbUnavailable_within answer).bind fun _ => trivial⟩

/-- **A driver that lost the swap submits nothing more.** -/
theorem TronDriver.silent {p : WatchProg Unit} (h : TronDriver p) : SilentOnceLost p := by
  cases h with
  | relay c request =>
    refine SilentOnceLost.before (SilentOnceLost.outcome ?_) (fun _ => trivial) fun _ => trivial
    refine .after (storedTx_within.mono fun _ h => h.swapless) fun stored => ?_
    cases stored with
    | some stored => exact resubmit_silent stored
    | none =>
      refine .after (ensureTreasuryFunded_within.mono fun _ h => h.swapless) fun _ => ?_
      refine .after signFresh_swapless fun signed => ?_
      refine .after ⟨fun _ _ => TronOp.noConfusion, fun _ => trivial⟩ fun answer => ?_
      exact .after (dbUnavailable_within answer) fun _ => .of_within (submit_swapless _ _)
  | watcher c request =>
    refine .after ⟨fun _ _ => TronOp.noConfusion, fun _ => trivial⟩ fun answer => ?_
    rcases answer with e | _ | txid
    · trivial
    · trivial
    refine .after ⟨fun _ _ => TronOp.noConfusion, fun _ => trivial⟩ fun answer => ?_
    refine .after (orRpc_within answer) fun solidHead => ?_
    refine .after ⟨fun _ _ => TronOp.noConfusion, fun _ => trivial⟩ fun answer => ?_
    refine .after (orRpc_within answer) fun receipt => ?_
    cases receipt with
    | none =>
      refine SilentOnceLost.before (SilentOnceLost.outcome ?_) (fun _ => trivial) fun _ => trivial
      refine .after (storedTx_within.mono fun _ h => h.swapless) fun stored => ?_
      cases stored with
      | some stored => exact resubmit_silent stored
      | none => trivial
    | some receipt =>
      simp only
      split_ifs
      · trivial
      · trivial
      · exact .of_within ⟨fun _ _ => TronOp.noConfusion, fun _ => trivial⟩

end Programs

/-! ## One step at a time -/

/-- **What the row, the chain and the submissions satisfy.** -/
structure TronWorld.Sound (w : TronWorld) : Prop where
  valid : w.chain.Valid TronTx.expiration
  mined : w.chain.mined ⊆ w.pool
  pool : w.pool ⊆ w.stored
  stored : w.stored ⊆ w.signed
  apart : ∀ s ∈ w.signed, ∀ t ∈ w.signed, s.txid = t.txid ∨ s.rawTx = t.rawTx → s = t
  row : ∀ r, w.row = some r → ∃ t ∈ w.stored, r = t.row
  empty : w.row = none → w.stored = []
  dead : ∀ t ∈ w.stored, w.row = some t.row ∨ w.chain.Dead TronTx.expiration t
  replaced : ∀ r ∈ w.replacements, r.chain.Dead TronTx.expiration r.old

/-- What the drivers rely on each other for. -/
structure TronWorld.Later (w w' : TronWorld) : Prop where
  signed : w.signed ⊆ w'.signed
  stored : w.stored ⊆ w'.stored
  grows : w.chain.Grows w'.chain
  dead : ∀ t, w.chain.Dead TronTx.expiration t → w'.chain.Dead TronTx.expiration t

/-- The drivers' shared world, as long as first sends keep apart. -/
def tronWorld : World TronOp TronOp.Ans TronWorld where
  step op w a w' := TronWorld.step op w a w' ∧ FirstSendsApart w w'
  rely := TronWorld.Later
  inv := TronWorld.Sound

section World

variable {w w' w'' : TronWorld} {t s : TronTx}

theorem TronWorld.Later.refl (w : TronWorld) : w.Later w :=
  ⟨List.Subset.refl _, List.Subset.refl _, .refl _, fun _ h => h⟩

theorem TronWorld.Later.trans (h : w.Later w') (h' : w'.Later w'') : w.Later w'' :=
  ⟨List.Subset.trans h.signed h'.signed, List.Subset.trans h.stored h'.stored, h.grows.trans h'.grows,
    fun t ht => h'.dead t (h.dead t ht)⟩

theorem TronWorld.Initial.sound (h : w.Initial) : w.Sound := by
  obtain ⟨hrow, hvalid, hmined, hpool, hsigned, hstored, hreplaced⟩ := h
  refine ⟨hvalid, ?_, ?_, ?_, ?_, ?_, fun _ => hstored, ?_, ?_⟩
  · simp [hmined]
  · simp [hpool]
  · simp [hstored]
  · simp [hsigned]
  · simp [hrow]
  · simp [hstored]
  · simp [hreplaced]

/-- The chain goes on. -/
theorem TronWorld.Sound.env (h : w.Sound) (henv : TronEnv w w') : w.Later w' ∧ w'.Sound := by
  cases henv with
  | mined chain hvalid hgrows hpool =>
    have hdead : ∀ t, w.chain.Dead TronTx.expiration t → chain.Dead TronTx.expiration t :=
      fun t ht => ht.grows hgrows hvalid
    exact ⟨⟨List.Subset.refl _, List.Subset.refl _, hgrows, hdead⟩, hvalid, hpool, h.pool,
      h.stored, h.apart, h.row, h.empty, fun t ht => (h.dead t ht).imp id (hdead t), h.replaced⟩

/-- A first send stored where no row is. -/
theorem TronWorld.Sound.storeTx (h : w.Sound) (ht : t ∈ w.signed)
    (hapart : FirstSendsApart w (w.storeTx t)) :
    w.Later (w.storeTx t) ∧ (w.storeTx t).Sound ∧ t ∈ (w.storeTx t).stored := by
  unfold TronWorld.storeTx at hapart ⊢
  cases hrow : w.row with
  | some r =>
    rw [hrow] at hapart
    exact absurd hapart (Nat.succ_ne_self _)
  | none =>
    have hnone := h.empty hrow
    refine ⟨⟨List.Subset.refl _, List.subset_cons_self _ _, .refl _, fun _ h => h⟩,
      ⟨h.valid, h.mined, List.Subset.trans h.pool (List.subset_cons_self _ _), ?_, h.apart, ?_, ?_, ?_,
        h.replaced⟩, List.mem_cons_self⟩
    · exact List.cons_subset.mpr ⟨ht, h.stored⟩
    · rintro r hr
      cases hr
      exact ⟨t, List.mem_cons_self, rfl⟩
    · intro hr
      cases hr
    · intro s hs
      rw [hnone] at hs
      exact .inl (by rw [List.mem_singleton.mp hs])

/-- A dead transaction replaced. -/
theorem TronWorld.Sound.replaceTx (h : w.Sound) (ht : t ∈ w.signed) (hs : s ∈ w.stored)
    (hdead : w.chain.Dead TronTx.expiration s) :
    w.Later (w.replaceTx s.txid t).2 ∧ (w.replaceTx s.txid t).2.Sound ∧
      ((w.replaceTx s.txid t).1 = true → t ∈ (w.replaceTx s.txid t).2.stored) := by
  unfold TronWorld.replaceTx
  cases hrow : w.row with
  | none => exact ⟨.refl w, h, fun hf => by cases hf⟩
  | some r =>
    dsimp only
    split_ifs with hold
    · -- the row still holds `s`, told by its id
      obtain ⟨s', hs', rfl⟩ := h.row r hrow
      obtain rfl : s' = s := h.apart s' (h.stored hs') s (h.stored hs) (.inl hold)
      refine ⟨⟨List.Subset.refl _, List.subset_cons_self _ _, .refl _, fun _ h => h⟩,
        ⟨h.valid, h.mined, List.Subset.trans h.pool (List.subset_cons_self _ _), ?_, h.apart, ?_, ?_, ?_,
          ?_⟩,
        fun _ => List.mem_cons_self⟩
      · exact List.cons_subset.mpr ⟨ht, h.stored⟩
      · rintro r hr
        cases hr
        exact ⟨t, List.mem_cons_self, rfl⟩
      · intro hr
        cases hr
      · intro u hu
        rcases List.mem_cons.mp hu with rfl | hu
        · exact .inl rfl
        · rcases h.dead u hu with hcurrent | hdead'
          · rw [hrow] at hcurrent
            have hid : s'.txid = u.txid := congrArg BroadcastRow.txHash (Option.some.inj hcurrent)
            rw [← h.apart s' (h.stored hs') u (h.stored hu) (.inl hid)]
            exact .inr hdead
          · exact .inr hdead'
      · intro r hr
        rcases List.mem_cons.mp hr with rfl | hr
        · exact hdead
        · exact h.replaced r hr
    · exact ⟨.refl w, h, fun hf => by cases hf⟩

/-- A submission of what is, or was, the row's. -/
theorem TronWorld.Sound.broadcastHex (h : w.Sound) (hs : s ∈ w.stored) :
    w.Later (w.broadcastHex s.rawTx) ∧ (w.broadcastHex s.rawTx).Sound := by
  refine ⟨⟨List.Subset.refl _, List.Subset.refl _, .refl _, fun _ h => h⟩, h.valid,
    List.Subset.trans h.mined (List.subset_append_right _ _), ?_, h.stored, h.apart,
    h.row, h.empty, h.dead, h.replaced⟩
  refine List.append_subset.mpr ⟨fun t ht => ?_, h.pool⟩
  obtain ⟨ht, hraw⟩ := List.mem_filter.mp ht
  rw [h.apart t ht s (h.stored hs) (.inr (of_decide_eq_true hraw))]
  exact hs

/-- A fresh signature. -/
theorem TronWorld.Sound.signed_cons (h : w.Sound) (hfits : w.Fits t) :
    w.Later { w with signed := t :: w.signed } ∧
      TronWorld.Sound { w with signed := t :: w.signed } := by
  refine ⟨⟨List.subset_cons_self _ _, List.Subset.refl _, .refl _, fun _ h => h⟩, h.valid, h.mined,
    h.pool, List.Subset.trans h.stored (List.subset_cons_self _ _), ?_, h.row, h.empty, h.dead, h.replaced⟩
  intro s hs u hu hsame
  rcases List.mem_cons.mp hs with rfl | hs' <;> rcases List.mem_cons.mp hu with rfl | hu'
  · rfl
  · exact (hfits u hu' (hsame.imp Eq.symm Eq.symm)).symm
  · exact hfits s hs' hsame
  · exact h.apart s hs' u hu' hsame

/-- A read changes nothing. -/
theorem TronOp.IsRead.same {op : TronOp} (hop : op.IsRead) {a : op.Ans}
    (hstep : TronWorld.step op w a w') : w' = w := by
  cases op with
  | storeTx | replaceTx | broadcastHex | signTrc20Transfer => exact absurd hop id
  | storedTx | solidBlockTimestamp | transactionInfo => exact hstep.1
  | _ => exact hstep

/-- **A receipt not found** of a transaction an irreversible block is far enough past: it is dead. -/
theorem TronWorld.Sound.dead_of_reading (h : w.Sound) {solidTs : Int}
    (hreading : solidTs ≤ I64_MAX ∧ ∃ b ∈ w.chain.solid, solidTs ≤ b.time)
    (hpast : saturatingAdd s.expiration EXPIRATION_MARGIN_MS < solidTs)
    (hnone : ∀ b ∈ w.chain.solid, (∃ t ∈ b.txs, t.txid = s.txid) →
      ∀ head ∈ w.chain.solid, head.time ≤ b.time + EXPIRATION_MARGIN_MS) :
    w.chain.Dead TronTx.expiration s := by
  obtain ⟨hmax, head, hhead, hle⟩ := hreading
  have hlate : s.expiration + EXPIRATION_MARGIN_MS < solidTs := by
    unfold saturatingAdd at hpast
    omega
  have hmargin : EXPIRATION_MARGIN_MS = 180000 := rfl
  refine ⟨⟨head, hhead, by omega⟩, fun b hb hs => ?_⟩
  have hbound := hnone b hb ⟨s, hs, rfl⟩ head hhead
  have hwindow := h.valid.unexpired b (List.mem_append_right _ hb) s hs
  omega

/-! ## The drivers' programs -/

variable {c : TronCustody} {request : BroadcastRequest} {α β ε : Type}

/-- A program of reads, and what follows it. -/
theorem promises_reads {p : Prog TronOp TronOp.Ans ε β} {k : β → Prog TronOp TronOp.Ans ε α}
    (hp : p.Within TronOp.IsRead)
    (hk : ∀ w' b, w.Later w' → tronWorld.promises (k b) w') : tronWorld.promises (p.bind k) w := by
  refine World.promises_bind (S := tronWorld) (J := fun w' => w.Later w')
    (fun _ _ hrely hj => TronWorld.Later.trans hj hrely) ?_ (.refl w) fun b w' hj => hk w' b hj
  refine World.promises_within hp fun op w a w' hop hsound hstep => ?_
  obtain rfl := hop.same hstep.1
  exact ⟨.refl _, hsound⟩

/-- One read, and what follows it. -/
theorem promises_readOp (op : TronOp) (hop : op.IsRead) {k : op.Ans → Prog TronOp TronOp.Ans ε α}
    (hk : ∀ w' a, w.Later w' → tronWorld.promises (k a) w') :
    tronWorld.promises ((Prog.ask op).bind k) w :=
  promises_reads (p := Prog.ask op) ⟨hop, fun _ => trivial⟩ hk

/-- A submission. -/
theorem promises_submit (hs : s ∈ w.stored) : tronWorld.promises (c.submit s.rawTx) w := by
  refine World.promises_stable (S := tronWorld) (J := fun w => s ∈ w.stored)
    (U := fun op => op = .broadcastHex s.rawTx)
    (fun w w' hrely hj => TronWorld.Later.stored hrely hj) ?_ ?_ hs
  · refine ⟨rfl, fun a => ?_⟩
    rcases a with e | id
    · cases e with
      | transport detail => trivial
      | rpc message =>
        dsimp only [Prog.bind]
        split_ifs <;> trivial
    · trivial
  · rintro op w a w' rfl hsound hs ⟨rfl | rfl, -⟩
    · exact ⟨.refl _, hsound⟩
    · exact hsound.broadcastHex hs

/-- A fresh transaction, and what follows. -/
theorem promises_signFresh {k : TronTx → TronProg α}
    (hk : ∀ w' t, w.Later w' → t ∈ w'.signed → tronWorld.promises (k t) w') :
    tronWorld.promises ((c.signFresh request).bind k) w := by
  unfold TronCustody.signFresh
  rw [Prog.bind_assoc]
  refine promises_reads (orCustody_within _) fun w₁ amount hlater₁ => ?_
  intro w₂ hlater₂ hsound₂ a w₂' hstep
  obtain rfl : w₂' = w₂ := hstep.1
  refine ⟨.refl _, hsound₂, ?_⟩
  change tronWorld.promises (((readErr a).bind _).bind k) w₂'
  rw [Prog.bind_assoc]
  refine promises_reads (readErr_within a) fun w₃ refs hlater₃ => ?_
  intro w₄ hlater₄ hsound₄ a w₅ hstep
  have hlater := ((hlater₁.trans hlater₂).trans hlater₃).trans hlater₄
  rcases hstep.1 with ⟨⟨e, rfl⟩, rfl⟩ | ⟨t, hfits, rfl, rfl | ⟨e, rfl⟩⟩
  · refine ⟨.refl _, hsound₄, ?_⟩
    cases e <;> trivial
  · obtain ⟨hlater₅, hsound₅⟩ := hsound₄.signed_cons hfits
    exact ⟨hlater₅, hsound₅, hk _ t (hlater.trans hlater₅) List.mem_cons_self⟩
  · obtain ⟨hlater₅, hsound₅⟩ := hsound₄.signed_cons hfits
    refine ⟨hlater₅, hsound₅, ?_⟩
    cases e <;> trivial

/-- **Re-signing a dead transaction.** -/
theorem promises_resign (hs : s ∈ w.stored) (hdead : w.chain.Dead TronTx.expiration s) :
    tronWorld.promises (c.resign request s) w := by
  refine promises_reads ensureTreasuryFunded_within fun w₁ _ hlater₁ => ?_
  refine promises_signFresh fun w₂ t hlater₂ ht => ?_
  intro w₃ hlater₃ hsound₃ a w₄ hstep
  have hlater := (hlater₁.trans hlater₂).trans hlater₃
  obtain ⟨hlater₄, hsound₄, hwon⟩ :=
    hsound₃.replaceTx (hlater₃.signed ht) (hlater.stored hs) (hlater.dead s hdead)
  rcases hstep.1 with ⟨⟨e, rfl⟩, rfl⟩ | ⟨rfl, rfl | ⟨e, rfl⟩⟩
  · exact ⟨.refl _, hsound₃, trivial⟩
  · refine ⟨hlater₄, hsound₄, ?_⟩
    dsimp only [Prog.bind, dbUnavailable]
    cases hswap : (w₃.replaceTx s.txid t).1 with
    | true => exact promises_submit (hwon hswap)
    | false => trivial
  · exact ⟨hlater₄, hsound₄, trivial⟩

/-- **Handling a stored transaction again.** -/
theorem promises_resubmit (hs : s ∈ w.stored) :
    tronWorld.promises (c.resubmit request s) w := by
  unfold TronCustody.resubmit
  refine promises_readOp .nowMs trivial fun w₁ now hlater₁ => ?_
  have hs₁ := hlater₁.stored hs
  split_ifs
  · exact promises_submit hs₁
  intro w₂ hlater₂ hsound₂ a w₂' hstep
  obtain ⟨rfl, hreading⟩ := hstep.1
  refine ⟨.refl _, hsound₂, ?_⟩
  cases a with
  | error e => trivial
  | ok solidTs =>
  obtain ⟨hmax, head, hhead, hle⟩ := hreading solidTs rfl
  dsimp only [Prog.bind, readErr]
  split_ifs with hpast
  · trivial
  intro w₃ hlater₃ hsound₃ a w₃' hstep
  obtain ⟨rfl, hreceipt⟩ := hstep.1
  refine ⟨.refl _, hsound₃, ?_⟩
  rcases a with e | _ | receipt
  · trivial
  · have hs₃ := hlater₃.stored (hlater₂.stored hs₁)
    exact promises_resign hs₃ (hsound₃.dead_of_reading
      ⟨hmax, head, hlater₃.grows.mem hhead, hle⟩ (by omega) (hreceipt rfl))
  · trivial

/-- What is stored of the withdrawal, and what follows. -/
theorem promises_storedTx {k : Option TronTx → TronProg α}
    (hnone : ∀ w', tronWorld.promises (k none) w')
    (hsome : ∀ w' s, s ∈ w'.stored → tronWorld.promises (k (some s)) w') :
    tronWorld.promises (TronCustody.storedTx.bind k) w := by
  intro w₁ _ hsound a w₁' hstep
  obtain ⟨rfl, hread⟩ := hstep.1
  refine ⟨.refl _, hsound, ?_⟩
  cases a with
  | error e => trivial
  | ok row =>
    obtain rfl := hread row rfl
    dsimp only [Prog.bind, dbUnavailable]
    cases hrow : w₁'.row with
    | none => exact hnone w₁'
    | some r =>
      obtain ⟨t, ht, rfl⟩ := hsound.row r hrow
      exact hsome w₁' t ht

/-- **The first send.** -/
theorem promises_firstSend : tronWorld.promises (c.firstSend request) w := by
  refine promises_reads ensureTreasuryFunded_within fun w₁ _ hlater₁ => ?_
  refine promises_signFresh fun w₂ t hlater₂ ht => ?_
  intro w₃ hlater₃ hsound₃ a w₄ hstep
  obtain ⟨hstep, hapart⟩ := hstep
  rcases hstep with ⟨⟨e, rfl⟩, rfl⟩ | ⟨rfl, ha⟩
  · exact ⟨.refl _, hsound₃, trivial⟩
  · obtain ⟨hlater₄, hsound₄, hstored⟩ := hsound₃.storeTx (hlater₃.signed ht) hapart
    refine ⟨hlater₄, hsound₄, ?_⟩
    rcases ha with rfl | ⟨e, rfl⟩
    · exact promises_submit hstored
    · trivial

theorem promises_resubmitStuck : tronWorld.promises (c.resubmitStuck request) w :=
  promises_storedTx (fun _ => trivial) fun _ _ hs => promises_resubmit hs

/-- **Every driver** keeps its promises from anywhere. -/
theorem TronDriver.promises {p : WatchProg Unit} (h : TronDriver p) : tronWorld.promises p w := by
  have hend : ∀ {q : TronProg Unit}, (∀ w, tronWorld.promises q w) → ∀ w,
      tronWorld.promises ((q.outcome : WatchProg _).bind fun _ => .ret ()) w := fun hq w =>
    World.promises_bind (J := fun _ => True) (fun _ _ _ _ => trivial)
      (World.promises_outcome (hq w)) trivial fun _ _ _ => trivial
  cases h with
  | relay c request =>
    exact hend (fun w => promises_storedTx (fun _ => promises_firstSend)
      fun _ _ hs => promises_resubmit hs) w
  | watcher c request =>
    refine promises_readOp .pendingBroadcast trivial
      fun w₁ answer _ => ?_
    rcases answer with e | _ | txid
    · trivial
    · trivial
    refine promises_readOp .solidBlockNumber trivial
      fun w₂ answer _ => ?_
    refine promises_reads (orRpc_within answer) fun w₃ solidHead _ => ?_
    refine promises_readOp (.transactionInfo txid) trivial
      fun w₄ answer _ => ?_
    refine promises_reads (orRpc_within answer) fun w₅ receipt _ => ?_
    cases receipt with
    | none => exact hend (fun _ => promises_resubmitStuck) w₅
    | some receipt =>
      dsimp only
      split_ifs
      · trivial
      · trivial
      · exact promises_readOp (.settleWithdrawal txid) trivial
          fun _ _ _ => trivial

/-! ## Every run -/

theorem TronWorld.Sound.paysOnce (h : w.Sound) : TronPaysOnce w := by
  have hcurrent : ∀ t ∈ w.chain.mined, w.row = some t.row := fun t ht =>
    (h.dead t (h.pool (h.mined ht))).resolve_right fun hdead =>
      hdead.not_mined (.refl _) h.valid ht
  have hsame : ∀ s ∈ w.chain.mined, ∀ t ∈ w.chain.mined, s = t := by
    intro s hs t ht
    have hrows : s.row = t.row :=
      Option.some.inj ((hcurrent s hs).symm.trans (hcurrent t ht))
    exact h.apart s (h.stored (h.pool (h.mined hs))) t (h.stored (h.pool (h.mined ht)))
      (.inl (congrArg BroadcastRow.txHash hrows))
  refine ⟨?_, fun r hr c' hgrows hvalid => (h.replaced r hr).not_mined hgrows hvalid, h.pool⟩
  -- what is mined is mined once, and is one transaction
  match hmined : w.chain.mined with
  | [] => exact Nat.zero_le _
  | [_] => exact Nat.le_refl _
  | s :: t :: rest =>
    have honce := h.valid.once
    rw [hmined] at hsame honce
    have heq : s = t := hsame s (by simp) t (by simp)
    exact absurd (heq ▸ List.mem_cons_self) (List.nodup_cons.mp honce).1

/-- **Tron pays a withdrawal once**, over every run of its drivers in which first sends keep apart;
and a driver that lost the swap never submits again. -/
theorem tron_pays_once {c c' : Config TronOp TronOp.Ans String Unit TronWorld}
    (hinit : c.1.Initial) (hidle : c.2 = []) (hrun : TronRuns FirstSendsApart c c') :
    TronPaysOnce c'.1 ∧ ∀ p, TronDriver p → SilentOnceLost p := by
  refine ⟨(Runs.promised (S := tronWorld) .refl (fun h h' => h.trans h')
    (fun w w' ps h _ hsound => TronWorld.Sound.env hsound h) (fun _ _ _ _ _ _ h hapart => ⟨h, hapart⟩)
    (fun w p hp _ => hp.promises) hrun hinit.sound ?_).2.paysOnce, fun p hp => hp.silent⟩
  rw [hidle]
  exact List.forall_mem_nil _

/-! ## Two first sends -/

/-- Two transactions of one withdrawal. -/
def firstSigned : TronTx := ⟨"a1", "id:1", 60000⟩

def secondSigned : TronTx := ⟨"a2", "id:2", 60000⟩

/-- A signer that signs twice. -/
def TronWorld.signTwice (w : TronWorld) : Except SignerRefusal TronTx × TronWorld :=
  if w.signed = [] then (.ok firstSigned, { w with signed := [firstSigned] })
  else if w.signed = [firstSigned] then
    (.ok secondSigned, { w with signed := [secondSigned, firstSigned] })
  else (.error (.other "no more"), w)

/-- A driver's operation carried out, by a node that has no irreversible block yet and a signer that
signs twice. -/
def TronOp.carriedOut : (op : TronOp) → TronWorld → op.Ans × TronWorld
  | .storedTx, w => (.ok w.row, w)
  | .storeTx t, w => (.ok (), w.storeTx t)
  | .replaceTx oldTxid t, w => (.ok (w.replaceTx oldTxid t).1, (w.replaceTx oldTxid t).2)
  | .nowMs, w => (0, w)
  | .solidBlockTimestamp, w => (.error (.transport "no block"), w)
  | .transactionInfo _, w => (.error (.transport "no block"), w)
  | .broadcastHex rawTx, w => (.ok "", w.broadcastHex rawTx)
  | .provisionTreasury, w => (.ok ("T:treasury", "derived"), w)
  | .accountState _, w => (.ok ⟨100, [("usdt", 100)]⟩, w)
  | .refBlockParams, w => (.ok ⟨"", "", 60000, 0⟩, w)
  | .signTrc20Transfer _, w => w.signTwice
  | .pendingBroadcast, w => (.ok none, w)
  | .solidBlockNumber, w => (.ok 0, w)
  | .settleWithdrawal _, w => (.ok (), w)

theorem TronOp.carriedOut_step (op : TronOp) (w : TronWorld) :
    TronWorld.step op w (op.carriedOut w).1 (op.carriedOut w).2 := by
  cases op with
  | storedTx => exact ⟨rfl, fun r hr => by cases hr; rfl⟩
  | solidBlockTimestamp => exact ⟨rfl, fun ts hts => by cases hts⟩
  | transactionInfo => exact ⟨rfl, fun hnone => by cases hnone⟩
  | storeTx | replaceTx => exact .inr ⟨rfl, .inl rfl⟩
  | broadcastHex => exact .inr rfl
  | signTrc20Transfer request =>
    show TronWorld.step (.signTrc20Transfer request) w w.signTwice.1 w.signTwice.2
    unfold TronWorld.signTwice
    split_ifs with hnone hone
    · exact .inr ⟨firstSigned, by simp [TronWorld.Fits, hnone], by simp [hnone], .inl rfl⟩
    · refine .inr ⟨secondSigned, ?_, by simp [hone], .inl rfl⟩
      intro s hs hsame
      obtain rfl := List.mem_singleton.mp (hone ▸ hs)
      exact absurd hsame (by decide)
    · exact .inl ⟨⟨_, rfl⟩, rfl⟩
  | _ => exact rfl

/-- A relay's delivery of one withdrawal. -/
def sampleDelivery : WatchProg Unit :=
  (TronCustody.broadcast ⟨"usdt", 5, id⟩ ⟨.raw 1, .trc20, "T:client", 10 ^ 12⟩).outcome.bind
    fun _ => .ret ()

/-- Nothing is sent yet. -/
def sampleUnsent : TronWorld := ⟨none, ⟨[], []⟩, [], [], [], [], 0⟩

/-- One relay reads that nothing is stored, -/
def sampleRead : WatchProg Unit × TronWorld :=
  sampleDelivery.advance TronOp.carriedOut 1 sampleUnsent

/-- another delivers the withdrawal whole, -/
def sampleDelivered : WatchProg Unit × TronWorld :=
  sampleDelivery.advance TronOp.carriedOut 7 sampleRead.2

/-- and the first goes on. -/
def sampleOvertaken : WatchProg Unit × TronWorld :=
  sampleRead.1.advance TronOp.carriedOut 6 sampleDelivered.2

/-- One delivery, by itself, is mined. -/
def sampleMined : TronWorld :=
  { (sampleDelivery.advance TronOp.carriedOut 7 sampleUnsent).2 with
    chain := ⟨[], [⟨3000, [firstSigned]⟩]⟩ }

theorem sampleUnsent_initial : sampleUnsent.Initial :=
  ⟨rfl, ⟨List.Pairwise.nil, fun _ hb => absurd hb List.not_mem_nil, List.nodup_nil⟩, rfl, rfl, rfl,
    rfl, rfl⟩

/-- A block of what was submitted. -/
theorem TronEnv.block {w : TronWorld} (hchain : w.chain = ⟨[], []⟩) {ts : List TronTx}
    (hwindow : ∀ t ∈ ts, 3000 ≤ t.expiration) (honce : ts.Nodup) (hpool : ∀ t ∈ ts, t ∈ w.pool) :
    TronEnv w { w with chain := ⟨[], [⟨3000, ts⟩]⟩ } := by
  refine .mined w _ ⟨List.pairwise_singleton _ _, fun b hb t ht => ?_, ?_⟩ ?_ fun t ht => ?_
  · obtain rfl := List.mem_singleton.mp hb
    exact hwindow t ht
  · simpa [Chain.mined, Chain.blocks] using honce
  · rw [hchain]
    exact List.nil_suffix
  · exact hpool t (by simpa [Chain.mined, Chain.blocks] using ht)

/-- A delivery alone keeps the promise, and is mined. -/
theorem tron_pays_once_sample :
    TronPaysOnce sampleMined ∧ sampleMined.chain.mined = [firstSigned] := by
  have hrun : TronRuns FirstSendsApart (sampleUnsent, [])
      (sampleMined, [(sampleDelivery.advance TronOp.carriedOut 7 sampleUnsent).1]) := by
    refine .head ⟨.start (.relay _ _), rfl⟩ (.trans (Runs.advance TronOp.carriedOut_step 7
      sampleDelivery sampleUnsent ?_) (.single ⟨.env (.block ?_ ?_ ?_ ?_), rfl⟩))
    · unfold FirstSendsApart
      decide +kernel
    · decide +kernel
    · decide
    · decide
    · decide +kernel
  exact ⟨(tron_pays_once sampleUnsent_initial rfl hrun).1, by decide⟩

/-- **Two first sends pay twice**: the second to store submits what it signed all the same. -/
theorem tron_pays_twice :
    ¬ ∀ c c' : Config TronOp TronOp.Ans String Unit TronWorld, c.1.Initial → c.2 = [] →
      TronRuns (fun _ _ => True) c c' → c'.1.chain.mined.length ≤ 1 := by
  intro h
  have hread : TronRuns (fun _ _ => True) (sampleUnsent, []) (sampleRead.2, [sampleRead.1]) :=
    .head ⟨.start (.relay _ _), trivial⟩
      (Runs.advance TronOp.carriedOut_step 1 sampleDelivery sampleUnsent fun _ _ => trivial)
  have hdelivered : TronRuns (fun _ _ => True) (sampleRead.2, [sampleRead.1])
      (sampleDelivered.2, [sampleRead.1]) :=
    .head ⟨.start (.relay _ _), trivial⟩ (.trans
      (Runs.advance TronOp.carriedOut_step 7 sampleDelivery sampleRead.2 fun _ _ => trivial)
      (.single ⟨.crash [] [sampleRead.1], trivial⟩))
  have hovertaken : TronRuns (fun _ _ => True) (sampleDelivered.2, [sampleRead.1])
      (sampleOvertaken.2, [sampleOvertaken.1]) :=
    Runs.advance TronOp.carriedOut_step 6 sampleRead.1 sampleDelivered.2 fun _ _ => trivial
  have hmined : TronEnv sampleOvertaken.2 { sampleOvertaken.2 with
      chain := ⟨[], [⟨3000, [firstSigned, secondSigned]⟩]⟩ } :=
    .block (by decide +kernel) (by decide) (by decide) (by decide +kernel)
  have hone := h _ _ sampleUnsent_initial rfl
    (((hread.trans hdelivered).trans hovertaken).trans (.single ⟨.env hmined, trivial⟩))
  exact absurd hone (by decide)

end World

end Banking
