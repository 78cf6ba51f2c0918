import Banking.Marks
import Banking.PrunedHistory

/-! # The gas station's nonces

The top-ups of the EVM sweep. One key signs them all, so their nonces come from one allocator: the
node's pending count, but never below a mark held in memory, which is rolled back when a top-up is
not known to have got into the mempool (`GasState`). A top-up is a program over the node, the signer
and that memory (`topUpGas`); a process runs one after another and may stop anywhere.

The allocator never uses the nonce of a live transaction again. It leaves no gap while the node
drops none of the transactions it admitted below the mark; the mark does not notice when it does. -/

namespace Banking

open Interactive

/-! ## The allocator -/

/-- What a process remembers of the nonces: the next one, once there was a top-up. -/
structure GasState where
  nextNonce : Option Nat
deriving DecidableEq, Repr

/-- The nonce that follows from a pending count: the count, but never below the mark. -/
def GasState.next (s : GasState) (chain : Nat) : Nat := s.nextNonce.elim chain (max · chain)

/-- Consume the next nonce. -/
def GasState.allocate (s : GasState) (chain : Nat) : Nat × GasState :=
  (s.next chain, ⟨some ((s.next chain + 1) % 2 ^ 64)⟩)

/-- Return a nonce, if it is the one allocated last. -/
def GasState.free (s : GasState) (nonce : Nat) : GasState :=
  if s.nextNonce = some ((nonce + 1) % 2 ^ 64) then ⟨some nonce⟩ else s

/-! ## Answers -/

/-- Why a node did not answer. -/
inductive EvmRpcError
  | transport (detail : String)
  | rpc (message : String)
deriving DecidableEq, Repr

/-- Its text. -/
def EvmRpcError.text : EvmRpcError → String
  | .transport detail => "rpc transport: " ++ detail
  | .rpc message => "rpc error: " ++ message

/-- What became of a broadcast, as far as the mempool goes. -/
inductive Broadcast
  | admitted
  | rejected
  | ambiguous
deriving DecidableEq, Repr

/-- The wallet a refusal of the signer is held against. -/
inductive HoldKey
  | address (address : String)
  | gasStation
deriving DecidableEq, Repr

/-- Why a top-up failed. -/
inductive SweepError
  | rpc (detail : String)
  | signer (detail : String)
  | signerRefused (detail : String) (activityId : Option String) (key : HoldKey)
deriving DecidableEq, Repr

/-- The codes of the signer's failures that are told apart. -/
inductive SignerCode
  | failedPrecondition
  | permissionDenied
  | invalidArgument
  | other
deriving DecidableEq, Repr

/-- A failure of the signer. -/
structure SignerFailure where
  code : SignerCode
  message : String
  activityId : Option String
deriving DecidableEq, Repr

/-- A refusal on the merits is held against its wallet; anything else is tried again. -/
def SweepError.signerErr (what : String) (key : HoldKey) (status : SignerFailure) : SweepError :=
  let detail := what ++ ": " ++ status.message
  match status.code with
  | .failedPrecondition | .permissionDenied | .invalidArgument =>
    .signerRefused detail status.activityId key
  | .other => .signer detail

/-- What the signer is asked to sign for a top-up. -/
structure NativeTransferRequest where
  fromUserId : String
  network : String
  toAddress : String
  amount : String
  chainId : Nat
  nonce : Nat
  gasPrice : String
  gasLimit : Nat
deriving DecidableEq, Repr

/-- A signed transaction. -/
structure SignedNative where
  rawTx : String
  txHash : String
deriving DecidableEq, Repr

/-! ## A top-up -/

/-- What a top-up asks of its process, the node and the signer; and how a process begins and goes
on to an address that is short of gas. -/
inductive GasOp
  | boot
  | nextAddress
  | recentlyToppedUp (address : String)
  | isHeld (key : HoldKey)
  | pendingNonce
  | allocate (chain : Nat)
  | free (nonce : Nat)
  | signNativeTransfer (request : NativeTransferRequest)
  | release (key : HoldKey)
  | noteTopUp (address : String)
  | forgetTopUp (address : String)
  | sendRawTransaction (rawTx : String)

/-- What each is answered with; an address with the gas it needs and the price of gas. -/
@[reducible] def GasOp.Ans : GasOp → Type
  | .boot | .free _ | .release _ | .noteTopUp _ | .forgetTopUp _ => Unit
  | .nextAddress => String × Nat × Nat
  | .recentlyToppedUp _ | .isHeld _ => Bool
  | .pendingNonce => Except EvmRpcError Nat
  | .allocate _ => Nat
  | .signNativeTransfer _ => Except SignerFailure SignedNative
  | .sendRawTransaction _ => Except EvmRpcError String

/-- The sweep's programs. -/
abbrev GasProg (α : Type) : Type := Prog GasOp GasOp.Ans SweepError α

/-- The sweep's settings, and how the standard library spells a text in lower case. -/
structure EvmSweep where
  network : String
  chainId : Nat
  gasDropMultiple : Nat
  minGasDropWei : Nat
  lowercase : String → String

/-- The account whose key signs every top-up. -/
def GAS_STATION : Uuid := .raw 1

/-- Gas for a plain transfer of the native coin. -/
def NATIVE_TRANSFER_GAS : Nat := 21000

/-- Whether a node's message says that the transaction is already accounted for. -/
def EvmSweep.isIdempotent (s : EvmSweep) (msg : String) : Bool :=
  let m := (s.lowercase msg).toList
  hasText "already known" m || hasText "known transaction" m || hasText "nonce too low" m ||
    hasText "replacement transaction underpriced" m || hasText "already imported" m

/-- What a node's answer says of the mempool. A sender out of funds is told apart only for the
alert. -/
def EvmSweep.classify (s : EvmSweep) : Except EvmRpcError String → Broadcast
  | .ok _ => .admitted
  | .error (.transport _) => .ambiguous
  | .error (.rpc msg) => if s.isIdempotent msg then .admitted else .rejected

/-- Broadcast a signed transaction. -/
def EvmSweep.broadcast (s : EvmSweep) (rawTx : String) : GasProg Broadcast :=
  (Prog.ask (GasOp.sendRawTransaction rawTx)).bind fun answer => .ret (s.classify answer)

/-- The next nonce of the gas station. -/
def nextGasNonce : GasProg Nat :=
  (Prog.ask GasOp.pendingNonce).bind fun answer =>
    match answer with
    | .error e => .exit (.rpc e.text)
    | .ok chain => .ask (GasOp.allocate chain)

/-- Have a transfer of the native coin signed with the station's key. -/
def EvmSweep.signNative (s : EvmSweep) (address : String) (amount nonce gasPrice : Nat) :
    GasProg SignedNative :=
  (Prog.ask (GasOp.signNativeTransfer
    { fromUserId := GAS_STATION.text, network := s.network, toAddress := address,
      amount := toString amount, chainId := s.chainId, nonce, gasPrice := toString gasPrice,
      gasLimit := NATIVE_TRANSFER_GAS })).bind fun answer =>
    match answer with
    | .ok signed => .ret signed
    | .error status => .exit (.signerErr ("gas top-up " ++ address) .gasStation status)

/-- How much is sent to an address that needs so much. -/
def EvmSweep.gasDrop (s : EvmSweep) (needed : Nat) : Nat :=
  max (saturatingMul needed s.gasDropMultiple) s.minGasDropWei

/-- What follows from the outcome of a top-up's broadcast. An ambiguous one keeps the grace, so
that no second drop is sent while the first may be confirming. -/
def afterBroadcast (address : String) (nonce : Nat) : Broadcast → GasProg Unit
  | .admitted => .ret ()
  | .rejected => (Prog.ask (GasOp.free nonce)).bind fun _ => .ask (GasOp.forgetTopUp address)
  | .ambiguous => .ask (GasOp.free nonce)

/-- **Top up an address.** -/
def EvmSweep.topUpGas (s : EvmSweep) (address : String) (needed gasPrice : Nat) : GasProg Unit :=
  (Prog.ask (GasOp.recentlyToppedUp address)).bind fun recently =>
  if recently then .ret ()
  else (Prog.ask (GasOp.isHeld .gasStation)).bind fun held =>
  if held then .ret ()
  else nextGasNonce.bind fun nonce =>
  (s.signNative address (s.gasDrop needed) nonce gasPrice).outcome.bind fun signed =>
    match signed with
    | .error e => (Prog.ask (GasOp.free nonce)).bind fun _ => .exit e
    | .ok signed =>
      (Prog.ask (GasOp.release .gasStation)).bind fun _ =>
      (Prog.ask (GasOp.noteTopUp address)).bind fun _ =>
      (s.broadcast signed.rawTx).bind (afterBroadcast address nonce)

/-- So many top-ups, one after another; a failed one does not stop the next. -/
def EvmSweep.topUps (s : EvmSweep) : Nat → GasProg Unit
  | 0 => .ret ()
  | n + 1 => (Prog.ask GasOp.nextAddress).bind fun (address, needed, gasPrice) =>
    (s.topUpGas address needed gasPrice).outcome.bind fun _ => s.topUps n

/-- **A process of the sweep**, from its start. -/
def EvmSweep.process (s : EvmSweep) (n : Nat) : GasProg Unit :=
  (Prog.ask GasOp.boot).bind fun _ => s.topUps n

/-! ## The station on the chain -/

/-- An allocated nonce, with what the chain and the mempool held of the station just then. -/
structure Allocation where
  nonce : Nat
  mined : Nat
  live : List Nat
deriving DecidableEq, Repr

/-- The nonce is above none that no mined or live transaction carries. -/
def Allocation.NoGap (a : Allocation) : Prop := ∀ k < a.nonce, k < a.mined ∨ k ∈ a.live

/-- The station's transactions, by their nonces: how many are mined, those in the mempool, and those
sent that may yet get there; what its process remembers; and the nonces it allocated. -/
structure GasWorld where
  mined : Nat
  live : List Nat
  limbo : List Nat
  memory : GasState
  allocated : List Allocation

/-- A mined or live transaction carries the nonce. -/
def GasWorld.Carried (w : GasWorld) (nonce : Nat) : Prop := nonce < w.mined ∨ nonce ∈ w.live

/-- Nothing was allocated yet. -/
def GasWorld.Fresh (w : GasWorld) : Prop := w.allocated = []

/-- A nonce allocated for a pending count. -/
def GasWorld.allocate (w : GasWorld) (chain : Nat) : GasWorld :=
  { w with
    memory := (w.memory.allocate chain).2
    allocated := ⟨(w.memory.allocate chain).1, w.mined, w.live⟩ :: w.allocated }

/-- What a node may do: drop the transaction of a nonce, and report a pending count. -/
structure NodeRules where
  drops : GasWorld → Nat → Prop
  counts : GasWorld → Nat → Prop

/-- **What leaves no gap**: nothing below the mark is dropped; and a count counts no nonce that no
transaction carries, and is below the last of 64 bits, as is the mark. -/
def NodeRules.faithful : NodeRules where
  drops w nonce := ∀ mark, w.memory.nextNonce = some mark → mark ≤ nonce
  counts w chain := (∀ k < chain, w.Carried k) ∧ w.memory.next chain + 1 < 2 ^ 64

/-- What a broadcast is answered and does. The messages that say a transaction is accounted for are
given while one carries its nonce; an answer that cannot be read may be to one that got through. -/
inductive Sends (s : EvmSweep) (nonce : Nat) :
    GasWorld → Except EvmRpcError String → GasWorld → Prop
  | accepted {w : GasWorld} (hash : String) (h : w.mined ≤ nonce) :
      Sends s nonce w (.ok hash) { w with live := nonce :: w.live }
  | accounted {w : GasWorld} {msg : String} (h : s.isIdempotent msg = true)
      (hcarried : w.Carried nonce) : Sends s nonce w (.error (.rpc msg)) w
  | refused {w : GasWorld} {msg : String} (h : s.isIdempotent msg = false) :
      Sends s nonce w (.error (.rpc msg)) w
  | unreadable {w : GasWorld} {msg : String} (h : s.isIdempotent msg = false) :
      Sends s nonce w (.error (.rpc msg)) { w with limbo := nonce :: w.limbo }
  | lost {w : GasWorld} (detail : String) :
      Sends s nonce w (.error (.transport detail)) { w with limbo := nonce :: w.limbo }

/-- What each operation may be answered and do. A pending count covers every live transaction when
it is used; the signer signs at the nonce it is asked for, which is what `nonceOf` reads from a
signed text. -/
def GasOp.step (s : EvmSweep) (nonceOf : String → Nat) (rules : NodeRules) :
    (op : GasOp) → GasWorld → op.Ans → GasWorld → Prop
  | .boot, w, _, w' => w' = { w with memory := ⟨none⟩ }
  | .allocate chain, w, nonce, w' =>
    (∀ live ∈ w.live, live < chain) ∧ rules.counts w chain ∧ nonce = (w.memory.allocate chain).1 ∧
      w' = w.allocate chain
  | .free nonce, w, _, w' => w' = { w with memory := w.memory.free nonce }
  | .signNativeTransfer request, w, answer, w' =>
    w' = w ∧ ∀ signed, answer = .ok signed → nonceOf signed.rawTx = request.nonce
  | .sendRawTransaction rawTx, w, answer, w' => Sends s (nonceOf rawTx) w answer w'
  | .nextAddress, w, _, w' | .recentlyToppedUp _, w, _, w' | .isHeld _, w, _, w' |
    .pendingNonce, w, _, w' | .release _, w, _, w' | .noteTopUp _, w, _, w' |
    .forgetTopUp _, w, _, w' => w' = w

/-- What the chain and the network do. -/
inductive GasEnv (rules : NodeRules) : GasWorld → GasWorld → Prop
  | mined {w : GasWorld} (h : w.mined ∈ w.live) :
      GasEnv rules w { w with mined := w.mined + 1, live := w.live.filter (· ≠ w.mined) }
  | arrived {w : GasWorld} {nonce : Nat} (h : nonce ∈ w.limbo) (hle : w.mined ≤ nonce) :
      GasEnv rules w { w with live := nonce :: w.live, limbo := w.limbo.erase nonce }
  | forgotten {w : GasWorld} (nonce : Nat) :
      GasEnv rules w { w with limbo := w.limbo.erase nonce }
  | dropped {w : GasWorld} {nonce : Nat} (h : rules.drops w nonce) :
      GasEnv rules w { w with live := w.live.filter (· ≠ nonce) }

/-- The worlds a process that makes so many top-ups gets to, over all its restarts. -/
def GasReach (s : EvmSweep) (nonceOf : String → Nat) (rules : NodeRules) (n : Nat) :
    GasWorld → Option (GasProg Unit) → Prop :=
  Reach (GasOp.step s nonceOf rules) (GasEnv rules) (s.process n) GasWorld.Fresh

/-! ## No live nonce is used again -/

/-- **Every allocated nonce is past every live transaction's**, whatever the node does: the count
covers them, and the nonce is not below the count. -/
theorem GasReach.nonce_notMem {s : EvmSweep} {nonceOf : String → Nat} {rules : NodeRules} {n : Nat}
    {w : GasWorld} {p : Option (GasProg Unit)} (h : GasReach s nonceOf rules n w p) :
    ∀ a ∈ w.allocated, a.nonce ∉ a.live := by
  have hle : ∀ (state : GasState) chain, chain ≤ state.next chain := fun state chain => by
    unfold GasState.next
    cases state.nextNonce with
    | none => exact le_rfl
    | some mark => exact le_max_right _ _
  induction h with
  | init hfresh => simp [show _ = _ from hfresh]
  | env _ henv ih => cases henv <;> exact ih
  | start _ ih => exact ih
  | stop _ ih => exact ih
  | @step w w' op k a _ hstep ih =>
    cases op with
    | allocate chain =>
      obtain ⟨hcovers, -, -, rfl⟩ := hstep
      intro a ha
      rcases List.mem_cons.mp ha with rfl | ha
      · intro hlive
        exact absurd (hcovers _ hlive) (Nat.not_lt.mpr (hle w.memory chain))
      · exact ih a ha
    | sendRawTransaction rawTx => cases hstep <;> exact ih
    | signNativeTransfer request =>
      obtain ⟨rfl, -⟩ := hstep
      exact ih
    | _ =>
      obtain rfl := hstep
      exact ih

/-! ## No gap -/

/-- Every nonce below the mark is carried. -/
def GasWorld.Idle (w : GasWorld) : Prop :=
  ∀ mark, w.memory.nextNonce = some mark → ∀ k < mark, w.Carried k

/-- A nonce was allocated: the mark is the next one, and every nonce below it is carried. -/
def GasWorld.Holding (nonce : Nat) (w : GasWorld) : Prop :=
  w.memory.nextNonce = some ((nonce + 1) % 2 ^ 64) ∧ nonce + 1 < 2 ^ 64 ∧ ∀ k < nonce, w.Carried k

/-- What a top-up may rely on: its process's memory is its own, and no nonce below the mark loses
its transaction. -/
structure GasWorld.Later (w w' : GasWorld) : Prop where
  memory : w'.memory = w.memory
  allocated : w'.allocated = w.allocated
  carried : ∀ mark, w.memory.nextNonce = some mark → ∀ k < mark, w.Carried k → w'.Carried k

theorem GasWorld.Later.refl (w : GasWorld) : w.Later w := ⟨rfl, rfl, fun _ _ _ _ h => h⟩

theorem GasWorld.Later.trans {w w₁ w₂ : GasWorld} (h : w.Later w₁) (h' : w₁.Later w₂) :
    w.Later w₂ where
  memory := h'.memory.trans h.memory
  allocated := h'.allocated.trans h.allocated
  carried := fun mark hmark k hk hc =>
    h'.carried mark (h.memory ▸ hmark) k hk (h.carried mark hmark k hk hc)

theorem GasWorld.Later.idle {w w' : GasWorld} (h : w.Later w') (hidle : w.Idle) : w'.Idle :=
  fun mark hmark k hk =>
    h.carried mark (h.memory ▸ hmark) k hk (hidle mark (h.memory ▸ hmark) k hk)

theorem GasWorld.Later.holding {w w' : GasWorld} {nonce : Nat} (h : w.Later w')
    (hholding : w.Holding nonce) : w'.Holding nonce := by
  obtain ⟨hmark, hlt, hcarried⟩ := hholding
  refine ⟨h.memory ▸ hmark, hlt, fun k hk => h.carried _ hmark k ?_ (hcarried k hk)⟩
  rw [Nat.mod_eq_of_lt hlt]
  omega

/-- The world of a process whose node is faithful. -/
def gasStation (s : EvmSweep) (nonceOf : String → Nat) : World GasOp GasOp.Ans GasWorld where
  step := GasOp.step s nonceOf .faithful
  rely := GasWorld.Later
  inv w := ∀ a ∈ w.allocated, a.NoGap

/-- **What a faithful node does** takes no transaction from a nonce below the mark. -/
theorem GasEnv.later {w w' : GasWorld} (h : GasEnv .faithful w w') : w.Later w' := by
  cases h with
  | mined h =>
    refine ⟨rfl, rfl, fun mark hmark k hk hc => ?_⟩
    rcases hc with hc | hc
    · exact .inl (Nat.lt_succ_of_lt hc)
    · by_cases hk : k = w.mined
      · exact .inl (by show k < w.mined + 1; omega)
      · exact .inr (List.mem_filter.mpr ⟨hc, by simpa using hk⟩)
  | arrived h hle =>
    exact ⟨rfl, rfl, fun _ _ _ _ hc => hc.imp_right (List.mem_cons_of_mem _)⟩
  | forgotten nonce => exact ⟨rfl, rfl, fun _ _ _ _ hc => hc⟩
  | @dropped nonce h =>
    refine ⟨rfl, rfl, fun mark hmark k hk hc => hc.imp_right fun hlive => ?_⟩
    have := h mark hmark
    exact List.mem_filter.mpr ⟨hlive, by simp; omega⟩

section TopUp

variable {s : EvmSweep} {nonceOf : String → Nat} {α : Type} {Q : α → GasWorld → Prop}
  {E : SweepError → GasWorld → Prop} {w : GasWorld}

/-- An operation that leaves the station alone. -/
theorem wp_gasQuiet {op : GasOp} {k : op.Ans → GasProg α} {J : GasWorld → Prop}
    (hquiet : ∀ w a w', GasOp.step s nonceOf .faithful op w a w' → w' = w)
    (hstable : ∀ w w', w.Later w' → J w → J w') (h : J w)
    (hk : ∀ a w, J w → (gasStation s nonceOf).wp Q E (k a) w) :
    (gasStation s nonceOf).wp Q E (.call op k) w := by
  intro w₁ hr hi a w₂ hs
  obtain rfl := hquiet w₁ a w₂ hs
  exact ⟨hi, hk a _ (hstable _ _ hr h)⟩

/-- **The nonce allocated last is freed**: the mark is back where every nonce below it is
carried. -/
theorem wp_free {nonce : Nat} {k : Unit → GasProg α} (h : w.Holding nonce)
    (hk : ∀ w, w.Idle → (gasStation s nonceOf).wp Q E (k ()) w) :
    (gasStation s nonceOf).wp Q E (.call (.free nonce) k) w := by
  intro w₁ hr hi a w₂ hs
  obtain rfl := hs
  obtain ⟨hmark, -, hcarried⟩ := hr.holding h
  refine ⟨hi, hk _ fun mark hfreed k hk => ?_⟩
  have hfree : w₁.memory.free nonce = ⟨some nonce⟩ := if_pos hmark
  obtain rfl : nonce = mark := by
    rw [hfree] at hfreed
    exact Option.some.inj hfreed
  exact hcarried k hk

/-- **An allocated nonce leaves no gap**: it is the count or the mark, and every nonce below either
is carried. -/
theorem wp_nextGasNonce (h : w.Idle) : (gasStation s nonceOf).wp (fun nonce w' => w'.Holding nonce)
    (fun _ w' => w'.Idle) nextGasNonce w := by
  refine wp_gasQuiet (fun _ _ _ hs => hs) (fun _ _ hr => hr.idle) h fun answer w hidle => ?_
  cases answer with
  | error e => exact hidle
  | ok chain =>
    intro w₁ hr hi nonce w₂ hs
    obtain ⟨-, ⟨hcount, hlt⟩, rfl, rfl⟩ := hs
    have hcarried : ∀ k < w₁.memory.next chain, w₁.Carried k := by
      intro k hk
      cases hmark : w₁.memory.nextNonce with
      | none =>
        rw [GasState.next, hmark] at hk
        exact hcount k hk
      | some mark =>
        rw [GasState.next, hmark] at hk
        rcases lt_max_iff.mp hk with hk | hk
        · exact hr.idle hidle mark hmark k hk
        · exact hcount k hk
    refine ⟨fun a ha => ?_, rfl, hlt, hcarried⟩
    rcases List.mem_cons.mp ha with rfl | ha
    · exact hcarried
    · exact hi a ha

/-- **After its broadcast** a nonce is carried, or not known to be and freed. -/
theorem wp_broadcast {address rawTx : String} {nonce : Nat} (hraw : nonceOf rawTx = nonce)
    (h : w.Holding nonce) :
    (gasStation s nonceOf).wp (fun _ w' => w'.Idle) (fun _ w' => w'.Idle)
      ((s.broadcast rawTx).bind (afterBroadcast address nonce)) w := by
  subst hraw
  intro w₁ hr hi answer w₂ hs
  have hholding := hr.holding h
  -- admitted: the nonce itself is carried now, so all below the mark are
  have hadmitted : ∀ w' : GasWorld, w'.memory = w₁.memory →
      (∀ k, w₁.Carried k → w'.Carried k) → w'.Carried (nonceOf rawTx) → w'.Idle := by
    intro w' hmemory hmore hnonce mark hmark k hk
    obtain ⟨hmark', hlt, hcarried⟩ := hholding
    rw [hmemory, hmark', Nat.mod_eq_of_lt hlt] at hmark
    obtain rfl := Option.some.inj hmark
    rcases Nat.lt_succ_iff_lt_or_eq.mp hk with hk | rfl
    · exact hmore k (hcarried k hk)
    · exact hnonce
  have hrejected : ∀ w' : GasWorld, w'.Holding (nonceOf rawTx) →
      (gasStation s nonceOf).wp (fun _ w' => w'.Idle) (fun _ w' => w'.Idle)
        (afterBroadcast address (nonceOf rawTx) .rejected) w' := fun w' hw' =>
    wp_free hw' fun w hidle =>
      wp_gasQuiet (fun _ _ _ hs => hs) (fun _ _ hr => hr.idle) hidle fun _ _ hidle => hidle
  cases hs with
  | accepted hash hle =>
    exact ⟨hi, hadmitted _ rfl (fun k hc => hc.imp_right (List.mem_cons_of_mem _))
      (.inr List.mem_cons_self)⟩
  | accounted hidem hcarried =>
    refine ⟨hi, ?_⟩
    simp only [Prog.ret_bind, EvmSweep.classify, hidem, if_true]
    exact hadmitted _ rfl (fun _ hc => hc) hcarried
  | refused hidem =>
    refine ⟨hi, ?_⟩
    simp only [Prog.ret_bind, EvmSweep.classify, hidem, Bool.false_eq_true, if_false]
    exact hrejected _ hholding
  | unreadable hidem =>
    refine ⟨hi, ?_⟩
    simp only [Prog.ret_bind, EvmSweep.classify, hidem, Bool.false_eq_true, if_false]
    exact hrejected _ hholding
  | lost detail => exact ⟨hi, wp_free hholding fun _ hidle => hidle⟩

/-- **A top-up leaves every nonce below the mark carried**, however it ends. -/
theorem wp_topUpGas {address : String} {needed gasPrice : Nat} (h : w.Idle) :
    (gasStation s nonceOf).wp (fun _ w' => w'.Idle) (fun _ w' => w'.Idle)
      (s.topUpGas address needed gasPrice) w := by
  refine wp_gasQuiet (fun _ _ _ hs => hs) (fun _ _ hr => hr.idle) h fun recently w hidle => ?_
  cases recently with
  | true => exact hidle
  | false =>
    refine wp_gasQuiet (fun _ _ _ hs => hs) (fun _ _ hr => hr.idle) hidle fun held w hidle => ?_
    cases held with
    | true => exact hidle
    | false =>
      show (gasStation s nonceOf).wp _ _ (nextGasNonce.bind _) w
      refine World.wp_bind.mpr (World.wp_mono (wp_nextGasNonce hidle) (fun nonce w hholding => ?_)
        fun _ _ hidle => hidle)
      intro w₁ hr hi answer w₂ hs
      obtain ⟨rfl, hsigned⟩ := hs
      have hholding := hr.holding hholding
      refine ⟨hi, ?_⟩
      cases answer with
      | error status => exact wp_free hholding fun _ hidle => hidle
      | ok signed =>
        refine wp_gasQuiet (fun _ _ _ hs => hs) (fun _ _ hr => hr.holding) hholding
          fun _ w hholding => ?_
        exact wp_gasQuiet (fun _ _ _ hs => hs) (fun _ _ hr => hr.holding) hholding
          fun _ w hholding => wp_broadcast (hsigned signed rfl) hholding

/-- So do any number of them. -/
theorem wp_topUps (n : Nat) : ∀ {w : GasWorld}, w.Idle →
    (gasStation s nonceOf).wp (fun _ _ => True) (fun _ _ => True) (s.topUps n) w := by
  induction n with
  | zero => exact fun _ => trivial
  | succ n ih =>
    intro w h
    refine wp_gasQuiet (fun _ _ _ hs => hs) (fun _ _ hr => hr.idle) h fun asked w hidle => ?_
    obtain ⟨address, needed, gasPrice⟩ := asked
    show (gasStation s nonceOf).wp _ _ ((s.topUpGas address needed gasPrice).outcome.bind _) w
    exact World.wp_bind.mpr (World.wp_outcome.mpr (World.wp_mono (wp_topUpGas hidle)
      (fun _ _ hidle => ih hidle) fun _ _ hidle => ih hidle))

end TopUp

/-! ## Runs -/

/-- A run leaves no gap while the node is faithful: its operations keep what each of them relies
on, and a process begins without a mark. -/
theorem GasReach.noGap {s : EvmSweep} {nonceOf : String → Nat} {n : Nat} {w : GasWorld}
    {p : Option (GasProg Unit)} (h : GasReach s nonceOf .faithful n w p) :
    ∀ a ∈ w.allocated, a.NoGap := by
  refine (Reach.invariant (S := gasStation s nonceOf) GasWorld.Later.refl
    (fun _ _ _ => GasWorld.Later.trans) ?_ ?_ ?_ h).1
  · intro w hfresh a ha
    rw [show w.allocated = [] from hfresh] at ha
    cases ha
  · intro w w' hinv henv
    have hlater := henv.later
    refine ⟨hlater, fun a ha => hinv a ?_⟩
    rw [← hlater.allocated]
    exact ha
  · intro w _ w₁ _ hi _ w₂ hs
    obtain rfl := hs
    exact ⟨hi, wp_topUps n fun mark hmark => nomatch hmark⟩

/-- **The gas station's nonces.** In every run, whatever the node does, no nonce is allocated while
a live transaction carries it. In every run of a faithful node, none is allocated above one that no
mined or live transaction carries. -/
theorem gas_nonces (s : EvmSweep) (nonceOf : String → Nat) (n : Nat) (w : GasWorld)
    (p : Option (GasProg Unit)) :
    (∀ rules, GasReach s nonceOf rules n w p → ∀ a ∈ w.allocated, a.nonce ∉ a.live) ∧
    (GasReach s nonceOf .faithful n w p → ∀ a ∈ w.allocated, a.NoGap) :=
  ⟨fun _ h => h.nonce_notMem, fun h => h.noGap⟩

/-- **An admitted top-up** takes a run on: its nonce is allocated and live. -/
theorem GasReach.topUp {s : EvmSweep} {nonceOf : String → Nat} {rules : NodeRules} {n left : Nat}
    {w : GasWorld} (h : GasReach s nonceOf rules n w (some (s.topUps (left + 1))))
    (address : String) (chain : Nat) (signed : SignedNative)
    (hcovers : ∀ live ∈ w.live, live < chain) (hcounts : rules.counts w chain)
    (hsigned : nonceOf signed.rawTx = w.memory.next chain)
    (hmined : w.mined ≤ w.memory.next chain) :
    GasReach s nonceOf rules n
      { w.allocate chain with live := w.memory.next chain :: w.live } (some (s.topUps left)) := by
  have hnext := Reach.step (a := (address, 0, 0)) h rfl
  have hgrace := Reach.step (a := false) hnext rfl
  have hheld := Reach.step (a := false) hgrace rfl
  have hcount := Reach.step (a := .ok chain) hheld rfl
  have hnonce := Reach.step (a := w.memory.next chain) hcount ⟨hcovers, hcounts, rfl, rfl⟩
  have hsign := Reach.step (a := .ok signed) hnonce
    ⟨rfl, fun _ heq => Except.ok.inj heq ▸ hsigned⟩
  have hrelease := Reach.step (a := ()) hsign rfl
  have hnote := Reach.step (a := ()) hrelease rfl
  have hsend : GasOp.step s nonceOf rules (.sendRawTransaction signed.rawTx) (w.allocate chain)
      (.ok signed.txHash) { w.allocate chain with live := w.memory.next chain :: w.live } := by
    show Sends s (nonceOf signed.rawTx) _ _ _
    rw [hsigned]
    exact .accepted signed.txHash hmined
  exact Reach.step hnote hsend

/-- A sweep of the BSC rail. -/
def sampleEvmSweep : EvmSweep := ⟨"bep20", 56, 3, 300000000000000, String.map Char.toLower⟩

/-- A signed text that says its nonce by its length. -/
def sampleTopUp (nonce : Nat) : SignedNative := ⟨String.ofList (List.replicate nonce '0'), "0x"⟩

/-- A station that never sent anything, and what its first top-up leaves. -/
def sampleStation : GasWorld := ⟨0, [], [], ⟨none⟩, []⟩

/-- A first top-up at the nonce none, admitted. -/
theorem sampleStation_topUp (rules : NodeRules) (hcounts : rules.counts sampleStation 0) :
    GasReach sampleEvmSweep String.length rules 2 ⟨0, [0], [], ⟨some 1⟩, [⟨0, 0, []⟩]⟩
      (some (sampleEvmSweep.topUps 1)) := by
  have hbooted : GasReach sampleEvmSweep String.length rules 2 sampleStation
      (some (sampleEvmSweep.topUps 2)) :=
    Reach.step (a := ()) (.start (.init (show sampleStation.Fresh from rfl))) rfl
  exact hbooted.topUp "0xa" 0 (sampleTopUp 0) (by simp [sampleStation]) hcounts rfl le_rfl

/-- A second top-up follows the first: the count covers it, and both nonces are allocated. -/
theorem gas_nonces_sample :
    (∃ p, GasReach sampleEvmSweep String.length .faithful 2
      ⟨0, [1, 0], [], ⟨some 2⟩, [⟨1, 0, [0]⟩, ⟨0, 0, []⟩]⟩ p) ∧
    Allocation.NoGap ⟨1, 0, [0]⟩ ∧ 1 ∉ [0] := by
  have hfirst := sampleStation_topUp .faithful ⟨by simp, by decide⟩
  have hsecond := hfirst.topUp "0xb" 1 (sampleTopUp 1) (by simp)
    ⟨fun k hk => .inr (by simp; omega), by decide⟩ rfl (Nat.zero_le _)
  exact ⟨⟨_, hsecond⟩, (gas_nonces _ _ 2 _ _).2 hsecond _ List.mem_cons_self,
    (gas_nonces _ _ 2 _ _).1 _ hsecond _ List.mem_cons_self⟩

/-- **A dropped top-up leaves a gap.** The first top-up is admitted and dropped; the node counts
none again, and the second one is signed at nonce one all the same, above nonce none, which nothing
carries. -/
theorem dropped_topUp_leaves_gap :
    ∃ w p, GasReach sampleEvmSweep String.length ⟨fun _ _ => True, NodeRules.faithful.counts⟩ 2 w p ∧
      ∃ a ∈ w.allocated, a.nonce = 1 ∧ a.mined = 0 ∧ a.live = [] ∧ ¬ a.NoGap := by
  have hfirst := sampleStation_topUp ⟨fun _ _ => True, NodeRules.faithful.counts⟩
    ⟨by simp, by decide⟩
  have hdropped := Reach.env hfirst (@GasEnv.dropped _ _ 0 trivial)
  have hsecond := GasReach.topUp hdropped "0xb" 0 (sampleTopUp 1) (by simp)
    ⟨by simp, by decide⟩ rfl (Nat.zero_le _)
  refine ⟨_, _, hsecond, ⟨1, 0, []⟩, List.mem_cons_self, rfl, rfl, rfl, fun hgap => ?_⟩
  rcases hgap 0 Nat.zero_lt_one with hcarried | hcarried
  · exact absurd hcarried (Nat.lt_irrefl 0)
  · cases hcarried

end Banking
