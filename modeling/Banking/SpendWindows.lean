import Banking.SignedTransfers

/-! # What a request charges to its windows

The protocol of a signing request towards the spend ledger: a window is charged right after it was
locked and summed, within the ceiling of the policy the request runs under; only what was charged is
given back; all of it is before a refusal is answered, none of it before a signature is, and nothing
is asked after the answer. Every handler keeps it, however it is answered. -/

namespace Banking

open Interactive (Prog Journal World journaling journaling_call)

/-! ## What a journal says -/

/-- The policy a request runs under: the environment's, tightened by the brake it read first. -/
def policyOf (env : SignerPolicy) (j : SignerJournal) : SignerPolicy :=
  match j.getLast? with
  | some ⟨.readBrake, .ok row⟩ =>
    match SpendBrake.ofRow row with
    | .ok brake => env.tightened brake
    | .error _ => env
  | _ => env

/-- What is asked next does not change it. -/
theorem policyOf_cons (env : SignerPolicy) {j : SignerJournal} (hj : j ≠ [])
    (e : Σ op : SignerOp, op.Ans) : policyOf env (e :: j) = policyOf env j := by
  unfold policyOf
  rw [List.getLast?_cons_of_ne_nil hj]

/-- A row was charged. -/
def SpendCharged (j : SignerJournal) (row : Nat) : Prop :=
  ∃ held key spend now, ⟨.record held key spend now, .ok row⟩ ∈ j

/-- A row was asked to be given back. -/
def SpendReleased (j : SignerJournal) (row : Nat) : Prop := ∃ a, ⟨.release row, a⟩ ∈ j

/-- Nothing was answered yet. -/
def Unanswered (j : SignerJournal) : Prop := ∀ outcome a, ⟨.respond outcome, a⟩ ∉ j

/-- The protocol of a request towards its windows. -/
def ChargesWithin (env : SignerPolicy) (j : SignerJournal) (op : SignerOp) : Prop :=
  Unanswered j ∧
    match op with
    | .record held key spend now => ∃ count spent earlier,
      j = ⟨.spent held key now, .ok spent⟩ :: ⟨.lock key, .ok count⟩ :: earlier ∧
        held = [(key, count)] ∧ spent.val + spend.val ≤ (policyOf env j).windowCeiling key
    | .release row => SpendCharged j row
    | .respond (.ok _) => ∀ row, ¬ SpendReleased j row
    | .respond (.error _) => ∀ row, SpendCharged j row → SpendReleased j row
    | _ => True

/-! ## A request under way -/

/-- Not a step that charges a window, gives one back or answers. -/
def SignerOp.Plain : SignerOp → Prop
  | .record .. | .release _ | .respond _ => False
  | _ => True

/-- A request under way: what it has charged, it has charged for good. -/
structure Charging (env policy : SignerPolicy) (charged : List Nat) (j : SignerJournal) :
    Prop where
  begun : j ≠ []
  policy : policyOf env j = policy
  unanswered : Unanswered j
  kept : ∀ row, ¬ SpendReleased j row
  charged : ∀ row, SpendCharged j row ↔ row ∈ charged

/-- A request refused: whatever it charged, it has asked to give back. -/
structure GivenBack (j : SignerJournal) : Prop where
  unanswered : Unanswered j
  released : ∀ row, SpendCharged j row → SpendReleased j row

section Journals

variable {env policy : SignerPolicy} {charged : List Nat} {j : SignerJournal}

theorem spendCharged_cons {e : Σ op : SignerOp, op.Ans} {row : Nat}
    (he : ∀ held key spend now, e ≠ ⟨.record held key spend now, .ok row⟩) :
    SpendCharged (e :: j) row ↔ SpendCharged j row := by
  constructor
  · rintro ⟨held, key, spend, now, hmem⟩
    rcases List.mem_cons.mp hmem with heq | hmem
    · exact absurd heq.symm (he held key spend now)
    · exact ⟨held, key, spend, now, hmem⟩
  · rintro ⟨held, key, spend, now, hmem⟩
    exact ⟨held, key, spend, now, List.mem_cons_of_mem _ hmem⟩

theorem spendReleased_cons {op : SignerOp} {a : op.Ans} {row : Nat} (hop : op ≠ .release row) :
    SpendReleased (⟨op, a⟩ :: j) row ↔ SpendReleased j row := by
  constructor
  · rintro ⟨a', hmem⟩
    rcases List.mem_cons.mp hmem with heq | hmem
    · exact absurd (congrArg Sigma.fst heq).symm hop
    · exact ⟨a', hmem⟩
  · exact fun ⟨a', hmem⟩ => ⟨a', List.mem_cons_of_mem _ hmem⟩

theorem Unanswered.cons {op : SignerOp} {a : op.Ans} (h : Unanswered j)
    (hop : ∀ outcome, op ≠ .respond outcome) : Unanswered (⟨op, a⟩ :: j) := by
  intro outcome a' hmem
  rcases List.mem_cons.mp hmem with heq | hmem
  · exact hop outcome (congrArg Sigma.fst heq).symm
  · exact h outcome a' hmem

/-- A request that has asked one more thing: neither a row more, nor one given back, nor an answer.
-/
theorem Charging.cons {op : SignerOp} {a : op.Ans} (h : Charging env policy charged j)
    (hrelease : ∀ row, op ≠ .release row) (hrespond : ∀ outcome, op ≠ .respond outcome)
    (hrecord : ∀ held key spend now row,
      (⟨op, a⟩ : Σ op : SignerOp, op.Ans) ≠ ⟨.record held key spend now, .ok row⟩) :
    Charging env policy charged (⟨op, a⟩ :: j) where
  begun := List.cons_ne_nil _ _
  policy := (policyOf_cons env h.begun _).trans h.policy
  unanswered := h.unanswered.cons hrespond
  kept row := fun hrow => h.kept row ((spendReleased_cons (hrelease row)).mp hrow)
  charged row := (spendCharged_cons fun held key spend now =>
    hrecord held key spend now row).trans (h.charged row)

theorem Charging.plain {op : SignerOp} {a : op.Ans} (h : Charging env policy charged j)
    (hop : op.Plain) : Charging env policy charged (⟨op, a⟩ :: j) := by
  refine h.cons ?_ ?_ ?_
  · rintro row rfl
    exact hop
  · rintro outcome rfl
    exact hop
  · intro held key spend now row heq
    obtain rfl := congrArg Sigma.fst heq
    exact hop

/-- A row charged. -/
theorem Charging.recorded {held : Interactive.Held WindowKey} {key : WindowKey} {spend : U128}
    {now : Int} {row : Nat} (h : Charging env policy charged j) :
    Charging env policy (charged ++ [row]) (⟨.record held key spend now, .ok row⟩ :: j) where
  begun := List.cons_ne_nil _ _
  policy := (policyOf_cons env h.begun _).trans h.policy
  unanswered := h.unanswered.cons fun _ => by simp
  kept r := fun hrow => h.kept r ((spendReleased_cons (by simp)).mp hrow)
  charged r := by
    rw [List.mem_append, List.mem_singleton, ← h.charged r]
    constructor
    · rintro ⟨held', key', spend', now', hmem⟩
      rcases List.mem_cons.mp hmem with heq | hmem
      · cases heq
        exact .inr rfl
      · exact .inl ⟨held', key', spend', now', hmem⟩
    · rintro (⟨held', key', spend', now', hmem⟩ | rfl)
      · exact ⟨held', key', spend', now', List.mem_cons_of_mem _ hmem⟩
      · exact ⟨held, key, spend, now, List.mem_cons_self⟩

/-- Nothing charged, nothing to give back. -/
theorem Charging.refused (h : Charging env policy [] j) : GivenBack j :=
  ⟨h.unanswered, fun row hrow => absurd ((h.charged row).mp hrow) List.not_mem_nil⟩

end Journals

/-! ## Steps of a handler -/

section Steps

variable {env policy : SignerPolicy} {charged : List Nat} {j : SignerJournal} {α β : Type}

/-- The condition of a handler, refused wherever it fails. -/
abbrev Charges (env : SignerPolicy) {α : Type} (Q : α → SignerJournal → Prop) (p : SignerProg α)
    (j : SignerJournal) : Prop :=
  (journaling (ChargesWithin env)).wp Q (fun _ => GivenBack) p j

/-- A part that touches no window. -/
theorem charges_plain {p : SignerProg α} (hp : p.Within SignerOp.Plain)
    (h : Charging env policy charged j) :
    (journaling (ChargesWithin env)).wp (fun _ => Charging env policy charged)
      (fun _ => Charging env policy charged) p j := by
  refine World.wp_within hp ?_ ?_ h
  · rintro w w' rfl hw
    exact hw
  · rintro op w a w' hop hkeeps hw rfl
    refine ⟨⟨⟨hw.unanswered, ?_⟩, hkeeps⟩, hw.plain hop⟩
    cases op <;> first | exact hop.elim | trivial

/-- A part before any charge, and the rest from there. -/
theorem charges_before {p : SignerProg α} {f : α → SignerProg β} {Q : β → SignerJournal → Prop}
    (hp : p.Within SignerOp.Plain) (h : Charging env policy [] j)
    (hf : ∀ a j', Charging env policy [] j' → Charges env Q (f a) j') :
    Charges env Q (p >>= f) j :=
  wp_andThen (World.wp_mono (charges_plain hp h) hf fun _ _ h' => h'.refused)

/-- A check passed before any charge. -/
theorem charges_passed {r : Except SignerStatus α} {f : α → SignerProg β}
    {Q : β → SignerJournal → Prop} (h : Charging env policy [] j)
    (hf : ∀ a, r = .ok a → Charges env Q (f a) j) : Charges env Q (passed r >>= f) j :=
  wp_andThen (wp_passed (fun _ _ => h.refused) hf)

/-- Everything charged is given back, one row after another. -/
theorem charges_released (h : Charging env policy charged j) (status : SignerStatus) :
    Charges env (fun _ _ => False) (orRelease charged (.error status) : SignerProg α) j := by
  refine wp_andThen ?_
  have hloop : Charges env (fun _ j' => Unanswered j' ∧
      (∀ row, SpendCharged j' row ↔ row ∈ charged) ∧ ∀ row ∈ charged, SpendReleased j' row)
      (Prog.each (fun row => .call (.release row) fun _ => .ret ()) charged) j := by
    refine World.wp_each (J := fun done j' => Unanswered j' ∧
      (∀ row, SpendCharged j' row ↔ row ∈ charged) ∧ ∀ row ∈ done, SpendReleased j' row) ?_
      ⟨h.unanswered, h.charged, fun row hrow => absurd hrow List.not_mem_nil⟩
    rintro done row rest hsplit j' ⟨hunanswered, hcharged, hreleased⟩
    have hmine : SpendCharged j' row := (hcharged row).mpr (by rw [hsplit]; simp)
    refine journaling_call ⟨hunanswered, hmine⟩ fun a => ⟨hunanswered.cons fun _ => by simp,
      fun r => (spendCharged_cons fun _ _ _ _ => by simp).trans (hcharged r), fun r hr => ?_⟩
    rcases List.mem_append.mp hr with hr | hr
    · obtain ⟨a', hmem⟩ := hreleased r hr
      exact ⟨a', List.mem_cons_of_mem _ hmem⟩
    · obtain rfl := List.mem_singleton.mp hr
      exact ⟨a, List.mem_cons_self⟩
  refine World.wp_mono hloop ?_ fun _ _ hgiven => hgiven
  rintro _ j' ⟨hunanswered, hcharged, hreleased⟩
  exact ⟨hunanswered, fun row hrow => hreleased row ((hcharged row).mp hrow)⟩

/-- An outcome passed through, or everything given back. -/
theorem charges_orRelease (policy : SignerPolicy) {p : SignerProg α} {Q : α → SignerJournal → Prop}
    (hp : (journaling (ChargesWithin env)).wp Q (fun _ => Charging env policy charged) p j) :
    Charges env Q (Prog.outcome p >>= orRelease charged) j := by
  refine wp_andThen (World.wp_outcome.mpr (World.wp_mono hp (fun _ _ hq => hq) ?_))
  exact fun status j' h => World.wp_mono (charges_released h status) (fun _ _ hno => hno.elim)
    fun _ _ hgiven => hgiven

/-- A question whose failure leaves the request as it was, and the rest. -/
theorem charges_ask {op : SignerOp} {f : op.Value → SignerProg β} {Q : β → SignerJournal → Prop}
    (h : Charging env policy charged j) (hop : op.Plain)
    (hf : ∀ a, Charging env policy charged (⟨op, .ok a⟩ :: j) →
      (journaling (ChargesWithin env)).wp Q (fun _ => Charging env policy charged) (f a)
        (⟨op, .ok a⟩ :: j)) :
    (journaling (ChargesWithin env)).wp Q (fun _ => Charging env policy charged)
      (askSigner op >>= f) j := by
  refine wp_andThen (wp_askSigner ⟨h.unanswered, ?_⟩ (fun status => h.plain hop) fun a =>
    hf a (h.plain hop))
  cases op <;> first | exact hop.elim | trivial

/-- **A spend charged** is charged within the ceiling, to a window locked and summed. -/
theorem charges_charge (h : Charging env policy charged j) (key : WindowKey) (spend : U128) :
    Charges env (fun charged' => Charging env policy charged') (charge policy charged key spend)
      j := by
  have hreserved : Charges env (fun row => Charging env policy (charged ++ [row]))
      (Prog.outcome (do
        let window ← openWindow key
        passed (policy.checkWindow key window.spent spend)
        askSigner (.record window.held key spend window.now)) >>= orRelease charged) j := by
    refine charges_orRelease policy ?_
    refine wp_andThen (charges_ask h trivial fun now h => charges_ask h trivial fun count h =>
      charges_ask h trivial fun spent h => ?_)
    refine wp_andThen (wp_passed (fun _ _ => h) fun _ hcheck => ?_)
    refine wp_askSigner ⟨h.unanswered, count, spent, _, rfl, rfl, ?_⟩ (fun status => ?_) fun row =>
      h.recorded
    · rw [h.policy]
      exact SignerPolicy.checkWindow_ok.mp hcheck
    · exact h.cons (fun _ => by simp) (fun _ => by simp) fun _ _ _ _ _ heq => by cases heq
  refine wp_andThen (World.wp_mono (World.wp_bind.mp hreserved) (fun _ _ hrow => ?_)
    fun _ _ hgiven => hgiven)
  exact wp_andThen (World.wp_mono hrow (fun _ _ h => h) fun _ _ hgiven => hgiven)

/-- A spend charged, and the rest from there. -/
theorem charges_after {f : List Nat → SignerProg β} {Q : β → SignerJournal → Prop}
    (h : Charging env policy charged j) (key : WindowKey) (spend : U128)
    (hf : ∀ charged' j', Charging env policy charged' j' → Charges env Q (f charged') j') :
    Charges env Q (charge policy charged key spend >>= f) j :=
  wp_andThen (World.wp_mono (charges_charge h key spend) hf fun _ _ hgiven => hgiven)

theorem charges_treasuryUsdt {f : List Nat → SignerProg β} {Q : β → SignerJournal → Prop}
    (h : Charging env policy charged j) (walletClass : WalletClass) (network : Network)
    (amount : U128)
    (hf : ∀ charged' j', Charging env policy charged' j' → Charges env Q (f charged') j') :
    Charges env Q (chargeTreasuryUsdt policy charged walletClass network amount >>= f) j := by
  cases walletClass with
  | treasury => exact charges_after h _ amount hf
  | gasStation => exact hf charged j h
  | deposit => exact hf charged j h

/-- The signature, or everything given back. -/
theorem charges_signed {p : SignerProg α} (hp : p.Within SignerOp.Plain)
    (h : Charging env policy charged j) :
    Charges env (fun _ => Charging env policy charged) (Prog.outcome p >>= orRelease charged) j :=
  charges_orRelease policy (charges_plain hp h)

end Steps

/-! ## Every handler keeps the protocol -/

section Handlers

variable {lib : ChainLib} {env policy : SignerPolicy} {j : SignerJournal}

theorem guardTokenTransfer_plain (walletClass : WalletClass) (network : Network)
    (token : Option String) (toAddress : String) (amount : U128) :
    (guardTokenTransfer lib policy walletClass network token toAddress amount).Within
      SignerOp.Plain := by
  cases walletClass with
  | treasury => exact passed_quiet _
  | gasStation => trivial
  | deposit => exact (askSigner_within trivial).bind fun _ => passed_quiet _

theorem guardNativeTransfer_plain (walletClass : WalletClass) (network : Network)
    (toAddress : String) (amount : U128) :
    (guardNativeTransfer lib policy walletClass network toAddress amount).Within
      SignerOp.Plain := by
  cases walletClass with
  | treasury => exact passed_quiet _
  | gasStation =>
    refine Prog.Within.bind ?_ fun _ => passed_quiet _
    unfold findActiveByAddress
    cases lib.storedRendering network toAddress with
    | none => trivial
    | some rendering => exact (askSigner_within trivial).bind fun _ => trivial
  | deposit => trivial

theorem guardFirstUse_plain (wallet : Uuid) (ours : String) :
    (guardFirstUse lib wallet ours).Within SignerOp.Plain := by
  refine (passed_quiet _).bind fun rendering => Prog.Within.bind ?_ fun learned => ?_
  · refine (askSigner_within trivial).bind fun learned => ?_
    cases learned with
    | true => trivial
    | false => exact (askSigner_within trivial).bind fun _ => (passed_quiet _).bind fun _ => trivial
  · cases learned with
    | none => trivial
    | some pinned => exact passed_quiet _

theorem guardJettonWallet_plain (walletClass : WalletClass) (wallet : Uuid) (ours : String) :
    (guardJettonWallet lib policy walletClass wallet ours).Within SignerOp.Plain := by
  unfold guardJettonWallet
  cases walletClass with
  | gasStation => trivial
  | treasury =>
    cases policy.tonTreasuryJettonWallet with
    | some pinned => exact passed_quiet _
    | none => exact guardFirstUse_plain wallet ours
  | deposit => exact guardFirstUse_plain wallet ours

theorem guardResponseDestination_plain (walletClass : WalletClass) (publicKey : List UInt8)
    (response : String) :
    (guardResponseDestination lib policy walletClass publicKey response).Within
      SignerOp.Plain := by
  refine (passed_quiet _).bind fun own => ?_
  cases walletClass with
  | treasury => exact passed_quiet _
  | gasStation => trivial
  | deposit =>
    exact (askSigner_within trivial).bind fun _ => (askSigner_within trivial).bind fun _ =>
      passed_quiet _

theorem parseTronRef_plain (refBlockBytes refBlockHash : String) (expiration timestamp : I64) :
    (parseTronRef refBlockBytes refBlockHash expiration timestamp).Within SignerOp.Plain :=
  (passed_quiet _).bind fun _ => (passed_quiet _).bind fun _ => trivial

theorem tonPublicKey_plain (handle : KeyHandle) :
    (tonPublicKey handle).Within SignerOp.Plain :=
  (askSigner_within trivial).bind fun _ => (passed_quiet _).bind fun _ => trivial

theorem ownerAddress_plain (handle : KeyHandle) :
    (ownerAddress lib handle).Within SignerOp.Plain :=
  (askSigner_within trivial).bind fun _ => passed_quiet _

theorem signTx_plain (handle : KeyHandle) (curve : Curve) (tx : ChainTx) :
    (signTx lib handle curve tx).Within SignerOp.Plain :=
  (passed_quiet _).bind fun _ => (askSigner_within trivial).bind fun _ => passed_quiet _

/-- A fee within the budget is a spend that does not overflow. -/
theorem evmNativeSpend_fee {b : FeeBudget} {network : Network} {gasPrice : U128} {gasLimit : U64}
    (h : b.check network (.evm gasPrice gasLimit) = .ok ()) :
    ∃ spend, evmNativeSpend network gasPrice gasLimit 0 = .ok spend := by
  have hfits := (FeeBudget.check_evm_ok h).1
  refine ⟨⟨gasPrice.val * gasLimit.val, hfits⟩, orElse_ok.mpr ?_⟩
  refine Option.bind_eq_some_iff.mpr ⟨⟨_, hfits⟩, dif_pos hfits, ?_⟩
  exact U128.checkedAdd_eq_some.mpr (Nat.add_zero _).symm

/-- What a handler leaves once it has signed. -/
abbrev ChargesSigned (env policy : SignerPolicy) (p : SignerProg SignedResponse)
    (j : SignerJournal) : Prop :=
  Charges env (fun _ j' => ∃ charged, Charging env policy charged j') p j

/-- The signature of a handler that has charged its windows. -/
theorem charges_last {charged : List Nat} {p : SignerProg SignedResponse}
    (hp : p.Within SignerOp.Plain) (h : Charging env policy charged j) :
    ChargesSigned env policy (Prog.outcome p >>= orRelease charged) j :=
  World.wp_mono (charges_signed hp h) (fun _ _ h => ⟨charged, h⟩) fun _ _ hgiven => hgiven

theorem charges_erc20 (r : SignErc20TransferRequest) (h : Charging env policy [] j) :
    ChargesSigned env policy (signErc20Transfer lib policy r) j := by
  refine charges_before (passed_quiet _) h fun network j h => ?_
  refine charges_before (passed_quiet _) h fun _ j h => ?_
  refine charges_before (passed_quiet _) h fun wallet j h => ?_
  refine charges_before (passed_quiet _) h fun token j h => ?_
  refine charges_before (passed_quiet _) h fun recipient j h => ?_
  refine charges_before (passed_quiet _) h fun amount j h => ?_
  refine charges_before (passed_quiet _) h fun gasPrice j h => ?_
  refine charges_passed h fun _ hbudget => ?_
  refine charges_before (guardTokenTransfer_plain _ _ _ _ _) h fun _ j h => ?_
  refine charges_treasuryUsdt h _ _ _ fun charged j h => ?_
  -- the fee budget has bounded the product, so the windows charged are never left behind here
  obtain ⟨spend, hspend⟩ := evmNativeSpend_fee hbudget
  rw [hspend]
  exact charges_after h _ _ fun charged j h => charges_last (signTx_plain _ _ _) h

theorem charges_native (r : SignNativeTransferRequest) (h : Charging env policy [] j) :
    ChargesSigned env policy (signNativeTransfer lib policy r) j := by
  refine charges_before (passed_quiet _) h fun network j h => ?_
  refine charges_before (passed_quiet _) h fun _ j h => ?_
  refine charges_before (passed_quiet _) h fun wallet j h => ?_
  refine charges_before (passed_quiet _) h fun recipient j h => ?_
  refine charges_before (passed_quiet _) h fun amount j h => ?_
  refine charges_before (passed_quiet _) h fun gasPrice j h => ?_
  refine charges_before (passed_quiet _) h fun _ j h => ?_
  refine charges_before (guardNativeTransfer_plain _ _ _ _) h fun _ j h => ?_
  refine charges_before (passed_quiet _) h fun spend j h => ?_
  exact charges_after h _ _ fun charged j h => charges_last (signTx_plain _ _ _) h

theorem charges_trc20 (r : SignTrc20TransferRequest) (h : Charging env policy [] j) :
    ChargesSigned env policy (signTrc20Transfer lib policy r) j := by
  refine charges_before (passed_quiet _) h fun _ j h => ?_
  refine charges_before (passed_quiet _) h fun network j h => ?_
  refine charges_before (passed_quiet _) h fun wallet j h => ?_
  refine charges_before (passed_quiet _) h fun token j h => ?_
  refine charges_before (passed_quiet _) h fun recipient j h => ?_
  refine charges_before (passed_quiet _) h fun amount j h => ?_
  refine charges_before (parseTronRef_plain _ _ _ _) h fun ref j h => ?_
  refine charges_before (passed_quiet _) h fun _ j h => ?_
  refine charges_before (guardTokenTransfer_plain _ _ _ _ _) h fun _ j h => ?_
  refine charges_treasuryUsdt h _ _ _ fun charged j h => ?_
  refine charges_after h _ _ fun charged j h => charges_last ?_ h
  exact (ownerAddress_plain _).bind fun owner => signTx_plain _ _ _

theorem charges_trx (r : SignTrxTransferRequest) (h : Charging env policy [] j) :
    ChargesSigned env policy (signTrxTransfer lib policy r) j := by
  refine charges_before (passed_quiet _) h fun _ j h => ?_
  refine charges_before (passed_quiet _) h fun network j h => ?_
  refine charges_before (passed_quiet _) h fun wallet j h => ?_
  refine charges_before (passed_quiet _) h fun recipient j h => ?_
  refine charges_before (passed_quiet _) h fun amount j h => ?_
  refine charges_before (parseTronRef_plain _ _ _ _) h fun ref j h => ?_
  refine charges_before (guardNativeTransfer_plain _ _ _ _) h fun _ j h => ?_
  refine charges_after h _ _ fun charged j h => charges_last ?_ h
  exact (ownerAddress_plain _).bind fun owner => (passed_quiet _).bind fun raw => signTx_plain _ _ _

theorem charges_jetton (r : SignJettonTransferRequest) (h : Charging env policy [] j) :
    ChargesSigned env policy (signJettonTransfer lib policy r) j := by
  refine charges_before (passed_quiet _) h fun network j h => ?_
  refine charges_before (passed_quiet _) h fun wallet j h => ?_
  refine charges_before (passed_quiet _) h fun amount j h => ?_
  refine charges_before (passed_quiet _) h fun _ j h => ?_
  refine charges_before (guardTokenTransfer_plain _ _ _ _ _) h fun _ j h => ?_
  refine charges_before (guardJettonWallet_plain _ _ _) h fun _ j h => ?_
  refine charges_before (tonPublicKey_plain _) h fun publicKey j h => ?_
  refine charges_before (guardResponseDestination_plain _ _ _) h fun _ j h => ?_
  refine charges_treasuryUsdt h _ _ _ fun charged j h => ?_
  refine charges_after h _ _ fun charged j h => charges_last ?_ h
  exact (passed_quiet _).bind fun message => signTx_plain _ _ _

theorem charges_ton (r : SignTonTransferRequest) (h : Charging env policy [] j) :
    ChargesSigned env policy (signTonTransfer lib policy r) j := by
  refine charges_before (passed_quiet _) h fun network j h => ?_
  refine charges_before (passed_quiet _) h fun wallet j h => ?_
  refine charges_before (passed_quiet _) h fun amount j h => ?_
  refine charges_before (guardNativeTransfer_plain _ _ _ _) h fun _ j h => ?_
  refine charges_after h _ _ fun charged j h => charges_last ?_ h
  exact (tonPublicKey_plain _).bind fun publicKey => (passed_quiet _).bind fun message =>
    signTx_plain _ _ _

theorem charges_signUnder (request : SigningRequest) (h : Charging env policy [] j) :
    ChargesSigned env policy (signUnder lib policy request) j := by
  cases request with
  | erc20 r => exact charges_erc20 r h
  | native r => exact charges_native r h
  | trc20 r => exact charges_trc20 r h
  | trx r => exact charges_trx r h
  | jetton r => exact charges_jetton r h
  | ton r => exact charges_ton r h

/-- **Every request served keeps the protocol**, however it is answered. -/
theorem serveSigning_charges (request : SigningRequest) :
    (journaling (ChargesWithin env)).wp (fun _ _ => True) (fun _ _ => True)
      (serveSigning lib env request) [] := by
  have hnothing : ∀ a, GivenBack [⟨.readBrake, a⟩] := fun a =>
    ⟨fun _ _ hmem => by simp at hmem, fun _ ⟨_, _, _, _, hmem⟩ => by simp at hmem⟩
  have hsign : Charges env (fun _ j' => ∃ policy charged, Charging env policy charged j')
      (sign lib env request) [] := by
    refine wp_andThen (wp_andThen (wp_askSigner ?_ ?_ fun row => ?_))
    · exact ⟨fun _ _ hmem => absurd hmem List.not_mem_nil, trivial⟩
    · exact fun status => hnothing _
    · refine wp_andThen (wp_passed (fun _ _ => hnothing _) fun brake hrow => ?_)
      refine wp_andThen (wp_passed (fun _ _ => hnothing _) fun _ _ => ?_)
      have hbegun : Charging env (env.tightened brake) [] [⟨.readBrake, .ok row⟩] := by
        refine ⟨List.cons_ne_nil _ _, ?_, (hnothing _).unanswered, ?_, ?_⟩
        · simp [policyOf, hrow]
        · rintro _ ⟨_, hmem⟩
          simp at hmem
        · exact fun r => ⟨fun ⟨_, _, _, _, hmem⟩ => by simp at hmem, fun hr => by cases hr⟩
      have hunder : Charges env (fun _ j' => ∃ policy charged, Charging env policy charged j')
          (signUnder lib (env.tightened brake) request) [⟨.readBrake, .ok row⟩] :=
        World.wp_mono (charges_signUnder request hbegun) (fun _ _ ⟨charged, h⟩ => ⟨_, charged, h⟩)
          fun _ _ hgiven => hgiven
      exact hunder
  refine wp_andThen (World.wp_outcome.mpr (World.wp_mono hsign ?_ ?_))
  · rintro response j ⟨policy, charged, h⟩
    exact wp_askSigner ⟨h.unanswered, h.kept⟩ (fun _ => trivial) fun _ => trivial
  · intro status j hgiven
    exact wp_askSigner ⟨hgiven.unanswered, hgiven.released⟩ (fun _ => trivial) fun _ => trivial

end Handlers

end Banking
