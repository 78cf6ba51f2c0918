import Banking.Arrivals

/-! # One transfer, one credit

Any sequence of credits: the watchers' scans, references recorded by hand and seeds. Where every
reference is spelled as the watcher writes it, a transfer is recorded as a deposit once and mints
one seed subscription. A reference spelled otherwise names the same transfer under another key, and
the transfer is credited again. -/

namespace Banking

/-! ## Sequences of credits -/

/-- The reference a rail's watcher writes for a transfer; none for a TON address that was never
provisioned. -/
def spell (R : Rails) : ChainTransfer → Option String
  | .evm _ hash index => some (evmTxRef hash index)
  | .ton transaction owner =>
    (R.holder owner).map fun r => R.feedHash transaction ++ ":" ++ r.text
  | .tron txid recipient => some (txid ++ ":" ++ recipient)

/-- A credit: a transfer a watcher saw (on an EVM rail with the hash as the node wrote it), a
reference recorded by hand, or a seed. A TON address is scanned for the user it was provisioned
for. -/
inductive ArrivalCommand (R : Rails)
  | watchEvm (network : Network) (hash : String) (index : Nat) (user : UserId) (amount : Nat)
  | watchTon (transaction : Nat) (owner : String) (user : UserId) (amount : Nat)
      (held : R.holder owner = some (.user user))
  | watchTron (txid recipient : String) (user : UserId) (amount : Nat)
  | record (v : ChainView R) (raw : String) (network : Network) (expected : Option Nat)
  | seed (v : ChainView R) (raw : String) (network : Network) (expected : Option Nat)
      (depositor : UserId) (priced : Except DomainError Unit) (dies : Bool)

section Commands

variable {R : Rails}

/-- What a watcher does with a transfer it saw for `user`: credit it, unless it moved nothing. -/
def credit (raw : String) (on : ChainTransfer) (network : Network) (user : UserId) (amount : Nat)
    (b : ArrivalBooks) : ArrivalBooks :=
  if amount = 0 then b
  else
    match TxRef.parse raw with
    | .error _ => b
    | .ok ref => (recordDeposit b ref user network amount on).2

/-- The books after a credit. -/
def ArrivalCommand.run : ArrivalCommand R → ArrivalBooks → ArrivalBooks
  | .watchEvm network hash index user amount, b =>
    credit (evmTxRef hash index) (.evm network (lowerHash hash) index) network user amount b
  | .watchTon transaction owner user amount _, b =>
    credit (R.feedHash transaction ++ ":" ++ user.text) (.ton transaction owner) .ton user amount b
  | .watchTron txid recipient user amount, b =>
    credit (txid ++ ":" ++ recipient) (.tron txid recipient) .trc20 user amount b
  | .record v raw network expected, b =>
    match TxRef.parse raw with
    | .error _ => b
    | .ok ref => (recordVerifiedArrival v b ref network expected).2
  | .seed v raw network expected depositor priced dies, b =>
    match TxRef.parse raw with
    | .error _ => b
    | .ok ref => (seedFundCapital v b depositor ref network expected priced dies).2

/-- The reference a credit presents and the transfer it names, where the reference parses and the
rail accepts it. -/
def ArrivalCommand.accepted : ArrivalCommand R → Option (TxRef × ChainTransfer)
  | .watchEvm network hash index _ _ =>
    (TxRef.parse (evmTxRef hash index)).toOption.map fun ref =>
      (ref, .evm network (lowerHash hash) index)
  | .watchTon transaction owner user _ _ =>
    (TxRef.parse (R.feedHash transaction ++ ":" ++ user.text)).toOption.map fun ref =>
      (ref, .ton transaction owner)
  | .watchTron txid recipient _ _ =>
    (TxRef.parse (txid ++ ":" ++ recipient)).toOption.map fun ref => (ref, .tron txid recipient)
  | .record v raw network _ | .seed v raw network _ _ _ _ =>
    match TxRef.parse raw with
    | .error _ => none
    | .ok ref =>
      match inboundTransfer v network ref with
      | .ok (some (on, _)) => some (ref, on)
      | _ => none

/-- A reference is the watcher's own for a transfer. -/
def SpelledFor (R : Rails) (ref : TxRef) (on : ChainTransfer) : Prop :=
  ∃ s, spell R on = some s ∧ TxRef.parse s = .ok ref

/-- A credit whose reference, if accepted, is spelled as the watcher spells its transfer. -/
def ArrivalCommand.Spelled (c : ArrivalCommand R) : Prop :=
  ∀ ref on, c.accepted = some (ref, on) → SpelledFor R ref on

/-- A transfer has one spelling. -/
theorem SpelledFor.unique {ref ref' : TxRef} {on : ChainTransfer} (h : SpelledFor R ref on)
    (h' : SpelledFor R ref' on) : ref = ref' := by
  obtain ⟨s, hs, hp⟩ := h
  obtain ⟨s', hs', hp'⟩ := h'
  rw [hs] at hs'
  cases hs'
  rw [hp] at hp'
  exact Except.ok.inj hp'

/-- The books of spelled credits: every row is keyed by the spelling of its transfer, and no key
twice. -/
structure SpelledBooks (R : Rails) (b : ArrivalBooks) : Prop where
  deposit_spelled : ∀ d ∈ b.deposits, SpelledFor R ⟨d.txRef⟩ d.arrival
  deposit_nodup : (b.deposits.map (·.txRef)).Nodup
  seed_spelled : ∀ s ∈ b.subscriptions, ∃ ref, SpelledFor R ref s.arrival ∧
    s.id = seedSubscriptionId ref
  seed_nodup : (b.subscriptions.map (·.id)).Nodup

/-- A row recorded under a spelled reference. -/
theorem SpelledBooks.recordDeposit {b : ArrivalBooks} (h : SpelledBooks R b) {ref : TxRef}
    {on : ChainTransfer} (href : SpelledFor R ref on) (user : UserId) (network : Network)
    (amount : Nat) : SpelledBooks R (recordDeposit b ref user network amount on).2 := by
  unfold Banking.recordDeposit
  split
  · exact h
  · unfold ArrivalBooks.record
    by_cases hany : b.deposits.any (·.txRef = ref.text) = true
    · rw [if_pos hany]
      exact h
    · rw [if_neg hany]
      refine ⟨?_, ?_, h.seed_spelled, h.seed_nodup⟩
      · intro d hd
        rcases List.mem_cons.mp hd with rfl | hd
        · exact href
        · exact h.deposit_spelled d hd
      · rw [List.map_cons, List.nodup_cons]
        refine ⟨fun hmem => hany ?_, h.deposit_nodup⟩
        obtain ⟨d, hd, hkey⟩ := List.mem_map.mp hmem
        exact List.any_eq_true.mpr ⟨d, hd, decide_eq_true hkey⟩

/-- A seed's subscription opened under the id of a spelled reference. -/
theorem SpelledBooks.openSeed {b : ArrivalBooks} (h : SpelledBooks R b) {s : SeedSubscription}
    {ref : TxRef} (href : SpelledFor R ref s.arrival) (hid : s.id = seedSubscriptionId ref) :
    SpelledBooks R (b.openSeed s).2 := by
  unfold ArrivalBooks.openSeed
  by_cases hany : b.subscriptions.any (·.id = s.id) = true
  · rw [if_pos hany]
    exact h
  · rw [if_neg hany]
    refine ⟨h.deposit_spelled, h.deposit_nodup, ?_, ?_⟩
    · intro x hx
      rcases List.mem_cons.mp hx with rfl | hx
      · exact ⟨ref, href, hid⟩
      · exact h.seed_spelled x hx
    · rw [List.map_cons, List.nodup_cons]
      refine ⟨fun hmem => hany ?_, h.seed_nodup⟩
      obtain ⟨x, hx, hkey⟩ := List.mem_map.mp hmem
      exact List.any_eq_true.mpr ⟨x, hx, decide_eq_true hkey⟩

/-- A verified arrival is of the transfer the rail read back. -/
theorem inboundTransfer_of_verifyArrival {v : ChainView R} {network : Network} {ref : TxRef}
    {expected : Option Nat} {arrival : Arrival} {on : ChainTransfer} {transfer : InboundTransfer}
    (h : verifyArrival v network ref expected = .ok (arrival, on, transfer)) :
    inboundTransfer v network ref = .ok (some (on, transfer)) := by
  have hattributed : ∀ on' transfer', (attributeArrival v network transfer').map
      (fun arrival => (arrival, on', transfer')) = .ok (arrival, on, transfer) →
      on' = on ∧ transfer' = transfer := by
    intro on' transfer' hmap
    cases ha : attributeArrival v network transfer' with
    | error e => rw [ha] at hmap; cases hmap
    | ok a => rw [ha] at hmap; cases hmap; exact ⟨rfl, rfl⟩
  unfold verifyArrival at h
  split at h
  · cases h
  · cases h
  · next on' transfer' hin =>
    rw [hin]
    split at h
    · split at h
      · cases h
      · obtain ⟨rfl, rfl⟩ := hattributed _ _ h
        rfl
    · obtain ⟨rfl, rfl⟩ := hattributed _ _ h
      rfl

/-- A watcher's credit under a spelled reference. -/
theorem SpelledBooks.credit {b : ArrivalBooks} (h : SpelledBooks R b) {raw : String}
    {on : ChainTransfer}
    (hspelled : ∀ ref, TxRef.parse raw = .ok ref → SpelledFor R ref on) (network : Network)
    (user : UserId) (amount : Nat) : SpelledBooks R (credit raw on network user amount b) := by
  unfold Banking.credit
  split
  · exact h
  · cases hp : TxRef.parse raw with
    | error e => exact h
    | ok ref => exact h.recordDeposit (hspelled ref hp) user network amount

/-- An arrival recorded by hand under a spelled reference. -/
theorem SpelledBooks.recordVerified {b : ArrivalBooks} (h : SpelledBooks R b) {v : ChainView R}
    {ref : TxRef} {network : Network}
    (hspelled : ∀ on transfer, inboundTransfer v network ref = .ok (some (on, transfer)) →
      SpelledFor R ref on) (expected : Option Nat) :
    SpelledBooks R (recordVerifiedArrival v b ref network expected).2 := by
  unfold recordVerifiedArrival
  split
  · exact h
  · exact h
  · next hv => exact h.recordDeposit (hspelled _ _ (inboundTransfer_of_verifyArrival hv)) _ _ _

/-- A seed under a spelled reference: however far it comes, the books stay spelled. -/
theorem SpelledBooks.seed {b : ArrivalBooks} (h : SpelledBooks R b) {v : ChainView R} {ref : TxRef}
    {network : Network}
    (hspelled : ∀ on transfer, inboundTransfer v network ref = .ok (some (on, transfer)) →
      SpelledFor R ref on) (depositor : UserId) (expected : Option Nat)
    (priced : Except DomainError Unit) (dies : Bool) :
    SpelledBooks R (seedFundCapital v b depositor ref network expected priced dies).2 := by
  unfold seedFundCapital
  cases hv : verifyArrival v network ref expected with
  | error e => exact h
  | ok x =>
    obtain ⟨arrival, on, transfer⟩ := x
    have href := hspelled _ _ (inboundTransfer_of_verifyArrival hv)
    have hdeposit := h.recordDeposit href depositor network transfer.amount
    cases arrival with
    | user u => exact h
    | treasury =>
      cases priced with
      | error e => exact h
      | ok u =>
        dsimp only
        cases hr : Banking.recordDeposit b ref depositor network transfer.amount on with
        | mk answer b' =>
          rw [hr] at hdeposit
          cases answer with
          | error e => exact hdeposit
          | ok recorded =>
            -- the process dies, or the subscription is opened, found, or refused
            have hopen : SpelledBooks R (b'.openSeed ⟨seedSubscriptionId ref, depositor,
                transfer.amount, on⟩).2 := SpelledBooks.openSeed hdeposit href rfl
            dsimp only
            split_ifs
            · exact hdeposit
            · exact hopen
            · exact hdeposit
            · exact hopen
            · exact hdeposit

/-- **One spelled credit** keeps the books spelled. -/
theorem SpelledBooks.run {b : ArrivalBooks} (h : SpelledBooks R b) {c : ArrivalCommand R}
    (hc : c.Spelled) : SpelledBooks R (c.run b) := by
  have hwatched : ∀ (raw : String) (on : ChainTransfer),
      c.accepted = (TxRef.parse raw).toOption.map (fun ref => (ref, on)) →
      ∀ ref, TxRef.parse raw = .ok ref → SpelledFor R ref on := by
    intro raw on hacc ref hp
    refine hc ref on ?_
    rw [hacc, hp]
    rfl
  cases c with
  | watchEvm | watchTon | watchTron => exact h.credit (hwatched _ _ rfl) _ _ _
  | record v raw network expected =>
    cases hp : TxRef.parse raw with
    | error e => simpa only [ArrivalCommand.run, hp] using h
    | ok ref =>
      simp only [ArrivalCommand.run, hp]
      refine h.recordVerified (fun on transfer hin => hc ref on ?_) expected
      simp only [ArrivalCommand.accepted, hp, hin]
  | seed v raw network expected depositor priced dies =>
    cases hp : TxRef.parse raw with
    | error e => simpa only [ArrivalCommand.run, hp] using h
    | ok ref =>
      simp only [ArrivalCommand.run, hp]
      refine h.seed (fun on transfer hin => hc ref on ?_) depositor expected priced dies
      simp only [ArrivalCommand.accepted, hp, hin]

end Commands

/-! ## Spellings -/

end Banking
