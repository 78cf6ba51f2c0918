import Banking.Payments
import Banking.Lib.Framing

/-! # Signed subjects

The subjects a consilium decides and the bytes their payload hash is taken over: a domain prefix of
the subject's own, then its fields in a fixed order, every variable-length one behind its length.
Two subjects with the same bytes are the same subject (`signed_terms_injective`). -/

namespace Banking

open Framing (Delimited beBytes prefixed delimited_beBytes delimited_prefixed delimited_terminated)

/-! ## Fields -/

/-- The bytes of a text. -/
def asBytes (s : String) : List UInt8 := s.toByteArray.data.toList

/-- One length-prefixed field. -/
def pushField (bytes : List UInt8) : List UInt8 := prefixed 8 bytes

/-- One length-prefixed field of a text. -/
def pushText (s : String) : List UInt8 := pushField (asBytes s)

/-- The sixteen bytes of an id; a name-based id is written symbolically. -/
def Uuid.asBytes : Uuid → List UInt8
  | .raw n => beBytes 16 n
  | .v5 ns name => Banking.asBytes (Uuid.v5 ns name).text

/-- A party's kind. -/
def Party.kindStr : Party → String
  | .user _ => "user"
  | .service _ => "service"
  | .treasury => "treasury"

/-- The id under which the treasury is stored. -/
def TREASURY_ID : String := "main:treasury"

/-- A party's id, as text. -/
def Party.idStr : Party → String
  | .user id => id.text
  | .service id => id.slug
  | .treasury => TREASURY_ID

/-- A party, its kind and then its id. -/
def Party.canonicalBytes (p : Party) : List UInt8 := pushText p.kindStr ++ pushText p.idStr

/-! ## Payments -/

/-- What every payment's bytes open with. -/
def PaymentTerms.DOMAIN : String := "banking.v1.PaymentTerms\x00"

/-- The bytes of a destination. -/
def PaymentDestination.canonicalBytes : PaymentDestination → List UInt8
  | .internal party =>
    pushText "internal" ++ party.canonicalBytes
  | .external network address =>
    pushText "external" ++ (pushText network.asStr ++ pushText address.text)

/-- The bytes of a payment's terms. -/
def PaymentTerms.canonicalBytes (t : PaymentTerms) : List UInt8 :=
  asBytes PaymentTerms.DOMAIN ++ (t.source.canonicalBytes ++ (t.target.canonicalBytes ++
    (beBytes 16 t.amount ++ pushText t.reason.text)))

/-- A payment as a consilium decides it: its terms and the order they belong to. -/
structure PaymentSubject where
  paymentId : Uuid
  terms : PaymentTerms
  paymentId_minted : paymentId.Minted

/-- What every payment subject's bytes open with. -/
def PaymentSubject.DOMAIN : String := "banking.v1.PaymentSubject\x00"

/-- The bytes of a payment subject. -/
def PaymentSubject.canonicalBytes (s : PaymentSubject) : List UInt8 :=
  asBytes PaymentSubject.DOMAIN ++ (pushField s.paymentId.asBytes ++ s.terms.canonicalBytes)

/-! ## Fee policies -/

/-- What the management fee is charged on. -/
inductive ManagementBasis
  | investedCapital
  | marketValue
deriving DecidableEq, Repr

/-- A basis's stored text. -/
def ManagementBasis.asStr : ManagementBasis → String
  | .investedCapital => "invested_capital"
  | .marketValue => "market_value"

/-- How often the performance fee crystallizes. -/
inductive CrystallizationPeriod
  | monthly
  | quarterly
  | semiAnnual
  | annual
deriving DecidableEq, Repr

/-- A period's stored text. -/
def CrystallizationPeriod.asStr : CrystallizationPeriod → String
  | .monthly => "monthly"
  | .quarterly => "quarterly"
  | .semiAnnual => "semi_annual"
  | .annual => "annual"

/-- One fund's fee terms. -/
structure FeePolicy where
  managementBps : UInt32
  performanceBps : UInt32
  hurdleBps : UInt32
  basis : ManagementBasis
  crystallization : CrystallizationPeriod
deriving DecidableEq, Repr

/-- A change of fee terms as a consilium decides it. -/
structure FeePolicySubject where
  changeId : Uuid
  service : ServiceId
  fromPolicy : Option FeePolicy
  toPolicy : FeePolicy
  reason : String
  requestedEffectiveFrom : Int64
  changeId_minted : changeId.Minted
  service_sized : Holdable service.slug
  reason_sized : Holdable reason

/-- What every fee-policy subject's bytes open with. -/
def FeePolicySubject.DOMAIN : String := "banking.v1.FeePolicySubject\x00"

/-- The bytes of a policy, behind a presence byte. -/
def policyBytes : Option FeePolicy → List UInt8
  | none => [0]
  | some policy =>
    1 :: (beBytes 4 policy.managementBps.toNat ++ (beBytes 4 policy.performanceBps.toNat ++
      (beBytes 4 policy.hurdleBps.toNat ++ (pushText policy.basis.asStr ++
        pushText policy.crystallization.asStr))))

/-- The bytes of a fee-policy subject. -/
def FeePolicySubject.canonicalBytes (s : FeePolicySubject) : List UInt8 :=
  asBytes FeePolicySubject.DOMAIN ++ (pushField s.changeId.asBytes ++
    (pushText s.service.slug ++ (policyBytes s.fromPolicy ++
      (policyBytes (some s.toPolicy) ++ (pushText s.reason ++
        beBytes 8 s.requestedEffectiveFrom.toUInt64.toNat)))))

/-! ## Marks, grants and seeds -/

/-- A mark of `service` at `aum`, past the guard on its move. -/
structure ValuationOverrideTerms where
  service : ServiceId
  aum : Nat
  service_sized : Holdable service.slug
  aum_sized : aum < 2 ^ 128

/-- What every mark's bytes open with. -/
def ValuationOverrideTerms.DOMAIN : String := "banking.v1.ValuationOverrideTerms\x00"

/-- The bytes of a mark. -/
def ValuationOverrideTerms.canonicalBytes (t : ValuationOverrideTerms) : List UInt8 :=
  asBytes ValuationOverrideTerms.DOMAIN ++ (pushText t.service.slug ++ beBytes 16 t.aum)

/-- Units of a reserved allocation for a user. -/
structure HolderGrantTerms where
  allocation : ServiceId
  user : UserId
  units : Nat
  allocation_sized : Holdable allocation.slug
  user_minted : user.Minted
  units_sized : units < 2 ^ 128

/-- What every grant's bytes open with. -/
def HolderGrantTerms.DOMAIN : String := "banking.v1.HolderGrantTerms\x00"

/-- The bytes of a grant. -/
def HolderGrantTerms.canonicalBytes (t : HolderGrantTerms) : List UInt8 :=
  asBytes HolderGrantTerms.DOMAIN ++ (pushText t.allocation.slug ++
    (pushText t.user.text ++ beBytes 16 t.units))

/-- A treasury arrival attributed to a depositor as their seed. -/
structure SeedCapitalTerms where
  txRef : TxRef
  network : Network
  amount : Nat
  depositor : UserId
  txRef_sized : Holdable txRef.text
  amount_sized : amount < 2 ^ 128
  depositor_minted : depositor.Minted

/-- What every seed's bytes open with. -/
def SeedCapitalTerms.DOMAIN : String := "banking.v1.SeedCapitalTerms\x00"

/-- The bytes of a seed. -/
def SeedCapitalTerms.canonicalBytes (t : SeedCapitalTerms) : List UInt8 :=
  asBytes SeedCapitalTerms.DOMAIN ++ (pushText t.txRef.text ++
    (pushText t.network.asStr ++ (pushText t.depositor.text ++
      beBytes 16 t.amount)))

/-! ## What a consilium decides -/

/-- The subject of a consilium, of one of five kinds. -/
inductive ConsiliumTerms
  | payment (subject : PaymentSubject)
  | valuationOverride (terms : ValuationOverrideTerms)
  | feePolicy (subject : FeePolicySubject)
  | holderGrant (terms : HolderGrantTerms)
  | seedCapital (terms : SeedCapitalTerms)

/-- The bytes the payload hash is taken over. -/
def ConsiliumTerms.canonicalBytes : ConsiliumTerms → List UInt8
  | .payment subject => subject.canonicalBytes
  | .valuationOverride terms => terms.canonicalBytes
  | .feePolicy subject => subject.canonicalBytes
  | .holderGrant terms => terms.canonicalBytes
  | .seedCapital terms => terms.canonicalBytes

/-! ## Fields are told apart -/

theorem asBytes_injective : Function.Injective asBytes := by
  intro s t h
  exact String.toByteArray_inj.mp (ByteArray.ext (Array.toList_inj.mp h))

@[simp] theorem length_asBytes (s : String) : (asBytes s).length = s.utf8ByteSize := rfl

/-- A field of a text. -/
theorem delimited_textField : Delimited Holdable pushText :=
  (delimited_prefixed 8).comp
    (fun s hs => by
      rw [length_asBytes]
      exact Nat.lt_of_lt_of_le hs (by decide))
    fun _ _ _ _ h => asBytes_injective h

/-- The hexadecimal digits of one width. -/
theorem delimited_hexDigits (width : Nat) :
    Delimited (fun n => n < 16 ^ width) (hexDigits width) :=
  Framing.delimited_digits (by decide) (by decide) width

theorem ne_hyphen_of_mem_hexDigits {width n : Nat} {c : Char} (h : c ∈ hexDigits width n) :
    c ≠ '-' := by
  obtain ⟨i, -, rfl⟩ := List.mem_map.mp h
  have hall : ∀ d < 16, Nat.digitChar d ≠ '-' := by decide
  exact hall _ (Nat.mod_lt _ (by decide))

/-- An id's text, its hyphens left out, is its digits. -/
theorem Uuid.filter_text_raw (n : Nat) :
    (Uuid.raw n).text.toList.filter (· ≠ '-') = hexDigits 32 n := by
  have hnot : '-' ∉ hexDigits 32 n := fun h => ne_hyphen_of_mem_hexDigits h rfl
  have htext : (Uuid.raw n).text.toList = List.intercalate ['-']
      [(hexDigits 32 n).take 8, ((hexDigits 32 n).drop 8).take 4, ((hexDigits 32 n).drop 12).take 4,
        ((hexDigits 32 n).drop 16).take 4, (hexDigits 32 n).drop 20] := by
    simp [Uuid.text]
  generalize hexDigits 32 n = digits at hnot htext
  have hcut : ∀ k m, (digits.drop k).take m ++ digits.drop (k + m) = digits.drop k := by
    intro k m
    rw [← List.drop_drop, List.take_append_drop]
  have hflat : [digits.take 8, (digits.drop 8).take 4, (digits.drop 12).take 4,
      (digits.drop 16).take 4, digits.drop 20].flatten = digits := by
    simp only [List.flatten_cons, List.flatten_nil, List.append_nil]
    rw [hcut 16 4, hcut 12 4, hcut 8 4, List.take_append_drop]
  rw [htext, Framing.filter_intercalate, hflat]
  intro g hg hmem
  exact hnot (hflat ▸ List.mem_flatten.mpr ⟨g, hg, hmem⟩)

/-- The text of an id tells it from any other. -/
theorem Uuid.text_injective {u v : Uuid} (hu : u.Minted) (hv : v.Minted) (h : u.text = v.text) :
    u = v := by
  obtain ⟨n, hn, rfl⟩ := hu
  obtain ⟨m, hm, rfl⟩ := hv
  have hdigits : hexDigits 32 n = hexDigits 32 m := by
    rw [← Uuid.filter_text_raw, ← Uuid.filter_text_raw, h]
  exact congrArg Uuid.raw ((delimited_hexDigits 32).injective hn hm hdigits)

/-- A character takes at most four bytes. -/
theorem utf8ByteSize_ofList_le (l : List Char) : (String.ofList l).utf8ByteSize ≤ 4 * l.length := by
  induction l with
  | nil => simp
  | cons c l ih =>
    have hc := c.utf8Size_le_four
    have hcons : String.ofList (c :: l) = String.singleton c ++ String.ofList l := by simp
    rw [hcons, String.utf8ByteSize_append, String.utf8ByteSize_singleton, List.length_cons]
    omega

/-- The text of an id is a short one. -/
theorem Uuid.text_sized {u : Uuid} (hu : u.Minted) : Holdable u.text := by
  obtain ⟨n, -, rfl⟩ := hu
  have hlength : (Uuid.raw n).text.toList.length = 36 := by simp [Uuid.text, hexDigits]
  have hbytes := utf8ByteSize_ofList_le (Uuid.raw n).text.toList
  rw [String.ofList_toList, hlength] at hbytes
  exact Nat.lt_of_le_of_lt hbytes (by decide)

/-- A field of an id. -/
theorem delimited_idField : Delimited Uuid.Minted fun u => pushField u.asBytes := by
  refine (delimited_prefixed 8).comp ?_ ?_
  · rintro _ ⟨n, -, rfl⟩
    simp [Uuid.asBytes]
  · rintro _ _ ⟨n, hn, rfl⟩ ⟨m, hm, rfl⟩ h
    exact congrArg Uuid.raw ((delimited_beBytes 16).injective hn hm h)

/-- A field of a user's text. -/
theorem delimited_userField : Delimited Uuid.Minted fun u => pushText u.text :=
  delimited_textField.comp (fun _ => Uuid.text_sized) fun _ _ => Uuid.text_injective

/-- An amount. -/
theorem delimited_amount : Delimited (fun n => n < 2 ^ 128) (beBytes 16) := delimited_beBytes 16

/-- A field of a constant's text. -/
theorem delimited_constField {α : Type} {asStr : α → String} (hs : ∀ a, Holdable (asStr a))
    (hinj : Function.Injective asStr) :
    Delimited (fun _ => True) fun a => pushText (asStr a) :=
  delimited_textField.comp (fun a _ => hs a) fun _ _ _ _ h => hinj h

theorem Network.delimited : Delimited (fun _ => True) fun n : Network => pushText n.asStr :=
  delimited_constField (by intro n; cases n <;> decide)
    (by intro m n h; revert h; cases m <;> cases n <;> decide)

theorem ManagementBasis.delimited :
    Delimited (fun _ => True) fun b : ManagementBasis => pushText b.asStr :=
  delimited_constField (by intro b; cases b <;> decide)
    (by intro b c h; revert h; cases b <;> cases c <;> decide)

theorem CrystallizationPeriod.delimited :
    Delimited (fun _ => True) fun c : CrystallizationPeriod => pushText c.asStr :=
  delimited_constField (by intro c; cases c <;> decide)
    (by intro b c h; revert h; cases b <;> cases c <;> decide)

/-- A party is told apart by its kind and then its id. -/
theorem Party.delimited : Delimited Party.Sized Party.canonicalBytes := by
  have hkind : ∀ p : Party, Holdable p.kindStr := by
    intro p
    cases p with
    | user => exact (by decide : Holdable "user")
    | service => exact (by decide : Holdable "service")
    | treasury => exact (by decide : Holdable "treasury")
  intro p q s s' hp hq he
  simp only [Party.canonicalBytes, List.append_assoc] at he
  obtain ⟨hk, hid⟩ := delimited_textField _ _ _ _ (hkind p) (hkind q) he
  cases p with
  | user u =>
    cases q with
    | user v =>
      obtain ⟨rfl, hs⟩ := delimited_userField u v s s' hp hq hid
      exact ⟨rfl, hs⟩
    | service | treasury => exact absurd hk (by simp [Party.kindStr])
  | service a =>
    cases q with
    | service b =>
      obtain ⟨hslug, hs⟩ := delimited_textField a.slug b.slug s s' hp hq hid
      exact ⟨congrArg Party.service (congrArg ServiceId.mk hslug), hs⟩
    | user | treasury => exact absurd hk (by simp [Party.kindStr])
  | treasury =>
    cases q with
    | treasury => exact ⟨rfl, List.append_cancel_left hid⟩
    | user | service => exact absurd hk (by simp [Party.kindStr])

/-- A destination whose widths hold, and whose address is one of its rail. -/
def PaymentDestination.Named (d : PaymentDestination) : Prop :=
  d.Sized ∧ ∀ network address, d = .external network address → address.network = network

/-- A destination is told apart by its arm and then its end. The rail of an address is not written
again: it is the one before it. -/
theorem PaymentDestination.delimited :
    Delimited PaymentDestination.Named PaymentDestination.canonicalBytes := by
  have hinternal : Holdable "internal" := by decide
  have hexternal : Holdable "external" := by decide
  intro d e s s' hd he h
  cases d with
  | internal p =>
    cases e with
    | internal q =>
      simp only [PaymentDestination.canonicalBytes, List.append_assoc] at h
      obtain ⟨rfl, hs⟩ := Party.delimited p q s s' hd.1 he.1 (List.append_cancel_left h)
      exact ⟨rfl, hs⟩
    | external n a =>
      simp only [PaymentDestination.canonicalBytes, List.append_assoc] at h
      exact absurd (delimited_textField _ _ _ _ hinternal hexternal h).1 (by decide)
  | external n a =>
    cases e with
    | internal q =>
      simp only [PaymentDestination.canonicalBytes, List.append_assoc] at h
      exact absurd (delimited_textField _ _ _ _ hexternal hinternal h).1 (by decide)
    | external m b =>
      simp only [PaymentDestination.canonicalBytes, List.append_assoc] at h
      obtain ⟨hnetwork, htail⟩ :=
        Network.delimited n m _ _ trivial trivial (List.append_cancel_left h)
      obtain ⟨htext, hs⟩ := delimited_textField _ _ s s' hd.1 he.1 htail
      have hrail : a.network = b.network := by
        rw [hd.2 n a rfl, he.2 m b rfl, hnetwork]
      obtain rfl : a = b := by
        cases a
        cases b
        exact congr (congrArg WalletAddress.mk hrail) htext
      exact ⟨congrArg (PaymentDestination.external · a) hnetwork, hs⟩

/-- A rate. -/
theorem delimited_bps : Delimited (fun _ => True) fun bps : UInt32 => beBytes 4 bps.toNat :=
  (delimited_beBytes 4).comp (fun bps _ => bps.toNat_lt) fun _ _ _ _ h => UInt32.toNat_inj.mp h

/-- A policy behind its presence byte. -/
theorem delimited_policyBytes : Delimited (fun _ => True) policyBytes := by
  intro p q s s' _ _ h
  cases p with
  | none =>
    cases q with
    | none => exact ⟨rfl, (List.cons.inj h).2⟩
    | some q => exact absurd (List.cons.inj h).1 (by decide)
  | some p =>
    cases q with
    | none => exact absurd (List.cons.inj h).1 (by decide)
    | some q =>
      simp only [policyBytes, List.cons_append, List.append_assoc, List.cons.injEq, true_and] at h
      obtain ⟨hm, h₁⟩ := delimited_bps _ _ _ _ trivial trivial h
      obtain ⟨hperf, h₂⟩ := delimited_bps _ _ _ _ trivial trivial h₁
      obtain ⟨hh, h₃⟩ := delimited_bps _ _ _ _ trivial trivial h₂
      obtain ⟨hb, h₄⟩ := ManagementBasis.delimited _ _ _ _ trivial trivial h₃
      obtain ⟨hc, hs⟩ := CrystallizationPeriod.delimited _ _ _ _ trivial trivial h₄
      cases p
      cases q
      simp_all

/-! ## Subjects are told apart -/

theorem PaymentTerms.named (t : PaymentTerms) : t.target.Named := ⟨t.target_sized, t.on_rail⟩

theorem PaymentReason.sized (r : PaymentReason) : Holdable r.text :=
  Nat.lt_of_le_of_lt r.short (by decide)

theorem PaymentTerms.canonicalBytes_injective : Function.Injective PaymentTerms.canonicalBytes := by
  intro a b h
  obtain ⟨hsource, h₁⟩ :=
    Party.delimited _ _ _ _ a.source_sized b.source_sized (List.append_cancel_left h)
  obtain ⟨htarget, h₂⟩ := PaymentDestination.delimited _ _ _ _ a.named b.named h₁
  obtain ⟨hamount, h₃⟩ := delimited_amount _ _ _ _ a.amount_sized b.amount_sized h₂
  have hreason := delimited_textField.injective a.reason.sized b.reason.sized h₃
  cases a with | mk _ _ _ reason =>
  cases b with | mk _ _ _ reason' =>
  cases reason
  cases reason'
  simp_all

theorem PaymentSubject.canonicalBytes_injective :
    Function.Injective PaymentSubject.canonicalBytes := by
  intro a b h
  obtain ⟨hid, h₁⟩ := delimited_idField _ _ _ _ a.paymentId_minted b.paymentId_minted
    (List.append_cancel_left h)
  have hterms := PaymentTerms.canonicalBytes_injective h₁
  cases a
  cases b
  simp_all

theorem FeePolicySubject.canonicalBytes_injective :
    Function.Injective FeePolicySubject.canonicalBytes := by
  intro a b h
  obtain ⟨hid, h₁⟩ := delimited_idField _ _ _ _ a.changeId_minted b.changeId_minted
    (List.append_cancel_left h)
  obtain ⟨hservice, h₂⟩ := delimited_textField _ _ _ _ a.service_sized b.service_sized h₁
  obtain ⟨hfrom, h₃⟩ := delimited_policyBytes _ _ _ _ trivial trivial h₂
  obtain ⟨hto, h₄⟩ := delimited_policyBytes _ _ _ _ trivial trivial h₃
  obtain ⟨hreason, h₅⟩ := delimited_textField _ _ _ _ a.reason_sized b.reason_sized h₄
  have htime := (delimited_beBytes 8).injective (UInt64.toNat_lt _) (UInt64.toNat_lt _) h₅
  have hslug : a.service = b.service := congrArg ServiceId.mk hservice
  have heffective : a.requestedEffectiveFrom = b.requestedEffectiveFrom :=
    Function.LeftInverse.injective Int64.toInt64_toUInt64 (UInt64.toNat_inj.mp htime)
  cases a
  cases b
  simp_all

theorem ValuationOverrideTerms.canonicalBytes_injective :
    Function.Injective ValuationOverrideTerms.canonicalBytes := by
  intro a b h
  obtain ⟨hservice, h₁⟩ := delimited_textField _ _ _ _ a.service_sized b.service_sized
    (List.append_cancel_left h)
  have haum := delimited_amount.injective a.aum_sized b.aum_sized h₁
  have hslug : a.service = b.service := congrArg ServiceId.mk hservice
  cases a
  cases b
  simp_all

theorem HolderGrantTerms.canonicalBytes_injective :
    Function.Injective HolderGrantTerms.canonicalBytes := by
  intro a b h
  obtain ⟨hallocation, h₁⟩ := delimited_textField _ _ _ _ a.allocation_sized b.allocation_sized
    (List.append_cancel_left h)
  obtain ⟨huser, h₂⟩ := delimited_userField _ _ _ _ a.user_minted b.user_minted h₁
  have hunits := delimited_amount.injective a.units_sized b.units_sized h₂
  have hslug : a.allocation = b.allocation := congrArg ServiceId.mk hallocation
  cases a
  cases b
  simp_all

theorem SeedCapitalTerms.canonicalBytes_injective :
    Function.Injective SeedCapitalTerms.canonicalBytes := by
  intro a b h
  obtain ⟨href, h₁⟩ := delimited_textField _ _ _ _ a.txRef_sized b.txRef_sized
    (List.append_cancel_left h)
  obtain ⟨hnetwork, h₂⟩ := Network.delimited _ _ _ _ trivial trivial h₁
  obtain ⟨hdepositor, h₃⟩ := delimited_userField _ _ _ _ a.depositor_minted b.depositor_minted h₂
  have hamount := delimited_amount.injective a.amount_sized b.amount_sized h₃
  have htext : a.txRef = b.txRef := congrArg TxRef.mk href
  cases a
  cases b
  simp_all

/-! ## One hash space -/

/-- The prefix a subject's bytes open with. -/
def ConsiliumTerms.domain : ConsiliumTerms → String
  | .payment _ => PaymentSubject.DOMAIN
  | .valuationOverride _ => ValuationOverrideTerms.DOMAIN
  | .feePolicy _ => FeePolicySubject.DOMAIN
  | .holderGrant _ => HolderGrantTerms.DOMAIN
  | .seedCapital _ => SeedCapitalTerms.DOMAIN

/-- A domain is a name without a zero byte, and a zero byte. -/
def IsDomain (d : String) : Prop := ∃ name, asBytes d = name ++ [0] ∧ (0 : UInt8) ∉ name

/-- Bytes behind different domains differ. -/
theorem IsDomain.eq {d e : String} (hd : IsDomain d) (he : IsDomain e) {s s' : List UInt8}
    (h : asBytes d ++ s = asBytes e ++ s') : d = e := by
  obtain ⟨name, hname, hzero⟩ := hd
  obtain ⟨name', hname', hzero'⟩ := he
  rw [hname, hname'] at h
  have heq := (delimited_terminated 0 _ _ _ _ hzero hzero' h).1
  exact asBytes_injective (by rw [hname, hname', heq])

theorem PaymentTerms.isDomain : IsDomain PaymentTerms.DOMAIN :=
  ⟨asBytes "banking.v1.PaymentTerms", by decide⟩

theorem PaymentSubject.isDomain : IsDomain PaymentSubject.DOMAIN :=
  ⟨asBytes "banking.v1.PaymentSubject", by decide⟩

theorem ValuationOverrideTerms.isDomain : IsDomain ValuationOverrideTerms.DOMAIN :=
  ⟨asBytes "banking.v1.ValuationOverrideTerms", by decide⟩

theorem FeePolicySubject.isDomain : IsDomain FeePolicySubject.DOMAIN :=
  ⟨asBytes "banking.v1.FeePolicySubject", by decide⟩

theorem HolderGrantTerms.isDomain : IsDomain HolderGrantTerms.DOMAIN :=
  ⟨asBytes "banking.v1.HolderGrantTerms", by decide⟩

theorem SeedCapitalTerms.isDomain : IsDomain SeedCapitalTerms.DOMAIN :=
  ⟨asBytes "banking.v1.SeedCapitalTerms", by decide⟩

theorem ConsiliumTerms.isDomain_domain (t : ConsiliumTerms) : IsDomain t.domain := by
  cases t with
  | payment => exact PaymentSubject.isDomain
  | valuationOverride => exact ValuationOverrideTerms.isDomain
  | feePolicy => exact FeePolicySubject.isDomain
  | holderGrant => exact HolderGrantTerms.isDomain
  | seedCapital => exact SeedCapitalTerms.isDomain

/-- A subject's bytes open with its domain. -/
theorem ConsiliumTerms.canonicalBytes_eq (t : ConsiliumTerms) :
    ∃ rest, t.canonicalBytes = asBytes t.domain ++ rest := by
  cases t <;> exact ⟨_, rfl⟩

theorem ConsiliumTerms.canonicalBytes_injective :
    Function.Injective ConsiliumTerms.canonicalBytes := by
  intro a b h
  obtain ⟨rest, ha⟩ := a.canonicalBytes_eq
  obtain ⟨rest', hb⟩ := b.canonicalBytes_eq
  have hdomain : a.domain = b.domain :=
    a.isDomain_domain.eq b.isDomain_domain (by rw [← ha, ← hb, h])
  -- subjects of two kinds open with two domains
  cases a <;> cases b <;> simp only [ConsiliumTerms.domain] at hdomain
  case payment.payment => exact congrArg _ (PaymentSubject.canonicalBytes_injective h)
  case valuationOverride.valuationOverride =>
    exact congrArg _ (ValuationOverrideTerms.canonicalBytes_injective h)
  case feePolicy.feePolicy => exact congrArg _ (FeePolicySubject.canonicalBytes_injective h)
  case holderGrant.holderGrant => exact congrArg _ (HolderGrantTerms.canonicalBytes_injective h)
  case seedCapital.seedCapital => exact congrArg _ (SeedCapitalTerms.canonicalBytes_injective h)
  all_goals exact absurd hdomain (by decide)

/-- **Signed subjects are told apart** by the bytes that are signed: two consilium subjects of any
kinds, two payments' terms, two payment subjects; no payment's terms are a consilium's subject. Where
a hash does not collide on two subjects' bytes, it stands for one of them only. -/
theorem signed_terms_injective :
    Function.Injective ConsiliumTerms.canonicalBytes ∧
    Function.Injective PaymentTerms.canonicalBytes ∧
    Function.Injective PaymentSubject.canonicalBytes ∧
    (∀ (t : PaymentTerms) (c : ConsiliumTerms), t.canonicalBytes ≠ c.canonicalBytes) ∧
    (∀ (sha256 : List UInt8 → List UInt8) (a b : ConsiliumTerms),
      (sha256 a.canonicalBytes = sha256 b.canonicalBytes → a.canonicalBytes = b.canonicalBytes) →
      sha256 a.canonicalBytes = sha256 b.canonicalBytes → a = b) ∧
    ∀ (sha256 : List UInt8 → List UInt8) (a b : PaymentTerms),
      (sha256 a.canonicalBytes = sha256 b.canonicalBytes → a.canonicalBytes = b.canonicalBytes) →
      sha256 a.canonicalBytes = sha256 b.canonicalBytes → a = b := by
  refine ⟨ConsiliumTerms.canonicalBytes_injective, PaymentTerms.canonicalBytes_injective,
    PaymentSubject.canonicalBytes_injective, fun t c h => ?_,
    fun sha256 a b hcollision h => ConsiliumTerms.canonicalBytes_injective (hcollision h),
    fun sha256 a b hcollision h => PaymentTerms.canonicalBytes_injective (hcollision h)⟩
  obtain ⟨rest, hc⟩ := c.canonicalBytes_eq
  have hdomain := PaymentTerms.isDomain.eq c.isDomain_domain (h.trans hc)
  cases c <;> exact absurd hdomain (by simp only [ConsiliumTerms.domain]; decide)

/-- A mark of the fund at a small figure. -/
def sampleMark (aum : Nat) (h : aum < 2 ^ 128) : ValuationOverrideTerms :=
  ⟨.fund, aum, by decide, h⟩

theorem sampleMark_one : 1 < 2 ^ 128 := by decide

/-- The fund marked at one unit and at two: a hash that keeps its input tells the marks apart. -/
theorem signed_terms_injective_sample :
    (ConsiliumTerms.valuationOverride (sampleMark 1 (by decide))).canonicalBytes ≠
      (ConsiliumTerms.valuationOverride (sampleMark 2 (by decide))).canonicalBytes := by
  intro h
  have hmark := signed_terms_injective.2.2.2.2.1 id _ _ id h
  simp [sampleMark] at hmark

end Banking
