import Banking.Scopes
import Banking.Subjects

/-! # Reading the chart's keys

The way back from a key's text, as `tb_accounts` stores it, to the account it names. Ids of users
are read by a parser of the environment, which takes the text the code writes and may take others.
What is written is read back, and no two keys share a text (`logicalKey_read`); but the readers of a
slug and of a user's id are lenient, and what is accepted is the text of a key exactly where those
parts are spelled as they are written (`chart_keys_round_trip`). -/

namespace Banking

/-! ## Readers -/

/-- An ASCII letter or digit. -/
def isAsciiAlphanumeric (c : Char) : Bool :=
  isAsciiLowercase c || ('A' ≤ c && c ≤ 'Z') || c.isDigit

/-- A character of a slug. -/
def isSlugChar (c : Char) : Bool := isAsciiAlphanumeric c || c = '-' || c = '_'

/-- A slug: `[A-Za-z0-9_-]{1,64}`, the white space around it left out. -/
def ServiceId.parse (raw : String) : Except DomainError ServiceId :=
  let value := Text.trim raw.toList
  if value = [] ∨ 64 < byteLen value then
    .error (.validation "service id must be 1..64 chars")
  else if ¬ value.all isSlugChar then
    .error (.validation "service id must be alphanumeric/-/_")
  else .ok ⟨String.ofList value⟩

/-- A slug that its reader leaves. -/
def ServiceId.Shaped (s : ServiceId) : Prop :=
  s.slug.toList ≠ [] ∧ byteLen s.slug.toList ≤ 64 ∧ s.slug.toList.all isSlugChar = true

/-- A scope's id, as it is. -/
def ScopeId.parse (raw : String) : Except DomainError ScopeId :=
  if ScopeId.Shaped ⟨raw⟩ then .ok ⟨raw⟩
  else .error (.validation ("scope id must match [a-z][a-z0-9_]\x7b0,31\x7d: " ++ raw.quote))

/-- An account's label, as it is. -/
def ScopeAccountLabel.parse (raw : String) : Except DomainError ScopeAccountLabel :=
  if ScopeAccountLabel.Shaped ⟨raw⟩ then .ok ⟨raw⟩
  else .error (.validation ("scope account label must match [a-z0-9_:.-]\x7b1,64\x7d: " ++
    raw.quote))

/-- A rail by its wire name. -/
def Network.parse (raw : String) : Except DomainError Network :=
  if raw = "bep20" then .ok .bep20
  else if raw = "trc20" then .ok .trc20
  else if raw = "ton" then .ok .ton
  else if raw = "polygon" then .ok .polygon
  else .error (.validation ("unknown network: " ++ raw))

/-- Split at the first colon. -/
def splitColon (raw : String) : Option (String × String) :=
  (Text.splitOnce ':' raw.toList).map fun (a, b) => (String.ofList a, String.ofList b)

section Parse

variable (parseUuid : String → Option Uuid)

/-- A user's id. -/
def parseUserId (raw : String) : Except DomainError UserId :=
  match parseUuid raw with
  | some id => .ok id
  | none => .error (.validation ("invalid user id in logical key: " ++ raw))

/-- A slug and a user's id. -/
def serviceAndUser (rest : String) : Except DomainError (ServiceId × UserId) :=
  match splitColon rest with
  | none => .error (.validation ("malformed holding key: " ++ rest))
  | some (service, user) => do
    let service ← ServiceId.parse service
    let user ← parseUserId parseUuid user
    .ok (service, user)

/-- A key that is split at its first colon. -/
def parseParts (raw head rest : String) : Except DomainError LedgerAccountKey :=
  if head = "wallet" then (Network.parse rest).map .cryptoWallet
  else if head = "user" then (parseUserId parseUuid rest).map .userClaim
  else if head = "service" then (ServiceId.parse rest).map .serviceClaim
  else if head = "shares" then
    (serviceAndUser parseUuid rest).map fun (service, user) => .userShares service user
  else if head = "shares_outstanding" then (ServiceId.parse rest).map .sharesOutstanding
  else if head = "shares_fee" then (ServiceId.parse rest).map .feeShares
  else if head = "book_shares" then
    (serviceAndUser parseUuid rest).map fun (service, user) => .bookShares service user
  else if head = "book_cash" then (parseUserId parseUuid rest).map .bookCash
  else if head = "scope_claim" then
    match splitColon rest with
    | none => .error (.validation ("malformed scope claim key: " ++ raw))
    | some (scope, user) => do
      let scope ← ScopeId.parse scope
      if scope.isMain then .error (.validation ("main has no scope claim: " ++ raw))
      else (parseUserId parseUuid user).map (.scopeClaim · scope)
  else if head = "scope_account" then
    match splitColon rest with
    | none => .error (.validation ("malformed scope account key: " ++ raw))
    | some (scope, label) => do
      let scope ← ScopeId.parse scope
      let label ← ScopeAccountLabel.parse label
      .ok (.scopeAccount scope label)
  else .error (.validation ("unknown logical key: " ++ raw))

/-- **A key read back from its text.** -/
def parseLogicalKey (raw : String) : Except DomainError LedgerAccountKey :=
  if raw = "clearing" then .ok .withdrawalClearing
  else if raw = "hold_clearing" then .ok .holdClearing
  else if raw = "bank" then .ok .bankCustody
  else
    match splitColon raw with
    | none => .error (.validation ("unknown logical key: " ++ raw))
    | some (head, rest) => parseParts parseUuid raw head rest

end Parse

/-! ## Keys -/

/-- The keys there are: ids of 128 bits, slugs, scopes and labels of their shapes, and no claim in
the scope `main`. -/
def LedgerAccountKey.Formed : LedgerAccountKey → Prop
  | .cryptoWallet _ | .withdrawalClearing | .bankCustody | .holdClearing => True
  | .userClaim user | .bookCash user => user.Minted
  | .serviceClaim service | .sharesOutstanding service | .feeShares service => service.Shaped
  | .userShares service user | .bookShares service user => service.Shaped ∧ user.Minted
  | .scopeClaim user scope => user.Minted ∧ scope.Shaped ∧ scope ≠ .main
  | .scopeAccount scope label => scope.Shaped ∧ label.Shaped

/-- A slug's character is no white space. -/
theorem isWhitespace_of_isSlugChar {c : Char} (h : isSlugChar c = true) :
    Text.isWhitespace c = false := by
  simp only [isSlugChar, isAsciiAlphanumeric, isAsciiLowercase, Char.isDigit, Bool.or_eq_true,
    Bool.and_eq_true, decide_eq_true_eq, ge_iff_le] at h
  have hrange : 0x2D ≤ c.toNat ∧ c.toNat ≤ 0x7A := by
    rcases h with (((⟨hlo, hhi⟩ | ⟨hlo, hhi⟩) | ⟨hlo, hhi⟩) | rfl) | rfl
    · exact ⟨Nat.le_trans (by decide) hlo, hhi⟩
    · exact ⟨Nat.le_trans (by decide) hlo, Nat.le_trans hhi (by decide)⟩
    · exact ⟨Nat.le_trans (by decide) hlo, Nat.le_trans hhi (by decide)⟩
    · decide
    · decide
  simp only [Text.isWhitespace, Bool.or_eq_false_iff, Bool.and_eq_false_iff,
    decide_eq_false_iff_not]
  omega

/-- A slug holds no white space. -/
theorem ServiceId.Shaped.trim {s : ServiceId} (h : s.Shaped) :
    Text.trim s.slug.toList = s.slug.toList :=
  Text.trim_eq_self fun c hc => isWhitespace_of_isSlugChar (List.all_eq_true.mp h.2.2 c hc)

/-- A slug holds no colon. -/
theorem ServiceId.Shaped.colon_notMem {s : ServiceId} (h : s.Shaped) : ':' ∉ s.slug.toList :=
  fun hmem => absurd (List.all_eq_true.mp h.2.2 _ hmem) (by decide)

/-- A scope's id holds no colon. -/
theorem ScopeId.Shaped.colon_notMem {s : ScopeId} (h : s.Shaped) : ':' ∉ s.id.toList :=
  fun hmem => absurd (List.all_eq_true.mp h.2.2 _ hmem) (by decide)

/-- A slug is read back. -/
theorem ServiceId.parse_slug {s : ServiceId} (h : s.Shaped) : ServiceId.parse s.slug = .ok s := by
  simp only [ServiceId.parse, h.trim]
  rw [if_neg (not_or.mpr ⟨h.1, not_lt.mpr h.2.1⟩), if_neg (not_not.mpr h.2.2),
    String.ofList_toList]

/-- What a slug is read from, is it but for white space around it. -/
theorem ServiceId.parse_ok {raw : String} {s : ServiceId} (h : ServiceId.parse raw = .ok s) :
    s.Shaped ∧ s.slug.toList = Text.trim raw.toList := by
  unfold ServiceId.parse at h
  dsimp only at h
  split_ifs at h with hlength hchars
  rw [← Except.ok.inj h]
  refine ⟨⟨?_, ?_, ?_⟩, String.toList_ofList⟩ <;> dsimp only <;> rw [String.toList_ofList]
  · exact fun he => hlength (.inl he)
  · exact not_lt.mp fun hl => hlength (.inr hl)
  · exact hchars

/-- What a scope's id is read from. -/
theorem ScopeId.parse_ok {raw : String} {s : ScopeId} :
    ScopeId.parse raw = .ok s ↔ s.Shaped ∧ s.id = raw := by
  unfold ScopeId.parse
  constructor
  · intro h
    split_ifs at h with hshaped
    rw [← Except.ok.inj h]
    exact ⟨hshaped, rfl⟩
  · rintro ⟨hshaped, rfl⟩
    exact if_pos hshaped

/-- What a label is read from. -/
theorem ScopeAccountLabel.parse_ok {raw : String} {l : ScopeAccountLabel} :
    ScopeAccountLabel.parse raw = .ok l ↔ l.Shaped ∧ l.label = raw := by
  unfold ScopeAccountLabel.parse
  constructor
  · intro h
    split_ifs at h with hshaped
    rw [← Except.ok.inj h]
    exact ⟨hshaped, rfl⟩
  · rintro ⟨hshaped, rfl⟩
    exact if_pos hshaped

/-- What a rail is read from. -/
theorem Network.parse_ok {raw : String} {net : Network} :
    Network.parse raw = .ok net ↔ net.asStr = raw := by
  unfold Network.parse
  constructor
  · intro h
    split_ifs at h with h₁ h₂ h₃ h₄ <;> rw [← Except.ok.inj h]
    · exact h₁.symm
    · exact h₂.symm
    · exact h₃.symm
    · exact h₄.symm
  · rintro rfl
    cases net <;> rfl

/-- What a text was split into at its first colon makes it up again. -/
theorem splitColon_eq_some {raw a b : String} (h : splitColon raw = some (a, b)) :
    raw = a ++ ":" ++ b := by
  obtain ⟨⟨as, bs⟩, hsplit, heq⟩ := Option.map_eq_some_iff.mp h
  obtain ⟨rfl, rfl⟩ := Prod.mk.inj heq
  rw [← String.toList_inj, Text.splitOnce_eq_some hsplit]
  simp

/-- A text joined to a head without a colon splits into what was joined. -/
theorem splitColon_join {a : String} (ha : ':' ∉ a.toList) (b : String) :
    splitColon (a ++ ":" ++ b) = some (a, b) := by
  have hlist : (a ++ ":" ++ b).toList = a.toList ++ ':' :: b.toList := by simp
  rw [splitColon, hlist, Text.splitOnce_join ha]
  simp

/-! ## The two parts of a key -/

/-- What a key's text is before and after its first colon. -/
def LedgerAccountKey.parts : LedgerAccountKey → Option (String × String)
  | .cryptoWallet net => some ("wallet", net.asStr)
  | .userClaim user => some ("user", user.text)
  | .serviceClaim service => some ("service", service.slug)
  | .withdrawalClearing | .bankCustody | .holdClearing => none
  | .userShares service user => some ("shares", service.slug ++ ":" ++ user.text)
  | .sharesOutstanding service => some ("shares_outstanding", service.slug)
  | .feeShares service => some ("shares_fee", service.slug)
  | .bookShares service user => some ("book_shares", service.slug ++ ":" ++ user.text)
  | .bookCash user => some ("book_cash", user.text)
  | .scopeClaim user scope => some ("scope_claim", scope.id ++ ":" ++ user.text)
  | .scopeAccount scope label => some ("scope_account", scope.id ++ ":" ++ label.label)

/-- A label and what follows it. -/
theorem label_append {label head : String} (h : label = head ++ ":") (rest : String) :
    label ++ rest = head ++ ":" ++ rest := by
  rw [h]

/-- A label and the two parts that follow it. -/
theorem label_append_two {label head : String} (h : label = head ++ ":") (first second : String) :
    label ++ first ++ ":" ++ second = head ++ ":" ++ (first ++ ":" ++ second) := by
  rw [h]
  simp only [String.append_assoc]

/-- A key's text is its parts. -/
theorem LedgerAccountKey.logicalKey_of_parts {k : LedgerAccountKey} {head rest : String}
    (h : k.parts = some (head, rest)) : k.logicalKey = head ++ ":" ++ rest := by
  cases k <;>
    simp only [LedgerAccountKey.parts, Option.some.injEq, Prod.mk.injEq, reduceCtorEq] at h <;>
    obtain ⟨rfl, rfl⟩ := h
  case cryptoWallet => exact label_append (by decide : "wallet:" = "wallet" ++ ":") _
  case userClaim => exact label_append (by decide : "user:" = "user" ++ ":") _
  case serviceClaim => exact label_append (by decide : "service:" = "service" ++ ":") _
  case userShares => exact label_append_two (by decide : "shares:" = "shares" ++ ":") _ _
  case sharesOutstanding =>
    exact label_append (by decide : "shares_outstanding:" = "shares_outstanding" ++ ":") _
  case feeShares => exact label_append (by decide : "shares_fee:" = "shares_fee" ++ ":") _
  case bookShares => exact label_append_two (by decide : "book_shares:" = "book_shares" ++ ":") _ _
  case bookCash => exact label_append (by decide : "book_cash:" = "book_cash" ++ ":") _
  case scopeClaim => exact label_append_two (by decide : "scope_claim:" = "scope_claim" ++ ":") _ _
  case scopeAccount =>
    exact label_append_two (by decide : "scope_account:" = "scope_account" ++ ":") _ _

/-- **A key's text splits into its parts.** -/
theorem LedgerAccountKey.splitColon_logicalKey (k : LedgerAccountKey) :
    splitColon k.logicalKey = k.parts := by
  cases hparts : k.parts with
  | none =>
    cases k with
    | withdrawalClearing | bankCustody | holdClearing => decide
    | _ => cases hparts
  | some parts =>
    obtain ⟨head, rest⟩ := parts
    have hhead : ':' ∉ head.toList := by
      cases k <;> simp only [LedgerAccountKey.parts, Option.some.injEq, Prod.mk.injEq,
        reduceCtorEq] at hparts
      all_goals
        rw [← hparts.1]
        decide
    rw [LedgerAccountKey.logicalKey_of_parts hparts]
    exact splitColon_join hhead rest

/-! ## Round trips -/

section RoundTrip

variable {parseUuid : String → Option Uuid}

/-- A key with parts is read from them. -/
theorem parseLogicalKey_of_split {raw head rest : String}
    (h : splitColon raw = some (head, rest)) :
    parseLogicalKey parseUuid raw = parseParts parseUuid raw head rest := by
  have hne : ∀ text, splitColon text = none → raw ≠ text := fun text hnone he => by
    rw [he, hnone] at h
    cases h
  unfold parseLogicalKey
  rw [if_neg (hne _ (by decide)), if_neg (hne _ (by decide)), if_neg (hne _ (by decide)), h]

/-- A user's id is read back. -/
theorem parseUserId_text (hreads : ∀ u : Uuid, u.Minted → parseUuid u.text = some u) {user : UserId}
    (h : user.Minted) : parseUserId parseUuid user.text = .ok user := by
  unfold parseUserId
  rw [hreads user h]

/-- A slug and a user's id are read back. -/
theorem serviceAndUser_text (hreads : ∀ u : Uuid, u.Minted → parseUuid u.text = some u)
    {service : ServiceId} {user : UserId} (hs : service.Shaped) (hu : user.Minted) :
    serviceAndUser parseUuid (service.slug ++ ":" ++ user.text) = .ok (service, user) := by
  unfold serviceAndUser
  rw [splitColon_join hs.colon_notMem]
  dsimp only
  rw [ServiceId.parse_slug hs, parseUserId_text hreads hu]
  rfl

/-- **Every key is read back from its text.** -/
theorem logicalKey_read (hreads : ∀ u : Uuid, u.Minted → parseUuid u.text = some u)
    {k : LedgerAccountKey} (hk : k.Formed) : parseLogicalKey parseUuid k.logicalKey = .ok k := by
  cases hparts : k.parts with
  | none =>
    cases k with
    | withdrawalClearing | bankCustody | holdClearing => rfl
    | _ => cases hparts
  | some parts =>
    obtain ⟨head, rest⟩ := parts
    rw [parseLogicalKey_of_split (k.splitColon_logicalKey.trans hparts)]
    cases k <;>
      simp only [LedgerAccountKey.parts, Option.some.injEq, Prod.mk.injEq, reduceCtorEq]
        at hparts <;>
      obtain ⟨rfl, rfl⟩ := hparts <;>
      simp only [parseParts, String.reduceEq, if_true, if_false]
    case cryptoWallet net => rw [Network.parse_ok.mpr rfl]; rfl
    case userClaim user => rw [parseUserId_text hreads hk]; rfl
    case serviceClaim service => rw [ServiceId.parse_slug hk]; rfl
    case userShares service user => rw [serviceAndUser_text hreads hk.1 hk.2]; rfl
    case sharesOutstanding service => rw [ServiceId.parse_slug hk]; rfl
    case feeShares service => rw [ServiceId.parse_slug hk]; rfl
    case bookShares service user => rw [serviceAndUser_text hreads hk.1 hk.2]; rfl
    case bookCash user => rw [parseUserId_text hreads hk]; rfl
    case scopeClaim user scope =>
      have hmain : scope.isMain = false := decide_eq_false hk.2.2
      rw [splitColon_join hk.2.1.colon_notMem]
      dsimp only
      rw [ScopeId.parse_ok.mpr ⟨hk.2.1, rfl⟩, parseUserId_text hreads hk.1]
      exact if_neg (by rw [hmain]; decide)
    case scopeAccount scope label =>
      rw [splitColon_join hk.1.colon_notMem]
      dsimp only
      rw [ScopeId.parse_ok.mpr ⟨hk.1, rfl⟩, ScopeAccountLabel.parse_ok.mpr ⟨hk.2, rfl⟩]
      rfl

/-- A text of a user's id, as it is written. -/
def IdText (text : String) : Prop := ∃ user : Uuid, user.Minted ∧ text = user.text

/-- A text without white space at its ends. -/
def Trimmed (text : String) : Prop := Text.trim text.toList = text.toList

instance (text : String) : Decidable (Trimmed text) := inferInstanceAs (Decidable (_ = _))

/-- **A text spelled as keys are written**: no white space around a slug, and a user's id as it is
displayed. -/
def Canonical (raw : String) : Prop :=
  ∀ head rest, splitColon raw = some (head, rest) →
    (head ∈ ["service", "shares_outstanding", "shares_fee"] → Trimmed rest) ∧
    (head ∈ ["user", "book_cash"] → IdText rest) ∧
    ∀ first second, splitColon rest = some (first, second) →
      (head ∈ ["shares", "book_shares"] → Trimmed first ∧ IdText second) ∧
      (head = "scope_claim" → IdText second)

/-- Every key's text is spelled so. -/
theorem logicalKey_canonical {k : LedgerAccountKey} (hk : k.Formed) : Canonical k.logicalKey := by
  intro head rest hsplit
  rw [k.splitColon_logicalKey] at hsplit
  cases k <;>
    simp only [LedgerAccountKey.parts, Option.some.injEq, Prod.mk.injEq, reduceCtorEq]
      at hsplit <;>
    obtain ⟨rfl, rfl⟩ := hsplit <;>
    simp only [List.mem_cons, List.not_mem_nil, String.reduceEq, or_false, or_true, false_implies,
      true_implies, true_and, and_true, implies_true]
  case userClaim user => exact ⟨user, hk, rfl⟩
  case serviceClaim service => exact hk.trim
  case userShares service user =>
    rw [splitColon_join hk.1.colon_notMem]
    rintro first second he
    obtain ⟨rfl, rfl⟩ := Prod.mk.inj (Option.some.inj he)
    exact ⟨hk.1.trim, user, hk.2, rfl⟩
  case sharesOutstanding service => exact hk.trim
  case feeShares service => exact hk.trim
  case bookShares service user =>
    rw [splitColon_join hk.1.colon_notMem]
    rintro first second he
    obtain ⟨rfl, rfl⟩ := Prod.mk.inj (Option.some.inj he)
    exact ⟨hk.1.trim, user, hk.2, rfl⟩
  case bookCash user => exact ⟨user, hk, rfl⟩
  case scopeClaim user scope =>
    rw [splitColon_join hk.2.1.colon_notMem]
    rintro first second he
    obtain ⟨rfl, rfl⟩ := Prod.mk.inj (Option.some.inj he)
    exact ⟨user, hk.1, rfl⟩

/-- A user's id in the text it was read from. -/
theorem parseUserId_ok (hreads : ∀ u : Uuid, u.Minted → parseUuid u.text = some u)
    (hminted : ∀ text u, parseUuid text = some u → u.Minted) {raw : String} {user : UserId}
    (h : parseUserId parseUuid raw = .ok user) :
    user.Minted ∧ (IdText raw → user.text = raw) := by
  unfold parseUserId at h
  split at h
  case h_2 => cases h
  case h_1 u hu =>
    obtain rfl := Except.ok.inj h
    refine ⟨hminted _ _ hu, ?_⟩
    rintro ⟨v, hv, rfl⟩
    rw [Option.some.inj (hu.symm.trans (hreads v hv))]

/-- A slug in the text it was read from. -/
theorem ServiceId.parse_trimmed {raw : String} {s : ServiceId} (h : ServiceId.parse raw = .ok s)
    (htrim : Trimmed raw) : s.slug = raw := by
  rw [← String.toList_inj, (ServiceId.parse_ok h).2, htrim]

/-- A slug and a user's id in the text they were read from. -/
theorem serviceAndUser_ok (hreads : ∀ u : Uuid, u.Minted → parseUuid u.text = some u)
    (hminted : ∀ text u, parseUuid text = some u → u.Minted) {rest : String} {service : ServiceId}
    {user : UserId} (h : serviceAndUser parseUuid rest = .ok (service, user))
    (hspelled : ∀ first second, splitColon rest = some (first, second) →
      Trimmed first ∧ IdText second) :
    service.Shaped ∧ user.Minted ∧ service.slug ++ ":" ++ user.text = rest := by
  unfold serviceAndUser at h
  split at h
  case h_1 => cases h
  case h_2 first second hfirst =>
    obtain ⟨service', hservice, h⟩ := bind_ok_iff.mp h
    obtain ⟨user', huser, h⟩ := bind_ok_iff.mp h
    obtain ⟨rfl, rfl⟩ := Prod.mk.inj (Except.ok.inj h)
    obtain ⟨htrim, hid⟩ := hspelled first second hfirst
    obtain ⟨hu, hut⟩ := parseUserId_ok hreads hminted huser
    refine ⟨(ServiceId.parse_ok hservice).1, hu, ?_⟩
    rw [ServiceId.parse_trimmed hservice htrim, hut hid, ← splitColon_eq_some hfirst]

/-- **What is accepted, and spelled as keys are, is the text of the key it is read as.** -/
theorem parseLogicalKey_canonical
    (hreads : ∀ u : Uuid, u.Minted → parseUuid u.text = some u)
    (hminted : ∀ text u, parseUuid text = some u → u.Minted) {raw : String} {k : LedgerAccountKey}
    (h : parseLogicalKey parseUuid raw = .ok k) (hcanonical : Canonical raw) :
    k.Formed ∧ k.logicalKey = raw := by
  unfold parseLogicalKey at h
  split_ifs at h with hclearing hhold hbank
  · rw [← Except.ok.inj h, hclearing]
    exact ⟨trivial, rfl⟩
  · rw [← Except.ok.inj h, hhold]
    exact ⟨trivial, rfl⟩
  · rw [← Except.ok.inj h, hbank]
    exact ⟨trivial, rfl⟩
  split at h
  case h_1 => cases h
  case h_2 head rest hsplit =>
    obtain ⟨hslug, hid, hpair⟩ := hcanonical head rest hsplit
    have hraw := splitColon_eq_some hsplit
    -- a key whose parts are these has this text
    have htext : ∀ k' : LedgerAccountKey, k'.parts = some (head, rest) → k'.logicalKey = raw :=
      fun k' hk' => (LedgerAccountKey.logicalKey_of_parts hk').trans hraw.symm
    unfold parseParts at h
    by_cases hhead : head = "wallet"
    · rw [if_pos hhead] at h
      obtain ⟨net, hnet, rfl⟩ := map_ok_iff.mp h
      exact ⟨trivial, htext _ (by rw [LedgerAccountKey.parts, Network.parse_ok.mp hnet, hhead])⟩
    rw [if_neg hhead] at h
    by_cases hhead : head = "user"
    · rw [if_pos hhead] at h
      obtain ⟨user, huser, rfl⟩ := map_ok_iff.mp h
      obtain ⟨hu, hut⟩ := parseUserId_ok hreads hminted huser
      have hut := hut (hid (by rw [hhead]; decide))
      exact ⟨hu, htext _ (by rw [LedgerAccountKey.parts, hut, hhead])⟩
    rw [if_neg hhead] at h
    by_cases hhead : head = "service"
    · rw [if_pos hhead] at h
      obtain ⟨service, hservice, rfl⟩ := map_ok_iff.mp h
      have hs := ServiceId.parse_trimmed hservice (hslug (by rw [hhead]; decide))
      exact ⟨(ServiceId.parse_ok hservice).1, htext _ (by rw [LedgerAccountKey.parts, hs, hhead])⟩
    rw [if_neg hhead] at h
    by_cases hhead : head = "shares"
    · rw [if_pos hhead] at h
      obtain ⟨⟨service, user⟩, hboth, rfl⟩ := map_ok_iff.mp h
      obtain ⟨hs, hu, hrest⟩ := serviceAndUser_ok hreads hminted hboth fun first second hfirst =>
        (hpair first second hfirst).1 (by rw [hhead]; decide)
      exact ⟨⟨hs, hu⟩, htext _ (by rw [LedgerAccountKey.parts, hrest, hhead])⟩
    rw [if_neg hhead] at h
    by_cases hhead : head = "shares_outstanding"
    · rw [if_pos hhead] at h
      obtain ⟨service, hservice, rfl⟩ := map_ok_iff.mp h
      have hs := ServiceId.parse_trimmed hservice (hslug (by rw [hhead]; decide))
      exact ⟨(ServiceId.parse_ok hservice).1, htext _ (by rw [LedgerAccountKey.parts, hs, hhead])⟩
    rw [if_neg hhead] at h
    by_cases hhead : head = "shares_fee"
    · rw [if_pos hhead] at h
      obtain ⟨service, hservice, rfl⟩ := map_ok_iff.mp h
      have hs := ServiceId.parse_trimmed hservice (hslug (by rw [hhead]; decide))
      exact ⟨(ServiceId.parse_ok hservice).1, htext _ (by rw [LedgerAccountKey.parts, hs, hhead])⟩
    rw [if_neg hhead] at h
    by_cases hhead : head = "book_shares"
    · rw [if_pos hhead] at h
      obtain ⟨⟨service, user⟩, hboth, rfl⟩ := map_ok_iff.mp h
      obtain ⟨hs, hu, hrest⟩ := serviceAndUser_ok hreads hminted hboth fun first second hfirst =>
        (hpair first second hfirst).1 (by rw [hhead]; decide)
      exact ⟨⟨hs, hu⟩, htext _ (by rw [LedgerAccountKey.parts, hrest, hhead])⟩
    rw [if_neg hhead] at h
    by_cases hhead : head = "book_cash"
    · rw [if_pos hhead] at h
      obtain ⟨user, huser, rfl⟩ := map_ok_iff.mp h
      obtain ⟨hu, hut⟩ := parseUserId_ok hreads hminted huser
      have hut := hut (hid (by rw [hhead]; decide))
      exact ⟨hu, htext _ (by rw [LedgerAccountKey.parts, hut, hhead])⟩
    rw [if_neg hhead] at h
    by_cases hhead : head = "scope_claim"
    · rw [if_pos hhead] at h
      split at h
      case h_1 => cases h
      case h_2 first second hfirst =>
        obtain ⟨scope, hscope, h⟩ := bind_ok_iff.mp h
        split_ifs at h with hmain
        obtain ⟨user, huser, rfl⟩ := map_ok_iff.mp h
        obtain ⟨hs, rfl⟩ := ScopeId.parse_ok.mp hscope
        obtain ⟨hu, hut⟩ := parseUserId_ok hreads hminted huser
        have hut := hut ((hpair _ _ hfirst).2 hhead)
        refine ⟨⟨hu, hs, fun he => hmain (decide_eq_true he)⟩, htext _ ?_⟩
        rw [LedgerAccountKey.parts, hut, ← splitColon_eq_some hfirst, hhead]
    rw [if_neg hhead] at h
    by_cases hhead : head = "scope_account"
    · rw [if_pos hhead] at h
      split at h
      case h_1 => cases h
      case h_2 first second hfirst =>
        obtain ⟨scope, hscope, hlabeled⟩ := bind_ok_iff.mp h
        obtain ⟨label, hlabel, hkey⟩ := bind_ok_iff.mp hlabeled
        obtain ⟨hs, rfl⟩ := ScopeId.parse_ok.mp hscope
        obtain ⟨hl, rfl⟩ := ScopeAccountLabel.parse_ok.mp hlabel
        rw [← Except.ok.inj hkey]
        refine ⟨⟨hs, hl⟩, htext _ ?_⟩
        rw [LedgerAccountKey.parts, ← splitColon_eq_some hfirst, hhead]
    rw [if_neg hhead] at h
    cases h

/-- **Keys and their texts.** Every key is read back from its text, no two keys share one, and of
the texts that are accepted, those of keys are the ones spelled as keys are. -/
theorem chart_keys_round_trip (hreads : ∀ u : Uuid, u.Minted → parseUuid u.text = some u)
    (hminted : ∀ text u, parseUuid text = some u → u.Minted) :
    (∀ k : LedgerAccountKey, k.Formed → parseLogicalKey parseUuid k.logicalKey = .ok k) ∧
    (∀ k k' : LedgerAccountKey, k.Formed → k'.Formed → k ≠ k' → k.logicalKey ≠ k'.logicalKey) ∧
    ∀ raw k, parseLogicalKey parseUuid raw = .ok k →
      ((∃ k' : LedgerAccountKey, k'.Formed ∧ k'.logicalKey = raw) ↔ Canonical raw) := by
  refine ⟨fun k hk => logicalKey_read hreads hk, fun k k' hk hk' hne he => hne ?_,
    fun raw k hread => ⟨?_, fun hcanonical => ⟨k, ?_⟩⟩⟩
  · have hread := logicalKey_read hreads hk
    rw [he, logicalKey_read hreads hk'] at hread
    exact (Except.ok.inj hread).symm
  · rintro ⟨k', hk', rfl⟩
    exact logicalKey_canonical hk'
  · exact parseLogicalKey_canonical hreads hminted hread hcanonical

end RoundTrip

/-! ## A slug with a space -/

/-- The value of a lower-case hexadecimal digit. -/
def hexValue (c : Char) : Nat := if c.isDigit then c.toNat - 48 else c.toNat - 87

/-- The number some hexadecimal digits write. -/
def hexNumber : List Char → Nat
  | [] => 0
  | c :: digits => hexValue c * 16 ^ digits.length + hexNumber digits

/-- Digits write what they are of. -/
theorem hexNumber_hexDigits (width n : Nat) : hexNumber (hexDigits width n) = n % 16 ^ width := by
  induction width with
  | zero => rw [pow_zero, Nat.mod_one]; rfl
  | succ width ih =>
    have hcons : hexDigits (width + 1) n =
        Nat.digitChar (n / 16 ^ width % 16) :: hexDigits width n := by
      simp [hexDigits, List.range_succ]
    have hlength : (hexDigits width n).length = width := by simp [hexDigits]
    have hvalue : ∀ d < 16, hexValue (Nat.digitChar d) = d := by decide
    rw [hcons, hexNumber, ih, hlength, hvalue _ (Nat.mod_lt _ (by decide)), Nat.mod_pow_succ,
      Nat.add_comm, Nat.mul_comm]

/-- A reader of ids in the one spelling they are displayed in. -/
def parseHyphenated (text : String) : Option Uuid :=
  let n := hexNumber (text.toList.filter (· ≠ '-'))
  if n < 2 ^ 128 ∧ (Uuid.raw n).text = text then some (.raw n) else none

/-- It reads what is displayed. -/
theorem parseHyphenated_text (u : Uuid) (hu : u.Minted) : parseHyphenated u.text = some u := by
  obtain ⟨n, hn, rfl⟩ := hu
  have hvalue : hexNumber ((Uuid.raw n).text.toList.filter (· ≠ '-')) = n := by
    rw [Uuid.filter_text_raw, hexNumber_hexDigits]
    exact Nat.mod_eq_of_lt hn
  unfold parseHyphenated
  rw [hvalue]
  exact if_pos ⟨hn, rfl⟩

/-- And reads ids of 128 bits. -/
theorem parseHyphenated_minted (text : String) (u : Uuid) (h : parseHyphenated text = some u) :
    u.Minted := by
  unfold parseHyphenated at h
  dsimp only at h
  split_ifs at h with hn
  exact ⟨_, hn.1, (Option.some.inj h).symm⟩

/-- **A text that is no key's is accepted**: a space before the slug. -/
theorem spaced_slug_accepted :
    parseLogicalKey parseHyphenated "service: fee" = .ok (.serviceClaim .fee) ∧
    ∀ k : LedgerAccountKey, k.Formed → k.logicalKey ≠ "service: fee" := by
  refine ⟨by decide, fun k hk he => ?_⟩
  have hcanonical := logicalKey_canonical hk
  rw [he] at hcanonical
  have htrimmed := (hcanonical "service" " fee" (by decide)).1 (by decide)
  exact absurd htrimmed (by decide)

/-- The claim of the fee allocation, there and back. -/
theorem chart_keys_round_trip_sample :
    parseLogicalKey parseHyphenated (LedgerAccountKey.serviceClaim .fee).logicalKey =
      .ok (.serviceClaim .fee) :=
  (chart_keys_round_trip parseHyphenated_text parseHyphenated_minted).1 (.serviceClaim .fee)
    ⟨by decide, by decide, by decide⟩

end Banking
