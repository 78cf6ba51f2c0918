import Banking.Approvals
import Banking.Idempotency
import Banking.Subjects

/-! # Transfers between scope accounts

A transfer as the store restores it: a client's fee sweep, an approved operation's execution, or
banking's own route of swept fees. One check stands under all three; what each constructor builds is
what the check accepts. -/

namespace Banking

/-! ## Subject references -/

/-- A lower-case hexadecimal digit. -/
def isHexLower (c : Char) : Bool := c.isDigit || ('a' ≤ c && c ≤ 'f')

/-- Five hyphenated groups of lower-case hexadecimal digits. -/
def isLowercaseUuid (raw : List Char) : Bool :=
  raw.length = 36 &&
    raw.zipIdx.all fun b => if b.2 ∈ [8, 13, 18, 23] then b.1 = '-' else isHexLower b.1

/-- A type, a colon, a lower-case UUID: at most 128 bytes. -/
def SubjectRef.parse (raw : String) : Except DomainError SubjectRef :=
  let refuse := DomainError.validation
    ("subject_ref must be <type>:<lowercase uuid>, at most 128 bytes: " ++ raw.quote)
  if 128 < raw.utf8ByteSize then .error refuse
  else
    match Text.splitOnce ':' raw.toList with
    | none => .error refuse
    | some (kind, uuid) =>
      if (kind.head?.any isAsciiLowercase &&
          kind.all fun b => isAsciiLowercase b || b.isDigit || b = '_') && isLowercaseUuid uuid then
        .ok ⟨raw⟩
      else .error refuse

/-! ## Transfers -/

/-- A transfer whose terms pass the check. -/
structure ScopeTransfer where
  id : Uuid
  terms : TransferTerms
  accepted : terms.check = .ok ()

/-- A transfer rebuilt from storage. -/
def ScopeTransfer.restore (id : Uuid) (terms : TransferTerms) : Except DomainError ScopeTransfer :=
  match h : terms.check with
  | .error e => .error e
  | .ok () => .ok ⟨id, terms, h⟩

/-- The event the relay posts a transfer from. -/
def ScopeTransfer.transferred (t : ScopeTransfer) : ScopeLedgerEvent :=
  .transferred t.terms.scope t.terms.fromLabel t.terms.toScope t.terms.toLabel t.terms.amount

/-- A new transfer and its event. -/
def ScopeTransfer.request (id : Uuid) (terms : TransferTerms) :
    Except DomainError (ScopeTransfer × List ScopeLedgerEvent) :=
  (ScopeTransfer.restore id terms).map fun t => (t, [t.transferred])

/-- The scope whose fees stay inside it. -/
def FEE_STAYS_IN : String := "invest"

/-- The cash of the fee allocation. -/
def ScopeAccountLabel.feeAllocation : ScopeAccountLabel := ⟨"alloc:fee"⟩

/-- Where banking sweeps what a client swept into a scope's collector. -/
def feeRoute (scope : ScopeId) : ScopeId × ScopeAccountLabel :=
  if scope.id = FEE_STAYS_IN then (scope, .feeAllocation) else (.main, .treasury)

/-- The terms of a route out of a scope's collector. -/
def routeTerms (scope : ScopeId) (amount : Nat) (subjectRef : SubjectRef) : TransferTerms :=
  { client := .banking, scope, fromLabel := .fee, toScope := (feeRoute scope).1
    toLabel := (feeRoute scope).2, amount, reason := .feeRoute, subjectRef, memo := ""
    operationId := none }

/-- banking's route of an amount swept by the transfer `funding`, which its reference names. -/
def ScopeTransfer.routeFee (id funding : Uuid) (scope : ScopeId) (amount : Nat) :
    Except DomainError (ScopeTransfer × List ScopeLedgerEvent) := do
  let subjectRef ← SubjectRef.parse ("fee_route:" ++ funding.text)
  ScopeTransfer.request id (routeTerms scope amount subjectRef)

/-- The terms of an approved operation's transfer. -/
def PendingOperation.transferTerms (op : PendingOperation) (subjectRef : SubjectRef)
    (toScope : ScopeId) (toLabel : ScopeAccountLabel) (amount : Nat) : TransferTerms :=
  { client := op.terms.client, scope := op.terms.scope, fromLabel := op.terms.fromLabel, toScope
    toLabel, amount, reason := .approved, subjectRef, memo := op.terms.memo
    operationId := some op.id }

/-- A terms' check passed is a transfer restored under them. -/
theorem ScopeTransfer.restore_ok_iff {id : Uuid} {terms : TransferTerms} {t : ScopeTransfer} :
    ScopeTransfer.restore id terms = .ok t ↔ t.id = id ∧ t.terms = terms := by
  unfold ScopeTransfer.restore
  constructor
  · intro h
    split at h
    · cases h
    · cases h
      exact ⟨rfl, rfl⟩
  · rintro ⟨rfl, rfl⟩
    have hcheck := t.accepted
    split
    · next e he => simp [hcheck] at he
    · rfl

/-- A new transfer is the one its terms restore to. -/
theorem ScopeTransfer.request_ok {id : Uuid} {terms : TransferTerms}
    {r : ScopeTransfer × List ScopeLedgerEvent} (h : ScopeTransfer.request id terms = .ok r) :
    ScopeTransfer.restore id terms = .ok r.1 ∧ r.2 = [r.1.transferred] := by
  obtain ⟨t, ht, rfl⟩ := map_ok_iff.mp h
  exact ⟨ht, rfl⟩

/-- Terms that pass the check make a transfer. -/
theorem ScopeTransfer.request_of_check {terms : TransferTerms} (id : Uuid)
    (h : terms.check = .ok ()) :
    ∃ t, ScopeTransfer.request id terms = .ok (t, [t.transferred]) ∧
      ScopeTransfer.restore id t.terms = .ok t ∧ t.terms = terms := by
  have hrestore : ScopeTransfer.restore id terms = .ok ⟨id, terms, h⟩ :=
    ScopeTransfer.restore_ok_iff.mpr ⟨rfl, rfl⟩
  refine ⟨⟨id, terms, h⟩, ?_, hrestore, rfl⟩
  rw [ScopeTransfer.request, hrestore]
  rfl

/-! ## The check -/

/-- What the check of a transfer's terms accepts, each reason with its own ends. -/
structure TransferTerms.Sound (t : TransferTerms) : Prop where
  positive : t.amount ≠ 0
  scope : t.scope.isMain = false
  main : t.toScope.isMain = true → t.reason = .feeRoute
  apart : ¬ (t.scope = t.toScope ∧ t.fromLabel = t.toLabel)
  source : t.fromLabel.isReserved = true → t.reason = .feeRoute
  sweep : t.reason = .feeSweep → t.toLabel = .fee ∧ t.toScope = t.scope ∧ t.operationId = none
  approved : t.reason = .approved → t.operationId.isSome = true ∧ t.toLabel.isReserved = false
  route : t.reason = .feeRoute → t.client = .banking ∧ t.operationId = none ∧ t.fromLabel = .fee
  memo : validateMemo t.memo = .ok ()

/-- What passes the check is sound. -/
theorem TransferTerms.sound_of_check {t : TransferTerms} (h : t.check = .ok ()) : t.Sound := by
  unfold TransferTerms.check at h
  cases hreason : t.reason with
  | feeSweep =>
    simp only [hreason, reduceCtorEq, not_false_eq_true, and_true] at h
    split_ifs at h with hamount hmain hapart hsource hends hoperation
    rw [not_or] at hmain
    rw [not_or, not_not, not_not] at hends
    exact ⟨hamount, by simpa using hmain.1, fun hm => absurd hm hmain.2, hapart,
      fun hr => absurd hr hsource, fun _ => ⟨hends.1, hends.2, by simpa using hoperation⟩,
      by simp [hreason], by simp [hreason], h⟩
  | approved =>
    simp only [hreason, reduceCtorEq, not_false_eq_true, and_true] at h
    split_ifs at h with hamount hmain hapart hsource hoperation hends
    rw [not_or] at hmain
    exact ⟨hamount, by simpa using hmain.1, fun hm => absurd hm hmain.2, hapart,
      fun hr => absurd hr hsource, by simp [hreason],
      fun _ => ⟨Option.isSome_iff_ne_none.mpr (by simpa using hoperation), by simpa using hends⟩,
      by simp [hreason], h⟩
  | feeRoute =>
    simp only [hreason, not_true, and_false, or_false, if_false] at h
    split_ifs at h with hamount hmain hapart hform
    simp only [not_or, not_not] at hform
    exact ⟨hamount, by simpa using hmain, fun _ => hreason, hapart, fun _ => hreason,
      by simp [hreason], by simp [hreason],
      fun _ => ⟨hform.1, by simpa using hform.2.1, hform.2.2⟩, h⟩

/-- What is sound passes the check. -/
theorem TransferTerms.Sound.check {t : TransferTerms} (h : t.Sound) : t.check = .ok () := by
  unfold TransferTerms.check
  have hmain := h.main
  have hsource := h.source
  have hapart := h.apart
  cases hreason : t.reason with
  | feeSweep =>
    obtain ⟨hto, hscope, hoperation⟩ := h.sweep hreason
    rw [hreason] at hmain hsource
    simp_all [h.positive, h.scope, h.memo]
  | approved =>
    obtain ⟨hoperation, hto⟩ := h.approved hreason
    have hsome : t.operationId ≠ none := Option.isSome_iff_ne_none.mp hoperation
    rw [hreason] at hmain hsource
    simp_all [h.positive, h.scope, h.memo]
  | feeRoute =>
    obtain ⟨hclient, hoperation, hfrom⟩ := h.route hreason
    simp_all [h.positive, h.scope, h.memo]

/-! ## What the constructors build -/

/-- The text of an id is a lower-case UUID. -/
theorem isLowercaseUuid_text (n : Nat) : isLowercaseUuid (Uuid.raw n).text.toList = true := by
  have hdigit : ∀ m, isHexLower (Nat.digitChar (m % 16)) = true := by
    have hall : ∀ d < 16, isHexLower (Nat.digitChar d) = true := by decide
    exact fun m => hall _ (Nat.mod_lt _ (by decide))
  have htext : (Uuid.raw n).text.toList = List.intercalate ['-']
      [(hexDigits 32 n).take 8, ((hexDigits 32 n).drop 8).take 4, ((hexDigits 32 n).drop 12).take 4,
        ((hexDigits 32 n).drop 16).take 4, (hexDigits 32 n).drop 20] := by
    simp [Uuid.text]
  rw [htext]
  simp [hexDigits, List.range_succ, isLowercaseUuid, List.intercalate, hdigit]

/-- A text of one-byte characters takes one byte for each. -/
theorem utf8ByteSize_ofList_eq {l : List Char} (h : ∀ c ∈ l, c.utf8Size = 1) :
    (String.ofList l).utf8ByteSize = l.length := by
  induction l with
  | nil => rfl
  | cons c l ih =>
    have hcons : String.ofList (c :: l) = String.singleton c ++ String.ofList l := by simp
    rw [hcons, String.utf8ByteSize_append, String.utf8ByteSize_singleton, List.length_cons,
      ih fun d hd => h d (List.mem_cons_of_mem _ hd), h c List.mem_cons_self, Nat.add_comm]

/-- The text of an id is 36 bytes. -/
theorem Uuid.utf8ByteSize_text (n : Nat) : (Uuid.raw n).text.utf8ByteSize = 36 := by
  have hlength : (Uuid.raw n).text.toList.length = 36 := by simp [Uuid.text, hexDigits]
  rw [← String.ofList_toList (s := (Uuid.raw n).text), utf8ByteSize_ofList_eq, hlength]
  intro c hc
  by_cases hhyphen : c = '-'
  · subst hhyphen
    decide
  · have hdigit : c ∈ hexDigits 32 n := by
      rw [← Uuid.filter_text_raw]
      exact List.mem_filter.mpr ⟨hc, by simpa using hhyphen⟩
    obtain ⟨i, -, rfl⟩ := List.mem_map.mp hdigit
    have hall : ∀ d < 16, (Nat.digitChar d).utf8Size = 1 := by decide
    exact hall _ (Nat.mod_lt _ (by decide))

/-- The reference of a route names the sweep it routes. -/
theorem SubjectRef.parse_fee_route {funding : Uuid} (h : funding.Minted) :
    SubjectRef.parse ("fee_route:" ++ funding.text) = .ok ⟨"fee_route:" ++ funding.text⟩ := by
  obtain ⟨n, -, rfl⟩ := h
  have hsize : ("fee_route:" ++ (Uuid.raw n).text).utf8ByteSize = 46 := by
    rw [String.utf8ByteSize_append, Uuid.utf8ByteSize_text]
    rfl
  have hsplit : Text.splitOnce ':' ("fee_route:" ++ (Uuid.raw n).text).toList =
      some ("fee_route".toList, (Uuid.raw n).text.toList) := by
    rw [← @Text.splitOnce_join ':' "fee_route".toList (by decide)]
    simp
  have hkind : ("fee_route".toList.head?.any isAsciiLowercase &&
      "fee_route".toList.all fun b => isAsciiLowercase b || b.isDigit || b = '_') = true := by
    decide
  unfold SubjectRef.parse
  rw [hsize, hsplit, if_neg (by decide)]
  simp only [hkind, isLowercaseUuid_text, Bool.and_self, if_true]

/-- A route out of a scope's collector, anywhere but `main`, passes the check. -/
theorem routeTerms_sound {scope : ScopeId} {amount : Nat} (ref : SubjectRef)
    (hscope : scope.isMain = false) (hamount : amount ≠ 0) :
    (routeTerms scope amount ref).Sound where
  positive := hamount
  scope := hscope
  main _ := rfl
  apart h := by
    have hne : ScopeAccountLabel.fee ≠ (feeRoute scope).2 := by
      unfold feeRoute
      split_ifs
      · exact show ScopeAccountLabel.fee ≠ .feeAllocation by decide
      · exact show ScopeAccountLabel.fee ≠ .treasury by decide
    exact hne h.2
  source _ := rfl
  sweep h := nomatch h
  approved h := nomatch h
  route _ := ⟨rfl, rfl, rfl⟩
  memo := rfl

/-- An approved operation's transfer passes the check. -/
theorem PendingOperation.transferTerms_sound (op : PendingOperation) (ref : SubjectRef)
    {toScope : ScopeId} {toLabel : ScopeAccountLabel} {amount : Nat}
    (hbody : op.terms.body = .transfer toScope toLabel amount) :
    (op.transferTerms ref toScope toLabel amount).Sound := by
  have hchecked := op.checked
  unfold OperationTerms.check at hchecked
  rw [hbody] at hchecked
  split_ifs at hchecked with hmain hsource
  cases hmemo : validateMemo op.terms.memo with
  | error e => simp [hmemo] at hchecked
  | ok u =>
    rw [hmemo] at hchecked
    dsimp only at hchecked
    split_ifs at hchecked with hamount hends hapart
    simp only [Bool.or_eq_true, not_or, Bool.not_eq_true] at hends
    exact
      { positive := hamount
        scope := Bool.eq_false_iff.mpr hmain
        main := fun h => absurd h (by simp [PendingOperation.transferTerms, hends.1])
        apart := fun h => hapart ⟨h.1.symm, h.2.symm⟩
        source := fun h => absurd h hsource
        sweep := fun h => nomatch h
        approved := fun _ => ⟨rfl, hends.2⟩
        route := fun h => nomatch h
        memo := hmemo }

/-! ## Reserved money -/

/-- What the check accepts, read for the labels banking keeps to itself. -/
theorem TransferTerms.Sound.reserved {t : TransferTerms} (h : t.Sound) :
    (t.fromLabel = .fee ∨ t.toScope.isMain = true → t.reason = .feeRoute) ∧
    (t.reason ≠ .feeRoute → t.fromLabel.isReserved = false ∧
      (t.toLabel.isReserved = true →
        t.reason = .feeSweep ∧ t.toLabel = .fee ∧ t.toScope = t.scope)) ∧
    (t.scope, t.fromLabel) ≠ (t.toScope, t.toLabel) := by
  refine ⟨?_, fun hnot => ⟨?_, fun hto => ?_⟩, ?_⟩
  · rintro (hfrom | hmain)
    · exact h.source (by rw [hfrom]; decide)
    · exact h.main hmain
  · exact Bool.eq_false_iff.mpr fun hfrom => hnot (h.source hfrom)
  · cases hreason : t.reason with
    | feeSweep => exact ⟨rfl, (h.sweep hreason).1, (h.sweep hreason).2.1⟩
    | approved => simp [(h.approved hreason).2] at hto
    | feeRoute => exact absurd hreason hnot
  · exact fun he => h.apart ⟨congrArg Prod.fst he, congrArg Prod.snd he⟩

/-- The sweep of a client's fees into its scope's collector. -/
def sampleFeeSweep : TransferTerms :=
  { client := ⟨"desk"⟩, scope := ⟨"sa"⟩, fromLabel := ⟨"svc:desk"⟩, toScope := ⟨"sa"⟩
    toLabel := .fee, amount := 3, reason := .feeSweep, subjectRef := ⟨"order:1"⟩, memo := "fees"
    operationId := none }

/-- **A fee sweep touches a reserved label**: it is accepted, it is no fee route, and it lands in
the fee collector. -/
theorem fee_sweep_touches_reserved :
    ¬ ∀ (id : Uuid) (terms : TransferTerms) (t : ScopeTransfer),
      ScopeTransfer.restore id terms = .ok t → terms.reason ≠ .feeRoute →
        terms.fromLabel.isReserved = false ∧ terms.toLabel.isReserved = false := by
  intro h
  have haccepted : sampleFeeSweep.check = .ok () := by decide
  obtain ⟨-, hto⟩ := h (.raw 1) sampleFeeSweep ⟨.raw 1, sampleFeeSweep, haccepted⟩
    (ScopeTransfer.restore_ok_iff.mpr ⟨rfl, rfl⟩) (by decide)
  exact absurd hto (by decide)

/-- **Scope transfers respect reserved money.** Of the transfers a restore accepts: only a fee route
leaves a scope's collector or enters `main`; no other touches a reserved label, but for a fee sweep,
which lands in its own scope's collector; and the two ends differ. And what banking builds is
accepted with the terms it was built with: a route of a sweep out of any scope but `main`, an
approved operation's transfer, and a client's sweep. -/
theorem scope_transfers_respect_reserved :
    (∀ (id : Uuid) (terms : TransferTerms) (t : ScopeTransfer),
      ScopeTransfer.restore id terms = .ok t →
        (terms.fromLabel = .fee ∨ terms.toScope.isMain = true → terms.reason = .feeRoute) ∧
        (terms.reason ≠ .feeRoute → terms.fromLabel.isReserved = false ∧
          (terms.toLabel.isReserved = true →
            terms.reason = .feeSweep ∧ terms.toLabel = .fee ∧ terms.toScope = terms.scope)) ∧
        (terms.scope, terms.fromLabel) ≠ (terms.toScope, terms.toLabel)) ∧
    (∀ (id funding : Uuid) (scope : ScopeId) (amount : Nat), funding.Minted →
      scope.isMain = false → amount ≠ 0 →
        ∃ t, ScopeTransfer.routeFee id funding scope amount = .ok (t, [t.transferred]) ∧
          t.terms = routeTerms scope amount ⟨"fee_route:" ++ funding.text⟩ ∧
          ScopeTransfer.restore id t.terms = .ok t) ∧
    (∀ (id : Uuid) (op : PendingOperation) (ref : SubjectRef) (toScope : ScopeId)
      (toLabel : ScopeAccountLabel) (amount : Nat),
      op.terms.body = .transfer toScope toLabel amount →
        ∃ t, ScopeTransfer.request id (op.transferTerms ref toScope toLabel amount) =
            .ok (t, [t.transferred]) ∧
          t.terms = op.transferTerms ref toScope toLabel amount ∧
          ScopeTransfer.restore id t.terms = .ok t) ∧
    (∀ (id : Uuid) (client : ClientId) (request : ScopeTransferRequest) (terms : TransferTerms),
      request.accept client = .ok terms →
        ∃ t, ScopeTransfer.request id terms = .ok (t, [t.transferred]) ∧ t.terms = terms ∧
          ScopeTransfer.restore id t.terms = .ok t) ∧
    ∀ (id : Uuid) (terms : TransferTerms) (r : ScopeTransfer × List ScopeLedgerEvent),
      ScopeTransfer.request id terms = .ok r →
        r.1.terms = terms ∧ ScopeTransfer.restore id r.1.terms = .ok r.1 := by
  refine ⟨?_, ?_, ?_, ?_, ?_⟩
  · intro id terms t h
    obtain ⟨-, rfl⟩ := ScopeTransfer.restore_ok_iff.mp h
    exact (TransferTerms.sound_of_check t.accepted).reserved
  · intro id funding scope amount hminted hscope hamount
    obtain ⟨t, hrequest, hrestore, hterms⟩ := ScopeTransfer.request_of_check id
      (routeTerms_sound ⟨"fee_route:" ++ funding.text⟩ hscope hamount).check
    refine ⟨t, ?_, hterms, hrestore⟩
    rw [ScopeTransfer.routeFee, SubjectRef.parse_fee_route hminted]
    exact hrequest
  · intro id op ref toScope toLabel amount hbody
    obtain ⟨t, hrequest, hrestore, hterms⟩ :=
      ScopeTransfer.request_of_check id (op.transferTerms_sound ref hbody).check
    exact ⟨t, hrequest, hterms, hrestore⟩
  · intro id client request terms haccept
    have hcheck : terms.check = .ok () := by
      unfold ScopeTransferRequest.accept at haccept
      split_ifs at haccept
      dsimp only at haccept
      split at haccept
      · cases haccept
      · next hok =>
        cases haccept
        exact hok
    obtain ⟨t, hrequest, hrestore, hterms⟩ := ScopeTransfer.request_of_check id hcheck
    exact ⟨t, hrequest, hterms, hrestore⟩
  · intro id terms r h
    obtain ⟨hrestore, -⟩ := ScopeTransfer.request_ok h
    have hterms := (ScopeTransfer.restore_ok_iff.mp hrestore).2
    exact ⟨hterms, hterms.symm ▸ hrestore⟩

/-- The route of a sweep in `sa` enters `main`, and is accepted as it was built. -/
theorem scope_transfers_respect_reserved_sample :
    (routeTerms ⟨"sa"⟩ 3 ⟨"fee_route:" ++ (Uuid.raw 7).text⟩).toScope.isMain = true ∧
      ∃ t, ScopeTransfer.routeFee (.raw 1) (.raw 7) ⟨"sa"⟩ 3 = .ok (t, [t.transferred]) ∧
        t.terms = routeTerms ⟨"sa"⟩ 3 ⟨"fee_route:" ++ (Uuid.raw 7).text⟩ ∧
        ScopeTransfer.restore (.raw 1) t.terms = .ok t :=
  ⟨by decide, scope_transfers_respect_reserved.2.1 (.raw 1) (.raw 7) ⟨"sa"⟩ 3 ⟨7, by decide, rfl⟩
    (by decide) (by decide)⟩

end Banking
