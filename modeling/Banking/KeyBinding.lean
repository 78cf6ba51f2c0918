import Banking.Idempotency

/-! # A key binds its terms

Within one key's namespace the text stored beside a key is the terms it was used for: a repeat is
answered with the first result where it asks for the same terms, and is a conflict where it does
not. A payout's lines are compared as a multiset. The client and the scope of a transfer or an
invoice, and the user of a mandate, are in the key and not in the text. -/

namespace Banking

open Framing (Delimited delimited_terminated)

/-! ## Fields behind their length -/

/-- Two fronts of one text that take as many bytes are one front. -/
theorem append_inj_of_utf8Len {a a' s s' : List Char}
    (hlen : String.utf8Len a = String.utf8Len a') (he : a ++ s = a' ++ s') : a = a' ∧ s = s' := by
  induction a generalizing a' with
  | nil =>
    cases a' with
    | nil => exact ⟨rfl, he⟩
    | cons c a' =>
      have hpos := Char.utf8Size_pos c
      simp only [String.utf8Len_nil, String.utf8Len_cons] at hlen
      omega
  | cons c a ih =>
    cases a' with
    | nil =>
      have hpos := Char.utf8Size_pos c
      simp only [String.utf8Len_nil, String.utf8Len_cons] at hlen
      omega
    | cons c' a' =>
      simp only [List.cons_append, List.cons.injEq] at he
      obtain ⟨rfl, hrest⟩ := he
      simp only [String.utf8Len_cons, Nat.add_right_cancel_iff] at hlen
      obtain ⟨rfl, hs⟩ := ih hlen hrest
      exact ⟨rfl, hs⟩

theorem utf8ByteSize_eq_utf8Len (s : String) : s.utf8ByteSize = String.utf8Len s.toList := by
  rw [← String.utf8ByteSize_ofList, String.ofList_toList]

/-- The characters of a field: its length, a colon, the field. -/
theorem toList_canonicalField (field : String) : (canonicalField field).toList =
    (Text.decimal field.utf8ByteSize ++ [':']) ++ field.toList := by
  simp only [canonicalField, String.toList_append, toList_toString_nat]
  rfl

/-- A field behind its length is told apart from any other, whatever it holds. -/
theorem delimited_canonicalField :
    Delimited (fun _ => True) fun field => (canonicalField field).toList := by
  intro field field' s s' _ _ he
  simp only [toList_canonicalField] at he
  rw [List.append_assoc, List.append_assoc (_ ++ _)] at he
  obtain ⟨hdecimal, hrest⟩ :=
    delimited_terminated ':' _ _ _ _ (notMem_decimal rfl) (notMem_decimal rfl) he
  have hlen := decimal_injective hdecimal
  rw [utf8ByteSize_eq_utf8Len, utf8ByteSize_eq_utf8Len] at hlen
  obtain ⟨hfield, hs⟩ := append_inj_of_utf8Len hlen hrest
  exact ⟨String.toList_inj.mp hfield, hs⟩

/-- **Fields rendered alike are the same fields.** -/
theorem canonical_injective : Function.Injective canonical := by
  intro fields fields' h
  have hlist := congrArg String.toList h
  simp only [canonical, String.toList_intercalate, List.map_map] at hlist
  refine delimited_canonicalField.joined (fun field _ => ?_) (fun _ _ => trivial)
    (fun _ _ => trivial) hlist
  rw [toList_canonicalField]
  simp

theorem canonical_inj {fields fields' : List String} :
    canonical fields = canonical fields' ↔ fields = fields' := canonical_injective.eq_iff

/-! ## Numbers and fields that may be missing -/

/-- The characters of a number below zero. -/
theorem toList_toString_negSucc (n : Nat) :
    (toString (Int.negSucc n)).toList = '-' :: Text.decimal (n + 1) := by
  have hminus : toString (Int.negSucc n) = "-" ++ toString (n + 1) := rfl
  rw [hminus, String.toList_append, toList_toString_nat]
  rfl

/-- An integer is written in one way. -/
theorem toString_int_injective : Function.Injective (fun n : Int => toString n) := by
  intro n m h
  have hlist := congrArg String.toList (show toString n = toString m from h)
  have hminus : ∀ k : Nat, '-' ∉ Text.decimal k := fun k => notMem_decimal rfl
  have hnat : ∀ k : Nat, (toString (Int.ofNat k)).toList = Text.decimal k := toList_toString_nat
  cases n with
  | ofNat n =>
    cases m with
    | ofNat m =>
      rw [hnat, hnat] at hlist
      rw [decimal_injective hlist]
    | negSucc m =>
      rw [hnat, toList_toString_negSucc] at hlist
      exact absurd (hlist ▸ List.mem_cons_self) (hminus n)
  | negSucc n =>
    cases m with
    | ofNat m =>
      rw [hnat, toList_toString_negSucc] at hlist
      exact absurd (hlist ▸ List.mem_cons_self) (hminus m)
    | negSucc m =>
      rw [toList_toString_negSucc, toList_toString_negSucc, List.cons.injEq] at hlist
      have := decimal_injective hlist.2
      rw [Nat.succ.inj this]

theorem toString_nat_ne_empty (n : Nat) : toString n ≠ "" := by
  intro h
  have hlist := congrArg String.toList h
  rw [toList_toString_nat] at hlist
  exact Nat.toDigits_ne_nil hlist

theorem toString_int_ne_empty (n : Int) : toString n ≠ "" := by
  cases n with
  | ofNat n => exact toString_nat_ne_empty n
  | negSucc n =>
    intro h
    have hlist := congrArg String.toList h
    rw [toList_toString_negSucc] at hlist
    cases hlist

/-- A missing field is told apart from every one that is something. -/
theorem getD_empty_inj {α : Type} {f : α → String} (hf : Function.Injective f)
    {o o' : Option α} (hne : ∀ a ∈ o, f a ≠ "") (hne' : ∀ a ∈ o', f a ≠ "")
    (h : (o.map f).getD "" = (o'.map f).getD "") : o = o' := by
  cases o with
  | none =>
    cases o' with
    | none => rfl
    | some b => exact absurd h.symm (hne' b rfl)
  | some a =>
    cases o' with
    | none => exact absurd h (hne a rfl)
    | some b => rw [hf h]

/-! ## Mandates -/

/-- The names of operations hold no comma. -/
theorem MandateOperation.comma_notMem (operation : MandateOperation) :
    ',' ∉ operation.asStr.toList := by
  cases operation <;> decide

theorem MandateOperation.newline_notMem (operation : MandateOperation) :
    '\n' ∉ operation.asStr.toList := by
  cases operation <;> decide

theorem MandateOperation.asStr_injective : Function.Injective MandateOperation.asStr := by
  intro operation operation' h
  revert h
  cases operation <;> cases operation' <;> decide

/-- A mandate lists at least one operation. -/
theorem MandateTerms.operations_ne_nil (t : MandateTerms) : t.operations ≠ [] := by
  obtain ⟨asked, h⟩ := t.checked
  unfold checkTerms at h
  split_ifs at h
  cases hordered : orderOperations asked with
  | error e => rw [hordered] at h; cases h
  | ok ordered =>
    rw [hordered] at h
    dsimp only at h
    split_ifs at h with hempty
    · split at h
      · cases h
      · split_ifs at h
        cases h
        exact hempty
      · cases h
      · cases h
        exact hempty

/-- The operations' names, joined by commas. -/
def operationNames (operations : List MandateOperation) : String :=
  String.intercalate "," (operations.map MandateOperation.asStr)

theorem operationNames_inj {operations operations' : List MandateOperation}
    (hne : operations ≠ []) (hne' : operations' ≠ [])
    (h : operationNames operations = operationNames operations') : operations = operations' := by
  have hlist := congrArg String.toList h
  simp only [operationNames, String.toList_intercalate, List.map_map] at hlist
  have hcomma : ∀ operations : List MandateOperation,
      ∀ g ∈ operations.map (String.toList ∘ MandateOperation.asStr), ',' ∉ g := by
    intro operations g hg
    obtain ⟨operation, -, rfl⟩ := List.mem_map.mp hg
    exact operation.comma_notMem
  have hnames := Framing.intercalate_injective (by simpa using hne) (by simpa using hne')
    (hcomma operations) (hcomma operations') hlist
  refine List.map_injective_iff.mpr ?_ hnames
  exact Function.Injective.comp (fun _ _ => String.toList_inj.mp) MandateOperation.asStr_injective

/-- The lines of a mandate's text. -/
def MandateTerms.lines (t : MandateTerms) : List String :=
  [t.scope.id, t.client.id, toString t.caps.perOp, toString t.caps.per24h,
    toString t.caps.outstanding, (t.caps.bookFill24h.map fun cap => toString cap).getD "",
    operationNames t.operations, (t.expiresAt.map fun time => toString time).getD ""]

theorem MandateTerms.canonical_eq (t : MandateTerms) :
    t.canonical = String.intercalate "\n" t.lines := rfl

/-- A number that may be missing holds no line feed. -/
theorem newline_notMem_getD {α : Type} {f : α → String} (hf : ∀ a, '\n' ∉ (f a).toList)
    (o : Option α) : '\n' ∉ ((o.map f).getD "").toList := by
  cases o with
  | none => exact (by decide : '\n' ∉ "".toList)
  | some a => exact hf a

theorem newline_notMem_nat (n : Nat) : '\n' ∉ (toString n).toList := by
  rw [toList_toString_nat]
  exact notMem_decimal rfl

theorem newline_notMem_int (n : Int) : '\n' ∉ (toString n).toList := by
  cases n with
  | ofNat n => exact newline_notMem_nat n
  | negSucc n =>
    rw [toList_toString_negSucc, List.mem_cons, not_or]
    exact ⟨by decide, notMem_decimal rfl⟩

theorem newline_notMem_operationNames (operations : List MandateOperation) :
    '\n' ∉ (operationNames operations).toList := by
  rw [operationNames, String.toList_intercalate]
  refine Framing.notMem_intercalate (by decide) fun g hg => ?_
  simp only [List.map_map, List.mem_map] at hg
  obtain ⟨operation, -, rfl⟩ := hg
  exact operation.newline_notMem

/-- Each line of a mandate's text stays on its line. -/
theorem MandateTerms.newline_notMem (t : MandateTerms) : ∀ line ∈ t.lines, '\n' ∉ line.toList := by
  intro line hline
  simp only [MandateTerms.lines, List.mem_cons, List.not_mem_nil, or_false] at hline
  rcases hline with rfl | rfl | rfl | rfl | rfl | rfl | rfl | rfl
  · exact t.scope_shaped.plain.newline_notMem
  · exact t.client_shaped.plain.newline_notMem
  · exact newline_notMem_nat _
  · exact newline_notMem_nat _
  · exact newline_notMem_nat _
  · exact newline_notMem_getD newline_notMem_nat _
  · exact newline_notMem_operationNames _
  · exact newline_notMem_getD newline_notMem_int _

/-- **Two mandates of one user rendered alike are one set of terms.** -/
theorem MandateTerms.canonical_inj {t t' : MandateTerms} (huser : t.user = t'.user)
    (h : t.canonical = t'.canonical) : t = t' := by
  have hlist := congrArg String.toList h
  simp only [MandateTerms.canonical_eq, String.toList_intercalate] at hlist
  have hfeed : ∀ t : MandateTerms, ∀ g ∈ t.lines.map String.toList, '\n' ∉ g := by
    intro t g hg
    obtain ⟨line, hline, rfl⟩ := List.mem_map.mp hg
    exact t.newline_notMem line hline
  have hchars := Framing.intercalate_injective (by simp [MandateTerms.lines])
    (by simp [MandateTerms.lines]) (hfeed t) (hfeed t') hlist
  have hlines := List.map_injective_iff.mpr (fun _ _ => String.toList_inj.mp) hchars
  simp only [MandateTerms.lines, List.cons.injEq, and_true] at hlines
  obtain ⟨hscope, hclient, hperOp, hper24h, houtstanding, hbookFill, hoperations, hexpires⟩ :=
    hlines
  have hperOp := toString_nat_injective hperOp
  have hper24h := toString_nat_injective hper24h
  have houtstanding := toString_nat_injective houtstanding
  have hbookFill := getD_empty_inj toString_nat_injective (fun a _ => toString_nat_ne_empty a)
    (fun a _ => toString_nat_ne_empty a) hbookFill
  have hoperations := operationNames_inj t.operations_ne_nil t'.operations_ne_nil hoperations
  have hexpires := getD_empty_inj toString_int_injective (fun a _ => toString_int_ne_empty a)
    (fun a _ => toString_int_ne_empty a) hexpires
  obtain ⟨user, ⟨scope⟩, ⟨client⟩, ⟨perOp, per24h, outstanding, bookFill⟩, operations, expiresAt,
    _, _, _⟩ := t
  obtain ⟨user', ⟨scope'⟩, ⟨client'⟩, ⟨perOp', per24h', outstanding', bookFill'⟩, operations',
    expiresAt', _, _, _⟩ := t'
  dsimp only at *
  subst huser hscope hclient hperOp hper24h houtstanding hbookFill hoperations hexpires
  rfl

/-! ## Payout lines -/

/-- The characters of a line as a key stores it. -/
theorem RequestedLine.toList_rendered (line : RequestedLine) :
    line.rendered.toList = line.authSubject.toList ++ '|' :: Text.decimal line.amount := by
  simp only [RequestedLine.rendered, String.toList_append, toList_toString_nat, List.append_assoc]
  rfl

/-- A line is split at its last bar: the amount holds none, whatever the subject does. -/
theorem RequestedLine.rendered_injective : Function.Injective RequestedLine.rendered := by
  intro line line' h
  have hlist := congrArg (fun s => s.toList.reverse) h
  simp only [RequestedLine.toList_rendered, List.reverse_append, List.reverse_cons] at hlist
  have hbar : ∀ n : Nat, '|' ∉ (Text.decimal n).reverse := fun n hmem =>
    notMem_decimal rfl (List.mem_reverse.mp hmem)
  obtain ⟨hamount, hsubject⟩ := delimited_terminated '|' _ _ _ _ (hbar _) (hbar _) hlist
  obtain ⟨subject, amount⟩ := line
  obtain ⟨subject', amount'⟩ := line'
  obtain rfl := decimal_injective (List.reverse_inj.mp hamount)
  obtain rfl := String.toList_inj.mp (List.reverse_inj.mp hsubject)
  rfl

/-- **Lines rendered alike are one multiset of lines**, in whatever order they were listed. -/
theorem canonicalLines_eq_iff {lines lines' : List RequestedLine} :
    canonicalLines lines = canonicalLines lines' ↔ lines.Perm lines' := by
  rw [canonicalLines, canonicalLines, canonical_inj,
    ← List.map_perm_map_iff RequestedLine.rendered_injective]
  constructor
  · intro h
    exact (List.perm_insertionSort (· ≤ ·) _).symm.trans
      (h.symm ▸ List.perm_insertionSort (· ≤ ·) _)
  · intro h
    refine List.Perm.eq_of_pairwise' (List.pairwise_insertionSort _ _)
      (List.pairwise_insertionSort _ _) ?_
    exact (List.perm_insertionSort _ _).trans (h.trans (List.perm_insertionSort _ _).symm)

/-- What a payout asks for, its lines in whatever order. -/
def PayoutRequest.Same (r r' : PayoutRequest) : Prop :=
  { r with lines := r'.lines } = r' ∧ r.lines.Perm r'.lines

instance (r r' : PayoutRequest) : Decidable (r.Same r') := inferInstanceAs (Decidable (_ ∧ _))

theorem PayoutReason.asStr_injective : Function.Injective PayoutReason.asStr := by
  intro reason reason' h
  revert h
  cases reason <;> cases reason' <;> decide

/-- Two payouts of one client in one scope rendered alike ask for the same. -/
theorem PayoutRequest.canonical_eq_iff {r r' : PayoutRequest} (hclient : r.client = r'.client)
    (hscope : r.scope = r'.scope) : r.canonical = r'.canonical ↔ r.Same r' := by
  simp only [PayoutRequest.canonical, canonical_inj, List.cons.injEq, and_true,
    canonicalLines_eq_iff]
  obtain ⟨client, scope, ⟨label⟩, lines, reason, ⟨ref⟩, memo⟩ := r
  obtain ⟨client', scope', ⟨label'⟩, lines', reason', ⟨ref'⟩, memo'⟩ := r'
  dsimp only at hclient hscope
  subst hclient hscope
  constructor
  · rintro ⟨rfl, hreason, rfl, rfl, hlines⟩
    obtain rfl := PayoutReason.asStr_injective hreason
    exact ⟨rfl, hlines⟩
  · rintro ⟨hsame, hlines⟩
    simp only [PayoutRequest.mk.injEq, ScopeAccountLabel.mk.injEq, SubjectRef.mk.injEq,
      true_and] at hsame
    obtain ⟨rfl, rfl, rfl, rfl⟩ := hsame
    exact ⟨rfl, rfl, rfl, rfl, hlines⟩

/-! ## Transfers and invoices -/

theorem TransferReason.asStr_injective : Function.Injective TransferReason.asStr := by
  intro reason reason' h
  revert h
  cases reason <;> cases reason' <;> decide

/-- What an accepted transfer names: the request's fields, its own scope's fee collector, no
operation. -/
theorem ScopeTransferRequest.accept_terms {client : ClientId} {r : ScopeTransferRequest}
    {t : TransferTerms}
    (h : r.accept client = .ok t) : t.client = client ∧ t.scope = r.scope ∧ t.toScope = r.scope ∧
      t.toLabel = .fee ∧ t.operationId = none := by
  unfold ScopeTransferRequest.accept at h
  split_ifs at h with hreserved hfee
  dsimp only at h
  split at h
  · cases h
  · cases h
    exact ⟨rfl, rfl, rfl, not_not.mp hfee, rfl⟩

/-- Two transfers of one client in one scope rendered alike are one set of terms. -/
theorem TransferTerms.canonical_inj {client : ClientId} {r r' : ScopeTransferRequest}
    {t t' : TransferTerms} (h : r.accept client = .ok t) (h' : r'.accept client = .ok t')
    (hscope : r.scope = r'.scope) (he : t.canonical = t'.canonical) : t = t' := by
  obtain ⟨hclient, hscope₁, htoScope, htoLabel, hoperation⟩ := r.accept_terms h
  obtain ⟨hclient', hscope₁', htoScope', htoLabel', hoperation'⟩ := r'.accept_terms h'
  simp only [TransferTerms.canonical, Banking.canonical_inj, List.cons.injEq, and_true] at he
  obtain ⟨hfrom, -, hamount, hreason, hsubject, hmemo⟩ := he
  have hamount := toString_nat_injective hamount
  have hreason := TransferReason.asStr_injective hreason
  obtain ⟨tclient, tscope, ⟨tfrom⟩, ttoScope, ttoLabel, tamount, treason, ⟨tref⟩, tmemo, top⟩ := t
  obtain ⟨uclient, uscope, ⟨ufrom⟩, utoScope, utoLabel, uamount, ureason, ⟨uref⟩, umemo, uop⟩ := t'
  dsimp only at *
  subst hfrom hamount hreason hsubject hmemo
  rw [hclient, hclient', hscope₁, hscope₁', htoScope, htoScope', htoLabel, htoLabel', hoperation,
    hoperation', hscope]

/-- An accepted invoice names a payer, or nobody. -/
theorem CreateInvoice.accept_payer {c : CreateInvoice} (h : c.accept = .ok ()) :
    ∀ payer ∈ c.terms.payerAuthSubject, payer ≠ "" := by
  rintro payer hpayer rfl
  rw [Option.mem_def] at hpayer
  rw [CreateInvoice.accept, hpayer] at h
  cases h

/-- Two invoices of one client in one scope rendered alike are one invoice. -/
theorem CreateInvoice.canonical_inj {c c' : CreateInvoice} (h : c.accept = .ok ())
    (h' : c'.accept = .ok ()) (hclient : c.client = c'.client)
    (hscope : c.terms.scope = c'.terms.scope) (he : c.canonical = c'.canonical) : c = c' := by
  simp only [CreateInvoice.canonical, Banking.canonical_inj, List.cons.injEq, and_true] at he
  obtain ⟨hlabel, hamount, hmemo, hexpires, hpayer, hsubject⟩ := he
  have hamount := toString_nat_injective hamount
  have hexpires := toString_int_injective hexpires
  have hpayer := getD_empty_inj Function.injective_id (CreateInvoice.accept_payer h)
    (CreateInvoice.accept_payer h') (by simpa using hpayer)
  obtain ⟨client, ⟨scope, ⟨label⟩, amount, expiresAt, payer⟩, memo, ⟨ref⟩⟩ := c
  obtain ⟨client', ⟨scope', ⟨label'⟩, amount', expiresAt', payer'⟩, memo', ⟨ref'⟩⟩ := c'
  dsimp only at *
  subst hclient hscope hlabel hamount hmemo hexpires hpayer hsubject
  rfl

/-! ## Repeats -/

/-- A repeat of a key is decided by its terms, where the texts tell the terms. -/
theorem sameTerms_eq {α : Type} [DecidableEq α] {a a' : α} {stored terms : String}
    (h : stored = terms ↔ a = a') : sameTerms stored terms =
      if a = a' then .ok () else .error (.conflict IDEMPOTENCY_CONFLICT) := by
  unfold sameTerms
  simp only [h]

/-- **Within one key's namespace the stored text is the terms.** Two accepted transfers, or
invoices, of one client in one scope, or two mandates of one user, pass for one request exactly
when their terms are the same, and two payouts of one client in one scope when they are the same up
to the order of their lines; a repeat with other terms is a conflict. -/
theorem canonical_terms_bind :
    (∀ (client client' : ClientId) (r r' : ScopeTransferRequest) (t t' : TransferTerms)
      (key key' : String), r.accept client = .ok t → r'.accept client' = .ok t' →
      r.requestKey client key = r'.requestKey client' key' →
      sameTerms t.canonical t'.canonical =
        if t = t' then .ok () else .error (.conflict IDEMPOTENCY_CONFLICT)) ∧
    (∀ (c c' : CreateInvoice) (key key' : String), c.accept = .ok () → c'.accept = .ok () →
      c.requestKey key = c'.requestKey key' →
      sameTerms c.canonical c'.canonical =
        if c = c' then .ok () else .error (.conflict IDEMPOTENCY_CONFLICT)) ∧
    (∀ (t t' : MandateTerms) (key key' : String), t.mandateKey key = t'.mandateKey key' →
      sameTerms t.canonical t'.canonical =
        if t = t' then .ok () else .error (.conflict IDEMPOTENCY_CONFLICT)) ∧
    (∀ (r r' : PayoutRequest) (total total' : Nat) (key key' : String), r.accept = .ok total →
      r'.accept = .ok total' → r.requestKey key = r'.requestKey key' →
      sameTerms r.canonical r'.canonical =
        if r.Same r' then .ok () else .error (.conflict IDEMPOTENCY_CONFLICT)) ∧
    ∀ lines lines' : List RequestedLine,
      canonicalLines lines = canonicalLines lines' ↔ lines.Perm lines' := by
  refine ⟨?_, ?_, ?_, ?_, fun _ _ => canonicalLines_eq_iff⟩
  · intro client client' r r' t t' key key' h h' hkey
    simp only [ScopeTransferRequest.requestKey, RequestKey.mk.injEq, true_and] at hkey
    obtain ⟨rfl, hscope, -⟩ := hkey
    exact sameTerms_eq ⟨TransferTerms.canonical_inj h h' hscope, fun he => by rw [he]⟩
  · intro c c' key key' h h' hkey
    simp only [CreateInvoice.requestKey, RequestKey.mk.injEq, true_and] at hkey
    exact sameTerms_eq
      ⟨CreateInvoice.canonical_inj h h' hkey.1 hkey.2.1, fun he => by rw [he]⟩
  · intro t t' key key' hkey
    simp only [MandateTerms.mandateKey, MandateKey.mk.injEq] at hkey
    exact sameTerms_eq ⟨MandateTerms.canonical_inj hkey.1, fun he => by rw [he]⟩
  · intro r r' total total' key key' _ _ hkey
    simp only [PayoutRequest.requestKey, RequestKey.mk.injEq, true_and] at hkey
    unfold sameTerms
    simp only [PayoutRequest.canonical_eq_iff hkey.1 hkey.2.1]

/-! ## Sample requests -/

/-- A sweep of a client's account into its scope's fee collector. -/
def sampleSweep (amount : Nat) : ScopeTransferRequest where
  scope := ⟨"invest"⟩
  fromLabel := ⟨"svc:desk"⟩
  toLabel := .fee
  amount := amount
  reason := .feeSweep
  subjectRef := ⟨"ref-1"⟩
  memo := "fees"

/-- What the sweep names, asked for by `client`. -/
def sampleSweepTerms (client : ClientId) (amount : Nat) : TransferTerms where
  client := client
  scope := ⟨"invest"⟩
  fromLabel := ⟨"svc:desk"⟩
  toScope := ⟨"invest"⟩
  toLabel := .fee
  amount := amount
  reason := .feeSweep
  subjectRef := ⟨"ref-1"⟩
  memo := "fees"
  operationId := none

/-- An invoice to anyone, or to one payer. -/
def sampleInvoice (payer : Option String) : CreateInvoice where
  client := ⟨"desk"⟩
  terms :=
    { scope := ⟨"invest"⟩, toLabel := ⟨"svc:desk"⟩, amount := 5, expiresAt := 1000
      payerAuthSubject := payer }
  memo := "invoice"
  subjectRef := ⟨"ref-2"⟩

/-- A mandate to reserve, until a time or until revoked. -/
def sampleGrant (expiresAt : Option Int) : MandateTerms where
  user := .raw 7
  scope := ⟨"invest"⟩
  client := ⟨"desk"⟩
  caps := ⟨10, 20, 20, none⟩
  operations := [.reserve]
  expiresAt := expiresAt
  scope_shaped := by decide
  client_shaped := by decide
  checked := ⟨[.reserve], by decide⟩

/-- A payout to two users, its lines as listed. -/
def sampleBookPayout (lines : List RequestedLine) : PayoutRequest where
  client := ⟨"desk"⟩
  scope := ⟨"invest"⟩
  fromLabel := ⟨"svc:desk"⟩
  lines := lines
  reason := .book
  subjectRef := ⟨"ref-3"⟩
  memo := "book"

/-- Another amount, a payer named or not, an expiry set or not are conflicts; lines in another
order are a repeat. -/
theorem canonical_terms_bind_sample :
    sameTerms (sampleSweepTerms ⟨"desk"⟩ 5).canonical (sampleSweepTerms ⟨"desk"⟩ 6).canonical =
        .error (.conflict IDEMPOTENCY_CONFLICT) ∧
      sameTerms (sampleInvoice none).canonical (sampleInvoice (some "ann")).canonical =
        .error (.conflict IDEMPOTENCY_CONFLICT) ∧
      sameTerms (sampleGrant none).canonical (sampleGrant (some 9000)).canonical =
        .error (.conflict IDEMPOTENCY_CONFLICT) ∧
      sameTerms (sampleBookPayout [⟨"ann", 1⟩, ⟨"bob", 2⟩]).canonical
        (sampleBookPayout [⟨"bob", 2⟩, ⟨"ann", 1⟩]).canonical = .ok () := by
  obtain ⟨htransfer, hinvoice, hmandate, hpayout, -⟩ := canonical_terms_bind
  refine ⟨?_, ?_, ?_, ?_⟩
  · rw [htransfer ⟨"desk"⟩ ⟨"desk"⟩ (sampleSweep 5) (sampleSweep 6) (sampleSweepTerms ⟨"desk"⟩ 5)
      (sampleSweepTerms ⟨"desk"⟩ 6) "key" "key" rfl rfl rfl]
    exact if_neg (by decide)
  · rw [hinvoice (sampleInvoice none) (sampleInvoice (some "ann")) "key" "key" (by decide)
      (by decide) rfl]
    exact if_neg (by decide)
  · rw [hmandate (sampleGrant none) (sampleGrant (some 9000)) "key" "key" rfl]
    exact if_neg (by decide)
  · rw [hpayout (sampleBookPayout [⟨"ann", 1⟩, ⟨"bob", 2⟩])
      (sampleBookPayout [⟨"bob", 2⟩, ⟨"ann", 1⟩]) 3 3
      "key" "key" (by decide) (by decide) rfl]
    exact if_pos (by decide)

/-- The text does not name the client: two clients' transfers, both accepted, are rendered alike. -/
theorem two_clients_render_alike :
    ∃ (client client' : ClientId) (r r' : ScopeTransferRequest) (t t' : TransferTerms),
      r.accept client = .ok t ∧ r'.accept client' = .ok t' ∧ t.canonical = t'.canonical ∧
        t ≠ t' :=
  ⟨⟨"desk"⟩, ⟨"till"⟩, sampleSweep 5, sampleSweep 5, sampleSweepTerms ⟨"desk"⟩ 5,
    sampleSweepTerms ⟨"till"⟩ 5, rfl, rfl, rfl, by decide⟩

end Banking
