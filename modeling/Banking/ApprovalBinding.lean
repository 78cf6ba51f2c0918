import Banking.Approvals
import Banking.Subjects

/-! # An approval binds its operation

A decision is bound to an approval's text. Two approvals of the catalog's kinds with one text are of
one kind, in one scope, under one reference, over the same fields with the same values; the order
the fields are named in is not part of it. -/

namespace Banking

open Framing (Delimited delimited_terminated)

/-! ## Fields are told apart -/

/-- A value whose text, if it has one, is plain. -/
def ApprovalValue.Accepted : ApprovalValue → Prop
  | .text s | .user s => Plain s
  | .amount _ | .flag _ | .count _ => True

/-- The type and the encoding of a value tell it from any other. -/
theorem ApprovalValue.eq_of_encoded {v w : ApprovalValue} (ht : v.typeName = w.typeName)
    (he : v.encoded = w.encoded) : v = w := by
  cases v <;> cases w <;> simp only [ApprovalValue.typeName] at ht <;>
    try exact absurd ht (by decide)
  case text.text => exact congrArg _ he
  case user.user => exact congrArg _ he
  case amount.amount u u' =>
    simp only [ApprovalValue.encoded, String.append_assoc] at he
    have hdecimal : toDecimalString u = toDecimalString u' := by
      have := congrArg String.toList he
      simp only [String.toList_append] at this
      exact String.toList_inj.mp (List.append_cancel_right this)
    exact congrArg _ (toDecimalString_injective hdecimal)
  case flag.flag b b' =>
    revert he
    cases b <;> cases b' <;> decide
  case count.count n n' => exact congrArg _ (toString_nat_injective he)

/-- A line feed is in no amount. -/
theorem newline_notMem_toDecimalString (units : Nat) : '\n' ∉ (toDecimalString units).toList := by
  rw [toList_toDecimalString, List.mem_append]
  rintro (h | h)
  · exact notMem_decimal rfl h
  · split_ifs at h
    · cases h
    · rcases List.mem_cons.mp h with h | h
      · exact absurd h (by decide)
      · exact absurd (isDigit_of_mem_fractionDigits h) (by decide)

/-- An accepted value is encoded on one line. -/
theorem ApprovalValue.newline_notMem {v : ApprovalValue} (h : v.Accepted) :
    '\n' ∉ v.encoded.toList := by
  cases v with
  | text s => exact Plain.newline_notMem h
  | user s => exact Plain.newline_notMem h
  | amount units =>
    simp only [ApprovalValue.encoded, String.toList_append, List.mem_append, not_or]
    exact ⟨⟨newline_notMem_toDecimalString units, by decide⟩, by decide⟩
  | flag b => cases b <;> decide
  | count n =>
    simp only [ApprovalValue.encoded, toList_toString_nat]
    exact notMem_decimal rfl

theorem ApprovalValue.tab_notMem_typeName (v : ApprovalValue) : '\t' ∉ v.typeName.toList := by
  cases v with
  | text => exact (by decide : '\t' ∉ "TEXT".toList)
  | amount => exact (by decide : '\t' ∉ "AMOUNT".toList)
  | flag => exact (by decide : '\t' ∉ "FLAG".toList)
  | user => exact (by decide : '\t' ∉ "USER".toList)
  | count => exact (by decide : '\t' ∉ "COUNT".toList)

/-- A field that stays on its line, its key without a tab. -/
def ApprovalField.OneLine (f : ApprovalField) : Prop := '\t' ∉ f.key.toList ∧ f.value.Accepted

/-- The characters of a field's line. -/
theorem ApprovalField.toList_line (f : ApprovalField) :
    f.line.toList = (f.key.toList ++ ['\t']) ++ ((f.value.typeName.toList ++ ['\t']) ++
      (f.value.encoded.toList ++ ['\n'])) := by
  simp [ApprovalField.line]

/-- A field's line is told apart from any other's. -/
theorem ApprovalField.delimited_line :
    Delimited ApprovalField.OneLine fun f => f.line.toList := by
  rintro ⟨key, value⟩ ⟨key', value'⟩ s s' ⟨hkey, hvalue⟩ ⟨hkey', hvalue'⟩ h
  simp only [ApprovalField.toList_line] at h
  rw [List.append_assoc, List.append_assoc (key'.toList ++ ['\t'])] at h
  obtain ⟨hk, h₁⟩ := delimited_terminated '\t' _ _ _ _ hkey hkey' h
  rw [List.append_assoc, List.append_assoc (value'.typeName.toList ++ ['\t'])] at h₁
  obtain ⟨ht, h₂⟩ := delimited_terminated '\t' _ _ _ _ value.tab_notMem_typeName
    value'.tab_notMem_typeName h₁
  obtain ⟨hv, hs⟩ := delimited_terminated '\n' _ _ _ _ (ApprovalValue.newline_notMem hvalue)
    (ApprovalValue.newline_notMem hvalue') h₂
  obtain rfl := String.toList_inj.mp hk
  obtain rfl := ApprovalValue.eq_of_encoded (String.toList_inj.mp ht) (String.toList_inj.mp hv)
  exact ⟨rfl, hs⟩

/-! ## Payloads -/

/-- The characters of a payload: three lines, and one for each field in the order of the keys. -/
theorem toList_approvalPayload (kind scope subjectRef : String) (fields : List ApprovalField) :
    (approvalPayload kind scope subjectRef fields).toList = APPROVAL_VERSION.toList ++
      ((kind.toList ++ ['\n']) ++ ((scope.toList ++ ['\n']) ++ ((subjectRef.toList ++ ['\n']) ++
        (fields.insertionSort ApprovalField.keyLE).flatMap fun f => f.line.toList))) := by
  have hline : "\n".toList = ['\n'] := rfl
  simp only [approvalPayload, String.toList_append, String.toList_join, List.flatMap_map, hline,
    List.append_assoc]

/-- **Approvals with one payload are one approval.** -/
theorem approvalPayload_inj {kind scope ref kind' scope' ref' : String}
    {fields fields' : List ApprovalField} (hkind : Plain kind) (hkind' : Plain kind')
    (hscope : Plain scope) (hscope' : Plain scope') (href : Plain ref) (href' : Plain ref')
    (hfields : ∀ f ∈ fields, f.OneLine) (hfields' : ∀ f ∈ fields', f.OneLine)
    (h : approvalPayload kind scope ref fields = approvalPayload kind' scope' ref' fields') :
    kind = kind' ∧ scope = scope' ∧ ref = ref' ∧ fields.Perm fields' := by
  have hlist := congrArg String.toList h
  rw [toList_approvalPayload, toList_approvalPayload] at hlist
  have h₁ := List.append_cancel_left hlist
  obtain ⟨hk, h₂⟩ := delimited_terminated '\n' _ _ _ _ hkind.newline_notMem hkind'.newline_notMem h₁
  obtain ⟨hs, h₃⟩ := delimited_terminated '\n' _ _ _ _ hscope.newline_notMem
    hscope'.newline_notMem h₂
  obtain ⟨hr, h₄⟩ := delimited_terminated '\n' _ _ _ _ href.newline_notMem href'.newline_notMem h₃
  have hsorted := ApprovalField.delimited_line.flatMap
    (fun f _ => by rw [ApprovalField.toList_line]; simp)
    (fun f hf => hfields f ((List.mem_insertionSort _).mp hf))
    (fun f hf => hfields' f ((List.mem_insertionSort _).mp hf)) h₄
  refine ⟨String.toList_inj.mp hk, String.toList_inj.mp hs, String.toList_inj.mp hr, ?_⟩
  exact (List.perm_insertionSort _ fields).symm.trans
    (hsorted ▸ List.perm_insertionSort _ fields')

/-- The order fields are named in is not part of a payload, where each key is named once. -/
theorem approvalPayload_perm {kind scope ref : String} {fields fields' : List ApprovalField}
    (hdistinct : (fields.map (·.key)).Nodup) (h : fields'.Perm fields) :
    approvalPayload kind scope ref fields' = approvalPayload kind scope ref fields := by
  have hsorted : fields'.insertionSort ApprovalField.keyLE =
      fields.insertionSort ApprovalField.keyLE := by
    refine List.Perm.eq_of_pairwise (fun a b ha hb hab hba => ?_)
      (List.pairwise_insertionSort _ fields') (List.pairwise_insertionSort _ fields)
      ((List.perm_insertionSort _ fields').trans (h.trans (List.perm_insertionSort _ fields).symm))
    have ha' : a ∈ fields := h.subset ((List.mem_insertionSort _).mp ha)
    have hb' : b ∈ fields := (List.mem_insertionSort _).mp hb
    exact List.inj_on_of_nodup_map hdistinct ha' hb' (le_antisymm hab hba)
  rw [approvalPayload, hsorted, approvalPayload]

/-! ## What banking proposes -/

/-- **An approval of a kind of the catalog**: its fields are the kind's, each named once, its texts
plain. -/
structure Approval where
  spec : KindSpec
  scope : String
  subjectRef : String
  fields : List ApprovalField
  listed : spec ∈ BANK_CATALOG
  scope_plain : Plain scope
  subjectRef_plain : Plain subjectRef
  distinct : (fields.map (·.key)).Nodup
  declared : ∀ f ∈ fields, ∃ s ∈ spec.fields, s.key = f.key ∧ s.fieldType = f.value.fieldType
  accepted : ∀ f ∈ fields, f.value.Accepted

/-- The text an approval's decision is bound to. -/
def Approval.payload (a : Approval) : String :=
  approvalPayload a.spec.kind a.scope a.subjectRef a.fields

/-- The catalog's kinds and keys stay on their lines. -/
theorem catalog_plain : ∀ spec ∈ BANK_CATALOG, Plain spec.kind ∧
    ∀ f ∈ spec.fields, '\t' ∉ f.key.toList := by decide

theorem Approval.kind_plain (a : Approval) : Plain a.spec.kind := (catalog_plain _ a.listed).1

theorem Approval.oneLine (a : Approval) : ∀ f ∈ a.fields, f.OneLine := by
  intro f hf
  obtain ⟨s, hs, hkey, -⟩ := a.declared f hf
  exact ⟨hkey ▸ (catalog_plain _ a.listed).2 s hs, a.accepted f hf⟩

/-- The text of an id is plain. -/
theorem Uuid.text_plain {u : Uuid} (hu : u.Minted) : Plain u.text := by
  obtain ⟨n, -, rfl⟩ := hu
  refine List.any_eq_false.mpr fun c hc => ?_
  by_cases hhyphen : c = '-'
  · subst hhyphen
    decide
  · have hdigit : c ∈ hexDigits 32 n := by
      rw [← Uuid.filter_text_raw]
      exact List.mem_filter.mpr ⟨hc, by simpa using hhyphen⟩
    obtain ⟨i, -, rfl⟩ := List.mem_map.mp hdigit
    have hall : ∀ d < 16, ¬ isControl (Nat.digitChar d) = true := by decide
    exact hall _ (Nat.mod_lt _ (by decide))

/-- Checked lines name plain subjects. -/
theorem checkLine_plain {lines : List RequestedLine} :
    ∀ {total sum : Nat}, lines.foldlM checkLine total = .ok sum →
      ∀ line ∈ lines, Plain line.authSubject := by
  induction lines with
  | nil => exact fun _ line hline => by cases hline
  | cons line lines ih =>
    intro total sum h
    rw [List.foldlM_cons] at h
    cases hline : checkLine total line with
    | error e => rw [hline] at h; cases h
    | ok next =>
      rw [hline] at h
      have hplain : Plain line.authSubject := by
        unfold checkLine at hline
        split_ifs at hline with hsubject
        simp only [not_or] at hsubject
        exact Bool.eq_false_iff.mpr hsubject.2.2
      intro l hl
      rcases List.mem_cons.mp hl with rfl | hl
      · exact hplain
      · exact ih h l hl

theorem checkLines_plain {lines : List RequestedLine} {total : Nat}
    (h : checkLines lines = .ok total) : ∀ line ∈ lines, Plain line.authSubject := by
  unfold checkLines at h
  cases hfold : lines.foldlM checkLine 0 with
  | error e =>
    rw [hfold] at h
    split_ifs at h
  | ok sum => exact checkLine_plain hfold

/-- A stored payout's lines name plain subjects. -/
theorem PendingOperation.lines_plain (op : PendingOperation) {lines : List PayoutLine}
    {distribution overScopeBudget : Bool}
    (hbody : op.terms.body = .payout lines distribution overScopeBudget) :
    ∀ line ∈ lines, Plain line.authSubject := by
  have hchecked := op.checked
  unfold OperationTerms.check at hchecked
  split_ifs at hchecked
  split at hchecked
  · cases hchecked
  · rw [hbody] at hchecked
    dsimp only at hchecked
    split at hchecked
    · cases hchecked
    · next hlines =>
      intro line hline
      exact checkLines_plain hlines line.requested (List.mem_map_of_mem hline)

/-- An account's text is plain. -/
theorem accountText_plain {scope : ScopeId} {label : ScopeAccountLabel} (hs : scope.Shaped)
    (hl : label.Shaped) : Plain (accountText scope label) := by
  simp only [accountText, plain_append]
  exact ⟨⟨hs.plain, by decide⟩, hl.plain⟩

theorem plainField_ok {key value : String} {f : ApprovalField} (h : plainField key value = .ok f) :
    f = ⟨key, .text value⟩ ∧ Plain value := by
  unfold plainField at h
  split_ifs at h with hplain
  cases h
  exact ⟨rfl, isPlainText_plain hplain⟩

/-- What a pending operation is proposed with is an approval of its kind. -/
theorem PendingOperation.approval (op : PendingOperation) {linesDigest : Option String}
    (hdigest : ∀ digest ∈ linesDigest, isPlainText digest = true) {fields : List ApprovalField}
    (h : op.approvalFields linesDigest = .ok fields) :
    ∃ a : Approval, a.spec.kind = op.kind.asStr ∧ a.scope = op.terms.scope.id ∧
      a.subjectRef = op.approvalSubjectRef ∧ a.fields = fields := by
  have hclient : Plain op.terms.client.id := op.client_shaped.plain
  have hsource : Plain (accountText op.terms.scope op.terms.fromLabel) :=
    accountText_plain op.scope_shaped op.from_shaped
  have href : Plain op.approvalSubjectRef :=
    plain_append.mpr ⟨by decide, Uuid.text_plain op.id_minted⟩
  unfold PendingOperation.approvalFields at h
  cases hbody : op.terms.body with
  | payout lines distribution overScopeBudget =>
    have hkind : op.kind = .scopePayout := by rw [PendingOperation.kind, hbody]
    have hlines := op.lines_plain hbody
    rw [hbody] at h
    cases linesDigest with
    | none => cases h
    | some digest =>
      have hplain : Plain digest := isPlainText_plain (hdigest digest rfl)
      obtain rfl := Except.ok.inj h
      refine ⟨⟨⟨OperationKind.scopePayout.asStr, PAYOUT_FIELDS⟩, op.terms.scope.id,
        op.approvalSubjectRef, _, by simp [BANK_CATALOG], op.scope_shaped.plain, href, ?_, ?_, ?_⟩,
        by rw [hkind], rfl, rfl, rfl⟩
      all_goals rcases lines with _ | ⟨only, _ | ⟨second, rest⟩⟩
      all_goals
        simp_all [PAYOUT_FIELDS, ApprovalValue.fieldType, ApprovalValue.Accepted]
  | transfer toScope toLabel amount =>
    rw [hbody] at h
    obtain rfl := Except.ok.inj h
    have hshaped := op.body_shaped
    rw [hbody] at hshaped
    have htarget : Plain (accountText toScope toLabel) := accountText_plain hshaped.1 hshaped.2
    by_cases hsame : toScope = op.terms.scope
    · have hkind : op.kind = .accountTransfer := by rw [PendingOperation.kind, hbody]; simp [hsame]
      refine ⟨⟨⟨OperationKind.accountTransfer.asStr, TRANSFER_FIELDS⟩, op.terms.scope.id,
        op.approvalSubjectRef, _, by simp [BANK_CATALOG], op.scope_shaped.plain, href, ?_, ?_, ?_⟩,
        by rw [hkind], rfl, rfl, rfl⟩ <;>
      simp_all [TRANSFER_FIELDS, ApprovalValue.fieldType, ApprovalValue.Accepted]
    · have hkind : op.kind = .scopeTransfer := by rw [PendingOperation.kind, hbody]; simp [hsame]
      refine ⟨⟨⟨OperationKind.scopeTransfer.asStr, TRANSFER_FIELDS⟩, op.terms.scope.id,
        op.approvalSubjectRef, _, by simp [BANK_CATALOG], op.scope_shaped.plain, href, ?_, ?_, ?_⟩,
        by rw [hkind], rfl, rfl, rfl⟩ <;>
      simp_all [TRANSFER_FIELDS, ApprovalValue.fieldType, ApprovalValue.Accepted]

/-- What a payment order is proposed with is an approval of its kind. -/
theorem PaymentTerms.approval (t : PaymentTerms) {id : Uuid} (hid : id.Minted)
    {destination : String} {fields : List ApprovalField}
    (h : t.approvalFields destination = .ok fields) :
    ∃ a : Approval, a.spec.kind = PAYMENT_KIND ∧ a.scope = PAYMENT_APPROVAL_SCOPE ∧
      a.subjectRef = approvalSubjectRef id ∧ a.fields = fields := by
  have href : Plain (approvalSubjectRef id) :=
    plain_append.mpr ⟨by decide, Uuid.text_plain hid⟩
  unfold PaymentTerms.approvalFields at h
  cases htier : plainField "tier" t.tier.asStr with
  | error e => rw [htier] at h; cases h
  | ok tier =>
    cases hsource : plainField "source" (partyLabel t.source) with
    | error e => rw [htier, hsource] at h; cases h
    | ok source =>
      cases hdestination : plainField "destination" destination with
      | error e => rw [htier, hsource, hdestination] at h; cases h
      | ok target =>
        cases hreason : plainField "reason" t.reason.text with
        | error e => rw [htier, hsource, hdestination, hreason] at h; cases h
        | ok reason =>
          rw [htier, hsource, hdestination, hreason] at h
          obtain rfl := Except.ok.inj h
          obtain ⟨rfl, htier⟩ := plainField_ok htier
          obtain ⟨rfl, hsource⟩ := plainField_ok hsource
          obtain ⟨rfl, hdestination⟩ := plainField_ok hdestination
          obtain ⟨rfl, hreason⟩ := plainField_ok hreason
          refine ⟨⟨⟨PAYMENT_KIND, PAYMENT_FIELDS⟩, PAYMENT_APPROVAL_SCOPE, approvalSubjectRef id,
            _, by simp [BANK_CATALOG], by decide, href, ?_, ?_, ?_⟩, rfl, rfl, rfl, rfl⟩ <;>
          simp_all [PAYMENT_FIELDS, ApprovalValue.fieldType, ApprovalValue.Accepted]

/-- What an operation is proposed with is an approval of the catalog. -/
theorem Operation.approval (o : Operation) {fields : List ApprovalField}
    (h : o.approvalFields = .ok fields) :
    ∃ a : Approval, a.spec.kind = o.kind ∧ a.scope = o.scope ∧ a.subjectRef = o.subjectRef ∧
      a.fields = fields := by
  cases o with
  | pending op linesDigest plain => exact op.approval plain h
  | payment order destination minted => exact order.terms.approval minted h

/-- An operation's payload is its approval's. -/
theorem Operation.payload_ok {o : Operation} {p : String} (h : o.approvalPayload = .ok p) :
    ∃ a : Approval, a.spec.kind = o.kind ∧ a.scope = o.scope ∧ a.subjectRef = o.subjectRef ∧
      o.approvalFields = .ok a.fields ∧ a.payload = p := by
  unfold Operation.approvalPayload at h
  cases hfields : o.approvalFields with
  | error e => rw [hfields] at h; cases h
  | ok fields =>
    rw [hfields] at h
    obtain ⟨a, hkind, hscope, href, rfl⟩ := o.approval hfields
    exact ⟨a, hkind, hscope, href, rfl, by
      rw [Approval.payload, hkind, hscope, href]
      exact Except.ok.inj h⟩

/-- Approvals of the catalog with one payload. -/
theorem Approval.payload_inj {a b : Approval} (h : a.payload = b.payload) :
    a.spec.kind = b.spec.kind ∧ a.scope = b.scope ∧ a.subjectRef = b.subjectRef ∧
      a.fields.Perm b.fields :=
  approvalPayload_inj a.kind_plain b.kind_plain a.scope_plain b.scope_plain a.subjectRef_plain
    b.subjectRef_plain a.oneLine b.oneLine h

/-- **Approval payloads bind.** Approvals of the catalog's kinds with one payload are of one kind,
in one scope, under one reference, over the same fields and values; the order of the fields does
not change a payload. So it is for what banking proposes: the operations clients ask for, and
payment orders. -/
theorem approval_payload_binds :
    (∀ a b : Approval, a.payload = b.payload →
      a.spec.kind = b.spec.kind ∧ a.scope = b.scope ∧ a.subjectRef = b.subjectRef ∧
        ∀ f, f ∈ a.fields ↔ f ∈ b.fields) ∧
    (∀ (a : Approval) (fields : List ApprovalField), fields.Perm a.fields →
      approvalPayload a.spec.kind a.scope a.subjectRef fields = a.payload) ∧
    (∀ (o o' : Operation) (p : String), o.approvalPayload = .ok p → o'.approvalPayload = .ok p →
      o.kind = o'.kind ∧ o.scope = o'.scope ∧ o.subjectRef = o'.subjectRef ∧
        ∃ fields fields', o.approvalFields = .ok fields ∧ o'.approvalFields = .ok fields' ∧
          ∀ f, f ∈ fields ↔ f ∈ fields') ∧
    ∀ (o : Operation) (fields fields' : List ApprovalField), o.approvalFields = .ok fields →
      fields'.Perm fields → o.approvalPayload =
        .ok (approvalPayload o.kind o.scope o.subjectRef fields') := by
  refine ⟨fun a b h => ?_, fun a fields h => approvalPayload_perm a.distinct h,
    fun o o' p ho ho' => ?_, fun o fields fields' ho hperm => ?_⟩
  · obtain ⟨hkind, hscope, href, hperm⟩ := Approval.payload_inj h
    exact ⟨hkind, hscope, href, fun f => hperm.mem_iff⟩
  · obtain ⟨a, hkind, hscope, href, hfields, rfl⟩ := Operation.payload_ok ho
    obtain ⟨b, hkind', hscope', href', hfields', hp⟩ := Operation.payload_ok ho'
    obtain ⟨hk, hs, hr, hperm⟩ := Approval.payload_inj hp
    exact ⟨by rw [← hkind, ← hk, hkind'], by rw [← hscope, ← hs, hscope'],
      by rw [← href, ← hr, href'], _, _, hfields, hfields', fun f => hperm.mem_iff.symm⟩
  · obtain ⟨a, hkind, hscope, href, rfl⟩ := o.approval ho
    rw [approvalPayload_perm a.distinct hperm, Operation.approvalPayload, ho]
    rfl

/-- A transfer of five units between two accounts of one scope. -/
def sampleTransfer : PendingOperation where
  id := .raw 3
  terms :=
    { client := ⟨"invest"⟩, scope := ⟨"invest"⟩, fromLabel := ⟨"cash"⟩
      body := .transfer ⟨"invest"⟩ ⟨"alloc:fee"⟩ 5, memo := "" }
  total := 5
  id_minted := ⟨3, by decide, rfl⟩
  checked := by rfl
  client_shaped := by decide
  scope_shaped := by decide
  from_shaped := by decide
  body_shaped := ⟨by decide, by decide⟩

/-- Its fields named the other way around: the same payload. -/
theorem approval_payload_binds_sample :
    (Operation.pending sampleTransfer none (fun _ h => by cases h)).approvalPayload =
      .ok (approvalPayload "bank:account_transfer" "invest"
        "pending_operation:00000000-0000-0000-0000-000000000003"
        [⟨"amount", .amount 5⟩, ⟨"to_account", .text "invest:alloc:fee"⟩,
          ⟨"from_account", .text "invest:cash"⟩, ⟨"service", .text "invest"⟩]) := by
  have hperm : ([⟨"amount", .amount 5⟩, ⟨"to_account", .text "invest:alloc:fee"⟩,
      ⟨"from_account", .text "invest:cash"⟩, ⟨"service", .text "invest"⟩] :
        List ApprovalField).Perm [⟨"service", .text "invest"⟩,
      ⟨"from_account", .text "invest:cash"⟩, ⟨"to_account", .text "invest:alloc:fee"⟩,
      ⟨"amount", .amount 5⟩] := by decide
  exact approval_payload_binds.2.2.2 (.pending sampleTransfer none (fun _ h => by cases h)) _ _ rfl
    hperm

end Banking
