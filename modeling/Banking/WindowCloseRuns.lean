import Banking.Lib.Pool
import Banking.WindowClosings

/-! # Closing is exact and restartable

The command is walked through step by step: an item named carries the id of its closing, an item
found open has its units unless it is closed by now, a chain closes what was found open, a row is
written from the transfer the ledger has, and what is verified has nothing left
(`closes_closeShareAccounts`). Of any sequence of dry runs, applied runs and crashes it follows that
closing is exact, and that a run that reports success has closed everything listed
(`share_closing_exact`). -/

namespace Banking

open Interactive

section Closing

variable {lib : WindowLib} {file : Export} {start : Books}

/-! ## One operation -/

variable (lib file start) in
/-- The tool's world. -/
def closing : World CloseOp CloseOp.Ans CloseWorld where
  step := CloseWorld.Step
  rely := Elsewhere
  inv := Closing lib file start

variable (lib file start) in
/-- What holds where a program of the tool ends; of a refusal nothing is said. -/
abbrev Closes {α : Type} (Q : α → CloseWorld → Prop) (p : CloseProg α) (w : CloseWorld) : Prop :=
  (closing lib file start).wp Q (fun _ _ => True) p w

/-- The operations that write nothing. -/
def CloseOp.Reads : CloseOp → Prop
  | .invoke | .insertRow _ | .postLinked _ => False
  | _ => True

theorem CloseWorld.Step.reads {op : CloseOp} (hop : op.Reads) {w w' : CloseWorld} {a : op.Ans}
    (h : CloseWorld.Step op w a w') : w' = w := by
  cases op with
  | invoke | insertRow | postLinked => exact hop.elim
  | requireMaintenance | requireDrained | balancedCash | readAnchor => exact h
  | tbId | balance | transferAmount | shareHoldings | hasRow => exact h.1

section Programs

variable {α β : Type} {Q : α → CloseWorld → Prop} {w : CloseWorld} {J : CloseWorld → Prop}

/-- One program after another. -/
theorem closes_then {P : β → CloseWorld → Prop} {p : CloseProg β} {f : β → CloseProg α}
    (hp : Closes lib file start P p w) (hf : ∀ b w, P b w → Closes lib file start Q (f b) w) :
    Closes lib file start Q (p >>= f) w :=
  World.wp_bind.mpr (World.wp_mono hp hf fun _ _ h => h)

/-- One read, of the world as it then is. -/
theorem closes_read (op : CloseOp) (hop : op.Reads) {f : op.Ans → CloseProg α}
    (hf : ∀ w₁ a, Elsewhere w w₁ → CloseWorld.Step op w₁ a w₁ →
      Closes lib file start Q (f a) w₁) : Closes lib file start Q (askClose op >>= f) w :=
  World.wp_read op (fun _ _ _ => CloseWorld.Step.reads hop) hf

/-- A failure refuses. -/
theorem closes_failed {x : Except String β} {f : β → CloseProg α}
    (hf : ∀ b, x = .ok b → Closes lib file start Q (f b) w) :
    Closes lib file start Q (orFailed x >>= f) w := by
  cases x with
  | error reason => trivial
  | ok b => exact hf b rfl

theorem closes_ledger {x : Except LedgerError β} {f : β → CloseProg α}
    (hf : ∀ b, x = .ok b → Closes lib file start Q (f b) w) :
    Closes lib file start Q (orLedger x >>= f) w := by
  cases x with
  | error cause => trivial
  | ok b => exact hf b rfl

theorem closes_bail {x : Except CloseRefusal β} {f : β → CloseProg α}
    (hf : ∀ b, x = .ok b → Closes lib file start Q (f b) w) :
    Closes lib file start Q (orBail x >>= f) w := by
  cases x with
  | error refusal => trivial
  | ok b => exact hf b rfl

/-- What reads alone keep. -/
theorem closes_reads (hJ : ∀ w w', Elsewhere w w' → J w → J w') {p : CloseProg α}
    (hp : p.Within CloseOp.Reads) (hw : J w) : Closes lib file start (fun _ => J) p w := by
  refine World.wp_mono (World.wp_within hp hJ (fun op w a w' hop hinv hw hstep => ?_) hw)
    (fun _ _ h => h) fun _ _ _ => trivial
  obtain rfl := CloseWorld.Step.reads hop hstep
  exact ⟨hinv, hw⟩

/-! ## Items -/

/-- **The items named**: each has the id of its closing. -/
theorem closes_nameTransfers (hJ : ∀ w w', Elsewhere w w' → J w → J w') {listed : List Item}
    (hlisted : ∀ i ∈ listed, i.Sound ∧ file.Lists lib i.service i.key i.units) (hw : J w) :
    Closes lib file start (fun named w' => J w' ∧ Known lib file named w' ∧
      named.map (·.key) = listed.map (·.key)) (nameTransfers listed) w := by
  induction listed generalizing w J with
  | nil =>
    rw [nameTransfers]
    exact ⟨hw, (fun _ hi => by cases hi), rfl⟩
  | cons item rest ih =>
    rw [nameTransfers]
    refine closes_read (.tbId item.key) trivial fun w₁ a hrely hstep =>
      closes_failed fun found hfound => ?_
    cases hread : found with
    | none => trivial
    | some account =>
      have hid : w₁.accounts.idOf item.key = some account := by
        rw [← hstep.2 found hfound, hread]
      refine closes_then (ih (J := fun w => J w ∧ w.accounts.idOf item.key = some account)
        (fun w w' he h => ⟨hJ w w' he h.1, he.accounts.idOf h.2⟩)
        (fun i hi => hlisted i (List.mem_cons_of_mem _ hi)) ⟨hJ _ _ hrely hw, hid⟩) ?_
      rintro named w₂ ⟨⟨hw₂, hid₂⟩, hknown, hkeys⟩
      refine ⟨hw₂, fun i hi => ?_, by rw [List.map_cons, List.map_cons, hkeys]⟩
      rcases List.mem_cons.mp hi with rfl | hi
      · obtain ⟨hsound, hlists⟩ := hlisted item List.mem_cons_self
        exact ⟨⟨hsound.formed, hsound.holds, hsound.closable, hsound.positive⟩, hlists, account,
          hid₂, rfl⟩
      · exact hknown i hi

/-- **An account classified**: one still to be closed has its units, or is closed by now. -/
theorem closes_classify (hJ : ∀ w w', Elsewhere w w' → J w → J w') {item : Item}
    (hsound : item.Sound) (hw : J w) :
    Closes lib file start (fun state w' => J w' ∧
      (state = .open → Standing [item] w'.books)) (classify item) w := by
  unfold classify
  refine closes_read (.balance item.key) trivial fun w₁ a hrely hstep =>
    closes_ledger fun live hlive => ?_
  have hposted : w₁.books.balance item.key = live.posted := balanceOf_ok (hstep.2 live hlive)
  split
  · trivial
  refine closes_read (.transferAmount item.transferId) trivial fun w₂ a hrely₂ _ =>
    closes_ledger fun closedWith _ => ?_
  have hw₂ := hJ _ _ hrely₂ (hJ _ _ hrely hw)
  split
  case isTrue hopen =>
    refine ⟨hw₂, fun _ i hi => .inr ?_⟩
    obtain rfl := List.mem_singleton.mp hi
    rw [hrely₂.balance (LedgerAccountKey.ledger_of_holds hsound.holds), hposted, hopen.2]
  case isFalse =>
    split
    · exact ⟨hw₂, fun h => by cases h⟩
    · trivial

/-- **Every account classified.** -/
theorem closes_classifyAll (hJ : ∀ w w', Elsewhere w w' → J w → J w') {named : List Item}
    (hsound : ∀ i ∈ named, i.Sound) (hw : J w) :
    Closes lib file start (fun found w' => J w' ∧ found.map (·.1) = named ∧
      Standing (stillOpen found) w'.books) (classifyAll named) w := by
  induction named generalizing w J with
  | nil =>
    rw [classifyAll]
    exact ⟨hw, rfl, fun _ hi => by cases hi⟩
  | cons item rest ih =>
    have hitem := hsound item List.mem_cons_self
    rw [classifyAll]
    refine closes_then (closes_classify hJ hitem hw) ?_
    rintro state w₁ ⟨hw₁, hstanding⟩
    refine closes_then (ih (J := fun w => J w ∧ (state = .open → Standing [item] w.books))
      (fun w w' he h => ⟨hJ w w' he h.1, fun hopen => he.standing
        (fun i hi => List.mem_singleton.mp hi ▸ hitem) (h.2 hopen)⟩)
      (fun i hi => hsound i (List.mem_cons_of_mem _ hi)) ⟨hw₁, hstanding⟩) ?_
    rintro states w₂ ⟨⟨hw₂, hstanding₂⟩, hfirst, hrest⟩
    refine ⟨hw₂, by rw [List.map_cons, hfirst], fun i hi => ?_⟩
    obtain ⟨found, hin, rfl⟩ := List.mem_map.mp hi
    obtain ⟨hin, hopen⟩ := List.mem_filter.mp hin
    rcases List.mem_cons.mp hin with rfl | hin
    · exact hstanding₂ (of_decide_eq_true hopen) _ (List.mem_singleton_self _)
    · exact hrest _ (List.mem_map.mpr ⟨found, List.mem_filter.mpr ⟨hin, hopen⟩, rfl⟩)

/-! ## Writing -/

/-- Rows are all that an insertion adds to. -/
theorem insert_cases (w : CloseWorld) (row : ClosureRow) :
    w.insert row = w ∧ (∃ old ∈ w.rows, old.logicalKey = row.logicalKey) ∨
      w.insert row = { w with rows := row :: w.rows } ∧
        ∀ old ∈ w.rows, old.logicalKey ≠ row.logicalKey := by
  unfold CloseWorld.insert
  split_ifs with hany
  · refine .inl ⟨rfl, ?_⟩
    obtain ⟨old, hold, hsame⟩ := List.any_eq_true.mp hany
    exact ⟨old, hold, of_decide_eq_true hsame⟩
  · refine .inr ⟨rfl, fun old hold hsame => hany ?_⟩
    exact List.any_eq_true.mpr ⟨old, hold, decide_eq_true hsame⟩

/-- The item's account has a row. -/
def Item.Recorded (i : Item) (w : CloseWorld) : Prop :=
  ∃ row ∈ w.rows, row.logicalKey = i.key.logicalKey

/-- **A row from its transfer** keeps what holds of the world. -/
theorem Closing.insert (hinv : Closing lib file start w) {i : Item} (hi : i.Sound)
    (hnamed : i.Named w.accounts) {e : BookEntry} (he : e ∈ w.books.entries)
    (hid : e.id = i.transferId) (hamount : e.transfer.amount = i.units) {row : ClosureRow}
    (hkey : row.logicalKey = i.key.logicalKey) (htransfer : row.transferId = i.transferId)
    (hunits : row.units = i.units) : Closing lib file start (w.insert row) := by
  rcases insert_cases w row with ⟨hsame, -⟩ | ⟨hnew, hfresh⟩
  · rw [hsame]
    exact hinv
  · rw [hnew]
    refine ⟨hinv.books, hinv.mapped, fun r hr => ?_, ?_, hinv.untouched⟩
    · rcases List.mem_cons.mp hr with rfl | hr
      · obtain ⟨account, -, hclose⟩ := hnamed
        obtain ⟨t, s, rfl, -, -, -, -, -⟩ :=
          hinv.books.emptied e he i.key account hi.formed (hid.trans hclose)
        exact ⟨i.key, account, t, hi.formed, hkey, htransfer.trans hclose, he,
          hid.trans htransfer.symm, hamount.trans hunits.symm⟩
      · exact hinv.rowed r hr
    · rw [List.map_cons, List.nodup_cons]
      refine ⟨fun hmem => ?_, hinv.distinct⟩
      obtain ⟨old, hold, hsame⟩ := List.mem_map.mp hmem
      exact hfresh old hold hsame

/-- What both the others and an inserted row leave alone. -/
structure Steady (J : CloseWorld → Prop) : Prop where
  elsewhere : ∀ w w', Elsewhere w w' → J w → J w'
  insert : ∀ w row, J w → J (w.insert row)

theorem Steady.recorded (items : List Item) : Steady fun w => ∀ i ∈ items, Item.Recorded i w where
  elsewhere w w' he h i hi := by
    obtain ⟨row, hrow, hkey⟩ := h i hi
    exact ⟨row, he.rows ▸ hrow, hkey⟩
  insert w row h i hi := by
    obtain ⟨old, hold, hkey⟩ := h i hi
    rcases insert_cases w row with ⟨hsame, -⟩ | ⟨hnew, -⟩
    · exact ⟨old, by rw [hsame]; exact hold, hkey⟩
    · exact ⟨old, by rw [hnew]; exact List.mem_cons_of_mem _ hold, hkey⟩

theorem insert_books (w : CloseWorld) (row : ClosureRow) :
    (w.insert row).books = w.books ∧ (w.insert row).accounts = w.accounts := by
  rcases insert_cases w row with ⟨hsame, -⟩ | ⟨hnew, -⟩
  · rw [hsame]
    exact ⟨rfl, rfl⟩
  · rw [hnew]
    exact ⟨rfl, rfl⟩

theorem Steady.known (items : List Item) : Steady (Known lib file items) where
  elsewhere _ _ he := he.known
  insert w row h i hi := by
    rw [(insert_books w row).2]
    exact h i hi

theorem Steady.and {J' : CloseWorld → Prop} (h : Steady J) (h' : Steady J') :
    Steady fun w => J w ∧ J' w where
  elsewhere w w' he hw := ⟨h.elsewhere w w' he hw.1, h'.elsewhere w w' he hw.2⟩
  insert w row hw := ⟨h.insert w row hw.1, h'.insert w row hw.2⟩

/-- **An account written down.** -/
theorem closes_recordClosed (hJ : Steady J) {item : Item} (hsound : item.Sound)
    (hnamed : item.Named w.accounts) (hw : J w) :
    Closes lib file start (fun _ w' => J w' ∧ Item.Recorded item w') (recordClosed item) w := by
  unfold recordClosed
  refine closes_read (.transferAmount item.transferId) trivial fun w₁ a hrely hstep =>
    closes_ledger fun moved hmoved => ?_
  split
  case h_2 => split <;> trivial
  case h_1 kind code hkind =>
    split
    · trivial
    next hunits =>
    rw [not_not] at hunits
    have hfound : (w₁.books.find item.transferId).map (·.transfer.amount) = some item.units := by
      rw [← hstep.2 moved hmoved, hunits]
    obtain ⟨e, he, hamount⟩ := Option.map_eq_some_iff.mp hfound
    obtain ⟨hmem, hid⟩ := TwoPhase.Ledger.find_mem he
    intro w₂ hrely₂ hinv a w₃ hins
    obtain ⟨later, hlater, -⟩ := hrely₂.books
    have hkept : Closing lib file start (w₂.insert ⟨item.key.logicalKey, item.service.slug, kind,
        item.user, code, item.units, item.transferId⟩) :=
      hinv.insert hsound ((hnamed.extends hrely.accounts).extends hrely₂.accounts)
        (hlater ▸ List.mem_append_right _ hmem) hid hamount rfl rfl rfl
    have hw₂ := hJ.elsewhere _ _ hrely₂ (hJ.elsewhere _ _ hrely hw)
    rcases hins with rfl | ⟨rfl, reason, rfl⟩
    · refine ⟨hkept, ?_⟩
      cases a with
      | error reason => trivial
      | ok _ =>
        refine ⟨hJ.insert _ _ hw₂, ?_⟩
        rcases insert_cases w₂ _ with ⟨hsame, old, hold, hkey⟩ | ⟨hnew, -⟩
        · exact ⟨old, by rw [hsame]; exact hold, hkey⟩
        · exact ⟨_, by rw [hnew]; exact List.mem_cons_self, rfl⟩
    · exact ⟨hinv, trivial⟩

/-- **The rows that closed accounts lack.** -/
theorem closes_recordMissing (hJ : Steady J) {mode : Mode} {found : List (Item × HoldingState)}
    (hw : Known lib file (found.map (·.1)) w ∧ J w) :
    Closes lib file start (fun _ => J) (recordMissing mode found) w := by
  induction found generalizing w with
  | nil => exact hw.2
  | cons p rest ih =>
    obtain ⟨item, state⟩ := p
    have hrest : ∀ {w : CloseWorld}, Known lib file (((item, state) :: rest).map (·.1)) w →
        Known lib file (rest.map (·.1)) w := fun h i hi => h i (List.mem_cons_of_mem _ hi)
    rw [recordMissing]
    split
    case isFalse => exact ih ⟨hrest hw.1, hw.2⟩
    refine closes_read (.hasRow item.key.logicalKey) trivial fun w₁ a hrely _ =>
      closes_failed fun present _ => ?_
    have hknown := hrely.known hw.1
    have hw₁ := hJ.elsewhere _ _ hrely hw.2
    split
    · exact ih ⟨hrest hknown, hw₁⟩
    · obtain ⟨hsound, -, hnamed⟩ := hknown item List.mem_cons_self
      have hcount : ∀ {w : CloseWorld},
          Known lib file (((item, state) :: rest).map (·.1)) w ∧ J w →
          Closes lib file start (fun _ => J)
            (recordMissing mode rest >>= fun missing => return missing + 1) w := fun h =>
        closes_then (ih ⟨hrest h.1, h.2⟩) fun _ _ h => h
      split
      · refine closes_then (closes_recordClosed (J := fun w => Known lib file _ w ∧ J w)
          ((Steady.known _).and hJ) hsound hnamed ⟨hknown, hw₁⟩) ?_
        rintro _ w₂ ⟨h, -⟩
        exact hcount h
      · exact hcount ⟨hknown, hw₁⟩

/-! ## A product -/

/-- What a mapped list gives comes from its elements, and each of them gives something. -/
theorem mem_of_mapM {ε α β : Type} {f : α → Except ε β} {l : List α} {out : List β}
    (h : l.mapM f = .ok out) :
    (∀ b ∈ out, ∃ a ∈ l, f a = .ok b) ∧ ∀ a ∈ l, ∃ b ∈ out, f a = .ok b := by
  induction l generalizing out with
  | nil =>
    rw [List.mapM_nil] at h
    obtain rfl := Except.ok.inj h
    exact ⟨fun _ hb => (by cases hb), fun _ ha => (by cases ha)⟩
  | cons a l ih =>
    rw [List.mapM_cons] at h
    obtain ⟨b, hb, h⟩ := bind_ok_iff.mp h
    obtain ⟨rest, hrest, h⟩ := bind_ok_iff.mp h
    obtain rfl := Except.ok.inj h
    obtain ⟨hout, hall⟩ := ih hrest
    constructor
    · intro c hc
      rcases List.mem_cons.mp hc with rfl | hc
      · exact ⟨a, List.mem_cons_self, hb⟩
      · obtain ⟨x, hx, hfx⟩ := hout c hc
        exact ⟨x, List.mem_cons_of_mem _ hx, hfx⟩
    · intro x hx
      rcases List.mem_cons.mp hx with rfl | hx
      · exact ⟨b, List.mem_cons_self, hb⟩
      · obtain ⟨c, hc, hfx⟩ := hall x hx
        exact ⟨c, List.mem_cons_of_mem _ hc, hfx⟩

/-- **The accounts of a file** are those its holdings name. -/
theorem items_ok {listed : List Item} (h : items lib file = .ok listed) :
    (∀ i ∈ listed, ∃ holding ∈ file.holdings, itemOf lib holding = .ok i) ∧
      ∀ holding ∈ file.holdings, ∃ i ∈ listed, itemOf lib holding = .ok i := by
  unfold items at h
  obtain ⟨read, hread, h⟩ := bind_ok_iff.mp h
  dsimp only at h
  split_ifs at h
  · cases h
  obtain rfl := Except.ok.inj h
  obtain ⟨hof, hall⟩ := mem_of_mapM hread
  refine ⟨fun i hi => hof i ((List.mem_insertionSort _).mp hi), fun holding hh => ?_⟩
  obtain ⟨i, hi, hitem⟩ := hall holding hh
  exact ⟨i, (List.mem_insertionSort _).mpr hi, hitem⟩

/-- A product's check writes nothing. -/
theorem checkProduct_within (found : List (Item × HoldingState)) (slug : String) :
    (checkProduct found slug).Within CloseOp.Reads := by
  unfold checkProduct
  cases parseService slug with
  | error refusal => trivial
  | ok service =>
    refine ⟨trivial, fun held => ?_⟩
    cases held with
    | error cause => trivial
    | ok held =>
      dsimp only [orLedger, Prog.bind_eq, Prog.bind]
      split
      · trivial
      · refine ⟨trivial, fun supply => ?_⟩
        cases supply with
        | error cause => trivial
        | ok supply =>
          dsimp only [Prog.bind]
          split <;> trivial

/-- **One product's accounts closed** in a chain of their closings. -/
theorem closes_closeProduct {named : List Item} {found : List (Item × HoldingState)}
    (hnamed : found.map (·.1) = named) {slug : String}
    (hw : Known lib file named w ∧ Standing (stillOpen found) w.books) :
    Closes lib file start
      (fun _ w' => Known lib file named w' ∧ Standing (stillOpen found) w'.books)
      (closeProduct found slug) w := by
  have hsub : ∀ i ∈ stillOpen found, i ∈ named := by
    intro i hi
    obtain ⟨p, hp, rfl⟩ := List.mem_map.mp hi
    exact hnamed ▸ List.mem_map_of_mem (List.mem_of_mem_filter hp)
  unfold closeProduct
  refine closes_bail fun service _ => ?_
  dsimp only
  split
  · trivial
  intro w₁ hrely hinv a w₂ hstep
  have hknown := hrely.known hw.1
  have hopen : Known lib file (stillOpen found) w₁ := fun i hi => hknown i (hsub i hi)
  obtain ⟨hinv₂, -, hstanding⟩ := CloseWorld.Submit.keeps hstep hinv hopen
    (hrely.standing (fun i hi => (hopen i hi).1) hw.2) fun t ht => by
      obtain ⟨i, hi, rfl⟩ := List.mem_map.mp ht
      exact ⟨i, List.mem_of_mem_filter hi, rfl⟩
  refine ⟨hinv₂, ?_⟩
  cases a with
  | error cause => trivial
  | ok _ => exact ⟨hknown.extends hstep.2.2.2.1, hstanding⟩

/-- A product has no holding and no supply. -/
def Zeroed (slug : String) (w : CloseWorld) : Prop :=
  ∃ service, parseService slug = .ok service ∧
    (∀ key, key.holds service = true → w.books.balance key = 0) ∧
    w.books.balance (.sharesOutstanding service) = 0

theorem Elsewhere.zeroed {w w' : CloseWorld} (h : Elsewhere w w') {slug : String}
    (hz : Zeroed slug w) : Zeroed slug w' := by
  obtain ⟨service, hservice, hheld, hsupply⟩ := hz
  refine ⟨service, hservice, fun key hkey => ?_, ?_⟩
  · rw [h.balance (LedgerAccountKey.ledger_of_holds hkey), hheld key hkey]
  · rw [h.balance (k := .sharesOutstanding service) rfl, hsupply]

/-- An account the map does not have was never moved. -/
theorem Closing.unmapped (hinv : Closing lib file start w) {key : LedgerAccountKey}
    (hkey : key ∉ w.accounts.map (·.1)) : w.books.balance key = 0 := by
  have hmapped : ∀ k, (w.accounts.idOf k).isSome → k ≠ key := by
    rintro k hk rfl
    obtain ⟨id, hid⟩ := Option.isSome_iff_exists.mp hk
    exact hkey (List.mem_map.mpr ⟨(k, id), AccountMap.mem_of_idOf hid, rfl⟩)
  have hnone : key ∉ w.books.accounts := by
    intro hmem
    obtain ⟨e, he, hside⟩ := TwoPhase.Ledger.mem_accounts.mp hmem
    rcases hside with hside | hside
    · exact hmapped _ (hinv.mapped e he).1 hside.symm
    · exact hmapped _ (hinv.mapped e he).2 hside.symm
  unfold TwoPhase.Ledger.balance
  rw [TwoPhase.Ledger.posted_eq_zero hnone, TwoPhase.Ledger.posted_eq_zero hnone, sub_zero]

/-- **A product verified** is left with nothing. -/
theorem closes_verifyProduct (hJ : ∀ w w', Elsewhere w w' → J w → J w') {slug : String}
    (hw : J w) :
    Closes lib file start (fun _ w' => J w' ∧ Zeroed slug w') (verifyProduct slug) w := by
  unfold verifyProduct
  refine closes_bail fun service hservice => ?_
  intro w₁ hrely hinv a w₂ hstep
  obtain ⟨rfl, hheld⟩ := hstep
  refine ⟨hinv, closes_ledger fun held hok => ?_⟩
  obtain ⟨there, hthere, hperm⟩ := hheld held hok
  refine closes_read (.balance (.sharesOutstanding service)) trivial
    fun w₃ b hrely₂ hstep₂ => closes_ledger fun supply hsupply => ?_
  split
  · trivial
  next hnone =>
  rw [not_or, not_not, not_not] at hnone
  obtain ⟨hleft, hzero⟩ := hnone
  refine ⟨hJ _ _ hrely₂ (hJ _ _ hrely hw), service, hservice, fun key hkey => ?_, ?_⟩
  · rw [hrely₂.balance (LedgerAccountKey.ledger_of_holds hkey)]
    by_cases hmem : key ∈ w₂.accounts.map (·.1)
    · obtain ⟨p, hp, hread⟩ := (mem_of_mapM hthere).2 key (List.mem_filter.mpr ⟨hmem, hkey⟩)
      obtain ⟨balance, hbalance, hp'⟩ := bind_ok_iff.mp hread
      obtain rfl := Except.ok.inj hp'
      have hposted : balance.posted = 0 := by
        by_contra hne
        have hin : (key, balance.posted) ∈ held.filter (·.2 ≠ 0) :=
          List.mem_filter.mpr ⟨hperm.mem_iff.mpr hp, decide_eq_true hne⟩
        rw [List.map_eq_nil_iff.mp hleft] at hin
        cases hin
      rw [balanceOf_ok hbalance, hposted]
      rfl
    · exact hinv.unmapped hmem
  · rw [balanceOf_ok (hstep₂.2 supply hsupply), hzero]
    rfl

/-! ## The command -/

/-- A step taken only if `c`, with what follows. -/
theorem closes_when {c : Prop} [Decidable c] {p : CloseProg Unit} {f : Unit → CloseProg α}
    (hp : c → Closes lib file start (fun _ => J) p w) (hw : J w)
    (hf : ∀ w, J w → Closes lib file start Q (f ()) w) :
    Closes lib file start Q (if c then p >>= f else f ()) w := by
  split
  case isTrue hc => exact closes_then (hp hc) fun _ => hf
  case isFalse => exact hf w hw

/-- A loop over programs that keep `J`. -/
theorem closes_each {f : β → CloseProg Unit} {xs : List β}
    (hf : ∀ x ∈ xs, ∀ w, J w → Closes lib file start (fun _ => J) (f x) w) (hw : J w) :
    Closes lib file start (fun _ => J) (Prog.each f xs) w :=
  World.wp_each (J := fun _ => J) (fun done x rest hxs w => hf x (by simp [hxs]) w) hw

theorem Steady.ready (named : List Item) {found : List (Item × HoldingState)}
    (hfound : found.map (·.1) = named) :
    Steady fun w => Known lib file named w ∧ Standing (stillOpen found) w.books where
  elsewhere w w' he h := by
    refine ⟨he.known h.1, he.standing (fun i hi => ?_) h.2⟩
    obtain ⟨p, hp, rfl⟩ := List.mem_map.mp hi
    exact (h.1 _ (hfound ▸ List.mem_map_of_mem (List.mem_of_mem_filter hp))).1
  insert w row h := by
    refine ⟨(Steady.known named).insert w row h.1, ?_⟩
    rw [(insert_books w row).1]
    exact h.2

variable (lib file) in
/-- What a run that reports success leaves. -/
def Done (w : CloseWorld) : Prop :=
  (∀ slug ∈ file.services, Zeroed slug w) ∧
    ∀ holding ∈ file.holdings, ∃ item, itemOf lib holding = .ok item ∧ Item.Recorded item w

theorem Elsewhere.done {w w' : CloseWorld} (h : Elsewhere w w') (hdone : Done lib file w) :
    Done lib file w' := by
  refine ⟨fun slug hs => h.zeroed (hdone.1 slug hs), fun holding hh => ?_⟩
  obtain ⟨item, hitem, row, hrow, hkey⟩ := hdone.2 holding hh
  exact ⟨item, hitem, row, h.rows ▸ hrow, hkey⟩

/-- **The command**: what it reports closed is closed. -/
theorem closes_closeShareAccounts (hminted : ∀ raw u, lib.parseUuid raw = some u → u.Minted) :
    Closes lib file start (fun outcome w' => outcome = .closed → Done lib file w')
      (closeShareAccounts lib file) w := by
  unfold closeShareAccounts
  intro w₁ _ hinv call w₂ hinvoke
  obtain rfl : w₂ = { w₁ with begun := w₁.books, chains := 0 } := hinvoke
  refine ⟨⟨hinv.books, hinv.mapped, hinv.rowed, hinv.distinct,
    fun _ => ⟨[], rfl, fun _ he => by cases he⟩⟩, ?_⟩
  refine closes_bail fun _ _ => ?_
  refine closes_when (J := fun _ => True) (fun _ => ?_) trivial fun w _ => ?_
  · cases checkDigest file call.importDigest <;> trivial
  refine closes_read .requireMaintenance trivial fun w _ _ _ => closes_failed fun _ _ => ?_
  refine closes_read .requireDrained trivial fun w _ _ _ => closes_failed fun _ _ => ?_
  refine closes_read .balancedCash trivial fun w _ _ _ => closes_failed fun _ _ => ?_
  refine closes_bail fun listed hlisted => ?_
  obtain ⟨hof, hall⟩ := items_ok hlisted
  have hsound : ∀ i ∈ listed, i.Sound ∧ file.Lists lib i.service i.key i.units := fun i hi => by
    obtain ⟨holding, hholding, hitem⟩ := hof i hi
    exact ⟨itemOf_sound hminted hitem, holding, hholding, i, hitem, rfl, rfl, rfl⟩
  refine closes_then (closes_nameTransfers (J := fun _ => True) (fun _ _ _ h => h) hsound
    trivial) ?_
  rintro named w ⟨-, hknown, hkeys⟩
  refine closes_then (closes_classifyAll (J := Known lib file named) (fun _ _ he => he.known)
    (fun i hi => (hknown i hi).1) hknown) ?_
  rintro found w ⟨hknown, hfound, hstanding⟩
  have hready : Steady fun w => Known lib file named w ∧ Standing (stillOpen found) w.books :=
    Steady.ready named hfound
  refine closes_then (closes_reads hready.elsewhere
    (Prog.Within.each fun slug _ => checkProduct_within found slug) ⟨hknown, hstanding⟩) ?_
  intro _ w hw
  refine closes_then (closes_recordMissing hready ⟨hfound ▸ hw.1, hw⟩) ?_
  intro missing w hw
  refine closes_then (closes_reads hready.elsewhere ?_ hw) ?_
  · unfold anchorBefore
    split
    · trivial
    · refine ⟨trivial, fun reading => ?_⟩
      cases reading <;> trivial
  intro before w hw
  split
  · intro h
    cases h
  refine closes_then (closes_each (J := fun w => Known lib file named w ∧
    Standing (stillOpen found) w.books) (fun _ _ _ => closes_closeProduct hfound) hw) ?_
  rintro _ w ⟨hknown, -⟩
  refine closes_then (World.wp_each
    (J := fun done w => Known lib file named w ∧ ∀ i ∈ done, Item.Recorded i w)
    (fun done i rest hsplit w hw => ?_) ⟨hknown, fun _ hi => by cases hi⟩) ?_
  · have hi := hw.1 i (by simp [hsplit])
    refine World.wp_mono (closes_recordClosed ((Steady.known named).and (Steady.recorded done))
      hi.1 hi.2.2 hw) ?_ fun _ _ h => h
    rintro _ w ⟨⟨hknown, hdone⟩, hrow⟩
    refine ⟨hknown, fun j hj => ?_⟩
    rcases List.mem_append.mp hj with hj | hj
    · exact hdone j hj
    · exact List.mem_singleton.mp hj ▸ hrow
  rintro _ w ⟨-, hrows⟩
  refine closes_then (World.wp_each (J := fun done w => (∀ i ∈ named, Item.Recorded i w) ∧
    ∀ slug ∈ done, Zeroed slug w) (fun done slug rest hsplit w hw => ?_)
    ⟨hrows, fun _ hs => by cases hs⟩) ?_
  · refine World.wp_mono (closes_verifyProduct
      (J := fun w => (∀ i ∈ named, Item.Recorded i w) ∧ ∀ slug ∈ done, Zeroed slug w)
      (fun w w' he h =>
        ⟨(Steady.recorded named).elsewhere w w' he h.1, fun s hs => he.zeroed (h.2 s hs)⟩) hw) ?_
      fun _ _ h => h
    rintro _ w ⟨⟨hrows, hdone⟩, hzero⟩
    refine ⟨hrows, fun s hs => ?_⟩
    rcases List.mem_append.mp hs with hs | hs
    · exact hdone s hs
    · exact List.mem_singleton.mp hs ▸ hzero
  intro _ w hw
  have hdone : Done lib file w := by
    refine ⟨hw.2, fun holding hh => ?_⟩
    obtain ⟨i, hi, hitem⟩ := hall holding hh
    have hmem : i.key ∈ named.map (·.key) := hkeys ▸ List.mem_map_of_mem hi
    obtain ⟨j, hj, hkey⟩ := List.mem_map.mp hmem
    obtain ⟨row, hrow, hlogical⟩ := hw.1 j hj
    exact ⟨i, hitem, row, hrow, hlogical.trans (congrArg _ hkey)⟩
  refine closes_read .balancedCash trivial fun w₁ _ hrely _ => closes_failed fun _ _ => ?_
  refine closes_read .readAnchor trivial fun w₂ _ hrely₂ _ =>
    closes_failed fun after _ => ?_
  have hend := hrely₂.done (hrely.done hdone)
  split
  · split
    · trivial
    · exact fun _ => hend
  · exact fun _ => hend

end Programs

/-! ## The supply -/

/-- A listed account is a holding of its product and of no other. -/
theorem Item.Sound.holds_iff {i : Item} (h : i.Sound) {s : ServiceId} :
    i.key.holds s = true ↔ i.service = s := by
  have hholds := h.holds
  constructor
  · intro hs
    cases hkey : i.key <;> rw [hkey] at hholds hs <;>
      simp only [LedgerAccountKey.holds, decide_eq_true_eq, Bool.false_eq_true] at hholds hs
    all_goals exact hholds.symm.trans hs
  · rintro rfl
    exact hholds

/-- A closing takes its units off its product's supply and off no other. -/
theorem Item.closing_supply (i : Item) (hi : i.Sound) (s : ServiceId) :
    (TwoPhase.Entry.posted i.closing : BookEntry).balanceOf (.sharesOutstanding s) =
      if i.service = s then -(i.units : Int) else 0 := by
  have hcredit : (TwoPhase.Entry.posted i.closing : BookEntry).legs.on .credit ≠
      .sharesOutstanding s := fun he => hi.ne_supply s he.symm
  unfold TwoPhase.Entry.balanceOf TwoPhase.Entry.postedOn
  rw [chart_normal, show LedgerAccountKey.normal (.sharesOutstanding s) = .credit from rfl,
    if_neg hcredit]
  by_cases hservice : i.service = s
  · rw [if_pos hservice, if_pos (show (TwoPhase.Entry.posted i.closing : BookEntry).legs.on
      TwoPhase.Side.credit.flip = .sharesOutstanding s from congrArg _ hservice)]
    exact Int.zero_sub _
  · rw [if_neg hservice, if_neg (show ¬ (TwoPhase.Entry.posted i.closing : BookEntry).legs.on
      TwoPhase.Side.credit.flip = .sharesOutstanding s from
        fun he => hservice (LedgerAccountKey.sharesOutstanding.inj he))]
    rfl

/-- **Supply and holdings move together.** -/
theorem supply_moved {moved : List BookEntry} {L : Books} {S : Finset LedgerAccountKey}
    (hentries : L.entries = moved ++ start.entries) (hgained : ∀ e ∈ moved, Gained lib file e)
    (hS : ∀ e ∈ moved, e.legs.credit ∈ S) (s : ServiceId) :
    L.balance (.sharesOutstanding s) - L.total S (LedgerAccountKey.holds s) =
      start.balance (.sharesOutstanding s) - start.total S (LedgerAccountKey.holds s) := by
  induction moved generalizing L with
  | nil =>
    have hsame : ∀ k, L.balance k = start.balance k := balance_of_entries hentries
    unfold Books.total
    rw [hsame, Finset.sum_congr rfl fun k _ => hsame k]
  | cons e moved ih =>
    obtain ⟨es, refused⟩ := L
    obtain rfl : es = e :: (moved ++ start.entries) := hentries
    have hpush : ∀ k, (⟨e :: (moved ++ start.entries), refused⟩ : Books).balance k =
        (⟨moved ++ start.entries, refused⟩ : Books).balance k + e.balanceOf k :=
      TwoPhase.Ledger.balance_push ⟨moved ++ start.entries, refused⟩ e
    have hrest := ih (L := ⟨moved ++ start.entries, refused⟩) rfl
      (fun e' he' => hgained e' (List.mem_cons_of_mem _ he'))
      (fun e' he' => hS e' (List.mem_cons_of_mem _ he'))
    have hdelta : e.balanceOf (.sharesOutstanding s) =
        ∑ k ∈ S with LedgerAccountKey.holds s k, e.balanceOf k := by
      rcases hgained e List.mem_cons_self with hcash | ⟨item, hitem, -, rfl⟩
      · rw [hcash.balanceOf (k := .sharesOutstanding s) rfl]
        refine (Finset.sum_eq_zero fun k hk => ?_).symm
        exact hcash.balanceOf (LedgerAccountKey.ledger_of_holds (Finset.mem_filter.mp hk).2)
      · rw [item.closing_supply hitem, Finset.sum_congr rfl fun k hk =>
          item.closing_balanceOf (Finset.mem_filter.mp hk).2, Finset.sum_ite_eq]
        have hmem : item.key ∈ S := hS _ List.mem_cons_self
        simp only [Finset.mem_filter, hmem, true_and, hitem.holds_iff]
    unfold Books.total at hrest ⊢
    rw [hpush, Finset.sum_congr rfl fun k _ => hpush k, Finset.sum_add_distrib, ← hdelta]
    omega

/-! ## Every run -/

variable (lib file) in
/-- **What is exact of a closing** that began with `start`: a holding is as it was, or it was listed
with exactly its units and is empty; what the ledger gained is cash and closings of listed accounts;
where the holdings added up to the supply they still do; a row is of an account emptied by its own
closing transfer, with its units. -/
structure Exact (start : Books) (w : CloseWorld) : Prop where
  held : ∀ s key, key.holds s = true → w.books.balance key = start.balance key ∨
    ∃ units : Nat, file.Lists lib s key units ∧ start.balance key = units ∧ w.books.balance key = 0
  gained : ∃ moved, w.books.entries = moved ++ start.entries ∧ ∀ e ∈ moved, Gained lib file e
  supply : ∀ s S, w.books.accounts ⊆ S →
    start.balance (.sharesOutstanding s) = start.total S (LedgerAccountKey.holds s) →
    w.books.balance (.sharesOutstanding s) = w.books.total S (LedgerAccountKey.holds s)
  rows : ∀ row ∈ w.rows, ∃ key account t s, row.logicalKey = key.logicalKey ∧
    row.transferId = closeId key account ∧ .posted t ∈ w.books.entries ∧ t.id = row.transferId ∧
    t.debit = .sharesOutstanding s ∧ t.credit = key ∧ t.amount = row.units ∧
    start.balance key = row.units ∧ w.books.balance key = 0

theorem Closing.exact (h : Closing lib file start w) : Exact lib file start w where
  held := h.books.held
  gained := h.books.gained
  supply s S hS hstart := by
    obtain ⟨moved, hmoved, hall⟩ := h.books.gained
    have hcredits : ∀ e ∈ moved, e.legs.credit ∈ S := fun e he =>
      hS (TwoPhase.Ledger.mem_accounts.mpr ⟨e, hmoved ▸ List.mem_append_left _ he, .inr rfl⟩)
    have hsame := supply_moved hmoved hall hcredits s
    omega
  rows row hrow := by
    obtain ⟨key, account, t, hkey, htext, hid, hmem, ht, hamount⟩ := h.rowed row hrow
    obtain ⟨t', s, hsame, hdebit, hcredit, -, hunits, hzero⟩ :=
      h.books.emptied _ hmem key account hkey (ht.trans hid)
    obtain rfl := TwoPhase.Entry.posted.inj hsame
    exact ⟨key, account, t, s, htext, hid, hmem, ht, hdebit, hcredit, hamount,
      hamount ▸ hunits, hzero⟩

/-- The world before the first run with the file: every account the ledger moved is in the map, and
nothing is written down. -/
structure CloseWorld.Before (start : Books) (w : CloseWorld) : Prop where
  books : w.books = start
  rows : w.rows = []
  mapped : ∀ e ∈ start.entries, (w.accounts.idOf e.legs.debit).isSome ∧
    (w.accounts.idOf e.legs.credit).isSome
  begun : w.begun = start

/-- **The closing has not begun**: it holds of the world before. -/
theorem CloseWorld.Before.initial (h : w.Before start)
    (hfresh : ∀ e ∈ start.entries, ∀ key account, e.id ≠ closeId key account) :
    Closing lib file start w := by
  have hbooks : ClosingBooks lib file start start :=
    ⟨fun e he key account _ hid => absurd hid (hfresh e he key account),
      ⟨[], rfl, fun _ he => by cases he⟩, fun _ _ _ => .inl rfl⟩
  refine ⟨?_, ?_, ?_, ?_, ?_⟩
  · rw [h.books]
    exact hbooks
  · rw [h.books]
    exact h.mapped
  · rw [h.rows]
    exact fun _ hr => by cases hr
  · rw [h.rows]
    exact List.nodup_nil
  · rw [h.begun, h.books]
    exact fun _ => ⟨[], rfl, fun _ he => by cases he⟩

variable (lib file start) in
/-- The dry runs, applied runs and crashes of one file's closing, one after another. -/
abbrev CloseReach : CloseWorld → Option (CloseProg CloseOutcome) → Prop :=
  Reach CloseWorld.Step Elsewhere (closeShareAccounts lib file) (CloseWorld.Before start)

variable {p : Option (CloseProg CloseOutcome)}

/-- What holds wherever a run is. -/
theorem CloseReach.holds (hminted : ∀ raw u, lib.parseUuid raw = some u → u.Minted)
    (hfresh : ∀ e ∈ start.entries, ∀ key account, e.id ≠ closeId key account)
    (h : CloseReach lib file start w p) :
    Closing lib file start w ∧ ∀ q, p = some q → ∃ w₀, Elsewhere w₀ w ∧
      Closes lib file start (fun outcome w' => outcome = .closed → Done lib file w') q w₀ :=
  Reach.reaches (S := closing lib file start) Elsewhere.refl (fun _ _ _ => Elsewhere.trans)
    (fun _ hw => hw.initial hfresh) (fun _ _ hinv he => ⟨he, he.keeps hinv⟩)
    (fun _ _ => closes_closeShareAccounts hminted) h

/-- **Closing the share ledger is exact and restartable.** Whatever the file and the ledger, and
after any sequence of dry runs, applied runs and crashes anywhere: what was closed was closed
exactly (`Exact`); a run that reports success leaves every product of the cut with no holding and no
supply and every listed holding with one row; a run that refuses before its first chain leaves the
ledger as it found it, but for cash that moved meanwhile. -/
theorem share_closing_exact (hminted : ∀ raw u, lib.parseUuid raw = some u → u.Minted)
    (hfresh : ∀ e ∈ start.entries, ∀ key account, e.id ≠ closeId key account)
    (h : CloseReach lib file start w p) :
    Exact lib file start w ∧
    (p = some (.ret .closed) →
      (∀ slug ∈ file.services, ∃ service, parseService slug = .ok service ∧
        (∀ key, key.holds service = true → w.books.balance key = 0) ∧
        w.books.balance (.sharesOutstanding service) = 0) ∧
      ∀ holding ∈ file.holdings, ∃ item, itemOf lib holding = .ok item ∧
        (w.rows.map (·.logicalKey)).count item.key.logicalKey = 1) ∧
    ∀ refusal, p = some (.exit refusal) → w.chains = 0 →
      ∃ moved, w.books.entries = moved ++ w.begun.entries ∧ ∀ e ∈ moved, Cash e := by
  obtain ⟨hinv, hposition⟩ := h.holds hminted hfresh
  refine ⟨hinv.exact, fun hclosed => ?_, fun refusal _ => hinv.untouched⟩
  obtain ⟨w₀, hrely, hdone⟩ := hposition _ hclosed
  obtain ⟨hzeroed, hrecorded⟩ := hrely.done (hdone rfl)
  refine ⟨hzeroed, fun holding hholding => ?_⟩
  obtain ⟨item, hitem, row, hrow, hkey⟩ := hrecorded holding hholding
  exact ⟨item, hitem, List.count_eq_one_of_mem hinv.distinct
    (List.mem_map.mpr ⟨row, hrow, hkey⟩)⟩

end Closing

/-! ## A sample -/

/-- What the world answers a run called with `call` when nothing fails. -/
def CloseOp.served (call : CloseCall) : (op : CloseOp) → CloseWorld → op.Ans × CloseWorld
  | .invoke, w => (call, { w with begun := w.books, chains := 0 })
  | .requireMaintenance, w | .requireDrained, w | .balancedCash, w => (.ok (), w)
  | .readAnchor, w => (.ok ⟨[], 0, 0⟩, w)
  | .tbId key, w => (.ok (w.accounts.idOf key), w)
  | .balance key, w => (balanceOf key w.books, w)
  | .transferAmount id, w => (.ok ((w.books.find id).map (·.transfer.amount)), w)
  | .shareHoldings service, w => (Banking.shareHoldings service w.accounts w.books, w)
  | .hasRow key, w => (.ok (w.rows.any (·.logicalKey = key)), w)
  | .insertRow row, w => (.ok (), w.insert row)
  | .postLinked transfers, w =>
    if transfers.all fun t => (w.accounts.idOf t.debit).isSome && (w.accounts.idOf t.credit).isSome
    then
      let run := (LedgerCall.postLinked transfers).run w.books
      (run.1, { w with books := run.2, chains := w.chains + 1 })
    else (.error (.unavailable ""), { w with chains := w.chains + 1 })

/-- So may it. -/
theorem CloseOp.served_step (call : CloseCall) (op : CloseOp) (w : CloseWorld) :
    CloseWorld.Step op w (op.served call w).1 (op.served call w).2 := by
  cases op with
  | invoke | requireMaintenance | requireDrained | balancedCash | readAnchor => rfl
  | tbId key => exact ⟨rfl, fun found h => (Except.ok.inj h).symm⟩
  | balance key => exact ⟨rfl, fun b h => h⟩
  | transferAmount id => exact ⟨rfl, fun found h => (Except.ok.inj h).symm⟩
  | shareHoldings service => exact ⟨rfl, fun held h => ⟨held, h, .refl _⟩⟩
  | hasRow key => exact ⟨rfl, fun present h => (Except.ok.inj h).symm⟩
  | insertRow row => exact .inl rfl
  | postLinked transfers =>
    simp only [served]
    split
    case isTrue hall =>
      refine ⟨rfl, rfl, rfl, .refl _, .inl ⟨rfl, .inl fun t ht => ?_, .inl rfl⟩⟩
      simpa using List.all_eq_true.mp hall t ht
    case isFalse => exact ⟨rfl, rfl, rfl, .refl _, .inr ⟨rfl, _, rfl⟩⟩

/-- Readers that read nothing but ids. -/
def sampleWindowLib : WindowLib where
  decodeRecord _ := none
  sha256Hex _ := ""
  parseUuid := parseHyphenated
  toLowercase text := text

/-- A cut of one product that one user has five units of. -/
def sampleExport : Export where
  digest := "0000000000000000000000000000000000000000000000000000000000000000"
  users := []
  holdings := [⟨"invest", .userShares, some "00000000-0000-0000-0000-000000000001", "5"⟩]
  services := ["invest"]

/-- The five units, as they were issued. -/
def sampleShares : LedgerTransfer where
  id := .raw 9
  debit := .userShares ⟨"invest"⟩ (.raw 1)
  credit := .sharesOutstanding ⟨"invest"⟩
  amount := 5
  tag := ⟨.windowMigration, .raw 9⟩

/-- The world before the sample's cut is closed. -/
def sampleUnclosed : CloseWorld where
  books := ⟨[.posted sampleShares], []⟩
  accounts := [(sampleShares.debit, 1), (sampleShares.credit, 2)]
  rows := []
  begun := ⟨[.posted sampleShares], []⟩
  chains := 0

/-- The run that closes it, to its end. -/
def sampleClosed : CloseProg CloseOutcome × CloseWorld :=
  (closeShareAccounts sampleWindowLib sampleExport).advance
    (CloseOp.served ⟨.apply, some sampleExport.digest, ⟨⟨"invest"⟩, []⟩⟩) 40 sampleUnclosed

/-- Whether a run is at its end, and reports success. -/
def CloseProg.succeeded : CloseProg CloseOutcome → Bool
  | .ret .closed => true
  | _ => false

theorem CloseProg.eq_closed {p : CloseProg CloseOutcome} (h : p.succeeded = true) :
    p = .ret .closed := by
  cases p with
  | ret outcome =>
    cases outcome with
    | planned => cases h
    | closed => rfl
  | exit refusal => cases h
  | call op k => cases h

/-- The sample's run reports success, and leaves its product no supply. -/
theorem share_closing_exact_sample :
    sampleClosed.2.books.balance (.sharesOutstanding ⟨"invest"⟩) = 0 := by
  have hbefore : sampleUnclosed.Before sampleUnclosed.books :=
    ⟨rfl, rfl, by simp [sampleUnclosed, AccountMap.idOf, sampleShares, TwoPhase.Entry.legs], rfl⟩
  have hfresh : ∀ e ∈ sampleUnclosed.books.entries, ∀ key account, e.id ≠ closeId key account := by
    intro e he key account hid
    obtain rfl := List.mem_singleton.mp he
    cases hid
  have hreach : CloseReach sampleWindowLib sampleExport sampleUnclosed.books sampleClosed.2
      (some sampleClosed.1) :=
    Reach.advance (CloseOp.served_step _) 40 (.start (.init hbefore))
  have hclosed : sampleClosed.1 = .ret .closed := CloseProg.eq_closed (by decide +kernel)
  obtain ⟨service, hservice, -, hsupply⟩ := ((share_closing_exact parseHyphenated_minted hfresh
    hreach).2.1 (congrArg some hclosed)).1 "invest" List.mem_cons_self
  have hparse : parseService "invest" = .ok ⟨"invest"⟩ := by decide +kernel
  obtain rfl := Except.ok.inj (hparse.symm.trans hservice)
  exact hsupply

end Banking
