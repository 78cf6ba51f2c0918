import Banking.WindowClose

/-! # What closing keeps

The world the closing runs in is the ledger with its account map and the rows written down; every
operation may fail, a failed write may have landed, and cash keeps moving meanwhile.

`Closing` is what all of it keeps: the ids of closings stand on closing transfers of accounts that
are empty and had exactly those units, what the ledger has gained is cash and closings of listed
accounts, and a row has its transfer. A chain keeps it however it is answered
(`CloseWorld.Submit.keeps`), since an account whose closing the ledger does not have still has its
units; and so does whatever goes on meanwhile (`Elsewhere.keeps`). -/

namespace Banking

open Interactive

/-! ## The world -/

/-- The ledger, its account map and the rows written down; and, for the sake of what is said of it,
the ledger as the last run found it and how many chains were submitted since. -/
structure CloseWorld where
  books : Books
  accounts : AccountMap
  rows : List ClosureRow
  begun : Books
  chains : Nat

namespace CloseWorld

/-- A row inserted, unless its account has one. -/
def insert (w : CloseWorld) (row : ClosureRow) : CloseWorld :=
  if w.rows.any (·.logicalKey = row.logicalKey) then w else { w with rows := row :: w.rows }

/-- Every account a chain names is in the map: each is opened before the chain is submitted. -/
def Opened (w : CloseWorld) (transfers : List LedgerTransfer) : Prop :=
  ∀ t ∈ transfers, (w.accounts.idOf t.debit).isSome ∧ (w.accounts.idOf t.credit).isSome

/-- A submitted chain: answered as the ledger does, or failed, and then landed or not. -/
def Submit (w : CloseWorld) (transfers : List LedgerTransfer) (a : Except LedgerError Unit)
    (w' : CloseWorld) : Prop :=
  let run := (LedgerCall.postLinked transfers).run w.books
  w'.rows = w.rows ∧ w'.begun = w.begun ∧ w'.chains = w.chains + 1 ∧
    w.accounts.Extends w'.accounts ∧
    (w'.books = run.2 ∧ (w'.Opened transfers ∨ w'.books = w.books) ∧
        (a = run.1 ∨ ∃ e, a = .error e) ∨
      w'.books = w.books ∧ ∃ e, a = .error e)

/-- What an operation may answer and do. A read answers what there is, or fails. -/
def Step : (op : CloseOp) → CloseWorld → op.Ans → CloseWorld → Prop
  | .invoke, w, _, w' => w' = { w with begun := w.books, chains := 0 }
  | .requireMaintenance, w, _, w' => w' = w
  | .requireDrained, w, _, w' => w' = w
  | .balancedCash, w, _, w' => w' = w
  | .readAnchor, w, _, w' => w' = w
  | .tbId key, w, a, w' => w' = w ∧ ∀ found, a = .ok found → found = w.accounts.idOf key
  | .balance key, w, a, w' => w' = w ∧ ∀ b, a = .ok b → balanceOf key w.books = .ok b
  | .transferAmount id, w, a, w' =>
    w' = w ∧ ∀ found, a = .ok found → found = (w.books.find id).map (·.transfer.amount)
  | .shareHoldings service, w, a, w' =>
    w' = w ∧ ∀ held, a = .ok held → ∃ there,
      shareHoldings service w.accounts w.books = .ok there ∧ held.Perm there
  | .hasRow key, w, a, w' =>
    w' = w ∧ ∀ present, a = .ok present → present = w.rows.any (·.logicalKey = key)
  | .insertRow row, w, a, w' => w' = w.insert row ∨ w' = w ∧ ∃ e, a = .error e
  | .postLinked transfers, w, a, w' => w.Submit transfers a w'

end CloseWorld

/-- A movement the tool has no part in: between two accounts of one ledger other than the units',
under an id that is none of the tool's. -/
structure Cash (e : BookEntry) : Prop where
  joined : Joined e.legs.debit e.legs.credit
  noUnits : e.legs.debit.ledger ≠ .share
  foreign : ∀ key, e.id ≠ toolId key

/-- What goes on meanwhile: cash moves, accounts are opened. -/
structure Elsewhere (w w' : CloseWorld) : Prop where
  rows : w'.rows = w.rows
  begun : w'.begun = w.begun
  chains : w'.chains = w.chains
  accounts : w.accounts.Extends w'.accounts
  books : ∃ moved, w'.books.entries = moved ++ w.books.entries ∧ ∀ e ∈ moved,
    Cash e ∧ (w'.accounts.idOf e.legs.debit).isSome ∧ (w'.accounts.idOf e.legs.credit).isSome

theorem Elsewhere.refl (w : CloseWorld) : Elsewhere w w :=
  ⟨rfl, rfl, rfl, .refl _, [], rfl, fun _ he => by cases he⟩

theorem Elsewhere.trans {w w₁ w₂ : CloseWorld} (h : Elsewhere w w₁) (h' : Elsewhere w₁ w₂) :
    Elsewhere w w₂ := by
  obtain ⟨moved, hmoved, hcash⟩ := h.books
  obtain ⟨later, hlater, hcash'⟩ := h'.books
  refine ⟨h'.rows.trans h.rows, h'.begun.trans h.begun, h'.chains.trans h.chains,
    h.accounts.trans h'.accounts,
    later ++ moved, by rw [hlater, hmoved, List.append_assoc], fun e he => ?_⟩
  rcases List.mem_append.mp he with he | he
  · exact hcash' e he
  · obtain ⟨hc, hd, hk⟩ := hcash e he
    obtain ⟨d, hd⟩ := Option.isSome_iff_exists.mp hd
    obtain ⟨k, hk⟩ := Option.isSome_iff_exists.mp hk
    exact ⟨hc, by rw [h'.accounts.idOf hd]; rfl, by rw [h'.accounts.idOf hk]; rfl⟩

/-! ## Listed accounts -/

section Closing

variable (lib : WindowLib) (file : Export)

/-- The file lists the account `key` of `service` with these units. -/
def Export.Lists (service : ServiceId) (key : LedgerAccountKey) (units : Nat) : Prop :=
  ∃ h ∈ file.holdings, ∃ item, itemOf lib h = .ok item ∧ item.service = service ∧ item.key = key ∧
    item.units = units

variable {lib file}

/-- What a listed holding is read as. -/
structure Item.Sound (i : Item) : Prop where
  formed : i.key.Formed
  holds : i.key.holds i.service = true
  closable : i.key.closable.isSome = true
  positive : 0 < i.units

theorem itemOf_sound (hminted : ∀ raw u, lib.parseUuid raw = some u → u.Minted) {h : ShareHolding}
    {item : Item} (hitem : itemOf lib h = .ok item) : item.Sound := by
  unfold itemOf at hitem
  cases hservice : parseService h.service with
  | error e => rw [hservice] at hitem; cases hitem
  | ok service =>
    have hshaped : service.Shaped := by
      unfold parseService at hservice
      split at hservice
      · next parsed hparsed =>
        cases hservice
        exact (ServiceId.parse_ok hparsed).1
      · cases hservice
    cases huser : parseHolder lib h.userId with
    | error e => rw [hservice, huser] at hitem; cases hitem
    | ok user =>
      have husers : ∀ u, user = some u → u.Minted := by
        intro u hu
        unfold parseHolder at huser
        split at huser
        · cases huser; cases hu
        · split at huser
          · next raw _ hraw =>
            cases huser
            cases hu
            exact hminted _ _ hraw
          · cases huser
      rw [hservice, huser] at hitem
      cases hunits : parseUnits h.units with
      | error e =>
        cases hkind : h.kind <;> cases user <;>
          simp [hkind, hunits, bind, Except.bind] at hitem
      | ok units =>
        cases hkind : h.kind <;> cases user <;>
          simp only [hkind, hunits, bind, Except.bind, pure, Except.pure, reduceCtorEq] at hitem <;>
          split_ifs at hitem with hzero
        all_goals
          cases hitem
        · exact ⟨⟨hshaped, husers _ rfl⟩, by simp [LedgerAccountKey.holds], rfl,
            Nat.pos_of_ne_zero hzero⟩
        · exact ⟨hshaped, by simp [LedgerAccountKey.holds], rfl, Nat.pos_of_ne_zero hzero⟩

/-- The product's supply is no holding. -/
theorem Item.Sound.ne_supply {i : Item} (h : i.Sound) (s : ServiceId) :
    LedgerAccountKey.sharesOutstanding s ≠ i.key := by
  intro he
  have hholds := h.holds
  rw [← he] at hholds
  cases hholds

/-- Closing transfers of two accounts have two ids. -/
theorem closeId_injective {k k' : LedgerAccountKey} {account account' : Nat} (hk : k.Formed)
    (hk' : k'.Formed) (h : closeId k account = closeId k' account') : k = k' := by
  have hkey := accountKey_injective (toolId_injective h)
  have htext : k.logicalKey = k'.logicalKey := by
    have hlist := congrArg String.toList hkey
    simp only [String.toList_append] at hlist
    exact String.toList_inj.mp (List.append_cancel_left hlist)
  have hread := logicalKey_read parseHyphenated_text hk
  rw [htext, logicalKey_read parseHyphenated_text hk'] at hread
  exact (Except.ok.inj hread).symm

/-! ## What a movement changes -/

/-- Cash moves no units. -/
theorem Cash.balanceOf {e : BookEntry} (h : Cash e) {k : LedgerAccountKey}
    (hk : k.ledger = .share) : e.balanceOf k = 0 := by
  have hne : ∀ side, e.legs.on side ≠ k := by
    intro side he
    cases side with
    | debit => exact h.noUnits (by rw [← hk, ← he]; rfl)
    | credit => exact h.noUnits (by rw [h.joined.1, ← hk, ← he]; rfl)
  unfold TwoPhase.Entry.balanceOf TwoPhase.Entry.postedOn
  rw [if_neg (hne _), if_neg (hne _)]
  rfl

theorem LedgerAccountKey.ledger_of_holds {s : ServiceId} {k : LedgerAccountKey}
    (h : k.holds s = true) : k.ledger = .share := by
  cases k <;> first | rfl | cases h

theorem LedgerAccountKey.normal_of_holds {s : ServiceId} {k : LedgerAccountKey}
    (h : k.holds s = true) : k.normal = .debit := by
  cases k <;> first | rfl | cases h

/-- A closing takes its units off its account and off no other holding. -/
theorem Item.closing_balanceOf (i : Item) {s : ServiceId} {k : LedgerAccountKey}
    (hk : k.holds s = true) :
    (TwoPhase.Entry.posted i.closing : BookEntry).balanceOf k =
      if i.key = k then -(i.units : Int) else 0 := by
  have hdebit : LedgerAccountKey.sharesOutstanding i.service ≠ k := by
    rintro rfl
    cases hk
  unfold TwoPhase.Entry.balanceOf TwoPhase.Entry.postedOn
  rw [chart_normal, LedgerAccountKey.normal_of_holds hk]
  have hon : (TwoPhase.Entry.posted i.closing : BookEntry).legs.on .debit ≠ k := hdebit
  rw [if_neg hon]
  by_cases hkey : i.key = k
  · rw [if_pos hkey, if_pos (show (TwoPhase.Entry.posted i.closing : BookEntry).legs.on
      TwoPhase.Side.debit.flip = k from hkey)]
    exact Int.zero_sub _
  · rw [if_neg hkey, if_neg (show ¬ (TwoPhase.Entry.posted i.closing : BookEntry).legs.on
      TwoPhase.Side.debit.flip = k from hkey)]
    rfl

/-! ## What any of it keeps -/

variable (lib file)

/-- What the ledger gains: cash, and closings of accounts the file lists. -/
def Gained (e : BookEntry) : Prop :=
  Cash e ∨ ∃ item : Item, item.Sound ∧ file.Lists lib item.service item.key item.units ∧
    e = .posted item.closing

/-- **The ledger's half**: the tool's ids stand on closings of accounts that are empty, and since
the start a holding was left as it was or emptied of exactly the units listed. -/
structure ClosingBooks (start L : Books) : Prop where
  emptied : ∀ e ∈ L.entries, ∀ key account, key.Formed → e.id = closeId key account →
    ∃ t s, e = .posted t ∧ t.debit = .sharesOutstanding s ∧ t.credit = key ∧
      key.holds s = true ∧ start.balance key = t.amount ∧ L.balance key = 0
  gained : ∃ moved, L.entries = moved ++ start.entries ∧ ∀ e ∈ moved, Gained lib file e
  held : ∀ s key, key.holds s = true → L.balance key = start.balance key ∨
    ∃ units : Nat, file.Lists lib s key units ∧ start.balance key = units ∧ L.balance key = 0

/-- **The world's invariant**: the ledger's half; every account is in the map; a row has its closing
transfer, and an account at most one row. -/
structure Closing (start : Books) (w : CloseWorld) : Prop where
  books : ClosingBooks lib file start w.books
  mapped : ∀ e ∈ w.books.entries, (w.accounts.idOf e.legs.debit).isSome ∧
    (w.accounts.idOf e.legs.credit).isSome
  rowed : ∀ row ∈ w.rows, ∃ key account t, key.Formed ∧ row.logicalKey = key.logicalKey ∧
    row.transferId = closeId key account ∧ .posted t ∈ w.books.entries ∧ t.id = row.transferId ∧
    t.amount = row.units
  distinct : (w.rows.map (·.logicalKey)).Nodup
  untouched : w.chains = 0 → ∃ moved, w.books.entries = moved ++ w.begun.entries ∧
    ∀ e ∈ moved, Cash e

variable {lib file} {start : Books}

/-- The account's ledger id is known, and the item carries the id of its closing. -/
def Item.Named (accounts : AccountMap) (i : Item) : Prop :=
  ∃ account, accounts.idOf i.key = some account ∧ i.transferId = closeId i.key account

theorem Item.Named.extends {accounts accounts' : AccountMap} {i : Item} (h : i.Named accounts)
    (hextends : accounts.Extends accounts') : i.Named accounts' := by
  obtain ⟨account, hid, htransfer⟩ := h
  exact ⟨account, hextends.idOf hid, htransfer⟩

/-- Two items of one account carry one id. -/
theorem Item.Named.same {accounts : AccountMap} {i j : Item} (hi : i.Named accounts)
    (hj : j.Named accounts) (h : i.key = j.key) : i.transferId = j.transferId := by
  obtain ⟨account, hid, htransfer⟩ := hi
  obtain ⟨account', hid', htransfer'⟩ := hj
  rw [h, hid'] at hid
  rw [htransfer, htransfer', h, Option.some.inj hid]

/-- The closing of an account that has its units keeps the ledger's half. -/
theorem ClosingBooks.pushClosing {L : Books} (h : ClosingBooks lib file start L)
    {accounts : AccountMap} {i : Item} (hi : i.Sound)
    (hlists : file.Lists lib i.service i.key i.units) (hnamed : i.Named accounts)
    (hunits : L.balance i.key = i.units) :
    ClosingBooks lib file start (L.push (.posted i.closing)) := by
  have hafter : ∀ {s : ServiceId} {k : LedgerAccountKey}, k.holds s = true →
      (L.push (.posted i.closing)).balance k = if i.key = k then 0 else L.balance k := by
    intro s k hk
    rw [TwoPhase.Ledger.balance_push, i.closing_balanceOf hk]
    split_ifs with hkey
    · rw [← hkey, hunits]
      omega
    · exact add_zero _
  -- an account emptied before has no units left to close
  have hstart : start.balance i.key = i.units := by
    rcases h.held i.service i.key hi.holds with hold | ⟨units, -, -, hzero⟩
    · rw [← hold, hunits]
    · rw [hunits] at hzero
      have hpos := hi.positive
      omega
  constructor
  · intro e he key account hkey hid
    rcases List.mem_cons.mp he with rfl | he
    · obtain ⟨account', _, htransfer⟩ := hnamed
      have hsame : i.key = key := closeId_injective hi.formed hkey (htransfer.symm.trans hid)
      refine ⟨i.closing, i.service, rfl, rfl, hsame, hsame ▸ hi.holds, hsame ▸ hstart, ?_⟩
      rw [hafter (hsame ▸ hi.holds), if_pos hsame]
    · obtain ⟨t, s, ht, hdebit, hcredit, hholds, hamount, hzero⟩ :=
        h.emptied e he key account hkey hid
      refine ⟨t, s, ht, hdebit, hcredit, hholds, hamount, ?_⟩
      rw [hafter hholds, hzero, ite_self]
  · obtain ⟨moved, hmoved, hall⟩ := h.gained
    refine ⟨.posted i.closing :: moved, by rw [TwoPhase.Ledger.push_entries, hmoved]; rfl,
      fun e he => ?_⟩
    rcases List.mem_cons.mp he with rfl | he
    · exact .inr ⟨i, hi, hlists, rfl⟩
    · exact hall e he
  · intro s key hkey
    rw [hafter hkey]
    split_ifs with hsame
    · right
      have hservice : s = i.service := by
        have hholds := hi.holds
        rw [hsame] at hholds
        cases key <;> simp_all [LedgerAccountKey.holds]
      subst hservice
      exact ⟨i.units, hsame ▸ hlists, hsame ▸ hstart, rfl⟩
    · exact h.held s key hkey

/-! ## What the command knows of its items -/

variable (lib file)

/-- The items are of the file, and carry the ids of their closings. -/
def Known (items : List Item) (w : CloseWorld) : Prop :=
  ∀ i ∈ items, i.Sound ∧ file.Lists lib i.service i.key i.units ∧ i.Named w.accounts

variable {lib file}

/-- Items found open either still have their units or are closed by now. -/
def Standing (items : List Item) (L : Books) : Prop :=
  ∀ i ∈ items, L.has i.transferId = true ∨ L.balance i.key = i.units

theorem Known.extends {items : List Item} {w w' : CloseWorld} (h : Known lib file items w)
    (hextends : w.accounts.Extends w'.accounts) : Known lib file items w' :=
  fun i hi => ⟨(h i hi).1, (h i hi).2.1, (h i hi).2.2.extends hextends⟩

/-- One account's closing leaves the others with their units. -/
theorem Standing.pushClosing {items : List Item} {w : CloseWorld} {L : Books}
    (h : Standing items L) (hknown : Known lib file items w) {i : Item} (hi : i ∈ items) :
    Standing items (L.push (.posted i.closing)) := by
  intro j hj
  obtain ⟨hsound, -, hnamed⟩ := hknown j hj
  rw [TwoPhase.Ledger.has_push, TwoPhase.Ledger.balance_push, i.closing_balanceOf hsound.holds]
  rcases h j hj with hhas | hunits
  · exact .inl (by rw [hhas, Bool.or_true])
  · by_cases hkey : i.key = j.key
    · left
      have hid : (TwoPhase.Entry.posted i.closing : BookEntry).id = j.transferId :=
        (hknown i hi).2.2.same hnamed hkey
      rw [decide_eq_true hid, Bool.true_or]
    · right
      rw [if_neg hkey, hunits, add_zero]

/-! ## What a chain does -/

/-- What a chain leaves of the ledger: what there was, with some of its transfers. -/
theorem run_postLinked_entries (transfers : List LedgerTransfer) (L : Books) :
    L.entries ⊆ ((LedgerCall.postLinked transfers).run L).2.entries ∧
      ∀ e ∈ ((LedgerCall.postLinked transfers).run L).2.entries,
        e ∈ L.entries ∨ ∃ t ∈ transfers, e = .posted t := by
  rcases run_postLinked_whole transfers L with hlanded | hsame
  · rw [hlanded]
    refine ⟨List.subset_append_right _ _, fun e he => ?_⟩
    rcases List.mem_append.mp he with he | he
    · obtain ⟨t, ht, rfl⟩ := List.mem_map.mp (List.mem_reverse.mp he)
      exact .inr ⟨t, ht, rfl⟩
    · exact .inl he
  · rw [hsame]
    exact ⟨List.Subset.refl _, fun e he => .inl he⟩

/-- **A chain of closings**, however it is answered, keeps what holds of the world and of the
items. -/
theorem CloseWorld.Submit.keeps {items : List Item} {w w' : CloseWorld}
    {transfers : List LedgerTransfer} {a : Except LedgerError Unit} (h : w.Submit transfers a w')
    (hinv : Closing lib file start w) (hknown : Known lib file items w)
    (hstanding : Standing items w.books) (hof : ∀ t ∈ transfers, ∃ i ∈ items, t = i.closing) :
    Closing lib file start w' ∧ Known lib file items w' ∧ Standing items w'.books := by
  obtain ⟨hrows, -, hchains, haccounts, hbooks⟩ := h
  have hstarted : w'.chains ≠ 0 := by omega
  have hclosings : ClosingBooks lib file start ((LedgerCall.postLinked transfers).run w.books).2 ∧
      Standing items ((LedgerCall.postLinked transfers).run w.books).2 := by
    refine LedgerCall.run_invariant
      (P := fun L : Books => ClosingBooks lib file start L ∧ Standing items L) ?_
      (fun _ _ _ hL => ⟨⟨hL.1.emptied, hL.1.gained, hL.1.held⟩, hL.2⟩) ⟨hinv.books, hstanding⟩
    rintro L r hr ⟨hL, hstand⟩ hcheck
    obtain ⟨t, ht, rfl⟩ := List.mem_map.mp hr
    obtain ⟨i, hi, rfl⟩ := hof t ht
    obtain ⟨hsound, hlists, hnamed⟩ := hknown i hi
    -- an id the ledger has not seen: the account still has its units
    have hfresh : L.has i.transferId = false := (TwoPhase.Ledger.fresh_of_check hcheck).1
    have hunits : L.balance i.key = i.units := by
      rcases hstand i hi with hhas | hunits
      · rw [hfresh] at hhas
        cases hhas
      · exact hunits
    exact ⟨hL.pushClosing hsound hlists hnamed hunits, hstand.pushClosing hknown hi⟩
  have hextends : ∀ k, (w.accounts.idOf k).isSome → (w'.accounts.idOf k).isSome := by
    intro k hk
    obtain ⟨id, hid⟩ := Option.isSome_iff_exists.mp hk
    rw [haccounts.idOf hid]
    rfl
  have hold : ∀ e ∈ w.books.entries, (w'.accounts.idOf e.legs.debit).isSome ∧
      (w'.accounts.idOf e.legs.credit).isSome := fun e he =>
    ⟨hextends _ (hinv.mapped e he).1, hextends _ (hinv.mapped e he).2⟩
  obtain ⟨hsub, hnew⟩ := run_postLinked_entries transfers w.books
  rcases hbooks with ⟨hb, hopened, -⟩ | ⟨hb, -⟩
  · refine ⟨⟨hb ▸ hclosings.1, ?_, ?_, hrows ▸ hinv.distinct, fun h => absurd h hstarted⟩,
      hknown.extends haccounts,
      hb ▸ hclosings.2⟩
    · intro e he
      rcases hopened with hopened | hsame
      · rw [hb] at he
        rcases hnew e he with he | ⟨t, ht, rfl⟩
        · exact hold e he
        · exact hopened t ht
      · exact hold e (hsame ▸ he)
    · intro row hrow
      obtain ⟨key, account, t, hk, htext, hid, hmem, ht, hamount⟩ := hinv.rowed row (hrows ▸ hrow)
      exact ⟨key, account, t, hk, htext, hid, hb ▸ hsub hmem, ht, hamount⟩
  · refine ⟨⟨hb ▸ hinv.books, ?_, ?_, hrows ▸ hinv.distinct, fun h => absurd h hstarted⟩,
      hknown.extends haccounts,
      hb ▸ hstanding⟩
    · exact fun e he => hold e (hb ▸ he)
    · intro row hrow
      obtain ⟨key, account, t, hk, htext, hid, hmem, ht, hamount⟩ := hinv.rowed row (hrows ▸ hrow)
      exact ⟨key, account, t, hk, htext, hid, hb ▸ hmem, ht, hamount⟩

/-! ## What goes on meanwhile -/

/-- Cash leaves every unit account's balance. -/
theorem balance_moved {moved : List BookEntry} {L L' : Books}
    (hentries : L'.entries = moved ++ L.entries) (hmoved : ∀ e ∈ moved, Cash e)
    {k : LedgerAccountKey} (hk : k.ledger = .share) : L'.balance k = L.balance k := by
  induction moved generalizing L' with
  | nil => exact balance_of_entries hentries k
  | cons e moved ih =>
    obtain ⟨es, refused⟩ := L'
    obtain rfl : es = e :: (moved ++ L.entries) := hentries
    have hrest := @ih ⟨moved ++ L.entries, refused⟩ rfl fun e' he' =>
      hmoved e' (List.mem_cons_of_mem _ he')
    have hpush : (⟨e :: (moved ++ L.entries), refused⟩ : Books).balance k =
        (⟨moved ++ L.entries, refused⟩ : Books).balance k + e.balanceOf k :=
      TwoPhase.Ledger.balance_push ⟨moved ++ L.entries, refused⟩ e k
    rw [hpush, hrest, (hmoved e List.mem_cons_self).balanceOf hk, add_zero]

/-- What was accepted stays. -/
theorem has_moved {moved : List BookEntry} {L L' : Books}
    (hentries : L'.entries = moved ++ L.entries) {id : Uuid} (h : L.has id = true) :
    L'.has id = true := by
  obtain ⟨e, he, hid⟩ := TwoPhase.Ledger.has_iff.mp h
  exact TwoPhase.Ledger.has_iff.mpr ⟨e, hentries ▸ List.mem_append_right _ he, hid⟩

/-- Cash keeps the ledger's half. -/
theorem ClosingBooks.moved {moved : List BookEntry} {L L' : Books}
    (h : ClosingBooks lib file start L) (hentries : L'.entries = moved ++ L.entries)
    (hmoved : ∀ e ∈ moved, Cash e) : ClosingBooks lib file start L' where
  emptied e he key account hkey hid := by
    rw [hentries] at he
    rcases List.mem_append.mp he with he | he
    · exact absurd hid ((hmoved e he).foreign _)
    · obtain ⟨t, s, ht, hdebit, hcredit, hholds, hamount, hzero⟩ :=
        h.emptied e he key account hkey hid
      refine ⟨t, s, ht, hdebit, hcredit, hholds, hamount, ?_⟩
      rw [balance_moved hentries hmoved (LedgerAccountKey.ledger_of_holds hholds), hzero]
  gained := by
    obtain ⟨before, hbefore, hall⟩ := h.gained
    refine ⟨moved ++ before, by rw [hentries, hbefore, List.append_assoc], fun e he => ?_⟩
    rcases List.mem_append.mp he with he | he
    · exact .inl (hmoved e he)
    · exact hall e he
  held s key hkey := by
    rw [balance_moved hentries hmoved (LedgerAccountKey.ledger_of_holds hkey)]
    exact h.held s key hkey

namespace Elsewhere

variable {w w' : CloseWorld} (h : Elsewhere w w')
include h

/-- What goes on meanwhile leaves the units where they are. -/
theorem balance {k : LedgerAccountKey} (hk : k.ledger = .share) :
    w'.books.balance k = w.books.balance k := by
  obtain ⟨moved, hmoved, hall⟩ := h.books
  exact balance_moved hmoved (fun e he => (hall e he).1) hk

theorem known {items : List Item} (hknown : Known lib file items w) : Known lib file items w' :=
  hknown.extends h.accounts

theorem standing {items : List Item} (hsound : ∀ i ∈ items, i.Sound)
    (hstanding : Standing items w.books) : Standing items w'.books := by
  obtain ⟨moved, hmoved, -⟩ := h.books
  intro i hi
  rw [h.balance (LedgerAccountKey.ledger_of_holds (hsound i hi).holds)]
  exact (hstanding i hi).imp_left (has_moved hmoved)

/-- **It keeps what holds of the world.** -/
theorem keeps (hinv : Closing lib file start w) : Closing lib file start w' := by
  obtain ⟨moved, hmoved, hall⟩ := h.books
  have hextends : ∀ k, (w.accounts.idOf k).isSome → (w'.accounts.idOf k).isSome := by
    intro k hk
    obtain ⟨id, hid⟩ := Option.isSome_iff_exists.mp hk
    rw [h.accounts.idOf hid]
    rfl
  refine ⟨hinv.books.moved hmoved fun e he => (hall e he).1, ?_, ?_, h.rows ▸ hinv.distinct, ?_⟩
  · intro e he
    rw [hmoved] at he
    rcases List.mem_append.mp he with he | he
    · exact (hall e he).2
    · exact ⟨hextends _ (hinv.mapped e he).1, hextends _ (hinv.mapped e he).2⟩
  · intro row hrow
    obtain ⟨key, account, t, hk, htext, hid, hmem, ht, hamount⟩ := hinv.rowed row (h.rows ▸ hrow)
    exact ⟨key, account, t, hk, htext, hid, hmoved ▸ List.mem_append_right _ hmem, ht, hamount⟩
  · intro hchains
    obtain ⟨before, hbefore, hcash⟩ := hinv.untouched (h.chains ▸ hchains)
    refine ⟨moved ++ before, by rw [hmoved, hbefore, h.begun, List.append_assoc], fun e he => ?_⟩
    rcases List.mem_append.mp he with he | he
    · exact (hall e he).1
    · exact hcash e he

end Elsewhere

end Closing

end Banking
