import Banking.Lib.Pool

/-! # What a program asked, and what it was answered

A journal of operations with their answers, newest first. A **protocol** says which operation may be
asked after a journal; a program keeps it when it asks nothing else however it is answered: a
weakest precondition in the world whose state is the journal (`journaling`). Programs served
together, each request with a journal of its own, keep the protocol request by request, and an
invariant each allowed operation keeps holds wherever they get (`Runs.served`). -/

namespace Interactive

section Journal

variable {Op : Type} {Ans : Op → Type} {ε α : Type}

/-- Operations with their answers, newest first. -/
abbrev Journal (Op : Type) (Ans : Op → Type) : Type := List (Σ op : Op, Ans op)

/-- Each operation of a journal was allowed after those before it. -/
def Journal.Keeps (allowed : Journal Op Ans → Op → Prop) : Journal Op Ans → Prop
  | [] => True
  | e :: j => allowed j e.1 ∧ Journal.Keeps allowed j

theorem Journal.Keeps.of_mem {allowed : Journal Op Ans → Op → Prop} {j : Journal Op Ans}
    (h : Journal.Keeps allowed j) {e : Σ op : Op, Ans op} (he : e ∈ j) :
    ∃ later earlier, j = later ++ e :: earlier ∧ allowed earlier e.1 ∧
      Journal.Keeps allowed earlier := by
  induction j with
  | nil => cases he
  | cons e' j ih =>
    rcases List.mem_cons.mp he with rfl | he
    · exact ⟨[], j, rfl, h.1, h.2⟩
    · obtain ⟨later, earlier, rfl, hrest⟩ := ih h.2 he
      exact ⟨e' :: later, earlier, rfl, hrest⟩

/-- The world that only writes down what is asked and answered, under a protocol. -/
def journaling (allowed : Journal Op Ans → Op → Prop) : World Op Ans (Journal Op Ans) where
  step op j a j' := j' = ⟨op, a⟩ :: j
  rely j j' := j' = j
  inv := Journal.Keeps allowed

variable {allowed : Journal Op Ans → Op → Prop} {Q : α → Journal Op Ans → Prop}
  {E : ε → Journal Op Ans → Prop}

/-- An operation the protocol allows, and what follows on every answer. -/
theorem journaling_call {op : Op} {k : Ans op → Prog Op Ans ε α} {j : Journal Op Ans}
    (hallowed : allowed j op)
    (hk : ∀ a, (journaling allowed).wp Q E (k a) (⟨op, a⟩ :: j)) :
    (journaling allowed).wp Q E (.call op k) j := by
  rintro w₁ rfl hkeeps a w₂ rfl
  exact ⟨⟨hallowed, hkeeps⟩, hk a⟩

/-- And no program asks anything else. -/
theorem journaling_asked {op : Op} {k : Ans op → Prog Op Ans ε α} {j : Journal Op Ans}
    (h : (journaling allowed).wp Q E (.call op k) j) (hkeeps : Journal.Keeps allowed j)
    (a : Ans op) : allowed j op ∧ (journaling allowed).wp Q E (k a) (⟨op, a⟩ :: j) := by
  obtain ⟨hinv, hk⟩ := h j rfl hkeeps a _ rfl
  exact ⟨hinv.1, hk⟩

/-- A program run once, however it is answered: its result and its journal. -/
def Prog.Ran (p : Prog Op Ans ε α) (r : Except ε α) (j : Journal Op Ans) : Prop :=
  Exec (fun op j a j' => j' = ⟨op, a⟩ :: j) (fun j j' => j' = j) p [] r j

/-- A program that keeps a protocol keeps it in every run. -/
theorem Prog.Ran.keeps {p : Prog Op Ans ε α} {r : Except ε α} {j : Journal Op Ans}
    (hran : p.Ran r j) (h : (journaling allowed).wp Q E p []) :
    Journal.Keeps allowed j ∧ EndsIn Q E r j :=
  Exec.of_wp (S := journaling allowed) (fun _ _ hinv hr => hr ▸ hinv) hran trivial h

end Journal

/-! ## Runs composed -/

section Composed

variable {Op : Type} {Ans : Op → Type} {ε ε' α β W : Type}
  {step : (op : Op) → W → Ans op → W → Prop} {rely : W → W → Prop}

/-- One run after another. -/
theorem Exec.bind {p : Prog Op Ans ε α} {f : α → Prog Op Ans ε β} {w w₁ w' : W} {a : α}
    {r : Except ε β} (h : Exec step rely p w (.ok a) w₁) (hf : Exec step rely (f a) w₁ r w') :
    Exec step rely (p.bind f) w r w' := by
  generalize hr : (Except.ok a : Except ε α) = r' at h
  induction h with
  | ret b w => cases hr; exact hf
  | exit e w => cases hr
  | call hrely hstep _ ih => exact .call hrely hstep (ih hf hr)

/-- A run that gets a result got one from each part. -/
theorem Exec.of_bind {p : Prog Op Ans ε α} {f : α → Prog Op Ans ε β} {w w' : W} {b : β}
    (h : Exec step rely (p.bind f) w (.ok b) w') :
    ∃ a w₁, Exec step rely p w (.ok a) w₁ ∧ Exec step rely (f a) w₁ (.ok b) w' := by
  induction p generalizing w with
  | ret a => exact ⟨a, w, .ret a w, h⟩
  | exit e => cases h
  | call op k ih =>
    cases h with
    | call hrely hstep hrest =>
      obtain ⟨a, w₁, hp, hf⟩ := ih _ hrest
      exact ⟨a, w₁, .call hrely hstep hp, hf⟩

/-- A run with its end caught. -/
theorem Exec.outcome {p : Prog Op Ans ε α} {w w' : W} {r : Except ε α}
    (h : Exec step rely p w r w') :
    Exec step rely (p.outcome : Prog Op Ans ε' (Except ε α)) w (.ok r) w' := by
  induction h with
  | ret a w => exact .ret _ w
  | exit e w => exact .ret _ w
  | call hrely hstep _ ih => exact .call hrely hstep ih

theorem Exec.of_outcome {p : Prog Op Ans ε α} {w w' : W} {r : Except ε α}
    (h : Exec step rely (p.outcome : Prog Op Ans ε' (Except ε α)) w (.ok r) w') :
    Exec step rely p w r w' := by
  induction p generalizing w with
  | ret a => cases h; exact .ret a _
  | exit e => cases h; exact .exit e _
  | call op k ih =>
    cases h with
    | call hrely hstep hrest => exact .call hrely hstep (ih _ hrest)

/-- Whatever result one program gets, the other gets on the same answers. -/
def Accepts (step : (op : Op) → W → Ans op → W → Prop) (rely : W → W → Prop)
    (p p' : Prog Op Ans ε α) : Prop :=
  ∀ w a w', Exec step rely p w (.ok a) w' → Exec step rely p' w (.ok a) w'

theorem Accepts.refl (p : Prog Op Ans ε α) : Accepts step rely p p := fun _ _ _ h => h

theorem Accepts.bind {p p' : Prog Op Ans ε α} {f f' : α → Prog Op Ans ε β}
    (hp : Accepts step rely p p') (hf : ∀ a, Accepts step rely (f a) (f' a)) :
    Accepts step rely (p.bind f) (p'.bind f') := by
  intro w b w' h
  obtain ⟨a, w₁, hfirst, hrest⟩ := h.of_bind
  exact (hp w a w₁ hfirst).bind (hf a w₁ b w' hrest)

/-- A program that passes its result on, and gets none where it caught a failure. -/
theorem Accepts.outcome {p p' : Prog Op Ans ε α} {f : Except ε α → Prog Op Ans ε' β}
    (hp : Accepts step rely p p')
    (hfail : ∀ e w b w', ¬ Exec step rely (f (.error e)) w (.ok b) w') :
    Accepts step rely (p.outcome.bind f) (p'.outcome.bind f) := by
  intro w b w' h
  obtain ⟨r, w₁, hfirst, hrest⟩ := h.of_bind
  cases r with
  | error e => exact absurd hrest (hfail e w₁ b w')
  | ok a => exact (hp w a w₁ hfirst.of_outcome).outcome.bind hrest

end Composed

/-! ## Requests served together -/

section Served

variable {Op : Type} {Ans : Op → Type} {ε α W : Type}

/-- A request's arrival, and an operation asked for a request. -/
inductive Asks (Op : Type) : Type
  | arrive
  | ask (request : Nat) (op : Op)

/-- An arrival is answered with the request's number. -/
abbrev Asks.Reply (Ans : Op → Type) : Asks Op → Type
  | .arrive => Nat
  | .ask _ op => Ans op

/-- A world, what every request asked it and was answered, newest first, and how many arrived. -/
structure Served (Op : Type) (Ans : Op → Type) (W : Type) where
  world : W
  journal : List (Nat × Σ op : Op, Ans op)
  arrivals : Nat

/-- Nobody has asked anything. -/
def Served.fresh (w : W) : Served Op Ans W := ⟨w, [], 0⟩

/-- The journal of one request. -/
def Served.asked (s : Served Op Ans W) (q : Nat) : Journal Op Ans :=
  s.journal.filterMap fun e => if e.1 = q then some e.2 else none

/-- The world with one more answer. -/
def Served.answer (s : Served Op Ans W) (q : Nat) (op : Op) (a : Ans op) (w : W) :
    Served Op Ans W := ⟨w, (q, ⟨op, a⟩) :: s.journal, s.arrivals⟩

/-- How the requests' operations are answered. -/
inductive ServedStep (step : (op : Op) → W → Ans op → W → Prop) :
    (op : Asks Op) → Served Op Ans W → Asks.Reply Ans op → Served Op Ans W → Prop
  | arrive (s : Served Op Ans W) :
      ServedStep step .arrive s s.arrivals { s with arrivals := s.arrivals + 1 }
  | ask {s : Served Op Ans W} {op : Op} {a : Ans op} {w : W} (q : Nat)
      (h : step op s.world a w) : ServedStep step (.ask q op) s a (s.answer q op a w)

/-- The others change the world alone. -/
inductive ServedEnv (env : W → W → Prop) : Served Op Ans W → Served Op Ans W → Prop
  | act {s : Served Op Ans W} {w : W} (h : env s.world w) :
      ServedEnv env s { s with world := w }

/-- A program's operations, asked for a request. -/
def Prog.forRequest (q : Nat) : Prog Op Ans ε α → Prog (Asks Op) (Asks.Reply Ans) ε α
  | .ret a => .ret a
  | .exit e => .exit e
  | .call op k => .call (.ask q op) fun a => (k a).forRequest q

/-- A program serving a request from its arrival on. -/
def Prog.serve (p : Prog Op Ans ε α) : Prog (Asks Op) (Asks.Reply Ans) ε α :=
  .call .arrive fun q => p.forRequest q

/-- The request a program is asking for. -/
def Prog.request : Prog (Asks Op) (Asks.Reply Ans) ε α → Option Nat
  | .call (.ask q _) _ => some q
  | _ => none

theorem Prog.request_forRequest {q q' : Nat} {p : Prog Op Ans ε α}
    (h : (p.forRequest q).request = some q') : q' = q := by
  cases p with
  | ret a => cases h
  | exit e => cases h
  | call op k => exact (Option.some.inj h).symm

section Journals

variable {s : Served Op Ans W}

@[simp] theorem Served.asked_answer_self (q : Nat) (op : Op) (a : Ans op) (w : W) :
    (s.answer q op a w).asked q = ⟨op, a⟩ :: s.asked q := by
  simp [Served.asked, Served.answer]

theorem Served.asked_answer_ne {q q' : Nat} (h : q ≠ q') (op : Op) (a : Ans op) (w : W) :
    (s.answer q op a w).asked q' = s.asked q' := by
  simp [Served.asked, Served.answer, h]

theorem Served.mem_asked {q : Nat} {e : Σ op : Op, Ans op} :
    e ∈ s.asked q ↔ (q, e) ∈ s.journal := by
  simp only [Served.asked, List.mem_filterMap, Option.ite_none_right_eq_some, Option.some.injEq]
  constructor
  · rintro ⟨⟨q', e'⟩, hmem, rfl, rfl⟩
    exact hmem
  · exact fun hmem => ⟨(q, e), hmem, rfl, rfl⟩

end Journals

/-! ## What every request keeps -/

variable {allowed : Journal Op Ans → Op → Prop}

/-- What is known of a program under way: it has not arrived, or it serves an arrived request and
keeps the protocol from its journal on. -/
inductive Serving (allowed : Journal Op Ans → Op → Prop) (mains : Prog Op Ans ε α → Prop)
    (s : Served Op Ans W) : Prog (Asks Op) (Asks.Reply Ans) ε α → Prop
  | waiting {p : Prog Op Ans ε α} (h : mains p) : Serving allowed mains s p.serve
  | under {q : Nat} {p : Prog Op Ans ε α} (harrived : q < s.arrivals)
      (h : (journaling allowed).wp (fun _ _ => True) (fun _ _ => True) p (s.asked q)) :
      Serving allowed mains s (p.forRequest q)

variable {mains : Prog Op Ans ε α → Prop} {s s' : Served Op Ans W}

/-- A program whose request's journal is as it was. -/
theorem Serving.stable {p : Prog (Asks Op) (Asks.Reply Ans) ε α} (h : Serving allowed mains s p)
    (hle : s.arrivals ≤ s'.arrivals)
    (hsame : ∀ q, p.request = some q → s'.asked q = s.asked q) : Serving allowed mains s' p := by
  cases h with
  | waiting h => exact .waiting h
  | @under q p harrived h =>
    cases p with
    | ret a => exact .under (p := .ret a) (Nat.lt_of_lt_of_le harrived hle) trivial
    | exit e => exact .under (p := .exit e) (Nat.lt_of_lt_of_le harrived hle) trivial
    | call op k =>
      refine .under (p := .call op k) (Nat.lt_of_lt_of_le harrived hle) ?_
      rw [hsame q rfl]
      exact h

/-- An arrived request is one of those counted. -/
theorem Serving.request_lt {p : Prog (Asks Op) (Asks.Reply Ans) ε α} (h : Serving allowed mains s p)
    {q : Nat} (hq : p.request = some q) : q < s.arrivals := by
  cases h with
  | waiting h => cases hq
  | under harrived h => exact Prog.request_forRequest hq ▸ harrived

/-- What holds of a pool that serves requests. -/
structure Pooled (allowed : Journal Op Ans → Op → Prop) (mains : Prog Op Ans ε α → Prop)
    (J : Served Op Ans W → Prop) (c : Config (Asks Op) (Asks.Reply Ans) ε α (Served Op Ans W)) :
    Prop where
  holds : J c.1
  keeps : ∀ q, Journal.Keeps allowed (c.1.asked q)
  arrived : ∀ e ∈ c.1.journal, e.1 < c.1.arrivals
  serving : ∀ p ∈ c.2, Serving allowed mains c.1 p
  apart : c.2.Pairwise fun p p' => ∀ q, p.request = some q → p'.request ≠ some q

/-- One program of several replaced by one that asks for nothing the others ask for. -/
theorem pairwise_replace {R : α → α → Prop} (hsymm : ∀ a b, R a b → R b a)
    {before after : List α} {a a' : α} (h : (before ++ a :: after).Pairwise R)
    (hnew : ∀ b ∈ before ++ after, R a' b) : (before ++ a' :: after).Pairwise R := by
  have hrest : (before ++ after).Pairwise R :=
    h.sublist (List.Sublist.append_left (List.sublist_cons_self a after) before)
  rw [List.pairwise_append] at hrest ⊢
  refine ⟨hrest.1, List.pairwise_cons.mpr ⟨fun b hb => hnew b (List.mem_append_right _ hb),
    hrest.2.1⟩, fun b hb c hc => ?_⟩
  rcases List.mem_cons.mp hc with rfl | hc
  · exact hsymm _ _ (hnew b (List.mem_append_left _ hb))
  · exact hrest.2.2 b hb c hc

/-- What the stepping program has in common with the others: nothing. -/
theorem Pooled.others {J : Served Op Ans W → Prop}
    {before after : List (Prog (Asks Op) (Asks.Reply Ans) ε α)}
    {p : Prog (Asks Op) (Asks.Reply Ans) ε α}
    (h : Pooled allowed mains J (s, before ++ p :: after)) {p' : Prog (Asks Op) (Asks.Reply Ans) ε α}
    (hp' : p' ∈ before ++ after) {q : Nat} (hq : p.request = some q) : p'.request ≠ some q := by
  have hsplit := List.pairwise_append.mp h.apart
  rcases List.mem_append.mp hp' with hp' | hp'
  · exact fun hq' => hsplit.2.2 p' hp' p List.mem_cons_self q hq' hq
  · exact (List.pairwise_cons.mp hsplit.2.1).1 p' hp' q hq

variable {step : (op : Op) → W → Ans op → W → Prop} {env : W → W → Prop}
  {guard : Config (Asks Op) (Asks.Reply Ans) ε α (Served Op Ans W) →
    Config (Asks Op) (Asks.Reply Ans) ε α (Served Op Ans W) → Prop}

/-- **Requests served.** An invariant that holds at first and that every operation the protocol
allows keeps holds wherever a pool of programs that keep the protocol gets, and so does the
protocol, in every request's journal. -/
theorem Runs.served {J : Served Op Ans W → Prop}
    (hmains : ∀ p, mains p →
      (journaling allowed).wp (fun _ _ => True) (fun _ _ => True) p [])
    (henv : ∀ s w, env s.world w → J s → J { s with world := w })
    (harrive : ∀ s, J s → J { s with arrivals := s.arrivals + 1 })
    (hstep : ∀ (s : Served Op Ans W) (q : Nat) (op : Op) (a : Ans op) (w : W)
      (ps ps' : List (Prog (Asks Op) (Asks.Reply Ans) ε α)), step op s.world a w →
      guard (s, ps) (s.answer q op a w, ps') → (∀ q, Journal.Keeps allowed (s.asked q)) →
      allowed (s.asked q) op → J s → J (s.answer q op a w))
    {w₀ : W} (hinit : J (.fresh w₀)) {c : Config (Asks Op) (Asks.Reply Ans) ε α (Served Op Ans W)}
    (hrun : Runs (ServedStep step) (ServedEnv env) (fun p => ∃ main, mains main ∧ p = main.serve)
      guard (.fresh w₀, []) c) : Pooled allowed mains J c := by
  have hsymm : ∀ p p' : Prog (Asks Op) (Asks.Reply Ans) ε α,
      (∀ q, p.request = some q → p'.request ≠ some q) →
      ∀ q, p'.request = some q → p.request ≠ some q := fun p p' h q hq' hq => h q hq hq'
  induction hrun with
  | refl =>
    exact ⟨hinit, fun _ => trivial, fun e he => (List.not_mem_nil he).elim,
      fun p hp => (List.not_mem_nil hp).elim, .nil⟩
  | tail _ hlast ih =>
    obtain ⟨hlast, hguard⟩ := hlast
    cases hlast with
    | env h =>
      cases h with
      | act h =>
        exact ⟨henv _ _ h ih.holds, ih.keeps, ih.arrived,
          fun p hp => (ih.serving p hp).stable (Nat.le_refl _) fun _ _ => rfl, ih.apart⟩
    | start h =>
      obtain ⟨main, hmain, rfl⟩ := h
      refine ⟨ih.holds, ih.keeps, ih.arrived, fun p hp => ?_,
        List.pairwise_cons.mpr ⟨fun _ _ _ hq => (nomatch hq), ih.apart⟩⟩
      rcases List.mem_cons.mp hp with rfl | hp
      · exact .waiting hmain
      · exact ih.serving p hp
    | @crash _ p before after =>
      have hsub : (before ++ after).Sublist (before ++ p :: after) :=
        List.Sublist.append_left (List.sublist_cons_self _ after) before
      exact ⟨ih.holds, ih.keeps, ih.arrived, fun p hp => ih.serving p (hsub.subset hp),
        ih.apart.sublist hsub⟩
    | @call s s' op a k before after h =>
      have hmine := ih.serving (.call op k) (by simp)
      have hrest : ∀ p ∈ before ++ after, Serving allowed mains s p := fun p hp =>
        ih.serving p ((List.Sublist.append_left (List.sublist_cons_self _ after) before).subset hp)
      have hserving : ∀ p, Serving allowed mains s' p → (∀ p ∈ before ++ after,
          Serving allowed mains s' p) → ∀ p' ∈ before ++ p :: after, Serving allowed mains s' p' := by
        intro p hp hothers p' hp'
        rcases List.mem_append.mp hp' with hp' | hp'
        · exact hothers p' (List.mem_append_left _ hp')
        · rcases List.mem_cons.mp hp' with rfl | hp'
          · exact hp
          · exact hothers p' (List.mem_append_right _ hp')
      cases h with
      | arrive =>
        -- the request gets the next number: nothing is in its journal, and nobody else asks for it
        have hothers : ∀ p ∈ before ++ after,
            Serving allowed mains { s with arrivals := s.arrivals + 1 } p :=
          fun p hp => (hrest p hp).stable (Nat.le_succ _) fun _ _ => rfl
        obtain ⟨p, hp, hk⟩ : ∃ p, mains p ∧ k s.arrivals = p.forRequest s.arrivals := by
          generalize hcall : (Prog.call Asks.arrive k : Prog (Asks Op) (Asks.Reply Ans) ε α) = p at hmine
          cases hmine with
          | @waiting p h =>
            obtain rfl := eq_of_heq (Prog.call.inj hcall).2
            exact ⟨p, h, rfl⟩
          | @under q p harrived h => cases p <;> cases hcall
        have hnil : s.asked s.arrivals = [] := by
          refine List.eq_nil_iff_forall_not_mem.mpr fun e he => ?_
          exact Nat.lt_irrefl _ (ih.arrived _ (Served.mem_asked.mp he))
        refine ⟨harrive s ih.holds, ih.keeps, fun e he => Nat.lt_succ_of_lt (ih.arrived e he),
          hserving _ ?_ hothers, pairwise_replace hsymm ih.apart fun p' hp' q hq hq' => ?_⟩
        · rw [hk]
          refine .under (Nat.lt_succ_self _) ?_
          have hsame : Served.asked { s with arrivals := s.arrivals + 1 } s.arrivals = [] := hnil
          rw [hsame]
          exact hmains p hp
        · rw [hk] at hq
          obtain rfl := Prog.request_forRequest hq
          exact Nat.lt_irrefl _ ((hrest p' hp').request_lt hq')
      | @ask _ op a w q h =>
        obtain ⟨p, harrived, hk, hallowed, hwp⟩ : ∃ p : Prog Op Ans ε α, q < s.arrivals ∧
            k a = p.forRequest q ∧ allowed (s.asked q) op ∧ (journaling allowed).wp
              (fun _ _ => True) (fun _ _ => True) p (⟨op, a⟩ :: s.asked q) := by
          generalize hcall : (Prog.call (Asks.ask q op) k : Prog (Asks Op) (Asks.Reply Ans) ε α) = p
            at hmine
          cases hmine with
          | waiting h => cases hcall
          | @under q' p harrived h =>
            cases p with
            | ret a => cases hcall
            | exit e => cases hcall
            | call op' k' =>
              cases hcall
              obtain ⟨hallowed, hwp⟩ := journaling_asked h (ih.keeps q) a
              exact ⟨k' a, harrived, rfl, hallowed, hwp⟩
        have hne : ∀ p' ∈ before ++ after, p'.request ≠ some q :=
          fun p' hp' => ih.others hp' rfl
        refine ⟨hstep s q op a w _ _ h hguard ih.keeps hallowed ih.holds, fun q' => ?_, ?_,
          hserving _ ?_ fun p' hp' => (hrest p' hp').stable (Nat.le_refl _) fun q' hq' => ?_,
          pairwise_replace hsymm ih.apart fun p' hp' q' hq' => ?_⟩
        · by_cases hq : q = q'
          · subst hq
            rw [Served.asked_answer_self]
            exact ⟨hallowed, ih.keeps q⟩
          · rw [Served.asked_answer_ne hq]
            exact ih.keeps q'
        · intro e he
          rcases List.mem_cons.mp he with rfl | he
          · exact harrived
          · exact ih.arrived e he
        · rw [hk]
          refine .under harrived ?_
          rw [Served.asked_answer_self]
          exact hwp
        · exact Served.asked_answer_ne (fun hq => hne p' hp' (by rw [hq]; exact hq')) op a w
        · rw [hk] at hq'
          obtain rfl := Prog.request_forRequest hq'
          exact hne p' hp'

end Served

end Interactive
