import Mathlib.Tactic.Common

/-! # Programs that ask an environment

A worker as a program of atomic operations, each answered by its environment: a finite tree that
branches on answers (`Prog`), with an early exit. What an operation may answer, and what it does to
the world, is a relation; between two operations other parties may change the world (`rely`).

`wp` is the weakest precondition under that interference, with an invariant every operation must
keep; `Reach` is the worker run over and over, stopped anywhere. A worker whose program has a `wp`
keeps the invariant in every reachable world (`Reach.invariant`). -/

namespace Interactive

/-! ## Programs -/

/-- A program over the operations `Op`, answered in `Ans`: a result, an early exit, or an operation
and what follows on its answer. -/
inductive Prog (Op : Type) (Ans : Op → Type) (ε α : Type) : Type
  | ret (a : α)
  | exit (e : ε)
  | call (op : Op) (k : Ans op → Prog Op Ans ε α)

section Programs

variable {Op : Type} {Ans : Op → Type} {ε ε' α β : Type}

/-- One program after another; an exit skips the rest. -/
def Prog.bind : Prog Op Ans ε α → (α → Prog Op Ans ε β) → Prog Op Ans ε β
  | .ret a, f => f a
  | .exit e, _ => .exit e
  | .call op k, f => .call op fun x => (k x).bind f

instance : Monad (Prog Op Ans ε) where
  pure := .ret
  bind := .bind

/-- One operation. -/
def Prog.ask (op : Op) : Prog Op Ans ε (Ans op) := .call op .ret

/-- The program `f x` for each `x` of a list, in order. -/
def Prog.each (f : β → Prog Op Ans ε Unit) : List β → Prog Op Ans ε Unit
  | [] => .ret ()
  | x :: xs => (f x).bind fun _ => Prog.each f xs

/-- A program whose every operation is carried out by a program over the operations of another
environment. -/
def Prog.via {Op' : Type} {Ans' : Op' → Type} (h : (op : Op) → Prog Op' Ans' ε (Ans op)) :
    Prog Op Ans ε α → Prog Op' Ans' ε α
  | .ret a => .ret a
  | .exit e => .exit e
  | .call op k => (h op).bind fun x => (k x).via h

/-- A result, or the exit its failure is. -/
def Prog.orExit {δ : Type} (g : δ → ε) : Except δ α → Prog Op Ans ε α
  | .ok a => .ret a
  | .error d => .exit (g d)

/-- A program with its exit caught. -/
def Prog.outcome : Prog Op Ans ε α → Prog Op Ans ε' (Except ε α)
  | .ret a => .ret (.ok a)
  | .exit e => .ret (.error e)
  | .call op k => .call op fun x => (k x).outcome

@[simp] theorem Prog.pure_eq (a : α) : (pure a : Prog Op Ans ε α) = .ret a := rfl

@[simp] theorem Prog.bind_eq (p : Prog Op Ans ε α) (f : α → Prog Op Ans ε β) :
    p >>= f = p.bind f := rfl

@[simp] theorem Prog.ret_bind (a : α) (f : α → Prog Op Ans ε β) :
    (Prog.ret a : Prog Op Ans ε α).bind f = f a := rfl

@[simp] theorem Prog.exit_bind (e : ε) (f : α → Prog Op Ans ε β) :
    (Prog.exit e : Prog Op Ans ε α).bind f = .exit e := rfl

@[simp] theorem Prog.ask_bind (op : Op) (f : Ans op → Prog Op Ans ε β) :
    (Prog.ask op : Prog Op Ans ε (Ans op)).bind f = .call op f := rfl

/-- Sequencing is associative. -/
theorem Prog.bind_assoc {γ : Type} (p : Prog Op Ans ε α) (f : α → Prog Op Ans ε β)
    (g : β → Prog Op Ans ε γ) : (p.bind f).bind g = p.bind fun a => (f a).bind g := by
  induction p with
  | ret a => rfl
  | exit e => rfl
  | call op k ih => exact congrArg (Prog.call op) (funext ih)

/-- A program followed by its own result is itself. -/
@[simp] theorem Prog.bind_ret (p : Prog Op Ans ε α) : p.bind .ret = p := by
  induction p with
  | ret a => rfl
  | exit e => rfl
  | call op k ih => exact congrArg (Prog.call op) (funext ih)

/-- One program after another, each carried out. -/
theorem Prog.via_bind {Op' : Type} {Ans' : Op' → Type} (h : (op : Op) → Prog Op' Ans' ε (Ans op))
    (p : Prog Op Ans ε α) (f : α → Prog Op Ans ε β) :
    (p.bind f).via h = (p.via h).bind fun a => (f a).via h := by
  induction p with
  | ret a => rfl
  | exit e => rfl
  | call op k ih => exact (congrArg _ (funext ih)).trans (Prog.bind_assoc _ _ _).symm

@[simp] theorem Prog.each_nil (f : β → Prog Op Ans ε Unit) : Prog.each f [] = .ret () := rfl

theorem Prog.each_cons (f : β → Prog Op Ans ε Unit) (x : β) (xs : List β) :
    Prog.each f (x :: xs) = (f x).bind fun _ => Prog.each f xs := rfl

/-- Every operation of a program satisfies `S`, whatever the answers. -/
def Prog.Within (S : Op → Prop) : Prog Op Ans ε α → Prop
  | .ret _ | .exit _ => True
  | .call op k => S op ∧ ∀ a, (k a).Within S

theorem Prog.Within.bind {S : Op → Prop} {p : Prog Op Ans ε α} {f : α → Prog Op Ans ε β}
    (hp : p.Within S) (hf : ∀ a, (f a).Within S) : (p.bind f).Within S := by
  induction p with
  | ret a => exact hf a
  | exit e => exact hp
  | call op k ih => exact ⟨hp.1, fun a => ih a (hp.2 a)⟩

theorem Prog.Within.each {S : Op → Prop} {f : β → Prog Op Ans ε Unit} {xs : List β}
    (h : ∀ x ∈ xs, (f x).Within S) : (Prog.each f xs).Within S := by
  induction xs with
  | nil => trivial
  | cons x xs ih =>
    exact (h x List.mem_cons_self).bind fun _ => ih fun y hy => h y (List.mem_cons_of_mem _ hy)

theorem Prog.Within.outcome {S : Op → Prop} {p : Prog Op Ans ε α} (hp : p.Within S) :
    (p.outcome : Prog Op Ans ε' (Except ε α)).Within S := by
  induction p with
  | ret a => trivial
  | exit e => trivial
  | call op k ih => exact ⟨hp.1, fun a => ih a (hp.2 a)⟩

theorem Prog.Within.mono {S S' : Op → Prop} {p : Prog Op Ans ε α} (hp : p.Within S)
    (h : ∀ op, S op → S' op) : p.Within S' := by
  induction p with
  | ret a => trivial
  | exit e => trivial
  | call op k ih => exact ⟨h op hp.1, fun a => ih a (hp.2 a)⟩

theorem Prog.Within.and {S S' : Op → Prop} {p : Prog Op Ans ε α} (hp : p.Within S)
    (hp' : p.Within S') : p.Within fun op => S op ∧ S' op := by
  induction p with
  | ret a => trivial
  | exit e => trivial
  | call op k ih => exact ⟨⟨hp.1, hp'.1⟩, fun a => ih a (hp.2 a) (hp'.2 a)⟩

end Programs

/-! ## Weakest preconditions under interference -/

/-- An environment: how each operation may be answered and change the world, what the other parties
may do between two operations, and what every operation must keep. -/
structure World (Op : Type) (Ans : Op → Type) (W : Type) where
  step : (op : Op) → W → Ans op → W → Prop
  rely : W → W → Prop
  inv : W → Prop

section Wp

variable {Op : Type} {Ans : Op → Type} {ε ε' α β W : Type}

/-- From the world `w`, whatever the others do before each operation and however it is answered:
every operation keeps the invariant, a result ends in `Q` and an exit in `E`. -/
def World.wp (S : World Op Ans W) (Q : α → W → Prop) (E : ε → W → Prop) :
    Prog Op Ans ε α → W → Prop
  | .ret a, w => Q a w
  | .exit e, w => E e w
  | .call op k, w => ∀ w₁, S.rely w w₁ → S.inv w₁ → ∀ a w₂, S.step op w₁ a w₂ →
      S.inv w₂ ∧ S.wp Q E (k a) w₂

variable {S : World Op Ans W} {Q Q' : α → W → Prop} {E E' : ε → W → Prop}

@[simp] theorem World.wp_ret {a : α} {w : W} :
    S.wp Q E (.ret a : Prog Op Ans ε α) w ↔ Q a w := Iff.rfl

@[simp] theorem World.wp_exit {e : ε} {w : W} :
    S.wp Q E (.exit e : Prog Op Ans ε α) w ↔ E e w := Iff.rfl

theorem World.wp_call {op : Op} {k : Ans op → Prog Op Ans ε α} {w : W} :
    S.wp Q E (.call op k) w ↔ ∀ w₁, S.rely w w₁ → S.inv w₁ → ∀ a w₂, S.step op w₁ a w₂ →
      S.inv w₂ ∧ S.wp Q E (k a) w₂ := Iff.rfl

/-- **Sequencing.** -/
theorem World.wp_bind {p : Prog Op Ans ε α} {f : α → Prog Op Ans ε β} {Q : β → W → Prop} {w : W} :
    S.wp Q E (p.bind f) w ↔ S.wp (fun a => S.wp Q E (f a)) E p w := by
  induction p generalizing w with
  | ret a => rfl
  | exit e => rfl
  | call op k ih =>
    constructor
    · intro h w₁ hr hi a w₂ hs
      exact ⟨(h w₁ hr hi a w₂ hs).1, (ih a).mp (h w₁ hr hi a w₂ hs).2⟩
    · intro h w₁ hr hi a w₂ hs
      exact ⟨(h w₁ hr hi a w₂ hs).1, (ih a).mpr (h w₁ hr hi a w₂ hs).2⟩

/-- **Consequence.** -/
theorem World.wp_mono {p : Prog Op Ans ε α} {w : W} (h : S.wp Q E p w)
    (hQ : ∀ a w, Q a w → Q' a w) (hE : ∀ e w, E e w → E' e w) : S.wp Q' E' p w := by
  induction p generalizing w with
  | ret a => exact hQ a w h
  | exit e => exact hE e w h
  | call op k ih =>
    intro w₁ hr hi a w₂ hs
    exact ⟨(h w₁ hr hi a w₂ hs).1, ih a (h w₁ hr hi a w₂ hs).2⟩

/-- **A read**, of the world as it then is. -/
theorem World.wp_read (op : Op) {f : Ans op → Prog Op Ans ε α} {w : W}
    (hread : ∀ w a w', S.step op w a w' → w' = w)
    (hf : ∀ w₁ a, S.rely w w₁ → S.step op w₁ a w₁ → S.wp Q E (f a) w₁) :
    S.wp Q E ((Prog.ask op).bind f) w := by
  intro w₁ hr hi a w₂ hs
  obtain rfl := hread w₁ a w₂ hs
  exact ⟨hi, hf w₂ a hr hs⟩

/-- **A result used**, where its failure may exit. -/
theorem World.wp_orExit {δ : Type} {g : δ → ε} {x : Except δ β} {f : β → Prog Op Ans ε α} {w : W}
    (hE : ∀ d, x = .error d → E (g d) w) (hf : ∀ b, x = .ok b → S.wp Q E (f b) w) :
    S.wp Q E ((Prog.orExit g x).bind f) w := by
  cases x with
  | error d => exact hE d rfl
  | ok b => exact hf b rfl

/-- **Catching an exit.** -/
theorem World.wp_outcome {p : Prog Op Ans ε α} {w : W} {Q : Except ε α → W → Prop}
    {E : ε' → W → Prop} :
    S.wp Q E p.outcome w ↔ S.wp (fun a => Q (.ok a)) (fun e => Q (.error e)) p w := by
  induction p generalizing w with
  | ret a => rfl
  | exit e => rfl
  | call op k ih =>
    constructor
    · intro h w₁ hr hi a w₂ hs
      exact ⟨(h w₁ hr hi a w₂ hs).1, (ih a).mp (h w₁ hr hi a w₂ hs).2⟩
    · intro h w₁ hr hi a w₂ hs
      exact ⟨(h w₁ hr hi a w₂ hs).1, (ih a).mpr (h w₁ hr hi a w₂ hs).2⟩

/-- **Two invariants** a program keeps it keeps together. -/
theorem World.wp_and {inv' : W → Prop} {p : Prog Op Ans ε α} {w : W} (h : S.wp Q E p w)
    (h' : World.wp ⟨S.step, S.rely, inv'⟩ Q' E' p w) :
    World.wp ⟨S.step, S.rely, fun w => S.inv w ∧ inv' w⟩ (fun a w => Q a w ∧ Q' a w)
      (fun e w => E e w ∧ E' e w) p w := by
  induction p generalizing w with
  | ret a => exact ⟨h, h'⟩
  | exit e => exact ⟨h, h'⟩
  | call op k ih =>
    intro w₁ hr hi a w₂ hs
    obtain ⟨hi₂, hk⟩ := h w₁ hr hi.1 a w₂ hs
    obtain ⟨hi₂', hk'⟩ := h' w₁ hr hi.2 a w₂ hs
    exact ⟨⟨hi₂, hi₂'⟩, ih a hk hk'⟩

/-- **The loop rule.** `J done` holds after the elements `done`; each further one takes it from
`J done` to `J (done ++ [x])`. -/
theorem World.wp_each {f : β → Prog Op Ans ε Unit} {J : List β → W → Prop} {xs : List β}
    (hstep : ∀ done x rest, xs = done ++ x :: rest → ∀ w, J done w →
      S.wp (fun _ => J (done ++ [x])) E (f x) w) {w : W} (h : J [] w) :
    S.wp (fun _ => J xs) E (Prog.each f xs) w := by
  have hfrom : ∀ rest done, xs = done ++ rest → ∀ w, J done w →
      S.wp (fun _ => J xs) E (Prog.each f rest) w := by
    intro rest
    induction rest with
    | nil =>
      intro done hxs w hw
      rw [List.append_nil] at hxs
      exact hxs ▸ hw
    | cons x rest ih =>
      intro done hxs w hw
      refine World.wp_bind.mpr (World.wp_mono (hstep done x rest hxs w hw) ?_ fun _ _ he => he)
      intro _ w' hw'
      exact ih (done ++ [x]) (by rw [hxs, List.append_assoc]; rfl) w' hw'
  exact hfrom xs [] rfl w h

/-- **The frame rule.** What the others and every operation of a program leave alone, the program
leaves alone. -/
theorem World.wp_within {U : Op → Prop} {J : W → Prop} {p : Prog Op Ans ε α} (hp : p.Within U)
    (hrely : ∀ w w', S.rely w w' → J w → J w')
    (hstep : ∀ op w a w', U op → S.inv w → J w → S.step op w a w' → S.inv w' ∧ J w') {w : W}
    (h : J w) : S.wp (fun _ => J) (fun _ => J) p w := by
  induction p generalizing w with
  | ret a => exact h
  | exit e => exact h
  | call op k ih =>
    intro w₁ hr hi a w₂ hs
    obtain ⟨hi₂, hj₂⟩ := hstep op w₁ a w₂ hp.1 hi (hrely w w₁ hr h) hs
    exact ⟨hi₂, ih a (hp.2 a) hj₂⟩

/-- **The simulation rule.** A program that keeps to one environment keeps to another it is carried
out in, where carrying out each operation it asks ends in what the first environment allows, as long
as the two are related. -/
theorem World.wp_via {Op' : Type} {Ans' : Op' → Type} {W' : Type} {S' : World Op' Ans' W'}
    {h : (op : Op) → Prog Op' Ans' ε (Ans op)} {U : Op → Prop} {R : W → W' → Prop}
    {F : ε → W' → Prop} (hrely : ∀ w, S.rely w w)
    (hspec : ∀ op w w', U op → R w w' → (∀ a w₁, S.step op w a w₁ → S.inv w₁) →
      S'.wp (fun a w₁' => ∃ w₁, S.step op w a w₁ ∧ R w₁ w₁') F (h op) w')
    (hexit : ∀ e w w', E e w → R w w' → F e w') {p : Prog Op Ans ε α} (hU : p.Within U) {w : W}
    {w' : W'} (hp : S.wp Q E p w) (hinv : S.inv w) (hrel : R w w') :
    S'.wp (fun a w₁' => ∃ w₁, Q a w₁ ∧ R w₁ w₁') F (p.via h) w' := by
  induction p generalizing w w' with
  | ret a => exact ⟨w, hp, hrel⟩
  | exit e => exact hexit e w w' hp hrel
  | call op k ih =>
    have hkeeps := hp w (hrely w) hinv
    refine World.wp_bind.mpr (World.wp_mono
      (hspec op w w' hU.1 hrel fun a w₁ hs => (hkeeps a w₁ hs).1) ?_ fun _ _ he => he)
    rintro a w₁' ⟨w₁, hs, hrel₁⟩
    exact ih a (hU.2 a) (hkeeps a w₁ hs).2 (hkeeps a w₁ hs).1 hrel₁

end Wp

/-! ## A program run once -/

section Exec

variable {Op : Type} {Ans : Op → Type} {ε α W W' : Type}

/-- A program run to its end, the others acting before each of its operations. -/
inductive Exec (step : (op : Op) → W → Ans op → W → Prop) (rely : W → W → Prop) :
    Prog Op Ans ε α → W → Except ε α → W → Prop
  | ret (a : α) (w : W) : Exec step rely (.ret a) w (.ok a) w
  | exit (e : ε) (w : W) : Exec step rely (.exit e) w (.error e) w
  | call {op : Op} {k : Ans op → Prog Op Ans ε α} {w w₁ w₂ w' : W} {a : Ans op} {r : Except ε α} :
      rely w w₁ → step op w₁ a w₂ → Exec step rely (k a) w₂ r w' →
      Exec step rely (.call op k) w r w'

/-- The end of a run as a postcondition has it. -/
def EndsIn (Q : α → W → Prop) (E : ε → W → Prop) : Except ε α → W → Prop
  | .ok a, w => Q a w
  | .error e, w => E e w

/-- A run ends where its weakest precondition says. -/
theorem Exec.of_wp {S : World Op Ans W} (hstable : ∀ w w₁, S.inv w → S.rely w w₁ → S.inv w₁)
    {Q : α → W → Prop} {E : ε → W → Prop} {p : Prog Op Ans ε α} {w w' : W} {r : Except ε α}
    (he : Exec S.step S.rely p w r w') (hi : S.inv w) (h : S.wp Q E p w) :
    S.inv w' ∧ EndsIn Q E r w' := by
  induction he with
  | ret a w => exact ⟨hi, h⟩
  | exit e w => exact ⟨hi, h⟩
  | call hr hs _ ih =>
    have hi₁ := hstable _ _ hi hr
    obtain ⟨hi₂, h₂⟩ := h _ hr hi₁ _ _ hs
    exact ih hi₂ h₂

/-- A run of one world is a run of any other its steps project to. -/
theorem Exec.map {step : (op : Op) → W → Ans op → W → Prop} {rely : W → W → Prop}
    {step' : (op : Op) → W' → Ans op → W' → Prop} {rely' : W' → W' → Prop} {f : W → W'}
    (hrely : ∀ w w₁, rely w w₁ → rely' (f w) (f w₁))
    (hstep : ∀ op w a w₁, step op w a w₁ → step' op (f w) a (f w₁)) {p : Prog Op Ans ε α} {w w' : W}
    {r : Except ε α} (he : Exec step rely p w r w') : Exec step' rely' p (f w) r (f w') := by
  induction he with
  | ret a w => exact .ret a (f w)
  | exit e w => exact .exit e (f w)
  | call hr hs _ ih => exact .call (hrely _ _ hr) (hstep _ _ _ _ hs) ih

/-- A program run against an environment that answers by a function. -/
def Prog.runWith (answer : W → (op : Op) → Ans op × W) : Prog Op Ans ε α → W → Except ε α × W
  | .ret a, w => (.ok a, w)
  | .exit e, w => (.error e, w)
  | .call op k, w => (k (answer w op).1).runWith answer (answer w op).2

/-- Whether every answer such a run is given passes `ok`. -/
def Prog.answersPass (answer : W → (op : Op) → Ans op × W) (ok : (op : Op) → Ans op → Bool) :
    Prog Op Ans ε α → W → Bool
  | .ret _, _ | .exit _, _ => true
  | .call op k, w =>
    ok op (answer w op).1 && (k (answer w op).1).answersPass answer ok (answer w op).2

/-- Such a run is one the relation allows. -/
theorem Exec.of_runWith {step : (op : Op) → W → Ans op → W → Prop} {rely : W → W → Prop}
    {answer : W → (op : Op) → Ans op × W} {ok : (op : Op) → Ans op → Bool}
    (hrely : ∀ w, rely w w)
    (hstep : ∀ op w, ok op (answer w op).1 = true → step op w (answer w op).1 (answer w op).2)
    {p : Prog Op Ans ε α} {w : W} (hp : p.answersPass answer ok w = true) :
    Exec step rely p w (p.runWith answer w).1 (p.runWith answer w).2 := by
  induction p generalizing w with
  | ret a => exact .ret a w
  | exit e => exact .exit e w
  | call op k ih =>
    rw [Prog.answersPass, Bool.and_eq_true] at hp
    exact .call (hrely w) (hstep op w hp.1) (ih _ hp.2)

end Exec

/-! ## A worker run over and over -/

section Reach

variable {Op : Type} {Ans : Op → Type} {ε α W : Type}

/-- The worlds and the worker's positions that are reached: the others act at any time, the worker
starts, takes a step, and stops anywhere (its end, or a crash) to start again. -/
inductive Reach (step : (op : Op) → W → Ans op → W → Prop) (env : W → W → Prop)
    (main : Prog Op Ans ε α) (init : W → Prop) : W → Option (Prog Op Ans ε α) → Prop
  | init {w : W} : init w → Reach step env main init w none
  | env {w w' : W} {p : Option (Prog Op Ans ε α)} :
      Reach step env main init w p → env w w' → Reach step env main init w' p
  | start {w : W} : Reach step env main init w none → Reach step env main init w (some main)
  | step {w w' : W} {op : Op} {k : Ans op → Prog Op Ans ε α} {a : Ans op} :
      Reach step env main init w (some (.call op k)) → step op w a w' →
      Reach step env main init w' (some (k a))
  | stop {w : W} {p : Prog Op Ans ε α} :
      Reach step env main init w (some p) → Reach step env main init w none

/-- **The worker's rule.** With an invariant the others keep, within what the worker relies on, and
the worker's program keeps, the invariant holds in every reached world, and wherever the worker is,
what is left of its program has its weakest precondition. -/
theorem Reach.reaches {S : World Op Ans W} {env : W → W → Prop} {main : Prog Op Ans ε α}
    {init : W → Prop} {Q : α → W → Prop} {E : ε → W → Prop} (hrefl : ∀ w, S.rely w w)
    (htrans : ∀ w w₁ w₂, S.rely w w₁ → S.rely w₁ w₂ → S.rely w w₂)
    (hinit : ∀ w, init w → S.inv w) (henv : ∀ w w', S.inv w → env w w' → S.rely w w' ∧ S.inv w')
    (hmain : ∀ w, S.inv w → S.wp Q E main w)
    {w : W} {p : Option (Prog Op Ans ε α)} (h : Reach S.step env main init w p) :
    S.inv w ∧ ∀ q, p = some q → ∃ w₀, S.rely w₀ w ∧ S.wp Q E q w₀ := by
  induction h with
  | init hw => exact ⟨hinit _ hw, fun _ hq => nomatch hq⟩
  | env _ he ih =>
    obtain ⟨hr, hi⟩ := henv _ _ ih.1 he
    refine ⟨hi, fun q hq => ?_⟩
    obtain ⟨w₀, hr₀, hwp⟩ := ih.2 q hq
    exact ⟨w₀, htrans _ _ _ hr₀ hr, hwp⟩
  | start _ ih =>
    refine ⟨ih.1, fun q hq => ?_⟩
    cases hq
    exact ⟨_, hrefl _, hmain _ ih.1⟩
  | step _ hs ih =>
    obtain ⟨w₀, hr₀, hwp⟩ := ih.2 _ rfl
    obtain ⟨hi, hwp'⟩ := hwp _ hr₀ ih.1 _ _ hs
    refine ⟨hi, fun q hq => ?_⟩
    cases hq
    exact ⟨_, hrefl _, hwp'⟩
  | stop _ ih => exact ⟨ih.1, fun _ hq => nomatch hq⟩

/-- **The invariant rule.** An invariant the others keep, within what the worker relies on, and the
worker's program keeps, holds in every reached world. -/
theorem Reach.invariant {S : World Op Ans W} {env : W → W → Prop} {main : Prog Op Ans ε α}
    {init : W → Prop} (hrefl : ∀ w, S.rely w w)
    (htrans : ∀ w w₁ w₂, S.rely w w₁ → S.rely w₁ w₂ → S.rely w w₂)
    (hinit : ∀ w, init w → S.inv w) (henv : ∀ w w', S.inv w → env w w' → S.rely w w' ∧ S.inv w')
    (hmain : ∀ w, S.inv w → S.wp (fun _ _ => True) (fun _ _ => True) main w)
    {w : W} {p : Option (Prog Op Ans ε α)} (h : Reach S.step env main init w p) :
    S.inv w ∧ ∀ q, p = some q →
      ∃ w₀, S.rely w₀ w ∧ S.wp (fun _ _ => True) (fun _ _ => True) q w₀ :=
  Reach.reaches hrefl htrans hinit henv hmain h

end Reach

end Interactive
