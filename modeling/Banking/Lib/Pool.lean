import Mathlib.Logic.Relation
import Banking.Lib.Interactive

/-! # Several programs at once

A pool of programs over one world: each takes its operations one at a time, in any order among them,
may be started at any moment and may be dropped anywhere; others change the world meanwhile. What
each program asserts of the world, and an invariant of the world alone, hold in every configuration
reached when one operation keeps the invariant, moves its own program's assertion on and leaves the
others' standing (`Runs.invariant`). A weakest precondition is such an assertion, when every
operation is one of the things the programs rely on the others for (`Runs.reliant`); where only an
operation of a program that got there is one, the program promises it (`Runs.promised`). -/

namespace Interactive

section Pool

variable {Op : Type} {Ans : Op → Type} {ε α W : Type}

/-- A world and the programs under way over it. -/
abbrev Config (Op : Type) (Ans : Op → Type) (ε α W : Type) : Type :=
  W × List (Prog Op Ans ε α)

/-- One step of a pool: another party's, a program's start, one of its operations, or its loss. -/
inductive PoolStep (step : (op : Op) → W → Ans op → W → Prop) (env : W → W → Prop)
    (starts : Prog Op Ans ε α → Prop) : Config Op Ans ε α W → Config Op Ans ε α W → Prop
  | env {w w' : W} {ps : List (Prog Op Ans ε α)} (h : env w w') :
      PoolStep step env starts (w, ps) (w', ps)
  | start {w : W} {p : Prog Op Ans ε α} {ps : List (Prog Op Ans ε α)} (h : starts p) :
      PoolStep step env starts (w, ps) (w, p :: ps)
  | call {w w' : W} {op : Op} {a : Ans op} {k : Ans op → Prog Op Ans ε α}
      (before after : List (Prog Op Ans ε α)) (h : step op w a w') :
      PoolStep step env starts (w, before ++ .call op k :: after) (w', before ++ k a :: after)
  | crash {w : W} {p : Prog Op Ans ε α} (before after : List (Prog Op Ans ε α)) :
      PoolStep step env starts (w, before ++ p :: after) (w, before ++ after)

/-- The configurations reached by steps that meet `guard`. -/
def Runs (step : (op : Op) → W → Ans op → W → Prop) (env : W → W → Prop)
    (starts : Prog Op Ans ε α → Prop)
    (guard : Config Op Ans ε α W → Config Op Ans ε α W → Prop) :
    Config Op Ans ε α W → Config Op Ans ε α W → Prop :=
  Relation.ReflTransGen fun c c' => PoolStep step env starts c c' ∧ guard c c'

variable {step : (op : Op) → W → Ans op → W → Prop} {env : W → W → Prop}
  {starts : Prog Op Ans ε α → Prop} {guard : Config Op Ans ε α W → Config Op Ans ε α W → Prop}

/-- **The invariant rule.** `J` holds of the world and `A` of each program and the world, when every
step that meets the guard keeps them so. -/
theorem Runs.invariant {J : W → Prop} {A : Prog Op Ans ε α → W → Prop}
    (henv : ∀ w w' ps, env w w' → guard (w, ps) (w', ps) → J w → (∀ p ∈ ps, A p w) →
      J w' ∧ ∀ p ∈ ps, A p w')
    (hstart : ∀ w p, starts p → J w → A p w)
    (hcall : ∀ (w w' : W) (op : Op) (a : Ans op) (k : Ans op → Prog Op Ans ε α)
      (before after : List (Prog Op Ans ε α)), step op w a w' →
      guard (w, before ++ .call op k :: after) (w', before ++ k a :: after) → J w →
      (∀ p ∈ before ++ .call op k :: after, A p w) →
      J w' ∧ A (k a) w' ∧ ∀ p ∈ before ++ after, A p w')
    {c c' : Config Op Ans ε α W} (hrun : Runs step env starts guard c c') (hJ : J c.1)
    (hA : ∀ p ∈ c.2, A p c.1) : J c'.1 ∧ ∀ p ∈ c'.2, A p c'.1 := by
  induction hrun with
  | refl => exact ⟨hJ, hA⟩
  | tail _ hstep ih =>
    obtain ⟨hJ, hA⟩ := ih
    obtain ⟨hstep, hguard⟩ := hstep
    cases hstep with
    | env h => exact henv _ _ _ h hguard hJ hA
    | start h =>
      refine ⟨hJ, fun p hp => ?_⟩
      rcases List.mem_cons.mp hp with rfl | hp
      · exact hstart _ _ h hJ
      · exact hA p hp
    | call before after h =>
      obtain ⟨hJ', hmine, hothers⟩ := hcall _ _ _ _ _ before after h hguard hJ hA
      refine ⟨hJ', fun p hp => ?_⟩
      rcases List.mem_append.mp hp with hp | hp
      · exact hothers p (List.mem_append_left _ hp)
      · rcases List.mem_cons.mp hp with rfl | hp
        · exact hmine
        · exact hothers p (List.mem_append_right _ hp)
    | crash before after =>
      refine ⟨hJ, fun p hp => hA p ?_⟩
      rcases List.mem_append.mp hp with hp | hp
      · exact List.mem_append_left _ hp
      · exact List.mem_append_right _ (List.mem_cons_of_mem _ hp)

/-! ## Programs that rely on each other -/

variable {S : World Op Ans W}

/-- What the others do leaves a program's weakest precondition standing. -/
theorem World.wp_rely (htrans : ∀ {a b c}, S.rely a b → S.rely b c → S.rely a c)
    {p : Prog Op Ans ε α} {w w' : W} (hrely : S.rely w w')
    (h : S.wp (fun _ _ => True) (fun _ _ => True) p w) :
    S.wp (fun _ _ => True) (fun _ _ => True) p w' := by
  cases p with
  | ret a => trivial
  | exit e => trivial
  | call op k => exact fun w₁ hr => h w₁ (htrans hrely hr)

/-- **Rely and guarantee.** The invariant holds wherever a pool gets, when every operation and
everything the environment does is what the programs rely on the others for, and every program has a
weakest precondition where it starts. -/
theorem Runs.reliant (hrefl : ∀ w, S.rely w w)
    (htrans : ∀ {a b c}, S.rely a b → S.rely b c → S.rely a c)
    (henv : ∀ w w' ps, env w w' → guard (w, ps) (w', ps) → S.inv w → S.rely w w' ∧ S.inv w')
    (hcall : ∀ (w w' : W) (op : Op) (a : Ans op) (ps ps' : List (Prog Op Ans ε α)),
      step op w a w' → guard (w, ps) (w', ps') → S.inv w → S.step op w a w' ∧ S.rely w w')
    (hstart : ∀ w p, starts p → S.inv w → S.wp (fun _ _ => True) (fun _ _ => True) p w)
    {c c' : Config Op Ans ε α W} (hrun : Runs step env starts guard c c') (hinv : S.inv c.1)
    (hps : ∀ p ∈ c.2, S.wp (fun _ _ => True) (fun _ _ => True) p c.1) : S.inv c'.1 := by
  refine (Runs.invariant (J := S.inv) (A := S.wp (fun _ _ => True) (fun _ _ => True)) ?_ hstart ?_
    hrun hinv hps).1
  · intro w w' ps h hguard hinv hps
    obtain ⟨hrely, hinv'⟩ := henv w w' ps h hguard hinv
    exact ⟨hinv', fun p hp => World.wp_rely htrans hrely (hps p hp)⟩
  · intro w w' op a k before after h hguard hinv hps
    obtain ⟨hstep, hrely⟩ := hcall w w' op a _ _ h hguard hinv
    obtain ⟨hinv', hmine⟩ :=
      World.wp_call.mp (hps (.call op k) (by simp)) w (hrefl w) hinv a w' hstep
    refine ⟨hinv', hmine, fun p hp => World.wp_rely htrans hrely (hps p ?_)⟩
    simp only [List.mem_append, List.mem_cons] at hp ⊢
    tauto

/-! ## What a program promises the others -/

/-- From the world `w`, every operation of a program keeps the invariant and does nothing but what
the programs rely on the others for. -/
def World.promises (S : World Op Ans W) : Prog Op Ans ε α → W → Prop
  | .ret _, _ | .exit _, _ => True
  | .call op k, w => ∀ w₁, S.rely w w₁ → S.inv w₁ → ∀ a w₂, S.step op w₁ a w₂ →
      S.rely w₁ w₂ ∧ S.inv w₂ ∧ S.promises (k a) w₂

@[simp] theorem World.promises_ret {a : α} {w : W} :
    S.promises (.ret a : Prog Op Ans ε α) w ↔ True := Iff.rfl

@[simp] theorem World.promises_exit {e : ε} {w : W} :
    S.promises (.exit e : Prog Op Ans ε α) w ↔ True := Iff.rfl

theorem World.promises_call {op : Op} {k : Ans op → Prog Op Ans ε α} {w : W} :
    S.promises (.call op k) w ↔ ∀ w₁, S.rely w w₁ → S.inv w₁ → ∀ a w₂, S.step op w₁ a w₂ →
      S.rely w₁ w₂ ∧ S.inv w₂ ∧ S.promises (k a) w₂ := Iff.rfl

/-- One program after another that keeps its promises wherever `J` holds, which what the programs
rely on leaves standing. -/
theorem World.promises_bind {β : Type} {J : W → Prop} (hJ : ∀ w w', S.rely w w' → J w → J w')
    {p : Prog Op Ans ε β} {f : β → Prog Op Ans ε α} {w : W} (hp : S.promises p w) (hw : J w)
    (hf : ∀ b w, J w → S.promises (f b) w) : S.promises (p.bind f) w := by
  induction p generalizing w with
  | ret b => exact hf b w hw
  | exit e => trivial
  | call op k ih =>
    intro w₁ hr hi a w₂ hs
    obtain ⟨hr₂, hi₂, hk⟩ := hp w₁ hr hi a w₂ hs
    exact ⟨hr₂, hi₂, ih a hk (hJ _ _ hr₂ (hJ _ _ hr hw))⟩

theorem World.promises_outcome {ε' : Type} {p : Prog Op Ans ε α} {w : W} (hp : S.promises p w) :
    S.promises (p.outcome : Prog Op Ans ε' (Except ε α)) w := by
  induction p generalizing w with
  | ret a => trivial
  | exit e => trivial
  | call op k ih =>
    intro w₁ hr hi a w₂ hs
    obtain ⟨hr₂, hi₂, hk⟩ := hp w₁ hr hi a w₂ hs
    exact ⟨hr₂, hi₂, ih a hk⟩

/-- A loop keeps its promises when its body does, on each element and wherever `J` holds. -/
theorem World.promises_each_mem {β : Type} {J : W → Prop}
    (hJ : ∀ w w', S.rely w w' → J w → J w') {f : β → Prog Op Ans ε Unit} (bs : List β)
    (hf : ∀ b ∈ bs, ∀ w, J w → S.promises (f b) w) {w : W} (hw : J w) :
    S.promises (Prog.each f bs) w := by
  induction bs generalizing w with
  | nil => trivial
  | cons b bs ih =>
    exact World.promises_bind hJ (hf b List.mem_cons_self w hw) hw fun _ _ hw =>
      ih (fun b' hb' => hf b' (List.mem_cons_of_mem _ hb')) hw

theorem World.promises_each {β : Type} {J : W → Prop} (hJ : ∀ w w', S.rely w w' → J w → J w')
    {f : β → Prog Op Ans ε Unit} (hf : ∀ b w, J w → S.promises (f b) w) (bs : List β) {w : W}
    (hw : J w) : S.promises (Prog.each f bs) w :=
  World.promises_each_mem hJ bs (fun b _ => hf b) hw

/-- A program of operations that are harmless wherever `J` holds keeps its promises from there. -/
theorem World.promises_stable {U : Op → Prop} {J : W → Prop}
    (hJ : ∀ w w', S.rely w w' → J w → J w') {p : Prog Op Ans ε α} (hp : p.Within U)
    (hstep : ∀ op w a w', U op → S.inv w → J w → S.step op w a w' → S.rely w w' ∧ S.inv w') {w : W}
    (hw : J w) : S.promises p w := by
  induction p generalizing w with
  | ret a => trivial
  | exit e => trivial
  | call op k ih =>
    intro w₁ hr hi a w₂ hs
    have hw₁ := hJ _ _ hr hw
    obtain ⟨hr₂, hi₂⟩ := hstep op w₁ a w₂ hp.1 hi hw₁ hs
    exact ⟨hr₂, hi₂, ih a (hp.2 a) (hJ _ _ hr₂ hw₁)⟩

/-- A program of operations that are harmless wherever they are asked keeps its promises. -/
theorem World.promises_within {U : Op → Prop} {p : Prog Op Ans ε α} (hp : p.Within U)
    (hstep : ∀ op w a w', U op → S.inv w → S.step op w a w' → S.rely w w' ∧ S.inv w') {w : W} :
    S.promises p w :=
  World.promises_stable (J := fun _ => True) (fun _ _ _ _ => trivial) hp
    (fun op w a w' hop hi _ => hstep op w a w' hop hi) trivial

/-- What the others do leaves a program's promises standing. -/
theorem World.promises_rely (htrans : ∀ {a b c}, S.rely a b → S.rely b c → S.rely a c)
    {p : Prog Op Ans ε α} {w w' : W} (hrely : S.rely w w') (h : S.promises p w) :
    S.promises p w' := by
  cases p with
  | ret a => trivial
  | exit e => trivial
  | call op k => exact fun w₁ hr => h w₁ (htrans hrely hr)

/-- **Promises kept.** What the programs rely on is what a whole run does, and the invariant holds
wherever it gets, when every program keeps its promises from where it starts. -/
theorem Runs.promised (hrefl : ∀ w, S.rely w w)
    (htrans : ∀ {a b c}, S.rely a b → S.rely b c → S.rely a c)
    (henv : ∀ w w' ps, env w w' → guard (w, ps) (w', ps) → S.inv w → S.rely w w' ∧ S.inv w')
    (hcall : ∀ (w w' : W) (op : Op) (a : Ans op) (ps ps' : List (Prog Op Ans ε α)),
      step op w a w' → guard (w, ps) (w', ps') → S.step op w a w')
    (hstart : ∀ w p, starts p → S.inv w → S.promises p w)
    {c c' : Config Op Ans ε α W} (hrun : Runs step env starts guard c c') (hinv : S.inv c.1)
    (hps : ∀ p ∈ c.2, S.promises p c.1) : S.rely c.1 c'.1 ∧ S.inv c'.1 := by
  refine (Runs.invariant (J := fun w => S.rely c.1 w ∧ S.inv w) (A := S.promises) ?_ ?_ ?_ hrun
    ⟨hrefl c.1, hinv⟩ hps).1
  · intro w w' ps h hguard ⟨hr, hi⟩ hps
    obtain ⟨hrely, hinv'⟩ := henv w w' ps h hguard hi
    exact ⟨⟨htrans hr hrely, hinv'⟩, fun p hp => World.promises_rely htrans hrely (hps p hp)⟩
  · intro w p hp hJ
    exact hstart w p hp hJ.2
  · intro w w' op a k before after h hguard ⟨hr, hi⟩ hps
    obtain ⟨hrely, hinv', hmine⟩ := World.promises_call.mp (hps (.call op k) (by simp)) w (hrefl w)
      hi a w' (hcall w w' op a _ _ h hguard)
    refine ⟨⟨htrans hr hrely, hinv'⟩, hmine, fun p hp => World.promises_rely htrans hrely (hps p ?_)⟩
    simp only [List.mem_append, List.mem_cons] at hp ⊢
    tauto

/-! ## One step at a time -/

/-- The `i`-th program of a pool takes its operation. -/
theorem Runs.turn {w w' : W} {ps : List (Prog Op Ans ε α)} (i : Nat) (op : Op) (a : Ans op)
    {k : Ans op → Prog Op Ans ε α} (hp : ps[i]? = some (.call op k)) (h : step op w a w')
    (hguard : guard (w, ps) (w', ps.set i (k a))) :
    Runs step env starts guard (w, ps) (w', ps.set i (k a)) := by
  obtain ⟨hi, hget⟩ := List.getElem?_eq_some_iff.mp hp
  have hsplit : ps = ps.take i ++ .call op k :: ps.drop (i + 1) := by
    rw [← hget, List.getElem_cons_drop, List.take_append_drop]
  have hset : ps.set i (k a) = ps.take i ++ k a :: ps.drop (i + 1) :=
    List.set_eq_take_append_cons_drop.trans (if_pos hi)
  refine .single ⟨?_, hguard⟩
  rw [hset]
  nth_rewrite 1 [hsplit]
  exact .call _ _ h

/-! ## One program on its own -/

/-- A program `n` operations on, each answered by `answer`. -/
def Prog.advance (answer : (op : Op) → W → Ans op × W) :
    Nat → Prog Op Ans ε α → W → Prog Op Ans ε α × W
  | n + 1, .call op k, w => (k (answer op w).1).advance answer n (answer op w).2
  | _, p, w => (p, w)

/-- A pool in which the first program is answered `n` times. -/
theorem Runs.advance {answer : (op : Op) → W → Ans op × W}
    (hanswer : ∀ op w, step op w (answer op w).1 (answer op w).2)
    {ps : List (Prog Op Ans ε α)} (n : Nat) :
    ∀ (p : Prog Op Ans ε α) (w : W), (∀ m < n, guard
        ((p.advance answer m w).2, (p.advance answer m w).1 :: ps)
        ((p.advance answer (m + 1) w).2, (p.advance answer (m + 1) w).1 :: ps)) →
      Runs step env starts guard (w, p :: ps)
        ((p.advance answer n w).2, (p.advance answer n w).1 :: ps) := by
  induction n with
  | zero =>
    intro p w _
    cases p <;> exact .refl
  | succ n ih =>
    intro p w hguard
    cases p with
    | ret a => exact .refl
    | exit e => exact .refl
    | call op k =>
      have hfirst := hguard 0 (Nat.zero_lt_succ n)
      have hrest := ih (k (answer op w).1) (answer op w).2 fun m hm => hguard (m + 1) (by omega)
      refine .head ⟨.call [] ps (hanswer op w), ?_⟩ hrest
      simp only [Prog.advance] at hfirst
      cases hk : k (answer op w).1 <;> rw [hk] at hfirst <;> exact hfirst

/-- A worker's program answered `n` times. -/
theorem Reach.advance {main : Prog Op Ans ε α} {init : W → Prop}
    {answer : (op : Op) → W → Ans op × W}
    (hanswer : ∀ op w, step op w (answer op w).1 (answer op w).2) (n : Nat) :
    ∀ {p : Prog Op Ans ε α} {w : W}, Reach step env main init w (some p) →
      Reach step env main init (p.advance answer n w).2 (some (p.advance answer n w).1) := by
  induction n with
  | zero => exact fun {p} {w} h => by cases p <;> exact h
  | succ n ih =>
    intro p w h
    cases p with
    | ret a => exact h
    | exit e => exact h
    | call op k => exact ih (h.step (hanswer op w))

end Pool

end Interactive
