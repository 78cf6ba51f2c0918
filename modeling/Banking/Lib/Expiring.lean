import Mathlib.Data.List.Basic

/-! # Chains with finality and expiring transactions

A chain of timestamped blocks, newest first: those that are irreversible, and those built on them so
far, which may yet be given up for others. A block takes no transaction past its expiry and the
times of blocks do not go back, so a transaction that an irreversible block is later than and none
has is dead: no chain that goes on from there has it (`Chain.Dead.not_mined`). -/

namespace Expiring

variable {T : Type}

/-- A block. -/
structure Block (T : Type) where
  time : Int
  txs : List T
deriving DecidableEq, Repr

/-- A chain, newest block first. -/
structure Chain (T : Type) where
  tip : List (Block T)
  solid : List (Block T)
deriving DecidableEq, Repr

/-- All its blocks. -/
def Chain.blocks (c : Chain T) : List (Block T) := c.tip ++ c.solid

/-- All its transactions. -/
def Chain.mined (c : Chain T) : List T := c.blocks.flatMap (·.txs)

/-- What a chain goes by. -/
structure Chain.Valid (expiry : T → Int) (c : Chain T) : Prop where
  ordered : c.blocks.Pairwise fun newer older => older.time ≤ newer.time
  unexpired : ∀ b ∈ c.blocks, ∀ t ∈ b.txs, b.time ≤ expiry t
  once : c.mined.Nodup

/-- `c'` goes on from what is irreversible in `c`. -/
def Chain.Grows (c c' : Chain T) : Prop := c.solid <:+ c'.solid

/-- A transaction that an irreversible block is later than, and none has. -/
structure Chain.Dead (expiry : T → Int) (c : Chain T) (t : T) : Prop where
  late : ∃ b ∈ c.solid, expiry t < b.time
  absent : ∀ b ∈ c.solid, t ∉ b.txs

section Chain

variable {expiry : T → Int} {c c' c'' : Chain T} {b b' : Block T} {t : T}

theorem Chain.mem_mined : t ∈ c.mined ↔ ∃ b ∈ c.blocks, t ∈ b.txs := List.mem_flatMap

theorem Chain.Grows.refl (c : Chain T) : c.Grows c := List.suffix_refl _

theorem Chain.Grows.trans (h : c.Grows c') (h' : c'.Grows c'') : c.Grows c'' :=
  List.IsSuffix.trans h h'

theorem Chain.Grows.mem (h : c.Grows c') (hb : b ∈ c.solid) : b ∈ c'.solid := h.subset hb

/-- A block of a valid chain that is not one of `c`'s irreversible ones is no earlier than they
are. -/
theorem Chain.Grows.later (h : c.Grows c') (hvalid : c'.Valid expiry) (hb : b ∈ c.solid)
    (hb' : b' ∈ c'.blocks) : b' ∈ c.solid ∨ b.time ≤ b'.time := by
  obtain ⟨newer, hnewer⟩ := h
  have hordered := hvalid.ordered
  rw [Chain.blocks, ← hnewer, ← List.append_assoc] at hordered hb'
  rcases List.mem_append.mp hb' with hb' | hb'
  · exact .inr ((List.pairwise_append.mp hordered).2.2 b' hb' b hb)
  · exact .inl hb'

/-- **The dead stay dead.** -/
theorem Chain.Dead.grows (hdead : c.Dead expiry t) (h : c.Grows c') (hvalid : c'.Valid expiry) :
    c'.Dead expiry t := by
  obtain ⟨⟨b, hb, hlate⟩, habsent⟩ := hdead
  refine ⟨⟨b, h.mem hb, hlate⟩, fun b' hb' ht => ?_⟩
  have hmem : b' ∈ c'.blocks := List.mem_append_right _ hb'
  rcases h.later hvalid hb hmem with hold | hle
  · exact habsent b' hold ht
  · have := hvalid.unexpired b' hmem t ht
    omega

/-- **No chain that goes on has a dead transaction.** -/
theorem Chain.Dead.not_mined (hdead : c.Dead expiry t) (h : c.Grows c') (hvalid : c'.Valid expiry) :
    t ∉ c'.mined := by
  obtain ⟨⟨b, hb, hlate⟩, habsent⟩ := hdead
  intro ht
  obtain ⟨b', hb', ht'⟩ := Chain.mem_mined.mp ht
  rcases h.later hvalid hb hb' with hold | hle
  · exact habsent b' hold ht'
  · have := hvalid.unexpired b' hb' t ht'
    omega

end Chain

end Expiring
