import ConstructCore.Lib.KeyChain

/-!
# Positions on a succession of chains

A sender works on one chain at a time: a `Cursor` is the chain it is on, the chain's state
and how many keys it has yielded. A `Turn` leaves the cursor, takes the next key off the
chain (with or without showing its position), starts the chain over before its first key,
or goes to another chain.

When no chain is opened twice (`Nodup`), no position is shown twice, and the key shown for
position `n` of a chain is the `n`-th key from the state the chain was started in
(`Sound.turn`, by which a whole run is `Sound`).
-/

namespace KeyChain

variable {ι K M : Type} (step : K → Option (M × K))

/-- Where a sender stands: the chain, its state, and the number of the next key. -/
@[ext] structure Cursor (ι K : Type) where
  chain : ι
  key : K
  count : Nat

/-- A key shown with its position. -/
structure Shown (ι M : Type) where
  chain : ι
  number : Nat
  key : M

/-- One move of a sender, with the key it shows, the chain it opens and the state it starts
a chain in. -/
inductive Turn : Cursor ι K → Cursor ι K → List (Shown ι M) → List ι → List (ι × K) → Prop
  | stay (c : Cursor ι K) : Turn c c [] [] []
  | skip {c : Cursor ι K} {m : M} {k : K} (hs : step c.key = some (m, k)) :
      Turn c ⟨c.chain, k, c.count + 1⟩ [] [] []
  | yield {c : Cursor ι K} {m : M} {k : K} (hs : step c.key = some (m, k)) :
      Turn c ⟨c.chain, k, c.count + 1⟩ [⟨c.chain, c.count, m⟩] [] []
  | restart {c : Cursor ι K} (k : K) (h : c.count = 0) :
      Turn c ⟨c.chain, k, 0⟩ [] [] [(c.chain, k)]
  | openChain (c : Cursor ι K) (chain : ι) (k : K) : Turn c ⟨chain, k, 0⟩ [] [chain] [(chain, k)]

/-- What holds after any number of turns from a cursor on the chain `chain₀`: `base` is the
state each chain was started in. -/
structure Sound (chain₀ : ι) (base : ι → K) (c : Cursor ι K) (shown : List (Shown ι M))
    (opened : List ι) (starts : List (ι × K)) : Prop where
  current : c.chain ∈ chain₀ :: opened
  state : stateAt step (base c.chain) c.count = some c.key
  started : (c.chain, base c.chain) ∈ starts
  known : ∀ e ∈ shown, e.chain ∈ chain₀ :: opened
  below : ∀ e ∈ shown, e.chain = c.chain → e.number < c.count
  keys : ∀ e ∈ shown, keyAt step (base e.chain) e.number = some e.key
  shownStarted : ∀ e ∈ shown, (e.chain, base e.chain) ∈ starts
  distinct : shown.Pairwise fun e e' => ¬ (e.chain = e'.chain ∧ e.number = e'.number)

variable {step}

/-- A sender at the start of its first chain. -/
theorem sound_start (chain₀ : ι) (k : K) :
    Sound (M := M) step chain₀ (fun _ => k) ⟨chain₀, k, 0⟩ [] [] [(chain₀, k)] where
  current := List.mem_cons_self
  state := rfl
  started := List.mem_singleton.mpr rfl
  known _ h := nomatch h
  below _ h := nomatch h
  keys _ h := nomatch h
  shownStarted _ h := nomatch h
  distinct := .nil

namespace Sound

variable {chain₀ : ι} {base : ι → K} {c c' : Cursor ι K} {shown : List (Shown ι M)}
  {opened : List ι} {starts : List (ι × K)}

variable (h : Sound step chain₀ base c shown opened starts)

include h

theorem skip {m : M} {k : K} (hs : step c.key = some (m, k)) :
    Sound step chain₀ base ⟨c.chain, k, c.count + 1⟩ shown opened starts :=
  { h with
    state := stateAt_succ_of_step h.state hs
    below := fun e he hchain => Nat.lt_succ_of_lt (h.below e he hchain) }

theorem yield {m : M} {k : K} (hs : step c.key = some (m, k)) :
    Sound step chain₀ base ⟨c.chain, k, c.count + 1⟩ (shown ++ [⟨c.chain, c.count, m⟩]) opened
      starts := by
  have hnew : ∀ {P : Shown ι M → Prop}, (∀ e ∈ shown, P e) → P ⟨c.chain, c.count, m⟩ →
      ∀ e ∈ shown ++ [⟨c.chain, c.count, m⟩], P e := by
    intro P hold hlast e he
    rcases List.mem_append.mp he with hmem | hmem
    · exact hold e hmem
    · rw [List.mem_singleton.mp hmem]
      exact hlast
  refine { h.skip hs with
    known := hnew h.known h.current, below := ?_, keys := hnew h.keys (keyAt_of_step h.state hs),
    shownStarted := hnew h.shownStarted h.started, distinct := ?_ }
  · refine hnew (h.skip hs).below ?_
    intro _
    exact Nat.lt_succ_self _
  · rw [List.pairwise_append]
    refine ⟨h.distinct, List.pairwise_singleton _ _, ?_⟩
    rintro e he e' he' ⟨hchain, hnumber⟩
    rw [List.mem_singleton.mp he'] at hchain hnumber
    exact absurd (h.below e he hchain) (by rw [hnumber]; exact Nat.lt_irrefl _)

variable [DecidableEq ι]

/-- Starting the current chain over, before its first key. -/
theorem restart (k : K) (hzero : c.count = 0) :
    Sound step chain₀ (Function.update base c.chain k) ⟨c.chain, k, 0⟩ shown opened
      (starts ++ [(c.chain, k)]) := by
  have hother : ∀ e ∈ shown, e.chain ≠ c.chain := by
    intro e he hchain
    have := h.below e he hchain
    omega
  have hbase : ∀ e ∈ shown, Function.update base c.chain k e.chain = base e.chain :=
    fun e he => Function.update_of_ne (hother e he) _ _
  refine ⟨h.current, ?_, ?_, h.known, ?_, ?_, ?_, h.distinct⟩
  · rw [Function.update_self]
    rfl
  · rw [Function.update_self]
    exact List.mem_append_right _ (List.mem_singleton.mpr rfl)
  · intro e he hchain
    exact absurd hchain (hother e he)
  · intro e he
    rw [hbase e he]
    exact h.keys e he
  · intro e he
    rw [hbase e he]
    exact List.mem_append_left _ (h.shownStarted e he)

/-- Going to a chain never opened before. -/
theorem openChain (chain : ι) (k : K) (hfresh : chain ∉ chain₀ :: opened) :
    Sound step chain₀ (Function.update base chain k) ⟨chain, k, 0⟩ shown (opened ++ [chain])
      (starts ++ [(chain, k)]) := by
  have hother : ∀ e ∈ shown, e.chain ≠ chain := by
    intro e he hchain
    exact hfresh (hchain ▸ h.known e he)
  have hbase : ∀ e ∈ shown, Function.update base chain k e.chain = base e.chain :=
    fun e he => Function.update_of_ne (hother e he) _ _
  refine ⟨by simp, ?_, ?_, ?_, ?_, ?_, ?_, h.distinct⟩
  · rw [Function.update_self]
    rfl
  · rw [Function.update_self]
    exact List.mem_append_right _ (List.mem_singleton.mpr rfl)
  · intro e he
    rw [← List.cons_append]
    exact List.mem_append_left _ (h.known e he)
  · intro e he hchain
    exact absurd hchain (hother e he)
  · intro e he
    rw [hbase e he]
    exact h.keys e he
  · intro e he
    rw [hbase e he]
    exact List.mem_append_left _ (h.shownStarted e he)

/-- One turn keeps a run sound, as long as no chain is opened twice. -/
theorem turn {shown' : List (Shown ι M)} {opened' : List ι} {starts' : List (ι × K)}
    (ht : Turn step c c' shown' opened' starts') (hnodup : (chain₀ :: (opened ++ opened')).Nodup) :
    ∃ base', Sound step chain₀ base' c' (shown ++ shown') (opened ++ opened')
      (starts ++ starts') := by
  cases ht with
  | stay =>
    simp only [List.append_nil]
    exact ⟨base, h⟩
  | skip hs =>
    simp only [List.append_nil]
    exact ⟨base, h.skip hs⟩
  | yield hs =>
    simp only [List.append_nil]
    exact ⟨base, h.yield hs⟩
  | restart k hzero =>
    simp only [List.append_nil]
    exact ⟨_, h.restart k hzero⟩
  | openChain chain k =>
    rw [← List.cons_append, List.nodup_append] at hnodup
    simp only [List.append_nil]
    refine ⟨_, h.openChain chain k ?_⟩
    intro hmem
    exact hnodup.2.2 chain hmem chain (List.mem_singleton.mpr rfl) rfl

end Sound

end KeyChain
