import ConstructCore.Ratchet.Pq

/-!
# What every reachable PQ state looks like

`PqRatchet.WellFormed` collects the facts about the PQ half that hold in every state the
ratchet reaches: at most two epochs keep chains, in order and none past the current one;
only the current epoch sends; key material has its length; an exchange in flight is for the
next epoch and belongs to the initiator, an answer in flight is for a later epoch and
belongs to the responder. Every operation on the PQ half keeps it, whatever its outcome.

The lengths are those the primitives promise (`Crypto.Sized`).
-/

namespace ConstructCore

open Op

/-- Both chain keys have their length. -/
structure PqEpochChains.KeysSized (c : PqEpochChains) : Prop where
  recv : c.recv.key.length = 32
  send : ∀ chain, c.send = some chain → chain.key.length = 32

namespace PqRatchet

variable {C : Crypto}

/-! ## The list of epochs -/

def chainsOf (l : List PqEpochChains) (epoch : UInt32) : Option PqEpochChains :=
  l.find? fun c => c.epoch == epoch

/-- The epochs stand in order. -/
abbrev Ordered (l : List PqEpochChains) : Prop := l.Pairwise fun a b => a.epoch < b.epoch

variable {l : List PqEpochChains} {epoch : UInt32} {c chains : PqEpochChains}
  {f : PqEpochChains → PqEpochChains} {pq : PqRatchet} {chain : PqChain} {t : PqChain × PqSkipped}

theorem epoch_of_chainsOf (h : chainsOf l epoch = some c) : c ∈ l ∧ c.epoch = epoch := by
  unfold chainsOf at h
  exact ⟨List.mem_of_find?_eq_some h, by simpa using List.find?_some h⟩

theorem chainsOf_eq_some (hl : Ordered l) :
    chainsOf l epoch = some c ↔ c ∈ l ∧ c.epoch = epoch := by
  refine ⟨epoch_of_chainsOf, ?_⟩
  rintro ⟨hmem, rfl⟩
  unfold chainsOf
  induction l with
  | nil => cases hmem
  | cons a l ih =>
    have hl := List.pairwise_cons.mp hl
    rcases List.mem_cons.mp hmem with rfl | hin
    · simp
    · have hne : a.epoch ≠ c.epoch := UInt32.ne_of_lt (hl.1 c hin)
      rw [List.find?_cons_of_neg (by simpa using hne)]
      exact ih hl.2 hin

theorem chainsOf_modifyEpoch (hf : ∀ c, (f c).epoch = c.epoch) (l : List PqEpochChains)
    (epoch epoch' : UInt32) :
    chainsOf (modifyEpoch epoch f l) epoch' =
      if epoch' = epoch then (chainsOf l epoch).map f else chainsOf l epoch' := by
  unfold chainsOf
  induction l with
  | nil => simp [modifyEpoch]
  | cons a l ih =>
    unfold modifyEpoch
    by_cases ha : a.epoch = epoch
    · rw [if_pos ha]
      by_cases he : epoch' = epoch
      · subst he
        simp [ha, hf]
      · have hne : ¬ epoch = epoch' := fun h => he h.symm
        simp [ha, hf, he, hne]
    · rw [if_neg ha, List.find?_cons, List.find?_cons, List.find?_cons]
      by_cases he : epoch' = epoch
      · subst he
        rw [if_pos rfl] at ih ⊢
        simp only [beq_eq_false_iff_ne.mpr ha]
        exact ih
      · rw [if_neg he] at ih ⊢
        rw [ih]

theorem mem_modifyEpoch (h : c ∈ modifyEpoch epoch f l) :
    c ∈ l ∨ ∃ d ∈ l, d.epoch = epoch ∧ c = f d := by
  induction l with
  | nil => cases h
  | cons a l ih =>
    unfold modifyEpoch at h
    split at h
    · rename_i ha
      rcases List.mem_cons.mp h with rfl | hin
      · exact .inr ⟨a, List.mem_cons_self, ha, rfl⟩
      · exact .inl (List.mem_cons_of_mem _ hin)
    · rcases List.mem_cons.mp h with rfl | hin
      · exact .inl List.mem_cons_self
      · rcases ih hin with hmem | ⟨d, hd, hde, hc⟩
        · exact .inl (List.mem_cons_of_mem _ hmem)
        · exact .inr ⟨d, List.mem_cons_of_mem _ hd, hde, hc⟩

theorem map_epoch_modifyEpoch (hf : ∀ c, (f c).epoch = c.epoch) (epoch : UInt32)
    (l : List PqEpochChains) :
    (modifyEpoch epoch f l).map PqEpochChains.epoch = l.map PqEpochChains.epoch := by
  induction l with
  | nil => rfl
  | cons a l ih =>
    unfold modifyEpoch
    split
    · simp [hf]
    · simp [ih]

theorem ordered_iff (l : List PqEpochChains) :
    Ordered l ↔ (l.map PqEpochChains.epoch).Pairwise (· < ·) := by
  rw [List.pairwise_map]

def retireSend (c : PqEpochChains) : PqEpochChains := { c with send := none }

/-- The epochs `insert_pq_epoch_chains` keeps beside the new one: the newest other. -/
def kept (l : List PqEpochChains) (epoch : UInt32) : List PqEpochChains :=
  let others := (l.filter fun c => c.epoch != epoch).map retireSend
  others.drop (others.length - 1)

/-- With the retention bound of two and no epoch newer than the inserted one. -/
theorem insertPqEpochChains_eq (hl : Ordered l) (hle : ∀ c ∈ l, c.epoch ≤ chains.epoch) :
    insertPqEpochChains l chains = kept l chains.epoch ++ [chains] := by
  have herase : (l.eraseP fun c => c.epoch == chains.epoch) =
      l.filter fun c => c.epoch != chains.epoch := by
    clear hle
    induction l with
    | nil => rfl
    | cons a l ih =>
      have hl := List.pairwise_cons.mp hl
      by_cases ha : a.epoch = chains.epoch
      · rw [List.eraseP_cons_of_pos (by simpa using ha),
          List.filter_cons_of_neg (by simpa using ha), eq_comm, List.filter_eq_self]
        intro c hc
        have := hl.1 c hc
        rw [ha] at this
        simpa using (UInt32.ne_of_lt this).symm
      · rw [List.eraseP_cons_of_neg (by simpa using ha),
          List.filter_cons_of_pos (by simpa using ha), ih hl.2]
  have hlt : ∀ c ∈ l.filter (fun c => c.epoch != chains.epoch), c.epoch < chains.epoch := by
    intro c hc
    obtain ⟨hmem, hne⟩ := List.mem_filter.mp hc
    exact UInt32.lt_of_le_of_ne (hle c hmem) (by simpa using hne)
  have hmap : ((l.filter fun c => c.epoch != chains.epoch).map fun c =>
      if c.epoch < chains.epoch then { c with send := none } else c) =
      (l.filter fun c => c.epoch != chains.epoch).map retireSend := by
    refine List.map_congr_left ?_
    intro c hc
    rw [if_pos (hlt c hc)]
    rfl
  -- what remains is in order already, so the sort does nothing
  have hsorted : (((l.filter fun c => c.epoch != chains.epoch).map retireSend) ++
      [chains]).Pairwise fun a b => a.epoch ≤ b.epoch := by
    rw [List.pairwise_append]
    refine ⟨?_, List.pairwise_singleton _ _, ?_⟩
    · rw [List.pairwise_map]
      exact (hl.filter _).imp fun h => UInt32.le_of_lt h
    · intro c hc d hd
      rw [List.mem_singleton] at hd
      subst hd
      obtain ⟨c', hc', rfl⟩ := List.mem_map.mp hc
      exact UInt32.le_of_lt (hlt c' hc')
  unfold insertPqEpochChains kept
  dsimp only
  rw [herase, hmap, hsorted.insertionSort_eq, List.length_append, List.length_singleton]
  rw [List.drop_append_of_le_length (by unfold pqChainRetention; omega)]
  rfl

theorem mem_kept (h : c ∈ kept l epoch) : ∃ d ∈ l, d.epoch ≠ epoch ∧ c = retireSend d := by
  obtain ⟨d, hd, rfl⟩ := List.mem_map.mp (List.mem_of_mem_drop h)
  obtain ⟨hmem, hne⟩ := List.mem_filter.mp hd
  exact ⟨d, hmem, by simpa using hne, rfl⟩

theorem length_kept_le (l : List PqEpochChains) (epoch : UInt32) : (kept l epoch).length ≤ 1 := by
  unfold kept
  dsimp only
  rw [List.length_drop]
  omega

/-- The inserted epoch is found, and an epoch found beside it has only stopped sending. -/
theorem chainsOf_insert (hl : Ordered l) (hle : ∀ c ∈ l, c.epoch ≤ chains.epoch) :
    Ordered (insertPqEpochChains l chains) ∧
      chainsOf (insertPqEpochChains l chains) chains.epoch = some chains ∧
      ∀ epoch c, epoch ≠ chains.epoch →
        chainsOf (insertPqEpochChains l chains) epoch = some c →
        ∃ d, chainsOf l epoch = some d ∧ c = retireSend d := by
  rw [insertPqEpochChains_eq hl hle]
  have hordered : Ordered (kept l chains.epoch ++ [chains]) := by
    refine List.pairwise_append.mpr ⟨?_, List.pairwise_singleton _ _, ?_⟩
    · unfold kept
      refine List.Pairwise.sublist (List.drop_sublist _ _) ?_
      rw [List.pairwise_map]
      exact hl.filter _
    · intro c hc d hd
      rw [List.mem_singleton] at hd
      subst hd
      obtain ⟨d', hd', hne, rfl⟩ := mem_kept hc
      exact UInt32.lt_of_le_of_ne (hle d' hd') hne
  refine ⟨hordered, (chainsOf_eq_some hordered).mpr ⟨by simp, rfl⟩, ?_⟩
  intro epoch c hne hc
  obtain ⟨hmem, hepoch⟩ := epoch_of_chainsOf hc
  rcases List.mem_append.mp hmem with hkept | hnew
  · obtain ⟨d, hd, -, rfl⟩ := mem_kept hkept
    exact ⟨d, (chainsOf_eq_some hl).mpr ⟨hd, hepoch⟩, rfl⟩
  · rw [List.mem_singleton] at hnew
    subst hnew
    exact absurd hepoch.symm hne

/-! ## Well-formed states -/

/-- What holds of the PQ half in every state the ratchet reaches. -/
structure WellFormed (pq : PqRatchet) : Prop where
  retention : pq.pqChains.length ≤ pqChainRetention
  ordered : Ordered pq.pqChains
  epochs : ∀ c ∈ pq.pqChains, 0 < c.epoch ∧ c.epoch ≤ pq.currentPqEpoch
  keys : ∀ c ∈ pq.pqChains, c.KeysSized
  onlyCurrentSends : ∀ c ∈ pq.pqChains, c.send.isSome → c.epoch = pq.currentPqEpoch
  currentSends : 0 < pq.currentPqEpoch →
    ∃ c ∈ pq.pqChains, c.epoch = pq.currentPqEpoch ∧ c.send.isSome
  skippedBound : pq.pqSkippedKeys.size ≤ Config.global.maxSkippedMessages
  skippedKeys : ∀ k key, pq.pqSkippedKeys.get? k = some key → key.length = 32
  exchange : ∀ ex, pq.pendingPqExchange = some ex → pq.isPqInitiator = true ∧
    ex.epoch = pq.currentPqEpoch.satAdd 1 ∧ ex.keypair.publicKey.length = mlkem768PkSize ∧
    ex.keypair.secretKey.length = mlkem768SkSize
  ciphertext : ∀ p, pq.pendingPqCiphertext = some p → pq.isPqInitiator = false ∧
    pq.currentPqEpoch < p.epoch ∧ p.ciphertext.length = mlkem768CtSize ∧
    p.chains.epoch = p.epoch ∧ p.chains.KeysSized ∧ ∃ key, p.chains.send = some ⟨0, key⟩

theorem wellFormed_initial (isPqInitiator : Bool) (now : Nat) :
    WellFormed (initial isPqInitiator now) where
  retention := Nat.zero_le _
  ordered := .nil
  epochs _ h := nomatch h
  keys _ h := nomatch h
  onlyCurrentSends _ h := nomatch h
  currentSends h := absurd h (UInt32.lt_irrefl 0)
  skippedBound := Nat.zero_le _
  skippedKeys k key h := by
    rw [show (initial isPqInitiator now).pqSkippedKeys = .empty from rfl,
      AgedStore.get?_empty] at h
    cases h
  exchange _ h := nomatch h
  ciphertext _ h := nomatch h

theorem WellFormed.abandon (h : WellFormed pq) (now : Nat) :
    WellFormed (pq.abandonUnansweredPqExchange now) := by
  unfold abandonUnansweredPqExchange
  dsimp only
  split
  · exact { h with exchange := fun _ he => nomatch he }
  · exact h

theorem WellFormed.start (hC : C.Sized) (h : WellFormed pq) (hrole : pq.isPqInitiator = true)
    (env : Env) : WellFormed (pq.startPqExchange C env) := by
  unfold startPqExchange
  split
  · exact h
  · refine { h with exchange := ?_ }
    rintro ex ⟨⟩
    exact ⟨hrole, rfl, hC.publicKey _, hC.secretKey _⟩

theorem OtherExchange.isPqInitiator (h : OtherExchange pq pq') :
    pq'.isPqInitiator = pq.isPqInitiator := by
  obtain ⟨_, _, _, rfl⟩ := h
  rfl

/-- Only the initiator of a PQ-ratchet suite gets past the guard of the two starters. -/
theorem isPqInitiator_of_guard {suite : SuiteID}
    (h : ¬ (!suite.isPqRatchet || !pq.isPqInitiator) = true) : pq.isPqInitiator = true := by
  cases hi : pq.isPqInitiator with
  | true => rfl
  | false => simp [hi] at h

theorem WellFormed.maybeAdvance (hC : C.Sized) (h : WellFormed pq) (suite : SuiteID) (env : Env) :
    WellFormed (pq.maybeAdvancePqRatchet C suite env) := by
  unfold maybeAdvancePqRatchet
  split
  · exact h
  · rename_i hguard
    have hrole := (abandon_otherExchange pq env.now).isPqInitiator.trans (isPqInitiator_of_guard hguard)
    have habandon := h.abandon env.now
    have hturn : WellFormed { pq.abandonUnansweredPqExchange env.now with
        pqTurnsSinceMix := (pq.abandonUnansweredPqExchange env.now).pqTurnsSinceMix.satAdd 1 } :=
      { habandon with }
    dsimp only
    split
    · exact hturn
    · exact hturn.start hC hrole env

theorem WellFormed.maybeStartByAge (hC : C.Sized) (h : WellFormed pq) (suite : SuiteID) (env : Env) :
    WellFormed (pq.maybeStartPqExchangeByAge C suite env) := by
  unfold maybeStartPqExchangeByAge
  split
  · exact h
  · rename_i hguard
    have hrole := (abandon_otherExchange pq env.now).isPqInitiator.trans (isPqInitiator_of_guard hguard)
    dsimp only
    split
    · exact h.abandon env.now
    · exact (h.abandon env.now).start hC hrole env

theorem WellFormed.evict (h : WellFormed pq) (now : Nat) (maxAge : Int) :
    WellFormed { pq with pqSkippedKeys := pq.pqSkippedKeys.evict now maxAge } :=
  { h with
    skippedBound := Nat.le_trans (AgedStore.size_evict_le _ _ _) h.skippedBound
    skippedKeys := fun k key hk => h.skippedKeys k key (AgedStore.get?_of_get?_evict hk) }

/-! ## Epochs completed -/

theorem pqEpochChains_ok (hC : C.Sized) {secret : Bytes} {role : Bool}
    (h : pqEpochChains C secret epoch role = .ok chains) :
    chains.epoch = epoch ∧ chains.KeysSized ∧ ∃ key, chains.send = some ⟨0, key⟩ := by
  unfold pqEpochChains at h
  split at h
  · cases h
  · rename_i out hout
    have hlen := hC.hkdf _ _ _ _ _ hout
    have htake : (out.take 32).length = 32 := by rw [List.length_take]; omega
    have hdrop : (out.drop 32).length = 32 := by rw [List.length_drop]; omega
    dsimp only at h
    split at h
    · cases h
      exact ⟨rfl, ⟨hdrop, by rintro _ ⟨⟩; exact htake⟩, _, rfl⟩
    · cases h
      exact ⟨rfl, ⟨htake, by rintro _ ⟨⟩; exact hdrop⟩, _, rfl⟩

theorem WellFormed.insert (h : WellFormed pq) (hpos : 0 < chains.epoch)
    (hle : pq.currentPqEpoch ≤ chains.epoch) (hkeys : chains.KeysSized)
    (hsend : ∃ key, chains.send = some ⟨0, key⟩) (pendingSince since : Nat) :
    WellFormed { pq with
      currentPqEpoch := chains.epoch
      pqChains := insertPqEpochChains pq.pqChains chains
      pendingPqExchange := none
      pendingPqCiphertext := none
      pqPendingSince := pendingSince
      pqEpochSince := since } := by
  have hbelow : ∀ c ∈ pq.pqChains, c.epoch ≤ chains.epoch := fun c hc =>
    UInt32.le_trans (h.epochs c hc).2 hle
  have hmem : ∀ c ∈ insertPqEpochChains pq.pqChains chains,
      (∃ d ∈ pq.pqChains, c = retireSend d) ∨ c = chains := by
    intro c hc
    rw [insertPqEpochChains_eq h.ordered hbelow] at hc
    rcases List.mem_append.mp hc with hkept | hnew
    · obtain ⟨d, hd, -, rfl⟩ := mem_kept hkept
      exact .inl ⟨d, hd, rfl⟩
    · exact .inr (List.mem_singleton.mp hnew)
  refine { h with
    retention := ?_, ordered := (chainsOf_insert h.ordered hbelow).1, epochs := ?_,
    keys := ?_, onlyCurrentSends := ?_, currentSends := ?_,
    exchange := fun _ he => (nomatch he), ciphertext := fun _ he => (nomatch he) }
  · show (insertPqEpochChains pq.pqChains chains).length ≤ pqChainRetention
    rw [insertPqEpochChains_eq h.ordered hbelow, List.length_append, List.length_singleton]
    have := length_kept_le pq.pqChains chains.epoch
    unfold pqChainRetention
    omega
  · intro c hc
    rcases hmem c hc with ⟨d, hd, rfl⟩ | rfl
    · exact ⟨(h.epochs d hd).1, hbelow d hd⟩
    · exact ⟨hpos, UInt32.le_refl _⟩
  · intro c hc
    rcases hmem c hc with ⟨d, hd, rfl⟩ | rfl
    · exact ⟨(h.keys d hd).recv, fun _ he => nomatch he⟩
    · exact hkeys
  · intro c hc hs
    rcases hmem c hc with ⟨d, hd, rfl⟩ | rfl
    · cases hs
    · rfl
  · intro _
    obtain ⟨key, hsend⟩ := hsend
    refine ⟨chains, (epoch_of_chainsOf (chainsOf_insert h.ordered hbelow).2.1).1, rfl, ?_⟩
    rw [hsend]
    rfl

theorem promotePending_isPqInitiator (pq : PqRatchet) (epoch : UInt32) (now : Nat) :
    (pq.promotePending epoch now).isPqInitiator = pq.isPqInitiator := by
  unfold promotePending
  split
  · rfl
  · split
    · rfl
    · rfl

/-- Promotion: the responder's provisional epoch is ahead of its current one. -/
theorem WellFormed.promotePending (h : WellFormed pq) (epoch : UInt32) (now : Nat) :
    WellFormed (pq.promotePending epoch now) := by
  unfold PqRatchet.promotePending
  cases hp : pq.pendingPqCiphertext with
  | none => exact h
  | some p =>
    obtain ⟨hrole, hahead, -, hepoch, hkeys, hsend⟩ := h.ciphertext p hp
    have hnone : pq.pendingPqExchange = none := by
      cases hex : pq.pendingPqExchange with
      | none => rfl
      | some ex => exact absurd (hrole.symm.trans (h.exchange ex hex).1) (by decide)
    have hmax : max pq.currentPqEpoch p.epoch = p.chains.epoch := by
      rw [hepoch]
      exact if_pos (UInt32.le_of_lt hahead)
    dsimp only
    split
    · rw [hnone, hmax]
      refine h.insert ?_ ?_ hkeys hsend pq.pqPendingSince now
      · rw [hepoch]
        exact UInt32.lt_of_le_of_lt (UInt32.zero_le) hahead
      · rw [hepoch]
        exact UInt32.le_of_lt hahead
    · exact h

theorem WellFormed.ingestPublicKey (hC : C.Sized) (h : WellFormed pq) (env : Env) (epoch : UInt32)
    (key : Bytes) :
    WellFormed (pq.ingestPublicKey C env epoch key) := by
  unfold PqRatchet.ingestPublicKey
  split
  · exact h
  · rename_i hrole
    split
    · exact h
    · rename_i hepoch
      dsimp only
      split
      · exact h
      · split
        · exact h
        · rename_i enc henc
          split
          · exact h
          · rename_i chains hchains
            obtain ⟨hce, hkeys, hsend⟩ := pqEpochChains_ok hC hchains
            refine { h with ciphertext := ?_ }
            rintro p ⟨⟩
            refine ⟨by simpa using hrole, UInt32.not_le.mp hepoch, ?_, hce, hkeys, hsend⟩
            unfold Crypto.mlkem768Encapsulate at henc
            split at henc
            · cases henc
            · split at henc
              · rename_i enc' hout
                cases henc
                exact hC.ciphertext _ _ _ hout
              · cases henc

/-- Completion: the exchange in flight is for the epoch after the current one. -/
theorem WellFormed.ingestCiphertext (hC : C.Sized) (h : WellFormed pq) (now : Nat) (epoch : UInt32)
    (ekHash : Vector UInt8 8) (ct : Bytes) :
    WellFormed (pq.ingestCiphertext C now epoch ekHash ct) := by
  unfold PqRatchet.ingestCiphertext
  cases hp : pq.pendingPqExchange with
  | none => exact h
  | some ex =>
    obtain ⟨hrole, hexEpoch, -, -⟩ := h.exchange ex hp
    have hnone : pq.pendingPqCiphertext = none := by
      cases hct : pq.pendingPqCiphertext with
      | none => rfl
      | some p => exact absurd (hrole.symm.trans (h.ciphertext p hct).1) (by decide)
    dsimp only
    split
    · exact h
    · rename_i hmatch
      split
      · exact h
      · split
        · exact h
        · rename_i chains hchains
          obtain ⟨rfl, hkeys, hsend⟩ := pqEpochChains_ok hC hchains
          have hnext : chains.epoch = pq.currentPqEpoch.satAdd 1 := by
            rw [← hexEpoch]
            exact (Decidable.not_not.mp fun hne => hmatch (.inl hne)).symm
          rw [hnone]
          refine h.insert ?_ ?_ hkeys hsend 0 now
          · rw [hnext]
            exact UInt32.satAdd_one_pos _
          · rw [hnext]
            exact UInt32.le_satAdd_one _

theorem WellFormed.commitPqPostDecrypt (hC : C.Sized) (h : WellFormed pq) (suite : SuiteID)
    (env : Env) (m : EncryptedRatchetMessage) :
    WellFormed (pq.commitPqPostDecrypt C suite env m) := by
  have hpromote := h.promotePending m.pqMessageEpoch env.now
  unfold PqRatchet.commitPqPostDecrypt
  split
  · exact h
  · dsimp only
    cases m.pqRatchetField with
    | none => exact hpromote
    | some field =>
      cases field with
      | publicKey epoch key => exact hpromote.ingestPublicKey hC env epoch key
      | ciphertext epoch ekHash ct => exact hpromote.ingestCiphertext hC env.now epoch ekHash ct

/-! ## Message keys -/

theorem pqChainStep_ok (hC : C.Sized) {next : PqChain} {key : Bytes}
    (h : pqChainStep C chain = .ok (key, next)) :
    key.length = 32 ∧ next.key.length = 32 := by
  unfold pqChainStep at h
  split at h
  · cases h
  · rename_i out hout
    have hlen := hC.hkdf _ _ _ _ _ hout
    split at h
    · cases h
    · cases h
      refine ⟨?_, ?_⟩
      · rw [List.length_drop]
        omega
      · rw [List.length_take]
        omega

/-- Replacing one epoch's chain, in either direction, by one of the right length. -/
theorem WellFormed.modifyEpoch (h : WellFormed pq) (epoch : UInt32)
    (hf : ∀ c, (f c).epoch = c.epoch) (hkeys : ∀ c ∈ pq.pqChains, c.epoch = epoch → (f c).KeysSized)
    (hsend : ∀ c ∈ pq.pqChains, c.epoch = epoch → (f c).send.isSome = c.send.isSome) :
    WellFormed { pq with pqChains := PqRatchet.modifyEpoch epoch f pq.pqChains } := by
  have hepochs := map_epoch_modifyEpoch hf epoch pq.pqChains
  refine { h with
    retention := ?_, ordered := ?_, epochs := ?_, keys := ?_, onlyCurrentSends := ?_,
    currentSends := ?_ }
  · have hlen := congrArg List.length hepochs
    rw [List.length_map, List.length_map] at hlen
    exact hlen ▸ h.retention
  · exact (ordered_iff _).mpr (hepochs ▸ (ordered_iff _).mp h.ordered)
  · intro c hc
    rcases mem_modifyEpoch hc with hmem | ⟨d, hd, -, rfl⟩
    · exact h.epochs c hmem
    · rw [hf]
      exact h.epochs d hd
  · intro c hc
    rcases mem_modifyEpoch hc with hmem | ⟨d, hd, hde, rfl⟩
    · exact h.keys c hmem
    · exact hkeys d hd hde
  · intro c hc hs
    rcases mem_modifyEpoch hc with hmem | ⟨d, hd, hde, rfl⟩
    · exact h.onlyCurrentSends c hmem hs
    · rw [hf]
      exact h.onlyCurrentSends d hd (hsend d hd hde ▸ hs)
  · intro hpos
    obtain ⟨c, hmem, hcur, hs⟩ := h.currentSends hpos
    have hfound := (chainsOf_eq_some h.ordered).mpr ⟨hmem, rfl⟩
    by_cases he : c.epoch = epoch
    · have := chainsOf_modifyEpoch hf pq.pqChains epoch c.epoch
      rw [if_pos he, ← he, hfound] at this
      refine ⟨f c, (epoch_of_chainsOf (he ▸ this)).1, (hf c).trans hcur, ?_⟩
      rw [hsend c hmem he]
      exact hs
    · have := chainsOf_modifyEpoch hf pq.pqChains epoch c.epoch
      rw [if_neg he, hfound] at this
      exact ⟨c, (epoch_of_chainsOf this).1, hcur, hs⟩

theorem pqSendKey_wellFormed (hC : C.Sized) (suite : SuiteID) (h : WellFormed pq) :
    Ensures (pqSendKey C suite) pq (fun _ pq' => WellFormed pq') (fun _ pq' => WellFormed pq') := by
  simp only [pqSendKey, ensures_bind, ensures_get, ensures_ite, ensures_pure]
  refine ⟨fun _ => h, fun _ => ?_⟩
  cases hfind : (pq.pqChains.find? fun c => c.epoch == pq.currentPqEpoch).bind fun c => c.send with
  | none =>
    simp only [ensures_throw]
    exact h
  | some chain =>
    obtain ⟨c, hc, hsend⟩ := Option.bind_eq_some_iff.mp hfind
    obtain ⟨hmem, hepoch⟩ := epoch_of_chainsOf hc
    simp only [ensures_bind, ensures_ofExcept, ensures_set, ensures_pure]
    refine ⟨?_, fun _ _ => h⟩
    rintro ⟨key, next⟩ hstep
    refine h.modifyEpoch _ (fun _ => rfl) ?_ ?_
    · intro d hd hde
      refine ⟨(h.keys d hd).recv, ?_⟩
      rintro _ ⟨⟩
      exact (pqChainStep_ok hC hstep).2
    · intro d hd hde
      have hdc : d = c := by
        have := (chainsOf_eq_some h.ordered).mpr ⟨hd, hde⟩
        rw [show chainsOf pq.pqChains pq.currentPqEpoch = some c from hc] at this
        exact (Option.some.inj this).symm
      rw [hdc, hsend]
      rfl

/-- The chain and the store the receive loop works on. -/
structure Sized (t : PqChain × PqSkipped) : Prop where
  chain : t.1.key.length = 32
  bound : t.2.size ≤ Config.global.maxSkippedMessages
  keys : ∀ k key, t.2.get? k = some key → key.length = 32

theorem advancePqChain_sized (hC : C.Sized) (now : Nat) (epoch : UInt32) (n : Nat) (h : Sized t) :
    Ensures (advancePqChain C now epoch n) t (fun _ t' => Sized t') (fun _ t' => Sized t') := by
  induction n generalizing t with
  | zero =>
    simp only [advancePqChain, ensures_bind, ensures_get, ensures_ofExcept, ensures_set,
      ensures_pure]
    refine ⟨?_, fun _ _ => h⟩
    rintro ⟨key, next⟩ hstep
    exact ⟨(pqChainStep_ok hC hstep).2, h.bound, h.keys⟩
  | succ n ih =>
    simp only [advancePqChain, ensures_bind, ensures_get, ensures_ofExcept, ensures_set,
      ensures_ite, ensures_throw]
    refine ⟨?_, fun _ _ => h⟩
    rintro ⟨key, next⟩ hstep
    obtain ⟨hkey, hnext⟩ := pqChainStep_ok hC hstep
    refine ⟨fun _ => ⟨hnext, h.bound, h.keys⟩, fun hroom => ih ⟨hnext, ?_, ?_⟩⟩
    · exact Nat.le_trans (AgedStore.size_insert_le _ _ _ _) (by omega)
    · intro k key' hk
      rw [AgedStore.get?_insert] at hk
      split at hk
      · obtain rfl := Option.some.inj hk
        exact hkey
      · exact h.keys k key' hk

theorem recvChain?_sized (h : WellFormed pq) (hc : pq.recvChain? epoch = some chain) :
    chain.key.length = 32 := by
  unfold recvChain? at hc
  split at hc
  · rename_i c hfind
    obtain rfl := Option.some.inj hc
    exact (h.keys c (epoch_of_chainsOf hfind).1).recv
  · obtain ⟨p, hp, rfl⟩ := Option.map_eq_some_iff.mp hc
    obtain ⟨hpend, -⟩ := Option.filter_eq_some_iff.mp hp
    exact (h.ciphertext p hpend).2.2.2.2.1.recv

theorem WellFormed.setRecvChain (h : WellFormed pq) (epoch : UInt32) (ht : Sized t) :
    WellFormed { pq.setRecvChain epoch t.1 with pqSkippedKeys := t.2 } := by
  have hset : WellFormed (pq.setRecvChain epoch t.1) := by
    unfold PqRatchet.setRecvChain
    split
    · refine h.modifyEpoch _ (fun _ => rfl) ?_ fun _ _ _ => rfl
      intro c hc _
      exact ⟨ht.chain, (h.keys c hc).send⟩
    · refine { h with ciphertext := ?_ }
      intro p hp
      obtain ⟨q, hq, rfl⟩ := Option.map_eq_some_iff.mp hp
      obtain ⟨hrole, hahead, hct, hepoch, hkeys, hsend⟩ := h.ciphertext q hq
      exact ⟨hrole, hahead, hct, hepoch, ⟨ht.chain, hkeys.send⟩, hsend⟩
  exact { hset with skippedBound := ht.bound, skippedKeys := ht.keys }

theorem pqReceiveKey_wellFormed (hC : C.Sized) (suite : SuiteID) (now : Nat) (epoch index : UInt32)
    (h : WellFormed pq) :
    Ensures (pqReceiveKey C suite now epoch index) pq (fun _ pq' => WellFormed pq')
      (fun _ pq' => WellFormed pq') := by
  refine pqReceiveKey_rule h ?_ fun chain n hchain => ?_
  · exact { h with
      skippedBound := Nat.le_trans (AgedStore.size_remove_le _ _) h.skippedBound
      skippedKeys := fun k key hk => h.skippedKeys k key (AgedStore.get?_of_get?_remove hk) }
  · have ht : Sized (chain, pq.pqSkippedKeys) :=
      ⟨recvChain?_sized h hchain, h.skippedBound, h.skippedKeys⟩
    exact (advancePqChain_sized hC now epoch n ht).mono
      (fun _ t ht' => h.setRecvChain epoch ht') fun _ t ht' => h.setRecvChain epoch ht'

end PqRatchet

end ConstructCore
