import Mathlib.Data.List.Basic

/-!
# Incremental readers

A reader is given its input in pieces and works on each one step by step. A step takes the
state and the input not yet used, and either fails or leaves a new state, the input it did not
use and what it has to report. `feed` runs the steps of one piece, `feedAll` those of a list of
pieces, stopping at the first failure.

Two reports are the same when `view` spells them the same: a report that may be cut in two is
spelled by its parts. `Resumable` is what one step has to promise: to use some of its input, and
to come to the same on a piece cut in two as on the whole. From it:

* `Resumable.feed_total`: feeding always ends;
* `Resumable.feed_append`: a piece fed in two parts reports the same and comes to the same;
* `Resumable.feedAll_agree`: so do any two ways of cutting an input.

`gather` is the common kind of step, one that first gathers a number of elements;
`Resumes.of_gather` is its half of the promise.

Where a step cannot say how many elements it wants, it reads what there is: `.ok none` is that
they do not settle it yet. `andThen` strings such readings together, and `andThen_congr` and
`guard_congr` say that one made of readings that more elements do not change is such a reading.
-/

namespace Incremental

variable {σ β ε φ α : Type}

/-! ## Steps and runs -/

/-- One step on a nonempty input: the new state, the input left over and the reports. -/
abbrev Step (σ β ε φ : Type) := σ → List β → Except φ (σ × List β × List ε)

/-- What feeding came to: the reports, and the state or the failure. -/
abbrev Fed (σ ε φ : Type) := List ε × Except φ σ

/-- The reports `out` come before those of `r`. -/
def Fed.after (out : List ε) (r : Fed σ ε φ) : Fed σ ε φ := (out ++ r.1, r.2)

/-- At most `n` steps on an input; `none` where input is left after them. -/
def drive (step : Step σ β ε φ) : Nat → σ → List β → Option (Fed σ ε φ)
  | _, s, [] => some ([], .ok s)
  | 0, _, _ :: _ => none
  | n + 1, s, b :: d =>
    match step s (b :: d) with
    | .error f => some ([], .error f)
    | .ok (s', rest, out) => (drive step n s' rest).map (Fed.after out)

/-- The steps of one piece of input. Each uses some of it, so there is one for each element at
most. -/
def feed (step : Step σ β ε φ) (s : σ) (d : List β) : Option (Fed σ ε φ) :=
  drive step d.length s d

/-- Go on with the next input, unless feeding has failed. -/
def Fed.andThen (r : Fed σ ε φ) (next : σ → Option (Fed σ ε φ)) : Option (Fed σ ε φ) :=
  match r.2 with
  | .error _ => some r
  | .ok s => (next s).map (Fed.after r.1)

/-- The pieces one after the other, up to the first failure. -/
def feedAll (step : Step σ β ε φ) (s : σ) : List (List β) → Option (Fed σ ε φ)
  | [] => some ([], .ok s)
  | p :: ps => (feed step s p).bind fun r => r.andThen fun s' => feedAll step s' ps

@[simp] theorem feed_nil (step : Step σ β ε φ) (s : σ) : feed step s [] = some ([], .ok s) := rfl

@[simp] theorem Fed.after_nil (r : Fed σ ε φ) : Fed.after [] r = r := rfl

theorem Fed.after_after (x y : List ε) (r : Fed σ ε φ) :
    Fed.after x (Fed.after y r) = Fed.after (x ++ y) r := by
  simp only [Fed.after, List.append_assoc]

theorem Fed.andThen_after (out : List ε) (r : Fed σ ε φ) (next : σ → Option (Fed σ ε φ)) :
    (Fed.after out r).andThen next = (r.andThen next).map (Fed.after out) := by
  obtain ⟨first, res⟩ := r
  cases res with
  | error f => rfl
  | ok s =>
    show (next s).map (Fed.after (out ++ first)) = ((next s).map (Fed.after first)).map _
    rw [Option.map_map]
    congr 1
    funext r
    exact (Fed.after_after out first r).symm

theorem feedAll_append (step : Step σ β ε φ) (s : σ) (ps qs : List (List β)) :
    feedAll step s (ps ++ qs) =
      (feedAll step s ps).bind fun r => r.andThen fun s' => feedAll step s' qs := by
  induction ps generalizing s with
  | nil =>
    show feedAll step s qs = (feedAll step s qs).map (Fed.after [])
    exact Option.map_id_apply.symm
  | cons p ps ih =>
    rw [List.cons_append, feedAll, feedAll]
    cases feed step s p with
    | none => rfl
    | some r =>
      obtain ⟨out, res⟩ := r
      cases res with
      | error f => rfl
      | ok s' =>
        show (feedAll step s' (ps ++ qs)).map (Fed.after out) = _
        rw [ih]
        cases hfed : feedAll step s' ps with
        | none =>
          show _ = Option.bind ((feedAll step s' ps).map (Fed.after out)) _
          rw [hfed]
          rfl
        | some t =>
          show _ = Option.bind ((feedAll step s' ps).map (Fed.after out)) _
          rw [hfed]
          exact (Fed.andThen_after out t _).symm

variable {step : Step σ β ε φ} {I : σ → List ε → Prop} {s s' : σ} {seen out : List ε} {d : List β}

/-- What every step keeps, with what was reported so far, feeding keeps. -/
theorem drive_rule
    (hstep : ∀ s seen d s' rest out, I s seen → d ≠ [] → step s d = .ok (s', rest, out) →
      I s' (seen ++ out)) {n : Nat} (hs : I s seen) (h : drive step n s d = some (out, .ok s')) :
    I s' (seen ++ out) := by
  induction n generalizing s seen d out with
  | zero =>
    cases d with
    | nil =>
      cases h
      rwa [List.append_nil]
    | cons b d => cases h
  | succ n ih =>
    cases d with
    | nil =>
      cases h
      rwa [List.append_nil]
    | cons b d =>
      rw [drive] at h
      cases hfirst : step s (b :: d) with
      | error f =>
        rw [hfirst] at h
        cases h
      | ok v =>
        obtain ⟨t, rest, first⟩ := v
        rw [hfirst] at h
        obtain ⟨⟨more, res⟩, hmore, heq⟩ := Option.map_eq_some_iff.mp h
        cases heq
        have ht := hstep s seen (b :: d) t rest first hs (List.cons_ne_nil b d) hfirst
        rw [← List.append_assoc]
        exact ih ht hmore

theorem feed_rule
    (hstep : ∀ s seen d s' rest out, I s seen → d ≠ [] → step s d = .ok (s', rest, out) →
      I s' (seen ++ out)) (hs : I s seen) (h : feed step s d = some (out, .ok s')) :
    I s' (seen ++ out) :=
  drive_rule hstep hs h

/-! ## The same reports -/

/-- The two come to the same state or failure, with reports that `view` spells the same. -/
def Agree (view : ε → List α) (r q : Fed σ ε φ) : Prop :=
  r.1.flatMap view = q.1.flatMap view ∧ r.2 = q.2

section Agree

variable {view : ε → List α} {r q t : Fed σ ε φ}

theorem Agree.refl (r : Fed σ ε φ) : Agree view r r := ⟨rfl, rfl⟩

theorem Agree.symm (h : Agree view r q) : Agree view q r := ⟨h.1.symm, h.2.symm⟩

theorem Agree.trans (h : Agree view r q) (h' : Agree view q t) : Agree view r t :=
  ⟨h.1.trans h'.1, h.2.trans h'.2⟩

theorem Agree.after {x y : List ε} (hxy : x.flatMap view = y.flatMap view)
    (h : Agree view r q) : Agree view (Fed.after x r) (Fed.after y q) := by
  refine ⟨?_, h.2⟩
  show (x ++ r.1).flatMap view = (y ++ q.1).flatMap view
  rw [List.flatMap_append, List.flatMap_append, hxy, h.1]

/-- What goes on from agreeing results agrees. -/
theorem Agree.andThen {next next' : σ → Option (Fed σ ε φ)} (h : Agree view r q)
    (hnext : ∀ s, r.2 = .ok s → ∃ t t', next s = some t ∧ next' s = some t' ∧ Agree view t t') :
    ∃ t t', r.andThen next = some t ∧ q.andThen next' = some t' ∧ Agree view t t' := by
  obtain ⟨out, res⟩ := r
  obtain ⟨out', res'⟩ := q
  obtain ⟨hout, rfl : res = res'⟩ := h
  cases res with
  | error f => exact ⟨_, _, rfl, rfl, hout, rfl⟩
  | ok s =>
    obtain ⟨t, t', ht, ht', hagree⟩ := hnext s rfl
    refine ⟨Fed.after out t, Fed.after out' t', ?_, ?_, hagree.after hout⟩
    · show (next s).map _ = _
      rw [ht]
      rfl
    · show (next' s).map _ = _
      rw [ht']
      rfl

end Agree

/-! ## Resumable steps -/

/-- A step on `x ++ y` comes to what a step on `x` comes to, or a step on `x` uses all of it and
the next one goes on with `y` to what the step on `x ++ y` comes to. -/
inductive Resumes (step : Step σ β ε φ) (view : ε → List α) (s : σ) (x y : List β) : Prop
  | fails (f : φ) (hx : step s x = .error f) (hxy : step s (x ++ y) = .error f)
  | settles (s' : σ) (rest : List β) (out : List ε) (hx : step s x = .ok (s', rest, out))
      (hxy : step s (x ++ y) = .ok (s', rest ++ y, out))
  | failsLater (s' : σ) (out : List ε) (f : φ) (hx : step s x = .ok (s', [], out))
      (hy : step s' y = .error f) (hxy : step s (x ++ y) = .error f)
      (hview : out.flatMap view = [])
  | settlesLater (s' t : σ) (rest : List β) (out more all : List ε)
      (hx : step s x = .ok (s', [], out)) (hy : step s' y = .ok (t, rest, more))
      (hxy : step s (x ++ y) = .ok (t, rest, all))
      (hview : all.flatMap view = (out ++ more).flatMap view)

/-- From a state that meets the invariant a step leaves one that does and has used some of its
input, and a step on a piece cut in two comes to the same as on the whole. -/
structure Resumable (step : Step σ β ε φ) (view : ε → List α) (Inv : σ → Prop) : Prop where
  keeps : ∀ {s d s' rest out}, Inv s → d ≠ [] → step s d = .ok (s', rest, out) →
    Inv s' ∧ rest.length < d.length
  resumes : ∀ {s x y}, Inv s → x ≠ [] → y ≠ [] → Resumes step view s x y

namespace Resumable

variable {step : Step σ β ε φ} {view : ε → List α} {Inv : σ → Prop} {s : σ} {d : List β}

theorem feed_of_error (hd : d ≠ []) {f : φ} (hstep : step s d = .error f) :
    feed step s d = some ([], .error f) := by
  cases d with
  | nil => exact absurd rfl hd
  | cons b d =>
    show (match step s (b :: d) with | .error f => _ | .ok (s', rest, out) => _) = _
    rw [hstep]

variable (h : Resumable step view Inv) (hs : Inv s)

include h hs

/-- More steps than there is input change nothing. -/
theorem drive_of_le {n : Nat} (hn : d.length ≤ n) :
    drive step n s d = feed step s d := by
  suffices hboth : ∀ m n s d, Inv s → d.length ≤ m → d.length ≤ n →
      drive step n s d = drive step m s d from hboth _ _ _ _ hs (Nat.le_refl _) hn
  intro m
  induction m with
  | zero =>
    intro n s d hs hm _
    obtain rfl := List.eq_nil_of_length_eq_zero (Nat.le_zero.mp hm)
    cases n <;> rfl
  | succ m ih =>
    intro n s d hs hm hn
    cases d with
    | nil => cases n <;> rfl
    | cons b d =>
      obtain ⟨n, rfl⟩ : ∃ k, n = k + 1 := ⟨n - 1, by rw [List.length_cons] at hn; omega⟩
      simp only [drive]
      cases hstep : step s (b :: d) with
      | error f => rfl
      | ok v =>
        obtain ⟨s', rest, out⟩ := v
        obtain ⟨hs', hlt⟩ := h.keeps hs (List.cons_ne_nil b d) hstep
        show (drive step n s' rest).map _ = (drive step m s' rest).map _
        rw [ih n s' rest hs' (by omega) (by omega)]

variable {s' : σ} {ps : List (List β)}

/-- One step of a piece, and then the rest of it. -/
theorem feed_of_ok (hd : d ≠ []) {rest : List β} {out : List ε}
    (hstep : step s d = .ok (s', rest, out)) :
    feed step s d = (feed step s' rest).map (Fed.after out) := by
  obtain ⟨hs', hlt⟩ := h.keeps hs hd hstep
  cases d with
  | nil => exact absurd rfl hd
  | cons b d =>
    show (match step s (b :: d) with
      | .error f => some ([], Except.error f)
      | .ok (s', rest, out) => (drive step d.length s' rest).map (Fed.after out)) = _
    rw [hstep]
    show (drive step d.length s' rest).map _ = _
    rw [h.drive_of_le hs' (Nat.le_of_lt_succ hlt)]

/-- Feeding a piece ends, and a state it comes to meets the invariant. -/
theorem feed_total (d : List β) :
    ∃ r, feed step s d = some r ∧ ∀ s', r.2 = .ok s' → Inv s' := by
  induction hlen : d.length using Nat.strongRecOn generalizing s d with
  | ind n ih =>
    by_cases hd : d = []
    · subst hd
      exact ⟨_, rfl, fun s' hs' => by cases hs'; exact hs⟩
    · cases hstep : step s d with
      | error f => exact ⟨_, feed_of_error hd hstep, fun s' hs' => nomatch hs'⟩
      | ok v =>
        obtain ⟨s', rest, out⟩ := v
        obtain ⟨hs', hlt⟩ := h.keeps hs hd hstep
        obtain ⟨r, hr, hinv⟩ := ih rest.length (hlen ▸ hlt) hs' rest rfl
        exact ⟨Fed.after out r, by rw [h.feed_of_ok hs hd hstep, hr]; rfl, hinv⟩

/-- **A piece fed in two parts reports the same and comes to the same.** -/
theorem feed_append (x y : List β) :
    ∃ r q, (feed step s x).bind (fun r => r.andThen fun s' => feed step s' y) = some r ∧
      feed step s (x ++ y) = some q ∧ Agree view r q := by
  -- by induction on the part not yet read of `x`: each step on it is one on `x ++ y`, up to the
  -- last, which the step on `y` may have to finish
  induction hlen : x.length using Nat.strongRecOn generalizing s x with
  | ind n ih =>
    by_cases hy : y = []
    · subst hy
      obtain ⟨r, hr, -⟩ := h.feed_total hs x
      refine ⟨r, r, ?_, by rw [List.append_nil, hr], .refl r⟩
      rw [hr]
      obtain ⟨out, res⟩ := r
      cases res with
      | error f => rfl
      | ok s' =>
        show (feed step s' []).map (Fed.after out) = _
        simp only [feed_nil, Option.map_some, Fed.after, List.append_nil]
    by_cases hx : x = []
    · subst hx
      obtain ⟨r, hr, -⟩ := h.feed_total hs y
      refine ⟨r, r, ?_, hr, .refl r⟩
      show (feed step s y).map (Fed.after []) = _
      rw [hr]
      rfl
    have hxy : x ++ y ≠ [] := List.append_ne_nil_of_left_ne_nil hx y
    cases h.resumes hs hx hy with
    | fails f hsx hsxy =>
      exact ⟨([], .error f), _, by rw [feed_of_error hx hsx]; rfl, feed_of_error hxy hsxy,
        .refl _⟩
    | settles s' rest out hsx hsxy =>
      obtain ⟨hs', hlt⟩ := h.keeps hs hx hsx
      obtain ⟨r, q, hr, hq, hagree⟩ := ih rest.length (hlen ▸ hlt) hs' rest rfl
      obtain ⟨t, ht, -⟩ := h.feed_total hs' rest
      refine ⟨Fed.after out r, Fed.after out q, ?_, ?_, hagree.after rfl⟩
      · rw [h.feed_of_ok hs hx hsx, ht]
        rw [ht] at hr
        show (Fed.after out t).andThen _ = _
        rw [Fed.andThen_after, show t.andThen _ = some r from hr]
        rfl
      · rw [h.feed_of_ok hs hxy hsxy, hq]
        rfl
    | failsLater s' out f hsx hsy hsxy hview =>
      refine ⟨(out, .error f), ([], .error f), ?_, feed_of_error hxy hsxy, hview, rfl⟩
      rw [h.feed_of_ok hs hx hsx]
      show (feed step s' y).map (Fed.after (out ++ [])) = _
      rw [feed_of_error hy hsy]
      simp only [Option.map_some, Fed.after, List.append_nil]
    | settlesLater s' t rest out more all hsx hsy hsxy hview =>
      obtain ⟨hs', -⟩ := h.keeps hs hx hsx
      obtain ⟨ht, -⟩ := h.keeps hs' hy hsy
      obtain ⟨r, hr, -⟩ := h.feed_total ht rest
      refine ⟨Fed.after (out ++ more) r, Fed.after all r, ?_, ?_,
        (Agree.refl r).after hview.symm⟩
      · rw [h.feed_of_ok hs hx hsx]
        show (feed step s' y).map (Fed.after (out ++ [])) = _
        rw [h.feed_of_ok hs' hy hsy, hr, List.append_nil]
        show some (Fed.after out (Fed.after more r)) = _
        rw [Fed.after_after]
      · rw [h.feed_of_ok hs hxy hsxy, hr]
        rfl

/-- Feeding the pieces comes to what feeding all of them at once comes to. -/
theorem feedAll_flatten (ps : List (List β)) :
    ∃ r q, feedAll step s ps = some r ∧ feed step s ps.flatten = some q ∧ Agree view r q := by
  induction ps generalizing s with
  | nil => exact ⟨_, _, rfl, rfl, .refl _⟩
  | cons p ps ih =>
    obtain ⟨first, hfirst, hinv⟩ := h.feed_total hs p
    obtain ⟨t, q, ht, hq, htq⟩ := h.feed_append hs p ps.flatten
    rw [hfirst] at ht
    have hrest : ∀ s', first.2 = .ok s' → ∃ r r', feedAll step s' ps = some r ∧
        feed step s' ps.flatten = some r' ∧ Agree view r r' :=
      fun s' hs' => ih (hinv s' hs')
    have hself : Agree view first first := .refl first
    obtain ⟨r, r', hr, hr', hagree⟩ := hself.andThen hrest
    obtain rfl : r' = t := Option.some.inj (hr'.symm.trans ht)
    exact ⟨r, q, by rw [feedAll, hfirst]; exact hr, hq, hagree.trans htq⟩

/-- **Two ways of cutting one input report the same and come to the same.** -/
theorem feedAll_agree {qs : List (List β)} (hsame : ps.flatten = qs.flatten) :
    ∃ r q, feedAll step s ps = some r ∧ feedAll step s qs = some q ∧ Agree view r q := by
  obtain ⟨r, t, hr, ht, hrt⟩ := h.feedAll_flatten hs ps
  obtain ⟨q, t', hq, ht', hqt⟩ := h.feedAll_flatten hs qs
  rw [hsame] at ht
  obtain rfl : t = t' := Option.some.inj (ht.symm.trans ht')
  exact ⟨r, q, hr, hq, hrt.trans hqt.symm⟩

/-- The state the pieces come to meets the invariant. -/
theorem feedAll_inv {r : Fed σ ε φ} (hr : feedAll step s ps = some r) (hs' : r.2 = .ok s') :
    Inv s' := by
  obtain ⟨t, q, ht, hq, hagree⟩ := h.feedAll_flatten hs ps
  obtain ⟨q', hq', hinv⟩ := h.feed_total hs ps.flatten
  obtain rfl : t = r := Option.some.inj (ht.symm.trans hr)
  obtain rfl : q = q' := Option.some.inj (hq.symm.trans hq')
  exact hinv s' (hagree.2.symm.trans hs')

end Resumable

/-! ## Steps that gather -/

/-- Gather `n` elements and go on with them, or wait with what there is. -/
def gather (n : Nat) (wait : List β → σ) (complete : List β → Except φ (σ × List ε))
    (d : List β) : Except φ (σ × List β × List ε) :=
  if d.length < n then .ok (wait d, [], [])
  else (complete (d.take n)).map fun r => (r.1, d.drop n, r.2)

section Gather

variable {n : Nat} {wait : List β → σ} {complete : List β → Except φ (σ × List ε)} {x y d : List β}

theorem gather_of_lt (h : d.length < n) : gather n wait complete d = .ok (wait d, [], []) :=
  if_pos h

theorem gather_of_le (h : n ≤ d.length) :
    gather n wait complete d = (complete (d.take n)).map fun r => (r.1, d.drop n, r.2) :=
  if_neg (Nat.not_lt.mpr h)

/-- A gathering step uses some of its input, and waits or has gathered all it wanted. -/
theorem gather_ok (hn : 0 < n) (hd : d ≠ []) {s' : σ} {rest : List β} {out : List ε}
    (h : gather n wait complete d = .ok (s', rest, out)) :
    rest.length < d.length ∧
      (d.length < n ∧ s' = wait d ∨ complete (d.take n) = .ok (s', out)) := by
  have hlen : 0 < d.length := List.length_pos_iff.mpr hd
  rcases Nat.lt_or_ge d.length n with hlt | hge
  · rw [gather_of_lt hlt] at h
    cases h
    exact ⟨hlen, .inl ⟨hlt, rfl⟩⟩
  · rw [gather_of_le hge] at h
    cases hc : complete (d.take n) with
    | error f =>
      rw [hc] at h
      cases h
    | ok r =>
      rw [hc] at h
      cases h
      refine ⟨?_, .inr rfl⟩
      rw [List.length_drop]
      omega

/-- A step that gathers, and that in the state it waits in gathers what is missing, comes to the
same on a piece cut in two. -/
theorem Resumes.of_gather {step : Step σ β ε φ} {view : ε → List α} {s : σ}
    (hx : step s x = gather n wait complete x)
    (hxy : step s (x ++ y) = gather n wait complete (x ++ y))
    (hy : x.length < n → step (wait x) y =
      gather (n - x.length) (fun z => wait (x ++ z)) (fun z => complete (x ++ z)) y) :
    Resumes step view s x y := by
  rcases Nat.lt_or_ge x.length n with hlt | hge
  · rw [gather_of_lt hlt] at hx
    specialize hy hlt
    rcases Nat.lt_or_ge y.length (n - x.length) with hlt' | hge'
    · rw [gather_of_lt hlt'] at hy
      rw [gather_of_lt (by rw [List.length_append]; omega)] at hxy
      exact .settlesLater _ _ _ [] [] [] hx hy hxy rfl
    · have htake : (x ++ y).take n = x ++ y.take (n - x.length) := by
        rw [List.take_append, List.take_of_length_le (Nat.le_of_lt hlt)]
      have hdrop : (x ++ y).drop n = y.drop (n - x.length) := by
        rw [List.drop_append, List.drop_of_length_le (Nat.le_of_lt hlt), List.nil_append]
      rw [gather_of_le hge'] at hy
      rw [gather_of_le (by rw [List.length_append]; omega), htake, hdrop] at hxy
      cases hc : complete (x ++ y.take (n - x.length)) with
      | error f =>
        rw [hc] at hy hxy
        exact .failsLater _ [] f hx hy hxy rfl
      | ok r =>
        rw [hc] at hy hxy
        exact .settlesLater _ _ _ [] r.2 r.2 hx hy hxy rfl
  · rw [gather_of_le hge] at hx
    rw [gather_of_le (by rw [List.length_append]; omega), List.take_append_of_le_length hge,
      List.drop_append_of_le_length hge] at hxy
    cases hc : complete (x.take n) with
    | error f =>
      rw [hc] at hx hxy
      exact .fails f hx hxy
    | ok r =>
      rw [hc] at hx hxy
      exact .settles _ _ _ hx hxy

end Gather

/-! ## Readings of what there is -/

section Reading

variable {r r' : Except φ (Option α)} {next next' : α → Except φ (Option β)} {a : α} {b : β}

/-- Go on with the value read, if what there is settles it. -/
def andThen (r : Except φ (Option α)) (next : α → Except φ (Option β)) : Except φ (Option β) :=
  match r with
  | .error f => .error f
  | .ok none => .ok none
  | .ok (some a) => next a

theorem andThen_of_some (h : r = .ok (some a)) : andThen r next = next a := by
  rw [h]
  rfl

theorem of_andThen_eq_some (h : andThen r next = .ok (some b)) :
    ∃ a, r = .ok (some a) ∧ next a = .ok (some b) := by
  unfold andThen at h
  split at h
  · cases h
  · cases h
  · rename_i a
    exact ⟨a, rfl, h⟩

/-- A settled reading stays as it is when its parts, as far as they are settled, do. -/
theorem andThen_congr (h : andThen r next ≠ .ok none) (hr : r ≠ .ok none → r' = r)
    (hnext : ∀ a, next a ≠ .ok none → next' a = next a) : andThen r' next' = andThen r next := by
  have hsettled : r ≠ .ok none := by
    rintro rfl
    exact h rfl
  rw [hr hsettled]
  unfold andThen at h ⊢
  split
  · rfl
  · rfl
  · exact hnext _ h

theorem guard_congr {c : Prop} [Decidable c] {s : Except φ (Option α)}
    (h : (if c then s else r) ≠ .ok none) (hr : r ≠ .ok none → r' = r) :
    (if c then s else r') = if c then s else r := by
  split
  · rfl
  · rename_i hc
    rw [if_neg hc] at h
    exact hr h

/-- An element that is there stays when more follow. -/
theorem getElem?_append_settled {l more : List α} {i : Nat}
    (h : (.ok l[i]? : Except φ (Option α)) ≠ .ok none) :
    (.ok (l ++ more)[i]? : Except φ (Option α)) = .ok l[i]? := by
  have hlt : i < l.length := by
    refine Nat.lt_of_not_le fun hle => h ?_
    rw [List.getElem?_eq_none hle]
  rw [List.getElem?_append_left hlt]

end Reading

end Incremental
