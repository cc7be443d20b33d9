import Mathlib.Logic.Basic

/-!
# Stateful operations that keep their state on failure

An `Op ε σ α` runs on a state `σ` and either returns a value or fails with an
error; a failing operation leaves behind the state it had reached. This is the
shape of a method on `&mut self` that returns a `Result`: the caller that wants
the old state back has to put it back itself (`Op.inspectErr`).

`Op.Ensures x s Q E` is the specification of one run: from `s`, a returning run
of `x` meets `Q` and a failing run meets `E`. The rules below take a program
apart along its binds, so that each operation gets one specification lemma and
its callers cite that lemma.
-/

/-- `ok_or`: a missing value is the error `e`. -/
def Option.okOr {ε α : Type} (e : ε) : Option α → Except ε α
  | some a => .ok a
  | none => .error e

variable {ε α β : Type}

@[simp] theorem Option.okOr_eq_ok {e : ε} {o : Option α} {a : α} :
    o.okOr e = .ok a ↔ o = some a := by
  cases o <;> simp [Option.okOr]

theorem Except.bind_of_ok {x : Except ε α} {a : α} (h : x = .ok a) (f : α → Except ε β) :
    (x >>= f) = f a := by
  rw [h]
  rfl

/-- A fallible computation that failed did so in its first step, or after it. -/
theorem Except.bind_eq_error {x : Except ε α} {f : α → Except ε β} {e : ε}
    (h : (x >>= f) = .error e) : x = .error e ∨ ∃ a, x = .ok a ∧ f a = .error e := by
  cases x with
  | ok a => exact .inr ⟨a, rfl, h⟩
  | error e' =>
    cases h
    exact .inl rfl

/-- A fallible computation that returned came through its first step. -/
theorem Except.exists_of_bind_ok {x : Except ε α} {f : α → Except ε β} {b : β}
    (h : (x >>= f) = .ok b) : ∃ a, x = .ok a ∧ f a = .ok b := by
  cases x with
  | ok a => exact ⟨a, rfl, h⟩
  | error e => cases h

theorem Except.mapError_eq_ok {δ : Type} {f : ε → δ} {x : Except ε α} {a : α} :
    x.mapError f = .ok a ↔ x = .ok a := by
  cases x with
  | ok v =>
    show (Except.ok v : Except δ α) = .ok a ↔ _
    rw [Except.ok.injEq, Except.ok.injEq]
  | error e =>
    show (Except.error (f e) : Except δ α) = .ok a ↔ _
    simp

/-- A stateful operation whose failing runs keep the state they reached. -/
abbrev Op (ε σ α : Type) := EStateM ε σ α

namespace Op

variable {ε δ σ τ α β : Type}

/-! ## Building blocks -/

/-- Run a stateless fallible computation, translating its error. -/
def ofExcept (f : δ → ε) (x : Except δ α) : Op ε σ α := fun s =>
  match x with
  | .ok a => .ok a s
  | .error e => .error (f e) s

/-- Run `x`; when it fails, apply `h` to the state it left and pass the error on. -/
def inspectErr (x : Op ε σ α) (h : σ → σ) : Op ε σ α := fun s =>
  match x s with
  | .ok a s' => .ok a s'
  | .error e s' => .error e (h s')

/-- Run an operation on the part of the state that `get` reads and `put` writes. -/
def zoom (get : σ → τ) (put : τ → σ → σ) (x : Op ε τ α) : Op ε σ α := fun s =>
  match x (get s) with
  | .ok a t => .ok a (put t s)
  | .error e t => .error e (put t s)

/-! ## Specifications of a run -/

/-- From `s`, a returning run of `x` meets `Q` and a failing one meets `E`. -/
def Ensures (x : Op ε σ α) (s : σ) (Q : α → σ → Prop) (E : ε → σ → Prop) : Prop :=
  match x s with
  | .ok a s' => Q a s'
  | .error e s' => E e s'

variable {x : Op ε σ α} {s s' : σ} {Q : α → σ → Prop} {E : ε → σ → Prop}

theorem Ensures.of_ok {a : α} (h : Ensures x s Q E) (hx : x s = .ok a s') : Q a s' := by
  simpa only [Ensures, hx] using h

theorem Ensures.of_error {e : ε} (h : Ensures x s Q E) (hx : x s = .error e s') : E e s' := by
  simpa only [Ensures, hx] using h

theorem Ensures.mono {Q' : α → σ → Prop} {E' : ε → σ → Prop} (h : Ensures x s Q E)
    (hQ : ∀ a s', Q a s' → Q' a s') (hE : ∀ e s', E e s' → E' e s') : Ensures x s Q' E' := by
  unfold Ensures at h ⊢
  cases hx : x s with
  | ok a s' => exact hQ a s' (by simpa only [hx] using h)
  | error e s' => exact hE e s' (by simpa only [hx] using h)

theorem ensures_iff :
    Ensures x s Q E ↔
      (∀ a s', x s = .ok a s' → Q a s') ∧ (∀ e s', x s = .error e s' → E e s') := by
  refine ⟨fun h => ⟨fun _ _ => h.of_ok, fun _ _ => h.of_error⟩, fun ⟨hQ, hE⟩ => ?_⟩
  unfold Ensures
  cases hx : x s with
  | ok a s' => exact hQ a s' hx
  | error e s' => exact hE e s' hx

section Rules

variable {s : σ} {E : ε → σ → Prop}

variable {Q : α → σ → Prop} {x : Op ε σ α}

@[simp] theorem ensures_pure {a : α} :
    Ensures (pure a : Op ε σ α) s Q E ↔ Q a s := Iff.rfl

@[simp] theorem ensures_get {Q : σ → σ → Prop} :
    Ensures (get : Op ε σ σ) s Q E ↔ Q s s := Iff.rfl

@[simp] theorem ensures_set {t : σ} {Q : PUnit → σ → Prop} :
    Ensures (set t : Op ε σ PUnit) s Q E ↔ Q ⟨⟩ t := Iff.rfl

@[simp] theorem ensures_modify {f : σ → σ} {Q : PUnit → σ → Prop} :
    Ensures (modify f : Op ε σ PUnit) s Q E ↔ Q ⟨⟩ (f s) := Iff.rfl

@[simp] theorem ensures_throw {e : ε} :
    Ensures (throw e : Op ε σ α) s Q E ↔ E e s := Iff.rfl

@[simp] theorem ensures_bind {f : α → Op ε σ β} {Q : β → σ → Prop} :
    Ensures (x >>= f) s Q E ↔ Ensures x s (fun a s' => Ensures (f a) s' Q E) E := by
  unfold Ensures
  show (match EStateM.bind x f s with | .ok a s' => Q a s' | .error e s' => E e s') ↔ _
  unfold EStateM.bind
  cases x s <;> rfl

@[simp] theorem ensures_ite {c : Prop} [Decidable c] {y : Op ε σ α} :
    Ensures (if c then x else y) s Q E ↔
      (c → Ensures x s Q E) ∧ (¬ c → Ensures y s Q E) := by
  by_cases hc : c <;> simp [hc]

@[simp] theorem ensures_ofExcept {f : δ → ε} {x : Except δ α} :
    Ensures (ofExcept f x) s Q E ↔
      (∀ a, x = .ok a → Q a s) ∧ (∀ e, x = .error e → E (f e) s) := by
  unfold Ensures ofExcept
  cases x <;> simp

@[simp] theorem ensures_inspectErr {h : σ → σ} :
    Ensures (inspectErr x h) s Q E ↔ Ensures x s Q (fun e s' => E e (h s')) := by
  unfold Ensures inspectErr
  cases x s <;> rfl

@[simp] theorem ensures_zoom {get : σ → τ} {put : τ → σ → σ} {x : Op ε τ α} :
    Ensures (zoom get put x) s Q E ↔
      Ensures x (get s) (fun a t => Q a (put t s)) (fun e t => E e (put t s)) := by
  unfold Ensures zoom
  cases x (get s) <;> rfl

end Rules

/-! ## The results of a run -/

section Run

variable {s s' : σ}

variable {x : Op ε σ α} {f : α → Op ε σ β} {a : α} {b : β} {t : σ} {g : σ → σ} {u : PUnit}
  {r : EStateM.Result ε σ α}

theorem bind_run :
    (x >>= f) s = match x s with
      | .ok a s' => f a s'
      | .error e s' => .error e s' := rfl

@[simp] theorem pure_eq_ok {b : α} :
    (pure a : Op ε σ α) s = .ok b s' ↔ a = b ∧ s = s' := by
  show EStateM.Result.ok a s = .ok b s' ↔ _
  simp

@[simp] theorem throw_ne_ok {e : ε} : ¬ (throw e : Op ε σ α) s = .ok a s' := by
  show ¬ EStateM.Result.error e s = .ok a s'
  simp

@[simp] theorem bind_eq_ok :
    (x >>= f) s = .ok b s' ↔ ∃ a t, x s = .ok a t ∧ f a t = .ok b s' := by
  rw [bind_run]
  cases x s with
  | ok a t => simp [and_assoc]
  | error e t => simp

@[simp] theorem map_eq_ok {f : α → β} :
    (f <$> x) s = .ok b s' ↔ ∃ a, x s = .ok a s' ∧ f a = b := by
  show EStateM.map f x s = _ ↔ _
  unfold EStateM.map
  cases x s with
  | ok a t => simp [and_comm, and_assoc]
  | error e t => simp

@[simp] theorem get_bind_eq_ok {f : σ → Op ε σ β} :
    (get >>= f) s = .ok b s' ↔ f s s = .ok b s' := Iff.rfl

@[simp] theorem set_bind_eq_ok {f : PUnit → Op ε σ β} :
    (set t >>= f) s = .ok b s' ↔ f ⟨⟩ t = .ok b s' := Iff.rfl

@[simp] theorem modify_bind_eq_ok {f : PUnit → Op ε σ β} :
    ((modify g : Op ε σ PUnit) >>= f) s = .ok b s' ↔ f ⟨⟩ (g s) = .ok b s' := Iff.rfl

theorem get_eq_ok {a : σ} : (get : Op ε σ σ) s = .ok a s' ↔ s = a ∧ s = s' := by
  show EStateM.Result.ok s s = .ok a s' ↔ _
  simp

@[simp] theorem set_eq_ok :
    (set t : Op ε σ PUnit) s = .ok u s' ↔ t = s' := by
  show EStateM.Result.ok _ t = .ok u s' ↔ _
  simp

@[simp] theorem modify_eq_ok :
    (modify g : Op ε σ PUnit) s = .ok u s' ↔ g s = s' := by
  show EStateM.Result.ok _ (g s) = .ok u s' ↔ _
  simp

@[simp] theorem ite_eq_ok {c : Prop} [Decidable c] {y : Op ε σ α} :
    (if c then x else y) s = .ok a s' ↔ (c ∧ x s = .ok a s') ∨ (¬ c ∧ y s = .ok a s') := by
  by_cases hc : c <;> simp [hc]

@[simp] theorem ofExcept_eq_ok {f : δ → ε} {x : Except δ α} :
    (ofExcept f x : Op ε σ α) s = .ok a s' ↔ x = .ok a ∧ s = s' := by
  unfold ofExcept
  cases x <;> simp

@[simp] theorem inspectErr_eq_ok {h : σ → σ} :
    inspectErr x h s = .ok a s' ↔ x s = .ok a s' := by
  unfold inspectErr
  cases x s <;> simp

@[simp] theorem zoom_eq_ok {get : σ → τ} {put : τ → σ → σ} {x : Op ε τ α} :
    zoom get put x s = .ok a s' ↔ ∃ t, x (get s) = .ok a t ∧ put t s = s' := by
  unfold zoom
  cases x (get s) with
  | ok b t => simp [and_assoc]
  | error e t => simp

/-- Whether a run failed, for evaluation. -/
def failed : EStateM.Result ε σ α → Bool
  | .ok _ _ => false
  | .error _ _ => true

theorem exists_error_of_failed (h : failed r = true) :
    ∃ e s, r = .error e s := by
  cases r with
  | ok a s => cases h
  | error e s => exact ⟨e, s, rfl⟩

theorem exists_ok_of_not_failed (h : failed r = false) :
    ∃ a s, r = .ok a s := by
  cases r with
  | ok a s => exact ⟨a, s, rfl⟩
  | error e s => cases h

end Run

end Op
