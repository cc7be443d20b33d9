import Mathlib.Data.List.Induction

/-!
# Machines that log what they do

A machine is a step function: on a state and an input it moves to a state and writes some
entries to a log. `run` and `log` follow a list of inputs; `Along` says that a condition
holds of each state and input met on the way.

One rule carries every property of a run (`run_rule`): an invariant of the state and of
the log so far, which each step under the condition keeps, holds at the end of every run
whose steps meet the condition.
-/

namespace Machine

variable {σ ι ο : Type} (step : σ → ι → σ × List ο)

/-- The state after a list of inputs. -/
def run : σ → List ι → σ
  | s, [] => s
  | s, i :: is => run (step s i).1 is

/-- What the machine logs on a list of inputs. -/
def log : σ → List ι → List ο
  | _, [] => []
  | s, i :: is => (step s i).2 ++ log (step s i).1 is

/-- `cond` holds of each state and input met on the way. -/
def Along (cond : σ → ι → Prop) : σ → List ι → Prop
  | _, [] => True
  | s, i :: is => cond s i ∧ Along cond (step s i).1 is

instance decidableAlong (cond : σ → ι → Prop) [∀ s i, Decidable (cond s i)] :
    ∀ s is, Decidable (Along step cond s is)
  | _, [] => isTrue trivial
  | s, i :: is =>
    @instDecidableAnd _ _ _ (decidableAlong cond (step s i).1 is)

variable {step}

theorem run_append (s : σ) (is js : List ι) :
    run step s (is ++ js) = run step (run step s is) js := by
  induction is generalizing s with
  | nil => rfl
  | cons i is ih => exact ih (step s i).1

theorem log_append (s : σ) (is js : List ι) :
    log step s (is ++ js) = log step s is ++ log step (run step s is) js := by
  induction is generalizing s with
  | nil => rfl
  | cons i is ih =>
    show (step s i).2 ++ log step (step s i).1 (is ++ js) = _
    rw [ih, ← List.append_assoc]
    rfl

theorem along_append {cond : σ → ι → Prop} {s : σ} {is js : List ι} :
    Along step cond s (is ++ js) ↔
      Along step cond s is ∧ Along step cond (run step s is) js := by
  induction is generalizing s with
  | nil => exact (true_and _).symm ▸ Iff.rfl
  | cons i is ih =>
    show cond s i ∧ Along step cond (step s i).1 (is ++ js) ↔ _
    rw [ih, ← and_assoc]
    rfl

/-- A condition that always holds holds along every run. -/
theorem along_of_forall {cond : σ → ι → Prop} (h : ∀ s i, cond s i) (s : σ) (is : List ι) :
    Along step cond s is := by
  induction is generalizing s with
  | nil => trivial
  | cons i is ih => exact ⟨h s i, ih _⟩

/-- A condition on the inputs alone. -/
theorem along_of_mem {cond : ι → Prop} {is : List ι} (h : ∀ i ∈ is, cond i) (s : σ) :
    Along step (fun _ i => cond i) s is := by
  induction is generalizing s with
  | nil => trivial
  | cons i is ih =>
    exact ⟨h i (List.mem_cons_self ..), ih (fun j hj => h j (List.mem_cons_of_mem _ hj)) _⟩

theorem Along.imp {cond cond' : σ → ι → Prop} (h : ∀ s i, cond s i → cond' s i) {s : σ}
    {is : List ι} (hs : Along step cond s is) : Along step cond' s is := by
  induction is generalizing s with
  | nil => trivial
  | cons i is ih => exact ⟨h s i hs.1, ih hs.2⟩

theorem Along.and {cond cond' : σ → ι → Prop} {s : σ} {is : List ι} (h : Along step cond s is)
    (h' : Along step cond' s is) : Along step (fun s i => cond s i ∧ cond' s i) s is := by
  induction is generalizing s with
  | nil => trivial
  | cons i is ih => exact ⟨⟨h.1, h'.1⟩, ih h.2 h'.2⟩

/-- What each step under `cond` keeps of the state and the log, a run keeps. -/
theorem run_rule {cond : σ → ι → Prop} {Inv : σ → List ο → Prop}
    (hstep : ∀ s l i, cond s i → Inv s l → Inv (step s i).1 (l ++ (step s i).2))
    {s : σ} {l : List ο} {is : List ι} (hcond : Along step cond s is) (hs : Inv s l) :
    Inv (run step s is) (l ++ log step s is) := by
  induction is generalizing s l with
  | nil =>
    rw [show log step s [] = [] from rfl, List.append_nil]
    exact hs
  | cons i is ih =>
    show Inv (run step (step s i).1 is) (l ++ ((step s i).2 ++ log step (step s i).1 is))
    rw [← List.append_assoc]
    exact ih hcond.2 (hstep s l i hcond.1 hs)

/-- The rule from an empty log. -/
theorem log_rule {cond : σ → ι → Prop} {Inv : σ → List ο → Prop}
    (hstep : ∀ s l i, cond s i → Inv s l → Inv (step s i).1 (l ++ (step s i).2))
    {s : σ} {is : List ι} (hcond : Along step cond s is) (hs : Inv s []) :
    Inv (run step s is) (log step s is) :=
  run_rule hstep hcond hs

/-- A property of the inputs so far, which each further input under `cond` keeps, holds of
every run whose steps meet the condition. -/
theorem history_rule {cond : σ → ι → Prop} {s : σ} {P : List ι → Prop}
    (hstep : ∀ is i, Along step cond s is → cond (run step s is) i → P is → P (is ++ [i]))
    (hnil : P []) {is : List ι} (hcond : Along step cond s is) : P is := by
  induction is using List.reverseRecOn with
  | nil => exact hnil
  | append_singleton is i ih =>
    rw [along_append] at hcond
    exact hstep is i hcond.1 hcond.2.1 (ih hcond.1)

theorem run_concat (s : σ) (is : List ι) (i : ι) :
    run step s (is ++ [i]) = (step (run step s is) i).1 :=
  run_append s is [i]

theorem log_concat (s : σ) (is : List ι) (i : ι) :
    log step s (is ++ [i]) = log step s is ++ (step (run step s is) i).2 := by
  rw [log_append]
  show _ ++ ((step (run step s is) i).2 ++ []) = _
  rw [List.append_nil]

/-- An invariant of the state alone. -/
theorem invariant_rule {cond : σ → ι → Prop} {Inv : σ → Prop}
    (hstep : ∀ s i, cond s i → Inv s → Inv (step s i).1) {s : σ} {is : List ι}
    (hcond : Along step cond s is) (hs : Inv s) : Inv (run step s is) :=
  @run_rule _ _ _ _ cond (fun s _ => Inv s) (fun s _ i => hstep s i) s [] is hcond hs

end Machine
