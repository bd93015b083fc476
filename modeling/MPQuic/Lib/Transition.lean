import Mathlib.Data.List.Basic
import Mathlib.Data.List.Induction
import Mathlib.Tactic.Common

/-!
# Runs of a labelled transition system

A system is a relation `step s label s'`. A `Run` is a finite sequence of steps from an initial
state; it records the labels in the order in which the steps were taken, so that a statement can
relate the state a run reaches to what happened on the way.

* `Run.foldl`, `Run.foldlM`: a run goes on with the steps of a function.
* `Run.exists_of_any`: a run is found by evaluation.
* `Run.invariant`: what holds initially and is kept by every step holds after every run.
* `Run.invariant_of_forall`: the same when only steps with an admissible label are taken.
* `Run.simulates`: a run of one system is a run of another one.
* `Run.and_iff_and`: the runs that keep a property are those whose steps meet a condition.
* `forall_foldl_iff`: when a property holds in all states on the way.
-/

namespace Transition

variable {σ ι : Type*}

/-- `Run step init l s`: the steps with the labels `l` lead from `init` to `s`. -/
inductive Run (step : σ → ι → σ → Prop) (init : σ) : List ι → σ → Prop where
  | nil : Run step init [] init
  | snoc {l : List ι} {s : σ} {a : ι} {t : σ} :
      Run step init l s → step s a t → Run step init (l ++ [a]) t

variable {step : σ → ι → σ → Prop} {init : σ}

variable {l : List ι} {s : σ}

/-- A run goes on with the steps of a function, one after the other. -/
theorem Run.foldl {f : σ → ι → σ} (hrun : Run step init l s) {l' : List ι}
    (hf : ∀ a ∈ l', ∀ s, step s a (f s a)) : Run step init (l ++ l') (l'.foldl f s) := by
  induction l' generalizing l s with
  | nil => exact (List.append_nil l).symm ▸ hrun
  | cons a l' ih =>
    obtain ⟨ha, hf⟩ := List.forall_mem_cons.mp hf
    have hnext := ih (hrun.snoc (ha s)) hf
    rwa [List.append_assoc] at hnext

/-- A run goes on with the steps of a function that can fail. -/
theorem Run.foldlM {f : σ → ι → Option σ} (hf : ∀ s a t, f s a = some t → step s a t)
    (hrun : Run step init l s) {l' : List ι} {t : σ} (ht : l'.foldlM f s = some t) :
    Run step init (l ++ l') t := by
  induction l' generalizing l s with
  | nil =>
    obtain rfl := Option.some.inj ht
    exact (List.append_nil l).symm ▸ hrun
  | cons a l' ih =>
    rw [List.foldlM_cons] at ht
    obtain ⟨s', hs', ht⟩ := Option.bind_eq_some_iff.mp ht
    have hnext := ih (hrun.snoc (hf s a s' hs')) ht
    rwa [List.append_assoc] at hnext

variable {P : σ → Prop}

/-- A run whose last state is found, and checked, by evaluation. -/
theorem Run.exists_of_any {f : σ → ι → Option σ} (hf : ∀ s a t, f s a = some t → step s a t)
    [DecidablePred P] (h : (l.foldlM f init).any (P ·)) :
    ∃ s, Run step init l s ∧ P s := by
  obtain ⟨s, hs, hP⟩ := (Option.any_eq_true _ _).mp h
  exact ⟨s, Run.nil.foldlM hf hs, of_decide_eq_true hP⟩

/-- A property of the labels and the state that every step keeps holds after every run. -/
theorem Run.invariant {I : List ι → σ → Prop} (hinit : I [] init)
    (hstep : ∀ l s a t, I l s → step s a t → I (l ++ [a]) t) (hrun : Run step init l s) :
    I l s := by
  induction hrun with
  | nil => exact hinit
  | snoc _ hs ih => exact hstep _ _ _ _ ih hs

/-- The invariant rule for the runs whose labels are all admissible. -/
theorem Run.invariant_of_forall {P : ι → Prop} {I : List ι → σ → Prop} (hinit : I [] init)
    (hstep : ∀ l s a t, I l s → P a → step s a t → I (l ++ [a]) t) (hlabels : ∀ a ∈ l, P a)
    (hrun : Run step init l s) : I l s := by
  induction hrun with
  | nil => exact hinit
  | snoc _ hs ih =>
    rw [List.forall_mem_append, List.forall_mem_singleton] at hlabels
    exact hstep _ _ _ _ (ih hlabels.1) hlabels.2 hs

/-- If every step from a state with the invariant is a step of another system between the images,
then so is every run. -/
theorem Run.simulates {τ : Type*} {step' : τ → ι → τ → Prop} {f : σ → τ} {I : σ → Prop}
    (hinit : I init) (hstep : ∀ s a t, I s → step s a t → I t ∧ step' (f s) a (f t))
    (hrun : Run step init l s) : I s ∧ Run step' (f init) l (f s) := by
  induction hrun with
  | nil => exact ⟨hinit, .nil⟩
  | snoc _ hs ih =>
    obtain ⟨hI, hs'⟩ := hstep _ _ _ ih.1 hs
    exact ⟨hI, ih.2.snoc hs'⟩

/-- If, under an invariant, a step leads to the property exactly under a condition that also keeps
the invariant, then the runs through states with the property are those whose steps meet the
condition. -/
theorem Run.and_iff_and {I : σ → Prop} {C : σ → ι → Prop} (hinit : I init)
    (hiff : ∀ s a t, I s → step s a t → (P t ↔ C s a))
    (hkeep : ∀ s a t, I s → step s a t → C s a → I t) :
    Run (fun s a t => step s a t ∧ P t) init l s ↔
      Run (fun s a t => step s a t ∧ C s a) init l s := by
  constructor
  · intro hrun
    refine (hrun.simulates (f := id) (I := I) hinit fun s a t hI hs => ?_).2
    have hC := (hiff s a t hI hs.1).mp hs.2
    exact ⟨hkeep s a t hI hs.1 hC, hs.1, hC⟩
  · intro hrun
    refine (hrun.simulates (f := id) (I := I) hinit fun s a t hI hs => ?_).2
    exact ⟨hkeep s a t hI hs.1 hs.2, hs.1, (hiff s a t hI hs.1).mpr hs.2⟩

/-- If a step keeps the property exactly under a condition on the state before it, then the
property holds in all states on the way exactly if every step meets the condition. -/
theorem forall_foldl_iff {f : σ → ι → σ} {C : σ → ι → Prop} (hinit : P init)
    (hstep : ∀ s a, P s → (P (f s a) ↔ C s a)) (l : List ι) :
    (∀ l₁ l₂, l = l₁ ++ l₂ → P (l₁.foldl f init)) ↔
      ∀ l₁ a l₂, l = l₁ ++ a :: l₂ → C (l₁.foldl f init) a := by
  constructor
  · intro h l₁ a l₂ heq
    refine (hstep _ a (h l₁ (a :: l₂) heq)).mp ?_
    have hnext := h (l₁ ++ [a]) l₂ (by rw [heq, List.append_assoc]; rfl)
    rwa [List.foldl_append] at hnext
  · intro h l₁
    -- the states on the way are reached one after the other
    induction l₁ using List.reverseRecOn with
    | nil => exact fun _ _ => hinit
    | append_singleton l₁ a ih =>
      intro l₂ heq
      have heq' : l = l₁ ++ a :: l₂ := by rw [heq, List.append_assoc]; rfl
      rw [List.foldl_append]
      exact (hstep _ a (ih (a :: l₂) heq')).mpr (h l₁ a l₂ heq')

end Transition
