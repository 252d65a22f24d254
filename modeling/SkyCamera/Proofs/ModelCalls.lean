import Mathlib.Data.Set.Insert
import SkyCamera.LeastSquares.Model

/-!
Computations that reach a model by calls alone. The next call may depend on every answer so far, so
one such computation stands for the run with each model. The log of a run holds the vectors that
the constraint returned and those at which the model was evaluated, in the order of the calls.
-/
namespace SkyCamera

/-- A call to a model, with the type of its answer. -/
inductive Call (α : Type) (m n : Nat) : Type → Type
  | constrain (p : Vector α m) : Call α m n (Vector α m)
  | values (p : Vector α m) : Call α m n (Vector α n)
  | closedForm (p : Vector α m) : Call α m n (Mat α n m)
  | steps (p : Vector α m) : Call α m n (List α)

inductive Calls (α : Type) (m n : Nat) (β : Type) : Type 1
  | done (result : β)
  | ask {γ : Type} (call : Call α m n γ) (next : γ → Calls α m n β)

inductive Event (α : Type) (m : Nat)
  | constrained (result : Vector α m)
  | evaluated (point : Vector α m)

/-- In a log, nothing is evaluated at a vector that the constraint has not returned before. -/
def Event.ConstrainedFirst {α : Type} {m : Nat} (log : List (Event α m)) : Prop :=
  ∀ before p after, log = before ++ .evaluated p :: after → .constrained p ∈ before

def Derivative.mode {α : Type} {m n : Nat} : Derivative α m n → JacobianMode
  | .closedForm _ => .analytic
  | .forwardDifference => .forwardDifference
  | .centralDifference => .centralDifference

namespace Call

variable {α γ : Type} {m n : Nat}

def event : Call α m n γ → γ → Event α m
  | .constrain _, result => .constrained result
  | .values p, _ | .closedForm p, _ | .steps p, _ => .evaluated p

def learn (known : Set (Vector α m)) : Call α m n γ → γ → Set (Vector α m)
  | .constrain _, result => insert result known
  | .values _, _ | .closedForm _, _ | .steps _, _ => known

def Permitted (known : Set (Vector α m)) : Call α m n γ → Prop
  | .constrain _ => True
  | .values p | .closedForm p | .steps p => p ∈ known

theorem subset_learn (known : Set (Vector α m)) (call : Call α m n γ) (answer : γ) :
    known ⊆ call.learn known answer := by
  cases call with
  | constrain p => exact Set.subset_insert answer known
  | values p | closedForm p | steps p => exact subset_rfl

/-- What is learned from a call is in its event. -/
theorem mem_learn {known : Set (Vector α m)} {call : Call α m n γ} {answer : γ} {p : Vector α m}
    (hp : p ∈ call.learn known answer) :
    p ∈ known ∨ call.event answer = .constrained p := by
  cases call with
  | constrain q =>
    rcases Set.mem_insert_iff.mp hp with rfl | hp
    · exact Or.inr rfl
    · exact Or.inl hp
  | values q | closedForm q | steps q => exact Or.inl hp

theorem mem_of_event_eq {known : Set (Vector α m)} {call : Call α m n γ} {answer : γ}
    {p : Vector α m} (hcall : call.Permitted known) (hp : call.event answer = .evaluated p) :
    p ∈ known := by
  cases call with
  | constrain q => cases hp
  | values q | closedForm q | steps q =>
    cases hp
    exact hcall

end Call

namespace Model

variable {α : Type} [Scalar α] {m n : Nat} (model : Model α m n)

def closedForm (p : Vector α m) : Mat α n m :=
  match model.derivative with
  | .closedForm f => f p
  | .forwardDifference | .centralDifference => Mat.zero

def answer {γ : Type} : Call α m n γ → γ
  | .constrain p => model.constrain p
  | .values p => model.values p
  | .closedForm p => model.closedForm p
  | .steps p => model.steps p

/-- Two models with one constraint that are the same wherever this constraint leads. -/
structure AgreesWith (other : Model α m n) : Prop where
  constrain_eq : other.constrain = model.constrain
  mode_eq : other.derivative.mode = model.derivative.mode
  values_eq : ∀ p, other.values (model.constrain p) = model.values (model.constrain p)
  steps_eq : ∀ p, other.steps (model.constrain p) = model.steps (model.constrain p)
  closedForm_eq : ∀ p, other.closedForm (model.constrain p) = model.closedForm (model.constrain p)

variable {model} {other : Model α m n}

theorem answer_constrained {γ : Type} {call : Call α m n γ} {p : Vector α m}
    (hp : call.event (model.answer call) = .constrained p) : p ∈ Set.range model.constrain := by
  cases call with
  | constrain q =>
    cases hp
    exact Set.mem_range_self q
  | values q | closedForm q | steps q => cases hp

/-- On permitted calls two models that agree there answer alike. -/
theorem AgreesWith.answer_eq {γ : Type} (hagree : model.AgreesWith other) {call : Call α m n γ}
    (hcall : call.Permitted (Set.range model.constrain)) :
    other.answer call = model.answer call := by
  cases call with
  | constrain p => exact congrFun hagree.constrain_eq p
  | values p =>
    obtain ⟨q, rfl⟩ := hcall
    exact hagree.values_eq q
  | closedForm p =>
    obtain ⟨q, rfl⟩ := hcall
    exact hagree.closedForm_eq q
  | steps p =>
    obtain ⟨q, rfl⟩ := hcall
    exact hagree.steps_eq q

end Model

namespace Calls

variable {α : Type} {m n : Nat} {β δ : Type}

def bind (c : Calls α m n β) (f : β → Calls α m n δ) : Calls α m n δ :=
  match c with
  | .done result => f result
  | .ask call next => .ask call fun answer => (next answer).bind f

instance : Monad (Calls α m n) where
  pure := .done
  bind := .bind

theorem bind_done (c : Calls α m n β) : (c.bind fun result => .done result) = c := by
  induction c with
  | done result => rfl
  | ask call next ih => exact congrArg (Calls.ask call) (funext ih)

theorem bind_bind {ε : Type} (c : Calls α m n β) (f : β → Calls α m n δ)
    (g : δ → Calls α m n ε) :
    (c.bind f).bind g = c.bind fun result => (f result).bind g := by
  induction c with
  | done result => rfl
  | ask call next ih => exact congrArg (Calls.ask call) (funext ih)

instance : LawfulMonad (Calls α m n) :=
  LawfulMonad.mk' (Calls α m n) bind_done (fun _ _ => rfl) bind_bind

def constrain (p : Vector α m) : Calls α m n (Vector α m) := .ask (.constrain p) .done

def values (p : Vector α m) : Calls α m n (Vector α n) := .ask (.values p) .done

def closedForm (p : Vector α m) : Calls α m n (Mat α n m) := .ask (.closedForm p) .done

def steps (p : Vector α m) : Calls α m n (List α) := .ask (.steps p) .done

section Run

variable [Scalar α] (model : Model α m n)

def run : Calls α m n β → β
  | .done result => result
  | .ask call next => (next (model.answer call)).run

def log : Calls α m n β → List (Event α m)
  | .done _ => []
  | .ask call next => call.event (model.answer call) :: (next (model.answer call)).log

@[simp] theorem run_pure (result : β) : (pure result : Calls α m n β).run model = result := rfl

@[simp] theorem run_bind (c : Calls α m n β) (f : β → Calls α m n δ) :
    (c >>= f).run model = (f (c.run model)).run model := by
  induction c with
  | done result => rfl
  | ask call next ih => exact ih (model.answer call)

@[simp] theorem run_constrain (p : Vector α m) :
    (constrain p).run model = model.constrain p := rfl

@[simp] theorem run_values (p : Vector α m) : (values p).run model = model.values p := rfl

@[simp] theorem run_closedForm (p : Vector α m) :
    (closedForm p).run model = model.closedForm p := rfl

@[simp] theorem run_steps (p : Vector α m) : (steps p).run model = model.steps p := rfl

@[simp] theorem run_ofFnM {k : Nat} (f : Fin k → Calls α m n β) :
    (Vector.ofFnM f).run model = Vector.ofFn fun i => (f i).run model := by
  induction k with
  | zero => simp
  | succ k ih =>
    rw [Vector.ofFnM_succ, run_bind, run_bind, run_pure, ih, Vector.ofFn_succ]
    rfl

theorem constrained_of_mem_log {c : Calls α m n β} {p : Vector α m}
    (hp : .constrained p ∈ c.log model) : p ∈ Set.range model.constrain := by
  induction c with
  | done result => cases hp
  | ask call next ih =>
    rcases List.mem_cons.mp hp with hp | hp
    · exact Model.answer_constrained hp.symm
    · exact ih (model.answer call) hp

end Run

/-- Whatever the answers are, every call is permitted, and the result satisfies `post` together with
the vectors that are known in the end. -/
def Ensures (post : β → Set (Vector α m) → Prop) (known : Set (Vector α m)) :
    Calls α m n β → Prop
  | .done result => post result known
  | .ask call next =>
    call.Permitted known ∧ ∀ answer, (next answer).Ensures post (call.learn known answer)

def Safe (known : Set (Vector α m)) (c : Calls α m n β) : Prop := c.Ensures (fun _ _ => True) known

section Rules

variable {known : Set (Vector α m)} {post : β → Set (Vector α m) → Prop}

theorem ensures_pure {result : β} (h : post result known) :
    (pure result : Calls α m n β).Ensures post known := h

/-- The vectors that were known before remain known. -/
theorem ensures_bind {mid : δ → Set (Vector α m) → Prop} {c : Calls α m n δ}
    {f : δ → Calls α m n β} (hc : c.Ensures mid known)
    (hf : ∀ result later, known ⊆ later → mid result later → (f result).Ensures post later) :
    (c >>= f).Ensures post known := by
  induction c generalizing known with
  | done result => exact hf result known subset_rfl hc
  | ask call next ih =>
    refine ⟨hc.1, fun answer => ih answer (hc.2 answer) fun result later hlater hmid => ?_⟩
    exact hf result later ((call.subset_learn known answer).trans hlater) hmid

theorem ensures_constrain (p : Vector α m) :
    (constrain p : Calls α m n _).Ensures (fun result later => result ∈ later) known :=
  ⟨trivial, fun answer => Set.mem_insert answer known⟩

variable {p : Vector α m} (hp : p ∈ known)
include hp

theorem safe_values : (values p : Calls α m n _).Safe known := ⟨hp, fun _ => trivial⟩

theorem safe_closedForm : (closedForm p : Calls α m n _).Safe known := ⟨hp, fun _ => trivial⟩

theorem safe_steps : (steps p : Calls α m n _).Safe known := ⟨hp, fun _ => trivial⟩

omit hp

theorem safe_ofFnM {k : Nat} {f : Fin k → Calls α m n β}
    (hf : ∀ i later, known ⊆ later → (f i).Safe later) : (Vector.ofFnM f).Safe known := by
  induction k generalizing known with
  | zero =>
    rw [Vector.ofFnM_zero]
    exact ensures_pure trivial
  | succ k ih =>
    rw [Vector.ofFnM_succ]
    have hinit := ih fun i later hlater => hf i.castSucc later hlater
    refine ensures_bind hinit fun _ later hlater _ => ?_
    exact ensures_bind (hf (Fin.last k) later hlater) fun _ _ _ _ => ensures_pure trivial

end Rules

section Facts

variable [Scalar α] {model other : Model α m n} {known : Set (Vector α m)}
  {post : β → Set (Vector α m) → Prop} {c : Calls α m n β}

/-- What is known in the end was known before or has been returned by the constraint. -/
theorem Ensures.post_run (h : c.Ensures post known) :
    ∃ later, post (c.run model) later ∧
      ∀ p ∈ later, p ∈ known ∨ .constrained p ∈ c.log model := by
  induction c generalizing known with
  | done result => exact ⟨known, h, fun p hp => Or.inl hp⟩
  | ask call next ih =>
    obtain ⟨later, hpost, hlater⟩ := ih (model.answer call) (h.2 (model.answer call))
    refine ⟨later, hpost, fun p hp => ?_⟩
    rcases hlater p hp with hp | hp
    · rcases Call.mem_learn hp with hp | hp
      · exact Or.inl hp
      · exact Or.inr (List.mem_cons.mpr (Or.inl hp.symm))
    · exact Or.inr (List.mem_cons_of_mem _ hp)

/-- Each vector that is evaluated was known, or is in the log as constrained before. -/
theorem Ensures.mem_of_evaluated (h : c.Ensures post known) {before after : List (Event α m)}
    {p : Vector α m} (hlog : c.log model = before ++ .evaluated p :: after) :
    p ∈ known ∨ .constrained p ∈ before := by
  induction c generalizing known before with
  | done result => simp [log] at hlog
  | ask call next ih =>
    cases before with
    | nil =>
      have hevent := (List.cons.inj hlog).1
      exact Or.inl (Call.mem_of_event_eq h.1 hevent)
    | cons event before =>
      obtain ⟨rfl, htail⟩ := List.cons.inj hlog
      rcases ih (model.answer call) (h.2 (model.answer call)) htail with hp | hp
      · rcases Call.mem_learn hp with hp | hp
        · exact Or.inl hp
        · exact Or.inr (List.mem_cons.mpr (Or.inl hp.symm))
      · exact Or.inr (List.mem_cons_of_mem _ hp)

theorem Ensures.constrainedFirst (h : c.Ensures post ∅) :
    Event.ConstrainedFirst (c.log model) := by
  intro before p after hlog
  rcases h.mem_of_evaluated hlog with hp | hp
  · cases hp
  · exact hp

theorem Ensures.mem_range_of_evaluated (h : c.Ensures post ∅) {p : Vector α m}
    (hp : .evaluated p ∈ c.log model) : p ∈ Set.range model.constrain := by
  obtain ⟨before, after, hlog⟩ := List.append_of_mem hp
  have hbefore : .constrained p ∈ before := h.constrainedFirst before p after hlog
  refine constrained_of_mem_log model (c := c) ?_
  rw [hlog]
  exact List.mem_append_left _ hbefore

/-- Models that agree where the constraint leads cannot be told apart. -/
theorem Ensures.run_eq (h : c.Ensures post known) (hagree : model.AgreesWith other)
    (hknown : known ⊆ Set.range model.constrain) : c.run other = c.run model := by
  induction c generalizing known with
  | done result => rfl
  | ask call next ih =>
    have hpermitted : call.Permitted (Set.range model.constrain) := by
      cases call with
      | constrain p => trivial
      | values p | closedForm p | steps p => exact hknown h.1
    have hlearn : call.learn known (model.answer call) ⊆ Set.range model.constrain := by
      intro p hp
      rcases Call.mem_learn hp with hp | hp
      · exact hknown hp
      · exact Model.answer_constrained hp
    simp only [run, hagree.answer_eq hpermitted]
    exact ih (model.answer call) (h.2 (model.answer call)) hlearn

end Facts

end Calls
end SkyCamera
