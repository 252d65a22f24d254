/-!
How computations that can fail end. A sequence of them returns when each of them does; two of them
end alike when both fail with one error, or when their results are related.
-/
namespace SkyCamera

theorem ok_ne_error {ε β : Type} {b : β} {e : ε} : (Except.ok b : Except ε β) ≠ .error e := nofun

theorem not_exists_ok {ε β : Type} {e : ε} : ¬ ∃ b : β, (Except.error e : Except ε β) = .ok b :=
  fun ⟨_, h⟩ => ok_ne_error h.symm

theorem bind_eq_ok {ε β γ : Type} {x : Except ε β} {next : β → Except ε γ} {result : γ} :
    x >>= next = .ok result ↔ ∃ value, x = .ok value ∧ next value = .ok result := by
  cases x with
  | error e => exact ⟨fun h => (nomatch h), fun ⟨_, h, _⟩ => (nomatch h)⟩
  | ok value => exact ⟨fun h => ⟨value, rfl, h⟩, fun ⟨_, h, hnext⟩ => Except.ok.inj h ▸ hnext⟩

theorem mapError_eq_ok {ε ε' β : Type} {x : Except ε β} {g : ε → ε'} {result : β} :
    x.mapError g = .ok result ↔ x = .ok result := by
  cases x with
  | error e => exact ⟨fun h => (nomatch h), fun h => (nomatch h)⟩
  | ok value => exact ⟨fun h => congrArg Except.ok (Except.ok.inj h),
      fun h => congrArg Except.ok (Except.ok.inj h)⟩

/-- Two computations that end in the same error, or in results that are related. -/
inductive EndAlike {ε β γ : Type} (related : β → γ → Prop) : Except ε β → Except ε γ → Prop
  | ok {b : β} {c : γ} (h : related b c) : EndAlike related (.ok b) (.ok c)
  | error (e : ε) : EndAlike related (.error e) (.error e)

theorem EndAlike.of_map_eq {ε β γ δ : Type} {x : Except ε β} {y : Except ε γ} {g : β → δ}
    {g' : γ → δ} (h : y.map g' = x.map g) : EndAlike (fun b c => g' c = g b) x y := by
  cases x with
  | error e =>
    cases y with
    | error e' =>
      cases h
      exact .error e
    | ok c => cases h
  | ok b =>
    cases y with
    | error e => cases h
    | ok c => exact .ok (Except.ok.inj h)

namespace EndAlike

variable {ε β γ : Type} {related : β → γ → Prop} {x : Except ε β} {y : Except ε γ}

theorem refl (x : Except ε β) : EndAlike (fun b c => b = c) x x := by
  cases x with
  | error e => exact .error e
  | ok b => exact .ok rfl

/-- Endings that are alike stay alike when both go on alike. -/
theorem bind {β' γ' : Type} {related' : β' → γ' → Prop} {next : β → Except ε β'}
    {next' : γ → Except ε γ'} (h : EndAlike related x y)
    (hnext : ∀ b c, x = .ok b → y = .ok c → related b c → EndAlike related' (next b) (next' c)) :
    EndAlike related' (x >>= next) (y >>= next') := by
  cases h with
  | ok h => exact hnext _ _ rfl rfl h
  | error e => exact .error e

theorem mapError {ε' : Type} (h : EndAlike related x y) (g : ε → ε') :
    EndAlike related (x.mapError g) (y.mapError g) := by
  cases h with
  | ok h => exact .ok h
  | error e => exact .error (g e)

theorem exists_left {c : γ} (h : EndAlike related x y) (hy : y = .ok c) :
    ∃ b, x = .ok b ∧ related b c := by
  subst hy
  cases h with
  | ok h => exact ⟨_, rfl, h⟩

theorem imp {related' : β → γ → Prop} (h : EndAlike related x y)
    (himp : ∀ b c, x = .ok b → y = .ok c → related b c → related' b c) :
    EndAlike related' x y := by
  cases h with
  | ok h => exact .ok (himp _ _ rfl rfl h)
  | error e => exact .error e

end EndAlike

/-- Two computations that both fail, or both end in results that are related. -/
inductive SucceedAlike {ε ε' β γ : Type} (related : β → γ → Prop) :
    Except ε β → Except ε' γ → Prop
  | ok {b : β} {c : γ} (h : related b c) : SucceedAlike related (.ok b) (.ok c)
  | error (e : ε) (e' : ε') : SucceedAlike related (.error e) (.error e')

/-- What is made of the results does not decide whether there are any. -/
theorem SucceedAlike.bind_ok {ε ε' δ β γ β' γ' : Type} {related : β → γ → Prop}
    {related' : β' → γ' → Prop} {x : Except ε β} {y : Except ε' γ} {next : β → β'}
    {next' : γ → γ'} {g : ε → δ} {g' : ε' → δ} (h : SucceedAlike related x y)
    (hnext : ∀ b c, related b c → related' (next b) (next' c)) :
    SucceedAlike related' (x.mapError g >>= fun b => .ok (next b))
      (y.mapError g' >>= fun c => .ok (next' c)) := by
  cases h with
  | ok h => exact .ok (hnext _ _ h)
  | error e e' => exact .error _ _

end SkyCamera
