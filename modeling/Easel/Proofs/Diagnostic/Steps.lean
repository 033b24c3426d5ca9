import Easel.Description.Basic

/-! What steps that may fail come to when they are put one after the other. -/

namespace Easel.Except

variable {ε ε' β γ : Type} {first : Except ε β} {next : β → Except ε γ} {c : γ} {e : ε}

theorem bind_eq_ok_iff : (first >>= next) = .ok c ↔ ∃ b, first = .ok b ∧ next b = .ok c := by
  cases first <;> simp [bind, Except.bind]

theorem bind_eq_error_iff :
    (first >>= next) = .error e ↔ first = .error e ∨ ∃ b, first = .ok b ∧ next b = .error e := by
  cases first <;> simp [bind, Except.bind]

theorem mapError_eq_ok_iff {f : ε → ε'} {b : β} : first.mapError f = .ok b ↔ first = .ok b := by
  cases first with
  | error e => exact ⟨nofun, nofun⟩
  | ok d => constructor <;> (rintro ⟨⟩; rfl)

theorem mapError_eq_error_iff {f : ε → ε'} {e' : ε'} :
    first.mapError f = .error e' ↔ ∃ e, first = .error e ∧ f e = e' := by
  cases first with
  | error e =>
    constructor
    · intro h
      exact ⟨e, rfl, Except.error.inj h⟩
    · rintro ⟨e, ⟨⟩, rfl⟩
      rfl
  | ok d => exact ⟨nofun, by rintro ⟨_, ⟨⟩, _⟩⟩

theorem toOption_eq_some_iff {b : β} : first.toOption = some b ↔ first = .ok b := by
  cases first with
  | error => exact ⟨nofun, nofun⟩
  | ok c => constructor <;> (rintro ⟨⟩; rfl)

end Easel.Except

namespace Easel

/-- Outcomes of one kind, with related results or with related errors. -/
inductive Agree {ε β γ : Type} (E : ε → ε → Prop) (R : β → γ → Prop) :
    Except ε β → Except ε γ → Prop
  | ok {b : β} {c : γ} (h : R b c) : Agree E R (.ok b) (.ok c)
  | error {e e' : ε} (h : E e e') : Agree E R (.error e) (.error e')

theorem Agree.bind {ε β γ β' γ' : Type} {E : ε → ε → Prop} {R : β → β' → Prop}
    {S : γ → γ' → Prop} {first : Except ε β} {first' : Except ε β'} {next : β → Except ε γ}
    {next' : β' → Except ε γ'} (hfirst : Agree E R first first')
    (hnext : ∀ b b', R b b' → Agree E S (next b) (next' b')) :
    Agree E S (first >>= next) (first' >>= next') := by
  cases hfirst with
  | ok h => exact hnext _ _ h
  | error h => exact .error h

theorem Agree.exists_ok {ε β γ : Type} {E : ε → ε → Prop} {R : β → γ → Prop} {first : Except ε β}
    {first' : Except ε γ} (h : Agree E R first first') {b : β} (hfirst : first = .ok b) :
    ∃ c, first' = .ok c ∧ R b c := by
  subst hfirst
  cases h with
  | ok h => exact ⟨_, rfl, h⟩

end Easel
