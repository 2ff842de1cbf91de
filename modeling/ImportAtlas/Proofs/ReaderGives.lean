import Mathlib
import ImportAtlas.Source.Reader

/-!
What readers give when they give something.

Only the value counts here, not where the reader stops and what it leaves. The lemmas are
specifications: those of the readers that a reader is made of are put together by `mvcgen`.
-/

namespace ImportAtlas.Source

open Std.Do

set_option mvcgen.warning false

abbrev Reader.Gives {α : Type} (r : Reader α) (P : α → Prop) : Prop :=
  ⦃⌜True⌝⦄ r ⦃⇓? a => ⌜P a⌝⦄

namespace Reader

variable {α : Type} {P : α → Prop}

/-- Two readers one behind the other succeed if the second does where the first stops. -/
lemma run_bind_eq_ok_iff {β : Type} {r : Reader α} {f : α → Reader β} {st st'' : State} {b : β} :
    (r >>= f) st = .ok (b, st'') ↔ ∃ a st', r st = .ok (a, st') ∧ f a st' = .ok (b, st'') := by
  show (r st >>= fun x => f x.1 x.2) = _ ↔ _
  rcases r st with e | ⟨a, st'⟩
  · constructor
    · rintro ⟨⟩
    · rintro ⟨_, _, ⟨⟩, _⟩
  · constructor
    · exact fun h => ⟨a, st', rfl, h⟩
    · rintro ⟨_, _, ⟨⟩, h⟩
      exact h

lemma gives_iff {r : Reader α} : r.Gives P ↔ ∀ s a s', r s = .ok (a, s') → P a := by
  -- a weakest precondition without a failure is what holds of every result
  have hwp : ∀ s, (wp⟦r⟧ (⇓? a => ⌜P a⌝) s).down ↔ ∀ a s', r s = .ok (a, s') → P a := by
    intro s
    show (wp⟦r s⟧ (⇓? x => ⌜P x.1⌝)).down ↔ _
    rcases r s with e | ⟨a, s'⟩
    · constructor
      · rintro - _ _ h
        cases h
      · intro _
        trivial
    · constructor
      · rintro h _ _ ⟨⟩
        exact h
      · intro h
        exact h a s' rfl
  constructor
  · intro h s
    exact (hwp s).mp (h s trivial)
  · intro h s _
    exact (hwp s).mpr (h s)

lemma gives_mono {Q : α → Prop} {r : Reader α} (h : r.Gives P) (hPQ : ∀ a, P a → Q a) :
    r.Gives Q :=
  gives_iff.mpr fun s a s' hrun => hPQ a (gives_iff.mp h s a s' hrun)

lemma gives_and {Q : α → Prop} {r : Reader α} (hP : r.Gives P) (hQ : r.Gives Q) :
    r.Gives fun a => P a ∧ Q a :=
  gives_iff.mpr fun s a s' hrun => ⟨gives_iff.mp hP s a s' hrun, gives_iff.mp hQ s a s' hrun⟩

lemma gives_pure {a : α} (h : P a) : (pure a : Reader α).Gives P := by
  refine gives_iff.mpr ?_
  rintro s _ _ ⟨⟩
  exact h

lemma gives_bind {β : Type} {Q : β → Prop} {r : Reader α} {f : α → Reader β} (h : r.Gives P)
    (hf : ∀ a, P a → (f a).Gives Q) : (r >>= f).Gives Q := by
  refine gives_iff.mpr fun s b s'' hrun => ?_
  obtain ⟨a, s', ha, hrun⟩ := run_bind_eq_ok_iff.mp hrun
  exact gives_iff.mp (hf a (gives_iff.mp h s a s' ha)) s' b s'' hrun

lemma gives_true (r : Reader α) : r.Gives fun _ => True := gives_iff.mpr fun _ _ _ _ => trivial

@[spec]
lemma gives_stop : (stop : Reader α).Gives P := by
  refine gives_iff.mpr fun s a s' h => ?_
  cases h

/-- What each step keeps is kept by their iteration. -/
lemma gives_iterate {step : α → Reader (Option α)}
    (h : ∀ a, P a → (step a).Gives fun next => ∀ b ∈ next, P b) (n : ℕ) {a : α} (ha : P a) :
    (iterate step n a).Gives P := by
  refine gives_iff.mpr ?_
  induction n generalizing a with
  | zero =>
    intro s b s' hrun
    cases hrun
  | succ n ih =>
    intro s b s' hrun
    obtain ⟨next, t, hnext, hrun⟩ := run_bind_eq_ok_iff.mp hrun
    cases next with
    | none =>
      cases hrun
      exact ha
    | some c => exact ih (gives_iff.mp (h a ha) s _ _ hnext c rfl) _ _ _ hrun

@[spec]
lemma gives_orElse {first second : Reader α} (h₁ : first.Gives P) (h₂ : second.Gives P) :
    (orElse first second).Gives P := by
  refine gives_iff.mpr fun s a s' hrun => ?_
  unfold orElse at hrun
  rcases hfirst : first s with e | ⟨b, t⟩
  · rw [hfirst] at hrun
    rcases hsecond : second s with e' | ⟨b, t⟩
    · rw [hsecond] at hrun
      cases hrun
    · rw [hsecond] at hrun
      cases hrun
      exact gives_iff.mp h₂ _ _ _ hsecond
  · rw [hfirst] at hrun
    cases hrun
    exact gives_iff.mp h₁ _ _ _ hfirst

/-! ### Readers of no trees -/

@[spec] lemma gives_rest : rest.Gives fun _ => True := gives_true _

@[spec] lemma gives_position : position.Gives fun _ => True := gives_true _

@[spec] lemma gives_word? : word?.Gives fun _ => True := gives_true _

@[spec] lemma gives_symbol? : symbol?.Gives fun _ => True := gives_true _

@[spec] lemma gives_atWord (text : String) : (atWord text).Gives fun _ => True := gives_true _

@[spec] lemma gives_atSymbol (text : String) : (atSymbol text).Gives fun _ => True := gives_true _

@[spec] lemma gives_next (e : Expect) : (next e).Gives fun _ => True := gives_true _

@[spec] lemma gives_lexeme (e : Expect) : (lexeme e).Gives fun _ => True := gives_true _

end Reader

end ImportAtlas.Source
