import Mathlib

set_option autoImplicit false

namespace Sessions

-- A machine that is given calls: what a call leaves, if it returns, and the state to go on from.
variable {σ κ ω : Type} (perform : σ → κ → Option ω) (follow : σ → κ → ω → σ)

-- Every call returns, and what it leaves is as it is to be.
def AllMeet (meets : σ → κ → ω → Prop) (s : σ) : List κ → Prop
  | [] => True
  | call :: rest => ∃ outcome, perform s call = some outcome ∧ meets s call outcome ∧ AllMeet meets (follow s call outcome) rest

-- Every call is allowed in the state that the calls before it have left.
def AllAllowed (allowed : σ → κ → Prop) (s : σ) : List κ → Prop
  | [] => True
  | call :: rest => allowed s call ∧ ∀ outcome, perform s call = some outcome → AllAllowed allowed (follow s call outcome) rest

-- When allowed calls keep an invariant and do what they are to do, and other calls do not, the two are the same for every
-- sequence of calls.
theorem all_meet_iff (meets : σ → κ → ω → Prop) (allowed : σ → κ → Prop) (inv : σ → Prop)
    (good : ∀ s call, inv s → allowed s call → ∃ outcome, perform s call = some outcome ∧ meets s call outcome
      ∧ inv (follow s call outcome))
    (bad : ∀ s call, inv s → ¬ allowed s call → ∀ outcome, perform s call = some outcome → ¬ meets s call outcome)
    (calls : List κ) : ∀ s, inv s → (AllMeet perform follow meets s calls ↔ AllAllowed perform follow allowed s calls) := by
  induction calls with
  | nil => exact fun _ _ => Iff.rfl
  | cons call rest ih =>
      intro s here
      constructor
      · rintro ⟨outcome, result, met, later⟩
        have fine : allowed s call := by
          by_contra refused
          exact bad s call here refused outcome result met
        refine ⟨fine, fun outcome' result' => ?_⟩
        obtain rfl := Option.some.inj (result.symm.trans result')
        obtain ⟨outcome1, result1, -, kept⟩ := good s call here fine
        obtain rfl := Option.some.inj (result.symm.trans result1)
        exact (ih _ kept).mp later
      · rintro ⟨fine, later⟩
        obtain ⟨outcome, result, met, kept⟩ := good s call here fine
        exact ⟨outcome, result, met, (ih _ kept).mpr (later outcome result)⟩

end Sessions

namespace Relay

variable {σ π δ : Type}

-- What a row of inputs makes of a state, output by output.
def outs (step : σ → π → σ × δ) : σ → List π → List δ
  | _, [] => []
  | s, p :: rest => (step s p).2 :: outs step (step s p).1 rest

-- Whether some input is a bad one for the state it comes to.
def spoilt (step : σ → π → σ × δ) (bad : σ → π → Bool) : σ → List π → Bool
  | _, [] => false
  | s, p :: rest => bad s p || spoilt step bad (step s p).1 rest

-- The outputs are the right ones as long as no input is bad, and only then.
theorem outs_iff (step : σ → π → σ × δ) (bad : σ → π → Bool) (inv : σ → Prop) (ok : π → Prop) (right : π → δ)
    (keeps : ∀ s p, inv s → ok p → bad s p = false → (step s p).2 = right p ∧ inv (step s p).1)
    (spoils : ∀ s p, inv s → ok p → bad s p = true → (step s p).2 ≠ right p) (s : σ) (inputs : List π) (start : inv s)
    (all : ∀ p ∈ inputs, ok p) : outs step s inputs = inputs.map right ↔ spoilt step bad s inputs = false := by
  induction inputs generalizing s with
  | nil => exact iff_of_true rfl rfl
  | cons p rest ih =>
      have own := all p List.mem_cons_self
      rw [outs, List.map_cons, spoilt]
      cases here : bad s p with
      | true =>
          refine iff_of_false (fun same => spoils s p start own here (List.cons.inj same).1) ?_
          rw [Bool.true_or]
          decide
      | false =>
          obtain ⟨first, next⟩ := keeps s p start own here
          rw [first, Bool.false_or, ← ih (step s p).1 next fun q member => all q (List.mem_cons_of_mem p member)]
          exact ⟨fun same => (List.cons.inj same).2, congrArg (right p :: ·)⟩

end Relay
