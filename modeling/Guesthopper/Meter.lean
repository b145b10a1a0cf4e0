import Guesthopper.Machine

/-! What a run costs. Each action has a price; a budget that pays for every step until
the run is done bounds the price of all the steps taken before that. -/
namespace Guesthopper.Meter

variable {σ α : Type} {step : σ → α → Option σ} {cost : α → Nat}

def spent (cost : α → Nat) : List α → Nat
  | [] => 0
  | a::rest => cost a + spent cost rest

@[simp] theorem spentCons (a : α) (rest : List α) : spent cost (a::rest) = cost a + spent cost rest := rfl

theorem runSpends {I D : σ → Prop} {P : σ → α → Prop} {s t : σ} {actions : List α} (budget : σ → Nat)
    (pay : ∀ u a v, I u → P u a → step u a = some v → D v ∨ (I v ∧ cost a + budget v ≤ budget u))
    (stay : ∀ u a v, D u → step u a = some v → D v) (start : I s) (along : Machine.Along step P s actions)
    (reached : Machine.run step s actions = some t) : D t ∨ (I t ∧ spent cost actions + budget t ≤ budget s) := by
  induction actions generalizing s with
  | nil =>
    cases Option.some.inj reached
    exact .inr ⟨start,by simp [spent]⟩
  | cons a rest ih =>
    obtain ⟨next,ha,later⟩ := Machine.runCons.mp reached
    rcases pay s a next start along.1 ha with done | ⟨keeps,paid⟩
    · exact .inl (Machine.runKeeps stay done later)
    · rcases ih keeps (along.2 next ha) later with done | ⟨kept,within⟩
      · exact .inl done
      · refine .inr ⟨kept,?_⟩
        rw [spentCons]
        omega

end Guesthopper.Meter
