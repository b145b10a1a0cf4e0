import Mathlib.Data.List.Basic
import Mathlib.Order.WellFounded

/-! Runs of a partial step function. An action list is one interleaving; a state
is reached when every action of the list was enabled in turn. `Along` says that a
condition held of the state before each step. Nothing here knows what the states
or the actions are. -/
namespace Guesthopper.Machine

variable {σ α : Type} {step : σ → α → Option σ}

def run (step : σ → α → Option σ) : σ → List α → Option σ
  | s,[] => some s
  | s,a::rest => do
      let next ← step s a
      run step next rest

def Along (step : σ → α → Option σ) (P : σ → α → Prop) : σ → List α → Prop
  | _,[] => True
  | s,a::rest => P s a ∧ ∀ next, step s a = some next → Along step P next rest

instance alongDecidable {P : σ → α → Prop} [∀ s a, Decidable (P s a)] :
    ∀ (s : σ) (actions : List α), Decidable (Along step P s actions)
  | _,[] => .isTrue trivial
  | s,a::rest =>
    match h : step s a with
    | none => decidable_of_iff (P s a) ⟨fun first => ⟨first,fun _ went => nomatch h.symm.trans went⟩,And.left⟩
    | some next =>
      have : Decidable (Along step P next rest) := alongDecidable next rest
      decidable_of_iff (P s a ∧ Along step P next rest)
        ⟨fun both => ⟨both.1,fun _ went => Option.some.inj (h.symm.trans went) ▸ both.2⟩,fun along => ⟨along.1,along.2 next h⟩⟩

theorem runCons {s t : σ} {a : α} {rest : List α} :
    run step s (a::rest) = some t ↔ ∃ next, step s a = some next ∧ run step next rest = some t := by
  simp only [run,bind,Option.bind_eq_some_iff]

theorem runAppend {s t : σ} {before after : List α} :
    run step s (before ++ after) = some t ↔
      ∃ mid, run step s before = some mid ∧ run step mid after = some t := by
  induction before generalizing s with
  | nil => simp [run]
  | cons a rest ih =>
    simp only [List.cons_append,runCons,ih]
    constructor
    · intro ⟨next,ha,mid,hm,ht⟩
      exact ⟨mid,⟨next,ha,hm⟩,ht⟩
    · intro ⟨mid,⟨next,ha,hm⟩,ht⟩
      exact ⟨next,ha,mid,hm,ht⟩

theorem alongIff {P : σ → α → Prop} {s : σ} {actions : List α} :
    Along step P s actions ↔ ∀ pre a post u, actions = pre ++ a::post → run step s pre = some u → P u a := by
  induction actions generalizing s with
  | nil => simp [Along]
  | cons b rest ih =>
    constructor
    · intro ⟨first,later⟩ pre a post u shape reached
      cases pre with
      | nil =>
        cases shape
        cases Option.some.inj reached
        exact first
      | cons c pre =>
        cases shape
        obtain ⟨next,hc,go⟩ := runCons.mp reached
        exact ih.mp (later next hc) pre a post u rfl go
    · intro all
      refine ⟨all [] b rest s rfl rfl,?_⟩
      intro next hb
      refine ih.mpr ?_
      intro pre a post u shape reached
      exact all (b::pre) a post u (by rw [shape]; rfl) (runCons.mpr ⟨next,hb,reached⟩)

theorem alongPrefix {P : σ → α → Prop} {s : σ} {pre actions : List α} (first : pre <+: actions)
    (along : Along step P s actions) : Along step P s pre := by
  obtain ⟨rest,rfl⟩ := first
  rw [alongIff] at along ⊢
  intro before a after u shape reached
  exact along before a (after ++ rest) u (by rw [shape,List.append_assoc]; rfl) reached

theorem alongAll {Q : α → Prop} {s : σ} {actions : List α} (all : ∀ a ∈ actions, Q a) :
    Along step (fun _ a => Q a) s actions := by
  refine alongIff.mpr ?_
  intro pre a post u shape _
  exact all a (by simp [shape])

theorem allOfAlong {Q : α → Prop} {s t : σ} {actions : List α} (along : Along step (fun _ a => Q a) s actions)
    (reached : run step s actions = some t) : ∀ a ∈ actions, Q a := by
  induction actions generalizing s with
  | nil => simp
  | cons a rest ih =>
    obtain ⟨next,ha,later⟩ := runCons.mp reached
    exact List.forall_mem_cons.mpr ⟨along.1,ih (along.2 next ha) later⟩

theorem alongAppend {P : σ → α → Prop} {s : σ} {before after : List α} (first : Along step P s before)
    (second : ∀ mid, run step s before = some mid → Along step P mid after) : Along step P s (before ++ after) := by
  induction before generalizing s with
  | nil => exact second s rfl
  | cons a rest ih =>
    refine ⟨first.1,?_⟩
    intro next ha
    refine ih (first.2 next ha) ?_
    intro mid reached
    exact second mid (runCons.mpr ⟨next,ha,reached⟩)

theorem runKeeps {I : σ → Prop} {s t : σ} {actions : List α}
    (keep : ∀ u a v, I u → step u a = some v → I v) (start : I s)
    (reached : run step s actions = some t) : I t := by
  induction actions generalizing s with
  | nil => cases Option.some.inj reached; exact start
  | cons a rest ih =>
    obtain ⟨next,ha,later⟩ := runCons.mp reached
    exact ih (keep s a next start ha) later

theorem runKeepsAlong {I : σ → Prop} {P : σ → α → Prop} {s t : σ} {actions : List α}
    (keep : ∀ u a v, I u → P u a → step u a = some v → I v) (start : I s)
    (along : Along step P s actions) (reached : run step s actions = some t) : I t := by
  induction actions generalizing s with
  | nil => cases Option.some.inj reached; exact start
  | cons a rest ih =>
    obtain ⟨next,ha,later⟩ := runCons.mp reached
    exact ih (keep s a next start along.1 ha) (along.2 next ha) later

theorem runHistoryFrom {I : List α → σ → Prop} {P : σ → α → Prop} {s u t : σ} {rest : List α} (done : List α)
    (keep : ∀ before v a w, run step s before = some v → I before v → P v a → step v a = some w → I (before ++ [a]) w)
    (so : run step s done = some u) (held : I done u) (along : Along step P u rest) (reached : run step u rest = some t) :
    I (done ++ rest) t := by
  induction rest generalizing done u with
  | nil =>
    cases Option.some.inj reached
    rw [List.append_nil]
    exact held
  | cons a rest ih =>
    obtain ⟨next,ha,later⟩ := runCons.mp reached
    have longer : run step s (done ++ [a]) = some next := runAppend.mpr ⟨u,so,runCons.mpr ⟨next,ha,rfl⟩⟩
    have whole := ih (done ++ [a]) longer (keep done u a next so held along.1 ha) (along.2 next ha) later
    rwa [List.append_assoc] at whole

-- What an invariant says may depend on the steps taken so far.
theorem runHistory {I : List α → σ → Prop} {P : σ → α → Prop} {s t : σ} {actions : List α}
    (keep : ∀ before v a w, run step s before = some v → I before v → P v a → step v a = some w → I (before ++ [a]) w)
    (first : I [] s) (along : Along step P s actions) (reached : run step s actions = some t) : I actions t :=
  runHistoryFrom [] keep rfl first along reached

/- A failure of the condition that no later step undoes can be read off the end
of the run: where the mark is absent, the condition held all along. -/
theorem alongOfUnmarked {I M : σ → Prop} {P : σ → α → Prop} {s t : σ} {actions : List α}
    (keep : ∀ u a v, I u → step u a = some v → I v)
    (mark : ∀ u a v, I u → ¬ P u a → step u a = some v → M v)
    (stay : ∀ u a v, I u → M u → step u a = some v → M v)
    (start : I s) (reached : run step s actions = some t) (clean : ¬ M t) :
    Along step P s actions := by
  induction actions generalizing s with
  | nil => trivial
  | cons a rest ih =>
    obtain ⟨next,ha,later⟩ := runCons.mp reached
    refine ⟨?_,fun other ho => ?_⟩
    · by_contra bad
      have pair := runKeeps (I := fun u => I u ∧ M u)
        (fun u b v both hv => ⟨keep u b v both.1 hv,stay u b v both.1 both.2 hv⟩)
        ⟨keep s a next start ha,mark s a next start bad ha⟩ later
      exact clean pair.2
    · cases Option.some.inj (ho.symm.trans ha)
      exact ih (keep s a next start ha) later

/- Where every unsettled state has an enabled step that keeps the invariant and lowers the
rank, some run of such steps settles. -/
theorem runSettles {ρ : Type} [Preorder ρ] [WellFoundedLT ρ] (rank : σ → ρ) {I Q : σ → Prop} {ok : α → Prop} {s : σ}
    (move : ∀ u, I u → Q u ∨ ∃ a v, ok a ∧ step u a = some v ∧ I v ∧ rank v < rank u) (start : I s) :
    ∃ actions t, (∀ a ∈ actions, ok a) ∧ run step s actions = some t ∧ I t ∧ Q t := by
  induction bound : rank s using WellFoundedLT.induction generalizing s with
  | ind r ih =>
    rcases move s start with settled | ⟨a,next,able,ha,keeps,lower⟩
    · exact ⟨[],s,by simp,rfl,start,settled⟩
    · obtain ⟨rest,t,all,later,done⟩ := ih _ (bound ▸ lower) keeps rfl
      exact ⟨a::rest,t,List.forall_mem_cons.mpr ⟨able,all⟩,runCons.mpr ⟨next,ha,later⟩,done⟩

theorem runEnds {P : σ → Prop} [DecidablePred P] {s : σ} {actions : List α}
    (found : (run step s actions).any (fun t => decide (P t)) = true) :
    ∃ t, run step s actions = some t ∧ P t := by
  obtain ⟨t,reached,holds⟩ := (Option.any_eq_true _ _).mp found
  exact ⟨t,reached,of_decide_eq_true holds⟩

end Guesthopper.Machine
