import Guesthopper.Machine
import Mathlib.Algebra.Order.BigOperators.Group.List
import Mathlib.Algebra.Order.Ring.Nat
import Mathlib.Data.List.Nodup

/-! Machines that run side by side, each under a key of its own. One of them acts, or all of
them take a step together; none sees another. What a machine has lived through since it was
started is read off the common history, and is a run of that machine alone. -/
namespace Guesthopper.Pool

variable {κ σ α : Type} [DecidableEq κ]

inductive Event (κ α : Type) where
  | spawn (k : κ)
  | act (k : κ) (a : α)
  | every (a : α)
  | drop (k : κ)
  deriving DecidableEq

def keys (live : List (κ × σ)) : List κ := live.map Prod.fst

def alter (k : κ) (t : σ) (live : List (κ × σ)) : List (κ × σ) := live.map (fun p => if p.1 = k then (k,t) else p)

def sweep (own : κ → σ → Option σ) : List (κ × σ) → Option (List (κ × σ))
  | [] => some []
  | (k,s)::rest => do
    let t ← own k s
    let more ← sweep own rest
    some ((k,t)::more)

def without (k : κ) (live : List (κ × σ)) : List (κ × σ) := live.filter (fun p => p.1 ≠ k)

def step (own : κ → σ → α → Option σ) (first : κ → σ) (live : List (κ × σ)) : Event κ α → Option (List (κ × σ))
  | .spawn k => if k ∈ keys live then none else some (live ++ [(k,first k)])
  | .act k a => do
    let s ← live.lookup k
    let t ← own k s a
    some (alter k t live)
  | .every a => sweep (fun k s => own k s a) live
  | .drop k => if k ∈ keys live then some (without k live) else none

variable {own : κ → σ → α → Option σ} {first : κ → σ} {live next : List (κ × σ)} {k : κ} {s t : σ} {a : α}

theorem lookupMem (h : live.lookup k = some s) : (k,s) ∈ live := by
  induction live with
  | nil => cases h
  | cons p rest ih =>
    obtain ⟨j,u⟩ := p
    simp only [List.lookup_cons] at h
    split at h
    · rename_i same
      cases Option.some.inj h
      rw [eq_of_beq same]
      exact List.mem_cons_self
    · exact List.mem_cons_of_mem _ (ih h)

theorem memLookup (single : (keys live).Nodup) (h : (k,s) ∈ live) : live.lookup k = some s := by
  induction live with
  | nil => cases h
  | cons p rest ih =>
    obtain ⟨j,u⟩ := p
    obtain ⟨absent,later⟩ := List.nodup_cons.mp single
    rw [List.lookup_cons]
    rcases List.mem_cons.mp h with same | inside
    · cases same
      simp
    · have other : (k == j) = false := by
        refine beq_false_of_ne ?_
        intro same
        subst same
        exact absent (List.mem_map.mpr ⟨_,inside,rfl⟩)
      simp only [other]
      exact ih later inside

theorem sameState (single : (keys live).Nodup) (h : (k,s) ∈ live) (other : (k,t) ∈ live) : s = t :=
  Option.some.inj ((memLookup single h).symm.trans (memLookup single other))

theorem alterMem {p : κ × σ} (h : p ∈ alter k t live) : p = (k,t) ∨ (p ∈ live ∧ p.1 ≠ k) := by
  obtain ⟨q,inside,made⟩ := List.mem_map.mp h
  split at made
  · exact .inl made.symm
  · rename_i other
    subst made
    exact .inr ⟨inside,other⟩

theorem alterKeys : keys (alter k t live) = keys live := by
  simp only [keys,alter,List.map_map]
  refine List.map_congr_left ?_
  intro p _
  simp only [Function.comp_apply]
  split
  · rename_i same; exact same.symm
  · rfl

omit [DecidableEq κ] in
theorem sweepMem {f : κ → σ → Option σ} (h : sweep f live = some next) :
    keys next = keys live ∧ ∀ p ∈ next, ∃ s, (p.1,s) ∈ live ∧ f p.1 s = some p.2 := by
  induction live generalizing next with
  | nil => cases Option.some.inj h; exact ⟨rfl,by simp⟩
  | cons q rest ih =>
    obtain ⟨j,u⟩ := q
    obtain ⟨v,went,later⟩ := Option.bind_eq_some_iff.mp h
    obtain ⟨more,swept,last⟩ := Option.bind_eq_some_iff.mp later
    cases Option.some.inj last
    obtain ⟨same,each⟩ := ih swept
    refine ⟨by rw [keys,List.map_cons,← keys,same]; rfl,?_⟩
    intro p inside
    rcases List.mem_cons.mp inside with rfl | inside
    · exact ⟨u,List.mem_cons_self,went⟩
    · obtain ⟨w,old,moved⟩ := each p inside
      exact ⟨w,List.mem_cons_of_mem _ old,moved⟩

omit [DecidableEq κ] in
theorem sweepSome {f : κ → σ → Option σ} (all : ∀ p ∈ live, ∃ t, f p.1 p.2 = some t) : ∃ next, sweep f live = some next := by
  induction live with
  | nil => exact ⟨[],rfl⟩
  | cons q rest ih =>
    obtain ⟨j,u⟩ := q
    obtain ⟨t,went⟩ := all _ List.mem_cons_self
    obtain ⟨more,swept⟩ := ih (fun p inside => all p (List.mem_cons_of_mem _ inside))
    have moved : f j u = some t := went
    exact ⟨(j,t)::more,by simp only [sweep,moved,swept,bind,Option.bind]⟩

theorem stepSingle {e : Event κ α} (h : step own first live e = some next) (single : (keys live).Nodup) : (keys next).Nodup := by
  cases e with
  | spawn j =>
    simp only [step] at h
    split at h <;> try contradiction
    rename_i absent
    cases Option.some.inj h
    rw [keys,List.map_append]
    exact List.Nodup.append single (List.nodup_singleton _) (List.disjoint_singleton.mpr absent)
  | act j a =>
    obtain ⟨_,_,later⟩ := Option.bind_eq_some_iff.mp h
    obtain ⟨_,_,last⟩ := Option.bind_eq_some_iff.mp later
    cases Option.some.inj last
    rwa [alterKeys]
  | every a =>
    rw [(sweepMem h).1]
    exact single
  | drop j =>
    simp only [step] at h
    split at h <;> try contradiction
    cases Option.some.inj h
    exact single.sublist (List.Sublist.map _ List.filter_sublist)

def since (k : κ) (done : List α) : Event κ α → List α
  | .spawn j => if j = k then [] else done
  | .act j a => if j = k then done ++ [a] else done
  | .every a => done ++ [a]
  | .drop _ => done

def share (k : κ) (events : List (Event κ α)) : List α := events.foldl (since k) []

theorem shareSnoc (events : List (Event κ α)) (e : Event κ α) : share k (events ++ [e]) = since k (share k events) e := by
  simp [share]

structure Apart (own : κ → σ → α → Option σ) (first : κ → σ) (events : List (Event κ α)) (live : List (κ × σ)) : Prop where
  single : (keys live).Nodup
  alone : ∀ p ∈ live, Machine.run (own p.1) (first p.1) (share p.1 events) = some p.2

theorem apartNil : Apart own first [] [] := ⟨List.nodup_nil,by simp⟩

theorem runSnoc {f : σ → α → Option σ} {u : σ} {done : List α} (so : Machine.run f u done = some s) (h : f s a = some t) :
    Machine.run f u (done ++ [a]) = some t :=
  Machine.runAppend.mpr ⟨s,so,Machine.runCons.mpr ⟨t,h,rfl⟩⟩

theorem stepApart {events : List (Event κ α)} {e : Event κ α} (apart : Apart own first events live)
    (h : step own first live e = some next) : Apart own first (events ++ [e]) next := by
  refine ⟨stepSingle h apart.single,?_⟩
  intro p inside
  rw [shareSnoc]
  cases e with
  | spawn j =>
    simp only [step] at h
    split at h <;> try contradiction
    rename_i absent
    cases Option.some.inj h
    rw [since]
    rcases List.mem_append.mp inside with old | new
    · have other : j ≠ p.1 := by
        intro same
        exact absent (List.mem_map.mpr ⟨p,old,same.symm⟩)
      rw [if_neg other]
      exact apart.alone p old
    · cases List.mem_singleton.mp new
      rw [if_pos rfl]
      rfl
  | act j a =>
    obtain ⟨s,found,later⟩ := Option.bind_eq_some_iff.mp h
    obtain ⟨t,went,last⟩ := Option.bind_eq_some_iff.mp later
    cases Option.some.inj last
    rw [since]
    rcases alterMem inside with rfl | ⟨old,other⟩
    · rw [if_pos rfl]
      exact runSnoc (apart.alone (j,s) (lookupMem found)) went
    · rw [if_neg (Ne.symm other)]
      exact apart.alone p old
  | every a =>
    obtain ⟨s,old,went⟩ := (sweepMem h).2 p inside
    exact runSnoc (apart.alone (p.1,s) old) went
  | drop j =>
    simp only [step] at h
    split at h <;> try contradiction
    cases Option.some.inj h
    exact apart.alone p (List.mem_of_mem_filter inside)

theorem runApart {events : List (Event κ α)} (reached : Machine.run (step own first) [] events = some live) :
    Apart own first events live :=
  Machine.runHistory (P := fun _ _ => True) (fun _ _ _ _ _ apart _ h => stepApart apart h) apartNil
    (Machine.alongAll (fun _ _ => trivial)) reached

def part (k : κ) : List (Event κ α) → List α
  | [] => []
  | .act j a::rest => if j = k then a::part k rest else part k rest
  | .every a::rest => a::part k rest
  | _::rest => part k rest

theorem absentStays {e : Event κ α} (h : step own first live e = some next) (other : e ≠ .spawn k) (absent : k ∉ keys live) :
    k ∉ keys next := by
  cases e with
  | spawn j =>
    simp only [step] at h
    split at h <;> try contradiction
    cases Option.some.inj h
    have different : k ≠ j := fun same => other (by rw [same])
    simpa [keys,different] using absent
  | act j a =>
    obtain ⟨_,_,later⟩ := Option.bind_eq_some_iff.mp h
    obtain ⟨_,_,last⟩ := Option.bind_eq_some_iff.mp later
    cases Option.some.inj last
    rwa [alterKeys]
  | every a =>
    rw [(sweepMem h).1]
    exact absent
  | drop j =>
    simp only [step] at h
    split at h <;> try contradiction
    cases Option.some.inj h
    intro inside
    obtain ⟨p,kept,same⟩ := List.mem_map.mp inside
    exact absent (List.mem_map.mpr ⟨p,List.mem_of_mem_filter kept,same⟩)

theorem stepFollows {e : Event κ α} (h : step own first live e = some next) (other : e ≠ .spawn k) (single : (keys live).Nodup)
    (inside : (k,s) ∈ live) : k ∉ keys next ∨ ∃ u, (k,u) ∈ next ∧ Machine.run (own k) s (part k [e]) = some u := by
  cases e with
  | spawn j =>
    simp only [step] at h
    split at h <;> try contradiction
    cases Option.some.inj h
    exact .inr ⟨s,List.mem_append_left _ inside,rfl⟩
  | act j a =>
    obtain ⟨v,found,later⟩ := Option.bind_eq_some_iff.mp h
    obtain ⟨t,went,last⟩ := Option.bind_eq_some_iff.mp later
    cases Option.some.inj last
    right
    by_cases same : j = k
    · subst same
      have now : v = s := sameState single (lookupMem found) inside
      subst now
      refine ⟨t,List.mem_map.mpr ⟨(j,v),inside,by simp⟩,?_⟩
      simp only [part,if_pos]
      exact Machine.runCons.mpr ⟨t,went,rfl⟩
    · refine ⟨s,List.mem_map.mpr ⟨(k,s),inside,by simp [Ne.symm same]⟩,?_⟩
      simp only [part,if_neg same]
      rfl
  | every a =>
    obtain ⟨same,each⟩ := sweepMem h
    have listed : k ∈ keys next := by
      rw [same]
      exact List.mem_map.mpr ⟨(k,s),inside,rfl⟩
    obtain ⟨⟨k,u⟩,kept,rfl⟩ := List.mem_map.mp listed
    obtain ⟨v,old,went⟩ := each _ kept
    have now : v = s := sameState single old inside
    subst now
    exact .inr ⟨u,kept,Machine.runCons.mpr ⟨u,went,rfl⟩⟩
  | drop j =>
    simp only [step] at h
    split at h <;> try contradiction
    cases Option.some.inj h
    by_cases same : j = k
    · subst same
      left
      intro listed
      obtain ⟨p,kept,now⟩ := List.mem_map.mp listed
      have off := (List.mem_filter.mp kept).2
      simp [now] at off
    · exact .inr ⟨s,List.mem_filter.mpr ⟨inside,by simp [Ne.symm same]⟩,rfl⟩

theorem partCons (k : κ) (e : Event κ α) (rest : List (Event κ α)) : part k (e::rest) = part k [e] ++ part k rest := by
  cases e with
  | act j a => by_cases same : j = k <;> simp [part,same]
  | _ => simp [part]

theorem runAbsent {events : List (Event κ α)} (others : ∀ e ∈ events, e ≠ .spawn k) (absent : k ∉ keys live)
    (reached : Machine.run (step own first) live events = some next) : k ∉ keys next := by
  induction events generalizing live with
  | nil => cases Option.some.inj reached; exact absent
  | cons e rest ih =>
    obtain ⟨mid,went,later⟩ := Machine.runCons.mp reached
    obtain ⟨other,more⟩ := List.forall_mem_cons.mp others
    exact ih more (absentStays went other absent) later

theorem runFollows {events : List (Event κ α)} (others : ∀ e ∈ events, e ≠ .spawn k) (single : (keys live).Nodup)
    (inside : (k,s) ∈ live) (reached : Machine.run (step own first) live events = some next) (kept : (k,t) ∈ next) :
    Machine.run (own k) s (part k events) = some t := by
  induction events generalizing live s with
  | nil =>
    cases Option.some.inj reached
    rw [sameState single inside kept]
    rfl
  | cons e rest ih =>
    obtain ⟨mid,went,later⟩ := Machine.runCons.mp reached
    obtain ⟨other,more⟩ := List.forall_mem_cons.mp others
    rcases stepFollows went other single inside with gone | ⟨u,still,own⟩
    · exact absurd (List.mem_map.mpr ⟨(k,t),kept,rfl⟩) (runAbsent more gone later)
    · rw [partCons]
      exact Machine.runAppend.mpr ⟨u,own,ih more (stepSingle went single) still later⟩

def total (weight : σ → Nat) (live : List (κ × σ)) : Nat := (live.map (fun p => weight p.2)).sum

theorem alterTotal {weight : σ → Nat} (single : (keys live).Nodup) (inside : (k,s) ∈ live) (less : weight t < weight s) :
    total weight (alter k t live) < total weight live := by
  have one : weight t = weight ((if (k,s).1 = k then (k,t) else (k,s)).2) := by simp
  simp only [total,alter,List.map_map]
  refine List.sum_lt_sum _ _ ?_ ⟨(k,s),inside,?_⟩
  · intro p old
    simp only [Function.comp_apply]
    split
    · rename_i same
      have own : p.2 = s := sameState single (show (k,p.2) ∈ live from same ▸ old) inside
      rw [own]
      exact less.le
    · exact Nat.le_refl _
  · simpa using less

theorem dropTotal {weight : σ → Nat} (inside : (k,s) ∈ live) : total weight (without k live) + weight s ≤ total weight live := by
  induction live with
  | nil => cases inside
  | cons p rest ih =>
    have fewer : total weight (without k rest) ≤ total weight rest :=
      (List.Sublist.map _ List.filter_sublist).sum_le_sum (fun _ _ => Nat.zero_le _)
    by_cases same : p.1 = k
    · have gone : without k (p::rest) = without k rest := by simp [without,same]
      rw [gone]
      rcases List.mem_cons.mp inside with now | later
      · rw [← now]
        simp only [total,List.map_cons,List.sum_cons] at fewer ⊢
        omega
      · have rest := ih later
        simp only [total,List.map_cons,List.sum_cons] at rest ⊢
        omega
    · have kept : without k (p::rest) = p::without k rest := by simp [without,same]
      have later : (k,s) ∈ rest := (List.mem_cons.mp inside).resolve_left (fun now => same (by rw [← now]))
      have rest := ih later
      rw [kept]
      simp only [total,List.map_cons,List.sum_cons] at rest ⊢
      omega

omit [DecidableEq κ] in
theorem sweepTotal {weight : σ → Nat} {f : κ → σ → Option σ} (same : ∀ k s t, f k s = some t → weight t = weight s)
    (h : sweep f live = some next) : total weight next = total weight live := by
  induction live generalizing next with
  | nil => cases Option.some.inj h; rfl
  | cons q rest ih =>
    obtain ⟨j,u⟩ := q
    obtain ⟨v,went,later⟩ := Option.bind_eq_some_iff.mp h
    obtain ⟨more,swept,last⟩ := Option.bind_eq_some_iff.mp later
    cases Option.some.inj last
    have kept := ih swept
    simp only [total,List.map_cons,List.sum_cons] at kept ⊢
    rw [same j u v went,kept]

end Guesthopper.Pool
