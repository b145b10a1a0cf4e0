import Mathlib.Data.List.Basic
import Mathlib.Data.List.Perm.Basic
import Mathlib.Logic.Function.Basic

/-! A table of keys that one party shares with others. `mine` lists what the party holds, in
any order, and `theirs` is the table without it; opening, closing and handing over a key are
the moves that keep the account. -/
namespace Guesthopper.Ledger

variable {κ ν : Type} {table theirs : κ → Option ν} {mine : List (κ × ν)} {k : κ}

structure Balanced (table theirs : κ → Option ν) (mine : List (κ × ν)) : Prop where
  held : ∀ k v, (k,v) ∈ mine → table k = some v ∧ theirs k = none
  rest : ∀ k, k ∉ mine.map Prod.fst → table k = theirs k
  once : (mine.map Prod.fst).Nodup

theorem balancedNone (table : κ → Option ν) : Balanced table table [] := ⟨by simp,by simp,by simp⟩

theorem balancedPerm {other : List (κ × ν)} (balanced : Balanced table theirs mine) (same : mine.Perm other) :
    Balanced table theirs other where
  held k v known := balanced.held k v (same.mem_iff.mpr known)
  rest k absent := balanced.rest k (fun known => absent ((same.map Prod.fst).mem_iff.mp known))
  once := (same.map Prod.fst).nodup_iff.mp balanced.once

theorem absentMine (balanced : Balanced table theirs mine) (free : table k = none) : k ∉ mine.map Prod.fst := by
  intro known
  obtain ⟨⟨k',v⟩,inside,rfl⟩ := List.mem_map.mp known
  rw [(balanced.held _ v inside).1] at free
  contradiction

theorem theirsFree (balanced : Balanced table theirs mine) (free : table k = none) : theirs k = none :=
  (balanced.rest k (absentMine balanced free)).symm.trans free

theorem keysApart (absent : k ∉ mine.map Prod.fst) {k' : κ} {v : ν} (known : (k',v) ∈ mine) : k' ≠ k := by
  intro same
  subst same
  exact absent (List.mem_map_of_mem known)

theorem settled (balanced : Balanced table theirs []) : table = theirs := funext (fun k => balanced.rest k (by simp))

variable [DecidableEq κ]

theorem opens (balanced : Balanced table theirs mine) (free : table k = none) (v : ν) :
    Balanced (Function.update table k (some v)) theirs ((k,v)::mine) where
  held k' v' known := by
    obtain new | old := List.mem_cons.mp known
    · cases new
      exact ⟨Function.update_self ..,theirsFree balanced free⟩
    · rw [Function.update_of_ne (keysApart (absentMine balanced free) old)]
      exact balanced.held k' v' old
  rest k' absent := by
    simp only [List.map_cons,List.mem_cons,not_or] at absent
    rw [Function.update_of_ne absent.1]
    exact balanced.rest k' absent.2
  once := List.nodup_cons.mpr ⟨absentMine balanced free,balanced.once⟩

theorem closes {v : ν} (balanced : Balanced table theirs ((k,v)::mine)) :
    table k = some v ∧ Balanced (Function.update table k none) theirs mine := by
  obtain ⟨open',apart⟩ := balanced.held k v (by simp)
  obtain ⟨absent,once⟩ := List.nodup_cons.mp balanced.once
  refine ⟨open',?_,?_,once⟩
  · intro k' v' known
    rw [Function.update_of_ne (keysApart absent known)]
    exact balanced.held k' v' (List.mem_cons_of_mem _ known)
  · intro k' outside
    by_cases same : k' = k
    · subst same
      rw [Function.update_self,apart]
    · rw [Function.update_of_ne same]
      exact balanced.rest k' (by simp [same,outside])

theorem hands {v : ν} (balanced : Balanced table theirs ((k,v)::mine)) (w : ν) :
    table k = some v ∧ Balanced (Function.update table k (some w)) theirs ((k,w)::mine) := by
  obtain ⟨open',closed⟩ := closes balanced
  have again := opens closed (Function.update_self k none table) w
  rw [Function.update_idem] at again
  exact ⟨open',again⟩

theorem theyOpen (balanced : Balanced table theirs mine) (free : table k = none) (v : ν) :
    Balanced (Function.update table k (some v)) (Function.update theirs k (some v)) mine where
  held k' v' known := by
    have apart := keysApart (absentMine balanced free) known
    rw [Function.update_of_ne apart,Function.update_of_ne apart]
    exact balanced.held k' v' known
  rest k' absent := by
    by_cases same : k' = k
    · subst same
      rw [Function.update_self,Function.update_self]
    · rw [Function.update_of_ne same,Function.update_of_ne same]
      exact balanced.rest k' absent
  once := balanced.once

theorem theyClose (balanced : Balanced table theirs mine) (open' : theirs k ≠ none) :
    Balanced (Function.update table k none) (Function.update theirs k none) mine where
  held k' v' known := by
    have apart : k' ≠ k := by
      intro same
      subst same
      exact open' (balanced.held _ v' known).2
    rw [Function.update_of_ne apart,Function.update_of_ne apart]
    exact balanced.held k' v' known
  rest k' absent := by
    by_cases same : k' = k
    · subst same
      rw [Function.update_self,Function.update_self]
    · rw [Function.update_of_ne same,Function.update_of_ne same]
      exact balanced.rest k' absent
  once := balanced.once

end Guesthopper.Ledger
