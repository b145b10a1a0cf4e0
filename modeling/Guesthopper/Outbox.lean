import Mathlib.Data.List.Basic

/-! A bounded queue drained by one writer that emits each item's bytes piecewise.
Items are offered by any number of producers; the writer may leave at any byte and
never comes back. `entered` and `handed` are histories: what the queue accepted and
what was offered at all, an offer to a departed writer included. An offer that is
`none` is a producer parked on a full queue. -/
namespace Guesthopper.Outbox

inductive Writer (ι β : Type) where
  | receiving
  | writing (item : ι) (rest : List β)
  | exited
  deriving DecidableEq, Repr

structure Box (ι β : Type) where
  queue : List ι
  entered : List ι
  handed : List ι
  writer : Writer ι β
  wire : List β
  deriving DecidableEq, Repr

variable {ι β : Type} {emit : ι → List β} {b c : Box ι β}

def empty : Box ι β := ⟨[],[],[],.receiving,[]⟩

def offer (bound : Nat) (x : ι) (b : Box ι β) : Option (Box ι β) :=
  match b.writer with
  | .exited => some {b with handed := b.handed ++ [x]}
  | _ =>
    if b.queue.length < bound then
      some {b with queue := b.queue ++ [x], entered := b.entered ++ [x], handed := b.handed ++ [x]}
    else none

def take (emit : ι → List β) (b : Box ι β) : Option (Box ι β) :=
  match b.writer,b.queue with
  | .receiving,x::rest => some {b with queue := rest, writer := .writing x (emit x)}
  | _,_ => none

def put (n : Nat) (b : Box ι β) : Option (Box ι β) :=
  match b.writer with
  | .writing x rest =>
    if 0 < n ∧ n ≤ rest.length then
      some {b with writer := .writing x (rest.drop n), wire := b.wire ++ rest.take n}
    else none
  | _ => none

def finish (b : Box ι β) : Option (Box ι β) :=
  match b.writer with
  | .writing _ [] => some {b with writer := .receiving}
  | _ => none

def leave (b : Box ι β) : Box ι β := {b with writer := .exited, queue := []}

def Faithful (emit : ι → List β) (b : Box ι β) : Prop :=
  match b.writer with
  | .receiving => ∃ taken, b.entered = taken ++ b.queue ∧ b.wire = taken.flatMap emit
  | .writing x rest => ∃ taken, b.entered = taken ++ x::b.queue ∧ b.wire ++ rest = taken.flatMap emit ++ emit x
  | .exited => b.wire <+: b.entered.flatMap emit

theorem faithfulEmpty : Faithful emit empty := ⟨[],rfl,rfl⟩

theorem wirePrefix (h : Faithful emit b) : b.wire <+: b.entered.flatMap emit := by
  unfold Faithful at h
  split at h
  · obtain ⟨taken,he,hw⟩ := h
    rw [he,hw,List.flatMap_append]
    exact List.prefix_append _ _
  · rename_i x rest _
    obtain ⟨taken,he,hw⟩ := h
    have shape : b.entered.flatMap emit = b.wire ++ (rest ++ b.queue.flatMap emit) := by
      rw [he,List.flatMap_append,List.flatMap_cons,← List.append_assoc,← hw,List.append_assoc]
    rw [shape]
    exact List.prefix_append _ _
  · exact h

theorem wireDrained (h : Faithful emit b) (idle : b.writer = .receiving) (none : b.queue = []) :
    b.wire = b.entered.flatMap emit := by
  simp only [Faithful,idle,none,List.append_nil] at h
  obtain ⟨taken,rfl,hw⟩ := h
  exact hw

theorem offerCases {bound : Nat} {x : ι} (h : offer bound x b = some c) :
    (b.writer = .exited ∧ c = {b with handed := b.handed ++ [x]}) ∨
    (b.writer ≠ .exited ∧ b.queue.length < bound ∧
      c = {b with queue := b.queue ++ [x], entered := b.entered ++ [x], handed := b.handed ++ [x]}) := by
  unfold offer at h
  split at h
  · exact .inl ⟨by assumption,(Option.some.inj h).symm⟩
  · split at h <;> try contradiction
    exact .inr ⟨by assumption,by assumption,(Option.some.inj h).symm⟩

theorem takeCases (h : take emit b = some c) :
    ∃ x rest, b.writer = .receiving ∧ b.queue = x::rest ∧
      c = {b with queue := rest, writer := .writing x (emit x)} := by
  unfold take at h
  split at h <;> try contradiction
  exact ⟨_,_,by assumption,by assumption,(Option.some.inj h).symm⟩

theorem putCases {n : Nat} (h : put n b = some c) :
    ∃ x rest, b.writer = .writing x rest ∧ 0 < n ∧ n ≤ rest.length ∧
      c = {b with writer := .writing x (rest.drop n), wire := b.wire ++ rest.take n} := by
  unfold put at h
  split at h <;> try contradiction
  split at h <;> try contradiction
  rename_i fits
  exact ⟨_,_,by assumption,fits.1,fits.2,(Option.some.inj h).symm⟩

theorem finishCases (h : finish b = some c) :
    ∃ x, b.writer = .writing x [] ∧ c = {b with writer := .receiving} := by
  unfold finish at h
  split at h <;> try contradiction
  exact ⟨_,by assumption,(Option.some.inj h).symm⟩

theorem offerFaithful {bound : Nat} {x : ι} (h : offer bound x b = some c) (ok : Faithful emit b) :
    Faithful emit c := by
  rcases offerCases h with ⟨gone,rfl⟩ | ⟨_,_,rfl⟩
  · simpa only [Faithful,gone] using ok
  · unfold Faithful at ok ⊢
    split at ok
    · rename_i hw
      obtain ⟨taken,he,hb⟩ := ok
      simp only [hw]
      exact ⟨taken,by rw [he,List.append_assoc],hb⟩
    · rename_i hw
      obtain ⟨taken,he,hb⟩ := ok
      simp only [hw]
      exact ⟨taken,by rw [he,List.append_assoc,List.cons_append],hb⟩
    · contradiction

theorem takeFaithful (h : take emit b = some c) (ok : Faithful emit b) : Faithful emit c := by
  obtain ⟨x,rest,hw,hq,rfl⟩ := takeCases h
  simp only [Faithful,hw,hq] at ok
  obtain ⟨taken,he,hb⟩ := ok
  exact ⟨taken,he,by rw [hb]⟩

theorem putFaithful {n : Nat} (h : put n b = some c) (ok : Faithful emit b) : Faithful emit c := by
  obtain ⟨x,rest,hw,_,_,rfl⟩ := putCases h
  simp only [Faithful,hw] at ok
  obtain ⟨taken,he,hb⟩ := ok
  refine ⟨taken,he,?_⟩
  rw [List.append_assoc,List.take_append_drop]
  exact hb

theorem finishFaithful (h : finish b = some c) (ok : Faithful emit b) : Faithful emit c := by
  obtain ⟨x,hw,rfl⟩ := finishCases h
  simp only [Faithful,hw,List.append_nil] at ok
  obtain ⟨taken,he,hb⟩ := ok
  refine ⟨taken ++ [x],by rw [he,List.append_assoc]; rfl,?_⟩
  rw [hb,List.flatMap_append,List.flatMap_singleton]

theorem leaveFaithful (ok : Faithful emit b) : Faithful emit (leave b) := by
  have kept := wirePrefix ok
  simpa only [Faithful,leave] using kept

theorem offerFree {bound : Nat} (x : ι) (alive : b.writer ≠ .exited) (room : b.queue.length < bound) :
    ∃ c, offer bound x b = some c := by
  unfold offer
  split
  · contradiction
  · rw [if_pos room]
    exact ⟨_,rfl⟩

theorem offerBlocked {bound : Nat} {x : ι} (h : offer bound x b = none) :
    b.writer ≠ .exited ∧ bound ≤ b.queue.length := by
  unfold offer at h
  split at h
  · contradiction
  · split at h <;> try contradiction
    exact ⟨by assumption,by omega⟩

end Guesthopper.Outbox
