import Mathlib.Data.List.Basic

/-! A task that reads a byte source in chunks and hands each chunk on. The source
keeps what its producers wrote and nobody read yet; `produced` is its history. The
read end goes with the task, so nothing is accepted after it. A task that was
aborted keeps its unsent chunk on record only to say what was lost; `left` is what
was produced and not handed on. -/
namespace Guesthopper.Tap

inductive Phase (β : Type) where
  | idle
  | reading
  | holding (chunk : List β)
  | finished
  | aborted (chunk : List β)
  deriving DecidableEq, Repr

structure Stream (β : Type) where
  phase : Phase β
  unread : List β
  attached : Bool
  produced : List β
  deriving DecidableEq, Repr

variable {β : Type} {t u : Stream β}

def unopened : Stream β := ⟨.idle,[],false,[]⟩
def opened : Stream β := ⟨.reading,[],true,[]⟩

def live (t : Stream β) : Bool :=
  match t.phase with
  | .reading | .holding _ => true
  | _ => false

def held (t : Stream β) : List β :=
  match t.phase with
  | .holding chunk | .aborted chunk => chunk
  | _ => []

def left (t : Stream β) : List β := held t ++ t.unread

def supply (bytes : List β) (t : Stream β) : Option (Stream β) :=
  if live t ∧ t.attached then
    some {t with unread := t.unread ++ bytes, produced := t.produced ++ bytes}
  else none

def detach (t : Stream β) : Option (Stream β) :=
  if t.attached then some {t with attached := false} else none

def read (limit n : Nat) (t : Stream β) : Option (Stream β) :=
  match t.phase with
  | .reading =>
    if 0 < n ∧ n ≤ limit ∧ n ≤ t.unread.length then
      some {t with phase := .holding (t.unread.take n), unread := t.unread.drop n}
    else none
  | _ => none

def eof (t : Stream β) : Option (Stream β) :=
  match t.phase,t.unread,t.attached with
  | .reading,[],false => some {t with phase := .finished}
  | _,_,_ => none

def fail (t : Stream β) : Option (Stream β) :=
  match t.phase with
  | .reading => some {t with phase := .finished}
  | _ => none

def release (t : Stream β) : Stream β := {t with phase := .reading}
def stop (t : Stream β) : Stream β := {t with phase := .finished}
def abort (t : Stream β) : Stream β := {t with phase := .aborted (held t)}

def Conserves (delivered : List β) (t : Stream β) : Prop := t.produced = delivered ++ left t

theorem conservesUnopened : Conserves [] (unopened : Stream β) := rfl
theorem conservesOpened : Conserves [] (opened : Stream β) := rfl

theorem supplyCases {bytes : List β} (h : supply bytes t = some u) :
    live t ∧ t.attached ∧ u = {t with unread := t.unread ++ bytes, produced := t.produced ++ bytes} := by
  unfold supply at h
  split at h <;> try contradiction
  rename_i able
  exact ⟨able.1,able.2,(Option.some.inj h).symm⟩

theorem detachCases (h : detach t = some u) : t.attached ∧ u = {t with attached := false} := by
  unfold detach at h
  split at h <;> try contradiction
  exact ⟨by assumption,(Option.some.inj h).symm⟩

theorem readCases {limit n : Nat} (h : read limit n t = some u) :
    t.phase = .reading ∧ 0 < n ∧ n ≤ limit ∧ n ≤ t.unread.length ∧
      u = {t with phase := .holding (t.unread.take n), unread := t.unread.drop n} := by
  unfold read at h
  split at h <;> try contradiction
  split at h <;> try contradiction
  rename_i ready fits
  exact ⟨ready,fits.1,fits.2.1,fits.2.2,(Option.some.inj h).symm⟩

theorem eofCases (h : eof t = some u) :
    t.phase = .reading ∧ t.unread = [] ∧ u = {t with phase := .finished} := by
  unfold eof at h
  split at h <;> try contradiction
  exact ⟨by assumption,by assumption,(Option.some.inj h).symm⟩

theorem failCases (h : fail t = some u) : t.phase = .reading ∧ u = {t with phase := .finished} := by
  unfold fail at h
  split at h <;> try contradiction
  exact ⟨by assumption,(Option.some.inj h).symm⟩

theorem supplyConserves {delivered bytes : List β} (h : supply bytes t = some u)
    (ok : Conserves delivered t) : Conserves delivered u := by
  obtain ⟨_,_,rfl⟩ := supplyCases h
  simp only [Conserves,left,held] at ok ⊢
  rw [ok]
  simp

theorem detachConserves {delivered : List β} (h : detach t = some u)
    (ok : Conserves delivered t) : Conserves delivered u := by
  obtain ⟨_,rfl⟩ := detachCases h
  exact ok

theorem readConserves {delivered : List β} {limit n : Nat} (h : read limit n t = some u)
    (ok : Conserves delivered t) : Conserves delivered u := by
  obtain ⟨ready,_,_,_,rfl⟩ := readCases h
  simp only [Conserves,left,held,ready,List.nil_append] at ok
  simp only [Conserves,left,held,List.take_append_drop]
  exact ok

theorem finishConserves {delivered : List β} (ready : t.phase = .reading)
    (ok : Conserves delivered t) : Conserves delivered {t with phase := .finished} := by
  simpa only [Conserves,left,held,ready] using ok

theorem releaseConserves {delivered chunk : List β} (holds : t.phase = .holding chunk)
    (ok : Conserves delivered t) : Conserves (delivered ++ chunk) (release t) := by
  simp only [Conserves,left,held,holds] at ok
  simp only [Conserves,left,held,release,ok,List.nil_append,List.append_assoc]

theorem abortConserves {delivered : List β} (ok : Conserves delivered t) :
    Conserves delivered (abort t) := by
  simpa only [Conserves,left,held,abort] using ok

theorem conservedPrefix {delivered : List β} (ok : Conserves delivered t) : delivered <+: t.produced :=
  ⟨left t,ok.symm⟩

theorem deliveredAll {delivered : List β} (ok : Conserves delivered t) :
    delivered = t.produced ↔ left t = [] := by
  rw [ok]
  simp

end Guesthopper.Tap
