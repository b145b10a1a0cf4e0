import Mathlib.Data.List.Basic
import Guesthopper.TelnetBridge

/-! The order in which the guest receives what one telnet client sends. A byte of the client
completes at most one event; a chunk's events leave the bridge with the window sizes first. -/
namespace Guesthopper.TelnetOrder
open FrameBytes TelnetInbound TelnetItems TelnetBridge

-- Frames after merging adjacent STDIN frames.
def mergeInto (f : Frame) : List Frame → List Frame
  | [] => [f]
  | g::rest =>
    if f.ftype = frameStdin ∧ g.ftype = frameStdin then ⟨frameStdin,f.payload ++ g.payload⟩::rest else f::g::rest

def merge (fs : List Frame) : List Frame := fs.foldr mergeInto []

def atoms (f : Frame) : List Frame :=
  if f.ftype = frameStdin then f.payload.map (fun b => ⟨frameStdin,[b]⟩) else [f]

def Full (f : Frame) : Prop := f.ftype = frameStdin → f.payload ≠ []

theorem mergeIntoAtoms (f : Frame) (rest : List Frame) :
    (mergeInto f rest).flatMap atoms = atoms f ++ rest.flatMap atoms := by
  cases rest with
  | nil => simp [mergeInto]
  | cons g rest =>
    simp only [mergeInto]
    split
    · rename_i both
      simp [atoms,both.1,both.2]
    · simp

theorem mergeAtoms (fs : List Frame) : (merge fs).flatMap atoms = fs.flatMap atoms := by
  induction fs with
  | nil => rfl
  | cons f fs ih =>
    have fold : merge (f::fs) = mergeInto f (merge fs) := rfl
    rw [fold,mergeIntoAtoms,ih]
    rfl

theorem mergeStdin (b : UInt8) (data : Bytes) (rest : List Frame) :
    ((b::data).map (fun b => (⟨frameStdin,[b]⟩ : Frame))).foldr mergeInto rest =
      mergeInto ⟨frameStdin,b::data⟩ rest := by
  induction data generalizing b with
  | nil => rfl
  | cons c data ih =>
    rw [List.map_cons,List.foldr_cons,ih c]
    cases rest with
    | nil => simp [mergeInto]
    | cons g rest =>
      by_cases stdin : g.ftype = frameStdin
      · simp [mergeInto,stdin]
      · simp [mergeInto,stdin]

theorem mergeFull {f : Frame} (full : Full f) (rest : List Frame) :
    (atoms f).foldr mergeInto rest = mergeInto f rest := by
  unfold atoms
  split
  · rename_i stdin
    cases f with
    | mk ftype payload =>
      cases stdin
      cases payload with
      | nil => exact absurd rfl (full rfl)
      | cons b data => exact mergeStdin b data rest
  · rfl

theorem mergeOfAtoms {fs : List Frame} (full : ∀ f ∈ fs, Full f) : merge fs = merge (fs.flatMap atoms) := by
  induction fs with
  | nil => rfl
  | cons f fs ih =>
    obtain ⟨first,later⟩ := List.forall_mem_cons.mp full
    have fold : merge (f::fs) = mergeInto f (merge fs) := rfl
    have apart : merge (atoms f ++ fs.flatMap atoms) = (atoms f).foldr mergeInto (merge (fs.flatMap atoms)) :=
      List.foldr_append
    rw [fold,List.flatMap_cons,apart,mergeFull first,ih later]

theorem mergeExact {fs gs : List Frame} (full : ∀ f ∈ fs, Full f) (full' : ∀ g ∈ gs, Full g) :
    merge fs = merge gs ↔ fs.flatMap atoms = gs.flatMap atoms := by
  constructor
  · intro same
    rw [← mergeAtoms fs,same,mergeAtoms]
  · intro same
    rw [mergeOfAtoms full,same,← mergeOfAtoms full']

inductive Event where
  | typed (b : UInt8)
  | resize (rows cols : Nat)
  deriving DecidableEq, Repr

def Event.frame : Event → Frame
  | .typed b => ⟨frameStdin,[b]⟩
  | .resize rows cols => ⟨frameResize,ControlPayloads.resizePayload rows cols⟩

def Event.sized : Event → Bool
  | .typed _ => false
  | .resize _ _ => true

def fedEvents (fed : Fed) : List Event :=
  fed.resizes.map (fun size => .resize size.1 size.2) ++ fed.data.map .typed

def events (p : Parser) : Bytes → List Event
  | [] => []
  | b::rest => fedEvents (feedByte p b).2 ++ events (feedByte p b).1 rest

def sizesFirst (es : List Event) : List Event := es.filter Event.sized ++ es.filter (fun e => !e.sized)

def Sorted (es : List Event) : Prop := es.Pairwise (fun a b => a.sized = false → b.sized = false)

instance (es : List Event) : Decidable (Sorted es) :=
  inferInstanceAs (Decidable (es.Pairwise (fun a b => a.sized = false → b.sized = false)))

theorem eventsAppend (p : Parser) (xs ys : Bytes) :
    events p (xs ++ ys) = events p xs ++ events (feed p xs).1 ys := by
  induction xs generalizing p with
  | nil => rfl
  | cons b rest ih => simp only [List.cons_append,events,feed,ih,List.append_assoc]

theorem fedSized (fed : Fed) : (fedEvents fed).filter Event.sized = fed.resizes.map (fun size => .resize size.1 size.2) ∧
    (fedEvents fed).filter (fun e => !e.sized) = fed.data.map .typed := by
  simp [fedEvents,List.filter_map,Function.comp_def,Event.sized]

theorem feedEvents (p : Parser) (raw : Bytes) : fedEvents (feed p raw).2 = sizesFirst (events p raw) := by
  have both : (events p raw).filter Event.sized = (feed p raw).2.resizes.map (fun size => .resize size.1 size.2) ∧
      (events p raw).filter (fun e => !e.sized) = (feed p raw).2.data.map .typed := by
    induction raw generalizing p with
    | nil => exact ⟨rfl,rfl⟩
    | cons b rest ih =>
      obtain ⟨sizes,typed⟩ := ih (feedByte p b).1
      simp only [events,List.filter_append,fedSized,sizes,typed,feed,Fed.join,List.map_append,and_self]
  rw [sizesFirst,both.1,both.2]
  rfl

theorem chunkAtoms (fed : Fed) : (chunkFrames fed).flatMap atoms = (fedEvents fed).map Event.frame := by
  have sizes : ∀ rs : List (Nat × Nat),
      (rs.map (fun size => (⟨frameResize,ControlPayloads.resizePayload size.1 size.2⟩ : Frame))).flatMap atoms =
        (rs.map (fun size => Event.resize size.1 size.2)).map Event.frame := by
    intro rs
    induction rs with
    | nil => rfl
    | cons r rs ih =>
      rw [List.map_cons,List.flatMap_cons,ih]
      rfl
  have data : (if fed.data = [] then [] else [(⟨frameStdin,fed.data⟩ : Frame)]).flatMap atoms =
      (fed.data.map Event.typed).map Event.frame := by
    split
    · rename_i none
      rw [none]
      rfl
    · simp [atoms,Event.frame]
  rw [chunkFrames,fedEvents,List.flatMap_append,List.map_append,sizes,data]

theorem sizesFirstSorted (es : List Event) : Sorted (sizesFirst es) := by
  refine List.pairwise_append.mpr ⟨?_,?_,?_⟩
  · refine List.pairwise_of_forall_mem_list ?_
    intro a known b _ typed
    simp [(List.mem_filter.mp known).2] at typed
  · refine List.pairwise_of_forall_mem_list ?_
    intro a _ b known _
    simpa using (List.mem_filter.mp known).2
  · intro a known b _ typed
    simp [(List.mem_filter.mp known).2] at typed

theorem sortedSame {es : List Event} : (sizesFirst es).map Event.frame = es.map Event.frame ↔ Sorted es := by
  constructor
  · intro same
    have kinds : ∀ es : List Event, es.map Event.sized = (es.map Event.frame).map (fun f => f.ftype == frameResize) := by
      intro es
      rw [List.map_map]
      refine List.map_congr_left ?_
      intro e _
      cases e <;> rfl
    have sorted : ((sizesFirst es).map Event.sized).Pairwise (fun a b => a = false → b = false) :=
      List.pairwise_map.mpr (sizesFirstSorted es)
    rw [kinds,same,← kinds] at sorted
    exact List.pairwise_map.mp sorted
  · intro sorted
    induction es with
    | nil => rfl
    | cons e es ih =>
      obtain ⟨first,later⟩ := List.pairwise_cons.mp sorted
      cases e with
      | resize rows cols =>
        have shape : sizesFirst (.resize rows cols::es) = .resize rows cols::sizesFirst es := rfl
        rw [shape,List.map_cons,ih later,List.map_cons]
      | typed b =>
        have typed : ∀ e ∈ es, e.sized = false := fun e known => first e known rfl
        have sizes : es.filter Event.sized = [] := by simpa [List.filter_eq_nil_iff] using typed
        have rest : es.filter (fun e => !e.sized) = es := by simpa [List.filter_eq_self] using typed
        have shape : sizesFirst (.typed b::es) = es.filter Event.sized ++ .typed b::es.filter (fun e => !e.sized) := rfl
        rw [shape,sizes,rest]
        rfl

def chunksFrames (p : Parser) : List Bytes → List Frame
  | [] => []
  | chunk::rest => chunkFrames (feed p chunk).2 ++ chunksFrames (feed p chunk).1 rest

def Ordered (p : Parser) : List Bytes → Prop
  | [] => True
  | chunk::rest => Sorted (events p chunk) ∧ Ordered (feed p chunk).1 rest

instance decidableOrdered (p : Parser) : (chunks : List Bytes) → Decidable (Ordered p chunks)
  | [] => .isTrue trivial
  | chunk::rest =>
    have := decidableOrdered (feed p chunk).1 rest
    inferInstanceAs (Decidable (Sorted (events p chunk) ∧ Ordered (feed p chunk).1 rest))

theorem chunksAppend (p : Parser) (chunks : List Bytes) (raw : Bytes) : chunksFrames p (chunks ++ [raw]) =
    chunksFrames p chunks ++ chunkFrames (feed (feedAll p chunks).1 raw).2 := by
  induction chunks generalizing p with
  | nil => simp [chunksFrames,feedAll]
  | cons chunk rest ih => simp only [List.cons_append,chunksFrames,ih,feedAll,List.append_assoc]

theorem chunksOrdered (p : Parser) (chunks : List Bytes) :
    (chunksFrames p chunks).flatMap atoms = (events p chunks.flatten).map Event.frame ↔ Ordered p chunks := by
  induction chunks generalizing p with
  | nil => simp [chunksFrames,events,Ordered]
  | cons chunk rest ih =>
    rw [chunksFrames,List.flatMap_append,chunkAtoms,feedEvents,List.flatten_cons,eventsAppend,List.map_append,
      Ordered,← ih,← sortedSame]
    have long : ((sizesFirst (events p chunk)).map Event.frame).length = ((events p chunk).map Event.frame).length := by
      simpa [sizesFirst] using (List.length_eq_length_filter_add (l := events p chunk) Event.sized).symm
    constructor
    · intro same
      exact List.append_inj same long
    · intro ⟨first,later⟩
      rw [first,later]

theorem chunkFull (fed : Fed) : ∀ f ∈ chunkFrames fed, Full f := by
  refine List.forall_mem_append.mpr ⟨?_,?_⟩
  · intro f known stdin
    obtain ⟨size,_,rfl⟩ := List.mem_map.mp known
    simp [frameResize,frameStdin] at stdin
  · intro f known stdin
    split at known
    · simp at known
    · rename_i some
      cases List.mem_singleton.mp known
      exact some

theorem chunksFull (p : Parser) (chunks : List Bytes) : ∀ f ∈ chunksFrames p chunks, Full f := by
  induction chunks generalizing p with
  | nil => simp [chunksFrames]
  | cons chunk rest ih => exact List.forall_mem_append.mpr ⟨chunkFull _,ih _⟩

def inbound (wrote : List Frame) : List Frame :=
  wrote.filter (fun f => f.ftype = frameStdin ∨ f.ftype = frameResize)

theorem inboundChunk (fed : Fed) : inbound (chunkFrames fed) = chunkFrames fed := by
  refine List.filter_eq_self.mpr (List.forall_mem_append.mpr ⟨?_,?_⟩)
  · intro f known
    obtain ⟨size,_,rfl⟩ := List.mem_map.mp known
    simp
  · intro f known
    split at known
    · simp at known
    · cases List.mem_singleton.mp known
      simp

-- No write to the guest fails.
def Action.delivers : Action → Prop
  | .idle fails => fails = none
  | .round _ fails _ => fails = none

def Followed (b : Bridge) : Prop :=
  b.parser = (feedAll fresh b.chunks).1 ∧ inbound b.wrote = chunksFrames fresh b.chunks

theorem clientFollowed {b : Bridge} (tcp : Tcp) (followed : Followed b) : Followed (fromClient b none tcp) := by
  cases tcp with
  | hangup | failed e => exact followed
  | chunk raw =>
    obtain ⟨parser,wrote⟩ := followed
    refine ⟨?_,?_⟩
    · simp only [fromClient,parser,feedAllFlatten,List.flatten_append,List.flatten_singleton,feedAppend]
    · simp only [fromClient,chunksAppend,← wrote,← parser]
      rw [inbound,List.filter_append]
      exact congrArg (inbound b.wrote ++ ·) (inboundChunk _)

theorem guestFollowed {j : ClientDoors.Json} {b : Bridge} (followed : Followed b) : Followed (fromGuest j b) := by
  unfold fromGuest
  split
  · exact followed
  · exact followed
  · dsimp only
    repeat' split
    all_goals exact followed

theorem reachedFollowed {j : ClientDoors.Json} {gsock : ClientStream.Socket} {acts : List Action} {b : Bridge}
    (delivers : ∀ a ∈ acts, Action.delivers a) (reached : Machine.run (step j) (start gsock) acts = some b) : Followed b := by
  refine Machine.runKeepsAlong (P := fun _ a => Action.delivers a) ?_ ⟨rfl,rfl⟩ (Machine.alongAll delivers) reached
  intro u a v followed able h
  refine stepKeeps h ?_ ?_ ?_ ?_ followed
  · intro b e _ followed; exact followed
  · intro b followed
    refine ⟨followed.1,?_⟩
    rw [← followed.2,inbound,List.filter_append]
    exact List.append_nil _
  · intro b tcp fails guest shape _ followed
    subst shape
    cases able
    exact clientFollowed tcp followed
  · intro b _ followed; exact guestFollowed followed

def Placed (b : Bridge) : Prop :=
  merge (inbound b.wrote) = merge ((events fresh b.chunks.flatten).map Event.frame)

theorem eventAtoms (es : List Event) : (es.map Event.frame).flatMap atoms = es.map Event.frame ∧
    ∀ f ∈ es.map Event.frame, Full f := by
  induction es with
  | nil => simp
  | cons e es ih =>
    obtain ⟨same,full⟩ := ih
    cases e with
    | typed b =>
      refine ⟨?_,List.forall_mem_cons.mpr ⟨?_,full⟩⟩
      · rw [List.map_cons,List.flatMap_cons,same]
        rfl
      · intro _; simp [Event.frame]
    | resize rows cols =>
      refine ⟨?_,List.forall_mem_cons.mpr ⟨?_,full⟩⟩
      · rw [List.map_cons,List.flatMap_cons,same]
        rfl
      · intro stdin; simp [Event.frame,frameResize,frameStdin] at stdin

theorem placedOrdered {b : Bridge} (followed : Followed b) : Placed b ↔ Ordered fresh b.chunks := by
  obtain ⟨same,full⟩ := eventAtoms (events fresh b.chunks.flatten)
  rw [Placed,followed.2,mergeExact (chunksFull fresh b.chunks) full,same]
  exact chunksOrdered fresh b.chunks

theorem segmentationExact {j : ClientDoors.Json} {gsock gsock' : ClientStream.Socket} {acts acts' : List Action}
    {b b' : Bridge} (reached : Machine.run (step j) (start gsock) acts = some b)
    (reached' : Machine.run (step j) (start gsock') acts' = some b') (delivers : ∀ a ∈ acts, Action.delivers a)
    (delivers' : ∀ a ∈ acts', Action.delivers a) (stream : b.chunks.flatten = b'.chunks.flatten) :
    (merge (inbound b.wrote) = merge (inbound b'.wrote) ∧ Placed b ∧ Placed b') ↔
      Ordered fresh b.chunks ∧ Ordered fresh b'.chunks := by
  have placed := placedOrdered (reachedFollowed delivers reached)
  have placed' := placedOrdered (reachedFollowed delivers' reached')
  constructor
  · intro ⟨_,first,second⟩
    exact ⟨placed.mp first,placed'.mp second⟩
  · intro ⟨first,second⟩
    have here := placed.mpr first
    have there := placed'.mpr second
    refine ⟨?_,here,there⟩
    rw [here,there,stream]

def oneSegment : List Action :=
  [.round (some (.chunk [97,255,250,31,0,80,0,24,255,240,98])) none false]
def threeSegments : List Action :=
  [.round (some (.chunk [97])) none false,.round (some (.chunk [255,250,31,0,80,0,24,255,240])) none false,
    .round (some (.chunk [98])) none false]

theorem oneSegmentReorders : ∃ b b',
    Machine.run (step ClientDoors.plainJson) (start ClientDoors.closedEarly) oneSegment = some b ∧
    Machine.run (step ClientDoors.plainJson) (start ClientDoors.closedEarly) threeSegments = some b' ∧
    b.chunks.flatten = b'.chunks.flatten ∧ merge (inbound b.wrote) ≠ merge (inbound b'.wrote) := by
  refine ⟨_,_,rfl,rfl,rfl,?_⟩
  intro same
  have kinds := congrArg (List.map Frame.ftype) same
  revert kinds
  decide

theorem segmentationExactOne : ∃ b b',
    Machine.run (step ClientDoors.plainJson) (start ClientDoors.closedEarly) oneSegment = some b ∧
    Machine.run (step ClientDoors.plainJson) (start ClientDoors.closedEarly) threeSegments = some b' ∧
    ¬ (merge (inbound b.wrote) = merge (inbound b'.wrote) ∧ Placed b ∧ Placed b') := by
  refine ⟨_,_,rfl,rfl,?_⟩
  intro all
  have ordered := (@segmentationExact ClientDoors.plainJson ClientDoors.closedEarly ClientDoors.closedEarly
    oneSegment threeSegments _ _ rfl rfl (by simp [oneSegment,Action.delivers])
    (by simp [threeSegments,Action.delivers]) rfl).mp all
  exact absurd ordered.1 (by decide)

end Guesthopper.TelnetOrder
