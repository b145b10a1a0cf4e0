import Mathlib.Algebra.Group.Nat.Defs
import Mathlib.Data.List.Basic

/-! The wire format of one frame: type byte, big-endian u32 length, payload. The
length cast wraps, which `writeFrame` guards against. `head` is the grammar of a
byte stream seen from a frame boundary under a payload limit; it names every way a
stream can stop, so that each reader's own verdict can be read against it. -/
namespace Guesthopper.FrameBytes

abbrev Bytes := List UInt8

def frameRequest : UInt8 := 1
def frameStdin : UInt8 := 2
def frameStdinEof : UInt8 := 3
def framePing : UInt8 := 4
def frameResize : UInt8 := 5
def frameStdout : UInt8 := 16
def frameStderr : UInt8 := 17
def frameExit : UInt8 := 18
def frameError : UInt8 := 19

def maxFrameLen : Nat := 16 * 1024 * 1024
def defaultMaxInboundFrameLen : Nat := 1024 * 1024
def minInboundFrameLen : Nat := 64 * 1024

def clampInbound (v : Nat) : Nat := max minInboundFrameLen (min v maxFrameLen)

theorem clampInboundBounds (v : Nat) :
    minInboundFrameLen ≤ clampInbound v ∧ clampInbound v ≤ maxFrameLen := by
  unfold clampInbound minInboundFrameLen maxFrameLen
  omega

structure Frame where
  ftype : UInt8
  payload : Bytes
  deriving DecidableEq, Repr

def be32 (n : Nat) : Bytes :=
  [UInt8.ofNat (n / 2^24),UInt8.ofNat (n / 2^16),UInt8.ofNat (n / 2^8),UInt8.ofNat n]

def fromBe32 (a b c d : UInt8) : Nat :=
  a.toNat * 2^24 + b.toNat * 2^16 + c.toNat * 2^8 + d.toNat

theorem fromBe32Be32 {n : Nat} (bound : n < 2^32) :
    fromBe32 (UInt8.ofNat (n / 2^24)) (UInt8.ofNat (n / 2^16)) (UInt8.ofNat (n / 2^8)) (UInt8.ofNat n) = n := by
  simp only [fromBe32,UInt8.toNat_ofNat']
  omega

theorem be32FromBe32 (a b c d : UInt8) : be32 (fromBe32 a b c d) = [a,b,c,d] := by
  have := a.toNat_lt
  have := b.toNat_lt
  have := c.toNat_lt
  have := d.toNat_lt
  simp only [be32,fromBe32,List.cons.injEq,← UInt8.toNat_inj,UInt8.toNat_ofNat',and_true]
  refine ⟨?_,?_,?_,?_⟩ <;> omega

def encode (f : Frame) : Bytes := f.ftype :: be32 f.payload.length ++ f.payload

def encodeAll (fs : List Frame) : Bytes := fs.flatMap encode

def writeFrame (f : Frame) : Except String Bytes :=
  if f.payload.length > maxFrameLen then
    .error s!"frame payload {f.payload.length} exceeds MAX_FRAME_LEN {maxFrameLen}"
  else .ok (encode f)

theorem encodeAllAppend (fs gs : List Frame) : encodeAll (fs ++ gs) = encodeAll fs ++ encodeAll gs := by
  simp [encodeAll]

theorem encodeAllCons (f : Frame) (fs : List Frame) : encodeAll (f::fs) = encode f ++ encodeAll fs := by
  simp [encodeAll]

theorem encodeAllLength (fs : List Frame) : 5 * fs.length ≤ (encodeAll fs).length := by
  induction fs with
  | nil => simp
  | cons f fs ih =>
    simp only [encodeAllCons,encode,be32,List.length_append,List.length_cons,List.length_nil]
    omega

inductive Head where
  | clean
  | tornHeader
  | oversize (len : Nat)
  | tornPayload
  | frame (f : Frame) (rest : Bytes)
  deriving DecidableEq, Repr

def head (cap : Nat) : Bytes → Head
  | [] => .clean
  | t::a::b::c::d::rest =>
      if cap < fromBe32 a b c d then .oversize (fromBe32 a b c d)
      else if rest.length < fromBe32 a b c d then .tornPayload
      else .frame ⟨t,rest.take (fromBe32 a b c d)⟩ (rest.drop (fromBe32 a b c d))
  | _ => .tornHeader

theorem headFrame {cap : Nat} {raw : Bytes} {f : Frame} {rest : Bytes}
    (h : head cap raw = .frame f rest) :
    f.payload.length ≤ cap ∧ raw.length = 5 + f.payload.length + rest.length := by
  unfold head at h
  split at h <;> try contradiction
  split at h <;> try contradiction
  split at h <;> try contradiction
  rename_i small enough
  cases h
  simp only [List.length_take,List.length_drop,List.length_cons]
  omega

theorem encodeTaken {t a b c d : UInt8} {tail : Bytes} {n : Nat} (length : be32 n = [a,b,c,d])
    (enough : n ≤ tail.length) : t::a::b::c::d::tail = encode ⟨t,tail.take n⟩ ++ tail.drop n := by
  simp only [encode,List.length_take,Nat.min_eq_left enough,length,List.cons_append,List.nil_append,
    List.take_append_drop]

theorem headEncode {cap : Nat} {raw rest : Bytes} {f : Frame} (h : head cap raw = .frame f rest) :
    raw = encode f ++ rest := by
  unfold head at h
  split at h <;> try contradiction
  split at h <;> try contradiction
  split at h <;> try contradiction
  rename_i t a b c d tail _ enough
  obtain ⟨rfl,rfl⟩ := Head.frame.inj h
  exact encodeTaken (be32FromBe32 a b c d) (Nat.le_of_not_lt enough)

theorem headEncoded {cap : Nat} {f : Frame} (rest : Bytes) (fits : f.payload.length ≤ cap)
    (bound : cap < 2^32) : head cap (encode f ++ rest) = .frame f rest := by
  have len := fromBe32Be32 (Nat.lt_of_le_of_lt fits bound)
  simp only [encode,be32,List.cons_append,List.nil_append,head,len]
  rw [if_neg (by omega),if_neg (by simp)]
  simp

theorem headAppend {cap : Nat} {raw rest : Bytes} {f : Frame} (more : Bytes) (h : head cap raw = .frame f rest) :
    head cap (raw ++ more) = .frame f (rest ++ more) := by
  unfold head at h
  split at h <;> try contradiction
  split at h <;> try contradiction
  split at h <;> try contradiction
  rename_i fits enough
  cases h
  simp only [List.cons_append,head]
  rw [if_neg fits,if_neg (by simp only [List.length_append]; omega)]
  rw [List.take_append_of_le_length (by omega),List.drop_append_of_le_length (by omega)]

def decodeAll (cap : Nat) (raw : Bytes) : List Frame :=
  match _found : head cap raw with
  | .frame f rest => f :: decodeAll cap rest
  | _ => []
termination_by raw.length
decreasing_by
  have := (headFrame _found).2
  omega

theorem decodeAllFrame {cap : Nat} {raw rest : Bytes} {f : Frame} (h : head cap raw = .frame f rest) :
    decodeAll cap raw = f :: decodeAll cap rest := by
  rw [decodeAll]
  split
  · rename_i g tail found
    cases h.symm.trans found
    rfl
  · rename_i other
    exact absurd h (other f rest)

theorem decodeAllStuck {cap : Nat} {raw : Bytes} (h : ∀ f rest, head cap raw ≠ .frame f rest) :
    decodeAll cap raw = [] := by
  rw [decodeAll]
  split
  · rename_i f rest found
    exact absurd found (h f rest)
  · rfl

theorem decodeAllCons {cap : Nat} {raw : Bytes} {f : Frame} {fs : List Frame} (h : decodeAll cap raw = f::fs) :
    ∃ rest, head cap raw = .frame f rest ∧ decodeAll cap rest = fs := by
  by_cases found : ∃ g rest, head cap raw = .frame g rest
  · obtain ⟨g,rest,found⟩ := found
    rw [decodeAllFrame found] at h
    obtain ⟨same,later⟩ := List.cons.inj h
    exact ⟨rest,same ▸ found,later⟩
  · rw [decodeAllStuck (fun g rest is => found ⟨g,rest,is⟩)] at h
    contradiction

theorem decodeAllEncoded {cap : Nat} (bound : cap < 2^32) {fs : List Frame}
    (fits : ∀ f ∈ fs, f.payload.length ≤ cap) : decodeAll cap (encodeAll fs) = fs := by
  induction fs with
  | nil => exact decodeAllStuck (fun f rest found => by simp [encodeAll,head] at found)
  | cons f fs ih =>
    rw [encodeAllCons,decodeAllFrame (headEncoded (encodeAll fs) (fits f (by simp)) bound),
      ih (fun g hg => fits g (List.mem_cons_of_mem _ hg))]

def remainder (cap : Nat) (raw : Bytes) : Bytes :=
  match _found : head cap raw with
  | .frame _ rest => remainder cap rest
  | _ => raw
termination_by raw.length
decreasing_by
  have := (headFrame _found).2
  omega

theorem remainderFrame {cap : Nat} {raw rest : Bytes} {f : Frame} (h : head cap raw = .frame f rest) :
    remainder cap raw = remainder cap rest := by
  rw [remainder]
  split
  · rename_i g tail found
    cases h.symm.trans found
    rfl
  · rename_i other
    exact absurd h (other f rest)

theorem remainderStuck {cap : Nat} {raw : Bytes} (h : ∀ f rest, head cap raw ≠ .frame f rest) :
    remainder cap raw = raw := by
  rw [remainder]
  split
  · rename_i f rest found
    exact absurd found (h f rest)
  · rfl

theorem streamInduct (cap : Nat) {P : Bytes → Prop}
    (more : ∀ raw f rest, head cap raw = .frame f rest → P rest → P raw)
    (stop : ∀ raw, (∀ f rest, head cap raw ≠ .frame f rest) → P raw) (raw : Bytes) : P raw := by
  induction long : raw.length using Nat.strongRecOn generalizing raw with
  | ind n ih =>
    by_cases found : ∃ f rest, head cap raw = .frame f rest
    · obtain ⟨f,rest,found⟩ := found
      have less := (headFrame found).2
      exact more raw f rest found (ih rest.length (by omega) rest rfl)
    · exact stop raw (fun f rest same => found ⟨f,rest,same⟩)

theorem decodeAllRemainder (cap : Nat) (raw : Bytes) :
    raw = encodeAll (decodeAll cap raw) ++ remainder cap raw := by
  induction raw using streamInduct cap with
  | more raw f rest found ih =>
    rw [decodeAllFrame found,remainderFrame found,encodeAllCons,List.append_assoc,← ih]
    exact headEncode found
  | stop raw broken =>
    rw [decodeAllStuck broken,remainderStuck broken]
    rfl

theorem decodeAllFits (cap : Nat) (raw : Bytes) : ∀ f ∈ decodeAll cap raw, f.payload.length ≤ cap := by
  induction raw using streamInduct cap with
  | more raw f rest found ih =>
    rw [decodeAllFrame found]
    exact List.forall_mem_cons.mpr ⟨(headFrame found).1,ih⟩
  | stop raw broken => simp [decodeAllStuck broken]

theorem decodeAllAppend (cap : Nat) (raw more : Bytes) :
    decodeAll cap (raw ++ more) = decodeAll cap raw ++ decodeAll cap (remainder cap raw ++ more) ∧
      remainder cap (raw ++ more) = remainder cap (remainder cap raw ++ more) := by
  induction raw using streamInduct cap with
  | more raw f rest found ih =>
    have longer := headAppend more found
    rw [decodeAllFrame longer,decodeAllFrame found,remainderFrame longer,remainderFrame found,ih.1,ih.2]
    exact ⟨rfl,rfl⟩
  | stop raw broken =>
    rw [decodeAllStuck broken,remainderStuck broken]
    exact ⟨rfl,rfl⟩

theorem remainderStops (cap : Nat) (raw : Bytes) (f : Frame) (rest : Bytes) :
    head cap (remainder cap raw) ≠ .frame f rest := by
  induction raw using streamInduct cap with
  | more raw g tail found ih =>
    rw [remainderFrame found]
    exact ih
  | stop raw broken =>
    rw [remainderStuck broken]
    exact broken f rest

theorem remainderEncoded {cap : Nat} (bound : cap < 2^32) {fs : List Frame} (rest : Bytes)
    (fits : ∀ f ∈ fs, f.payload.length ≤ cap) : remainder cap (encodeAll fs ++ rest) = remainder cap rest := by
  induction fs with
  | nil => rfl
  | cons f fs ih =>
    have found := headEncoded (encodeAll fs ++ rest) (fits f (by simp)) bound
    rw [encodeAllCons,List.append_assoc,remainderFrame found,ih (fun g hg => fits g (List.mem_cons_of_mem _ hg))]

-- A limit no header exceeds may be raised.
theorem headWiden {small big : Nat} {raw : Bytes} (wide : small ≤ big) (within : ∀ n, head small raw ≠ .oversize n) :
    head big raw = head small raw := by
  unfold head at within ⊢
  split <;> try rfl
  rename_i t a b c d rest
  have fits : ¬ small < fromBe32 a b c d := by
    intro large
    exact within _ (if_pos large)
  simp only [if_neg fits,if_neg (show ¬ big < fromBe32 a b c d by omega)]

theorem streamWiden {small big : Nat} {raw : Bytes} (wide : small ≤ big)
    (within : ∀ n, head small (remainder small raw) ≠ .oversize n) :
    decodeAll big raw = decodeAll small raw ∧ remainder big raw = remainder small raw := by
  induction raw using streamInduct small with
  | more raw f rest found ih =>
    have same : head big raw = .frame f rest := (headWiden wide (by simp [found])).trans found
    rw [remainderFrame found] at within
    rw [decodeAllFrame same,decodeAllFrame found,remainderFrame same,remainderFrame found,(ih within).1,(ih within).2]
    exact ⟨rfl,rfl⟩
  | stop raw broken =>
    rw [remainderStuck broken] at within
    have still : ∀ f rest, head big raw ≠ .frame f rest := by
      rw [headWiden wide within]
      exact broken
    rw [decodeAllStuck still,decodeAllStuck broken,remainderStuck still,remainderStuck broken]
    exact ⟨rfl,rfl⟩

end Guesthopper.FrameBytes
