import Mathlib.Data.List.Basic
import Mathlib.Tactic.Common

/-!
# AnyTLS frames

A frame is a command, a stream id, the length of its body and the body. `frames` reads the whole
frames of a byte stream and leaves an incomplete one out.
-/

namespace zc.anytls

/-- `u16::to_be_bytes`. -/
def be16 (n : Nat) : List UInt8 :=
  [UInt8.ofNat (n / 256), UInt8.ofNat n]

/-- `u32::to_be_bytes`. -/
def be32 (n : UInt32) : List UInt8 :=
  [UInt8.ofNat (n.toNat / 16777216), UInt8.ofNat (n.toNat / 65536), UInt8.ofNat (n.toNat / 256), UInt8.ofNat n.toNat]

/-- `u16::from_be_bytes`. -/
def ofBe16 (high low : UInt8) : Nat :=
  high.toNat * 256 + low.toNat

/-- `u32::from_be_bytes`. -/
def ofBe32 (a b c d : UInt8) : UInt32 :=
  UInt32.ofNat (((a.toNat * 256 + b.toNat) * 256 + c.toNat) * 256 + d.toNat)

def append_frame (out : List UInt8) (cmd : UInt8) (id : UInt32) (body : List UInt8) : List UInt8 :=
  out ++ [cmd] ++ be32 id ++ be16 body.length ++ body

structure Frame where
  cmd : UInt8
  id : UInt32
  body : List UInt8
  fits : body.length < 65536

namespace Frame

theorem nil_fits : ([] : List UInt8).length < 65536 := by
  decide

def bytes (frame : Frame) : List UInt8 :=
  append_frame [] frame.cmd frame.id frame.body

end Frame

/-- The bytes of some frames. -/
def encode (frames : List Frame) : List UInt8 :=
  frames.flatMap Frame.bytes

@[simp]
theorem encode_nil : encode [] = [] :=
  rfl

@[simp]
theorem encode_cons (frame : Frame) (frames : List Frame) : encode (frame :: frames) = frame.bytes ++ encode frames :=
  List.flatMap_cons

@[simp]
theorem encode_append (frames frames' : List Frame) : encode (frames ++ frames') = encode frames ++ encode frames' :=
  List.flatMap_append

theorem append_frame_eq (out : List UInt8) (frame : Frame) : append_frame out frame.cmd frame.id frame.body = out ++ frame.bytes := by
  simp [Frame.bytes, append_frame]

/-! ## Reading frames -/

theorem ofBe16_be16 {n : Nat} (hn : n < 65536) : ofBe16 (UInt8.ofNat (n / 256)) (UInt8.ofNat n) = n := by
  rw [ofBe16, UInt8.toNat_ofNat', UInt8.toNat_ofNat']
  omega

theorem ofBe32_be32 (n : UInt32) : ofBe32 (UInt8.ofNat (n.toNat / 16777216)) (UInt8.ofNat (n.toNat / 65536))
    (UInt8.ofNat (n.toNat / 256)) (UInt8.ofNat n.toNat) = n := by
  have hn := n.toNat_lt
  rw [ofBe32, UInt8.toNat_ofNat', UInt8.toNat_ofNat', UInt8.toNat_ofNat', UInt8.toNat_ofNat']
  apply UInt32.toNat_inj.1
  rw [UInt32.toNat_ofNat']
  omega

/-- The first frame of a stream, if it is whole. -/
def firstFrame : List UInt8 → Option (Frame × List UInt8)
  | cmd :: a :: b :: c :: d :: high :: low :: rest =>
    if h : ofBe16 high low ≤ rest.length ∧ ofBe16 high low < 65536 then
      some (⟨cmd, ofBe32 a b c d, rest.take (ofBe16 high low), by rw [List.length_take]; omega⟩, rest.drop (ofBe16 high low))
    else none
  | _ => none

theorem firstFrame_bytes (frame : Frame) (rest : List UInt8) : firstFrame (frame.bytes ++ rest) = some (frame, rest) := by
  have hlen := ofBe16_be16 frame.fits
  have hid := ofBe32_be32 frame.id
  have hbytes : frame.bytes ++ rest = frame.cmd :: UInt8.ofNat (frame.id.toNat / 16777216) :: UInt8.ofNat (frame.id.toNat / 65536) ::
      UInt8.ofNat (frame.id.toNat / 256) :: UInt8.ofNat frame.id.toNat :: UInt8.ofNat (frame.body.length / 256) ::
      UInt8.ofNat frame.body.length :: (frame.body ++ rest) := by
    simp [Frame.bytes, append_frame, be32, be16]
  rw [hbytes, firstFrame]
  simp only [hlen, hid]
  rw [dif_pos ⟨by simp, frame.fits⟩]
  simp only [List.take_left, List.drop_left]

theorem length_lt_of_firstFrame {bytes rest : List UInt8} {frame : Frame} (hfirst : firstFrame bytes = some (frame, rest)) :
    rest.length < bytes.length := by
  unfold firstFrame at hfirst
  split at hfirst
  · split at hfirst
    · obtain ⟨-, rfl⟩ := Prod.mk.inj (Option.some.inj hfirst)
      simp only [List.length_drop, List.length_cons]
      omega
    · cases hfirst
  · cases hfirst

def framesUpTo : Nat → List UInt8 → List Frame
  | 0, _ => []
  | n + 1, bytes =>
    match firstFrame bytes with
    | some (frame, rest) => frame :: framesUpTo n rest
    | none => []

/-- The whole frames that a stream starts with. -/
def frames (bytes : List UInt8) : List Frame :=
  framesUpTo bytes.length bytes

theorem framesUpTo_congr {n m : Nat} {bytes : List UInt8} (hn : bytes.length ≤ n) (hm : bytes.length ≤ m) :
    framesUpTo n bytes = framesUpTo m bytes := by
  induction n generalizing m bytes with
  | zero =>
    obtain rfl := List.length_eq_zero_iff.1 (Nat.le_zero.1 hn)
    cases m <;> rfl
  | succ n ih =>
    cases m with
    | zero =>
      obtain rfl := List.length_eq_zero_iff.1 (Nat.le_zero.1 hm)
      rfl
    | succ m =>
      rw [framesUpTo, framesUpTo]
      cases hfirst : firstFrame bytes with
      | none => rfl
      | some result =>
        obtain ⟨frame, rest⟩ := result
        have hlt := length_lt_of_firstFrame hfirst
        dsimp only
        rw [ih (by omega) (by omega : rest.length ≤ m)]

theorem frames_eq (bytes : List UInt8) : frames bytes =
    match firstFrame bytes with
    | some (frame, rest) => frame :: frames rest
    | none => [] := by
  cases bytes with
  | nil => rfl
  | cons first rest =>
    rw [frames, List.length_cons, framesUpTo]
    cases hfirst : firstFrame (first :: rest) with
    | none => rfl
    | some result =>
      have hlt := length_lt_of_firstFrame hfirst
      dsimp only
      rw [frames, framesUpTo_congr (by rw [List.length_cons] at hlt; omega) (Nat.le_refl _)]

/-- The frames of a stream that starts with a whole one. -/
@[simp]
theorem frames_bytes_append (frame : Frame) (rest : List UInt8) : frames (frame.bytes ++ rest) = frame :: frames rest := by
  rw [frames_eq, firstFrame_bytes]

@[simp]
theorem frames_encode_append (log : List Frame) (rest : List UInt8) : frames (encode log ++ rest) = log ++ frames rest := by
  induction log with
  | nil => rfl
  | cons frame log ih => rw [encode_cons, List.append_assoc, frames_bytes_append, ih, List.cons_append]

theorem frames_encode (log : List Frame) : frames (encode log) = log := by
  have hlog := frames_encode_append log []
  rw [List.append_nil] at hlog
  rw [hlog]
  exact List.append_nil log

theorem firstFrame_append {bytes rest : List UInt8} {frame : Frame} (hfirst : firstFrame bytes = some (frame, rest))
    (more : List UInt8) : firstFrame (bytes ++ more) = some (frame, rest ++ more) := by
  unfold firstFrame at hfirst
  split at hfirst
  · next cmd a b c d high low rest =>
    split at hfirst
    · next h =>
      obtain ⟨rfl, rfl⟩ := Prod.mk.inj (Option.some.inj hfirst)
      change firstFrame (cmd :: a :: b :: c :: d :: high :: low :: (rest ++ more)) = _
      rw [firstFrame]
      rw [dif_pos ⟨by rw [List.length_append]; omega, h.2⟩]
      simp only [List.take_append_of_le_length h.1, List.drop_append_of_le_length h.1]
    · cases hfirst
  · cases hfirst

/-- More bytes only add frames. -/
theorem frames_mono {bytes bytes' : List UInt8} (hstarts : bytes <+: bytes') : frames bytes <+: frames bytes' := by
  obtain ⟨more, rfl⟩ := hstarts
  induction hlength : bytes.length using Nat.strongRecOn generalizing bytes with
  | ind n ih =>
    rw [frames_eq bytes]
    cases hfirst : firstFrame bytes with
    | none => exact List.nil_prefix
    | some result =>
      obtain ⟨frame, rest⟩ := result
      rw [frames_eq (bytes ++ more), firstFrame_append hfirst]
      dsimp only
      have hlt := length_lt_of_firstFrame hfirst
      exact List.prefix_cons_inj frame |>.2 (ih rest.length (hlength ▸ hlt) rfl)

/-- The whole frames of what has been sent of some frames are the first of them. -/
theorem frames_of_encode {bytes : List UInt8} {log : List Frame} (hstarts : bytes <+: encode log) : frames bytes <+: log :=
  frames_encode log ▸ frames_mono hstarts

theorem be16_ofBe16 (high low : UInt8) : be16 (ofBe16 high low) = [high, low] := by
  have hhigh := high.toNat_lt
  have hlow := low.toNat_lt
  rw [be16, ofBe16]
  congr 1
  · apply UInt8.toNat_inj.1
    rw [UInt8.toNat_ofNat']
    omega
  · congr 1
    apply UInt8.toNat_inj.1
    rw [UInt8.toNat_ofNat']
    omega

theorem be32_ofBe32 (a b c d : UInt8) : be32 (ofBe32 a b c d) = [a, b, c, d] := by
  have ha := a.toNat_lt
  have hb := b.toNat_lt
  have hc := c.toNat_lt
  have hd := d.toNat_lt
  rw [be32, ofBe32, UInt32.toNat_ofNat']
  refine List.cons_eq_cons.2 ⟨?_, List.cons_eq_cons.2 ⟨?_, List.cons_eq_cons.2 ⟨?_, List.cons_eq_cons.2 ⟨?_, rfl⟩⟩⟩⟩
  all_goals
    apply UInt8.toNat_inj.1
    rw [UInt8.toNat_ofNat']
    omega

end zc.anytls
