import Mathlib.Algebra.Group.Nat.Defs
import Mathlib.Data.List.Forall2
import SleepBlocker.Computation.Rounding
import SleepBlocker.Model.Icons

/-!
# The tray's icons are those of the window

The tray and the window decode PNGs each for themselves, into different formats. What is said
here of any file is that both accept it or neither does, and that the pixels of the tray are
those of the window, premultiplied: the alpha is the same, and each channel is the multiple of
the alpha rounded to the nearest, which no 32-bit overflow and no truncation to a byte gets in
the way of.
-/

set_option autoImplicit false

namespace SleepBlocker.Analysis

open SleepBlocker.Computation SleepBlocker.Model

/-- The crate decodes the first frame of the file to this. -/
def Decodes (png : Png) (bytes : List UInt8) (info : OutputInfo) (buf : List UInt8) : Prop :=
  ∃ reader size, png bytes = some reader ∧ reader.outputBufferSize = some size ∧
    reader.nextFrame (List.replicate size 0) = some (info, buf)

/-- What is documented of PNGs and of the crate: the first frame covers the image and so fills
the buffer, a row of 8-bit RGBA has four bytes for each pixel, and no side has 2³¹ pixels. -/
structure DocumentedPng (png : Png) : Prop where
  filled : ∀ bytes info buf, Decodes png bytes info buf → buf.length = info.bufferSize
  lineSize : ∀ bytes info buf, Decodes png bytes info buf → info.colorType = .rgba →
    info.bitDepth = .eight → info.lineSize = 4 * info.width.toNat
  dimensions : ∀ bytes info buf, Decodes png bytes info buf →
    info.width.toNat < 2 ^ 31 ∧ info.height.toNat < 2 ^ 31

/-- The channel `p` is `c` premultiplied with the alpha `a`. -/
structure Scaled (a c p : UInt8) : Prop where
  nearest : NearestQuotient (c.toNat * a.toNat) 255 p.toNat
  le_alpha : p.toNat ≤ a.toNat
  opaque_eq : a.toNat = 255 → p = c

/-- A pixel of the tray's format is a pixel of the window's, premultiplied. -/
def Premultiplied : UInt8 × UInt8 × UInt8 × UInt8 → UInt8 × UInt8 × UInt8 × UInt8 → Prop
  | (a', r', g', b'), (r, g, b, a) => a' = a ∧ Scaled a r r' ∧ Scaled a g g' ∧ Scaled a b b'

/-! ## One channel -/

/-- `pm` is rounded division by 255, without overflow. -/
theorem toNat_pm (a c : UInt8) :
    (pm a.toUInt32 c.toUInt32).toNat = roundDiv (c.toNat * a.toNat) 255 := by
  have ha := a.toNat_lt
  have hc := c.toNat_lt
  have hproduct : c.toNat * a.toNat ≤ 255 * 255 := Nat.mul_le_mul (by omega) (by omega)
  simp only [pm, roundDiv, UInt32.toNat_toUInt8, UInt32.toNat_div, UInt32.toNat_add,
    UInt32.toNat_mul, UInt8.toNat_toUInt32, UInt32.toNat_ofNat, Nat.reduceMod, Nat.reduceDiv,
    Nat.reducePow]
  omega

/-- `pm` scales a channel by the alpha, rounded to nearest. -/
theorem scaled_pm (a c : UInt8) : Scaled a c (pm a.toUInt32 c.toUInt32) := by
  have hc := c.toNat_lt
  refine ⟨?_, ?_, fun ha => ?_⟩
  · rw [toNat_pm]
    exact (roundDiv_eq_iff rfl).mp rfl
  · rw [toNat_pm]
    exact roundDiv_le rfl (Nat.mul_le_mul_right _ (by omega))
  · apply UInt8.toNat_inj.mp
    rw [toNat_pm, ha, Nat.mul_comm]
    exact roundDiv_mul rfl _

/-! ## The buffers -/

/-- The pixels of the tray icon, taken in fours again. -/
theorem chunksExact_argb (l : List (UInt8 × UInt8 × UInt8 × UInt8)) :
    chunksExact (l.flatMap argb) =
      l.map fun (r, g, b, a) =>
        (a, pm a.toUInt32 r.toUInt32, pm a.toUInt32 g.toUInt32, pm a.toUInt32 b.toUInt32) := by
  induction l with
  | nil => rfl
  | cons px l ih =>
      obtain ⟨r, g, b, a⟩ := px
      simp only [List.flatMap_cons, argb, List.cons_append, List.nil_append, chunksExact, ih,
        List.map_cons]

/-- Every pixel of the tray icon has four bytes. -/
theorem length_flatMap_argb (l : List (UInt8 × UInt8 × UInt8 × UInt8)) :
    (l.flatMap argb).length = 4 * l.length := by
  induction l with
  | nil => rfl
  | cons px l ih =>
      rw [List.flatMap_cons, List.length_append, ih, List.length_cons]
      simp only [argb, List.length_cons, List.length_nil]
      omega

/-- Whole chunks leave nothing out. -/
theorem length_chunksExact {α : Type} {l : List α} {n : ℕ} (h : l.length = 4 * n) :
    (chunksExact l).length = n := by
  induction n generalizing l with
  | zero =>
      obtain rfl := List.length_eq_zero_iff.mp h
      rfl
  | succ n ih =>
      match l, h with
      | x :: y :: z :: w :: rest, h =>
          simp only [List.length_cons] at h
          rw [chunksExact, List.length_cons, ih (by omega)]

/-- The pixels, one by one. -/
theorem forall₂_premultiplied (l : List (UInt8 × UInt8 × UInt8 × UInt8)) :
    List.Forall₂ Premultiplied (chunksExact (l.flatMap argb)) l := by
  rw [chunksExact_argb, List.forall₂_map_left_iff, List.forall₂_same]
  rintro ⟨r, g, b, a⟩ -
  exact ⟨rfl, scaled_pm a r, scaled_pm a g, scaled_pm a b⟩

/-! ## The two decoders -/

/-- A dimension below 2^31 is the same as a signed one. -/
theorem toInt_toInt32 {n : UInt32} (h : n.toNat < 2 ^ 31) : n.toInt32.toInt = n.toNat := by
  show n.toBitVec.toInt = _
  rw [BitVec.toInt_eq_toNat_of_lt]
  · rfl
  · show 2 * n.toNat < 2 ^ 32
    omega

variable {png : Png} {bytes : List UInt8}

/-- Both decoders reject the same frames. -/
theorem accepted_iff {α : Type} (info : OutputInfo) (x y : α) :
    (if (info.colorType != .rgba || info.bitDepth != .eight) = true then none else some x) =
        some y ↔
      info.colorType = .rgba ∧ info.bitDepth = .eight ∧ x = y := by
  by_cases hcolor : info.colorType = .rgba <;> by_cases hdepth : info.bitDepth = .eight <;>
    simp [hcolor, hdepth]

/-- What a tray icon comes from. -/
theorem decodePng_eq_some {icon : Icon} :
    decodePng png bytes = some icon ↔ ∃ info buf, Decodes png bytes info buf ∧
      info.colorType = .rgba ∧ info.bitDepth = .eight ∧
      ⟨info.width.toInt32, info.height.toInt32, (chunksExact buf).flatMap argb⟩ = icon := by
  simp only [decodePng, Option.bind_eq_bind, Option.bind_eq_some_iff, Prod.exists, accepted_iff,
    Decodes]
  constructor
  · rintro ⟨reader, hreader, size, hsize, info, buf, hframe, h⟩
    exact ⟨info, buf, ⟨reader, size, hreader, hsize, hframe⟩, h⟩
  · rintro ⟨info, buf, ⟨reader, size, hreader, hsize, hframe⟩, h⟩
    exact ⟨reader, hreader, size, hsize, info, buf, hframe, h⟩

/-- What a window icon comes from. -/
theorem windowIcon_eq_some {data : IconData} :
    windowIcon png bytes = some data ↔ ∃ info buf, Decodes png bytes info buf ∧
      info.colorType = .rgba ∧ info.bitDepth = .eight ∧
      ⟨buf.take info.bufferSize, info.width, info.height⟩ = data := by
  simp only [windowIcon, Option.bind_eq_bind, Option.bind_eq_some_iff, Prod.exists, accepted_iff,
    Decodes]
  constructor
  · rintro ⟨reader, hreader, size, hsize, info, buf, hframe, h⟩
    exact ⟨info, buf, ⟨reader, size, hreader, hsize, hframe⟩, h⟩
  · rintro ⟨info, buf, ⟨reader, size, hreader, hsize, hframe⟩, h⟩
    exact ⟨reader, hreader, size, hsize, info, buf, hframe, h⟩

/-- A file decodes to one picture. -/
theorem Decodes.unique {info info' : OutputInfo} {buf buf' : List UInt8}
    (h : Decodes png bytes info buf) (h' : Decodes png bytes info' buf') :
    info = info' ∧ buf = buf' := by
  obtain ⟨reader, size, hreader, hsize, hframe⟩ := h
  obtain ⟨reader', size', hreader', hsize', hframe'⟩ := h'
  obtain rfl : reader = reader' := Option.some.inj (hreader.symm.trans hreader')
  obtain rfl : size = size' := Option.some.inj (hsize.symm.trans hsize')
  exact Prod.mk.inj (Option.some.inj (hframe.symm.trans hframe'))

/-- **The tray's icons are those of the window.** Of any file the tray's decoder and the
window's make an icon, or neither does. Then the sides are the same, the data is exactly that
of all pixels, and each pixel of the tray has the alpha of the window's and its channels
premultiplied: rounded to the nearest, at most the alpha, and unchanged where it is opaque.
SOURCE: tray.rs:242-273, main.rs:36-51 -/
theorem tray_icon_is_window_icon (hpng : DocumentedPng png) (bytes : List UInt8) :
    (decodePng png bytes = none ↔ windowIcon png bytes = none) ∧
      ∀ icon data, decodePng png bytes = some icon → windowIcon png bytes = some data →
        icon.width.toInt = data.width.toNat ∧ icon.height.toInt = data.height.toNat ∧
        icon.data.length = 4 * (data.width.toNat * data.height.toNat) ∧
        List.Forall₂ Premultiplied (chunksExact icon.data) (chunksExact data.rgba) := by
  constructor
  · simp only [Option.eq_none_iff_forall_ne_some, ne_eq, decodePng_eq_some, windowIcon_eq_some]
    constructor
    · rintro h data ⟨info, buf, hdecodes, hcolor, hdepth, -⟩
      exact h _ ⟨info, buf, hdecodes, hcolor, hdepth, rfl⟩
    · rintro h icon ⟨info, buf, hdecodes, hcolor, hdepth, -⟩
      exact h _ ⟨info, buf, hdecodes, hcolor, hdepth, rfl⟩
  · intro icon data hicon hdata
    obtain ⟨info, buf, hdecodes, hcolor, hdepth, rfl⟩ := decodePng_eq_some.mp hicon
    obtain ⟨info', buf', hdecodes', -, -, rfl⟩ := windowIcon_eq_some.mp hdata
    obtain ⟨rfl, rfl⟩ := hdecodes.unique hdecodes'
    obtain ⟨hwidth, hheight⟩ := hpng.dimensions _ _ _ hdecodes
    have hfilled := hpng.filled _ _ _ hdecodes
    have hlength : buf.length = 4 * (info.width.toNat * info.height.toNat) := by
      rw [hfilled, OutputInfo.bufferSize, hpng.lineSize _ _ _ hdecodes hcolor hdepth,
        Nat.mul_assoc]
    refine ⟨toInt_toInt32 hwidth, toInt_toInt32 hheight, ?_, ?_⟩
    · rw [length_flatMap_argb, length_chunksExact hlength]
    · rw [List.take_of_length_le (Nat.le_of_eq hfilled)]
      exact forall₂_premultiplied _

/-- A crate that takes a file for the pixels of an image of one row. -/
def oneRow : Png := fun bytes =>
  let width := bytes.length / 4
  if width < 2 ^ 31 then
    some {
      outputBufferSize := some (4 * width)
      nextFrame := fun buf =>
        some (⟨width.toUInt32, 1, .rgba, .eight, 4 * width⟩, bytes.take buf.length) }
  else none

/-- The decoder of the one row behaves as documented. -/
theorem documented_oneRow : DocumentedPng oneRow := by
  have hdecodes : ∀ {bytes info buf}, Decodes oneRow bytes info buf →
      bytes.length / 4 < 2 ^ 31 ∧
        info = ⟨(bytes.length / 4).toUInt32, 1, .rgba, .eight, 4 * (bytes.length / 4)⟩ ∧
        buf = bytes.take (4 * (bytes.length / 4)) := by
    rintro bytes info buf ⟨reader, size, hreader, hsize, hframe⟩
    simp only [oneRow, Option.ite_none_right_eq_some, Option.some.injEq] at hreader
    obtain ⟨hwidth, rfl⟩ := hreader
    simp only [Option.some.injEq] at hsize hframe
    subst hsize
    simp only [List.length_replicate, Prod.mk.injEq] at hframe
    exact ⟨hwidth, hframe.1.symm, hframe.2.symm⟩
  have hside : ∀ {n : ℕ}, n < 2 ^ 31 → n.toUInt32.toNat = n := fun h => by
    simp only [Nat.toUInt32_eq, UInt32.toNat_ofNat']
    omega
  constructor
  · intro bytes info buf h
    obtain ⟨-, rfl, rfl⟩ := hdecodes h
    simp only [OutputInfo.bufferSize, List.length_take]
    show _ = 4 * (bytes.length / 4) * 1
    omega
  · intro bytes info buf h _ _
    obtain ⟨hwidth, rfl, rfl⟩ := hdecodes h
    simp only [hside hwidth]
  · intro bytes info buf h
    obtain ⟨hwidth, rfl, rfl⟩ := hdecodes h
    simp only [hside hwidth]
    exact ⟨hwidth, by decide⟩

/-- An opaque pixel and one that is not. -/
theorem tray_icon_is_window_icon_oneRow :
    let bytes : List UInt8 := [10, 20, 30, 255, 200, 100, 0, 128]
    decodePng oneRow bytes = some ⟨2, 1, [255, 10, 20, 30, 128, 100, 50, 0]⟩ ∧
      List.Forall₂ Premultiplied (chunksExact [255, 10, 20, 30, 128, 100, 50, 0])
        (chunksExact bytes) := by
  intro bytes
  have hicon : decodePng oneRow bytes = some ⟨2, 1, [255, 10, 20, 30, 128, 100, 50, 0]⟩ := by
    decide
  refine ⟨hicon, ?_⟩
  exact ((tray_icon_is_window_icon documented_oneRow bytes).2 _ ⟨bytes, 2, 1⟩ hicon
    (by decide)).2.2.2

end SleepBlocker.Analysis
