import Mathlib.Data.Nat.Notation

/-!
# The decoders of the icons

The model of `decode_png` in `tray.rs` and of `window_icon` in `main.rs`, which make of a PNG
what the tray and what the window publish. The `png` crate is a parameter: what its decoder
reports of a file, and what `next_frame` writes into the buffer it is given.
-/

set_option autoImplicit false

namespace SleepBlocker.Model

/-- `png::ColorType`. -/
inductive ColorType where
  | grayscale
  | rgb
  | indexed
  | grayscaleAlpha
  | rgba
  deriving DecidableEq, Repr

/-- `png::BitDepth`. -/
inductive BitDepth where
  | one
  | two
  | four
  | eight
  | sixteen
  deriving DecidableEq, Repr

/-- `png::OutputInfo`. -/
structure OutputInfo where
  width : UInt32
  height : UInt32
  colorType : ColorType
  bitDepth : BitDepth
  lineSize : ℕ
  deriving DecidableEq, Repr

/-- The bytes of the whole image. -/
def OutputInfo.bufferSize (info : OutputInfo) : ℕ := info.lineSize * info.height.toNat

/-- `png::Reader`, before its first frame. -/
structure PngReader where
  outputBufferSize : Option ℕ
  /-- The frame's info, and the buffer with the frame in it. -/
  nextFrame : List UInt8 → Option (OutputInfo × List UInt8)

/-- The `png` crate: `Decoder::read_info` on a file. -/
abbrev Png := List UInt8 → Option PngReader

/-- `ksni::Icon`. -/
structure Icon where
  width : Int32
  height : Int32
  data : List UInt8
  deriving DecidableEq, Repr

/-- `egui::IconData`. -/
structure IconData where
  rgba : List UInt8
  width : UInt32
  height : UInt32
  deriving DecidableEq, Repr

/-- `chunks_exact(4)`, which leaves out an incomplete chunk at the end. -/
def chunksExact {α : Type} : List α → List (α × α × α × α)
  | x :: y :: z :: w :: rest => (x, y, z, w) :: chunksExact rest
  | _ => []

/-- `pm`: a channel, premultiplied with the alpha. -/
def pm (a c : UInt32) : UInt8 := ((c * a + 127) / 255).toUInt8

/-- The four bytes that a pixel becomes. -/
def argb : UInt8 × UInt8 × UInt8 × UInt8 → List UInt8
  | (r, g, b, a) =>
    [a, pm a.toUInt32 r.toUInt32, pm a.toUInt32 g.toUInt32, pm a.toUInt32 b.toUInt32]

/-- `decode_png` of tray.rs: the pixels as premultiplied ARGB. -/
def decodePng (png : Png) (bytes : List UInt8) : Option Icon := do
  let reader ← png bytes
  let buf := List.replicate (← reader.outputBufferSize) 0
  let (info, buf) ← reader.nextFrame buf
  if info.colorType != .rgba || info.bitDepth != .eight then none
  else
    some {
      width := info.width.toInt32
      height := info.height.toInt32
      data := (chunksExact buf).flatMap argb }

/-- `window_icon` of main.rs: the pixels as they are. -/
def windowIcon (png : Png) (bytes : List UInt8) : Option IconData := do
  let reader ← png bytes
  let buf := List.replicate (← reader.outputBufferSize) 0
  let (info, buf) ← reader.nextFrame buf
  if info.colorType != .rgba || info.bitDepth != .eight then none
  else some { rgba := buf.take info.bufferSize, width := info.width, height := info.height }

end SleepBlocker.Model
