import Rv32.Device.Frame

/-!
# Pictures as PPM files

The binary form of a picture: a header with the dimensions in decimal, then
three bytes for every pixel. A pixel's top byte is left out.
-/

namespace Rv32.Ppm

def header (width height : Nat) : List Byte :=
  s!"P6\n{width} {height}\n255\n".toUTF8.toList.map UInt8.toBitVec

/-- The red, green and blue bytes of a pixel. -/
def colors (pixel : Word) : List Byte :=
  [pixel.extractLsb' 16 8, pixel.extractLsb' 8 8, pixel.extractLsb' 0 8]

def encode (f : Frame) : List Byte :=
  header f.width f.height ++ f.pixels.flatMap colors

end Rv32.Ppm
