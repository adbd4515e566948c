import MasterSystem.Video.Frame

/-! # Pixmaps

The file format in which a picture is kept: the marker `P6`, the size and the largest component in
decimal, and three bytes for each pixel. -/

namespace MasterSystem.Video.Frame

/-- The lines in front of the pixels. -/
def pixmapHeader (f : Frame) : String :=
  "P6\n" ++ toString f.width ++ " " ++ toString f.height ++ "\n255\n"

/-- The picture as a pixmap. -/
def pixmap (f : Frame) : Array UInt8 := f.pixmapHeader.toUTF8.data ++ f.encode .rgb888

end MasterSystem.Video.Frame
