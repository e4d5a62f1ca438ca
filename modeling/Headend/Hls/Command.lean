import Headend.Files

/-!
# The transcoder's command

The arguments that the transcoder is called with, and where its program is found.
-/

namespace Headend.Hls

structure Settings where
  /-- Seconds in a segment. -/
  segmentTime : Nat
  /-- Segments kept in the playlist. -/
  listSize : Nat
  deriving Repr, DecidableEq

/-- What stands before every segment in the playlist. -/
def segmentBase : String := "hls/"

/-- Names of segments, as the transcoder fills them in. -/
def segmentPattern (dir : String) : String := Path.join dir "%Y-%m-%d-%s.ts"

def arguments (s : Settings) (dir manifest : String) : List String := [
  "-fflags", "nobuffer+genpts", "-threads", "0", "-re", "-i", "pipe:0", "-i", "pipe:3",
  "-loglevel", "info", "-c:v", "libx264", "-preset", "ultrafast", "-tune", "zerolatency",
  "-crf", "30", "-maxrate", "2000k", "-bufsize", "1500k", "-pix_fmt", "yuv420p",
  "-c:a", "libopus", "-err_detect", "ignore_err", "-muxdelay", "0", "-map_metadata", "0",
  "-copyts", "-copytb", "0", "-strftime", "1", "-f", "hls",
  "-hls_time", toString s.segmentTime, "-hls_list_size", toString s.listSize,
  "-hls_flags", "delete_segments+independent_segments",
  "-hls_start_number_source", "datetime", "-hls_allow_cache", "0",
  "-hls_base_url", segmentBase, "-hls_segment_filename", segmentPattern dir, manifest]

/-! ## Finding the program -/

/-- The directories of a search path. -/
def searchPath (path : String) : List String := splitParts ':' path

/-- The first plain file of that name in the search path. A name with a slash is not looked for. -/
def findProgram (fs : Files) (path : Option String) (program : String) : Option String :=
  if program.contains '/' then (if fs.isFile program then some program else none)
  else path.bind fun path => ((searchPath path).map (Path.join · program)).find? fs.isFile

/-- Why no stream can be allocated without the program. -/
def programMissing (program : String) : String := "transcoder " ++ program ++ " not found"

end Headend.Hls
