import Headend.Files
import Headend.Text.Quote
import Headend.Web.Fault

/-!
# Names of segments

A segment is asked for by its name, which has to be a single name inside the output directory.
-/

namespace Headend.Hls

/-- Characters that could lead out of the directory, or end the path. -/
def forbidden : List Char := ['/', '\\', '\x00']

def isSegmentName (name : String) : Bool :=
  name != "" && name != "." && name != ".." && !name.toList.any forbidden.contains

/-- Whether a segment may be asked for by this name, and if not, how the request fails. -/
def validateSegment (name : String) : Except Web.Fault Unit :=
  if isSegmentName name then .ok ()
  else .error (.badRequest ("Invalid segment name " ++ Quote.text name))

/-- Where a segment is opened. -/
def segmentPath (dir name : String) : String := Path.join dir name

end Headend.Hls
