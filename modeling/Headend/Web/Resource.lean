import Headend.Text.Split

/-!
# Resources

What the server answers for, and with which methods.
-/

namespace Headend.Web

inductive Resource where
  | health
  /-- Publishing to the active stream. -/
  | ingress
  /-- Publishing to the orchestrated stream. -/
  | legacy
  /-- Subscribing to the active stream. -/
  | egress
  | playlist
  | segment (name : String)
  deriving Repr, DecidableEq

namespace Resource

def find? (path : String) : Option Resource :=
  match splitParts '/' path with
  | ["", "api", "health"] => some health
  | ["", "api", "ingress", "whip"] => some ingress
  | ["", "api", "consumer", "whip"] => some legacy
  | ["", "api", "egress", "whep"] => some egress
  | ["", "api", "egress", "hls"] => some playlist
  | ["", "api", "egress", "hls", name] => if name.isEmpty then none else some (segment name)
  | _ => none

/-- Whether it is read; what is not is posted to. -/
def isRead : Resource → Bool
  | health | playlist | segment _ => true
  | ingress | legacy | egress => false

/-- Methods that are let through to it. -/
def methods : Resource → List String
  | health | playlist | segment _ => ["GET", "HEAD"]
  | ingress | legacy => ["POST"]
  | egress => ["POST", "OPTIONS"]

def allow (r : Resource) : String × String := ("allow", ",".intercalate r.methods)

end Resource

end Headend.Web
