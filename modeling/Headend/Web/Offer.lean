import Headend.Text.Space
import Headend.Text.Utf8
import Headend.Web.Fault

/-!
# Reading an offer

The body of a publishing or subscribing request is an offer: text in UTF-8 that is not blank.
-/

namespace Headend.Web

def readOffer (body : Bytes) : Except Fault String :=
  match Utf8.decode body with
  | .error e => .error (.badOffer ("Offer is not UTF-8: " ++ e.message))
  | .ok text => if isBlank text then .error (.badOffer "Empty offer") else .ok text

end Headend.Web
