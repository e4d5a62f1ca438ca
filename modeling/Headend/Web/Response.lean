import Headend.Bytes
import Headend.Text.Json
import Headend.Web.Fault

/-!
# Responses

What a client gets. Players come from other sites, so every response lets any site read it.
-/

namespace Headend.Web

inductive Content where
  | bytes (data : Bytes)
  /-- The answer to an offer, section by section. -/
  | answer (sections : List (List String))
  deriving Repr, DecidableEq

structure Response where
  status : Nat
  headers : List (String × String)
  content : Content
  deriving Repr, DecidableEq

def textBytes (s : String) : Bytes := s.toUTF8.toList

def length (data : Bytes) : String × String := ("content-length", toString data.length)

/-- No response is to be kept by a cache that holds media or an answer. -/
def uncached : String × String := ("cache-control", "no-cache, no-store, private")

def contentType (mediaType : String) : String × String := ("content-type", mediaType)

namespace Response

def empty (status : Nat) : Response := ⟨status, [length []], .bytes []⟩

def text (status : Nat) (message : String) : Response :=
  let data := textBytes message
  ⟨status, [contentType Fault.contentType, length data], .bytes data⟩

def ofFault (f : Fault) : Response := text f.status f.publicMessage

def withHeader (r : Response) (h : String × String) : Response :=
  { r with headers := r.headers ++ [h] }

/-- The response without its content. -/
def headOnly (r : Response) : Response := { r with content := .bytes [] }

/-- What every response says to browsers. -/
def shared (r : Response) : Response := { r with
  headers := r.headers ++ [("access-control-allow-origin", "*"),
    ("vary", "origin, access-control-request-method, access-control-request-headers")] }

end Response

/-! ## Health -/

def health (version : String) (broadcaster : Option String) (isActive : Bool) : Response :=
  let data := textBytes (Json.object [("status", Json.quoted "ok"), ("version", Json.quoted version),
    ("broadcaster_id", (broadcaster.map Json.quoted).getD "null"),
    ("active_stream", toString isActive)])
  ⟨200, [contentType "application/json", length data], .bytes data⟩

end Headend.Web
