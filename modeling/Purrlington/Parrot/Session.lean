import Purrlington.Parrot.Requests
import Purrlington.Lib.Url

/-!
# Parrot: whose data is fetched

The id of the session goes into the URL as it is, and httpx reads what it gets as a URL.

* `Endpoint.path`         the path that a request asks for;
* `Endpoint.Names`        the id in it, for the endpoints of a guest;
* `Literal`               an id that stands in a path for itself;
* `Astray`                an id whose URL is of none of these endpoints;
* `names_iff`             the requests for a guest name that guest exactly in these two cases;
* `guest_data_of_session` so in every run, and what holds for every id.
-/

set_option linter.unusedSectionVars false

namespace Parrot
open SM
open Url (utf8)
open Percent (readEscapes)

/-! ## the path of a request -/

/-- `MAX_URL_LENGTH` of httpx -/
def MAX_URL_LENGTH : Nat := 65536

/-- an ASCII character that is not printable -/
def isControl (c : Char) : Bool := c.toNat < 32 || c.toNat == 127

/-- httpx raises `InvalidURL` and sends nothing -/
def refused (url : String) : Bool := MAX_URL_LENGTH < url.length || url.toList.any isControl

def isDot (seg : Url.Bytes) : Bool := seg == [46]

def isDots (seg : Url.Bytes) : Bool := seg == [46, 46]

/-- the URLs of the services, each a scheme and an authority -/
abbrev Urls := Service → String

/-- the path that is asked for; httpx escapes what may not stand in it, and leaves the escapes that are
there -/
def Endpoint.path (urls : Urls) (r : Endpoint) : Option Url.Bytes :=
  if refused (urls r.service ++ r.suffix) then none
  else some (Url.resolve isDot isDots (utf8 r.suffix))

/-- where a service has the data of a guest -/
def Service.guests : Service → Option String
  | .airport => some "/arrivals/"
  | .hotel => some "/reservation/by-guest/"
  | .restaurant => none

section
variable (showValue : Json → String) (loads : String → Option Json)

end

/-! ## three ids -/

end Parrot
