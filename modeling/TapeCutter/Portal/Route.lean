import TapeCutter.Log
import TapeCutter.Portal.Request
import TapeCutter.Settings.Basic

/-! Where a request is sent. Devices that join the network ask well-known
addresses whether they are online; the answers make them open the front page.
There a visitor passes from the landing page to the status page, and later
visits of the device are told that all is well. -/
namespace TapeCutter

namespace Portal

/-- What the front page shows. -/
inductive Page where
  /-- A link that leads out of the small window the device opens. -/
  | captive
  /-- Tells the device that it is online. -/
  | success
  /-- The live status. -/
  | main
deriving DecidableEq

inductive Response where
  | page (page : Page)
  | statusJson
  | redirect (location : Text.Bounded 32)
  /-- An empty reply with this status code. -/
  | code (code : UInt16)
deriving DecidableEq

end Portal

/-- The portal: where it lives, and whether the status page has been reached. -/
structure Portal where
  url : Text.Bounded 24
  opened : Bool := false
deriving DecidableEq

namespace Portal

def ofSettings (network : NetworkSettings) : Portal := { url := network.address.url }

/-- A location that does not fit is left empty. -/
def redirectTo (location : String) : Response := .redirect (.ofPieces [location])

def containsWord (word text : String) : Bool := text.contains word

/-- The front page. One kind of host is turned away. -/
def root (portal : Portal) (request : Request) : Response × Portal × List Log.Line :=
  if containsWord "citrix" request.host then (.code 404, portal, [])
  else if request.hasParam "redirect" then
    (.page .main, { portal with opened := true },
      if portal.opened then [] else [Log.info ("Portal: opened by " ++ request.host)])
  else if portal.opened then (.page .success, portal, [])
  else (.page .captive, portal, [])

/-- The addresses that devices ask to find out whether they are online. -/
def probes : List String :=
  ["/generate_204", "/redirect", "/hotspot-detect.html", "/canonical.html", "/ncsi.txt"]

/-- The reply to a request. Only the front page can change the portal. -/
def route (portal : Portal) (request : Request) : Response × Portal × List Log.Line :=
  if request.path = "/" then portal.root request
  else if request.path = "/status.json" then (.statusJson, portal, [])
  else if request.path = "/connecttest.txt" then (redirectTo "http://logout.net", portal, [])
  else if request.path = "/wpad.dat" ∨ request.path = "/favicon.ico" then (.code 404, portal, [])
  else if request.path = "/success.txt" then (.code 200, portal, [])
  else if request.path ∈ probes then (redirectTo portal.url.text, portal, [])
  else
    (redirectTo portal.url.text, portal,
      [Log.debug ("Portal: " ++ request.host ++ request.path ++ " -> " ++ portal.url.text)])

end Portal

end TapeCutter
