import TapeCutter.Portal.Page
import TapeCutter.Portal.Route

/-! Replies over the web. Pages and the status carry their type and must not be
kept by a browser; a redirect carries its location and nothing else. -/
namespace TapeCutter.Portal

structure HttpReply where
  status : UInt16
  contentType : Option String := none
  location : Option String := none
  body : String := ""
deriving DecidableEq

namespace HttpReply

def cacheControl : String := "public,no-store"

/-- The headers in the order they are sent. -/
def headers (reply : HttpReply) : List (String × String) :=
  (match reply.contentType with
    | some kind => [("Content-Type", kind), ("Cache-Control", cacheControl)]
    | none => []) ++
  (match reply.location with
    | some location => [("Location", location)]
    | none => [])

/-- What a page says, given the latest report. -/
def pageBody (report : StatusReport) : Page → String
  | .captive => captivePage
  | .success => successPage
  | .main => mainPage (.ofReport report)

def ofResponse (report : StatusReport) : Response → HttpReply
  | .page page => { status := 200, contentType := some "text/html", body := pageBody report page }
  | .statusJson =>
      { status := 200
        contentType := some "application/json"
        body := (Snapshot.ofReport report).render }
  | .redirect location => { status := 302, location := some location.text }
  | .code code => { status := code }

end HttpReply

/-- One request, answered with the latest report. -/
def handle (portal : Portal) (report : StatusReport) (host target : String) :
    HttpReply × Portal × List Log.Line :=
  let (response, portal, lines) := portal.route (.ofTarget host target)
  (.ofResponse report response, portal, lines)

end TapeCutter.Portal
