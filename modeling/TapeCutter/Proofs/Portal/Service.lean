import TapeCutter.Portal.Http
import TapeCutter.Proofs.Json.Formats
import TapeCutter.Proofs.Portal.Visits

/-! The portal in service while the status changes. Visits and reports come in any order, and
a report may even come between the decision on a visit and the writing of its reply. Every
reply tells the last report before it, the status page and the JSON alike, and depends on
nothing else but the visit and whether the portal is open. -/
namespace TapeCutter.Portal

namespace Snapshot

/-- The snapshot says what the report says, and leaves nothing of it out. -/
structure Tells (snapshot : Snapshot) (report : StatusReport) : Prop where
  resistorsPerKit : snapshot.resistorsPerKit = report.quantityPerKit
  kits : snapshot.kits = report.kitCount
  runningClass : snapshot.runningClass.text = report.status.styleClass
  runningText : snapshot.runningText.text = report.status.label
  progress : snapshot.progress = report.percent

/-- A snapshot tells its report, since every word of a status fits. -/
theorem tells_ofReport (report : StatusReport) : (ofReport report).Tells report where
  resistorsPerKit := rfl
  kits := rfl
  runningClass := Text.Bounded.text_ofPieces_singleton (by cases report.status <;> decide)
  runningText := Text.Bounded.text_ofPieces_singleton (by cases report.status <;> decide)
  progress := rfl

end Snapshot

/-- The reply has something to show: a page or the status. -/
def Response.Shows (response : Response) : Prop :=
  (∃ page, response = .page page) ∨ response = .statusJson

def Response.Redirects (response : Response) : Prop := ∃ location, response = .redirect location

/-- What comes with a reply. Only what is shown has a type, is kept from caches and has a body,
and only a redirect has a location. -/
structure HttpReply.Suits (reply : HttpReply) (response : Response) : Prop where
  type_iff : "Content-Type" ∈ reply.headers.map Prod.fst ↔ response.Shows
  cache_iff : "Cache-Control" ∈ reply.headers.map Prod.fst ↔ response.Shows
  location_iff : "Location" ∈ reply.headers.map Prod.fst ↔ response.Redirects
  empty_body : ¬ response.Shows → reply.body = ""

/-- Every response is sent with the code and the headers that suit it. -/
theorem HttpReply.suits_ofResponse (report : StatusReport) (response : Response) :
    (ofResponse report response).Suits response := by
  cases response <;>
    constructor <;> simp [ofResponse, headers, Response.Shows, Response.Redirects]

/-- What happens to the portal and to the published report. -/
inductive Happening where
  | publish (report : StatusReport)
  | visit (visit : Visit)

def Happening.report? : Happening → Option StatusReport
  | publish report => some report
  | visit _ => none

def Happening.visit? : Happening → Option Visit
  | publish _ => none
  | visit caller => some caller

/-- The visits among what happened. -/
def visitsOf (happenings : List Happening) : List Visit := happenings.filterMap Happening.visit?

/-- The last report that was published, or the one of a machine just switched on. -/
def lastReport (happenings : List Happening) : StatusReport :=
  (happenings.filterMap Happening.report?).getLast?.getD {}

/-- A portal and the report it tells its visitors. -/
structure Site where
  portal : Portal
  report : StatusReport := {}

namespace Site

/-- The whole reply to a visit, and the site after it. -/
def serve (site : Site) (visit : Visit) : HttpReply × Site :=
  let (reply, portal, _) := handle site.portal site.report visit.host visit.target
  (reply, { site with portal := portal })

def step (site : Site) : Happening → Site
  | .publish report => { site with report := report }
  | .visit visit => (site.serve visit).2

def run (site : Site) (happenings : List Happening) : Site := happenings.foldl step site

/-- The reply to a visit when other things happen after the portal has decided on it and
before the report is read. -/
def replyAmid (site : Site) (visit : Visit) (meanwhile : List Happening) : HttpReply :=
  .ofResponse ((site.step (.visit visit)).run meanwhile).report (site.portal.reply visit)

theorem replyAmid_nil (site : Site) (visit : Visit) :
    site.replyAmid visit [] = (site.serve visit).1 := rfl

theorem step_visit (site : Site) (visit : Visit) :
    site.step (.visit visit) = { site with portal := site.portal.meet visit } := rfl

/-- Reports never reach the portal. -/
theorem portal_run (site : Site) (happenings : List Happening) :
    (site.run happenings).portal = site.portal.visited (visitsOf happenings) := by
  induction happenings generalizing site with
  | nil => rfl
  | cons happening rest ih =>
      refine (ih (site.step happening)).trans ?_
      cases happening with
      | publish report => rfl
      | visit caller => rfl

/-- Visits never touch the report. -/
theorem report_run (site : Site) (happenings : List Happening) :
    (site.run happenings).report =
      (happenings.filterMap Happening.report?).getLast?.getD site.report := by
  induction happenings generalizing site with
  | nil => rfl
  | cons happening rest ih =>
      refine (ih (site.step happening)).trans ?_
      rw [Trace.getLast?_filterMap_cons]
      cases (rest.filterMap Happening.report?).getLast? <;> cases happening <;> rfl

end Site

/-- The reply to a visit, by all that it depends on. -/
def answer (url : Text.Bounded 24) (visit : Visit) (opened : Bool) (report : StatusReport) :
    HttpReply :=
  .ofResponse report (Portal.reply ⟨url, opened⟩ visit)

theorem reply_status {portal : Portal} {visit : Visit} (hStatus : visit.path = "/status.json") :
    portal.reply visit = .statusJson := by
  rw [reply_eq, hStatus]
  rfl

/-- A portal with any visits behind it, any reports before and after the decision on one more
visit. Neither side touches what the other works on. The reply is determined by the visit, by
whether somebody has entered before and by the last report; the status as JSON is read as the
snapshot of this report, which tells it in full, and the main page is that of the same snapshot.
Whatever the reply is, its headers and its body suit it. -/
theorem replies_tell_last_report (network : NetworkSettings) (before meanwhile : List Happening)
    (visit : Visit) :
    let site := (Site.mk (ofSettings network) {}).run before
    let report := lastReport (before ++ meanwhile)
    let snapshot := Snapshot.ofReport report
    let reply := site.replyAmid visit meanwhile
    (∀ other, (site.step (.publish other)).portal = site.portal) ∧
    (site.step (.visit visit)).report = site.report ∧
    site.replyAmid visit [] = (site.serve visit).1 ∧
    (site.portal.opened ↔ ∃ earlier ∈ visitsOf before, earlier.Enters) ∧
    reply = answer network.address.url visit site.portal.opened report ∧
    (visit.path = "/status.json" →
      reply.status = 200 ∧ Snapshot.ofText? reply.body = some snapshot) ∧
    (site.portal.reply visit = .page .main → reply.status = 200 ∧ reply.body = mainPage snapshot) ∧
    snapshot.Tells report ∧
    reply.Suits (site.portal.reply visit) := by
  intro site report snapshot reply
  have hPortal : site.portal = _ := (Site.portal_run _ before).trans (visited_eq _ _)
  have hReport : ((site.step (.visit visit)).run meanwhile).report = report := by
    rw [Site.report_run, Site.step_visit]
    simp only [site, Site.report_run, report, lastReport, List.filterMap_append,
      List.getLast?_append]
    cases (meanwhile.filterMap Happening.report?).getLast? <;> rfl
  have hReply : reply = .ofResponse report (site.portal.reply visit) := by
    simp only [reply, Site.replyAmid, hReport]
  refine ⟨fun _ => rfl, rfl, site.replyAmid_nil visit, ?_, ?_, ?_, ?_,
    Snapshot.tells_ofReport report, hReply ▸ HttpReply.suits_ofResponse report _⟩
  · simp [hPortal, ofSettings]
  · have hSite : site.portal = ⟨network.address.url, site.portal.opened⟩ := by
      rw [hPortal]
      rfl
    rw [hReply, answer, ← hSite]
  · intro hStatus
    rw [hReply, reply_status hStatus]
    exact ⟨rfl, snapshot.ofText?_render⟩
  · intro hMain
    rw [hReply, hMain]
    exact ⟨rfl, rfl⟩

end TapeCutter.Portal
