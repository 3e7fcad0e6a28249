import Mathlib.Data.List.Infix
import TapeCutter.Portal.Route
import TapeCutter.Proofs.Trace

/-! The portal over any number of visits. Whether it has been opened is told by the visits
alone, and what the front page shows follows from that: the landing page only before the
status page was first shown, the message that all is well only after it. -/
namespace TapeCutter.Portal

/-- Somebody asks a host for a target. -/
structure Visit where
  host : String
  target : String
deriving DecidableEq

namespace Visit

def request (visit : Visit) : Request := .ofTarget visit.host visit.target

def path (visit : Visit) : String := visit.request.path

/-- The host is turned away. -/
def TurnedAway (visit : Visit) : Prop := "citrix".toList <:+: visit.host.toList

def Redirected (visit : Visit) : Prop := visit.request.Gives "redirect"

/-- The visitor gets to see the status page. -/
def Enters (visit : Visit) : Prop := visit.path = "/" ∧ ¬ visit.TurnedAway ∧ visit.Redirected

instance (visit : Visit) : Decidable visit.TurnedAway :=
  inferInstanceAs (Decidable ("citrix".toList <:+: visit.host.toList))

instance (visit : Visit) : Decidable visit.Redirected := inferInstanceAs (Decidable (_ ∨ _))

instance (visit : Visit) : Decidable visit.Enters := inferInstanceAs (Decidable (_ ∧ _ ∧ _))

theorem containsWord_iff (visit : Visit) :
    containsWord "citrix" visit.request.host ↔ visit.TurnedAway :=
  String.contains_string_iff

theorem hasParam_iff (visit : Visit) : visit.request.hasParam "redirect" ↔ visit.Redirected :=
  visit.request.hasParam_iff (by decide) (by decide)

end Visit

def reply (portal : Portal) (visit : Visit) : Response := (portal.route visit.request).1

def meet (portal : Portal) (visit : Visit) : Portal := (portal.route visit.request).2.1

def visited (portal : Portal) (visits : List Visit) : Portal := visits.foldl meet portal

/-- The replies to the visits, in order. -/
def replies (portal : Portal) : List Visit → List Response :=
  Trace.collect meet (fun portal visit => [portal.reply visit]) portal

/-- What is found at the paths other than the front page. -/
def elsewhere (url : Text.Bounded 24) (path : String) : Response :=
  if path = "/status.json" then .statusJson
  else if path = "/connecttest.txt" then redirectTo "http://logout.net"
  else if path = "/wpad.dat" ∨ path = "/favicon.ico" then .code 404
  else if path = "/success.txt" then .code 200
  else redirectTo url.text

theorem elsewhere_ne_page (url : Text.Bounded 24) (path : String) (page : Page) :
    elsewhere url path ≠ .page page := by
  unfold elsewhere redirectTo
  split_ifs <;> simp

/-- What the front page shows to a visitor. -/
def front (portal : Portal) (visit : Visit) : Response :=
  if visit.TurnedAway then .code 404
  else if visit.Redirected then .page .main
  else if portal.opened then .page .success
  else .page .captive

/-- The front page is decided by host, query and the door, and every other path by itself. -/
theorem reply_eq (portal : Portal) (visit : Visit) :
    portal.reply visit =
      if visit.path = "/" then portal.front visit else elsewhere portal.url visit.path := by
  simp only [reply, route, Visit.path]
  split
  · simp only [root, visit.containsWord_iff, visit.hasParam_iff, front]
    split_ifs <;> rfl
  · unfold elsewhere
    split_ifs <;> rfl

theorem meet_eq (portal : Portal) (visit : Visit) :
    portal.meet visit = if visit.Enters then { portal with opened := true } else portal := by
  simp only [meet, route, Visit.Enters, Visit.path]
  split
  · rename_i hPath
    simp only [root, visit.containsWord_iff, visit.hasParam_iff, hPath, true_and]
    split_ifs <;> simp_all
  · rename_i hPath
    simp only [hPath, false_and, if_false]
    split_ifs <;> rfl

/-- After any visits the portal is as it was, except that it is open once somebody entered. -/
theorem visited_eq (portal : Portal) (visits : List Visit) :
    portal.visited visits =
      { portal with opened := portal.opened || visits.any fun visit => visit.Enters } := by
  induction visits generalizing portal with
  | nil => simp [visited]
  | cons visit rest ih =>
      change (portal.meet visit).visited rest = _
      rw [ih, meet_eq]
      split <;> simp_all

/-- The status page is for those who enter. -/
theorem reply_eq_main_iff {portal : Portal} {visit : Visit} :
    portal.reply visit = .page .main ↔ visit.Enters := by
  rw [reply_eq, front, Visit.Enters]
  split_ifs <;> simp_all [elsewhere_ne_page]

theorem opened_of_reply_eq_success {portal : Portal} {visit : Visit}
    (hReply : portal.reply visit = .page .success) : portal.opened := by
  rw [reply_eq, front] at hReply
  split_ifs at hReply <;> simp_all [elsewhere_ne_page]

theorem closed_of_reply_eq_captive {portal : Portal} {visit : Visit}
    (hReply : portal.reply visit = .page .captive) : ¬ portal.opened := by
  rw [reply_eq, front] at hReply
  split_ifs at hReply <;> simp_all [elsewhere_ne_page]

theorem replies_cons (portal : Portal) (visit : Visit) (rest : List Visit) :
    portal.replies (visit :: rest) =
      portal.reply visit :: (portal.meet visit).replies rest := rfl

/-- Once the door is open nobody is shown the landing page again. -/
theorem captive_not_mem_replies {portal : Portal} (hOpened : portal.opened)
    (visits : List Visit) : .page .captive ∉ portal.replies visits := by
  induction visits generalizing portal with
  | nil => exact List.not_mem_nil
  | cons visit rest ih =>
      rw [replies_cons, List.mem_cons, not_or]
      refine ⟨fun hReply => closed_of_reply_eq_captive hReply.symm hOpened, ih ?_⟩
      rw [meet_eq]
      split
      · rfl
      · exact hOpened

/-- Up to the first status page nobody is told that all is well, and from it on nobody is shown
the landing page. -/
theorem pages_in_order {portal : Portal} (hClosed : ¬ portal.opened) (visits : List Visit) :
    .page .success ∉ (portal.replies visits).takeWhile (· ≠ .page .main) ∧
      .page .captive ∉ (portal.replies visits).dropWhile (· ≠ .page .main) := by
  induction visits with
  | nil => exact ⟨List.not_mem_nil, List.not_mem_nil⟩
  | cons visit rest ih =>
      rw [replies_cons, meet_eq]
      by_cases hEnters : visit.Enters
      · have hMain : portal.reply visit = .page .main := reply_eq_main_iff.mpr hEnters
        rw [if_pos hEnters, hMain]
        refine ⟨by simp, ?_⟩
        simpa using captive_not_mem_replies rfl rest
      · have hOther : portal.reply visit ≠ .page .main := fun hMain =>
          hEnters (reply_eq_main_iff.mp hMain)
        have hSuccess : .page .success ≠ portal.reply visit := fun hReply =>
          hClosed (opened_of_reply_eq_success hReply.symm)
        rw [if_neg hEnters, List.takeWhile_cons_of_pos (by simpa),
          List.dropWhile_cons_of_pos (by simpa)]
        exact ⟨List.not_mem_cons_of_ne_of_not_mem hSuccess ih.1, ih.2⟩

/-- The portal is open exactly if one of the visits so far entered. This and the visit, split at
the question mark, decide what the front page shows; at any other path the visits are of no
account and leave the portal as it is. -/
theorem tiers_follow_visits (network : NetworkSettings) (visits : List Visit) (visit : Visit) :
    let start := ofSettings network
    let portal := start.visited visits
    visit.request.HasTarget visit.target ∧
    (portal.opened ↔ ∃ earlier ∈ visits, earlier.Enters) ∧
    portal.reply visit =
      (if visit.path = "/" then
        if visit.TurnedAway then .code 404
        else if visit.Redirected then .page .main
        else if portal.opened then .page .success
        else .page .captive
      else elsewhere start.url visit.path) ∧
    portal.meet visit = (if visit.Enters then { portal with opened := true } else portal) ∧
    .page .success ∉ (start.replies visits).takeWhile (· ≠ .page .main) ∧
    .page .captive ∉ (start.replies visits).dropWhile (· ≠ .page .main) := by
  intro start portal
  have hPortal : portal = _ := visited_eq start visits
  refine ⟨Request.hasTarget_ofTarget visit.host visit.target, ?_, ?_, meet_eq portal visit,
    pages_in_order Bool.false_ne_true visits⟩
  · simp [hPortal, start, ofSettings]
  · have hUrl : portal.url = start.url := by rw [hPortal]
    rw [reply_eq, hUrl]
    rfl

end TapeCutter.Portal
