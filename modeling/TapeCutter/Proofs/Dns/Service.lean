import Mathlib.Data.List.Induction
import TapeCutter.Dns.Resolver
import TapeCutter.Proofs.Trace

/-! The resolver over a whole run. However datagrams and polls are mixed, what has been
answered is the front of what has come in, datagram by datagram, and a datagram without an
answer holds nothing up. -/
namespace TapeCutter.Dns

/-- What can happen to the resolver. -/
inductive Occasion where
  | arrive (datagram : Datagram)
  | poll (now : UInt32)
deriving DecidableEq

/-- What is kept of a datagram that comes in. -/
def Occasion.kept? : Occasion → Option Datagram
  | .arrive datagram => some { datagram with payload := datagram.payload.take 512 }
  | .poll _ => none

def Occasion.now? : Occasion → Option UInt32
  | .arrive _ => none
  | .poll now => some now

/-- The datagrams that came in, as far as they were kept, oldest first. -/
def arrivals (occasions : List Occasion) : List Datagram := occasions.filterMap Occasion.kept?

/-- The times of the polls. -/
def polls (occasions : List Occasion) : List UInt32 := occasions.filterMap Occasion.now?

theorem arrivals_concat (occasions : List Occasion) (occasion : Occasion) :
    arrivals (occasions ++ [occasion]) = arrivals occasions ++ occasion.kept?.toList := by
  cases occasion <;> simp [arrivals, Occasion.kept?]

theorem polls_concat (occasions : List Occasion) (occasion : Occasion) :
    polls (occasions ++ [occasion]) = polls occasions ++ occasion.now?.toList := by
  cases occasion <;> simp [polls, Occasion.now?]

/-- A poll is a pass if none came before, or if the interval is over since the last one. -/
def passesNow (interval : UInt32) (passes : List UInt32) (now : UInt32) : Bool :=
  passes.getLast?.all fun last => interval ≤ now - last

/-- The polls that are passes, of polls at these times. -/
def passes (interval : UInt32) (times : List UInt32) : List UInt32 :=
  times.foldl
    (fun before now => if passesNow interval before now then before ++ [now] else before) []

/-- A poll is a pass if the passes before it leave it due. -/
theorem passes_concat (interval : UInt32) (times : List UInt32) (now : UInt32) :
    passes interval (times ++ [now]) =
      if passesNow interval (passes interval times) now then passes interval times ++ [now]
      else passes interval times := by
  rw [passes, List.foldl_append]
  rfl

namespace Resolver

def meet (resolver : Resolver) : Occasion → Resolver
  | .arrive datagram => resolver.arrive datagram
  | .poll now => (resolver.poll now).2

def after (resolver : Resolver) (occasions : List Occasion) : Resolver :=
  occasions.foldl meet resolver

/-- What is sent on an occasion. -/
def sends (resolver : Resolver) : Occasion → List Datagram
  | .arrive _ => []
  | .poll now => (resolver.poll now).1

/-- The replies that were sent, oldest first. -/
def sent (resolver : Resolver) : List Occasion → List Datagram :=
  Trace.collect meet sends resolver

theorem after_concat (resolver : Resolver) (occasions : List Occasion) (occasion : Occasion) :
    resolver.after (occasions ++ [occasion]) = (resolver.after occasions).meet occasion := by
  simp [after]

theorem sent_concat (resolver : Resolver) (occasions : List Occasion) (occasion : Occasion) :
    resolver.sent (occasions ++ [occasion]) =
      resolver.sent occasions ++ (resolver.after occasions).sends occasion :=
  Trace.collect_concat resolver occasions occasion

/-- A resolver that has not been asked for anything yet. -/
def idle (address : Address) (lifetime interval : UInt32) : Resolver where
  address := address
  lifetime := lifetime
  interval := interval

/-- A resolver that has made these passes and sent these replies. -/
def booked (start : Resolver) (served : List UInt32) (replies waiting : List Datagram) :
    Resolver :=
  { start with
    lastPass := served.getLast?
    answered := .ofNat replies.length
    waiting := waiting }

section

variable (start : Resolver) (served : List UInt32) (replies waiting : List Datagram) {now : UInt32}

theorem due_booked (now : UInt32) :
    (start.booked served replies waiting).due now = passesNow start.interval served now := by
  simp only [due, passesNow, booked]
  cases served.getLast? <;> rfl

/-- A pass takes the four oldest datagrams off the queue and answers those it can. -/
theorem poll_booked_of_pass (hPass : passesNow start.interval served now) :
    let answers := (waiting.take 4).filterMap start.answer?
    (start.booked served replies waiting).poll now =
      (answers, start.booked (served ++ [now]) (replies ++ answers) (waiting.drop 4)) := by
  have hAnswer : (start.booked served replies waiting).answer? = start.answer? := rfl
  rw [poll_eq, due_booked, if_pos hPass, hAnswer]
  simp [booked, perPass]

/-- A poll before its time finds the resolver as it leaves it. -/
theorem poll_booked_of_not_pass (hPass : ¬ passesNow start.interval served now) :
    (start.booked served replies waiting).poll now =
      ([], start.booked served replies waiting) := by
  rw [poll_eq, due_booked, if_neg hPass]

end

/-- The resolver after any occasions. Its queue is what is left of the arrivals when those
are taken off that were answered or dropped; the rest of it can be told from the times of
the polls and from the replies. -/
theorem exists_after_eq (address : Address) (lifetime interval : UInt32)
    (occasions : List Occasion) :
    let start := idle address lifetime interval
    ∃ taken waiting : List Datagram, arrivals occasions = taken ++ waiting ∧
      start.sent occasions = taken.filterMap start.answer? ∧
      start.after occasions =
        start.booked (passes interval (polls occasions)) (start.sent occasions) waiting := by
  intro start
  induction occasions using List.reverseRecOn with
  | nil => exact ⟨[], [], rfl, rfl, rfl⟩
  | append_singleton occasions occasion ih =>
      obtain ⟨taken, waiting, hQueue, hSent, hAfter⟩ := ih
      rw [arrivals_concat, polls_concat, after_concat, sent_concat, hAfter]
      cases occasion with
      | arrive datagram =>
          let kept := { datagram with payload := datagram.payload.take 512 }
          refine ⟨taken, waiting ++ [kept], ?_, ?_, ?_⟩
          · rw [hQueue, List.append_assoc]
            rfl
          · rw [sends, List.append_nil, hSent]
          · simp [meet, arrive, sends, booked, Occasion.now?, kept, maxPayload]
      | poll now =>
          simp only [meet, sends, Occasion.now?, Occasion.kept?, Option.toList_none,
            Option.toList_some, List.append_nil, passes_concat]
          by_cases hPass : passesNow interval (passes interval (polls occasions)) now
          · rw [start.poll_booked_of_pass _ _ _ hPass, if_pos hPass]
            refine ⟨taken ++ waiting.take 4, waiting.drop 4, ?_, ?_, rfl⟩
            · rw [hQueue, List.append_assoc, List.take_append_drop]
            · rw [List.filterMap_append, hSent]
          · rw [start.poll_booked_of_not_pass _ _ _ hPass, if_neg hPass, List.append_nil]
            exact ⟨taken, waiting, hQueue, hSent, rfl⟩

/-- However arrivals and polls are mixed, a poll is a pass exactly when the times say so. A pass
takes the four oldest datagrams that wait, or all if there are fewer, and sends the answers
there are to them, in order; any other poll does nothing. Of all datagrams that came in, the
first ones are done with, and their answers are what was sent. -/
theorem answers_in_order (address : Address) (lifetime interval : UInt32)
    (occasions : List Occasion) :
    let start := idle address lifetime interval
    let resolver := start.after occasions
    (∀ now,
      if passesNow interval (passes interval (polls occasions)) now then
        ∃ oldest, resolver.waiting = oldest ++ (resolver.poll now).2.waiting ∧
          oldest.length = min 4 resolver.waiting.length ∧
          (resolver.poll now).1 = oldest.filterMap start.answer?
      else resolver.poll now = ([], resolver)) ∧
    (∃ taken, arrivals occasions = taken ++ resolver.waiting ∧
      start.sent occasions = taken.filterMap start.answer?) ∧
    resolver.answered.toNat = (start.sent occasions).length % UInt32.size := by
  intro start resolver
  obtain ⟨taken, waiting, hQueue, hSent, hAfter⟩ :=
    exists_after_eq address lifetime interval occasions
  change start.after occasions = start.booked _ (start.sent occasions) waiting at hAfter
  simp only [resolver, hAfter]
  refine ⟨fun now => ?_, ⟨taken, hQueue, hSent⟩, UInt32.toNat_ofNat'⟩
  by_cases hPass : passesNow interval (passes interval (polls occasions)) now
  · rw [start.poll_booked_of_pass _ _ _ hPass, if_pos hPass]
    exact ⟨waiting.take 4, (List.take_append_drop 4 waiting).symm, List.length_take, rfl⟩
  · rw [start.poll_booked_of_not_pass _ _ _ hPass, if_neg hPass]

end Resolver

end TapeCutter.Dns
