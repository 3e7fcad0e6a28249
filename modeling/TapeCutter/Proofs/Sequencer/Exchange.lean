import Mathlib.Algebra.Group.Nat.Defs
import Mathlib.Data.List.DropRight
import Mathlib.Data.List.Induction
import TapeCutter.Proofs.Trace
import TapeCutter.Sequencer.Feedback
import TapeCutter.Sequencer.Outbox

/-! The control loop and the sequencer, in both directions at once. Whatever either side
does, and in whatever order: no change that found room is lost, doubled or overtaken, the
others are counted, and a report is taken once, the latest progress in place of all before
it. -/
namespace TapeCutter.Sequencer

/-- The outbox with the way back. -/
structure Exchange where
  outbox : Outbox := {}
  feedback : Feedback := {}

/-- What the two sides can do. -/
inductive Deed where
  /-- The loop tells of a change. -/
  | send (status : Run.Status)
  /-- The sequencer receives a change if one waits. -/
  | receive
  /-- The sequencer begins to wait for a change, and gives up if there is none yet. -/
  | await
  | report (report : Report)
  | takeProgress
  | takeDone
deriving DecidableEq

/-- The change that a deed tells of, whether or not there is room for it. -/
def Deed.sent? : Deed → Option Run.Status
  | .send status => some status
  | _ => none

def Deed.progress? : Deed → Option UInt8
  | .report (.progress percent) => some percent
  | _ => none

/-- The changes that were told of, in order. -/
def sent (deeds : List Deed) : List Run.Status := deeds.filterMap Deed.sent?

theorem sent_concat (deeds : List Deed) (deed : Deed) :
    sent (deeds ++ [deed]) = sent deeds ++ deed.sent?.toList := by
  rw [sent, List.filterMap_append, ← sent]
  cases hSent : deed.sent? <;> simp [hSent]

/-- What was done after the last deed of this kind. -/
def since (mark : Deed) (deeds : List Deed) : List Deed := deeds.rtakeWhile (· ≠ mark)

theorem since_concat (mark : Deed) (deeds : List Deed) (deed : Deed) :
    since mark (deeds ++ [deed]) = if deed = mark then [] else since mark deeds ++ [deed] := by
  by_cases hMark : deed = mark <;> simp [since, hMark]

namespace Exchange

def act (exchange : Exchange) : Deed → Exchange
  | .send status => { exchange with outbox := (exchange.outbox.send status).1 }
  | .receive => { exchange with outbox := exchange.outbox.receive.2 }
  | .await => { exchange with outbox := exchange.outbox.receive.2 }
  | .report report => { exchange with feedback := exchange.feedback.hear report }
  | .takeProgress => { exchange with feedback := exchange.feedback.takeProgress.2 }
  | .takeDone => { exchange with feedback := exchange.feedback.takeDone.2 }

def after (exchange : Exchange) (deeds : List Deed) : Exchange := deeds.foldl act exchange

/-- The change that a deed hands to the sequencer. -/
def received? (exchange : Exchange) : Deed → Option Run.Status
  | .receive => exchange.outbox.receive.1
  | .await => exchange.outbox.receive.1
  | _ => none

/-- The changes that the sequencer was handed, in order. -/
def received (exchange : Exchange) : List Deed → List Run.Status :=
  Trace.collect act (fun found deed => (found.received? deed).toList) exchange

/-- The change that a deed tells of while there is room. -/
def accepted? (exchange : Exchange) : Deed → Option Run.Status
  | .send status => if exchange.outbox.waiting.length < Outbox.depth then some status else none
  | _ => none

/-- The changes that were told of while there was room, in order. -/
def accepted (exchange : Exchange) : List Deed → List Run.Status :=
  Trace.collect act (fun found deed => (found.accepted? deed).toList) exchange

theorem after_concat (exchange : Exchange) (deeds : List Deed) (deed : Deed) :
    exchange.after (deeds ++ [deed]) = (exchange.after deeds).act deed := by
  simp [after]

theorem received_concat (exchange : Exchange) (deeds : List Deed) (deed : Deed) :
    exchange.received (deeds ++ [deed]) =
      exchange.received deeds ++ ((exchange.after deeds).received? deed).toList :=
  Trace.collect_concat exchange deeds deed

theorem accepted_concat (exchange : Exchange) (deeds : List Deed) (deed : Deed) :
    exchange.accepted (deeds ++ [deed]) =
      exchange.accepted deeds ++ ((exchange.after deeds).accepted? deed).toList :=
  Trace.collect_concat exchange deeds deed

/-! The changes. -/

/-- What a deed can do to the outbox: tell of a change that finds room, tell of one that
finds none, or hand over what comes first, if anything. -/
theorem act_outbox (exchange : Exchange) (deed : Deed) :
    (∃ status, deed = .send status ∧ exchange.outbox.waiting.length < Outbox.depth ∧
        (exchange.act deed).outbox =
          { exchange.outbox with waiting := exchange.outbox.waiting ++ [status] }) ∨
      (∃ status, deed = .send status ∧ ¬exchange.outbox.waiting.length < Outbox.depth ∧
        (exchange.act deed).outbox =
          { exchange.outbox with dropped := exchange.outbox.dropped + 1 }) ∨
      (deed.sent? = none ∧ exchange.accepted? deed = none ∧
        (exchange.act deed).outbox.dropped = exchange.outbox.dropped ∧
          (exchange.received? deed).toList ++ (exchange.act deed).outbox.waiting =
            exchange.outbox.waiting) := by
  have hReceive : exchange.outbox.receive.2.dropped = exchange.outbox.dropped ∧
      exchange.outbox.receive.1.toList ++ exchange.outbox.receive.2.waiting =
        exchange.outbox.waiting := by
    unfold Outbox.receive
    cases hWaiting : exchange.outbox.waiting <;> simp [hWaiting]
  cases deed with
  | send status =>
      simp only [act, Outbox.send]
      by_cases hRoom : exchange.outbox.waiting.length < Outbox.depth
      · exact Or.inl ⟨status, rfl, hRoom, by rw [if_pos hRoom]⟩
      · exact Or.inr (Or.inl ⟨status, rfl, hRoom, by rw [if_neg hRoom]⟩)
  | receive => exact Or.inr (Or.inr ⟨rfl, rfl, hReceive⟩)
  | await => exact Or.inr (Or.inr ⟨rfl, rfl, hReceive⟩)
  | report report => exact Or.inr (Or.inr ⟨rfl, rfl, rfl, rfl⟩)
  | takeProgress => exact Or.inr (Or.inr ⟨rfl, rfl, rfl, rfl⟩)
  | takeDone => exact Or.inr (Or.inr ⟨rfl, rfl, rfl, rfl⟩)

/-- The books of the outbox after these deeds. -/
structure Balanced (deeds : List Deed) : Prop where
  queue : ({} : Exchange).received deeds ++ (({} : Exchange).after deeds).outbox.waiting =
    ({} : Exchange).accepted deeds
  room : (({} : Exchange).after deeds).outbox.waiting.length ≤ Outbox.depth
  order : (({} : Exchange).accepted deeds).Sublist (sent deeds)
  dropped : (({} : Exchange).after deeds).outbox.dropped.toNat =
    ((sent deeds).length - (({} : Exchange).accepted deeds).length) % 2 ^ 32

section

variable {deeds : List Deed} (balanced : Balanced deeds)
include balanced

/-- A change that finds room waits behind the others. -/
theorem Balanced.concat_of_room {status : Run.Status}
    (hRoom : (({} : Exchange).after deeds).outbox.waiting.length < Outbox.depth)
    (hAct : ((({} : Exchange).after deeds).act (.send status)).outbox =
      { (({} : Exchange).after deeds).outbox with
        waiting := (({} : Exchange).after deeds).outbox.waiting ++ [status] }) :
    Balanced (deeds ++ [.send status]) := by
  have hReceived := received_concat {} deeds (.send status)
  have hAccepted := accepted_concat {} deeds (.send status)
  simp only [accepted?, received?, if_pos hRoom, Option.toList_some, Option.toList_none,
    List.append_nil] at hReceived hAccepted
  constructor
  · rw [hReceived, hAccepted, after_concat, hAct, ← List.append_assoc, balanced.queue]
  · rw [after_concat, hAct, List.length_append, List.length_singleton]
    exact hRoom
  · rw [hAccepted, sent_concat]
    exact balanced.order.append (.refl _)
  · rw [after_concat, hAct, hAccepted, sent_concat, balanced.dropped, List.length_append,
      List.length_append]
    simp [Deed.sent?]

/-- A change that finds none is counted as dropped. -/
theorem Balanced.concat_of_full {status : Run.Status}
    (hFull : ¬(({} : Exchange).after deeds).outbox.waiting.length < Outbox.depth)
    (hAct : ((({} : Exchange).after deeds).act (.send status)).outbox =
      { (({} : Exchange).after deeds).outbox with
        dropped := (({} : Exchange).after deeds).outbox.dropped + 1 }) :
    Balanced (deeds ++ [.send status]) := by
  have hReceived := received_concat {} deeds (.send status)
  have hAccepted := accepted_concat {} deeds (.send status)
  simp only [accepted?, received?, if_neg hFull, Option.toList_none, List.append_nil]
    at hReceived hAccepted
  have hFewer := balanced.order.length_le
  constructor
  · rw [hReceived, hAccepted, after_concat, hAct, balanced.queue]
  · rw [after_concat, hAct]
    exact balanced.room
  · rw [hAccepted, sent_concat]
    exact balanced.order.trans (List.sublist_append_left _ _)
  · rw [after_concat, hAct, hAccepted, sent_concat, UInt32.toNat_add, balanced.dropped,
      List.length_append]
    simp only [Deed.sent?, Option.toList_some, List.length_singleton, UInt32.toNat_one]
    omega

/-- Any other deed receives what has waited longest, or leaves the outbox alone. -/
theorem Balanced.concat_of_not_send {deed : Deed} (hSent : deed.sent? = none)
    (hNone : (({} : Exchange).after deeds).accepted? deed = none)
    (hDropped : ((({} : Exchange).after deeds).act deed).outbox.dropped =
      (({} : Exchange).after deeds).outbox.dropped)
    (hTaken : ((({} : Exchange).after deeds).received? deed).toList ++
        ((({} : Exchange).after deeds).act deed).outbox.waiting =
      (({} : Exchange).after deeds).outbox.waiting) :
    Balanced (deeds ++ [deed]) := by
  have hWaiting := congrArg List.length hTaken
  rw [List.length_append] at hWaiting
  have hRoom := balanced.room
  constructor
  · rw [received_concat, accepted_concat, after_concat, hNone, List.append_assoc, hTaken,
      balanced.queue, Option.toList_none, List.append_nil]
  · rw [after_concat]
    omega
  · rw [accepted_concat, sent_concat, hNone, hSent]
    simpa using balanced.order
  · rw [after_concat, accepted_concat, sent_concat, hNone, hSent, hDropped]
    simpa using balanced.dropped

end

/-- Any deeds leave the books in balance: a change that is sent either waits or is dropped, and
what is received has waited longest. -/
theorem balanced (deeds : List Deed) : Balanced deeds := by
  induction deeds using List.reverseRecOn with
  | nil => exact ⟨rfl, Nat.zero_le _, .slnil, rfl⟩
  | append_singleton deeds deed ih =>
      rcases act_outbox (({} : Exchange).after deeds) deed with
        ⟨status, rfl, hRoom, hAct⟩ | ⟨status, rfl, hFull, hAct⟩ | ⟨hSent, hNone, hDropped, hTaken⟩
      · exact ih.concat_of_room hRoom hAct
      · exact ih.concat_of_full hFull hAct
      · exact ih.concat_of_not_send hSent hNone hDropped hTaken

/-! The reports. -/

/-- Progress is never taken for its absence. -/
theorem reported_ne_noProgress (percent : UInt8) :
    (if percent ≤ 100 then percent else 100) ≠ noProgress := by
  split
  · rename_i hPercent
    rintro rfl
    exact absurd hPercent (by decide)
  · decide

/-- A progress is kept until it is taken or another one takes its place. -/
theorem takeProgress_act (exchange : Exchange) (deed : Deed) :
    (exchange.act deed).feedback.takeProgress.1 =
      if deed = .takeProgress then none
      else (deed.progress?.map fun percent => min percent 100).or
        exchange.feedback.takeProgress.1 := by
  cases deed with
  | report report =>
      cases report with
      | progress percent =>
          have hTaken : (exchange.act (.report (.progress percent))).feedback.takeProgress.1 =
              some (if percent ≤ 100 then percent else 100) :=
            if_neg (reported_ne_noProgress percent)
          rw [hTaken]
          rfl
      | done => rfl
  | send status => rfl
  | receive => rfl
  | await => rfl
  | takeProgress => rfl
  | takeDone => rfl

/-- What is taken is the last progress reported since one was taken, at most a hundred. -/
theorem takeProgress_after (deeds : List Deed) :
    (({} : Exchange).after deeds).feedback.takeProgress.1 =
      ((since .takeProgress deeds).filterMap Deed.progress?).getLast?.map
        fun percent => min percent 100 := by
  induction deeds using List.reverseRecOn with
  | nil => rfl
  | append_singleton deeds deed ih =>
      rw [after_concat, takeProgress_act, since_concat, ih]
      by_cases hTake : deed = .takeProgress
      · rw [if_pos hTake, if_pos hTake]
        rfl
      · rw [if_neg hTake, if_neg hTake, List.filterMap_append]
        cases hProgress : deed.progress? <;> simp [hProgress]

theorem takeDone_act (exchange : Exchange) (deed : Deed) :
    (exchange.act deed).feedback.takeDone.1 = true ↔
      deed ≠ .takeDone ∧ (deed = .report .done ∨ exchange.feedback.takeDone.1 = true) := by
  cases deed with
  | report report =>
      cases report <;> simp [act, Feedback.hear, Feedback.reportProgress, Feedback.reportDone,
        Feedback.takeDone]
  | send status => simp [act, Feedback.takeDone]
  | receive => simp [act, Feedback.takeDone]
  | await => simp [act, Feedback.takeDone]
  | takeProgress => simp [act, Feedback.takeDone, Feedback.takeProgress]
  | takeDone => simp [act, Feedback.takeDone]

/-- A word is found just if one has come since the last look. -/
theorem takeDone_after (deeds : List Deed) :
    (({} : Exchange).after deeds).feedback.takeDone.1 = true ↔
      .report .done ∈ since .takeDone deeds := by
  induction deeds using List.reverseRecOn with
  | nil => exact iff_of_false nofun List.not_mem_nil
  | append_singleton deeds deed ih =>
      rw [after_concat, takeDone_act, since_concat, ih]
      by_cases hTake : deed = .takeDone
      · simp [hTake]
      · simp [hTake, or_comm, eq_comm]

/-- After any deeds of both sides. What was received, followed by what still waits, is
exactly what was sent while fewer than four changes waited, in the order of sending; the
other changes are counted, modulo the size of the counter. The progress that is taken now
is the last one reported since progress was taken before, a hundred at most, and there is
none just where none was reported; and a finished job is taken now just where it was
reported since the last look. -/
theorem nothing_lost_or_doubled (deeds : List Deed) :
    let exchange := ({} : Exchange).after deeds
    let accepted := ({} : Exchange).accepted deeds
    ({} : Exchange).received deeds ++ exchange.outbox.waiting = accepted ∧
      accepted.Sublist (sent deeds) ∧ exchange.outbox.waiting.length ≤ 4 ∧
      exchange.outbox.dropped.toNat = ((sent deeds).length - accepted.length) % 2 ^ 32 ∧
      exchange.feedback.takeProgress.1 =
        (((since .takeProgress deeds).filterMap Deed.progress?).getLast?.map
          fun percent => min percent 100) ∧
      (exchange.feedback.takeDone.1 = true ↔ .report .done ∈ since .takeDone deeds) := by
  obtain ⟨hQueue, hRoom, hOrder, hDropped⟩ := balanced deeds
  exact ⟨hQueue, hOrder, hRoom, hDropped, takeProgress_after deeds, takeDone_after deeds⟩

end Exchange

end TapeCutter.Sequencer
