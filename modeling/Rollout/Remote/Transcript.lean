/-
# Transcripts

A transcript holds the replies that calls have had, in their order, and how
long each call took. A run on a transcript asks for one reply more: its events
up to the last recorded reply are settled, and the call after that is the next
to be made. So a run against real hosts is made of runs on longer and longer
transcripts. This needs programs that run one after the other: each call then
returns before the next is issued.
-/

import Rollout.Remote.Run

namespace Rollout

/-- The reply to a call, and how many milliseconds the call took. -/
structure Recorded where
  reply : Reply
  took : Nat

/-- The replies so far. -/
abbrev Transcript := List Recorded

namespace Transcript

/-- The reply beyond a transcript; nothing that follows from it counts. -/
def noReply : Reply :=
  .error (.notStarted "" .notFound)

/-- The remote that answers from a transcript. -/
def remote : Remote Transcript where
  latency rest _ := (rest.head?.map Recorded.took).getD 0
  answer rest _ := ((rest.head?.map Recorded.reply).getD noReply, rest.tail)

end Transcript

/-- The call to be made next, and the pause before it. -/
structure Request where
  pause : Nat
  call : Call

/-- The time and the call that an event issues. -/
def Event.issue? : Event → Option (Nat × Call)
  | issued _ time call => some (time, call)
  | _ => none

/-- The time at which an event brings a reply. -/
def Event.returnTime? : Event → Option Nat
  | returned _ time _ _ => some time
  | _ => none

/-- What a run that started at `start` asks for beyond a transcript of so many
replies, if anything. -/
def Run.request? {σ β : Type} (r : Run σ β) (start recorded : Nat) : Option Request :=
  ((r.events.filterMap Event.issue?)[recorded]?).map fun (time, call) =>
    let before := ((r.events.filterMap Event.returnTime?).take recorded).getLast?.getD start
    ⟨time - before, call⟩

end Rollout
