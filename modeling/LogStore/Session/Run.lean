import LogStore.Session.Basic

/-!
# Running a session

A session runs until it waits for its client or has ended. It gets there because every step uses
something up: a byte, a delivery of the socket, or a part of the way from a request to the next one.
`Session.serve` runs a session from its beginning to its end.
-/

namespace LogStore

/-- The most steps that a stage is away from the next reading, or from the end. -/
def Stage.rank : Stage → Nat
  | .closed | .failed _ => 0
  | .replying true => 1
  | .logging true => 2
  | .reading => 3
  | .replying false => 4
  | .logging false => 5
  | .executing _ => 6

namespace Session

/-- What the requests of a session can still use up. -/
def load (session : Session) : Nat :=
  session.reader.backlog + 2 * session.incoming.bytes.length + session.incoming.length

/-- A bound for the steps that a session can still take. -/
def remaining (session : Session) : Nat :=
  4 * session.load + session.stage.rank

theorem remaining_answer_le (session : Session) (reply : Reply) (next : Stage) :
    (session.answer reply next).remaining ≤ 4 * session.load + max next.rank 2 := by
  unfold answer
  split
  · exact Nat.add_le_add_left (Nat.le_max_left _ _) _
  · exact Nat.add_le_add_left (Nat.le_max_right _ _) _

theorem remaining_afterOutcome_lt (session : Session) (flush : Bool) (outcome : Outcome) :
    (session.afterOutcome flush outcome).remaining < 4 * session.load + 6 := by
  unfold afterOutcome
  split
  · cases flush <;> exact Nat.add_lt_add_left (by simp [Stage.rank]) _
  · refine Nat.lt_of_le_of_lt (remaining_answer_le _ _ _) ?_
    cases flush <;> exact Nat.add_lt_add_left (by decide) _
  · exact Nat.lt_of_le_of_lt (remaining_answer_le _ _ _) (Nat.add_lt_add_left (by decide) _)

theorem remaining_stepReading_lt {session : Session} (hstage : session.stage = .reading)
    (hwaiting : session.waiting = false) :
    session.stepReading.remaining < session.remaining := by
  have hrank : session.remaining = 4 * session.load + 3 := by
    simp only [remaining, hstage, Stage.rank]
  rw [hrank]
  unfold stepReading
  split
  · have := Reader.backlog_poll_lt ‹_›
    simp only [remaining, load, Stage.rank]
    omega
  · have hle := Reader.backlog_poll_error_le ‹_›
    refine Nat.lt_of_le_of_lt (remaining_answer_le _ _ _) ?_
    simp only [load, Stage.rank]
    omega
  · rename_i hpoll
    split
    · rename_i hincoming
      simp [waiting, hstage, hincoming, Reader.needsBytes, hpoll] at hwaiting
    · rename_i b bytes incoming hincoming
      simp only [remaining, load, hstage, hincoming, Stage.rank, Reader.backlog_receive,
        Source.bytes_cons, Delivery.bytes, List.length_append, List.length_cons]
      omega
    · rename_i d incoming _ hincoming
      simp only [remaining, load, hincoming, Stage.rank, Source.bytes_cons, List.length_append,
        List.length_cons]
      omega

/-- A step of a session that neither waits nor has ended uses something up. -/
theorem remaining_step_lt (engine : Engine) {session : Session}
    (hwaiting : session.waiting = false) (hended : session.ended = false) :
    (step engine session).2.remaining < session.remaining := by
  unfold step
  split
  · exact remaining_stepReading_lt ‹_› hwaiting
  · rename_i hstage
    refine Nat.lt_of_lt_of_eq (remaining_afterOutcome_lt _ _ _) ?_
    simp only [remaining, hstage, Stage.rank]
  · rename_i final hstage
    have hrank : session.remaining = 4 * session.load + (Stage.logging final).rank := by
      simp only [remaining, hstage]
    rw [hrank]
    split <;> cases final <;> exact Nat.add_lt_add_left (by simp [Stage.rank]) _
  · rename_i hstage
    have hrank : session.remaining = 4 * session.load + 4 := by
      simp only [remaining, hstage, Stage.rank]
    rw [hrank]
    split <;> exact Nat.add_lt_add_left (by simp [Stage.rank]) _
  · rename_i hstage
    have hrank : session.remaining = 4 * session.load + 1 := by
      simp only [remaining, hstage, Stage.rank]
    rw [hrank]
    exact Nat.add_lt_add_left (by simp [Stage.rank]) _
  · simp_all [ended]
  · simp_all [ended]

/-- Steps until the session waits or has ended. -/
def run (engine : Engine) (session : Session) : Engine × Session :=
  if _h : session.waiting = false ∧ session.ended = false then
    let next := step engine session
    run next.1 next.2
  else (engine, session)
termination_by session.remaining
decreasing_by exact remaining_step_lt engine _h.1 _h.2

/-- The session after its socket has received something. -/
def deliver (session : Session) (source : Source) : Session :=
  { session with incoming := session.incoming ++ source }

/-- A whole session: the client sends the bytes and then ends its side. -/
def serve (engine : Engine) (source : Source) (gone : Bool) : Engine × Session :=
  run engine { incoming := source ++ [.ended], outbox := { gone } }

end Session

end LogStore
