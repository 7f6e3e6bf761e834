import LogStore.Proofs.Engine.Execution
import LogStore.Proofs.Request.Dissection

/-!
# Carrying out requests in order

`Engine.course` says what a list of requests amounts to when they are carried out one after the
other and nothing comes between them: the replies, the raw bytes of the writes that succeed, and the
keyspace in the end. It depends on the keyspace and the vocabulary that the engine starts with, on
what the requests say, and on nothing else; so it is not disturbed by flushes, nor by the way in
which the requests were delivered.
-/

namespace LogStore

/-- The reply of an outcome, if one is sent. -/
def Outcome.reply? (outcome : Outcome) : Option Reply :=
  match outcome with
  | .silent | .quit => none
  | .reply answer => some answer

/-- What requests amount to that are carried out in order. -/
structure Course where
  /-- The replies, in order. -/
  replies : List Reply
  /-- The raw bytes of the writes that succeed, in order. -/
  writes : List Bytes
  /-- The keyspace in the end. -/
  keyspace : Keyspace

/-- Whether the client takes its leave with this request. -/
def Request.isQuit (request : Request) : Bool :=
  match request.arguments with
  | [] => false
  | name :: _ => name.toLower == Engine.quitName

namespace Engine

/-- The course of the requests from this engine on. -/
def course (engine : Engine) : List Request → Course
  | [] => ⟨[], [], engine.keyspace⟩
  | request :: requests =>
    let rest := (engine.execute request).2.course requests
    { rest with
      replies := (engine.execute request).1.reply?.toList ++ rest.replies
      writes := (if engine.isWrite request then [request.raw] else []) ++ rest.writes }

/-! ## What it depends on -/

variable {a b : Engine}

theorem isWrite_congr_engine (hvocabulary : a.vocabulary = b.vocabulary)
    (hkeyspace : a.keyspace = b.keyspace) (request : Request) :
    a.isWrite request = b.isWrite request := by
  rw [isWrite, isWrite, hvocabulary, hkeyspace]

/-- The raw bytes and the form of a request make no difference to its reply and to the keyspace. -/
theorem execute_congr_arguments (hvocabulary : a.vocabulary = b.vocabulary)
    (hkeyspace : a.keyspace = b.keyspace) {first second : Request}
    (harguments : first.arguments = second.arguments) :
    (a.execute first).1 = (b.execute second).1 ∧
      (a.execute first).2.keyspace = (b.execute second).2.keyspace := by
  unfold execute
  rw [hvocabulary, hkeyspace, harguments]
  split
  · exact ⟨rfl, hkeyspace⟩
  · rename_i name arguments _
    split
    · exact ⟨rfl, hkeyspace⟩
    · split
      · exact ⟨rfl, hkeyspace⟩
      · split
        · exact ⟨rfl, hkeyspace⟩
        · rename_i entry _
          rcases entry.operation.run b.keyspace arguments with ⟨_ | _, next⟩
          · exact ⟨rfl, rfl⟩
          · cases entry.operation.access <;> exact ⟨rfl, rfl⟩

/-- The course depends on the vocabulary and the keyspace of the engine. -/
theorem course_congr_engine (hvocabulary : a.vocabulary = b.vocabulary)
    (hkeyspace : a.keyspace = b.keyspace) (requests : List Request) :
    a.course requests = b.course requests := by
  induction requests generalizing a b with
  | nil => rw [course, course, hkeyspace]
  | cons request requests ih =>
    have hsame : request.arguments = request.arguments := rfl
    obtain ⟨houtcome, hnext⟩ := execute_congr_arguments hvocabulary hkeyspace hsame
    have hstays : (a.execute request).2.vocabulary = (b.execute request).2.vocabulary := by
      rw [vocabulary_execute, vocabulary_execute, hvocabulary]
    have hrest := ih hstays hnext
    rw [course, course, hrest, houtcome, isWrite_congr_engine hvocabulary hkeyspace]

/-- What is written are the raw bytes of some of the requests. -/
theorem exists_of_mem_writes_course {engine : Engine} {requests : List Request} {raw : Bytes}
    (h : raw ∈ (engine.course requests).writes) : ∃ request ∈ requests, request.raw = raw := by
  induction requests generalizing engine with
  | nil => cases h
  | cons request requests ih =>
    rw [course] at h
    rcases List.mem_append.1 h with h | h
    · split at h
      · exact ⟨request, List.mem_cons_self, (List.mem_singleton.1 h).symm⟩
      · cases h
    · obtain ⟨other, hother, hraw⟩ := ih h
      exact ⟨other, List.mem_cons_of_mem _ hother, hraw⟩

/-! ## Requests that ask for nothing, and the others -/

theorem execute_of_arguments_eq_nil {request : Request} (h : request.arguments = [])
    (engine : Engine) : engine.execute request = (.silent, engine) := by
  rw [execute, h]

theorem execute_of_isQuit {request : Request} (h : request.isQuit) (engine : Engine) :
    engine.execute request = (.quit, engine) := by
  unfold Request.isQuit at h
  split at h
  · cases h
  · rename_i harguments
    rw [beq_iff_eq] at h
    rw [execute, harguments]
    exact if_pos h

/-- A request that asks for something and is no leave-taking gets a reply. -/
theorem exists_reply {request : Request} (hasks : request.arguments ≠ [])
    (hquit : request.isQuit = false) (engine : Engine) :
    ∃ reply, (engine.execute request).1 = .reply reply := by
  have hexecutes := engine.executes request
  generalize engine.execute request = result at hexecutes
  cases hexecutes with
  | silent harguments => exact absurd harguments hasks
  | quit harguments hname => simp [Request.isQuit, harguments, hname] at hquit
  | ping | unknown | refused | read | write => exact ⟨_, rfl⟩

theorem outcome_ne_quit {request : Request} (h : request.isQuit = false) (engine : Engine) :
    (engine.execute request).1 ≠ .quit := by
  by_cases hasks : request.arguments = []
  · rw [execute_of_arguments_eq_nil hasks]
    exact nofun
  · obtain ⟨reply, hreply⟩ := exists_reply hasks h engine
    rw [hreply]
    exact nofun

end Engine

end LogStore
