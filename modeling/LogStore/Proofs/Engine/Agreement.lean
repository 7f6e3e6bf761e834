import LogStore.Proofs.Engine.Recovery
import LogStore.Proofs.Engine.Replays

/-!
# Carrying out and replaying agree

There are two ways through the same requests: the engine answers them one by one, and a replay only
wants the keyspace that they leave. The engine looks for `quit` and `ping` before it looks into its
vocabulary, and a replay does not; so they can agree only if nothing is registered under these names
(`Vocabulary.SparesReserved`). Then they do, request by request (`Engine.execute_agrees`): a replay
warns of just those requests that the engine answers itself or with an error, and the keyspaces never
come apart (`Source.exists_replay_eq_executeAll`).
-/

namespace LogStore

/-- No command is registered under a name that the engine answers itself, in whatever case. -/
def Vocabulary.SparesReserved (vocabulary : Vocabulary) : Prop :=
  ∀ entry ∈ vocabulary.entries, entry.key ≠ Engine.quitName ∧ entry.key ≠ Engine.pingName

instance : DecidablePred Vocabulary.SparesReserved := fun vocabulary =>
  inferInstanceAs (Decidable (∀ entry ∈ vocabulary.entries, _))

/-- Whether a request that comes to this is none that a replay could carry out: the client takes its
leave, is given a sign of life, or is told of an error. -/
def Outcome.callsForWarning : Outcome → Bool
  | .quit | .reply (.error _) => true
  | .reply (.simple text) => text == "PONG"
  | _ => false

/-- Carries out requests in order: each of them with what it comes to, and the engine in the end. -/
def Engine.executeAll (engine : Engine) : List Request → List (Request × Outcome) × Engine
  | [] => ([], engine)
  | request :: requests =>
    let rest := (engine.execute request).2.executeAll requests
    ((request, (engine.execute request).1) :: rest.1, rest.2)

/-! ## One request -/

theorem Vocabulary.lookup_eq_none_of_reserved {vocabulary : Vocabulary}
    (h : vocabulary.SparesReserved) {name : Bytes}
    (hname : name.toLower = Engine.quitName ∨ name.toLower = Engine.pingName) :
    vocabulary.lookup name = none := by
  rw [lookup, List.find?_eq_none]
  intro entry hentry hkey
  obtain ⟨hquit, hping⟩ := h entry hentry
  rw [beq_iff_eq] at hkey
  exact hname.elim (fun hreserved => hquit (hkey.trans hreserved))
    fun hreserved => hping (hkey.trans hreserved)

/-- What an operation answers when it succeeds is neither the sign of life nor an error. -/
theorem Operation.callsForWarning_of_run {operation : Operation} {keyspace next : Keyspace}
    {arguments : List Bytes} {reply : Reply}
    (h : operation.run keyspace arguments = (.ok reply, next)) :
    (Outcome.reply reply).callsForWarning = false := by
  unfold run at h
  split at h
  · split at h <;> cases h <;> rfl
  · cases h
    decide
  · cases h
    rfl
  · cases h

namespace Engine

/-- The engine leaves the keyspace that the operation of the request leaves, and answers itself or
with an error what a replay rejects. -/
theorem execute_agrees {engine : Engine} (hspares : engine.vocabulary.SparesReserved)
    (request : Request) :
    engine.vocabulary.carryOut engine.keyspace request = (engine.execute request).2.keyspace ∧
      engine.vocabulary.rejects request = (engine.execute request).1.callsForWarning := by
  have hexecutes := engine.executes request
  generalize engine.execute request = result at hexecutes
  have htakes : ∀ {entry : Vocabulary.Entry} {arguments answer next},
      entry.operation.run engine.keyspace arguments = (answer, next) →
        entry.operation.takes arguments.length = answer.isOk := by
    intro entry arguments answer next hrun
    rw [← Operation.isOk_run, hrun]
  cases hexecutes with
  | silent harguments =>
    simp [Vocabulary.carryOut, Vocabulary.rejects, harguments, Outcome.callsForWarning]
  | quit harguments hname =>
    have hlookup := Vocabulary.lookup_eq_none_of_reserved hspares (.inl hname)
    simp [Vocabulary.carryOut, Vocabulary.rejects, harguments, hlookup, Outcome.callsForWarning]
  | ping harguments hname =>
    have hlookup := Vocabulary.lookup_eq_none_of_reserved hspares (.inr hname)
    simp [Vocabulary.carryOut, Vocabulary.rejects, harguments, hlookup, Outcome.callsForWarning]
  | unknown harguments _ hlookup =>
    simp only [Vocabulary.carryOut, Vocabulary.rejects, harguments, hlookup]
    exact ⟨trivial, rfl⟩
  | refused harguments _ hlookup hrun =>
    simp only [Vocabulary.carryOut, Vocabulary.rejects, harguments, hlookup, hrun, htakes hrun]
    exact ⟨trivial, rfl⟩
  | read harguments _ hlookup _ hrun | write harguments _ hlookup _ hrun =>
    simp only [Vocabulary.carryOut, Vocabulary.rejects, harguments, hlookup, hrun, htakes hrun,
      Operation.callsForWarning_of_run hrun]
    exact ⟨trivial, rfl⟩

/-! ## All requests -/

/-- The induction is on the requests, over an engine that keeps its vocabulary. -/
theorem executeAll_agrees {vocabulary : Vocabulary} {engine : Engine}
    (hvocabulary : engine.vocabulary = vocabulary) (hspares : vocabulary.SparesReserved)
    (requests : List Request) :
    requests.foldl vocabulary.carryOut engine.keyspace =
        (engine.executeAll requests).2.keyspace ∧
      (requests.filter vocabulary.rejects).map vocabulary.warning =
        ((engine.executeAll requests).1.filter (·.2.callsForWarning)).map
          (vocabulary.warning ·.1) := by
  induction requests generalizing engine with
  | nil => exact ⟨rfl, rfl⟩
  | cons request requests ih =>
    have hstays : (engine.execute request).2.vocabulary = vocabulary := by
      rw [vocabulary_execute, hvocabulary]
    obtain ⟨hkeyspace, hwarns⟩ := execute_agrees (hvocabulary ▸ hspares) request
    obtain ⟨hkeyspaces, hwarnings⟩ := ih hstays
    rw [hvocabulary] at hkeyspace hwarns
    constructor
    · rw [List.foldl_cons, hkeyspace, hkeyspaces, executeAll]
    · cases hcalls : (engine.execute request).1.callsForWarning <;>
        simp [executeAll, hwarns, hcalls, hwarnings]

end Engine

/-- **The engine and a replay agree on every stream.** Requests that one reader takes from a stream
are carried out in order, whatever each of them comes to. A replay of the same stream, cut in any
other way and begun with the same keyspace, ends without an error and with the keyspace of the
engine. It counts the requests that ask for something, and it has one warning for each request to
which the engine has answered itself or with an error, in order, and no other. -/
theorem Source.exists_replay_eq_executeAll {engine : Engine}
    (hspares : engine.vocabulary.SparesReserved) {bytes : Bytes} {live file : Source}
    (hlive : live.Delivers bytes) (hfile : file.Delivers bytes) (hfit : bytes.LinesFit)
    (hok : live.transcript.outcome = .ok ()) :
    let requests := live.transcript.requests
    ∃ replay : Replay, file.replay engine.vocabulary engine.keyspace = (replay, .ok ()) ∧
      replay.keyspace = (engine.executeAll requests).2.keyspace ∧
      replay.count = (requests.filter (·.arguments ≠ [])).length ∧
      replay.warnings = ((engine.executeAll requests).1.filter (·.2.callsForWarning)).map
        (engine.vocabulary.warning ·.1) := by
  intro requests
  obtain ⟨hliveRequests, hliveOutcome⟩ := transcript_eq_dissect hlive hfit
  obtain ⟨hfileRequests, hfileOutcome⟩ := transcript_eq_dissect hfile hfit
  have hreplay : file.replay engine.vocabulary engine.keyspace =
      (Replay.run engine.vocabulary { keyspace := engine.keyspace } requests, .ok ()) := by
    rw [replay, Transcript.replay, hfileOutcome, ← hliveOutcome, hok,
      Replay.run_congr (hfileRequests.trans hliveRequests.symm)]
  obtain ⟨hkeyspace, hwarnings⟩ := Engine.executeAll_agrees rfl hspares requests
  refine ⟨_, hreplay, ?_⟩
  rw [Replay.run_eq]
  refine ⟨hkeyspace, ?_, ?_⟩
  · simp
  · simpa using hwarnings

/-- A stream in both framings, over a vocabulary with names of its own: a write, a sign of life, a
request for nothing, a name that is no text, a read without its key, a read, a leave-taking, and a
write behind it. One reading is cut inside a line end and inside a name, the other is not. -/
theorem Source.exists_replay_eq_executeAll_mixed :
    let vocabulary : Vocabulary :=
      ((Vocabulary.empty.register "Look" .get).register "put" .set).register "drop" .del
    let engine : Engine :=
      { settings := {}, vocabulary, keyspace := .ofList [(Utf8.encode "a", [])],
        log := { path := "log", device := .file [], policy := .no } }
    let pieces : List Bytes := [Utf8.encode "PUT b 2\nPing\r", Utf8.encode "\n*0\r\n*1\r\n$2\r\nx",
      0xFF :: Utf8.encode "\r\nlook\nlook b\nQUIT now\ndrop a c a\n"]
    let bytes : Bytes := pieces.flatten
    let live : Source := pieces.map .data
    let file : Source := .ofReady bytes
    engine.vocabulary.SparesReserved ∧ live.Delivers bytes ∧ file.Delivers bytes ∧
      bytes.LinesFit ∧ live.transcript.outcome = .ok () ∧
      ∃ replay : Replay, file.replay engine.vocabulary engine.keyspace = (replay, .ok ()) ∧
        replay.keyspace = .ofList [(Utf8.encode "b", Utf8.encode "2")] ∧ replay.count = 7 ∧
        replay.warnings =
          [.replayUnknown (Utf8.encode "Ping"), .replayUnknown [120, 0xFF],
            .replayFailed "Look" (.wrongArity .get), .replayUnknown (Utf8.encode "QUIT")] := by
  intro vocabulary engine pieces bytes live file
  have hspares : engine.vocabulary.SparesReserved := by decide +kernel
  have hlive : live.Delivers bytes := delivers_map_data (by decide +kernel)
  have hfile : file.Delivers bytes := delivers_ofReady bytes
  have hfit : bytes.LinesFit := by decide +kernel
  have hok : live.transcript.outcome = .ok () := by
    rw [(transcript_eq_dissect hlive hfit).2, Bytes.outcome_dissect_eq_ok_iff]
    decide +kernel
  obtain ⟨replay, hreplay, hkeyspace, hcount, hwarnings⟩ :=
    exists_replay_eq_executeAll hspares hlive hfile hfit hok
  refine ⟨hspares, hlive, hfile, hfit, hok, replay, hreplay, hkeyspace.trans ?_, hcount.trans ?_,
    hwarnings.trans ?_⟩
  · decide +kernel
  · decide +kernel
  · decide +kernel

end LogStore
