import LogStore.Proofs.Engine.Execution
import LogStore.Proofs.Request.Calls
import LogStore.Startup

/-!
# What a log gives back

A log is `Recoverable` to a keyspace if it consists of complete requests whose lines fit and whose
replay gives that keyspace. Such a log is replayed without an error and to the same keyspace however
its reads are cut (`Recoverable.exists_replay_eq`), and it stays recoverable when the raw bytes of a
successful write are put behind it (`Recoverable.append_write`). Opening an engine over a file is
the first of these facts at work (`Engine.ofFile_eq`).
-/

namespace LogStore

/-! ## Replays -/

namespace Replay

variable {vocabulary : Vocabulary}

theorem step_congr {a b : Request} (h : a.content = b.content) (replay : Replay) :
    step vocabulary replay a = step vocabulary replay b := by
  rw [step, step, Request.arguments_eq_of_content h]

/-- A replay looks at what the requests say, and at nothing else. -/
theorem run_congr {a b : List Request} (h : a.map Request.content = b.map Request.content)
    (replay : Replay) : run vocabulary replay a = run vocabulary replay b := by
  revert replay
  refine Request.content_induction (fun _ => rfl) (fun hhead ih replay => ?_) h
  rw [run, List.foldl_cons, step_congr hhead]
  exact ih _

end Replay

/-- The bytes are complete requests whose lines fit, and their replay gives the keyspace. -/
structure Recoverable (vocabulary : Vocabulary) (bytes : Bytes) (keyspace : Keyspace) : Prop where
  complete : (Bytes.dissect bytes).rest = []
  fit : Bytes.LinesFit bytes
  keyspace_eq :
    (Replay.run vocabulary { keyspace := .empty } (Bytes.dissect bytes).requests).keyspace = keyspace

namespace Recoverable

variable {vocabulary : Vocabulary} {bytes : Bytes} {keyspace : Keyspace}

/-- However the reads are cut, a recoverable log is replayed to its keyspace. -/
theorem exists_replay_eq (h : Recoverable vocabulary bytes keyspace) {source : Source}
    (hdelivers : source.Delivers bytes) :
    ∃ replay : Replay, source.replay vocabulary .empty = (replay, .ok ()) ∧
      replay.keyspace = keyspace := by
  obtain ⟨hrequests, houtcome⟩ := Source.transcript_eq_dissect hdelivers h.fit
  refine ⟨source.transcript.replay vocabulary .empty, ?_, ?_⟩
  · rw [Source.replay, houtcome, (Bytes.outcome_dissect_eq_ok_iff bytes).2 h.complete]
  · rw [Transcript.replay, Replay.run_congr hrequests]
    exact h.keyspace_eq

/-- A log of which one way of reading gives no error is recoverable, if its lines fit. -/
theorem of_transcript {source : Source} (hdelivers : source.Delivers bytes)
    (hfit : Bytes.LinesFit bytes) (hok : source.transcript.outcome = .ok ()) :
    Recoverable vocabulary bytes (source.transcript.replay vocabulary .empty).keyspace := by
  obtain ⟨hrequests, _⟩ := Source.transcript_eq_dissect hdelivers hfit
  refine ⟨Source.rest_dissect_of_outcome_eq_ok hdelivers hok, hfit, ?_⟩
  rw [Transcript.replay, Replay.run_congr hrequests]

/-- A successful write may be put behind the log. -/
theorem append_write {engine : Engine} {request : Request}
    (h : Recoverable engine.vocabulary bytes engine.keyspace) (hintact : request.Intact)
    (hfit : request.LinesFit) (hwrite : engine.isWrite request) :
    Recoverable engine.vocabulary (bytes ++ request.raw) (engine.execute request).2.keyspace := by
  obtain ⟨again, hcontent, hdissect⟩ := hintact.dissect_append []
  rw [List.append_nil, Bytes.dissect_nil] at hdissect
  have hwhole := Bytes.dissect_append_of_complete h.complete request.raw
  rw [hdissect] at hwhole
  refine ⟨by rw [hwhole]; rfl, ?_, ?_⟩
  · refine (Bytes.linesFit_append_of_complete h.complete _).2 ⟨h.fit, ?_, ?_⟩
    · rw [hdissect]
      intro other hother
      rw [List.mem_singleton.1 hother, Request.LinesFit, Request.raw_eq_of_content hcontent]
      exact hfit
    · rw [hdissect]
      exact nofun
  · rw [hwhole]
    show (Replay.run _ _ ((Bytes.dissect bytes).requests ++ [again])).keyspace = _
    rw [Replay.run_append, Replay.run, List.foldl_cons, List.foldl_nil, Replay.step_congr hcontent]
    exact Engine.keyspace_step_of_isWrite hwrite h.keyspace_eq

end Recoverable

/-! ## Opening an engine -/

namespace Engine

/-- An engine over a file that holds the given bytes. -/
def ofFile (settings : Settings) (vocabulary : Vocabulary) (contents : Bytes) :
    Except LogError Engine :=
  (Engine.start settings vocabulary (.ok (.file contents))).1

/-- The engine that a file gives, if reading it gives no error. -/
theorem ofFile_eq (settings : Settings) (vocabulary : Vocabulary) (contents : Bytes) :
    ofFile settings vocabulary contents =
      match (Source.ofReady contents).transcript.outcome with
      | .error e => .error (.replay e)
      | .ok () => .ok
        { settings, vocabulary
          keyspace := ((Source.ofReady contents).transcript.replay vocabulary .empty).keyspace
          log :=
            { path := Utf8.decodeLossy settings.logPath
              device := (Device.file contents).readUpTo (Source.ofReady contents).transcript.source
              policy := settings.syncPolicy } } := by
  simp only [ofFile, Engine.start, Settings.openLog, ofLog, Log.load, Device.source, Device.file]
  cases (Source.ofReady contents).transcript.outcome <;> rfl

variable {settings : Settings} {vocabulary : Vocabulary} {contents : Bytes} {engine : Engine}

/-- What is known of an engine that was opened. -/
theorem of_ofFile_eq_ok (h : ofFile settings vocabulary contents = .ok engine) :
    (Source.ofReady contents).transcript.outcome = .ok () ∧
      engine.vocabulary = vocabulary ∧ engine.staged = [] ∧
      engine.log.device.Reliable ∧ engine.log.device.contents = contents ∧
      engine.keyspace =
        ((Source.ofReady contents).transcript.replay vocabulary .empty).keyspace := by
  rw [ofFile_eq] at h
  split at h
  · cases h
  · rename_i hok
    cases h
    exact ⟨hok, rfl, rfl, ⟨rfl, fun _ => rfl, fun _ => rfl⟩, rfl, rfl⟩

/-- A recoverable file can be opened, and gives its keyspace. -/
theorem exists_ofFile_eq {keyspace : Keyspace} (h : Recoverable vocabulary contents keyspace)
    (settings : Settings) :
    ∃ engine, ofFile settings vocabulary contents = .ok engine ∧
      engine.keyspace = keyspace := by
  obtain ⟨replay, hreplay, hkeyspace⟩ := h.exists_replay_eq (Source.delivers_ofReady contents)
  obtain ⟨hloaded, hok⟩ := Prod.mk.inj hreplay
  rw [ofFile_eq, hok]
  exact ⟨_, rfl, by rw [hloaded, hkeyspace]⟩

end Engine

end LogStore
