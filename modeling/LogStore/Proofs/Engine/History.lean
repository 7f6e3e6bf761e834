import Mathlib.Data.List.Induction
import LogStore.Proofs.Engine.Recovery

/-!
# Histories of an engine

What happens to an engine over its life: requests are carried out, in whatever order the clients'
readers hand them out, the stage is flushed, and now and then the engine is shut down and opened
again over the same file. `Engine.run` runs such a history and lists the writes that succeeded in it.

What every event keeps (`Engine.exists_perform_eq`) is that the log with the stage behind it is
recoverable to the live keyspace. From this the whole of a history follows, and in particular what a
crash leaves: the log alone gives the keyspace of the last moment at which nothing was staged.
-/

namespace LogStore

namespace Engine

/-- What can happen to an engine. -/
inductive Event where
  /-- A request is carried out. -/
  | execute (request : Request)
  /-- The stage is flushed. -/
  | flush
  /-- The stage is flushed and the engine is opened again over its file, with these settings. -/
  | restart (settings : Settings)

/-- The engine with its stage flushed. -/
def flushed (engine : Engine) : Except LogError Engine :=
  match engine.flush with
  | (.ok (), next) => .ok next
  | (.error e, _) => .error e

/-- The engine after an event. -/
def perform (engine : Engine) : Event → Except LogError Engine
  | .execute request => .ok (engine.execute request).2
  | .flush => engine.flushed
  | .restart settings =>
    match engine.flushed with
    | .ok next => ofFile settings next.vocabulary next.log.device.contents
    | .error e => .error e

/-- The write that an event is, if it is one and succeeds. -/
def written (engine : Engine) : Event → List Request
  | .execute request => if engine.isWrite request then [request] else []
  | .flush | .restart _ => []

/-- The engine after all events of a history, and the writes that succeeded, in order. -/
def run (engine : Engine) : List Event → Except LogError (List Request × Engine)
  | [] => .ok ([], engine)
  | event :: events =>
    match engine.perform event with
    | .error e => .error e
    | .ok next =>
      match next.run events with
      | .error e => .error e
      | .ok (writes, final) => .ok (engine.written event ++ writes, final)

/-- The engine keeps to its vocabulary, its log does not fail, and the log with the stage behind it
gives the live keyspace back. -/
structure Durable (vocabulary : Vocabulary) (engine : Engine) : Prop where
  vocabulary_eq : engine.vocabulary = vocabulary
  reliable : engine.log.device.Reliable
  recoverable :
    Recoverable vocabulary (engine.log.device.contents ++ engine.staged) engine.keyspace

/-- What is asked of the requests of an event: a reader has handed them out, and their lines fit. -/
def Event.Sound (event : Event) : Prop :=
  ∀ request, event = .execute request → request.Decoded ∧ request.LinesFit

variable {vocabulary : Vocabulary} {engine : Engine}

/-! ## One event -/

theorem exists_flushed_eq (h : engine.Durable vocabulary) :
    ∃ next : Engine, engine.flushed = .ok next ∧ next.Durable vocabulary ∧ next.staged = [] ∧
      next.log.device.contents = engine.log.device.contents ++ engine.staged ∧
      next.keyspace = engine.keyspace := by
  obtain ⟨log, hflush, hreliable, hcontents⟩ := exists_flush_eq h.reliable
  refine ⟨{ engine with staged := [], log }, by rw [flushed, hflush], ?_, rfl, hcontents, rfl⟩
  refine ⟨h.vocabulary_eq, hreliable, ?_⟩
  simp only [List.append_nil, hcontents]
  exact h.recoverable

theorem durable_of_ofFile {settings : Settings} {contents : Bytes}
    (h : ofFile settings vocabulary contents = .ok engine) (hfit : contents.LinesFit) :
    engine.Durable vocabulary := by
  obtain ⟨hok, hvocabulary, hstaged, hreliable, hcontents, hkeyspace⟩ := of_ofFile_eq_ok h
  refine ⟨hvocabulary, hreliable, ?_⟩
  rw [hstaged, List.append_nil, hcontents, hkeyspace]
  exact .of_transcript (Source.delivers_ofReady contents) hfit hok

/-- A file that an engine has flushed can be opened again. -/
theorem exists_reopened_eq (h : engine.Durable vocabulary) (hstaged : engine.staged = [])
    (settings : Settings) :
    ∃ next, ofFile settings vocabulary engine.log.device.contents = .ok next ∧
      next.Durable vocabulary ∧ next.staged = [] ∧
      next.log.device.contents = engine.log.device.contents := by
  have hrecoverable := h.recoverable
  rw [hstaged, List.append_nil] at hrecoverable
  obtain ⟨next, hnext, _⟩ := exists_ofFile_eq hrecoverable settings
  obtain ⟨_, _, hempty, _, hcontents, _⟩ := of_ofFile_eq_ok hnext
  exact ⟨next, hnext, durable_of_ofFile hnext hrecoverable.fit, hempty, hcontents⟩

/-- Every event succeeds, keeps the engine durable, and puts behind the log and the stage what it
has written. -/
theorem exists_perform_eq (h : engine.Durable vocabulary) {event : Event} (hsound : event.Sound) :
    ∃ next, engine.perform event = .ok next ∧ next.Durable vocabulary ∧
      next.log.device.contents ++ next.staged =
        engine.log.device.contents ++ engine.staged ++
          (engine.written event).flatMap Request.raw := by
  cases event with
  | execute request =>
    obtain ⟨hdecoded, hfit⟩ := hsound request rfl
    have hlogged : (engine.execute request).2.log.device.contents ++
          (engine.execute request).2.staged =
        engine.log.device.contents ++ engine.staged ++
          if engine.isWrite request then request.raw else [] := by
      rw [log_execute, staged_execute, List.append_assoc]
    refine ⟨(engine.execute request).2, rfl, ⟨?_, ?_, ?_⟩, ?_⟩
    · rw [vocabulary_execute, h.vocabulary_eq]
    · rw [log_execute]
      exact h.reliable
    · rw [hlogged]
      by_cases hwrite : engine.isWrite request
      · have hrecoverable := h.recoverable
        rw [← h.vocabulary_eq] at hrecoverable
        rw [if_pos hwrite, ← h.vocabulary_eq]
        exact hrecoverable.append_write hdecoded.intact hfit hwrite
      · rw [if_neg hwrite, List.append_nil, execute_of_not_isWrite hwrite]
        exact h.recoverable
    · rw [hlogged, written]
      split <;> simp
  | flush =>
    obtain ⟨next, hnext, hdurable, hstaged, hcontents, _⟩ := exists_flushed_eq h
    exact ⟨next, hnext, hdurable, by rw [hstaged, hcontents, written]; simp⟩
  | restart settings =>
    obtain ⟨middle, hmiddle, hdurable, hstaged, hcontents, _⟩ := exists_flushed_eq h
    obtain ⟨next, hnext, hnextDurable, hnextStaged, hnextContents⟩ :=
      exists_reopened_eq hdurable hstaged settings
    refine ⟨next, ?_, hnextDurable, ?_⟩
    · rw [perform, hmiddle]
      simp only [hdurable.vocabulary_eq, hnext]
    · rw [hnextStaged, hnextContents, hcontents, written]
      simp

/-- Behind a flush and a restart nothing is staged. -/
theorem staged_of_perform {next : Engine} {event : Event} (h : engine.Durable vocabulary)
    (hevent : ∀ request, event ≠ .execute request) (hnext : engine.perform event = .ok next) :
    next.staged = [] := by
  cases event with
  | execute request => exact absurd rfl (hevent request)
  | flush =>
    obtain ⟨other, hother, _, hstaged, _⟩ := exists_flushed_eq h
    rw [perform, hother] at hnext
    cases hnext
    exact hstaged
  | restart settings =>
    rw [perform] at hnext
    split at hnext
    · exact (of_ofFile_eq_ok hnext).2.2.1
    · cases hnext

/-! ## All events -/

theorem exists_run_eq (h : engine.Durable vocabulary) {events : List Event}
    (hsound : ∀ event ∈ events, event.Sound) :
    ∃ writes final, engine.run events = .ok (writes, final) ∧ final.Durable vocabulary ∧
      final.log.device.contents ++ final.staged =
        engine.log.device.contents ++ engine.staged ++ writes.flatMap Request.raw := by
  induction events generalizing engine with
  | nil => exact ⟨[], engine, rfl, h, by simp⟩
  | cons event events ih =>
    obtain ⟨hevent, hevents⟩ := List.forall_mem_cons.1 hsound
    obtain ⟨next, hnext, hdurable, hlogged⟩ := exists_perform_eq h hevent
    obtain ⟨writes, final, hfinal, hfinalDurable, hall⟩ := ih hdurable hevents
    refine ⟨engine.written event ++ writes, final, ?_, hfinalDurable, ?_⟩
    · simp only [run, hnext, hfinal]
    · rw [hall, hlogged, List.flatMap_append, List.append_assoc]

/-- A history may be run in two parts. -/
theorem run_append {middle final : Engine} {a b : List Event} {first second : List Request}
    (ha : engine.run a = .ok (first, middle)) (hb : middle.run b = .ok (second, final)) :
    engine.run (a ++ b) = .ok (first ++ second, final) := by
  induction a generalizing engine first with
  | nil =>
    cases ha
    exact hb
  | cons event a ih =>
    rw [run] at ha
    split at ha <;> try contradiction
    rename_i next hnext
    split at ha <;> try contradiction
    rename_i writes other hother
    cases ha
    simp only [List.cons_append, run, hnext, ih hother, List.append_assoc]

/-- Requests that are carried out do not reach the log. -/
theorem log_of_run_execute {final : Engine} {requests writes : List Request}
    (h : engine.run (requests.map .execute) = .ok (writes, final)) : final.log = engine.log := by
  induction requests generalizing engine writes with
  | nil =>
    cases h
    rfl
  | cons request requests ih =>
    rw [List.map_cons, run] at h
    simp only [perform] at h
    split at h <;> try contradiction
    rename_i hrest
    cases h
    rw [ih hrest, log_execute]

/-- A history ends with requests that are carried out, behind a last flush or restart if there is
one. -/
theorem exists_events_eq (events : List Event) :
    ∃ (before : List Event) (requests : List Request), events = before ++ requests.map .execute ∧
      ∀ request, before.getLast? ≠ some (.execute request) := by
  induction events using List.reverseRecOn with
  | nil => exact ⟨[], [], rfl, nofun⟩
  | append_singleton events event ih =>
    cases event with
    | execute request =>
      obtain ⟨before, requests, rfl, hlast⟩ := ih
      exact ⟨before, requests ++ [request], by simp, hlast⟩
    | flush => exact ⟨events ++ [.flush], [], by simp, fun _ => by simp⟩
    | restart settings => exact ⟨events ++ [.restart settings], [], by simp, fun _ => by simp⟩

/-- Behind a last flush or restart, or at the beginning, nothing is staged. -/
theorem staged_of_run {final : Engine} {events : List Event} {writes : List Request}
    (h : engine.Durable vocabulary) (hstaged : engine.staged = [])
    (hsound : ∀ event ∈ events, event.Sound)
    (hlast : ∀ request, events.getLast? ≠ some (.execute request))
    (hrun : engine.run events = .ok (writes, final)) : final.staged = [] := by
  cases events using List.reverseRecOn with
  | nil =>
    cases hrun
    exact hstaged
  | append_singleton events event =>
    obtain ⟨hevents, hevent⟩ := List.forall_mem_append.1 hsound
    obtain ⟨first, middle, hmiddle, hdurable, _⟩ := exists_run_eq h hevents
    obtain ⟨next, hnext, _⟩ := exists_perform_eq hdurable (hevent event (List.mem_singleton_self _))
    have hone : middle.run [event] = .ok (middle.written event ++ [], next) := by
      simp only [run, hnext]
    rw [run_append hmiddle hone] at hrun
    cases hrun
    refine staged_of_perform hdurable (fun request he => ?_) hnext
    exact hlast request (by rw [he, List.getLast?_concat])

/-- **The log and the live keyspace over a whole history.** A history in which only decoded requests
are carried out never fails, and at its end:
* the log with the stage behind it is what the file held at the beginning, followed by the raw bytes
  of the writes that have succeeded, in order;
* its replay, however the reads are cut, succeeds and gives the live keyspace;
* a replay of the log alone, as after a crash, succeeds and gives the keyspace that was live behind
  the last flush or restart, or at the beginning if there was none. -/
theorem run_recoverable {settings : Settings} {contents : Bytes}
    (hopen : ofFile settings vocabulary contents = .ok engine) (hfit : contents.LinesFit)
    {events : List Event} (hsound : ∀ event ∈ events, event.Sound) :
    ∃ writes final, engine.run events = .ok (writes, final) ∧
      final.log.device.contents ++ final.staged = contents ++ writes.flatMap Request.raw ∧
      (∀ source : Source, source.Delivers (final.log.device.contents ++ final.staged) →
        ∃ replay : Replay, source.replay vocabulary .empty = (replay, .ok ()) ∧
          replay.keyspace = final.keyspace) ∧
      ∃ (before : List Event) (requests first : List Request) (durable : Engine),
        events = before ++ requests.map .execute ∧
        (∀ request, before.getLast? ≠ some (.execute request)) ∧
        engine.run before = .ok (first, durable) ∧
        final.log.device.contents = contents ++ first.flatMap Request.raw ∧
        ∀ source : Source, source.Delivers final.log.device.contents →
          ∃ replay : Replay, source.replay vocabulary .empty = (replay, .ok ()) ∧
            replay.keyspace = durable.keyspace := by
  have hdurable := durable_of_ofFile hopen hfit
  obtain ⟨_, _, hstaged, _, hcontents, _⟩ := of_ofFile_eq_ok hopen
  -- The history is cut behind the last flush or restart: there the log was complete, and what comes
  -- after it does not reach the log.
  obtain ⟨before, requests, rfl, hlast⟩ := exists_events_eq events
  obtain ⟨hbefore, hafter⟩ := List.forall_mem_append.1 hsound
  obtain ⟨first, durable, hfirst, hdurableBefore, hlogged⟩ := exists_run_eq hdurable hbefore
  obtain ⟨second, final, hsecond, hfinal, hall⟩ := exists_run_eq hdurableBefore hafter
  have hnone : durable.staged = [] := staged_of_run hdurable hstaged hbefore hlast hfirst
  rw [hcontents, hstaged, List.append_nil] at hlogged
  rw [hlogged, List.append_assoc, ← List.flatMap_append] at hall
  rw [hnone, List.append_nil] at hlogged
  have hlog := log_of_run_execute hsecond
  have hgiven := hdurableBefore.recoverable
  rw [hnone, List.append_nil] at hgiven
  refine ⟨first ++ second, final, run_append hfirst hsecond, hall,
    fun source hsource => hfinal.recoverable.exists_replay_eq hsource,
    before, requests, first, durable, rfl, hlast, hfirst, by rw [hlog, hlogged], ?_⟩
  intro source hsource
  rw [hlog] at hsource
  exact hgiven.exists_replay_eq hsource

/-- A file with one request is opened; a write is carried out and flushed, a second one, in the
other framing, goes to the file in a restart, and a third one stays on the stage. So the third one is
in the keyspace that log and stage give back, and not in the one that the log alone gives back. -/
theorem run_recoverable_restarted :
    let contents : Bytes := Utf8.encode "set k 0\n"
    let first : Request :=
      ⟨Utf8.encode "set k \"1 2\"\r\n", ["set", "k", "1 2"].map Utf8.encode, .inline, true⟩
    let second : Request :=
      ⟨Utf8.encode "*2\r\n$3\r\nDEL\r\n$1\r\nj\r\n", ["DEL", "j"].map Utf8.encode, .multibulk,
        true⟩
    let third : Request :=
      ⟨Utf8.encode "set j 3\n", ["set", "j", "3"].map Utf8.encode, .inline, true⟩
    let events : List Event :=
      [.execute first, .flush, .execute second, .restart {}, .execute third]
    let kept : Keyspace := .ofList [(Utf8.encode "k", Utf8.encode "1 2")]
    let live : Keyspace := kept.insert (Utf8.encode "j") (Utf8.encode "3")
    ∃ engine, ofFile {} .standard contents = .ok engine ∧ contents.LinesFit ∧
      (∀ event ∈ events, event.Sound) ∧
      ∃ writes final, engine.run events = .ok (writes, final) ∧
        final.log.device.contents ++ final.staged = contents ++ writes.flatMap Request.raw ∧
        final.keyspace = live ∧
        (∀ source : Source, source.Delivers (final.log.device.contents ++ final.staged) →
          ∃ replay : Replay, source.replay .standard .empty = (replay, .ok ()) ∧
            replay.keyspace = live) ∧
        (∃ others restarted, engine.run (events.take 4) = .ok (others, restarted) ∧
          restarted.keyspace = kept) ∧
        ∀ source : Source, source.Delivers final.log.device.contents →
          ∃ replay : Replay, source.replay .standard .empty = (replay, .ok ()) ∧
            replay.keyspace = kept := by
  intro contents first second third events kept live
  have hfit : contents.LinesFit := by decide +kernel
  have hrecoverable : Recoverable .standard contents _ := ⟨by decide +kernel, hfit, rfl⟩
  obtain ⟨engine, hopen, _⟩ := exists_ofFile_eq hrecoverable {}
  have hread : ∀ request ∈ [first, second, third],
      (({} : Reader).read [.data request.raw]).1 = .ok (some request) := by
    simp only [List.forall_mem_cons]
    exact ⟨rfl, rfl, rfl, nofun⟩
  have hlines : ∀ request ∈ [first, second, third], request.LinesFit := by decide +kernel
  have hsound : ∀ event ∈ events, event.Sound := by
    rintro event hevent request rfl
    have hmem : request ∈ [first, second, third] := by simpa [events] using hevent
    exact ⟨⟨_, _, _, .fresh, hread request hmem⟩, hlines request hmem⟩
  obtain ⟨writes, final, hrun, hlogged, hreplay, _, _, _, durable, -, -, -, -, hcrash⟩ :=
    run_recoverable hopen hfit hsound
  -- The history is run on the engine that the file gives, whatever else is known of it.
  have hevaluated : ((ofFile {} .standard contents).bind (·.run events)).toOption.map
      (fun result => (result.2.keyspace, result.2.log.device.contents)) =
        some (live, contents ++ first.raw ++ second.raw) := by decide +kernel
  rw [hopen, Except.bind, hrun] at hevaluated
  obtain ⟨hlive, hlog⟩ := Prod.mk.inj (Option.some.inj hevaluated)
  have hkept : ((ofFile {} .standard contents).bind (·.run (events.take 4))).toOption.map
      (·.2.keyspace) = some kept := by decide +kernel
  rw [hopen, Except.bind] at hkept
  have hdurable : durable.keyspace = kept := by
    obtain ⟨replay, hgiven, hsame⟩ := hcrash _ (Source.delivers_ofReady _)
    have hread : ((Source.ofReady (contents ++ first.raw ++ second.raw)).replay .standard
        .empty).1.keyspace = kept := by decide +kernel
    rw [← hsame, ← hread, ← hlog, hgiven]
  refine ⟨engine, hopen, hfit, hsound, writes, final, hrun, hlogged, hlive, ?_, ?_, ?_⟩
  · intro source hsource
    obtain ⟨replay, hgiven, hsame⟩ := hreplay source hsource
    exact ⟨replay, hgiven, hsame.trans hlive⟩
  · cases hrestart : engine.run (events.take 4) with
    | error e =>
      rw [hrestart] at hkept
      cases hkept
    | ok result =>
      rw [hrestart] at hkept
      exact ⟨result.1, result.2, rfl, Option.some.inj hkept⟩
  · intro source hsource
    obtain ⟨replay, hgiven, hsame⟩ := hcrash source hsource
    exact ⟨replay, hgiven, hsame.trans hdurable⟩

end Engine

end LogStore
