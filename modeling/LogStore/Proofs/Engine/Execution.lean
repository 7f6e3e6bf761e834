import LogStore.Engine

/-!
# What a step of the engine changes

Carrying out a request changes the engine only if it is a write that succeeds, and then it changes
the keyspace and the stage, the stage by exactly the raw bytes. `Engine.isWrite` says which requests
these are without a look at what is done with them. A replay of such a request makes the same change
to a keyspace (`Engine.keyspace_step_of_isWrite`).

`Engine.Executes` has one rule for each way that carrying out a request can go, with everything that
is known there; a proof that looks at all of them goes by these cases (`Engine.executes`).

On a log whose device takes everything it is given, a flush moves the stage to the end of the log
and changes nothing else (`Engine.exists_flush_eq`).
-/

namespace LogStore

namespace Engine

/-- Whether the request, carried out now, is a write that succeeds: it is neither `quit` nor `ping`,
its name stands for an operation that writes, and the operation takes its arguments. -/
def isWrite (engine : Engine) (request : Request) : Bool :=
  match request.arguments with
  | [] => false
  | name :: arguments =>
    name.toLower != quitName && name.toLower != pingName &&
      match engine.vocabulary.lookup name with
      | none => false
      | some entry =>
        entry.operation.access == .write && (entry.operation.run engine.keyspace arguments).1.isOk

variable {engine : Engine} {request : Request}

/-- What is done with a write that succeeds. -/
theorem of_isWrite (h : engine.isWrite request) :
    ∃ name arguments entry reply keyspace, request.arguments = name :: arguments ∧
      engine.vocabulary.lookup name = some entry ∧
      entry.operation.run engine.keyspace arguments = (.ok reply, keyspace) ∧
      engine.execute request = (.reply reply,
        { engine with keyspace, staged := engine.staged ++ request.raw }) := by
  unfold isWrite at h
  split at h
  · cases h
  · rename_i name arguments harguments
    rw [Bool.and_eq_true, Bool.and_eq_true, bne_iff_ne, bne_iff_ne] at h
    obtain ⟨⟨hquit, hping⟩, hwrite⟩ := h
    split at hwrite
    · cases hwrite
    · rename_i entry hentry
      rw [Bool.and_eq_true, beq_iff_eq] at hwrite
      obtain ⟨haccess, hok⟩ := hwrite
      rcases hrun : entry.operation.run engine.keyspace arguments with ⟨answer, keyspace⟩
      cases answer with
      | error e =>
        rw [hrun] at hok
        cases hok
      | ok reply =>
        refine ⟨name, arguments, entry, reply, keyspace, harguments, hentry, hrun, ?_⟩
        simp only [execute, harguments, if_neg hquit, if_neg hping, hentry, hrun, haccess]

/-! ## All ways to carry out a request -/

/-- The name is none that the engine answers itself. -/
def Ordinary (name : Bytes) : Prop :=
  name.toLower ≠ quitName ∧ name.toLower ≠ pingName

/-- What carrying out a request comes to, and the engine that it leaves. -/
inductive Executes (engine : Engine) (request : Request) : Outcome × Engine → Prop
  /-- The request asks for nothing. -/
  | silent (harguments : request.arguments = []) : Executes engine request (.silent, engine)
  /-- The client takes its leave. -/
  | quit {name : Bytes} {arguments : List Bytes}
      (harguments : request.arguments = name :: arguments)
      (hname : name.toLower = quitName) : Executes engine request (.quit, engine)
  /-- The client asks for a sign of life. -/
  | ping {name : Bytes} {arguments : List Bytes}
      (harguments : request.arguments = name :: arguments)
      (hname : name.toLower = pingName) :
      Executes engine request (.reply (.simple "PONG"), engine)
  /-- The name is not known. -/
  | unknown {name : Bytes} {arguments : List Bytes}
      (harguments : request.arguments = name :: arguments) (hname : Ordinary name)
      (hlookup : engine.vocabulary.lookup name = none) :
      Executes engine request
        (.reply (Refusal.unknownName (Utf8.decodeLossy name)).reply, engine)
  /-- The operation does not take the arguments. -/
  | refused {name : Bytes} {arguments : List Bytes} {entry : Vocabulary.Entry} {refusal : Refusal}
      (harguments : request.arguments = name :: arguments) (hname : Ordinary name)
      (hlookup : engine.vocabulary.lookup name = some entry)
      (hrun : entry.operation.run engine.keyspace arguments = (.error refusal, engine.keyspace)) :
      Executes engine request (.reply refusal.reply, engine)
  /-- An operation that reads succeeds. -/
  | read {name : Bytes} {arguments : List Bytes} {entry : Vocabulary.Entry} {reply : Reply}
      (harguments : request.arguments = name :: arguments) (hname : Ordinary name)
      (hlookup : engine.vocabulary.lookup name = some entry)
      (haccess : entry.operation.access = .read)
      (hrun : entry.operation.run engine.keyspace arguments = (.ok reply, engine.keyspace)) :
      Executes engine request (.reply reply, engine)
  /-- An operation that writes succeeds. -/
  | write {name : Bytes} {arguments : List Bytes} {entry : Vocabulary.Entry} {reply : Reply}
      {keyspace : Keyspace} (harguments : request.arguments = name :: arguments)
      (hname : Ordinary name) (hlookup : engine.vocabulary.lookup name = some entry)
      (haccess : entry.operation.access = .write)
      (hrun : entry.operation.run engine.keyspace arguments = (.ok reply, keyspace)) :
      Executes engine request
        (.reply reply, { engine with keyspace, staged := engine.staged ++ request.raw })

theorem executes (engine : Engine) (request : Request) :
    engine.Executes request (engine.execute request) := by
  unfold execute
  split
  · exact .silent ‹_›
  · rename_i name arguments harguments
    split
    · exact .quit harguments ‹_›
    · rename_i hquit
      split
      · exact .ping harguments ‹_›
      · rename_i hping
        have hname : Ordinary name := ⟨hquit, hping⟩
        split
        · exact .unknown harguments hname ‹_›
        · rename_i entry hlookup
          rcases hrun : entry.operation.run engine.keyspace arguments with ⟨answer, keyspace⟩
          cases answer with
          | error refusal =>
            -- Nothing is taken back here: a refused operation has changed nothing.
            cases (Operation.of_run_eq_error hrun).2
            exact .refused harguments hname hlookup hrun
          | ok reply =>
            cases haccess : entry.operation.access with
            | read =>
              cases Operation.keyspace_eq_of_read haccess hrun
              exact .read harguments hname hlookup haccess hrun
            | write => exact .write harguments hname hlookup haccess hrun

/-- The rules leave no choice. -/
theorem Executes.execute_eq {result : Outcome × Engine} (h : engine.Executes request result) :
    engine.execute request = result := by
  cases h with
  | silent harguments => simp only [execute, harguments]
  | quit harguments hname => simp only [execute, harguments, if_pos hname]
  | ping harguments hname =>
    have hquit : pingName ≠ quitName := by decide
    rw [← hname] at hquit
    simp only [execute, harguments, if_neg hquit, if_pos hname]
  | unknown harguments hname hlookup =>
    simp only [execute, harguments, if_neg hname.1, if_neg hname.2, hlookup]
  | refused harguments hname hlookup hrun =>
    simp only [execute, harguments, if_neg hname.1, if_neg hname.2, hlookup, hrun]
  | read harguments hname hlookup haccess hrun =>
    simp only [execute, harguments, if_neg hname.1, if_neg hname.2, hlookup, hrun, haccess]
  | write harguments hname hlookup haccess hrun =>
    simp only [execute, harguments, if_neg hname.1, if_neg hname.2, hlookup, hrun, haccess]

/-! ## What stays -/

/-- A request that is no write, or is refused, changes nothing. -/
theorem execute_of_not_isWrite (h : ¬ engine.isWrite request) :
    (engine.execute request).2 = engine := by
  have hexecutes := engine.executes request
  generalize engine.execute request = result at hexecutes
  cases hexecutes with
  | silent | quit | ping | unknown | refused | read => rfl
  | write harguments hname hlookup haccess hrun =>
    simp [isWrite, harguments, hname.1, hname.2, hlookup, haccess, hrun, Except.isOk,
      Except.toBool] at h

@[simp]
theorem log_execute (engine : Engine) (request : Request) :
    (engine.execute request).2.log = engine.log := by
  by_cases h : engine.isWrite request
  · obtain ⟨_, _, _, _, _, _, _, _, hexecute⟩ := of_isWrite h
    rw [hexecute]
  · rw [execute_of_not_isWrite h]

@[simp]
theorem vocabulary_execute (engine : Engine) (request : Request) :
    (engine.execute request).2.vocabulary = engine.vocabulary := by
  by_cases h : engine.isWrite request
  · obtain ⟨_, _, _, _, _, _, _, _, hexecute⟩ := of_isWrite h
    rw [hexecute]
  · rw [execute_of_not_isWrite h]

/-- Exactly the raw bytes of a write that succeeds are staged. -/
theorem staged_execute (engine : Engine) (request : Request) :
    (engine.execute request).2.staged =
      engine.staged ++ if engine.isWrite request then request.raw else [] := by
  by_cases h : engine.isWrite request
  · obtain ⟨_, _, _, _, _, _, _, _, hexecute⟩ := of_isWrite h
    rw [hexecute, if_pos h]
  · rw [execute_of_not_isWrite h, if_neg h, List.append_nil]

/-- A replay of a write that has succeeded changes the keyspace as the write did. -/
theorem keyspace_step_of_isWrite (h : engine.isWrite request) {replay : Replay}
    (hkeyspace : replay.keyspace = engine.keyspace) :
    (Replay.step engine.vocabulary replay request).keyspace =
      (engine.execute request).2.keyspace := by
  obtain ⟨name, arguments, entry, reply, keyspace, harguments, hentry, hrun, hexecute⟩ :=
    of_isWrite h
  rw [hexecute]
  simp only [Replay.step, harguments, hentry, hkeyspace, hrun]

end Engine

/-! ## Logs that do not fail -/

/-- The device keeps everything it is given, and neither a write nor a sync ever fails. -/
structure Device.Reliable (device : Device) : Prop where
  keeps : device.keeps = true
  write : ∀ n, device.writeFailure n = none
  sync : ∀ n, device.syncFailure n = none

theorem Device.Reliable.write_eq {device : Device} (h : device.Reliable) (bytes : Bytes) :
    ∃ next, device.write bytes = (.ok (), next) ∧ next.Reliable ∧
      next.contents = device.contents ++ bytes := by
  unfold Device.write
  split
  · rename_i hempty
    exact ⟨device, rfl, h, by rw [hempty, List.append_nil]⟩
  · rw [h.write]
    exact ⟨_, rfl, ⟨h.keeps, h.write, h.sync⟩, if_pos h.keeps⟩

theorem Log.exists_sync_eq {log : Log} (h : log.device.Reliable) :
    ∃ next : Log, log.sync = (.ok (), next) ∧ next.device.Reliable ∧
      next.device.contents = log.device.contents := by
  unfold Log.sync
  split
  · simp only [Device.sync, h.sync]
    exact ⟨_, rfl, ⟨h.keeps, h.write, h.sync⟩, rfl⟩
  · exact ⟨log, rfl, h, rfl⟩

theorem Log.exists_append_eq {log : Log} (h : log.device.Reliable) (bytes : Bytes) :
    ∃ next : Log, log.append bytes = (.ok (), next) ∧ next.device.Reliable ∧
      next.device.contents = log.device.contents ++ bytes := by
  obtain ⟨device, hwrite, hreliable, hcontents⟩ := h.write_eq bytes
  rw [Log.append, hwrite]
  simp only
  split
  · have hmarked : ({ log with device, unsynced := true } : Log).device.Reliable := hreliable
    obtain ⟨next, hsync, hnext, hsame⟩ := Log.exists_sync_eq hmarked
    exact ⟨next, hsync, hnext, hsame.trans hcontents⟩
  · exact ⟨_, rfl, hreliable, hcontents⟩

/-- A flush moves the stage to the end of the log. -/
theorem Engine.exists_flush_eq {engine : Engine} (h : engine.log.device.Reliable) :
    ∃ log : Log, engine.flush = (.ok (), { engine with staged := [], log }) ∧
      log.device.Reliable ∧ log.device.contents = engine.log.device.contents ++ engine.staged := by
  unfold Engine.flush
  split
  · rename_i hempty
    refine ⟨engine.log, ?_, h, by rw [hempty, List.append_nil]⟩
    rw [← hempty]
  · obtain ⟨log, happend, hreliable, hcontents⟩ := Log.exists_append_eq h engine.staged
    exact ⟨log, by rw [happend], hreliable, hcontents⟩

end LogStore
