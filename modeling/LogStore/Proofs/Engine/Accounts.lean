import LogStore.Proofs.Engine.Execution
import LogStore.Proofs.Log.Steps

/-!
# What the log was given and what it took

A device may fail at any time and recover, so a log may lack writes that have succeeded. An account
sets the writes that have succeeded against the bytes that the log has taken without an error. On
every device a flush takes the whole stage or nothing of it, and it leaves the stage empty either
way (`Engine.flush_cases`). So what a flush could not write is never written, and the flushes behind
it answer as if it had been: the log is complete behind a flush that succeeds exactly if no flush
before it has failed to write (`Engine.taken_eq_written_iff`).
-/

namespace LogStore

namespace Engine

/-! ## One flush -/

/-- The bytes that the log takes if the stage is flushed now: all of it, or nothing if the write
fails. A sync that fails behind the write does not undo it. -/
def logged (engine : Engine) : Bytes :=
  match (engine.log.device.write engine.staged).1 with
  | .ok () => engine.staged
  | .error _ => []

theorem flush_of_staged_eq_nil {engine : Engine} (h : engine.staged = []) :
    engine.flush = (.ok (), engine) ∧ engine.logged = [] := by
  refine ⟨if_pos h, ?_⟩
  rw [logged, h]
  rfl

/-- A flush takes the whole stage and fails at most in the sync, or it fails in the write and takes
nothing. The stage is empty in either case. -/
theorem flush_cases (engine : Engine) :
    engine.flush.2.staged = [] ∧
      ((engine.logged = engine.staged ∧ ∀ cause, engine.flush.1 ≠ .error (.write cause)) ∨
        (engine.logged = [] ∧ engine.staged ≠ [] ∧
          ∃ cause, engine.flush.1 = .error (.write cause))) := by
  by_cases hempty : engine.staged = []
  · obtain ⟨hflush, hlogged⟩ := flush_of_staged_eq_nil hempty
    rw [hflush, hlogged]
    exact ⟨hempty, .inl ⟨hempty.symm, nofun⟩⟩
  · obtain ⟨_, hcases⟩ := engine.log.append_cases engine.staged
    rw [flush, if_neg hempty, logged]
    refine ⟨rfl, ?_⟩
    rcases hcases with ⟨hwrite, hanswer, _⟩ | ⟨cause, hwrite, hanswer, _⟩
    · rw [hwrite]
      exact .inl ⟨rfl, hanswer⟩
    · rw [hwrite]
      exact .inr ⟨rfl, hempty, cause, hanswer⟩

/-- A device that keeps what it takes holds it behind what it held before. -/
theorem contents_flush (engine : Engine) :
    engine.flush.2.log.device.keeps = engine.log.device.keeps ∧
      (engine.log.device.keeps = true →
        engine.flush.2.log.device.contents = engine.log.device.contents ++ engine.logged) := by
  by_cases hempty : engine.staged = []
  · obtain ⟨hflush, hlogged⟩ := flush_of_staged_eq_nil hempty
    rw [hflush, hlogged]
    exact ⟨rfl, fun _ => (List.append_nil _).symm⟩
  · obtain ⟨hkeeps, hcases⟩ := engine.log.append_cases engine.staged
    rw [flush, if_neg hempty, logged]
    refine ⟨hkeeps, fun h => ?_⟩
    rcases hcases with ⟨hwrite, _, hcontents⟩ | ⟨cause, hwrite, _, hcontents⟩
    · rw [hwrite]
      exact hcontents h
    · rw [hwrite, List.append_nil]
      exact hcontents

/-! ## Any number of actions -/

/-- What is done with an engine. -/
inductive Action where
  /-- A request is carried out. -/
  | execute (request : Request)
  /-- The stage is flushed. -/
  | flush

/-- What has come of some actions. -/
structure Account where
  /-- The raw bytes of the writes that succeeded, in order. -/
  written : Bytes
  /-- The bytes that the log has taken without an error, in order. -/
  taken : Bytes
  /-- The answers of the flushes, in order. -/
  answers : List (Except LogError Unit)
  /-- The engine in the end. -/
  engine : Engine

/-- The account of some actions. They go on whatever a flush answers. -/
def account (engine : Engine) : List Action → Account
  | [] => ⟨[], [], [], engine⟩
  | .execute request :: actions =>
    let rest := (engine.execute request).2.account actions
    { rest with written := (if engine.isWrite request then request.raw else []) ++ rest.written }
  | .flush :: actions =>
    let rest := engine.flush.2.account actions
    { rest with taken := engine.logged ++ rest.taken, answers := engine.flush.1 :: rest.answers }

theorem account_append (engine : Engine) (a b : List Action) :
    engine.account (a ++ b) =
      let first := engine.account a
      let second := first.engine.account b
      ⟨first.written ++ second.written, first.taken ++ second.taken,
        first.answers ++ second.answers, second.engine⟩ := by
  induction a generalizing engine with
  | nil => rfl
  | cons action a ih =>
    cases action with
    | execute request => simp only [List.cons_append, account, ih, List.append_assoc]
    | flush => simp only [List.cons_append, account, ih, List.append_assoc]

/-- A device that keeps what it takes holds what the account says. -/
theorem contents_account (engine : Engine) (actions : List Action)
    (h : engine.log.device.keeps = true) :
    (engine.account actions).engine.log.device.contents =
      engine.log.device.contents ++ (engine.account actions).taken := by
  induction actions generalizing engine with
  | nil => exact (List.append_nil _).symm
  | cons action actions ih =>
    cases action with
    | execute request =>
      have hlog : (engine.execute request).2.log = engine.log := log_execute engine request
      have hrest := ih (engine.execute request).2 (by rwa [hlog])
      rwa [hlog] at hrest
    | flush =>
      obtain ⟨hkeeps, hcontents⟩ := engine.contents_flush
      have hrest := ih engine.flush.2 (hkeeps.trans h)
      rw [hcontents h, List.append_assoc] at hrest
      exact hrest

/-- As long as no flush fails to write, nothing is lost. -/
theorem taken_append_staged (engine : Engine) (actions : List Action)
    (h : ∀ answer ∈ (engine.account actions).answers, ∀ cause, answer ≠ .error (.write cause)) :
    (engine.account actions).taken ++ (engine.account actions).engine.staged =
      engine.staged ++ (engine.account actions).written := by
  induction actions generalizing engine with
  | nil => exact (List.append_nil _).symm
  | cons action actions ih =>
    cases action with
    | execute request =>
      have hrest := ih (engine.execute request).2 h
      rw [staged_execute, List.append_assoc] at hrest
      exact hrest
    | flush =>
      obtain ⟨hanswer, hanswers⟩ := List.forall_mem_cons.1 h
      obtain ⟨hstaged, hcases⟩ := engine.flush_cases
      have hlogged : engine.logged = engine.staged := by
        rcases hcases with ⟨hlogged, _⟩ | ⟨_, _, cause, hfails⟩
        · exact hlogged
        · exact absurd hfails (hanswer cause)
      have hrest := ih engine.flush.2 hanswers
      rw [hstaged, List.nil_append] at hrest
      show engine.logged ++ (engine.flush.2.account actions).taken ++
          (engine.flush.2.account actions).engine.staged =
        engine.staged ++ (engine.flush.2.account actions).written
      rw [List.append_assoc, hrest, hlogged]

/-- The log never takes more than was written, and less once a flush has failed to write. -/
theorem length_taken_add_length_staged (engine : Engine) (actions : List Action) :
    let account := engine.account actions
    account.taken.length + account.engine.staged.length ≤
        engine.staged.length + account.written.length ∧
      ((∃ cause, .error (.write cause) ∈ account.answers) →
        account.taken.length + account.engine.staged.length <
          engine.staged.length + account.written.length) := by
  -- The two sides part at a flush that fails to write, by the stage, which is not empty there.
  induction actions generalizing engine with
  | nil =>
    intro account
    exact ⟨by simp [account, Engine.account], fun ⟨_, hmem⟩ => nomatch hmem⟩
  | cons action actions ih =>
    cases action with
    | execute request =>
      intro account
      obtain ⟨hle, hlt⟩ := ih (engine.execute request).2
      have hstaged : (engine.execute request).2.staged.length =
          engine.staged.length + (if engine.isWrite request then request.raw else []).length := by
        rw [staged_execute, List.length_append]
      have hwritten : account.written.length =
          (if engine.isWrite request then request.raw else []).length +
            ((engine.execute request).2.account actions).written.length := List.length_append
      have htaken : account.taken = ((engine.execute request).2.account actions).taken := rfl
      have hengine : account.engine = ((engine.execute request).2.account actions).engine := rfl
      rw [htaken, hengine]
      refine ⟨by omega, fun hfails => ?_⟩
      have := hlt hfails
      omega
    | flush =>
      intro account
      obtain ⟨hle, hlt⟩ := ih engine.flush.2
      obtain ⟨hstaged, hcases⟩ := engine.flush_cases
      have htaken : account.taken.length =
          engine.logged.length + (engine.flush.2.account actions).taken.length :=
        List.length_append
      have hwritten : account.written = (engine.flush.2.account actions).written := rfl
      have hengine : account.engine = (engine.flush.2.account actions).engine := rfl
      have hanswers : account.answers =
        engine.flush.1 :: (engine.flush.2.account actions).answers := rfl
      rw [hstaged, List.length_nil] at hle hlt
      rw [htaken, hwritten, hengine, hanswers]
      rcases hcases with ⟨hlogged, hanswer⟩ | ⟨hlogged, hne, _⟩
      · rw [hlogged]
        refine ⟨by omega, fun ⟨cause, hmem⟩ => ?_⟩
        have hlater := (List.mem_cons.1 hmem).resolve_left (hanswer cause).symm
        have := hlt ⟨cause, hlater⟩
        omega
      · have hpos : 0 < engine.staged.length := List.length_pos_iff.2 hne
        rw [hlogged, List.length_nil]
        exact ⟨by omega, fun _ => by omega⟩

/-- **When a flush that succeeds means that everything is logged.** Whatever was done with an engine
and whatever its device has answered, consider a flush that succeeds. The bytes that the log has
taken by then are those that were staged to begin with and the raw bytes of all writes that have
succeeded, in order, if no flush before has failed to write, and only then. On a device that keeps
what it takes, they are what stands behind its former contents. -/
theorem taken_eq_written_iff (engine : Engine) (actions : List Action)
    (hflush : (engine.account actions).engine.flush.1 = .ok ()) :
    let before := engine.account actions
    let after := engine.account (actions ++ [.flush])
    (after.taken = engine.staged ++ after.written ↔
        ∀ answer ∈ before.answers, ∀ cause, answer ≠ .error (.write cause)) ∧
      (engine.log.device.keeps = true →
        after.engine.log.device.contents = engine.log.device.contents ++ after.taken) := by
  intro before after
  refine ⟨?_, contents_account engine _⟩
  have hlogged : before.engine.logged = before.engine.staged := by
    rcases before.engine.flush_cases.2 with ⟨hlogged, _⟩ | ⟨_, _, cause, hfails⟩
    · exact hlogged
    · rw [hflush] at hfails
      cases hfails
  have htaken : after.taken = before.taken ++ before.engine.staged := by
    rw [← hlogged]
    simp [after, before, account_append, account]
  have hwritten : after.written = before.written := by
    simp [after, before, account_append, account]
  rw [htaken, hwritten]
  constructor
  · intro hall answer hanswer cause hfails
    obtain ⟨_, hlt⟩ := length_taken_add_length_staged engine actions
    have hshort := hlt ⟨cause, hfails ▸ hanswer⟩
    have hlength := congrArg List.length hall
    rw [List.length_append, List.length_append] at hlength
    exact absurd hlength (Nat.ne_of_lt hshort)
  · exact taken_append_staged engine actions

/-- A write is carried out over a file that takes nothing. The first flush fails, the second one
succeeds, and the write is in neither. -/
theorem taken_eq_written_iff_readOnlyFile :
    let engine : Engine :=
      { settings := {}, vocabulary := .standard, keyspace := .empty,
        log := { path := "log", device := .readOnlyFile [], policy := .no } }
    let request : Request :=
      ⟨Utf8.encode "set k v\n", ["set", "k", "v"].map Utf8.encode, .inline, true⟩
    let before := engine.account [.execute request, .flush]
    let after := engine.account [.execute request, .flush, .flush]
    before.answers = [.error (.write .badDescriptor)] ∧ before.engine.flush.1 = .ok () ∧
      after.written = request.raw ∧ after.taken ≠ after.written ∧
      after.engine.log.device.contents = [] := by
  intro engine request before after
  have hanswers : before.answers = [.error (.write .badDescriptor)] := rfl
  have hflush : before.engine.flush.1 = .ok () := rfl
  obtain ⟨hiff, hcontents⟩ :=
    taken_eq_written_iff engine [.execute request, .flush] hflush
  have hlost : after.taken ≠ after.written := fun hall =>
    hiff.1 hall _ (hanswers ▸ List.mem_singleton_self _) _ rfl
  exact ⟨hanswers, hflush, rfl, hlost, hcontents rfl⟩

end Engine

end LogStore
