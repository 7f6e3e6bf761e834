import LogStore.Proofs.Log.Steps

/-!
# What a log owes

A log owes a sync when an append was written and its device has not carried out a sync since. The
device counts the syncs that it carries out, so this can be said without a look at the mark of the
log (`Log.Owes`). Any write and any sync may fail. The mark says at every moment whether a sync is
owed (`Log.unsynced_iff_owes`), because one call keeps it right whatever comes of the call
(`Log.unsynced_perform_iff`) and the count of syncs never falls.
-/

namespace LogStore

namespace Log

variable {log : Log} {bytes : Bytes} {cause : SystemError}

/-! ## One sync -/

theorem sync_of_marked (h : log.unsynced = true) :
    log.sync.2.device = log.device.sync.2 ∧ log.sync.1 = log.device.sync.1.mapError .sync := by
  have hsyncs := log.syncs
  generalize log.sync = result at hsyncs
  cases hsyncs with
  | idle hmark => cases h.symm.trans hmark
  | done _ hsync | failed _ hsync =>
    rw [hsync]
    exact ⟨rfl, rfl⟩

theorem sync_of_not_marked (h : log.unsynced ≠ true) : log.sync = (.ok (), log) :=
  if_neg h

/-- A sync reaches the device exactly if the log is marked. -/
theorem syncs_sync_iff : log.sync.2.device.syncs = log.device.syncs + 1 ↔ log.unsynced = true := by
  by_cases hmark : log.unsynced = true
  · rw [(sync_of_marked hmark).1, Device.syncs_sync]
    exact iff_of_true rfl hmark
  · rw [sync_of_not_marked hmark]
    exact iff_of_false (Nat.succ_ne_self _).symm hmark

/-- The mark goes with the sync that the device carries out, and not before. -/
theorem unsynced_sync_iff (log : Log) :
    log.sync.2.unsynced = true ↔
      log.unsynced = true ∧ log.sync.2.device.synced = log.device.synced := by
  have hsyncs := log.syncs
  generalize log.sync = result at hsyncs
  cases hsyncs with
  | idle hmark => simp
  | done hmark hsync => simp [Device.synced_sync_of_ok hsync]
  | failed hmark hsync => simp [Device.synced_sync_of_error hsync]

theorem synced_le_sync (log : Log) : log.device.synced ≤ log.sync.2.device.synced := by
  have hsyncs := log.syncs
  generalize log.sync = result at hsyncs
  cases hsyncs with
  | idle => exact Nat.le_refl _
  | done _ hsync => exact Device.synced_sync_of_ok hsync ▸ Nat.le_succ _
  | failed _ hsync => exact Device.synced_sync_of_error hsync ▸ Nat.le_refl _

/-- A sync that fails leaves the mark. -/
theorem unsynced_of_sync_eq_error (h : log.sync.1 = .error (.sync cause)) :
    log.sync.2.unsynced = true := by
  have hsyncs := log.syncs
  generalize log.sync = result at hsyncs h
  cases hsyncs with
  | idle | done => cases h
  | failed hmark => exact hmark

/-- A sync that succeeds leaves no mark. -/
theorem unsynced_of_sync_eq_ok (h : log.sync.1 = .ok ()) : log.sync.2.unsynced = false := by
  have hsyncs := log.syncs
  generalize log.sync = result at hsyncs h
  cases hsyncs with
  | idle hmark => exact hmark
  | done => rfl
  | failed => cases h

/-! ## One append -/

theorem unsynced_append_iff (log : Log) (bytes : Bytes) :
    (log.append bytes).2.unsynced = true ↔
      ((log.device.write bytes).1 = .ok () ∨ log.unsynced = true) ∧
        (log.append bytes).2.device.synced = log.device.synced := by
  have happends := log.appends bytes
  generalize log.append bytes = result at happends
  cases happends with
  | refused hwrite => simp [hwrite]
  | written hwrite => simp [hwrite, wrote]
  | synced hwrite =>
    rw [unsynced_sync_iff]
    simp [hwrite, wrote]

theorem synced_le_append (log : Log) (bytes : Bytes) :
    log.device.synced ≤ (log.append bytes).2.device.synced := by
  have hwritten : (log.wrote bytes).device.synced = log.device.synced :=
    log.device.synced_write bytes
  have happends := log.appends bytes
  generalize log.append bytes = result at happends
  cases happends with
  | refused => exact Nat.le_of_eq hwritten.symm
  | written => exact Nat.le_of_eq hwritten.symm
  | synced => exact hwritten ▸ (log.wrote bytes).synced_le_sync

/-- An append fails in the sync only behind a write, and then the mark stays. -/
theorem of_append_eq_sync_error (h : (log.append bytes).1 = .error (.sync cause)) :
    (log.device.write bytes).1 = .ok () ∧ (log.append bytes).2.unsynced = true := by
  have happends := log.appends bytes
  generalize log.append bytes = result at happends h
  cases happends with
  | refused | written => cases h
  | synced hwrite => exact ⟨hwrite, unsynced_of_sync_eq_error h⟩

/-- Under the policy `always` an append that succeeds is synced. -/
theorem unsynced_of_append_eq_ok (hpolicy : log.policy = .always)
    (h : (log.append bytes).1 = .ok ()) : (log.append bytes).2.unsynced = false := by
  have happends := log.appends bytes
  generalize log.append bytes = result at happends h
  cases happends with
  | refused => cases h
  | written _ hother => exact absurd hpolicy hother
  | synced => exact unsynced_of_sync_eq_ok h

/-! ## Any number of calls -/

/-- What is done with a log. -/
inductive Call where
  /-- Bytes are appended. -/
  | append (bytes : Bytes)
  /-- A sync is asked for. -/
  | sync

/-- Carries out a call. -/
def perform (log : Log) : Call → Except LogError Unit × Log
  | .append bytes => log.append bytes
  | .sync => log.sync

/-- The log that is left by calls in order, whatever they answer. -/
def run (log : Log) (calls : List Call) : Log :=
  calls.foldl (fun log call => (log.perform call).2) log

/-- The call is an append, and the device takes what is appended. -/
def Writes (log : Log) : Call → Prop
  | .append bytes => (log.device.write bytes).1 = .ok ()
  | .sync => False

/-- One of the calls was an append that was written, and the device has not carried out a sync since
then. -/
def Owes (log : Log) (calls : List Call) : Prop :=
  ∃ before call after, calls = before ++ call :: after ∧ (log.run before).Writes call ∧
    (log.run calls).device.synced = (log.run before).device.synced

theorem run_cons (log : Log) (call : Call) (calls : List Call) :
    log.run (call :: calls) = (log.perform call).2.run calls := rfl

theorem run_append (log : Log) (a b : List Call) : log.run (a ++ b) = (log.run a).run b :=
  List.foldl_append

/-- After a call a log is marked if the call was written, or if it was marked before, and the device
has carried out no sync. -/
theorem unsynced_perform_iff (log : Log) (call : Call) :
    (log.perform call).2.unsynced = true ↔
      (log.Writes call ∨ log.unsynced = true) ∧
        (log.perform call).2.device.synced = log.device.synced := by
  cases call with
  | append bytes => exact log.unsynced_append_iff bytes
  | sync =>
    rw [Writes, false_or]
    exact log.unsynced_sync_iff

theorem synced_le_perform (log : Log) (call : Call) :
    log.device.synced ≤ (log.perform call).2.device.synced := by
  cases call with
  | append bytes => exact log.synced_le_append bytes
  | sync => exact log.synced_le_sync

theorem synced_le_run (log : Log) (calls : List Call) :
    log.device.synced ≤ (log.run calls).device.synced := by
  induction calls generalizing log with
  | nil => exact Nat.le_refl _
  | cons call calls ih => exact Nat.le_trans (log.synced_le_perform call) (ih _)

theorem policy_perform (log : Log) (call : Call) : (log.perform call).2.policy = log.policy := by
  cases call with
  | append bytes => exact log.policy_append bytes
  | sync => exact log.policy_sync

theorem policy_run (log : Log) (calls : List Call) : (log.run calls).policy = log.policy := by
  induction calls generalizing log with
  | nil => rfl
  | cons call calls ih => exact (ih _).trans (log.policy_perform call)

theorem owes_cons {call : Call} {calls : List Call} :
    log.Owes (call :: calls) ↔
      (log.perform call).2.Owes calls ∨
        log.Writes call ∧ (log.run (call :: calls)).device.synced = log.device.synced := by
  constructor
  · rintro ⟨before, written, after, hsplit, hwrites, hsynced⟩
    cases before with
    | nil =>
      cases hsplit
      exact .inr ⟨hwrites, hsynced⟩
    | cons first before =>
      cases hsplit
      exact .inl ⟨before, written, after, rfl, hwrites, hsynced⟩
  · rintro (⟨before, written, after, rfl, hwrites, hsynced⟩ | ⟨hwrites, hsynced⟩)
    · exact ⟨call :: before, written, after, rfl, hwrites, hsynced⟩
    · exact ⟨[], call, calls, rfl, hwrites, hsynced⟩

/-- A log is marked after some calls if a sync is owed for one of them, or if it was marked before
and the device has carried out no sync. The induction is on the calls. The count of syncs is the same
in the end as in the beginning only if no call has changed it. -/
theorem unsynced_run_iff (log : Log) (calls : List Call) :
    (log.run calls).unsynced = true ↔
      log.Owes calls ∨
        log.unsynced = true ∧ (log.run calls).device.synced = log.device.synced := by
  induction calls generalizing log with
  | nil => simp [run, Owes]
  | cons call calls ih =>
    have hfirst := log.synced_le_perform call
    have hrest := (log.perform call).2.synced_le_run calls
    have hsame : (log.run (call :: calls)).device.synced = log.device.synced ↔
        (log.perform call).2.device.synced = log.device.synced ∧
          ((log.perform call).2.run calls).device.synced =
            (log.perform call).2.device.synced := by
      rw [run_cons]
      omega
    rw [owes_cons, hsame, run_cons, ih, unsynced_perform_iff, and_assoc, or_and_right, or_assoc]

/-- **The mark is right at every moment.** Consider a log that was opened on any device, whichever
writes and syncs fail there, and any calls. The log is marked exactly if a sync is owed. So a sync
reaches the device exactly if one is owed, and then answers as the device does; otherwise it succeeds
and does nothing. When a call has failed in the sync, syncs reach the device until it has carried one
out. Under the policy `always` an append that succeeds leaves nothing owed, and one that fails in the
sync has been written. -/
theorem unsynced_iff_owes (path : String) (device : Device) (policy : SyncPolicy)
    (calls : List Call) :
    let opened : Log := { path, device, policy }
    let log := opened.run calls
    (log.unsynced = true ↔ opened.Owes calls) ∧
      (log.sync.2.device.syncs = log.device.syncs + 1 ↔ opened.Owes calls) ∧
      (opened.Owes calls → log.sync.2.device = log.device.sync.2 ∧
        log.sync.1 = log.device.sync.1.mapError .sync) ∧
      (¬ opened.Owes calls → log.sync = (.ok (), log)) ∧
      (∀ call cause more, (log.perform call).1 = .error (.sync cause) →
        let later := (log.perform call).2.run more
        later.device.synced = log.device.synced →
          later.sync.2.device.syncs = later.device.syncs + 1) ∧
      (∀ bytes, policy = .always → (log.append bytes).1 = .ok () →
        ¬ opened.Owes (calls ++ [.append bytes])) ∧
      ∀ bytes cause, (log.append bytes).1 = .error (.sync cause) →
        (log.device.write bytes).1 = .ok () ∧ opened.Owes (calls ++ [.append bytes]) ∧
          (log.device.keeps = true →
            (log.append bytes).2.device.contents = log.device.contents ++ bytes) := by
  intro opened log
  have hmark : ∀ calls, (opened.run calls).unsynced = true ↔ opened.Owes calls := by
    intro calls
    rw [unsynced_run_iff]
    simp [opened]
  have hlast : ∀ bytes, (log.append bytes).2.unsynced = true ↔
      opened.Owes (calls ++ [.append bytes]) := by
    intro bytes
    rw [← hmark, run_append]
    rfl
  refine ⟨hmark calls, syncs_sync_iff.trans (hmark calls), ?_, ?_, ?_, ?_, ?_⟩
  · intro howes
    exact sync_of_marked ((hmark calls).2 howes)
  · intro hpaid
    exact sync_of_not_marked (mt (hmark calls).1 hpaid)
  · intro call cause more hfails later hsynced
    have hmarked : (log.perform call).2.unsynced = true := by
      cases call with
      | append bytes => exact (of_append_eq_sync_error hfails).2
      | sync => exact unsynced_of_sync_eq_error hfails
    have hfirst := log.synced_le_perform call
    have hrest := (log.perform call).2.synced_le_run more
    refine syncs_sync_iff.2 ((unsynced_run_iff _ more).2 (.inr ⟨hmarked, ?_⟩))
    exact Nat.le_antisymm (hsynced ▸ hfirst) hrest
  · intro bytes hpolicy hok howes
    have hsame : log.policy = .always := (policy_run opened calls).trans hpolicy
    have hclean := unsynced_of_append_eq_ok hsame hok
    rw [(hlast bytes).2 howes] at hclean
    cases hclean
  · intro bytes cause hfails
    obtain ⟨hwrite, hmarked⟩ := of_append_eq_sync_error hfails
    refine ⟨hwrite, (hlast bytes).1 hmarked, ?_⟩
    rcases (log.append_cases bytes).2 with ⟨-, -, hcontents⟩ | ⟨_, hrefused, -⟩
    · exact hcontents
    · cases hrefused.symm.trans hwrite

/-- A device that fails to sync twice and fails to write in between. What was appended first is
written and owed, through the second append and the next sync, until a third one is carried out. -/
theorem unsynced_iff_owes_flaky :
    let device : Device :=
      { Device.file [] with
        writeFailure := fun n => if n = 1 then some .noSpace else none
        syncFailure := fun n => if n < 2 then some .invalidArgument else none }
    let opened : Log := { path := "log", device, policy := .always }
    let first := opened.append [1]
    let log := opened.run [.append [1], .append [2]]
    first.1 = .error (.sync .invalidArgument) ∧ first.2.device.contents = [1] ∧
      (first.2.append [2]).1 = .error (.write .noSpace) ∧
      opened.Owes [.append [1], .append [2]] ∧
      log.sync.1 = .error (.sync .invalidArgument) ∧ log.sync.2.sync.1 = .ok () ∧
      ¬ opened.Owes [.append [1], .append [2], .sync, .sync] ∧
      ¬ opened.Owes [.append [1], .append [2], .sync, .sync, .append [3]] := by
  intro device opened first log
  obtain ⟨-, -, -, -, -, -, hfailed⟩ := unsynced_iff_owes "log" device .always []
  obtain ⟨-, -, hcontents⟩ := hfailed [1] .invalidArgument rfl
  obtain ⟨hmark, -, howes, -⟩ :=
    unsynced_iff_owes "log" device .always [.append [1], .append [2]]
  have hmarked : log.unsynced = true := rfl
  have hanswer := (howes (hmark.1 hmarked)).2
  obtain ⟨hcleared, -, -, -, -, hpaid, -⟩ :=
    unsynced_iff_owes "log" device .always [.append [1], .append [2], .sync, .sync]
  have hclear : ¬ (opened.run [.append [1], .append [2], .sync, .sync]).unsynced = true := nofun
  exact ⟨rfl, hcontents rfl, rfl, hmark.1 hmarked, hanswer, rfl, mt hcleared.2 hclear,
    hpaid [3] rfl rfl⟩

end Log

end LogStore
