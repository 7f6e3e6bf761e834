import LogStore.Log.Basic

/-!
# What a log asks of its device

An append is one write, and under the policy `always` a sync behind it if the write has succeeded. A
sync asks the device only if the log is marked as unsynced. `Log.Syncs` and `Log.Appends` have one
rule for each way that these can go, with everything that is known there (`Log.syncs`,
`Log.appends`); what an append leaves on the device is read off them (`Log.append_cases`).
-/

namespace LogStore

/-! ## The device -/

namespace Device

theorem write_cases (device : Device) (bytes : Bytes) :
    (device.write bytes).2.keeps = device.keeps ∧
      (((device.write bytes).1 = .ok () ∧ (device.keeps = true →
          (device.write bytes).2.contents = device.contents ++ bytes)) ∨
        ∃ cause, (device.write bytes).1 = .error cause ∧
          (device.write bytes).2.contents = device.contents) := by
  unfold write
  split
  · rename_i hempty
    rw [hempty]
    exact ⟨rfl, .inl ⟨rfl, fun _ => (List.append_nil _).symm⟩⟩
  · split
    · rename_i cause _
      exact ⟨rfl, .inr ⟨cause, rfl, rfl⟩⟩
    · exact ⟨rfl, .inl ⟨rfl, fun hkeeps => if_pos hkeeps⟩⟩

@[simp]
theorem synced_write (device : Device) (bytes : Bytes) :
    (device.write bytes).2.synced = device.synced := by
  unfold write
  split
  · rfl
  · split <;> rfl

@[simp]
theorem keeps_sync (device : Device) : device.sync.2.keeps = device.keeps := by
  unfold sync
  split <;> rfl

/-- A sync is no write. -/
@[simp]
theorem contents_sync (device : Device) : device.sync.2.contents = device.contents := by
  unfold sync
  split <;> rfl

/-- Every sync that is asked for counts as an attempt. -/
@[simp]
theorem syncs_sync (device : Device) : device.sync.2.syncs = device.syncs + 1 := by
  unfold sync
  split <;> rfl

theorem synced_sync_of_ok {device : Device} (h : device.sync.1 = .ok ()) :
    device.sync.2.synced = device.synced + 1 := by
  unfold sync at h ⊢
  split at h
  · cases h
  · rfl

theorem synced_sync_of_error {device : Device} {cause : SystemError}
    (h : device.sync.1 = .error cause) : device.sync.2.synced = device.synced := by
  unfold sync at h ⊢
  split at h
  · rfl
  · cases h

end Device

namespace Log

/-! ## All ways to sync and to append -/

/-- What a sync answers, and the log that it leaves. -/
inductive Syncs (log : Log) : Except LogError Unit × Log → Prop
  /-- The log is not marked, and the device is not asked. -/
  | idle (hmark : log.unsynced = false) : Syncs log (.ok (), log)
  /-- The device syncs, and the mark goes. -/
  | done (hmark : log.unsynced = true) (hsync : log.device.sync.1 = .ok ()) :
    Syncs log (.ok (), { log with device := log.device.sync.2, unsynced := false })
  /-- The device fails to sync, and the mark stays. -/
  | failed {cause : SystemError} (hmark : log.unsynced = true)
      (hsync : log.device.sync.1 = .error cause) :
    Syncs log (.error (.sync cause), { log with device := log.device.sync.2 })

theorem syncs (log : Log) : log.Syncs log.sync := by
  unfold sync
  split
  · rename_i hmark
    split
    · rename_i device hsync
      have hdevice : device = log.device.sync.2 := by rw [hsync]
      subst hdevice
      exact .done hmark (congrArg Prod.fst hsync)
    · rename_i cause device hsync
      have hdevice : device = log.device.sync.2 := by rw [hsync]
      subst hdevice
      exact .failed hmark (congrArg Prod.fst hsync)
  · exact .idle (Bool.eq_false_iff.2 ‹_›)

/-- The log when its device has been given bytes to write and has taken them. -/
def wrote (log : Log) (bytes : Bytes) : Log :=
  { log with device := (log.device.write bytes).2, unsynced := true }

/-- What an append answers, and the log that it leaves. -/
inductive Appends (log : Log) (bytes : Bytes) : Except LogError Unit × Log → Prop
  /-- The device does not take the bytes. -/
  | refused {cause : SystemError} (hwrite : (log.device.write bytes).1 = .error cause) :
    Appends log bytes
      (.error (.write cause), { log with device := (log.device.write bytes).2 })
  /-- The bytes are written, and there is no hurry to sync them. -/
  | written (hwrite : (log.device.write bytes).1 = .ok ()) (hpolicy : log.policy ≠ .always) :
    Appends log bytes (.ok (), log.wrote bytes)
  /-- The bytes are written, and synced at once. -/
  | synced (hwrite : (log.device.write bytes).1 = .ok ()) (hpolicy : log.policy = .always) :
    Appends log bytes (log.wrote bytes).sync

theorem appends (log : Log) (bytes : Bytes) : log.Appends bytes (log.append bytes) := by
  unfold append
  split
  · rename_i cause device hwrite
    have hdevice : device = (log.device.write bytes).2 := by rw [hwrite]
    subst hdevice
    exact .refused (congrArg Prod.fst hwrite)
  · rename_i device hwrite
    have hdevice : device = (log.device.write bytes).2 := by rw [hwrite]
    subst hdevice
    have hok : (log.device.write bytes).1 = .ok () := congrArg Prod.fst hwrite
    dsimp only
    split
    · rename_i hpolicy
      exact .synced hok hpolicy
    · rename_i hpolicy
      exact .written hok hpolicy

/-! ## What stays -/

@[simp]
theorem policy_sync (log : Log) : log.sync.2.policy = log.policy := by
  have hsyncs := log.syncs
  generalize log.sync = result at hsyncs
  cases hsyncs with
  | idle | done | failed => rfl

@[simp]
theorem policy_append (log : Log) (bytes : Bytes) : (log.append bytes).2.policy = log.policy := by
  have happends := log.appends bytes
  generalize log.append bytes = result at happends
  cases happends with
  | refused | written => rfl
  | synced => exact (log.wrote bytes).policy_sync

/-- A sync changes nothing that the device holds, and its failures are none of a write. -/
theorem sync_frame (log : Log) :
    log.sync.2.device.keeps = log.device.keeps ∧
      log.sync.2.device.contents = log.device.contents ∧
      ∀ cause, log.sync.1 ≠ .error (.write cause) := by
  have hsyncs := log.syncs
  generalize log.sync = result at hsyncs
  cases hsyncs with
  | idle => exact ⟨rfl, rfl, nofun⟩
  | done | failed => exact ⟨Device.keeps_sync _, Device.contents_sync _, nofun⟩

/-- An append takes all its bytes, and then fails at most in the sync, or it fails in the write and
takes none of them. -/
theorem append_cases (log : Log) (bytes : Bytes) :
    (log.append bytes).2.device.keeps = log.device.keeps ∧
      (((log.device.write bytes).1 = .ok () ∧
          (∀ cause, (log.append bytes).1 ≠ .error (.write cause)) ∧
          (log.device.keeps = true →
            (log.append bytes).2.device.contents = log.device.contents ++ bytes)) ∨
        ∃ cause, (log.device.write bytes).1 = .error cause ∧
          (log.append bytes).1 = .error (.write cause) ∧
          (log.append bytes).2.device.contents = log.device.contents) := by
  obtain ⟨hkeeps, hcases⟩ := log.device.write_cases bytes
  have happends := log.appends bytes
  generalize log.append bytes = result at happends
  cases happends with
  | refused hwrite =>
    refine ⟨hkeeps, .inr ⟨_, hwrite, rfl, ?_⟩⟩
    rcases hcases with ⟨hok, -⟩ | ⟨_, -, hcontents⟩
    · cases hok.symm.trans hwrite
    · exact hcontents
  | written hwrite =>
    rcases hcases with ⟨-, hcontents⟩ | ⟨_, hfails, -⟩
    · exact ⟨hkeeps, .inl ⟨hwrite, nofun, hcontents⟩⟩
    · cases hfails.symm.trans hwrite
  | synced hwrite =>
    obtain ⟨hsyncKeeps, hsyncContents, hanswer⟩ := (log.wrote bytes).sync_frame
    rcases hcases with ⟨-, hcontents⟩ | ⟨_, hfails, -⟩
    · exact ⟨hsyncKeeps.trans hkeeps, .inl ⟨hwrite, hanswer, fun h => hsyncContents.trans (hcontents h)⟩⟩
    · cases hfails.symm.trans hwrite

end Log

end LogStore
