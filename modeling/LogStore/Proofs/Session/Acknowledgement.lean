import LogStore.Proofs.Session.Progress

/-!
# Log before acknowledgement

The reply to a write promises that the write is in the log. Replies are gathered, and a flush point
flushes the log first and the replies after that, so there the promise is kept. But the outbox also
hands replies over when there is no room for the next one, and then nobody looks at the log. This is
the only way to break the promise (`Session.logsFirst_iff`): it takes a pipeline in which a reply
overflows the outbox while a write of the session is still on the stage.
-/

namespace LogStore

namespace Progress

/-- The next step carries the request out, as a write that succeeds. -/
def Writes (progress : Progress) (request : Request) : Prop :=
  progress.session.stage = .executing request ∧ progress.engine.isWrite request

/-- The next step answers something for which the outbox has no room while writes of the session are
on the stage, or it answers a write at such length that the reply is sent at once. -/
def Overflows (progress : Progress) : Prop :=
  ∃ exchange, progress.exchange? = some exchange ∧
    ((progress.unflushed ≠ [] ∧ Outbox.capacity <
        progress.session.outbox.gathered.length + exchange.reply.encode.length) ∨
      progress.writing ≠ [] ∧ Outbox.capacity ≤ exchange.reply.encode.length)

end Progress

/-- No byte of the reply to a write is handed over before the log has taken the write, behind what
was on the stage to begin with and all writes before it. A reply begins where the outbox has ended
before. -/
def Session.LogsFirst (session : Session) (engine : Engine) : Prop :=
  ∀ i j request, (session.progress engine i).Writes request →
    (session.progress engine i).session.outbox.taken.length <
      (session.progress engine j).session.outbox.sent.length →
    (session.progress engine i).written ++ request.raw <+: (session.progress engine j).logged

theorem Request.Intact.raw_ne_nil {request : Request} (h : request.Intact) : request.raw ≠ [] := by
  obtain ⟨frame, hscan, hlength, _⟩ := h
  have hpos := Frame.length_pos_of_scan hscan
  exact List.length_pos_iff.1 (by omega)

theorem Outbox.length_sent_le (outbox : Outbox) : outbox.sent.length ≤ outbox.taken.length := by
  rw [taken, List.length_append]
  exact Nat.le_add_right _ _

namespace Progress

variable {progress : Progress}

/-! ## Single steps -/

theorem Writes.next {request : Request} (h : progress.Writes request) :
    (∃ reply, progress.exchange? = some ⟨some request, reply⟩) ∧
      progress.next.written = progress.written ++ request.raw ∧ progress.writing = request.raw := by
  obtain ⟨hstage, hwrite⟩ := h
  obtain ⟨_, _, _, reply, _, _, _, _, hexecute⟩ := Engine.of_isWrite hwrite
  have hwriting : progress.writing = request.raw := by
    simp only [writing, hstage, hwrite, if_true]
  refine ⟨⟨reply, ?_⟩, congrArg (progress.written ++ ·) hwriting, hwriting⟩
  simp only [exchange?, hstage, hexecute]

theorem exists_writes_of_writing_ne_nil (h : progress.writing ≠ []) :
    ∃ request, progress.Writes request := by
  unfold writing at h
  split at h
  · rename_i request hstage
    by_cases hwrite : progress.engine.isWrite request
    · exact ⟨request, hstage, hwrite⟩
    · rw [if_neg hwrite] at h
      exact absurd rfl h
  · exact absurd rfl h

/-- A session that answers something has not failed, and leaves the log alone. -/
theorem of_exchange?_eq_some {exchange : Exchange} (h : progress.exchange? = some exchange) :
    (∀ error, progress.session.stage ≠ .failed error) ∧
      progress.next.logged = progress.logged := by
  unfold exchange? at h
  unfold Progress.next logging
  split at h
  · rename_i hstage
    rw [hstage]
    exact ⟨nofun, List.append_nil _⟩
  · rename_i hstage
    rw [hstage]
    exact ⟨nofun, List.append_nil _⟩
  · cases h

/-- A reply for which there is no room pushes out everything before it, and a long one goes out with
it. -/
theorem sent_next_of_overflow (hgone : progress.session.outbox.gone = false)
    {exchange : Exchange} (h : progress.exchange? = some exchange) :
    (Outbox.capacity <
        progress.session.outbox.gathered.length + exchange.reply.encode.length →
      progress.session.outbox.taken <+: progress.next.session.outbox.sent) ∧
      (Outbox.capacity ≤ exchange.reply.encode.length →
        progress.next.session.outbox.sent =
          progress.session.outbox.taken ++ exchange.reply.encode) := by
  have hbox : progress.next.session.outbox =
      (progress.session.outbox.push exchange.reply.encode).2 := by
    rcases progress.outbox_next with ⟨other, hother, _, hbox⟩ | ⟨hsilent, _⟩
    · cases h.symm.trans hother
      exact hbox
    · cases h.symm.trans hsilent
  rw [hbox]
  rcases Outbox.sent_push hgone exchange.reply.encode with
    ⟨hroom, hshort, _⟩ | ⟨_, hshort, hsent⟩ | ⟨hlong, hsent⟩
  · exact ⟨fun hover => by omega, fun hlong => by omega⟩
  · exact ⟨fun _ => hsent ▸ List.prefix_refl _, fun hlong => by omega⟩
  · exact ⟨fun _ => hsent ▸ List.prefix_append _ _, fun _ => hsent⟩

end Progress

namespace Session

variable {engine : Engine} {session : Session}

/-! ## From step to step -/

theorem written_mono {i j : Nat} (h : i ≤ j) :
    (session.progress engine i).written <+: (session.progress engine j).written := by
  induction h with
  | refl => exact List.prefix_refl _
  | step _ ih => exact ih.trans (List.prefix_append _ _)

theorem length_taken_mono (hgone : session.outbox.gone = false) {i j : Nat} (h : i ≤ j) :
    (session.progress engine i).session.outbox.taken.length ≤
      (session.progress engine j).session.outbox.taken.length := by
  induction h with
  | refl => exact Nat.le_refl _
  | @step j _ ih =>
    have hthere := (Progress.gone_progress engine session j).trans hgone
    rw [progress, (Progress.taken_next hthere).2, List.length_append]
    omega

/-- The reply to a write is gathered behind what was gathered before. -/
theorem length_taken_lt_of_writes (hgone : session.outbox.gone = false) {i j : Nat} (h : i < j)
    {request : Request} (hwrites : (session.progress engine i).Writes request) :
    (session.progress engine i).session.outbox.taken.length <
      (session.progress engine j).session.outbox.taken.length := by
  have hthere := (Progress.gone_progress engine session i).trans hgone
  obtain ⟨⟨reply, hreply⟩, _⟩ := hwrites.next
  have hpos : 0 < reply.encode.length := List.length_pos_iff.2 reply.encode_ne_nil
  have hnext : (session.progress engine (i + 1)).session.outbox.taken.length =
      (session.progress engine i).session.outbox.taken.length + reply.encode.length := by
    rw [progress, (Progress.taken_next hthere).2, hreply]
    simp
  have hlater : (session.progress engine (i + 1)).session.outbox.taken.length ≤
      (session.progress engine j).session.outbox.taken.length := length_taken_mono hgone h
  omega

/-! ## When the promise is kept -/

/-- A write is in the log, or it has not been flushed yet. -/
theorem logged_or_unflushed (hreader : session.reader.Sound) (hstage : session.stage = .reading)
    {i n : Nat} (hi : i < n) {request : Request}
    (hwrites : (session.progress engine i).Writes request)
    (hfailed : ∀ error, (session.progress engine n).session.stage ≠ .failed error) :
    (session.progress engine i).written ++ request.raw <+: (session.progress engine n).logged ∨
      (session.progress engine n).unflushed ≠ [] := by
  induction n with
  | zero => exact absurd hi (Nat.not_lt_zero i)
  | succ n ih =>
    have hsound := Progress.sound_progress engine hreader hstage (n + 1)
    rw [progress] at hfailed hsound ⊢
    rcases (session.progress engine n).log_next with ⟨_, _, hempty, _⟩ |
      ⟨_, hlogged, _, _, hunflushed, hstays⟩
    · -- The flush has not failed, so the log has taken everything.
      have hwhole := hsound.whole.resolve_left (not_exists.2 hfailed)
      have hlater : (session.progress engine (i + 1)).written <+:
          (session.progress engine (n + 1)).written := written_mono hi
      rw [progress, progress, hwrites.next.2.1, hwhole, hempty, List.append_nil] at hlater
      exact .inl hlater
    · rw [hlogged, hunflushed]
      rcases Nat.lt_succ_iff_lt_or_eq.1 hi with hbefore | rfl
      · have hnow : ∀ error, (session.progress engine n).session.stage ≠ .failed error := by
          intro error herror
          obtain ⟨other, hother⟩ := hstays ⟨error, herror⟩
          exact hfailed other hother
        exact (ih hbefore hnow).imp_right fun h => List.append_ne_nil_of_left_ne_nil h _
      · have hraw := ((Progress.sound_progress engine hreader hstage i).intact request
          hwrites.1).raw_ne_nil
        rw [hwrites.next.2.2]
        exact .inr (List.append_ne_nil_of_right_ne_nil _ hraw)

/-- A step that hands over the reply to an earlier write finds everything flushed, unless it
overflows. -/
theorem unflushed_eq_nil_of_sent_next (hgone : session.outbox.gone = false) {i n : Nat} (hi : i < n)
    {request : Request} (hwrites : (session.progress engine i).Writes request)
    (hfits : ¬ (session.progress engine n).Overflows)
    (hgathered : (session.progress engine n).session.outbox.sent.length ≤
      (session.progress engine i).session.outbox.taken.length)
    {exchange : Exchange} (hexchange : (session.progress engine n).exchange? = some exchange)
    (hover : Outbox.capacity <
        (session.progress engine n).session.outbox.gathered.length + exchange.reply.encode.length ∨
      Outbox.capacity ≤ exchange.reply.encode.length) :
    (session.progress engine n).unflushed = [] := by
  -- Otherwise there is room, so nothing is gathered, and the reply is already handed over.
  refine Classical.byContradiction fun hnonempty => ?_
  have hroom : (session.progress engine n).session.outbox.gathered.length +
      exchange.reply.encode.length ≤ Outbox.capacity :=
    Nat.not_lt.1 fun hno => hfits ⟨exchange, hexchange, .inl ⟨hnonempty, hno⟩⟩
  have htaken : (session.progress engine n).session.outbox.taken.length =
      (session.progress engine n).session.outbox.sent.length +
        (session.progress engine n).session.outbox.gathered.length := List.length_append
  have hgrown := length_taken_lt_of_writes hgone hi hwrites
  omega

/-- As long as nothing overflows, the replies to the writes that are not in the log are gathered. -/
theorem logged_or_gathered (hreader : session.reader.Sound) (hstage : session.stage = .reading)
    (hgone : session.outbox.gone = false)
    (hfits : ∀ n, ¬ (session.progress engine n).Overflows) {i n : Nat} (hi : i < n)
    {request : Request} (hwrites : (session.progress engine i).Writes request) :
    (session.progress engine i).written ++ request.raw <+: (session.progress engine n).logged ∨
      (session.progress engine n).session.outbox.sent.length ≤
        (session.progress engine i).session.outbox.taken.length := by
  -- A step that hands replies over follows a flush, and then the log has taken everything; or it
  -- makes room for a reply, and if something was not flushed yet this would be an overflow.
  induction n with
  | zero => exact absurd hi (Nat.not_lt_zero i)
  | succ n ih =>
    have hsound := Progress.sound_progress engine hreader hstage n
    have hthere := (Progress.gone_progress engine session n).trans hgone
    have hsent := Progress.sent_next hthere
    rw [progress]
    rcases Nat.lt_succ_iff_lt_or_eq.1 hi with hbefore | rfl
    · have hlogged : (∀ error, (session.progress engine n).session.stage ≠ .failed error) →
          (session.progress engine n).unflushed = [] →
          (session.progress engine i).written ++ request.raw <+:
            (session.progress engine n).next.logged := by
        intro hfailed hempty
        have hthen := logged_or_unflushed hreader hstage hbefore hwrites hfailed
        exact (hthen.resolve_right (absurd hempty)).trans (List.prefix_append _ _)
      rcases ih hbefore with hdone | hgathered
      · exact .inl (hdone.trans (List.prefix_append _ _))
      · rcases hsent with hsame | ⟨⟨final, hreplying⟩, _⟩ | ⟨exchange, hexchange, _, hover⟩
        · exact .inr (hsame ▸ hgathered)
        · have hempty := hsound.unflushed
          rw [hsound.drained final hreplying, List.suffix_nil] at hempty
          refine .inl (hlogged (fun error hfails => ?_) hempty)
          cases hreplying.symm.trans hfails
        · have hempty := unflushed_eq_nil_of_sent_next hgone hbefore hwrites (hfits n) hgathered
            hexchange (hover.imp And.left And.left)
          exact .inl (hlogged (Progress.of_exchange?_eq_some hexchange).1 hempty)
    · refine .inr ?_
      rcases hsent with hsame | ⟨_, hall⟩ | ⟨exchange, hexchange, _, ⟨_, hall⟩ | ⟨hlong, _⟩⟩
      · exact hsame ▸ Outbox.length_sent_le _
      · exact Nat.le_of_eq (congrArg List.length hall)
      · exact Nat.le_of_eq (congrArg List.length hall)
      · have hraw := (hsound.intact request hwrites.1).raw_ne_nil
        rw [← hwrites.next.2.2] at hraw
        exact absurd ⟨exchange, hexchange, .inr ⟨hraw, hlong⟩⟩ (hfits i)

/-! ## When it is broken -/

/-- If something was not flushed yet, there is a write that is not in the log. -/
theorem exists_writes_of_unflushed_ne_nil (hreader : session.reader.Sound)
    (hstage : session.stage = .reading) {n : Nat}
    (h : (session.progress engine n).unflushed ≠ []) :
    ∃ i < n, ∃ request, (session.progress engine i).Writes request ∧
      (session.progress engine n).logged.length <
        ((session.progress engine i).written ++ request.raw).length := by
  -- It is the last write: no step that came after it has flushed the stage or added to it.
  induction n with
  | zero => exact absurd rfl h
  | succ n ih =>
    rcases (session.progress engine n).log_next with ⟨_, _, _, _, _, hempty, _⟩ |
      ⟨_, hlogged, _, _, hunflushed, _⟩
    · exact absurd hempty h
    · rw [progress, hlogged]
      by_cases hwriting : (session.progress engine n).writing = []
      · rw [progress, hunflushed, hwriting, List.append_nil] at h
        obtain ⟨i, hi, request, hwrites, hmissing⟩ := ih h
        exact ⟨i, Nat.lt_succ_of_lt hi, request, hwrites, hmissing⟩
      · obtain ⟨request, hwrites⟩ := Progress.exists_writes_of_writing_ne_nil hwriting
        refine ⟨n, Nat.lt_succ_self n, request, hwrites, ?_⟩
        have hle := (Progress.sound_progress engine hreader hstage n).beginning.length_le
        have hpos := List.length_pos_iff.2 hwriting
        rw [hwrites.next.2.2] at hpos
        rw [List.length_append]
        omega

theorem not_overflows_of_logsFirst (hreader : session.reader.Sound)
    (hstage : session.stage = .reading) (hgone : session.outbox.gone = false)
    (hfirst : session.LogsFirst engine) (n : Nat) :
    ¬ (session.progress engine n).Overflows := by
  rintro ⟨exchange, hexchange, hover⟩
  have hthere := (Progress.gone_progress engine session n).trans hgone
  have hlogged : (session.progress engine (n + 1)).logged = (session.progress engine n).logged :=
    (Progress.of_exchange?_eq_some hexchange).2
  obtain ⟨hpushed, hlong⟩ := Progress.sent_next_of_overflow hthere hexchange
  rcases hover with ⟨hnonempty, hover⟩ | ⟨hwriting, hover⟩
  · obtain ⟨i, hi, request, hwrites, hmissing⟩ :=
      exists_writes_of_unflushed_ne_nil hreader hstage hnonempty
    have hgathered := length_taken_lt_of_writes hgone hi hwrites
    have hsent := (hpushed hover).length_le
    have hpromise := hfirst i (n + 1) request hwrites (Nat.lt_of_lt_of_le hgathered hsent)
    have hle := hpromise.length_le
    rw [hlogged] at hle
    omega
  · obtain ⟨request, hwrites⟩ := Progress.exists_writes_of_writing_ne_nil hwriting
    have hreply := List.length_pos_iff.2 exchange.reply.encode_ne_nil
    have hsent : (session.progress engine n).session.outbox.taken.length <
        (session.progress engine (n + 1)).session.outbox.sent.length := by
      rw [progress, hlong hover, List.length_append]
      omega
    have hpromise := hfirst n (n + 1) request hwrites hsent
    have hle := hpromise.length_le
    have hbeginning := (Progress.sound_progress engine hreader hstage n).beginning.length_le
    have hpos := List.length_pos_iff.2 hwriting
    rw [hwrites.next.2.2] at hpos
    rw [hlogged, List.length_append] at hle
    omega

/-- **When a write is logged before it is acknowledged.** A session may begin on any engine; its
client may send anything, in any pieces, and be there or not, and the log may fail at any time. No
byte of the reply to a successful write reaches the client before the log has taken the write, if no
reply overflows the outbox of a client that is there while writes of the session are on the stage,
and only then. -/
theorem logsFirst_iff (engine : Engine) (incoming : Source) (gone : Bool) :
    let session : Session := { incoming, outbox := { gone } }
    session.LogsFirst engine ↔
      (gone = false → ∀ n, ¬ (session.progress engine n).Overflows) := by
  intro session
  have hreader : session.reader.Sound := Reader.sound_of_ahead_eq_none rfl
  constructor
  · exact fun hfirst hgone n => not_overflows_of_logsFirst hreader rfl hgone hfirst n
  · intro hfits i j request hwrites hsent
    have hgone : gone = false := by
      refine Classical.byContradiction fun haway => ?_
      have hrefused := (Progress.orderly_progress engine rfl rfl j).refused
        ((Progress.gone_progress engine session j).trans (eq_true_of_ne_false haway))
      rw [hrefused] at hsent
      exact absurd hsent (Nat.not_lt_zero _)
    have hlater : i < j := by
      refine Classical.byContradiction fun hnot => ?_
      have hle : (session.progress engine j).session.outbox.taken.length ≤
          (session.progress engine i).session.outbox.taken.length :=
        length_taken_mono hgone (Nat.not_lt.1 hnot)
      have hlength := Outbox.length_sent_le (session.progress engine j).session.outbox
      omega
    rcases logged_or_gathered hreader rfl hgone (hfits hgone) hlater hwrites with
      hlogged | hgathered
    · exact hlogged
    · omega

/-- A client sends a write and asks for a long value in one go, over a log that takes nothing. It is
told that the write has succeeded. -/
theorem logsFirst_iff_longValue :
    let value : Bytes := List.replicate Outbox.capacity 0
    let engine : Engine :=
      { settings := {}, vocabulary := .standard,
        keyspace := Keyspace.empty.insert (Utf8.encode "k") value,
        log := { path := "log", device := .readOnlyFile [], policy := .no } }
    let pipeline : Bytes := Utf8.encode
      "*3\r\n$3\r\nset\r\n$1\r\na\r\n$1\r\n1\r\n*2\r\n$3\r\nget\r\n$1\r\nk\r\n"
    let session : Session := { incoming := [.data pipeline], outbox := { gone := false } }
    ¬ session.LogsFirst engine ∧
      (session.progress engine 5).logged = [] ∧
      (session.progress engine 5).session.outbox.sent =
        (Reply.simple "OK").encode ++ (Reply.bulk value).encode := by
  intro value engine pipeline session
  obtain ⟨request, hexchange⟩ : ∃ request, (session.progress engine 4).exchange? =
      some ⟨some request, .bulk value⟩ := ⟨_, rfl⟩
  have hgathered : (session.progress engine 4).session.outbox.gathered =
      (Reply.simple "OK").encode := rfl
  have hlong : Outbox.capacity ≤ (Reply.bulk value).encode.length := by
    simp [Reply.encode, value]
    omega
  have hroom : Outbox.capacity <
      (session.progress engine 4).session.outbox.gathered.length +
        (Reply.bulk value).encode.length := by
    have hshort : (Reply.simple "OK").encode.length = 5 := by decide +kernel
    rw [hgathered, hshort]
    omega
  have hunflushed : (session.progress engine 4).unflushed ≠ [] := by decide +kernel
  refine ⟨fun hfirst => ?_, rfl, ?_⟩
  · exact (logsFirst_iff engine [.data pipeline] false).1 hfirst rfl 4
      ⟨_, hexchange, .inl ⟨hunflushed, hroom⟩⟩
  · exact (Progress.sent_next_of_overflow rfl hexchange).2 hlong

end Session

end LogStore
