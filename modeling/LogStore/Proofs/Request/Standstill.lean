import LogStore.Proofs.Request.BoundedReads

/-!
# A reader that stands at a fault

There are two ways to find a fault: by a look behind a request that is handed out, which keeps the
fault ahead for the next call, and by that call's own look at the buffer. Both come to the same. A
fault that is kept ahead is that of the buffer (`Reader.Sound`), so when it has been reported, the
next look finds it again (`Reader.stopped_of_read`). From then on no call needs the source, takes
anything, or answers anything else (`Reader.Stopped.answers_fault`).

The calls are those over a `Feed`, which may go on without end. How many deliveries a call takes is
determined by the feed (`Reader.Answers.unique`), and so is all that comes of some number of calls.
-/

namespace LogStore

theorem Feed.stretch_add (feed : Feed) (start k n : Nat) :
    feed.stretch start (k + n) = feed.stretch start k ++ feed.stretch (start + k) n := by
  rw [stretch, stretch, stretch, ← List.map_append, List.range'_append_1]

namespace Reader

variable {reader next : Reader} {feed : Feed} {answers later : List Answer} {answer : Answer}
  {fault : Fault}

/-! ## At a fault -/

/-- The head of the buffer has the fault, and nothing stands in front of it. -/
structure Stopped (reader : Reader) (fault : Fault) : Prop where
  ahead : reader.ahead = none
  scan : Frame.scan reader.buffer = .malformed fault

/-- A reader at a fault answers with it, asks for nothing, and stays as it is. -/
theorem Stopped.answers_fault (h : reader.Stopped fault) :
    reader.Answers [] (.error (.malformed fault)) reader := by
  have hpoll : reader.poll = some (.error fault, reader) := by
    simp only [poll, h.ahead, h.scan]
  intro rest
  exact read_of_poll_eq_fault hpoll rest

theorem Stopped.held_eq_buffer (h : reader.Stopped fault) : reader.held = reader.buffer := by
  rw [held, aheadRequests, h.ahead]
  rfl

theorem atEnd_ne_malformed (reader : Reader) (fault : Fault) :
    reader.atEnd ≠ .error (.malformed fault) := by
  unfold atEnd
  split <;> exact nofun

/-- A call that answers with a fault leaves the reader at it, wherever the fault was found. -/
theorem stopped_of_read (hsound : reader.Sound) {source : Source}
    (h : (reader.read source).1 = .error (.malformed fault)) :
    (reader.read source).2.1.Stopped fault := by
  fun_induction read reader source with
  | case1 => cases h
  | case2 source reader found next hpoll =>
    obtain ⟨rfl, _, hscan⟩ := of_poll_eq_fault hsound hpoll
    cases h
    exact ⟨rfl, hscan⟩
  | case3 reader => exact absurd h (atEnd_ne_malformed reader fault)
  | case4 => cases h
  | case5 reader => exact absurd h (atEnd_ne_malformed reader fault)
  | case6 reader hpoll b bytes rest ih =>
    have hahead : (reader.receive (b :: bytes)).ahead = none := (of_poll_eq_none hpoll).1
    exact ih (sound_of_ahead_eq_none hahead) h

/-! ## What some calls come to is determined -/

/-- The deliveries that a call takes, its answer and the reader that it leaves are determined by
what the feed goes on with. -/
theorem Answers.unique {start k n : Nat} {other : Answer} {final : Reader}
    (h : reader.Answers (feed.stretch start k) answer next)
    (hother : reader.Answers (feed.stretch start n) other final) :
    k = n ∧ answer = other ∧ next = final := by
  -- The longer stretch is the shorter one with more behind it, and the shorter one leaves that.
  have hle : ∀ {k n : Nat} {answer other : Answer} {next final : Reader},
      reader.Answers (feed.stretch start k) answer next →
      reader.Answers (feed.stretch start n) other final → k ≤ n →
      k = n ∧ answer = other ∧ next = final := by
    intro k n answer other next final h hother hkn
    obtain ⟨more, rfl⟩ := Nat.exists_eq_add_of_le hkn
    have hshort := h (feed.stretch (start + k) more)
    have hlong := hother []
    rw [List.append_nil, Feed.stretch_add, hshort] at hlong
    obtain ⟨hanswer, hrest⟩ := Prod.mk.inj hlong
    obtain ⟨hnext, hleft⟩ := Prod.mk.inj hrest
    have hmore : more = 0 := by
      have hlength := congrArg List.length hleft
      rwa [Feed.length_stretch] at hlength
    exact ⟨by rw [hmore, Nat.add_zero], hanswer, hnext⟩
  rcases Nat.le_total k n with hkn | hnk
  · exact hle h hother hkn
  · obtain ⟨hn, hanswer, hnext⟩ := hle hother h hnk
    exact ⟨hn.symm, hanswer.symm, hnext.symm⟩

theorem Served.exists_last {n : Nat} (h : Served feed (answers ++ [answer]) reader n) :
    ∃ before k count, Served feed answers before k ∧
      before.Answers (feed.stretch k count) answer reader ∧ n = k + count := by
  generalize hall : answers ++ [answer] = all at h
  cases h with
  | fresh => simp at hall
  | @call earlier before _ last k count hbefore hanswers =>
    obtain ⟨rfl, hlast⟩ := List.append_inj' hall rfl
    cases hlast
    exact ⟨before, k, count, hbefore, hanswers, rfl⟩

theorem Served.unique {n m : Nat} (h : Served feed answers reader n)
    (hother : Served feed answers next m) : reader = next ∧ n = m := by
  induction h generalizing next m with
  | fresh =>
    generalize hnone : ([] : List Answer) = none at hother
    cases hother with
    | fresh => exact ⟨rfl, rfl⟩
    | call => simp at hnone
  | call _ hanswers ih =>
    obtain ⟨before, k, count, hbefore, hother, rfl⟩ := hother.exists_last
    obtain ⟨rfl, rfl⟩ := ih hbefore
    obtain ⟨rfl, _, rfl⟩ := hanswers.unique hother
    exact ⟨rfl, rfl⟩

/-! ## What holds of all calls -/

theorem Served.sound {n : Nat} (h : Served feed answers reader n) : reader.Sound := by
  induction h with
  | fresh => exact sound_of_ahead_eq_none rfl
  | @call _ reader next answer n count _ hanswers ih =>
    have hnext := (sound_read ih (feed.stretch n count ++ [])).1
    rwa [hanswers []] at hnext

/-- The requests that were handed out, and what the reader holds, are what the feed delivered. -/
theorem Served.raw_append_held {n : Nat} (h : Served feed answers reader n) :
    (answers.filterMap Answer.request?).flatMap Request.raw ++ reader.held =
      Source.bytes (feed.stretch 0 n) := by
  induction h with
  | fresh => rfl
  | @call answers reader next answer n count _ hanswers ih =>
    obtain ⟨delivered, hsource, hbytes⟩ :=
      exists_delivered_read reader (feed.stretch n count ++ [])
    rw [hanswers []] at hsource hbytes
    rw [List.append_nil, List.append_nil] at hsource
    have hlast : [answer].filterMap Answer.request? = answer.request?.toList := by
      cases hrequest : answer.request? <;> simp [hrequest]
    rw [List.filterMap_append, List.flatMap_append, List.append_assoc, hlast, hbytes,
      ← List.append_assoc, ih, Feed.stretch_add, Nat.zero_add, ← hsource]
    exact List.flatMap_append.symm

theorem Served.stopped {n : Nat}
    (h : Served feed (answers ++ [.error (.malformed fault)]) reader n) :
    reader.Stopped fault := by
  obtain ⟨before, k, count, hbefore, hanswers, _⟩ := h.exists_last
  have hfault : (before.read (feed.stretch k count ++ [])).1 = .error (.malformed fault) := by
    rw [hanswers []]
  have hstopped := stopped_of_read hbefore.sound hfault
  rwa [hanswers []] at hstopped

/-! ## Calls of a reader that stands at a fault -/

theorem Served.append_faults {n : Nat} (h : Served feed answers reader n)
    (hstopped : reader.Stopped fault)
    (hlater : ∀ answer ∈ later, answer = .error (.malformed fault)) :
    Served feed (answers ++ later) reader n := by
  have hagain : reader.Answers (feed.stretch n 0) (.error (.malformed fault)) reader :=
    hstopped.answers_fault
  induction later using List.reverseRecOn with
  | nil => rwa [List.append_nil]
  | append_singleton later answer ih =>
    obtain ⟨hbefore, hlast⟩ := List.forall_mem_append.1 hlater
    have hsame := (ih hbefore).call hagain
    rw [← hlast answer (List.mem_singleton_self _), List.append_assoc] at hsame
    exact hsame

/-- They answer with nothing else, and change nothing. -/
theorem Served.eq_of_stopped {final : Reader} {n m : Nat} (h : Served feed answers reader n)
    (hstopped : reader.Stopped fault) (hlater : Served feed (answers ++ later) final m) :
    (∀ answer ∈ later, answer = .error (.malformed fault)) ∧ final = reader ∧ m = n := by
  induction later using List.reverseRecOn generalizing final m with
  | nil =>
    rw [List.append_nil] at hlater
    obtain ⟨rfl, rfl⟩ := h.unique hlater
    exact ⟨nofun, rfl, rfl⟩
  | append_singleton later answer ih =>
    rw [← List.append_assoc] at hlater
    obtain ⟨before, k, count, hbefore, hanswers, rfl⟩ := hlater.exists_last
    obtain ⟨hfaults, rfl, rfl⟩ := ih hbefore
    have hagain : before.Answers (feed.stretch k 0) (.error (.malformed fault)) before :=
      hstopped.answers_fault
    obtain ⟨rfl, rfl, rfl⟩ := hanswers.unique hagain
    refine ⟨List.forall_mem_append.2 ⟨hfaults, ?_⟩, rfl, rfl⟩
    intro last hlast
    exact List.mem_singleton.1 hlast

/-- **A fault is the last word and takes nothing.** Take any calls of a fresh reader, over a source
that delivers, ends and fails in any order and need not come to an end, and let the last of them
have answered with a fault. Then the raw bytes of the requests that were handed out, and the buffer,
are all that was delivered. The calls that may follow, in any number, are those that answer with
this fault, and no others; they take no delivery and leave the reader as it is. -/
theorem served_fault_iff {n : Nat}
    (h : Served feed (answers ++ [.error (.malformed fault)]) reader n) :
    (answers.filterMap Answer.request?).flatMap Request.raw ++ reader.buffer =
        Source.bytes (feed.stretch 0 n) ∧
      ∀ later final m,
        Served feed (answers ++ [.error (.malformed fault)] ++ later) final m ↔
          (∀ answer ∈ later, answer = .error (.malformed fault)) ∧ final = reader ∧ m = n := by
  have hstopped := h.stopped
  constructor
  · have hdelivered := h.raw_append_held
    rw [hstopped.held_eq_buffer, List.filterMap_append] at hdelivered
    rw [← hdelivered]
    simp [Answer.request?]
  · intro later final m
    constructor
    · intro hlater
      exact h.eq_of_stopped hstopped hlater
    · rintro ⟨hfaults, rfl, rfl⟩
      exact h.append_faults hstopped hfaults

/-- The fault stands behind a request and is found with it. The source would fail next, and then
deliver a request, but is not asked again. -/
theorem served_fault_iff_behindPing :
    let feed := Source.goOn [.data (Utf8.encode "*1\r\n$4\r\nping\r\n*x\r\n"), .failure "reset",
      .data (Utf8.encode "ping\r\n")]
    let ping : Request :=
      ⟨Utf8.encode "*1\r\n$4\r\nping\r\n", [Utf8.encode "ping"], .multibulk, true⟩
    let stopped : Reader := { buffer := Utf8.encode "*x\r\n" }
    Served feed ([.ok (some ping)] ++ [.error (.malformed .badCount)]) stopped 1 ∧
      ping.raw ++ stopped.buffer = Source.bytes (feed.stretch 0 1) ∧
      Served feed ([.ok (some ping)] ++ [.error (.malformed .badCount)] ++
        List.replicate 3 (.error (.malformed .badCount))) stopped 1 := by
  intro feed ping stopped
  let found : Reader := { stopped with ahead := some (.error .badCount) }
  have hping : ({} : Reader).Answers (feed.stretch 0 1) (.ok (some ping)) found := by
    refine Answers.data rfl (by decide +kernel) fun rest => ?_
    exact read_of_poll_eq_request rfl rest
  have hfault : found.Answers (feed.stretch 1 0) (.error (.malformed .badCount)) stopped := by
    intro rest
    exact read_of_poll_eq_fault rfl rest
  have hserved : Served feed ([.ok (some ping)] ++ [.error (.malformed .badCount)]) stopped 1 :=
    (Served.fresh.call hping).call hfault
  obtain ⟨hdelivered, hlater⟩ := served_fault_iff hserved
  refine ⟨hserved, ?_, (hlater _ stopped 1).2 ⟨fun answer hmem => ?_, rfl, rfl⟩⟩
  · rw [← hdelivered]
    exact congrArg (· ++ stopped.buffer) (List.flatMap_singleton Request.raw ping).symm
  · exact List.eq_of_mem_replicate hmem

end Reader

end LogStore
