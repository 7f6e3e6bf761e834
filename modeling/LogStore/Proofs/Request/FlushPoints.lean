import LogStore.Proofs.Request.Conservation

/-!
# What the flush flag says

A reader looks behind each multibulk request that it hands out. The flag of the request and what is
kept ahead come from the same look (`Reader.flush_handOut_eq_false_iff`,
`Reader.handOut_of_flush_eq_false`), so a request that is no flush point always leaves the next
request ahead, and the next call hands that out without asking the source. Since a call that finds
something ahead never asks, whoever waits for the source has been told to flush before
(`Reader.flush_calls`).
-/

namespace LogStore.Reader

variable {reader next : Reader} {request : Request} {source rest : Source}

/-! ## Looking behind a request -/

theorem flush_handOut_eq_false_iff (first : Request) (behind : Bytes) :
    (handOut first behind).1.flush = false ↔
      first.framing = .multibulk ∧ ∃ frame, Frame.scan behind = .found frame := by
  unfold handOut
  cases hframing : first.framing with
  | inline => simp
  | multibulk => cases hscan : Frame.scan behind <;> simp

theorem handOut_of_flush_eq_false {first : Request} {behind : Bytes}
    (h : (handOut first behind).1.flush = false) :
    ∃ frame, Frame.scan behind = .found frame ∧
      (handOut first behind).2 =
        { buffer := behind.drop frame.length, ahead := some (.ok (frame.cut behind)) } := by
  obtain ⟨hframing, frame, hscan⟩ := (flush_handOut_eq_false_iff first behind).1 h
  refine ⟨frame, hscan, ?_⟩
  simp [handOut, hframing, hscan]

theorem exists_handOut_of_poll (h : reader.poll = some (.ok request, next)) :
    ∃ first, request = (handOut first next.held).1 ∧ next = (handOut first next.held).2 := by
  obtain ⟨first, behind, hrequest, hnext, _⟩ := poll_eq_request_cases h
  have hheld : next.held = behind := by rw [hnext, held_handOut]
  exact ⟨first, by rw [hheld, hrequest], by rw [hheld, ← hnext]⟩

theorem exists_poll_of_read (h : reader.read source = (.ok (some request), next, rest)) :
    ∃ waiting : Reader, waiting.poll = some (.ok request, next) := by
  fun_induction read reader source with
  | case1 source reader first after hpoll =>
    cases h
    exact ⟨reader, hpoll⟩
  | case2 => cases h
  | case3 reader => exact absurd (congrArg Prod.fst h) (atEnd_ne_request reader request)
  | case4 => cases h
  | case5 reader => exact absurd (congrArg Prod.fst h) (atEnd_ne_request reader request)
  | case6 reader hpoll b bytes tail ih => exact ih h

/-- A request that is kept ahead is the next answer, whatever the source. -/
theorem exists_read_of_ahead {kept : Request} (h : reader.ahead = some (.ok kept)) :
    ∃ following after, following.content = kept.content ∧
      ∀ source, reader.read source = (.ok (some following), after, source) := by
  have hpoll : reader.poll =
      some (.ok (handOut kept reader.buffer).1, (handOut kept reader.buffer).2) := by
    simp [poll, h]
  exact ⟨_, _, content_handOut kept reader.buffer, read_of_poll_eq_request hpoll⟩

/-- A reader that needs no bytes is one whose answer has nothing to do with the source. -/
theorem needsBytes_eq_false_iff (reader : Reader) :
    reader.needsBytes = false ↔
      ∃ answer next, ∀ source, reader.read source = (answer, next, source) := by
  unfold needsBytes
  constructor
  · intro hneeds
    obtain ⟨⟨answer, next⟩, hpoll⟩ := Option.isSome_iff_exists.1 (by simpa using hneeds)
    cases answer with
    | ok request => exact ⟨_, next, read_of_poll_eq_request hpoll⟩
    | error fault => exact ⟨_, next, read_of_poll_eq_fault hpoll⟩
  · rintro ⟨answer, next, hread⟩
    cases hpoll : reader.poll with
    | some _ => rfl
    | none =>
      -- A failing source is asked, and so it is left with one delivery less.
      have hleft := congrArg (fun result => result.2.2) (hread [.failure ""])
      simp [read, hpoll] at hleft

/-! ## One call -/

theorem exists_read_of_request? (h : (reader.read source).1.request? = some request) :
    ∃ next rest, reader.read source = (.ok (some request), next, rest) :=
  ⟨_, _, Prod.ext (Answer.eq_of_request?_eq_some h) rfl⟩

theorem flush_eq_false_iff_of_read (h : reader.read source = (.ok (some request), next, rest)) :
    request.flush = false ↔
      request.framing = .multibulk ∧ ∃ frame, Frame.scan next.held = .found frame := by
  obtain ⟨waiting, hpoll⟩ := exists_poll_of_read h
  obtain ⟨first, hrequest, _⟩ := exists_handOut_of_poll hpoll
  have hframing : request.framing = first.framing := by
    rw [hrequest]
    exact congrArg (fun content => content.2.2) (content_handOut first next.held)
  rw [hframing, hrequest]
  exact flush_handOut_eq_false_iff first next.held

theorem ahead_of_flush_eq_false (h : reader.read source = (.ok (some request), next, rest))
    (hflush : request.flush = false) :
    ∃ frame, Frame.scan next.held = .found frame ∧
      next.ahead = some (.ok (frame.cut next.held)) := by
  obtain ⟨waiting, hpoll⟩ := exists_poll_of_read h
  obtain ⟨first, hrequest, hnext⟩ := exists_handOut_of_poll hpoll
  rw [hrequest] at hflush
  obtain ⟨frame, hscan, hhanded⟩ := handOut_of_flush_eq_false hflush
  exact ⟨frame, hscan, congrArg Reader.ahead (hnext.trans hhanded)⟩

/-! ## Any number of calls -/

/-- Behind a request that is no flush point, the next one is kept ahead until it is handed out. The
induction is on the calls. -/
theorem ahead_of_last_flush_eq_false (origin : Source) (n : Nat)
    (hlast : (calls origin n).requests.getLast? = some request) (hflush : request.flush = false) :
    ∃ kept, (calls origin n).reader.ahead = some (.ok kept) := by
  induction n with
  | zero => cases hlast
  | succ n ih =>
    rw [requests_calls_succ] at hlast
    cases hrequest : ((calls origin n).reader.read (calls origin n).source).1.request? with
    | some last =>
      rw [hrequest, Option.toList_some, List.getLast?_concat] at hlast
      cases hlast
      obtain ⟨next, rest, hread⟩ := exists_read_of_request? hrequest
      obtain ⟨frame, _, hahead⟩ := ahead_of_flush_eq_false hread hflush
      have hreader : (calls origin (n + 1)).reader = next := by simp [calls, hread]
      rw [hreader]
      exact ⟨_, hahead⟩
    | none =>
      -- The request was the last one before this call too, so this call had the next one at hand.
      rw [hrequest, Option.toList_none, List.append_nil] at hlast
      obtain ⟨kept, hahead⟩ := ih hlast
      obtain ⟨following, after, _, hnext⟩ := exists_read_of_ahead hahead
      rw [hnext] at hrequest
      cases hrequest

/-- **What the flush flag says.** Take any number of calls of a fresh reader, over any source. If
the next call hands out a request, then the request is no flush point exactly if it is a multibulk
request and the bytes that were delivered behind it begin with a complete request. In that case the
call after it hands out that request, without asking the source. So if the next call does ask the
source, the request that was handed out last, if there was one, was a flush point. -/
theorem flush_calls (origin : Source) (n : Nat) :
    (∀ request next rest,
      (calls origin n).reader.read (calls origin n).source = (.ok (some request), next, rest) →
      ∃ delivered behind, origin = delivered ++ rest ∧
        (calls origin n).requests.flatMap Request.raw ++ (request.raw ++ behind) =
          Source.bytes delivered ∧
        (request.flush = false ↔
          request.framing = .multibulk ∧ ∃ frame, Frame.scan behind = .found frame) ∧
        (request.flush = false → ∃ frame following after,
          Frame.scan behind = .found frame ∧
            following.content = (frame.cut behind).content ∧
            ∀ source, next.read source = (.ok (some following), after, source))) ∧
      ((calls origin n).reader.needsBytes →
        ∀ request, (calls origin n).requests.getLast? = some request → request.flush = true) := by
  constructor
  · intro request next rest hread
    have hcalls : (calls origin (n + 1)).requests = (calls origin n).requests ++ [request] := by
      rw [requests_calls_succ, hread]
      rfl
    have hreader : (calls origin (n + 1)).reader = next := by simp [calls, hread]
    have hsource : (calls origin (n + 1)).source = rest := by simp [calls, hread]
    obtain ⟨delivered, horigin, hbytes⟩ := exists_delivered_calls origin (n + 1)
    rw [hsource] at horigin
    rw [hcalls, hreader, List.flatMap_append, List.flatMap_singleton, List.append_assoc] at hbytes
    refine ⟨delivered, next.held, horigin, hbytes, flush_eq_false_iff_of_read hread, ?_⟩
    intro hflush
    obtain ⟨frame, hscan, hahead⟩ := ahead_of_flush_eq_false hread hflush
    obtain ⟨following, after, hcontent, hnext⟩ := exists_read_of_ahead hahead
    exact ⟨frame, following, after, hscan, hcontent, hnext⟩
  · intro hneeds request hlast
    cases hflush : request.flush with
    | true => rfl
    | false =>
      obtain ⟨kept, hahead⟩ := ahead_of_last_flush_eq_false origin n hlast hflush
      obtain ⟨following, after, _, hnext⟩ := exists_read_of_ahead hahead
      have hidle := (needsBytes_eq_false_iff (calls origin n).reader).2 ⟨_, after, hnext⟩
      rw [hneeds] at hidle
      cases hidle

/-- Two multibulk requests and a line come together, then half a request, whose other half follows
a failure. The line is not looked behind; the call behind it asks the source. -/
theorem flush_calls_pipeline :
    let origin : Source :=
      [.data (Utf8.encode "*1\r\n$4\r\nping\r\n*2\r\n$3\r\nget\r\n$1\r\na\r\nping\r\n*1\r\n"),
        .failure "reset", .data (Utf8.encode "$4\r\nping\r\n")]
    (calls origin 5).requests.map Request.flush = [false, false, true, true] ∧
      (∃ request next rest, (calls origin 0).reader.read (calls origin 0).source =
          (.ok (some request), next, rest) ∧ request.flush = false ∧
        ∃ following after, ∀ source, next.read source = (.ok (some following), after, source)) ∧
      (calls origin 3).reader.needsBytes ∧
      ∃ request, (calls origin 3).requests.getLast? = some request ∧ request.flush = true := by
  intro origin
  obtain ⟨request, hrequest, hflush⟩ : ∃ request,
      ((calls origin 0).reader.read (calls origin 0).source).1.request? = some request ∧
        request.flush = false :=
    Option.map_eq_some_iff.1 (by decide +kernel)
  obtain ⟨next, rest, hread⟩ := exists_read_of_request? hrequest
  obtain ⟨_, _, _, _, _, hnext⟩ := (flush_calls origin 0).1 request next rest hread
  obtain ⟨_, following, after, _, _, hfollowing⟩ := hnext hflush
  have hneeds : (calls origin 3).reader.needsBytes := by decide +kernel
  obtain ⟨last, hlast⟩ : ∃ last, (calls origin 3).requests.getLast? = some last :=
    Option.isSome_iff_exists.1 (by decide +kernel)
  refine ⟨by decide +kernel, ⟨request, next, rest, hread, hflush, ?_⟩, hneeds, last, hlast, ?_⟩
  · exact ⟨following, after, hfollowing⟩
  · exact (flush_calls origin 3).2 hneeds last hlast

end LogStore.Reader
