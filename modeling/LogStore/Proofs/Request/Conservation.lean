import LogStore.Proofs.Request.Calls

/-!
# Nothing is lost and nothing comes twice

The bytes that a source has delivered are in one of three places: in the requests that were handed
out, in the request that is kept ahead, or in the buffer. A call moves bytes from one place to the
next and never changes their order, and a call that hands out no request takes none away. So the
three places, one behind the other, are what the source has delivered
(`Reader.raw_append_held_calls`), whatever it delivers and whatever the calls before have answered:
an error is no end, and a reader may be called again after one.
-/

namespace LogStore.Reader

/-- The request that an answer hands out. -/
def Answer.request? : Answer → Option Request
  | .ok request? => request?
  | .error _ => none

/-- The bytes that have arrived and were not handed out: those of the request that is kept ahead,
and the buffer. -/
def held (reader : Reader) : Bytes :=
  reader.aheadRequests.flatMap Request.raw ++ reader.buffer

variable {reader next : Reader} {request : Request} {fault : Fault}

/-! ## Answers from the buffer -/

/-- Looking ahead leaves all bytes behind the request with the reader. -/
theorem held_handOut (request : Request) (buffer : Bytes) :
    (handOut request buffer).2.held = buffer := by
  unfold handOut
  split
  · rfl
  · split
    · rfl
    · rfl
    · rename_i frame _
      show [frame.cut buffer].flatMap Request.raw ++ buffer.drop frame.length = buffer
      rw [List.flatMap_singleton]
      exact List.take_append_drop ..

theorem raw_append_held_of_poll (h : reader.poll = some (.ok request, next)) :
    request.raw ++ next.held = reader.held := by
  obtain ⟨first, behind, rfl, rfl, ⟨hahead, rfl⟩ | ⟨frame, hahead, _, rfl, rfl⟩⟩ :=
    poll_eq_request_cases h
  · rw [held_handOut, Request.raw_eq_of_content (content_handOut ..), held, aheadRequests, hahead,
      List.flatMap_singleton]
  · rw [held_handOut, Request.raw_eq_of_content (content_handOut ..), held, aheadRequests, hahead]
    exact List.take_append_drop ..

theorem held_of_poll_eq_fault (h : reader.poll = some (.error fault, next)) :
    next.held = reader.held := by
  obtain ⟨rfl, hahead | ⟨hahead, _⟩⟩ := poll_eq_fault_cases h
  · rw [held, held, aheadRequests, aheadRequests, hahead]
  · rw [held, held, aheadRequests, aheadRequests, hahead]

/-- Bytes arrive only when nothing is kept ahead, and go behind all others. -/
theorem held_receive (h : reader.poll = none) (bytes : Bytes) :
    (reader.receive bytes).held = reader.held ++ bytes := by
  obtain ⟨hahead, _⟩ := of_poll_eq_none h
  simp only [held, receive, aheadRequests, hahead, List.append_assoc]

/-! ## One call -/

theorem Answer.eq_of_request?_eq_some {answer : Answer} (h : answer.request? = some request) :
    answer = .ok (some request) := by
  cases answer with
  | ok request? => exact congrArg Except.ok h
  | error e => cases h

theorem request?_atEnd (reader : Reader) : reader.atEnd.request? = none := by
  unfold atEnd
  split <;> rfl

/-- A call asks for some deliveries, whose bytes go behind those that were held, and takes the raw
bytes of the request that it hands out, if it does, from their front. -/
theorem exists_delivered_read (reader : Reader) (source : Source) :
    ∃ delivered, source = delivered ++ (reader.read source).2.2 ∧
      (reader.read source).1.request?.toList.flatMap Request.raw ++ (reader.read source).2.1.held =
        reader.held ++ Source.bytes delivered := by
  fun_induction read reader source with
  | case1 source reader request next hpoll =>
    refine ⟨[], rfl, ?_⟩
    rw [Source.bytes_nil, List.append_nil, ← raw_append_held_of_poll hpoll, Answer.request?,
      Option.toList_some, List.flatMap_singleton]
  | case2 source reader fault next hpoll =>
    exact ⟨[], rfl, by rw [Source.bytes_nil, List.append_nil, ← held_of_poll_eq_fault hpoll]; rfl⟩
  | case3 reader hpoll =>
    exact ⟨[], rfl, by rw [request?_atEnd, Source.bytes_nil, List.append_nil]; rfl⟩
  | case4 reader hpoll message rest =>
    refine ⟨[.failure message], rfl, ?_⟩
    rw [Source.bytes_cons, Source.bytes_nil, Delivery.bytes, List.append_nil, List.append_nil]
    rfl
  | case5 reader hpoll rest =>
    refine ⟨[.ended], rfl, ?_⟩
    rw [request?_atEnd, Source.bytes_cons, Source.bytes_nil, Delivery.bytes, List.append_nil,
      List.append_nil]
    rfl
  | case6 reader hpoll b bytes rest ih =>
    -- Nothing was kept ahead, or the source would not have been asked.
    obtain ⟨delivered, hsource, hheld⟩ := ih
    refine ⟨.data (b :: bytes) :: delivered, ?_, ?_⟩
    · rw [List.cons_append, ← hsource]
    · rw [hheld, held_receive hpoll, List.append_assoc, Source.bytes_cons, Delivery.bytes]

/-! ## Any number of calls -/

/-- What comes of calling a fresh reader again and again. -/
structure Calls where
  /-- The answers, in order. -/
  answers : List Answer
  /-- The reader as it is left. -/
  reader : Reader
  /-- What the source has still to deliver. -/
  source : Source

/-- The requests that were handed out, in order. -/
def Calls.requests (calls : Calls) : List Request :=
  calls.answers.filterMap Answer.request?

/-- Calls a fresh reader `n` times, whatever it answers. -/
def calls (origin : Source) : Nat → Calls
  | 0 => ⟨[], {}, origin⟩
  | n + 1 =>
    let before := calls origin n
    let (answer, reader, source) := before.reader.read before.source
    ⟨before.answers ++ [answer], reader, source⟩

theorem reached_calls (origin : Source) (n : Nat) :
    Reached origin (calls origin n).reader (calls origin n).source := by
  induction n with
  | zero => exact .fresh
  | succ n ih => exact .call ih

theorem requests_calls_succ (origin : Source) (n : Nat) :
    (calls origin (n + 1)).requests = (calls origin n).requests ++
      ((calls origin n).reader.read (calls origin n).source).1.request?.toList := by
  show List.filterMap _ (_ ++ [_]) = _
  rw [List.filterMap_append]
  rfl

theorem exists_delivered_calls (origin : Source) (n : Nat) :
    ∃ delivered, origin = delivered ++ (calls origin n).source ∧
      (calls origin n).requests.flatMap Request.raw ++ (calls origin n).reader.held =
        Source.bytes delivered := by
  induction n with
  | zero => exact ⟨[], rfl, rfl⟩
  | succ n ih =>
    obtain ⟨before, horigin, hbefore⟩ := ih
    obtain ⟨asked, hsource, hcall⟩ :=
      exists_delivered_read (calls origin n).reader (calls origin n).source
    have horigin : origin = before ++ asked ++ (calls origin (n + 1)).source := by
      rw [List.append_assoc]
      exact horigin.trans (congrArg (before ++ ·) hsource)
    refine ⟨before ++ asked, horigin, ?_⟩
    have hbytes : Source.bytes (before ++ asked) = Source.bytes before ++ Source.bytes asked :=
      List.flatMap_append
    rw [hbytes, ← hbefore, List.append_assoc, ← hcall, requests_calls_succ, List.flatMap_append,
      List.append_assoc]
    rfl

theorem intact_of_mem_calls {origin : Source} {n : Nat} :
    ∀ request ∈ (calls origin n).requests, request.Intact := by
  induction n with
  | zero => exact nofun
  | succ n ih =>
    rw [requests_calls_succ, List.forall_mem_append]
    refine ⟨ih, fun request hmem => ?_⟩
    have hanswer := Answer.eq_of_request?_eq_some (Option.mem_toList.1 hmem)
    exact (sound_read (reached_calls origin n).sound (calls origin n).source).2 request hanswer

/-- **A reader loses nothing and hands out nothing twice.** After any number of calls the raw bytes
of the requests that were handed out, then those of the request that is kept ahead, if there is one,
then the buffer, are together what the source has delivered so far. Every request that was handed
out is what its raw bytes say: they are one frame as a whole, and the arguments are the slices that
the frame gives. -/
theorem raw_append_held_calls (origin : Source) (n : Nat) :
    (∃ delivered, origin = delivered ++ (calls origin n).source ∧
      (calls origin n).requests.flatMap Request.raw ++
          ((calls origin n).reader.aheadRequests.flatMap Request.raw ++
            (calls origin n).reader.buffer) = Source.bytes delivered) ∧
      ∀ request ∈ (calls origin n).requests, ∃ frame, Frame.scan request.raw = .found frame ∧
        frame.length = request.raw.length ∧
        request.arguments = frame.arguments.map (·.slice request.raw) := by
  refine ⟨exists_delivered_calls origin n, fun request hmem => ?_⟩
  obtain ⟨frame, hscan, hlength, hcontent⟩ := intact_of_mem_calls request hmem
  refine ⟨frame, hscan, hlength, ?_⟩
  rw [← Request.arguments_eq_of_content hcontent, Frame.cut, hlength, List.take_length]

/-- A source that fails, delivers on, reports its end inside a request and then goes on: the reader
is called beyond all of this, and beyond the fault that the last bytes are. -/
example :
    let origin : Source := [.data (Utf8.encode "get a\r\n*1\r\n$4\r\npi"), .failure "reset",
      .data (Utf8.encode "ng\r\n*0"), .ended, .data (Utf8.encode "\r\n*x\r\n")]
    (calls origin 7).requests.map (·.raw.length) = [7, 14, 4] ∧
      (calls origin 7).reader.buffer = Utf8.encode "*x\r\n" := by
  decide +kernel

end LogStore.Reader
