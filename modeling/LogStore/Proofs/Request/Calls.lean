import LogStore.Proofs.Request.Delivery

/-!
# Any number of calls

A reader may be called again whatever it has answered, over a source that delivers, ends and fails in
any order. `Reader.Reached` are the states that this can lead to. In all of them what is kept ahead
is what the bytes say (`Reader.Reached.sound`), so every request that is ever handed out is what its
raw bytes say (`Request.Decoded.intact`).
-/

namespace LogStore

/-- Calls of a fresh reader over the source `origin` can leave this reader and this source. -/
inductive Reader.Reached (origin : Source) : Reader → Source → Prop
  | fresh : Reached origin {} origin
  | call {reader : Reader} {source : Source} (h : Reached origin reader source) :
      Reached origin (reader.read source).2.1 (reader.read source).2.2

/-- The request is the answer to a call of a reader over some source. -/
def Request.Decoded (request : Request) : Prop :=
  ∃ origin reader source, Reader.Reached origin reader source ∧
    (reader.read source).1 = .ok (some request)

namespace Reader

variable {reader next : Reader} {request : Request}

theorem sound_of_poll_eq_request (hsound : reader.Sound)
    (h : reader.poll = some (.ok request, next)) : next.Sound ∧ request.Intact := by
  obtain ⟨hnext, first, hfirst, hcontent, _⟩ := of_poll_eq_request hsound h
  exact ⟨hnext, hfirst.congr hcontent⟩

theorem sound_of_poll_eq_fault {fault : Fault} (hsound : reader.Sound)
    (h : reader.poll = some (.error fault, next)) : next.Sound := by
  rw [(of_poll_eq_fault hsound h).1]
  exact sound_of_ahead_eq_none rfl

/-- A call keeps what is ahead sound, and what it hands out is what its raw bytes say. -/
theorem sound_read (hsound : reader.Sound) (source : Source) :
    (reader.read source).2.1.Sound ∧
      ∀ request, (reader.read source).1 = .ok (some request) → request.Intact := by
  induction source generalizing reader with
  | nil =>
    unfold read
    split
    · obtain ⟨hnext, hintact⟩ := sound_of_poll_eq_request hsound ‹_›
      exact ⟨hnext, fun _ h => by cases h; exact hintact⟩
    · exact ⟨sound_of_poll_eq_fault hsound ‹_›, fun _ h => by cases h⟩
    · exact ⟨hsound, fun request h => absurd h (atEnd_ne_request reader request)⟩
  | cons delivery source ih =>
    unfold read
    split
    · obtain ⟨hnext, hintact⟩ := sound_of_poll_eq_request hsound ‹_›
      exact ⟨hnext, fun _ h => by cases h; exact hintact⟩
    · exact ⟨sound_of_poll_eq_fault hsound ‹_›, fun _ h => by cases h⟩
    · rename_i hpoll
      split
      · contradiction
      · exact ⟨hsound, fun _ h => by cases h⟩
      · exact ⟨hsound, fun request h => absurd h (atEnd_ne_request reader request)⟩
      · rename_i heq
        cases heq
        exact ih (sound_of_ahead_eq_none (of_poll_eq_none hpoll).1)

theorem Reached.sound {origin source : Source} (h : Reached origin reader source) :
    reader.Sound := by
  induction h with
  | fresh => exact sound_of_ahead_eq_none rfl
  | call _ ih => exact (sound_read ih _).1

/-- Requests that are read to the end are what their raw bytes say, whatever the source. -/
theorem intact_of_mem_readOn {source : Source} {requests : List Request} (hsound : reader.Sound)
    (h : ∀ request ∈ requests, request.Intact) :
    ∀ request ∈ (reader.readOn source requests).requests, request.Intact := by
  fun_induction readOn reader source requests with
  | case1 reader source requests request next rest hread ih =>
    obtain ⟨hnext, hintact⟩ := sound_read hsound source
    rw [hread] at hnext hintact
    exact ih hnext (List.forall_mem_cons.2 ⟨hintact request rfl, h⟩)
  | case2 reader source requests _ _ _ =>
    exact fun request hmem => h request (List.mem_reverse.1 hmem)
  | case3 reader source requests _ _ _ _ =>
    exact fun request hmem => h request (List.mem_reverse.1 hmem)

/-! ## Single calls -/

theorem read_of_poll_eq_request (h : reader.poll = some (.ok request, next)) (source : Source) :
    reader.read source = (.ok (some request), next, source) := by
  unfold read
  rw [h]

theorem read_of_poll_eq_fault {fault : Fault} (h : reader.poll = some (.error fault, next))
    (source : Source) : reader.read source = (.error (.malformed fault), next, source) := by
  unfold read
  rw [h]

theorem read_data (h : reader.poll = none) {piece : Bytes} (hne : piece ≠ []) (source : Source) :
    reader.read (.data piece :: source) = (reader.receive piece).read source := by
  cases piece with
  | nil => exact absurd rfl hne
  | cons b piece => rw [read, h]

/-! ## Reading to the end, call by call -/

variable {source rest : Source}

theorem readOn_of_request (h : reader.read source = (.ok (some request), next, rest))
    (requests : List Request) :
    reader.readOn source requests = next.readOn rest (request :: requests) := by
  rw [readOn]
  split <;> rename_i hread <;> rw [h] at hread <;> cases hread
  rfl

theorem readOn_of_end (h : reader.read source = (.ok none, next, rest)) (requests : List Request) :
    reader.readOn source requests = ⟨requests.reverse, .ok (), next, rest⟩ := by
  rw [readOn]
  split <;> rename_i hread <;> rw [h] at hread <;> cases hread
  rfl

theorem readOn_of_error {e : ReadFailure} (h : reader.read source = (.error e, next, rest))
    (requests : List Request) :
    reader.readOn source requests = ⟨requests.reverse, .error e, next, rest⟩ := by
  rw [readOn]
  split <;> rename_i hread <;> rw [h] at hread <;> cases hread
  rfl

/-- Bytes that arrive when they are asked for may as well have been there before. -/
theorem readOn_data (h : reader.poll = none) {piece : Bytes} (hne : piece ≠ []) (source : Source)
    (requests : List Request) :
    reader.readOn (.data piece :: source) requests =
      (reader.receive piece).readOn source requests := by
  conv => lhs; rw [readOn]
  conv => rhs; rw [readOn]
  rw [read_data h hne]

/-- What was read before stands in front of what is read, and has no influence on it. -/
theorem readOn_append (reader : Reader) (source : Source) (requests before : List Request) :
    (reader.readOn source (requests ++ before)).requests =
        before.reverse ++ (reader.readOn source requests).requests ∧
      (reader.readOn source (requests ++ before)).outcome =
        (reader.readOn source requests).outcome := by
  fun_induction readOn reader source requests with
  | case1 reader source requests request next rest hread ih =>
    rw [readOn_of_request hread]
    exact ih
  | case2 reader source requests next rest hread =>
    rw [readOn_of_end hread]
    exact ⟨List.reverse_append, rfl⟩
  | case3 reader source requests e next rest hread =>
    rw [readOn_of_error hread]
    exact ⟨List.reverse_append, rfl⟩

/-- Reading to the end gives the first request, and then what reading on gives. -/
theorem readAll_of_request (h : reader.read source = (.ok (some request), next, rest)) :
    (reader.readAll source).requests = request :: (next.readAll rest).requests ∧
      (reader.readAll source).outcome = (next.readAll rest).outcome := by
  rw [readAll, readOn_of_request h]
  exact readOn_append next rest [] [request]

end Reader

theorem Request.Decoded.intact {request : Request} (h : request.Decoded) : request.Intact := by
  obtain ⟨origin, reader, source, hreached, hread⟩ := h
  exact (Reader.sound_read hreached.sound source).2 request hread

theorem Source.intact_of_mem_transcript (source : Source) :
    ∀ request ∈ source.transcript.requests, request.Intact :=
  Reader.intact_of_mem_readOn (Reader.sound_of_ahead_eq_none rfl) nofun

end LogStore
