import LogStore.Proofs.Engine.Recovery

/-!
# A log that was torn

A crash may leave any beginning of a log behind. Here it is said what a replay makes of it: the
requests that have come whole are carried out, and if the log was torn inside a request, the replay
reports how many bytes of that request there are (`Source.replay_take`). The beginning of a request
is never taken for another request, nor for something malformed, since a scanner that looks at it
asks for more (`Frame.scan_eq_incomplete_of_head`).
-/

namespace LogStore

/-! ## Where requests end -/

/-- Requests, each with the place at which it ends, if the first of them begins at `start`. -/
def Request.placed (start : Nat) : List Request → List (Nat × Request)
  | [] => []
  | request :: requests =>
    (start + request.raw.length, request) :: placed (start + request.raw.length) requests

namespace Bytes

/-- The places at which the bytes may be cut without tearing a request: the beginning, and the end
of every request. -/
def boundaries (bytes : Bytes) : List Nat :=
  0 :: (Request.placed 0 (dissect bytes).requests).map (·.1)

/-- The last boundary that is not behind `k`. -/
def lastBoundary (bytes : Bytes) (k : Nat) : Nat :=
  (bytes.boundaries.filter (· ≤ k)).getLastD 0

/-- The requests that end at `k` or before. -/
def requestsUpTo (bytes : Bytes) (k : Nat) : List Request :=
  ((Request.placed 0 (dissect bytes).requests).filter (·.1 ≤ k)).map (·.2)

end Bytes

theorem Request.le_of_mem_placed {start : Nat} {requests : List Request} {place : Nat × Request}
    (h : place ∈ placed start requests) : start ≤ place.1 := by
  induction requests generalizing start with
  | nil => cases h
  | cons request requests ih =>
    rcases List.mem_cons.1 h with rfl | hlater
    · exact Nat.le_add_right _ _
    · have hle := ih hlater
      omega

/-! ## The beginning of complete requests -/

variable {bytes : Bytes} {frame : Frame}

/-- A beginning of a request is waited for, and never taken for anything else, if the lines of the
request fit. -/
theorem Frame.scan_eq_incomplete_of_head {head tail : Bytes}
    (h : scan (head ++ tail) = .found frame)
    (hfit : ∀ line ∈ lines (head ++ tail), line.length ≤ maxLineLength)
    (hshort : head.length < frame.length) : scan head = .incomplete := by
  cases hscan : scan head with
  | incomplete => rfl
  | found other =>
    have hsame : scan (head ++ tail) = .found other := scan_append hscan tail
    have hle : other.length ≤ head.length := length_le_of_scan hscan
    rw [h] at hsame
    cases hsame
    omega
  | malformed fault =>
    have hsame : scan (head ++ tail) = .malformed fault := scan_append_of_malformed hscan tail hfit
    rw [h] at hsame
    cases hsame

/-- The first `k` bytes of some requests, of which the first begins at `start`, hold those that end
among these bytes, and a rest that reaches from the last of their ends to the cut. -/
structure Dissection.Beginning (start k : Nat) (requests : List Request) (part : Dissection) :
    Prop where
  requests_eq : part.requests = ((Request.placed start requests).filter (·.1 ≤ start + k)).map (·.2)
  waits : Frame.scan part.rest = .incomplete
  last_add_length :
    (((Request.placed start requests).map (·.1)).filter (· ≤ start + k)).getLastD start +
      part.rest.length = start + k
  rest_eq_nil_iff :
    part.rest = [] ↔ start + k ∈ start :: (Request.placed start requests).map (·.1)

namespace Bytes

/-- If the first request has come whole, the cut falls among the others. -/
theorem beginning_of_whole (hscan : Frame.scan bytes = .found frame) {start k : Nat}
    (hwhole : frame.length ≤ k) {requests : List Request}
    (hrest : (dissect ((bytes.drop frame.length).take (k - frame.length))).Beginning
      (start + frame.length) (k - frame.length) requests) :
    (dissect (bytes.take k)).Beginning start k (frame.cut bytes :: requests) := by
  have hlength : (frame.cut bytes).raw.length = frame.length := Frame.length_raw_cut hscan
  have hpos : 0 < frame.length := Frame.length_pos_of_scan hscan
  have hsum : start + frame.length + (k - frame.length) = start + k := by omega
  have hhead : bytes.take k =
      bytes.take frame.length ++ (bytes.drop frame.length).take (k - frame.length) := by
    rw [← List.take_add, Nat.add_sub_cancel' hwhole]
  have hfound : Frame.scan (bytes.take k) = .found frame := by
    rw [hhead]
    exact Frame.scan_take_append hscan _
  have hcut : frame.cut (bytes.take k) = frame.cut bytes := by
    simp only [Frame.cut, List.take_take, Nat.min_eq_left hwhole]
  rw [dissect_of_found hfound, hcut, List.drop_take]
  refine ⟨?_, hrest.waits, ?_, ?_⟩
  · have hrequests := hrest.requests_eq
    rw [hsum] at hrequests
    simp [Request.placed, hlength, hwhole, hrequests]
  · have hlast := hrest.last_add_length
    rw [hsum] at hlast
    have hle : start + frame.length ≤ start + k := by omega
    rw [Request.placed, List.map_cons, hlength, List.filter_cons_of_pos (by simpa using hle),
      List.getLastD_cons]
    exact hlast
  · have hne : start + k ≠ start := by omega
    have hiff := hrest.rest_eq_nil_iff
    rw [hsum] at hiff
    rw [Dissection.rest_prepend, hiff, Request.placed, List.map_cons, hlength,
      List.mem_cons (b := start), or_iff_right hne]

/-- If the first request was torn, nothing ends before the cut. -/
theorem beginning_of_torn (hscan : Frame.scan bytes = .found frame)
    (hfit : ∀ line ∈ Frame.lines bytes, line.length ≤ maxLineLength) (start : Nat) {k : Nat}
    (htorn : k < frame.length) (requests : List Request) :
    (dissect (bytes.take k)).Beginning start k (frame.cut bytes :: requests) := by
  have hlen : (bytes.take k).length = k := by
    have hle := Frame.length_le_of_scan hscan
    rw [List.length_take]
    omega
  have hwaits : Frame.scan (bytes.take k) = .incomplete := by
    have hbytes : bytes.take k ++ bytes.drop k = bytes := List.take_append_drop k bytes
    rw [← hbytes] at hscan hfit
    exact Frame.scan_eq_incomplete_of_head hscan hfit (by rwa [hlen])
  have hbehind : ∀ place ∈ Request.placed start (frame.cut bytes :: requests),
      start + k < place.1 := by
    intro place hplace
    rw [Request.placed, Frame.length_raw_cut hscan] at hplace
    rcases List.mem_cons.1 hplace with rfl | hlater
    · show start + k < start + frame.length
      omega
    · have hle := Request.le_of_mem_placed hlater
      omega
  have hends : ∀ stop ∈ (Request.placed start (frame.cut bytes :: requests)).map (·.1),
      start + k < stop := by
    intro stop hstop
    obtain ⟨place, hplace, rfl⟩ := List.mem_map.1 hstop
    exact hbehind place hplace
  rw [dissect_of_incomplete hwaits]
  refine ⟨?_, hwaits, ?_, ?_⟩
  · rw [List.filter_eq_nil_iff.2, List.map_nil]
    intro place hplace
    simpa using hbehind place hplace
  · rw [List.filter_eq_nil_iff.2, List.getLastD_nil, hlen]
    intro stop hstop
    simpa using hends stop hstop
  · have hnot : start + k ∉ (Request.placed start (frame.cut bytes :: requests)).map (·.1) :=
      fun hmem => Nat.lt_irrefl _ (hends _ hmem)
    rw [List.mem_cons, or_iff_left hnot, ← List.length_eq_zero_iff, hlen]
    omega

/-- What the beginning of complete requests says. -/
theorem beginning_dissect_take (hcomplete : (dissect bytes).rest = []) (hfit : LinesFit bytes)
    {k : Nat} (hk : k ≤ bytes.length) (start : Nat) :
    (dissect (bytes.take k)).Beginning start k (dissect bytes).requests := by
  fun_induction dissect bytes generalizing k start with
  | case1 bytes frame hscan ih =>
    by_cases hwhole : frame.length ≤ k
    · have hrest : k - frame.length ≤ (bytes.drop frame.length).length := by
        rw [List.length_drop]
        omega
      have hfitRest := ((linesFit_of_found hscan).1 hfit).2
      exact beginning_of_whole hscan hwhole (ih hcomplete hfitRest hrest (start + frame.length))
    · exact beginning_of_torn hscan hfit.head start (Nat.lt_of_not_le hwhole) _
  | case2 bytes hnot =>
    have hempty : bytes = [] := hcomplete
    subst hempty
    have hzero : k = 0 := Nat.le_zero.1 hk
    subst hzero
    rw [List.take_nil, dissect_nil]
    exact ⟨rfl, rfl, rfl, by simp⟩

end Bytes

/-! ## Replays -/

namespace Source

variable {vocabulary : Vocabulary} {keyspace : Keyspace} {whole torn : Source} {log : Bytes}

/-- **A log that was torn is found out.** Let a log be one that can be replayed, and let its lines
fit. Whatever is left of it after a cut at `k`, however that is read and with whatever commands and
keyspace, a replay carries out the requests that end at `k` or before, and nothing else. It succeeds
if the cut is at a boundary between requests; otherwise it reports the bytes from the last boundary
to the cut as the beginning of a request. -/
theorem replay_take (hwhole : whole.Delivers log)
    (hok : (whole.replay vocabulary keyspace).2 = .ok ()) (hfit : log.LinesFit) {k : Nat}
    (hk : k ≤ log.length) (htorn : torn.Delivers (log.take k)) (commands : Vocabulary)
    (store : Keyspace) :
    torn.replay commands store =
      (Replay.run commands { keyspace := store } (log.requestsUpTo k),
        if k ∈ log.boundaries then .ok () else .error (.truncated (k - log.lastBoundary k))) := by
  have hcomplete : (Bytes.dissect log).rest = [] := rest_dissect_of_outcome_eq_ok hwhole hok
  have hbeginning := Bytes.beginning_dissect_take hcomplete hfit hk 0
  have hfitTorn : Bytes.LinesFit (log.take k) := by
    refine Bytes.LinesFit.of_append (b := log.drop k) ?_
    rwa [List.take_append_drop]
  obtain ⟨hrequests, houtcome⟩ := transcript_eq_dissect htorn hfitTorn
  refine Prod.ext ?_ ?_
  · show torn.transcript.replay commands store = _
    have hupTo := hbeginning.requests_eq
    rw [Nat.zero_add] at hupTo
    rw [Transcript.replay, Replay.run_congr hrequests, hupTo, Bytes.requestsUpTo]
  · show torn.transcript.outcome = _
    have hboundary := hbeginning.rest_eq_nil_iff
    have hlast := hbeginning.last_add_length
    rw [Nat.zero_add] at hboundary hlast
    have hlastBoundary : log.lastBoundary k + (Bytes.dissect (log.take k)).rest.length = k := by
      rw [Bytes.lastBoundary, Bytes.boundaries, List.filter_cons_of_pos (by simp),
        List.getLastD_cons]
      exact hlast
    have hpending : (Bytes.dissect (log.take k)).rest.length = k - log.lastBoundary k := by omega
    rw [houtcome, Dissection.outcome, hbeginning.waits, hpending]
    by_cases hmem : k ∈ log.boundaries
    · rw [if_pos hmem]
      exact if_pos (hboundary.2 hmem)
    · rw [if_neg hmem]
      exact if_neg (mt hboundary.1 hmem)

/-- A log of three requests is cut inside the second, right behind a value that reads like a request
of its own; what is left of it is read in two pieces. -/
theorem replay_take_behind_value :
    let log : Bytes := Utf8.encode
      "set a 1\n*3\r\n$3\r\nset\r\n$1\r\nb\r\n$9\r\nset c 3\r\n\r\ndel a\r\n"
    let pieces : List Bytes :=
      ["set a 1\n*3\r\n$3\r\nset\r\n$1\r\nb\r\n$9\r\nset c ", "3\r\n"].map Utf8.encode
    (Source.replay [.data log] .standard .empty).2 = .ok () ∧ log.LinesFit ∧ 41 ≤ log.length ∧
      pieces.flatten = log.take 41 ∧
      (Source.replay (pieces.map .data) .standard .empty).2 = .error (.truncated 33) ∧
      (Source.replay (pieces.map .data) .standard .empty).1.keyspace.entries =
        [(Utf8.encode "a", Utf8.encode "1")] := by
  intro log pieces
  have hwhole : Source.Delivers [.data log] log := by
    have hlog : ∀ piece ∈ [log], piece ≠ [] := by decide +kernel
    have hdelivers := delivers_map_data hlog
    rwa [List.flatten_singleton] at hdelivers
  have hne : ∀ piece ∈ pieces, piece ≠ [] := by decide +kernel
  have hfit : log.LinesFit := by decide +kernel
  have hok : (Source.replay [.data log] .standard .empty).2 = .ok () := by
    show (Source.transcript [.data log]).outcome = .ok ()
    rw [(transcript_eq_dissect hwhole hfit).2, Bytes.outcome_dissect_eq_ok_iff]
    decide +kernel
  have hk : 41 ≤ log.length := by decide +kernel
  have htake : pieces.flatten = log.take 41 := by decide +kernel
  have htorn : Source.Delivers (pieces.map .data) (log.take 41) := htake ▸ delivers_map_data hne
  have hreplay := replay_take hwhole hok hfit hk htorn .standard .empty
  have hinside : 41 ∉ log.boundaries := by decide +kernel
  have hbehind : log.lastBoundary 41 = 8 := by decide +kernel
  refine ⟨hok, hfit, hk, htake, ?_, ?_⟩
  · rw [hreplay, hbehind]
    exact if_neg hinside
  · rw [hreplay]
    decide +kernel

end Source

end LogStore
