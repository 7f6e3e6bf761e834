import LogStore.Proofs.Request.LineLimit
import LogStore.Request.Reader

/-!
# Dissecting a sequence of bytes

What a sequence of bytes says as a whole, without a reader and without deliveries: the scanner is
applied to all that is left, again and again, until it finds no further request. `Bytes.dissect`
gives the requests and the rest behind them, and `Dissection.outcome` says what the rest means. It
is the measure for everything that works on deliveries.

A dissection may be done in parts (`dissect_append`), since a request depends on its own bytes only.
-/

namespace LogStore

/-- The complete requests at the head of some bytes, and what is left behind them. -/
structure Dissection where
  /-- The requests, in order. -/
  requests : List Request
  /-- The bytes behind the last request. -/
  rest : Bytes

namespace Dissection

/-- What the rest means, if no more bytes come: a fault, nothing, or the beginning of a request. -/
def outcome (dissection : Dissection) : Except ReadFailure Unit :=
  match Frame.scan dissection.rest with
  | .malformed fault => .error (.malformed fault)
  | _ =>
    if dissection.rest = [] then .ok () else .error (.truncated dissection.rest.length)

/-- Puts requests in front. -/
def prepend (requests : List Request) (dissection : Dissection) : Dissection :=
  { dissection with requests := requests ++ dissection.requests }

@[simp]
theorem requests_prepend (requests : List Request) (dissection : Dissection) :
    (dissection.prepend requests).requests = requests ++ dissection.requests := rfl

@[simp]
theorem rest_prepend (requests : List Request) (dissection : Dissection) :
    (dissection.prepend requests).rest = dissection.rest := rfl

@[simp]
theorem outcome_prepend (requests : List Request) (dissection : Dissection) :
    (dissection.prepend requests).outcome = dissection.outcome := rfl

end Dissection

namespace Bytes

/-- The requests that the bytes hold, each found at the head of all that is left. -/
def dissect (bytes : Bytes) : Dissection :=
  match _h : Frame.scan bytes with
  | .found frame => (dissect (bytes.drop frame.length)).prepend [frame.cut bytes]
  | _ => ⟨[], bytes⟩
termination_by bytes.length
decreasing_by exact Frame.length_drop_lt _h

/-- No line breaks the limit, neither of the requests nor, as far as it has ended, of the rest. -/
def LinesFit (bytes : Bytes) : Prop :=
  (∀ request ∈ (dissect bytes).requests, request.LinesFit) ∧
    ∀ line ∈ Frame.lines (dissect bytes).rest, line.length ≤ maxLineLength

instance : DecidablePred LinesFit := fun bytes =>
  inferInstanceAs (Decidable ((∀ request ∈ (dissect bytes).requests, request.LinesFit) ∧
    ∀ line ∈ Frame.lines (dissect bytes).rest, line.length ≤ maxLineLength))

variable {bytes : Bytes} {frame : Frame} {fault : Fault}

/-! ## One step -/

theorem dissect_of_found (h : Frame.scan bytes = .found frame) :
    dissect bytes = (dissect (bytes.drop frame.length)).prepend [frame.cut bytes] := by
  conv => lhs; rw [dissect]
  split
  · rename_i other hother
    rw [h] at hother
    cases hother
    rfl
  · rename_i hnot
    exact absurd h (hnot frame)

theorem dissect_of_not_found (h : ∀ frame, Frame.scan bytes ≠ .found frame) :
    dissect bytes = ⟨[], bytes⟩ := by
  rw [dissect]
  split
  · rename_i frame hframe
    exact absurd hframe (h frame)
  · rfl

theorem dissect_of_incomplete (h : Frame.scan bytes = .incomplete) : dissect bytes = ⟨[], bytes⟩ :=
  dissect_of_not_found fun frame hframe => by rw [h] at hframe; cases hframe

theorem dissect_of_malformed (h : Frame.scan bytes = .malformed fault) :
    dissect bytes = ⟨[], bytes⟩ :=
  dissect_of_not_found fun frame hframe => by rw [h] at hframe; cases hframe

@[simp]
theorem dissect_nil : dissect [] = ⟨[], []⟩ :=
  dissect_of_incomplete rfl

theorem outcome_of_malformed (h : Frame.scan bytes = .malformed fault) :
    (dissect bytes).outcome = .error (.malformed fault) := by
  rw [dissect_of_malformed h, Dissection.outcome, h]

theorem outcome_of_incomplete (h : Frame.scan bytes = .incomplete) :
    (dissect bytes).outcome = if bytes = [] then .ok () else .error (.truncated bytes.length) := by
  rw [dissect_of_incomplete h, Dissection.outcome, h]

/-- The bytes are those of the requests and the rest. -/
theorem flatten_dissect (bytes : Bytes) :
    ((dissect bytes).requests.flatMap Request.raw) ++ (dissect bytes).rest = bytes := by
  fun_induction dissect bytes with
  | case1 bytes frame _ ih =>
    rw [Dissection.requests_prepend, Dissection.rest_prepend, List.singleton_append,
      List.flatMap_cons, List.append_assoc, ih]
    exact List.take_append_drop ..
  | case2 => rfl

/-- There is no further request in the rest. -/
theorem scan_rest_ne_found (bytes : Bytes) (frame : Frame) :
    Frame.scan (dissect bytes).rest ≠ .found frame := by
  fun_induction dissect bytes with
  | case1 _ _ _ ih => exact ih
  | case2 bytes hnot => exact hnot frame

/-! ## In parts -/

/-- A dissection goes on from the rest of the first part. -/
theorem dissect_append (a b : Bytes) :
    dissect (a ++ b) = (dissect ((dissect a).rest ++ b)).prepend (dissect a).requests := by
  fun_induction dissect a with
  | case1 a frame h ih =>
    rw [dissect_of_found (Frame.scan_append h b), Frame.cut_append h,
      List.drop_append_of_le_length (Frame.length_le_of_scan h), ih]
    rfl
  | case2 a _ => rfl

/-- The bytes hold nothing but complete requests exactly if nothing is left of them. -/
theorem outcome_dissect_eq_ok_iff (bytes : Bytes) :
    (dissect bytes).outcome = .ok () ↔ (dissect bytes).rest = [] := by
  unfold Dissection.outcome
  constructor
  · intro h
    split at h
    · cases h
    · split at h
      · assumption
      · cases h
  · intro h
    rw [h]
    rfl

theorem dissect_append_of_complete {a : Bytes} (h : (dissect a).rest = []) (b : Bytes) :
    dissect (a ++ b) = (dissect b).prepend (dissect a).requests := by
  rw [dissect_append, h, List.nil_append]

/-! ## Lines that keep to the limit -/

theorem linesFit_of_found (h : Frame.scan bytes = .found frame) :
    LinesFit bytes ↔ (frame.cut bytes).LinesFit ∧ LinesFit (bytes.drop frame.length) := by
  rw [LinesFit, LinesFit, dissect_of_found h, Dissection.requests_prepend, Dissection.rest_prepend,
    List.singleton_append, List.forall_mem_cons, and_assoc]

/-- The lines of the first request, complete or not. -/
theorem LinesFit.head (h : LinesFit bytes) :
    ∀ line ∈ Frame.lines bytes, line.length ≤ maxLineLength := by
  cases hscan : Frame.scan bytes with
  | found frame =>
    rw [← Frame.lines_raw_cut hscan]
    exact ((linesFit_of_found hscan).1 h).1
  | incomplete =>
    have := h.2
    rwa [dissect_of_incomplete hscan] at this
  | malformed fault =>
    have := h.2
    rwa [dissect_of_malformed hscan] at this

/-- A beginning has no lines but those of the whole. -/
theorem LinesFit.of_append {a b : Bytes} (h : LinesFit (a ++ b)) : LinesFit a := by
  fun_induction dissect a with
  | case1 a frame hscan ih =>
    obtain ⟨hfirst, hrest⟩ := (linesFit_of_found (Frame.scan_append hscan b)).1 h
    rw [Frame.cut_append hscan] at hfirst
    rw [List.drop_append_of_le_length (Frame.length_le_of_scan hscan)] at hrest
    exact (linesFit_of_found hscan).2 ⟨hfirst, ih hrest⟩
  | case2 a hnot =>
    rw [LinesFit, dissect_of_not_found hnot]
    refine ⟨fun _ hmem => absurd hmem List.not_mem_nil, fun line hline => ?_⟩
    exact h.head line (Frame.lines_subset_append a b hline)

theorem linesFit_append_of_complete {a : Bytes} (h : (dissect a).rest = []) (b : Bytes) :
    LinesFit (a ++ b) ↔ LinesFit a ∧ LinesFit b := by
  have hempty : ∀ line ∈ Frame.lines (dissect a).rest, line.length ≤ maxLineLength := by
    rw [h]
    exact fun line hline => nomatch hline
  simp only [LinesFit, dissect_append_of_complete h, Dissection.requests_prepend,
    Dissection.rest_prepend, List.forall_mem_append]
  constructor
  · rintro ⟨⟨ha, hb⟩, hrest⟩
    exact ⟨⟨ha, hempty⟩, hb, hrest⟩
  · rintro ⟨⟨ha, _⟩, hb, hrest⟩
    exact ⟨⟨ha, hb⟩, hrest⟩

/-- Any number of parts that are complete. -/
theorem linesFit_append_flatten {a : Bytes} (h : (dissect a).rest = []) {parts : List Bytes}
    (hparts : ∀ part ∈ parts, (dissect part).rest = []) :
    (dissect (a ++ parts.flatten)).rest = [] ∧
      (LinesFit (a ++ parts.flatten) ↔ LinesFit a ∧ ∀ part ∈ parts, LinesFit part) := by
  induction parts generalizing a with
  | nil => simp [h]
  | cons part parts ih =>
    obtain ⟨hpart, hrest⟩ := List.forall_mem_cons.1 hparts
    have hnext : (dissect (a ++ part)).rest = [] := by
      rw [dissect_append_of_complete h, Dissection.rest_prepend, hpart]
    obtain ⟨hcomplete, hfit⟩ := ih hnext hrest
    rw [List.flatten_cons, ← List.append_assoc, List.forall_mem_cons, ← and_assoc,
      ← linesFit_append_of_complete h]
    exact ⟨hcomplete, hfit⟩

end Bytes

/-! ## The raw bytes of a request -/

/-- All that a request says, its flush flag left out. -/
def Request.content (request : Request) : Bytes × List Bytes × Framing :=
  (request.raw, request.arguments, request.framing)

theorem Request.raw_eq_of_content {a b : Request} (h : a.content = b.content) : a.raw = b.raw :=
  congrArg Prod.fst h

theorem Request.arguments_eq_of_content {a b : Request} (h : a.content = b.content) :
    a.arguments = b.arguments :=
  congrArg (·.2.1) h

/-- Two lists of requests that say the same are gone through together. -/
@[elab_as_elim]
theorem Request.content_induction {motive : List Request → List Request → Prop}
    (nil : motive [] [])
    (cons : ∀ {x y : Request} {a b : List Request}, x.content = y.content → motive a b →
      motive (x :: a) (y :: b))
    {a b : List Request} (h : a.map Request.content = b.map Request.content) : motive a b := by
  induction a generalizing b with
  | nil =>
    rw [List.map_nil, eq_comm, List.map_eq_nil_iff] at h
    rw [h]
    exact nil
  | cons x a ih =>
    cases b with
    | nil => cases h
    | cons y b =>
      rw [List.map_cons, List.map_cons, List.cons.injEq] at h
      exact cons h.1 (ih h.2)

/-- The request is what its raw bytes say. -/
def Request.Intact (request : Request) : Prop :=
  ∃ frame, Frame.scan request.raw = .found frame ∧ frame.length = request.raw.length ∧
    (frame.cut request.raw).content = request.content

theorem Request.Intact.congr {a b : Request} (h : a.Intact) (hcontent : a.content = b.content) :
    b.Intact := by
  obtain ⟨frame, hscan, hlength, hcut⟩ := h
  rw [raw_eq_of_content hcontent] at hscan hlength hcut
  exact ⟨frame, hscan, hlength, hcut.trans hcontent⟩

/-- A request that is cut out is what its raw bytes say. -/
theorem Frame.intact_cut {bytes : Bytes} {frame : Frame} (h : scan bytes = .found frame) :
    (frame.cut bytes).Intact := by
  refine ⟨frame, scan_raw_cut h, (length_raw_cut h).symm, ?_⟩
  have hraw : (bytes.take frame.length).take frame.length = bytes.take frame.length := by
    rw [List.take_take, Nat.min_self]
  simp only [cut, Request.content, hraw]

/-- Raw bytes that stand at the head give their request back. -/
theorem Request.Intact.dissect_append {request : Request} (h : request.Intact) (rest : Bytes) :
    ∃ again, again.content = request.content ∧
      Bytes.dissect (request.raw ++ rest) = (Bytes.dissect rest).prepend [again] := by
  obtain ⟨frame, hscan, hlength, hcontent⟩ := h
  refine ⟨frame.cut request.raw, hcontent, ?_⟩
  rw [Bytes.dissect_of_found (Frame.scan_append hscan rest), Frame.cut_append hscan, hlength,
    List.drop_left]

theorem Request.Intact.rest_dissect_raw {request : Request} (h : request.Intact) :
    (Bytes.dissect request.raw).rest = [] := by
  obtain ⟨again, _, hdissect⟩ := h.dissect_append []
  rw [List.append_nil] at hdissect
  rw [hdissect, Dissection.rest_prepend, Bytes.dissect_nil]

end LogStore
