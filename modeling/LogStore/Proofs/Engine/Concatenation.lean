import LogStore.Proofs.Engine.Recovery
import LogStore.Proofs.Engine.Replays

/-!
# A log that is replayed in parts

What a replay has done so far has no influence on what it does next, the keyspace apart: the counts
of two replays add up, and their warnings follow each other (`Replay.run_append_eq`). So a log that
is put behind a complete one is replayed as if it stood alone and found the keyspace that the first
one leaves (`Source.replay_append`). The reader looks ahead over the seam, and its reads may end
anywhere around it, but neither shows.

Any log comes apart in this way at its first fault: what stands before it is a complete log of its
own (`Bytes.dissect_flatMap_raw`), and what stands behind is nothing but the fault. So what a replay
leaves is what the requests before the fault come to when they are carried out.
-/

namespace LogStore

/-! ## The requests before a fault -/

namespace Bytes

/-- The requests at the head of some bytes are a complete log of their own. -/
theorem dissect_flatMap_raw (bytes : Bytes) :
    dissect ((dissect bytes).requests.flatMap Request.raw) = ⟨(dissect bytes).requests, []⟩ := by
  fun_induction dissect bytes with
  | case1 bytes frame hscan ih =>
    let later := (dissect (bytes.drop frame.length)).requests.flatMap Request.raw
    have hlength := Frame.length_raw_cut hscan
    have hraw := Frame.scan_raw_cut hscan
    have hfound : Frame.scan ((frame.cut bytes).raw ++ later) = .found frame :=
      Frame.scan_append hraw later
    have hcut : frame.cut ((frame.cut bytes).raw ++ later) = frame.cut bytes := by
      rw [Frame.cut_append hraw, Frame.cut, Frame.cut, List.take_take, Nat.min_self]
    have hdrop : ((frame.cut bytes).raw ++ later).drop frame.length = later := by
      rw [← hlength, List.drop_left]
    show dissect ((frame.cut bytes).raw ++ later) = _
    rw [dissect_of_found hfound, hcut, hdrop, ih]
    rfl
  | case2 bytes _ => exact dissect_nil

theorem dissect_rest (bytes : Bytes) : dissect (dissect bytes).rest = ⟨[], (dissect bytes).rest⟩ :=
  dissect_of_not_found (scan_rest_ne_found bytes)

theorem LinesFit.flatMap_raw {bytes : Bytes} (h : LinesFit bytes) :
    LinesFit ((dissect bytes).requests.flatMap Request.raw) := by
  have hwhole := flatten_dissect bytes
  rw [← hwhole] at h
  exact h.of_append

theorem LinesFit.rest {bytes : Bytes} (h : LinesFit bytes) : LinesFit (dissect bytes).rest := by
  rw [LinesFit, dissect_rest]
  exact ⟨fun _ hrequest => absurd hrequest List.not_mem_nil, h.2⟩

end Bytes

/-! ## Replays -/

namespace Source

variable {source first second whole : Source} {bytes a b : Bytes}

/-- A replay of a log whose lines fit, in terms of what the log says as a whole. -/
theorem replay_eq_dissect (h : source.Delivers bytes) (hfit : bytes.LinesFit)
    (vocabulary : Vocabulary) (keyspace : Keyspace) :
    source.replay vocabulary keyspace =
      (Replay.run vocabulary { keyspace } (Bytes.dissect bytes).requests,
        (Bytes.dissect bytes).outcome) := by
  obtain ⟨hrequests, houtcome⟩ := transcript_eq_dissect h hfit
  rw [replay, Transcript.replay, Replay.run_congr hrequests, houtcome]

/-- **A log is replayed in parts, and up to its first fault.** Let a log of which one replay
succeeds be followed by any other bytes, and let the lines of both fit. However the reads of the
whole are cut, its replay leaves what a replay of the second part leaves that begins with the
keyspace of the first, counts the requests of both, has the warnings of the first and then those of
the second, and ends as the second part does, with the same error if there is one.

The whole consists of the raw bytes of its complete requests and of a rest. The keyspace is the one
that the operations of these requests leave, carried out in order; those that ask for something are
counted, and those that are rejected are reported. The bytes of these requests alone are replayed
without an error, to the same keyspace, count and warnings. The rest alone changes, counts and reports
nothing, and ends its replay with the same error; there is none exactly if there is no rest. -/
theorem replay_append (hfirst : first.Delivers a) (hsecond : second.Delivers b)
    (hwhole : whole.Delivers (a ++ b)) (hfita : a.LinesFit) (hfitb : b.LinesFit)
    {vocabulary : Vocabulary} {keyspace : Keyspace}
    (hok : (first.replay vocabulary keyspace).2 = .ok ()) :
    let before := (first.replay vocabulary keyspace).1
    let after := (second.replay vocabulary before.keyspace).1
    let outcome := (second.replay vocabulary before.keyspace).2
    let complete := (Bytes.dissect (a ++ b)).requests
    let rest := (Bytes.dissect (a ++ b)).rest
    whole.replay vocabulary keyspace =
        ({ keyspace := after.keyspace
           count := before.count + after.count
           warnings := before.warnings ++ after.warnings }, outcome) ∧
      a ++ b = complete.flatMap Request.raw ++ rest ∧
      (whole.replay vocabulary keyspace).1 =
        { keyspace := complete.foldl vocabulary.carryOut keyspace
          count := (complete.filter (·.arguments ≠ [])).length
          warnings := (complete.filter vocabulary.rejects).map vocabulary.warning } ∧
      (∀ part : Source, part.Delivers (complete.flatMap Request.raw) →
        part.replay vocabulary keyspace = ((whole.replay vocabulary keyspace).1, .ok ())) ∧
      (∀ (part : Source) (store : Keyspace), part.Delivers rest →
        part.replay vocabulary store = ({ keyspace := store }, outcome)) ∧
      (outcome = .ok () ↔ rest = []) := by
  intro before after outcome complete rest
  have hcomplete : (Bytes.dissect a).rest = [] := rest_dissect_of_outcome_eq_ok hfirst hok
  have hdissect : Bytes.dissect (a ++ b) = (Bytes.dissect b).prepend (Bytes.dissect a).requests :=
    Bytes.dissect_append_of_complete hcomplete b
  have hfit : (a ++ b).LinesFit := (Bytes.linesFit_append_of_complete hcomplete b).2 ⟨hfita, hfitb⟩
  have hbefore : before = Replay.run vocabulary { keyspace } (Bytes.dissect a).requests := by
    simp only [before, replay_eq_dissect hfirst hfita]
  have hbehind := replay_eq_dissect hsecond hfitb vocabulary before.keyspace
  have hall := replay_eq_dissect hwhole hfit vocabulary keyspace
  have houtcome : outcome = (Bytes.dissect (a ++ b)).outcome := by
    rw [hdissect, Dissection.outcome_prepend]
    simp only [outcome, hbehind]
  refine ⟨?_, (Bytes.flatten_dissect _).symm, ?_, ?_, ?_, ?_⟩
  · have hseam := Replay.run_append_eq vocabulary { keyspace } (Bytes.dissect a).requests
      (Bytes.dissect b).requests
    rw [hall, ← houtcome, hdissect, Dissection.requests_prepend, hseam, ← hbefore]
    simp only [after, hbehind]
  · rw [hall, Replay.run_eq]
    simp [complete]
  · intro part hpart
    rw [replay_eq_dissect hpart hfit.flatMap_raw, hall, Bytes.dissect_flatMap_raw]
    rfl
  · intro part store hpart
    rw [replay_eq_dissect hpart hfit.rest, Bytes.dissect_rest, houtcome]
    rfl
  · rw [houtcome]
    exact Bytes.outcome_dissect_eq_ok_iff (a ++ b)

/-- Two requests, of which the second is not known, are followed by a refused one, by a removal, by a
write and by a string without its `$`. A read of the whole ends inside the request before the seam,
the next one inside the removal behind it. Of the keys that were there before, one stays, one has
another value, and one is gone. -/
theorem replay_append_faulty :
    let store : Keyspace := .ofList
      [(Utf8.encode "i", Utf8.encode "0"), (Utf8.encode "j", []), (Utf8.encode "k", [])]
    let a : Bytes := Utf8.encode "set k 1\n*1\r\n$4\r\nlook\r\n"
    let b : Bytes := Utf8.encode "get\r\n*2\r\n$3\r\ndel\r\n$1\r\nj\r\nset l 2\n*1\r\n-2"
    let pieces : List Bytes :=
      ["set k 1\n*1\r\n$4\r", "\nlook\r\nget\r\n*2\r\n$3\r\nd",
        "el\r\n$1\r\nj\r\nset l 2\n*1\r\n-2"].map Utf8.encode
    let whole : Source := pieces.map .data
    (Source.replay [.data a] .standard store).2 = .ok () ∧ a.LinesFit ∧ b.LinesFit ∧
      pieces.flatten = a ++ b ∧
      (whole.replay .standard store).2 = .error (.malformed (.notBulk '-')) ∧
      (whole.replay .standard store).1.keyspace.entries =
        [(Utf8.encode "i", Utf8.encode "0"), (Utf8.encode "k", Utf8.encode "1"),
          (Utf8.encode "l", Utf8.encode "2")] ∧
      (whole.replay .standard store).1.count = 5 ∧
      (whole.replay .standard store).1.warnings =
        [.replayUnknown (Utf8.encode "look"), .replayFailed "get" (.wrongArity .get)] := by
  intro store a b pieces whole
  have hone : ∀ {bytes : Bytes}, bytes ≠ [] → Source.Delivers [.data bytes] bytes := by
    intro bytes hne
    have hdelivers := Delivers.piece hne .exhausted
    rwa [List.append_nil] at hdelivers
  have ha : Source.Delivers [.data a] a := hone (by decide +kernel)
  have hb : Source.Delivers [.data b] b := hone (by decide +kernel)
  have hfita : a.LinesFit := by decide +kernel
  have hfitb : b.LinesFit := by decide +kernel
  have hseam : pieces.flatten = a ++ b := by decide +kernel
  have hwhole : Source.Delivers whole (a ++ b) := hseam ▸ delivers_map_data (by decide +kernel)
  have hok : (Source.replay [.data a] .standard store).2 = .ok () := by
    rw [replay_eq_dissect ha hfita, Bytes.outcome_dissect_eq_ok_iff]
    decide +kernel
  obtain ⟨hreplay, -, hcomes, -⟩ := replay_append ha hb hwhole hfita hfitb hok
  have hfault : Frame.scan (Bytes.dissect b).rest = .malformed (.notBulk '-') := by decide +kernel
  refine ⟨hok, hfita, hfitb, hseam, ?_, ?_, ?_, ?_⟩
  · rw [hreplay, replay_eq_dissect hb hfitb]
    simp only [Dissection.outcome, hfault]
  · rw [hcomes]
    decide +kernel
  · rw [hcomes]
    decide +kernel
  · rw [hcomes]
    decide +kernel

end Source

end LogStore
