import LogStore.Proofs.Reply.Numeral
import LogStore.Proofs.Text.LineEnd
import LogStore.Reply

/-!
# How a client takes replies apart

A client knows where a reply ends from its framing alone: a first byte for the kind, a line up to
the first line end, and what the line announces. `Reply.split` does this to a stream of bytes. It
gives back exactly the replies that were sent if the texts in them hold no line end
(`Reply.split_flatMap_encode`), and something else as soon as one of them does
(`Reply.split_eq_some_iff`).
-/

namespace LogStore

namespace Bytes

/-- The bytes before the first line end and the bytes behind it. -/
def splitLineEnd? : Bytes → Option (Bytes × Bytes)
  | [] => none
  | b :: rest =>
    if b = Byte.carriageReturn ∧ rest.head? = some Byte.lineFeed then some ([], rest.tail)
    else
      match splitLineEnd? rest with
      | none => none
      | some (line, rest) => some (b :: line, rest)

theorem splitLineEnd?_append {line : Bytes} (h : ¬ lineEnd <:+: line) (rest : Bytes) :
    splitLineEnd? (line ++ lineEnd ++ rest) = some (line, rest) := by
  induction line with
  | nil => rfl
  | cons b line ih =>
    obtain ⟨hhere, hlater⟩ := not_or.1 (mt lineEnd_infix_cons.2 h)
    have hcond : ¬ (b = Byte.carriageReturn ∧
        (line ++ lineEnd ++ rest).head? = some Byte.lineFeed) := by
      cases line with
      | nil => exact fun ⟨_, hhead⟩ => absurd (Option.some.inj hhead) (by decide)
      | cons c line => exact hhere
    rw [List.cons_append, List.cons_append, splitLineEnd?, if_neg hcond, ih hlater]

theorem splitLineEnd?_cases (bytes : Bytes) :
    (¬ lineEnd <:+: bytes ∧ splitLineEnd? bytes = none) ∨
      ∃ line rest, ¬ lineEnd <:+: line ∧ bytes = line ++ lineEnd ++ rest ∧
        splitLineEnd? bytes = some (line, rest) := by
  induction bytes with
  | nil => exact .inl ⟨not_lineEnd_infix_nil, rfl⟩
  | cons b rest ih =>
    by_cases hhere : b = Byte.carriageReturn ∧ rest.head? = some Byte.lineFeed
    · refine .inr ⟨[], rest.tail, not_lineEnd_infix_nil, ?_, ?_⟩
      · obtain ⟨rfl, hhead⟩ := hhere
        cases rest with
        | nil => cases hhead
        | cons c rest =>
          cases hhead
          rfl
      · rw [splitLineEnd?, if_pos hhere]
    · rw [splitLineEnd?, if_neg hhere, lineEnd_infix_cons, or_iff_right hhere]
      rcases ih with ⟨hnone, hsplit⟩ | ⟨line, more, hline, rfl, hsplit⟩
      · exact .inl ⟨hnone, by rw [hsplit]⟩
      · refine .inr ⟨b :: line, more, ?_, rfl, by rw [hsplit]⟩
        rw [lineEnd_infix_cons]
        rintro (⟨hb, hhead⟩ | hholds)
        · cases line with
          | nil => cases hhead
          | cons c line => exact hhere ⟨hb, hhead⟩
        · exact hline hholds

theorem length_lt_of_splitLineEnd?_eq_some {bytes line rest : Bytes}
    (h : splitLineEnd? bytes = some (line, rest)) : rest.length < bytes.length := by
  rcases splitLineEnd?_cases bytes with ⟨_, hnone⟩ | ⟨other, more, _, rfl, hsome⟩
  · cases hnone.symm.trans h
  · cases hsome.symm.trans h
    simp only [List.length_append, List.length_cons]
    omega

end Bytes

namespace Reply

/-- Reads the first line of a value, and the bytes of a bulk string behind it. Returns how many
values of an array are still to come, and the bytes behind. -/
def begin? : Bytes → Option (Nat × Bytes)
  | [] => none
  | kind :: bytes =>
    match Bytes.splitLineEnd? bytes with
    | none => none
    | some (line, rest) =>
      if kind = Byte.plus ∨ kind = Byte.minus then some (0, rest)
      else
        match Numeral.readSigned? line with
        | none => none
        | some value =>
          if kind = 58 then some (0, rest)
          else if kind = Byte.dollar then
            if value = -1 then some (0, rest)
            else if 0 ≤ value ∧ (rest.drop value.toNat).take 2 = Bytes.lineEnd then
              some (0, rest.drop (value.toNat + 2))
            else none
          else if kind = Byte.star then
            if value = -1 then some (0, rest)
            else if 0 ≤ value then some (value.toNat, rest)
            else none
          else none

theorem length_lt_of_begin?_eq_some {bytes rest : Bytes} {more : Nat}
    (h : begin? bytes = some (more, rest)) : rest.length < bytes.length := by
  unfold begin? at h
  split at h
  · cases h
  · split at h
    · cases h
    · rename_i kind bytes _ line behind hline
      have hlt := Bytes.length_lt_of_splitLineEnd?_eq_some hline
      have hle : rest.length ≤ behind.length := by
        repeat' split at h
        all_goals cases h
        all_goals first
          | exact Nat.le_refl _
          | exact (List.drop_sublist _ _).length_le
      rw [List.length_cons]
      omega

/-- The bytes behind the first `due` values. -/
def skip? (due : Nat) (bytes : Bytes) : Option Bytes :=
  match due with
  | 0 => some bytes
  | due + 1 =>
    match _h : begin? bytes with
    | none => none
    | some (more, rest) => skip? (more + due) rest
termination_by bytes.length
decreasing_by exact length_lt_of_begin?_eq_some _h

theorem skip?_zero (bytes : Bytes) : skip? 0 bytes = some bytes := by
  rw [skip?]

theorem skip?_succ_of_begin? {bytes rest : Bytes} {more : Nat}
    (h : begin? bytes = some (more, rest)) (due : Nat) :
    skip? (due + 1) bytes = skip? (more + due) rest := by
  rw [skip?]
  split <;> rename_i hbegin <;> cases hbegin.symm.trans h
  rfl

theorem length_le_of_skip?_eq_some {due : Nat} {bytes rest : Bytes}
    (h : skip? due bytes = some rest) :
    rest.length ≤ bytes.length ∧ (due ≠ 0 → rest.length < bytes.length) := by
  fun_induction skip? due bytes with
  | case1 bytes =>
    cases h
    exact ⟨Nat.le_refl _, fun hdue => absurd rfl hdue⟩
  | case2 => cases h
  | case3 bytes due more next hbegin ih =>
    have hlt := length_lt_of_begin?_eq_some hbegin
    have hle := (ih h).1
    exact ⟨by omega, fun _ => by omega⟩

/-- The bytes of each value, if there are only whole values. -/
def split (bytes : Bytes) : Option (List Bytes) :=
  match _h : skip? 1 bytes with
  | none => if bytes = [] then some [] else none
  | some rest => (split rest).map (bytes.take (bytes.length - rest.length) :: ·)
termination_by bytes.length
decreasing_by exact (length_le_of_skip?_eq_some _h).2 nofun

theorem split_nil : split [] = some [] := by
  rw [split]
  split <;> rename_i hskip
  · rfl
  · rw [skip?] at hskip
    cases hskip

/-- A value in front is split off. -/
theorem split_append {value : Bytes} {rest : Bytes} (h : skip? 1 (value ++ rest) = some rest) :
    split (value ++ rest) = (split rest).map (value :: ·) := by
  rw [split]
  split <;> rename_i hskip <;> cases hskip.symm.trans h
  have htake : (value ++ rest).take ((value ++ rest).length - rest.length) = value := by
    rw [List.length_append, Nat.add_sub_cancel, List.take_left]
  rw [htake]

/-! ## Replies whose texts hold no line end -/

mutual

/-- No text in the reply holds a line end. -/
def Unbroken : Reply → Prop
  | .simple text | .error text => ¬ Bytes.lineEnd <:+: Utf8.encode text
  | .array elements => AllUnbroken elements
  | .integer _ | .bulk _ | .null => True

/-- No text in the replies holds a line end. -/
def AllUnbroken : List Reply → Prop
  | [] => True
  | reply :: replies => Unbroken reply ∧ AllUnbroken replies

end

theorem begin?_text {kind : Byte} (hkind : kind = Byte.plus ∨ kind = Byte.minus) {text : Bytes}
    (h : ¬ Bytes.lineEnd <:+: text) (rest : Bytes) :
    begin? (line kind text ++ rest) = some (0, rest) := by
  show begin? (kind :: (text ++ Bytes.lineEnd ++ rest)) = _
  simp only [begin?, Bytes.splitLineEnd?_append h, if_pos hkind]

/-- A line with a number. -/
theorem begin?_number {kind : Byte} (hkind : ¬ (kind = Byte.plus ∨ kind = Byte.minus))
    (value : Int) (rest : Bytes) :
    begin? (line kind (Numeral.ofInt value) ++ rest) =
      if kind = 58 then some (0, rest)
      else if kind = Byte.dollar then
        if value = -1 then some (0, rest)
        else if 0 ≤ value ∧ (rest.drop value.toNat).take 2 = Bytes.lineEnd then
          some (0, rest.drop (value.toNat + 2))
        else none
      else if kind = Byte.star then
        if value = -1 then some (0, rest)
        else if 0 ≤ value then some (value.toNat, rest)
        else none
      else none := by
  have hline : ¬ Bytes.lineEnd <:+: Numeral.ofInt value :=
    Bytes.not_lineEnd_infix_of_notMem (Numeral.carriageReturn_notMem_ofInt value)
  show begin? (kind :: (Numeral.ofInt value ++ Bytes.lineEnd ++ rest)) = _
  simp only [begin?, Bytes.splitLineEnd?_append hline, if_neg hkind, Numeral.readSigned?_ofInt]

theorem begin?_bulk (bytes rest : Bytes) :
    begin? (encode (.bulk bytes) ++ rest) = some (0, rest) := by
  have hline : encode (.bulk bytes) ++ rest =
      line Byte.dollar (Numeral.ofInt bytes.length) ++ (bytes ++ (Bytes.lineEnd ++ rest)) := by
    simp only [encode, List.append_assoc]
    rfl
  have hpayload :
      ((bytes ++ (Bytes.lineEnd ++ rest)).drop bytes.length).take 2 = Bytes.lineEnd := by
    rw [List.drop_left]
    rfl
  have hbehind : (bytes ++ (Bytes.lineEnd ++ rest)).drop (bytes.length + 2) = rest := by
    rw [← List.drop_drop, List.drop_left]
    rfl
  rw [hline, begin?_number (by decide), if_neg (by decide), if_pos rfl, if_neg (by omega),
    Int.toNat_natCast, if_pos ⟨Int.natCast_nonneg _, hpayload⟩, hbehind]

mutual

/-- A reply whose texts hold no line end is one value. -/
theorem skip?_encode {reply : Reply} (h : reply.Unbroken) (due : Nat) (rest : Bytes) :
    skip? (due + 1) (reply.encode ++ rest) = skip? due rest := by
  cases reply with
  | simple text =>
    rw [encode, skip?_succ_of_begin? (begin?_text (.inl rfl) h rest), Nat.zero_add]
  | error text =>
    rw [encode, skip?_succ_of_begin? (begin?_text (.inr rfl) h rest), Nat.zero_add]
  | integer value =>
    have hbegin : begin? (encode (.integer value) ++ rest) = some (0, rest) :=
      (begin?_number (by decide) value rest).trans (if_pos rfl)
    rw [skip?_succ_of_begin? hbegin, Nat.zero_add]
  | bulk bytes =>
    rw [skip?_succ_of_begin? (begin?_bulk bytes rest), Nat.zero_add]
  | null =>
    have hbegin : begin? (encode .null ++ rest) = some (0, rest) :=
      begin?_number (by decide) (-1) rest
    rw [skip?_succ_of_begin? hbegin, Nat.zero_add]
  | array elements =>
    have hbegin : begin? (encode (.array elements) ++ rest) =
        some (elements.length, encodeAll elements ++ rest) := by
      have hline : encode (.array elements) ++ rest =
          line Byte.star (Numeral.ofInt elements.length) ++ (encodeAll elements ++ rest) := by
        simp only [encode, List.append_assoc]
        rfl
      rw [hline, begin?_number (by decide), if_neg (by decide), if_neg (by decide), if_pos rfl,
        if_neg (by omega), if_pos (Int.natCast_nonneg _), Int.toNat_natCast]
    rw [skip?_succ_of_begin? hbegin]
    exact skip?_encodeAll h due rest

theorem skip?_encodeAll {replies : List Reply} (h : AllUnbroken replies) (due : Nat)
    (rest : Bytes) :
    skip? (replies.length + due) (encodeAll replies ++ rest) = skip? due rest := by
  cases replies with
  | nil => rw [List.length_nil, Nat.zero_add, encodeAll, List.nil_append]
  | cons reply replies =>
    have hlength : (reply :: replies).length + due = replies.length + due + 1 := by
      rw [List.length_cons]
      omega
    rw [hlength, encodeAll, List.append_assoc, skip?_encode h.1]
    exact skip?_encodeAll h.2 due rest

end

/-- An unbroken reply in front is split off. -/
theorem split_encode_append {reply : Reply} (h : reply.Unbroken) (rest : Bytes) :
    split (reply.encode ++ rest) = (split rest).map (reply.encode :: ·) :=
  split_append ((skip?_encode h 0 rest).trans (skip?_zero rest))

/-- Unbroken replies are given back as they were sent. -/
theorem split_flatMap_encode {replies : List Reply} (h : ∀ reply ∈ replies, reply.Unbroken) :
    split (replies.flatMap encode) = some (replies.map encode) := by
  induction replies with
  | nil => exact split_nil
  | cons reply replies ih =>
    obtain ⟨hhead, hrest⟩ := List.forall_mem_cons.1 h
    rw [List.flatMap_cons, split_encode_append hhead, ih hrest]
    rfl

/-! ## Replies whose texts hold a line end -/

/-- Whether the reply is no array. -/
def isFlat : Reply → Bool
  | .array _ => false
  | _ => true

/-- A text with a line end is cut off there. -/
theorem exists_begin?_text {kind : Byte} (hkind : kind = Byte.plus ∨ kind = Byte.minus)
    {text : Bytes} (h : Bytes.lineEnd <:+: text) (rest : Bytes) :
    ∃ value tail, value.length < (line kind text).length ∧
      line kind text ++ rest = value ++ tail ∧
      begin? (line kind text ++ rest) = some (0, tail) := by
  rcases Bytes.splitLineEnd?_cases text with ⟨hnone, _⟩ | ⟨first, more, hfirst, rfl, _⟩
  · exact absurd h hnone
  · have happend : line kind (first ++ Bytes.lineEnd ++ more) ++ rest =
        line kind first ++ (more ++ Bytes.lineEnd ++ rest) := by
      simp [line]
    refine ⟨_, _, ?_, happend, ?_⟩
    · simp [line]
    · rw [happend]
      exact begin?_text hkind hfirst _

theorem exists_begin?_of_broken {reply : Reply} (hflat : reply.isFlat) (h : ¬ reply.Unbroken)
    (rest : Bytes) :
    ∃ value tail, value.length < reply.encode.length ∧ reply.encode ++ rest = value ++ tail ∧
      begin? (reply.encode ++ rest) = some (0, tail) := by
  cases reply with
  | simple text =>
    rw [encode]
    exact exists_begin?_text (.inl rfl) (Classical.not_not.1 h) rest
  | error text =>
    rw [encode]
    exact exists_begin?_text (.inr rfl) (Classical.not_not.1 h) rest
  | integer | bulk | null => exact absurd trivial h
  | array => cases hflat

/-- **When a client can take the replies apart.** The client gets back exactly the replies that were
sent, if no text in them holds a line end, and only then. -/
theorem split_eq_some_iff {replies : List Reply} (hflat : ∀ reply ∈ replies, reply.isFlat) :
    split (replies.flatMap encode) = some (replies.map encode) ↔
      ∀ reply ∈ replies, reply.Unbroken := by
  refine ⟨?_, split_flatMap_encode⟩
  induction replies with
  | nil => exact fun _ => nofun
  | cons reply replies ih =>
    obtain ⟨hhead, hrest⟩ := List.forall_mem_cons.1 hflat
    intro hsplit
    rw [List.flatMap_cons, List.map_cons] at hsplit
    by_cases hunbroken : reply.Unbroken
    · rw [split_encode_append hunbroken, Option.map_eq_some_iff] at hsplit
      obtain ⟨values, hvalues, hcons⟩ := hsplit
      rw [(List.cons.inj hcons).2] at hvalues
      exact List.forall_mem_cons.2 ⟨hunbroken, ih hrest hvalues⟩
    · -- The client takes a value that is shorter than the reply.
      obtain ⟨value, tail, hshort, happend, hbegin⟩ :=
        exists_begin?_of_broken hhead hunbroken (replies.flatMap encode)
      have hskip : skip? 1 (value ++ tail) = some tail := by
        rw [← happend, skip?_succ_of_begin? hbegin, Nat.zero_add, skip?_zero]
      rw [happend, split_append hskip, Option.map_eq_some_iff] at hsplit
      obtain ⟨_, _, hcons⟩ := hsplit
      rw [(List.cons.inj hcons).1] at hshort
      exact absurd hshort (Nat.lt_irrefl _)

example :
    split (encode (.failure "unknown command 'a\r\n+OK'") ++ encode (.simple "PONG")) =
      some (["-ERR unknown command 'a\r\n", "+OK'\r\n", "+PONG\r\n"].map Utf8.encode) := by
  decide +kernel

end Reply

end LogStore
