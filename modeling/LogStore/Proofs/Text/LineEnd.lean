import LogStore.Text.Utf8

/-!
# Line ends in text

Text that is shown may have been bytes of any kind. Showing them as text neither makes a line end
nor takes one away (`Utf8.lineEnd_infix_decodeLossy_iff`): an ASCII byte comes out as itself, and
what comes out for the other bytes holds no ASCII control character.
-/

namespace LogStore

/-! ## Line ends in bytes -/

namespace Bytes

theorem lineEnd_infix_cons {b : Byte} {rest : Bytes} :
    lineEnd <:+: b :: rest ↔
      (b = Byte.carriageReturn ∧ rest.head? = some Byte.lineFeed) ∨ lineEnd <:+: rest := by
  rw [List.infix_cons_iff, List.cons_prefix_cons]
  have hhead : [Byte.lineFeed] <+: rest ↔ rest.head? = some Byte.lineFeed := by
    cases rest with
    | nil => simp
    | cons c rest => simp [List.cons_prefix_cons, eq_comm]
  rw [hhead, eq_comm]

theorem not_lineEnd_infix_nil : ¬ lineEnd <:+: [] := fun h => absurd h.length_le (by decide)

/-- Bytes without a carriage return in front make no difference. -/
theorem lineEnd_infix_append_left {plain : Bytes} (h : Byte.carriageReturn ∉ plain) (rest : Bytes) :
    lineEnd <:+: plain ++ rest ↔ lineEnd <:+: rest := by
  induction plain with
  | nil => rfl
  | cons b plain ih =>
    obtain ⟨hb, hplain⟩ := not_or.1 (mt List.mem_cons.2 h)
    rw [List.cons_append, lineEnd_infix_cons, ih hplain]
    exact or_iff_right fun ⟨hreturn, _⟩ => hb hreturn.symm

/-- Bytes without a line feed behind make no difference. -/
theorem lineEnd_infix_append_right {plain : Bytes} (h : Byte.lineFeed ∉ plain) (text : Bytes) :
    lineEnd <:+: text ++ plain ↔ lineEnd <:+: text := by
  induction text with
  | nil =>
    refine ⟨fun hholds => ?_, fun hholds => absurd hholds not_lineEnd_infix_nil⟩
    exact absurd (hholds.subset (List.mem_cons_of_mem _ (List.mem_singleton_self _))) h
  | cons b text ih =>
    rw [List.cons_append, lineEnd_infix_cons, lineEnd_infix_cons, ih]
    cases text with
    | nil =>
      have hhead : plain.head? ≠ some Byte.lineFeed := fun he => h (List.mem_of_head? he)
      simp [hhead]
    | cons c text => rfl

theorem not_lineEnd_infix_of_notMem {bytes : Bytes} (h : Byte.carriageReturn ∉ bytes) :
    ¬ lineEnd <:+: bytes := fun hholds => h (hholds.subset List.mem_cons_self)

end Bytes

namespace Utf8

/-! ## Characters -/

theorem encode_append (a b : String) : encode (a ++ b) = encode a ++ encode b := by
  rw [encode, String.toList_append, List.flatMap_append]
  rfl

/-- A character that is not ASCII is written without ASCII bytes. -/
theorem le_of_mem_utf8EncodeChar {c : Char} (h : 0x80 ≤ c.toNat) {b : Byte}
    (hb : b ∈ String.utf8EncodeChar c) : 0x80 ≤ b.toNat := by
  have hcode : ¬ c.val.toNat ≤ 127 := Nat.not_le.2 h
  have hbyte : ∀ n, (UInt8.ofNat n).toNat = n % 256 := fun n => by simp
  unfold String.utf8EncodeChar at hb
  simp only [if_neg hcode] at hb
  split at hb
  · simp only [List.mem_cons, List.not_mem_nil, or_false] at hb
    rcases hb with rfl | rfl <;> rw [hbyte] <;> omega
  · split at hb
    · simp only [List.mem_cons, List.not_mem_nil, or_false] at hb
      rcases hb with rfl | rfl | rfl <;> rw [hbyte] <;> omega
    · simp only [List.mem_cons, List.not_mem_nil, or_false] at hb
      rcases hb with rfl | rfl | rfl | rfl <;> rw [hbyte] <;> omega

theorem utf8EncodeChar_of_ascii {c : Char} (h : c.toNat < 0x80) :
    String.utf8EncodeChar c = [UInt8.ofNat c.toNat] :=
  if_pos (Nat.le_of_lt_succ h)

/-- No single character makes a line end. -/
theorem not_lineEnd_infix_utf8EncodeChar (c : Char) :
    ¬ Bytes.lineEnd <:+: String.utf8EncodeChar c := by
  intro hholds
  by_cases h : c.toNat < 0x80
  · have hlength := hholds.length_le
    rw [utf8EncodeChar_of_ascii h] at hlength
    exact Nat.not_succ_le_self 1 hlength
  · have hmem : Byte.carriageReturn ∈ String.utf8EncodeChar c := hholds.subset List.mem_cons_self
    exact absurd (le_of_mem_utf8EncodeChar (Nat.not_lt.1 h) hmem) (by decide)

/-! ## The decoder -/

/-- The bytes of units, with U+FFFD for the unreadable ones. -/
def written (units : List (Option Char)) : Bytes :=
  units.flatMap fun unit => String.utf8EncodeChar (unit.getD '\uFFFD')

theorem written_append (a b : List (Option Char)) : written (a ++ b) = written a ++ written b :=
  List.flatMap_append

theorem written_ne_nil {units : List (Option Char)} (h : units ≠ []) : written units ≠ [] := by
  cases units with
  | nil => exact absurd rfl h
  | cons unit units =>
    exact List.append_ne_nil_of_left_ne_nil String.utf8EncodeChar_ne_nil _

theorem run_eq_append (state : State) (units : List (Option Char)) (bytes : Bytes) :
    run state units bytes = units.reverse ++ run state [] bytes := by
  induction bytes generalizing state units with
  | nil => simp [run]
  | cons b rest ih =>
    simp only [run]
    rw [ih, ih (step state b).1 ((step state b).2.reverse ++ [])]
    simp

theorem run_cons (state : State) (b : Byte) (rest : Bytes) :
    run state [] (b :: rest) = (step state b).2 ++ run (step state b).1 [] rest := by
  have h : run state [] (b :: rest) = _ :=
    run_eq_append (step state b).1 ((step state b).2.reverse ++ []) rest
  rwa [List.append_nil, List.reverse_reverse] at h

/-- The decoder waits for bytes above ASCII only, and for a character that is not ASCII: its code
without the last six bits is at least 2, or will be with the next byte, if there is one behind. -/
def State.BeyondAscii : State → Prop
  | .idle => True
  | .inside due low _ code =>
    0x80 ≤ low.toNat ∧ (2 ≤ code ∨ 0 < due ∧ 2 ≤ 64 * code + (low.toNat - 0x80))

theorem beyondAscii_idle : State.BeyondAscii .idle := trivial

/-- Bytes without carriage returns and line feeds. -/
def Plain (bytes : Bytes) : Prop :=
  Byte.carriageReturn ∉ bytes ∧ Byte.lineFeed ∉ bytes

theorem plain_utf8EncodeChar {c : Char} (h : 0x80 ≤ c.toNat ∨ c.toNat = 0) :
    Plain (String.utf8EncodeChar c) := by
  rcases h with h | h
  · exact ⟨fun hmem => absurd (le_of_mem_utf8EncodeChar h hmem) (by decide),
      fun hmem => absurd (le_of_mem_utf8EncodeChar h hmem) (by decide)⟩
  · rw [utf8EncodeChar_of_ascii (by omega), h]
    exact ⟨by decide, by decide⟩

theorem plain_written_nil : Plain (written []) :=
  ⟨nofun, nofun⟩

theorem plain_written_none : Plain (written [none]) :=
  ⟨by decide +kernel, by decide +kernel⟩

theorem toNat_ofNat (n : Nat) : (Char.ofNat n).toNat = n ∨ (Char.ofNat n).toNat = 0 := by
  unfold Char.ofNat
  by_cases h : n.isValidChar
  · rw [dif_pos h]
    exact .inl rfl
  · rw [dif_neg h]
    exact .inr rfl

/-- What comes of a byte that is not ASCII: something unreadable, or the beginning of a character
that is not ASCII either. -/
def Opens (out : State × List (Option Char)) : Prop :=
  out = (.idle, [none]) ∨ ∃ due low high code,
    out = (.inside due low high code, []) ∧ (State.inside due low high code).BeyondAscii

theorem opens_ite {p : Prop} [Decidable p] {due code : Nat} {low high : Byte}
    {out : State × List (Option Char)} (hthen : p → (State.inside due low high code).BeyondAscii)
    (helse : ¬ p → Opens out) : Opens (if p then (.inside due low high code, []) else out) := by
  by_cases h : p
  · rw [if_pos h]
    exact .inr ⟨due, low, high, code, rfl, hthen h⟩
  · rw [if_neg h]
    exact helse h

/-- A byte between characters is a character of its own or opens one. -/
theorem start_cases (b : Byte) :
    (b.toNat < 0x80 ∧ start b = (.idle, [some (Char.ofNat b.toNat)])) ∨
      0x80 ≤ b.toNat ∧ Opens (start b) := by
  have hle : ∀ {least : Byte}, ¬ b < least → least.toNat ≤ b.toNat := fun h =>
    Nat.not_lt.1 (mt UInt8.lt_iff_toNat_lt.2 h)
  have hne : ∀ {other : Byte}, b ≠ other → b.toNat ≠ other.toNat := fun h =>
    mt UInt8.toNat_inj.1 h
  unfold start
  by_cases hascii : b < 0x80
  · exact .inl ⟨UInt8.lt_iff_toNat_lt.1 hascii, if_pos hascii⟩
  refine .inr ⟨hle hascii, ?_⟩
  rw [if_neg hascii]
  by_cases hcontinues : b < 0xC2
  · exact .inl (if_pos hcontinues)
  rw [if_neg hcontinues]
  -- The first byte has bits of the character in it, or the range of the next one begins higher.
  refine opens_ite (fun _ => ?two) fun htwo => opens_ite (fun _ => ?least3) fun hleast3 =>
    opens_ite (fun h => ?surrogates) fun _ => opens_ite (fun _ => ?three) fun hthree =>
    opens_ite (fun _ => ?least4) fun hleast4 => opens_ite (fun _ => ?four) fun _ =>
    opens_ite (fun h => ?greatest) fun _ => .inl rfl
  case two =>
    have hbits : 0xC2 ≤ b.toNat := hle hcontinues
    exact ⟨by decide, .inl (by omega)⟩
  case least3 => exact ⟨by decide, .inr (by decide)⟩
  case surrogates => exact h ▸ ⟨by decide, .inl (by decide)⟩
  case three =>
    have hbits : 0xE0 ≤ b.toNat := hle htwo
    have hmore : b.toNat ≠ 0xE0 := hne hleast3
    exact ⟨by decide, .inr ⟨by decide, by omega⟩⟩
  case least4 => exact ⟨by decide, .inr (by decide)⟩
  case four =>
    have hbits : 0xF0 ≤ b.toNat := hle hthree
    have hmore : b.toNat ≠ 0xF0 := hne hleast4
    exact ⟨by decide, .inr ⟨by decide, by omega⟩⟩
  case greatest => exact h ▸ ⟨by decide, .inl (by decide)⟩

/-- A byte of ASCII ends what was begun and is a character of its own; any other byte completes at
most characters that are not ASCII. -/
theorem step_cases {state : State} (h : state.BeyondAscii) (b : Byte) :
    (b.toNat < 0x80 ∧ step state b = (.idle, state.finish ++ [some (Char.ofNat b.toNat)])) ∨
      0x80 ≤ b.toNat ∧ (step state b).1.BeyondAscii ∧ Plain (written (step state b).2) ∧
        ((step state b).2 = [] → (step state b).1 ≠ .idle) := by
  cases state with
  | idle =>
    rcases start_cases b with hascii | ⟨hbyte, hnone | ⟨_, _, _, _, hinside, hnext⟩⟩
    · exact .inl hascii
    · rw [step, hnone]
      exact .inr ⟨hbyte, trivial, plain_written_none, nofun⟩
    · rw [step, hinside]
      exact .inr ⟨hbyte, hnext, plain_written_nil, fun _ => nofun⟩
  | inside due low high code =>
    obtain ⟨hlow, hleast⟩ := h
    rw [step]
    by_cases hrange : low ≤ b ∧ b ≤ high
    · rw [if_pos hrange]
      have hle : low.toNat ≤ b.toNat := UInt8.le_iff_toNat_le.1 hrange.1
      refine .inr ⟨Nat.le_trans hlow hle, ?_⟩
      cases due with
      | zero =>
        refine ⟨trivial, ?_, nofun⟩
        rw [written, List.flatMap_singleton, Option.getD_some]
        refine plain_utf8EncodeChar ((toNat_ofNat _).imp_left fun hcode => ?_)
        rw [hcode]
        omega
      | succ due => exact ⟨⟨by decide, .inl (by omega)⟩, plain_written_nil, fun _ => nofun⟩
    · rw [if_neg hrange]
      rcases start_cases b with ⟨hascii, hstart⟩ | ⟨hbyte, hnone | ⟨_, _, _, _, hinside, hnext⟩⟩
      · rw [hstart]
        exact .inl ⟨hascii, rfl⟩
      · rw [hnone]
        exact .inr ⟨hbyte, trivial, ⟨by decide +kernel, by decide +kernel⟩, nofun⟩
      · rw [hinside]
        exact .inr ⟨hbyte, hnext, plain_written_none, nofun⟩

/-! ## What comes out -/

theorem written_ascii {b : Byte} (h : b.toNat < 0x80) :
    written [some (Char.ofNat b.toNat)] = [b] := by
  have hvalid : b.toNat.isValidChar := .inl (by omega)
  have hcode : (Char.ofNat b.toNat).toNat = b.toNat := by
    unfold Char.ofNat
    rw [dif_pos hvalid]
    rfl
  rw [written, List.flatMap_singleton, Option.getD_some, utf8EncodeChar_of_ascii (by omega), hcode,
    UInt8.ofNat_toNat]

theorem plain_written_finish (state : State) : Plain (written state.finish) := by
  cases state with
  | idle => exact plain_written_nil
  | inside => exact plain_written_none

theorem head?_ne_lineFeed {a : Bytes} (hplain : Plain a) (hne : a ≠ []) (b : Bytes) :
    (a ++ b).head? ≠ some Byte.lineFeed := by
  cases a with
  | nil => exact absurd rfl hne
  | cons c a =>
    exact fun h => hplain.2 (Option.some.inj h ▸ List.mem_cons_self)

/-- The bytes that come out hold a line end where the bytes that went in do, and begin with a line
feed only if those do and nothing was begun before. -/
theorem lineEnd_infix_written_run {state : State} (h : state.BeyondAscii) (bytes : Bytes) :
    (Bytes.lineEnd <:+: written (run state [] bytes) ↔ Bytes.lineEnd <:+: bytes) ∧
      ((written (run state [] bytes)).head? = some Byte.lineFeed ↔
        state = .idle ∧ bytes.head? = some Byte.lineFeed) := by
  -- A line end may begin with the byte before, so the induction needs the first byte as well.
  induction bytes generalizing state with
  | nil =>
    have hplain := plain_written_finish state
    have hout : written (run state [] []) = written state.finish := by
      cases state <;> rfl
    rw [hout]
    refine ⟨iff_of_false (Bytes.not_lineEnd_infix_of_notMem hplain.1) Bytes.not_lineEnd_infix_nil,
      iff_of_false (fun hhead => hplain.2 (List.mem_of_head? hhead)) nofun⟩
  | cons b rest ih =>
    rw [run_cons, written_append]
    rcases step_cases h b with ⟨hascii, hstep⟩ | ⟨hbyte, hnext, hplain, hinside⟩
    · obtain ⟨hbreaks, hhead⟩ := ih beyondAscii_idle
      have hfinish := plain_written_finish state
      rw [hstep, written_append, written_ascii hascii, List.append_assoc, List.singleton_append]
      constructor
      · rw [Bytes.lineEnd_infix_append_left hfinish.1, Bytes.lineEnd_infix_cons,
          Bytes.lineEnd_infix_cons, hbreaks, hhead]
        simp
      · cases state with
        | idle => simp [State.finish, written]
        | inside due low high code =>
          refine iff_of_false (head?_ne_lineFeed hfinish ?_ _) nofun
          exact written_ne_nil (List.cons_ne_nil _ _)
    · obtain ⟨hbreaks, hhead⟩ := ih hnext
      have hreturn : b ≠ Byte.carriageReturn := fun heq => absurd (heq ▸ hbyte) (by decide)
      have hfeed : b ≠ Byte.lineFeed := fun heq => absurd (heq ▸ hbyte) (by decide)
      constructor
      · rw [Bytes.lineEnd_infix_append_left hplain.1, hbreaks, Bytes.lineEnd_infix_cons]
        exact (or_iff_right fun ⟨heq, _⟩ => hreturn heq).symm
      · refine iff_of_false ?_ fun ⟨_, heq⟩ => hfeed (Option.some.inj heq)
        by_cases hnothing : (step state b).2 = []
        · rw [hnothing]
          exact fun hfirst => hinside hnothing (hhead.1 hfirst).1
        · exact head?_ne_lineFeed hplain (written_ne_nil hnothing) _

/-- **Showing bytes as text neither makes a line end nor takes one away.** -/
theorem lineEnd_infix_decodeLossy_iff (bytes : Bytes) :
    Bytes.lineEnd <:+: encode (decodeLossy bytes) ↔ Bytes.lineEnd <:+: bytes := by
  have hencode : encode (decodeLossy bytes) = written (run .idle [] bytes) := by
    rw [encode, decodeLossy, String.toList_ofList, List.flatMap_map]
    rfl
  rw [hencode]
  exact (lineEnd_infix_written_run beyondAscii_idle bytes).1

end Utf8

end LogStore
