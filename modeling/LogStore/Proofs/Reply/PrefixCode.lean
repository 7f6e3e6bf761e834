import LogStore.Proofs.Reply.Framing

/-!
# Replies are a prefix code

Clients take the replies to pipelined requests off one stream, so the bytes of the stream have to
tell which replies were sent. They do, as long as no text holds a line end: no reply begins another
one, and from the bytes of several replies each of them is known (`Reply.flatMap_encode_inj`). The
proof reads two streams that are equal from the front. Their first lines are equal, and so the
kinds, numbers and texts in them; a number in a first line says how many bytes, or how many replies,
belong to the first reply, and behind these the two streams are equal again.
-/

namespace LogStore

namespace Utf8

theorem encode_inj {a b : String} (h : encode a = encode b) : a = b := by
  have hbytes : a.toList.utf8Encode = b.toList.utf8Encode := congrArg List.toByteArray h
  rwa [String.utf8Encode_toList, String.utf8Encode_toList, String.toByteArray_inj] at hbytes

/-- The byte of an ASCII character is written for that character alone. -/
theorem mem_of_mem_encode {c : Char} (hc : c.toNat < 0x80) {text : String}
    (h : UInt8.ofNat c.toNat ∈ encode text) : c ∈ text.toList := by
  have hbyte : ∀ d : Char, d.toNat < 0x80 → (UInt8.ofNat d.toNat).toNat = d.toNat := fun d hd =>
    UInt8.toNat_ofNat_of_lt' (Nat.lt_trans hd (by decide))
  obtain ⟨d, hd, hmem⟩ := List.mem_flatMap.1 h
  by_cases hascii : d.toNat < 0x80
  · rw [utf8EncodeChar_of_ascii hascii, List.mem_singleton] at hmem
    have hcode : c.toNat = d.toNat := by rw [← hbyte c hc, hmem, hbyte d hascii]
    rwa [Char.toNat_inj.1 hcode]
  · have hhigh := le_of_mem_utf8EncodeChar (Nat.not_lt.1 hascii) hmem
    rw [hbyte c hc] at hhigh
    exact absurd hc (Nat.not_lt.2 hhigh)

/-- A text of one line is written without a line end. -/
theorem not_lineEnd_infix_encode {text : String} (h : '\r' ∉ text.toList ∨ '\n' ∉ text.toList) :
    ¬ Bytes.lineEnd <:+: encode text := by
  intro hholds
  have hreturn : Byte.carriageReturn ∈ encode text := hholds.subset List.mem_cons_self
  have hfeed : Byte.lineFeed ∈ encode text :=
    hholds.subset (List.mem_cons_of_mem _ List.mem_cons_self)
  exact h.elim (fun hnone => hnone (mem_of_mem_encode (by decide) hreturn))
    fun hnone => hnone (mem_of_mem_encode (by decide) hfeed)

end Utf8

theorem Numeral.ofInt_inj {a b : Int} (h : ofInt a = ofInt b) : a = b := by
  have hread := readSigned?_ofInt a
  rw [h, readSigned?_ofInt] at hread
  exact (Option.some.inj hread).symm

namespace Reply

/-! ## The first line and what follows it -/

/-- The first byte. -/
def kind : Reply → Byte
  | .simple _ => Byte.plus
  | .error _ => Byte.minus
  | .integer _ => 58
  | .bulk _ | .null => Byte.dollar
  | .array _ => Byte.star

/-- The content of the first line, behind the first byte. -/
def label : Reply → Bytes
  | .simple text | .error text => Utf8.encode text
  | .integer value => Numeral.ofInt value
  | .bulk bytes => Numeral.ofInt bytes.length
  | .null => Numeral.ofInt (-1)
  | .array elements => Numeral.ofInt elements.length

/-- What the first line announces. -/
def body : Reply → Bytes
  | .bulk bytes => bytes ++ Bytes.lineEnd
  | .array elements => encodeAll elements
  | .simple _ | .error _ | .integer _ | .null => []

theorem encode_eq_line_append (reply : Reply) :
    reply.encode = line reply.kind reply.label ++ reply.body := by
  cases reply with
  | simple | error | integer | null => exact (List.append_nil _).symm
  | bulk bytes =>
    rw [encode, List.append_assoc]
    rfl
  | array elements =>
    rw [encode]
    rfl

theorem not_lineEnd_infix_label {reply : Reply} (h : reply.Unbroken) :
    ¬ Bytes.lineEnd <:+: reply.label := by
  have hnumber : ∀ value, ¬ Bytes.lineEnd <:+: Numeral.ofInt value := fun value =>
    Bytes.not_lineEnd_infix_of_notMem (Numeral.carriageReturn_notMem_ofInt value)
  cases reply with
  | simple | error => exact h
  | integer value => exact hnumber value
  | bulk bytes => exact hnumber bytes.length
  | null => exact hnumber (-1)
  | array elements => exact hnumber elements.length

/-- Equal streams have equal first lines, and go on equally behind them. -/
theorem line_append_inj {kind kind' : Byte} {a b x y : Bytes} (ha : ¬ Bytes.lineEnd <:+: a)
    (hb : ¬ Bytes.lineEnd <:+: b) (h : line kind a ++ x = line kind' b ++ y) :
    kind = kind' ∧ a = b ∧ x = y := by
  obtain ⟨hkind, hbehind⟩ := List.cons.inj h
  have hlines : a ++ Bytes.lineEnd ++ x = b ++ Bytes.lineEnd ++ y := hbehind
  have hsplit := Bytes.splitLineEnd?_append ha x
  rw [hlines, Bytes.splitLineEnd?_append hb y, Option.some.injEq, Prod.mk.injEq] at hsplit
  exact ⟨hkind, hsplit.1.symm, hsplit.2.symm⟩

/-! ## One reply in front -/

mutual

/-- The first reply of a stream is known from the stream, and so is what follows it. -/
theorem encode_append_inj {a b : Reply} (ha : a.Unbroken) (hb : b.Unbroken) {x y : Bytes}
    (h : a.encode ++ x = b.encode ++ y) : a = b ∧ x = y := by
  rw [encode_eq_line_append, encode_eq_line_append, List.append_assoc, List.append_assoc] at h
  obtain ⟨hkind, hlabel, hbehind⟩ :=
    line_append_inj (not_lineEnd_infix_label ha) (not_lineEnd_infix_label hb) h
  cases a with
  | simple text =>
    cases b with
    | simple other => exact ⟨congrArg simple (Utf8.encode_inj hlabel), hbehind⟩
    | _ => cases hkind
  | error text =>
    cases b with
    | error other => exact ⟨congrArg error (Utf8.encode_inj hlabel), hbehind⟩
    | _ => cases hkind
  | integer value =>
    cases b with
    | integer other => exact ⟨congrArg integer (Numeral.ofInt_inj hlabel), hbehind⟩
    | _ => cases hkind
  | bulk bytes =>
    cases b with
    | bulk other =>
      have hlength : bytes.length = other.length := Int.ofNat.inj (Numeral.ofInt_inj hlabel)
      rw [body, body, List.append_assoc, List.append_assoc] at hbehind
      obtain ⟨hbytes, hrest⟩ := List.append_inj hbehind hlength
      exact ⟨congrArg bulk hbytes, List.append_cancel_left hrest⟩
    | null =>
      -- Both begin with `$`, but a length is never negative.
      have hlength : (bytes.length : Int) = -1 := Numeral.ofInt_inj hlabel
      omega
    | _ => cases hkind
  | null =>
    cases b with
    | null => exact ⟨rfl, hbehind⟩
    | bulk other =>
      have hlength : -1 = (other.length : Int) := Numeral.ofInt_inj hlabel
      omega
    | _ => cases hkind
  | array elements =>
    cases b with
    | array others =>
      -- Behind equal counts the elements are compared one by one, with the rest of the stream.
      have hlength : elements.length = others.length := Int.ofNat.inj (Numeral.ofInt_inj hlabel)
      obtain ⟨helements, hrest⟩ := encodeAll_append_inj ha hb hlength hbehind
      exact ⟨congrArg array helements, hrest⟩
    | _ => cases hkind

theorem encodeAll_append_inj {a b : List Reply} (ha : AllUnbroken a) (hb : AllUnbroken b)
    (hlength : a.length = b.length) {x y : Bytes} (h : encodeAll a ++ x = encodeAll b ++ y) :
    a = b ∧ x = y := by
  cases a with
  | nil =>
    obtain rfl := List.eq_nil_of_length_eq_zero hlength.symm
    exact ⟨rfl, h⟩
  | cons reply a =>
    cases b with
    | nil => cases hlength
    | cons other b =>
      rw [encodeAll, encodeAll, List.append_assoc, List.append_assoc] at h
      obtain ⟨rfl, htail⟩ := encode_append_inj ha.1 hb.1 h
      obtain ⟨rfl, hrest⟩ := encodeAll_append_inj ha.2 hb.2 (Nat.succ.inj hlength) htail
      exact ⟨rfl, hrest⟩

end

/-! ## Several replies -/

/-- A stream begins another one just when its replies do. -/
theorem flatMap_encode_isPrefix_iff {a b : List Reply} (ha : ∀ reply ∈ a, reply.Unbroken)
    (hb : ∀ reply ∈ b, reply.Unbroken) :
    a.flatMap encode <+: b.flatMap encode ↔ a <+: b := by
  refine ⟨fun h => ?_, ?_⟩
  · induction a generalizing b with
    | nil => exact List.nil_prefix
    | cons reply a ih =>
      obtain ⟨hreply, haRest⟩ := List.forall_mem_cons.1 ha
      obtain ⟨rest, hrest⟩ := h
      rw [List.flatMap_cons, List.append_assoc] at hrest
      cases b with
      | nil => exact absurd (List.append_eq_nil_iff.1 hrest).1 reply.encode_ne_nil
      | cons other b =>
        obtain ⟨hother, hbRest⟩ := List.forall_mem_cons.1 hb
        obtain ⟨rfl, htail⟩ := encode_append_inj hreply hother hrest
        exact (List.prefix_cons_inj reply).2 (ih haRest hbRest ⟨rest, htail⟩)
  · rintro ⟨rest, rfl⟩
    exact ⟨rest.flatMap encode, List.flatMap_append.symm⟩

/-- **What was sent tells which replies were sent.** Streams of replies are equal only if the
replies are, and no reply begins another one. The texts are of one line
(`Utf8.not_lineEnd_infix_encode`), or at least hold no carriage return right before a line feed. -/
theorem flatMap_encode_inj {a b : List Reply} (ha : ∀ reply ∈ a, reply.Unbroken)
    (hb : ∀ reply ∈ b, reply.Unbroken) :
    (a.flatMap encode = b.flatMap encode ↔ a = b) ∧
      (a.flatMap encode <+: b.flatMap encode ↔ a <+: b) ∧
      ∀ x ∈ a, ∀ y ∈ b, x.encode <+: y.encode → x = y := by
  refine ⟨⟨fun h => ?_, congrArg _⟩, flatMap_encode_isPrefix_iff ha hb, ?_⟩
  · have hab : a <+: b := (flatMap_encode_isPrefix_iff ha hb).1 (h ▸ List.prefix_rfl)
    have hba : b <+: a := (flatMap_encode_isPrefix_iff hb ha).1 (h ▸ List.prefix_rfl)
    exact hab.eq_of_length_le hba.length_le
  · rintro x hx y hy ⟨rest, hrest⟩
    rw [← List.append_nil y.encode] at hrest
    exact (encode_append_inj (ha x hx) (hb y hy) hrest).1

/-- Two lists with the same replies at different depths, behind bytes that look like a reply. -/
theorem flatMap_encode_inj_nested :
    ¬ [array [bulk (Utf8.encode "$-1\r\n"), null], error "ERR a\nb"].flatMap encode <+:
      [array [bulk (Utf8.encode "$-1\r\n"), null, error "ERR a\nb"],
        integer (-1)].flatMap encode := by
  have htext : Unbroken (error "ERR a\nb") := Utf8.not_lineEnd_infix_encode (.inl (by decide))
  have hinj := flatMap_encode_inj
    (a := [array [bulk (Utf8.encode "$-1\r\n"), null], error "ERR a\nb"])
    (b := [array [bulk (Utf8.encode "$-1\r\n"), null, error "ERR a\nb"], integer (-1)])
    (List.forall_mem_cons.2 ⟨⟨trivial, trivial, trivial⟩, List.forall_mem_singleton.2 htext⟩)
    (List.forall_mem_cons.2
      ⟨⟨trivial, trivial, htext, trivial⟩, List.forall_mem_singleton.2 trivial⟩)
  intro h
  cases (hinj.2.1.1 h).eq_of_length rfl

end Reply

end LogStore
