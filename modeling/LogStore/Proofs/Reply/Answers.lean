import LogStore.Proofs.Engine.Course
import LogStore.Proofs.Reply.Framing

/-!
# What can be forged

Most texts of replies are fixed. Two hold bytes of the client: a fault repeats the character that it
has found, and a refusal repeats the name of the command that is not known. One character is no line
end, but a name may hold one, and it comes out of the conversion to text as it went in. So the reply
to a request is one value, unless the request forges it (`Engine.unbroken_execute_iff`).
-/

namespace LogStore

/-- The command that the request names is not known, and its name holds a line end. -/
def Request.Forges (request : Request) (vocabulary : Vocabulary) : Prop :=
  ∃ name arguments, request.arguments = name :: arguments ∧ vocabulary.lookup name = none ∧
    Bytes.lineEnd <:+: name

/-- A failure whose message quotes something is broken only by what it quotes. -/
theorem Reply.unbroken_failure_iff {before after : String}
    (hbefore : Byte.carriageReturn ∉ Utf8.encode ("ERR " ++ before))
    (hafter : Byte.lineFeed ∉ Utf8.encode after) (quoted : String) :
    (failure (before ++ quoted ++ after)).Unbroken ↔
      ¬ Bytes.lineEnd <:+: Utf8.encode quoted := by
  have htext : Utf8.encode ("ERR " ++ (before ++ quoted ++ after)) =
      Utf8.encode ("ERR " ++ before) ++ (Utf8.encode quoted ++ Utf8.encode after) := by
    simp only [Utf8.encode_append, List.append_assoc]
  rw [failure, Unbroken, htext, Bytes.lineEnd_infix_append_left hbefore,
    Bytes.lineEnd_infix_append_right hafter]

theorem Fault.unbroken_reply (fault : Fault) : fault.reply.Unbroken := by
  have hfixed : ∀ text, Byte.carriageReturn ∉ Utf8.encode ("ERR " ++ text) →
      (Reply.failure text).Unbroken := fun _ h => Bytes.not_lineEnd_infix_of_notMem h
  cases fault with
  | notBulk found =>
    refine (Reply.unbroken_failure_iff (by decide +kernel) (by decide +kernel) found.toString).2 ?_
    have hencode : Utf8.encode found.toString = String.utf8EncodeChar found := by
      simp [Utf8.encode, Char.toString]
    rw [hencode]
    exact Utf8.not_lineEnd_infix_utf8EncodeChar found
  | badCount => exact hfixed _ (by decide +kernel)
  | badLength => exact hfixed _ (by decide +kernel)
  | badTerminator => exact hfixed _ (by decide +kernel)
  | unbalancedQuotes => exact hfixed _ (by decide +kernel)
  | lineTooLong => exact hfixed _ (by decide +kernel)

theorem Refusal.unbroken_unknownName_iff (name : Bytes) :
    (Refusal.unknownName (Utf8.decodeLossy name)).reply.Unbroken ↔ ¬ Bytes.lineEnd <:+: name :=
  (Reply.unbroken_failure_iff (by decide +kernel) (by decide +kernel) _).trans
    (not_congr (Utf8.lineEnd_infix_decodeLossy_iff name))

theorem Refusal.unbroken_wrongArity (operation : Operation) :
    (Refusal.wrongArity operation).reply.Unbroken := by
  refine Bytes.not_lineEnd_infix_of_notMem ?_
  cases operation <;> decide +kernel

/-- What an operation answers is no array and holds no line end in a text. -/
theorem Operation.reply_of_run {operation : Operation} {keyspace next : Keyspace}
    {arguments : List Bytes} {reply : Reply}
    (h : operation.run keyspace arguments = (.ok reply, next)) :
    reply.isFlat ∧ reply.Unbroken := by
  unfold run at h
  split at h
  · split at h
    · cases h
      exact ⟨rfl, trivial⟩
    · cases h
      exact ⟨rfl, trivial⟩
  · cases h
    exact ⟨rfl, Bytes.not_lineEnd_infix_of_notMem (by decide +kernel)⟩
  · cases h
    exact ⟨rfl, trivial⟩
  · cases h

namespace Engine

/-- A name that is `quit` or `ping`, case aside, holds no line end. -/
theorem not_lineEnd_infix_of_toLower_eq {name known : Bytes} (h : name.toLower = known)
    (hknown : Byte.carriageReturn ∉ known) : ¬ Bytes.lineEnd <:+: name := by
  intro hholds
  have hmem : Byte.carriageReturn ∈ name := hholds.subset List.mem_cons_self
  have hlower : Byte.toLower Byte.carriageReturn ∈ name.toLower := List.mem_map_of_mem hmem
  rw [h] at hlower
  exact hknown hlower

theorem not_forges_of_name {request : Request} {name : Bytes} {arguments : List Bytes}
    (harguments : request.arguments = name :: arguments) {vocabulary : Vocabulary}
    (h : vocabulary.lookup name = none → ¬ Bytes.lineEnd <:+: name) :
    ¬ request.Forges vocabulary := by
  rintro ⟨other, _, hother, hunknown, hholds⟩
  obtain ⟨rfl, _⟩ := List.cons.inj (harguments.symm.trans hother)
  exact h hunknown hholds

theorem not_forges_of_lookup {request : Request} {name : Bytes} {arguments : List Bytes}
    (harguments : request.arguments = name :: arguments) {vocabulary : Vocabulary}
    {entry : Vocabulary.Entry} (hlookup : vocabulary.lookup name = some entry) :
    ¬ request.Forges vocabulary :=
  not_forges_of_name harguments fun hunknown => nomatch hlookup.symm.trans hunknown

theorem not_forges_of_quit {engine : Engine} {request : Request}
    (h : (engine.execute request).1 = .quit) (vocabulary : Vocabulary) :
    ¬ request.Forges vocabulary := by
  have hquit : request.isQuit := by
    cases hquit : request.isQuit with
    | true => rfl
    | false => exact absurd h (outcome_ne_quit hquit engine)
  unfold Request.isQuit at hquit
  split at hquit
  · cases hquit
  · rename_i harguments
    refine not_forges_of_name harguments fun _ => ?_
    exact not_lineEnd_infix_of_toLower_eq (beq_iff_eq.1 hquit) (by decide +kernel)

/-- **What a request is answered is one value, unless the request forges it.** -/
theorem unbroken_execute_iff {engine : Engine} {request : Request} {reply : Reply}
    (h : (engine.execute request).1 = .reply reply) :
    reply.isFlat ∧ (reply.Unbroken ↔ ¬ request.Forges engine.vocabulary) := by
  have hexecutes := engine.executes request
  generalize engine.execute request = result at h hexecutes
  cases hexecutes with
  | silent | quit => cases h
  | ping harguments hping =>
    cases h
    refine ⟨rfl, iff_of_true ?_ (not_forges_of_name harguments fun _ => ?_)⟩
    · exact Bytes.not_lineEnd_infix_of_notMem (by decide +kernel)
    · exact not_lineEnd_infix_of_toLower_eq hping (by decide +kernel)
  | unknown harguments _ hunknown =>
    cases h
    refine ⟨rfl, (Refusal.unbroken_unknownName_iff _).trans ⟨fun hplain => ?_, ?_⟩⟩
    · exact not_forges_of_name harguments fun _ => hplain
    · exact fun hfaithful hholds => hfaithful ⟨_, _, harguments, hunknown, hholds⟩
  | refused harguments _ hlookup hrun =>
    cases h
    rw [(Operation.of_run_eq_error hrun).1]
    exact ⟨rfl, iff_of_true (Refusal.unbroken_wrongArity _)
      (not_forges_of_lookup harguments hlookup)⟩
  | read harguments _ hlookup _ hrun | write harguments _ hlookup _ hrun =>
    cases h
    obtain ⟨hflat, hunbroken⟩ := Operation.reply_of_run hrun
    exact ⟨hflat, iff_of_true hunbroken (not_forges_of_lookup harguments hlookup)⟩

end Engine

end LogStore
