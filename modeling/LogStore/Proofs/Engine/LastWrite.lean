import Mathlib.Data.List.Nodup
import LogStore.Proofs.Engine.Agreement

/-!
# The last write counts

With the standard commands the store is a map: a `get` answers with what the last write that names
its key has left. What counts as a write is read off the arguments of the requests alone
(`Request.Sets`, `Request.Deletes`), without a look at the engine. All other requests, those with
the wrong number of arguments and those with unknown names among them, leave every key as it is
(`Engine.get?_execute_of_keeps`), so that they can stand anywhere in a history
(`Engine.outcome_get_eq_lastWrite`).
-/

namespace LogStore

/-! ## What a request asks for -/

namespace Request

/-- The request names the operation, in whatever case, and gives it these arguments. -/
def Calls (request : Request) (operation : Operation) (arguments : List Bytes) : Prop :=
  ∃ name : Bytes, request.arguments = name :: arguments ∧
    name.toLower = Utf8.encode operation.name

def Gets (request : Request) (key : Bytes) : Prop :=
  request.Calls .get [key]

def Sets (request : Request) (key value : Bytes) : Prop :=
  request.Calls .set [key, value]

/-- The key may be any of those that are to be removed, and may be among them more than once. -/
def Deletes (request : Request) (key : Bytes) : Prop :=
  ∃ keys, request.Calls .del keys ∧ key ∈ keys

/-- The request is no write that names the key. -/
def Keeps (request : Request) (key : Bytes) : Prop :=
  (∀ value, ¬ request.Sets key value) ∧ ¬ request.Deletes key

end Request

/-! ## The standard commands -/

namespace Vocabulary

theorem mem_entries_of_lookup {vocabulary : Vocabulary} {name : Bytes} {entry : Entry}
    (h : vocabulary.lookup name = some entry) :
    entry ∈ vocabulary.entries ∧ entry.key = name.toLower := by
  have hkey := List.find?_some h
  exact ⟨List.mem_of_find?_eq_some h, beq_iff_eq.1 hkey⟩

theorem lookup_eq_some_iff {vocabulary : Vocabulary} {name : Bytes} {entry : Entry} :
    vocabulary.lookup name = some entry ↔
      entry ∈ vocabulary.entries ∧ entry.key = name.toLower := by
  constructor
  · exact mem_entries_of_lookup
  · rintro ⟨hentry, hkey⟩
    have hdistinct : (vocabulary.entries.map Entry.key).Nodup :=
      List.pairwise_map.2 vocabulary.distinct
    cases hfound : vocabulary.lookup name with
    | none => exact absurd (beq_iff_eq.2 hkey) (List.find?_eq_none.1 hfound entry hentry)
    | some other =>
      obtain ⟨hother, hsame⟩ := mem_entries_of_lookup hfound
      rw [List.inj_on_of_nodup_map hdistinct hother hentry (hsame.trans hkey.symm)]

theorem entries_standard :
    standard.entries = [⟨"del", .del⟩, ⟨"set", .set⟩, ⟨"get", .get⟩] := by
  decide +kernel

theorem mem_entries_standard_iff {entry : Entry} :
    entry ∈ standard.entries ↔ entry.name = entry.operation.name := by
  obtain ⟨name, operation⟩ := entry
  rw [entries_standard]
  constructor
  · intro h
    simp only [List.mem_cons, List.not_mem_nil, or_false, Entry.mk.injEq] at h
    rcases h with ⟨rfl, rfl⟩ | ⟨rfl, rfl⟩ | ⟨rfl, rfl⟩ <;> rfl
  · intro h
    cases operation <;> cases h <;> simp

/-- Every operation is known in its own name, and nothing else is known. -/
theorem lookup_standard_eq_some_iff {name : Bytes} {entry : Entry} :
    standard.lookup name = some entry ↔
      entry.name = entry.operation.name ∧ name.toLower = Utf8.encode entry.operation.name := by
  have hlower : ∀ operation : Operation,
      (Utf8.encode operation.name).toLower = Utf8.encode operation.name := by
    rintro (_ | _ | _) <;> decide +kernel
  rw [lookup_eq_some_iff, mem_entries_standard_iff]
  refine and_congr_right fun hname => ?_
  rw [Entry.key, hname, hlower]
  exact eq_comm

end Vocabulary

namespace Engine

variable {engine : Engine} {request : Request} {key value : Bytes}

theorem ordinary_of_calls {name : Bytes} {operation : Operation}
    (h : name.toLower = Utf8.encode operation.name) : Ordinary name := by
  rw [Ordinary, h]
  cases operation <;> decide +kernel

/-- An operation that takes its arguments is carried out when it is called. -/
theorem execute_of_calls (hstandard : engine.vocabulary = .standard) {operation : Operation}
    {arguments : List Bytes} {reply : Reply} {next : Keyspace}
    (hcalls : request.Calls operation arguments)
    (hrun : operation.run engine.keyspace arguments = (.ok reply, next)) :
    (engine.execute request).1 = .reply reply ∧ (engine.execute request).2.keyspace = next := by
  obtain ⟨name, harguments, hname⟩ := hcalls
  have hordinary := ordinary_of_calls hname
  have hlookup : engine.vocabulary.lookup name = some ⟨operation.name, operation⟩ := by
    rw [hstandard]
    exact Vocabulary.lookup_standard_eq_some_iff.2 ⟨rfl, hname⟩
  cases haccess : operation.access with
  | read =>
    cases Operation.keyspace_eq_of_read haccess hrun
    rw [(Executes.read harguments hordinary hlookup haccess hrun).execute_eq]
    exact ⟨rfl, rfl⟩
  | write =>
    rw [(Executes.write harguments hordinary hlookup haccess hrun).execute_eq]
    exact ⟨rfl, rfl⟩

/-- Only what is called as `set` or `del` changes the keyspace, and it does so by its arguments. -/
theorem keyspace_execute_cases (hstandard : engine.vocabulary = .standard) (request : Request) :
    (∃ key value, request.Sets key value ∧
        (engine.execute request).2.keyspace = engine.keyspace.insert key value) ∨
      (∃ keys, request.Calls .del keys ∧
        (engine.execute request).2.keyspace = (engine.keyspace.eraseAll keys).2) ∨
      (engine.execute request).2.keyspace = engine.keyspace := by
  have hexecutes := engine.executes request
  generalize engine.execute request = result at hexecutes
  cases hexecutes with
  | silent | quit | ping | unknown | refused | read => exact .inr (.inr rfl)
  | @write name arguments entry reply keyspace harguments _ hlookup haccess hrun =>
    rw [hstandard] at hlookup
    have hcalls : request.Calls entry.operation arguments :=
      ⟨name, harguments, (Vocabulary.lookup_standard_eq_some_iff.1 hlookup).2⟩
    cases hoperation : entry.operation with
    | get =>
      rw [hoperation] at haccess
      cases haccess
    | set =>
      rw [hoperation] at hrun hcalls
      match arguments, hrun, hcalls with
      | [key, value], hrun, hcalls =>
        cases hrun
        exact .inl ⟨key, value, hcalls, rfl⟩
    | del =>
      rw [hoperation] at hrun hcalls
      match arguments, hrun, hcalls with
      | key :: keys, hrun, hcalls =>
        cases hrun
        exact .inr (.inl ⟨key :: keys, hcalls, rfl⟩)

/-! ## One request -/

section Step

variable (hstandard : engine.vocabulary = .standard)
include hstandard

theorem outcome_execute_of_gets (h : request.Gets key) :
    (engine.execute request).1 = .reply ((engine.keyspace.get? key).elim .null .bulk) := by
  cases hvalue : engine.keyspace.get? key with
  | none =>
    have hrun : Operation.run .get engine.keyspace [key] = (.ok .null, engine.keyspace) := by
      simp only [Operation.run, hvalue]
    exact (execute_of_calls hstandard h hrun).1
  | some value =>
    have hrun : Operation.run .get engine.keyspace [key] = (.ok (.bulk value), engine.keyspace) := by
      simp only [Operation.run, hvalue]
    exact (execute_of_calls hstandard h hrun).1

theorem get?_execute_of_sets (h : request.Sets key value) :
    (engine.execute request).2.keyspace.get? key = some value := by
  rw [(execute_of_calls hstandard h rfl).2, Keyspace.get?_insert, if_pos rfl]

theorem get?_execute_of_deletes (h : request.Deletes key) :
    (engine.execute request).2.keyspace.get? key = none := by
  obtain ⟨keys, hcalls, hkey⟩ := h
  cases keys with
  | nil => cases hkey
  | cons first keys =>
    let erased := engine.keyspace.eraseAll (first :: keys)
    have hrun : Operation.run .del engine.keyspace (first :: keys) =
        (.ok (.integer erased.1), erased.2) := rfl
    rw [(execute_of_calls hstandard hcalls hrun).2, Keyspace.get?_eraseAll, if_pos hkey]

theorem get?_execute_of_keeps (h : request.Keeps key) :
    (engine.execute request).2.keyspace.get? key = engine.keyspace.get? key := by
  obtain ⟨hsets, hdeletes⟩ := h
  rcases keyspace_execute_cases hstandard request with
    ⟨other, value, hother, hkeyspace⟩ | ⟨keys, hcalls, hkeyspace⟩ | hkeyspace
  · rw [hkeyspace, Keyspace.get?_insert, if_neg]
    rintro rfl
    exact hsets value hother
  · rw [hkeyspace, Keyspace.get?_eraseAll, if_neg]
    intro hkey
    exact hdeletes ⟨keys, hcalls, hkey⟩
  · rw [hkeyspace]

theorem get?_execute_eq_none (hnone : engine.keyspace.get? key = none)
    (hsets : ∀ value, ¬ request.Sets key value) :
    (engine.execute request).2.keyspace.get? key = none := by
  by_cases hdeletes : request.Deletes key
  · exact get?_execute_of_deletes hstandard hdeletes
  · exact (get?_execute_of_keeps hstandard ⟨hsets, hdeletes⟩).trans hnone

end Step

/-! ## A history of requests -/

theorem executeAll_append (engine : Engine) (before after : List Request) :
    engine.executeAll (before ++ after) =
      ((engine.executeAll before).1 ++ ((engine.executeAll before).2.executeAll after).1,
        ((engine.executeAll before).2.executeAll after).2) := by
  induction before generalizing engine with
  | nil => rfl
  | cons request before ih => rw [List.cons_append, executeAll, ih, executeAll, List.cons_append]

theorem length_executeAll (engine : Engine) (requests : List Request) :
    (engine.executeAll requests).1.length = requests.length := by
  induction requests generalizing engine with
  | nil => rfl
  | cons request requests ih => rw [executeAll, List.length_cons, ih, List.length_cons]

theorem vocabulary_executeAll (engine : Engine) (requests : List Request) :
    (engine.executeAll requests).2.vocabulary = engine.vocabulary := by
  induction requests generalizing engine with
  | nil => rfl
  | cons request requests ih => rw [executeAll, ih, vocabulary_execute]

/-- What a request comes to is decided by the requests before it. -/
theorem getElem?_executeAll (engine : Engine) (history : List Request) (request : Request)
    (later : List Request) :
    (engine.executeAll (history ++ request :: later)).1[history.length]? =
      some (request, ((engine.executeAll history).2.execute request).1) := by
  have hlength := length_executeAll engine history
  rw [executeAll_append, List.getElem?_append_right (Nat.le_of_eq hlength), hlength, Nat.sub_self]
  rfl

theorem get?_executeAll_of_keeps (hstandard : engine.vocabulary = .standard)
    {requests : List Request} (h : ∀ request ∈ requests, request.Keeps key) :
    (engine.executeAll requests).2.keyspace.get? key = engine.keyspace.get? key := by
  induction requests generalizing engine with
  | nil => rfl
  | cons request requests ih =>
    obtain ⟨hrequest, hrequests⟩ := List.forall_mem_cons.1 h
    have hnext := (vocabulary_execute engine request).trans hstandard
    rw [executeAll, ih hnext hrequests, get?_execute_of_keeps hstandard hrequest]

theorem get?_executeAll_eq_none (hstandard : engine.vocabulary = .standard)
    (hnone : engine.keyspace.get? key = none) {requests : List Request}
    (h : ∀ request ∈ requests, ∀ value, ¬ request.Sets key value) :
    (engine.executeAll requests).2.keyspace.get? key = none := by
  induction requests generalizing engine with
  | nil => exact hnone
  | cons request requests ih =>
    obtain ⟨hrequest, hrequests⟩ := List.forall_mem_cons.1 h
    have hnext := (vocabulary_execute engine request).trans hstandard
    exact ih hnext (get?_execute_eq_none hstandard hnone hrequest) hrequests

/-- **The last write counts.** A `get` anywhere in a sequence of requests is answered by what came
before it: with the value of the last `set` of its key, if no `del` of the key stands between; with
nothing, if a `del` of the key stands behind all `set`s of it; and with what the keyspace had in the
beginning, if neither names the key. -/
theorem outcome_get_eq_lastWrite (hstandard : engine.vocabulary = .standard) {get : Request}
    (hget : get.Gets key) (history later : List Request) :
    let answer := (engine.executeAll (history ++ get :: later)).1[history.length]?
    (∀ before set after value, history = before ++ set :: after → set.Sets key value →
        (∀ request ∈ after, request.Keeps key) →
        answer = some (get, .reply (.bulk value))) ∧
      (∀ before del after, history = before ++ del :: after → del.Deletes key →
        (∀ request ∈ after, ∀ value, ¬ request.Sets key value) →
        answer = some (get, .reply .null)) ∧
      ((∀ request ∈ history, request.Keeps key) →
        answer = some (get, .reply ((engine.keyspace.get? key).elim .null .bulk))) := by
  intro answer
  have hanswer : answer = some (get,
      .reply (((engine.executeAll history).2.keyspace.get? key).elim .null .bulk)) := by
    have hend := (vocabulary_executeAll engine history).trans hstandard
    rw [← outcome_execute_of_gets hend hget]
    exact getElem?_executeAll engine history get later
  rw [hanswer]
  refine ⟨?_, ?_, ?_⟩
  · rintro before set after value rfl hset hafter
    have hbefore := (vocabulary_executeAll engine before).trans hstandard
    have hbehind := (vocabulary_execute _ set).trans hbefore
    rw [executeAll_append, executeAll, get?_executeAll_of_keeps hbehind hafter,
      get?_execute_of_sets hbefore hset]
    rfl
  · rintro before del after rfl hdel hafter
    have hbefore := (vocabulary_executeAll engine before).trans hstandard
    have hbehind := (vocabulary_execute _ del).trans hbefore
    have hnone := get?_execute_of_deletes hbefore hdel
    rw [executeAll_append, executeAll, get?_executeAll_eq_none hbehind hnone hafter]
    rfl
  · intro hkeeps
    rw [get?_executeAll_of_keeps hstandard hkeeps]

/-- A history with two values for `a`, a removal that names `b` twice and another key that is not
there, and with what counts for nothing: the wrong number of arguments, an unknown name, a request
for nothing, signs of life and leave-takings. -/
theorem outcome_get_eq_lastWrite_mixed :
    let engine : Engine :=
      { settings := {}, vocabulary := .standard, log := ⟨"log", .file [], .no, false⟩,
        keyspace := .ofList [(Utf8.encode "c", Utf8.encode "3"), (Utf8.encode "b", [])] }
    let request (words : List String) : Request :=
      ⟨[], words.map Utf8.encode, .multibulk, true⟩
    let history : List Request :=
      [request ["SET", "a", "1"], request ["Set", "b", "2"], request ["sEt", "a", "\r\n"],
        request ["set", "a"], request ["Del", "b", "a2", "b"], request ["DEL"], request ["quit"],
        request ["PING", "a"], request ["delete", "a"], request []]
    let answer (key : String) :=
      (engine.executeAll (history ++ [request ["GeT", key]])).1[10]?
    answer "a" = some (request ["GeT", "a"], .reply (.bulk Bytes.lineEnd)) ∧
      answer "b" = some (request ["GeT", "b"], .reply .null) ∧
      answer "c" = some (request ["GeT", "c"], .reply (.bulk (Utf8.encode "3"))) := by
  intro engine request history answer
  have hgets : ∀ key : String, (request ["GeT", key]).Gets (Utf8.encode key) := fun key =>
    ⟨Utf8.encode "GeT", rfl, by decide +kernel⟩
  refine ⟨?_, ?_, ?_⟩
  · refine (outcome_get_eq_lastWrite rfl (hgets "a") history []).1 (history.take 2) _
      (history.drop 3) Bytes.lineEnd rfl ⟨Utf8.encode "sEt", rfl, by decide +kernel⟩ ?_
    simp +decide [history, request, Request.Keeps, Request.Sets, Request.Deletes, Request.Calls]
  · refine (outcome_get_eq_lastWrite rfl (hgets "b") history []).2.1 (history.take 4) _
      (history.drop 5) rfl ⟨_, ⟨Utf8.encode "Del", rfl, by decide +kernel⟩, by decide +kernel⟩ ?_
    simp +decide [history, request, Request.Sets, Request.Calls]
  · refine (outcome_get_eq_lastWrite rfl (hgets "c") history []).2.2 ?_
    simp +decide [history, request, Request.Keeps, Request.Sets, Request.Deletes, Request.Calls]

end Engine

end LogStore
