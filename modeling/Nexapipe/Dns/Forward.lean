import Nexapipe.Dns.Answers
import Nexapipe.Lib.Entries
import Nexapipe.Lib.Run

/-!
# Forwarded queries and the answer cache

A query for a name the client does not proxy is asked of the real resolvers. Many queries are out
at once: each resolver has one socket, gives every query an id of its own, and hands a datagram
to the query that waits under its id, if it answers that query's question. What comes back is
kept, and a later query for the same name, type and class is answered from there with its own
id and with what is left of each record's time.

An answer fresh from a resolver has been compared with the query it goes to. An answer from the
cache has not: it is found by the text of the name, which is the labels with dots between them and
lowered, and two different questions can have one text.
-/

namespace Nexapipe.Dns

open List Entries

open Slice

/-! ### The cache -/

structure CacheKey where
  name : List Char
  qtype : Nat
  qclass : Nat
  resolvers : String
deriving DecidableEq

structure CachedAnswer where
  response : List UInt8
  expiresAt : Nat

def second : Nat := 1000000000

def dnsCacheMaxEntries : Nat := 512

def withIdOf (query response : List UInt8) : List UInt8 :=
  if 2 ≤ response.length ∧ 2 ≤ query.length then overwrite response 0 (query.take 2)
  else response

def cachedAnswerAt (cache : Entries CacheKey CachedAnswer) (key : CacheKey) (query : List UInt8)
    (now : Nat) : Option (List UInt8) :=
  match cache.lookup key with
  | none => none
  | some entry =>
    if entry.expiresAt ≤ now then none
    else
      let remaining := (entry.expiresAt - now) / second
      some (setAnswerTtls (withIdOf query entry.response) (min remaining (2 ^ 32 - 1)))

/-- Keeps an answer for as long as its own records say it is good. A full table is swept, and
    emptied if that makes no room. -/
def rememberAnswer (cache : Entries CacheKey CachedAnswer) (key : CacheKey)
    (response : List UInt8) (now : Nat) : Entries CacheKey CachedAnswer :=
  match answerTtl response with
  | none => cache
  | some ttl =>
    let swept : Entries CacheKey CachedAnswer :=
      if dnsCacheMaxEntries ≤ cache.length then
        let kept := cache.filter fun entry => now < entry.2.expiresAt
        if dnsCacheMaxEntries ≤ kept.length then [] else kept
      else cache
    swept.set key ⟨response, now + ttl * second⟩

/-! ### The resolvers -/

/-- A query that waits for its answer: the id it came with, the query itself, its number, and
    the task that is to have the answer. -/
structure Pending where
  originalId : List UInt8
  question : List UInt8
  token : Nat
  reply : Nat
deriving DecidableEq

structure Resolver where
  waiting : Entries Nat Pending
  nextId : Nat
  nextToken : Nat

/-- The first id from here on that is not out, and the one after it. It is looked for until one
    is found, which is after all ids at the latest or never. -/
def freeId (waiting : Entries Nat Pending) : Nat → Nat → Option (Nat × Nat)
  | 0, _ => none
  | turns + 1, id =>
    let next := (id + 1) % 2 ^ 16
    if (waiting.lookup id).isSome then freeId waiting turns next else some (id, next)

def Resolver.register (r : Resolver) (query : List UInt8) (task : Nat) :
    Option (Nat × Nat × Resolver) :=
  match freeId r.waiting (2 ^ 16) r.nextId with
  | none => none
  | some (id, nextId) =>
    some (id, r.nextToken, ⟨r.waiting.set id ⟨query.take 2, query, r.nextToken, task⟩, nextId,
      (r.nextToken + 1) % 2 ^ 64⟩)

/-- The query a datagram is for and the answer it is given, with its own id back in it; nothing
    where the datagram is dropped. -/
def Resolver.deliver (r : Resolver) (answer : List UInt8) : Option (Nat × List UInt8 × Resolver) :=
  if answer.length < 12 then none
  else if answer.getD 2 0 &&& 0x80 = 0 then none
  else
    let id := Bytes.ofBe (slice answer 0 2)
    match r.waiting.lookup id with
    | none => none
    | some pending =>
      if !answersTheQuestion answer pending.question then none
      else some (pending.reply, overwrite answer 0 pending.originalId,
        { r with waiting := r.waiting.remove id })

def Resolver.release (r : Resolver) (id token : Nat) : Resolver :=
  if (r.waiting.lookup id).any fun pending => pending.token = token then
    { r with waiting := r.waiting.remove id }
  else r

/-! ### The system -/

/-- A query on its way: its key, the resolvers that are left to ask, the one that is being
    asked with the id and the number it was given there, and the answer handed to it. -/
structure Asking where
  query : List UInt8
  key : CacheKey
  chain : List Nat
  resolver : Nat
  id : Nat
  token : Nat
  reply : Option (List UInt8)

structure Returned where
  query : List UInt8
  payload : List UInt8
  time : Nat
  fresh : Bool
deriving DecidableEq

structure Forwarder where
  clock : Nat
  cache : Entries CacheKey CachedAnswer
  resolvers : Entries Nat Resolver
  tasks : Entries Nat Asking
  nextTask : Nat
  returned : List Returned

def Forwarder.start : Forwarder := ⟨0, [], [], [], 0, []⟩

def Forwarder.resolver (s : Forwarder) (n : Nat) : Resolver :=
  (s.resolvers.lookup n).getD ⟨[], 0, 0⟩

inductive Event where
  | tick (nanoseconds : Nat)
  | ask (query : List UInt8) (chain : List Nat) (scope : String)
  | datagram (resolver : Nat) (answer : List UInt8)
  | wake (task : Nat)
  | timeout (task : Nat)
  | giveUp (task : Nat)

def keyOf (lower : List Char → List Char) (q : Query) (scope : String) : CacheKey :=
  ⟨lower q.domain, q.qtype, q.qclass, scope⟩

def Forwarder.askNext (s : Forwarder) (task : Nat) (query : List UInt8) (key : CacheKey) :
    List Nat → Option Forwarder
  | [] => some { s with tasks := s.tasks.remove task }
  | n :: chain =>
    match (s.resolver n).register query task with
    | none => none
    | some (id, token, r) => some { s with
        resolvers := s.resolvers.set n r
        tasks := s.tasks.set task ⟨query, key, chain, n, id, token, none⟩ }

def Forwarder.release (s : Forwarder) (t : Asking) : Forwarder :=
  { s with resolvers := s.resolvers.set t.resolver ((s.resolver t.resolver).release t.id t.token) }

def step (lower : List Char → List Char) (s : Forwarder) : Event → Option Forwarder
  | .tick nanoseconds => some { s with clock := s.clock + nanoseconds }
  | .ask query chain scope =>
    match parseQuery query with
    | none => none
    | some q =>
      let key := keyOf lower q scope
      match cachedAnswerAt s.cache key query s.clock with
      | some payload =>
        some { s with returned := s.returned ++ [⟨query, payload, s.clock, false⟩] }
      | none => { s with nextTask := s.nextTask + 1 }.askNext s.nextTask query key chain
  | .datagram n answer =>
    match (s.resolver n).deliver answer with
    | none => some s
    | some (task, answer, r) =>
      let s := { s with resolvers := s.resolvers.set n r }
      match s.tasks.lookup task with
      | none => some s
      | some t => some { s with tasks := s.tasks.set task { t with reply := some answer } }
  | .wake task =>
    match s.tasks.lookup task with
    | none => none
    | some t =>
      match t.reply with
      | none => none
      | some answer =>
        let s := s.release t
        some { s with
          cache := rememberAnswer s.cache t.key answer s.clock
          tasks := s.tasks.remove task
          returned := s.returned ++ [⟨t.query, answer, s.clock, true⟩] }
  | .timeout task =>
    match s.tasks.lookup task with
    | none => none
    | some t => (s.release t).askNext task t.query t.key t.chain
  | .giveUp task =>
    match s.tasks.lookup task with
    | none => none
    | some t =>
      let s := s.release t
      some { s with tasks := s.tasks.remove task }

/-! ### What an answer carries -/

def sameQuestion (query other : List UInt8) : Bool :=
  match questionOf query, questionOf other with
  | some (name, rest), some (otherName, otherRest) =>
    eqIgnoreAsciiCase name otherName && rest = otherRest
  | _, _ => false

variable {answer query : List UInt8}

theorem answersTheQuestion_of_same {other : List UInt8} (h : answersTheQuestion answer query = true)
    (hsame : sameQuestion query other = true) : answersTheQuestion answer other = true := by
  rcases answersTheQuestion_iff.mp h with ⟨hl, hqr, answerName, name, rest, hans, hq,
    hn⟩
  rw [sameQuestion, hq] at hsame
  rcases hoth : questionOf other with _ | question
  · simp [hoth] at hsame
  rw [hoth] at hsame
  simp only [Bool.and_eq_true, decide_eq_true_eq] at hsame
  refine answersTheQuestion_iff.mpr ⟨hl, hqr, answerName, question.1, rest, hans, ?_, ?_⟩
  · rw [hoth, hsame.2]
  · rw [eqIgnoreAsciiCase, decide_eq_true_eq] at *
    exact hn.trans hsame.1

def Matches (query payload : List UInt8) : Prop :=
  slice payload 0 2 = slice query 0 2 ∧ answersTheQuestion payload query = true

theorem matches_overwrite (h : answersTheQuestion answer query = true) (hq : 2 ≤ query.length) :
    Matches query (overwrite answer 0 (query.take 2)) := by
  have htwo : (query.take 2).length = 2 := by
    rw [length_take]
    omega
  rcases answersTheQuestion_iff.mp h with ⟨hlo, -, _, _, _, hans, -, -⟩
  rcases questionOf_eq_some.mp hans with ⟨-, -, last, hl, hf, -⟩
  have hroom : 0 + (query.take 2).length ≤ answer.length := by omega
  constructor
  · have hs := slice_overwrite hroom
    rw [htwo] at hs
    exact hs
  · refine answersTheQuestion_congr h hl ?_ (length_overwrite hroom)
    have hsame := sameOn_overwrite_right hroom
    rw [htwo, Nat.zero_add] at hsame
    exact hsame.mono (Nat.le_refl _) hf

theorem answerTtlOffsets_overwrite {offsets : List Nat} (h : answerTtlOffsets answer = some offsets)
    (hq : 2 ≤ query.length) :
    answerTtlOffsets (overwrite answer 0 (query.take 2)) = some offsets := by
  have htwo : (query.take 2).length = 2 := by
    rw [length_take]
    omega
  have hl := (answerTtlOffsets_eq_some.mp h).1
  have hroom : 0 + (query.take 2).length ≤ answer.length := by omega
  refine answerTtlOffsets_congr h (length_overwrite hroom) fun i hi _ => ?_
  exact (getElem?_overwrite hroom (.inr (by omega))).symm

theorem answerTtl_spec {response : List UInt8} {ttl : Nat} (h : answerTtl response = some ttl) :
    ttl ≤ dnsCacheMaxTtl ∧ ∃ offsets, answerTtlOffsets response = some offsets ∧
      ∀ offset ∈ offsets, ttl ≤ readU32 response offset := by
  revert h
  fun_cases answerTtl response with
  | case5 _ _ offsets hoff shortest hmin =>
    fun_cases cacheableFor shortest with
    | case2 =>
      rintro ⟨⟩
      refine ⟨Nat.min_le_right _ _, offsets, hoff, fun offset hin => ?_⟩
      have hle := (List.min?_eq_some_iff.mp hmin).2 _ (mem_map_of_mem hin)
      exact Nat.le_trans (Nat.min_le_left _ _) hle
    | _ => rintro ⟨⟩
  | _ => rintro ⟨⟩

/-- An answer served from the cache, against the one that was fetched: it is served after it was
    fetched and before it expires, it has the same records, and each record has lost the whole
    seconds in between. -/
def ServedFrom (source f : Returned) : Prop :=
  source.time ≤ f.time ∧
    (∃ ttl, answerTtl source.payload = some ttl ∧ f.time < source.time + ttl * second) ∧
    ∃ offsets, answerTtlOffsets source.payload = some offsets ∧
      answerTtlOffsets f.payload = some offsets ∧ ∀ offset ∈ offsets,
        readU32 f.payload offset + (f.time - source.time) / second ≤
          readU32 source.payload offset

def Right (returned : List Returned) (f : Returned) : Prop :=
  Matches f.query f.payload ∧
    (f.fresh = false → ∃ source ∈ returned, source.fresh = true ∧ ServedFrom source f)

def KeptFrom (source : Returned) (entry : CachedAnswer) : Prop :=
  source.fresh = true ∧ source.payload = entry.response ∧
    ∃ ttl, answerTtl source.payload = some ttl ∧ entry.expiresAt = source.time + ttl * second

theorem cachedAnswerAt_spec {cache : Entries CacheKey CachedAnswer} {key : CacheKey}
    {entry : CachedAnswer} {payload : List UInt8} {now : Nat} {source : Returned}
    (hentry : cache.lookup key = some entry) (hke : KeptFrom source entry)
    (hti : source.time ≤ now) (hqu : 2 ≤ query.length)
    (hans : answersTheQuestion entry.response query = true)
    (h : cachedAnswerAt cache key query now = some payload) :
    now < entry.expiresAt ∧ Matches query payload ∧
      ServedFrom source ⟨query, payload, now, false⟩ := by
  rcases hke with ⟨-, hpay, ttl, httl, hexp⟩
  rw [hpay] at httl
  rcases answerTtl_spec httl with ⟨hmax, offsets, hoff, hsh⟩
  have hlo := (answersTheQuestion_iff.mp hans).1
  unfold cachedAnswerAt at h
  simp only [hentry] at h
  by_cases hover : entry.expiresAt ≤ now
  · simp [if_pos hover] at h
  rw [if_neg hover, Option.some_inj, withIdOf, if_pos ⟨by omega, hqu⟩] at h
  subst h
  have hmat := matches_overwrite hans hqu
  have hoff' := answerTtlOffsets_overwrite hoff hqu
  have hsm : min ((entry.expiresAt - now) / second) (2 ^ 32 - 1) < 2 ^ 32 := by omega
  have hnow : now < entry.expiresAt := Nat.lt_of_not_le hover
  refine ⟨hnow, ⟨?_, answersTheQuestion_setAnswerTtls _ hmat.2⟩, hti, ?_, offsets, ?_,
    answerTtlOffsets_setAnswerTtls hoff' _, ?_⟩
  · rw [← hmat.1]
    exact ((sameOn_setAnswerTtls _ _).slice_eq (Nat.le_refl _) (by omega)).symm
  · exact ⟨ttl, by rw [hpay]; exact httl, by rw [← hexp]; exact hnow⟩
  · rw [hpay]
    exact hoff
  · intro offset hin
    have hlas := hsh offset hin
    rw [readU32_setAnswerTtls hoff' hsm hin, hpay]
    unfold second at *
    simp only
    omega

/-! ### What every step keeps -/

structure Pending.Of (nextTask : Nat) (tasks : Entries Nat Asking) (p : Pending) : Prop where
  id : p.originalId = p.question.take 2
  long : 12 ≤ p.question.length
  old : p.reply < nextTask
  task : ∀ t, tasks.lookup p.reply = some t → t.query = p.question

structure Asking.Of (nextTask task : Nat) (t : Asking) : Prop where
  old : task < nextTask
  long : 12 ≤ t.query.length
  reply : ∀ answer, t.reply = some answer → Matches t.query answer

structure Forwarder.Sound (s : Forwarder) : Prop where
  pending : ∀ n id p, (s.resolver n).waiting.lookup id = some p →
    p.Of s.nextTask s.tasks
  tasks : ∀ task t, s.tasks.lookup task = some t → t.Of s.nextTask task
  cache : ∀ e ∈ s.cache, ∃ source ∈ s.returned, KeptFrom source e.2 ∧ source.time ≤ s.clock
  returned : ∀ f ∈ s.returned, Right s.returned f

theorem Forwarder.resolver_set (s : Forwarder) (n k : Nat) (r : Resolver) :
    { s with resolvers := s.resolvers.set n r }.resolver k =
      if k = n then r else s.resolver k := by
  unfold Forwarder.resolver
  rw [lookup_set]
  by_cases h : k = n
  · rw [if_pos h, if_pos h]
    rfl
  · rw [if_neg h, if_neg h]

open Resolver

theorem Resolver.lookup_release (r : Resolver) (id token k : Nat) (p : Pending) :
    (r.release id token).waiting.lookup k = some p ↔
      r.waiting.lookup k = some p ∧ ¬(k = id ∧ p.token = token) := by
  fun_cases release r id token with
  | case1 hown =>
    rcases (Option.any_eq_true _ _).mp hown with ⟨own, hlk, htoken⟩
    rw [lookup_remove]
    by_cases hk : k = id
    · rw [if_pos hk, hk, hlk]
      refine ⟨nofun, ?_⟩
      rintro ⟨⟨⟩, hoth⟩
      exact absurd ⟨rfl, of_decide_eq_true htoken⟩ hoth
    · rw [if_neg hk]
      exact ⟨fun hp => ⟨hp, fun hown => hk hown.1⟩, And.left⟩
  | case2 hoth =>
    refine ⟨fun hp => ⟨hp, ?_⟩, And.left⟩
    rintro ⟨rfl, htoken⟩
    rw [hp] at hoth
    exact hoth (decide_eq_true htoken)

section Steps

variable {s s' : Forwarder}

theorem Forwarder.Sound.release (h : s.Sound) (t : Asking) : (s.release t).Sound := by
  refine ⟨?_, h.tasks, h.cache, h.returned⟩
  intro n id p hp
  rw [Forwarder.release, Forwarder.resolver_set] at hp
  by_cases hn : n = t.resolver
  · rw [if_pos hn] at hp
    exact h.pending _ id p ((lookup_release ..).mp hp).1
  · rw [if_neg hn] at hp
    exact h.pending n id p hp

theorem Forwarder.Sound.removeTask (h : s.Sound) (task : Nat) :
    { s with tasks := s.tasks.remove task }.Sound := by
  refine ⟨?_, ?_, h.cache, h.returned⟩
  · intro n id p hp
    have hof := h.pending n id p hp
    exact ⟨hof.id, hof.long, hof.old, fun t ht => hof.task t (of_lookup_remove ht).2⟩
  · intro k t hk
    exact h.tasks k t (of_lookup_remove hk).2

variable {query answer payload : List UInt8} {r : Resolver} {task : Nat} {key : CacheKey}

theorem Resolver.register_eq_some {r' : Resolver} {id token : Nat}
    (h : r.register query task = some (id, token, r')) :
    r'.waiting = r.waiting.set id ⟨query.take 2, query, r.nextToken, task⟩ := by
  unfold register at h
  rcases hf : freeId r.waiting (2 ^ 16) r.nextId with _ | found
  · rw [hf] at h
    cases h
  rw [hf] at h
  cases h
  rfl

theorem Forwarder.Sound.askNext (h : s.Sound) {chain : List Nat} (hold : task < s.nextTask)
    (hlong : 12 ≤ query.length)
    (hown : ∀ n id p, (s.resolver n).waiting.lookup id = some p → p.reply = task →
      p.question = query) (hask : s.askNext task query key chain = some s') : s'.Sound := by
  rcases chain with _ | ⟨n, chain⟩
  · cases hask
    exact h.removeTask task
  rw [Forwarder.askNext] at hask
  rcases hreg : (s.resolver n).register query task with _ | registered
  · simp [hreg] at hask
  rcases registered with ⟨id, token, r⟩
  rw [hreg] at hask
  cases hask
  have hwait := register_eq_some hreg
  -- Whoever waits was waiting before, or is the query that has just been put on the list.
  have hcas : ∀ k i p,
      ({ s with resolvers := s.resolvers.set n r }.resolver k).waiting.lookup i = some p →
      p = ⟨query.take 2, query, (s.resolver n).nextToken, task⟩ ∨
        (s.resolver k).waiting.lookup i = some p := by
    intro k i p hp
    rw [Forwarder.resolver_set] at hp
    by_cases hk : k = n
    · rw [if_pos hk, hwait] at hp
      rw [hk]
      exact (of_lookup_set hp).imp_left And.right
    · rw [if_neg hk] at hp
      exact .inr hp
  refine ⟨?_, ?_, h.cache, h.returned⟩
  · intro k i p hp
    rcases hcas k i p hp with rfl | hbef
    · refine ⟨rfl, hlong, hold, ?_⟩
      intro t ht
      simp only [lookup_set, if_true] at ht
      cases ht
      rfl
    · have hof := h.pending k i p hbef
      refine ⟨hof.id, hof.long, hof.old, ?_⟩
      intro t ht
      rcases of_lookup_set ht with ⟨htask, rfl⟩ | ht
      · exact (hown k i p hbef htask).symm
      · exact hof.task t ht
  · intro k t ht
    rcases of_lookup_set ht with ⟨rfl, rfl⟩ | ht
    · exact ⟨hold, hlong, nofun⟩
    · exact h.tasks k t ht

theorem Resolver.deliver_eq_some {r' : Resolver} (h : r.deliver answer = some (task, payload, r')) :
    ∃ id p, r.waiting.lookup id = some p ∧ answersTheQuestion answer p.question = true ∧
      task = p.reply ∧ payload = overwrite answer 0 p.originalId ∧
      r' = { r with waiting := r.waiting.remove id } := by
  revert h
  fun_cases deliver r answer with
  | case5 _ _ _ p hw hans =>
    rintro ⟨⟩
    exact ⟨_, p, hw, by simpa using hans, rfl, rfl, rfl⟩
  | _ => rintro ⟨⟩

theorem Forwarder.Sound.datagram (h : s.Sound) {n : Nat}
    (hdel : (s.resolver n).deliver answer = some (task, payload, r)) :
    { s with resolvers := s.resolvers.set n r }.Sound ∧
      ∀ t, s.tasks.lookup task = some t → Matches t.query payload := by
  rcases deliver_eq_some hdel with ⟨id, p, hwa, hans, rfl, rfl, rfl⟩
  have hof := h.pending n id p hwa
  have hlo := hof.long
  refine ⟨⟨?_, h.tasks, h.cache, h.returned⟩, ?_⟩
  · intro k i p' hp'
    rw [Forwarder.resolver_set] at hp'
    by_cases hk : k = n
    · rw [if_pos hk] at hp'
      exact h.pending n i p' (of_lookup_remove hp').2
    · rw [if_neg hk] at hp'
      exact h.pending k i p' hp'
  · intro t ht
    rw [hof.task t ht, hof.id]
    exact matches_overwrite hans (by omega)

theorem Forwarder.Sound.setReply (h : s.Sound) {t : Asking} (ht : s.tasks.lookup task = some t)
    (hmat : Matches t.query payload) :
    { s with tasks := s.tasks.set task { t with reply := some payload } }.Sound := by
  have hof := h.tasks task t ht
  refine ⟨?_, ?_, h.cache, h.returned⟩
  · intro n id p hp
    have hpen := h.pending n id p hp
    refine ⟨hpen.id, hpen.long, hpen.old, ?_⟩
    intro t' ht'
    rcases of_lookup_set ht' with ⟨hta, rfl⟩ | ht'
    · exact hpen.task t (by rw [hta]; exact ht)
    · exact hpen.task t' ht'
  · intro k t' ht'
    rcases of_lookup_set ht' with ⟨rfl, rfl⟩ | ht'
    · refine ⟨hof.old, hof.long, ?_⟩
      intro answer hans
      cases hans
      exact hmat
    · exact h.tasks k t' ht'

theorem Right.mono {returned more : List Returned} {f : Returned} (h : Right returned f) :
    Right (returned ++ more) f := by
  refine ⟨h.1, fun hcac => ?_⟩
  rcases h.2 hcac with ⟨source, hin, hfr⟩
  exact ⟨source, mem_append_left more hin, hfr⟩

theorem mem_rememberAnswer {cache : Entries CacheKey CachedAnswer} {response : List UInt8}
    {now : Nat} {e : CacheKey × CachedAnswer} (h : e ∈ rememberAnswer cache key response now) :
    e ∈ cache ∨ ∃ ttl, answerTtl response = some ttl ∧
      e = (key, ⟨response, now + ttl * second⟩) := by
  unfold rememberAnswer at h
  rcases httl : answerTtl response with _ | ttl
  · rw [httl] at h
    exact .inl h
  simp only [httl] at h
  rcases mem_set h with rfl | hsw
  · exact .inr ⟨ttl, rfl, rfl⟩
  refine .inl ?_
  split at hsw
  · split at hsw
    · cases hsw
    · exact (mem_filter.mp hsw).1
  · exact hsw

theorem Forwarder.Sound.wake (h : s.Sound) {t : Asking} (ht : s.tasks.lookup task = some t)
    (hrep : t.reply = some answer) :
    { s with
      cache := rememberAnswer s.cache t.key answer s.clock
      tasks := s.tasks.remove task
      returned := s.returned ++ [Returned.mk t.query answer s.clock true] }.Sound := by
  have hmat := (h.tasks task t ht).reply answer hrep
  have hrem := h.removeTask task
  refine ⟨hrem.pending, hrem.tasks, ?_, ?_⟩
  · intro e he
    rcases mem_rememberAnswer he with hbef | ⟨ttl, httl, rfl⟩
    · rcases h.cache e hbef with ⟨source, hin, hke⟩
      exact ⟨source, mem_append_left _ hin, hke⟩
    · exact ⟨_, mem_append_right _ (mem_singleton.mpr rfl),
        ⟨rfl, rfl, ttl, httl, rfl⟩, Nat.le_refl _⟩
  · intro f hf
    rcases mem_append.mp hf with hbef | hnew
    · exact (h.returned f hbef).mono
    · rw [mem_singleton.mp hnew]
      exact ⟨hmat, nofun⟩

def AskedAlike (lower : List Char → List Char) (s : Forwarder) : Event → Prop
  | .ask query _ scope => ∀ q ∈ parseQuery query,
      ∀ entry ∈ s.cache.lookup (keyOf lower q scope), s.clock < entry.expiresAt →
        ∀ f ∈ s.returned, f.fresh = true ∧ f.payload = entry.response →
          sameQuestion f.query query = true
  | _ => True

instance (lower : List Char → List Char) (s : Forwarder) (e : Event) :
    Decidable (AskedAlike lower s e) :=
  match e with
  | .ask query _ scope => inferInstanceAs (Decidable (∀ q ∈ parseQuery query,
      ∀ entry ∈ s.cache.lookup (keyOf lower q scope), s.clock < entry.expiresAt →
        ∀ f ∈ s.returned, f.fresh = true ∧ f.payload = entry.response →
          sameQuestion f.query query = true))
  | .tick _ | .datagram _ _ | .wake _ | .timeout _ | .giveUp _ => inferInstanceAs (Decidable True)

theorem Forwarder.Sound.answered (h : s.Sound) (hqu : 2 ≤ query.length)
    (halike : ∀ entry, s.cache.lookup key = some entry → s.clock < entry.expiresAt →
      ∀ f ∈ s.returned, f.fresh = true ∧ f.payload = entry.response →
        sameQuestion f.query query = true)
    (hcac : cachedAnswerAt s.cache key query s.clock = some payload) :
    { s with returned := s.returned ++ [Returned.mk query payload s.clock false] }.Sound := by
  refine ⟨h.pending, h.tasks, ?_, ?_⟩
  · intro e he
    rcases h.cache e he with ⟨source, hin, hke⟩
    exact ⟨source, mem_append_left _ hin, hke⟩
  · intro f hf
    rcases mem_append.mp hf with hbef | hnew
    · exact (h.returned f hbef).mono
    rw [mem_singleton.mp hnew]
    -- The entry was remembered from an answer that was given, which is where this one is from.
    rcases hentry : s.cache.lookup key with _ | entry
    · simp [cachedAnswerAt, hentry] at hcac
    have hli : s.clock < entry.expiresAt := by
      refine Nat.lt_of_not_le fun hover => ?_
      simp only [cachedAnswerAt, hentry, hover, if_true] at hcac
      cases hcac
    rcases h.cache _ (mem_of_lookup hentry) with ⟨source, hin, hke, hti⟩
    have hsame := halike entry hentry hli source hin ⟨hke.1, hke.2.1⟩
    have hans := answersTheQuestion_of_same (h.returned source hin).1.2 hsame
    rw [hke.2.1] at hans
    rcases cachedAnswerAt_spec hentry hke hti hqu hans hcac with
      ⟨-, hmat, hser⟩
    exact ⟨hmat, fun _ => ⟨source, mem_append_left _ hin, hke.1, hser⟩⟩

theorem Forwarder.Sound.step {lower : List Char → List Char} {e : Event} (h : s.Sound)
    (halike : AskedAlike lower s e) (hstep : Dns.step lower s e = some s') : s'.Sound := by
  revert hstep
  fun_cases Dns.step lower s e with
  | case1 =>
    rintro ⟨⟩
    refine ⟨h.pending, h.tasks, ?_, h.returned⟩
    intro e he
    rcases h.cache e he with ⟨source, hin, hkept, htime⟩
    exact ⟨source, hin, hkept, Nat.le_trans htime (Nat.le_add_right _ _)⟩
  | case3 _ _ _ q hpar _ _ hcac =>
    have hlong := (parseQuery_eq_some.mp hpar).1
    rintro ⟨⟩
    exact h.answered (by omega) (fun entry => halike q hpar entry) hcac
  | case4 _ _ _ _ hpar =>
    intro hstep
    have hlong := (parseQuery_eq_some.mp hpar).1
    -- A task with a new number, for which nobody waits yet.
    have hnew : { s with nextTask := s.nextTask + 1 }.Sound := by
      refine ⟨?_, ?_, h.cache, h.returned⟩
      · intro n id p hp
        have hof := h.pending n id p hp
        exact ⟨hof.id, hof.long, Nat.lt_succ_of_lt hof.old, hof.task⟩
      · intro task t ht
        have hof := h.tasks task t ht
        exact ⟨Nat.lt_succ_of_lt hof.old, hof.long, hof.reply⟩
    refine hnew.askNext (Nat.lt_succ_self _) hlong ?_ hstep
    intro n id p hp hrep
    exact absurd hrep (Nat.ne_of_lt (h.pending n id p hp).old)
  | case5 =>
    rintro ⟨⟩
    exact h
  | case6 _ _ _ _ _ hdel =>
    intro hstep
    rw [← Option.some.inj hstep]
    exact (h.datagram hdel).1
  | case7 _ _ _ _ _ hdel _ t htask =>
    rintro ⟨⟩
    rcases h.datagram hdel with ⟨hsoun, hmat⟩
    exact hsoun.setReply htask (hmat t htask)
  | case10 _ t htask _ hrep =>
    rintro ⟨⟩
    exact (h.release t).wake htask hrep
  | case12 task t htask =>
    intro hstep
    have hof := h.tasks task t htask
    refine (h.release t).askNext hof.old hof.long ?_ hstep
    intro n id p hp hrep
    have hpen := (h.release t).pending n id p hp
    exact (hpen.task t (by rw [hrep]; exact htask)).symm
  | case14 task t =>
    rintro ⟨⟩
    exact (h.release t).removeTask task
  | _ => rintro ⟨⟩

end Steps

theorem Forwarder.start_sound : Forwarder.start.Sound :=
  ⟨fun _ _ _ hp => (by cases hp), fun _ _ ht => (by cases ht), nofun, nofun⟩

/-- In every run in which a query that finds an answer asks the question it was fetched for, every
    answer given has the id of its query and answers its question, and one from the cache is
    served before it expires and with no more than what is left of its times. -/
theorem forwarded_answers_right {lower : List Char → List Char} {s : Forwarder}
    {events : List Event} (hrun : Machine.run (step lower) .start events = some s)
    (halike : Machine.Along (step lower) (AskedAlike lower) .start events) :
    ∀ f ∈ s.returned, Right s.returned f := by
  have hs : s.Sound := Machine.invariant_along Forwarder.Sound
    (fun _ _ _ hs hok hst => hs.step hok hst) Forwarder.start_sound halike hrun
  exact hs.returned

def twoLabelQuery : List UInt8 :=
  [0x12, 0x34, 1, 0, 0, 1, 0, 0, 0, 0, 0, 0, 1, 97, 1, 98, 0, 0, 1, 0, 1]

def twoLabelAnswer : List UInt8 :=
  [0, 0, 0x81, 0x80, 0, 1, 0, 1, 0, 0, 0, 0, 1, 97, 1, 98, 0, 0, 1, 0, 1, 0xC0, 12, 0, 1, 0, 1,
    0, 0, 0, 60, 0, 4, 10, 0, 0, 1]

def dottedLabelQuery : List UInt8 :=
  [0x56, 0x78, 1, 0, 0, 1, 0, 0, 0, 0, 0, 0, 3, 97, 46, 98, 0, 0, 1, 0, 1]

def askedTwice : List Event :=
  [.ask twoLabelQuery [0] "1.1.1.1:53", .datagram 0 twoLabelAnswer, .wake 0,
    .tick (10 * second), .ask twoLabelQuery [0] "1.1.1.1:53"]

theorem forwarded_answers_right_twice :
    ∃ s, Machine.run (step (List.map Char.toLower)) .start askedTwice = some s ∧
      s.returned.map Returned.fresh = [true, false] ∧ ∀ f ∈ s.returned, Right s.returned f := by
  have hfr : (Machine.run (step (List.map Char.toLower)) .start askedTwice).map
      (fun s => s.returned.map Returned.fresh) = some [true, false] := by decide +kernel
  rcases Option.map_eq_some_iff.mp hfr with ⟨s, hrun, hret⟩
  exact ⟨s, hrun, hret, forwarded_answers_right hrun (by decide +kernel)⟩

def askedAlikeText : List Event :=
  [.ask twoLabelQuery [0] "1.1.1.1:53", .datagram 0 twoLabelAnswer, .wake 0,
    .ask dottedLabelQuery [0] "1.1.1.1:53"]

/-- The answer for a name of two labels is given to a query for a name of one label with a dot in
    it. -/
theorem dotted_label_answered_from_cache :
    ∃ s, Machine.run (step (List.map Char.toLower)) .start askedAlikeText = some s ∧
      ∃ f ∈ s.returned, f.query = dottedLabelQuery ∧ f.fresh = false ∧
        answersTheQuestion f.payload f.query = false ∧ ¬Right s.returned f := by
  have hl : (Machine.run (step (List.map Char.toLower)) .start askedAlikeText).map
      (fun s => s.returned.getLast?) =
        some (some ⟨dottedLabelQuery, 0x56 :: 0x78 :: twoLabelAnswer.drop 2, 0, false⟩) := by
    decide +kernel
  rcases Option.map_eq_some_iff.mp hl with ⟨s, hrun, hret⟩
  refine ⟨s, hrun, _, mem_of_getLast? hret, rfl, rfl, by decide +kernel, ?_⟩
  rintro ⟨⟨-, hans⟩, -⟩
  exact absurd hans (by decide +kernel)

end Nexapipe.Dns
