import Nexapipe.Config.Accepted
import Nexapipe.Conn.Counters
import Nexapipe.Lib.Run
import Nexapipe.Watcher.Reload

/-!
# The lockout bound

How many wrong guesses a client can be made to pay for, over any sequence of logins, enrollments
and reloads at any times. A counter is cleared by an attempt that succeeds and by a lockout that
runs out.
-/

namespace Nexapipe

open List Option

/-! ### Runs -/

structure LockoutState where
  live : AuthConfig
  wrongCodes : Nat
  wrongTokens : Nat

inductive LockoutEvent where
  | authenticate (clock : AuthClock) (req : AuthRequest)
  | enroll (clock : EnrollClock) (req : EnrollRequest) (secret : String) (outcome : WriteOutcome)
  | reload (plaintext : Option PlaintextListener) (newAuth : AuthConfig)

namespace LockoutState

def start (live : AuthConfig) : LockoutState :=
  { live := live, wrongCodes := 0, wrongTokens := 0 }

def expired (s : LockoutState) (id : String) (counter : ClientAuth → Counter)
    (readings : List UInt64) : Bool :=
  (s.live.clients.lookup id).any fun c => readings.any (counter c).isExpired

def codesAfterLogin (cr : Crypto) (id : String) (s : LockoutState) (clock : AuthClock)
    (req : AuthRequest) : Nat :=
  if req.clientId = id then
    tally s.wrongCodes (s.expired id ClientAuth.loginCounter [clock.refresh, clock.verify.lockout])
      (isWrongCode (verifyResponse cr
        (s.live.editClient req.clientId (·.refreshLockout clock.refresh)) clock.verify req))
      (authenticateLocked cr s.live clock req).verdict.isOk
  else s.wrongCodes

def codesAfterEnroll (id : String) (s : LockoutState) (clock : EnrollClock) (req : EnrollRequest)
    (reply : EnrollReply) : Nat :=
  if req.clientId = id then
    tally s.wrongCodes (s.expired id ClientAuth.loginCounter [clock.refresh]) false reply.isIssued
  else s.wrongCodes

def tokensAfterEnroll (id : String) (s : LockoutState) (clock : EnrollClock)
    (req : EnrollRequest) (reply : EnrollReply) : Nat :=
  if req.clientId = id then
    tally s.wrongTokens (s.expired id ClientAuth.enrollmentCounter
      [clock.refreshEnrollment, clock.enrollmentLockout]) reply.isCounted reply.isIssued
  else s.wrongTokens

/-- One event. A reload that removes or adds the client clears both of its
    counters, and one that gives it another invite clears the second. -/
def step (cr : Crypto) (id : String) (s : LockoutState) : LockoutEvent → Option LockoutState
  | .authenticate clock req =>
    if s.live.enabled then
      some { s with
        live := (authenticateLocked cr s.live clock req).cfg
        wrongCodes := s.codesAfterLogin cr id clock req }
    else none
  | .enroll clock req secret outcome =>
    let r := enrollClient cr s.live clock req secret outcome
    some
      { live := r.1
        wrongCodes := s.codesAfterEnroll id clock req r.2
        wrongTokens := s.tokensAfterEnroll id clock req r.2 }
  | .reload plaintext newAuth =>
    let kept := (s.live.clients.lookup id).isSome && (newAuth.clients.lookup id).isSome
    some
      { live := reloadTable plaintext s.live newAuth
        wrongCodes := if kept then s.wrongCodes else 0
        wrongTokens :=
          if kept && !onBoth replacesToken s.live newAuth id then s.wrongTokens else 0 }

def AddsOpen (id : String) (s : LockoutState) : LockoutEvent → Prop
  | .reload _ newAuth => s.live.clients.lookup id = none →
      ∀ c ∈ newAuth.clients.lookup id, c.loginCounter.Open s.live.maxAttempts ∧
        c.enrollmentCounter.Open s.live.maxAttempts
  | .authenticate _ _ | .enroll _ _ _ _ => True

structure Bounded (id : String) (maxAttempts : UInt32) (s : LockoutState) : Prop where
  limit : s.live.maxAttempts = maxAttempts
  positive : 0 < maxAttempts
  codes_le : s.wrongCodes ≤ maxAttempts.toNat
  tokens_le : s.wrongTokens ≤ maxAttempts.toNat
  entry : ∀ c ∈ s.live.clients.lookup id,
    c.loginCounter.Within maxAttempts s.wrongCodes ∧
      c.enrollmentCounter.Within maxAttempts s.wrongTokens

section

variable {cr : Crypto} {id : String} {maxAttempts : UInt32} {s s' : LockoutState}

theorem bounded_start {live : AuthConfig} (hmax : 0 < live.maxAttempts)
    (ho : ∀ c ∈ live.clients.lookup id, c.loginCounter.Open live.maxAttempts ∧
      c.enrollmentCounter.Open live.maxAttempts) :
    Bounded id live.maxAttempts (start live) where
  limit := rfl
  positive := hmax
  codes_le := Nat.zero_le _
  tokens_le := Nat.zero_le _
  entry := fun c hc =>
    ⟨Counter.Within.zero (ho c hc).1, Counter.Within.zero (ho c hc).2⟩

theorem Bounded.edited (h : Bounded id maxAttempts s) {c : ClientAuth}
    (hlim : s'.live.maxAttempts = s.live.maxAttempts)
    (hlk : s'.live.clients.lookup id = some c)
    (hcod : c.loginCounter.Within maxAttempts s'.wrongCodes)
    (htok : c.enrollmentCounter.Within maxAttempts s'.wrongTokens) :
    Bounded id maxAttempts s' where
  limit := hlim.trans h.limit
  positive := h.positive
  codes_le := hcod.bound
  tokens_le := htok.bound
  entry := by
    intro c' hc'
    rw [hlk] at hc'
    cases hc'
    exact ⟨hcod, htok⟩

theorem Bounded.untouched (h : Bounded id maxAttempts s)
    (hlim : s'.live.maxAttempts = s.live.maxAttempts)
    (hlk : s'.live.clients.lookup id = s.live.clients.lookup id)
    (hcod : s'.wrongCodes = s.wrongCodes) (htok : s'.wrongTokens = s.wrongTokens) :
    Bounded id maxAttempts s' where
  limit := hlim.trans h.limit
  positive := h.positive
  codes_le := by
    rw [hcod]
    exact h.codes_le
  tokens_le := by
    rw [htok]
    exact h.tokens_le
  entry := by
    rw [hlk, hcod, htok]
    exact h.entry

open AuthConfig

theorem editClient_maxAttempts (cfg : AuthConfig) (k : String) (f : ClientAuth → ClientAuth) :
    (cfg.editClient k f).maxAttempts = cfg.maxAttempts := by
  unfold AuthConfig.editClient
  split <;> rfl

theorem Bounded.login (h : Bounded id maxAttempts s) (hen : s.live.enabled = true)
    (clock : AuthClock) (req : AuthRequest) :
    Bounded id maxAttempts { s with
      live := (authenticateLocked cr s.live clock req).cfg
      wrongCodes := s.codesAfterLogin cr id clock req } := by
  have hcfg := @authenticateLocked_cfg cr s.live clock req hen
  have hlim : (authenticateLocked cr s.live clock req).cfg.maxAttempts = s.live.maxAttempts := by
    rw [hcfg, editClient_maxAttempts]
  have hlk := s.live.editClient_lookup req.clientId id
    fun client => (Nexapipe.login cr s.live clock req client).1
  rw [← hcfg] at hlk
  by_cases hid : req.clientId = id
  · subst hid
    rw [if_pos rfl] at hlk
    rcases hc : s.live.clients.lookup req.clientId with _ | c
    · rw [hc] at hlk
      refine h.untouched hlim (hlk.trans hc.symm) ?_ rfl
      -- There is no such client: nothing is judged and nothing is cleared.
      simp only [codesAfterLogin, if_true, expired, hc, any_none,
        authenticateLocked_absent hen hc, editClient_absent _ hc, verifyResponse,
        hen, Bool.not_true, Bool.false_eq_true, if_false, isWrongCode]
      rfl
    · rw [hc] at hlk
      have hlaw := h.entry c hc
      -- The law of the login counter, read at the table's limit.
      have hlog := @within_login cr s.live c s.wrongCodes clock req
        (by rw [h.limit]; exact h.positive) (by rw [h.limit]; exact hlaw.1)
      refine h.edited hlim hlk ?_ ?_
      · simp only [codesAfterLogin, if_true, expired, hc, any_some, any_cons,
          any_nil, Bool.or_false, authenticateLocked_present hen hc,
          editClient_present _ hc, verifyResponse_setClient hen]
        rw [h.limit] at hlog
        exact hlog
      · rw [enrollmentCounter_login]
        exact hlaw.2
  -- The login named another client.
  · rw [if_neg (Ne.symm hid)] at hlk
    refine h.untouched hlim hlk ?_ rfl
    simp only [codesAfterLogin, if_neg hid]

theorem Bounded.enroll (h : Bounded id maxAttempts s) (clock : EnrollClock) (req : EnrollRequest)
    (secret : String) (outcome : WriteOutcome) :
    Bounded id maxAttempts
      { live := (enrollClient cr s.live clock req secret outcome).1
        wrongCodes := s.codesAfterEnroll id clock req
          (enrollClient cr s.live clock req secret outcome).2
        wrongTokens := s.tokensAfterEnroll id clock req
          (enrollClient cr s.live clock req secret outcome).2 } := by
  rcases hfound : s.live.clients.lookup req.clientId with _ | c
  · rw [enrollClient_absent outcome hfound]
    refine h.untouched rfl rfl ?_ ?_
    · unfold codesAfterEnroll
      split
      next hid =>
        rw [hid] at hfound
        simp only [expired, hfound]
        rfl
      · rfl
    · unfold tokensAfterEnroll
      split
      next hid =>
        rw [hid] at hfound
        simp only [expired, hfound]
        rfl
      · rfl
  · rcases enrollClient_effect outcome hfound with ⟨c', reply, heq, heff⟩
    rw [heq]
    by_cases hid : req.clientId = id
    · subst hid
      -- An enrollment can move both counters, each under its own law.
      have hlaw := h.entry c hfound
      rw [← h.limit] at hlaw
      have hpos : 0 < s.live.maxAttempts := by
        rw [h.limit]
        exact h.positive
      have hcod := within_login_enroll hpos heff hlaw.1
      have htok := within_enroll hpos heff hlaw.2
      rw [h.limit] at hcod htok
      refine h.edited rfl (setClient_lookup _ _ _ _ |>.trans (if_pos rfl)) ?_ ?_
      · simpa only [codesAfterEnroll, if_true, expired, hfound, any_some, any_cons,
          any_nil, Bool.or_false] using hcod
      · simpa only [tokensAfterEnroll, if_true, expired, hfound, any_some, any_cons,
          any_nil, Bool.or_false] using htok
    · refine h.untouched rfl (setClient_lookup _ _ _ _ |>.trans (if_neg (Ne.symm hid)))
        ?_ ?_
      · simp only [codesAfterEnroll, if_neg hid]
      · simp only [tokensAfterEnroll, if_neg hid]

theorem reloadTable_maxAttempts (plaintext : Option PlaintextListener)
    (live newAuth : AuthConfig) :
    (reloadTable plaintext live newAuth).maxAttempts = live.maxAttempts := by
  unfold reloadTable mergeAuthClients
  rcases moveEnabled_cases plaintext live newAuth with heq | ⟨-, -, heq⟩
  · rw [heq]
  · rw [heq]

theorem counters_mergeClient (existing incoming : ClientAuth) :
    (mergeClient existing incoming).loginCounter = existing.loginCounter ∧
      (mergeClient existing incoming).enrollmentCounter =
        if replacesToken existing incoming then Counter.clear else existing.enrollmentCounter := by
  refine ⟨rfl, ?_⟩
  rcases hrot : replacesToken existing incoming with _ | _
  · simp only [mergeClient, ClientAuth.enrollmentCounter, hrot, Bool.false_eq_true, if_false]
  · simp only [mergeClient, ClientAuth.enrollmentCounter, hrot, Counter.clear, if_true]

theorem Bounded.reload (h : Bounded id maxAttempts s) (plaintext : Option PlaintextListener)
    (newAuth : AuthConfig) (had : s.AddsOpen id (.reload plaintext newAuth))
    (hst : step cr id s (.reload plaintext newAuth) = some s') : Bounded id maxAttempts s' := by
  simp only [step, Option.some.injEq] at hst
  subst hst
  have hlim := reloadTable_maxAttempts plaintext s.live newAuth
  have hlk := reloadTable_lookup plaintext s.live newAuth id
  rcases hnew : newAuth.clients.lookup id with _ | incoming
  · rw [hnew] at hlk
    simp only [isSome_none, Bool.and_false, Bool.false_and, Bool.false_eq_true, if_false]
    -- The client is gone, and its counts with it.
    refine ⟨hlim.trans h.limit, h.positive, Nat.zero_le _, Nat.zero_le _, ?_⟩
    intro c hc
    rw [hlk] at hc
    cases hc
  · rw [hnew] at hlk
    rcases hold : s.live.clients.lookup id with _ | existing
    · rw [hold] at hlk
      -- The client is new: it comes with the counters the load gave it.
      have hop := had hold incoming hnew
      rw [h.limit] at hop
      exact h.edited hlim hlk (Counter.Within.zero hop.1) (Counter.Within.zero hop.2)
    · rw [hold] at hlk
      have hlaw := h.entry existing hold
      have hco := counters_mergeClient existing incoming
      simp only [isSome_some, Bool.and_self, Bool.true_and, if_true, onBoth, hold, hnew]
      -- On both sides: the login counter is kept, and the other one unless the invite is new.
      refine h.edited hlim hlk hlaw.1 ?_
      rw [hco.2]
      rcases replacesToken existing incoming with _ | _
      · exact hlaw.2
      · exact Counter.within_clear h.positive

theorem bounded_step (e : LockoutEvent) (h : Bounded id maxAttempts s) (ha : s.AddsOpen id e)
    (hs : step cr id s e = some s') : Bounded id maxAttempts s' := by
  cases e with
  | authenticate clock req =>
    simp only [step] at hs
    split at hs
    next he =>
      cases hs
      exact h.login he clock req
    · cases hs
  | enroll clock req secret outcome =>
    cases hs
    exact h.enroll clock req secret outcome
  | reload plaintext newAuth => exact h.reload plaintext newAuth ha hs

end

end LockoutState

namespace LockoutState

/-- The lockout bound. Over any sequence of logins, enrollments and reloads, at
    any times, a client pays for at most `maxAttempts` wrong codes and as many
    wrong tokens between two clears of the counter concerned, a counter that is
    not locked is below the limit, and a counter that is locked is not moved. -/
theorem lockout_bound {cr : Crypto} {id : String} {live : AuthConfig} {es : List LockoutEvent}
    {s : LockoutState} (hmax : 1 ≤ live.maxAttempts)
    (hopen : ∀ c ∈ live.clients.lookup id, c.loginCounter.Open live.maxAttempts ∧
      c.enrollmentCounter.Open live.maxAttempts)
    (hadds : Machine.Along (step cr id) (AddsOpen id) (start live) es)
    (hrun : Machine.run (step cr id) (start live) es = some s) :
    s.wrongCodes ≤ live.maxAttempts.toNat ∧ s.wrongTokens ≤ live.maxAttempts.toNat ∧
      ∀ c ∈ s.live.clients.lookup id,
        (c.lockedUntil = none → c.failedAttempts < live.maxAttempts) ∧
        (c.enrollmentLockedUntil = none → c.enrollmentFailedAttempts < live.maxAttempts) ∧
        (∀ clock req, s.live.enabled = true → req.clientId = id →
          c.loginCounter.isLocked clock.refresh = true →
          c.loginCounter.isLocked clock.verify.lockout = true →
          authenticateLocked cr s.live clock req =
            { cfg := s.live, dirty := false, verdict := .error .lockedOut }) ∧
        ∀ clock req secret outcome, req.clientId = id →
          c.enrollmentCounter.isLocked clock.refreshEnrollment = true →
          c.enrollmentCounter.isLocked clock.enrollmentLockout = true →
          (enrollClient cr s.live clock req secret outcome).2 = .refused false ∧
            ((enrollClient cr s.live clock req secret outcome).1.clients.lookup id).map
              ClientAuth.enrollmentCounter = some c.enrollmentCounter := by
  have hpos : 0 < live.maxAttempts := UInt32.lt_of_lt_of_le (by decide) hmax
  have h : Bounded id live.maxAttempts s :=
    Machine.invariant_along (Bounded id live.maxAttempts)
      (fun _ e _ hb hok hst => bounded_step e hb hok hst)
      (bounded_start hpos hopen) hadds hrun
  refine ⟨h.codes_le, h.tokens_le, ?_⟩
  intro c hc
  have hlaw := h.entry c hc
  refine ⟨hlaw.1.belowLimit, hlaw.2.belowLimit, ?_, ?_⟩
  · intro clock req hen hid href hve
    subst hid
    exact authenticateLocked_locked hen hc href hve
  · intro clock req secret outcome hid href hver
    subst hid
    exact enrollClient_locked hc href hver

instance (id : String) (s : LockoutState) (e : LockoutEvent) : Decidable (s.AddsOpen id e) := by
  unfold AddsOpen Counter.Open
  cases e <;> infer_instance

end LockoutState

/-! ### Two counters at work -/

def invitedClient (token : String) : ClientAuth :=
  { ClientAuth.ofSecret "K" with pendingEnrollment := some token }

def strictTable (client : ClientAuth) : AuthConfig :=
  { AuthConfig.gated [("alice", client)] with maxAttempts := 2 }

def wrongCode (now : UInt64) : AuthRequest :=
  { clientId := "alice"
    deviceId := none
    nonce := [1]
    timestamp := now.toInt64
    signature := [1]
    code := "111111" }

def wrongToken : EnrollRequest :=
  { clientId := "alice", token := "guess", device := none, publicKey := none }

def wrongCodeAt (now : UInt64) : LockoutEvent :=
  .authenticate (.all now) (wrongCode now)

def wrongTokenAt (now : UInt64) : LockoutEvent :=
  .enroll (.all now) wrongToken "S" .saved

namespace LockoutState

/-- Two wrong codes lock the client, a third is not judged, and one after the
    lockout is the first of the next count. -/
theorem lockout_bound_two_rounds :
    ∃ s, Machine.run (step Crypto.toy "alice") (start (strictTable (invitedClient "T")))
        [wrongCodeAt 0, wrongTokenAt 1, wrongCodeAt 2, wrongCodeAt 3, wrongCodeAt 302] = some s ∧
      s.wrongCodes = 1 ∧ s.wrongTokens ≤ 2 := by
  have hv : (Machine.run (step Crypto.toy "alice") (start (strictTable (invitedClient "T")))
      [wrongCodeAt 0, wrongTokenAt 1, wrongCodeAt 2, wrongCodeAt 3, wrongCodeAt 302]).map
      LockoutState.wrongCodes = some 1 := by decide
  rcases map_eq_some_iff.mp hv with ⟨s, hrun, hs⟩
  refine ⟨s, hrun, hs, (lockout_bound (by decide) ?_ (by decide) hrun).2.1⟩
  intro c hc
  cases hc
  exact ⟨fun _ => by decide, fun _ => by decide⟩

end LockoutState

def judgeCode (cfg : AuthConfig) (now : UInt64) : AuthStep :=
  authenticateLocked Crypto.toy cfg (.all now) (wrongCode now)

def judgeToken (cfg : AuthConfig) (now : UInt64) : AuthConfig × EnrollReply :=
  enrollClient Crypto.toy cfg (.all now) wrongToken "S" .saved

def countedDoc : Entries String Toml :=
  [("auth", .table [("enabled", .bool true),
    ("clients", .table [("bob", .table [("secret", .str "K"), ("failed_attempts", .int 7)])])])]

/-- Reloads clear counters too. With two mistakes allowed and the lockout of 300
    seconds still running, a third wrong token is judged once the invite was
    replaced, and a third wrong code once the client was removed and added again;
    and a client added with its count in the file is above the limit without being
    locked. -/
theorem reload_clears_counters :
    (let second := judgeToken (judgeToken (strictTable (invitedClient "T")) 0).1 1;
      (judgeToken (strictTable (invitedClient "T")) 0).2 = .refused true ∧
        second.2 = .refused true ∧
        (judgeToken (reloadTable none second.1 (strictTable (invitedClient "U"))) 2).2 =
          .refused true) ∧
    (let second := judgeCode (judgeCode (strictTable (invitedClient "T")) 0).cfg 1;
      let removed := reloadTable none second.cfg { second.cfg with clients := ∅ };
      (judgeCode (strictTable (invitedClient "T")) 0).dirty = true ∧ second.dirty = true ∧
        (judgeCode second.cfg 2).dirty = false ∧
        (judgeCode (reloadTable none removed (strictTable (invitedClient "T"))) 2).dirty = true) ∧
    ∃ newAuth c, parseWithAuth LoadEnv.plain countedDoc = .ok (some newAuth) ∧
      (reloadTable none (strictTable (invitedClient "T")) newAuth).clients.lookup "bob" = some c ∧
      c.lockedUntil = none ∧
      (reloadTable none (strictTable (invitedClient "T")) newAuth).maxAttempts ≤
        c.failedAttempts := by
  refine ⟨by decide, by decide, _, _, rfl, rfl, rfl, by decide⟩

end Nexapipe
