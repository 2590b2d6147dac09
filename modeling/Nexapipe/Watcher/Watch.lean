import Nexapipe.Auth.State
import Nexapipe.Lib.Run
import Nexapipe.Routes.Table
import Nexapipe.Watcher.Reload

/-!
# The watcher

The server reads its store twice when it starts, once for the routes and once for
the clients, and then starts a task that looks at the store's stamp every few
seconds. The task remembers the stamp of the content it last loaded. A stamp that
is another one starts a reload: the store is read, the auth half of what was read is
merged into the live table, the routes are built and replace the live ones, and
only when both halves were applied is the stamp recorded. The stamp that is recorded
is the one that was sampled before the read, so an edit that lands in between is
seen at the next tick.

An enrollment writes the store and the live table and moves an epoch. A reload that
finds the epoch moved reads the store once more for its auth half, and leaves that
half for the next tick when it finds it moved again.

A content without an auth section is taken for a bad edit. The reload succeeds and
the clients stay what they were, so a recorded stamp does not mean that the live
clients are in the content it stands for. Where the content has the section, they
are.

That holds as long as no edit slips between a stamp and the content it is taken for.
The order of a tick is safe by itself. Two things are not: the first stamp is sampled
after the start-up reads, and a stamp the watcher holds may come back, with the
content it belongs to, after another content was read and perhaps half applied.
`Unraced` leaves these out.
-/

namespace Nexapipe

open Option

/-! ### Between ticks -/

def pollInterval : Nat := 5000

def maxRetryDelay : Nat := 300000

/-- What the task remembers. `loaded` is `none` when the first stamp could not be
    sampled, which is the stamp of no store. -/
structure WatchState (σ : Type) where
  loaded : Option σ
  retryAt : Nat
  retryDelay : Nat

namespace WatchState

variable {σ : Type}

def new (loaded : Option σ) (now : Nat) : WatchState σ :=
  { loaded := loaded, retryAt := now, retryDelay := 0 }

def shouldLoad [DecidableEq σ] (w : WatchState σ) (current : σ) (now : Nat) : Bool :=
  some current ≠ w.loaded && w.retryAt ≤ now

def markLoaded (w : WatchState σ) (current : σ) (now : Nat) : WatchState σ :=
  { w with loaded := some current, retryAt := now, retryDelay := 0 }

def failed (w : WatchState σ) (now : Nat) : WatchState σ :=
  let delay := min (max (w.retryDelay * 2) pollInterval) maxRetryDelay
  { w with retryAt := now + delay, retryDelay := delay }

end WatchState

/-! ### The store -/

/-- What a store's contents are: the document in a content, if it is one, the stamp
    the store has while it holds the content, and the routes of a document. Each
    build makes pools of its own, and is told from which identity on. -/
structure Source (κ σ : Type) where
  document : κ → Option (Entries String Toml)
  stamp : κ → σ
  buildRoutes : Nat → Entries String Toml → Option (List Route)

/-- What a read depends on besides the content. The epoch is sampled before the
    store is read, so it may be behind by the time it is. -/
structure Reading where
  readable : Bool
  state : Option RuntimeState
  now : UInt64
  epoch : Nat

def Reading.plain : Reading :=
  { readable := true, state := some RuntimeState.empty, now := 0, epoch := 0 }

/-- The document, as far as the routing half reads it: the auth section is checked
    for its port rules and no further. -/
def loadConfig (env : LoadEnv) (doc : Entries String Toml) : Option (Entries String Toml) :=
  match env.otherSections (Entries.remove "auth" doc) with
  | .error _ => none
  | .ok () =>
    match doc.lookup "auth" with
    | none => some doc
    | some v =>
      match AuthPortRules.check v with
      | .error _ => none
      | .ok () => some doc

theorem loadConfig_eq_some {env : LoadEnv} {doc doc' : Entries String Toml}
    (h : loadConfig env doc = some doc') : doc = doc' := by
  revert h
  fun_cases loadConfig env doc <;> rintro ⟨⟩ <;> rfl

/-- The live table after a reload that read this auth half. Without the section the
    table stays what it is. -/
def applyAuth (plaintext : Option PlaintextListener) (live : AuthConfig) :
    Option AuthConfig → AuthConfig
  | none => live
  | some newAuth => reloadTable plaintext live newAuth

def SameClients (live incoming : AuthConfig) : Prop :=
  ∀ id, (live.clients.lookup id).map ClientAuth.configured =
    (incoming.clients.lookup id).map ClientAuth.configured

theorem sameClients_reloadTable (plaintext : Option PlaintextListener)
    (live newAuth : AuthConfig) : SameClients (reloadTable plaintext live newAuth) newAuth := by
  intro id
  rw [reloadTable_lookup, map_map]
  congr 1
  funext client
  -- The counters of a client that was live stay, and they are all that stays.
  rcases live.clients.lookup id with _ | existing
  · rfl
  · exact configured_mergeClient existing client

namespace Source

variable {κ σ : Type} (source : Source κ σ) (cr : Crypto) (env : LoadEnv)

def load (r : Reading) (c : κ) : Option (Option AuthConfig) :=
  if r.readable then
    (source.document c).bind fun doc =>
      loadConfigWithAuth cr { env with now := r.now } doc r.state
  else none

def RoutesOf (plain : Char → Bool) (c : κ) (routes : List Route) : Prop :=
  ∃ pools doc built, source.document c = some doc ∧ source.buildRoutes pools doc = some built ∧
    (routes = built ∨ ∃ old, routes = updateRoutes plain old built)

def ClientsOf (c : κ) (auth : AuthConfig) : Prop :=
  ∃ r half, source.load cr env r c = some half ∧ ∀ newAuth ∈ half, SameClients auth newAuth

end Source

/-! ### The machine -/

structure Tick (σ : Type) where
  current : σ
  now : Nat

structure Snapshot (κ : Type) where
  content : κ
  auth : Option AuthConfig
  epoch : Nat

/-- Where the process is: before its two start-up reads, between ticks, or in a
    reload. The content a reload carries is the one its routes are built from. -/
inductive WatchPhase (κ σ : Type) where
  | starting
  | routed
  | waiting
  | sampled (t : Tick σ)
  | reading (t : Tick σ) (content : κ) (snapshot : Snapshot κ) (again : Bool)
  | merged (t : Tick σ) (content : κ) (applied : Bool)

namespace WatchPhase

variable {κ σ : Type}

def underWay : WatchPhase κ σ → Option σ
  | reading t _ _ _ => some t.current
  | merged t _ _ => some t.current
  | _ => none

def content : WatchPhase κ σ → Option κ
  | reading _ c _ _ => some c
  | merged _ c _ => some c
  | _ => none

end WatchPhase

structure WatchWorld (κ σ : Type) where
  store : κ
  routes : List Route
  auth : AuthConfig
  epoch : Nat
  watch : Option (WatchState σ)
  phase : WatchPhase κ σ
  /-- The content the live routes were built from. -/
  routesFrom : Option κ
  /-- The content the live clients were last taken from, none after an enrollment. -/
  authFrom : Option κ
  /-- The content that was read last, none after an enrollment. -/
  lastRead : Option κ

/-- One thing that happens. An edit and an enrollment come between any two steps of
    the start or of a reload. -/
inductive WatchEvent (κ : Type) where
  | edit (c : κ)
  | enroll (c : κ) (auth : AuthConfig)
  | startRoutes (pools : Nat)
  | startAuth (r : Reading)
  | firstStamp (stamped : Bool) (now : Nat)
  | tick (stamped : Bool) (now : Nat)
  | read (r : Reading)
  | reloadAuth (r : Reading)
  | reloadRoutes (pools : Nat)

namespace WatchWorld

variable {κ σ : Type}

def start (c : κ) : WatchWorld κ σ :=
  { store := c
    routes := []
    auth := AuthConfig.default
    epoch := 0
    watch := none
    phase := .starting
    routesFrom := none
    authFrom := none
    lastRead := none }

def recorded (s : WatchWorld κ σ) : Option σ :=
  s.watch.bind WatchState.loaded

def giveUp (s : WatchWorld κ σ) (t : Tick σ) : WatchWorld κ σ :=
  { s with watch := s.watch.map (·.failed t.now), phase := .waiting }

def settle (s : WatchWorld κ σ) (t : Tick σ) : WatchWorld κ σ :=
  { s with watch := s.watch.map (·.markLoaded t.current t.now), phase := .waiting }

def putRoutes (s : WatchWorld κ σ) (c : κ) (routes : List Route) : WatchWorld κ σ :=
  { s with routes := routes, routesFrom := some c }

def snapshotRead (s : WatchWorld κ σ) (t : Tick σ) (c : κ) (half : Option AuthConfig)
    (epoch : Nat) (again : Bool) : WatchWorld κ σ :=
  { s with
    phase := .reading t c { content := s.store, auth := half, epoch := epoch } again
    lastRead := some s.store }

section

variable (source : Source κ σ) (cr : Crypto) (env : LoadEnv) (plain : Char → Bool)
  (plaintext : Option PlaintextListener)

/-- Merges the auth half, unless the epoch has moved since it was sampled. Then the
    store is read once more, and the second time the half is left. -/
def stepAuth (s : WatchWorld κ σ) (t : Tick σ) (c : κ) (snapshot : Snapshot κ) (again : Bool)
    (r : Reading) : Option (WatchWorld κ σ) :=
  if s.epoch = snapshot.epoch then
    some { s with
      auth := applyAuth plaintext s.auth snapshot.auth
      authFrom := some snapshot.content
      phase := .merged t c true }
  else if again then some { s with phase := .merged t c false }
  else if r.epoch ≤ s.epoch then
    match source.load cr env r s.store with
    | none => some { s with phase := .merged t c false }
    | some half => some (s.snapshotRead t c half r.epoch true)
  else none

/-- Builds the routes and replaces the live ones. The stamp is recorded when the
    auth half was applied too. -/
def stepRoutes (s : WatchWorld κ σ) (t : Tick σ) (c : κ) (applied : Bool) (pools : Nat) :
    WatchWorld κ σ :=
  match (source.document c).bind (source.buildRoutes pools) with
  | none => s.giveUp t
  | some built =>
    (if applied then s.settle t else s.giveUp t).putRoutes c (updateRoutes plain s.routes built)

def step [DecidableEq σ] (s : WatchWorld κ σ) : WatchEvent κ → Option (WatchWorld κ σ)
  | .edit c => some { s with store := c }
  | .enroll c auth =>
    match s.phase with
    | .starting | .routed => none
    | _ =>
      some { s with
        store := c
        auth := auth
        epoch := s.epoch + 1
        authFrom := none
        lastRead := none }
  -- A content that cannot be used is fatal while nothing is serving yet.
  | .startRoutes pools =>
    match s.phase with
    | .starting =>
      (((source.document s.store).bind (loadConfig env)).bind (source.buildRoutes pools)).map
        fun built => { s.putRoutes s.store built with
          phase := .routed
          lastRead := some s.store }
    | _ => none
  | .startAuth r =>
    match s.phase with
    | .routed =>
      (source.load cr env r s.store).map fun half => { s with
        auth := half.getD AuthConfig.default
        phase := .waiting
        authFrom := some s.store
        lastRead := some s.store }
    | _ => none
  | .firstStamp stamped now =>
    match s.phase, s.watch with
    | .waiting, none =>
      some { s with
        watch := some (.new (if stamped then some (source.stamp s.store) else none) now) }
    | _, _ => none
  | .tick stamped now =>
    match s.phase, s.watch with
    | .waiting, some w =>
      if stamped && w.shouldLoad (source.stamp s.store) now then
        some { s with phase := .sampled { current := source.stamp s.store, now := now } }
      else some s
    | _, _ => none
  | .read r =>
    match s.phase with
    | .sampled t =>
      if r.epoch ≤ s.epoch then
        match source.load cr env r s.store with
        | none => some (s.giveUp t)
        | some half => some (s.snapshotRead t s.store half r.epoch false)
      else none
    | _ => none
  | .reloadAuth r =>
    match s.phase with
    | .reading t c snapshot again => stepAuth source cr env plaintext s t c snapshot again r
    | _ => none
  | .reloadRoutes pools =>
    match s.phase with
    | .merged t c applied => some (stepRoutes source plain s t c applied pools)
    | _ => none

end

def Holds (s : WatchWorld κ σ) (stamp : σ) : Prop :=
  s.recorded = some stamp ∨ s.phase.underWay = some stamp

def Took (s : WatchWorld κ σ) (c : κ) : Prop :=
  s.routesFrom = some c ∧ s.authFrom = some c ∧ s.lastRead = some c

/-- No edit brings back a content whose stamp the watcher holds after another one
    was read, and the first stamp is that of the content the start has read. -/
def Unraced (source : Source κ σ) (s : WatchWorld κ σ) : WatchEvent κ → Prop
  | .edit c => s.Holds (source.stamp c) → s.lastRead = some c
  | .enroll c _ => ¬s.Holds (source.stamp c)
  | .firstStamp stamped _ => stamped = true → s.Took s.store
  | _ => True

instance [DecidableEq κ] [DecidableEq σ] (source : Source κ σ) (s : WatchWorld κ σ)
    (e : WatchEvent κ) : Decidable (s.Unraced source e) := by
  unfold Unraced Holds Took
  cases e <;> infer_instance

/-! ### What a step can do -/

section

variable {source : Source κ σ} {cr : Crypto} {env : LoadEnv} {plain : Char → Bool}
  {plaintext : Option PlaintextListener}

inductive Move (source : Source κ σ) (cr : Crypto) (env : LoadEnv) (plain : Char → Bool)
    (plaintext : Option PlaintextListener) (s : WatchWorld κ σ) :
    WatchEvent κ → WatchWorld κ σ → Prop
  | edit (c : κ) : Move source cr env plain plaintext s (.edit c) { s with store := c }
  | enroll (c : κ) (auth : AuthConfig) :
      Move source cr env plain plaintext s (.enroll c auth)
        { s with
          store := c
          auth := auth
          epoch := s.epoch + 1
          authFrom := none
          lastRead := none }
  | startRoutes {pools : Nat} {doc : Entries String Toml} {built : List Route}
      (hdoc : source.document s.store = some doc)
      (hbuilt : source.buildRoutes pools doc = some built) :
      Move source cr env plain plaintext s (.startRoutes pools)
        { s.putRoutes s.store built with phase := .routed, lastRead := some s.store }
  | startAuth {r : Reading} {half : Option AuthConfig}
      (hload : source.load cr env r s.store = some half) :
      Move source cr env plain plaintext s (.startAuth r)
        { s with
          auth := half.getD AuthConfig.default
          phase := .waiting
          authFrom := some s.store
          lastRead := some s.store }
  | firstStamp {stamped : Bool} {now : Nat} (hphase : s.phase = .waiting) :
      Move source cr env plain plaintext s (.firstStamp stamped now)
        { s with
          watch := some (.new (if stamped then some (source.stamp s.store) else none) now) }
  | idle {stamped : Bool} {now : Nat} :
      Move source cr env plain plaintext s (.tick stamped now) s
  | sample {stamped : Bool} {now : Nat} (t : Tick σ) :
      Move source cr env plain plaintext s (.tick stamped now) { s with phase := .sampled t }
  | unread {r : Reading} (t : Tick σ) :
      Move source cr env plain plaintext s (.read r) (s.giveUp t)
  | read {r : Reading} {half : Option AuthConfig} (t : Tick σ) (hbehind : r.epoch ≤ s.epoch)
      (hload : source.load cr env r s.store = some half) :
      Move source cr env plain plaintext s (.read r)
        (s.snapshotRead t s.store half r.epoch false)
  | merge {r : Reading} {t : Tick σ} {c : κ} {snapshot : Snapshot κ} {again : Bool}
      (hphase : s.phase = .reading t c snapshot again) (hepoch : s.epoch = snapshot.epoch) :
      Move source cr env plain plaintext s (.reloadAuth r)
        { s with
          auth := applyAuth plaintext s.auth snapshot.auth
          authFrom := some snapshot.content
          phase := .merged t c true }
  | leave {r : Reading} {t : Tick σ} {c : κ} {snapshot : Snapshot κ} {again : Bool}
      (hphase : s.phase = .reading t c snapshot again) :
      Move source cr env plain plaintext s (.reloadAuth r) { s with phase := .merged t c false }
  | reread {r : Reading} {t : Tick σ} {c : κ} {snapshot : Snapshot κ} {again : Bool}
      {half : Option AuthConfig} (hphase : s.phase = .reading t c snapshot again)
      (hbehind : r.epoch ≤ s.epoch) (hload : source.load cr env r s.store = some half) :
      Move source cr env plain plaintext s (.reloadAuth r) (s.snapshotRead t c half r.epoch true)
  | unbuilt {pools : Nat} (t : Tick σ) :
      Move source cr env plain plaintext s (.reloadRoutes pools) (s.giveUp t)
  | built {pools : Nat} {t : Tick σ} {c : κ} {applied : Bool} {doc : Entries String Toml}
      {built : List Route} (hphase : s.phase = .merged t c applied)
      (hdoc : source.document c = some doc) (hbuilt : source.buildRoutes pools doc = some built) :
      Move source cr env plain plaintext s (.reloadRoutes pools)
        ((if applied then s.settle t else s.giveUp t).putRoutes c
          (updateRoutes plain s.routes built))

variable {again applied : Bool} {c : κ} {r : Reading} {s s' : WatchWorld κ σ}
  {snapshot : Snapshot κ} {t : Tick σ} {e : WatchEvent κ} {half : Option AuthConfig}

theorem move_of_stepAuth (hph : s.phase = .reading t c snapshot again)
    (hs : stepAuth source cr env plaintext s t c snapshot again r = some s') :
    Move source cr env plain plaintext s (.reloadAuth r) s' := by
  revert hs
  fun_cases stepAuth source cr env plaintext s t c snapshot again r with
  | case1 hepoch =>
    rintro ⟨⟩
    exact .merge hph hepoch
  | case2 | case3 =>
    rintro ⟨⟩
    exact .leave hph
  | case4 hepoch ha hbehind half hload =>
    rintro ⟨⟩
    exact .reread hph hbehind hload
  | _ => rintro ⟨⟩

theorem move_of_stepRoutes (hph : s.phase = .merged t c applied) (pools : Nat) :
    Move source cr env plain plaintext s (.reloadRoutes pools)
      (stepRoutes source plain s t c applied pools) := by
  unfold stepRoutes
  rcases hbuilt : (source.document c).bind (source.buildRoutes pools) with _ | built
  · exact .unbuilt t
  · obtain ⟨doc, hdoc, hr⟩ := bind_eq_some_iff.mp hbuilt
    exact .built hph hdoc hr

theorem move_of_step [DecidableEq σ] (hstep : step source cr env plain plaintext s e = some s') :
    Move source cr env plain plaintext s e s' := by
  revert hstep
  fun_cases step source cr env plain plaintext s e with
  | case1 c =>
    rintro ⟨⟩
    exact .edit c
  | case4 c auth =>
    rintro ⟨⟩
    exact .enroll c auth
  | case5 =>
    intro hstep
    rcases map_eq_some_iff.mp hstep with ⟨built, hbuilt, rfl⟩
    rcases bind_eq_some_iff.mp hbuilt with ⟨doc, hload, hrout⟩
    rcases bind_eq_some_iff.mp hload with ⟨doc', hdoc, hcon⟩
    cases loadConfig_eq_some hcon
    exact .startRoutes hdoc hrout
  | case7 =>
    intro hstep
    rcases map_eq_some_iff.mp hstep with ⟨half, hload, rfl⟩
    exact .startAuth hload
  | case9 _ _ _ hph =>
    rintro ⟨⟩
    exact .firstStamp hph
  | case11 =>
    rintro ⟨⟩
    exact .sample _
  | case12 =>
    rintro ⟨⟩
    exact .idle
  | case14 _ t =>
    rintro ⟨⟩
    exact .unread t
  | case15 _ t _ hbehind _ hload =>
    rintro ⟨⟩
    exact .read t hbehind hload
  | case18 _ _ _ _ _ hph => exact move_of_stepAuth hph
  | case20 pools _ _ _ hph =>
    rintro ⟨⟩
    exact move_of_stepRoutes hph pools
  | _ => rintro ⟨⟩

/-! ### What is live is of the content it is said to be from -/

structure Faithful (source : Source κ σ) (cr : Crypto) (env : LoadEnv) (plain : Char → Bool)
    (s : WatchWorld κ σ) : Prop where
  routes : ∀ c, s.routesFrom = some c → source.RoutesOf plain c s.routes
  auth : ∀ c, s.authFrom = some c → source.ClientsOf cr env c s.auth
  snapshot : ∀ t c snapshot again, s.phase = .reading t c snapshot again →
    ∃ r, source.load cr env r snapshot.content = some snapshot.auth

theorem Faithful.of_eq (h : Faithful source cr env plain s) (hr : s'.routes = s.routes)
    (hf : s'.routesFrom = s.routesFrom) (hauth : s'.auth = s.auth)
    (haut : s'.authFrom = s.authFrom)
    (hph : ∀ t c snapshot again, s'.phase = .reading t c snapshot again →
      s.phase = .reading t c snapshot again) :
    Faithful source cr env plain s' where
  routes c hc := by
    rw [hr]
    exact h.routes c (hf ▸ hc)
  auth c hc := by
    rw [hauth]
    exact h.auth c (haut ▸ hc)
  snapshot t c snapshot again hp := h.snapshot t c snapshot again (hph t c snapshot again hp)

theorem Faithful.giveUp (h : Faithful source cr env plain s) (t : Tick σ) :
    Faithful source cr env plain (s.giveUp t) :=
  h.of_eq rfl rfl rfl rfl (fun _ _ _ _ hp => by cases hp)

theorem Faithful.settle (h : Faithful source cr env plain s) (t : Tick σ) :
    Faithful source cr env plain (s.settle t) :=
  h.of_eq rfl rfl rfl rfl (fun _ _ _ _ hp => by cases hp)

theorem Faithful.putRoutes (h : Faithful source cr env plain s) {routes : List Route}
    (hr : source.RoutesOf plain c routes) :
    Faithful source cr env plain (s.putRoutes c routes) where
  routes d hd := by
    cases hd
    exact hr
  auth := h.auth
  snapshot := h.snapshot

theorem Faithful.snapshotRead (h : Faithful source cr env plain s)
    (hload : source.load cr env r s.store = some half) (t : Tick σ) (c : κ) (again : Bool) :
    Faithful source cr env plain (s.snapshotRead t c half r.epoch again) where
  routes := h.routes
  auth := h.auth
  snapshot _ _ _ _ hp := by
    cases hp
    exact ⟨r, hload⟩

theorem clientsOf_applyAuth (hload : source.load cr env r c = some half) (live : AuthConfig) :
    source.ClientsOf cr env c (applyAuth plaintext live half) := by
  refine ⟨r, half, hload, ?_⟩
  intro newAuth hmem
  cases hmem
  exact sameClients_reloadTable plaintext live newAuth

theorem faithful_step (h : Faithful source cr env plain s)
    (hmove : Move source cr env plain plaintext s e s') : Faithful source cr env plain s' := by
  cases hmove with
  | enroll c auth =>
    refine ⟨h.routes, ?_, h.snapshot⟩
    intro c hc
    cases hc
  | startRoutes hdoc hbuilt =>
    have hof : source.RoutesOf plain s.store _ := ⟨_, _, _, hdoc, hbuilt, .inl rfl⟩
    exact (h.putRoutes hof).of_eq rfl rfl rfl rfl (fun _ _ _ _ hp => by cases hp)
  | startAuth hload =>
    refine ⟨h.routes, ?_, fun _ _ _ _ hp => by cases hp⟩
    intro c hc
    cases hc
    refine ⟨_, _, hload, ?_⟩
    intro newAuth hmem
    cases hmem
    exact fun id => rfl
  | edit c | firstStamp hph => exact h.of_eq rfl rfl rfl rfl (fun _ _ _ _ hp => hp)
  | idle => exact h
  | unread t | unbuilt t => exact h.giveUp t
  | read t hbehind hload => exact h.snapshotRead hload t s.store false
  | merge hph hepoch =>
    obtain ⟨r, hload⟩ := h.snapshot _ _ _ _ hph
    refine ⟨h.routes, ?_, fun _ _ _ _ hp => by cases hp⟩
    intro c hc
    cases hc
    exact clientsOf_applyAuth hload s.auth
  | sample t | leave hph => exact h.of_eq rfl rfl rfl rfl (fun _ _ _ _ hp => by cases hp)
  | reread hph hbehind hload => exact h.snapshotRead hload _ _ true
  | @built pools t c applied doc built hph hdoc hbuilt =>
    have hof : source.RoutesOf plain c (updateRoutes plain s.routes built) :=
      ⟨pools, doc, built, hdoc, hbuilt, .inr ⟨s.routes, rfl⟩⟩
    rcases applied with _ | _
    · exact (h.giveUp t).putRoutes hof
    · exact (h.settle t).putRoutes hof

/-! ### A held stamp that is current -/

structure Tracks (source : Source κ σ) (s : WatchWorld κ σ) : Prop where
  /-- A held stamp that is current is that of the content that was read last. -/
  current : s.Holds (source.stamp s.store) → s.lastRead = some s.store
  /-- The recorded stamp is that of what is live, if nothing else was read since. -/
  live : ∀ c, s.recorded = some (source.stamp c) → s.lastRead = some c →
    s.routesFrom = some c ∧ s.authFrom = some c
  /-- Both halves of a reload are of one content, if a held stamp is that of the
      last one read. -/
  content : ∀ c d, s.phase.content = some c → s.lastRead = some d →
    s.Holds (source.stamp d) → c = d
  /-- A snapshot whose epoch has not moved was the last read. -/
  snapshot : ∀ t c snapshot again, s.phase = .reading t c snapshot again →
    snapshot.epoch ≤ s.epoch ∧ (s.epoch = snapshot.epoch → s.lastRead = some snapshot.content)
  merged : ∀ t c, s.phase = .merged t c true → s.authFrom = s.lastRead

@[simp] theorem recorded_giveUp (s : WatchWorld κ σ) (t : Tick σ) :
    (s.giveUp t).recorded = s.recorded := by
  unfold recorded giveUp
  cases s.watch <;> rfl

theorem recorded_settle {stamp : σ} (h : (s.settle t).recorded = some stamp) :
    t.current = stamp := by
  unfold recorded settle at h
  rcases hwat : s.watch with _ | w
  · simp [hwat] at h
  · rw [hwat] at h
    exact Option.some.inj h

theorem holds_congr (hrec : s'.recorded = s.recorded)
    (hund : s'.phase.underWay = s.phase.underWay) (stamp : σ) :
    s'.Holds stamp ↔ s.Holds stamp := by
  unfold Holds
  rw [hrec, hund]

theorem Tracks.of_quiet (hq : s.phase.underWay = none)
    (hcur : s.recorded = some (source.stamp s.store) → s.lastRead = some s.store)
    (hli : ∀ c, s.recorded = some (source.stamp c) → s.lastRead = some c →
      s.routesFrom = some c ∧ s.authFrom = some c) : s.Tracks source where
  current hhol := by
    rcases hhol with hrec | hund
    · exact hcur hrec
    · simp [hq] at hund
  live := hli
  content c _ hc := by
    cases hph : s.phase with
    | reading | merged => rw [hph] at hq; cases hq
    | _ => rw [hph] at hc; cases hc
  snapshot _ _ _ _ hph := by
    rw [hph] at hq
    cases hq
  merged _ _ hph := by
    rw [hph] at hq
    cases hq

theorem Tracks.giveUp (h : s.Tracks source) (t : Tick σ) : (s.giveUp t).Tracks source := by
  refine .of_quiet rfl ?_ ?_
  · rw [recorded_giveUp]
    exact fun hrec => h.current (.inl hrec)
  · rw [recorded_giveUp]
    exact h.live

theorem Tracks.snapshotRead (h : s.Tracks source) (half : Option AuthConfig) {epoch : Nat}
    (again : Bool) (hepoch : epoch ≤ s.epoch)
    (hcon : source.stamp s.store = t.current ∨ s.Holds (source.stamp s.store) → c = s.store) :
    (s.snapshotRead t c half epoch again).Tracks source where
  current _ := rfl
  live d hrec hread := by
    cases hread
    exact h.live s.store hrec (h.current (.inl hrec))
  content c' d hc hread hhol := by
    cases hc
    cases hread
    rcases hhol with hrec | hund
    · exact hcon (.inr (.inl hrec))
    · exact hcon (.inl (Option.some.inj hund).symm)
  snapshot _ _ _ _ hph := by
    cases hph
    exact ⟨hepoch, fun _ => rfl⟩
  merged _ _ hph := by cases hph

/-- Leaving the first half of a reload. `authFrom` is moved only by a merge, and then
    to the content that was read last. -/
theorem Tracks.merge (h : s.Tracks source) (hph : s.phase = .reading t c snapshot again)
    (hph' : s'.phase = .merged t c applied) (hst : s'.store = s.store)
    (hwat : s'.watch = s.watch) (hro : s'.routesFrom = s.routesFrom)
    (hread : s'.lastRead = s.lastRead)
    (hauth : s'.authFrom = s.lastRead ∨ applied = false ∧ s'.authFrom = s.authFrom) :
    s'.Tracks source := by
  have hrec : s'.recorded = s.recorded := by
    unfold recorded
    rw [hwat]
  have hhol := holds_congr hrec (show s'.phase.underWay = s.phase.underWay by
    rw [hph, hph']
    rfl)
  refine ⟨?_, ?_, ?_, ?_, ?_⟩
  · rw [hst, hread, hhol]
    exact h.current
  · intro d hd hla
    rw [hrec] at hd
    rw [hread] at hla
    obtain ⟨hfr, hcl⟩ := h.live d hd hla
    refine ⟨hro.trans hfr, ?_⟩
    rcases hauth with hauth | ⟨_, hauth⟩
    · exact hauth.trans hla
    · exact hauth.trans hcl
  · intro c' d hc hla hd
    rw [hph'] at hc
    rw [hread] at hla
    refine h.content c' d ?_ hla ((hhol _).mp hd)
    rw [hph]
    exact hc
  · intro _ _ _ _ hp
    rw [hph'] at hp
    cases hp
  · intro _ _ hp
    rw [hph'] at hp
    cases hp
    rcases hauth with hauth | ⟨happ, _⟩
    · exact hauth.trans hread.symm
    · cases happ

/-- The second read of a reload. The stamp it was started by is one of those the
    watcher holds, so when it is current nothing was edited since the first. -/
theorem Tracks.reread (h : s.Tracks source) (hph : s.phase = .reading t c snapshot again)
    (half : Option AuthConfig) {epoch : Nat} (hbehind : epoch ≤ s.epoch) :
    (s.snapshotRead t c half epoch true).Tracks source := by
  have hund : s.phase.underWay = some t.current := by rw [hph]; rfl
  have hcon : s.phase.content = some c := by rw [hph]; rfl
  refine h.snapshotRead half true hbehind ?_
  intro hs
  have hhol : s.Holds (source.stamp s.store) := by
    rcases hs with hcur | hhol
    · exact .inr (hund.trans (congrArg some hcur.symm))
    · exact hhol
  exact h.content c s.store hcon (h.current hhol) hhol

theorem Tracks.built {s : WatchWorld κ σ} {t : Tick σ} {c : κ} {applied : Bool}
    (h : s.Tracks source) (hph : s.phase = .merged t c applied) (routes : List Route) :
    ((if applied then s.settle t else s.giveUp t).putRoutes c routes).Tracks source := by
  have hund : s.phase.underWay = some t.current := by rw [hph]; rfl
  have hcon : s.phase.content = some c := by rw [hph]; rfl
  rcases applied with _ | _
  · refine .of_quiet rfl (fun hrec => (h.giveUp t).current (.inl hrec)) ?_
    intro d hrec hread
    have hhe : s.recorded = some (source.stamp d) := (recorded_giveUp s t) ▸ hrec
    have hd : c = d := h.content c d hcon hread (.inl hhe)
    exact ⟨congrArg some hd, (h.live d hhe hread).2⟩
  · -- The recorded stamp is now the reload's own, which was held all along.
    refine .of_quiet rfl ?_ ?_
    · intro hrec
      have hst := recorded_settle hrec
      exact h.current (.inr (hst ▸ hund))
    · intro d hrec hread
      have hst := recorded_settle hrec
      have hd : c = d := h.content c d hcon hread (.inr (hst ▸ hund))
      exact ⟨congrArg some hd, (h.merged t c hph).trans hread⟩

theorem Tracks.enroll (h : s.Tracks source) (hhe : ¬s.Holds (source.stamp c))
    (auth : AuthConfig) :
    ({ s with
        store := c
        auth := auth
        epoch := s.epoch + 1
        authFrom := none
        lastRead := none } : WatchWorld κ σ).Tracks source where
  current hhol := absurd hhol hhe
  live _ _ hread := by cases hread
  content _ _ _ hread := by cases hread
  snapshot t c' snapshot again hph := by
    have hbehind := (h.snapshot t c' snapshot again hph).1
    refine ⟨Nat.le_succ_of_le hbehind, ?_⟩
    intro hepoch
    have hmov : s.epoch + 1 = snapshot.epoch := hepoch
    omega
  merged _ _ _ := rfl

theorem Tracks.firstStamp {stamped : Bool} (hph : s.phase = .waiting)
    (hto : stamped = true → s.Took s.store) (now : Nat) :
    ({ s with
        watch := some (.new (if stamped then some (source.stamp s.store) else none) now) } :
      WatchWorld κ σ).Tracks source := by
  have hq : s.phase.underWay = none := by rw [hph]; rfl
  rcases stamped with _ | _
  · refine .of_quiet hq ?_ ?_
    · intro hrec
      cases hrec
    · intro _ hrec
      cases hrec
  · obtain ⟨hro, hauth, hread⟩ := hto rfl
    refine .of_quiet hq (fun _ => hread) ?_
    intro d _ hla
    cases hread.symm.trans hla
    exact ⟨hro, hauth⟩

theorem tracks_step (h : s.Tracks source) (hok : s.Unraced source e)
    (hmove : Move source cr env plain plaintext s e s') : s'.Tracks source := by
  cases hmove with
  | edit c => exact ⟨hok, h.live, h.content, h.snapshot, h.merged⟩
  | enroll c auth => exact h.enroll hok auth
  | startRoutes hdoc hbuilt =>
    refine .of_quiet rfl (fun _ => rfl) ?_
    intro d hrec hread
    cases hread
    exact ⟨rfl, (h.live s.store hrec (h.current (.inl hrec))).2⟩
  | startAuth hload =>
    refine .of_quiet rfl (fun _ => rfl) ?_
    intro d hrec hread
    cases hread
    exact ⟨(h.live s.store hrec (h.current (.inl hrec))).1, rfl⟩
  | firstStamp hph => exact .firstStamp hph hok _
  | idle => exact h
  | sample t => exact .of_quiet rfl (fun hrec => h.current (.inl hrec)) h.live
  | unread t | unbuilt t => exact h.giveUp t
  | read t hbehind hload => exact h.snapshotRead _ false hbehind (fun _ => rfl)
  | merge hph hepoch =>
    have hla := (h.snapshot _ _ _ _ hph).2 hepoch
    exact h.merge hph rfl rfl rfl rfl rfl (.inl hla.symm)
  | leave hph => exact h.merge hph rfl rfl rfl rfl rfl (.inr ⟨rfl, rfl⟩)
  | reread hph hbehind hload => exact h.reread hph _ hbehind
  | built hph hdoc hbuilt => exact h.built hph _

/-! ### Runs -/

theorem faithful_start (c : κ) : Faithful source cr env plain (start c : WatchWorld κ σ) where
  routes _ hc := by cases hc
  auth _ hc := by cases hc
  snapshot _ _ _ _ hp := by cases hp

theorem tracks_start (c : κ) : (start c : WatchWorld κ σ).Tracks source := by
  refine .of_quiet rfl ?_ ?_
  · intro hrec
    cases hrec
  · intro _ hrec
    cases hrec

theorem auth_of_stepAuth (hn : snapshot.auth = none)
    (hs : stepAuth source cr env plaintext s t c snapshot again r = some s') :
    s'.auth = s.auth := by
  revert hs
  fun_cases stepAuth source cr env plaintext s t c snapshot again r <;> rintro ⟨⟩
  · rw [hn]
    rfl
  all_goals rfl

/-- Whenever the recorded stamp is the store's, the live routes are those of the
    content the store holds, and so are the clients where it has an auth section. A
    content without the section leaves the clients as they are. -/
theorem recorded_is_live [DecidableEq σ] {c : κ} {s : WatchWorld κ σ} {events : List (WatchEvent κ)}
    (hunraced : Machine.Along (step source cr env plain plaintext) (Unraced source) (start c)
      events)
    (hrun : Machine.run (step source cr env plain plaintext) (start c) events = some s) :
    (s.recorded = some (source.stamp s.store) →
        source.RoutesOf plain s.store s.routes ∧ source.ClientsOf cr env s.store s.auth) ∧
      ∀ t content snapshot again r s', s.phase = .reading t content snapshot again →
        snapshot.auth = none →
        step source cr env plain plaintext s (.reloadAuth r) = some s' → s'.auth = s.auth := by
  have hfa : Faithful source cr env plain s :=
    Machine.invariant _ (fun _ _ _ h hst => faithful_step h (move_of_step hst))
      (faithful_start c) hrun
  have htr : s.Tracks source :=
    Machine.invariant_along _ (fun _ _ _ h hok hst => tracks_step h hok (move_of_step hst))
      (tracks_start c) hunraced hrun
  refine ⟨?_, ?_⟩
  · intro hrec
    have hread := htr.current (.inl hrec)
    obtain ⟨hro, hauth⟩ := htr.live s.store hrec hread
    exact ⟨hfa.routes s.store hro, hfa.auth s.store hauth⟩
  · intro t content snapshot again r s' hph hno hst
    simp only [step, hph] at hst
    exact auth_of_stepAuth hno hst

end

/-! ### Three runs -/

open Toml

/-- Three contents of a store: one with a client, one with another client and host,
    and one without an auth section. -/
def contents : List (Entries String Toml) :=
  [[("host", str "a.example"),
      ("auth", table [("clients", table [("alice", table [("secret", str "JBSWY3DP")])])])],
    [("host", str "b.example"),
      ("auth", table [("clients", table [("bob", table [("secret", str "KRSXG5A")])])])],
    [("host", str "c.example")]]

def threeContents : Source Nat Nat :=
  { document := fun n => contents[n]?
    stamp := id
    buildRoutes := fun pools doc =>
      match doc.lookup "host" with
      | some (.str host) => some [Route.simple host true pools]
      | _ => none }

def stepThree : WatchWorld Nat Nat → WatchEvent Nat → Option (WatchWorld Nat Nat) :=
  step threeContents Crypto.toy LoadEnv.plain (fun _ => false) none

def reloadOf (n : Nat) : List (WatchEvent Nat) :=
  [.startRoutes 0, .startAuth .plain, .firstStamp true 0, .edit n, .tick true 5000, .read .plain,
    .reloadAuth .plain, .reloadRoutes 1]

theorem recorded_is_live_reload :
    ∃ s, Machine.run stepThree (start 0) (reloadOf 1) = some s ∧
      s.recorded = some (threeContents.stamp s.store) ∧
      threeContents.RoutesOf (fun _ => false) s.store s.routes ∧
      threeContents.ClientsOf Crypto.toy LoadEnv.plain s.store s.auth := by
  have hv : (Machine.run stepThree (start 0) (reloadOf 1)).map
      (fun s => decide (s.recorded = some (threeContents.stamp s.store))) = some true := by decide
  obtain ⟨s, hrun, hrec⟩ := map_eq_some_iff.mp hv
  have hrec := of_decide_eq_true hrec
  have hunr : Machine.Along stepThree (Unraced threeContents) (start 0) (reloadOf 1) := by
    decide
  exact ⟨s, hrun, hrec, (recorded_is_live hunr hrun).1 hrec⟩

/-- A content without an auth section is loaded and its stamp is recorded, while the
    client of the content before it stays live. -/
theorem missing_section_recorded :
    Function.Injective threeContents.stamp ∧
      Machine.Along stepThree (Unraced threeContents) (start 0) (reloadOf 2) ∧
      ∃ s, Machine.run stepThree (start 0) (reloadOf 2) = some s ∧
      s.recorded = some (threeContents.stamp s.store) ∧
      (threeContents.document s.store).map (fun doc => (doc.lookup "auth").isNone) = some true ∧
      (s.auth.clients.lookup "alice").isSome = true := by
  have hv : (Machine.run stepThree (start 0) (reloadOf 2)).map
      (fun s => (decide (s.recorded = some (threeContents.stamp s.store)),
        decide ((threeContents.document s.store).map (fun doc => (doc.lookup "auth").isNone) =
          some true),
        (s.auth.clients.lookup "alice").isSome)) = some (true, true, true) := by decide
  obtain ⟨s, hrun, hval⟩ := map_eq_some_iff.mp hv
  simp only [Prod.mk.injEq, decide_eq_true_eq] at hval
  exact ⟨fun _ _ h => h, by decide, s, hrun, hval⟩

end WatchWorld

end Nexapipe
