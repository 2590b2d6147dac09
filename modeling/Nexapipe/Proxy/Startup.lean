import Nexapipe.Lib.Run
import Nexapipe.Watcher.Reload

/-!
# Starting up while the watcher reloads

Two-factor runs on the tunnel's listener only, so a plaintext listener that is exposed to the
network must not serve while two-factor is on. Two checks are there to keep them apart:
start-up refuses to go on when it finds both, and a reload refuses to turn two-factor on
when it finds such a listener recorded.

Start-up spawns the watcher first. It then reads `enabled`, and only later binds the
listener, checks for the conflict, records the listener for the watcher and serves. The
watcher may reload at any moment in between. A reload holds the lock of the live section
from the moment it looks at the record until it has written, which keeps start-up from
reading `enabled` in between but from nothing else.

The check of start-up looks at the value it read, not at the live one, and the check of a reload
finds no record until there is one.
-/

namespace Nexapipe.Startup

/-! ### The state -/

structure ServerConfig where
  listenAddr : Option String
  expose : Bool

/-- How far start-up has come. `authEnabled` is the value it read. -/
inductive Stage where
  | starting
  | watching
  | asked (authEnabled : Bool)
  | bound (authEnabled : Bool) (addr : String) (loopback : Bool)
  | checked (addr : String)
  | recorded (addr : String)
  | serving (addr : String)
  /-- No `listen_addr`: start-up goes on without the listener. -/
  | closed
  /-- Start-up gave up. -/
  | refused (reason : String)
deriving DecidableEq

structure State where
  /-- The live section, where two-factor is configured at all. -/
  auth : Option AuthConfig
  /-- The record of the listener, which is written once. -/
  plaintext : Option PlaintextListener
  /-- A reload that holds the lock: the record it looked at, and the section of the file. -/
  reload : Option (Option PlaintextListener × AuthConfig)
  stage : Stage

def State.init (auth : Option AuthConfig) : State :=
  { auth := auth, plaintext := none, reload := none, stage := .starting }

def State.enabled (s : State) : Bool :=
  s.auth.any (·.enabled)

def State.exposedServing (server : ServerConfig) (s : State) : Bool :=
  match s.stage with
  | .serving _ => server.expose
  | _ => false

/-! ### The steps -/

def mayBindPlaintext (loopback exposed : Bool) : Bool :=
  exposed || loopback

/-- The steps of start-up, in its order, and those of the watcher. `bind` carries what became
    of the socket: an error, or its address and whether that is a loopback one. -/
inductive Event where
  | spawnWatcher
  | readEnabled
  | bind (result : Except String (String × Bool))
  | checkConflict
  | recordListener
  | serve
  | reloadLock (incoming : AuthConfig)
  | reloadWrite

def checkBound (server : ServerConfig) (authEnabled : Bool) (addr : String) (loopback : Bool) :
    Stage :=
  if !mayBindPlaintext loopback server.expose then
    .refused (s!"[server] listen_addr binds {addr}, which is reachable from the network, and " ++
      "the plaintext listener cannot authenticate: every request reaching it goes " ++
      "straight to a route. Use a loopback address, or set [server] expose = true " ++
      "when something else gates the port")
  else
    match plaintextAuthConflict addr server.expose authEnabled with
    | some refusal => .refused refusal
    | none => .checked addr

def step (server : ServerConfig) (s : State) : Event → Option State
  | .spawnWatcher =>
    match s.stage with
    | .starting => some { s with stage := .watching }
    | _ => none
  | .readEnabled =>
    -- The value is read under the lock, which a reload may hold.
    match s.stage, s.reload with
    | .watching, none => some { s with stage := .asked s.enabled }
    | _, _ => none
  | .bind result =>
    match s.stage, server.listenAddr, result with
    | .asked _, none, _ => some { s with stage := .closed }
    | .asked _, some _, .error e => some { s with stage := .refused e }
    | .asked authEnabled, some _, .ok (addr, loopback) =>
      some { s with stage := .bound authEnabled addr loopback }
    | _, _, _ => none
  | .checkConflict =>
    match s.stage with
    | .bound authEnabled addr loopback =>
      some { s with stage := checkBound server authEnabled addr loopback }
    | _ => none
  | .recordListener =>
    match s.stage with
    | .checked addr =>
      some { s with
        plaintext := s.plaintext.or (some { addr := addr, exposed := server.expose })
        stage := .recorded addr }
    | _ => none
  | .serve =>
    match s.stage with
    | .recorded addr => some { s with stage := .serving addr }
    | _ => none
  | .reloadLock incoming =>
    -- The watcher runs once it is spawned, and has nothing to do without a live section.
    if s.stage ≠ .starting ∧ s.auth.isSome ∧ s.reload.isNone then
      some { s with reload := some (s.plaintext, incoming) }
    else none
  | .reloadWrite =>
    match s.reload, s.auth with
    | some (seen, incoming), some live =>
      some { s with auth := some (reloadTable seen live incoming), reload := none }
    | _, _ => none

/-! ### What keeps two-factor off -/

theorem moveEnabled_stays_off {seen : Option PlaintextListener} {live incoming : AuthConfig}
    (hl : live.enabled = false)
    (h : incoming.enabled = false ∨ ∃ l, seen = some l ∧ l.exposed = true) :
    (moveEnabled seen live incoming).1.enabled = false := by
  rcases moveEnabled_cases seen live incoming with hs | ⟨-, hon, hmove⟩
  · rw [hs]
    exact hl
  rcases h with hoff | ⟨l, rfl, hexp⟩
  · simp [hoff] at hon
  -- The record makes the reload refuse, so the gate was not moved after all.
  have href : (authEnabledRefusal live incoming (some l)).isSome = true := by
    simp [authEnabledRefusal, hl, hon, plaintextAuthConflict, hexp]
  obtain ⟨message, hmes⟩ := Option.isSome_iff_exists.mp href
  rw [moveEnabled, hmes] at hmove
  exact absurd (congrArg Prod.snd hmove) Bool.false_ne_true

def Stage.readOff : Stage → Prop
  | .asked authEnabled | .bound authEnabled _ _ => authEnabled = false
  | .checked _ | .recorded _ | .serving _ => True
  | .starting | .watching | .closed | .refused _ => False

variable {server : ServerConfig}

theorem readOff_of_checkBound {authEnabled loopback : Bool} {addr : String}
    (hexp : server.expose = true) (h : (checkBound server authEnabled addr loopback).readOff) :
    authEnabled = false := by
  unfold checkBound at h
  rw [hexp] at h
  rcases authEnabled with _ | _
  · rfl
  · simp [mayBindPlaintext, plaintextAuthConflict, Stage.readOff] at h

/-! ### What a step can do -/

theorem step_cases {s s' : State} {e : Event} (h : step server s e = some s') :
    (∃ stage, s' = { s with stage := stage } ∧
      (server.expose = true → stage.readOff →
        s.stage.readOff ∨ s.reload = none ∧ s.enabled = false)) ∨
      (∃ addr, s.stage = .checked addr ∧ s' = { s with
        plaintext := s.plaintext.or (some { addr := addr, exposed := server.expose })
        stage := .recorded addr }) ∨
      (∃ incoming, e = .reloadLock incoming ∧
        s' = { s with reload := some (s.plaintext, incoming) }) ∨
      ∃ seen incoming live, s.reload = some (seen, incoming) ∧ s.auth = some live ∧
        s' = { s with auth := some (reloadTable seen live incoming), reload := none } := by
  revert h
  fun_cases step server s e with
  | case1 | case5 | case6 =>
    rintro ⟨⟩
    exact .inl ⟨_, rfl, fun _ hoff => hoff.elim⟩
  | case3 hrel =>
    rintro ⟨⟩
    exact .inl ⟨_, rfl, fun _ hoff => .inr ⟨hrel, hoff⟩⟩
  | case7 _ _ _ _ _ hstage =>
    rintro ⟨⟩
    exact .inl ⟨_, rfl, fun _ hoff => .inl (by rw [hstage]; exact hoff)⟩
  | case9 _ _ _ hstage =>
    rintro ⟨⟩
    refine .inl ⟨_, rfl, fun hexp hoff => .inl ?_⟩
    rw [hstage]
    exact readOff_of_checkBound hexp hoff
  | case11 addr hstage =>
    rintro ⟨⟩
    exact .inr (.inl ⟨addr, hstage, rfl⟩)
  | case13 _ hstage =>
    rintro ⟨⟩
    exact .inl ⟨_, rfl, fun _ _ => .inl (by rw [hstage]; trivial)⟩
  | case15 incoming =>
    rintro ⟨⟩
    exact .inr (.inr (.inl ⟨incoming, rfl, rfl⟩))
  | case17 seen incoming live hauth hrel =>
    rintro ⟨⟩
    exact .inr (.inr (.inr ⟨seen, incoming, live, hrel, hauth, rfl⟩))
  | _ => rintro ⟨⟩

/-! ### The invariant -/

def State.reloadHarmless (s : State) : Prop :=
  ∀ seen incoming, s.reload = some (seen, incoming) →
    incoming.enabled = false ∨ ∃ l, seen = some l ∧ l.exposed = true

structure Inv (server : ServerConfig) (s : State) : Prop where
  record_exposed : ∀ l, s.plaintext = some l → l.exposed = server.expose
  off : server.expose = true → s.stage.readOff → s.enabled = false ∧ s.reloadHarmless

/-- A reload that turns two-factor on takes its lock before start-up has read `enabled`, or
    when the listener has been recorded, unless no exposed listener is configured. -/
def Apart (server : ServerConfig) (s : State) : Event → Prop
  | .reloadLock incoming =>
    server.expose = true → incoming.enabled = true →
      s.stage = .watching ∨ s.plaintext.isSome = true
  | _ => True

instance Apart.decidable (server : ServerConfig) (s : State) :
    ∀ e, Decidable (Apart server s e)
  | .reloadLock _ => inferInstanceAs (Decidable (_ → _ → _ ∨ _))
  | .spawnWatcher | .readEnabled | .bind _ | .checkConflict | .recordListener | .serve
  | .reloadWrite => inferInstanceAs (Decidable True)

theorem inv_init (server : ServerConfig) (auth : Option AuthConfig) :
    Inv server (State.init auth) where
  record_exposed := nofun
  off _ h := h.elim

theorem step_inv {s s' : State} {e : Event} (h : Inv server s) (hap : Apart server s e)
    (hst : step server s e = some s') : Inv server s' := by
  rcases step_cases hst with ⟨stage, rfl, hstage⟩ | ⟨addr, hstage, rfl⟩ | ⟨incoming, rfl, rfl⟩ |
    ⟨seen, incoming, live, hrel, hauth, rfl⟩
  · refine ⟨h.record_exposed, fun hexp hoff => ?_⟩
    rcases hstage hexp hoff with hbef | ⟨hno, hread⟩
    · exact h.off hexp hbef
    -- The value was read under the lock, so no reload is under way.
    refine ⟨hread, ?_⟩
    intro seen incoming hso
    cases hno.symm.trans hso
  · refine ⟨?_, fun hexp _ => h.off hexp (by rw [hstage]; trivial)⟩
    intro l hl
    cases hp : s.plaintext with
    | none =>
      rw [hp] at hl
      cases hl
      rfl
    | some l' =>
      rw [hp] at hl
      cases hl
      exact h.record_exposed _ hp
  · refine ⟨h.record_exposed, fun hexp hoff => ⟨(h.off hexp hoff).1, ?_⟩⟩
    intro seen incoming' hso
    cases hso
    rcases hon : incoming.enabled with _ | _
    · exact .inl rfl
    rcases hap hexp hon with hwat | hrec
    · rw [hwat] at hoff
      exact hoff.elim
    · obtain ⟨l, hl⟩ := Option.isSome_iff_exists.mp hrec
      exact .inr ⟨l, hl, (h.record_exposed l hl).trans hexp⟩
  · refine ⟨h.record_exposed, fun hexp hoff => ⟨?_, nofun⟩⟩
    obtain ⟨hen, hhar⟩ := h.off hexp hoff
    have hli : live.enabled = false := by
      simpa [State.enabled, hauth] using hen
    exact moveEnabled_stays_off hli (hhar seen incoming hrel)

/-! ### Runs -/

/-- In a run in which no reload that turns two-factor on falls between the two checks, an
    exposed plaintext listener never serves while two-factor is on. -/
theorem exposed_listener_ungated (server : ServerConfig) (auth : Option AuthConfig)
    {events : List Event} {s : State}
    (hapart : Machine.Along (step server) (Apart server) (State.init auth) events)
    (hrun : Machine.run (step server) (State.init auth) events = some s) :
    ¬(s.exposedServing server = true ∧ s.enabled = true) := by
  have hinv : Inv server s :=
    Machine.invariant_along (Inv server) (fun _ _ _ => step_inv) (inv_init server auth) hapart hrun
  rintro ⟨hser, he⟩
  unfold State.exposedServing at hser
  split at hser
  next addr hstage =>
    have hoff := (hinv.off hser (by rw [hstage]; trivial)).1
    rw [hoff] at he
    cases he
  next => cases hser

def exposedServer : ServerConfig :=
  { listenAddr := some "0.0.0.0:8080", expose := true }

def lateReload : List Event :=
  [.spawnWatcher, .readEnabled, .bind (.ok ("0.0.0.0:8080", false)), .checkConflict,
    .recordListener, .serve, .reloadLock (AuthConfig.gated []), .reloadWrite]

theorem exposed_listener_ungated_late_reload :
    ∃ s, Machine.run (step exposedServer) (State.init (some AuthConfig.default)) lateReload =
        some s ∧
      s.exposedServing exposedServer = true ∧ s.enabled = false := by
  refine ⟨_, rfl, rfl, ?_⟩
  have ha : Machine.Along (step exposedServer) (Apart exposedServer)
      (State.init (some AuthConfig.default)) lateReload := by decide
  have hnot := exposed_listener_ungated exposedServer (some AuthConfig.default) ha rfl
  exact Bool.eq_false_iff.mpr fun he => hnot ⟨rfl, he⟩

/-- A reload between the reading and the record: start-up checks a value that is no longer
    true, and the reload finds no record to check. -/
theorem reload_between_checks :
    (Machine.run (step exposedServer) (State.init (some AuthConfig.default))
      [.spawnWatcher, .readEnabled, .reloadLock (AuthConfig.gated []), .reloadWrite,
        .bind (.ok ("0.0.0.0:8080", false)), .checkConflict, .recordListener, .serve]).any
      (fun s => s.exposedServing exposedServer && s.enabled) = true := by
  decide

end Nexapipe.Startup
