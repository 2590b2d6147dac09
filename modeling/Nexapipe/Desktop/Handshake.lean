import Nexapipe.Lib.Interleave

/-!
# The handshake between the desktop and its elevated service

Each side draws a nonce and answers for the other's: the caller sends the MAC of the
service's nonce and its own, the service the MAC of the two the other way round. The
service looks for the token among those that are published, and asks the system whose
connection it is.

Connections read and sessions are told whatever anybody writes, in any order, with nonces of any
shape. What the attacker cannot do is the condition on a run (`Assumed`): make up a MAC nobody
made, or put a nonce into a challenge before it was drawn.
-/

namespace Nexapipe.Ipc

open List

inductive AccountId where
  | unix (uid : Nat)
  | windows (sid : String)
deriving DecidableEq

structure TokenCandidate where
  token : String
  owner : AccountId

def macText (first second : List Char) : List Char :=
  first ++ '.' :: second

def allows (installedBy : Option AccountId) (peer owner : AccountId) : Bool :=
  match installedBy with
  | some installer => peer = installer && owner = installer
  | none => peer = owner

inductive IpcMessage (ρ : Type) where
  | auth (nonce mac : List Char)
  | request (r : ρ)

inductive ErrorCode where
  | serviceUnauthorized
  | serviceIpcToken
  | serviceMalformedRequest

inductive IpcResponse where
  | challenge (nonce : List Char)
  | authOk (mac : List Char)
  | error (code : ErrorCode) (detail : String)
  | answer

section

variable {ρ : Type} (hmac : String → List Char → List Char)

def authMac (token : String) (serviceNonce callerNonce : List Char) : List Char :=
  hmac token (macText serviceNonce callerNonce)

def proofMac (token : String) (serviceNonce callerNonce : List Char) : List Char :=
  hmac token (macText callerNonce serviceNonce)

def tokenForAuth (candidates : List TokenCandidate)
    (serviceNonce callerNonce presented : List Char) : Option TokenCandidate :=
  candidates.find? fun c => authMac hmac c.token serviceNonce callerNonce = presented

/-! ### A connection of the service -/

structure Conn where
  nonce : List Char
  authenticated : Bool
  closed : Bool

inductive Read (ρ : Type) where
  | gone
  | late
  | unreadable
  | malformed
  | message (m : IpcMessage ρ)

structure Sent where
  token : String
  challenge : List Char
  nonce : List Char

/-- What a turn of the loop comes to: the connection, the response, the request whose
    handler ran, and the proof that was sent. -/
structure Turn (ρ : Type) where
  conn : Conn
  response : Option IpcResponse
  ran : Option ρ
  proof : Option Sent

def Conn.drop (c : Conn) (response : Option IpcResponse) : Turn ρ :=
  ⟨{ c with closed := true }, response, none, none⟩

def refused (detail : String) : Option IpcResponse :=
  some (.error .serviceUnauthorized detail)

/-- One turn of `handle_client`. `known` is what reading the token files gives, `peer`
    the account on the other end. -/
def handleLine (installedBy : Option AccountId) (known : Option (List TokenCandidate))
    (peer : Option AccountId) (c : Conn) : Read ρ → Turn ρ
  | .gone => c.drop none
  -- Only who is not authenticated is waited for with a deadline.
  | .late => if c.authenticated then ⟨c, none, none, none⟩ else c.drop none
  | .unreadable | .malformed =>
    if c.authenticated then ⟨c, some (.error .serviceMalformedRequest ""), none, none⟩
    else c.drop none
  | .message (.request r) =>
    if c.authenticated then ⟨c, some .answer, some r, none⟩ else c.drop (refused "")
  | .message (.auth nonce mac) =>
    if c.authenticated then ⟨c, refused "", none, none⟩
    else
      match known, peer with
      | none, _ => c.drop none
      | some _, none =>
        c.drop (refused "the account behind this connection could not be identified")
      | some known, some peer =>
        match tokenForAuth hmac known c.nonce nonce mac with
        | none =>
          c.drop (if known.isEmpty then
              some (.error .serviceIpcToken "no desktop session has published an IPC token")
            else refused "")
        | some candidate =>
          if allows installedBy peer candidate.owner then
            ⟨{ c with authenticated := true },
              some (.authOk (proofMac hmac candidate.token c.nonce nonce)), none,
              some ⟨candidate.token, c.nonce, nonce⟩⟩
          else c.drop (refused "this service is installed for another account")

/-! ### A session of the desktop -/

inductive Phase where
  | opened
  | answered (challenge nonce : List Char)
  | trusting (challenge nonce : List Char)
  | failed
deriving DecidableEq

structure Session where
  token : String
  phase : Phase

def Session.receive (s : Session) (drawn : Option (List Char)) (response : Option IpcResponse) :
    Session :=
  { s with
    phase :=
      match s.phase, response with
      | .opened, some (.challenge nonce) =>
        match drawn with
        | some own => .answered nonce own
        | none => .failed
      | .answered challenge own, some (.authOk mac) =>
        if mac = proofMac hmac s.token challenge own then .trusting challenge own else .failed
      | .trusting challenge own, _ => .trusting challenge own
      | _, _ => .failed }

end

/-! ### Any number of both -/

structure Received where
  conn : Nat
  nonce : List Char
  mac : List Char
  known : List TokenCandidate
  peer : AccountId

/-- The two sides, and what has happened: the requests that were obeyed, the Auths
    received, the MACs of the sessions and those of the other holders of a token. -/
structure World (ρ : Type) where
  conns : List Conn
  sessions : List Session
  obeyed : List (Nat × ρ)
  received : List Received
  answers : List Sent
  proofs : List Sent

def start (ρ : Type) : World ρ :=
  ⟨[], [], [], [], [], []⟩

inductive Event (ρ : Type) where
  | accept (nonce : List Char)
  | line (conn : Nat) (read : Read ρ) (known : Option (List TokenCandidate))
      (peer : Option AccountId)
  | dial (token : String)
  | receive (session : Nat) (drawn : Option (List Char)) (response : Option IpcResponse)
  /-- Somebody else who holds a token computes a MAC. -/
  | elsewhere (mac : Sent)

section

variable {ρ : Type} (hmac : String → List Char → List Char) (installedBy : Option AccountId)

def Received.of (conn : Nat) : Read ρ → Option (List TokenCandidate) → Option AccountId →
    List Received
  | .message (.auth nonce mac), some known, some peer => [⟨conn, nonce, mac, known, peer⟩]
  | _, _, _ => []

def Session.answers (s : Session) : Option (List Char) → Option IpcResponse → List Sent
  | some own, some (.challenge challenge) =>
    if s.phase = .opened then [⟨s.token, challenge, own⟩] else []
  | _, _ => []

def step (w : World ρ) : Event ρ → Option (World ρ)
  | .accept nonce => some { w with conns := w.conns ++ [⟨nonce, false, false⟩] }
  | .line i read known peer =>
    match w.conns[i]? with
    | none => none
    | some c =>
      if c.closed then none
      else
        let turn := handleLine hmac installedBy known peer c read
        some
          { w with
            conns := w.conns.set i turn.conn
            obeyed := turn.ran.toList.map (fun r => (i, r)) ++ w.obeyed
            received := Received.of i read known peer ++ w.received
            proofs := turn.proof.toList ++ w.proofs }
  | .dial token => some { w with sessions := w.sessions ++ [⟨token, .opened⟩] }
  | .receive j drawn response =>
    match w.sessions[j]? with
    | none => none
    | some s =>
      some
        { w with
          sessions := w.sessions.set j (s.receive hmac drawn response)
          answers := s.answers drawn response ++ w.answers }
  | .elsewhere mac => some { w with proofs := [mac] ++ w.proofs }

def HolderProved (w : World ρ) (token : String) (challenge nonce : List Char) : Prop :=
  ∃ p ∈ w.proofs, p.token = token ∧ macText p.nonce p.challenge = macText nonce challenge

/-- What the attacker cannot do: a nonce that a session draws has no dot in it and is
    inside no challenge that was received, and a MAC that a session takes for the proof
    was computed by a session or another holder. -/
def Assumed (w : World ρ) : Event ρ → Prop
  | .receive j (some own) (some (.challenge challenge)) =>
    ∀ s ∈ w.sessions[j]?, s.phase = .opened →
      '.' ∉ own ∧ ¬own <:+: challenge ∧ ∀ a ∈ w.answers, ¬own <:+: a.challenge
  | .receive j _ (some (.authOk mac)) =>
    ∀ s ∈ w.sessions[j]?, ∀ challenge own, s.phase = .answered challenge own →
      mac = proofMac hmac s.token challenge own →
        (∃ a ∈ w.answers, a.token = s.token ∧
          macText a.challenge a.nonce = macText own challenge) ∨
        HolderProved w s.token challenge own
  | _ => True

/-! ### The service obeys its account -/

def Admits (nonce : List Char) (a : Received) : Prop :=
  ∃ candidate ∈ a.known, authMac hmac candidate.token nonce a.nonce = a.mac ∧
    a.peer = candidate.owner ∧ ∀ installer ∈ installedBy, a.peer = installer

structure Guarded (w : World ρ) : Prop where
  authenticated : ∀ (i : Nat) c, w.conns[i]? = some c → c.authenticated = true →
    ∃ a ∈ w.received, a.conn = i ∧ Admits hmac installedBy c.nonce a
  obeyed : ∀ x ∈ w.obeyed, ∃ c, w.conns[x.1]? = some c ∧ c.authenticated = true

end

section

variable {ρ : Type} {hmac : String → List Char → List Char} {installedBy : Option AccountId}
  {known : Option (List TokenCandidate)} {peer : Option AccountId} {c : Conn} {read : Read ρ}
  {w w' : World ρ} {e : Event ρ} {i j : Nat} {s : Session} {drawn : Option (List Char)}
  {response : Option IpcResponse}

theorem allows_iff {peer owner : AccountId} : allows installedBy peer owner = true ↔
    peer = owner ∧ ∀ installer ∈ installedBy, peer = installer := by
  unfold allows
  rcases installedBy with _ | installer
  · simp
  · simp only [Bool.and_eq_true, decide_eq_true_eq, Option.mem_some_iff, forall_eq']
    constructor <;> rintro ⟨rfl, rfl⟩ <;> exact ⟨rfl, rfl⟩

theorem handleLine_spec :
    let turn := handleLine hmac installedBy known peer c read
    turn.conn.nonce = c.nonce ∧ (c.authenticated = true → turn.conn.authenticated = true) ∧
      (∀ r ∈ turn.ran, c.authenticated = true) ∧
      (turn.conn.authenticated = true → c.authenticated = true ∨
        ∃ a ∈ Received.of i read known peer, a.conn = i ∧ Admits hmac installedBy c.nonce a) := by
  fun_cases handleLine hmac installedBy known peer c read with
  | case8 => exact ⟨rfl, id, fun _ _ => ‹_›, .inl⟩
  | case14 nonce mac _ known peer candidate hfound hall =>
    refine ⟨rfl, fun _ => rfl, nofun, fun _ => .inr ⟨_, mem_singleton_self _, rfl, ?_⟩⟩
    have hmac := find?_some hfound
    exact ⟨candidate, mem_of_find?_eq_some hfound, of_decide_eq_true hmac,
      allows_iff.mp hall⟩
  | _ => exact ⟨rfl, id, nofun, .inl⟩

theorem Guarded.step (h : Guarded hmac installedBy w)
    (hstep : step hmac installedBy w e = some w') : Guarded hmac installedBy w' := by
  revert hstep
  fun_cases Ipc.step hmac installedBy w e with
  | case1 nonce =>
    rintro ⟨⟩
    refine ⟨?_, ?_⟩
    · intro i c hc hauth
      rcases Best.getElem?_append_singleton.mp hc with hold | ⟨-, rfl⟩
      · exact h.authenticated i c hold hauth
      · cases hauth
    · intro x hx
      obtain ⟨c, hc, hauth⟩ := h.obeyed x hx
      exact ⟨c, Best.getElem?_append_singleton.mpr (.inl hc), hauth⟩
  | case4 i read known peer c hc hopen turn =>
    rintro ⟨⟩
    obtain ⟨hnon, hkeep, hran, hnew⟩ :=
      @handleLine_spec ρ hmac installedBy known peer c read i
    have hset : (w.conns.set i turn.conn)[i]? = some turn.conn :=
      List.getElem?_set_self (List.getElem?_eq_some_iff.mp hc).1
    refine ⟨?_, ?_⟩
    · intro j d hd hauth
      rcases Interleave.getElem?_set_eq_some hd with ⟨-, hold⟩ | ⟨rfl, rfl⟩
      · obtain ⟨a, ha, hadm⟩ := h.authenticated j d hold hauth
        exact ⟨a, mem_append_right _ ha, hadm⟩
      rw [hnon]
      rcases hnew hauth with hbef | ⟨a, ha, hadm⟩
      · obtain ⟨a, ha, hadm⟩ := h.authenticated j c hc hbef
        exact ⟨a, mem_append_right _ ha, hadm⟩
      · exact ⟨a, mem_append_left _ ha, hadm⟩
    · intro x hx
      rcases mem_append.mp hx with hnow | hbef
      · simp only [mem_map, Option.mem_toList] at hnow
        obtain ⟨r, hr, rfl⟩ := hnow
        exact ⟨turn.conn, hset, hkeep (hran r hr)⟩
      obtain ⟨d, hd, hauth⟩ := h.obeyed x hbef
      by_cases hx : x.1 = i
      · rw [hx, hc] at hd
        cases hd
        exact ⟨turn.conn, hx ▸ hset, hkeep hauth⟩
      · exact ⟨d, by rw [getElem?_set_ne (Ne.symm hx)]; exact hd, hauth⟩
  | case5 | case7 | case8 =>
    rintro ⟨⟩
    exact ⟨h.authenticated, h.obeyed⟩
  | _ => rintro ⟨⟩

/-! ### The desktop trusts the service -/

theorem nonces_inside {challenge nonce challenge' nonce' : List Char} (hdot : '.' ∉ nonce)
    (h : macText challenge' nonce' = macText nonce challenge) :
    nonce <:+: challenge' ∧ nonce' <:+: challenge := by
  rcases append_eq_append_iff.mp h with ⟨rest, hnon, hre⟩ | ⟨rest, hch, hre⟩
  · rcases rest with _ | ⟨d, rest⟩
    · rw [append_nil] at hnon
      cases hre
      exact ⟨hnon ▸ infix_rfl, infix_rfl⟩
    · -- The dot of the one would be inside the nonce of the other.
      cases hre
      simp [hnon] at hdot
  · rw [hch]
    refine ⟨(prefix_append nonce rest).isInfix, ?_⟩
    rcases rest with _ | ⟨d, rest⟩
    · cases hre
      exact infix_rfl
    · cases hre
      exact ⟨rest ++ ['.'], [], by simp⟩

def Vouched (w : World ρ) (s : Session) : Prop :=
  match s.phase with
  | .answered challenge own => ⟨s.token, challenge, own⟩ ∈ w.answers
  | .trusting challenge own => HolderProved w s.token challenge own
  | _ => True

structure Proved (w : World ρ) : Prop where
  vouched : ∀ s ∈ w.sessions, Vouched w s
  dotless : ∀ a ∈ w.answers, '.' ∉ a.nonce
  apart : ∀ a ∈ w.answers, ∀ b ∈ w.answers,
    ¬(a.nonce <:+: b.challenge ∧ b.nonce <:+: a.challenge)

theorem Vouched.mono (h : Vouched w s) (hans : w.answers ⊆ w'.answers)
    (hpr : w.proofs ⊆ w'.proofs) : Vouched w' s := by
  rcases s with ⟨token, _ | _ | _ | _⟩
  · trivial
  · exact hans h
  · obtain ⟨p, hp, hm⟩ := h
    exact ⟨p, hpr hp, hm⟩
  · trivial

theorem Proved.vouched_receive (h : Proved w) (hs : w.sessions[j]? = some s)
    (hass : Assumed hmac w (.receive j drawn response))
    (hans : s.answers drawn response ++ w.answers ⊆ w'.answers)
    (hpr : w.proofs ⊆ w'.proofs) : Vouched w' (s.receive hmac drawn response) := by
  have hmine := h.vouched s (mem_of_getElem? hs)
  rcases s with ⟨token, phase⟩
  cases phase with
  | opened =>
    rcases response with _ | (challenge | _ | _ | _)
    case some.challenge =>
      rcases drawn with _ | own
      · trivial
      · exact hans mem_cons_self
    all_goals trivial
  | answered challenge own =>
    rcases response with _ | (_ | mac | _ | _)
    case some.authOk =>
      by_cases hpro : mac = proofMac hmac token challenge own
      · simp only [Session.receive, if_pos hpro]
        simp only [Assumed] at hass
        rcases hass _ hs challenge own rfl hpro with ⟨a, ha, -, hte⟩ | ⟨p, hp, hma⟩
        · have hins := nonces_inside (h.dotless _ hmine) hte
          exact absurd hins (h.apart _ hmine a ha)
        · exact ⟨p, hpr hp, hma⟩
      · simp only [Session.receive, if_neg hpro]
        trivial
    all_goals trivial
  | trusting => exact hmine.mono (append_subset.mp hans).2 hpr
  | failed => trivial

theorem Proved.answers_receive (h : Proved w) (hs : w.sessions[j]? = some s)
    (hass : Assumed hmac w (.receive j drawn response)) :
    (∀ a ∈ s.answers drawn response ++ w.answers, '.' ∉ a.nonce) ∧
      ∀ a ∈ s.answers drawn response ++ w.answers, ∀ b ∈ s.answers drawn response ++ w.answers,
        ¬(a.nonce <:+: b.challenge ∧ b.nonce <:+: a.challenge) := by
  revert hass
  fun_cases Session.answers s drawn response with
  | case1 own challenge hop =>
    intro hass
    obtain ⟨hdot, hfr, hoth⟩ := hass s hs hop
    refine ⟨forall_mem_cons.mpr ⟨hdot, h.dotless⟩, ?_⟩
    refine forall_mem_cons.mpr ⟨forall_mem_cons.mpr ⟨?_, ?_⟩, ?_⟩
    · exact fun hbo => hfr hbo.1
    · exact fun b hb hbo => hoth b hb hbo.1
    · intro a ha
      exact forall_mem_cons.mpr ⟨fun hbo => hoth a ha hbo.2, h.apart a ha⟩
  | _ => exact fun _ => ⟨h.dotless, h.apart⟩

open List.Subset

theorem Proved.step (h : Proved w) (hass : Assumed hmac w e)
    (hst : step hmac installedBy w e = some w') : Proved w' := by
  revert hst
  fun_cases Ipc.step hmac installedBy w e with
  | case1 =>
    rintro ⟨⟩
    exact ⟨h.vouched, h.dotless, h.apart⟩
  | case4 | case8 =>
    rintro ⟨⟩
    exact ⟨fun s hs => (h.vouched s hs).mono (refl _) (subset_append_right _ _),
      h.dotless, h.apart⟩
  | case5 token =>
    rintro ⟨⟩
    refine ⟨?_, h.dotless, h.apart⟩
    intro s hs
    rcases mem_append.mp hs with hold | hnew
    · exact h.vouched s hold
    · cases mem_singleton.mp hnew
      trivial
  | case7 j drawn response s hs =>
    rintro ⟨⟩
    obtain ⟨hdot, hap⟩ := h.answers_receive hs hass
    refine ⟨?_, hdot, hap⟩
    intro u hu
    rcases mem_or_eq_of_mem_set hu with hold | rfl
    · exact (h.vouched u hold).mono (subset_append_right _ _) (refl _)
    · exact h.vouched_receive hs hass (refl _) (refl _)
  | _ => rintro ⟨⟩

/-- A handler runs on a connection only after an Auth from the account the token belongs to,
    and a session trusts only who has computed the proof for its nonce. -/
theorem only_token_holders_obeyed (hmac : String → List Char → List Char)
    (installedBy : Option AccountId) (es : List (Event ρ)) (w : World ρ)
    (hrun : Machine.run (step hmac installedBy) (start ρ) es = some w) :
    (∀ x ∈ w.obeyed, ∃ c, w.conns[x.1]? = some c ∧
        ∃ a ∈ w.received, a.conn = x.1 ∧ Admits hmac installedBy c.nonce a) ∧
      (Machine.Along (step hmac installedBy) (Assumed hmac) (start ρ) es →
        ∀ s ∈ w.sessions, ∀ challenge own, s.phase = .trusting challenge own →
          HolderProved w s.token challenge own) := by
  have hgu : Guarded hmac installedBy w :=
    Machine.invariant _ (fun _ _ _ h hst => h.step hst)
      ⟨by simp [start], by simp [start]⟩ hrun
  refine ⟨?_, ?_⟩
  · intro x hx
    obtain ⟨c, hc, hauth⟩ := hgu.obeyed x hx
    exact ⟨c, hc, hgu.authenticated x.1 c hc hauth⟩
  · intro hal s hs challenge own hph
    have hpr : Proved w :=
      Machine.invariant_along _ (fun _ _ _ h hok hst => h.step hok hst)
        ⟨by simp [start], by simp [start], by simp [start]⟩ hal hrun
    have hvo := hpr.vouched s hs
    rw [Vouched, hph] at hvo
    exact hvo

end

def tagged (token : String) (text : List Char) : List Char :=
  token.toList ++ ':' :: text

def greeting : List (Event Unit) :=
  let own := "b2".toList
  let challenge := "a1".toList
  let user := AccountId.unix 501
  [.accept challenge, .dial "t", .receive 0 (some own) (some (.challenge challenge)),
    .line 0 (.message (.auth own (authMac tagged "t" challenge own))) (some [⟨"t", user⟩])
      (some user),
    .receive 0 none (some (.authOk (proofMac tagged "t" challenge own))),
    .line 0 (.message (.request ())) none none]

theorem only_token_holders_obeyed_greeting :
    ∃ w, Machine.run (step tagged (some (.unix 501))) (start Unit) greeting = some w ∧
      w.obeyed = [(0, ())] ∧ HolderProved w "t" "a1".toList "b2".toList := by
  refine ⟨_, rfl, rfl, ?_⟩
  refine (only_token_holders_obeyed tagged (some (.unix 501)) greeting _ rfl).2 ?_ ⟨"t", _⟩
    mem_cons_self _ _ rfl
  refine ⟨trivial, ?_⟩
  rintro _ ⟨⟩
  refine ⟨trivial, ?_⟩
  rintro _ ⟨⟩
  refine ⟨?_, ?_⟩
  · rintro s ⟨⟩ -
    exact ⟨by decide, by decide, nofun⟩
  rintro _ ⟨⟩
  refine ⟨trivial, ?_⟩
  rintro _ ⟨⟩
  refine ⟨?_, ?_⟩
  · rintro s ⟨⟩ challenge own ⟨⟩ -
    exact .inr ⟨_, mem_cons_self, rfl, rfl⟩
  rintro _ ⟨⟩
  refine ⟨trivial, ?_⟩
  rintro _ ⟨⟩
  trivial

end Nexapipe.Ipc
