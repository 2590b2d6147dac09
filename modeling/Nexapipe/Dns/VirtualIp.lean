import Mathlib.Algebra.GroupWithZero.Nat
import Mathlib.Data.List.MinMax
import Mathlib.Data.Prod.Lex
import Nexapipe.Lib.Entries
import Nexapipe.Lib.Recency
import Nexapipe.Lib.Run
import Nexapipe.Lib.Text

/-!
# Virtual addresses

Each proxied name is answered with an address of its own, and the address is all that a packet says
about the name it was sent to. A pool of one family keeps both directions: which name an address
stands for and which address a name has. While there are addresses left a new name is given the one
at the cursor.

The counters are machine integers. A use is stamped in 64 bits.

A `History` of the uses and answers is kept beside each pool to say what recently used and expired
mean; the code has only the stamps and the times.
-/

namespace Nexapipe.VirtualIp

open List Option Entries Nat

open Recency

/-- The key a name is stored under: no white space around it, no dots behind it, in lower case. -/
def foldDomain (lower : List Char → List Char) (domain : List Char) : List Char :=
  lower ((Text.trim domain).rdropWhile (· = '.'))

def addressTtl : Nat := 60 * 1000000000

/-! ### A pool -/

/-- What a pool knows about an address: its name, the stamp of its last use, and when the last
    answer that named it expires. -/
structure Address where
  domain : List Char
  used : Nat
  expiresAt : Nat

structure Pool where
  ipToDomain : Entries Nat Address
  domainToIp : Entries (List Char) Nat
  clock : Nat
  next : Nat
  first : Nat
  last : Nat

def Pool.new (first last : Nat) : Pool := ⟨[], [], 0, first, first, last⟩

def Pool.poolLen (p : Pool) : Nat :=
  (p.last - p.first + 1) % 2 ^ 128

def Pool.touch (p : Pool) (ip : Nat) : Pool :=
  let clock := (p.clock + 1) % 2 ^ 64
  { p with clock, ipToDomain := p.ipToDomain.modify ip fun a => { a with used := clock } }

def Pool.answer (p : Pool) (ip now : Nat) : Pool :=
  { p with ipToDomain := p.ipToDomain.modify ip fun a => { a with expiresAt := now + addressTtl } }

def quieter (a b : Nat × Nat) : Prop :=
  a.1 < b.1 ∨ a.1 = b.1 ∧ a.2 < b.2

instance (a b : Nat × Nat) : Decidable (quieter a b) :=
  inferInstanceAs (Decidable (_ ∨ _ ∧ _))

def keepQuieter (held : Option (Nat × Nat)) (candidate : Nat × Nat) : Option (Nat × Nat) :=
  match held with
  | none => some candidate
  | some h => if quieter candidate h then some candidate else some h

def weigh (now : Nat) (held : Option (Nat × Nat) × Option (Nat × Nat)) (e : Nat × Address) :
    Option (Nat × Nat) × Option (Nat × Nat) :=
  (keepQuieter held.1 (e.2.used, e.1),
    if now < e.2.expiresAt then held.2 else keepQuieter held.2 (e.2.used, e.1))

def Pool.recyclableAddress (p : Pool) (now : Nat) : Nat :=
  let (quietest, free) := p.ipToDomain.foldl (weigh now) (none, none)
  ((free.or quietest).map Prod.snd).getD p.first

def Pool.bind (p : Pool) (key : List Char) (ip now : Nat) : Pool :=
  let domainToIp :=
    match p.ipToDomain.lookup ip with
    | some previous => p.domainToIp.remove previous.domain
    | none => p.domainToIp
  let p := { p with
    ipToDomain := p.ipToDomain.set ip ⟨key, 0, now + addressTtl⟩
    domainToIp := domainToIp.set key ip }
  p.touch ip

def Pool.alloc (lower : List Char → List Char) (p : Pool) (domain : List Char) (now : Nat) :
    Nat × Pool :=
  let key := foldDomain lower domain
  match p.domainToIp.lookup key with
  | some ip => (ip, (p.touch ip).answer ip now)
  | none =>
    if p.ipToDomain.length < p.poolLen then
      let ip := p.next
      let next := if p.last ≤ ip then p.first else ip + 1
      (ip, { p with next }.bind key ip now)
    else
      let ip := p.recyclableAddress now
      (ip, p.bind key ip now)

def Pool.lookup (p : Pool) (ip : Nat) : Option (List Char) × Pool :=
  match p.ipToDomain.lookup ip with
  | none => (none, p)
  | some a => (some a.domain, p.touch ip)

/-! ### The mapping -/

structure IpMapping where
  v4 : Pool
  v6 : Option Pool

def IpMapping.withRange (first last : Nat) : IpMapping := ⟨.new first last, none⟩

def IpMapping.withIpv6 (m : IpMapping) (first last : Nat) : IpMapping :=
  { m with v6 := some (.new first last) }

def IpMapping.allocate (lower : List Char → List Char) (m : IpMapping) (domain : List Char)
    (now : Nat) : Nat × IpMapping :=
  let (ip, v4) := m.v4.alloc lower domain now
  (ip % 2 ^ 32, { m with v4 })

def IpMapping.allocateV6 (lower : List Char → List Char) (m : IpMapping) (domain : List Char)
    (now : Nat) : Option Nat × IpMapping :=
  match m.v6 with
  | none => (none, m)
  | some pool =>
    let (ip, v6) := pool.alloc lower domain now
    (some ip, { m with v6 := some v6 })

def IpMapping.lookupDomain (m : IpMapping) (ip : Nat) : Option (List Char) × IpMapping :=
  let (name, v4) := m.v4.lookup ip
  (name, { m with v4 })

def IpMapping.lookupDomainV6 (m : IpMapping) (ip : Nat) : Option (List Char) × IpMapping :=
  match m.v6 with
  | none => (none, m)
  | some pool =>
    let (name, v6) := pool.lookup ip
    (name, { m with v6 := some v6 })

/-! ### Which address is taken -/

theorem foldl_keepQuieter (items : List (Nat × Nat)) :
    items = [] ∧ items.foldl keepQuieter none = none ∨
      ∃ x ∈ items, items.foldl keepQuieter none = some x ∧ ∀ y ∈ items, ¬quieter y x := by
  have hw : items.foldl keepQuieter none = items.argmin toLex := by
    congr 1
    funext held candidate
    cases held with
    | none => rfl
    | some x => exact if_congr Prod.Lex.toLex_lt_toLex.symm rfl rfl
  rw [hw]
  rcases hmin : items.argmin toLex with _ | x
  · exact .inl ⟨argmin_eq_none.mp hmin, rfl⟩
  · refine .inr ⟨x, argmin_mem hmin, rfl, fun y hy hq => ?_⟩
    exact not_lt_of_mem_argmin hy hmin (Prod.Lex.toLex_lt_toLex.mpr hq)

theorem foldl_weigh (now : Nat) (entries : Entries Nat Address) :
    entries.foldl (weigh now) (none, none) =
      ((entries.map fun e => (e.2.used, e.1)).foldl keepQuieter none,
        ((entries.filter fun e => e.2.expiresAt ≤ now).map fun e => (e.2.used, e.1)).foldl
          keepQuieter none) := by
  induction entries using reverseRecOn with
  | nil => rfl
  | append_singleton entries e ih =>
    rw [foldl_append, ih, map_append, foldl_append, filter_append]
    by_cases hl : now < e.2.expiresAt
    · have hout : [e].filter (fun e => e.2.expiresAt ≤ now) = [] := by simp [hl]
      simp [weigh, hl]
    have hin : [e].filter (fun e => e.2.expiresAt ≤ now) = [e] := by simp; omega
    rw [hin, map_append, foldl_append]
    simp [weigh, hl]

theorem Pool.recyclableAddress_spec {p : Pool} (now : Nat) (hne : p.ipToDomain ≠ []) :
    ∃ a, (p.recyclableAddress now, a) ∈ p.ipToDomain ∧
      (a.expiresAt ≤ now ∧ (∀ e ∈ p.ipToDomain, e.2.expiresAt ≤ now →
          ¬quieter (e.2.used, e.1) (a.used, p.recyclableAddress now)) ∨
        (∀ e ∈ p.ipToDomain, now < e.2.expiresAt) ∧ ∀ e ∈ p.ipToDomain,
          ¬quieter (e.2.used, e.1) (a.used, p.recyclableAddress now)) := by
  have hwa := foldl_weigh now p.ipToDomain
  unfold Pool.recyclableAddress
  rw [hwa]
  rcases foldl_keepQuieter ((p.ipToDomain.filter fun e => e.2.expiresAt ≤ now).map
    fun e => (e.2.used, e.1)) with ⟨hnil, hno⟩ | ⟨x, hx, hhe, hle⟩
  · -- No answer has expired.
    have hli : ∀ e ∈ p.ipToDomain, now < e.2.expiresAt := by
      intro e he
      rw [map_eq_nil_iff, filter_eq_nil_iff] at hnil
      have hnot := hnil e he
      rw [decide_eq_true_eq] at hnot
      omega
    rcases foldl_keepQuieter (p.ipToDomain.map fun e => (e.2.used, e.1)) with
      ⟨hemp, -⟩ | ⟨x, hx, hhe, hle⟩
    · exact absurd (map_eq_nil_iff.mp hemp) hne
    · rcases mem_map.mp hx with ⟨e, he, rfl⟩
      simp only [hno, hhe, none_or, map_some, getD_some]
      refine ⟨e.2, he, .inr ⟨hli, ?_⟩⟩
      intro e' he'
      exact hle _ (mem_map_of_mem he')
  · rcases mem_map.mp hx with ⟨e, he, rfl⟩
    rcases mem_filter.mp he with ⟨hmem, hexp⟩
    simp only [hhe, some_or, map_some, getD_some]
    refine ⟨e.2, hmem, .inl ⟨of_decide_eq_true hexp, ?_⟩⟩
    intro e' he' hexp'
    refine hle _ (mem_map.mpr ⟨e', mem_filter.mpr ⟨he', ?_⟩, rfl⟩)
    exact decide_eq_true hexp'

/-! ### What every call keeps -/

/-- What has happened to the addresses of a pool: the uses, the latest last, and the answers with
    their times, the latest first. -/
structure History where
  uses : List Nat
  answers : Entries Nat Nat

def History.use (past : History) (ip : Nat) : History :=
  { past with uses := past.uses ++ [ip] }

def History.answer (past : History) (ip now : Nat) : History :=
  { past with answers := (ip, now) :: past.answers }

def History.Expired (past : History) (now ip : Nat) : Prop :=
  ∃ time, past.answers.lookup ip = some time ∧ time + addressTtl ≤ now

def Pool.nameOf (p : Pool) (ip : Nat) : Option (List Char) :=
  (p.ipToDomain.lookup ip).map Address.domain

def Pool.Inverse (p : Pool) : Prop :=
  ∀ ip name, p.nameOf ip = some name ↔ p.domainToIp.lookup name = some ip

def Pool.size (p : Pool) : Nat :=
  p.last - p.first + 1

/-- What is known of an address is what has happened to it: its stamp is the place of its last
    use, and its answer expires a time to live after it was given. -/
structure Address.Of (past : History) (ip : Nat) (a : Address) : Prop where
  used : a.used = lastUse past.uses ip
  pos : 0 < a.used
  expires : ∃ time, past.answers.lookup ip = some time ∧ a.expiresAt = time + addressTtl

/-- What every call keeps: the bound addresses are those from the first on, the cursor is at the
    one behind them, the two tables are each other's inverse, and what is known of an address is
    what has happened to it. -/
structure Pool.Inv (p : Pool) (past : History) : Prop where
  range : p.first ≤ p.last
  small : p.size < 2 ^ 128
  distinct : p.ipToDomain.Distinct
  bound : ∀ ip, (p.ipToDomain.lookup ip).isSome = true ↔
    p.first ≤ ip ∧ ip < p.first + p.ipToDomain.length
  count : p.ipToDomain.length ≤ p.size
  next : p.next = if p.ipToDomain.length = p.size then p.first
    else p.first + p.ipToDomain.length
  inverse : p.Inverse
  clock : p.clock = past.uses.length
  known : ∀ ip a, p.ipToDomain.lookup ip = some a → a.Of past ip

theorem Pool.inv_new {first last : Nat} (hran : first ≤ last)
    (hs : last - first + 1 < 2 ^ 128) : (Pool.new first last).Inv ⟨[], []⟩ := by
  refine ⟨hran, hs, nodup_nil, ?_, zero_le _, ?_, ?_, rfl, nofun⟩
  · intro ip
    simp [Pool.new]
  · simp [Pool.new, Pool.size]
  · intro ip name
    simp [Pool.new, Pool.nameOf]

section Kept

variable {p : Pool} {past : History}

variable {ip k now : Nat} {a : Address} {key : List Char}

open Pool

theorem Pool.Inv.modify (h : p.Inv past) {clock : Nat} {f : Address → Address} {past' : History}
    (hdom : ∀ a, (f a).domain = a.domain) (hcl : clock = past'.uses.length)
    (hkn : ∀ k a, (p.ipToDomain.modify ip f).lookup k = some a → a.Of past' k) :
    { p with clock, ipToDomain := p.ipToDomain.modify ip f }.Inv past' := by
  have hlen : (p.ipToDomain.modify ip f).length = p.ipToDomain.length :=
    length_modify _ _ _
  refine ⟨h.range, h.small, h.distinct.modify _ _, ?_, ?_, ?_, ?_, hcl, hkn⟩
  · intro k
    simp only [hlen, lookup_modify]
    rw [← h.bound k]
    by_cases hk : k = ip
    · rw [if_pos hk, isSome_map]
    · rw [if_neg hk]
  · simp only [hlen]
    exact h.count
  · simp only [hlen]
    exact h.next
  · intro k name
    rw [← h.inverse k name]
    simp only [nameOf, lookup_modify]
    by_cases hk : k = ip
    · have hco : Address.domain ∘ f = Address.domain := funext hdom
      rw [if_pos hk, Option.map_map, hco]
    · rw [if_neg hk]

theorem Pool.Inv.clock_succ (h : p.Inv past) (ip : Nat) (hroom : past.uses.length + 1 < 2 ^ 64) :
    (p.clock + 1) % 2 ^ 64 = (past.use ip).uses.length := by
  rw [h.clock, mod_eq_of_lt hroom, History.use, length_append, length_singleton]

theorem Address.Of.use (h : a.Of past k) (hk : k ≠ ip) : a.Of (past.use ip) k := by
  refine ⟨?_, h.pos, h.expires⟩
  rw [History.use, lastUse_concat, if_neg hk]
  exact h.used

theorem Address.Of.answer (h : a.Of past k) (hk : k ≠ ip) : a.Of (past.answer ip now) k := by
  refine ⟨h.used, h.pos, ?_⟩
  rw [History.answer, lookup_cons_eq, if_neg hk]
  exact h.expires

theorem Pool.Inv.touch (h : p.Inv past) (ip : Nat) (hroom : past.uses.length + 1 < 2 ^ 64) :
    (p.touch ip).Inv (past.use ip) := by
  have hcl := h.clock_succ ip hroom
  refine h.modify (fun _ => rfl) hcl ?_
  intro k a ha
  rw [lookup_modify] at ha
  by_cases hk : k = ip
  · rw [if_pos hk, map_eq_some_iff] at ha
    rcases ha with ⟨b, hb, rfl⟩
    have hof := h.known k b hb
    refine ⟨?_, ?_, hof.expires⟩
    · rw [History.use, lastUse_concat, if_pos hk, hcl, History.use, length_append]
      rfl
    · rw [hcl, History.use, length_append]
      exact succ_pos _
  · rw [if_neg hk] at ha
    exact (h.known k a ha).use hk

theorem Pool.Inv.answer (h : p.Inv past) (ip now : Nat) :
    (p.answer ip now).Inv (past.answer ip now) := by
  refine h.modify (fun _ => rfl) h.clock ?_
  intro k a ha
  rw [lookup_modify] at ha
  by_cases hk : k = ip
  · rw [if_pos hk, map_eq_some_iff] at ha
    rcases ha with ⟨b, hb, rfl⟩
    have hof := h.known k b hb
    refine ⟨hof.used, hof.pos, now, ?_, rfl⟩
    rw [History.answer, lookup_cons_eq, if_pos hk]
  · rw [if_neg hk] at ha
    exact (h.known k a ha).answer hk

theorem Pool.lookup_bind (p : Pool) (key : List Char) (ip now k : Nat) :
    (p.bind key ip now).ipToDomain.lookup k =
      if k = ip then some ⟨key, (p.clock + 1) % 2 ^ 64, now + addressTtl⟩
      else p.ipToDomain.lookup k := by
  unfold bind touch
  simp only [lookup_modify, lookup_set]
  by_cases hk : k = ip
  · rw [if_pos hk, if_pos hk, if_pos hk]
    rfl
  · rw [if_neg hk, if_neg hk, if_neg hk]

theorem Pool.length_bind (p : Pool) (key : List Char) (ip now : Nat) :
    (p.bind key ip now).ipToDomain.length =
      if (p.ipToDomain.lookup ip).isSome then p.ipToDomain.length
      else p.ipToDomain.length + 1 := by
  unfold bind touch
  simp only [Entries.length_modify]
  exact Entries.length_set _ _ _

theorem Pool.distinct_bind (h : p.ipToDomain.Distinct) (key : List Char) (ip now : Nat) :
    (p.bind key ip now).ipToDomain.Distinct := by
  unfold bind touch
  simp only
  exact (Entries.Distinct.set h _ _).modify _ _

theorem Pool.nameOf_bind (p : Pool) (key : List Char) (ip now k : Nat) :
    (p.bind key ip now).nameOf k = if k = ip then some key else p.nameOf k := by
  unfold nameOf
  rw [lookup_bind]
  by_cases hk : k = ip
  · rw [if_pos hk, if_pos hk]
    rfl
  · rw [if_neg hk, if_neg hk]

theorem Pool.domainToIp_bind (p : Pool) (key name : List Char) (ip now : Nat) :
    (p.bind key ip now).domainToIp.lookup name =
      if name = key then some ip
      else if p.nameOf ip = some name then none else p.domainToIp.lookup name := by
  have htab : (p.bind key ip now).domainToIp =
      (match p.ipToDomain.lookup ip with
        | some previous => p.domainToIp.remove previous.domain
        | none => p.domainToIp).set key ip := rfl
  rw [htab, lookup_set]
  by_cases hna : name = key
  · rw [if_pos hna, if_pos hna]
  rw [if_neg hna, if_neg hna, nameOf]
  rcases hpr : p.ipToDomain.lookup ip with _ | previous
  · rw [map_none, if_neg nofun]
  simp only [lookup_remove, map_some, some.injEq]
  by_cases hold : name = previous.domain
  · rw [if_pos hold, if_pos hold.symm]
  · rw [if_neg hold, if_neg (fun heq => hold heq.symm)]

theorem Pool.Inverse.bind (h : p.Inverse) (hkey : p.domainToIp.lookup key = none) (ip now : Nat) :
    (p.bind key ip now).Inverse := by
  intro k name
  have hfr : ∀ k, p.nameOf k ≠ some key := by
    intro k hk
    rw [h k key, hkey] at hk
    cases hk
  rw [nameOf_bind, domainToIp_bind]
  by_cases hna : name = key
  · rw [if_pos hna, hna]
    by_cases hk : k = ip
    · rw [if_pos hk, hk]
      exact ⟨fun _ => rfl, fun _ => rfl⟩
    rw [if_neg hk]
    exact ⟨fun hold => absurd hold (hfr k),
      fun heq => absurd (some.inj heq).symm hk⟩
  · rw [if_neg hna]
    by_cases hk : k = ip
    · rw [if_pos hk, hk]
      refine ⟨fun heq => absurd (some.inj heq).symm hna, ?_⟩
      intro hlk
      by_cases hold : p.nameOf ip = some name
      · simp [if_pos hold] at hlk
      · rw [if_neg hold, ← h ip name] at hlk
        exact absurd hlk hold
    · rw [if_neg hk]
      by_cases hold : p.nameOf ip = some name
      · -- The name was that of the address that is taken, so no other address has it.
        rw [if_pos hold]
        refine ⟨fun hoth => ?_, nofun⟩
        rw [h] at hold hoth
        rw [hold] at hoth
        exact absurd (some.inj hoth).symm hk
      · rw [if_neg hold]
        exact h k name

theorem Pool.Inv.known_bind (h : p.Inv past) (hroom : past.uses.length + 1 < 2 ^ 64)
    (ha : (p.bind key ip now).ipToDomain.lookup k = some a) :
    a.Of ((past.use ip).answer ip now) k := by
  rw [lookup_bind] at ha
  by_cases hk : k = ip
  · rw [if_pos hk] at ha
    cases ha
    refine ⟨?_, ?_, now, ?_, rfl⟩
    · rw [h.clock_succ ip hroom, History.answer, History.use, lastUse_concat, if_pos hk,
        length_append]
      rfl
    · rw [h.clock_succ ip hroom, History.use, length_append]
      exact succ_pos _
    · rw [History.answer, lookup_cons_eq, if_pos hk]
  · rw [if_neg hk] at ha
    exact ((h.known k a ha).use hk).answer hk

theorem Pool.Inv.bind (h : p.Inv past) (hkey : p.domainToIp.lookup key = none)
    (hbo : (p.ipToDomain.lookup ip).isSome = true) (now : Nat)
    (hroom : past.uses.length + 1 < 2 ^ 64) :
    (p.bind key ip now).Inv ((past.use ip).answer ip now) := by
  have hlen := p.length_bind key ip now
  rw [if_pos hbo] at hlen
  refine ⟨h.range, h.small, distinct_bind h.distinct key ip now, ?_, ?_, ?_,
    h.inverse.bind hkey ip now, h.clock_succ ip hroom, fun k a => h.known_bind hroom⟩
  · intro k
    rw [hlen, lookup_bind]
    by_cases hk : k = ip
    · rw [if_pos hk, hk]
      exact ⟨fun _ => (h.bound ip).mp hbo, fun _ => rfl⟩
    · rw [if_neg hk]
      exact h.bound k
  · rw [hlen]
    exact h.count
  · rw [hlen]
    exact h.next

theorem Pool.Inv.bindNext (h : p.Inv past) (hkey : p.domainToIp.lookup key = none)
    (hle : p.ipToDomain.length < p.size) (now : Nat) (hroom : past.uses.length + 1 < 2 ^ 64) :
    ({ p with next := if p.last ≤ p.next then p.first else p.next + 1 }.bind key p.next now).Inv
      ((past.use p.next).answer p.next now) := by
  have hne := h.next
  have hsize : p.size = p.last - p.first + 1 := rfl
  rw [if_neg (by omega)] at hne
  have hfr : ¬(p.ipToDomain.lookup p.next).isSome = true := by
    rw [h.bound]
    omega
  have hlen := p.length_bind key p.next now
  rw [if_neg hfr] at hlen
  refine ⟨h.range, h.small, distinct_bind h.distinct key p.next now, ?_, ?_, ?_,
    h.inverse.bind hkey p.next now, h.clock_succ p.next hroom,
    fun k a => h.known_bind hroom⟩
  · intro k
    show ((p.bind key p.next now).ipToDomain.lookup k).isSome = true ↔
      p.first ≤ k ∧ k < p.first + (p.bind key p.next now).ipToDomain.length
    rw [hlen, lookup_bind]
    by_cases hk : k = p.next
    · rw [if_pos hk]
      exact ⟨fun _ => by omega, fun _ => rfl⟩
    · rw [if_neg hk, h.bound]
      omega
  · show (p.bind key p.next now).ipToDomain.length ≤ p.size
    omega
  · show (if p.last ≤ p.next then p.first else p.next + 1) =
      if (p.bind key p.next now).ipToDomain.length = p.size then p.first
      else p.first + (p.bind key p.next now).ipToDomain.length
    -- The cursor is at the last address exactly when this was the last one left.
    by_cases hla : p.last ≤ p.next
    · rw [if_pos hla, if_pos (by omega)]
    · rw [if_neg hla, if_neg (by omega)]
      omega

theorem Pool.alloc_cases (lower : List Char → List Char) (p : Pool) (domain : List Char)
    (now : Nat) :
    (∃ ip, p.domainToIp.lookup (foldDomain lower domain) = some ip ∧
        p.alloc lower domain now = (ip, (p.touch ip).answer ip now)) ∨
      p.domainToIp.lookup (foldDomain lower domain) = none ∧
        (p.ipToDomain.length < p.poolLen ∧ p.alloc lower domain now =
            (p.next, { p with next := if p.last ≤ p.next then p.first else p.next + 1 }.bind
              (foldDomain lower domain) p.next now) ∨
          p.poolLen ≤ p.ipToDomain.length ∧ p.alloc lower domain now =
            (p.recyclableAddress now,
              p.bind (foldDomain lower domain) (p.recyclableAddress now) now)) := by
  unfold alloc
  rcases hkey : p.domainToIp.lookup (foldDomain lower domain) with _ | ip
  · refine .inr ⟨rfl, ?_⟩
    by_cases hle : p.ipToDomain.length < p.poolLen
    · refine .inl ⟨hle, ?_⟩
      simp only [hkey, hle, if_true]
    · refine .inr ⟨Nat.le_of_not_lt hle, ?_⟩
      simp only [hkey, hle, if_false]
  · refine .inl ⟨ip, rfl, ?_⟩
    simp only [hkey]

theorem Pool.Inv.poolLen_eq (h : p.Inv past) : p.poolLen = p.size :=
  mod_eq_of_lt h.small

theorem Pool.Inv.ne_nil (h : p.Inv past) (hf : p.poolLen ≤ p.ipToDomain.length) :
    p.ipToDomain ≠ [] := by
  intro hnil
  rw [h.poolLen_eq, hnil, size] at hf
  cases hf

theorem Pool.Inv.alloc (h : p.Inv past) (lower : List Char → List Char) (domain : List Char)
    (now : Nat) (hroom : past.uses.length + 1 < 2 ^ 64) :
    (p.alloc lower domain now).2.Inv
      ((past.use (p.alloc lower domain now).1).answer (p.alloc lower domain now).1 now) := by
  rcases p.alloc_cases lower domain now with ⟨ip, hkey, hall⟩ |
    ⟨hkey, ⟨hl, hall⟩ | ⟨hf, hall⟩⟩
  · rw [hall]
    exact (h.touch ip hroom).answer ip now
  · rw [hall]
    rw [h.poolLen_eq] at hl
    exact h.bindNext hkey hl now hroom
  · rw [hall]
    rcases recyclableAddress_spec now (h.ne_nil hf) with ⟨a, hmem, -⟩
    refine h.bind hkey ?_ now hroom
    rw [h.distinct.lookup_of_mem hmem]
    rfl

theorem Pool.Inv.lookup (h : p.Inv past) (ip : Nat) (hroom : past.uses.length + 1 < 2 ^ 64) :
    (p.lookup ip).2.Inv (if (p.lookup ip).1.isSome then past.use ip else past) := by
  unfold Pool.lookup
  rcases p.ipToDomain.lookup ip with _ | a
  · exact h
  · exact h.touch ip hroom

/-! ### Names and addresses -/

def Pool.Full (p : Pool) : Prop :=
  ∀ ip, p.first ≤ ip → ip ≤ p.last → p.nameOf ip ≠ none

def Pool.Recycles (lower : List Char → List Char) (p : Pool) (domain : List Char) (now ip : Nat) :
    Prop :=
  p.domainToIp.lookup (foldDomain lower domain) = none ∧ p.nameOf ip ≠ none ∧
    (p.alloc lower domain now).1 = ip

/-- The address may be taken: there is no other left, and it is the least recently used of those
    whose last answer has expired, or none has and it is the least recently used of all. -/
def Pool.MayTake (p : Pool) (past : History) (now ip : Nat) : Prop :=
  p.Full ∧
    (LeastRecent past.uses (fun k => p.nameOf k ≠ none ∧ past.Expired now k) ip ∨
      (∀ k, p.nameOf k ≠ none → ¬past.Expired now k) ∧
        LeastRecent past.uses (fun k => p.nameOf k ≠ none) ip)

structure Pool.Faithful (lower : List Char → List Char) (p : Pool) (past : History) : Prop where
  inverse : p.Inverse
  inRange : ∀ ip, p.nameOf ip ≠ none → p.first ≤ ip ∧ ip ≤ p.last
  handedOut : ∀ domain now, p.first ≤ (p.alloc lower domain now).1 ∧
    (p.alloc lower domain now).1 ≤ p.last
  cursor : ¬p.Full → p.nameOf p.next = none
  recycled : ∀ domain now ip, p.Recycles lower domain now ip → p.MayTake past now ip

theorem Pool.nameOf_ne_none : p.nameOf ip ≠ none ↔ (p.ipToDomain.lookup ip).isSome = true := by
  rw [nameOf, ne_eq, map_eq_none_iff, ← ne_eq, ne_none_iff_isSome]

theorem Pool.Inv.full_iff (h : p.Inv past) : p.Full ↔ p.ipToDomain.length = p.size := by
  have hran := h.range
  have hcount := h.count
  have hsize : p.size = p.last - p.first + 1 := rfl
  constructor
  · intro hf
    have hl := hf p.last hran (le_refl _)
    rw [nameOf_ne_none, h.bound] at hl
    omega
  · intro hlen ip hlo hhi
    rw [nameOf_ne_none, h.bound]
    omega

theorem Pool.Inv.inRange (h : p.Inv past) (hb : p.nameOf ip ≠ none) :
    p.first ≤ ip ∧ ip ≤ p.last := by
  rw [nameOf_ne_none, h.bound] at hb
  have hcount := h.count
  have hsize : p.size = p.last - p.first + 1 := rfl
  have hran := h.range
  omega

theorem Pool.Inv.cursor (h : p.Inv past) (hl : ¬p.Full) :
    p.nameOf p.next = none ∧ p.first ≤ p.next ∧ p.next ≤ p.last := by
  rw [h.full_iff] at hl
  have hn := h.next
  rw [if_neg hl] at hn
  have hcount := h.count
  have hsize : p.size = p.last - p.first + 1 := rfl
  have hran := h.range
  refine ⟨?_, by omega⟩
  by_cases hb : p.nameOf p.next = none
  · exact hb
  · rw [← ne_eq, nameOf_ne_none, h.bound] at hb
    omega

theorem Pool.Inv.lt_lastUse (h : p.Inv past) {b : Address} (ha : p.ipToDomain.lookup ip = some a)
    (hb : p.ipToDomain.lookup k = some b) (hne : k ≠ ip)
    (hq : ¬quieter (b.used, k) (a.used, ip)) : lastUse past.uses ip < lastUse past.uses k := by
  have haof := h.known ip a ha
  have hbof := h.known k b hb
  rw [← haof.used, ← hbof.used]
  unfold quieter at hq
  have hneq : a.used ≠ b.used := by
    intro heq
    rw [haof.used, hbof.used] at heq
    exact hne (lastUse_injective heq (haof.used ▸ haof.pos)).symm
  omega

theorem Pool.Inv.mayTake (h : p.Inv past) (now : Nat)
    (hfu : p.poolLen ≤ p.ipToDomain.length) :
    p.MayTake past now (p.recyclableAddress now) := by
  have hexp : ∀ k b, p.ipToDomain.lookup k = some b →
      (past.Expired now k ↔ b.expiresAt ≤ now) := by
    intro k b hb
    rcases (h.known k b hb).expires with ⟨time, hti, hexpi⟩
    rw [hexpi]
    constructor
    · rintro ⟨time', hti', hle⟩
      rw [hti] at hti'
      cases hti'
      exact hle
    · exact fun hle => ⟨time, hti, hle⟩
  rw [h.poolLen_eq] at hfu
  refine ⟨h.full_iff.mpr (le_antisymm h.count hfu), ?_⟩
  rw [← h.poolLen_eq] at hfu
  rcases recyclableAddress_spec now (h.ne_nil hfu) with ⟨a, hmem, hcas⟩
  have ha := h.distinct.lookup_of_mem hmem
  have hnam : p.nameOf (p.recyclableAddress now) ≠ none := by
    rw [nameOf_ne_none, ha]
    rfl
  rcases hcas with ⟨hfr, hlea⟩ | ⟨hli, hlea⟩
  · refine .inl ⟨⟨hnam, (hexp _ a ha).mpr hfr⟩, ?_⟩
    rintro k ⟨hk, hkex⟩ hne
    rcases isSome_iff_exists.mp (nameOf_ne_none.mp hk) with ⟨b, hb⟩
    have hbfr := (hexp k b hb).mp hkex
    exact h.lt_lastUse ha hb hne (hlea (k, b) (mem_of_lookup hb) hbfr)
  · refine .inr ⟨?_, hnam, ?_⟩
    · intro k hk hkex
      rcases isSome_iff_exists.mp (nameOf_ne_none.mp hk) with ⟨b, hb⟩
      have hle := (hexp k b hb).mp hkex
      have hlt := hli (k, b) (mem_of_lookup hb)
      simp only at hlt
      omega
    · intro k hk hne
      rcases isSome_iff_exists.mp (nameOf_ne_none.mp hk) with ⟨b, hb⟩
      exact h.lt_lastUse ha hb hne (hlea (k, b) (mem_of_lookup hb))

theorem Pool.Inv.faithful (h : p.Inv past) (lower : List Char → List Char) :
    p.Faithful lower past := by
  have hlef : p.ipToDomain.length < p.poolLen → ¬p.Full := by
    intro hlt hfu
    rw [h.full_iff] at hfu
    rw [h.poolLen_eq] at hlt
    omega
  refine ⟨h.inverse, fun ip => h.inRange, ?_, fun hnot => (h.cursor hnot).1, ?_⟩
  · intro domain now
    rcases p.alloc_cases lower domain now with ⟨ip, hkey, hall⟩ |
      ⟨hkey, ⟨hlt, hall⟩ | ⟨hfu, hall⟩⟩
    · rw [hall]
      rw [← h.inverse] at hkey
      exact h.inRange (by rw [hkey]; exact some_ne_none _)
    · rw [hall]
      exact (h.cursor (hlef hlt)).2
    · rw [hall]
      have hmay := h.mayTake now hfu
      rcases hmay.2 with hle | ⟨-, hle⟩
      · exact h.inRange hle.1.1
      · exact h.inRange hle.1
  · rintro domain now ip ⟨hkey, hnam, hip⟩
    rcases p.alloc_cases lower domain now with ⟨ip', hkey', -⟩ |
      ⟨-, ⟨hlt, hall⟩ | ⟨hfu, hall⟩⟩
    · rw [hkey] at hkey'
      cases hkey'
    · -- The cursor is at an address that stands for no name.
      rw [hall] at hip
      rw [← hip] at hnam
      exact absurd (h.cursor (hlef hlt)).1 hnam
    · rw [hall] at hip
      rw [← hip]
      exact h.mayTake now hfu

theorem Pool.nameOf_touch_answer (p : Pool) (ip now k : Nat) :
    ((p.touch ip).answer ip now).nameOf k = p.nameOf k := by
  unfold answer touch nameOf
  simp only [lookup_modify]
  by_cases hk : k = ip
  · rw [if_pos hk, if_pos hk, Option.map_map, Option.map_map]
    rfl
  · rw [if_neg hk, if_neg hk]

theorem Pool.nameOf_lookup (p : Pool) (ip k : Nat) : (p.lookup ip).2.nameOf k = p.nameOf k := by
  unfold lookup
  rcases p.ipToDomain.lookup ip with _ | a
  · rfl
  unfold touch nameOf
  simp only [lookup_modify]
  by_cases hk : k = ip
  · rw [if_pos hk, Option.map_map]
    rfl
  · rw [if_neg hk]

theorem Pool.lookup_fst (p : Pool) (ip : Nat) : (p.lookup ip).1 = p.nameOf ip := by
  unfold lookup nameOf
  cases p.ipToDomain.lookup ip <;> rfl

theorem Pool.Inverse.nameOf_alloc (h : p.Inverse) (lower : List Char → List Char)
    (domain : List Char) (now : Nat) :
    (p.alloc lower domain now).2.nameOf (p.alloc lower domain now).1 =
      some (foldDomain lower domain) := by
  rcases p.alloc_cases lower domain now with ⟨ip, hkey, hall⟩ |
    ⟨hkey, ⟨-, hall⟩ | ⟨-, hall⟩⟩
  · rw [hall, nameOf_touch_answer, h, hkey]
  · rw [hall, nameOf_bind, if_pos rfl]
  · rw [hall, nameOf_bind, if_pos rfl]

theorem Pool.nameOf_alloc_of_not {lower : List Char → List Char} {domain name : List Char}
    (hn : p.nameOf ip = some name) (hk : ¬p.Recycles lower domain now ip) :
    (p.alloc lower domain now).2.nameOf ip = some name := by
  have hnam : p.nameOf ip ≠ none := by
    rw [hn]
    exact some_ne_none _
  rcases p.alloc_cases lower domain now with ⟨ip', -, hall⟩ | ⟨hkey, hcas⟩
  · rw [hall, nameOf_touch_answer, hn]
  have hoth : ip ≠ (p.alloc lower domain now).1 := fun heq =>
    hk ⟨hkey, hnam, heq.symm⟩
  rcases hcas with ⟨-, hall⟩ | ⟨-, hall⟩
  · rw [hall] at hoth ⊢
    rw [nameOf_bind, if_neg hoth]
    exact hn
  · rw [hall] at hoth ⊢
    rw [nameOf_bind, if_neg hoth, hn]

/-! ### Whatever the range -/

/-- What a pool keeps whatever its range is and however often it is used: the tables are inverse,
    and every address fits the width of the family. -/
structure Pool.Names (bound : Nat) (p : Pool) : Prop where
  inverse : p.Inverse
  first : p.first < bound
  last : p.last < bound
  next : p.next < bound
  below : ∀ ip, p.nameOf ip ≠ none → ip < bound

variable {bound : Nat}

theorem Pool.names_new {first last : Nat} (hfst : first < bound) (hl : last < bound) :
    (Pool.new first last).Names bound := by
  refine ⟨?_, hfst, hl, hfst, ?_⟩
  · intro ip name
    simp [new, nameOf]
  · intro ip hn
    exact absurd rfl hn

theorem Pool.Names.congr {q : Pool} (h : p.Names bound) (hn : ∀ k, q.nameOf k = p.nameOf k)
    (htab : q.domainToIp = p.domainToIp) (hfst : q.first = p.first) (hl : q.last = p.last)
    (hne : q.next = p.next) : q.Names bound := by
  refine ⟨?_, hfst ▸ h.first, hl ▸ h.last, hne ▸ h.next, ?_⟩
  · intro ip name
    rw [hn, htab]
    exact h.inverse ip name
  · intro ip hnam
    rw [hn] at hnam
    exact h.below ip hnam

theorem Pool.Names.bind (h : p.Names bound) (hkey : p.domainToIp.lookup key = none)
    (hip : ip < bound) (now : Nat) : (p.bind key ip now).Names bound := by
  refine ⟨h.inverse.bind hkey ip now, h.first, h.last, h.next, ?_⟩
  intro k hnam
  rw [nameOf_bind] at hnam
  by_cases hk : k = ip
  · rw [hk]
    exact hip
  · rw [if_neg hk] at hnam
    exact h.below k hnam

theorem Pool.Names.recyclableAddress_lt (h : p.Names bound) (now : Nat) :
    p.recyclableAddress now < bound := by
  by_cases hnil : p.ipToDomain = []
  · have hfst : p.recyclableAddress now = p.first := by
      unfold recyclableAddress
      rw [hnil]
      rfl
    rw [hfst]
    exact h.first
  · rcases recyclableAddress_spec now hnil with ⟨a, hmem, -⟩
    refine h.below _ ?_
    rw [nameOf, ne_eq, map_eq_none_iff, lookup_eq_none_iff]
    intro hall
    exact absurd (hall _ hmem) (by simp)

theorem Pool.Names.alloc (h : p.Names bound) (lower : List Char → List Char)
    (domain : List Char) (now : Nat) :
    (p.alloc lower domain now).1 < bound ∧ (p.alloc lower domain now).2.Names bound := by
  rcases p.alloc_cases lower domain now with ⟨ip, hkey, hall⟩ |
    ⟨hkey, ⟨-, hall⟩ | ⟨-, hall⟩⟩
  · rw [hall]
    refine ⟨h.below ip ?_, h.congr (p.nameOf_touch_answer ip now) rfl rfl rfl rfl⟩
    rw [(h.inverse ip _).mpr hkey]
    exact some_ne_none _
  · rw [hall]
    refine ⟨h.next, ?_⟩
    -- The cursor moves to the first address, or to one that is not behind the last.
    have hcur : (if p.last ≤ p.next then p.first else p.next + 1) < bound := by
      have hfst := h.first
      have hla := h.last
      by_cases hwr : p.last ≤ p.next
      · rw [if_pos hwr]
        exact hfst
      · rw [if_neg hwr]
        omega
    have hmov : { p with next := if p.last ≤ p.next then p.first else p.next + 1 }.Names
        bound := ⟨h.inverse, h.first, h.last, hcur, h.below⟩
    exact hmov.bind hkey h.next now
  · rw [hall]
    exact ⟨h.recyclableAddress_lt now, h.bind hkey (h.recyclableAddress_lt now) now⟩

theorem Pool.Names.lookup (h : p.Names bound) (ip : Nat) : (p.lookup ip).2.Names bound := by
  refine h.congr (p.nameOf_lookup ip) ?_ ?_ ?_ ?_
  all_goals
    unfold Pool.lookup
    cases p.ipToDomain.lookup ip <;> rfl

end Kept

/-! ### Calls on the mapping -/

inductive Family where
  | v4
  | v6
deriving DecidableEq

structure World where
  mapping : IpMapping
  v4Past : History
  v6Past : History

def World.pool (w : World) : Family → Option Pool
  | .v4 => some w.mapping.v4
  | .v6 => w.mapping.v6

def World.past (w : World) : Family → History
  | .v4 => w.v4Past
  | .v6 => w.v6Past

def World.allocate (lower : List Char → List Char) (w : World) (family : Family)
    (domain : List Char) (now : Nat) : Option Nat × World :=
  match family with
  | .v4 =>
    let (ip, mapping) := w.mapping.allocate lower domain now
    (some ip, { w with mapping, v4Past := (w.v4Past.use ip).answer ip now })
  | .v6 =>
    match w.mapping.allocateV6 lower domain now with
    | (none, mapping) => (none, { w with mapping })
    | (some ip, mapping) =>
      (some ip, { w with mapping, v6Past := (w.v6Past.use ip).answer ip now })

def World.lookup (w : World) (family : Family) (ip : Nat) : Option (List Char) × World :=
  match family with
  | .v4 =>
    let (name, mapping) := w.mapping.lookupDomain ip
    (name, { w with mapping, v4Past := if name.isSome then w.v4Past.use ip else w.v4Past })
  | .v6 =>
    let (name, mapping) := w.mapping.lookupDomainV6 ip
    (name, { w with mapping, v6Past := if name.isSome then w.v6Past.use ip else w.v6Past })

inductive Event where
  | allocate (family : Family) (domain : List Char) (now : Nat)
  | lookup (family : Family) (ip : Nat)

def step (lower : List Char → List Char) (w : World) : Event → Option World
  | .allocate family domain now => some (w.allocate lower family domain now).2
  | .lookup family ip => some (w.lookup family ip).2

def World.start (v4 : Nat × Nat) (v6 : Option (Nat × Nat)) : World :=
  let mapping := IpMapping.withRange v4.1 v4.2
  ⟨match v6 with
    | none => mapping
    | some range => mapping.withIpv6 range.1 range.2, ⟨[], []⟩, ⟨[], []⟩⟩

def StampLeft (w : World) : Event → Prop
  | .allocate family _ _ | .lookup family _ => (w.past family).uses.length + 1 < 2 ^ 64

instance (w : World) : ∀ e, Decidable (StampLeft w e)
  | .allocate _ _ _ | .lookup _ _ => inferInstanceAs (Decidable (_ < _))

def Taken (lower : List Char → List Char) (family : Family) (ip : Nat) (w : World) : Event → Prop
  | .allocate family' domain now => family' = family ∧
      ∃ p, w.pool family = some p ∧ p.Recycles lower domain now ip
  | .lookup _ _ => False

def World.put (w : World) (family : Family) (p : Pool) (past : History) : World :=
  match family with
  | .v4 => { w with mapping.v4 := p, v4Past := past }
  | .v6 => { w with mapping.v6 := some p, v6Past := past }

theorem World.pool_put (w : World) (family other : Family) (p : Pool) (past : History) :
    (w.put family p past).pool other = if other = family then some p else w.pool other := by
  cases family <;> cases other <;> rfl

theorem World.past_put (w : World) (family other : Family) (p : Pool) (past : History) :
    (w.put family p past).past other = if other = family then past else w.past other := by
  cases family <;> cases other <;> rfl

def rangeOf (v4 : Nat × Nat) (v6 : Option (Nat × Nat)) : Family → Option (Nat × Nat)
  | .v4 => some v4
  | .v6 => v6

structure World.Inv (v4 : Nat × Nat) (v6 : Option (Nat × Nat)) (w : World) : Prop where
  ranges : ∀ family, (w.pool family).map (fun p => (p.first, p.last)) = rangeOf v4 v6 family
  pools : ∀ family p, w.pool family = some p → p.Inv (w.past family)
  width : v4.2 < 2 ^ 32

section Calls

variable {lower : List Char → List Char} {v4 : Nat × Nat} {v6 : Option (Nat × Nat)} {w : World}

theorem World.inv_start (hv4 : v4.1 ≤ v4.2) (hwid : v4.2 < 2 ^ 32)
    (hv6 : ∀ range ∈ v6, range.1 ≤ range.2)
    (hco : ∀ range ∈ v6, range.2 - range.1 + 1 < 2 ^ 128) :
    (World.start v4 v6).Inv v4 v6 := by
  refine ⟨?_, ?_, hwid⟩
  · intro family
    cases v6 <;> cases family <;> rfl
  · intro family p hp
    rcases v6 with _ | range
    · cases family with
      | v4 =>
        cases hp
        exact Pool.inv_new hv4 (by omega)
      | v6 => cases hp
    · cases family with
      | v4 =>
        cases hp
        exact Pool.inv_new hv4 (by omega)
      | v6 =>
        cases hp
        exact Pool.inv_new (hv6 range rfl) (hco range rfl)

theorem Pool.alloc_bounds (p : Pool) (domain : List Char) (now : Nat) :
    (p.alloc lower domain now).2.first = p.first ∧
      (p.alloc lower domain now).2.last = p.last := by
  rcases p.alloc_cases lower domain now with ⟨ip, -, hall⟩ | ⟨-, ⟨-, hall⟩ | ⟨-, hall⟩⟩
  all_goals
    rw [hall]
    exact ⟨rfl, rfl⟩

theorem Pool.lookup_bounds (p : Pool) (ip : Nat) :
    (p.lookup ip).2.first = p.first ∧ (p.lookup ip).2.last = p.last := by
  unfold lookup
  cases p.ipToDomain.lookup ip <;> exact ⟨rfl, rfl⟩

variable {family : Family} {p : Pool} {e : Event} {w' : World}

theorem World.Inv.bounds (h : w.Inv v4 v6) (hp : w.pool family = some p) :
    rangeOf v4 v6 family = some (p.first, p.last) := by
  rw [← h.ranges, hp]
  rfl

open World IpMapping

theorem World.allocate_of_none (hp : w.pool family = none) (domain : List Char) (now : Nat) :
    w.allocate lower family domain now = (none, w) := by
  cases family with
  | v4 => cases hp
  | v6 =>
    have hv6 : w.mapping.v6 = none := hp
    unfold allocate allocateV6
    simp only [hv6]

theorem World.Inv.allocate_eq (h : w.Inv v4 v6) (hp : w.pool family = some p) (domain : List Char)
    (now : Nat) :
    w.allocate lower family domain now = (some (p.alloc lower domain now).1,
      w.put family (p.alloc lower domain now).2
        (((w.past family).use (p.alloc lower domain now).1).answer
          (p.alloc lower domain now).1 now)) := by
  cases family with
  | v4 =>
    cases hp
    -- The address is below the end of the range, so the cast to 32 bits keeps it.
    have hbo : v4 = (w.mapping.v4.first, w.mapping.v4.last) :=
      some.inj (h.bounds (show w.pool .v4 = some w.mapping.v4 from rfl))
    have hran := ((h.pools .v4 _ rfl).faithful lower).handedOut domain now
    have hlt : (w.mapping.v4.alloc lower domain now).1 % 2 ^ 32 =
        (w.mapping.v4.alloc lower domain now).1 := by
      refine mod_eq_of_lt ?_
      have hwid := h.width
      rw [hbo] at hwid
      exact lt_of_le_of_lt hran.2 hwid
    unfold allocate IpMapping.allocate
    simp only [hlt]
    rfl
  | v6 =>
    have hv6 : w.mapping.v6 = some p := hp
    unfold allocate allocateV6
    simp only [hv6]
    rfl

theorem World.lookup_eq (hp : w.pool family = some p) (ip : Nat) :
    w.lookup family ip = ((p.lookup ip).1, w.put family (p.lookup ip).2
      (if (p.lookup ip).1.isSome then (w.past family).use ip else w.past family)) := by
  cases family with
  | v4 =>
    cases hp
    rfl
  | v6 =>
    have hv6 : w.mapping.v6 = some p := hp
    unfold lookup lookupDomainV6
    simp only [hv6]
    rfl

theorem World.lookup_of_none (hp : w.pool family = none) (ip : Nat) :
    w.lookup family ip = (none, w) := by
  cases family with
  | v4 => cases hp
  | v6 =>
    have hv6 : w.mapping.v6 = none := hp
    unfold lookup lookupDomainV6
    simp only [hv6]
    rfl

theorem World.Inv.put (h : w.Inv v4 v6) {q : Pool} {past : History} (hp : w.pool family = some p)
    (hbo : q.first = p.first ∧ q.last = p.last) (hq : q.Inv past) :
    (w.put family q past).Inv v4 v6 := by
  refine ⟨?_, ?_, h.width⟩
  · intro other
    rw [pool_put]
    by_cases hsame : other = family
    · rw [if_pos hsame, hsame, h.bounds hp, map_some, hbo.1, hbo.2]
    · rw [if_neg hsame]
      exact h.ranges other
  · intro other q' hq'
    rw [pool_put] at hq'
    rw [past_put]
    by_cases hsame : other = family
    · rw [if_pos hsame] at hq' ⊢
      cases hq'
      exact hq
    · rw [if_neg hsame] at hq' ⊢
      exact h.pools other q' hq'

theorem World.Inv.step (h : w.Inv v4 v6) (hle : StampLeft w e)
    (hst : step lower w e = some w') :
    w'.Inv v4 v6 := by
  cases e with
  | allocate family domain now =>
    cases hst
    rcases hp : w.pool family with _ | p
    · rw [allocate_of_none hp]
      exact h
    rw [h.allocate_eq hp]
    exact h.put hp (p.alloc_bounds domain now)
      ((h.pools family p hp).alloc lower domain now hle)
  | lookup family ip =>
    cases hst
    rcases hp : w.pool family with _ | p
    · rw [lookup_of_none hp]
      exact h
    · rw [lookup_eq hp]
      exact h.put hp (p.lookup_bounds ip) ((h.pools family p hp).lookup ip hle)

def World.nameOf (w : World) (family : Family) (ip : Nat) : Option (List Char) :=
  (w.pool family).bind fun p => p.nameOf ip

theorem World.lookup_fst (w : World) (family : Family) (ip : Nat) :
    (w.lookup family ip).1 = w.nameOf family ip := by
  unfold nameOf
  rcases hp : w.pool family with _ | p
  · rw [lookup_of_none hp]
    rfl
  · rw [lookup_eq hp, Pool.lookup_fst]
    rfl

theorem World.pool_allocate (w : World) (family other : Family) (domain : List Char) (now : Nat) :
    (w.allocate lower family domain now).2.pool other =
      if other = family then (w.pool other).map fun p => (p.alloc lower domain now).2
      else w.pool other := by
  cases family with
  | v4 => cases other <;> rfl
  | v6 =>
    unfold allocate allocateV6
    rcases hv6 : w.mapping.v6 with _ | p
    · cases other <;> simp [pool, hv6]
    · cases other <;> simp [pool, hv6]

theorem World.pool_lookup (w : World) (family other : Family) (ip : Nat) :
    (w.lookup family ip).2.pool other =
      if other = family then (w.pool other).map fun p => (p.lookup ip).2 else w.pool other := by
  cases family with
  | v4 => cases other <;> rfl
  | v6 =>
    unfold lookup lookupDomainV6
    rcases hv6 : w.mapping.v6 with _ | p
    · cases other <;> simp [pool, hv6]
    · cases other <;> simp [pool, hv6]

theorem World.nameOf_step {ip : Nat} {name : List Char} (hna : w.nameOf family ip = some name)
    (hke : ¬Taken lower family ip w e) (hst : VirtualIp.step lower w e = some w') :
    w'.nameOf family ip = some name := by
  unfold nameOf at hna ⊢
  rcases bind_eq_some_iff.mp hna with ⟨p, hp, hpn⟩
  cases e with
  | allocate family' domain now =>
    cases hst
    rw [pool_allocate, hp]
    by_cases hsame : family = family'
    · rw [if_pos hsame, map_some, bind_some]
      exact Pool.nameOf_alloc_of_not hpn fun hrec => hke ⟨hsame.symm, p, hp, hrec⟩
    · rw [if_neg hsame]
      exact hpn
  | lookup family' k =>
    cases hst
    rw [pool_lookup, hp]
    by_cases hsame : family = family'
    · rw [if_pos hsame, map_some, bind_some, Pool.nameOf_lookup, hpn]
    · rw [if_neg hsame]
      exact hpn

def Family.width : Family → Nat
  | .v4 => 2 ^ 32
  | .v6 => 2 ^ 128

def World.Names (w : World) : Prop :=
  ∀ family p, w.pool family = some p → p.Names family.width

theorem World.names_start (hv4 : v4.1 < 2 ^ 32 ∧ v4.2 < 2 ^ 32)
    (hv6 : ∀ range ∈ v6, range.1 < 2 ^ 128 ∧ range.2 < 2 ^ 128) : (World.start v4 v6).Names := by
  intro family p hp
  rcases v6 with _ | range
  · cases family with
    | v4 =>
      cases hp
      exact Pool.names_new hv4.1 hv4.2
    | v6 => cases hp
  · cases family with
    | v4 =>
      cases hp
      exact Pool.names_new hv4.1 hv4.2
    | v6 =>
      cases hp
      exact Pool.names_new (hv6 range rfl).1 (hv6 range rfl).2

theorem World.Names.step (h : w.Names) (hst : VirtualIp.step lower w e = some w') : w'.Names := by
  intro other q hq
  cases e with
  | allocate family domain now =>
    cases hst
    rw [pool_allocate] at hq
    by_cases hsame : other = family
    · rw [if_pos hsame] at hq
      rcases map_eq_some_iff.mp hq with ⟨p, hp, rfl⟩
      exact ((h other p hp).alloc lower domain now).2
    · rw [if_neg hsame] at hq
      exact h other q hq
  | lookup family ip =>
    cases hst
    rw [pool_lookup] at hq
    by_cases hsame : other = family
    · rw [if_pos hsame] at hq
      rcases map_eq_some_iff.mp hq with ⟨p, hp, rfl⟩
      exact (h other p hp).lookup ip
    · rw [if_neg hsame] at hq
      exact h other q hq

/-- The addresses are a faithful naming. The ranges are not empty and hold fewer than all IPv6
    addresses, and the stamps have not run out. Each pool then is what a pool is for, and an
    address that is handed out is in its range and gives the folded name when it is looked up,
    until it is recycled. -/
theorem virtual_addresses_name_faithfully {events : List Event} (hv4 : v4.1 ≤ v4.2)
    (hwidth : v4.2 < 2 ^ 32) (hv6 : ∀ range ∈ v6, range.1 ≤ range.2)
    (hcounted : ∀ range ∈ v6, range.2 - range.1 + 1 < 2 ^ 128)
    (hrun : Machine.run (VirtualIp.step lower) (.start v4 v6) events = some w)
    (hstamps : Machine.Along (VirtualIp.step lower) StampLeft (.start v4 v6) events) :
    (∀ family range, rangeOf v4 v6 family = some range →
      ∃ p, w.pool family = some p ∧ (p.first, p.last) = range ∧
        p.Faithful lower (w.past family)) ∧
    ∀ family domain now ip w', w.allocate lower family domain now = (some ip, w') →
      (∃ range, rangeOf v4 v6 family = some range ∧ range.1 ≤ ip ∧ ip ≤ range.2) ∧
      ∀ later w'', Machine.run (VirtualIp.step lower) w' later = some w'' →
        Machine.Along (VirtualIp.step lower) (fun w e => ¬Taken lower family ip w e) w' later →
        (w''.lookup family ip).1 = some (foldDomain lower domain) := by
  have hinv : w.Inv v4 v6 :=
    Machine.invariant_along (World.Inv v4 v6) (fun _ _ _ h hle => h.step hle)
      (inv_start hv4 hwidth hv6 hcounted) hstamps hrun
  refine ⟨?_, ?_⟩
  · intro family range hran
    rw [← hinv.ranges] at hran
    rcases map_eq_some_iff.mp hran with ⟨p, hp, hbo⟩
    exact ⟨p, hp, hbo, (hinv.pools family p hp).faithful lower⟩
  · intro family domain now ip w' hall
    rcases hp : w.pool family with _ | p
    · simp [allocate_of_none hp] at hall
    have hpi := hinv.pools family p hp
    rw [hinv.allocate_eq hp] at hall
    cases hall
    refine ⟨⟨_, hinv.bounds hp, (hpi.faithful lower).handedOut domain now⟩, ?_⟩
    intro later w'' hlat hke
    rw [lookup_fst]
    refine Machine.invariant_along
      (fun w => w.nameOf family (p.alloc lower domain now).1 = some (foldDomain lower domain))
      (fun _ _ _ h hk => nameOf_step h hk) ?_ hke hlat
    unfold nameOf
    rw [pool_put, if_pos rfl]
    exact hpi.inverse.nameOf_alloc lower domain now

end Calls

/-- The third name of a pool of two addresses takes the one used longer ago. -/
def threeNames : List Event :=
  [.allocate .v6 ['a'] 0, .allocate .v6 ['b'] 1, .lookup .v6 5, .allocate .v6 ['c'] 2]

theorem virtual_addresses_name_faithfully_three :
    ∃ w p, Machine.run (step id) (.start (1, 2) (some (5, 6))) threeNames = some w ∧
      w.pool .v6 = some p ∧ p.Faithful id (w.past .v6) ∧ p.nameOf 6 = some ['c'] := by
  refine ⟨_, _, rfl, rfl, ?_, rfl⟩
  have hf := (virtual_addresses_name_faithfully (by decide) (by decide) (by decide)
    (by decide) (rfl : Machine.run (step id) (.start (1, 2) (some (5, 6))) threeNames = some _)
    (by decide)).1 .v6 (5, 6) rfl
  rcases hf with ⟨p, hp, -, hp'⟩
  cases hp
  exact hp'

/-- The pool of all IPv6 addresses counts none of them, and its second name takes the address of
    the first. -/
theorem whole_ipv6_range_recycles :
    ∃ w p, Machine.run (step id) (.start (1, 2) (some (0, 2 ^ 128 - 1)))
        [.allocate .v6 ['a'] 0] = some w ∧
      w.pool .v6 = some p ∧ p.Recycles id ['b'] 0 0 ∧ ¬p.Full := by
  refine ⟨_, _, rfl, rfl, ⟨rfl, by decide, by decide⟩, ?_⟩
  intro hf
  exact hf 1 (by decide) (by decide) rfl

end Nexapipe.VirtualIp
