import Nexapipe.Lib.Ascii
import Nexapipe.Lib.Wire

/-!
# Reading the name out of a TLS record

Both ends of the tunnel read the host name out of a `ClientHello` to pick a route, and they
must come to the same name although they do not have the same bytes around it.

`extractSni` reads with a cursor whose getters fail instead of overrunning, and the only
slice it takes without asking is the first record (`sliceTo`), which is modelled so that
taking more than there is faults. Every failure of a getter ends the function with no name.
Its two loops take at least one byte in a turn, so as many turns as there are bytes are all
they can take (`serverNames_turns`, `extensionNames_turns`).
-/

namespace Nexapipe.Tls

open List Wire

/-! ### The source -/

def tlsHandshake : UInt8 := 0x16

def handshakeClientHello : UInt8 := 0x01

def extServerName : Nat := 0x0000

def nameTypeHost : UInt8 := 0x00

def maxHostNameLen : Nat := 253

abbrev Cursor (α : Type) : Type :=
  Wire.Decoder Unit α

namespace Cursor

def take (len : Nat) : Cursor (List UInt8) :=
  Wire.take (fun _ _ => ()) len

def u8 : Cursor UInt8 := do
  let bytes ← take 1
  pure (bytes.headD 0)

def u16 : Cursor Nat := do
  let high ← u8
  let low ← u8
  pure (high.toNat * 256 + low.toNat)

def skip (len : Nat) : Cursor Unit := do
  let _ ← take len
  pure ()

end Cursor

def isPresentableHostName (name : String) : Bool :=
  let bytes := Ascii.utf8 name
  !bytes.isEmpty && bytes.length ≤ maxHostNameLen &&
    bytes.all fun b => 0x21 ≤ b.toNat && b.toNat ≤ 0x7e

def hostName (name : List UInt8) : Option String :=
  match Ascii.fromUtf8 name with
  | none => none
  | some name => if isPresentableHostName name then some name else none

def nameEntry : Cursor (UInt8 × List UInt8) := do
  let nameType ← Cursor.u8
  let nameLen ← Cursor.u16
  let name ← Cursor.take nameLen
  pure (nameType, name)

/-- The loop over a name list, for as many turns as there are bytes. `none` is a loop that
    came to its end, `some` is what the function returns from inside it. -/
def serverNames : Nat → List UInt8 → Option (Option String)
  | 0, _ => none
  | turns + 1, list =>
    if list.length < 3 then none
    else
      match nameEntry list with
      | .error _ => some none
      | .ok ((nameType, name), rest) =>
        if nameType ≠ nameTypeHost then serverNames turns rest else some (hostName name)

def extensionEntry : Cursor (Nat × List UInt8) := do
  let extType ← Cursor.u16
  let extLen ← Cursor.u16
  let extData ← Cursor.take extLen
  pure (extType, extData)

def extensionNames : Nat → List UInt8 → Option String
  | 0, _ => none
  | turns + 1, extensions =>
    if extensions.length < 4 then none
    else
      match extensionEntry extensions with
      | .error _ => none
      | .ok ((extType, extData), rest) =>
        if extType = extServerName then
          match Cursor.skip 2 extData with
          | .error _ => none
          | .ok ((), list) =>
            match serverNames list.length list with
            | some answer => answer
            | none => extensionNames turns rest
        else extensionNames turns rest

def helloExtensions : Cursor (List UInt8) := do
  Cursor.skip 5
  let handshakeType ← Cursor.u8
  if handshakeType ≠ handshakeClientHello then throw ()
  else do
    Cursor.skip 3
    Cursor.skip 2
    Cursor.skip 32
    let sessionIdLen ← Cursor.u8
    Cursor.skip sessionIdLen.toNat
    let cipherSuitesLen ← Cursor.u16
    Cursor.skip cipherSuitesLen
    let compressionLen ← Cursor.u8
    Cursor.skip compressionLen.toNat
    let extensionsLen ← Cursor.u16
    Cursor.take extensionsLen

def recordName (record : List UInt8) : Option String :=
  match helloExtensions record with
  | .error _ => none
  | .ok (extensions, _) => extensionNames extensions.length extensions

def recordEnd : Cursor Nat := do
  let first ← Cursor.u8
  if first ≠ tlsHandshake then throw ()
  else do
    Cursor.skip 2
    let recordLen ← Cursor.u16
    pure (5 + recordLen)

inductive Fault where
  | outOfBounds (len stop : Nat)

def sliceTo (data : List UInt8) (stop : Nat) : Except Fault (List UInt8) :=
  if stop ≤ data.length then .ok (data.take stop) else .error (.outOfBounds data.length stop)

def extractSni (data : List UInt8) : Except Fault (Option String) :=
  match recordEnd data with
  | .error _ => .ok none
  | .ok (stop, _) =>
    if data.length < stop then .ok none else (sliceTo data stop).map recordName

def firstRecordEnd : List UInt8 → Option Nat
  | _ :: _ :: _ :: high :: low :: _ => some (5 + (high.toNat * 256 + low.toNat))
  | _ => none

def firstRecord (data : List UInt8) : Option (List UInt8) :=
  match firstRecordEnd data with
  | none => none
  | some stop => if stop ≤ data.length then some (data.take stop) else none

/-! ### Reading with the cursor -/

namespace Cursor

theorem take_append {w : List UInt8} {n : Nat} (h : w.length = n) (rest : List UInt8) :
    take n (w ++ rest) = .ok (w, rest) :=
  take_ok_iff.mpr ⟨h, rfl⟩

theorem u8_cons (b : UInt8) (rest : List UInt8) : u8 (b :: rest) = .ok (b, rest) :=
  bind_of_ok (take_append (w := [b]) rfl rest) _

theorem u16_cons (high low : UInt8) (rest : List UInt8) :
    u16 (high :: low :: rest) = .ok (high.toNat * 256 + low.toNat, rest) := by
  unfold u16
  rfl

theorem u16_append {n : Nat} (h : n < 65536) (rest : List UInt8) :
    u16 (Bytes.be 2 n ++ rest) = .ok (n, rest) := by
  have hbe : Bytes.be 2 n = [UInt8.ofNat (n / 256), UInt8.ofNat n] := rfl
  rw [hbe, cons_append, cons_append, nil_append, u16_cons, UInt8.toNat_ofNat',
    UInt8.toNat_ofNat']
  congr 2
  omega

theorem skip_append {w : List UInt8} {n : Nat} (h : w.length = n) (rest : List UInt8) :
    skip n (w ++ rest) = .ok ((), rest) :=
  bind_of_ok (take_append h rest) _

end Cursor

/-! ### The loops do not run out of turns -/

theorem Cursor.u8_takes : Wire.Takes 1 Cursor.u8 :=
  (Wire.Takes.take _ 1).bind fun _ => .pure _

open Cursor

theorem Cursor.u16_takes : Wire.Takes 2 Cursor.u16 :=
  u8_takes.bind fun _ => u8_takes.bind fun _ => .pure _

theorem Cursor.take_takes (len : Nat) : Wire.Takes 0 (Cursor.take len) :=
  (Wire.Takes.take _ len).le (Nat.zero_le len)

theorem nameEntry_takes : Wire.Takes 3 nameEntry :=
  u8_takes.bind fun _ => u16_takes.bind fun len =>
    (take_takes len).bind fun _ => .pure _

theorem extensionEntry_takes : Wire.Takes 4 extensionEntry :=
  u16_takes.bind fun _ => u16_takes.bind fun len =>
    (take_takes len).bind fun _ => .pure _

variable {list extensions name data record : List UInt8} {turns stop : Nat} {s : String}

theorem serverNames_turns {turns' : Nat} (h : list.length ≤ turns) (h' : list.length ≤ turns') :
    serverNames turns list = serverNames turns' list := by
  refine turns_enough ?_ ?_ h h'
  · intro turns
    rcases turns with _ | turns
    · rfl
    · rfl
  · intro turns turns' list ih
    rw [serverNames, serverNames]
    rcases hentry : nameEntry list with e | r
    · rfl
    rcases r with ⟨⟨nameType, name⟩, rest⟩
    have hr := nameEntry_takes _ _ _ hentry
    simp only [ih rest (by omega)]

theorem extensionNames_turns {turns' : Nat} (h : extensions.length ≤ turns)
    (h' : extensions.length ≤ turns') :
    extensionNames turns extensions = extensionNames turns' extensions := by
  refine turns_enough ?_ ?_ h h'
  · intro turns
    rcases turns with _ | turns
    · rfl
    · rfl
  · intro turns turns' extensions ih
    rw [extensionNames, extensionNames]
    rcases hentry : extensionEntry extensions with e | r
    · rfl
    rcases r with ⟨⟨extType, data⟩, rest⟩
    have hr := extensionEntry_takes _ _ _ hentry
    simp only [ih rest (by omega)]

/-! ### Presentable names -/

/-- A name of 1 to 253 bytes in `0x21..=0x7e`. -/
def Presentable (name : List UInt8) : Prop :=
  1 ≤ name.length ∧ name.length ≤ 253 ∧ ∀ b ∈ name, 0x21 ≤ b.toNat ∧ b.toNat ≤ 0x7e

theorem isPresentableHostName_iff {name : String} :
    isPresentableHostName name = true ↔ Presentable (Ascii.utf8 name) := by
  unfold isPresentableHostName Presentable maxHostNameLen
  simp only [Bool.and_eq_true, Bool.not_eq_true', isEmpty_eq_false_iff, decide_eq_true_eq,
    all_eq_true, ← length_pos_iff, and_assoc]
  exact Iff.rfl

theorem hostName_eq_some_iff : hostName name = some s ↔ Ascii.utf8 s = name ∧ Presentable name := by
  unfold hostName
  rcases hutf : Ascii.fromUtf8 name with _ | t
  · refine ⟨nofun, ?_⟩
    rintro ⟨rfl, -⟩
    rw [Ascii.fromUtf8_utf8] at hutf
    cases hutf
  · rw [Ascii.fromUtf8_eq_some_iff] at hutf
    subst hutf
    simp only
    by_cases hpr : Presentable (Ascii.utf8 t)
    · rw [if_pos (isPresentableHostName_iff.mpr hpr), Option.some.injEq]
      constructor
      · rintro rfl
        exact ⟨rfl, hpr⟩
      · rintro ⟨heq, -⟩
        exact (Ascii.utf8_injective heq).symm
    · rw [if_neg fun h => hpr (isPresentableHostName_iff.mp h)]
      exact ⟨nofun, fun h => absurd h.2 hpr⟩

theorem exists_hostName (h : Presentable name) : ∃ s, hostName name = some s := by
  have hsm : ∀ b ∈ name, b.toNat < 128 := by
    intro b hb
    have hran := h.2.2 b hb
    omega
  obtain ⟨s, hs⟩ := Ascii.exists_utf8_eq hsm
  exact ⟨s, hostName_eq_some_iff.mpr ⟨hs, h⟩⟩

/-! ### Any bytes at all -/

theorem recordEnd_cases (data : List UInt8) :
    (∃ stop rest, recordEnd data = .ok (stop, rest) ∧ firstRecordEnd data = some stop ∧
      data.head? = some tlsHandshake) ∨
      ((∃ e, recordEnd data = .error e) ∧
        (firstRecordEnd data = none ∨ data.head? ≠ some tlsHandshake)) := by
  match data with
  | [] => exact .inr ⟨⟨(), rfl⟩, .inl rfl⟩
  | first :: rest =>
    by_cases hfst : first = tlsHandshake
    · subst hfst
      match rest with
      | [] | [_] | [_, _] | [_, _, _] => exact .inr ⟨⟨(), rfl⟩, .inl rfl⟩
      | a :: b :: high :: low :: rest => exact .inl ⟨_, rest, rfl, rfl, rfl⟩
    · refine .inr ⟨⟨(), ?_⟩, .inr (by simpa using hfst)⟩
      unfold recordEnd
      rw [bind_of_ok (u8_cons _ _), if_pos hfst]
      rfl

theorem le_firstRecordEnd (h : firstRecordEnd data = some stop) : 5 ≤ stop := by
  match data, h with
  | _ :: _ :: _ :: high :: low :: _, h =>
    rw [firstRecordEnd, Option.some.injEq] at h
    omega

theorem head?_firstRecord (h : firstRecord data = some record) : record.head? = data.head? := by
  unfold firstRecord at h
  rcases hs : firstRecordEnd data with _ | stop
  · simp [hs] at h
  rw [hs] at h
  have hle := le_firstRecordEnd hs
  by_cases hlen : stop ≤ data.length
  · simp only [if_pos hlen, Option.some.injEq] at h
    rw [← h, head?_take, if_neg (by omega)]
  · simp [hlen] at h

theorem extractSni_eq (data : List UInt8) :
    extractSni data =
      .ok (match firstRecord data with
        | none => none
        | some record => if record.head? = some tlsHandshake then recordName record else none) := by
  rcases recordEnd_cases data with ⟨stop, rest, hread, hst, hhe⟩ | ⟨⟨e, hread⟩, hno⟩
  · by_cases hlen : stop ≤ data.length
    · have hrec : firstRecord data = some (data.take stop) := by
        rw [firstRecord, hst]
        exact if_pos hlen
      have hsl : sliceTo data stop = .ok (data.take stop) := if_pos hlen
      rw [extractSni, hread, hrec]
      simp only [if_neg (Nat.not_lt.mpr hlen), hsl, Except.map, head?_firstRecord hrec, hhe,
        if_true]
    · have hrec : firstRecord data = none := by
        rw [firstRecord, hst]
        exact if_neg hlen
      rw [extractSni, hread, hrec]
      simp only [if_pos (Nat.lt_of_not_le hlen)]
  · rw [extractSni, hread]
    rcases hno with hno | hhe
    · have hrec : firstRecord data = none := by rw [firstRecord, hno]
      rw [hrec]
    rcases hrec : firstRecord data with _ | record
    · rfl
    · simp only [head?_firstRecord hrec, if_neg hhe]

theorem firstRecordEnd_append {a b : List UInt8} (h : firstRecordEnd a = some stop) :
    firstRecordEnd (a ++ b) = some stop := by
  match a, h with
  | _ :: _ :: _ :: high :: low :: _, h => exact h

theorem firstRecord_append {a b : List UInt8} (h : firstRecordEnd a = some a.length) :
    firstRecord (a ++ b) = some a := by
  unfold firstRecord
  rw [firstRecordEnd_append h]
  simp

theorem firstRecordEnd_take (h : firstRecordEnd data = some stop) (hlen : stop ≤ data.length) :
    firstRecordEnd (data.take stop) = some (data.take stop).length := by
  have hle := le_firstRecordEnd h
  have hr : firstRecordEnd (data.take stop) = some stop := by
    match data, h with
    | _ :: _ :: _ :: high :: low :: _, h =>
      obtain ⟨n, rfl⟩ : ∃ n, stop = n + 5 := ⟨stop - 5, by omega⟩
      exact h
  rw [hr, length_take, Nat.min_eq_left hlen]

theorem firstRecord_firstRecord (h : firstRecord data = some record) :
    firstRecord record = some record := by
  unfold firstRecord at h
  rcases hs : firstRecordEnd data with _ | stop
  · simp [hs] at h
  rw [hs] at h
  by_cases hlen : stop ≤ data.length
  · simp only [if_pos hlen, Option.some.injEq] at h
    subst h
    have hwh := firstRecord_append (b := []) (firstRecordEnd_take hs hlen)
    rwa [append_nil] at hwh
  · simp [hlen] at h

theorem presentable_of_serverNames (h : serverNames turns list = some (some s)) :
    Presentable (Ascii.utf8 s) := by
  revert h
  fun_induction serverNames turns list with
  | case4 _ _ _ _ _ _ _ _ ih => exact ih
  | case5 =>
    intro h
    obtain ⟨rfl, hp⟩ := hostName_eq_some_iff.mp (Option.some.inj h)
    exact hp
  | _ => rintro ⟨⟩

theorem presentable_of_extensionNames (h : extensionNames turns extensions = some s) :
    Presentable (Ascii.utf8 s) := by
  revert h
  fun_induction extensionNames turns extensions with
  | case5 =>
    rintro rfl
    exact presentable_of_serverNames ‹_›
  -- The name is behind this extension.
  | case6 | case7 => assumption
  | _ => rintro ⟨⟩

theorem presentable_of_recordName (h : recordName record = some s) :
    Presentable (Ascii.utf8 s) := by
  unfold recordName at h
  rcases hext : helloExtensions record with e | r
  · simp [hext] at h
  · rw [hext] at h
    exact presentable_of_extensionNames h

end Nexapipe.Tls
