import Nexapipe.Lib.Bytes

/-!
# Wire formats

A decoder takes a value off the front of some bytes and leaves the rest, or fails. An encoder gives
the bytes of a value, or fails.

Everything a format is asked for follows from that one equivalence: what was written
is read back with the rest left alone (`Exact.read_back`), what was read is what would
be written (`Exact.canonical`), bytes that follow do not change what is read, and no
bytes that break off inside an encoding are read at all (`Exact.not_cut_short`).
A format made of fields is exact because its fields are. `fields` writes them in order,
and `Parses` follows a decoder field by field, so that both directions of the
equivalence come out of one walk over it.

`extent` measures a layout without reading it. A field is of a fixed size or carries its
size in front, so the length of a whole message can be told from its own length prefixes.
-/

namespace Wire

open List Bytes

variable {ε α β : Type}

abbrev Decoder (ε α : Type) : Type :=
  StateT (List UInt8) (Except ε) α

abbrev Encoder (ε α : Type) : Type :=
  α → Except ε (List UInt8)

def Fails (x : Except ε α) : Prop :=
  ∃ e, x = .error e

@[simp] theorem not_fails_ok (a : α) : ¬Fails (.ok a : Except ε α) := by
  rintro ⟨e, he⟩
  cases he

@[simp] theorem fails_error (e : ε) : Fails (.error e : Except ε α) :=
  ⟨e, rfl⟩

/-! ### Decoders in steps -/

variable {bs rest : List UInt8} {short : Nat → Nat → ε} {enc : Encoder ε α}
  {fs : List (Except ε (List UInt8))}

theorem bind_ok_iff {d : Decoder ε α} {f : α → Decoder ε β} {b : β} :
    (d >>= f) bs = .ok (b, rest) ↔ ∃ a mid, d bs = .ok (a, mid) ∧ f a mid = .ok (b, rest) := by
  have hb : (d >>= f) bs = (d bs).bind fun p => f p.1 p.2 := rfl
  rw [hb]
  rcases hd : d bs with e | p
  · simp [Except.bind]
  rcases p with ⟨a, mid⟩
  constructor
  · intro h
    exact ⟨a, mid, rfl, h⟩
  · rintro ⟨a', mid', heq, h⟩
    cases heq
    exact h

theorem bind_of_ok {d : Decoder ε α} {mid : List UInt8} {a : α} (h : d bs = .ok (a, mid))
    (f : α → Decoder ε β) : (d >>= f) bs = f a mid := by
  have hb : (d >>= f) bs = (d bs).bind fun p => f p.1 p.2 := rfl
  rw [hb, h]
  rfl

theorem pure_ok_iff {a b : α} : (pure a : Decoder ε α) bs = .ok (b, rest) ↔ a = b ∧ bs = rest := by
  have hp : (pure a : Decoder ε α) bs = .ok (a, bs) := rfl
  rw [hp, Except.ok.injEq, Prod.mk.injEq]

theorem not_throw_ok {e : ε} {r : α × List UInt8} : ¬(throw e : Decoder ε α) bs = .ok r :=
  nofun

/-! ### Exact formats -/

def Exact (enc : Encoder ε α) (dec : Decoder ε α) : Prop :=
  ∀ bs a rest, dec bs = .ok (a, rest) ↔ ∃ w, enc a = .ok w ∧ bs = w ++ rest

namespace Exact

variable {enc : Encoder ε α} {dec : Decoder ε α}

theorem read_back (h : Exact enc dec) {a : α} {w : List UInt8} (hw : enc a = .ok w)
    (rest : List UInt8) : dec (w ++ rest) = .ok (a, rest) :=
  (h _ _ _).mpr ⟨w, hw, rfl⟩

theorem canonical (h : Exact enc dec) {bs rest : List UInt8} {a : α}
    (hread : dec bs = .ok (a, rest)) : ∃ w, enc a = .ok w ∧ bs = w ++ rest :=
  (h _ _ _).mp hread

theorem not_cut_short (h : Exact enc dec) {a : α} {w p : List UInt8} (hw : enc a = .ok w)
    (hp : p <+: w) (hne : p ≠ w) (r : α × List UInt8) : dec p ≠ .ok r := by
  intro hread
  rcases hp with ⟨tail, rfl⟩
  rcases r with ⟨b, rest⟩
  rcases h.canonical hread with ⟨w', hw', rfl⟩
  -- Both values are read off the whole encoding, and the first one leaves nothing.
  have hfst := h.read_back hw []
  have hsec := h.read_back hw' (rest ++ tail)
  rw [append_nil] at hfst
  rw [← append_assoc, hfst] at hsec
  have hnil : [] = rest ++ tail := congrArg Prod.snd (Except.ok.inj hsec)
  rcases append_eq_nil_iff.mp hnil.symm with ⟨-, rfl⟩
  exact hne (append_nil _).symm

end Exact

/-! ### Readers -/

/-- The next bytes, as many as asked for. `short` says what there is and what was asked
    for when there are too few. -/
def take (short : Nat → Nat → ε) (n : Nat) : Decoder ε (List UInt8) := fun bs =>
  if bs.length < n then .error (short bs.length n) else .ok (bs.take n, bs.drop n)

theorem take_ok_iff {n : Nat} {a : List UInt8} :
    take short n bs = .ok (a, rest) ↔ a.length = n ∧ bs = a ++ rest := by
  fun_cases take short n bs with
  | case1 h =>
    refine ⟨nofun, ?_⟩
    rintro ⟨rfl, rfl⟩
    rw [length_append] at h
    omega
  | case2 =>
    rw [Except.ok.injEq, Prod.mk.injEq]
    constructor
    · rintro ⟨rfl, rfl⟩
      exact ⟨by rw [length_take]; omega, (take_append_drop n bs).symm⟩
    · rintro ⟨rfl, rfl⟩
      exact ⟨take_left, drop_left⟩

def Takes (n : Nat) (d : Decoder ε α) : Prop :=
  ∀ bs a rest, d bs = .ok (a, rest) → rest.length + n ≤ bs.length

namespace Takes

theorem pure (a : α) : Takes 0 (pure a : Decoder ε α) := by
  intro bs a' rest h
  rw [(pure_ok_iff.mp h).2]
  exact Nat.le_refl _

theorem bind {d : Decoder ε α} {f : α → Decoder ε β} {n m : Nat} (hd : Takes n d)
    (hf : ∀ a, Takes m (f a)) : Takes (n + m) (d >>= f) := by
  intro bs b rest h
  rcases bind_ok_iff.mp h with ⟨a, mid, hfst, hsec⟩
  have hmid := hd bs a mid hfst
  have hr := hf a mid b rest hsec
  omega

theorem take (short : Nat → Nat → ε) (n : Nat) : Takes n (take short n) := by
  intro bs a rest h
  rcases take_ok_iff.mp h with ⟨hlen, rfl⟩
  rw [length_append]
  omega

theorem le {d : Decoder ε α} {n m : Nat} (h : Takes n d) (hle : m ≤ n) : Takes m d := by
  intro bs a rest hread
  have htak := h bs a rest hread
  omega

end Takes

theorem turns_enough {f : Nat → List UInt8 → α} (hnil : ∀ turns, f turns [] = f 0 [])
    (ht : ∀ turns turns' bs,
      (∀ rest : List UInt8, rest.length < bs.length → f turns rest = f turns' rest) →
        f (turns + 1) bs = f (turns' + 1) bs) {turns turns' : Nat} (h : bs.length ≤ turns)
    (h' : bs.length ≤ turns') : f turns bs = f turns' bs := by
  induction turns generalizing turns' bs with
  | zero =>
    rw [length_eq_zero_iff.mp (Nat.le_zero.mp h), hnil turns']
  | succ turns ih =>
    cases turns' with
    | zero => rw [length_eq_zero_iff.mp (Nat.le_zero.mp h'), hnil (turns + 1)]
    | succ turns' =>
      refine ht turns turns' bs fun rest hr => ih ?_ ?_
      · omega
      · omega

def number (short : Nat → Nat → ε) (w : Nat) : Decoder ε Nat := do
  let bytes ← take short w
  pure (Bytes.ofLe bytes)

theorem number_ok_iff {w n : Nat} :
    number short w bs = .ok (n, rest) ↔ n < 256 ^ w ∧ bs = Bytes.le w n ++ rest := by
  unfold number
  simp only [bind_ok_iff, take_ok_iff, pure_ok_iff]
  constructor
  · rintro ⟨bytes, mid, ⟨rfl, rfl⟩, rfl, rfl⟩
    exact ⟨ofLe_lt bytes, by rw [le_ofLe]⟩
  · rintro ⟨hlt, rfl⟩
    exact ⟨le w n, rest, ⟨length_le w n, rfl⟩, ofLe_le hlt, rfl⟩

def optional (present : Bool) (d : Decoder ε α) : Decoder ε (Option α) :=
  if present then do
    let a ← d
    pure (some a)
  else pure none

def encodeOptional (enc : Encoder ε α) : Encoder ε (Option α)
  | some a => enc a
  | none => .ok []

theorem encodeOptional_fails_iff {a : Option α} :
    Fails (encodeOptional enc a) ↔ ∃ b ∈ a, Fails (enc b) := by
  rcases a with _ | a
  · simp [encodeOptional]
  · simp [encodeOptional]

theorem optional_ok_iff {dec : Decoder ε α} (h : Exact enc dec) {present : Bool} {a : Option α} :
    optional present dec bs = .ok (a, rest) ↔
      a.isSome = present ∧ ∃ w, encodeOptional enc a = .ok w ∧ bs = w ++ rest := by
  unfold optional
  rcases present with _ | _
  · simp only [Bool.false_eq_true, if_false, pure_ok_iff]
    constructor
    · rintro ⟨rfl, rfl⟩
      exact ⟨rfl, [], rfl, rfl⟩
    · rintro ⟨hno, w, hw, rfl⟩
      rcases a with _ | a
      · cases hw
        exact ⟨rfl, rfl⟩
      · cases hno
  · simp only [if_true, bind_ok_iff, pure_ok_iff]
    constructor
    · rintro ⟨b, mid, hread, rfl, rfl⟩
      exact ⟨rfl, h.canonical hread⟩
    · rintro ⟨hso, w, hw, rfl⟩
      rcases a with _ | a
      · cases hso
      · exact ⟨a, rest, h.read_back hw rest, rfl, rfl⟩

/-! ### Fields -/

def fields : List (Except ε (List UInt8)) → Except ε (List UInt8)
  | [] => .ok []
  | .error e :: _ => .error e
  | .ok w :: fs => (fields fs).map (w ++ ·)

theorem fields_cons_ok_iff {f : Except ε (List UInt8)} {w : List UInt8} :
    fields (f :: fs) = .ok w ↔ ∃ u v, f = .ok u ∧ fields fs = .ok v ∧ w = u ++ v := by
  rcases f with e | u
  · simp [fields]
  rw [fields]
  rcases hfs : fields fs with e | v
  · simp [Except.map]
  · simp [Except.map, eq_comm]

theorem fields_fails_iff : Fails (fields fs) ↔ ∃ f ∈ fs, Fails f := by
  induction fs with
  | nil => simp [fields]
  | cons f fs ih =>
    rcases f with e | w
    · simp [fields]
    have hmap : Fails (fields (.ok w :: fs)) ↔ Fails (fields fs) := by
      rw [fields]
      rcases fields fs with e | v
      · simp [Except.map]
      · simp [Except.map]
    rw [hmap, ih]
    simp

/-- The decoder reads exactly the values that `P` gives fields for, off exactly what
    those fields are written as. -/
def Parses (d : Decoder ε β) (P : β → List (Except ε (List UInt8)) → Prop) : Prop :=
  ∀ bs b rest, d bs = .ok (b, rest) ↔ ∃ fs w, P b fs ∧ fields fs = .ok w ∧ bs = w ++ rest

namespace Parses

variable {P Q : β → List (Except ε (List UInt8)) → Prop} {d : Decoder ε β}

theorem congr (h : Parses d P) (hPQ : ∀ b fs, P b fs ↔ Q b fs) : Parses d Q := by
  intro bs b rest
  simp only [h bs b rest, hPQ]

theorem pure (b : β) : Parses (ε := ε) (pure b) fun b' fs => b' = b ∧ fs = [] := by
  intro bs b' rest
  rw [pure_ok_iff]
  constructor
  · rintro ⟨rfl, rfl⟩
    exact ⟨[], [], ⟨rfl, rfl⟩, rfl, rfl⟩
  · rintro ⟨fs, w, ⟨rfl, rfl⟩, hw, rfl⟩
    cases hw
    exact ⟨rfl, rfl⟩

theorem throw (e : ε) (h : ∀ b fs, ¬P b fs) : Parses (throw e) P := by
  intro bs b rest
  constructor
  · intro hread
    exact absurd hread not_throw_ok
  · rintro ⟨fs, w, hP, -⟩
    exact absurd hP (h b fs)

variable {dec : Decoder ε α} {enc : Encoder ε α}

theorem bind_expected {expected : α → Prop} (h : ∀ bs a rest, dec bs = .ok (a, rest) ↔
      expected a ∧ ∃ w, enc a = .ok w ∧ bs = w ++ rest) {f : α → Decoder ε β}
    {R : α → β → List (Except ε (List UInt8)) → Prop} (hf : ∀ a, Parses (f a) (R a)) :
    Parses (dec >>= f) fun b fs => ∃ a fs', expected a ∧ fs = enc a :: fs' ∧ R a b fs' := by
  intro bs b rest
  rw [bind_ok_iff]
  constructor
  · rintro ⟨a, mid, hread, hre⟩
    rcases (h bs a mid).mp hread with ⟨hp, u, hu, rfl⟩
    rcases (hf a mid b rest).mp hre with ⟨fs, v, hR, hv, rfl⟩
    exact ⟨_, u ++ v, ⟨a, fs, hp, rfl, hR⟩, fields_cons_ok_iff.mpr ⟨u, v, hu, hv, rfl⟩,
      (append_assoc _ _ _).symm⟩
  · rintro ⟨_, w, ⟨a, fs, hp, rfl, hR⟩, hw, rfl⟩
    rcases fields_cons_ok_iff.mp hw with ⟨u, v, hu, hv, rfl⟩
    rw [append_assoc]
    exact ⟨a, v ++ rest, (h _ a _).mpr ⟨hp, u, hu, rfl⟩,
      (hf a _ b rest).mpr ⟨fs, v, hR, hv, rfl⟩⟩

theorem bind (h : Exact enc dec) {f : α → Decoder ε β}
    {R : α → β → List (Except ε (List UInt8)) → Prop} (hf : ∀ a, Parses (f a) (R a)) :
    Parses (dec >>= f) fun b fs => ∃ a fs', fs = enc a :: fs' ∧ R a b fs' := by
  have hany : ∀ bs a rest, dec bs = .ok (a, rest) ↔ True ∧ ∃ w, enc a = .ok w ∧ bs = w ++ rest :=
    fun bs a rest => (h bs a rest).trans (iff_of_eq (true_and _)).symm
  simpa only [true_and] using bind_expected hany hf

theorem bind_optional (h : Exact enc dec) {present : Bool} {f : Option α → Decoder ε β}
    {R : Option α → β → List (Except ε (List UInt8)) → Prop} (hf : ∀ a, Parses (f a) (R a)) :
    Parses (optional present dec >>= f) fun b fs =>
      ∃ a fs', a.isSome = present ∧ fs = encodeOptional enc a :: fs' ∧ R a b fs' :=
  bind_expected (fun _ _ _ => optional_ok_iff h) hf

end Parses

/-! ### Layouts -/

inductive Shape where
  | fixed (size : Nat)
  | sized (width : Nat)

def extent : List Shape → List UInt8 → Nat
  | [], _ => 0
  | .fixed n :: shapes, bs => n + extent shapes (bs.drop n)
  | .sized w :: shapes, bs =>
    w + Bytes.ofLe (bs.take w) + extent shapes (bs.drop (w + Bytes.ofLe (bs.take w)))

def Shape.Fits : Shape → List UInt8 → Prop
  | .fixed n, bs => bs.length = n
  | .sized w, bs => ∃ body, body.length < 256 ^ w ∧ bs = Bytes.le w body.length ++ body

theorem extent_cons {shape : Shape} {w : List UInt8} (h : shape.Fits w) (shapes : List Shape)
    (rest : List UInt8) :
    extent (shape :: shapes) (w ++ rest) = w.length + extent shapes rest := by
  cases shape with
  | fixed n =>
    rw [extent, ← h, drop_left]
  | sized k =>
    rcases h with ⟨body, hlt, rfl⟩
    have hlen : (le k body.length ++ body).length = k + body.length := by simp
    have hsize : ((le k body.length ++ body) ++ rest).take k = le k body.length := by
      rw [append_assoc]
      exact take_left' (length_le k _)
    rw [extent, hsize, ofLe_le hlt, ← hlen, drop_left]

def Covers (shapes : List Shape) (fs : List (Except ε (List UInt8))) : Prop :=
  ∀ w, fields fs = .ok w → ∀ rest, extent shapes (w ++ rest) = w.length

namespace Covers

variable {shapes : List Shape} {fs : List (Except ε (List UInt8))} {shape : Shape}

theorem nil : Covers [] ([] : List (Except ε (List UInt8))) := by
  intro w hw rest
  cases hw
  rfl

theorem cons {f : Except ε (List UInt8)} (hf : ∀ w, f = .ok w → shape.Fits w)
    (h : Covers shapes fs) : Covers (shape :: shapes) (f :: fs) := by
  intro w hw rest
  rcases fields_cons_ok_iff.mp hw with ⟨u, v, hu, hv, rfl⟩
  rw [append_assoc, extent_cons (hf u hu), h v hv, length_append]

theorem optional {enc : Encoder ε α} {a : Option α} {present : Bool} (hp : a.isSome = present)
    (hf : ∀ a w, enc a = .ok w → shape.Fits w) (h : Covers shapes fs) :
    Covers ((if present then [shape] else []) ++ shapes) (encodeOptional enc a :: fs) := by
  subst hp
  rcases a with _ | a
  · intro w hw rest
    rcases fields_cons_ok_iff.mp hw with ⟨u, v, hu, hv, rfl⟩
    cases hu
    exact h v hv rest
  · exact cons (hf a) h

end Covers

end Wire
