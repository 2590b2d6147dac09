import Nexapipe.Lib.Ascii
import Nexapipe.Lib.Text

/-!
# Giving `/etc/resolv.conf` back

The global hijack of the system DNS on Linux goes through `resolvectl` if it can, and
leaves the file alone. Otherwise the file is copied to a backup and overwritten. The
restore does not ask which of the two it was: it reverts the link, and writes the
backup back if there is one.

What the commands and the file operations come to is a parameter of each call. A copy
or a write that fails leaves whatever it leaves. Nobody else writes the two files
(`resolv_conf_given_back_iff`).
-/

namespace Nexapipe.ResolvConf

/-! ### What a file names -/

/-- The `nameserver` addresses a file names. A carriage return before the end of a line
    is white space, and an empty last line names nothing. -/
def resolvConfNameservers (contents : List Char) : List (List Char) :=
  (contents.splitOn '\n').filterMap fun line =>
    match Text.splitWhitespace line with
    | first :: server :: _ => if first = "nameserver".toList then some server else none
    | _ => none

def tunBaseCandidates : List (BitVec 32) :=
  [0xC6120000#32, 0xC6130000#32, 0x64640000#32, 0xAC1A0000#32, 0x0AC80000#32, 0x0A000000#32]

def readToString (bytes : List UInt8) : List Char :=
  ((Ascii.fromUtf8 bytes).getD "").toList

section

-- `parse` reads a dotted IPv4 address.
variable (parse : List Char → Option (BitVec 32))

def isTunDnsAddress (address : List Char) : Bool :=
  match parse address with
  | none => false
  | some ip => tunBaseCandidates.any fun base => ip = base ||| 0xFE#32

def resolvConfNamesATunAddress (contents : List Char) : Bool :=
  (resolvConfNameservers contents).any (isTunDnsAddress parse)

/-! ### Installing -/

structure Files where
  resolvConf : List UInt8
  backup : Option (List UInt8)

inductive WriteOutcome where
  | done
  | failed (left : List UInt8)

def WriteOutcome.leaves (text : List UInt8) : WriteOutcome → List UInt8
  | done => text
  | failed left => left

def WriteOutcome.succeeded : WriteOutcome → Bool
  | done => true
  | failed _ => false

inductive CopyOutcome where
  | done
  | failed (left : Option (List UInt8))

def CopyOutcome.leaves (text : List UInt8) : CopyOutcome → Option (List UInt8)
  | done => some text
  | failed left => left

structure Attempt where
  /-- `resolvectl dns` ran and exited 0. -/
  dnsSet : Bool
  /-- The servers `resolvectl` reports for the link, if it can be read back. -/
  dnsRead : Option (List (List Char))
  /-- The default route was set on the link and read back. -/
  routeSet : Bool
  copy : CopyOutcome
  write : WriteOutcome

def Attempt.onLink (a : Attempt) (dnsIp : List Char) : Bool :=
  a.dnsSet && a.dnsRead.any (·.contains dnsIp) && a.routeSet

def hijackText (dnsIp : List Char) : List UInt8 :=
  Ascii.utf8 (String.ofList ("nameserver ".toList ++ dnsIp ++ ['\n']))

def overwrite (dnsIp : List Char) (a : Attempt) (f : Files) : Files :=
  { resolvConf := a.write.leaves (hijackText dnsIp)
    backup := if resolvConfNamesATunAddress parse (readToString f.resolvConf) then f.backup
      else a.copy.leaves f.resolvConf }

/-- Installs the global hijack. It is reported as the global one also when it failed;
    the result is whether it did not. -/
def setSystemDnsLinux (dnsIp : List Char) (a : Attempt) (f : Files) : Files × Bool :=
  if a.onLink dnsIp then (f, true)
  else
    -- A link that took the resolver and not the route is reverted, which is no file.
    let f := overwrite parse dnsIp a f
    (f, a.write.succeeded &&
      (resolvConfNameservers (readToString f.resolvConf)).contains dnsIp)

/-! ### Restoring -/

inductive RestoreScope where
  | ifInEffect
  | unconditional
deriving DecidableEq

structure Undo where
  dnsRead : Option (List (List Char))
  write : WriteOutcome

def hijackIsInEffect (observed : List (List (List Char))) (dnsIp : List Char) : Bool :=
  observed.any (·.contains dnsIp)

/-- Writes the backup back, and takes it away when that worked. The result is the tunnel
    addresses the file still names, which are an error. -/
def restoreSystemDnsLinux (u : Undo) (f : Files) : Files × List (List Char) :=
  let f :=
    match f.backup with
    | none => f
    | some backup =>
      match u.write with
      | .done => { resolvConf := backup, backup := none }
      | .failed left => { f with resolvConf := left }
  (f, (resolvConfNameservers (readToString f.resolvConf)).filter (isTunDnsAddress parse))

def restoreSystemDns (dnsIp : List Char) (scope : RestoreScope) (u : Undo) (f : Files) :
    Files × List (List Char) :=
  let observed := [u.dnsRead.getD [], resolvConfNameservers (readToString f.resolvConf)]
  if scope = .unconditional || hijackIsInEffect observed dnsIp then
    restoreSystemDnsLinux parse u f
  else (f, [])

/-- A run of the tunnel: a hijack that failed is undone at once and unconditionally, one
    that did not when the run ends, if it is in effect. -/
def installAndRestore (dnsIp : List Char) (a : Attempt) (u : Undo) (f : Files) : Files :=
  let installed := setSystemDnsLinux parse dnsIp a f
  (restoreSystemDns parse dnsIp (if installed.2 then .ifInEffect else .unconditional) u
    installed.1).1

end

/-! ### What is given back -/

/-- When the file is given back. Through the link: there is no backup, or it is the file,
    or nothing shows the hijack at the end. Through the file: the copy worked, or what it
    left is the file, or it left nothing and the write left the file. -/
def Returns (dnsIp : List Char) (a : Attempt) (u : Undo) (f : Files) : Prop :=
  if a.onLink dnsIp then
    f.backup = none ∨ f.backup = some f.resolvConf ∨
      (u.dnsRead.getD []).contains dnsIp = false ∧
        (resolvConfNameservers (readToString f.resolvConf)).contains dnsIp = false
  else
    a.copy.leaves f.resolvConf = some f.resolvConf ∨
      a.copy.leaves f.resolvConf = none ∧ a.write.leaves (hijackText dnsIp) = f.resolvConf

section

variable {parse : List Char → Option (BitVec 32)} {dnsIp : List Char} {a : Attempt} {u : Undo}
  {f : Files}

theorem resolvConf_restoreSystemDnsLinux (hw : u.write = .done) :
    (restoreSystemDnsLinux parse u f).1.resolvConf = f.backup.getD f.resolvConf := by
  unfold restoreSystemDnsLinux
  rw [hw]
  cases f.backup <;> rfl

theorem getD_eq_iff {backup : Option (List UInt8)} {left file : List UInt8} :
    backup.getD left = file ↔ backup = some file ∨ backup = none ∧ left = file := by
  cases backup <;> simp

theorem restoreSystemDns_inEffect {scope : RestoreScope} (h : scope = .unconditional ∨
      (u.dnsRead.getD []).contains dnsIp = true ∨
      (resolvConfNameservers (readToString f.resolvConf)).contains dnsIp = true) :
    restoreSystemDns parse dnsIp scope u f = restoreSystemDnsLinux parse u f := by
  unfold restoreSystemDns hijackIsInEffect
  rw [if_pos]
  simpa only [List.any_cons, List.any_nil, Bool.or_false, Bool.or_eq_true,
    decide_eq_true_eq] using h

theorem setSystemDnsLinux_file (hl : a.onLink dnsIp = false) :
    setSystemDnsLinux parse dnsIp a f = (overwrite parse dnsIp a f, a.write.succeeded &&
      (resolvConfNameservers (readToString (overwrite parse dnsIp a f).resolvConf)).contains
        dnsIp) := by
  rw [setSystemDnsLinux, if_neg (by rw [hl]; decide)]

theorem restoreSystemDns_installed (hl : a.onLink dnsIp = false) :
    installAndRestore parse dnsIp a u f =
      (restoreSystemDnsLinux parse u (overwrite parse dnsIp a f)).1 := by
  rw [installAndRestore, setSystemDnsLinux_file hl]
  generalize overwrite parse dnsIp a f = f
  congr 1
  apply restoreSystemDns_inEffect
  cases a.write.succeeded with
  | false => exact .inl rfl
  | true =>
    rcases (resolvConfNameservers (readToString f.resolvConf)).contains dnsIp with _ | _
    · left
      simp only [Bool.and_false, Bool.false_eq_true, if_false]
    · exact .inr (.inr rfl)

end

/-- Install and restore leave the file as it was exactly under these conditions. -/
theorem resolv_conf_given_back_iff (parse : List Char → Option (BitVec 32)) (dnsIp : List Char)
    (a : Attempt) (u : Undo) (f : Files)
    (hown : resolvConfNamesATunAddress parse (readToString f.resolvConf) = false)
    (hwrite : u.write = .done) :
    (installAndRestore parse dnsIp a u f).resolvConf = f.resolvConf ↔ Returns dnsIp a u f := by
  unfold Returns
  rcases hli : a.onLink dnsIp with _ | _
  · rw [restoreSystemDns_installed hli, resolvConf_restoreSystemDnsLinux hwrite, getD_eq_iff,
      overwrite, hown]
    rfl
  · have hset : setSystemDnsLinux parse dnsIp a f = (f, true) := by
      rw [setSystemDnsLinux, if_pos hli]
    simp only [installAndRestore, hset, if_true]
    by_cases heff : (u.dnsRead.getD []).contains dnsIp = true ∨
        (resolvConfNameservers (readToString f.resolvConf)).contains dnsIp = true
    · rw [restoreSystemDns_inEffect (.inr heff), resolvConf_restoreSystemDnsLinux hwrite,
        getD_eq_iff, and_iff_left rfl, or_comm]
      have hsh : ¬((u.dnsRead.getD []).contains dnsIp = false ∧
          (resolvConfNameservers (readToString f.resolvConf)).contains dnsIp = false) := by
        rintro ⟨hread, hnam⟩
        rw [hread, hnam] at heff
        simp at heff
      rw [iff_false_intro hsh, or_false]
    · -- Nothing shows the hijack, and nothing is written.
      simp only [not_or, Bool.not_eq_true] at heff
      simp only [restoreSystemDns, hijackIsInEffect, List.any_cons, List.any_nil, heff.1,
        heff.2, Bool.or_false, reduceCtorEq, decide_false, Bool.false_eq_true, if_false,
        and_self, or_true]

def tunIp : List Char :=
  "198.18.0.254".toList

def parseTun (s : List Char) : Option (BitVec 32) :=
  if s = tunIp then some 0xC61200FE#32 else none

def attempt (onLink : Bool) : Attempt :=
  { dnsSet := onLink, dnsRead := some [tunIp], routeSet := true, copy := .done, write := .done }

def ownFile : List UInt8 :=
  Ascii.utf8 "nameserver 9.9.9.9\n"

theorem ownFile_own : resolvConfNamesATunAddress parseTun (readToString ownFile) = false := by
  decide +kernel

theorem resolv_conf_given_back_iff_copied :
    (installAndRestore parseTun tunIp (attempt false) ⟨none, .done⟩ ⟨ownFile, none⟩).resolvConf =
      ownFile :=
  (resolv_conf_given_back_iff parseTun tunIp (attempt false) ⟨none, .done⟩ ⟨ownFile, none⟩
    ownFile_own rfl).mpr (.inl rfl)

/-- With a backup of an earlier run about, a hijack that never touched the file ends with
    the file replaced. -/
theorem stale_backup_replaces_file :
    resolvConfNamesATunAddress parseTun (readToString ownFile) = false ∧
      (setSystemDnsLinux parseTun tunIp (attempt true) ⟨ownFile, some []⟩).1 =
        ⟨ownFile, some []⟩ ∧
      (installAndRestore parseTun tunIp (attempt true) ⟨some [tunIp], .done⟩
        ⟨ownFile, some []⟩).resolvConf = [] :=
  ⟨ownFile_own, rfl, rfl⟩

end Nexapipe.ResolvConf
