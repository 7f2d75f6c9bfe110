import VirtInfra.Lib.RowLocks
import VirtInfra.Python.Prelude
import Mathlib.Data.Fintype.Pigeonhole
import Mathlib.Data.Fintype.Pi
import Mathlib.Data.List.Infix

/-!
# `Manifest` — the two verifiers of a full backup

A full backup is a directory with a manifest, `SHA256SUMS`, whose lines name files with their digests. The maintenance
worker verifies it before it erases the database (`verifyBackupManifest`), and the catalog of emergency backups before it
offers it for download (`verifyManifest`). The two were written separately: they check a line's digest differently, one
rejects an empty name by itself, and they raise different errors. They accept the same backups, and neither opens a listed
file outside the directory (`manifest_verifiers_agree`). The size of a file is nowhere recorded (`manifest_records_no_size`).

`hashlib` is a parameter: the digest of a content.
-/

namespace VirtInfra.Backup

open Lib Python

/-! ## Files -/

/-- The components of a path, from the root. -/
abbrev Path := List String

def Path.render (p : Path) : String := "/" ++ "/".intercalate p

abbrev Content := List UInt8

/-- The 64 hexadecimal digits of a SHA-256. -/
abbrev Digest := Fin 64 → Fin 16

/-- `digest.hexdigest()`. -/
def hexdigest (d : Digest) : String := String.ofList (List.ofFn fun i => Nat.digitChar (d i))

/-- What the verifiers ask of the file system. A resolved path has no symbolic link left in it. -/
structure FileSystem where
  /-- `Path.resolve()`, where it does not raise. -/
  resolve : Path → Option Path
  /-- Whether a resolved path is a regular file. -/
  regular : Path → Bool
  /-- The content at a resolved path, where it can be read. -/
  read : Path → Option Content
  resolve_resolve : ∀ {p q : Path}, resolve p = some q → resolve q = some q

namespace FileSystem

variable (fs : FileSystem)

/-- `path.is_file()`. -/
def isFile (p : Path) : Bool := (fs.resolve p).any fs.regular

/-- What `open` opens: the location that the path leads to. -/
def opens (p : Path) : Option Path := fs.resolve p

/-- `_sha256_file`, if the file can be read. -/
def sha256File (sha256 : Content → Digest) (p : Path) : Option String :=
  ((fs.opens p).bind fs.read).map fun content => hexdigest (sha256 content)

end FileSystem

/-- `backup_dir`, which is not itself a regular file. -/
structure BackupDir (fs : FileSystem) where
  path : Path
  not_regular : ∀ root, fs.resolve path = some root → fs.regular root = false

/-- A resolved path lies in the directory. -/
def BackupDir.Contains {fs : FileSystem} (dir : BackupDir fs) (location : Path) : Prop :=
  ∃ root, fs.resolve dir.path = some root ∧ root <+: location

/-! ## Lines -/

/-- The characters at which `splitlines` ends a line. -/
def isLineEnd (c : Char) : Bool :=
  let n := c.toNat
  (10 ≤ n && n ≤ 13) || (28 ≤ n && n ≤ 30) || n == 0x85 || n == 0x2028 || n == 0x2029

/-- `text.splitlines()`. -/
def splitLines : List Char → List (List Char)
  | [] => []
  | '\r' :: '\n' :: rest => [] :: splitLines rest
  | c :: rest =>
      if isLineEnd c then [] :: splitLines rest
      else match splitLines rest with
        | [] => [[c]]
        | line :: lines => (c :: line) :: lines

/-- `raw.split(None, 1)` of a stripped line; the second part is empty when there is only one. -/
def splitOnce (raw : List Char) : List Char × List Char :=
  (raw.takeWhile fun c => !isSpace c, (raw.dropWhile fun c => !isSpace c).dropWhile isSpace)

/-- `while relative.startswith("./"): relative = relative[2:]`. -/
def dropDotSlash : List Char → List Char
  | '.' :: '/' :: rest => dropDotSlash rest
  | relative => relative

/-- `parts[1].lstrip("* ").replace("\\", "/")`, without the prefix that `find .` writes. -/
def relativeName (rest : List Char) : List Char :=
  dropDotSlash ((rest.dropWhile fun c => c = '*' || c = ' ').map fun c => if c = '\\' then '/' else c)

def isAbsolute (relative : List Char) : Bool := relative.head? = some '/'

/-- `PurePosixPath(relative).parts`, of a path that is not absolute. -/
def posixParts (relative : List Char) : List String :=
  ((relative.splitOn '/').map String.ofList).filter fun part => part ≠ "" && part ≠ "."

/-- `as_posix()`. -/
def asPosix (parts : List String) : String := if parts = [] then "." else "/".intercalate parts

/-- `[0-9a-fA-F]`. -/
def isHex (c : Char) : Bool := ('0' ≤ c && c ≤ '9') || ('a' ≤ c && c ≤ 'f') || ('A' ≤ c && c ≤ 'F')

/-! ## The verifiers -/

inductive PyError
  | runtimeError (message : String)
  | valueError (message : String)
  | typeError (message : String)
  | osError
  deriving DecidableEq, Repr

/-- What a line makes a verifier do: the location it opens, and the entry it verifies or the error it raises. -/
structure Checked where
  opened : Option Path
  result : Except PyError (String × String)

def Checked.raise (e : PyError) : Checked := ⟨none, .error e⟩

abbrev Verified := KeyedTable String String

section Verifiers

variable (sha256 : Content → Digest) (fs : FileSystem) (dir : BackupDir fs)

/-- `hmac.compare_digest(actual, expected)` on strings. -/
def compareDigest (actual expected : String) : Except PyError Bool :=
  if (actual ++ expected).toList.all fun c => decide (c.toNat < 128) then .ok (decide (actual = expected))
  else .error (.typeError "comparing strings with non-ASCII characters is not supported")

/-- A line in `_verify_backup_manifest`. -/
def checkBackupLine (raw : String) : Checked :=
  let (digest, rest) := splitOnce raw.toList
  if rest = [] ∨ digest.length ≠ 64 then
    .raise (.runtimeError s!"Invalid SHA256SUMS line: {clip 120 raw}")
  else
    let expected := lower (String.ofList digest)
    let relative := relativeName rest
    let parts := posixParts relative
    let escapes := PyError.runtimeError s!"Unsafe backup manifest path: {String.ofList relative}"
    if relative = [] ∨ isAbsolute relative ∨ parts.any (· ∈ ["", ".", ".."]) then .raise escapes
    else
      match fs.resolve (dir.path ++ parts), fs.resolve dir.path with
      | some target, some root =>
          if ¬ root <+: target then .raise escapes
          else if !fs.isFile target then
            .raise (.runtimeError s!"Backup manifest file is missing: {target.render}")
          else
            { opened := fs.opens target
              result := do
                let some actual := fs.sha256File sha256 target | .error .osError
                if ← compareDigest actual expected then return (asPosix parts, actual)
                else .error (.runtimeError s!"Backup checksum mismatch: {asPosix parts}") }
      | _, _ => .raise .osError

/-- A line in `_verify_manifest`. -/
def checkLine (raw : String) : Checked :=
  let (digest, rest) := splitOnce raw.toList
  if rest = [] ∨ ¬ (digest.length = 64 ∧ digest.all isHex = true) then .raise (.valueError "Invalid full backup manifest line")
  else
    let relative := relativeName rest
    let parts := posixParts relative
    let escapes := PyError.valueError "Unsafe full backup manifest path"
    if isAbsolute relative ∨ parts.any (· ∈ ["", ".", ".."]) then .raise escapes
    else
      match fs.resolve (dir.path ++ parts), fs.resolve dir.path with
      | some target, some root =>
          if ¬ root <+: target then .raise escapes
          else if !fs.isFile target then .raise (.valueError s!"Full backup file is missing: {asPosix parts}")
          else
            { opened := fs.opens target
              result := do
                let some actual := fs.sha256File sha256 target | .error .osError
                let expected := lower (String.ofList digest)
                if ← compareDigest actual expected then return (asPosix parts, actual)
                else .error (.valueError s!"Full backup checksum mismatch: {asPosix parts}") }
      | _, _ => .raise .osError

/-- The loop of both verifiers: the locations opened, and the entries verified or the error raised. -/
def verifyLines (check : String → Checked) (conflict : String → PyError) :
    List String → Verified → List Path × Except PyError Verified
  | [], verified => ([], .ok verified)
  | raw :: rest, verified =>
      if strip raw = "" then verifyLines check conflict rest verified
      else
        let checked := check (strip raw)
        match checked.result with
        | .error e => (checked.opened.toList, .error e)
        | .ok (normalized, actual) =>
            if (verified.get? normalized).any (· ≠ actual) then (checked.opened.toList, .error (conflict normalized))
            else
              let (opened, result) := verifyLines check conflict rest (verified.put normalized actual)
              (checked.opened.toList ++ opened, result)

/-- The entries cover the dump and its listing. -/
def covers (e : PyError) (verified : Verified) : Except PyError Verified :=
  if (verified.get? "database.dump").isSome && (verified.get? "database.list").isSome then .ok verified else .error e

def manifestLines (text : String) : List String := (splitLines text.toList).map String.ofList

/-- **`_verify_backup_manifest`** of the maintenance worker. `manifest` is the text of the file, if there is one and it is
    UTF-8. -/
def verifyBackupManifest (manifest : Option String) : List Path × Except PyError Verified :=
  match manifest with
  | none => ([], .error .osError)
  | some text =>
      let (opened, result) := verifyLines (checkBackupLine sha256 fs dir)
        (fun normalized => .runtimeError s!"Conflicting backup manifest entry: {normalized}") (manifestLines text) .empty
      (opened, result.bind
        (covers (.runtimeError "Backup manifest does not cover database.dump and database.list")))

/-- **`_verify_manifest`** of the emergency backups. -/
def verifyManifest (manifest : Option String) : List Path × Except PyError Verified :=
  match manifest with
  | none => ([], .error (.valueError "Full backup SHA256SUMS is missing"))
  | some text =>
      let (opened, result) := verifyLines (checkLine sha256 fs dir)
        (fun normalized => .valueError s!"Conflicting full backup manifest entry: {normalized}") (manifestLines text) .empty
      (opened, result.bind
        (covers (.valueError "Full backup manifest does not cover database.dump and database.list")))

end Verifiers

/-! ## Hexadecimal digits -/

theorem isHex_digitChar (d : Fin 16) : isHex (Nat.digitChar d) = true := by
  revert d
  decide

theorem toNat_digitChar_le (d : Fin 16) : (Nat.digitChar d).toNat ≤ 102 := by
  revert d
  decide

/-- Only a hexadecimal digit becomes a lower-case one. -/
theorem isHex_of_toLower {c : Char} {d : Fin 16} (h : c.toLower = Nat.digitChar d) : isHex c = true := by
  unfold Char.toLower at h
  split at h
  · next hupper =>
      have hle := toNat_digitChar_le d
      rw [← h] at hle
      have hA : 65 ≤ c.toNat := UInt32.le_iff_toNat_le.mp hupper.1
      have hZ : c.toNat ≤ 90 := UInt32.le_iff_toNat_le.mp hupper.2
      have hshift : (c.val + ('a'.val - 'A'.val)).toNat = c.toNat + 32 := by
        rw [UInt32.toNat_add]
        exact Nat.mod_eq_of_lt (by
          show c.toNat + 32 < _
          omega)
      have hsmall : c.toNat + 32 ≤ 102 := hshift ▸ hle
      have hF : c ≤ 'F' := UInt32.le_iff_toNat_le.mpr (show c.toNat ≤ 70 by omega)
      have hA' : 'A' ≤ c := hupper.1
      simp [isHex, hA', hF]
  · rw [h]
    exact isHex_digitChar d

theorem ascii_hexdigest (d : Digest) : ∀ c ∈ (hexdigest d).toList, c.toNat < 128 := by
  intro c hc
  unfold hexdigest at hc
  rw [String.toList_ofList, List.mem_ofFn] at hc
  obtain ⟨i, rfl⟩ := hc
  have hle := toNat_digitChar_le (d i)
  omega

/-- **What agrees with a digest in lower case is 64 hexadecimal digits.** -/
theorem hex_of_lower_eq {digest : List Char} {d : Digest} (h : hexdigest d = lower (String.ofList digest)) :
    digest.length = 64 ∧ digest.all isHex = true := by
  have hchars : (List.ofFn fun i => Nat.digitChar (d i)) = digest.map Char.toLower := by
    have htoList := congrArg String.toList h
    unfold hexdigest lower at htoList
    simpa using htoList
  constructor
  · have hlength := congrArg List.length hchars
    simpa using hlength.symm
  · rw [List.all_eq_true]
    intro c hc
    have hmem : c.toLower ∈ List.ofFn fun i => Nat.digitChar (d i) := hchars ▸ List.mem_map_of_mem hc
    obtain ⟨i, hi⟩ := List.mem_ofFn.mp hmem
    exact isHex_of_toLower hi.symm

/-! ## What a line has to pass -/

section Passes

variable {sha256 : Content → Digest} {fs : FileSystem} {dir : BackupDir fs} {raw : String} {entry : String × String}

theorem compareDigest_eq_true {d : Digest} {expected : String} :
    compareDigest (hexdigest d) expected = .ok true ↔ hexdigest d = expected := by
  unfold compareDigest
  constructor
  · intro h
    split at h
    · exact of_decide_eq_true (Except.ok.inj h)
    · cases h
  · rintro rfl
    have hascii : ((hexdigest d ++ hexdigest d).toList.all fun c => decide (c.toNat < 128)) = true := by
      rw [List.all_eq_true]
      intro c hc
      rw [String.toList_append, List.mem_append, or_self] at hc
      exact decide_eq_true (ascii_hexdigest d c hc)
    rw [if_pos hascii, decide_eq_true rfl]

theorem FileSystem.sha256File_eq_some {target : Path} {actual : String} (h : fs.sha256File sha256 target = some actual) :
    ∃ location content, fs.resolve target = some location ∧ fs.read location = some content ∧
      actual = hexdigest (sha256 content) := by
  obtain ⟨content, hcontent, rfl⟩ := Option.map_eq_some_iff.mp h
  obtain ⟨location, hlocation, hread⟩ := Option.bind_eq_some_iff.mp hcontent
  exact ⟨location, content, hlocation, hread, rfl⟩

/-- **A line that both verifiers pass**: a digest and a name that stays in the directory, of a file with that digest. -/
structure Passes (sha256 : Content → Digest) (fs : FileSystem) (dir : BackupDir fs) (digest rest : List Char)
    (entry : String × String) : Prop where
  given : rest ≠ []
  relative : isAbsolute (relativeName rest) = false
  parts : (posixParts (relativeName rest)).any (· ∈ ["", ".", ".."]) = false
  file : ∃ target root, fs.resolve (dir.path ++ posixParts (relativeName rest)) = some target ∧
    fs.resolve dir.path = some root ∧ root <+: target ∧ fs.isFile target = true ∧
    fs.sha256File sha256 target = some entry.2
  digest : entry.2 = lower (String.ofList digest)
  name : entry.1 = asPosix (posixParts (relativeName rest))

/-- An accepted digest is 64 hexadecimal digits. -/
theorem Passes.hex {digest rest : List Char} (h : Passes sha256 fs dir digest rest entry) :
    digest.length = 64 ∧ digest.all isHex = true := by
  obtain ⟨target, root, -, -, -, -, hactual⟩ := h.file
  obtain ⟨location, content, -, -, heq⟩ := FileSystem.sha256File_eq_some hactual
  exact hex_of_lower_eq (heq ▸ h.digest)

/-- The directory itself is no file, so the name is not empty. -/
theorem Passes.named {digest rest : List Char} (h : Passes sha256 fs dir digest rest entry) : relativeName rest ≠ [] := by
  intro hempty
  obtain ⟨target, root, htarget, hroot, -, hfile, -⟩ := h.file
  have hparts : posixParts [] = [] := by decide
  rw [hempty, hparts, List.append_nil, hroot] at htarget
  obtain rfl := Option.some.inj htarget
  unfold FileSystem.isFile at hfile
  rw [fs.resolve_resolve hroot] at hfile
  exact absurd hfile (by simp [dir.not_regular root hroot])

/-- The end of both checks. -/
theorem checked_eq_ok {target : Path} {expected name : String} {e : PyError} : (do
      let some actual := fs.sha256File sha256 target | .error .osError
      if ← compareDigest actual expected then return (name, actual) else .error e : Except PyError (String × String)) =
        .ok entry ↔
    fs.sha256File sha256 target = some entry.2 ∧ entry.2 = expected ∧ entry.1 = name := by
  cases hactual : fs.sha256File sha256 target with
  | none => simp
  | some actual =>
      obtain ⟨location, content, -, -, rfl⟩ := FileSystem.sha256File_eq_some hactual
      have hcompare : compareDigest (hexdigest (sha256 content)) expected = .ok true ↔ hexdigest (sha256 content) = expected :=
        compareDigest_eq_true
      by_cases heq : hexdigest (sha256 content) = expected
      · simp only [hcompare.mpr heq, bind, Except.bind, if_true, pure, Except.pure, Except.ok.injEq, Option.some.injEq]
        constructor
        · rintro rfl
          exact ⟨rfl, heq, rfl⟩
        · rintro ⟨hsecond, -, hfirst⟩
          exact Prod.ext hfirst.symm hsecond
      · have hfails : ¬ compareDigest (hexdigest (sha256 content)) expected = .ok true := fun h => heq (hcompare.mp h)
        constructor
        · intro h
          cases hresult : compareDigest (hexdigest (sha256 content)) expected with
          | error e' =>
              simp only [hresult, bind, Except.bind] at h
              cases h
          | ok same =>
              cases same with
              | true => exact absurd hresult hfails
              | false =>
                  simp only [hresult, bind, Except.bind] at h
                  cases h
        · rintro ⟨hsome, hsame, -⟩
          rw [← Option.some.inj hsome] at hsame
          exact absurd hsame heq

/-- **What the worker passes.** -/
theorem checkBackupLine_eq_ok : (checkBackupLine sha256 fs dir raw).result = .ok entry ↔
    Passes sha256 fs dir (splitOnce raw.toList).1 (splitOnce raw.toList).2 entry := by
  unfold checkBackupLine
  dsimp only
  constructor
  · intro h
    split at h
    · cases h
    · next hform =>
        obtain ⟨hgiven, hlength⟩ := not_or.mp hform
        split at h
        · cases h
        · next hpath =>
            obtain ⟨hrelative, hrest⟩ := not_or.mp hpath
            obtain ⟨habsolute, hparts⟩ := not_or.mp hrest
            split at h
            · next target root htarget hroot =>
                split at h
                · cases h
                · next hinside =>
                    split at h
                    · cases h
                    · next hfile =>
                        obtain ⟨hsome, hdigest, hname⟩ := checked_eq_ok.mp h
                        exact ⟨hgiven, by simpa using habsolute, by simpa using hparts,
                          ⟨target, root, htarget, hroot, not_not.mp hinside, by simpa using hfile, hsome⟩, hdigest, hname⟩
            · cases h
  · intro h
    obtain ⟨target, root, htarget, hroot, hinside, hfile, hactual⟩ := h.file
    have hform : ¬ ((splitOnce raw.toList).2 = [] ∨ (splitOnce raw.toList).1.length ≠ 64) := by
      simp [h.given, h.hex.1]
    have hpath : ¬ (relativeName (splitOnce raw.toList).2 = [] ∨ isAbsolute (relativeName (splitOnce raw.toList).2) = true ∨
        (posixParts (relativeName (splitOnce raw.toList).2)).any (· ∈ ["", ".", ".."]) = true) := by
      rw [h.relative, h.parts]
      simp [h.named]
    rw [if_neg hform, if_neg hpath, htarget, hroot]
    dsimp only
    rw [if_neg (not_not.mpr hinside), hfile]
    exact checked_eq_ok.mpr ⟨hactual, h.digest, h.name⟩

/-- **What the catalog passes**, the same. -/
theorem checkLine_eq_ok : (checkLine sha256 fs dir raw).result = .ok entry ↔
    Passes sha256 fs dir (splitOnce raw.toList).1 (splitOnce raw.toList).2 entry := by
  unfold checkLine
  dsimp only
  constructor
  · intro h
    split at h
    · cases h
    · next hform =>
        obtain ⟨hgiven, -⟩ := not_or.mp hform
        split at h
        · cases h
        · next hpath =>
            obtain ⟨habsolute, hparts⟩ := not_or.mp hpath
            split at h
            · next target root htarget hroot =>
                split at h
                · cases h
                · next hinside =>
                    split at h
                    · cases h
                    · next hfile =>
                        obtain ⟨hsome, hdigest, hname⟩ := checked_eq_ok.mp h
                        exact ⟨hgiven, by simpa using habsolute, by simpa using hparts,
                          ⟨target, root, htarget, hroot, not_not.mp hinside, by simpa using hfile, hsome⟩, hdigest, hname⟩
            · cases h
  · intro h
    obtain ⟨target, root, htarget, hroot, hinside, hfile, hactual⟩ := h.file
    have hform : ¬ ((splitOnce raw.toList).2 = [] ∨
        ¬ ((splitOnce raw.toList).1.length = 64 ∧ (splitOnce raw.toList).1.all isHex = true)) := by
      rw [not_or, not_not]
      exact ⟨h.given, h.hex⟩
    have hpath : ¬ (isAbsolute (relativeName (splitOnce raw.toList).2) = true ∨
        (posixParts (relativeName (splitOnce raw.toList).2)).any (· ∈ ["", ".", ".."]) = true) := by
      rw [h.relative, h.parts]
      simp
    rw [if_neg hform, if_neg hpath, htarget, hroot]
    dsimp only
    rw [if_neg (not_not.mpr hinside), hfile]
    exact checked_eq_ok.mpr ⟨hactual, h.digest, h.name⟩

/-- What a check opens lies in the directory. -/
def StaysIn (dir : BackupDir fs) (check : String → Checked) : Prop :=
  ∀ raw location, (check raw).opened = some location → dir.Contains location

/-- A resolved target is opened where it is. -/
theorem contains_of_opens {p target root location : Path} (htarget : fs.resolve p = some target)
    (hroot : fs.resolve dir.path = some root) (hinside : root <+: target) (hopens : fs.opens target = some location) :
    dir.Contains location := by
  have hsame : fs.opens target = some target := fs.resolve_resolve htarget
  rw [hsame] at hopens
  obtain rfl := Option.some.inj hopens
  exact ⟨root, hroot, hinside⟩

theorem staysIn_checkBackupLine : StaysIn dir (checkBackupLine sha256 fs dir) := by
  intro raw location hopened
  unfold checkBackupLine Checked.raise at hopened
  dsimp only at hopened
  split at hopened
  · cases hopened
  · split at hopened
    · cases hopened
    · split at hopened
      · next target root htarget hroot =>
          split at hopened
          · cases hopened
          · next hinside =>
              split at hopened
              · cases hopened
              · exact contains_of_opens htarget hroot (not_not.mp hinside) hopened
      · cases hopened

theorem staysIn_checkLine : StaysIn dir (checkLine sha256 fs dir) := by
  intro raw location hopened
  unfold checkLine Checked.raise at hopened
  dsimp only at hopened
  split at hopened
  · cases hopened
  · split at hopened
    · cases hopened
    · split at hopened
      · next target root htarget hroot =>
          split at hopened
          · cases hopened
          · next hinside =>
              split at hopened
              · cases hopened
              · exact contains_of_opens htarget hroot (not_not.mp hinside) hopened
      · cases hopened

end Passes

/-! ## The loop -/

section Loop

variable {check check' : String → Checked} {conflict conflict' : String → PyError} {lines : List String}
  {verified result : Verified}

/-- **A loop that passes the same lines accepts what the other one does.** -/
theorem verifyLines_mono (h : ∀ raw entry, (check raw).result = .ok entry → (check' raw).result = .ok entry)
    (hloop : (verifyLines check conflict lines verified).2 = .ok result) :
    (verifyLines check' conflict' lines verified).2 = .ok result := by
  induction lines generalizing verified with
  | nil => exact hloop
  | cons raw rest ih =>
      unfold verifyLines at hloop ⊢
      by_cases hblank : strip raw = ""
      · rw [if_pos hblank] at hloop ⊢
        exact ih hloop
      · rw [if_neg hblank] at hloop ⊢
        cases hchecked : (check (strip raw)).result with
        | error e =>
            simp only [hchecked] at hloop
            cases hloop
        | ok entry =>
            simp only [hchecked, h _ _ hchecked] at hloop ⊢
            split at hloop
            · cases hloop
            · next hconflict =>
                rw [if_neg hconflict]
                exact ih hloop

/-- An entry once verified stays. -/
theorem get?_verifyLines {name actual : String} (hname : verified.get? name = some actual)
    (hloop : (verifyLines check conflict lines verified).2 = .ok result) : result.get? name = some actual := by
  induction lines generalizing verified with
  | nil =>
      obtain rfl := Except.ok.inj hloop
      exact hname
  | cons raw rest ih =>
      unfold verifyLines at hloop
      split at hloop
      · exact ih hname hloop
      · cases hchecked : (check (strip raw)).result with
        | error e =>
            simp only [hchecked] at hloop
            cases hloop
        | ok entry =>
            simp only [hchecked] at hloop
            split at hloop
            · cases hloop
            · next hconflict =>
                refine ih ?_ hloop
                rw [KeyedTable.get?_put]
                split
                · next heq =>
                    subst heq
                    simp only [hname, Option.any_some, decide_eq_true_eq, not_not] at hconflict
                    exact congrArg some hconflict.symm
                · exact hname

/-- **In an accepted manifest every line passed**, and its entry is in the result. -/
theorem passed_of_verifyLines (hloop : (verifyLines check conflict lines verified).2 = .ok result) {raw : String}
    (hraw : raw ∈ lines) (hblank : strip raw ≠ "") :
    ∃ entry, (check (strip raw)).result = .ok entry ∧ result.get? entry.1 = some entry.2 := by
  induction lines generalizing verified with
  | nil => cases hraw
  | cons first rest ih =>
      unfold verifyLines at hloop
      by_cases hfirst : strip first = ""
      · rw [if_pos hfirst] at hloop
        obtain rfl | hrest := List.mem_cons.mp hraw
        · exact absurd hfirst hblank
        · exact ih hloop hrest
      · rw [if_neg hfirst] at hloop
        cases hchecked : (check (strip first)).result with
        | error e =>
            simp only [hchecked] at hloop
            cases hloop
        | ok entry =>
            simp only [hchecked] at hloop
            split at hloop
            · cases hloop
            · obtain rfl | hrest := List.mem_cons.mp hraw
              · refine ⟨entry, hchecked, get?_verifyLines ?_ hloop⟩
                rw [KeyedTable.get?_put, if_pos rfl]
              · exact ih hloop hrest

theorem contains_of_mem_verifyLines {fs : FileSystem} {dir : BackupDir fs} (hstays : StaysIn dir check)
    {location : Path} (hopened : location ∈ (verifyLines check conflict lines verified).1) : dir.Contains location := by
  induction lines generalizing verified with
  | nil => cases hopened
  | cons raw rest ih =>
      unfold verifyLines at hopened
      split at hopened
      · exact ih hopened
      · dsimp only at hopened
        split at hopened
        · exact hstays _ _ (Option.mem_toList.mp hopened)
        · split at hopened
          · exact hstays _ _ (Option.mem_toList.mp hopened)
          · obtain hhere | hlater := List.mem_append.mp hopened
            · exact hstays _ _ (Option.mem_toList.mp hhere)
            · exact ih hlater

end Loop

/-! ## Both verifiers -/

section Agree

variable {sha256 : Content → Digest} {fs : FileSystem} {dir : BackupDir fs} {manifest : Option String} {verified : Verified}

theorem covers_eq_ok {e : PyError} {v : Verified} : covers e v = .ok verified ↔
    ((v.get? "database.dump").isSome && (v.get? "database.list").isSome) = true ∧ v = verified := by
  unfold covers
  split
  · next h => simp [h]
  · next h => simp [h]

theorem bind_covers_eq_ok {e : PyError} {loop : Except PyError Verified} : loop.bind (covers e) = .ok verified ↔
    loop = .ok verified ∧ ((verified.get? "database.dump").isSome && (verified.get? "database.list").isSome) = true := by
  cases loop with
  | error e' => simp [Except.bind]
  | ok v =>
      show covers e v = .ok verified ↔ _
      rw [covers_eq_ok, Except.ok.injEq]
      constructor
      · rintro ⟨hcovers, rfl⟩
        exact ⟨rfl, hcovers⟩
      · rintro ⟨rfl, hcovers⟩
        exact ⟨hcovers, rfl⟩

/-- **Both accept the same manifests**, with the same entries. -/
theorem verifiers_agree : (verifyBackupManifest sha256 fs dir manifest).2 = .ok verified ↔
    (verifyManifest sha256 fs dir manifest).2 = .ok verified := by
  unfold verifyBackupManifest verifyManifest
  cases manifest with
  | none => simp
  | some text =>
      dsimp only
      rw [bind_covers_eq_ok, bind_covers_eq_ok]
      apply and_congr_left'
      constructor
      · apply verifyLines_mono
        intro raw entry hpassed
        exact checkLine_eq_ok.mpr (checkBackupLine_eq_ok.mp hpassed)
      · apply verifyLines_mono
        intro raw entry hpassed
        exact checkBackupLine_eq_ok.mpr (checkLine_eq_ok.mp hpassed)

/-- **A line lists a file**: its digest and its name, as written. -/
def Lists (text : String) (digest rest : List Char) : Prop :=
  ∃ raw ∈ manifestLines text, strip raw ≠ "" ∧ splitOnce (strip raw).toList = (digest, rest)

/-- The file of a name is in the directory, and has the digest. -/
def Present (sha256 : Content → Digest) (fs : FileSystem) (dir : BackupDir fs) (digest rest : List Char) : Prop :=
  ∃ target content, fs.resolve (dir.path ++ posixParts (relativeName rest)) = some target ∧ dir.Contains target ∧
    fs.regular target = true ∧ fs.read target = some content ∧
    hexdigest (sha256 content) = lower (String.ofList digest)

theorem Passes.present {digest rest : List Char} {entry : String × String}
    (h : Passes sha256 fs dir digest rest entry) : Present sha256 fs dir digest rest := by
  obtain ⟨target, root, htarget, hroot, hinside, hfile, hactual⟩ := h.file
  obtain ⟨location, content, hlocation, hread, heq⟩ := FileSystem.sha256File_eq_some hactual
  have hsame := fs.resolve_resolve htarget
  rw [hsame] at hlocation
  obtain rfl := Option.some.inj hlocation
  unfold FileSystem.isFile at hfile
  rw [hsame] at hfile
  exact ⟨target, content, htarget, ⟨root, hroot, hinside⟩, hfile, hread, heq ▸ h.digest⟩

/-- **The two manifest verifiers agree.** They accept the same manifests with the same entries, every file an accepted one
    lists is present with the digest recorded for it, and whatever the manifest says, neither opens a file that it lists
    outside of the backup directory. The manifest itself, which may be a link, is opened before. -/
theorem manifest_verifiers_agree (sha256 : Content → Digest) (fs : FileSystem) (dir : BackupDir fs)
    (manifest : Option String) :
    (∀ verified, (verifyBackupManifest sha256 fs dir manifest).2 = .ok verified ↔
      (verifyManifest sha256 fs dir manifest).2 = .ok verified) ∧
    (∀ verified, (verifyManifest sha256 fs dir manifest).2 = .ok verified → ∃ text, manifest = some text ∧
      ∀ digest rest, Lists text digest rest → Present sha256 fs dir digest rest ∧
        verified.get? (asPosix (posixParts (relativeName rest))) = some (lower (String.ofList digest))) ∧
    (∀ location ∈ (verifyBackupManifest sha256 fs dir manifest).1, dir.Contains location) ∧
    ∀ location ∈ (verifyManifest sha256 fs dir manifest).1, dir.Contains location := by
  refine ⟨fun verified => verifiers_agree, ?_, ?_, ?_⟩
  · intro verified haccepted
    cases manifest with
    | none => cases haccepted
    | some text =>
        refine ⟨text, rfl, ?_⟩
        rintro digest rest ⟨raw, hraw, hblank, hsplit⟩
        have hloop := (bind_covers_eq_ok.mp haccepted).1
        obtain ⟨entry, hpassed, hget⟩ := passed_of_verifyLines hloop hraw hblank
        have hpasses := checkLine_eq_ok.mp hpassed
        rw [hsplit] at hpasses
        rw [hpasses.name, hpasses.digest] at hget
        exact ⟨hpasses.present, hget⟩
  · intro location hopened
    cases manifest with
    | none => cases hopened
    | some text => exact contains_of_mem_verifyLines staysIn_checkBackupLine hopened
  · intro location hopened
    cases manifest with
    | none => cases hopened
    | some text => exact contains_of_mem_verifyLines staysIn_checkLine hopened

end Agree

/-! ## Sizes -/

section Sizes

variable {sha256 : Content → Digest} {c : Content} {d : Digest}

/-- A dump and its listing of one content, in a directory without links. -/
def dumpFiles (c : Content) : FileSystem where
  resolve := some
  regular p := decide (p ∈ [["b", "database.dump"], ["b", "database.list"]])
  read _ := some c
  resolve_resolve h := Option.some.inj h ▸ rfl

def dumpDir (c : Content) : BackupDir (dumpFiles c) where
  path := ["b"]
  not_regular := by
    rintro root hroot
    obtain rfl := Option.some.inj hroot
    show decide (["b"] ∈ [["b", "database.dump"], ["b", "database.list"]]) = false
    decide

/-- A line as `sha256sum` writes it. -/
def sumLine (d : Digest) (name : String) : String := String.ofList ((hexdigest d).toList ++ ' ' :: ' ' :: name.toList)

def dumpManifest (d : Digest) : String :=
  String.ofList ((sumLine d "database.dump").toList ++ '\n' :: ((sumLine d "database.list").toList ++ ['\n']))

theorem not_isSpace_digitChar (d : Fin 16) : isSpace (Nat.digitChar d) = false := by
  revert d
  decide

theorem not_isLineEnd_digitChar (d : Fin 16) : isLineEnd (Nat.digitChar d) = false := by
  revert d
  decide

theorem toLower_digitChar (d : Fin 16) : (Nat.digitChar d).toLower = Nat.digitChar d := by
  revert d
  decide

theorem mem_hexdigest {x : Char} (h : x ∈ (hexdigest d).toList) : ∃ i, x = Nat.digitChar (d i) := by
  unfold hexdigest at h
  rw [String.toList_ofList, List.mem_ofFn] at h
  obtain ⟨i, hi⟩ := h
  exact ⟨i, hi.symm⟩

theorem lower_hexdigest : lower (hexdigest d) = hexdigest d := by
  unfold lower
  have hmap : (hexdigest d).toList.map Char.toLower = (hexdigest d).toList := by
    conv_rhs => rw [← List.map_id (hexdigest d).toList]
    apply List.map_congr_left
    intro x hx
    obtain ⟨i, rfl⟩ := mem_hexdigest hx
    exact toLower_digitChar (d i)
  rw [hmap, String.ofList_toList]

theorem hexdigest_cons : ∃ (i : Fin 16) (rest : List Char), (hexdigest d).toList = Nat.digitChar i :: rest := by
  unfold hexdigest
  rw [String.toList_ofList, List.ofFn_succ]
  exact ⟨_, _, rfl⟩

theorem splitLines_cons {x : Char} {rest : List Char} (h : x ≠ '\r') :
    splitLines (x :: rest) = if isLineEnd x then [] :: splitLines rest
      else match splitLines rest with
        | [] => [[x]]
        | line :: lines => (x :: line) :: lines := by
  rw [splitLines]
  intro _ hcr
  exact absurd hcr h

/-- A line ends at its first line end. -/
theorem splitLines_append {line rest : List Char} (h : ∀ x ∈ line, isLineEnd x = false) :
    splitLines (line ++ '\n' :: rest) = line :: splitLines rest := by
  induction line with
  | nil =>
      have hend : isLineEnd '\n' = true := by decide
      rw [List.nil_append, splitLines_cons (by decide), if_pos hend]
  | cons x line ih =>
      have hx : isLineEnd x = false := h x List.mem_cons_self
      have hne : x ≠ '\r' := by
        rintro rfl
        exact absurd hx (by decide)
      have hrest := ih fun y hy => h y (List.mem_cons_of_mem _ hy)
      rw [List.cons_append, splitLines_cons hne, hrest, hx]
      rfl

theorem manifestLines_dumpManifest :
    manifestLines (dumpManifest d) = [sumLine d "database.dump", sumLine d "database.list"] := by
  have hline : ∀ name ∈ ["database.dump", "database.list"], ∀ x ∈ (sumLine d name).toList, isLineEnd x = false := by
    intro name hname x hx
    unfold sumLine at hx
    rw [String.toList_ofList] at hx
    obtain hdigest | hrest := List.mem_append.mp hx
    · obtain ⟨i, rfl⟩ := mem_hexdigest hdigest
      exact not_isLineEnd_digitChar (d i)
    · have hall : ∀ name ∈ ["database.dump", "database.list"],
          (' ' :: ' ' :: name.toList).all (fun x => !isLineEnd x) = true := by decide
      simpa using List.all_eq_true.mp (hall name hname) x hrest
  unfold manifestLines dumpManifest
  rw [String.toList_ofList, splitLines_append (hline _ (by decide)), splitLines_append (hline _ (by decide))]
  simp [splitLines]

theorem strip_sumLine {name : String} {last : Char} {init : List Char} (hname : name.toList = init ++ [last])
    (hlast : isSpace last = false) : strip (sumLine d name) = sumLine d name := by
  obtain ⟨i, rest, hdigits⟩ := hexdigest_cons (d := d)
  unfold strip sumLine
  rw [String.toList_ofList, hdigits, List.cons_append, List.dropWhile_cons_of_neg (by simp [not_isSpace_digitChar]), hname]
  simp [hlast]

theorem splitOnce_sumLine {name : String} {first : Char} {rest : List Char} (hname : name.toList = first :: rest)
    (hfirst : isSpace first = false) : splitOnce (sumLine d name).toList = ((hexdigest d).toList, name.toList) := by
  have hdigits : ∀ x ∈ (hexdigest d).toList, (!isSpace x) = true := by
    intro x hx
    obtain ⟨i, rfl⟩ := mem_hexdigest hx
    simp [not_isSpace_digitChar]
  have hspace : isSpace ' ' = true := by decide
  unfold splitOnce sumLine
  rw [String.toList_ofList, List.takeWhile_append_of_pos hdigits, List.dropWhile_append_of_pos hdigits, hname]
  simp [hspace, hfirst]

theorem passes_sumLine (sha256 : Content → Digest) {name : String} (hname : name ∈ ["database.dump", "database.list"]) (c : Content) :
    (checkLine sha256 (dumpFiles c) (dumpDir c) (strip (sumLine (sha256 c) name))).result =
      .ok (name, hexdigest (sha256 c)) := by
  have hends : ∀ name ∈ ["database.dump", "database.list"], ∃ first rest init last,
      name.toList = first :: rest ∧ isSpace first = false ∧ name.toList = init ++ [last] ∧ isSpace last = false := by
    intro name hname
    obtain rfl | rfl := List.mem_pair.mp hname
    · exact ⟨_, _, "database.dum".toList, 'p', rfl, by decide, by decide, by decide⟩
    · exact ⟨_, _, "database.lis".toList, 't', rfl, by decide, by decide, by decide⟩
  have hnames : ∀ name ∈ ["database.dump", "database.list"], isAbsolute (relativeName name.toList) = false ∧
      posixParts (relativeName name.toList) = [name] ∧ name ∉ ["", ".", ".."] ∧
        decide (["b", name] ∈ [["b", "database.dump"], ["b", "database.list"]]) = true := by decide
  obtain ⟨first, rest, init, last, hfirst, hspace, hlast, hend⟩ := hends name hname
  obtain ⟨habsolute, hparts, hsafe, hregular⟩ := hnames name hname
  rw [strip_sumLine hlast hend, checkLine_eq_ok, splitOnce_sumLine hfirst hspace]
  refine ⟨by simp [hfirst], habsolute, ?_, ⟨["b", name], ["b"], ?_, rfl, ⟨[name], rfl⟩, hregular, rfl⟩, ?_, ?_⟩
  · rw [hparts]
    simpa using hsafe
  · rw [hparts]
    rfl
  · rw [String.ofList_toList, lower_hexdigest]
  · rw [hparts]
    rfl

theorem strip_sumLine_ne {name : String} (init : List Char) (last : Char) (hname : name.toList = init ++ [last])
    (hlast : isSpace last = false) : strip (sumLine d name) ≠ "" := by
  rw [strip_sumLine hname hlast]
  intro hempty
  obtain ⟨i, rest, hdigits⟩ := hexdigest_cons (d := d)
  have hchars := congrArg String.toList hempty
  unfold sumLine at hchars
  rw [String.toList_ofList, hdigits] at hchars
  cases hchars

/-- The backup of a content is accepted with the manifest that its digest gives. -/
theorem accepts_dumpManifest (sha256 : Content → Digest) (c : Content) : ∃ verified,
    (verifyManifest sha256 (dumpFiles c) (dumpDir c) (some (dumpManifest (sha256 c)))).2 = .ok verified := by
  have hdump := passes_sumLine sha256 (List.mem_pair.mpr (.inl rfl)) c
  have hlist := passes_sumLine sha256 (List.mem_pair.mpr (.inr rfl)) c
  have hdumpLine : strip (sumLine (sha256 c) "database.dump") ≠ "" :=
    strip_sumLine_ne "database.dum".toList 'p' (by decide) (by decide)
  have hlistLine : strip (sumLine (sha256 c) "database.list") ≠ "" :=
    strip_sumLine_ne "database.lis".toList 't' (by decide) (by decide)
  have hother : ((KeyedTable.empty : Verified).put "database.dump" (hexdigest (sha256 c))).get? "database.list" = none := by
    rw [KeyedTable.get?_put, if_neg (by decide)]
    rfl
  refine ⟨((KeyedTable.empty : Verified).put "database.dump" (hexdigest (sha256 c))).put "database.list"
    (hexdigest (sha256 c)), ?_⟩
  unfold verifyManifest
  dsimp only
  rw [manifestLines_dumpManifest]
  simp only [verifyLines, if_neg hdumpLine, if_neg hlistLine, hdump, hlist, hother, Option.any_none]
  apply bind_covers_eq_ok.mpr
  refine ⟨rfl, ?_⟩
  simp [KeyedTable.get?_put]

/-- **A manifest records no size.** Whatever hash is used, no reading of the listed lines gives the size of every file
    that an accepted manifest lists: the lines hold a digest and a name only, and there are more contents than digests. -/
theorem manifest_records_no_size : ¬ ∃ (sha256 : Content → Digest) (recordedSize : String → Nat),
    ∀ (fs : FileSystem) (dir : BackupDir fs) (text : String) (verified : Verified),
      (verifyManifest sha256 fs dir (some text)).2 = .ok verified →
      ∀ raw ∈ manifestLines text, strip raw ≠ "" → ∀ target content,
        fs.resolve (dir.path ++ posixParts (relativeName (splitOnce (strip raw).toList).2)) = some target →
        fs.read target = some content → content.length = recordedSize (strip raw) := by
  rintro ⟨sha256, recordedSize, hsize⟩
  -- two contents of different sizes with one digest
  obtain ⟨m, n, hne, hsame⟩ := Finite.exists_ne_map_eq_of_infinite fun n : Nat => sha256 (List.replicate n 0)
  have hline : ∀ n, n = recordedSize (strip (sumLine (sha256 (List.replicate n 0)) "database.dump")) := by
    intro n
    obtain ⟨verified, haccepted⟩ := accepts_dumpManifest sha256 (List.replicate n 0)
    have hlisted := hsize _ _ _ _ haccepted (sumLine (sha256 (List.replicate n 0)) "database.dump")
      (by
        rw [manifestLines_dumpManifest]
        exact List.mem_cons_self)
      (strip_sumLine_ne "database.dum".toList 'p' (by decide) (by decide)) _ _ rfl rfl
    simpa using hlisted
  exact hne ((hline m).trans (by rw [hsame, ← hline n]))

end Sizes

end VirtInfra.Backup
