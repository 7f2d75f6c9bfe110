import VirtInfra.Lib.Representatives
import VirtInfra.Python.Strings
import Mathlib.Data.Prod.Lex
import Mathlib.Data.Rat.Floor
import Mathlib.Data.String.Basic

/-!
# `Filesystems` — the storage of a node, and where an image lies (`agent.py`)

The agent asks `df` for capacities and `findmnt` for devices, and puts both together by mount point. It runs in a namespace of
its own, where one device shows up at many places; it reports one mount for each. The set of mount points is gone through in
whatever order Python's hashing gives.

An image of a VM belongs to the reported mount that is the longest prefix of its path. The prefix is one of characters; on
paths as the kernel gives them it is one of directories (`mountContains_iff`).
-/

namespace VirtInfra.Agent

open Lib Python

/-! ## Paths -/

/-- The directories on the way of a path. -/
def parts (path : String) : List (List Char) := (path.toList.splitOnP (· = '/')).filter (· ≠ [])

/-- `"/" + "/".join(parts)`. -/
def renderPath : List (List Char) → List Char
  | [] => ['/']
  | first :: rest => '/' :: first ++ rest.flatMap fun part => '/' :: part

/-- An absolute path without empty parts, and without a slash at its end: a mount point, or what `os.path.realpath` gives. -/
def IsPath (path : String) : Prop := path.toList = renderPath (parts path)

instance (path : String) : Decidable (IsPath path) := inferInstanceAs (Decidable (_ = _))

/-- `path.startswith(start)`. -/
def startsWith (start path : String) : Bool := start.toList.isPrefixOf path.toList

/-- `str(mount or "").rstrip("/") or "/"`. -/
def normMount (mount : String) : String :=
  let stripped := String.ofList (mount.toList.rdropWhile (· = '/'))
  if stripped = "" then "/" else stripped

/-- `os.path.basename`. -/
def basename (path : String) : String := String.ofList (path.toList.rtakeWhile (· ≠ '/'))

/-- What stands before the first `[`. -/
def beforeBracket (source : String) : String := String.ofList (source.toList.takeWhile (· ≠ '['))

/-! ## What the host shows -/

/-- A line of `df -P -T -B1`, with its numbers as `int()` and `float()` read them. -/
structure DfLine where
  device : String
  fstype : String
  size : Option Int
  used : Option Int
  avail : Option Int
  usePercent : Option ℚ
  mount : String

/-- The columns of `findmnt`; `none` where a value is absent or `null`. -/
structure FindmntRow where
  source : Option String
  fstype : Option String
  target : Option String
  majColonMin : Option String
  majMin : Option String
  fsroot : Option String

/-- An item of `findmnt --json`. Some versions nest the mounts below a mount. -/
inductive FindmntItem
  | item (row : FindmntRow) (children : List FindmntItem)
  | other

/-- `os.statvfs`. -/
structure Statvfs where
  frsize : Nat
  bsize : Nat
  blocks : Nat
  bavail : Nat
  bfree : Nat

/-- **What the host shows of its storage.** `df` is `none` when it fails, and a line of it where it has not seven words;
    `findmnt` has what each of the four commands prints. `sysDevBlock` is the name that `/sys/dev/block/<maj:min>` leads to,
    `blockStat` whether `/sys/class/block/<name>/stat` exists. -/
structure StorageHost where
  df : Option (List (Option DfLine))
  findmnt : List (Option (List FindmntItem))
  mountMajMin : String → String
  statvfs : String → Option Statvfs
  realpath : String → String
  sysDevBlock : String → Option String
  blockStat : String → Bool

/-! ## Filesystems -/

/-- A filesystem as it is reported. -/
structure Filesystem where
  device : String
  majMin : String
  fstype : String
  mount : String
  size : Nat
  used : Nat
  avail : Nat
  usePercent : ℚ
  deriving DecidableEq

/-- A row before the roots are chosen. -/
structure FsRow extends Filesystem where
  fsroot : String
  submount : Bool
  deriving DecidableEq

/-- `_filesystem_mount_allowed`. -/
def filesystemMountAllowed (mount : String) : Bool :=
  let mount := strip mount
  !(mount = "" || mount = "-" || ["/run", "/sys", "/proc", "/dev"].any (startsWith · mount))

/-- `str(value or "").strip()`. -/
def textOf (value : Option String) : String := strip (value.getD "")

/-- `_collect_df_filesystems`. -/
def collectDfFilesystems (h : StorageHost) : KeyedTable String FsRow :=
  ((h.df.getD []).drop 1).reduceOption.foldl (fun result line =>
    let mount := strip line.mount
    if filesystemMountAllowed mount then
      result.upsert mount
        { device := strip line.device, majMin := h.mountMajMin mount, fstype := strip line.fstype, mount
          size := counter line.size, used := counter line.used, avail := counter line.avail
          usePercent := max 0 (safeFloat line.usePercent 0), fsroot := "/", submount := false } fun _ new => new
    else result) .empty

mutual

/-- `_walk_findmnt_rows`. -/
def walkFindmntRows : List FindmntItem → List FindmntRow
  | [] => []
  | item :: rest => walkFindmntItem item ++ walkFindmntRows rest

def walkFindmntItem : FindmntItem → List FindmntRow
  | .item row children => row :: walkFindmntRows children
  | .other => []

end

/-- What `findmnt` says of a mount. -/
structure MountMeta where
  device : String
  majMin : String
  fstype : String
  mount : String
  fsroot : String
  submount : Bool
  deriving DecidableEq

/-- `ignored_fs`. -/
def ignoredFs : List String :=
  ["tmpfs", "devtmpfs", "squashfs", "overlay", "tracefs", "debugfs", "securityfs", "pstore", "efivarfs", "cgroup", "cgroup2",
    "proc", "sysfs"]

/-- The body of the loop over the rows of one command. -/
def mountMeta (row : FindmntRow) : Option MountMeta :=
  let mount := textOf row.target
  let source := textOf row.source
  let fstype := textOf row.fstype
  if !filesystemMountAllowed mount || ignoredFs.contains fstype then none
  else
    let fsroot := if textOf row.fsroot = "" then "/" else textOf row.fsroot
    some
      { device := beforeBracket source
        majMin := textOf (if row.majColonMin.getD "" = "" then row.majMin else row.majColonMin)
        fstype, mount, fsroot
        submount := fsroot ≠ "/" || (source.toList.contains '[' && source.toList.getLast? = some ']') }

/-- `_collect_findmnt_metadata`: the first command that gives anything. -/
def collectFindmntMetadata : List (Option (List FindmntItem)) → KeyedTable String MountMeta
  | [] => .empty
  | none :: rest => collectFindmntMetadata rest
  | some items :: rest =>
      let result := ((walkFindmntRows items).filterMap mountMeta).foldl
        (fun result row => result.upsert row.mount row fun _ new => new) .empty
      if result.rows = [] then collectFindmntMetadata rest else result

/-- `_statvfs_capacity`. -/
def statvfsCapacity (st : Option Statvfs) : Nat × Nat × Nat × ℚ :=
  match st with
  | none => (0, 0, 0, 0)
  | some st =>
      let unit := if st.frsize = 0 then st.bsize else st.frsize
      let size := unit * st.blocks
      let used := size - unit * st.bfree
      (size, used, unit * st.bavail, if size > 0 then used * 100 / size else 0)

namespace StorageHost

variable (h : StorageHost)

/-- `set(df_rows) | set(findmnt_rows)`. -/
def mounts : List String := (collectDfFilesystems h).keys ∪ (collectFindmntMetadata h.findmnt).keys

/-- The row of a mount that `df` does not show. -/
def statvfsRow (mount : String) : FsRow :=
  let (size, used, avail, usePercent) := statvfsCapacity (h.statvfs mount)
  { device := "", majMin := h.mountMajMin mount, fstype := "", mount, size, used, avail, usePercent, fsroot := "/"
    submount := false }

/-- The row of a mount: capacities of `df`, and what `findmnt` has that is not empty. -/
def merged (mount : String) : FsRow :=
  let base := ((collectDfFilesystems h).get? mount).getD (h.statvfsRow mount)
  match (collectFindmntMetadata h.findmnt).get? mount with
  | none => { base with mount }
  | some info =>
      { base with
        mount
        device := if info.device = "" then base.device else info.device
        majMin := if info.majMin = "" then base.majMin else info.majMin
        fstype := if info.fstype = "" then base.fstype else info.fstype
        fsroot := info.fsroot
        submount := info.submount }

/-- `_filesystem_identity`. -/
def filesystemIdentity (row : Filesystem) : String :=
  let majMin := strip row.majMin
  if majMin ≠ "" then "maj:" ++ majMin
  else
    let device := beforeBracket (strip row.device)
    let device := if startsWith "/dev/" device then h.realpath device else device
    if device ≠ "" then "dev:" ++ device else "mount:" ++ row.mount

end StorageHost

/-- The rank of a mount among those of one filesystem. -/
def mountRank (mount : String) : ℕ ×ₗ ℕ ×ₗ ℕ ×ₗ String :=
  toLex (if mount = "/" then 0 else 1, toLex (mount.toList.count '/', toLex (mount.length, mount)))

/-- The order of the reported mounts. -/
def mountOrder (mount : String) : ℕ ×ₗ ℕ ×ₗ String :=
  toLex (if mount = "/" then 0 else 1, toLex (mount.length, mount))

/-- A row that may stand for its filesystem. -/
def FsRow.isRoot (row : FsRow) : Bool := filesystemMountAllowed row.mount && !row.submount

/-- `_dedupe_filesystem_roots`. -/
def dedupeFilesystemRoots (h : StorageHost) (rows : List FsRow) : List Filesystem :=
  let rows := (rows.map fun row => { row with mount := normMount row.mount }).filter FsRow.isRoot
  let chosen := lowest (fun row => h.filesystemIdentity row.toFilesystem) (fun row => mountRank row.mount) rows
  (orderBy false (fun row => mountOrder row.mount) chosen).map FsRow.toFilesystem

/-- **`collect_filesystems`**, with the mounts in the order in which the set gives them. -/
def collectFilesystems (h : StorageHost) (order : List String) : List Filesystem :=
  dedupeFilesystemRoots h (order.map h.merged)

/-! ## Where an image lies -/

/-- `device_to_block_name`. -/
def deviceToBlockName (h : StorageHost) (device majMin : String) : Option String :=
  let majMin := strip majMin
  match (if majMin = "" then none else h.sysDevBlock majMin).filter h.blockStat with
  | some name => some name
  | none =>
      let device := strip device
      let device :=
        if device.toList.contains '[' && device.toList.getLast? = some ']' then beforeBracket device else device
      if startsWith "/dev/" device then ([h.realpath device, device].map basename).find? h.blockStat else none

/-- A mount of the inventory. -/
structure MountItem where
  mount : String
  device : String
  block : String
  fstype : String
  size : Nat
  used : Nat
  avail : Nat
  usePercent : ℚ
  deriving DecidableEq

/-- The mount of a filesystem. -/
def mountItem (h : StorageHost) (fs : Filesystem) : MountItem where
  mount := normMount fs.mount
  device := fs.device
  block := (deviceToBlockName h fs.device fs.majMin).getD ""
  fstype := fs.fstype
  size := fs.size
  used := fs.used
  avail := fs.avail
  usePercent := fs.usePercent

/-- `parse_mount_inventory`: the longest mount first. -/
def parseMountInventory (h : StorageHost) (filesystems : List Filesystem) : List MountItem :=
  orderBy true (fun item => item.mount.length) (filesystems.map (mountItem h))

/-- A path is a mount, or starts with it and a slash. -/
def mountContains (mount source : String) : Bool :=
  if mount = "/" then startsWith "/" source else source = mount || startsWith (mount ++ "/") source

/-- `map_source_to_mount`. -/
def mapSourceToMount (h : StorageHost) (source : String) (mounts : List MountItem) : Option MountItem :=
  let source := if source = "" then "" else h.realpath source
  if source = "" then none else mounts.find? fun item => mountContains item.mount source

/-! ## A prefix of characters is one of directories -/

/-- A part of a path. -/
def IsPart (part : List Char) : Prop := part ≠ [] ∧ '/' ∉ part

theorem isPart_of_mem {path : String} {part : List Char} (hpart : part ∈ parts path) : IsPart part := by
  obtain ⟨hmem, hne⟩ := List.mem_filter.mp hpart
  refine ⟨by simpa using hne, fun hslash => ?_⟩
  simpa using not_separator_of_mem_splitOnP hmem '/' hslash

/-- The parts, each with the slash behind it. -/
def closed (path : List (List Char)) : List Char := path.flatMap fun part => part ++ ['/']

theorem renderPath_close (first : List Char) (rest : List (List Char)) :
    renderPath (first :: rest) ++ ['/'] = '/' :: closed (first :: rest) := by
  have hshift : ∀ rest : List (List Char), (rest.flatMap fun part => '/' :: part) ++ ['/'] = '/' :: closed rest := by
    intro rest
    induction rest with
    | nil => rfl
    | cons part rest ih =>
        unfold closed at ih ⊢
        rw [List.flatMap_cons, List.append_assoc, ih, List.flatMap_cons]
        simp
  unfold renderPath
  rw [List.append_assoc, hshift]
  unfold closed
  simp

/-- **Closed paths are prefixes just as their parts are.** -/
theorem closed_isPrefix {a b : List (List Char)} (ha : ∀ part ∈ a, IsPart part) (hb : ∀ part ∈ b, IsPart part) :
    closed a <+: closed b ↔ a <+: b := by
  induction a generalizing b with
  | nil => simp [closed]
  | cons first rest ih =>
      cases b with
      | nil => simp [closed]
      | cons first' rest' =>
          obtain ⟨hfirst, hrest⟩ := List.forall_mem_cons.mp ha
          obtain ⟨hfirst', hrest'⟩ := List.forall_mem_cons.mp hb
          have hcons : ∀ (part : List Char) parts, closed (part :: parts) = part ++ '/' :: closed parts := by
            intro part parts
            simp [closed]
          rw [List.cons_prefix_cons, ← ih hrest hrest', hcons, hcons]
          constructor
          · rintro ⟨tail, htail⟩
            -- A part has no slash, so the first slash ends the first part of both.
            rw [List.append_assoc, List.cons_append] at htail
            obtain ⟨rfl, hclosed⟩ := append_cons_inj_of_prefix hfirst.2 hfirst'.2 htail
            exact ⟨rfl, tail, hclosed⟩
          · rintro ⟨rfl, tail, htail⟩
            exact ⟨tail, by rw [List.append_assoc, List.cons_append, htail]⟩

theorem renderPath_isPrefix {a b : List (List Char)} (h : a <+: b) : renderPath a <+: renderPath b := by
  obtain ⟨tail, rfl⟩ := h
  cases a with
  | nil =>
      cases tail with
      | nil => exact List.prefix_refl _
      | cons first rest => exact ⟨first ++ rest.flatMap fun part => '/' :: part, rfl⟩
  | cons first rest =>
      refine ⟨tail.flatMap fun part => '/' :: part, ?_⟩
      simp [renderPath]

theorem eq_root_of_parts {path : String} (hpath : IsPath path) (hparts : parts path = []) : path = "/" := by
  unfold IsPath at hpath
  rw [hparts] at hpath
  exact String.toList_inj.mp hpath

/-- **A mount contains a path exactly if its directories begin the path's.** -/
theorem mountContains_iff {mount source : String} (hmount : IsPath mount) (hsource : IsPath source) :
    mountContains mount source = true ↔ parts mount <+: parts source := by
  have hgood : ∀ path : String, ∀ part ∈ parts path, IsPart part := fun _ _ hpart => isPart_of_mem hpart
  unfold IsPath at hmount hsource
  cases hm : parts mount with
  | nil =>
      have hroot := eq_root_of_parts (show IsPath mount from hmount) hm
      unfold mountContains startsWith
      rw [if_pos hroot, hsource]
      cases parts source <;> simp [renderPath]
  | cons first rest =>
      have hfirst := hgood mount first (hm ▸ List.mem_cons_self)
      rw [hm] at hmount
      have hroot : mount ≠ "/" := by
        rintro rfl
        obtain ⟨c, more, hne⟩ := List.exists_cons_of_ne_nil hfirst.1
        rw [hne] at hmount
        cases hmount
      unfold mountContains startsWith
      rw [if_neg hroot, Bool.or_eq_true, decide_eq_true_eq, ← String.toList_inj, List.isPrefixOf_iff_prefix,
        String.toList_append, hsource, hmount]
      show _ ∨ renderPath (first :: rest) ++ ['/'] <+: _ ↔ _
      -- Being the mount, or starting with it and a slash, is one prefix once the path is closed too.
      rw [eq_comm, ← List.append_left_inj ['/'], ← List.prefix_concat_iff]
      cases hs : parts source with
      | nil =>
          -- The path is the root, which lies in no mount below it.
          have hlong : 2 ≤ first.length + 1 := by
            have := List.length_pos_iff.mpr hfirst.1
            omega
          constructor
          · intro h
            have hle := h.length_le
            simp [renderPath] at hle
            omega
          · intro h
            simp at h
      | cons first' rest' =>
          rw [renderPath_close, renderPath_close, List.cons_prefix_cons, and_iff_right rfl]
          exact closed_isPrefix (hm ▸ hgood mount) (hs ▸ hgood source)

/-- The deeper of two mounts on the way of a path has the longer name. -/
theorem parts_isPrefix_of_length_le {a b : String} {path : List (List Char)} (ha : IsPath a) (hb : IsPath b)
    (hap : parts a <+: path) (hbp : parts b <+: path) (hle : b.length ≤ a.length) : parts b <+: parts a := by
  rcases List.prefix_or_prefix_of_prefix hbp hap with h | h
  · exact h
  · -- The other way round both have the same name.
    have hstart : a.toList <+: b.toList := by
      rw [show a.toList = _ from ha, show b.toList = _ from hb]
      exact renderPath_isPrefix h
    have hname := String.toList_inj.mp (hstart.eq_of_length_le (by rwa [String.length_toList, String.length_toList]))
    rw [hname]

/-- A path other than the root ends with a part. -/
theorem exists_last_part {path : String} (hpath : IsPath path) (hne : parts path ≠ []) :
    ∃ before part, path.toList = before ++ part ∧ IsPart part := by
  obtain ⟨first, rest, hparts⟩ := List.exists_cons_of_ne_nil hne
  have hpart : ∀ part ∈ first :: rest, IsPart part := fun part hmem => isPart_of_mem (hparts ▸ hmem)
  unfold IsPath at hpath
  rw [hpath, hparts]
  rcases List.eq_nil_or_concat rest with rfl | ⟨init, part, rfl⟩
  · exact ⟨['/'], first, by simp [renderPath], hpart _ List.mem_cons_self⟩
  · exact ⟨renderPath (first :: init) ++ ['/'], part, by simp [renderPath], hpart _ (by simp)⟩

/-- So there is no slash to strip from it. -/
theorem normMount_of_isPath {mount : String} (hmount : IsPath mount) : normMount mount = mount := by
  by_cases hroot : parts mount = []
  · rw [eq_root_of_parts hmount hroot]
    decide
  · obtain ⟨before, part, heq, hne, hslash⟩ := exists_last_part hmount hroot
    have hkeep : mount.toList.rdropWhile (· = '/') = mount.toList := by
      rw [List.rdropWhile_eq_self_iff, heq]
      intro hnil
      rw [List.getLast_append_of_ne_nil _ hne, decide_eq_true_eq]
      exact fun h => hslash (h ▸ List.getLast_mem hne)
    have hsome : mount ≠ "" := by
      rintro rfl
      exact hne (List.append_eq_nil_iff.mp heq.symm).2
    unfold normMount
    rw [hkeep, String.ofList_toList]
    exact if_neg hsome

/-! ## One mount for each filesystem -/

namespace StorageHost

variable {h : StorageHost} {order : List String}

/-- The kernel's mount points, and what `os.path.realpath` gives, are absolute paths without superfluous slashes. -/
structure Canonical (h : StorageHost) : Prop where
  mounts : ∀ mount ∈ h.mounts, IsPath mount
  realpath : ∀ path, path ≠ "" → IsPath (h.realpath path)

theorem merged_mount (mount : String) : (h.merged mount).mount = mount := by
  unfold merged
  dsimp only
  split <;> rfl

/-- The rows that the loop goes through, in its order. -/
def roots (h : StorageHost) (order : List String) : List FsRow := (order.map h.merged).filter FsRow.isRoot

theorem mem_roots {row : FsRow} :
    row ∈ h.roots order ↔ ∃ mount ∈ order, (h.merged mount).isRoot = true ∧ h.merged mount = row := by
  unfold roots
  rw [List.mem_filter, List.mem_map]
  constructor
  · rintro ⟨⟨mount, hmem, rfl⟩, hroot⟩
    exact ⟨mount, hmem, hroot, rfl⟩
  · rintro ⟨mount, hmem, hroot, rfl⟩
    exact ⟨⟨mount, hmem, rfl⟩, hroot⟩

/-- A row is given by its mount. -/
theorem eq_of_mount {a b : FsRow} (ha : a ∈ h.roots order) (hb : b ∈ h.roots order) (heq : a.mount = b.mount) : a = b := by
  obtain ⟨m, -, -, rfl⟩ := mem_roots.mp ha
  obtain ⟨m', -, -, rfl⟩ := mem_roots.mp hb
  rw [merged_mount, merged_mount] at heq
  rw [heq]

theorem mountRank_inj {m m' : String} (heq : mountRank m = mountRank m') : m = m' := by
  unfold mountRank at heq
  simpa using congrArg (fun rank : ℕ ×ₗ ℕ ×ₗ ℕ ×ₗ String => (ofLex (ofLex (ofLex rank).2).2).2) heq

theorem mountOrder_inj {m m' : String} (heq : mountOrder m = mountOrder m') : m = m' := by
  unfold mountOrder at heq
  simpa using congrArg (fun rank : ℕ ×ₗ ℕ ×ₗ String => (ofLex (ofLex rank).2).2) heq

theorem rank_inj : ∀ a ∈ h.roots order, ∀ b ∈ h.roots order, mountRank a.mount = mountRank b.mount → a = b :=
  fun _ ha _ hb heq => eq_of_mount ha hb (mountRank_inj heq)

/-- The rows that are chosen. -/
def chosen (h : StorageHost) (order : List String) : List FsRow :=
  lowest (fun row => h.filesystemIdentity row.toFilesystem) (fun row => mountRank row.mount) (h.roots order)

theorem collectFilesystems_eq (horder : ∀ mount ∈ order, IsPath mount) :
    collectFilesystems h order =
      (orderBy false (fun row => mountOrder row.mount) (h.chosen order)).map FsRow.toFilesystem := by
  have hnorm : (order.map h.merged).map (fun row => { row with mount := normMount row.mount }) = order.map h.merged := by
    rw [List.map_map]
    refine List.map_congr_left fun mount hmem => ?_
    have heq : normMount (h.merged mount).mount = (h.merged mount).mount := by
      rw [merged_mount, normMount_of_isPath (horder mount hmem)]
    show { h.merged mount with mount := normMount (h.merged mount).mount } = h.merged mount
    rw [heq]
  unfold collectFilesystems dedupeFilesystemRoots
  rw [hnorm]
  rfl

theorem mem_collectFilesystems (horder : ∀ mount ∈ order, IsPath mount) {fs : Filesystem} :
    fs ∈ collectFilesystems h order ↔ ∃ row ∈ h.chosen order, row.toFilesystem = fs := by
  rw [collectFilesystems_eq horder, List.mem_map]
  simp only [mem_orderBy]

/-- **Which mounts are reported**: of each filesystem the lowest that is allowed and no alias. -/
theorem mem_reported_iff (horder : ∀ mount ∈ order, IsPath mount) {fs : Filesystem} :
    fs ∈ collectFilesystems h order ↔ ∃ mount ∈ order, (h.merged mount).isRoot = true ∧ (h.merged mount).toFilesystem = fs ∧
      ∀ other ∈ order, (h.merged other).isRoot = true →
        h.filesystemIdentity (h.merged other).toFilesystem = h.filesystemIdentity fs → mountRank mount ≤ mountRank other := by
  rw [mem_collectFilesystems horder]
  unfold chosen
  simp only [mem_lowest_iff rank_inj]
  constructor
  · rintro ⟨row, ⟨hmem, hle⟩, rfl⟩
    obtain ⟨mount, hmount, hroot, rfl⟩ := mem_roots.mp hmem
    refine ⟨mount, hmount, hroot, rfl, fun other hother hroot' hid => ?_⟩
    simpa only [merged_mount] using hle _ (mem_roots.mpr ⟨other, hother, hroot', rfl⟩) hid
  · -- Every row of the loop is that of an allowed mount.
    rintro ⟨mount, hmount, hroot, rfl, hle⟩
    refine ⟨_, ⟨mem_roots.mpr ⟨mount, hmount, hroot, rfl⟩, fun row hrow hid => ?_⟩, rfl⟩
    obtain ⟨other, hother, hroot', rfl⟩ := mem_roots.mp hrow
    simpa only [merged_mount] using hle other hother hroot' hid

/-- The set may give the mounts in any order. -/
theorem collectFilesystems_perm {order' : List String} (horder : ∀ mount ∈ order, IsPath mount) (hperm : order.Perm order') :
    collectFilesystems h order = collectFilesystems h order' := by
  have hroots : (h.roots order).Perm (h.roots order') := (hperm.map _).filter _
  rw [collectFilesystems_eq horder, collectFilesystems_eq fun mount hmem => horder mount (hperm.mem_iff.mpr hmem)]
  congr 1
  exact orderBy_perm (lowest_perm hroots rank_inj) fun a ha b hb heq =>
    eq_of_mount (lowest_le ha).1 (lowest_le hb).1 (mountOrder_inj heq)

/-- No filesystem is reported twice. -/
theorem nodup_identities (horder : ∀ mount ∈ order, IsPath mount) :
    ((collectFilesystems h order).map h.filesystemIdentity).Nodup := by
  rw [collectFilesystems_eq horder, List.map_map, Function.comp_def]
  have hchosen : ((h.chosen order).map fun row => h.filesystemIdentity row.toFilesystem).Nodup := by
    unfold chosen
    exact nodup_lowest
  exact ((List.perm_insertionSort _ _).map _).nodup_iff.mpr hchosen

theorem isPath_of_reported (horder : ∀ mount ∈ order, IsPath mount) {fs : Filesystem} (hfs : fs ∈ collectFilesystems h order) :
    IsPath fs.mount := by
  obtain ⟨mount, hmount, -, rfl, -⟩ := (mem_reported_iff horder).mp hfs
  rw [merged_mount]
  exact horder mount hmount

end StorageHost

/-! ## The mount of an image -/

/-- The deepest of the reported mounts on the way of a path. -/
structure HoldsImage (reported : List Filesystem) (path : String) (fs : Filesystem) : Prop where
  isReported : fs ∈ reported
  onTheWay : parts fs.mount <+: parts path
  deepest : ∀ other ∈ reported, parts other.mount <+: parts path → parts other.mount <+: parts fs.mount

section Image

variable {h : StorageHost} {reported : List Filesystem} {source : String}

theorem mount_mountItem (fs : Filesystem) : (mountItem h fs).mount = normMount fs.mount := by
  simp only [mountItem]

theorem mountContains_item (hreported : ∀ fs ∈ reported, IsPath fs.mount) {fs : Filesystem} (hfs : fs ∈ reported)
    {path : String} (hpath : IsPath path) :
    mountContains (mountItem h fs).mount path = true ↔ parts fs.mount <+: parts path := by
  rw [mount_mountItem, normMount_of_isPath (hreported fs hfs), mountContains_iff (hreported fs hfs) hpath]

/-- **An image is looked up in the deepest mount on its way.** -/
theorem mapSourceToMount_eq_some (hreported : ∀ fs ∈ reported, IsPath fs.mount) (hsource : source ≠ "")
    (hpath : IsPath (h.realpath source)) {item : MountItem} (hitem : mapSourceToMount h source (parseMountInventory h reported) = some item) :
    ∃ fs, HoldsImage reported (h.realpath source) fs ∧ mountItem h fs = item := by
  unfold mapSourceToMount at hitem
  dsimp only at hitem
  rw [if_neg hsource] at hitem
  split_ifs at hitem
  obtain ⟨hmem, hcontains, hfirst⟩ := find?_orderBy hitem
  obtain ⟨fs, hfs, rfl⟩ := List.mem_map.mp hmem
  rw [mountContains_item hreported hfs hpath] at hcontains
  refine ⟨fs, ⟨hfs, hcontains, fun other hother hway => ?_⟩, rfl⟩
  -- Another mount on the way is no longer, so it begins this one.
  have hle := hfirst _ (List.mem_map_of_mem hother) ((mountContains_item hreported hother hpath).mpr hway)
  have hlength : (mountItem h other).mount.length ≤ (mountItem h fs).mount.length := hle
  rw [mount_mountItem, mount_mountItem, normMount_of_isPath (hreported fs hfs),
    normMount_of_isPath (hreported other hother)] at hlength
  exact parts_isPrefix_of_length_le (hreported fs hfs) (hreported other hother) hcontains hway hlength

/-- It has no mount only if none is on its way. -/
theorem mapSourceToMount_eq_none (hreported : ∀ fs ∈ reported, IsPath fs.mount) (hsource : source ≠ "")
    (hpath : IsPath (h.realpath source)) (hnone : mapSourceToMount h source (parseMountInventory h reported) = none) :
    ∀ fs ∈ reported, ¬ parts fs.mount <+: parts (h.realpath source) := by
  have hsome : h.realpath source ≠ "" := by
    intro hempty
    rw [hempty] at hpath
    exact absurd hpath (by decide)
  intro fs hfs hway
  unfold mapSourceToMount at hnone
  dsimp only at hnone
  rw [if_neg hsource, if_neg hsome, List.find?_eq_none] at hnone
  exact hnone _ (mem_orderBy.mpr (List.mem_map_of_mem hfs)) ((mountContains_item hreported hfs hpath).mpr hway)

end Image

/-- **The storage of a node**: whatever `df` and `findmnt` print, and in whatever order the set of mounts is gone through, the
same filesystems are reported; each has exactly one mount, the lowest that is allowed and no alias; and an image of a VM is
looked up in the deepest reported mount on the way of its path. -/
theorem storage_inventory_exact {h : StorageHost} (hcanonical : h.Canonical) {order : List String}
    (horder : order.Perm h.mounts) :
    collectFilesystems h order = collectFilesystems h h.mounts ∧
      (∀ fs, fs ∈ collectFilesystems h order ↔
        ∃ mount ∈ h.mounts, (h.merged mount).isRoot = true ∧ (h.merged mount).toFilesystem = fs ∧
          ∀ other ∈ h.mounts, (h.merged other).isRoot = true →
            h.filesystemIdentity (h.merged other).toFilesystem = h.filesystemIdentity fs →
              mountRank mount ≤ mountRank other) ∧
      ((collectFilesystems h order).map h.filesystemIdentity).Nodup ∧
      ∀ source, source ≠ "" →
        match mapSourceToMount h source (parseMountInventory h (collectFilesystems h order)) with
        | some item => ∃ fs, HoldsImage (collectFilesystems h order) (h.realpath source) fs ∧ mountItem h fs = item
        | none => ∀ fs ∈ collectFilesystems h order, ¬ parts fs.mount <+: parts (h.realpath source) := by
  have hpaths : ∀ mount ∈ order, IsPath mount := fun mount hmem => hcanonical.mounts mount (horder.mem_iff.mp hmem)
  have hsame := StorageHost.collectFilesystems_perm (h := h) hpaths horder
  refine ⟨hsame, fun fs => ?_, StorageHost.nodup_identities hpaths, fun source hsource => ?_⟩
  · rw [hsame]
    exact StorageHost.mem_reported_iff hcanonical.mounts
  · have hreported : ∀ fs ∈ collectFilesystems h order, IsPath fs.mount := fun fs hfs =>
      StorageHost.isPath_of_reported hpaths hfs
    have hpath := hcanonical.realpath source hsource
    split
    · next item hitem => exact mapSourceToMount_eq_some hreported hsource hpath hitem
    · next hnone => exact mapSourceToMount_eq_none hreported hsource hpath hnone

/-- A node with `/` and `/home`. `/etc` is an alias in the agent's own namespace, and `/srv/vm` a second mount of `/home`. -/
def sampleStorage : StorageHost where
  df := some
    [none, some ⟨"/dev/md126", "ext4", some 1000, some 400, some 600, some 40, "/"⟩,
      some ⟨"/dev/mapper/vg-home", "xfs", some 8000, some 2000, some 6000, some 25, "/home"⟩]
  findmnt :=
    [none,
      some
        [.item ⟨some "/dev/md126", some "ext4", some "/", some "9:126", none, some "/"⟩
          [.item ⟨some "/dev/md126[/etc]", some "ext4", some "/etc", some "9:126", none, some "/etc"⟩ [],
            .item ⟨some "/dev/mapper/vg-home", some "xfs", some "/home", some "253:0", none, some "/"⟩ [],
            .item ⟨some "/dev/mapper/vg-home", some "xfs", some "/srv/vm", some "253:0", none, some "/"⟩ []]]]
  mountMajMin := fun mount => if mount = "/" ∨ mount = "/etc" then "9:126" else "253:0"
  statvfs := fun _ => none
  realpath := fun path => if IsPath path then path else "/"
  sysDevBlock := fun majMin => if majMin = "253:0" then some "dm-0" else none
  blockStat := fun name => name = "dm-0" || name = "md126"

theorem sampleStorage_canonical : sampleStorage.Canonical where
  mounts := by decide +kernel
  realpath := by
    intro path _
    show IsPath (if IsPath path then path else "/")
    split_ifs with hpath
    · exact hpath
    · decide

def sampleRoot : Filesystem := ⟨"/dev/md126", "9:126", "ext4", "/", 1000, 400, 600, 40⟩
def sampleHome : Filesystem := ⟨"/dev/mapper/vg-home", "253:0", "xfs", "/home", 8000, 2000, 6000, 25⟩

/-- The mounts in another order, and an image in `/home`. -/
theorem storage_inventory_sample :
    collectFilesystems sampleStorage ["/srv/vm", "/home", "/etc", "/"] = [sampleRoot, sampleHome] ∧
      ∃ fs, HoldsImage [sampleRoot, sampleHome] "/home/vm1/disk.img" fs ∧
        mountItem sampleStorage fs = mountItem sampleStorage sampleHome := by
  have hall : collectFilesystems sampleStorage sampleStorage.mounts = [sampleRoot, sampleHome] := by decide +kernel
  have hexact := storage_inventory_exact sampleStorage_canonical
    (show ["/srv/vm", "/home", "/etc", "/"].Perm sampleStorage.mounts by decide +kernel)
  have hreported := hexact.1.trans hall
  have himage := hexact.2.2.2 "/home/vm1/disk.img" (by decide)
  have hitem : mapSourceToMount sampleStorage "/home/vm1/disk.img"
      (parseMountInventory sampleStorage [sampleRoot, sampleHome]) = some (mountItem sampleStorage sampleHome) := by
    decide +kernel
  have hpath : sampleStorage.realpath "/home/vm1/disk.img" = "/home/vm1/disk.img" := by decide +kernel
  rw [hreported, hitem, hpath] at himage
  exact ⟨hreported, himage⟩

end VirtInfra.Agent
