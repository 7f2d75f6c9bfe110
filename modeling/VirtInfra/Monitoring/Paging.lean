import VirtInfra.Monitoring.Invisible
import VirtInfra.Lib.Paging

/-!
# `Paging` — the pages of VM Consumption

Every page of VM Consumption is a query of its own over one snapshot, sorted by the chosen column and then by the UUID of
the VM. A VM that moved has a row on both nodes, and where the column agrees too the two rows tie: the database may order
them one way for one page and the other way for the next. `vm_pages_partition_iff` says when the pages show each row once
all the same. Sorted by node they always do.
-/

namespace VirtInfra.Monitoring

open Lib Python Consumption Paging

variable {K : Type} (env : Env K)

/-! ## The query of a page -/

/-- What makes a row: its node and its VM. -/
def VmLine.identity (line : VmLine) : String × String := (line.node, line.vmUuid)

/-- The rows that the filters of a request keep, of the snapshot it reads. -/
def vmFiltered (args : ConsumptionArgs) (t : Tables) : List VmLine :=
  let requestedEnd := args.stop / env.slotSeconds * env.slotSeconds
  let periodKey := r2212PeriodKey env args.start args.stop
  match r2212SelectSnapshot env t periodKey requestedEnd with
  | none => []
  | some snapshotEnd => t.nodes.rows.flatMap (vmLines env args (periodKey, snapshotEnd) (selectedGroupId t args.group) t)

/-- `ORDER BY order_column`, of `R2212_VM_SORTS`. -/
def vmColumn (sortBy : String) (desc : Bool) (a b : VmLine) : Prop :=
  if sortBy = "uuid" then Before desc VmLine.vmUuid a b
  else if sortBy = "node" then Before desc VmLine.node a b
  else Before desc (vmSortValue sortBy) a b

/-- `tie_order`. -/
def vmTieDesc (sortBy : String) (desc : Bool) : Bool := !((sortBy = "uuid" || sortBy = "node") && !desc)

/-- `ORDER BY order_column, s.vm_uuid`. -/
def vmOrderBy (sortBy : String) (desc : Bool) : VmLine → VmLine → Prop :=
  ThenBy (vmColumn sortBy desc) (Before (vmTieDesc sortBy desc) VmLine.vmUuid)

instance (sortBy : String) (desc : Bool) : DecidableRel (vmColumn sortBy desc) := fun a b =>
  inferInstanceAs (Decidable (if sortBy = "uuid" then Before desc VmLine.vmUuid a b
    else if sortBy = "node" then Before desc VmLine.node a b
    else Before desc (vmSortValue sortBy) a b))

instance (sortBy : String) (desc : Bool) : DecidableRel (vmOrderBy sortBy desc) :=
  inferInstanceAs (DecidableRel (ThenBy (vmColumn sortBy desc) (Before (vmTieDesc sortBy desc) VmLine.vmUuid)))

/-- **`_v5058c_vm_rows`** of a shared snapshot, as the database orders the rows of this query. -/
def vmRows (args : ConsumptionArgs) (t : Tables) (db : Query (vmOrderBy args.sortBy args.desc)) : PageOf VmLine :=
  let kept := vmFiltered env args t
  let limit := max 1 args.limit
  let maxPage := maxPageOf kept.length limit
  let pageNo := min (max 1 args.pageNo) maxPage
  ⟨page limit (pageNo - 1) (db.order kept), kept.length, pageNo, maxPage⟩

/-- Pages 1 to `max_page`, one after the other. -/
def vmPages (args : ConsumptionArgs) (t : Tables) (db : Nat → Query (vmOrderBy args.sortBy args.desc)) : List VmLine :=
  (List.range (maxPageOf (vmFiltered env args t).length (max 1 args.limit))).flatMap fun p =>
    (vmRows env { args with pageNo := p + 1 } t (db p)).rows

/-! ## The order of the rows -/

section Order

variable {sortBy : String} {desc : Bool}

instance : IsTrans VmLine (vmColumn sortBy desc) where
  trans a b c hab hbc := by
    unfold vmColumn at *
    split_ifs at * with huuid hnode
    · exact hab.trans hbc
    · exact hab.trans hbc
    · exact hab.trans hbc

instance : Std.Total (vmColumn sortBy desc) where
  total a b := by
    unfold vmColumn
    split_ifs with huuid hnode
    · exact Before.total a b
    · exact Before.total a b
    · exact Before.total a b

instance : IsTrans VmLine (vmOrderBy sortBy desc) :=
  inferInstanceAs (IsTrans VmLine (ThenBy (vmColumn sortBy desc) (Before (vmTieDesc sortBy desc) VmLine.vmUuid)))

instance : Std.Total (vmOrderBy sortBy desc) :=
  inferInstanceAs (Std.Total (ThenBy (vmColumn sortBy desc) (Before (vmTieDesc sortBy desc) VmLine.vmUuid)))

theorem eq_of_before {α κ : Type} [LinearOrder κ] {key : α → κ} {a b : α} (hab : Before desc key a b)
    (hba : Before desc key b a) : key a = key b := by
  unfold Before at hab hba
  split_ifs at hab hba
  · exact le_antisymm hba hab
  · exact le_antisymm hab hba

theorem perm_orderBy {α κ : Type} [LinearOrder κ] (desc : Bool) (key : α → κ) (rows : List α) :
    (orderBy desc key rows).Perm rows :=
  List.perm_insertionSort _ rows

/-- The rows sorted by UUID, and then by the column. -/
def vmSorted (sortBy : String) (desc : Bool) (rows : List VmLine) : List VmLine :=
  let byUuid := orderBy (vmTieDesc sortBy desc) VmLine.vmUuid rows
  if sortBy = "uuid" then orderBy desc VmLine.vmUuid byUuid
  else if sortBy = "node" then orderBy desc VmLine.node byUuid
  else orderBy desc (vmSortValue sortBy) byUuid

theorem arranged_vmSorted (rows : List VmLine) : Arranged (vmOrderBy sortBy desc) rows (vmSorted sortBy desc rows) where
  perm := by
    have huuid := perm_orderBy (vmTieDesc sortBy desc) VmLine.vmUuid rows
    unfold vmSorted
    dsimp only
    split_ifs
    · exact (perm_orderBy ..).trans huuid
    · exact (perm_orderBy ..).trans huuid
    · exact (perm_orderBy ..).trans huuid
  sorted := by
    have huuid : (orderBy (vmTieDesc sortBy desc) VmLine.vmUuid rows).Pairwise _ := orderBy_pairwise rows
    unfold vmSorted vmOrderBy vmColumn
    dsimp only
    split_ifs
    · exact orderBy_thenBy huuid
    · exact orderBy_thenBy huuid
    · exact orderBy_thenBy huuid

/-- A database that breaks ties in the order in which `scan` delivers the rows. -/
def queryOf (sortBy : String) (desc : Bool) (scan : List VmLine → List VmLine) (hscan : ∀ rows, (scan rows).Perm rows) :
    Query (vmOrderBy sortBy desc) where
  order rows := vmSorted sortBy desc (scan rows)
  arranged rows := ⟨(arranged_vmSorted (scan rows)).perm.trans (hscan rows), (arranged_vmSorted (scan rows)).sorted⟩

end Order

/-- **The page of the visibility results is one that the database may give.** -/
theorem consumptionVmRows_eq (args : ConsumptionArgs) (t : Tables) : consumptionVmRows env args t =
    vmRows env args t (queryOf args.sortBy args.desc id fun _ => .refl _) := by
  unfold consumptionVmRows vmRows vmFiltered queryOf
  dsimp only
  cases hsnapshot : r2212SelectSnapshot env t (r2212PeriodKey env args.start args.stop)
      (args.stop / env.slotSeconds * env.slotSeconds) with
  | none =>
      have hempty : vmSorted args.sortBy args.desc [] = [] :=
        List.length_eq_zero_iff.mp (arranged_vmSorted []).perm.length_eq
      have hpage : maxPageOf 0 (max 1 args.limit) = 1 := by
        unfold maxPageOf
        rw [Nat.div_eq_of_lt (by omega)]
        rfl
      simp [hempty, hpage, page]
  | some snapshotEnd =>
      dsimp only [id]
      generalize t.nodes.rows.flatMap _ = kept
      have hlength : (vmSorted args.sortBy args.desc kept).length = kept.length :=
        (arranged_vmSorted kept).perm.length_eq
      split
      · next huuid =>
          have hsorted : orderBy args.desc VmLine.vmUuid (orderBy (!((args.sortBy = "uuid" || args.sortBy = "node") &&
              !args.desc)) VmLine.vmUuid kept) = vmSorted args.sortBy args.desc kept := by simp [vmSorted, vmTieDesc, huuid]
          rw [hsorted, hlength]
          rfl
      · next hnode =>
          have hsorted : orderBy args.desc VmLine.node (orderBy (!((args.sortBy = "uuid" || args.sortBy = "node") &&
              !args.desc)) VmLine.vmUuid kept) = vmSorted args.sortBy args.desc kept := by simp [vmSorted, vmTieDesc, hnode]
          rw [hsorted, hlength]
          rfl
      · next huuid hnode =>
          have hsorted : orderBy args.desc (vmSortValue args.sortBy) (orderBy (!((args.sortBy = "uuid" ||
              args.sortBy = "node") && !args.desc)) VmLine.vmUuid kept) = vmSorted args.sortBy args.desc kept := by
            unfold vmSorted vmTieDesc
            rw [if_neg huuid, if_neg hnode]
          rw [hsorted, hlength]
          rfl

/-! ## The partition -/

variable {env} {args : ConsumptionArgs} {t : Tables}

theorem vmLines_node {key : Snapshot.Key} {gid : Nat} {row : String × NodeRows} {line : VmLine}
    (h : line ∈ vmLines env args key gid t row) : line.node = row.1 := by
  unfold vmLines at h
  dsimp only at h
  split at h
  · obtain ⟨r, -, rfl⟩ := List.mem_map.mp h
    rfl
  · cases h

theorem nodup_vmLines (key : Snapshot.Key) (gid : Nat) (row : String × NodeRows) :
    ((vmLines env args key gid t row).map VmLine.identity).Nodup := by
  unfold vmLines
  dsimp only
  split
  · rw [List.map_map]
    -- Of one snapshot, the rows of a node differ in their VM.
    refine List.Nodup.map_on ?_ (row.2.consumptionSnapshot.nodupKeys.of_map.filter _)
    intro r hr r' hr' hsame
    have hkey : r.1 = r'.1 := by
      have hbatch := (List.mem_filter.mp hr).2
      have hbatch' := (List.mem_filter.mp hr').2
      simp only [Bool.and_eq_true, decide_eq_true_eq] at hbatch hbatch'
      have hvm : r.1.2 = r'.1.2 := (Prod.mk.inj (show (row.1, r.1.2) = (row.1, r'.1.2) from hsame)).2
      exact Prod.ext (hbatch.1.1.1.trans hbatch'.1.1.1.symm) hvm
    exact List.inj_on_of_nodup_map row.2.consumptionSnapshot.nodupKeys (List.mem_filter.mp hr).1 (List.mem_filter.mp hr').1 hkey
  · exact List.nodup_nil

/-- A snapshot has one row of a VM on a node. -/
theorem nodup_vmFiltered : ((vmFiltered env args t).map VmLine.identity).Nodup := by
  unfold vmFiltered
  dsimp only
  split
  · exact List.nodup_nil
  · rw [List.map_flatMap, List.nodup_flatMap]
    refine ⟨fun row _ => nodup_vmLines _ _ row, ?_⟩
    have hnodes : t.nodes.rows.Pairwise fun a b => a.1 ≠ b.1 := List.pairwise_map.mp t.nodes.nodupKeys
    refine hnodes.imp ?_
    intro row row' hne identity hmem hmem'
    obtain ⟨line, hline, rfl⟩ := List.mem_map.mp hmem
    obtain ⟨line', hline', hsame⟩ := List.mem_map.mp hmem'
    have hnode : line'.node = line.node := congrArg Prod.fst hsame
    rw [vmLines_node hline, vmLines_node hline'] at hnode
    exact hne hnode.symm

/-- **What paging should give**: the filtered rows in the order of the query, each row of a node and VM once. -/
structure IsPartition (env : Env K) (args : ConsumptionArgs) (t : Tables) (pages : List VmLine) : Prop where
  arranged : Arranged (vmOrderBy args.sortBy args.desc) (vmFiltered env args t) pages
  once : (pages.map VmLine.identity).Nodup

theorem length_le_maxPageOf (total : Nat) {limit : Nat} (h : 0 < limit) : total ≤ maxPageOf total limit * limit := by
  have hceil : total ≤ (total + limit - 1) / limit * limit := by
    have hdiv := Nat.div_add_mod (total + limit - 1) limit
    have hmod := Nat.mod_lt (total + limit - 1) h
    rw [Nat.mul_comm] at hdiv
    omega
  exact hceil.trans (Nat.mul_le_mul_right _ (le_max_right ..))

/-- The requests for pages 1 to `max_page` are answered by these pages. -/
theorem vmPages_eq (db : Nat → Query (vmOrderBy args.sortBy args.desc)) : vmPages env args t db =
    pages (max 1 args.limit) (maxPageOf (vmFiltered env args t).length (max 1 args.limit))
      fun p => (db p).order (vmFiltered env args t) := by
  unfold vmPages pages
  refine List.flatMap_congr fun p hp => ?_
  have hlt := List.mem_range.mp hp
  show page (max 1 args.limit) (min (max 1 (p + 1)) (maxPageOf (vmFiltered env args t).length (max 1 args.limit)) - 1)
    ((db p).order (vmFiltered env args t)) = _
  congr 1
  omega

theorem isPartition_of_together (htogether : ∀ line ∈ vmFiltered env args t,
    Together (vmOrderBy args.sortBy args.desc) (vmFiltered env args t) (max 1 args.limit) line)
    (db : Nat → Query (vmOrderBy args.sortBy args.desc)) : IsPartition env args t (vmPages env args t db) := by
  have hlimit : 0 < max 1 args.limit := by omega
  have harranged : Arranged (vmOrderBy args.sortBy args.desc) (vmFiltered env args t) (vmPages env args t db) := by
    rw [vmPages_eq]
    exact arranged_pages hlimit (.of_map _ nodup_vmFiltered) (length_le_maxPageOf _ hlimit) htogether
      fun p => (db p).arranged _
  exact ⟨harranged, (harranged.perm.map VmLine.identity).nodup_iff.mpr nodup_vmFiltered⟩

/-- **Sorted by node they always are**: no two rows agree in node and UUID. -/
theorem vm_pages_partition_by_node (hsort : args.sortBy = "node")
    (db : Nat → Query (vmOrderBy args.sortBy args.desc)) : IsPartition env args t (vmPages env args t db) := by
  refine isPartition_of_together (fun line hline => ?_) db
  apply together_of_no_tie (.of_map _ nodup_vmFiltered) hline
  intro line' hline' hafter hbefore
  have hcolumn : vmColumn args.sortBy args.desc = Before args.desc VmLine.node := by
    funext a b
    unfold vmColumn
    rw [if_neg (by simp [hsort]), if_pos hsort]
  unfold vmOrderBy at hafter hbefore
  rw [hcolumn] at hafter hbefore
  have hnode := eq_of_before hbefore.1 hafter.1
  have huuid := eq_of_before (hbefore.2 hafter.1) (hafter.2 hbefore.1)
  exact List.inj_on_of_nodup_map nodup_vmFiltered hline' hline (Prod.ext hnode huuid)

/-- **VM Consumption pages are a partition where ties share a page.** Pages 1 to `max_page` show every filtered row once, in
    order, for every order in which the database may return rows that tie, exactly if no page ends between two rows that
    agree in the sorted column and in the UUID. -/
theorem vm_pages_partition_iff (env : Env K) (args : ConsumptionArgs) (t : Tables) :
    (∀ db, IsPartition env args t (vmPages env args t db)) ↔
      ∀ line ∈ vmFiltered env args t,
        Together (vmOrderBy args.sortBy args.desc) (vmFiltered env args t) (max 1 args.limit) line := by
  have hlimit : 0 < max 1 args.limit := by omega
  constructor
  · intro h
    apply (partition_iff hlimit (.of_map _ nodup_vmFiltered) (length_le_maxPageOf _ hlimit)).mp
    intro l hl
    -- A database that returns the list of each page, and sorts whatever else it is asked for.
    have hquery : ∀ p, ∃ db : Query (vmOrderBy args.sortBy args.desc), db.order (vmFiltered env args t) = l p := by
      classical
      intro p
      refine ⟨⟨fun rows => if rows = vmFiltered env args t then l p else vmSorted args.sortBy args.desc rows, ?_⟩, ?_⟩
      · intro rows
        split
        · next heq => exact heq ▸ hl p
        · exact arranged_vmSorted rows
      · exact if_pos rfl
    choose db hdb using hquery
    have hpages := (h db).arranged
    rw [vmPages_eq] at hpages
    simpa only [hdb] using hpages
  · exact isPartition_of_together

/-! ## A VM on two nodes -/

section Moved

/-- A VM that a node has listed, with no traffic in the snapshot. -/
def movedNode : NodeRows where
  inventory := some ⟨100, 900, .active, none, none⟩
  vmInventory := ⟨[("vm1", ⟨100, 900, "tap0", "br0", .active, none, none⟩)], by simp⟩
  consumptionSnapshot := ⟨[((("1h", 3600), "vm1"), ⟨0, "web", "", 1, 0, 0, 0, 0, 0, 0, 0, 0, 0, 3600⟩)], by simp⟩

/-- It moved from one node to the other. -/
def movedTables : Tables where
  groups := ⟨[(1, ⟨"Main", "", "", true, true⟩)], by simp⟩
  members := ⟨[("node1", 1), ("node2", 1)], by simp⟩
  nodes := ⟨[("node1", movedNode), ("node2", movedNode)], by simp⟩
  batches := ⟨[(("1h", 3600), ⟨0, .ready, 2, 3600, some 3601, ""⟩)], by simp⟩

/-- The first request of a browser, with one row a page. -/
def movedArgs : ConsumptionArgs := ⟨0, 3600, "", "", .all, "public_total", true, 1, 1, 0⟩

/-- The first page finds the rows in the one order, the second in the other. -/
def movedQuery (p : Nat) : Query (vmOrderBy movedArgs.sortBy movedArgs.desc) :=
  if p = 0 then queryOf _ _ id fun _ => .refl _ else queryOf _ _ List.reverse List.reverse_perm

/-- The row of `node1` is on both pages, and that of `node2` on none. -/
theorem moved_vm_listed_twice : ¬ ∀ (env : Env Int) (args : ConsumptionArgs) (t : Tables)
    (db : Nat → Query (vmOrderBy args.sortBy args.desc)), IsPartition env args t (vmPages env args t db) := by
  intro hclaim
  have hpages : (vmPages sampleEnv movedArgs movedTables movedQuery).map VmLine.identity =
      [("node1", "vm1"), ("node1", "vm1")] := by
    decide +kernel
  have honce := (hclaim sampleEnv movedArgs movedTables movedQuery).once
  rw [hpages] at honce
  exact absurd honce (by decide)

end Moved

end VirtInfra.Monitoring
