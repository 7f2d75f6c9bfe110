import VirtInfra.Monitoring.Groups

/-!
# `Vm` — the direct VM search and the VM page (`38_agent_maintenance_canonical_routes.py`, `node_groups.py`)

Both choose among the rows that name a VM on any node, the newest first, and only then ask whether what they chose may be
shown. A row on a node of a hidden group is not shown, but it can be the one that is chosen.
-/

namespace VirtInfra.Monitoring

open Lib Python

variable {K : Type} (env : Env K)

/-! ## What may be shown -/

/-- `_monitoring_node_visible`. -/
def monitoringNodeVisible (t : Tables) (node : String) : Bool := strip node != "" && effectiveVisible t 0 (strip node)

/-- `_monitoring_vm_visible`. -/
def monitoringVmVisible (t : Tables) (node vmUuid : String) : Bool :=
  monitoringNodeVisible t node &&
    (strip vmUuid = "" || ((t.nodes.get? node).bind fun d => d.vmInventory.get? (strip vmUuid)).all vmVisible)

/-! ## The direct search -/

/-- A row of the `UNION ALL`. -/
structure Candidate where
  node : String
  vmUuid : String
  lastSeen : Int
  sourceRank : Nat
  exactUuid : Bool
  deriving DecidableEq, Repr

/-- A `candidate` of the loop, and what the search returns, with an empty `iface` and `bridge`. -/
structure Hit where
  node : String
  vmUuid : String
  lastSeen : Int
  sourceRank : Nat
  deriving DecidableEq, Repr

def Candidate.key (c : Candidate) : String × String := (c.node, c.vmUuid)

def Candidate.hit (c : Candidate) : Hit := ⟨c.node, c.vmUuid, c.lastSeen, c.sourceRank⟩

/-- The rows that the tables of a node give for `q`. -/
def nodeCandidates (q : String) (row : String × NodeRows) : List Candidate :=
  let (node, d) := row
  let mac := normalizeMacAddress q
  let like := fun value => env.like value q
  let same := fun value => decide (env.fold value = env.fold q)
  ((d.vmCurrentFast.rows.filter fun r => like r.1).map fun r => ⟨node, r.1, r.2.lastSeen, 0, same r.1⟩) ++
    ((d.vmLatestMetrics.rows.filter fun r => like r.1 || same r.2.iface).map
      fun r => ⟨node, r.1, r.2.lastSeen, 1, same r.1⟩) ++
    ((d.vmInventory.rows.filter fun r => vmVisible r.2 && (like r.1 || same r.2.lastIface)).map
      fun r => ⟨node, r.1, r.2.lastSeen, 3, same r.1⟩) ++
    d.vmNicIdentities.flatMap fun l =>
      (d.vmIfaces.filter fun i => l.of i && (d.vmInventory.get? i.vmUuid).all vmVisible &&
        (same i.iface || like l.mac || isMac mac l.mac)).map
      fun i => ⟨node, i.vmUuid, i.lastSeen, 4, l.mac = mac⟩

/-- The row that `vm_location_latest` gives. -/
def locationCandidate (q : String) (row : String × Inventory.LocationRow) : Option Candidate :=
  let same := fun value => decide (env.fold value = env.fold q)
  if env.like row.1 q || same row.2.lastIface then some ⟨row.2.node, row.1, row.2.lastSeen, 2, same row.1⟩ else none

def candidates (q : String) (t : Tables) : List Candidate :=
  t.nodes.rows.flatMap (nodeCandidates env q) ++ t.locations.rows.filterMap (locationCandidate env q)

/-- `ORDER BY exact_uuid DESC,last_seen DESC,source_rank ASC`. What the query leaves open stands by node. -/
def Candidate.order (c : Candidate) : Bool ×ₗ Int ×ₗ Nat ×ₗ String :=
  toLex (!c.exactUuid, toLex (-c.lastSeen, toLex (c.sourceRank, c.node)))

/-- `key=lambda item:(-item["last_seen"],item["source_rank"],item["node"])`. -/
def Hit.order (h : Hit) : Int ×ₗ Nat ×ₗ String := toLex (-h.lastSeen, toLex (h.sourceRank, h.node))

/-- `LIMIT 300`. -/
def searchLimit : Nat := 300

/-- The rows of the query. -/
def found (q : String) (t : Tables) : List Candidate :=
  (orderBy false Candidate.order (candidates env q t)).take searchLimit

/-- The same rows, had the tables no rows of hidden nodes. -/
def shownFound (q : String) (t : Tables) : List Candidate :=
  ((orderBy false Candidate.order (candidates env q t)).filter fun c => t.shown c.node).take searchLimit

/-- `(candidate["last_seen"],-candidate["source_rank"]) > (current["last_seen"],-current["source_rank"])`. -/
def Hit.newer (new old : Hit) : Bool :=
  decide (old.lastSeen < new.lastSeen) || old.lastSeen = new.lastSeen && decide (new.sourceRank < old.sourceRank)

/-- The loop over the pool. -/
def addUnique (unique : KeyedTable (String × String) Hit) (c : Candidate) : KeyedTable (String × String) Hit :=
  if c.node = "" ∨ c.vmUuid = "" then unique
  else unique.upsert c.key c.hit fun old new => if new.newer old then new else old

/-- The search of the wrapped layer, after its query. -/
def pick (rows : List Candidate) : Except String (Option Hit) :=
  let exactRows := rows.filter Candidate.exactUuid
  let pool := if exactRows.isEmpty then rows else exactRows
  let values := orderBy false Hit.order ((pool.foldl addUnique .empty).rows.map Prod.snd)
  if !exactRows.isEmpty || values.length = 1 then
    match values with
    | [] => .error "IndexError"
    | hit :: _ => .ok (some hit)
  else .ok none

/-- **`resolve_direct_vm_search`**. -/
def resolveDirectVmSearch (q : String) (t : Tables) : Except String (Option Hit) :=
  let q := strip q
  if q = "" then .ok none
  else (pick (found env q t)).map fun result => result.filter fun hit => monitoringVmVisible t hit.node hit.vmUuid

/-- **No hidden row stands before what the search finds**: when the first match that is shown is a VM that may be shown, and
    an exact match, the first match of all is shown; when it is the only VM that matches in part, all the matches read are. -/
def SearchClear (q : String) (t : Tables) : Prop :=
  let q := strip q
  q ≠ "" → ∀ hit ∈ (shownFound env q t).head?, monitoringVmVisible t hit.node hit.vmUuid = true →
    if hit.exactUuid then ∀ c ∈ (found env q t).head?, t.shown c.node = true
    else (∀ c ∈ shownFound env q t, c.key = hit.key) → ∀ c ∈ found env q t, t.shown c.node = true

/-! ## The current location of a VM -/

/-- A row of the `UNION ALL` of `get_vm_current_location`. -/
structure Sighting where
  node : String
  lastSeen : Int
  rank : Nat
  deriving DecidableEq, Repr

def nodeSightings (vmUuid : String) (row : String × NodeRows) : List Sighting :=
  ((row.2.vmCurrentFast.get? vmUuid).toList.map fun r => ⟨row.1, r.lastSeen, 0⟩) ++
    (row.2.vmLatestMetrics.get? vmUuid).toList.map fun r => ⟨row.1, r.lastSeen, 1⟩

/-- `ORDER BY last_seen DESC,rank ASC`. What the query leaves open stands by node. -/
def Sighting.order (s : Sighting) : Int ×ₗ Nat ×ₗ String := toLex (-s.lastSeen, toLex (s.rank, s.node))

/-- All the rows that tell where a VM is, the newest first. -/
def sightings (vmUuid : String) (t : Tables) : List Sighting :=
  orderBy false Sighting.order
    (t.nodes.rows.flatMap (nodeSightings vmUuid) ++
      (t.locations.get? vmUuid).toList.map fun r => ⟨r.node, r.lastSeen, 2⟩)

/-- What the page says about a move: when, from where (`or '-'`) and how many there were. -/
structure Move where
  movedAt : Option Int := none
  previousNode : String := "-"
  moveCount : Int := 0
  deriving DecidableEq, Repr

def moveOf (row : Inventory.LocationRow) : Move :=
  { movedAt := row.movedAt
    previousNode := match row.previousNode with
      | some node => if node = "" then "-" else node
      | none => "-"
    moveCount := row.moveCount }

/-- The columns of `get_vm_current_location` that its callers read. -/
structure VmLocation where
  node : String
  lastSeen : Int
  move : Move
  deriving DecidableEq, Repr

/-- **`get_vm_current_location`**. -/
def getVmCurrentLocation (vmUuid : String) (t : Tables) : Option VmLocation :=
  ((sightings vmUuid t).head?.map fun s =>
    ⟨s.node, s.lastSeen, ((t.locations.get? vmUuid).map moveOf).getD {}⟩).filter
      fun location => monitoringVmVisible t location.node vmUuid

/-! ## The VM page -/

/-- The arguments of a request; `node` and `vm_uuid` are read stripped. -/
structure VmPageArgs where
  node : String
  vmUuid : String
  period : String
  target : Option Int

/-- The answer to a request. A page is made of rows of the node, and may say that the VM has migrated. -/
inductive PageResponse
  | notFound
  | missingArguments
  | redirect (node : String)
  | page (rows : Option NodeRows) (migrated : Option (String × Move))

/-- Neither another period nor a point in time is asked for. -/
def VmPageArgs.live (args : VmPageArgs) : Bool := cleanPeriod args.period = "5m" && args.target.isNone

/-- `vm_page` of the public routes, with the cards that the later layers put into it. -/
def vmPageBase (node vmUuid : String) (t : Tables) : PageResponse :=
  if node = "" ∨ vmUuid = "" then .missingArguments
  else
    .page (t.nodes.get? node)
      (((getVmCurrentLocation vmUuid t).filter fun l => l.node != "" && l.node != node).map fun l => (l.node, l.move))

/-- `vm_page_v5057`. -/
def vmPageV5057 (args : VmPageArgs) (node vmUuid : String) (t : Tables) : PageResponse :=
  if node ≠ "" ∧ vmUuid ≠ "" ∧ args.live then
    match (getVmCurrentLocation vmUuid t).filter fun l => strip l.node != "" && strip l.node != node with
    | some l => .redirect (strip l.node)
    | none => vmPageBase node vmUuid t
  else vmPageBase node vmUuid t

/-- **`vm_page`**: 404 for a VM that may not be shown; without a node there is nothing to check. -/
def vmPage (args : VmPageArgs) (t : Tables) : PageResponse :=
  let node := strip args.node
  let vmUuid := strip args.vmUuid
  if node ≠ "" ∧ monitoringVmVisible t node vmUuid = false then .notFound else vmPageV5057 args node vmUuid t

/-- **No hidden row stands before the VM's location**: when the newest sighting that is shown is on another node than the
    page's and may be shown, it is the newest of all, and a live page does not need the move of the VM, which another page
    takes from a row that is shown or says nothing of a move. -/
def VmPageClear (args : VmPageArgs) (t : Tables) : Prop :=
  let node := strip args.node
  let vmUuid := strip args.vmUuid
  node ≠ "" → vmUuid ≠ "" → monitoringVmVisible t node vmUuid = true →
    ∀ s ∈ ((sightings vmUuid t).filter fun s => t.shown s.node).head?,
      monitoringVmVisible t s.node vmUuid = true → s.node ≠ node →
        (∀ first ∈ (sightings vmUuid t).head?, t.shown first.node = true) ∧
          (args.live = true ∨ ∀ row ∈ t.locations.get? vmUuid, t.shown row.node = true ∨ moveOf row = {})

/-! ## What may be shown is shown -/

variable {env} {t : Tables}

theorem monitoringNodeVisible_erase (node : String) : monitoringNodeVisible t.erase node = monitoringNodeVisible t node := by
  simp [monitoringNodeVisible]

/-- A node of a named row that may be shown is not hidden. -/
theorem shown_of_monitoringVmVisible {node vmUuid : String} (hnode : strip node = node)
    (h : monitoringVmVisible t node vmUuid = true) : t.shown node = true := by
  obtain ⟨hvisible, -⟩ := Bool.and_eq_true_iff.mp h
  obtain ⟨-, heffective⟩ := Bool.and_eq_true_iff.mp hvisible
  rw [hnode] at heffective
  exact shown_of_effectiveVisible heffective

theorem monitoringVmVisible_erase {node : String} (vmUuid : String) (hnode : strip node = node) :
    monitoringVmVisible t.erase node vmUuid = monitoringVmVisible t node vmUuid := by
  unfold monitoringVmVisible
  rw [monitoringNodeVisible_erase]
  cases hhidden : t.hiddenNode node with
  | false => rw [Tables.get?_nodes_erase hhidden]
  | true =>
      have hinvisible : monitoringNodeVisible t node = false := by
        rw [Bool.eq_false_iff]
        intro h
        obtain ⟨-, heffective⟩ := Bool.and_eq_true_iff.mp h
        rw [hnode] at heffective
        have hshown := shown_of_effectiveVisible heffective
        simp [Tables.shown, hhidden] at hshown
      rw [hinvisible, Bool.false_and, Bool.false_and]

/-! ## The rows of the search -/

theorem nodeCandidates_node {q : String} {row : String × NodeRows} {c : Candidate} (h : c ∈ nodeCandidates env q row) :
    c.node = row.1 := by
  unfold nodeCandidates at h
  simp only [List.mem_append, List.mem_map, List.mem_flatMap] at h
  rcases h with ((⟨r, -, rfl⟩ | ⟨r, -, rfl⟩) | ⟨r, -, rfl⟩) | ⟨l, -, i, -, rfl⟩
  all_goals rfl

theorem locationCandidate_node {q : String} {row : String × Inventory.LocationRow} {c : Candidate}
    (h : locationCandidate env q row = some c) : c.node = row.2.node ∧ c.vmUuid = row.1 := by
  unfold locationCandidate at h
  dsimp only at h
  split at h
  · obtain rfl := Option.some.inj h
    exact ⟨rfl, rfl⟩
  · cases h

theorem candidates_erase (q : String) :
    candidates env q t.erase = (candidates env q t).filter fun c => t.shown c.node := by
  unfold candidates
  rw [List.filter_append, Tables.rows_nodes_erase,
    flatMap_filter_fst Candidate.node (fun _ _ => nodeCandidates_node) t.shown]
  congr 1
  show (t.locations.rows.filter fun row => t.shown row.2.node).filterMap _ = _
  induction t.locations.rows with
  | nil => rfl
  | cons row rest ih =>
      cases hc : locationCandidate env q row with
      | none =>
          rw [List.filterMap_cons_none hc, ← ih, List.filter_cons]
          split
          · rw [List.filterMap_cons_none hc]
          · rfl
      | some c =>
          rw [List.filterMap_cons_some hc, List.filter_cons, List.filter_cons, (locationCandidate_node hc).1, ← ih]
          split
          · rw [List.filterMap_cons_some hc]
          · rfl

theorem found_erase (q : String) : found env q t.erase = shownFound env q t := by
  unfold found shownFound
  rw [candidates_erase, filter_orderBy]

/-- Every candidate names a node and a VM. -/
structure Candidate.Named (c : Candidate) : Prop where
  strip : strip c.node = c.node
  node : c.node ≠ ""
  vmUuid : c.vmUuid ≠ ""

theorem named_of_mem_candidates {q : String} {c : Candidate} (ht : t.Named) (h : c ∈ candidates env q t) : c.Named := by
  rcases List.mem_append.mp h with hnode | hlocation
  · obtain ⟨row, hrow, hc⟩ := List.mem_flatMap.mp hnode
    obtain ⟨⟨hstrip, hne⟩, hvms⟩ := ht.nodes row hrow
    have heq := nodeCandidates_node hc
    have hvm : c.vmUuid ∈ row.2.vmNames := by
      unfold nodeCandidates at hc
      unfold NodeRows.vmNames KeyedTable.keys
      simp only [List.mem_append, List.mem_map, List.mem_flatMap, List.mem_filter] at hc ⊢
      rcases hc with ((⟨r, ⟨hr, -⟩, rfl⟩ | ⟨r, ⟨hr, -⟩, rfl⟩) | ⟨r, ⟨hr, -⟩, rfl⟩) | ⟨l, -, i, ⟨hi, -⟩, rfl⟩
      · exact Or.inl (Or.inl (Or.inl ⟨r, hr, rfl⟩))
      · exact Or.inl (Or.inl (Or.inr ⟨r, hr, rfl⟩))
      · exact Or.inl (Or.inr ⟨r, hr, rfl⟩)
      · exact Or.inr ⟨i, hi, rfl⟩
    exact ⟨by rw [heq, hstrip], by rw [heq]; exact hne, hvms _ hvm⟩
  · obtain ⟨row, hrow, hc⟩ := List.mem_filterMap.mp hlocation
    obtain ⟨⟨hstrip, hne⟩, hvm⟩ := ht.locations row hrow
    obtain ⟨hnode, huuid⟩ := locationCandidate_node hc
    exact ⟨by rw [hnode, hstrip], by rw [hnode]; exact hne, by rw [huuid]; exact hvm⟩

/-! ## The loop over sorted rows -/

/-- A row that stands first in the query's order is not outdone by the rows after it. -/
theorem Hit.order_le {c b : Candidate} (hexact : c.exactUuid = b.exactUuid) (h : c.order ≤ b.order) :
    c.hit.order ≤ b.hit.order := by
  unfold Candidate.order at h
  rw [hexact, Prod.Lex.toLex_le_toLex] at h
  rcases h with hlt | ⟨-, hle⟩
  · exact absurd hlt (lt_irrefl _)
  · exact hle

theorem Hit.not_newer {c b : Candidate} (h : c.hit.order ≤ b.hit.order) : b.hit.newer c.hit = false := by
  unfold Hit.order at h
  rw [Prod.Lex.toLex_le_toLex, Prod.Lex.toLex_le_toLex] at h
  unfold Hit.newer
  rcases h with hlt | ⟨heq, hlt | ⟨hrank, -⟩⟩
  · have hle : ¬ c.hit.lastSeen < b.hit.lastSeen := by dsimp only at hlt; omega
    have hne : c.hit.lastSeen ≠ b.hit.lastSeen := by dsimp only at hlt; omega
    simp [hle, hne]
  · have hle : ¬ c.hit.lastSeen < b.hit.lastSeen := by dsimp only at heq; omega
    have hrank : ¬ b.hit.sourceRank < c.hit.sourceRank := by dsimp only at hlt; omega
    simp [hle, hrank]
  · have hle : ¬ c.hit.lastSeen < b.hit.lastSeen := by dsimp only at heq; omega
    have hrank : ¬ b.hit.sourceRank < c.hit.sourceRank := by dsimp only at hrank; omega
    simp [hle, hrank]

/-- **The loop keeps its first row first**, and has a second one exactly when another VM comes along. -/
theorem foldl_addUnique {c : Candidate} (pool : List Candidate) (hnamed : ∀ b ∈ pool, b.Named)
    (hpool : ∀ b ∈ pool, c.hit.order ≤ b.hit.order) (unique : KeyedTable (String × String) Hit)
    (others : List ((String × String) × Hit)) (hrows : unique.rows = (c.key, c.hit) :: others)
    (hothers : ∀ row ∈ others, c.hit.order ≤ row.2.order) :
    ∃ others', (pool.foldl addUnique unique).rows = (c.key, c.hit) :: others' ∧
      (∀ row ∈ others', c.hit.order ≤ row.2.order) ∧ (others' = [] ↔ others = [] ∧ ∀ b ∈ pool, b.key = c.key) := by
  induction pool generalizing unique others with
  | nil => exact ⟨others, hrows, hothers, by simp⟩
  | cons b rest ih =>
      have hb := hnamed b List.mem_cons_self
      have hle := hpool b List.mem_cons_self
      have hrest := ih (fun x hx => hnamed x (List.mem_cons_of_mem _ hx)) fun x hx => hpool x (List.mem_cons_of_mem _ hx)
      have hadd : addUnique unique b =
          unique.upsert b.key b.hit fun old new => if new.newer old then new else old := by
        unfold addUnique
        rw [if_neg (by simp [hb.node, hb.vmUuid])]
      have hupsert : (addUnique unique b).rows = KeyedTable.upsertRows b.key b.hit
          (fun old new => if new.newer old then new else old) ((c.key, c.hit) :: others) := by
        rw [hadd, ← hrows]
        rfl
      rw [List.foldl_cons]
      by_cases hkey : c.key = b.key
      · -- The row of the first VM stays, as this one is not newer.
        have hsame : (addUnique unique b).rows = (c.key, c.hit) :: others := by
          rw [hupsert, KeyedTable.upsertRows, if_pos hkey]
          simp [Hit.not_newer hle]
        obtain ⟨others', hrows', hle', hnil⟩ := hrest _ others hsame hothers
        refine ⟨others', hrows', hle', hnil.trans ?_⟩
        simp [hkey]
      · have hnext : (addUnique unique b).rows = (c.key, c.hit) :: KeyedTable.upsertRows b.key b.hit
            (fun old new => if new.newer old then new else old) others := by
          rw [hupsert, KeyedTable.upsertRows, if_neg hkey]
        obtain ⟨others', hrows', hle', hnil⟩ := hrest _ _ hnext (by
          intro row hrow
          rcases KeyedTable.mem_upsertRows hrow with hold | rfl | ⟨old, hold, rfl⟩
          · exact hothers row hold
          · exact hle
          · dsimp only
            split
            · exact hle
            · exact hothers _ hold)
        refine ⟨others', hrows', hle', hnil.trans ?_⟩
        have hne : KeyedTable.upsertRows b.key b.hit (fun old new => if new.newer old then new else old) others ≠ [] := by
          cases others with
          | nil => simp [KeyedTable.upsertRows]
          | cons row rest =>
              unfold KeyedTable.upsertRows
              split
              · simp
              · simp
        simp [hne, Ne.symm hkey]

/-- What the search makes of sorted rows: the first one, if it is an exact match or they all name one VM. -/
def firstHit (rows : List Candidate) : Option Hit :=
  rows.head?.bind fun c => if c.exactUuid || rows.all fun b => b.key = c.key then some c.hit else none

/-- **The search takes the first of its sorted rows.** -/
theorem pick_eq {rows : List Candidate} (hnamed : ∀ c ∈ rows, c.Named)
    (hsorted : rows.Pairwise (Before false Candidate.order)) : pick rows = .ok (firstHit rows) := by
  cases rows with
  | nil => rfl
  | cons c rest =>
      obtain ⟨hfirst, -⟩ := List.pairwise_cons.mp hsorted
      have hstart : (addUnique .empty c).rows = [(c.key, c.hit)] := by
        unfold addUnique
        rw [if_neg (by simp [(hnamed c List.mem_cons_self).node, (hnamed c List.mem_cons_self).vmUuid])]
        rfl
      have hloop : ∀ pool : List Candidate, (∀ b ∈ pool, b ∈ rest ∧ b.exactUuid = c.exactUuid) →
          ∃ others, orderBy false Hit.order (((c :: pool).foldl addUnique .empty).rows.map Prod.snd) = c.hit :: others ∧
            (others = [] ↔ ∀ b ∈ pool, b.key = c.key) := by
        intro pool hpool
        obtain ⟨others, hrows, hle, hnil⟩ := foldl_addUnique (c := c) pool
          (fun b hb => hnamed b (List.mem_cons_of_mem _ (hpool b hb).1))
          (fun b hb => Hit.order_le (hpool b hb).2.symm (hfirst b (hpool b hb).1)) (addUnique .empty c) [] hstart (by simp)
        rw [List.foldl_cons, hrows, List.map_cons]
        have hhead : orderBy false Hit.order (c.hit :: others.map Prod.snd) =
            c.hit :: orderBy false Hit.order (others.map Prod.snd) := orderBy_cons (by
          intro h hh
          obtain ⟨row, hrow, rfl⟩ := List.mem_map.mp hh
          exact hle row hrow)
        refine ⟨_, hhead, ?_⟩
        rw [← List.length_eq_zero_iff, orderBy, List.length_insertionSort, List.length_map, List.length_eq_zero_iff, hnil]
        simp
      unfold pick firstHit
      cases hexact : c.exactUuid with
      | true =>
          have hfilter : (c :: rest).filter Candidate.exactUuid = c :: rest.filter Candidate.exactUuid :=
            List.filter_cons_of_pos hexact
          obtain ⟨others, hvalues, -⟩ := hloop (rest.filter Candidate.exactUuid) (by
            intro b hb
            obtain ⟨hmem, hb⟩ := List.mem_filter.mp hb
            exact ⟨hmem, hb.trans hexact.symm⟩)
          simp only [hfilter, List.isEmpty_cons, Bool.false_eq_true, if_false, hvalues]
          simp [hexact]
      | false =>
          -- The exact matches would stand first.
          have hall : ∀ b ∈ rest, b.exactUuid = false := by
            intro b hb
            have hle := hfirst b hb
            unfold Before Candidate.order at hle
            rw [if_neg (by simp), hexact, Prod.Lex.toLex_le_toLex] at hle
            cases hb' : b.exactUuid with
            | false => rfl
            | true =>
                rw [hb'] at hle
                rcases hle with hlt | ⟨heq, -⟩
                · exact absurd (Bool.lt_iff.mp hlt).1 (by simp)
                · cases heq
          have hfilter : (c :: rest).filter Candidate.exactUuid = [] := by
            rw [List.filter_eq_nil_iff]
            intro b hb
            rcases List.mem_cons.mp hb with rfl | hb
            · simp [hexact]
            · simp [hall b hb]
          obtain ⟨others, hvalues, hnil⟩ := hloop rest fun b hb => ⟨hb, (hall b hb).trans hexact.symm⟩
          simp only [hfilter, List.isEmpty_nil, if_true, hvalues]
          by_cases hsame : ∀ b ∈ rest, b.key = c.key
          · have hothers := hnil.mpr hsame
            subst hothers
            simpa [hexact] using hsame
          · have hothers : others ≠ [] := fun h => hsame (hnil.mp h)
            have hlen : others.length ≠ 0 := fun h => hothers (List.length_eq_zero_iff.mp h)
            simp only [List.head?_cons, Option.bind_some, hexact, Bool.false_or]
            rw [if_neg (by simp [hlen]), if_neg (by simpa using hsame)]

/-! ## What the search shows -/

/-- What the search answers on the rows of its query. -/
def answer (t : Tables) (rows : List Candidate) : Option Hit :=
  (firstHit rows).filter fun hit => monitoringVmVisible t hit.node hit.vmUuid

theorem firstHit_cons (c : Candidate) (rest : List Candidate) :
    firstHit (c :: rest) = if c.exactUuid = true ∨ ∀ b ∈ c :: rest, b.key = c.key then some c.hit else none := by
  unfold firstHit
  simp only [List.head?_cons, Option.bind_some, Bool.or_eq_true, List.all_eq_true, decide_eq_true_eq]

theorem answer_eq_some {rows : List Candidate} {hit : Hit} :
    answer t rows = some hit ↔ ∃ c rest, rows = c :: rest ∧ c.hit = hit ∧ monitoringVmVisible t c.node c.vmUuid = true ∧
      (c.exactUuid = true ∨ ∀ b ∈ rows, b.key = c.key) := by
  unfold answer
  rw [Option.filter_eq_some_iff]
  cases rows with
  | nil => simp [firstHit]
  | cons c rest =>
      rw [firstHit_cons]
      constructor
      · rintro ⟨hfirst, hvisible⟩
        split at hfirst
        · next hone =>
            obtain rfl := Option.some.inj hfirst
            exact ⟨c, rest, rfl, rfl, hvisible, hone⟩
        · cases hfirst
      · rintro ⟨c', rest', heq, rfl, hvisible, hone⟩
        obtain ⟨rfl, rfl⟩ := List.cons.inj heq
        exact ⟨if_pos hone, hvisible⟩

theorem answer_erase {rows : List Candidate} (hnamed : ∀ c ∈ rows, c.Named) : answer t.erase rows = answer t rows := by
  cases rows with
  | nil => rfl
  | cons c rest =>
      unfold answer
      rw [firstHit_cons]
      split
      · have hvisible := monitoringVmVisible_erase (t := t) c.vmUuid (hnamed c List.mem_cons_self).strip
        unfold Candidate.hit
        rw [Option.filter_some, Option.filter_some, hvisible]
      · rfl

/-- A row that stands first of all and is shown stands first of those shown. -/
theorem head?_take_filter {α : Type} {p : α → Bool} {n : Nat} {rows rest : List α} {a : α} (h : rows.take n = a :: rest)
    (ha : p a = true) : ((rows.filter p).take n).head? = some a := by
  cases n with
  | zero => simp at h
  | succ n =>
      cases rows with
      | nil => simp at h
      | cons b rows =>
          rw [List.take_succ_cons] at h
          obtain ⟨rfl, -⟩ := List.cons.inj h
          rw [List.filter_cons_of_pos ha, List.take_succ_cons, List.head?_cons]

variable {q : String}

theorem named_of_mem_found (ht : t.Named) {c : Candidate} (h : c ∈ found env q t) : c.Named :=
  named_of_mem_candidates ht (mem_orderBy.mp (List.mem_of_mem_take h))

theorem resolveDirectVmSearch_eq (ht : t.Named) (hq : strip q ≠ "") :
    resolveDirectVmSearch env q t = .ok (answer t (found env (strip q) t)) := by
  unfold resolveDirectVmSearch
  rw [if_neg hq, pick_eq (fun _ => named_of_mem_found ht) ((orderBy_pairwise _).sublist (List.take_sublist _ _))]
  rfl

/-- What the search finds at all is the first of the rows that are shown. -/
theorem head?_shownFound (ht : t.Named) {c : Candidate} {rest : List Candidate} (hfound : found env q t = c :: rest)
    (hvisible : monitoringVmVisible t c.node c.vmUuid = true) : (shownFound env q t).head? = some c := by
  have hnamed : c.Named := named_of_mem_found ht (by rw [hfound]; exact List.mem_cons_self)
  exact head?_take_filter hfound (shown_of_monitoringVmVisible hnamed.strip hvisible)

theorem shownFound_of_forall (h : ∀ c ∈ found env q t, t.shown c.node = true) : shownFound env q t = found env q t :=
  take_filter_of_forall h

theorem shown_of_mem_shownFound {c : Candidate} (h : c ∈ shownFound env q t) : t.shown c.node = true :=
  (List.mem_filter.mp (List.mem_of_mem_take h)).2

/-- With a row to show, there is a first row. -/
theorem found_ne_nil {c : Candidate} (h : c ∈ shownFound env q t) : found env q t ≠ [] := by
  intro hnil
  have hmem := (List.mem_filter.mp (List.mem_of_mem_take h)).1
  rcases List.take_eq_nil_iff.mp hnil with hzero | hnone
  · simp [searchLimit] at hzero
  · rw [hnone] at hmem
    cases hmem

/-- **The search answers as if hidden rows were not there** exactly when none stands before what it finds. -/
theorem answer_iff (ht : t.Named) : answer t (found env q t) = answer t (shownFound env q t) ↔
    ∀ hit ∈ (shownFound env q t).head?, monitoringVmVisible t hit.node hit.vmUuid = true →
      if hit.exactUuid then ∀ c ∈ (found env q t).head?, t.shown c.node = true
      else (∀ c ∈ shownFound env q t, c.key = hit.key) → ∀ c ∈ found env q t, t.shown c.node = true := by
  -- An answer is the first row of all, and then of those shown.
  have hfirst : ∀ hit, answer t (found env q t) = some hit → ∃ c rest, found env q t = c :: rest ∧ c.hit = hit ∧
      (shownFound env q t).head? = some c ∧ monitoringVmVisible t c.node c.vmUuid = true ∧
        (c.exactUuid = true ∨ ∀ b ∈ found env q t, b.key = c.key) := by
    intro hit h
    obtain ⟨c, rest, hfound, hhit, hvisible, hone⟩ := answer_eq_some.mp h
    exact ⟨c, rest, hfound, hhit, head?_shownFound ht hfound hvisible, hvisible, hone⟩
  cases hkept : (shownFound env q t).head? with
  | none =>
      have hnone : answer t (found env q t) = none := by
        rw [Option.eq_none_iff_forall_ne_some]
        intro hit h
        obtain ⟨c, rest, -, -, hhead, -⟩ := hfirst hit h
        rw [hkept] at hhead
        cases hhead
      rw [hnone, List.head?_eq_none_iff.mp hkept]
      simp [answer, firstHit]
  | some first =>
      obtain ⟨rest, hshown⟩ : ∃ rest, shownFound env q t = first :: rest := List.head?_eq_some_iff.mp hkept
      have hmem : first ∈ shownFound env q t := by rw [hshown]; exact List.mem_cons_self
      obtain ⟨c, others, hfound⟩ := List.exists_cons_of_ne_nil (found_ne_nil hmem)
      -- So the answers are one once the first row is the same.
      have hsame : ∀ hit, answer t (found env q t) = some hit → c = first ∧ hit = first.hit ∧
          monitoringVmVisible t first.node first.vmUuid = true ∧
            (first.exactUuid = true ∨ ∀ b ∈ found env q t, b.key = first.key) := by
        intro hit h
        obtain ⟨c', rest', hfound', rfl, hhead, hvisible, hone⟩ := hfirst hit h
        obtain rfl := Option.some.inj (hkept.symm.trans hhead)
        obtain ⟨rfl, -⟩ := List.cons.inj (hfound.symm.trans hfound')
        exact ⟨rfl, rfl, hvisible, hone⟩
      have hallShown : (∀ b ∈ found env q t, b.key = first.key) → ∀ b ∈ found env q t, t.shown b.node = true := by
        intro hone b hb
        have hnode : b.node = first.node := congrArg Prod.fst (hone b hb)
        rw [hnode]
        exact shown_of_mem_shownFound hmem
      simp only [Option.mem_some_iff, forall_eq']
      by_cases hvisible : monitoringVmVisible t first.node first.vmUuid = true
      · rw [forall_prop_of_true hvisible]
        by_cases hexact : first.exactUuid = true
        · have hanswer : answer t (shownFound env q t) = some first.hit :=
            answer_eq_some.mpr ⟨first, rest, hshown, rfl, hvisible, Or.inl hexact⟩
          rw [if_pos hexact, hanswer, hfound]
          simp only [List.head?_cons, Option.mem_some_iff, forall_eq']
          rw [← hfound]
          constructor
          · intro h
            obtain ⟨rfl, -⟩ := hsame _ h
            exact shown_of_mem_shownFound hmem
          · intro hc
            have hhead := head?_take_filter (p := fun c : Candidate => t.shown c.node) hfound hc
            obtain rfl := Option.some.inj (hkept.symm.trans hhead)
            exact answer_eq_some.mpr ⟨first, others, hfound, rfl, hvisible, Or.inl hexact⟩
        · rw [if_neg hexact]
          by_cases hone : ∀ c ∈ shownFound env q t, c.key = first.key
          · have hanswer : answer t (shownFound env q t) = some first.hit :=
              answer_eq_some.mpr ⟨first, rest, hshown, rfl, hvisible, Or.inr hone⟩
            rw [forall_prop_of_true hone]
            constructor
            · intro h
              obtain ⟨-, -, -, hall⟩ := hsame _ (h.trans hanswer)
              exact hallShown (hall.resolve_left hexact)
            · intro hall
              rw [shownFound_of_forall hall]
          · -- Several VMs match, and with more rows no fewer do.
            have hnone : answer t (shownFound env q t) = none := by
              rw [Option.eq_none_iff_forall_ne_some]
              intro hit h
              obtain ⟨c', rest', hshown', -, -, honly⟩ := answer_eq_some.mp h
              obtain ⟨rfl, -⟩ := List.cons.inj (hshown.symm.trans hshown')
              exact honly.elim hexact hone
            have hnone' : answer t (found env q t) = none := by
              rw [Option.eq_none_iff_forall_ne_some]
              intro hit h
              obtain ⟨-, -, -, hall⟩ := hsame hit h
              have hall := hall.resolve_left hexact
              rw [shownFound_of_forall (hallShown hall)] at hone
              exact hone hall
            rw [hnone, hnone']
            simp [hone]
      · have hnone : answer t (shownFound env q t) = none := by
          rw [Option.eq_none_iff_forall_ne_some]
          intro hit h
          obtain ⟨c', rest', hshown', -, hvisible', -⟩ := answer_eq_some.mp h
          obtain ⟨rfl, -⟩ := List.cons.inj (hshown.symm.trans hshown')
          exact hvisible hvisible'
        have hnone' : answer t (found env q t) = none := by
          rw [Option.eq_none_iff_forall_ne_some]
          intro hit h
          obtain ⟨-, -, hvisible', -⟩ := hsame hit h
          exact hvisible hvisible'
        rw [hnone, hnone']
        simp [hvisible]

theorem resolveDirectVmSearch_erase_iff (ht : t.Named) :
    resolveDirectVmSearch env q t = resolveDirectVmSearch env q t.erase ↔ SearchClear env q t := by
  by_cases hq : strip q = ""
  · simp [resolveDirectVmSearch, SearchClear, hq]
  · have hanswer : answer t.erase (shownFound env (strip q) t) = answer t (shownFound env (strip q) t) := by
      apply answer_erase
      intro c hc
      exact named_of_mem_candidates ht (mem_orderBy.mp (List.mem_filter.mp (List.mem_of_mem_take hc)).1)
    rw [resolveDirectVmSearch_eq ht hq, resolveDirectVmSearch_eq ht.erase hq, found_erase, hanswer, Except.ok.injEq,
      answer_iff ht]
    unfold SearchClear
    rw [forall_prop_of_true hq]

/-! ## Where a VM is -/

theorem nodeSightings_node {vmUuid : String} {row : String × NodeRows} {s : Sighting} (h : s ∈ nodeSightings vmUuid row) :
    s.node = row.1 := by
  unfold nodeSightings at h
  simp only [List.mem_append, List.mem_map] at h
  rcases h with ⟨r, -, rfl⟩ | ⟨r, -, rfl⟩
  all_goals rfl

theorem get?_locations_erase (vmUuid : String) :
    t.erase.locations.get? vmUuid = (t.locations.get? vmUuid).filter fun row => t.shown row.node := by
  unfold Tables.erase
  rw [KeyedTable.get?_deleteRows]
  rfl

theorem sightings_erase (vmUuid : String) :
    sightings vmUuid t.erase = (sightings vmUuid t).filter fun s => t.shown s.node := by
  unfold sightings
  rw [filter_orderBy, List.filter_append, Tables.rows_nodes_erase,
    flatMap_filter_fst Sighting.node (fun _ _ => nodeSightings_node) t.shown, get?_locations_erase]
  congr 2
  cases t.locations.get? vmUuid with
  | none => rfl
  | some row => cases hshown : t.shown row.node <;> simp [Option.filter, hshown]

/-- A sighting names a node. -/
theorem named_of_mem_sightings (ht : t.Named) {vmUuid : String} {s : Sighting} (h : s ∈ sightings vmUuid t) :
    strip s.node = s.node ∧ s.node ≠ "" := by
  rcases List.mem_append.mp (mem_orderBy.mp h) with hnode | hlocation
  · obtain ⟨row, hrow, hs⟩ := List.mem_flatMap.mp hnode
    rw [nodeSightings_node hs]
    exact (ht.nodes row hrow).1
  · obtain ⟨row, hrow, rfl⟩ := List.mem_map.mp hlocation
    exact (ht.locations _ (KeyedTable.mem_rows_of_get? (Option.mem_toList.mp hrow))).1

/-- What the location row of a VM says of its move. -/
def vmMove (vmUuid : String) (t : Tables) : Move := ((t.locations.get? vmUuid).map moveOf).getD {}

/-- The location of the VM, if it is on another node than the page's. -/
def elsewhere (node vmUuid : String) (t : Tables) : Option VmLocation :=
  (getVmCurrentLocation vmUuid t).filter fun l => l.node != "" && l.node != node

variable {node vmUuid : String}

theorem elsewhere_eq_some (ht : t.Named) {l : VmLocation} : elsewhere node vmUuid t = some l ↔
    ∃ s ∈ (sightings vmUuid t).head?, monitoringVmVisible t s.node vmUuid = true ∧ s.node ≠ node ∧
      l = ⟨s.node, s.lastSeen, vmMove vmUuid t⟩ := by
  unfold elsewhere getVmCurrentLocation
  rw [Option.filter_eq_some_iff, Option.filter_eq_some_iff, Option.map_eq_some_iff]
  constructor
  · rintro ⟨⟨⟨s, hs, rfl⟩, hvisible⟩, helse⟩
    exact ⟨s, hs, hvisible, by simpa using (Bool.and_eq_true_iff.mp helse).2, rfl⟩
  · rintro ⟨s, hs, hvisible, helse, rfl⟩
    have hnamed := (named_of_mem_sightings ht (List.mem_of_mem_head? hs)).2
    exact ⟨⟨⟨s, hs, rfl⟩, hvisible⟩, by simp [hnamed, helse]⟩

/-- A page that may be shown, of a node and a VM that are named. -/
theorem vmPage_eq (ht : t.Named) {args : VmPageArgs} (hnode : strip args.node ≠ "") (hvm : strip args.vmUuid ≠ "")
    (hvisible : monitoringVmVisible t (strip args.node) (strip args.vmUuid) = true) :
    vmPage args t =
      if args.live then
        match elsewhere (strip args.node) (strip args.vmUuid) t with
        | some l => .redirect l.node
        | none => .page (t.nodes.get? (strip args.node)) none
      else
        .page (t.nodes.get? (strip args.node))
          ((elsewhere (strip args.node) (strip args.vmUuid) t).map fun l => (l.node, l.move)) := by
  have hstrip : ((getVmCurrentLocation (strip args.vmUuid) t).filter fun l =>
      strip l.node != "" && strip l.node != strip args.node) = elsewhere (strip args.node) (strip args.vmUuid) t := by
    unfold elsewhere
    cases hl : getVmCurrentLocation (strip args.vmUuid) t with
    | none => rfl
    | some l =>
        unfold getVmCurrentLocation at hl
        obtain ⟨hl, -⟩ := Option.filter_eq_some_iff.mp hl
        obtain ⟨s, hs, rfl⟩ := Option.map_eq_some_iff.mp hl
        have hnamed := (named_of_mem_sightings ht (List.mem_of_mem_head? hs)).1
        simp only [Option.filter_some, hnamed]
  have hbase : vmPageBase (strip args.node) (strip args.vmUuid) t = .page (t.nodes.get? (strip args.node))
      ((elsewhere (strip args.node) (strip args.vmUuid) t).map fun l => (l.node, l.move)) := by
    unfold vmPageBase
    rw [if_neg (by simp [hnode, hvm])]
    rfl
  unfold vmPage vmPageV5057
  rw [if_neg (by simp [hvisible]), hbase, hstrip]
  by_cases hlive : args.live = true
  · rw [if_pos ⟨hnode, hvm, hlive⟩, if_pos hlive]
    cases hl : elsewhere (strip args.node) (strip args.vmUuid) t with
    | none => rfl
    | some l =>
        have hmem : elsewhere (strip args.node) (strip args.vmUuid) t = some l := hl
        obtain ⟨s, hs, -, -, rfl⟩ := (elsewhere_eq_some ht).mp hmem
        simp only [(named_of_mem_sightings ht (List.mem_of_mem_head? hs)).1]
  · rw [if_neg (by simp [hlive]), if_neg hlive]

/-- **The move is told as if hidden rows were not there** when its row is shown or tells of none. -/
theorem vmMove_erase_iff :
    vmMove vmUuid t = vmMove vmUuid t.erase ↔
      ∀ row ∈ t.locations.get? vmUuid, t.shown row.node = true ∨ moveOf row = {} := by
  unfold vmMove
  rw [get?_locations_erase]
  cases t.locations.get? vmUuid with
  | none => simp
  | some row => cases hshown : t.shown row.node <;> simp [Option.filter, hshown]

/-- **The VM's other node is found as if hidden rows were not there** exactly when none stands before the one that is shown. -/
theorem elsewhere_erase_iff (ht : t.Named) {β : Type} (f : VmLocation → β) :
    (elsewhere node vmUuid t).map f = (elsewhere node vmUuid t.erase).map f ↔
      ∀ s ∈ ((sightings vmUuid t).filter fun s => t.shown s.node).head?,
        monitoringVmVisible t s.node vmUuid = true → s.node ≠ node →
          (∀ first ∈ (sightings vmUuid t).head?, t.shown first.node = true) ∧
            f ⟨s.node, s.lastSeen, vmMove vmUuid t⟩ = f ⟨s.node, s.lastSeen, vmMove vmUuid t.erase⟩ := by
  -- A first sighting that may be shown is the first of those that are.
  have hfirst : ∀ s ∈ (sightings vmUuid t).head?, t.shown s.node = true →
      ((sightings vmUuid t).filter fun s => t.shown s.node).head? = some s := by
    intro s hs hshown
    obtain ⟨rest, hrows⟩ := List.head?_eq_some_iff.mp hs
    rw [hrows, List.filter_cons_of_pos (p := fun s : Sighting => t.shown s.node) hshown, List.head?_cons]
  have hshown : ∀ s ∈ (sightings vmUuid t).head?, monitoringVmVisible t s.node vmUuid = true → t.shown s.node = true :=
    fun s hs hvisible => shown_of_monitoringVmVisible (named_of_mem_sightings ht (List.mem_of_mem_head? hs)).1 hvisible
  have herased : ∀ l, elsewhere node vmUuid t.erase = some l ↔
      ∃ s ∈ ((sightings vmUuid t).filter fun s => t.shown s.node).head?, monitoringVmVisible t s.node vmUuid = true ∧
        s.node ≠ node ∧ l = ⟨s.node, s.lastSeen, vmMove vmUuid t.erase⟩ := by
    intro l
    rw [elsewhere_eq_some ht.erase, sightings_erase]
    refine exists_congr fun s => and_congr_right fun hs => ?_
    have hmem := (List.mem_filter.mp (List.mem_of_mem_head? hs)).1
    rw [monitoringVmVisible_erase vmUuid (named_of_mem_sightings ht hmem).1]
  constructor
  · intro h s hs hvisible helse
    rw [(herased _).mpr ⟨s, hs, hvisible, helse, rfl⟩, Option.map_some, Option.map_eq_some_iff] at h
    obtain ⟨l, hl, heq⟩ := h
    obtain ⟨first, hhead, hvisible', helse', rfl⟩ := (elsewhere_eq_some ht).mp hl
    have hmem := hfirst first hhead (hshown first hhead hvisible')
    obtain rfl := Option.some.inj (hs.symm.trans hmem)
    refine ⟨?_, heq⟩
    intro first' hhead'
    obtain rfl := Option.some.inj (hhead.symm.trans hhead')
    exact hshown s hhead hvisible'
  · intro h
    cases hl : elsewhere node vmUuid t.erase with
    | some l =>
        obtain ⟨s, hs, hvisible, helse, rfl⟩ := (herased l).mp hl
        obtain ⟨hclear, hmove⟩ := h s hs hvisible helse
        have hmem := (List.mem_filter.mp (List.mem_of_mem_head? hs)).1
        obtain ⟨first, rest, hrows⟩ := List.exists_cons_of_ne_nil (List.ne_nil_of_mem hmem)
        have hhead : (sightings vmUuid t).head? = some first := by rw [hrows, List.head?_cons]
        obtain rfl := Option.some.inj (hs.symm.trans (hfirst first hhead (hclear first hhead)))
        rw [(elsewhere_eq_some ht).mpr ⟨s, hhead, hvisible, helse, rfl⟩, Option.map_some, Option.map_some, hmove]
    | none =>
        have hnone : elsewhere node vmUuid t = none := by
          rw [Option.eq_none_iff_forall_ne_some]
          intro l hl'
          obtain ⟨first, hhead, hvisible, helse, rfl⟩ := (elsewhere_eq_some ht).mp hl'
          have hsome := (herased _).mpr ⟨first, hfirst first hhead (hshown first hhead hvisible), hvisible, helse, rfl⟩
          rw [hl] at hsome
          cases hsome
        rw [hnone]

/-- **The VM page answers as if hidden rows were not there** exactly when none stands before the VM's location. -/
theorem vmPage_erase_iff (ht : t.Named) {args : VmPageArgs} :
    vmPage args t = vmPage args t.erase ↔ VmPageClear args t := by
  unfold VmPageClear
  by_cases hnode : strip args.node = ""
  · simp [vmPage, vmPageV5057, vmPageBase, hnode]
  rw [forall_prop_of_true hnode]
  have hvisible := monitoringVmVisible_erase (t := t) (strip args.vmUuid) (strip_strip args.node)
  by_cases hpage : monitoringVmVisible t (strip args.node) (strip args.vmUuid) = true
  · by_cases hvm : strip args.vmUuid = ""
    · rw [hvm] at hvisible
      simp [vmPage, vmPageV5057, vmPageBase, hnode, hvm, hvisible]
    have hshown := shown_of_monitoringVmVisible (strip_strip args.node) hpage
    have hrows : t.erase.nodes.get? (strip args.node) = t.nodes.get? (strip args.node) :=
      Tables.get?_nodes_erase (by simpa [Tables.shown] using hshown)
    rw [forall_prop_of_true hvm, forall_prop_of_true hpage, vmPage_eq ht hnode hvm hpage,
      vmPage_eq ht.erase hnode hvm (hvisible.trans hpage), hrows]
    cases hlive : args.live with
    | true =>
        -- A redirect names the node only.
        have hredirect : ∀ l l' : Option VmLocation,
            ((match l with | some l => PageResponse.redirect l.node | none => .page (t.nodes.get? (strip args.node)) none) =
              match l' with | some l => PageResponse.redirect l.node | none => .page (t.nodes.get? (strip args.node)) none) ↔
            l.map VmLocation.node = l'.map VmLocation.node := by
          rintro (_ | l) (_ | l')
          all_goals simp
        rw [if_pos rfl, if_pos rfl, hredirect, elsewhere_erase_iff ht VmLocation.node]
        simp
    | false =>
        rw [if_neg (by simp), if_neg (by simp), PageResponse.page.injEq,
          elsewhere_erase_iff ht fun l => (l.node, l.move)]
        simp only [true_and, Prod.mk.injEq, vmMove_erase_iff, Bool.false_eq_true, false_or]
  · simp [vmPage, hnode, hvisible, hpage]

end VirtInfra.Monitoring
