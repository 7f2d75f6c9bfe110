import VirtInfra.Inventory.Hidden
import VirtInfra.Maintenance.Queue

/-!
# `PurgeRequest` — a purge, from its form to the end of its job

A purge request hides the rows it selects in one transaction, queues a job in another and, when that raises, puts the rows
back in a third. The job purges its items one transaction at a time. It can be cancelled while it waits, and it can fail
at every item; neither looks at the rows again.
-/

namespace VirtInfra.Inventory

open Lib Python Maintenance

/-! ## The form -/

/-- An item of a selection: a VM, all VMs of a node, or a node. -/
inductive PurgeTarget
  | vm (node vmUuid : String)
  | nodeVms (node : String)
  | node (node : String)
  deriving DecidableEq, Repr

/-- The purge modes of `admin_delete_vm`, `admin_delete_node`, `admin_purge_node_vms`, `admin_bulk_nodes` (`purge` and
    `purge_vms`) and `admin_bulk_vms`, with the fields of their forms. -/
inductive PurgeRequest
  | deleteVm (node vmUuid : String)
  | deleteNode (node : String)
  | purgeNodeVms (node : String)
  | bulkPurge (nodes : List String)
  | bulkPurgeVms (nodes : List String)
  | bulkVms (vms : List String)

/-- `value.split("\t", 1)`, where there is a tab. -/
def splitTab (value : String) : Option (String × String) :=
  match value.toList.span (· ≠ '\t') with
  | (_, []) => none
  | (node, _ :: vmUuid) => some (String.ofList node, String.ofList vmUuid)

/-- The names of a form, stripped, without the empty ones and each once. -/
def cleanNodes (values : List String) : List String := ((values.map strip).filter (· ≠ "")).eraseDups

def cleanVms (values : List (String × String)) : List (String × String) :=
  ((values.map fun value => (strip value.1, strip value.2)).filter fun key => key.1 ≠ "" && key.2 ≠ "").eraseDups

namespace PurgeRequest

/-- The selection. Where it is empty, the handlers answer before they write. -/
def targets : PurgeRequest → List PurgeTarget
  | deleteVm node vmUuid => (cleanVms [(node, vmUuid)]).map fun key => .vm key.1 key.2
  | deleteNode node => (cleanNodes [node]).map .node
  | purgeNodeVms node => (cleanNodes [node]).map .nodeVms
  | bulkPurge nodes => (cleanNodes nodes).map .node
  | bulkPurgeVms nodes => (cleanNodes nodes).map .nodeVms
  | bulkVms vms => (cleanVms (vms.filterMap splitTab)).map fun key => .vm key.1 key.2

/-- The action of the job. -/
def queueAction : PurgeRequest → String
  | deleteVm _ _ | bulkVms _ => "purge_vms"
  | deleteNode _ | bulkPurge _ => "purge_nodes"
  | purgeNodeVms _ | bulkPurgeVms _ => "purge_node_vms"

end PurgeRequest

namespace PurgeTarget

/-- The rows that a request hides for a target. -/
def covers : PurgeTarget → Item → Bool
  | vm host vmUuid, item => item = .vm host vmUuid
  | nodeVms host, item => item.vmIn fun key => key.1 = host
  | node host, item => item = .node host

/-- What the job does for a target, `now` and `rank` as in `purge_all_vms_for_node`. -/
def purge (now : Int) (rank : Candidate → Nat) : PurgeTarget → SiteLabel
  | vm _ vmUuid => .purgeVm vmUuid
  | nodeVms host => .purgeNodeVms now host rank
  | node host => .purgeNode now host rank

theorem purges_purge (now : Int) (rank : Candidate → Nat) (target : PurgeTarget) :
    (target.purge now rank).purges = true := by
  cases target <;> rfl

end PurgeTarget

/-! ## The three transactions of the request -/

/-- What a request remembers of a row: `status` and `hidden_at`. -/
abbrev Previous := Item × InventoryStatus × Option Int

/-- `SELECT … status, hidden_at` of the rows of a target. -/
def previousOf (s : Site) : PurgeTarget → List Previous
  | .vm node vmUuid => ((s.vms.get? (node, vmUuid)).map fun r => (.vm node vmUuid, r.status, r.hiddenAt)).toList
  | .nodeVms node =>
      (s.vms.select fun key => key.1 = node).map fun row => (.vm row.1.1 row.1.2, row.2.status, row.2.hiddenAt)
  | .node node => ((s.nodes.get? node).map fun r => (.node node, r.status, r.hiddenAt)).toList

/-- `SET status='hidden', hidden_at=COALESCE(hidden_at, now)` on the rows of a target; `deleted_at` stays. -/
def hideTarget (now : PurgeTarget → Int) (s : Site) (target : PurgeTarget) : Site :=
  match target with
  | .vm node vmUuid =>
      s.setVms (s.vms.modify (node, vmUuid) fun r =>
        { r with status := .hidden, hiddenAt := r.hiddenAt.or (some (now target)) })
  | .nodeVms node =>
      s.setVms (s.vms.update fun key r =>
        if key.1 = node then { r with status := .hidden, hiddenAt := r.hiddenAt.or (some (now target)) } else r)
  | .node node =>
      { s with
        nodes := s.nodes.modify node fun r =>
          { r with status := .hidden, hiddenAt := r.hiddenAt.or (some (now target)) } }

/-- `SET status=…, hidden_at=…` on one row. -/
def undoItem (s : Site) (entry : Previous) : Site :=
  match entry with
  | (.vm node vmUuid, status, hiddenAt) => s.setVms (s.vms.modify (node, vmUuid) fun r => { r with status, hiddenAt })
  | (.node node, status, hiddenAt) => { s with nodes := s.nodes.modify node fun r => { r with status, hiddenAt } }

/-- **`enqueue_batched_purge_jobs`**, up to the insert of the job. `maximum` is `V48124_MAX_PURGE_SELECTION_ITEMS`, and
    `failure` what the database raises. -/
def enqueueBatchedPurgeJobs (maximum : Nat) (jobs : Jobs) (failure : Option String) (action : String)
    (items : List PurgeTarget) : Except String Unit := do
  if items = [] then
    throw "No valid purge item was selected"
  let count := items.length
  if count > maximum then
    throw s!"Selection has {count} items; maximum is {maximum}"
  enqueueChecks jobs action false
  if let some message := failure then
    throw message

/-! ## The run of a request and of its job -/

inductive RequestPhase
  | received
  | hidden (previous : List Previous)
  | failed (previous : List Previous)
  | left
  | undone
  deriving DecidableEq

inductive JobPhase
  | absent
  | queued
  | running (rest : List PurgeTarget)
  | over
  deriving DecidableEq

/-- The inventory, the request, its job, and the purges that the job has committed. -/
structure PurgeRun where
  site : Site
  request : RequestPhase
  job : JobPhase
  purged : List SiteLabel

/-- What does not change in a run. -/
structure PurgeConfig where
  migration : Migration
  expiry : Expiry
  maximum : Nat
  request : PurgeRequest

inductive PurgeLabel
  -- the request: its three transactions, of which each can fail
  | abort
  | hide (now : PurgeTarget → Int)
  | enqueue (jobs : Jobs) (failure : Option String) (noted : Bool)
  | undo
  | lost
  -- its job
  | start
  | cancel
  | purge (now : Int) (rank : Candidate → Nat)
  | fail
  | finish
  -- everything else that writes to the inventory
  | background (l : SiteLabel)

/-- The writers that no administrator starts. -/
def SiteLabel.background : SiteLabel → Bool
  | .push _ _ | .autoPurge _ | .vmStale _ _ _ | .vmDeleted _ _ _ | .nodeDeleted _ _ _ | .retention => true
  | _ => false

def PurgeRun.step (c : PurgeConfig) (st : PurgeRun) : PurgeLabel → Option PurgeRun
  | .abort =>
      match st.request with
      | .received => some { st with request := .undone }
      | _ => none
  | .hide now =>
      match st.request with
      | .received =>
          some { st with
            site := c.request.targets.foldl (hideTarget now) st.site
            request := .hidden (c.request.targets.flatMap (previousOf st.site)) }
      | _ => none
  | .enqueue jobs failure noted =>
      match st.request with
      | .hidden previous =>
          match enqueueBatchedPurgeJobs c.maximum jobs failure c.request.queueAction c.request.targets with
          | .error _ => some { st with request := .failed previous }
          -- The job is in; the note that the dispatcher could not be woken can still raise.
          | .ok () => some { st with request := if noted then .left else .failed previous, job := .queued }
      | _ => none
  | .undo =>
      match st.request with
      | .failed previous => some { st with site := previous.foldl undoItem st.site, request := .undone }
      | _ => none
  | .lost =>
      match st.request with
      | .hidden _ | .failed _ => some { st with request := .left }
      | _ => none
  | .start => if st.job = .queued then some { st with job := .running c.request.targets } else none
  | .cancel => if st.job = .queued then some { st with job := .over } else none
  | .purge now rank =>
      match st.job with
      | .running (target :: rest) =>
          (st.site.step c.migration c.expiry (target.purge now rank)).map fun site =>
            { st with site, job := .running rest, purged := st.purged ++ [target.purge now rank] }
      | _ => none
  | .fail =>
      match st.job with
      | .queued | .running _ => some { st with job := .over }
      | _ => none
  | .finish => if st.job = .running [] then some { st with job := .over } else none
  | .background l =>
      match st.request with
      | .hidden _ | .failed _ | .left =>
          if l.background then (st.site.step c.migration c.expiry l).map fun site => { st with site } else none
      | _ => none

/-- The runs of a request on a given inventory. The writes of others are followed while rows are hidden. -/
def purgeFrom (c : PurgeConfig) (site : Site) : System PurgeRun PurgeLabel where
  init st := st = ⟨site, .received, .absent, []⟩
  step := PurgeRun.step c

/-- The request has been answered, and its job, if it has one, is over. -/
def PurgeRun.ended (st : PurgeRun) : Bool :=
  match st.request with
  | .left | .undone => st.job = .absent || st.job = .over
  | _ => false

/-- **The job has purged neither the item nor another row of it.** -/
def PurgeRun.Spared (st : PurgeRun) (item : Item) : Prop := ∀ l ∈ st.purged, ¬ l.Releases item

/-! ## What the transactions do to the columns -/

section Columns

variable {s : Site} {now : PurgeTarget → Int} {item : Item}

theorem visibility_hideTarget (target : PurgeTarget) : (hideTarget now s target).visibility item =
    (s.visibility item).map fun v =>
      if target.covers item then { v with status := .hidden, hiddenAt := v.hiddenAt.or (some (now target)) } else v := by
  cases target with
  | vm host vmUuid =>
      simp only [hideTarget, PurgeTarget.covers, decide_eq_true_eq]
      exact visibility_modifyVm
        (g := fun v => { v with status := .hidden, hiddenAt := v.hiddenAt.or (some (now (.vm host vmUuid))) })
        (fun _ => rfl) host vmUuid item
  | nodeVms host =>
      have h := visibility_updateVms (s := s) (p := fun key => key.1 = host)
        (f := fun r => { r with status := .hidden, hiddenAt := r.hiddenAt.or (some (now (.nodeVms host))) })
        (g := fun v => { v with status := .hidden, hiddenAt := v.hiddenAt.or (some (now (.nodeVms host))) })
        (fun _ => rfl) item
      simpa [hideTarget, PurgeTarget.covers] using h
  | node host =>
      simp only [hideTarget, PurgeTarget.covers, decide_eq_true_eq]
      exact visibility_modifyNode
        (g := fun v => { v with status := .hidden, hiddenAt := v.hiddenAt.or (some (now (.node host))) })
        (fun _ => rfl) host item

theorem visibility_undoItem (entry : Previous) : (undoItem s entry).visibility item =
    (s.visibility item).map fun v =>
      if item = entry.1 then { v with status := entry.2.1, hiddenAt := entry.2.2 } else v := by
  obtain ⟨other, status, hiddenAt⟩ := entry
  cases other with
  | vm host vmUuid =>
      exact visibility_modifyVm (g := fun v => { v with status, hiddenAt }) (fun _ => rfl) host vmUuid item
  | node host => exact visibility_modifyNode (g := fun v => { v with status, hiddenAt }) (fun _ => rfl) host item

/-- What a request remembers is what the rows it covers show. -/
theorem mem_previousOf {target : PurgeTarget} {entry : Previous} : entry ∈ previousOf s target ↔
    target.covers entry.1 = true ∧ ∃ v, s.visibility entry.1 = some v ∧ entry.2 = (v.status, v.hiddenAt) := by
  obtain ⟨other, columns⟩ := entry
  cases target with
  | vm host vmUuid =>
      simp only [previousOf, PurgeTarget.covers, Option.mem_toList, Option.map_eq_some_iff, Prod.mk.injEq,
        decide_eq_true_eq]
      constructor
      · rintro ⟨r, hr, rfl, rfl⟩
        exact ⟨rfl, r.visibility, visibility_eq_some_vm.mpr ⟨r, hr, rfl⟩, rfl⟩
      · rintro ⟨rfl, v, hv, rfl⟩
        obtain ⟨r, hr, rfl⟩ := visibility_eq_some_vm.mp hv
        exact ⟨r, hr, rfl, rfl⟩
  | node host =>
      simp only [previousOf, PurgeTarget.covers, Option.mem_toList, Option.map_eq_some_iff, Prod.mk.injEq,
        decide_eq_true_eq]
      constructor
      · rintro ⟨r, hr, rfl, rfl⟩
        exact ⟨rfl, r.visibility, visibility_eq_some_node.mpr ⟨r, hr, rfl⟩, rfl⟩
      · rintro ⟨rfl, v, hv, rfl⟩
        obtain ⟨r, hr, rfl⟩ := visibility_eq_some_node.mp hv
        exact ⟨r, hr, rfl, rfl⟩
  | nodeVms host =>
      simp only [previousOf, PurgeTarget.covers, KeyedTable.select, List.mem_map, List.mem_filter, decide_eq_true_eq,
        Prod.mk.injEq]
      constructor
      · rintro ⟨⟨⟨node, vmUuid⟩, r⟩, ⟨hrow, rfl⟩, rfl, rfl⟩
        have hr : s.vms.get? (node, vmUuid) = some r := KeyedTable.get?_of_mem_rows hrow
        exact ⟨by simp [Item.vmIn], r.visibility, visibility_eq_some_vm.mpr ⟨r, hr, rfl⟩, rfl⟩
      · rintro ⟨hcovers, v, hv, rfl⟩
        cases other with
        | node node => cases hcovers
        | vm node vmUuid =>
            obtain ⟨r, hr, rfl⟩ := visibility_eq_some_vm.mp hv
            exact ⟨((node, vmUuid), r), ⟨KeyedTable.mem_rows_of_get? hr, of_decide_eq_true hcovers⟩, rfl, rfl⟩

/-- The hidden columns of a row that showed `v`. -/
def HiddenFrom (v w : Visibility) : Prop := w.status = .hidden ∧ ∃ now, w.hiddenAt = v.hiddenAt.or (some now)

/-- A hidden row that is hidden again keeps its time. -/
theorem HiddenFrom.again {v w : Visibility} (h : HiddenFrom v w) (now : Int) :
    HiddenFrom v { w with status := .hidden, hiddenAt := w.hiddenAt.or (some now) } := by
  obtain ⟨-, first, hfirst⟩ := h
  refine ⟨rfl, first, ?_⟩
  show w.hiddenAt.or (some now) = _
  rw [hfirst]
  cases v.hiddenAt <;> rfl

/-- A loop over targets keeps what is hidden hidden. -/
theorem hiddenFrom_foldl_hideTarget {v w : Visibility} (targets : List PurgeTarget) (hrow : s.visibility item = some w)
    (h : HiddenFrom v w) : ∃ w', (targets.foldl (hideTarget now) s).visibility item = some w' ∧ HiddenFrom v w' := by
  induction targets generalizing s w with
  | nil => exact ⟨w, hrow, h⟩
  | cons target rest ih =>
      have hnext := @visibility_hideTarget s now item target
      rw [hrow, Option.map_some] at hnext
      rw [List.foldl_cons]
      refine ih hnext ?_
      split
      · exact h.again _
      · exact h

/-- **The first transaction hides the rows of the selection.** -/
theorem foldl_hideTarget_hides {v : Visibility} {targets : List PurgeTarget}
    (hsel : ∃ target ∈ targets, target.covers item = true) (hrow : s.visibility item = some v) :
    ∃ w, (targets.foldl (hideTarget now) s).visibility item = some w ∧ HiddenFrom v w := by
  induction targets generalizing s with
  | nil =>
      obtain ⟨target, hmem, -⟩ := hsel
      cases hmem
  | cons target rest ih =>
      have hnext := @visibility_hideTarget s now item target
      rw [hrow, Option.map_some] at hnext
      rw [List.foldl_cons]
      by_cases hcovers : target.covers item = true
      · rw [if_pos hcovers] at hnext
        exact hiddenFrom_foldl_hideTarget rest hnext ⟨rfl, now target, rfl⟩
      · rw [if_neg hcovers] at hnext
        obtain ⟨other, hmem, hother⟩ := hsel
        refine ih ⟨other, ?_, hother⟩ hnext
        rcases List.mem_cons.mp hmem with rfl | hrest
        · exact absurd hother hcovers
        · exact hrest

/-- **The third transaction puts back what was remembered**, whatever the columns are by then. -/
theorem foldl_undoItem_restores {status : InventoryStatus} {hiddenAt : Option Int} {previous : List Previous}
    {w : Visibility} (hrow : s.visibility item = some w)
    (hall : ∀ entry ∈ previous, entry.1 = item → entry.2 = (status, hiddenAt))
    (hmem : (item, status, hiddenAt) ∈ previous ∨ w.status = status ∧ w.hiddenAt = hiddenAt) :
    ∃ w', (previous.foldl undoItem s).visibility item = some w' ∧ w'.status = status ∧ w'.hiddenAt = hiddenAt := by
  induction previous generalizing s w with
  | nil =>
      rcases hmem with hmem | hdone
      · cases hmem
      · exact ⟨w, hrow, hdone⟩
  | cons entry rest ih =>
      have hnext := @visibility_undoItem s item entry
      rw [hrow, Option.map_some] at hnext
      rw [List.foldl_cons]
      refine ih hnext (fun other hother => hall other (List.mem_cons_of_mem _ hother)) ?_
      by_cases hitem : item = entry.1
      · rw [if_pos hitem]
        obtain ⟨hstatus, hat⟩ := Prod.mk.inj (hall entry List.mem_cons_self hitem.symm)
        exact .inr ⟨hstatus, hat⟩
      · rw [if_neg hitem]
        refine hmem.imp_left fun hmem => ?_
        rcases List.mem_cons.mp hmem with rfl | hrest
        · exact absurd rfl hitem
        · exact hrest

end Columns

/-! ## The run -/

section Run

variable {c : PurgeConfig} {st st' : PurgeRun} {item : Item} {v : Visibility}

/-- What the row of a selected item shows: what it showed before until it is hidden and when the hiding is undone. -/
def PurgeRun.Shows (st : PurgeRun) (v w : Visibility) : Prop :=
  match st.request with
  | .received | .undone => w.status = v.status ∧ w.hiddenAt = v.hiddenAt
  | .hidden _ | .failed _ | .left => HiddenFrom v w

/-- **What holds in a run for an item that showed `v`.** -/
structure PurgeRun.Tracks (item : Item) (v : Visibility) (st : PurgeRun) : Prop where
  row : st.Spared item → ∃ w, st.site.visibility item = some w ∧ st.Shows v w
  previous : ∀ previous, st.request = .hidden previous ∨ st.request = .failed previous →
    (item, v.status, v.hiddenAt) ∈ previous ∧ ∀ entry ∈ previous, entry.1 = item → entry.2 = (v.status, v.hiddenAt)
  received : st.request = .received → st.job = .absent ∧ st.purged = []

theorem SiteLabel.not_releases_of_background {l : SiteLabel} (h : l.background = true) : ¬ l.Releases item := by
  cases l <;> first | exact fun hreleases => hreleases | cases h

theorem SiteLabel.ne_hide_of_background {l : SiteLabel} (h : l.background = true) (items : List (Int × Item)) :
    l ≠ .hide items := by
  rintro rfl
  cases h

/-- The other writers go around a hidden row. -/
theorem hiddenFrom_background {s s' : Site} {l : SiteLabel} {w : Visibility} (hl : l.background = true)
    (hstep : s.step c.migration c.expiry l = some s') (hrow : s.visibility item = some w) (h : HiddenFrom v w) :
    ∃ w', s'.visibility item = some w' ∧ HiddenFrom v w' := by
  obtain ⟨hstatus, now, hat⟩ := h
  have hcolumns : s.visibility item = some ⟨.hidden, w.hiddenAt, w.deletedAt⟩ := by rw [hrow, ← hstatus]
  obtain ⟨deletedAt, hrow', -⟩ := hidden_row_step hcolumns (SiteLabel.not_releases_of_background hl)
    (SiteLabel.ne_hide_of_background hl) hstep
  exact ⟨_, hrow', rfl, now, hat⟩

/-- The first transaction. -/
theorem tracks_hide {now : PurgeTarget → Int} (hsel : ∃ target ∈ c.request.targets, target.covers item = true)
    (h : st.Tracks item v) (hreceived : st.request = .received) :
    PurgeRun.Tracks item v { st with
      site := c.request.targets.foldl (hideTarget now) st.site
      request := .hidden (c.request.targets.flatMap (previousOf st.site)) } := by
  have hpurged := (h.received hreceived).2
  have hspared : st.Spared item := by
    intro l hl
    rw [hpurged] at hl
    cases hl
  obtain ⟨w, hw, hshows⟩ := h.row hspared
  rw [PurgeRun.Shows, hreceived] at hshows
  obtain ⟨hstatus, hat⟩ := hshows
  refine ⟨fun _ => ?_, ?_, fun heq => by cases heq⟩
  · obtain ⟨w', hw', hhidden, now', hat'⟩ := @foldl_hideTarget_hides st.site now item w _ hsel hw
    exact ⟨w', hw', hhidden, now', by rw [hat', hat]⟩
  · intro previous hprevious
    obtain rfl : c.request.targets.flatMap (previousOf st.site) = previous := by
      rcases hprevious with heq | heq <;> cases heq
      rfl
    constructor
    · obtain ⟨target, hmem, hcovers⟩ := hsel
      refine List.mem_flatMap.mpr ⟨target, hmem, mem_previousOf.mpr ⟨hcovers, w, hw, ?_⟩⟩
      rw [hstatus, hat]
    · intro entry hentry hitem
      obtain ⟨target, -, htarget⟩ := List.mem_flatMap.mp hentry
      obtain ⟨-, w', hw', hcolumns⟩ := mem_previousOf.mp htarget
      rw [hitem, hw] at hw'
      obtain rfl := Option.some.inj hw'
      rw [hcolumns, hstatus, hat]

/-- A request that has left nothing hidden. -/
theorem tracks_undone (hrequest : st.request = .undone)
    (hrow : st.Spared item → ∃ w, st.site.visibility item = some w ∧ w.status = v.status ∧ w.hiddenAt = v.hiddenAt) :
    st.Tracks item v := by
  refine ⟨fun hspared => ?_, ?_, ?_⟩
  · simp only [PurgeRun.Shows, hrequest]
    exact hrow hspared
  · intro previous hprevious
    rw [hrequest] at hprevious
    rcases hprevious with heq | heq <;> cases heq
  · intro hreceived
    rw [hrequest] at hreceived
    cases hreceived

/-- The third one. -/
theorem tracks_undo {previous : List Previous} (h : st.Tracks item v) (hfailed : st.request = .failed previous) :
    PurgeRun.Tracks item v { st with site := previous.foldl undoItem st.site, request := .undone } := by
  refine tracks_undone rfl fun hspared => ?_
  obtain ⟨w, hw, -⟩ := h.row hspared
  obtain ⟨hmem, hall⟩ := h.previous previous (.inr hfailed)
  exact foldl_undoItem_restores hw hall (.inl hmem)

/-- A purge of the job. -/
theorem tracks_purge {site : Site} {job : JobPhase} {l : SiteLabel} (hl : l.purges = true)
    (hstep : st.site.step c.migration c.expiry l = some site) (h : st.Tracks item v) (hjob : st.job ≠ .absent) :
    PurgeRun.Tracks item v { st with site, job, purged := st.purged ++ [l] } := by
  refine ⟨fun hspared => ?_, h.previous, fun hreceived => absurd (h.received hreceived).1 hjob⟩
  have hbefore : st.Spared item := fun l' hl' => hspared l' (List.mem_append_left _ hl')
  have hnot : ¬ l.Releases item := hspared l (List.mem_append_right _ (List.mem_singleton.mpr rfl))
  obtain ⟨w, hw, hshows⟩ := h.row hbefore
  exact ⟨w, visibility_purge hl hw hnot hstep, hshows⟩

/-- A step that leaves the rows alone, and goes on from hidden rows. -/
theorem tracks_request {request : RequestPhase} {job : JobPhase} {previous : List Previous} (h : st.Tracks item v)
    (hfrom : st.request = .hidden previous ∨ st.request = .failed previous)
    (hto : request = .failed previous ∨ request = .left) : PurgeRun.Tracks item v { st with request, job } := by
  refine ⟨fun hspared => ?_, ?_, ?_⟩
  · obtain ⟨w, hw, hshows⟩ := h.row hspared
    refine ⟨w, hw, ?_⟩
    have hhidden : HiddenFrom v w := by
      rcases hfrom with heq | heq <;> rw [PurgeRun.Shows, heq] at hshows <;> exact hshows
    rcases hto with rfl | rfl <;> exact hhidden
  · intro previous' hprevious'
    have hsame : previous' = previous := by
      rcases hto with rfl | rfl <;> rcases hprevious' with heq | heq <;> cases heq
      rfl
    rw [hsame]
    exact h.previous previous hfrom
  · rintro rfl
    rcases hto with heq | heq <;> cases heq

/-- A step of the job that touches no row. -/
theorem tracks_job {job : JobPhase} (h : st.Tracks item v) (hjob : st.job ≠ .absent) :
    PurgeRun.Tracks item v { st with job } :=
  ⟨h.row, h.previous, fun hreceived => absurd (h.received hreceived).1 hjob⟩

/-- **One step.** -/
theorem tracks_step {l : PurgeLabel} (hsel : ∃ target ∈ c.request.targets, target.covers item = true)
    (h : st.Tracks item v) (hstep : st.step c l = some st') : st'.Tracks item v := by
  cases l with
  | abort =>
      simp only [PurgeRun.step] at hstep
      split at hstep
      · rename_i hreceived
        obtain rfl := Option.some.inj hstep
        refine tracks_undone rfl fun hspared => ?_
        obtain ⟨w, hw, hshows⟩ := h.row hspared
        rw [PurgeRun.Shows, hreceived] at hshows
        exact ⟨w, hw, hshows⟩
      · cases hstep
  | hide now =>
      simp only [PurgeRun.step] at hstep
      split at hstep
      · rename_i hreceived
        obtain rfl := Option.some.inj hstep
        exact tracks_hide hsel h hreceived
      · cases hstep
  | enqueue jobs failure noted =>
      simp only [PurgeRun.step] at hstep
      split at hstep
      · rename_i previous hhidden
        split at hstep
        · obtain rfl := Option.some.inj hstep
          exact tracks_request h (.inl hhidden) (.inl rfl)
        · obtain rfl := Option.some.inj hstep
          refine tracks_request h (.inl hhidden) ?_
          cases noted
          · exact .inl rfl
          · exact .inr rfl
      · cases hstep
  | undo =>
      simp only [PurgeRun.step] at hstep
      split at hstep
      · rename_i previous hfailed
        obtain rfl := Option.some.inj hstep
        exact tracks_undo h hfailed
      · cases hstep
  | lost =>
      simp only [PurgeRun.step] at hstep
      split at hstep
      · rename_i previous hhidden
        obtain rfl := Option.some.inj hstep
        exact tracks_request h (.inl hhidden) (.inr rfl)
      · rename_i previous hfailed
        obtain rfl := Option.some.inj hstep
        exact tracks_request h (.inr hfailed) (.inr rfl)
      · cases hstep
  | start | cancel =>
      obtain ⟨hjob, hrest⟩ := Option.ite_none_right_eq_some.mp hstep
      obtain rfl := Option.some.inj hrest
      exact tracks_job h (by rw [hjob]; simp)
  | finish =>
      obtain ⟨hjob, hrest⟩ := Option.ite_none_right_eq_some.mp hstep
      obtain rfl := Option.some.inj hrest
      exact tracks_job h (by rw [hjob]; simp)
  | fail =>
      simp only [PurgeRun.step] at hstep
      split at hstep <;> try cases hstep
      all_goals
        rename_i hjob
        exact tracks_job h (by rw [hjob]; simp)
  | purge now rank =>
      simp only [PurgeRun.step] at hstep
      split at hstep
      · rename_i target rest hjob
        obtain ⟨site, hsite, rfl⟩ := Option.map_eq_some_iff.mp hstep
        exact tracks_purge (target.purges_purge now rank) hsite h (by rw [hjob]; simp)
      · cases hstep
  | background l =>
      have hgo : ∀ {site}, l.background = true → st.site.step c.migration c.expiry l = some site →
          (∀ w, st.Shows v w ↔ HiddenFrom v w) → st.request ≠ .received → PurgeRun.Tracks item v { st with site } := by
        intro site hl hsite hshows hreceived
        refine ⟨fun hspared => ?_, h.previous, fun heq => absurd heq hreceived⟩
        obtain ⟨w, hw, hw'⟩ := h.row hspared
        obtain ⟨w', hrow, hhidden⟩ := hiddenFrom_background hl hsite hw ((hshows w).mp hw')
        exact ⟨w', hrow, (hshows w').mpr hhidden⟩
      simp only [PurgeRun.step] at hstep
      split at hstep
      all_goals
        try cases hstep
      all_goals
        rename_i hrequest
        obtain ⟨hl, hrest⟩ := Option.ite_none_right_eq_some.mp hstep
        obtain ⟨site, hsite, rfl⟩ := Option.map_eq_some_iff.mp hrest
        refine hgo hl hsite (fun w => by rw [PurgeRun.Shows, hrequest]) ?_
        rw [hrequest]
        simp

/-- **A run.** -/
theorem tracks_reachable {site : Site} (hsel : ∃ target ∈ c.request.targets, target.covers item = true)
    (hrow : site.visibility item = some v) (h : (purgeFrom c site).Reachable System.AnyStep st) :
    st.Tracks item v := by
  refine h.invariant (I := PurgeRun.Tracks item v) ?_ ?_
  · rintro _ rfl
    refine ⟨fun _ => ⟨v, hrow, rfl, rfl⟩, fun _ heq => ?_, fun _ => ⟨rfl, rfl⟩⟩
    rcases heq with heq | heq <;> cases heq
  · intro st l st' _ htracks _ hstep
    exact tracks_step hsel htracks hstep

/-- **What a purge that does not happen leaves behind.** When the request and its job are over and the item was not purged,
    its row is as visible as before exactly if the request has undone its hiding, or found the row hidden. -/
theorem purge_leaves_no_trace_iff (c : PurgeConfig) {site : Site} {st : PurgeRun} {item : Item} {v : Visibility}
    (hsel : ∃ target ∈ c.request.targets, target.covers item = true) (hrow : site.visibility item = some v)
    (h : (purgeFrom c site).Reachable System.AnyStep st) (hended : st.ended = true) (hspared : st.Spared item) :
    ∃ w, st.site.visibility item = some w ∧
      ((w.status = v.status ∧ w.hiddenAt = v.hiddenAt) ↔
        st.request = .undone ∨ v.status = .hidden ∧ v.hiddenAt.isSome) := by
  obtain ⟨w, hw, hshows⟩ := (tracks_reachable hsel hrow h).row hspared
  refine ⟨w, hw, ?_⟩
  unfold PurgeRun.ended at hended
  unfold PurgeRun.Shows at hshows
  split at hended
  · -- The rows were left hidden.
    rename_i hleft
    rw [hleft] at hshows
    obtain ⟨hhidden, now, hat⟩ := hshows
    have hundone : st.request ≠ .undone := by simp [hleft]
    rw [hhidden, hat]
    cases hv : v.hiddenAt with
    | none => simp [hundone]
    | some old => simp [hundone, eq_comm]
  · -- They were put back, or never hidden.
    rename_i hundone
    rw [hundone] at hshows
    exact ⟨fun _ => .inl hundone, fun _ => hshows⟩
  · cases hended

/-- The purge of one VM. -/
def PurgeConfig.sample : PurgeConfig := ⟨.standard, {}, 300, .deleteVm "node1" "vm1"⟩

def PurgeRun.start (site : Site) : PurgeRun := ⟨site, .received, .absent, []⟩

/-- A Nuclear reset waits in the queue: the request is refused. -/
theorem purge_leaves_no_trace_refused : ∃ st, (purgeFrom PurgeConfig.sample Site.sample).Reachable System.AnyStep st ∧
    st.purged = [] ∧ ∃ w, st.site.visibility (.vm "node1" "vm1") = some w ∧ w.status = .active ∧ w.hiddenAt = none := by
  have hrun : ((purgeFrom PurgeConfig.sample Site.sample).exec System.AnyStep (.start Site.sample)
      [.hide fun _ => 72600, .enqueue (KeyedTable.empty.put 1 (newJob 72000 "reset_app_data")) none true, .undo]).map
        (fun st => (st.ended, decide (st.request = .undone), decide (st.purged = []))) = some (true, true, true) := by
    decide +kernel
  obtain ⟨st, hexec, hvalues⟩ := Option.map_eq_some_iff.mp hrun
  obtain ⟨hended, hundone, hpurged⟩ : st.ended = true ∧ st.request = .undone ∧ st.purged = [] := by
    simpa using hvalues
  have hreach := System.Reachable.exec (.init rfl) hexec
  have hrow : Site.sample.visibility (.vm "node1" "vm1") = some ⟨.active, none, none⟩ := by decide +kernel
  obtain ⟨w, hw, hiff⟩ := purge_leaves_no_trace_iff PurgeConfig.sample (by decide +kernel) hrow hreach hended
    (by simp [PurgeRun.Spared, hpurged])
  exact ⟨st, hreach, hpurged, w, hw, hiff.mpr (.inl hundone)⟩

/-- The purge is queued, and its job is cancelled: the VM stays hidden. -/
theorem cancelled_purge_leaves_hidden : ¬ ∀ (c : PurgeConfig) (site : Site) (st : PurgeRun) (item : Item) (v : Visibility),
    (∃ target ∈ c.request.targets, target.covers item = true) → site.visibility item = some v →
      (purgeFrom c site).Reachable System.AnyStep st → st.ended = true → st.Spared item →
        ∃ w, st.site.visibility item = some w ∧ w.status = v.status ∧ w.hiddenAt = v.hiddenAt := by
  intro hclaim
  have hrun : ((purgeFrom PurgeConfig.sample Site.sample).exec System.AnyStep (.start Site.sample)
      [.hide fun _ => 72600, .enqueue .empty none true, .cancel]).map
        (fun st => (st.ended, decide (st.purged = []), st.site.visibility (.vm "node1" "vm1"))) =
          some (true, true, some ⟨.hidden, some 72600, none⟩) := by decide +kernel
  obtain ⟨st, hexec, hvalues⟩ := Option.map_eq_some_iff.mp hrun
  obtain ⟨hended, hpurged, hhidden⟩ : st.ended = true ∧ st.purged = [] ∧
      st.site.visibility (.vm "node1" "vm1") = some ⟨.hidden, some 72600, none⟩ := by simpa using hvalues
  have hrow : Site.sample.visibility (.vm "node1" "vm1") = some ⟨.active, none, none⟩ := by decide +kernel
  obtain ⟨w, hw, hstatus, -⟩ := hclaim PurgeConfig.sample Site.sample st _ _ (by decide +kernel) hrow
    (.exec (.init rfl) hexec) hended (by simp [PurgeRun.Spared, hpurged])
  rw [hhidden] at hw
  obtain rfl := Option.some.inj hw
  cases hstatus

end Run

end VirtInfra.Inventory
