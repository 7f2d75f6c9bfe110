import VirtInfra.Abuse.Evaluation
import Mathlib.Data.List.MinMax

/-!
# `Incidents` — the event log and the incident table

A transition of a VM's abuse state writes an event, and an event that is new to the log opens, updates or closes the
incident of the VM. `Incidents.openOf` is the list of a VM's open incidents; every statement below says what one
operation does to it: opening adds one, closing the one that is open leaves none, and other VMs never notice.
-/

namespace VirtInfra.Abuse

open Lib Agent

/-! ## The incident table -/

/-- A row of `vm_abuse_incidents`; `isOpen` is `status='open'`. -/
structure Incident where
  id : Nat
  node : String
  vmUuid : String
  startedAt : Int
  endedAt : Option Int
  durationSeconds : Int
  maxSeverity : ℚ
  weightedScore : ℚ
  abuseFlags : List Flag
  primaryType : PrimaryType
  eventCount : Int
  lastEventAt : Int
  isOpen : Bool
  policyRevision : Int

/-- **`vm_abuse_incidents`**, with its `AUTOINCREMENT` key. -/
structure Incidents where
  rows : List Incident
  nextId : Nat
  nodup : (rows.map Incident.id).Nodup
  fresh : ∀ row ∈ rows, row.id < nextId

def Incidents.empty : Incidents := ⟨[], 1, List.nodup_nil, by rintro row ⟨⟩⟩

/-- Whether a row is the open incident of a VM. -/
def Incident.opens (row : Incident) (node vm : String) : Bool := row.isOpen && (row.node = node && row.vmUuid = vm)

/-- The open incidents of a VM. -/
def Incidents.openOf (t : Incidents) (node vm : String) : List Incident := t.rows.filter fun row => row.opens node vm

/-- `SELECT … WHERE node=? AND vm_uuid=? AND status='open' ORDER BY id DESC LIMIT 1`. -/
def Incidents.openRow (t : Incidents) (node vm : String) : Option Incident := List.argmax Incident.id (t.openOf node vm)

/-- `INSERT`; the row gets the next id. -/
def Incidents.insert (t : Incidents) (row : Incident) : Incidents where
  rows := t.rows ++ [{ row with id := t.nextId }]
  nextId := t.nextId + 1
  nodup := by
    rw [List.map_append, List.nodup_append]
    refine ⟨t.nodup, List.nodup_singleton _, ?_⟩
    rintro _ ha _ hb rfl
    obtain ⟨old, hold, hid⟩ := List.mem_map.mp ha
    have hlt := t.fresh old hold
    rw [hid, List.mem_singleton.mp hb] at hlt
    exact absurd hlt (lt_irrefl _)
  fresh := by
    intro r hr
    rcases List.mem_append.mp hr with hr | hr
    · exact Nat.lt_succ_of_lt (t.fresh r hr)
    · rw [List.mem_singleton.mp hr]
      exact Nat.lt_succ_self _

/-- `UPDATE … WHERE id=?`; the assignment never sets the key. -/
def Incidents.set (t : Incidents) (id : Nat) (f : Incident → Incident) : Incidents where
  rows := t.rows.map fun row => if row.id = id then { f row with id := row.id } else row
  nextId := t.nextId
  nodup := by
    have hids : (t.rows.map fun row => if row.id = id then { f row with id := row.id } else row).map Incident.id =
        t.rows.map Incident.id := by
      rw [List.map_map]
      apply List.map_congr_left
      intro row _
      dsimp only [Function.comp]
      split <;> rfl
    rw [hids]
    exact t.nodup
  fresh := by
    intro r hr
    obtain ⟨row, hrow, rfl⟩ := List.mem_map.mp hr
    have hlt := t.fresh row hrow
    split <;> exact hlt

/-- `round(x, 4)`. -/
def round4 (x : ℚ) : ℚ := pyRound (x * 10000) / 10000

/-- `_v48126_incident_score`. -/
def incidentScore (durationSeconds : Int) (maxSeverity : ℚ) : ℚ :=
  round4 (1 + (max 0 durationSeconds : Int) / 3600 * max 1 maxSeverity)

/-- `_v48126_close_incident`, on the row of an id. -/
def closeRow (endedAt : Int) (maxSeverity : ℚ) (flags : List Flag) (eventCountIncrement : Int) (row : Incident) :
    Incident :=
  let severity := max row.maxSeverity maxSeverity
  let merged := flagUnion [row.abuseFlags, flags]
  let duration := max 0 (endedAt - row.startedAt)
  { row with
    endedAt := some endedAt
    durationSeconds := duration
    maxSeverity := severity
    weightedScore := incidentScore duration severity
    abuseFlags := merged
    primaryType := primaryType merged
    eventCount := max 1 (row.eventCount + eventCountIncrement)
    lastEventAt := endedAt
    isOpen := false }

/-- Close every open incident, as a policy revision does. -/
def Incidents.closeAll (t : Incidents) (endedAt : Int) : Incidents :=
  ((t.rows.filter Incident.isOpen).map Incident.id).foldl (fun t id => t.set id (closeRow endedAt 0 [] 0)) t

/-! ## Events -/

inductive EventType | started | updated | recovered
  deriving DecidableEq, Repr

/-- A row of `vm_abuse_events`, as far as its unique index and the incidents go. -/
structure Event where
  eventTime : Int
  eventType : EventType
  node : String
  vmUuid : String
  abuseFlags : List Flag
  severity : ℚ
  policyRevision : Int
  deriving DecidableEq

/-- The columns of `idx_vm_abuse_events_dedupe`. -/
def Event.sameKey (a b : Event) : Bool :=
  a.node = b.node && a.vmUuid = b.vmUuid && a.eventTime = b.eventTime && a.eventType = b.eventType &&
    a.abuseFlags = b.abuseFlags

/-- A new incident row for an event. -/
def incidentFor (event : Event) (startedAt : Int) : Incident :=
  let flags := flagUnion [event.abuseFlags]
  { id := 0, node := event.node, vmUuid := event.vmUuid, startedAt, endedAt := none, durationSeconds := 0
    maxSeverity := max 0 event.severity, weightedScore := 0, abuseFlags := flags, primaryType := primaryType flags
    eventCount := 1, lastEventAt := event.eventTime, isOpen := true, policyRevision := event.policyRevision }

/-- The update of the open incident by an event that is neither a start nor a recovery. -/
def updateRow (event : Event) (row : Incident) : Incident :=
  let merged := flagUnion [row.abuseFlags, flagUnion [event.abuseFlags]]
  { row with
    maxSeverity := max row.maxSeverity (max 0 event.severity), abuseFlags := merged
    primaryType := primaryType merged, eventCount := max 1 (row.eventCount + 1), lastEventAt := event.eventTime
    policyRevision := event.policyRevision }

/-- `started_at` of an incident whose beginning was not seen. -/
def abuseSinceOr (abuseSince eventTime : Int) : Int := if max 0 abuseSince ≠ 0 then max 0 abuseSince else eventTime

/-- **`_v48126_apply_incident_event`**, with the `abuse_since` of the state the event was written for. -/
def applyIncidentEvent (event : Event) (abuseSince : Int) (t : Incidents) : Incidents :=
  let severity := max 0 event.severity
  let flags := flagUnion [event.abuseFlags]
  let openRow := t.openRow event.node event.vmUuid
  match event.eventType, openRow with
  | .started, none => t.insert (incidentFor event event.eventTime)
  | .started, some row =>
      (t.set row.id (closeRow event.eventTime severity flags 0)).insert (incidentFor event event.eventTime)
  | .recovered, some row => t.set row.id (closeRow event.eventTime severity flags 1)
  | .recovered, none =>
      let startedAt := abuseSinceOr abuseSince event.eventTime
      let duration := max 0 (event.eventTime - startedAt)
      t.insert
        { incidentFor event startedAt with
          endedAt := some event.eventTime, durationSeconds := duration
          weightedScore := incidentScore duration severity, isOpen := false }
  | .updated, none => t.insert (incidentFor event (abuseSinceOr abuseSince event.eventTime))
  | .updated, some row => t.set row.id (updateRow event)

/-- The event log and the incidents, which are always written together. -/
structure Log where
  events : List Event
  incidents : Incidents

/-- **`_v48126_insert_abuse_event`**: an event the log already has changes nothing. -/
def Log.insertAbuseEvent (log : Log) (event : Event) (abuseSince : Int) : Log :=
  if log.events.any event.sameKey then log
  else
    { events := log.events ++ [event]
      incidents := applyIncidentEvent event abuseSince log.incidents }

/-! ## What each operation does to the open incidents -/

theorem openOf_insert (t : Incidents) (row : Incident) (node vm : String) :
    (t.insert row).openOf node vm =
      t.openOf node vm ++ if row.opens node vm then [{ row with id := t.nextId }] else [] := by
  unfold Incidents.openOf Incidents.insert
  rw [List.filter_append]
  congr 1
  cases h : row.opens node vm <;> simpa [Incident.opens] using h

/-- Rows that a map leaves alone where it matters are filtered as before. -/
theorem filter_map_of_fixed {P : Incident → Bool} {g : Incident → Incident} {l : List Incident}
    (h : ∀ r ∈ l, P (g r) = P r ∧ (P r = true → g r = r)) : (l.map g).filter P = l.filter P := by
  induction l with
  | nil => rfl
  | cons r rest ih =>
      obtain ⟨hsame, hfix⟩ := h r List.mem_cons_self
      have hrest := ih fun r' hr' => h r' (List.mem_cons_of_mem _ hr')
      rw [List.map_cons, List.filter_cons, List.filter_cons, hsame, hrest]
      split
      · rename_i hP
        rw [hfix hP]
      · rfl

/-- An update by the id of an open incident is not noticed by other VMs. -/
theorem openOf_set_other {t : Incidents} {row : Incident} {node vm node' vm' : String} {f : Incident → Incident}
    (hrow : row ∈ t.openOf node vm) (hf : ∀ r, (f r).node = r.node ∧ (f r).vmUuid = r.vmUuid)
    (hne : ¬ (node' = node ∧ vm' = vm)) : (t.set row.id f).openOf node' vm' = t.openOf node' vm' := by
  obtain ⟨hmem, hopens⟩ := List.mem_filter.mp hrow
  have hkey : row.node = node ∧ row.vmUuid = vm := by
    simp only [Incident.opens, Bool.and_eq_true, decide_eq_true_eq] at hopens
    exact hopens.2
  apply filter_map_of_fixed
  intro r hr
  split
  · rename_i hid
    -- ids are unique, so the updated row is the VM's own
    obtain rfl : r = row := List.inj_on_of_nodup_map t.nodup hr hmem hid
    have hother : ∀ r' : Incident, r'.node = node → r'.vmUuid = vm → r'.opens node' vm' = false := by
      intro r' hnode hvm
      simp only [Incident.opens, hnode, hvm, Bool.and_eq_false_iff, decide_eq_false_iff_not]
      rw [← not_and_or]
      exact .inr fun h => hne ⟨h.1.symm, h.2.symm⟩
    have hnew := hother { f r with id := r.id } ((hf r).1.trans hkey.1) ((hf r).2.trans hkey.2)
    have hold := hother r hkey.1 hkey.2
    rw [hnew, hold]
    exact ⟨rfl, fun h => absurd h Bool.false_ne_true⟩
  · exact ⟨rfl, fun _ => rfl⟩

/-- Closing the only open incident of a VM leaves it none. -/
theorem openOf_set_closed {t : Incidents} {row : Incident} {node vm : String} {f : Incident → Incident}
    (hrow : t.openOf node vm = [row]) (hf : ∀ r, (f r).isOpen = false) : (t.set row.id f).openOf node vm = [] := by
  apply List.filter_eq_nil_iff.mpr
  intro r hr hopens
  obtain ⟨old, hold, rfl⟩ := List.mem_map.mp hr
  split at hopens
  · simp [Incident.opens, hf old] at hopens
  · rename_i hid
    have hmem : old ∈ t.openOf node vm := List.mem_filter.mpr ⟨hold, hopens⟩
    rw [hrow] at hmem
    exact hid (congrArg Incident.id (List.mem_singleton.mp hmem))

/-- An update that keeps an incident open keeps the number of open ones. -/
theorem length_openOf_set {t : Incidents} {id : Nat} {node vm : String} {f : Incident → Incident}
    (hf : ∀ r, (f r).node = r.node ∧ (f r).vmUuid = r.vmUuid ∧ (f r).isOpen = r.isOpen) :
    ((t.set id f).openOf node vm).length = (t.openOf node vm).length := by
  have hsame : ∀ r : Incident, (if r.id = id then { f r with id := r.id } else r).opens node vm = r.opens node vm := by
    intro r
    split
    · obtain ⟨hnode, hvm, hopen⟩ := hf r
      simp [Incident.opens, hnode, hvm, hopen]
    · rfl
  unfold Incidents.openOf Incidents.set
  rw [List.filter_map, List.length_map]
  congr 1
  apply List.filter_congr
  intro r _
  exact hsame r

theorem openRow_mem {t : Incidents} {node vm : String} {row : Incident} (h : t.openRow node vm = some row) :
    row ∈ t.openOf node vm := List.argmax_mem h

theorem openRow_none {t : Incidents} {node vm : String} (h : t.openRow node vm = none) : t.openOf node vm = [] :=
  List.argmax_eq_none.mp h

/-- With at most one open incident, the row found is all there is. -/
theorem openOf_eq_of_openRow {t : Incidents} {node vm : String} {row : Incident} (h : t.openRow node vm = some row)
    (hone : (t.openOf node vm).length ≤ 1) : t.openOf node vm = [row] := by
  have hmem := openRow_mem h
  have hpos := List.length_pos_of_mem hmem
  obtain ⟨r, hr⟩ := List.length_eq_one_iff.mp (Nat.le_antisymm hone hpos)
  rw [hr] at hmem ⊢
  rw [List.mem_singleton.mp hmem]

/-- An event is not noticed by other VMs. -/
theorem applyIncidentEvent_other (event : Event) (abuseSince : Int) (t : Incidents) {node vm : String}
    (hne : ¬ (node = event.node ∧ vm = event.vmUuid)) :
    (applyIncidentEvent event abuseSince t).openOf node vm = t.openOf node vm := by
  have hnew : ∀ (t' : Incidents) (row : Incident), row.node = event.node → row.vmUuid = event.vmUuid →
      (t'.insert row).openOf node vm = t'.openOf node vm := by
    intro t' row hnode hvm
    have hopens : row.opens node vm = false := by
      simp only [Incident.opens, hnode, hvm, Bool.and_eq_false_iff, decide_eq_false_iff_not]
      rw [← not_and_or]
      exact .inr fun h => hne ⟨h.1.symm, h.2.symm⟩
    rw [openOf_insert, hopens, if_neg Bool.false_ne_true, List.append_nil]
  unfold applyIncidentEvent
  dsimp only
  split
  · exact hnew _ _ rfl rfl
  · rename_i row hrow
    rw [hnew _ _ rfl rfl]
    exact openOf_set_other (openRow_mem hrow) (fun _ => ⟨rfl, rfl⟩) hne
  · rename_i row hrow
    exact openOf_set_other (openRow_mem hrow) (fun _ => ⟨rfl, rfl⟩) hne
  · exact hnew _ _ rfl rfl
  · exact hnew _ _ rfl rfl
  · rename_i row hrow
    exact openOf_set_other (openRow_mem hrow) (fun _ => ⟨rfl, rfl⟩) hne

/-- **After an event its VM has one open incident, or none after a recovery.** -/
theorem applyIncidentEvent_self (event : Event) (abuseSince : Int) {t : Incidents}
    (hone : (t.openOf event.node event.vmUuid).length ≤ 1) :
    ((applyIncidentEvent event abuseSince t).openOf event.node event.vmUuid).length =
      if event.eventType = .recovered then 0 else 1 := by
  have hnew : ∀ (t' : Incidents) (row : Incident), t'.openOf event.node event.vmUuid = [] →
      ((t'.insert row).openOf event.node event.vmUuid).length =
        if row.opens event.node event.vmUuid then 1 else 0 := by
    intro t' row hnone
    rw [openOf_insert, hnone]
    split <;> rfl
  have hopens : ∀ startedAt, (incidentFor event startedAt).opens event.node event.vmUuid = true := by
    intro startedAt
    simp [Incident.opens, incidentFor]
  unfold applyIncidentEvent
  dsimp only
  split
  · rename_i htype hrow
    rw [hnew _ _ (openRow_none hrow), hopens, htype]
    rfl
  · rename_i row htype hrow
    rw [hnew _ _ (openOf_set_closed (openOf_eq_of_openRow hrow hone) fun _ => rfl), hopens, htype]
    rfl
  · rename_i row htype hrow
    rw [openOf_set_closed (openOf_eq_of_openRow hrow hone) fun _ => rfl, htype]
    rfl
  · rename_i htype hrow
    rw [hnew _ _ (openRow_none hrow), htype]
    rfl
  · rename_i htype hrow
    rw [hnew _ _ (openRow_none hrow), hopens, htype]
    rfl
  · rename_i row htype hrow
    rw [length_openOf_set (f := updateRow event) fun r => ⟨rfl, rfl, rfl⟩, openOf_eq_of_openRow hrow hone, htype]
    rfl

/-- What is still open after some ids were closed was open before and is none of them. -/
theorem open_after_closing (endedAt : Int) (ids : List Nat) (t : Incidents) :
    ∀ row ∈ (ids.foldl (fun t id => t.set id (closeRow endedAt 0 [] 0)) t).rows, row.isOpen = true →
      row.id ∉ ids ∧ row ∈ t.rows := by
  induction ids generalizing t with
  | nil => exact fun row hrow _ => ⟨List.not_mem_nil, hrow⟩
  | cons id rest ih =>
      intro row hrow hopen
      obtain ⟨hnot, hmem⟩ := ih _ row hrow hopen
      obtain ⟨old, hold, heq⟩ := List.mem_map.mp hmem
      split at heq
      · rw [← heq] at hopen
        cases hopen
      · rename_i hid
        subst heq
        exact ⟨List.not_mem_cons_of_ne_of_not_mem hid hnot, hold⟩

/-- **A policy revision leaves no incident open.** -/
theorem openOf_closeAll (t : Incidents) (endedAt : Int) (node vm : String) :
    (t.closeAll endedAt).openOf node vm = [] := by
  apply List.filter_eq_nil_iff.mpr
  intro row hrow hopens
  have hopen : row.isOpen = true := (Bool.and_eq_true_iff.mp hopens).1
  obtain ⟨hnot, hmem⟩ := open_after_closing endedAt _ t row hrow hopen
  exact hnot (List.mem_map_of_mem (List.mem_filter.mpr ⟨hmem, hopen⟩))

end VirtInfra.Abuse
