import VirtInfra.Abuse.Incidents
import VirtInfra.Lib.Transition
import Mathlib.Data.Prod.Lex

/-!
# `Replay` — the incidents rebuilt from the event log (`26_abuse_intelligence.py`)

`_v48126_rebuild_incidents` throws the incidents away and applies the events of the log again, VM by VM and in the order of
their times, with the time of an event where the live writer had the beginning of the abuse. The rebuilt table has the
incidents that the live writer left, if the events of a VM came in the order of their times and no recovery or update was the
first that was seen of an abuse. Only the ids are other ones, as the VMs are no longer interleaved.

A policy revision closes incidents without an event, so that a log that spans one does not tell all of its incidents.
-/

namespace VirtInfra.Abuse

open Lib Agent

/-- **What is sorted already, a stable sort leaves in its order.** -/
theorem filter_mergeSort {α : Type*} {le : α → α → Bool} (htrans : ∀ a b c, le a b → le b c → le a c)
    (htotal : ∀ a b, le a b || le b a) {p : α → Bool} {l : List α} (h : (l.filter p).Pairwise fun a b => le a b = true) :
    (l.mergeSort le).filter p = l.filter p := by
  have hsub : (l.filter p).Sublist (l.mergeSort le) := List.sublist_mergeSort htrans htotal h List.filter_sublist
  have hfiltered := hsub.filter p
  simp only [List.filter_filter, Bool.and_self] at hfiltered
  have hlen := ((List.mergeSort_perm l le).filter p).length_eq
  exact (hfiltered.eq_of_length hlen.symm).symm

/-! ## The rebuild -/

section Rebuild

variable {α β : Type*} [LinearOrder α] [LinearOrder β]

/-- `ORDER BY node COLLATE NOCASE,vm_uuid,event_time`, under the collations of the two columns; the ids break the ties. -/
def eventOrder (nocase : String → α) (collate : String → β) (a b : Event) : Bool :=
  toLex (nocase a.node, toLex (collate a.vmUuid, a.eventTime)) ≤ toLex (nocase b.node, toLex (collate b.vmUuid, b.eventTime))

/-- `DELETE FROM vm_abuse_incidents`; the sequence of the ids goes on. -/
def Incidents.clear (t : Incidents) : Incidents := ⟨[], t.nextId, List.nodup_nil, fun _ h => absurd h List.not_mem_nil⟩

/-- **`_v48126_rebuild_incidents`**, with the events since `cutoff`. -/
def rebuildIncidents (nocase : String → α) (collate : String → β) (cutoff : Int) (log : Log) : Log :=
  { log with
    incidents := ((log.events.filter fun event => cutoff ≤ event.eventTime).mergeSort (eventOrder nocase collate)).foldl
      (fun t event => applyIncidentEvent event event.eventTime t) log.incidents.clear }

variable (nocase : String → α) (collate : String → β)

theorem eventOrder_trans (a b c : Event) (hab : eventOrder nocase collate a b = true)
    (hbc : eventOrder nocase collate b c = true) : eventOrder nocase collate a c = true := by
  simp only [eventOrder, decide_eq_true_eq] at hab hbc ⊢
  exact hab.trans hbc

theorem eventOrder_total (a b : Event) :
    (eventOrder nocase collate a b || eventOrder nocase collate b a) = true := by
  simp only [eventOrder, Bool.or_eq_true, decide_eq_true_eq]
  exact le_total _ _

/-- The events of one VM come in the order of their times. -/
theorem eventOrder_of_same {a b : Event} (hnode : a.node = b.node) (hvm : a.vmUuid = b.vmUuid)
    (htime : a.eventTime ≤ b.eventTime) : eventOrder nocase collate a b = true := by
  simp only [eventOrder, decide_eq_true_eq, hnode, hvm]
  exact Prod.Lex.toLex_le_toLex.mpr (.inr ⟨rfl, Prod.Lex.toLex_le_toLex.mpr (.inr ⟨rfl, htime⟩)⟩)

end Rebuild

/-! ## The incidents of one VM -/

/-- Whether an event is of a VM. -/
def Event.isOf (event : Event) (node vm : String) : Bool := event.node = node && event.vmUuid = vm

/-- Whether an incident is of a VM. -/
def Incident.isOf (row : Incident) (node vm : String) : Bool := row.node = node && row.vmUuid = vm

/-- An incident but for its id. -/
def Incident.anonymous (row : Incident) : Incident := { row with id := 0 }

/-- **The incidents of a VM, in the order they were opened in**, but for their ids. -/
def Incidents.history (t : Incidents) (node vm : String) : List Incident :=
  (t.rows.filter fun row => row.isOf node vm).map Incident.anonymous

/-- An assignment to the open incident. -/
def onOpen (f : Incident → Incident) (row : Incident) : Incident := if row.isOpen then f row else row

/-- **What an event does to the history of its VM.** -/
def Event.record (event : Event) (abuseSince : Int) (history : List Incident) : List Incident :=
  let severity := max 0 event.severity
  let flags := flagUnion [event.abuseFlags]
  match event.eventType, history.any Incident.isOpen with
  | .started, _ =>
      history.map (onOpen (closeRow event.eventTime severity flags 0)) ++ [incidentFor event event.eventTime]
  | .recovered, true => history.map (onOpen (closeRow event.eventTime severity flags 1))
  | .recovered, false =>
      let startedAt := abuseSinceOr abuseSince event.eventTime
      let duration := max 0 (event.eventTime - startedAt)
      history ++
        [{ incidentFor event startedAt with
          endedAt := some event.eventTime, durationSeconds := duration
          weightedScore := incidentScore duration severity, isOpen := false }]
  | .updated, true => history.map (onOpen (updateRow event))
  | .updated, false => history ++ [incidentFor event (abuseSinceOr abuseSince event.eventTime)]

section History

variable {t : Incidents} {row : Incident} {node vm : String} {f : Incident → Incident}

theorem isOf_iff : row.isOf node vm = true ↔ row.node = node ∧ row.vmUuid = vm := by
  simp [Incident.isOf]

theorem history_insert (t : Incidents) (row : Incident) (node vm : String) :
    (t.insert row).history node vm = t.history node vm ++ if row.isOf node vm then [row.anonymous] else [] := by
  unfold Incidents.history Incidents.insert
  rw [List.filter_append, List.map_append]
  have hsame : ({ row with id := t.nextId } : Incident).isOf node vm = row.isOf node vm := rfl
  rw [List.filter_cons, hsame]
  congr 1
  split <;> rfl

/-- Whether a VM has an open incident can be seen from its history. -/
theorem any_isOpen_history (t : Incidents) (node vm : String) :
    (t.history node vm).any Incident.isOpen = !(t.openOf node vm).isEmpty := by
  have hopens : t.openOf node vm = (t.rows.filter fun row => row.isOf node vm).filter Incident.isOpen := by
    rw [List.filter_filter]
    rfl
  rw [hopens, Incidents.history, List.any_map, Bool.eq_iff_iff, Bool.not_eq_true', List.isEmpty_eq_false_iff,
    List.any_eq_true]
  constructor
  · rintro ⟨row, hrow, hopen⟩
    exact List.ne_nil_of_mem (List.mem_filter.mpr ⟨hrow, hopen⟩)
  · intro hne
    obtain ⟨row, hrow⟩ := List.exists_mem_of_ne_nil _ hne
    obtain ⟨hmem, hopen⟩ := List.mem_filter.mp hrow
    exact ⟨row, hmem, hopen⟩

/-- An update of the only open incident of a VM is one of its history. -/
theorem history_set (hrow : t.openOf node vm = [row])
    (hf : ∀ r, (f r).node = r.node ∧ (f r).vmUuid = r.vmUuid ∧ (f r).anonymous = f r.anonymous) :
    (t.set row.id f).history node vm = (t.history node vm).map (onOpen f) := by
  have hmem : row ∈ t.openOf node vm := by rw [hrow]; exact List.mem_singleton_self _
  obtain ⟨hmemrow, hopens⟩ := List.mem_filter.mp hmem
  let g : Incident → Incident := fun r => if r.id = row.id then { f r with id := r.id } else r
  have hisOf : ∀ r, (g r).isOf node vm = r.isOf node vm := by
    intro r
    dsimp only [g]
    split
    · simp [Incident.isOf, (hf r).1, (hf r).2.1]
    · rfl
  have hfilter : (t.rows.map g).filter (fun r => r.isOf node vm) =
      (t.rows.filter fun r => r.isOf node vm).map g := by
    rw [List.filter_map]
    exact congrArg (List.map g) (List.filter_congr fun r _ => hisOf r)
  show ((t.rows.map g).filter fun r => r.isOf node vm).map Incident.anonymous = _
  rw [hfilter, Incidents.history, List.map_map, List.map_map]
  apply List.map_congr_left
  intro r hr
  obtain ⟨hmemr, hof⟩ := List.mem_filter.mp hr
  -- Of the incidents of the VM, the updated one is the one that is open.
  have hid : r.id = row.id ↔ r.isOpen = true := by
    constructor
    · intro hid
      rw [List.inj_on_of_nodup_map t.nodup hmemr hmemrow hid]
      exact (Bool.and_eq_true_iff.mp hopens).1
    · intro hopen
      have hr' : r ∈ t.openOf node vm := List.mem_filter.mpr ⟨hmemr, Bool.and_eq_true_iff.mpr ⟨hopen, hof⟩⟩
      rw [hrow] at hr'
      rw [List.mem_singleton.mp hr']
  dsimp only [Function.comp, g]
  by_cases hopen : r.isOpen = true
  · have hanonymous : onOpen f r.anonymous = f r.anonymous := if_pos hopen
    rw [if_pos (hid.mpr hopen), hanonymous, ← (hf r).2.2]
    rfl
  · have hanonymous : onOpen f r.anonymous = r.anonymous := if_neg hopen
    rw [if_neg fun h => hopen (hid.mp h), hanonymous]

/-- An update of an incident of another VM is not in its history. -/
theorem history_set_other {node' vm' : String} (hrow : row ∈ t.openOf node vm)
    (hf : ∀ r, (f r).node = r.node ∧ (f r).vmUuid = r.vmUuid) (hne : ¬ (node' = node ∧ vm' = vm)) :
    (t.set row.id f).history node' vm' = t.history node' vm' := by
  obtain ⟨hmem, hopens⟩ := List.mem_filter.mp hrow
  have hkey := isOf_iff.mp (Bool.and_eq_true_iff.mp hopens).2
  unfold Incidents.history
  congr 1
  apply filter_map_of_fixed
  intro r hr
  split
  · next hid =>
      obtain rfl : r = row := List.inj_on_of_nodup_map t.nodup hr hmem hid
      have hother : ∀ r' : Incident, r'.node = node → r'.vmUuid = vm → r'.isOf node' vm' = false := by
        intro r' hnode hvm
        rw [Bool.eq_false_iff, Ne, isOf_iff, hnode, hvm]
        exact fun h => hne ⟨h.1.symm, h.2.symm⟩
      rw [hother { f r with id := r.id } ((hf r).1.trans hkey.1) ((hf r).2.trans hkey.2), hother r hkey.1 hkey.2]
      exact ⟨rfl, fun h => absurd h Bool.false_ne_true⟩
  · exact ⟨rfl, fun _ => rfl⟩

end History

/-! ## One event -/

section Event

variable (event : Event) (abuseSince : Int) {t : Incidents}

/-- Where nothing is open, nothing is assigned. -/
theorem map_onOpen_of_none {f : Incident → Incident} {history : List Incident}
    (h : history.any Incident.isOpen = false) : history.map (onOpen f) = history := by
  rw [List.any_eq_false] at h
  exact (List.map_congr_left fun row hrow => if_neg (h row hrow)).trans (List.map_id history)

/-- **An event is recorded in the history of its VM.** -/
theorem history_apply_self (hone : (t.openOf event.node event.vmUuid).length ≤ 1) :
    (applyIncidentEvent event abuseSince t).history event.node event.vmUuid =
      event.record abuseSince (t.history event.node event.vmUuid) := by
  have hnew : ∀ (t' : Incidents) (row : Incident), row.node = event.node → row.vmUuid = event.vmUuid →
      (t'.insert row).history event.node event.vmUuid = t'.history event.node event.vmUuid ++ [row.anonymous] := by
    intro t' row hnode hvm
    rw [history_insert, if_pos (isOf_iff.mpr ⟨hnode, hvm⟩)]
  unfold applyIncidentEvent Event.record
  dsimp only
  rw [any_isOpen_history]
  cases hrow : t.openRow event.node event.vmUuid with
  | none =>
      have hnone := openRow_none hrow
      have hany : (t.history event.node event.vmUuid).any Incident.isOpen = false := by
        rw [any_isOpen_history, hnone]
        rfl
      rw [hnone]
      cases event.eventType with
      | started =>
          refine (hnew t _ rfl rfl).trans ?_
          exact congrArg (· ++ _) (map_onOpen_of_none hany).symm
      | updated => exact hnew t _ rfl rfl
      | recovered => exact hnew t _ rfl rfl
  | some row =>
      have hopen := openOf_eq_of_openRow hrow hone
      rw [hopen]
      have hset : ∀ f : Incident → Incident, (∀ r, (f r).node = r.node ∧ (f r).vmUuid = r.vmUuid ∧
          (f r).anonymous = f r.anonymous) → (t.set row.id f).history event.node event.vmUuid =
            (t.history event.node event.vmUuid).map (onOpen f) := fun _ => history_set hopen
      cases event.eventType with
      | started =>
          refine (hnew _ _ rfl rfl).trans ?_
          rw [hset (closeRow _ _ _ _) fun r => ⟨rfl, rfl, rfl⟩]
          rfl
      | updated => exact hset (updateRow event) fun r => ⟨rfl, rfl, rfl⟩
      | recovered => exact hset (closeRow _ _ _ _) fun r => ⟨rfl, rfl, rfl⟩

/-- **Other histories do not notice it.** -/
theorem history_apply_other {node vm : String} (hne : ¬ (node = event.node ∧ vm = event.vmUuid)) :
    (applyIncidentEvent event abuseSince t).history node vm = t.history node vm := by
  have hnew : ∀ (t' : Incidents) (row : Incident), row.node = event.node → row.vmUuid = event.vmUuid →
      (t'.insert row).history node vm = t'.history node vm := by
    intro t' row hnode hvm
    have hof : row.isOf node vm = false := by
      rw [Bool.eq_false_iff, Ne, isOf_iff, hnode, hvm]
      exact fun h => hne ⟨h.1.symm, h.2.symm⟩
    rw [history_insert, hof, if_neg Bool.false_ne_true, List.append_nil]
  unfold applyIncidentEvent
  dsimp only
  split
  · exact hnew _ _ rfl rfl
  · next row hrow =>
      rw [hnew _ _ rfl rfl]
      exact history_set_other (openRow_mem hrow) (fun _ => ⟨rfl, rfl⟩) hne
  · next row hrow => exact history_set_other (openRow_mem hrow) (fun _ => ⟨rfl, rfl⟩) hne
  · exact hnew _ _ rfl rfl
  · exact hnew _ _ rfl rfl
  · next row hrow => exact history_set_other (openRow_mem hrow) (fun _ => ⟨rfl, rfl⟩) hne

end Event

/-! ## Runs -/

/-- No VM has more than one open incident. -/
def Incidents.OneOpen (t : Incidents) : Prop := ∀ node vm, (t.openOf node vm).length ≤ 1

theorem Incidents.OneOpen.apply {t : Incidents} (h : t.OneOpen) (event : Event) (abuseSince : Int) :
    (applyIncidentEvent event abuseSince t).OneOpen := by
  intro node vm
  by_cases hown : node = event.node ∧ vm = event.vmUuid
  · obtain ⟨rfl, rfl⟩ := hown
    rw [applyIncidentEvent_self event abuseSince (h _ _)]
    split <;> decide
  · rw [applyIncidentEvent_other event abuseSince t hown]
    exact h node vm

/-- What the rebuild does with an event. -/
def Event.replay (history : List Incident) (event : Event) : List Incident := event.record event.eventTime history

/-- **The rebuild goes VM by VM**: a history is told by the events of its VM alone. -/
theorem history_foldl (events : List Event) {t : Incidents} (h : t.OneOpen) (node vm : String) :
    (events.foldl (fun t event => applyIncidentEvent event event.eventTime t) t).history node vm =
      (events.filter fun event => event.isOf node vm).foldl Event.replay (t.history node vm) := by
  induction events generalizing t with
  | nil => rfl
  | cons event rest ih =>
      rw [List.foldl_cons, ih (h.apply event event.eventTime), List.filter_cons]
      by_cases hown : node = event.node ∧ vm = event.vmUuid
      · obtain ⟨rfl, rfl⟩ := hown
        have hof : event.isOf event.node event.vmUuid = true := by simp [Event.isOf]
        rw [if_pos hof, List.foldl_cons, history_apply_self event event.eventTime (h _ _)]
        rfl
      · have hof : ¬ event.isOf node vm = true := by
          simp only [Event.isOf, Bool.and_eq_true, decide_eq_true_eq]
          exact fun heq => hown ⟨heq.1.symm, heq.2.symm⟩
        rw [if_neg hof, history_apply_other event event.eventTime hown]

/-- **The live writer**: each step writes an event, with the `abuse_since` that goes with it. -/
def incidentLog : System Log (Event × Int) where
  init log := log = ⟨[], .empty⟩
  step log l := some (log.insertAbuseEvent l.1 l.2)

/-- **An event that the log tells as it was**: it is not older than the last one of its VM, and an update or a recovery that
finds no open incident has no earlier beginning than itself. -/
structure InOrder (log : Log) (l : Event × Int) : Prop where
  later : ∀ event ∈ log.events, event.isOf l.1.node l.1.vmUuid = true → event.eventTime ≤ l.1.eventTime
  begun : l.1.eventType ≠ .started → log.incidents.openOf l.1.node l.1.vmUuid = [] →
    abuseSinceOr l.2 l.1.eventTime = abuseSinceOr l.1.eventTime l.1.eventTime

/-- What the live writer has recorded. -/
structure Recorded (log : Log) : Prop where
  oneOpen : log.incidents.OneOpen
  history : ∀ node vm, log.incidents.history node vm =
    (log.events.filter fun event => event.isOf node vm).foldl Event.replay []
  sorted : ∀ node vm, (log.events.filter fun event => event.isOf node vm).Pairwise fun a b => a.eventTime ≤ b.eventTime

/-- The beginning of the abuse is used where nothing is open, and only there. -/
theorem record_eq_replay {log : Log} {l : Event × Int} (h : InOrder log l) :
    l.1.record l.2 (log.incidents.history l.1.node l.1.vmUuid) =
      l.1.replay (log.incidents.history l.1.node l.1.vmUuid) := by
  unfold Event.replay Event.record
  dsimp only
  rw [any_isOpen_history]
  cases hopen : log.incidents.openOf l.1.node l.1.vmUuid with
  | cons row rest => cases l.1.eventType <;> rfl
  | nil =>
      cases htype : l.1.eventType with
      | started => rfl
      | updated =>
          have hbegun := h.begun (by rw [htype]; decide) hopen
          simp only [hbegun]
      | recovered =>
          have hbegun := h.begun (by rw [htype]; decide) hopen
          simp only [hbegun]

theorem Recorded.step {log : Log} (h : Recorded log) {l : Event × Int} (hl : InOrder log l) :
    Recorded (log.insertAbuseEvent l.1 l.2) := by
  obtain ⟨event, abuseSince⟩ := l
  unfold Log.insertAbuseEvent
  split
  · exact h
  · refine ⟨h.oneOpen.apply event abuseSince, fun node vm => ?_, fun node vm => ?_⟩
    · dsimp only
      rw [List.filter_append, List.foldl_append, ← h.history]
      by_cases hown : node = event.node ∧ vm = event.vmUuid
      · obtain ⟨rfl, rfl⟩ := hown
        rw [history_apply_self event abuseSince (h.oneOpen _ _), record_eq_replay hl]
        simp [Event.isOf]
      · rw [history_apply_other event abuseSince hown]
        have hof : event.isOf node vm = false := by
          simp only [Event.isOf, Bool.and_eq_false_iff, decide_eq_false_iff_not, ← not_and_or]
          exact fun heq => hown ⟨heq.1.symm, heq.2.symm⟩
        simp [hof]
    · dsimp only
      rw [List.filter_append, List.pairwise_append]
      refine ⟨h.sorted node vm, (List.pairwise_singleton _ event).sublist List.filter_sublist, fun a ha b hb => ?_⟩
      obtain ⟨hb, hof⟩ := List.mem_filter.mp hb
      obtain rfl := List.mem_singleton.mp hb
      obtain ⟨ha, hofa⟩ := List.mem_filter.mp ha
      have hkey : b.node = node ∧ b.vmUuid = vm := by simpa [Event.isOf] using hof
      exact hl.later a ha (by rw [hkey.1, hkey.2]; exact hofa)

theorem Recorded.of_reachable {log : Log} (h : System.Reachable incidentLog InOrder log) : Recorded log := by
  refine h.invariant (fun log hinit => ?_) fun _ _ _ _ hrecorded hok hstep => ?_
  · obtain rfl := hinit
    exact ⟨fun _ _ => Nat.zero_le _, fun _ _ => rfl, fun _ _ => List.Pairwise.nil⟩
  · obtain rfl := Option.some.inj hstep
    exact hrecorded.step hok

/-- **The rebuilt incidents are the incidents**: after any run of the live writer whose log tells what happened, the rebuild
from the log gives every VM the incidents it had, in their order, and leaves the log alone. -/
theorem rebuild_incidents_eq {α β : Type*} [LinearOrder α] [LinearOrder β] (nocase : String → α) (collate : String → β)
    {cutoff : Int} {log : Log} (h : System.Reachable incidentLog InOrder log)
    (hcutoff : ∀ event ∈ log.events, cutoff ≤ event.eventTime) :
    (rebuildIncidents nocase collate cutoff log).events = log.events ∧
      ∀ node vm, (rebuildIncidents nocase collate cutoff log).incidents.history node vm =
        log.incidents.history node vm := by
  have hrecorded := Recorded.of_reachable h
  refine ⟨rfl, fun node vm => ?_⟩
  have hall : (log.events.filter fun event => cutoff ≤ event.eventTime) = log.events :=
    List.filter_eq_self.mpr fun event hevent => decide_eq_true (hcutoff event hevent)
  -- The sort leaves the events of one VM in the order of the log.
  have hsorted : (log.events.filter fun event => event.isOf node vm).Pairwise
      fun a b => eventOrder nocase collate a b = true := by
    refine (hrecorded.sorted node vm).imp_of_mem fun {a b} ha hb htime => ?_
    have hkey : ∀ {e : Event}, e ∈ (log.events.filter fun event => event.isOf node vm) → e.node = node ∧ e.vmUuid = vm :=
      fun he => by simpa [Event.isOf] using (List.mem_filter.mp he).2
    exact eventOrder_of_same nocase collate ((hkey ha).1.trans (hkey hb).1.symm) ((hkey ha).2.trans (hkey hb).2.symm) htime
  have hclear : log.incidents.clear.OneOpen := fun _ _ => Nat.zero_le _
  show (List.foldl _ log.incidents.clear _).history node vm = _
  rw [history_foldl _ hclear, hall,
    filter_mergeSort (eventOrder_trans nocase collate) (eventOrder_total nocase collate) hsorted, hrecorded.history]
  rfl

/-! ## Two VMs at once -/

/-- The start of an abuse. -/
def startOf (time : Int) (vm : String) : Event :=
  { eventTime := time, eventType := .started, node := "n1", vmUuid := vm, abuseFlags := [], severity := 1, policyRevision := 1 }

/-- Two VMs whose events are interleaved: the first one recovers between the events of the other one. -/
def interleaved : List (Event × Int) :=
  [(startOf 300 "b", 300), (startOf 600 "a", 600), ({ startOf 900 "b" with eventType := .recovered }, 300),
    ({ startOf 1200 "a" with eventType := .updated, severity := 2 }, 600)]

/-- What the live writer makes of them. -/
def interleavedLog : Log := interleaved.foldl (fun log l => log.insertAbuseEvent l.1 l.2) ⟨[], .empty⟩

theorem rebuild_interleaved :
    (rebuildIncidents String.length String.length 0 interleavedLog).events = interleavedLog.events ∧
      ∀ node vm, (rebuildIncidents String.length String.length 0 interleavedLog).incidents.history node vm =
        interleavedLog.incidents.history node vm := by
  have write : ∀ {log : Log} (l : Event × Int), System.Reachable incidentLog InOrder log → InOrder log l →
      System.Reachable incidentLog InOrder (log.insertAbuseEvent l.1 l.2) := fun _ h hl => .step h hl rfl
  have first := write (startOf 300 "b", 300) (.init rfl) ⟨by decide +kernel, by decide +kernel⟩
  have second := write (startOf 600 "a", 600) first ⟨by decide +kernel, by decide +kernel⟩
  have third := write ({ startOf 900 "b" with eventType := .recovered }, 300) second
    ⟨by decide +kernel, by decide +kernel⟩
  have fourth := write ({ startOf 1200 "a" with eventType := .updated, severity := 2 }, 600) third
    ⟨by decide +kernel, by decide +kernel⟩
  exact rebuild_incidents_eq String.length String.length (show System.Reachable incidentLog InOrder interleavedLog from fourth) (by decide +kernel)

end VirtInfra.Abuse
