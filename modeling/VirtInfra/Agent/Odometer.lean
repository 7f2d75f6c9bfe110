import VirtInfra.Agent.Listed

/-!
# `Odometer` — no delta is more than what passed

Take an odometer to every interface that runs on when its counters are reset. A report is fair when its deltas are at most
what the odometer gained since the interface was last reported. Saved counters are honest when the counters gained no more
on them than the odometer on its note, so a cycle that reads the real counters reports fairly and saves honestly
(`collectCycle_fair`). A file that cannot be read is saved as a zero, which is not honest.
-/

namespace VirtInfra.Agent

open Lib Python

/-! ## Reports -/

/-- What a report is about: an interface of a VM, or an uplink. -/
inductive MeterKey
  | vm (vm iface : String)
  | uplink (uplink : Uplink)
  deriving DecidableEq

def MeterKey.iface : MeterKey → String
  | .vm _ iface => iface
  | .uplink u => u.iface

structure Report where
  key : MeterKey
  deltas : Counters

def NetRow.report (row : NetRow) : Report := ⟨.vm row.vmUuid row.iface, row.deltas⟩

def PhysicalRow.report (row : PhysicalRow) : Report := ⟨.uplink row.uplink, row.deltas⟩

/-- The rows of a payload that report counters. -/
def CyclePayload.reports (payload : CyclePayload) : List Report :=
  payload.netRows.map NetRow.report ++ payload.physicalInterfaces.map PhysicalRow.report

/-- What had passed through an interface when it was last reported. -/
abbrev Odometer := MeterKey → Option Counters

def Odometer.note (passed : String → Counters) (odo : Odometer) (report : Report) : Odometer :=
  fun key => if key = report.key then some (passed key.iface) else odo key

/-- **Every report gives at most what passed since the one before it.** What was never reported has no delta. -/
def Fair (passed : String → Counters) : Odometer → List Report → Prop
  | _, [] => True
  | odo, report :: rest =>
      report.deltas + (odo report.key).getD (passed report.key.iface) ≤ passed report.key.iface ∧
      Fair passed (odo.note passed report) rest

/-- The payloads of a run report fairly, each against what the odometers show in its cycle. -/
def FairRun : Odometer → List (CyclePayload × Host) → Prop
  | _, [] => True
  | odo, (payload, h) :: rest =>
      Fair h.passed odo payload.reports ∧ FairRun (payload.reports.foldl (Odometer.note h.passed) odo) rest

instance decidableFair (passed : String → Counters) : ∀ odo reports, Decidable (Fair passed odo reports)
  | _, [] => .isTrue trivial
  | odo, report :: rest =>
      have := decidableFair passed (odo.note passed report) rest
      inferInstanceAs (Decidable (_ ∧ _))

instance decidableFairRun : ∀ odo run, Decidable (FairRun odo run)
  | _, [] => .isTrue trivial
  | odo, (payload, h) :: rest =>
      have := decidableFairRun (payload.reports.foldl (Odometer.note h.passed) odo) rest
      inferInstanceAs (Decidable (_ ∧ _))

theorem Odometer.note_self (passed : String → Counters) (odo : Odometer) (key : MeterKey) (deltas : Counters) :
    odo.note passed ⟨key, deltas⟩ key = some (passed key.iface) := if_pos rfl

theorem Odometer.note_other (passed : String → Counters) (odo : Odometer) {report : Report} {key : MeterKey}
    (h : key ≠ report.key) : odo.note passed report key = odo key := if_neg h

theorem fair_append (passed : String → Counters) (odo : Odometer) (reports rest : List Report) :
    Fair passed odo (reports ++ rest) ↔
      Fair passed odo reports ∧ Fair passed (reports.foldl (Odometer.note passed) odo) rest := by
  induction reports generalizing odo with
  | nil => simp [Fair]
  | cons report reports ih => simp only [List.cons_append, Fair, ih, List.foldl_cons, and_assoc]

/-! ## Honest counters -/

variable {h : Host} {key : MeterKey} {odo : Odometer} {state : MetricState} {physical : PhysicalState}

/-- Since the saved counters, the counters gained no more than the odometer since its note. -/
def Backed (h : Host) (key : MeterKey) (saved noted : Option Counters) : Prop :=
  ∀ old ∈ saved, ∃ mark ∈ noted, h.counters key.iface + mark ≤ old + h.passed key.iface

/-- All that is saved is backed, and no odometer goes back. -/
structure Honest (h : Host) (state : MetricState) (physical : PhysicalState) (odo : Odometer) : Prop where
  vms : ∀ vm iface, Backed h (.vm vm iface) (state.saved vm iface) (odo (.vm vm iface))
  uplinks : ∀ uplink, Backed h (.uplink uplink) (physical uplink) (odo (.uplink uplink))
  noted : ∀ key, ∀ mark ∈ odo key, mark ≤ h.passed key.iface

theorem deltaCounter_add_le {new old mark passed : Nat} (h : new + mark ≤ old + passed) (hmark : mark ≤ passed) :
    deltaCounter new old + mark ≤ passed := by
  unfold deltaCounter
  split <;> omega

theorem zipWith_deltaCounter_add_le {new old mark passed : Counters} (h : new + mark ≤ old + passed)
    (hmark : mark ≤ passed) : Counters.zipWith deltaCounter new old + mark ≤ passed := by
  obtain ⟨h₁, h₂, h₃, h₄, h₅, h₆, h₇, h₈⟩ := h
  obtain ⟨m₁, m₂, m₃, m₄, m₅, m₆, m₇, m₈⟩ := hmark
  exact ⟨deltaCounter_add_le h₁ m₁, deltaCounter_add_le h₂ m₂, deltaCounter_add_le h₃ m₃, deltaCounter_add_le h₄ m₄,
    deltaCounter_add_le h₅ m₅, deltaCounter_add_le h₆ m₆, deltaCounter_add_le h₇ m₇, deltaCounter_add_le h₈ m₈⟩

/-- The delta of real counters to backed ones is fair. -/
theorem Backed.fair {saved : Option Counters} (hbacked : Backed h key saved (odo key))
    (hnoted : ∀ mark ∈ odo key, mark ≤ h.passed key.iface) :
    Counters.zipWith deltaCounter (h.counters key.iface) (saved.getD (h.counters key.iface)) +
      (odo key).getD (h.passed key.iface) ≤ h.passed key.iface := by
  cases saved with
  | some old =>
      obtain ⟨mark, hmark, hle⟩ := hbacked old rfl
      rw [hmark]
      exact zipWith_deltaCounter_add_le hle (hnoted mark hmark)
  | none =>
      rw [Option.getD_none, zipWith_deltaCounter_self, zero_add]
      cases hmark : odo key with
      | none => exact Counters.le_refl _
      | some mark => exact hnoted mark hmark

theorem backed_note (h : Host) (key : MeterKey) :
    Backed h key (some (h.counters key.iface)) (some (h.passed key.iface)) := by
  intro old hold
  obtain rfl := Option.some.inj hold
  exact ⟨_, rfl, Counters.le_refl _⟩

theorem Honest.noted_note (hhonest : Honest h state physical odo) (report : Report) :
    ∀ key, ∀ mark ∈ odo.note h.passed report key, mark ≤ h.passed key.iface := by
  intro key mark hmark
  by_cases hkey : key = report.key
  · subst hkey
    rw [Odometer.note_self] at hmark
    obtain rfl := Option.some.inj hmark
    exact Counters.le_refl _
  · rw [Odometer.note_other _ _ hkey] at hmark
    exact hhonest.noted key mark hmark

/-- Saving the real counters of a VM's interface as it is reported. -/
theorem Honest.note_vm (hhonest : Honest h state physical odo) (vm iface : String) (deltas : Counters) :
    Honest h (state.set (.net vm iface) (h.counters iface)) physical (odo.note h.passed ⟨.vm vm iface, deltas⟩) where
  vms := by
    intro vm' iface'
    by_cases hkey : vm' = vm ∧ iface' = iface
    · obtain ⟨rfl, rfl⟩ := hkey
      rw [MetricState.saved_set_self, Odometer.note_self]
      exact backed_note h (.vm vm' iface')
    · rw [MetricState.saved_set_other _ hkey, Odometer.note_other _ _ (by simpa using hkey)]
      exact hhonest.vms vm' iface'
  uplinks := by
    intro uplink
    rw [Odometer.note_other _ _ (by simp)]
    exact hhonest.uplinks uplink
  noted := hhonest.noted_note _

theorem Honest.note_uplink (hhonest : Honest h state physical odo) (uplink : Uplink) (deltas : Counters) :
    Honest h state (fun u => if u = uplink then some (h.counters uplink.iface) else physical u)
      (odo.note h.passed ⟨.uplink uplink, deltas⟩) where
  vms := by
    intro vm iface
    rw [Odometer.note_other _ _ (by simp)]
    exact hhonest.vms vm iface
  uplinks := by
    intro u
    by_cases hkey : u = uplink
    · subst hkey
      rw [if_pos rfl, Odometer.note_self]
      exact backed_note h (.uplink u)
    · rw [if_neg hkey, Odometer.note_other _ _ (by simpa using hkey)]
      exact hhonest.uplinks u
  noted := hhonest.noted_note _

/-! ## One cycle -/

/-- A walk that reads real counters, whichever saved counters it looks up. -/
theorem collectWith_fair {lookup : MetricState → Nic → Option Counters} {nics : List Nic}
    (hlookup : ∀ state nic, ∀ old ∈ lookup state nic, old ∈ state.saved nic.vm nic.iface)
    (hreal : ∀ nic ∈ nics, ∀ c ∈ nic.counters, c = h.counters nic.iface) (hhonest : Honest h state physical odo) :
    Fair h.passed odo ((collectWith lookup nics state).1.map NetRow.report) ∧
    Honest h (collectWith lookup nics state).2 physical
      (((collectWith lookup nics state).1.map NetRow.report).foldl (Odometer.note h.passed) odo) := by
  induction nics generalizing state odo with
  | nil => exact ⟨trivial, hhonest⟩
  | cons nic rest ih =>
      have hrest := fun other hother => hreal other (List.mem_cons_of_mem nic hother)
      unfold collectWith
      cases hc : nic.counters with
      | none => exact ih hrest hhonest
      | some c =>
          obtain rfl := hreal nic (by simp) c hc
          have hbacked : Backed h (.vm nic.vm nic.iface) (lookup state nic) (odo (.vm nic.vm nic.iface)) :=
            fun old hold => hhonest.vms nic.vm nic.iface old (hlookup state nic old hold)
          obtain ⟨hfair, hafter⟩ := ih hrest (hhonest.note_vm nic.vm nic.iface (netRow nic (lookup state nic) _).deltas)
          exact ⟨⟨hbacked.fair (hhonest.noted _), hfair⟩, hafter⟩

theorem collectPhysicalNetwork_fair {uplinks : List Uplink}
    (hreal : ∀ uplink ∈ uplinks, ∀ c ∈ collectInterfaceCounters (h.statistics uplink.iface), c = h.counters uplink.iface)
    (hhonest : Honest h state physical odo) :
    Fair h.passed odo ((collectPhysicalNetwork h.statistics uplinks physical).1.map PhysicalRow.report) ∧
    Honest h state (collectPhysicalNetwork h.statistics uplinks physical).2
      (((collectPhysicalNetwork h.statistics uplinks physical).1.map PhysicalRow.report).foldl
        (Odometer.note h.passed) odo) := by
  induction uplinks generalizing physical odo with
  | nil => exact ⟨trivial, hhonest⟩
  | cons uplink rest ih =>
      have hrest := fun other hother => hreal other (List.mem_cons_of_mem uplink hother)
      unfold collectPhysicalNetwork
      cases hc : collectInterfaceCounters (h.statistics uplink.iface) with
      | none => exact ih hrest hhonest
      | some c =>
          obtain rfl := hreal uplink (by simp) c hc
          obtain ⟨hfair, hafter⟩ := ih hrest
            (hhonest.note_uplink uplink (Counters.zipWith deltaCounter _ ((physical uplink).getD _)))
          exact ⟨⟨(hhonest.uplinks uplink).fair (hhonest.noted _), hfair⟩, hafter⟩

/-- Every interface that the cycle reads gives its real counters, and no counters of a legacy key come back: an interface
    that a full cycle does not read has none, or has no others. -/
structure Truthful (collector : Collector) (h : Host) : Prop where
  vms : ∀ nic ∈ (h.reading collector.ifaceMap).nics, ∀ c ∈ nic.counters, c = h.counters nic.iface
  uplinks : ∀ uplink ∈ h.uplinks, ∀ c ∈ collectInterfaceCounters (h.statistics uplink.iface),
    c = h.counters uplink.iface
  legacy : h.heavyCollectionSkipped = false → h.virshList.isSome = true →
    ∀ vm iface, readings vm iface h.nics = [] →
      collector.state.counters (.legacy vm iface) = none ∨
      collector.state.saved vm iface = collector.state.counters (.legacy vm iface)

theorem Honest.prune (hhonest : Honest h state physical odo) {active : List (String × String)} {complete : Bool}
    (hlegacy : complete = true → ∀ vm iface, (vm, iface) ∉ active →
      ∀ old ∈ state.counters (.legacy vm iface), old ∈ state.saved vm iface) :
    Honest h (pruneMetricState state active complete) physical odo := by
  refine ⟨?_, hhonest.uplinks, hhonest.noted⟩
  intro vm iface old hold
  apply hhonest.vms vm iface old
  unfold MetricState.saved pruneMetricState at hold
  dsimp only at hold
  split at hold
  next hdrop =>
    obtain ⟨hcomplete, hnot⟩ : complete = true ∧ (vm, iface) ∉ active := by simpa using hdrop
    rw [Option.none_or] at hold
    exact hlegacy hcomplete vm iface hnot old hold
  next => exact hold

/-- The rows of a truthful cycle are fair, and its state is honest. -/
theorem collectRows_fair {collector : Collector} (htruth : Truthful collector h)
    (hhonest : Honest h collector.state physical odo) :
    Fair h.passed odo ((collectRows collector.state (h.reading collector.ifaceMap)).1.map NetRow.report) ∧
    Honest h (collectRows collector.state (h.reading collector.ifaceMap)).2 physical
      (((collectRows collector.state (h.reading collector.ifaceMap)).1.map NetRow.report).foldl
        (Odometer.note h.passed) odo) := by
  unfold collectRows
  split
  next hheavy =>
    apply collectWith_fair _ htruth.vms hhonest
    intro state nic old hold
    rw [MetricState.saved, hold]
    rfl
  next hheavy =>
    have hfull : h.heavyCollectionSkipped = false := by simpa [Host.reading] using hheavy
    have hnics : (h.reading collector.ifaceMap).nics = h.nics := by simp [Host.reading, hfull]
    obtain ⟨hfair, hafter⟩ := collectWith_fair (fun _ _ _ hold => hold) htruth.vms hhonest
    refine ⟨hfair, hafter.prune ?_⟩
    intro hcomplete vm iface hnot old hold
    rw [collectWith_legacy] at hold
    have hread : readings vm iface h.nics = [] := by
      rw [← hnics]
      exact not_not.mp (mt mem_collectWith_rows.mpr hnot)
    -- nothing of this interface was read, so what is saved of it is what was saved before
    have hsaved : (collectNetwork h.nics collector.state).2.saved vm iface = collector.state.saved vm iface := by
      have hwalked := collectNetworkFromMapping_saved vm iface h.nics collector.state.adopt
      rwa [← (collectNetwork_adopt h.nics collector.state).2, hread] at hwalked
    rw [hnics]
    show old ∈ (collectNetwork h.nics collector.state).2.saved vm iface
    rcases htruth.legacy hfull hcomplete vm iface hread with hnone | hsame
    · rw [hnone] at hold
      cases hold
    · rwa [hsaved, hsame]

variable {node : NodeName} {warn : ℚ} {collector : Collector}

/-- **A truthful cycle reports fairly and saves honestly.** -/
theorem collectCycle_fair (node : NodeName) (warn : ℚ) (window : NetWindow) (htruth : Truthful collector h)
    (hhonest : Honest h collector.state collector.physical odo) :
    Fair h.passed odo (collectCycle node warn collector window h).1.reports ∧
    Honest h (collectCycle node warn collector window h).2.state (collectCycle node warn collector window h).2.physical
      ((collectCycle node warn collector window h).1.reports.foldl (Odometer.note h.passed) odo) := by
  have hrows : (collectCycle node warn collector window h).1.netRows =
      (collectRows collector.state (h.reading collector.ifaceMap)).1 :=
    collectCyclePayload_netRows warn collector.state window (h.reading collector.ifaceMap)
  obtain ⟨hfair, hnet⟩ := collectRows_fair htruth hhonest
  obtain ⟨hfairUplinks, hafter⟩ := collectPhysicalNetwork_fair htruth.uplinks hnet
  rw [← hrows] at hfair hafter hfairUplinks
  unfold CyclePayload.reports
  rw [fair_append, List.foldl_append]
  exact ⟨⟨hfair, hfairUplinks⟩, ⟨hafter.vms, hafter.uplinks, hafter.noted⟩⟩

/-! ## Runs -/

/-- From one cycle to the next the counters gain no more than the odometers, which never go back; they may be reset. -/
def Passes (h next : Host) : Prop :=
  ∀ iface, h.passed iface ≤ next.passed iface ∧
    next.counters iface + h.passed iface ≤ h.counters iface + next.passed iface

theorem Counters.add_le_add_of_le {c c' p p' mark old : Counters} (hpass : c' + p ≤ c + p') (h : c + mark ≤ old + p) :
    c' + mark ≤ old + p' := by
  have hfield : ∀ {c c' p p' mark old : Nat}, c' + p ≤ c + p' → c + mark ≤ old + p → c' + mark ≤ old + p' := by
    intro c c' p p' mark old hpass h
    omega
  obtain ⟨h₁, h₂, h₃, h₄, h₅, h₆, h₇, h₈⟩ := h
  obtain ⟨p₁, p₂, p₃, p₄, p₅, p₆, p₇, p₈⟩ := hpass
  exact ⟨hfield p₁ h₁, hfield p₂ h₂, hfield p₃ h₃, hfield p₄ h₄, hfield p₅ h₅, hfield p₆ h₆, hfield p₇ h₇,
    hfield p₈ h₈⟩

theorem Backed.pass {next : Host} {saved noted : Option Counters} (hbacked : Backed h key saved noted)
    (hpass : Passes h next) : Backed next key saved noted := by
  intro old hold
  obtain ⟨mark, hmark, hle⟩ := hbacked old hold
  exact ⟨mark, hmark, Counters.add_le_add_of_le (hpass key.iface).2 hle⟩

theorem Honest.pass {next : Host} (hhonest : Honest h state physical odo) (hpass : Passes h next) :
    Honest next state physical odo where
  vms vm iface := (hhonest.vms vm iface).pass hpass
  uplinks uplink := (hhonest.uplinks uplink).pass hpass
  noted key mark hmark := Counters.le_trans (hhonest.noted key mark hmark) (hpass key.iface).1

/-- **No traffic is invented in a run of truthful cycles**: from counters that were saved honestly, every delta of every
    payload is at most what passed through its interface since it was last reported. -/
theorem no_traffic_invented {run : List (NetWindow × Host)} (hhonest : Honest h collector.state collector.physical odo)
    (hpass : (h :: run.map Prod.snd).IsChain Passes) (htruth : EachCycle node warn Truthful collector run) :
    FairRun odo ((collectRun node warn collector run).1.zip (run.map Prod.snd)) := by
  induction run generalizing h collector odo with
  | nil => trivial
  | cons cycle run ih =>
      obtain ⟨window, next⟩ := cycle
      obtain ⟨hthis, hrest⟩ := htruth
      obtain ⟨hstep, hpasses⟩ := List.isChain_cons_cons.mp hpass
      obtain ⟨hfair, hafter⟩ := collectCycle_fair node warn window hthis (hhonest.pass hstep)
      exact ⟨hfair, ih hafter hpasses hrest⟩

/-! ### A VM of one interface -/

theorem newCollector_honest (h : Host) : Honest h newCollector.state newCollector.physical fun _ => none := by
  refine ⟨?_, ?_, ?_⟩
  · intro vm iface old hold
    cases hold
  · intro uplink old hold
    cases hold
  · intro key mark hmark
    cases hmark

theorem collectCycle_legacy (node : NodeName) (warn : ℚ) (collector : Collector) (window : NetWindow) (h : Host)
    (vm iface : String) : (collectCycle node warn collector window h).2.state.counters (.legacy vm iface) =
      collector.state.counters (.legacy vm iface) := by
  show (collectRows collector.state (h.reading collector.ifaceMap)).2.counters (.legacy vm iface) = _
  unfold collectRows
  split
  · exact collectWith_legacy ..
  · exact collectWith_legacy ..

theorem webHost_truthful (now : Int) (rx : Nat) (lines : Option (List (List String)))
    (hlegacy : ∀ vm iface, collector.state.counters (.legacy vm iface) = none) :
    Truthful collector (webHost now rx lines) := by
  refine ⟨?_, ?_, fun _ _ vm iface _ => .inl (hlegacy vm iface)⟩
  · intro nic hnic c hc
    rw [Host.counters_of_mem_reading hnic] at hc
    exact (Option.some.inj hc).symm
  · intro uplink hmem
    cases hmem

/-- The counter of `vnet0` grew from `rx` to `rx'`, whatever the cycles could read. -/
theorem passes_of_rx {h next : Host} {rx rx' : Nat} (hle : rx ≤ rx')
    (hcounters : h.counters = fun _ => { (0 : Counters) with rx := rx }) (hpassed : h.passed = h.counters)
    (hcounters' : next.counters = fun _ => { (0 : Counters) with rx := rx' }) (hpassed' : next.passed = next.counters) :
    Passes h next := by
  intro iface
  rw [hpassed, hpassed', hcounters, hcounters']
  have hzero := Nat.le_refl 0
  refine ⟨⟨hle, hzero, hzero, hzero, hzero, hzero, hzero, hzero⟩, ?_⟩
  rw [add_comm]
  exact Counters.le_refl _

theorem no_traffic_invented_sample :
    let run := [(NetWindow.empty, webHost 600 250 webLines), (NetWindow.empty, webHost 900 300 webLines)]
    FairRun (fun _ => none)
      ((collectRun kvm1 0 newCollector run).1.zip (run.map Prod.snd)) := by
  intro run
  apply no_traffic_invented (newCollector_honest (webHost 300 100 webLines))
  · have hfirst : Passes (webHost 300 100 webLines) (webHost 600 250 webLines) := passes_of_rx (by simp) rfl rfl rfl rfl
    have hsecond : Passes (webHost 600 250 webLines) (webHost 900 300 webLines) := passes_of_rx (by simp) rfl rfl rfl rfl
    exact .cons_cons hfirst (.cons_cons hsecond (.singleton _))
  · refine ⟨webHost_truthful _ _ _ fun _ _ => rfl, webHost_truthful _ _ _ ?_, trivial⟩
    intro vm iface
    exact collectCycle_legacy ..

/-- The host of `web` while `rx_bytes` cannot be read. -/
def webHostUnread (now : Int) (rx : Nat) : Host :=
  { webHost now rx webLines with
    statistics := fun _ => some { CounterFiles.of { (0 : Counters) with rx := rx } with rxBytes := none }
    shown := by
      intro iface files hfiles
      obtain rfl := Option.some.inj hfiles
      constructor <;> simp [CounterFiles.of, webHost, eq_comm] }

/-- A file that cannot be read between two reads: the whole counter is reported as what passed since. -/
theorem traffic_invented :
    let run := [(NetWindow.empty, webHost 300 100 webLines), (NetWindow.empty, webHostUnread 600 105),
      (NetWindow.empty, webHost 900 110 webLines)]
    (run.map Prod.snd).IsChain Passes ∧
    ¬ FairRun (fun _ => none)
      ((collectRun kvm1 0 newCollector run).1.zip (run.map Prod.snd)) := by
  intro run
  refine ⟨?_, by decide +kernel⟩
  have hfirst : Passes (webHost 300 100 webLines) (webHostUnread 600 105) := passes_of_rx (by simp) rfl rfl rfl rfl
  have hsecond : Passes (webHostUnread 600 105) (webHost 900 110 webLines) := passes_of_rx (by simp) rfl rfl rfl rfl
  exact .cons_cons hfirst (.cons_cons hsecond (.singleton _))

end VirtInfra.Agent
