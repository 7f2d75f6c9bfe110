import VirtInfra.Agent.Host

/-!
# `Listed` — a listed VM whose interfaces cannot be read for a cycle

`prune_metric_state` asks which interfaces the cycle read, not which VMs are listed: when `domiflist` fails, the saved
counters of the VM's interfaces go, and what passed since then is in no delta. While every cycle reads the interface, or
has no saved counters to lose, its deltas add up to the growth of its counters (`traffic_kept`).
-/

namespace VirtInfra.Agent

open Lib Python

/-! ## Saved counters -/

/-- What `collect_network` takes as the counters of the payload before. -/
def MetricState.saved (state : MetricState) (vm iface : String) : Option Counters :=
  (state.counters (.net vm iface)).or (state.counters (.legacy vm iface))

/-- The state with every legacy key copied to its `net:` key. -/
def MetricState.adopt (state : MetricState) : MetricState :=
  { state with
    counters := fun key => match key with
      | .net vm iface => state.saved vm iface
      | .legacy _ _ => state.counters key }

theorem MetricState.adopt_net (state : MetricState) (vm iface : String) :
    state.adopt.counters (.net vm iface) = state.saved vm iface := rfl

theorem MetricState.saved_set_self (state : MetricState) (vm iface : String) (c : Counters) :
    (state.set (.net vm iface) c).saved vm iface = some c := by simp [MetricState.saved]

theorem MetricState.saved_set_other {state : MetricState} {vm iface vm' iface' : String} (c : Counters)
    (h : ¬ (vm' = vm ∧ iface' = iface)) :
    (state.set (.net vm iface) c).saved vm' iface' = state.saved vm' iface' := by
  unfold MetricState.saved
  rw [MetricState.set_counters, if_neg (by simpa using h), MetricState.set_counters, if_neg (by simp)]

theorem MetricState.adopt_set (state : MetricState) (vm iface : String) (c : Counters) :
    (state.set (.net vm iface) c).adopt = state.adopt.set (.net vm iface) c := by
  have hcounters : (state.set (.net vm iface) c).adopt.counters = (state.adopt.set (.net vm iface) c).counters := by
    funext key
    rw [MetricState.set_counters]
    cases key with
    | legacy vm' iface' =>
        rw [if_neg (by simp)]
        show (state.set (.net vm iface) c).counters (.legacy vm' iface') = state.counters (.legacy vm' iface')
        rw [MetricState.set_counters, if_neg (by simp)]
    | net vm' iface' =>
        rw [MetricState.adopt_net, MetricState.adopt_net]
        by_cases h : vm' = vm ∧ iface' = iface
        · obtain ⟨rfl, rfl⟩ := h
          rw [MetricState.saved_set_self, if_pos rfl]
        · rw [MetricState.saved_set_other c h, if_neg (by simpa using h)]
  exact congrArg (fun counters => MetricState.mk counters state.lastPayloadTime) hcounters

/-- `collect_network` is the walk over the mapping, from the adopted state. -/
theorem collectNetwork_adopt (nics : List Nic) (state : MetricState) :
    (collectNetwork nics state).1 = (collectNetworkFromMapping nics state.adopt).1 ∧
    (collectNetwork nics state).2.adopt = (collectNetworkFromMapping nics state.adopt).2 := by
  induction nics generalizing state with
  | nil => exact ⟨rfl, rfl⟩
  | cons nic rest ih =>
      unfold collectNetwork collectNetworkFromMapping at ih ⊢
      unfold collectWith
      cases nic.counters with
      | none => exact ih state
      | some c =>
          obtain ⟨hrows, hstate⟩ := ih (state.set (.net nic.vm nic.iface) c)
          rw [MetricState.adopt_set] at hrows hstate
          dsimp only
          rw [hrows, hstate]
          exact ⟨rfl, rfl⟩

theorem collectWith_legacy (saved : MetricState → Nic → Option Counters) (nics : List Nic) (state : MetricState)
    (vm iface : String) : (collectWith saved nics state).2.counters (.legacy vm iface) =
      state.counters (.legacy vm iface) := by
  induction nics generalizing state with
  | nil => rfl
  | cons nic rest ih =>
      unfold collectWith
      cases nic.counters with
      | none => exact ih state
      | some c =>
          dsimp only
          rw [ih, MetricState.set_counters, if_neg (by simp)]

/-- An interface has a row when it was read. -/
theorem mem_collectWith_rows {saved : MetricState → Nic → Option Counters} {nics : List Nic} {state : MetricState}
    {vm iface : String} :
    (vm, iface) ∈ (collectWith saved nics state).1.map (fun row => (row.vmUuid, row.iface)) ↔
      readings vm iface nics ≠ [] := by
  induction nics generalizing state with
  | nil => simp [collectWith, readings]
  | cons nic rest ih =>
      unfold collectWith
      cases hc : nic.counters with
      | none => rw [readings_cons_of_none hc, ih]
      | some c =>
          dsimp only
          rw [List.map_cons, List.mem_cons, ih]
          by_cases h : nic.vm = vm ∧ nic.iface = iface
          · obtain ⟨rfl, rfl⟩ := h
            rw [readings_cons_self hc]
            simp [netRow]
          · rw [readings_cons_other h]
            have hne : (vm, iface) ≠ (nic.vm, nic.iface) := by
              intro heq
              obtain ⟨rfl, rfl⟩ := Prod.mk.inj heq
              exact h ⟨rfl, rfl⟩
            simp [netRow, hne]

/-! ## A cycle that reads the interface -/

variable {h : Host} {vm iface : String} {collector : Collector}

/-- The cycle reads the counters of the VM's interface as they are. -/
structure Host.Reads (h : Host) (vm iface : String) : Prop where
  listed : ∃ nic ∈ h.nics, nic.vm = vm ∧ nic.iface = iface
  read : collectInterfaceCounters (h.statistics iface) = some (h.counters iface)

instance (h : Host) (vm iface : String) : Decidable (h.Reads vm iface) :=
  decidable_of_iff
    ((∃ nic ∈ h.nics, nic.vm = vm ∧ nic.iface = iface) ∧
      collectInterfaceCounters (h.statistics iface) = some (h.counters iface))
    ⟨fun ⟨hlisted, hread⟩ => ⟨hlisted, hread⟩, fun hreads => ⟨hreads.listed, hreads.read⟩⟩

/-- What a successful read of the cycle gives. -/
def Host.read (h : Host) (vm iface : String) : Option Counters :=
  if h.Reads vm iface then some (h.counters iface) else none

/-- The VM is in a complete active inventory of the cycle. -/
structure Host.Lists (h : Host) (vm : String) : Prop where
  full : h.heavyCollectionSkipped = false
  complete : h.virshList.isSome = true
  listed : vm ∈ h.vmNames

/-- The cycle loses no counters: it reads the interface as it is, or nothing of it that was not saved under the legacy key,
    or no counter below the one that is saved. -/
def Kept (vm iface : String) (collector : Collector) (h : Host) : Prop :=
  h.Reads vm iface ∨
    if readings vm iface h.nics = [] then
      collector.state.saved vm iface = collector.state.counters (.legacy vm iface)
    else ∃ old ∈ collector.state.saved vm iface, ∀ c ∈ readings vm iface h.nics, old ≤ c

theorem Host.of_mem_readings {c : Counters} (hc : c ∈ readings vm iface h.nics) :
    collectInterfaceCounters (h.statistics iface) = some c := by
  obtain ⟨nic, hnic, hsome⟩ := List.mem_filterMap.mp hc
  split at hsome
  next hkey =>
    obtain ⟨-, rfl⟩ := hkey
    rwa [Host.counters_of_mem_nics hnic] at hsome
  next => cases hsome

theorem Host.eq_of_mem_readings {c d : Counters} (hc : c ∈ readings vm iface h.nics) (hd : d ∈ readings vm iface h.nics) :
    c = d := by
  have hsome := Host.of_mem_readings hc
  rw [Host.of_mem_readings hd] at hsome
  exact (Option.some.inj hsome).symm

theorem Host.Reads.readings_ne_nil (hreads : h.Reads vm iface) : readings vm iface h.nics ≠ [] := by
  obtain ⟨nic, hnic, rfl, rfl⟩ := hreads.listed
  have hc : h.counters nic.iface ∈ readings nic.vm nic.iface h.nics := by
    apply List.mem_filterMap.mpr
    refine ⟨nic, hnic, ?_⟩
    rw [if_pos ⟨rfl, rfl⟩, Host.counters_of_mem_nics hnic, hreads.read]
  exact List.ne_nil_of_mem hc

theorem Host.Reads.eq_of_mem (hreads : h.Reads vm iface) {c : Counters} (hc : c ∈ readings vm iface h.nics) :
    c = h.counters iface := by
  have hsome := Host.of_mem_readings hc
  rw [hreads.read] at hsome
  exact (Option.some.inj hsome).symm

theorem Host.Reads.read_eq (hreads : h.Reads vm iface) : h.read vm iface = some (h.counters iface) := if_pos hreads

theorem Host.read_eq_none (hread : readings vm iface h.nics = []) : h.read vm iface = none := by
  apply if_neg
  intro hreads
  exact hreads.readings_ne_nil hread

theorem readCounter_le {file : Option Nat} {c : Nat} (h : ∀ n ∈ file, n = c) : readCounter file ≤ c := by
  cases file with
  | none => exact Nat.zero_le c
  | some n => exact (h n rfl).le

/-- A read that fails in part is below the counters. -/
theorem Host.le_of_mem_readings {c : Counters} (hc : c ∈ readings vm iface h.nics) : c ≤ h.counters iface := by
  obtain ⟨files, hfiles, rfl⟩ := Option.map_eq_some_iff.mp (Host.of_mem_readings hc)
  have hshow := h.shown iface files hfiles
  exact ⟨readCounter_le hshow.rxBytes, readCounter_le hshow.txBytes, readCounter_le hshow.rxPackets,
    readCounter_le hshow.txPackets, readCounter_le hshow.rxDropped, readCounter_le hshow.txDropped,
    readCounter_le hshow.rxErrors, readCounter_le hshow.txErrors⟩

theorem rising_of_forall_eq {saved : Option Counters} {l : List Counters} {c : Counters} (hsaved : ∀ old ∈ saved, old ≤ c)
    (hall : ∀ d ∈ l, d = c) : Rising saved l := by
  induction l generalizing saved with
  | nil => trivial
  | cons d rest ih =>
      obtain rfl := hall d (by simp)
      refine ⟨hsaved, ih ?_ fun e he => hall e (List.mem_cons_of_mem d he)⟩
      intro old hold
      obtain rfl := Option.some.inj hold
      exact Counters.le_refl _

/-- The rows of a full cycle, and what it saves of an interface. -/
theorem collectCycle_full (iface : String) (node : NodeName) (warn : ℚ) (collector : Collector) (window : NetWindow)
    (hfull : h.Lists vm) :
    (collectCycle node warn collector window h).1.netRows = (collectNetwork h.nics collector.state).1 ∧
    (collectCycle node warn collector window h).2.state.saved vm iface =
      if readings vm iface h.nics = [] then collector.state.counters (.legacy vm iface)
      else (collectNetwork h.nics collector.state).2.saved vm iface := by
  have hrows : collectRows collector.state (h.reading collector.ifaceMap) =
      ((collectNetwork h.nics collector.state).1,
        pruneMetricState (collectNetwork h.nics collector.state).2
          ((collectNetwork h.nics collector.state).1.map fun row => (row.vmUuid, row.iface)) true) := by
    simp [collectRows, Host.reading, hfull.full, hfull.complete]
  refine ⟨?_, ?_⟩
  · show (collectCyclePayload node warn collector.state window (h.reading collector.ifaceMap)).1.netRows = _
    rw [collectCyclePayload_netRows, hrows]
  · show MetricState.saved { (collectRows collector.state (h.reading collector.ifaceMap)).2 with
        lastPayloadTime := h.now } vm iface = _
    rw [hrows]
    have hlegacy : (collectNetwork h.nics collector.state).2.counters (.legacy vm iface) =
        collector.state.counters (.legacy vm iface) := collectWith_legacy ..
    have hactive : (vm, iface) ∈ (collectWith savedOrLegacy h.nics collector.state).1.map
        (fun row => (row.vmUuid, row.iface)) ↔ readings vm iface h.nics ≠ [] := mem_collectWith_rows
    unfold collectNetwork at hlegacy ⊢
    unfold MetricState.saved pruneMetricState
    dsimp only
    by_cases hread : readings vm iface h.nics = []
    · rw [if_pos hread, hlegacy]
      have hnot := mt hactive.mp (not_not_intro hread)
      rw [if_pos (by simpa using hnot), Option.none_or]
    · rw [if_neg hread]
      have hmem := hactive.mpr hread
      rw [if_neg (by simpa using hmem)]

theorem Host.exists_mem_nics (hvm : vm ∈ h.vmNames) {line : DomifLine} (hline : line ∈ parseDomiflist (h.domiflist vm)) :
    ∃ nic ∈ h.nics, nic.vm = vm ∧ nic.iface = line.iface := by
  unfold Host.nics
  simp only [List.mem_flatMap, List.mem_map]
  exact ⟨_, ⟨⟨vm, hvm⟩, List.mem_attach .., line, hline, rfl⟩, rfl, rfl⟩

theorem Host.getLast?_readings {c : Counters} (hc : c ∈ readings vm iface h.nics) :
    (readings vm iface h.nics).getLast? = some c := by
  rw [List.getLast?_eq_some_getLast (List.ne_nil_of_mem hc)]
  exact congrArg some (Host.eq_of_mem_readings (List.getLast_mem _) hc)

theorem Host.head?_readings {c : Counters} (hc : c ∈ readings vm iface h.nics) :
    (readings vm iface h.nics).head? = some c := by
  rw [List.head?_eq_some_head (List.ne_nil_of_mem hc)]
  exact congrArg some (Host.eq_of_mem_readings (List.head_mem _) hc)

/-- A full cycle that reads `c` of the interface saves it. -/
theorem collectCycle_saved (node : NodeName) (warn : ℚ) (collector : Collector) (window : NetWindow)
    (hfull : h.Lists vm) {c : Counters} (hc : c ∈ readings vm iface h.nics) :
    (collectCycle node warn collector window h).2.state.saved vm iface = some c := by
  have hafter := (collectCycle_full iface node warn collector window hfull).2
  have hwalked := collectNetworkFromMapping_saved vm iface h.nics collector.state.adopt
  rw [← (collectNetwork_adopt h.nics collector.state).2, Host.getLast?_readings hc, MetricState.adopt_net] at hwalked
  rwa [if_neg (List.ne_nil_of_mem hc), hwalked] at hafter

/-- When what is saved is not above it, the deltas of the cycle lead to it. -/
theorem collectCycle_read (node : NodeName) (warn : ℚ) (window : NetWindow) (hfull : h.Lists vm) {c : Counters}
    (hc : c ∈ readings vm iface h.nics)
    (hsaved : ∀ old ∈ collector.state.saved vm iface, old ≤ c) :
    Telescopes ((collector.state.saved vm iface).or (some c)) (some c)
      (rowsTotal vm iface (collectCycle node warn collector window h).1.netRows) := by
  have hrows := (collectCycle_full iface node warn collector window hfull).1
  have hrising : Rising (collector.state.adopt.counters (.net vm iface)) (readings vm iface h.nics) :=
    rising_of_forall_eq hsaved fun d hd => Host.eq_of_mem_readings hd hc
  have hwalk := collectNetworkFromMapping_telescopes hrising
  rwa [Host.head?_readings hc, Host.getLast?_readings hc, ← (collectNetwork_adopt h.nics collector.state).1, ← hrows,
    MetricState.adopt_net] at hwalk

/-- A full cycle that reads nothing of the interface. -/
theorem collectCycle_unread (node : NodeName) (warn : ℚ) (collector : Collector) (window : NetWindow)
    (hfull : h.Lists vm) (hread : readings vm iface h.nics = []) :
    (collectCycle node warn collector window h).2.state.saved vm iface = collector.state.counters (.legacy vm iface) ∧
    rowsTotal vm iface (collectCycle node warn collector window h).1.netRows = 0 := by
  obtain ⟨hrows, hafter⟩ := collectCycle_full iface node warn collector window hfull
  rw [if_pos hread] at hafter
  refine ⟨hafter, ?_⟩
  have hnot : (vm, iface) ∉ (collectNetwork h.nics collector.state).1.map fun row => (row.vmUuid, row.iface) :=
    mt mem_collectWith_rows.mp (not_not_intro hread)
  unfold rowsTotal
  rw [hrows, List.filter_eq_nil_iff.mpr ?_]
  · rfl
  · intro row hrow hkey
    apply hnot
    obtain ⟨rfl, rfl⟩ : row.vmUuid = vm ∧ row.iface = iface := by simpa using hkey
    exact List.mem_map.mpr ⟨row, hrow, rfl⟩

/-- **A kept cycle.** Its deltas lead from what was saved, or from its own successful read, to what it saves, which is not
    above the counters. -/
theorem collectCycle_kept (node : NodeName) (warn : ℚ) (window : NetWindow) (hfull : h.Lists vm)
    (hkept : Kept vm iface collector h)
    (hbase : ∀ base ∈ collector.state.saved vm iface, base ≤ h.counters iface) :
    (∀ base ∈ (collectCycle node warn collector window h).2.state.saved vm iface, base ≤ h.counters iface) ∧
    Telescopes ((collector.state.saved vm iface).or (h.read vm iface))
      ((collectCycle node warn collector window h).2.state.saved vm iface)
      (rowsTotal vm iface (collectCycle node warn collector window h).1.netRows) := by
  rcases hkept with hreads | hkept
  · obtain ⟨c, hc⟩ := List.exists_mem_of_ne_nil _ hreads.readings_ne_nil
    obtain rfl := hreads.eq_of_mem hc
    have hwalk := collectCycle_read node warn window hfull hc hbase
    rw [collectCycle_saved node warn collector window hfull hc, hreads.read_eq]
    refine ⟨?_, hwalk⟩
    intro base hmem
    obtain rfl := Option.some.inj hmem
    exact Counters.le_refl _
  · split at hkept
    next hread =>
      -- nothing is read, and what pruning drops the legacy key still has
      obtain ⟨hsaved, hzero⟩ := collectCycle_unread node warn collector window hfull hread
      rw [hsaved, ← hkept, hzero, Host.read_eq_none hread, Option.or_none]
      exact ⟨hbase, Telescopes.refl _⟩
    next hread =>
      -- a counter that cannot be read was zero before
      obtain ⟨old, hold, hle⟩ := hkept
      obtain ⟨c, hc⟩ := List.exists_mem_of_ne_nil _ hread
      have hbelow : ∀ base ∈ collector.state.saved vm iface, base ≤ c := by
        intro base hmem
        obtain rfl := Option.mem_unique hold hmem
        exact hle c hc
      have hwalk := collectCycle_read node warn window hfull hc hbelow
      rw [hold, Option.some_or] at hwalk ⊢
      rw [collectCycle_saved node warn collector window hfull hc]
      refine ⟨?_, hwalk⟩
      intro base hmem
      obtain rfl := Option.some.inj hmem
      exact Host.le_of_mem_readings hc

/-! ## Runs -/

variable {node : NodeName} {warn : ℚ}

/-- What the first successful read of a run gives. -/
def firstRead (vm iface : String) (run : List (NetWindow × Host)) : Option Counters :=
  run.findSome? fun cycle => cycle.2.read vm iface

/-- The sum of the deltas reported for an interface. -/
def reported (vm iface : String) (payloads : List CyclePayload) : Counters :=
  (payloads.map fun payload => rowsTotal vm iface payload.netRows).sum

theorem firstRead_cons (vm iface : String) (cycle : NetWindow × Host) (run : List (NetWindow × Host)) :
    firstRead vm iface (cycle :: run) = (cycle.2.read vm iface).or (firstRead vm iface run) := by
  unfold firstRead
  rw [List.findSome?_cons]
  cases cycle.2.read vm iface <;> rfl

/-- The counters of an interface never decrease over a run, from what was saved before it. -/
structure NeverDecrease (vm iface : String) (collector : Collector) (run : List (NetWindow × Host)) : Prop where
  saved : ∀ base ∈ collector.state.saved vm iface, ∀ cycle ∈ run, base ≤ cycle.2.counters iface
  rising : run.Pairwise fun a b => a.2.counters iface ≤ b.2.counters iface

/-- Over a run of kept cycles the deltas lead from the first counters to what is saved in the end. -/
theorem collectRun_kept {run : List (NetWindow × Host)} (hlists : ∀ cycle ∈ run, cycle.2.Lists vm)
    (hrising : NeverDecrease vm iface collector run)
    (hkept : EachCycle node warn (Kept vm iface) collector run) :
    Telescopes ((collector.state.saved vm iface).or (firstRead vm iface run))
      ((collectRun node warn collector run).2.state.saved vm iface)
      (reported vm iface (collectRun node warn collector run).1) := by
  induction run generalizing collector with
  | nil =>
      show Telescopes ((collector.state.saved vm iface).or none) (collector.state.saved vm iface) 0
      rw [Option.or_none]
      exact Telescopes.refl _
  | cons cycle run ih =>
      obtain ⟨hthis, hrest⟩ := hkept
      obtain ⟨hfirst, hpairs⟩ := List.pairwise_cons.mp hrising.rising
      have hbase : ∀ base ∈ collector.state.saved vm iface, base ≤ cycle.2.counters iface :=
        fun base hmem => hrising.saved base hmem cycle (by simp)
      obtain ⟨hsaved, hcycle⟩ := collectCycle_kept node warn cycle.1
        (hlists cycle (by simp)) hthis hbase
      have hnext : NeverDecrease vm iface (collectCycle node warn collector cycle.1 cycle.2).2 run := by
        refine ⟨?_, hpairs⟩
        intro base hmem later hlater
        exact Counters.le_trans (hsaved base hmem) (hfirst later hlater)
      have htail := ih (fun later hlater => hlists later (List.mem_cons_of_mem _ hlater)) hnext hrest
      rw [firstRead_cons, ← Option.or_assoc]
      exact hcycle.trans_or htail

/-- **No traffic of a listed VM is lost in a run of kept cycles**: up to a cycle that reads the interface, the deltas add up
    to the growth of its counters since they were first read, or since the counters that were saved before. -/
theorem listed_traffic_kept {run : List (NetWindow × Host)} {last : NetWindow × Host}
    (hlists : ∀ cycle ∈ run ++ [last], cycle.2.Lists vm)
    (hrising : NeverDecrease vm iface collector (run ++ [last]))
    (hkept : EachCycle node warn (Kept vm iface) collector (run ++ [last]))
    (hlast : last.2.Reads vm iface) :
    Telescopes ((collector.state.saved vm iface).or (firstRead vm iface (run ++ [last])))
      (some (last.2.counters iface))
      (reported vm iface (collectRun node warn collector (run ++ [last])).1) := by
  have hrun := collectRun_kept hlists hrising hkept
  suffices hsaved : (collectRun node warn collector (run ++ [last])).2.state.saved vm iface =
      some (last.2.counters iface) by rwa [hsaved] at hrun
  rw [collectRun_append]
  obtain ⟨c, hc⟩ := List.exists_mem_of_ne_nil _ hlast.readings_ne_nil
  obtain rfl := hlast.eq_of_mem hc
  exact collectCycle_saved _ _ _ _ (hlists last (by simp)) hc

/-! ### A VM of one interface -/

/-- An agent that has just been installed. -/
def newCollector : Collector := ⟨MetricState.empty, fun _ => none, .empty⟩

/-- A host with the VM `web` on `vnet0`, which received `rx` bytes so far; `domiflist` gives `lines`. -/
def webHost (now : Int) (rx : Nat) (lines : Option (List (List String))) : Host where
  now := now
  heavyCollectionSkipped := false
  virshList := some ["web"]
  domiflist := fun _ => lines
  uplinks := []
  statistics := fun _ => some (.of { (0 : Counters) with rx := rx })
  counters := fun _ => { (0 : Counters) with rx := rx }
  passed := fun _ => { (0 : Counters) with rx := rx }
  shown := by
    intro iface files hfiles
    obtain rfl := Option.some.inj hfiles
    exact show_of _

def webLines : Option (List (List String)) := some [["vnet0", "bridge", "br0", "virtio", "52:54:00:00:00:01"]]

theorem webHost_lists (now : Int) (rx : Nat) (lines : Option (List (List String))) : (webHost now rx lines).Lists "web" :=
  ⟨rfl, rfl, by simp only [Host.vmNames, webHost]; decide +kernel⟩

theorem webHost_reads (now : Int) (rx : Nat) : (webHost now rx webLines).Reads "web" "vnet0" := by
  have hvm := (webHost_lists now rx webLines).listed
  have hline : (⟨"vnet0", "br0", "52:54:00:00:00:01"⟩ : DomifLine) ∈ parseDomiflist webLines := by decide +kernel
  exact ⟨Host.exists_mem_nics hvm hline, rfl⟩

theorem newCollector_neverDecrease (vm iface : String) {run : List (NetWindow × Host)}
    (hrising : run.Pairwise fun a b => a.2.counters iface ≤ b.2.counters iface) :
    NeverDecrease vm iface newCollector run :=
  ⟨fun _ hbase => absurd hbase (by simp [newCollector, MetricState.saved, MetricState.empty]), hrising⟩

def kvm1 : NodeName := ⟨"kvm1", by decide +kernel⟩

theorem listed_traffic_kept_sample :
    let run := [(NetWindow.empty, webHost 300 100 webLines)]
    let last := (NetWindow.empty, webHost 600 250 webLines)
    Telescopes ((newCollector.state.saved "web" "vnet0").or (firstRead "web" "vnet0" (run ++ [last])))
      (some (last.2.counters "vnet0"))
      (reported "web" "vnet0" (collectRun kvm1 0 newCollector (run ++ [last])).1) := by
  intro run last
  have hlists : ∀ cycle ∈ run ++ [last], cycle.2.Lists "web" := by
    intro cycle hcycle
    rcases List.mem_pair.mp hcycle with rfl | rfl
    · exact webHost_lists ..
    · exact webHost_lists ..
  apply listed_traffic_kept hlists
  · apply newCollector_neverDecrease
    simp only [run, last, List.cons_append, List.nil_append, List.pairwise_cons]
    decide
  · exact ⟨.inl (webHost_reads ..), .inl (webHost_reads ..), trivial⟩
  · exact webHost_reads ..

/-- A failed `domiflist` between two reads: what passed since the first one is in no delta. -/
theorem listed_traffic_lost :
    let run := [(NetWindow.empty, webHost 300 100 webLines), (NetWindow.empty, webHost 600 200 none),
      (NetWindow.empty, webHost 900 250 webLines)]
    (∀ cycle ∈ run, cycle.2.Lists "web") ∧ NeverDecrease "web" "vnet0" newCollector run ∧
    (webHost 900 250 webLines).Reads "web" "vnet0" ∧
    ¬ Telescopes (firstRead "web" "vnet0" run) (some ((webHost 900 250 webLines).counters "vnet0"))
      (reported "web" "vnet0" (collectRun kvm1 0 newCollector run).1) := by
  intro run
  refine ⟨?_, ?_, webHost_reads .., ?_⟩
  · intro cycle hcycle
    have hhost : ∃ now rx lines, cycle.2 = webHost now rx lines := by
      simp only [run, List.mem_cons, List.not_mem_nil, or_false] at hcycle
      rcases hcycle with rfl | rfl | rfl <;> exact ⟨_, _, _, rfl⟩
    obtain ⟨now, rx, lines, heq⟩ := hhost
    rw [heq]
    exact webHost_lists ..
  · apply newCollector_neverDecrease
    simp only [run, List.pairwise_cons]
    decide
  · have hread : firstRead "web" "vnet0" run = some { (0 : Counters) with rx := 100 } := by
      rw [firstRead_cons, (webHost_reads 300 100).read_eq]
      rfl
    have hzero : reported "web" "vnet0" (collectRun kvm1 0 newCollector run).1 = 0 := by
      decide +kernel
    rw [hread, hzero]
    show ¬ (_ = _)
    decide

end VirtInfra.Agent
