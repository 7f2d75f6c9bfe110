import VirtInfra.Agent.Delivery

/-!
# `Chain` — payloads collected one from the state after the other

`collect_network` walks over the host's interfaces and replaces saved counters as it goes, so the deltas of one
interface add up to the difference of the last counters read and the ones saved before. `Telescopes` states such a
difference without subtraction, also for an interface that was not read yet. A `Chain` is what an agent would produce
if nothing ever failed: each payload is collected from the metric state the one before it left. Along a chain the
deltas telescope from the first value captured to the last (`Chain.spec`).
-/

namespace VirtInfra.Agent

open Python Consumption

/-! ## Differences -/

/-- `total` leads from `first` to `last`. -/
def Telescopes (first last : Option Counters) (total : Counters) : Prop :=
  match first, last with
  | none, none => total = 0
  | some a, some b => total + a = b
  | _, _ => False

theorem Telescopes.refl (saved : Option Counters) : Telescopes saved saved 0 := by
  cases saved with
  | none => rfl
  | some c => exact zero_add c

theorem Telescopes.trans {a b c : Option Counters} {x y : Counters} (h₁ : Telescopes a b x) (h₂ : Telescopes b c y) :
    Telescopes a c (x + y) := by
  cases a <;> cases b <;> cases c <;> simp only [Telescopes] at h₁ h₂ ⊢
  · rw [h₁, h₂, add_zero]
  · rw [← h₂, ← h₁, add_comm x, add_assoc]

/-- What is first seen later starts from its own first reading. -/
theorem Telescopes.trans_or {a b c d : Option Counters} {x y : Counters} (h₁ : Telescopes a b x)
    (h₂ : Telescopes (b.or c) d y) : Telescopes (a.or c) d (x + y) := by
  cases a with
  | some a =>
      cases b with
      | some b => exact Telescopes.trans h₁ h₂
      | none => exact absurd h₁ id
  | none =>
      cases b with
      | some b => exact absurd h₁ id
      | none =>
          have hx : x = 0 := h₁
          rwa [hx, zero_add]

theorem deltaCounter_add {old new : Nat} (h : old ≤ new) : deltaCounter new old + old = new := by
  unfold deltaCounter
  rw [if_neg (Nat.not_lt.mpr h), Nat.sub_add_cancel h]

theorem deltaCounter_self (c : Nat) : deltaCounter c c = 0 := by simp [deltaCounter]

theorem zipWith_deltaCounter_add {old new : Counters} (h : old ≤ new) :
    Counters.zipWith deltaCounter new old + old = new := by
  obtain ⟨h₁, h₂, h₃, h₄, h₅, h₆, h₇, h₈⟩ := h
  exact Counters.ext (deltaCounter_add h₁) (deltaCounter_add h₂) (deltaCounter_add h₃) (deltaCounter_add h₄)
    (deltaCounter_add h₅) (deltaCounter_add h₆) (deltaCounter_add h₇) (deltaCounter_add h₈)

theorem zipWith_deltaCounter_self (c : Counters) : Counters.zipWith deltaCounter c c = 0 :=
  Counters.ext (deltaCounter_self _) (deltaCounter_self _) (deltaCounter_self _) (deltaCounter_self _)
    (deltaCounter_self _) (deltaCounter_self _) (deltaCounter_self _) (deltaCounter_self _)

/-! ## One collection -/

/-- The counters a walk over `nics` reads of one interface, in order. -/
def readings (vm iface : String) (nics : List Nic) : List Counters :=
  nics.filterMap fun nic => if nic.vm = vm ∧ nic.iface = iface then nic.counters else none

/-- No reading is below the one before it, nor the first one below the value saved before. -/
def Rising : Option Counters → List Counters → Prop
  | _, [] => True
  | saved, c :: rest => (∀ old ∈ saved, old ≤ c) ∧ Rising (some c) rest

/-- The deltas of one interface in the rows of a payload. -/
def rowsTotal (vm iface : String) (rows : List NetRow) : Counters :=
  ((rows.filter fun row => row.vmUuid = vm && row.iface = iface).map NetRow.deltas).sum

theorem readings_cons_of_none {vm iface : String} {nic : Nic} {rest : List Nic} (h : nic.counters = none) :
    readings vm iface (nic :: rest) = readings vm iface rest := by
  simp [readings, h]

theorem readings_cons_self {nic : Nic} {c : Counters} {rest : List Nic} (h : nic.counters = some c) :
    readings nic.vm nic.iface (nic :: rest) = c :: readings nic.vm nic.iface rest := by
  simp [readings, h]

theorem readings_cons_other {vm iface : String} {nic : Nic} {rest : List Nic} (h : ¬ (nic.vm = vm ∧ nic.iface = iface)) :
    readings vm iface (nic :: rest) = readings vm iface rest := by
  simp [readings, h]

theorem rowsTotal_cons_self (nic : Nic) (saved : Option Counters) (c : Counters) (rows : List NetRow) :
    rowsTotal nic.vm nic.iface (netRow nic saved c :: rows) =
      (netRow nic saved c).deltas + rowsTotal nic.vm nic.iface rows := by
  simp [rowsTotal, netRow]

theorem rowsTotal_cons_other {vm iface : String} {nic : Nic} (h : ¬ (nic.vm = vm ∧ nic.iface = iface))
    (saved : Option Counters) (c : Counters) (rows : List NetRow) :
    rowsTotal vm iface (netRow nic saved c :: rows) = rowsTotal vm iface rows := by
  simp [rowsTotal, netRow, h]

theorem getLast?_cons_or (c : Counters) (rest : List Counters) (saved : Option Counters) :
    (c :: rest).getLast?.or saved = rest.getLast?.or (some c) := by
  rw [List.getLast?_cons]
  cases rest.getLast? <;> rfl

theorem MetricState.set_self (state : MetricState) (key : StateKey) (c : Counters) :
    (state.set key c).counters key = some c := if_pos rfl

theorem MetricState.set_other {state : MetricState} {vm iface : String} {nic : Nic} {c : Counters}
    (h : ¬ (nic.vm = vm ∧ nic.iface = iface)) :
    (state.set (.net nic.vm nic.iface) c).counters (.net vm iface) = state.counters (.net vm iface) := by
  apply if_neg
  intro hkey
  cases hkey
  exact h ⟨rfl, rfl⟩

/-- A row leads from the saved value, or from the reading itself, to the reading. -/
theorem netRow_telescopes {nic : Nic} {saved : Option Counters} {c : Counters} (h : ∀ old ∈ saved, old ≤ c) :
    Telescopes (saved.or (some c)) (some c) (netRow nic saved c).deltas := by
  cases saved with
  | none =>
      show Counters.zipWith deltaCounter c c + c = c
      rw [zipWith_deltaCounter_self, zero_add]
  | some old => exact zipWith_deltaCounter_add (h old rfl)

/-- The value saved after a walk is the last one read, or the one saved before. -/
theorem collectNetworkFromMapping_saved (vm iface : String) (nics : List Nic) (state : MetricState) :
    (collectNetworkFromMapping nics state).2.counters (.net vm iface) =
      (readings vm iface nics).getLast?.or (state.counters (.net vm iface)) := by
  induction nics generalizing state with
  | nil => rfl
  | cons nic rest ih =>
      unfold collectNetworkFromMapping at ih ⊢
      unfold collectWith
      cases hc : nic.counters with
      | none =>
          rw [readings_cons_of_none hc]
          exact ih state
      | some c =>
          dsimp only
          rw [ih]
          by_cases hnic : nic.vm = vm ∧ nic.iface = iface
          · obtain ⟨rfl, rfl⟩ := hnic
            rw [readings_cons_self hc, getLast?_cons_or, MetricState.set_self]
          · rw [readings_cons_other hnic, MetricState.set_other hnic]

/-- **The deltas of a walk telescope.** They lead from the value saved before (or from the first reading, which is its
    own baseline) to the value saved after. -/
theorem collectNetworkFromMapping_telescopes {vm iface : String} {nics : List Nic} {state : MetricState}
    (hrising : Rising (state.counters (.net vm iface)) (readings vm iface nics)) :
    Telescopes ((state.counters (.net vm iface)).or (readings vm iface nics).head?)
      ((readings vm iface nics).getLast?.or (state.counters (.net vm iface)))
      (rowsTotal vm iface (collectNetworkFromMapping nics state).1) := by
  induction nics generalizing state with
  | nil =>
      show Telescopes ((state.counters (.net vm iface)).or none) (state.counters (.net vm iface)) 0
      rw [Option.or_none]
      exact Telescopes.refl _
  | cons nic rest ih =>
      unfold collectNetworkFromMapping at ih ⊢
      unfold collectWith
      cases hc : nic.counters with
      | none =>
          rw [readings_cons_of_none hc] at hrising ⊢
          exact ih hrising
      | some c =>
          dsimp only
          by_cases hnic : nic.vm = vm ∧ nic.iface = iface
          · obtain ⟨rfl, rfl⟩ := hnic
            rw [readings_cons_self hc] at hrising ⊢
            obtain ⟨hle, hrest⟩ := hrising
            have hset := state.set_self (.net nic.vm nic.iface) c
            have htail := @ih (state.set (.net nic.vm nic.iface) c) (by rwa [hset])
            rw [hset, Option.some_or] at htail
            rw [rowsTotal_cons_self, getLast?_cons_or, List.head?_cons]
            exact (netRow_telescopes hle).trans htail
          · rw [readings_cons_other hnic] at hrising ⊢
            rw [rowsTotal_cons_other hnic]
            have hset : (state.set (.net nic.vm nic.iface) c).counters (.net vm iface) =
                state.counters (.net vm iface) := MetricState.set_other hnic
            have htail := @ih (state.set (.net nic.vm nic.iface) c) (by rwa [hset])
            rwa [hset] at htail

/-! ## Legacy keys and pruning -/

/-- No counters of an agent older than the `net:` keys. -/
def MetricState.NoLegacy (state : MetricState) : Prop := ∀ vm iface, state.counters (.legacy vm iface) = none

theorem MetricState.NoLegacy.set_net {state : MetricState} (h : state.NoLegacy) (vm iface : String) (c : Counters) :
    MetricState.NoLegacy (state.set (.net vm iface) c) := by
  intro vm' iface'
  rw [set_counters, if_neg (by simp)]
  exact h vm' iface'

/-- Without legacy keys both ways to collect are one. -/
theorem collectNetwork_eq {nics : List Nic} {state : MetricState} (h : state.NoLegacy) :
    collectNetwork nics state = collectNetworkFromMapping nics state := by
  induction nics generalizing state with
  | nil => rfl
  | cons nic rest ih =>
      unfold collectNetwork collectNetworkFromMapping at ih ⊢
      unfold collectWith
      cases nic.counters with
      | none => exact ih h
      | some c =>
          dsimp only
          rw [ih (h.set_net nic.vm nic.iface c), savedOrLegacy, h, Option.or_none]

theorem collectNetworkFromMapping_noLegacy (nics : List Nic) {state : MetricState} (h : state.NoLegacy) :
    (collectNetworkFromMapping nics state).2.NoLegacy := by
  induction nics generalizing state with
  | nil => exact h
  | cons nic rest ih =>
      unfold collectNetworkFromMapping at ih ⊢
      unfold collectWith
      cases nic.counters with
      | none => exact ih h
      | some c => exact ih (h.set_net nic.vm nic.iface c)

/-- The rows of `collect_cycle_payload` and its state, up to what pruning drops. -/
theorem collectRows_eq {committed : MetricState} (h : committed.NoLegacy) (reading : Reading) :
    (collectRows committed reading).1 = (collectNetworkFromMapping reading.nics committed).1 ∧
    (collectRows committed reading).2.NoLegacy ∧
    ∀ vm iface, (collectRows committed reading).2.counters (.net vm iface) =
        (collectNetworkFromMapping reading.nics committed).2.counters (.net vm iface) ∨
      (collectRows committed reading).2.counters (.net vm iface) = none := by
  have hlegacy := collectNetworkFromMapping_noLegacy reading.nics h
  unfold collectRows
  split
  · exact ⟨rfl, hlegacy, fun _ _ => .inl rfl⟩
  · rw [collectNetwork_eq h]
    refine ⟨rfl, fun vm iface => hlegacy vm iface, fun vm iface => ?_⟩
    dsimp only [pruneMetricState]
    split
    · exact .inr rfl
    · exact .inl rfl

/-! ## Chains of payloads -/

/-- The payloads of one node. -/
def ofNode (n : NodeName) (l : List Pending) : List Pending := l.filter fun m => m.payload.node = n

/-- The counters of one interface that payloads captured, in order. -/
def captured (vm iface : String) (l : List Pending) : List Counters :=
  l.flatMap fun m => readings vm iface m.reading.nics

/-- The metric state after the last of some payloads. -/
def tip (acc : List Pending) : MetricState := (acc.getLast?.map Pending.stateAfter).getD MetricState.empty

/-- The rows of a payload without what hydration added. -/
def Payload.netRows (p : Payload) : List NetRow := p.interfaces.map PayloadRow.toNetRow

/-- The deltas of one interface in some payloads. -/
def deltaTotal (vm iface : String) (acc : List Pending) : Counters :=
  (acc.map fun m => rowsTotal vm iface m.payload.netRows).sum

/-- **A reading of an interface that is as it should be**, after the payloads in `sent`: the clock moved on, the
    counters did not decrease, and an interface that a complete inventory dropped does not come back. -/
structure SteadyReading (vm iface : String) (sent : List Pending) (committed : MetricState) (reading : Reading) :
    Prop where
  later : ∀ m ∈ sent, m.payload.time < reading.now
  rising : Rising (committed.counters (.net vm iface)) (readings vm iface reading.nics)
  kept : committed.counters (.net vm iface) = none → captured vm iface sent ≠ [] →
    readings vm iface reading.nics = []

instance decidableRising : ∀ (saved : Option Counters) (l : List Counters), Decidable (Rising saved l)
  | _, [] => .isTrue trivial
  | _, c :: rest => have := decidableRising (some c) rest; inferInstanceAs (Decidable (_ ∧ _))

instance (vm iface : String) (sent : List Pending) (committed : MetricState) (reading : Reading) :
    Decidable (SteadyReading vm iface sent committed reading) :=
  decidable_of_iff
    ((∀ m ∈ sent, m.payload.time < reading.now) ∧
      Rising (committed.counters (.net vm iface)) (readings vm iface reading.nics) ∧
      (committed.counters (.net vm iface) = none → captured vm iface sent ≠ [] → readings vm iface reading.nics = []))
    ⟨fun ⟨h₁, h₂, h₃⟩ => ⟨h₁, h₂, h₃⟩, fun h => ⟨h.later, h.rising, h.kept⟩⟩

theorem SteadyReading.mono {vm iface : String} {acc sent : List Pending} {committed : MetricState} {reading : Reading}
    (h : SteadyReading vm iface sent committed reading) (hsub : acc ⊆ sent) :
    SteadyReading vm iface acc committed reading where
  later m hm := h.later m (hsub hm)
  rising := h.rising
  kept hnone hcap := by
    apply h.kept hnone
    intro hempty
    apply hcap
    rw [captured, List.flatMap_eq_nil_iff] at hempty ⊢
    exact fun m hm => hempty m (hsub hm)

section Chain

variable (n : NodeName) (vm iface : String)

/-- A payload collected from the state after `acc`. -/
structure Fresh (acc : List Pending) (q : Pending) : Prop where
  collected : ∃ warn window, collectCyclePayload n warn (tip acc) window q.reading = (q.payload, q.stateAfter)
  steady : SteadyReading vm iface acc (tip acc) q.reading

/-- Payloads each of which was collected from the state the one before it left. -/
inductive Chain : List Pending → Prop
  | nil : Chain []
  | snoc {acc : List Pending} {q : Pending} (h : Chain acc) (hq : Fresh n vm iface acc q) : Chain (acc ++ [q])

variable {n vm iface}

theorem collectCyclePayload_netRows (warn : ℚ) (committed : MetricState) (window : NetWindow) (reading : Reading) :
    (collectCyclePayload n warn committed window reading).1.netRows = (collectRows committed reading).1 := by
  simp [collectCyclePayload, Payload.netRows, hydrateNetworkRows, Function.comp_def]

theorem Fresh.time {acc : List Pending} {q : Pending} (h : Fresh n vm iface acc q) : q.payload.time = q.reading.now := by
  obtain ⟨warn, window, heq⟩ := h.collected
  have hpayload : (collectCyclePayload n warn (tip acc) window q.reading).1 = q.payload := congrArg Prod.fst heq
  rw [← hpayload]
  rfl

theorem Fresh.netRows {acc : List Pending} {q : Pending} (h : Fresh n vm iface acc q) :
    q.payload.netRows = (collectRows (tip acc) q.reading).1 := by
  obtain ⟨warn, window, heq⟩ := h.collected
  have hpayload : (collectCyclePayload n warn (tip acc) window q.reading).1 = q.payload := congrArg Prod.fst heq
  rw [← hpayload]
  exact collectCyclePayload_netRows ..

theorem Fresh.stateAfter {acc : List Pending} {q : Pending} (h : Fresh n vm iface acc q) :
    q.stateAfter.counters = (collectRows (tip acc) q.reading).2.counters := by
  obtain ⟨warn, window, heq⟩ := h.collected
  have hstate : (collectCyclePayload n warn (tip acc) window q.reading).2 = q.stateAfter := congrArg Prod.snd heq
  rw [← hstate]
  rfl

/-- A fresh payload has a time of its own. -/
theorem Fresh.time_ne {acc : List Pending} {q m : Pending} (h : Fresh n vm iface acc q) (hm : m ∈ acc) :
    m.payload.time ≠ q.payload.time := by
  rw [h.time]
  exact (h.steady.later m hm).ne

@[simp] theorem tip_concat (acc : List Pending) (q : Pending) : tip (acc ++ [q]) = q.stateAfter := by simp [tip]

theorem captured_concat (acc : List Pending) (q : Pending) :
    captured vm iface (acc ++ [q]) = captured vm iface acc ++ readings vm iface q.reading.nics := by
  simp [captured]

theorem deltaTotal_concat (acc : List Pending) (q : Pending) :
    deltaTotal vm iface (acc ++ [q]) = deltaTotal vm iface acc + rowsTotal vm iface q.payload.netRows := by
  simp [deltaTotal]

/-- What a chain leaves behind: the saved value of the interface is the last one captured, unless it was dropped. -/
structure ChainSpec (vm iface : String) (acc : List Pending) : Prop where
  noLegacy : (tip acc).NoLegacy
  saved : (tip acc).counters (.net vm iface) = (captured vm iface acc).getLast? ∨
    (tip acc).counters (.net vm iface) = none
  telescopes : Telescopes (captured vm iface acc).head? (captured vm iface acc).getLast? (deltaTotal vm iface acc)

theorem ChainSpec.concat {acc : List Pending} {q : Pending} (h : ChainSpec vm iface acc)
    (hq : Fresh n vm iface acc q) : ChainSpec vm iface (acc ++ [q]) := by
  obtain ⟨hrows, hlegacy, hsaved⟩ := collectRows_eq h.noLegacy q.reading
  have hmapped := collectNetworkFromMapping_saved vm iface q.reading.nics (tip acc)
  have hwalk := collectNetworkFromMapping_telescopes hq.steady.rising
  rw [← hrows, ← hq.netRows] at hwalk
  have hlegacy' : (tip (acc ++ [q])).NoLegacy := by
    rw [tip_concat]
    intro vm' iface'
    rw [hq.stateAfter]
    exact hlegacy vm' iface'
  have hafter : (tip (acc ++ [q])).counters (.net vm iface) =
        (readings vm iface q.reading.nics).getLast?.or ((tip acc).counters (.net vm iface)) ∨
      (tip (acc ++ [q])).counters (.net vm iface) = none := by
    rw [tip_concat, hq.stateAfter, ← hmapped]
    exact hsaved vm iface
  -- either the state still has the last value captured, or nothing is read any more
  by_cases hlast : (tip acc).counters (.net vm iface) = (captured vm iface acc).getLast?
  · rw [hlast] at hafter hwalk
    refine ⟨hlegacy', ?_, ?_⟩
    · rwa [captured_concat, List.getLast?_append]
    · rw [captured_concat, List.getLast?_append, List.head?_append, deltaTotal_concat]
      exact h.telescopes.trans_or hwalk
  · have hnone := h.saved.resolve_left hlast
    have hread : readings vm iface q.reading.nics = [] := by
      apply hq.steady.kept hnone
      intro hcap
      rw [hnone, hcap] at hlast
      exact hlast rfl
    rw [hnone, hread] at hafter hwalk
    have hzero : rowsTotal vm iface q.payload.netRows = 0 := hwalk
    refine ⟨hlegacy', .inr (by simpa using hafter), ?_⟩
    rw [captured_concat, hread, List.append_nil, deltaTotal_concat, hzero, add_zero]
    exact h.telescopes

/-- **Along a chain the deltas telescope**, from the first value captured to the last. -/
theorem Chain.spec {acc : List Pending} (h : Chain n vm iface acc) : ChainSpec vm iface acc := by
  induction h with
  | nil => exact ⟨fun _ _ => rfl, .inl rfl, rfl⟩
  | snoc _ hq ih => exact ih.concat hq

end Chain

end VirtInfra.Agent
