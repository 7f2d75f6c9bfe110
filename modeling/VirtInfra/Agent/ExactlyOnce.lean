import VirtInfra.Agent.Chain

/-!
# `ExactlyOnce` — no interval is applied twice and none is lost

The payloads of a node that the monitor accepted form a chain, whatever is lost, duplicated or cut off by a crash. The
invariant behind this (`NodeInv`) is that whatever a node posted is accepted or is its one durable pending payload, and
that the agent collects only from the state after the last accepted payload.
-/

namespace VirtInfra.Agent

open Lib Python Consumption

/-! ## The invariant of one agent -/

section Agent

variable (n : NodeName) (vm iface : String)

/-- The files of an agent: a durable pending payload is new or the last one accepted, and without one the saved state
    is the one after the last accepted payload. -/
def DiskInv (acc sent : List Pending) (disk : Disk) : Prop :=
  match disk.runtime.pending with
  | none => disk.state = tip acc ∧ sent ⊆ acc
  | some q => (Fresh n vm iface acc q ∨ acc.getLast? = some q) ∧ ∀ m ∈ sent, m ∈ acc ∨ m = q

/-- The memory of a running agent, by where its cycle stands. -/
def PhaseInv (acc : List Pending) (disk : Disk) (p : Process) : Prop :=
  match p.phase with
  | .idle | .rotated =>
      p.runtime.pending = disk.runtime.pending ∧ (p.runtime.pending = none → p.committed = tip acc)
  | .sending _ | .waiting _ => p.runtime.pending = disk.runtime.pending ∧ p.runtime.pending ≠ none
  | .answered _ | .configured _ =>
      ∃ q, p.runtime.pending = some q ∧ disk.runtime.pending = some q ∧ acc.getLast? = some q
  | .stateSaved _ =>
      ∃ q, p.runtime.pending = some q ∧ disk.runtime.pending = some q ∧ acc.getLast? = some q ∧
        disk.state = q.stateAfter
  | .collecting => p.runtime.pending = none ∧ disk.runtime.pending = none ∧ p.committed = tip acc
  | .collected => disk.runtime.pending = none ∧ ∃ q, p.runtime.pending = some q ∧ Fresh n vm iface acc q

variable {n vm iface} {acc sent : List Pending} {disk disk' : Disk} {p : Process}

theorem tip_of_getLast? {q : Pending} (h : acc.getLast? = some q) : tip acc = q.stateAfter := by simp [tip, h]

/-- The files agree with the memory again once `runtime.json` is saved, when the pending payload stayed the same. -/
theorem DiskInv.of_pending (h : DiskInv n vm iface acc sent disk) (hstate : disk'.state = disk.state)
    (hpending : disk'.runtime.pending = disk.runtime.pending) : DiskInv n vm iface acc sent disk' := by
  unfold DiskInv at h ⊢
  rw [hpending, hstate]
  exact h

/-- With a pending payload on disk nothing depends on the saved state. -/
theorem DiskInv.saveState {q : Pending} (h : DiskInv n vm iface acc sent disk)
    (hq : disk.runtime.pending = some q) (state : MetricState) :
    DiskInv n vm iface acc sent { disk with state } := by
  unfold DiskInv at h ⊢
  dsimp only
  rw [hq] at h ⊢
  exact h

theorem DiskInv.post {q : Pending} (h : DiskInv n vm iface acc sent disk) (hq : disk.runtime.pending = some q) :
    DiskInv n vm iface acc (sent ++ [q]) disk := by
  unfold DiskInv at h ⊢
  rw [hq] at h ⊢
  refine ⟨h.1, fun m hm => ?_⟩
  rcases List.mem_append.mp hm with hm | hm
  · exact h.2 m hm
  · exact .inr (List.mem_singleton.mp hm)

theorem DiskInv.pendingSpec {q : Pending} (h : DiskInv n vm iface acc sent disk)
    (hq : disk.runtime.pending = some q) :
    (Fresh n vm iface acc q ∨ acc.getLast? = some q) ∧ ∀ m ∈ sent, m ∈ acc ∨ m = q := by
  unfold DiskInv at h
  rwa [hq] at h

theorem DiskInv.clearedSpec (h : DiskInv n vm iface acc sent disk) (hq : disk.runtime.pending = none) :
    disk.state = tip acc ∧ sent ⊆ acc := by
  unfold DiskInv at h
  rwa [hq] at h

/-- A new process finds in its memory what is on disk. -/
theorem DiskInv.boot (h : DiskInv n vm iface acc sent disk) (defaultWarn : ℚ) :
    PhaseInv n vm iface acc disk (disk.boot defaultWarn) :=
  ⟨rfl, fun hnone => (h.clearedSpec hnone).1⟩

/-- A pending payload that has its receipt is the last one accepted. -/
theorem DiskInv.last_of_time {q : Pending} (h : DiskInv n vm iface acc sent disk)
    (hq : disk.runtime.pending = some q) (htime : ∃ m ∈ acc, m.payload.time = q.payload.time) :
    acc.getLast? = some q := by
  obtain ⟨m, hm, heq⟩ := htime
  rcases (h.pendingSpec hq).1 with hfresh | hlast
  · exact absurd heq (hfresh.time_ne hm)
  · exact hlast

/-- What a collection makes pending is new. -/
theorem collect_fresh {reading : Reading} (hcommitted : p.committed = tip acc) (hsub : acc ⊆ sent)
    (hsteady : SteadyReading vm iface sent p.committed reading) :
    ∃ q, (p.collect n reading).runtime.pending = some q ∧ Fresh n vm iface acc q := by
  refine ⟨p.newPending n reading, rfl, ⟨⟨p.ppsWarn, p.runtime.carry, ?_⟩, ?_⟩⟩
  · rw [← hcommitted]
    rfl
  · rw [← hcommitted]
    exact hsteady.mono hsub

/-- **A step of a running agent keeps the invariant.** -/
theorem Process.step_inv {op : Op} {next : Option Process} (hsub : acc ⊆ sent)
    (hdisk : DiskInv n vm iface acc sent disk) (hp : PhaseInv n vm iface acc disk p)
    (hcollect : ∀ reading, op = .collect reading → SteadyReading vm iface sent p.committed reading)
    (hanswer : ∀ w, op = .answer w → ∀ q, p.runtime.pending = some q → ∃ m ∈ acc, m.payload.time = q.payload.time)
    (hstep : p.step n disk op = some (disk', next)) :
    DiskInv n vm iface acc (sent ++ posted ⟨disk, some p⟩ (.run op)) disk' ∧
      ∀ p', next = some p' → PhaseInv n vm iface acc disk' p' := by
  unfold Process.step at hstep
  unfold PhaseInv at hp
  cases op with
  | sample scans stale =>
      cases hstep
      simp only [posted, List.append_nil]
      refine ⟨hdisk, ?_⟩
      rintro p' ⟨rfl⟩
      exact hp
  | rotate scans stale =>
      dsimp only at hstep
      split at hstep <;> cases hstep
      rename_i hphase
      rw [hphase] at hp
      simp only [posted, List.append_nil]
      refine ⟨hdisk, ?_⟩
      rintro p' ⟨rfl⟩
      exact hp
  | saveRotated =>
      dsimp only at hstep
      split at hstep <;> cases hstep
      rename_i hphase
      rw [hphase] at hp
      obtain ⟨hsame, htip⟩ := hp
      simp only [posted, List.append_nil]
      refine ⟨hdisk.of_pending rfl hsame, ?_⟩
      rintro p' ⟨rfl⟩
      -- a pending payload is retried before anything is collected
      cases hpending : p.runtime.pending with
      | none => simpa [PhaseInv, hpending] using htip hpending
      | some q => simp [PhaseInv, hpending]
  | post =>
      dsimp only at hstep
      split at hstep <;> cases hstep
      rename_i hphase
      rw [hphase] at hp
      obtain ⟨hsame, hsome⟩ := hp
      obtain ⟨q, hq⟩ := Option.ne_none_iff_exists'.mp hsome
      have hposted : posted ⟨disk, some p⟩ (.run .post) = [q] := by simp [posted, AgentState.pending, hq]
      rw [hposted]
      refine ⟨hdisk.post (hsame ▸ hq), ?_⟩
      rintro p' ⟨rfl⟩
      exact ⟨hsame, hsome⟩
  | noAnswer =>
      dsimp only at hstep
      split at hstep <;> cases hstep
      rename_i hphase
      rw [hphase] at hp
      simp only [posted, List.append_nil]
      refine ⟨hdisk, ?_⟩
      rintro p' ⟨rfl⟩
      exact ⟨hp.1, fun hnone => absurd hnone hp.2⟩
  | answer w =>
      dsimp only at hstep
      split at hstep <;> cases hstep
      rename_i hphase
      rw [hphase] at hp
      obtain ⟨hsame, hsome⟩ := hp
      obtain ⟨q, hq⟩ := Option.ne_none_iff_exists'.mp hsome
      simp only [posted, List.append_nil]
      refine ⟨hdisk, ?_⟩
      rintro p' ⟨rfl⟩
      exact ⟨q, hq, hsame ▸ hq, hdisk.last_of_time (hsame ▸ hq) (hanswer w rfl q hq)⟩
  | saveConfig =>
      dsimp only at hstep
      split at hstep <;> cases hstep
      rename_i hphase
      rw [hphase] at hp
      obtain ⟨q, hq, hqdisk, hlast⟩ := hp
      simp only [posted, List.append_nil]
      refine ⟨hdisk.of_pending rfl (hq.trans hqdisk.symm), ?_⟩
      rintro p' ⟨rfl⟩
      exact ⟨q, hq, hq, hlast⟩
  | saveState =>
      dsimp only at hstep
      split at hstep <;> cases hstep
      rename_i hphase hpending
      rw [hphase] at hp
      obtain ⟨q, hq, hqdisk, hlast⟩ := hp
      cases hpending.symm.trans hq
      simp only [posted, List.append_nil]
      refine ⟨hdisk.saveState hqdisk _, ?_⟩
      rintro p' ⟨rfl⟩
      exact ⟨_, hq, hqdisk, hlast, rfl⟩
  | clearPending =>
      dsimp only at hstep
      split at hstep <;> cases hstep
      rename_i stage pending hphase hpending
      rw [hphase] at hp
      obtain ⟨q, hq, hqdisk, hlast, hstate⟩ := hp
      cases hpending.symm.trans hq
      simp only [posted, List.append_nil]
      have htip := tip_of_getLast? hlast
      have hsent : sent ⊆ acc := by
        intro m hm
        rcases (hdisk.pendingSpec hqdisk).2 m hm with hm | rfl
        · exact hm
        · exact List.mem_of_getLast? hlast
      refine ⟨⟨hstate.trans htip.symm, hsent⟩, ?_⟩
      rintro p' ⟨rfl⟩
      cases stage with
      | retry => exact ⟨rfl, rfl, htip.symm⟩
      | current => exact ⟨rfl, fun _ => htip.symm⟩
  | collect reading =>
      dsimp only at hstep
      split at hstep <;> cases hstep
      rename_i hphase
      rw [hphase] at hp
      obtain ⟨-, hnone, hcommitted⟩ := hp
      simp only [posted, List.append_nil]
      refine ⟨hdisk, ?_⟩
      rintro p' ⟨rfl⟩
      exact ⟨hnone, collect_fresh hcommitted hsub (hcollect reading rfl)⟩
  | savePending =>
      dsimp only at hstep
      split at hstep <;> cases hstep
      rename_i hphase
      rw [hphase] at hp
      obtain ⟨hnone, q, hq, hfresh⟩ := hp
      simp only [posted, List.append_nil]
      constructor
      · unfold DiskInv
        dsimp only
        rw [hq]
        exact ⟨.inl hfresh, fun m hm => .inl ((hdisk.clearedSpec hnone).2 hm)⟩
      · rintro p' ⟨rfl⟩
        exact ⟨rfl, by simp [hq]⟩
  | stop scans stale =>
      dsimp only at hstep
      split at hstep <;> cases hstep
      rename_i hphase
      rw [hphase] at hp
      simp only [posted, List.append_nil]
      refine ⟨hdisk.of_pending rfl hp.1, ?_⟩
      rintro p' ⟨⟩

/-- **A step of an agent keeps the invariant**, crashes and restarts included. -/
theorem AgentState.step_inv {a a' : AgentState} {act : Act} {defaultWarn : ℚ} (hsub : acc ⊆ sent)
    (hdisk : DiskInv n vm iface acc sent a.disk) (hp : ∀ p, a.process = some p → PhaseInv n vm iface acc a.disk p)
    (hcollect : ∀ reading, act = .run (.collect reading) → ∀ p, a.process = some p →
      SteadyReading vm iface sent p.committed reading)
    (hanswer : ∀ w, act = .run (.answer w) → ∀ q, a.pending = some q →
      ∃ m ∈ acc, m.payload.time = q.payload.time)
    (hstep : a.step n defaultWarn act = some a') :
    DiskInv n vm iface acc (sent ++ posted a act) a'.disk ∧
      ∀ p, a'.process = some p → PhaseInv n vm iface acc a'.disk p := by
  cases act with
  | boot =>
      dsimp only [AgentState.step] at hstep
      split at hstep <;> cases hstep
      simp only [posted, List.append_nil]
      refine ⟨hdisk, ?_⟩
      rintro p ⟨rfl⟩
      exact hdisk.boot defaultWarn
  | crash =>
      cases hstep
      simp only [posted, List.append_nil]
      refine ⟨hdisk, ?_⟩
      rintro p ⟨⟩
  | run op =>
      obtain ⟨p, hproc, hmap⟩ := Option.bind_eq_some_iff.mp hstep
      obtain ⟨⟨disk', next⟩, hop, rfl⟩ := Option.map_eq_some_iff.mp hmap
      have hpending : a.pending = p.runtime.pending := by simp [AgentState.pending, hproc]
      have hposted : posted a (.run op) = posted ⟨a.disk, some p⟩ (.run op) := by
        cases op <;> simp [posted, AgentState.pending, hproc]
      rw [hposted]
      apply Process.step_inv hsub hdisk (hp p hproc) _ _ hop
      · rintro reading rfl
        exact hcollect reading rfl p hproc
      · rintro w rfl q hq
        exact hanswer w rfl q (hpending.trans hq)

/-- **An accepted payload extends the chain.** It can only be the durable pending one, and a new one. -/
theorem DiskInv.accept {m : Pending} (hdisk : DiskInv n vm iface acc sent disk)
    (hsent : m ∈ sent) (hnew : m ∉ acc) :
    Fresh n vm iface acc m ∧ DiskInv n vm iface (acc ++ [m]) sent disk ∧
      ∀ p, PhaseInv n vm iface acc disk p → PhaseInv n vm iface (acc ++ [m]) disk p := by
  cases hpending : disk.runtime.pending with
  | none => exact absurd ((hdisk.clearedSpec hpending).2 hsent) hnew
  | some q =>
      obtain ⟨hq, hsub⟩ := hdisk.pendingSpec hpending
      obtain rfl := (hsub m hsent).resolve_left hnew
      have hlast : acc.getLast? ≠ some m := fun h => hnew (List.mem_of_getLast? h)
      refine ⟨hq.resolve_right hlast, ?_, ?_⟩
      · unfold DiskInv
        rw [hpending]
        refine ⟨.inr (by simp), fun m' hm' => ?_⟩
        exact (hsub m' hm').imp_left fun h => List.mem_append_left _ h
      · intro p hp
        unfold PhaseInv at hp ⊢
        -- only the phases before an answer can see a payload accepted
        cases hphase : p.phase <;> rw [hphase] at hp <;> dsimp only at hp ⊢
        case idle => exact ⟨hp.1, fun hnone => absurd (hp.1.symm.trans hnone) (by simp [hpending])⟩
        case rotated => exact ⟨hp.1, fun hnone => absurd (hp.1.symm.trans hnone) (by simp [hpending])⟩
        case sending => exact hp
        case waiting => exact hp
        case answered =>
          obtain ⟨q, -, hqdisk, hqlast⟩ := hp
          cases hpending.symm.trans hqdisk
          exact absurd hqlast hlast
        case configured =>
          obtain ⟨q, -, hqdisk, hqlast⟩ := hp
          cases hpending.symm.trans hqdisk
          exact absurd hqlast hlast
        case stateSaved =>
          obtain ⟨q, -, hqdisk, hqlast, -⟩ := hp
          cases hpending.symm.trans hqdisk
          exact absurd hqlast hlast
        case collecting => exact absurd (hpending.symm.trans hp.2.1) (by simp)
        case collected => exact absurd (hpending.symm.trans hp.1) (by simp)

end Agent

/-! ## What the monitor applies -/

/-- `"-"` stands for no VM. -/
def IsVm (vm : String) : Prop := vm ≠ "" ∧ vm ≠ "-"

/-- The row staged for a payload row. -/
theorem stageRow_item (off : Int) (node : String) (dataTime bucket interval : Int) (row : PayloadRow) :
    (¬ IsVm row.vmUuid ∧ stageRow off node dataTime bucket interval row.item = none) ∨
    ∃ staged, stageRow off node dataTime bucket interval row.item = some staged ∧
      staged.vmUuid = row.vmUuid ∧ staged.iface = row.iface ∧ staged.deltas = row.deltas := by
  have hstrip : strip row.item.vmUuid = row.vmUuid := row.vm_stripped
  unfold stageRow
  simp only [hstrip]
  by_cases hvm : row.vmUuid = "" ∨ row.vmUuid = "-"
  · exact .inl ⟨fun h => hvm.elim h.1 h.2, if_pos hvm⟩
  · exact .inr ⟨_, if_neg hvm, rfl, rfl, rfl⟩

/-- The staged rows of a payload carry its deltas. -/
theorem stagedTotal_items {vm : String} (hvm : IsVm vm) (iface : String) (off : Int) (node : String)
    (dataTime bucket interval : Int) (rows : List PayloadRow) :
    stagedTotal vm iface (ifaceRows off node dataTime bucket interval (rows.map fun row => some row.item)) =
      rowsTotal vm iface (rows.map PayloadRow.toNetRow) := by
  induction rows with
  | nil => rfl
  | cons row rest ih =>
      unfold stagedTotal rowsTotal ifaceRows at ih ⊢
      simp only [List.map_cons, List.filterMap_cons, Option.bind_some]
      rcases stageRow_item off node dataTime bucket interval row with ⟨hno, hnone⟩ | ⟨staged, hsome, hname, hiface, hdeltas⟩
      · -- a row that names no VM is not staged, and is no row of `vm` either
        have hne : row.vmUuid ≠ vm := by
          rintro rfl
          exact hno hvm
        rw [hnone]
        simpa [hne] using ih
      · rw [hsome]
        by_cases hrow : row.vmUuid = vm ∧ row.iface = iface
        · simpa [hname, hiface, hdeltas, hrow] using congrArg (row.deltas + ·) ih
        · simpa [hname, hiface, hdeltas, hrow] using ih

variable {d : Deployment}

theorem ingest_of_not_accepted {now : Int} {req : PushRequest} {mon : Monitor}
    (h : acceptedSample d.config now req mon = none) : (ingest d.config now req mon).1 = mon := by
  unfold acceptedSample at h
  unfold ingest
  cases hvalid : validatePush d.config now req with
  | error reply => rfl
  | ok sample =>
      rw [hvalid] at h
      dsimp only at h ⊢
      split at h
      · rename_i hdup
        rw [if_pos hdup]
      · cases h

/-- What the monitor takes from an accepted payload. -/
theorem acceptedSample_request {now : Int} {m : Pending} {mon : Monitor} {sample : Sample}
    (h : acceptedSample d.config now m.payload.request mon = some sample) :
    sample.node = m.payload.node.val ∧ sample.dataTime = m.payload.time ∧
    sample.interfaces = m.payload.interfaces.map (fun row => some row.item) ∧
    mon.hasReceipt sample = false ∧
    (ingest d.config now m.payload.request mon).1.receipts =
      ⟨sample.node, sample.dataTime, bucketFor sample.dataTime, now⟩ :: mon.receipts := by
  unfold acceptedSample at h
  unfold ingest
  cases hvalid : validatePush d.config now m.payload.request with
  | error reply => rw [hvalid] at h; cases h
  | ok s =>
      rw [hvalid] at h
      dsimp only at h ⊢
      split at h
      · cases h
      · rename_i hnew
        cases h
        have hnode : strip m.payload.request.node = m.payload.node.val := m.payload.node.property
        unfold validatePush at hvalid
        simp only [hnode] at hvalid
        split at hvalid
        · cases hvalid
        split at hvalid
        · cases hvalid
        split at hvalid
        · cases hvalid
        dsimp only [Payload.request] at hvalid
        cases hvalid
        rw [if_neg hnew]
        exact ⟨rfl, rfl, rfl, by simpa using hnew, rfl⟩

/-! ## The invariant of the system -/

/-- An agent's pending payload carries the agent's own name. -/
structure AgentState.Named (n : NodeName) (a : AgentState) : Prop where
  disk : ∀ q, a.disk.runtime.pending = some q → q.payload.node = n
  memory : ∀ p q, a.process = some p → p.runtime.pending = some q → q.payload.node = n

theorem AgentState.Named.step {n : NodeName} {a a' : AgentState} {act : Act} {defaultWarn : ℚ} (h : a.Named n)
    (hstep : a.step n defaultWarn act = some a') : a'.Named n := by
  cases act with
  | boot =>
      dsimp only [AgentState.step] at hstep
      split at hstep <;> cases hstep
      refine ⟨h.disk, ?_⟩
      rintro p q ⟨rfl⟩ hq
      exact h.disk q hq
  | crash =>
      cases hstep
      exact ⟨h.disk, by rintro p q ⟨⟩⟩
  | run op =>
      obtain ⟨p, hproc, hmap⟩ := Option.bind_eq_some_iff.mp hstep
      obtain ⟨⟨disk', next⟩, hop, rfl⟩ := Option.map_eq_some_iff.mp hmap
      obtain ⟨hdisk, hmem⟩ := Process.step_pending hop
      constructor
      · intro q hq
        exact (hdisk q hq).elim (h.disk q) (h.memory p q hproc)
      · intro p' q hp' hq
        rcases hmem p' q hp' hq with hold | ⟨reading, -, rfl⟩
        · exact h.memory p q hproc hold
        · rfl

/-- The payloads a node posts are its own. -/
theorem AgentState.Named.posted {n : NodeName} {a : AgentState} (h : a.Named n) (act : Act) :
    ∀ q ∈ posted a act, q.payload.node = n := by
  unfold Agent.posted
  split
  · intro q hq
    obtain ⟨p, hproc, hpending⟩ := Option.bind_eq_some_iff.mp (Option.mem_toList.mp hq)
    exact h.memory p q hproc hpending
  · exact fun q hq => absurd hq List.not_mem_nil

theorem named_of_reachable {ok : World → Label → Prop} {s : World} (h : (system d).Reachable ok s) (n : NodeName) :
    (s.agents n).Named n := by
  induction h with
  | init h =>
      obtain ⟨policy, rfl⟩ := h
      exact ⟨by rintro q ⟨⟩, by rintro p q ⟨⟩⟩
  | @step s s' label _ _ hstep ih =>
      cases label with
      | agent m act =>
          dsimp only [system, World.step] at hstep
          split at hstep
          · obtain ⟨a', ha', rfl⟩ := Option.map_eq_some_iff.mp hstep
            by_cases hm : n = m
            · subst hm
              simpa using ih.step ha'
            · simpa [hm] using ih
          · cases hstep
      | deliver i now =>
          obtain ⟨m, -, rfl⟩ := Option.map_eq_some_iff.mp hstep
          dsimp only [World.receive]
          split <;> exact ih
      | respond node time =>
          dsimp only [system, World.step] at hstep
          split at hstep <;> cases hstep
          exact ih
      | setPolicy policy =>
          cases hstep
          exact ih

section System

variable (n : NodeName) (vm iface : String)

/-- **Steady runs**: every collection of the node reads the interface as it should be, after the payloads sent so
    far. Nothing is asked of the order of steps, of the network, or of when agents crash. -/
def SteadyRun (s : World) : Label → Prop
  | .agent m (.run (.collect reading)) =>
      m = n → ∀ p ∈ (s.agents n).process, SteadyReading vm iface (ofNode n s.sent) p.committed reading
  | _ => True

instance (s : World) (label : Label) : Decidable (SteadyRun n vm iface s label) := by
  unfold SteadyRun
  split <;> infer_instance

/-- The invariant of a node, its agent and what the monitor has of it. -/
structure NodeInv (s : World) : Prop where
  chain : Chain n vm iface (ofNode n s.accepted)
  disk : DiskInv n vm iface (ofNode n s.accepted) (ofNode n s.sent) (s.agents n).disk
  process : ∀ p, (s.agents n).process = some p → PhaseInv n vm iface (ofNode n s.accepted) (s.agents n).disk p
  sent : s.accepted ⊆ s.sent
  receipts : ∀ time, (∃ r ∈ s.monitor.receipts, r.node = n.val ∧ r.pushTime = time) ↔
    ∃ m ∈ ofNode n s.accepted, m.payload.time = time
  responses : ∀ time w, (n.val, time, w) ∈ s.responses → ∃ m ∈ ofNode n s.accepted, m.payload.time = time
  applied : s.applied n.val vm iface = deltaTotal vm iface (ofNode n s.accepted)

variable {n vm iface}

theorem mem_ofNode {l : List Pending} {m : Pending} : m ∈ ofNode n l ↔ m ∈ l ∧ m.payload.node = n := by
  simp [ofNode]

theorem ofNode_append_self {l l' : List Pending} (h : ∀ m ∈ l', m.payload.node = n) :
    ofNode n (l ++ l') = ofNode n l ++ l' := by
  have hall : ofNode n l' = l' := List.filter_eq_self.mpr (by simpa using h)
  unfold ofNode at hall ⊢
  rw [List.filter_append, hall]

theorem ofNode_append_other {l l' : List Pending} (h : ∀ m ∈ l', m.payload.node ≠ n) :
    ofNode n (l ++ l') = ofNode n l := by
  have hnone : ofNode n l' = [] := List.filter_eq_nil_iff.mpr (by simpa using h)
  unfold ofNode at hnone ⊢
  rw [List.filter_append, hnone, List.append_nil]

theorem NodeInv.agent {s s' : World} {m : NodeName} {act : Act} (hinv : NodeInv n vm iface s)
    (hnamed : (s.agents m).Named m) (hsteady : SteadyRun n vm iface s (.agent m act))
    (hstep : s.step d (.agent m act) = some s') : NodeInv n vm iface s' := by
  dsimp only [World.step] at hstep
  split at hstep
  case isFalse => cases hstep
  rename_i hanswers
  obtain ⟨a', ha', rfl⟩ := Option.map_eq_some_iff.mp hstep
  have hposted := hnamed.posted act
  have hsent : s.accepted ⊆ s.sent ++ posted (s.agents m) act :=
    fun q hq => List.mem_append_left _ (hinv.sent hq)
  by_cases hm : m = n
  · subst hm
    have hsub : ofNode m s.accepted ⊆ ofNode m s.sent := by
      intro q hq
      rw [mem_ofNode] at hq ⊢
      exact hq.imp_left fun h => hinv.sent h
    obtain ⟨hdisk, hprocess⟩ := AgentState.step_inv hsub hinv.disk hinv.process
      (by
        rintro reading rfl p hp
        exact hsteady rfl p hp)
      (by
        rintro w rfl q hq
        -- an answer was written for a payload that has its receipt
        simp only [World.answers, hq, List.contains_iff_mem] at hanswers
        obtain ⟨p, hproc, hpending⟩ := Option.bind_eq_some_iff.mp hq
        rw [hnamed.memory p q hproc hpending] at hanswers
        exact hinv.responses _ _ hanswers)
      ha'
    exact
      { chain := hinv.chain
        disk := by
          dsimp only
          rw [ofNode_append_self hposted, Function.update_self]
          exact hdisk
        process := by
          dsimp only
          rw [Function.update_self]
          exact hprocess
        sent := hsent
        receipts := hinv.receipts
        responses := hinv.responses
        applied := hinv.applied }
  · have hother : ∀ q ∈ posted (s.agents m) act, q.payload.node ≠ n := by
      intro q hq
      rw [hposted q hq]
      exact hm
    exact
      { chain := hinv.chain
        disk := by
          dsimp only
          rw [ofNode_append_other hother, Function.update_of_ne (Ne.symm hm)]
          exact hinv.disk
        process := by
          dsimp only
          rw [Function.update_of_ne (Ne.symm hm)]
          exact hinv.process
        sent := hsent
        receipts := hinv.receipts
        responses := hinv.responses
        applied := hinv.applied }

theorem NodeInv.deliver {s : World} {m : Pending} {now : Int} (hvm : IsVm vm) (hinv : NodeInv n vm iface s)
    (hm : m ∈ s.sent) : NodeInv n vm iface (s.receive d now m) := by
  unfold World.receive
  dsimp only
  cases hacc : acceptedSample d.config now m.payload.request s.monitor with
  | none =>
      dsimp only
      rw [ingest_of_not_accepted hacc]
      exact hinv
  | some sample =>
      obtain ⟨hnode, htime, hitems, hnew, hreceipts⟩ := acceptedSample_request hacc
      have hsent : s.accepted ++ [m] ⊆ s.sent := by
        intro q hq
        rcases List.mem_append.mp hq with hq | hq
        · exact hinv.sent hq
        · rwa [List.mem_singleton.mp hq]
      by_cases hmn : m.payload.node = n
      · have hself : ∀ q ∈ [m], q.payload.node = n := by simpa using hmn
        have hval : n.val = sample.node := by rw [hnode, hmn]
        have hnotin : m ∉ ofNode n s.accepted := by
          intro hmem
          obtain ⟨r, hr, hrnode, hrtime⟩ := (hinv.receipts m.payload.time).mpr ⟨m, hmem, rfl⟩
          have hdup : s.monitor.hasReceipt sample = true :=
            List.any_eq_true.mpr ⟨r, hr, by simp [hrnode, hrtime, hval, htime]⟩
          rw [hdup] at hnew
          cases hnew
        obtain ⟨hfresh, hdisk, hprocess⟩ := hinv.disk.accept (mem_ofNode.mpr ⟨hm, hmn⟩) hnotin
        have hof := ofNode_append_self (l := s.accepted) hself
        exact
          { chain := by
              dsimp only [World.accept]
              rw [hof]
              exact .snoc hinv.chain hfresh
            disk := by
              dsimp only [World.accept]
              rw [hof]
              exact hdisk
            process := by
              dsimp only [World.accept]
              rw [hof]
              exact fun p hp => hprocess p (hinv.process p hp)
            sent := hsent
            receipts := by
              intro time
              dsimp only [World.accept]
              rw [hof, hreceipts]
              simp only [List.mem_cons, List.mem_append, or_and_right, exists_or,
                List.not_mem_nil, or_false, exists_eq_left]
              rw [hinv.receipts time, htime, or_comm]
              simp [hval]
            responses := by
              intro time w hw
              dsimp only [World.accept] at hw ⊢
              rw [hof]
              obtain ⟨q, hq, hqt⟩ := hinv.responses time w hw
              exact ⟨q, List.mem_append_left _ hq, hqt⟩
            applied := by
              dsimp only [World.accept]
              rw [hof, if_pos hval, deltaTotal_concat, hinv.applied]
              unfold Sample.stage
              rw [hitems, stagedTotal_items hvm]
              rfl }
      · have hother : ∀ q ∈ [m], q.payload.node ≠ n := by simpa using hmn
        have hval : n.val ≠ sample.node := by
          rw [hnode]
          exact fun h => hmn (Subtype.ext h.symm)
        have hof := ofNode_append_other (l := s.accepted) hother
        exact
          { chain := by
              dsimp only [World.accept]
              rw [hof]
              exact hinv.chain
            disk := by
              dsimp only [World.accept]
              rw [hof]
              exact hinv.disk
            process := by
              dsimp only [World.accept]
              rw [hof]
              exact hinv.process
            sent := hsent
            receipts := by
              intro time
              dsimp only [World.accept]
              rw [hof, hreceipts, ← hinv.receipts time]
              simp [hval.symm]
            responses := by
              intro time w hw
              dsimp only [World.accept] at hw ⊢
              rw [hof]
              exact hinv.responses time w hw
            applied := by
              dsimp only [World.accept]
              rw [hof, if_neg hval]
              exact hinv.applied }

theorem nodeInv_init (policy : PpsPolicy) : NodeInv n vm iface (World.init policy) where
  chain := .nil
  disk := ⟨rfl, fun _ h => h⟩
  process := by rintro p ⟨⟩
  sent := fun _ h => h
  receipts time := by simp [World.init, Monitor.init, ofNode]
  responses time w h := absurd h List.not_mem_nil
  applied := rfl

theorem NodeInv.step {s s' : World} {label : Label} (hvm : IsVm vm) (hinv : NodeInv n vm iface s)
    (hnamed : ∀ m, (s.agents m).Named m) (hsteady : SteadyRun n vm iface s label)
    (hstep : s.step d label = some s') : NodeInv n vm iface s' := by
  cases label with
  | agent m act => exact hinv.agent (hnamed m) hsteady hstep
  | deliver i now =>
      obtain ⟨m, hm, rfl⟩ := Option.map_eq_some_iff.mp hstep
      exact hinv.deliver hvm (List.mem_of_getElem? hm)
  | respond node time =>
      dsimp only [World.step] at hstep
      split at hstep <;> cases hstep
      rename_i hreceipt
      refine { hinv with responses := ?_ }
      intro t w hw
      rcases List.mem_append.mp hw with hw | hw
      · exact hinv.responses t w hw
      · obtain ⟨hnode, htime, -⟩ := by simpa using hw
        obtain ⟨r, hr, heq⟩ := List.any_eq_true.mp hreceipt
        refine (hinv.receipts t).mp ⟨r, hr, ?_⟩
        simpa [← hnode, ← htime] using heq
  | setPolicy policy =>
      cases hstep
      exact { hinv with }

theorem nodeInv_of_reachable (hvm : IsVm vm) {s : World} (h : (system d).Reachable (SteadyRun n vm iface) s) :
    NodeInv n vm iface s := by
  apply h.invariant
  · rintro s ⟨policy, rfl⟩
    exact nodeInv_init policy
  · intro s label s' hreach hinv hok hstep
    exact hinv.step hvm (named_of_reachable hreach) hok hstep

/-- **Every interval is applied exactly once.** In a steady run, over any interleaving of lost, duplicated and late
    messages, crashes and restarts, the deltas applied for an interface lead from the first counters an accepted payload
    captured of it to the last; before the first one nothing is applied. -/
theorem applied_exactly_once (hvm : IsVm vm) {s : World} (h : (system d).Reachable (SteadyRun n vm iface) s) :
    (captured vm iface (ofNode n s.accepted) = [] → s.applied n.val vm iface = 0) ∧
    ∀ first last, (captured vm iface (ofNode n s.accepted)).head? = some first →
      (captured vm iface (ofNode n s.accepted)).getLast? = some last →
      s.applied n.val vm iface + first = last := by
  have hinv := nodeInv_of_reachable hvm h
  have htele := hinv.chain.spec.telescopes
  rw [← hinv.applied] at htele
  constructor
  · intro hnil
    rw [hnil] at htele
    exact htele
  · intro first last hfirst hlast
    rw [hfirst, hlast] at htele
    exact htele

end System

/-- One VM with one interface, read as `rx` and `tx` bytes. -/
def Reading.sample (now : Int) (rx tx : Nat) : Reading :=
  { now, heavyCollectionSkipped := false, inventoryComplete := true
    nics := [⟨"vm1", "tap0", "br0", some ⟨rx, tx, 0, 0, 0, 0, 0, 0⟩, by decide⟩] }

/-- Boot and the rotation a cycle starts with. -/
def bootSteps : List Label := [.boot, .run (.rotate [] []), .run .saveRotated].map (.agent NodeName.sample)

/-- The steps of an agent up to the request of a payload collected from `reading`. -/
def postSteps (reading : Reading) : List Label :=
  [.run (.collect reading), .run .savePending, .run .post].map (.agent NodeName.sample)

/-- The steps of an agent after an answer. -/
def clearSteps : List Label :=
  [.run (.answer 200000), .run .saveConfig, .run .saveState, .run .clearPending].map (.agent NodeName.sample)

/-- The first payload is accepted, its response is lost in a crash, and it is delivered twice; then comes a second one. -/
def retriedRun : List Label :=
  bootSteps ++ postSteps (Reading.sample 72000 1000 500) ++ [.deliver 0 72001, .agent NodeName.sample .crash] ++
  bootSteps ++ [.agent NodeName.sample (.run .post), .deliver 1 72301, .respond "node1" 72000] ++ clearSteps ++
  postSteps (Reading.sample 72302 1700 900) ++ [.deliver 2 72303]

theorem applied_exactly_once_retried : ∃ s,
    (system Deployment.sample).Reachable (SteadyRun NodeName.sample "vm1" "tap0") s ∧
    s.applied "node1" "vm1" "tap0" + ⟨1000, 500, 0, 0, 0, 0, 0, 0⟩ = ⟨1700, 900, 0, 0, 0, 0, 0, 0⟩ := by
  have hrun : (((system Deployment.sample).exec (SteadyRun NodeName.sample "vm1" "tap0") (World.init PpsPolicy.sample)
      retriedRun).map fun s => captured "vm1" "tap0" (ofNode NodeName.sample s.accepted)) =
      some [⟨1000, 500, 0, 0, 0, 0, 0, 0⟩, ⟨1700, 900, 0, 0, 0, 0, 0, 0⟩] := by decide +kernel
  obtain ⟨s, hexec, hcaptured⟩ := Option.map_eq_some_iff.mp hrun
  have hreach : (system Deployment.sample).Reachable (SteadyRun NodeName.sample "vm1" "tap0") s :=
    .exec (.init ⟨_, rfl⟩) hexec
  refine ⟨s, hreach, (applied_exactly_once ⟨by decide, by decide⟩ hreach).2 _ _ ?_ ?_⟩
  · rw [hcaptured]
    rfl
  · rw [hcaptured]
    rfl

end VirtInfra.Agent
